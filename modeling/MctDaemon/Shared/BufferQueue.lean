import MctDaemon.Shared.Buffer

/-!
The ring buffer as a queue of byte strings. `Holds` ties the two positions
and the cells between them to the bytes in use, `Represents` reads these
bytes as entries. Each operation has one lemma about the representation; the
refinement of the queue is their composition over a run.
-/

namespace MctDaemon.Shared

open Lib

/-- The head `mct_buffer_push3` writes before an entry of `len` bytes. -/
def entryHead (len : Nat) : MctBufferBlockHead where
  head := mctBufferHead
  status := 2
  size := len

def entryBytes (entry : List UInt8) : List UInt8 :=
  (entryHead entry.length).toBytes ++ entry

def entrySize (entry : List UInt8) : Nat := sizeofBlockHead + entry.length

def queueBytes (queue : List (List UInt8)) : List UInt8 :=
  (queue.map entryBytes).flatten

def queueSize (queue : List (List UInt8)) : Nat :=
  (queue.map entrySize).sum

/-- The bytes from `read` up to `write` are `bytes`. -/
structure Holds (buf : MctBuffer) (read : Nat) (write : Int) (bytes : List UInt8) :
    Prop where
  mem_length : buf.mem.length = buf.size
  size_small : buf.size < 2147483648
  read_le : read ≤ buf.size
  fits : bytes.length ≤ buf.size
  write_eq : write = (ringAdvance buf.size read bytes.length : Nat)
  cells : ringRead buf.mem read bytes.length = bytes

/-- The buffer stores exactly the entries of the queue, oldest first. -/
structure Represents (buf : MctBuffer) (queue : List (List UInt8)) : Prop where
  read_nonneg : 0 ≤ buf.read
  count_eq : buf.count = queue.length
  holds : Holds buf buf.read.toNat buf.write (queueBytes queue)

/-- Two buffers that differ in contents and positions only. -/
structure SameLimits (buf other : MctBuffer) : Prop where
  size_eq : buf.size = other.size
  min_eq : buf.minSize = other.minSize
  max_eq : buf.maxSize = other.maxSize
  step_eq : buf.stepSize = other.stepSize
  resets_eq : buf.resets = other.resets

section Entries

theorem toBytes_length (h : MctBufferBlockHead) (hhead : h.head.length = 4) :
    h.toBytes.length = sizeofBlockHead := by
  simp [MctBufferBlockHead.toBytes, hhead, sizeofBlockHead]

theorem ofBytes_toBytes (len : Nat) (hlen : len < 2147483648) :
    MctBufferBlockHead.ofBytes (entryHead len).toBytes = entryHead len := by
  have hsize : int32 (leNat (leBytes 4 len)) = len := by
    rw [leNat_leBytes 4 len (by omega), int32_natCast hlen]
  have hcast : uint32 (len : Int) = len := uint32_natCast (by omega)
  simp [MctBufferBlockHead.ofBytes, MctBufferBlockHead.toBytes, entryHead, mctBufferHead,
    slice, hcast, List.take_of_length_le, hsize]

@[simp] theorem entryBytes_length (entry : List UInt8) :
    (entryBytes entry).length = entrySize entry := by
  simp [entryBytes, entrySize, toBytes_length, entryHead, mctBufferHead]

@[simp] theorem queueBytes_length (queue : List (List UInt8)) :
    (queueBytes queue).length = queueSize queue := by
  induction queue with
  | nil => rfl
  | cons entry rest ih =>
      simp only [queueBytes, queueSize, List.map_cons, List.flatten_cons, List.sum_cons,
        List.length_append, entryBytes_length] at ih ⊢
      omega

@[simp] theorem queueBytes_cons (entry : List UInt8) (rest : List (List UInt8)) :
    queueBytes (entry :: rest) = entryBytes entry ++ queueBytes rest := rfl

@[simp] theorem queueBytes_nil : queueBytes [] = [] := rfl

@[simp] theorem queueSize_nil : queueSize [] = 0 := rfl

@[simp] theorem queueSize_cons (entry : List UInt8) (rest : List (List UInt8)) :
    queueSize (entry :: rest) = entrySize entry + queueSize rest := rfl

theorem queueBytes_append (queue : List (List UInt8)) (entry : List UInt8) :
    queueBytes (queue ++ [entry]) = queueBytes queue ++ entryBytes entry := by
  simp [queueBytes]

theorem queueSize_pos (queue : List (List UInt8)) (h : queue ≠ []) :
    0 < queueSize queue := by
  cases queue with
  | nil => exact absurd rfl h
  | cons entry rest =>
      simp only [queueSize_cons, entrySize, sizeofBlockHead]
      omega

end Entries

section Blocks

variable {buf : MctBuffer}

theorem mctBufferWriteBlock_eq (pos : Nat) (data : List UInt8)
    (hmem : buf.mem.length = buf.size) (hsmall : buf.size < 2147483648)
    (hpos : pos ≤ buf.size) (hdata : data.length ≤ buf.size) :
    mctBufferWriteBlock buf pos data =
      ({buf with mem := ringWrite buf.mem pos data},
        ((ringAdvance buf.size pos data.length : Nat) : Int)) := by
  have hsum : uint32 ((pos : Int) + data.length) = pos + data.length := by
    rw [uint32_of_small (by omega) (by omega)]
    omega
  have hposcast : uint32 (pos : Int) = pos := uint32_natCast (by omega)
  have hback : int32 ((data.length : Int) - buf.size) = data.length - buf.size :=
    int32_of_small (by omega) (by omega)
  unfold mctBufferWriteBlock
  rw [if_pos hdata, hsum, hposcast, hback]
  by_cases hfits : pos + data.length ≤ buf.size
  · simp [hfits, ringWrite, ringAdvance, hmem]
  · have hwrite : (pos : Int) + (data.length - buf.size) =
        ((pos + data.length - buf.size : Nat) : Int) := by omega
    simp [hfits, hpos, ringWrite, ringAdvance, hmem, hwrite]

theorem mctBufferReadBlock_eq (pos len : Nat)
    (hmem : buf.mem.length = buf.size) (hsmall : buf.size < 2147483648)
    (hpos : pos ≤ buf.size) (hlen : len ≤ buf.size) :
    mctBufferReadBlock buf pos len =
      (ringRead buf.mem pos len, ((ringAdvance buf.size pos len : Nat) : Int)) := by
  have hsum : uint32 ((pos : Int) + len) = pos + len := by
    rw [uint32_of_small (by omega) (by omega)]
    omega
  have hposcast : uint32 (pos : Int) = pos := uint32_natCast (by omega)
  have hback : int32 ((len : Int) - buf.size) = len - buf.size :=
    int32_of_small (by omega) (by omega)
  unfold mctBufferReadBlock
  rw [hsum, hposcast, hback]
  by_cases hfits : pos + len ≤ buf.size
  · rw [ringRead_of_fits _ _ _ (by omega)]
    simp [hfits, ringAdvance]
  · have hread : (pos : Int) + (len - buf.size) =
        ((pos + len - buf.size : Nat) : Int) := by omega
    have hrest : slice buf.mem pos (buf.size - pos) = buf.mem.drop pos := by
      unfold slice
      exact List.take_of_length_le (by simp; omega)
    rw [ringRead_of_wraps _ _ _ (by omega) (by omega) (by omega)]
    simp [hfits, hpos, ringAdvance, hmem, hread, hrest, Nat.add_comm len pos]

/-- Writing a block behind the bytes in use adds it to them. -/
theorem Holds.writeBlock {read : Nat} {write : Int} {bytes : List UInt8}
    (h : Holds buf read write bytes) (data : List UInt8)
    (hfit : bytes.length + data.length ≤ buf.size) :
    ∃ mem write', mctBufferWriteBlock buf write data = ({buf with mem := mem}, write') ∧
      Holds {buf with mem := mem} read write' (bytes ++ data) := by
  have hend := ringAdvance_le buf.size read bytes.length h.read_le h.fits
  refine ⟨ringWrite buf.mem (ringAdvance buf.size read bytes.length) data,
    ((ringAdvance buf.size (ringAdvance buf.size read bytes.length) data.length : Nat) : Int),
    ?_, ?_⟩
  · rw [h.write_eq]
    exact mctBufferWriteBlock_eq _ data h.mem_length h.size_small hend (by omega)
  · refine ⟨?_, h.size_small, h.read_le, by simpa using hfit, ?_, ?_⟩
    · have hmem := h.mem_length
      simp only
      rw [ringWrite_length _ _ _ (by omega) (by omega), hmem]
    · rw [List.length_append]
      exact congrArg _ (ringAdvance_add _ _ _ _ h.read_le hfit)
    · have hcells := ringRead_ringWrite buf.mem read bytes.length data
        (by rw [h.mem_length]; exact h.read_le) (by rw [h.mem_length]; exact hfit)
      rw [h.mem_length, h.cells] at hcells
      simpa using hcells

/-- The step of `mct_buffer_push3` that skips an empty part. -/
theorem Holds.writePart {read : Nat} {write : Int} {bytes : List UInt8}
    (h : Holds buf read write bytes) (data : List UInt8)
    (hfit : bytes.length + data.length ≤ buf.size) :
    ∃ mem write',
      (if data.length ≠ 0 then mctBufferWriteBlock buf write data else (buf, write)) =
        ({buf with mem := mem}, write') ∧
      Holds {buf with mem := mem} read write' (bytes ++ data) := by
  by_cases hempty : data.length = 0
  · have hnil : data = [] := List.length_eq_zero_iff.mp hempty
    exact ⟨buf.mem, write, by simp [hempty], by simpa [hnil] using h⟩
  · simpa [hempty] using h.writeBlock data hfit

end Blocks

section Sizes

variable {buf : MctBuffer} {queue : List (List UInt8)}

theorem Represents.fits (h : Represents buf queue) : queueSize queue ≤ buf.size := by
  simpa using h.holds.fits

theorem Represents.read_cast (h : Represents buf queue) :
    buf.read = (buf.read.toNat : Int) := by
  have := h.read_nonneg
  omega

theorem Represents.write_cast (h : Represents buf queue) :
    buf.write = (ringAdvance buf.size buf.read.toNat (queueSize queue) : Nat) := by
  simpa using h.holds.write_eq

theorem Represents.write_le (h : Represents buf queue) :
    0 ≤ buf.write ∧ buf.write ≤ buf.size := by
  have hend := ringAdvance_le buf.size buf.read.toNat (queueSize queue) h.holds.read_le h.fits
  rw [h.write_cast]
  omega

/-- Both positions pass the range checks at the start of push and get. -/
theorem Represents.positions_ok (h : Represents buf queue) :
    ¬ uint32 buf.read > buf.size ∧ ¬ uint32 buf.write > buf.size := by
  have hsmall := h.holds.size_small
  have hread := h.holds.read_le
  have hnonneg := h.read_nonneg
  have hwrite := h.write_le
  rw [uint32_of_small hnonneg (by omega), uint32_of_small hwrite.1 (by omega)]
  omega

/-- `write = read` means full when entries are counted and empty otherwise;
either way the computed free size is the number of unused bytes. -/
theorem Represents.freeSize_eq (h : Represents buf queue) :
    freeSize buf.size buf.write buf.read buf.count = buf.size - queueSize queue := by
  have hsmall := h.holds.size_small
  have hread := h.holds.read_le
  have hcast := h.read_cast
  have hfits := h.fits
  have hwrite := h.write_cast
  have hsize : int32 buf.size = buf.size := int32_natCast hsmall
  unfold freeSize
  rw [h.count_eq, hsize]
  cases queue with
  | nil =>
      simp only [queueSize_nil, ringAdvance_zero _ _ hread] at hwrite
      simp only [List.length_nil, queueSize_nil]
      split <;> simp <;> omega
  | cons entry rest =>
      have hpos := queueSize_pos (entry :: rest) (by simp)
      have hcount : ((entry :: rest).length : Int) ≠ 0 := by simp; omega
      unfold ringAdvance at hwrite
      split at hwrite
      · split
        · omega
        · split <;> omega
      · split
        · omega
        · split <;> omega

theorem Represents.usedSize_eq (h : Represents buf queue) (hne : queue ≠ []) :
    usedSize buf.size buf.write buf.read = queueSize queue := by
  have hsmall := h.holds.size_small
  have hread := h.holds.read_le
  have hcast := h.read_cast
  have hfits := h.fits
  have hwrite := h.write_cast
  have hpos := queueSize_pos queue hne
  have hsize : int32 buf.size = buf.size := int32_natCast hsmall
  unfold usedSize
  rw [hsize]
  unfold ringAdvance at hwrite
  split at hwrite <;> split <;> omega

theorem Represents.getUsedSize (h : Represents buf queue) :
    mctBufferGetUsedSize buf = queueSize queue := by
  unfold mctBufferGetUsedSize
  rw [h.count_eq]
  cases queue with
  | nil => rfl
  | cons entry rest =>
      have hcount : ((entry :: rest).length : Int) ≠ 0 := by simp; omega
      rw [if_neg hcount]
      exact h.usedSize_eq (by simp)

theorem Represents.getMessageCount (h : Represents buf queue) :
    mctBufferGetMessageCount buf = queue.length := h.count_eq

end Sizes

section Operations

variable {buf : MctBuffer} {queue : List (List UInt8)}

/-- With enough bytes free, head and parts are written behind the queue. -/
theorem Represents.writeEntry (h : Represents buf queue) (data1 data2 data3 : List UInt8)
    (hfit : queueSize queue + entrySize (data1 ++ data2 ++ data3) ≤ buf.size) :
    Represents (writeEntry buf data1 data2 data3) (queue ++ [data1 ++ data2 ++ data3]) ∧
      SameLimits (writeEntry buf data1 data2 data3) buf := by
  have hsmall := h.holds.size_small
  have hlen : (data1 ++ data2 ++ data3).length =
      data1.length + data2.length + data3.length := by
    simp only [List.length_append]
  have hneed : queueSize queue + (sizeofBlockHead +
      (data1.length + data2.length + data3.length)) ≤ buf.size := by
    simpa only [entrySize, hlen] using hfit
  have hsize : int32 (data1.length + data2.length + data3.length) =
      ((data1 ++ data2 ++ data3).length : Int) := by
    rw [hlen, int32_of_small (by omega) (by omega)]
    push_cast
    ring
  have hhead (len : Nat) : (entryHead len).toBytes.length = sizeofBlockHead :=
    toBytes_length _ rfl
  obtain ⟨mem0, write0, hrun0, hold0⟩ := h.holds.writeBlock
    (entryHead (data1 ++ data2 ++ data3).length).toBytes (by
      rw [queueBytes_length, hhead]; omega)
  obtain ⟨mem1, write1, hrun1, hold1⟩ := hold0.writePart data1 (by
    simp only [List.length_append, queueBytes_length, hhead]; omega)
  obtain ⟨mem2, write2, hrun2, hold2⟩ := hold1.writePart data2 (by
    simp only [List.length_append, queueBytes_length, hhead]; omega)
  obtain ⟨mem3, write3, hrun3, hold3⟩ := hold2.writePart data3 (by
    simp only [List.length_append, queueBytes_length, hhead]; omega)
  have hresult : Shared.writeEntry buf data1 data2 data3 =
      {buf with mem := mem3, write := write3, count := buf.count + 1} := by
    unfold Shared.writeEntry
    simp only [entryHead] at hrun0
    simp only [hsize, hrun0, hrun1, hrun2, hrun3]
  have hbytes : queueBytes queue ++ (entryHead (data1 ++ data2 ++ data3).length).toBytes ++
      data1 ++ data2 ++ data3 = queueBytes (queue ++ [data1 ++ data2 ++ data3]) := by
    simp [queueBytes_append, entryBytes]
  rw [hbytes] at hold3
  rw [hresult]
  refine ⟨⟨h.read_nonneg, ?_, ⟨hold3.mem_length, hold3.size_small, hold3.read_le, hold3.fits,
    hold3.write_eq, hold3.cells⟩⟩, rfl, rfl, rfl, rfl, rfl⟩
  simp [h.count_eq]

/-- With its positions inside the buffer a push ends as the growing loop does. -/
theorem mctBufferPush3_of_positions (malloc : Malloc)
    (hpositions : ¬ uint32 buf.read > buf.size ∧ ¬ uint32 buf.write > buf.size)
    {data1 data2 data3 : List UInt8}
    (hsmall : entrySize (data1 ++ data2 ++ data3) < 2147483648) :
    mctBufferPush3 malloc buf data1 data2 data3 =
      let loop := growUntilFree malloc (entrySize (data1 ++ data2 ++ data3)) buf.count
        (freeSize buf.size buf.write buf.read buf.count) buf
      if loop.1 = .ok then (.ok, Shared.writeEntry loop.2 data1 data2 data3)
      else (.error, loop.2) := by
  have hsum : entrySize (data1 ++ data2 ++ data3) =
      sizeofBlockHead + data1.length + data2.length + data3.length := by
    simp [entrySize, Nat.add_assoc]
  have hneeded : int32 ((sizeofBlockHead + data1.length + data2.length + data3.length : Nat) :
      Int) = entrySize (data1 ++ data2 ++ data3) := by
    rw [← hsum]
    exact int32_natCast hsmall
  unfold mctBufferPush3
  rw [if_neg (not_or.mpr hpositions), hneeded]
  dsimp only
  generalize growUntilFree malloc _ _ _ buf = loop
  obtain ⟨code, grown⟩ := loop
  cases code <;> rfl

/-- `mct_buffer_push3` when the free size suffices. -/
theorem Represents.push_of_fits (h : Represents buf queue) (malloc : Malloc)
    (data1 data2 data3 : List UInt8)
    (hfit : queueSize queue + entrySize (data1 ++ data2 ++ data3) ≤ buf.size) :
    mctBufferPush3 malloc buf data1 data2 data3 =
      (.ok, Shared.writeEntry buf data1 data2 data3) := by
  have hsmall := h.holds.size_small
  have henough : ¬ ((buf.size : Int) - queueSize queue <
      entrySize (data1 ++ data2 ++ data3)) := by omega
  rw [mctBufferPush3_of_positions malloc h.positions_ok (by omega), h.freeSize_eq,
    growUntilFree_of_enough malloc buf henough]
  rfl

/-- What is left when the oldest entry is taken out, before the size of an
empty buffer is minimized. -/
def dropEntry (buf : MctBuffer) (entry : List UInt8) : MctBuffer :=
  {buf with
    read := (ringAdvance buf.size buf.read.toNat (entrySize entry) : Nat)
    count := buf.count - 1}

theorem Represents.dropEntry {entry : List UInt8} (h : Represents buf (entry :: queue)) :
    Represents (dropEntry buf entry) queue := by
  have hfits := h.fits
  have hread := h.holds.read_le
  have hmem := h.holds.mem_length
  simp only [queueSize_cons] at hfits
  have hcells := h.holds.cells
  rw [queueBytes_length, queueBytes_cons, queueSize_cons,
    ringRead_add _ _ _ _ (by omega)] at hcells
  have hrest := (List.append_inj hcells (by
    rw [ringRead_length _ _ _ (by omega), entryBytes_length])).2
  refine ⟨by simp [Shared.dropEntry], ?_, hmem, h.holds.size_small, ?_, ?_, ?_, ?_⟩
  · simp [Shared.dropEntry, h.count_eq]
  · exact ringAdvance_le _ _ _ hread (by omega)
  · simp only [Shared.dropEntry, queueBytes_length]
    omega
  · simp only [Shared.dropEntry, queueBytes_length, Int.toNat_natCast]
    rw [ringAdvance_add _ _ _ _ hread (by omega), h.write_cast, queueSize_cons]
  · simp only [Shared.dropEntry, queueBytes_length, Int.toNat_natCast]
    rw [← hmem]
    exact hrest

/-- The end of `mct_buffer_get` once the header is read: whether the data is
read or skipped, the position moves behind the entry. -/
theorem takeEntry_eq (malloc : Malloc) (pos : Nat) (entry : List UInt8) (data : Bool)
    (maxSize : Int) (delete : Bool) (hmem : buf.mem.length = buf.size)
    (hsmall : buf.size < 2147483648) (hpos : pos ≤ buf.size)
    (hlen : entry.length ≤ buf.size) (hdata : ringRead buf.mem pos entry.length = entry) :
    takeEntry malloc buf pos entry.length data maxSize delete =
      let left := {buf with
        read := (ringAdvance buf.size pos entry.length : Nat), count := buf.count - 1}
      ⟨entry.length, if data ∧ maxSize ≠ 0 then entry else [],
        if delete then
          if left.count = 0 then (mctBufferMinimizeSize malloc left).2 else left
        else buf⟩ := by
  have hread : mctBufferReadBlock buf pos entry.length =
      (entry, ((ringAdvance buf.size pos entry.length : Nat) : Int)) := by
    rw [mctBufferReadBlock_eq _ _ hmem hsmall hpos hlen, hdata]
  have hcast : uint32 (entry.length : Int) = entry.length := uint32_natCast (by omega)
  have hsum : uint32 ((pos : Int) + entry.length) = pos + entry.length := by
    rw [uint32_of_small (by omega) (by omega)]
    omega
  have hskip : (if pos + entry.length ≤ buf.size then
        (([] : List UInt8), (pos : Int) + entry.length)
      else ([], (pos : Int) + entry.length - buf.size)) =
      ([], ((ringAdvance buf.size pos entry.length : Nat) : Int)) := by
    unfold ringAdvance
    split
    · simp
    · simp only [Prod.mk.injEq, true_and]
      omega
  unfold takeEntry
  rw [hcast, hread, hsum, int32_natCast hsmall, hskip]
  by_cases hasked : data = true ∧ maxSize ≠ 0
  · cases delete <;> simp [hasked]
  · cases delete <;> simp [hasked]

/-- `mct_buffer_get` on a buffer that holds an entry: all header checks pass,
the entry's bytes are stored if they are asked for, and nothing else of the
buffer changes. -/
theorem Represents.get {entry : List UInt8} (h : Represents buf (entry :: queue))
    (malloc : Malloc) (data : Bool) (maxSize : Int) (delete : Bool) :
    mctBufferGet malloc buf data maxSize delete =
      ⟨entry.length, if data ∧ maxSize ≠ 0 then entry else [],
        if delete then
          if queue = [] then (mctBufferMinimizeSize malloc (Shared.dropEntry buf entry)).2
          else Shared.dropEntry buf entry
        else buf⟩ := by
  have hsmall := h.holds.size_small
  have hpositions := h.positions_ok
  have hread := h.holds.read_le
  have hmem := h.holds.mem_length
  have hfits := h.fits
  have hused := h.usedSize_eq (by simp)
  have hcount : buf.count = queue.length + 1 := by simpa using h.count_eq
  simp only [queueSize_cons] at hfits hused
  have hentry : entrySize entry = sizeofBlockHead + entry.length := rfl
  have hcells := h.holds.cells
  rw [queueBytes_length, queueBytes_cons, queueSize_cons,
    ringRead_add _ _ _ _ (by omega)] at hcells
  have hfront := (List.append_inj hcells (by
    rw [ringRead_length _ _ _ (by omega), entryBytes_length])).1
  rw [hentry, ringRead_add _ _ _ _ (by omega)] at hfront
  obtain ⟨hheadBytes, hdataBytes⟩ := List.append_inj hfront (by
    rw [ringRead_length _ _ _ (by omega)]
    exact (toBytes_length _ rfl).symm)
  rw [hmem] at hdataBytes
  have hbehind := ringAdvance_le buf.size buf.read.toNat sizeofBlockHead hread (by omega)
  have hheadRead : mctBufferReadBlock buf buf.read sizeofBlockHead =
      ((entryHead entry.length).toBytes,
        ((ringAdvance buf.size buf.read.toNat sizeofBlockHead : Nat) : Int)) := by
    rw [← hheadBytes, ← mctBufferReadBlock_eq _ _ hmem hsmall hread (by omega),
      ← h.read_cast]
  have htake := takeEntry_eq malloc _ entry data maxSize delete hmem hsmall hbehind
    (by omega) hdataBytes
  rw [ringAdvance_add _ _ _ _ hread (by omega), ← hentry] at htake
  have hlast : buf.count - 1 = 0 ↔ queue = [] := by
    rw [hcount]
    simp
  unfold mctBufferGet
  rw [if_neg (by
      rw [hcount]
      rintro (hr | hw | hc)
      · exact hpositions.1 hr
      · exact hpositions.2 hw
      · omega),
    if_neg (by omega)]
  simp only [hused]
  rw [if_neg (by omega), hheadRead]
  simp only [ofBytes_toBytes entry.length (by omega)]
  rw [if_neg (by simp [entryHead]), if_neg (by simp [entryHead]),
    if_neg (by simp only [entryHead]; omega)]
  simp only [entryHead]
  rw [htake]
  simp only [hlast, Shared.dropEntry]

/-- `mct_buffer_get` on an empty buffer is an error and changes nothing. -/
theorem Represents.get_empty (h : Represents buf []) (malloc : Malloc) (data : Bool)
    (maxSize : Int) (delete : Bool) :
    mctBufferGet malloc buf data maxSize delete = ⟨MctReturnValue.error.code, [], buf⟩ := by
  have hpositions := h.positions_ok
  have hcount : buf.count = 0 := by simpa using h.count_eq
  have hsame : buf.write = buf.read := by
    rw [h.write_cast, queueSize_nil, ringAdvance_zero _ _ h.holds.read_le]
    exact h.read_cast.symm
  unfold mctBufferGet
  rw [if_neg (by
      rw [hcount]
      rintro (hr | hw | hc)
      · exact hpositions.1 hr
      · exact hpositions.2 hw
      · omega),
    if_pos hcount, if_neg (by simpa using hsame)]

end Operations

end MctDaemon.Shared
