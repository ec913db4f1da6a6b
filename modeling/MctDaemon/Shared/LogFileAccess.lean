import MctDaemon.Lib.Run
import MctDaemon.Shared.LogFile

/-!
What the readers of a log file find, in terms of the content alone, and random
access to the messages that a sequential scan accepted. A payload that is cut
off at the end of the file is skipped by the scan, but cannot be read.
-/

namespace MctDaemon.Shared

open Lib

section Content

/-- Where the first storage header of these bytes starts that has a whole
standard header behind it. -/
def headerOffset : List UInt8 → Option Nat
  | [] => none
  | byte :: rest =>
      if (byte :: rest).length < sizeofStorageHeader + sizeofStandardHeader then none
      else if (byte :: rest).take storagePattern.length = storagePattern then some 0
      else (headerOffset rest).map (· + 1)

/-- The first storage header of the content from `pos` on. -/
def nextHeader (content : List UInt8) (pos : Nat) : Option Nat :=
  (headerOffset (content.drop pos)).map (pos + ·)

/-- The standard header of the message at `start`. -/
def standardAt (content : List UInt8) (start : Nat) : List UInt8 :=
  slice content (start + sizeofStorageHeader) sizeofStandardHeader

def headersizeAt (content : List UInt8) (start : Nat) : Nat :=
  sizeofStorageHeader + sizeofStandardHeader + extraSize ((standardAt content start).getD 0 0)

def datasizeAt (content : List UInt8) (start : Nat) : Int :=
  messageLength (standardAt content start) + sizeofStorageHeader - headersizeAt content start

structure LogMessage where
  header : List UInt8
  payload : List UInt8
  deriving DecidableEq, Repr

def messageAt (content : List UInt8) (start : Nat) : LogMessage where
  header := slice content start (headersizeAt content start)
  payload := slice content (start + headersizeAt content start) (datasizeAt content start).toNat

/-- The message that starts here ends within the file. -/
def EndsWithin (content : List UInt8) (start : Nat) : Prop :=
  start + headersizeAt content start + (datasizeAt content start).toNat ≤ content.length

instance (content : List UInt8) (start : Nat) : Decidable (EndsWithin content start) :=
  inferInstanceAs (Decidable (_ ≤ _))

/-- What `mct_file_read` finds from `pos` on: the start of the message, and
whether it accepts it. -/
def readOutcome (content : List UInt8) (filter : Option (List MctFilterEntry)) (pos : Nat) :
    Option (Nat × Bool) :=
  match nextHeader content pos with
  | none => none
  | some start =>
      if datasizeAt content start < 0 then none
      else
        match filter with
        | none => some (start, true)
        | some filter =>
            if content.length < start + headersizeAt content start then none
            else
              some (start, messageFilterCheck (slice content start (headersizeAt content start))
                (datasizeAt content start) filter)

theorem headerOffset_bound {bytes : List UInt8} {offset : Nat}
    (h : headerOffset bytes = some offset) : offset + 20 ≤ bytes.length := by
  induction bytes generalizing offset with
  | nil => cases h
  | cons byte rest ih =>
      simp only [headerOffset] at h
      split at h
      · cases h
      · rename_i hlong
        split at h
        · cases h
          simp only [sizeofStorageHeader, sizeofStandardHeader] at hlong
          omega
        · obtain ⟨before, hbefore, rfl⟩ := Option.map_eq_some_iff.mp h
          have := ih hbefore
          rw [List.length_cons]
          omega

theorem nextHeader_bound {content : List UInt8} {pos start : Nat}
    (h : nextHeader content pos = some start) : pos ≤ start ∧ start + 20 ≤ content.length := by
  obtain ⟨offset, hoffset, rfl⟩ := Option.map_eq_some_iff.mp h
  have := headerOffset_bound hoffset
  rw [List.length_drop] at this
  omega

theorem headersizeAt_bounds (content : List UInt8) (start : Nat) :
    20 ≤ headersizeAt content start ∧ headersizeAt content start ≤ 42 := by
  have := extraSize_le ((standardAt content start).getD 0 0)
  simp only [headersizeAt, sizeofStorageHeader, sizeofStandardHeader]
  omega

end Content

namespace MctFile

/-- A step of a reader leaves the index and the position of the scan alone. -/
structure Keeps (file file' : MctFile) : Prop where
  index : file'.index = file.index
  filePosition : file'.filePosition = file.filePosition
  counterTotal : file'.counterTotal = file.counterTotal
  buffer : file'.msg.headerbuffer.length = file.msg.headerbuffer.length

theorem Keeps.refl (file : MctFile) : Keeps file file := ⟨rfl, rfl, rfl, rfl⟩

theorem Keeps.trans {file file' file'' : MctFile} (h : Keeps file file') (h' : Keeps file' file'') :
    Keeps file file'' :=
  ⟨h'.index.trans h.index, h'.filePosition.trans h.filePosition,
    h'.counterTotal.trans h.counterTotal, h'.buffer.trans h.buffer⟩

end MctFile

section Headers

variable {content : List UInt8} {file : MctFile}

/-- A copy at the front of the header buffer. -/
theorem copyInto_front (buffer data : List UInt8) (h : data.length ≤ buffer.length) :
    (copyInto buffer 0 data).length = buffer.length ∧
      (copyInto buffer 0 data).take data.length = data := by
  have htake := take_copyInto_append buffer 0 data (Nat.zero_le _)
  rw [Nat.zero_add, List.take_zero, List.nil_append] at htake
  exact ⟨copyInto_length _ _ _ (by omega), htake⟩

theorem findHeader_length (bytes : List UInt8) {buffer : List UInt8} (pos : Nat)
    (hbuffer : buffer.length = sizeofHeaderbuffer) :
    (findHeader bytes buffer pos).2.1.length = sizeofHeaderbuffer := by
  induction bytes generalizing buffer pos with
  | nil => exact hbuffer
  | cons byte rest ih =>
      have hcopied := (copyInto_front buffer
        ((byte :: rest).take (sizeofStorageHeader + sizeofStandardHeader))
        (by rw [List.length_take, hbuffer]
            exact (Nat.min_le_left _ _).trans (by decide))).1.trans hbuffer
      simp only [findHeader]
      split
      · exact hcopied
      · split
        · exact hcopied
        · exact ih _ hcopied

theorem findHeader_of_none {bytes : List UInt8} (h : headerOffset bytes = none)
    (buffer : List UInt8) (pos : Nat) : (findHeader bytes buffer pos).1 = false := by
  induction bytes generalizing buffer pos with
  | nil => rfl
  | cons byte rest ih =>
      simp only [headerOffset] at h
      simp only [findHeader, List.length_take]
      split at h
      · rename_i hshort
        rw [if_pos (by omega)]
      · rename_i hlong
        rw [if_neg (by omega)]
        split at h
        · cases h
        · rename_i hpattern
          rw [List.take_take, Nat.min_eq_left (by decide), if_neg hpattern]
          exact ih (Option.map_eq_none_iff.mp h) _ _

theorem findHeader_of_some {bytes : List UInt8} {offset : Nat}
    (h : headerOffset bytes = some offset) {buffer : List UInt8}
    (hbuffer : buffer.length = sizeofHeaderbuffer) (pos : Nat) :
    ∃ buffer', buffer'.length = sizeofHeaderbuffer ∧
      buffer'.take 20 = slice bytes offset 20 ∧
      findHeader bytes buffer pos = (true, buffer', pos + offset + 20) := by
  induction bytes generalizing offset buffer pos with
  | nil => cases h
  | cons byte rest ih =>
      have htwenty : sizeofStorageHeader + sizeofStandardHeader = 20 := rfl
      have hpatternLength : storagePattern.length = 4 := rfl
      simp only [headerOffset, htwenty] at h
      split at h
      · cases h
      · rename_i hlong
        have htaken : ((byte :: rest).take 20).length = 20 := by
          rw [List.length_take]
          omega
        obtain ⟨hlength, hfront⟩ := copyInto_front buffer ((byte :: rest).take 20)
          (by rw [htaken, hbuffer]; decide)
        rw [htaken] at hfront
        simp only [findHeader, htwenty, htaken, lt_irrefl, if_false]
        rw [List.take_take, hpatternLength, Nat.min_eq_left (by decide)]
        rw [hpatternLength] at h
        split at h
        · rename_i hpattern
          cases h
          rw [if_pos hpattern]
          exact ⟨_, hlength.trans hbuffer, by rw [hfront, slice_zero], rfl⟩
        · rename_i hpattern
          obtain ⟨before, hbefore, rfl⟩ := Option.map_eq_some_iff.mp h
          rw [if_neg hpattern]
          obtain ⟨buffer', hbuffer', htake, hfound⟩ :=
            ih hbefore (hlength.trans hbuffer) (pos + 1)
          refine ⟨buffer', hbuffer', htake, ?_⟩
          rw [hfound]
          congr 2
          omega

/-- The header buffer holds the first `size` bytes of the message at `start`,
and the handle is behind them. -/
structure Loaded (content : List UInt8) (start size : Nat) (file : MctFile) : Prop where
  buffer : file.msg.headerbuffer.length = sizeofHeaderbuffer
  bytes : file.msg.headerbuffer.take size = slice content start size
  handle : file.handle = start + size

theorem slice_add (bytes : List UInt8) (start m n : Nat) :
    slice bytes start (m + n) = slice bytes start m ++ slice bytes (start + m) n := by
  simp only [slice, List.take_add, List.drop_drop]

theorem Loaded.standard {start size : Nat} (h : Loaded content start size file)
    (hsize : 20 ≤ size) :
    slice file.msg.headerbuffer sizeofStorageHeader sizeofStandardHeader =
      standardAt content start := by
  have hfront := congrArg (List.take 20) h.bytes
  simp only [slice, List.take_take, Nat.min_eq_left hsize] at hfront
  have hbuffer := slice_eq_drop_take file.msg.headerbuffer 16 20
  rw [hfront, ← slice, drop_slice] at hbuffer
  exact hbuffer

theorem Loaded.htyp {start size : Nat} (h : Loaded content start size file)
    (hsize : 20 ≤ size) :
    file.msg.headerbuffer.getD sizeofStorageHeader 0 = (standardAt content start).getD 0 0 := by
  rw [← h.standard hsize]
  simp [slice, List.getD, sizeofStandardHeader]

namespace MctFile

theorem readHeader_of_none (file : MctFile) (h : nextHeader content file.handle = none) :
    (file.readHeader content).1 = .error := by
  have hfound := findHeader_of_none (Option.map_eq_none_iff.mp h) file.msg.headerbuffer file.handle
  simp only [readHeader]
  rw [if_neg (by rw [hfound]; decide)]

theorem readHeader_of_some (file : MctFile) {start : Nat}
    (h : nextHeader content file.handle = some start)
    (hbuffer : file.msg.headerbuffer.length = sizeofHeaderbuffer) :
    (file.readHeader content).1 = (if datasizeAt content start < 0 then .error else .ok) ∧
      Loaded content start 20 (file.readHeader content).2 ∧
      (file.readHeader content).2.msg.headersize = headersizeAt content start ∧
      (file.readHeader content).2.msg.datasize = datasizeAt content start := by
  obtain ⟨offset, hoffset, rfl⟩ := Option.map_eq_some_iff.mp h
  obtain ⟨buffer, hlength, htake, hfound⟩ := findHeader_of_some hoffset hbuffer file.handle
  have hslice : slice (content.drop file.handle) offset 20 =
      slice content (file.handle + offset) 20 := by
    rw [slice, slice, List.drop_drop]
  have hloaded : Loaded content (file.handle + offset) 20
      { file with
        handle := file.handle + offset + 20
        msg := { file.msg with headerbuffer := buffer } } :=
    ⟨hlength, htake.trans hslice, rfl⟩
  have hstandard := hloaded.standard (le_refl 20)
  simp only [readHeader, hfound, if_true]
  simp only at hstandard
  rw [hstandard]
  exact ⟨rfl, ⟨hlength, htake.trans hslice, rfl⟩, rfl, rfl⟩

theorem keeps_readHeader (content : List UInt8) (file : MctFile)
    (hbuffer : file.msg.headerbuffer.length = sizeofHeaderbuffer) :
    Keeps file (file.readHeader content).2 := by
  have hlength := findHeader_length (content.drop file.handle) file.handle hbuffer
  simp only [readHeader]
  split
  · exact ⟨rfl, rfl, rfl, hlength.trans hbuffer.symm⟩
  · exact ⟨rfl, rfl, rfl, hlength.trans hbuffer.symm⟩

/-- A read into the header buffer right behind what is loaded. -/
theorem freadHeader_spec {start size : Nat} (more : Nat) (h : Loaded content start size file)
    (hfit : size + more ≤ sizeofHeaderbuffer) :
    let result := file.freadHeader content size more
    Keeps file result.2 ∧
      (result.1 = true ↔ start + (size + more) ≤ content.length ∨ more = 0) ∧
      (result.1 = true → Loaded content start (size + more) result.2) ∧
      result.2.msg.headersize = file.msg.headersize ∧
      result.2.msg.datasize = file.msg.datasize ∧
      result.2.msg.databuffer = file.msg.databuffer := by
  have hlength : (slice content file.handle more).length =
      min more (content.length - (start + size)) := by
    rw [slice, List.length_take, List.length_drop, h.handle]
  have hcopied := copyInto_length file.msg.headerbuffer size (slice content file.handle more)
    (by rw [hlength, h.buffer]; omega)
  refine ⟨⟨rfl, rfl, rfl, hcopied⟩, ?_, ?_, rfl, rfl, rfl⟩
  · simp only [freadHeader, decide_eq_true_eq, hlength]
    omega
  · intro hloaded
    have hwhole : (slice content file.handle more).length = more := by
      simpa [freadHeader] using hloaded
    have hfront := take_copyInto_append file.msg.headerbuffer size
      (slice content file.handle more) (by rw [h.buffer]; omega)
    rw [hwhole, h.bytes, h.handle, ← slice_add] at hfront
    refine ⟨hcopied.trans h.buffer, ?_, ?_⟩
    · simp only [freadHeader, h.handle]
      exact hfront
    · change file.handle + (slice content file.handle more).length = _
      rw [hwhole, h.handle, Nat.add_assoc]

theorem freadHeader_zero (offset : Nat) : file.freadHeader content offset 0 = (true, file) := by
  simp [freadHeader, slice]

theorem readHeaderExtended_spec {start : Nat} (h : Loaded content start 20 file) :
    let result := file.readHeaderExtended content
    Keeps file result.2 ∧
      result.2.msg.headersize = file.msg.headersize ∧
      result.2.msg.datasize = file.msg.datasize ∧
      (start + headersizeAt content start ≤ content.length →
        result.1 = .ok ∧ Loaded content start (headersizeAt content start) result.2) ∧
      (start + 20 ≤ content.length → content.length < start + headersizeAt content start →
        result.1 = .error) := by
  have htwenty : sizeofStorageHeader + sizeofStandardHeader = 20 := rfl
  have hsize : headersizeAt content start =
      20 + extraSize ((standardAt content start).getD 0 0) := rfl
  have hextra := extraSize_le ((standardAt content start).getD 0 0)
  simp only [readHeaderExtended, h.htyp (le_refl 20), htwenty]
  generalize (standardAt content start).getD 0 0 = htyp at hsize hextra
  generalize hparams : standardHeaderExtraSize htyp = params
  simp only [extraSize, hparams] at hsize hextra
  have hsame : (if params ≠ 0 then file.freadHeader content 20 params else (true, file)) =
      file.freadHeader content 20 params := by
    split
    · rfl
    · rename_i hzero
      rw [not_not.mp hzero, freadHeader_zero]
  rw [hsame]
  obtain ⟨hkeep, hmore, hload, hheader, hdata⟩ := freadHeader_spec params h
    (by simp only [sizeofHeaderbuffer]; split at hextra <;> omega)
  generalize file.freadHeader content 20 params = first at hkeep hmore hload hheader hdata ⊢
  obtain ⟨loaded, file1⟩ := first
  simp only at hkeep hmore hload hheader hdata ⊢
  cases loaded with
  | false =>
      have hcut : ¬(start + (20 + params) ≤ content.length ∨ params = 0) := fun hin =>
        Bool.noConfusion (hmore.mpr hin)
      refine ⟨hkeep, hheader, hdata.1, ?_, fun _ _ => rfl⟩
      intro hwhole
      exact absurd (.inl (by omega)) hcut
  | true =>
      have hin := hmore.mp rfl
      replace hload := hload rfl
      simp only [Bool.not_true, Bool.false_eq_true, if_false]
      by_cases hextended : isHtyp 0 htyp = true
      · simp only [hextended, if_true, Bool.not_true, Bool.false_eq_true, if_false,
          sizeofExtendedHeader] at hsize hextra ⊢
        obtain ⟨hkeep', hmore', hload', hheader', hdata'⟩ := freadHeader_spec 10 hload
          (by simp only [sizeofHeaderbuffer]; omega)
        refine ⟨hkeep.trans hkeep', hheader'.trans hheader, hdata'.1.trans hdata.1, ?_, ?_⟩
        · intro hwhole
          have hloaded := hmore'.mpr (.inl (by omega))
          rw [hsize, ← Nat.add_assoc]
          exact ⟨if_pos hloaded, hload' hloaded⟩
        · intro _ hcut
          refine if_neg fun hloaded => ?_
          have := hmore'.mp hloaded
          omega
      · simp only [hextended, if_false, Bool.not_false, if_true, Bool.false_eq_true,
          Nat.add_zero] at hsize ⊢
        refine ⟨hkeep, hheader, hdata.1, ?_, ?_⟩
        · intro _
          rw [hsize]
          exact ⟨trivial, hload⟩
        · intro hinside hcut
          omega

end MctFile

end Headers

/-- The filter looks at the headers only. -/
theorem messageFilterCheck_take (buffer : List UInt8) (datasize : Int)
    (filter : List MctFilterEntry) {size : Nat}
    (hsize : size = 20 + extraSize (buffer.getD sizeofStorageHeader 0)) :
    messageFilterCheck (buffer.take size) datasize filter =
      messageFilterCheck buffer datasize filter := by
  have hhtyp : (buffer.take size).getD sizeofStorageHeader 0 =
      buffer.getD sizeofStorageHeader 0 := by
    have : sizeofStorageHeader < size := by simp only [sizeofStorageHeader]; omega
    simp [List.getD, this]
  simp only [messageFilterCheck, hhtyp]
  generalize buffer.getD sizeofStorageHeader 0 = htyp at hsize
  by_cases hextended : isHtyp 0 htyp = true
  · have hten : size - (sizeofStorageHeader + sizeofStandardHeader +
        standardHeaderExtraSize htyp) = 10 := by
      simp only [hsize, extraSize, hextended, if_true, sizeofStorageHeader, sizeofStandardHeader,
        sizeofExtendedHeader]
      omega
    rw [List.drop_take, hten]
    generalize buffer.drop _ = extended
    have hapid : slice (extended.take 10) 2 4 = slice extended 2 4 := by
      simp [slice, List.drop_take, List.take_take]
    have hctid : slice (extended.take 10) 6 4 = slice extended 6 4 := by
      simp [slice, List.drop_take, List.take_take]
    have hmsin : (extended.take 10).getD 0 0 = extended.getD 0 0 := by simp [List.getD]
    rw [hapid, hctid, hmsin]
  · simp [hextended]

theorem Loaded.filterCheck {content : List UInt8} {file : MctFile} {start : Nat}
    (h : Loaded content start (headersizeAt content start) file) (datasize : Int)
    (filter : List MctFilterEntry) :
    messageFilterCheck file.msg.headerbuffer datasize filter =
      messageFilterCheck (slice content start (headersizeAt content start)) datasize filter := by
  rw [← h.bytes]
  refine (messageFilterCheck_take _ _ _ ?_).symm
  rw [h.htyp (headersizeAt_bounds content start).1]
  rfl

section Readers

variable {malloc : Malloc} {content : List UInt8} {file : MctFile} {start : Nat}

def MctFile.loaded (file : MctFile) : LogMessage where
  header := file.msg.headerbuffer.take file.msg.headersize
  payload := (file.msg.databuffer.getD []).take file.msg.datasize.toNat

/-- What is loaded was there. -/
theorem Loaded.inside {size : Nat} (h : Loaded content start size file) (hpos : 0 < size)
    (hsize : size ≤ sizeofHeaderbuffer) : start + size ≤ content.length := by
  have hlength := congrArg List.length h.bytes
  simp only [slice, List.length_take, List.length_drop, h.buffer] at hlength
  omega

theorem Loaded.headers (h : Loaded content start (headersizeAt content start) file) :
    start + headersizeAt content start ≤ content.length := by
  have hbounds := headersizeAt_bounds content start
  exact h.inside (by omega) hbounds.2

namespace MctFile

theorem readData_spec (halloc : ∀ n, malloc.block n ≠ none)
    (h : Loaded content start (headersizeAt content start) file)
    (hheader : file.msg.headersize = headersizeAt content start)
    (hdata : file.msg.datasize = datasizeAt content start)
    (hpos : 0 ≤ datasizeAt content start) :
    let result := file.readData malloc content
    Keeps file result.2 ∧ result.2.msg.headerbuffer = file.msg.headerbuffer ∧
      result.2.msg.datasize = datasizeAt content start ∧
      result.1 = (if EndsWithin content start then .ok else .error) ∧
      (EndsWithin content start → result.2.loaded = messageAt content start ∧
        result.2.handle =
          start + headersizeAt content start + (datasizeAt content start).toNat) := by
  obtain ⟨size, hsize⟩ := Int.eq_ofNat_of_zero_le hpos
  have hinside := h.headers
  have hends : EndsWithin content start ↔
      start + headersizeAt content start + size ≤ content.length := by
    rw [EndsWithin, hsize, Int.toNat_natCast]
  obtain ⟨block, hblock, hfits⟩ := payloadBlock_fits halloc file.msg.databuffer size
  have hlength : (slice content file.handle size).length =
      min size (content.length - (start + headersizeAt content start)) := by
    rw [slice, List.length_take, List.length_drop, h.handle]
  simp only [readData, hblock, hdata, hsize, Int.toNat_natCast]
  refine ⟨⟨rfl, rfl, rfl, rfl⟩, trivial, trivial, ?_, ?_⟩
  · by_cases hwhole : EndsWithin content start
    · rw [if_pos hwhole, if_neg (by have := hends.mp hwhole; omega)]
    · rw [if_neg hwhole, if_pos (by
        have := mt hends.mpr hwhole
        omega)]
  · intro hwhole
    have hcount : (slice content file.handle size).length = size := by
      have := hends.mp hwhole
      omega
    have hfront := (copyInto_front block (slice content file.handle size)
      (by rw [hcount]; exact hfits)).2
    rw [hcount] at hfront
    refine ⟨?_, by rw [hcount, h.handle]⟩
    rw [h.handle] at hfront
    simp only [loaded, messageAt, hheader, hsize, Int.toNat_natCast, Option.getD_some, hfront,
      h.bytes, h.handle]

/-- The three calls that load a message which ends within the file. -/
theorem load_whole (halloc : ∀ n, malloc.block n ≠ none)
    (hbuffer : file.msg.headerbuffer.length = sizeofHeaderbuffer)
    (hnext : nextHeader content file.handle = some start)
    (hpos : 0 ≤ datasizeAt content start) (hends : EndsWithin content start) :
    ∃ file1 file2 file3, file.readHeader content = (.ok, file1) ∧
      file1.readHeaderExtended content = (.ok, file2) ∧
      file2.readData malloc content = (.ok, file3) ∧ Keeps file file3 ∧
      file3.loaded = messageAt content start ∧
      file3.handle = start + headersizeAt content start + (datasizeAt content start).toNat ∧
      file3.msg.datasize = datasizeAt content start ∧
      ∀ datasize filter, messageFilterCheck file3.msg.headerbuffer datasize filter =
        messageFilterCheck (slice content start (headersizeAt content start)) datasize filter := by
  have hkeep := keeps_readHeader content file hbuffer
  obtain ⟨hret, hload, hheader, hdata⟩ := readHeader_of_some file hnext hbuffer
  rw [if_neg (by omega)] at hret
  obtain ⟨hkeep1, hheader1, hdata1, hwhole1, -⟩ := readHeaderExtended_spec hload
  obtain ⟨hret1, hload1⟩ := hwhole1 (by
    simp only [EndsWithin] at hends
    omega)
  obtain ⟨hkeep2, hsame, hdata2, hret2, hread2⟩ :=
    readData_spec halloc hload1 (hheader1.trans hheader)
    (hdata1.trans hdata) hpos
  rw [if_pos hends] at hret2
  obtain ⟨hloaded, hhandle⟩ := hread2 hends
  refine ⟨_, _, _, Prod.ext hret rfl, Prod.ext hret1 rfl, Prod.ext hret2 rfl,
    (hkeep.trans hkeep1).trans hkeep2, hloaded, hhandle, hdata2, ?_⟩
  intro datasize filter
  rw [hsame, hload1.filterCheck]

/-- `mct_file_message` on an entry of the index. -/
theorem message_spec (halloc : ∀ n, malloc.block n ≠ none)
    (hbuffer : file.msg.headerbuffer.length = sizeofHeaderbuffer) {index pos : Nat}
    (hindex : file.index[index]? = some pos) (hnext : nextHeader content pos = some start)
    (hpos : 0 ≤ datasizeAt content start) :
    let result := file.message malloc content index
    Keeps file result.2 ∧ (result.1 = .ok ↔ EndsWithin content start) ∧
      (result.1 = .ok → result.2.loaded = messageAt content start) := by
  have hbounds := nextHeader_bound hnext
  have hkeep := keeps_readHeader content { file with handle := pos } hbuffer
  obtain ⟨hret, hload, hheader, hdata⟩ :=
    readHeader_of_some { file with handle := pos } hnext hbuffer
  rw [if_neg (by omega)] at hret
  simp only [message, hindex]
  generalize { file with handle := pos }.readHeader content = first
    at hkeep hret hload hheader hdata ⊢
  obtain ⟨ret, file1⟩ := first
  simp only at hkeep hret hload hheader hdata ⊢
  subst hret
  obtain ⟨hkeep1, hheader1, hdata1, hwhole1, hcut1⟩ := readHeaderExtended_spec hload
  generalize file1.readHeaderExtended content = second
    at hkeep1 hheader1 hdata1 hwhole1 hcut1 ⊢
  obtain ⟨ret, file2⟩ := second
  simp only at hkeep1 hheader1 hdata1 hwhole1 hcut1 ⊢
  rw [if_neg (by decide)]
  by_cases hin : start + headersizeAt content start ≤ content.length
  · obtain ⟨rfl, hload2⟩ := hwhole1 hin
    obtain ⟨hkeep2, -, -, hret2, hread2⟩ := readData_spec halloc hload2 (hheader1.trans hheader)
      (hdata1.trans hdata) hpos
    generalize file2.readData malloc content = third at hkeep2 hret2 hread2 ⊢
    obtain ⟨ret, file3⟩ := third
    simp only at hkeep2 hret2 hread2 ⊢
    have hkeeps := (hkeep.trans hkeep1).trans hkeep2
    rw [if_neg (by decide)]
    by_cases hends : EndsWithin content start
    · rw [if_pos hends] at hret2
      subst hret2
      rw [if_neg (by decide)]
      exact ⟨⟨hkeeps.index, hkeeps.filePosition, hkeeps.counterTotal, hkeeps.buffer⟩,
        iff_of_true rfl hends, fun _ => (hread2 hends).1⟩
    · rw [if_neg hends] at hret2
      subst hret2
      rw [if_pos (by decide)]
      exact ⟨⟨hkeeps.index, hkeeps.filePosition, hkeeps.counterTotal, hkeeps.buffer⟩,
        iff_of_false (by simp) hends, fun h => by cases h⟩
  · have hkeeps := hkeep.trans hkeep1
    have hends : ¬ EndsWithin content start := fun hends => hin (by
      simp only [EndsWithin] at hends
      omega)
    rw [hcut1 hbounds.2 (by omega), if_pos (by decide)]
    exact ⟨⟨hkeeps.index, hkeeps.filePosition, hkeeps.counterTotal, hkeeps.buffer⟩,
      iff_of_false (by simp) hends, fun h => by cases h⟩

/-- `mct_file_read` where nothing is found. -/
theorem read_of_none {filter : Option (List MctFilterEntry)}
    (hbuffer : file.msg.headerbuffer.length = sizeofHeaderbuffer)
    (h : readOutcome content filter file.filePosition = none) :
    (file.read content filter).1 = .error ∧ Keeps file (file.read content filter).2 := by
  have hkeep := keeps_readHeader content file.seekBack hbuffer
  have hback : ∀ {file' : MctFile}, Keeps file.seekBack file' → Keeps file file'.seekBack :=
    fun hkeep => ⟨hkeep.index, hkeep.filePosition, hkeep.counterTotal, hkeep.buffer⟩
  simp only [readOutcome] at h
  cases hnext : nextHeader content file.filePosition with
  | none =>
      have hret := readHeader_of_none file.seekBack hnext
      simp only [read]
      generalize file.seekBack.readHeader content = first at hkeep hret ⊢
      obtain ⟨ret, file1⟩ := first
      simp only at hkeep hret ⊢
      rw [hret, if_pos (by decide)]
      exact ⟨rfl, hback hkeep⟩
  | some start =>
      have hbounds := nextHeader_bound hnext
      obtain ⟨hret, hload, -, -⟩ := readHeader_of_some file.seekBack hnext hbuffer
      simp only [read]
      generalize file.seekBack.readHeader content = first at hkeep hret hload ⊢
      obtain ⟨ret, file1⟩ := first
      simp only [hnext] at hkeep hret hload h ⊢
      by_cases hneg : datasizeAt content start < 0
      · rw [if_pos hneg] at hret
        rw [hret, if_pos (by decide)]
        exact ⟨rfl, hback hkeep⟩
      · rw [if_neg hneg] at hret h
        rw [hret, if_neg (by decide)]
        cases filter with
        | none => cases h
        | some filter =>
            simp only at h
            split at h
            · rename_i hcut
              obtain ⟨hkeep1, -, -, -, hcut1⟩ := readHeaderExtended_spec hload
              simp only [hcut1 hbounds.2 hcut, if_pos (show MctReturnValue.error.code <
                MctReturnValue.ok.code by decide)]
              exact ⟨trivial, hback (hkeep.trans hkeep1)⟩
            · cases h

/-- `mct_file_read` where a message is found. -/
theorem read_of_some {filter : Option (List MctFilterEntry)} {accepted : Bool}
    (hbuffer : file.msg.headerbuffer.length = sizeofHeaderbuffer)
    (h : readOutcome content filter file.filePosition = some (start, accepted)) :
    let result := file.read content filter
    result.1 = (if accepted then .true else .ok) ∧
      result.2.index = file.index ++ (if accepted then [file.filePosition] else []) ∧
      result.2.filePosition =
        start + headersizeAt content start + (datasizeAt content start).toNat ∧
      result.2.msg.headersize = headersizeAt content start ∧
      result.2.msg.datasize = datasizeAt content start ∧
      result.2.msg.headerbuffer.length = sizeofHeaderbuffer := by
  simp only [readOutcome] at h
  cases hnext : nextHeader content file.filePosition with
  | none => simp [hnext] at h
  | some found =>
      obtain ⟨hret, hload, hheader, hdata⟩ :=
        readHeader_of_some file.seekBack hnext hbuffer
      have hkeep := keeps_readHeader content file.seekBack hbuffer
      have hsize := headersizeAt_bounds content found
      simp only [hnext] at h
      by_cases hneg : datasizeAt content found < 0
      · rw [if_pos hneg] at h
        cases h
      rw [if_neg hneg] at hret h
      simp only [read]
      generalize file.seekBack.readHeader content = first at hkeep hret hload hheader hdata ⊢
      obtain ⟨ret, file1⟩ := first
      simp only at hkeep hret hload hheader hdata ⊢
      rw [hret, if_neg (by decide)]
      cases filter with
      | none =>
          cases h
          have hhandle : (file1.handle + ((file1.msg.headersize : Int) -
              (sizeofStorageHeader + sizeofStandardHeader) + file1.msg.datasize)).toNat =
              start + headersizeAt content start + (datasizeAt content start).toNat := by
            rw [hload.handle, hheader, hdata]
            simp only [sizeofStorageHeader, sizeofStandardHeader]
            omega
          simp only [skip, accept, hkeep.index, hkeep.filePosition]
          exact ⟨rfl, rfl, hhandle, hheader, hdata, hload.buffer⟩
      | some filter =>
          simp only at h
          split at h
          · cases h
          rename_i hwhole
          obtain ⟨hkeep1, hheader1, hdata1, hwhole1, -⟩ := readHeaderExtended_spec hload
          obtain ⟨hret1, hload1⟩ := hwhole1 (Nat.le_of_not_lt hwhole)
          generalize file1.readHeaderExtended content = second
            at hkeep1 hheader1 hdata1 hret1 hload1 ⊢
          obtain ⟨ret, file2⟩ := second
          simp only at hkeep1 hheader1 hdata1 hret1 hload1 ⊢
          have hcheck : messageFilterCheck file2.msg.headerbuffer file2.msg.datasize filter =
              messageFilterCheck (slice content found (headersizeAt content found))
                (datasizeAt content found) filter := by
            rw [hload1.filterCheck, hdata1.trans hdata]
          have hhandle : ((file2.handle : Int) + file2.msg.datasize).toNat =
              found + headersizeAt content found + (datasizeAt content found).toNat := by
            rw [hload1.handle, hdata1.trans hdata]
            omega
          have hkeeps := hkeep.trans hkeep1
          rw [Option.some.injEq, Prod.mk.injEq] at h
          obtain ⟨rfl, rfl⟩ := h
          rw [hret1, if_neg (by decide), hcheck]
          split
          · simp only [skip, accept, hkeeps.index, hkeeps.filePosition]
            exact ⟨trivial, rfl, hhandle, hheader1.trans hheader, hdata1.trans hdata, hload1.buffer⟩
          · rename_i haccepted
            simp only [skip, hkeeps.index, List.append_nil]
            exact ⟨trivial, rfl, hhandle, hheader1.trans hheader, hdata1.trans hdata, hload1.buffer⟩

end MctFile

end Readers

section Access

inductive FileOp where
  | read
  | message (index : Nat)
  deriving DecidableEq, Repr

/-- The message that a successful `mct_file_read` has just gone past. -/
def MctFile.lastRead (content : List UInt8) (file : MctFile) : LogMessage :=
  let start := file.filePosition - file.msg.datasize.toNat - file.msg.headersize
  ⟨slice content start file.msg.headersize,
    slice content (start + file.msg.headersize) file.msg.datasize.toNat⟩

/-- One call. The messages that were accepted are remembered. -/
def fileStep (malloc : Malloc) (content : List UInt8) (filter : Option (List MctFilterEntry))
    (state : MctFile × List LogMessage) : FileOp → MctReturnValue × MctFile × List LogMessage
  | .read =>
      let (ret, file) := state.1.read content filter
      (ret, file, if ret = .true then state.2 ++ [file.lastRead content] else state.2)
  | .message index =>
      let (ret, file) := state.1.message malloc content index
      (ret, file, state.2)

/-- Every entry of the index can be loaded, and is what was accepted. -/
def RandomAccess (malloc : Malloc) (content : List UInt8)
    (state : MctFile × List LogMessage) : Prop :=
  state.2.length = state.1.index.length ∧
    ∀ index < state.1.index.length,
      (state.1.message malloc content index).1 = .ok ∧
        state.2[index]? = some (state.1.message malloc content index).2.loaded

/-- A message that the next call accepts ends within the file. -/
def AcceptsWhole (content : List UInt8) (filter : Option (List MctFilterEntry))
    (state : MctFile × List LogMessage) (op : FileOp) : Prop :=
  match op, readOutcome content filter state.1.filePosition with
  | .read, some (start, true) => EndsWithin content start
  | _, _ => True

instance (content : List UInt8) (filter : Option (List MctFilterEntry))
    (state : MctFile × List LogMessage) (op : FileOp) :
    Decidable (AcceptsWhole content filter state op) := by
  unfold AcceptsWhole
  split <;> infer_instance

/-- An entry of the index and the message that was accepted there. -/
def Entry (content : List UInt8) (pos : Nat) (message : LogMessage) : Prop :=
  ∃ start, nextHeader content pos = some start ∧ 0 ≤ datasizeAt content start ∧
    message = messageAt content start

/-- The index and the accepted messages belong together. -/
structure Scanned (content : List UInt8) (state : MctFile × List LogMessage) : Prop where
  buffer : state.1.msg.headerbuffer.length = sizeofHeaderbuffer
  entries : List.Forall₂ (Entry content) state.1.index state.2

/-- The messages of the index end within the file. -/
def AllWhole (content : List UInt8) (index : List Nat) : Prop :=
  ∀ pos ∈ index, ∀ start, nextHeader content pos = some start → EndsWithin content start

variable {malloc : Malloc} {content : List UInt8} {filter : Option (List MctFilterEntry)}
  {state : MctFile × List LogMessage}

theorem readOutcome_some {pos start : Nat} {accepted : Bool}
    (h : readOutcome content filter pos = some (start, accepted)) :
    nextHeader content pos = some start ∧ 0 ≤ datasizeAt content start := by
  simp only [readOutcome] at h
  split at h
  · cases h
  · rename_i found hfound
    split at h
    · cases h
    · rename_i hneg
      have hstart : found = start := by
        split at h
        · cases h
          rfl
        · split at h
          · cases h
          · cases h
            rfl
      subst hstart
      exact ⟨hfound, not_lt.mp hneg⟩

/-- What was gone past is the message that was found. -/
theorem lastRead_of_read {start : Nat} {accepted : Bool}
    (hbuffer : state.1.msg.headerbuffer.length = sizeofHeaderbuffer)
    (h : readOutcome content filter state.1.filePosition = some (start, accepted)) :
    (state.1.read content filter).2.lastRead content = messageAt content start := by
  obtain ⟨-, -, hposition, hheader, hdata, -⟩ := MctFile.read_of_some hbuffer h
  have hstart : start + headersizeAt content start + (datasizeAt content start).toNat -
      (datasizeAt content start).toNat - headersizeAt content start = start := by omega
  simp only [MctFile.lastRead, hposition, hheader, hdata, hstart, messageAt]

theorem message_keeps (halloc : ∀ n, malloc.block n ≠ none) (h : Scanned content state)
    (index : Nat) : MctFile.Keeps state.1 (state.1.message malloc content index).2 := by
  cases hpos : state.1.index[index]? with
  | none =>
      simp only [MctFile.message, hpos]
      exact MctFile.Keeps.refl _
  | some pos =>
      obtain ⟨hlt, hpos'⟩ := List.getElem?_eq_some_iff.mp hpos
      obtain ⟨start, hnext, hsize, -⟩ := h.entries.get hlt (h.entries.length_eq ▸ hlt)
      rw [List.get_eq_getElem, hpos'] at hnext
      exact (MctFile.message_spec halloc h.buffer hpos hnext hsize).1

/-- One call: the scan goes on, and the index stays whole if what is accepted is. -/
theorem scanned_step (filter : Option (List MctFilterEntry))
    (halloc : ∀ n, malloc.block n ≠ none) (h : Scanned content state)
    (op : FileOp) :
    let next := (fileStep malloc content filter state op).2
    Scanned content next ∧ state.1.filePosition ≤ next.1.filePosition ∧
      (AllWhole content next.1.index ↔
        AllWhole content state.1.index ∧ AcceptsWhole content filter state op) := by
  cases op with
  | message index =>
      have hkeep := message_keeps halloc h index
      refine ⟨⟨hkeep.buffer.trans h.buffer, ?_⟩, hkeep.filePosition.ge, ?_⟩
      · simp only [fileStep, hkeep.index]
        exact h.entries
      · simp only [fileStep, hkeep.index, AcceptsWhole, and_true]
  | read =>
      cases houtcome : readOutcome content filter state.1.filePosition with
      | none =>
          obtain ⟨hret, hkeep⟩ := MctFile.read_of_none h.buffer houtcome
          refine ⟨⟨hkeep.buffer.trans h.buffer, ?_⟩, hkeep.filePosition.ge, ?_⟩
          · simp only [fileStep, hret, hkeep.index]
            exact h.entries
          · simp only [fileStep, hkeep.index, AcceptsWhole, houtcome, and_true]
      | some found =>
          obtain ⟨start, accepted⟩ := found
          obtain ⟨hnext, hsize⟩ := readOutcome_some houtcome
          obtain ⟨hret, hindex, hposition, -, -, hbuffer⟩ :=
            MctFile.read_of_some h.buffer houtcome
          have hlast := lastRead_of_read h.buffer houtcome
          have hforward := (nextHeader_bound hnext).1
          have hle : state.1.filePosition ≤
              (state.1.read content filter).2.filePosition := by
            rw [hposition]
            omega
          cases accepted with
          | false =>
              refine ⟨⟨hbuffer, ?_⟩, hle, ?_⟩
              · simp only [fileStep, hret, hindex]
                simpa using h.entries
              · simp only [fileStep, hindex, AcceptsWhole, houtcome]
                simp
          | true =>
              refine ⟨⟨hbuffer, ?_⟩, hle, ?_⟩
              · simp only [fileStep, hret, hindex, if_true, hlast]
                exact List.rel_append h.entries
                  (.cons ⟨start, hnext, hsize, rfl⟩ .nil)
              · simp only [fileStep, hindex, if_true, AllWhole, List.mem_append,
                  List.mem_singleton, AcceptsWhole, houtcome]
                constructor
                · intro hall
                  exact ⟨fun pos hpos => hall pos (.inl hpos), hall _ (.inr rfl) start hnext⟩
                · rintro ⟨hall, hwhole⟩ pos (hpos | rfl) other hother
                  · exact hall pos hpos other hother
                  · rw [hnext] at hother
                    cases hother
                    exact hwhole

/-- Random access works exactly where the messages are whole. -/
theorem randomAccess_iff (halloc : ∀ n, malloc.block n ≠ none) (h : Scanned content state) :
    RandomAccess malloc content state ↔ AllWhole content state.1.index := by
  have hentry : ∀ index (hlt : index < state.1.index.length), ∃ start,
      nextHeader content state.1.index[index] = some start ∧
      ((state.1.message malloc content index).1 = .ok ↔ EndsWithin content start) ∧
      ((state.1.message malloc content index).1 = .ok →
        state.2[index]? = some (state.1.message malloc content index).2.loaded) := by
    intro index hlt
    have hlt' : index < state.2.length := h.entries.length_eq ▸ hlt
    obtain ⟨start, hnext, hsize, hmessage⟩ := h.entries.get hlt hlt'
    obtain ⟨-, hok, hloaded⟩ := MctFile.message_spec halloc h.buffer
      (List.getElem?_eq_getElem hlt) hnext hsize
    refine ⟨start, hnext, hok, ?_⟩
    intro hret
    rw [hloaded hret, List.getElem?_eq_getElem hlt', ← hmessage]
    rfl
  constructor
  · rintro ⟨-, hall⟩ pos hpos start hstart
    obtain ⟨index, hlt, rfl⟩ := List.getElem_of_mem hpos
    obtain ⟨found, hfound, hok, -⟩ := hentry index hlt
    rw [hstart] at hfound
    cases hfound
    exact hok.mp (hall index hlt).1
  · intro hall
    refine ⟨h.entries.length_eq.symm, ?_⟩
    intro index hlt
    obtain ⟨start, hstart, hok, hloaded⟩ := hentry index hlt
    have hret := hok.mpr (hall _ (List.getElem_mem hlt) start hstart)
    exact ⟨hret, hloaded hret⟩

theorem scanned_run (filter : Option (List MctFilterEntry))
    (halloc : ∀ n, malloc.block n ≠ none) (h : Scanned content state)
    (ops : List FileOp) :
    let final := (runOps (fileStep malloc content filter) state ops).2
    Scanned content final ∧ state.1.filePosition ≤ final.1.filePosition ∧
      (AllWhole content final.1.index ↔ AllWhole content state.1.index ∧
        Guarded (fileStep malloc content filter) (AcceptsWhole content filter) state ops) := by
  induction ops generalizing state with
  | nil => exact ⟨h, le_refl _, by simp [Guarded]⟩
  | cons op ops ih =>
      obtain ⟨hscanned, hle, hwhole⟩ := scanned_step filter halloc h op
      obtain ⟨hscanned', hle', hwhole'⟩ := ih hscanned
      refine ⟨hscanned', hle.trans hle', hwhole'.trans ?_⟩
      rw [hwhole, Guarded, and_assoc]

theorem scanned_open (content : List UInt8) : Scanned content (mctFileOpen, []) := ⟨rfl, .nil⟩

/-- The scan never goes back, and all that it accepted can be loaded again if
and only if each message was whole that it accepted. -/
theorem message_loads_what_read_accepted (malloc : Malloc) (halloc : ∀ n, malloc.block n ≠ none)
    (content : List UInt8) (filter : Option (List MctFilterEntry)) (ops : List FileOp) :
    (∀ before after, ops = before ++ after →
      (runOps (fileStep malloc content filter) (mctFileOpen, []) before).2.1.filePosition ≤
        (runOps (fileStep malloc content filter) (mctFileOpen, []) ops).2.1.filePosition) ∧
    (RandomAccess malloc content
        (runOps (fileStep malloc content filter) (mctFileOpen, []) ops).2 ↔
      Guarded (fileStep malloc content filter) (AcceptsWhole content filter)
        (mctFileOpen, []) ops) := by
  constructor
  · rintro before after rfl
    have hbefore := scanned_run filter halloc (scanned_open content) before
    have hafter := scanned_run filter halloc hbefore.1 after
    rw [runOps_append_state]
    exact hafter.2.1
  · obtain ⟨hscanned, -, hwhole⟩ :=
      scanned_run filter halloc (scanned_open content) ops
    rw [randomAccess_iff halloc hscanned, hwhole]
    exact and_iff_right fun pos hpos => absurd hpos List.not_mem_nil

/-- A message of two payload bytes without an extended header, with a byte that
belongs to no message in front of it. -/
def twoByteMessage : List UInt8 :=
  [0] ++ storagePattern ++ List.replicate 12 0 ++ [32, 0, 0, 6] ++ [7, 9]

theorem message_loads_what_read_accepted_sample :
    let ops := [FileOp.read, .read, .message 1, .read, .message 0]
    let final := (runOps (fileStep Malloc.zeroed (twoByteMessage ++ twoByteMessage) none)
      (mctFileOpen, []) ops).2
    RandomAccess Malloc.zeroed (twoByteMessage ++ twoByteMessage) final ∧
      final.1.index = [0, 23] ∧ final.2.map LogMessage.payload = [[7, 9], [7, 9]] :=
  ⟨(message_loads_what_read_accepted Malloc.zeroed (fun _ => Option.some_ne_none _)
      (twoByteMessage ++ twoByteMessage) none
      [.read, .read, .message 1, .read, .message 0]).2.mpr (by decide +kernel),
    by decide +kernel, by decide +kernel⟩

/-- The last byte of the payload is missing: the message is accepted, and
cannot be loaded. -/
theorem cut_message_is_accepted :
    let content := twoByteMessage.dropLast
    let final := runOps (fileStep Malloc.zeroed content none) (mctFileOpen, []) [.read]
    final.1 = [.true] ∧ final.2.1.index = [0] ∧
      (final.2.1.message Malloc.zeroed content 0).1 = .error ∧
      ¬ RandomAccess Malloc.zeroed content final.2 := by
  refine ⟨by decide +kernel, by decide +kernel, by decide +kernel, ?_⟩
  rintro ⟨-, hall⟩
  exact absurd (hall 0 (by decide +kernel)).1 (by decide +kernel)

end Access

end MctDaemon.Shared
