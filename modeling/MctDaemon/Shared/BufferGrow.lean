import MctDaemon.Shared.BufferFifo

/-!
A ring buffer that grows. Growing copies the bytes in use to the start of a
larger block, which is sound while the buffer holds an entry. The growing
branch for a wrapped buffer also serves the empty one, and there it takes the
whole old data area for bytes in use. The results below say what growing does
keep, for every run that avoids this.
-/

namespace MctDaemon.Shared

open Lib

/-- The free size `mct_buffer_push3` starts from. -/
def MctBuffer.free (buf : MctBuffer) : Int :=
  freeSize buf.size buf.write buf.read buf.count

/-- A call of `mct_buffer_increase_size` would succeed if the data area had
`size` bytes now. -/
def MctBuffer.CanGrowFrom (malloc : Malloc) (buf : MctBuffer) (size : Nat) : Prop :=
  buf.stepSize ≠ 0 ∧ size + sizeofBufferHead + buf.stepSize ≤ buf.maxSize ∧
    malloc.block (size + sizeofBufferHead + buf.stepSize) ≠ none

/-- Growing a data area of `size` bytes does no harm: the buffer holds an
entry or has no data area yet, and the grown size is an `int`. -/
def MctBuffer.SafeGrowth (buf : MctBuffer) (size : Nat) : Prop :=
  (buf.count ≠ 0 ∨ size = 0) ∧ size + buf.stepSize < 2147483648

/-- Each time the push of an entry grows the buffer, it grows it safely. The
`k`-th growth starts from `size + k * stepSize` bytes, and it happens when the
free size is still too small and none of the growths so far is refused. -/
def MctBuffer.SafePush (malloc : Malloc) (buf : MctBuffer) (entry : List UInt8) : Prop :=
  entrySize entry < 2147483648 ∧
    ∀ k, (∀ j ≤ k, buf.free + (j * buf.stepSize : Nat) < entrySize entry ∧
        buf.CanGrowFrom malloc (buf.size + j * buf.stepSize)) →
      buf.SafeGrowth (buf.size + k * buf.stepSize)

/-- A data area of 2^31 bytes or more: its size is negative as an `int`, so
every push wants to grow it first, and it never holds an entry. -/
structure Unusable (buf : MctBuffer) (queue : List (List UInt8)) : Prop where
  large : 2147483648 ≤ buf.size
  unsigned : buf.size < 4294967296
  write_eq : buf.write = 0
  read_eq : buf.read = 0
  count_eq : buf.count = 0
  empty : queue = []

structure DynamicAs (buf : MctBuffer) (queue : List (List UInt8)) : Prop where
  stored : Represents buf queue ∨ Unusable buf queue
  head_le : sizeofBufferHead ≤ buf.minSize
  min_le : buf.minSize ≤ buf.size + sizeofBufferHead

section Growing

variable {buf grown : MctBuffer} {queue : List (List UInt8)} {malloc : Malloc}

/-- Entries that stand at the start of the memory, the write position right
behind them. -/
theorem represents_at_start (tail : List UInt8)
    (hmem : buf.mem = queueBytes queue ++ tail)
    (hsize : buf.mem.length = buf.size) (hsmall : buf.size < 2147483648)
    (hread : buf.read = 0) (hwrite : buf.write = (queueSize queue : Nat))
    (hcount : buf.count = queue.length) : Represents buf queue := by
  have hfits : queueSize queue ≤ buf.size := by
    rw [← hsize, hmem, List.length_append, queueBytes_length]
    omega
  refine ⟨by omega, hcount, hsize, hsmall, by omega, by simpa using hfits, ?_, ?_⟩
  · rw [hwrite, hread, queueBytes_length]
    simp [ringAdvance, hfits]
  · rw [hread, hmem]
    simp [ringRead]

/-- When the positions are in order, the entries are one segment. -/
theorem Represents.inOrder (h : Represents buf queue) (hless : buf.read < buf.write) :
    buf.read.toNat + queueSize queue ≤ buf.size ∧
      buf.write = ((buf.read.toNat + queueSize queue : Nat) : Int) := by
  have hread := h.holds.read_le
  have hcast := h.read_cast
  have hfits := h.fits
  have hwrite := h.write_cast
  unfold ringAdvance at hwrite
  split at hwrite
  · exact ⟨by omega, hwrite⟩
  · omega

/-- When they are not, the entries, if there are any, pass the end of the
memory. -/
theorem Represents.wrapped (h : Represents buf queue) (hless : ¬ buf.read < buf.write)
    (hne : queue ≠ []) :
    buf.size < buf.read.toNat + queueSize queue ∧
      buf.write.toNat = buf.read.toNat + queueSize queue - buf.size := by
  have hpos := queueSize_pos queue hne
  have hcast := h.read_cast
  have hwrite := h.write_cast
  unfold ringAdvance at hwrite
  split at hwrite <;> omega

/-- What the second branch of `mct_buffer_increase_size` takes for the bytes
in use. -/
theorem Represents.wrapped_cells (h : Represents buf queue) (hless : ¬ buf.read < buf.write)
    (hsafe : queue ≠ [] ∨ buf.size = 0) :
    slice buf.mem buf.read.toNat (buf.size - buf.read.toNat) ++
        slice buf.mem 0 buf.write.toNat = queueBytes queue ∧
      buf.size + buf.write.toNat - buf.read.toNat = queueSize queue := by
  have hmem := h.holds.mem_length
  have hread := h.holds.read_le
  have hfits := h.fits
  rcases hsafe with hne | hzero
  · obtain ⟨hpasses, hwrite⟩ := h.wrapped hless hne
    have hcells := h.holds.cells
    rw [queueBytes_length, ringRead_of_wraps _ _ _ (by omega) (by omega) (by omega)] at hcells
    have hend : slice buf.mem buf.read.toNat (buf.size - buf.read.toNat) =
        buf.mem.drop buf.read.toNat :=
      List.take_of_length_le (by rw [List.length_drop]; omega)
    refine ⟨?_, by omega⟩
    rw [← hcells, slice_zero, hwrite, hend, hmem]
  · have hnone : queueSize queue = 0 := by omega
    have hnil : buf.mem = [] := List.length_eq_zero_iff.mp (by omega)
    have hnothing : queueBytes queue = [] :=
      List.length_eq_zero_iff.mp (by rw [queueBytes_length, hnone])
    have hwrite := h.write_le
    refine ⟨?_, by omega⟩
    rw [hnothing, hnil]
    simp [slice]

/-- A growth has read the positions, the cells between them and the number of
entries, and has put the cells in front of the new block. -/
theorem Represents.increase (h : Represents buf queue)
    (hgrown : mctBufferIncreaseSize malloc buf = some grown)
    (hsafe : queue ≠ [] ∨ buf.size = 0)
    (hsmall : buf.size + buf.stepSize < 2147483648) : Represents grown queue := by
  have hmem := h.holds.mem_length
  have hread := h.holds.read_le
  have hcast := h.read_cast
  have hfits := h.fits
  unfold mctBufferIncreaseSize at hgrown
  split at hgrown
  · cases hgrown
  · split at hgrown
    · cases hgrown
    · split at hgrown
      · cases hgrown
      · rename_i block hblock
        have hblockLen := malloc.length_eq _ _ hblock
        have hfresh : (block.drop sizeofBufferHead).length = buf.size + buf.stepSize := by
          rw [List.length_drop, hblockLen]
          omega
        split at hgrown
        · rename_i hless
          obtain ⟨hplain, hwrite⟩ := h.inOrder hless
          have hused : (buf.write - buf.read).toNat = queueSize queue := by omega
          have hcells := h.holds.cells
          rw [queueBytes_length, ringRead_of_fits _ _ _ (by omega)] at hcells
          cases hgrown
          refine represents_at_start ((block.drop sizeofBufferHead).drop (queueSize queue))
            ?_ ?_ hsmall rfl ?_ h.count_eq
          · simp [hused, hcells, copyInto]
          · simp only [hused, hcells]
            rw [copyInto_length _ _ _ (by rw [queueBytes_length]; omega), hfresh]
          · simp only
            omega
        · rename_i hless
          obtain ⟨hbytes, hused⟩ := h.wrapped_cells hless hsafe
          have hwrite := h.write_le
          have hfirst : (slice buf.mem buf.read.toNat (buf.size - buf.read.toNat)).length =
              buf.size - buf.read.toNat := slice_length _ _ _ (by omega)
          have htotal := congrArg List.length hbytes
          rw [List.length_append, hfirst, queueBytes_length] at htotal
          have hcopied : copyInto
              (copyInto (block.drop sizeofBufferHead) 0
                (slice buf.mem buf.read.toNat (buf.size - buf.read.toNat)))
              (buf.size - buf.read.toNat) (slice buf.mem 0 buf.write.toNat) =
              queueBytes queue ++ (block.drop sizeofBufferHead).drop (queueSize queue) := by
            rw [← hbytes]
            simp only [copyInto, List.take_zero, List.nil_append, Nat.zero_add, hfirst]
            rw [List.take_left' hfirst, List.drop_append, hfirst,
              List.drop_eq_nil_of_le (by omega), List.nil_append, List.drop_drop]
            congr 2
            omega
          rw [uint32_of_small h.read_nonneg (by omega), int32_natCast h.holds.size_small]
            at hgrown
          simp only [hcopied] at hgrown
          cases hgrown
          refine represents_at_start ((block.drop sizeofBufferHead).drop (queueSize queue))
            ?_ ?_ hsmall rfl ?_ h.count_eq
          · rfl
          · simp only
            rw [List.length_append, queueBytes_length, List.length_drop, hfresh]
            omega
          · simp only
            omega

theorem canGrowFrom_of_increase (hgrown : mctBufferIncreaseSize malloc buf = some grown) :
    buf.CanGrowFrom malloc buf.size := by
  unfold mctBufferIncreaseSize at hgrown
  split at hgrown
  · cases hgrown
  · rename_i hstep
    split at hgrown
    · cases hgrown
    · rename_i hmax
      split at hgrown
      · cases hgrown
      · rename_i block hblock
        exact ⟨hstep, by omega, by simp [hblock]⟩

/-- The loop of `mct_buffer_push3` computes the free size in `unsigned`
arithmetic; as an `int` the result is the same. -/
theorem Represents.freeSizeAgain_eq (h : Represents buf queue) :
    freeSizeAgain buf.size buf.write buf.read buf.count = buf.size - queueSize queue := by
  have hfree := h.freeSize_eq
  have hfits := h.fits
  have hsmall := h.holds.size_small
  rw [freeSize, int32_natCast hsmall] at hfree
  unfold freeSizeAgain
  split
  · rename_i hless
    rwa [if_pos hless] at hfree
  · rename_i hless
    rw [if_neg hless] at hfree
    split
    · rename_i hfull
      rwa [if_pos hfull] at hfree
    · rename_i hfull
      rw [if_neg hfull] at hfree
      rw [hfree]
      exact int32_of_small (by omega) (by omega)

/-- The growing loop keeps the queue, and it ends with enough bytes free or
with an error. -/
theorem Represents.growUntilFree (h : Represents buf queue) (needed : Nat)
    (hsafe : ∀ k, (∀ j ≤ k, (buf.size : Int) - queueSize queue + (j * buf.stepSize : Nat) < needed ∧
        buf.CanGrowFrom malloc (buf.size + j * buf.stepSize)) →
      buf.SafeGrowth (buf.size + k * buf.stepSize)) :
    let result := growUntilFree malloc needed buf.count (buf.size - queueSize queue) buf
    Represents result.2 queue ∧ result.2.minSize = buf.minSize ∧ buf.size ≤ result.2.size ∧
      (result.1 = .ok ∧ (needed : Int) ≤ result.2.size - queueSize queue ∨
        result.1 = .error) := by
  induction hleft : buf.maxSize - buf.size using Nat.strong_induction_on generalizing buf with
  | _ left ih =>
      by_cases hless : (buf.size : Int) - queueSize queue < needed
      · cases hincrease : mctBufferIncreaseSize malloc buf with
        | none =>
            have hstop : Shared.growUntilFree malloc needed buf.count
                (buf.size - queueSize queue) buf = (.error, buf) := by
              rw [Shared.growUntilFree, if_pos hless]
              split
              · rfl
              · rename_i hgrown
                rw [hincrease] at hgrown
                cases hgrown
            rw [hstop]
            exact ⟨h, rfl, le_refl _, Or.inr rfl⟩
        | some grown =>
            obtain ⟨hstep, hmax, hsize, hmaxSize, hminSize, hstepSize, hcount, _⟩ :=
              mctBufferIncreaseSize_grows hincrease
            have hfirst : buf.SafeGrowth buf.size := by
              have hzero := hsafe 0 (by
                intro j hj
                have hj0 : j = 0 := by omega
                subst hj0
                simpa using ⟨hless, canGrowFrom_of_increase hincrease⟩)
              simpa using hzero
            have hholds : queue ≠ [] ∨ buf.size = 0 := by
              rcases hfirst.1 with hne | hzero
              · refine Or.inl ?_
                rintro rfl
                exact hne (by simpa using h.count_eq)
              · exact Or.inr hzero
            have hnext := h.increase hincrease hholds hfirst.2
            have hcontinue : Shared.growUntilFree malloc needed buf.count
                (buf.size - queueSize queue) buf =
                Shared.growUntilFree malloc needed grown.count
                  (grown.size - queueSize queue) grown := by
              rw [Shared.growUntilFree, if_pos hless]
              split
              · rename_i hnone
                rw [hincrease] at hnone
                cases hnone
              · rename_i other hgrown
                rw [hincrease] at hgrown
                cases hgrown
                rw [← hcount, hnext.freeSizeAgain_eq]
            -- growth `k` of the grown buffer is growth `k + 1` of this one
            have hshift (k : Nat) :
                grown.size + k * grown.stepSize = buf.size + (k + 1) * buf.stepSize := by
              rw [hsize, hstepSize, Nat.succ_mul]
              omega
            have hlater : ∀ k, (∀ j ≤ k,
                (grown.size : Int) - queueSize queue + (j * grown.stepSize : Nat) < needed ∧
                  grown.CanGrowFrom malloc (grown.size + j * grown.stepSize)) →
                grown.SafeGrowth (grown.size + k * grown.stepSize) := by
              intro k hk
              have hsafeNext := hsafe (k + 1) (by
                intro j hj
                cases j with
                | zero => simpa using ⟨hless, canGrowFrom_of_increase hincrease⟩
                | succ j =>
                    obtain ⟨hstill, hcan⟩ := hk j (by omega)
                    refine ⟨?_, ?_⟩
                    · have hsum := hshift j
                      omega
                    · rw [← hshift j]
                      simpa only [MctBuffer.CanGrowFrom, hstepSize, hmaxSize] using hcan)
              rw [← hshift k] at hsafeNext
              simpa only [MctBuffer.SafeGrowth, hcount, hstepSize] using hsafeNext
            obtain ⟨hrep, hmin, hge, hend⟩ := ih (grown.maxSize - grown.size)
              (by omega) hnext hlater rfl
            rw [hcontinue]
            exact ⟨hrep, hmin.trans hminSize, by omega, hend⟩
      · have hroom : (needed : Int) ≤ buf.size - queueSize queue := by omega
        rw [growUntilFree_of_enough malloc buf hless]
        exact ⟨h, rfl, le_refl _, Or.inl ⟨rfl, hroom⟩⟩

/-- An unusable buffer would grow first, which is not safe; so it does not
grow at all. -/
theorem Unusable.noIncrease (h : Unusable buf queue)
    (hsafe : buf.CanGrowFrom malloc buf.size → buf.SafeGrowth buf.size) :
    mctBufferIncreaseSize malloc buf = none := by
  cases hincrease : mctBufferIncreaseSize malloc buf with
  | none => rfl
  | some grown =>
      have hlarge := h.large
      have hgrowth := (hsafe (canGrowFrom_of_increase hincrease)).2
      omega

theorem Unusable.free_neg (h : Unusable buf queue) : buf.free < 0 := by
  have hlarge := h.large
  have hunsigned := h.unsigned
  unfold MctBuffer.free freeSize int32
  rw [h.write_eq, h.read_eq, h.count_eq]
  simp only [gt_iff_lt, lt_irrefl, ne_eq, not_true, false_and, if_false]
  omega

theorem Unusable.positions_ok (h : Unusable buf queue) :
    ¬ uint32 buf.read > buf.size ∧ ¬ uint32 buf.write > buf.size := by
  have hzero : uint32 0 = 0 := uint32_of_small (le_refl _) (by omega)
  rw [h.read_eq, h.write_eq, hzero]
  simp

theorem Unusable.push3 (h : Unusable buf queue) (data1 data2 data3 : List UInt8)
    (hsafe : buf.SafePush malloc (data1 ++ data2 ++ data3)) :
    mctBufferPush3 malloc buf data1 data2 data3 = (.error, buf) := by
  have hfree := h.free_neg
  have hless : buf.free < entrySize (data1 ++ data2 ++ data3) := by omega
  have hstuck : mctBufferIncreaseSize malloc buf = none := h.noIncrease (by
    intro hcan
    have hzero := hsafe.2 0 (by
      intro j hj
      have hj0 : j = 0 := by omega
      subst hj0
      exact ⟨by simpa using hless, by simpa using hcan⟩)
    simpa using hzero)
  have hloop : Shared.growUntilFree malloc (entrySize (data1 ++ data2 ++ data3)) buf.count
      buf.free buf = (.error, buf) := by
    rw [Shared.growUntilFree, if_pos hless]
    split
    · rfl
    · rename_i hgrown
      rw [hstuck] at hgrown
      cases hgrown
  rw [mctBufferPush3_of_positions malloc h.positions_ok hsafe.1]
  rw [MctBuffer.free] at hloop
  rw [hloop]
  rfl

theorem Unusable.get (h : Unusable buf queue) (data : Bool) (maxSize : Int) (delete : Bool) :
    mctBufferGet malloc buf data maxSize delete = ⟨MctReturnValue.error.code, [], buf⟩ := by
  have hpositions := h.positions_ok
  have hcount := h.count_eq
  unfold mctBufferGet
  rw [if_neg (by
      rintro (hr | hw | hc)
      · exact hpositions.1 hr
      · exact hpositions.2 hw
      · omega),
    if_pos hcount, if_neg (by rw [h.write_eq, h.read_eq]; simp)]

theorem Represents.minimize (h : Represents buf []) (hhead : sizeofBufferHead ≤ buf.minSize)
    (hmin : buf.minSize ≤ buf.size + sizeofBufferHead) :
    DynamicAs (mctBufferMinimizeSize malloc buf).2 [] := by
  have hsmall := h.holds.size_small
  unfold mctBufferMinimizeSize
  split
  · exact ⟨Or.inl h, hhead, hmin⟩
  · split
    · exact ⟨Or.inl h, hhead, hmin⟩
    · refine ⟨Or.inl ?_, hhead, ?_⟩
      · exact represents_at_start (List.replicate (buf.minSize - sizeofBufferHead) 0)
          rfl (by simp) (by simp only; omega) rfl rfl rfl
      · simp only
        omega

theorem DynamicAs.get (h : DynamicAs buf queue) (data : Bool) (maxSize : Int)
    (delete : Bool) :
    (mctBufferGet malloc buf data maxSize delete).reply = queueFront queue data maxSize ∧
      DynamicAs (mctBufferGet malloc buf data maxSize delete).buf
        (if delete then queue.tail else queue) := by
  rcases h.stored with hrep | hunusable
  · cases queue with
    | nil =>
        rw [hrep.get_empty]
        refine ⟨rfl, ?_⟩
        cases delete <;> exact h
    | cons entry rest =>
        rw [hrep.get]
        refine ⟨rfl, ?_⟩
        cases delete with
        | false => exact h
        | true =>
            simp only [if_true, List.tail_cons]
            split
            · rename_i hlast
              subst hlast
              exact hrep.dropEntry.minimize h.head_le h.min_le
            · exact ⟨Or.inl hrep.dropEntry, h.head_le, h.min_le⟩
  · rw [hunusable.get, hunusable.empty]
    refine ⟨rfl, ?_⟩
    have hsame : DynamicAs buf [] := by
      rw [← hunusable.empty]
      exact h
    cases delete <;> exact hsame

/-- A push that succeeds appends its entry. A push that fails may have grown
the buffer, but the queue and, apart from the size, the free size stay. -/
theorem DynamicAs.push3 (h : DynamicAs buf queue) (data1 data2 data3 : List UInt8)
    (hsafe : buf.SafePush malloc (data1 ++ data2 ++ data3)) :
    let result := mctBufferPush3 malloc buf data1 data2 data3
    result.1 = .ok ∧ DynamicAs result.2 (queue ++ [data1 ++ data2 ++ data3]) ∨
      result.1 = .error ∧ DynamicAs result.2 queue ∧
        result.2.free - result.2.size = buf.free - buf.size := by
  rcases h.stored with hrep | hunusable
  · have hfree : buf.free = buf.size - queueSize queue := hrep.freeSize_eq
    have hgrows := hsafe.2
    rw [hfree] at hgrows
    obtain ⟨hnext, hmin, hge, hend⟩ := hrep.growUntilFree
      (entrySize (data1 ++ data2 ++ data3)) hgrows
    rw [mctBufferPush3_of_positions malloc hrep.positions_ok hsafe.1, hrep.freeSize_eq]
    generalize Shared.growUntilFree malloc (entrySize (data1 ++ data2 ++ data3)) buf.count
      (buf.size - queueSize queue) buf = loop at hnext hmin hge hend
    obtain ⟨ret, grown⟩ := loop
    have hhead := h.head_le
    have hminLe := h.min_le
    simp only at hnext hmin hge hend
    have hminGrown : grown.minSize ≤ grown.size + sizeofBufferHead := by omega
    rcases hend with ⟨rfl, hroom⟩ | rfl
    · obtain ⟨hrepNew, hlimits⟩ := hnext.writeEntry data1 data2 data3 (by omega)
      simp only [if_true]
      refine Or.inl ⟨trivial, Or.inl hrepNew, ?_, ?_⟩
      · rw [hlimits.min_eq, hmin]
        exact hhead
      · rw [hlimits.min_eq, hlimits.size_eq]
        exact hminGrown
    · simp only [reduceCtorEq, if_false]
      refine Or.inr ⟨trivial, ⟨Or.inl hnext, ?_, ?_⟩, ?_⟩
      · rw [hmin]
        exact hhead
      · exact hminGrown
      · have hfreeNew : grown.free = grown.size - queueSize queue := hnext.freeSize_eq
        omega
  · rw [hunusable.push3 data1 data2 data3 hsafe]
    exact Or.inr ⟨rfl, h, rfl⟩

/-- A safe growth: the queue and the used size stay, and the free size gains
the step size. -/
theorem DynamicAs.increase (h : DynamicAs buf queue)
    (hgrown : mctBufferIncreaseSize malloc buf = some grown)
    (hsafe : buf.SafeGrowth buf.size) :
    DynamicAs grown queue ∧ mctBufferGetUsedSize grown = mctBufferGetUsedSize buf ∧
      grown.free = buf.free + buf.stepSize := by
  obtain ⟨hstep, hmax, hsize, hmaxSize, hminSize, hstepSize, hcount, _⟩ :=
    mctBufferIncreaseSize_grows hgrown
  have hhead := h.head_le
  have hmin := h.min_le
  rcases h.stored with hrep | hunusable
  · have hholds : queue ≠ [] ∨ buf.size = 0 := by
      rcases hsafe.1 with hne | hzero
      · refine Or.inl ?_
        rintro rfl
        exact hne (by simpa using hrep.count_eq)
      · exact Or.inr hzero
    have hnext := hrep.increase hgrown hholds hsafe.2
    have hfree : buf.free = buf.size - queueSize queue := hrep.freeSize_eq
    have hfreeNew : grown.free = grown.size - queueSize queue := hnext.freeSize_eq
    refine ⟨⟨Or.inl hnext, ?_, ?_⟩, ?_, by omega⟩
    · rw [hminSize]
      exact hhead
    · omega
    · rw [hnext.getUsedSize, hrep.getUsedSize]
  · rw [hunusable.noIncrease fun _ => hsafe] at hgrown
    cases hgrown

/-- Growing an empty buffer leaves only the step size free. -/
theorem Represents.increase_empty (h : Represents buf [])
    (hgrown : mctBufferIncreaseSize malloc buf = some grown)
    (hsmall : buf.size + buf.stepSize < 2147483648) : grown.free = buf.stepSize := by
  have hread := h.holds.read_le
  have hcast := h.read_cast
  have hwrite := h.write_cast
  have hcount : buf.count = 0 := by simpa using h.count_eq
  rw [queueSize_nil, ringAdvance_zero _ _ hread] at hwrite
  have hsame : ¬ buf.read < buf.write := by omega
  unfold mctBufferIncreaseSize at hgrown
  split at hgrown
  · cases hgrown
  · split at hgrown
    · cases hgrown
    · split at hgrown
      · cases hgrown
      · rw [int32_natCast h.holds.size_small] at hgrown
        cases hgrown
        have hsigned : int32 ((buf.size + buf.stepSize : Nat) : Int) =
            (buf.size + buf.stepSize : Nat) := int32_natCast hsmall
        simp only [MctBuffer.free, freeSize, hcount, hsigned, ne_eq, not_true, false_and,
          if_false]
        split <;> omega

/-- Exactly the safe growths raise the free size by the step size. -/
theorem Represents.increase_free_iff (h : Represents buf queue)
    (hgrown : mctBufferIncreaseSize malloc buf = some grown)
    (hsmall : buf.size + buf.stepSize < 2147483648) :
    grown.free = buf.free + buf.stepSize ↔ buf.count ≠ 0 ∨ buf.size = 0 := by
  have hfree : buf.free = buf.size - queueSize queue := h.freeSize_eq
  constructor
  · intro hgain
    by_cases hcount : buf.count = 0
    · have hnone : queue = [] := by simpa [h.count_eq] using hcount
      subst hnone
      have hstep := h.increase_empty hgrown hsmall
      rw [queueSize_nil] at hfree
      exact Or.inr (by omega)
    · exact Or.inl hcount
  · intro hsafe
    have hholds : queue ≠ [] ∨ buf.size = 0 := by
      rcases hsafe with hne | hzero
      · refine Or.inl ?_
        rintro rfl
        exact hne (by simpa using h.count_eq)
      · exact Or.inr hzero
    have hnext := h.increase hgrown hholds hsmall
    have hfreeNew : grown.free = grown.size - queueSize queue := hnext.freeSize_eq
    have hsize := (mctBufferIncreaseSize_grows hgrown).2.2.1
    omega

end Growing

inductive GrowOp where
  | call (op : BufferOp)
  | increase
  deriving DecidableEq, Repr

def growStep (malloc : Malloc) (buf : MctBuffer) : GrowOp → BufferReply × MctBuffer
  | .call op => bufferStep malloc buf op
  | .increase =>
      match mctBufferIncreaseSize malloc buf with
      | some grown => (⟨MctReturnValue.ok.code, []⟩, grown)
      | none => (⟨MctReturnValue.error.code, []⟩, buf)

/-- No growth in this call takes the whole data area of an empty buffer for
bytes in use, and none reaches 2^31 bytes. -/
def GrowOp.Safe (malloc : Malloc) (buf : MctBuffer) : GrowOp → Prop
  | .call (.push data) => buf.SafePush malloc data
  | .call (.push3 data1 data2 data3) => buf.SafePush malloc (data1 ++ data2 ++ data3)
  | .call _ => True
  | .increase => buf.CanGrowFrom malloc buf.size → buf.SafeGrowth buf.size

/-- The queue behind a call: a push that was answered with `MCT_RETURN_OK`
appends, pull and remove take the oldest entry. -/
def queueAfter (queue : List (List UInt8)) (ret : Int) : GrowOp → List (List UInt8)
  | .call (.push data) => if ret = MctReturnValue.ok.code then queue ++ [data] else queue
  | .call (.push3 data1 data2 data3) =>
      if ret = MctReturnValue.ok.code then queue ++ [data1 ++ data2 ++ data3] else queue
  | .call (.pull _ _) => queue.tail
  | .call .remove => queue.tail
  | .call (.copy _ _) => queue
  | .increase => queue

/-- A buffer made by `mct_buffer_init_dynamic` and the queue of its entries,
after any safe calls. Every call meets an allocator of its own. -/
inductive SafeRun : MctBuffer → List (List UInt8) → Prop
  | init {malloc : Malloc} {minSize maxSize stepSize : Nat} {buf : MctBuffer}
      (hunsigned : minSize < 4294967296)
      (hinit : mctBufferInitDynamic malloc minSize maxSize stepSize = some buf) :
      SafeRun buf []
  | call {buf : MctBuffer} {queue : List (List UInt8)} (hrun : SafeRun buf queue)
      (malloc : Malloc) (op : GrowOp) (hsafe : op.Safe malloc buf) :
      SafeRun (growStep malloc buf op).2 (queueAfter queue (growStep malloc buf op).1.ret op)

theorem initDynamic_dynamic {malloc : Malloc} {minSize maxSize stepSize : Nat}
    {buf : MctBuffer} (hunsigned : minSize < 4294967296)
    (hinit : mctBufferInitDynamic malloc minSize maxSize stepSize = some buf) :
    DynamicAs buf [] := by
  unfold mctBufferInitDynamic at hinit
  split at hinit
  · cases hinit
  · split at hinit
    · cases hinit
    · split at hinit
      · cases hinit
      · split at hinit
        · cases hinit
        · split at hinit
          · cases hinit
          · rename_i hhead
            cases hinit
            refine ⟨?_, by simp only; omega, by simp only; omega⟩
            by_cases hsmall : minSize - sizeofBufferHead < 2147483648
            · exact Or.inl (represents_at_start
                (List.replicate (minSize - sizeofBufferHead) 0) rfl (by simp) hsmall rfl rfl rfl)
            · exact Or.inr ⟨by simp only; omega, by simp only; omega, rfl, rfl, rfl, rfl⟩

theorem DynamicAs.pushed {malloc : Malloc} {buf : MctBuffer} {queue : List (List UInt8)}
    (h : DynamicAs buf queue) (data1 data2 data3 : List UInt8)
    (hsafe : buf.SafePush malloc (data1 ++ data2 ++ data3)) :
    DynamicAs (mctBufferPush3 malloc buf data1 data2 data3).2
      (if (mctBufferPush3 malloc buf data1 data2 data3).1.code = MctReturnValue.ok.code then
        queue ++ [data1 ++ data2 ++ data3] else queue) := by
  rcases h.push3 data1 data2 data3 hsafe with ⟨hret, hnext⟩ | ⟨hret, hnext, _⟩
  · rw [hret, if_pos rfl]
    exact hnext
  · rw [hret, if_neg (by decide)]
    exact hnext

/-- One safe call keeps the representation. -/
theorem DynamicAs.step {malloc : Malloc} {buf : MctBuffer} {queue : List (List UInt8)}
    (h : DynamicAs buf queue) (op : GrowOp) (hsafe : op.Safe malloc buf) :
    DynamicAs (growStep malloc buf op).2
      (queueAfter queue (growStep malloc buf op).1.ret op) := by
  cases op with
  | call op =>
      cases op with
      | push data =>
          have hsame : data ++ [] ++ [] = data := by simp
          have hsafe' : buf.SafePush malloc (data ++ [] ++ []) := by
            rw [hsame]
            exact hsafe
          have hpush := h.pushed data [] [] hsafe'
          rw [hsame] at hpush
          exact hpush
      | push3 data1 data2 data3 => exact h.pushed data1 data2 data3 hsafe
      | pull data maxSize => exact (h.get data maxSize true).2
      | copy data maxSize => exact (h.get data maxSize false).2
      | remove => exact (h.get false 0 true).2
  | increase =>
      simp only [growStep, queueAfter]
      cases hgrown : mctBufferIncreaseSize malloc buf with
      | none => exact h
      | some grown => exact (h.increase hgrown (hsafe (canGrowFrom_of_increase hgrown))).1

theorem SafeRun.dynamic {buf : MctBuffer} {queue : List (List UInt8)}
    (hrun : SafeRun buf queue) : DynamicAs buf queue := by
  induction hrun with
  | init hunsigned hinit => exact initDynamic_dynamic hunsigned hinit
  | call _ malloc op hsafe ih => exact ih.step op hsafe

/-- In every state that safe calls reach, the buffer stores the queue: it
counts the entries and their sizes, and pull and copy answer from its front.
A safe growth changes neither the queue nor the used size and raises the free
size by the step size; a safe push, however often it grows, appends its entry
or leaves the queue and, apart from the grown size, the free size. Where sizes
are `int`s, the growths that raise the free size by the step size are those
of a buffer with an entry or without a data area. -/
theorem growth_keeps_queue {buf : MctBuffer} {queue : List (List UInt8)}
    (hrun : SafeRun buf queue) :
    mctBufferGetMessageCount buf = queue.length ∧
      mctBufferGetUsedSize buf = queueSize queue ∧
      (∀ malloc data maxSize delete,
        (mctBufferGet malloc buf data maxSize delete).reply = queueFront queue data maxSize ∧
          DynamicAs (mctBufferGet malloc buf data maxSize delete).buf
            (if delete then queue.tail else queue)) ∧
      (∀ malloc grown, mctBufferIncreaseSize malloc buf = some grown →
        buf.SafeGrowth buf.size →
          DynamicAs grown queue ∧ mctBufferGetUsedSize grown = mctBufferGetUsedSize buf ∧
            grown.free = buf.free + buf.stepSize) ∧
      (∀ malloc data1 data2 data3, buf.SafePush malloc (data1 ++ data2 ++ data3) →
        let result := mctBufferPush3 malloc buf data1 data2 data3
        result.1 = .ok ∧ DynamicAs result.2 (queue ++ [data1 ++ data2 ++ data3]) ∨
          result.1 = .error ∧ DynamicAs result.2 queue ∧
            result.2.free - result.2.size = buf.free - buf.size) ∧
      ∀ malloc grown, mctBufferIncreaseSize malloc buf = some grown →
        buf.size + buf.stepSize < 2147483648 →
          (grown.free = buf.free + buf.stepSize ↔ buf.count ≠ 0 ∨ buf.size = 0) := by
  have hdynamic := hrun.dynamic
  refine ⟨?_, ?_, ?_, ?_, ?_, ?_⟩
  · rcases hdynamic.stored with hrep | hunusable
    · exact hrep.getMessageCount
    · rw [hunusable.empty]
      exact hunusable.count_eq
  · rcases hdynamic.stored with hrep | hunusable
    · exact hrep.getUsedSize
    · rw [hunusable.empty]
      unfold mctBufferGetUsedSize
      rw [if_pos hunusable.count_eq]
      rfl
  · intro malloc data maxSize delete
    exact hdynamic.get data maxSize delete
  · intro malloc grown hgrown hsafe
    exact hdynamic.increase hgrown hsafe
  · intro malloc data1 data2 data3 hsafe
    exact hdynamic.push3 data1 data2 data3 hsafe
  · intro malloc grown hgrown hsmall
    rcases hdynamic.stored with hrep | hunusable
    · exact hrep.increase_free_iff hgrown hsmall
    · have hlarge := hunusable.large
      omega

/-- A buffer of which no entry is longer than the destination of its copies. -/
def EntriesWithin (room : Nat) (buf : MctBuffer) : Prop :=
  ∃ queue, DynamicAs buf queue ∧ ∀ entry ∈ queue, entry.length ≤ room

section EntriesWithin

variable {room : Nat} {buf : MctBuffer} {malloc : Malloc}

theorem initDynamic_within {minSize maxSize stepSize : Nat} (hunsigned : minSize < 4294967296)
    (hinit : mctBufferInitDynamic malloc minSize maxSize stepSize = some buf) :
    EntriesWithin room buf :=
  ⟨[], initDynamic_dynamic hunsigned hinit, by simp⟩

theorem EntriesWithin.push3 (h : EntriesWithin room buf) {data1 data2 data3 : List UInt8}
    (hsafe : buf.SafePush malloc (data1 ++ data2 ++ data3))
    (hroom : (data1 ++ data2 ++ data3).length ≤ room) :
    EntriesWithin room (mctBufferPush3 malloc buf data1 data2 data3).2 := by
  obtain ⟨queue, hqueue, hshort⟩ := h
  rcases hqueue.push3 data1 data2 data3 hsafe with ⟨-, hnext⟩ | ⟨-, hnext, -⟩
  · refine ⟨_, hnext, fun entry hentry => ?_⟩
    rcases List.mem_append.mp hentry with hold | hnew
    · exact hshort entry hold
    · rw [List.mem_singleton.mp hnew]
      exact hroom
  · exact ⟨queue, hnext, hshort⟩

theorem EntriesWithin.get (h : EntriesWithin room buf) (data : Bool) (maxSize : Int)
    (delete : Bool) :
    EntriesWithin room (mctBufferGet malloc buf data maxSize delete).buf ∧
      (mctBufferGet malloc buf data maxSize delete).data.length ≤ room := by
  obtain ⟨queue, hqueue, hshort⟩ := h
  obtain ⟨hreply, hnext⟩ : (mctBufferGet malloc buf data maxSize delete).reply =
        queueFront queue data maxSize ∧
      DynamicAs (mctBufferGet malloc buf data maxSize delete).buf
        (if delete then queue.tail else queue) := hqueue.get data maxSize delete
  refine ⟨⟨_, hnext, fun entry hentry => ?_⟩, ?_⟩
  · split at hentry
    · exact hshort entry (List.mem_of_mem_tail hentry)
    · exact hshort entry hentry
  · have hdata := congrArg BufferReply.data hreply
    change (mctBufferGet malloc buf data maxSize delete).data = _ at hdata
    rw [hdata]
    cases queue with
    | nil => exact Nat.zero_le _
    | cons entry rest =>
        simp only [queueFront]
        split
        · exact hshort entry List.mem_cons_self
        · exact Nat.zero_le _

end EntriesWithin

/-- 16 bytes take an entry of 14, and the buffer grows for the next one. -/
theorem growth_keeps_queue_second_push :
    let start : MctBuffer := ⟨List.replicate 16 0, 16, 28, 100, 20, 0, 0, 0, 0⟩
    let one := (growStep Malloc.zeroed start (.call (.push [1, 2]))).2
    let two := (mctBufferPush3 Malloc.zeroed one [3] [] []).2
    mctBufferInitDynamic Malloc.zeroed 28 100 20 = some start ∧
      mctBufferGetMessageCount one = 1 ∧ two.size = 36 ∧ DynamicAs two [[1, 2], [3]] := by
  intro start one two
  have hstart : SafeRun start [] := @SafeRun.init Malloc.zeroed 28 100 20 start (by decide) rfl
  have hrun := hstart.call Malloc.zeroed (.call (.push [1, 2])) ⟨by decide, by
    intro k hk
    exact absurd (hk 0 (Nat.zero_le k)).1 (by decide +kernel)⟩
  have hqueue : queueAfter [] (growStep Malloc.zeroed start (.call (.push [1, 2]))).1.ret
      (.call (.push [1, 2])) = [[1, 2]] := by decide +kernel
  rw [hqueue] at hrun
  obtain ⟨hcount, _, _, _, hpush, _⟩ := growth_keeps_queue hrun
  refine ⟨rfl, hcount, by decide +kernel, ?_⟩
  have hfree : one.free = 2 ∧ one.stepSize = 20 ∧ one.size = 16 ∧ one.count = 1 := by
    decide +kernel
  have hsafe : one.SafePush Malloc.zeroed ([3] ++ [] ++ []) := by
    refine ⟨by decide, ?_⟩
    intro k hk
    have hless := (hk k (le_refl k)).1
    have hneeded : entrySize ([3] ++ [] ++ []) = 13 := rfl
    rw [hfree.1, hfree.2.1, hneeded] at hless
    rw [MctBuffer.SafeGrowth, hfree.2.1, hfree.2.2.1, hfree.2.2.2]
    omega
  rcases hpush Malloc.zeroed [3] [] [] hsafe with ⟨_, hstored⟩ | ⟨herror, _⟩
  · exact hstored
  · exact absurd herror (by decide +kernel)

/-- A buffer of 4 bytes that grows by 50 while it is empty has 50 bytes free,
not 54, and the entry pushed next is lost. -/
theorem grown_empty_buffer_loses_entry :
    ∃ buf grown, mctBufferInitDynamic Malloc.zeroed 16 100 50 = some buf ∧
      mctBufferIncreaseSize Malloc.zeroed buf = some grown ∧
      buf.free = 4 ∧ grown.free = 50 ∧
      (mctBufferPush Malloc.zeroed grown [65]).1 = .ok ∧
      (mctBufferPull Malloc.zeroed (mctBufferPush Malloc.zeroed grown [65]).2 true 1).ret =
        MctReturnValue.error.code := by
  refine ⟨_, _, rfl, rfl, ?_⟩
  decide +kernel

end MctDaemon.Shared
