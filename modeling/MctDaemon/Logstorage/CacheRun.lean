import MctDaemon.Lib.Run
import MctDaemon.Logstorage.CacheSync

/-!
Runs of the message cache. Beside the cache a run keeps the list of messages
and the positions they were cached at. The invariant splits this history at
the last sync and at the last wrap around: `Unwrapped` when the round of
messages in the cache began before the last sync, `Wrapped` when it began after.
-/

namespace MctDaemon.Logstorage

open Lib

/-- A cache and the messages cached so far, oldest first. -/
structure TracedCache where
  state : Option CacheState
  placed : List (Placed UInt8)

/-- The message a call caches and where it is copied to. -/
def CacheOp.placement (config : CacheConfig) : Option CacheState → CacheOp → List (Placed UInt8)
  | some s, .write data1 data2 data3 =>
      let msg := data1 ++ data2 ++ data3
      [⟨s.slot config msg.length, msg⟩]
  | _, _ => []

def tracedStep (files : LogFiles) (config : CacheConfig) (t : TracedCache) (op : CacheOp) :
    Option Int × TracedCache :=
  ((cacheStep files config t.state op).1,
    { state := (cacheStep files config t.state op).2
      placed := t.placed ++ op.placement config t.state })

def freshTrace (config : CacheConfig) : TracedCache := ⟨some (freshCache config), []⟩

def CacheOp.messages : CacheOp → List (List UInt8)
  | .write data1 data2 data3 => [data1 ++ data2 ++ data3]
  | .sync _ => []

/-- A message is no longer than the cache and the storage header pattern stands
at its start only. -/
def CacheOp.WellFormed (config : CacheConfig) (op : CacheOp) : Prop :=
  ∀ msg ∈ op.messages, Marked magic msg ∧ msg.length ≤ config.fileSize

instance (config : CacheConfig) (op : CacheOp) : Decidable (op.WellFormed config) :=
  inferInstanceAs (Decidable (∀ msg ∈ op.messages, Marked magic msg ∧ msg.length ≤ config.fileSize))

/-- The last call is a sync that the strategy of the filter asks for. -/
def EndsInSync (config : CacheConfig) (ops : List CacheOp) : Prop :=
  ∃ before status, ops = before ++ [.sync status] ∧ isStrategySet config.sync status

section Condition

/-- No header stands in the piece of the cache. -/
def HeaderFree (cache : List UInt8) (start stop : Nat) : Prop :=
  ∀ i < stop, start ≤ i → i + magic.length ≤ stop → ¬ magic <+: cache.drop i

/-- From here on the rest of the previous round holds messages that were not
written to the file. -/
def CacheFooter.unsavedFrom (footer : CacheFooter) : Nat :=
  if footer.wrapAroundCnt = 1 ∧ footer.offset < footer.lastSyncOffset then footer.lastSyncOffset
  else footer.offset

/-- A message that reaches the end of the cache does not overflow the counter.
If it fills the cache exactly, nothing was synced in this round; if it wraps
around, nothing of the round before is left to be written. -/
def CacheState.WriteCondition (config : CacheConfig) (s : CacheState) (length : Nat) : Prop :=
  let room := config.fileSize - s.footer.offset
  (room ≤ length → s.footer.wrapAroundCnt + 1 < 4294967296) ∧
  (length = room → s.footer.wrapAroundCnt = 0 → s.footer.lastSyncOffset = 0) ∧
  (room < length → 1 ≤ s.footer.wrapAroundCnt →
    HeaderFree s.cache s.footer.unsavedFrom s.footer.endSyncOffset)

/-- The search for the first whole message of the round before stays inside the
block, and a header it takes ends before the round does. -/
def CacheState.SyncCondition (s : CacheState) : Prop :=
  1 ≤ s.footer.wrapAroundCnt →
  ¬ (s.footer.wrapAroundCnt = 1 ∧ s.footer.offset < s.footer.lastSyncOffset) →
  ∃ i : Int, mctLogstorageFindMctHeader s.block s.footer.offset
      (uint32 (s.footer.endSyncOffset - s.footer.offset : Int)) = some i ∧
    (0 ≤ i → 0 < int32 (s.footer.endSyncOffset - s.footer.offset - i : Int) →
      (s.footer.offset : Int) + i + magic.length ≤ s.footer.endSyncOffset)

def CacheCondition (config : CacheConfig) (t : TracedCache) (op : CacheOp) : Prop :=
  ∀ s, t.state = some s →
    match op with
    | .write data1 data2 data3 => s.WriteCondition config (data1 ++ data2 ++ data3).length
    | .sync status => isStrategySet config.sync status → s.SyncCondition

end Condition

section Invariant

structure CacheState.Sound (config : CacheConfig) (s : CacheState) : Prop where
  cache_length : s.cache.length = config.fileSize
  offset_le : s.footer.offset ≤ config.fileSize
  skip_eq : s.skip = false

/-- The round in the cache began before the last sync: `done` was written to
the file by then, `fresh` was cached since. -/
structure Unwrapped (config : CacheConfig) (s : CacheState) (past : History UInt8)
    (done fresh : List (Placed UInt8)) : Prop extends s.Sound config where
  marked : ∀ record ∈ done ++ fresh, Marked magic record.data
  done_laid : LaidOut 0 done s.footer.lastSyncOffset
  fresh_laid : LaidOut s.footer.lastSyncOffset fresh s.footer.offset
  cells : s.cache.take s.footer.offset = contents (done ++ fresh)
  counter : s.footer.wrapAroundCnt = 0 ∨
    s.footer.wrapAroundCnt = 1 ∧ s.footer.lastSyncOffset = 0 ∧
      s.footer.offset = config.fileSize ∧ s.footer.endSyncOffset = config.fileSize
  past_accounted : Accounted past (done ++ fresh)
  written_eq : s.written = delivered past ++ contents done

/-- The round in the cache, `current`, began after the last sync. Of the round
before, `prior` up to `cut` was written by then and `pending` was not. -/
structure Wrapped (config : CacheConfig) (s : CacheState) (past : History UInt8)
    (prior pending current : List (Placed UInt8)) (cut : Nat) : Prop extends s.Sound config where
  marked : ∀ record ∈ prior ++ pending ++ current, Marked magic record.data
  prior_laid : LaidOut 0 prior cut
  pending_laid : LaidOut cut pending s.footer.endSyncOffset
  current_laid : LaidOut 0 current s.footer.offset
  cells : s.cache.take s.footer.offset = contents current
  rest_cells : slice s.cache s.footer.offset (s.footer.endSyncOffset - s.footer.offset) =
    (contents (prior ++ pending)).drop s.footer.offset
  end_le : s.footer.endSyncOffset ≤ config.fileSize
  counter : 1 ≤ s.footer.wrapAroundCnt
  cut_eq : s.footer.wrapAroundCnt = 1 → cut = s.footer.lastSyncOffset
  cut_le : s.footer.wrapAroundCnt ≠ 1 → cut ≤ s.footer.offset
  past_accounted : Accounted past (prior ++ pending ++ current)
  written_eq : s.written = delivered past ++ contents prior

/-- The history of a cache, with what was written to the file. -/
def CacheHistory (config : CacheConfig) (s : CacheState) (history : History UInt8) : Prop :=
  (∃ past done fresh, history = past ++ flagged true done ++ flagged false fresh ∧
    Unwrapped config s past done fresh) ∨
  ∃ past prior pending current cut,
    history = past ++ flagged true prior ++ flagged false pending ++ flagged false current ∧
    Wrapped config s past prior pending current cut

end Invariant

section WriteSteps

variable {config : CacheConfig} {s : CacheState} {past : History UInt8} {msg : List UInt8}

theorem addAtOffset_sound (h : s.Sound config)
    (hroom : msg.length ≤ config.fileSize - s.footer.offset) :
    (s.addAtOffset msg).Sound config := by
  have hlength := h.cache_length
  have hoffset := h.offset_le
  refine ⟨?_, ?_, h.skip_eq⟩
  · simp only [CacheState.addAtOffset]
    rw [copyInto_length _ _ _ (by omega), hlength]
  · simp only [CacheState.addAtOffset]
    omega

theorem addAtStart_sound (h : s.Sound config) (hmsg : msg.length ≤ config.fileSize) :
    (s.addAtStart msg).Sound config := by
  have hlength := h.cache_length
  refine ⟨?_, hmsg, h.skip_eq⟩
  simp only [CacheState.addAtStart]
  rw [copyInto_length _ _ _ (by omega), hlength]

section Unwrapped

variable {done fresh : List (Placed UInt8)}

/-- The counter is zero as long as there is room left. -/
theorem Unwrapped.counter_zero (h : Unwrapped config s past done fresh)
    (hroom : 0 < config.fileSize - s.footer.offset) : s.footer.wrapAroundCnt = 0 := by
  rcases h.counter with hzero | ⟨_, _, hfull, _⟩
  · exact hzero
  · omega

/-- A message that leaves room behind it extends the round. -/
theorem Unwrapped.addAtOffset (h : Unwrapped config s past done fresh) (hmsg : Marked magic msg)
    (hroom : msg.length ≤ config.fileSize - s.footer.offset) (hnonempty : 0 < msg.length) :
    Unwrapped config (s.addAtOffset msg) past done (fresh ++ [⟨s.footer.offset, msg⟩]) := by
  have hlength := h.cache_length
  have hoffset := h.offset_le
  refine ⟨addAtOffset_sound h.toSound hroom, ?_, h.done_laid, h.fresh_laid.snoc msg, ?_,
    .inl (h.counter_zero (by omega)), ?_, h.written_eq⟩
  · intro record hmem
    rw [← List.append_assoc, List.mem_append, List.mem_singleton] at hmem
    rcases hmem with hmem | rfl
    · exact h.marked record hmem
    · exact hmsg
  · simp only [CacheState.addAtOffset]
    rw [take_copyInto_append _ _ _ (by omega), h.cells, ← List.append_assoc, contents_append]
    simp
  · apply h.past_accounted.mono
    rw [← List.append_assoc]
    exact List.subset_append_left _ _

/-- A message that fills the cache exactly bumps the counter without a wrap around. -/
theorem Unwrapped.fill (h : Unwrapped config s past done fresh) (hmsg : Marked magic msg)
    (hroom : msg.length = config.fileSize - s.footer.offset) (hnonempty : 0 < msg.length)
    (hsynced : s.footer.lastSyncOffset = 0) :
    Unwrapped config (s.addAtOffset msg).countWrapAround past done
      (fresh ++ [⟨s.footer.offset, msg⟩]) := by
  have hoffset := h.offset_le
  have hzero := h.counter_zero (by omega)
  have hadded := h.addAtOffset hmsg hroom.le hnonempty
  have hfull : (s.addAtOffset msg).footer.offset = config.fileSize := by
    simp only [CacheState.addAtOffset]
    omega
  refine ⟨⟨hadded.cache_length, hadded.offset_le, hadded.skip_eq⟩, hadded.marked,
    hadded.done_laid, hadded.fresh_laid, hadded.cells, .inr ⟨?_, hsynced, hfull, ?_⟩,
    hadded.past_accounted, hadded.written_eq⟩
  · simp only [CacheState.countWrapAround, CacheState.addAtOffset, hzero]
    decide +kernel
  · simp only [CacheState.countWrapAround, CacheState.addAtOffset, hzero, Nat.zero_lt_one, if_true]
    omega

/-- A message that finds no room begins a new round. -/
theorem Unwrapped.wrap (h : Unwrapped config s past done fresh) (hmsg : Marked magic msg)
    (hfits : msg.length ≤ config.fileSize) :
    Wrapped config (s.countWrapAround.addAtStart msg) past done fresh [⟨0, msg⟩]
      s.footer.lastSyncOffset := by
  have hlength := h.cache_length
  have hoffset := h.offset_le
  have hcounter : s.countWrapAround.footer.wrapAroundCnt = s.footer.wrapAroundCnt + 1 := by
    simp only [CacheState.countWrapAround]
    rcases h.counter with hzero | ⟨hone, _⟩
    · rw [hzero]
      decide +kernel
    · rw [hone]
      decide +kernel
  refine {
    toSound := addAtStart_sound ⟨hlength, hoffset, h.skip_eq⟩ hfits
    marked := ?_
    prior_laid := h.done_laid
    pending_laid := h.fresh_laid
    current_laid := ⟨rfl, by simp [Placed.stop, CacheState.addAtStart, LaidOut]⟩
    cells := ?_
    rest_cells := ?_
    end_le := hoffset
    counter := by
      simp only [CacheState.addAtStart, hcounter]
      omega
    cut_eq := fun _ => rfl
    cut_le := ?_
    past_accounted := h.past_accounted.mono (List.subset_append_left _ _)
    written_eq := h.written_eq }
  · intro record hmem
    rw [List.mem_append, List.mem_singleton] at hmem
    rcases hmem with hmem | rfl
    · exact h.marked record hmem
    · exact hmsg
  · have htake := take_copyInto_append s.cache 0 msg (by omega)
    simp only [CacheState.addAtStart, CacheState.countWrapAround]
    simpa [contents] using htake
  · have hslice := slice_copyInto_behind s.cache 0 (s.footer.offset - msg.length) msg (by omega)
    rw [Nat.zero_add] at hslice
    simp only [CacheState.addAtStart, CacheState.countWrapAround]
    rw [hslice, slice_eq_drop_take, h.cells]
  · simp only [CacheState.addAtStart, hcounter]
    intro hcnt
    rcases h.counter with hzero | ⟨_, hlast, _⟩
    · omega
    · rw [hlast]
      exact Nat.zero_le _

end Unwrapped

section Wrapped

variable {prior pending current : List (Placed UInt8)} {cut : Nat}

/-- A message that finds room extends the round; the end of the round before stays. -/
theorem Wrapped.addAtOffset (h : Wrapped config s past prior pending current cut)
    (hmsg : Marked magic msg) (hroom : msg.length ≤ config.fileSize - s.footer.offset) :
    Wrapped config (s.addAtOffset msg) past prior pending
      (current ++ [⟨s.footer.offset, msg⟩]) cut := by
  have hlength := h.cache_length
  have hoffset := h.offset_le
  have hcounter := h.counter
  have hend : (s.addAtOffset msg).footer.endSyncOffset = s.footer.endSyncOffset := by
    simp only [CacheState.addAtOffset]
    rw [if_neg (by omega)]
  refine {
    toSound := addAtOffset_sound h.toSound hroom
    marked := ?_
    prior_laid := h.prior_laid
    pending_laid := by
      rw [hend]
      exact h.pending_laid
    current_laid := h.current_laid.snoc msg
    cells := ?_
    rest_cells := ?_
    end_le := by
      rw [hend]
      exact h.end_le
    counter := h.counter
    cut_eq := h.cut_eq
    cut_le := fun hcnt => (h.cut_le hcnt).trans (Nat.le_add_right _ _)
    past_accounted := ?_
    written_eq := h.written_eq }
  · intro record hmem
    rw [← List.append_assoc, List.mem_append, List.mem_singleton] at hmem
    rcases hmem with hmem | rfl
    · exact h.marked record hmem
    · exact hmsg
  · simp only [CacheState.addAtOffset]
    rw [take_copyInto_append _ _ _ (by omega), h.cells, contents_append]
    simp
  · rw [hend]
    simp only [CacheState.addAtOffset]
    rw [slice_copyInto_behind _ _ _ _ (by omega), Nat.sub_add_eq, ← drop_slice, h.rest_cells,
      List.drop_drop]
  · apply h.past_accounted.mono
    rw [← List.append_assoc]
    exact List.subset_append_left _ _

/-- Filling the cache exactly bumps the counter; the messages of the round
before are overwritten by then. -/
theorem Wrapped.fill (h : Wrapped config s past prior pending current cut)
    (hmsg : Marked magic msg) (hroom : msg.length = config.fileSize - s.footer.offset)
    (hcnt : s.footer.wrapAroundCnt + 1 < 4294967296) :
    Wrapped config (s.addAtOffset msg).countWrapAround past prior pending
      (current ++ [⟨s.footer.offset, msg⟩]) cut := by
  have hoffset := h.offset_le
  have hend := h.end_le
  have hadded := h.addAtOffset hmsg hroom.le
  have hcut := hadded.pending_laid.le
  have hpositive := h.counter
  have hcounter : (s.addAtOffset msg).countWrapAround.footer.wrapAroundCnt =
      s.footer.wrapAroundCnt + 1 := by
    simp only [CacheState.countWrapAround, CacheState.addAtOffset]
    rw [uint32_of_small (by omega) (by omega)]
    omega
  refine {
    toSound := ⟨hadded.cache_length, hadded.offset_le, hadded.skip_eq⟩
    marked := hadded.marked
    prior_laid := hadded.prior_laid
    pending_laid := hadded.pending_laid
    current_laid := hadded.current_laid
    cells := hadded.cells
    rest_cells := hadded.rest_cells
    end_le := hadded.end_le
    counter := by omega
    cut_eq := by omega
    cut_le := ?_
    past_accounted := hadded.past_accounted
    written_eq := hadded.written_eq }
  intro _
  calc
    cut ≤ (s.addAtOffset msg).footer.endSyncOffset := hcut
    _ ≤ config.fileSize := hadded.end_le
    _ = (s.addAtOffset msg).countWrapAround.footer.offset := by
      simp only [CacheState.countWrapAround, CacheState.addAtOffset]
      omega

/-- Where a message of the round before begins, behind the current round, its
header still stands. -/
theorem Wrapped.header_at (h : Wrapped config s past prior pending current cut)
    {record : Placed UInt8} (hmem : record ∈ prior ++ pending)
    (hpos : s.footer.offset ≤ record.pos) :
    magic <+: s.cache.drop record.pos ∧
      record.pos + magic.length ≤ s.footer.endSyncOffset := by
  have hmarked : ∀ record ∈ prior ++ pending, Marked magic record.data := by
    intro record hmem
    exact h.marked record (List.mem_append_left _ hmem)
  have hlaid := h.prior_laid.append h.pending_laid
  have hstop := (hlaid.bounds hmem).2
  have hlength := (hmarked record hmem).1.length_le
  simp only [Placed.stop] at hstop
  refine ⟨?_, by omega⟩
  have hmark : magic <+: (contents (prior ++ pending)).drop record.pos := by
    rw [hlaid.mark_iff magic_apart magic_ne_nil hmarked]
    exact ⟨record, hmem, (Nat.zero_add _).symm⟩
  have hrest := congrArg (List.drop (record.pos - s.footer.offset)) h.rest_cells
  rw [drop_slice, List.drop_drop, Nat.add_sub_cancel' hpos] at hrest
  rw [← hrest] at hmark
  exact hmark.trans (List.take_prefix _ _)

/-- The search from the offset on comes by the header of such a message. -/
theorem Wrapped.header_seen (h : Wrapped config s past prior pending current cut)
    {record : Placed UInt8} (hmem : record ∈ pending) (hpos : s.footer.offset ≤ record.pos) :
    s.footer.offset ≤ s.footer.endSyncOffset ∧ record.pos < s.footer.endSyncOffset ∧
      magic <+: (s.block.drop s.footer.offset).drop (record.pos - s.footer.offset) := by
  have hend := h.end_le
  have hlength := h.cache_length
  have hmagic : 0 < magic.length := by decide
  obtain ⟨hheader, hinside⟩ := h.header_at (List.mem_append_right _ hmem) hpos
  refine ⟨by omega, by omega, ?_⟩
  rw [List.drop_drop, Nat.add_sub_cancel' hpos, CacheState.block,
    List.drop_append_of_le_length (by omega)]
  exact hheader.trans (List.prefix_append _ _)

/-- A header between the offset and the end of the round before is the start of a message not yet
synced, if the synced ones lie before the offset: the rest of that round is what follows it. -/
theorem Wrapped.pending_from (h : Wrapped config s past prior pending current cut)
    (hcut : cut ≤ s.footer.offset) {k : Nat}
    (hmark : magic <+: (s.block.drop s.footer.offset).drop k)
    (hinside : s.footer.offset + k + magic.length ≤ s.footer.endSyncOffset) :
    ∃ gone rest, pending = gone ++ rest ∧
      (∀ record ∈ gone, record.stop ≤ s.footer.offset + k) ∧
      contents rest = slice s.cache (s.footer.offset + k)
        (s.footer.endSyncOffset - (s.footer.offset + k)) := by
  have hend := h.end_le
  have hlength := h.cache_length
  have hlaid := h.prior_laid.append h.pending_laid
  have hmarked : ∀ record ∈ prior ++ pending, Marked magic record.data := by
    intro record hmem
    exact h.marked record (List.mem_append_left _ hmem)
  have hcells : (contents (prior ++ pending)).drop (s.footer.offset + k) =
      slice s.cache (s.footer.offset + k)
        (s.footer.endSyncOffset - (s.footer.offset + k)) := by
    rw [← List.drop_drop, ← h.rest_cells, drop_slice, Nat.sub_sub]
  have hheader : magic <+: (contents (prior ++ pending)).drop (s.footer.offset + k) := by
    rw [hcells]
    rw [List.drop_drop, CacheState.block, List.drop_append_of_le_length (by omega)] at hmark
    apply List.prefix_of_prefix_length_le (hmark.trans (List.prefix_refl _))
      ((List.take_prefix _ _).trans (List.prefix_append _ _))
    have hslice := slice_length s.cache (s.footer.offset + k)
      (s.footer.endSyncOffset - (s.footer.offset + k)) (by omega)
    rw [slice] at hslice
    rw [hslice]
    omega
  rw [hlaid.mark_iff magic_apart magic_ne_nil hmarked] at hheader
  obtain ⟨record, hmem, hpos⟩ := hheader
  have hpending : record ∈ pending := by
    rcases List.mem_append.mp hmem with hprior | hpending
    · have hstop := (h.prior_laid.bounds hprior).2
      have hnonempty := (hmarked record hmem).1.length_le
      have hmagic : 0 < magic.length := by decide
      simp only [Placed.stop] at hstop
      omega
    · exact hpending
  obtain ⟨gone, behind, rfl⟩ := List.append_of_mem hpending
  obtain ⟨middle, hgone, hrest⟩ := h.pending_laid.split
  have hmiddle : middle = s.footer.offset + k := by
    rw [← hrest.1, hpos, Nat.zero_add]
  subst hmiddle
  refine ⟨gone, record :: behind, rfl, fun other hother => (hgone.bounds hother).2, ?_⟩
  rw [← hcells, ← List.append_assoc]
  exact ((h.prior_laid.append hgone).drop_contents _).symm

/-- A message of the round before that begins before the current offset was overwritten. -/
theorem Wrapped.overwritten (h : Wrapped config s past prior pending current cut)
    {record : Placed UInt8} (hmem : record ∈ prior ++ pending)
    (hpos : record.pos < s.footer.offset) : ∃ other ∈ current, record.Overlaps other := by
  apply h.current_laid.overlaps (Nat.zero_le _) hpos
  have hlength := (h.marked record (List.mem_append_left _ hmem)).1.length_le
  simp only [magic, List.length_cons, List.length_nil] at hlength
  omega

/-- A second wrap around forgets the round before, so nothing of it may be left. -/
theorem Wrapped.wrap (h : Wrapped config s past prior pending current cut)
    (hmsg : Marked magic msg) (hfits : msg.length ≤ config.fileSize)
    (hcnt : s.footer.wrapAroundCnt + 1 < 4294967296)
    (hfree : HeaderFree s.cache s.footer.unsavedFrom s.footer.endSyncOffset) :
    Wrapped config (s.countWrapAround.addAtStart msg)
      (past ++ flagged true prior ++ flagged false pending) [] current [⟨0, msg⟩] 0 := by
  have hlength := h.cache_length
  have hoffset := h.offset_le
  have hpositive := h.counter
  have hcounter : s.countWrapAround.footer.wrapAroundCnt = s.footer.wrapAroundCnt + 1 := by
    simp only [CacheState.countWrapAround]
    rw [uint32_of_small (by omega) (by omega)]
    omega
  have hoverwritten : ∀ record ∈ pending, ∃ other ∈ current, record.Overlaps other := by
    intro record hmem
    have hmem' : record ∈ prior ++ pending := List.mem_append_right _ hmem
    by_cases hpos : record.pos < s.footer.offset
    · exact h.overwritten hmem' hpos
    · obtain ⟨hheader, hinside⟩ := h.header_at hmem' (by omega)
      have hbegin := (h.pending_laid.bounds hmem).1
      have hmagic : 0 < magic.length := by decide
      have hfrom : s.footer.unsavedFrom ≤ record.pos := by
        unfold CacheFooter.unsavedFrom
        split
        · next hcase =>
            have hcut := h.cut_eq hcase.1
            omega
        · omega
      exact absurd hheader (hfree record.pos (by omega) hfrom hinside)
  refine {
    toSound := addAtStart_sound ⟨hlength, hoffset, h.skip_eq⟩ hfits
    marked := ?_
    prior_laid := rfl
    pending_laid := h.current_laid
    current_laid := ⟨rfl, by simp [Placed.stop, CacheState.addAtStart, LaidOut]⟩
    cells := ?_
    rest_cells := ?_
    end_le := hoffset
    counter := by
      simp only [CacheState.addAtStart, hcounter]
      omega
    cut_eq := by
      simp only [CacheState.addAtStart, hcounter]
      omega
    cut_le := fun _ => Nat.zero_le _
    past_accounted := ?_
    written_eq := ?_ }
  · intro record hmem
    rw [List.nil_append, List.mem_append, List.mem_singleton] at hmem
    rcases hmem with hmem | rfl
    · exact h.marked record (List.mem_append_right _ hmem)
    · exact hmsg
  · have htake := take_copyInto_append s.cache 0 msg (by omega)
    simp only [CacheState.addAtStart, CacheState.countWrapAround]
    simpa [contents] using htake
  · have hslice := slice_copyInto_behind s.cache 0 (s.footer.offset - msg.length) msg (by omega)
    rw [Nat.zero_add] at hslice
    simp only [CacheState.addAtStart, CacheState.countWrapAround]
    rw [hslice, slice_eq_drop_take, h.cells, List.nil_append]
  · apply Accounted.append
    · apply Accounted.append
      · apply h.past_accounted.mono
        simp only [map_fst_flagged]
        intro record hmem
        simp only [List.mem_append, List.nil_append] at hmem ⊢
        tauto
      · exact accounted_flagged_true _ _
    · apply accounted_flagged_false
      intro record hmem
      obtain ⟨other, hother, hoverlap⟩ := hoverwritten record hmem
      exact ⟨other, List.mem_append_left _ (by simpa using hother), hoverlap⟩
  · simp only [CacheState.addAtStart, CacheState.countWrapAround]
    rw [h.written_eq]
    simp

end Wrapped

end WriteSteps

section SyncSteps

variable {files : LogFiles} {config : CacheConfig} {s : CacheState} {past : History UInt8}

/-- The second half of a sync writes the current round from the start of the cache. -/
theorem syncRounds_current (hroom : EnoughRoom files config)
    (hsize : config.fileSize < 2147483648) (hsound : s.Sound config) {start stop : Nat}
    {ret : Int} {s1 : CacheState} {cells : List UInt8} {lastSync : Nat}
    (hfirst : mctLogstorageSyncToFile files config s start stop = some (ret, s1))
    (hsynced : SyncedTo s s1 cells lastSync) {current : List (Placed UInt8)}
    (hlaid : LaidOut 0 current s.footer.offset)
    (hmarked : ∀ record ∈ current, Marked magic record.data)
    (hcells : s.cache.take s.footer.offset = contents current) :
    ∃ s', (do
        let (_, s) ← mctLogstorageSyncToFile files config s start stop
        let s := s.setLastSync 0
        let (_, s) ← mctLogstorageSyncToFile files config s s.footer.lastSyncOffset s.footer.offset
        return s) = some s' ∧
      SyncedTo s s' (cells ++ contents current) s.footer.offset := by
  have hoffset : (s1.setLastSync 0).footer.offset = s.footer.offset := by
    simp only [CacheState.setLastSync, hsynced.footer_eq]
  have hcache : (s1.setLastSync 0).cache = s.cache := hsynced.cache_eq
  obtain ⟨ret', s', hsecond, hcurrent⟩ := syncToFile_records (s := s1.setLastSync 0) hroom hsize
    (by rw [hcache, hsound.cache_length]) (hsynced.skip_eq.trans hsound.skip_eq)
    hsound.offset_le hlaid hmarked
    (by
      change slice (s1.setLastSync 0).cache 0 (s.footer.offset - 0) = _
      rw [hcache, slice_zero, Nat.sub_zero, hcells])
  refine ⟨s', ?_, ?_, ?_, ?_, ?_⟩
  · simp only [hfirst, Option.bind_eq_bind, Option.bind_some]
    rw [hoffset, hsecond]
    rfl
  · rw [hcurrent.cache_eq, hcache]
  · rw [hcurrent.footer_eq]
    simp only [CacheState.setLastSync, hsynced.footer_eq]
  · rw [hcurrent.skip_eq]
    exact hsynced.skip_eq
  · rw [hcurrent.written_eq, ← List.append_assoc]
    congr 1
    exact hsynced.written_eq

/-- After a sync every message of the current round is in the file. -/
theorem SyncedTo.unwrapped {s' : CacheState} {cells : List UInt8} {past' : History UInt8}
    {current : List (Placed UInt8)} (h : SyncedTo s s' cells s.footer.offset)
    (hsound : s.Sound config) (hlaid : LaidOut 0 current s.footer.offset)
    (hmarked : ∀ record ∈ current, Marked magic record.data)
    (hcells : s.cache.take s.footer.offset = contents current)
    (hpast : Accounted past' current)
    (hwritten : s.written ++ cells = delivered past' ++ contents current) :
    Unwrapped config s' past' current [] := by
  refine {
    cache_length := by rw [h.cache_eq, hsound.cache_length]
    offset_le := by
      rw [h.footer_eq]
      exact hsound.offset_le
    skip_eq := h.skip_eq.trans hsound.skip_eq
    marked := by simpa using hmarked
    done_laid := by
      rw [h.footer_eq]
      exact hlaid
    fresh_laid := by
      rw [h.footer_eq]
      exact laidOut_nil _
    cells := by
      rw [h.cache_eq, h.footer_eq, List.append_nil]
      exact hcells
    counter := by
      rw [h.footer_eq]
      exact .inl rfl
    past_accounted := by simpa using hpast
    written_eq := by rw [h.written_eq, hwritten] }

variable (hroom : EnoughRoom files config) (hsize : config.fileSize < 2147483648)

include hroom hsize

theorem Unwrapped.sync {done fresh : List (Placed UInt8)}
    (h : Unwrapped config s past done fresh) :
    ∃ s', syncRounds files config s = some s' ∧ Unwrapped config s' past (done ++ fresh) [] := by
  have hlaid := h.done_laid.append h.fresh_laid
  rcases h.counter with hzero | ⟨hone, hlast, hfull, hend⟩
  · -- one piece: from the last sync position to the offset
    have hcells : slice s.cache s.footer.lastSyncOffset
        (s.footer.offset - s.footer.lastSyncOffset) = contents fresh := by
      rw [slice_eq_drop_take, h.cells]
      exact h.done_laid.drop_contents fresh
    obtain ⟨ret, s', hsync, hsynced⟩ := syncToFile_records hroom hsize h.cache_length h.skip_eq
      h.offset_le h.fresh_laid (fun record hmem => h.marked record (List.mem_append_right _ hmem))
      hcells
    refine ⟨s', ?_, ?_⟩
    · simp only [syncRounds, hzero, Nat.zero_lt_one, if_true, hsync, Option.bind_eq_bind,
        Option.bind_some]
      rfl
    · apply hsynced.unwrapped h.toSound hlaid h.marked h.cells h.past_accounted
      rw [h.written_eq, contents_append, List.append_assoc]
  · -- the cache is exactly full: the first piece is empty
    have hfind : mctLogstorageFindMctHeader s.block s.footer.offset
        (uint32 ((s.footer.endSyncOffset : Int) - s.footer.offset)) = some (-1) := by
      rw [hend, hfull, Int.sub_self, uint32_of_small (by omega) (by omega)]
      exact findHeader_none_asked _ _
    obtain ⟨ret, s1, hfirst, hnothing⟩ := syncToFile_writes_nothing hroom hsize h.skip_eq
      h.offset_le hend.le hfind (by simp)
    obtain ⟨s', hsync, hsynced⟩ := syncRounds_current hroom hsize h.toSound hfirst hnothing
      hlaid h.marked h.cells
    refine ⟨s', ?_, ?_⟩
    · rw [← hsync]
      simp only [syncRounds, hone, hlast, lt_irrefl, if_false, true_and, Nat.not_lt_zero]
    · apply hsynced.unwrapped h.toSound hlaid h.marked h.cells h.past_accounted
      have hnone : contents done = [] := by
        have hlength := h.done_laid.length
        exact List.eq_nil_of_length_eq_zero (by omega)
      rw [h.written_eq, hnone, List.append_nil, List.nil_append]

/-- The first piece of a sync that has to look for the first whole message of
the round before: what it leaves out was overwritten. -/
theorem Wrapped.sync_found {prior pending current : List (Placed UInt8)} {cut : Nat}
    (h : Wrapped config s past prior pending current cut) (hcut : cut ≤ s.footer.offset)
    {i : Int}
    (hfind : mctLogstorageFindMctHeader s.block s.footer.offset
      (uint32 ((s.footer.endSyncOffset : Int) - s.footer.offset)) = some i)
    (hwhole : 0 ≤ i → 0 < int32 ((s.footer.endSyncOffset : Int) - s.footer.offset - i) →
      (s.footer.offset : Int) + i + magic.length ≤ s.footer.endSyncOffset) :
    ∃ gone rest ret s1 lastSync, pending = gone ++ rest ∧
      (∀ record ∈ gone, record.pos < s.footer.offset) ∧
      mctLogstorageSyncToFile files config s s.footer.offset s.footer.endSyncOffset =
        some (ret, s1) ∧ SyncedTo s s1 (contents rest) lastSync := by
  have hoffset := h.offset_le
  have hend := h.end_le
  rcases findHeaderFrom_some hfind with ⟨hmissed, hnone⟩ | ⟨k, hk, hcount, hmark, hfirst⟩
  · obtain ⟨ret, s1, hsync, hsynced⟩ := syncToFile_writes_nothing hroom hsize h.skip_eq
      hoffset hend hfind (by rw [hmissed]; simp)
    refine ⟨pending, [], ret, s1, _, (List.append_nil _).symm, ?_, hsync, hsynced⟩
    intro record hmem
    by_contra hpos
    obtain ⟨hle, hlt, hheader⟩ := h.header_seen hmem (by omega)
    refine hnone _ ?_ hheader
    rw [uint32_of_small (by omega) (by omega)]
    omega
  · rw [Nat.zero_add] at hk hcount
    subst hk
    by_cases hpositive : 0 < int32 ((s.footer.endSyncOffset : Int) - s.footer.offset - k)
    · have hinside := hwhole (by omega) hpositive
      have hmagic : 0 < magic.length := by decide
      obtain ⟨gone, rest, rfl, hgone, hrest⟩ := h.pending_from hcut hmark (by omega)
      obtain ⟨ret, s1, hsync, hsynced⟩ := syncToFile_writes hroom hsize h.cache_length h.skip_eq
        hend (by omega) hfind
      rw [← hrest] at hsynced
      refine ⟨gone, rest, ret, s1, _, rfl, ?_, hsync, hsynced⟩
      -- a message that begins behind the offset would have been found first
      intro other hother
      by_contra hbehind
      have hmem : other ∈ gone ++ rest := List.mem_append_left _ hother
      obtain ⟨_, _, hearlier⟩ := h.header_seen hmem (by omega)
      refine hfirst _ ?_ hearlier
      have hstop := hgone other hother
      have hnonempty := (h.marked other
        (List.mem_append_left _ (List.mem_append_right _ hmem))).1.length_le
      simp only [Placed.stop] at hstop
      omega
    · obtain ⟨ret, s1, hsync, hsynced⟩ := syncToFile_writes_nothing hroom hsize h.skip_eq
        hoffset hend hfind (fun hboth => hpositive hboth.2)
      refine ⟨pending, [], ret, s1, _, (List.append_nil _).symm, ?_, hsync, hsynced⟩
      intro record hmem
      by_contra hpos
      obtain ⟨hle, hlt, _⟩ := h.header_seen hmem (by omega)
      apply hpositive
      rw [uint32_of_small (by omega) (by omega)] at hcount
      rw [int32_of_small (by omega) (by omega)]
      omega

theorem Wrapped.sync {prior pending current : List (Placed UInt8)} {cut : Nat}
    (h : Wrapped config s past prior pending current cut) (hcondition : s.SyncCondition) :
    ∃ s' gone rest, syncRounds files config s = some s' ∧ pending = gone ++ rest ∧
      Unwrapped config s' (past ++ flagged true prior ++ flagged false gone ++ flagged true rest)
        current [] := by
  have hpositive := h.counter
  -- the first piece, whichever way its start is chosen
  have hfirst : ∃ gone rest ret s1 lastSync, pending = gone ++ rest ∧
      (∀ record ∈ gone, record.pos < s.footer.offset) ∧
      mctLogstorageSyncToFile files config s
        (if s.footer.wrapAroundCnt = 1 ∧ s.footer.offset < s.footer.lastSyncOffset
          then s.footer.lastSyncOffset else s.footer.offset) s.footer.endSyncOffset =
        some (ret, s1) ∧ SyncedTo s s1 (contents rest) lastSync := by
    by_cases hcase : s.footer.wrapAroundCnt = 1 ∧ s.footer.offset < s.footer.lastSyncOffset
    · rw [if_pos hcase]
      have hcut := h.cut_eq hcase.1
      have hlaid := h.pending_laid
      rw [hcut] at hlaid
      have hcells : slice s.cache s.footer.lastSyncOffset
          (s.footer.endSyncOffset - s.footer.lastSyncOffset) = contents pending := by
        have hrest := congrArg (List.drop (s.footer.lastSyncOffset - s.footer.offset)) h.rest_cells
        rw [drop_slice, List.drop_drop, Nat.add_sub_cancel' hcase.2.le, Nat.sub_sub,
          Nat.add_sub_cancel' hcase.2.le] at hrest
        rw [hrest, ← hcut]
        exact h.prior_laid.drop_contents pending
      obtain ⟨ret, s1, hsync, hsynced⟩ := syncToFile_records hroom hsize h.cache_length h.skip_eq
        h.end_le hlaid (fun record hmem => h.marked record
          (List.mem_append_left _ (List.mem_append_right _ hmem))) hcells
      exact ⟨[], pending, ret, s1, _, rfl, by simp, hsync, hsynced⟩
    · rw [if_neg hcase]
      obtain ⟨i, hfind, hwhole⟩ := hcondition hpositive hcase
      have hcut : cut ≤ s.footer.offset := by
        by_cases hone : s.footer.wrapAroundCnt = 1
        · have hcut := h.cut_eq hone
          have hnot : ¬ s.footer.offset < s.footer.lastSyncOffset := fun hlt => hcase ⟨hone, hlt⟩
          omega
        · exact h.cut_le hone
      exact h.sync_found hroom hsize hcut hfind hwhole
  obtain ⟨gone, rest, ret, s1, lastSync, rfl, hgone, hsync, hsynced⟩ := hfirst
  have hmarked : ∀ record ∈ current, Marked magic record.data := by
    intro record hmem
    exact h.marked record (List.mem_append_right _ hmem)
  obtain ⟨s', hrounds, hdone⟩ := syncRounds_current hroom hsize h.toSound hsync hsynced
    h.current_laid hmarked h.cells
  refine ⟨s', gone, rest, ?_, rfl, ?_⟩
  · rw [← hrounds]
    simp only [syncRounds]
    rw [if_neg (by omega)]
    by_cases hcase : s.footer.wrapAroundCnt = 1 ∧ s.footer.offset < s.footer.lastSyncOffset
    · rw [if_pos hcase, if_pos hcase]
    · rw [if_neg hcase, if_neg hcase]
  · apply hdone.unwrapped h.toSound h.current_laid hmarked h.cells
    · apply Accounted.append
      · apply Accounted.append
        · apply Accounted.append
          · apply h.past_accounted.mono
            simp only [map_fst_flagged]
            intro record hmem
            simp only [List.mem_append] at hmem ⊢
            tauto
          · exact accounted_flagged_true _ _
        · apply accounted_flagged_false
          intro record hmem
          obtain ⟨other, hother, hoverlap⟩ := h.overwritten
            (List.mem_append_right _ (List.mem_append_left _ hmem)) (hgone record hmem)
          exact ⟨other, List.mem_append_right _ hother, hoverlap⟩
      · exact accounted_flagged_true _ _
    · rw [h.written_eq]
      simp

end SyncSteps

section Run

variable {files : LogFiles} {config : CacheConfig} {s : CacheState} {history : History UInt8}

/-- A message enters the history at the position it is copied to. -/
theorem CacheHistory.write (files : LogFiles) (hconfig : config.SyncsOnRequest)
    (hsize : config.fileSize < 2147483648) (h : CacheHistory config s history)
    {data1 data2 data3 : List UInt8} (hmsg : Marked magic (data1 ++ data2 ++ data3))
    (hfits : (data1 ++ data2 ++ data3).length ≤ config.fileSize)
    (hcondition : s.WriteCondition config (data1 ++ data2 ++ data3).length) :
    ∃ s' history', mctLogstorageWriteMsgCache files config s data1 data2 data3 = some (0, s') ∧
      CacheHistory config s' history' ∧
      history'.map Prod.fst = history.map Prod.fst ++
        [⟨s.slot config (data1 ++ data2 ++ data3).length, data1 ++ data2 ++ data3⟩] := by
  obtain ⟨hcounter, hexact, hfree⟩ := hcondition
  have hnonempty := hmsg.1.length_le
  have hmagic : 0 < magic.length := by decide
  have hoffset : s.footer.offset ≤ config.fileSize := by
    rcases h with ⟨_, _, _, _, h⟩ | ⟨_, _, _, _, _, _, h⟩ <;> exact h.offset_le
  rw [CacheState.slot, hconfig.cacheSize]
  rcases Nat.lt_trichotomy (data1 ++ data2 ++ data3).length
    (config.fileSize - s.footer.offset) with hlt | heq | hgt
  · rw [if_pos hlt.le]
    rcases h with ⟨past, done, fresh, rfl, h⟩ | ⟨past, prior, pending, current, cut, rfl, h⟩
    · refine ⟨_, _, writeMsgCache_before_end hconfig hsize hoffset hfits files hlt,
        .inl ⟨past, done, _, rfl, h.addAtOffset hmsg hlt.le (by omega)⟩, ?_⟩
      simp
    · refine ⟨_, _, writeMsgCache_before_end hconfig hsize hoffset hfits files hlt,
        .inr ⟨past, prior, pending, _, cut, rfl, h.addAtOffset hmsg hlt.le⟩, ?_⟩
      simp
  · rw [if_pos heq.le]
    rcases h with ⟨past, done, fresh, rfl, h⟩ | ⟨past, prior, pending, current, cut, rfl, h⟩
    · have hsynced := hexact heq (h.counter_zero (by omega))
      refine ⟨_, _, writeMsgCache_to_end hconfig hsize hoffset hfits files heq,
        .inl ⟨past, done, _, rfl, h.fill hmsg heq (by omega) hsynced⟩, ?_⟩
      simp
    · refine ⟨_, _, writeMsgCache_to_end hconfig hsize hoffset hfits files heq,
        .inr ⟨past, prior, pending, _, cut, rfl, h.fill hmsg heq (hcounter heq.ge)⟩, ?_⟩
      simp
  · rw [if_neg (by omega)]
    rcases h with ⟨past, done, fresh, rfl, h⟩ | ⟨past, prior, pending, current, cut, rfl, h⟩
    · refine ⟨_, _, writeMsgCache_from_start hconfig hsize hoffset hfits files hgt,
        .inr ⟨past, done, fresh, _, _, rfl, h.wrap hmsg hfits⟩, ?_⟩
      simp
    · refine ⟨_, _, writeMsgCache_from_start hconfig hsize hoffset hfits files hgt,
        .inr ⟨_, [], current, _, _, rfl, h.wrap hmsg hfits (hcounter hgt.le)
          (hfree hgt h.counter)⟩, ?_⟩
      simp [flagged]

/-- A sync keeps the history and accounts for every message of it. -/
theorem CacheHistory.sync (hroom : EnoughRoom files config)
    (hsize : config.fileSize < 2147483648) (hconfig : config.SyncsOnRequest)
    (h : CacheHistory config s history) {status : Nat}
    (hstatus : isStrategySet config.sync status) (hcondition : s.SyncCondition) :
    ∃ s' history', mctLogstorageSyncMsgCache files config s status = some (0, s') ∧
      CacheHistory config s' history' ∧ history'.map Prod.fst = history.map Prod.fst ∧
      Accounted history' [] := by
  have hspecific : status ≠ syncOnSpecificSize := by
    rintro rfl
    rw [hconfig.no_specific_size] at hstatus
    exact Bool.false_ne_true hstatus
  have hfile : status ≠ syncOnFileSize := by
    rintro rfl
    rw [hconfig.no_file_size] at hstatus
    exact Bool.false_ne_true hstatus
  have hcall : ∀ s', syncRounds files config s = some s' →
      mctLogstorageSyncMsgCache files config s status = some (0, s') := by
    intro s' hrounds
    simp [mctLogstorageSyncMsgCache, hstatus, hrounds, hspecific, hfile]
  rcases h with ⟨past, done, fresh, rfl, h⟩ | ⟨past, prior, pending, current, cut, rfl, h⟩
  · obtain ⟨s', hrounds, hafter⟩ := h.sync hroom hsize
    refine ⟨s', past ++ flagged true (done ++ fresh), hcall s' hrounds,
      .inl ⟨past, done ++ fresh, [], by simp [flagged], hafter⟩, by simp, ?_⟩
    apply Accounted.append _ (accounted_flagged_true _ _)
    simpa using hafter.past_accounted
  · obtain ⟨s', gone, rest, hrounds, rfl, hafter⟩ := h.sync hroom hsize hcondition
    refine ⟨s', past ++ flagged true prior ++ flagged false gone ++ flagged true rest ++
      flagged true current, hcall s' hrounds,
      .inl ⟨_, current, [], by simp [flagged], hafter⟩, by simp, ?_⟩
    apply Accounted.append _ (accounted_flagged_true _ _)
    simpa using hafter.past_accounted

theorem tracedStep_state {t : TracedCache} (hstate : t.state = some s) {op : CacheOp} {ret : Int}
    {s' : CacheState} (h : cacheCall files config s op = some (ret, s')) :
    (tracedStep files config t op).2.state = some s' := by
  simp only [tracedStep, cacheStep, hstate, Option.bind_some, h, Option.map_some]

def TracedSoFar (config : CacheConfig) (before : List CacheOp) (t : TracedCache) : Prop :=
  ∃ s history, t.state = some s ∧ history.map Prod.fst = t.placed ∧
    t.placed.map Placed.data = before.flatMap CacheOp.messages ∧ CacheHistory config s history ∧
    (EndsInSync config before → Accounted history [])

theorem freshTrace_soFar (hconfig : config.SyncsOnRequest) :
    TracedSoFar config [] (freshTrace config) := by
  refine ⟨freshCache config, [], rfl, rfl, rfl, .inl ⟨[], [], [], rfl, ?_⟩, fun _ => trivial⟩
  refine {
    cache_length := ?_
    offset_le := Nat.zero_le _
    skip_eq := rfl
    marked := by simp
    done_laid := rfl
    fresh_laid := rfl
    cells := rfl
    counter := .inl rfl
    past_accounted := trivial
    written_eq := rfl }
  simp [freshCache, hconfig.cacheSize]

theorem tracedStep_soFar (hroom : EnoughRoom files config)
    (hsize : config.fileSize < 2147483648) (hconfig : config.SyncsOnRequest)
    {before : List CacheOp} {t : TracedCache} {op : CacheOp} (h : TracedSoFar config before t)
    (hop : op.WellFormed config) (hcondition : CacheCondition config t op) :
    TracedSoFar config (before ++ [op]) (tracedStep files config t op).2 := by
  obtain ⟨s, history, hstate, hplaced, hmessages, hhistory, haccounted⟩ := h
  have hcondition := hcondition s hstate
  cases op with
  | write data1 data2 data3 =>
      obtain ⟨hmsg, hfits⟩ := hop _ List.mem_cons_self
      obtain ⟨s', history', hwrite, hnext, hmap⟩ :=
        hhistory.write files hconfig hsize hmsg hfits hcondition
      refine ⟨s', history', ?_, ?_, ?_, hnext, ?_⟩
      · exact tracedStep_state hstate hwrite
      · simp only [tracedStep, CacheOp.placement, hstate]
        rw [hmap, hplaced]
      · simp only [tracedStep, CacheOp.placement, hstate, List.map_append, hmessages,
          List.flatMap_append]
        simp [CacheOp.messages]
      · rintro ⟨earlier, status, hends, _⟩
        have hlast := (List.append_inj' hends rfl).2
        simp at hlast
  | sync status =>
      by_cases hstatus : isStrategySet config.sync status
      · obtain ⟨s', history', hsync, hnext, hmap, hafter⟩ :=
          hhistory.sync hroom hsize hconfig hstatus (hcondition hstatus)
        refine ⟨s', history', ?_, ?_, ?_, hnext, fun _ => hafter⟩
        · exact tracedStep_state hstate hsync
        · simp only [tracedStep, CacheOp.placement, hstate, List.append_nil]
          rw [hmap, hplaced]
        · simpa [tracedStep, CacheOp.placement, hstate, CacheOp.messages] using hmessages
      · refine ⟨s, history, ?_, ?_, ?_, hhistory, ?_⟩
        · apply tracedStep_state hstate
          exact syncMsgCache_not_set files config s hstatus
        · simpa [tracedStep, CacheOp.placement, hstate] using hplaced
        · simpa [tracedStep, CacheOp.placement, hstate, CacheOp.messages] using hmessages
        · rintro ⟨earlier, status', hends, hset⟩
          have hlast := (List.append_inj' hends rfl).2
          simp only [List.cons.injEq, CacheOp.sync.injEq, and_true] at hlast
          rw [← hlast] at hset
          exact absurd hset hstatus

end Run

/-- The file holds whole messages in the order they were cached, each at most
once, and a message missing after a sync was overwritten in the cache: in every
run whose calls find a state they can handle. -/
theorem cached_messages_written_once (files : LogFiles) (config : CacheConfig)
    (hsize : config.fileSize < 2147483648) (hconfig : config.SyncsOnRequest)
    (hroom : EnoughRoom files config) (ops : List CacheOp)
    (hops : ∀ op ∈ ops, op.WellFormed config)
    (hcondition : Guarded (tracedStep files config) (CacheCondition config)
      (freshTrace config) ops) :
    ∃ s history, (runOps (tracedStep files config) (freshTrace config) ops).2.state = some s ∧
      history.map Prod.fst =
        (runOps (tracedStep files config) (freshTrace config) ops).2.placed ∧
      history.map (fun entry => entry.1.data) = ops.flatMap CacheOp.messages ∧
      s.written = delivered history ∧
      (EndsInSync config ops → Accounted history []) := by
  have hrun : TracedSoFar config ([] ++ ops)
      (runOps (tracedStep files config) (freshTrace config) ops).2 := by
    apply runOps_invariant _ (freshTrace_soFar hconfig) ops (hcondition.and_forall hops)
    intro before t op h hguard
    exact tracedStep_soFar hroom hsize hconfig h hguard.1 hguard.2
  obtain ⟨s, history, hstate, hplaced, hmessages, hhistory, haccounted⟩ := hrun
  refine ⟨s, history, hstate, hplaced, ?_, ?_, haccounted⟩
  · rw [← hplaced, List.map_map] at hmessages
    exact hmessages
  · rcases hhistory with ⟨past, done, fresh, rfl, h⟩ |
      ⟨past, prior, pending, current, cut, rfl, h⟩
    · rw [h.written_eq]
      simp
    · rw [h.written_eq]
      simp

/-- Three messages in a cache of twelve bytes: the third overwrites the first. -/
theorem cached_messages_written_once_three :
    let files : LogFiles := fun _ _ _ => .opened 0
    let config : CacheConfig := ⟨syncOnDemand, 12, 0⟩
    let ops : List CacheOp := [.write [68, 76, 84, 1] [] [7], .write [68, 76, 84, 1] [8] [],
      .write [68, 76, 84, 1] [9] [], .sync syncOnDemand]
    ∃ s history, (runOps (tracedStep files config) (freshTrace config) ops).2.state = some s ∧
      history.map Prod.fst =
        (runOps (tracedStep files config) (freshTrace config) ops).2.placed ∧
      history.map (fun entry => entry.1.data) = ops.flatMap CacheOp.messages ∧
      s.written = delivered history ∧
      (EndsInSync config ops → Accounted history []) := by
  intro files config ops
  have hfooter : ∀ {t : TracedCache} {s : CacheState} {footer : CacheFooter},
      t.state = some s → t.state.map CacheState.footer = some footer → s.footer = footer := by
    intro t s footer hstate hmap
    rw [hstate] at hmap
    exact Option.some.inj hmap
  apply cached_messages_written_once files config (by decide)
    ⟨by decide, by decide, .inl (by decide)⟩
  · intro _ count _ hcount
    exact ⟨0, rfl, Nat.zero_le _, by simpa using hcount⟩
  · decide
  · refine ⟨?_, ?_, ?_, ?_, trivial⟩
    · intro s hstate
      have hstart : s.footer = ⟨0, 0, 0, 0⟩ := hfooter hstate (by decide +kernel)
      simp only [CacheState.WriteCondition, hstart]
      exact ⟨by decide, by decide, fun _ hcounter => absurd hcounter (by decide)⟩
    · intro s hstate
      have hfirst : s.footer = ⟨5, 0, 0, 5⟩ := hfooter hstate (by decide +kernel)
      simp only [CacheState.WriteCondition, hfirst]
      exact ⟨by decide, by decide, fun _ hcounter => absurd hcounter (by decide)⟩
    · intro s hstate
      have hsecond : s.footer = ⟨10, 0, 0, 10⟩ := hfooter hstate (by decide +kernel)
      simp only [CacheState.WriteCondition, hsecond]
      exact ⟨by decide, by decide, fun _ hcounter => absurd hcounter (by decide)⟩
    · intro s hstate _ _ _
      have hthird : s.footer = ⟨5, 1, 0, 10⟩ := hfooter hstate (by decide +kernel)
      have hfind : mctLogstorageFindMctHeader s.block 5 5 = some 0 := by
        have hall : ((runOps (tracedStep files config) (freshTrace config)
            (ops.take 3)).2.state.bind fun s => mctLogstorageFindMctHeader s.block 5 5) =
            some 0 := by decide +kernel
        rw [show (runOps (tracedStep files config) (freshTrace config) (ops.take 3)).2.state =
          some s from hstate] at hall
        exact hall
      refine ⟨0, ?_, ?_⟩
      · rw [hthird, show uint32 _ = 5 by decide +kernel]
        exact hfind
      · rw [hthird]
        decide +kernel

/-- Two messages of five bytes in a cache of ten, a sync after each: the second
fills the cache exactly, and its sync writes the first message once more. -/
theorem full_cache_written_again :
    let files : LogFiles := fun _ _ _ => .opened 0
    let config : CacheConfig := ⟨syncOnDemand, 10, 0⟩
    let ops : List CacheOp := [.write [68, 76, 84, 1] [] [7], .sync syncOnDemand,
      .write [68, 76, 84, 1] [] [8], .sync syncOnDemand]
    config.SyncsOnRequest ∧ EnoughRoom files config ∧ (∀ op ∈ ops, op.WellFormed config) ∧
      ¬ ∃ s history, (runOps (tracedStep files config) (freshTrace config) ops).2.state = some s ∧
        history.map (fun entry => entry.1.data) = ops.flatMap CacheOp.messages ∧
        s.written = delivered history := by
  intro files config ops
  refine ⟨⟨by decide, by decide, .inl (by decide)⟩, ?_, by decide, ?_⟩
  · intro _ count _ hcount
    exact ⟨0, rfl, Nat.zero_le _, by simpa using hcount⟩
  · rintro ⟨s, history, hstate, hmessages, hwritten⟩
    have hfile : (runOps (tracedStep files config) (freshTrace config) ops).2.state.map
        CacheState.written = some [68, 76, 84, 1, 7, 68, 76, 84, 1, 7, 68, 76, 84, 1, 8] := by
      decide +kernel
    rw [hstate, Option.map_some, Option.some.injEq] at hfile
    have hle := delivered_length_le history
    have htotal : history.flatMap (fun entry => entry.1.data) =
        (ops.flatMap CacheOp.messages).flatten := by
      rw [← hmessages, List.flatMap_def]
    rw [← hwritten, hfile, htotal] at hle
    revert hle
    decide

end MctDaemon.Logstorage
