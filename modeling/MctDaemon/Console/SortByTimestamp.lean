import Mathlib.Data.List.Sort
import MctDaemon.Lib.Segments

/-!
`mct-sortbytimestamp`: the messages of a range are sorted by system time, cut
into boot cycles where time jumps, and written cycle by cycle in the order of
their timestamps. An access outside of the entries allocated for the index has
no result.
-/

namespace MctDaemon.Console

open Lib

section Model

/-- What the tool reads of a message of the log file. -/
structure LoggedMessage where
  seconds : UInt32
  tmsp : UInt32
  deriving DecidableEq, Repr

structure TimestampIndex where
  num : Nat
  tmsp : UInt32
  systmsp : UInt32
  deriving DecidableEq, Repr

def compareIndexTimestamps (a b : TimestampIndex) : Int :=
  if b.tmsp < a.tmsp then 1 else if a.tmsp = b.tmsp then 0 else -1

def compareIndexSystime (a b : TimestampIndex) : Int :=
  if b.systmsp < a.systmsp then 1 else if a.systmsp = b.systmsp then 0 else -1

/-- `qsort`: for a comparison by a key the elements come out in its order, those
with the same key in any order. -/
structure Qsort where
  run : (TimestampIndex → TimestampIndex → Int) → List TimestampIndex → List TimestampIndex
  perm : ∀ compare l, (run compare l).Perm l
  sorted : ∀ compare, (∃ key : TimestampIndex → Nat, ∀ a b, compare a b ≤ 0 ↔ key a ≤ key b) →
    ∀ l, (run compare l).Pairwise fun a b => compare a b ≤ 0

def fiftySecInMsec : Nat := 500000

def threeMinInSec : Nat := 180

/-- The condition for a new cycle between two neighbours. -/
def newCycle (cur next : TimestampIndex) : Bool :=
  fiftySecInMsec < ((next.tmsp.toNat : Int) - cur.tmsp.toNat).natAbs ∨
    threeMinInSec ≤ ((next.systmsp.toNat : Int) - cur.systmsp.toNat).natAbs

/-- `timestamp_index[i] = entry`. -/
def setEntry (index : List TimestampIndex) (i : Nat) (entry : TimestampIndex) :
    Option (List TimestampIndex) :=
  if i < index.length then some (index.set i entry) else none

/-- The entry for message `num`. -/
def indexEntry (num : Nat) (message : LoggedMessage) : TimestampIndex :=
  ⟨num, message.tmsp, message.seconds⟩

/-- The loop that fills the index; a message that cannot be loaded leaves its
entry as it is. -/
def fillIndex (messages : List LoggedMessage) (start : Nat) (index : List TimestampIndex) :
    List Nat → Option (List TimestampIndex)
  | [] => some index
  | num :: nums =>
      match messages[num]? with
      | none => fillIndex messages start index nums
      | some message => do
          let index ← setEntry index (num - start) (indexEntry num message)
          fillIndex messages start index nums

/-- `write_messages`: the messages that are written. -/
def writeMessages (timestamps : List TimestampIndex) : List Nat :=
  timestamps.map TimestampIndex.num

/-- The variables of the loop over the sorted index. -/
structure CycleState where
  written : List Nat
  start : Nat
  count : Nat
  deriving DecidableEq, Repr

/-- The loop that writes each cycle when it ends, over the next numbers. -/
def cycleLoop (qsort : Qsort) (index : List TimestampIndex) :
    Nat → Nat → CycleState → Option CycleState
  | 0, _, st => some st
  | k + 1, num, st => do
      let next ← index[num + 1]?
      let cur ← index[num]?
      let count := st.count + 1
      if newCycle cur next then
        let temp ← (List.range count).mapM fun i => index[st.start + i]?
        let written := st.written ++ writeMessages (qsort.run compareIndexTimestamps temp)
        cycleLoop qsort index k (num + 1) ⟨written, st.start + count, 0⟩
      else cycleLoop qsort index k (num + 1) { st with count := count }

/-- `main` from the point where the file is loaded and the range is checked: the
messages written, in order. The entries are allocated with any content. -/
def sortByTimestamp (qsort : Qsort) (messages : List LoggedMessage) (first last : Nat) :
    Option (List Nat) := do
  let messageCount := 1 + last - first
  let allocated := List.replicate (messageCount + 1) (⟨0, 0, 0⟩ : TimestampIndex)
  let index ← fillIndex messages first allocated (List.range' first messageCount)
  let index ← setEntry index (last + 1) (← index[0]?)
  let index := qsort.run compareIndexSystime (index.take messageCount) ++ index.drop messageCount
  let st ← cycleLoop qsort index messageCount first ⟨[], 0, 0⟩
  if st.count = messageCount then
    return st.written ++
      writeMessages ((qsort.run compareIndexTimestamps index).take messageCount)
  else return st.written

end Model

section Loops

variable (qsort : Qsort) {messages : List LoggedMessage}

theorem mapM_getElem (index : List TimestampIndex) {start count : Nat}
    (h : start + count ≤ index.length) :
    (List.range count).mapM (fun i => index[start + i]?) =
      some ((index.drop start).take count) := by
  induction count with
  | zero => simp
  | succ count ih =>
      have hlast : start + count < index.length := by omega
      rw [List.range_succ, List.mapM_append, ih (by omega), List.take_add_one]
      simp [hlast]

theorem fillIndex_length {start : Nat} {index filled : List TimestampIndex} {nums : List Nat}
    (h : fillIndex messages start index nums = some filled) : filled.length = index.length := by
  induction nums generalizing index with
  | nil =>
      cases h
      rfl
  | cons num nums ih =>
      rw [fillIndex] at h
      split at h
      · exact ih h
      · obtain ⟨next, hnext, hrest⟩ := Option.bind_eq_some_iff.mp h
        unfold setEntry at hnext
        split at hnext
        · cases hnext
          rw [ih hrest, List.length_set]
        · cases hnext

def rangeEntries (messages : List LoggedMessage) (first count : Nat) : List TimestampIndex :=
  (List.range' first count).zipWith indexEntry (messages.drop first)

/-- Filling goes from entry to entry. -/
theorem fillIndex_append (start : Nat) (filled : List TimestampIndex) (blank : TimestampIndex)
    {k : Nat} (h : start + filled.length + k ≤ messages.length) :
    fillIndex messages start (filled ++ List.replicate (k + 1) blank)
        (List.range' (start + filled.length) k) =
      some (filled ++ rangeEntries messages (start + filled.length) k ++ [blank]) := by
  induction k generalizing filled with
  | zero => simp [fillIndex, rangeEntries]
  | succ k ih =>
      have hnum : start + filled.length < messages.length := by omega
      have hset : setEntry (filled ++ List.replicate (k + 1 + 1) blank)
          (start + filled.length - start)
          (indexEntry (start + filled.length) messages[start + filled.length]) =
          some ((filled ++ [indexEntry (start + filled.length) messages[start + filled.length]]) ++
            List.replicate (k + 1) blank) := by
        rw [setEntry, if_pos (by simp), Nat.add_sub_cancel_left,
          List.set_append_right _ _ le_rfl, Nat.sub_self, List.replicate_succ, List.set_cons_zero,
          List.append_assoc, List.singleton_append]
      rw [List.range'_succ, fillIndex]
      simp only [List.getElem?_eq_getElem hnum, hset, Option.bind_eq_bind, Option.bind_some]
      have hlength : start + filled.length + 1 = start + (filled ++
          [indexEntry (start + filled.length) messages[start + filled.length]]).length := by
        rw [List.length_append, List.length_singleton, Nat.add_assoc]
      have hentries : rangeEntries messages (start + filled.length) (k + 1) =
          indexEntry (start + filled.length) messages[start + filled.length] ::
            rangeEntries messages (start + filled.length + 1) k := by
        rw [rangeEntries, List.range'_succ, List.drop_eq_getElem_cons hnum, List.zipWith_cons_cons,
          rangeEntries]
      rw [hentries, hlength, ih _ (by rw [← hlength]; omega)]
      simp

variable {sorted : List TimestampIndex} {sentinel : TimestampIndex}

/-- The loop closes the runs of the sorted entries, with the sentinel as the last
one to look at. -/
theorem cycleLoop_eq {k : Nat} {st : CycleState}
    (hplace : st.start + st.count + k = sorted.length) :
    cycleLoop qsort (sorted ++ [sentinel]) k (st.start + st.count) st =
      let runs := closedRuns newCycle ((sorted.drop st.start).take st.count)
        (sorted.drop (st.start + st.count) ++ [sentinel])
      some ⟨st.written ++ runs.1.flatMap fun cycle =>
        writeMessages (qsort.run compareIndexTimestamps cycle),
        sorted.length - runs.2.length, runs.2.length⟩ := by
  induction k generalizing st with
  | zero =>
      have hend : sorted.drop (st.start + st.count) = [] := List.drop_of_length_le (by omega)
      have hopen : ((sorted.drop st.start).take st.count).length = st.count := by
        rw [List.length_take, List.length_drop]
        omega
      rw [hend, List.nil_append, closedRuns_single]
      simp only [cycleLoop, List.flatMap_nil, List.append_nil, hopen]
      have hstart : sorted.length - st.count = st.start := by omega
      rw [hstart]
  | succ k ih =>
      have hcur : st.start + st.count < sorted.length := by omega
      obtain ⟨next, rest, hrest⟩ : ∃ next rest,
          sorted.drop (st.start + st.count + 1) ++ [sentinel] = next :: rest :=
        List.exists_cons_of_ne_nil (by simp)
      have hnext : (sorted ++ [sentinel])[st.start + st.count + 1]? = some next := by
        have hdrop : (sorted ++ [sentinel]).drop (st.start + st.count + 1) = next :: rest := by
          rw [List.drop_append_of_le_length (by omega), hrest]
        rw [← List.head?_drop, hdrop, List.head?_cons]
      have hget : (sorted ++ [sentinel])[st.start + st.count]? =
          some sorted[st.start + st.count] := by
        rw [List.getElem?_append_left hcur, List.getElem?_eq_getElem hcur]
      have hrun : (sorted.drop st.start).take (st.count + 1) =
          (sorted.drop st.start).take st.count ++ [sorted[st.start + st.count]] := by
        rw [List.take_add_one, List.getElem?_drop, List.getElem?_eq_getElem hcur]
        rfl
      have htemp : (List.range (st.count + 1)).mapM
          (fun i => (sorted ++ [sentinel])[st.start + i]?) =
          some ((sorted.drop st.start).take (st.count + 1)) := by
        rw [mapM_getElem _ (by simp; omega), List.drop_append_of_le_length (by omega),
          List.take_append_of_le_length (by rw [List.length_drop]; omega)]
      rw [cycleLoop, hnext, hget]
      simp only [Option.bind_eq_bind, Option.bind_some, List.drop_eq_getElem_cons hcur,
        List.cons_append, hrest]
      by_cases hcut : newCycle sorted[st.start + st.count] next
      · have hih := @ih ⟨st.written ++ writeMessages (qsort.run compareIndexTimestamps
            ((sorted.drop st.start).take (st.count + 1))), st.start + (st.count + 1), 0⟩
          (by simp only; omega)
        simp only [Nat.add_zero, ← Nat.add_assoc, List.take_zero, hrest] at hih
        rw [if_pos hcut, closedRuns_cut newCycle hcut, ← hrun]
        simp only [htemp, Option.bind_some, ← Nat.add_assoc, hih, List.flatMap_cons,
          List.append_assoc]
      · have hih := @ih { st with count := st.count + 1 } (by simp only; omega)
        simp only [← Nat.add_assoc, hrest, hrun] at hih
        rw [if_neg hcut, closedRuns_keep newCycle hcut]
        exact hih

end Loops

section Entries

variable {messages : List LoggedMessage} {first count : Nat}

theorem rangeEntries_num (h : first + count ≤ messages.length) :
    (rangeEntries messages first count).map TimestampIndex.num = List.range' first count := by
  have hzip : ∀ (nums : List Nat) (rest : List LoggedMessage), nums.length ≤ rest.length →
      (nums.zipWith indexEntry rest).map TimestampIndex.num = nums := by
    intro nums rest hlength
    induction nums generalizing rest with
    | nil => rfl
    | cons num nums ih =>
        cases rest with
        | nil => simp at hlength
        | cons message rest =>
            rw [List.zipWith_cons_cons, List.map_cons, ih rest (by simpa using hlength)]
            rfl
  refine hzip _ _ ?_
  rw [List.length_range', List.length_drop]
  omega

theorem rangeEntries_length (h : first + count ≤ messages.length) :
    (rangeEntries messages first count).length = count := by
  rw [← List.length_map TimestampIndex.num, rangeEntries_num h, List.length_range']

/-- An entry is known by the number of its message. -/
theorem rangeEntries_eq_of_num (h : first + count ≤ messages.length) {a b : TimestampIndex}
    (ha : a ∈ rangeEntries messages first count) (hb : b ∈ rangeEntries messages first count)
    (hnum : a.num = b.num) : a = b := by
  have hnodup : ((rangeEntries messages first count).map TimestampIndex.num).Nodup := by
    rw [rangeEntries_num h]
    exact List.nodup_range'
  exact List.inj_on_of_nodup_map hnodup ha hb hnum

end Entries

section Output

variable {qsort : Qsort} {messages : List LoggedMessage}

def bySystime (qsort : Qsort) (messages : List LoggedMessage) (first last : Nat) :
    List TimestampIndex :=
  qsort.run compareIndexSystime (rangeEntries messages first (1 + last - first))

def bootCycles (sorted : List TimestampIndex) : List (List TimestampIndex) :=
  sorted.splitBy fun cur next => !newCycle cur next

/-- With the first message of the file in the range, the copy of its entry behind
the others is the last one to look at. -/
theorem sortByTimestamp_zero (qsort : Qsort) {last : Nat} (hlast : last < messages.length)
    {sentinel : TimestampIndex}
    (hsentinel : (rangeEntries messages 0 (last + 1)).head? = some sentinel) :
    sortByTimestamp qsort messages 0 last =
      let sorted := bySystime qsort messages 0 last
      let runs := closedRuns newCycle [] (sorted ++ [sentinel])
      some ((runs.1.flatMap fun cycle => writeMessages (qsort.run compareIndexTimestamps cycle)) ++
        if runs.2.length = last + 1 then
          writeMessages ((qsort.run compareIndexTimestamps (sorted ++ [sentinel])).take (last + 1))
        else []) := by
  have hrange : 0 + (last + 1) ≤ messages.length := by omega
  have hlength := rangeEntries_length hrange
  have hcount : 1 + last - 0 = last + 1 := by omega
  have hfill : fillIndex messages 0 (List.replicate (last + 1 + 1) ⟨0, 0, 0⟩)
      (List.range' 0 (last + 1)) = some (rangeEntries messages 0 (last + 1) ++ [⟨0, 0, 0⟩]) :=
    fillIndex_append 0 [] ⟨0, 0, 0⟩ (by simpa)
  have hhead : (rangeEntries messages 0 (last + 1) ++ [⟨0, 0, 0⟩])[0]? = some sentinel := by
    rw [List.getElem?_append_left (by omega), ← List.head?_eq_getElem?, hsentinel]
  have hset : setEntry (rangeEntries messages 0 (last + 1) ++ [⟨0, 0, 0⟩]) (last + 1) sentinel =
      some (rangeEntries messages 0 (last + 1) ++ [sentinel]) := by
    rw [setEntry, if_pos (by simp [hlength]), List.set_append_right _ _ hlength.le, hlength,
      Nat.sub_self, List.set_cons_zero]
  have hby : qsort.run compareIndexSystime (rangeEntries messages 0 (last + 1)) =
      bySystime qsort messages 0 last := by rw [bySystime, hcount]
  have hsorted : (bySystime qsort messages 0 last).length = last + 1 := by
    rw [← hby, (qsort.perm _ _).length_eq, hlength]
  have hloop := @cycleLoop_eq qsort (bySystime qsort messages 0 last) sentinel (last + 1)
    ⟨[], 0, 0⟩ (by simp [hsorted])
  simp only [Nat.add_zero, List.drop_zero, List.take_zero, List.nil_append] at hloop
  unfold sortByTimestamp
  rw [hcount]
  simp only [Option.bind_eq_bind, hfill, Option.bind_some, hhead, hset,
    List.take_left' hlength, List.drop_left' hlength, hby]
  rw [hloop]
  simp only [Option.bind_some]
  split
  · rfl
  · simp

/-- A range that does not begin with the first message has the copy of the entry
written behind the allocated ones. -/
theorem sortByTimestamp_outside (qsort : Qsort) {first last : Nat} (hfirst : 0 < first) :
    sortByTimestamp qsort messages first last = none := by
  unfold sortByTimestamp
  simp only [Option.bind_eq_bind]
  cases hfill : fillIndex messages first
      (List.replicate (1 + last - first + 1) (⟨0, 0, 0⟩ : TimestampIndex))
      (List.range' first (1 + last - first)) with
  | none => rfl
  | some index =>
      have hlength := fillIndex_length hfill
      rw [List.length_replicate] at hlength
      rw [Option.bind_some]
      cases hentry : index[0]? with
      | none => rfl
      | some entry =>
          rw [Option.bind_some, setEntry, if_neg (by omega)]
          rfl

end Output

section Sorted

variable (qsort : Qsort)

theorem compareIndexTimestamps_le_iff (a b : TimestampIndex) :
    compareIndexTimestamps a b ≤ 0 ↔ a.tmsp.toNat ≤ b.tmsp.toNat := by
  unfold compareIndexTimestamps
  by_cases habove : b.tmsp < a.tmsp
  · rw [if_pos habove]
    rw [UInt32.lt_iff_toNat_lt] at habove
    omega
  · rw [if_neg habove]
    rw [UInt32.lt_iff_toNat_lt] at habove
    split <;> omega

def CycleWritten (part cycle : List TimestampIndex) : Prop :=
  part.Perm cycle ∧ part.Pairwise fun a b => a.tmsp.toNat ≤ b.tmsp.toNat

theorem qsort_timestamps_sorted (entries : List TimestampIndex) :
    (qsort.run compareIndexTimestamps entries).Pairwise
      fun a b => a.tmsp.toNat ≤ b.tmsp.toNat :=
  (qsort.sorted compareIndexTimestamps ⟨_, compareIndexTimestamps_le_iff⟩ entries).imp
    fun h => (compareIndexTimestamps_le_iff _ _).mp h

theorem cycleWritten_qsort (cycle : List TimestampIndex) :
    CycleWritten (qsort.run compareIndexTimestamps cycle) cycle :=
  ⟨qsort.perm _ _, qsort_timestamps_sorted qsort cycle⟩

/-- Each message of the range is written once, cycle by cycle, and the messages
of a cycle in the order of their timestamps. -/
structure SortsRange (messages : List LoggedMessage) (first last : Nat) (written : List Nat) :
    Prop where
  each_once : written.Perm (List.range' first (1 + last - first))
  by_cycle : ∃ parts, List.Forall₂ CycleWritten parts
      (bootCycles (bySystime qsort messages first last)) ∧ written = writeMessages parts.flatten

/-- The range begins with the first message of the file, and either the jump from
the last entry back to the first message's closes the last cycle, or there is one
cycle and its last timestamp is that of the first message. -/
def ClosesLastCycle (messages : List LoggedMessage) (first last : Nat) : Prop :=
  first = 0 ∧ ∀ sentinel, (rangeEntries messages 0 (last + 1)).head? = some sentinel →
    (∃ final, (bySystime qsort messages 0 last).getLast? = some final ∧
      newCycle final sentinel) ∨
    ((bootCycles (bySystime qsort messages 0 last)).length = 1 ∧
      (qsort.run compareIndexTimestamps
        (bySystime qsort messages 0 last ++ [sentinel])).getLast? = some sentinel)

variable {messages : List LoggedMessage} {last : Nat} {sentinel : TimestampIndex}

theorem bySystime_length (hlast : last < messages.length) :
    (bySystime qsort messages 0 last).length = last + 1 := by
  rw [bySystime, (qsort.perm _ _).length_eq, rangeEntries_length (by omega)]
  omega

theorem bySystime_num (hlast : last < messages.length) :
    ((bySystime qsort messages 0 last).map TimestampIndex.num).Perm
      (List.range' 0 (1 + last - 0)) := by
  rw [← rangeEntries_num (by omega : 0 + (1 + last - 0) ≤ messages.length)]
  exact (qsort.perm _ _).map _

/-- The whole list but its last entry, when that is the sentinel's. -/
theorem dropLast_perm {sorted all : List TimestampIndex} (hperm : all.Perm (sorted ++ [sentinel]))
    (hlast : all.getLast? = some sentinel) : (all.take sorted.length).Perm sorted := by
  have hne : all ≠ [] := by
    rintro rfl
    cases hlast
  have hlength := hperm.length_eq
  rw [List.length_append, List.length_singleton] at hlength
  have hfinal : all.getLast hne = sentinel := by
    rw [List.getLast?_eq_some_getLast hne, Option.some.injEq] at hlast
    exact hlast
  have hsplit := List.dropLast_append_getLast hne
  rw [List.dropLast_eq_take, hlength, Nat.add_sub_cancel, hfinal] at hsplit
  rw [← hsplit] at hperm
  exact (List.perm_append_right_iff _).mp hperm

theorem bootCycles_closedRuns {sorted : List TimestampIndex} (hne : sorted ≠ [])
    (sentinel : TimestampIndex) :
    bootCycles sorted = (closedRuns newCycle [] (sorted ++ [sentinel])).1 ++
      if (closedRuns newCycle [] (sorted ++ [sentinel])).2 = [] then []
      else [(closedRuns newCycle [] (sorted ++ [sentinel])).2] := by
  obtain ⟨x, rest, rfl⟩ := List.exists_cons_of_ne_nil hne
  exact @closedRuns_splitBy _ newCycle [] rest x sentinel (List.isChain_singleton x)

/-- What is written cycle by cycle is everything, once. -/
theorem sortsRange_of_parts (hlast : last < messages.length) {parts : List (List TimestampIndex)}
    (hparts : List.Forall₂ CycleWritten parts (bootCycles (bySystime qsort messages 0 last))) :
    SortsRange qsort messages 0 last (writeMessages parts.flatten) := by
  refine ⟨?_, parts, hparts, rfl⟩
  have hperm : parts.flatten.Perm (bootCycles (bySystime qsort messages 0 last)).flatten :=
    List.Perm.flatten_congr (hparts.imp fun _ _ h => h.1)
  rw [bootCycles, List.flatten_splitBy] at hperm
  exact (hperm.map _).trans (bySystime_num qsort hlast)

/-- The cycles that are closed are all, or else what they are written with is too
short. -/
theorem open_cycle_cases {sorted : List TimestampIndex} (hne : sorted ≠ [])
    (sentinel : TimestampIndex)
    (hopen : (closedRuns newCycle [] (sorted ++ [sentinel])).2 ≠ []) :
    (closedRuns newCycle [] (sorted ++ [sentinel])).2.length = sorted.length ↔
      (bootCycles sorted).length = 1 := by
  have hcycles := bootCycles_closedRuns hne sentinel
  have hflatten := closedRuns_flatten newCycle [] sorted sentinel
  rw [if_neg hopen] at hcycles
  rw [hcycles, List.length_append, List.length_singleton]
  have hnil : [] ∉ (closedRuns newCycle [] (sorted ++ [sentinel])).1 := by
    intro hmem
    refine List.nil_notMem_splitBy (fun cur next => !newCycle cur next) sorted ?_
    change [] ∈ bootCycles sorted
    rw [hcycles]
    exact List.mem_append_left _ hmem
  generalize (closedRuns newCycle [] (sorted ++ [sentinel])).1 = closed at *
  constructor
  · intro hlength
    have hlengths := congrArg List.length hflatten
    rw [List.length_append, List.nil_append] at hlengths
    have hempty : closed.flatten = [] := List.eq_nil_of_length_eq_zero (by omega)
    cases closed with
    | nil => rfl
    | cons cycle rest =>
        rw [List.flatten_cons, List.append_eq_nil_iff] at hempty
        exact absurd (hempty.1 ▸ List.mem_cons_self) hnil
  · intro hone
    have hclosed : closed = [] := List.eq_nil_of_length_eq_zero (by omega)
    rw [hclosed, List.flatten_nil, List.nil_append, List.nil_append] at hflatten
    rw [hflatten]

/-- With one cycle, everything is written exactly if the sentinel's entry comes
last. -/
theorem single_cycle_iff (hlast : last < messages.length)
    (hsentinel : (rangeEntries messages 0 (last + 1)).head? = some sentinel)
    (hcycles : bootCycles (bySystime qsort messages 0 last) = [bySystime qsort messages 0 last]) :
    SortsRange qsort messages 0 last (writeMessages ((qsort.run compareIndexTimestamps
        (bySystime qsort messages 0 last ++ [sentinel])).take (last + 1))) ↔
      (qsort.run compareIndexTimestamps
        (bySystime qsort messages 0 last ++ [sentinel])).getLast? = some sentinel := by
  have hlength := bySystime_length qsort hlast
  have hperm := qsort.perm compareIndexTimestamps (bySystime qsort messages 0 last ++ [sentinel])
  have hsorted := qsort_timestamps_sorted qsort (bySystime qsort messages 0 last ++ [sentinel])
  generalize qsort.run compareIndexTimestamps (bySystime qsort messages 0 last ++ [sentinel]) =
    all at *
  have hall := hperm.length_eq
  rw [List.length_append, List.length_singleton, hlength] at hall
  constructor
  · intro hsorts
    have hne : all ≠ [] := by
      rw [← List.length_pos_iff]
      omega
    have hsplit : all.take (last + 1) ++ [all.getLast hne] = all := by
      have hdrop := List.dropLast_append_getLast hne
      rwa [List.dropLast_eq_take, hall, Nat.add_sub_cancel] at hdrop
    have hnums := hperm.map TimestampIndex.num
    rw [← hsplit, List.map_append, List.map_append] at hnums
    have hnums' := (hsorts.each_once.symm.append_right _).trans
      (hnums.trans ((bySystime_num qsort hlast).append_right _))
    have hsame := List.perm_singleton.mp ((List.perm_append_left_iff _).mp hnums').symm
    simp only [List.map_cons, List.map_nil, List.cons.injEq, and_true] at hsame
    have hmemSentinel : sentinel ∈ rangeEntries messages 0 (last + 1) :=
      List.mem_of_mem_head? hsentinel
    have hmem : all.getLast hne ∈ rangeEntries messages 0 (last + 1) := by
      rcases List.mem_append.mp (hperm.mem_iff.mp (List.getLast_mem hne)) with hold | hnew
      · have hcount : 1 + last - 0 = last + 1 := by omega
        rw [bySystime, (qsort.perm _ _).mem_iff, hcount] at hold
        exact hold
      · rwa [List.mem_singleton.mp hnew]
    rw [List.getLast?_eq_some_getLast hne, Option.some.injEq]
    exact rangeEntries_eq_of_num (by omega) hmem hmemSentinel hsame.symm
  · intro hfinal
    have htake := dropLast_perm hperm hfinal
    rw [hlength] at htake
    have hparts : List.Forall₂ CycleWritten [all.take (last + 1)]
        (bootCycles (bySystime qsort messages 0 last)) := by
      rw [hcycles]
      exact .cons ⟨htake, hsorted.sublist (List.take_sublist _ _)⟩ .nil
    have hwritten := sortsRange_of_parts qsort hlast hparts
    rwa [List.flatten_singleton] at hwritten

/-- The tool writes each message of the range once, in the order of the boot
cycles and their timestamps, exactly if the range begins with the first message
of the file and no cycle is open at the end, or there is only one and the copy
of the first message's entry sorts behind all others. -/
theorem sortByTimestamp_iff (qsort : Qsort) (messages : List LoggedMessage) (first last : Nat)
    (hrange : first ≤ last) (hlast : last < messages.length) :
    (∃ written, sortByTimestamp qsort messages first last = some written ∧
      SortsRange qsort messages first last written) ↔
    ClosesLastCycle qsort messages first last := by
  by_cases hfirst : first = 0
  swap
  · rw [sortByTimestamp_outside qsort (Nat.pos_of_ne_zero hfirst)]
    exact iff_of_false (by simp) fun h => hfirst h.1
  subst hfirst
  have hentries : (rangeEntries messages 0 (last + 1)).length = last + 1 :=
    rangeEntries_length (by omega)
  obtain ⟨sentinel, hsentinel⟩ : ∃ sentinel,
      (rangeEntries messages 0 (last + 1)).head? = some sentinel := by
    rw [← Option.isSome_iff_exists, List.isSome_head?, ← List.length_pos_iff]
    omega
  have hlength := bySystime_length qsort hlast
  have hnum := bySystime_num qsort hlast
  rw [sortByTimestamp_zero qsort hlast hsentinel, ClosesLastCycle]
  simp only [hsentinel, Option.some.injEq, forall_eq', true_and, exists_eq_left']
  have hne : bySystime qsort messages 0 last ≠ [] := by
    rw [← List.length_pos_iff]
    omega
  have hfinal : ∃ final, (bySystime qsort messages 0 last).getLast? = some final ∧
      ((closedRuns newCycle [] (bySystime qsort messages 0 last ++ [sentinel])).2 = [] ↔
        newCycle final sentinel) := by
    refine ⟨_, List.getLast?_eq_some_getLast hne, ?_⟩
    have hsplit := List.dropLast_append_getLast hne
    have hopen := closedRuns_open_eq_nil_iff newCycle [] (bySystime qsort messages 0 last).dropLast
      ((bySystime qsort messages 0 last).getLast hne) sentinel
    rwa [hsplit] at hopen
  obtain ⟨final, hfinal, hopen⟩ := hfinal
  simp only [hfinal, Option.some.injEq, exists_eq_left']
  have hcycles := bootCycles_closedRuns hne sentinel
  have hflatten := closedRuns_flatten newCycle [] (bySystime qsort messages 0 last) sentinel
  by_cases hclosed : newCycle final sentinel
  · -- the last cycle is closed as well, and all cycles are written
    refine iff_of_true ?_ (.inl hclosed)
    rw [hopen.mpr hclosed, if_pos rfl, List.append_nil] at hcycles
    rw [hopen.mpr hclosed, List.length_nil, if_neg (by omega), List.append_nil, ← hcycles]
    have hwritten : (bootCycles (bySystime qsort messages 0 last)).flatMap
        (fun cycle => writeMessages (qsort.run compareIndexTimestamps cycle)) =
        writeMessages ((bootCycles (bySystime qsort messages 0 last)).map
          (qsort.run compareIndexTimestamps)).flatten := by
      simp [writeMessages, List.flatMap_def, List.map_flatten, Function.comp_def]
    rw [hwritten]
    refine sortsRange_of_parts qsort hlast ?_
    rw [List.forall₂_map_left_iff, List.forall₂_same]
    exact fun cycle _ => cycleWritten_qsort qsort cycle
  · have hleft : (closedRuns newCycle [] (bySystime qsort messages 0 last ++ [sentinel])).2 ≠ [] :=
      fun h => hclosed (hopen.mp h)
    have hone := open_cycle_cases hne sentinel hleft
    rw [hlength] at hone
    rw [or_iff_right hclosed]
    by_cases hsingle : (bootCycles (bySystime qsort messages 0 last)).length = 1
    · -- one cycle: it is sorted again, together with the copy of the first entry
      rw [if_neg hleft] at hcycles
      have hnone : (closedRuns newCycle [] (bySystime qsort messages 0 last ++ [sentinel])).1 =
          [] := by
        rw [hcycles, List.length_append, List.length_singleton] at hsingle
        exact List.eq_nil_of_length_eq_zero (by omega)
      rw [hnone, List.flatten_nil, List.nil_append, List.nil_append] at hflatten
      rw [hnone, hflatten, List.nil_append] at hcycles
      rw [and_iff_right hsingle, if_pos (hone.mpr hsingle), hnone, List.flatMap_nil,
        List.nil_append]
      exact single_cycle_iff qsort hlast hsentinel hcycles
    · -- the messages of the open cycle are missing
      refine iff_of_false (fun hsorts => hsingle (hone.mp ?_)) fun h => hsingle h.1
      rw [if_neg fun h => hsingle (hone.mp h), List.append_nil] at hsorts
      have hwritten := hsorts.each_once.length_eq
      have hlengths := congrArg List.length hflatten
      have hopenPos := List.length_pos_iff.mpr hleft
      simp only [List.length_flatMap, writeMessages, List.length_map, (qsort.perm _ _).length_eq,
        List.length_range'] at hwritten
      change (List.map List.length _).sum = _ at hwritten
      rw [List.length_append, List.length_flatten, List.nil_append, hlength] at hlengths
      omega

/-- `qsort` as an insertion sort. -/
def insertionQsort : Qsort where
  run compare l := l.insertionSort fun a b => compare a b ≤ 0
  perm compare l := List.perm_insertionSort _ l
  sorted := by
    rintro compare ⟨key, hkey⟩ l
    have htotal : Std.Total fun a b => compare a b ≤ 0 := ⟨fun a b => by
      simp only [hkey]
      exact le_total _ _⟩
    have htrans : IsTrans TimestampIndex fun a b => compare a b ≤ 0 := ⟨fun a b c => by
      simp only [hkey]
      exact le_trans⟩
    exact List.pairwise_insertionSort _ l

/-- Two messages of one boot cycle, the later one first. -/
theorem sortByTimestamp_sample :
    ∃ written, sortByTimestamp insertionQsort [⟨100, 20⟩, ⟨100, 10⟩] 0 1 = some written ∧
      SortsRange insertionQsort [⟨100, 20⟩, ⟨100, 10⟩] 0 1 written :=
  (sortByTimestamp_iff insertionQsort [⟨100, 20⟩, ⟨100, 10⟩] 0 1 (by decide) (by decide)).mpr
    ⟨rfl, by decide +kernel⟩

/-- With the earlier one first, it is written twice and the later one is lost.
A range from the second message on is not sorted at all. -/
theorem sortByTimestamp_loses :
    sortByTimestamp insertionQsort [⟨100, 10⟩, ⟨100, 20⟩] 0 1 = some [0, 0] ∧
      ¬ SortsRange insertionQsort [⟨100, 10⟩, ⟨100, 20⟩] 0 1 [0, 0] ∧
      sortByTimestamp insertionQsort [⟨100, 10⟩, ⟨100, 20⟩] 1 1 = none := by
  refine ⟨by decide +kernel, ?_, by decide +kernel⟩
  intro hsorts
  exact absurd hsorts.each_once (by decide)

end Sorted

end MctDaemon.Console
