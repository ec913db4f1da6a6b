import Mathlib.Tactic

/-!
Records written into a flat memory one behind the other. `LaidOut` places
them without gaps, `Marked` records begin with a mark that occurs nowhere else
in them, and a history of placed records tells which of them were delivered
and whether each of the others was overwritten by a later one.
-/

namespace MctDaemon.Lib

universe u

variable {α : Type u}

/-- A record and the position of its first cell. -/
structure Placed (α : Type u) where
  pos : Nat
  data : List α
  deriving DecidableEq, Repr

namespace Placed

def stop (record : Placed α) : Nat := record.pos + record.data.length

def Overlaps (record later : Placed α) : Prop :=
  later.pos < record.stop ∧ record.pos < later.stop

end Placed

def contents (records : List (Placed α)) : List α := records.flatMap Placed.data

@[simp] theorem contents_nil : contents ([] : List (Placed α)) = [] := rfl

@[simp] theorem contents_cons (record : Placed α) (records : List (Placed α)) :
    contents (record :: records) = record.data ++ contents records := rfl

@[simp] theorem contents_append (left right : List (Placed α)) :
    contents (left ++ right) = contents left ++ contents right := by
  simp [contents]

/-- The records stand one behind the other from the first position up to the last. -/
def LaidOut : Nat → List (Placed α) → Nat → Prop
  | first, [], last => first = last
  | first, record :: records, last => record.pos = first ∧ LaidOut record.stop records last

theorem laidOut_nil (first : Nat) : LaidOut first ([] : List (Placed α)) first := rfl

section LaidOut

variable {first middle last : Nat} {records : List (Placed α)}

theorem LaidOut.append {left right : List (Placed α)} (hleft : LaidOut first left middle)
    (hright : LaidOut middle right last) : LaidOut first (left ++ right) last := by
  induction left generalizing first with
  | nil =>
      cases hleft
      exact hright
  | cons record left ih =>
      obtain ⟨hpos, hrest⟩ := hleft
      exact ⟨hpos, ih hrest⟩

theorem LaidOut.snoc (h : LaidOut first records middle) (data : List α) :
    LaidOut first (records ++ [⟨middle, data⟩]) (middle + data.length) := by
  apply h.append
  exact ⟨rfl, rfl⟩

theorem LaidOut.split {left right : List (Placed α)} (h : LaidOut first (left ++ right) last) :
    ∃ middle, LaidOut first left middle ∧ LaidOut middle right last := by
  induction left generalizing first with
  | nil => exact ⟨first, rfl, h⟩
  | cons record left ih =>
      obtain ⟨hpos, hrest⟩ := h
      obtain ⟨middle, hleft, hright⟩ := ih hrest
      exact ⟨middle, ⟨hpos, hleft⟩, hright⟩

theorem LaidOut.length (h : LaidOut first records last) :
    first + (contents records).length = last := by
  induction records generalizing first with
  | nil =>
      cases h
      simp
  | cons record records ih =>
      obtain ⟨hpos, hrest⟩ := h
      have hlength := ih hrest
      simp only [Placed.stop] at hlength
      simp only [contents_cons, List.length_append]
      omega

theorem LaidOut.le (h : LaidOut first records last) : first ≤ last := by
  have hlength := h.length
  omega

theorem LaidOut.drop_contents (h : LaidOut first records middle) (right : List (Placed α)) :
    (contents (records ++ right)).drop (middle - first) = contents right := by
  have hlength := h.length
  rw [contents_append, List.drop_append, List.drop_eq_nil_of_le (by omega), List.nil_append]
  rw [show middle - first - (contents records).length = 0 by omega, List.drop_zero]

theorem LaidOut.bounds (h : LaidOut first records last) {record : Placed α}
    (hmem : record ∈ records) : first ≤ record.pos ∧ record.stop ≤ last := by
  induction records generalizing first with
  | nil => simp at hmem
  | cons head records ih =>
      obtain ⟨hpos, hrest⟩ := h
      rcases List.mem_cons.mp hmem with rfl | hmem
      · exact ⟨hpos.ge, hrest.le⟩
      · obtain ⟨hlow, hhigh⟩ := ih hrest hmem
        simp only [Placed.stop] at hlow
        exact ⟨by omega, hhigh⟩

/-- Every position of the area lies in one of the records. -/
theorem LaidOut.covers (h : LaidOut first records last) {i : Nat} (hlow : first ≤ i)
    (hhigh : i < last) : ∃ record ∈ records, record.pos ≤ i ∧ i < record.stop := by
  induction records generalizing first with
  | nil =>
      cases h
      omega
  | cons head records ih =>
      obtain ⟨hpos, hrest⟩ := h
      by_cases hhead : i < head.stop
      · exact ⟨head, List.mem_cons_self, by omega, hhead⟩
      · obtain ⟨record, hmem, hbounds⟩ := ih hrest (by omega)
        exact ⟨record, List.mem_cons_of_mem head hmem, hbounds⟩

/-- A record that begins in the area shares a cell with one laid out there. -/
theorem LaidOut.overlaps (h : LaidOut first records last) {record : Placed α}
    (hlow : first ≤ record.pos) (hhigh : record.pos < last) (hnonempty : 0 < record.data.length) :
    ∃ other ∈ records, record.Overlaps other := by
  obtain ⟨other, hmem, hpos, hstop⟩ := h.covers hlow hhigh
  refine ⟨other, hmem, ?_, hstop⟩
  simp only [Placed.stop]
  omega

end LaidOut

section Marked

variable (mark : List α)

/-- The mark stands at the start of the data and nowhere else. -/
def Marked (data : List α) : Prop :=
  mark <+: data ∧ ∀ i, 0 < i → ¬ mark <+: data.drop i

instance [DecidableEq α] (data : List α) : Decidable (Marked mark data) :=
  decidable_of_iff
    (mark ≠ [] ∧ mark <+: data ∧ ∀ i < data.length, 0 < i → ¬ mark <+: data.drop i) <| by
    constructor
    · rintro ⟨hmark, hstart, hinside⟩
      refine ⟨hstart, ?_⟩
      intro i hlow hprefix
      by_cases hhigh : i < data.length
      · exact hinside i hhigh hlow hprefix
      · rw [List.drop_eq_nil_of_le (by omega)] at hprefix
        exact hmark (List.prefix_nil.mp hprefix)
    · rintro ⟨hstart, hinside⟩
      refine ⟨?_, hstart, fun i _ hlow => hinside i hlow⟩
      rintro rfl
      exact hinside 1 Nat.one_pos List.nil_prefix

/-- The first cell of the mark occurs only once in it, so that two marks
never overlap. -/
def SelfApart : Prop := ∀ i, 0 < i → i < mark.length → mark[i]? ≠ mark[0]?

variable {mark}

/-- Inside a marked record no mark begins, not even one that runs into a
following record. -/
theorem not_mark_inside (hapart : SelfApart mark) {data rest : List α} (hdata : Marked mark data)
    (hrest : rest = [] ∨ mark <+: rest) {i : Nat} (hlow : 0 < i) (hhigh : i < data.length) :
    ¬ mark <+: (data ++ rest).drop i := by
  intro hmark
  rw [List.drop_append_of_le_length hhigh.le] at hmark
  rcases hrest with rfl | hrest
  · rw [List.append_nil] at hmark
    exact hdata.2 i hlow hmark
  · by_cases hfits : mark.length ≤ data.length - i
    · apply hdata.2 i hlow
      apply List.prefix_of_prefix_length_le hmark (List.prefix_append _ _)
      simpa using hfits
    · -- the mark would contain the first cell of the next mark
      have hcut : (data.drop i).length < mark.length := by
        simp only [List.length_drop]
        omega
      have hnonempty : 0 < mark.length := by omega
      apply hapart (data.drop i).length (by simp only [List.length_drop]; omega) hcut
      obtain ⟨tail, htail⟩ := hmark
      obtain ⟨tail', htail'⟩ := hrest
      have hcell : (mark ++ tail)[(data.drop i).length]? = rest[0]? := by
        rw [htail, List.getElem?_append_right (le_refl _), Nat.sub_self]
      rw [List.getElem?_append_left hcut] at hcell
      rw [hcell, ← htail', List.getElem?_append_left hnonempty]

/-- In records laid out from `first` a mark begins exactly where a record begins. -/
theorem LaidOut.mark_iff {first last : Nat} {records : List (Placed α)} (hapart : SelfApart mark)
    (hmark : mark ≠ []) (h : LaidOut first records last)
    (hrecords : ∀ record ∈ records, Marked mark record.data) (i : Nat) :
    mark <+: (contents records).drop i ↔ ∃ record ∈ records, record.pos = first + i := by
  induction records generalizing first i with
  | nil =>
      simp only [contents_nil, List.drop_nil, List.prefix_nil, List.not_mem_nil, false_and,
        exists_false, iff_false]
      exact hmark
  | cons head records ih =>
      obtain ⟨hpos, hrest⟩ := h
      have hhead : Marked mark head.data := hrecords head List.mem_cons_self
      have htail : ∀ record ∈ records, Marked mark record.data := by
        intro record hmem
        exact hrecords record (List.mem_cons_of_mem head hmem)
      have hnonempty : 0 < head.data.length := by
        have hle := hhead.1.length_le
        have hpositive := List.length_pos_of_ne_nil hmark
        omega
      rw [contents_cons]
      by_cases hzero : i = 0
      · subst hzero
        constructor
        · intro _
          exact ⟨head, List.mem_cons_self, by omega⟩
        · intro _
          exact hhead.1.trans (List.prefix_append _ _)
      · by_cases hinside : i < head.data.length
        · have hnext : contents records = [] ∨ mark <+: contents records := by
            cases records with
            | nil => exact .inl rfl
            | cons next records =>
                right
                exact (htail next List.mem_cons_self).1.trans (List.prefix_append _ _)
          constructor
          · intro hbad
            exact absurd hbad (not_mark_inside hapart hhead hnext (by omega) hinside)
          · rintro ⟨record, hmem, hrecord⟩
            rcases List.mem_cons.mp hmem with rfl | hmem
            · omega
            · have hlow := (hrest.bounds hmem).1
              simp only [Placed.stop] at hlow
              omega
        · have hdrop : (head.data ++ contents records).drop i =
              (contents records).drop (i - head.data.length) := by
            rw [List.drop_append, List.drop_eq_nil_of_le (by omega), List.nil_append]
          rw [hdrop, ih hrest htail]
          have hsum : head.stop + (i - head.data.length) = first + i := by
            simp only [Placed.stop]
            omega
          rw [hsum]
          constructor
          · rintro ⟨record, hmem, hrecord⟩
            exact ⟨record, List.mem_cons_of_mem head hmem, hrecord⟩
          · rintro ⟨record, hmem, hrecord⟩
            rcases List.mem_cons.mp hmem with rfl | hmem
            · omega
            · exact ⟨record, hmem, hrecord⟩

end Marked

section History

/-- Records in the order they were placed, each with whether it was delivered. -/
abbrev History (α : Type u) := List (Placed α × Bool)

/-- The cells of the delivered records. -/
def delivered (history : History α) : List α :=
  history.flatMap fun entry => if entry.2 then entry.1.data else []

@[simp] theorem delivered_append (left right : History α) :
    delivered (left ++ right) = delivered left ++ delivered right := by
  simp [delivered]

/-- No more is delivered than was placed. -/
theorem delivered_length_le (history : History α) :
    (delivered history).length ≤ (history.flatMap fun entry => entry.1.data).length := by
  induction history with
  | nil => exact le_refl _
  | cons entry history ih =>
      simp only [delivered, List.flatMap_cons, List.length_append] at ih ⊢
      apply Nat.add_le_add _ ih
      split
      · exact le_refl _
      · exact Nat.zero_le _

/-- The records, all of them delivered or none. -/
def flagged (saved : Bool) (records : List (Placed α)) : History α :=
  records.map fun record => (record, saved)

@[simp] theorem flagged_append (saved : Bool) (left right : List (Placed α)) :
    flagged saved (left ++ right) = flagged saved left ++ flagged saved right :=
  List.map_append

@[simp] theorem map_fst_flagged (saved : Bool) (records : List (Placed α)) :
    (flagged saved records).map Prod.fst = records := by
  simp [flagged, Function.comp_def]

@[simp] theorem delivered_flagged_true (records : List (Placed α)) :
    delivered (flagged true records) = contents records := by
  simp [delivered, contents, flagged, List.flatMap_map]

@[simp] theorem delivered_flagged_false (records : List (Placed α)) :
    delivered (flagged false records) = [] := by
  simp [delivered, flagged, List.flatMap_map]

/-- Every record of the history was delivered or shares a cell with a record
placed after it, in the history or among the later ones. -/
def Accounted : History α → List (Placed α) → Prop
  | [], _ => True
  | (record, saved) :: history, later =>
      (saved = true ∨ ∃ other ∈ history.map Prod.fst ++ later, record.Overlaps other) ∧
        Accounted history later

theorem Accounted.mono {history : History α} {later later' : List (Placed α)}
    (h : Accounted history later) (hsub : later ⊆ later') : Accounted history later' := by
  induction history with
  | nil => trivial
  | cons entry history ih =>
      obtain ⟨hentry, hrest⟩ := h
      refine ⟨?_, ih hrest⟩
      rcases hentry with hsaved | ⟨other, hmem, hoverlap⟩
      · exact .inl hsaved
      · refine .inr ⟨other, ?_, hoverlap⟩
        rcases List.mem_append.mp hmem with hmem | hmem
        · exact List.mem_append_left _ hmem
        · exact List.mem_append_right _ (hsub hmem)

theorem Accounted.append {left right : History α} {later : List (Placed α)}
    (hleft : Accounted left (right.map Prod.fst ++ later)) (hright : Accounted right later) :
    Accounted (left ++ right) later := by
  induction left with
  | nil => exact hright
  | cons entry left ih =>
      obtain ⟨hentry, hrest⟩ := hleft
      rw [List.cons_append]
      refine ⟨?_, ih hrest⟩
      simpa only [List.map_append, List.append_assoc] using hentry

theorem accounted_of_forall {history : History α} {later : List (Placed α)}
    (h : ∀ entry ∈ history, entry.2 = true ∨ ∃ other ∈ later, entry.1.Overlaps other) :
    Accounted history later := by
  induction history with
  | nil => trivial
  | cons entry history ih =>
      refine ⟨?_, ih fun later hmem => h later (List.mem_cons_of_mem entry hmem)⟩
      rcases h entry List.mem_cons_self with hsaved | ⟨other, hmem, hoverlap⟩
      · exact .inl hsaved
      · exact .inr ⟨other, List.mem_append_right _ hmem, hoverlap⟩

theorem accounted_flagged_true (records later : List (Placed α)) :
    Accounted (flagged true records) later := by
  apply accounted_of_forall
  intro entry hmem
  obtain ⟨record, _, rfl⟩ := List.mem_map.mp hmem
  exact .inl rfl

theorem accounted_flagged_false {records later : List (Placed α)}
    (h : ∀ record ∈ records, ∃ other ∈ later, record.Overlaps other) :
    Accounted (flagged false records) later := by
  apply accounted_of_forall
  intro entry hmem
  obtain ⟨record, hrecord, rfl⟩ := List.mem_map.mp hmem
  exact .inr (h record hrecord)

end History

end MctDaemon.Lib
