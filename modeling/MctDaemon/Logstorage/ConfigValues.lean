import MctDaemon.Lib.CString
import MctDaemon.Lib.Machine

/-!
Values of the log storage configuration: the numbers that `mct_logstorage_read_number` reads
and the section names that `mct_logstorage_validate_filter_name` accepts.
-/

namespace MctDaemon.Logstorage

open Lib

section Numbers

/-- `mct_logstorage_set_number`: the returned value and the stored number. -/
def mctLogstorageSetNumber (number value : Nat) : Int × Nat :=
  if value = 0 ∨ value > 4294967295 then (-1, number) else (0, value)

/-- `mct_logstorage_read_number`. The characters up to the `int` length are checked. -/
def mctLogstorageReadNumber (value : List Char) : Int × Nat :=
  let len := int32 value.length
  if (value.take len.toNat).all Char.isDigit then
    mctLogstorageSetNumber 0 (uint32 (strtoul value))
  else (-1, 0)

/-- The number that a string of digits stands for. -/
def decimalValue (digits : List Char) : Nat :=
  digits.foldl (fun n c => 10 * n + (c.toNat - 48)) 0

/-- Just the digits of a number in the range are read, and the number is stored. -/
def ReadsNumber (value : List Char) : Prop :=
  if value.all Char.isDigit ∧ 1 ≤ decimalValue value ∧ decimalValue value ≤ 4294967295 then
    mctLogstorageReadNumber value = (0, decimalValue value)
  else (mctLogstorageReadNumber value).1 = -1

/-- The number fits, or what is left of it is zero; where there is something else than digits,
it is checked, or again nothing is left of the number. -/
def NumberFits (value : List Char) : Prop :=
  if value.all Char.isDigit then
    decimalValue value ≤ 4294967295 ∨
      decimalValue value ≤ 18446744073709551615 ∧ 4294967296 ∣ decimalValue value
  else
    (∃ c ∈ value.take (int32 value.length).toNat, ¬ c.isDigit) ∨ 4294967296 ∣ strtoul value

variable {value : List Char}

theorem leadingDecimal_digits (h : ∀ c ∈ value, c.isDigit) :
    leadingDecimal value = decimalValue value := by
  rw [leadingDecimal, List.takeWhile_eq_self_iff.mpr h]
  rfl

theorem uint32_eq_zero_iff (n : Nat) : uint32 n = 0 ↔ 4294967296 ∣ n := by
  unfold uint32
  omega

theorem uint32_le (n : Nat) : uint32 n ≤ 4294967295 := by
  unfold uint32
  omega

/-- What the check of the digits leads to. -/
theorem readNumber_cases (value : List Char) :
    (∃ c ∈ value.take (int32 value.length).toNat, ¬ c.isDigit) ∧
        mctLogstorageReadNumber value = (-1, 0) ∨
      (∀ c ∈ value.take (int32 value.length).toNat, c.isDigit) ∧ 4294967296 ∣ strtoul value ∧
        mctLogstorageReadNumber value = (-1, 0) ∨
      (∀ c ∈ value.take (int32 value.length).toNat, c.isDigit) ∧ ¬ 4294967296 ∣ strtoul value ∧
        mctLogstorageReadNumber value = (0, uint32 (strtoul value)) := by
  have hle := uint32_le (strtoul value)
  unfold mctLogstorageReadNumber mctLogstorageSetNumber
  by_cases hchecked : (value.take (int32 value.length).toNat).all Char.isDigit
  · have hdigits := List.all_eq_true.mp hchecked
    simp only [if_pos hchecked]
    by_cases hzero : uint32 (strtoul value) = 0
    · rw [if_pos (Or.inl hzero)]
      exact .inr (.inl ⟨hdigits, (uint32_eq_zero_iff _).mp hzero, rfl⟩)
    · rw [if_neg (by omega)]
      exact .inr (.inr ⟨hdigits, mt (uint32_eq_zero_iff _).mpr hzero, rfl⟩)
  · simp only [if_neg hchecked]
    refine .inl ⟨?_, trivial⟩
    simpa using hchecked

/-- A string of digits is read as its value up to 64 bits. -/
theorem strtoul_decimal (h : ∀ c ∈ value, c.isDigit) :
    strtoul value = min (decimalValue value) 18446744073709551615 := by
  rw [strtoul_digits h, leadingDecimal_digits h]

/-- Numbers are read exactly where they fit. -/
theorem reads_number_iff (value : List Char) : ReadsNumber value ↔ NumberFits value := by
  unfold ReadsNumber NumberFits
  by_cases hall : value.all Char.isDigit
  · have hdigits := List.all_eq_true.mp hall
    have hread := readNumber_cases value
    have hnone : ¬ ∃ c ∈ value.take (int32 value.length).toNat, ¬ c.isDigit := by
      rintro ⟨c, hc, hnot⟩
      exact hnot (hdigits c (List.mem_of_mem_take hc))
    rw [strtoul_decimal hdigits] at hread
    rw [if_pos hall]
    rcases hread with ⟨hchecked, -⟩ | ⟨-, hdvd, hread⟩ | ⟨-, hdvd, hread⟩
    · exact absurd hchecked hnone
    · rw [hread, if_neg (by omega)]
      exact iff_of_true rfl (.inr (by omega))
    · rw [hread]
      by_cases hfits : 1 ≤ decimalValue value ∧ decimalValue value ≤ 4294967295
      · rw [if_pos ⟨hall, hfits⟩, min_eq_left (by omega), uint32_natCast (by omega)]
        exact iff_of_true rfl (.inl hfits.2)
      · rw [if_neg (fun h => hfits h.2)]
        apply iff_of_false (by simp)
        omega
  · rw [if_neg hall, if_neg (fun h => hall h.1)]
    rcases readNumber_cases value with ⟨hchecked, hread⟩ | ⟨-, hdvd, hread⟩ | ⟨hdigits, hdvd, hread⟩
    · rw [hread]
      exact iff_of_true rfl (.inl hchecked)
    · rw [hread]
      exact iff_of_true rfl (.inr hdvd)
    · rw [hread]
      apply iff_of_false (by simp)
      rintro (⟨c, hc, hnot⟩ | hzero)
      · exact hnot (hdigits c hc)
      · exact hdvd hzero

/-- In a string whose length is an `int` all characters are checked. -/
theorem numberFits_of_short (hshort : value.length < 2147483648) :
    NumberFits value ↔ ((∀ c ∈ value, c.isDigit) → decimalValue value ≤ 4294967295 ∨
      decimalValue value ≤ 18446744073709551615 ∧ 4294967296 ∣ decimalValue value) := by
  unfold NumberFits
  split
  · next hdigits => exact ⟨fun h _ => h, fun h => h (List.all_eq_true.mp hdigits)⟩
  · next hother =>
      rw [List.all_eq_true] at hother
      refine iff_of_true (.inl ?_) fun hdigits => absurd hdigits hother
      rw [int32_natCast hshort, Int.toNat_natCast, List.take_length]
      simpa using hother

/-- A number that is one too big for 32 bits is read as 1. -/
theorem number_wraps :
    ¬ ReadsNumber "4294967297".toList ∧
      mctLogstorageReadNumber "4294967297".toList = (0, 1) := by
  have hread : mctLogstorageReadNumber "4294967297".toList = (0, 1) := by
    have hlength : int32 ("4294967297".toList.length : Int) = 10 := int32_of_small (by decide)
      (by decide)
    have hnumber : strtoul "4294967297".toList = 4294967297 := by decide
    have hone : uint32 (4294967297 : Nat) = 1 := by
      unfold uint32
      rfl
    unfold mctLogstorageReadNumber
    rw [hlength, hnumber, hone]
    rfl
  refine ⟨?_, hread⟩
  unfold ReadsNumber
  rw [hread]
  decide

end Numbers

section Names

/-- The prefixes of the filter sections, in the order in which they are tried. -/
def filterSections : List (List Char) :=
  ["FILTER".toList, "NON-VERBOSE-STORAGE-FILTER".toList, "NON-VERBOSE-LOGLEVEL-CTRL".toList]

/-- The characters that the loop of a section looks at, from `idx` on. -/
def lookedAt (name : List Char) (idx : Nat) : List Char :=
  (name.take (int32 (int32 name.length - 1)).toNat).drop idx

def mctLogstorageValidateFilterName (name : List Char) : Int :=
  match filterSections.find? fun sec => strncmpEq name sec sec.length with
  | some sec => if (lookedAt name sec.length).all Char.isDigit then 0 else -1
  | none => -1

def IsFilterName (name : List Char) : Prop :=
  ∃ sec ∈ filterSections, ∃ number, name = sec ++ number ∧ number ≠ [] ∧
    ∀ c ∈ number, c.isDigit

/-- What follows a prefix is not empty, and if it is not a number the loop sees that. -/
def NumberLookedAt (name : List Char) : Prop :=
  ∀ sec ∈ filterSections, ∀ number, name = sec ++ number →
    number ≠ [] ∧ ((∀ c ∈ number, c.isDigit) ∨ ∃ c ∈ lookedAt name sec.length, ¬ c.isDigit)

/-- No prefix is the beginning of another one. -/
theorem filterSections_unique {name sec other : List Char} (hsec : sec ∈ filterSections)
    (hother : other ∈ filterSections) (h : sec <+: name) (hname : other <+: name) :
    sec = other := by
  have hapart : ∀ sec ∈ filterSections, ∀ other ∈ filterSections, sec <+: other → sec = other := by
    decide
  rcases List.prefix_or_prefix_of_prefix h hname with hpre | hpre
  · exact hapart sec hsec other hother hpre
  · exact (hapart other hother sec hsec hpre).symm

/-- The loop looks at what is behind the prefix. -/
theorem mem_of_mem_lookedAt {sec number : List Char} {c : Char}
    (h : c ∈ lookedAt (sec ++ number) sec.length) : c ∈ number := by
  rw [lookedAt, List.drop_take, List.drop_left] at h
  exact List.mem_of_mem_take h

/-- The code accepts a prefix with whatever the loop does not look at behind it. -/
theorem validateFilterName_iff (name : List Char) :
    mctLogstorageValidateFilterName name = 0 ↔
      ∃ sec ∈ filterSections, sec <+: name ∧ ∀ c ∈ lookedAt name sec.length, c.isDigit := by
  have hbegins : ∀ sec, strncmpEq name sec sec.length ↔ sec <+: name := by
    intro sec
    rw [← strncmpEq_length_left]
    simp only [strncmpEq, decide_eq_true_eq]
    exact eq_comm
  unfold mctLogstorageValidateFilterName
  cases hfind : filterSections.find? fun sec => strncmpEq name sec sec.length with
  | none =>
      apply iff_of_false
      · simp
      · rintro ⟨sec, hsec, hname, -⟩
        exact List.find?_eq_none.mp hfind sec hsec ((hbegins sec).mpr hname)
  | some found =>
      have hmem := List.mem_of_find?_eq_some hfind
      have hfound := List.find?_some hfind
      have hname := (hbegins found).mp hfound
      constructor
      · intro hzero
        refine ⟨found, hmem, hname, ?_⟩
        by_contra hnot
        simp only [if_neg (mt List.all_eq_true.mp hnot)] at hzero
        exact absurd hzero (by decide)
      · rintro ⟨sec, hsec, hname', hdigits⟩
        rw [filterSections_unique hsec hmem hname' hname] at hdigits
        simp only [if_pos (List.all_eq_true.mpr hdigits)]

/-- Filter names are recognised exactly where the loop looks at what is wrong with them. -/
theorem filter_name_recognised_iff (name : List Char) :
    (mctLogstorageValidateFilterName name = 0 ↔ IsFilterName name) ↔ NumberLookedAt name := by
  rw [validateFilterName_iff]
  constructor
  · rintro hrecognised sec hsec number rfl
    by_cases hlooked : ∀ c ∈ lookedAt (sec ++ number) sec.length, c.isDigit
    · obtain ⟨sec', hsec', number', hname, hne, hdigits⟩ :=
        hrecognised.mp ⟨sec, hsec, List.prefix_append sec number, hlooked⟩
      have hsame := filterSections_unique hsec hsec' (List.prefix_append sec number)
        (hname ▸ List.prefix_append sec' number')
      subst hsame
      rw [List.append_cancel_left hname]
      exact ⟨hne, .inl hdigits⟩
    · simp only [not_forall] at hlooked
      obtain ⟨c, hc, hnot⟩ := hlooked
      exact ⟨List.ne_nil_of_mem (mem_of_mem_lookedAt hc), .inr ⟨c, hc, hnot⟩⟩
  · intro hlooked
    constructor
    · rintro ⟨sec, hsec, ⟨number, rfl⟩, hdigits⟩
      obtain ⟨hne, hnumber | ⟨c, hc, hnot⟩⟩ := hlooked sec hsec number rfl
      · exact ⟨sec, hsec, number, rfl, hne, hnumber⟩
      · exact absurd (hdigits c hc) hnot
    · rintro ⟨sec, hsec, number, rfl, hne, hdigits⟩
      refine ⟨sec, hsec, List.prefix_append sec number, ?_⟩
      exact fun c hc => hdigits c (mem_of_mem_lookedAt hc)

/-- In a name whose length is an `int` the loop looks at all but the last character. -/
theorem lookedAt_of_short {sec number : List Char}
    (hshort : (sec ++ number).length < 2147483648) :
    lookedAt (sec ++ number) sec.length = number.dropLast := by
  rw [List.length_append] at hshort
  rw [lookedAt, List.drop_take, List.drop_left, List.dropLast_eq_take, List.length_append,
    int32_natCast hshort, int32_of_small (by omega) (by omega)]
  congr 1
  omega

/-- A name without a number is taken for a filter. -/
theorem filter_without_number :
    mctLogstorageValidateFilterName "FILTER".toList = 0 ∧ ¬ IsFilterName "FILTER".toList := by
  constructor
  · rw [validateFilterName_iff]
    refine ⟨"FILTER".toList, by decide, List.prefix_refl _, ?_⟩
    intro c hc
    exact absurd (@mem_of_mem_lookedAt "FILTER".toList [] c hc) List.not_mem_nil
  · rintro ⟨sec, hsec, number, hname, hne, -⟩
    have hsame := filterSections_unique hsec (by decide : "FILTER".toList ∈ filterSections)
      ⟨number, hname.symm⟩ (List.prefix_refl _)
    subst hsame
    exact hne (List.self_eq_append_right.mp hname)

end Names

end MctDaemon.Logstorage
