import Mathlib.Tactic

/-!
Searching a list with several probes in a row. Each probe reports the
positions of the items it hits, and the search stops early once it has
reported as many positions as there are items. Whether every wanted item is
reported exactly once depends on how many probes hit each item.
-/

namespace MctDaemon.Lib

universe u v

variable {κ : Type u} {ι : Type v}

/-- Add up what the probes report until `limit` positions are reported. -/
def searchUntil (hits : κ → ι → Bool) (items : List ι) (limit : Nat) :
    List κ → List Nat → List Nat
  | [], found => found
  | probe :: probes, found =>
      let found := found ++ items.findIdxs (hits probe)
      if found.length = limit then found else searchUntil hits items limit probes found

/-- The number of probes that hit the item. -/
def hitCount (hits : κ → ι → Bool) (probes : List κ) (item : ι) : Nat :=
  probes.countP fun probe => hits probe item

/-- What all the probes report. -/
def reported (hits : κ → ι → Bool) (items : List ι) (probes : List κ) : List Nat :=
  (probes.map fun probe => items.findIdxs (hits probe)).flatten

section Counting

variable (hits : κ → ι → Bool) (items : List ι)

theorem count_findIdxs (wanted : ι → Bool) (i : Nat) (hi : i < items.length) :
    (items.findIdxs wanted).count i = if wanted items[i] then 1 else 0 := by
  rw [List.nodup_findIdxs.count]
  exact if_congr (List.mem_findIdxs_iff_pos_getElem hi) rfl rfl

theorem count_reported (probes : List κ) (i : Nat) (hi : i < items.length) :
    (reported hits items probes).count i = hitCount hits probes items[i] := by
  induction probes with
  | nil => rfl
  | cons probe probes ih =>
      simp only [reported, List.map_cons, List.flatten_cons, List.count_append] at ih ⊢
      rw [ih, count_findIdxs items _ i hi]
      simp only [hitCount, List.countP_cons]
      omega

theorem length_reported (probes : List κ) :
    (reported hits items probes).length = (items.map (hitCount hits probes)).sum := by
  induction probes with
  | nil =>
      have hzero : items.map (hitCount hits []) = List.replicate items.length 0 := by
        rw [← List.map_const']
        rfl
      rw [hzero]
      simp [reported]
  | cons probe probes ih =>
      have hsplit : (items.map (hitCount hits (probe :: probes))).sum =
          items.countP (hits probe) + (items.map (hitCount hits probes)).sum := by
        clear ih
        induction items with
        | nil => rfl
        | cons item items ih =>
            simp only [List.map_cons, List.sum_cons, ih, hitCount, List.countP_cons]
            omega
      rw [hsplit, ← ih]
      simp [reported]

/-- A probe more hits no less. -/
theorem hitCount_take_le (probes : List κ) (item : ι) {a b : Nat} (h : a ≤ b) :
    hitCount hits (probes.take a) item ≤ hitCount hits (probes.take b) item :=
  ((List.take_sublist_take_left h).countP_le)

theorem hitCount_take_le_all (probes : List κ) (item : ι) (a : Nat) :
    hitCount hits (probes.take a) item ≤ hitCount hits probes item :=
  (List.take_sublist a probes).countP_le

end Counting

/-- If no term exceeds one, the sum is the number of terms exactly when every
term is one. -/
theorem sum_eq_length_iff (items : List ι) (f : ι → Nat) (hle : ∀ item ∈ items, f item ≤ 1) :
    (items.map f).sum = items.length ↔ ∀ item ∈ items, f item = 1 := by
  induction items with
  | nil => simp
  | cons item items ih =>
      have hfirst := hle item (by simp)
      have hrest : ∀ later ∈ items, f later ≤ 1 := by
        intro later hlater
        exact hle later (by simp [hlater])
      have hsum : (items.map f).sum ≤ items.length := by
        have hbound := List.sum_le_card_nsmul (items.map f) 1 (by simpa using hrest)
        simpa using hbound
      have hiff := ih hrest
      simp only [List.map_cons, List.sum_cons, List.length_cons, List.forall_mem_cons]
      constructor
      · intro htotal
        exact ⟨by omega, hiff.mp (by omega)⟩
      · rintro ⟨hone, hall⟩
        have hequal := hiff.mpr hall
        omega

section Search

variable (hits : κ → ι → Bool) (items : List ι)

/-- The search is what the first `s` probes report, where `s` is the first
number of probes, if there is one, that reports `limit` positions. -/
theorem searchUntil_eq (limit : Nat) (probes : List κ) (found : List Nat) :
    ∃ s ≤ probes.length,
      searchUntil hits items limit probes found =
        found ++ reported hits items (probes.take s) ∧
      (s = probes.length ∨
        (found ++ reported hits items (probes.take s)).length = limit) ∧
      ∀ j, 0 < j → j ≤ probes.length →
        (found ++ reported hits items (probes.take j)).length = limit → s ≤ j := by
  induction probes generalizing found with
  | nil =>
      refine ⟨0, le_refl _, ?_, Or.inl rfl, ?_⟩
      · simp [searchUntil, reported]
      · intro j hpos hle
        simp only [List.length_nil] at hle
        omega
  | cons probe probes ih =>
      have hcons (j : Nat) : found ++ reported hits items ((probe :: probes).take (j + 1)) =
          (found ++ items.findIdxs (hits probe)) ++ reported hits items (probes.take j) := by
        simp [reported]
      by_cases hstop : (found ++ items.findIdxs (hits probe)).length = limit
      · refine ⟨1, by simp, ?_, Or.inr ?_, ?_⟩
        · rw [searchUntil, if_pos hstop]
          simp [reported]
        · simpa [reported] using hstop
        · intro j hpos _ _
          exact hpos
      · obtain ⟨s, hle, hrun, hend, hfirst⟩ := ih (found ++ items.findIdxs (hits probe))
        refine ⟨s + 1, by simpa using hle, ?_, ?_, ?_⟩
        · rw [searchUntil, if_neg hstop, hrun, hcons]
        · rw [hcons]
          rcases hend with rfl | hend
          · exact Or.inl rfl
          · exact Or.inr hend
        · intro j hpos hlej htotal
          cases j with
          | zero => omega
          | succ j =>
              rw [hcons] at htotal
              cases j with
              | zero => exact absurd (by simpa [reported] using htotal) hstop
              | succ j =>
                  have hs := hfirst (j + 1) (by omega) (by simpa using hlej) htotal
                  omega

/-- A search that stops after as many positions as there are items reports
every wanted item exactly once and no other, if and only if each item is hit
by one probe if it is wanted and by none if it is not, or all items are wanted
and some first probes hit each of them once. -/
theorem searchUntil_exact_iff (wanted : ι → Bool) (probes : List κ) :
    (∀ i, (hi : i < items.length) →
      (searchUntil hits items items.length probes []).count i =
        if wanted items[i] then 1 else 0) ↔
      (∀ item ∈ items, hitCount hits probes item = if wanted item then 1 else 0) ∨
        (∀ item ∈ items, wanted item) ∧
          ∃ s ≤ probes.length, ∀ item ∈ items, hitCount hits (probes.take s) item = 1 := by
  obtain ⟨s, hle, hrun, hend, hfirst⟩ := searchUntil_eq hits items items.length probes []
  simp only [List.nil_append, length_reported] at hrun hend hfirst
  have hcounts : (∀ i, (hi : i < items.length) →
      (searchUntil hits items items.length probes []).count i =
        if wanted items[i] then 1 else 0) ↔
      ∀ item ∈ items, hitCount hits (probes.take s) item = if wanted item then 1 else 0 := by
    rw [hrun]
    constructor
    · intro h item hitem
      obtain ⟨i, hi, rfl⟩ := List.getElem_of_mem hitem
      rw [← h i hi, count_reported hits items _ i hi]
    · intro h i hi
      rw [count_reported hits items _ i hi]
      exact h _ (List.getElem_mem hi)
  rw [hcounts]
  constructor
  · intro h
    rcases hend with rfl | hend
    · rw [List.take_length] at h
      exact Or.inl h
    · have hone : ∀ item ∈ items, hitCount hits (probes.take s) item ≤ 1 := by
        intro item hitem
        rw [h item hitem]
        split <;> omega
      have hall := (sum_eq_length_iff items _ hone).mp hend
      refine Or.inr ⟨?_, s, hle, hall⟩
      intro item hitem
      have hcount := h item hitem
      rw [hall item hitem] at hcount
      by_contra hnot
      rw [if_neg hnot] at hcount
      omega
  · rintro (h | ⟨hwanted, t, htle, honce⟩)
    · intro item hitem
      rcases hend with rfl | hend
      · rw [List.take_length]
        exact h item hitem
      · have hone : ∀ item ∈ items, hitCount hits (probes.take s) item ≤ 1 := by
          intro item hitem
          have hbound := hitCount_take_le_all hits probes item s
          rw [h item hitem] at hbound
          split at hbound <;> omega
        have hall := (sum_eq_length_iff items _ hone).mp hend
        have hbound := hitCount_take_le_all hits probes item s
        rw [h item hitem, hall item hitem] at hbound
        rw [hall item hitem]
        split
        · rfl
        · rename_i hnot
          rw [if_neg hnot] at hbound
          omega
    · intro item hitem
      rw [if_pos (hwanted item hitem)]
      have hpos : 0 < t := by
        by_contra hzero
        have ht : t = 0 := by omega
        have hcount := honce item hitem
        rw [ht] at hcount
        cases hcount
      have htotal : (items.map (hitCount hits (probes.take t))).sum = items.length :=
        (sum_eq_length_iff items _ (fun item hitem => (honce item hitem).le)).mpr honce
      have hst := hfirst t hpos htle htotal
      have hone : ∀ item ∈ items, hitCount hits (probes.take s) item ≤ 1 := by
        intro item hitem
        rw [← honce item hitem]
        exact hitCount_take_le hits probes item hst
      rcases hend with rfl | hend
      · have hsame : t = probes.length := by omega
        rw [← hsame]
        exact honce item hitem
      · exact (sum_eq_length_iff items _ hone).mp hend item hitem

end Search

end MctDaemon.Lib
