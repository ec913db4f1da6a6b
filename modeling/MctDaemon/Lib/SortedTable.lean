import Mathlib.Tactic

/-!
Tables kept as lists in the order of a key: the search that halves the range,
the insertion by appending and sorting, and the removal by position. The keys
are those of any linear order.
-/

namespace MctDaemon.Lib

universe u v

variable {ε : Type u} {κ : Type v} [LinearOrder κ]

/-- The loop of `bsearch` over the positions from `low` on and below `high`. -/
def bsearchBetween (key : ε → κ) (wanted : κ) (table : List ε) (low high : Nat) : Option Nat :=
  if low < high then
    match table[(low + high) / 2]? with
    | none => none
    | some entry =>
        if wanted < key entry then bsearchBetween key wanted table low ((low + high) / 2)
        else if key entry < wanted then
          bsearchBetween key wanted table ((low + high) / 2 + 1) high
        else some ((low + high) / 2)
  else none
termination_by high - low

/-- The position `bsearch` finds. -/
def bsearch (key : ε → κ) (wanted : κ) (table : List ε) : Option Nat :=
  bsearchBetween key wanted table 0 table.length

/-- `qsort` by the key. -/
def sortByKey (key : ε → κ) (table : List ε) : List ε :=
  table.insertionSort fun a b => key a ≤ key b

def Increasing (key : ε → κ) (table : List ε) : Prop := (table.map key).Pairwise (· < ·)

instance (key : ε → κ) (table : List ε) : Decidable (Increasing key table) :=
  inferInstanceAs (Decidable (List.Pairwise _ _))

section Search

variable {key : ε → κ} {wanted : κ} {table : List ε}

omit [LinearOrder κ] in
theorem getElem?_of_map_eq {table' : List ε} (h : table'.map key = table.map key) {i : Nat}
    {entry : ε} (hentry : table[i]? = some entry) :
    ∃ entry', table'[i]? = some entry' ∧ key entry' = key entry := by
  have hkey := congrArg (·[i]?) h
  simpa only [List.getElem?_map, hentry, Option.map_some, Option.map_eq_some_iff] using hkey

/-- The search looks at nothing but the keys. -/
theorem bsearchBetween_congr {table' : List ε} (h : table'.map key = table.map key)
    (low high : Nat) :
    bsearchBetween key wanted table' low high = bsearchBetween key wanted table low high := by
  fun_induction bsearchBetween key wanted table low high with
  | case1 low high hlt hnone =>
      have hentry := congrArg (·[(low + high) / 2]?) h
      simp only [List.getElem?_map, hnone, Option.map_none, Option.map_eq_none_iff] at hentry
      rw [bsearchBetween, if_pos hlt, hentry]
  | case2 low high hlt entry hentry hless ih =>
      obtain ⟨entry', hentry', hsame⟩ := getElem?_of_map_eq h hentry
      rw [bsearchBetween, if_pos hlt, hentry']
      simp only [hsame, if_pos hless, ih]
  | case3 low high hlt entry hentry hnot hless ih =>
      obtain ⟨entry', hentry', hsame⟩ := getElem?_of_map_eq h hentry
      rw [bsearchBetween, if_pos hlt, hentry']
      simp only [hsame, if_neg hnot, if_pos hless, ih]
  | case4 low high hlt entry hentry hnot hnot' =>
      obtain ⟨entry', hentry', hsame⟩ := getElem?_of_map_eq h hentry
      rw [bsearchBetween, if_pos hlt, hentry']
      simp only [hsame, if_neg hnot, if_neg hnot']
  | case5 low high hlt => rw [bsearchBetween, if_neg hlt]

theorem bsearch_congr {table' : List ε} (h : table'.map key = table.map key) :
    bsearch key wanted table' = bsearch key wanted table := by
  have hlength := congrArg List.length h
  rw [List.length_map, List.length_map] at hlength
  rw [bsearch, bsearch, hlength, bsearchBetween_congr h]

theorem bsearchBetween_sound {low high i : Nat}
    (h : bsearchBetween key wanted table low high = some i) :
    ∃ entry, table[i]? = some entry ∧ key entry = wanted := by
  fun_induction bsearchBetween key wanted table low high with
  | case1 low high hlt hnone => cases h
  | case2 low high hlt entry hentry hless ih => exact ih h
  | case3 low high hlt entry hentry hnot hless ih => exact ih h
  | case4 low high hlt entry hentry hnot hnot' =>
      rw [← Option.some.inj h]
      exact ⟨entry, hentry, le_antisymm (not_lt.mp hnot) (not_lt.mp hnot')⟩
  | case5 low high hlt => cases h

/-- What is found has the key, in any table. -/
theorem bsearch_sound {i : Nat} (h : bsearch key wanted table = some i) :
    ∃ entry, table[i]? = some entry ∧ key entry = wanted :=
  bsearchBetween_sound h

theorem Increasing.lt (h : Increasing key table) {i j : Nat} {a b : ε} (hij : i < j)
    (ha : table[i]? = some a) (hb : table[j]? = some b) : key a < key b := by
  obtain ⟨hi, rfl⟩ := List.getElem?_eq_some_iff.mp ha
  obtain ⟨hj, rfl⟩ := List.getElem?_eq_some_iff.mp hb
  have hpair := List.pairwise_iff_getElem.mp h i j (by simpa using hi) (by simpa using hj) hij
  simpa using hpair

/-- A key stands at one position only. -/
theorem Increasing.position (h : Increasing key table) {i j : Nat} {a b : ε}
    (ha : table[i]? = some a) (hb : table[j]? = some b) (hkey : key a = key b) : i = j := by
  rcases lt_trichotomy i j with hij | hij | hij
  · exact absurd hkey (h.lt hij ha hb).ne
  · exact hij
  · exact absurd hkey (h.lt hij hb ha).ne'

theorem bsearchBetween_complete (h : Increasing key table) {low high k : Nat} {entry : ε}
    (hhigh : high ≤ table.length) (hlow : low ≤ k) (hk : k < high)
    (hentry : table[k]? = some entry) (hkey : key entry = wanted) :
    bsearchBetween key wanted table low high = some k := by
  fun_induction bsearchBetween key wanted table low high with
  | case1 low high hlt hnone =>
      rw [List.getElem?_eq_none_iff] at hnone
      omega
  | case2 low high hlt other hother hless ih =>
      have hbefore : k < (low + high) / 2 := by
        by_contra hnot
        rcases Nat.lt_or_eq_of_le (not_lt.mp hnot) with hbehind | hsame
        · have hgreater := h.lt hbehind hother hentry
          rw [hkey] at hgreater
          exact absurd (hgreater.trans hless) (lt_irrefl _)
        · rw [hsame, hentry] at hother
          rw [← Option.some.inj hother, hkey] at hless
          exact absurd hless (lt_irrefl _)
      exact ih (by omega) hlow hbefore
  | case3 low high hlt other hother hnot hless ih =>
      have hbehind : (low + high) / 2 < k := by
        by_contra hnot'
        rcases Nat.lt_or_eq_of_le (not_lt.mp hnot') with hbefore | hsame
        · have hgreater := h.lt hbefore hentry hother
          rw [hkey] at hgreater
          exact absurd (hgreater.trans hless) (lt_irrefl _)
        · rw [← hsame, hentry] at hother
          rw [← Option.some.inj hother, hkey] at hless
          exact absurd hless (lt_irrefl _)
      exact ih hhigh (by omega) hk
  | case4 low high hlt other hother hnot hnot' =>
      have hsame := h.position hother hentry
        ((le_antisymm (not_lt.mp hnot) (not_lt.mp hnot')).trans hkey.symm)
      rw [hsame]
  | case5 low high hlt => omega

theorem bsearchBetween_isSome (h : (table.map key).Pairwise (· ≤ ·)) {low high : Nat}
    (hhigh : high ≤ table.length)
    (hmem : ∃ k entry, low ≤ k ∧ k < high ∧ table[k]? = some entry ∧ key entry = wanted) :
    (bsearchBetween key wanted table low high).isSome := by
  have hle : ∀ {i j : Nat} {a b : ε}, i ≤ j → table[i]? = some a → table[j]? = some b →
      key a ≤ key b := by
    intro i j a b hij ha hb
    rcases Nat.lt_or_eq_of_le hij with hlt | rfl
    · obtain ⟨hi, rfl⟩ := List.getElem?_eq_some_iff.mp ha
      obtain ⟨hj, rfl⟩ := List.getElem?_eq_some_iff.mp hb
      have hpair := List.pairwise_iff_getElem.mp h i j (by simpa using hi) (by simpa using hj) hlt
      simpa using hpair
    · rw [ha] at hb
      exact le_of_eq (congrArg key (Option.some.inj hb))
  obtain ⟨k, entry, hlow, hk, hentry, hkey⟩ := hmem
  fun_induction bsearchBetween key wanted table low high with
  | case1 low high hlt hnone =>
      rw [List.getElem?_eq_none_iff] at hnone
      omega
  | case2 low high hlt other hother hless ih =>
      have hbefore : k < (low + high) / 2 := by
        by_contra hnot
        have hgreater := hle (not_lt.mp hnot) hother hentry
        rw [hkey] at hgreater
        exact absurd (hgreater.trans_lt hless) (lt_irrefl _)
      exact ih (by omega) hlow hbefore
  | case3 low high hlt other hother hnot hless ih =>
      have hbehind : (low + high) / 2 < k := by
        by_contra hnot'
        have hgreater := hle (not_lt.mp hnot') hentry hother
        rw [hkey] at hgreater
        exact absurd (hgreater.trans_lt hless) (lt_irrefl _)
      exact ih hhigh (by omega) hk
  | case4 low high hlt other hother hnot hnot' => rfl
  | case5 low high hlt => omega

/-- In a sorted table the search finds an entry with the key if there is one. -/
theorem bsearch_isSome_of_mem (h : (table.map key).Pairwise (· ≤ ·))
    (hmem : wanted ∈ table.map key) : (bsearch key wanted table).isSome := by
  obtain ⟨entry, hentry, hkey⟩ := List.mem_map.mp hmem
  obtain ⟨k, hk, rfl⟩ := List.mem_iff_getElem.mp hentry
  exact bsearchBetween_isSome h (le_refl _)
    ⟨k, table[k], Nat.zero_le k, hk, List.getElem?_eq_getElem hk, hkey⟩

/-- In a table with increasing keys the search finds the one entry with the key. -/
theorem bsearch_eq_some_iff (h : Increasing key table) {i : Nat} :
    bsearch key wanted table = some i ↔ ∃ entry, table[i]? = some entry ∧ key entry = wanted := by
  constructor
  · exact bsearch_sound
  · rintro ⟨entry, hentry, hkey⟩
    obtain ⟨hi, _⟩ := List.getElem?_eq_some_iff.mp hentry
    exact bsearchBetween_complete h le_rfl (Nat.zero_le i) hi hentry hkey

theorem bsearch_isSome_iff (h : Increasing key table) :
    (bsearch key wanted table).isSome ↔ wanted ∈ table.map key := by
  rw [Option.isSome_iff_exists, List.mem_map]
  constructor
  · rintro ⟨i, hi⟩
    obtain ⟨entry, hentry, hkey⟩ := bsearch_sound hi
    exact ⟨entry, List.mem_of_getElem? hentry, hkey⟩
  · rintro ⟨entry, hmem, hkey⟩
    obtain ⟨i, hentry⟩ := List.mem_iff_getElem?.mp hmem
    exact ⟨i, (bsearch_eq_some_iff h).mpr ⟨entry, hentry, hkey⟩⟩

end Search

section Change

variable {key : ε → κ} {table : List ε}

theorem sortByKey_perm (key : ε → κ) (table : List ε) : (sortByKey key table).Perm table :=
  List.perm_insertionSort _ table

theorem sortByKey_sorted (key : ε → κ) (table : List ε) :
    ((sortByKey key table).map key).Pairwise (· ≤ ·) := by
  have : Std.Total fun a b : ε => key a ≤ key b := ⟨fun a b => le_total (key a) (key b)⟩
  have : IsTrans ε fun a b => key a ≤ key b := ⟨fun _ _ _ => le_trans⟩
  have hle : (sortByKey key table).Pairwise fun a b => key a ≤ key b :=
    List.pairwise_insertionSort _ table
  exact List.pairwise_map.mpr hle

/-- Distinct keys increase after sorting. -/
theorem sortByKey_increasing (h : (table.map key).Nodup) :
    Increasing key (sortByKey key table) := by
  have hnodup : ((sortByKey key table).map key).Nodup :=
    ((sortByKey_perm key table).map key).nodup_iff.mpr h
  exact ((sortByKey_sorted key table).and hnodup).imp fun hab => lt_of_le_of_ne hab.1 hab.2

/-- A table in order is left as it is. -/
theorem Increasing.sortByKey_eq (h : Increasing key table) : sortByKey key table = table :=
  List.Pairwise.insertionSort_eq ((List.pairwise_map.mp h).imp le_of_lt)

theorem Increasing.nodup (h : Increasing key table) : (table.map key).Nodup :=
  List.Pairwise.imp (fun hab => ne_of_lt hab) h

/-- A new key is appended and sorted in. -/
theorem Increasing.insert (h : Increasing key table) {entry : ε}
    (hnew : key entry ∉ table.map key) :
    Increasing key (sortByKey key (table ++ [entry])) := by
  apply sortByKey_increasing
  rw [List.map_append, List.nodup_append]
  refine ⟨h.nodup, List.nodup_singleton _, ?_⟩
  intro a ha b hb hab
  rw [List.map_singleton, List.mem_singleton] at hb
  exact hnew (hb ▸ hab ▸ ha)

theorem Increasing.eraseIdx (h : Increasing key table) (i : Nat) :
    Increasing key (table.eraseIdx i) :=
  List.Pairwise.sublist ((List.eraseIdx_sublist table i).map key) h

/-- A change that keeps the keys keeps their order. -/
theorem Increasing.of_map_eq (h : Increasing key table) {other : List ε}
    (hkeys : other.map key = table.map key) : Increasing key other := by
  unfold Increasing
  rw [hkeys]
  exact h

theorem map_modify_of_keep {α : Type*} {f : ε → ε} {g : ε → α} (h : ∀ entry, g (f entry) = g entry)
    (table : List ε) (i : Nat) : (table.modify i f).map g = table.map g := by
  apply List.ext_getElem?
  intro j
  simp only [List.getElem?_map, List.getElem?_modify]
  cases table[j]? with
  | none => rfl
  | some entry =>
      by_cases hij : i = j
      · simp [hij, h]
      · simp [hij]

/-- An entry of a table after a change at one position. -/
theorem mem_of_mem_modify {f : ε → ε} {i : Nat} {entry : ε} (h : entry ∈ table.modify i f) :
    entry ∈ table ∨ ∃ before, table[i]? = some before ∧ entry = f before := by
  obtain ⟨j, hj⟩ := List.mem_iff_getElem?.mp h
  rw [List.getElem?_modify] at hj
  obtain ⟨before, hbefore, heq⟩ := Option.map_eq_some_iff.mp hj
  split at heq
  · next hij =>
      subst hij
      exact .inr ⟨before, hbefore, heq.symm⟩
  · rw [← heq]
    exact .inl (List.mem_of_getElem? hbefore)

theorem mem_map_sortByKey (key : ε → κ) (table : List ε) {k : κ} :
    k ∈ (sortByKey key table).map key ↔ k ∈ table.map key :=
  ((sortByKey_perm key table).map key).mem_iff

/-- The keys left when an entry is taken out of a table with increasing keys. -/
theorem Increasing.mem_map_eraseIdx (h : Increasing key table) {i : Nat} {entry : ε}
    (hi : table[i]? = some entry) {k : κ} :
    k ∈ (table.eraseIdx i).map key ↔ k ∈ table.map key ∧ k ≠ key entry := by
  simp only [List.mem_map, List.mem_eraseIdx_iff_getElem?]
  constructor
  · rintro ⟨other, ⟨j, hne, hj⟩, rfl⟩
    exact ⟨⟨other, List.mem_of_getElem? hj, rfl⟩, fun hkey => hne (h.position hj hi hkey)⟩
  · rintro ⟨⟨other, hmem, rfl⟩, hne⟩
    obtain ⟨j, hj⟩ := List.mem_iff_getElem?.mp hmem
    refine ⟨other, ⟨j, ?_, hj⟩, rfl⟩
    rintro rfl
    rw [hi] at hj
    exact hne (congrArg key (Option.some.inj hj).symm)

end Change

section Slices

variable {key : ε → κ} {table : List ε}

/-- In the order of the key, the entries below a key come first, then those with
the key, then those above it. -/
theorem eq_below_append_at_append_above [DecidableEq κ]
    (h : (table.map key).Pairwise (· ≤ ·)) (k : κ) :
    table = (table.filter fun entry => key entry < k) ++
      ((table.filter fun entry => key entry = k) ++ table.filter fun entry => k < key entry) := by
  induction table with
  | nil => rfl
  | cons entry table ih =>
      rw [List.map_cons, List.pairwise_cons] at h
      obtain ⟨hfirst, hrest⟩ := h
      have hle : ∀ other ∈ table, key entry ≤ key other :=
        fun other hmem => hfirst _ (List.mem_map_of_mem hmem)
      have hbelow : k ≤ key entry → table.filter (fun other => key other < k) = [] := by
        intro hk
        rw [List.filter_eq_nil_iff]
        intro other hmem
        simpa using hk.trans (hle other hmem)
      rcases lt_trichotomy (key entry) k with hlt | heq | hgt
      · rw [List.filter_cons_of_pos (by simpa using hlt),
          List.filter_cons_of_neg (by simpa using hlt.ne),
          List.filter_cons_of_neg (by simpa using hlt.le), List.cons_append]
        exact congrArg (List.cons entry) (ih hrest)
      · rw [List.filter_cons_of_neg (by simpa using heq.ge),
          List.filter_cons_of_pos (by simpa using heq),
          List.filter_cons_of_neg (by simpa using heq.le), hbelow heq.ge, List.nil_append,
          List.cons_append]
        have hsplit := ih hrest
        rw [hbelow heq.ge, List.nil_append] at hsplit
        exact congrArg (List.cons entry) hsplit
      · have hat : table.filter (fun other => key other = k) = [] := by
          rw [List.filter_eq_nil_iff]
          intro other hmem
          simpa using (hgt.trans_le (hle other hmem)).ne'
        rw [List.filter_cons_of_neg (by simpa using hgt.le),
          List.filter_cons_of_neg (by simpa using hgt.ne'),
          List.filter_cons_of_pos (by simpa using hgt), hbelow hgt.le, hat]
        have hsplit := ih hrest
        rw [hbelow hgt.le, hat] at hsplit
        exact congrArg (List.cons entry) hsplit

/-- Counting by each of several keys counts the entries with one of them. -/
theorem sum_countP_eq_countP_mem {ι : Type*} [DecidableEq ι] {key : ε → ι} {keys : List ι}
    (h : keys.Nodup) (table : List ε) :
    (keys.map fun k => table.countP fun entry => key entry = k).sum =
      table.countP fun entry => key entry ∈ keys := by
  induction table with
  | nil =>
      induction keys with
      | nil => rfl
      | cons k keys ih => simp
  | cons entry table ih =>
      have hone : (keys.map fun k => if key entry = k then 1 else 0).sum =
          if key entry ∈ keys then 1 else 0 := by
        clear ih
        induction keys with
        | nil => rfl
        | cons k keys ih =>
            obtain ⟨hnot, hrest⟩ := List.nodup_cons.mp h
            rw [List.map_cons, List.sum_cons, ih hrest]
            by_cases hk : key entry = k
            · rw [if_pos hk, hk, if_neg hnot, if_pos List.mem_cons_self]
            · rw [if_neg hk, Nat.zero_add]
              simp only [List.mem_cons, hk, false_or]
      simp only [List.countP_cons, decide_eq_true_eq]
      rw [List.sum_map_add, ih, hone]

/-- Adding up by each of the keys adds up over the table. -/
theorem sum_filter_key {ι : Type*} [DecidableEq ι] {key : ε → ι} {keys : List ι}
    (h : keys.Nodup) (f : ε → Nat) {table : List ε} (hmem : ∀ entry ∈ table, key entry ∈ keys) :
    (keys.map fun k => ((table.filter fun entry => key entry = k).map f).sum).sum =
      (table.map f).sum := by
  induction table with
  | nil => simp
  | cons entry table ih =>
      obtain ⟨hentry, hrest⟩ := List.forall_mem_cons.mp hmem
      have hone : ∀ {keys : List ι}, keys.Nodup → key entry ∈ keys →
          (keys.map fun k => if key entry = k then f entry else 0).sum = f entry := by
        intro keys h hentry
        induction keys with
        | nil => cases hentry
        | cons k keys ihkeys =>
            obtain ⟨hnot, hnodup⟩ := List.nodup_cons.mp h
            rw [List.map_cons, List.sum_cons]
            by_cases hk : key entry = k
            · have hzero : (keys.map fun k => if key entry = k then f entry else 0).sum = 0 := by
                refine List.sum_eq_zero fun n hn => ?_
                obtain ⟨k', hk', rfl⟩ := List.mem_map.mp hn
                refine if_neg fun heq => hnot ?_
                rw [← hk, heq]
                exact hk'
              rw [if_pos hk, hzero, Nat.add_zero]
            · rw [if_neg hk, Nat.zero_add]
              exact ihkeys hnodup ((List.mem_cons.mp hentry).resolve_left hk)
      have hsplit : ∀ k, (((entry :: table).filter fun entry => key entry = k).map f).sum =
          (if key entry = k then f entry else 0) +
            ((table.filter fun entry => key entry = k).map f).sum := by
        intro k
        by_cases hk : key entry = k
        · rw [List.filter_cons_of_pos (by simpa using hk), if_pos hk, List.map_cons, List.sum_cons]
        · rw [List.filter_cons_of_neg (by simpa using hk), if_neg hk, Nat.zero_add]
      simp only [hsplit]
      rw [List.sum_map_add, hone h hentry, ih hrest, List.map_cons, List.sum_cons]

/-- An entry is alone in having its key. -/
theorem Increasing.filter_key_eq (h : Increasing key table) {entry : ε} (hmem : entry ∈ table) :
    (table.filter fun other => key other = key entry) = [entry] := by
  induction table with
  | nil => cases hmem
  | cons first table ih =>
      obtain ⟨hfirst, hrest⟩ := List.pairwise_cons.mp (List.pairwise_map.mp h)
      rcases List.mem_cons.mp hmem with rfl | hlater
      · have hnone : (table.filter fun other => key other = key entry) = [] := by
          refine List.filter_eq_nil_iff.mpr fun other hother => ?_
          simpa using (hfirst other hother).ne'
        rw [List.filter_cons_of_pos (by simp), hnone]
      · have hne : ¬ key first = key entry := (hfirst entry hlater).ne
        rw [List.filter_cons_of_neg (by simpa using hne)]
        exact ih (List.pairwise_map.mpr hrest) hlater

/-- Among the keys of a table in order, those before a position are those below
the key at the position. -/
theorem Increasing.mem_take_iff (h : Increasing key table) {i : Nat} {entry : ε}
    (hi : table[i]? = some entry) {k : κ} :
    k ∈ (table.take i).map key ↔ k ∈ table.map key ∧ k < key entry := by
  simp only [List.mem_map]
  constructor
  · rintro ⟨other, hmem, rfl⟩
    obtain ⟨j, hj⟩ := List.mem_iff_getElem?.mp hmem
    rw [List.getElem?_take] at hj
    split at hj
    · next hlt => exact ⟨⟨other, List.mem_of_getElem? hj, rfl⟩, h.lt hlt hj hi⟩
    · cases hj
  · rintro ⟨⟨other, hmem, rfl⟩, hlt⟩
    obtain ⟨j, hj⟩ := List.mem_iff_getElem?.mp hmem
    have hbefore : j < i := by
      by_contra hnot
      rcases Nat.lt_or_eq_of_le (not_lt.mp hnot) with hbehind | rfl
      · exact absurd (h.lt hbehind hi hj) hlt.not_gt
      · rw [hi] at hj
        rw [Option.some.inj hj] at hlt
        exact lt_irrefl _ hlt
    refine ⟨other, List.mem_of_getElem? (i := j) ?_, rfl⟩
    rw [List.getElem?_take, if_pos hbefore]
    exact hj

end Slices

end MctDaemon.Lib
