import MctDaemon.Lib.LinkedList
import MctDaemon.Lib.Machine
import MctDaemon.Logstorage.LogFileNames

/-!
The order of the list of log files as its cells are linked. `mct_logstorage_sort_file_name`
exchanges neighbours through a pointer to the link in front of them, and
`mct_logstorage_rearrange_file_name` leads the end of the list back to its start. Both leave
the lists that `sortFileName` and `rearrangeFileName` make of the records.
-/

namespace MctDaemon.Logstorage

open Lib

universe u

variable {α : Type u} [DecidableEq α]

section Model

variable (record : α → MctLogStorageFileList)

/-- The variables of `mct_logstorage_sort_file_name`. -/
structure SortLoop (α : Type u) where
  list : Links α
  pv : Link α
  nd : α
  nx : Option α
  done : Bool
  maxIdx : Nat

def sortRound (s : SortLoop α) (nx : α) : SortLoop α :=
  if (record s.nd).idx > (record nx).idx then
    let list := ((s.list.write (.next s.nd) (s.list.next nx)).write (.next nx) (some s.nd)).write
      s.pv (some nx)
    ⟨list, .next s.nd, nx, list.next nx, false, (record s.nd).idx⟩
  else ⟨s.list, .next s.nd, nx, s.list.next nx, s.done, (record nx).idx⟩

/-- The inner loop, in at most so many rounds. -/
def sortPass : Nat → SortLoop α → Option (SortLoop α)
  | 0, _ => none
  | fuel + 1, s =>
      match s.nx with
      | none => some s
      | some nx => sortPass fuel (sortRound record s nx)

/-- The outer loop, in at most so many passes. -/
def sortPasses (rounds : Nat) : Nat → Links α → Nat → Option (Links α × Nat)
  | 0, _, _ => none
  | passes + 1, list, maxIdx =>
      match list.head with
      | none => none
      | some nd => do
          let s ← sortPass record rounds ⟨list, .head, nd, list.next nd, true, maxIdx⟩
          if s.done then return (s.list, s.maxIdx)
          sortPasses rounds passes s.list s.maxIdx

/-- `mct_logstorage_sort_file_name`. -/
def sortFileNameLinks (fuel : Nat) (list : Links α) : Option (Links α × Nat) :=
  match list.head with
  | none => some (list, 0)
  | some first =>
      match list.next first with
      | none => some (list, 0)
      | some _ => sortPasses record fuel fuel list 0

/-- The variables of `mct_logstorage_rearrange_file_name`. -/
structure GapScan (α : Type u) where
  prev : Option α
  wrapPre : Option α
  wrapPost : Option α

/-- A round of its loop. -/
def gapRound (s : GapScan α) (n : α) : GapScan α :=
  match s.prev with
  | none => { s with prev := some n }
  | some prev =>
      if s.wrapPost = none ∧ s.wrapPre = none ∧
          uint32 ((record n).idx - (record prev).idx) ≠ 1 then
        ⟨some n, some prev, some n⟩
      else { s with prev := some n }

/-- The loop, in at most so many rounds. -/
def gapScan (list : Links α) : Nat → Option α → GapScan α → Option (GapScan α)
  | 0, _, _ => none
  | _ + 1, none, s => some s
  | fuel + 1, some n, s => gapScan list fuel (list.next n) (gapRound record s n)

/-- `mct_logstorage_rearrange_file_name`. -/
def rearrangeFileNameLinks (fuel : Nat) (list : Links α) : Option (Links α) :=
  match list.head with
  | none => some list
  | some first =>
      match list.next first with
      | none => some list
      | some _ =>
          if (record first).idx ≠ 1 then some list
          else do
            let s ← gapScan record list fuel (some first) ⟨none, none, none⟩
            match s.wrapPost, s.wrapPre, s.prev with
            | some post, some pre, some tail =>
                let cut := list.write (.next pre) none
                return { cut.write (.next tail) cut.head with head := some post }
            | _, _, _ => return list

end Model

def cellIdx (record : α → MctLogStorageFileList) : α → Nat := MctLogStorageFileList.idx ∘ record

section Sorting

variable {record : α → MctLogStorageFileList}

/-- The inner loop stands at the cell `a`, with `pv` at the link in front of it. -/
structure StandsAt (front : List α) (a : α) (rest : List α) (s : SortLoop α) : Prop where
  holds : s.list.Holds (front ++ a :: rest)
  nodup : (front ++ a :: rest).Nodup
  pv_eq : s.pv = Links.lastLink front
  nd_eq : s.nd = a
  nx_eq : s.nx = s.list.next a

omit [DecidableEq α] in
theorem StandsAt.next_cons {front rest : List α} {a b : α} {s : SortLoop α}
    (h : StandsAt front a (b :: rest) s) : s.nx = some b := by
  rw [h.nx_eq]
  exact (reaches_append_cons.mp h.holds).2.1

omit [DecidableEq α] in
theorem StandsAt.next_nil {front : List α} {a : α} {s : SortLoop α}
    (h : StandsAt front a [] s) : s.nx = none := by
  rw [h.nx_eq]
  exact (reaches_append_cons.mp h.holds).2

/-- A round that leaves the neighbours goes on to the next cell. -/
theorem StandsAt.pass {front rest : List α} {a b : α} {s : SortLoop α}
    (h : StandsAt front a (b :: rest) s) (hle : ¬ cellIdx record b < cellIdx record a) :
    StandsAt (front ++ [a]) b rest (sortRound record s b) ∧
      (sortRound record s b).done = s.done ∧
      (sortRound record s b).maxIdx = cellIdx record b := by
  have hround : sortRound record s b =
      ⟨s.list, .next s.nd, b, s.list.next b, s.done, (record b).idx⟩ := by
    unfold sortRound
    rw [h.nd_eq]
    exact if_neg hle
  rw [hround]
  refine ⟨⟨?_, ?_, ?_, rfl, rfl⟩, rfl, rfl⟩
  · rw [List.append_assoc]
    exact h.holds
  · rw [List.append_assoc]
    exact h.nodup
  · rw [Links.lastLink_concat, h.nd_eq]

/-- After a round that exchanges the neighbours `pv` is one link too far on, and the next
round, which compares the two again, sets that right. -/
theorem StandsAt.exchange {front rest : List α} {a b : α} {s : SortLoop α}
    (h : StandsAt front a (b :: rest) s) (hlt : cellIdx record b < cellIdx record a) :
    (sortRound record s b).nx = some a ∧
      StandsAt (front ++ [b]) a rest (sortRound record (sortRound record s b) a) ∧
      (sortRound record (sortRound record s b) a).done = false ∧
      (sortRound record (sortRound record s b) a).maxIdx = cellIdx record a := by
  have hswapped := h.holds.swap h.nodup
  generalize hlist : ((s.list.write (.next a) (s.list.next b)).write (.next b) (some a)).write
    (Links.lastLink front) (some b) = list at hswapped
  obtain ⟨hfront, hb, hrest⟩ := reaches_append_cons.mp hswapped
  have hround : sortRound record s b =
      ⟨list, .next a, b, list.next b, false, (record a).idx⟩ := by
    unfold sortRound
    rw [h.nd_eq, h.pv_eq]
    simp only [hlist]
    exact if_pos hlt
  have hagain : sortRound record (sortRound record s b) a =
      ⟨list, .next b, a, list.next a, false, (record a).idx⟩ := by
    rw [hround]
    unfold sortRound
    exact if_neg (not_lt.mpr (le_of_lt hlt))
  rw [hagain, hround]
  refine ⟨hb, ⟨?_, ?_, ?_, rfl, rfl⟩, rfl, rfl⟩
  · rw [List.append_assoc]
    exact hswapped
  · rw [List.append_assoc]
    refine (List.Perm.nodup_iff ?_).mp h.nodup
    exact (List.Perm.swap b a rest).append_left front
  · rw [Links.lastLink_concat]

def lastIdx (record : α → MctLogStorageFileList) (cells : List α) : Nat :=
  (cells.getLast?.map (cellIdx record)).getD 0

omit [DecidableEq α] in
theorem lastIdx_cons {a : α} {cells : List α} (h : cells ≠ []) :
    lastIdx record (a :: cells) = lastIdx record cells := by
  unfold lastIdx
  rw [List.getLast?_cons_of_ne_nil h]

/-- A pass of the code leaves the list that a pass over the cells leaves. -/
theorem sortPass_spec {front rest : List α} {a : α} {s : SortLoop α}
    (h : StandsAt front a rest s) :
    ∃ s', (∀ fuel, 2 * rest.length + 1 ≤ fuel → sortPass record fuel s = some s') ∧
      s'.list.Holds (front ++ (bubbleFrom (cellIdx record) a rest).2) ∧
      s'.done = (s.done && !(bubbleFrom (cellIdx record) a rest).1) ∧
      s'.maxIdx = if rest = [] then s.maxIdx
        else lastIdx record (bubbleFrom (cellIdx record) a rest).2 := by
  have hne : ∀ (a : α) (rest : List α), (bubbleFrom (cellIdx record) a rest).2 ≠ [] := by
    intro a rest hnil
    have hlength := (@bubbleFrom_perm _ _ _ (cellIdx record) a rest).length_eq
    rw [hnil] at hlength
    cases hlength
  induction rest generalizing front a s with
  | nil =>
      refine ⟨s, ?_, h.holds, ?_, rfl⟩
      · intro fuel hfuel
        obtain ⟨fuel, rfl⟩ := Nat.exists_eq_succ_of_ne_zero (by omega : fuel ≠ 0)
        rw [sortPass, h.next_nil]
      · rw [bubbleFrom, Bool.not_false, Bool.and_true]
  | cons b rest ih =>
      rw [if_neg (List.cons_ne_nil b rest)]
      have hlast : ∀ (c : α) (s' : SortLoop α), s'.maxIdx = cellIdx record c →
          (if rest = [] then s'.maxIdx else lastIdx record (bubbleFrom (cellIdx record) c rest).2) =
            lastIdx record (bubbleFrom (cellIdx record) c rest).2 := by
        intro c s' hmax
        split
        · next hnil =>
            rw [hmax, hnil]
            rfl
        · rfl
      by_cases hlt : cellIdx record b < cellIdx record a
      · obtain ⟨hnx, hstands, hdone, hmax⟩ := h.exchange hlt
        obtain ⟨s', hpass, hholds, hdone', hmax'⟩ := ih hstands
        rw [bubbleFrom, if_pos hlt]
        refine ⟨s', ?_, ?_, ?_, ?_⟩
        · intro fuel hfuel
          rw [List.length_cons] at hfuel
          obtain ⟨fuel, rfl⟩ := Nat.exists_eq_add_of_le' (by omega : 2 ≤ fuel)
          rw [sortPass, h.next_cons]
          simp only
          rw [sortPass, hnx]
          exact hpass fuel (by omega)
        · rw [List.append_assoc] at hholds
          exact hholds
        · rw [hdone', hdone, Bool.false_and, Bool.not_true, Bool.and_false]
        · rw [hmax', hlast a _ hmax, lastIdx_cons (hne a rest)]
      · obtain ⟨hstands, hdone, hmax⟩ := h.pass hlt
        obtain ⟨s', hpass, hholds, hdone', hmax'⟩ := ih hstands
        rw [bubbleFrom, if_neg hlt]
        refine ⟨s', ?_, ?_, ?_, ?_⟩
        · intro fuel hfuel
          rw [List.length_cons] at hfuel
          obtain ⟨fuel, rfl⟩ := Nat.exists_eq_succ_of_ne_zero (by omega : fuel ≠ 0)
          rw [sortPass, h.next_cons]
          exact hpass fuel (by omega)
        · rw [List.append_assoc] at hholds
          exact hholds
        · rw [hdone', hdone]
        · rw [hmax', hlast b _ hmax, lastIdx_cons (hne b rest)]

/-- A round of the outer loop. -/
theorem sortPasses_succ {cells : List α} {list : Links α} (h : list.Holds cells)
    (htwo : 2 ≤ cells.length) (maxIdx : Nat) :
    ∃ s : SortLoop α, (∀ rounds passes, 2 * cells.length ≤ rounds →
        sortPasses record rounds (passes + 1) list maxIdx =
          if s.done then some (s.list, s.maxIdx)
          else sortPasses record rounds passes s.list s.maxIdx) ∧
      s.list.Holds (bubblePass (cellIdx record) cells).2 ∧
      s.done = !(bubblePass (cellIdx record) cells).1 ∧
      s.maxIdx = lastIdx record (bubblePass (cellIdx record) cells).2 := by
  obtain ⟨a, b, rest, rfl⟩ : ∃ a b rest, cells = a :: b :: rest := by
    rcases cells with _ | ⟨a, _ | ⟨b, rest⟩⟩
    · simp at htwo
    · simp at htwo
    · exact ⟨a, b, rest, rfl⟩
  obtain ⟨hhead, -⟩ := id h
  have hstart : StandsAt [] a (b :: rest) ⟨list, .head, a, list.next a, true, maxIdx⟩ :=
    ⟨h, h.nodup, rfl, rfl, rfl⟩
  obtain ⟨s, hpass, hholds, hdone, hmax⟩ := @sortPass_spec α _ record [] (b :: rest) a _ hstart
  refine ⟨s, ?_, hholds, hdone, hmax⟩
  intro rounds passes hrounds
  rw [List.length_cons] at hrounds
  simp only [sortPasses, hhead, hpass rounds (by omega), Option.bind_eq_bind, Option.bind_some,
    Option.pure_def]

/-- The passes leave the sorted list. -/
theorem sortPasses_spec {cells : List α} {list : Links α} (h : list.Holds cells)
    (htwo : 2 ≤ cells.length) (maxIdx : Nat) :
    ∃ list', (∀ rounds passes, 2 * cells.length ≤ rounds →
        inversions (cellIdx record) cells < passes →
        sortPasses record rounds passes list maxIdx =
          some (list', lastIdx record (bubbleSort (cellIdx record) cells))) ∧
      list'.Holds (bubbleSort (cellIdx record) cells) := by
  fun_induction bubbleSort (cellIdx record) cells generalizing list maxIdx with
  | case1 cells hswaps ih =>
      obtain ⟨s, hround, hholds, hdone, -⟩ := @sortPasses_succ α _ record _ _ h htwo maxIdx
      rw [hswaps, Bool.not_true] at hdone
      have hperm := @bubblePass_perm _ _ _ (cellIdx record) cells
      obtain ⟨list', hrest, hresult⟩ := ih hholds (hperm.length_eq ▸ htwo) s.maxIdx
      refine ⟨list', ?_, hresult⟩
      intro rounds passes hrounds hpasses
      have hfewer := inversions_bubblePass hswaps
      obtain ⟨passes, rfl⟩ := Nat.exists_eq_succ_of_ne_zero (by omega : passes ≠ 0)
      rw [hround rounds passes hrounds, hdone, if_neg (by decide)]
      apply hrest
      · rw [hperm.length_eq]
        exact hrounds
      · omega
  | case2 cells hswaps =>
      obtain ⟨s, hround, hholds, hdone, hmax⟩ := @sortPasses_succ α _ record _ _ h htwo maxIdx
      rw [Bool.not_eq_true] at hswaps
      rw [(bubblePass_sorted hswaps).1] at hholds hmax
      rw [hswaps, Bool.not_false] at hdone
      refine ⟨s.list, ?_, hholds⟩
      intro rounds passes hrounds hpasses
      obtain ⟨passes, rfl⟩ := Nat.exists_eq_succ_of_ne_zero (by omega : passes ≠ 0)
      rw [hround rounds passes hrounds, hdone, if_pos rfl, hmax]

omit [DecidableEq α] in
/-- The records of the cells are sorted as the cells are. -/
theorem sortFileName_map {cells : List α} (htwo : 2 ≤ cells.length) :
    sortFileName (cells.map record) =
      ((bubbleSort (cellIdx record) cells).map record,
        lastIdx record (bubbleSort (cellIdx record) cells)) := by
  unfold sortFileName
  rw [if_neg (by rw [List.length_map]; omega), bubbleSort_map]
  simp only [List.getLast?_map, Option.map_map]
  rfl

/-- `mct_logstorage_sort_file_name` leaves the cells in the order of `sortFileName`. -/
theorem sortFileNameLinks_spec {cells : List α} {list : Links α} (h : list.Holds cells)
    (htwo : 2 ≤ cells.length) :
    ∃ list', (∀ fuel, 2 * cells.length + inversions (cellIdx record) cells ≤ fuel →
        sortFileNameLinks record fuel list = some (list', (sortFileName (cells.map record)).2)) ∧
      list'.Holds (bubbleSort (cellIdx record) cells) ∧
      (bubbleSort (cellIdx record) cells).map record = (sortFileName (cells.map record)).1 := by
  obtain ⟨list', hpasses, hholds⟩ := @sortPasses_spec α _ record _ _ h htwo 0
  rw [sortFileName_map htwo]
  refine ⟨list', ?_, hholds, rfl⟩
  intro fuel hfuel
  obtain ⟨a, b, rest, rfl⟩ : ∃ a b rest, cells = a :: b :: rest := by
    rcases cells with _ | ⟨a, _ | ⟨b, rest⟩⟩
    · simp at htwo
    · simp at htwo
    · exact ⟨a, b, rest, rfl⟩
  obtain ⟨hhead, hnext, -⟩ := id h
  unfold sortFileNameLinks
  rw [hhead]
  simp only [hnext]
  apply hpasses
  · omega
  · omega

end Sorting

section Rotation

variable {record : α → MctLogStorageFileList}

omit [DecidableEq α] in
/-- The loop makes a round at every cell. -/
theorem gapScan_spec {cells : List α} {list : Links α} {p : Option α} {s : GapScan α} {fuel : Nat}
    (h : Reaches list.next p cells none) (hfuel : cells.length < fuel) :
    gapScan record list fuel p s = some (cells.foldl (gapRound record) s) := by
  induction cells generalizing p s fuel with
  | nil =>
      obtain ⟨fuel, rfl⟩ := Nat.exists_eq_succ_of_ne_zero (by omega : fuel ≠ 0)
      cases h
      rw [gapScan, List.foldl_nil]
  | cons a cells ih =>
      obtain ⟨fuel, rfl⟩ := Nat.exists_eq_succ_of_ne_zero (by omega : fuel ≠ 0)
      obtain ⟨rfl, hrest⟩ := h
      rw [gapScan, List.foldl_cons]
      exact ih hrest (by simpa using hfuel)

omit [DecidableEq α] in
/-- Once a gap is found the rounds only look for the tail. -/
theorem gapRounds_found {cells : List α} {tail pre post : α} :
    cells.foldl (gapRound record) ⟨some tail, some pre, some post⟩ =
      ⟨some ((tail :: cells).getLast (List.cons_ne_nil tail cells)), some pre, some post⟩ := by
  induction cells generalizing tail with
  | nil => rfl
  | cons a cells ih =>
      rw [List.foldl_cons, List.getLast_cons (List.cons_ne_nil a cells)]
      have hround : gapRound record ⟨some tail, some pre, some post⟩ a =
          ⟨some a, some pre, some post⟩ := by
        unfold gapRound
        exact if_neg (fun h => by cases h.1)
      rw [hround]
      exact ih

/-- The difference of two indices in `unsigned int`. -/
theorem uint32_idx_gap {a b : Nat} (hless : a < b) (hb : b < 4294967296) :
    uint32 (b - a) ≠ 1 ↔ b ≠ a + 1 := by
  rw [uint32_of_small (by omega) (by omega)]
  omega

omit [DecidableEq α] in
/-- The rounds find the gap where `splitGap` splits the records. -/
theorem gapRounds_spec {a : α} {rest : List α}
    (hsorted : ((a :: rest).map (cellIdx record)).Pairwise (· < ·))
    (hsmall : ∀ c ∈ a :: rest, cellIdx record c < 4294967296) :
    ∃ front back, a :: rest = front ++ back ∧
      front.map record = (splitGap ((a :: rest).map record)).1 ∧
      back.map record = (splitGap ((a :: rest).map record)).2 ∧
      rest.foldl (gapRound record) ⟨some a, none, none⟩ =
        ⟨(a :: rest).getLast?, if back = [] then none else front.getLast?, back.head?⟩ := by
  induction rest generalizing a with
  | nil => exact ⟨[a], [], rfl, rfl, rfl, rfl⟩
  | cons b rest ih =>
      rw [List.map_cons, List.pairwise_cons] at hsorted
      obtain ⟨hfirst, hsorted⟩ := hsorted
      have hless : cellIdx record a < cellIdx record b := hfirst _ (by simp)
      have hb : cellIdx record b < 4294967296 := hsmall b (by simp)
      have hgap := uint32_idx_gap hless hb
      by_cases hnext : (record b).idx = (record a).idx + 1
      · obtain ⟨front, back, hcells, hfront, hback, hfold⟩ :=
          ih hsorted (fun c hc => hsmall c (List.mem_cons_of_mem a hc))
        have hfrontNe : front ≠ [] := by
          rintro rfl
          exact MctLogStorageUserConfig.splitGap_ne_nil (by simp) hfront.symm
        refine ⟨a :: front, back, ?_, ?_, ?_, ?_⟩
        · rw [hcells, List.cons_append]
        · rw [List.map_cons, hfront]
          simp only [List.map_cons]
          rw [splitGap, if_neg (not_not.mpr hnext)]
        · rw [hback]
          simp only [List.map_cons]
          rw [splitGap, if_neg (not_not.mpr hnext)]
        · have hround : gapRound record ⟨some a, none, none⟩ b = ⟨some b, none, none⟩ := by
            unfold gapRound
            exact if_neg (fun h => hgap.mp h.2.2 hnext)
          rw [List.foldl_cons, hround, hfold, List.getLast?_cons_of_ne_nil hfrontNe,
            List.getLast?_cons_of_ne_nil (List.cons_ne_nil b rest)]
      · refine ⟨[a], b :: rest, rfl, ?_, ?_, ?_⟩
        · simp only [List.map_cons, List.map_nil]
          rw [splitGap, if_pos hnext]
        · simp only [List.map_cons]
          rw [splitGap, if_pos hnext]
        · have hround : gapRound record ⟨some a, none, none⟩ b = ⟨some b, some a, some b⟩ := by
            unfold gapRound
            exact if_pos ⟨rfl, rfl, hgap.mpr hnext⟩
          rw [List.foldl_cons, hround, gapRounds_found, if_neg (List.cons_ne_nil b rest),
            List.getLast?_cons_of_ne_nil (List.cons_ne_nil b rest),
            List.getLast?_eq_some_getLast (List.cons_ne_nil b rest)]
          rfl

/-- `mct_logstorage_rearrange_file_name` leaves the cells in the order of
`rearrangeFileName`. -/
theorem rearrangeFileNameLinks_spec {cells : List α} {list : Links α} (h : list.Holds cells)
    (hsorted : (cells.map (cellIdx record)).Pairwise (· < ·))
    (hsmall : ∀ c ∈ cells, cellIdx record c < 4294967296) :
    ∃ list' rotated, (∀ fuel, cells.length < fuel →
        rearrangeFileNameLinks record fuel list = some list') ∧
      list'.Holds rotated ∧ rotated.Perm cells ∧
      rotated.map record = rearrangeFileName (cells.map record) := by
  rcases cells with _ | ⟨a, _ | ⟨b, rest⟩⟩
  · refine ⟨list, [], ?_, h, List.Perm.refl _, rfl⟩
    intro fuel hfuel
    unfold rearrangeFileNameLinks
    rw [show list.head = none from h]
  · refine ⟨list, [a], ?_, h, List.Perm.refl _, rfl⟩
    intro fuel hfuel
    obtain ⟨hhead, hnext⟩ := id h
    unfold rearrangeFileNameLinks
    rw [hhead]
    simp only [reaches_nil] at hnext
    simp only [hnext]
  · obtain ⟨hhead, hnext, -⟩ := id h
    by_cases hone : (record a).idx = 1
    · obtain ⟨front, back, hcells, hfront, hback, hfold⟩ := gapRounds_spec hsorted hsmall
      have hscan : ∀ fuel, (a :: b :: rest).length < fuel →
          gapScan record list fuel (some a) ⟨none, none, none⟩ =
            some ⟨(a :: b :: rest).getLast?, if back = [] then none else front.getLast?,
              back.head?⟩ := by
        intro fuel hfuel
        have hreaches : Reaches list.next (some a) (a :: b :: rest) none := hhead ▸ h
        rw [gapScan_spec hreaches hfuel, List.foldl_cons]
        exact congrArg some hfold
      have hresult : rearrangeFileName ((a :: b :: rest).map record) =
          (back ++ front).map record := by
        rw [List.map_append, hback, hfront]
        unfold rearrangeFileName
        simp only [List.map_cons, if_neg (not_not.mpr hone)]
      have hstarted : ∀ fuel, rearrangeFileNameLinks record fuel list = do
          let s ← gapScan record list fuel (some a) ⟨none, none, none⟩
          match s.wrapPost, s.wrapPre, s.prev with
          | some post, some pre, some tail =>
              let cut := list.write (.next pre) none
              return { cut.write (.next tail) cut.head with head := some post }
          | _, _, _ => return list := by
        intro fuel
        unfold rearrangeFileNameLinks
        rw [hhead]
        simp only [hnext, if_neg (not_not.mpr hone)]
      cases back with
      | nil =>
          refine ⟨list, a :: b :: rest, ?_, h, List.Perm.refl _, ?_⟩
          · intro fuel hfuel
            rw [hstarted, hscan fuel hfuel]
            rfl
          · rw [hresult, hcells, List.append_nil, List.nil_append]
      | cons post back =>
          have hfrontNe : front ≠ [] := by
            rintro rfl
            exact MctLogStorageUserConfig.splitGap_ne_nil (by simp) hfront.symm
          have hrotate := Links.Holds.rotate (hcells ▸ h) (hcells ▸ h.nodup) hfrontNe
          obtain ⟨front, pre, rfl⟩ := (List.eq_nil_or_concat' front).resolve_left hfrontNe
          have htail : (post :: back).getLast? = some ((post :: back).getLast (by simp)) :=
            List.getLast?_eq_some_getLast _
          generalize (post :: back).getLast (by simp) = tail at htail
          have hlast : (a :: b :: rest).getLast? = some tail := by
            rw [hcells, List.getLast?_append_of_ne_nil _ (List.cons_ne_nil post back), htail]
          have hpre : (front ++ [pre]).getLast? = some pre := List.getLast?_concat
          rw [Links.lastLink_concat, Links.lastLink, htail] at hrotate
          refine ⟨_, post :: back ++ (front ++ [pre]), ?_, hrotate, ?_, hresult.symm⟩
          · intro fuel hfuel
            rw [hstarted, hscan fuel hfuel, hlast, hpre, if_neg (List.cons_ne_nil post back)]
            rfl
          · rw [hcells]
            exact List.perm_append_comm
    · refine ⟨list, a :: b :: rest, ?_, h, List.Perm.refl _, ?_⟩
      · intro fuel hfuel
        unfold rearrangeFileNameLinks
        rw [hhead]
        simp only [hnext, if_pos hone]
      · unfold rearrangeFileName
        simp only [List.map_cons, if_pos hone]

end Rotation

section Window

variable {records : List MctLogStorageFileList}

/-- The indices from `k` up to the biggest one `M`, and on from 1 up to `j`. -/
def cyclicWindow (k M j : Nat) : List Nat := List.range' k (M + 1 - k) ++ List.range' 1 j

/-- In ascending order the window starts with the indices behind the biggest one. -/
theorem sorted_window {k M j : Nat} {indices : List Nat} (hj : j + 1 < k)
    (hperm : indices.Perm (cyclicWindow k M j)) (hsorted : indices.Pairwise (· ≤ ·)) :
    indices = List.range' 1 j ++ List.range' k (M + 1 - k) := by
  have hwindow : (List.range' 1 j ++ List.range' k (M + 1 - k)).Pairwise (· ≤ ·) := by
    rw [List.pairwise_append]
    refine ⟨List.pairwise_le_range' 1, List.pairwise_le_range' 1, ?_⟩
    intro low hlow high hhigh
    rw [List.mem_range'_1] at hlow hhigh
    omega
  exact (hperm.trans List.perm_append_comm).eq_of_pairwise' hsorted hwindow

/-- The records are split where the window is. -/
theorem splitGap_window {s m k n : Nat} (hgap : s + m + 1 < k)
    (h : records.map MctLogStorageFileList.idx = List.range' s (m + 1) ++ List.range' k n) :
    (splitGap records).1.map MctLogStorageFileList.idx = List.range' s (m + 1) ∧
      (splitGap records).2.map MctLogStorageFileList.idx = List.range' k n := by
  induction m generalizing records s with
  | zero =>
      rw [List.range'_succ, List.range'_zero, List.singleton_append] at h
      obtain ⟨a, rest, rfl, ha, hrest⟩ := List.map_eq_cons_iff.mp h
      rw [List.range'_succ, List.range'_zero]
      cases rest with
      | nil => exact ⟨congrArg (· :: []) ha, hrest⟩
      | cons b rest =>
          cases n with
          | zero => cases hrest
          | succ n =>
              have hb : b.idx = k := (List.cons.inj hrest).1
              rw [splitGap, if_pos (by omega)]
              exact ⟨congrArg (· :: []) ha, hrest⟩
  | succ m ih =>
      rw [List.range'_succ, List.cons_append] at h
      obtain ⟨a, rest, rfl, ha, hrest⟩ := List.map_eq_cons_iff.mp h
      obtain ⟨hlow, hhigh⟩ := ih (by omega) hrest
      cases rest with
      | nil => cases hrest
      | cons b rest =>
          have hb : b.idx = s + 1 := (List.cons.inj hrest).1
          rw [splitGap, if_neg (by omega), List.range'_succ]
          exact ⟨by rw [List.map_cons, ha, hlow], hhigh⟩

/-- The records are led into the order of the window. -/
theorem rearrangeFileName_window {k M j : Nat} (hk : k ≤ M) (hj : j + 1 < k)
    (hperm : (records.map MctLogStorageFileList.idx).Perm (cyclicWindow k M j))
    (hsorted : (records.map MctLogStorageFileList.idx).Pairwise (· ≤ ·)) :
    (rearrangeFileName records).map MctLogStorageFileList.idx = cyclicWindow k M j := by
  have hindices := sorted_window hj hperm hsorted
  obtain ⟨n, hn⟩ : ∃ n, M + 1 - k = n + 1 := ⟨M - k, by omega⟩
  rw [hn] at hindices
  rw [cyclicWindow, hn]
  cases j with
  | zero =>
      rw [List.range'_zero, List.nil_append] at hindices
      rw [List.range'_zero, List.append_nil, ← hindices]
      rw [List.range'_succ] at hindices
      obtain ⟨a, rest, rfl, ha, -⟩ := List.map_eq_cons_iff.mp hindices
      unfold rearrangeFileName
      cases rest with
      | nil => rfl
      | cons b rest => simp only [if_pos (by omega : a.idx ≠ 1)]
  | succ j =>
      obtain ⟨hlow, hhigh⟩ := splitGap_window (by omega) hindices
      rw [List.range'_succ, List.cons_append] at hindices
      obtain ⟨a, rest, rfl, ha, hrest⟩ := List.map_eq_cons_iff.mp hindices
      unfold rearrangeFileName
      cases rest with
      | nil =>
          rw [List.map_nil, List.range'_succ] at hrest
          exact absurd hrest.symm (by simp)
      | cons b rest =>
          simp only [if_neg (not_not.mpr ha)]
          rw [List.map_append, hlow, hhigh]

end Window

section Order

/-- The list is sorted, its biggest index is returned, and a list whose indices are those of a
window is led into the order of the window. -/
theorem file_list_order {record : α → MctLogStorageFileList} {cells : List α} {list : Links α}
    (h : list.Holds cells) (htwo : 2 ≤ cells.length)
    (hidx : ∀ c ∈ cells, 1 ≤ (record c).idx ∧ (record c).idx < 4294967296) :
    ∃ bound list' sorted maxIdx,
      (∀ fuel, bound ≤ fuel → sortFileNameLinks record fuel list = some (list', maxIdx)) ∧
      list'.Holds sorted ∧ sorted.Perm cells ∧
      (sorted.map (cellIdx record)).Pairwise (· ≤ ·) ∧
      maxIdx ∈ cells.map (cellIdx record) ∧ (∀ c ∈ cells, cellIdx record c ≤ maxIdx) ∧
      ∀ k M j, k ≤ M → j + 1 < k → (cells.map (cellIdx record)).Perm (cyclicWindow k M j) →
        ∃ list'' window,
          (∀ fuel, bound ≤ fuel → rearrangeFileNameLinks record fuel list' = some list'') ∧
          list''.Holds window ∧ window.Perm cells ∧
          window.map (cellIdx record) = cyclicWindow k M j := by
  obtain ⟨list', hsort, hholds, -⟩ := @sortFileNameLinks_spec α _ record _ _ h htwo
  rw [sortFileName_map htwo] at hsort
  have hperm := @bubbleSort_perm _ _ _ (cellIdx record) cells
  have hsorted := @bubbleSort_sorted _ _ _ (cellIdx record) cells
  generalize bubbleSort (cellIdx record) cells = sorted at *
  have hmax : lastIdx record sorted ∈ cells.map (cellIdx record) ∧
      ∀ c ∈ cells, cellIdx record c ≤ lastIdx record sorted := by
    rcases List.eq_nil_or_concat' sorted with rfl | ⟨front, a, rfl⟩
    · have hlength := hperm.length_eq
      rw [List.length_nil] at hlength
      omega
    · have hlast : lastIdx record (front ++ [a]) = cellIdx record a := by
        unfold lastIdx
        rw [List.getLast?_concat]
        rfl
      rw [hlast]
      refine ⟨List.mem_map_of_mem (hperm.mem_iff.mp (by simp)), ?_⟩
      intro c hc
      rw [List.map_append, List.pairwise_append] at hsorted
      rcases List.mem_append.mp (hperm.mem_iff.mpr hc) with hfront | hlast
      · exact hsorted.2.2 _ (List.mem_map_of_mem hfront) _ (by simp)
      · rw [List.mem_singleton.mp hlast]
  refine ⟨2 * cells.length + inversions (cellIdx record) cells, list', sorted,
    lastIdx record sorted, hsort, hholds, hperm, hsorted, hmax.1, hmax.2, ?_⟩
  intro k M j hk hj hwindow
  have hindices : (sorted.map (cellIdx record)).Perm (cyclicWindow k M j) :=
    (hperm.map (cellIdx record)).trans hwindow
  have hstrict : (sorted.map (cellIdx record)).Pairwise (· < ·) := by
    rw [sorted_window hj hindices hsorted, List.pairwise_append]
    refine ⟨List.pairwise_lt_range' 1, List.pairwise_lt_range' 1, ?_⟩
    intro low hlow high hhigh
    rw [List.mem_range'_1] at hlow hhigh
    omega
  have hsmall : ∀ c ∈ sorted, cellIdx record c < 4294967296 :=
    fun c hc => (hidx c (hperm.mem_iff.mp hc)).2
  obtain ⟨list'', window, hrearrange, hholds', hperm', hrecords⟩ :=
    rearrangeFileNameLinks_spec hholds hstrict hsmall
  refine ⟨list'', window, ?_, hholds', hperm'.trans hperm, ?_⟩
  · intro fuel hfuel
    apply hrearrange
    rw [hperm.length_eq]
    omega
  · have hidxs : ∀ cells : List α,
        (cells.map record).map MctLogStorageFileList.idx = cells.map (cellIdx record) :=
      fun cells => List.map_map
    rw [← hidxs, hrecords]
    apply rearrangeFileName_window hk hj
    · rw [hidxs]
      exact hindices
    · rw [hidxs]
      exact hsorted

/-- Three files of a counter that has begun again with 1. -/
def wrappedFiles (cell : Nat) : MctLogStorageFileList :=
  ⟨['a'], [4, 1, 3].getD cell 0⟩

theorem file_list_order_wrapped :
    ∃ bound list' window, (∀ fuel, bound ≤ fuel →
        (sortFileNameLinks wrappedFiles fuel
          ⟨some 0, fun cell => if cell < 2 then some (cell + 1) else none⟩).bind
            (fun result => rearrangeFileNameLinks wrappedFiles fuel result.1) = some list') ∧
      list'.Holds window ∧ window.map (cellIdx wrappedFiles) = [3, 4, 1] := by
  obtain ⟨bound, list', sorted, maxIdx, hsort, -, -, -, -, -, hwindow⟩ :=
    @file_list_order Nat _ wrappedFiles [0, 1, 2]
      ⟨some 0, fun cell => if cell < 2 then some (cell + 1) else none⟩
      (by simp [Links.Holds]) (by decide) (by decide)
  obtain ⟨list'', window, hrearrange, hholds, -, hindices⟩ :=
    hwindow 3 4 1 (by decide) (by decide) (by decide)
  refine ⟨bound, list'', window, ?_, hholds, hindices⟩
  intro fuel hfuel
  rw [hsort fuel hfuel]
  exact hrearrange fuel hfuel

end Order

end MctDaemon.Logstorage
