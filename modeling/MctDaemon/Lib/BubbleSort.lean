import Mathlib.Data.List.Sort
import Mathlib.Tactic

/-!
Bubble sort of a list by a key: passes that swap neighbours out of order, until
a pass swaps none. Each pass with a swap leaves fewer inversions.
-/

namespace MctDaemon.Lib

universe u v

variable {ε : Type u} {κ : Type v} [LinearOrder κ]

/-- The pass from an entry on: whether it swapped, and the list it leaves. -/
def bubbleFrom (key : ε → κ) : ε → List ε → Bool × List ε
  | a, [] => (false, [a])
  | a, b :: rest =>
      if key b < key a then (true, b :: (bubbleFrom key a rest).2)
      else ((bubbleFrom key b rest).1, a :: (bubbleFrom key b rest).2)

def bubblePass (key : ε → κ) : List ε → Bool × List ε
  | [] => (false, [])
  | a :: rest => bubbleFrom key a rest

/-- The pairs of entries that stand in the wrong order. -/
def inversions (key : ε → κ) : List ε → Nat
  | [] => 0
  | a :: rest => (rest.countP fun b => key b < key a) + inversions key rest

section Pass

variable {key : ε → κ}

theorem bubbleFrom_perm (a : ε) (rest : List ε) : (bubbleFrom key a rest).2.Perm (a :: rest) := by
  induction rest generalizing a with
  | nil => exact List.Perm.refl _
  | cons b rest ih =>
      rw [bubbleFrom]
      split
      · exact ((ih a).cons b).trans (List.Perm.swap a b rest)
      · exact (ih b).cons a

theorem bubblePass_perm (list : List ε) : (bubblePass key list).2.Perm list := by
  cases list with
  | nil => exact List.Perm.refl _
  | cons a rest => exact bubbleFrom_perm a rest

theorem inversions_bubbleFrom (a : ε) (rest : List ε) :
    inversions key (bubbleFrom key a rest).2 + (bubbleFrom key a rest).1.toNat ≤
      inversions key (a :: rest) := by
  induction rest generalizing a with
  | nil => exact le_refl _
  | cons b rest ih =>
      rw [bubbleFrom]
      split
      · next hlt =>
          have hperm : (bubbleFrom key a rest).2.Perm (a :: rest) := bubbleFrom_perm a rest
          have hsame := hperm.countP_eq fun c => key c < key b
          rw [List.countP_cons_of_neg (by simpa using hlt.le)] at hsame
          have hrest := ih a
          simp only [inversions, hsame, List.countP_cons_of_pos (p := fun c => key c < key a)
            (by simpa using hlt), Bool.toNat_true] at hrest ⊢
          omega
      · next hle =>
          have hperm : (bubbleFrom key b rest).2.Perm (b :: rest) := bubbleFrom_perm b rest
          have hsame := hperm.countP_eq fun c => key c < key a
          have hrest := ih b
          simp only [inversions, hsame] at hrest ⊢
          omega

/-- A pass that swaps leaves fewer inversions. -/
theorem inversions_bubblePass {list : List ε} (h : (bubblePass key list).1) :
    inversions key (bubblePass key list).2 < inversions key list := by
  cases list with
  | nil => cases h
  | cons a rest =>
      have hle : inversions key (bubbleFrom key a rest).2 + (bubbleFrom key a rest).1.toNat ≤
          inversions key (a :: rest) := inversions_bubbleFrom a rest
      rw [bubblePass] at h ⊢
      rw [h] at hle
      exact hle

theorem bubbleFrom_sorted {a : ε} {rest : List ε} (h : (bubbleFrom key a rest).1 = false) :
    (bubbleFrom key a rest).2 = a :: rest ∧ ((a :: rest).map key).Pairwise (· ≤ ·) := by
  induction rest generalizing a with
  | nil => exact ⟨rfl, List.pairwise_singleton _ _⟩
  | cons b rest ih =>
      rw [bubbleFrom] at h ⊢
      split at h
      · cases h
      · next hle =>
          obtain ⟨hsame, hsorted⟩ := ih h
          rw [if_neg hle, hsame]
          refine ⟨rfl, ?_⟩
          rw [List.map_cons, List.pairwise_cons]
          refine ⟨?_, hsorted⟩
          intro k hk
          rw [List.map_cons, List.pairwise_cons] at hsorted
          rw [List.map_cons] at hk
          rcases List.mem_cons.mp hk with rfl | hk
          · exact not_lt.mp hle
          · exact (not_lt.mp hle).trans (hsorted.1 k hk)

/-- A pass that does not swap has found the list in order. -/
theorem bubblePass_sorted {list : List ε} (h : (bubblePass key list).1 = false) :
    (bubblePass key list).2 = list ∧ (list.map key).Pairwise (· ≤ ·) := by
  cases list with
  | nil => exact ⟨rfl, List.Pairwise.nil⟩
  | cons a rest => exact bubbleFrom_sorted h

end Pass

def bubbleSort (key : ε → κ) (list : List ε) : List ε :=
  if _ : (bubblePass key list).1 then bubbleSort key (bubblePass key list).2 else list
termination_by inversions key list
decreasing_by exact inversions_bubblePass ‹_›

section Result

variable {key : ε → κ}

theorem bubbleSort_perm (list : List ε) : (bubbleSort key list).Perm list := by
  fun_induction bubbleSort key list with
  | case1 list h ih => exact ih.trans (bubblePass_perm list)
  | case2 list h => exact List.Perm.refl _

theorem bubbleSort_sorted (list : List ε) : ((bubbleSort key list).map key).Pairwise (· ≤ ·) := by
  fun_induction bubbleSort key list with
  | case1 list h ih => exact ih
  | case2 list h => exact (bubblePass_sorted (by simpa using h)).2

/-- Entries that are reached through `f` are sorted by what they reach. -/
theorem bubbleFrom_map {δ : Type*} (f : δ → ε) (a : δ) (rest : List δ) :
    bubbleFrom key (f a) (rest.map f) =
      ((bubbleFrom (key ∘ f) a rest).1, (bubbleFrom (key ∘ f) a rest).2.map f) := by
  induction rest generalizing a with
  | nil => rfl
  | cons b rest ih =>
      simp only [List.map_cons, bubbleFrom, Function.comp_apply]
      split
      · rw [ih]
        rfl
      · rw [ih]
        rfl

theorem bubblePass_map {δ : Type*} (f : δ → ε) (list : List δ) :
    bubblePass key (list.map f) =
      ((bubblePass (key ∘ f) list).1, (bubblePass (key ∘ f) list).2.map f) := by
  cases list with
  | nil => rfl
  | cons a rest => exact bubbleFrom_map f a rest

theorem bubbleSort_map {δ : Type*} (f : δ → ε) (list : List δ) :
    bubbleSort key (list.map f) = (bubbleSort (key ∘ f) list).map f := by
  fun_induction bubbleSort (key ∘ f) list with
  | case1 list h ih =>
      rw [bubbleSort, dif_pos (by rw [bubblePass_map]; exact h), bubblePass_map]
      exact ih
  | case2 list h => rw [bubbleSort, dif_neg (by rw [bubblePass_map]; exact h)]

end Result

end MctDaemon.Lib
