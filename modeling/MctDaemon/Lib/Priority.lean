import Mathlib.Data.List.MinMax
import Mathlib.Tactic

/-!
The choice of the first entry of the highest priority. An entry of priority zero is never
chosen. Two lists that begin alike choose alike unless one of them has an entry behind the
common ones that outranks them.
-/

namespace MctDaemon.Lib

universe u

variable {α : Type u}

section Choice

variable (prio : α → Nat)

def firstHighest (entries : List α) : Option α := (entries.filter fun a => 0 < prio a).argmax prio

/-- The highest priority, or zero. -/
def highest (entries : List α) : Nat := (firstHighest prio entries).elim 0 prio

variable {prio}

@[simp] theorem firstHighest_nil : firstHighest prio [] = none := rfl

@[simp] theorem highest_nil : highest prio [] = 0 := rfl

/-- One more entry is chosen if it outranks the others. -/
theorem firstHighest_concat (entries : List α) (a : α) :
    firstHighest prio (entries ++ [a]) =
      if highest prio entries < prio a then some a else firstHighest prio entries := by
  unfold highest firstHighest
  rw [List.filter_append]
  by_cases ha : 0 < prio a
  · rw [List.filter_cons_of_pos (by simpa using ha), List.filter_nil, List.argmax_concat]
    cases (entries.filter fun a => 0 < prio a).argmax prio with
    | none => exact (if_pos ha).symm
    | some b => rfl
  · rw [List.filter_cons_of_neg (by simpa using ha), List.filter_nil, List.append_nil,
      if_neg (by omega)]

theorem highest_concat (entries : List α) (a : α) :
    highest prio (entries ++ [a]) = max (highest prio entries) (prio a) := by
  have hconcat := @firstHighest_concat _ prio entries a
  by_cases hless : highest prio entries < prio a
  · rw [if_pos hless] at hconcat
    rw [highest, hconcat, Option.elim_some, max_eq_right hless.le]
  · rw [if_neg hless] at hconcat
    rw [max_eq_left (not_lt.mp hless), highest, hconcat]
    rfl

/-- What is behind is chosen if it outranks what is in front. -/
theorem firstHighest_append (front back : List α) :
    firstHighest prio (front ++ back) =
      if highest prio front < highest prio back then firstHighest prio back
      else firstHighest prio front := by
  induction back using List.reverseRecOn with
  | nil => rw [List.append_nil, highest_nil, if_neg (Nat.not_lt_zero _)]
  | append_singleton back a ih =>
      have hfront : highest prio (front ++ back) =
          max (highest prio front) (highest prio back) := by
        unfold highest at ih ⊢
        rw [ih]
        split
        · next hless => exact (max_eq_right hless.le).symm
        · next hless => exact (max_eq_left (not_lt.mp hless)).symm
      rw [← List.append_assoc, firstHighest_concat, firstHighest_concat, highest_concat, hfront, ih]
      split_ifs <;> first | rfl | omega

theorem mem_of_firstHighest {entries : List α} {a : α} (h : firstHighest prio entries = some a) :
    a ∈ entries :=
  (List.mem_filter.mp (List.argmax_mem h)).1

theorem firstHighest_congr {prio' : α → Nat} {entries : List α}
    (h : ∀ a ∈ entries, prio a = prio' a) :
    firstHighest prio entries = firstHighest prio' entries := by
  induction entries using List.reverseRecOn with
  | nil => rfl
  | append_singleton entries a ih =>
      have hsame := ih fun b hb => h b (List.mem_append_left _ hb)
      have hhighest : highest prio entries = highest prio' entries := by
        unfold highest
        rw [hsame]
        cases hchosen : firstHighest prio' entries with
        | none => rfl
        | some b => exact h b (List.mem_append_left _ (mem_of_firstHighest hchosen))
      rw [firstHighest_concat, firstHighest_concat, hhighest, hsame, h a (by simp)]

theorem highest_le {n : Nat} (h : ∀ a, prio a ≤ n) (entries : List α) :
    highest prio entries ≤ n := by
  unfold highest
  cases firstHighest prio entries with
  | none => exact Nat.zero_le n
  | some a => exact h a

/-- Entries whose priority is taken away are as good as not there. -/
theorem firstHighest_filter (entries : List α) (counts : α → Bool) :
    firstHighest (fun a => if counts a then prio a else 0) entries =
      firstHighest prio (entries.filter counts) := by
  induction entries using List.reverseRecOn with
  | nil => rfl
  | append_singleton entries a ih =>
      have hhighest : highest (fun a => if counts a then prio a else 0) entries =
          highest prio (entries.filter counts) := by
        unfold highest
        rw [ih]
        cases hchosen : firstHighest prio (entries.filter counts) with
        | none => rfl
        | some b => exact if_pos (List.mem_filter.mp (mem_of_firstHighest hchosen)).2
      rw [firstHighest_concat, List.filter_append, ih, hhighest]
      by_cases ha : counts a
      · rw [if_pos ha, List.filter_cons_of_pos ha, List.filter_nil, firstHighest_concat]
      · rw [if_neg ha, List.filter_cons_of_neg ha, List.filter_nil, List.append_nil,
          if_neg (Nat.not_lt_zero _)]

end Choice

section Common

variable [DecidableEq α]

def commonPrefix : List α → List α → List α
  | a :: xs, b :: ys => if a = b then a :: commonPrefix xs ys else []
  | _, _ => []

theorem commonPrefix_append (xs ys : List α) :
    commonPrefix xs ys ++ xs.drop (commonPrefix xs ys).length = xs ∧
      commonPrefix xs ys ++ ys.drop (commonPrefix xs ys).length = ys := by
  fun_induction commonPrefix xs ys with
  | case1 xs b ys ih => exact ⟨congrArg (List.cons b) ih.1, congrArg (List.cons b) ih.2⟩
  | case2 a xs b ys hne => exact ⟨rfl, rfl⟩
  | case3 xs ys hshort => exact ⟨rfl, rfl⟩

end Common

end MctDaemon.Lib
