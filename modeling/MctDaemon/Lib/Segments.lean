import Mathlib.Data.List.SplitBy
import Mathlib.Tactic

/-!
Scans that cut a list between neighbours. A scan with one element of look-ahead
closes a run when the next element does not belong to it; what it has closed and
the run that is still open are the runs of the list.
-/

namespace MctDaemon.Lib

variable {α : Type*}

/-- The runs that a scan closes, and the run left open at the last element, which
is looked at but not taken. `run` was open at the start. -/
def closedRuns (cut : α → α → Bool) : List α → List α → List (List α) × List α
  | run, x :: y :: rest =>
      if cut x y then
        let (closed, left) := closedRuns cut [] (y :: rest)
        ((run ++ [x]) :: closed, left)
      else closedRuns cut (run ++ [x]) (y :: rest)
  | run, _ => ([], run)

variable (cut : α → α → Bool)

theorem closedRuns_cut {x y : α} (h : cut x y) (run rest : List α) :
    closedRuns cut run (x :: y :: rest) =
      ((run ++ [x]) :: (closedRuns cut [] (y :: rest)).1,
        (closedRuns cut [] (y :: rest)).2) := by
  rw [closedRuns, if_pos h]

theorem closedRuns_keep {x y : α} (h : ¬ cut x y) (run rest : List α) :
    closedRuns cut run (x :: y :: rest) = closedRuns cut (run ++ [x]) (y :: rest) := by
  rw [closedRuns, if_neg h]

theorem closedRuns_single (run : List α) (x : α) : closedRuns cut run [x] = ([], run) := rfl

/-- Nothing is lost between the closed runs and the open one. -/
theorem closedRuns_flatten (run s : List α) (sentinel : α) :
    (closedRuns cut run (s ++ [sentinel])).1.flatten ++
      (closedRuns cut run (s ++ [sentinel])).2 = run ++ s := by
  induction s generalizing run with
  | nil => simp [closedRuns_single]
  | cons x s ih =>
      obtain ⟨y, rest, hrest⟩ : ∃ y rest, s ++ [sentinel] = y :: rest :=
        List.exists_cons_of_ne_nil (by simp)
      rw [List.cons_append, hrest]
      by_cases hcut : cut x y
      · rw [closedRuns_cut cut hcut, ← hrest, List.flatten_cons, List.append_assoc, ih,
          List.nil_append, List.append_assoc, List.singleton_append]
      · rw [closedRuns_keep cut hcut, ← hrest, ih, List.append_assoc, List.singleton_append]

/-- The last run is closed exactly if the list is cut before the sentinel. -/
theorem closedRuns_open_eq_nil_iff (run s : List α) (x sentinel : α) :
    (closedRuns cut run (s ++ [x] ++ [sentinel])).2 = [] ↔ cut x sentinel := by
  induction s generalizing run with
  | nil =>
      rw [List.nil_append, List.singleton_append]
      by_cases hcut : cut x sentinel
      · rw [closedRuns_cut cut hcut, closedRuns_single]
        exact iff_of_true rfl hcut
      · rw [closedRuns_keep cut hcut, closedRuns_single]
        exact iff_of_false (by simp) hcut
  | cons y s ih =>
      obtain ⟨z, rest, hrest⟩ : ∃ z rest, s ++ [x] ++ [sentinel] = z :: rest :=
        List.exists_cons_of_ne_nil (by simp)
      rw [List.cons_append, List.cons_append, hrest]
      by_cases hcut : cut y z
      · rw [closedRuns_cut cut hcut, ← hrest]
        exact ih []
      · rw [closedRuns_keep cut hcut, ← hrest]
        exact ih _

/-- The closed runs, and the open one unless it is empty, are the runs of the
list. -/
theorem closedRuns_splitBy {run s : List α} {x : α} (sentinel : α)
    (hrun : (run ++ [x]).IsChain fun a b => !cut a b) :
    (run ++ x :: s).splitBy (fun a b => !cut a b) =
      (closedRuns cut run (x :: s ++ [sentinel])).1 ++
        if (closedRuns cut run (x :: s ++ [sentinel])).2 = [] then []
        else [(closedRuns cut run (x :: s ++ [sentinel])).2] := by
  have hne : run ++ [x] ≠ [] := by simp
  induction s generalizing run x with
  | nil =>
      rw [List.splitBy_of_isChain hne hrun, List.cons_append, List.nil_append]
      by_cases hcut : cut x sentinel
      · rw [closedRuns_cut cut hcut, closedRuns_single]
        simp
      · rw [closedRuns_keep cut hcut, closedRuns_single, if_neg hne, List.nil_append]
  | cons y s ih =>
      have hsplit : run ++ x :: y :: s = (run ++ [x]) ++ y :: s := by simp
      simp only [List.cons_append] at ih ⊢
      by_cases hcut : cut x y
      · rw [closedRuns_cut cut hcut, hsplit, List.splitBy_append,
          List.splitBy_of_isChain hne hrun, ← List.nil_append (y :: s),
          ih (List.isChain_singleton y) (by simp)]
        · simp
        · simp [hcut]
      · rw [closedRuns_keep cut hcut, hsplit]
        refine ih ?_ (by simp)
        rw [List.isChain_append]
        refine ⟨hrun, List.isChain_singleton y, ?_⟩
        simp [hcut]

end MctDaemon.Lib
