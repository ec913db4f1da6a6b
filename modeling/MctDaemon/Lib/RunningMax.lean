import Mathlib.Tactic

/-!
A value that is raised to the maximum of itself and each of a list of demands.
-/

namespace MctDaemon.Lib

variable {α : Type*} [LinearOrder α]

def runningMax (start : α) (demands : List α) : α := demands.foldl max start

@[simp] theorem runningMax_nil (start : α) : runningMax start [] = start := rfl

theorem runningMax_append (start : α) (first second : List α) :
    runningMax start (first ++ second) = runningMax (runningMax start first) second :=
  List.foldl_append

theorem runningMax_concat (start : α) (demands : List α) (demand : α) :
    runningMax start (demands ++ [demand]) = max (runningMax start demands) demand := by
  rw [runningMax_append]
  rfl

theorem le_runningMax_start (start : α) (demands : List α) : start ≤ runningMax start demands := by
  induction demands generalizing start with
  | nil => exact le_rfl
  | cons demand demands ih => exact (le_max_left start demand).trans (ih _)

theorem le_runningMax {start demand : α} {demands : List α} (h : demand ∈ demands) :
    demand ≤ runningMax start demands := by
  obtain ⟨first, second, rfl⟩ := List.append_of_mem h
  rw [runningMax_append]
  exact (le_max_right _ demand).trans (le_runningMax_start _ second)

theorem runningMax_le {start bound : α} {demands : List α} (hstart : start ≤ bound)
    (h : ∀ demand ∈ demands, demand ≤ bound) : runningMax start demands ≤ bound := by
  induction demands generalizing start with
  | nil => exact hstart
  | cons demand demands ih =>
      apply ih
      · exact max_le hstart (h demand List.mem_cons_self)
      · intro later hlater
        exact h later (List.mem_cons_of_mem _ hlater)

theorem runningMax_le_iff {start bound : α} {demands : List α} :
    runningMax start demands ≤ bound ↔ start ≤ bound ∧ ∀ demand ∈ demands, demand ≤ bound := by
  constructor
  · intro h
    exact ⟨(le_runningMax_start start demands).trans h, fun demand hdemand =>
      (le_runningMax hdemand).trans h⟩
  · rintro ⟨hstart, hdemands⟩
    exact runningMax_le hstart hdemands

/-- No demand has exceeded the start: it is still the value. -/
theorem runningMax_eq_start {start : α} {demands : List α}
    (h : ∀ demand ∈ demands, demand ≤ start) : runningMax start demands = start :=
  le_antisymm (runningMax_le le_rfl h) (le_runningMax_start start demands)

/-- A demand that raises the value is not below the first one that did. -/
theorem first_raise_le {start demand : α} {before : List α} (after : List α)
    (h : runningMax start before < demand) :
    ∃ first, (before ++ demand :: after).find? (fun x => start < x) = some first ∧
      first ≤ demand := by
  cases hfind : before.find? fun x => start < x with
  | some first =>
      refine ⟨first, ?_, ?_⟩
      · rw [List.find?_append, hfind]
        rfl
      · exact (le_runningMax (List.mem_of_find?_eq_some hfind)).trans h.le
  | none =>
      have hraises : start < demand := (le_runningMax_start start before).trans_lt h
      refine ⟨demand, ?_, le_rfl⟩
      rw [List.find?_append, hfind, List.find?_cons_of_pos (by simpa using hraises)]
      rfl

end MctDaemon.Lib
