import Mathlib.Tactic

/-!
A list of rules, each of which may decide: the first rule that decides gives
the answer. The answer is the same for every order of the rules exactly when
the rules that decide agree.
-/

namespace MctDaemon.Lib

universe u v

variable {ρ : Type u} {δ : Type v}

/-- The answer of the first rule that decides, or the default. -/
def firstDecision (decide : ρ → Option δ) (default : δ) (rules : List ρ) : δ :=
  (rules.findSome? decide).getD default

def Agree (decide : ρ → Option δ) (rules : List ρ) : Prop :=
  ∀ a ∈ rules, ∀ b ∈ rules, ∀ x ∈ decide a, ∀ y ∈ decide b, x = y

theorem firstDecision_of_agree {decide : ρ → Option δ} {default : δ} {rules : List ρ}
    (hagree : Agree decide rules) {rule : ρ} (hrule : rule ∈ rules) {answer : δ}
    (hanswer : answer ∈ decide rule) : firstDecision decide default rules = answer := by
  unfold firstDecision
  cases hfirst : rules.findSome? decide with
  | none =>
      rw [List.findSome?_eq_none_iff] at hfirst
      rw [hfirst rule hrule] at hanswer
      cases hanswer
  | some other =>
      obtain ⟨first, hmem, hother⟩ := List.exists_of_findSome?_eq_some hfirst
      exact hagree first hmem rule hrule other hother answer hanswer

theorem firstDecision_default {decide : ρ → Option δ} {default : δ} {rules : List ρ}
    (hnone : ∀ rule ∈ rules, decide rule = none) :
    firstDecision decide default rules = default := by
  unfold firstDecision
  rw [List.findSome?_eq_none_iff.mpr hnone]
  rfl

/-- The answer is independent of the order exactly when the deciding rules agree. -/
theorem firstDecision_perm_iff (decide : ρ → Option δ) (default : δ) (rules : List ρ) :
    (∀ other, other.Perm rules →
      firstDecision decide default other = firstDecision decide default rules) ↔
      Agree decide rules := by
  classical
  constructor
  · -- move either rule to the front
    intro horder
    have hfront : ∀ rule ∈ rules, ∀ answer ∈ decide rule,
        firstDecision decide default rules = answer := by
      intro rule hmem answer hanswer
      rw [← horder _ (List.perm_cons_erase hmem).symm]
      simp only [firstDecision, List.findSome?_cons]
      rw [Option.mem_def.mp hanswer]
      rfl
    intro a ha b hb x hx y hy
    rw [← hfront a ha x hx, ← hfront b hb y hy]
  · intro hagree other hperm
    have hagree' : Agree decide other := by
      intro a ha b hb
      exact hagree a (hperm.mem_iff.mp ha) b (hperm.mem_iff.mp hb)
    by_cases hnone : ∀ rule ∈ rules, decide rule = none
    · rw [firstDecision_default hnone, firstDecision_default]
      intro rule hrule
      exact hnone rule (hperm.mem_iff.mp hrule)
    · push Not at hnone
      obtain ⟨rule, hmem, hsome⟩ := hnone
      obtain ⟨answer, hanswer⟩ := Option.ne_none_iff_exists'.mp hsome
      rw [firstDecision_of_agree hagree hmem hanswer,
        firstDecision_of_agree hagree' (hperm.mem_iff.mpr hmem) hanswer]

end MctDaemon.Lib
