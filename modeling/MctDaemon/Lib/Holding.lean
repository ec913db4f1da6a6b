import Mathlib.Tactic

/-!
Handles held under names, and references that copy a name with its handle. A
handle that is given out again is first withdrawn from all who hold it or refer
to it. Names and handles are arbitrary; which handles count is a parameter.
-/

namespace MctDaemon.Lib

universe u v

variable {ν : Type u} {η : Type v}

/-- A handle that counts has one holder at most. -/
def Unshared (valid : η → Prop) (holders : List (ν × η)) : Prop :=
  ∀ (i j : Nat) (p q : ν × η), holders[i]? = some p → holders[j]? = some q →
    valid p.2 → p.2 = q.2 → i = j

/-- Who refers to a handle does so under the name of its holder. -/
def Attributed (valid : η → Prop) (holders references : List (ν × η)) : Prop :=
  ∀ r ∈ references, ∀ p ∈ holders, valid r.2 → p.2 = r.2 → p.1 = r.1

/-- A handle that is referred to is held, under the same name. -/
def Backed (valid : η → Prop) (holders references : List (ν × η)) : Prop :=
  ∀ r ∈ references, valid r.2 → r ∈ holders

def withdraw [DecidableEq η] (void handle : η) (p : ν × η) : ν × η :=
  if p.2 = handle then (p.1, void) else p

variable {valid : η → Prop} {holders references : List (ν × η)}

theorem unshared_iff_pairwise :
    Unshared valid holders ↔ holders.Pairwise fun p q => valid p.2 → p.2 ≠ q.2 := by
  rw [List.pairwise_iff_getElem]
  constructor
  · intro h i j hi hj hij hvalid hsame
    exact hij.ne (h i j _ _ (List.getElem?_eq_getElem hi) (List.getElem?_eq_getElem hj) hvalid
      hsame)
  · intro h i j p q hp hq hvalid hsame
    obtain ⟨hi, rfl⟩ := List.getElem?_eq_some_iff.mp hp
    obtain ⟨hj, rfl⟩ := List.getElem?_eq_some_iff.mp hq
    rcases lt_trichotomy i j with hij | hij | hij
    · exact absurd hsame (h i j hi hj hij hvalid)
    · exact hij
    · exact absurd hsame.symm (h j i hj hi hij (hsame ▸ hvalid))

theorem Unshared.perm (h : Unshared valid holders) {others : List (ν × η)}
    (hperm : others.Perm holders) : Unshared valid others := by
  rw [unshared_iff_pairwise] at h ⊢
  refine (hperm.pairwise_iff ?_).mpr h
  intro p q hpq hvalid hsame
  exact hpq (hsame ▸ hvalid) hsame.symm

theorem Unshared.sublist (h : Unshared valid holders) {others : List (ν × η)}
    (hsub : others.Sublist holders) : Unshared valid others := by
  rw [unshared_iff_pairwise] at h ⊢
  exact h.sublist hsub

theorem Unshared.append_void (h : Unshared valid holders) {p : ν × η} (hp : ¬ valid p.2) :
    Unshared valid (holders ++ [p]) := by
  rw [unshared_iff_pairwise] at h ⊢
  refine List.pairwise_append.mpr ⟨h, List.pairwise_singleton _ _, ?_⟩
  intro q _ r hr hvalid hsame
  rw [List.mem_singleton.mp hr] at hsame
  exact hp (hsame ▸ hvalid)

/-- Who holds a handle is determined by it. -/
theorem Unshared.holder (h : Unshared valid holders) {p q : ν × η} (hp : p ∈ holders)
    (hq : q ∈ holders) (hvalid : valid p.2) (hsame : p.2 = q.2) : p = q := by
  obtain ⟨i, hi⟩ := List.mem_iff_getElem?.mp hp
  obtain ⟨j, hj⟩ := List.mem_iff_getElem?.mp hq
  rw [h i j p q hi hj hvalid hsame, hj] at hi
  exact (Option.some.inj hi).symm

section Withdraw

variable [DecidableEq η] {void handle : η}

/-- The entries whose handle counts after it was taken away. -/
theorem mem_withdraw (hvoid : ¬ valid void) {p : ν × η} (hp : valid p.2) :
    p ∈ holders.map (withdraw void handle) ↔ p ∈ holders ∧ p.2 ≠ handle := by
  rw [List.mem_map]
  constructor
  · rintro ⟨q, hq, rfl⟩
    unfold withdraw at hp ⊢
    by_cases hhandle : q.2 = handle
    · rw [if_pos hhandle] at hp
      exact absurd hp hvoid
    · rw [if_neg hhandle]
      exact ⟨hq, hhandle⟩
  · rintro ⟨hmem, hne⟩
    exact ⟨p, hmem, if_neg hne⟩

theorem Unshared.withdraw (h : Unshared valid holders) (hvoid : ¬ valid void) :
    Unshared valid (holders.map (withdraw void handle)) := by
  have hkept : ∀ (i : Nat) (p : ν × η), (holders.map (Lib.withdraw void handle))[i]? = some p →
      valid p.2 → holders[i]? = some p := by
    intro i p hp hvalid
    rw [List.getElem?_map, Option.map_eq_some_iff] at hp
    obtain ⟨q, hq, rfl⟩ := hp
    unfold Lib.withdraw at hvalid ⊢
    split at hvalid
    · exact absurd hvalid hvoid
    · rename_i hne
      rw [if_neg hne]
      exact hq
  intro i j p q hp hq hvalid hsame
  exact h i j p q (hkept i p hp hvalid) (hkept j q hq (hsame ▸ hvalid)) hvalid hsame

theorem Attributed.withdraw_references (h : Attributed valid holders references)
    (hvoid : ¬ valid void) :
    Attributed valid holders (references.map (withdraw void handle)) := by
  intro r hr p hp hvalid
  exact h r ((mem_withdraw hvoid hvalid).mp hr).1 p hp hvalid

theorem Attributed.withdraw_holders (h : Attributed valid holders references)
    (hvoid : ¬ valid void) :
    Attributed valid (holders.map (withdraw void handle)) references := by
  intro r hr p hp hvalid hsame
  exact h r hr p ((mem_withdraw hvoid (hsame ▸ hvalid)).mp hp).1 hvalid hsame

theorem Backed.withdraw_references (h : Backed valid holders references) (hvoid : ¬ valid void) :
    Backed valid holders (references.map (withdraw void handle)) := by
  intro r hr hvalid
  exact h r ((mem_withdraw hvoid hvalid).mp hr).1 hvalid

/-- Taken away from the references too, the handle needs no holder. -/
theorem Backed.withdraw_both (h : Backed valid holders references) (hvoid : ¬ valid void) :
    Backed valid (holders.map (withdraw void handle)) (references.map (withdraw void handle)) := by
  intro r hr hvalid
  obtain ⟨hmem, hne⟩ := (mem_withdraw hvoid hvalid).mp hr
  exact (mem_withdraw hvoid hvalid).mpr ⟨h r hmem hvalid, hne⟩

end Withdraw

section Assign

theorem getElem?_assign {handle : η} {i j : Nat} {p : ν × η}
    (hp : (holders.modify i fun p => (p.1, handle))[j]? = some p) :
    i = j ∧ p.2 = handle ∨ i ≠ j ∧ holders[j]? = some p := by
  rw [List.getElem?_modify, Option.map_eq_map, Option.map_eq_some_iff] at hp
  obtain ⟨q, hq, rfl⟩ := hp
  by_cases hij : i = j
  · exact .inl ⟨hij, by rw [if_pos hij]⟩
  · exact .inr ⟨hij, by rwa [if_neg hij]⟩

/-- A handle that nobody holds is given to the entry at one position. -/
theorem Unshared.assign (h : Unshared valid holders) {handle : η} (i : Nat)
    (hfree : ∀ p ∈ holders, valid p.2 → p.2 ≠ handle) :
    Unshared valid (holders.modify i fun p => (p.1, handle)) := by
  intro j k p q hp hq hvalid hsame
  rcases getElem?_assign hp with ⟨hj, hhandle⟩ | ⟨_, hp⟩
  · rcases getElem?_assign hq with ⟨hk, _⟩ | ⟨_, hq⟩
    · exact hj.symm.trans hk
    · exact absurd (hsame.symm.trans hhandle) (hfree q (List.mem_of_getElem? hq) (hsame ▸ hvalid))
  · rcases getElem?_assign hq with ⟨_, hhandle⟩ | ⟨_, hq⟩
    · exact absurd (hsame.trans hhandle) (hfree p (List.mem_of_getElem? hp) hvalid)
    · exact h j k p q hp hq hvalid hsame

/-- The entries after a handle is given to one of them. -/
theorem mem_assign {handle : η} {i : Nat} {p : ν × η}
    (hp : p ∈ holders.modify i fun p => (p.1, handle)) : p.2 = handle ∨ p ∈ holders := by
  obtain ⟨j, hj⟩ := List.mem_iff_getElem?.mp hp
  rcases getElem?_assign hj with ⟨_, hhandle⟩ | ⟨_, hold⟩
  · exact .inl hhandle
  · exact .inr (List.mem_of_getElem? hold)

/-- Entries other than the one that is given the handle stay. -/
theorem mem_assign_of_ne {handle : η} {i : Nat} {p : ν × η} (hp : p ∈ holders)
    (hi : ∀ q, holders[i]? = some q → q.2 ≠ p.2) :
    p ∈ holders.modify i fun p => (p.1, handle) := by
  obtain ⟨j, hj⟩ := List.mem_iff_getElem?.mp hp
  apply List.mem_iff_getElem?.mpr
  refine ⟨j, ?_⟩
  have hij : i ≠ j := by
    rintro rfl
    exact hi p hj rfl
  simp only [List.getElem?_modify, if_neg hij, hj, Option.map_eq_map, Option.map_some]

theorem Attributed.assign (h : Attributed valid holders references) {handle : η} (i : Nat)
    (hfree : ∀ r ∈ references, valid r.2 → r.2 ≠ handle) :
    Attributed valid (holders.modify i fun p => (p.1, handle)) references := by
  intro r hr p hp hvalid hsame
  rcases mem_assign hp with hhandle | hold
  · exact absurd (hsame.symm.trans hhandle) (hfree r hr hvalid)
  · exact h r hr p hold hvalid hsame

/-- The entry had no handle that is referred to. -/
theorem Backed.assign (h : Backed valid holders references) {handle : η} {i : Nat}
    (hi : ∀ q, holders[i]? = some q → ∀ r ∈ references, valid r.2 → q.2 ≠ r.2) :
    Backed valid (holders.modify i fun p => (p.1, handle)) references := by
  intro r hr hvalid
  exact mem_assign_of_ne (h r hr hvalid) fun q hq => hi q hq r hr hvalid

end Assign

section Refer

/-- References may be dropped, and may copy a holder. -/
theorem Attributed.refer (h : Attributed valid holders references)
    (hunshared : Unshared valid holders) {others : List (ν × η)}
    (hothers : ∀ r ∈ others, valid r.2 → r ∈ references ∨ r ∈ holders) :
    Attributed valid holders others := by
  intro r hr p hp hvalid hsame
  rcases hothers r hr hvalid with hold | hholder
  · exact h r hold p hp hvalid hsame
  · rw [hunshared.holder hp hholder (hsame ▸ hvalid) hsame]

theorem Backed.refer (h : Backed valid holders references) {others : List (ν × η)}
    (hothers : ∀ r ∈ others, valid r.2 → r ∈ references ∨ r ∈ holders) :
    Backed valid holders others := by
  intro r hr hvalid
  rcases hothers r hr hvalid with hold | hholder
  · exact h r hold hvalid
  · exact hholder

end Refer

end MctDaemon.Lib
