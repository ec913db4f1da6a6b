import Mathlib.Tactic

/-!
Runs of a deterministic machine over a list of operations, with the induction
rules for invariants and for refinement. The state, the operations and the
replies are arbitrary.
-/

namespace MctDaemon.Lib

universe u v w x

variable {σ : Type u} {τ : Type v} {ι : Type w} {ο : Type x}

/-- Apply the operations in order and collect the replies. -/
def runOps (step : σ → ι → ο × σ) : σ → List ι → List ο × σ
  | s, [] => ([], s)
  | s, op :: ops =>
      let (reply, next) := step s op
      let (replies, final) := runOps step next ops
      (reply :: replies, final)

@[simp] theorem runOps_nil (step : σ → ι → ο × σ) (s : σ) :
    runOps step s [] = ([], s) := rfl

@[simp] theorem runOps_cons (step : σ → ι → ο × σ) (s : σ) (op : ι) (ops : List ι) :
    runOps step s (op :: ops) =
      ((step s op).1 :: (runOps step (step s op).2 ops).1,
        (runOps step (step s op).2 ops).2) := rfl

theorem runOps_append_state (step : σ → ι → ο × σ) (s : σ) (first second : List ι) :
    (runOps step s (first ++ second)).2 = (runOps step (runOps step s first).2 second).2 := by
  induction first generalizing s with
  | nil => rfl
  | cons op first ih => exact ih _

/-- Every operation of the run meets the guard in the state it finds. -/
def Guarded (step : σ → ι → ο × σ) (guard : σ → ι → Prop) : σ → List ι → Prop
  | _, [] => True
  | s, op :: ops => guard s op ∧ Guarded step guard (step s op).2 ops

instance decidableGuarded (step : σ → ι → ο × σ) (guard : σ → ι → Prop)
    [∀ s op, Decidable (guard s op)] : ∀ s ops, Decidable (Guarded step guard s ops)
  | _, [] => inferInstanceAs (Decidable True)
  | s, op :: ops =>
      have := decidableGuarded step guard (step s op).2 ops
      inferInstanceAs (Decidable (guard s op ∧ Guarded step guard (step s op).2 ops))

/-- If related states answer every operation that meets the guard alike and
stay related, then whole guarded runs answer alike and end in related states. -/
theorem runOps_refines_of_guarded {step : σ → ι → ο × σ} {spec : τ → ι → ο × τ}
    {related : σ → τ → Prop} {guard : σ → ι → Prop}
    (hstep : ∀ s t op, related s t → guard s op →
      (step s op).1 = (spec t op).1 ∧ related (step s op).2 (spec t op).2)
    {s : σ} {t : τ} (hrelated : related s t) (ops : List ι)
    (hops : Guarded step guard s ops) :
    (runOps step s ops).1 = (runOps spec t ops).1 ∧
      related (runOps step s ops).2 (runOps spec t ops).2 := by
  induction ops generalizing s t with
  | nil => exact ⟨rfl, hrelated⟩
  | cons op ops ih =>
      obtain ⟨hguard, hrest⟩ := hops
      obtain ⟨hreply, hnext⟩ := hstep s t op hrelated hguard
      obtain ⟨hreplies, hfinal⟩ := ih hnext hrest
      exact ⟨by simp only [runOps_cons, hreply, hreplies], hfinal⟩

theorem guarded_true (step : σ → ι → ο × σ) (s : σ) (ops : List ι) :
    Guarded step (fun _ _ => True) s ops := by
  induction ops generalizing s with
  | nil => trivial
  | cons op ops ih => exact ⟨trivial, ih _⟩

theorem Guarded.and_forall {step : σ → ι → ο × σ} {guard : σ → ι → Prop} {admissible : ι → Prop}
    {s : σ} {ops : List ι} (hguard : Guarded step guard s ops)
    (hops : ∀ op ∈ ops, admissible op) :
    Guarded step (fun s op => admissible op ∧ guard s op) s ops := by
  induction ops generalizing s with
  | nil => trivial
  | cons op ops ih =>
      obtain ⟨hfirst, hrest⟩ := hguard
      refine ⟨⟨hops op List.mem_cons_self, hfirst⟩, ih hrest ?_⟩
      intro later hlater
      exact hops later (List.mem_cons_of_mem op hlater)

theorem Guarded.of_append {step : σ → ι → ο × σ} {guard : σ → ι → Prop} {s : σ}
    {first second : List ι} (h : Guarded step guard s (first ++ second)) :
    Guarded step guard s first ∧ Guarded step guard (runOps step s first).2 second := by
  induction first generalizing s with
  | nil => exact ⟨trivial, h⟩
  | cons op first ih =>
      obtain ⟨hop, hrest⟩ := h
      obtain ⟨hleft, hright⟩ := ih hrest
      exact ⟨⟨hop, hleft⟩, hright⟩

/-- What holds at the start and is kept by every step that meets the guard
holds at the end of a guarded run. The invariant may speak of the operations
so far. -/
theorem runOps_invariant {step : σ → ι → ο × σ} {guard : σ → ι → Prop}
    {inv : List ι → σ → Prop}
    (hstep : ∀ before s op, inv before s → guard s op → inv (before ++ [op]) (step s op).2)
    {before : List ι} {s : σ} (hinv : inv before s) (ops : List ι)
    (hops : Guarded step guard s ops) : inv (before ++ ops) (runOps step s ops).2 := by
  induction ops generalizing before s with
  | nil => simpa using hinv
  | cons op ops ih =>
      obtain ⟨hfirst, hrest⟩ := hops
      have hfinal := ih (hstep before s op hinv hfirst) hrest
      rw [List.append_assoc] at hfinal
      exact hfinal

/-- An invariant that does not speak of the operations. -/
theorem runOps_keeps {step : σ → ι → ο × σ} {guard : σ → ι → Prop} {inv : σ → Prop}
    (hstep : ∀ s op, inv s → guard s op → inv (step s op).2) {s : σ} (hinv : inv s)
    (ops : List ι) (hops : Guarded step guard s ops) : inv (runOps step s ops).2 := by
  induction ops generalizing s with
  | nil => exact hinv
  | cons op ops ih =>
      obtain ⟨hfirst, hrest⟩ := hops
      exact ih (hstep s op hinv hfirst) hrest

/-- Two guards that agree where the invariant holds, if what meets the first
keeps the invariant, agree on whole runs. -/
theorem guarded_congr_of_keeps {step : σ → ι → ο × σ} {guard guard' : σ → ι → Prop}
    {inv : σ → Prop} (hiff : ∀ s op, inv s → (guard s op ↔ guard' s op))
    (hstep : ∀ s op, inv s → guard s op → inv (step s op).2) {s : σ} (hinv : inv s)
    (ops : List ι) : Guarded step guard s ops ↔ Guarded step guard' s ops := by
  induction ops generalizing s with
  | nil => exact Iff.rfl
  | cons op ops ih =>
      constructor
      · rintro ⟨hop, hops⟩
        exact ⟨(hiff s op hinv).mp hop, (ih (hstep s op hinv hop)).mp hops⟩
      · rintro ⟨hop, hops⟩
        have hguard := (hiff s op hinv).mpr hop
        exact ⟨hguard, (ih (hstep s op hinv hguard)).mpr hops⟩

/-- An invariant that speaks of the replies so far. -/
theorem runOps_replies {step : σ → ι → ο × σ} {guard : σ → ι → Prop} {inv : List ο → σ → Prop}
    (hstep : ∀ before s op, inv before s → guard s op →
      inv (before ++ [(step s op).1]) (step s op).2)
    {before : List ο} {s : σ} (hinv : inv before s) (ops : List ι)
    (hops : Guarded step guard s ops) :
    inv (before ++ (runOps step s ops).1) (runOps step s ops).2 := by
  induction ops generalizing before s with
  | nil => simpa using hinv
  | cons op ops ih =>
      obtain ⟨hfirst, hrest⟩ := hops
      have hfinal := ih (hstep before s op hinv hfirst) hrest
      rw [List.append_assoc] at hfinal
      exact hfinal

/-- What every step answers that meets the guard where the invariant holds, which it keeps,
is answered in a guarded run. -/
theorem runOps_each {step : σ → ι → ο × σ} {guard : σ → ι → Prop} {inv : σ → Prop}
    {answered : ο → Prop}
    (hstep : ∀ s op, inv s → guard s op → inv (step s op).2 ∧ answered (step s op).1) {s : σ}
    (hinv : inv s) (ops : List ι) (hops : Guarded step guard s ops) :
    ∀ reply ∈ (runOps step s ops).1, answered reply := by
  induction ops generalizing s with
  | nil => simp
  | cons op ops ih =>
      obtain ⟨hfirst, hrest⟩ := hops
      obtain ⟨hnext, hanswered⟩ := hstep s op hinv hfirst
      intro reply hreply
      rcases List.mem_cons.mp hreply with rfl | hlater
      · exact hanswered
      · exact ih hnext hrest reply hlater

section Lasting

/-- The last of the two events to occur is `start`. -/
def Lasts (start stop : ο) (events : List ο) : Prop :=
  ∃ before after, events = before ++ start :: after ∧ stop ∉ after

theorem not_lasts_nil (start stop : ο) : ¬ Lasts start stop [] := by
  rintro ⟨before, after, h, _⟩
  simp at h

theorem lasts_append_singleton {start stop : ο} (hne : start ≠ stop) (events : List ο) (event : ο) :
    Lasts start stop (events ++ [event]) ↔
      event = start ∨ Lasts start stop events ∧ event ≠ stop := by
  constructor
  · rintro ⟨before, after, h, hstop⟩
    rcases List.eq_nil_or_concat after with rfl | ⟨after, last, rfl⟩
    · obtain ⟨_, hlast⟩ := List.append_inj' h rfl
      exact .inl (List.cons.inj hlast).1
    · rw [List.concat_eq_append, ← List.cons_append, ← List.append_assoc] at h
      obtain ⟨hbefore, hlast⟩ := List.append_inj' h rfl
      rw [List.concat_eq_append, List.mem_append, not_or, List.mem_singleton] at hstop
      refine .inr ⟨⟨before, after, hbefore, hstop.1⟩, ?_⟩
      rw [(List.cons.inj hlast).1]
      exact fun hsame => hstop.2 hsame.symm
  · rintro (rfl | ⟨⟨before, after, rfl, hstop⟩, hne'⟩)
    · exact ⟨events, [], rfl, List.not_mem_nil⟩
    · refine ⟨before, after ++ [event], by simp, ?_⟩
      rw [List.mem_append, not_or, List.mem_singleton]
      exact ⟨hstop, fun hsame => hne' hsame.symm⟩

end Lasting

/-- A guard that looks at the operation only. -/
theorem runOps_refines {step : σ → ι → ο × σ} {spec : τ → ι → ο × τ}
    {related : σ → τ → Prop} {admissible : ι → Prop}
    (hstep : ∀ s t op, related s t → admissible op →
      (step s op).1 = (spec t op).1 ∧ related (step s op).2 (spec t op).2)
    {s : σ} {t : τ} (hrelated : related s t) (ops : List ι)
    (hops : ∀ op ∈ ops, admissible op) :
    (runOps step s ops).1 = (runOps spec t ops).1 ∧
      related (runOps step s ops).2 (runOps spec t ops).2 := by
  have hguarded : ∀ s, Guarded step (fun _ op => admissible op) s ops := by
    induction ops with
    | nil =>
        intro s
        trivial
    | cons op ops ih =>
        intro s
        refine ⟨hops op (by simp), ih ?_ _⟩
        intro later hlater
        exact hops later (by simp [hlater])
  exact runOps_refines_of_guarded hstep hrelated ops (hguarded s)

end MctDaemon.Lib
