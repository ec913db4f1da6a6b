import MctDaemon.Lib.Run
import Mathlib.Tactic

/-!
A map that one party keeps at another one. The source assigns values to keys, and a queue
of its assignments is carried out later where the copy is, perhaps after all of the map has
been told again. Keys and values are arbitrary.
-/

namespace MctDaemon.Lib

variable {κ : Type*} {ν : Type*} [DecidableEq κ]

/-- The assignments of a queue carried out one after the other. -/
def replay (replica : κ → ν) (queue : List (κ × ν)) : κ → ν :=
  queue.foldl (fun replica op => Function.update replica op.1 op.2) replica

/-- A queue that assigns to a key nothing else at the end than the source has. -/
def Repeats (source : κ → ν) (queue : List (κ × ν)) : Prop :=
  ∀ replica, ∀ k ∈ queue.map Prod.fst, replay replica queue k = source k

section Replay

variable {replica source : κ → ν} {queue : List (κ × ν)} {k : κ}

@[simp] theorem replay_nil (replica : κ → ν) : replay replica ([] : List (κ × ν)) = replica := rfl

@[simp] theorem replay_cons (replica : κ → ν) (op : κ × ν) (queue : List (κ × ν)) :
    replay replica (op :: queue) = replay (Function.update replica op.1 op.2) queue := rfl

theorem replay_append (replica : κ → ν) (first second : List (κ × ν)) :
    replay replica (first ++ second) = replay (replay replica first) second :=
  List.foldl_append

theorem replay_concat (replica : κ → ν) (queue : List (κ × ν)) (k : κ) (v : ν) :
    replay replica (queue ++ [(k, v)]) = Function.update (replay replica queue) k v := by
  rw [replay_append]
  rfl

/-- A queue leaves the keys alone that it does not assign. -/
theorem replay_of_notMem (hk : k ∉ queue.map Prod.fst) : replay replica queue k = replica k := by
  induction queue generalizing replica with
  | nil => rfl
  | cons op queue ih =>
      rw [List.map_cons, List.mem_cons, not_or] at hk
      rw [replay_cons, ih hk.2, Function.update_of_ne hk.1]

/-- What a queue assigns does not depend on the map it finds. -/
theorem replay_of_mem (hk : k ∈ queue.map Prod.fst) (other : κ → ν) :
    replay replica queue k = replay other queue k := by
  induction queue generalizing replica other with
  | nil => exact absurd hk List.not_mem_nil
  | cons op queue ih =>
      by_cases hlater : k ∈ queue.map Prod.fst
      · exact ih hlater _
      · rw [List.map_cons, List.mem_cons] at hk
        have hfirst : k = op.1 := hk.resolve_right hlater
        rw [replay_cons, replay_cons, replay_of_notMem hlater, replay_of_notMem hlater, hfirst,
          Function.update_self, Function.update_self]

/-- A map whose keys and values are the images of another one follows the images of its
assignments. -/
theorem replay_map {κ' : Type*} {ν' : Type*} [DecidableEq κ'] {g : κ → κ'}
    (hg : Function.Injective g) (h : ν → ν') {image : κ' → ν'}
    (himage : ∀ k, image (g k) = h (replica k)) (queue : List (κ × ν)) (k : κ) :
    replay image (queue.map (Prod.map g h)) (g k) = h (replay replica queue k) := by
  induction queue generalizing replica image with
  | nil => exact himage k
  | cons op queue ih =>
      rw [List.map_cons, replay_cons, replay_cons]
      apply ih
      intro other
      by_cases hother : other = op.1
      · rw [hother, Prod.map_fst, Prod.map_snd, Function.update_self, Function.update_self]
      · rw [Prod.map_fst, Function.update_of_ne (hg.ne hother), Function.update_of_ne hother,
          himage other]

end Replay

section Repeats

variable {replica source : κ → ν} {queue : List (κ × ν)} {k : κ} {v : ν}

theorem repeats_nil (source : κ → ν) : Repeats source [] :=
  fun _ _ hmem => absurd hmem List.not_mem_nil

/-- The source assigns a value, and the queue learns of it last. -/
theorem Repeats.concat (h : Repeats source queue) (k : κ) (v : ν) :
    Repeats (Function.update source k v) (queue ++ [(k, v)]) := by
  intro replica other hother
  rw [replay_concat]
  by_cases hsame : other = k
  · rw [hsame, Function.update_self, Function.update_self]
  · rw [Function.update_of_ne hsame, Function.update_of_ne hsame]
    apply h
    rw [List.map_append, List.mem_append] at hother
    exact hother.resolve_right fun hlast => hsame (List.mem_singleton.mp hlast)

/-- The source assigns a value to a key that does not wait. -/
theorem Repeats.update (h : Repeats source queue) (hk : k ∉ queue.map Prod.fst) (v : ν) :
    Repeats (Function.update source k v) queue := by
  intro replica other hother
  have hne : other ≠ k := fun hsame => hk (hsame ▸ hother)
  rw [h replica other hother, Function.update_of_ne hne]

theorem Repeats.tail {op : κ × ν} (h : Repeats source (op :: queue)) : Repeats source queue := by
  intro replica other hother
  have hmore := h replica other (List.mem_cons_of_mem _ hother)
  rw [replay_cons] at hmore
  rw [← hmore]
  exact replay_of_mem hother _

theorem Repeats.append {later : List (κ × ν)} (h : Repeats source queue)
    (hlater : Repeats source later) : Repeats source (queue ++ later) := by
  intro replica k hk
  rw [replay_append]
  by_cases hmem : k ∈ later.map Prod.fst
  · exact hlater _ k hmem
  · rw [replay_of_notMem hmem]
    apply h
    rw [List.map_append, List.mem_append] at hk
    exact hk.resolve_right hmem

/-- A queue of values that the source has. -/
theorem repeats_of_current (h : ∀ op ∈ queue, op.2 = source op.1) : Repeats source queue := by
  induction queue with
  | nil => exact repeats_nil source
  | cons op queue ih =>
      intro replica k hk
      rw [replay_cons]
      by_cases hlater : k ∈ queue.map Prod.fst
      · exact ih (fun other hother => h other (List.mem_cons_of_mem op hother)) _ k hlater
      · rw [List.map_cons, List.mem_cons] at hk
        rw [replay_of_notMem hlater, hk.resolve_right hlater, Function.update_self]
        exact h op List.mem_cons_self

/-- A queue that repeats the source and covers every key at which a map differs makes the
map the source. -/
theorem Repeats.replay_eq (h : Repeats source queue)
    (hrest : ∀ k, k ∉ queue.map Prod.fst → replica k = source k) :
    replay replica queue = source := by
  funext k
  by_cases hk : k ∈ queue.map Prod.fst
  · exact h replica k hk
  · rw [replay_of_notMem hk, hrest k hk]

end Repeats

/-- A machine whose view follows each operation follows a run of them. -/
theorem runOps_replay {σ : Type*} {ι : Type*} {ο : Type*} (step : σ → ι → ο × σ)
    (view : σ → κ → ν) (assigns : ι → Option (κ × ν)) {inv : σ → Prop} {admissible : ι → Prop}
    (hstep : ∀ s op, inv s → admissible op →
      inv (step s op).2 ∧ view (step s op).2 = replay (view s) (assigns op).toList)
    {s : σ} (hinv : inv s) (ops : List ι) (hops : ∀ op ∈ ops, admissible op) :
    inv (runOps step s ops).2 ∧
      view (runOps step s ops).2 = replay (view s) (ops.filterMap assigns) := by
  induction ops generalizing s with
  | nil => exact ⟨hinv, rfl⟩
  | cons op ops ih =>
      obtain ⟨hnext, hfirst⟩ := hstep s op hinv (hops op List.mem_cons_self)
      obtain ⟨hfinal, hrest⟩ := ih hnext fun other hother =>
        hops other (List.mem_cons_of_mem op hother)
      refine ⟨hfinal, ?_⟩
      rw [runOps_cons, hrest, hfirst, List.filterMap_cons]
      cases assigns op with
      | none => rfl
      | some assigned => rfl

end MctDaemon.Lib
