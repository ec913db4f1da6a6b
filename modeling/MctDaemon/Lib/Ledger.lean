import Mathlib.Data.List.Nodup
import Mathlib.Data.List.Pairwise
import Mathlib.Tactic

/-!
What becomes of items that enter a system one after the other: an item is delivered to
receivers, waits in a queue or is dropped, and while it is none of these it is held.
Items of a kind are delivered to each receiver in the order in which they entered. The
items, the receivers and the order are arbitrary.
-/

namespace MctDaemon.Lib

structure Ledger (ι κ : Type*) where
  entered : List ι
  delivered : List (ι × κ)
  queue : List ι
  dropped : List ι

namespace Ledger

variable {ι κ : Type*} {l : Ledger ι κ} {held : List ι} {x : ι}

def Delivered (l : Ledger ι κ) (x : ι) : Prop := ∃ k, (x, k) ∈ l.delivered

/-- Every item that has entered and is not held is at one place. -/
structure Placed (held : List ι) (l : Ledger ι κ) : Prop where
  entered : l.entered.Nodup
  queue : l.queue.Nodup
  dropped : l.dropped.Nodup
  known : ∀ x, x ∈ held ∨ l.Delivered x ∨ x ∈ l.queue ∨ x ∈ l.dropped → x ∈ l.entered
  placed : ∀ x ∈ l.entered, x ∈ held ∨ l.Delivered x ∨ x ∈ l.queue ∨ x ∈ l.dropped
  pending : ∀ x ∈ held, ¬ l.Delivered x ∧ x ∉ l.queue ∧ x ∉ l.dropped
  waiting : ∀ x ∈ l.queue, ¬ l.Delivered x ∧ x ∉ l.dropped
  lost : ∀ x ∈ l.dropped, ¬ l.Delivered x

/-- Items of the kind reach each receiver in order, and those that wait come behind. Of
the held items one at most is of the kind, and it comes last. -/
structure Ordered (before : ι → ι → Prop) (kind : ι → Prop) (held : List ι) (l : Ledger ι κ) :
    Prop where
  received : l.delivered.Pairwise fun first second =>
    kind first.1 → kind second.1 → first.2 = second.2 → before first.1 second.1
  queue : l.queue.Pairwise fun first second => kind first → kind second → before first second
  behind : ∀ first ∈ l.delivered, ∀ second ∈ l.queue, kind first.1 → kind second →
    before first.1 second
  single : ∀ first ∈ held, ∀ second ∈ held, kind first → kind second → first = second
  last : ∀ second ∈ held, kind second → (∀ first ∈ l.delivered, kind first.1 →
    first.1 = second ∨ before first.1 second) ∧ ∀ first ∈ l.queue, kind first → before first second

def enter (l : Ledger ι κ) (x : ι) : Ledger ι κ := { l with entered := l.entered ++ [x] }

def deliver (l : Ledger ι κ) (x : ι) (receivers : List κ) : Ledger ι κ :=
  { l with delivered := l.delivered ++ receivers.map fun k => (x, k) }

def keep (l : Ledger ι κ) (x : ι) : Ledger ι κ := { l with queue := l.queue ++ [x] }

def drop (l : Ledger ι κ) (x : ι) : Ledger ι κ := { l with dropped := l.dropped ++ [x] }

theorem delivered_deliver {receivers : List κ} (y : ι) :
    (l.deliver x receivers).Delivered y ↔ l.Delivered y ∨ y = x ∧ receivers ≠ [] := by
  unfold Delivered deliver
  simp only [List.mem_append, List.mem_map, Prod.mk.injEq]
  constructor
  · rintro ⟨k, hmem | ⟨k', hk', rfl, rfl⟩⟩
    · exact .inl ⟨k, hmem⟩
    · exact .inr ⟨rfl, List.ne_nil_of_mem hk'⟩
  · rintro (⟨k, hmem⟩ | ⟨rfl, hne⟩)
    · exact ⟨k, .inl hmem⟩
    · obtain ⟨k, hk⟩ := List.exists_mem_of_ne_nil receivers hne
      exact ⟨k, .inr ⟨k, hk, rfl, rfl⟩⟩

section Placed

theorem Placed.enter (h : Placed held l) (hnew : x ∉ l.entered) :
    Placed (x :: held) (l.enter x) where
  entered := by
    rw [Ledger.enter, List.nodup_append]
    refine ⟨h.entered, List.nodup_singleton x, ?_⟩
    rintro y hy z hz rfl
    exact hnew (List.mem_singleton.mp hz ▸ hy)
  queue := h.queue
  dropped := h.dropped
  known := by
    intro y hy
    rw [Ledger.enter, List.mem_append, List.mem_singleton]
    rcases hy with hy | hy
    · exact (List.mem_cons.mp hy).elim .inr fun hy => .inl (h.known y (.inl hy))
    · exact .inl (h.known y (.inr hy))
  placed := by
    intro y hy
    rcases List.mem_append.mp hy with hy | hy
    · exact (h.placed y hy).imp_left (List.mem_cons_of_mem x)
    · exact .inl (List.mem_singleton.mp hy ▸ List.mem_cons_self)
  pending := by
    intro y hy
    rcases List.mem_cons.mp hy with rfl | hy
    · exact ⟨fun hd => hnew (h.known y (.inr (.inl hd))),
        fun hq => hnew (h.known y (.inr (.inr (.inl hq)))),
        fun hd => hnew (h.known y (.inr (.inr (.inr hd))))⟩
    · exact h.pending y hy
  waiting := h.waiting
  lost := h.lost

theorem Placed.deliver (h : Placed (x :: held) l) (hopen : (x :: held).Nodup)
    {receivers : List κ} (hne : receivers ≠ []) : Placed held (l.deliver x receivers) where
  entered := h.entered
  queue := h.queue
  dropped := h.dropped
  known := by
    intro y hy
    rw [delivered_deliver] at hy
    rcases hy with hy | (hy | ⟨rfl, -⟩) | hy
    · exact h.known y (.inl (List.mem_cons_of_mem x hy))
    · exact h.known y (.inr (.inl hy))
    · exact h.known y (.inl List.mem_cons_self)
    · exact h.known y (.inr (.inr hy))
  placed := by
    intro y hy
    rw [delivered_deliver]
    rcases h.placed y hy with hy | hy | hy
    · rcases List.mem_cons.mp hy with rfl | hy
      · exact .inr (.inl (.inr ⟨rfl, hne⟩))
      · exact .inl hy
    · exact .inr (.inl (.inl hy))
    · exact .inr (.inr hy)
  pending := by
    intro y hy
    obtain ⟨hdelivered, hplaced⟩ := h.pending y (List.mem_cons_of_mem x hy)
    rw [delivered_deliver]
    refine ⟨fun hd => hd.elim hdelivered fun hsame => ?_, hplaced⟩
    exact (List.nodup_cons.mp hopen).1 (hsame.1 ▸ hy)
  waiting := by
    intro y hy
    rw [delivered_deliver]
    refine ⟨fun hd => hd.elim (h.waiting y hy).1 ?_, (h.waiting y hy).2⟩
    rintro ⟨rfl, -⟩
    exact (h.pending y List.mem_cons_self).2.1 hy
  lost := by
    intro y hy
    rw [delivered_deliver]
    refine fun hd => hd.elim (h.lost y hy) ?_
    rintro ⟨rfl, -⟩
    exact (h.pending y List.mem_cons_self).2.2 hy

/-- An item that has been delivered is delivered to others. -/
theorem Placed.again (h : Placed held l) (hx : l.Delivered x) (receivers : List κ) :
    Placed held (l.deliver x receivers) := by
  have hsame : ∀ y, (l.deliver x receivers).Delivered y ↔ l.Delivered y := by
    intro y
    rw [delivered_deliver]
    refine ⟨fun hy => hy.elim id ?_, .inl⟩
    rintro ⟨rfl, -⟩
    exact hx
  refine ⟨h.entered, h.queue, h.dropped, ?_, ?_, ?_, ?_, ?_⟩
  all_goals simp only [hsame]
  · exact h.known
  · exact h.placed
  · exact h.pending
  · exact h.waiting
  · exact h.lost

theorem Placed.keep (h : Placed (x :: held) l) (hopen : (x :: held).Nodup) :
    Placed held (l.keep x) where
  entered := h.entered
  queue := by
    rw [Ledger.keep, List.nodup_append]
    refine ⟨h.queue, List.nodup_singleton x, ?_⟩
    rintro y hy z hz rfl
    exact (h.pending x List.mem_cons_self).2.1 (List.mem_singleton.mp hz ▸ hy)
  dropped := h.dropped
  known := by
    intro y hy
    rw [Ledger.keep, List.mem_append, List.mem_singleton] at hy
    rcases hy with hy | hy | (hy | rfl) | hy
    · exact h.known y (.inl (List.mem_cons_of_mem x hy))
    · exact h.known y (.inr (.inl hy))
    · exact h.known y (.inr (.inr (.inl hy)))
    · exact h.known y (.inl List.mem_cons_self)
    · exact h.known y (.inr (.inr (.inr hy)))
  placed := by
    intro y hy
    rw [Ledger.keep, List.mem_append, List.mem_singleton]
    rcases h.placed y hy with hy | hy | hy | hy
    · rcases List.mem_cons.mp hy with rfl | hy
      · exact .inr (.inr (.inl (.inr rfl)))
      · exact .inl hy
    · exact .inr (.inl hy)
    · exact .inr (.inr (.inl (.inl hy)))
    · exact .inr (.inr (.inr hy))
  pending := by
    intro y hy
    obtain ⟨hdelivered, hqueue, hdropped⟩ := h.pending y (List.mem_cons_of_mem x hy)
    refine ⟨hdelivered, fun hmem => ?_, hdropped⟩
    rw [Ledger.keep, List.mem_append, List.mem_singleton] at hmem
    exact hmem.elim hqueue fun hsame => (List.nodup_cons.mp hopen).1 (hsame ▸ hy)
  waiting := by
    intro y hy
    rw [Ledger.keep, List.mem_append, List.mem_singleton] at hy
    rcases hy with hy | rfl
    · exact h.waiting y hy
    · exact ⟨(h.pending y List.mem_cons_self).1, (h.pending y List.mem_cons_self).2.2⟩
  lost := h.lost

theorem Placed.drop (h : Placed (x :: held) l) (hopen : (x :: held).Nodup) :
    Placed held (l.drop x) where
  entered := h.entered
  queue := h.queue
  dropped := by
    rw [Ledger.drop, List.nodup_append]
    refine ⟨h.dropped, List.nodup_singleton x, ?_⟩
    rintro y hy z hz rfl
    exact (h.pending x List.mem_cons_self).2.2 (List.mem_singleton.mp hz ▸ hy)
  known := by
    intro y hy
    rw [Ledger.drop, List.mem_append, List.mem_singleton] at hy
    rcases hy with hy | hy | hy | hy | rfl
    · exact h.known y (.inl (List.mem_cons_of_mem x hy))
    · exact h.known y (.inr (.inl hy))
    · exact h.known y (.inr (.inr (.inl hy)))
    · exact h.known y (.inr (.inr (.inr hy)))
    · exact h.known y (.inl List.mem_cons_self)
  placed := by
    intro y hy
    rw [Ledger.drop, List.mem_append, List.mem_singleton]
    rcases h.placed y hy with hy | hy | hy | hy
    · rcases List.mem_cons.mp hy with rfl | hy
      · exact .inr (.inr (.inr (.inr rfl)))
      · exact .inl hy
    · exact .inr (.inl hy)
    · exact .inr (.inr (.inl hy))
    · exact .inr (.inr (.inr (.inl hy)))
  pending := by
    intro y hy
    obtain ⟨hdelivered, hqueue, hdropped⟩ := h.pending y (List.mem_cons_of_mem x hy)
    refine ⟨hdelivered, hqueue, fun hmem => ?_⟩
    rw [Ledger.drop, List.mem_append, List.mem_singleton] at hmem
    exact hmem.elim hdropped fun hsame => (List.nodup_cons.mp hopen).1 (hsame ▸ hy)
  waiting := by
    intro y hy
    refine ⟨(h.waiting y hy).1, fun hmem => ?_⟩
    rw [Ledger.drop, List.mem_append, List.mem_singleton] at hmem
    rcases hmem with hmem | rfl
    · exact (h.waiting y hy).2 hmem
    · exact (h.pending y List.mem_cons_self).2.1 hy
  lost := by
    intro y hy
    rw [Ledger.drop, List.mem_append, List.mem_singleton] at hy
    rcases hy with hy | rfl
    · exact h.lost y hy
    · exact (h.pending y List.mem_cons_self).1

/-- The first item that waits is held again. -/
theorem Placed.reopen {rest : List ι} (h : Placed held l) (hqueue : l.queue = x :: rest) :
    Placed (x :: held) { l with queue := rest } where
  entered := h.entered
  queue := (List.nodup_cons.mp (hqueue ▸ h.queue)).2
  dropped := h.dropped
  known := by
    intro y hy
    rcases hy with hy | hy | hy | hy
    · rcases List.mem_cons.mp hy with rfl | hy
      · exact h.known y (.inr (.inr (.inl (hqueue ▸ List.mem_cons_self))))
      · exact h.known y (.inl hy)
    · exact h.known y (.inr (.inl hy))
    · exact h.known y (.inr (.inr (.inl (hqueue ▸ List.mem_cons_of_mem x hy))))
    · exact h.known y (.inr (.inr (.inr hy)))
  placed := by
    intro y hy
    rcases h.placed y hy with hy | hy | hy | hy
    · exact .inl (List.mem_cons_of_mem x hy)
    · exact .inr (.inl hy)
    · rw [hqueue, List.mem_cons] at hy
      rcases hy with rfl | hy
      · exact .inl List.mem_cons_self
      · exact .inr (.inr (.inl hy))
    · exact .inr (.inr (.inr hy))
  pending := by
    have hnodup := List.nodup_cons.mp (hqueue ▸ h.queue)
    intro y hy
    rcases List.mem_cons.mp hy with rfl | hy
    · have hwaiting := h.waiting y (hqueue ▸ List.mem_cons_self)
      exact ⟨hwaiting.1, hnodup.1, hwaiting.2⟩
    · obtain ⟨hdelivered, hqueued, hdropped⟩ := h.pending y hy
      exact ⟨hdelivered, fun hmem => hqueued (hqueue ▸ List.mem_cons_of_mem x hmem), hdropped⟩
  waiting := fun y hy => h.waiting y (hqueue ▸ List.mem_cons_of_mem x hy)
  lost := h.lost

end Placed

section Ordered

variable {before : ι → ι → Prop} {kind : ι → Prop}

theorem Ordered.enter (h : Ordered before kind held l)
    (hdelivered : ∀ first ∈ l.delivered, before first.1 x)
    (hqueue : ∀ first ∈ l.queue, before first x) (hsingle : kind x → ∀ y ∈ held, ¬ kind y) :
    Ordered before kind (x :: held) (l.enter x) where
  received := h.received
  queue := h.queue
  behind := h.behind
  single := by
    intro first hfirst second hsecond hkind hkind'
    rcases List.mem_cons.mp hfirst with rfl | hold
    · rcases List.mem_cons.mp hsecond with rfl | hold
      · rfl
      · exact absurd hkind' (hsingle hkind second hold)
    · rcases List.mem_cons.mp hsecond with rfl | hold'
      · exact absurd hkind (hsingle hkind' first hold)
      · exact h.single first hold second hold' hkind hkind'
  last := by
    intro second hsecond hkind
    rcases List.mem_cons.mp hsecond with rfl | hsecond
    · exact ⟨fun first hfirst _ => .inr (hdelivered first hfirst), fun first hfirst _ =>
        hqueue first hfirst⟩
    · exact h.last second hsecond hkind

/-- The held item is delivered to another receiver. -/
theorem Ordered.deliver (h : Ordered before kind held l) (hx : x ∈ held) {k : κ}
    (hnew : (x, k) ∉ l.delivered) (hbehind : ∀ y ∈ l.queue, kind x → kind y → before x y) :
    Ordered before kind held (l.deliver x [k]) where
  received := by
    refine List.pairwise_append.mpr ⟨h.received, List.pairwise_singleton _ _, ?_⟩
    intro first hfirst second hsecond hkind hkind' hsame
    obtain rfl := List.mem_singleton.mp hsecond
    refine ((h.last x hx hkind').1 first hfirst hkind).resolve_left fun hfirst' => hnew ?_
    have hpair : first = (x, k) := Prod.ext hfirst' hsame
    exact hpair ▸ hfirst
  queue := h.queue
  behind := by
    intro first hfirst second hsecond hkind hkind'
    rcases List.mem_append.mp hfirst with hfirst | hfirst
    · exact h.behind first hfirst second hsecond hkind hkind'
    · obtain rfl := List.mem_singleton.mp hfirst
      exact hbehind second hsecond hkind hkind'
  single := h.single
  last := by
    intro second hsecond hkind
    obtain ⟨hdelivered, hqueue⟩ := h.last second hsecond hkind
    refine ⟨fun first hfirst hkind' => ?_, hqueue⟩
    rcases List.mem_append.mp hfirst with hfirst | hfirst
    · exact hdelivered first hfirst hkind'
    · obtain rfl := List.mem_singleton.mp hfirst
      exact .inl (h.single x hx second hsecond hkind' hkind)

/-- An item is held no longer. -/
theorem Ordered.close (h : Ordered before kind (x :: held) l) : Ordered before kind held l where
  received := h.received
  queue := h.queue
  behind := h.behind
  single first hfirst second hsecond :=
    h.single first (List.mem_cons_of_mem x hfirst) second (List.mem_cons_of_mem x hsecond)
  last second hsecond := h.last second (List.mem_cons_of_mem x hsecond)

theorem Ordered.keep (h : Ordered before kind (x :: held) l) (hopen : x ∉ held)
    (hnew : ¬ l.Delivered x) : Ordered before kind held (l.keep x) where
  received := h.received
  queue := by
    refine List.pairwise_append.mpr ⟨h.queue, List.pairwise_singleton _ x, ?_⟩
    intro first hfirst second hsecond hkind hkind'
    obtain rfl := List.mem_singleton.mp hsecond
    exact (h.last second List.mem_cons_self hkind').2 first hfirst hkind
  behind := by
    intro first hfirst second hsecond hkind hkind'
    rcases List.mem_append.mp hsecond with hsecond | hsecond
    · exact h.behind first hfirst second hsecond hkind hkind'
    · obtain rfl := List.mem_singleton.mp hsecond
      refine ((h.last second List.mem_cons_self hkind').1 first hfirst hkind).resolve_left ?_
      rintro rfl
      exact hnew ⟨first.2, hfirst⟩
  single := h.close.single
  last := by
    intro second hsecond hkind
    obtain ⟨hdelivered, hqueue⟩ := h.last second (List.mem_cons_of_mem x hsecond) hkind
    refine ⟨hdelivered, fun first hfirst hkind' => ?_⟩
    rcases List.mem_append.mp hfirst with hfirst | hfirst
    · exact hqueue first hfirst hkind'
    · obtain rfl := List.mem_singleton.mp hfirst
      have hsame := h.single first List.mem_cons_self second (List.mem_cons_of_mem first hsecond)
        hkind' hkind
      exact absurd (hsame ▸ hsecond) hopen

theorem Ordered.drop (h : Ordered before kind (x :: held) l) :
    Ordered before kind held (l.drop x) where
  received := h.received
  queue := h.queue
  behind := h.behind
  single := h.close.single
  last := h.close.last

/-- The first item that waits is delivered. -/
theorem Ordered.replay {rest : List ι} (h : Ordered before kind held l)
    (hqueue : l.queue = x :: rest) (k : κ) :
    Ordered before kind held ({ l with queue := rest }.deliver x [k]) where
  received := by
    refine List.pairwise_append.mpr ⟨h.received, List.pairwise_singleton _ _, ?_⟩
    intro first hfirst second hsecond hkind hkind' _
    obtain rfl := List.mem_singleton.mp hsecond
    exact h.behind first hfirst x (hqueue ▸ List.mem_cons_self) hkind hkind'
  queue := (List.pairwise_cons.mp (hqueue ▸ h.queue)).2
  behind := by
    intro first hfirst second hsecond hkind hkind'
    rcases List.mem_append.mp hfirst with hfirst | hfirst
    · exact h.behind first hfirst second (hqueue ▸ List.mem_cons_of_mem x hsecond) hkind hkind'
    · obtain rfl := List.mem_singleton.mp hfirst
      have hwaiting := h.queue
      rw [hqueue, List.pairwise_cons] at hwaiting
      exact hwaiting.1 second hsecond hkind hkind'
  single := h.single
  last := by
    intro second hsecond hkind
    obtain ⟨hdelivered, hwaiting⟩ := h.last second hsecond hkind
    rw [hqueue] at hwaiting
    refine ⟨fun first hfirst hkind' => ?_,
      fun first hfirst => hwaiting first (List.mem_cons_of_mem x hfirst)⟩
    rcases List.mem_append.mp hfirst with hfirst | hfirst
    · exact hdelivered first hfirst hkind'
    · obtain rfl := List.mem_singleton.mp hfirst
      exact .inr (hwaiting x List.mem_cons_self hkind')

end Ordered

end Ledger

end MctDaemon.Lib
