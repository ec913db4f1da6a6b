import Mathlib.Logic.Function.Basic
import Mathlib.Tactic

/-!
Singly linked lists in a memory. A link is a place that holds a pointer to a cell: the
variable of the list or the `next` field of a cell. `Reaches` says which cells a pointer
leads through and where it ends up.
-/

namespace MctDaemon.Lib

universe u

/-- A place that holds a pointer to a cell. -/
inductive Link (α : Type u) where
  | head
  | next (cell : α)
  deriving DecidableEq, Repr

/-- The variable of a list, and the `next` fields of all cells. -/
structure Links (α : Type u) where
  head : Option α
  next : α → Option α

namespace Links

variable {α : Type u}

/-- `*link`. -/
def read (m : Links α) : Link α → Option α
  | .head => m.head
  | .next cell => m.next cell

/-- `*link = p`. -/
def write [DecidableEq α] (m : Links α) (link : Link α) (p : Option α) : Links α :=
  match link with
  | .head => { m with head := p }
  | .next cell => { m with next := Function.update m.next cell p }

end Links

section Reaches

variable {α : Type u} {next next' : α → Option α} {p q r : Option α} {a : α}
  {front back cells : List α}

/-- From the pointer `p` the `next` fields lead through the cells to the pointer `q`. -/
def Reaches (next : α → Option α) : Option α → List α → Option α → Prop
  | p, [], q => p = q
  | p, a :: rest, q => p = some a ∧ Reaches next (next a) rest q

@[simp] theorem reaches_nil : Reaches next p [] q ↔ p = q := Iff.rfl

@[simp] theorem reaches_cons :
    Reaches next p (a :: cells) q ↔ p = some a ∧ Reaches next (next a) cells q := Iff.rfl

theorem reaches_append :
    Reaches next p (front ++ back) q ↔ ∃ r, Reaches next p front r ∧ Reaches next r back q := by
  induction front generalizing p with
  | nil => simp
  | cons a front ih =>
      simp only [List.cons_append, reaches_cons, ih]
      constructor
      · rintro ⟨hstart, r, hfront, hback⟩
        exact ⟨r, ⟨hstart, hfront⟩, hback⟩
      · rintro ⟨r, ⟨hstart, hfront⟩, hback⟩
        exact ⟨hstart, r, hfront, hback⟩

/-- The pointer behind the first cells is the one that leads on. -/
theorem reaches_append_cons :
    Reaches next p (front ++ a :: back) q ↔
      Reaches next p front (some a) ∧ Reaches next (next a) back q := by
  rw [reaches_append]
  constructor
  · rintro ⟨r, hfront, rfl, hback⟩
    exact ⟨hfront, hback⟩
  · rintro ⟨hfront, hback⟩
    exact ⟨some a, hfront, rfl, hback⟩

/-- Only the `next` fields of the cells on the way matter. -/
theorem Reaches.congr (h : Reaches next p cells q) (hsame : ∀ c ∈ cells, next' c = next c) :
    Reaches next' p cells q := by
  induction cells generalizing p with
  | nil => exact h
  | cons a cells ih =>
      refine ⟨h.1, ?_⟩
      rw [hsame a List.mem_cons_self]
      exact ih h.2 fun c hc => hsame c (List.mem_cons_of_mem a hc)

/-- Where the pointers lead is determined by where they start. -/
theorem Reaches.unique {others : List α} (h : Reaches next p cells none)
    (hothers : Reaches next p others none) : cells = others := by
  induction cells generalizing p others with
  | nil =>
      cases others with
      | nil => rfl
      | cons b others => cases h.symm.trans hothers.1
  | cons a cells ih =>
      cases others with
      | nil => cases h.1.symm.trans hothers
      | cons b others =>
          cases h.1.symm.trans hothers.1
          exact congrArg (List.cons a) (ih h.2 hothers.2)

/-- A list that ends has no cell twice. -/
theorem Reaches.nodup (h : Reaches next p cells none) : cells.Nodup := by
  induction cells generalizing p with
  | nil => exact List.nodup_nil
  | cons a cells ih =>
      rw [List.nodup_cons]
      refine ⟨?_, ih h.2⟩
      intro hmem
      obtain ⟨front, back, rfl⟩ := List.append_of_mem hmem
      have hback := (reaches_append_cons.mp h.2).2
      have hlength := congrArg List.length (h.2.unique hback)
      rw [List.length_append, List.length_cons] at hlength
      omega

end Reaches

namespace Links

variable {α : Type u} {m : Links α} {p q : Option α} {a b : α} {front back cells : List α}

def Holds (m : Links α) (cells : List α) : Prop := Reaches m.next m.head cells none

/-- The link behind the first cells of a list. -/
def lastLink (front : List α) : Link α :=
  match front.getLast? with
  | none => .head
  | some cell => .next cell

@[simp] theorem lastLink_concat : lastLink (front ++ [a]) = .next a := by
  simp [lastLink]

variable [DecidableEq α]

@[simp] theorem write_next_next (m : Links α) (cell : α) (p : Option α) :
    (m.write (.next cell) p).next = Function.update m.next cell p := rfl

@[simp] theorem write_next_head (m : Links α) (cell : α) (p : Option α) :
    (m.write (.next cell) p).head = m.head := rfl

/-- A pointer stored behind the first cells leads on from there. -/
theorem reaches_write_lastLink (h : Reaches m.next m.head front p) (hnodup : front.Nodup)
    (q : Option α) :
    Reaches (m.write (lastLink front) q).next (m.write (lastLink front) q).head front q := by
  cases front using List.reverseRecOn with
  | nil => rfl
  | append_singleton front a =>
      obtain ⟨hfront, -⟩ := reaches_append_cons.mp h
      rw [lastLink_concat, reaches_append_cons]
      constructor
      · apply hfront.congr
        intro c hc
        apply Function.update_of_ne
        rintro rfl
        exact (List.nodup_append.mp hnodup).2.2 c hc c List.mem_cons_self rfl
      · rw [reaches_nil, write_next_next, Function.update_self]

/-- The cells behind are not touched by that. -/
theorem write_lastLink_next (hdisjoint : ∀ c ∈ back, c ∉ front) (q : Option α) :
    ∀ c ∈ back, (m.write (lastLink front) q).next c = m.next c := by
  intro c hc
  cases front using List.reverseRecOn with
  | nil => rfl
  | append_singleton front a =>
      rw [lastLink_concat]
      apply Function.update_of_ne
      rintro rfl
      exact hdisjoint c hc (by simp)

/-- Two neighbours change places: the first one takes over what the second one led to, the
second one leads to the first, and the link in front leads to the second. -/
theorem Holds.swap (h : m.Holds (front ++ a :: b :: back))
    (hnodup : (front ++ a :: b :: back).Nodup) :
    (((m.write (.next a) (m.next b)).write (.next b) (some a)).write (lastLink front)
      (some b)).Holds (front ++ b :: a :: back) := by
  obtain ⟨hfront, hab, hback⟩ := reaches_append_cons.mp h
  obtain ⟨hfrontNodup, hrest, hapart⟩ := List.nodup_append.mp hnodup
  rw [List.nodup_cons, List.nodup_cons] at hrest
  obtain ⟨hanotin, hbnotin, -⟩ := hrest
  have hne : a ≠ b := fun heq => hanotin (heq ▸ List.mem_cons_self)
  have haFront : ∀ c ∈ front, c ≠ a := fun c hc => hapart c hc a List.mem_cons_self
  have hbFront : ∀ c ∈ front, c ≠ b := fun c hc => hapart c hc b (by simp)
  generalize hm : (m.write (.next a) (m.next b)).write (.next b) (some a) = m'
  have hnext : m'.next = Function.update (Function.update m.next a (m.next b)) b (some a) := by
    rw [← hm]
    rfl
  have hfront' : Reaches m'.next m'.head front (some a) := by
    have hhead : m'.head = m.head := by
      rw [← hm]
      rfl
    rw [hhead, hnext]
    apply hfront.congr
    intro c hc
    rw [Function.update_of_ne (hbFront c hc), Function.update_of_ne (haFront c hc)]
  have hkept : ∀ c ∈ b :: a :: back, (m'.write (lastLink front) (some b)).next c = m'.next c := by
    apply write_lastLink_next
    intro c hc hcFront
    refine hapart c hcFront c ?_ rfl
    simp only [List.mem_cons] at hc ⊢
    tauto
  rw [Holds, reaches_append_cons]
  refine ⟨reaches_write_lastLink hfront' hfrontNodup _, ?_, ?_⟩
  · rw [hkept b (by simp), hnext, Function.update_self]
  · rw [hkept a (by simp), hnext, Function.update_of_ne hne, Function.update_self]
    apply hback.congr
    intro c hc
    rw [hkept c (by simp [hc]), hnext, Function.update_of_ne, Function.update_of_ne]
    · rintro rfl
      exact hanotin (List.mem_cons_of_mem b hc)
    · rintro rfl
      exact hbnotin hc

/-- The list is cut in two, its end is led back to its start, and it begins at the cut. -/
theorem Holds.rotate (h : m.Holds (front ++ a :: back)) (hnodup : (front ++ a :: back).Nodup)
    (hfront : front ≠ []) :
    { (m.write (lastLink front) none).write (lastLink (a :: back)) m.head with
      head := some a }.Holds (a :: back ++ front) := by
  obtain ⟨hreach, hback⟩ := reaches_append_cons.mp h
  obtain ⟨hfrontNodup, hbackNodup, hapart⟩ := List.nodup_append.mp hnodup
  have hcut := reaches_write_lastLink hreach hfrontNodup none
  have hkept : ∀ c ∈ a :: back, (m.write (lastLink front) none).next c = m.next c :=
    write_lastLink_next (fun c hc hcFront => hapart c hcFront c hc rfl) none
  have hheads : ∀ (m : Links α) (cells : List α) (p : Option α), cells ≠ [] →
      (m.write (lastLink cells) p).head = m.head ∧
        ∀ q, ({ m with head := q }.write (lastLink cells) p).next =
          (m.write (lastLink cells) p).next := by
    intro m cells p hne
    cases cells using List.reverseRecOn with
    | nil => exact absurd rfl hne
    | append_singleton cells c =>
        rw [lastLink_concat]
        exact ⟨rfl, fun q => rfl⟩
  rw [(hheads m front none hfront).1] at hcut
  generalize m.write (lastLink front) none = cut at hcut hkept ⊢
  have hbackCut : Reaches cut.next (some a) (a :: back) none := by
    refine ⟨rfl, ?_⟩
    rw [hkept a List.mem_cons_self]
    exact hback.congr fun c hc => hkept c (List.mem_cons_of_mem a hc)
  have htail := @reaches_write_lastLink α { cut with head := some a } none (a :: back) _ hbackCut
    hbackNodup m.head
  rw [(hheads cut (a :: back) m.head (List.cons_ne_nil a back)).2,
    (hheads { cut with head := some a } (a :: back) m.head (List.cons_ne_nil a back)).1] at htail
  rw [Holds, reaches_append]
  have hfrontKept : ∀ c ∈ front, (cut.write (lastLink (a :: back)) m.head).next c = cut.next c :=
    write_lastLink_next (fun c hc hcBack => hapart c hc c hcBack rfl) m.head
  exact ⟨m.head, htail, hcut.congr hfrontKept⟩

end Links

end MctDaemon.Lib
