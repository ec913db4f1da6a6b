import Mathlib.Data.List.Chain
import Mathlib.Data.List.Count
import Mathlib.Tactic

/-!
A walk along a list by position, while elements are taken out of the list as the walk
comes to them. The element behind one that is taken out moves to the place the walk is
about to leave. The elements are arbitrary.
-/

namespace MctDaemon.Lib

variable {α : Type*} (out p : α → Prop) [DecidablePred out]

def visited : List α → List α
  | [] => []
  | [x] => [x]
  | x :: y :: rest => x :: if out x then visited rest else visited (y :: rest)

theorem visited_cons_of_not {x : α} (h : ¬ out x) (rest : List α) :
    visited out (x :: rest) = x :: visited out rest := by
  cases rest with
  | nil => rfl
  | cons y rest => rw [visited, if_neg h]

theorem visited_cons_of_out {x : α} (h : out x) (rest : List α) :
    visited out (x :: rest) = x :: visited out rest.tail := by
  cases rest with
  | nil => rfl
  | cons y rest => rw [visited, if_pos h, List.tail_cons]

theorem visited_sublist (l : List α) : (visited out l).Sublist l := by
  induction l using visited.induct with
  | case1 => exact List.Sublist.refl _
  | case2 x => exact List.Sublist.refl _
  | case3 x y rest ihrest ihnext =>
      rw [visited]
      split
      · exact (ihrest.cons y).cons_cons x
      · exact ihnext.cons_cons x

variable {out p} [DecidableEq α]

theorem notMem_of_count_cons {x : α} {l : List α} (h : (x :: l).count x ≤ 1) : x ∉ l := by
  rw [List.count_cons_self] at h
  exact List.count_eq_zero.mp (by omega)

/-- The walk comes to all elements of a kind if and only if none of them stands right
behind one that is taken out, when only elements of that kind are taken out and none
of them occurs twice. -/
theorem forall_mem_visited_iff (hout : ∀ x, out x → p x) {l : List α}
    (hcount : ∀ x, p x → l.count x ≤ 1) :
    (∀ x ∈ l, p x → x ∈ visited out l) ↔ l.IsChain fun x y => ¬(out x ∧ p y) := by
  induction l using visited.induct with
  | case1 => simp [visited]
  | case2 x => simp [visited]
  | case3 x y rest ihrest ihnext =>
      have hnext : ∀ z, p z → (y :: rest).count z ≤ 1 :=
        fun z hz => ((List.sublist_cons_self x _).count_le z).trans (hcount z hz)
      have hrest : ∀ z, p z → rest.count z ≤ 1 :=
        fun z hz => ((List.sublist_cons_self y _).count_le z).trans (hnext z hz)
      have hbehind : ∀ z ∈ y :: rest, p z → z ≠ x := by
        rintro z hz hpz rfl
        exact notMem_of_count_cons (hcount z hpz) hz
      rw [visited, List.isChain_cons_cons]
      by_cases hx : out x
      · rw [if_pos hx]
        constructor
        · intro hall
          have hy : ¬ p y := by
            intro hy
            rcases List.mem_cons.mp (hall y (by simp) hy) with hsame | hmem
            · exact hbehind y List.mem_cons_self hy hsame
            · exact notMem_of_count_cons (hnext y hy) ((visited_sublist out rest).mem hmem)
          have hchain : rest.IsChain fun x y => ¬(out x ∧ p y) := by
            refine (ihrest hrest).mp fun z hz hpz => ?_
            rcases List.mem_cons.mp (hall z (by simp [hz]) hpz) with hsame | hmem
            · exact absurd hsame (hbehind z (List.mem_cons_of_mem _ hz) hpz)
            · exact hmem
          refine ⟨fun hboth => hy hboth.2, ?_⟩
          cases rest with
          | nil => exact List.isChain_singleton y
          | cons z rest =>
              exact List.isChain_cons_cons.mpr ⟨fun hboth => hy (hout y hboth.1), hchain⟩
        · rintro ⟨hlink, hchain⟩ z hz hpz
          have hy : ¬ p y := fun hy => hlink ⟨hx, hy⟩
          rcases List.mem_cons.mp hz with rfl | hz
          · exact List.mem_cons_self
          · rcases List.mem_cons.mp hz with rfl | hz
            · exact absurd hpz hy
            · exact List.mem_cons_of_mem _ ((ihrest hrest).mpr hchain.tail z hz hpz)
      · rw [if_neg hx]
        constructor
        · intro hall
          refine ⟨fun hboth => hx hboth.1, (ihnext hnext).mp fun z hz hpz => ?_⟩
          rcases List.mem_cons.mp (hall z (List.mem_cons_of_mem _ hz) hpz) with hsame | hmem
          · exact absurd hsame (hbehind z hz hpz)
          · exact hmem
        · rintro ⟨-, hchain⟩ z hz hpz
          rcases List.mem_cons.mp hz with rfl | hz
          · exact List.mem_cons_self
          · exact List.mem_cons_of_mem _ ((ihnext hnext).mpr hchain z hz hpz)

end MctDaemon.Lib

namespace MctDaemon.Lib

section Order

variable {α : Type*} (out p : α → Prop) [DecidablePred out] [DecidablePred p]

/-- All elements of a kind, in their order, or not all of them. -/
theorem filter_visited_iff {l : List α} (hnodup : l.Nodup) :
    (visited out l).filter p = l.filter p ↔ ∀ x ∈ l, p x → x ∈ visited out l := by
  have hsub : ((visited out l).filter p).Sublist (l.filter p) :=
    (visited_sublist out l).filter p
  constructor
  · intro heq x hx hpx
    have hmem : x ∈ (visited out l).filter p := by
      rw [heq]
      exact List.mem_filter.mpr ⟨hx, by simpa using hpx⟩
    exact (List.mem_filter.mp hmem).1
  · intro hall
    apply hsub.eq_of_length_le
    have hsubset : l.filter p ⊆ (visited out l).filter p := by
      intro x hx
      obtain ⟨hmem, hpx⟩ := List.mem_filter.mp hx
      exact List.mem_filter.mpr ⟨hall x hmem (by simpa using hpx), hpx⟩
    exact ((hnodup.filter _).subperm hsubset).length_le

/-- The walk comes to all elements of a kind, in their order, if and only if none of them stands
right behind one that is taken out. -/
theorem filter_visited_iff_isChain (hout : ∀ x, out x → p x) {l : List α} (hnodup : l.Nodup) :
    (visited out l).filter p = l.filter p ↔ l.IsChain fun x y => ¬(out x ∧ p y) := by
  classical
  rw [filter_visited_iff out p hnodup]
  apply forall_mem_visited_iff hout
  intro x _
  exact List.nodup_iff_count_le_one.mp hnodup x

end Order

section Loop

variable {α β : Type*}

/-- One turn of a loop over positions: the entry at the position is replaced or taken out. -/
def turnAt (g : β → Option β) (t : Nat) (l : List β) : List β :=
  match l[t]? with
  | none => l
  | some b =>
      match g b with
      | some b' => l.set t b'
      | none => l.eraseIdx t

/-- The entries that the turns of the loop find, with the positions of the turns. -/
def entriesAt (g : Nat → β → Option β) : List Nat → List β → List (Nat × β)
  | [], _ => []
  | t :: ts, l => (l[t]?.map fun b => (t, b)).toList ++ entriesAt g ts (turnAt (g t) t l)

variable (out : α → Prop) [DecidablePred out] (put val : α → β)

/-- What the walk leaves: an element it comes to is put back or taken out, an element it passes
over is as it was. -/
def leftover : List α → List β
  | [] => []
  | [x] => if out x then [] else [put x]
  | x :: y :: rest =>
      if out x then val y :: leftover rest else put x :: leftover (y :: rest)

/-- The turns of the loop do to the entries they find what the walk does to its elements. -/
def AnswersAlong (g : Nat → β → Option β) (t : Nat) (l : List α) : Prop :=
  ∀ j x, (visited out l)[j]? = some x → g (t + j) (val x) = if out x then none else some (put x)

variable {out put val} {g : Nat → β → Option β}

theorem AnswersAlong.head {t : Nat} {x : α} {rest : List α}
    (h : AnswersAlong out put val g t (x :: rest)) :
    g t (val x) = if out x then none else some (put x) := by
  apply h 0 x
  cases rest with
  | nil => rfl
  | cons y rest => rfl

theorem AnswersAlong.tail {t : Nat} {x : α} {rest : List α}
    (h : AnswersAlong out put val g t (x :: rest)) :
    AnswersAlong out put val g (t + 1) (if out x then rest.tail else rest) := by
  intro j y hy
  have hnext : (visited out (x :: rest))[j + 1]? = some y := by
    split at hy
    · next hx => rw [visited_cons_of_out out hx, List.getElem?_cons_succ, hy]
    · next hx => rw [visited_cons_of_not out hx, List.getElem?_cons_succ, hy]
  have hturn := h (j + 1) y hnext
  rwa [← Nat.add_assoc, Nat.add_right_comm] at hturn

theorem turnAt_front {front rest : List β} {b : β} (g : β → Option β) :
    turnAt g front.length (front ++ b :: rest) =
      front ++ ((g b).toList ++ rest) := by
  rw [turnAt, List.getElem?_append_right (Nat.le_refl _), Nat.sub_self, List.getElem?_cons_zero]
  cases hb : g b with
  | none => simp [hb, List.eraseIdx_append_of_length_le]
  | some b' => simp [hb]

theorem turnAt_behind {l : List β} {t : Nat} (h : l.length ≤ t) (g : β → Option β) :
    turnAt g t l = l := by
  rw [turnAt, List.getElem?_eq_none h]

theorem foldl_turnAt_behind {l : List β} {ts : List Nat} (h : ∀ t ∈ ts, l.length ≤ t) :
    ts.foldl (fun l t => turnAt (g t) t l) l = l := by
  induction ts with
  | nil => rfl
  | cons t ts ih =>
      rw [List.foldl_cons, turnAt_behind (h t List.mem_cons_self)]
      exact ih fun u hu => h u (List.mem_cons_of_mem _ hu)

theorem entriesAt_behind {l : List β} {ts : List Nat} (h : ∀ t ∈ ts, l.length ≤ t) :
    entriesAt g ts l = [] := by
  induction ts with
  | nil => rfl
  | cons t ts ih =>
      have ht := h t List.mem_cons_self
      rw [entriesAt, turnAt_behind ht, List.getElem?_eq_none ht]
      exact ih fun u hu => h u (List.mem_cons_of_mem _ hu)

theorem le_of_mem_range' {start len t : Nat} (h : t ∈ List.range' start len) : start ≤ t :=
  (List.mem_range'_1.mp h).1

/-- The loop over the positions of an array leaves what the walk leaves. -/
theorem foldl_turnAt (front : List β) (l : List α) {k : Nat} (hk : l.length ≤ k)
    (h : AnswersAlong out put val g front.length l) :
    (List.range' front.length k).foldl (fun l t => turnAt (g t) t l) (front ++ l.map val) =
      front ++ leftover out put val l := by
  induction l using visited.induct generalizing front k with
  | case1 =>
      rw [List.map_nil, leftover, List.append_nil]
      exact foldl_turnAt_behind fun t ht => le_of_mem_range' ht
  | case2 x =>
      obtain ⟨k, rfl⟩ := Nat.exists_eq_add_of_le' (show 1 ≤ k from hk)
      have hleft : (if out x then none else some (put x)).toList =
          (if out x then [] else [put x] : List β) := by split <;> rfl
      rw [List.range'_succ, List.foldl_cons, List.map_cons, turnAt_front, h.head, List.map_nil,
        List.append_nil, leftover, hleft]
      apply foldl_turnAt_behind
      intro t ht
      have hle := le_of_mem_range' ht
      split <;> simp <;> omega
  | case3 x y rest ihrest ihnext =>
      obtain ⟨k, rfl⟩ := Nat.exists_eq_add_of_le' (show 1 ≤ k by simp at hk; omega)
      have htail := h.tail
      rw [List.range'_succ, List.foldl_cons, List.map_cons, turnAt_front, h.head, leftover]
      by_cases hx : out x
      · rw [if_pos hx] at htail ⊢
        rw [if_pos hx]
        have hlen : rest.length ≤ k := by simp at hk; omega
        have hrun := ihrest (front ++ [val y]) hlen (by simpa using htail)
        simpa using hrun
      · rw [if_neg hx] at htail ⊢
        rw [if_neg hx]
        have hlen : (y :: rest).length ≤ k := by simp at hk ⊢; omega
        have hrun := ihnext (front ++ [put x]) hlen (by simpa using htail)
        simpa using hrun

/-- The entries the loop finds are the elements the walk comes to. -/
theorem entriesAt_range' (front : List β) (l : List α) {k : Nat} (hk : l.length ≤ k)
    (h : AnswersAlong out put val g front.length l) :
    entriesAt g (List.range' front.length k) (front ++ l.map val) =
      ((visited out l).zipIdx front.length).map fun found => (found.2, val found.1) := by
  induction l using visited.induct generalizing front k with
  | case1 =>
      rw [List.map_nil, List.append_nil]
      exact entriesAt_behind fun t ht => le_of_mem_range' ht
  | case2 x =>
      obtain ⟨k, rfl⟩ := Nat.exists_eq_add_of_le' (show 1 ≤ k from hk)
      rw [List.range'_succ, entriesAt, List.map_cons, turnAt_front, h.head, List.map_nil,
        List.append_nil, entriesAt_behind]
      · simp [visited]
      · intro t ht
        have hle := le_of_mem_range' ht
        split <;> simp <;> omega
  | case3 x y rest ihrest ihnext =>
      obtain ⟨k, rfl⟩ := Nat.exists_eq_add_of_le' (show 1 ≤ k by simp at hk; omega)
      have htail := h.tail
      rw [List.range'_succ, entriesAt, List.map_cons, turnAt_front, h.head, visited]
      by_cases hx : out x
      · rw [if_pos hx] at htail ⊢
        have hlen : rest.length ≤ k := by simp at hk; omega
        have hrun := ihrest (front ++ [val y]) hlen (by simpa using htail)
        simpa [hx] using hrun
      · rw [if_neg hx] at htail ⊢
        have hlen : (y :: rest).length ≤ k := by simp at hk ⊢; omega
        have hrun := ihnext (front ++ [put x]) hlen (by simpa using htail)
        simpa [hx] using hrun

/-- Where no element of a kind stands right behind one that is taken out, and the others are put
back as they are, the array holds the elements that stay, each put back. -/
theorem leftover_of_isChain {p : α → Prop} (hput : ∀ x, ¬ p x → put x = val x)
    (hout : ∀ x, out x → p x) {l : List α} (h : l.IsChain fun x y => ¬(out x ∧ p y)) :
    leftover out put val l = (l.filter fun x => ¬ out x).map put := by
  induction l using visited.induct with
  | case1 => rfl
  | case2 x => by_cases hx : out x <;> simp [leftover, hx]
  | case3 x y rest ihrest ihnext =>
      obtain ⟨hlink, hnext⟩ := List.isChain_cons_cons.mp h
      rw [leftover]
      by_cases hx : out x
      · have hy : ¬ p y := fun hy => hlink ⟨hx, hy⟩
        have hyout : ¬ out y := fun hy' => hy (hout y hy')
        rw [if_pos hx, ihrest hnext.tail, ← hput y hy]
        simp [hx, hyout]
      · rw [if_neg hx, ihnext hnext]
        simp [hx]

end Loop

section Choice

variable {σ ι : Type*} {step : σ → ι → σ} {chosen : σ → ι → Bool}

/-- A walk that acts on the elements it chooses, when acting changes no choice. -/
theorem foldl_ite_eq_filter (hkeep : ∀ s i j, chosen (step s i) j = chosen s j) (items : List ι)
    (s : σ) :
    items.foldl (fun s i => if chosen s i then step s i else s) s =
      (items.filter (chosen s)).foldl step s := by
  induction items generalizing s with
  | nil => rfl
  | cons i items ih =>
      rw [List.foldl_cons, ih]
      by_cases hi : chosen s i = true
      · have hsame : chosen (step s i) = chosen s := funext fun j => hkeep s i j
        rw [if_pos hi, hsame, List.filter_cons_of_pos hi, List.foldl_cons]
      · rw [if_neg hi, List.filter_cons_of_neg hi]

end Choice

/-- Induction along a fold, with what lies before and behind each element. -/
theorem foldl_prefix_induction {σ ι : Type*} {step : σ → ι → σ} {motive : List ι → σ → Prop}
    {all : List ι}
    (hstep : ∀ done i later s, all = done ++ i :: later → motive done s →
      motive (done ++ [i]) (step s i)) (s : σ) (h : motive [] s) :
    motive all (all.foldl step s) := by
  have hrun (later : List ι) : ∀ (done : List ι) (s : σ), all = done ++ later → motive done s →
      motive all (later.foldl step s) := by
    induction later with
    | nil =>
        intro done s hall hdone
        rw [hall, List.append_nil]
        exact hdone
    | cons i later ih =>
        intro done s hall hdone
        apply ih (done ++ [i])
        · rw [hall, List.append_assoc, List.singleton_append]
        · exact hstep done i later s hall hdone
  exact hrun all [] s rfl h

end MctDaemon.Lib
