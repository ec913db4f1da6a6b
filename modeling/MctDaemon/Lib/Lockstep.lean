import Mathlib.Tactic

/-!
A loop run over two memories. A memory is a function from addresses to cells.
As long as every turn reads only where the memories agree, both runs take the
same turns and end in the same state.
-/

namespace MctDaemon.Lib

section Memory

variable {α : Type*}

/-- The `len` cells from `off` on. -/
def cellsAt (mem : Nat → α) (off len : Nat) : List α := (List.range' off len).map mem

@[simp] theorem cellsAt_length (mem : Nat → α) (off len : Nat) :
    (cellsAt mem off len).length = len := by
  simp [cellsAt]

theorem cellsAt_drop (mem : Nat → α) (off len n : Nat) :
    (cellsAt mem off len).drop n = cellsAt mem (off + n) (len - n) := by
  rw [cellsAt, cellsAt, ← List.map_drop, List.drop_range', Nat.mul_one]

theorem cellsAt_take (mem : Nat → α) (off : Nat) {len n : Nat} (h : n ≤ len) :
    (cellsAt mem off len).take n = cellsAt mem off n := by
  rw [cellsAt, cellsAt, ← List.map_take, List.take_range'_of_length_ge h]

theorem cellsAt_append (mem : Nat → α) (off first second : Nat) :
    cellsAt mem off first ++ cellsAt mem (off + first) second =
      cellsAt mem off (first + second) := by
  rw [cellsAt, cellsAt, cellsAt, ← List.map_append, List.range'_append_1]

/-- A part of the cells read stands at its own place. -/
theorem cellsAt_mid {mem : Nat → α} {off len : Nat} {front part back : List α}
    (h : cellsAt mem off len = front ++ part ++ back) :
    cellsAt mem (off + front.length) part.length = part := by
  have hlength := congrArg List.length h
  simp only [cellsAt_length, List.length_append] at hlength
  have hdrop := congrArg (List.drop front.length) h
  rw [cellsAt_drop, List.append_assoc, List.drop_left] at hdrop
  rw [← cellsAt_take mem _ (show part.length ≤ len - front.length by omega), hdrop,
    List.take_left]

/-- `memcpy(mem + off, data, |data|)`. -/
def overlay (mem : Nat → α) (off : Nat) (data : List α) : Nat → α := fun i =>
  if off ≤ i then data.getD (i - off) (mem i) else mem i

/-- Both memories hold the same from `start` up to `stop`. -/
def AgreeOn (start stop : Nat) (mem mem' : Nat → α) : Prop :=
  ∀ i, start ≤ i → i < stop → mem i = mem' i

theorem cellsAt_overlay (mem : Nat → α) (off : Nat) (data : List α) :
    cellsAt (overlay mem off data) off data.length = data := by
  apply List.ext_getElem
  · simp
  · intro i hcell hdata
    simp [cellsAt, overlay, hdata]

/-- What lies before the data stays. -/
theorem cellsAt_overlay_before (mem : Nat → α) {off start len : Nat} (data : List α)
    (h : start + len ≤ off) : cellsAt (overlay mem off data) start len = cellsAt mem start len := by
  apply List.map_congr_left
  intro i hi
  obtain ⟨hlow, hhigh⟩ := List.mem_range'_1.mp hi
  rw [overlay, if_neg (by omega)]

namespace AgreeOn

variable {mem mem' : Nat → α} {start stop : Nat}

theorem mono (h : AgreeOn start stop mem mem') {start' stop' : Nat} (hstart : start ≤ start')
    (hstop : stop' ≤ stop) : AgreeOn start' stop' mem mem' := by
  intro i hlow hhigh
  apply h i
  · omega
  · omega

theorem cellsAt_eq (h : AgreeOn start stop mem mem') {off len : Nat} (hoff : start ≤ off)
    (hlen : off + len ≤ stop) : cellsAt mem off len = cellsAt mem' off len := by
  apply List.map_congr_left
  intro i hi
  obtain ⟨hlow, hhigh⟩ := List.mem_range'_1.mp hi
  apply h i
  · omega
  · omega

theorem of_cellsAt (h : cellsAt mem start (stop - start) = cellsAt mem' start (stop - start)) :
    AgreeOn start stop mem mem' := by
  intro i hlow hhigh
  apply List.map_inj_left.mp h
  apply List.mem_range'_1.mpr
  omega

end AgreeOn

end Memory

section Loop

variable {σ : Type*} {going : σ → Bool} {turn turn' : σ → Bool × σ}

/-- `while (going && run_loop) { run_loop = turn; }`, for at most so many
turns. -/
def loopFor (going : σ → Bool) (turn : σ → Bool × σ) : Nat → σ → σ
  | 0, s => s
  | turns + 1, s =>
      if going s then
        if (turn s).1 then loopFor going turn turns (turn s).2 else (turn s).2
      else s

/-- The states in which the loop begins a turn. -/
def turnStarts (going : σ → Bool) (turn : σ → Bool × σ) : Nat → σ → List σ
  | 0, _ => []
  | turns + 1, s =>
      if going s then
        s :: if (turn s).1 then turnStarts going turn turns (turn s).2 else []
      else []

theorem loopFor_of_stopped {s : σ} (h : going s = false) (turns : Nat) :
    loopFor going turn turns s = s := by
  cases turns with
  | zero => rfl
  | succ turns => simp [loopFor, h]

/-- If every turn that continues makes a measure smaller, more turns than its
value are never taken. -/
theorem loopFor_enough (size : σ → Nat)
    (hless : ∀ s, going s = true → (turn s).1 = true → size (turn s).2 < size s)
    (hgoing : ∀ s, going s = true → 0 < size s) (turns more : Nat) (s : σ)
    (h : size s ≤ turns) :
    loopFor going turn (turns + more) s = loopFor going turn turns s := by
  induction turns generalizing s with
  | zero =>
      have hstop : going s = false := by
        cases hgo : going s with
        | false => rfl
        | true => have := hgoing s hgo; omega
      cases more with
      | zero => rfl
      | succ more => simp [loopFor, hstop]
  | succ turns ih =>
      rw [Nat.add_right_comm, loopFor, loopFor]
      by_cases hgo : going s = true
      · by_cases hcont : (turn s).1 = true
        · have hsmaller := hless s hgo hcont
          rw [if_pos hgo, if_pos hgo, if_pos hcont, if_pos hcont, ← ih (turn s).2 (by omega)]
        · rw [if_pos hgo, if_pos hgo, if_neg hcont, if_neg hcont]
      · rw [if_neg hgo, if_neg hgo]

/-- What holds in the first state and is kept by every turn from a sound state
holds in the last state, if all turns begin in sound states. -/
theorem loopFor_invariant {inv sound : σ → Prop}
    (hkeep : ∀ s, going s = true → sound s → inv s → inv (turn s).2) (turns : Nat) (s : σ)
    (h : inv s) (hsound : ∀ start ∈ turnStarts going turn turns s, sound start) :
    inv (loopFor going turn turns s) := by
  induction turns generalizing s with
  | zero => exact h
  | succ turns ih =>
      rw [turnStarts] at hsound
      rw [loopFor]
      by_cases hgo : going s = true
      · rw [if_pos hgo] at hsound ⊢
        have hnext : inv (turn s).2 := hkeep s hgo (hsound s List.mem_cons_self) h
        by_cases hcont : (turn s).1 = true
        · rw [if_pos hcont] at hsound ⊢
          apply ih _ hnext
          intro start hstart
          exact hsound start (List.mem_cons_of_mem _ hstart)
        · rw [if_neg hcont]
          exact hnext
      · rw [if_neg hgo]
        exact h

/-- What one turn establishes and every turn keeps holds at the end, if the
loop takes that turn. -/
theorem loopFor_of_turn {inv : σ → Prop}
    (hkeep : ∀ s, going s = true → inv s → inv (turn s).2) {turns : Nat} {s start : σ}
    (hstart : start ∈ turnStarts going turn turns s) (h : inv (turn start).2) :
    inv (loopFor going turn turns s) := by
  induction turns generalizing s with
  | zero => simp [turnStarts] at hstart
  | succ turns ih =>
      rw [turnStarts] at hstart
      rw [loopFor]
      by_cases hgo : going s = true
      · rw [if_pos hgo] at hstart ⊢
        rcases List.mem_cons.mp hstart with rfl | hlater
        · have hlater : ∀ s, going s = true → True → inv s → inv (turn s).2 :=
            fun s hgo _ hinv => hkeep s hgo hinv
          split
          · exact loopFor_invariant hlater turns _ h fun _ _ => trivial
          · exact h
        · by_cases hcont : (turn s).1 = true
          · rw [if_pos hcont] at hlater ⊢
            exact ih hlater
          · rw [if_neg hcont] at hlater
            cases hlater
      · rw [if_neg hgo] at hstart
        cases hstart

theorem going_of_mem_turnStarts {turns : Nat} {s start : σ}
    (hstart : start ∈ turnStarts going turn turns s) : going start = true := by
  induction turns generalizing s with
  | zero => simp [turnStarts] at hstart
  | succ turns ih =>
      rw [turnStarts] at hstart
      split at hstart
      · rename_i hgo
        rcases List.mem_cons.mp hstart with rfl | hlater
        · exact hgo
        · split at hlater
          · exact ih hlater
          · cases hlater
      · cases hstart

/-- Two loops whose turns do the same in every state that the first one comes
through. -/
theorem loopFor_lockstep {inv : σ → Prop} {sound : σ → Prop}
    (hkeep : ∀ s, going s = true → inv s → inv (turn s).2)
    (hsame : ∀ s, going s = true → inv s → sound s → turn s = turn' s) (turns : Nat) (s : σ)
    (h : inv s) (hsound : ∀ start ∈ turnStarts going turn turns s, sound start) :
    loopFor going turn turns s = loopFor going turn' turns s ∧
      turnStarts going turn turns s = turnStarts going turn' turns s := by
  induction turns generalizing s with
  | zero => exact ⟨rfl, rfl⟩
  | succ turns ih =>
      simp only [loopFor, turnStarts] at hsound ⊢
      by_cases hgo : going s = true
      · simp only [if_pos hgo] at hsound ⊢
        have hturn : turn s = turn' s := hsame s hgo h (hsound s List.mem_cons_self)
        rw [← hturn]
        by_cases hcont : (turn s).1 = true
        · simp only [if_pos hcont] at hsound ⊢
          obtain ⟨hloop, hstarts⟩ := ih (turn s).2 (hkeep s hgo h) fun start hmem =>
            hsound start (List.mem_cons_of_mem _ hmem)
          exact ⟨hloop, congrArg _ hstarts⟩
        · simp [hcont]
      · simp [hgo]

end Loop

end MctDaemon.Lib
