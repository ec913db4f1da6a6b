import MctDaemon.Lib.Run

/-!
Cutting a stream into frames. A framing reads at most one frame from the
front of a stream and says how many cells it took. If more input never
changes a frame that was read, then reading the frames of a stream does not
depend on the pieces it arrives in.
-/

namespace MctDaemon.Lib

universe u v

variable {α : Type u} {β : Type v}

/-- A reader of one frame: it takes cells that are there, at least one, and
later cells do not change what it took. -/
structure Framing (α : Type u) (β : Type v) where
  read : List α → Option (β × Nat)
  taken_pos : ∀ cells frame taken, read cells = some (frame, taken) →
    0 < taken ∧ taken ≤ cells.length
  stable : ∀ cells more frame taken, read cells = some (frame, taken) →
    read (cells ++ more) = some (frame, taken)

/-- Read frames as long as there are any: the frames and the rest. -/
def Framing.drain (framing : Framing α β) (cells : List α) : List β × List α :=
  match _hread : framing.read cells with
  | none => ([], cells)
  | some (frame, taken) =>
      let (frames, rest) := framing.drain (cells.drop taken)
      (frame :: frames, rest)
termination_by cells.length
decreasing_by
  have htaken := framing.taken_pos _ _ _ _hread
  rw [List.length_drop]
  omega

/-- One piece of the stream arrives behind the rest of the others. -/
def Framing.feed (framing : Framing α β) (rest piece : List α) : List β × List α :=
  framing.drain (rest ++ piece)

section Drain

variable (framing : Framing α β)

theorem Framing.drain_of_none {cells : List α} (h : framing.read cells = none) :
    framing.drain cells = ([], cells) := by
  rw [Framing.drain]
  split
  · rfl
  · rename_i hread
    rw [h] at hread
    cases hread

theorem Framing.drain_of_some {cells : List α} {frame : β} {taken : Nat}
    (h : framing.read cells = some (frame, taken)) :
    framing.drain cells = (frame :: (framing.drain (cells.drop taken)).1,
      (framing.drain (cells.drop taken)).2) := by
  rw [Framing.drain]
  split
  · rename_i hread
    rw [h] at hread
    cases hread
  · rename_i hread
    rw [h] at hread
    cases hread
    rfl

/-- Induction along the frames of a stream. -/
theorem Framing.drain_induction {motive : List α → Prop}
    (none : ∀ cells, framing.read cells = none → motive cells)
    (some : ∀ cells frame taken, framing.read cells = some (frame, taken) →
      motive (cells.drop taken) → motive cells) (cells : List α) : motive cells := by
  induction hlen : cells.length using Nat.strong_induction_on generalizing cells with
  | _ length ih =>
      cases hread : framing.read cells with
      | none => exact none cells hread
      | some result =>
          obtain ⟨frame, taken⟩ := result
          have htaken := framing.taken_pos _ _ _ hread
          refine some cells frame taken hread (ih (cells.drop taken).length ?_ _ rfl)
          rw [List.length_drop]
          omega

/-- No frame can be read from the rest. -/
theorem Framing.read_rest (cells : List α) :
    framing.read (framing.drain cells).2 = none := by
  induction cells using framing.drain_induction with
  | none cells hread =>
      rw [framing.drain_of_none hread]
      exact hread
  | some cells frame taken hread ih =>
      rw [framing.drain_of_some hread]
      exact ih

/-- The frames of a longer stream are those of its front, and then those of
what the front left over with the remaining cells behind it. -/
theorem Framing.drain_append (cells more : List α) :
    framing.drain (cells ++ more) =
      ((framing.drain cells).1 ++ (framing.drain ((framing.drain cells).2 ++ more)).1,
        (framing.drain ((framing.drain cells).2 ++ more)).2) := by
  induction cells using framing.drain_induction with
  | none cells hread =>
      rw [framing.drain_of_none hread]
      rfl
  | some cells frame taken hread ih =>
      have htaken := framing.taken_pos _ _ _ hread
      rw [framing.drain_of_some (framing.stable _ more _ _ hread),
        framing.drain_of_some hread, List.drop_append_of_le_length htaken.2, ih]
      rfl

/-- However a stream is cut into pieces, its frames and its rest are those of
the stream in one piece. -/
theorem Framing.feed_pieces (rest : List α) (hrest : framing.read rest = none)
    (pieces : List (List α)) :
    ((runOps framing.feed rest pieces).1.flatten, (runOps framing.feed rest pieces).2) =
      framing.drain (rest ++ pieces.flatten) := by
  induction pieces generalizing rest with
  | nil =>
      rw [List.flatten_nil, List.append_nil, framing.drain_of_none hrest]
      rfl
  | cons piece pieces ih =>
      have hlater := ih (framing.feed rest piece).2 (framing.read_rest _)
      simp only [runOps_cons, List.flatten_cons]
      rw [← List.append_assoc, framing.drain_append (rest ++ piece)]
      simp only [Framing.feed] at hlater ⊢
      rw [← hlater]

/-- Nothing is read from nothing. -/
theorem Framing.read_nil : framing.read [] = none := by
  cases hread : framing.read [] with
  | none => rfl
  | some result =>
      have htaken := framing.taken_pos [] result.1 result.2 hread
      simp only [List.length_nil] at htaken
      omega

/-- The frames of the front of a stream are the first ones of the stream. -/
theorem Framing.drain_front {front cells : List α} (h : front <+: cells) :
    (framing.drain front).1 <+: (framing.drain cells).1 := by
  obtain ⟨more, rfl⟩ := h
  rw [framing.drain_append]
  exact List.prefix_append _ _

variable {ι : Type*} {encode : ι → List α} {frame : ι → β}

/-- Items that are read as they are encoded, whatever stands behind them, are read one after the
other. -/
theorem Framing.drain_encoded (items : List ι)
    (hread : ∀ item ∈ items, ∀ more,
      framing.read (encode item ++ more) = some (frame item, (encode item).length)) :
    framing.drain (items.flatMap encode) = (items.map frame, []) := by
  induction items with
  | nil => exact framing.drain_of_none framing.read_nil
  | cons item items ih =>
      have hrest := ih fun later hlater => hread later (List.mem_cons_of_mem item hlater)
      rw [List.flatMap_cons, framing.drain_of_some (hread item List.mem_cons_self _),
        List.drop_left, hrest, List.map_cons]

end Drain

end MctDaemon.Lib
