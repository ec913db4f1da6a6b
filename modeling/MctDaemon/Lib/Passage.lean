import Mathlib.Data.List.Basic

/-!
A queue through which items pass. An item that enters is kept behind those that wait, or it
is dropped and counted; those in front leave one after the other; and what was counted is
reported. The items and what leaves for each of them are arbitrary.
-/

namespace MctDaemon.Lib

/-- The items that wait, and the number of dropped ones that was not reported yet. -/
structure LossyQueue (ι : Type*) where
  waiting : List ι
  counted : Nat

/-- Between the two states the `entered` items came, the `left` ones went, and `reported`
dropped ones were reported: of the items that came, some were kept, and those that waited
and these, in this order, are the ones that went and those that wait now. The others were
counted. -/
def Passage {ι ο : Type*} (render : ι → ο) (before : LossyQueue ι) (entered : List ι)
    (left : List ο) (reported : Nat) (after : LossyQueue ι) : Prop :=
  ∃ kept gone, kept.Sublist entered ∧ before.waiting ++ kept = gone ++ after.waiting ∧
    left = gone.map render ∧
    entered.length + before.counted = kept.length + reported + after.counted

namespace Passage

variable {ι ο : Type*} {render : ι → ο} {before middle after : LossyQueue ι}
variable {entered entered' : List ι} {left left' : List ο} {reported reported' : Nat}

theorem refl (queue : LossyQueue ι) : Passage render queue [] [] 0 queue :=
  ⟨[], [], List.Sublist.refl [], by simp, rfl, by simp⟩

theorem trans (h : Passage render before entered left reported middle)
    (h' : Passage render middle entered' left' reported' after) :
    Passage render before (entered ++ entered') (left ++ left') (reported + reported') after := by
  obtain ⟨kept, gone, hkept, hsplit, rfl, hcount⟩ := h
  obtain ⟨kept', gone', hkept', hsplit', rfl, hcount'⟩ := h'
  refine ⟨kept ++ kept', gone ++ gone', hkept.append hkept', ?_, (List.map_append).symm, ?_⟩
  · rw [← List.append_assoc, hsplit, List.append_assoc, hsplit', List.append_assoc]
  · simp only [List.length_append]
    omega

/-- The counted items are reported. -/
theorem report (waiting : List ι) (counted : Nat) :
    Passage render ⟨waiting, counted⟩ [] [] counted ⟨waiting, 0⟩ :=
  ⟨[], [], List.Sublist.refl [], by simp, rfl, by simp⟩

/-- The items in front leave. -/
theorem leave (gone waiting : List ι) (counted : Nat) :
    Passage render ⟨gone ++ waiting, counted⟩ [] (gone.map render) 0 ⟨waiting, counted⟩ :=
  ⟨[], gone, List.Sublist.refl [], by simp, rfl, by simp⟩

/-- An item is kept behind the others. -/
theorem keep (waiting : List ι) (counted : Nat) (item : ι) :
    Passage render ⟨waiting, counted⟩ [item] [] 0 ⟨waiting ++ [item], counted⟩ :=
  ⟨[item], [], List.Sublist.refl _, by simp, rfl, by simp⟩

/-- An item is dropped and counted. -/
theorem drop (waiting : List ι) (counted : Nat) (item : ι) :
    Passage render ⟨waiting, counted⟩ [item] [] 0 ⟨waiting, counted + 1⟩ :=
  ⟨[], [], List.nil_sublist _, by simp, rfl, by simp [Nat.add_comm]⟩

/-- An item finds no other one, and leaves at once. -/
theorem pass (counted : Nat) (item : ι) :
    Passage render ⟨[], counted⟩ [item] [render item] 0 ⟨[], counted⟩ :=
  ⟨[item], [item], List.Sublist.refl _, by simp, rfl, by simp⟩

end Passage

end MctDaemon.Lib
