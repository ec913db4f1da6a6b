import Mathlib.Data.List.TakeWhile
import Mathlib.Tactic

/-!
A buffer that is used for one message after the other. Its first cells belong to the present
message, the others are left over from earlier ones. Reading past the last cell gives nothing.
-/

namespace MctDaemon.Lib

structure ReusedBuffer (α : Type*) where
  cells : List α
  used : Nat
  used_le : used ≤ cells.length

namespace ReusedBuffer

variable {α β : Type*}

/-- The cells of the message. -/
def own (b : ReusedBuffer α) : List α := b.cells.take b.used

/-- A buffer for a message, with something left over behind it. -/
def ofParts (own rest : List α) : ReusedBuffer α where
  cells := own ++ rest
  used := own.length
  used_le := by simp

def SameOwn (b b' : ReusedBuffer α) : Prop := b.own = b'.own

def read (b : ReusedBuffer α) (off len : Nat) : Option (List α) :=
  if off + len ≤ b.cells.length then some ((b.cells.drop off).take len) else none

/-- The cells from an offset on, in front of the first one that stops. -/
def readUntil [DecidableEq α] (stop : α) (b : ReusedBuffer α) (off : Nat) : Option (List α) :=
  if stop ∈ b.cells.drop off then some ((b.cells.drop off).takeWhile (· ≠ stop)) else none

/-- What the function gives is decided by the message. -/
def OwnDecides (f : ReusedBuffer α → β) (b : ReusedBuffer α) : Prop :=
  ∀ b', SameOwn b b' → f b' = f b

theorem own_length (b : ReusedBuffer α) : b.own.length = b.used :=
  List.length_take_of_le b.used_le

theorem own_ofParts (own rest : List α) : (ofParts own rest).own = own := List.take_left

theorem sameOwn_refl (b : ReusedBuffer α) : SameOwn b b := rfl

theorem sameOwn_ofParts (b : ReusedBuffer α) (rest : List α) :
    SameOwn b (ofParts b.own rest) := (own_ofParts b.own rest).symm

theorem SameOwn.used_eq {b b' : ReusedBuffer α} (h : SameOwn b b') : b.used = b'.used := by
  rw [← own_length, ← own_length, show b.own = b'.own from h]

/-- A buffer is its message and what is left over. -/
theorem cells_eq (b : ReusedBuffer α) : b.cells = b.own ++ b.cells.drop b.used :=
  (List.take_append_drop b.used b.cells).symm

section Reads

variable {b b' : ReusedBuffer α} {off len : Nat}

/-- A read within the message gives its cells. -/
theorem read_own (h : off + len ≤ b.used) : b.read off len = some ((b.own.drop off).take len) := by
  have hbound := b.used_le
  have hcells : (b.cells.drop off).take len = (b.own.drop off).take len := by
    rw [own, List.drop_take, List.take_take, Nat.min_eq_left (by omega)]
  rw [read, if_pos (by omega), hcells]

theorem SameOwn.read_eq (hsame : SameOwn b b') (h : off + len ≤ b.used) :
    b'.read off len = b.read off len := by
  rw [read_own h, read_own (hsame.used_eq ▸ h), show b.own = b'.own from hsame]

/-- Nothing is read behind a message that fills its buffer. -/
theorem read_ofParts_nil (h : b.used < off + len) : (ofParts b.own []).read off len = none := by
  apply if_neg
  simp only [ofParts, List.append_nil, own_length]
  omega

/-- With enough left over, something is. -/
theorem read_ofParts_isSome (rest : List α) (h : off + len ≤ b.used + rest.length) :
    ((ofParts b.own rest).read off len).isSome := by
  have hlength : (ofParts b.own rest).cells.length = b.used + rest.length := by
    simp only [ofParts, List.length_append, own_length]
  rw [read, if_pos (by omega)]
  rfl

variable [DecidableEq α] {stop : α}

theorem readUntil_own (h : stop ∈ b.own.drop off) :
    b.readUntil stop off = some ((b.own.drop off).takeWhile (· ≠ stop)) := by
  have hoff : off ≤ b.own.length := by
    by_contra hover
    rw [List.drop_eq_nil_of_le (by omega)] at h
    cases h
  have hcells : b.cells.drop off = b.own.drop off ++ b.cells.drop b.used := by
    conv_lhs => rw [b.cells_eq]
    rw [List.drop_append_of_le_length hoff]
  have hprefix : (b.cells.drop off).takeWhile (· ≠ stop) =
      (b.own.drop off).takeWhile (· ≠ stop) := by
    rw [hcells, List.takeWhile_append, if_neg]
    intro hlength
    have hall := List.takeWhile_eq_self_iff.mp
      ((List.takeWhile_prefix _).eq_of_length hlength) stop h
    simp at hall
  rw [readUntil, if_pos (hcells ▸ List.mem_append_left _ h), hprefix]

theorem SameOwn.readUntil_eq (hsame : SameOwn b b') (h : stop ∈ b.own.drop off) :
    b'.readUntil stop off = b.readUntil stop off := by
  have h' : stop ∈ b'.own.drop off := by
    rw [← show b.own = b'.own from hsame]
    exact h
  rw [readUntil_own h, readUntil_own h', show b.own = b'.own from hsame]

theorem readUntil_ofParts_nil (h : stop ∉ b.own.drop off) :
    (ofParts b.own []).readUntil stop off = none := by
  apply if_neg
  simpa only [ofParts, List.append_nil] using h

theorem readUntil_ofParts_stop (hoff : off ≤ b.used) :
    ((ofParts b.own [stop]).readUntil stop off).isSome := by
  have hmem : stop ∈ (ofParts b.own [stop]).cells.drop off := by
    simp only [ofParts]
    rw [List.drop_append_of_le_length (by rw [own_length]; exact hoff)]
    simp
  rw [readUntil, if_pos hmem]
  rfl

end Reads

section Decides

variable {b : ReusedBuffer α} {f : ReusedBuffer α → β}

/-- Two buffers with the message between which the function decides. -/
theorem not_ownDecides {b₁ b₂ : ReusedBuffer α} (h₁ : SameOwn b b₁) (h₂ : SameOwn b b₂)
    (hne : f b₁ ≠ f b₂) : ¬ OwnDecides f b := by
  intro h
  apply hne
  rw [h b₁ h₁, h b₂ h₂]

/-- A partial function that has a value for one of the buffers only. -/
theorem not_ownDecides_of_none {g : ReusedBuffer α → Option β} (rest₁ rest₂ : List α)
    (hnone : g (ofParts b.own rest₁) = none) (hsome : (g (ofParts b.own rest₂)).isSome) :
    ¬ OwnDecides g b := by
  apply not_ownDecides (sameOwn_ofParts b rest₁) (sameOwn_ofParts b rest₂)
  intro heq
  rw [← heq, hnone] at hsome
  cases hsome

end Decides

end ReusedBuffer

end MctDaemon.Lib
