import Mathlib.Data.List.Rotate
import MctDaemon.Lib.Machine

/-!
A memory used as a ring. A position runs from 0 up to and including the
length of the memory, so the first cell has two names. Reading the ring from
a position is reading a rotation of the memory, and every statement below is
about a prefix of that rotation.
-/

namespace MctDaemon.Lib

variable {α : Type*}

/-- The position `len` cells behind `pos` in a ring of `size` cells. It wraps
only when it would leave the memory, so it can stand at `size`. -/
def ringAdvance (size pos len : Nat) : Nat :=
  if pos + len ≤ size then pos + len else pos + len - size

/-- Copy `data` to `pos`, continuing at the first cell past the end. -/
def ringWrite (mem : List α) (pos : Nat) (data : List α) : List α :=
  if pos + data.length ≤ mem.length then copyInto mem pos data
  else
    copyInto (copyInto mem pos (data.take (mem.length - pos))) 0
      (data.drop (mem.length - pos))

/-- The `len` cells from `pos` on, continuing at the first cell. -/
def ringRead (mem : List α) (pos len : Nat) : List α :=
  (mem.rotate pos).take len

@[simp] theorem ringAdvance_zero (size pos : Nat) (h : pos ≤ size) :
    ringAdvance size pos 0 = pos := by
  simp [ringAdvance, h]

theorem ringAdvance_le (size pos len : Nat) (hpos : pos ≤ size) (hlen : len ≤ size) :
    ringAdvance size pos len ≤ size := by
  unfold ringAdvance
  split <;> omega

theorem ringAdvance_add (size pos a b : Nat) (hpos : pos ≤ size) (h : a + b ≤ size) :
    ringAdvance size (ringAdvance size pos a) b = ringAdvance size pos (a + b) := by
  unfold ringAdvance
  split <;> split <;> split <;> omega

theorem rotate_ringAdvance (mem : List α) (pos len : Nat) :
    mem.rotate (ringAdvance mem.length pos len) = (mem.rotate pos).rotate len := by
  unfold ringAdvance
  rw [List.rotate_rotate]
  split
  · rfl
  · rw [← List.rotate_mod, ← List.rotate_mod mem (pos + len)]
    congr 1
    exact (Nat.mod_eq_sub_mod (by omega)).symm

theorem ringWrite_length (mem : List α) (pos : Nat) (data : List α)
    (hpos : pos ≤ mem.length) (hdata : data.length ≤ mem.length) :
    (ringWrite mem pos data).length = mem.length := by
  unfold ringWrite
  split
  · exact copyInto_length _ _ _ ‹_›
  · have hfirst : (copyInto mem pos (data.take (mem.length - pos))).length = mem.length :=
      copyInto_length _ _ _ (by simp; omega)
    rw [copyInto_length _ _ _ (by simp [hfirst]; omega), hfirst]

/-- A list split at `n` rotates by swapping its two parts. -/
private theorem rotate_append_of_length (front back : List α) (n : Nat)
    (h : front.length = n) : (front ++ back).rotate n = back ++ front := by
  subst h
  exact List.rotate_append_length_eq front back

/-- Seen from the write position, a ring write replaces the first cells. -/
theorem rotate_ringWrite (mem : List α) (pos : Nat) (data : List α)
    (hpos : pos ≤ mem.length) (hdata : data.length ≤ mem.length) :
    (ringWrite mem pos data).rotate pos = data ++ (mem.rotate pos).drop data.length := by
  have htake : (mem.take pos).length = pos := by simp [hpos]
  rw [List.rotate_eq_drop_append_take hpos]
  unfold ringWrite
  split
  · rename_i hfits
    simp only [copyInto, List.append_assoc]
    rw [rotate_append_of_length _ _ _ htake, List.append_assoc,
      List.drop_append_of_le_length (by simp; omega), List.drop_drop]
  · rename_i hwraps
    have hfirst : (data.take (mem.length - pos)).length = mem.length - pos := by
      simp; omega
    have hrest : (data.drop (mem.length - pos)).length = data.length - (mem.length - pos) := by
      simp
    have hinner : copyInto mem pos (data.take (mem.length - pos)) =
        mem.take pos ++ data.take (mem.length - pos) := by
      simp only [copyInto]
      rw [List.drop_eq_nil_of_le (by omega), List.append_nil]
    have houter : copyInto (copyInto mem pos (data.take (mem.length - pos))) 0
          (data.drop (mem.length - pos)) =
        (data.drop (mem.length - pos) ++
          (mem.take pos).drop (data.length - (mem.length - pos))) ++
          data.take (mem.length - pos) := by
      rw [hinner]
      simp only [copyInto, List.take_zero, List.nil_append, Nat.zero_add, hrest]
      rw [List.drop_append_of_le_length (by omega), List.append_assoc]
    have hfront : (data.drop (mem.length - pos) ++
        (mem.take pos).drop (data.length - (mem.length - pos))).length = pos := by
      rw [List.length_append, List.length_drop, List.length_drop, htake]
      omega
    have hpassed : (mem.drop pos).drop data.length = [] :=
      List.drop_eq_nil_of_le (by rw [List.length_drop]; omega)
    rw [houter, rotate_append_of_length _ _ _ hfront, ← List.append_assoc,
      List.take_append_drop, List.drop_append, hpassed, List.length_drop, List.nil_append]

/-- A write behind the first `used` cells from `pos` keeps them and adds its
data to them, as long as it does not run into them from behind. -/
theorem ringRead_ringWrite (mem : List α) (pos used : Nat) (data : List α)
    (hpos : pos ≤ mem.length) (hfit : used + data.length ≤ mem.length) :
    ringRead (ringWrite mem (ringAdvance mem.length pos used) data) pos
        (used + data.length) =
      ringRead mem pos used ++ data := by
  have hend := ringAdvance_le mem.length pos used hpos (by omega)
  have hlen := ringWrite_length mem _ data hend (by omega)
  have hturn : (ringWrite mem (ringAdvance mem.length pos used) data).rotate pos =
      ((ringWrite mem (ringAdvance mem.length pos used) data).rotate
        (ringAdvance mem.length pos used)).rotate (mem.length - used) := by
    rw [List.rotate_rotate, ← List.rotate_mod, ← List.rotate_mod (n := _ + _), hlen]
    congr 1
    unfold ringAdvance
    split
    · rw [show pos + used + (mem.length - used) = pos + mem.length by omega,
        Nat.add_mod_right]
    · rw [show pos + used - mem.length + (mem.length - used) = pos by omega]
  have hview : (mem.rotate pos).length = mem.length := List.length_rotate _ _
  have hsplit : data ++ (((mem.rotate pos).rotate used).drop data.length) =
      (data ++ ((mem.rotate pos).drop used).drop data.length) ++ (mem.rotate pos).take used := by
    rw [List.rotate_eq_drop_append_take (by omega),
      List.drop_append_of_le_length (by rw [List.length_drop]; omega), List.append_assoc]
  have hfront : (data ++ ((mem.rotate pos).drop used).drop data.length).length =
      mem.length - used := by
    rw [List.length_append, List.length_drop, List.length_drop]
    omega
  unfold ringRead
  rw [hturn, rotate_ringWrite _ _ _ hend (by omega), rotate_ringAdvance, hsplit,
    rotate_append_of_length _ _ _ hfront, ← List.append_assoc]
  have hkept : ((mem.rotate pos).take used ++ data).length = used + data.length := by
    rw [List.length_append, List.length_take]
    omega
  rw [List.take_append_of_le_length (by omega), List.take_of_length_le (by omega)]

/-- Reading on from where a first read ended. -/
theorem ringRead_add (mem : List α) (pos a b : Nat) (h : a + b ≤ mem.length) :
    ringRead mem pos (a + b) =
      ringRead mem pos a ++ ringRead mem (ringAdvance mem.length pos a) b := by
  have hview : (mem.rotate pos).length = mem.length := List.length_rotate _ _
  unfold ringRead
  rw [rotate_ringAdvance]
  generalize mem.rotate pos = view at hview ⊢
  rw [List.rotate_eq_drop_append_take (by omega),
    List.take_append_of_le_length (by rw [List.length_drop]; omega), List.take_add]

theorem ringRead_length (mem : List α) (pos len : Nat) (h : len ≤ mem.length) :
    (ringRead mem pos len).length = len := by
  simp [ringRead, h]

/-- A read that stays inside the memory is a slice of it. -/
theorem ringRead_of_fits (mem : List α) (pos len : Nat) (h : pos + len ≤ mem.length) :
    ringRead mem pos len = slice mem pos len := by
  unfold ringRead slice
  rw [List.rotate_eq_drop_append_take (by omega),
    List.take_append_of_le_length (by rw [List.length_drop]; omega)]

/-- A read that passes the end is the rest of the memory and a prefix of it. -/
theorem ringRead_of_wraps (mem : List α) (pos len : Nat) (hpos : pos ≤ mem.length)
    (hwrap : mem.length < pos + len) (hlen : len ≤ mem.length) :
    ringRead mem pos len = mem.drop pos ++ mem.take (pos + len - mem.length) := by
  unfold ringRead
  rw [List.rotate_eq_drop_append_take hpos, List.take_append, List.length_drop,
    List.take_of_length_le (by rw [List.length_drop]; omega), List.take_take]
  congr 2
  omega

end MctDaemon.Lib
