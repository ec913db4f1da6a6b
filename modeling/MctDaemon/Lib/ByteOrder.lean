import MctDaemon.Lib.Machine

/-!
Bytes of a word of 32 bits that are cut out with a mask behind a shift and put together with
`|`, and pieces that are copied into memory one behind the other.
-/

namespace MctDaemon.Lib

section Words

/-- A byte that is cut out of a number stays where it is. -/
theorem and_byte (n k : Nat) : n &&& 255 <<< k = (n / 2 ^ k % 256) <<< k := by
  apply Nat.eq_of_testBit_eq
  intro i
  rw [Nat.testBit_and, Nat.testBit_shiftLeft, Nat.testBit_shiftLeft,
    show (255 : Nat) = 2 ^ 8 - 1 from rfl, Nat.testBit_two_pow_sub_one,
    show (256 : Nat) = 2 ^ 8 from rfl, Nat.testBit_mod_two_pow, Nat.testBit_div_two_pow]
  by_cases h : k ≤ i
  · simp [h, Bool.and_comm]
  · simp [h]

/-- A byte above a number is added to it. -/
theorem or_byte {low : Nat} (byte k : Nat) (h : low < 2 ^ k) :
    low ||| byte <<< k = low + byte * 2 ^ k := by
  rw [Nat.or_comm, Nat.shiftLeft_eq, Nat.mul_comm, ← Nat.two_pow_add_eq_or_of_lt h]
  exact Nat.add_comm _ _

variable (word shift mask : UInt32) {n k : Nat}

theorem shiftRight_and (hshift : shift.toNat % 32 = n) (hmask : mask.toNat = 255 <<< k) :
    (word >>> shift &&& mask).toNat = (word.toNat / 2 ^ n / 2 ^ k % 256) <<< k := by
  rw [UInt32.toNat_and, UInt32.toNat_shiftRight, hshift, hmask, and_byte,
    Nat.shiftRight_eq_div_pow]

theorem shiftLeft_and (hshift : shift.toNat % 32 = n) (hmask : mask.toNat = 255 <<< k) :
    (word <<< shift &&& mask).toNat = (word.toNat * 2 ^ n % 2 ^ 32 / 2 ^ k % 256) <<< k := by
  rw [UInt32.toNat_and, UInt32.toNat_shiftLeft, hshift, hmask, and_byte,
    Nat.shiftLeft_eq word.toNat]

end Words

section Memory

variable {α : Type*} {mem front piece back : List α} {off : Nat}

/-- Two copies, one behind the other, are one. -/
theorem copyInto_append (hoff : off ≤ mem.length) :
    copyInto (copyInto mem off front) (off + front.length) back =
      copyInto mem off (front ++ back) := by
  have htake := take_copyInto_append mem off front hoff
  have hdrop : (copyInto mem off front).drop (off + front.length + back.length) =
      mem.drop (off + (front ++ back).length) := by
    have hlength : (mem.take off ++ front).length = off + front.length := by
      rw [List.length_append, List.length_take_of_le hoff]
    rw [copyInto, ← List.drop_drop, List.drop_left' hlength, List.drop_drop, List.length_append,
      Nat.add_assoc]
  rw [copyInto, htake, hdrop, copyInto, List.append_assoc (mem.take off)]

/-- A piece of what was copied stands at its place. -/
theorem slice_copyInto_piece (hoff : off ≤ mem.length) :
    slice (copyInto mem off (front ++ (piece ++ back))) (off + front.length) piece.length =
      piece := by
  have hlength : (mem.take off ++ front).length = off + front.length := by
    rw [List.length_append, List.length_take_of_le hoff]
  rw [copyInto, ← List.append_assoc (mem.take off), slice, List.append_assoc,
    List.drop_left' hlength, List.append_assoc, List.take_left]

/-- The same copy again changes nothing. -/
theorem copyInto_again (hoff : off ≤ mem.length) :
    copyInto (copyInto mem off piece) off piece = copyInto mem off piece := by
  have hlength : (mem.take off).length = off := List.length_take_of_le hoff
  have hwhole : (mem.take off ++ piece).length = off + piece.length := by
    rw [List.length_append, hlength]
  have htake : (copyInto mem off piece).take off = mem.take off := by
    rw [copyInto, List.append_assoc, List.take_left' hlength]
  have hdrop : (copyInto mem off piece).drop (off + piece.length) =
      mem.drop (off + piece.length) := by
    rw [copyInto, List.drop_left' hwhole]
  rw [copyInto, htake, hdrop, copyInto]

theorem le_length_copyInto (hoff : off ≤ mem.length) : off ≤ (copyInto mem off piece).length := by
  rw [copyInto, List.append_assoc, List.length_append, List.length_take_of_le hoff]
  exact Nat.le_add_right _ _

/-- What stands in front of the copy or behind it is left alone. -/
theorem getElem?_copyInto (h : off + piece.length ≤ mem.length) {i : Nat}
    (hi : i < off ∨ off + piece.length ≤ i) : (copyInto mem off piece)[i]? = mem[i]? := by
  have hlength : (mem.take off ++ piece).length = off + piece.length := by
    rw [List.length_append, List.length_take_of_le (by omega)]
  rcases hi with hfront | hback
  · rw [copyInto, List.append_assoc, List.getElem?_append_left
      (by rw [List.length_take_of_le (by omega)]; exact hfront), List.getElem?_take_of_lt hfront]
  · rw [copyInto, List.getElem?_append_right (by omega), hlength, List.getElem?_drop]
    congr 1
    omega

/-- A piece that stands there already need not be copied. -/
theorem copyInto_standing (hback : slice mem (off + front.length) back.length = back) :
    copyInto mem off (front ++ back) = copyInto mem off front := by
  rw [slice] at hback
  have hrest : mem.drop (off + front.length) =
      back ++ mem.drop (off + (front ++ back).length) := by
    have hsplit := (List.take_append_drop back.length (mem.drop (off + front.length))).symm
    rwa [hback, List.drop_drop, Nat.add_assoc, ← List.length_append] at hsplit
  rw [copyInto, copyInto, hrest, List.append_assoc, List.append_assoc, List.append_assoc]

end Memory

end MctDaemon.Lib
