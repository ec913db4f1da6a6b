import Mathlib.Tactic

/-!
UTF-8 text: the bytes of a character are a lead byte that tells how many there are, and
continuation bytes. A text can be cut between two characters at the last place that leaves
at most so many bytes.
-/

namespace MctDaemon.Lib

section Bytes

/-- A property of all bytes is checked byte by byte. -/
theorem forall_byte {P : UInt8 → Prop} (h : ∀ n < 256, P (UInt8.ofNat n)) (b : UInt8) : P b := by
  have hb := h b.toNat b.toNat_lt
  rwa [UInt8.ofNat_toNat] at hb

/-- A byte behind the first one of a character. -/
def IsContinuation (b : UInt8) : Prop := b &&& 0xc0 = 0x80

instance (b : UInt8) : Decidable (IsContinuation b) :=
  inferInstanceAs (Decidable (b &&& 0xc0 = 0x80))

inductive IsUtf8Char : List UInt8 → Prop
  | one {a} (ha : a &&& 0x80 = 0) : IsUtf8Char [a]
  | two {a b} (ha : a &&& 0xe0 = 0xc0) (hb : IsContinuation b) : IsUtf8Char [a, b]
  | three {a b c} (ha : a &&& 0xf0 = 0xe0) (hb : IsContinuation b) (hc : IsContinuation c) :
      IsUtf8Char [a, b, c]
  | four {a b c d} (ha : a &&& 0xf8 = 0xf0) (hb : IsContinuation b) (hc : IsContinuation c)
      (hd : IsContinuation d) : IsUtf8Char [a, b, c, d]

theorem isContinuation_low (b : UInt8) : IsContinuation (b &&& 0x3f ||| 0x80) := by
  revert b
  apply forall_byte
  decide +kernel

/-- The encoding of a character has the bytes of one. -/
theorem isUtf8Char_encode (c : Char) : IsUtf8Char (String.utf8EncodeChar c) := by
  rcases c.utf8Size_eq with hsize | hsize | hsize | hsize
  · rw [String.utf8EncodeChar_eq_singleton hsize]
    apply IsUtf8Char.one
    rw [Char.utf8Size_eq_one_iff, UInt32.le_iff_toNat_le] at hsize
    have hlow : ∀ n < 128, UInt8.ofNat n &&& 0x80 = 0 := by decide +kernel
    exact hlow c.val.toNat (Nat.lt_succ_of_le hsize)
  · rw [String.utf8EncodeChar_eq_cons_cons hsize]
    refine .two ?_ (isContinuation_low _)
    generalize (c.val >>> 6).toUInt8 = b
    revert b
    apply forall_byte
    decide +kernel
  · rw [String.utf8EncodeChar_eq_cons_cons_cons hsize]
    refine .three ?_ (isContinuation_low _) (isContinuation_low _)
    generalize (c.val >>> 12).toUInt8 = b
    revert b
    apply forall_byte
    decide +kernel
  · rw [String.utf8EncodeChar_eq_cons_cons_cons_cons hsize]
    refine .four ?_ (isContinuation_low _) (isContinuation_low _) (isContinuation_low _)
    generalize (c.val >>> 18).toUInt8 = b
    revert b
    apply forall_byte
    decide +kernel

end Bytes

section Texts

def utf8Bytes (text : List Char) : List UInt8 := text.flatMap String.utf8EncodeChar

@[simp] theorem utf8Bytes_nil : utf8Bytes [] = [] := rfl

theorem utf8Bytes_append (front back : List Char) :
    utf8Bytes (front ++ back) = utf8Bytes front ++ utf8Bytes back := List.flatMap_append

theorem utf8Bytes_cons (c : Char) (text : List Char) :
    utf8Bytes (c :: text) = String.utf8EncodeChar c ++ utf8Bytes text := List.flatMap_cons

/-- The longest part of the text from its start that has at most so many bytes. -/
structure IsCut (text cut : List Char) (room : Nat) : Prop where
  isPrefix : cut <+: text
  fits : (utf8Bytes cut).length ≤ room
  longest : ∀ other, other <+: text → (utf8Bytes other).length ≤ room → other.length ≤ cut.length

/-- A text that does not fit is cut in front of the character that reaches over the room. -/
theorem exists_cut {text : List Char} {room : Nat} (h : room < (utf8Bytes text).length) :
    ∃ cut c back, text = cut ++ c :: back ∧ IsCut text cut room ∧
      room < (utf8Bytes cut).length + (String.utf8EncodeChar c).length := by
  induction text generalizing room with
  | nil => exact absurd h (Nat.not_lt_zero _)
  | cons c text ih =>
      rw [utf8Bytes_cons, List.length_append] at h
      by_cases hfits : (String.utf8EncodeChar c).length ≤ room
      · obtain ⟨cut, d, back, htext, hcut, hroom⟩ :=
          @ih (room - (String.utf8EncodeChar c).length) (by omega)
        refine ⟨c :: cut, d, back, by rw [htext, List.cons_append], ⟨?_, ?_, ?_⟩, ?_⟩
        · exact (List.prefix_cons_inj c).mpr hcut.isPrefix
        · have hle := hcut.fits
          rw [utf8Bytes_cons, List.length_append]
          omega
        · intro other hother hle
          cases other with
          | nil => exact Nat.zero_le _
          | cons e other =>
              obtain ⟨rfl, hrest⟩ := List.cons_prefix_cons.mp hother
              rw [utf8Bytes_cons, List.length_append] at hle
              exact Nat.succ_le_succ (hcut.longest other hrest (by omega))
        · rw [utf8Bytes_cons, List.length_append]
          omega
      · refine ⟨[], c, text, rfl, ⟨List.nil_prefix, Nat.zero_le _, ?_⟩, ?_⟩
        · intro other hother hle
          cases other with
          | nil => exact le_refl 0
          | cons e other =>
              obtain ⟨rfl, -⟩ := List.cons_prefix_cons.mp hother
              rw [utf8Bytes_cons, List.length_append] at hle
              omega
        · rw [utf8Bytes_nil, List.length_nil]
          omega

end Texts

end MctDaemon.Lib
