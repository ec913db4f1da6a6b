import MctDaemon.Lib.CString

/-!
Bytes as hexadecimal text: what `%.2x` prints with a delimiter between the
bytes, and what `strtol(s, NULL, 16)` reads back from its digits.
-/

namespace MctDaemon.Lib

section Digits

def hexValue (c : Char) : Option Nat :=
  if '0' ≤ c ∧ c ≤ '9' then some (c.toNat - 48)
  else if 'a' ≤ c ∧ c ≤ 'f' then some (c.toNat - 87)
  else if 'A' ≤ c ∧ c ≤ 'F' then some (c.toNat - 55)
  else none

/-- The value of the hexadecimal digits at the start of the string, behind
digits of the value `n`. -/
def leadingHex (n : Nat) : List Char → Nat
  | [] => n
  | c :: cs =>
      match hexValue c with
      | none => n
      | some digit => leadingHex (16 * n + digit) cs

/-- The string without a `0x` that a digit follows. -/
def dropHexPrefix : List Char → List Char
  | '0' :: x :: c :: cs =>
      if (x = 'x' ∨ x = 'X') ∧ (hexValue c).isSome then c :: cs else '0' :: x :: c :: cs
  | s => s

/-- `strtol(s, NULL, 16)` with a `long` of 64 bits. -/
def strtol16 (s : List Char) : Int :=
  match s.dropWhile isSpace with
  | '-' :: digits => max (-(leadingHex 0 (dropHexPrefix digits) : Int)) (-9223372036854775808)
  | '+' :: digits => min (leadingHex 0 (dropHexPrefix digits)) 9223372036854775807
  | digits => min (leadingHex 0 (dropHexPrefix digits)) 9223372036854775807

/-- The value of a string that is digits and then blanks, behind digits of the value `n`. -/
def wholeHex (n : Nat) : List Char → Option Nat
  | [] => some n
  | c :: cs =>
      match hexValue c with
      | none => if (c :: cs).all isSpace then some n else none
      | some digit => wholeHex (16 * n + digit) cs

/-- A number without a sign, with or without a `0x`. -/
def unsignedHex (s : List Char) : Option Nat :=
  match dropHexPrefix s with
  | [] => none
  | c :: cs => if (hexValue c).isSome then wholeHex 0 (c :: cs) else none

/-- The number that a text is, if it is one as a whole: digits with or without a sign and a `0x`,
and nothing around them but blanks. -/
def hexNumber (s : List Char) : Option Int :=
  match s.dropWhile isSpace with
  | '-' :: digits => (unsignedHex digits).map fun n : Nat => -(n : Int)
  | '+' :: digits => (unsignedHex digits).map fun n : Nat => (n : Int)
  | digits => (unsignedHex digits).map fun n : Nat => (n : Int)

theorem leadingHex_of_wholeHex {s : List Char} {n m : Nat} (h : wholeHex n s = some m) :
    leadingHex n s = m := by
  induction s generalizing n with
  | nil => exact Option.some_inj.mp h
  | cons c cs ih =>
      rw [wholeHex] at h
      rw [leadingHex]
      split at h
      · next hvalue =>
          split at h
          · exact Option.some_inj.mp h
          · cases h
      · next digit hvalue => exact ih h

theorem leadingHex_of_unsignedHex {s : List Char} {m : Nat} (h : unsignedHex s = some m) :
    leadingHex 0 (dropHexPrefix s) = m := by
  rw [unsignedHex] at h
  split at h
  · cases h
  · next hdrop =>
      split at h
      · rw [hdrop]
        exact leadingHex_of_wholeHex h
      · cases h

/-- `strtol` reads a number, within the bounds of a `long`. -/
theorem strtol16_of_hexNumber {s : List Char} {n : Int} (h : hexNumber s = some n) :
    strtol16 s = max (-9223372036854775808) (min n 9223372036854775807) := by
  rw [hexNumber] at h
  rw [strtol16]
  split at h
  · obtain ⟨m, hm, rfl⟩ := Option.map_eq_some_iff.mp h
    rw [leadingHex_of_unsignedHex hm]
    omega
  · obtain ⟨m, hm, rfl⟩ := Option.map_eq_some_iff.mp h
    rw [leadingHex_of_unsignedHex hm]
    omega
  · obtain ⟨m, hm, rfl⟩ := Option.map_eq_some_iff.mp h
    rw [leadingHex_of_unsignedHex hm]
    omega

theorem hexValue_digitChar : ∀ {n : Nat}, n < 16 → hexValue n.digitChar = some n := by
  decide

theorem isSpace_digitChar : ∀ {n : Nat}, n < 16 → isSpace n.digitChar = false := by
  decide

/-- No digit is a sign or the letter of the prefix. -/
theorem digitChar_ne : ∀ {n : Nat}, n < 16 → n.digitChar ≠ '-' ∧ n.digitChar ≠ '+' ∧
    n.digitChar ≠ 'x' ∧ n.digitChar ≠ 'X' := by
  decide

theorem leadingHex_digits {digits : List Nat} (h : ∀ d ∈ digits, d < 16) (n : Nat) :
    leadingHex n (digits.map Nat.digitChar) = digits.foldl (fun n d => 16 * n + d) n := by
  induction digits generalizing n with
  | nil => rfl
  | cons d digits ih =>
      rw [List.map_cons, leadingHex, hexValue_digitChar (h d List.mem_cons_self), List.foldl_cons]
      exact ih (fun e he => h e (List.mem_cons_of_mem d he)) _

theorem dropHexPrefix_digits {digits : List Nat} (h : ∀ d ∈ digits, d < 16) :
    dropHexPrefix (digits.map Nat.digitChar) = digits.map Nat.digitChar := by
  match digits with
  | [] => rfl
  | [d] =>
      simp only [List.map_cons, List.map_nil]
      unfold dropHexPrefix
      split <;> simp_all
  | d :: e :: digits =>
      obtain ⟨-, -, hx, hX⟩ := digitChar_ne (h e (by simp))
      simp only [List.map_cons]
      unfold dropHexPrefix
      split
      · next heq =>
          simp only [List.cons.injEq] at heq
          rw [if_neg]
          · rw [heq.1, heq.2.1, heq.2.2]
          · rw [← heq.2.1]
            exact fun hprefix => hprefix.1.elim hx hX
      · rfl

/-- `strtol` reads a string of digits. -/
theorem strtol16_digits {d : Nat} {digits : List Nat} (h : ∀ e ∈ d :: digits, e < 16)
    (hsmall : (d :: digits).foldl (fun n d => 16 * n + d) 0 ≤ 9223372036854775807) :
    strtol16 ((d :: digits).map Nat.digitChar) =
      ((d :: digits).foldl (fun n d => 16 * n + d) 0 : Nat) := by
  have hd := h d List.mem_cons_self
  obtain ⟨hminus, hplus, -, -⟩ := digitChar_ne hd
  have hvalue := leadingHex_digits h 0
  unfold strtol16
  rw [List.map_cons, List.dropWhile_cons_of_neg (by simp [isSpace_digitChar hd])]
  rw [← List.map_cons]
  split
  · next heq =>
      rw [List.map_cons, List.cons.injEq] at heq
      exact absurd heq.1 hminus
  · next heq =>
      rw [List.map_cons, List.cons.injEq] at heq
      exact absurd heq.1 hplus
  · rw [dropHexPrefix_digits h, hvalue]
    omega

end Digits

section Bytes

/-- What `%.2x` prints for a byte. -/
def highDigit (byte : UInt8) : Char := (byte.toNat / 16).digitChar

def lowDigit (byte : UInt8) : Char := (byte.toNat % 16).digitChar

/-- The digits of the bytes, with the delimiter between two bytes. -/
def hexText (delim : Char) : List UInt8 → List Char
  | [] => []
  | [byte] => [highDigit byte, lowDigit byte]
  | byte :: bytes => highDigit byte :: lowDigit byte :: delim :: hexText delim bytes

theorem digitChar_ne_zero : ∀ n < 16, '\x00' ≠ n.digitChar := by decide

/-- A character that is no digit is not printed. -/
theorem not_mem_hexDigits {c : Char} (hc : ∀ d < 16, c ≠ d.digitChar) (n : Nat) :
    c ∉ Nat.toDigits 16 n := by
  induction n using Nat.strongRecOn with
  | ind n ih =>
      rcases Nat.lt_or_ge n 16 with hn | hn
      · rw [Nat.toDigits_of_lt_base hn, List.mem_singleton]
        exact hc n hn
      · rw [Nat.toDigits_of_base_le (by decide) hn, List.mem_append, List.mem_singleton, not_or]
        exact ⟨ih (n / 16) (Nat.div_lt_self (by omega) (by decide)),
          hc (n % 16) (Nat.mod_lt n (by decide))⟩

theorem not_mem_hexText {delim : Char} (hdelim : '\x00' ≠ delim) (bytes : List UInt8) :
    '\x00' ∉ hexText delim bytes := by
  have hdigits : ∀ byte : UInt8, '\x00' ≠ highDigit byte ∧ '\x00' ≠ lowDigit byte := by
    intro byte
    have hbyte := byte.toNat_lt
    exact ⟨digitChar_ne_zero _ (by omega), digitChar_ne_zero _ (by omega)⟩
  induction bytes with
  | nil => exact List.not_mem_nil
  | cons byte bytes ih =>
      obtain ⟨hhigh, hlow⟩ := hdigits byte
      cases bytes with
      | nil => simp [hexText, hhigh, hlow]
      | cons next bytes =>
          rw [hexText]
          · simp only [List.mem_cons, not_or]
            exact ⟨hhigh, hlow, hdelim, ih⟩
          · simp

theorem length_hexText (delim : Char) {bytes : List UInt8} (hne : bytes ≠ []) :
    (hexText delim bytes).length + 1 = 3 * bytes.length := by
  induction bytes with
  | nil => exact absurd rfl hne
  | cons byte bytes ih =>
      cases bytes with
      | nil => rfl
      | cons next bytes =>
          have hrest := ih (List.cons_ne_nil next bytes)
          rw [hexText]
          · simp only [List.length_cons] at hrest ⊢
            omega
          · simp

theorem length_hexText_le (delim : Char) (bytes : List UInt8) :
    (hexText delim bytes).length ≤ 3 * bytes.length := by
  by_cases hne : bytes = []
  · rw [hne]
    exact Nat.le_refl 0
  · have hlength := length_hexText delim hne
    omega

theorem strtol16_byte (byte : UInt8) :
    strtol16 [highDigit byte, lowDigit byte] = byte.toNat := by
  have hbyte := byte.toNat_lt
  have hdigits : ∀ e ∈ [byte.toNat / 16, byte.toNat % 16], e < 16 := by
    simp only [List.mem_cons, List.not_mem_nil, or_false, forall_eq_or_imp, forall_eq]
    omega
  have hread := strtol16_digits hdigits (by simp only [List.foldl_cons, List.foldl_nil]; omega)
  simp only [List.map_cons, List.map_nil, List.foldl_cons, List.foldl_nil] at hread
  rw [highDigit, lowDigit, hread]
  omega

/-- The digits of a byte behind those of a more significant one. -/
theorem strtol16_bytes (high low : UInt8) :
    strtol16 [highDigit high, lowDigit high, highDigit low, lowDigit low] =
      256 * high.toNat + low.toNat := by
  have hhigh := high.toNat_lt
  have hlow := low.toNat_lt
  have hdigits : ∀ e ∈ [high.toNat / 16, high.toNat % 16, low.toNat / 16, low.toNat % 16],
      e < 16 := by
    simp only [List.mem_cons, List.not_mem_nil, or_false, forall_eq_or_imp, forall_eq]
    omega
  have hread := strtol16_digits hdigits (by simp only [List.foldl_cons, List.foldl_nil]; omega)
  simp only [List.map_cons, List.map_nil, List.foldl_cons, List.foldl_nil] at hread
  rw [highDigit, lowDigit, highDigit, lowDigit, hread]
  omega

theorem ofInt_natCast (n : Nat) : UInt8.ofInt n = UInt8.ofNat n := by
  unfold UInt8.ofInt
  apply UInt8.toNat.inj
  rw [UInt8.toNat_ofNat', UInt8.toNat_ofNat']
  omega

theorem ofInt_toNat (byte : UInt8) : UInt8.ofInt byte.toNat = byte := by
  rw [ofInt_natCast, UInt8.ofNat_toNat]

theorem int8_ofInt_toNat (n : Int8) : Int8.ofInt n.toUInt8.toNat = n := by
  rw [Int8.ofInt_eq_ofNat, ← UInt8.toInt8_ofNat', UInt8.ofNat_toNat, Int8.toInt8_toUInt8]

/-- The memory shows the digits of the bytes from `pos` on, one byte every
three characters. -/
def Shows (mem : Nat → Char) : Nat → List UInt8 → Prop
  | _, [] => True
  | pos, byte :: bytes =>
      mem pos = highDigit byte ∧ mem (pos + 1) = lowDigit byte ∧ Shows mem (pos + 3) bytes

variable {mem : Nat → Char} {pos : Nat}

theorem shows_append {front back : List UInt8} :
    Shows mem pos (front ++ back) ↔
      Shows mem pos front ∧ Shows mem (pos + 3 * front.length) back := by
  induction front generalizing pos with
  | nil => simp [Shows]
  | cons byte front ih =>
      have hpos : pos + 3 + 3 * front.length = pos + 3 * (byte :: front).length := by
        rw [List.length_cons]
        omega
      rw [List.cons_append, Shows, Shows, ih, hpos, and_assoc, and_assoc]

/-- A memory that holds the text shows the bytes. -/
theorem shows_hexText {delim : Char} {bytes : List UInt8}
    (h : ∀ i c, (hexText delim bytes)[i]? = some c → mem (pos + i) = c) : Shows mem pos bytes := by
  induction bytes generalizing pos with
  | nil => trivial
  | cons byte bytes ih =>
      cases bytes with
      | nil => exact ⟨h 0 _ rfl, h 1 _ rfl, trivial⟩
      | cons next bytes =>
          refine ⟨h 0 _ rfl, h 1 _ rfl, ih fun i c hc => ?_⟩
          rw [Nat.add_assoc, Nat.add_comm 3 i]
          exact h (i + 3) c hc

end Bytes

end MctDaemon.Lib
