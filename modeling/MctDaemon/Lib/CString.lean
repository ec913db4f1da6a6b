import Mathlib.Data.List.TakeWhile
import Mathlib.Tactic

/-!
The C string functions, on strings given as the characters before the
terminating zero.
-/

namespace MctDaemon.Lib

/-- `strncmp(a, b, n) == 0`. -/
def strncmpEq (a b : List Char) (n : Nat) : Bool := a.take n = b.take n

/-- `strncasecmp(a, b, n) == 0`. -/
def strncasecmpEq (a b : List Char) (n : Nat) : Bool :=
  (a.take n).map Char.toLower = (b.take n).map Char.toLower

theorem strncmpEq_length_left (a b : List Char) : strncmpEq a b a.length ↔ a <+: b := by
  rw [List.prefix_iff_eq_take]
  simp [strncmpEq]

/-- The tokens `strtok_r` finds between separators. -/
def strtok (sep : Char) (s : List Char) : List (List Char) :=
  (s.splitOn sep).filter fun token => token ≠ []

section Numbers

def isSpace (c : Char) : Bool := c.val = 32 ∨ 9 ≤ c.val ∧ c.val ≤ 13

/-- The value of the decimal digits at the start of the string. -/
def leadingDecimal (s : List Char) : Nat :=
  (s.takeWhile Char.isDigit).foldl (fun n c => 10 * n + (c.toNat - 48)) 0

/-- `strtol(s, NULL, 10)` with a `long` of 64 bits. -/
def strtol (s : List Char) : Int :=
  match s.dropWhile isSpace with
  | '-' :: digits => max (-(leadingDecimal digits : Int)) (-9223372036854775808)
  | '+' :: digits => min (leadingDecimal digits) 9223372036854775807
  | digits => min (leadingDecimal digits) 9223372036854775807

/-- `strtoul(s, NULL, 10)` with an `unsigned long` of 64 bits. -/
def strtoul (s : List Char) : Nat :=
  match s.dropWhile isSpace with
  | '-' :: digits =>
      if leadingDecimal digits > 18446744073709551615 then 18446744073709551615
      else (18446744073709551616 - leadingDecimal digits) % 18446744073709551616
  | '+' :: digits => min (leadingDecimal digits) 18446744073709551615
  | digits => min (leadingDecimal digits) 18446744073709551615

/-- The number that `sscanf(s, "%d", ..)` stores, if it finds one: the `long`
that is read, as an `int`. -/
def sscanfInt (s : List Char) : Option Int :=
  let digits := match s.dropWhile isSpace with
    | '-' :: digits => digits
    | '+' :: digits => digits
    | digits => digits
  if digits.head?.any Char.isDigit then some ((strtol s).bmod 4294967296) else none

/-- What `%d` prints. -/
def printInt (n : Int) : List Char :=
  if n < 0 then '-' :: Nat.toDigits 10 n.natAbs else Nat.toDigits 10 n.natAbs

/-- What `%0*d` prints. -/
def printPadded (width : Nat) (n : Int) : List Char :=
  let digits := Nat.toDigits 10 n.natAbs
  if n < 0 then '-' :: (List.replicate (width - 1 - digits.length) '0' ++ digits)
  else List.replicate (width - digits.length) '0' ++ digits

theorem not_isSpace_of_isDigit {c : Char} (h : c.isDigit) : ¬ isSpace c := by
  simp only [Char.isDigit, Bool.and_eq_true, decide_eq_true_eq, UInt32.le_iff_toNat_le] at h
  simp only [isSpace, Bool.decide_or, Bool.decide_and, Bool.or_eq_true, Bool.and_eq_true,
    decide_eq_true_eq, UInt32.le_iff_toNat_le, ← UInt32.toNat_inj]
  have h0 : '0'.val.toNat = 48 := rfl
  have h1 : (32 : UInt32).toNat = 32 := rfl
  have h2 : (13 : UInt32).toNat = 13 := rfl
  omega

/-- The digits of a number end at the first other character. -/
theorem leadingDecimal_append {digits rest : List Char} (hdigits : ∀ c ∈ digits, c.isDigit)
    (hrest : ¬ rest.head?.any Char.isDigit) :
    leadingDecimal (digits ++ rest) = Nat.ofDigitChars 10 digits 0 := by
  have htake : (digits ++ rest).takeWhile Char.isDigit = digits := by
    rw [List.takeWhile_append_of_pos hdigits]
    cases rest with
    | nil => simp
    | cons c rest => simp_all
  rw [leadingDecimal, htake, Nat.ofDigitChars_eq_foldl]
  rfl

theorem leadingDecimal_padded (k n : Nat) {rest : List Char}
    (hrest : ¬ rest.head?.any Char.isDigit) :
    leadingDecimal (List.replicate k '0' ++ Nat.toDigits 10 n ++ rest) = n := by
  rw [leadingDecimal_append _ hrest, Nat.ofDigitChars_append, Nat.ofDigitChars_replicate_zero,
    Nat.mul_zero, Nat.ofDigitChars_ten_toDigits]
  intro c hc
  rcases List.mem_append.mp hc with hzero | hdigit
  · rw [List.eq_of_mem_replicate hzero]
    rfl
  · exact Nat.isDigit_of_mem_toDigits (by decide) (by decide) hdigit

/-- `strtol` on a string that starts with neither white space nor a sign. -/
theorem strtol_cons {c : Char} {cs : List Char} (hspace : ¬ isSpace c) (hminus : c ≠ '-')
    (hplus : c ≠ '+') :
    strtol (c :: cs) = min (leadingDecimal (c :: cs) : Int) 9223372036854775807 := by
  unfold strtol
  rw [List.dropWhile_cons_of_neg hspace]
  split
  · next heq =>
      rw [List.cons.injEq] at heq
      exact absurd heq.1 hminus
  · next heq =>
      rw [List.cons.injEq] at heq
      exact absurd heq.1 hplus
  · rfl

/-- A string of digits is read up to the biggest number there is. -/
theorem strtoul_digits {s : List Char} (h : ∀ c ∈ s, c.isDigit) :
    strtoul s = min (leadingDecimal s) 18446744073709551615 := by
  unfold strtoul
  cases s with
  | nil => rfl
  | cons c s =>
      have hc : c.isDigit := h c List.mem_cons_self
      rw [List.dropWhile_cons_of_neg (not_isSpace_of_isDigit hc)]
      split
      · next heq =>
          obtain ⟨rfl, -⟩ := List.cons.inj heq
          exact absurd hc (by decide)
      · next heq =>
          obtain ⟨rfl, -⟩ := List.cons.inj heq
          exact absurd hc (by decide)
      · rfl

/-- `strtol` on a string that starts with a digit. -/
theorem strtol_of_digit {c : Char} {cs : List Char} (hc : c.isDigit) :
    strtol (c :: cs) = min (leadingDecimal (c :: cs) : Int) 9223372036854775807 := by
  refine strtol_cons (not_isSpace_of_isDigit hc) ?_ ?_
  · rintro rfl
    cases hc
  · rintro rfl
    cases hc

theorem leadingDecimal_printPadded (width : Nat) (n : Int) {rest : List Char}
    (hrest : ¬ rest.head?.any Char.isDigit) :
    leadingDecimal (printPadded width n ++ rest) = n.toNat := by
  unfold printPadded
  by_cases hneg : n < 0
  · simp only [if_pos hneg, List.cons_append]
    rw [leadingDecimal, List.takeWhile_cons_of_neg (by decide), List.foldl_nil]
    omega
  · simp only [if_neg hneg]
    rw [leadingDecimal_padded _ n.natAbs hrest]
    omega

/-- A printed number is read back, up to the first character that is no digit. -/
theorem strtol_printPadded (width : Nat) {n : Int} (hlow : -9223372036854775808 ≤ n)
    (hhigh : n ≤ 9223372036854775807) {rest : List Char} (hrest : ¬ rest.head?.any Char.isDigit) :
    strtol (printPadded width n ++ rest) = n := by
  unfold printPadded
  by_cases hneg : n < 0
  · simp only [if_pos hneg, List.cons_append, strtol]
    rw [List.dropWhile_cons_of_neg (by decide)]
    simp only [leadingDecimal_padded _ n.natAbs hrest]
    omega
  · simp only [if_neg hneg]
    obtain ⟨c, cs, hsplit⟩ : ∃ c cs,
        List.replicate (width - (Nat.toDigits 10 n.natAbs).length) '0' ++
        Nat.toDigits 10 n.natAbs = c :: cs := by
      apply List.exists_cons_of_ne_nil
      simp [Nat.toDigits_ne_nil]
    have hc : c.isDigit := by
      have hmem : c ∈ List.replicate (width - (Nat.toDigits 10 n.natAbs).length) '0' ++
          Nat.toDigits 10 n.natAbs := by simp [hsplit]
      rcases List.mem_append.mp hmem with hzero | hdigit
      · rw [List.eq_of_mem_replicate hzero]
        rfl
      · exact Nat.isDigit_of_mem_toDigits (by decide) (by decide) hdigit
    have hvalue := leadingDecimal_padded (width - (Nat.toDigits 10 n.natAbs).length) n.natAbs hrest
    rw [hsplit, List.cons_append] at hvalue
    rw [hsplit, List.cons_append, strtol_of_digit hc, hvalue]
    omega

theorem leadingDecimal_append_cons {c : Char} (hc : ¬ c.isDigit) (s rest : List Char) :
    leadingDecimal (s ++ c :: rest) = leadingDecimal s := by
  have htake : (s ++ c :: rest).takeWhile Char.isDigit = s.takeWhile Char.isDigit := by
    induction s with
    | nil => simp [hc]
    | cons d s ih => by_cases hd : d.isDigit <;> simp [hd, ih]
  rw [leadingDecimal, htake, leadingDecimal]

/-- Behind a character that is no white space, `strtol` stops at one that is no digit. -/
theorem strtol_append_cons {s : List Char} (hs : ¬ s.all isSpace) {c : Char} (hc : ¬ c.isDigit)
    (rest : List Char) : strtol (s ++ c :: rest) = strtol s := by
  obtain ⟨d, ds, hsplit⟩ : ∃ d ds, s.dropWhile isSpace = d :: ds := by
    apply List.exists_cons_of_ne_nil
    intro hnil
    exact hs (List.all_eq_true.mpr (List.dropWhile_eq_nil_iff.mp hnil))
  have hdrop : (s ++ c :: rest).dropWhile isSpace = s.dropWhile isSpace ++ c :: rest := by
    rw [List.dropWhile_append, hsplit]
    rfl
  unfold strtol
  rw [hdrop, hsplit, List.cons_append]
  by_cases hminus : d = '-'
  · subst hminus
    simp only [leadingDecimal_append_cons hc]
  · by_cases hplus : d = '+'
    · subst hplus
      simp only [leadingDecimal_append_cons hc]
    · have hvalue := leadingDecimal_append_cons hc (d :: ds) rest
      rw [List.cons_append] at hvalue
      simp [hminus, hplus, hvalue]

theorem strtol_append_of_space {s : List Char} (hs : s.all isSpace) (rest : List Char) :
    strtol (s ++ rest) = strtol rest := by
  have hdrop : (s ++ rest).dropWhile isSpace = rest.dropWhile isSpace :=
    List.dropWhile_append_of_pos (by simpa using hs)
  unfold strtol
  rw [hdrop]

end Numbers

section Order

theorem digit_bounds {c : Char} (h : c.isDigit) : 48 ≤ c.toNat ∧ c.toNat ≤ 57 := by
  simpa [Char.isDigit, UInt32.le_iff_toNat_le] using h

/-- A number that is smaller stays smaller with as many digits behind it. -/
theorem foldl_digits_lt {s t : List Char} (hs : ∀ c ∈ s, c.isDigit) (ht : ∀ c ∈ t, c.isDigit)
    (hlength : s.length = t.length) {m n : Nat} (h : m < n) :
    s.foldl (fun n c => 10 * n + (c.toNat - 48)) m <
      t.foldl (fun n c => 10 * n + (c.toNat - 48)) n := by
  induction s generalizing t m n with
  | nil =>
      rw [List.length_nil, eq_comm, List.length_eq_zero_iff] at hlength
      rw [hlength]
      exact h
  | cons c s ih =>
      cases t with
      | nil => cases hlength
      | cons d t =>
          have hc := digit_bounds (hs c List.mem_cons_self)
          have hd := digit_bounds (ht d List.mem_cons_self)
          exact ih (fun x hx => hs x (List.mem_cons_of_mem _ hx))
            (fun x hx => ht x (List.mem_cons_of_mem _ hx)) (Nat.succ.inj hlength)
            (by dsimp only; omega)

/-- Of two numbers with as many digits the one whose text comes first is smaller. -/
theorem foldl_digits_lt_of_lt {s t rest : List Char} (hs : ∀ c ∈ s, c.isDigit)
    (ht : ∀ c ∈ t, c.isDigit) (hlength : s.length = t.length) (h : s ++ rest < t ++ rest)
    (n : Nat) :
    s.foldl (fun n c => 10 * n + (c.toNat - 48)) n <
      t.foldl (fun n c => 10 * n + (c.toNat - 48)) n := by
  induction s generalizing t n with
  | nil =>
      rw [List.length_nil, eq_comm, List.length_eq_zero_iff] at hlength
      rw [hlength] at h
      exact absurd h (List.lt_irrefl _)
  | cons c s ih =>
      cases t with
      | nil => cases hlength
      | cons d t =>
          have hs' := fun x hx => hs x (List.mem_cons_of_mem c hx)
          have ht' := fun x hx => ht x (List.mem_cons_of_mem d hx)
          have hc := digit_bounds (hs c List.mem_cons_self)
          rcases List.cons_lt_cons_iff.mp h with hless | ⟨rfl, hrest⟩
          · have hless' : c.toNat < d.toNat := hless
            exact foldl_digits_lt hs' ht' (Nat.succ.inj hlength) (by dsimp only; omega)
          · exact ih hs' ht' (Nat.succ.inj hlength) hrest _

theorem isDigit_printPadded (width n : Nat) : ∀ c ∈ printPadded width n, c.isDigit := by
  intro c hc
  simp only [printPadded, Int.natAbs_natCast] at hc
  rw [if_neg (by omega)] at hc
  rcases List.mem_append.mp hc with hzero | hdigit
  · rw [List.eq_of_mem_replicate hzero]
    rfl
  · exact Nat.isDigit_of_mem_toDigits (by decide) (by decide) hdigit

/-- Numbers that are printed with the same number of digits are ordered as their texts. -/
theorem lt_of_printPadded_lt {width m n : Nat} {rest : List Char}
    (hlength : (printPadded width m).length = (printPadded width n).length)
    (h : printPadded width m ++ rest < printPadded width n ++ rest) : m < n := by
  have hvalue : ∀ k : Nat,
      (printPadded width k).foldl (fun n c => 10 * n + (c.toNat - 48)) 0 = k := by
    intro k
    have hall := isDigit_printPadded width k
    have hread := @leadingDecimal_printPadded width k [] (by simp)
    rwa [List.append_nil, leadingDecimal, List.takeWhile_eq_self_iff.mpr hall,
      Int.toNat_natCast] at hread
  have hless := foldl_digits_lt_of_lt (isDigit_printPadded width m) (isDigit_printPadded width n)
    hlength h 0
  rwa [hvalue, hvalue] at hless

end Order

end MctDaemon.Lib
