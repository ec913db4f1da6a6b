import MctDaemon.Lib.PrefixDecoder
import MctDaemon.Lib.Utf8
import MctDaemon.Shared.ArgumentPrint

/-!
The text of an integer argument with its attributes: the name, the decimal value and the unit,
with colons between them. The values of some widths are printed over the name.
-/

namespace MctDaemon.Shared

open Lib User

section Arguments

/-- The type information of an integer with attributes, of 8 to 64 bits. -/
structure IsInteger (typeInfo : UInt32) : Prop where
  notString : ¬ (hasFlag typeInfo mctTypeInfoStrg ∧
    (typeInfo &&& mctTypeInfoScod = mctScodAscii ∨ typeInfo &&& mctTypeInfoScod = mctScodUtf8))
  notBool : ¬ hasFlag typeInfo mctTypeInfoBool
  sign : hasFlag typeInfo mctTypeInfoSint ∨ hasFlag typeInfo mctTypeInfoUint
  vari : hasFlag typeInfo mctTypeInfoVari
  tyle : typeInfo &&& mctTypeInfoTyle = mctTyle8bit ∨ typeInfo &&& mctTypeInfoTyle = mctTyle16bit ∨
    typeInfo &&& mctTypeInfoTyle = mctTyle32bit ∨ typeInfo &&& mctTypeInfoTyle = mctTyle64bit

/-- An unsigned number that is printed in binary or hexadecimal digits. -/
def Coded (typeInfo : UInt32) : Prop :=
  hasFlag typeInfo mctTypeInfoUint ∧
    (mctScodBin = typeInfo &&& mctTypeInfoScod ∨ mctScodHex = typeInfo &&& mctTypeInfoScod)

instance (typeInfo : UInt32) : Decidable (Coded typeInfo) := inferInstanceAs (Decidable (_ ∧ _))

def integerWidth (typeInfo : UInt32) : Nat :=
  if typeInfo &&& mctTypeInfoTyle = mctTyle8bit then 1
  else if typeInfo &&& mctTypeInfoTyle = mctTyle16bit then 2
  else if typeInfo &&& mctTypeInfoTyle = mctTyle32bit then 4
  else 8

/-- The bytes of the quantisation and the offset of a fixed-point number. -/
def fixedPointSize (typeInfo : UInt32) : Nat :=
  if hasFlag typeInfo mctTypeInfoFixp then
    if typeInfo &&& mctTypeInfoTyle = mctTyle64bit then 12 else 8
  else 0

structure IntegerArgument where
  typeInfo : UInt32
  name : Option (List UInt8)
  unit : Option (List UInt8)
  fixedPoint : List UInt8
  value : Int

/-- A name or a unit that fits its length field and has no zero in it. -/
def ValidAttribute (text : Option (List UInt8)) : Prop :=
  ∀ bytes ∈ text, 0 ∉ bytes ∧ bytes.length < 65535

def FitsWidth (typeInfo : UInt32) (value : Int) : Prop :=
  if hasFlag typeInfo mctTypeInfoSint then
    -(2 ^ (8 * integerWidth typeInfo - 1) : Nat) ≤ value ∧
      value < (2 ^ (8 * integerWidth typeInfo - 1) : Nat)
  else 0 ≤ value ∧ value < (2 ^ (8 * integerWidth typeInfo) : Nat)

namespace IntegerArgument

structure Valid (arg : IntegerArgument) : Prop where
  typeInfo : IsInteger arg.typeInfo
  name : ValidAttribute arg.name
  unit : ValidAttribute arg.unit
  fixedPoint : arg.fixedPoint.length = fixedPointSize arg.typeInfo
  value : FitsWidth arg.typeInfo arg.value

end IntegerArgument

/-- A number in the byte order of the message. -/
def numberBytes (msg : PayloadMessage) (width n : Nat) : List UInt8 :=
  if msg.isMsbf then (leBytes width n).reverse else leBytes width n

/-- The value in two's complement. -/
def valueBits (typeInfo : UInt32) (value : Int) : Nat :=
  (value % (2 ^ (8 * integerWidth typeInfo) : Nat)).toNat

/-- The argument in the payload, behind its type information. -/
def argumentBytes (msg : PayloadMessage) (arg : IntegerArgument) : List UInt8 :=
  numberBytes msg 2 (attributeSize arg.name) ++ (numberBytes msg 2 (attributeSize arg.unit) ++
    (attributeBytes arg.name ++ (attributeBytes arg.unit ++ (arg.fixedPoint ++
      numberBytes msg (integerWidth arg.typeInfo) (valueBits arg.typeInfo arg.value)))))

/-- The name with a colon behind it, or nothing. -/
def nameText (name : Option (List UInt8)) : List Char :=
  if name.getD [] = [] then [] else payloadText (name.getD []) ++ [':']

/-- The unit with a colon in front of it, or nothing. -/
def unitText (unit : Option (List UInt8)) : List Char :=
  if unit.getD [] = [] then [] else ':' :: payloadText (unit.getD [])

def argumentText (arg : IntegerArgument) : List Char :=
  nameText arg.name ++ (printInt arg.value ++ unitText arg.unit)

def PrintsBehindName (typeInfo : UInt32) : Prop :=
  typeInfo &&& mctTypeInfoTyle = mctTyle8bit ∨ typeInfo &&& mctTypeInfoTyle = mctTyle64bit ∨
    typeInfo &&& mctTypeInfoTyle = mctTyle32bit ∧ ¬ hasFlag typeInfo mctTypeInfoSint

instance (typeInfo : UInt32) : Decidable (PrintsBehindName typeInfo) :=
  inferInstanceAs (Decidable (_ ∨ _))

end Arguments

section Reading

variable {msg : PayloadMessage} {p : Printing} {front back : List UInt8} {size : Nat}

@[simp] theorem numberBytes_length (msg : PayloadMessage) (width n : Nat) :
    (numberBytes msg width n).length = width := by
  rw [numberBytes]
  split
  · rw [List.length_reverse, leBytes_length]
  · exact leBytes_length width n

theorem endianGet_numberBytes {width n : Nat} (h : n < 256 ^ width) :
    endianGet msg (some (numberBytes msg width n)) = n := by
  rw [endianGet, numberBytes]
  split
  · rw [List.reverse_reverse, leNat_leBytes width n h]
  · exact leNat_leBytes width n h

theorem read_append (hptr : p.reader.ptr = front ++ back) (hsize : front.length = size)
    (hlength : (size : Int) ≤ p.reader.datalength)
    (next : List UInt8 → Printing → MctReturnValue × Printing) :
    p.read size next =
      next front { p with reader := ⟨back, p.reader.datalength - size⟩ } := by
  rw [Printing.read, PayloadReader.readValue, if_neg (by omega), hptr, List.take_left' hsize,
    List.drop_left' hsize]

theorem readNumber_append {n : Nat} (hptr : p.reader.ptr = numberBytes msg size n ++ back)
    (hn : n < 256 ^ size) (hlength : (size : Int) ≤ p.reader.datalength)
    (next : Nat → Printing → MctReturnValue × Printing) :
    p.readNumber msg size next =
      next n { p with reader := ⟨back, p.reader.datalength - size⟩ } := by
  rw [Printing.readNumber, read_append hptr (numberBytes_length msg size n) hlength,
    endianGet_numberBytes hn]

theorem skip_append (hptr : p.reader.ptr = front ++ back) (hsize : front.length = size) :
    p.skip size = { p with reader := ⟨back, p.reader.datalength - size⟩ } := by
  rw [Printing.skip, hptr, List.drop_left' hsize]

end Reading

section Values

variable {typeInfo : UInt32} {value : Int}

theorem valueBits_lt (typeInfo : UInt32) (value : Int) :
    valueBits typeInfo value < 256 ^ integerWidth typeInfo := by
  have hpos : (0 : Int) < (2 ^ (8 * integerWidth typeInfo) : Nat) :=
    Int.natCast_pos.mpr (Nat.two_pow_pos _)
  have hlt := Int.emod_lt_of_pos value hpos
  have hnonneg := Int.emod_nonneg value hpos.ne'
  have hpow : 256 ^ integerWidth typeInfo = 2 ^ (8 * integerWidth typeInfo) := by
    rw [Nat.pow_mul]
  rw [valueBits, hpow]
  omega

/-- The value is read back from its bits. -/
theorem integerValue_valueBits (h : FitsWidth typeInfo value) :
    integerValue typeInfo (integerWidth typeInfo) (valueBits typeInfo value) = value := by
  have hpos : (0 : Int) < (2 ^ (8 * integerWidth typeInfo) : Nat) :=
    Int.natCast_pos.mpr (Nat.two_pow_pos _)
  have hnonneg := Int.emod_nonneg value hpos.ne'
  rw [integerValue, valueBits, Int.toNat_of_nonneg hnonneg]
  unfold FitsWidth at h
  split at h
  · next hsigned =>
      have hhalf : 2 * 2 ^ (8 * integerWidth typeInfo - 1) = 2 ^ (8 * integerWidth typeInfo) := by
        have hwidth : 8 * integerWidth typeInfo = 8 * integerWidth typeInfo - 1 + 1 := by
          unfold integerWidth
          split
          · rfl
          · split
            · rfl
            · split
              · rfl
              · rfl
        conv_rhs => rw [hwidth, Nat.pow_succ, Nat.mul_comm]
      rw [if_pos hsigned, Int.emod_bmod]
      apply Int.bmod_eq_of_le
      · omega
      · omega
  · next hunsigned =>
      rw [if_neg hunsigned]
      exact Int.emod_eq_of_lt h.1 h.2

theorem not_mem_printInt (value : Int) : '\x00' ∉ printInt value := by
  have hdigits : '\x00' ∉ Nat.toDigits 10 value.natAbs := by
    intro h
    exact absurd (Nat.isDigit_of_mem_toDigits (by decide) (by decide) h) (by decide)
  rw [printInt]
  split
  · rw [List.mem_cons, not_or]
    exact ⟨by decide, hdigits⟩
  · exact hdigits

end Values

section Attributes

variable {settings : PrintSettings} {msg : PayloadMessage} {p : Printing} {back : List UInt8}
  {name unit : Option (List UInt8)}

theorem not_mem_payloadText {bytes : List UInt8} (h : 0 ∉ bytes) : '\x00' ∉ payloadText bytes := by
  have hzero : ∀ b : UInt8, Char.ofNat b.toNat = '\x00' → b = 0 := by
    apply forall_byte
    decide +kernel
  intro hmem
  obtain ⟨b, hb, hchar⟩ := List.mem_map.mp hmem
  exact h (hzero b hchar ▸ hb)

theorem attributeSize_of_valid (h : ValidAttribute name) :
    attributeSize name = (attributeBytes name).length ∧
      attributeBytes name = name.elim [] fun text => text ++ [0] := by
  cases name with
  | none => exact ⟨rfl, rfl⟩
  | some text =>
      obtain ⟨hzero, hlength⟩ := h text rfl
      have hwhole : text.takeWhile (· ≠ 0) = text := by
        rw [List.takeWhile_eq_self_iff]
        intro b hb
        have hne : b ≠ 0 := by
          rintro rfl
          exact hzero hb
        simpa using hne
      have hbytes : attributeBytes (some text) = text ++ [0] := by rw [attributeBytes, hwhole]
      refine ⟨?_, hbytes⟩
      rw [hbytes, attributeSize, strlen, hwhole, List.length_append, List.length_singleton]
      omega

theorem attributeSize_lt (h : ValidAttribute name) : attributeSize name < 256 ^ 2 := by
  cases name with
  | none => exact Nat.two_pow_pos 16
  | some text => exact Nat.mod_lt _ (by decide)

theorem sizeSub_of_le {a b : Nat} (hb : b ≤ a) (ha : a < 18446744073709551616) :
    sizeSub a b = a - b := by
  unfold sizeSub
  omega

theorem nameText_length (h : ValidAttribute name) :
    (nameText name).length = if attributeSize name > 1 then attributeSize name else 0 := by
  obtain ⟨hsize, hbytes⟩ := attributeSize_of_valid h
  rw [hsize, hbytes]
  cases name with
  | none => rfl
  | some text =>
      cases text with
      | nil => rfl
      | cons b text => simp [nameText, payloadText]

theorem cString_attribute {text : List UInt8} (h : 0 ∉ text) (back : List UInt8) :
    cString (payloadText (text ++ [0] ++ back)) = payloadText text := by
  have hsplit : payloadText (text ++ [0] ++ back) =
      payloadText text ++ '\x00' :: payloadText back := by
    simp [payloadText]
  rw [hsplit]
  exact cString_append (not_mem_payloadText h) _

/-- The name is printed at the start of the text, if there is one. -/
theorem printName_eq (hattributes : settings.attributes) (hname : ValidAttribute name)
    (hptr : p.reader.ptr = attributeBytes name ++ back)
    (hlength : p.textlength < 18446744073709551616)
    (hroom : (nameText name).length ≤ p.textlength) :
    p.printName settings (attributeSize name) (attributeSize name) =
      { p with
        text := if nameText name = [] then p.text
          else snprintf p.text 0 p.textlength (nameText name)
        valueText := p.valueText + (nameText name).length
        textlength := p.textlength - (nameText name).length } := by
  obtain ⟨hsize, hbytes⟩ := attributeSize_of_valid hname
  have htext := nameText_length hname
  rw [Printing.printName]
  by_cases hone : attributeSize name > 1
  · rw [if_pos hone] at htext
    rw [if_pos ⟨hattributes, hone⟩, ← htext, sizeSub_of_le hroom hlength]
    cases name with
    | none => exact absurd hone (by decide)
    | some text =>
        have hne : text ≠ [] := by
          rintro rfl
          exact absurd hone (by decide)
        have hnameText : nameText (some text) = payloadText text ++ [':'] := if_neg hne
        rw [hptr, hbytes, Option.elim_some, cString_attribute (hname text rfl).1, hnameText,
          if_neg (by simp)]
  · rw [if_neg hone] at htext
    rw [if_neg fun h => hone h.2, htext, if_pos (List.length_eq_zero_iff.mp htext)]
    rfl

/-- The attributes of a number are read, and the name is printed. -/
theorem readNameUnit_eq {typeInfo : UInt32} (hvari : hasFlag typeInfo mctTypeInfoVari)
    (hattributes : settings.attributes) (hname : ValidAttribute name) (hunit : ValidAttribute unit)
    (hptr : p.reader.ptr = numberBytes msg 2 (attributeSize name) ++
      (numberBytes msg 2 (attributeSize unit) ++ (attributeBytes name ++
        (attributeBytes unit ++ back))))
    (hdata : (4 + attributeSize name + attributeSize unit : Nat) ≤ p.reader.datalength)
    (hlength : p.textlength < 18446744073709551616)
    (hroom : (nameText name).length ≤ p.textlength)
    (next : Printing → MctReturnValue × Printing) :
    p.readNameUnit settings msg typeInfo next = next
      { reader := ⟨back,
          p.reader.datalength - (4 + attributeSize name + attributeSize unit : Nat)⟩
        text := if nameText name = [] then p.text
          else snprintf p.text 0 p.textlength (nameText name)
        valueText := p.valueText + (nameText name).length
        textlength := p.textlength - (nameText name).length
        unit := (attributeBytes unit ++ back, attributeSize unit) } := by
  obtain ⟨hnameSize, -⟩ := attributeSize_of_valid hname
  obtain ⟨hunitSize, -⟩ := attributeSize_of_valid hunit
  have hprint := @printName_eq settings
    { p with reader := ⟨attributeBytes name ++ (attributeBytes unit ++ back),
      p.reader.datalength - 2 - 2⟩ } (attributeBytes unit ++ back) name hattributes hname rfl
    hlength hroom
  dsimp only at hprint
  rw [Printing.readNameUnit, if_pos hvari,
    readNumber_append hptr (attributeSize_lt hname) (by omega),
    readNumber_append rfl (attributeSize_lt hunit) (by dsimp only; omega),
    if_neg (by dsimp only; omega)]
  dsimp only [Nat.cast_ofNat]
  rw [hprint, skip_append rfl hnameSize.symm]
  dsimp only [Printing.skipChecked]
  rw [if_neg (by omega), skip_append rfl hunitSize.symm]
  dsimp only
  congr 3
  push_cast
  ring

end Attributes

section Decoding

variable {settings : PrintSettings} {msg : PayloadMessage} {arg : IntegerArgument} {p : Printing}
  {back : List UInt8}

/-- Quantisation and offset are left out. -/
theorem readFixedPoint_eq (harg : arg.Valid) (hptr : p.reader.ptr = arg.fixedPoint ++ back)
    (hdata : (arg.fixedPoint.length : Int) ≤ p.reader.datalength)
    (next : Printing → MctReturnValue × Printing) :
    readFixedPoint arg.typeInfo p next =
      next { p with reader := ⟨back, p.reader.datalength - arg.fixedPoint.length⟩ } := by
  have hsize := harg.fixedPoint
  rw [fixedPointSize] at hsize
  rw [readFixedPoint]
  by_cases hfixed : hasFlag arg.typeInfo mctTypeInfoFixp
  · rw [if_pos hfixed] at hsize ⊢
    have hsplit : arg.fixedPoint = arg.fixedPoint.take 4 ++ arg.fixedPoint.drop 4 :=
      (List.take_append_drop 4 _).symm
    have hfour : 4 ≤ arg.fixedPoint.length := by
      rw [hsize]
      split
      · decide
      · decide
    rw [hsplit, List.append_assoc] at hptr
    rw [read_append hptr (List.length_take_of_le hfour) (by push_cast; omega)]
    dsimp only [Printing.skipChecked]
    have hlast : (arg.fixedPoint.drop 4).length = arg.fixedPoint.length - 4 := List.length_drop
    by_cases hlong : arg.typeInfo &&& mctTypeInfoTyle = mctTyle64bit
    · rw [if_pos hlong] at hsize
      rw [if_neg (by rw [hlong]; decide), if_pos hlong, if_neg (by push_cast; omega),
        skip_append rfl (by omega)]
      dsimp only
      congr 3
      push_cast
      omega
    · rw [if_neg hlong] at hsize
      have hshort : arg.typeInfo &&& mctTypeInfoTyle = mctTyle8bit ∨
          arg.typeInfo &&& mctTypeInfoTyle = mctTyle16bit ∨
            arg.typeInfo &&& mctTypeInfoTyle = mctTyle32bit := by
        rcases harg.typeInfo.tyle with h | h | h | h
        · exact .inl h
        · exact .inr (.inl h)
        · exact .inr (.inr h)
        · exact absurd h hlong
      rw [if_pos hshort, if_neg (by push_cast; omega), skip_append rfl (by omega)]
      dsimp only
      congr 3
      push_cast
      omega
  · rw [if_neg hfixed] at hsize ⊢
    have hnone := List.length_eq_zero_iff.mp hsize
    rw [hnone, List.nil_append] at hptr
    rw [hnone]
    congr 1
    obtain ⟨⟨ptr, datalength⟩, text, valueText, textlength, unit⟩ := p
    dsimp only at hptr
    rw [hptr]
    simp

/-- The value is printed to one of the two places. -/
theorem printIntegerValue_eq (harg : arg.Valid)
    (hptr : p.reader.ptr = numberBytes msg (integerWidth arg.typeInfo)
      (valueBits arg.typeInfo arg.value) ++ back)
    (hdata : (integerWidth arg.typeInfo : Int) ≤ p.reader.datalength) :
    printIntegerValue msg arg.typeInfo p =
      (.ok, { p with
        reader := ⟨back, p.reader.datalength - integerWidth arg.typeInfo⟩
        text := snprintf p.text (if PrintsBehindName arg.typeInfo then p.valueText else 0)
          p.textlength (printInt arg.value) }) := by
  have hlt := valueBits_lt arg.typeInfo arg.value
  have hvalue := integerValue_valueBits harg.value
  have hdifferent : mctTyle16bit ≠ mctTyle8bit ∧ mctTyle32bit ≠ mctTyle8bit ∧
      mctTyle32bit ≠ mctTyle16bit ∧ mctTyle64bit ≠ mctTyle8bit ∧ mctTyle64bit ≠ mctTyle16bit ∧
        mctTyle64bit ≠ mctTyle32bit := by decide
  obtain ⟨h21, h31, h32, h41, h42, h43⟩ := hdifferent
  rw [printIntegerValue]
  rcases harg.typeInfo.tyle with htyle | htyle | htyle | htyle
  · have hwidth : integerWidth arg.typeInfo = 1 := if_pos htyle
    rw [hwidth] at hptr hdata hlt hvalue ⊢
    have hbyte : leNat (numberBytes msg 1 (valueBits arg.typeInfo arg.value)) =
        valueBits arg.typeInfo arg.value := by
      have hbytes : numberBytes msg 1 (valueBits arg.typeInfo arg.value) =
          leBytes 1 (valueBits arg.typeInfo arg.value) := by
        rw [numberBytes]
        split
        · rfl
        · rfl
      rw [hbytes, leNat_leBytes 1 _ hlt]
    dsimp only
    rw [if_pos htyle, read_append hptr (numberBytes_length msg 1 _) hdata, hbyte, hvalue,
      if_pos (.inl htyle)]
    rfl
  · have hwidth : integerWidth arg.typeInfo = 2 := by
      rw [integerWidth, htyle, if_neg h21, if_pos rfl]
    have hnot : ¬ PrintsBehindName arg.typeInfo := by
      rw [PrintsBehindName, htyle]
      rintro (h | h | h)
      · exact h21 h
      · exact h42 h.symm
      · exact h32 h.1.symm
    rw [hwidth] at hptr hdata hlt hvalue ⊢
    dsimp only
    rw [if_neg (htyle ▸ h21), if_pos htyle, readNumber_append hptr hlt hdata, hvalue, if_neg hnot]
    rfl
  · have hwidth : integerWidth arg.typeInfo = 4 := by
      rw [integerWidth, htyle, if_neg h31, if_neg h32, if_pos rfl]
    have hbehind : PrintsBehindName arg.typeInfo ↔ ¬ hasFlag arg.typeInfo mctTypeInfoSint := by
      rw [PrintsBehindName, htyle]
      constructor
      · rintro (h | h | h)
        · exact absurd h h31
        · exact absurd h.symm h43
        · exact h.2
      · intro h
        exact .inr (.inr ⟨rfl, h⟩)
    rw [hwidth] at hptr hdata hlt hvalue ⊢
    dsimp only
    rw [if_neg (htyle ▸ h31), if_neg (htyle ▸ h32), if_pos htyle, readNumber_append hptr hlt hdata,
      hvalue]
    by_cases hsigned : hasFlag arg.typeInfo mctTypeInfoSint
    · rw [if_pos hsigned, if_neg fun h => hbehind.mp h hsigned]
      rfl
    · rw [if_neg hsigned, if_pos (hbehind.mpr hsigned)]
      rfl
  · have hwidth : integerWidth arg.typeInfo = 8 := by
      rw [integerWidth, htyle, if_neg h41, if_neg h42, if_neg h43]
    rw [hwidth] at hptr hdata hlt hvalue ⊢
    dsimp only
    rw [if_neg (htyle ▸ h41), if_neg (htyle ▸ h42), if_neg (htyle ▸ h43), if_pos htyle,
      readNumber_append hptr hlt hdata, hvalue, if_pos (.inr (.inl htyle))]
    rfl

end Decoding

section Text

variable {settings : PrintSettings} {msg : PayloadMessage} {arg : IntegerArgument}
  {reader : PayloadReader} {text : List Char} {textlength : Nat} {byteLength : Int}
  {rest : List UInt8}

/-- The memory behind the printing of the name, of the value and of the unit. -/
def namePrinted (arg : IntegerArgument) (text : List Char) (textlength : Nat) : List Char :=
  if nameText arg.name = [] then text else snprintf text 0 textlength (nameText arg.name)

def valuePrinted (arg : IntegerArgument) (text : List Char) (textlength : Nat) : List Char :=
  snprintf (namePrinted arg text textlength)
    (if PrintsBehindName arg.typeInfo then (nameText arg.name).length else 0)
    (textlength - (nameText arg.name).length) (printInt arg.value)

def unitPrinted (arg : IntegerArgument) (text : List Char) (textlength : Nat) : List Char :=
  let printed := valuePrinted arg text textlength
  let currLen := (stringAt printed (nameText arg.name).length).length
  if unitText arg.unit = [] then printed
  else
    snprintf printed ((nameText arg.name).length + currLen)
      (sizeSub (textlength - (nameText arg.name).length) currLen) (unitText arg.unit)

theorem unitText_eq {unit : Option (List UInt8)} (hunit : ValidAttribute unit)
    (back : List UInt8) :
    (attributeSize unit > 1 → unitText unit ≠ [] ∧
      ':' :: cString (payloadText (attributeBytes unit ++ back)) = unitText unit) ∧
    (¬ attributeSize unit > 1 → unitText unit = []) := by
  obtain ⟨hsize, hbytes⟩ := attributeSize_of_valid hunit
  cases unit with
  | none => exact ⟨fun h => absurd h (by decide), fun _ => rfl⟩
  | some text =>
      cases text with
      | nil => exact ⟨fun h => absurd h (by decide), fun _ => rfl⟩
      | cons b text =>
          have hunitText : unitText (some (b :: text)) = ':' :: payloadText (b :: text) :=
            if_neg (List.cons_ne_nil _ _)
          constructor
          · intro _
            rw [hunitText, hbytes, Option.elim_some, cString_attribute (hunit _ rfl).1]
            exact ⟨List.cons_ne_nil _ _, rfl⟩
          · intro hshort
            refine absurd ?_ hshort
            rw [hsize, hbytes]
            simp

theorem argumentBytes_length (msg : PayloadMessage) (arg : IntegerArgument)
    (hname : ValidAttribute arg.name) (hunit : ValidAttribute arg.unit) :
    (argumentBytes msg arg).length = 4 + attributeSize arg.name + attributeSize arg.unit +
      arg.fixedPoint.length + integerWidth arg.typeInfo := by
  obtain ⟨hnameSize, -⟩ := attributeSize_of_valid hname
  obtain ⟨hunitSize, -⟩ := attributeSize_of_valid hunit
  simp only [argumentBytes, List.length_append, numberBytes_length]
  omega

/-- The argument is read, and the text is printed in three steps. -/
theorem mctMessageArgumentPrint_integer (harg : arg.Valid) (hdecimal : ¬ Coded arg.typeInfo)
    (hattributes : settings.attributes)
    (hptr : reader.ptr = argumentBytes msg arg ++ rest)
    (hdata : ((argumentBytes msg arg).length : Int) ≤ reader.datalength)
    (hlength : textlength < 18446744073709551616)
    (hroom : (nameText arg.name).length ≤ textlength) :
    (mctMessageArgumentPrint settings msg arg.typeInfo reader text textlength byteLength).1 = .ok ∧
      (mctMessageArgumentPrint settings msg arg.typeInfo reader text textlength
        byteLength).2.text = unitPrinted arg text textlength := by
  rw [argumentBytes_length msg arg harg.name harg.unit] at hdata
  simp only [argumentBytes, List.append_assoc] at hptr
  have hvalue : printArgument settings msg arg.typeInfo ⟨reader, text, 0, textlength, ([], 0)⟩
      byteLength = (.ok,
        { reader := ⟨rest, reader.datalength - (4 + attributeSize arg.name +
            attributeSize arg.unit : Nat) - arg.fixedPoint.length - integerWidth arg.typeInfo⟩
          text := valuePrinted arg text textlength
          valueText := (nameText arg.name).length
          textlength := textlength - (nameText arg.name).length
          unit := (attributeBytes arg.unit ++ (arg.fixedPoint ++ (numberBytes msg
            (integerWidth arg.typeInfo) (valueBits arg.typeInfo arg.value) ++ rest)),
            attributeSize arg.unit) }) := by
    have htype := harg.typeInfo
    rw [printArgument, if_neg htype.notString, if_neg htype.notBool,
      if_neg fun h => hdecimal ⟨h.1, .inl h.2⟩, if_neg fun h => hdecimal ⟨h.1, .inr h.2⟩,
      if_pos htype.sign, printInteger,
      readNameUnit_eq htype.vari hattributes harg.name harg.unit hptr (by dsimp only; omega)
        hlength hroom,
      readFixedPoint_eq harg rfl (by dsimp only; omega),
      printIntegerValue_eq harg rfl (by dsimp only; omega)]
    dsimp only
    rw [Nat.zero_add]
    rfl
  rw [mctMessageArgumentPrint, hvalue]
  dsimp only
  rw [if_neg (by omega)]
  refine ⟨rfl, ?_⟩
  obtain ⟨hsome, hnone⟩ := unitText_eq harg.unit (arg.fixedPoint ++ (numberBytes msg
    (integerWidth arg.typeInfo) (valueBits arg.typeInfo arg.value) ++ rest))
  rw [printUnit, unitPrinted]
  dsimp only
  by_cases hunit : attributeSize arg.unit > 1
  · obtain ⟨hne, htext⟩ := hsome hunit
    rw [if_pos ⟨hattributes, hunit⟩, if_neg hne, htext]
  · rw [if_neg fun h => hunit h.2, if_pos (hnone hunit)]

theorem not_mem_nameText {name : Option (List UInt8)} (h : ValidAttribute name) :
    '\x00' ∉ nameText name := by
  rw [nameText]
  split
  · exact List.not_mem_nil
  · cases name with
    | none => decide
    | some text =>
        rw [List.mem_append, not_or, Option.getD_some]
        exact ⟨not_mem_payloadText (h text rfl).1, by decide⟩

theorem not_mem_unitText {unit : Option (List UInt8)} (h : ValidAttribute unit) :
    '\x00' ∉ unitText unit := by
  rw [unitText]
  split
  · exact List.not_mem_nil
  · cases unit with
    | none => decide
    | some text =>
        rw [List.mem_cons, not_or, Option.getD_some]
        exact ⟨by decide, not_mem_payloadText (h text rfl).1⟩

section Printed

variable (htext : textlength ≤ text.length)
  (hlong : (argumentText arg).length < textlength) (hlength : textlength < 18446744073709551616)

include htext hlong

theorem namePrinted_length : (namePrinted arg text textlength).length = text.length := by
  have hname : (nameText arg.name).length < textlength := by
    rw [argumentText, List.length_append] at hlong
    omega
  rw [namePrinted]
  split
  · rfl
  · exact snprintf_length hname (by omega)

/-- The name stands at the start of the text, and ends there. -/
theorem namePrinted_front : (namePrinted arg text textlength).take (nameText arg.name).length =
    nameText arg.name := by
  have hname : (nameText arg.name).length < textlength := by
    rw [argumentText, List.length_append] at hlong
    omega
  rw [namePrinted]
  split
  · next hnone =>
      rw [hnone]
      rfl
  · have hfront := @snprintf_behind text (nameText arg.name) textlength [] rfl hname (by simpa)
    rw [List.length_nil, Nat.zero_add, List.nil_append] at hfront
    exact hfront

include hlength

/-- A value that is printed behind the name, with the unit behind it. -/
theorem stringAt_unitPrinted (harg : arg.Valid)
    (h : nameText arg.name = [] ∨ PrintsBehindName arg.typeInfo) :
    stringAt (unitPrinted arg text textlength) 0 = argumentText arg := by
  have hname := not_mem_nameText harg.name
  have hunit := not_mem_unitText harg.unit
  have hvalue := not_mem_printInt arg.value
  have hfront := namePrinted_front htext hlong
  have hprinted := namePrinted_length htext hlong
  rw [argumentText, List.length_append, List.length_append] at hlong
  have hplace : (if PrintsBehindName arg.typeInfo then (nameText arg.name).length else 0) =
      (nameText arg.name).length := by
    rcases h with hnone | hbehind
    · rw [hnone]
      exact ite_self 0
    · exact if_pos hbehind
  rw [unitPrinted, valuePrinted, hplace, argumentText]
  generalize namePrinted arg text textlength = mem at hfront hprinted
  generalize nameText arg.name = name at hname hfront hlong
  generalize unitText arg.unit = unit at hunit hlong
  have hcurr : stringAt (snprintf mem name.length (textlength - name.length) (printInt arg.value))
      name.length = printInt arg.value := stringAt_snprintf (by omega) (by omega) hvalue
  have hlengthPrinted := @snprintf_length mem (printInt arg.value) name.length
    (textlength - name.length) (by omega) (by omega)
  have hboth := @snprintf_behind mem (printInt arg.value) (textlength - name.length) name hfront
    (by omega) (by omega)
  rw [hcurr]
  split
  · next hnone =>
      rw [hnone, List.append_nil]
      exact stringAt_snprintf_behind hfront hname hvalue (by omega) (by omega)
  · rw [sizeSub_of_le (by omega) (by omega), ← List.length_append, ← List.append_assoc]
    apply stringAt_snprintf_behind
    · rw [List.length_append]
      exact hboth
    · rw [List.mem_append, not_or]
      exact ⟨hname, hvalue⟩
    · exact hunit
    · omega
    · rw [hlengthPrinted, List.length_append]
      omega

/-- A value that is printed over the name makes the text too short. -/
theorem length_unitPrinted_lt (hnamed : nameText arg.name ≠ [])
    (hover : ¬ PrintsBehindName arg.typeInfo) :
    (stringAt (unitPrinted arg text textlength) 0).length < (argumentText arg).length := by
  have hvalue := not_mem_printInt arg.value
  have hprinted := namePrinted_length htext hlong
  have hpos := List.length_pos_of_ne_nil hnamed
  rw [argumentText, List.length_append, List.length_append] at hlong ⊢
  rw [unitPrinted, valuePrinted, if_neg hover]
  generalize namePrinted arg text textlength = mem at hprinted
  generalize (nameText arg.name).length = named at hlong hpos
  generalize unitText arg.unit = unit at hlong
  generalize printInt arg.value = value at hlong hvalue
  have hlengthPrinted := @snprintf_length mem value 0 (textlength - named) (by omega) (by omega)
  have hzero := @snprintf_zero mem value 0 (textlength - named) (by omega) (by omega)
  rw [Nat.zero_add] at hzero
  have hbehind := @length_stringAt (snprintf mem 0 (textlength - named) value) named (by omega)
  split
  · have hle := length_stringAt_le hzero
    omega
  · by_cases hshort : value.length < named
    · -- the zero behind the value stands in front of the unit
      have hstays := @getElem?_snprintf (snprintf mem 0 (textlength - named) value) unit
        (named + (stringAt (snprintf mem 0 (textlength - named) value) named).length)
        (sizeSub (textlength - named)
          (stringAt (snprintf mem 0 (textlength - named) value) named).length)
        value.length hbehind (by omega)
      have hle := length_stringAt_le (hstays.trans hzero)
      omega
    · -- the unit is printed behind the value
      have hcurr : (stringAt (snprintf mem 0 (textlength - named) value) named).length =
          value.length - named := by
        have hinside := @stringAt_inside mem value 0 (textlength - named) (by omega) (by omega)
          hvalue named (by omega)
        rw [Nat.zero_add] at hinside
        rw [hinside, List.length_drop]
      rw [hcurr, sizeSub_of_le (by omega) (by omega)]
      have hend := @snprintf_zero (snprintf mem 0 (textlength - named) value) unit
        (named + (value.length - named)) (textlength - named - (value.length - named)) (by omega)
        (by omega)
      have hle := length_stringAt_le hend
      omega

end Printed

def PrintsArgument (settings : PrintSettings) (msg : PayloadMessage) (arg : IntegerArgument)
    (reader : PayloadReader) (text : List Char) (textlength : Nat) (byteLength : Int) : Prop :=
  (mctMessageArgumentPrint settings msg arg.typeInfo reader text textlength byteLength).1 = .ok ∧
    stringAt (mctMessageArgumentPrint settings msg arg.typeInfo reader text textlength
      byteLength).2.text 0 = argumentText arg

/-- A number in decimal digits is printed with its name and its unit if and only if there is no
name, or the value has a width and a sign that are printed behind it. -/
theorem printsArgument_decimal_iff (harg : arg.Valid) (hdecimal : ¬ Coded arg.typeInfo)
    (hattributes : settings.attributes)
    (hptr : reader.ptr = argumentBytes msg arg ++ rest)
    (hdata : ((argumentBytes msg arg).length : Int) ≤ reader.datalength)
    (htext : textlength ≤ text.length) (hlong : (argumentText arg).length < textlength)
    (hlength : textlength < 18446744073709551616) :
    PrintsArgument settings msg arg reader text textlength byteLength ↔
      nameText arg.name = [] ∨ PrintsBehindName arg.typeInfo := by
  have hroom : (nameText arg.name).length ≤ textlength := by
    rw [argumentText, List.length_append] at hlong
    omega
  obtain ⟨hok, hprinted⟩ := @mctMessageArgumentPrint_integer settings msg arg reader text
    textlength byteLength rest harg hdecimal hattributes hptr hdata hlength hroom
  rw [PrintsArgument, hprinted]
  constructor
  · rintro ⟨-, hstring⟩
    by_contra hnot
    rw [not_or] at hnot
    have hlt := length_unitPrinted_lt htext hlong hlength hnot.1 hnot.2
    rw [hstring] at hlt
    exact lt_irrefl _ hlt
  · intro h
    exact ⟨hok, stringAt_unitPrinted htext hlong hlength harg h⟩

end Text

end MctDaemon.Shared
