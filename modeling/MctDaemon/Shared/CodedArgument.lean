import MctDaemon.Shared.IntegerArgument

/-!
The unsigned integers that are printed in binary and hexadecimal digits. Their attributes are
neither read nor printed, so that their text is never the name, the decimal value and the unit.
Of the longer ones in binary digits nothing is printed at all.
-/

namespace MctDaemon.Shared

open Lib User

section Digits

theorem not_mem_hexPadded {c : Char} (hc : ∀ d < 16, c ≠ d.digitChar) (width n : Nat) :
    c ∉ hexPadded width n := by
  rw [hexPadded, List.mem_append, List.mem_replicate, not_or]
  exact ⟨fun h => hc 0 (by decide) h.2, not_mem_hexDigits hc n⟩

theorem not_mem_binaryText {c : Char} (hc : c ∉ [' ', '0', '1']) (width : Nat)
    (blanks : List Nat) (n : Nat) : c ∉ binaryText width blanks n := by
  intro h
  rw [binaryText, List.mem_flatMap] at h
  obtain ⟨i, -, hi⟩ := h
  apply hc
  rw [List.mem_append] at hi
  rcases hi with hi | hi
  · split at hi
    · rw [List.mem_singleton.mp hi]
      decide
    · cases hi
  · split at hi
    · rw [List.mem_singleton.mp hi]
      decide
    · rw [List.mem_singleton.mp hi]
      decide

/-- The digits of some bytes, two for each of them. -/
theorem hexPadded_length (ptr : List UInt8) {size : Nat} (hsize : 0 < size) :
    (hexPadded (2 * size) (leNat (ptr.take size))).length = 2 * size := by
  have hvalue : leNat (ptr.take size) < 16 ^ (2 * size) := by
    rw [Nat.pow_mul]
    exact (leNat_lt _).trans_le (Nat.pow_le_pow_right (by decide) (List.length_take_le size ptr))
  have hdigits := (Nat.length_toDigits_le_iff (b := 16) (by decide) (by omega)).mpr hvalue
  rw [hexPadded, List.length_append, List.length_replicate]
  omega

theorem binaryText_length (width : Nat) (blanks : List Nat) (n : Nat) :
    (binaryText width blanks n).length =
      ((List.range width).reverse.map fun i => if i ∈ blanks then 2 else 1).sum := by
  rw [binaryText, List.length_flatMap]
  congr 1
  apply List.map_congr_left
  intro i _
  rw [List.length_append]
  by_cases hblank : i ∈ blanks
  · rw [if_pos hblank, if_pos hblank]
    split <;> rfl
  · rw [if_neg hblank, if_neg hblank]
    split <;> rfl

end Digits

section Texts

variable {value : List Char}

/-- Digits behind the prefix of their base. -/
structure CodedText (value : List Char) : Prop where
  letter : ∃ c ∈ value, c = 'x' ∨ c = 'b'
  colon : ':' ∉ value
  zero : '\x00' ∉ value

theorem hexPadded_coded (width n : Nat) : CodedText ('0' :: 'x' :: hexPadded width n) where
  letter := ⟨'x', List.mem_cons_of_mem _ List.mem_cons_self, .inl rfl⟩
  colon := by
    rw [List.mem_cons, List.mem_cons, not_or, not_or]
    exact ⟨by decide, by decide, not_mem_hexPadded (by decide) width n⟩
  zero := by
    rw [List.mem_cons, List.mem_cons, not_or, not_or]
    exact ⟨by decide, by decide, not_mem_hexPadded (by decide) width n⟩

theorem binaryText_coded (width : Nat) (blanks : List Nat) (n : Nat) :
    CodedText ('0' :: 'b' :: binaryText width blanks n) where
  letter := ⟨'b', List.mem_cons_of_mem _ List.mem_cons_self, .inr rfl⟩
  colon := by
    rw [List.mem_cons, List.mem_cons, not_or, not_or]
    exact ⟨by decide, by decide, not_mem_binaryText (by decide) width blanks n⟩
  zero := by
    rw [List.mem_cons, List.mem_cons, not_or, not_or]
    exact ⟨by decide, by decide, not_mem_binaryText (by decide) width blanks n⟩

theorem CodedText.append (h : CodedText value) {digits : List Char} (hcolon : ':' ∉ digits)
    (hzero : '\x00' ∉ digits) : CodedText (value ++ digits) where
  letter := by
    obtain ⟨c, hc, hletter⟩ := h.letter
    exact ⟨c, List.mem_append_left digits hc, hletter⟩
  colon := by
    rw [List.mem_append, not_or]
    exact ⟨h.colon, hcolon⟩
  zero := by
    rw [List.mem_append, not_or]
    exact ⟨h.zero, hzero⟩

theorem printInt_isDigit {n : Int} {c : Char} (h : c ∈ printInt n) : c = '-' ∨ c.isDigit := by
  rw [printInt] at h
  split at h
  · rw [List.mem_cons] at h
    exact h.imp_right (Nat.isDigit_of_mem_toDigits (by decide) (by decide))
  · exact .inr (Nat.isDigit_of_mem_toDigits (by decide) (by decide) h)

/-- A name or a unit shows by its colon, and a decimal value has no letter. -/
theorem CodedText.ne_argumentText (h : CodedText value) (arg : IntegerArgument) :
    value ≠ argumentText arg := by
  rintro rfl
  have hname : nameText arg.name = [] := by
    by_contra hnamed
    apply h.colon
    rw [argumentText, List.mem_append]
    unfold nameText at hnamed ⊢
    split at hnamed
    · exact absurd rfl hnamed
    · next hne =>
        rw [if_neg hne]
        exact .inl (List.mem_append_right _ List.mem_cons_self)
  have hunit : unitText arg.unit = [] := by
    by_contra hshown
    apply h.colon
    rw [argumentText, List.mem_append, List.mem_append]
    unfold unitText at hshown ⊢
    split at hshown
    · exact absurd rfl hshown
    · next hne =>
        rw [if_neg hne]
        exact .inr (.inr List.mem_cons_self)
  obtain ⟨c, hc, hletter⟩ := h.letter
  rw [argumentText, hname, hunit, List.nil_append, List.append_nil] at hc
  rcases printInt_isDigit hc with rfl | hdigit
  · exact absurd hletter (by decide)
  · rcases hletter with rfl | rfl
    · exact absurd hdigit (by decide)
    · exact absurd hdigit (by decide)

end Texts

section Printing

variable {settings : PrintSettings} {msg : PayloadMessage} {typeInfo : UInt32} {p : Printing}
  {size : Nat} {byteLength : Int}

/-- A number of which nothing is printed: the longer ones in binary digits. -/
def LeavesText (typeInfo : UInt32) : Prop :=
  (hasFlag typeInfo mctTypeInfoUint ∧ mctScodBin = typeInfo &&& mctTypeInfoScod) ∧
    (typeInfo &&& mctTypeInfoTyle = mctTyle32bit ∨ typeInfo &&& mctTypeInfoTyle = mctTyle64bit)

instance (typeInfo : UInt32) : Decidable (LeavesText typeInfo) :=
  inferInstanceAs (Decidable (_ ∧ _))

/-- A call that has printed nothing, with room for every coded number. -/
structure Printing.Fresh (p : Printing) : Prop where
  place : p.valueText = 0
  memory : p.textlength ≤ p.text.length
  room : 22 ≤ p.textlength
  small : p.textlength < 18446744073709551616

/-- A coded number has been printed, and nothing of its attributes has been read. -/
structure Printing.PrintsCode (p p' : Printing) : Prop where
  unit : p'.unit = p.unit
  left : 0 ≤ p'.reader.datalength
  text : CodedText (stringAt p'.text 0)

theorem read_of_le (hdata : (size : Int) ≤ p.reader.datalength)
    (next : List UInt8 → Printing → MctReturnValue × Printing) :
    p.read size next = next (p.reader.ptr.take size)
      { p with reader := ⟨p.reader.ptr.drop size, p.reader.datalength - size⟩ } := by
  rw [Printing.read, PayloadReader.readValue, if_neg (by omega)]

theorem print_coded {value : List Char} (hp : p.Fresh) (hvalue : CodedText value)
    (hfits : value.length < 22) : CodedText (stringAt (p.print value).text 0) := by
  have hprinted : stringAt (p.print value).text 0 = value := by
    rw [Printing.print, hp.place]
    exact stringAt_snprintf (hfits.trans_le hp.room) (Nat.zero_le _) hvalue.zero
  rwa [hprinted]

/-- Numbers of 8 and 16 bits in binary digits. -/
theorem printBin_coded (hp : p.Fresh)
    (htyle : typeInfo &&& mctTypeInfoTyle = mctTyle8bit ∨
      typeInfo &&& mctTypeInfoTyle = mctTyle16bit) (hdata : 2 ≤ p.reader.datalength) :
    ∃ p', printBin typeInfo p = (.ok, p') ∧ p.PrintsCode p' := by
  rw [printBin]
  rcases htyle with htyle | htyle
  · rw [if_pos htyle, read_of_le (by omega)]
    refine ⟨_, rfl, rfl, ?_, print_coded ⟨hp.place, hp.memory, hp.room, hp.small⟩
      (binaryText_coded _ _ _) ?_⟩
    · change 0 ≤ p.reader.datalength - (1 : Nat)
      omega
    · rw [List.length_cons, List.length_cons, binaryText_length]
      decide
  · rw [if_neg (by rw [htyle]; decide), if_pos htyle, read_of_le (by omega)]
    refine ⟨_, rfl, rfl, ?_, print_coded ⟨hp.place, hp.memory, hp.room, hp.small⟩
      (binaryText_coded _ _ _) ?_⟩
    · change 0 ≤ p.reader.datalength - (2 : Nat)
      omega
    · rw [List.length_cons, List.length_cons, binaryText_length]
      decide

/-- Numbers of 64 bits are printed in two halves. -/
theorem printHex_long_coded (hp : p.Fresh) (htyle : typeInfo &&& mctTypeInfoTyle = mctTyle64bit)
    (hdata : 8 ≤ p.reader.datalength) :
    ∃ p', printHex typeInfo p = (.ok, p') ∧ p.PrintsCode p' := by
  obtain ⟨⟨ptr, datalength⟩, text, valueText, textlength, unit⟩ := p
  obtain ⟨hplace, hmemory, hroom, hsmall⟩ := hp
  dsimp only at hplace hmemory hroom hsmall hdata
  subst hplace
  have hupper : (hexPadded 8 (leNat ((ptr.drop 4).take 4))).length = 8 :=
    @hexPadded_length (ptr.drop 4) 4 (by decide)
  have hlower : (hexPadded 8 (leNat (ptr.take 4))).length = 8 :=
    @hexPadded_length ptr 4 (by decide)
  have hfirst := hexPadded_coded 8 (leNat ((ptr.drop 4).take 4))
  have hlength : ('0' :: 'x' :: hexPadded 8 (leNat ((ptr.drop 4).take 4))).length = 10 := by
    rw [List.length_cons, List.length_cons, hupper]
  have hstring := @stringAt_snprintf text _ 0 textlength (by omega) (Nat.zero_le _) hfirst.zero
  have hkept := @snprintf_length text ('0' :: 'x' :: hexPadded 8 (leNat ((ptr.drop 4).take 4))) 0
    textlength (by omega) (by omega)
  obtain ⟨-, hboth, -⟩ := @snprintf_goes_on _ _ (hexPadded 8 (leNat (ptr.take 4)))
    (textlength - 10) hstring (not_mem_hexPadded digitChar_ne_zero 8 _) (by omega) (by omega)
  rw [hlength] at hboth
  rw [printHex]
  dsimp only
  rw [htyle, if_neg (by decide), if_neg (by decide), if_neg (by decide), if_pos rfl,
    read_of_le (by dsimp only; omega)]
  dsimp only [Printing.print]
  rw [read_of_le (by dsimp only; omega)]
  refine ⟨_, rfl, rfl, ?_, ?_⟩
  · change 0 ≤ datalength - (4 : Nat) - (4 : Nat)
    omega
  · dsimp only
    rw [hstring, hlength, Nat.zero_add, sizeSub_of_le (by omega) hsmall, hboth]
    exact hfirst.append (not_mem_hexPadded (by decide) 8 _) (not_mem_hexPadded (by decide) 8 _)

/-- Numbers in hexadecimal digits. -/
theorem printHex_coded (hp : p.Fresh)
    (htyle : typeInfo &&& mctTypeInfoTyle = mctTyle8bit ∨
      typeInfo &&& mctTypeInfoTyle = mctTyle16bit ∨ typeInfo &&& mctTypeInfoTyle = mctTyle32bit ∨
        typeInfo &&& mctTypeInfoTyle = mctTyle64bit)
    (hdata : (integerWidth typeInfo : Int) ≤ p.reader.datalength) :
    ∃ p', printHex typeInfo p = (.ok, p') ∧ p.PrintsCode p' := by
  have hprints : ∀ size : Nat, 0 < size → size ≤ 4 → (size : Int) ≤ p.reader.datalength →
      p.PrintsCode (({ p with reader := ⟨p.reader.ptr.drop size, p.reader.datalength - size⟩ } :
        Printing).print ('0' :: 'x' :: hexPadded (2 * size) (leNat (p.reader.ptr.take size)))) := by
    intro size hpos hsize hread
    refine ⟨rfl, ?_, print_coded ⟨hp.place, hp.memory, hp.room, hp.small⟩ (hexPadded_coded _ _) ?_⟩
    · change 0 ≤ p.reader.datalength - size
      omega
    · rw [List.length_cons, List.length_cons, hexPadded_length _ hpos]
      omega
  rcases htyle with htyle | htyle | htyle | htyle
  · have hwidth : integerWidth typeInfo = 1 := if_pos htyle
    rw [hwidth] at hdata
    rw [printHex]
    dsimp only
    rw [if_pos htyle, read_of_le hdata]
    exact ⟨_, rfl, hprints 1 (by decide) (by decide) hdata⟩
  · have hwidth : integerWidth typeInfo = 2 := by
      rw [integerWidth, htyle]
      rfl
    rw [hwidth] at hdata
    rw [printHex]
    dsimp only
    rw [if_neg (by rw [htyle]; decide), if_pos htyle, read_of_le hdata]
    exact ⟨_, rfl, hprints 2 (by decide) (by decide) hdata⟩
  · have hwidth : integerWidth typeInfo = 4 := by
      rw [integerWidth, htyle]
      rfl
    rw [hwidth] at hdata
    rw [printHex]
    dsimp only
    rw [if_neg (by rw [htyle]; decide), if_neg (by rw [htyle]; decide), if_pos htyle,
      read_of_le hdata]
    exact ⟨_, rfl, hprints 4 (by decide) (by decide) hdata⟩
  · have hwidth : integerWidth typeInfo = 8 := by
      rw [integerWidth, htyle]
      rfl
    rw [hwidth] at hdata
    exact printHex_long_coded hp htyle hdata

/-- A coded number prints its digits, or leaves the text as it is. -/
theorem printArgument_coded (settings : PrintSettings) (msg : PayloadMessage) (byteLength : Int)
    (htype : IsInteger typeInfo) (hcoded : Coded typeInfo) (hp : p.Fresh)
    (hdata : ((4 + integerWidth typeInfo : Nat) : Int) ≤ p.reader.datalength) :
    ∃ p', printArgument settings msg typeInfo p byteLength = (.ok, p') ∧
      (LeavesText typeInfo ∧ p' = p ∨ ¬ LeavesText typeInfo ∧ p.PrintsCode p') := by
  rw [printArgument, if_neg htype.notString, if_neg htype.notBool]
  by_cases hbin : mctScodBin = typeInfo &&& mctTypeInfoScod
  · rw [if_pos ⟨hcoded.1, hbin⟩]
    by_cases hlong : typeInfo &&& mctTypeInfoTyle = mctTyle32bit ∨
        typeInfo &&& mctTypeInfoTyle = mctTyle64bit
    · refine ⟨p, ?_, .inl ⟨⟨⟨hcoded.1, hbin⟩, hlong⟩, rfl⟩⟩
      rw [printBin]
      rcases hlong with hlong | hlong
      · rw [hlong]
        rfl
      · rw [hlong]
        rfl
    · obtain ⟨p', hp', hprints⟩ := @printBin_coded typeInfo p hp (by
        rcases htype.tyle with h | h | h
        · exact .inl h
        · exact .inr h
        · exact absurd h hlong) (by omega)
      exact ⟨p', hp', .inr ⟨fun h => hlong h.2, hprints⟩⟩
  · have hhex : mctScodHex = typeInfo &&& mctTypeInfoScod := hcoded.2.resolve_left hbin
    obtain ⟨p', hp', hprints⟩ := @printHex_coded typeInfo p hp htype.tyle (by omega)
    rw [if_neg fun h => hbin h.2, if_pos ⟨hcoded.1, hhex⟩]
    exact ⟨p', hp', .inr ⟨fun h => hbin h.1.2, hprints⟩⟩

end Printing

section Text

variable {settings : PrintSettings} {msg : PayloadMessage} {arg : IntegerArgument}
  {reader : PayloadReader} {text : List Char} {textlength : Nat} {byteLength : Int}
  {rest : List UInt8}

/-- A coded number is never printed as name, decimal value and unit; it can only find them in the
buffer. -/
theorem printsArgument_coded_iff (harg : arg.Valid) (hcoded : Coded arg.typeInfo)
    (hdata : ((argumentBytes msg arg).length : Int) ≤ reader.datalength)
    (htext : textlength ≤ text.length) (hroom : 22 ≤ textlength)
    (hlength : textlength < 18446744073709551616) :
    PrintsArgument settings msg arg reader text textlength byteLength ↔
      LeavesText arg.typeInfo ∧ stringAt text 0 = argumentText arg := by
  rw [argumentBytes_length msg arg harg.name harg.unit] at hdata
  obtain ⟨p, hp, hprinted⟩ := @printArgument_coded arg.typeInfo
    ⟨reader, text, 0, textlength, ([], 0)⟩ settings msg byteLength harg.typeInfo hcoded
    ⟨rfl, htext, hroom, hlength⟩ (by dsimp only; omega)
  have hleft : 0 ≤ p.reader.datalength ∧ p.unit = ([], 0) := by
    rcases hprinted with ⟨-, rfl⟩ | ⟨-, hprints⟩
    · exact ⟨by dsimp only; omega, rfl⟩
    · exact ⟨hprints.left, hprints.unit⟩
  have hcall : mctMessageArgumentPrint settings msg arg.typeInfo reader text textlength
      byteLength = (.ok, p) := by
    rw [mctMessageArgumentPrint, hp]
    dsimp only
    rw [if_neg (by omega), printUnit, if_neg]
    rw [hleft.2]
    exact fun h => absurd h.2 (by decide)
  rw [PrintsArgument, hcall]
  rcases hprinted with ⟨hleaves, rfl⟩ | ⟨hnot, hprints⟩
  · exact ⟨fun h => ⟨hleaves, h.2⟩, fun h => ⟨rfl, h.2⟩⟩
  · exact ⟨fun h => absurd h.2 (hprints.text.ne_argumentText arg), fun h => absurd h.1 hnot⟩

/-- Name, value and unit are printed if and only if the number is in decimal digits and has no
name, or a width and a sign that are printed behind it; or it is one of which nothing is printed,
and they stand in the buffer. -/
theorem printsArgument_iff (harg : arg.Valid) (hattributes : settings.attributes)
    (hptr : reader.ptr = argumentBytes msg arg ++ rest)
    (hdata : ((argumentBytes msg arg).length : Int) ≤ reader.datalength)
    (htext : textlength ≤ text.length) (hlong : (argumentText arg).length < textlength)
    (hroom : Coded arg.typeInfo → 22 ≤ textlength)
    (hlength : textlength < 18446744073709551616) :
    PrintsArgument settings msg arg reader text textlength byteLength ↔
      ¬ Coded arg.typeInfo ∧ (nameText arg.name = [] ∨ PrintsBehindName arg.typeInfo) ∨
        LeavesText arg.typeInfo ∧ stringAt text 0 = argumentText arg := by
  by_cases hcoded : Coded arg.typeInfo
  · rw [printsArgument_coded_iff harg hcoded hdata htext (hroom hcoded) hlength]
    exact ⟨.inr, fun h => h.resolve_left fun h => h.1 hcoded⟩
  · rw [printsArgument_decimal_iff harg hcoded hattributes hptr hdata htext hlong hlength]
    refine ⟨fun h => .inl ⟨hcoded, h⟩, ?_⟩
    rintro (h | h)
    · exact h.2
    · exact absurd ⟨h.1.1.1, .inl h.1.1.2⟩ hcoded

end Text

section Sample

def withAttributes : PrintSettings := ⟨true, fun _ _ => []⟩

def verboseMessage : PayloadMessage := ⟨0x21, 0x41, []⟩

/-- An unsigned number `speed` in `km`. -/
def speedArgument (tyle : UInt32) : IntegerArgument where
  typeInfo := mctTypeInfoUint ||| mctTypeInfoVari ||| tyle
  name := some [115, 112, 101, 101, 100]
  unit := some [107, 109]
  fixedPoint := []
  value := 7

theorem speedArgument_valid {tyle : UInt32} (htyle : tyle = mctTyle8bit ∨ tyle = mctTyle16bit) :
    (speedArgument tyle).Valid := by
  have hattribute : ∀ text : List UInt8, 0 ∉ text ∧ text.length < 65535 →
      ValidAttribute (some text) := by
    intro text htext bytes hbytes
    cases hbytes
    exact htext
  rcases htyle with rfl | rfl
  · exact ⟨⟨by decide, by decide, by decide, by decide, by decide⟩, hattribute _ (by decide),
      hattribute _ (by decide), by decide, by unfold FitsWidth; decide⟩
  · exact ⟨⟨by decide, by decide, by decide, by decide, by decide⟩, hattribute _ (by decide),
      hattribute _ (by decide), by decide, by unfold FitsWidth; decide⟩

/-- The number of 8 bits is printed with its attributes. -/
theorem speedArgument_printed :
    PrintsArgument withAttributes verboseMessage (speedArgument mctTyle8bit)
        ⟨argumentBytes verboseMessage (speedArgument mctTyle8bit) ++ [], 14⟩
        (List.replicate 32 ' ') 32 (-1) :=
  (printsArgument_iff (speedArgument_valid (.inl rfl)) rfl rfl (by decide) (by decide) (by decide)
    (by decide) (by decide)).mpr (.inl (by decide))

/-- The text is `7`, not `speed:7:km`. -/
theorem speedArgument_not_printed :
    (speedArgument mctTyle16bit).Valid ∧
      stringAt (mctMessageArgumentPrint withAttributes verboseMessage
        (speedArgument mctTyle16bit).typeInfo
        ⟨argumentBytes verboseMessage (speedArgument mctTyle16bit), 15⟩ (List.replicate 32 ' ') 32
        (-1)).2.text 0 = ['7'] ∧
      ¬ PrintsArgument withAttributes verboseMessage (speedArgument mctTyle16bit)
        ⟨argumentBytes verboseMessage (speedArgument mctTyle16bit), 15⟩ (List.replicate 32 ' ') 32
        (-1) := by
  have hprinted : stringAt (mctMessageArgumentPrint withAttributes verboseMessage
      (speedArgument mctTyle16bit).typeInfo
      ⟨argumentBytes verboseMessage (speedArgument mctTyle16bit), 15⟩ (List.replicate 32 ' ') 32
      (-1)).2.text 0 = ['7'] := by decide +kernel
  refine ⟨speedArgument_valid (.inr rfl), hprinted, fun h => ?_⟩
  have hexpected : argumentText (speedArgument mctTyle16bit) =
      ['s', 'p', 'e', 'e', 'd', ':', '7', ':', 'k', 'm'] := by decide
  rw [PrintsArgument, hprinted, hexpected] at h
  exact absurd h.2 (by decide)

end Sample

end MctDaemon.Shared
