import MctDaemon.Shared.CodedArgument

/-!
What an argument in verbose mode is shown as. Each argument is read from its own bytes, whatever
follows them, and its text is printed behind its name. Numbers of 32 and 64 bits in binary digits
are not read at all, and those that are printed over their name lose it.
-/

namespace MctDaemon.Shared

open Lib User

namespace Printing

/-- A call that has printed `front`, has `payload` left to read and room for more text. -/
structure Ready (p : Printing) (front : List Char) (payload : List UInt8) (room : Nat) : Prop where
  string : stringAt p.text 0 = front
  place : p.valueText = front.length
  reader : p.reader = ⟨payload, payload.length⟩
  fits : room ≤ p.textlength
  small : p.textlength < 2147483648
  memory : front.length + room ≤ p.text.length

/-- A call that has printed a value behind `front`. -/
structure Shown (p : Printing) (front value : List Char) (payload : List UInt8) (room : Nat) :
    Prop where
  behind : stringAt p.text p.valueText = value
  string : stringAt p.text 0 = front ++ value
  place : p.valueText = front.length
  reader : p.reader = ⟨payload, payload.length⟩
  fits : value.length + room ≤ p.textlength
  small : p.textlength < 2147483648
  memory : front.length + value.length + room ≤ p.text.length

/-- The call with the rest of the payload behind what it read. -/
def leaves (p : Printing) (rest : List UInt8) : Printing :=
  { p with reader := ⟨rest, rest.length⟩ }

variable (p : Printing) (rest : List UInt8)

@[simp] theorem leaves_text : (p.leaves rest).text = p.text := rfl

@[simp] theorem leaves_reader : (p.leaves rest).reader = ⟨rest, rest.length⟩ := rfl

@[simp] theorem leaves_unit : (p.leaves rest).unit = p.unit := rfl

end Printing

section Reading

variable {settings : PrintSettings} {msg : PayloadMessage} {p : Printing} {front : List Char}
  {bytes rest : List UInt8} {room size : Nat} {name unit : Option (List UInt8)}

theorem Printing.Ready.leaves {payload : List UInt8} (h : p.Ready front payload room)
    (rest : List UInt8) : (p.leaves rest).Ready front rest room where
  string := h.string
  place := h.place
  reader := rfl
  fits := h.fits
  small := h.small
  memory := h.memory

theorem Printing.Ready.weaken {payload : List UInt8} (h : p.Ready front payload room) {room' : Nat}
    (hroom : room' ≤ room) : p.Ready front payload room' where
  string := h.string
  place := h.place
  reader := h.reader
  fits := hroom.trans h.fits
  small := h.small
  memory := (Nat.add_le_add_left hroom _).trans h.memory

theorem read_ready (h : p.Ready front (bytes ++ rest) room) (hsize : bytes.length = size)
    (next : List UInt8 → Printing → MctReturnValue × Printing) :
    p.read size next = next bytes (p.leaves rest) := by
  have hlength : (p.reader.datalength - size : Int) = rest.length := by
    rw [h.reader, ← hsize]
    simp
  have hread := @read_append p bytes rest size (by rw [h.reader]) hsize
    (by rw [h.reader, ← hsize]; simp) next
  rw [hread, hlength]
  rfl

theorem readNumber_ready {n : Nat} (h : p.Ready front (leBytes size n ++ rest) room)
    (hmsb : msg.isMsbf = false) (hn : n < 256 ^ size)
    (next : Nat → Printing → MctReturnValue × Printing) :
    p.readNumber msg size next = next n (p.leaves rest) := by
  rw [Printing.readNumber, read_ready h (leBytes_length size n), endianGet, if_neg (by simp [hmsb]),
    leNat_leBytes size n hn]

theorem skip_ready (h : p.Ready front (bytes ++ rest) room) (hsize : bytes.length = size) :
    p.skip size = p.leaves rest := by
  have hlength : (p.reader.datalength - size : Int) = rest.length := by
    rw [h.reader, ← hsize]
    simp
  rw [skip_append (by rw [h.reader]) hsize, hlength]
  rfl

end Reading

section Names

variable {settings : PrintSettings} {msg : PayloadMessage} {p : Printing} {rest : List UInt8}
  {room removed : Nat} {name unit : Option (List UInt8)} {typeInfo : UInt32}

def shownName (settings : PrintSettings) (name : Option (List UInt8)) : List Char :=
  if settings.attributes then nameText name else []

def shownUnit (settings : PrintSettings) (unit : Option (List UInt8)) : List Char :=
  if settings.attributes then unitText unit else []

theorem shownName_none : shownName settings none = [] := by
  rw [shownName]
  exact ite_self []

/-- The name is printed at the start of the text. A boolean takes one byte less from the length
of the text than its name has. -/
theorem printName_ready (hname : ValidAttribute name) (hroom : 0 < room)
    (h : p.Ready [] (attributeBytes name ++ rest) ((shownName settings name).length + room))
    (hremoved : removed ≤ attributeSize name) :
    ∃ p' : Printing, (p.printName settings (attributeSize name) removed).skip (attributeSize name) =
        p' ∧ p'.Ready (shownName settings name) rest room ∧ p'.unit = p.unit ∧
      p'.text.length = p.text.length := by
  obtain ⟨hsize, hbytes⟩ := attributeSize_of_valid hname
  have htext := nameText_length hname
  have hfits := h.fits
  have hsmall := h.small
  have hmemory := h.memory
  rw [List.length_nil, Nat.zero_add] at hmemory
  have hskip : ∀ p' : Printing, p'.reader = p.reader →
      p'.skip (attributeSize name) = p'.leaves rest := by
    intro p' hreader
    have hlength : (p'.reader.datalength - attributeSize name : Int) = rest.length := by
      rw [hreader, h.reader, hsize]
      simp
    rw [skip_append (by rw [hreader, h.reader]) hsize.symm, hlength]
    rfl
  by_cases hnamed : settings.attributes ∧ attributeSize name > 1
  · rw [if_pos hnamed.2] at htext
    have hshown : shownName settings name = nameText name := if_pos hnamed.1
    rw [hshown, htext] at hfits hmemory
    have hstring : cString (payloadText p.reader.ptr) ++ [':'] = nameText name := by
      cases name with
      | none => exact absurd hnamed.2 (by decide)
      | some text =>
          have hne : text ≠ [] := by
            rintro rfl
            exact absurd hnamed.2 (by decide)
          rw [h.reader, hbytes, Option.elim_some, cString_attribute (hname text rfl).1]
          exact (if_neg hne).symm
    obtain ⟨-, hprinted, hcopied⟩ := @snprintf_goes_on p.text [] (nameText name) p.textlength
      h.string (not_mem_nameText hname) (by omega) (by rw [List.length_nil]; omega)
    have hlength : sizeSub p.textlength removed = p.textlength - removed :=
      sizeSub_of_le (by omega) (by omega)
    rw [Printing.printName, if_pos hnamed, hstring, hlength]
    refine ⟨_, hskip _ rfl, ⟨?_, ?_, rfl, ?_, ?_, ?_⟩, rfl, hcopied⟩
    · rw [hshown]
      exact hprinted
    · rw [hshown, htext]
      change p.valueText + attributeSize name = _
      rw [h.place, List.length_nil, Nat.zero_add]
    · change room ≤ p.textlength - removed
      omega
    · change p.textlength - removed < _
      omega
    · rw [hshown, htext]
      change attributeSize name + room ≤ (snprintf p.text 0 p.textlength (nameText name)).length
      rw [List.length_nil] at hcopied
      omega
  · have hshown : shownName settings name = [] := by
      rw [shownName]
      split
      · next hattributes =>
          rw [if_neg fun hone => hnamed ⟨hattributes, hone⟩] at htext
          exact List.length_eq_zero_iff.mp htext
      · rfl
    rw [hshown, List.length_nil, Nat.zero_add] at h
    rw [Printing.printName, if_neg hnamed, hshown]
    exact ⟨_, hskip p rfl, h.leaves rest, rfl, rfl⟩

/-- The name of an argument that is written with variable info: its size and its text. -/
def nameField (name : Option (Option (List UInt8))) : List UInt8 :=
  name.elim [] fun name => leBytes 2 (attributeSize name) ++ attributeBytes name

/-- Name and unit of a number: their sizes, then their texts. -/
def nameUnitField (attributes : Option (Option (List UInt8) × Option (List UInt8))) : List UInt8 :=
  attributes.elim [] fun (name, unit) =>
    leBytes 2 (attributeSize name) ++ (leBytes 2 (attributeSize unit) ++
      (attributeBytes name ++ attributeBytes unit))

def Printing.HasUnit (p : Printing) (unit : Option (List UInt8)) : Prop :=
  p.unit.2 = attributeSize unit ∧
    (attributeSize unit > 1 → ∃ back, p.unit.1 = attributeBytes unit ++ back)

theorem readName_ready {name : Option (Option (List UInt8))} {removed : Nat → Nat}
    (hvari : hasFlag typeInfo mctTypeInfoVari = name.isSome) (hmsb : msg.isMsbf = false)
    (hname : ValidAttribute name.join) (hroom : 0 < room) (hremoved : ∀ n, removed n ≤ n)
    (h : p.Ready [] (nameField name ++ rest) ((shownName settings name.join).length + room)) :
    ∃ p' : Printing, (∀ next, p.readName settings msg typeInfo removed next = next p') ∧
      p'.Ready (shownName settings name.join) rest room ∧ p'.unit = p.unit ∧
        p'.text.length = p.text.length := by
  simp only [Printing.readName]
  cases name with
  | none =>
      rw [Option.join_none, shownName_none, List.length_nil, Nat.zero_add] at h
      rw [Option.join_none, shownName_none]
      refine ⟨p, fun next => ?_, h, rfl, rfl⟩
      rw [hvari, Option.isSome_none, if_neg Bool.false_ne_true]
  | some name =>
      rw [Option.join_some] at hname h ⊢
      obtain ⟨hsize, -⟩ := attributeSize_of_valid hname
      rw [nameField, Option.elim_some, List.append_assoc] at h
      obtain ⟨p', hp', hready, hunit, hlength⟩ :=
        printName_ready hname hroom (h.leaves (attributeBytes name ++ rest)) (hremoved _)
      refine ⟨p', fun next => ?_, hready, hunit, hlength⟩
      rw [hvari, Option.isSome_some, if_pos rfl, readNumber_ready h hmsb (attributeSize_lt hname),
        if_neg, hp']
      · change ¬ ((attributeBytes name ++ rest).length : Int) < attributeSize name
        rw [List.length_append, hsize]
        omega

theorem readNameUnit_ready
    {attributes : Option (Option (List UInt8) × Option (List UInt8))}
    (hvari : hasFlag typeInfo mctTypeInfoVari = attributes.isSome) (hmsb : msg.isMsbf = false)
    (hname : ValidAttribute (attributes.bind Prod.fst))
    (hunit : ValidAttribute (attributes.bind Prod.snd)) (hroom : 0 < room)
    (hnone : p.unit = ([], 0))
    (h : p.Ready [] (nameUnitField attributes ++ rest)
      ((shownName settings (attributes.bind Prod.fst)).length + room)) :
    ∃ p' : Printing, (∀ next, p.readNameUnit settings msg typeInfo next = next p') ∧
      p'.Ready (shownName settings (attributes.bind Prod.fst)) rest room ∧
        p'.HasUnit (attributes.bind Prod.snd) ∧ p'.text.length = p.text.length := by
  simp only [Printing.readNameUnit]
  cases attributes with
  | none =>
      rw [Option.bind_none, shownName_none, List.length_nil, Nat.zero_add] at h
      rw [Option.bind_none, shownName_none]
      refine ⟨p, fun next => ?_, h, ⟨by rw [hnone]; rfl, fun hone => absurd hone (by decide)⟩, rfl⟩
      rw [hvari, Option.isSome_none, if_neg Bool.false_ne_true]
  | some attributes =>
      obtain ⟨name, unit⟩ := attributes
      obtain ⟨hsize, -⟩ := attributeSize_of_valid hname
      obtain ⟨hunitSize, -⟩ := attributeSize_of_valid hunit
      simp only [Option.bind_some] at hname hunit hsize hunitSize h ⊢
      simp only [nameUnitField, Option.elim_some, List.append_assoc] at h
      have hfirst := h.leaves (leBytes 2 (attributeSize unit) ++ (attributeBytes name ++
        (attributeBytes unit ++ rest)))
      obtain ⟨p', hp', hready, -, hlength⟩ :=
        printName_ready hname hroom (hfirst.leaves (attributeBytes name ++ (attributeBytes unit ++
          rest))) (Nat.le_refl _)
      have hbehind := hready.leaves rest
      have hunitRead : ¬ ((attributeBytes unit ++ rest).length : Int) < attributeSize unit := by
        rw [List.length_append, hunitSize]
        omega
      have hnameRead : ¬ ((attributeBytes name ++ (attributeBytes unit ++ rest)).length : Int) <
          attributeSize name := by
        rw [List.length_append, hsize]
        omega
      refine ⟨{ p'.leaves rest with unit := (p'.reader.ptr, attributeSize unit) }, fun next => ?_,
        ⟨hbehind.string, hbehind.place, rfl, hbehind.fits, hbehind.small, hbehind.memory⟩,
        ⟨rfl, fun _ => ⟨rest, by rw [hready.reader]⟩⟩, hlength⟩
      rw [hvari, Option.isSome_some, if_pos rfl, readNumber_ready h hmsb (attributeSize_lt hname),
        readNumber_ready hfirst hmsb (attributeSize_lt hunit), Printing.leaves_reader,
        if_neg hnameRead, hp', Printing.skipChecked,
        if_neg (by rw [hready.reader]; exact hunitRead), skip_ready hready hunitSize.symm]

end Names

section Values

variable {settings : PrintSettings} {p : Printing} {front value : List Char} {rest : List UInt8}
  {room : Nat} {unit : Option (List UInt8)}

/-- A value that is printed behind the name. -/
theorem print_shown (h : p.Ready front rest (value.length + (room + 1))) (hvalue : '\x00' ∉ value) :
    (p.print value).Shown front value rest (room + 1) ∧
      (p.print value).text.length = p.text.length := by
  have hfits := h.fits
  have hmemory := h.memory
  obtain ⟨hbehind, hstring, hlength⟩ := @snprintf_goes_on p.text front value p.textlength h.string
    hvalue (by omega) (by omega)
  rw [Printing.print, h.place]
  refine ⟨⟨?_, hstring, rfl, h.reader, h.fits, h.small, ?_⟩, hlength⟩
  · exact hbehind
  · change front.length + value.length + (room + 1) ≤
      (snprintf p.text front.length p.textlength value).length
    omega

/-- The unit is printed behind the value. -/
theorem printUnit_shown (h : p.Shown front value rest ((shownUnit settings unit).length + 1))
    (hunit : p.HasUnit unit) (hvalid : ValidAttribute unit) :
    stringAt (printUnit settings p).text 0 = front ++ (value ++ shownUnit settings unit) ∧
      (printUnit settings p).reader = ⟨rest, rest.length⟩ ∧
        (printUnit settings p).text.length = p.text.length := by
  have hfits := h.fits
  have hmemory := h.memory
  have hsmall := h.small
  obtain ⟨hsize, hback⟩ := hunit
  rw [printUnit]
  by_cases hshown : settings.attributes ∧ p.unit.2 > 1
  · rw [hsize] at hshown
    obtain ⟨back, hback⟩ := hback hshown.2
    obtain ⟨-, htext⟩ := (unitText_eq hvalid back).1 hshown.2
    have hunitText : shownUnit settings unit = unitText unit := if_pos hshown.1
    rw [hunitText] at hfits hmemory
    have hsub : sizeSub p.textlength value.length = p.textlength - value.length :=
      sizeSub_of_le (by omega) (by omega)
    obtain ⟨-, hstring, hlength⟩ := @snprintf_goes_on p.text (front ++ value) (unitText unit)
      (p.textlength - value.length) h.string (not_mem_unitText hvalid) (by omega)
      (by rw [List.length_append]; omega)
    rw [List.length_append] at hstring hlength
    rw [if_pos ⟨hshown.1, hsize.symm ▸ hshown.2⟩, h.behind, hback, htext, hunitText, h.place]
    dsimp only
    rw [hsub]
    refine ⟨?_, h.reader, hlength⟩
    rw [← List.append_assoc]
    exact hstring
  · have hnone : shownUnit settings unit = [] := by
      rw [shownUnit]
      split
      · next hattributes =>
          apply (unitText_eq hvalid []).2
          rw [← hsize]
          exact fun hone => hshown ⟨hattributes, hone⟩
      · rfl
    rw [if_neg hshown, hnone, List.append_nil]
    exact ⟨h.string, h.reader, rfl⟩

end Values

end MctDaemon.Shared

namespace MctDaemon.User

open Lib

namespace Unsigned

def width : Unsigned → Nat
  | uint8 _ => 1
  | uint16 _ => 2
  | uint32 _ => 4
  | uint64 _ => 8

def toNat : Unsigned → Nat
  | uint8 data => data.toNat
  | uint16 data => data.toNat
  | uint32 data => data.toNat
  | uint64 data => data.toNat

variable (data : Unsigned)

theorem bytes_eq : data.bytes = leBytes data.width data.toNat := by
  cases data with
  | uint8 data => rfl
  | uint16 data => rfl
  | uint32 data => rfl
  | uint64 data => rfl

theorem toNat_lt : data.toNat < 256 ^ data.width := by
  cases data with
  | uint8 data => exact data.toNat_lt
  | uint16 data => exact data.toNat_lt
  | uint32 data => exact data.toNat_lt
  | uint64 data => exact data.toNat_lt

theorem bytes_length : data.bytes.length = data.width := by
  rw [bytes_eq, leBytes_length]

theorem leNat_bytes : leNat data.bytes = data.toNat := by
  rw [bytes_eq, leNat_leBytes _ _ data.toNat_lt]

end Unsigned

end MctDaemon.User

namespace MctDaemon.Shared

open Lib User

section Arguments

abbrev NumberAttributes := Option (Option (List UInt8) × Option (List UInt8))

/-- An argument in verbose mode, as the library writes it. An argument without variable info has no
field for its name. -/
inductive Argument where
  | number (data : Number) (attributes : NumberAttributes)
  | formatted (data : Unsigned) (type : UInt32)
  | bool (data : UInt8) (name : Option (Option (List UInt8)))
  | raw (data : List UInt8) (type : UInt32) (name : Option (Option (List UInt8)))
  | string (type : StringType) (text : List UInt8) (name : Option (Option (List UInt8)))

namespace Argument

def name : Argument → Option (List UInt8)
  | number _ attributes => attributes.bind Prod.fst
  | formatted _ _ => none
  | bool _ name => name.join
  | raw _ _ name => name.join
  | string _ _ name => name.join

def unit : Argument → Option (List UInt8)
  | number _ attributes => attributes.bind Prod.snd
  | _ => none

def typeInfo : Argument → UInt32
  | number data attributes =>
      if attributes.isSome then data.typeInfo ||| mctTypeInfoVari else data.typeInfo
  | formatted data type => formattedTypeInfo (mctTypeInfoUint ||| data.tyle) type
  | bool _ name =>
      if name.isSome then mctTypeInfoBool ||| mctTyle8bit ||| mctTypeInfoVari
      else mctTypeInfoBool ||| mctTyle8bit
  | raw _ type name => rawTypeInfo type name.isSome
  | string type _ name => stringTypeInfo type name.isSome

/-- The argument behind its type information. -/
def body : Argument → List UInt8
  | number data attributes => nameUnitField attributes ++ data.bytes
  | formatted data _ => data.bytes
  | bool data name => nameField name ++ [data]
  | raw data _ name => leBytes 2 data.length ++ (nameField name ++ data)
  | string _ text name => leBytes 2 text.length ++ (nameField name ++ text)

def bytes (a : Argument) : List UInt8 := leBytes 4 a.typeInfo.toNat ++ a.body

def integerText (typeInfo : UInt32) (data : Unsigned) : List Char :=
  printInt (integerValue typeInfo data.width data.toNat)

/-- An unsigned number in the digits of its format. -/
def formattedText (typeInfo : UInt32) (data : Unsigned) : List Char :=
  let scod := typeInfo &&& mctTypeInfoScod
  if mctScodBin = scod then '0' :: 'b' ::
    binaryText (8 * data.width) (if data.width = 1 then [3] else [3, 7, 11]) data.toNat
  else if mctScodHex = scod then '0' :: 'x' :: hexPadded (2 * data.width) data.toNat
  else integerText typeInfo data

/-- The value as it is shown. A string ends at its first zero, and line breaks in it are shown as
blanks. -/
def valueText (settings : PrintSettings) : Argument → List Char
  | number (.unsigned data) attributes =>
      integerText (number (.unsigned data) attributes).typeInfo data
  | number (.signed data) attributes =>
      integerText (number (.signed data) attributes).typeInfo data
  | number (.float32 data) _ => settings.printFloat 4 data.toNat
  | number (.float64 data) _ => settings.printFloat 8 data.toNat
  | formatted data type => formattedText (formatted data type).typeInfo data
  | bool data _ => Nat.toDigits 10 data.toNat
  | raw data _ _ => hexText '\'' data
  | string _ text _ =>
      cString ((payloadText text).map fun c => if c = '\r' ∨ c = '\n' then ' ' else c)

/-- The room that printing the value takes at most. -/
def valueRoom (settings : PrintSettings) : Argument → Nat
  | raw data _ _ => 3 * data.length
  | string _ text _ => text.length
  | a => (a.valueText settings).length

def text (settings : PrintSettings) (a : Argument) : List Char :=
  shownName settings a.name ++ (a.valueText settings ++ shownUnit settings a.unit)

def room (settings : PrintSettings) (a : Argument) : Nat :=
  (shownName settings a.name).length +
    (a.valueRoom settings + ((shownUnit settings a.unit).length + 1))

/-- The value is not printed over the name. -/
def PrintedBehind (settings : PrintSettings) : Argument → Prop
  | number (.float32 _) _ => True
  | number (.float64 _) _ => True
  | number data attributes =>
      shownName settings (attributes.bind Prod.fst) = [] ∨
        PrintsBehindName (number data attributes).typeInfo
  | _ => True

/-- The value has the length that its field says, and binary digits are asked for 8 or 16 bits
only. -/
def Sized : Argument → Prop
  | number _ _ => True
  | formatted data type =>
      type < mctFormatMax ∧ (mctFormatBin8 ≤ type → data.width ≤ 2)
  | bool _ _ => True
  | raw data type _ => type < mctFormatMax ∧ data.length < 65536
  | string _ text _ => text ≠ [] ∧ text.length < 65536

/-- The arguments that are shown as they were logged. -/
structure Readable (settings : PrintSettings) (a : Argument) : Prop where
  name : ValidAttribute a.name
  unit : ValidAttribute a.unit
  sized : a.Sized
  behind : a.PrintedBehind settings

end Argument

end Arguments

section Integers

variable {msg : PayloadMessage} {typeInfo : UInt32} {p : Printing} {front : List Char}
  {rest : List UInt8} {room : Nat} {data : Unsigned}

theorem Printing.Ready.printAtText {payload : List UInt8} (h : p.Ready [] payload room)
    (value : List Char) : p.printAtText value = p.print value := by
  rw [Printing.printAtText, Printing.print, h.place]
  rfl

/-- An integer is printed behind its name, unless it is of those that are printed at the start of
the text. -/
theorem printIntegerValue_ready (htyle : typeInfo &&& mctTypeInfoTyle = data.tyle)
    (hmsb : msg.isMsbf = false) (h : p.Ready front (data.bytes ++ rest) room)
    (hplace : front = [] ∨ PrintsBehindName typeInfo) :
    printIntegerValue msg typeInfo p =
      (.ok, (p.leaves rest).print (Argument.integerText typeInfo data)) := by
  have hdifferent : mctTyle16bit ≠ mctTyle8bit ∧ mctTyle32bit ≠ mctTyle8bit ∧
      mctTyle32bit ≠ mctTyle16bit ∧ mctTyle64bit ≠ mctTyle8bit ∧ mctTyle64bit ≠ mctTyle16bit ∧
        mctTyle64bit ≠ mctTyle32bit := by decide
  obtain ⟨h21, h31, h32, h41, h42, h43⟩ := hdifferent
  have hstart : ¬ PrintsBehindName typeInfo → ∀ value : List Char,
      (p.leaves rest).printAtText value = (p.leaves rest).print value := by
    intro hover value
    cases hplace.resolve_right hover
    exact (h.leaves rest).printAtText value
  rw [Unsigned.bytes_eq] at h
  rw [printIntegerValue, Argument.integerText]
  dsimp only
  cases data with
  | uint8 data =>
      have htyle : typeInfo &&& mctTypeInfoTyle = mctTyle8bit := htyle
      have h : p.Ready front (leBytes 1 data.toNat ++ rest) room := h
      rw [if_pos htyle, read_ready h (leBytes_length _ _), leNat_leBytes _ _ data.toNat_lt]
      rfl
  | uint16 data =>
      have htyle : typeInfo &&& mctTypeInfoTyle = mctTyle16bit := htyle
      have h : p.Ready front (leBytes 2 data.toNat ++ rest) room := h
      have hover : ¬ PrintsBehindName typeInfo := by
        rw [PrintsBehindName, htyle]
        rintro (h | h | h)
        · exact h21 h
        · exact h42 h.symm
        · exact h32 h.1.symm
      rw [if_neg (htyle ▸ h21), if_pos htyle, readNumber_ready h hmsb data.toNat_lt, hstart hover]
      rfl
  | uint32 data =>
      have htyle : typeInfo &&& mctTypeInfoTyle = mctTyle32bit := htyle
      have h : p.Ready front (leBytes 4 data.toNat ++ rest) room := h
      rw [if_neg (htyle ▸ h31), if_neg (htyle ▸ h32), if_pos htyle,
        readNumber_ready h hmsb data.toNat_lt]
      by_cases hsigned : hasFlag typeInfo mctTypeInfoSint
      · have hover : ¬ PrintsBehindName typeInfo := by
          rw [PrintsBehindName, htyle]
          rintro (h | h | h)
          · exact h31 h
          · exact h43 h.symm
          · exact h.2 hsigned
        rw [if_pos hsigned, hstart hover]
        rfl
      · rw [if_neg hsigned]
        rfl
  | uint64 data =>
      have htyle : typeInfo &&& mctTypeInfoTyle = mctTyle64bit := htyle
      have h : p.Ready front (leBytes 8 data.toNat ++ rest) room := h
      rw [if_neg (htyle ▸ h41), if_neg (htyle ▸ h42), if_neg (htyle ▸ h43), if_pos htyle,
        readNumber_ready h hmsb data.toNat_lt]
      rfl

end Integers

section Formats

/-- The last digit stands behind the others. -/
theorem hexPadded_succ {width n : Nat} (hwidth : 0 < width) :
    hexPadded (width + 1) n = hexPadded width (n / 16) ++ [(n % 16).digitChar] := by
  rw [hexPadded, hexPadded]
  rcases Nat.lt_or_ge n 16 with hn | hn
  · rw [Nat.toDigits_of_lt_base hn, Nat.div_eq_of_lt hn, Nat.toDigits_zero, Nat.mod_eq_of_lt hn]
    obtain ⟨width, rfl⟩ := Nat.exists_eq_succ_of_ne_zero hwidth.ne'
    simp only [List.length_singleton, Nat.succ_eq_add_one, Nat.add_sub_cancel]
    rw [List.replicate_succ']
  · rw [Nat.toDigits_of_base_le (by decide) hn, List.length_append, List.length_singleton,
      Nat.add_sub_add_right, List.append_assoc]

/-- A number in hexadecimal digits is its upper part and its lower part. -/
theorem hexPadded_append {width more n : Nat} (hwidth : 0 < width) :
    hexPadded (width + (more + 1)) n =
      hexPadded width (n / 16 ^ (more + 1)) ++ hexPadded (more + 1) (n % 16 ^ (more + 1)) := by
  induction more generalizing n with
  | zero =>
      have hdigit : hexPadded 1 (n % 16) = [(n % 16).digitChar] := by
        rw [hexPadded, Nat.toDigits_of_lt_base (Nat.mod_lt n (by decide))]
        rfl
      rw [Nat.zero_add, Nat.pow_one, hexPadded_succ hwidth, hdigit]
  | succ more ih =>
      have hupper : n / 16 / 16 ^ (more + 1) = n / 16 ^ (more + 1 + 1) := by
        rw [Nat.div_div_eq_div_mul, Nat.pow_succ 16 (more + 1), Nat.mul_comm]
      have hlower : n / 16 % 16 ^ (more + 1) = n % 16 ^ (more + 1 + 1) / 16 := by
        rw [Nat.pow_succ 16 (more + 1), Nat.mul_comm, Nat.mod_mul_right_div_self]
      have hlast : n % 16 ^ (more + 1 + 1) % 16 = n % 16 := by
        rw [Nat.pow_succ 16 (more + 1), Nat.mul_comm, Nat.mod_mul_right_mod]
      rw [← Nat.add_assoc, hexPadded_succ (by omega), ih, hupper, hlower,
        hexPadded_succ (Nat.succ_pos more), hlast, List.append_assoc]

/-- The format of a number is one of seven. -/
theorem format_cases {type : UInt32} (h : type < mctFormatMax) :
    type = 0 ∨ type = 1 ∨ type = 2 ∨ type = 3 ∨ type = 4 ∨ type = 5 ∨ type = 6 := by
  have hnat : type.toNat < 7 := UInt32.lt_iff_toNat_lt.mp h
  have hcases : type.toNat = 0 ∨ type.toNat = 1 ∨ type.toNat = 2 ∨ type.toNat = 3 ∨
      type.toNat = 4 ∨ type.toNat = 5 ∨ type.toNat = 6 := by omega
  rcases hcases with h | h | h | h | h | h | h
  · exact .inl (UInt32.toNat_inj.mp h)
  · exact .inr (.inl (UInt32.toNat_inj.mp h))
  · exact .inr (.inr (.inl (UInt32.toNat_inj.mp h)))
  · exact .inr (.inr (.inr (.inl (UInt32.toNat_inj.mp h))))
  · exact .inr (.inr (.inr (.inr (.inl (UInt32.toNat_inj.mp h)))))
  · exact .inr (.inr (.inr (.inr (.inr (.inl (UInt32.toNat_inj.mp h))))))
  · exact .inr (.inr (.inr (.inr (.inr (.inr (UInt32.toNat_inj.mp h))))))

variable {typeInfo : UInt32} {p : Printing} {front : List Char} {rest : List UInt8} {room : Nat}
  {data : Unsigned}

/-- Numbers of 8 and 16 bits are printed in binary digits. -/
theorem printBin_ready (htyle : typeInfo &&& mctTypeInfoTyle = data.tyle) (hwidth : data.width ≤ 2)
    (h : p.Ready front (data.bytes ++ rest) room) :
    printBin typeInfo p = (.ok, (p.leaves rest).print ('0' :: 'b' ::
      binaryText (8 * data.width) (if data.width = 1 then [3] else [3, 7, 11]) data.toNat)) := by
  have hvalue := data.leNat_bytes
  rw [printBin]
  cases data with
  | uint8 data =>
      have htyle : typeInfo &&& mctTypeInfoTyle = mctTyle8bit := htyle
      rw [if_pos htyle, read_ready h (rfl : _ = 1), hvalue]
      rfl
  | uint16 data =>
      have htyle : typeInfo &&& mctTypeInfoTyle = mctTyle16bit := htyle
      rw [if_neg (by rw [htyle]; decide), if_pos htyle, read_ready h (rfl : _ = 2), hvalue]
      rfl
  | uint32 data => exact absurd hwidth (by decide : ¬ 4 ≤ 2)
  | uint64 data => exact absurd hwidth (by decide : ¬ 8 ≤ 2)

theorem hexPadded_ne_zero (width n : Nat) : '\x00' ∉ '0' :: 'x' :: hexPadded width n := by
  rw [List.mem_cons, List.mem_cons, not_or, not_or]
  exact ⟨by decide, by decide, not_mem_hexPadded digitChar_ne_zero width n⟩

/-- The halves of a number of 64 bits are printed one behind the other, the upper one first. -/
theorem printHex_long {n : Nat} (hn : n < 256 ^ 8)
    (htyle : typeInfo &&& mctTypeInfoTyle = mctTyle64bit)
    (h : p.Ready front (leBytes 8 n ++ rest) (('0' :: 'x' :: hexPadded 16 n).length + (room + 1))) :
    ∃ p' : Printing, printHex typeInfo p = (.ok, p') ∧
      p'.Shown front ('0' :: 'x' :: hexPadded 16 n) rest (room + 1) ∧ p'.unit = p.unit ∧
        p'.text.length = p.text.length := by
  have hsplit : leBytes 8 n = leBytes 4 (n % 256 ^ 4) ++ leBytes 4 (n / 256 ^ 4) :=
    leBytes_append 4 4 n
  have hdigits : hexPadded 16 n = hexPadded 8 (n / 256 ^ 4) ++ hexPadded 8 (n % 256 ^ 4) :=
    @hexPadded_append 8 7 n (by decide)
  have hupper : leNat (leBytes 4 (n / 256 ^ 4)) = n / 256 ^ 4 :=
    leNat_leBytes 4 _ (Nat.div_lt_of_lt_mul hn)
  have hlower : leNat (leBytes 4 (n % 256 ^ 4)) = n % 256 ^ 4 :=
    leNat_leBytes 4 _ (Nat.mod_lt n (by decide))
  have hfits := h.fits
  have hmemory := h.memory
  have hsmall := h.small
  have hreader := h.reader
  rw [hsplit, List.append_assoc] at hreader
  rw [hdigits] at hfits hmemory ⊢
  simp only [List.length_cons, List.length_append] at hfits hmemory
  obtain ⟨hfirst, hfirstString, hfirstLength⟩ := @snprintf_goes_on p.text front
    ('0' :: 'x' :: hexPadded 8 (n / 256 ^ 4)) p.textlength h.string (hexPadded_ne_zero 8 _)
    (by simp only [List.length_cons]; omega) (by simp only [List.length_cons]; omega)
  obtain ⟨hsecond, hsecondString, hsecondLength⟩ := @snprintf_goes_on
    (snprintf p.text front.length p.textlength ('0' :: 'x' :: hexPadded 8 (n / 256 ^ 4)))
    (front ++ '0' :: 'x' :: hexPadded 8 (n / 256 ^ 4)) (hexPadded 8 (n % 256 ^ 4))
    (p.textlength - ('0' :: 'x' :: hexPadded 8 (n / 256 ^ 4)).length) hfirstString
    (not_mem_hexPadded digitChar_ne_zero 8 _) (by simp only [List.length_cons]; omega)
    (by simp only [List.length_append, List.length_cons]; omega)
  have hstring : front ++ '0' :: 'x' :: hexPadded 8 (n / 256 ^ 4) ++ hexPadded 8 (n % 256 ^ 4) =
      front ++ '0' :: 'x' :: (hexPadded 8 (n / 256 ^ 4) ++ hexPadded 8 (n % 256 ^ 4)) := by
    rw [List.append_assoc]
    rfl
  rw [hstring] at hsecondString
  rw [List.length_append] at hsecondString hsecondLength
  have hsub : sizeSub p.textlength ('0' :: 'x' :: hexPadded 8 (n / 256 ^ 4)).length =
      p.textlength - ('0' :: 'x' :: hexPadded 8 (n / 256 ^ 4)).length :=
    sizeSub_of_le (by simp only [List.length_cons]; omega) (by omega)
  have hprinted := hsecondLength.trans hfirstLength
  have hroom : front.length + ('0' :: 'x' :: (hexPadded 8 (n / 256 ^ 4) ++
      hexPadded 8 (n % 256 ^ 4))).length + (room + 1) ≤ p.text.length := by
    simp only [List.length_cons, List.length_append]
    omega
  obtain ⟨⟨ptr, datalength⟩, text, valueText, textlength, unit⟩ := p
  cases hreader
  cases h.place
  have hlow : (leBytes 4 (n % 256 ^ 4) ++ (leBytes 4 (n / 256 ^ 4) ++ rest)).drop 4 =
      leBytes 4 (n / 256 ^ 4) ++ rest := List.drop_left' (leBytes_length 4 _)
  have hhigh : (leBytes 4 (n / 256 ^ 4) ++ rest).drop 4 = rest :=
    List.drop_left' (leBytes_length 4 _)
  have hlength : (leBytes 4 (n % 256 ^ 4) ++ (leBytes 4 (n / 256 ^ 4) ++ rest)).length =
      8 + rest.length := by
    simp only [List.length_append, leBytes_length]
    omega
  rw [printHex]
  dsimp only
  rw [htyle, if_neg (by decide), if_neg (by decide), if_neg (by decide), if_pos rfl, hlow, hlength,
    read_append rfl (leBytes_length 4 _) (by dsimp only; omega)]
  dsimp only [Printing.print]
  rw [read_append rfl (leBytes_length 4 _) (by dsimp only; omega)]
  dsimp only
  rw [hupper, hlower, hfirst, hsub, hhigh]
  refine ⟨_, rfl, ⟨stringAt_part hsecondString, hsecondString, rfl, ?_, ?_, hsmall, ?_⟩, rfl, ?_⟩
  · change (⟨rest, _⟩ : PayloadReader) = ⟨rest, _⟩
    congr 1
    omega
  · simp only [List.length_cons, List.length_append]
    omega
  · exact hroom.trans hprinted.ge
  · exact hprinted

/-- A number in hexadecimal digits. -/
theorem printHex_ready (htyle : typeInfo &&& mctTypeInfoTyle = data.tyle)
    (h : p.Ready front (data.bytes ++ rest)
      (('0' :: 'x' :: hexPadded (2 * data.width) data.toNat).length + (room + 1))) :
    ∃ p' : Printing, printHex typeInfo p = (.ok, p') ∧
      p'.Shown front ('0' :: 'x' :: hexPadded (2 * data.width) data.toNat) rest (room + 1) ∧
        p'.unit = p.unit ∧ p'.text.length = p.text.length := by
  have hvalue := data.leNat_bytes
  obtain ⟨hshown, hlength⟩ := print_shown (h.leaves rest) (hexPadded_ne_zero _ _)
  cases data with
  | uint8 data =>
      have htyle : typeInfo &&& mctTypeInfoTyle = mctTyle8bit := htyle
      rw [printHex]
      dsimp only
      rw [if_pos htyle, read_ready h (rfl : _ = 1), hvalue]
      exact ⟨_, rfl, hshown, rfl, hlength⟩
  | uint16 data =>
      have htyle : typeInfo &&& mctTypeInfoTyle = mctTyle16bit := htyle
      rw [printHex]
      dsimp only
      rw [if_neg (by rw [htyle]; decide), if_pos htyle, read_ready h (rfl : _ = 2), hvalue]
      exact ⟨_, rfl, hshown, rfl, hlength⟩
  | uint32 data =>
      have htyle : typeInfo &&& mctTypeInfoTyle = mctTyle32bit := htyle
      rw [printHex]
      dsimp only
      rw [if_neg (by rw [htyle]; decide), if_neg (by rw [htyle]; decide), if_pos htyle,
        read_ready h (rfl : _ = 4), hvalue]
      exact ⟨_, rfl, hshown, rfl, hlength⟩
  | uint64 data => exact printHex_long data.toNat_lt htyle h

end Formats

section Kinds

variable {settings : PrintSettings} {msg : PayloadMessage} {p : Printing} {typeInfo : UInt32}
  {rest : List UInt8} {room : Nat}

/-- A number in decimal digits, with its name and its unit. -/
theorem printInteger_ready {data : Unsigned} {attributes : NumberAttributes}
    (hstring : hasFlag typeInfo mctTypeInfoStrg = false)
    (hbool : hasFlag typeInfo mctTypeInfoBool = false) (hscod : typeInfo &&& mctTypeInfoScod = 0)
    (hsign : hasFlag typeInfo mctTypeInfoSint ∨ hasFlag typeInfo mctTypeInfoUint)
    (hvari : hasFlag typeInfo mctTypeInfoVari = attributes.isSome)
    (hfixp : hasFlag typeInfo mctTypeInfoFixp = false)
    (htyle : typeInfo &&& mctTypeInfoTyle = data.tyle) (hmsb : msg.isMsbf = false)
    (hname : ValidAttribute (attributes.bind Prod.fst))
    (hunit : ValidAttribute (attributes.bind Prod.snd)) (hnone : p.unit = ([], 0))
    (hplace : shownName settings (attributes.bind Prod.fst) = [] ∨ PrintsBehindName typeInfo)
    (h : p.Ready [] (nameUnitField attributes ++ data.bytes ++ rest)
      ((shownName settings (attributes.bind Prod.fst)).length +
        ((Argument.integerText typeInfo data).length + (room + 1)))) :
    ∃ p' : Printing, printArgument settings msg typeInfo p (-1) = (.ok, p') ∧
      p'.Shown (shownName settings (attributes.bind Prod.fst)) (Argument.integerText typeInfo data)
          rest (room + 1) ∧
        p'.HasUnit (attributes.bind Prod.snd) ∧ p'.text.length = p.text.length := by
  rw [List.append_assoc] at h
  rw [printArgument, hstring, hbool, hscod, if_neg (by simp), if_neg (by simp),
    if_neg (by simp [mctScodBin]), if_neg (by simp [mctScodHex]), if_pos hsign, printInteger]
  obtain ⟨p', hp', hready, hhas, hlength⟩ :=
    readNameUnit_ready hvari hmsb hname hunit (by omega) hnone h
  rw [hp', readFixedPoint, hfixp, if_neg Bool.false_ne_true,
    printIntegerValue_ready htyle hmsb hready hplace]
  obtain ⟨hshown, hprinted⟩ := print_shown (hready.leaves rest) (not_mem_printInt _)
  exact ⟨_, rfl, hshown, hhas, hprinted.trans hlength⟩

/-- A text that is copied behind the name, up to its first zero. -/
theorem copy_shown {front text : List Char} {payload : List UInt8}
    (h : p.Ready front payload (text.length + (room + 1))) :
    let p' := { p with text := copyInto p.text p.valueText (text ++ ['\x00']) }
    p'.Shown front (cString text) payload (room + 1) ∧ p'.text.length = p.text.length := by
  have hfits := h.fits
  have hmemory := h.memory
  have hshort : (cString text).length ≤ text.length := (List.takeWhile_prefix _).length_le
  obtain ⟨hbehind, hstring⟩ := @stringAt_copyInto_behind p.text front text h.string
  have hlength : (copyInto p.text front.length (text ++ ['\x00'])).length = p.text.length := by
    apply copyInto_length
    rw [List.length_append, List.length_singleton]
    omega
  rw [h.place]
  refine ⟨⟨hbehind, hstring, rfl, h.reader, ?_, h.small, ?_⟩, hlength⟩
  · dsimp only
    omega
  · dsimp only
    omega

theorem nothing_shown {front : List Char} {payload : List UInt8} (h : p.Ready front payload room) :
    p.Shown front [] payload room := by
  have hstring : stringAt p.text 0 = front ++ [] := by rw [List.append_nil, h.string]
  refine ⟨?_, hstring, h.place, h.reader, ?_, h.small, ?_⟩
  · rw [h.place]
    exact stringAt_part hstring
  · rw [List.length_nil, Nat.zero_add]
    exact h.fits
  · exact h.memory

/-- The bytes of a value that was printed first are passed over then. -/
theorem skip_shown {front value : List Char} {bytes : List UInt8}
    (h : p.Shown front value (bytes ++ rest) room) :
    (p.skip bytes.length).Shown front value rest room := by
  have hskip : p.skip bytes.length = p.leaves rest := by
    have hlength : (p.reader.datalength - bytes.length : Int) = rest.length := by
      rw [h.reader]
      simp
    rw [skip_append (by rw [h.reader]) rfl, hlength]
    rfl
  rw [hskip]
  exact ⟨h.behind, h.string, h.place, rfl, h.fits, h.small, h.memory⟩

/-- A floating-point number, with its name and its unit. -/
theorem printFloat_ready {n width : Nat} {attributes : NumberAttributes}
    (hstring : hasFlag typeInfo mctTypeInfoStrg = false)
    (hbool : hasFlag typeInfo mctTypeInfoBool = false)
    (hsint : hasFlag typeInfo mctTypeInfoSint = false)
    (huint : hasFlag typeInfo mctTypeInfoUint = false)
    (hfloat : hasFlag typeInfo mctTypeInfoFloa = true)
    (hvari : hasFlag typeInfo mctTypeInfoVari = attributes.isSome)
    (htyle : typeInfo &&& mctTypeInfoTyle = mctTyle32bit ∧ width = 4 ∨
      typeInfo &&& mctTypeInfoTyle = mctTyle64bit ∧ width = 8)
    (hn : n < 256 ^ width) (hmsb : msg.isMsbf = false)
    (hdigits : '\x00' ∉ settings.printFloat width n)
    (hname : ValidAttribute (attributes.bind Prod.fst))
    (hunit : ValidAttribute (attributes.bind Prod.snd)) (hnone : p.unit = ([], 0))
    (h : p.Ready [] (nameUnitField attributes ++ leBytes width n ++ rest)
      ((shownName settings (attributes.bind Prod.fst)).length +
        ((settings.printFloat width n).length + (room + 1)))) :
    ∃ p' : Printing, printArgument settings msg typeInfo p (-1) = (.ok, p') ∧
      p'.Shown (shownName settings (attributes.bind Prod.fst)) (settings.printFloat width n)
          rest (room + 1) ∧
        p'.HasUnit (attributes.bind Prod.snd) ∧ p'.text.length = p.text.length := by
  rw [List.append_assoc] at h
  obtain ⟨p', hp', hready, hhas, hlength⟩ :=
    readNameUnit_ready hvari hmsb hname hunit (by omega) hnone h
  obtain ⟨hshown, hprinted⟩ := print_shown (hready.leaves rest) hdigits
  rw [printArgument, hstring, hbool, hsint, huint, hfloat, if_neg (by simp), if_neg (by simp),
    if_neg (by simp), if_neg (by simp), if_neg (by simp), if_pos rfl, printFloatArgument, hp']
  dsimp only
  rcases htyle with ⟨htyle, rfl⟩ | ⟨htyle, rfl⟩
  · rw [htyle, if_neg (by decide), if_neg (by decide), if_pos rfl, readNumber_ready hready hmsb hn]
    exact ⟨_, rfl, hshown, hhas, hprinted.trans hlength⟩
  · rw [htyle, if_neg (by decide), if_neg (by decide), if_neg (by decide), if_pos rfl,
      readNumber_ready hready hmsb hn]
    exact ⟨_, rfl, hshown, hhas, hprinted.trans hlength⟩

theorem printBool_ready {data : UInt8} {name : Option (Option (List UInt8))}
    (hstring : hasFlag typeInfo mctTypeInfoStrg = false)
    (hbool : hasFlag typeInfo mctTypeInfoBool = true)
    (hvari : hasFlag typeInfo mctTypeInfoVari = name.isSome) (hmsb : msg.isMsbf = false)
    (hname : ValidAttribute name.join)
    (h : p.Ready [] (nameField name ++ [data] ++ rest) ((shownName settings name.join).length +
      ((Nat.toDigits 10 data.toNat).length + (room + 1)))) :
    ∃ p' : Printing, printArgument settings msg typeInfo p (-1) = (.ok, p') ∧
      p'.Shown (shownName settings name.join) (Nat.toDigits 10 data.toNat) rest (room + 1) ∧
        p'.unit = p.unit ∧ p'.text.length = p.text.length := by
  rw [List.append_assoc] at h
  obtain ⟨p', hp', hready, hsame, hlength⟩ := readName_ready hvari hmsb hname (by omega)
    (Nat.sub_le · 1) h
  have hdigits : '\x00' ∉ Nat.toDigits 10 data.toNat := not_mem_printInt data.toNat
  obtain ⟨hshown, hprinted⟩ := print_shown (hready.leaves rest) hdigits
  have hvalue : leNat [data] = data.toNat := by simp [leNat]
  rw [printArgument, hstring, hbool, if_neg (by simp), if_pos rfl, printBool, hp',
    read_ready hready (rfl : _ = 1), hvalue]
  exact ⟨_, rfl, hshown, hsame, hprinted.trans hlength⟩

theorem printHexString_nothing {delim : Char} (hpositive : 0 < p.textlength)
    (hsmall : p.textlength < 2147483648) : p.printHexString 0 delim = (.ok, p) := by
  have hprint := @mctPrintHexStringDelim_nothing p.text p.valueText p.reader.ptr p.textlength delim
    (by omega)
  unfold Printing.printHexString
  rw [int32_natCast hsmall, Nat.cast_zero, hprint]

theorem printHexString_fits {delim : Char} {bytes : List UInt8}
    (hptr : p.reader.ptr.take bytes.length = bytes) (hfits : bytes.length * 3 ≤ p.textlength)
    (hsmall : p.textlength < 2147483648) (hne : bytes ≠ []) :
    p.printHexString bytes.length delim = (.ok, { p with
      text := copyInto p.text p.valueText (hexText delim bytes ++ ['\x00']) }) := by
  have hpositive : 0 < bytes.length := List.length_pos_of_ne_nil hne
  have hprint := @mctPrintHexStringDelim_fits p.text p.valueText p.reader.ptr bytes p.textlength
    delim hptr (by omega) (by omega) hne
  unfold Printing.printHexString
  rw [int32_natCast hsmall, hprint]

theorem printRaw_ready {data : List UInt8} {name : Option (Option (List UInt8))}
    (hstring : hasFlag typeInfo mctTypeInfoStrg = false)
    (hbool : hasFlag typeInfo mctTypeInfoBool = false)
    (hsint : hasFlag typeInfo mctTypeInfoSint = false)
    (huint : hasFlag typeInfo mctTypeInfoUint = false)
    (hfloat : hasFlag typeInfo mctTypeInfoFloa = false)
    (hraw : hasFlag typeInfo mctTypeInfoRawd = true)
    (hvari : hasFlag typeInfo mctTypeInfoVari = name.isSome) (hmsb : msg.isMsbf = false)
    (hname : ValidAttribute name.join) (hdata : data.length < 65536)
    (h : p.Ready [] (leBytes 2 data.length ++ (nameField name ++ data) ++ rest)
      ((shownName settings name.join).length + (3 * data.length + (room + 1)))) :
    ∃ p' : Printing, printArgument settings msg typeInfo p (-1) = (.ok, p') ∧
      p'.Shown (shownName settings name.join) (hexText '\'' data) rest (room + 1) ∧
        p'.unit = p.unit ∧ p'.text.length = p.text.length := by
  rw [List.append_assoc, List.append_assoc] at h
  obtain ⟨p', hp', hready, hsame, hlength⟩ := readName_ready hvari hmsb hname (by omega)
    (show ∀ n, id n ≤ n from Nat.le_refl) (h.leaves (nameField name ++ (data ++ rest)))
  have hfits := hready.fits
  have hsmall := hready.small
  have hmany := length_hexText_le '\'' data
  obtain ⟨hcopied, hcopiedLength⟩ := @copy_shown p' room (shownName settings name.join)
    (hexText '\'' data) _ (hready.weaken (by omega))
  rw [cString_eq_self (not_mem_hexText (by decide) data)] at hcopied
  rw [printArgument, hstring, hbool, hsint, huint, hfloat, hraw, if_neg (by simp), if_neg (by simp),
    if_neg (by simp), if_neg (by simp), if_neg (by simp), if_neg (by simp), if_pos rfl, printRaw,
    readNumber_ready h hmsb hdata, hp', if_neg (by rw [hready.reader]; simp)]
  by_cases hzero : data = []
  · -- nothing is printed, and the text ends behind the name
    subst hzero
    rw [show p'.printHexString ([] : List UInt8).length '\'' = (.ok, p') from
      printHexString_nothing (by omega) hsmall]
    exact ⟨_, rfl, skip_shown (nothing_shown (hready.weaken (by omega))), hsame, hlength⟩
  · have htake : p'.reader.ptr.take data.length = data := by
      rw [hready.reader]
      exact List.take_left
    rw [printHexString_fits htake (by omega) hsmall hzero]
    exact ⟨_, rfl, skip_shown hcopied, hsame, hcopiedLength.trans hlength⟩

theorem printString_ready {text : List UInt8} {name : Option (Option (List UInt8))}
    (hstring : hasFlag typeInfo mctTypeInfoStrg = true)
    (hscod : typeInfo &&& mctTypeInfoScod = mctScodAscii ∨
      typeInfo &&& mctTypeInfoScod = mctScodUtf8)
    (hvari : hasFlag typeInfo mctTypeInfoVari = name.isSome) (hmsb : msg.isMsbf = false)
    (hname : ValidAttribute name.join) (hne : text ≠ []) (htext : text.length < 65536)
    (h : p.Ready [] (leBytes 2 text.length ++ (nameField name ++ text) ++ rest)
      ((shownName settings name.join).length + (text.length + (room + 1)))) :
    ∃ p' : Printing, printArgument settings msg typeInfo p (-1) = (.ok, p') ∧
      p'.Shown (shownName settings name.join)
          (cString ((payloadText text).map fun c => if c = '\r' ∨ c = '\n' then ' ' else c))
          rest (room + 1) ∧
        p'.unit = p.unit ∧ p'.text.length = p.text.length := by
  rw [List.append_assoc, List.append_assoc] at h
  obtain ⟨p', hp', hready, hsame, hlength⟩ := readName_ready hvari hmsb hname (by omega)
    (show ∀ n, id n ≤ n from Nat.le_refl) (h.leaves (nameField name ++ (text ++ rest)))
  have hfits := hready.fits
  have hclean : ((payloadText text).map fun c => if c = '\r' ∨ c = '\n' then ' ' else c).length =
      text.length := by
    rw [List.length_map, payloadText, List.length_map]
  obtain ⟨hcopied, hcopiedLength⟩ := @copy_shown p' room (shownName settings name.join)
    ((payloadText text).map fun c => if c = '\r' ∨ c = '\n' then ' ' else c) _
    (hready.weaken (by rw [hclean]))
  have htake : p'.reader.ptr.take text.length = text := by
    rw [hready.reader]
    exact List.take_left
  have hpos := List.length_pos_of_ne_nil hne
  rw [printArgument, hstring, if_pos ⟨rfl, hscod⟩, printString]
  dsimp only
  rw [if_pos (by decide), readNumber_ready h hmsb htext, hp', Printing.readString, if_neg, htake]
  · exact ⟨_, rfl, skip_shown hcopied, hsame, hcopiedLength.trans hlength⟩
  · rw [hready.reader]
    dsimp only
    rw [List.length_append]
    omega

end Kinds

section Shown

variable {settings : PrintSettings} {msg : PayloadMessage} {a : Argument} {p : Printing}
  {rest : List UInt8}

theorem bool_flags (vari : Bool) :
    let typeInfo := if vari then mctTypeInfoBool ||| mctTyle8bit ||| mctTypeInfoVari
      else mctTypeInfoBool ||| mctTyle8bit
    hasFlag typeInfo mctTypeInfoStrg = false ∧ hasFlag typeInfo mctTypeInfoBool = true ∧
      hasFlag typeInfo mctTypeInfoVari = vari := by
  cases vari
  all_goals decide

theorem string_flags (type : StringType) (vari : Bool) :
    hasFlag (stringTypeInfo type vari) mctTypeInfoStrg = true ∧
      (stringTypeInfo type vari &&& mctTypeInfoScod = mctScodAscii ∨
        stringTypeInfo type vari &&& mctTypeInfoScod = mctScodUtf8) ∧
      hasFlag (stringTypeInfo type vari) mctTypeInfoVari = vari := by
  cases type
  all_goals
    cases vari
    all_goals decide

theorem raw_flags {type : UInt32} (htype : type < mctFormatMax) (vari : Bool) :
    hasFlag (rawTypeInfo type vari) mctTypeInfoStrg = false ∧
      hasFlag (rawTypeInfo type vari) mctTypeInfoBool = false ∧
      hasFlag (rawTypeInfo type vari) mctTypeInfoSint = false ∧
      hasFlag (rawTypeInfo type vari) mctTypeInfoUint = false ∧
      hasFlag (rawTypeInfo type vari) mctTypeInfoFloa = false ∧
      hasFlag (rawTypeInfo type vari) mctTypeInfoRawd = true ∧
      hasFlag (rawTypeInfo type vari) mctTypeInfoVari = vari := by
  rcases format_cases htype with rfl | rfl | rfl | rfl | rfl | rfl | rfl
  all_goals
    cases vari
    all_goals decide

/-- The type information of a number: its width and its format stand beside each other. -/
theorem formatted_flags {type : UInt32} (htype : type < mctFormatMax) (data : Unsigned) :
    let typeInfo := formattedTypeInfo (mctTypeInfoUint ||| data.tyle) type
    hasFlag typeInfo mctTypeInfoStrg = false ∧ hasFlag typeInfo mctTypeInfoBool = false ∧
      hasFlag typeInfo mctTypeInfoUint = true ∧ hasFlag typeInfo mctTypeInfoVari = false ∧
      hasFlag typeInfo mctTypeInfoFixp = false ∧ typeInfo &&& mctTypeInfoTyle = data.tyle ∧
      (typeInfo &&& mctTypeInfoScod = 0 ∨
        typeInfo &&& mctTypeInfoScod = mctScodHex ∨
        typeInfo &&& mctTypeInfoScod = mctScodBin ∧ mctFormatBin8 ≤ type) := by
  rcases format_cases htype with rfl | rfl | rfl | rfl | rfl | rfl | rfl
  all_goals
    cases data
    all_goals
      simp only [Unsigned.tyle]
      decide

theorem hasUnit_none (h : p.unit = ([], 0)) : p.HasUnit none :=
  ⟨by rw [h]; rfl, fun hone => absurd hone (by decide)⟩

/-- A number in the digits of its format. -/
theorem printFormatted_shown {data : Unsigned} {type : UInt32} (htype : type < mctFormatMax)
    (hwidth : mctFormatBin8 ≤ type → data.width ≤ 2) (hmsb : msg.isMsbf = false)
    (hnone : p.unit = ([], 0))
    (h : p.Ready [] ((Argument.formatted data type).body ++ rest)
      ((Argument.formatted data type).room settings)) :
    ∃ p' : Printing,
      printArgument settings msg (Argument.formatted data type).typeInfo p (-1) = (.ok, p') ∧
        p'.Shown [] ((Argument.formatted data type).valueText settings) rest
          ((shownUnit settings none).length + 1) ∧
        p'.HasUnit none ∧ p'.text.length = p.text.length := by
  obtain ⟨hstring, hbool, huint, hvari, hfixp, htyle, hscod⟩ := formatted_flags htype data
  have hno : ValidAttribute none := fun bytes hbytes => by cases hbytes
  have hnounit : p.HasUnit none := hasUnit_none hnone
  have hname : (shownName settings (Argument.formatted data type).name).length = 0 := by
    rw [Argument.name, shownName_none, List.length_nil]
  rw [Argument.room, hname, Nat.zero_add] at h
  simp only [Argument.typeInfo, Argument.body, Argument.unit, Argument.valueRoom,
    Argument.valueText] at h ⊢
  generalize formattedTypeInfo (mctTypeInfoUint ||| data.tyle) type = typeInfo at *
  rcases hscod with hscod | hscod | ⟨hscod, hbin⟩
  · have hvalue : Argument.formattedText typeInfo data = Argument.integerText typeInfo data := by
      rw [Argument.formattedText, hscod]
      rfl
    rw [hvalue] at h ⊢
    have hready := @printInteger_ready settings msg p typeInfo rest
      (shownUnit settings none).length data none hstring hbool hscod (.inr huint) hvari hfixp htyle
      hmsb hno hno hnone (.inl shownName_none)
    rw [Option.bind_none, shownName_none, List.length_nil, Nat.zero_add] at hready
    exact hready h
  · have hvalue : Argument.formattedText typeInfo data =
        '0' :: 'x' :: hexPadded (2 * data.width) data.toNat := by
      rw [Argument.formattedText, hscod]
      rfl
    rw [hvalue] at h ⊢
    obtain ⟨p', hp', hshown, hsame, hlength⟩ := printHex_ready htyle h
    rw [printArgument, hstring, hbool, huint, hscod, if_neg (by simp), if_neg (by simp),
      if_neg (by decide), if_pos ⟨rfl, rfl⟩, hp']
    exact ⟨p', rfl, hshown, hasUnit_none (hsame.trans hnone), hlength⟩
  · have hvalue : Argument.formattedText typeInfo data = '0' :: 'b' ::
        binaryText (8 * data.width) (if data.width = 1 then [3] else [3, 7, 11]) data.toNat := by
      rw [Argument.formattedText, hscod]
      rfl
    rw [hvalue] at h ⊢
    have hdigits : '\x00' ∉ '0' :: 'b' ::
        binaryText (8 * data.width) (if data.width = 1 then [3] else [3, 7, 11]) data.toNat := by
      rw [List.mem_cons, List.mem_cons, not_or, not_or]
      exact ⟨by decide, by decide, not_mem_binaryText (by decide) _ _ _⟩
    obtain ⟨hshown, hlength⟩ := print_shown (h.leaves rest) hdigits
    rw [printArgument, hstring, hbool, huint, hscod, if_neg (by simp), if_neg (by simp),
      if_pos ⟨rfl, rfl⟩, printBin_ready htyle (hwidth hbin) h]
    exact ⟨_, rfl, hshown, hnounit, hlength⟩

/-- Every argument that is readable is read from its own bytes, and its value is shown behind its
name. -/
theorem printArgument_shown (ha : a.Readable settings) (hmsb : msg.isMsbf = false)
    (hfloat : ∀ width n, '\x00' ∉ settings.printFloat width n) (hnone : p.unit = ([], 0))
    (h : p.Ready [] (a.body ++ rest) (a.room settings)) :
    ∃ p' : Printing, printArgument settings msg a.typeInfo p (-1) = (.ok, p') ∧
      p'.Shown (shownName settings a.name) (a.valueText settings) rest
          ((shownUnit settings a.unit).length + 1) ∧
        p'.HasUnit a.unit ∧ p'.text.length = p.text.length := by
  obtain ⟨hname, hunit, hsized, hbehind⟩ := ha
  cases a with
  | number data attributes =>
      cases data with
      | unsigned data =>
          refine printInteger_ready ?_ ?_ ?_ (.inr ?_) ?_ ?_ ?_ hmsb hname hunit hnone hbehind h
          all_goals
            cases data <;> cases attributes <;>
              simp only [Argument.typeInfo, Number.typeInfo, Unsigned.tyle, Option.isSome]
            all_goals decide
      | signed data =>
          refine printInteger_ready ?_ ?_ ?_ (.inl ?_) ?_ ?_ ?_ hmsb hname hunit hnone hbehind h
          all_goals
            cases data <;> cases attributes <;>
              simp only [Argument.typeInfo, Number.typeInfo, Unsigned.tyle, Option.isSome]
            all_goals decide
      | float32 data =>
          refine printFloat_ready ?_ ?_ ?_ ?_ ?_ ?_ (.inl ⟨?_, rfl⟩) data.toNat_lt hmsb
            (hfloat 4 _) hname hunit hnone h
          all_goals
            cases attributes <;>
              simp only [Argument.typeInfo, Number.typeInfo, Option.isSome]
            all_goals decide
      | float64 data =>
          refine printFloat_ready ?_ ?_ ?_ ?_ ?_ ?_ (.inr ⟨?_, rfl⟩) data.toNat_lt hmsb
            (hfloat 8 _) hname hunit hnone h
          all_goals
            cases attributes <;>
              simp only [Argument.typeInfo, Number.typeInfo, Option.isSome]
            all_goals decide
  | formatted data type =>
      obtain ⟨p', hp', hshown, hhas, hlength⟩ := printFormatted_shown hsized.1 hsized.2 hmsb hnone h
      rw [Argument.name, shownName_none]
      exact ⟨p', hp', hshown, hhas, hlength⟩
  | bool data name =>
      obtain ⟨hstring, hbool, hvari⟩ := bool_flags name.isSome
      obtain ⟨p', hp', hshown, hsame, hlength⟩ := printBool_ready hstring hbool hvari hmsb hname h
      exact ⟨p', hp', hshown, hasUnit_none (hsame.trans hnone), hlength⟩
  | raw data type name =>
      obtain ⟨htype, hdata⟩ := hsized
      obtain ⟨hstring, hbool, hsint, huint, hfloat, hraw, hvari⟩ := raw_flags htype name.isSome
      obtain ⟨p', hp', hshown, hsame, hlength⟩ := printRaw_ready hstring hbool hsint huint hfloat
        hraw hvari hmsb hname hdata h
      exact ⟨p', hp', hshown, hasUnit_none (hsame.trans hnone), hlength⟩
  | string type text name =>
      obtain ⟨hne, htext⟩ := hsized
      obtain ⟨hstring, hscod, hvari⟩ := string_flags type name.isSome
      obtain ⟨p', hp', hshown, hsame, hlength⟩ := printString_ready hstring hscod hvari hmsb hname
        hne htext h
      exact ⟨p', hp', hshown, hasUnit_none (hsame.trans hnone), hlength⟩

/-- What is shown of an argument stands at the start of the text, and the payload is left behind
it. -/
theorem argument_shown {text : List Char} {textlength : Nat} (ha : a.Readable settings)
    (hmsb : msg.isMsbf = false) (hfloat : ∀ width n, '\x00' ∉ settings.printFloat width n)
    (hempty : stringAt text 0 = []) (hfits : a.room settings ≤ textlength)
    (hsmall : textlength < 2147483648) (hmemory : a.room settings ≤ text.length) :
    ∃ p' : Printing, mctMessageArgumentPrint settings msg a.typeInfo
        ⟨a.body ++ rest, (a.body ++ rest).length⟩ text textlength (-1) = (.ok, p') ∧
      stringAt p'.text 0 = a.text settings ∧ p'.reader = ⟨rest, rest.length⟩ ∧
        p'.text.length = text.length := by
  have hstart : (Printing.mk ⟨a.body ++ rest, (a.body ++ rest).length⟩ text 0 textlength
      ([], 0)).Ready [] (a.body ++ rest) (a.room settings) :=
    ⟨hempty, rfl, rfl, hfits, hsmall, by rwa [List.length_nil, Nat.zero_add]⟩
  obtain ⟨p, hp, hshown, hunit, hlength⟩ := printArgument_shown ha hmsb hfloat rfl hstart
  obtain ⟨htext, hreader, hkept⟩ := printUnit_shown hshown hunit ha.unit
  rw [mctMessageArgumentPrint, hp]
  dsimp only
  rw [if_neg (by rw [hshown.reader]; exact Int.not_lt.mpr (Int.natCast_nonneg _))]
  exact ⟨_, rfl, htext, hreader, hkept.trans hlength⟩

end Shown

end MctDaemon.Shared
