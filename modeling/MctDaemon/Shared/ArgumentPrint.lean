import MctDaemon.Lib.TextBuffer
import MctDaemon.Shared.MessagePayload
import MctDaemon.User.LogWrite

/-!
`mct_message_argument_print`: one argument of a message in verbose mode as text. The type
information tells how the argument is read; its name is printed in front of the value and its
unit behind it, if attributes are to be printed.
-/

namespace MctDaemon.Shared

open Lib User

section Types

def mctTypeInfoTyle : UInt32 := 0xf
def mctTypeInfoFixp : UInt32 := 0x1000
def mctTypeInfoTrai : UInt32 := 0x2000
def mctTypeInfoScod : UInt32 := 0x38000
def mctTyle128bit : UInt32 := 5

/-- `type_info & flag`, as a condition. -/
def hasFlag (typeInfo flag : UInt32) : Bool := typeInfo &&& flag ≠ 0

end Types

section Printing

/-- What is printed with: `print_with_attributes` and the digits of floating-point numbers by
the number of their bytes and their bits. -/
structure PrintSettings where
  attributes : Bool
  printFloat : Nat → Nat → List Char

/-- The variables of a call. The text is the memory from `text` on, `value_text` a place in it;
`unit` is the pointer to the unit and its length. -/
structure Printing where
  reader : PayloadReader
  text : List Char
  valueText : Nat
  textlength : Nat
  unit : List UInt8 × Nat
  deriving DecidableEq, Repr

/-- A subtraction of two `size_t`. -/
def sizeSub (a b : Nat) : Nat := (((a : Int) - b) % 18446744073709551616).toNat

def payloadText (bytes : List UInt8) : List Char := bytes.map fun b => Char.ofNat b.toNat

namespace Printing

/-- `MCT_MSG_READ_VALUE` and the check behind it. -/
def read (p : Printing) (size : Nat) (next : List UInt8 → Printing → MctReturnValue × Printing) :
    MctReturnValue × Printing :=
  match p.reader.readValue size with
  | (none, reader) => (.error, { p with reader := reader })
  | (some bytes, reader) => next bytes { p with reader := reader }

/-- A number in the byte order of the message. -/
def readNumber (p : Printing) (msg : PayloadMessage) (size : Nat)
    (next : Nat → Printing → MctReturnValue × Printing) : MctReturnValue × Printing :=
  p.read size fun bytes => next (endianGet msg (some bytes))

/-- `*ptr += size; *datalength -= size`. -/
def skip (p : Printing) (size : Nat) : Printing :=
  { p with reader := ⟨p.reader.ptr.drop size, p.reader.datalength - size⟩ }

/-- The same, behind a check of the length. -/
def skipChecked (p : Printing) (size : Nat) (next : Printing → MctReturnValue × Printing) :
    MctReturnValue × Printing :=
  if p.reader.datalength < size then (.error, p) else next (p.skip size)

/-- `snprintf(value_text, textlength, ..)`. -/
def print (p : Printing) (value : List Char) : Printing :=
  { p with text := snprintf p.text p.valueText p.textlength value }

/-- `snprintf(text, textlength, ..)`. -/
def printAtText (p : Printing) (value : List Char) : Printing :=
  { p with text := snprintf p.text 0 p.textlength value }

/-- The name, if attributes are printed and it has one; `removed` is what is taken from the
length of the text. -/
def printName (p : Printing) (settings : PrintSettings) (length2 removed : Nat) : Printing :=
  if settings.attributes ∧ length2 > 1 then
    { p with
      text := snprintf p.text 0 p.textlength (cString (payloadText p.reader.ptr) ++ [':'])
      valueText := p.valueText + length2
      textlength := sizeSub p.textlength removed }
  else p

/-- The attributes of an argument that has a name only. -/
def readName (p : Printing) (settings : PrintSettings) (msg : PayloadMessage) (typeInfo : UInt32)
    (removed : Nat → Nat) (next : Printing → MctReturnValue × Printing) :
    MctReturnValue × Printing :=
  if hasFlag typeInfo mctTypeInfoVari then
    p.readNumber msg 2 fun length2 p =>
      if p.reader.datalength < length2 then (.error, p)
      else next ((p.printName settings length2 (removed length2)).skip length2)
  else next p

/-- The attributes of a number. The unit is printed behind it, so that only its place is kept. -/
def readNameUnit (p : Printing) (settings : PrintSettings) (msg : PayloadMessage)
    (typeInfo : UInt32) (next : Printing → MctReturnValue × Printing) : MctReturnValue × Printing :=
  if hasFlag typeInfo mctTypeInfoVari then
    p.readNumber msg 2 fun length2 p =>
      p.readNumber msg 2 fun length3 p =>
        if p.reader.datalength < length2 then (.error, p)
        else
          let p := (p.printName settings length2 length2).skip length2
          p.skipChecked length3 fun behind => next { behind with unit := (p.reader.ptr, length3) }
  else next p

/-- `MCT_MSG_READ_STRING` to `value_text`, with line breaks as blanks, and the check behind it. -/
def readString (p : Printing) (length : Nat) : MctReturnValue × Printing :=
  if p.reader.datalength < 0 ∨ length = 0 ∨ p.textlength < length ∨
      p.reader.datalength < length then
    (.error, { p with reader := { p.reader with datalength := -1 } })
  else
    let clean := (payloadText (p.reader.ptr.take length)).map fun c =>
      if c = '\r' ∨ c = '\n' then ' ' else c
    (.ok, { p with text := copyInto p.text p.valueText (clean ++ ['\x00']) }.skip length)

/-- `mct_print_hex_string_delim(value_text, (int)textlength, *ptr, size, delim)`. -/
def printHexString (p : Printing) (size : Nat) (delim : Char) : MctReturnValue × Printing :=
  let printed := mctPrintHexStringDelim p.text p.valueText (int32 p.textlength) p.reader.ptr
    size delim
  (printed.1, { p with text := printed.2 })

def printBytes (p : Printing) (size : Nat) : MctReturnValue × Printing :=
  let p := if p.reader.datalength ≥ size then (p.printHexString size ' ').2 else p
  p.skipChecked size fun p => (.ok, p)

end Printing

end Printing

section Arguments

variable (settings : PrintSettings) (msg : PayloadMessage) (typeInfo : UInt32) (p : Printing)

/-- The bits of a number from the highest one on, with a blank in front of some. -/
def binaryText (width : Nat) (blanks : List Nat) (n : Nat) : List Char :=
  (List.range width).reverse.flatMap fun i =>
    (if i ∈ blanks then [' '] else []) ++ [if n.testBit i then '1' else '0']

/-- What `%0*x` prints. -/
def hexPadded (width n : Nat) : List Char :=
  List.replicate (width - (Nat.toDigits 16 n).length) '0' ++ Nat.toDigits 16 n

/-- A string; `byteLength` is its length unless that stands in the payload. -/
def printString (byteLength : Int) : MctReturnValue × Printing :=
  let text := fun length (p : Printing) =>
    p.readName settings msg typeInfo id fun p => p.readString length
  if byteLength < 0 then p.readNumber msg 2 text
  else text (byteLength % 65536).toNat p

def printBool : MctReturnValue × Printing :=
  p.readName settings msg typeInfo (fun length2 => length2 - 1) fun p =>
    p.read 1 fun bytes p => (.ok, p.print (Nat.toDigits 10 (leNat bytes)))

def printBin : MctReturnValue × Printing :=
  if typeInfo &&& mctTypeInfoTyle = mctTyle8bit then
    p.read 1 fun bytes p => (.ok, p.print ('0' :: 'b' :: binaryText 8 [3] (leNat bytes)))
  else if typeInfo &&& mctTypeInfoTyle = mctTyle16bit then
    p.read 2 fun bytes p => (.ok, p.print ('0' :: 'b' :: binaryText 16 [3, 7, 11] (leNat bytes)))
  else (.ok, p)

/-- An unsigned number in hexadecimal digits, of 64 bits in two halves, the second one first. -/
def printHex : MctReturnValue × Printing :=
  let digits := fun width bytes => '0' :: 'x' :: hexPadded width (leNat bytes)
  if typeInfo &&& mctTypeInfoTyle = mctTyle8bit then
    p.read 1 fun bytes p => (.ok, p.print (digits 2 bytes))
  else if typeInfo &&& mctTypeInfoTyle = mctTyle16bit then
    p.read 2 fun bytes p => (.ok, p.print (digits 4 bytes))
  else if typeInfo &&& mctTypeInfoTyle = mctTyle32bit then
    p.read 4 fun bytes p => (.ok, p.print (digits 8 bytes))
  else if typeInfo &&& mctTypeInfoTyle = mctTyle64bit then
    let low := p.reader.ptr
    { p with reader := { p.reader with ptr := low.drop 4 } }.read 4 fun bytes p =>
      let p := p.print (digits 8 bytes)
      { p with reader := { p.reader with ptr := low } }.read 4 fun bytes p =>
        let length := (stringAt p.text p.valueText).length
        (.ok, { p with
          text := snprintf p.text (p.valueText + length) (sizeSub p.textlength length)
            (hexPadded 8 (leNat bytes))
          reader := { p.reader with ptr := p.reader.ptr.drop 4 } })
  else (.ok, p)

/-- The quantisation of a fixed-point number, which is not used, and its offset. -/
def readFixedPoint (next : Printing → MctReturnValue × Printing) : MctReturnValue × Printing :=
  if hasFlag typeInfo mctTypeInfoFixp then
    p.read 4 fun _ p =>
      let tyle := typeInfo &&& mctTypeInfoTyle
      if tyle = mctTyle8bit ∨ tyle = mctTyle16bit ∨ tyle = mctTyle32bit then p.skipChecked 4 next
      else if tyle = mctTyle64bit then p.skipChecked 8 next
      else if tyle = mctTyle128bit then p.skipChecked 16 next
      else (.error, p)
  else next p

/-- The number that `width` bytes with the value `n` are, in two's complement if it is signed. -/
def integerValue (typeInfo : UInt32) (width n : Nat) : Int :=
  if hasFlag typeInfo mctTypeInfoSint then (n : Int).bmod (2 ^ (8 * width)) else n

/-- The value of an integer. The numbers of 16 bits and the signed ones of 32 are printed to
`text`, the others to `value_text`. -/
def printIntegerValue : MctReturnValue × Printing :=
  let tyle := typeInfo &&& mctTypeInfoTyle
  let signed := hasFlag typeInfo mctTypeInfoSint
  if tyle = mctTyle8bit then
    p.read 1 fun bytes p => (.ok, p.print (printInt (integerValue typeInfo 1 (leNat bytes))))
  else if tyle = mctTyle16bit then
    p.readNumber msg 2 fun n p => (.ok, p.printAtText (printInt (integerValue typeInfo 2 n)))
  else if tyle = mctTyle32bit then
    p.readNumber msg 4 fun n p =>
      let value := printInt (integerValue typeInfo 4 n)
      (.ok, if signed then p.printAtText value else p.print value)
  else if tyle = mctTyle64bit then
    p.readNumber msg 8 fun n p => (.ok, p.print (printInt (integerValue typeInfo 8 n)))
  else if tyle = mctTyle128bit then p.printBytes 16
  else (.error, p)

def printInteger : MctReturnValue × Printing :=
  p.readNameUnit settings msg typeInfo fun p =>
    readFixedPoint typeInfo p fun p => printIntegerValue msg typeInfo p

def printFloatArgument : MctReturnValue × Printing :=
  p.readNameUnit settings msg typeInfo fun p =>
    let tyle := typeInfo &&& mctTypeInfoTyle
    if tyle = mctTyle8bit then p.printBytes 1
    else if tyle = mctTyle16bit then p.printBytes 2
    else if tyle = mctTyle32bit then
      p.readNumber msg 4 fun n p => (.ok, p.print (settings.printFloat 4 n))
    else if tyle = mctTyle64bit then
      p.readNumber msg 8 fun n p => (.ok, p.print (settings.printFloat 8 n))
    else if tyle = mctTyle128bit then p.printBytes 16
    else (.error, p)

def printRaw : MctReturnValue × Printing :=
  p.readNumber msg 2 fun length p =>
    p.readName settings msg typeInfo id fun p =>
      if p.reader.datalength < length then (.error, p)
      else
        match p.printHexString length '\'' with
        | (.ok, p) => (.ok, p.skip length)
        | (_, p) => (.error, p)

/-- The unit behind the value, if it has one. -/
def printUnit : Printing :=
  if settings.attributes ∧ p.unit.2 > 1 then
    let currLen := (stringAt p.text p.valueText).length
    { p with
      text := snprintf p.text (p.valueText + currLen) (sizeSub p.textlength currLen)
        (':' :: cString (payloadText p.unit.1))
      textlength := sizeSub p.textlength currLen }
  else p

/-- The value of an argument: the first case that its type information fits. -/
def printArgument (byteLength : Int) : MctReturnValue × Printing :=
  let scod := typeInfo &&& mctTypeInfoScod
  if hasFlag typeInfo mctTypeInfoStrg ∧ (scod = mctScodAscii ∨ scod = mctScodUtf8) then
    printString settings msg typeInfo p byteLength
  else if hasFlag typeInfo mctTypeInfoBool then printBool settings msg typeInfo p
  else if hasFlag typeInfo mctTypeInfoUint ∧ mctScodBin = scod then printBin typeInfo p
  else if hasFlag typeInfo mctTypeInfoUint ∧ mctScodHex = scod then printHex typeInfo p
  else if hasFlag typeInfo mctTypeInfoSint ∨ hasFlag typeInfo mctTypeInfoUint then
    printInteger settings msg typeInfo p
  else if hasFlag typeInfo mctTypeInfoFloa then printFloatArgument settings msg typeInfo p
  else if hasFlag typeInfo mctTypeInfoRawd then printRaw settings msg typeInfo p
  else if hasFlag typeInfo mctTypeInfoTrai then
    p.readNumber msg 2 fun length p => p.readString length
  else (.error, p)

/-- `mct_message_argument_print`, with the text buffer and the reader as they are left. -/
def mctMessageArgumentPrint (reader : PayloadReader) (text : List Char) (textlength : Nat)
    (byteLength : Int) : MctReturnValue × Printing :=
  match printArgument settings msg typeInfo ⟨reader, text, 0, textlength, ([], 0)⟩ byteLength with
  | (.ok, p) => if p.reader.datalength < 0 then (.error, p) else (.ok, printUnit settings p)
  | (code, p) => (code, p)

end Arguments

end MctDaemon.Shared
