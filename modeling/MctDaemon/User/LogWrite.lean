import MctDaemon.Shared.Types

/-!
The `mct_user_log_write_*` functions of the library. They append one argument
to the message buffer of a context. Every copy into the buffer is recorded with
its range, whether it stays inside the buffer or not.
-/

namespace MctDaemon.User

open Lib Shared

/-- The settings that the writers read from `mct_user`. -/
structure MctUser where
  logBufLen : UInt16
  initialised : Bool
  verboseMode : Bool
  deriving DecidableEq, Repr

structure MctContextData where
  buffer : List UInt8
  size : Nat
  argsNum : Nat
  verboseMode : Bool
  deriving DecidableEq, Repr

def isVerboseMode (user : MctUser) (log : MctContextData) : Bool :=
  user.verboseMode || log.verboseMode

/-- A context during a call, with the ranges written by the call so far. -/
structure Writing where
  log : MctContextData
  stores : List (Nat × Nat)
  deriving DecidableEq, Repr

namespace Writing

/-- `memcpy(log->buffer + off, src, n)`. -/
def store (w : Writing) (off : Nat) (src : List UInt8) (n : Nat) : Writing where
  log := { w.log with buffer := copyInto w.log.buffer off (src.take n) }
  stores := w.stores ++ [(off, n)]

/-- `log->size += n`. -/
def advance (w : Writing) (n : Nat) : Writing :=
  { w with log := { w.log with size := w.log.size + n } }

def append (w : Writing) (src : List UInt8) (n : Nat) : Writing :=
  (w.store w.log.size src n).advance n

/-- `log->args_num++`. -/
def countArgument (w : Writing) : Writing :=
  { w with log := { w.log with argsNum := w.log.argsNum + 1 } }

@[simp] theorem store_size (w : Writing) (off : Nat) (src : List UInt8) (n : Nat) :
    (w.store off src n).log.size = w.log.size := rfl

@[simp] theorem store_stores (w : Writing) (off : Nat) (src : List UInt8) (n : Nat) :
    (w.store off src n).stores = w.stores ++ [(off, n)] := rfl

@[simp] theorem store_argsNum (w : Writing) (off : Nat) (src : List UInt8) (n : Nat) :
    (w.store off src n).log.argsNum = w.log.argsNum := rfl

@[simp] theorem advance_size (w : Writing) (n : Nat) :
    (w.advance n).log.size = w.log.size + n := rfl

@[simp] theorem advance_stores (w : Writing) (n : Nat) : (w.advance n).stores = w.stores := rfl

@[simp] theorem advance_argsNum (w : Writing) (n : Nat) :
    (w.advance n).log.argsNum = w.log.argsNum := rfl

@[simp] theorem advance_buffer (w : Writing) (n : Nat) :
    (w.advance n).log.buffer = w.log.buffer := rfl

@[simp] theorem append_size (w : Writing) (src : List UInt8) (n : Nat) :
    (w.append src n).log.size = w.log.size + n := rfl

@[simp] theorem append_stores (w : Writing) (src : List UInt8) (n : Nat) :
    (w.append src n).stores = w.stores ++ [(w.log.size, n)] := rfl

@[simp] theorem append_argsNum (w : Writing) (src : List UInt8) (n : Nat) :
    (w.append src n).log.argsNum = w.log.argsNum := rfl

@[simp] theorem append_buffer (w : Writing) (src : List UInt8) (n : Nat) :
    (w.append src n).log.buffer = copyInto w.log.buffer w.log.size (src.take n) := rfl

@[simp] theorem countArgument_size (w : Writing) :
    w.countArgument.log.size = w.log.size := rfl

@[simp] theorem countArgument_stores (w : Writing) : w.countArgument.stores = w.stores := rfl

@[simp] theorem countArgument_argsNum (w : Writing) :
    w.countArgument.log.argsNum = w.log.argsNum + 1 := rfl

@[simp] theorem countArgument_buffer (w : Writing) :
    w.countArgument.log.buffer = w.log.buffer := rfl

end Writing

section Types

def mctTypeInfoBool : UInt32 := 0x10
def mctTypeInfoSint : UInt32 := 0x20
def mctTypeInfoUint : UInt32 := 0x40
def mctTypeInfoFloa : UInt32 := 0x80
def mctTypeInfoStrg : UInt32 := 0x200
def mctTypeInfoRawd : UInt32 := 0x400
def mctTypeInfoVari : UInt32 := 0x800

def mctTyle8bit : UInt32 := 1
def mctTyle16bit : UInt32 := 2
def mctTyle32bit : UInt32 := 3
def mctTyle64bit : UInt32 := 4

def mctScodAscii : UInt32 := 0
def mctScodUtf8 : UInt32 := 0x8000
def mctScodHex : UInt32 := 0x10000
def mctScodBin : UInt32 := 0x18000

/-- The values of `MctFormatType`; a caller may pass any other value. -/
def mctFormatDefault : UInt32 := 0
def mctFormatHex8 : UInt32 := 1
def mctFormatHex64 : UInt32 := 4
def mctFormatBin8 : UInt32 := 5
def mctFormatBin16 : UInt32 := 6
def mctFormatMax : UInt32 := 7

/-- The range check on a format, with its cast to `int16_t`. -/
def formatOutOfRange (type : UInt32) : Bool :=
  (type.toUInt16.toInt16 < 0) || mctFormatMax ≤ type

inductive StringType where
  | ascii
  | utf8
  deriving DecidableEq, Repr

end Types

section Texts

/-- `strlen`, on the bytes from the pointer on. -/
def strlen (text : List UInt8) : Nat := (text.takeWhile (· ≠ 0)).length

/-- `name_size` and `unit_size`: the bytes that a name or a unit takes in the
message, as a `uint16_t`. -/
def attributeSize : Option (List UInt8) → Nat
  | none => 0
  | some name => (strlen name + 1) % 65536

/-- The bytes of a name or a unit, with the terminating zero. -/
def attributeBytes : Option (List UInt8) → List UInt8
  | none => []
  | some name => name.takeWhile (· ≠ 0) ++ [0]

/-- A text in memory. The truncation of UTF-8 texts looks at up to three bytes
in front of it, the nearest first. -/
structure Text where
  inFront : List UInt8
  bytes : List UInt8
  deriving DecidableEq, Repr

/-- `text[i]`. -/
def Text.at (text : Text) : Int → UInt8
  | .ofNat i => text.bytes.getD i 0
  | .negSucc i => text.inFront.getD i 0

def strTruncatedMessage : List UInt8 :=
  "... <<Message truncated, too long>>".toList.map Char.toUInt8

def strTruncateMessageLength : Nat := strTruncatedMessage.length + 1

end Texts

section Raw

/-- The text of a name or a unit, unless its size is zero. -/
def Writing.appendAttribute (w : Writing) (text : Option (List UInt8)) : Writing :=
  if attributeSize text ≠ 0 then
    w.append (attributeBytes text) (attributeSize text)
  else w

/-- The name of a raw argument or a string: its size and its text. -/
def Writing.appendName (w : Writing) (name : Option (List UInt8)) : Writing :=
  (w.append (leBytes 2 (attributeSize name)) 2).appendAttribute name

/-- The `type_info` of raw data; its format is also its length code. -/
def rawTypeInfo (type : UInt32) (withVarInfo : Bool) : UInt32 :=
  let typeInfo := if withVarInfo then mctTypeInfoRawd ||| mctTypeInfoVari else mctTypeInfoRawd
  if mctFormatHex8 ≤ type ∧ type ≤ mctFormatHex64 then (typeInfo ||| mctScodHex) + type
  else if mctFormatBin8 ≤ type ∧ type ≤ mctFormatBin16 then
    (typeInfo ||| mctScodBin) + (type - mctFormatBin8 + 1)
  else typeInfo

def mctUserLogWriteRawInternal (user : MctUser) (log : MctContextData)
    (data : Option (List UInt8)) (length : UInt16) (type : UInt32) (name : Option (List UInt8))
    (withVarInfo : Bool) : MctReturnValue × Writing :=
  let w : Writing := ⟨log, []⟩
  if data = none ∧ length ≠ 0 then (.wrongParameter, w)
  else if formatOutOfRange type then (.wrongParameter, w)
  else if ¬ user.initialised then (.error, w)
  else
    let neededSize := length.toNat + 2
    if log.size + neededSize > user.logBufLen.toNat then (.userBufferFull, w)
    else
      let verbose := isVerboseMode user log
      let neededSize := neededSize + 4 + if withVarInfo then 2 + attributeSize name else 0
      if verbose ∧ log.size + neededSize > user.logBufLen.toNat then (.userBufferFull, w)
      else
        let w := if verbose then w.append (leBytes 4 (rawTypeInfo type withVarInfo).toNat) 4 else w
        let w := w.append (leBytes 2 length.toNat) 2
        let w := if verbose ∧ withVarInfo then w.appendName name else w
        let w := w.append (data.getD []) length.toNat
        (.ok, w.countArgument)

end Raw

section Simple

structure VarInfo where
  name : Option (List UInt8)
  unit : Option (List UInt8)
  withUnit : Bool
  deriving DecidableEq, Repr

/-- The bytes that `needed_size` counts for the attributes. -/
def VarInfo.size (varinfo : VarInfo) : Nat :=
  2 + attributeSize varinfo.name + if varinfo.withUnit then 2 + attributeSize varinfo.unit else 0

/-- The sizes of name and unit, then their texts. -/
def Writing.appendVarInfo (w : Writing) (varinfo : VarInfo) : Writing :=
  let w := w.append (leBytes 2 (attributeSize varinfo.name)) 2
  let w := if varinfo.withUnit then w.append (leBytes 2 (attributeSize varinfo.unit)) 2 else w
  (w.appendAttribute varinfo.name).appendAttribute varinfo.unit

def mctUserLogWriteGenericAttr (user : MctUser) (log : MctContextData) (data : List UInt8)
    (typeInfo : UInt32) (varinfo : Option VarInfo) : MctReturnValue × Writing :=
  let w : Writing := ⟨log, []⟩
  if ¬ user.initialised then (.error, w)
  else if log.size + data.length > user.logBufLen.toNat then (.userBufferFull, w)
  else
    let verbose := isVerboseMode user log
    let neededSize := data.length + 4 + (varinfo.elim 0 VarInfo.size)
    if verbose ∧ log.size + neededSize > user.logBufLen.toNat then (.userBufferFull, w)
    else
      let typeInfo := varinfo.elim typeInfo fun _ => typeInfo ||| mctTypeInfoVari
      let w := if verbose then w.append (leBytes 4 typeInfo.toNat) 4 else w
      let w := if verbose then varinfo.elim w w.appendVarInfo else w
      let w := w.append data data.length
      (.ok, w.countArgument)

def formattedTypeInfo (typeInfo type : UInt32) : UInt32 :=
  if mctFormatHex8 ≤ type ∧ type ≤ mctFormatHex64 then typeInfo ||| mctScodHex
  else if mctFormatBin8 ≤ type ∧ type ≤ mctFormatBin16 then typeInfo ||| mctScodBin
  else typeInfo

def mctUserLogWriteGenericFormatted (user : MctUser) (log : MctContextData) (data : List UInt8)
    (typeInfo : UInt32) (type : UInt32) : MctReturnValue × Writing :=
  let w : Writing := ⟨log, []⟩
  if formatOutOfRange type then (.wrongParameter, w)
  else if ¬ user.initialised then (.error, w)
  else if log.size + data.length > user.logBufLen.toNat then (.userBufferFull, w)
  else
    let verbose := isVerboseMode user log
    let neededSize := data.length + 4
    if verbose ∧ log.size + neededSize > user.logBufLen.toNat then (.userBufferFull, w)
    else
      let w := if verbose then w.append (leBytes 4 (formattedTypeInfo typeInfo type).toNat) 4 else w
      let w := w.append data data.length
      (.ok, w.countArgument)

end Simple

section Strings

/-- The bytes that are cut off so that a UTF-8 character is not cut in two,
from the last three bytes of the truncated text. -/
def utf8ReduceSize (first second third : UInt8) : Nat :=
  if third &&& 0x80 ≠ 0 then
    if third &&& 0x40 ≠ 0 then 1
    else if second &&& 0xe0 = 0xe0 then 2
    else if first &&& 0xf0 = 0xf0 then 3
    else 0
  else 0

/-- The `reduce_size` of a text of which `maxPayload` bytes fit. -/
def reduceSize (text : Text) (type : StringType) (maxPayload : Nat) : Nat :=
  match type with
  | .ascii => 0
  | .utf8 =>
      utf8ReduceSize (text.at ((maxPayload : Int) - 3)) (text.at ((maxPayload : Int) - 2))
        (text.at ((maxPayload : Int) - 1))

/-- What a string takes beside its text: its length, the type information and
the name. -/
def stringOverhead (verbose : Bool) (name : Option (List UInt8)) (withVarInfo : Bool) : Nat :=
  2 + if verbose then 4 + if withVarInfo then 2 + attributeSize name else 0 else 0

def stringTypeInfo (type : StringType) (withVarInfo : Bool) : UInt32 :=
  let typeInfo := if withVarInfo then mctTypeInfoVari else 0
  match type with
  | .ascii => typeInfo ||| (mctTypeInfoStrg ||| mctScodAscii)
  | .utf8 => typeInfo ||| (mctTypeInfoStrg ||| mctScodUtf8)

/-- What is written in front of the text. -/
def Writing.appendStringHeader (w : Writing) (verbose : Bool) (type : StringType) (argSize : Nat)
    (name : Option (List UInt8)) (withVarInfo : Bool) : Writing :=
  let w := if verbose then w.append (leBytes 4 (stringTypeInfo type withVarInfo).toNat) 4 else w
  let w := w.append (leBytes 2 argSize) 2
  if verbose ∧ withVarInfo then w.appendName name else w

def mctUserLogWriteSizedStringUtilsAttr (user : MctUser) (log : MctContextData)
    (text : Option Text) (length : UInt16) (type : StringType) (name : Option (List UInt8))
    (withVarInfo : Bool) : MctReturnValue × Writing :=
  let w : Writing := ⟨log, []⟩
  match text with
  | none => (.wrongParameter, w)
  | some text =>
      if ¬ user.initialised then (.error, w)
      else
        let verbose := isVerboseMode user log
        let overhead := stringOverhead verbose name withVarInfo
        let argSize := (length + 1).toNat
        if log.size + argSize + overhead > user.logBufLen.toNat then
          let minPayload := log.size + strTruncateMessageLength + overhead
          if minPayload > user.logBufLen.toNat then (.userBufferFull, w)
          else
            let maxPayload := user.logBufLen.toNat - minPayload
            let reduce := reduceSize text type maxPayload
            -- both subtractions wrap around, in a `uint16_t` and in a `size_t`
            let argSize : Int := user.logBufLen.toNat - log.size - overhead - reduce
            let argSize := (argSize % 65536).toNat
            let copied := (((maxPayload : Int) - reduce) % 18446744073709551616).toNat
            let w := w.appendStringHeader verbose type argSize name withVarInfo
            let w := w.append text.bytes copied
            let w := w.append (strTruncatedMessage ++ [0]) strTruncateMessageLength
            (.userBufferFull, w.countArgument)
        else
          let w := w.appendStringHeader verbose type argSize name withVarInfo
          let w := w.store w.log.size text.bytes length.toNat
          let w := w.store (w.log.size + length.toNat) [0] 1
          (.ok, (w.advance argSize).countArgument)

def mctUserLogWriteStringUtilsAttr (user : MctUser) (log : MctContextData) (text : Option Text)
    (type : StringType) (name : Option (List UInt8)) (withVarInfo : Bool) :
    MctReturnValue × Writing :=
  match text with
  | none => (.wrongParameter, ⟨log, []⟩)
  | some text =>
      mctUserLogWriteSizedStringUtilsAttr user log (some text) (strlen text.bytes).toUInt16 type
        name withVarInfo

end Strings

section Calls

inductive Unsigned where
  | uint8 (data : UInt8)
  | uint16 (data : UInt16)
  | uint32 (data : UInt32)
  | uint64 (data : UInt64)
  deriving DecidableEq, Repr

/-- The numbers that are written as they stand in memory. A float is given by
its bits, a signed number by its two's complement. -/
inductive Number where
  | unsigned (data : Unsigned)
  | signed (data : Unsigned)
  | float32 (data : UInt32)
  | float64 (data : UInt64)
  deriving DecidableEq, Repr

def Unsigned.bytes : Unsigned → List UInt8
  | uint8 data => leBytes 1 data.toNat
  | uint16 data => leBytes 2 data.toNat
  | uint32 data => leBytes 4 data.toNat
  | uint64 data => leBytes 8 data.toNat

def Unsigned.tyle : Unsigned → UInt32
  | uint8 _ => mctTyle8bit
  | uint16 _ => mctTyle16bit
  | uint32 _ => mctTyle32bit
  | uint64 _ => mctTyle64bit

def Number.bytes : Number → List UInt8
  | unsigned data => data.bytes
  | signed data => data.bytes
  | float32 data => leBytes 4 data.toNat
  | float64 data => leBytes 8 data.toNat

def Number.typeInfo : Number → UInt32
  | unsigned data => mctTypeInfoUint ||| data.tyle
  | signed data => mctTypeInfoSint ||| data.tyle
  | float32 _ => mctTypeInfoFloa ||| mctTyle32bit
  | float64 _ => mctTypeInfoFloa ||| mctTyle64bit

/-- A call of one of the public functions, with its arguments. A `constant`
string is written in verbose mode only; a string without a `length` ends at its
zero byte. -/
inductive LogWrite where
  | number (data : Number)
  | numberAttr (data : Number) (name unit : Option (List UInt8))
  | uintFormatted (data : Unsigned) (type : UInt32)
  | bool (data : UInt8)
  | boolAttr (data : UInt8) (name : Option (List UInt8))
  | raw (data : Option (List UInt8)) (length : UInt16) (type : UInt32)
  | rawAttr (data : Option (List UInt8)) (length : UInt16) (type : UInt32)
      (name : Option (List UInt8))
  | string (constant : Bool) (type : StringType) (text : Option Text) (length : Option UInt16)
  | stringAttr (constant : Bool) (type : StringType) (text : Option Text) (length : Option UInt16)
      (name : Option (List UInt8))
  deriving DecidableEq, Repr

/-- A string function: `sized` when it takes a length. -/
def writeString (user : MctUser) (log : MctContextData) (constant : Bool) (type : StringType)
    (text : Option Text) (length : Option UInt16) (name : Option (List UInt8))
    (withVarInfo : Bool) : MctReturnValue × Writing :=
  if constant ∧ ¬ isVerboseMode user log then (.ok, ⟨log, []⟩)
  else
    match length with
    | some length =>
        mctUserLogWriteSizedStringUtilsAttr user log text length type name withVarInfo
    | none => mctUserLogWriteStringUtilsAttr user log text type name withVarInfo

def logWrite (user : MctUser) (log : MctContextData) : LogWrite → MctReturnValue × Writing
  | .number data => mctUserLogWriteGenericAttr user log data.bytes data.typeInfo none
  | .numberAttr data name unit =>
      mctUserLogWriteGenericAttr user log data.bytes data.typeInfo (some ⟨name, unit, true⟩)
  | .uintFormatted data type =>
      mctUserLogWriteGenericFormatted user log data.bytes (mctTypeInfoUint ||| data.tyle) type
  | .bool data =>
      mctUserLogWriteGenericAttr user log [data] (mctTypeInfoBool ||| mctTyle8bit) none
  | .boolAttr data name =>
      mctUserLogWriteGenericAttr user log [data] (mctTypeInfoBool ||| mctTyle8bit)
        (some ⟨name, none, false⟩)
  | .raw data length type => mctUserLogWriteRawInternal user log data length type none false
  | .rawAttr data length type name =>
      mctUserLogWriteRawInternal user log data length type name true
  | .string constant type text length =>
      writeString user log constant type text length none false
  | .stringAttr constant type text length name =>
      writeString user log constant type text length name true

end Calls

section Members

variable (name unit : Option (List UInt8)) (text : Option Text) (length : UInt16) (type : UInt32)

def mctUserLogWriteFloat32 (data : UInt32) : LogWrite := .number (.float32 data)
def mctUserLogWriteFloat64 (data : UInt64) : LogWrite := .number (.float64 data)
def mctUserLogWriteFloat32Attr (data : UInt32) : LogWrite :=
  .numberAttr (.float32 data) name unit
def mctUserLogWriteFloat64Attr (data : UInt64) : LogWrite :=
  .numberAttr (.float64 data) name unit

def mctUserLogWriteUint8 (data : UInt8) : LogWrite := .number (.unsigned (.uint8 data))
def mctUserLogWriteUint16 (data : UInt16) : LogWrite := .number (.unsigned (.uint16 data))
def mctUserLogWriteUint32 (data : UInt32) : LogWrite := .number (.unsigned (.uint32 data))
def mctUserLogWriteUint64 (data : UInt64) : LogWrite := .number (.unsigned (.uint64 data))
def mctUserLogWriteUint8Attr (data : UInt8) : LogWrite :=
  .numberAttr (.unsigned (.uint8 data)) name unit
def mctUserLogWriteUint16Attr (data : UInt16) : LogWrite :=
  .numberAttr (.unsigned (.uint16 data)) name unit
def mctUserLogWriteUint32Attr (data : UInt32) : LogWrite :=
  .numberAttr (.unsigned (.uint32 data)) name unit
def mctUserLogWriteUint64Attr (data : UInt64) : LogWrite :=
  .numberAttr (.unsigned (.uint64 data)) name unit
def mctUserLogWriteUint8Formatted (data : UInt8) : LogWrite := .uintFormatted (.uint8 data) type
def mctUserLogWriteUint16Formatted (data : UInt16) : LogWrite := .uintFormatted (.uint16 data) type
def mctUserLogWriteUint32Formatted (data : UInt32) : LogWrite := .uintFormatted (.uint32 data) type
def mctUserLogWriteUint64Formatted (data : UInt64) : LogWrite := .uintFormatted (.uint64 data) type

def mctUserLogWriteInt8 (data : Int8) : LogWrite := .number (.signed (.uint8 data.toUInt8))
def mctUserLogWriteInt16 (data : Int16) : LogWrite := .number (.signed (.uint16 data.toUInt16))
def mctUserLogWriteInt32 (data : Int32) : LogWrite := .number (.signed (.uint32 data.toUInt32))
def mctUserLogWriteInt64 (data : Int64) : LogWrite := .number (.signed (.uint64 data.toUInt64))
def mctUserLogWriteInt8Attr (data : Int8) : LogWrite :=
  .numberAttr (.signed (.uint8 data.toUInt8)) name unit
def mctUserLogWriteInt16Attr (data : Int16) : LogWrite :=
  .numberAttr (.signed (.uint16 data.toUInt16)) name unit
def mctUserLogWriteInt32Attr (data : Int32) : LogWrite :=
  .numberAttr (.signed (.uint32 data.toUInt32)) name unit
def mctUserLogWriteInt64Attr (data : Int64) : LogWrite :=
  .numberAttr (.signed (.uint64 data.toUInt64)) name unit

/-- An `unsigned int` and an `int` have 32 bits, a pointer 64. -/
def mctUserLogWriteUint (data : UInt32) : LogWrite := mctUserLogWriteUint32 data
def mctUserLogWriteUintAttr (data : UInt32) : LogWrite := mctUserLogWriteUint32Attr name unit data
def mctUserLogWriteInt (data : Int32) : LogWrite := mctUserLogWriteInt32 data
def mctUserLogWriteIntAttr (data : Int32) : LogWrite := mctUserLogWriteInt32Attr name unit data
def mctUserLogWritePtr (data : UInt64) : LogWrite :=
  mctUserLogWriteUint64Formatted mctFormatHex64 data

def mctUserLogWriteBool (data : UInt8) : LogWrite := .bool data
def mctUserLogWriteBoolAttr (data : UInt8) : LogWrite := .boolAttr data name

def mctUserLogWriteString : LogWrite := .string false .ascii text none
def mctUserLogWriteStringAttr : LogWrite := .stringAttr false .ascii text none name
def mctUserLogWriteSizedString : LogWrite := .string false .ascii text (some length)
def mctUserLogWriteSizedStringAttr : LogWrite := .stringAttr false .ascii text (some length) name
def mctUserLogWriteConstantString : LogWrite := .string true .ascii text none
def mctUserLogWriteConstantStringAttr : LogWrite := .stringAttr true .ascii text none name
def mctUserLogWriteSizedConstantString : LogWrite := .string true .ascii text (some length)
def mctUserLogWriteSizedConstantStringAttr : LogWrite :=
  .stringAttr true .ascii text (some length) name
def mctUserLogWriteUtf8String : LogWrite := .string false .utf8 text none
def mctUserLogWriteUtf8StringAttr : LogWrite := .stringAttr false .utf8 text none name
def mctUserLogWriteSizedUtf8String : LogWrite := .string false .utf8 text (some length)
def mctUserLogWriteSizedUtf8StringAttr : LogWrite := .stringAttr false .utf8 text (some length) name
def mctUserLogWriteConstantUtf8String : LogWrite := .string true .utf8 text none
def mctUserLogWriteConstantUtf8StringAttr : LogWrite := .stringAttr true .utf8 text none name
def mctUserLogWriteSizedConstantUtf8String : LogWrite := .string true .utf8 text (some length)
def mctUserLogWriteSizedConstantUtf8StringAttr : LogWrite :=
  .stringAttr true .utf8 text (some length) name

def mctUserLogWriteRaw (data : Option (List UInt8)) : LogWrite :=
  .raw data length mctFormatDefault
def mctUserLogWriteRawFormatted (data : Option (List UInt8)) : LogWrite := .raw data length type
def mctUserLogWriteRawAttr (data : Option (List UInt8)) : LogWrite :=
  .rawAttr data length mctFormatDefault name
def mctUserLogWriteRawFormattedAttr (data : Option (List UInt8)) : LogWrite :=
  .rawAttr data length type name

end Members

section Starts

/-- The buffer that `mct_user_log_write_start_internal` prepares for a message
that is logged: without a buffer of the context a new one is allocated. -/
def mctUserLogWriteStartInternal (user : MctUser) (given : Option (List UInt8)) (messageid : UInt32)
    (isVerbose : Bool) : MctReturnValue × MctContextData :=
  let log : MctContextData :=
    { buffer := given.getD (List.replicate user.logBufLen.toNat 0), size := 0, argsNum := 0,
      verboseMode := isVerbose }
  if isVerboseMode user log then (.true, log)
  else if 4 > user.logBufLen.toNat then (.userBufferFull, log)
  else (.true, { log with buffer := copyInto log.buffer 0 (leBytes 4 messageid.toNat), size := 4 })

/-- The buffer and the first arguments come from the caller. -/
def mctUserLogWriteStartWGivenBuffer (user : MctUser) (buffer : List UInt8) (size : Nat)
    (argsNum : Int) : MctReturnValue × Option MctContextData :=
  if size ≤ 0 ∨ size > user.logBufLen.toNat ∨ argsNum ≤ 0 then (.wrongParameter, none)
  else if ¬ user.verboseMode then (.error, none)
  else (.true, some { buffer, size, argsNum := argsNum.toNat, verboseMode := true })

end Starts

end MctDaemon.User
