import MctDaemon.Lib.HexText
import MctDaemon.Lib.TextBuffer
import MctDaemon.Shared.Types

/-!
`mct_message_payload` for messages in non-verbose mode: the service or message
identifier, the returned value of a control response, and the rest of the
payload in hexadecimal digits.
-/

namespace MctDaemon.Shared

open Lib

/-- The parts of a message that `mct_message_payload` looks at. -/
structure PayloadMessage where
  htyp : UInt8
  msin : UInt8
  databuffer : List UInt8
  deriving DecidableEq

namespace PayloadMessage

def isUeh (msg : PayloadMessage) : Bool := msg.htyp &&& 0x01 ≠ 0

def isMsbf (msg : PayloadMessage) : Bool := msg.htyp &&& 0x02 ≠ 0

def mstp (msg : PayloadMessage) : UInt8 := (msg.msin &&& 0x0e) >>> 1

def mtin (msg : PayloadMessage) : UInt8 := (msg.msin &&& 0xf0) >>> 4

def isControl (msg : PayloadMessage) : Bool := msg.isUeh ∧ msg.mstp = 3

def isControlResponse (msg : PayloadMessage) : Bool := msg.isControl ∧ msg.mtin = 2

def isControlTime (msg : PayloadMessage) : Bool := msg.isControl ∧ msg.mtin = 3

def isNonverbose (msg : PayloadMessage) : Bool := ¬ msg.isUeh ∨ msg.msin &&& 0x01 = 0

end PayloadMessage

/-- The pointer into the payload with the length that is left. -/
structure PayloadReader where
  ptr : List UInt8
  datalength : Int
  deriving DecidableEq, Repr

/-- `MCT_MSG_READ_VALUE`: the bytes of the value, unless they are not there. -/
def PayloadReader.readValue (reader : PayloadReader) (size : Nat) :
    Option (List UInt8) × PayloadReader :=
  if reader.datalength < 0 ∨ reader.datalength < size then
    (none, { reader with datalength := -1 })
  else
    (some (reader.ptr.take size), ⟨reader.ptr.drop size, reader.datalength - size⟩)

/-- `MCT_ENDIAN_GET_32` and its siblings, of a value that starts as 0. -/
def endianGet (msg : PayloadMessage) : Option (List UInt8) → Nat
  | none => 0
  | some bytes => if msg.isMsbf then leNat bytes.reverse else leNat bytes

def serviceIdName : List String :=
  ["", "set_log_level", "set_trace_status", "get_log_info", "get_default_log_level",
    "store_config", "reset_to_factory_default", "set_com_interface_status",
    "set_com_interface_max_bandwidth", "set_verbose_mode", "set_message_filtering",
    "set_timing_packets", "get_local_time", "use_ecu_id", "use_session_id", "use_timestamp",
    "use_extended_header", "set_default_log_level", "set_default_trace_status",
    "get_software_version", "message_buffer_overflow"]

def returnType : List String :=
  ["ok", "not_supported", "error", "perm_denied", "warning", "", "", "", "no_matching_context_id"]

def mctServiceIdLastEntry : Nat := 21

def mctServiceResponseLast : Nat := 5

def mctCommonAsciiLimitMaxChars : Int := 20

/-- `snprintf(text + strlen(text), textlength - strlen(text), ..)`. -/
def appendText (textlength : Nat) (text more : List Char) : List Char :=
  text ++ more.take (textlength - text.length - 1)

/-- `mct_print_hex_string_delim`, with the memory that has `text` at `off`. Where there is
nothing to print, not even a zero is written. -/
def mctPrintHexStringDelim (mem : List Char) (off : Nat) (textlength : Int) (ptr : List UInt8)
    (size : Int) (delim : Char) : MctReturnValue × List Char :=
  if textlength ≤ 0 ∨ size < 0 then (.wrongParameter, mem)
  else if textlength < size * 3 then (.error, mem)
  else if size = 0 then (.ok, mem)
  else (.ok, copyInto mem off (hexText delim (ptr.take size.toNat) ++ ['\x00']))

def mctPrintHexString (text : List Char) (textlength : Int) (ptr : List UInt8) (size : Int) :
    MctReturnValue × List Char :=
  mctPrintHexStringDelim text 0 textlength ptr size ' '

/-- The part of the text in front of the digits: the identifier. -/
def identifierText (msg : PayloadMessage) (textlength id : Nat) (datalength : Int) : List Char :=
  if msg.isControl then
    let text :=
      if 0 < id ∧ id < mctServiceIdLastEntry then
        appendText textlength [] (serviceIdName.getD id "").toList
      else if !msg.isControlTime then
        appendText textlength [] ("service(".toList ++ Nat.toDigits 10 id ++ [')'])
      else []
    if datalength > 0 then appendText textlength text [',', ' '] else text
  else appendText textlength [] (Nat.toDigits 10 id ++ [',', ' '])

def retvalText (retval : UInt8) : List Char :=
  if retval.toNat < mctServiceResponseLast ∨ retval = 8 then
    (returnType.getD retval.toNat "").toList
  else hexText ' ' [retval]

/-- The text with the returned value behind it, and the reader behind it. -/
def appendRetval (msg : PayloadMessage) (textlength : Nat) (text : List Char)
    (reader : PayloadReader) : List Char × PayloadReader :=
  if msg.isControlResponse ∧ reader.datalength > 0 then
    let (value, reader) := reader.readValue 1
    let text := appendText textlength text (retvalText (endianGet msg value).toUInt8)
    (if reader.datalength ≥ 1 then appendText textlength text [',', ' '] else text, reader)
  else (text, reader)

/-- The digits of the rest of the payload behind the text, which ends with a zero. -/
def appendDigits (textlength : Nat) (limited : Bool) (text : List Char) (reader : PayloadReader) :
    MctReturnValue × List Char :=
  let behind := List.replicate (textlength - text.length) '\x00'
  let available := int32 (textlength - text.length)
  if limited then
    let (ret, digits) := mctPrintHexString behind available reader.ptr
      (if reader.datalength > mctCommonAsciiLimitMaxChars then mctCommonAsciiLimitMaxChars
        else reader.datalength)
    let text := text ++ cString digits
    (ret, if reader.datalength > mctCommonAsciiLimitMaxChars ∧ textlength - text.length > 4 then
      appendText textlength text " ...".toList else text)
  else
    let (ret, digits) := mctPrintHexString behind available reader.ptr reader.datalength
    (ret, text ++ cString digits)

/-- `mct_message_payload` for a message in non-verbose mode, with the type
`MCT_OUTPUT_ASCII` or `MCT_OUTPUT_ASCII_LIMITED`. -/
def mctMessagePayloadNonverbose (msg : PayloadMessage) (textlength : Nat) (limited : Bool) :
    MctReturnValue × List Char :=
  if textlength = 0 then (.wrongParameter, [])
  else
    let (value, reader) := (PayloadReader.mk msg.databuffer msg.databuffer.length).readValue 4
    if textlength < uint32 (uint32 reader.datalength * 3 + 20) then (.error, [])
    else
      let text := identifierText msg textlength (endianGet msg value) reader.datalength
      let (text, reader) := appendRetval msg textlength text reader
      appendDigits textlength limited text reader

section Text

variable {msg : PayloadMessage} {textlength : Nat}

theorem readValue_append {front back : List UInt8} {size : Nat} (hsize : front.length = size) :
    (PayloadReader.mk (front ++ back) (front ++ back).length).readValue size =
      (some front, ⟨back, back.length⟩) := by
  subst hsize
  unfold PayloadReader.readValue
  rw [if_neg (by simp only [List.length_append]; omega)]
  simp [List.length_append]

theorem appendText_fits {text more : List Char} (h : text.length + more.length < textlength) :
    appendText textlength text more = text ++ more := by
  rw [appendText, List.take_of_length_le (by omega)]

/-- Digits are written with a zero behind them, if there are any. -/
theorem mctPrintHexStringDelim_fits {mem : List Char} {off : Nat} {ptr bytes : List UInt8}
    {available : Int} {delim : Char} (hptr : ptr.take bytes.length = bytes)
    (hpositive : 0 < available) (hfits : bytes.length * 3 ≤ available) (hne : bytes ≠ []) :
    mctPrintHexStringDelim mem off available ptr bytes.length delim =
      (.ok, copyInto mem off (hexText delim bytes ++ ['\x00'])) := by
  have hlength : (bytes.length : Int) ≠ 0 := by
    rw [Ne, Int.natCast_eq_zero, List.length_eq_zero_iff]
    exact hne
  unfold mctPrintHexStringDelim
  rw [if_neg (by omega), if_neg (by omega), if_neg hlength, Int.toNat_natCast, hptr]

theorem mctPrintHexStringDelim_nothing {mem : List Char} {off : Nat} {ptr : List UInt8}
    {available : Int} {delim : Char} (hpositive : 0 < available) :
    mctPrintHexStringDelim mem off available ptr 0 delim = (.ok, mem) := by
  unfold mctPrintHexStringDelim
  rw [if_neg (by omega), if_neg (by omega), if_pos rfl]

theorem mctPrintHexString_length {text mem : List Char} {bytes : List UInt8} {available : Int}
    (hfits : bytes.length * 3 ≤ available) (hroom : available ≤ text.length)
    (h : mctPrintHexString text available bytes bytes.length = (.ok, mem)) :
    mem.length = text.length := by
  unfold mctPrintHexString at h
  by_cases hpositive : 0 < available
  · by_cases hne : bytes = []
    · subst hne
      rw [List.length_nil, Nat.cast_zero, mctPrintHexStringDelim_nothing hpositive] at h
      rw [← (Prod.mk.inj h).2]
    · have hlength := length_hexText ' ' hne
      rw [mctPrintHexStringDelim_fits List.take_length hpositive hfits hne] at h
      rw [← (Prod.mk.inj h).2]
      apply copyInto_length
      rw [List.length_append, List.length_singleton]
      omega
  · rw [mctPrintHexStringDelim, if_pos (.inl (not_lt.mp hpositive))] at h
    cases h

/-- The digits where an empty string stood. -/
theorem mctPrintHexString_fits {bytes : List UInt8} {room : Nat} {available : Int}
    (hpositive : 0 < available) (hfits : bytes.length * 3 ≤ available) :
    ∃ mem, mctPrintHexString (List.replicate room '\x00') available bytes bytes.length =
      (.ok, mem) ∧ cString mem = hexText ' ' bytes := by
  unfold mctPrintHexString
  cases bytes with
  | nil =>
      refine ⟨_, mctPrintHexStringDelim_nothing hpositive, ?_⟩
      cases room with
      | zero => rfl
      | succ room => rfl
  | cons byte bytes =>
      refine ⟨_, mctPrintHexStringDelim_fits (List.take_length) hpositive hfits
        (List.cons_ne_nil _ _), ?_⟩
      rw [copyInto, List.take_zero, List.nil_append, List.append_assoc]
      exact cString_append (not_mem_hexText (by decide) _) _

/-- The text of a message whose text buffer is large enough: what stands in
front of the digits, and the digits. -/
theorem payload_fits {front back : List UInt8} {text : List Char} {rest : List UInt8}
    (hdatabuffer : msg.databuffer = front ++ back) (hfront : front.length = 4)
    (hlarge : 3 * back.length + 20 ≤ textlength) (hint : textlength < 2147483648)
    (htext : appendRetval msg textlength
      (identifierText msg textlength (endianGet msg (some front)) back.length)
      ⟨back, back.length⟩ = (text, ⟨rest, rest.length⟩))
    (hfits : text.length + 3 * rest.length < textlength) :
    mctMessagePayloadNonverbose msg textlength false = (.ok, text ++ hexText ' ' rest) := by
  unfold mctMessagePayloadNonverbose
  rw [if_neg (by omega), hdatabuffer, readValue_append hfront]
  dsimp only
  rw [if_neg, htext]
  · unfold appendDigits
    rw [if_neg (by simp)]
    have hcast : ((textlength : Int) - text.length) = ((textlength - text.length : Nat) : Int) := by
      omega
    obtain ⟨mem, hprint, hdigits⟩ := @mctPrintHexString_fits rest (textlength - text.length)
      ((textlength - text.length : Nat) : Int) (by omega) (by omega)
    dsimp only
    rw [hcast, int32_natCast (by omega), hprint, hdigits]
  · have hlength : (back.length : Int) * 3 + 20 = ((back.length * 3 + 20 : Nat) : Int) := by
      push_cast
      rfl
    rw [uint32_natCast (by omega), hlength, uint32_natCast (by omega)]
    omega

end Text

end MctDaemon.Shared
