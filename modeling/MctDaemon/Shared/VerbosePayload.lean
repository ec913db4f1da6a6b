import MctDaemon.Shared.ArgumentShown

/-!
`mct_message_payload` for messages in verbose mode. The arguments of a message are printed one
behind the other with a blank between them. Each is read from its own bytes, so that a message is
shown as what its arguments are shown as, whatever their number is.
-/

namespace MctDaemon.Shared

open Lib User

/-- The variables of the loop: the payload, `type_info_tmp` and the text. -/
structure PayloadLoop where
  reader : PayloadReader
  typeInfoTmp : List UInt8
  text : List Char
  deriving DecidableEq, Repr

section Loop

variable (settings : PrintSettings) (msg : PayloadMessage) (textlength : Nat)

/-- The blank in front of an argument that is not the first one. -/
def appendBlank (s : PayloadLoop) : PayloadLoop :=
  let textOffset := (stringAt s.text 0).length
  { s with text := snprintf s.text textOffset (sizeSub textlength textOffset) [' '] }

/-- One argument: its type information, which keeps its value where there is none left to read,
and the argument at the end of the text. -/
def printNext (s : PayloadLoop) : MctReturnValue × PayloadLoop :=
  let (value, reader) := s.reader.readValue 4
  let typeInfoTmp := value.getD s.typeInfoTmp
  let textOffset := (stringAt s.text 0).length
  let (ret, p) := mctMessageArgumentPrint settings msg
    (UInt32.ofNat (endianGet msg (some typeInfoTmp))) reader (s.text.drop textOffset)
    (sizeSub textlength textOffset) (-1)
  (ret, ⟨p.reader, typeInfoTmp, s.text.take textOffset ++ p.text⟩)

/-- The arguments that are left. Only `MCT_RETURN_ERROR` ends the loop early. -/
def printArguments : Nat → Bool → PayloadLoop → MctReturnValue × PayloadLoop
  | 0, _, s => (.ok, s)
  | n + 1, first, s =>
      match printNext settings msg textlength (if first then s else appendBlank textlength s) with
      | (.error, s) => (.error, s)
      | (_, s) => printArguments n false s

/-- `mct_message_payload` for a message in verbose mode with `noar` arguments, with the type
`MCT_OUTPUT_ASCII` or `MCT_OUTPUT_ASCII_LIMITED`. -/
def mctMessagePayloadVerbose (noar : UInt8) (text : List Char) : MctReturnValue × PayloadLoop :=
  let start := ⟨msg.databuffer, int32 msg.databuffer.length⟩
  if textlength = 0 then (.wrongParameter, ⟨start, [0, 0, 0, 0], text⟩)
  else
    printArguments settings msg textlength noar.toNat true
      ⟨start, [0, 0, 0, 0], text.set 0 '\x00'⟩

/-- `mct_message_payload` with one of these types: the returned value and the text. -/
def mctMessagePayload (noar : UInt8) (text : List Char) (limited : Bool) :
    MctReturnValue × List Char :=
  if msg.isNonverbose then mctMessagePayloadNonverbose msg textlength limited
  else
    let (ret, s) := mctMessagePayloadVerbose settings msg textlength noar text
    (ret, stringAt s.text 0)

end Loop

section Texts

/-- What is shown of arguments behind another one. -/
def textBehind (settings : PrintSettings) (args : List Argument) : List Char :=
  args.flatMap fun a => ' ' :: a.text settings

/-- What is shown of the arguments of a message. -/
def argumentsText (settings : PrintSettings) (args : List Argument) : List Char :=
  [' '].intercalate (args.map (Argument.text settings))

/-- The room in the text that the arguments take at most, each with a blank or a zero. -/
def argumentsRoom (settings : PrintSettings) (args : List Argument) : Nat :=
  (args.map (Argument.room settings)).sum

variable {settings : PrintSettings} {a : Argument} {args : List Argument}

theorem argumentsText_cons :
    argumentsText settings (a :: args) = a.text settings ++ textBehind settings args := by
  induction args generalizing a with
  | nil => simp [argumentsText, textBehind, List.intercalate]
  | cons b args ih =>
      have hrest : argumentsText settings (a :: b :: args) =
          a.text settings ++ ' ' :: argumentsText settings (b :: args) := by
        simp [argumentsText, List.intercalate]
      rw [hrest, ih, textBehind, textBehind, List.flatMap_cons, List.cons_append]

theorem Argument.length_valueText_le : (a.valueText settings).length ≤ a.valueRoom settings := by
  cases a with
  | number data attributes => exact Nat.le_refl _
  | formatted data type => exact Nat.le_refl _
  | bool data name => exact Nat.le_refl _
  | raw data type name => exact length_hexText_le '\'' data
  | string type text name =>
      apply (List.takeWhile_prefix _).length_le.trans
      rw [List.length_map, payloadText, List.length_map]
      exact Nat.le_refl _

theorem Argument.length_text_lt : (a.text settings).length < a.room settings := by
  have hvalue := @Argument.length_valueText_le settings a
  rw [Argument.text, Argument.room, List.length_append, List.length_append]
  omega

theorem argumentsRoom_cons :
    argumentsRoom settings (a :: args) = a.room settings + argumentsRoom settings args := by
  rw [argumentsRoom, List.map_cons, List.sum_cons]
  rfl

end Texts

section Runs

variable {settings : PrintSettings} {msg : PayloadMessage} {textlength : Nat} {a : Argument}
  {args : List Argument} {s : PayloadLoop} {front : List Char} {rest : List UInt8}

/-- Between two arguments: what is printed, what is left of the payload, and room for more. -/
structure PayloadLoop.Between (s : PayloadLoop) (textlength : Nat) (front : List Char)
    (payload : List UInt8) (room : Nat) : Prop where
  string : stringAt s.text 0 = front
  reader : s.reader = ⟨payload, payload.length⟩
  fits : front.length + room ≤ textlength
  memory : textlength ≤ s.text.length

/-- A text behind a string in memory is a part of the string. -/
theorem stringAt_append {text behind : List Char} (hfront : stringAt text 0 = front) :
    stringAt (text.take front.length ++ behind) 0 = front ++ stringAt behind 0 := by
  have htake := take_of_stringAt hfront
  have hlength : (text.take front.length).length = front.length := by rw [htake]
  have hstart : (text.take front.length ++ behind).take front.length = front := by
    rw [List.take_left' hlength, htake]
  have hclean : '\x00' ∉ (text.take front.length ++ behind).take front.length := by
    rw [hstart, ← hfront]
    exact not_mem_stringAt 0
  rw [stringAt_split hclean, hstart, stringAt, List.drop_left' hlength, stringAt, List.drop_zero]

/-- One argument is read from its own bytes and shown behind the others. -/
theorem printNext_shown (ha : a.Readable settings) (hmsb : msg.isMsbf = false)
    (hfloat : ∀ width n, '\x00' ∉ settings.printFloat width n) (hsmall : textlength < 2147483648)
    {room : Nat} (h : s.Between textlength front (a.bytes ++ rest) (a.room settings + room)) :
    ∃ s' : PayloadLoop, printNext settings msg textlength s = (.ok, s') ∧
      s'.Between textlength (front ++ a.text settings) rest (room + 1) := by
  have hfits := h.fits
  have hmemory := h.memory
  have htypeInfo : leNat (leBytes 4 a.typeInfo.toNat) = a.typeInfo.toNat :=
    leNat_leBytes 4 _ a.typeInfo.toNat_lt
  have hread : s.reader.readValue 4 =
      (some (leBytes 4 a.typeInfo.toNat), ⟨a.body ++ rest, (a.body ++ rest).length⟩) := by
    rw [h.reader, Argument.bytes, List.append_assoc]
    exact readValue_append (leBytes_length 4 _)
  have hlong : sizeSub textlength front.length = textlength - front.length :=
    sizeSub_of_le (by omega) (by omega)
  have hempty : stringAt (s.text.drop front.length) 0 = [] := by
    rw [stringAt, List.drop_zero]
    exact @stringAt_part s.text front [] (by rw [h.string, List.append_nil])
  obtain ⟨p, hp, htext, hreader, hlength⟩ := @argument_shown settings msg a rest
    (s.text.drop front.length) (textlength - front.length) ha hmsb hfloat hempty (by omega)
    (by omega) (by rw [List.length_drop]; omega)
  rw [printNext, hread, h.string]
  dsimp only
  rw [hlong, Option.getD_some, endianGet, if_neg (by simp [hmsb]), htypeInfo, UInt32.ofNat_toNat,
    hp]
  refine ⟨_, rfl, ?_, hreader, ?_, ?_⟩
  · rw [← htext]
    exact stringAt_append h.string
  · have htextLength := @Argument.length_text_lt settings a
    rw [List.length_append]
    omega
  · change textlength ≤ (s.text.take front.length ++ p.text).length
    rw [List.length_append, hlength, List.length_take, List.length_drop]
    omega

theorem appendBlank_between {payload : List UInt8} {room : Nat} (hroom : 0 < room)
    (hsmall : textlength < 2147483648) (h : s.Between textlength front payload (room + 1)) :
    (appendBlank textlength s).Between textlength (front ++ [' ']) payload room := by
  have hfits := h.fits
  have hmemory := h.memory
  have hlong : sizeSub textlength front.length = textlength - front.length :=
    sizeSub_of_le (by omega) (by omega)
  obtain ⟨-, hstring, hlength⟩ := @snprintf_goes_on s.text front [' '] (textlength - front.length)
    h.string (by decide) (by rw [List.length_singleton]; omega)
    (by rw [List.length_singleton]; omega)
  rw [appendBlank, h.string, hlong]
  refine ⟨hstring, h.reader, ?_, ?_⟩
  · rw [List.length_append, List.length_singleton]
    omega
  · exact hmemory.trans hlength.ge

/-- The arguments behind the first one. -/
theorem printArguments_shown (hargs : ∀ a ∈ args, a.Readable settings) (hmsb : msg.isMsbf = false)
    (hfloat : ∀ width n, '\x00' ∉ settings.printFloat width n) (hsmall : textlength < 2147483648)
    (h : s.Between textlength front (args.flatMap Argument.bytes ++ rest)
      (argumentsRoom settings args + 1)) :
    ∃ s' : PayloadLoop,
      printArguments settings msg textlength args.length false s = (.ok, s') ∧
        s'.Between textlength (front ++ textBehind settings args) rest 1 := by
  induction args generalizing s front with
  | nil =>
      refine ⟨s, rfl, ?_⟩
      rw [textBehind, List.flatMap_nil, List.append_nil]
      exact h
  | cons a args ih =>
      rw [argumentsRoom_cons, List.flatMap_cons, List.append_assoc] at h
      have hroom : 0 < a.room settings := Nat.zero_lt_of_lt Argument.length_text_lt
      obtain ⟨s', hs', hbetween⟩ := printNext_shown (hargs a List.mem_cons_self) hmsb hfloat hsmall
        (appendBlank_between (by omega) hsmall h)
      obtain ⟨s'', hs'', hlast⟩ := ih (fun b hb => hargs b (List.mem_cons_of_mem a hb)) hbetween
      refine ⟨s'', ?_, ?_⟩
      · rw [List.length_cons, printArguments, if_neg Bool.false_ne_true, hs']
        exact hs''
      · rw [textBehind, List.flatMap_cons]
        simpa [textBehind] using hlast

/-- A message in verbose mode is shown as what its arguments are shown as, with blanks between
them, and its payload is read up to the end of the last one. -/
theorem payloadVerbose_shown {noar : UInt8} {text : List Char}
    (hargs : ∀ a ∈ args, a.Readable settings) (hmsb : msg.isMsbf = false)
    (hfloat : ∀ width n, '\x00' ∉ settings.printFloat width n)
    (hdata : msg.databuffer = args.flatMap Argument.bytes ++ rest)
    (hshort : msg.databuffer.length < 2147483648) (hnoar : noar.toNat = args.length)
    (hroom : argumentsRoom settings args < textlength) (hsmall : textlength < 2147483648)
    (hmemory : textlength ≤ text.length) :
    ∃ s : PayloadLoop, mctMessagePayloadVerbose settings msg textlength noar text = (.ok, s) ∧
      stringAt s.text 0 = argumentsText settings args ∧ s.reader = ⟨rest, rest.length⟩ := by
  have hempty : stringAt (text.set 0 '\x00') 0 = [] := by
    cases text with
    | nil => rfl
    | cons c text => rfl
  have hstart : (PayloadLoop.mk ⟨msg.databuffer, int32 msg.databuffer.length⟩ [0, 0, 0, 0]
      (text.set 0 '\x00')).Between textlength [] (args.flatMap Argument.bytes ++ rest)
        (argumentsRoom settings args) := by
    refine ⟨hempty, ?_, ?_, ?_⟩
    · rw [int32_natCast hshort, hdata]
    · rw [List.length_nil]
      omega
    · rw [List.length_set]
      exact hmemory
  rw [mctMessagePayloadVerbose, if_neg (by omega), hnoar]
  cases args with
  | nil => exact ⟨_, rfl, hstart.string, hstart.reader⟩
  | cons a args =>
      rw [argumentsRoom_cons, List.flatMap_cons, List.append_assoc] at hstart
      obtain ⟨s, hs, hbetween⟩ := printNext_shown (hargs a List.mem_cons_self) hmsb hfloat hsmall
        hstart
      obtain ⟨s', hs', hlast⟩ := printArguments_shown
        (fun b hb => hargs b (List.mem_cons_of_mem a hb)) hmsb hfloat hsmall hbetween
      refine ⟨s', ?_, ?_, hlast.reader⟩
      · rw [List.length_cons, printArguments, if_pos rfl, hs]
        exact hs'
      · rw [argumentsText_cons, hlast.string, List.nil_append]

end Runs

end MctDaemon.Shared
