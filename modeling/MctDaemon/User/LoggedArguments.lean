import MctDaemon.Shared.VerbosePayload
import MctDaemon.User.Utf8Truncation

/-!
What the `mct_user_log_write_*` calls put into a message in verbose mode, as arguments. A call adds
its argument if that fits into what is left of the buffer; a string that does not fit is added
without its end, if at least the message about that fits; every other call adds nothing.
-/

namespace MctDaemon.User

open Lib Shared

section Arguments

/-- A name or a unit in memory ends at its zero. -/
def textOf (name : Option (List UInt8)) : Option (List UInt8) :=
  name.map fun bytes => bytes.takeWhile (· ≠ 0)

def rawArgument (data : Option (List UInt8)) (length : UInt16) (type : UInt32)
    (name : Option (Option (List UInt8))) : Option Argument :=
  if data = none ∧ length ≠ 0 ∨ formatOutOfRange type then none
  else some (.raw ((data.getD []).take length.toNat) type name)

def stringArgument (type : StringType) (text : Option Text) (length : Option UInt16)
    (name : Option (Option (List UInt8))) : Option Argument :=
  text.map fun text => .string type (text.bytes.take (textLength text length).toNat ++ [0]) name

/-- The part of a string that is kept if its end does not fit into `room` bytes, with the message
about that. -/
def cutString (room : Nat) (type : StringType) (text : Option Text)
    (name : Option (Option (List UInt8))) : Option Argument :=
  text.bind fun text =>
    let minPayload := strTruncateMessageLength + stringOverhead true name.join name.isSome
    if room < minPayload then none
    else
      let maxPayload := room - minPayload
      some (.string type (text.bytes.take (maxPayload - reduceSize text type maxPayload) ++
        (strTruncatedMessage ++ [0])) name)

namespace LogWrite

/-- The argument of a call, none if the call is refused. -/
def argument : LogWrite → Option Argument
  | number data => some (.number data none)
  | numberAttr data name unit => some (.number data (some (textOf name, textOf unit)))
  | uintFormatted data type => if formatOutOfRange type then none else some (.formatted data type)
  | bool data => some (.bool data none)
  | boolAttr data name => some (.bool data (some (textOf name)))
  | raw data length type => rawArgument data length type none
  | rawAttr data length type name => rawArgument data length type (some (textOf name))
  | string _ type text length => stringArgument type text length none
  | stringAttr _ type text length name => stringArgument type text length (some (textOf name))

/-- What is added of a call whose argument does not fit. -/
def cut (room : Nat) : LogWrite → Option Argument
  | string _ type text _ => cutString room type text none
  | stringAttr _ type text _ name => cutString room type text (some (textOf name))
  | _ => none

/-- The argument that a call adds to a message with `room` bytes left. -/
def added (room : Nat) (call : LogWrite) : Option Argument :=
  call.argument.bind fun a => if a.bytes.length ≤ room then some a else call.cut room

/-- A name or a unit whose length fits into its field. -/
def ShortText (name : Option (List UInt8)) : Prop := ∀ bytes ∈ name, strlen bytes < 65535

/-- The value of a call is not printed over its name, and binary digits are asked for 8 or 16 bits
only. -/
def Shows (settings : PrintSettings) : LogWrite → Prop
  | numberAttr data name unit =>
      (Argument.number data (some (textOf name, textOf unit))).PrintedBehind settings
  | uintFormatted data type => mctFormatBin8 ≤ type → data.width ≤ 2
  | _ => True

/-- The memory that a call is given is as long as it says, and its names are not too long. -/
def Proper : LogWrite → Prop
  | numberAttr _ name unit => ShortText name ∧ ShortText unit
  | boolAttr _ name => ShortText name
  | raw data length _ => ∀ bytes ∈ data, length.toNat ≤ bytes.length
  | rawAttr data length _ name => (∀ bytes ∈ data, length.toNat ≤ bytes.length) ∧ ShortText name
  | string _ _ text length => ∀ t ∈ text, (textLength t length).toNat ≤ t.bytes.length
  | stringAttr _ _ text length name =>
      (∀ t ∈ text, (textLength t length).toNat ≤ t.bytes.length) ∧ ShortText name
  | _ => True

end LogWrite

end Arguments

namespace Writing

/-- A writer has put these bytes behind the message, and nothing else has changed. -/
structure Adds (w w' : Writing) (bytes : List UInt8) : Prop where
  message : w'.message = w.message ++ bytes
  size : w'.log.size = w.log.size + bytes.length
  buffer : w'.log.buffer.length = w.log.buffer.length
  args : w'.log.argsNum = w.log.argsNum
  verbose : w'.log.verboseMode = w.log.verboseMode

variable {w w' w'' : Writing} {bytes bytes' src : List UInt8} {n : Nat}
  {name unit : Option (List UInt8)}

theorem Adds.trans (h : w.Adds w' bytes) (h' : w'.Adds w'' bytes') :
    w.Adds w'' (bytes ++ bytes') where
  message := by rw [h'.message, h.message, List.append_assoc]
  size := by
    rw [h'.size, h.size, List.length_append]
    omega
  buffer := h'.buffer.trans h.buffer
  args := h'.args.trans h.args
  verbose := h'.verbose.trans h.verbose

theorem adds_nothing (w : Writing) : w.Adds w [] :=
  ⟨(List.append_nil _).symm, rfl, rfl, rfl, rfl⟩

/-- A copy behind what has been put there. -/
theorem Adds.append (h : w.Adds w' bytes) (hn : n ≤ src.length)
    (hroom : w.log.size + (bytes.length + n) ≤ w.log.buffer.length) :
    w.Adds (w'.append src n) (bytes ++ src.take n) := by
  obtain ⟨hmessage, hbuffer⟩ := @append_message w' src n hn (by rw [h.size, h.buffer]; omega)
  refine h.trans ⟨hmessage, ?_, hbuffer, rfl, rfl⟩
  rw [append_size, List.length_take_of_le hn]

/-- The bytes that are copied are all there are. -/
theorem Adds.whole (h : w.Adds w' bytes) (hn : src.length = n)
    (hroom : w.log.size + (bytes.length + n) ≤ w.log.buffer.length) :
    w.Adds (w'.append src n) (bytes ++ src) := by
  have hadds := h.append hn.ge hroom
  rwa [List.take_of_length_le hn.le] at hadds

theorem attributeBytes_textOf : attributeBytes (textOf name) = attributeBytes name := by
  cases name with
  | none => rfl
  | some bytes =>
      change (List.takeWhile _ (List.takeWhile _ bytes)) ++ [0] = List.takeWhile _ bytes ++ [0]
      rw [List.takeWhile_idem]

theorem attributeSize_textOf : attributeSize (textOf name) = attributeSize name := by
  cases name with
  | none => rfl
  | some bytes =>
      change ((List.takeWhile _ (List.takeWhile _ bytes)).length + 1) % 65536 = _
      rw [List.takeWhile_idem]
      rfl

theorem validAttribute_textOf (h : LogWrite.ShortText name) : ValidAttribute (textOf name) := by
  intro bytes hbytes
  obtain ⟨memory, hmemory, rfl⟩ := Option.map_eq_some_iff.mp hbytes
  refine ⟨fun hzero => ?_, h memory hmemory⟩
  simpa using List.mem_takeWhile_imp hzero

theorem attributeBytes_length (h : LogWrite.ShortText name) :
    (attributeBytes name).length = attributeSize name := by
  have hsize := (attributeSize_of_valid (validAttribute_textOf h)).1
  rwa [attributeSize_textOf, attributeBytes_textOf, eq_comm] at hsize

theorem Adds.attribute (h : w.Adds w' bytes) (hname : LogWrite.ShortText name)
    (hroom : w.log.size + (bytes.length + attributeSize name) ≤ w.log.buffer.length) :
    w.Adds (w'.appendAttribute name) (bytes ++ attributeBytes name) := by
  have hlength := attributeBytes_length hname
  rw [appendAttribute]
  split
  · exact h.whole hlength hroom
  · next hzero =>
      rw [not_not.mp hzero] at hlength
      rwa [List.length_eq_zero_iff.mp hlength, List.append_nil]

theorem nameField_length (hname : LogWrite.ShortText name) :
    (nameField (some (textOf name))).length = 2 + attributeSize name := by
  rw [nameField, Option.elim_some, List.length_append, leBytes_length, attributeBytes_textOf,
    attributeBytes_length hname]

/-- The name of a raw argument, of a string or of a boolean. -/
theorem Adds.named (h : w.Adds w' bytes) (hname : LogWrite.ShortText name)
    (hroom : w.log.size + (bytes.length + (2 + attributeSize name)) ≤ w.log.buffer.length) :
    w.Adds (w'.appendName name) (bytes ++ nameField (some (textOf name))) := by
  have hsize := h.whole (leBytes_length 2 (attributeSize name)) (by omega)
  have hadds := hsize.attribute hname (by rw [List.length_append, leBytes_length]; omega)
  rw [nameField, Option.elim_some, attributeSize_textOf, attributeBytes_textOf,
    ← List.append_assoc]
  exact hadds

theorem nameUnitField_length (hname : LogWrite.ShortText name) (hunit : LogWrite.ShortText unit) :
    (nameUnitField (some (textOf name, textOf unit))).length =
      2 + attributeSize name + (2 + attributeSize unit) := by
  simp only [nameUnitField, Option.elim_some, List.length_append, leBytes_length,
    attributeBytes_textOf, attributeBytes_length hname, attributeBytes_length hunit]
  omega

/-- Name and unit of a number. -/
theorem Adds.nameUnit (h : w.Adds w' bytes) (hname : LogWrite.ShortText name)
    (hunit : LogWrite.ShortText unit)
    (hroom : w.log.size + (bytes.length + (2 + attributeSize name + (2 + attributeSize unit))) ≤
      w.log.buffer.length) :
    w.Adds (w'.appendVarInfo ⟨name, unit, true⟩)
      (bytes ++ nameUnitField (some (textOf name, textOf unit))) := by
  have hsize := h.whole (leBytes_length 2 (attributeSize name)) (by omega)
  have hsizes := hsize.whole (leBytes_length 2 (attributeSize unit))
    (by rw [List.length_append, leBytes_length]; omega)
  have hnamed := hsizes.attribute hname
    (by rw [List.length_append, List.length_append, leBytes_length, leBytes_length]; omega)
  have hall := hnamed.attribute hunit (by
    rw [List.length_append, List.length_append, List.length_append, leBytes_length, leBytes_length,
      attributeBytes_length hname]
    omega)
  simp only [nameUnitField, Option.elim_some, attributeSize_textOf, attributeBytes_textOf]
  rw [List.append_assoc, List.append_assoc, List.append_assoc] at hall
  exact hall

/-- The field for the name, if there is one. -/
theorem fieldLength {name : Option (Option (List UInt8))} (hname : LogWrite.ShortText name.join) :
    (nameField (name.map textOf)).length =
      if name.isSome then 2 + attributeSize name.join else 0 := by
  cases name with
  | none => rfl
  | some name => exact nameField_length hname

theorem Adds.field {name : Option (Option (List UInt8))} (h : w.Adds w' bytes)
    (hname : LogWrite.ShortText name.join)
    (hroom : w.log.size + (bytes.length + if name.isSome then 2 + attributeSize name.join else 0) ≤
      w.log.buffer.length) :
    w.Adds (if name.isSome then w'.appendName name.join else w')
      (bytes ++ nameField (name.map textOf)) := by
  cases name with
  | none =>
      rw [Option.map_none, nameField, Option.elim_none, List.append_nil]
      exact h
  | some name => exact h.named hname hroom

/-- What stands in front of a string. -/
theorem adds_stringHeader {type : StringType} {argSize : Nat}
    {name : Option (Option (List UInt8))} (hname : LogWrite.ShortText name.join)
    (hroom : w.log.size + stringOverhead true name.join name.isSome ≤ w.log.buffer.length) :
    w.Adds (w.appendStringHeader true type argSize name.join name.isSome)
      (leBytes 4 (stringTypeInfo type name.isSome).toNat ++ (leBytes 2 argSize ++
        nameField (name.map textOf))) := by
  rw [stringOverhead, if_pos rfl] at hroom
  have htypeInfo := (adds_nothing w).whole
    (leBytes_length 4 (stringTypeInfo type name.isSome).toNat)
    (by simp only [List.length_nil]; omega)
  have hlengths := htypeInfo.whole (leBytes_length 2 argSize)
    (by simp only [List.nil_append, leBytes_length]; omega)
  have hall := hlengths.field hname
    (by simp only [List.nil_append, List.length_append, leBytes_length]; omega)
  rw [List.nil_append, List.append_assoc] at hall
  rw [appendStringHeader]
  simp only [true_and]
  exact hall

end Writing

section Calls

variable {user : MctUser} {log : MctContextData} {a : Argument}

/-- The message with one more argument. -/
structure Stored (log after : MctContextData) (a : Argument) : Prop where
  message : after.buffer.take after.size = log.buffer.take log.size ++ a.bytes
  size : after.size = log.size + a.bytes.length
  buffer : after.buffer.length = log.buffer.length
  args : after.argsNum = log.argsNum + 1
  verbose : after.verboseMode = log.verboseMode

theorem Writing.Adds.stored {w : Writing} (h : (⟨log, []⟩ : Writing).Adds w a.bytes) :
    Stored log w.countArgument.log a :=
  ⟨h.message, h.size, h.buffer, congrArg (· + 1) h.args, h.verbose⟩

/-- The message with what a call has added. -/
def AddsTo (log : MctContextData) : Option Argument → MctContextData → Prop
  | none, after => after = log
  | some a, after => Stored log after a

theorem Argument.bytes_length : a.bytes.length = 4 + a.body.length := by
  rw [Argument.bytes, List.length_append, leBytes_length]

variable (hinit : user.initialised) (hverbose : isVerboseMode user log)
  (hlog : WellFormed user.logBufLen log)

include hinit hverbose hlog

/-- Numbers and booleans. -/
theorem genericAttr_adds {data : List UInt8} {typeInfo : UInt32} {varinfo : Option VarInfo}
    {field : List UInt8} (hfield : varinfo.elim 0 VarInfo.size = field.length)
    (htype : a.typeInfo = varinfo.elim typeInfo fun _ => typeInfo ||| mctTypeInfoVari)
    (hbody : a.body = field ++ data)
    (hadds : ∀ w w' : Writing, ∀ bytes, w.Adds w' bytes →
      w.log.size + (bytes.length + field.length) ≤ w.log.buffer.length →
      w.Adds (varinfo.elim w' w'.appendVarInfo) (bytes ++ field)) :
    AddsTo log (if a.bytes.length ≤ user.logBufLen.toNat - log.size then some a else none)
      (mctUserLogWriteGenericAttr user log data typeInfo varinfo).2.log := by
  have hsize := hlog.size_le
  have hlength : a.bytes.length = data.length + 4 + varinfo.elim 0 VarInfo.size := by
    rw [Argument.bytes_length, hbody, List.length_append, hfield]
    omega
  by_cases hfits : a.bytes.length ≤ user.logBufLen.toNat - log.size
  · have hbuffer := hlog.buffer_length
    rw [if_pos hfits]
    dsimp only [mctUserLogWriteGenericAttr]
    rw [if_neg (not_not.mpr hinit), if_neg (by omega), if_neg (by omega), if_pos hverbose,
      if_pos hverbose]
    apply Writing.Adds.stored
    rw [hfield] at hlength
    have htypeInfo := (Writing.adds_nothing ⟨log, []⟩).whole
      (leBytes_length 4 (varinfo.elim typeInfo fun _ => typeInfo ||| mctTypeInfoVari).toNat)
      (by simp only [List.length_nil]; omega)
    rw [List.nil_append] at htypeInfo
    have hattributes := hadds _ _ _ htypeInfo (by rw [leBytes_length]; simp only; omega)
    have hdata := hattributes.whole (rfl : data.length = _)
      (by rw [List.length_append, leBytes_length]; simp only; omega)
    rw [Argument.bytes, hbody, htype, ← List.append_assoc]
    exact hdata
  · rw [if_neg hfits]
    change _ = log
    dsimp only [mctUserLogWriteGenericAttr]
    rw [if_neg (not_not.mpr hinit)]
    split
    · rfl
    · rw [if_pos ⟨hverbose, by omega⟩]

/-- Numbers in the digits of a format. -/
theorem genericFormatted_adds {data : Unsigned} {type : UInt32} :
    AddsTo log
      ((if formatOutOfRange type then none else some (Argument.formatted data type)).bind fun a =>
        if a.bytes.length ≤ user.logBufLen.toNat - log.size then some a else none)
      (mctUserLogWriteGenericFormatted user log data.bytes (mctTypeInfoUint ||| data.tyle)
        type).2.log := by
  have hsize := hlog.size_le
  have hlength : (Argument.formatted data type).bytes.length = 4 + data.bytes.length :=
    Argument.bytes_length
  dsimp only [mctUserLogWriteGenericFormatted]
  by_cases htype : formatOutOfRange type
  · rw [if_pos htype, if_pos htype]
    rfl
  rw [if_neg htype, if_neg htype, Option.bind_some]
  by_cases hfits : (Argument.formatted data type).bytes.length ≤ user.logBufLen.toNat - log.size
  · have hbuffer := hlog.buffer_length
    rw [if_pos hfits, if_neg (not_not.mpr hinit), if_neg (by omega), if_neg (by omega),
      if_pos hverbose]
    apply Writing.Adds.stored
    have htypeInfo := (Writing.adds_nothing ⟨log, []⟩).whole
      (leBytes_length 4 (formattedTypeInfo (mctTypeInfoUint ||| data.tyle) type).toNat)
      (by simp only [List.length_nil]; omega)
    exact htypeInfo.whole rfl (by simp only [List.nil_append, leBytes_length]; omega)
  · rw [if_neg hfits]
    change _ = log
    rw [if_neg (not_not.mpr hinit)]
    split
    · rfl
    · rw [if_pos ⟨hverbose, by omega⟩]

/-- Raw data. -/
theorem raw_adds {data : Option (List UInt8)} {length : UInt16} {type : UInt32}
    {name : Option (Option (List UInt8))} (hname : LogWrite.ShortText name.join)
    (hdata : ∀ bytes ∈ data, length.toNat ≤ bytes.length) :
    AddsTo log
      ((rawArgument data length type (name.map textOf)).bind fun a =>
        if a.bytes.length ≤ user.logBufLen.toNat - log.size then some a else none)
      (mctUserLogWriteRawInternal user log data length type name.join name.isSome).2.log := by
  have hsize := hlog.size_le
  dsimp only [mctUserLogWriteRawInternal, rawArgument]
  by_cases hnone : data = none ∧ length ≠ 0
  · rw [if_pos (.inl hnone), if_pos hnone]
    rfl
  by_cases htype : formatOutOfRange type
  · rw [if_pos (.inr htype), if_neg hnone, if_pos htype]
    rfl
  have hmemory : length.toNat ≤ (data.getD []).length := by
    cases data with
    | none =>
        have hzero : length = 0 := by_contra fun hne => hnone ⟨rfl, hne⟩
        rw [hzero]
        exact Nat.zero_le _
    | some bytes => exact hdata bytes rfl
  have htake : ((data.getD []).take length.toNat).length = length.toNat :=
    List.length_take_of_le hmemory
  rw [if_neg (not_or.mpr ⟨hnone, htype⟩), if_neg hnone, if_neg htype, Option.bind_some]
  have hlength : (Argument.raw ((data.getD []).take length.toNat) type
      (name.map textOf)).bytes.length = length.toNat + 2 +
        (4 + if name.isSome then 2 + attributeSize name.join else 0) := by
    rw [Argument.bytes_length, Argument.body, List.length_append,
      List.length_append, leBytes_length, Writing.fieldLength hname, htake]
    omega
  generalize ha : Argument.raw ((data.getD []).take length.toNat) type (name.map textOf) = a at *
  by_cases hfits : a.bytes.length ≤ user.logBufLen.toNat - log.size
  · have hbuffer := hlog.buffer_length
    rw [if_pos hfits, if_neg (not_not.mpr hinit), if_neg (by omega), if_neg (by omega),
      if_pos hverbose]
    apply Writing.Adds.stored
    have htypeInfo := (Writing.adds_nothing ⟨log, []⟩).whole
      (leBytes_length 4 (rawTypeInfo type name.isSome).toNat)
      (by simp only [List.length_nil]; omega)
    have hlengths := htypeInfo.whole (leBytes_length 2 length.toNat)
      (by simp only [List.nil_append, leBytes_length]; omega)
    have hnamed := hlengths.field hname
      (by simp only [List.nil_append, List.length_append, leBytes_length]; omega)
    have hall := hnamed.append hmemory
      (by
        simp only [List.nil_append, List.length_append, leBytes_length, Writing.fieldLength hname]
        omega)
    rw [← ha, Argument.bytes, Argument.body, Argument.typeInfo, Option.isSome_map, htake]
    simp only [hverbose, true_and, List.nil_append, List.append_assoc] at hall ⊢
    exact hall
  · rw [if_neg hfits]
    change _ = log
    rw [if_neg (not_not.mpr hinit)]
    split
    · rfl
    · rw [if_pos ⟨hverbose, by omega⟩]

variable {text : Text} {length : UInt16} {type : StringType}
  {name : Option (Option (List UInt8))}

omit hinit hverbose hlog in
theorem string_length {bytes : List UInt8} (hname : LogWrite.ShortText name.join) :
    (Argument.string type bytes (name.map textOf)).bytes.length =
      bytes.length + stringOverhead true name.join name.isSome := by
  rw [Argument.bytes_length, Argument.body, List.length_append, List.length_append, leBytes_length,
    Writing.fieldLength hname, stringOverhead, if_pos rfl]
  omega

omit hinit hverbose hlog in
theorem stringOverhead_textOf :
    stringOverhead true (name.map textOf).join (name.map textOf).isSome =
      stringOverhead true name.join name.isSome := by
  cases name with
  | none => rfl
  | some name =>
      simp only [stringOverhead, Option.map_some, Option.join_some, Option.isSome_some,
        Writing.attributeSize_textOf]

/-- A string that fits. -/
theorem wholeString_adds (hname : LogWrite.ShortText name.join) (hlength : length ≠ 65535)
    (hmemory : length.toNat ≤ text.bytes.length)
    (hfits : log.size + (length.toNat + 1) + stringOverhead true name.join name.isSome ≤
      user.logBufLen.toNat) :
    Stored log (mctUserLogWriteSizedStringUtilsAttr user log (some text) length type name.join
      name.isSome).2.log
      (.string type (text.bytes.take length.toNat ++ [0]) (name.map textOf)) := by
  have hbuffer := hlog.buffer_length
  have hsucc := length_succ hlength
  have htake := List.length_take_of_le hmemory
  dsimp only [mctUserLogWriteSizedStringUtilsAttr]
  rw [if_neg (not_not.mpr hinit), hverbose, hsucc, if_neg (by omega)]
  apply Writing.Adds.stored
  have hheader := @Writing.adds_stringHeader ⟨log, []⟩ type (length.toNat + 1) name hname
    (by simp only; omega)
  have hsize := hheader.size
  rw [Writing.appendStringHeader_size] at hsize
  have htext := hheader.append hmemory (by simp only at hsize ⊢; omega)
  have hall := htext.whole (rfl : [(0 : UInt8)].length = 1)
    (by rw [List.length_append, htake, List.length_singleton]; simp only at hsize ⊢; omega)
  rw [Argument.bytes, Argument.body, Argument.typeInfo, Option.isSome_map, List.length_append,
    htake]
  simp only [List.append_assoc] at hall ⊢
  exact hall

/-- A string that does not fit, with the message about its end. -/
theorem cutString_adds (hname : LogWrite.ShortText name.join) (hlength : length ≠ 65535)
    (hmemory : length.toNat ≤ text.bytes.length)
    (hfull : user.logBufLen.toNat <
      log.size + (length.toNat + 1) + stringOverhead true name.join name.isSome)
    (hreduce : strTruncateMessageLength + stringOverhead true name.join name.isSome ≤
        user.logBufLen.toNat - log.size →
      reduceSize text type (user.logBufLen.toNat - log.size -
          (strTruncateMessageLength + stringOverhead true name.join name.isSome)) ≤
        user.logBufLen.toNat - log.size -
          (strTruncateMessageLength + stringOverhead true name.join name.isSome)) :
    AddsTo log (cutString (user.logBufLen.toNat - log.size) type (some text) (name.map textOf))
      (mctUserLogWriteSizedStringUtilsAttr user log (some text) length type name.join
        name.isSome).2.log := by
  have hbound := user.logBufLen.toNat_lt
  have hsize := hlog.size_le
  have hbuffer := hlog.buffer_length
  have hsucc := length_succ hlength
  dsimp only [mctUserLogWriteSizedStringUtilsAttr, cutString]
  rw [Option.bind_some, stringOverhead_textOf, if_neg (not_not.mpr hinit), hverbose, hsucc,
    if_pos hfull]
  by_cases hmarker : log.size + strTruncateMessageLength +
      stringOverhead true name.join name.isSome > user.logBufLen.toNat
  · rw [if_pos hmarker, if_pos (by omega)]
    rfl
  · have hmost : user.logBufLen.toNat - (log.size + strTruncateMessageLength +
        stringOverhead true name.join name.isSome) = user.logBufLen.toNat - log.size -
          (strTruncateMessageLength + stringOverhead true name.join name.isSome) := by omega
    rw [if_neg hmarker, if_neg (by omega), hmost]
    replace hreduce := hreduce (by omega)
    generalize hroom : user.logBufLen.toNat - log.size -
      (strTruncateMessageLength + stringOverhead true name.join name.isSome) = maxPayload at *
    have hthree := reduceSize_le text type maxPayload
    generalize reduceSize text type maxPayload = reduce at *
    have hcopied : (((maxPayload : Int) - reduce) % 18446744073709551616).toNat =
        maxPayload - reduce := by omega
    have hargSize : (((user.logBufLen.toNat : Int) - log.size -
        (stringOverhead true name.join name.isSome : Nat) - reduce) % 65536).toNat =
          maxPayload - reduce + strTruncateMessageLength := by omega
    have hkept : (text.bytes.take (maxPayload - reduce)).length = maxPayload - reduce :=
      List.length_take_of_le (by omega)
    rw [hargSize, hcopied]
    apply Writing.Adds.stored
    have hheader := @Writing.adds_stringHeader ⟨log, []⟩ type
      (maxPayload - reduce + strTruncateMessageLength) name hname (by simp only; omega)
    have hstart := hheader.size
    rw [Writing.appendStringHeader_size] at hstart
    have htext := @Writing.Adds.append _ _ _ text.bytes (maxPayload - reduce) hheader (by omega)
      (by simp only at hstart ⊢; omega)
    have hall := htext.whole (rfl : (strTruncatedMessage ++ [0]).length = strTruncateMessageLength)
      (by rw [List.length_append, hkept]; simp only at hstart ⊢; omega)
    rw [Argument.bytes, Argument.body, Argument.typeInfo, Option.isSome_map, List.length_append,
      hkept]
    simp only [List.append_assoc] at hall ⊢
    exact hall

/-- The string functions, with the strings that are stored properly. -/
theorem sizedString_adds (hname : LogWrite.ShortText name.join)
    (hmemory : length.toNat ≤ text.bytes.length)
    (hstring : StringFits user log text length type name.join name.isSome) :
    AddsTo log
      (if (Argument.string type (text.bytes.take length.toNat ++ [0])
          (name.map textOf)).bytes.length ≤ user.logBufLen.toNat - log.size then
        some (.string type (text.bytes.take length.toNat ++ [0]) (name.map textOf))
      else cutString (user.logBufLen.toNat - log.size) type (some text) (name.map textOf))
      (mctUserLogWriteSizedStringUtilsAttr user log (some text) length type name.join
        name.isSome).2.log := by
  have hsize := hlog.size_le
  have hbound := user.logBufLen.toNat_lt
  rw [string_length hname, List.length_append, List.length_take_of_le hmemory,
    List.length_singleton]
  dsimp only [StringFits] at hstring
  rw [hverbose] at hstring
  by_cases hlength : length = 65535
  · -- no buffer is as long as such a string, and not even the message about it is stored
    subst hlength
    have hwrapped : ((65535 : UInt16) + 1).toNat = 0 := rfl
    have hwhole : (65535 : UInt16).toNat = 65535 := rfl
    rw [hwrapped] at hstring
    have hfull : ¬ log.size + 0 + stringOverhead true name.join name.isSome ≤
        user.logBufLen.toNat := by
      intro hfits
      rw [if_pos hfits] at hstring
      exact hstring rfl
    rw [if_neg (by omega)]
    dsimp only [mctUserLogWriteSizedStringUtilsAttr, cutString]
    rw [Option.bind_some, stringOverhead_textOf, if_neg (not_not.mpr hinit), hverbose, hwrapped,
      if_pos (by omega), if_pos (by omega), if_pos (by omega)]
    rfl
  · rw [length_succ hlength] at hstring
    by_cases hfits : log.size + (length.toNat + 1) + stringOverhead true name.join name.isSome ≤
        user.logBufLen.toNat
    · rw [if_pos (by omega)]
      exact wholeString_adds hinit hverbose hlog hname hlength hmemory hfits
    · rw [if_neg hfits] at hstring
      rw [if_neg (by omega)]
      refine cutString_adds hinit hverbose hlog hname hlength hmemory (by omega) fun hmarker => ?_
      have hmost : user.logBufLen.toNat - (log.size + strTruncateMessageLength +
          stringOverhead true name.join name.isSome) = user.logBufLen.toNat - log.size -
            (strTruncateMessageLength + stringOverhead true name.join name.isSome) := by omega
      rw [hmost] at hstring
      exact hstring (by omega)

omit hlog in
/-- A string call is one of the function with a length. -/
theorem writeString_adds {constant : Bool} {text : Option Text} {length : Option UInt16}
    (hlog : WellFormed user.logBufLen log) (hname : LogWrite.ShortText name.join)
    (hmemory : ∀ t ∈ text, (textLength t length).toNat ≤ t.bytes.length)
    (hstring : StringCallFits user log constant type text length name.join name.isSome) :
    AddsTo log
      ((stringArgument type text length (name.map textOf)).bind fun a =>
        if a.bytes.length ≤ user.logBufLen.toNat - log.size then some a
        else cutString (user.logBufLen.toNat - log.size) type text (name.map textOf))
      (writeString user log constant type text length name.join name.isSome).2.log := by
  cases text with
  | none =>
      rw [writeString_none fun _ => hverbose]
      rfl
  | some text =>
      rw [writeString_some text fun _ => hverbose, stringArgument, Option.map_some,
        Option.bind_some]
      exact sizedString_adds hinit hverbose hlog hname (hmemory text rfl)
        (hstring hinit (fun _ => hverbose) text rfl)

/-- Every call adds its argument to a message in verbose mode, or what fits of it. -/
theorem logWrite_adds {call : LogWrite} (hcall : call.Proper) (hfits : CallFits user log call) :
    AddsTo log (call.added (user.logBufLen.toNat - log.size)) (logWrite user log call).2.log := by
  have hnone : LogWrite.ShortText none := fun bytes hbytes => by cases hbytes
  cases call with
  | number data =>
      exact @genericAttr_adds user log (.number data none) hinit hverbose hlog data.bytes
        data.typeInfo none [] rfl rfl rfl fun w w' bytes h _ => by rwa [List.append_nil]
  | numberAttr data name unit =>
      have hsize : VarInfo.size ⟨name, unit, true⟩ =
          (nameUnitField (some (textOf name, textOf unit))).length :=
        (Writing.nameUnitField_length hcall.1 hcall.2).symm
      exact @genericAttr_adds user log (.number data (some (textOf name, textOf unit))) hinit
        hverbose hlog data.bytes data.typeInfo (some ⟨name, unit, true⟩)
        (nameUnitField (some (textOf name, textOf unit))) hsize rfl rfl fun w w' bytes h hroom =>
          h.nameUnit hcall.1 hcall.2 (by rw [← hsize] at hroom; exact hroom)
  | uintFormatted data type => exact genericFormatted_adds hinit hverbose hlog
  | bool data =>
      exact @genericAttr_adds user log (.bool data none) hinit hverbose hlog [data]
        (mctTypeInfoBool ||| mctTyle8bit) none [] rfl rfl rfl
        fun w w' bytes h _ => by rwa [List.append_nil]
  | boolAttr data name =>
      have hsize : VarInfo.size ⟨name, none, false⟩ = (nameField (some (textOf name))).length :=
        (Writing.nameField_length hcall).symm
      exact @genericAttr_adds user log (.bool data (some (textOf name))) hinit hverbose hlog [data]
        (mctTypeInfoBool ||| mctTyle8bit) (some ⟨name, none, false⟩)
        (nameField (some (textOf name))) hsize rfl rfl fun w w' bytes h hroom =>
          h.named hcall (by rw [← hsize] at hroom; exact hroom)
  | raw data length type =>
      exact @raw_adds user log hinit hverbose hlog data length type none hnone hcall
  | rawAttr data length type name =>
      exact @raw_adds user log hinit hverbose hlog data length type (some name) hcall.2 hcall.1
  | string constant type text length =>
      exact @writeString_adds user log hinit hverbose type none constant text length hlog hnone
        hcall hfits
  | stringAttr constant type text length name =>
      exact @writeString_adds user log hinit hverbose type (some name) constant text length hlog
        hcall.2 hcall.1 hfits

end Calls

section Readable

variable {settings : PrintSettings} {room : Nat} {a : Argument}

theorem type_lt {type : UInt32} (h : ¬ formatOutOfRange type) : type < mctFormatMax := by
  rw [formatOutOfRange, Bool.or_eq_true, not_or, decide_eq_true_iff, decide_eq_true_iff] at h
  exact UInt32.not_le.mp h.2

theorem printedBehind_unnamed (data : Number) :
    (Argument.number data none).PrintedBehind settings := by
  cases data with
  | unsigned data => exact .inl shownName_none
  | signed data => exact .inl shownName_none
  | float32 data => trivial
  | float64 data => trivial

theorem validAttribute_none : ValidAttribute none := fun bytes hbytes => by cases hbytes

/-- A string whose length fits into its field. -/
theorem string_readable {type : StringType} {text : List UInt8}
    {name : Option (Option (List UInt8))} (hname : ValidAttribute name.join) (hne : text ≠ [])
    (hlength : text.length < 65536) : (Argument.string type text name).Readable settings :=
  ⟨hname, validAttribute_none, ⟨hne, hlength⟩, trivial⟩

theorem raw_readable {data : Option (List UInt8)} {length : UInt16} {type : UInt32}
    {name : Option (Option (List UInt8))} (hname : ValidAttribute name.join)
    (ha : rawArgument data length type name = some a) : a.Readable settings := by
  rw [rawArgument, Option.ite_none_left_eq_some] at ha
  obtain ⟨hchecked, ha⟩ := ha
  cases ha
  refine ⟨hname, validAttribute_none, ⟨type_lt (not_or.mp hchecked).2, ?_⟩, trivial⟩
  exact lt_of_le_of_lt (List.length_take_le _ _) length.toNat_lt

theorem string_length_lt {type : StringType} {text : List UInt8}
    {name : Option (Option (List UInt8))} :
    text.length < (Argument.string type text name).bytes.length := by
  rw [Argument.bytes_length, Argument.body, List.length_append, List.length_append]
  omega

/-- What is kept of a string has room for its length. -/
theorem cutString_readable {type : StringType} {text : Option Text}
    {name : Option (Option (List UInt8))} (hname : ValidAttribute name.join) (hroom : room ≤ 65535)
    (ha : cutString room type text name = some a) : a.Readable settings := by
  rw [cutString, Option.bind_eq_some_iff] at ha
  obtain ⟨text, rfl, ha⟩ := ha
  dsimp only at ha
  rw [Option.ite_none_left_eq_some] at ha
  obtain ⟨hmarker, ha⟩ := ha
  cases ha
  have hkept := List.length_take_le (room - (strTruncateMessageLength +
    stringOverhead true name.join name.isSome) - reduceSize text type (room -
      (strTruncateMessageLength + stringOverhead true name.join name.isSome))) text.bytes
  have hmessage : (strTruncatedMessage ++ [0]).length = strTruncateMessageLength := rfl
  refine string_readable hname (by simp) ?_
  rw [List.length_append, hmessage]
  omega

theorem stringArgument_readable {type : StringType} {text : Option Text} {length : Option UInt16}
    {name : Option (Option (List UInt8))} (hname : ValidAttribute name.join) (hroom : room ≤ 65535)
    (ha : ((stringArgument type text length name).bind fun a =>
      if a.bytes.length ≤ room then some a else cutString room type text name) = some a) :
    a.Readable settings := by
  rw [Option.bind_eq_some_iff] at ha
  obtain ⟨whole, hwhole, ha⟩ := ha
  split at ha
  · next hfits =>
      cases ha
      obtain ⟨text, rfl, rfl⟩ := Option.map_eq_some_iff.mp hwhole
      exact string_readable hname (by simp) 
        (string_length_lt.trans_le (hfits.trans (hroom.trans (by decide))))
  · exact cutString_readable hname hroom ha

/-- What a call adds is shown as it was logged. -/
theorem added_readable {call : LogWrite} (hroom : room ≤ 65535) (hcall : call.Proper)
    (hshows : call.Shows settings) (ha : call.added room = some a) : a.Readable settings := by
  have hone : ∀ b : Argument, ((some b).bind fun a => if a.bytes.length ≤ room then some a else
      none) = some a → a = b := by
    intro b hb
    rw [Option.bind_some, Option.ite_none_right_eq_some, Option.some.injEq] at hb
    exact hb.2.symm
  have hraw : ∀ argument : Option Argument, (argument.bind fun a => if a.bytes.length ≤ room then
      some a else none) = some a → argument = some a := by
    intro argument hargument
    cases argument with
    | none => cases hargument
    | some b => rw [hone b hargument]
  cases call with
  | number data =>
      cases hone _ ha
      exact ⟨validAttribute_none, validAttribute_none, trivial, printedBehind_unnamed data⟩
  | numberAttr data name unit =>
      cases hone _ ha
      exact ⟨Writing.validAttribute_textOf hcall.1, Writing.validAttribute_textOf hcall.2, trivial,
        hshows⟩
  | uintFormatted data type =>
      have hformatted := hraw _ ha
      rw [LogWrite.argument, Option.ite_none_left_eq_some] at hformatted
      cases hformatted.2
      exact ⟨validAttribute_none, validAttribute_none, ⟨type_lt hformatted.1, hshows⟩, trivial⟩
  | bool data =>
      cases hone _ ha
      exact ⟨validAttribute_none, validAttribute_none, trivial, trivial⟩
  | boolAttr data name =>
      cases hone _ ha
      exact ⟨Writing.validAttribute_textOf hcall, validAttribute_none, trivial, trivial⟩
  | raw data length type => exact @raw_readable _ _ _ _ _ none validAttribute_none (hraw _ ha)
  | rawAttr data length type name =>
      exact @raw_readable _ _ _ _ _ (some (textOf name)) (Writing.validAttribute_textOf hcall.2)
        (hraw _ ha)
  | string constant type text length =>
      exact @stringArgument_readable _ _ _ _ _ _ none validAttribute_none hroom ha
  | stringAttr constant type text length name =>
      exact @stringArgument_readable _ _ _ _ _ _ (some (textOf name))
        (Writing.validAttribute_textOf hcall.2) hroom ha

end Readable

section Runs

variable {logBufLen : UInt16} {log : MctContextData}

def Call.added (room : Nat) (call : Call) : Option Argument :=
  if call.initialised then call.write.added room else none

/-- What calls add to a message of `size` bytes. -/
def addedRun (logBufLen : UInt16) : Nat → List Call → List Argument
  | _, [] => []
  | size, call :: calls =>
      match call.added (logBufLen.toNat - size) with
      | none => addedRun logBufLen size calls
      | some a => a :: addedRun logBufLen (size + a.bytes.length) calls

/-- A library that is not initialised adds nothing. -/
theorem logWrite_uninitialised {user : MctUser} (hinit : ¬ user.initialised) (call : LogWrite) :
    (logWrite user log call).2.log = log := by
  have hgeneric : ∀ data typeInfo varinfo,
      (mctUserLogWriteGenericAttr user log data typeInfo varinfo).2.log = log := by
    intro data typeInfo varinfo
    rw [mctUserLogWriteGenericAttr, if_pos hinit]
  have hraw : ∀ data length type name withVarInfo,
      (mctUserLogWriteRawInternal user log data length type name withVarInfo).2.log = log := by
    intro data length type name withVarInfo
    rw [mctUserLogWriteRawInternal, if_pos hinit]
    split
    · rfl
    · split
      · rfl
      · rfl
  have hsized : ∀ text length type name withVarInfo, (mctUserLogWriteSizedStringUtilsAttr user log
      text length type name withVarInfo).2.log = log := by
    intro text length type name withVarInfo
    cases text with
    | none => rfl
    | some text => rw [mctUserLogWriteSizedStringUtilsAttr, if_pos hinit]
  have hstring : ∀ constant type text length name withVarInfo,
      (writeString user log constant type text length name withVarInfo).2.log = log := by
    intro constant type text length name withVarInfo
    unfold writeString
    split
    · rfl
    · cases length with
      | some length => exact hsized _ _ _ _ _
      | none =>
          cases text with
          | none => rfl
          | some text => exact hsized _ _ _ _ _
  cases call with
  | number data => exact hgeneric _ _ _
  | numberAttr data name unit => exact hgeneric _ _ _
  | uintFormatted data type =>
      rw [logWrite, mctUserLogWriteGenericFormatted, if_pos hinit]
      split
      · rfl
      · rfl
  | bool data => exact hgeneric _ _ _
  | boolAttr data name => exact hgeneric _ _ _
  | raw data length type => exact hraw _ _ _ _ _
  | rawAttr data length type name => exact hraw _ _ _ _ _
  | string constant type text length => exact hstring _ _ _ _ _ _
  | stringAttr constant type text length name => exact hstring _ _ _ _ _ _

theorem writeStep_adds {call : Call} (hverbose : log.verboseMode) (hlog : WellFormed logBufLen log)
    (hcall : call.write.Proper) (hfits : CallFits (call.mctUser logBufLen) log call.write) :
    AddsTo log (call.added (logBufLen.toNat - log.size)) (writeStep logBufLen log call).2 := by
  rw [Call.added]
  split
  · next hinit =>
      have hmode : isVerboseMode (call.mctUser logBufLen) log := by
        rw [isVerboseMode, hverbose, Bool.or_true]
      exact @logWrite_adds (call.mctUser logBufLen) log hinit hmode hlog call.write hcall hfits
  · next hinit => exact @logWrite_uninitialised log (call.mctUser logBufLen) hinit call.write

/-- Any number of calls put their arguments behind each other. -/
theorem writeRun_adds {calls : List Call} (hverbose : log.verboseMode)
    (hlog : WellFormed logBufLen log) (hcalls : ∀ call ∈ calls, call.write.Proper)
    (hfits : Guarded (writeStep logBufLen)
      (fun log call => CallFits (call.mctUser logBufLen) log call.write) log calls) :
    let after := (runOps (writeStep logBufLen) log calls).2
    let args := addedRun logBufLen log.size calls
    after.buffer.take after.size = log.buffer.take log.size ++ args.flatMap Argument.bytes ∧
      after.argsNum = log.argsNum + args.length ∧ after.verboseMode ∧
        after.size ≤ logBufLen.toNat := by
  intro after args
  induction calls generalizing log with
  | nil => exact ⟨(List.append_nil _).symm, rfl, hverbose, hlog.size_le⟩
  | cons call calls ih =>
      obtain ⟨hfirst, hrest⟩ := hfits
      have hkeeps : KeepsBound logBufLen log call :=
        (@logWrite_iff (call.mctUser logBufLen) log hlog call.write).mpr hfirst
      have hnext : WellFormed logBufLen (writeStep logBufLen log call).2 :=
        @WithinBound.wellFormed (call.mctUser logBufLen) log call.write _ hlog hkeeps
      have hadds := writeStep_adds hverbose hlog (hcalls call List.mem_cons_self) hfirst
      have hlater : ∀ call ∈ calls, call.write.Proper :=
        fun later hlater => hcalls later (List.mem_cons_of_mem call hlater)
      change let after := (runOps (writeStep logBufLen) (writeStep logBufLen log call).2 calls).2
        after.buffer.take after.size = log.buffer.take log.size ++
            (addedRun logBufLen log.size (call :: calls)).flatMap Argument.bytes ∧
          after.argsNum = log.argsNum + (addedRun logBufLen log.size (call :: calls)).length ∧
            after.verboseMode ∧ after.size ≤ logBufLen.toNat
      rw [addedRun]
      generalize writeStep logBufLen log call = result at *
      cases hadded : call.added (logBufLen.toNat - log.size) with
      | none =>
          rw [hadded] at hadds
          have hsame : result.2 = log := hadds
          rw [hsame] at hrest ⊢
          exact ih hverbose hlog hlater hrest
      | some a =>
          rw [hadded] at hadds
          have hstored : Stored log result.2 a := hadds
          obtain ⟨hmessage, hargs, hmode, hsize⟩ :=
            ih (hstored.verbose.trans hverbose) hnext hlater hrest
          rw [hstored.message, hstored.size] at hmessage
          rw [hstored.args, hstored.size] at hargs
          refine ⟨?_, ?_, hmode, hsize⟩
          · rw [hmessage, List.flatMap_cons, List.append_assoc]
          · rw [hargs, List.length_cons]
            omega

/-- All that is added is shown as it was logged. -/
theorem addedRun_readable {settings : PrintSettings} {calls : List Call}
    (hcalls : ∀ call ∈ calls, call.write.Proper ∧ call.write.Shows settings) (size : Nat) :
    ∀ a ∈ addedRun logBufLen size calls, a.Readable settings := by
  have hbound := logBufLen.toNat_lt
  induction calls generalizing size with
  | nil =>
      intro a ha
      cases ha
  | cons call calls ih =>
      have hrest : ∀ size, ∀ a ∈ addedRun logBufLen size calls, a.Readable settings :=
        ih fun later hlater => hcalls later (List.mem_cons_of_mem call hlater)
      obtain ⟨hproper, hshows⟩ := hcalls call List.mem_cons_self
      intro a ha
      rw [addedRun] at ha
      cases hadded : call.added (logBufLen.toNat - size) with
      | none =>
          rw [hadded] at ha
          exact hrest size a ha
      | some b =>
          rw [hadded] at ha
          rcases List.mem_cons.mp ha with rfl | ha
          · rw [Call.added, Option.ite_none_right_eq_some] at hadded
            exact added_readable (by omega) hproper hshows hadded.2
          · exact hrest _ a ha

end Runs

end MctDaemon.User
