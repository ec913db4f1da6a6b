import MctDaemon.User.LogWrite
import MctDaemon.Lib.Run

/-!
What a `mct_user_log_write_*` call does to the message buffer: where it writes,
how much it appends, and what is left when it fails.
-/

namespace MctDaemon.User

open Lib Shared

namespace Writing

/-- Writes inside the first `bound` bytes keep the buffer's length. -/
def Framed (bound : Nat) (w : Writing) : Prop :=
  (∀ range ∈ w.stores, range.1 + range.2 ≤ bound) → w.log.buffer.length = bound

/-- A call that has only appended: nothing is written behind the message. -/
structure Appending (bound : Nat) (w : Writing) : Prop where
  covered : ∀ range ∈ w.stores, range.1 + range.2 ≤ w.log.size
  framed : w.Framed bound

variable {w : Writing} {bound : Nat}

theorem appending_start (log : MctContextData) :
    (⟨log, []⟩ : Writing).Appending log.buffer.length where
  covered := by
    intro range hrange
    cases hrange
  framed := fun _ => rfl

theorem Framed.store (h : w.Framed bound) (off : Nat) (src : List UInt8) (n : Nat) :
    (w.store off src n).Framed bound := by
  intro hstores
  have hlast : off + n ≤ bound := hstores (off, n) (by simp)
  have hlength := h fun range hrange => hstores range (by simp [hrange])
  have htaken : (src.take n).length ≤ n := by simp
  change (copyInto w.log.buffer off (src.take n)).length = bound
  rw [copyInto_length _ _ _ (by omega), hlength]

theorem Appending.append (h : w.Appending bound) (src : List UInt8) (n : Nat) :
    (w.append src n).Appending bound where
  covered := by
    intro range hrange
    rw [append_stores, List.mem_append, List.mem_singleton] at hrange
    rcases hrange with hrange | rfl
    · exact le_trans (h.covered range hrange) (Nat.le_add_right _ _)
    · exact le_refl _
  framed := h.framed.store w.log.size src n

variable {name : Option (List UInt8)} {verbose withVarInfo : Bool}

@[simp] theorem attributeSize_none : attributeSize none = 0 := rfl

@[simp] theorem appendAttribute_size (w : Writing) (text : Option (List UInt8)) :
    (w.appendAttribute text).log.size = w.log.size + attributeSize text := by
  unfold appendAttribute
  split
  · rfl
  · omega

@[simp] theorem appendAttribute_argsNum (w : Writing) (text : Option (List UInt8)) :
    (w.appendAttribute text).log.argsNum = w.log.argsNum := by
  unfold appendAttribute
  split <;> rfl

theorem Appending.appendAttribute (h : w.Appending bound) (text : Option (List UInt8)) :
    (w.appendAttribute text).Appending bound := by
  unfold Writing.appendAttribute
  split
  · exact h.append _ _
  · exact h

@[simp] theorem appendName_size (w : Writing) (name : Option (List UInt8)) :
    (w.appendName name).log.size = w.log.size + (2 + attributeSize name) := by
  simp [appendName, Nat.add_assoc]

@[simp] theorem appendName_argsNum (w : Writing) (name : Option (List UInt8)) :
    (w.appendName name).log.argsNum = w.log.argsNum := by
  simp [appendName]

theorem Appending.appendName (h : w.Appending bound) (name : Option (List UInt8)) :
    (w.appendName name).Appending bound :=
  (h.append _ _).appendAttribute name

/-- The attributes take the size that is counted for them, if a unit is given
only where units are written. -/
theorem appendVarInfo_size (w : Writing) {varinfo : VarInfo}
    (hunit : varinfo.withUnit = false → varinfo.unit = none) :
    (w.appendVarInfo varinfo).log.size = w.log.size + varinfo.size := by
  unfold appendVarInfo VarInfo.size
  cases hwith : varinfo.withUnit with
  | false =>
      simp [hunit hwith]
      omega
  | true =>
      simp
      omega

theorem Appending.appendVarInfo (h : w.Appending bound) (varinfo : VarInfo) :
    (w.appendVarInfo varinfo).Appending bound := by
  unfold Writing.appendVarInfo
  have hname := h.append (leBytes 2 (attributeSize varinfo.name)) 2
  split
  · exact ((hname.append _ _).appendAttribute _).appendAttribute _
  · exact (hname.appendAttribute _).appendAttribute _

variable {type : StringType} {argSize : Nat}

@[simp] theorem appendStringHeader_size (w : Writing) :
    (w.appendStringHeader verbose type argSize name withVarInfo).log.size =
      w.log.size + stringOverhead verbose name withVarInfo := by
  unfold appendStringHeader stringOverhead
  cases verbose with
  | false => simp
  | true =>
      cases withVarInfo with
      | false => simp
      | true =>
          simp
          omega

@[simp] theorem appendStringHeader_argsNum (w : Writing) :
    (w.appendStringHeader verbose type argSize name withVarInfo).log.argsNum = w.log.argsNum := by
  unfold appendStringHeader
  cases verbose <;> cases withVarInfo <;> simp

theorem Appending.appendStringHeader (h : w.Appending bound) :
    (w.appendStringHeader verbose type argSize name withVarInfo).Appending bound := by
  unfold Writing.appendStringHeader
  cases verbose with
  | false => exact h.append _ _
  | true =>
      cases withVarInfo with
      | false => exact (h.append _ _).append _ _
      | true => exact ((h.append _ _).append _ _).appendName name

end Writing

section Results

variable {user : MctUser} {log : MctContextData}

/-- A call that returned before its first write. -/
def Untouched (log : MctContextData) (result : MctReturnValue × Writing) : Prop :=
  result.1 ≠ .ok ∧ result.2 = ⟨log, []⟩

/-- A call that appended one argument of the given size. -/
structure Appended (user : MctUser) (log : MctContextData) (declared : Nat)
    (result : MctReturnValue × Writing) : Prop where
  ok : result.1 = .ok
  size_eq : result.2.log.size = log.size + declared
  size_le : result.2.log.size ≤ user.logBufLen.toNat
  appending : result.2.Appending log.buffer.length

theorem untouched_of_error {ret : MctReturnValue} (h : ret ≠ .ok) :
    Untouched log (ret, ⟨log, []⟩) := ⟨h, rfl⟩

theorem Writing.Appending.appended {w : Writing} {declared : Nat}
    (h : w.Appending log.buffer.length) (hsize : w.log.size = log.size + declared)
    (hfits : log.size + declared ≤ user.logBufLen.toNat) :
    Appended user log declared (.ok, w.countArgument) where
  ok := rfl
  size_eq := hsize
  size_le := hsize ▸ hfits
  appending := ⟨h.covered, h.framed⟩

def rawSize (verbose : Bool) (length : UInt16) (name : Option (List UInt8))
    (withVarInfo : Bool) : Nat :=
  length.toNat + 2 + if verbose then 4 + if withVarInfo then 2 + attributeSize name else 0 else 0

theorem raw_outcome (data : Option (List UInt8)) (length : UInt16) (type : UInt32)
    (name : Option (List UInt8)) (withVarInfo : Bool) :
    let result := mctUserLogWriteRawInternal user log data length type name withVarInfo
    Untouched log result ∨
      Appended user log (rawSize (isVerboseMode user log) length name withVarInfo) result := by
  have hstart := Writing.appending_start log
  dsimp only [mctUserLogWriteRawInternal, rawSize]
  by_cases hdata : data = none ∧ length ≠ 0
  · rw [if_pos hdata]
    exact .inl (untouched_of_error (by simp))
  by_cases htype : formatOutOfRange type
  · rw [if_neg hdata, if_pos htype]
    exact .inl (untouched_of_error (by simp))
  by_cases hinit : ¬ user.initialised
  · rw [if_neg hdata, if_neg htype, if_pos hinit]
    exact .inl (untouched_of_error (by simp))
  rw [if_neg hdata, if_neg htype, if_neg hinit]
  by_cases hsmall : log.size + (length.toNat + 2) > user.logBufLen.toNat
  · rw [if_pos hsmall]
    exact .inl (untouched_of_error (by simp))
  rw [if_neg hsmall]
  cases hverbose : isVerboseMode user log with
  | false =>
      refine .inr (Writing.Appending.appended ((hstart.append _ _).append _ _) ?_ ?_)
      · simp
        omega
      · simp
        omega
  | true =>
      cases withVarInfo with
      | false =>
          simp only [Bool.false_eq_true, true_and, if_true, if_false, and_false]
          split
          · exact .inl (untouched_of_error (by simp))
          refine .inr (Writing.Appending.appended
            (((hstart.append _ _).append _ _).append _ _) ?_ ?_)
          · simp
            omega
          · omega
      | true =>
          simp only [true_and, if_true]
          split
          · exact .inl (untouched_of_error (by simp))
          refine .inr (Writing.Appending.appended
            ((((hstart.append _ _).append _ _).appendName name).append _ _) ?_ ?_)
          · simp
            omega
          · omega

theorem generic_attr_outcome (data : List UInt8) (typeInfo : UInt32) (varinfo : Option VarInfo)
    (hunit : ∀ v ∈ varinfo, v.withUnit = false → v.unit = none) :
    let result := mctUserLogWriteGenericAttr user log data typeInfo varinfo
    Untouched log result ∨
      Appended user log (data.length +
        if isVerboseMode user log then 4 + varinfo.elim 0 VarInfo.size else 0) result := by
  have hstart := Writing.appending_start log
  dsimp only [mctUserLogWriteGenericAttr]
  by_cases hinit : ¬ user.initialised
  · rw [if_pos hinit]
    exact .inl (untouched_of_error (by simp))
  by_cases hsmall : log.size + data.length > user.logBufLen.toNat
  · rw [if_neg hinit, if_pos hsmall]
    exact .inl (untouched_of_error (by simp))
  rw [if_neg hinit, if_neg hsmall]
  cases hverbose : isVerboseMode user log with
  | false =>
      refine .inr (Writing.Appending.appended (hstart.append _ _) ?_ ?_)
      · simp
      · simp
        omega
  | true =>
      simp only [true_and, if_true]
      split
      · exact .inl (untouched_of_error (by simp))
      rename_i hlarge
      cases varinfo with
      | none =>
          refine .inr (Writing.Appending.appended ((hstart.append _ _).append _ _) ?_ ?_)
          · simp
            omega
          · simp at hlarge ⊢
            omega
      | some varinfo =>
          have hsize (w : Writing) := w.appendVarInfo_size (hunit varinfo rfl)
          refine .inr (Writing.Appending.appended
            (((hstart.append _ _).appendVarInfo varinfo).append _ _) ?_ ?_)
          · simp [hsize]
            omega
          · simp at hlarge ⊢
            omega

theorem generic_formatted_outcome (data : List UInt8) (typeInfo type : UInt32) :
    let result := mctUserLogWriteGenericFormatted user log data typeInfo type
    Untouched log result ∨
      Appended user log (data.length + if isVerboseMode user log then 4 else 0) result := by
  have hstart := Writing.appending_start log
  dsimp only [mctUserLogWriteGenericFormatted]
  by_cases htype : formatOutOfRange type
  · rw [if_pos htype]
    exact .inl (untouched_of_error (by simp))
  by_cases hinit : ¬ user.initialised
  · rw [if_neg htype, if_pos hinit]
    exact .inl (untouched_of_error (by simp))
  by_cases hsmall : log.size + data.length > user.logBufLen.toNat
  · rw [if_neg htype, if_neg hinit, if_pos hsmall]
    exact .inl (untouched_of_error (by simp))
  rw [if_neg htype, if_neg hinit, if_neg hsmall]
  cases hverbose : isVerboseMode user log with
  | false =>
      refine .inr (Writing.Appending.appended (hstart.append _ _) ?_ ?_)
      · simp
      · simp
        omega
  | true =>
      simp only [true_and, if_true]
      split
      · exact .inl (untouched_of_error (by simp))
      refine .inr (Writing.Appending.appended ((hstart.append _ _).append _ _) ?_ ?_)
      · simp
        omega
      · omega

end Results

section Bound

variable {user : MctUser} {log : MctContextData}

/-- A truncated string stands at the end of the message and counts as an
argument. -/
def StoredTruncated (before after : MctContextData) : Prop :=
  after.argsNum = before.argsNum + 1 ∧ before.size + strTruncateMessageLength ≤ after.size ∧
    slice after.buffer (after.size - strTruncateMessageLength) strTruncateMessageLength =
      strTruncatedMessage ++ [0]

/-- A call keeps to the message buffer and reports what it did. -/
structure WithinBound (user : MctUser) (log : MctContextData) (declared : Nat)
    (result : MctReturnValue × Writing) : Prop where
  size_le : result.2.log.size ≤ user.logBufLen.toNat
  stores_le : ∀ range ∈ result.2.stores, range.1 + range.2 ≤ user.logBufLen.toNat
  ok : result.1 = .ok → result.2.log.size = log.size + declared
  failed : result.1 ≠ .ok →
    result.2.log.size = log.size ∧ result.2.log.argsNum = log.argsNum ∨
      StoredTruncated log result.2.log

/-- The buffer of a message that is being built. -/
structure WellFormed (logBufLen : UInt16) (log : MctContextData) : Prop where
  size_le : log.size ≤ logBufLen.toNat
  buffer_length : log.buffer.length = logBufLen.toNat

theorem Untouched.withinBound {declared : Nat} {result : MctReturnValue × Writing}
    (h : Untouched log result) (hlog : WellFormed user.logBufLen log) :
    WithinBound user log declared result := by
  obtain ⟨hret, hsame⟩ := h
  refine ⟨?_, ?_, fun hok => absurd hok hret, fun _ => .inl ?_⟩
  · rw [hsame]
    exact hlog.size_le
  · rw [hsame]
    intro range hrange
    cases hrange
  · rw [hsame]
    exact ⟨rfl, rfl⟩

theorem Appended.withinBound {declared : Nat} {result : MctReturnValue × Writing}
    (h : Appended user log declared result) : WithinBound user log declared result where
  size_le := h.size_le
  stores_le := fun range hrange => le_trans (h.appending.covered range hrange) h.size_le
  ok := fun _ => h.size_eq
  failed := fun hret => absurd h.ok hret

def stringSize (verbose : Bool) (length : UInt16) (name : Option (List UInt8))
    (withVarInfo : Bool) : Nat :=
  length.toNat + 1 + stringOverhead verbose name withVarInfo

/-- The strings that are stored properly: `length + 1` is a `uint16_t` as well,
and a UTF-8 text is not cut by more than is left of it. -/
def StringFits (user : MctUser) (log : MctContextData) (text : Text) (length : UInt16)
    (type : StringType) (name : Option (List UInt8)) (withVarInfo : Bool) : Prop :=
  let overhead := stringOverhead (isVerboseMode user log) name withVarInfo
  let minPayload := log.size + strTruncateMessageLength + overhead
  if log.size + (length + 1).toNat + overhead ≤ user.logBufLen.toNat then length ≠ 65535
  else minPayload ≤ user.logBufLen.toNat →
    reduceSize text type (user.logBufLen.toNat - minPayload) ≤ user.logBufLen.toNat - minPayload

theorem reduceSize_le (text : Text) (type : StringType) (maxPayload : Nat) :
    reduceSize text type maxPayload ≤ 3 := by
  cases type with
  | ascii => exact Nat.zero_le 3
  | utf8 =>
      simp only [reduceSize, utf8ReduceSize]
      split_ifs <;> omega

/-- A call that has stored `copied` bytes of a text and the message about its
truncation, where `room` bytes of the text would have filled the buffer. -/
theorem truncated_iff {w : Writing} {declared copied : Nat} (src : List UInt8) (room : Nat)
    (hw : w.Appending user.logBufLen.toNat) (hsize : log.size ≤ w.log.size)
    (hargs : w.log.argsNum = log.argsNum)
    (hroom : w.log.size + room + strTruncateMessageLength = user.logBufLen.toNat) :
    WithinBound user log declared (.userBufferFull, ((w.append src copied).append
      (strTruncatedMessage ++ [0]) strTruncateMessageLength).countArgument) ↔
    copied ≤ room := by
  have hpart := hw.append src copied
  have hall := hpart.append (strTruncatedMessage ++ [0]) strTruncateMessageLength
  constructor
  · intro h
    have hlast := h.stores_le (w.log.size + copied, strTruncateMessageLength) (by simp)
    simp only at hlast
    omega
  · intro hcopied
    have hend : ((w.append src copied).append (strTruncatedMessage ++ [0])
        strTruncateMessageLength).log.size ≤ user.logBufLen.toNat := by
      simp only [Writing.append_size]
      omega
    have hlength : (w.append src copied).log.buffer.length = user.logBufLen.toNat := by
      refine hpart.framed fun range hrange => ?_
      have hcovered := hpart.covered range hrange
      simp only [Writing.append_size] at hcovered
      omega
    refine ⟨hend, ?_, nofun, fun _ => .inr ⟨?_, ?_, ?_⟩⟩
    · intro range hrange
      exact le_trans (hall.covered range hrange) hend
    · simp [hargs]
    · simp
      omega
    · have hself := slice_copyInto_self (w.append src copied).log.buffer
        (w.append src copied).log.size (strTruncatedMessage ++ [0])
        (by simp only [Writing.append_size]; omega)
      have hwhole : (strTruncatedMessage ++ [0]).take strTruncateMessageLength =
          strTruncatedMessage ++ [0] := List.take_of_length_le (by simp [strTruncateMessageLength])
      rw [Writing.countArgument_buffer, Writing.append_buffer, hwhole]
      simpa [strTruncateMessageLength] using hself

theorem length_succ {length : UInt16} (h : length ≠ 65535) :
    (length + 1).toNat = length.toNat + 1 := by
  have hlt := length.toNat_lt
  have hne : length.toNat ≠ 65535 := fun heq => h (UInt16.toNat_inj.mp heq)
  rw [UInt16.toNat_add]
  change (length.toNat + 1) % 65536 = _
  omega

variable {text : Text} {length : UInt16} {type : StringType} {name : Option (List UInt8)}
  {withVarInfo : Bool}

/-- A string that passes the check, whole. -/
theorem whole_string_iff (hinit : user.initialised)
    (hfits : log.size + (length + 1).toNat + stringOverhead (isVerboseMode user log) name
      withVarInfo ≤ user.logBufLen.toNat) :
    WithinBound user log (stringSize (isVerboseMode user log) length name withVarInfo)
      (mctUserLogWriteSizedStringUtilsAttr user log (some text) length type name withVarInfo) ↔
      length ≠ 65535 := by
  have hbound := user.logBufLen.toNat_lt
  dsimp only [mctUserLogWriteSizedStringUtilsAttr]
  rw [if_neg (not_not.mpr hinit), if_neg (not_lt.mpr hfits)]
  constructor
  · intro h hlength
    have hstore := h.stores_le (log.size + stringOverhead (isVerboseMode user log) name withVarInfo,
      length.toNat) (by simp)
    rw [hlength] at hstore
    change _ + 65535 ≤ _ at hstore
    have hoverhead : 2 ≤ stringOverhead (isVerboseMode user log) name withVarInfo :=
      Nat.le_add_right 2 _
    simp only at hstore
    omega
  · intro hlength
    rw [length_succ hlength] at hfits ⊢
    refine ⟨?_, ?_, ?_, fun hret => absurd rfl hret⟩
    · simp
      omega
    · intro range hrange
      simp only [Writing.countArgument_stores, Writing.advance_stores, Writing.store_stores,
        List.append_assoc, List.mem_append, List.mem_cons, List.not_mem_nil, or_false,
        List.cons_append, List.nil_append] at hrange
      rcases hrange with hheader | rfl | rfl
      · have hcovered := (Writing.appending_start log).appendStringHeader.covered range hheader
        simp at hcovered
        omega
      · simp
        omega
      · simp
        omega
    · intro _
      simp [stringSize]
      omega

/-- A string that does not pass the check: nothing is stored, or a part of it
with the message about the truncation. -/
theorem cut_string_iff (hinit : user.initialised) (hlog : WellFormed user.logBufLen log)
    (hfull : ¬ log.size + (length + 1).toNat + stringOverhead (isVerboseMode user log) name
      withVarInfo ≤ user.logBufLen.toNat) (declared : Nat) :
    let minPayload := log.size + strTruncateMessageLength +
      stringOverhead (isVerboseMode user log) name withVarInfo
    WithinBound user log declared
      (mctUserLogWriteSizedStringUtilsAttr user log (some text) length type name withVarInfo) ↔
      (minPayload ≤ user.logBufLen.toNat →
        reduceSize text type (user.logBufLen.toNat - minPayload) ≤
          user.logBufLen.toNat - minPayload) := by
  intro minPayload
  have hbound := user.logBufLen.toNat_lt
  dsimp only [mctUserLogWriteSizedStringUtilsAttr]
  rw [if_neg (not_not.mpr hinit), if_pos (not_le.mp hfull)]
  by_cases hmin : minPayload > user.logBufLen.toNat
  · rw [if_pos hmin]
    constructor
    · intro _ hle
      omega
    · intro _
      exact (untouched_of_error (by simp)).withinBound hlog
  rw [if_neg hmin]
  rw [imp_iff_right (not_lt.mp hmin)]
  have hstart := Writing.appending_start log
  rw [hlog.buffer_length] at hstart
  rw [truncated_iff text.bytes (user.logBufLen.toNat - minPayload) hstart.appendStringHeader
    (by simp) (by simp) (by simp; omega)]
  change ((((user.logBufLen.toNat - minPayload : Nat) : Int) -
    (reduceSize text type (user.logBufLen.toNat - minPayload) : Nat)) %
      18446744073709551616).toNat ≤ _ ↔ _
  have hthree := reduceSize_le text type (user.logBufLen.toNat - minPayload)
  omega

/-- A call of a string function without null pointers. -/
theorem string_iff (hinit : user.initialised) (hlog : WellFormed user.logBufLen log) :
    WithinBound user log (stringSize (isVerboseMode user log) length name withVarInfo)
      (mctUserLogWriteSizedStringUtilsAttr user log (some text) length type name withVarInfo) ↔
      StringFits user log text length type name withVarInfo := by
  dsimp only [StringFits]
  split
  · rename_i hfits
    exact whole_string_iff hinit hfits
  · rename_i hfull
    exact cut_string_iff hinit hlog hfull _

end Bound

section Calls

variable {user : MctUser} {log : MctContextData}

def textLength (text : Text) (length : Option UInt16) : UInt16 :=
  length.getD (strlen text.bytes).toUInt16

/-- The size that a string call declares: none where a constant string is left
out. -/
def stringCallSize (verbose constant : Bool) (text : Option Text) (length : Option UInt16)
    (name : Option (List UInt8)) (withVarInfo : Bool) : Nat :=
  if constant ∧ ¬ verbose then 0
  else text.elim 0 fun text => stringSize verbose (textLength text length) name withVarInfo

def declaredSize (verbose : Bool) : LogWrite → Nat
  | .number data => data.bytes.length + if verbose then 4 else 0
  | .numberAttr data name unit =>
      data.bytes.length + if verbose then 4 + VarInfo.size ⟨name, unit, true⟩ else 0
  | .uintFormatted data _ => data.bytes.length + if verbose then 4 else 0
  | .bool _ => 1 + if verbose then 4 else 0
  | .boolAttr _ name => 1 + if verbose then 4 + VarInfo.size ⟨name, none, false⟩ else 0
  | .raw _ length _ => rawSize verbose length none false
  | .rawAttr _ length _ name => rawSize verbose length name true
  | .string constant _ text length => stringCallSize verbose constant text length none false
  | .stringAttr constant _ text length name =>
      stringCallSize verbose constant text length name true

/-- A string call whose text, if it is stored, is stored properly. -/
def StringCallFits (user : MctUser) (log : MctContextData) (constant : Bool) (type : StringType)
    (text : Option Text) (length : Option UInt16) (name : Option (List UInt8))
    (withVarInfo : Bool) : Prop :=
  user.initialised → (constant → isVerboseMode user log) → ∀ t ∈ text,
    StringFits user log t (textLength t length) type name withVarInfo

def CallFits (user : MctUser) (log : MctContextData) : LogWrite → Prop
  | .string constant type text length =>
      StringCallFits user log constant type text length none false
  | .stringAttr constant type text length name =>
      StringCallFits user log constant type text length name true
  | _ => True

/-- A constant string outside the verbose mode. -/
theorem withinBound_skipped (hlog : WellFormed user.logBufLen log) :
    WithinBound user log 0 (.ok, ⟨log, []⟩) where
  size_le := hlog.size_le
  stores_le := nofun
  ok := fun _ => rfl
  failed := fun hret => absurd rfl hret

variable {text : Option Text} {length : Option UInt16} {type : StringType}
  {name : Option (List UInt8)} {withVarInfo constant : Bool}

theorem writeString_some (t : Text) (hwritten : constant → isVerboseMode user log) :
    writeString user log constant type (some t) length name withVarInfo =
      mctUserLogWriteSizedStringUtilsAttr user log (some t) (textLength t length) type name
        withVarInfo := by
  unfold writeString
  rw [if_neg (by tauto)]
  cases length <;> rfl

theorem writeString_none (hwritten : constant → isVerboseMode user log) :
    writeString user log constant type none length name withVarInfo =
      (.wrongParameter, ⟨log, []⟩) := by
  unfold writeString
  rw [if_neg (by tauto)]
  cases length <;> rfl

theorem writeString_iff (hlog : WellFormed user.logBufLen log) :
    WithinBound user log
      (stringCallSize (isVerboseMode user log) constant text length name withVarInfo)
      (writeString user log constant type text length name withVarInfo) ↔
      StringCallFits user log constant type text length name withVarInfo := by
  by_cases hwritten : constant → isVerboseMode user log
  · cases text with
    | none =>
        rw [writeString_none hwritten]
        refine iff_of_true ((untouched_of_error (by simp)).withinBound hlog) ?_
        intro _ _ t ht
        cases ht
    | some t =>
        rw [writeString_some t hwritten, stringCallSize, if_neg (by tauto)]
        by_cases hinit : user.initialised
        · refine (string_iff hinit hlog).trans ⟨fun h _ _ t' ht => ?_, fun h => ?_⟩
          · cases ht
            exact h
          · exact h hinit hwritten t rfl
        · refine iff_of_true ?_ (fun h => absurd h hinit)
          dsimp only [mctUserLogWriteSizedStringUtilsAttr]
          rw [if_pos hinit]
          exact (untouched_of_error (by simp)).withinBound hlog
  · have hskipped : constant ∧ ¬ isVerboseMode user log := by tauto
    rw [stringCallSize, if_pos hskipped]
    unfold writeString
    rw [if_pos hskipped]
    exact iff_of_true (withinBound_skipped hlog) (fun _ h => absurd h hwritten)

theorem withinBound_of_outcome {declared : Nat} {result : MctReturnValue × Writing}
    (hlog : WellFormed user.logBufLen log)
    (h : Untouched log result ∨ Appended user log declared result) :
    WithinBound user log declared result := by
  rcases h with h | h
  · exact h.withinBound hlog
  · exact h.withinBound

theorem logWrite_iff (hlog : WellFormed user.logBufLen log) (call : LogWrite) :
    WithinBound user log (declaredSize (isVerboseMode user log) call) (logWrite user log call) ↔
      CallFits user log call := by
  cases call with
  | number data =>
      exact iff_of_true (withinBound_of_outcome hlog (generic_attr_outcome _ _ none nofun)) trivial
  | numberAttr data name unit =>
      exact iff_of_true (withinBound_of_outcome hlog
        (generic_attr_outcome _ _ (some ⟨name, unit, true⟩) (by simp))) trivial
  | uintFormatted data type =>
      exact iff_of_true (withinBound_of_outcome hlog (generic_formatted_outcome _ _ type)) trivial
  | bool data =>
      exact iff_of_true (withinBound_of_outcome hlog
        (generic_attr_outcome [data] _ none nofun)) trivial
  | boolAttr data name =>
      exact iff_of_true (withinBound_of_outcome hlog
        (generic_attr_outcome [data] _ (some ⟨name, none, false⟩) (by simp))) trivial
  | raw data length type =>
      exact iff_of_true (withinBound_of_outcome hlog (raw_outcome data length type none false))
        trivial
  | rawAttr data length type name =>
      exact iff_of_true (withinBound_of_outcome hlog (raw_outcome data length type name true))
        trivial
  | string constant type text length => exact writeString_iff hlog
  | stringAttr constant type text length name => exact writeString_iff hlog

end Calls

section Runs

variable {user : MctUser} {log : MctContextData}

theorem framed_of_outcome {declared : Nat} {result : MctReturnValue × Writing}
    (h : Untouched log result ∨ Appended user log declared result) :
    result.2.Framed log.buffer.length := by
  rcases h with h | h
  · rw [h.2]
    exact fun _ => rfl
  · exact h.appending.framed

theorem sized_framed (text : Option Text) (length : UInt16) (type : StringType)
    (name : Option (List UInt8)) (withVarInfo : Bool) :
    (mctUserLogWriteSizedStringUtilsAttr user log text length type name withVarInfo).2.Framed
      log.buffer.length := by
  have hstart := Writing.appending_start log
  cases text with
  | none => exact hstart.framed
  | some text =>
      dsimp only [mctUserLogWriteSizedStringUtilsAttr]
      split
      · exact hstart.framed
      split
      · split
        · exact hstart.framed
        · exact ((hstart.appendStringHeader.append _ _).append _ _).framed
      · exact (hstart.appendStringHeader.framed.store _ _ _).store _ _ _

theorem writeString_framed (constant : Bool) (type : StringType) (text : Option Text)
    (length : Option UInt16) (name : Option (List UInt8)) (withVarInfo : Bool) :
    (writeString user log constant type text length name withVarInfo).2.Framed
      log.buffer.length := by
  unfold writeString
  split
  · exact (Writing.appending_start log).framed
  cases length with
  | none =>
      cases text with
      | none => exact (Writing.appending_start log).framed
      | some text => exact sized_framed _ _ _ _ _
  | some length => exact sized_framed _ _ _ _ _

/-- Every call that writes inside the buffer keeps the buffer's length. -/
theorem logWrite_framed (call : LogWrite) :
    (logWrite user log call).2.Framed log.buffer.length := by
  cases call with
  | number data => exact framed_of_outcome (generic_attr_outcome _ _ none nofun)
  | numberAttr data name unit =>
      exact framed_of_outcome (generic_attr_outcome _ _ (some ⟨name, unit, true⟩) (by simp))
  | uintFormatted data type => exact framed_of_outcome (generic_formatted_outcome _ _ type)
  | bool data => exact framed_of_outcome (generic_attr_outcome [data] _ none nofun)
  | boolAttr data name =>
      exact framed_of_outcome (generic_attr_outcome [data] _ (some ⟨name, none, false⟩) (by simp))
  | raw data length type => exact framed_of_outcome (raw_outcome data length type none false)
  | rawAttr data length type name =>
      exact framed_of_outcome (raw_outcome data length type name true)
  | string constant type text length => exact writeString_framed _ _ _ _ _ _
  | stringAttr constant type text length name => exact writeString_framed _ _ _ _ _ _

theorem WithinBound.wellFormed {call : LogWrite} {declared : Nat}
    (hlog : WellFormed user.logBufLen log)
    (h : WithinBound user log declared (logWrite user log call)) :
    WellFormed user.logBufLen (logWrite user log call).2.log where
  size_le := h.size_le
  buffer_length := by
    have hframed : (logWrite user log call).2.Framed log.buffer.length := logWrite_framed call
    rw [hlog.buffer_length] at hframed
    exact hframed h.stores_le

/-- A call together with the settings it finds; they may change between two
calls, all but the length of the buffer. -/
structure Call where
  initialised : Bool
  verboseMode : Bool
  write : LogWrite
  deriving DecidableEq, Repr

def Call.mctUser (logBufLen : UInt16) (call : Call) : MctUser :=
  ⟨logBufLen, call.initialised, call.verboseMode⟩

/-- One call on a context: what it returns and where it writes, and the context
behind it. -/
def writeStep (logBufLen : UInt16) (log : MctContextData) (call : Call) :
    (MctReturnValue × Writing) × MctContextData :=
  let result := logWrite (call.mctUser logBufLen) log call.write
  (result, result.2.log)

/-- What the buffer of a message promises for one call. -/
def KeepsBound (logBufLen : UInt16) (log : MctContextData) (call : Call) : Prop :=
  WithinBound (call.mctUser logBufLen) log
    (declaredSize (isVerboseMode (call.mctUser logBufLen) log) call.write)
    (writeStep logBufLen log call).1

/-- A context that a start function has prepared, on a buffer of the configured
length. -/
inductive Started (logBufLen : UInt16) : MctContextData → Prop
  | own (user : MctUser) (given : Option (List UInt8)) (messageid : UInt32) (isVerbose : Bool)
      (hlen : user.logBufLen = logBufLen) (hgiven : ∀ b ∈ given, b.length = logBufLen.toNat)
      (log : MctContextData)
      (h : mctUserLogWriteStartInternal user given messageid isVerbose = (.true, log)) :
      Started logBufLen log
  | givenBuffer (user : MctUser) (buffer : List UInt8) (size : Nat) (argsNum : Int)
      (hlen : user.logBufLen = logBufLen) (hbuffer : buffer.length = logBufLen.toNat)
      (log : MctContextData)
      (h : mctUserLogWriteStartWGivenBuffer user buffer size argsNum = (.true, some log)) :
      Started logBufLen log

theorem Started.wellFormed {logBufLen : UInt16} (h : Started logBufLen log) :
    WellFormed logBufLen log := by
  cases h with
  | own user given messageid isVerbose hlen hgiven log h =>
      dsimp only [mctUserLogWriteStartInternal] at h
      rw [hlen] at h
      have hlength : (given.getD (List.replicate logBufLen.toNat 0)).length = logBufLen.toNat := by
        cases given with
        | none => simp
        | some buffer => exact hgiven buffer rfl
      split at h
      · cases h
        exact ⟨Nat.zero_le _, hlength⟩
      split at h
      · cases h
      · rename_i hfour
        cases h
        refine ⟨not_lt.mp hfour, ?_⟩
        rw [copyInto_length _ _ _ (by simp only [leBytes_length]; omega)]
        exact hlength
  | givenBuffer user buffer size argsNum hlen hbuffer log h =>
      unfold mctUserLogWriteStartWGivenBuffer at h
      rw [hlen] at h
      split at h
      · cases h
      rename_i hsize
      split at h
      · cases h
      · cases h
        exact ⟨(by omega : size ≤ logBufLen.toNat), hbuffer⟩

/-- Whatever is logged on a started context, every call keeps to the buffer and
reports what it appended, exactly as long as every string fits: one of 65535
bytes must not pass the check, and a UTF-8 text must not be cut by more than is
left of it. -/
theorem message_buffer_bound_iff (logBufLen : UInt16) (hstarted : Started logBufLen log)
    (calls : List Call) :
    Guarded (writeStep logBufLen) (KeepsBound logBufLen) log calls ↔
      Guarded (writeStep logBufLen)
        (fun log call => CallFits (call.mctUser logBufLen) log call.write) log calls := by
  refine guarded_congr_of_keeps (fun log call hlog => ?_) (fun log call hlog hkeeps => ?_)
    hstarted.wellFormed calls
  · have hsize : WellFormed (call.mctUser logBufLen).logBufLen log := hlog
    exact logWrite_iff hsize call.write
  · have hsize : WellFormed (call.mctUser logBufLen).logBufLen log := hlog
    exact WithinBound.wellFormed hsize hkeeps

/-- An integer and a short string in a buffer of the default length. -/
theorem message_buffer_bound_sample :
    let start := mctUserLogWriteStartInternal ⟨1390, true, false⟩ none 0 true
    Guarded (writeStep 1390) (KeepsBound 1390) start.2
      [⟨true, false, mctUserLogWriteUint8 5⟩,
        ⟨true, false, mctUserLogWriteString (some ⟨[], [97, 98]⟩)⟩] := by
  intro start
  refine (message_buffer_bound_iff 1390
    (.own ⟨1390, true, false⟩ none 0 true rfl nofun start.2 rfl) _).mpr ⟨trivial, ?_, trivial⟩
  intro _ _ text htext
  cases htext
  dsimp only [StringFits]
  rw [if_pos (by decide)]
  decide

/-- A string of 65535 bytes takes no room at the check and is copied all the
same. -/
theorem longest_string_leaves_buffer :
    let start := mctUserLogWriteStartInternal ⟨1390, true, false⟩ none 0 true
    Started 1390 start.2 ∧ ¬ Guarded (writeStep 1390) (KeepsBound 1390) start.2
      [⟨true, false, mctUserLogWriteSizedString (some ⟨[], List.replicate 65535 97⟩) 65535⟩] := by
  intro start
  refine ⟨.own ⟨1390, true, false⟩ none 0 true rfl nofun start.2 rfl, ?_⟩
  rintro ⟨h, _⟩
  have hstore := h.stores_le (6, 65535) (by decide)
  exact absurd hstore (by decide)

end Runs

end MctDaemon.User
