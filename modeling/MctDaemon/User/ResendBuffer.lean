import MctDaemon.User.StoredMessages
import MctDaemon.Shared.BufferGrow

/-!
The replay of stored messages (`mct_user_log_resend_buffer`). A message is
copied to the resend buffer, gets the application id that was not known when it
was stored, and is sent. The id of a log message is put where it stands behind a
complete extra header.
-/

namespace MctDaemon.User

open Lib Shared

section Model

/-- The fields of `mct_user` that the replay uses. The resend buffer is the memory that has been
allocated. It is an overrun if an access goes behind it: what the code does then is not known, and
the model goes on without the bytes that lie there. -/
structure Resender where
  appID : List UInt8
  logBufLen : UInt16
  startupBuffer : MctBuffer
  resendBuffer : List UInt8
  mctLogHandle : Int
  overrun : Bool := false
  deriving DecidableEq, Repr

/-- Bytes that are written to a memory, those behind it left out. -/
def copyWithin (mem : List UInt8) (off : Nat) (bytes : List UInt8) : List UInt8 :=
  (copyInto mem off bytes).take mem.length

/-- `if (id[0] == '\0') mct_set_id(id, appID)` for the identifier at `off`. -/
def setEmptyId (mem : List UInt8) (off : Nat) (appID : List UInt8) : List UInt8 :=
  if mem.getD off 0 = 0 then copyWithin mem off (setIdBytes appID).bytes else mem

/-- The offset of the application id in the extended header of a log message,
behind a complete extra header. -/
def extendedApid : Nat :=
  sizeofMctUserHeader + sizeofMctStandardHeader + sizeofMctStandardHeaderExtra + 2

def addApplicationId (mem appID : List UInt8) : List UInt8 :=
  if mctUserCheckUserheader mem then
    let message := leNat (slice mem 4 4)
    if message = mctUserMessageRegisterContext then setEmptyId mem sizeofMctUserHeader appID
    else if message = mctUserMessageLog then setEmptyId mem extendedApid appID
    else mem
  else mem

/-- A message of so many bytes does not lie in the resend buffer, or the application id that is
looked for in it does not. -/
def reachesBehind (mem : List UInt8) (size : Nat) : Bool :=
  let message := leNat (slice mem 4 4)
  mem.length < size ∨ mctUserCheckUserheader mem ∧
    (message = mctUserMessageRegisterContext ∧ mem.length < sizeofMctUserHeader + mctIdSize ∨
      message = mctUserMessageLog ∧ mem.length < extendedApid + mctIdSize)

/-- The loop of `mct_user_log_resend_buffer` for the remaining `count` messages:
the messages that were handed to `mct_user_log_out3`, in order. The `i`-th of
them gets the answer `out i`. -/
def resendLoop (malloc : Malloc) (out : Nat → MctReturnValue) :
    Nat → Nat → Resender → List (List UInt8) × MctReturnValue × Resender
  | 0, _, u => ([], .ok, u)
  | count + 1, i, u =>
      let copy := mctBufferCopy malloc u.startupBuffer true u.logBufLen.toNat
      let mem := copyWithin u.resendBuffer 0 copy.data
      let u := { u with startupBuffer := copy.buf, resendBuffer := mem }
      if copy.ret > 0 then
        let overrun := u.overrun || reachesBehind mem copy.ret.toNat
        let mem := addApplicationId mem u.appID
        let u := { u with resendBuffer := mem, overrun }
        let message := mem.take copy.ret.toNat
        if out i = .ok then
          let removed := mctBufferRemove malloc u.startupBuffer
          let (sent, ret, u) :=
            resendLoop malloc out count (i + 1) { u with startupBuffer := removed.buf }
          (message :: sent, ret, u)
        else if out i = .pipeError then ([message], out i, { u with mctLogHandle := -1 })
        else ([message], out i, u)
      else resendLoop malloc out count i u

def mctUserLogResendBuffer (malloc : Malloc) (out : Nat → MctReturnValue) (u : Resender) :
    List (List UInt8) × MctReturnValue × Resender :=
  if u.appID.headD 0 = 0 then ([], .ok, u)
  else resendLoop malloc out (mctBufferGetMessageCount u.startupBuffer).toNat 0 u

end Model

section Specification

/-- The application id with which a message is to be replayed. -/
def filledId (id : IdBytes) (appID : List UInt8) : IdBytes :=
  if id.isEmpty then setIdBytes appID else id

def LogMessage.filled (message : LogMessage) (appID : List UInt8) : LogMessage :=
  { message with
    extended := message.extended.map fun h => { h with apid := filledId h.apid appID } }

/-- The message that is to be sent for a stored one. -/
def UserMessage.replayed (appID : List UInt8) : UserMessage → UserMessage
  | .registerContext apid ctid logLevelPos logLevel traceStatus pid description =>
      .registerContext (filledId apid appID) ctid logLevelPos logLevel traceStatus pid description
  | .log message => .log (message.filled appID)
  | message => message

/-- A log message of which all extra fields and the extended header are there. -/
def LogMessage.Complete (message : LogMessage) : Prop :=
  message.ecu.isSome ∧ message.seid.isSome ∧ message.tmsp.isSome ∧ message.extended.isSome

/-- The messages that the replay leaves as they are to be: a log message is
complete, or its application id is known and its byte at the place of the id of
a complete message is not zero. -/
def UserMessage.ReplaysTrue : UserMessage → Prop
  | .log message =>
      message.Complete ∨ (∀ h ∈ message.extended, ¬ h.apid.isEmpty) ∧
        (message.bytes.length ≤ extendedApid ∨ message.bytes.getD extendedApid 0 ≠ 0)
  | _ => True

/-- The message has room in the resend buffer, and so has the id that is looked for in a log
message. -/
def UserMessage.FitsInto (room : Nat) (message : UserMessage) : Prop :=
  message.bytes.length ≤ room ∧
    match message with
    | .log _ => extendedApid + mctIdSize ≤ room
    | _ => True

end Specification

section Memory

variable {mem bytes : List UInt8} {off : Nat}

@[simp] theorem copyWithin_length (mem : List UInt8) (off : Nat) (bytes : List UInt8) :
    (copyWithin mem off bytes).length = mem.length := by
  simp only [copyWithin, copyInto, List.length_take, List.length_append, List.length_drop]
  omega

theorem copyWithin_eq (h : off + bytes.length ≤ mem.length) :
    copyWithin mem off bytes = copyInto mem off bytes := by
  rw [copyWithin, List.take_of_length_le]
  simp only [copyInto, List.length_take, List.length_append, List.length_drop]
  omega

@[simp] theorem setEmptyId_length (mem : List UInt8) (off : Nat) (appID : List UInt8) :
    (setEmptyId mem off appID).length = mem.length := by
  rw [setEmptyId]
  split
  · exact copyWithin_length _ _ _
  · rfl

@[simp] theorem addApplicationId_length (mem appID : List UInt8) :
    (addApplicationId mem appID).length = mem.length := by
  simp only [addApplicationId]
  split
  · split
    · exact setEmptyId_length _ _ _
    · split
      · exact setEmptyId_length _ _ _
      · rfl
  · rfl

end Memory

section Header

variable {mtype : Nat}

/-- What the replay does to a message whose user header is in place. -/
theorem addApplicationId_append (hmtype : mtype < 4294967296) (tail appID : List UInt8) :
    addApplicationId (userHeader mtype ++ tail) appID =
      if mtype = mctUserMessageRegisterContext then
        setEmptyId (userHeader mtype ++ tail) sizeofMctUserHeader appID
      else if mtype = mctUserMessageLog then
        setEmptyId (userHeader mtype ++ tail) extendedApid appID
      else userHeader mtype ++ tail := by
  dsimp only [addApplicationId]
  rw [if_pos (checkUserheader_append mtype tail), read_mtype hmtype]

end Header

section Ids

variable {appID : List UInt8}

theorem IdBytes.exists_cons (id : IdBytes) : ∃ first rest, id.bytes = first :: rest := by
  obtain ⟨bytes, hlength⟩ := id
  cases bytes with
  | nil => cases hlength
  | cons first rest => exact ⟨first, rest, rfl⟩

/-- An identifier whose place the code knows is filled in if it is empty. -/
theorem setEmptyId_at (front : List UInt8) (id : IdBytes) (tail appID : List UInt8) :
    setEmptyId (front ++ id.bytes ++ tail) front.length appID =
      front ++ (filledId id appID).bytes ++ tail := by
  obtain ⟨first, rest, hid⟩ := id.exists_cons
  have hfirst : (front ++ id.bytes ++ tail).getD front.length 0 = first := by
    simp [hid, List.getD]
  have hempty : id.isEmpty ↔ first = 0 := by simp [IdBytes.isEmpty, hid]
  have hlength := id.length_eq
  unfold setEmptyId filledId
  rw [hfirst]
  by_cases hzero : first = 0
  · rw [if_pos hzero, if_pos (hempty.mpr hzero)]
    have hsame : (setIdBytes appID).bytes.length = id.bytes.length := by
      rw [hlength, (setIdBytes appID).length_eq]
    rw [copyWithin_eq (by simp only [List.length_append]; omega)]
    simp [copyInto, hsame]
  · rw [if_neg hzero, if_neg (hempty.not.mpr hzero)]

/-- The message with such an identifier, without the bytes behind it. -/
theorem take_setEmptyId (front : List UInt8) (id : IdBytes) (tail behind appID : List UInt8) :
    (setEmptyId (front ++ id.bytes ++ tail ++ behind) front.length appID).take
        (front ++ id.bytes ++ tail).length =
      front ++ (filledId id appID).bytes ++ tail := by
  have hlength : (front ++ id.bytes ++ tail).length =
      (front ++ (filledId id appID).bytes ++ tail).length := by
    simp only [List.length_append, id.length_eq, (filledId id appID).length_eq]
  rw [List.append_assoc _ tail behind, setEmptyId_at, ← List.append_assoc, hlength, List.take_left]

/-- The application's own identifier is not empty. -/
theorem setIdBytes_head (happ : appID.headD 0 ≠ 0) :
    ∃ rest, (setIdBytes appID).bytes = appID.headD 0 :: rest := by
  cases appID with
  | nil => exact absurd rfl happ
  | cons first rest =>
      have hne : first ≠ 0 := happ
      simp [setIdBytes, mctIdSize, hne]

/-- An identifier that is put behind the first `n` bytes leaves them alone. -/
theorem take_setEmptyId_before {mem : List UInt8} {n off : Nat} (hoff : n ≤ off)
    (hlength : n ≤ mem.length) (appID : List UInt8) :
    (setEmptyId mem off appID).take n = mem.take n := by
  unfold setEmptyId
  split
  · simp only [copyWithin, copyInto, List.append_assoc]
    rw [List.take_take, Nat.min_eq_left hlength,
      List.take_append_of_le_length (by simp only [List.length_take]; omega), List.take_take,
      Nat.min_eq_left hoff]
  · rfl

/-- A zero byte is replaced by the first character of the application id. -/
theorem getD_setEmptyId {mem : List UInt8} {off : Nat} (happ : appID.headD 0 ≠ 0)
    (hoff : off < mem.length) (hzero : mem.getD off 0 = 0) :
    (setEmptyId mem off appID).getD off 0 = appID.headD 0 := by
  obtain ⟨rest, hhead⟩ := setIdBytes_head happ
  have hfront : (mem.take off).length = off := List.length_take_of_le hoff.le
  unfold setEmptyId
  rw [if_pos hzero, copyWithin, List.getD_eq_getElem?_getD, List.getElem?_take_of_lt hoff, copyInto,
    hhead, List.append_assoc, List.getElem?_append_right hfront.le, hfront]
  simp

theorem filledId_eq_iff (happ : appID.headD 0 ≠ 0) (id : IdBytes) :
    filledId id appID = id ↔ ¬ id.isEmpty := by
  unfold filledId
  split
  · rename_i hempty
    refine iff_of_false (fun heq => ?_) (not_not.mpr hempty)
    obtain ⟨rest, hhead⟩ := setIdBytes_head happ
    rw [heq] at hhead
    simp only [IdBytes.isEmpty, hhead, List.head?_cons, Option.some.injEq,
      decide_eq_true_eq] at hempty
    exact happ hempty
  · rename_i hfull
    exact iff_of_true rfl hfull

end Ids

section LogMessages

variable {appID : List UInt8}

namespace LogMessage

theorem extraBytes_length (message : LogMessage) :
    message.extraBytes.length = (if message.ecu.isSome then 4 else 0) +
      (if message.seid.isSome then 4 else 0) + if message.tmsp.isSome then 4 else 0 := by
  obtain ⟨mcnt, ecu, seid, tmsp, extended, payload⟩ := message
  cases ecu with
  | none => cases seid <;> cases tmsp <;> simp [extraBytes]
  | some ecu =>
      have hecu : ecu.bytes.length = 4 := ecu.length_eq
      cases seid <;> cases tmsp <;> simp [extraBytes, hecu]

theorem front_length (message : LogMessage) :
    message.front.length = 12 + message.extraBytes.length := by
  simp [front]
  omega

theorem front_filled (message : LogMessage) : (message.filled appID).front = message.front := by
  obtain ⟨mcnt, ecu, seid, tmsp, extended, payload⟩ := message
  cases extended with
  | none => rfl
  | some header =>
      have hlength : (filledId header.apid appID).bytes.length = header.apid.bytes.length := by
        rw [(filledId header.apid appID).length_eq, header.apid.length_eq]
      have hlen : len (filled ⟨mcnt, ecu, seid, tmsp, some header, payload⟩ appID) =
          len ⟨mcnt, ecu, seid, tmsp, some header, payload⟩ := by
        simp [filled, len, extraBytes, ExtendedHeader.bytes, hlength]
      unfold front
      rw [hlen]
      rfl

/-- A message with an extended header, around its application id. -/
theorem bytes_extended {message : LogMessage} {header : ExtendedHeader}
    (h : message.extended = some header) :
    message.bytes = (message.front ++ [header.msin, header.noar]) ++ header.apid.bytes ++
      (header.ctid.bytes ++ message.payload) := by
  simp [bytes, h, ExtendedHeader.bytes]

theorem bytes_filled_extended {message : LogMessage} {header : ExtendedHeader}
    (h : message.extended = some header) :
    (message.filled appID).bytes =
      (message.front ++ [header.msin, header.noar]) ++ (filledId header.apid appID).bytes ++
        (header.ctid.bytes ++ message.payload) := by
  have hext : (message.filled appID).extended =
      some { header with apid := filledId header.apid appID } := by
    simp [filled, h]
  rw [bytes_extended hext, front_filled]
  rfl

theorem filled_of_none {message : LogMessage} (h : message.extended = none) :
    message.filled appID = message := by
  obtain ⟨mcnt, ecu, seid, tmsp, extended, payload⟩ := message
  subst h
  rfl

/-- The stored bytes are the bytes to be replayed if the application id is
known. -/
theorem bytes_filled_iff (happ : appID.headD 0 ≠ 0) (message : LogMessage) :
    message.bytes = (message.filled appID).bytes ↔
      ∀ header ∈ message.extended, ¬ header.apid.isEmpty := by
  cases hext : message.extended with
  | none =>
      rw [filled_of_none hext]
      exact iff_of_true rfl (by simp)
  | some header =>
      rw [bytes_extended hext, bytes_filled_extended hext, List.append_cancel_right_eq,
        List.append_cancel_left_eq]
      refine Iff.trans ⟨fun h => ?_, fun h => ?_⟩ ((filledId_eq_iff happ header.apid).trans ?_)
      · exact (IdBytes.ext h).symm
      · rw [h]
      · simp

theorem getD_behind (front old new tail : List UInt8) (hlength : new.length = old.length)
    {i : Nat} (hi : front.length + new.length ≤ i) :
    (front ++ new ++ tail).getD i 0 = (front ++ old ++ tail).getD i 0 := by
  simp only [List.getD_eq_getElem?_getD]
  rw [List.getElem?_append_right (by rw [List.length_append]; exact hi),
    List.getElem?_append_right (by rw [List.length_append]; omega), List.length_append,
    List.length_append, hlength]

/-- In a message that is not complete the byte at the place of the application
id of a complete message is another one. -/
theorem getD_filled {message : LogMessage} (hincomplete : ¬ message.Complete) :
    (message.filled appID).bytes.getD extendedApid 0 = message.bytes.getD extendedApid 0 := by
  cases hext : message.extended with
  | none => rw [filled_of_none hext]
  | some header =>
      have hextra : message.extraBytes.length ≤ 8 := by
        rw [extraBytes_length]
        unfold Complete at hincomplete
        rw [hext] at hincomplete
        by_cases hecu : message.ecu.isSome <;> by_cases hseid : message.seid.isSome <;>
          by_cases htmsp : message.tmsp.isSome <;> simp_all
      have hfront := message.front_length
      have hid := header.apid.length_eq
      have hfilled := (filledId header.apid appID).length_eq
      rw [bytes_extended hext, bytes_filled_extended hext]
      refine getD_behind _ _ _ _ (hfilled.trans hid.symm) ?_
      rw [hfilled, List.length_append, hfront]
      change 12 + message.extraBytes.length + 2 + 4 ≤ 26
      omega

end LogMessage

/-- What is sent for a stored message: its part of the resend buffer, behind
which stand the bytes of earlier messages. -/
def replay (appID : List UInt8) (message : UserMessage) (behind : List UInt8) : List UInt8 :=
  (addApplicationId (message.bytes ++ behind) appID).take message.bytes.length

theorem replay_log (message : LogMessage) (behind : List UInt8) :
    replay appID (.log message) behind =
      (setEmptyId (message.bytes ++ behind) extendedApid appID).take message.bytes.length := by
  have hbytes : ∃ tail, message.bytes = userHeader mctUserMessageLog ++ tail := by
    simp only [LogMessage.bytes, LogMessage.front, List.append_assoc]
    exact ⟨_, rfl⟩
  obtain ⟨tail, htail⟩ := hbytes
  change (addApplicationId (message.bytes ++ behind) appID).take message.bytes.length = _
  rw [htail, List.append_assoc, addApplicationId_append (by decide), if_neg (by decide),
    if_pos rfl]

theorem replay_complete {message : LogMessage} (h : message.Complete) (behind : List UInt8) :
    replay appID (.log message) behind = (message.filled appID).bytes := by
  obtain ⟨hecu, hseid, htmsp, hextended⟩ := h
  obtain ⟨header, hext⟩ := Option.isSome_iff_exists.mp hextended
  have hfront : (message.front ++ [header.msin, header.noar]).length = extendedApid := by
    rw [List.length_append, message.front_length, message.extraBytes_length, if_pos hecu,
      if_pos hseid, if_pos htmsp]
    rfl
  rw [replay_log, message.bytes_filled_extended hext, message.bytes_extended hext, ← hfront,
    take_setEmptyId]

theorem replay_incomplete_iff (happ : appID.headD 0 ≠ 0) {message : LogMessage}
    (h : ¬ message.Complete) (behind : List UInt8) :
    replay appID (.log message) behind = (message.filled appID).bytes ↔
      (∀ header ∈ message.extended, ¬ header.apid.isEmpty) ∧
        (message.bytes.length ≤ extendedApid ∨ message.bytes.getD extendedApid 0 ≠ 0) := by
  have hat : (message.filled appID).bytes.getD extendedApid 0 =
      message.bytes.getD extendedApid 0 := message.getD_filled h
  rw [replay_log, ← message.bytes_filled_iff happ]
  by_cases hshort : message.bytes.length ≤ extendedApid
  · -- the identifier is put behind the message
    rw [take_setEmptyId_before hshort (by simp), List.take_left]
    simp only [hshort, true_or, and_true]
  have hlong : extendedApid < message.bytes.length := not_le.mp hshort
  have hmem : (message.bytes ++ behind).getD extendedApid 0 =
      message.bytes.getD extendedApid 0 := by
    simp only [List.getD_eq_getElem?_getD]
    rw [List.getElem?_append_left hlong]
  by_cases hbyte : message.bytes.getD extendedApid 0 = 0
  · -- the byte that is overwritten belongs to the message
    refine iff_of_false (fun heq => ?_) (fun h => h.2.elim hshort fun hne => hne hbyte)
    have hpatched : ((setEmptyId (message.bytes ++ behind) extendedApid appID).take
        message.bytes.length).getD extendedApid 0 = appID.headD 0 := by
      rw [List.getD_eq_getElem?_getD, List.getElem?_take_of_lt hlong,
        ← List.getD_eq_getElem?_getD, getD_setEmptyId happ
          (by rw [List.length_append]; omega) (hmem.trans hbyte)]
    rw [heq, hat, hbyte] at hpatched
    exact happ hpatched.symm
  · have hsame : setEmptyId (message.bytes ++ behind) extendedApid appID =
        message.bytes ++ behind := by
      rw [setEmptyId, if_neg (by rw [hmem]; exact hbyte)]
    rw [hsame, List.take_left]
    simp only [hbyte, ne_eq, not_false_eq_true, or_true, and_true]

def UserMessage.mtype : UserMessage → Nat
  | .registerApplication .. => mctUserMessageRegisterApplication
  | .unregisterApplication .. => mctUserMessageUnregisterApplication
  | .registerContext .. => mctUserMessageRegisterContext
  | .unregisterContext .. => mctUserMessageUnregisterContext
  | .overflow .. => mctUserMessageOverflow
  | .appLlTs .. => mctUserMessageAppLlTs
  | .marker => mctUserMessageMarker
  | .log _ => mctUserMessageLog

theorem UserMessage.bytes_eq (message : UserMessage) :
    ∃ tail, message.bytes = userHeader message.mtype ++ tail := by
  cases message with
  | marker => exact ⟨[], (List.append_nil _).symm⟩
  | _ =>
      simp only [UserMessage.bytes, LogMessage.bytes, LogMessage.front, List.append_assoc]
      exact ⟨_, rfl⟩

/-- A message of another type is sent as it is. -/
theorem replay_other {message : UserMessage} (hmtype : message.mtype < 4294967296)
    (hcontext : message.mtype ≠ mctUserMessageRegisterContext)
    (hlog : message.mtype ≠ mctUserMessageLog) (behind : List UInt8) :
    replay appID message behind = message.bytes := by
  obtain ⟨tail, hbytes⟩ := message.bytes_eq
  unfold replay
  rw [hbytes, List.append_assoc, addApplicationId_append hmtype, if_neg hcontext, if_neg hlog,
    ← List.append_assoc, List.take_left]

theorem replay_registerContext (apid ctid : IdBytes) (logLevelPos : UInt32)
    (logLevel traceStatus : UInt8) (pid : UInt32) (description behind : List UInt8) :
    let message : UserMessage :=
      .registerContext apid ctid logLevelPos logLevel traceStatus pid description
    replay appID message behind = (message.replayed appID).bytes := by
  intro message
  have hbytes : message.bytes = userHeader mctUserMessageRegisterContext ++ apid.bytes ++
      (ctid.bytes ++ leBytes 4 logLevelPos.toNat ++ [logLevel, traceStatus] ++
        leBytes 4 pid.toNat ++ leBytes 4 description.length ++ description) := by
    simp only [message, UserMessage.bytes, List.append_assoc]
  have hreplayed : (message.replayed appID).bytes =
      userHeader mctUserMessageRegisterContext ++ (filledId apid appID).bytes ++
        (ctid.bytes ++ leBytes 4 logLevelPos.toNat ++ [logLevel, traceStatus] ++
          leBytes 4 pid.toNat ++ leBytes 4 description.length ++ description) := by
    simp only [message, UserMessage.replayed, UserMessage.bytes, List.append_assoc]
  have hoff : sizeofMctUserHeader = (userHeader mctUserMessageRegisterContext).length := by
    rw [userHeader_length]
    rfl
  rw [hreplayed, ← take_setEmptyId _ apid _ behind, ← hbytes]
  unfold replay
  rw [hbytes]
  simp only [List.append_assoc]
  rw [addApplicationId_append (by decide), if_pos rfl, hoff]

theorem replay_iff (happ : appID.headD 0 ≠ 0) (message : UserMessage) (behind : List UInt8) :
    replay appID message behind = (message.replayed appID).bytes ↔ message.ReplaysTrue := by
  cases message with
  | registerContext apid ctid logLevelPos logLevel traceStatus pid description =>
      exact iff_of_true (replay_registerContext _ _ _ _ _ _ _ _) trivial
  | log message =>
      by_cases hcomplete : message.Complete
      · exact iff_of_true (replay_complete hcomplete behind) (.inl hcomplete)
      · refine (replay_incomplete_iff happ hcomplete behind).trans ?_
        exact ⟨.inr, fun h => h.resolve_left hcomplete⟩
  | _ =>
      exact iff_of_true (replay_other (of_decide_eq_true rfl) (of_decide_eq_true rfl)
        (of_decide_eq_true rfl) behind) trivial

end LogMessages

section Run

variable {malloc : Malloc} {out : Nat → MctReturnValue} {appID : List UInt8}

/-- The messages that were sent are the first stored ones, as they are to be
replayed. -/
def Replayed (appID : List UInt8) (messages : List UserMessage) (sent : List (List UInt8)) :
    Prop :=
  sent = (messages.take sent.length).map fun message => (message.replayed appID).bytes

/-- A message that is replayed as it is to be: it is copied to the resend buffer
at all, it has room there, and no other bytes of it are changed. -/
def Faithful (logBufLen : UInt16) (room : Nat) (message : UserMessage) : Prop :=
  logBufLen ≠ 0 ∧ message.FitsInto room ∧ message.ReplaysTrue

/-- A resender that has stored the messages. Without room for a message the
resend buffer has never been written to. -/
structure Stores (u : Resender) (messages : List UserMessage) : Prop where
  stored : DynamicAs u.startupBuffer (messages.map UserMessage.bytes)
  untouched : u.logBufLen = 0 → ∀ b ∈ u.resendBuffer, b = 0

theorem UserMessage.bytes_pos (message : UserMessage) : 0 < message.bytes.length := by
  obtain ⟨tail, hbytes⟩ := message.bytes_eq
  rw [hbytes, List.length_append, userHeader_length]
  omega

/-- Nothing is put into a resend buffer without a message. -/
theorem addApplicationId_untouched {mem : List UInt8} (hmem : ∀ b ∈ mem, b = 0)
    (appID : List UInt8) : addApplicationId mem appID = mem := by
  unfold addApplicationId
  rw [if_neg]
  intro hpattern
  have hhead : (68 : UInt8) ∈ mem.take 4 := by
    rw [of_decide_eq_true hpattern]
    exact List.mem_cons_self
  exact absurd (hmem 68 (List.mem_of_mem_take hhead)) (by decide)

/-- Where a message lies in the resend buffer with the bytes of earlier ones behind it, no access
goes behind the buffer if the message fits. -/
theorem reachesBehind_append (message : UserMessage) (behind : List UInt8) :
    reachesBehind (message.bytes ++ behind) message.bytes.length = false ↔
      message.FitsInto (message.bytes ++ behind).length := by
  have hwithin : ¬ (message.bytes ++ behind).length < message.bytes.length := by
    rw [List.length_append]
    omega
  have hheader : mctUserCheckUserheader (message.bytes ++ behind) = true ∧
      leNat (slice (message.bytes ++ behind) 4 4) = message.mtype := by
    obtain ⟨tail, hbytes⟩ := message.bytes_eq
    have hmtype : message.mtype < 4294967296 := by
      cases message <;> exact of_decide_eq_true rfl
    rw [hbytes, List.append_assoc]
    exact ⟨checkUserheader_append _ _, read_mtype hmtype _⟩
  rw [reachesBehind]
  simp only [hheader.1, hheader.2, hwithin, false_or, true_and, decide_eq_false_iff_not,
    UserMessage.FitsInto]
  have hlength : message.bytes.length ≤ (message.bytes ++ behind).length := not_lt.mp hwithin
  cases message with
  | log message =>
      simp only [UserMessage.mtype, hlength, true_and, not_or, not_and, not_lt]
      exact ⟨fun h => h.2, fun h => ⟨fun hother => absurd hother (by decide), h⟩⟩
  | registerContext apid ctid logLevelPos logLevel traceStatus pid description =>
      refine iff_of_true ?_ ⟨hlength, trivial⟩
      have hid : apid.bytes.length = 4 := apid.length_eq
      simp only [UserMessage.mtype, UserMessage.bytes, List.length_append, userHeader_length, hid,
        sizeofMctUserHeader, mctIdSize, not_or, not_and, not_lt]
      exact ⟨fun _ => by omega, fun hother => absurd hother (by decide)⟩
  | _ =>
      refine iff_of_true ?_ ⟨hlength, trivial⟩
      rintro (⟨hother, -⟩ | ⟨hother, -⟩)
      · exact absurd hother (of_decide_eq_true rfl)
      · exact absurd hother (of_decide_eq_true rfl)

/-- What the resend buffer holds when a message has been copied to it. -/
def copied (logBufLen : UInt16) (resendBuffer : List UInt8) (message : UserMessage) : List UInt8 :=
  copyWithin resendBuffer 0 (if (logBufLen.toNat : Int) ≠ 0 then message.bytes else [])

theorem copied_zero (resendBuffer : List UInt8) (message : UserMessage) :
    copied 0 resendBuffer message = resendBuffer := by
  rw [copied, if_neg (by simp), copyWithin, copyInto_nil, List.take_length]

/-- The message that is sent in a round, from the content of the resend buffer
before. -/
theorem round_iff (happ : appID.headD 0 ≠ 0) {logBufLen : UInt16} {resendBuffer : List UInt8}
    (huntouched : logBufLen = 0 → ∀ b ∈ resendBuffer, b = 0) (message : UserMessage) :
    (addApplicationId (copied logBufLen resendBuffer message) appID).take message.bytes.length =
          (message.replayed appID).bytes ∧
        reachesBehind (copied logBufLen resendBuffer message) message.bytes.length = false ↔
      Faithful logBufLen resendBuffer.length message := by
  by_cases hzero : logBufLen = 0
  · have hmem := huntouched hzero
    subst hzero
    refine iff_of_false (fun h => ?_) (fun h => h.1 rfl)
    have heq := h.1
    rw [copied_zero, addApplicationId_untouched hmem] at heq
    obtain ⟨tail, hbytes⟩ := (message.replayed appID).bytes_eq
    have hhead : (68 : UInt8) ∈ (message.replayed appID).bytes := by
      rw [hbytes]
      exact List.mem_cons_self
    rw [← heq] at hhead
    exact absurd (hmem 68 (List.mem_of_mem_take hhead)) (by decide)
  · have hpos : (logBufLen.toNat : Int) ≠ 0 := by
      intro heq
      exact hzero (UInt16.toNat_inj.mp (Int.ofNat_inj.mp heq))
    by_cases hfits : message.bytes.length ≤ resendBuffer.length
    · have hcopy : copied logBufLen resendBuffer message =
          message.bytes ++ resendBuffer.drop message.bytes.length := by
        rw [copied, if_pos hpos, copyWithin_eq (by omega)]
        simp [copyInto]
      have hroom : (message.bytes ++ resendBuffer.drop message.bytes.length).length =
          resendBuffer.length := by
        rw [List.length_append, List.length_drop]
        omega
      rw [hcopy, reachesBehind_append, hroom]
      have hreplay := replay_iff happ message (resendBuffer.drop message.bytes.length)
      unfold replay at hreplay
      rw [hreplay]
      exact ⟨fun h => ⟨hzero, h.2, h.1⟩, fun h => ⟨h.2.2, h.2.1⟩⟩
    · refine iff_of_false (fun h => ?_) (fun h => hfits h.2.1.1)
      have hover := h.2
      simp only [reachesBehind, copied, copyWithin_length, decide_eq_false_iff_not, not_or] at hover
      exact hover.1 (by omega)

theorem round_untouched {logBufLen : UInt16} {resendBuffer : List UInt8} (hzero : logBufLen = 0)
    (huntouched : ∀ b ∈ resendBuffer, b = 0) (message : UserMessage) :
    ∀ b ∈ addApplicationId (copied logBufLen resendBuffer message) appID, b = 0 := by
  subst hzero
  rw [copied_zero, addApplicationId_untouched huntouched]
  exact huntouched

theorem replayed_cons {message : UserMessage} {rest : List UserMessage} {bytes : List UInt8}
    {sent : List (List UInt8)} :
    Replayed appID (message :: rest) (bytes :: sent) ↔
      bytes = (message.replayed appID).bytes ∧ Replayed appID rest sent := by
  unfold Replayed
  rw [List.length_cons, List.take_succ_cons, List.map_cons, List.cons.injEq]

/-- What the replay leaves as it is. -/
structure Resender.SameSetup (u next : Resender) : Prop where
  appID : next.appID = u.appID
  logBufLen : next.logBufLen = u.logBufLen
  room : next.resendBuffer.length = u.resendBuffer.length

theorem Resender.SameSetup.trans {u next last : Resender} (h : u.SameSetup next)
    (h' : next.SameSetup last) : u.SameSetup last :=
  ⟨h'.appID.trans h.appID, h'.logBufLen.trans h.logBufLen, h'.room.trans h.room⟩

/-- One round of the loop sends the oldest message. If that succeeds the others
are left, if not all of them are. -/
theorem resendLoop_round (malloc : Malloc) (out : Nat → MctReturnValue) {message : UserMessage}
    {rest : List UserMessage} {u : Resender} (happ : u.appID.headD 0 ≠ 0)
    (h : Stores u (message :: rest)) (count i : Nat) :
    ∃ next failed bytes beyond, Stores next rest ∧ u.SameSetup next ∧
      next.overrun = (u.overrun || beyond) ∧ Stores failed (message :: rest) ∧ u.SameSetup failed ∧
      failed.overrun = (u.overrun || beyond) ∧
      (bytes = (message.replayed u.appID).bytes ∧ beyond = false ↔
        Faithful u.logBufLen u.resendBuffer.length message) ∧
      resendLoop malloc out (count + 1) i u =
        if out i = .ok then
          (bytes :: (resendLoop malloc out count (i + 1) next).1,
            (resendLoop malloc out count (i + 1) next).2)
        else ([bytes], out i, failed) := by
  let copy := mctBufferCopy malloc u.startupBuffer true u.logBufLen.toNat
  obtain ⟨hreply, hbuf⟩ : copy.reply =
        queueFront ((message :: rest).map UserMessage.bytes) true u.logBufLen.toNat ∧
      DynamicAs copy.buf ((message :: rest).map UserMessage.bytes) :=
    h.stored.get true u.logBufLen.toNat false
  have hret : copy.ret = message.bytes.length := congrArg BufferReply.ret hreply
  have hdata : copyWithin u.resendBuffer 0 copy.data =
      copied u.logBufLen u.resendBuffer message := by
    have hstored := congrArg BufferReply.data hreply
    simp only [queueFront, List.map_cons, true_and] at hstored
    exact congrArg (copyWithin u.resendBuffer 0) hstored
  have hremoved : DynamicAs (mctBufferRemove malloc copy.buf).buf
      (rest.map UserMessage.bytes) := (hbuf.get false 0 true).2
  have hpos : (0 : Int) < message.bytes.length := by exact_mod_cast message.bytes_pos
  let mem := addApplicationId (copied u.logBufLen u.resendBuffer message) u.appID
  let beyond := reachesBehind (copied u.logBufLen u.resendBuffer message) message.bytes.length
  have huntouched : u.logBufLen = 0 → ∀ b ∈ mem, b = 0 :=
    fun hzero => round_untouched hzero (h.untouched hzero) message
  have hroom : mem.length = u.resendBuffer.length := by
    simp only [mem, addApplicationId_length, copied, copyWithin_length]
  refine ⟨{ u with
      startupBuffer := (mctBufferRemove malloc copy.buf).buf
      resendBuffer := mem
      overrun := u.overrun || beyond },
    { u with
      startupBuffer := copy.buf
      resendBuffer := mem
      mctLogHandle := if out i = .pipeError then -1 else u.mctLogHandle
      overrun := u.overrun || beyond },
    mem.take message.bytes.length, beyond, ⟨hremoved, huntouched⟩, ⟨rfl, rfl, hroom⟩, rfl,
    ⟨hbuf, huntouched⟩, ⟨rfl, rfl, hroom⟩, rfl, round_iff happ h.untouched message, ?_⟩
  dsimp only [resendLoop]
  rw [hret, hdata, if_pos hpos, Int.toNat_natCast]
  by_cases hok : out i = .ok
  · rw [if_pos hok, if_pos hok]
  · rw [if_neg hok, if_neg hok]
    by_cases hpipe : out i = .pipeError
    · rw [if_pos hpipe, if_pos hpipe]
    · rw [if_neg hpipe, if_neg hpipe]

/-- An overrun is not taken back. -/
theorem resendLoop_overrun (malloc : Malloc) (out : Nat → MctReturnValue) (count i : Nat)
    {u : Resender} (h : u.overrun = true) :
    (resendLoop malloc out count i u).2.2.overrun = true := by
  induction count generalizing i u with
  | zero => exact h
  | succ count ih =>
      have hover : ∀ more : Bool, (u.overrun || more) = true := fun more => by
        rw [h, Bool.true_or]
      dsimp only [resendLoop]
      split
      · split
        · exact ih (i + 1) (hover _)
        · split
          · exact hover _
          · exact hover _
      · exact ih i h

/-- The connection is given up where it is broken, and only there. -/
theorem resendLoop_handle (malloc : Malloc) (out : Nat → MctReturnValue) (count i : Nat)
    (u : Resender) :
    (resendLoop malloc out count i u).2.2.mctLogHandle =
      if (resendLoop malloc out count i u).2.1 = .pipeError then -1 else u.mctLogHandle := by
  induction count generalizing i u with
  | zero => simp [resendLoop]
  | succ count ih =>
      dsimp only [resendLoop]
      split
      · split
        · exact ih (i + 1) _
        · split
          · rfl
          · rfl
      · exact ih i _

theorem resendLoop_iff (malloc : Malloc) (out : Nat → MctReturnValue)
    {messages : List UserMessage} (i : Nat) {u : Resender} (happ : u.appID.headD 0 ≠ 0)
    (h : Stores u messages) (hinside : u.overrun = false) :
    let run := resendLoop malloc out messages.length i u
    Replayed u.appID messages run.1 ∧ run.2.2.overrun = false ↔
      ∀ message ∈ messages.take run.1.length,
        Faithful u.logBufLen u.resendBuffer.length message := by
  induction messages generalizing i u with
  | nil => exact iff_of_true ⟨rfl, hinside⟩ (by simp [resendLoop])
  | cons message rest ih =>
      obtain ⟨next, failed, bytes, beyond, hnext, hsame, hover, -, -, hfailed, hbytes, hround⟩ :=
        resendLoop_round malloc out happ h rest.length i
      rw [hinside, Bool.false_or] at hover hfailed
      rw [List.length_cons, hround]
      split
      · dsimp only
        rw [replayed_cons, List.length_cons, List.take_succ_cons, List.forall_mem_cons, ← hbytes]
        cases beyond with
        | true =>
            refine iff_of_false (fun hall => ?_) fun hall => absurd hall.1.2 (by decide)
            have hlast := resendLoop_overrun malloc out rest.length (i + 1) hover
            rw [hall.2] at hlast
            cases hlast
        | false =>
            have hrest := ih (i + 1) (by rw [hsame.appID]; exact happ) hnext hover
            rw [hsame.appID, hsame.logBufLen, hsame.room] at hrest
            dsimp only at hrest
            rw [← hrest]
            exact ⟨fun h => ⟨⟨h.1.1, rfl⟩, h.1.2, h.2⟩, fun h => ⟨⟨h.1.1, h.2.1⟩, h.2.2⟩⟩
      · dsimp only
        rw [replayed_cons, List.length_cons, List.length_nil, List.take_succ_cons, List.take_zero,
          List.forall_mem_cons, ← hbytes, hfailed]
        exact ⟨fun h => ⟨⟨h.1.1, h.2⟩, by simp⟩, fun h => ⟨⟨h.1.1, rfl⟩, h.1.2⟩⟩

/-- Without a failure every stored message is sent. -/
theorem resendLoop_length (malloc : Malloc) (hout : ∀ i, out i = .ok)
    {messages : List UserMessage} (i : Nat) {u : Resender} (happ : u.appID.headD 0 ≠ 0)
    (h : Stores u messages) :
    (resendLoop malloc out messages.length i u).1.length = messages.length := by
  induction messages generalizing i u with
  | nil => rfl
  | cons message rest ih =>
      obtain ⟨next, failed, bytes, beyond, hnext, hsame, -, -, -, -, -, hround⟩ :=
        resendLoop_round malloc out happ h rest.length i
      rw [List.length_cons, hround, if_pos (hout i)]
      dsimp only
      rw [List.length_cons, ih (i + 1) (by rw [hsame.appID]; exact happ) hnext]

theorem Stores.messageCount {messages : List UserMessage} {u : Resender}
    (h : Stores u messages) :
    (mctBufferGetMessageCount u.startupBuffer).toNat = messages.length := by
  rcases h.stored.stored with hstored | hunusable
  · rw [hstored.getMessageCount, List.length_map, Int.toNat_natCast]
  · have hempty := hunusable.empty
    rw [List.map_eq_nil_iff] at hempty
    rw [hempty, mctBufferGetMessageCount, hunusable.count_eq]
    rfl

/-- Whatever is stored and wherever the connection fails, the replay sends the
stored messages as they are to be sent, and stays inside its buffer, exactly as long
as each of them is faithful. Without a failure it sends all of them. -/
theorem resend_replays_iff (malloc : Malloc) (out : Nat → MctReturnValue)
    {messages : List UserMessage} {u : Resender} (h : Stores u messages)
    (hinside : u.overrun = false) :
    let run := mctUserLogResendBuffer malloc out u
    (Replayed u.appID messages run.1 ∧ run.2.2.overrun = false ↔
      ∀ message ∈ messages.take run.1.length,
        Faithful u.logBufLen u.resendBuffer.length message) ∧
    (u.appID.headD 0 ≠ 0 → (∀ i, out i = .ok) → run.1.length = messages.length) := by
  unfold mctUserLogResendBuffer
  by_cases hid : u.appID.headD 0 = 0
  · rw [if_pos hid]
    exact ⟨iff_of_true ⟨rfl, hinside⟩ (by simp), fun happ => absurd hid happ⟩
  · rw [if_neg hid, h.messageCount]
    exact ⟨resendLoop_iff malloc out 0 hid h hinside,
      fun _ hout => resendLoop_length malloc hout 0 hid h⟩

/-- A resender with the messages at the start of its startup buffer. -/
def resenderWith (messages : List UserMessage) : Resender where
  appID := [65, 80, 80, 49]
  logBufLen := 1390
  startupBuffer :=
    { mem := queueBytes (messages.map UserMessage.bytes) ++ List.replicate 4 0
      size := queueSize (messages.map UserMessage.bytes) + 4
      minSize := 12, maxSize := 1000, stepSize := 100
      write := queueSize (messages.map UserMessage.bytes), read := 0, count := messages.length
      resets := 0 }
  resendBuffer := List.replicate 1424 0
  mctLogHandle := 3

theorem resenderWith_stores {messages : List UserMessage}
    (hsmall : queueSize (messages.map UserMessage.bytes) + 4 < 2147483648) :
    Stores (resenderWith messages) messages where
  stored :=
    { stored := .inl (represents_at_start (List.replicate 4 0) rfl
        (List.length_append.trans (by rw [queueBytes_length]; rfl)) hsmall rfl rfl
        (congrArg Nat.cast (List.length_map _).symm))
      head_le := le_refl 12
      min_le := Nat.le_add_left _ _ }
  untouched := fun hzero => absurd (congrArg UInt16.toNat hzero) (of_decide_eq_true rfl)

/-- A verbose message of an application that was not registered yet. -/
def earlyLog : LogMessage where
  mcnt := 0
  ecu := some (setIdBytes [69, 67, 85, 49])
  seid := some 7
  tmsp := some 9
  extended := some ⟨0x41, 1, setIdBytes [0, 0, 0, 0], setIdBytes [67, 84, 88, 49]⟩
  payload := [0x41, 0, 0, 0, 5]

theorem resend_replays_sample :
    let u := resenderWith [.log earlyLog]
    let run := mctUserLogResendBuffer Malloc.zeroed (fun _ => .ok) u
    (Replayed u.appID [.log earlyLog] run.1 ∧ run.2.2.overrun = false) ∧ run.1.length = 1 := by
  intro u run
  have hstores : Stores u [.log earlyLog] := resenderWith_stores (by decide)
  obtain ⟨hiff, hall⟩ := resend_replays_iff Malloc.zeroed (fun _ => .ok) hstores rfl
  refine ⟨hiff.mpr fun message hmessage => ?_, hall (by decide) fun _ => rfl⟩
  have hlog := List.mem_of_mem_take hmessage
  rw [List.mem_singleton] at hlog
  subst hlog
  exact ⟨by decide, ⟨by decide +kernel, by decide +kernel⟩, .inl ⟨rfl, rfl, rfl, rfl⟩⟩

/-- In the default settings a message with the id 5 in non-verbose mode has a
zero as its byte 26, and goes out with the application id in its payload. -/
theorem replay_overwrites_message_id :
    ∃ message, mctUserLogSendLog ⟨true, true, true, false, false, [69, 67, 85, 49], [], 7⟩
        ⟨[67, 84, 88, 49], 0, 4, 0, 9⟩ ⟨leBytes 4 5, 4, 0, false⟩ .log = some message ∧
      Stores (resenderWith [.log message]) [.log message] ∧
      ¬ Replayed (resenderWith [.log message]).appID [.log message]
        (mctUserLogResendBuffer Malloc.zeroed (fun _ => .ok) (resenderWith [.log message])).1 := by
  refine ⟨_, rfl, resenderWith_stores (by decide), ?_⟩
  unfold Replayed
  decide +kernel

end Run

end MctDaemon.User
