import MctDaemon.Daemon.ServedClients
import MctDaemon.Daemon.TrackedContexts
import MctDaemon.User.CheckUserMessage
import MctDaemon.User.EnvLevelChoice
import MctDaemon.User.ResendCopies

/-!
The contexts of an application, as the library keeps them and tells the daemon of them. A
registration that cannot be written waits in the startup buffer. When the library has
reached a daemon again it tells it all of its contexts, and then what waits.
-/

namespace MctDaemon.User

open Lib Shared Daemon

section Model

def mctUserLogLevelNotSet : Int := -2
def mctUserTraceStatusNotSet : Int := -2
def mctLogMax : Int := 7
def mctTraceStatusMax : Int := 2
def mctUserInitialLogLevel : Int8 := 4
def mctUserInitialTraceStatus : Int8 := 0

/-- An entry of `mct_ll_ts` with its description. -/
structure RegisteredContext extends MctLlTsType where
  contextDescription : Option (List UInt8)

/-- `MctContext`, as far as registrations read or set it. -/
structure ContextHandle where
  contextID : IdBytes
  logLevelPos : Nat
  logLevelPtr : Option Nat
  traceStatusPtr : Option Nat
  mcnt : UInt8

/-- The fields of `mct_user` that registrations concern. The startup buffer is given by its
messages, and `connection` is what was written to the connection that is open. -/
structure SharedContexts where
  appID : IdBytes
  applicationDescription : Option (List UInt8)
  initialLlSet : MctEnvLlSet
  mctLlTs : List RegisteredContext
  mctIsFile : Bool
  mctLogHandle : Int
  startupBuffer : List UserMessage
  connection : List UserMessage
  pid : UInt32

/-- What a message meets: the answer to its write, and whether the startup buffer has room
for it. -/
structure WriteOutcome where
  answer : MctReturnValue
  room : Bool
  deriving DecidableEq, Repr

def levelByte (level : Int) : UInt8 := (Int8.ofInt level).toUInt8

def appIdMemory (id : IdBytes) : Nat → Char := idByte (byteChars id.bytes)

namespace SharedContexts

def logOutErrorHandling (u : SharedContexts) (message : UserMessage) (write : WriteOutcome) :
    MctReturnValue × SharedContexts :=
  if write.room then (.ok, { u with startupBuffer := u.startupBuffer ++ [message] })
  else (.bufferFull, u)

/-- A message is written, or stored if that fails. -/
def logOut (u : SharedContexts) (message : UserMessage) (write : WriteOutcome) :
    MctReturnValue × SharedContexts :=
  if mctUserLogOut3 u.mctLogHandle write.answer = .ok then
    (.ok, { u with connection := u.connection ++ [message] })
  else u.logOutErrorHandling message write

def sendRegisterApplication (u : SharedContexts) (write : WriteOutcome) :
    MctReturnValue × SharedContexts :=
  if u.appID.isEmpty then (.error, u)
  else if u.mctIsFile then (.ok, u)
  else u.logOut (.registerApplication u.appID u.pid (u.applicationDescription.getD [])) write

/-- `mct_user_log_send_register_context`. Without an application the message waits. -/
def sendRegisterContext (u : SharedContexts) (contextID : IdBytes) (logLevelPos : Nat)
    (logLevel traceStatus : Int) (description : Option (List UInt8)) (write : WriteOutcome) :
    MctReturnValue × SharedContexts :=
  if contextID.isEmpty then (.error, u)
  else if u.mctIsFile then (.ok, u)
  else
    let message := UserMessage.registerContext u.appID contextID (UInt32.ofNat logLevelPos)
      (levelByte logLevel) (levelByte traceStatus) u.pid (description.getD [])
    if u.appID.isEmpty then u.logOutErrorHandling message write else u.logOut message write

def sendUnregisterContext (u : SharedContexts) (contextID : IdBytes) (write : WriteOutcome) :
    MctReturnValue × SharedContexts :=
  if contextID.isEmpty then (.error, u)
  else if u.mctIsFile then (.ok, u)
  else u.logOut (.unregisterContext u.appID contextID u.pid) write

/-- The entry that `mct_register_context_ll_ts_llccb` makes. The level of the environment
goes before the one that is asked for. -/
def newContext (contextid : List UInt8) (description : Option (List UInt8))
    (envLogLevel loglevel tracestatus : Int) (callback : Option Nat) (levelPtr statusPtr : Nat) :
    RegisteredContext where
  contextID := setIdBytes contextid
  logLevel :=
    if envLogLevel ≠ mctUserLogLevelNotSet then Int8.ofInt envLogLevel
    else if loglevel ≠ mctUserLogLevelNotSet then Int8.ofInt loglevel
    else mctUserInitialLogLevel
  logLevelPtr := some levelPtr
  traceStatus := Int8.ofInt tracestatus
  traceStatusPtr := some statusPtr
  injectionTable := []
  logLevelChangedCallback := callback
  contextDescription := description

/-- `mct_register_context_ll_ts_llccb`, with the memory behind the identifier, which the
look at the environment reads, and the addresses of the two variables. -/
def registerContext (u : SharedContexts) (contextid : List UInt8)
    (description : Option (List UInt8)) (loglevel tracestatus : Int) (callback : Option Nat)
    (behind : Nat → Char) (levelPtr statusPtr : Nat) (write : WriteOutcome) :
    MctReturnValue × Option ContextHandle × SharedContexts :=
  if contextid.headD 0 = 0 then (.wrongParameter, none, u)
  else if loglevel < mctUserLogLevelNotSet ∨ mctLogMax ≤ loglevel then (.wrongParameter, none, u)
  else if tracestatus < mctUserTraceStatusNotSet ∨ mctTraceStatusMax ≤ tracestatus then
    (.wrongParameter, none, u)
  else
    let envLogLevel := mctEnvAdjustLlFromEnv u.initialLlSet (appIdMemory u.appID)
      (ctidMemory (byteChars contextid) behind) mctUserLogLevelNotSet
    let entry :=
      newContext contextid description envLogLevel loglevel tracestatus callback levelPtr statusPtr
    let handle : ContextHandle :=
      ⟨setIdBytes contextid, u.mctLlTs.length, some levelPtr, some statusPtr, 0⟩
    let level := if envLogLevel ≠ mctUserLogLevelNotSet then envLogLevel else loglevel
    let (ret, u) := { u with mctLlTs := u.mctLlTs ++ [entry] }.sendRegisterContext handle.contextID
      handle.logLevelPos level tracestatus description write
    (ret, some handle, u)

/-- An entry after `mct_unregister_context`. -/
def clearContext (entry : RegisteredContext) : RegisteredContext :=
  { entry with
    contextID := setIdBytes []
    logLevel := mctUserInitialLogLevel
    traceStatus := mctUserInitialTraceStatus
    contextDescription := none
    logLevelPtr := none
    traceStatusPtr := none
    injectionTable := []
    logLevelChangedCallback := none }

def unregisterContext (u : SharedContexts) (handle : ContextHandle) (write : WriteOutcome) :
    MctReturnValue × SharedContexts :=
  { u with mctLlTs := u.mctLlTs.modify handle.logLevelPos clearContext }.sendUnregisterContext
    handle.contextID write

/-- The loop of `mct_user_log_resend_buffer` on the messages from the `i`-th on, where
`ResendBuffer` has their bytes. -/
def resendFrom (out : Nat → MctReturnValue) :
    Nat → List UserMessage → SharedContexts → MctReturnValue × SharedContexts
  | _, [], u => (.ok, u)
  | i, message :: rest, u =>
      let ret := mctUserLogOut3 u.mctLogHandle (out i)
      if ret = .ok then
        resendFrom out (i + 1) rest
          { u with
            startupBuffer := rest
            connection := u.connection ++ [message.replayed u.appID.bytes] }
      else (ret, { u with mctLogHandle := if ret = .pipeError then -1 else u.mctLogHandle })

def resendBuffer (u : SharedContexts) (out : Nat → MctReturnValue) :
    MctReturnValue × SharedContexts :=
  if u.appID.isEmpty then (.ok, u) else resendFrom out 0 u.startupBuffer u

/-- The loop of `mct_user_log_reattach_to_daemon` over the entries from the `num`-th on. -/
def registerStored (writes : Nat → WriteOutcome) :
    Nat → List RegisteredContext → SharedContexts → SharedContexts
  | _, [], u => u
  | num, entry :: rest, u =>
      if ¬ u.appID.isEmpty ∧ ¬ entry.contextID.isEmpty then
        let (ret, u) := u.sendRegisterContext entry.contextID num mctUserLogLevelNotSet
          mctUserTraceStatusNotSet entry.contextDescription (writes (num + 1))
        if ret.code < MctReturnValue.error.code then u else registerStored writes (num + 1) rest u
      else registerStored writes (num + 1) rest u

/-- `mct_user_log_reattach_to_daemon`, with the connection that it gets. -/
def reattachToDaemon (u : SharedContexts) (fd : Int) (writes : Nat → WriteOutcome) :
    SharedContexts :=
  if u.mctLogHandle < 0 then
    if fd < 0 then { u with mctLogHandle := -1 }
    else
      let (ret, u) := { u with mctLogHandle := fd, connection := [] }.sendRegisterApplication
        (writes 0)
      if ret.code < MctReturnValue.error.code then u else registerStored writes 0 u.mctLlTs u
  else u

end SharedContexts

end Model

section Meaning

def UserMessage.contextOp : UserMessage → Option (IdBytes × Option Nat)
  | .registerContext _ ctid logLevelPos _ _ _ _ => some (ctid, some logLevelPos.toNat)
  | .unregisterContext _ ctid _ => some (ctid, none)
  | _ => none

/-- Where an identifier stands among those of the entries. An empty one is that of an entry
without a context. -/
def positionIn (ids : List IdBytes) (id : IdBytes) : Option Nat :=
  if id.isEmpty then none else ids.findIdx? fun other => other = id

/-- No identifier stands at two places. -/
def LiveOnce (ids : List IdBytes) : Prop :=
  ∀ (i j : Nat) (id : IdBytes), id.isEmpty = false → ids[i]? = some id → ids[j]? = some id → i = j

/-- A message as the library of this application makes it. -/
def UserMessage.Of (appID : IdBytes) : UserMessage → Prop
  | .registerApplication apid _ _ => apid = appID
  | .registerContext apid ctid logLevelPos logLevel traceStatus _ _ =>
      apid = appID ∧ ((idOf ctid).Canonical ∧ (idOf ctid).isEmpty = false) ∧
        logLevelPos.toNat < 2147483648 ∧
        MctDaemonUsers.LevelsValid logLevel.toInt8.toInt traceStatus.toInt8.toInt
  | .unregisterContext apid ctid _ => apid = appID ∧ (idOf ctid).Canonical
  | .unregisterApplication _ _ => False
  | .appLlTs apid _ _ => apid = appID
  | _ => True

def UserMessage.ChangesTables : UserMessage → Prop
  | .overflow _ _ => False
  | .marker => False
  | .log _ => False
  | _ => True

/-- The daemon takes the message for this one. -/
def UserMessage.TakenAs : UserMessage → Daemon.UserMessage → Prop
  | .registerApplication apid pid description,
      .registerApplication apid' pid' description' _ _ _ _ =>
      apid' = idOf apid ∧ pid' = int32 pid.toNat ∧ description' = byteChars description
  | .registerContext apid ctid logLevelPos logLevel traceStatus _ description,
      .registerContext apid' ctid' logLevel' traceStatus' logLevelPos' description' _ _ =>
      (apid' = idOf apid ∧ ctid' = idOf ctid) ∧ logLevelPos' = int32 logLevelPos.toNat ∧
        (logLevel' = logLevel.toInt8.toInt ∧ traceStatus' = traceStatus.toInt8.toInt) ∧
        description' = byteChars description
  | .unregisterContext apid ctid _, .unregisterContext apid' ctid' =>
      apid' = idOf apid ∧ ctid' = idOf ctid
  | .unregisterApplication apid _, .unregisterApplication apid' => apid' = idOf apid
  | .appLlTs apid logLevel traceStatus, .setAppLlTs apid' logLevel' traceStatus' _ =>
      apid' = idOf apid ∧ logLevel' = logLevel.toInt8.toInt ∧
        traceStatus' = traceStatus.toInt8.toInt
  | _, _ => False

/-- The application can be reached, and no message about the block mode that follows fails with
EPIPE. -/
def Answered (ipc : MctIpc) : Daemon.UserMessage → Prop
  | .registerApplication _ _ _ fd opened _ writes =>
      (openUserHandle ipc fd opened).1 ≠ 0 ∧ ∀ i, (writes i).epipe = false
  | _ => True

/-- The daemon serves the messages of one connection in their order, and in between those of
other applications and of its clients. -/
inductive Delivers (ipc : MctIpc) (apid : ID4) :
    List UserMessage → List Daemon.UserMessage → Prop
  | nil : Delivers ipc apid [] []
  | taken {message served messages all} (htaken : UserMessage.TakenAs message served)
      (hanswered : Answered ipc served) (hlater : Delivers ipc apid messages all) :
      Delivers ipc apid (message :: messages) (served :: all)
  | passed {message messages all} (hpassed : ¬ UserMessage.ChangesTables message)
      (hlater : Delivers ipc apid messages all) : Delivers ipc apid (message :: messages) all
  | other {served messages all} (hproper : Daemon.UserMessage.Proper ipc apid served)
      (hother : contextAssignment apid served = none) (hlater : Delivers ipc apid messages all) :
      Delivers ipc apid messages (served :: all)

namespace SharedContexts

def ids (u : SharedContexts) : List IdBytes := u.mctLlTs.map fun entry => entry.contextID

/-- The position of each context that is registered. -/
def position (u : SharedContexts) : IdBytes → Option Nat := positionIn u.ids

def waiting (u : SharedContexts) : List (IdBytes × Option Nat) :=
  u.startupBuffer.filterMap UserMessage.contextOp

/-- Nothing about the context waits, or the new message is to wait behind it. -/
def Behind (u : SharedContexts) (id : IdBytes) (write : WriteOutcome) : Prop :=
  id ∉ u.waiting.map Prod.fst ∨
    mctUserLogOut3 u.mctLogHandle write.answer ≠ .ok ∧ write.room = true

/-- What the library keeps of an application that has registered. -/
structure Sharing (u : SharedContexts) : Prop where
  application : (idOf u.appID).Canonical ∧ u.appID.isEmpty = false ∧ u.mctIsFile = false
  levels : ∀ item ∈ u.initialLlSet.entries, mctUserLogLevelNotSet ≤ item.ll ∧ item.ll < mctLogMax
  live : LiveOnce u.ids
  canonical : ∀ id ∈ u.ids, (idOf id).Canonical
  short : u.mctLlTs.length ≤ 2147483648
  own : ∀ message ∈ u.startupBuffer, message.Of u.appID
  repeats : Repeats u.position u.waiting

end SharedContexts

/-- The calls and events that change what the library keeps. -/
inductive SharingOp where
  | register (contextid : List UInt8) (description : Option (List UInt8))
      (loglevel tracestatus : Int) (callback : Option Nat) (behind : Nat → Char)
      (levelPtr statusPtr : Nat) (write : WriteOutcome)
  | unregister (handle : ContextHandle) (write : WriteOutcome)
  | send (message : UserMessage) (write : WriteOutcome)
  | resend (out : Nat → MctReturnValue)
  | reattach (fd : Int) (writes : Nat → WriteOutcome)
  | hangUp

namespace SharingOp

def step (u : SharedContexts) : SharingOp → Unit × SharedContexts
  | register contextid description loglevel tracestatus callback behind levelPtr statusPtr write =>
      ((), (u.registerContext contextid description loglevel tracestatus callback behind levelPtr
        statusPtr write).2.2)
  | unregister handle write => ((), (u.unregisterContext handle write).2)
  | send message write => ((), (u.logOut message write).2)
  | resend out => ((), (u.resendBuffer out).2)
  | reattach fd writes => ((), u.reattachToDaemon fd writes)
  | hangUp => ((), { u with mctLogHandle := -1 })

/-- A context is registered once at a time and unregistered with its own handle, no message
about it overtakes one that waits, and other messages are about no context. -/
def Orderly (u : SharedContexts) : SharingOp → Prop
  | register contextid _ _ _ _ _ _ _ write =>
      u.position (setIdBytes contextid) = none ∧ u.mctLlTs.length < 2147483648 ∧
        u.Behind (setIdBytes contextid) write
  | unregister handle write =>
      u.ids[handle.logLevelPos]? = some handle.contextID ∧ handle.contextID.isEmpty = false ∧
        u.Behind handle.contextID write
  | send message _ => message.contextOp = none ∧ message.Of u.appID
  | _ => True

end SharingOp

end Meaning

section Identifiers

theorem toNat_byteChar (b : UInt8) : (Char.ofNat b.toNat).toNat = b.toNat := by
  have hvalid : b.toNat.isValidChar := by
    have hlt := b.toNat_lt
    exact Or.inl (by omega)
  rw [Char.ofNat, dif_pos hvalid]
  rfl

theorem byteChar_injective : Function.Injective fun b : UInt8 => Char.ofNat b.toNat := by
  intro a b h
  have htoNat := congrArg Char.toNat h
  simp only [toNat_byteChar] at htoNat
  exact UInt8.toNat_inj.mp htoNat

theorem idOf_injective : Function.Injective idOf := by
  intro a b h
  have hchars : byteChars a.bytes = byteChars b.bytes := congrArg ID4.chars h
  exact IdBytes.ext (List.map_injective_iff.mpr byteChar_injective hchars)

theorem byteChar_eq_zero_iff (b : UInt8) : Char.ofNat b.toNat = '\x00' ↔ b = 0 :=
  ⟨fun h => byteChar_injective h, fun h => h ▸ rfl⟩

theorem isEmpty_idOf (id : IdBytes) : (idOf id).isEmpty = id.isEmpty := by
  obtain ⟨first, rest, hbytes⟩ := id.exists_cons
  have hchars : (idOf id).chars = Char.ofNat first.toNat :: byteChars rest := by
    change byteChars id.bytes = _
    rw [hbytes]
    rfl
  rw [ID4.isEmpty, IdBytes.isEmpty, hchars, hbytes, List.head?_cons, List.head?_cons]
  simp only [Option.some.injEq, byteChar_eq_zero_iff]

theorem idOf_setIdBytes_canonical (text : List UInt8) : (idOf (setIdBytes text)).Canonical := by
  have hfree : '\x00' ∉ byteChars ((text.take mctIdSize).takeWhile (· ≠ 0)) := by
    intro hmem
    obtain ⟨b, hb, hchar⟩ := List.mem_map.mp hmem
    have hne := List.mem_takeWhile_imp hb
    rw [(byteChar_eq_zero_iff b).mp hchar] at hne
    exact absurd hne (by decide)
  have hlength : (byteChars ((text.take mctIdSize).takeWhile (· ≠ 0))).length ≤ mctIdSize := by
    rw [byteChars, List.length_map]
    exact IdBytes.take_length text
  have hset : idOf (setIdBytes text) =
      setId (byteChars ((text.take mctIdSize).takeWhile (· ≠ 0))) := by
    apply ID4.chars_injective
    simp only [idOf, setIdBytes, setId, idText_eq_self hlength hfree]
    rw [byteChars, List.map_append, List.map_replicate]
    simp [byteChars]
  rw [hset]
  exact setId_setId _

theorem isEmpty_setIdBytes_nil : (setIdBytes []).isEmpty = true := rfl

theorem isEmpty_setIdBytes {text : List UInt8} (h : text.headD 0 ≠ 0) :
    (setIdBytes text).isEmpty = false := by
  obtain ⟨rest, hbytes⟩ := setIdBytes_head h
  rw [IdBytes.isEmpty, hbytes, List.head?_cons]
  simpa using h

end Identifiers

section Positions

variable {ids : List IdBytes} {id : IdBytes} {p : Nat}

theorem positionIn_eq_some_iff (hlive : LiveOnce ids) (hid : id.isEmpty = false) :
    positionIn ids id = some p ↔ ids[p]? = some id := by
  unfold positionIn
  rw [if_neg (ne_true_of_eq_false hid), List.findIdx?_eq_some_iff_getElem]
  constructor
  · rintro ⟨hp, hsame, _⟩
    rw [List.getElem?_eq_getElem hp, of_decide_eq_true hsame]
  · intro hget
    obtain ⟨hp, hsame⟩ := List.getElem?_eq_some_iff.mp hget
    refine ⟨hp, decide_eq_true hsame, ?_⟩
    intro j hj hother
    have hjlt : j < ids.length := hj.trans hp
    have hjget : ids[j]? = some id := by
      rw [List.getElem?_eq_getElem hjlt, of_decide_eq_true hother]
    have hjp := hlive j p id hid hjget hget
    omega

theorem positionIn_empty (hid : id.isEmpty = true) : positionIn ids id = none := by
  rw [positionIn, if_pos hid]

theorem notMem_of_positionIn (hid : id.isEmpty = false) (h : positionIn ids id = none) :
    id ∉ ids := by
  unfold positionIn at h
  rw [if_neg (ne_true_of_eq_false hid), List.findIdx?_eq_none_iff] at h
  intro hmem
  exact absurd rfl (of_decide_eq_false (h id hmem))

theorem liveOnce_concat (hlive : LiveOnce ids) (hnew : id ∉ ids) : LiveOnce (ids ++ [id]) := by
  have hold : ∀ (i : Nat) (other : IdBytes), (ids ++ [id])[i]? = some other →
      ids[i]? = some other ∨ i = ids.length ∧ other = id := by
    intro i other hget
    rcases Nat.lt_or_ge i ids.length with hlt | hge
    · rw [List.getElem?_append_left hlt] at hget
      exact .inl hget
    · rw [List.getElem?_append_right hge, List.getElem?_singleton] at hget
      split at hget
      · next hzero => exact .inr ⟨by omega, (Option.some.inj hget).symm⟩
      · cases hget
  intro i j other hother hi hj
  rcases hold i other hi with hi | ⟨hi, hiid⟩
  · rcases hold j other hj with hj | ⟨hj, hjid⟩
    · exact hlive i j other hother hi hj
    · exact absurd (hjid ▸ List.mem_of_getElem? hi) hnew
  · rcases hold j other hj with hj | ⟨hj, hjid⟩
    · exact absurd (hiid ▸ List.mem_of_getElem? hj) hnew
    · rw [hi, hj]

theorem positionIn_concat (hlive : LiveOnce ids) (hid : id.isEmpty = false) (hnew : id ∉ ids) :
    positionIn (ids ++ [id]) = Function.update (positionIn ids) id (some ids.length) := by
  have hlive' := liveOnce_concat hlive hnew
  funext other
  by_cases hother : other = id
  · rw [hother, Function.update_self, positionIn_eq_some_iff hlive' hid,
      List.getElem?_append_right le_rfl, Nat.sub_self]
    rfl
  · rw [Function.update_of_ne hother]
    cases hempty : other.isEmpty with
    | true => rw [positionIn_empty hempty, positionIn_empty hempty]
    | false =>
        apply Option.ext
        intro p
        rw [positionIn_eq_some_iff hlive' hempty, positionIn_eq_some_iff hlive hempty]
        rcases Nat.lt_or_ge p ids.length with hlt | hge
        · rw [List.getElem?_append_left hlt]
        · rw [List.getElem?_append_right hge, List.getElem?_eq_none hge, List.getElem?_singleton]
          split
          · simp [Ne.symm hother]
          · rfl

/-- Taking a context back frees its entry. -/
theorem getElem?_clear {empty other : IdBytes} (hempty : empty.isEmpty = true)
    (hother : other.isEmpty = false) (hp : ids[p]? = some id) (i : Nat) :
    (ids.set p empty)[i]? = some other ↔ ids[i]? = some other ∧ i ≠ p := by
  obtain ⟨hlt, _⟩ := List.getElem?_eq_some_iff.mp hp
  by_cases hip : p = i
  · subst hip
    rw [List.getElem?_set_self hlt]
    apply iff_of_false
    · intro hsame
      rw [Option.some.inj hsame, hother] at hempty
      exact Bool.false_ne_true hempty
    · exact fun h => h.2 rfl
  · rw [List.getElem?_set_ne hip]
    exact (and_iff_left (Ne.symm hip)).symm

theorem liveOnce_clear {empty : IdBytes} (hempty : empty.isEmpty = true) (hlive : LiveOnce ids)
    (hp : ids[p]? = some id) : LiveOnce (ids.set p empty) := by
  intro i j other hother hi hj
  exact hlive i j other hother ((getElem?_clear hempty hother hp i).mp hi).1
    ((getElem?_clear hempty hother hp j).mp hj).1

theorem positionIn_clear {empty : IdBytes} (hempty : empty.isEmpty = true) (hlive : LiveOnce ids)
    (hid : id.isEmpty = false) (hp : ids[p]? = some id) :
    positionIn (ids.set p empty) = Function.update (positionIn ids) id none := by
  have hlive' := liveOnce_clear hempty hlive hp
  funext other
  cases hother : other.isEmpty with
  | true =>
      have hne : other ≠ id := by
        rintro rfl
        rw [hid] at hother
        exact Bool.false_ne_true hother
      rw [Function.update_of_ne hne, positionIn_empty hother, positionIn_empty hother]
  | false =>
      apply Option.ext
      intro q
      rw [positionIn_eq_some_iff hlive' hother, getElem?_clear hempty hother hp]
      by_cases hsame : other = id
      · subst hsame
        rw [Function.update_self]
        apply iff_of_false
        · exact fun h => h.2 (hlive q p other hother h.1 hp)
        · exact fun h => by cases h
      · rw [Function.update_of_ne hsame, positionIn_eq_some_iff hlive hother]
        apply and_iff_left_of_imp
        rintro hq rfl
        rw [hp] at hq
        exact hsame (Option.some.inj hq).symm

end Positions

namespace SharedContexts

variable {u : SharedContexts} {message : UserMessage} {id : IdBytes} {write : WriteOutcome}

section Keep

/-- The connection and the buffer may change as long as the buffer is right. -/
theorem Sharing.withBuffer (h : u.Sharing) {buffer : List UserMessage}
    (hown : ∀ message ∈ buffer, message.Of u.appID)
    (hrepeats : Repeats u.position (buffer.filterMap UserMessage.contextOp))
    (connection : List UserMessage) (mctLogHandle : Int) :
    Sharing { u with startupBuffer := buffer, connection, mctLogHandle } :=
  ⟨h.application, h.levels, h.live, h.canonical, h.short, hown, hrepeats⟩

theorem Sharing.withConnection (h : u.Sharing) (connection : List UserMessage)
    (mctLogHandle : Int) : Sharing { u with connection, mctLogHandle } :=
  h.withBuffer h.own h.repeats connection mctLogHandle

theorem filterMap_concat (messages : List UserMessage) (message : UserMessage) :
    (messages ++ [message]).filterMap UserMessage.contextOp =
      messages.filterMap UserMessage.contextOp ++ message.contextOp.toList := by
  rw [List.filterMap_append]
  cases hop : message.contextOp with
  | none => simp [hop]
  | some op => simp [hop]

theorem Sharing.own_concat (h : u.Sharing) (hof : message.Of u.appID) :
    ∀ other ∈ u.startupBuffer ++ [message], other.Of u.appID := by
  intro other hother
  rcases List.mem_append.mp hother with hold | hnew
  · exact h.own other hold
  · rw [List.mem_singleton.mp hnew]
    exact hof

/-- A message that says nothing else than what the library has may be written or stored. -/
theorem Sharing.logOut (h : u.Sharing) (hof : message.Of u.appID)
    (hcurrent : ∀ op ∈ message.contextOp.toList, op.2 = u.position op.1) (write : WriteOutcome) :
    (u.logOut message write).2.Sharing := by
  unfold SharedContexts.logOut
  split
  · exact h.withConnection _ _
  · unfold logOutErrorHandling
    split
    · apply h.withBuffer (h.own_concat hof)
      rw [filterMap_concat]
      exact h.repeats.append (repeats_of_current hcurrent)
    · exact h

/-- A change of one context is told by a message that overtakes none about it. -/
theorem Sharing.change (h : u.Sharing) {entries : List RegisteredContext} {v : Option Nat}
    (hlive : LiveOnce (entries.map fun entry => entry.contextID))
    (hcanonical : ∀ id ∈ entries.map (fun entry => entry.contextID), (idOf id).Canonical)
    (hshort : entries.length ≤ 2147483648)
    (hposition : ({ u with mctLlTs := entries } : SharedContexts).position =
      Function.update u.position id v)
    (hof : message.Of u.appID) (hop : message.contextOp = some (id, v))
    (hbehind : u.Behind id write) :
    (({ u with mctLlTs := entries } : SharedContexts).logOut message write).2.Sharing := by
  rcases hbehind with hnone | ⟨hfails, hroom⟩
  · have hchanged : Sharing { u with mctLlTs := entries } :=
      ⟨h.application, h.levels, hlive, hcanonical, hshort, h.own, by
        rw [hposition]
        exact h.repeats.update hnone v⟩
    apply hchanged.logOut hof
    intro op hmem
    rw [hop, Option.toList_some, List.mem_singleton] at hmem
    rw [hmem, hposition, Function.update_self]
  · unfold SharedContexts.logOut logOutErrorHandling
    rw [if_neg hfails, if_pos hroom]
    refine ⟨h.application, h.levels, hlive, hcanonical, hshort, h.own_concat hof, ?_⟩
    have hconcat := h.repeats.concat id v
    rw [← hposition] at hconcat
    unfold waiting
    rw [filterMap_concat, hop]
    exact hconcat

@[simp] theorem logOut_mctLlTs (message : UserMessage) (write : WriteOutcome) :
    (u.logOut message write).2.mctLlTs = u.mctLlTs := by
  unfold SharedContexts.logOut logOutErrorHandling
  split
  · rfl
  · split <;> rfl

theorem Sharing.sendRegisterApplication (h : u.Sharing) (write : WriteOutcome) :
    (u.sendRegisterApplication write).2.Sharing := by
  unfold SharedContexts.sendRegisterApplication
  split
  · exact h
  · split
    · exact h
    · have hof : (UserMessage.registerApplication u.appID u.pid
          (u.applicationDescription.getD [])).Of u.appID := rfl
      exact h.logOut hof (fun _ hmem => absurd hmem List.not_mem_nil) write

theorem sendRegisterContext_eq (happ : u.appID.isEmpty = false) (hfile : u.mctIsFile = false)
    (hid : id.isEmpty = false) (logLevelPos : Nat) (logLevel traceStatus : Int)
    (description : Option (List UInt8)) (write : WriteOutcome) :
    u.sendRegisterContext id logLevelPos logLevel traceStatus description write =
      u.logOut (.registerContext u.appID id (UInt32.ofNat logLevelPos) (levelByte logLevel)
        (levelByte traceStatus) u.pid (description.getD [])) write := by
  unfold SharedContexts.sendRegisterContext
  rw [if_neg (ne_true_of_eq_false hid), if_neg (ne_true_of_eq_false hfile)]
  simp only
  rw [if_neg (ne_true_of_eq_false happ)]

theorem sendUnregisterContext_eq (hfile : u.mctIsFile = false) (hid : id.isEmpty = false)
    (write : WriteOutcome) :
    u.sendUnregisterContext id write = u.logOut (.unregisterContext u.appID id u.pid) write := by
  unfold SharedContexts.sendUnregisterContext
  rw [if_neg (ne_true_of_eq_false hid), if_neg (ne_true_of_eq_false hfile)]

end Keep

section Calls

theorem levelByte_toInt {level : Int} (hlow : -128 ≤ level) (hhigh : level < 128) :
    (levelByte level).toInt8.toInt = level := by
  rw [levelByte, Int8.toInt8_toUInt8, Int8.toInt_ofInt_of_le]
  · exact hlow
  · exact hhigh

theorem toNat_position {pos : Nat} (h : pos < 2147483648) : (UInt32.ofNat pos).toNat = pos := by
  rw [UInt32.toNat_ofNat']
  omega

/-- The registration of a context as the daemon is to accept it. -/
theorem registration_of {pos : Nat} {level status : Int} (hid : id.isEmpty = false)
    (hcanonical : (idOf id).Canonical) (hpos : pos < 2147483648)
    (hlevel : mctUserLogLevelNotSet ≤ level ∧ level < mctLogMax)
    (hstatus : mctUserTraceStatusNotSet ≤ status ∧ status < mctTraceStatusMax) (appID : IdBytes)
    (pid : UInt32) (description : List UInt8) :
    (UserMessage.registerContext appID id (UInt32.ofNat pos) (levelByte level) (levelByte status)
      pid description).Of appID := by
  simp only [mctUserLogLevelNotSet, mctLogMax] at hlevel
  simp only [mctUserTraceStatusNotSet, mctTraceStatusMax] at hstatus
  refine ⟨rfl, ⟨hcanonical, (isEmpty_idOf id).trans hid⟩, ?_, ?_⟩
  · rw [toNat_position hpos]
    exact hpos
  · rw [levelByte_toInt (by omega) (by omega), levelByte_toInt (by omega) (by omega)]
    unfold MctDaemonUsers.LevelsValid
    simp only [Daemon.mctUserLogLevelNotSet, mctLogVerbose, Daemon.mctUserTraceStatusNotSet,
      mctTraceStatusOn]
    omega

theorem adjustLoop_mem (apid ctid : Nat → Char) (items : List MctEnvLlItem) (res : Int)
    (prio : Nat) :
    adjustLoop apid ctid items res prio = res ∨
      ∃ item ∈ items, adjustLoop apid ctid items res prio = item.ll := by
  induction items generalizing res prio with
  | nil => exact .inl rfl
  | cons item items ih =>
      simp only [adjustLoop]
      split
      · split
        · exact .inr ⟨item, List.mem_cons_self, rfl⟩
        · rcases ih item.ll (mctEnvLlItemGetMatchingPrio item apid ctid) with hsame | hother
          · exact .inr ⟨item, List.mem_cons_self, hsame⟩
          · obtain ⟨other, hmem, hll⟩ := hother
            exact .inr ⟨other, List.mem_cons_of_mem item hmem, hll⟩
      · rcases ih res prio with hsame | ⟨other, hmem, hll⟩
        · exact .inl hsame
        · exact .inr ⟨other, List.mem_cons_of_mem item hmem, hll⟩

/-- A level of the environment is one that the daemon accepts, like those that may be asked
for. -/
theorem Sharing.level_bounds (h : u.Sharing) (apid ctid : Nat → Char) {loglevel : Int}
    (hlevel : mctUserLogLevelNotSet ≤ loglevel ∧ loglevel < mctLogMax) {env : Int}
    (henv : mctEnvAdjustLlFromEnv u.initialLlSet apid ctid mctUserLogLevelNotSet = env) :
    mctUserLogLevelNotSet ≤ (if env ≠ mctUserLogLevelNotSet then env else loglevel) ∧
      (if env ≠ mctUserLogLevelNotSet then env else loglevel) < mctLogMax := by
  split
  · rw [← henv, mctEnvAdjustLlFromEnv]
    rcases adjustLoop_mem apid ctid u.initialLlSet.entries mctUserLogLevelNotSet 0 with
      hsame | ⟨item, hmem, hll⟩
    · rw [hsame]
      decide
    · rw [hll]
      exact h.levels item hmem
  · exact hlevel

theorem ids_concat {entry : RegisteredContext} (hentry : entry.contextID = id) :
    (u.mctLlTs ++ [entry]).map (fun entry => entry.contextID) = u.ids ++ [id] := by
  rw [List.map_append, List.map_singleton, hentry]
  rfl

theorem Sharing.register (h : u.Sharing) {contextid : List UInt8}
    (description : Option (List UInt8)) (loglevel tracestatus : Int) (callback : Option Nat)
    (behind : Nat → Char) (levelPtr statusPtr : Nat)
    (hnone : u.position (setIdBytes contextid) = none) (hroom : u.mctLlTs.length < 2147483648)
    (hbehind : u.Behind (setIdBytes contextid) write) :
    (u.registerContext contextid description loglevel tracestatus callback behind levelPtr
      statusPtr write).2.2.Sharing := by
  unfold SharedContexts.registerContext
  split
  · exact h
  split
  · exact h
  split
  · exact h
  next hid hlevel hstatus =>
    simp only
    generalize henv : mctEnvAdjustLlFromEnv u.initialLlSet (appIdMemory u.appID)
      (ctidMemory (byteChars contextid) behind) mctUserLogLevelNotSet = env
    have hlevelBounds := h.level_bounds _ _
      ⟨not_lt.mp fun hlt => hlevel (.inl hlt), not_le.mp fun hle => hlevel (.inr hle)⟩ henv
    generalize (if env ≠ mctUserLogLevelNotSet then env else loglevel) = level at hlevelBounds
    generalize hentry : newContext contextid description env loglevel tracestatus callback levelPtr
      statusPtr = entry
    have hids : (u.mctLlTs ++ [entry]).map (fun entry => entry.contextID) =
        u.ids ++ [setIdBytes contextid] := ids_concat (by rw [← hentry, newContext])
    have hempty := isEmpty_setIdBytes hid
    have hnew := notMem_of_positionIn hempty hnone
    have hof := registration_of hempty (idOf_setIdBytes_canonical contextid) hroom hlevelBounds
      ⟨not_lt.mp fun hlt => hstatus (.inl hlt), not_le.mp fun hle => hstatus (.inr hle)⟩ u.appID
      u.pid (description.getD [])
    rw [@sendRegisterContext_eq { u with mctLlTs := u.mctLlTs ++ [entry] } _ h.application.2.1
      h.application.2.2 hempty]
    apply @Sharing.change u _ (setIdBytes contextid) write h _ (some u.mctLlTs.length)
    · rw [hids]
      exact liveOnce_concat h.live hnew
    · rw [hids]
      intro id hmem
      rcases List.mem_append.mp hmem with hold | hlast
      · exact h.canonical id hold
      · rw [List.mem_singleton.mp hlast]
        exact idOf_setIdBytes_canonical contextid
    · rw [List.length_append, List.length_singleton]
      omega
    · unfold position ids
      rw [hids, positionIn_concat h.live hempty hnew, SharedContexts.ids, List.length_map]
    · exact hof
    · rw [UserMessage.contextOp, toNat_position hroom]
    · exact hbehind

theorem ids_clear (p : Nat) : (u.mctLlTs.modify p clearContext).map
    (fun entry => entry.contextID) = u.ids.set p (setIdBytes []) := by
  apply List.ext_getElem?
  intro i
  rw [List.getElem?_map, List.getElem?_modify, List.getElem?_set]
  simp only [ids, List.length_map, List.getElem?_map]
  by_cases hi : p = i
  · subst hi
    cases hentry : u.mctLlTs[p]? with
    | none =>
        rw [List.getElem?_eq_none_iff] at hentry
        simp [Nat.not_lt.mpr hentry]
    | some entry =>
        have hlt := (List.getElem?_eq_some_iff.mp hentry).1
        simp [hlt, clearContext]
  · simp [hi]

theorem Sharing.unregister (h : u.Sharing) {handle : ContextHandle}
    (hhandle : u.ids[handle.logLevelPos]? = some handle.contextID)
    (hempty : handle.contextID.isEmpty = false) (hbehind : u.Behind handle.contextID write) :
    (u.unregisterContext handle write).2.Sharing := by
  have hids := @ids_clear u handle.logLevelPos
  unfold SharedContexts.unregisterContext
  rw [@sendUnregisterContext_eq { u with
    mctLlTs := u.mctLlTs.modify handle.logLevelPos clearContext } _ h.application.2.2 hempty]
  apply @Sharing.change u _ handle.contextID write h _ none
  · rw [hids]
    exact liveOnce_clear isEmpty_setIdBytes_nil h.live hhandle
  · rw [hids]
    intro id hmem
    rcases List.mem_or_eq_of_mem_set hmem with hold | hcleared
    · exact h.canonical id hold
    · rw [hcleared]
      exact idOf_setIdBytes_canonical []
  · rw [List.length_modify]
    exact h.short
  · unfold position ids
    rw [hids, positionIn_clear isEmpty_setIdBytes_nil h.live hempty hhandle]
    rfl
  · exact ⟨rfl, h.canonical _ (List.mem_of_getElem? hhandle)⟩
  · rfl
  · exact hbehind

/-- A message that is resent is taken out of the buffer. -/
theorem Sharing.resendFrom (out : Nat → MctReturnValue) (i : Nat) (messages : List UserMessage)
    (h : u.Sharing) (hbuffer : u.startupBuffer = messages) :
    (SharedContexts.resendFrom out i messages u).2.Sharing := by
  induction messages generalizing i u with
  | nil => exact h
  | cons message rest ih =>
      simp only [SharedContexts.resendFrom]
      split
      · apply ih _ _ rfl
        have hown : ∀ other ∈ rest, other.Of u.appID := fun other hother =>
          h.own other (by rw [hbuffer]; exact List.mem_cons_of_mem message hother)
        apply h.withBuffer hown
        have hrepeats := h.repeats
        unfold waiting at hrepeats
        rw [hbuffer, List.filterMap_cons] at hrepeats
        cases hop : message.contextOp with
        | none =>
            rw [hop] at hrepeats
            exact hrepeats
        | some op =>
            rw [hop] at hrepeats
            exact hrepeats.tail
      · exact h.withConnection _ _

theorem Sharing.registerStored (writes : Nat → WriteOutcome) (num : Nat)
    (entries : List RegisteredContext) (h : u.Sharing) (hdrop : u.mctLlTs.drop num = entries) :
    (SharedContexts.registerStored writes num entries u).Sharing := by
  induction entries generalizing num u with
  | nil => exact h
  | cons entry rest ih =>
      have hentry : u.mctLlTs[num]? = some entry := by
        rw [← List.head?_drop, hdrop, List.head?_cons]
      have hrest : u.mctLlTs.drop (num + 1) = rest := by
        rw [← List.tail_drop, hdrop, List.tail_cons]
      have hget : u.ids[num]? = some entry.contextID := by
        rw [ids, List.getElem?_map, hentry, Option.map_some]
      simp only [SharedContexts.registerStored]
      split
      · next hnonempty =>
          have hempty : entry.contextID.isEmpty = false := Bool.eq_false_iff.mpr hnonempty.2
          have hlt := (List.getElem?_eq_some_iff.mp hentry).1
          have hshort := h.short
          rw [sendRegisterContext_eq h.application.2.1 h.application.2.2 hempty]
          have hpos : num < 2147483648 := hlt.trans_le hshort
          have hof := @registration_of entry.contextID num mctUserLogLevelNotSet
            mctUserTraceStatusNotSet hempty (h.canonical _ (List.mem_of_getElem? hget)) hpos
            (by decide) (by decide) u.appID u.pid (entry.contextDescription.getD [])
          have hsent := h.logOut hof (by
            intro op hop
            rw [UserMessage.contextOp, Option.toList_some, List.mem_singleton] at hop
            rw [hop, toNat_position hpos]
            exact ((positionIn_eq_some_iff h.live hempty).mpr hget).symm) (writes (num + 1))
          split
          · exact hsent
          · apply ih _ hsent
            rw [logOut_mctLlTs]
            exact hrest
      · exact ih _ h hrest

theorem Sharing.reattach (h : u.Sharing) (fd : Int) (writes : Nat → WriteOutcome) :
    (u.reattachToDaemon fd writes).Sharing := by
  unfold SharedContexts.reattachToDaemon
  split
  · split
    · exact h.withConnection _ _
    · have hopened := h.withConnection [] fd
      have hsent := hopened.sendRegisterApplication (writes 0)
      simp only
      split
      · exact hsent
      · exact hsent.registerStored writes 0 _ rfl
  · exact h

/-- What is done to the library in order leaves it so that the startup buffer, replayed to
its end, says what the library has. -/
theorem Sharing.step (h : u.Sharing) {op : SharingOp} (hop : op.Orderly u) :
    (op.step u).2.Sharing := by
  cases op with
  | register contextid description loglevel tracestatus callback behind levelPtr statusPtr write =>
      exact h.register description loglevel tracestatus callback behind levelPtr statusPtr hop.1
        hop.2.1 hop.2.2
  | unregister handle write => exact h.unregister hop.1 hop.2.1 hop.2.2
  | send message write =>
      apply h.logOut hop.2
      rw [hop.1]
      exact fun _ hmem => absurd hmem List.not_mem_nil
  | resend out =>
      simp only [SharingOp.step, SharedContexts.resendBuffer]
      split
      · exact h
      · exact h.resendFrom out 0 _ rfl
  | reattach fd writes => exact h.reattach fd writes
  | hangUp => exact h.withConnection _ _

end Calls

section Replay

variable {malloc : Malloc} {out : Nat → MctReturnValue} {resender : Resender}

/-- The resender stores the bytes of the messages that wait, and can replay them. -/
structure WaitsAs (resender : Resender) (u : SharedContexts) : Prop where
  appID : resender.appID = u.appID.bytes
  stored : Stores resender u.startupBuffer
  inside : resender.overrun = false
  faithful : ∀ message ∈ u.startupBuffer,
    Faithful resender.logBufLen resender.resendBuffer.length message

theorem WaitsAs.registered (h : WaitsAs resender u) :
    resender.appID.headD 0 = 0 ↔ u.appID.isEmpty = true := by
  have hlength := u.appID.length_eq
  rw [h.appID, IdBytes.isEmpty, decide_eq_true_iff]
  cases hbytes : u.appID.bytes with
  | nil =>
      rw [hbytes] at hlength
      exact absurd hlength (by decide)
  | cons byte rest => simp

theorem resendFrom_handle (out : Nat → MctReturnValue) (i : Nat) (messages : List UserMessage)
    (u : SharedContexts) :
    (SharedContexts.resendFrom out i messages u).2.mctLogHandle =
      if (SharedContexts.resendFrom out i messages u).1 = .pipeError then -1
      else u.mctLogHandle := by
  induction messages generalizing i u with
  | nil => simp [SharedContexts.resendFrom]
  | cons message rest ih =>
      simp only [SharedContexts.resendFrom]
      split
      · exact ih (i + 1) _
      · rfl

/-- The loop over the messages does what the loop over their bytes does. -/
theorem WaitsAs.resendFrom (h : WaitsAs resender u) (happ : u.appID.isEmpty = false) (i : Nat)
    (messages : List UserMessage) (hbuffer : u.startupBuffer = messages) :
    let run := resendLoop malloc (fun i => mctUserLogOut3 u.mctLogHandle (out i)) messages.length
      i resender
    let result := SharedContexts.resendFrom out i messages u
    run.2.1 = result.1 ∧ WaitsAs run.2.2 result.2 ∧
      result.2.connection.map UserMessage.bytes =
        u.connection.map UserMessage.bytes ++ accepted run.1 run.2.1 := by
  induction messages generalizing i u resender with
  | nil => exact ⟨rfl, h, (List.append_nil _).symm⟩
  | cons message rest ih =>
      obtain ⟨happID, hstored, hinside, hfaithful⟩ := id h
      have hhead : resender.appID.headD 0 ≠ 0 :=
        fun hzero => ne_true_of_eq_false happ (h.registered.mp hzero)
      rw [hbuffer] at hstored hfaithful
      obtain ⟨next, failed, bytes, beyond, hnext, hsame, hover, hfailed, hfailedSame, hfailedOver,
        hbytes, hround⟩ := resendLoop_round malloc
          (fun i => mctUserLogOut3 u.mctLogHandle (out i)) hhead hstored rest.length i
      obtain ⟨hsent, hwithin⟩ := hbytes.mpr (hfaithful message List.mem_cons_self)
      rw [hinside, hwithin, Bool.or_false] at hover hfailedOver
      simp only [List.length_cons, hround, SharedContexts.resendFrom]
      split
      · have hwaits : WaitsAs next { u with
            startupBuffer := rest
            connection := u.connection ++ [message.replayed u.appID.bytes] } :=
          ⟨hsame.appID.trans happID, hnext, hover, fun other hother => by
            rw [hsame.logBufLen, hsame.room]
            exact hfaithful other (List.mem_cons_of_mem _ hother)⟩
        obtain ⟨hret, hafter, hconnection⟩ := ih hwaits happ (i + 1) rfl
        refine ⟨hret, hafter, hconnection.trans ?_⟩
        rw [accepted_cons bytes (resendLoop_offered malloc _ rest.length (i + 1) next),
          List.map_append, List.map_singleton, List.append_assoc, List.singleton_append, hsent,
          happID]
      · next hrefused =>
          refine ⟨rfl, ⟨hfailedSame.appID.trans happID, hbuffer ▸ hfailed, hfailedOver, ?_⟩, ?_⟩
          · intro other hother
            rw [hfailedSame.logBufLen, hfailedSame.room]
            exact hfaithful other (hbuffer ▸ hother)
          · unfold accepted
            rw [if_neg hrefused]
            exact (List.append_nil _).symm

/-- The replay of the messages is the replay of their bytes: it answers the same, keeps the
same messages and the same connection, and writes the same to it. -/
theorem WaitsAs.resendBuffer (h : WaitsAs resender u)
    (hhandle : resender.mctLogHandle = u.mctLogHandle) :
    let run := mctUserLogResendBuffer malloc
      (fun i => mctUserLogOut3 resender.mctLogHandle (out i)) resender
    let result := u.resendBuffer out
    run.2.1 = result.1 ∧ WaitsAs run.2.2 result.2 ∧
      run.2.2.mctLogHandle = result.2.mctLogHandle ∧
      result.2.connection.map UserMessage.bytes =
        u.connection.map UserMessage.bytes ++ accepted run.1 run.2.1 := by
  unfold mctUserLogResendBuffer SharedContexts.resendBuffer
  by_cases hempty : u.appID.isEmpty = true
  · rw [if_pos (h.registered.mpr hempty), if_pos hempty]
    exact ⟨rfl, h, hhandle, (List.append_nil _).symm⟩
  · rw [if_neg fun hzero => hempty (h.registered.mp hzero), if_neg hempty, h.stored.messageCount,
      hhandle]
    obtain ⟨hret, hafter, hconnection⟩ := @WaitsAs.resendFrom u malloc out resender h
      (Bool.eq_false_iff.mpr hempty) 0 u.startupBuffer rfl
    refine ⟨hret, hafter, ?_, hconnection⟩
    rw [resendLoop_handle, resendFrom_handle, hret, hhandle]

end Replay

section Recovery

/-- The registrations of the entries from the `num`-th on. -/
def storedMessages (appID : IdBytes) (pid : UInt32) :
    Nat → List RegisteredContext → List UserMessage
  | _, [] => []
  | num, entry :: rest =>
      if entry.contextID.isEmpty then storedMessages appID pid (num + 1) rest
      else
        .registerContext appID entry.contextID (UInt32.ofNat num) (levelByte mctUserLogLevelNotSet)
            (levelByte mctUserTraceStatusNotSet) pid (entry.contextDescription.getD []) ::
          storedMessages appID pid (num + 1) rest

theorem logOut3_accepted {handle : Int} (hhandle : 0 < handle) :
    mctUserLogOut3 handle .ok = .ok := by
  rw [mctUserLogOut3, if_neg (by omega)]

theorem logOut_accepted (hhandle : 0 < u.mctLogHandle) (hwrite : write.answer = .ok)
    (message : UserMessage) :
    u.logOut message write = (.ok, { u with connection := u.connection ++ [message] }) := by
  unfold SharedContexts.logOut
  rw [hwrite, if_pos (logOut3_accepted hhandle)]

theorem registerStored_accepted {writes : Nat → WriteOutcome}
    (hwrites : ∀ i, (writes i).answer = .ok) (happ : u.appID.isEmpty = false)
    (hfile : u.mctIsFile = false) (hhandle : 0 < u.mctLogHandle) (num : Nat)
    (entries : List RegisteredContext) :
    registerStored writes num entries u =
      { u with connection := u.connection ++ storedMessages u.appID u.pid num entries } := by
  induction entries generalizing num u with
  | nil => simp [registerStored, storedMessages]
  | cons entry rest ih =>
      simp only [registerStored, storedMessages]
      cases hempty : entry.contextID.isEmpty with
      | true =>
          rw [if_neg (by simp), if_pos rfl]
          exact ih happ hfile hhandle (num + 1)
      | false =>
          rw [if_pos (by simp [happ]), if_neg Bool.false_ne_true,
            sendRegisterContext_eq happ hfile hempty, logOut_accepted hhandle (hwrites _)]
          simp only
          rw [if_neg (by decide)]
          generalize UserMessage.registerContext u.appID entry.contextID (UInt32.ofNat num)
            (levelByte mctUserLogLevelNotSet) (levelByte mctUserTraceStatusNotSet) u.pid
            (entry.contextDescription.getD []) = message
          rw [@ih { u with connection := u.connection ++ [message] } happ hfile hhandle (num + 1)]
          simp only [List.append_assoc, List.singleton_append]

theorem resendFrom_accepted {out : Nat → MctReturnValue} (hout : ∀ i, out i = .ok)
    (hhandle : 0 < u.mctLogHandle) (i : Nat) (messages : List UserMessage)
    (hbuffer : u.startupBuffer = messages) :
    (SharedContexts.resendFrom out i messages u).2 =
      { u with
        startupBuffer := []
        connection := u.connection ++ messages.map (UserMessage.replayed u.appID.bytes) } := by
  induction messages generalizing i u with
  | nil =>
      rw [SharedContexts.resendFrom, List.map_nil, List.append_nil, ← hbuffer]
  | cons message rest ih =>
      simp only [SharedContexts.resendFrom]
      rw [hout, if_pos (logOut3_accepted hhandle),
        @ih { u with
          startupBuffer := rest
          connection := u.connection ++ [message.replayed u.appID.bytes] } hhandle (i + 1) rfl]
      simp only [List.map_cons, List.append_assoc, List.singleton_append]

/-- What the library writes to a connection that takes everything: the application, its
contexts, and what waited. -/
theorem Sharing.reattached (h : u.Sharing) (hdetached : u.mctLogHandle < 0) {fd : Int}
    (hfd : 0 < fd) {writes : Nat → WriteOutcome} (hwrites : ∀ i, (writes i).answer = .ok)
    {out : Nat → MctReturnValue} (hout : ∀ i, out i = .ok) :
    ((u.reattachToDaemon fd writes).resendBuffer out).2.connection =
      .registerApplication u.appID u.pid (u.applicationDescription.getD []) ::
        (storedMessages u.appID u.pid 0 u.mctLlTs ++
          u.startupBuffer.map (UserMessage.replayed u.appID.bytes)) := by
  obtain ⟨_, happ, hfile⟩ := h.application
  have hattached : u.reattachToDaemon fd writes =
      { u with
        mctLogHandle := fd
        connection := .registerApplication u.appID u.pid (u.applicationDescription.getD []) ::
          storedMessages u.appID u.pid 0 u.mctLlTs } := by
    have hopened : ({ u with mctLogHandle := fd, connection := [] } :
        SharedContexts).sendRegisterApplication (writes 0) =
        (.ok, { u with
          mctLogHandle := fd
          connection := [.registerApplication u.appID u.pid
            (u.applicationDescription.getD [])] }) := by
      unfold SharedContexts.sendRegisterApplication
      rw [if_neg (ne_true_of_eq_false happ), if_neg (ne_true_of_eq_false hfile)]
      exact @logOut_accepted { u with mctLogHandle := fd, connection := [] } _ hfd (hwrites 0) _
    unfold SharedContexts.reattachToDaemon
    rw [if_pos hdetached, if_neg (by omega), hopened]
    simp only
    rw [if_neg (by decide)]
    exact @registerStored_accepted { u with
      mctLogHandle := fd
      connection := [.registerApplication u.appID u.pid (u.applicationDescription.getD [])] } _
      hwrites happ hfile hfd 0 u.mctLlTs
  rw [hattached]
  unfold SharedContexts.resendBuffer
  rw [if_neg (ne_true_of_eq_false happ)]
  exact congrArg SharedContexts.connection (@resendFrom_accepted { u with
    mctLogHandle := fd
    connection := .registerApplication u.appID u.pid (u.applicationDescription.getD []) ::
      storedMessages u.appID u.pid 0 u.mctLlTs } _ hout hfd 0 u.startupBuffer rfl)

theorem storedMessages_current (h : u.Sharing) (num : Nat) (entries : List RegisteredContext)
    (hdrop : u.mctLlTs.drop num = entries) :
    (∀ message ∈ storedMessages u.appID u.pid num entries, message.Of u.appID) ∧
      (∀ op ∈ (storedMessages u.appID u.pid num entries).filterMap UserMessage.contextOp,
        op.2 = u.position op.1) ∧
      ∀ (p : Nat) (id : IdBytes), num ≤ p → id.isEmpty = false → u.ids[p]? = some id →
        id ∈ ((storedMessages u.appID u.pid num entries).filterMap
          UserMessage.contextOp).map Prod.fst := by
  induction entries generalizing num with
  | nil =>
      refine ⟨fun _ hmem => absurd hmem List.not_mem_nil,
        fun _ hmem => absurd hmem List.not_mem_nil, ?_⟩
      intro p id hp _ hget
      have hlength := List.drop_eq_nil_iff.mp hdrop
      have hlt := (List.getElem?_eq_some_iff.mp hget).1
      rw [ids, List.length_map] at hlt
      omega
  | cons entry rest ih =>
      have hentry : u.mctLlTs[num]? = some entry := by
        rw [← List.head?_drop, hdrop, List.head?_cons]
      have hrest : u.mctLlTs.drop (num + 1) = rest := by
        rw [← List.tail_drop, hdrop, List.tail_cons]
      have hget : u.ids[num]? = some entry.contextID := by
        rw [ids, List.getElem?_map, hentry, Option.map_some]
      obtain ⟨hof, hcurrent, hcovers⟩ := ih (num + 1) hrest
      simp only [storedMessages]
      cases hempty : entry.contextID.isEmpty with
      | true =>
          rw [if_pos rfl]
          refine ⟨hof, hcurrent, ?_⟩
          intro p id hp hid hpid
          apply hcovers p id _ hid hpid
          apply lt_of_le_of_ne hp
          rintro rfl
          rw [hget] at hpid
          rw [← Option.some.inj hpid, hempty] at hid
          exact Bool.false_ne_true hid.symm
      | false =>
          have hpos : num < 2147483648 :=
            (List.getElem?_eq_some_iff.mp hentry).1.trans_le h.short
          rw [if_neg Bool.false_ne_true]
          refine ⟨?_, ?_, ?_⟩
          · intro message hmem
            rcases List.mem_cons.mp hmem with rfl | hlater
            · exact @registration_of entry.contextID num mctUserLogLevelNotSet
                mctUserTraceStatusNotSet hempty (h.canonical _ (List.mem_of_getElem? hget)) hpos
                (by decide) (by decide) u.appID u.pid (entry.contextDescription.getD [])
            · exact hof message hlater
          · intro op hmem
            rw [List.filterMap_cons, UserMessage.contextOp, toNat_position hpos] at hmem
            rcases List.mem_cons.mp hmem with rfl | hlater
            · exact ((positionIn_eq_some_iff h.live hempty).mpr hget).symm
            · exact hcurrent op hlater
          · intro p id hp hid hpid
            rw [List.filterMap_cons, UserMessage.contextOp, List.map_cons, List.mem_cons]
            rcases hp.eq_or_lt with rfl | hlt
            · rw [hget] at hpid
              exact .inl (Option.some.inj hpid).symm
            · exact .inr (hcovers p id hlt hid hpid)

theorem contextOp_replayed (appID : List UInt8) (message : UserMessage) :
    (message.replayed appID).contextOp = message.contextOp := by
  cases message <;> rfl

theorem filledId_of_nonempty (hid : id.isEmpty = false) (appID : List UInt8) :
    filledId id appID = id := by
  rw [filledId, if_neg (ne_true_of_eq_false hid)]

theorem of_replayed {appID : IdBytes} (happ : appID.isEmpty = false) (hof : message.Of appID) :
    (message.replayed appID.bytes).Of appID := by
  cases message with
  | registerContext apid ctid logLevelPos logLevel traceStatus pid description =>
      obtain ⟨hapid, hrest⟩ := hof
      subst hapid
      exact ⟨filledId_of_nonempty happ _, hrest⟩
  | log log => trivial
  | registerApplication => exact hof
  | unregisterApplication => exact hof
  | unregisterContext => exact hof
  | appLlTs => exact hof
  | overflow => trivial
  | marker => trivial

/-- The assignments of what is written to the new connection make the library's map of the
empty one. -/
theorem Sharing.replayed (h : u.Sharing) :
    Lib.replay (fun _ => none) ((storedMessages u.appID u.pid 0 u.mctLlTs ++
      u.startupBuffer.map (UserMessage.replayed u.appID.bytes)).filterMap
        UserMessage.contextOp) = u.position := by
  obtain ⟨_, hcurrent, hcovers⟩ := storedMessages_current h 0 u.mctLlTs rfl
  have hbuffer : (u.startupBuffer.map (UserMessage.replayed u.appID.bytes)).filterMap
      UserMessage.contextOp = u.waiting := by
    rw [List.filterMap_map]
    exact congrArg (List.filterMap · u.startupBuffer) (funext (contextOp_replayed u.appID.bytes))
  rw [List.filterMap_append, hbuffer]
  apply ((repeats_of_current hcurrent).append h.repeats).replay_eq
  intro id hid
  rw [List.map_append, List.mem_append, not_or] at hid
  cases hempty : id.isEmpty with
  | true => exact (positionIn_empty hempty).symm
  | false =>
      cases hposition : u.position id with
      | none => rfl
      | some p =>
          have hget := (positionIn_eq_some_iff h.live hempty).mp hposition
          exact absurd (hcovers p id (Nat.zero_le p) hempty hget) hid.1

end Recovery

end SharedContexts

section Delivery

variable {ipc : MctIpc} {appID : IdBytes} {message : UserMessage} {served : Daemon.UserMessage}

/-- An assignment of the library as the daemon reads it. -/
def asRead : IdBytes × Option Nat → ID4 × Option Int := Prod.map idOf (Option.map Nat.cast)

theorem contextAssignment_taken (htaken : message.TakenAs served) (hof : message.Of appID) :
    contextAssignment (idOf appID) served = message.contextOp.map asRead := by
  cases message with
  | registerContext =>
      cases served with
      | registerContext =>
          obtain ⟨⟨rfl, rfl⟩, rfl, _⟩ := htaken
          obtain ⟨rfl, _, hpos, _⟩ := hof
          rw [contextAssignment, if_pos rfl, int32_natCast hpos]
          rfl
      | _ => exact htaken.elim
  | unregisterContext =>
      cases served with
      | unregisterContext =>
          obtain ⟨rfl, rfl⟩ := htaken
          obtain ⟨rfl, _⟩ := hof
          rw [contextAssignment, if_pos rfl]
          rfl
      | _ => exact htaken.elim
  | registerApplication =>
      cases served with
      | registerApplication => rfl
      | _ => exact htaken.elim
  | appLlTs =>
      cases served with
      | setAppLlTs => rfl
      | _ => exact htaken.elim
  | unregisterApplication => exact hof.elim
  | log => exact htaken.elim
  | overflow => exact htaken.elim
  | marker => exact htaken.elim

theorem proper_taken (happ : (idOf appID).Canonical) (htaken : message.TakenAs served)
    (hof : message.Of appID) (hanswered : Answered ipc served) :
    served.Proper ipc (idOf appID) := by
  cases served with
  | registerApplication =>
      cases message with
      | registerApplication =>
          obtain ⟨rfl, _⟩ := htaken
          obtain rfl := hof
          exact ⟨happ, hanswered⟩
      | _ => exact htaken.elim
  | registerContext =>
      cases message with
      | registerContext =>
          obtain ⟨⟨rfl, rfl⟩, _, ⟨rfl, rfl⟩, _⟩ := htaken
          obtain ⟨rfl, ⟨hcanonical, hnonempty⟩, _, hlevels⟩ := hof
          exact ⟨happ, fun _ => ⟨hcanonical, hnonempty, hlevels⟩⟩
      | _ => exact htaken.elim
  | unregisterApplication =>
      cases message with
      | unregisterApplication => exact hof.elim
      | _ => exact htaken.elim
  | unregisterContext =>
      cases message with
      | unregisterContext =>
          obtain ⟨rfl, rfl⟩ := htaken
          obtain ⟨rfl, hcanonical⟩ := hof
          exact ⟨happ, fun _ => hcanonical⟩
      | _ => exact htaken.elim
  | setAppLlTs =>
      cases message with
      | appLlTs =>
          obtain ⟨rfl, _⟩ := htaken
          obtain rfl := hof
          exact happ
      | _ => exact htaken.elim
  | updateBlockmode => cases message <;> exact htaken.elim
  | contextsClear => cases message <;> exact htaken.elim

theorem contextOp_unchanging (h : ¬ message.ChangesTables) : message.contextOp = none := by
  cases message with
  | registerContext => exact absurd trivial h
  | unregisterContext => exact absurd trivial h
  | _ => rfl

/-- What the daemon makes of the messages of one connection, whatever comes in between. -/
theorem Delivers.assignments {messages : List UserMessage} {all : List Daemon.UserMessage}
    (h : Delivers ipc (idOf appID) messages all) (happ : (idOf appID).Canonical)
    (hof : ∀ message ∈ messages, message.Of appID) :
    (∀ served ∈ all, served.Proper ipc (idOf appID)) ∧
      all.filterMap (contextAssignment (idOf appID)) =
        (messages.filterMap UserMessage.contextOp).map asRead := by
  induction h with
  | nil => exact ⟨fun _ hmem => absurd hmem List.not_mem_nil, rfl⟩
  | @taken message served messages all htaken hanswered _ ih =>
      have hfirst := hof message List.mem_cons_self
      obtain ⟨hproper, hassign⟩ := ih fun other hother =>
        hof other (List.mem_cons_of_mem message hother)
      refine ⟨?_, ?_⟩
      · intro other hother
        rcases List.mem_cons.mp hother with rfl | hlater
        · exact proper_taken happ htaken hfirst hanswered
        · exact hproper other hlater
      · rw [List.filterMap_cons, List.filterMap_cons, contextAssignment_taken htaken hfirst]
        cases message.contextOp with
        | none => exact hassign
        | some op => exact congrArg (asRead op :: ·) hassign
  | @passed message messages all hpassed _ ih =>
      rw [List.filterMap_cons, contextOp_unchanging hpassed]
      exact ih fun other hother => hof other (List.mem_cons_of_mem message hother)
  | @other served messages all hproper hother _ ih =>
      obtain ⟨hlater, hassign⟩ := ih hof
      refine ⟨?_, ?_⟩
      · intro other hmem
        rcases List.mem_cons.mp hmem with rfl | hmore
        · exact hproper
        · exact hlater other hmore
      · rw [List.filterMap_cons, hother]
        exact hassign

/-- Before the first message of a connection come only those of others. -/
theorem Delivers.first {apid : ID4} {sent : List UserMessage} {all : List Daemon.UserMessage}
    (h : Delivers ipc apid sent all) {messages : List UserMessage}
    (hsent : sent = message :: messages) (hchanges : message.ChangesTables) :
    ∃ (before : List Daemon.UserMessage) (served : Daemon.UserMessage)
      (later : List Daemon.UserMessage), all = before ++ served :: later ∧
        (∀ other ∈ before, other.Proper ipc apid ∧ contextAssignment apid other = none) ∧
        message.TakenAs served ∧ Answered ipc served ∧ Delivers ipc apid messages later := by
  induction h with
  | nil => cases hsent
  | @taken first served rest all htaken hanswered hlater _ =>
      obtain ⟨rfl, rfl⟩ := List.cons.inj hsent
      exact ⟨[], served, all, rfl, fun _ hmem => absurd hmem List.not_mem_nil, htaken, hanswered,
        hlater⟩
  | @passed first rest all hpassed _ _ =>
      obtain ⟨rfl, rfl⟩ := List.cons.inj hsent
      exact absurd hchanges hpassed
  | @other served rest all hproper hother _ ih =>
      obtain ⟨before, taken, later, rfl, hbefore, htaken⟩ := ih hsent
      refine ⟨served :: before, taken, later, rfl, ?_, htaken⟩
      intro other hmem
      rcases List.mem_cons.mp hmem with rfl | hmore
      · exact ⟨hproper, hother⟩
      · exact hbefore other hmore

/-- The messages of others leave the contexts of an application alone, registered or not. -/
theorem others_keep {apid : ID4} {d : MctDaemonUsers} (hcounts : d.Counts) (hopen : d.HandlesOpen)
    (others : List Daemon.UserMessage)
    (hothers : ∀ other ∈ others, other.Proper ipc apid ∧ contextAssignment apid other = none) :
    ((runOps (messageStep ipc) d others).2.Counts ∧
        (runOps (messageStep ipc) d others).2.HandlesOpen) ∧
      (runOps (messageStep ipc) d others).2.registeredAt apid = d.registeredAt apid := by
  induction others generalizing d with
  | nil => exact ⟨⟨hcounts, hopen⟩, rfl⟩
  | cons other others ih =>
      obtain ⟨hproper, hnone⟩ := hothers other List.mem_cons_self
      have hnext := messageStep_counts ipc other hcounts hproper.canonical (hproper.harmless d)
      have hkeeps := messageStep_keeps hcounts hproper hnone
      obtain ⟨hfinal, hsame⟩ := ih hnext (hkeeps.handles hopen) fun later hlater =>
        hothers later (List.mem_cons_of_mem other hlater)
      refine ⟨hfinal, ?_⟩
      rw [runOps_cons, hsame]
      funext ctid
      exact hkeeps.registeredAt_eq hcounts.tables hnext.tables rfl

end Delivery

section Restored

variable {u : SharedContexts}

open SharedContexts

/-- All that the library writes to the new connection are messages of its application. -/
theorem SharedContexts.Sharing.sent_of (h : u.Sharing) :
    ∀ message ∈ storedMessages u.appID u.pid 0 u.mctLlTs ++
        u.startupBuffer.map (UserMessage.replayed u.appID.bytes), message.Of u.appID := by
  obtain ⟨hstored, _⟩ := storedMessages_current h 0 u.mctLlTs rfl
  intro message hmem
  rcases List.mem_append.mp hmem with hfirst | hlater
  · exact hstored message hfirst
  · obtain ⟨waiting, hwaiting, rfl⟩ := List.mem_map.mp hlater
    exact of_replayed h.application.2.1 (h.own waiting hwaiting)

/-- A library that has registered its application and nothing else yet. -/
theorem sharing_registered (happ : (idOf u.appID).Canonical ∧ u.appID.isEmpty = false)
    (hfile : u.mctIsFile = false)
    (hlevels : ∀ item ∈ u.initialLlSet.entries, mctUserLogLevelNotSet ≤ item.ll ∧
      item.ll < mctLogMax)
    (hcontexts : u.mctLlTs = []) (hbuffer : u.startupBuffer = []) : u.Sharing where
  application := ⟨happ.1, happ.2, hfile⟩
  levels := hlevels
  live i j id _ hi _ := by
    rw [ids, hcontexts] at hi
    cases hi
  canonical id hmem := by
    rw [ids, hcontexts] at hmem
    exact absurd hmem List.not_mem_nil
  short := by
    rw [hcontexts]
    exact Nat.zero_le _
  own message hmem := by
    rw [hbuffer] at hmem
    exact absurd hmem List.not_mem_nil
  repeats := by
    rw [waiting, hbuffer]
    exact repeats_nil _

/-- However an application has registered and unregistered its contexts, with a connection or
without one: when its library reaches a daemon that has forgotten them, and the daemon has
served all that the library then writes to it, whatever others send in between, and no block mode
message failed with EPIPE, the daemon has each context at the position at which the library has it,
and no other one. -/
theorem contexts_are_restored (ipc : MctIpc) {start u : SharedContexts} (hstart : start.Sharing)
    (ops : List SharingOp)
    (hops : Guarded SharingOp.step (fun u op => op.Orderly u) start ops)
    (hrun : (runOps SharingOp.step start ops).2 = u) (hdetached : u.mctLogHandle < 0)
    {fd : Int} (hfd : 0 < fd) {writes : Nat → WriteOutcome}
    (hwrites : ∀ i, (writes i).answer = .ok) {out : Nat → MctReturnValue}
    (hout : ∀ i, out i = .ok) {d : MctDaemonUsers} (hcounts : d.Counts) (hopen : d.HandlesOpen)
    (hforgotten : ∀ ctid, d.registeredAt (idOf u.appID) ctid = none)
    {all : List Daemon.UserMessage}
    (hdelivers : Delivers ipc (idOf u.appID)
      ((u.reattachToDaemon fd writes).resendBuffer out).2.connection all) :
    ServesApplication (idOf u.appID) (runOps (messageStep ipc) d all).2 ∧
      ∀ id, (runOps (messageStep ipc) d all).2.registeredAt (idOf u.appID) (idOf id) =
        (u.position id).map Nat.cast := by
  have h : u.Sharing := by
    rw [← hrun]
    exact runOps_keeps (fun _ _ hsharing hop => hsharing.step hop) hstart ops hops
  obtain ⟨hcanonical, happ, _⟩ := h.application
  have hapid : (idOf u.appID).isEmpty = false := by rw [isEmpty_idOf, happ]
  rw [h.reattached hdetached hfd hwrites hout] at hdelivers
  -- The registration of the application comes first; only others are served before it.
  obtain ⟨before, served, later, rfl, hbefore, htaken, hanswered, hlater⟩ :=
    hdelivers.first rfl trivial
  obtain ⟨⟨hcounts', hopen'⟩, hkept⟩ := others_keep hcounts hopen before hbefore
  have hproper := proper_taken hcanonical htaken rfl hanswered
  rw [runOps_append_state, runOps_cons]
  generalize (runOps (messageStep ipc) d before).2 = d' at hcounts' hopen' hkept
  cases served with
  | registerApplication apid pid description fd opened logState writes =>
      obtain ⟨rfl, _⟩ := htaken
      obtain ⟨hserving, hsame⟩ := servesApplication_registered hcounts' hopen' hapid hproper
      obtain ⟨hmessages, hassign⟩ := hlater.assignments hcanonical h.sent_of
      obtain ⟨hfinal, hregistered⟩ := runOps_replay (messageStep ipc)
        (fun d => d.registeredAt (idOf u.appID)) (contextAssignment (idOf u.appID))
        (fun _ _ hserving hmessage => ServesApplication.step hserving hapid hmessage) hserving
        later hmessages
      refine ⟨hfinal, fun id => ?_⟩
      refine (congrFun hregistered (idOf id)).trans ?_
      rw [hassign, ← h.replayed]
      apply replay_map idOf_injective
      intro other
      rw [hsame, hkept, hforgotten]
      rfl
  | _ => exact htaken.elim

/-- The library of `APP1` before it has reached a daemon. -/
def waitingLibrary : SharedContexts where
  appID := setIdBytes [65, 80, 80, 49]
  applicationDescription := none
  initialLlSet := ⟨[], 0⟩
  mctLlTs := []
  mctIsFile := false
  mctLogHandle := -1
  startupBuffer := []
  connection := []
  pid := 10

/-- `CTX` and `NEW` are registered, and `CTX` is unregistered. -/
def waitingOps : List SharingOp :=
  [.register [67, 84, 88] none (-2) (-2) none (fun _ => '\x00') 0 0 ⟨.error, true⟩,
    .register [78, 69, 87] none 4 0 none (fun _ => '\x00') 8 8 ⟨.error, true⟩,
    .unregister ⟨setIdBytes [67, 84, 88], 0, some 0, some 0, 0⟩ ⟨.error, true⟩]

/-- What the daemon serves: first a registration of `APP2`, then what `APP1` sends. -/
def restoringMessages : List Daemon.UserMessage :=
  [.registerApplication (setId ['A', 'P', 'P', '2']) 11 [] 6 0 ⟨true, false⟩
      (fun _ => ⟨true, false⟩),
    .registerApplication (setId ['A', 'P', 'P', '1']) (int32 10) [] 5 0 ⟨true, false⟩
      (fun _ => ⟨true, false⟩),
    .registerContext (setId ['A', 'P', 'P', '1']) (setId ['N', 'E', 'W']) (-2) (-2) (int32 1) []
      (-1) ⟨true, false⟩,
    .registerContext (setId ['A', 'P', 'P', '1']) (setId ['C', 'T', 'X']) (-2) (-2) (int32 0) []
      (-1) ⟨true, false⟩,
    .registerContext (setId ['A', 'P', 'P', '1']) (setId ['N', 'E', 'W']) 4 0 (int32 1) [] (-1)
      ⟨true, false⟩,
    .unregisterContext (setId ['A', 'P', 'P', '1']) (setId ['C', 'T', 'X'])]

theorem waitingOps_orderly :
    Guarded SharingOp.step (fun u op => op.Orderly u) waitingLibrary waitingOps := by
  refine ⟨⟨?_, ?_, .inr ?_⟩, ⟨?_, ?_, .inr ?_⟩, ⟨?_, ?_, .inr ?_⟩, trivial⟩ <;> decide

theorem restoringMessages_delivers :
    Delivers .unixSocket (setId ['A', 'P', 'P', '1'])
      (((runOps SharingOp.step waitingLibrary waitingOps).2.reattachToDaemon 5
        fun _ => ⟨.ok, true⟩).resendBuffer fun _ => .ok).2.connection restoringMessages := by
  refine .other ⟨by decide, by decide, fun _ => rfl⟩ rfl ?_
  refine .taken ⟨by decide, rfl, rfl⟩ ⟨by decide, fun _ => rfl⟩ ?_
  refine .taken ⟨by decide, rfl, by decide, rfl⟩ trivial ?_
  refine .taken ⟨by decide, rfl, by decide, rfl⟩ trivial ?_
  refine .taken ⟨by decide, rfl, by decide, rfl⟩ trivial ?_
  exact .taken ⟨by decide, by decide⟩ trivial .nil

theorem contexts_are_restored_later :
    ServesApplication (setId ['A', 'P', 'P', '1']) (runOps (messageStep .unixSocket)
        (⟨true, [], [], 4, 0, false, false, 0⟩ : MctDaemonUsers) restoringMessages).2 ∧
      ∀ id, (runOps (messageStep .unixSocket)
          (⟨true, [], [], 4, 0, false, false, 0⟩ : MctDaemonUsers) restoringMessages).2.registeredAt
            (setId ['A', 'P', 'P', '1']) (idOf id) =
        ((runOps SharingOp.step waitingLibrary waitingOps).2.position id).map Nat.cast :=
  contexts_are_restored .unixSocket
    (sharing_registered (by decide) rfl (fun _ hmem => absurd hmem List.not_mem_nil) rfl rfl)
    waitingOps waitingOps_orderly rfl (by decide) (by decide) (fun _ => rfl) (fun _ => rfl)
    (counts_empty ⟨rfl, rfl⟩ rfl) (fun _ hmem => absurd hmem List.not_mem_nil) (fun _ => rfl)
    restoringMessages_delivers

end Restored

end MctDaemon.User
