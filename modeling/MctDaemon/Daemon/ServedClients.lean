import MctDaemon.Client.ControlRequests
import MctDaemon.Daemon.ClientMessages
import MctDaemon.Daemon.ControlOwnBytes

/-!
The control requests of several clients. The connections have their own receivers, but the daemon
reads all of them into one message structure, whose blocks keep what earlier messages left there.
However the connections are served in turn and their streams are cut, every request of the client
library is carried out once, as it was sent, and each client's requests in their order.
-/

namespace MctDaemon.Daemon

open Lib Shared User Client

section Service

/-- The buffer of a connection and its receiver. -/
structure ClientSocket where
  mem : List UInt8
  receiver : MctReceiver

/-- What the daemon keeps for the requests of all connections. `ecu` is `headerextra.ecu` of the
message structure, and `answered` what was sent back for the requests so far. -/
structure ServedClients where
  sockets : Int → ClientSocket
  msg : MctMessage
  ecu : ID4
  control : ControlState
  answered : List (Int × List ControlAnswer)

/-- Where the extended header begins. -/
def extendedAt (header : List UInt8) : Nat :=
  sizeofStandardHeader + standardHeaderExtraSize (byteAt header 0)

def isControlRequest (header : List UInt8) : Bool :=
  let msin := byteAt header (extendedAt header)
  isHtyp 0 (byteAt header 0) && (msin &&& 0x0e) >>> 1 = 0x03 && (msin &&& 0xf0) >>> 4 = 0x01

/-- The headers as the service of a request looks at them. -/
def controlHeader (header : List UInt8) (ecu : ID4) : ControlHeader where
  htyp := byteAt header 0
  apid := idAt header (extendedAt header + 2)
  ctid := idAt header (extendedAt header + 6)
  ecu := ecu

/-- The block of the payload. A message that was read lies in it. -/
def payloadBuffer (msg : MctMessage) : ReusedBuffer UInt8 where
  cells := msg.databuffer.getD []
  used := min msg.datasize.toNat (msg.databuffer.getD []).length
  used_le := Nat.min_le_right _ _

namespace ServedClients

variable (malloc : Malloc) (resync : Bool) (env : Nat → ControlEnv)

def nextEnv (daemon : ServedClients) (sock : Int) : ControlEnv :=
  { env daemon.answered.length with sock := sock }

/-- What is done with a message that was read from a connection. -/
def handle (sock : Int) (daemon : ServedClients) : Option ServedClients :=
  let header := daemon.msg.extracted.header
  let ecu := if isHtyp 2 (byteAt header 0) then idAt header sizeofStandardHeader else daemon.ecu
  if 0 < sock ∧ isControlRequest header then
    (ControlState.processControl (daemon.nextEnv env sock) daemon.control
      (controlHeader header ecu) (payloadBuffer daemon.msg)).map fun outcome =>
        { daemon with
          ecu := ecu
          control := outcome.next
          answered := daemon.answered ++ [(sock, outcome.answers)] }
  else some { daemon with ecu := ecu }

/-- The loop of `mct_daemon_process_client_messages` over what a connection received. -/
def processRequests (sock : Int) (mem : List UInt8) (daemon : ServedClients)
    (receiver : MctReceiver) : Option (ServedClients × MctReceiver) :=
  match _hread : mctMessageRead malloc daemon.msg (receiver.presented mem) resync with
  | (.ok, next) =>
      (handle env sock { daemon with msg := next }).bind fun served =>
        processRequests sock mem served (mctReceiverRemove receiver next.bytesToBeRemoved).2
  | (_, next) => some ({ daemon with msg := next }, receiver)
termination_by receiver.bytesRcvd
decreasing_by
  apply mctReceiverRemove_lt
  intro hempty
  have hne := read_ne_ok_of_empty malloc daemon.msg mem receiver resync hempty
  rw [_hread] at hne
  exact hne rfl

/-- `mct_daemon_process_client_messages` for one delivery to a connection. -/
def deliver (daemon : ServedClients) (delivery : Int × List UInt8) : Option ServedClients :=
  let socket := daemon.sockets delivery.1
  let (_, mem, receiver) := mctReceiverReceive socket.mem socket.receiver delivery.2
  (processRequests malloc resync env delivery.1 mem daemon receiver).map fun (served, receiver) =>
    { served with
      sockets := Function.update served.sockets delivery.1
        ⟨mem, mctReceiverMoveToBegin malloc mem receiver⟩ }

def run (daemon : ServedClients) (deliveries : List (Int × List UInt8)) :
    Option ServedClients :=
  deliveries.foldlM (deliver malloc resync env) daemon

/-- A delivery is not empty and fits the buffer with what is left there. -/
def Fits (daemon : ServedClients) (delivery : Int × List UInt8) : Prop :=
  delivery.2 ≠ [] ∧ (daemon.sockets delivery.1).receiver.bytesRcvd + delivery.2.length ≤
    (daemon.sockets delivery.1).mem.length

instance (daemon : ServedClients) (delivery : Int × List UInt8) :
    Decidable (daemon.Fits delivery) := inferInstanceAs (Decidable (_ ∧ _))

def AllFit (daemon : ServedClients) : List (Int × List UInt8) → Prop
  | [] => True
  | delivery :: later => daemon.Fits delivery ∧
      ∀ served, deliver malloc resync env daemon delivery = some served →
        AllFit served later

instance decidableAllFit (daemon : ServedClients) :
    ∀ deliveries, Decidable (AllFit malloc resync env daemon deliveries)
  | [] => isTrue trivial
  | delivery :: later =>
      match hdeliver : deliver malloc resync env daemon delivery with
      | none => decidable_of_iff (daemon.Fits delivery)
          ⟨fun hfits => ⟨hfits, fun served hsome => by
            rw [hdeliver] at hsome
            cases hsome⟩, And.left⟩
      | some served =>
          have := decidableAllFit served later
          decidable_of_iff (daemon.Fits delivery ∧ AllFit malloc resync env served later)
            ⟨fun h => ⟨h.1, fun next hsome => by
              rw [hdeliver] at hsome
              exact Option.some.inj hsome ▸ h.2⟩,
              fun h => ⟨h.1, h.2 served hdeliver⟩⟩

end ServedClients

end Service

section Meaning

/-- An identifier as the daemon keeps it. -/
def idOf (id : IdBytes) : ID4 where
  chars := byteChars id.bytes
  length_eq := (List.length_map _).trans id.length_eq

namespace ControlState

variable (env : ControlEnv) (s : ControlState)

/-- The connection is known and may use the service. -/
def allows (id : Nat) : Bool :=
  (findConnection s.daemonLocal.pEvent.connections env.sock).any fun con => s.permitted env con id

/-- The setting of a context, or of several. -/
def setContexts (kind : LevelKind) (apid ctid : List UInt8) (level : UInt8) :
    List ControlAnswer × ControlState :=
  let req : MctServiceSetLogLevel := ⟨idOf (setIdBytes apid), idOf (setIdBytes ctid), level⟩
  (s.levels.controlSetStatusAnswers kind env.flags req env.writes,
    s.withLevels (s.levels.controlSetStatus kind env.flags req env.writes))

/-- A setting of the daemon or of all contexts. -/
def setLevels (id : Nat) (accepted : Bool)
    (set : LevelFlags → LevelState → UInt8 → (Nat → SendResult) → LevelState) (level : UInt8) :
    List ControlAnswer × ControlState :=
  ([.service id (if accepted then .ok else .error)],
    s.withLevels (set env.flags s.levels level env.writes))

/-- The reply to a request for the registered contexts. -/
def logInfo (req : GetLogInfoRequest) : List ControlAnswer × ControlState :=
  match s.levels.users.controlGetLogInfo req with
  | none => ([.service mctServiceIdGetLogInfo .error], s)
  | some reply => ([.logInfo reply], s)

def setTimingPackets (status : UInt8) : List ControlAnswer × ControlState :=
  if status = 0 ∨ status = 1 then
    ([.service mctServiceIdSetTimingPackets .ok], { s with timingpackets := status })
  else ([.service mctServiceIdSetTimingPackets .error], s)

def inject (header : ControlHeader) (id : Nat) (data : List UInt8) :
    List ControlAnswer × ControlState :=
  match s.injectionTarget env header id with
  | .error status => ([.service id status], s)
  | .ok (k, context) => s.forwardInjection env id k context data

/-- What a call of the client library asks of a daemon that permits it. -/
def carryOut (ecu : ID4) : ClientCall → List ControlAnswer × ControlState
  | .sendLogLevel apid ctid level => s.setContexts env .logLevel apid ctid level
  | .sendTraceStatus apid ctid status => s.setContexts env .traceStatus apid ctid status
  | .getLogInfo => s.logInfo ⟨7, idOf (setIdBytes []), idOf (setIdBytes [])⟩
  | .getDefaultLogLevel => ([.defaultLogLevel (uint8 s.levels.users.defaultLogLevel)], s)
  | .getSoftwareVersion => ([.softwareVersion env.ecuVersionString], s)
  | .sendDefaultLogLevel level =>
      s.setLevels env mctServiceIdSetDefaultLogLevel (level ≤ 6)
        LevelState.controlSetDefaultLogLevel level
  | .sendAllLogLevel level =>
      s.setLevels env mctServiceIdSetAllLogLevel (level ≤ 6 ∨ level = uint8 mctLogDefault)
        LevelState.controlSetAllLogLevel level
  | .sendDefaultTraceStatus status =>
      s.setLevels env mctServiceIdSetDefaultTraceStatus (status = 0 ∨ status = 1)
        LevelState.controlSetDefaultTraceStatus status
  | .sendAllTraceStatus status =>
      s.setLevels env mctServiceIdSetAllTraceStatus
        (status ≤ 1 ∨ status = uint8 mctTraceStatusDefault)
        LevelState.controlSetAllTraceStatus status
  | .sendTimingPakets status => s.setTimingPackets status
  | .sendStoreConfig =>
      ([.service mctServiceIdStoreConfig
          (if env.applicationsSaved && env.contextsSaved then .ok else .error)],
        s.withLevels (s.levels.controlStoreConfig env.flags env.applicationsSaved
          env.contextsSaved env.writes))
  | .sendResetToFactoryDefault =>
      ([.service mctServiceIdResetToFactoryDefault .ok],
        s.withLevels (s.levels.controlResetToFactoryDefault env.flags env.writes))
  | .sendInjectMsg apid ctid serviceID buffer =>
      s.inject env ⟨controlHtyp, idOf (headerId apid mctClientDummyAppId),
        idOf (headerId ctid mctClientDummyConId), ecu⟩ serviceID.toNat buffer

/-- An injection is judged by its target, every other request by its service. -/
def perform (ecu : ID4) (call : ClientCall) : List ControlAnswer × ControlState :=
  match call with
  | .sendInjectMsg _ _ _ _ => s.carryOut env ecu call
  | _ =>
      if s.allows env call.serviceId then s.carryOut env ecu call
      else ([.service call.serviceId .permDenied], s)

end ControlState

end Meaning

section Requests

def isInjection : ClientCall → Bool
  | .sendInjectMsg _ _ _ _ => true
  | _ => false

/-- No injection has the id of another service. -/
def Unambiguous : ClientCall → Prop
  | .sendInjectMsg _ _ serviceID _ =>
      serviceID.toNat = 0 ∨ mctServiceIdCallswCinjection ≤ serviceID.toNat
  | _ => True

instance (call : ClientCall) : Decidable (Unambiguous call) :=
  match call with
  | .sendInjectMsg _ _ serviceID _ =>
      inferInstanceAs (Decidable (serviceID.toNat = 0 ∨
        mctServiceIdCallswCinjection ≤ serviceID.toNat))
  | .sendLogLevel _ _ _ | .sendTraceStatus _ _ _ | .getLogInfo | .getDefaultLogLevel
  | .getSoftwareVersion | .sendDefaultLogLevel _ | .sendAllLogLevel _
  | .sendDefaultTraceStatus _ | .sendAllTraceStatus _ | .sendTimingPakets _ | .sendStoreConfig
  | .sendResetToFactoryDefault => inferInstanceAs (Decidable True)

section Bytes

theorem idAt_of_drop {bytes rest : List UInt8} {off : Nat} {id : IdBytes}
    (h : bytes.drop off = id.bytes ++ rest) : idAt bytes off = idOf id := by
  apply ID4.chars_injective
  have hlength : (byteChars id.bytes).length = mctIdSize := (List.length_map _).trans id.length_eq
  simp only [idAt, idOf, h, byteChars, List.map_append]
  rw [List.takeD_eq_take _ (by rw [List.length_append]; exact hlength ▸ Nat.le_add_right _ _)]
  exact List.take_left' hlength

variable {client : MctClient} {request : Request}

/-- The headers of a request as the daemon looks at them. -/
theorem header_eq (ecu : ID4) :
    controlHeader (request.header client) ecu =
        ⟨controlHtyp, idOf (headerId request.call.apid mctClientDummyAppId),
          idOf (headerId request.call.ctid mctClientDummyConId), ecu⟩ ∧
      isControlRequest (request.header client) = true ∧
      isHtyp 2 (byteAt (request.header client) 0) = true ∧
      idAt (request.header client) sizeofStandardHeader = idOf (setIdBytes client.ecuid) := by
  have hhtyp : byteAt (request.header client) 0 = controlHtyp := rfl
  have hextended : extendedAt (request.header client) = 12 := by
    rw [extendedAt, hhtyp]
    exact (by decide : sizeofStandardHeader + standardHeaderExtraSize controlHtyp = 12)
  have hsplit : request.header client = ([controlHtyp, 0] ++
      beBytes 2 (sizeofControlHeaders + request.call.payload.length)) ++
        ((setIdBytes client.ecuid).bytes ++ (beBytes 4 request.tmsp.toNat ++
          ([mctMsinControlRequest, 1] ++ ((headerId request.call.apid mctClientDummyAppId).bytes ++
            ((headerId request.call.ctid mctClientDummyConId).bytes ++ []))))) := by
    simp only [Request.header, controlHeaderBytes, List.append_assoc, List.append_nil]
  have hecu : (request.header client).drop 4 = (setIdBytes client.ecuid).bytes ++
      (beBytes 4 request.tmsp.toNat ++ ([mctMsinControlRequest, 1] ++
        ((headerId request.call.apid mctClientDummyAppId).bytes ++
          ((headerId request.call.ctid mctClientDummyConId).bytes ++ [])))) := by
    rw [hsplit]
    exact List.drop_left' rfl
  have hmsin : (request.header client).drop 12 = [mctMsinControlRequest, 1] ++
      ((headerId request.call.apid mctClientDummyAppId).bytes ++
        ((headerId request.call.ctid mctClientDummyConId).bytes ++ [])) := by
    rw [show 12 = 4 + 8 from rfl, ← List.drop_drop, hecu, ← List.append_assoc]
    apply List.drop_left'
    rw [List.length_append, IdBytes.length_eq, beBytes_length]
    rfl
  have hapid : (request.header client).drop 14 =
      (headerId request.call.apid mctClientDummyAppId).bytes ++
        ((headerId request.call.ctid mctClientDummyConId).bytes ++ []) := by
    rw [show 14 = 12 + 2 from rfl, ← List.drop_drop, hmsin]
    rfl
  have hctid : (request.header client).drop 18 =
      (headerId request.call.ctid mctClientDummyConId).bytes ++ [] := by
    rw [show 18 = 14 + 4 from rfl, ← List.drop_drop, hapid]
    exact List.drop_left' (headerId request.call.apid mctClientDummyAppId).length_eq
  have hbyte : byteAt (request.header client) 12 = mctMsinControlRequest := by
    rw [byteAt, List.getD_eq_getElem?_getD, ← Nat.add_zero 12, ← List.getElem?_drop, hmsin]
    rfl
  refine ⟨?_, ?_, ?_, idAt_of_drop hecu⟩
  · rw [controlHeader, hextended, hhtyp, idAt_of_drop hapid, idAt_of_drop hctid]
  · rw [isControlRequest, hextended, hbyte, hhtyp]
    decide
  · rw [hhtyp]
    decide

end Bytes

section Payload

variable {call : ClientCall}

/-- The services of the other requests are told apart by the daemon. -/
theorem control_serviceId (h : isInjection call = false) :
    0 < call.serviceId ∧ call.serviceId < mctServiceIdCallswCinjection := by
  cases call with
  | sendInjectMsg apid ctid serviceID buffer => cases h
  | _ => exact ⟨Nat.le_of_ble_eq_true rfl, Nat.le_of_ble_eq_true rfl⟩

theorem serviceId_lt : call.serviceId < 4294967296 := by
  cases call with
  | sendInjectMsg apid ctid serviceID buffer => exact serviceID.toNat_lt
  | _ => exact Nat.le_of_ble_eq_true rfl

theorem payload_drop : call.payload.drop 4 = call.fields := List.drop_left' (leBytes_length 4 _)

theorem payload_length : call.payload.length = 4 + call.fields.length := by
  rw [ClientCall.payload, List.length_append, leBytes_length]

theorem byteAt_payload (off : Nat) : byteAt call.payload (4 + off) = call.fields.getD off 0 := by
  rw [byteAt, List.getD_eq_getElem?_getD, ← List.getElem?_drop, payload_drop,
    ← List.getD_eq_getElem?_getD]

/-- Identifiers that stand behind a front of the fields. -/
theorem idAt_payload {front rest : List UInt8} {id : IdBytes}
    (h : call.fields = front ++ (id.bytes ++ rest)) :
    idAt call.payload (4 + front.length) = idOf id := by
  apply idAt_of_drop
  rw [← List.drop_drop, payload_drop, h, List.drop_left]

end Payload

section Services

variable {env : ControlEnv} {s : ControlState} {header : ControlHeader}
  {databuffer : ReusedBuffer UInt8} {call : ClientCall}

theorem requestId_call (hown : databuffer.own = call.payload) (hhtyp : header.htyp = controlHtyp) :
    ControlState.requestId header databuffer = call.serviceId := by
  have hword : ∀ bytes, header.word bytes = leNat bytes := by
    intro bytes
    unfold ControlHeader.word
    rw [hhtyp]
    exact if_neg (by decide)
  rw [ControlState.requestId, hown, hword, ClientCall.payload,
    List.take_left' (leBytes_length 4 _), leNat_leBytes 4 _ serviceId_lt]

/-- A structure that the request fills is served. -/
theorem checked_call (hown : databuffer.own = call.payload) {size : Nat}
    (hsize : call.payload.length = size) (serve : List UInt8 → List ControlAnswer × ControlState) :
    ControlState.checked s databuffer size serve = some (serve call.payload) := by
  have hused : databuffer.used = size := by rw [← ReusedBuffer.own_length, hown, hsize]
  unfold ControlState.checked
  rw [if_neg (by omega), ReusedBuffer.read_own (by omega), hown, List.drop_zero,
    ← hsize, List.take_length]
  rfl

theorem controlSetStatus_call (hown : databuffer.own = call.payload) {apid ctid : List UInt8}
    {level : UInt8} (hfields : call.fields =
      (setIdBytes apid).bytes ++ ((setIdBytes ctid).bytes ++ ([level] ++ com.bytes)))
    (kind : LevelKind) :
    s.controlSetStatus env databuffer kind = some (s.setContexts env kind apid ctid level) := by
  have hids : (setIdBytes apid).bytes.length = 4 ∧ (setIdBytes ctid).bytes.length = 4 :=
    ⟨(setIdBytes apid).length_eq, (setIdBytes ctid).length_eq⟩
  have hlength : call.payload.length = 17 := by
    rw [payload_length, hfields, List.length_append, List.length_append, hids.1, hids.2]
    rfl
  have happlication : idAt call.payload 4 = idOf (setIdBytes apid) := by
    apply idAt_of_drop
    rw [payload_drop, hfields]
  have hcontext : idAt call.payload 8 = idOf (setIdBytes ctid) := by
    have hplace := idAt_payload hfields
    rw [hids.1] at hplace
    exact hplace
  have hlevel : byteAt call.payload 12 = level := by
    have hdrop : call.fields.drop 8 = [level] ++ com.bytes := by
      rw [hfields, ← List.append_assoc]
      apply List.drop_left'
      rw [List.length_append, hids.1, hids.2]
    rw [byteAt_payload 8, List.getD_eq_getElem?_getD, ← Nat.add_zero 8, ← List.getElem?_drop,
      hdrop]
    rfl
  refine (checked_call hown hlength _).trans ?_
  dsimp only [setLogLevelRequest]
  rw [happlication, hcontext, hlevel]
  rfl

theorem controlSetLevel_call (hown : databuffer.own = call.payload) {level : UInt8}
    (hfields : call.fields = [level] ++ com.bytes) (id : Nat) (accepted : UInt8 → Bool)
    (set : LevelFlags → LevelState → UInt8 → (Nat → SendResult) → LevelState) :
    s.controlSetLevel env databuffer id accepted set =
      some (s.setLevels env id (accepted level) set level) := by
  have hlength : call.payload.length = 9 := by
    rw [payload_length, hfields]
    rfl
  have hlevel : byteAt call.payload 4 = level := by
    rw [byteAt_payload 0, hfields]
    rfl
  refine (checked_call hown hlength _).trans ?_
  dsimp only
  rw [hlevel]
  rfl

theorem controlGetLogInfo_call (hown : databuffer.own = ClientCall.getLogInfo.payload)
    (ecu : ID4) : s.controlGetLogInfo databuffer = some (s.carryOut env ecu .getLogInfo) := by
  have hrequest : getLogInfoRequest ClientCall.getLogInfo.payload =
      ⟨7, idOf (setIdBytes []), idOf (setIdBytes [])⟩ := by decide
  have hlength : ClientCall.getLogInfo.payload.length = 17 := rfl
  have hchecked :=
    checked_call (s := s) hown hlength fun bytes => s.logInfo (getLogInfoRequest bytes)
  rw [hrequest] at hchecked
  exact hchecked

theorem controlSetTimingPackets_call {status : UInt8}
    (hown : databuffer.own = (ClientCall.sendTimingPakets status).payload) (ecu : ID4) :
    s.controlSetTimingPackets databuffer =
      some (s.carryOut env ecu (.sendTimingPakets status)) := by
  have hstatus : byteAt (ClientCall.sendTimingPakets status).payload 4 = status :=
    byteAt_payload 0
  have hlength : (ClientCall.sendTimingPakets status).payload.length = 5 := rfl
  refine (checked_call hown hlength _).trans ?_
  dsimp only
  rw [hstatus]
  rfl

/-- The service that the daemon finds for a call. -/
def serviceOf : ClientCall → ControlService
  | .sendLogLevel _ _ _ => .setLogLevel
  | .sendTraceStatus _ _ _ => .setTraceStatus
  | .getLogInfo => .getLogInfo
  | .getDefaultLogLevel => .getDefaultLogLevel
  | .getSoftwareVersion => .getSoftwareVersion
  | .sendDefaultLogLevel _ => .setDefaultLogLevel
  | .sendAllLogLevel _ => .setAllLogLevel
  | .sendDefaultTraceStatus _ => .setDefaultTraceStatus
  | .sendAllTraceStatus _ => .setAllTraceStatus
  | .sendTimingPakets _ => .setTimingPackets
  | .sendStoreConfig => .storeConfig
  | .sendResetToFactoryDefault => .resetToFactoryDefault
  | .sendInjectMsg _ _ _ _ => .notSupported

theorem ofId_serviceId (h : isInjection call = false) :
    ControlService.ofId call.serviceId = serviceOf call := by
  cases call with
  | sendInjectMsg apid ctid serviceID buffer => cases h
  | _ => rfl

/-- Every request that is not an injection is carried out by its service. -/
theorem serve_call (hown : databuffer.own = call.payload) (hcontrol : isInjection call = false)
    (ecu : ID4) : s.serve env databuffer call.serviceId = some (s.carryOut env ecu call) := by
  unfold ControlState.serve
  rw [ofId_serviceId hcontrol]
  cases call with
  | sendInjectMsg apid ctid id buffer => cases hcontrol
  | sendLogLevel apid ctid level =>
      exact controlSetStatus_call hown (by simp only [ClientCall.fields, List.append_assoc]) _
  | sendTraceStatus apid ctid status =>
      exact controlSetStatus_call hown (by simp only [ClientCall.fields, List.append_assoc]) _
  | getLogInfo => exact controlGetLogInfo_call hown ecu
  | getDefaultLogLevel => rfl
  | getSoftwareVersion => rfl
  | sendDefaultLogLevel level => exact controlSetLevel_call hown rfl _ _ _
  | sendAllLogLevel level => exact controlSetLevel_call hown rfl _ _ _
  | sendDefaultTraceStatus status => exact controlSetLevel_call hown rfl _ _ _
  | sendAllTraceStatus status => exact controlSetLevel_call hown rfl _ _ _
  | sendTimingPakets status => exact controlSetTimingPackets_call hown ecu
  | sendStoreConfig => rfl
  | sendResetToFactoryDefault => rfl

/-- An injection is forwarded with the bytes it was sent with. -/
theorem controlCallswCinjection_call {apid ctid : List UInt8} {serviceID : UInt32}
    {buffer : List UInt8} {ecu : ID4}
    (hown : databuffer.own = (ClientCall.sendInjectMsg apid ctid serviceID buffer).payload)
    (hheader : header = ⟨controlHtyp, idOf (headerId apid mctClientDummyAppId),
      idOf (headerId ctid mctClientDummyConId), ecu⟩)
    (hsized : buffer.length < 2147483648) :
    s.controlCallswCinjection env header databuffer =
      some (s.carryOut env ecu (.sendInjectMsg apid ctid serviceID buffer)) := by
  have hhtyp : header.htyp = controlHtyp := by rw [hheader]
  have hid : ControlState.requestId header databuffer = serviceID.toNat :=
    requestId_call hown hhtyp
  have hfields : databuffer.own.drop 4 = leBytes 4 buffer.length ++ buffer := by
    rw [hown, payload_drop]
    rfl
  have hused : databuffer.used = 8 + buffer.length := by
    rw [← ReusedBuffer.own_length, hown, payload_length, ClientCall.fields, List.length_append,
      leBytes_length, ← Nat.add_assoc]
  have hdeclared : ControlState.declaredLength header databuffer = buffer.length := by
    have hword : ∀ bytes, header.word bytes = leNat bytes := by
      intro bytes
      unfold ControlHeader.word
      rw [hhtyp]
      exact if_neg (by decide)
    rw [ControlState.declaredLength, hfields, List.take_left' (leBytes_length 4 _), hword,
      leNat_leBytes 4 _ (by omega), int32_natCast hsized]
  have hcells := databuffer.used_le
  cases htarget : s.injectionTarget env header serviceID.toNat with
  | error status =>
      unfold ControlState.controlCallswCinjection
      rw [ControlState.read_id (by omega), Option.bind_some]
      dsimp only
      rw [show header.word (databuffer.own.take 4) = ControlState.requestId header databuffer
        from rfl, hid, htarget]
      rw [ControlState.carryOut, ← hheader, ControlState.inject, htarget]
  | ok target =>
      obtain ⟨k, context⟩ := target
      rw [ControlState.controlCallswCinjection_eq (by omega) (hid.symm ▸ htarget), hdeclared,
        if_neg (by omega), Int.toNat_natCast, ReusedBuffer.read_own (by omega),
        show 8 = 4 + 4 from rfl, ← List.drop_drop, hfields,
        List.drop_left' (leBytes_length 4 _), List.take_length, hid]
      rw [ControlState.carryOut, ← hheader, ControlState.inject, htarget]
      rfl

/-- A request of the client library is performed, whatever is left over behind it. -/
theorem processControl_call {ecu : ID4} (hown : databuffer.own = call.payload)
    (hheader : header = ⟨controlHtyp, idOf (headerId call.apid mctClientDummyAppId),
      idOf (headerId call.ctid mctClientDummyConId), ecu⟩)
    (hsized : call.payload.length < 2147483648) (hunambiguous : Unambiguous call)
    (hcon : (findConnection s.daemonLocal.pEvent.connections env.sock).isSome) :
    ControlState.processControl env s header databuffer =
      some ⟨0, (s.perform env ecu call).1, (s.perform env ecu call).2⟩ := by
  have hhtyp : header.htyp = controlHtyp := by rw [hheader]
  have hid : header.word (databuffer.own.take 4) = call.serviceId := requestId_call hown hhtyp
  have hused : 4 ≤ databuffer.used := by
    rw [← ReusedBuffer.own_length, hown, payload_length]
    exact Nat.le_add_right _ _
  obtain ⟨con, hfound⟩ := Option.isSome_iff_exists.mp hcon
  unfold ControlState.processControl
  simp only [if_neg (not_lt.mpr hused), hfound, ControlState.read_id hused, Option.bind_some, hid]
  cases hkind : isInjection call with
  | true =>
      cases call with
      | sendInjectMsg apid ctid serviceID buffer =>
          have hother : ¬(0 < (ClientCall.sendInjectMsg apid ctid serviceID buffer).serviceId ∧
              (ClientCall.sendInjectMsg apid ctid serviceID buffer).serviceId <
                mctServiceIdCallswCinjection) := by
            rw [ClientCall.serviceId]
            have hserviceID : serviceID.toNat = 0 ∨
              mctServiceIdCallswCinjection ≤ serviceID.toNat := hunambiguous
            omega
          have hlength : buffer.length < 2147483648 := by
            rw [payload_length, ClientCall.fields, List.length_append] at hsized
            omega
          rw [if_neg hother, controlCallswCinjection_call hown hheader hlength]
          rfl
      | _ => cases hkind
  | false =>
      have hperform : s.perform env ecu call =
          if s.allows env call.serviceId then s.carryOut env ecu call
          else ([.service call.serviceId .permDenied], s) := by
        cases call with
        | sendInjectMsg apid ctid serviceID buffer => cases hkind
        | _ => rfl
      have hallows : s.allows env call.serviceId = s.permitted env con call.serviceId := by
        rw [ControlState.allows, hfound, Option.any_some]
      rw [if_pos (control_serviceId hkind), hperform, hallows, serve_call hown hkind ecu]
      by_cases hpermitted : s.permitted env con call.serviceId = true
      · rw [if_pos hpermitted, if_pos hpermitted]
        rfl
      · rw [if_neg hpermitted, if_neg hpermitted]
        rfl

theorem inject_daemonLocal (id : Nat) (data : List UInt8) :
    (s.inject env header id data).2.daemonLocal = s.daemonLocal := by
  unfold ControlState.inject ControlState.forwardInjection
  dsimp only
  split
  · rfl
  split
  · dsimp only
    split
    · rfl
    · rfl
  · rfl

theorem logInfo_daemonLocal (req : GetLogInfoRequest) :
    (s.logInfo req).2.daemonLocal = s.daemonLocal := by
  unfold ControlState.logInfo
  split
  · rfl
  · rfl

theorem setTimingPackets_daemonLocal (status : UInt8) :
    (s.setTimingPackets status).2.daemonLocal = s.daemonLocal := by
  unfold ControlState.setTimingPackets
  split
  · rfl
  · rfl

theorem carryOut_daemonLocal (ecu : ID4) :
    (s.carryOut env ecu call).2.daemonLocal = s.daemonLocal := by
  cases call with
  | getLogInfo => exact logInfo_daemonLocal _
  | sendTimingPakets status => exact setTimingPackets_daemonLocal status
  | sendInjectMsg apid ctid serviceID buffer => exact inject_daemonLocal _ _
  | _ => rfl

/-- No request of the client library changes the connections. -/
theorem perform_daemonLocal (ecu : ID4) :
    (s.perform env ecu call).2.daemonLocal = s.daemonLocal := by
  cases call with
  | sendInjectMsg apid ctid serviceID buffer => exact carryOut_daemonLocal ecu
  | _ =>
      unfold ControlState.perform
      dsimp only
      split
      · exact carryOut_daemonLocal ecu
      · rfl

end Services

end Requests

section Rounds

/-- The answers so far, and what the requests have changed. -/
abbrev Progress := List (Int × List ControlAnswer) × ControlState

def ServedClients.progress (daemon : ServedClients) : Progress := (daemon.answered, daemon.control)

def performNext (clients : Int → MctClient) (env : Nat → ControlEnv) (progress : Progress)
    (request : Int × Request) : Progress :=
  let (answers, next) := progress.2.perform { env progress.1.length with sock := request.1 }
    (idOf (setIdBytes (clients request.1).ecuid)) request.2.call
  (progress.1 ++ [(request.1, answers)], next)

def ServedClients.Knows (daemon : ServedClients) (sock : Int) : Prop :=
  0 < sock ∧ (findConnection daemon.control.daemonLocal.pEvent.connections sock).isSome

instance (daemon : ServedClients) (sock : Int) : Decidable (daemon.Knows sock) :=
  inferInstanceAs (Decidable (_ ∧ _))

variable {malloc : Malloc} {resync : Bool} {env : Nat → ControlEnv} {clients : Int → MctClient}
  {daemon : ServedClients} {sock : Int} {request : Request} {mem : List UInt8}

theorem performNext_daemonLocal (progress : Progress) (request : Int × Request) :
    (performNext clients env progress request).2.daemonLocal = progress.2.daemonLocal :=
  perform_daemonLocal _

theorem performed_daemonLocal (progress : Progress) (requests : List (Int × Request)) :
    (requests.foldl (performNext clients env) progress).2.daemonLocal =
      progress.2.daemonLocal := by
  induction requests generalizing progress with
  | nil => rfl
  | cons request requests ih =>
      rw [List.foldl_cons, ih]
      exact performNext_daemonLocal progress request

/-- The payload lies at the front of its block. -/
theorem own_payloadBuffer (msg : MctMessage) :
    (payloadBuffer msg).own = msg.extracted.payload := by
  simp only [ReusedBuffer.own, payloadBuffer, MctMessage.extracted]
  rw [← List.take_take, List.take_length]

/-- A request that was read is performed. -/
theorem handle_request (hmsg : daemon.msg.extracted = request.message (clients sock))
    (hknows : daemon.Knows sock) (hsized : request.Sized)
    (hunambiguous : Unambiguous request.call) :
    ∃ served, ServedClients.handle env sock daemon = some served ∧ served.msg = daemon.msg ∧
      served.sockets = daemon.sockets ∧
      served.progress = performNext clients env daemon.progress (sock, request) := by
  obtain ⟨hheader, hrequest, hecu, hid⟩ :=
    @header_eq (clients sock) request (idOf (setIdBytes (clients sock).ecuid))
  have hlength : request.call.payload.length < 2147483648 := by
    have hsize : sizeofControlHeaders + request.call.payload.length < 2147483648 := hsized
    omega
  have hown : (payloadBuffer daemon.msg).own = request.call.payload := by
    rw [own_payloadBuffer, hmsg]
    rfl
  have hprocess := @processControl_call (daemon.nextEnv env sock) daemon.control _ _ _ _ hown
    hheader hlength hunambiguous hknows.2
  unfold ServedClients.handle
  simp only [hmsg, Request.message, hecu, if_true, hid, hrequest, hknows.1, and_self]
  rw [hprocess]
  exact ⟨_, rfl, rfl, rfl, rfl⟩

/-- The loop performs the requests that are there completely. -/
theorem processRequests_served (halloc : ∀ n, malloc.block n ≠ none) (bytes : List UInt8)
    {requests : List Request} {receiver : MctReceiver} (hpresents : Presents mem receiver bytes)
    (hbuffer : daemon.msg.headerbuffer.length = sizeofHeaderbuffer)
    (hknows : daemon.Knows sock)
    (hread : ((messageFraming resync).drain bytes).1 =
      requests.map (Request.message (clients sock)))
    (hgood : ∀ request ∈ requests, request.Sized ∧ Unambiguous request.call) :
    ∃ served last, ServedClients.processRequests malloc resync env sock mem daemon receiver =
        some (served, last) ∧
      served.msg.headerbuffer.length = sizeofHeaderbuffer ∧
      Presents mem last ((messageFraming resync).drain bytes).2 ∧
      served.sockets = daemon.sockets ∧
      served.progress =
        (requests.map fun request => (sock, request)).foldl (performNext clients env)
          daemon.progress := by
  induction bytes using (messageFraming resync).drain_induction generalizing daemon receiver
    requests with
  | none bytes hnone =>
      have hreads := @daemon_loopReads malloc resync halloc daemon.msg bytes hbuffer
      have hrefused := hreads.refused hnone
      rw [(messageFraming resync).drain_of_none hnone] at hread ⊢
      cases List.map_eq_nil_iff.mp hread.symm
      rw [ServedClients.processRequests]
      split
      · next next hok =>
          rw [hpresents.presented_eq] at hok
          rw [hok] at hrefused
          exact absurd rfl hrefused
      · next next hne hresult =>
          rw [hpresents.presented_eq] at hresult
          have hlength := hreads.buffer_length
          rw [hresult] at hlength
          exact ⟨_, _, rfl, hlength, hpresents, rfl, rfl⟩
  | some bytes message taken hsome ih =>
      have hreads := @daemon_loopReads malloc resync halloc daemon.msg bytes hbuffer
      obtain ⟨hok, hextracted, hremoved⟩ := hreads.accepted message taken hsome
      obtain ⟨hpos, hle⟩ := (messageFraming resync).taken_pos _ _ _ hsome
      rw [(messageFraming resync).drain_of_some hsome] at hread ⊢
      cases requests with
      | nil => cases hread
      | cons request requests =>
          obtain ⟨hmessage, hlater⟩ := List.cons.inj hread
          obtain ⟨hsized, hunambiguous⟩ := hgood request List.mem_cons_self
          rw [ServedClients.processRequests]
          split
          · next next hresult =>
              rw [hpresents.presented_eq] at hresult
              have hlength := hreads.buffer_length
              rw [hresult] at hextracted hremoved hlength
              obtain ⟨-, -, hnext⟩ := hpresents.remove taken hpos hle
              have hread : ({ daemon with msg := next } : ServedClients).msg.extracted =
                  request.message (clients sock) := hextracted.trans hmessage
              obtain ⟨performed, hhandle, hmsg, hsockets, hprogress⟩ :=
                @handle_request env clients _ sock request hread hknows hsized hunambiguous
              have hremoves : next.bytesToBeRemoved = taken := hremoved
              have hstill : performed.Knows sock := by
                refine ⟨hknows.1, ?_⟩
                have hconnections : performed.control.daemonLocal = daemon.control.daemonLocal :=
                  (congrArg (fun progress : Progress => progress.2.daemonLocal) hprogress).trans
                    (performNext_daemonLocal _ _)
                rw [hconnections]
                exact hknows.2
              obtain ⟨served, last, hrun, hkept, hlast, hsame, hall⟩ :=
                ih hnext (hmsg ▸ hlength) hstill hlater fun later hmem =>
                  hgood later (List.mem_cons_of_mem request hmem)
              rw [hhandle, Option.bind_some, hremoves]
              refine ⟨served, last, hrun, hkept, hlast, hsame.trans hsockets, ?_⟩
              rw [hall, hprogress]
              rfl
          · next next hne hresult =>
              rw [hpresents.presented_eq] at hresult
              rw [hresult] at hok
              exact (hne hok).elim

end Rounds

section Streams

def arrived (sock : Int) (deliveries : List (Int × List UInt8)) : List UInt8 :=
  (deliveries.filter fun delivery => delivery.1 = sock).flatMap Prod.snd

/-- The bytes that the calls of a client write. -/
def written (client : MctClient) (requests : List Request) : List UInt8 :=
  requests.flatMap fun request => (request.result client).2

def acceptedOf (requests : List Request) : List Request :=
  requests.filter fun request => request.Accepted

/-- The requests of a connection among all that were performed. -/
def performedFor (sock : Int) (order : List (Int × Request)) : List Request :=
  (order.filter fun request => request.1 = sock).map Prod.snd

variable {sock other : Int}

theorem arrived_append (before later : List (Int × List UInt8)) :
    arrived sock (before ++ later) = arrived sock before ++ arrived sock later := by
  simp only [arrived, List.filter_append, List.flatMap_append]

theorem arrived_own (chunk : List UInt8) : arrived sock [(sock, chunk)] = chunk := by
  simp [arrived]

theorem arrived_other (h : other ≠ sock) (chunk : List UInt8) :
    arrived sock [(other, chunk)] = [] := by
  simp [arrived, h]

theorem performedFor_append (order more : List (Int × Request)) :
    performedFor sock (order ++ more) = performedFor sock order ++ performedFor sock more := by
  simp only [performedFor, List.filter_append, List.map_append]

theorem performedFor_own (requests : List Request) :
    performedFor sock (requests.map fun request => (sock, request)) = requests := by
  induction requests with
  | nil => rfl
  | cons request requests ih =>
      simp only [performedFor, List.map_cons, List.filter_cons, decide_true, if_true]
      exact congrArg (request :: ·) ih

theorem performedFor_other (h : other ≠ sock) (requests : List Request) :
    performedFor sock (requests.map fun request => (other, request)) = [] := by
  induction requests with
  | nil => rfl
  | cons request requests ih =>
      simp only [performedFor, List.map_cons, List.filter_cons, h, decide_false,
        Bool.false_eq_true, if_false]
      exact ih

variable {client : MctClient} {requests : List Request}

/-- A refused call writes nothing. -/
theorem written_eq (hsized : ∀ request ∈ requests, request.Sized) :
    written client requests = (acceptedOf requests).flatMap (Request.bytes client) := by
  induction requests with
  | nil => rfl
  | cons request requests ih =>
      have hlater := ih fun later hlater => hsized later (List.mem_cons_of_mem request hlater)
      simp only [written, acceptedOf, List.flatMap_cons, List.filter_cons] at hlater ⊢
      by_cases haccepted : request.Accepted
      · rw [Request.result_accepted haccepted, hlater, if_pos (by simpa using haccepted),
          List.flatMap_cons]
      · rw [Request.result_refused (hsized request List.mem_cons_self) haccepted, hlater,
          if_neg (by simpa using haccepted), List.nil_append]

/-- The calls of a client are read from what they write. -/
theorem drain_written {resync : Bool} (hsized : ∀ request ∈ requests, request.Sized)
    (hresync : resync = true → client.sendSerialHeader = true) :
    (messageFraming resync).drain (written client requests) =
      ((acceptedOf requests).map (Request.message client), []) := by
  rw [written_eq hsized]
  apply (messageFraming resync).drain_encoded
  intro request hrequest more
  have haccepted : request.Accepted := by simpa using (List.mem_filter.mp hrequest).2
  exact Request.parseMessage_bytes haccepted hresync more

end Streams

section Run

variable {malloc : Malloc} {resync : Bool} {env : Nat → ControlEnv} {clients : Int → MctClient}
  {requests : Int → List Request} {start : Progress}

/-- After some deliveries: each connection owes what is left of its bytes, and of its client's
requests those are performed that have arrived completely. -/
structure Serving (resync : Bool) (env : Nat → ControlEnv) (clients : Int → MctClient)
    (requests : Int → List Request) (start : Progress) (before : List (Int × List UInt8))
    (order : List (Int × Request)) (daemon : ServedClients) : Prop where
  carries : ∀ sock, Carries (daemon.sockets sock).mem (daemon.sockets sock).receiver
    ((messageFraming resync).drain (arrived sock before)).2
  performed : ∀ sock, performedFor sock order = (acceptedOf (requests sock)).take
    ((messageFraming resync).drain (arrived sock before)).1.length
  progress : daemon.progress = order.foldl (performNext clients env) start
  buffer_length : daemon.msg.headerbuffer.length = sizeofHeaderbuffer

/-- What the requests of the clients have to be like. -/
structure Proper (resync : Bool) (client : MctClient) (requests : List Request) : Prop where
  sized : ∀ request ∈ requests, request.Sized
  unambiguous : ∀ request ∈ requests, Unambiguous request.call
  resync : resync = true → client.sendSerialHeader = true

/-- What a delivery completes are the next requests of its client. -/
theorem completed_eq {sock : Int} {before : List UInt8} (chunk : List UInt8)
    (hproper : Proper resync (clients sock) (requests sock))
    (hfront : before ++ chunk <+: written (clients sock) (requests sock)) :
    ((messageFraming resync).drain (((messageFraming resync).drain before).2 ++ chunk)).1 =
      (((acceptedOf (requests sock)).drop ((messageFraming resync).drain before).1.length).take
        ((messageFraming resync).drain
          (((messageFraming resync).drain before).2 ++ chunk)).1.length).map
        (Request.message (clients sock)) := by
  have hprefixed := (messageFraming resync).drain_front hfront
  rw [drain_written hproper.sized hproper.resync, (messageFraming resync).drain_append] at hprefixed
  have htake := List.prefix_iff_eq_take.mp hprefixed
  dsimp only at htake
  have hdrop := congrArg (List.drop ((messageFraming resync).drain before).1.length) htake
  rw [List.drop_left, List.length_append, List.drop_take, Nat.add_sub_cancel_left] at hdrop
  rw [List.map_take, List.map_drop]
  exact hdrop

/-- One delivery performs the requests that it completes. -/
theorem Serving.deliver {before : List (Int × List UInt8)} {order : List (Int × Request)}
    {daemon : ServedClients} (h : Serving resync env clients requests start before order daemon)
    (halloc : ∀ n, malloc.block n ≠ none) (delivery : Int × List UInt8)
    (hproper : Proper resync (clients delivery.1) (requests delivery.1))
    (hknows : daemon.Knows delivery.1) (hfits : daemon.Fits delivery)
    (hfront : arrived delivery.1 (before ++ [delivery]) <+:
      written (clients delivery.1) (requests delivery.1)) :
    ∃ served more, ServedClients.deliver malloc resync env daemon delivery = some served ∧
      Serving resync env clients requests start (before ++ [delivery]) (order ++ more) served := by
  obtain ⟨sock, chunk⟩ := delivery
  obtain ⟨hne, hroom⟩ := hfits
  have hcarries := h.carries sock
  have harrived : arrived sock (before ++ [(sock, chunk)]) = arrived sock before ++ chunk := by
    rw [arrived_append, arrived_own]
  rw [harrived] at hfront
  rw [hcarries.count_eq] at hroom
  obtain ⟨-, -, -, hpresents⟩ := hcarries.receive chunk hne hroom
  obtain ⟨count, mem, receiver, hreceive⟩ : ∃ count mem receiver,
      mctReceiverReceive (daemon.sockets sock).mem (daemon.sockets sock).receiver chunk =
        (count, mem, receiver) := ⟨_, _, _, rfl⟩
  rw [hreceive] at hpresents
  have hcompleted := completed_eq chunk hproper hfront
  have hdrain := (messageFraming resync).drain_append (arrived sock before) chunk
  set rest := ((messageFraming resync).drain (arrived sock before)).2
  set completed := ((acceptedOf (requests sock)).drop
    ((messageFraming resync).drain (arrived sock before)).1.length).take
      ((messageFraming resync).drain (rest ++ chunk)).1.length with hnew
  have hmember : ∀ request ∈ completed, request ∈ requests sock := by
    intro request hrequest
    exact (List.mem_filter.mp (List.mem_of_mem_drop (List.mem_of_mem_take hrequest))).1
  obtain ⟨served, last, hrun, hbuffer, hlast, hsockets, hprogress⟩ :=
    @processRequests_served malloc resync env clients daemon sock _ halloc (rest ++ chunk)
      completed _ hpresents h.buffer_length hknows hcompleted fun request hrequest =>
        ⟨hproper.sized request (hmember request hrequest),
          hproper.unambiguous request (hmember request hrequest)⟩
  have hdeliver : ServedClients.deliver malloc resync env daemon (sock, chunk) =
      some { served with
        sockets := Function.update served.sockets sock
          ⟨mem, mctReceiverMoveToBegin malloc mem last⟩ } := by
    unfold ServedClients.deliver
    simp only [hreceive, hrun]
    rfl
  refine ⟨_, completed.map fun request => (sock, request), hdeliver, ?_, ?_, ?_, hbuffer⟩
  · intro other
    dsimp only
    by_cases hother : other = sock
    · subst hother
      rw [Function.update_self, harrived, hdrain]
      exact hlast.moveToBegin malloc (halloc _)
    · rw [Function.update_of_ne hother, hsockets, arrived_append,
        arrived_other (Ne.symm hother), List.append_nil]
      exact h.carries other
  · intro other
    rw [performedFor_append, h.performed other]
    by_cases hother : other = sock
    · subst hother
      rw [performedFor_own, harrived, hdrain, List.length_append, List.take_add]
    · rw [performedFor_other (Ne.symm hother), List.append_nil, arrived_append,
        arrived_other (Ne.symm hother), List.append_nil]
  · rw [List.foldl_append, ← h.progress]
    exact hprogress

theorem Serving.knows {before : List (Int × List UInt8)} {order : List (Int × Request)}
    {daemon : ServedClients} (h : Serving resync env clients requests start before order daemon)
    {sock : Int} (hpositive : 0 < sock)
    (hcon : (findConnection start.2.daemonLocal.pEvent.connections sock).isSome) :
    daemon.Knows sock := by
  have hconnections : daemon.control.daemonLocal = start.2.daemonLocal :=
    (congrArg (fun progress : Progress => progress.2.daemonLocal) h.progress).trans
      (performed_daemonLocal _ _)
  exact ⟨hpositive, hconnections ▸ hcon⟩

/-- Any deliveries that fit keep on serving. -/
theorem Serving.run {before : List (Int × List UInt8)} {order : List (Int × Request)}
    {daemon : ServedClients} (h : Serving resync env clients requests start before order daemon)
    (halloc : ∀ n, malloc.block n ≠ none) (deliveries : List (Int × List UInt8))
    (hproper : ∀ sock, Proper resync (clients sock) (requests sock))
    (hcons : ∀ delivery ∈ deliveries, 0 < delivery.1 ∧
      (findConnection start.2.daemonLocal.pEvent.connections delivery.1).isSome)
    (hfits : ServedClients.AllFit malloc resync env daemon deliveries)
    (hfront : ∀ sock, arrived sock (before ++ deliveries) <+:
      written (clients sock) (requests sock)) :
    ∃ served more, ServedClients.run malloc resync env daemon deliveries = some served ∧
      Serving resync env clients requests start (before ++ deliveries) (order ++ more) served := by
  induction deliveries generalizing before order daemon with
  | nil => exact ⟨daemon, [], rfl, by simpa using h⟩
  | cons delivery deliveries ih =>
      obtain ⟨hfirst, hlater⟩ := hfits
      obtain ⟨hpositive, hcon⟩ := hcons delivery List.mem_cons_self
      have harrived : arrived delivery.1 (before ++ [delivery]) <+:
          written (clients delivery.1) (requests delivery.1) := by
        apply List.IsPrefix.trans _ (hfront delivery.1)
        rw [List.append_cons before delivery deliveries, arrived_append _ deliveries]
        exact List.prefix_append _ _
      obtain ⟨next, done, hdeliver, hserving⟩ :=
        h.deliver halloc delivery (hproper delivery.1) (h.knows hpositive hcon) hfirst harrived
      obtain ⟨served, more, hrun, hend⟩ := ih hserving
        (fun later hmem => hcons later (List.mem_cons_of_mem delivery hmem))
        (hlater next hdeliver) (by simpa using hfront)
      refine ⟨served, done ++ more, ?_, by simpa using hend⟩
      rw [ServedClients.run, List.foldlM_cons, hdeliver]
      exact hrun

/-- However the streams of the clients are cut and their pieces come in turn, there is an order of
requests in which each client's accepted ones stand as they were sent, as far as they have arrived,
and the daemon answers and changes what performing them in this order answers and changes. -/
theorem requests_are_served (malloc : Malloc) (halloc : ∀ n, malloc.block n ≠ none) (resync : Bool)
    (env : Nat → ControlEnv) (clients : Int → MctClient) (requests : Int → List Request)
    (daemon : ServedClients)
    (hopen : ∀ sock, (daemon.sockets sock).receiver =
      mctReceiverInit (daemon.sockets sock).mem.length)
    (hbuffer : daemon.msg.headerbuffer.length = sizeofHeaderbuffer)
    (hproper : ∀ sock, Proper resync (clients sock) (requests sock))
    (deliveries : List (Int × List UInt8))
    (hcons : ∀ delivery ∈ deliveries, daemon.Knows delivery.1)
    (hfits : ServedClients.AllFit malloc resync env daemon deliveries)
    (hsent : ∀ sock, arrived sock deliveries <+: written (clients sock) (requests sock)) :
    ∃ served order, ServedClients.run malloc resync env daemon deliveries = some served ∧
      (∀ sock, performedFor sock order <+: acceptedOf (requests sock)) ∧
      (∀ sock, arrived sock deliveries = written (clients sock) (requests sock) →
        performedFor sock order = acceptedOf (requests sock)) ∧
      (served.answered, served.control) =
        order.foldl (performNext clients env) (daemon.answered, daemon.control) := by
  have hnothing : (messageFraming resync).drain [] = ([], []) :=
    (messageFraming resync).drain_of_none (messageFraming resync).read_nil
  have hstart : Serving resync env clients requests daemon.progress [] [] daemon := by
    refine ⟨?_, ?_, rfl, hbuffer⟩
    · intro sock
      rw [show arrived sock [] = [] from rfl, hnothing, hopen sock]
      exact carries_init _
    · intro sock
      rw [show arrived sock [] = [] from rfl, hnothing]
      rfl
  obtain ⟨served, order, hrun, hend⟩ := hstart.run halloc deliveries hproper hcons hfits hsent
  refine ⟨served, order, hrun, ?_, ?_, hend.progress⟩
  · intro sock
    rw [show order = [] ++ order from rfl, hend.performed sock]
    exact List.take_prefix _ _
  · intro sock hall
    rw [show order = [] ++ order from rfl, hend.performed sock, List.nil_append, hall,
      drain_written (hproper sock).sized (hproper sock).resync, List.length_map, List.take_length]

/-- An injection of one client, cut in two, with a request of another client in between. -/
def cutInjection : Int → List Request := fun sock =>
  if sock = 5 then [⟨7, .sendInjectMsg [65] [67] 4096 [1, 2]⟩]
  else if sock = 6 then [⟨8, .sendTimingPakets 1⟩]
  else []

def cutClients : Int → MctClient := fun _ => ⟨[69], false⟩

def cutDeliveries : List (Int × List UInt8) :=
  [(5, (written (cutClients 5) (cutInjection 5)).take 20),
    (6, written (cutClients 6) (cutInjection 6)),
    (5, (written (cutClients 5) (cutInjection 5)).drop 20)]

def twoClients : ServedClients where
  sockets := fun _ => ⟨List.replicate 64 0, mctReceiverInit 64⟩
  msg := mctMessageInit
  ecu := setId []
  control :=
    { ControlState.oneContext with
      daemonLocal := ⟨ControlState.openFilter,
        ⟨[], [⟨5, .clientMsgTcp, .active, 1⟩, ⟨6, .clientMsgTcp, .active, 1⟩]⟩, [], [5, 6], false⟩ }
  answered := []

def openEnv : ControlEnv :=
  { ControlState.plainEnv with ctrlMask := fun _ => ⟨2 ^ 32 - 1, 2 ^ 32 - 1⟩ }

theorem cutInjection_proper (sock : Int) : Proper false (cutClients sock) (cutInjection sock) := by
  have hresync : false = true → (cutClients sock).sendSerialHeader = true := by
    intro h
    cases h
  by_cases hfirst : sock = 5
  · subst hfirst
    exact ⟨by decide, by decide, hresync⟩
  by_cases hsecond : sock = 6
  · subst hsecond
    exact ⟨by decide, by decide, hresync⟩
  simp only [cutInjection, hfirst, hsecond, if_false]
  exact ⟨by simp, by simp, hresync⟩

theorem cutDeliveries_sent (sock : Int) :
    arrived sock cutDeliveries <+: written (cutClients sock) (cutInjection sock) := by
  by_cases hfirst : sock = 5
  · subst hfirst
    decide +kernel
  by_cases hsecond : sock = 6
  · subst hsecond
    decide +kernel
  simp [arrived, cutDeliveries, Ne.symm hfirst, Ne.symm hsecond]

theorem requests_are_served_cut :
    ∃ served order, ServedClients.run Malloc.zeroed false (fun _ => openEnv) twoClients
        cutDeliveries = some served ∧
      (∀ sock, performedFor sock order <+: acceptedOf (cutInjection sock)) ∧
      (∀ sock, arrived sock cutDeliveries = written (cutClients sock) (cutInjection sock) →
        performedFor sock order = acceptedOf (cutInjection sock)) ∧
      (served.answered, served.control) =
        order.foldl (performNext cutClients fun _ => openEnv)
          (twoClients.answered, twoClients.control) :=
  requests_are_served Malloc.zeroed (by simp [Malloc.zeroed]) false (fun _ => openEnv) cutClients
    cutInjection twoClients (fun _ => rfl) rfl cutInjection_proper cutDeliveries (by decide)
    (by decide +kernel) cutDeliveries_sent

end Run

end MctDaemon.Daemon
