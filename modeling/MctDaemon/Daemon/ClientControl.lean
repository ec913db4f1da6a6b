import MctDaemon.Lib.ReusedBuffer
import MctDaemon.Daemon.FilterConnections
import MctDaemon.Daemon.GetLogInfo
import MctDaemon.Daemon.LogLevels
import MctDaemon.Daemon.LogstorageDevices

/-!
`mct_daemon_client_process_control`: the service of a control request is looked up, permitted and
served. Each service casts `databuffer` to its own structure. A read past the end of the buffer
gives no outcome.
-/

namespace MctDaemon.Daemon

open Lib Shared

section Answers

inductive ResponseStatus where
  | ok
  | notSupported
  | error
  | permDenied
  | warning
  deriving DecidableEq, Repr

def ServiceResponse.status : ServiceResponse → ResponseStatus
  | .ok => .ok
  | .warning => .warning
  | .error => .error

/-- The masks of the control messages that a filter configuration allows, below `0xF00` and from
there on. -/
structure MctServiceIdFlag where
  lower : Nat
  upper : Nat
  deriving DecidableEq, Repr

/-- `bit`: whether the mask has the bit of a service. -/
def MctServiceIdFlag.bit (flags : MctServiceIdFlag) (id : Nat) : Bool :=
  if id ≤ 0 ∨ 0xF0F ≤ id ∨ 0x15 ≤ id ∧ id ≤ 0xF00 then false
  else if id &&& 0xF00 ≠ 0 then flags.upper.testBit (id &&& 0xFF)
  else flags.lower.testBit (id &&& 0xFF)

/-- What is sent back to the connection of a request. -/
inductive ControlAnswer where
  /-- `mct_daemon_control_service_response`. -/
  | service (id : Nat) (status : ResponseStatus)
  | softwareVersion (version : List Char)
  | defaultLogLevel (level : UInt8)
  | logInfo (reply : LogInfoReply)
  | messageBufferOverflow (counter : Nat)
  | filterStatus (current : MctFilterConfiguration) (ctrlMask : MctServiceIdFlag)
  deriving DecidableEq

end Answers

section Services

/-- The services that are told apart; the others are not supported. -/
inductive ControlService where
  | setLogLevel
  | setTraceStatus
  | getLogInfo
  | getDefaultLogLevel
  | storeConfig
  | resetToFactoryDefault
  | setTimingPackets
  | getLocalTime
  | setDefaultLogLevel
  | setDefaultTraceStatus
  | getSoftwareVersion
  | messageBufferOverflow
  | offlineLogstorage
  | setAllLogLevel
  | setAllTraceStatus
  | setFilterLevel
  | getFilterStatus
  | notSupported
  deriving DecidableEq, Repr

/-- `enum mct_services` and `enum mct_user_services`. -/
def controlServices : List (Nat × ControlService) :=
  [(0x01, .setLogLevel), (0x02, .setTraceStatus), (0x03, .getLogInfo),
    (0x04, .getDefaultLogLevel), (0x05, .storeConfig), (0x06, .resetToFactoryDefault),
    (0x0B, .setTimingPackets), (0x0C, .getLocalTime), (0x11, .setDefaultLogLevel),
    (0x12, .setDefaultTraceStatus), (0x13, .getSoftwareVersion), (0x14, .messageBufferOverflow),
    (0xF05, .offlineLogstorage), (0xF08, .setAllLogLevel), (0xF09, .setAllTraceStatus),
    (0xF0D, .setFilterLevel), (0xF0E, .getFilterStatus)]

def ControlService.ofId (id : Nat) : ControlService :=
  (controlServices.lookup id).getD .notSupported

def mctServiceIdSetLogLevel : Nat := 0x01
def mctServiceIdSetTraceStatus : Nat := 0x02
def mctServiceIdSetTimingPackets : Nat := 0x0B
def mctServiceIdSetDefaultLogLevel : Nat := 0x11
def mctServiceIdSetDefaultTraceStatus : Nat := 0x12
def mctServiceIdOfflineLogstorage : Nat := 0xF05
def mctServiceIdSetAllLogLevel : Nat := 0xF08
def mctServiceIdSetAllTraceStatus : Nat := 0xF09
def mctServiceIdSetFilterLevel : Nat := 0xF0D
def mctServiceIdGetFilterStatus : Nat := 0xF0E

def mctServiceIdCallswCinjection : Nat := 0xFFF
def mctDaemonInjectionMin : Nat := 0xFFF
def mctMountPathMax : Nat := 1024

end Services

section Requests

/-- What a control request says in front of its payload. -/
structure ControlHeader where
  htyp : UInt8
  apid : ID4
  ctid : ID4
  ecu : ID4
  deriving DecidableEq, Repr

namespace ControlHeader

def isUeh (header : ControlHeader) : Bool := header.htyp &&& 0x01 ≠ 0

/-- `MCT_ENDIAN_GET_32`. -/
def word (header : ControlHeader) (bytes : List UInt8) : Nat :=
  if header.htyp &&& 0x02 ≠ 0 then leNat bytes.reverse else leNat bytes

end ControlHeader

def byteAt (bytes : List UInt8) (off : Nat) : UInt8 := bytes.getD off 0

def byteChars (bytes : List UInt8) : List Char := bytes.map fun b => Char.ofNat b.toNat

def idAt (bytes : List UInt8) (off : Nat) : ID4 where
  chars := (byteChars (bytes.drop off)).takeD mctIdSize '\x00'
  length_eq := List.takeD_length _ _ _

def setLogLevelRequest (bytes : List UInt8) : MctServiceSetLogLevel :=
  ⟨idAt bytes 4, idAt bytes 8, byteAt bytes 12⟩

def getLogInfoRequest (bytes : List UInt8) : GetLogInfoRequest :=
  ⟨byteAt bytes 4, idAt bytes 5, idAt bytes 9⟩

/-- `connection_type` of a request. -/
def ConnectionType.ofByte (b : UInt8) : ConnectionType :=
  if b = 0 then .deviceDisconnected
  else if b = 1 then .deviceConnected
  else if b = 2 then .syncCaches
  else .other

end Requests

/-- An injection as it is written to an application. -/
structure InjectionMessage where
  userHandle : Int
  logLevelPos : Int
  serviceId : Nat
  data : List UInt8
  deriving DecidableEq, Repr

/-- What the daemon was configured with, and what is answered to its calls. `storageLevels` stands
for what a request about a log-storage device does to the levels of the applications. -/
structure ControlEnv where
  sock : Int
  flags : LevelFlags
  injectionMode : Bool
  backend : Bool
  ctrlMask : MctFilterConfiguration → MctServiceIdFlag
  ecuVersionString : List Char
  overflowCounter : Nat
  writes : Nat → SendResult
  writev : MctReturnValue
  sockets : SocketOpen
  stat : Stat
  loadConfig : List Char → Int
  applicationsSaved : Bool
  contextsSaved : Bool
  storageLevels : LogstorageReply → StorageDaemon → StorageDaemon → LevelState → LevelState

structure ControlState where
  levels : LevelState
  daemonLocal : MctDaemonLocal
  storage : StorageDaemon
  timingpackets : UInt8
  injections : List InjectionMessage

/-- The answers to a request and the next state, if nothing was read past the buffer. -/
abbrev Served := Option (List ControlAnswer × ControlState)

namespace LevelState

variable (kind : LevelKind) (flags : LevelFlags)

/-- Whether `sendStatus` reaches the application of a context. -/
def statusSent (s : LevelState) (k : Nat) (status : Int) (write : SendResult) : Bool :=
  match s.users.contexts[k]? with
  | none => false
  | some context =>
      ((s.modifyContext k (·.withStatus kind status)).sendIfValid flags k context false write).1

/-- The same for the contexts that `findMultipleContextLoop` sends to. -/
def multipleSent (appFlag : Bool) (str : List Char) (len : Nat) (status : Int)
    (writes : Nat → SendResult) : LevelState → List Nat → List Bool
  | _, [] => []
  | s, count :: counts =>
      match s.users.contexts[count]? with
      | none => []
      | some context =>
          match strncmp (if appFlag then context.apid else context.ctid).chars str len with
          | .eq => s.statusSent kind flags count status (writes count) ::
              multipleSent appFlag str len status writes
                (s.sendStatus kind flags count status (writes count)) counts
          | .gt => if appFlag then []
              else multipleSent appFlag str len status writes s counts
          | .lt => multipleSent appFlag str len status writes s counts

/-- The service whose response reports a setting. -/
def statusService : LevelKind → Nat
  | .logLevel => mctServiceIdSetLogLevel
  | .traceStatus => mctServiceIdSetTraceStatus

def sentAnswer (sent : Bool) : ControlAnswer :=
  .service (statusService kind) (if sent then .ok else .error)

/-- The responses to a request for a setting. A context that is not found is reported under the
id for log levels. -/
def controlSetStatusAnswers (s : LevelState) (req : MctServiceSetLogLevel)
    (writes : Nat → SendResult) : List ControlAnswer :=
  let level := if flags.enforceContextLLAndTS then uint8 (getStatus req.logLevel (flags.cap kind))
    else req.logLevel
  let status := int8 level.toNat
  let apid := idText req.apid.chars
  let ctid := idText req.ctid.chars
  let multiple := fun appFlag str len => (s.multipleSent kind flags appFlag str len status writes
    (List.range s.users.contexts.length)).map (sentAnswer kind)
  if apid ≠ [] ∧ apid.getLast? = some '*' ∧ ctid = [] then multiple true apid (apid.length - 1)
  else if ctid ≠ [] ∧ ctid.getLast? = some '*' ∧ apid = [] then
    multiple false ctid (ctid.length - 1)
  else if apid ≠ [] ∧ apid.getLast? ≠ some '*' ∧ ctid = [] then multiple true apid mctIdSize
  else if ctid ≠ [] ∧ ctid.getLast? ≠ some '*' ∧ apid = [] then multiple false ctid mctIdSize
  else
    match s.users.contextFind (setId req.apid.chars) (setId req.ctid.chars) with
    | none => [.service mctServiceIdSetLogLevel .error]
    | some k => [sentAnswer kind (s.statusSent kind flags k status (writes k))]

end LevelState

namespace ControlState

variable (env : ControlEnv) (s : ControlState) (header : ControlHeader)
  (databuffer : ReusedBuffer UInt8)

def withLevels (levels : LevelState) : ControlState := { s with levels := levels }

/-- `mct_check_rcv_data_size`, and the cast to the structure of a service. -/
def checked (size : Nat) (serve : List UInt8 → List ControlAnswer × ControlState) : Served :=
  if databuffer.used < size then some ([], s) else (databuffer.read 0 size).map serve

/-- A request for a setting of contexts, of 17 bytes. -/
def controlSetStatus (kind : LevelKind) : Served :=
  checked s databuffer 17 fun bytes =>
    let req := setLogLevelRequest bytes
    (s.levels.controlSetStatusAnswers kind env.flags req env.writes,
      s.withLevels (s.levels.controlSetStatus kind env.flags req env.writes))

/-- A request for a setting of the daemon or of all contexts, of 9 bytes. -/
def controlSetLevel (id : Nat) (accepted : UInt8 → Bool)
    (set : LevelFlags → LevelState → UInt8 → (Nat → SendResult) → LevelState) : Served :=
  checked s databuffer 9 fun bytes =>
    let level := byteAt bytes 4
    ([.service id (if accepted level then .ok else .error)],
      s.withLevels (set env.flags s.levels level env.writes))

def controlSetDefaultLogLevel : Served :=
  controlSetLevel env s databuffer mctServiceIdSetDefaultLogLevel (fun level => level ≤ 6)
    LevelState.controlSetDefaultLogLevel

def controlSetDefaultTraceStatus : Served :=
  controlSetLevel env s databuffer mctServiceIdSetDefaultTraceStatus
    (fun level => level = 0 ∨ level = 1) LevelState.controlSetDefaultTraceStatus

def controlSetAllLogLevel : Served :=
  controlSetLevel env s databuffer mctServiceIdSetAllLogLevel
    (fun level => level ≤ 6 ∨ level = uint8 mctLogDefault) LevelState.controlSetAllLogLevel

def controlSetAllTraceStatus : Served :=
  controlSetLevel env s databuffer mctServiceIdSetAllTraceStatus
    (fun level => level ≤ 1 ∨ level = uint8 mctTraceStatusDefault)
    LevelState.controlSetAllTraceStatus

def controlGetLogInfo : Served :=
  checked s databuffer 17 fun bytes =>
    match s.levels.users.controlGetLogInfo (getLogInfoRequest bytes) with
    | none => ([.service mctServiceIdGetLogInfo .error], s)
    | some reply => ([.logInfo reply], s)

def controlSetTimingPackets : Served :=
  checked s databuffer 5 fun bytes =>
    let newStatus := byteAt bytes 4
    if newStatus = 0 ∨ newStatus = 1 then
      ([.service mctServiceIdSetTimingPackets .ok], { s with timingpackets := newStatus })
    else ([.service mctServiceIdSetTimingPackets .error], s)

/-- `mct_daemon_control_set_filter_level`, which does not check the size of the request. -/
def controlSetFilterLevel : Served :=
  (databuffer.read 0 8).map fun bytes =>
    let (ret, d) :=
      s.daemonLocal.filterChangeFilterLevel env.sockets (leNat (bytes.drop 4))
    ([.service mctServiceIdSetFilterLevel (if ret < 0 then .error else .ok)],
      { s with daemonLocal := d })

/-- The loop over the devices ends before the mount point of a request to synchronise is looked
at. -/
def refusedBefore (connectionType : ConnectionType) : Prop :=
  connectionType = .syncCaches ∧
    findDeviceIndex env.stat (0, 0) s.storage.storageHandle 0 none = none

instance (connectionType : ConnectionType) : Decidable (refusedBefore env s connectionType) :=
  inferInstanceAs (Decidable (_ ∧ _))

/-- A request of log storage with this mount point. The array of a device takes
`MCT_MOUNT_PATH_MAX` characters of it. -/
def serveLogstorage (connectionType : ConnectionType) (mountPoint : List Char) :
    List ControlAnswer × ControlState :=
  let (reply, storage) := serviceLogstorage s.storage
    ⟨connectionType, mountPoint, env.stat, env.loadConfig (mountPoint.take mctMountPathMax)⟩
  let storage := { storage with storageHandle := storage.storageHandle.map fun handle =>
    { handle with deviceMountPoint := handle.deviceMountPoint.take mctMountPathMax } }
  ([.service mctServiceIdOfflineLogstorage reply.response.status],
    { s with storage := storage, levels := env.storageLevels reply s.storage storage s.levels })

/-- `mct_daemon_control_service_logstorage`. The mount point is read up to its terminating zero,
wherever that is. -/
def controlServiceLogstorage : Served :=
  if s.storage.storageHandle.length = 0 then
    some ([.service mctServiceIdOfflineLogstorage .error], s)
  else if databuffer.used < 1033 then some ([], s)
  else
    (databuffer.read 0 1033).bind fun bytes =>
      let connectionType := ConnectionType.ofByte (byteAt bytes 1028)
      if refusedBefore env s connectionType then
        some ([.service mctServiceIdOfflineLogstorage .error], s)
      else
        (databuffer.readUntil 0 4).map fun mountPoint =>
          s.serveLogstorage env connectionType (byteChars mountPoint)

/-- The services of `mct_daemon_client_process_control`. -/
def serve (id : Nat) : Served :=
  match ControlService.ofId id with
  | .setLogLevel => s.controlSetStatus env databuffer .logLevel
  | .setTraceStatus => s.controlSetStatus env databuffer .traceStatus
  | .getLogInfo => s.controlGetLogInfo databuffer
  | .getDefaultLogLevel =>
      some ([.defaultLogLevel (uint8 s.levels.users.defaultLogLevel)], s)
  | .storeConfig =>
      some ([.service id (if env.applicationsSaved && env.contextsSaved then .ok else .error)],
        s.withLevels (s.levels.controlStoreConfig env.flags env.applicationsSaved
          env.contextsSaved env.writes))
  | .resetToFactoryDefault =>
      some ([.service id .ok],
        s.withLevels (s.levels.controlResetToFactoryDefault env.flags env.writes))
  | .setTimingPackets => s.controlSetTimingPackets databuffer
  | .getLocalTime => some ([.service id .ok], s)
  | .setDefaultLogLevel => s.controlSetDefaultLogLevel env databuffer
  | .setDefaultTraceStatus => s.controlSetDefaultTraceStatus env databuffer
  | .getSoftwareVersion => some ([.softwareVersion env.ecuVersionString], s)
  | .messageBufferOverflow => some ([.messageBufferOverflow env.overflowCounter], s)
  | .offlineLogstorage => s.controlServiceLogstorage env databuffer
  | .setAllLogLevel => s.controlSetAllLogLevel env databuffer
  | .setAllTraceStatus => s.controlSetAllTraceStatus env databuffer
  | .setFilterLevel => s.controlSetFilterLevel env databuffer
  | .getFilterStatus =>
      some ([.filterStatus s.daemonLocal.pFilter.current
        (env.ctrlMask s.daemonLocal.pFilter.current)], s)
  | .notSupported => some ([.service id .notSupported], s)

/-- `mct_user_log_out3`: nothing is written to an invalid handle. -/
def userLogOut3 (userHandle : Int) : MctReturnValue :=
  if userHandle ≤ 0 then .error else env.writev

/-- The end of `mct_daemon_control_callsw_cinjection`. A broken pipe is closed. -/
def forwardInjection (id k : Nat) (context : MctDaemonContext) (data : List UInt8) :
    List ControlAnswer × ControlState :=
  let ret := userLogOut3 env context.userHandle
  if ret.code < 0 then
    ([.service id .error],
      if ret = .pipeError then
        s.withLevels (s.levels.modifyContext k fun context =>
          { context with userHandle := mctFdInit })
      else s)
  else
    ([.service id .ok],
      { s with injections :=
        s.injections ++ [⟨context.userHandle, context.logLevelPos, id, data⟩] })

/-- The context that an injection is for, or the status it is refused with. The checks are those
in front of the comparison of its length. -/
def injectionTarget (id : Nat) : Except ResponseStatus (Nat × MctDaemonContext) :=
  if ¬ env.injectionMode then .error .permDenied
  else if id < mctDaemonInjectionMin then .error .notSupported
  else if ¬ header.isUeh then .error .error
  else
    match s.levels.users.contextFind (setId header.apid.chars) (setId header.ctid.chars) with
    | none => .error .error
    | some k =>
        match s.levels.users.contexts[k]? with
        | none => .error .error
        | some context =>
            if isInjectionAllowed s.daemonLocal.pFilter (idText header.apid.chars)
                (idText header.ctid.chars) (idText header.ecu.chars) (int32 id) = .true then
              .ok (k, context)
            else .error .permDenied

/-- `mct_daemon_control_callsw_cinjection`. A length that the request is too short for stays 0 and
is not skipped; memory is found for every length that is not negative. -/
def controlCallswCinjection : Served :=
  (databuffer.read 0 4).bind fun idBytes =>
    let id := header.word idBytes
    match s.injectionTarget env header id with
    | .error status => some ([.service id status], s)
    | .ok (k, context) =>
        if databuffer.used < 8 then
          (databuffer.read 4 0).map fun data => s.forwardInjection env id k context data
        else
          (databuffer.read 4 4).bind fun lengthBytes =>
            let length := int32 (header.word lengthBytes)
            if (databuffer.cells.length : Int) < length ∨ length < 0 then
              some ([.service id .error], s)
            else
              (databuffer.read 8 length.toNat).map fun data =>
                s.forwardInjection env id k context data

/-- A service that may be used over the connection. -/
def permitted (con : MctConnection) (id : Nat) : Bool :=
  (env.ctrlMask s.daemonLocal.pFilter.current).bit id ||
    con.type = .controlMsg &&
      (!env.backend && id = mctServiceIdSetFilterLevel || id = mctServiceIdGetFilterStatus)

/-- The returned value with what was answered and the next state. -/
structure Outcome where
  ret : Int
  answers : List ControlAnswer
  next : ControlState

def processControl : Option Outcome :=
  if databuffer.used < 4 then some ⟨-1, [], s⟩
  else
    match findConnection s.daemonLocal.pEvent.connections env.sock with
    | none => some ⟨-1, [], s⟩
    | some con =>
        (databuffer.read 0 4).bind fun idBytes =>
          let id := header.word idBytes
          let served :=
            if 0 < id ∧ id < mctServiceIdCallswCinjection then
              if s.permitted env con id then s.serve env databuffer id
              else some ([.service id .permDenied], s)
            else s.controlCallswCinjection env header databuffer
          served.map fun (answers, next) => ⟨0, answers, next⟩

end ControlState

end MctDaemon.Daemon
