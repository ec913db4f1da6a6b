import MctDaemon.Daemon.RuntimeConfiguration
import MctDaemon.Daemon.UserHandles
import MctDaemon.Daemon.UserSlices

/-!
Log levels and trace statuses: the control requests that change them, the
registrations and messages of applications that carry them, and the LOG_LEVEL
messages that tell applications (`mct_daemon_client.c`, `mct_daemon_common.c`,
`mct-daemon.c`). The history of registrations and delivered messages is kept
beside the tables. No log storage device is connected. A request that is too
short is ignored and does not occur here.
-/

namespace MctDaemon.Daemon

open Lib Shared

def uint8 (n : Int) : UInt8 := UInt8.ofNat (n % 256).toNat

/-- The two settings of a context. The functions for one are those for the
other with the fields exchanged. -/
inductive LevelKind where
  | logLevel
  | traceStatus
  deriving DecidableEq, Repr

/-- What the daemon was configured with. -/
structure LevelFlags where
  contextLogLevel : Int
  contextTraceStatus : Int
  enforceContextLLAndTS : Bool
  /-- `maintain_logstorage_loglevel` is not OFF. -/
  maintainLogstorageLoglevel : Bool
  /-- The runtime configuration files have names. -/
  runtimeCfgNamed : Bool
  deriving DecidableEq, Repr

structure MctUserControlMsgLogLevel where
  logLevel : UInt8
  traceStatus : UInt8
  logLevelPos : Int
  deriving DecidableEq, Repr

/-- A request for the log level, or the trace status, of contexts. -/
structure MctServiceSetLogLevel where
  apid : ID4
  ctid : ID4
  logLevel : UInt8
  deriving DecidableEq, Repr

/-- What an application comes to hold for a context: what it registers with, or
the message that reaches it. -/
inductive LevelEvent where
  | registered (key : ID4 ×ₗ ID4) (logLevel traceStatus : Int)
  | delivered (key : ID4 ×ₗ ID4) (message : MctUserControlMsgLogLevel)
  deriving DecidableEq

/-- The tables with what has happened. -/
structure LevelState where
  users : MctDaemonUsers
  events : List LevelEvent

namespace MctDaemonContext

def status (kind : LevelKind) (context : MctDaemonContext) : Int :=
  match kind with
  | .logLevel => context.logLevel
  | .traceStatus => context.traceStatus

def withStatus (kind : LevelKind) (status : Int) (context : MctDaemonContext) : MctDaemonContext :=
  match kind with
  | .logLevel => { context with logLevel := status }
  | .traceStatus => { context with traceStatus := status }

end MctDaemonContext

def LevelFlags.cap (flags : LevelFlags) : LevelKind → Int
  | .logLevel => flags.contextLogLevel
  | .traceStatus => flags.contextTraceStatus

def getStatus (requestLog : UInt8) (contextLog : Int) : Int :=
  int8 (if (requestLog.toNat : Int) ≤ contextLog then requestLog.toNat else contextLog)

/-- The comparison of `strncmp`. -/
def strncmp (a b : List Char) (n : Nat) : Ordering :=
  if (idText a).take n = b.take n then .eq
  else if (idText a).take n < b.take n then .lt
  else .gt

namespace MctDaemonUsers

def setDefault (kind : LevelKind) (status : Int) (d : MctDaemonUsers) : MctDaemonUsers :=
  match kind with
  | .logLevel => { d with defaultLogLevel := status }
  | .traceStatus => { d with defaultTraceStatus := status }

def levelMessage (flags : LevelFlags) (d : MctDaemonUsers) (context : MctDaemonContext) :
    MctUserControlMsgLogLevel where
  logLevel := uint8 <|
    if context.storageLogLevel ≠ mctLogDefault ∧ flags.maintainLogstorageLoglevel then
      max context.logLevel context.storageLogLevel
    else if context.logLevel = mctLogDefault then d.defaultLogLevel
    else context.logLevel
  traceStatus := uint8 <|
    if context.traceStatus = mctTraceStatusDefault then d.defaultTraceStatus
    else context.traceStatus
  logLevelPos := context.logLevelPos

end MctDaemonUsers

namespace LevelState

def withUsers (s : LevelState) (users : MctDaemonUsers) : LevelState := { s with users := users }

def modifyContext (s : LevelState) (k : Nat) (f : MctDaemonContext → MctDaemonContext) :
    LevelState :=
  s.withUsers (s.users.modifyContext k f)

/-- `mct_daemon_user_send_log_level` with the message that it delivers. -/
def userSendLogLevel (flags : LevelFlags) (s : LevelState) (k : Nat) (write : SendResult) :
    Bool × LevelState :=
  match s.users.contexts[k]? with
  | none => (false, s)
  | some context =>
      let (sent, users) := s.users.userSendLogLevel k write
      let message := s.users.levelMessage flags context
      (sent, ⟨users, if sent then s.events ++ [.delivered context.key message] else s.events⟩)

/-- The message is sent if the context has a valid handle. -/
def sendIfValid (flags : LevelFlags) (s : LevelState) (k : Nat) (context : MctDaemonContext)
    (otherwise : Bool) (write : SendResult) : Bool × LevelState :=
  if mctFdMinimum ≤ context.userHandle then s.userSendLogLevel flags k write else (otherwise, s)

/-- A setting of a context is stored and sent, and restored if that fails. -/
def sendStatus (kind : LevelKind) (flags : LevelFlags) (s : LevelState) (k : Nat) (status : Int)
    (write : SendResult) : LevelState :=
  match s.users.contexts[k]? with
  | none => s
  | some context =>
      let (sent, t) :=
        (s.modifyContext k (·.withStatus kind status)).sendIfValid flags k context false write
      if sent then t else t.modifyContext k (·.withStatus kind (context.status kind))

def sendLogLevel := sendStatus .logLevel

def sendTraceStatus := sendStatus .traceStatus

/-- The loop of the two functions below, over the positions that are left. With
`appFlag` it ends at the first greater application identifier. -/
def findMultipleContextLoop (kind : LevelKind) (flags : LevelFlags) (appFlag : Bool)
    (str : List Char) (len : Nat) (status : Int) (writes : Nat → SendResult) :
    LevelState → List Nat → LevelState
  | s, [] => s
  | s, count :: counts =>
      match s.users.contexts[count]? with
      | none => s
      | some context =>
          match strncmp (if appFlag then context.apid else context.ctid).chars str len with
          | .eq => findMultipleContextLoop kind flags appFlag str len status writes
              (s.sendStatus kind flags count status (writes count)) counts
          | .gt => if appFlag then s
              else findMultipleContextLoop kind flags appFlag str len status writes s counts
          | .lt => findMultipleContextLoop kind flags appFlag str len status writes s counts

def findMultipleContextAndSendStatus (kind : LevelKind) (flags : LevelFlags) (s : LevelState)
    (appFlag : Bool) (str : List Char) (len : Nat) (status : Int) (writes : Nat → SendResult) :
    LevelState :=
  findMultipleContextLoop kind flags appFlag str len status writes s
    (List.range s.users.contexts.length)

def findMultipleContextAndSendLogLevel := findMultipleContextAndSendStatus .logLevel

def findMultipleContextAndSendTraceStatus := findMultipleContextAndSendStatus .traceStatus

/-- A request for the contexts of an application, those under a context
identifier, or one context. An identifier may end in a star. -/
def controlSetStatus (kind : LevelKind) (flags : LevelFlags) (s : LevelState)
    (req : MctServiceSetLogLevel) (writes : Nat → SendResult) : LevelState :=
  let level := if flags.enforceContextLLAndTS then uint8 (getStatus req.logLevel (flags.cap kind))
    else req.logLevel
  let status := int8 level.toNat
  let apid := idText req.apid.chars
  let ctid := idText req.ctid.chars
  if apid ≠ [] ∧ apid.getLast? = some '*' ∧ ctid = [] then
    s.findMultipleContextAndSendStatus kind flags true apid (apid.length - 1) status writes
  else if ctid ≠ [] ∧ ctid.getLast? = some '*' ∧ apid = [] then
    s.findMultipleContextAndSendStatus kind flags false ctid (ctid.length - 1) status writes
  else if apid ≠ [] ∧ apid.getLast? ≠ some '*' ∧ ctid = [] then
    s.findMultipleContextAndSendStatus kind flags true apid mctIdSize status writes
  else if ctid ≠ [] ∧ ctid.getLast? ≠ some '*' ∧ apid = [] then
    s.findMultipleContextAndSendStatus kind flags false ctid mctIdSize status writes
  else
    match s.users.contextFind (setId req.apid.chars) (setId req.ctid.chars) with
    | none => s
    | some k => s.sendStatus kind flags k status (writes k)

def controlSetLogLevel := controlSetStatus .logLevel

def controlSetTraceStatus := controlSetStatus .traceStatus

/-- The contexts from the first to the last, one after the other. -/
def forEachContext (s : LevelState) (f : LevelState → Nat → MctDaemonContext → LevelState) :
    LevelState :=
  (List.range s.users.contexts.length).foldl
    (fun s count =>
      match s.users.contexts[count]? with
      | none => s
      | some context => f s count context) s

def userSendDefaultUpdate (flags : LevelFlags) (s : LevelState) (writes : Nat → SendResult) :
    LevelState :=
  s.forEachContext fun s count context =>
    if context.logLevel = mctLogDefault ∨ context.traceStatus = mctTraceStatusDefault then
      (s.sendIfValid flags count context true (writes count)).2
    else s

/-- The setting is stored in every context with a valid handle, and sent. -/
def userSendAllStatusUpdate (kind : LevelKind) (flags : LevelFlags) (s : LevelState) (status : Int)
    (writes : Nat → SendResult) : LevelState :=
  s.forEachContext fun s count context =>
    if mctFdMinimum ≤ context.userHandle then
      ((s.modifyContext count (·.withStatus kind status)).userSendLogLevel flags count
        (writes count)).2
    else s

def userSendAllLogLevelUpdate := userSendAllStatusUpdate .logLevel

def userSendAllTraceStatusUpdate := userSendAllStatusUpdate .traceStatus

/-- The value of a request that is accepted. -/
def requested (kind : LevelKind) (flags : LevelFlags) (level : UInt8) : Int :=
  if flags.enforceContextLLAndTS then getStatus level (flags.cap kind) else int8 level.toNat

def controlSetDefaultStatus (kind : LevelKind) (accepted : UInt8 → Bool) (flags : LevelFlags)
    (s : LevelState) (level : UInt8) (writes : Nat → SendResult) : LevelState :=
  if accepted level then
    (s.withUsers (s.users.setDefault kind (requested kind flags level))).userSendDefaultUpdate flags
      writes
  else s

def controlSetDefaultLogLevel := controlSetDefaultStatus .logLevel fun level => level ≤ 6

def controlSetDefaultTraceStatus :=
  controlSetDefaultStatus .traceStatus fun level => level = 0 ∨ level = 1

def controlSetAllStatus (kind : LevelKind) (accepted : UInt8 → Bool) (flags : LevelFlags)
    (s : LevelState) (level : UInt8) (writes : Nat → SendResult) : LevelState :=
  if accepted level then s.userSendAllStatusUpdate kind flags (requested kind flags level) writes
  else s

def controlSetAllLogLevel :=
  controlSetAllStatus .logLevel fun level => level ≤ 6 ∨ level = uint8 mctLogDefault

def controlSetAllTraceStatus :=
  controlSetAllStatus .traceStatus fun level => level ≤ 1 ∨ level = uint8 mctTraceStatusDefault

def controlResetToFactoryDefault (flags : LevelFlags) (s : LevelState)
    (writes : Nat → SendResult) : LevelState :=
  if flags.runtimeCfgNamed then
    (s.withUsers { s.users with
      defaultLogLevel := int8 flags.contextLogLevel
      defaultTraceStatus := int8 flags.contextTraceStatus
      forceLlTs := flags.enforceContextLLAndTS }).userSendDefaultUpdate flags writes
  else s

/-- The request to store the runtime configuration, which is reset if only the
applications can be saved. -/
def controlStoreConfig (flags : LevelFlags) (s : LevelState)
    (applicationsSaved contextsSaved : Bool) (writes : Nat → SendResult) : LevelState :=
  if applicationsSaved && !contextsSaved then s.controlResetToFactoryDefault flags writes else s

/-- The part of `mct_daemon_process_user_message_register_context` after the
checks. -/
def addContextOf (flags : LevelFlags) (s : LevelState) (application : MctDaemonApplication)
    (apid ctid : ID4) (logLevel traceStatus logLevelPos : Int) (description : List Char)
    (write : SendResult) : LevelState :=
  let (found, users) := s.users.contextAdd apid ctid logLevel traceStatus logLevelPos
    application.userHandle (some description)
  match found with
  | none => s.withUsers users
  | some k =>
      let key := toLex (setId apid.chars, setId ctid.chars)
      let s : LevelState := ⟨users, s.events ++ [.registered key logLevel traceStatus]⟩
      let s := s.modifyContext k fun context => { context with storageLogLevel := mctLogDefault }
      if mctFdMinimum ≤ application.userHandle ∧
          (logLevel = mctLogDefault ∨ traceStatus = mctTraceStatusDefault) then
        (s.userSendLogLevel flags k write).2
      else s

def registerContext (flags : LevelFlags) (s : LevelState) (apid ctid : ID4)
    (logLevel traceStatus logLevelPos : Int) (description : List Char) (write : SendResult) :
    LevelState :=
  match s.users.applicationFind apid with
  | none => s
  | some i =>
      match s.users.applications[i]? with
      | none => s
      | some application =>
          let logLevel := if logLevel = mctUserLogLevelNotSet then mctLogDefault else logLevel
          let traceStatus :=
            if traceStatus = mctUserTraceStatusNotSet then mctTraceStatusDefault else traceStatus
          if logLevel < mctLogDefault ∨ mctLogVerbose < logLevel then s
          else if traceStatus < mctTraceStatusDefault ∨ mctTraceStatusOn < traceStatus then s
          else s.addContextOf flags application apid ctid logLevel traceStatus logLevelPos
            description write

/-- The levels that an application sets for the context at this position. -/
def setContextLlTs (flags : LevelFlags) (s : LevelState) (k : Nat) (logLevel traceStatus : UInt8)
    (write : SendResult) : LevelState :=
  match s.users.contexts[k]? with
  | none => s
  | some context =>
      let levels := MctDaemonUsers.withLevels (int8 logLevel.toNat) (int8 traceStatus.toNat)
      let (sent, t) := (s.modifyContext k levels).sendIfValid flags k context true write
      if sent then t
      else t.modifyContext k (MctDaemonUsers.withLevels context.logLevel context.traceStatus)

def setAppLlTs (flags : LevelFlags) (s : LevelState) (apid : ID4) (logLevel traceStatus : UInt8)
    (writes : Nat → SendResult) : LevelState :=
  match s.users.applicationFind apid with
  | none => s
  | some i =>
      match s.users.applications[i]? with
      | none => s
      | some application =>
          (List.range application.numContexts.toNat).foldl
            (fun t (k : Nat) =>
              match (s.users.offsetBase i + k).toNat? with
              | none => t
              | some pos => t.setContextLlTs flags pos logLevel traceStatus (writes k)) s

end LevelState

section Runs

/-- What levels depend on. The first two set up the runtime configuration. -/
inductive LevelOp where
  | loadApplication (apid : List Char) (description : List Char)
  | loadContext (apid ctid : List Char) (logLevel traceStatus : Int) (description : List Char)
  /-- Both files of the runtime configuration have been read. -/
  | runtimeContextCfgLoaded
  | registerApplication (apid : ID4) (pid : Int) (description : List Char) (fd opened : Int)
      (logState : SendResult) (writes : Nat → SendResult)
  | unregisterApplication (apid : ID4)
  | registerContext (apid ctid : ID4) (logLevel traceStatus logLevelPos : Int)
      (description : List Char) (write : SendResult)
  | unregisterContext (apid ctid : ID4)
  | setAppLlTs (apid : ID4) (logLevel traceStatus : UInt8) (writes : Nat → SendResult)
  | setLogLevel (req : MctServiceSetLogLevel) (writes : Nat → SendResult)
  | setTraceStatus (req : MctServiceSetLogLevel) (writes : Nat → SendResult)
  | setDefaultLogLevel (logLevel : UInt8) (writes : Nat → SendResult)
  | setDefaultTraceStatus (logLevel : UInt8) (writes : Nat → SendResult)
  | setAllLogLevel (logLevel : UInt8) (writes : Nat → SendResult)
  | setAllTraceStatus (logLevel : UInt8) (writes : Nat → SendResult)
  | resetToFactoryDefault (writes : Nat → SendResult)
  | storeConfig (applicationsSaved contextsSaved : Bool) (writes : Nat → SendResult)

open LevelState

def levelStep (ipc : MctIpc) (flags : LevelFlags) (s : LevelState) : LevelOp → Unit × LevelState
  | .loadApplication apid description =>
      ((), s.withUsers
        (s.users.applicationAdd ipc (setId apid) 0 (some description) (-1) mctFdInit).2)
  | .loadContext apid ctid logLevel traceStatus description =>
      ((), s.withUsers (s.users.contextAdd (setId apid) (setId ctid) (int8 logLevel)
        (int8 traceStatus) 0 0 (some description)).2)
  | .runtimeContextCfgLoaded =>
      ((), s.withUsers { s.users with runtimeContextCfgLoaded := true })
  | .registerApplication apid pid description fd opened logState writes =>
      ((), s.withUsers
        (s.users.registerApplication ipc apid pid description fd opened logState writes).2)
  | .unregisterApplication apid => ((), s.withUsers (s.users.unregisterApplication apid))
  | .registerContext apid ctid logLevel traceStatus logLevelPos description write =>
      ((), s.registerContext flags apid ctid logLevel traceStatus logLevelPos description write)
  | .unregisterContext apid ctid => ((), s.withUsers (s.users.unregisterContext apid ctid))
  | .setAppLlTs apid logLevel traceStatus writes =>
      ((), s.setAppLlTs flags apid logLevel traceStatus writes)
  | .setLogLevel req writes => ((), controlSetLogLevel flags s req writes)
  | .setTraceStatus req writes => ((), controlSetTraceStatus flags s req writes)
  | .setDefaultLogLevel logLevel writes => ((), controlSetDefaultLogLevel flags s logLevel writes)
  | .setDefaultTraceStatus logLevel writes =>
      ((), controlSetDefaultTraceStatus flags s logLevel writes)
  | .setAllLogLevel logLevel writes => ((), controlSetAllLogLevel flags s logLevel writes)
  | .setAllTraceStatus logLevel writes => ((), controlSetAllTraceStatus flags s logLevel writes)
  | .resetToFactoryDefault writes => ((), s.controlResetToFactoryDefault flags writes)
  | .storeConfig applicationsSaved contextsSaved writes =>
      ((), s.controlStoreConfig flags applicationsSaved contextsSaved writes)

end Runs

end MctDaemon.Daemon
