import MctDaemon.Lib.SortedTable
import MctDaemon.Shared.Identifier

/-!
The tables of registered applications and contexts of one ECU
(`mct_daemon_common.c`): lookup, registration, deletion, and the withdrawal of
connection handles. An entry is given by its position where the source has a
pointer to it. Memory is taken to be available.
-/

namespace MctDaemon.Daemon

open Lib Shared

def mctFdInit : Int := -1
def mctFdMinimum : Int := 3
def mctLogDefault : Int := -1
def mctLogVerbose : Int := 6
def mctTraceStatusDefault : Int := -1
def mctTraceStatusOn : Int := 1
def mctModeNonBlocking : Int := 0
def mctModeBlocking : Int := 1

structure MctDaemonApplication where
  apid : ID4
  pid : Int
  userHandle : Int
  ownsUserHandle : Bool
  applicationDescription : Option (List Char)
  numContexts : Int
  blockmodeStatus : Int
  deriving DecidableEq, Repr

structure MctDaemonContext where
  apid : ID4
  ctid : ID4
  logLevel : Int
  traceStatus : Int
  logLevelPos : Int
  userHandle : Int
  contextDescription : Option (List Char)
  storageLogLevel : Int
  predefined : Bool
  deriving DecidableEq, Repr

def MctDaemonContext.key (context : MctDaemonContext) : ID4 ×ₗ ID4 :=
  toLex (context.apid, context.ctid)

/-- The registered users of one ECU, with the settings of the daemon that
registration reads. -/
structure MctDaemonUsers where
  /-- The ECU is the daemon's own. -/
  ownEcu : Bool
  applications : List MctDaemonApplication
  contexts : List MctDaemonContext
  defaultLogLevel : Int
  defaultTraceStatus : Int
  forceLlTs : Bool
  runtimeContextCfgLoaded : Bool
  blockMode : Int
  deriving DecidableEq, Repr

/-- How applications are reached, as the daemon was built. -/
inductive MctIpc where
  | unixSocket
  | fifo
  deriving DecidableEq, Repr

/-- The handle and its ownership from which an application is reached: the
connection it registers on, or what `open` answers for its pipe. -/
def openUserHandle (ipc : MctIpc) (fd opened : Int) : Int × Bool :=
  match ipc with
  | .unixSocket => if mctFdMinimum ≤ fd then (fd, false) else (mctFdInit, false)
  | .fifo => (opened, 0 ≤ opened)

/-- The identifier is neither below the first nor above the last one. -/
def withinRange (apids : List ID4) (apid : ID4) : Bool :=
  match apids.head?, apids.getLast? with
  | some first, some last => ¬ apid < first ∧ ¬ last < apid
  | _, _ => false

namespace MctDaemonApplication

/-- An entry as it is when the application is new. -/
def fresh (apid : ID4) : MctDaemonApplication where
  apid := apid
  pid := 0
  userHandle := mctFdInit
  ownsUserHandle := false
  applicationDescription := none
  numContexts := 0
  blockmodeStatus := mctModeNonBlocking

/-- The handle is taken away if it is this descriptor. -/
def invalidate (fd : Int) (application : MctDaemonApplication) : MctDaemonApplication :=
  if application.userHandle = fd then { application with userHandle := mctFdInit } else application

end MctDaemonApplication

namespace MctDaemonContext

/-- An entry as it is when the context is new. -/
def fresh (apid ctid : ID4) : MctDaemonContext where
  apid := apid
  ctid := ctid
  logLevel := 0
  traceStatus := 0
  logLevelPos := 0
  userHandle := 0
  contextDescription := none
  storageLogLevel := 0
  predefined := false

/-- The handle is taken away if it is this descriptor. -/
def invalidate (fd : Int) (context : MctDaemonContext) : MctDaemonContext :=
  if context.userHandle = fd then { context with userHandle := mctFdInit } else context

end MctDaemonContext

namespace MctDaemonUsers

def applicationFind (d : MctDaemonUsers) (apid : ID4) : Option Nat :=
  if apid.isEmpty then none
  else if withinRange (d.applications.map MctDaemonApplication.apid) apid then
    bsearch MctDaemonApplication.apid (setId apid.chars) d.applications
  else none

def contextFind (d : MctDaemonUsers) (apid ctid : ID4) : Option Nat :=
  if apid.isEmpty || ctid.isEmpty then none
  else if withinRange (d.contexts.map MctDaemonContext.apid) apid then
    bsearch MctDaemonContext.key (toLex (setId apid.chars, setId ctid.chars)) d.contexts
  else none

def modifyApplication (d : MctDaemonUsers) (i : Nat)
    (f : MctDaemonApplication → MctDaemonApplication) : MctDaemonUsers :=
  { d with applications := d.applications.modify i f }

def applicationsInvalidateFd (d : MctDaemonUsers) (fd : Int) : MctDaemonUsers :=
  { d with applications := d.applications.map (MctDaemonApplication.invalidate fd) }

def contextsInvalidateFd (d : MctDaemonUsers) (fd : Int) : MctDaemonUsers :=
  { d with contexts := d.contexts.map (MctDaemonContext.invalidate fd) }

/-- `mct_daemon_application_reset_user_handle`: the contexts that are looked
through are those of the daemon's own ECU. -/
def applicationResetUserHandle (d : MctDaemonUsers) (i : Nat) : MctDaemonUsers :=
  match d.applications[i]? with
  | none => d
  | some application =>
      if application.userHandle = mctFdInit then d
      else
        let d := if d.ownEcu then d.contextsInvalidateFd application.userHandle else d
        d.modifyApplication i fun application =>
          { application with userHandle := mctFdInit, ownsUserHandle := false }

/-- The step of `mct_daemon_application_add` for an application that another
process registered. -/
def changePid (d : MctDaemonUsers) (i : Nat) (pid : Int) : MctDaemonUsers :=
  match d.applications[i]? with
  | none => d
  | some application =>
      if application.pid ≠ pid then
        (d.applicationResetUserHandle i).modifyApplication i fun application =>
          { application with pid := 0 }
      else d

/-- The step of `mct_daemon_application_add` that opens the user handle. -/
def openHandle (ipc : MctIpc) (d : MctDaemonUsers) (i : Nat) (pid fd opened : Int) :
    MctDaemonUsers :=
  match d.applications[i]? with
  | none => d
  | some application =>
      if application.userHandle = mctFdInit ∧ pid ≠ 0 then
        let (userHandle, ownsUserHandle) := openUserHandle ipc fd opened
        let d := (d.applicationsInvalidateFd userHandle).contextsInvalidateFd userHandle
        d.modifyApplication i fun application =>
          { application with
            userHandle := userHandle
            ownsUserHandle := ownsUserHandle
            pid := pid }
      else d

/-- The part of `mct_daemon_application_add` after the entry is found or made. -/
def storeApplication (ipc : MctIpc) (d : MctDaemonUsers) (i : Nat) (pid : Int)
    (description : Option (List Char)) (fd opened : Int) : MctDaemonUsers :=
  let d := d.modifyApplication i fun application =>
    { application with applicationDescription := description }
  (d.changePid i pid).openHandle ipc i pid fd opened

def appendApplication (d : MctDaemonUsers) (apid : ID4) : MctDaemonUsers :=
  { d with applications := d.applications ++ [MctDaemonApplication.fresh apid] }

/-- `qsort` of the applications. -/
def sortApplications (d : MctDaemonUsers) : MctDaemonUsers :=
  { d with applications := sortByKey MctDaemonApplication.apid d.applications }

def applicationAdd (ipc : MctIpc) (d : MctDaemonUsers) (apid : ID4) (pid : Int)
    (description : Option (List Char)) (fd opened : Int) : Option Nat × MctDaemonUsers :=
  if apid.isEmpty then (none, d)
  else
    match d.applicationFind apid with
    | some i => (some i, d.storeApplication ipc i pid description fd opened)
    | none =>
        let d := (d.appendApplication (setId apid.chars)).storeApplication ipc
          d.applications.length pid description fd opened
        (d.sortApplications.applicationFind apid, d.sortApplications)

def applicationDel (d : MctDaemonUsers) (pos : Nat) : MctDaemonUsers :=
  let d := d.applicationResetUserHandle pos
  { d with applications := d.applications.eraseIdx pos }

/-- What `mct_daemon_context_add` stores in the entry of a context. -/
def storeContext (d : MctDaemonUsers) (isNew : Bool) (logLevel traceStatus logLevelPos : Int)
    (userHandle : Int) (description : Option (List Char)) (context : MctDaemonContext) :
    MctDaemonContext :=
  let forced := d.ownEcu && d.forceLlTs
  let logLevel := if forced then min logLevel d.defaultLogLevel else logLevel
  let traceStatus := if forced then min traceStatus d.defaultTraceStatus else traceStatus
  let adopts := isNew || !d.runtimeContextCfgLoaded
  { context with
    contextDescription := description
    logLevel := if adopts then logLevel else context.logLevel
    traceStatus := if adopts then traceStatus else context.traceStatus
    logLevelPos := logLevelPos
    userHandle := userHandle
    predefined := userHandle = 0 }

def insertContext (d : MctDaemonUsers) (context : MctDaemonContext) : MctDaemonUsers :=
  { d with contexts := sortByKey MctDaemonContext.key (d.contexts ++ [context]) }

def contextAdd (d : MctDaemonUsers) (apid ctid : ID4) (logLevel traceStatus logLevelPos : Int)
    (userHandle : Int) (description : Option (List Char)) : Option Nat × MctDaemonUsers :=
  if apid.isEmpty || ctid.isEmpty then (none, d)
  else if logLevel < mctLogDefault ∨ mctLogVerbose < logLevel then (none, d)
  else if traceStatus < mctTraceStatusDefault ∨ mctTraceStatusOn < traceStatus then (none, d)
  else
    match d.applicationFind apid with
    | none => (none, d)
    | some i =>
        match d.contextFind apid ctid with
        | some k =>
            (some k, { d with
              contexts := d.contexts.modify k
                (d.storeContext false logLevel traceStatus logLevelPos userHandle description) })
        | none =>
            let context :=
              d.storeContext true logLevel traceStatus logLevelPos userHandle description
                (MctDaemonContext.fresh (setId apid.chars) (setId ctid.chars))
            let d := (d.modifyApplication i fun application =>
              { application with numContexts := application.numContexts + 1 }).insertContext context
            (d.contextFind apid ctid, d)

def contextDel (d : MctDaemonUsers) (pos : Nat) : MctDaemonUsers :=
  match d.contexts[pos]? with
  | none => d
  | some context =>
      let removed := { d with contexts := d.contexts.eraseIdx pos }
      match d.applicationFind context.apid with
      | none => removed
      | some i =>
          removed.modifyApplication i fun application =>
            { application with numContexts := application.numContexts - 1 }

def contextsClear (d : MctDaemonUsers) : MctDaemonUsers :=
  { d with
    contexts := []
    applications := d.applications.map fun application => { application with numContexts := 0 } }

end MctDaemonUsers

end MctDaemon.Daemon
