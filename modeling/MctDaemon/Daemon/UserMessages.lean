import MctDaemon.Daemon.Users

/-!
The user messages that register and unregister applications and contexts, and
the updates that the daemon sends to applications (`mct-daemon.c`,
`mct_daemon_common.c`). What a write to an application answers is given with
each message. A position outside a table, where the source would leave its
array, changes nothing here.
-/

namespace MctDaemon.Daemon

open Lib Shared

def mctUserLogLevelNotSet : Int := -2
def mctUserTraceStatusNotSet : Int := -2

def mctAllApplications : ID4 := ⟨['X', 'X', 'X', 'X'], rfl⟩

/-- Whether a write succeeds, and whether `errno` is EPIPE after it. -/
structure SendResult where
  ok : Bool
  epipe : Bool
  deriving DecidableEq, Repr

/-- `mct_user_log_out2`: nothing is written to an invalid handle. -/
def userLogOut2 (userHandle : Int) (write : SendResult) : SendResult :=
  if userHandle ≤ 0 then { write with ok := false } else write

namespace MctDaemonUsers

def modifyContext (d : MctDaemonUsers) (k : Nat) (f : MctDaemonContext → MctDaemonContext) :
    MctDaemonUsers :=
  { d with contexts := d.contexts.modify k f }

/-- `mct_daemon_user_send_log_level`, as far as it changes the tables. -/
def userSendLogLevel (d : MctDaemonUsers) (k : Nat) (write : SendResult) :
    Bool × MctDaemonUsers :=
  match d.contexts[k]? with
  | none => (false, d)
  | some context =>
      let sent := userLogOut2 context.userHandle write
      if sent.ok then (true, d)
      else if sent.epipe then
        match d.applicationFind context.apid with
        | none => (false, d)
        | some i => (false, d.applicationResetUserHandle i)
      else (false, d)

def userSendLogState (d : MctDaemonUsers) (i : Nat) (write : SendResult) : MctDaemonUsers :=
  match d.applications[i]? with
  | none => d
  | some application =>
      let sent := userLogOut2 application.userHandle write
      if !sent.ok && sent.epipe then d.applicationResetUserHandle i else d

/-- `mct_daemon_user_send_update_blockmode`: an application that is gone is
deleted. -/
def userSendUpdateBlockmode (d : MctDaemonUsers) (i : Nat) (write : SendResult) :
    Bool × MctDaemonUsers :=
  match d.applications[i]? with
  | none => (false, d)
  | some application =>
      let sent := userLogOut2 application.userHandle write
      if sent.ok then (true, d)
      else if sent.epipe then (false, d.applicationDel i)
      else (false, d)

def updateBlockmodeAt (d : MctDaemonUsers) (i : Nat) (blockMode : Int) (write : SendResult) :
    MctDaemonUsers :=
  match d.applications[i]? with
  | none => d
  | some application =>
      if application.blockmodeStatus ≠ blockMode then
        let (sent, d) := d.userSendUpdateBlockmode i write
        if sent then
          d.modifyApplication i fun application =>
            { application with blockmodeStatus := blockMode }
        else d
      else d

/-- `mct_daemon_user_update_blockmode`. The loop over all applications goes by
position: when an entry is deleted, the one behind it is passed over. -/
def userUpdateBlockmode (d : MctDaemonUsers) (name : ID4) (blockMode : Int)
    (writes : Nat → SendResult) : MctReturnValue × MctDaemonUsers :=
  if blockMode < mctModeNonBlocking ∨ mctModeBlocking < blockMode then (.wrongParameter, d)
  else if name = mctAllApplications then
    let updated := (List.range d.applications.length).foldl
      (fun d count => d.updateBlockmodeAt count blockMode (writes count)) d
    (.ok, { updated with blockMode := blockMode })
  else
    match d.applicationFind name with
    | none => (.error, d)
    | some i => (.ok, d.updateBlockmodeAt i blockMode (writes 0))

def registerApplication (ipc : MctIpc) (d : MctDaemonUsers) (apid : ID4) (pid : Int)
    (description : List Char) (fd opened : Int) (logState : SendResult)
    (writes : Nat → SendResult) : Int × MctDaemonUsers :=
  let (application, d) := d.applicationAdd ipc apid pid (some description) fd opened
  match application with
  | none => (-1, d)
  | some i =>
      let d := d.userSendLogState i logState
      (0, (d.userUpdateBlockmode apid d.blockMode writes).2)

/-- The context gets the handle of its application, and the application its
log level if a default is to be replaced. -/
def addContextOf (d : MctDaemonUsers) (application : MctDaemonApplication) (apid ctid : ID4)
    (logLevel traceStatus logLevelPos : Int) (description : List Char) (storageLogLevel : Int)
    (write : SendResult) : Int × MctDaemonUsers :=
  let (context, d) := d.contextAdd apid ctid logLevel traceStatus logLevelPos
    application.userHandle (some description)
  match context with
  | none => (-1, d)
  | some k =>
      let d := d.modifyContext k fun context => { context with storageLogLevel := storageLogLevel }
      if mctFdMinimum ≤ application.userHandle ∧
          (logLevel = mctLogDefault ∨ traceStatus = mctTraceStatusDefault) then
        let (sent, d) := d.userSendLogLevel k write
        (if sent then 0 else -1, d)
      else (0, d)

def registerContext (d : MctDaemonUsers) (apid ctid : ID4)
    (logLevel traceStatus logLevelPos : Int) (description : List Char) (storageLogLevel : Int)
    (write : SendResult) : Int × MctDaemonUsers :=
  match d.applicationFind apid with
  | none => (0, d)
  | some i =>
      match d.applications[i]? with
      | none => (0, d)
      | some application =>
          let logLevel := if logLevel = mctUserLogLevelNotSet then mctLogDefault else logLevel
          let traceStatus :=
            if traceStatus = mctUserTraceStatusNotSet then mctTraceStatusDefault else traceStatus
          if logLevel < mctLogDefault ∨ mctLogVerbose < logLevel then (-1, d)
          else if traceStatus < mctTraceStatusDefault ∨ mctTraceStatusOn < traceStatus then (-1, d)
          else
            d.addContextOf application apid ctid logLevel traceStatus logLevelPos description
              storageLogLevel write

/-- Where the contexts of the application at this position begin. -/
def offsetBase (d : MctDaemonUsers) (i : Nat) : Int :=
  ((d.applications.take i).map MctDaemonApplication.numContexts).sum

/-- Something done at a position, if it is not in front of the table. -/
def atPosition (d : MctDaemonUsers) (pos : Int) (f : MctDaemonUsers → Nat → MctDaemonUsers) :
    MctDaemonUsers :=
  match pos.toNat? with
  | none => d
  | some k => f d k

/-- The loop that deletes `count` contexts from the last one down. -/
def contextsDelDown (d : MctDaemonUsers) (offset : Int) : Nat → MctDaemonUsers
  | 0 => d
  | count + 1 => contextsDelDown (d.atPosition (offset + count) contextDel) offset count

def unregisterApplication (d : MctDaemonUsers) (apid : ID4) : MctDaemonUsers :=
  match d.applicationFind apid with
  | none => d
  | some i =>
      match d.applications[i]? with
      | none => d
      | some application =>
          (d.contextsDelDown (d.offsetBase i) application.numContexts.toNat).applicationDel i

def unregisterContext (d : MctDaemonUsers) (apid ctid : ID4) : MctDaemonUsers :=
  match d.contextFind apid ctid with
  | none => d
  | some k =>
      match d.contexts[k]? with
      | none => d
      | some context => if context.predefined then d else d.contextDel k

/-- The levels of the context at this position, unless they cannot be sent. -/
def setContextLlTs (d : MctDaemonUsers) (k : Nat) (logLevel traceStatus : Int)
    (write : SendResult) : MctDaemonUsers :=
  match d.contexts[k]? with
  | none => d
  | some context =>
      let d := d.modifyContext k fun context =>
        { context with logLevel := logLevel, traceStatus := traceStatus }
      if mctFdMinimum ≤ context.userHandle then
        let (sent, d) := d.userSendLogLevel k write
        if sent then d
        else d.modifyContext k fun other =>
          { other with logLevel := context.logLevel, traceStatus := context.traceStatus }
      else d

def setAppLlTs (d : MctDaemonUsers) (apid : ID4) (logLevel traceStatus : Int)
    (writes : Nat → SendResult) : MctDaemonUsers :=
  match d.applicationFind apid with
  | none => d
  | some i =>
      match d.applications[i]? with
      | none => d
      | some application =>
          (List.range application.numContexts.toNat).foldl
            (fun e (k : Nat) => e.atPosition (d.offsetBase i + k) fun e pos =>
              e.setContextLlTs pos logLevel traceStatus (writes k)) d

end MctDaemonUsers

end MctDaemon.Daemon
