import MctDaemon.Daemon.FilterLevels
import MctDaemon.Lib.Machine

/-!
The connections of the daemon, the descriptors it polls, and the change of the
filter level that opens and closes the sockets for clients
(`mct_daemon_event_handler.c`, `mct_daemon_connection.c`,
`mct_daemon_filter_change_filter_level`). Opening a socket is the system's part
and is a parameter. Memory is taken to be available.
-/

namespace MctDaemon.Daemon

open Lib Shared

inductive MctConnectionStatus where
  | undefined
  | inactive
  | active
  | deactivate
  | activate
  deriving DecidableEq, Repr

inductive MctConnectionType where
  | none
  | clientConnect
  | clientMsgTcp
  | clientMsgSerial
  | appConnect
  | appMsg
  | oneSTimer
  | sixtySTimer
  | systemdTimer
  | controlConnect
  | controlMsg
  | clientMsgOfflineTrace
  | clientMsgOfflineLogstorage
  | filter
  | gateway
  | gatewayTimer
  deriving DecidableEq, Repr

namespace MctConnectionType

def code : MctConnectionType → Nat
  | none => 0
  | clientConnect => 1
  | clientMsgTcp => 2
  | clientMsgSerial => 3
  | appConnect => 4
  | appMsg => 5
  | oneSTimer => 6
  | sixtySTimer => 7
  | systemdTimer => 8
  | controlConnect => 9
  | controlMsg => 10
  | clientMsgOfflineTrace => 11
  | clientMsgOfflineLogstorage => 12
  | filter => 13
  | gateway => 14
  | gatewayTimer => 15

/-- `MCT_CON_MASK_...` of the type. -/
def mask (type : MctConnectionType) : Nat := 2 ^ type.code

end MctConnectionType

/-- `mct_daemon_filter_is_connection_allowed`, for any number passed as a type. -/
def isConnectionAllowed (current : MctFilterConfiguration) (type : Nat) : Nat :=
  current.clientMask &&& 2 ^ type

/-- A connection, with the descriptor of its receiver. -/
structure MctConnection where
  fd : Int
  type : MctConnectionType
  status : MctConnectionStatus
  evMask : Nat
  deriving DecidableEq, Repr

structure PollFd where
  fd : Int
  events : Nat
  deriving DecidableEq, Repr

/-- The `nfds` descriptors in use and the connections. -/
structure MctEventHandler where
  pfd : List PollFd
  connections : List MctConnection
  deriving DecidableEq, Repr

section Events

/-- The loop of `mct_event_handler_disable_fd`: `cells` are the entries from
`i` on and `source` those from `j` on. -/
def compressPfd (fd : Int) : List PollFd → List PollFd → List PollFd
  | [], _ => []
  | cell :: cells, source =>
      match if cell.fd = fd then source.tail else source with
      | [] => []
      | next :: rest => next :: compressPfd fd cells rest

def disableFd (pfd : List PollFd) (fd : Int) : List PollFd :=
  (compressPfd fd pfd pfd).take (pfd.length - pfd.countP fun cell => cell.fd = fd)

def enableFd (pfd : List PollFd) (fd : Int) (mask : Nat) : List PollFd := pfd ++ [⟨fd, mask⟩]

def findConnection (connections : List MctConnection) (fd : Int) : Option MctConnection :=
  connections.find? fun con => con.fd = fd

/-- The position `mct_connection_get_next` stops at, from the head of the list. -/
def connectionGetNext (connections : List MctConnection) (typeMask : Nat) : Option Nat :=
  if typeMask = 0 then none
  else connections.findIdx? fun con => con.type.mask &&& typeMask ≠ 0

/-- `mct_connection_check_activate` for a connection of the list. -/
def connectionCheckActivate (pfd : List PollFd) (con : MctConnection)
    (current : MctFilterConfiguration) (activation : MctConnectionStatus) :
    Int × List PollFd × MctConnection :=
  match con.status with
  | .active =>
      if isConnectionAllowed current con.type.code = 0 ∨ activation = .deactivate then
        (0, disableFd pfd con.fd,
          { con with
            fd := if con.type = .clientConnect then -1 else con.fd
            status := .inactive })
      else (0, pfd, con)
  | .inactive =>
      if 0 < isConnectionAllowed current con.type.code ∧ activation = .activate then
        (0, enableFd pfd con.fd con.evMask, { con with status := .active })
      else (0, pfd, con)
  | _ => (-1, pfd, con)

end Events

/-- The part of the daemon that a change of the filter level touches. The
descriptors in use by the process are those of its open sockets. -/
structure MctDaemonLocal where
  pFilter : MctMessageFilter
  pEvent : MctEventHandler
  ipNodes : List (List Char)
  openFds : List Int
  exitTriggered : Bool
  deriving DecidableEq, Repr

/-- The answer of `mct_daemon_socket_open` for an address, given the descriptors
in use. -/
def SocketOpen : Type := List Char → List Int → Option Int

namespace MctDaemonLocal

def pollIn : Nat := 1

/-- The address used when no BindAddress is configured. -/
def anyAddress : List Char := ['0', '.', '0', '.', '0', '.', '0']

/-- `mct_daemon_socket_open`, with the process's descriptors after it. -/
def socketOpen (sockets : SocketOpen) (d : MctDaemonLocal) (ip : List Char) :
    Option (Int × MctDaemonLocal) :=
  (sockets ip d.openFds).map fun fd => (fd, { d with openFds := fd :: d.openFds })

def socketClose (d : MctDaemonLocal) (fd : Int) : MctDaemonLocal :=
  { d with openFds := d.openFds.erase fd }

def exitTrigger (d : MctDaemonLocal) : MctDaemonLocal := { d with exitTriggered := true }

/-- `mct_event_handler_register_connection` for a connection that is no client message
connection: it is added at the tail, inactive, and activated if it is allowed. -/
def registerConnection (d : MctDaemonLocal) (con : MctConnection) (mask : Nat) :
    Int × MctDaemonLocal :=
  let con := { con with status := .inactive, evMask := mask }
  let (ret, pfd, con) := connectionCheckActivate d.pEvent.pfd con d.pFilter.current .activate
  (ret, { d with pEvent := { pfd := pfd, connections := d.pEvent.connections ++ [con] } })

def connectionCreate (d : MctDaemonLocal) (fd : Int) (mask : Nat) (type : MctConnectionType) :
    Int × MctDaemonLocal :=
  if fd < 0 then (0, d)
  else if (findConnection d.pEvent.connections fd).isSome then (0, d)
  else d.registerConnection ⟨fd, type, .active, 0⟩ mask

def openAndCreate (sockets : SocketOpen) (d : MctDaemonLocal) (ip : List Char) :
    Int × MctDaemonLocal :=
  match d.socketOpen sockets ip with
  | none => (-1, d)
  | some (fd, d) => d.connectionCreate fd pollIn .clientConnect

/-- The loop over the addresses in `mct_daemon_local_connection_init`. -/
def openAndCreateAll (sockets : SocketOpen) : MctDaemonLocal → List (List Char) →
    Int × MctDaemonLocal
  | d, [] => (0, d)
  | d, ip :: ips =>
      let (ret, d) := d.openAndCreate sockets ip
      if ret ≠ 0 then (-1, d) else openAndCreateAll sockets d ips

/-- The part of `mct_daemon_local_connection_init` that creates the connections
for clients. -/
def clientConnectionInit (sockets : SocketOpen) (d : MctDaemonLocal) : Int × MctDaemonLocal :=
  if 0 < isConnectionAllowed d.pFilter.current MctConnectionType.clientConnect.code then
    match d.ipNodes with
    | [] => d.openAndCreateAll sockets [anyAddress]
    | ips => d.openAndCreateAll sockets ips
  else (0, d)

/-- `mf->current = conf`. -/
def setCurrent (d : MctDaemonLocal) (conf : MctFilterConfiguration) : MctDaemonLocal :=
  { d with pFilter := { d.pFilter with current := conf } }

def setFd (d : MctDaemonLocal) (i : Nat) (fd : Int) : MctDaemonLocal :=
  { d with pEvent := { d.pEvent with
      connections := d.pEvent.connections.modify i fun con => { con with fd := fd } } }

/-- Open a socket for each address in turn and give it to the connection; the
last one stays. -/
def reopenAll (sockets : SocketOpen) (i : Nat) : MctDaemonLocal → List (List Char) →
    Int × MctDaemonLocal
  | d, [] => (0, d)
  | d, ip :: ips =>
      match d.socketOpen sockets ip with
      | none => (-1, d.exitTrigger)
      | some (fd, d) => reopenAll sockets i (d.setFd i fd) ips

/-- `mct_connection_check_activate` for the connection at this position. -/
def checkActivateAt (d : MctDaemonLocal) (i : Nat) (activation : MctConnectionStatus) :
    Int × MctDaemonLocal :=
  match d.pEvent.connections[i]? with
  | none => (-1, d)
  | some con =>
      let (ret, pfd, con) := connectionCheckActivate d.pEvent.pfd con d.pFilter.current activation
      (ret, { d with pEvent :=
        { pfd := pfd, connections := d.pEvent.connections.set i con } })

/-- The branch of `mct_daemon_filter_change_filter_level` without a connection.
The loop over the addresses is left after the first. -/
def createConnection (sockets : SocketOpen) (d : MctDaemonLocal) : Int × MctDaemonLocal :=
  let ip := match d.ipNodes with
    | [] => anyAddress
    | ip :: _ => ip
  let (ret, d) := d.openAndCreate sockets ip
  if ret ≠ 0 then (-1, d.exitTrigger) else (0, d)

/-- The branch with a connection, up to its activation. The type asked for is
the mask of CLIENT_CONNECT. -/
def updateConnection (sockets : SocketOpen) (d : MctDaemonLocal) (i : Nat)
    (temp : MctConnection) : Int × MctDaemonLocal :=
  if 0 < isConnectionAllowed d.pFilter.current MctConnectionType.clientConnect.mask then
    if temp.fd = -1 then
      match d.ipNodes with
      | [] => d.reopenAll sockets i [anyAddress]
      | ips => d.reopenAll sockets i ips
    else (0, d)
  else (0, d.socketClose temp.fd)

def filterChangeFilterLevel (sockets : SocketOpen) (d : MctDaemonLocal) (level : Nat) :
    Int × MctDaemonLocal :=
  if mctFilterLevelMax < level then (-1, d)
  else
    match selectLevel d.pFilter.configs level with
    | none => (-1, d)
    | some conf =>
        let d := d.setCurrent conf
        match connectionGetNext d.pEvent.connections MctConnectionType.clientConnect.mask with
        | none =>
            if 0 < isConnectionAllowed conf MctConnectionType.clientConnect.code then
              d.createConnection sockets
            else (-1, d)
        | some i =>
            match d.pEvent.connections[i]? with
            | none => (-1, d)
            | some temp =>
                let (ret, d) := d.updateConnection sockets i temp
                if ret ≠ 0 then (-1, d) else d.checkActivateAt i .activate

section Filter

variable {sockets : SocketOpen} {d : MctDaemonLocal}

theorem socketOpen_pFilter {ip : List Char} {fd : Int} {d' : MctDaemonLocal}
    (h : d.socketOpen sockets ip = some (fd, d')) : d'.pFilter = d.pFilter := by
  simp only [socketOpen, Option.map_eq_some_iff, Prod.mk.injEq] at h
  obtain ⟨_, _, _, rfl⟩ := h
  rfl

theorem connectionCreate_pFilter (fd : Int) (mask : Nat) (type : MctConnectionType) :
    (d.connectionCreate fd mask type).2.pFilter = d.pFilter := by
  unfold connectionCreate
  split
  · rfl
  · split
    · rfl
    · rfl

theorem createConnection_pFilter : (d.createConnection sockets).2.pFilter = d.pFilter := by
  have hopen : ∀ ip, (d.openAndCreate sockets ip).2.pFilter = d.pFilter := by
    intro ip
    unfold openAndCreate
    split
    · rfl
    · next fd d' h =>
        rw [connectionCreate_pFilter, socketOpen_pFilter h]
  simp only [createConnection]
  split
  · split
    · exact hopen _
    · exact hopen _
  · split
    · exact hopen _
    · exact hopen _

theorem reopenAll_pFilter (i : Nat) (ips : List (List Char)) :
    (d.reopenAll sockets i ips).2.pFilter = d.pFilter := by
  induction ips generalizing d with
  | nil => rfl
  | cons ip ips ih =>
      simp only [reopenAll]
      split
      · rfl
      · next fd d' h =>
          rw [ih, ← socketOpen_pFilter h]
          rfl

theorem updateConnection_pFilter (i : Nat) (temp : MctConnection) :
    (d.updateConnection sockets i temp).2.pFilter = d.pFilter := by
  unfold updateConnection
  split
  · split
    · split
      · exact reopenAll_pFilter _ _
      · exact reopenAll_pFilter _ _
    · rfl
  · rfl

theorem checkActivateAt_pFilter (i : Nat) (activation : MctConnectionStatus) :
    (d.checkActivateAt i activation).2.pFilter = d.pFilter := by
  unfold checkActivateAt
  split <;> rfl

/-- A level that some configuration reaches becomes the current one, whatever
happens to the sockets. -/
theorem filterChangeFilterLevel_current {level : Nat} (hlevel : level ≤ mctFilterLevelMax)
    {conf : MctFilterConfiguration} (hselect : selectLevel d.pFilter.configs level = some conf) :
    (filterChangeFilterLevel sockets d level).2.pFilter = { d.pFilter with current := conf } := by
  unfold filterChangeFilterLevel
  rw [if_neg (by omega), hselect]
  simp only
  split
  · split
    · exact createConnection_pFilter
    · rfl
  · split
    · rfl
    · split
      · exact updateConnection_pFilter _ _
      · rw [checkActivateAt_pFilter]
        exact updateConnection_pFilter _ _

end Filter

end MctDaemonLocal

end MctDaemon.Daemon
