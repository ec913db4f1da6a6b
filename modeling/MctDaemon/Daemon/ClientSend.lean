import MctDaemon.Daemon.EventHandler
import Mathlib.Logic.Relation

/-!
Sending a message to the clients of the daemon: the offline sinks, the loop over the
table of descriptors, the ring buffer and its replay, and the closing of a client,
which sends messages itself (`mct_daemon_client.c`, `mct-daemon.c`). A run keeps a log
of what it does with each message. What the system answers is a parameter of each
event.
-/

namespace MctDaemon.Daemon

open Lib

inductive MctDaemonState where
  | init
  | buffer
  | bufferFull
  | sendBuffer
  | sendDirect
  deriving DecidableEq, Repr

/-- What is handed to `mct_daemon_client_send`. -/
inductive ClientMessage where
  | application (data : List Nat)
  | connectionInfo
  | connectionEstablished (sock clients : Int)
  | connectionClosed (sock clients : Int)
  | bufferOverflow (overflowCounter : Nat)
  | softwareVersion
  | timezone
  | time
  deriving DecidableEq, Repr

structure Submission where
  number : Nat
  message : ClientMessage
  deriving DecidableEq, Repr

/-- What `mct_logstorage_write` answers for a device. -/
structure DeviceWrite where
  ret : Int
  disableNw : Bool
  deriving DecidableEq, Repr

/-- What the system answers during an event: whether a submission is sent on a
descriptor, whether it fits into the ring buffer behind what is there, and what the
storage devices answer, those that are configured. -/
structure Answers where
  accepts : Nat → Int → Bool
  fits : Nat → List Submission → Bool
  devices : Nat → List (Option DeviceWrite)

structure MctDaemonFlags where
  yvalue : List Char
  offlineTraceDirectory : List Char
  offlineLogstorageMaxDevices : Nat
  sendEcuSoftwareVersion : Int
  sendTimezone : Int
  timingpackets : Bool
  deriving DecidableEq, Repr

/-- What is done with a submission: it is handed to the offline trace, to the storage
devices, it goes on with the state and the answer of the devices it finds, and it is
sent, buffered or discarded. -/
inductive ClientEvent where
  | traced (sub : Submission)
  | stored (sub : Submission) (writes : List (Option DeviceWrite))
  | submitted (sub : Submission) (state : MctDaemonState) (ret : Int)
  | sent (sub : Submission) (fd : Int) (accepted : Bool)
  | buffered (sub : Submission)
  | discarded (sub : Submission)
  deriving DecidableEq, Repr

/-- The daemon as far as its clients are concerned. -/
structure ClientDaemon where
  event : EventState
  state : MctDaemonState
  clientRingbuffer : List Submission
  overflowCounter : Nat
  sentMessageOverflowCnt : Nat
  submissions : Nat
  log : List ClientEvent
  deriving DecidableEq, Repr

/-- `MCT_DAEMON_ERROR_UNKNOWN`, `MCT_DAEMON_ERROR_BUFFER_FULL` and
`MCT_DAEMON_ERROR_SEND_FAILED`. -/
def mctDaemonErrorUnknown : Int := -1
def mctDaemonErrorBufferFull : Int := -2
def mctDaemonErrorSendFailed : Int := -3

/-- The connection type is in the mask of the clients. -/
def MctFilterConfiguration.AllowsClient (current : MctFilterConfiguration)
    (type : MctConnectionType) : Prop :=
  (filterClientConnectionDefaultMask ||| current.clientMask) &&& type.mask ≠ 0

instance (current : MctFilterConfiguration) (type : MctConnectionType) :
    Decidable (current.AllowsClient type) :=
  inferInstanceAs (Decidable (_ ≠ _))

/-- The loop of `mct_daemon_logstorage_write` from device `i` on. -/
def logstorageWriteLoop : Nat → Int → List (Option DeviceWrite) → Int
  | _, ret, [] => ret
  | i, ret, none :: devices => logstorageWriteLoop (i + 1) ret devices
  | i, _, some write :: devices =>
      logstorageWriteLoop (i + 1) (if i = 0 ∧ write.disableNw then 1 else write.ret) devices

/-- `mct_daemon_logstorage_write` with what the devices answer. -/
def logstorageWrite (message : ClientMessage) (writes : List (Option DeviceWrite)) : Int :=
  match message with
  | .time => -1
  | _ => logstorageWriteLoop 0 0 writes

/-- The devices are asked, unless the message comes without data. -/
def deviceWrites (flags : MctDaemonFlags) (answers : Answers) (sub : Submission) :
    List (Option DeviceWrite) :=
  match sub.message with
  | .time => []
  | _ => (answers.devices sub.number).take flags.offlineLogstorageMaxDevices

namespace ClientDaemon

/-- The log goes on. -/
def record (d : ClientDaemon) (event : ClientEvent) : ClientDaemon :=
  { d with log := d.log ++ [event] }

def changeState (d : ClientDaemon) (state : MctDaemonState) : ClientDaemon :=
  { d with state := state }

/-- The connection of the entry, if a message for all clients is sent to it. -/
def target (d : ClientDaemon) (current : MctFilterConfiguration) (i : Nat) :
    Option MctConnection :=
  d.event.table.pfd[i]?.bind fun entry =>
    (d.event.connections.find? fun con => con.fd = entry.fd).filter fun con =>
      con.IsClientMessage ∧ current.AllowsClient con.type

/-- The part of `mct_daemon_close_socket` before it sends messages. -/
def closed (flags : MctDaemonFlags) (fd : Int) (d : ClientDaemon) : ClientDaemon :=
  let event := (d.event.unregister fd).2
  { d with
    event := event
    state := if event.clientConnections = 0 ∧ flags.yvalue = [] then .buffer else d.state }

def TracesOffline (flags : MctDaemonFlags) (d : ClientDaemon) : Prop :=
  d.state ≠ .sendBuffer ∧ d.event.current.AllowsClient .clientMsgOfflineTrace ∧
    flags.offlineTraceDirectory ≠ []

def StoresOffline (flags : MctDaemonFlags) (d : ClientDaemon) : Prop :=
  d.state ≠ .sendBuffer ∧ d.event.current.AllowsClient .clientMsgOfflineLogstorage ∧
    0 < flags.offlineLogstorageMaxDevices

instance (flags : MctDaemonFlags) (d : ClientDaemon) : Decidable (d.TracesOffline flags) :=
  inferInstanceAs (Decidable (_ ∧ _))

instance (flags : MctDaemonFlags) (d : ClientDaemon) : Decidable (d.StoresOffline flags) :=
  inferInstanceAs (Decidable (_ ∧ _))

/-- The part of `mct_daemon_client_send` for the offline sinks. -/
def offlineSinks (flags : MctDaemonFlags) (answers : Answers) (message : ClientMessage)
    (d : ClientDaemon) : Int × ClientDaemon :=
  let sub : Submission := ⟨d.submissions, message⟩
  let writes := deviceWrites flags answers sub
  let traced := if d.TracesOffline flags then [.traced sub] else []
  let stored := if d.StoresOffline flags then [.stored sub writes] else []
  let ret := if d.StoresOffline flags then logstorageWrite message writes else 0
  (ret, { d with
    submissions := d.submissions + 1
    log := d.log ++ traced ++ stored ++ [.submitted sub d.state ret] })

/-- The message is in the ring buffer. -/
def push (sub : Submission) (d : ClientDaemon) : ClientDaemon :=
  { d.record (.buffered sub) with clientRingbuffer := d.clientRingbuffer ++ [sub] }

/-- The message is counted only. -/
def discard (sub : Submission) (d : ClientDaemon) : ClientDaemon :=
  { d.record (.discarded sub) with overflowCounter := uint32 (d.overflowCounter + 1) }

/-- The part of `mct_daemon_client_send` that keeps a message for later. -/
def store (answers : Answers) (sub : Submission) (d : ClientDaemon) : Int × ClientDaemon :=
  let d :=
    if d.state ≠ .bufferFull then
      if answers.fits sub.number d.clientRingbuffer then d.push sub else d.changeState .bufferFull
    else d
  if d.state = .bufferFull then (mctDaemonErrorBufferFull, d.discard sub) else (0, d)

section Calls

variable (flags : MctDaemonFlags) (answers : Answers)
variable (send : ClientMessage → ClientDaemon → Int × ClientDaemon)

def closeSocket (fd : Int) (d : ClientDaemon) : ClientDaemon :=
  let d := (send .connectionInfo (d.closed flags fd)).2
  (send (.connectionClosed fd d.event.clientConnections) d).2

/-- The loop of `mct_daemon_client_send_all_multiple` from entry `i` on, for so many
entries. -/
def sendLoop (current : MctFilterConfiguration) (sub : Submission) :
    Nat → Nat → Bool → ClientDaemon → Bool × ClientDaemon
  | 0, _, sent, d => (sent, d)
  | n + 1, i, sent, d =>
      if i < d.event.table.nfds then
        match d.target current i with
        | none => sendLoop current sub n (i + 1) sent d
        | some con =>
            let accepted := answers.accepts sub.number con.fd
            let d := d.record (.sent sub con.fd accepted)
            let d :=
              if ¬accepted ∧ con.type = .clientMsgTcp then closeSocket flags send con.fd d else d
            sendLoop current sub n (i + 1) (sent || accepted) d
      else (sent, d)

/-- `mct_daemon_client_send_all_multiple`. The table does not grow meanwhile. -/
def sendAllMultiple (sub : Submission) (d : ClientDaemon) : Bool × ClientDaemon :=
  sendLoop flags answers send d.event.current sub d.event.table.nfds 0 false d

/-- The part of `mct_daemon_client_send` that reports discarded messages. -/
def reportOverflow (d : ClientDaemon) : ClientDaemon :=
  if 0 < d.overflowCounter ∧ 0 < d.event.clientConnections then
    let d := { d with sentMessageOverflowCnt := d.sentMessageOverflowCnt + 1 }
    if 2 ≤ d.sentMessageOverflowCnt then
      { d with sentMessageOverflowCnt := d.sentMessageOverflowCnt - 1 }
    else
      let (ret, d) := send (.bufferOverflow d.overflowCounter) d
      if ret = 0 then
        { d with overflowCounter := 0, sentMessageOverflowCnt := d.sentMessageOverflowCnt - 1 }
      else d
  else d

/-- The part of `mct_daemon_client_send` that sends to the sockets. -/
def sendSockets (force : Bool) (sub : Submission) (ret : Int) (d : ClientDaemon) :
    Bool × ClientDaemon :=
  if (d.event.current.AllowsClient .clientMsgTcp ∨
      d.event.current.AllowsClient .clientMsgSerial) ∧
      (force ∨ d.state = .sendDirect) ∧ ret ≠ 1 then
    sendAllMultiple flags answers send sub d
  else (true, d)

/-- `mct_daemon_client_send` behind the offline sinks, for `MCT_DAEMON_SEND_FORCE` or
for `MCT_DAEMON_SEND_TO_ALL`. -/
def dispatch (force : Bool) (sub : Submission) (ret : Int) (d : ClientDaemon) :
    Int × ClientDaemon :=
  let (sent, d) := sendSockets flags answers send force sub ret d
  if force ∧ ¬sent then (mctDaemonErrorSendFailed, d)
  else if ¬force ∧ (d.state = .buffer ∨ d.state = .sendBuffer ∨ d.state = .bufferFull) then
    store answers sub d
  else (0, reportOverflow send d)

/-- A call of `mct_daemon_client_send` for `MCT_DAEMON_SEND_TO_ALL`. -/
def submit (message : ClientMessage) (d : ClientDaemon) : Int × ClientDaemon :=
  let sub : Submission := ⟨d.submissions, message⟩
  let (ret, d) := d.offlineSinks flags answers message
  dispatch flags answers send false sub ret d

end Calls

section Events

variable (flags : MctDaemonFlags) (answers : Answers)

/-- `mct_daemon_client_send` for `MCT_DAEMON_SEND_TO_ALL` with so many calls within
each other. -/
def clientSend : Nat → ClientMessage → ClientDaemon → Int × ClientDaemon
  | 0, _, d => (mctDaemonErrorUnknown, d)
  | n + 1, message, d => submit flags answers (clientSend n) message d

/-- More calls are never within each other. -/
def depth (d : ClientDaemon) : Nat := d.event.connections.length + 2

/-- `mct_daemon_client_send` for `MCT_DAEMON_SEND_TO_ALL`. -/
def sendToAll (message : ClientMessage) (d : ClientDaemon) : Int × ClientDaemon :=
  clientSend flags answers d.depth message d

/-- `mct_daemon_client_send` for `MCT_DAEMON_SEND_FORCE`. -/
def sendForce (sub : Submission) (d : ClientDaemon) : Int × ClientDaemon :=
  dispatch flags answers (clientSend flags answers d.depth) true sub 0 d

/-- The loop of `mct_daemon_send_ringbuffer_to_client`, for so many messages. -/
def replayLoop : Nat → ClientDaemon → Int × ClientDaemon
  | 0, d => (0, d)
  | n + 1, d =>
      match d.clientRingbuffer with
      | [] => (0, d)
      | sub :: _ =>
          let (ret, d) := sendForce flags answers sub d
          if ret ≠ 0 then (ret, d)
          else
            let d := { d with clientRingbuffer := d.clientRingbuffer.tail, state := .sendBuffer }
            if d.clientRingbuffer = [] then (0, d.changeState .sendDirect)
            else replayLoop n d

/-- More messages are never replayed at a time. -/
def backlog (d : ClientDaemon) : Nat :=
  d.clientRingbuffer.length + 4 * d.event.connections.length + 2

def sendRingbufferToClient (d : ClientDaemon) : Int × ClientDaemon :=
  if d.clientRingbuffer = [] then (0, d.changeState .sendDirect)
  else replayLoop flags answers d.backlog d

def clientUpdate (d : ClientDaemon) : ClientDaemon :=
  let (ret, d) := sendRingbufferToClient flags answers d
  if ret ≠ 0 then d
  else if d.overflowCounter ≠ 0 then
    let (ret, d) := sendToAll flags answers (.bufferOverflow d.overflowCounter) d
    if ret = 0 then { d with overflowCounter := 0 } else d
  else d

def pollin : Nat := 1

/-- `mct_connection_create` for a client. -/
def connectionCreate (fd : Int) (d : ClientDaemon) : ClientDaemon :=
  if fd < 0 ∨ (d.event.connections.find? fun con => con.fd = fd).isSome then d
  else { d with event := (d.event.register ⟨fd, .clientMsgTcp, .undefined, 0⟩ pollin).2 }

/-- `mct_daemon_process_client_connect` with an accepted socket. The message for this
socket only is left out. -/
def processClientConnect (inSock : Int) (d : ClientDaemon) : ClientDaemon :=
  let d := d.connectionCreate inSock
  let d :=
    if 0 < flags.sendEcuSoftwareVersion then
      let d := (sendToAll flags answers .softwareVersion d).2
      if 0 < flags.sendTimezone then (sendToAll flags answers .timezone d).2 else d
    else d
  let d := (sendToAll flags answers (.connectionEstablished inSock d.event.clientConnections) d).2
  if d.event.clientConnections = 1 then
    clientUpdate flags answers (d.changeState .sendBuffer)
  else d

def processOneSTimer (d : ClientDaemon) : ClientDaemon :=
  let d :=
    if d.state = .sendBuffer ∨ d.state = .bufferFull then
      (sendRingbufferToClient flags answers d).2
    else d
  if flags.timingpackets ∧ d.state = .sendDirect then (sendToAll flags answers .time d).2 else d

def processSixtySTimer (d : ClientDaemon) : ClientDaemon :=
  let d :=
    if 0 < flags.sendEcuSoftwareVersion then (sendToAll flags answers .softwareVersion d).2 else d
  if 0 < flags.sendTimezone then (sendToAll flags answers .timezone d).2 else d

end Events

/-- There are not more connections, and a report that is under way stays so. -/
structure NoHeavier (d d' : ClientDaemon) : Prop where
  connections : d'.event.connections.length ≤ d.event.connections.length
  counting : 0 < d.sentMessageOverflowCnt → 0 < d'.sentMessageOverflowCnt

/-- So many calls of `mct_daemon_client_send` can still come within each other. -/
def weight (d : ClientDaemon) : Nat :=
  d.event.connections.length + if 0 < d.sentMessageOverflowCnt then 0 else 1

section Depth

variable {flags : MctDaemonFlags} {answers : Answers}
variable {send send' : ClientMessage → ClientDaemon → Int × ClientDaemon} {d d' d'' : ClientDaemon}

theorem NoHeavier.refl (d : ClientDaemon) : NoHeavier d d := ⟨le_refl _, id⟩

theorem NoHeavier.trans (h : NoHeavier d d') (h' : NoHeavier d' d'') : NoHeavier d d'' :=
  ⟨h'.connections.trans h.connections, fun hcnt => h'.counting (h.counting hcnt)⟩

theorem NoHeavier.weight_le (h : NoHeavier d d') : d'.weight ≤ d.weight := by
  have hconnections := h.connections
  unfold weight
  by_cases hcnt : 0 < d.sentMessageOverflowCnt
  · rw [if_pos hcnt, if_pos (h.counting hcnt)]
    omega
  · rw [if_neg hcnt]
    split <;> omega

/-- Without a connection for the descriptor nothing is unregistered. -/
theorem unregister_connections (s : EventState) (fd : Int) :
    (s.unregister fd).2.connections = s.connections.eraseP fun con => con.fd = fd := by
  unfold EventState.unregister
  rw [List.eraseP_eq_eraseIdx]
  cases hfind : s.connections.findIdx? fun con => con.fd = fd with
  | none => rfl
  | some i =>
      obtain ⟨hlt, -⟩ := List.findIdx?_eq_some_iff_getElem.mp hfind
      simp only [List.getElem?_eq_getElem hlt]

theorem noHeavier_closed (fd : Int) : NoHeavier d (d.closed flags fd) := by
  refine ⟨?_, id⟩
  rw [closed, unregister_connections]
  exact List.length_eraseP_le

theorem weight_closed {fd : Int} {con : MctConnection}
    (hfound : (d.event.connections.find? fun con => con.fd = fd) = some con) :
    (d.closed flags fd).weight + 1 = d.weight := by
  have hmem := List.mem_of_find?_eq_some hfound
  have hlength := List.length_eraseP_of_mem hmem (List.find?_some hfound)
  have hpos := List.length_pos_of_mem hmem
  rw [weight, weight, closed]
  simp only [unregister_connections]
  omega

/-- The calls within this one do not add connections. -/
def Light (send : ClientMessage → ClientDaemon → Int × ClientDaemon) : Prop :=
  ∀ message d, NoHeavier d (send message d).2

theorem Light.closeSocket (h : Light send) (fd : Int) :
    NoHeavier d (closeSocket flags send fd d) :=
  (noHeavier_closed fd).trans ((h _ _).trans (h _ _))

theorem Light.sendLoop (h : Light send) (current : MctFilterConfiguration) (sub : Submission)
    (n i : Nat) (sent : Bool) (d : ClientDaemon) :
    NoHeavier d (sendLoop flags answers send current sub n i sent d).2 := by
  induction n generalizing i sent d with
  | zero => exact .refl d
  | succ n ih =>
      unfold ClientDaemon.sendLoop
      split
      · split
        · exact ih _ _ _
        · next con _ =>
            have hsent : NoHeavier d
                (d.record (.sent sub con.fd (answers.accepts sub.number con.fd))) :=
              ⟨le_refl _, id⟩
            refine NoHeavier.trans ?_ (ih _ _ _)
            split
            · exact hsent.trans (h.closeSocket con.fd)
            · exact hsent
      · exact .refl d

theorem Light.reportOverflow (h : Light send) : NoHeavier d (reportOverflow send d) := by
  unfold ClientDaemon.reportOverflow
  split
  · simp only
    split
    · exact ⟨le_refl _, fun hcnt => by simp only; omega⟩
    · next hcnt =>
        have hreport := h (.bufferOverflow d.overflowCounter)
          { d with sentMessageOverflowCnt := d.sentMessageOverflowCnt + 1 }
        have hidle : ¬ 0 < d.sentMessageOverflowCnt := by omega
        split
        · exact ⟨hreport.connections, fun hcnt => absurd hcnt hidle⟩
        · exact ⟨hreport.connections, fun hcnt => absurd hcnt hidle⟩
  · exact .refl d

/-- A message is kept, or it is discarded in the state for that. -/
theorem store_cases (answers : Answers) (sub : Submission) (d : ClientDaemon) :
    (d.state ≠ .bufferFull ∧ answers.fits sub.number d.clientRingbuffer ∧
        store answers sub d = (0, d.push sub)) ∨
      ((d.state = .bufferFull ∨ ¬answers.fits sub.number d.clientRingbuffer) ∧
        store answers sub d =
          (mctDaemonErrorBufferFull, (d.changeState .bufferFull).discard sub)) := by
  unfold store
  by_cases hfull : d.state = .bufferFull
  · have hsame : d.changeState .bufferFull = d := by
      rw [changeState, ← hfull]
    right
    simp [hfull, hsame]
  · by_cases hfits : answers.fits sub.number d.clientRingbuffer
    · left
      simp [hfull, hfits, push, record]
    · right
      simp [hfull, hfits, changeState]

theorem noHeavier_store (sub : Submission) : NoHeavier d (store answers sub d).2 := by
  rcases store_cases answers sub d with ⟨_, _, hstore⟩ | ⟨_, hstore⟩
  · rw [hstore]
    exact ⟨le_refl _, id⟩
  · rw [hstore]
    exact ⟨le_refl _, id⟩

theorem Light.sendSockets (h : Light send) (force : Bool) (sub : Submission) (ret : Int) :
    NoHeavier d (sendSockets flags answers send force sub ret d).2 := by
  unfold ClientDaemon.sendSockets
  split
  · exact h.sendLoop _ _ _ _ _ _
  · exact .refl d

theorem Light.dispatch (h : Light send) (force : Bool) (sub : Submission) (ret : Int) :
    NoHeavier d (dispatch flags answers send force sub ret d).2 := by
  have hsent : NoHeavier d (ClientDaemon.sendSockets flags answers send force sub ret d).2 :=
    h.sendSockets force sub ret
  unfold ClientDaemon.dispatch
  simp only
  split
  · exact hsent
  · split
    · exact hsent.trans (noHeavier_store sub)
    · exact hsent.trans h.reportOverflow

theorem Light.submit (h : Light send) (message : ClientMessage) :
    NoHeavier d (submit flags answers send message d).2 := by
  have hsinks : NoHeavier d (d.offlineSinks flags answers message).2 := ⟨le_refl _, id⟩
  exact hsinks.trans (h.dispatch _ _ _)

theorem clientSend_light (n : Nat) : Light (clientSend flags answers n) := by
  induction n with
  | zero => exact fun _ d => .refl d
  | succ n ih => exact fun message _ => ih.submit message

/-- The two agree where not so many calls can come within each other. -/
def AgreeBelow (n : Nat) (send send' : ClientMessage → ClientDaemon → Int × ClientDaemon) : Prop :=
  ∀ message d, d.weight < n → send message d = send' message d

section Agree

variable {n : Nat}

theorem AgreeBelow.closeSocket (hagree : AgreeBelow n send send') (h : Light send)
    (hweight : d.weight ≤ n) {fd : Int} {con : MctConnection}
    (hfound : (d.event.connections.find? fun con => con.fd = fd) = some con) :
    closeSocket flags send fd d = closeSocket flags send' fd d := by
  have hclosed : (d.closed flags fd).weight + 1 = d.weight := weight_closed hfound
  have hinfo := (h .connectionInfo (d.closed flags fd)).weight_le
  unfold ClientDaemon.closeSocket
  rw [← hagree .connectionInfo (d.closed flags fd) (by omega)]
  simp only
  rw [hagree _ _ (by omega)]

theorem target_found {current : MctFilterConfiguration} {i : Nat} {con : MctConnection}
    (h : d.target current i = some con) :
    (d.event.connections.find? fun other => other.fd = con.fd) = some con := by
  obtain ⟨entry, _, hentry⟩ := Option.bind_eq_some_iff.mp h
  obtain ⟨hfind, _⟩ := Option.filter_eq_some_iff.mp hentry
  have hfd : con.fd = entry.fd := by simpa using List.find?_some hfind
  rw [hfd]
  exact hfind

theorem AgreeBelow.sendLoop (hagree : AgreeBelow n send send') (h : Light send)
    (current : MctFilterConfiguration) (sub : Submission) (count i : Nat) (sent : Bool)
    (d : ClientDaemon) (hweight : d.weight ≤ n) :
    sendLoop flags answers send current sub count i sent d =
      sendLoop flags answers send' current sub count i sent d := by
  induction count generalizing i sent d with
  | zero => rfl
  | succ count ih =>
      unfold ClientDaemon.sendLoop
      split
      · cases htarget : d.target current i with
        | none => exact ih _ _ _ hweight
        | some con =>
            have hfound := target_found htarget
            have hclose : ∀ accepted,
                ClientDaemon.closeSocket flags send con.fd (d.record (.sent sub con.fd accepted)) =
                  ClientDaemon.closeSocket flags send' con.fd
                    (d.record (.sent sub con.fd accepted)) :=
              fun accepted =>
                hagree.closeSocket (d := d.record (.sent sub con.fd accepted)) h hweight hfound
            simp only
            rw [← hclose]
            refine ih _ _ _ ?_
            split
            · exact (h.closeSocket con.fd).weight_le.trans hweight
            · exact hweight
      · rfl

theorem AgreeBelow.reportOverflow (hagree : AgreeBelow n send send') (hweight : d.weight ≤ n) :
    reportOverflow send d = reportOverflow send' d := by
  unfold ClientDaemon.reportOverflow
  split
  · simp only
    split
    · rfl
    · next hcnt =>
        rw [hagree]
        unfold weight at hweight ⊢
        simp only
        split at hweight
        · omega
        · split <;> omega
  · rfl

theorem AgreeBelow.dispatch (hagree : AgreeBelow n send send') (h : Light send)
    (force : Bool) (sub : Submission) (ret : Int) (hweight : d.weight ≤ n) :
    dispatch flags answers send force sub ret d = dispatch flags answers send' force sub ret d := by
  have hsockets : ClientDaemon.sendSockets flags answers send force sub ret d =
      ClientDaemon.sendSockets flags answers send' force sub ret d := by
    unfold ClientDaemon.sendSockets
    rw [sendAllMultiple, sendAllMultiple, hagree.sendLoop h _ _ _ _ _ _ hweight]
  have hsent : NoHeavier d (ClientDaemon.sendSockets flags answers send force sub ret d).2 :=
    h.sendSockets force sub ret
  have hafter := hsent.weight_le.trans hweight
  unfold ClientDaemon.dispatch
  rw [← hsockets]
  simp only
  rw [hagree.reportOverflow hafter]

end Agree

/-- The bound on the calls within each other is never met. -/
theorem clientSend_adequate {n n' : Nat} (h : d.weight < n) (h' : d.weight < n')
    (message : ClientMessage) :
    clientSend flags answers n message d = clientSend flags answers n' message d := by
  induction n generalizing n' message d with
  | zero => exact absurd h (Nat.not_lt_zero _)
  | succ n ih =>
      obtain ⟨n', rfl⟩ := Nat.exists_eq_succ_of_ne_zero (Nat.ne_zero_of_lt h')
      have hagree : AgreeBelow (min n n') (clientSend flags answers n)
          (clientSend flags answers n') :=
        fun message d hlt => ih (lt_min_iff.mp hlt).1 (lt_min_iff.mp hlt).2 message
      rw [clientSend, clientSend, ClientDaemon.submit, ClientDaemon.submit]
      exact hagree.dispatch (clientSend_light n) _ _ _
        (le_min (Nat.le_of_lt_succ h) (Nat.le_of_lt_succ h'))

theorem weight_lt_depth (d : ClientDaemon) : d.weight < d.depth := by
  unfold weight depth
  split <;> omega

end Depth

/-- Messages are kept for later. -/
def Buffers (d : ClientDaemon) : Prop :=
  d.state = .buffer ∨ d.state = .sendBuffer ∨ d.state = .bufferFull

/-- No report is due for discarded messages, or one is under way. -/
def Settled (d : ClientDaemon) : Prop := d.overflowCounter = 0 ∨ 0 < d.sentMessageOverflowCnt

instance (d : ClientDaemon) : Decidable d.Settled := inferInstanceAs (Decidable (_ ∨ _))

/-- More messages cannot come out of the ring buffer: those that are in it, the report
that is due, and two for each client that may be closed. -/
def burden (d : ClientDaemon) : Nat :=
  d.clientRingbuffer.length + 2 * d.event.connections.length + if d.Settled then 0 else 1

/-- Messages are kept, and there are at most so many more to come out. -/
structure Burdened (more : Nat) (d d' : ClientDaemon) : Prop where
  buffers : d'.Buffers
  length : d.clientRingbuffer.length ≤ d'.clientRingbuffer.length
  burden : d'.burden ≤ d.burden + more

/-- The message at the front of the ring buffer is taken out, and the replay goes on. -/
def advance (d : ClientDaemon) : ClientDaemon :=
  { d with clientRingbuffer := d.clientRingbuffer.tail, state := .sendBuffer }

section Replay

variable {flags : MctDaemonFlags} {answers : Answers} {d d' d'' : ClientDaemon} {more : Nat}

theorem Burdened.trans {more' : Nat} (h : Burdened more d d') (h' : Burdened more' d' d'') :
    Burdened (more + more') d d'' :=
  ⟨h'.buffers, h.length.trans h'.length, by have := h.burden; have := h'.burden; omega⟩

/-- A call while messages are kept. -/
theorem clientSend_buffers (flags : MctDaemonFlags) (answers : Answers) (n : Nat)
    (message : ClientMessage) (h : d.Buffers) :
    clientSend flags answers (n + 1) message d =
      store answers ⟨d.submissions, message⟩ (d.offlineSinks flags answers message).2 := by
  have hstate : (d.offlineSinks flags answers message).2.state = .buffer ∨
      (d.offlineSinks flags answers message).2.state = .sendBuffer ∨
      (d.offlineSinks flags answers message).2.state = .bufferFull := h
  have hdirect : (d.offlineSinks flags answers message).2.state ≠ .sendDirect := by
    rcases hstate with hstate | hstate | hstate
    all_goals
      rw [hstate]
      decide
  have hsockets : sendSockets flags answers (clientSend flags answers n) false
      ⟨d.submissions, message⟩ (d.offlineSinks flags answers message).1
      (d.offlineSinks flags answers message).2 = (true, (d.offlineSinks flags answers message).2) :=
    if_neg (by simp [hdirect])
  unfold clientSend submit dispatch
  simp only [hsockets]
  rw [if_neg (by simp), if_pos ⟨by simp, hstate⟩]

theorem burden_of_settled (h : d.Settled) :
    d.burden = d.clientRingbuffer.length + 2 * d.event.connections.length :=
  congrArg _ (if_pos h)

theorem burdened_push (sub : Submission) (h : d.Buffers) : Burdened 1 d (d.push sub) := by
  have hring : (d.push sub).clientRingbuffer.length = d.clientRingbuffer.length + 1 :=
    List.length_append
  refine ⟨h, by omega, le_of_eq ?_⟩
  have hburden : (d.push sub).burden = (d.push sub).clientRingbuffer.length +
      2 * d.event.connections.length + if d.Settled then 0 else 1 := rfl
  rw [hburden, hring, burden]
  omega

theorem burdened_discard (sub : Submission) :
    Burdened 1 d ((d.changeState .bufferFull).discard sub) := by
  refine ⟨.inr (.inr rfl), le_refl _, ?_⟩
  have hburden : ((d.changeState .bufferFull).discard sub).burden = d.clientRingbuffer.length +
      2 * d.event.connections.length +
        if ((d.changeState .bufferFull).discard sub).Settled then 0 else 1 := rfl
  rw [hburden, burden]
  split <;> omega

/-- A call adds one message at most. -/
theorem clientSend_burdened (flags : MctDaemonFlags) (answers : Answers) (n : Nat)
    (message : ClientMessage) (h : d.Buffers) :
    Burdened 1 d (clientSend flags answers n message d).2 := by
  cases n with
  | zero => exact ⟨h, le_refl _, Nat.le_succ _⟩
  | succ n =>
      rw [clientSend_buffers flags answers n message h]
      have hsinks : Burdened 0 d (d.offlineSinks flags answers message).2 :=
        ⟨h, le_refl _, le_refl _⟩
      rcases store_cases answers ⟨d.submissions, message⟩ (d.offlineSinks flags answers message).2
        with ⟨_, _, hstore⟩ | ⟨_, hstore⟩
      · rw [hstore]
        exact hsinks.trans (burdened_push _ h)
      · rw [hstore]
        exact hsinks.trans (burdened_discard _)

/-- A client that is closed makes up for what is said about it. -/
theorem closeSocket_burdened (flags : MctDaemonFlags) (answers : Answers) (n : Nat) {fd : Int}
    {con : MctConnection} (h : d.Buffers)
    (hfound : (d.event.connections.find? fun con => con.fd = fd) = some con) :
    Burdened 0 d (closeSocket flags (clientSend flags answers n) fd d) := by
  have hclosed : (d.closed flags fd).Buffers ∧ (d.closed flags fd).burden + 2 = d.burden := by
    have hmem := List.mem_of_find?_eq_some hfound
    have hlength := List.length_eraseP_of_mem hmem (List.find?_some hfound)
    have hpos := List.length_pos_of_mem hmem
    constructor
    · unfold closed Buffers
      simp only
      split
      · exact .inl rfl
      · exact h
    · have hburden : (d.closed flags fd).burden = d.clientRingbuffer.length +
          2 * (d.event.unregister fd).2.connections.length + if d.Settled then 0 else 1 := rfl
      rw [hburden, unregister_connections, burden]
      omega
  have hinfo : Burdened 1 (d.closed flags fd)
      (clientSend flags answers n .connectionInfo (d.closed flags fd)).2 :=
    clientSend_burdened flags answers n .connectionInfo hclosed.1
  have htext := hinfo.trans (clientSend_burdened flags answers n
    (.connectionClosed fd (clientSend flags answers n .connectionInfo
      (d.closed flags fd)).2.event.clientConnections) hinfo.buffers)
  have hburden := htext.burden
  exact ⟨htext.buffers, htext.length, by rw [closeSocket]; omega⟩

theorem sendLoop_burdened (current : MctFilterConfiguration) (sub : Submission) (depth n i : Nat)
    (sent : Bool) (h : d.Buffers) :
    Burdened 0 d
      (sendLoop flags answers (clientSend flags answers depth) current sub n i sent d).2 := by
  induction n generalizing i sent d with
  | zero => exact ⟨h, le_refl _, le_refl _⟩
  | succ n ih =>
      unfold sendLoop
      split
      · cases htarget : d.target current i with
        | none => exact ih _ _ h
        | some con =>
            have hsent : Burdened 0 d
                (d.record (.sent sub con.fd (answers.accepts sub.number con.fd))) :=
              ⟨h, le_refl _, le_refl _⟩
            simp only
            split
            · have hclosed := hsent.trans
                (closeSocket_burdened flags answers depth hsent.buffers (target_found htarget))
              exact hclosed.trans (ih _ _ hclosed.buffers)
            · exact hsent.trans (ih _ _ hsent.buffers)
      · exact ⟨h, le_refl _, le_refl _⟩

/-- The report may be kept, and none is due then. -/
theorem reportOverflow_burdened (flags : MctDaemonFlags) (answers : Answers) (n : Nat)
    (h : d.Buffers) :
    Burdened 0 d (reportOverflow (clientSend flags answers n) d) := by
  unfold reportOverflow
  split
  · next hdue =>
      simp only
      split
      · next hcnt =>
          have hsettled : Settled { d with
              sentMessageOverflowCnt := d.sentMessageOverflowCnt + 1 - 1 } ↔ d.Settled := Iff.rfl
          exact ⟨h, le_refl _, le_of_eq (by simp only [burden, hsettled, Nat.add_zero])⟩
      · next hcnt =>
          have hdue' : ¬ d.Settled := by
            rintro (hzero | hpos)
            · omega
            · omega
          have hsettled : Settled { d with
              sentMessageOverflowCnt := d.sentMessageOverflowCnt + 1 } := .inr (Nat.succ_pos _)
          have hreport : Burdened 1 { d with
              sentMessageOverflowCnt := d.sentMessageOverflowCnt + 1 } _ :=
            clientSend_burdened flags answers n
              (.bufferOverflow d.overflowCounter) h
          have hburden := hreport.burden
          have hlength := hreport.length
          revert hreport hburden hlength
          generalize clientSend flags answers n (.bufferOverflow d.overflowCounter)
            { d with sentMessageOverflowCnt := d.sentMessageOverflowCnt + 1 } = result
          intro hreport hburden hlength
          have hless : result.2.burden ≤ d.burden := by
            rw [burden_of_settled hsettled] at hburden
            have hdue : d.burden =
                d.clientRingbuffer.length + 2 * d.event.connections.length + 1 :=
              congrArg _ (if_neg hdue')
            exact hdue ▸ hburden
          split
          · refine ⟨hreport.buffers, hlength, Nat.le_trans ?_ hless⟩
            rw [burden_of_settled (.inl rfl)]
            exact Nat.le_add_right _ _
          · exact ⟨hreport.buffers, hlength, hless⟩
  · exact ⟨h, le_refl _, le_refl _⟩

theorem sendForce_burdened (sub : Submission) (h : d.Buffers) :
    Burdened 0 d (sendForce flags answers sub d).2 := by
  have hsent : Burdened 0 d
      (sendSockets flags answers (clientSend flags answers d.depth) true sub 0 d).2 := by
    unfold sendSockets
    split
    · exact sendLoop_burdened _ _ _ _ _ _ h
    · exact ⟨h, le_refl _, le_refl _⟩
  unfold sendForce dispatch
  simp only [not_true_eq_false, false_and, if_false, true_and]
  split
  · exact hsent
  · have hreport := reportOverflow_burdened flags answers d.depth hsent.buffers
    exact hsent.trans hreport

theorem replayLoop_nil (hring : d.clientRingbuffer = []) (n : Nat) :
    replayLoop flags answers n d = (0, d) := by
  cases n with
  | zero => rfl
  | succ n => rw [replayLoop, hring]

theorem replayLoop_cons {sub : Submission} {rest : List Submission}
    (hring : d.clientRingbuffer = sub :: rest) (n : Nat) :
    replayLoop flags answers (n + 1) d =
      let sent := sendForce flags answers sub d
      if sent.1 ≠ 0 then sent
      else if sent.2.advance.clientRingbuffer = [] then (0, sent.2.advance.changeState .sendDirect)
      else replayLoop flags answers n sent.2.advance := by
  rw [replayLoop, hring]
  rfl

/-- The bound on the messages replayed at a time is never met. -/
theorem replayLoop_adequate {n n' : Nat} (h : d.Buffers) (hn : d.burden ≤ n) (hn' : d.burden ≤ n') :
    replayLoop flags answers n d = replayLoop flags answers n' d := by
  induction n generalizing n' d with
  | zero =>
      have hring : d.clientRingbuffer = [] := by
        rw [← List.length_eq_zero_iff]
        unfold burden at hn
        omega
      rw [replayLoop_nil hring, replayLoop_nil hring]
  | succ n ih =>
      cases hring : d.clientRingbuffer with
      | nil => rw [replayLoop_nil hring, replayLoop_nil hring]
      | cons sub rest =>
          obtain ⟨n', rfl⟩ : ∃ m, n' = m + 1 := by
            refine Nat.exists_eq_succ_of_ne_zero fun hzero => ?_
            rw [burden, hring, List.length_cons] at hn'
            omega
          rw [replayLoop_cons hring, replayLoop_cons hring]
          have hsent : Burdened 0 d (sendForce flags answers sub d).2 := sendForce_burdened sub h
          have hless : (sendForce flags answers sub d).2.advance.burden < d.burden := by
            have hlength := hsent.length
            have hburden := hsent.burden
            have hadvance : (sendForce flags answers sub d).2.advance.burden =
                ((sendForce flags answers sub d).2.clientRingbuffer.length - 1) +
                  2 * (sendForce flags answers sub d).2.event.connections.length +
                    if (sendForce flags answers sub d).2.Settled then 0 else 1 := by
              rw [← List.length_tail]
              rfl
            rw [hring, List.length_cons] at hlength
            rw [hadvance]
            unfold burden at hburden ⊢
            omega
          have hrest : replayLoop flags answers n (sendForce flags answers sub d).2.advance =
              replayLoop flags answers n' (sendForce flags answers sub d).2.advance :=
            ih (.inr (.inl rfl)) (by omega) (by omega)
          simp only [hrest]

theorem burden_le_backlog (d : ClientDaemon) : d.burden ≤ d.backlog := by
  unfold burden backlog
  split <;> omega

end Replay

/-- What the daemon reacts to: a message of an application, a client that connects or
that is to be closed, and the timers. -/
inductive Input where
  | message (data : List Nat)
  | connect (fd : Int)
  | disconnect (fd : Int)
  | oneSTimer
  | sixtySTimer
  deriving DecidableEq, Repr

def step (flags : MctDaemonFlags) (d : ClientDaemon) (event : Input × Answers) :
    Int × ClientDaemon :=
  match event.1 with
  | .message data => sendToAll flags event.2 (.application data) d
  | .connect fd => (0, processClientConnect flags event.2 fd d)
  | .disconnect fd => (0, closeSocket flags (clientSend flags event.2 d.depth) fd d)
  | .oneSTimer => (0, processOneSTimer flags event.2 d)
  | .sixtySTimer => (0, processSixtySTimer flags event.2 d)

end ClientDaemon

end MctDaemon.Daemon
