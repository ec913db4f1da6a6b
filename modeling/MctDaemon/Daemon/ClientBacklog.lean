import MctDaemon.Daemon.ClientDelivery
import MctDaemon.Lib.Ledger

/-!
What becomes of the messages for the clients: each is accepted by a client, waits in the
ring buffer or is counted as discarded, and the count is reported. This is how it is as
long as only the last client of the table fails and every message fits into the empty
ring buffer.
-/

namespace MctDaemon.Daemon

open Lib

/-- The messages that clients have accepted, with the descriptors. -/
def acceptedIn (log : List ClientEvent) : List (Submission × Int) :=
  log.filterMap fun event =>
    match event with
    | .sent sub fd true => some (sub, fd)
    | _ => none

/-- The messages that have been discarded. -/
def discardedIn (log : List ClientEvent) : List Submission :=
  log.filterMap fun event =>
    match event with
    | .discarded sub => some sub
    | _ => none

def reportCount (sub : Submission) : Nat :=
  match sub.message with
  | .bufferOverflow overflowCounter => overflowCounter
  | _ => 0

def IsApplication (sub : Submission) : Prop :=
  match sub.message with
  | .application _ => True
  | _ => False

instance : DecidablePred IsApplication := fun sub => by
  unfold IsApplication
  split <;> infer_instance

namespace ClientDaemon

theorem acceptedIn_append (log events : List ClientEvent) :
    acceptedIn (log ++ events) = acceptedIn log ++ acceptedIn events :=
  List.filterMap_append

theorem acceptedIn_accepted (d : ClientDaemon) (sub : Submission) (fd : Int) :
    acceptedIn (d.record (.sent sub fd true)).log = acceptedIn d.log ++ [(sub, fd)] :=
  acceptedIn_append d.log [.sent sub fd true]

theorem acceptedIn_failed (d : ClientDaemon) (sub : Submission) (fd : Int) :
    acceptedIn (d.record (.sent sub fd false)).log = acceptedIn d.log :=
  (acceptedIn_append d.log [.sent sub fd false]).trans (List.append_nil _)

/-- Which clients have accepted the message tells of its sends only. -/
theorem acceptedIn_sendsOnly (sub : Submission) :
    SendsOnly sub fun log => (acceptedIn log).filter fun pair => pair.1 = sub := by
  intro log events hother
  have hnone : (acceptedIn events).filter (fun pair => pair.1 = sub) = [] := by
    rw [List.filter_eq_nil_iff]
    intro pair hpair
    obtain ⟨event, hmem, hevent⟩ := List.mem_filterMap.mp hpair
    split at hevent
    · next other fd =>
        obtain rfl := Option.some.inj hevent
        have hne : other ≠ sub := by
          rintro rfl
          exact hother _ hmem fd true rfl
        simpa using hne
    · exact absurd hevent (by simp)
  simp only [acceptedIn_append, List.filter_append, hnone, List.append_nil]

def ledger (d : ClientDaemon) : Ledger Submission Int where
  entered := (callsIn d.log).map Prod.fst
  delivered := acceptedIn d.log
  queue := d.clientRingbuffer
  dropped := discardedIn d.log

/-- The books are right: the held messages are at no place yet, the open ones may still be
sent to clients, and so much is owed for reports that are out. -/
structure Books (opened held : List Submission) (owed : Nat) (d : ClientDaemon) : Prop where
  placed : d.ledger.Placed held
  ordered : d.ledger.Ordered (fun first second => first.number < second.number) IsApplication opened
  known : ∀ sub ∈ opened, sub ∈ d.ledger.entered
  held : held.Nodup
  opened : opened.Nodup
  numbers : ∀ sub ∈ d.ledger.entered, sub.number < d.submissions
  once : d.ledger.delivered.Nodup
  counted : (discardedIn d.log).length < 4294967296 →
    d.overflowCounter ≤ (discardedIn d.log).length ∧
      (d.ledger.entered.map reportCount).sum + d.overflowCounter =
        (discardedIn d.log).length + ((discardedIn d.log).map reportCount).sum + owed

section Books

variable {flags : MctDaemonFlags} {answers : Answers} {d d' : ClientDaemon}
variable {opened held : List Submission} {owed : Nat} {sub : Submission}

theorem Books.congr (h : Books opened held owed d) (hledger : d'.ledger = d.ledger)
    (hnumber : d'.submissions = d.submissions) (hcounter : d'.overflowCounter = d.overflowCounter) :
    Books opened held owed d' := by
  have hdropped : discardedIn d'.log = discardedIn d.log := congrArg Ledger.dropped hledger
  refine ⟨hledger ▸ h.placed, hledger ▸ h.ordered, hledger ▸ h.known, h.held, h.opened, ?_,
    hledger ▸ h.once, ?_⟩
  · rw [hledger, hnumber]
    exact h.numbers
  · rw [hledger, hdropped, hcounter]
    exact h.counted

theorem ledger_sinks (message : ClientMessage) :
    (d.offlineSinks flags answers message).2.ledger = d.ledger.enter ⟨d.submissions, message⟩ := by
  simp only [ledger, Ledger.enter, offlineSinks, callsIn, acceptedIn, discardedIn,
    List.filterMap_append]
  split <;> split <;> simp

theorem ledger_accepted (fd : Int) :
    (d.record (.sent sub fd true)).ledger = d.ledger.deliver sub [fd] := by
  simp [ledger, Ledger.deliver, record, callsIn, acceptedIn, discardedIn]

theorem ledger_failed (fd : Int) : (d.record (.sent sub fd false)).ledger = d.ledger := by
  simp [ledger, record, callsIn, acceptedIn, discardedIn]

theorem ledger_push : (d.push sub).ledger = d.ledger.keep sub := by
  simp [ledger, Ledger.keep, push, record, callsIn, acceptedIn, discardedIn]

theorem ledger_discard : (d.discard sub).ledger = d.ledger.drop sub := by
  simp [ledger, Ledger.drop, discard, record, callsIn, acceptedIn, discardedIn]

/-- A call begins. -/
theorem Books.sinks (h : Books opened held owed d) (flags : MctDaemonFlags) (answers : Answers)
    (message : ClientMessage)
    (hsingle : IsApplication ⟨d.submissions, message⟩ → ∀ other ∈ opened, ¬ IsApplication other) :
    Books (⟨d.submissions, message⟩ :: opened) (⟨d.submissions, message⟩ :: held)
      (owed + reportCount ⟨d.submissions, message⟩) (d.offlineSinks flags answers message).2 := by
  have hnew : (⟨d.submissions, message⟩ : Submission) ∉ d.ledger.entered :=
    fun hmem => absurd (h.numbers _ hmem) (lt_irrefl _)
  have hledger : (d.offlineSinks flags answers message).2.ledger =
      d.ledger.enter ⟨d.submissions, message⟩ := ledger_sinks message
  have hdropped : discardedIn (d.offlineSinks flags answers message).2.log = discardedIn d.log :=
    congrArg Ledger.dropped hledger
  refine ⟨?_, ?_, ?_, ?_, ?_, ?_, ?_, ?_⟩
  · rw [hledger]
    exact h.placed.enter hnew
  · rw [hledger]
    refine h.ordered.enter ?_ ?_ hsingle
    · exact fun first hfirst => h.numbers _ (h.placed.known _ (.inr (.inl ⟨first.2, hfirst⟩)))
    · exact fun first hfirst => h.numbers _ (h.placed.known _ (.inr (.inr (.inl hfirst))))
  · rw [hledger]
    intro other hother
    rcases List.mem_cons.mp hother with rfl | hother
    · exact List.mem_append_right _ List.mem_cons_self
    · exact List.mem_append_left _ (h.known other hother)
  · rw [List.nodup_cons]
    exact ⟨fun hmem => hnew (h.placed.known _ (.inl hmem)), h.held⟩
  · rw [List.nodup_cons]
    exact ⟨fun hmem => hnew (h.known _ hmem), h.opened⟩
  · rw [hledger]
    intro other hother
    rcases List.mem_append.mp hother with hother | hother
    · exact Nat.lt_succ_of_lt (h.numbers other hother)
    · rw [List.mem_singleton.mp hother]
      exact Nat.lt_succ_self _
  · rw [hledger]
    exact h.once
  · rw [hdropped, hledger]
    intro hfew
    obtain ⟨hle, hsum⟩ := h.counted hfew
    refine ⟨hle, ?_⟩
    rw [Ledger.enter, List.map_append, List.sum_append, List.map_singleton, List.sum_singleton]
    have hsame : (d.offlineSinks flags answers message).2.overflowCounter = d.overflowCounter := rfl
    omega

/-- What is left to show when an open message is accepted once more. -/
theorem Books.accepted (h : Books opened held owed d) (hopen : sub ∈ opened) {fd : Int}
    (hnew : (sub, fd) ∉ acceptedIn d.log)
    (hbehind : ∀ other ∈ d.clientRingbuffer, IsApplication sub → IsApplication other →
      sub.number < other.number) {held' : List Submission} (hheld : held'.Nodup)
    (hplaced : (d.ledger.deliver sub [fd]).Placed held') :
    Books opened held' owed (d.record (.sent sub fd true)) := by
  have hdropped : discardedIn (d.record (.sent sub fd true)).log = discardedIn d.log :=
    congrArg Ledger.dropped (ledger_accepted fd)
  refine ⟨?_, ?_, ?_, hheld, h.opened, ?_, ?_, ?_⟩
  · rw [ledger_accepted]
    exact hplaced
  · rw [ledger_accepted]
    exact h.ordered.deliver hopen hnew hbehind
  · rw [ledger_accepted]
    exact h.known
  · rw [ledger_accepted]
    exact h.numbers
  · rw [ledger_accepted, Ledger.deliver, List.map_singleton, ← List.concat_eq_append]
    exact h.once.concat hnew
  · rw [hdropped, ledger_accepted]
    exact h.counted

/-- The message of a call is accepted for the first time. -/
theorem Books.first (h : Books opened (sub :: held) owed d) (hopen : sub ∈ opened) (fd : Int)
    (hbehind : ∀ other ∈ d.clientRingbuffer, IsApplication sub → IsApplication other →
      sub.number < other.number) : Books opened held owed (d.record (.sent sub fd true)) :=
  h.accepted hopen (fun hmem => (h.placed.pending sub List.mem_cons_self).1 ⟨fd, hmem⟩) hbehind
    h.held.of_cons (h.placed.deliver h.held (List.cons_ne_nil _ _))

/-- The message of a call is accepted by another client. -/
theorem Books.again (h : Books opened held owed d) (hopen : sub ∈ opened)
    (hsent : d.ledger.Delivered sub) {fd : Int} (hnew : (sub, fd) ∉ acceptedIn d.log)
    (hbehind : ∀ other ∈ d.clientRingbuffer, IsApplication sub → IsApplication other →
      sub.number < other.number) : Books opened held owed (d.record (.sent sub fd true)) :=
  h.accepted hopen hnew hbehind h.held (h.placed.again hsent [fd])

/-- A call ends. -/
theorem Books.close (h : Books (sub :: opened) held owed d) : Books opened held owed d :=
  ⟨h.placed, h.ordered.close, fun other hother => h.known other (List.mem_cons_of_mem sub hother),
    h.held, h.opened.of_cons, h.numbers, h.once, h.counted⟩

/-- The message of the call is kept. -/
theorem Books.push (h : Books (sub :: opened) (sub :: held) owed d) :
    Books opened held owed (d.push sub) := by
  have hdropped : discardedIn (d.push sub).log = discardedIn d.log :=
    congrArg Ledger.dropped ledger_push
  refine ⟨?_, ?_, ?_, h.held.of_cons, h.opened.of_cons, ?_, ?_, ?_⟩
  · rw [ledger_push]
    exact h.placed.keep h.held
  · rw [ledger_push]
    exact h.ordered.keep (List.nodup_cons.mp h.opened).1 (h.placed.pending sub List.mem_cons_self).1
  · rw [ledger_push]
    exact h.close.known
  · rw [ledger_push]
    exact h.numbers
  · rw [ledger_push]
    exact h.once
  · rw [hdropped, ledger_push]
    exact h.counted

/-- The message of the call is discarded. -/
theorem Books.discard (h : Books (sub :: opened) (sub :: held) (owed + reportCount sub) d) :
    Books opened held owed (d.discard sub) := by
  have hdropped : discardedIn (d.discard sub).log = discardedIn d.log ++ [sub] :=
    congrArg Ledger.dropped ledger_discard
  refine ⟨?_, ?_, ?_, h.held.of_cons, h.opened.of_cons, ?_, ?_, ?_⟩
  · rw [ledger_discard]
    exact h.placed.drop h.held
  · rw [ledger_discard]
    exact h.ordered.drop
  · rw [ledger_discard]
    exact h.close.known
  · rw [ledger_discard]
    exact h.numbers
  · rw [ledger_discard]
    exact h.once
  · rw [hdropped, ledger_discard, List.length_append, List.length_singleton]
    intro hfew
    obtain ⟨hle, hsum⟩ := h.counted (by omega)
    have hcounter : (d.discard sub).overflowCounter = d.overflowCounter + 1 := by
      have hcast := uint32_natCast (n := d.overflowCounter + 1) (by omega)
      rw [ClientDaemon.discard]
      simpa using hcast
    simp only [hcounter, Ledger.drop, List.map_append, List.sum_append, List.map_singleton,
      List.sum_singleton]
    omega

/-- The first message that waits is accepted. -/
theorem Books.replayed {rest : List Submission} (h : Books opened held owed d)
    (hring : d.clientRingbuffer = sub :: rest) (fd : Int) :
    Books opened held owed { d.record (.sent sub fd true) with clientRingbuffer := rest } := by
  have hledger : ({ d.record (.sent sub fd true) with clientRingbuffer := rest } :
      ClientDaemon).ledger = { d.ledger with queue := rest }.deliver sub [fd] :=
    congrArg (fun l : Ledger Submission Int => { l with queue := rest }) (ledger_accepted fd)
  have hdropped : discardedIn (d.record (.sent sub fd true)).log = discardedIn d.log :=
    congrArg Ledger.dropped (ledger_accepted fd)
  have hqueue : d.ledger.queue = sub :: rest := hring
  have hheld : sub ∉ held :=
    fun hmem => (h.placed.pending sub hmem).2.1 (hqueue ▸ List.mem_cons_self)
  have hwaiting := h.placed.waiting sub (hqueue ▸ List.mem_cons_self)
  refine ⟨?_, ?_, ?_, h.held, h.opened, ?_, ?_, ?_⟩
  · rw [hledger]
    exact (h.placed.reopen hring).deliver (List.nodup_cons.mpr ⟨hheld, h.held⟩)
      (List.cons_ne_nil _ _)
  · rw [hledger]
    exact h.ordered.replay hring fd
  · rw [hledger]
    exact h.known
  · rw [hledger]
    exact h.numbers
  · rw [hledger, Ledger.deliver, List.map_singleton, ← List.concat_eq_append]
    exact h.once.concat fun hmem => hwaiting.1 ⟨fd, hmem⟩
  · rw [hledger]
    simp only [hdropped]
    exact h.counted

/-- A report is settled. -/
theorem Books.reset (h : Books opened held owed d) (howed : d.overflowCounter = owed) (cnt : Nat) :
    Books opened held 0 { d with overflowCounter := 0, sentMessageOverflowCnt := cnt } := by
  refine ⟨h.placed, h.ordered, h.known, h.held, h.opened, h.numbers, h.once, fun hfew => ?_⟩
  obtain ⟨-, hsum⟩ := h.counted hfew
  refine ⟨Nat.zero_le _, ?_⟩
  have hledger : ({ d with overflowCounter := 0, sentMessageOverflowCnt := cnt } :
      ClientDaemon).ledger = d.ledger := rfl
  simp only [hledger]
  omega

end Books

/-- The clients are watched and counted, and there is no serial connection. -/
structure Wired (d : ClientDaemon) : Prop extends d.ClientsWatched where
  reached : ∀ con ∈ d.event.connections, con.type = .clientMsgTcp → con.fd ∈ d.fds
  noSerial : ∀ con ∈ d.event.connections, con.type ≠ .clientMsgSerial
  counted : d.event.clientConnections =
    d.event.connections.countP fun con => con.type = .clientMsgTcp
  activated : 0 < isConnectionAllowed d.event.current MctConnectionType.clientMsgTcp.code

/-- The descriptors of the clients in the order of the table. -/
def clientFds (d : ClientDaemon) : List Int := d.fds.filter fun fd => d.Client fd

/-- The first client accepts whatever it is sent, or it is the only one. -/
def FirstAccepts (answers : Answers) (d : ClientDaemon) : Prop :=
  ∀ fd later, d.clientFds = fd :: later →
    later = [] ∨ ∀ number, answers.accepts number fd = true

section Wiring

variable {flags : MctDaemonFlags} {answers : Answers} {d d' : ClientDaemon}
variable {fd : Int}

theorem Wired.congr (h : d.Wired) (hevent : d'.event = d.event) : d'.Wired := by
  have htable : d'.fds = d.fds := congrArg (fun event => event.table.used.map PollFd.fd) hevent
  have hclient : ∀ fd, d'.Client fd ↔ d.Client fd := by
    intro fd
    rw [Client, Client, hevent]
  refine ⟨⟨hevent ▸ h.table, ?_, ?_, hevent ▸ h.own, hevent ▸ h.single, hevent ▸ h.allowed⟩, ?_,
    hevent ▸ h.noSerial, hevent ▸ h.counted, hevent ▸ h.activated⟩
  · intro fd hfd
    rw [htable]
    exact h.once fd ((hclient fd).mp hfd)
  · rw [hevent, htable]
    exact h.active
  · rw [hevent, htable]
    exact h.reached

theorem clientFds_congr (hevent : d'.event = d.event) : d'.clientFds = d.clientFds := by
  obtain ⟨event, _, _, _, _, _, _⟩ := d'
  obtain rfl : event = d.event := hevent
  rfl

theorem mem_clientFds (h : d.Wired) : fd ∈ d.clientFds ↔ d.Client fd := by
  rw [clientFds, List.mem_filter, decide_eq_true_eq]
  refine ⟨fun hboth => hboth.2, fun hclient => ⟨?_, hclient⟩⟩
  obtain ⟨con, hmem, htype, rfl⟩ := hclient
  exact h.reached con hmem htype

theorem clientFds_nodup (h : d.Wired) : d.clientFds.Nodup := by
  rw [List.nodup_iff_count_le_one]
  intro fd
  by_cases hclient : d.Client fd
  · exact (List.filter_sublist.count_le fd).trans (h.once fd hclient)
  · have hnone : fd ∉ d.clientFds := fun hmem => hclient ((mem_clientFds h).mp hmem)
    rw [List.count_eq_zero.mpr hnone]
    exact Nat.zero_le 1

theorem clientConnections_pos (h : d.Wired) :
    0 < d.event.clientConnections ↔ d.clientFds ≠ [] := by
  rw [h.counted, Int.natCast_pos, List.countP_pos_iff]
  constructor
  · rintro ⟨con, hmem, htype⟩
    refine List.ne_nil_of_mem (a := con.fd) ?_
    exact (mem_clientFds h).mpr ⟨con, hmem, by simpa using htype, rfl⟩
  · intro hne
    obtain ⟨fd, hfd⟩ := List.exists_mem_of_ne_nil _ hne
    obtain ⟨con, hmem, htype, -⟩ := (mem_clientFds h).mp hfd
    exact ⟨con, hmem, by simpa using htype⟩

theorem clientConnections_nonneg (h : d.Wired) : 0 ≤ d.event.clientConnections := by
  rw [h.counted]
  exact Int.natCast_nonneg _

/-- The count after a client is taken out. -/
theorem countP_eraseP_fd {connections : List MctConnection} {con : MctConnection}
    (hmem : con ∈ connections) (htype : con.type = .clientMsgTcp)
    (hown : ∀ other ∈ connections, other.fd = con.fd → other = con) :
    (connections.eraseP fun other => other.fd = con.fd).countP
        (fun con => con.type = .clientMsgTcp) + 1 =
      connections.countP fun con => con.type = .clientMsgTcp := by
  obtain ⟨found, front, back, -, hfound, hsplit, herase⟩ :=
    List.exists_of_eraseP hmem (p := fun other => other.fd = con.fd) (by simp)
  have hsame : found = con :=
    hown found (hsplit ▸ List.mem_append_right _ List.mem_cons_self) (by simpa using hfound)
  rw [herase, hsplit, hsame, List.countP_append, List.countP_append, List.countP_cons_of_pos]
  · omega
  · simpa using htype

theorem unregister_clientConnections (s : EventState) {con : MctConnection}
    (hmem : con ∈ s.connections) (htype : con.type = .clientMsgTcp)
    (hown : ∀ other ∈ s.connections, other.fd = con.fd → other = con) :
    (s.unregister con.fd).2.clientConnections = max 0 (s.clientConnections - 1) := by
  have hfound : (s.connections.findIdx? fun other => other.fd = con.fd).isSome := by
    rw [List.findIdx?_isSome, List.any_eq_true]
    exact ⟨con, hmem, by simp⟩
  obtain ⟨i, hi⟩ := Option.isSome_iff_exists.mp hfound
  obtain ⟨hlt, hfirst, -⟩ := List.findIdx?_eq_some_iff_getElem.mp hi
  have hcon : s.connections[i] = con := hown _ (List.getElem_mem hlt) (by simpa using hfirst)
  have hget : s.connections[i]? = some con := by
    rw [List.getElem?_eq_getElem hlt, hcon]
  have hclient : con.IsClientMessage := .inl htype
  unfold EventState.unregister
  rw [hi]
  simp only [hget, if_pos hclient]

/-- Closing a client. -/
theorem Wired.closed (h : d.Wired) (flags : MctDaemonFlags) (hclient : d.Client fd) :
    (d.closed flags fd).Wired ∧
      (d.closed flags fd).clientFds = d.clientFds.filter (fun other => other ≠ fd) ∧
      (∀ other, (d.closed flags fd).Client other ↔ d.Client other ∧ other ≠ fd) ∧
      (d.closed flags fd).event.clientConnections = d.event.clientConnections - 1 := by
  obtain ⟨con, hmem, htype, rfl⟩ := hclient
  have hown := fun other hother => h.own con hmem other hother htype
  obtain ⟨-, hused, hconnections⟩ := closed_spec flags h.toClientsWatched hmem htype
  obtain ⟨hwatched, -, hlisted, hcurrent⟩ := (kept_shrinks flags ⟨0, .time⟩).close d con hmem htype
    h.toClientsWatched
  have hfds : (d.closed flags con.fd).fds = d.fds.filter fun other => other ≠ con.fd := by
    rw [fds, fds, hused, List.filter_map]
    rfl
  have hclients : ∀ other, (d.closed flags con.fd).Client other ↔
      d.Client other ∧ other ≠ con.fd := by
    intro other
    constructor
    · rintro ⟨found, hfound, htype', rfl⟩
      rw [hconnections, List.mem_filter] at hfound
      exact ⟨⟨found, hfound.1, htype', rfl⟩, by simpa using hfound.2⟩
    · rintro ⟨⟨found, hfound, htype', rfl⟩, hne⟩
      refine ⟨found, ?_, htype', rfl⟩
      rw [hconnections, List.mem_filter]
      exact ⟨hfound, by simpa using hne⟩
  have hcount : (d.closed flags con.fd).event.clientConnections =
      d.event.clientConnections - 1 := by
    have hpos := (clientConnections_pos h).mpr
      (List.ne_nil_of_mem ((mem_clientFds h).mpr ⟨con, hmem, htype, rfl⟩))
    have hunregister := unregister_clientConnections d.event hmem htype hown
    rw [ClientDaemon.closed]
    simp only
    omega
  refine ⟨⟨hwatched, ?_, ?_, ?_, ?_⟩, ?_, hclients, hcount⟩
  · intro other hother htype'
    rw [hconnections, List.mem_filter] at hother
    rw [hfds, List.mem_filter]
    exact ⟨h.reached other hother.1 htype', hother.2⟩
  · exact fun other hother => h.noSerial other (hlisted.mem hother)
  · have herase := countP_eraseP_fd hmem htype hown
    rw [hcount, hconnections, ← eraseP_fd h.single hmem hown, h.counted]
    omega
  · exact hcurrent ▸ h.activated
  · rw [clientFds, clientFds, hfds, List.filter_filter, List.filter_filter]
    refine List.filter_congr fun other _ => ?_
    simp only [hclients]
    by_cases hother : d.Client other <;> by_cases hne : other = con.fd <;> simp [hother, hne]

end Wiring

section Loop

variable {flags : MctDaemonFlags} {answers : Answers} {d : ClientDaemon}
variable {send : ClientMessage → ClientDaemon → Int × ClientDaemon}
variable {sub : Submission} {fd : Int} {cell : PollFd} {n i : Nat} {sent : Bool}
variable {later : List Int}

/-- An entry of no client is passed over. -/
theorem sendLoop_skip (hserial : ∀ con ∈ d.event.connections, con.type ≠ .clientMsgSerial)
    (hi : i < d.event.table.nfds)
    (hcell : d.event.table.used[i]? = some cell) (hclient : ¬ d.Client cell.fd) :
    sendLoop flags answers send d.event.current sub (n + 1) i sent d =
      sendLoop flags answers send d.event.current sub n (i + 1) sent d := by
  rw [sendLoop, if_pos hi]
  cases htarget : d.target d.event.current i with
  | none => rfl
  | some con =>
      obtain ⟨-, htype⟩ := target_other hcell hclient htarget
      rw [target_eq hcell] at htarget
      obtain ⟨hfound, hallowed⟩ := Option.filter_eq_some_iff.mp htarget
      have hmessage : con.IsClientMessage := (of_decide_eq_true hallowed).1
      exact absurd (hmessage.resolve_left htype) (hserial con (List.mem_of_find?_eq_some hfound))

/-- The message is sent to a client. -/
theorem sendLoop_client (h : d.Wired) (hi : i < d.event.table.nfds)
    (hcell : d.event.table.used[i]? = some cell) (hclient : d.Client cell.fd) :
    sendLoop flags answers send d.event.current sub (n + 1) i sent d =
      if answers.accepts sub.number cell.fd then
        sendLoop flags answers send d.event.current sub n (i + 1) true
          (d.record (.sent sub cell.fd true))
      else
        sendLoop flags answers send d.event.current sub n (i + 1) sent
          (closeSocket flags send cell.fd (d.record (.sent sub cell.fd false))) := by
  obtain ⟨con, -, htype, hfd, htarget⟩ := target_client h.toClientsWatched hcell hclient
  rw [sendLoop, if_pos hi, htarget]
  simp only [hfd]
  cases answers.accepts sub.number cell.fd with
  | true => simp
  | false => simp [htype]

/-- Behind the last client the loop does nothing. -/
theorem sendLoop_done (hformed : d.event.table.WellFormed)
    (hserial : ∀ con ∈ d.event.connections, con.type ≠ .clientMsgSerial)
    (hbehind : ∀ fd ∈ (d.event.table.used.drop i).map PollFd.fd, ¬ d.Client fd) :
    sendLoop flags answers send d.event.current sub n i sent d = (sent, d) := by
  induction n generalizing i with
  | zero => rfl
  | succ n ih =>
      by_cases hi : i < d.event.table.nfds
      · obtain ⟨cell, hcell, hdrop⟩ := used_cons hformed hi
        rw [hdrop, List.map_cons] at hbehind
        rw [sendLoop_skip hserial hi hcell (hbehind _ List.mem_cons_self)]
        exact ih fun fd hfd => hbehind fd (List.mem_cons_of_mem _ hfd)
      · rw [sendLoop, if_neg hi]

def clientsFrom (d : ClientDaemon) (i : Nat) : List Int :=
  ((d.event.table.used.drop i).map PollFd.fd).filter fun fd => d.Client fd

theorem clientsFrom_nil (h : d.clientsFrom i = []) :
    ∀ fd ∈ (d.event.table.used.drop i).map PollFd.fd, ¬ d.Client fd := by
  rw [clientsFrom, List.filter_eq_nil_iff] at h
  simpa using h

/-- The loop comes to the first client from an entry on. -/
theorem sendLoop_first (flags : MctDaemonFlags) (answers : Answers)
    (send : ClientMessage → ClientDaemon → Int × ClientDaemon) (sub : Submission) (sent : Bool)
    (h : d.Wired) (hn : d.event.table.nfds ≤ i + n)
    (hfrom : d.clientsFrom i = fd :: later) :
    ∃ n' j, d.event.table.nfds ≤ j + n' ∧ d.clientsFrom j = later ∧
      sendLoop flags answers send d.event.current sub n i sent d =
        if answers.accepts sub.number fd then
          sendLoop flags answers send d.event.current sub n' j true (d.record (.sent sub fd true))
        else
          sendLoop flags answers send d.event.current sub n' j sent
            (closeSocket flags send fd (d.record (.sent sub fd false))) := by
  have hlt : i < d.event.table.nfds := by
    by_contra hi
    rw [clientsFrom, List.drop_of_length_le] at hfrom
    · exact absurd hfrom (by simp)
    · rwa [used_length h.table, ← not_lt]
  induction n generalizing i with
  | zero => omega
  | succ n ih =>
      have hn' : d.event.table.nfds ≤ i + 1 + n := by omega
      obtain ⟨cell, hcell, hdrop⟩ := used_cons h.table hlt
      rw [clientsFrom, hdrop, List.map_cons, List.filter_cons] at hfrom
      by_cases hclient : d.Client cell.fd
      · rw [if_pos (by simpa using hclient)] at hfrom
        obtain ⟨hfirst, hlater⟩ := List.cons.inj hfrom
        refine ⟨n, i + 1, hn', hlater, ?_⟩
        rw [sendLoop_client h hlt hcell hclient, hfirst]
      · rw [if_neg (by simpa using hclient)] at hfrom
        have hlt' : i + 1 < d.event.table.nfds := by
          by_contra hi
          rw [List.drop_of_length_le] at hfrom
          · exact absurd hfrom (by simp)
          · rwa [used_length h.table, ← not_lt]
        rw [sendLoop_skip h.noSerial hlt hcell hclient]
        exact ih hn' hfrom hlt'

/-- Without a client nothing is sent. -/
theorem sendAllMultiple_none (h : d.Wired) (hnone : d.clientFds = []) :
    sendAllMultiple flags answers send sub d = (false, d) :=
  sendLoop_done h.table h.noSerial (clientsFrom_nil hnone)

/-- The message is sent to the only client. -/
theorem sendAllMultiple_single (depth : Nat) (h : d.Wired) (hnumber : sub.number < d.submissions)
    (hsingle : d.clientFds = [fd]) :
    sendAllMultiple flags answers (clientSend flags answers depth) sub d =
      if answers.accepts sub.number fd then (true, d.record (.sent sub fd true))
      else (false, closeSocket flags (clientSend flags answers depth) fd
        (d.record (.sent sub fd false))) := by
  obtain ⟨n', j, -, hlater, hloop⟩ := sendLoop_first flags answers
    (clientSend flags answers depth) sub false h (Nat.le_add_left d.event.table.nfds 0) hsingle
  have hbehind := clientsFrom_nil hlater
  rw [sendAllMultiple, hloop]
  by_cases haccepts : answers.accepts sub.number fd
  · rw [if_pos haccepts, if_pos haccepts]
    exact sendLoop_done (d := d.record (.sent sub fd true)) h.table h.noSerial hbehind
  · rw [if_neg haccepts, if_neg haccepts]
    have hclient : d.Client fd :=
      (mem_clientFds h).mp (hsingle ▸ List.mem_singleton_self fd)
    have hrecorded : (d.record (.sent sub fd false)).ClientsWatched :=
      ⟨h.table, h.once, h.active, h.own, h.single, h.allowed⟩
    obtain ⟨⟨hwatched, htable, hlisted, hcurrent⟩, -, -⟩ := closeSocket_shrinks flags answers sub
      depth hrecorded hclient hnumber
    have hcurrent' := show _ = d.event.current from hcurrent
    rw [← hcurrent']
    refine sendLoop_done hwatched.table ?_ ?_
    · exact fun con hcon => h.noSerial con (hlisted.mem hcon)
    · intro other hother hclient'
      exact hbehind other (((htable.drop j).map PollFd.fd).mem hother)
        (shrinks_client hlisted hclient')

end Loop

/-- Messages are sent directly and the first client takes them. -/
structure Streaming (fd : Int) (opened : List Submission) (d : ClientDaemon) : Prop where
  wired : d.Wired
  first : ∃ later, d.clientFds = fd :: later
  direct : d.state = .sendDirect
  empty : d.clientRingbuffer = []
  settled : d.overflowCounter = 0
  books : Books opened [] 0 d

/-- The message is neither of an application nor a report. -/
def Quiet (message : ClientMessage) : Prop :=
  ∀ number, ¬ IsApplication ⟨number, message⟩ ∧ reportCount ⟨number, message⟩ = 0

/-- No storage device keeps a message off the network. -/
def Passes (flags : MctDaemonFlags) (answers : Answers) : Prop :=
  ∀ sub : Submission, logstorageWrite sub.message (deviceWrites flags answers sub) ≠ 1

section Streaming

variable {flags : MctDaemonFlags} {answers : Answers} {d : ClientDaemon}
variable {sub : Submission} {fd : Int} {opened : List Submission}

theorem quiet_connectionInfo : Quiet .connectionInfo := fun _ => ⟨id, rfl⟩

theorem quiet_connectionClosed (sock clients : Int) : Quiet (.connectionClosed sock clients) :=
  fun _ => ⟨id, rfl⟩

/-- Another client is closed. -/
theorem Streaming.closed (h : d.Streaming fd opened) {other : Int} (hclient : d.Client other)
    (hne : other ≠ fd) : (d.closed flags other).Streaming fd opened := by
  obtain ⟨hwired, hfds, -, -⟩ := h.wired.closed flags hclient
  obtain ⟨later, hlater⟩ := h.first
  have hfirst : (d.closed flags other).clientFds =
      fd :: later.filter fun third => third ≠ other := by
    rw [hfds, hlater, List.filter_cons_of_pos (by simpa using hne.symm)]
  have hconnected : (d.closed flags other).event.clientConnections ≠ 0 := by
    have hpos := (clientConnections_pos hwired).mpr (hfirst ▸ List.cons_ne_nil _ _)
    omega
  refine ⟨hwired, ⟨_, hfirst⟩, ?_, h.empty, h.settled, h.books.congr rfl rfl rfl⟩
  exact (if_neg fun hboth => hconnected hboth.1).trans h.direct

/-- Closing a client leaves it alone who has accepted an earlier message. -/
theorem acceptedIn_closeSocket (depth : Nat) (hnumber : sub.number < d.submissions) {other : Int}
    (hclient : d.Client other) (fd : Int) :
    (sub, fd) ∈ acceptedIn (closeSocket flags (clientSend flags answers depth) other d).log ↔
      (sub, fd) ∈ acceptedIn d.log := by
  have hsame := (closeSocket_unseen (acceptedIn_sendsOnly sub) flags answers depth hclient
    hnumber).2
  have hmem : ∀ log, (sub, fd) ∈ acceptedIn log ↔
      (sub, fd) ∈ (acceptedIn log).filter fun pair => pair.1 = sub := by
    intro log
    rw [List.mem_filter]
    simp
  rw [hmem, hsame, ← hmem]

/-- A message that the first client has got is sent to the others. -/
theorem Streaming.sendLoop (depth : Nat)
    (hsend : ∀ message, Quiet message → ∀ d, d.Streaming fd opened →
      (clientSend flags answers depth message d).2.Streaming fd opened)
    (haccepts : ∀ number, answers.accepts number fd = true) (n i : Nat) (sent : Bool)
    (h : d.Streaming fd opened) (hopen : sub ∈ opened) (hsent : d.ledger.Delivered sub)
    (hnew : ∀ other ∈ (d.event.table.used.drop i).map PollFd.fd, d.Client other →
      (sub, other) ∉ acceptedIn d.log) :
    (sendLoop flags answers (clientSend flags answers depth) d.event.current sub n i sent
      d).2.Streaming fd opened := by
  induction n generalizing i sent d with
  | zero => exact h
  | succ n ih =>
      by_cases hi : i < d.event.table.nfds
      · obtain ⟨cell, hcell, hdrop⟩ := used_cons h.wired.table hi
        rw [hdrop, List.map_cons] at hnew
        have hrest := fun other hother => hnew other (List.mem_cons_of_mem _ hother)
        by_cases hclient : d.Client cell.fd
        · rw [sendLoop_client h.wired hi hcell hclient]
          by_cases haccept : answers.accepts sub.number cell.fd
          · rw [if_pos haccept]
            have honce := h.wired.count_drop hclient i
            rw [hdrop, List.map_cons] at honce
            have haccepted := acceptedIn_accepted d sub cell.fd
            have hbooks := h.books.again hopen hsent (hnew cell.fd List.mem_cons_self hclient)
              fun other hother => absurd (h.empty ▸ hother) List.not_mem_nil
            refine ih (d := d.record (.sent sub cell.fd true)) (i + 1) true
              ⟨h.wired.congr rfl, h.first, h.direct, h.empty, h.settled, hbooks⟩ ?_ ?_
            · obtain ⟨other, hother⟩ := hsent
              refine ⟨other, ?_⟩
              rw [ledger_accepted]
              exact List.mem_append_left _ hother
            · intro other hother hclient' hmem
              rw [haccepted, List.mem_append, List.mem_singleton] at hmem
              rcases hmem with hmem | hmem
              · exact hrest other hother hclient' hmem
              · obtain ⟨-, rfl⟩ := Prod.mk.inj hmem
                exact notMem_of_count_cons honce hother
          · rw [if_neg haccept]
            have hne : cell.fd ≠ fd := by
              intro hsame
              exact haccept (hsame ▸ haccepts sub.number)
            have hfailed : (d.record (.sent sub cell.fd false)).Streaming fd opened :=
              ⟨h.wired.congr rfl, h.first, h.direct, h.empty, h.settled,
                h.books.congr (ledger_failed cell.fd) rfl rfl⟩
            have hnumber : sub.number < d.submissions :=
              h.books.numbers sub (h.books.known sub hopen)
            obtain ⟨⟨-, htable, hlisted, hcurrent⟩, -, -⟩ := closeSocket_shrinks flags answers
              sub depth hfailed.wired.toClientsWatched hclient hnumber
            have haccepted : ∀ other, (sub, other) ∈ acceptedIn (closeSocket flags
                (clientSend flags answers depth) cell.fd (d.record (.sent sub cell.fd false))).log ↔
                  (sub, other) ∈ acceptedIn d.log := by
              intro other
              rw [← acceptedIn_failed d sub cell.fd]
              exact acceptedIn_closeSocket (d := d.record (.sent sub cell.fd false)) depth hnumber
                hclient other
            have hclosed : (closeSocket flags (clientSend flags answers depth) cell.fd
                (d.record (.sent sub cell.fd false))).Streaming fd opened :=
              hsend _ (quiet_connectionClosed _ _) _
                (hsend _ quiet_connectionInfo _ (hfailed.closed hclient hne))
            have hcurrent' := show _ = d.event.current from hcurrent
            rw [← hcurrent']
            refine ih (i + 1) sent hclosed ?_ ?_
            · obtain ⟨other, hother⟩ := hsent
              exact ⟨other, (haccepted other).mpr hother⟩
            · intro other hother hclient' hmem
              exact hrest other (((htable.drop (i + 1)).map PollFd.fd).mem hother)
                (shrinks_client hlisted hclient') ((haccepted other).mp hmem)
        · rw [sendLoop_skip h.wired.noSerial hi hcell hclient]
          exact ih (i + 1) sent h hsent hrest
      · rw [ClientDaemon.sendLoop, if_neg hi]
        exact h

theorem offlineSinks_passes (hpasses : Passes flags answers) (message : ClientMessage) :
    (d.offlineSinks flags answers message).1 ≠ 1 := by
  unfold offlineSinks
  simp only
  split
  · exact hpasses ⟨d.submissions, message⟩
  · decide

/-- A call in the state in which messages are sent directly. -/
theorem submit_direct (send : ClientMessage → ClientDaemon → Int × ClientDaemon)
    (hallowed : d.event.current.AllowsClient .clientMsgTcp) (hdirect : d.state = .sendDirect)
    (hpasses : Passes flags answers) (message : ClientMessage) :
    submit flags answers send message d =
      let after := (sendAllMultiple flags answers send ⟨d.submissions, message⟩
        (d.offlineSinks flags answers message).2).2
      if after.state = .buffer ∨ after.state = .sendBuffer ∨ after.state = .bufferFull then
        store answers ⟨d.submissions, message⟩ after
      else (0, reportOverflow send after) := by
  have hsend : ((d.offlineSinks flags answers message).2.event.current.AllowsClient .clientMsgTcp ∨
      (d.offlineSinks flags answers message).2.event.current.AllowsClient .clientMsgSerial) ∧
      (false = true ∨ (d.offlineSinks flags answers message).2.state = .sendDirect) ∧
      (d.offlineSinks flags answers message).1 ≠ 1 :=
    ⟨.inl hallowed, .inr hdirect, offlineSinks_passes hpasses message⟩
  unfold submit dispatch sendSockets
  simp only
  rw [if_pos hsend]
  simp

/-- No report is due. -/
theorem reportOverflow_settled (send : ClientMessage → ClientDaemon → Int × ClientDaemon)
    (h : d.overflowCounter = 0 ∨ 0 < d.sentMessageOverflowCnt) : reportOverflow send d = d := by
  unfold reportOverflow
  split
  · next hdue =>
      have hcnt : 0 < d.sentMessageOverflowCnt := h.resolve_left (Nat.pos_iff_ne_zero.mp hdue.1)
      simp only
      rw [if_pos (by omega), Nat.add_sub_cancel]
  · rfl

/-- A call whose message the first client takes. -/
theorem Streaming.call (hpasses : Passes flags answers)
    (haccepts : ∀ number, answers.accepts number fd = true) (n : Nat) {message : ClientMessage}
    (hreport : ∀ number, reportCount ⟨number, message⟩ = 0) (h : d.Streaming fd opened)
    (hsingle : IsApplication ⟨d.submissions, message⟩ → ∀ other ∈ opened, ¬ IsApplication other) :
    (clientSend flags answers n message d).2.Streaming fd opened := by
  induction n generalizing message d opened with
  | zero => exact h
  | succ n ih =>
      obtain ⟨later, hlater⟩ := h.first
      have hbooks : Books (⟨d.submissions, message⟩ :: opened) [⟨d.submissions, message⟩] 0
          (d.offlineSinks flags answers message).2 := by
        have hsinks := h.books.sinks flags answers message hsingle
        rwa [hreport] at hsinks
      have hwired : (d.offlineSinks flags answers message).2.Wired := h.wired.congr rfl
      obtain ⟨n', j, -, hbehind, hloop⟩ := sendLoop_first flags answers (clientSend flags answers n)
        ⟨d.submissions, message⟩ false hwired (Nat.le_add_left _ 0) hlater
      rw [if_pos (haccepts _)] at hloop
      have haccepted := acceptedIn_accepted (d.offlineSinks flags answers message).2
        ⟨d.submissions, message⟩ fd
      have hfirst := hbooks.first List.mem_cons_self fd fun other hother =>
        absurd (h.empty ▸ hother) List.not_mem_nil
      have hsent : (sendAllMultiple flags answers (clientSend flags answers n)
          ⟨d.submissions, message⟩ (d.offlineSinks flags answers message).2).2.Streaming fd
          (⟨d.submissions, message⟩ :: opened) := by
        rw [sendAllMultiple, hloop]
        refine Streaming.sendLoop (d := (d.offlineSinks flags answers message).2.record _) n ?_
          haccepts n' j true ⟨hwired.congr rfl, h.first, h.direct, h.empty, h.settled, hfirst⟩
          List.mem_cons_self ?_ ?_
        · intro nested hquiet d' h'
          exact ih (fun number => (hquiet number).2) h' fun happlication =>
            absurd happlication (hquiet _).1
        · refine ⟨fd, ?_⟩
          rw [ledger_accepted]
          exact List.mem_append_right _ (List.mem_singleton_self _)
        · intro other hother hclient hmem
          rw [haccepted, List.mem_append, List.mem_singleton] at hmem
          rcases hmem with hmem | hmem
          · exact (hbooks.placed.pending _ List.mem_cons_self).1 ⟨other, hmem⟩
          · obtain ⟨-, rfl⟩ := Prod.mk.inj hmem
            have hclient' : (d.offlineSinks flags answers message).2.Client other := hclient
            have hmore : other ∈ later :=
              hbehind ▸ List.mem_filter.mpr ⟨hother, decide_eq_true hclient'⟩
            exact (List.nodup_cons.mp (hlater ▸ clientFds_nodup h.wired)).1 hmore
      rw [clientSend, submit_direct _ h.wired.allowed h.direct hpasses]
      simp only
      rw [if_neg (by rw [hsent.direct]; decide), reportOverflow_settled _ (.inl hsent.settled)]
      exact ⟨hsent.wired, hsent.first, hsent.direct, hsent.empty, hsent.settled, hsent.books.close⟩

end Streaming

end ClientDaemon

end MctDaemon.Daemon
