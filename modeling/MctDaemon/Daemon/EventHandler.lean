import MctDaemon.Daemon.FilterSockets

/-!
The event handler with its whole table of descriptors (`mct_daemon_event_handler.c`):
the entries in use, the reset entries behind them, the room for more, and the count
of client connections. The table in use is the one of `FilterConnections`. Memory is
taken to be available.
-/

namespace MctDaemon.Daemon

open Lib

/-- `struct pollfd`. -/
structure PollEntry extends PollFd where
  revents : Nat
  deriving DecidableEq, Repr

def initPollFd : PollEntry := ⟨⟨-1, 0⟩, 0⟩

/-- The entries that are allocated, and the counts `nfds` and `max_nfds`. -/
structure PollTable where
  pfd : List PollEntry
  nfds : Nat
  maxNfds : Nat
  deriving DecidableEq, Repr

namespace PollTable

def baseFd : Nat := 16

/-- `mct_daemon_prepare_event_handling`. -/
def prepare : PollTable := ⟨List.replicate baseFd initPollFd, 0, baseFd⟩

def used (table : PollTable) : List PollFd :=
  (table.pfd.take table.nfds).map PollEntry.toPollFd

/-- The part of `mct_event_handler_enable_fd` that doubles the table. -/
def grow (table : PollTable) : PollTable :=
  if table.maxNfds ≤ table.nfds then
    let max := 2 * table.maxNfds
    { table with
      pfd := table.pfd.take table.nfds ++ List.replicate (max - table.nfds) initPollFd
      maxNfds := max }
  else table

/-- `mct_event_handler_enable_fd`. -/
def enable (table : PollTable) (fd : Int) (mask : Nat) : PollTable :=
  let table := table.grow
  { table with
    pfd := table.pfd.modify table.nfds fun entry => { entry with fd := fd, events := mask }
    nfds := table.nfds + 1 }

/-- An entry with the descriptor is reset, and the entries are taken from one
further behind. -/
def clearMatch (fd : Int) (i j : Nat) (table : PollTable) : Nat × PollTable :=
  if (table.pfd[i]?.map fun entry => entry.fd) = some fd then
    (j + 1, { table with pfd := table.pfd.set i initPollFd, nfds := table.nfds - 1 })
  else (j, table)

def compress (i j : Nat) (table : PollTable) : PollTable :=
  if i = j then table
  else if i < table.nfds then
    { table with pfd := table.pfd.set i (table.pfd[j]?.getD initPollFd) }
  else { table with pfd := table.pfd.set i initPollFd }

/-- The loop of `mct_event_handler_disable_fd` with so many entries to go. -/
def disableLoop (fd : Int) : Nat → Nat → Nat → PollTable → PollTable
  | 0, _, _, table => table
  | n + 1, i, j, table =>
      let (j, table) := clearMatch fd i j table
      disableLoop fd n (i + 1) (j + 1) (compress i j table)

/-- `mct_event_handler_disable_fd`. -/
def disable (table : PollTable) (fd : Int) : PollTable :=
  disableLoop fd table.nfds 0 0 table

/-- The entries behind those in use are reset, and there is room for all. -/
structure WellFormed (table : PollTable) : Prop where
  room : table.nfds ≤ table.maxNfds
  base : 0 < table.maxNfds
  allocated : table.pfd.length = table.maxNfds
  reset : ∀ entry ∈ table.pfd.drop table.nfds, entry = initPollFd

section Table

variable {table : PollTable}

theorem prepare_wellFormed : prepare.WellFormed where
  room := Nat.zero_le _
  base := by decide
  allocated := List.length_replicate
  reset := fun _ hmem => List.eq_of_mem_replicate (List.mem_of_mem_drop hmem)

/-- What stands behind the entries in use. -/
theorem WellFormed.split (h : table.WellFormed) :
    table.pfd = table.pfd.take table.nfds ++
      List.replicate (table.maxNfds - table.nfds) initPollFd := by
  have hrest : table.pfd.drop table.nfds =
      List.replicate (table.maxNfds - table.nfds) initPollFd := by
    rw [List.eq_replicate_iff]
    exact ⟨by rw [List.length_drop, h.allocated], h.reset⟩
  rw [← hrest, List.take_append_drop]

theorem WellFormed.length_take (h : table.WellFormed) :
    (table.pfd.take table.nfds).length = table.nfds := by
  rw [List.length_take, h.allocated, Nat.min_eq_left h.room]

/-- A table is given by the entries in use and the room behind them. -/
theorem wellFormed_of_split {inUse : List PollEntry} {n maxNfds : Nat} (hbase : 0 < maxNfds)
    (hroom : inUse.length + n = maxNfds) :
    WellFormed ⟨inUse ++ List.replicate n initPollFd, inUse.length, maxNfds⟩ where
  room := by
    have hle := Nat.le_add_right inUse.length n
    rwa [hroom] at hle
  base := hbase
  allocated := by rw [List.length_append, List.length_replicate, hroom]
  reset := by
    intro entry hmem
    rw [List.drop_left] at hmem
    exact List.eq_of_mem_replicate hmem

theorem grow_split (h : table.WellFormed) :
    table.grow.nfds = table.nfds ∧ table.grow.nfds < table.grow.maxNfds ∧
      table.grow.pfd = table.pfd.take table.nfds ++
        List.replicate (table.grow.maxNfds - table.nfds) initPollFd := by
  have hbase := h.base
  unfold grow
  split
  · refine ⟨rfl, ?_, rfl⟩
    have hroom := h.room
    simp only
    omega
  · next hroom => exact ⟨rfl, not_le.mp hroom, h.split⟩

theorem modify_behind {ε : Type*} (front : List ε) (x : ε) (rest : List ε) (f : ε → ε) :
    (front ++ x :: rest).modify front.length f = front ++ f x :: rest := by
  induction front with
  | nil => rfl
  | cons y front ih =>
      rw [List.cons_append, List.length_cons, List.modify_succ_cons, ih, List.cons_append]

/-- Enabling a descriptor appends it. -/
theorem enable_spec (h : table.WellFormed) (fd : Int) (mask : Nat) :
    (table.enable fd mask).WellFormed ∧
      (table.enable fd mask).used = enableFd table.used fd mask := by
  obtain ⟨hnfds, hroom, hpfd⟩ := grow_split h
  have hlength := h.length_take
  rw [hnfds] at hroom
  have hone : table.grow.maxNfds - table.nfds = table.grow.maxNfds - table.nfds - 1 + 1 := by omega
  have hsplit : table.enable fd mask =
      ⟨table.pfd.take table.nfds ++ [⟨⟨fd, mask⟩, 0⟩] ++
        List.replicate (table.grow.maxNfds - table.nfds - 1) initPollFd,
        (table.pfd.take table.nfds ++ [(⟨⟨fd, mask⟩, 0⟩ : PollEntry)]).length,
        table.grow.maxNfds⟩ := by
    have hmodify := modify_behind (table.pfd.take table.nfds) initPollFd
      (List.replicate (table.grow.maxNfds - table.nfds - 1) initPollFd)
      (fun entry => { entry with fd := fd, events := mask })
    rw [hlength] at hmodify
    unfold enable
    simp only [hnfds, hpfd]
    rw [hone, List.replicate_succ, hmodify, List.length_append, hlength, List.append_assoc]
    rfl
  have hbase : 0 < table.grow.maxNfds := by omega
  rw [hsplit]
  refine ⟨wellFormed_of_split hbase ?_, ?_⟩
  · rw [List.length_append, hlength, List.length_singleton]
    omega
  · rw [used, List.take_left', List.map_append]
    · rfl
    · rfl

/-- The rest of the loop behind a match: every entry is overwritten with the next
one, and the last one is reset. -/
theorem disableLoop_behind {fd : Int} (pending : List PollEntry)
    (habsent : ∀ entry ∈ pending, entry.fd ≠ fd) (done : List PollEntry) (cell : PollEntry)
    (tail : List PollEntry) (maxNfds : Nat) :
    disableLoop fd pending.length (done.length + 1) (done.length + 2)
        (compress done.length (done.length + 1)
          ⟨done ++ cell :: (pending ++ tail), done.length + pending.length, maxNfds⟩) =
      ⟨done ++ pending ++ initPollFd :: tail, done.length + pending.length, maxNfds⟩ := by
  induction pending generalizing done cell with
  | nil =>
      rw [compress, if_neg (Nat.ne_of_lt (Nat.lt_succ_self _))]
      simp [disableLoop]
  | cons next pending ih =>
      have hnext := habsent next List.mem_cons_self
      have hcompress : compress done.length (done.length + 1)
          ⟨done ++ cell :: (next :: pending ++ tail), done.length + (next :: pending).length,
            maxNfds⟩ =
          ⟨(done ++ [next]) ++ next :: (pending ++ tail),
            (done ++ [next]).length + pending.length, maxNfds⟩ := by
        rw [compress, if_neg (Nat.ne_of_lt (Nat.lt_succ_self _)), if_pos (by simp)]
        simp
        omega
      have hrest := ih (fun entry hmem => habsent entry (List.mem_cons_of_mem _ hmem))
        (done ++ [next]) next
      have hlength : (done ++ [next]).length = done.length + 1 := by simp
      have hkept : clearMatch fd (done.length + 1) (done.length + 2)
          ⟨done ++ [next] ++ next :: (pending ++ tail), done.length + 1 + pending.length, maxNfds⟩ =
          (done.length + 2,
            ⟨done ++ [next] ++ next :: (pending ++ tail), done.length + 1 + pending.length,
              maxNfds⟩) := by
        have hget :
            (done ++ [next] ++ next :: (pending ++ tail))[done.length + 1]? = some next := by
          rw [List.getElem?_append_right (le_of_eq hlength), hlength, Nat.sub_self]
          rfl
        rw [clearMatch, hget, if_neg (by simpa using hnext)]
      rw [hlength] at hcompress hrest
      rw [hcompress, List.length_cons, disableLoop, hkept]
      simp only
      rw [hrest, List.append_assoc done, List.singleton_append, Nat.add_assoc, Nat.add_comm 1]

/-- The loop up to a match changes nothing. -/
theorem disableLoop_absent {fd : Int} (pending : List PollEntry)
    (habsent : ∀ entry ∈ pending, entry.fd ≠ fd) (done rest : List PollEntry)
    (n nfds maxNfds : Nat) :
    disableLoop fd (pending.length + n) done.length done.length
        ⟨done ++ (pending ++ rest), nfds, maxNfds⟩ =
      disableLoop fd n (done ++ pending).length (done ++ pending).length
        ⟨done ++ pending ++ rest, nfds, maxNfds⟩ := by
  induction pending generalizing done with
  | nil => simp
  | cons next pending ih =>
      have hnext := habsent next List.mem_cons_self
      have hget : (done ++ (next :: pending ++ rest))[done.length]? = some next := by
        rw [List.getElem?_append_right (le_refl _), Nat.sub_self]
        rfl
      have hkept : clearMatch fd done.length done.length
          ⟨done ++ (next :: pending ++ rest), nfds, maxNfds⟩ =
          (done.length, ⟨done ++ (next :: pending ++ rest), nfds, maxNfds⟩) := by
        rw [clearMatch, hget, if_neg (by simpa using hnext)]
      have hrest := ih (fun entry hmem => habsent entry (List.mem_cons_of_mem _ hmem))
        (done ++ [next])
      have hcount : (next :: pending).length + n = pending.length + n + 1 := by
        rw [List.length_cons]
        omega
      rw [hcount, disableLoop, hkept]
      simp only [compress, if_true]
      have hlength : (done ++ [next]).length = done.length + 1 := by simp
      rw [hlength] at hrest
      simpa [List.append_assoc] using hrest

/-- Disabling a descriptor that is watched once takes it out and keeps the order of
the others. -/
theorem disable_spec (h : table.WellFormed) {fd : Int}
    (hcount : (table.used.map PollFd.fd).count fd ≤ 1) :
    (table.disable fd).WellFormed ∧
      (table.disable fd).used = table.used.filter fun cell => cell.fd ≠ fd := by
  have hlength := h.length_take
  have hsplit := h.split
  have hbase := h.base
  have hroom := h.room
  obtain ⟨pfd, nfds, maxNfds⟩ := table
  simp only at hlength hsplit hbase hroom
  simp only [used, disable] at hcount ⊢
  generalize hinUse : pfd.take nfds = inUse at hlength hsplit hcount ⊢
  subst hlength
  rw [hsplit]
  have hstart := fun pending rest (habsent : ∀ entry ∈ pending, entry.fd ≠ fd) n =>
    disableLoop_absent pending habsent [] rest n inUse.length maxNfds
  simp only [List.nil_append, List.length_nil] at hstart
  by_cases hmem : ∃ entry ∈ inUse, entry.fd = fd
  · obtain ⟨entry, hentry, hfd⟩ := hmem
    obtain ⟨front, back, rfl⟩ := List.append_of_mem hentry
    have hothers : (∀ other ∈ front, other.fd ≠ fd) ∧ ∀ other ∈ back, other.fd ≠ fd := by
      rw [List.map_append, List.map_append, List.map_cons, List.map_cons, List.count_append, hfd,
        List.count_cons_self] at hcount
      have habsent : ∀ entries : List PollEntry,
          ((entries.map PollEntry.toPollFd).map PollFd.fd).count fd = 0 →
            ∀ other ∈ entries, other.fd ≠ fd := by
        intro entries hnone other hother hsame
        refine List.count_eq_zero.mp hnone ?_
        rw [← hsame]
        exact List.mem_map_of_mem (List.mem_map_of_mem hother)
      exact ⟨habsent front (by omega), habsent back (by omega)⟩
    obtain ⟨hfront, hback⟩ := hothers
    have hloop : disableLoop fd (front ++ entry :: back).length 0 0
        ⟨front ++ entry :: back ++ List.replicate (maxNfds - (front ++ entry :: back).length)
          initPollFd, (front ++ entry :: back).length, maxNfds⟩ =
        ⟨front ++ back ++ List.replicate (maxNfds - (front ++ entry :: back).length + 1) initPollFd,
          (front ++ back).length, maxNfds⟩ := by
      rw [List.replicate_succ]
      generalize List.replicate (maxNfds - (front ++ entry :: back).length) initPollFd = tail
      have hfirst := hstart front (entry :: (back ++ tail)) hfront (back.length + 1)
      have hsecond := disableLoop_behind back hback front initPollFd tail maxNfds
      have hclear : clearMatch fd front.length front.length
          ⟨front ++ entry :: (back ++ tail), (front ++ entry :: back).length, maxNfds⟩ =
          (front.length + 1,
            ⟨front ++ initPollFd :: (back ++ tail), front.length + back.length, maxNfds⟩) := by
        have hget : (front ++ entry :: (back ++ tail))[front.length]? = some entry := by
          rw [List.getElem?_append_right (le_refl _), Nat.sub_self]
          rfl
        rw [clearMatch, hget, if_pos (by simp [hfd])]
        simp
      rw [disableLoop, hclear] at hfirst
      simp only at hfirst
      rw [hsecond] at hfirst
      have hcount : (front ++ entry :: back).length = front.length + (back.length + 1) := by simp
      rw [hcount] at hfirst ⊢
      rw [List.append_assoc front, List.cons_append, hfirst, List.length_append]
    have hroom' : (front ++ back).length + (maxNfds - (front ++ entry :: back).length + 1) =
        maxNfds := by
      simp only [List.length_append, List.length_cons] at hroom ⊢
      omega
    rw [hloop]
    refine ⟨wellFormed_of_split hbase hroom', ?_⟩
    rw [List.take_left, List.map_append, List.map_append, List.filter_append, List.map_cons,
      List.filter_cons_of_neg (by simpa using hfd)]
    have hkeep : ∀ entries : List PollEntry, (∀ other ∈ entries, other.fd ≠ fd) →
        (entries.map PollEntry.toPollFd).filter (fun cell => cell.fd ≠ fd) =
          entries.map PollEntry.toPollFd := by
      intro entries habsent
      rw [List.filter_eq_self]
      intro cell hcell
      obtain ⟨other, hother, rfl⟩ := List.mem_map.mp hcell
      simpa using habsent other hother
    rw [hkeep front hfront, hkeep back hback]
  · have habsent : ∀ entry ∈ inUse, entry.fd ≠ fd :=
    fun entry hentry hfd => hmem ⟨entry, hentry, hfd⟩
    have hloop := hstart inUse (List.replicate (maxNfds - inUse.length) initPollFd) habsent 0
    rw [Nat.add_zero, disableLoop] at hloop
    rw [hloop]
    refine ⟨wellFormed_of_split hbase (by omega), ?_⟩
    rw [List.take_left, List.filter_eq_self.mpr]
    intro cell hcell
    obtain ⟨entry, hentry, rfl⟩ := List.mem_map.mp hcell
    simpa using habsent entry hentry

end Table

end PollTable

/-- `mct_connection_check_activate` with the whole table. -/
def checkActivate (table : PollTable) (con : MctConnection) (current : MctFilterConfiguration)
    (activation : MctConnectionStatus) : Int × PollTable × MctConnection :=
  match con.status with
  | .active =>
      if isConnectionAllowed current con.type.code = 0 ∨ activation = .deactivate then
        (0, table.disable con.fd,
          { con with
            fd := if con.type = .clientConnect then -1 else con.fd
            status := .inactive })
      else (0, table, con)
  | .inactive =>
      if 0 < isConnectionAllowed current con.type.code ∧ activation = .activate then
        (0, table.enable con.fd con.evMask, { con with status := .active })
      else (0, table, con)
  | _ => (-1, table, con)

/-- The event handler, the count of client connections and the current filter
configuration. -/
structure EventState where
  table : PollTable
  connections : List MctConnection
  clientConnections : Int
  current : MctFilterConfiguration
  deriving DecidableEq, Repr

/-- A descriptor begins or ceases to be watched for a connection. -/
inductive FdEvent where
  | activated (fd : Int)
  | deactivated (fd : Int)
  deriving DecidableEq, Repr

/-- A call for the event handler, a change of the filter, or the answer of `poll`. -/
inductive EventOp where
  | register (con : MctConnection) (mask : Nat)
  | unregister (fd : Int)
  | checkActivate (i : Nat) (activation : MctConnectionStatus)
  | setFilter (conf : MctFilterConfiguration)
  | poll (revents : Nat → Nat)

/-- What becomes of a connection. -/
def fdEvents (before after : MctConnection) : List FdEvent :=
  if before.status ≠ .active ∧ after.status = .active then [.activated after.fd]
  else if before.status = .active ∧ after.status ≠ .active then [.deactivated before.fd]
  else []

/-- The descriptors that are watched after the events, in the order in which that
began. -/
def activationOrder (events : List FdEvent) : List Int :=
  events.foldl (fun order event =>
    match event with
    | .activated fd => order ++ [fd]
    | .deactivated fd => order.erase fd) []

def MctConnection.IsClientMessage (con : MctConnection) : Prop :=
  con.type = .clientMsgTcp ∨ con.type = .clientMsgSerial

instance (con : MctConnection) : Decidable con.IsClientMessage :=
  inferInstanceAs (Decidable (_ ∨ _))

namespace EventState

/-- The event handler when it is prepared. -/
def prepare (current : MctFilterConfiguration) : EventState := ⟨.prepare, [], 0, current⟩

/-- `mct_event_handler_register_connection`. -/
def register (s : EventState) (con : MctConnection) (mask : Nat) : List FdEvent × EventState :=
  let con := { con with status := .inactive, evMask := mask }
  let (_, table, after) := checkActivate s.table con s.current .activate
  (fdEvents con after,
    { s with
      table := table
      connections := s.connections ++ [after]
      clientConnections := s.clientConnections + if con.IsClientMessage then 1 else 0 })

/-- `mct_event_handler_unregister_connection`. -/
def unregister (s : EventState) (fd : Int) : List FdEvent × EventState :=
  match s.connections.findIdx? fun con => con.fd = fd with
  | none => ([], s)
  | some i =>
      match s.connections[i]? with
      | none => ([], s)
      | some con =>
          let clientConnections :=
            if con.IsClientMessage then max 0 (s.clientConnections - 1) else s.clientConnections
          let (_, table, after) := checkActivate s.table con s.current .deactivate
          (fdEvents con after,
            { s with
              table := table
              connections := s.connections.eraseIdx i
              clientConnections := clientConnections })

/-- `mct_connection_check_activate` for the connection at this position. -/
def checkActivateAt (s : EventState) (i : Nat) (activation : MctConnectionStatus) :
    List FdEvent × EventState :=
  match s.connections[i]? with
  | none => ([], s)
  | some con =>
      let (_, table, after) := checkActivate s.table con s.current activation
      (fdEvents con after, { s with table := table, connections := s.connections.set i after })

/-- `poll` answers for the entries in use. -/
def poll (s : EventState) (revents : Nat → Nat) : EventState :=
  { s with table := { s.table with
      pfd := s.table.pfd.mapIdx fun i entry =>
        if i < s.table.nfds then { entry with revents := revents i } else entry } }

def step (s : EventState) : EventOp → List FdEvent × EventState
  | .register con mask => s.register con mask
  | .unregister fd => s.unregister fd
  | .checkActivate i activation => s.checkActivateAt i activation
  | .setFilter conf => ([], { s with current := conf })
  | .poll revents => ([], s.poll revents)

def activeFds (connections : List MctConnection) : List Int :=
  (connections.filter fun con => con.status = .active).map MctConnection.fd

/-- The books of the event handler agree with its connections: the entries in use are
the descriptors of the active connections in the order in which they were activated,
the entries behind are reset, and the clients are counted. -/
structure Bookkept (events : List FdEvent) (s : EventState) : Prop where
  table : s.table.WellFormed
  order : s.table.used.map PollFd.fd = activationOrder events
  active : (activationOrder events).Perm (activeFds s.connections)
  distinct : (activationOrder events).Nodup
  clients : s.clientConnections = s.connections.countP MctConnection.IsClientMessage

/-- A connection is activated only if no active one has its descriptor. -/
def Undisputed (s : EventState) : EventOp → Prop
  | .register con _ => con.fd ∉ activeFds s.connections
  | .checkActivate i activation => ∀ con ∈ s.connections[i]?, con.status = .inactive →
      activation = .activate → con.fd ∉ activeFds s.connections
  | _ => True

instance (s : EventState) (op : EventOp) : Decidable (Undisputed s op) :=
  match op with
  | .register _ _ => inferInstanceAs (Decidable (_ ∉ _))
  | .checkActivate i _ => inferInstanceAs (Decidable (∀ con ∈ s.connections[i]?, _ → _ → _ ∉ _))
  | .unregister _ => inferInstanceAs (Decidable True)
  | .setFilter _ => inferInstanceAs (Decidable True)
  | .poll _ => inferInstanceAs (Decidable True)

section Steps

variable {s : EventState} {events : List FdEvent}

/-- What a call of `checkActivate` does to the table and to the connection. -/
inductive Checked (table : PollTable) (con : MctConnection) (activation : MctConnectionStatus)
    (table' : PollTable) (after : MctConnection) : Prop where
  | kept (htable : table' = table) (hcon : after = con)
  | enabled (hstatus : con.status = .inactive) (hactivation : activation = .activate)
      (hcon : after = { con with status := .active })
      (htable : table' = table.enable con.fd con.evMask)
  | disabled (hstatus : con.status = .active) (hafter : after.status = .inactive)
      (htype : after.type = con.type) (htable : table' = table.disable con.fd)

theorem checkActivate_cases (table : PollTable) (con : MctConnection)
    (current : MctFilterConfiguration) (activation : MctConnectionStatus) :
    Checked table con activation (checkActivate table con current activation).2.1
      (checkActivate table con current activation).2.2 := by
  unfold checkActivate
  split
  · next hstatus =>
      split
      · exact .disabled hstatus rfl rfl rfl
      · exact .kept rfl rfl
  · next hstatus =>
      split
      · next hallowed => exact .enabled hstatus hallowed.2 rfl rfl
      · exact .kept rfl rfl
  · exact .kept rfl rfl

theorem checkActivate_deactivate (table : PollTable) (con : MctConnection)
    (current : MctFilterConfiguration) :
    (checkActivate table con current .deactivate).2.2.status ≠ .active := by
  unfold checkActivate
  split
  · rw [if_pos (.inr rfl)]
    exact fun hactive => nomatch hactive
  · next hstatus =>
      rw [if_neg fun hboth => nomatch hboth.2]
      exact fun hactive => nomatch hstatus.symm.trans hactive
  · next hactive _ => exact hactive

theorem Checked.type_eq {table table' : PollTable} {con after : MctConnection}
    {activation : MctConnectionStatus} (h : Checked table con activation table' after) :
    after.type = con.type := by
  cases h with
  | kept htable hcon => rw [hcon]
  | enabled hstatus hactivation hcon htable => rw [hcon]
  | disabled hstatus hafter htype htable => exact htype

theorem activeFds_cons_active {con : MctConnection} (h : con.status = .active)
    (others : List MctConnection) : activeFds (con :: others) = con.fd :: activeFds others := by
  rw [activeFds, List.filter_cons_of_pos (by simpa using h)]
  rfl

theorem activeFds_cons_inactive {con : MctConnection} (h : con.status ≠ .active)
    (others : List MctConnection) : activeFds (con :: others) = activeFds others := by
  rw [activeFds, List.filter_cons_of_neg (by simpa using h)]
  rfl

theorem activeFds_perm {cons others : List MctConnection} (h : cons.Perm others) :
    (activeFds cons).Perm (activeFds others) :=
  (h.filter _).map _

theorem activationOrder_append (events : List FdEvent) (event : FdEvent) :
    activationOrder (events ++ [event]) =
      match event with
      | .activated fd => activationOrder events ++ [fd]
      | .deactivated fd => (activationOrder events).erase fd := by
  rw [activationOrder, List.foldl_append]
  rfl

/-- The books stay right when a connection is checked, one that is listed or one that
is about to be. -/
theorem Bookkept.checked (h : Bookkept events s) {con after : MctConnection}
    {others : List MctConnection}
    (hlisted : (activeFds s.connections).Perm (activeFds (con :: others)))
    {activation : MctConnectionStatus} {table' : PollTable}
    (hchecked : Checked s.table con activation table' after)
    (hfree : con.status = .inactive → activation = .activate →
      con.fd ∉ activeFds s.connections) :
    table'.WellFormed ∧
      table'.used.map PollFd.fd = activationOrder (events ++ fdEvents con after) ∧
      (activationOrder (events ++ fdEvents con after)).Perm (activeFds (after :: others)) ∧
      (activationOrder (events ++ fdEvents con after)).Nodup := by
  have hactive := h.active.trans hlisted
  cases hchecked with
  | kept htable hcon =>
      subst htable hcon
      have hnone : fdEvents after after = [] := by simp [fdEvents]
      rw [hnone, List.append_nil]
      exact ⟨h.table, h.order, hactive, h.distinct⟩
  | enabled hstatus hactivation hcon htable =>
      subst htable hcon
      obtain ⟨hformed, hused⟩ := PollTable.enable_spec h.table con.fd con.evMask
      have hevent : fdEvents con { con with status := .active } = [.activated con.fd] := by
        simp [fdEvents, hstatus]
      have hnew : con.fd ∉ activationOrder events :=
        fun hmem => hfree hstatus hactivation (h.active.mem_iff.mp hmem)
      rw [activeFds_cons_inactive (by simp [hstatus])] at hactive
      rw [hevent, activationOrder_append]
      refine ⟨hformed, ?_, ?_, ?_⟩
      · rw [hused, enableFd, List.map_append, h.order]
        rfl
      · rw [activeFds_cons_active rfl]
        exact (List.perm_append_singleton _ _).trans (hactive.cons _)
      · rw [List.nodup_append]
        refine ⟨h.distinct, List.nodup_singleton _, ?_⟩
        intro fd hfd other hother hsame
        rw [List.mem_singleton] at hother
        exact hnew (hother ▸ hsame ▸ hfd)
  | disabled hstatus hafter htype htable =>
      subst htable
      have hnodup : (s.table.used.map PollFd.fd).Nodup := h.order ▸ h.distinct
      obtain ⟨hformed, hused⟩ :=
        PollTable.disable_spec h.table (List.nodup_iff_count_le_one.mp hnodup con.fd)
      have hevent : fdEvents con after = [.deactivated con.fd] := by
        simp [fdEvents, hstatus, hafter]
      rw [activeFds_cons_active hstatus] at hactive
      rw [hevent, activationOrder_append]
      refine ⟨hformed, ?_, ?_, h.distinct.erase _⟩
      · simp only
        rw [hused, h.distinct.erase_eq_filter, ← h.order, List.filter_map]
        refine congrArg _ (List.filter_congr ?_)
        intro cell _
        simp only [Function.comp_apply, bne, decide_not]
        rfl
      · rw [activeFds_cons_inactive (by simp [hafter])]
        simpa using hactive.erase con.fd

theorem countP_cons_client {con after : MctConnection} (htype : after.type = con.type)
    (others : List MctConnection) :
    ((after :: others).countP MctConnection.IsClientMessage : Int) =
      others.countP MctConnection.IsClientMessage + if con.IsClientMessage then 1 else 0 := by
  have hclient : after.IsClientMessage ↔ con.IsClientMessage := by
    unfold MctConnection.IsClientMessage
    rw [htype]
  rw [List.countP_cons]
  push_cast
  simp only [decide_eq_true_eq, hclient]

theorem Bookkept.register (h : Bookkept events s) (con : MctConnection) (mask : Nat)
    (hfree : con.fd ∉ activeFds s.connections) :
    Bookkept (events ++ (s.register con mask).1) (s.register con mask).2 := by
  have hcases := checkActivate_cases s.table { con with status := .inactive, evMask := mask }
    s.current .activate
  have hlisted : activeFds ({ con with status := .inactive, evMask := mask } :: s.connections) =
      activeFds s.connections := activeFds_cons_inactive (by simp) _
  obtain ⟨htable, horder, hactive, hdistinct⟩ :=
    h.checked (List.Perm.of_eq hlisted.symm) hcases fun _ _ => hfree
  refine ⟨htable, horder, ?_, hdistinct, ?_⟩
  · exact hactive.trans (activeFds_perm (List.perm_append_singleton _ _).symm)
  · have hcount := countP_cons_client hcases.type_eq s.connections
    rw [← (List.perm_append_singleton _ s.connections).countP_eq, ← h.clients] at hcount
    exact hcount.symm

theorem Bookkept.checkActivateAt (h : Bookkept events s) (i : Nat)
    (activation : MctConnectionStatus)
    (hfree : Undisputed s (.checkActivate i activation)) :
    Bookkept (events ++ (s.checkActivateAt i activation).1) (s.checkActivateAt i activation).2 := by
  unfold EventState.checkActivateAt
  cases hget : s.connections[i]? with
  | none =>
      rw [List.append_nil]
      exact h
  | some con =>
      obtain ⟨hlt, hcon⟩ := List.getElem?_eq_some_iff.mp hget
      have hsplit : (con :: s.connections.eraseIdx i).Perm s.connections :=
        hcon ▸ List.getElem_cons_eraseIdx_perm hlt
      have hcases := checkActivate_cases s.table con s.current activation
      obtain ⟨htable, horder, hactive, hdistinct⟩ :=
        h.checked (activeFds_perm hsplit.symm) hcases (hfree con hget)
      have hset := List.set_perm_cons_eraseIdx hlt
        (checkActivate s.table con s.current activation).2.2
      refine ⟨htable, horder, hactive.trans (activeFds_perm hset.symm), hdistinct, ?_⟩
      rw [hset.countP_eq, countP_cons_client hcases.type_eq, ← countP_cons_client rfl,
        hsplit.countP_eq]
      exact h.clients

theorem Bookkept.unregister (h : Bookkept events s) (fd : Int) :
    Bookkept (events ++ (s.unregister fd).1) (s.unregister fd).2 := by
  unfold EventState.unregister
  cases hfind : s.connections.findIdx? fun con => con.fd = fd with
  | none =>
      rw [List.append_nil]
      exact h
  | some i =>
      simp only
      cases hget : s.connections[i]? with
      | none =>
          rw [List.append_nil]
          exact h
      | some con =>
          obtain ⟨hlt, hcon⟩ := List.getElem?_eq_some_iff.mp hget
          have hsplit : (con :: s.connections.eraseIdx i).Perm s.connections :=
            hcon ▸ List.getElem_cons_eraseIdx_perm hlt
          have hcases := checkActivate_cases s.table con s.current .deactivate
          obtain ⟨htable, horder, hactive, hdistinct⟩ :=
            h.checked (activeFds_perm hsplit.symm) hcases
              fun _ hactivation => nomatch hactivation
          rw [activeFds_cons_inactive (checkActivate_deactivate _ _ _)] at hactive
          refine ⟨htable, horder, hactive, hdistinct, ?_⟩
          have hclients := h.clients
          rw [← hsplit.countP_eq, countP_cons_client rfl] at hclients
          simp only
          split
          · next hclient =>
              rw [if_pos hclient] at hclients
              omega
          · next hclient =>
              rw [if_neg hclient, add_zero] at hclients
              exact hclients

/-- `poll` changes only what it answers for the entries in use. -/
theorem Bookkept.poll (h : Bookkept events s) (revents : Nat → Nat) :
    Bookkept events (s.poll revents) := by
  have hused : (s.poll revents).table.used = s.table.used := by
    refine List.ext_getElem? fun i => ?_
    simp only [EventState.poll, PollTable.used, List.getElem?_map, List.getElem?_take,
      List.getElem?_mapIdx]
    split
    · next hlt =>
        cases s.table.pfd[i]? with
        | none => rfl
        | some entry => simp
    · rfl
  have hformed : (s.poll revents).table.WellFormed := by
    refine ⟨h.table.room, h.table.base, List.length_mapIdx.trans h.table.allocated, ?_⟩
    intro entry hmem
    obtain ⟨k, hk⟩ := List.mem_iff_getElem?.mp hmem
    simp only [EventState.poll, List.getElem?_drop, List.getElem?_mapIdx,
      Option.map_eq_some_iff] at hk
    obtain ⟨other, hother, hentry⟩ := hk
    rw [if_neg (by omega)] at hentry
    refine h.table.reset entry (List.mem_iff_getElem?.mpr ⟨k, ?_⟩)
    rw [List.getElem?_drop, hother, hentry]
  exact ⟨hformed, hused ▸ h.order, h.active, h.distinct, h.clients⟩

theorem Bookkept.step (h : Bookkept events s) (op : EventOp) (hop : Undisputed s op) :
    Bookkept (events ++ (s.step op).1) (s.step op).2 := by
  cases op with
  | register con mask => exact h.register con mask hop
  | unregister fd => exact h.unregister fd
  | checkActivate i activation => exact h.checkActivateAt i activation hop
  | setFilter conf =>
      rw [EventState.step, List.append_nil]
      exact ⟨h.table, h.order, h.active, h.distinct, h.clients⟩
  | poll revents =>
      rw [EventState.step, List.append_nil]
      exact h.poll revents

end Steps

section EntriesInUse

variable {s : EventState} {events : List FdEvent} {d : MctDaemonLocal} {table : PollTable}

/-- A descriptor that is watched once is disabled in the list of the entries in use as it is in
the whole table. -/
theorem used_disable (h : table.WellFormed) (honce : (table.used.map PollFd.fd).Nodup)
    (fd : Int) : (table.disable fd).used = disableFd table.used fd := by
  obtain ⟨-, hused⟩ := PollTable.disable_spec h (List.nodup_iff_count_le_one.mp honce fd)
  rw [hused, disableFd_eq_filter honce]

theorem checkActivate_used (h : table.WellFormed) (honce : (table.used.map PollFd.fd).Nodup)
    (con : MctConnection) (current : MctFilterConfiguration) (activation : MctConnectionStatus) :
    let checked := checkActivate table con current activation
    connectionCheckActivate table.used con current activation =
      (checked.1, checked.2.1.used, checked.2.2) := by
  simp only [checkActivate, connectionCheckActivate]
  cases con.status with
  | active =>
      by_cases hdown : isConnectionAllowed current con.type.code = 0 ∨ activation = .deactivate
      · simp only [if_pos hdown, used_disable h honce]
      · simp only [if_neg hdown]
  | inactive =>
      by_cases hup : 0 < isConnectionAllowed current con.type.code ∧ activation = .activate
      · simp only [if_pos hup, (PollTable.enable_spec h con.fd con.evMask).2]
      · simp only [if_neg hup]
  | _ => rfl

/-- The event handler of `FilterConnections`, which has the entries in use only. -/
def handler (s : EventState) : MctEventHandler := ⟨s.table.used, s.connections⟩

/-- A connection that is registered in both models of the event handler. -/
theorem Bookkept.handler_register (h : Bookkept events s) (hevent : d.pEvent = s.handler)
    (hcurrent : d.pFilter.current = s.current) (con : MctConnection) (mask : Nat) :
    (d.registerConnection con mask).2.pEvent = (s.register con mask).2.handler := by
  have honce : (s.table.used.map PollFd.fd).Nodup := h.order ▸ h.distinct
  simp only [MctDaemonLocal.registerConnection, EventState.register, handler, hevent, hcurrent,
    checkActivate_used h.table honce]

/-- A connection that is checked in both models of the event handler. -/
theorem Bookkept.handler_checkActivateAt (h : Bookkept events s) (hevent : d.pEvent = s.handler)
    (hcurrent : d.pFilter.current = s.current) (i : Nat) (activation : MctConnectionStatus) :
    (d.checkActivateAt i activation).2.pEvent = (s.checkActivateAt i activation).2.handler := by
  have honce : (s.table.used.map PollFd.fd).Nodup := h.order ▸ h.distinct
  simp only [MctDaemonLocal.checkActivateAt, EventState.checkActivateAt, hevent, handler]
  cases s.connections[i]? with
  | none => exact hevent
  | some con => simp only [hcurrent, checkActivate_used h.table honce]

end EntriesInUse

end EventState

/-- In every run of calls in which a connection is activated only if no active one
has its descriptor, the books of the event handler agree with its connections. -/
theorem event_handler_bookkeeping (current : MctFilterConfiguration) (ops : List EventOp)
    (hops : Guarded EventState.step EventState.Undisputed (.prepare current) ops) :
    let run := runOps EventState.step (.prepare current) ops
    EventState.Bookkept run.1.flatten run.2 := by
  have hstart : EventState.Bookkept ([] : List (List FdEvent)).flatten (.prepare current) :=
    ⟨PollTable.prepare_wellFormed, rfl, List.Perm.refl _, List.nodup_nil, rfl⟩
  refine @runOps_replies _ _ _ EventState.step EventState.Undisputed
    (fun replies s => EventState.Bookkept replies.flatten s) ?_ [] _ hstart ops hops
  intro replies s op hs hop
  rw [List.flatten_append, List.flatten_singleton]
  exact hs.step op hop

/-- A configuration that allows sockets for clients, and one that allows nothing. -/
def clientsAllowed : MctFilterConfiguration := ⟨[], 0, 50, 6, 0, [], noInjections_counted⟩
def nothingAllowed : MctFilterConfiguration := ⟨[], 51, 100, 0, 0, [], noInjections_counted⟩

/-- Two sockets for clients are registered, and the filter takes both down and allows
them again. -/
def twoSockets : List EventOp :=
  [.register ⟨3, .clientConnect, .undefined, 0⟩ 1, .register ⟨4, .clientConnect, .undefined, 0⟩ 1,
    .setFilter nothingAllowed, .checkActivate 0 .activate, .checkActivate 1 .activate,
    .setFilter clientsAllowed]

theorem event_handler_bookkeeping_sample :
    let run := runOps EventState.step (.prepare clientsAllowed)
      (twoSockets ++ [.checkActivate 1 .activate])
    EventState.Bookkept run.1.flatten run.2 :=
  event_handler_bookkeeping clientsAllowed (twoSockets ++ [.checkActivate 1 .activate])
    (by decide +kernel)

/-- Both sockets have lost their descriptor: when both are active again and one is
taken down, the other one is active and is not watched. -/
theorem active_socket_not_watched :
    let final := (runOps EventState.step (.prepare clientsAllowed) (twoSockets ++
      [.checkActivate 0 .activate, .checkActivate 1 .activate, .checkActivate 0 .deactivate])).2
    ¬ (final.table.used.map PollFd.fd).Perm (EventState.activeFds final.connections) := by
  decide +kernel

end MctDaemon.Daemon
