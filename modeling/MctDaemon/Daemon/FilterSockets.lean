import MctDaemon.Daemon.FilterConnections
import MctDaemon.Lib.Run

/-!
The client sockets under changes of the filter level. In a `Consistent` daemon
the active connections are polled, and every connection for clients is active
exactly when the current configuration allows it.
-/

namespace MctDaemon.Daemon

open Lib Shared

section Disable

theorem compressPfd_tail {fd : Int} {cells : List PollFd}
    (habsent : ∀ cell ∈ cells, cell.fd ≠ fd) : compressPfd fd cells cells.tail = cells.tail := by
  induction cells with
  | nil => rfl
  | cons cell cells ih =>
      simp only [compressPfd, List.tail_cons]
      rw [if_neg (habsent cell List.mem_cons_self)]
      cases cells with
      | nil => rfl
      | cons next rest =>
          exact congrArg (List.cons next)
            (ih fun other hmem => habsent other (List.mem_cons_of_mem cell hmem))

/-- A descriptor that is watched once is taken out and the others stay. -/
theorem disableFd_eq_filter {fd : Int} {pfd : List PollFd} (h : (pfd.map PollFd.fd).Nodup) :
    disableFd pfd fd = pfd.filter fun cell => cell.fd ≠ fd := by
  have hcompress : compressPfd fd pfd pfd = pfd.filter fun cell => cell.fd ≠ fd := by
    induction pfd with
    | nil => rfl
    | cons cell cells ih =>
        rw [List.map_cons, List.nodup_cons] at h
        obtain ⟨hnot, hrest⟩ := h
        by_cases hcell : cell.fd = fd
        · have habsent : ∀ other ∈ cells, other.fd ≠ fd := by
            intro other hmem heq
            exact hnot (hcell ▸ heq ▸ List.mem_map_of_mem hmem)
          have hfilter : (cell :: cells).filter (fun cell => cell.fd ≠ fd) = cells := by
            rw [List.filter_cons_of_neg (by simpa using hcell)]
            rw [List.filter_eq_self]
            simpa using habsent
          rw [hfilter]
          simp only [compressPfd, List.tail_cons]
          rw [if_pos hcell]
          cases cells with
          | nil => rfl
          | cons next rest =>
              exact congrArg (List.cons next) (compressPfd_tail habsent)
        · rw [List.filter_cons_of_pos (by simpa using hcell)]
          simp only [compressPfd]
          rw [if_neg hcell]
          exact congrArg (List.cons cell) (ih hrest)
  unfold disableFd
  rw [hcompress, List.take_of_length_le]
  rw [← List.countP_eq_length_filter]
  have hcount := List.length_eq_countP_add_countP (fun cell : PollFd => decide (cell.fd = fd))
    (l := pfd)
  simp only [decide_eq_true_eq, ne_eq, decide_not] at hcount ⊢
  omega

end Disable

section Meaning

def MctFilterConfiguration.AllowsClients (conf : MctFilterConfiguration) : Prop :=
  0 < isConnectionAllowed conf MctConnectionType.clientConnect.code

instance (conf : MctFilterConfiguration) : Decidable conf.AllowsClients :=
  inferInstanceAs (Decidable (_ < _))

def MctEventHandler.Polls (ev : MctEventHandler) (fd : Int) : Prop := fd ∈ ev.pfd.map PollFd.fd

instance (ev : MctEventHandler) (fd : Int) : Decidable (ev.Polls fd) :=
  inferInstanceAs (Decidable (_ ∈ _))

/-- Every connection for clients is active, open and polled if the current
configuration allows them, and inactive and not polled otherwise. -/
def MctDaemonLocal.SocketsAgree (d : MctDaemonLocal) : Prop :=
  ∀ con ∈ d.pEvent.connections, con.type = .clientConnect →
    if d.pFilter.current.AllowsClients then
      con.status = .active ∧ d.pEvent.Polls con.fd ∧ con.fd ∈ d.openFds
    else con.status = .inactive ∧ ¬ d.pEvent.Polls con.fd

instance (d : MctDaemonLocal) : Decidable d.SocketsAgree := by
  unfold MctDaemonLocal.SocketsAgree
  infer_instance

def NoClient (connections : List MctConnection) : Prop :=
  ∀ con ∈ connections, con.type ≠ .clientConnect

instance (connections : List MctConnection) : Decidable (NoClient connections) :=
  inferInstanceAs (Decidable (∀ con ∈ connections, _))

def AtMostOneClient (connections : List MctConnection) : Prop :=
  ∀ (i j : Nat) (a b : MctConnection), connections[i]? = some a → connections[j]? = some b →
    a.type = .clientConnect → b.type = .clientConnect → i = j

instance (connections : List MctConnection) : Decidable (AtMostOneClient connections) :=
  decidable_of_iff
    (∀ a ∈ connections.zipIdx, ∀ b ∈ connections.zipIdx,
      a.1.type = .clientConnect → b.1.type = .clientConnect → a.2 = b.2) <| by
    constructor
    · intro h i j a b ha hb
      exact h (a, i) (List.mem_zipIdx_iff_getElem?.mpr ha) (b, j)
        (List.mem_zipIdx_iff_getElem?.mpr hb)
    · intro h a ha b hb
      exact h a.2 b.2 a.1 b.1 (List.mem_zipIdx_iff_getElem?.mp ha)
        (List.mem_zipIdx_iff_getElem?.mp hb)

/-- If there is a connection for clients, the configuration selected allows
CLIENT_CONNECT just when it allows CLIENT_MSG_TCP, the type the code asks for.
If it does not allow clients, there is at most one connection to take down, and
if there is none, the configuration is the current one. -/
def LevelCondition (d : MctDaemonLocal) (level : Nat) : Prop :=
  ∀ conf, level ≤ mctFilterLevelMax → selectLevel d.pFilter.configs level = some conf →
    (¬ NoClient d.pEvent.connections →
      (conf.AllowsClients ↔ 0 < isConnectionAllowed conf MctConnectionType.clientMsgTcp.code)) ∧
      (¬ conf.AllowsClients → AtMostOneClient d.pEvent.connections ∧
        (NoClient d.pEvent.connections → conf = d.pFilter.current))

instance (d : MctDaemonLocal) (level : Nat) : Decidable (LevelCondition d level) :=
  decidable_of_iff
    (∀ conf ∈ selectLevel d.pFilter.configs level, level ≤ mctFilterLevelMax →
      (¬ NoClient d.pEvent.connections →
        (conf.AllowsClients ↔ 0 < isConnectionAllowed conf MctConnectionType.clientMsgTcp.code)) ∧
        (¬ conf.AllowsClients → AtMostOneClient d.pEvent.connections ∧
          (NoClient d.pEvent.connections → conf = d.pFilter.current))) <| by
    constructor
    · intro h conf hlevel hselect
      exact h conf hselect hlevel
    · intro h conf hselect hlevel
      exact h conf hlevel hselect

/-- Opening a socket gives a descriptor that is not in use. -/
def SocketsSucceed (sockets : SocketOpen) : Prop :=
  ∀ ip used, ∃ fd, sockets ip used = some fd ∧ 0 ≤ fd ∧ fd ∉ used

/-- How connections, watched descriptors and open sockets belong together. -/
structure MctDaemonLocal.Wired (d : MctDaemonLocal) : Prop where
  pfd_nodup : (d.pEvent.pfd.map PollFd.fd).Nodup
  pfd_open : ∀ fd, d.pEvent.Polls fd → fd ∈ d.openFds
  fds_open : ∀ con ∈ d.pEvent.connections, con.fd ≠ -1 → con.fd ∈ d.openFds
  distinct : ∀ (i j : Nat) (a b : MctConnection), d.pEvent.connections[i]? = some a →
    d.pEvent.connections[j]? = some b → i ≠ j → a.fd = b.fd → a.fd = -1
  active_polled : ∀ con ∈ d.pEvent.connections, con.status = .active → d.pEvent.Polls con.fd
  open_nonneg : ∀ fd ∈ d.openFds, 0 ≤ fd
  open_nodup : d.openFds.Nodup

/-- The connections for clients have the state the configuration gives them,
and an inactive one has no descriptor. -/
def ClientsFollow (conf : MctFilterConfiguration) (connections : List MctConnection) : Prop :=
  ∀ con ∈ connections, con.type = .clientConnect →
    conf.AllowsClients ∧ con.status = .active ∨
      ¬ conf.AllowsClients ∧ con.status = .inactive ∧ con.fd = -1

/-- What holds between the calls. -/
structure MctDaemonLocal.Consistent (d : MctDaemonLocal) : Prop extends d.Wired where
  clients_follow : ClientsFollow d.pFilter.current d.pEvent.connections
  one_client : ¬ d.pFilter.current.AllowsClients → AtMostOneClient d.pEvent.connections

end Meaning

section Steps

variable {sockets : SocketOpen} {d : MctDaemonLocal}

theorem MctDaemonLocal.Wired.not_polled (h : d.Wired) {fd : Int} (hfd : fd < 0) :
    ¬ d.pEvent.Polls fd := by
  intro hpolls
  have hnonneg := h.open_nonneg fd (h.pfd_open fd hpolls)
  omega

theorem MctDaemonLocal.Consistent.socketsAgree (h : d.Consistent) : d.SocketsAgree := by
  intro con hmem htype
  rcases h.clients_follow con hmem htype with ⟨hallows, hactive⟩ | ⟨hforbids, hinactive, hfd⟩
  · rw [if_pos hallows]
    have hpolled := h.active_polled con hmem hactive
    exact ⟨hactive, hpolled, h.pfd_open _ hpolled⟩
  · rw [if_neg hforbids]
    exact ⟨hinactive, h.not_polled (by omega)⟩

/-- A connection with a descriptor that no other has leaves the others apart. -/
theorem distinct_append {connections : List MctConnection} {new : MctConnection}
    (h : ∀ (i j : Nat) (a b : MctConnection), connections[i]? = some a →
      connections[j]? = some b → i ≠ j → a.fd = b.fd → a.fd = -1)
    (hnew : ∀ con ∈ connections, con.fd ≠ new.fd) (i j : Nat) (a b : MctConnection)
    (ha : (connections ++ [new])[i]? = some a) (hb : (connections ++ [new])[j]? = some b)
    (hij : i ≠ j) (heq : a.fd = b.fd) : a.fd = -1 := by
  rw [List.getElem?_append] at ha hb
  split at ha
  · split at hb
    · exact h i j a b ha hb hij heq
    · rw [List.getElem?_singleton] at hb
      split at hb
      · cases hb
        exact absurd heq (hnew a (List.mem_of_getElem? ha))
      · cases hb
  · rw [List.getElem?_singleton] at ha
    split at ha
    · cases ha
      split at hb
      · exact absurd heq.symm (hnew b (List.mem_of_getElem? hb))
      · rw [List.getElem?_singleton] at hb
        split at hb
        · omega
        · cases hb
    · cases ha

/-- The daemon with a new socket for clients that is watched. -/
def MctDaemonLocal.withSocket (d : MctDaemonLocal) (fd : Int) : MctDaemonLocal :=
  { d with
    openFds := fd :: d.openFds
    pEvent := {
      pfd := d.pEvent.pfd ++ [⟨fd, MctDaemonLocal.pollIn⟩]
      connections := d.pEvent.connections ++
        [⟨fd, .clientConnect, .active, MctDaemonLocal.pollIn⟩] } }

theorem MctDaemonLocal.polls_withSocket {fd other : Int} :
    (d.withSocket fd).pEvent.Polls other ↔ d.pEvent.Polls other ∨ other = fd := by
  simp [MctDaemonLocal.withSocket, MctEventHandler.Polls, List.mem_append, List.mem_map]

theorem MctDaemonLocal.mem_withSocket {fd : Int} {con : MctConnection} :
    con ∈ (d.withSocket fd).pEvent.connections ↔ con ∈ d.pEvent.connections ∨
      con = ⟨fd, .clientConnect, .active, MctDaemonLocal.pollIn⟩ := by
  simp [MctDaemonLocal.withSocket]

theorem MctDaemonLocal.Consistent.withSocket (h : d.Consistent)
    (hallows : d.pFilter.current.AllowsClients) {fd : Int} (hnonneg : 0 ≤ fd)
    (hfresh : fd ∉ d.openFds) (hunused : ∀ con ∈ d.pEvent.connections, con.fd ≠ fd) :
    (d.withSocket fd).Consistent := by
  have hunpolled : ¬ d.pEvent.Polls fd := fun hpolls => hfresh (h.pfd_open fd hpolls)
  refine {
    pfd_nodup := ?_
    pfd_open := ?_
    fds_open := ?_
    distinct := distinct_append h.distinct hunused
    active_polled := ?_
    open_nonneg := ?_
    open_nodup := List.nodup_cons.mpr ⟨hfresh, h.open_nodup⟩
    clients_follow := ?_
    one_client := fun hforbids => absurd hallows hforbids }
  · simp only [MctDaemonLocal.withSocket, List.map_append, List.map_cons, List.map_nil]
    rw [List.nodup_append]
    refine ⟨h.pfd_nodup, List.nodup_singleton _, ?_⟩
    intro a ha b hb heq
    rw [List.mem_singleton] at hb
    exact hunpolled (hb ▸ heq ▸ ha)
  · intro other hpolls
    rcases MctDaemonLocal.polls_withSocket.mp hpolls with hpolls | rfl
    · exact List.mem_cons_of_mem fd (h.pfd_open other hpolls)
    · exact List.mem_cons_self
  · intro con hmem hne
    rcases MctDaemonLocal.mem_withSocket.mp hmem with hmem | rfl
    · exact List.mem_cons_of_mem fd (h.fds_open con hmem hne)
    · exact List.mem_cons_self
  · intro con hmem hactive
    rw [MctDaemonLocal.polls_withSocket]
    rcases MctDaemonLocal.mem_withSocket.mp hmem with hmem | rfl
    · exact .inl (h.active_polled con hmem hactive)
    · exact .inr rfl
  · intro other hmem
    rcases List.mem_cons.mp hmem with rfl | hmem
    · exact hnonneg
    · exact h.open_nonneg other hmem
  · intro con hmem htype
    rcases MctDaemonLocal.mem_withSocket.mp hmem with hmem | rfl
    · exact h.clients_follow con hmem htype
    · exact .inl ⟨hallows, rfl⟩

/-- A new connection for clients, when they are allowed. -/
theorem openAndCreate_consistent (hsockets : SocketsSucceed sockets) (h : d.Consistent)
    (hallows : d.pFilter.current.AllowsClients) (ip : List Char) :
    (d.openAndCreate sockets ip).1 = 0 ∧ (d.openAndCreate sockets ip).2.Consistent ∧
      (d.openAndCreate sockets ip).2.pFilter = d.pFilter := by
  obtain ⟨fd, hopen, hnonneg, hfresh⟩ := hsockets ip d.openFds
  have hunused : ∀ con ∈ d.pEvent.connections, con.fd ≠ fd := by
    intro con hmem heq
    apply hfresh
    rw [← heq]
    exact h.fds_open con hmem (by omega)
  have hfind : findConnection d.pEvent.connections fd = none := by
    rw [findConnection, List.find?_eq_none]
    simpa using hunused
  have hresult : d.openAndCreate sockets ip = (0, d.withSocket fd) := by
    simp only [MctDaemonLocal.openAndCreate, MctDaemonLocal.socketOpen, hopen, Option.map_some,
      MctDaemonLocal.connectionCreate, hfind, Option.isSome_none, MctDaemonLocal.registerConnection,
      connectionCheckActivate]
    rw [if_neg (by omega), if_neg (by simp), if_pos ⟨hallows, trivial⟩]
    rfl
  rw [hresult]
  exact ⟨rfl, h.withSocket hallows hnonneg hfresh hunused, rfl⟩

/-- Opening a socket for each address gives the connection a fresh descriptor
and leaves the rest alone. -/
theorem reopenAll_spec (hsockets : SocketsSucceed sockets) (hnonneg : ∀ fd ∈ d.openFds, 0 ≤ fd)
    (hnodup : d.openFds.Nodup) (i : Nat) (ip : List Char) (ips : List (List Char)) :
    ∃ fd openFds, d.reopenAll sockets i (ip :: ips) =
        (0, { d.setFd i fd with openFds := openFds }) ∧
      fd ∈ openFds ∧ fd ∉ d.openFds ∧ d.openFds ⊆ openFds ∧ openFds.Nodup ∧
      ∀ fd ∈ openFds, 0 ≤ fd := by
  induction ips generalizing d ip with
  | nil =>
      obtain ⟨fd, hopen, hfd, hfresh⟩ := hsockets ip d.openFds
      refine ⟨fd, fd :: d.openFds, ?_, List.mem_cons_self, hfresh, List.subset_cons_self _ _,
        List.nodup_cons.mpr ⟨hfresh, hnodup⟩, List.forall_mem_cons.mpr ⟨hfd, hnonneg⟩⟩
      simp only [MctDaemonLocal.reopenAll, MctDaemonLocal.socketOpen, hopen, Option.map_some]
      rfl
  | cons next ips ih =>
      obtain ⟨fd, hopen, hfd, hfresh⟩ := hsockets ip d.openFds
      have hstep : d.reopenAll sockets i (ip :: next :: ips) =
          MctDaemonLocal.reopenAll sockets i
            ({ d with openFds := fd :: d.openFds }.setFd i fd) (next :: ips) := by
        rw [MctDaemonLocal.reopenAll]
        simp only [MctDaemonLocal.socketOpen, hopen, Option.map_some]
      obtain ⟨fd', openFds, hrest, hmem, hfresh', hsub, hnodup', hnonneg'⟩ :=
        @ih ({ d with openFds := fd :: d.openFds }.setFd i fd)
          (List.forall_mem_cons.mpr ⟨hfd, hnonneg⟩) (List.nodup_cons.mpr ⟨hfresh, hnodup⟩) next
      refine ⟨fd', openFds, ?_, hmem, fun hold => hfresh' (List.mem_cons_of_mem fd hold),
        List.Subset.trans (List.subset_cons_self _ _) hsub, hnodup', hnonneg'⟩
      rw [hstep, hrest]
      simp only [MctDaemonLocal.setFd, List.modify_modify_eq]
      rfl

section Activation

variable {pfd : List PollFd} {con : MctConnection} {conf : MctFilterConfiguration}

theorem checkActivate_active (hactive : con.status = .active)
    (hallowed : 0 < isConnectionAllowed conf con.type.code) :
    connectionCheckActivate pfd con conf .activate = (0, pfd, con) := by
  simp only [connectionCheckActivate, hactive]
  rw [if_neg]
  rintro (hzero | hdeactivate)
  · omega
  · cases hdeactivate

theorem checkActivate_takeDown (hactive : con.status = .active) (htype : con.type = .clientConnect)
    (hforbidden : ¬ 0 < isConnectionAllowed conf con.type.code) :
    connectionCheckActivate pfd con conf .activate =
      (0, disableFd pfd con.fd, { con with fd := -1, status := .inactive }) := by
  simp only [connectionCheckActivate, hactive]
  rw [if_pos (.inl (Nat.eq_zero_of_not_pos hforbidden)), if_pos htype]

theorem checkActivate_putBack (hinactive : con.status = .inactive)
    (hallowed : 0 < isConnectionAllowed conf con.type.code) :
    connectionCheckActivate pfd con conf .activate =
      (0, enableFd pfd con.fd con.evMask, { con with status := .active }) := by
  simp only [connectionCheckActivate, hinactive]
  rw [if_pos ⟨hallowed, trivial⟩]

theorem checkActivate_inactive (hinactive : con.status = .inactive)
    (hforbidden : ¬ 0 < isConnectionAllowed conf con.type.code) :
    connectionCheckActivate pfd con conf .activate = (0, pfd, con) := by
  simp only [connectionCheckActivate, hinactive]
  rw [if_neg fun hboth => hforbidden hboth.1]

def MctDaemonLocal.replace (d : MctDaemonLocal) (i : Nat) (con : MctConnection)
    (pfd : List PollFd) (openFds : List Int) : MctDaemonLocal :=
  { d with
    pEvent := { pfd := pfd, connections := d.pEvent.connections.set i con }
    openFds := openFds }

theorem checkActivateAt_eq {i : Nat} {con' : MctConnection} {ret : Int}
    (hi : d.pEvent.connections[i]? = some con)
    (hcheck : connectionCheckActivate d.pEvent.pfd con d.pFilter.current .activate =
      (ret, pfd, con')) :
    d.checkActivateAt i .activate = (ret, d.replace i con' pfd d.openFds) := by
  simp only [MctDaemonLocal.checkActivateAt, hi, hcheck]
  rfl

/-- A connection that stays as it is changes nothing. -/
theorem replace_self {i : Nat} (hi : d.pEvent.connections[i]? = some con) :
    d.replace i con d.pEvent.pfd d.openFds = d := by
  obtain ⟨hlt, rfl⟩ := List.getElem?_eq_some_iff.mp hi
  simp only [MctDaemonLocal.replace, List.set_getElem_self]

end Activation

theorem clientConnect_mask (type : MctConnectionType) :
    type.mask &&& MctConnectionType.clientConnect.mask ≠ 0 ↔ type = .clientConnect := by
  cases type <;> decide

theorem connectionGetNext_none {connections : List MctConnection}
    (h : connectionGetNext connections MctConnectionType.clientConnect.mask = none) :
    NoClient connections := by
  rw [connectionGetNext, if_neg (by decide), List.findIdx?_eq_none_iff] at h
  intro con hmem htype
  have hmask := h con hmem
  rw [decide_eq_false_iff_not] at hmask
  exact hmask ((clientConnect_mask con.type).mpr htype)

theorem connectionGetNext_some {connections : List MctConnection} {i : Nat}
    (h : connectionGetNext connections MctConnectionType.clientConnect.mask = some i) :
    ∃ temp, connections[i]? = some temp ∧ temp.type = .clientConnect := by
  rw [connectionGetNext, if_neg (by decide), List.findIdx?_eq_some_iff_getElem] at h
  obtain ⟨hi, hmask, _⟩ := h
  refine ⟨connections[i], List.getElem?_eq_getElem hi, ?_⟩
  rw [decide_eq_true_eq] at hmask
  exact (clientConnect_mask _).mp hmask

section Replace

variable {i : Nat} {temp con : MctConnection} {pfd : List PollFd} {openFds : List Int}

/-- A connection of the changed list is the new one or an old one at another position. -/
theorem getElem?_replace {j : Nat} {other : MctConnection}
    (h : (d.pEvent.connections.set i con)[j]? = some other) :
    (j = i ∧ other = con) ∨ (j ≠ i ∧ d.pEvent.connections[j]? = some other) := by
  rw [List.getElem?_set] at h
  split at h
  · next heq =>
      split at h
      · exact .inl ⟨heq.symm, (Option.some.inj h).symm⟩
      · cases h
  · next hne => exact .inr ⟨fun heq => hne heq.symm, h⟩

/-- Taking down the connection: its descriptor is closed and no longer watched. -/
theorem MctDaemonLocal.Wired.takeDown (h : d.Wired) (hi : d.pEvent.connections[i]? = some temp)
    (hactive : temp.status = .active) :
    (d.replace i { temp with fd := -1, status := .inactive } (disableFd d.pEvent.pfd temp.fd)
      (d.openFds.erase temp.fd)).Wired := by
  have hpolled := h.active_polled temp (List.mem_of_getElem? hi) hactive
  have hopen := h.pfd_open _ hpolled
  have htemp := h.open_nonneg _ hopen
  have hfilter : ∀ fd, fd ∈ (disableFd d.pEvent.pfd temp.fd).map PollFd.fd ↔
      d.pEvent.Polls fd ∧ fd ≠ temp.fd := by
    intro fd
    rw [disableFd_eq_filter h.pfd_nodup]
    simp only [List.mem_map, List.mem_filter, decide_eq_true_eq, MctEventHandler.Polls]
    constructor
    · rintro ⟨cell, ⟨hmem, hne⟩, rfl⟩
      exact ⟨⟨cell, hmem, rfl⟩, hne⟩
    · rintro ⟨⟨cell, hmem, rfl⟩, hne⟩
      exact ⟨cell, ⟨hmem, hne⟩, rfl⟩
  -- no other connection has the descriptor
  have hother : ∀ j other, j ≠ i → d.pEvent.connections[j]? = some other → other.fd ≠ temp.fd := by
    intro j other hne hj heq
    have hclosed := h.distinct j i other temp hj hi hne heq
    omega
  refine {
    pfd_nodup := ?_
    pfd_open := ?_
    fds_open := ?_
    distinct := ?_
    active_polled := ?_
    open_nonneg := fun fd hmem => h.open_nonneg fd (List.mem_of_mem_erase hmem)
    open_nodup := h.open_nodup.erase _ }
  · simp only [MctDaemonLocal.replace, disableFd_eq_filter h.pfd_nodup]
    exact h.pfd_nodup.sublist (List.filter_sublist.map _)
  · intro fd hpolls
    obtain ⟨hold, hne⟩ := (hfilter fd).mp hpolls
    exact (List.mem_erase_of_ne hne).mpr (h.pfd_open fd hold)
  · intro con hmem hne
    obtain ⟨j, hj⟩ := List.mem_iff_getElem?.mp hmem
    rcases getElem?_replace hj with ⟨_, rfl⟩ | ⟨hji, hold⟩
    · exact absurd rfl hne
    · exact (List.mem_erase_of_ne (hother j con hji hold)).mpr
        (h.fds_open con (List.mem_of_getElem? hold) hne)
  · intro j k a b ha hb hjk heq
    rcases getElem?_replace ha with ⟨_, rfl⟩ | ⟨hji, ha⟩
    · rfl
    · rcases getElem?_replace hb with ⟨_, rfl⟩ | ⟨hki, hb⟩
      · exact heq
      · exact h.distinct j k a b ha hb hjk heq
  · intro con hmem hcon
    obtain ⟨j, hj⟩ := List.mem_iff_getElem?.mp hmem
    rcases getElem?_replace hj with ⟨_, rfl⟩ | ⟨hji, hold⟩
    · cases hcon
    · exact (hfilter con.fd).mpr ⟨h.active_polled con (List.mem_of_getElem? hold) hcon,
        hother j con hji hold⟩

/-- Putting a connection without descriptor back: it gets an open one and is watched. -/
theorem MctDaemonLocal.Wired.putBack (h : d.Wired) {fd : Int} (hmem : fd ∈ openFds)
    (hfresh : fd ∉ d.openFds) (hsub : d.openFds ⊆ openFds) (hnodup : openFds.Nodup)
    (hnonneg : ∀ fd ∈ openFds, 0 ≤ fd) (hcon : con.fd = fd) :
    (d.replace i con (enableFd d.pEvent.pfd fd con.evMask) openFds).Wired := by
  have hfd := hnonneg fd hmem
  have hunused : ∀ other ∈ d.pEvent.connections, other.fd ≠ fd := by
    intro other hother heq
    apply hfresh
    rw [← heq]
    exact h.fds_open other hother (by omega)
  have hunpolled : ¬ d.pEvent.Polls fd := fun hpolls => hfresh (h.pfd_open fd hpolls)
  have hpolls : ∀ other, other ∈ (enableFd d.pEvent.pfd fd con.evMask).map PollFd.fd ↔
      d.pEvent.Polls other ∨ other = fd := by
    intro other
    simp [enableFd, MctEventHandler.Polls]
  refine {
    pfd_nodup := ?_
    pfd_open := ?_
    fds_open := ?_
    distinct := ?_
    active_polled := ?_
    open_nonneg := hnonneg
    open_nodup := hnodup }
  · simp only [MctDaemonLocal.replace, enableFd, List.map_append, List.map_cons, List.map_nil]
    rw [List.nodup_append]
    refine ⟨h.pfd_nodup, List.nodup_singleton _, ?_⟩
    intro a ha b hb heq
    rw [List.mem_singleton] at hb
    exact hunpolled (hb ▸ heq ▸ ha)
  · intro other hother
    rcases (hpolls other).mp hother with hold | rfl
    · exact hsub (h.pfd_open other hold)
    · exact hmem
  · intro other hother hne
    obtain ⟨j, hj⟩ := List.mem_iff_getElem?.mp hother
    rcases getElem?_replace hj with ⟨_, rfl⟩ | ⟨_, hold⟩
    · exact hcon ▸ hmem
    · exact hsub (h.fds_open other (List.mem_of_getElem? hold) hne)
  · intro j k a b ha hb hjk heq
    rcases getElem?_replace ha with ⟨hj, ha'⟩ | ⟨_, hold⟩
    · rcases getElem?_replace hb with ⟨hk, _⟩ | ⟨_, hold'⟩
      · omega
      · rw [ha', hcon] at heq
        exact absurd heq.symm (hunused b (List.mem_of_getElem? hold'))
    · rcases getElem?_replace hb with ⟨_, hb'⟩ | ⟨_, hold'⟩
      · rw [hb', hcon] at heq
        exact absurd heq (hunused a (List.mem_of_getElem? hold))
      · exact h.distinct j k a b hold hold' hjk heq
  · intro other hother hactive
    obtain ⟨j, hj⟩ := List.mem_iff_getElem?.mp hother
    rcases getElem?_replace hj with ⟨_, rfl⟩ | ⟨_, hold⟩
    · exact (hpolls _).mpr (.inr hcon)
    · exact (hpolls _).mpr (.inl (h.active_polled other (List.mem_of_getElem? hold) hactive))

/-- If the connection at the position is the only one for clients, the new one
decides whether the clients follow. -/
theorem clientsFollow_replace {conf : MctFilterConfiguration}
    (hone : AtMostOneClient d.pEvent.connections) (hi : d.pEvent.connections[i]? = some temp)
    (htemp : temp.type = .clientConnect) (hcon : con.type = .clientConnect)
    (hfollow : conf.AllowsClients ∧ con.status = .active ∨
      ¬ conf.AllowsClients ∧ con.status = .inactive ∧ con.fd = -1) :
    ClientsFollow conf (d.pEvent.connections.set i con) ∧
      AtMostOneClient (d.pEvent.connections.set i con) := by
  have honly : ∀ j other, (d.pEvent.connections.set i con)[j]? = some other →
      other.type = .clientConnect → j = i := by
    intro j other hj htype
    rcases getElem?_replace hj with ⟨heq, _⟩ | ⟨_, hold⟩
    · exact heq
    · exact hone j i other temp hold hi htype htemp
  constructor
  · intro other hmem htype
    obtain ⟨j, hj⟩ := List.mem_iff_getElem?.mp hmem
    have heq := honly j other hj htype
    rcases getElem?_replace hj with ⟨_, rfl⟩ | ⟨hne, _⟩
    · exact hfollow
    · exact absurd heq hne
  · intro j k a b ha hb hta htb
    rw [honly j a ha hta, honly k b hb htb]

end Replace

theorem MctDaemonLocal.Wired.setCurrent (h : d.Wired) (conf : MctFilterConfiguration) :
    (d.setCurrent conf).Wired :=
  ⟨h.pfd_nodup, h.pfd_open, h.fds_open, h.distinct, h.active_polled, h.open_nonneg, h.open_nodup⟩

section Updated

variable {conf : MctFilterConfiguration} {i : Nat} {temp : MctConnection}

/-- The connection is updated and activated without an error, and all is consistent then. -/
def MctDaemonLocal.Updates (sockets : SocketOpen) (d : MctDaemonLocal) (i : Nat)
    (temp : MctConnection) : Prop :=
  ∃ d', d.updateConnection sockets i temp = (0, d') ∧
    (d'.checkActivateAt i .activate).1 = 0 ∧ (d'.checkActivateAt i .activate).2.Consistent

/-- A connection that was active and stays active keeps its descriptor. -/
theorem updates_active (h : d.Consistent) (hallows : conf.AllowsClients)
    (htcp : 0 < isConnectionAllowed (d.setCurrent conf).pFilter.current
      MctConnectionType.clientConnect.mask)
    (hi : d.pEvent.connections[i]? = some temp) (htemp : temp.type = .clientConnect)
    (hold : d.pFilter.current.AllowsClients) (hactive : temp.status = .active) :
    (d.setCurrent conf).Updates sockets i temp := by
  have hlookup : (d.setCurrent conf).pEvent.connections[i]? = some temp := hi
  have hcode : 0 < isConnectionAllowed conf temp.type.code := by
    rw [htemp]
    exact hallows
  have hopen : temp.fd ≠ -1 := by
    have hpolled := h.active_polled temp (List.mem_of_getElem? hi) hactive
    have hnonneg := h.open_nonneg _ (h.pfd_open _ hpolled)
    omega
  have hcheck := checkActivateAt_eq hlookup (checkActivate_active hactive hcode)
  rw [replace_self hlookup] at hcheck
  refine ⟨d.setCurrent conf, ?_, by rw [hcheck], ?_⟩
  · simp only [MctDaemonLocal.updateConnection]
    rw [if_pos htcp, if_neg hopen]
  · rw [hcheck]
    refine ⟨h.toWired.setCurrent conf, ?_, fun hforbids => absurd hallows hforbids⟩
    intro con hcon htype
    rcases h.clients_follow con hcon htype with ⟨_, hcon⟩ | ⟨hnot, _⟩
    · exact .inl ⟨hallows, hcon⟩
    · exact absurd hold hnot

/-- For an inactive connection sockets are opened, and the last one is polled. -/
theorem updates_reopened (hsockets : SocketsSucceed sockets) (h : d.Consistent)
    (hallows : conf.AllowsClients)
    (htcp : 0 < isConnectionAllowed (d.setCurrent conf).pFilter.current
      MctConnectionType.clientConnect.mask)
    (hi : d.pEvent.connections[i]? = some temp) (htemp : temp.type = .clientConnect)
    (hold : ¬ d.pFilter.current.AllowsClients) (hinactive : temp.status = .inactive)
    (hfd : temp.fd = -1) : (d.setCurrent conf).Updates sockets i temp := by
  have hwired := h.toWired.setCurrent conf
  have hlookup : (d.setCurrent conf).pEvent.connections[i]? = some temp := hi
  have hcode : 0 < isConnectionAllowed conf temp.type.code := by
    rw [htemp]
    exact hallows
  have hreopened : ∃ ip ips, (d.setCurrent conf).updateConnection sockets i temp =
      (d.setCurrent conf).reopenAll sockets i (ip :: ips) := by
    simp only [MctDaemonLocal.updateConnection]
    rw [if_pos htcp, if_pos hfd]
    cases hips : (d.setCurrent conf).ipNodes with
    | nil => exact ⟨_, _, rfl⟩
    | cons ip ips => exact ⟨_, _, rfl⟩
  obtain ⟨ip, ips, hupdate⟩ := hreopened
  obtain ⟨fd, openFds, hreopen, hfdmem, hfresh, hsub, hnodup, hnonneg⟩ :=
    reopenAll_spec hsockets hwired.open_nonneg hwired.open_nodup i ip ips
  have hgiven : ({ (d.setCurrent conf).setFd i fd with openFds := openFds } :
      MctDaemonLocal).pEvent.connections[i]? = some { temp with fd := fd } := by
    simp only [MctDaemonLocal.setFd, List.getElem?_modify_eq, hlookup, Option.map_eq_map,
      Option.map_some]
  have hcheck := checkActivateAt_eq hgiven
    (@checkActivate_putBack _ { temp with fd := fd } _ hinactive hcode)
  have hreplace : MctDaemonLocal.replace
      { (d.setCurrent conf).setFd i fd with openFds := openFds } i
      { temp with fd := fd, status := .active } (enableFd d.pEvent.pfd fd temp.evMask) openFds =
      (d.setCurrent conf).replace i { temp with fd := fd, status := .active }
        (enableFd d.pEvent.pfd fd temp.evMask) openFds := by
    simp only [MctDaemonLocal.replace, MctDaemonLocal.setFd, List.set_eq_modify,
      List.modify_modify_eq]
    rfl
  refine ⟨_, hupdate.trans hreopen, by rw [hcheck], ?_⟩
  rw [hcheck]
  obtain ⟨hfollow, hone⟩ := @clientsFollow_replace _ _ _
    { temp with fd := fd, status := .active } conf (h.one_client hold) hi htemp htemp
    (.inl ⟨hallows, rfl⟩)
  have hafter : ((d.setCurrent conf).replace i { temp with fd := fd, status := .active }
      (enableFd d.pEvent.pfd fd temp.evMask) openFds).Consistent :=
    ⟨hwired.putBack hfdmem hfresh hsub hnodup hnonneg rfl, hfollow, fun _ => hone⟩
  rw [← hreplace] at hafter
  exact hafter

/-- The socket of an active connection is closed and no longer polled. -/
theorem updates_takenDown (h : d.Consistent) (hforbids : ¬ conf.AllowsClients)
    (htcp : ¬ 0 < isConnectionAllowed (d.setCurrent conf).pFilter.current
      MctConnectionType.clientConnect.mask)
    (hone : AtMostOneClient d.pEvent.connections)
    (hi : d.pEvent.connections[i]? = some temp) (htemp : temp.type = .clientConnect)
    (hactive : temp.status = .active) : (d.setCurrent conf).Updates sockets i temp := by
  have hcode : ¬ 0 < isConnectionAllowed conf temp.type.code := by
    rw [htemp]
    exact hforbids
  have hclosed : ((d.setCurrent conf).socketClose temp.fd).pEvent.connections[i]? =
      some temp := hi
  have hcheck := checkActivateAt_eq hclosed (checkActivate_takeDown hactive htemp hcode)
  refine ⟨(d.setCurrent conf).socketClose temp.fd, ?_, by rw [hcheck], ?_⟩
  · simp only [MctDaemonLocal.updateConnection]
    rw [if_neg htcp]
  · rw [hcheck]
    obtain ⟨hfollow, hone'⟩ := @clientsFollow_replace _ _ _
      { temp with fd := -1, status := .inactive } conf hone hi htemp htemp
      (.inr ⟨hforbids, rfl, rfl⟩)
    exact ⟨(h.toWired.setCurrent conf).takeDown hi hactive, hfollow, fun _ => hone'⟩

/-- A connection that was inactive and stays inactive has nothing to close. -/
theorem updates_inactive (h : d.Consistent) (hforbids : ¬ conf.AllowsClients)
    (htcp : ¬ 0 < isConnectionAllowed (d.setCurrent conf).pFilter.current
      MctConnectionType.clientConnect.mask)
    (hone : AtMostOneClient d.pEvent.connections)
    (hi : d.pEvent.connections[i]? = some temp) (htemp : temp.type = .clientConnect)
    (hinactive : temp.status = .inactive) (hfd : temp.fd = -1) :
    (d.setCurrent conf).Updates sockets i temp := by
  have hwired := h.toWired.setCurrent conf
  have hlookup : (d.setCurrent conf).pEvent.connections[i]? = some temp := hi
  have hcode : ¬ 0 < isConnectionAllowed conf temp.type.code := by
    rw [htemp]
    exact hforbids
  have hclose : (d.setCurrent conf).socketClose temp.fd = d.setCurrent conf := by
    simp only [MctDaemonLocal.socketClose]
    rw [List.erase_of_not_mem]
    intro hopen
    have hnonneg := hwired.open_nonneg _ hopen
    omega
  have hcheck := checkActivateAt_eq hlookup (checkActivate_inactive hinactive hcode)
  rw [replace_self hlookup] at hcheck
  refine ⟨d.setCurrent conf, ?_, by rw [hcheck], ?_⟩
  · simp only [MctDaemonLocal.updateConnection]
    rw [if_neg htcp, hclose]
  · rw [hcheck]
    refine ⟨hwired, ?_, fun _ => hone⟩
    intro con hcon htype
    obtain ⟨j, hj⟩ := List.mem_iff_getElem?.mp hcon
    have hsame := hone j i con temp hj hi htype htemp
    rw [hsame] at hj
    rw [Option.some.inj (hj.symm.trans hi)]
    exact .inr ⟨hforbids, hinactive, hfd⟩

/-- The connection found is brought in line with the configuration selected: the cases
are what the current and the selected configuration allow. -/
theorem updateAndActivate_consistent (hsockets : SocketsSucceed sockets) (h : d.Consistent)
    (hagree : conf.AllowsClients ↔
      0 < isConnectionAllowed conf MctConnectionType.clientMsgTcp.code)
    (hforbid : ¬ conf.AllowsClients → AtMostOneClient d.pEvent.connections)
    (hi : d.pEvent.connections[i]? = some temp) (htemp : temp.type = .clientConnect) :
    (d.setCurrent conf).Updates sockets i temp := by
  have hmem := List.mem_of_getElem? hi
  by_cases hallows : conf.AllowsClients
  · have htcp : 0 < isConnectionAllowed (d.setCurrent conf).pFilter.current
        MctConnectionType.clientConnect.mask := hagree.mp hallows
    rcases h.clients_follow temp hmem htemp with ⟨hold, hactive⟩ | ⟨hold, hinactive, hfd⟩
    · exact updates_active h hallows htcp hi htemp hold hactive
    · exact updates_reopened hsockets h hallows htcp hi htemp hold hinactive hfd
  · have hone := hforbid hallows
    have htcp : ¬ 0 < isConnectionAllowed (d.setCurrent conf).pFilter.current
        MctConnectionType.clientConnect.mask := fun htcp => hallows (hagree.mpr htcp)
    rcases h.clients_follow temp hmem htemp with ⟨hold, hactive⟩ | ⟨hold, hinactive, hfd⟩
    · exact updates_takenDown h hallows htcp hone hi htemp hactive
    · exact updates_inactive h hallows htcp hone hi htemp hinactive hfd

end Updated

/-- Only the first address gets a socket. -/
theorem createConnection_eq (h : ∀ ip, (d.openAndCreate sockets ip).1 = 0) :
    ∃ ip, d.createConnection sockets = (0, (d.openAndCreate sockets ip).2) := by
  unfold MctDaemonLocal.createConnection
  cases d.ipNodes with
  | nil =>
      refine ⟨MctDaemonLocal.anyAddress, ?_⟩
      simp only [h, ne_eq, not_true, if_false]
  | cons ip ips =>
      refine ⟨ip, ?_⟩
      simp only [h, ne_eq, not_true, if_false]

theorem filterChangeFilterLevel_consistent (hsockets : SocketsSucceed sockets)
    (h : d.Consistent) {level : Nat} (hcondition : LevelCondition d level) :
    (d.filterChangeFilterLevel sockets level).2.Consistent ∧
      ((d.filterChangeFilterLevel sockets level).1 ≠ 0 →
        (d.filterChangeFilterLevel sockets level).2.pFilter.current = d.pFilter.current) := by
  unfold MctDaemonLocal.filterChangeFilterLevel
  by_cases hlevel : mctFilterLevelMax < level
  · rw [if_pos hlevel]
    exact ⟨h, fun _ => rfl⟩
  · rw [if_neg hlevel]
    cases hselect : selectLevel d.pFilter.configs level with
    | none => exact ⟨h, fun _ => rfl⟩
    | some conf =>
        obtain ⟨hagree, hforbid⟩ := hcondition conf (by omega) hselect
        simp only
        cases hnext : connectionGetNext (d.setCurrent conf).pEvent.connections
            MctConnectionType.clientConnect.mask with
        | none =>
            have hnone := connectionGetNext_none hnext
            simp only
            by_cases hallows : conf.AllowsClients
            · have hallowed : 0 < isConnectionAllowed conf MctConnectionType.clientConnect.code :=
              hallows
              rw [if_pos hallowed]
              have hselected : (d.setCurrent conf).Consistent := by
                refine ⟨h.toWired.setCurrent conf, ?_, fun hforbids => absurd hallows hforbids⟩
                intro con hmem htype
                exact absurd htype (hnone con hmem)
              have hcreate : ∀ ip, ((d.setCurrent conf).openAndCreate sockets ip).1 = 0 ∧
                  ((d.setCurrent conf).openAndCreate sockets ip).2.Consistent := by
                intro ip
                obtain ⟨hret, hafter, _⟩ :=
                  openAndCreate_consistent hsockets hselected hallows ip
                exact ⟨hret, hafter⟩
              have hresult := createConnection_eq fun ip => (hcreate ip).1
              obtain ⟨ip, hresult⟩ := hresult
              rw [hresult]
              exact ⟨(hcreate ip).2, fun herror => absurd rfl herror⟩
            · have hforbidden : ¬ 0 < isConnectionAllowed conf
                  MctConnectionType.clientConnect.code := hallows
              rw [if_neg hforbidden]
              have hcurrent := (hforbid hallows).2 hnone
              subst hcurrent
              exact ⟨h, fun _ => rfl⟩
        | some i =>
            obtain ⟨temp, hi, htemp⟩ := connectionGetNext_some hnext
            simp only [hi]
            have hsome : ¬ NoClient d.pEvent.connections :=
              fun hnone => hnone temp (List.mem_of_getElem? hi) htemp
            obtain ⟨d', hupdate, hret, hafter⟩ := updateAndActivate_consistent hsockets h
              (hagree hsome) (fun hnot => (hforbid hnot).1) hi htemp
            simp only [hupdate, ne_eq, not_true, if_false]
            exact ⟨hafter, fun herror => absurd hret herror⟩

/-- The daemon as its initialisation leaves it. -/
theorem clientConnectionInit_consistent (hsockets : SocketsSucceed sockets) (h : d.Wired)
    (hnone : NoClient d.pEvent.connections) : (d.clientConnectionInit sockets).2.Consistent := by
  have hstart : d.Consistent := by
    refine ⟨h, ?_, ?_⟩
    · intro con hmem htype
      exact absurd htype (hnone con hmem)
    · intro _ i j a b ha _ htype _
      exact absurd htype (hnone a (List.mem_of_getElem? ha))
  have hall : ∀ (ips : List (List Char)) (d : MctDaemonLocal), d.Consistent →
      d.pFilter.current.AllowsClients → (d.openAndCreateAll sockets ips).2.Consistent := by
    intro ips
    induction ips with
    | nil =>
        intro d hd _
        exact hd
    | cons ip ips ih =>
        intro d hd hallows
        obtain ⟨hret, hafter, hfilter⟩ := openAndCreate_consistent hsockets hd hallows ip
        simp only [MctDaemonLocal.openAndCreateAll]
        rw [if_neg (by simp [hret])]
        exact ih _ hafter (by rwa [hfilter])
  unfold MctDaemonLocal.clientConnectionInit
  split
  · next hallows =>
      split
      · exact hall _ d hstart hallows
      · exact hall _ d hstart hallows
  · exact hstart

end Steps

/-- After every change of the level the client sockets agree with the current
configuration, and a call that fails leaves the configuration alone: in every
run whose calls meet the condition. -/
theorem client_sockets_follow_level (sockets : SocketOpen) (hsockets : SocketsSucceed sockets)
    (base : MctDaemonLocal) (hbase : base.Wired) (hnone : NoClient base.pEvent.connections)
    (levels : List Nat) (level : Nat)
    (hcondition : Guarded (MctDaemonLocal.filterChangeFilterLevel sockets) LevelCondition
      (base.clientConnectionInit sockets).2 (levels ++ [level])) :
    let before := (runOps (MctDaemonLocal.filterChangeFilterLevel sockets)
      (base.clientConnectionInit sockets).2 levels).2
    let result := before.filterChangeFilterLevel sockets level
    result.2.SocketsAgree ∧
      (result.1 ≠ 0 → result.2.pFilter.current = before.pFilter.current) := by
  obtain ⟨hfirst, hlast⟩ := hcondition.of_append
  have hbefore : (runOps (MctDaemonLocal.filterChangeFilterLevel sockets)
      (base.clientConnectionInit sockets).2 levels).2.Consistent := by
    apply runOps_keeps _ (clientConnectionInit_consistent hsockets hbase hnone) levels hfirst
    intro d level hd hguard
    exact (filterChangeFilterLevel_consistent hsockets hd hguard).1
  obtain ⟨hafter, herror⟩ := filterChangeFilterLevel_consistent hsockets hbefore hlast.1
  exact ⟨hafter.socketsAgree, herror⟩

/-- A system that numbers its sockets above the descriptors in use. -/
def freshSockets : SocketOpen := fun _ used => some ((used.map Int.natAbs).sum + 1 : Nat)

theorem freshSockets_succeed : SocketsSucceed freshSockets := by
  intro ip used
  refine ⟨_, rfl, by omega, ?_⟩
  intro hmem
  have hle := List.le_sum_of_mem (List.mem_map_of_mem (f := Int.natAbs) hmem)
  simp only [Int.natAbs_natCast] at hle
  omega

/-- A daemon with two levels, the lower of which allows clients, before its
connections are created. -/
def twoLevels (ipNodes : List (List Char)) : MctDaemonLocal where
  pFilter := ⟨[⟨[], 0, 50, 6, 0, [], noInjections_counted⟩,
      ⟨[], 51, 100, 0, 0, [], noInjections_counted⟩],
    ⟨[], 0, 50, 6, 0, [], noInjections_counted⟩, [], noInjections_le⟩
  pEvent := ⟨[], []⟩
  ipNodes := ipNodes
  openFds := []
  exitTriggered := false

theorem twoLevels_wired (ipNodes : List (List Char)) : (twoLevels ipNodes).Wired where
  pfd_nodup := List.nodup_nil
  pfd_open := fun _ hpolls => absurd hpolls List.not_mem_nil
  fds_open := fun _ hmem => absurd hmem List.not_mem_nil
  distinct := fun _ _ _ _ ha => absurd (List.mem_of_getElem? ha) List.not_mem_nil
  active_polled := fun _ hmem => absurd hmem List.not_mem_nil
  open_nonneg := fun _ hmem => absurd hmem List.not_mem_nil
  open_nodup := List.nodup_nil

/-- One address: the level goes up, down and up again. -/
theorem client_sockets_follow_level_once :
    let before := (runOps (MctDaemonLocal.filterChangeFilterLevel freshSockets)
      ((twoLevels []).clientConnectionInit freshSockets).2 [60, 40]).2
    let result := before.filterChangeFilterLevel freshSockets 70
    result.2.SocketsAgree ∧
      (result.1 ≠ 0 → result.2.pFilter.current = before.pFilter.current) := by
  exact client_sockets_follow_level freshSockets freshSockets_succeed (twoLevels [])
    (twoLevels_wired []) (by decide) [60, 40] 70 (by decide +kernel)

/-- Two addresses: the connection of the second stays active when the level no
longer allows clients. -/
theorem second_client_socket_left_active :
    ¬ (((twoLevels [['a'], ['b']]).clientConnectionInit freshSockets).2.filterChangeFilterLevel
      freshSockets 60).2.SocketsAgree := by
  decide +kernel

end MctDaemon.Daemon
