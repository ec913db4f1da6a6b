import MctDaemon.Daemon.OfflineSinks
import MctDaemon.Lib.Walk

/-!
Which clients a message is sent to while clients whose sends fail are closed. The loop
goes through the table of descriptors by position, and closing a client takes an entry
out of the table.
-/

namespace MctDaemon.Daemon

open Lib

def sentFds (sub : Submission) (log : List ClientEvent) : List Int :=
  log.filterMap fun event =>
    match event with
    | .sent other fd _ => if other = sub then some fd else none
    | _ => none

theorem sentFds_append (sub : Submission) (log events : List ClientEvent) :
    sentFds sub (log ++ events) = sentFds sub log ++ sentFds sub events :=
  List.filterMap_append

namespace ClientDaemon

def fds (d : ClientDaemon) : List Int := d.event.table.used.map PollFd.fd

def Client (d : ClientDaemon) (fd : Int) : Prop :=
  ∃ con ∈ d.event.connections, con.type = .clientMsgTcp ∧ con.fd = fd

instance (d : ClientDaemon) (fd : Int) : Decidable (d.Client fd) :=
  inferInstanceAs (Decidable (∃ con ∈ d.event.connections, _))

/-- The descriptor is one of a client that the message cannot be sent to. -/
def Fails (answers : Answers) (sub : Submission) (d : ClientDaemon) (fd : Int) : Prop :=
  d.Client fd ∧ answers.accepts sub.number fd = false

instance (answers : Answers) (sub : Submission) (d : ClientDaemon) :
    DecidablePred (d.Fails answers sub) :=
  fun _ => inferInstanceAs (Decidable (_ ∧ _))

/-- Clients are allowed, and each has a descriptor of its own that is watched at most
once, and while the client is active only. -/
structure ClientsWatched (d : ClientDaemon) : Prop where
  table : d.event.table.WellFormed
  once : ∀ fd, d.Client fd → d.fds.count fd ≤ 1
  active : ∀ con ∈ d.event.connections, con.type = .clientMsgTcp → con.fd ∈ d.fds →
    con.status = .active
  own : ∀ con ∈ d.event.connections, ∀ other ∈ d.event.connections,
    con.type = .clientMsgTcp → other.fd = con.fd → other = con
  single : d.event.connections.Nodup
  allowed : d.event.current.AllowsClient .clientMsgTcp

/-- Every client in the table that is still connected afterwards is sent the message
once. -/
def Reaches (flags : MctDaemonFlags) (answers : Answers) (n : Nat) (sub : Submission)
    (d : ClientDaemon) : Prop :=
  let after := (sendAllMultiple flags answers (clientSend flags answers n) sub d).2
  ∀ con ∈ d.event.connections, con.type = .clientMsgTcp → con.fd ∈ d.fds →
    con ∈ after.event.connections →
      (sentFds sub after.log).count con.fd = (sentFds sub d.log).count con.fd + 1

/-- What is kept by all that a call does for its message. -/
structure Kept (flags : MctDaemonFlags) (sub : Submission)
    (related : ClientDaemon → ClientDaemon → Prop) : Prop where
  refl : ∀ d, related d d
  trans : ∀ {d d' d''}, related d d' → related d' d'' → related d d''
  sent : ∀ d fd accepted, related d (d.record (.sent sub fd accepted))
  close : ∀ d con, con ∈ d.event.connections → con.type = .clientMsgTcp →
    related d (d.closed flags con.fd)
  push : ∀ d, related d (d.push sub)
  discard : ∀ d, related d ((d.changeState .bufferFull).discard sub)
  count : ∀ d overflowCounter sentMessageOverflowCnt, related d { d with
    overflowCounter := overflowCounter
    sentMessageOverflowCnt := sentMessageOverflowCnt }

section Kept

variable {flags : MctDaemonFlags} {answers : Answers} {sub : Submission}
variable {related : ClientDaemon → ClientDaemon → Prop}
variable {send : ClientMessage → ClientDaemon → Int × ClientDaemon}

theorem mem_of_target {d : ClientDaemon} {current : MctFilterConfiguration} {i : Nat}
    {con : MctConnection} (h : d.target current i = some con) : con ∈ d.event.connections :=
  List.mem_of_find?_eq_some (target_found h)

theorem Kept.closeSocket (h : Kept flags sub related)
    (hsend : ∀ message d, related d (send message d).2) {d : ClientDaemon} {con : MctConnection}
    (hmem : con ∈ d.event.connections) (htype : con.type = .clientMsgTcp) :
    related d (closeSocket flags send con.fd d) :=
  h.trans (h.close d con hmem htype) (h.trans (hsend _ _) (hsend _ _))

theorem Kept.sendLoop (h : Kept flags sub related)
    (hsend : ∀ message d, related d (send message d).2) (current : MctFilterConfiguration)
    (n i : Nat) (sent : Bool) (d : ClientDaemon) :
    related d (sendLoop flags answers send current sub n i sent d).2 := by
  induction n generalizing i sent d with
  | zero => exact h.refl d
  | succ n ih =>
      unfold ClientDaemon.sendLoop
      split
      · cases htarget : d.target current i with
        | none => exact ih _ _ _
        | some con =>
            have hsent := h.sent d con.fd (answers.accepts sub.number con.fd)
            simp only
            split
            · next hclose =>
                have hclosed := h.closeSocket hsend
                  (d := d.record (.sent sub con.fd (answers.accepts sub.number con.fd)))
                  (mem_of_target htarget) hclose.2
                exact h.trans hsent (h.trans hclosed (ih _ _ _))
            · exact h.trans hsent (ih _ _ _)
      · exact h.refl d

theorem Kept.reportOverflow (h : Kept flags sub related)
    (hsend : ∀ message d, related d (send message d).2) (d : ClientDaemon) :
    related d (reportOverflow send d) := by
  unfold ClientDaemon.reportOverflow
  split
  · simp only
    split
    · exact h.count d _ _
    · have hreport := h.trans (h.count d d.overflowCounter (d.sentMessageOverflowCnt + 1))
        (hsend (.bufferOverflow d.overflowCounter) _)
      split
      · exact h.trans hreport (h.count _ _ _)
      · exact hreport
  · exact h.refl d

theorem Kept.dispatch (h : Kept flags sub related)
    (hsend : ∀ message d, related d (send message d).2) (force : Bool) (ret : Int)
    (d : ClientDaemon) : related d (dispatch flags answers send force sub ret d).2 := by
  have hsent : related d (ClientDaemon.sendSockets flags answers send force sub ret d).2 := by
    unfold ClientDaemon.sendSockets
    split
    · exact h.sendLoop hsend _ _ _ _ _
    · exact h.refl d
  unfold ClientDaemon.dispatch
  simp only
  split
  · exact hsent
  · split
    · refine h.trans hsent ?_
      rcases store_cases answers sub (ClientDaemon.sendSockets flags answers send force sub ret d).2
        with ⟨_, _, hstore⟩ | ⟨_, hstore⟩
      · rw [hstore]
        exact h.push _
      · rw [hstore]
        exact h.discard _
    · exact h.trans hsent (h.reportOverflow hsend _)

end Kept

/-- The view of the log tells of the sends of this message only. -/
def SendsOnly {β : Type*} (sub : Submission) (view : List ClientEvent → β) : Prop :=
  ∀ log events, (∀ event ∈ events, ∀ fd accepted, event ≠ .sent sub fd accepted) →
    view (log ++ events) = view log

/-- The view stays the same while other messages are handled. -/
def Unseen {β : Type*} (sub : Submission) (view : List ClientEvent → β) (d d' : ClientDaemon) :
    Prop :=
  sub.number < d.submissions → d.submissions ≤ d'.submissions ∧ view d'.log = view d.log

/-- Clients may be closed. -/
def Shrinks (d d' : ClientDaemon) : Prop :=
  d.ClientsWatched → d'.ClientsWatched ∧ d'.event.table.used.Sublist d.event.table.used ∧
    d'.event.connections.Sublist d.event.connections ∧ d'.event.current = d.event.current

section Relations

variable {flags : MctDaemonFlags} {answers : Answers} {sub other : Submission}

theorem sentFds_sendsOnly (sub : Submission) : SendsOnly sub (sentFds sub) := by
  intro log events hother
  have hnone : sentFds sub events = [] := by
    rw [sentFds, List.filterMap_eq_nil_iff]
    intro event hmem
    cases event with
    | sent other fd accepted =>
        have hne : other ≠ sub := by
          rintro rfl
          exact hother _ hmem fd accepted rfl
        exact if_neg hne
    | _ => rfl
  rw [sentFds_append, hnone, List.append_nil]

theorem kept_unseen {β : Type*} {view : List ClientEvent → β} (hview : SendsOnly sub view)
    (hne : other.number ≠ sub.number) : Kept flags other (Unseen sub view) where
  refl _ _ := ⟨le_refl _, rfl⟩
  trans h h' := by
    intro hnumber
    obtain ⟨hle, hlog⟩ := h hnumber
    obtain ⟨hle', hlog'⟩ := h' (lt_of_lt_of_le hnumber hle)
    exact ⟨hle.trans hle', hlog'.trans hlog⟩
  sent d fd accepted _ := by
    refine ⟨le_refl _, hview _ _ ?_⟩
    rintro event hmem fd' accepted' rfl
    obtain ⟨hsame, -, -⟩ := ClientEvent.sent.inj (List.mem_singleton.mp hmem)
    exact hne (congrArg _ hsame.symm)
  close _ _ _ _ _ := ⟨le_refl _, rfl⟩
  push d _ := ⟨le_refl _, hview _ [.buffered other] (by simp)⟩
  discard d _ := ⟨le_refl _, hview _ [.discarded other] (by simp)⟩
  count _ _ _ _ := ⟨le_refl _, rfl⟩

/-- A call sends its own message and later ones. -/
theorem clientSend_unseen {β : Type*} {view : List ClientEvent → β} (hview : SendsOnly sub view)
    (flags : MctDaemonFlags) (answers : Answers) (n : Nat) (message : ClientMessage)
    (d : ClientDaemon) : Unseen sub view d (clientSend flags answers n message d).2 := by
  induction n generalizing message d with
  | zero => exact fun _ => ⟨le_refl _, rfl⟩
  | succ n ih =>
      intro hnumber
      have hkept : Kept flags ⟨d.submissions, message⟩ (Unseen sub view) :=
        kept_unseen hview (Nat.ne_of_gt hnumber)
      have hsinks : view (d.offlineSinks flags answers message).2.log = view d.log := by
        simp only [offlineSinks, List.append_assoc]
        refine hview _ _ ?_
        split <;> split <;> simp
      obtain ⟨hle, hlog⟩ := hkept.dispatch ih false (d.offlineSinks flags answers message).1
        (d.offlineSinks flags answers message).2 (Nat.lt_succ_of_lt hnumber)
      exact ⟨(Nat.le_succ _).trans hle, hlog.trans hsinks⟩

/-- Closing a client handles other messages only. -/
theorem closeSocket_unseen {β : Type*} {view : List ClientEvent → β} (hview : SendsOnly sub view)
    (flags : MctDaemonFlags) (answers : Answers) (n : Nat) {d : ClientDaemon} {fd : Int}
    (hclient : d.Client fd) :
    Unseen sub view d (closeSocket flags (clientSend flags answers n) fd d) := by
  obtain ⟨con, hmem, htype, rfl⟩ := hclient
  have hother : Kept flags ⟨sub.number + 1, sub.message⟩ (Unseen sub view) :=
    kept_unseen hview (Nat.succ_ne_self _)
  exact hother.closeSocket (clientSend_unseen hview flags answers n) hmem htype

/-- What is left when the only connection of a descriptor is taken out. -/
theorem eraseP_fd {connections : List MctConnection} (hsingle : connections.Nodup)
    {con : MctConnection} (hmem : con ∈ connections)
    (hown : ∀ other ∈ connections, other.fd = con.fd → other = con) :
    (connections.eraseP fun other => other.fd = con.fd) =
      connections.filter fun other => other.fd ≠ con.fd := by
  obtain ⟨front, back, rfl⟩ := List.append_of_mem hmem
  rw [List.nodup_append, List.nodup_cons] at hsingle
  obtain ⟨_, ⟨hback, _⟩, hfront⟩ := hsingle
  have hfront' : ∀ other ∈ front, other.fd ≠ con.fd := by
    intro other hother hfd
    have hsame := hown other (List.mem_append_left _ hother) hfd
    exact hfront other hother con List.mem_cons_self hsame
  have hback' : ∀ other ∈ back, other.fd ≠ con.fd := by
    intro other hother hfd
    have hsame := hown other (List.mem_append_right _ (List.mem_cons_of_mem _ hother)) hfd
    exact hback (hsame ▸ hother)
  rw [List.eraseP_append_right _ (by simpa using hfront'), List.eraseP_cons_of_pos (by simp),
    List.filter_append, List.filter_cons_of_neg (by simp),
    List.filter_eq_self.mpr (by simpa using hfront'),
    List.filter_eq_self.mpr (by simpa using hback')]

/-- Closing a client takes its descriptor out of the table and its connection off the
list. -/
theorem closed_spec (flags : MctDaemonFlags) {d : ClientDaemon} (h : d.ClientsWatched)
    {con : MctConnection} (hmem : con ∈ d.event.connections) (htype : con.type = .clientMsgTcp) :
    (d.closed flags con.fd).event.table.WellFormed ∧
      (d.closed flags con.fd).event.table.used =
        d.event.table.used.filter (fun cell => cell.fd ≠ con.fd) ∧
      (d.closed flags con.fd).event.connections =
        d.event.connections.filter fun other => other.fd ≠ con.fd := by
  have hown := fun other hother => h.own con hmem other hother htype
  have hconnections : (d.closed flags con.fd).event.connections =
      d.event.connections.filter fun other => other.fd ≠ con.fd := by
    rw [closed, unregister_connections, eraseP_fd h.single hmem hown]
  have hdisable := PollTable.disable_spec h.table (h.once con.fd ⟨con, hmem, htype, rfl⟩)
  suffices htable : (d.event.unregister con.fd).2.table.WellFormed ∧
      (d.event.unregister con.fd).2.table.used =
        d.event.table.used.filter fun cell => cell.fd ≠ con.fd from
    ⟨htable.1, htable.2, hconnections⟩
  have hfound : (d.event.connections.findIdx? fun other => other.fd = con.fd).isSome := by
    rw [List.findIdx?_isSome, List.any_eq_true]
    exact ⟨con, hmem, by simp⟩
  obtain ⟨i, hi⟩ := Option.isSome_iff_exists.mp hfound
  obtain ⟨hlt, hfirst, -⟩ := List.findIdx?_eq_some_iff_getElem.mp hi
  have hcon : d.event.connections[i] = con :=
    hown _ (List.getElem_mem hlt) (by simpa using hfirst)
  have hget : d.event.connections[i]? = some con := by
    rw [List.getElem?_eq_getElem hlt, hcon]
  unfold EventState.unregister
  rw [hi]
  simp only [hget]
  have hcases := EventState.checkActivate_cases d.event.table con d.event.current .deactivate
  have hinactive := EventState.checkActivate_deactivate d.event.table con d.event.current
  revert hcases hinactive
  generalize checkActivate d.event.table con d.event.current .deactivate = checked
  intro hcases hinactive
  cases hcases with
  | kept htable hsame =>
      rw [htable]
      refine ⟨h.table, (List.filter_eq_self.mpr ?_).symm⟩
      intro cell hcell
      have habsent : con.fd ∉ d.fds := fun hin => hinactive (hsame ▸ h.active con hmem htype hin)
      have hne : cell.fd ≠ con.fd := fun hfd => habsent (hfd ▸ List.mem_map_of_mem hcell)
      simpa using hne
  | enabled _ hactivate _ _ => cases hactivate
  | disabled _ _ _ htable =>
      rw [htable]
      exact hdisable

theorem kept_shrinks (flags : MctDaemonFlags) (sub : Submission) : Kept flags sub Shrinks where
  refl d h := ⟨h, List.Sublist.refl _, List.Sublist.refl _, rfl⟩
  trans h h' := by
    intro hwatched
    obtain ⟨hwatched', htable, hconnections, hcurrent⟩ := h hwatched
    obtain ⟨hwatched'', htable', hconnections', hcurrent'⟩ := h' hwatched'
    exact ⟨hwatched'', htable'.trans htable, hconnections'.trans hconnections,
      hcurrent'.trans hcurrent⟩
  sent d _ _ h := ⟨⟨h.table, h.once, h.active, h.own, h.single, h.allowed⟩, List.Sublist.refl _,
    List.Sublist.refl _, rfl⟩
  close d con hmem htype h := by
    obtain ⟨hformed, hused, hconnections⟩ := closed_spec flags h hmem htype
    have htable : (d.closed flags con.fd).event.table.used.Sublist d.event.table.used :=
      hused ▸ List.filter_sublist
    have hlisted : (d.closed flags con.fd).event.connections.Sublist d.event.connections :=
      hconnections ▸ List.filter_sublist
    have hcurrent : (d.closed flags con.fd).event.current = d.event.current :=
      unregister_current _ _
    refine ⟨⟨hformed, ?_, ?_, ?_, h.single.sublist hlisted, hcurrent ▸ h.allowed⟩, htable, hlisted,
      hcurrent⟩
    · rintro fd ⟨other, hother, hclient⟩
      have honce := h.once fd ⟨other, hlisted.mem hother, hclient⟩
      exact ((htable.map PollFd.fd).count_le fd).trans honce
    · intro other hother htype hin
      exact h.active other (hlisted.mem hother) htype ((htable.map PollFd.fd).mem hin)
    · intro con hcon other hother
      exact h.own con (hlisted.mem hcon) other (hlisted.mem hother)
  push d h := ⟨⟨h.table, h.once, h.active, h.own, h.single, h.allowed⟩, List.Sublist.refl _,
    List.Sublist.refl _, rfl⟩
  discard d h := ⟨⟨h.table, h.once, h.active, h.own, h.single, h.allowed⟩, List.Sublist.refl _,
    List.Sublist.refl _, rfl⟩
  count d _ _ h := ⟨⟨h.table, h.once, h.active, h.own, h.single, h.allowed⟩, List.Sublist.refl _,
    List.Sublist.refl _, rfl⟩

/-- A call at most closes clients. -/
theorem clientSend_shrinks (flags : MctDaemonFlags) (answers : Answers) (n : Nat)
    (message : ClientMessage) (d : ClientDaemon) :
    Shrinks d (clientSend flags answers n message d).2 := by
  induction n generalizing message d with
  | zero => exact (kept_shrinks flags ⟨0, message⟩).refl d
  | succ n ih =>
      intro h
      have hsinks : (d.offlineSinks flags answers message).2.ClientsWatched :=
        ⟨h.table, h.once, h.active, h.own, h.single, h.allowed⟩
      exact (kept_shrinks flags ⟨d.submissions, message⟩).dispatch ih false _ _ hsinks

end Relations

section Loop

variable {flags : MctDaemonFlags} {answers : Answers} {sub : Submission}
variable {d : ClientDaemon} {i : Nat} {cell : PollFd}

theorem used_length (h : d.event.table.WellFormed) :
    d.event.table.used.length = d.event.table.nfds := by
  rw [PollTable.used, List.length_map, h.length_take]

/-- The entry the loop looks at. -/
theorem used_cons (h : d.event.table.WellFormed) (hi : i < d.event.table.nfds) :
    ∃ cell, d.event.table.used[i]? = some cell ∧
      d.event.table.used.drop i = cell :: d.event.table.used.drop (i + 1) := by
  have hlt : i < d.event.table.used.length := by rwa [used_length h]
  exact ⟨_, List.getElem?_eq_getElem hlt, List.drop_eq_getElem_cons hlt⟩

theorem target_eq (hcell : d.event.table.used[i]? = some cell) (current : MctFilterConfiguration) :
    d.target current i =
      (d.event.connections.find? fun con => con.fd = cell.fd).filter fun con =>
        con.IsClientMessage ∧ current.AllowsClient con.type := by
  rw [PollTable.used, List.getElem?_map, List.getElem?_take] at hcell
  split at hcell
  · obtain ⟨entry, hentry, rfl⟩ := Option.map_eq_some_iff.mp hcell
    rw [target, hentry]
    rfl
  · exact absurd hcell (by simp)

/-- A client in the table is a target, and nothing else of type TCP is one. -/
theorem target_client (h : d.ClientsWatched) (hcell : d.event.table.used[i]? = some cell)
    (hclient : d.Client cell.fd) :
    ∃ con ∈ d.event.connections, con.type = .clientMsgTcp ∧ con.fd = cell.fd ∧
      d.target d.event.current i = some con := by
  obtain ⟨con, hmem, htype, hfd⟩ := hclient
  refine ⟨con, hmem, htype, hfd, ?_⟩
  have hsome : (d.event.connections.find? fun con => con.fd = cell.fd).isSome := by
    rw [List.find?_isSome]
    exact ⟨con, hmem, by simpa using hfd⟩
  obtain ⟨found, hfound⟩ := Option.isSome_iff_exists.mp hsome
  have hsame : found = con := by
    refine h.own con hmem found (List.mem_of_find?_eq_some hfound) htype ?_
    have hfd' : found.fd = cell.fd := by simpa using List.find?_some hfound
    exact hfd'.trans hfd.symm
  rw [target_eq hcell, hfound, hsame, Option.filter_some, if_pos]
  simpa [htype] using And.intro (show con.IsClientMessage from .inl htype) h.allowed

theorem target_other (hcell : d.event.table.used[i]? = some cell) (hclient : ¬ d.Client cell.fd)
    {current : MctFilterConfiguration} {con : MctConnection}
    (htarget : d.target current i = some con) : con.fd = cell.fd ∧ con.type ≠ .clientMsgTcp := by
  rw [target_eq hcell] at htarget
  obtain ⟨hfound, -⟩ := Option.filter_eq_some_iff.mp htarget
  have hfd : con.fd = cell.fd := by simpa using List.find?_some hfound
  exact ⟨hfd, fun htype => hclient ⟨con, List.mem_of_find?_eq_some hfound, htype, hfd⟩⟩

theorem sentFds_sent (fd : Int) (accepted : Bool) :
    sentFds sub (d.record (.sent sub fd accepted)).log = sentFds sub d.log ++ [fd] := by
  rw [record, sentFds_append]
  simp [sentFds]

inductive Met (flags : MctDaemonFlags) (answers : Answers)
    (send : ClientMessage → ClientDaemon → Int × ClientDaemon) (sub : Submission)
    (d : ClientDaemon) (fd : Int) : ClientDaemon → Prop where
  | accepted (hclient : d.Client fd) (haccepts : answers.accepts sub.number fd = true) :
      Met flags answers send sub d fd (d.record (.sent sub fd true))
  | failed (hfails : d.Fails answers sub fd) :
      Met flags answers send sub d fd
        (closeSocket flags send fd (d.record (.sent sub fd false)))
  | sent (hclient : ¬ d.Client fd) (accepted : Bool) :
      Met flags answers send sub d fd (d.record (.sent sub fd accepted))
  | passed (hclient : ¬ d.Client fd) : Met flags answers send sub d fd d

theorem sendLoop_cases (send : ClientMessage → ClientDaemon → Int × ClientDaemon)
    (h : d.ClientsWatched) (hi : i < d.event.table.nfds)
    (hcell : d.event.table.used[i]? = some cell) (n : Nat) (sent : Bool) :
    ∃ sent' d', Met flags answers send sub d cell.fd d' ∧
      sendLoop flags answers send d.event.current sub (n + 1) i sent d =
        sendLoop flags answers send d.event.current sub n (i + 1) sent' d' := by
  rw [ClientDaemon.sendLoop, if_pos hi]
  by_cases hclient : d.Client cell.fd
  · obtain ⟨con, hmem, htype, hfd, htarget⟩ := target_client h hcell hclient
    rw [htarget]
    simp only
    rw [hfd]
    cases haccepts : answers.accepts sub.number cell.fd with
    | true => exact ⟨true, _, .accepted hclient haccepts, by simp⟩
    | false =>
        refine ⟨sent || false, _, .failed ⟨hclient, haccepts⟩, ?_⟩
        rw [if_pos ⟨by simp, htype⟩]
  · cases htarget : d.target d.event.current i with
    | none => exact ⟨_, _, .passed hclient, rfl⟩
    | some con =>
        obtain ⟨hfd, htype⟩ := target_other hcell hclient htarget
        refine ⟨sent || answers.accepts sub.number cell.fd, _,
          .sent hclient (answers.accepts sub.number cell.fd), ?_⟩
        simp only
        rw [if_neg fun hclose => htype hclose.2, hfd]

/-- The entry is watched no more than once if it is a client's. -/
theorem ClientsWatched.count_drop (h : d.ClientsWatched) {fd : Int} (hclient : d.Client fd)
    (i : Nat) :
    ((d.event.table.used.drop i).map PollFd.fd).count fd ≤ 1 :=
  (((List.drop_sublist i _).map PollFd.fd).count_le fd).trans (h.once fd hclient)

theorem shrinks_client {d' : ClientDaemon} (h : d'.event.connections.Sublist d.event.connections)
    {fd : Int} (hclient : d'.Client fd) : d.Client fd := by
  obtain ⟨con, hmem, hcon⟩ := hclient
  exact ⟨con, h.mem hmem, hcon⟩

/-- Closing a client changes nothing about other messages, and takes only clients away. -/
theorem closeSocket_shrinks (flags : MctDaemonFlags) (answers : Answers) (sub : Submission)
    (depth : Nat) (h : d.ClientsWatched) {fd : Int} (hclient : d.Client fd)
    (hnumber : sub.number < d.submissions) :
    let d' := closeSocket flags (clientSend flags answers depth) fd d
    (d'.ClientsWatched ∧ d'.event.table.used.Sublist d.event.table.used ∧
      d'.event.connections.Sublist d.event.connections ∧ d'.event.current = d.event.current) ∧
      d.submissions ≤ d'.submissions ∧ sentFds sub d'.log = sentFds sub d.log := by
  have hsame := closeSocket_unseen (sentFds_sendsOnly sub) flags answers depth hclient hnumber
  obtain ⟨con, hmem, htype, rfl⟩ := hclient
  exact ⟨(kept_shrinks flags sub).closeSocket (clientSend_shrinks flags answers depth) hmem htype h,
    hsame⟩

/-- Behind the last client the loop closes nothing, and it sends on the descriptors
there only. -/
theorem sendLoop_behind (send : ClientMessage → ClientDaemon → Int × ClientDaemon)
    (n : Nat) (sent : Bool) (h : d.ClientsWatched)
    (hbehind : ∀ cell ∈ d.event.table.used.drop i, ¬ d.Client cell.fd) {fd : Int}
    (hfd : fd ∉ (d.event.table.used.drop i).map PollFd.fd) :
    (sentFds sub (sendLoop flags answers send d.event.current sub n i sent d).2.log).count fd =
      (sentFds sub d.log).count fd := by
  induction n generalizing i sent d with
  | zero => rfl
  | succ n ih =>
      by_cases hi : i < d.event.table.nfds
      · obtain ⟨cell, hcell, hdrop⟩ := used_cons h.table hi
        rw [hdrop] at hbehind hfd
        rw [List.map_cons, List.mem_cons, not_or] at hfd
        have hrest := fun other hother => hbehind other (List.mem_cons_of_mem _ hother)
        obtain ⟨sent', d', hmet, hloop⟩ := sendLoop_cases send h hi hcell n sent
        rw [hloop]
        cases hmet with
        | accepted hclient _ => exact absurd hclient (hbehind cell List.mem_cons_self)
        | failed hfails => exact absurd hfails.1 (hbehind cell List.mem_cons_self)
        | sent _ accepted =>
            have hrecorded : (d.record (.sent sub cell.fd accepted)).ClientsWatched :=
              ⟨h.table, h.once, h.active, h.own, h.single, h.allowed⟩
            refine (ih sent' hrecorded hrest hfd.2).trans ?_
            rw [sentFds_sent, List.count_append, List.count_singleton]
            simp [Ne.symm hfd.1]
        | passed _ => exact ih sent' h hrest hfd.2
      · rw [ClientDaemon.sendLoop, if_neg hi]

/-- If no client stands behind one that the message cannot be sent to, it is sent once
to every client. -/
theorem sendLoop_reaches (flags : MctDaemonFlags) (answers : Answers) (i n depth : Nat)
    (sent : Bool) (h : d.ClientsWatched) (hnumber : sub.number < d.submissions)
    (hn : d.event.table.nfds ≤ i + n)
    (hfails : ((d.event.table.used.drop i).map PollFd.fd).Pairwise
      fun fd other => ¬(d.Fails answers sub fd ∧ d.Client other))
    {fd : Int} (hclient : d.Client fd) :
    (sentFds sub (sendLoop flags answers (clientSend flags answers depth) d.event.current sub n i
        sent d).2.log).count fd =
      (sentFds sub d.log).count fd + ((d.event.table.used.drop i).map PollFd.fd).count fd := by
  induction n generalizing i sent d with
  | zero =>
      have hlength : d.event.table.used.length ≤ i := by
        rw [used_length h.table]
        exact hn
      rw [List.drop_of_length_le hlength]
      rfl
  | succ n ih =>
      by_cases hi : i < d.event.table.nfds
      · obtain ⟨cell, hcell, hdrop⟩ := used_cons h.table hi
        have hcount := h.count_drop hclient i
        rw [hdrop, List.map_cons, List.pairwise_cons] at hfails
        obtain ⟨hfirst, hrest⟩ := hfails
        have hn' : d.event.table.nfds ≤ i + 1 + n := by omega
        obtain ⟨sent', d', hmet, hloop⟩ :=
          sendLoop_cases (clientSend flags answers depth) h hi hcell n sent
        rw [hloop]
        rw [hdrop, List.map_cons] at hcount ⊢
        have hrecorded : ∀ accepted, (d.record (.sent sub cell.fd accepted)).ClientsWatched :=
          fun _ => ⟨h.table, h.once, h.active, h.own, h.single, h.allowed⟩
        have hsent : ∀ accepted,
            (sentFds sub (d.record (.sent sub cell.fd accepted)).log).count fd =
              (sentFds sub d.log).count fd + [cell.fd].count fd := by
          intro accepted
          rw [sentFds_sent, List.count_append]
        have hcons : ∀ rest : List Int,
            (cell.fd :: rest).count fd = [cell.fd].count fd + rest.count fd :=
          fun rest => (List.count_append : ([cell.fd] ++ rest).count fd = _)
        rw [hcons, ← Nat.add_assoc]
        cases hmet with
        | accepted _ _ =>
            exact (ih (i + 1) sent' (hrecorded true) hnumber hn' hrest hclient).trans
              (congrArg (· + _) (hsent true))
        | failed hfails =>
            obtain ⟨⟨hwatched, htable, hconnections, hcurrent⟩, hsubmissions, hlog⟩ :=
              closeSocket_shrinks flags answers sub depth (hrecorded false) hfails.1 hnumber
            have hnone : ∀ other ∈ d.event.table.used.drop (i + 1), ¬ d.Client other.fd :=
              fun other hother hclient =>
                hfirst other.fd (List.mem_map_of_mem hother) ⟨hfails, hclient⟩
            have habsent : fd ∉ (d.event.table.used.drop (i + 1)).map PollFd.fd := by
              intro hmem
              obtain ⟨other, hother, rfl⟩ := List.mem_map.mp hmem
              exact hnone other hother hclient
            have hdrop' := htable.drop (i + 1)
            have hcurrent' := show _ = d.event.current from hcurrent
            rw [← hcurrent']
            refine (sendLoop_behind _ n sent' hwatched ?_ ?_).trans ?_
            · intro other hother hclient'
              exact hnone other (hdrop'.mem hother) (shrinks_client hconnections hclient')
            · exact fun hmem => habsent ((hdrop'.map PollFd.fd).mem hmem)
            · rw [hlog, hsent, List.count_eq_zero.mpr habsent, Nat.add_zero]
        | sent _ accepted =>
            exact (ih (i + 1) sent' (hrecorded accepted) hnumber hn' hrest hclient).trans
              (congrArg (· + _) (hsent accepted))
        | passed hcell =>
            have hne : cell.fd ≠ fd := fun hsame => hcell (hsame ▸ hclient)
            rw [List.count_singleton, if_neg (by simpa using hne), Nat.add_zero]
            exact ih (i + 1) sent' h hnumber hn' hrest hclient
      · have hlength : d.event.table.used.length ≤ i := by
          rw [used_length h.table]
          exact not_lt.mp hi
        rw [ClientDaemon.sendLoop, if_neg hi, List.drop_of_length_le hlength]
        rfl

end Loop

section Accepted

variable {flags : MctDaemonFlags} {answers : Answers} {sub : Submission} {d d' : ClientDaemon}
variable {send : ClientMessage → ClientDaemon → Int × ClientDaemon}

/-- The connections the loop sends to from entry `i` on, for so many entries. -/
def targets (d : ClientDaemon) (current : MctFilterConfiguration) : Nat → Nat → List MctConnection
  | 0, _ => []
  | n + 1, i =>
      if i < d.event.table.nfds then
        (d.target current i).toList ++ targets d current n (i + 1)
      else []

theorem targets_congr (h : d'.event = d.event) (current : MctFilterConfiguration) (n i : Nat) :
    d'.targets current n i = d.targets current n i := by
  induction n generalizing i with
  | zero => rfl
  | succ n ih => rw [targets, targets, ih, target, target, h]

/-- What the loop does when the message can be sent to everyone. -/
theorem sendLoop_accepted (haccepts : ∀ fd, answers.accepts sub.number fd = true)
    (current : MctFilterConfiguration) (n i : Nat) (sent : Bool) (d : ClientDaemon) :
    sendLoop flags answers send current sub n i sent d =
      (sent || !(d.targets current n i).isEmpty,
        { d with log := d.log ++
          (d.targets current n i).map fun con => .sent sub con.fd true }) := by
  induction n generalizing i sent d with
  | zero => simp [ClientDaemon.sendLoop, targets]
  | succ n ih =>
      rw [ClientDaemon.sendLoop, targets]
      by_cases hi : i < d.event.table.nfds
      · rw [if_pos hi, if_pos hi]
        cases htarget : d.target current i with
        | none =>
            rw [Option.toList_none, List.nil_append]
            exact ih _ _ _
        | some con =>
            have hsame : (d.record (.sent sub con.fd true)).targets current n (i + 1) =
                d.targets current n (i + 1) :=
              targets_congr (show (d.record _).event = d.event from rfl) current n (i + 1)
            simp only [haccepts]
            rw [if_neg (by simp), ih, hsame]
            simp [record]
      · rw [if_neg hi, if_neg hi]
        simp

/-- If everything that is sent from now on gets through, a call closes nothing. -/
theorem clientSend_accepted (n : Nat) (message : ClientMessage) (d : ClientDaemon)
    (haccepts : ∀ number fd, d.submissions ≤ number → answers.accepts number fd = true) :
    (clientSend flags answers n message d).2.event = d.event ∧
      d.submissions ≤ (clientSend flags answers n message d).2.submissions := by
  induction n generalizing message d with
  | zero => exact ⟨rfl, le_refl _⟩
  | succ n ih =>
      have hreport : ∀ d', d.submissions ≤ d'.submissions →
          (reportOverflow (clientSend flags answers n) d').event = d'.event ∧
            d.submissions ≤ (reportOverflow (clientSend flags answers n) d').submissions := by
        intro d' hle
        unfold reportOverflow
        split
        · simp only
          split
          · exact ⟨rfl, hle⟩
          · obtain ⟨hevent, hsubmissions⟩ := ih (.bufferOverflow d'.overflowCounter)
              { d' with sentMessageOverflowCnt := d'.sentMessageOverflowCnt + 1 }
              (fun number fd hnumber => haccepts number fd (hle.trans hnumber))
            split
            · exact ⟨hevent, hle.trans hsubmissions⟩
            · exact ⟨hevent, hle.trans hsubmissions⟩
        · exact ⟨rfl, hle⟩
      have hsockets : ∀ ret d', d'.submissions = d.submissions + 1 → d'.event = d.event →
          (sendSockets flags answers (clientSend flags answers n) false ⟨d.submissions, message⟩ ret
              d').2.event = d.event ∧
            d.submissions ≤ (sendSockets flags answers (clientSend flags answers n) false
              ⟨d.submissions, message⟩ ret d').2.submissions := by
        intro ret d' hsubmissions hevent
        have hle : d.submissions ≤ d'.submissions := hsubmissions ▸ Nat.le_succ _
        unfold sendSockets
        split
        · rw [sendAllMultiple, sendLoop_accepted fun fd => haccepts d.submissions fd (le_refl _)]
          exact ⟨hevent, hle⟩
        · exact ⟨hevent, hle⟩
      rw [clientSend, ClientDaemon.submit]
      have hsinks : (d.offlineSinks flags answers message).2.submissions = d.submissions + 1 := rfl
      have hsame : (d.offlineSinks flags answers message).2.event = d.event := rfl
      obtain ⟨hevent, hle⟩ := hsockets (d.offlineSinks flags answers message).1
        (d.offlineSinks flags answers message).2 hsinks hsame
      unfold ClientDaemon.dispatch
      simp only
      split
      · exact ⟨hevent, hle⟩
      · split
        · rcases store_cases answers ⟨d.submissions, message⟩ (sendSockets flags answers
            (clientSend flags answers n) false ⟨d.submissions, message⟩
            (d.offlineSinks flags answers message).1
            (d.offlineSinks flags answers message).2).2 with ⟨_, _, hstore⟩ | ⟨_, hstore⟩
          · rw [hstore]
            exact ⟨hevent, hle⟩
          · rw [hstore]
            exact ⟨hevent, hle⟩
        · obtain ⟨hevent', hle'⟩ := hreport _ hle
          exact ⟨hevent'.trans hevent, hle'⟩

/-- Closing a client whose end is told to everyone takes the client away only. -/
theorem closeSocket_accepted (flags : MctDaemonFlags) (depth : Nat) (h : d.ClientsWatched)
    {fd : Int} (hclient : d.Client fd)
    (haccepts : ∀ number fd, d.submissions ≤ number → answers.accepts number fd = true) :
    let d' := closeSocket flags (clientSend flags answers depth) fd d
    d'.event.table.used = d.event.table.used.filter (fun cell => cell.fd ≠ fd) ∧
      d'.event.connections = d.event.connections.filter (fun con => con.fd ≠ fd) ∧
      d.submissions ≤ d'.submissions := by
  obtain ⟨con, hmem, htype, rfl⟩ := hclient
  obtain ⟨-, hused, hconnections⟩ := closed_spec flags h hmem htype
  obtain ⟨hevent, hle⟩ := clientSend_accepted depth .connectionInfo (d.closed flags con.fd) haccepts
  obtain ⟨hevent', hle'⟩ := clientSend_accepted depth
    (.connectionClosed con.fd
      (clientSend flags answers depth .connectionInfo
        (d.closed flags con.fd)).2.event.clientConnections)
    (clientSend flags answers depth .connectionInfo (d.closed flags con.fd)).2
    fun number fd hnumber => haccepts number fd (hle.trans hnumber)
  have hboth := hevent'.trans hevent
  refine ⟨?_, ?_, hle.trans hle'⟩
  · exact (congrArg (fun event => event.table.used) hboth).trans hused
  · exact (congrArg EventState.connections hboth).trans hconnections

/-- What is left of the table behind an entry that is taken out. -/
theorem drop_filter_fd {cells : List PollFd} {cell : PollFd} {i : Nat}
    (hcell : cells[i]? = some cell) (honce : (cells.map PollFd.fd).count cell.fd ≤ 1) :
    (cells.filter fun other => other.fd ≠ cell.fd).drop (i + 1) = cells.drop (i + 2) := by
  obtain ⟨hlt, hget⟩ := List.getElem?_eq_some_iff.mp hcell
  have hsplit : cells = cells.take i ++ cell :: cells.drop (i + 1) := by
    rw [← hget, List.getElem_cons_drop, List.take_append_drop]
  have hlength : (cells.take i).length = i := by
    rw [List.length_take]
    omega
  rw [hsplit, List.map_append, List.map_cons, List.count_append, List.count_cons_self] at honce
  have habsent : ∀ part : List PollFd, (part.map PollFd.fd).count cell.fd = 0 →
      part.filter (fun other => other.fd ≠ cell.fd) = part := by
    intro part hnone
    rw [List.filter_eq_self]
    intro other hother
    have hne : other.fd ≠ cell.fd := fun hsame =>
      List.count_eq_zero.mp hnone (hsame ▸ List.mem_map_of_mem hother)
    simpa using hne
  have hfilter : (cells.filter fun other => other.fd ≠ cell.fd) =
      cells.take i ++ cells.drop (i + 1) := by
    conv_lhs => rw [hsplit]
    rw [List.filter_append, List.filter_cons_of_neg (by simp), habsent _ (by omega),
      habsent _ (by omega)]
  rw [hfilter, List.drop_append, hlength, List.drop_of_length_le (by omega), List.nil_append,
    List.drop_drop]
  congr 1
  omega

/-- The message goes to the descriptors of the walk, and a client that is not on it stays
connected. Of a descriptor that stands in `behind` and is no client's nothing is said. -/
structure Served (sub : Submission) (walk behind : List Int) (d after : ClientDaemon) : Prop where
  sends : ∀ fd, d.Client fd ∨ fd ∉ behind →
    (sentFds sub after.log).count fd = (sentFds sub d.log).count fd + walk.count fd
  stays : ∀ con ∈ d.event.connections, con.type = .clientMsgTcp → con.fd ∉ walk →
    con ∈ after.event.connections

theorem Served.refl (behind : List Int) : Served sub [] behind d d :=
  ⟨fun _ _ => rfl, fun _ hmem _ _ => hmem⟩

theorem count_cons_fd (fd first : Int) (rest : List Int) :
    (first :: rest).count fd = [first].count fd + rest.count fd :=
  (List.count_append : ([first] ++ rest).count fd = _)

theorem count_sentFds_record (fd first : Int) (accepted : Bool) :
    (sentFds sub (d.record (.sent sub first accepted)).log).count fd =
      (sentFds sub d.log).count fd + [first].count fd := by
  rw [sentFds_sent, List.count_append]

/-- The message was sent to the first entry, which stays in the table. -/
theorem Served.cons_sent {first : Int} {walk behind : List Int} {accepted : Bool}
    {after : ClientDaemon}
    (h : Served sub walk behind (d.record (.sent sub first accepted)) after) :
    Served sub (first :: walk) (first :: behind) d after where
  sends fd hfd := by
    have hbehind : d.Client fd ∨ fd ∉ behind :=
      hfd.imp_right fun habsent hmem => habsent (List.mem_cons_of_mem _ hmem)
    rw [h.sends fd hbehind, count_sentFds_record, Nat.add_assoc, count_cons_fd fd first walk]
  stays con hmem htype hwalk :=
    h.stays con hmem htype fun hlater => hwalk (List.mem_cons_of_mem _ hlater)

/-- Nothing was sent for the first entry, which is no client's. -/
theorem Served.cons_passed {first : Int} {walk behind : List Int} {after : ClientDaemon}
    (hclient : ¬ d.Client first) (h : Served sub walk behind d after) :
    Served sub (first :: walk) (first :: behind) d after where
  sends fd hfd := by
    have hbehind : d.Client fd ∨ fd ∉ behind :=
      hfd.imp_right fun habsent hmem => habsent (List.mem_cons_of_mem _ hmem)
    have hne : first ≠ fd := by
      rintro rfl
      exact hfd.elim hclient fun habsent => habsent List.mem_cons_self
    rw [h.sends fd hbehind, count_cons_fd, List.count_singleton, if_neg (by simpa using hne),
      Nat.zero_add]
  stays con hmem htype hwalk :=
    h.stays con hmem htype fun hlater => hwalk (List.mem_cons_of_mem _ hlater)

/-- A client the message could not be sent to has been closed: all that is left of it is
that the send was tried. -/
structure TakenOut (sub : Submission) (fd : Int) (d d' : ClientDaemon) : Prop where
  watched : d'.ClientsWatched
  current : d'.event.current = d.event.current
  used : d'.event.table.used = d.event.table.used.filter fun other => other.fd ≠ fd
  connections : d'.event.connections = d.event.connections.filter fun con => con.fd ≠ fd
  tried : sentFds sub d'.log = sentFds sub d.log ++ [fd]
  later : d.submissions ≤ d'.submissions

theorem closeSocket_takenOut (flags : MctDaemonFlags) (depth : Nat) (h : d.ClientsWatched)
    (hnumber : sub.number < d.submissions) {fd : Int} (hclient : d.Client fd)
    (haccepts : ∀ number fd, d.submissions ≤ number → answers.accepts number fd = true) :
    TakenOut sub fd d
      (closeSocket flags (clientSend flags answers depth) fd (d.record (.sent sub fd false))) := by
  have hrecorded : (d.record (.sent sub fd false)).ClientsWatched :=
    ⟨h.table, h.once, h.active, h.own, h.single, h.allowed⟩
  obtain ⟨⟨hwatched, -, -, hcurrent⟩, -, hlog⟩ :=
    closeSocket_shrinks flags answers sub depth hrecorded hclient hnumber
  obtain ⟨hused, hconnections, hle⟩ := closeSocket_accepted flags depth hrecorded hclient haccepts
  exact ⟨hwatched, hcurrent, hused, hconnections, hlog.trans (sentFds_sent fd false), hle⟩

theorem TakenOut.client_iff {first : Int} (h : TakenOut sub first d d') (fd : Int) :
    d'.Client fd ↔ d.Client fd ∧ fd ≠ first := by
  constructor
  · rintro ⟨con, hmem, htype, rfl⟩
    rw [h.connections, List.mem_filter] at hmem
    exact ⟨⟨con, hmem.1, htype, rfl⟩, by simpa using hmem.2⟩
  · rintro ⟨⟨con, hmem, htype, rfl⟩, hne⟩
    refine ⟨con, ?_, htype, rfl⟩
    rw [h.connections, List.mem_filter]
    exact ⟨hmem, by simpa using hne⟩

theorem TakenOut.not_mem_drop {first : Int} (h : TakenOut sub first d d') (k : Nat) :
    first ∉ (d'.event.table.used.drop k).map PollFd.fd := by
  intro hmem
  have hused := ((List.drop_sublist k _).map PollFd.fd).mem hmem
  rw [h.used] at hused
  obtain ⟨other, hother, hsame⟩ := List.mem_map.mp hused
  exact absurd hsame (by simpa using (List.mem_filter.mp hother).2)

/-- The entry behind the closed client moves to its place, where the loop has been. -/
theorem TakenOut.drop_fds {cell : PollFd} {i : Nat} (h : TakenOut sub cell.fd d d')
    (hcell : d.event.table.used[i]? = some cell) (honce : d.fds.count cell.fd ≤ 1) :
    (d'.event.table.used.drop (i + 1)).map PollFd.fd =
      ((d.event.table.used.drop (i + 1)).map PollFd.fd).tail := by
  rw [h.used, drop_filter_fd hcell honce, ← List.map_tail, List.tail_drop]

theorem TakenOut.fails_iff {first fd : Int} (h : TakenOut sub first d d') (hne : fd ≠ first) :
    d'.Fails answers sub fd ↔ d.Fails answers sub fd := by
  rw [Fails, Fails, h.client_iff]
  exact ⟨fun hboth => ⟨hboth.1.1, hboth.2⟩, fun hboth => ⟨⟨hboth.1, hne⟩, hboth.2⟩⟩

theorem TakenOut.nfds_le {first : Int} (h : TakenOut sub first d d')
    (htable : d.event.table.WellFormed) : d'.event.table.nfds ≤ d.event.table.nfds := by
  rw [← used_length h.watched.table, ← used_length htable, h.used]
  exact List.length_filter_le _ _

/-- The first entry was a client that is closed, and the walk goes on behind the next. -/
theorem Served.cons_closed {first : Int} {walk behind : List Int} {after : ClientDaemon}
    (hclosed : TakenOut sub first d d') (habsent : first ∉ behind.tail)
    (h : Served sub walk behind.tail d' after) :
    Served sub (first :: walk) (first :: behind) d after where
  sends fd hfd := by
    have hbehind : d'.Client fd ∨ fd ∉ behind.tail := by
      by_cases hsame : fd = first
      · exact .inr (hsame ▸ habsent)
      · refine hfd.imp (fun hclient => (hclosed.client_iff fd).mpr ⟨hclient, hsame⟩) ?_
        exact fun hnot hmem => hnot (List.mem_cons_of_mem _ (List.mem_of_mem_tail hmem))
    rw [h.sends fd hbehind, hclosed.tried, List.count_append, Nat.add_assoc,
      count_cons_fd fd first walk]
  stays con hmem htype hwalk := by
    have hne : con.fd ≠ first := fun hsame => hwalk (hsame ▸ List.mem_cons_self)
    refine h.stays con ?_ htype fun hlater => hwalk (List.mem_cons_of_mem _ hlater)
    rw [hclosed.connections, List.mem_filter]
    exact ⟨hmem, by simpa using hne⟩

/-- The loop sends to the clients that a walk along the table comes to, and leaves the
others alone. -/
theorem sendLoop_walks (flags : MctDaemonFlags) (out : Int → Prop) [DecidablePred out]
    (n depth i : Nat) (sent : Bool)
    (h : d.ClientsWatched) (hnumber : sub.number < d.submissions)
    (hn : d.event.table.nfds ≤ i + n)
    (haccepts : ∀ number fd, d.submissions ≤ number → answers.accepts number fd = true)
    (hout : ∀ fd ∈ (d.event.table.used.drop i).map PollFd.fd, out fd ↔ d.Fails answers sub fd) :
    Served sub (visited out ((d.event.table.used.drop i).map PollFd.fd))
      ((d.event.table.used.drop i).map PollFd.fd) d
      (sendLoop flags answers (clientSend flags answers depth) d.event.current sub n i
        sent d).2 := by
  induction n generalizing i sent d with
  | zero =>
      have hlength : d.event.table.used.length ≤ i := by
        rw [used_length h.table]
        exact hn
      rw [List.drop_of_length_le hlength]
      exact .refl _
  | succ n ih =>
      by_cases hi : i < d.event.table.nfds
      · obtain ⟨cell, hcell, hdrop⟩ := used_cons h.table hi
        have hn' : d.event.table.nfds ≤ i + 1 + n := by omega
        rw [hdrop, List.map_cons] at hout
        have hrest := fun fd hfd => hout fd (List.mem_cons_of_mem _ hfd)
        have hfirst := hout cell.fd List.mem_cons_self
        obtain ⟨sent', d', hmet, hloop⟩ :=
          sendLoop_cases (clientSend flags answers depth) h hi hcell n sent
        rw [hloop, hdrop, List.map_cons]
        have hrecorded : ∀ accepted, (d.record (.sent sub cell.fd accepted)).ClientsWatched :=
          fun _ => ⟨h.table, h.once, h.active, h.own, h.single, h.allowed⟩
        cases hmet with
        | accepted hclient haccept =>
            have hnot : ¬ out cell.fd := fun hout => by simp [(hfirst.mp hout).2] at haccept
            rw [visited_cons_of_not out hnot]
            exact (ih (i + 1) sent' (hrecorded true) hnumber hn' haccepts hrest).cons_sent
        | sent hclient accepted =>
            have hnot : ¬ out cell.fd := fun hout => hclient (hfirst.mp hout).1
            rw [visited_cons_of_not out hnot]
            exact (ih (i + 1) sent' (hrecorded accepted) hnumber hn' haccepts hrest).cons_sent
        | passed hclient =>
            have hnot : ¬ out cell.fd := fun hout => hclient (hfirst.mp hout).1
            rw [visited_cons_of_not out hnot]
            exact (ih (i + 1) sent' h hnumber hn' haccepts hrest).cons_passed hclient
        | failed hfails =>
            have hclosed := closeSocket_takenOut flags depth h hnumber hfails.1 haccepts
            revert hclosed
            generalize closeSocket flags (clientSend flags answers depth) cell.fd
              (d.record (.sent sub cell.fd false)) = d'
            intro hclosed
            have hdrop' := hclosed.drop_fds hcell (h.once cell.fd hfails.1)
            have habsent := hclosed.not_mem_drop (i + 1)
            have hout' : ∀ fd ∈ (d'.event.table.used.drop (i + 1)).map PollFd.fd,
                out fd ↔ d'.Fails answers sub fd := by
              intro fd hfd
              rw [hclosed.fails_iff fun hsame => habsent (hsame ▸ hfd)]
              exact hrest fd (List.mem_of_mem_tail (hdrop' ▸ hfd))
            have hserved := ih (i + 1) sent' hclosed.watched
              (lt_of_lt_of_le hnumber hclosed.later) ((hclosed.nfds_le h.table).trans hn')
              (fun number fd hlater => haccepts number fd (hclosed.later.trans hlater)) hout'
            rw [hdrop', hclosed.current] at hserved
            rw [visited_cons_of_out out (hfirst.mpr hfails)]
            exact hserved.cons_closed hclosed (hdrop' ▸ habsent)
      · have hlength : d.event.table.used.length ≤ i := by
          rw [used_length h.table]
          exact not_lt.mp hi
        rw [ClientDaemon.sendLoop, if_neg hi, List.drop_of_length_le hlength]
        exact .refl _

end Accepted

/-- If no client stands in the table behind one that the message cannot be sent to, every
client that stays is sent the message once. When what is sent on closing gets through, it
is enough, and necessary, that no client stands right behind one that the message cannot
be sent to. -/
theorem reaches_iff (flags : MctDaemonFlags) (answers : Answers) (n : Nat) (sub : Submission)
    (d : ClientDaemon) (h : d.ClientsWatched) (hnumber : sub.number < d.submissions) :
    (d.fds.Pairwise (fun fd other => ¬(d.Fails answers sub fd ∧ d.Client other)) →
      Reaches flags answers n sub d) ∧
      ((∀ number fd, d.submissions ≤ number → answers.accepts number fd = true) →
        (Reaches flags answers n sub d ↔
          d.fds.IsChain fun fd other => ¬(d.Fails answers sub fd ∧ d.Client other))) := by
  constructor
  · intro hfails con hmem htype hin _
    have hclient : d.Client con.fd := ⟨con, hmem, htype, rfl⟩
    have hreaches := sendLoop_reaches flags answers 0 d.event.table.nfds n false h hnumber
      (Nat.le_add_left _ _) hfails hclient
    have hone : d.fds.count con.fd = 1 :=
      le_antisymm (h.once _ hclient) (List.count_pos_iff.mpr hin)
    exact hreaches.trans (congrArg _ hone)
  · intro haccepts
    obtain ⟨hcount, hkept⟩ := sendLoop_walks flags (d.Fails answers sub) d.event.table.nfds n
      0 false h hnumber (Nat.le_add_left _ _) haccepts fun _ _ => Iff.rfl
    rw [List.drop_zero] at hcount hkept
    have hwalk : (∀ fd ∈ d.fds, d.Client fd → fd ∈ visited (d.Fails answers sub) d.fds) ↔
        d.fds.IsChain fun fd other => ¬(d.Fails answers sub fd ∧ d.Client other) :=
      forall_mem_visited_iff (fun _ hfails => hfails.1) h.once
    rw [← hwalk]
    have hsub := visited_sublist (d.Fails answers sub) d.fds
    constructor
    · intro hreaches fd hin hclient
      by_contra hskipped
      obtain ⟨con, hmem, htype, rfl⟩ := hclient
      have hsent := hreaches con hmem htype hin (hkept con hmem htype hskipped)
      have hnone := hcount con.fd (.inl ⟨con, hmem, htype, rfl⟩)
      have hzero : (visited (d.Fails answers sub) (d.event.table.used.map PollFd.fd)).count con.fd =
          0 := List.count_eq_zero.mpr hskipped
      rw [hzero] at hnone
      exact absurd (hsent.symm.trans hnone) (by simp)
    · intro hall con hmem htype hin _
      have hclient : d.Client con.fd := ⟨con, hmem, htype, rfl⟩
      have hone : (visited (d.Fails answers sub) d.fds).count con.fd = 1 :=
        le_antisymm ((hsub.count_le _).trans (h.once _ hclient))
          (List.count_pos_iff.mpr (hall con.fd hin hclient))
      exact (hcount con.fd (.inl hclient)).trans (congrArg _ hone)

/-- Two clients are connected and a message is on its way to them, which cannot be sent
on one of the descriptors. -/
def failsOn (fd : Int) : Answers :=
  ⟨fun number other => ¬(number = 2 ∧ other = fd), fun _ _ => true, fun _ => []⟩
def twoClients : ClientDaemon :=
  (runOps (step bothSinks) buffering [(.connect 3, failsOn 0), (.connect 4, failsOn 0)]).2
def delivering : ClientDaemon :=
  (twoClients.offlineSinks bothSinks (failsOn 0) (.application [1])).2

theorem delivering_watched : delivering.ClientsWatched where
  table := ⟨by decide +kernel, by decide +kernel, by decide +kernel, by decide +kernel⟩
  once := by
    have hall : ∀ con ∈ delivering.event.connections, con.type = .clientMsgTcp →
        delivering.fds.count con.fd ≤ 1 := by
      decide +kernel
    rintro fd ⟨con, hmem, htype, rfl⟩
    exact hall con hmem htype
  active := by decide +kernel
  own := by decide +kernel
  single := by decide +kernel
  allowed := by decide

theorem reaches_iff_sample :
    Reaches bothSinks (failsOn 4) delivering.depth ⟨2, .application [1]⟩ delivering :=
  (reaches_iff bothSinks (failsOn 4) delivering.depth ⟨2, .application [1]⟩ delivering
    delivering_watched (by decide +kernel)).1 (by decide +kernel)

/-- The first client is closed, and the second one, which moves to its place, is passed
over. -/
theorem second_client_passed_over :
    ¬ Reaches bothSinks (failsOn 3) delivering.depth ⟨2, .application [1]⟩ delivering := by
  intro hreaches
  have hsecond := hreaches ⟨4, .clientMsgTcp, .active, 1⟩ (by decide +kernel) rfl
    (by decide +kernel) (by decide +kernel)
  exact absurd hsecond (by decide +kernel)

end ClientDaemon

end MctDaemon.Daemon
