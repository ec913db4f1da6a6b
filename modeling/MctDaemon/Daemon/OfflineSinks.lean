import MctDaemon.Daemon.ClientActions

/-!
The offline trace and the storage devices along a run of the daemon: which messages
they are handed, and what becomes of a message for which the first device has turned
the network off.
-/

namespace MctDaemon.Daemon

open Lib

/-- The messages of the calls with the state each call found. -/
def callsIn (log : List ClientEvent) : List (Submission × MctDaemonState) :=
  log.filterMap fun event =>
    match event with
    | .submitted sub state _ => some (sub, state)
    | _ => none

def tracedIn (log : List ClientEvent) : List Submission :=
  log.filterMap fun event =>
    match event with
    | .traced sub => some sub
    | _ => none

def storedIn (log : List ClientEvent) : List Submission :=
  log.filterMap fun event =>
    match event with
    | .stored sub _ => some sub
    | _ => none

/-- The first device has turned the network off for the message. -/
def DisablesNetwork (writes : List (Option DeviceWrite)) : Prop :=
  ∃ write later, writes = some write :: later ∧ write.disableNw

def FirstDeviceOnly (writes : List (Option DeviceWrite)) : Prop :=
  ∀ write ∈ writes.tail, write = none

namespace ClientDaemon

/-- Nothing has happened and nothing waits. -/
structure Fresh (d : ClientDaemon) : Prop where
  log : d.log = []
  number : d.submissions = 0
  ring : d.clientRingbuffer = []

/-- Every message of a call is handed once to each sink that is set up. -/
structure HandedOnce (flags : MctDaemonFlags) (log : List ClientEvent) : Prop where
  traced : flags.offlineTraceDirectory ≠ [] →
    ∀ call ∈ callsIn log, (tracedIn log).count call.1 = 1
  stored : 0 < flags.offlineLogstorageMaxDevices →
    ∀ call ∈ callsIn log, (storedIn log).count call.1 = 1

/-- The sinks are handed the calls that do not come during a replay, in order. -/
structure SinksFollow (flags : MctDaemonFlags) (d : ClientDaemon) : Prop where
  trace : d.event.current.AllowsClient .clientMsgOfflineTrace
  storage : d.event.current.AllowsClient .clientMsgOfflineLogstorage
  numbers : (callsIn d.log).map (fun call => call.1.number) = List.range d.submissions
  traced : flags.offlineTraceDirectory ≠ [] →
    tracedIn d.log = ((callsIn d.log).filter fun call => call.2 ≠ .sendBuffer).map Prod.fst
  stored : 0 < flags.offlineLogstorageMaxDevices →
    storedIn d.log = ((callsIn d.log).filter fun call => call.2 ≠ .sendBuffer).map Prod.fst

section Sinks

variable {flags : MctDaemonFlags} {d d' : ClientDaemon}

theorem Fresh.ringLogged (h : d.Fresh) : d.RingLogged := by
  intro sub hsub
  rw [h.ring] at hsub
  exact absurd hsub List.not_mem_nil

theorem Fresh.sinksFollow (h : d.Fresh)
    (htrace : d.event.current.AllowsClient .clientMsgOfflineTrace)
    (hstorage : d.event.current.AllowsClient .clientMsgOfflineLogstorage) :
    d.SinksFollow flags := by
  refine ⟨htrace, hstorage, ?_, fun _ => ?_, fun _ => ?_⟩
  · rw [h.log, h.number]
    rfl
  · rw [h.log]
    rfl
  · rw [h.log]
    rfl

/-- An action that hands nothing to the sinks leaves what they follow as it is. -/
theorem SinksFollow.quiet (h : d.SinksFollow flags) (events : List ClientEvent)
    (hlog : d'.log = d.log ++ events) (hcalls : callsIn events = [])
    (htraced : tracedIn events = []) (hstored : storedIn events = [])
    (hcurrent : d'.event.current = d.event.current) (hnumber : d'.submissions = d.submissions) :
    d'.SinksFollow flags := by
  have hcallsIn : callsIn d'.log = callsIn d.log := by
    rw [hlog, callsIn, List.filterMap_append]
    exact (congrArg _ hcalls).trans (List.append_nil _)
  have htracedIn : tracedIn d'.log = tracedIn d.log := by
    rw [hlog, tracedIn, List.filterMap_append]
    exact (congrArg _ htraced).trans (List.append_nil _)
  have hstoredIn : storedIn d'.log = storedIn d.log := by
    rw [hlog, storedIn, List.filterMap_append]
    exact (congrArg _ hstored).trans (List.append_nil _)
  refine ⟨hcurrent ▸ h.trace, hcurrent ▸ h.storage, ?_, ?_, ?_⟩
  · rw [hcallsIn, hnumber]
    exact h.numbers
  · rw [hcallsIn, htracedIn]
    exact h.traced
  · rw [hcallsIn, hstoredIn]
    exact h.stored

theorem SinksFollow.sinks (h : d.SinksFollow flags) (answers : Answers) (message : ClientMessage) :
    (d.offlineSinks flags answers message).2.SinksFollow flags := by
  refine ⟨h.trace, h.storage, ?_, ?_, ?_⟩
  · have hnumbers := h.numbers
    simp only [offlineSinks, callsIn, List.filterMap_append, List.map_append] at hnumbers ⊢
    rw [hnumbers, List.range_succ]
    split <;> split <;> simp
  · intro hdirectory
    have htraced := h.traced hdirectory
    by_cases hstate : d.state = .sendBuffer
    · have hnot : ¬ d.TracesOffline flags := fun htraces => htraces.1 hstate
      have hnot' : ¬ d.StoresOffline flags := fun hstores => hstores.1 hstate
      simpa [offlineSinks, callsIn, tracedIn, hnot, hnot', hstate] using htraced
    · have htraces : d.TracesOffline flags := ⟨hstate, h.trace, hdirectory⟩
      simp only [offlineSinks, callsIn, tracedIn, if_pos htraces, List.filterMap_append,
        List.filter_append, List.map_append] at htraced ⊢
      rw [htraced]
      split <;> simp [hstate]
  · intro hdevices
    have hstored := h.stored hdevices
    by_cases hstate : d.state = .sendBuffer
    · have hnot : ¬ d.TracesOffline flags := fun htraces => htraces.1 hstate
      have hnot' : ¬ d.StoresOffline flags := fun hstores => hstores.1 hstate
      simpa [offlineSinks, callsIn, storedIn, hnot, hnot', hstate] using hstored
    · have hstores : d.StoresOffline flags := ⟨hstate, h.storage, hdevices⟩
      simp only [offlineSinks, callsIn, storedIn, if_pos hstores, List.filterMap_append,
        List.filter_append, List.map_append] at hstored ⊢
      rw [hstored]
      split <;> simp [hstate]

theorem connectionCreate_frame (fd : Int) (d : ClientDaemon) :
    (d.connectionCreate fd).log = d.log ∧ (d.connectionCreate fd).submissions = d.submissions ∧
      (d.connectionCreate fd).event.current = d.event.current := by
  unfold connectionCreate
  split
  · exact ⟨rfl, rfl, rfl⟩
  · exact ⟨rfl, rfl, rfl⟩

theorem unregister_current (s : EventState) (fd : Int) :
    (s.unregister fd).2.current = s.current := by
  unfold EventState.unregister
  repeat' split
  all_goals rfl

theorem Action.sinksFollow (haction : Action flags d d') (h : d.SinksFollow flags) :
    d'.SinksFollow flags := by
  have hsame := (List.append_nil d.log).symm
  cases haction with
  | sinks answers message => exact h.sinks answers message
  | send hsub fd accepted => exact h.quiet [.sent _ fd accepted] rfl rfl rfl rfl rfl rfl
  | push hsub => exact h.quiet [.buffered _] rfl rfl rfl rfl rfl rfl
  | discard sub => exact h.quiet [.discarded sub] rfl rfl rfl rfl rfl rfl
  | changeState state => exact h.quiet [] hsame rfl rfl rfl rfl rfl
  | close fd => exact h.quiet [] hsame rfl rfl rfl (unregister_current d.event fd) rfl
  | connect fd =>
      obtain ⟨hlog, hnumber, hcurrent⟩ := connectionCreate_frame fd d
      exact h.quiet [] (hlog.trans hsame) rfl rfl rfl hcurrent hnumber
  | count overflowCounter cnt => exact h.quiet [] hsame rfl rfl rfl rfl rfl
  | remove => exact h.quiet [] hsame rfl rfl rfl rfl rfl

/-- A message of a call is among those handed on exactly if the call does not come
during a replay. -/
theorem SinksFollow.count_handed (h : d.SinksFollow flags) {call : Submission × MctDaemonState}
    (hcall : call ∈ callsIn d.log) :
    (((callsIn d.log).filter fun call => call.2 ≠ .sendBuffer).map Prod.fst).count call.1 = 1 ↔
      call.2 ≠ .sendBuffer := by
  have hnodup : ((callsIn d.log).map fun call => call.1.number).Nodup := by
    rw [h.numbers]
    exact List.nodup_range
  have hinj : ∀ other ∈ callsIn d.log, other.1 = call.1 → other = call :=
    fun other hother hsame =>
      List.inj_on_of_nodup_map hnodup hother hcall (congrArg Submission.number hsame)
  have hsubs : (((callsIn d.log).filter fun call => call.2 ≠ .sendBuffer).map Prod.fst).Nodup := by
    refine List.Nodup.of_map Submission.number ?_
    rw [List.map_map]
    exact hnodup.sublist (List.filter_sublist.map _)
  rw [hsubs.count]
  constructor
  · intro hone
    have hmem : call.1 ∈
        ((callsIn d.log).filter fun call => call.2 ≠ .sendBuffer).map Prod.fst := by
      by_contra habsent
      rw [if_neg habsent] at hone
      exact absurd hone (by decide)
    obtain ⟨other, hother, hsame⟩ := List.mem_map.mp hmem
    obtain ⟨hlisted, hstate⟩ := List.mem_filter.mp hother
    rw [← hinj other hlisted hsame]
    simpa using hstate
  · intro hstate
    rw [if_pos]
    exact List.mem_map_of_mem (List.mem_filter.mpr ⟨hcall, by simpa using hstate⟩)

theorem mem_callsIn {log : List ClientEvent} {call : Submission × MctDaemonState} :
    call ∈ callsIn log ↔ ∃ ret, .submitted call.1 call.2 ret ∈ log := by
  rw [callsIn, List.mem_filterMap]
  constructor
  · rintro ⟨event, hmem, hevent⟩
    cases event with
    | submitted sub state ret =>
        obtain rfl := Option.some.inj hevent
        exact ⟨ret, hmem⟩
    | _ => exact absurd hevent (by simp)
  · rintro ⟨ret, hmem⟩
    exact ⟨_, hmem, rfl⟩

end Sinks

/-- In every run the offline sinks are handed each message once if and only if no
message is submitted in the state in which the ring buffer is replayed. -/
theorem handed_once_iff (flags : MctDaemonFlags) (d : ClientDaemon) (hfresh : d.Fresh)
    (htrace : d.event.current.AllowsClient .clientMsgOfflineTrace)
    (hstorage : d.event.current.AllowsClient .clientMsgOfflineLogstorage)
    (events : List (Input × Answers)) :
    let final := (runOps (step flags) d events).2
    HandedOnce flags final.log ↔
      flags.offlineTraceDirectory ≠ [] ∨ 0 < flags.offlineLogstorageMaxDevices →
        ∀ sub ret, .submitted sub .sendBuffer ret ∉ final.log := by
  intro final
  have hfollow : final.SinksFollow flags :=
    run_keeps (fun _ _ haction => haction.sinksFollow) hfresh.ringLogged
      (hfresh.sinksFollow htrace hstorage) events
  constructor
  · intro hhanded hsink sub ret hsubmitted
    have hcall : (sub, MctDaemonState.sendBuffer) ∈ callsIn final.log :=
      mem_callsIn.mpr ⟨ret, hsubmitted⟩
    rcases hsink with hdirectory | hdevices
    · have hone := hhanded.traced hdirectory _ hcall
      rw [hfollow.traced hdirectory] at hone
      exact (hfollow.count_handed hcall).mp hone rfl
    · have hone := hhanded.stored hdevices _ hcall
      rw [hfollow.stored hdevices] at hone
      exact (hfollow.count_handed hcall).mp hone rfl
  · intro hidle
    have hstate : flags.offlineTraceDirectory ≠ [] ∨ 0 < flags.offlineLogstorageMaxDevices →
        ∀ call ∈ callsIn final.log, call.2 ≠ .sendBuffer := by
      intro hsink call hcall hsame
      obtain ⟨ret, hsubmitted⟩ := mem_callsIn.mp hcall
      exact hidle hsink call.1 ret (hsame ▸ hsubmitted)
    constructor
    · intro hdirectory call hcall
      rw [hfollow.traced hdirectory]
      exact (hfollow.count_handed hcall).mpr (hstate (.inl hdirectory) call hcall)
    · intro hdevices call hcall
      rw [hfollow.stored hdevices]
      exact (hfollow.count_handed hcall).mpr (hstate (.inr hdevices) call hcall)

/-- A filter that allows every connection, a daemon that buffers, and flags with both
sinks set up. -/
def everyConnection : MctFilterConfiguration :=
  ⟨[], 0, 50, 65535, 0, [], noInjections_counted⟩
def buffering : ClientDaemon := ⟨.prepare everyConnection, .buffer, [], 0, 0, 0, []⟩
def bothSinks : MctDaemonFlags := ⟨[], ['/'], 1, 0, 0, false⟩

/-- Every message is sent, the second one does not fit, and the device answers so. -/
def secondTooLarge (disableNw : Bool) : Answers :=
  ⟨fun _ _ => true, fun number _ => number ≠ 1, fun _ => [some ⟨0, disableNw⟩]⟩

theorem buffering_fresh : buffering.Fresh := ⟨rfl, rfl, rfl⟩

def everyFits : Answers := ⟨fun _ _ => true, fun _ _ => true, fun _ => [some ⟨0, false⟩]⟩

theorem handed_once_iff_sample :
    HandedOnce bothSinks (runOps (step bothSinks) buffering
      [(.message [1], everyFits), (.connect 7, everyFits)]).2.log := by
  apply (handed_once_iff bothSinks buffering buffering_fresh (by decide) (by decide) _).mpr
  intro _ sub ret hsubmitted
  have hcalls : ∀ call ∈ callsIn (runOps (step bothSinks) buffering
      [(.message [1], everyFits), (.connect 7, everyFits)]).2.log, call.2 ≠ .sendBuffer := by
    decide +kernel
  exact hcalls (sub, .sendBuffer) (mem_callsIn.mpr ⟨ret, hsubmitted⟩) rfl

/-- One message is kept and one is discarded. When a client connects, the report about
that is submitted during the replay, and no sink is handed it. -/
theorem report_not_handed :
    ¬ HandedOnce bothSinks (runOps (step bothSinks) buffering
      [(.message [1], secondTooLarge false), (.message [2], secondTooLarge false),
        (.connect 7, secondTooLarge false)]).2.log := by
  intro hhanded
  have hone := hhanded.traced (by decide) (⟨3, .bufferOverflow 2⟩, .sendBuffer) (by decide +kernel)
  exact absurd hone (by decide +kernel)

theorem logstorageWriteLoop_none (devices : List (Option DeviceWrite))
    (hnone : ∀ write ∈ devices, write = none) (i : Nat) (ret : Int) :
    logstorageWriteLoop i ret devices = ret := by
  induction devices generalizing i with
  | nil => rfl
  | cons write devices ih =>
      obtain rfl := hnone write List.mem_cons_self
      exact ih (fun later hlater => hnone later (List.mem_cons_of_mem _ hlater)) (i + 1)

/-- The answer of the first device is the answer if no other one is configured. -/
theorem logstorageWrite_disables {message : ClientMessage} {writes : List (Option DeviceWrite)}
    (hmessage : message ≠ .time) (hdisables : DisablesNetwork writes)
    (honly : FirstDeviceOnly writes) : logstorageWrite message writes = 1 := by
  obtain ⟨write, later, rfl, hwrite⟩ := hdisables
  have hloop : logstorageWriteLoop 0 0 (some write :: later) = 1 := by
    rw [logstorageWriteLoop, if_pos ⟨rfl, hwrite⟩]
    exact logstorageWriteLoop_none later honly 1 1
  cases message with
  | time => exact absurd rfl hmessage
  | _ => exact hloop

/-- The log of each call is of one piece, and what is sent or kept was free to be. -/
structure Routed (d : ClientDaemon) : Prop where
  submitted : ∀ sub state ret, .submitted sub state ret ∈ d.log → sub.number < d.submissions
  stored : ∀ sub writes, .stored sub writes ∈ d.log →
    sub.number < d.submissions ∧ (writes ≠ [] → sub.message ≠ .time)
  agreed : ∀ sub state ret writes, .submitted sub state ret ∈ d.log → .stored sub writes ∈ d.log →
    state ≠ .sendBuffer ∧ ret = logstorageWrite sub.message writes
  sent : ∀ sub fd accepted, .sent sub fd accepted ∈ d.log → d.Cleared sub
  buffered : ∀ sub, .buffered sub ∈ d.log → d.Bufferable sub

section Routing

variable {flags : MctDaemonFlags} {d d' : ClientDaemon}

theorem Fresh.routed (h : d.Fresh) : d.Routed := by
  refine ⟨?_, ?_, ?_, ?_, ?_⟩
  all_goals
    rw [h.log]
    intros
    contradiction

theorem Action.cleared (h : Action flags d d') {sub : Submission} (hsub : d.Cleared sub) :
    d'.Cleared sub := h.once.cleared hsub

theorem Action.bufferable (h : Action flags d d') {sub : Submission} (hsub : d.Bufferable sub) :
    d'.Bufferable sub := by
  obtain ⟨state, ret, hmem, hstate⟩ := hsub
  exact ⟨state, ret, h.mem_log hmem, hstate⟩

/-- An action that logs at most one event, and none about a call, keeps the log in
order if the event is free to be. -/
theorem Routed.quiet (h : d.Routed) (haction : Action flags d d') (events : List ClientEvent)
    (hlog : d'.log = d.log ++ events) (hnumber : d'.submissions = d.submissions)
    (hsubmitted : ∀ sub state ret, .submitted sub state ret ∉ events)
    (hstored : ∀ sub writes, .stored sub writes ∉ events)
    (hsent : ∀ sub fd accepted, .sent sub fd accepted ∈ events → d.Cleared sub)
    (hbuffered : ∀ sub, .buffered sub ∈ events → d.Bufferable sub) : d'.Routed := by
  have hold : ∀ event, event ∈ d'.log → event ∈ d.log ∨ event ∈ events := by
    intro event hmem
    rw [hlog] at hmem
    exact List.mem_append.mp hmem
  have hcall : ∀ sub state ret, .submitted sub state ret ∈ d'.log →
      .submitted sub state ret ∈ d.log :=
    fun sub state ret hmem => (hold _ hmem).resolve_right (hsubmitted sub state ret)
  have hwrites : ∀ sub writes, .stored sub writes ∈ d'.log → .stored sub writes ∈ d.log :=
    fun sub writes hmem => (hold _ hmem).resolve_right (hstored sub writes)
  refine ⟨?_, ?_, ?_, ?_, ?_⟩
  · intro sub state ret hmem
    rw [hnumber]
    exact h.submitted sub state ret (hcall _ _ _ hmem)
  · intro sub writes hmem
    rw [hnumber]
    exact h.stored sub writes (hwrites _ _ hmem)
  · intro sub state ret writes hmem hmem'
    exact h.agreed sub state ret writes (hcall _ _ _ hmem) (hwrites _ _ hmem')
  · intro sub fd accepted hmem
    rcases hold _ hmem with hmem | hmem
    · exact haction.cleared (h.sent sub fd accepted hmem)
    · exact haction.cleared (hsent sub fd accepted hmem)
  · intro sub hmem
    rcases hold _ hmem with hmem | hmem
    · exact haction.bufferable (h.buffered sub hmem)
    · exact haction.bufferable (hbuffered sub hmem)

theorem deviceWrites_time {answers : Answers} {sub : Submission}
    (h : deviceWrites flags answers sub ≠ []) : sub.message ≠ .time := by
  intro htime
  rw [deviceWrites, htime] at h
  exact h rfl

/-- What the offline sinks log is about the new call only. -/
theorem mem_offlineSinks {answers : Answers} {message : ClientMessage} {event : ClientEvent}
    (h : event ∈ (d.offlineSinks flags answers message).2.log) :
    event ∈ d.log ∨ event = .traced ⟨d.submissions, message⟩ ∨
      (event = .stored ⟨d.submissions, message⟩
          (deviceWrites flags answers ⟨d.submissions, message⟩) ∧ d.StoresOffline flags) ∨
      event = .submitted ⟨d.submissions, message⟩ d.state
        (if d.StoresOffline flags then
          logstorageWrite message (deviceWrites flags answers ⟨d.submissions, message⟩)
        else 0) := by
  simp only [offlineSinks, List.mem_append, List.mem_singleton] at h
  rcases h with ((h | h) | h) | h
  · exact .inl h
  · split at h
    · exact .inr (.inl (List.mem_singleton.mp h))
    · exact absurd h List.not_mem_nil
  · split at h
    · next hstores => exact .inr (.inr (.inl ⟨List.mem_singleton.mp h, hstores⟩))
    · exact absurd h List.not_mem_nil
  · exact .inr (.inr (.inr h))

theorem Routed.sinks (h : d.Routed) (answers : Answers) (message : ClientMessage) :
    (d.offlineSinks flags answers message).2.Routed := by
  have haction : Action flags d (d.offlineSinks flags answers message).2 := .sinks answers message d
  have hnumber : (d.offlineSinks flags answers message).2.submissions = d.submissions + 1 := rfl
  refine ⟨?_, ?_, ?_, ?_, ?_⟩
  · intro sub state ret hmem
    rcases mem_offlineSinks hmem with hold | hnew | ⟨hnew, _⟩ | hnew
    · rw [hnumber]
      exact Nat.lt_succ_of_lt (h.submitted sub state ret hold)
    · exact absurd hnew (by simp)
    · exact absurd hnew (by simp)
    · obtain ⟨rfl, -, -⟩ := ClientEvent.submitted.inj hnew
      exact Nat.lt_succ_self _
  · intro sub writes hmem
    rcases mem_offlineSinks hmem with hold | hnew | ⟨hnew, _⟩ | hnew
    · rw [hnumber]
      exact ⟨Nat.lt_succ_of_lt (h.stored sub writes hold).1, (h.stored sub writes hold).2⟩
    · exact absurd hnew (by simp)
    · obtain ⟨rfl, rfl⟩ := ClientEvent.stored.inj hnew
      exact ⟨Nat.lt_succ_self _, deviceWrites_time⟩
    · exact absurd hnew (by simp)
  · intro sub state ret writes hmem hmem'
    rcases mem_offlineSinks hmem with hold | hnew | ⟨hnew, _⟩ | hnew
    · rcases mem_offlineSinks hmem' with hold' | hnew' | ⟨hnew', _⟩ | hnew'
      · exact h.agreed sub state ret writes hold hold'
      · exact absurd hnew' (by simp)
      · obtain ⟨rfl, -⟩ := ClientEvent.stored.inj hnew'
        exact absurd (h.submitted _ state ret hold) (lt_irrefl _)
      · exact absurd hnew' (by simp)
    · exact absurd hnew (by simp)
    · exact absurd hnew (by simp)
    · obtain ⟨rfl, rfl, rfl⟩ := ClientEvent.submitted.inj hnew
      rcases mem_offlineSinks hmem' with hold' | hnew' | ⟨hnew', hstores⟩ | hnew'
      · exact absurd (h.stored _ writes hold').1 (lt_irrefl _)
      · exact absurd hnew' (by simp)
      · obtain ⟨-, rfl⟩ := ClientEvent.stored.inj hnew'
        exact ⟨hstores.1, if_pos hstores⟩
      · exact absurd hnew' (by simp)
  · intro sub fd accepted hmem
    rcases mem_offlineSinks hmem with hold | hnew | ⟨hnew, _⟩ | hnew
    · exact haction.cleared (h.sent sub fd accepted hold)
    all_goals exact absurd hnew (by simp)
  · intro sub hmem
    rcases mem_offlineSinks hmem with hold | hnew | ⟨hnew, _⟩ | hnew
    · exact haction.bufferable (h.buffered sub hold)
    all_goals exact absurd hnew (by simp)

theorem Action.routed (haction : Action flags d d') (h : d.Routed) : d'.Routed := by
  have hsame := (List.append_nil d.log).symm
  have hnothing : ∀ {d' : ClientDaemon}, Action flags d d' → d'.log = d.log →
      d'.submissions = d.submissions → d'.Routed := by
    intro d' haction hlog hnumber
    exact h.quiet haction [] (hlog.trans hsame) hnumber (by simp) (by simp) (by simp) (by simp)
  cases haction with
  | sinks answers message => exact h.sinks answers message
  | send hsub fd accepted =>
      have hsends : Action flags d (d.record (.sent _ fd accepted)) := .send hsub fd accepted
      refine h.quiet hsends [.sent _ fd accepted] rfl rfl (by simp) (by simp) ?_ (by simp)
      rintro sub fd' accepted' hmem
      obtain ⟨rfl, -, -⟩ := ClientEvent.sent.inj (List.mem_singleton.mp hmem)
      exact hsub
  | push hsub =>
      have hpushes : Action flags d (d.push _) := .push hsub
      refine h.quiet hpushes [.buffered _] rfl rfl (by simp) (by simp) (by simp) ?_
      intro sub hmem
      obtain rfl := ClientEvent.buffered.inj (List.mem_singleton.mp hmem)
      exact hsub
  | discard sub =>
      have hdiscards : Action flags d (d.discard sub) := .discard sub d
      exact h.quiet hdiscards [.discarded sub] rfl rfl (by simp) (by simp) (by simp) (by simp)
  | changeState state => exact hnothing (.changeState state d) rfl rfl
  | close fd => exact hnothing (.close fd d) rfl rfl
  | connect fd =>
      obtain ⟨hlog, hnumber, -⟩ := connectionCreate_frame fd d
      exact hnothing (.connect fd d) hlog hnumber
  | count overflowCounter cnt => exact hnothing (.count overflowCounter cnt d) rfl rfl
  | remove => exact hnothing (.remove d) rfl rfl

end Routing

/-- In every run in which a message that the first device keeps off the network is
submitted neither in the state in which messages are buffered nor while another device
is configured, such a message is never sent to a client. -/
theorem disabled_never_sent (flags : MctDaemonFlags) (d : ClientDaemon) (hfresh : d.Fresh)
    (events : List (Input × Answers)) :
    let final := (runOps (step flags) d events).2
    (∀ sub state ret writes, .submitted sub state ret ∈ final.log →
      .stored sub writes ∈ final.log → DisablesNetwork writes →
        state ≠ .buffer ∧ FirstDeviceOnly writes) →
      ∀ sub writes, .stored sub writes ∈ final.log → DisablesNetwork writes →
        ∀ fd accepted, .sent sub fd accepted ∉ final.log := by
  intro final hcalls sub writes hstored hdisables fd accepted hsent
  have hrouted : final.Routed :=
    run_keeps (fun _ _ haction => haction.routed) hfresh.ringLogged hfresh.routed events
  have hret : ∀ state ret, .submitted sub state ret ∈ final.log →
      state ≠ .buffer ∧ state ≠ .sendBuffer ∧ ret = 1 := by
    intro state ret hsubmitted
    obtain ⟨hstate, honly⟩ := hcalls sub state ret writes hsubmitted hstored hdisables
    obtain ⟨hreplay, hwritten⟩ := hrouted.agreed sub state ret writes hsubmitted hstored
    obtain ⟨write, later, hsome, _⟩ := id hdisables
    have hmessage := (hrouted.stored sub writes hstored).2 (hsome ▸ List.cons_ne_nil _ _)
    exact ⟨hstate, hreplay, hwritten.trans (logstorageWrite_disables hmessage hdisables honly)⟩
  rcases hrouted.sent sub fd accepted hsent with ⟨ret, hsubmitted, hne⟩ | hbuffered
  · exact hne (hret _ ret hsubmitted).2.2
  · obtain ⟨state, ret, hsubmitted, hstate⟩ := hrouted.buffered sub hbuffered
    obtain ⟨hbuffer, hreplay, hone⟩ := hret state ret hsubmitted
    rcases hstate with hstate | hstate | ⟨_, hne⟩
    · exact hbuffer hstate
    · exact hreplay hstate
    · exact hne hone

/-- A client is connected, and then a message is kept off the network. -/
def disabledDirect : List (Input × Answers) :=
  [(.connect 7, secondTooLarge false), (.message [1], secondTooLarge true)]

theorem disabled_never_sent_sample :
    let final := (runOps (step bothSinks) buffering disabledDirect).2
    .stored ⟨1, .application [1]⟩ [some ⟨0, true⟩] ∈ final.log ∧
      ∀ sub writes, .stored sub writes ∈ final.log → DisablesNetwork writes →
        ∀ fd accepted, .sent sub fd accepted ∉ final.log := by
  refine ⟨by decide +kernel,
    disabled_never_sent bothSinks buffering buffering_fresh disabledDirect ?_⟩
  intro sub state ret writes hsubmitted hstored hdisables
  have hwrites : ∀ event ∈ (runOps (step bothSinks) buffering disabledDirect).2.log,
      event = .stored ⟨0, .connectionEstablished 7 1⟩ [some ⟨0, false⟩] ∨
        event = .stored ⟨1, .application [1]⟩ [some ⟨0, true⟩] ∨
        event = .submitted ⟨0, .connectionEstablished 7 1⟩ .buffer 0 ∨
        event = .submitted ⟨1, .application [1]⟩ .sendDirect 1 ∨
        callsIn [event] = [] ∧ storedIn [event] = [] := by
    decide +kernel
  rcases hwrites _ hstored with h | h | h | h | h
  · obtain ⟨rfl, rfl⟩ := ClientEvent.stored.inj h
    obtain ⟨write, later, hsome, hwrite⟩ := hdisables
    obtain ⟨hfirst, -⟩ := List.cons.inj hsome
    obtain rfl := Option.some.inj hfirst
    exact absurd hwrite (by decide)
  · obtain ⟨rfl, rfl⟩ := ClientEvent.stored.inj h
    rcases hwrites _ hsubmitted with h' | h' | h' | h' | h'
    · exact absurd h' (by simp)
    · exact absurd h' (by simp)
    · exact absurd h' (by simp)
    · obtain ⟨-, rfl, -⟩ := ClientEvent.submitted.inj h'
      exact ⟨by decide, fun write hmem => absurd hmem List.not_mem_nil⟩
    · exact absurd h'.1 (by simp [callsIn])
  · exact absurd h (by simp)
  · exact absurd h (by simp)
  · exact absurd h.2 (by simp [storedIn])

/-- The message is submitted while messages are buffered, and it is sent to the client
that connects then. -/
theorem disabled_sent_later :
    let final := (runOps (step bothSinks) buffering
      [(.message [1], secondTooLarge true), (.connect 7, secondTooLarge true)]).2
    .stored ⟨0, .application [1]⟩ [some ⟨0, true⟩] ∈ final.log ∧
      .sent ⟨0, .application [1]⟩ 7 true ∈ final.log := by
  decide +kernel

end ClientDaemon

end MctDaemon.Daemon
