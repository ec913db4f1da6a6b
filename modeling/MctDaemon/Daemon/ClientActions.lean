import MctDaemon.Daemon.ClientSend

/-!
What the daemon can do in one go while it handles an event for its clients. Whatever
calls are within each other, an event is a sequence of such actions, so that a fact
about the log is shown for each action once.
-/

namespace MctDaemon.Daemon

open Lib

namespace ClientDaemon

/-- The message may be sent: its call came in the state for that and the devices let it
pass, or it comes from the ring buffer. -/
def Cleared (d : ClientDaemon) (sub : Submission) : Prop :=
  (∃ ret, .submitted sub .sendDirect ret ∈ d.log ∧ ret ≠ 1) ∨ .buffered sub ∈ d.log

/-- The message may be buffered: its call came in a state for that, or the message has
just been sent. -/
def Bufferable (d : ClientDaemon) (sub : Submission) : Prop :=
  ∃ state ret, .submitted sub state ret ∈ d.log ∧
    (state = .buffer ∨ state = .sendBuffer ∨ state = .sendDirect ∧ ret ≠ 1)

inductive Action (flags : MctDaemonFlags) : ClientDaemon → ClientDaemon → Prop where
  | sinks (answers : Answers) (message : ClientMessage) (d : ClientDaemon) :
      Action flags d (d.offlineSinks flags answers message).2
  | send {sub : Submission} {d : ClientDaemon} (hsub : d.Cleared sub) (fd : Int) (accepted : Bool) :
      Action flags d (d.record (.sent sub fd accepted))
  | push {sub : Submission} {d : ClientDaemon} (hsub : d.Bufferable sub) :
      Action flags d (d.push sub)
  | discard (sub : Submission) (d : ClientDaemon) : Action flags d (d.discard sub)
  | changeState (state : MctDaemonState) (d : ClientDaemon) : Action flags d (d.changeState state)
  | close (fd : Int) (d : ClientDaemon) : Action flags d (d.closed flags fd)
  | connect (fd : Int) (d : ClientDaemon) : Action flags d (d.connectionCreate fd)
  | count (overflowCounter sentMessageOverflowCnt : Nat) (d : ClientDaemon) :
      Action flags d { d with
        overflowCounter := overflowCounter
        sentMessageOverflowCnt := sentMessageOverflowCnt }
  | remove (d : ClientDaemon) :
      Action flags d { d with clientRingbuffer := d.clientRingbuffer.tail }

def Actions (flags : MctDaemonFlags) : ClientDaemon → ClientDaemon → Prop :=
  Relation.ReflTransGen (Action flags)

section Actions

variable {flags : MctDaemonFlags} {answers : Answers}
variable {send : ClientMessage → ClientDaemon → Int × ClientDaemon} {d d' d'' : ClientDaemon}

theorem Actions.refl (d : ClientDaemon) : Actions flags d d := Relation.ReflTransGen.refl

theorem Actions.trans (h : Actions flags d d') (h' : Actions flags d' d'') :
    Actions flags d d'' := Relation.ReflTransGen.trans h h'

theorem Action.once (h : Action flags d d') : Actions flags d d' := Relation.ReflTransGen.single h

/-- What every action keeps is kept. -/
theorem Actions.keeps {inv : ClientDaemon → Prop}
    (haction : ∀ d d', Action flags d d' → inv d → inv d') (h : Actions flags d d')
    (hinv : inv d) : inv d' := by
  induction h with
  | refl => exact hinv
  | tail _ hlast ih => exact haction _ _ hlast ih

/-- The log only grows. -/
theorem Action.mem_log (h : Action flags d d') {event : ClientEvent} (hmem : event ∈ d.log) :
    event ∈ d'.log := by
  cases h with
  | sinks answers message =>
      simp only [offlineSinks, List.append_assoc]
      exact List.mem_append_left _ hmem
  | send hsub fd accepted => exact List.mem_append_left _ hmem
  | push hsub => exact List.mem_append_left _ hmem
  | discard sub => exact List.mem_append_left _ hmem
  | changeState state => exact hmem
  | close fd => exact hmem
  | connect fd =>
      unfold connectionCreate
      split
      · exact hmem
      · exact hmem
  | count overflowCounter cnt => exact hmem
  | remove => exact hmem

theorem Actions.mem_log (h : Actions flags d d') {event : ClientEvent} (hmem : event ∈ d.log) :
    event ∈ d'.log :=
  @Actions.keeps flags d d' (fun d => event ∈ d.log) (fun _ _ haction => haction.mem_log) h hmem

theorem Actions.cleared (h : Actions flags d d') {sub : Submission} (hsub : d.Cleared sub) :
    d'.Cleared sub := by
  rcases hsub with ⟨ret, hmem, hret⟩ | hmem
  · exact .inl ⟨ret, h.mem_log hmem, hret⟩
  · exact .inr (h.mem_log hmem)

/-- The calls within this one are sequences of actions. -/
def Acts (flags : MctDaemonFlags)
    (send : ClientMessage → ClientDaemon → Int × ClientDaemon) : Prop :=
  ∀ message d, Actions flags d (send message d).2

theorem Acts.closeSocket (h : Acts flags send) (fd : Int) (d : ClientDaemon) :
    Actions flags d (closeSocket flags send fd d) :=
  (Action.close fd d).once.trans ((h _ _).trans (h _ _))

theorem Acts.sendLoop (h : Acts flags send) (current : MctFilterConfiguration) {sub : Submission}
    (n i : Nat) (sent : Bool) {d : ClientDaemon} (hsub : d.Cleared sub) :
    Actions flags d (sendLoop flags answers send current sub n i sent d).2 := by
  induction n generalizing i sent d with
  | zero => exact .refl d
  | succ n ih =>
      unfold ClientDaemon.sendLoop
      split
      · cases d.target current i with
        | none => exact ih _ _ hsub
        | some con =>
            have hsent : Actions flags d
                (d.record (.sent sub con.fd (answers.accepts sub.number con.fd))) :=
              (Action.send hsub _ _).once
            simp only
            split
            · have hclosed := hsent.trans (h.closeSocket con.fd _)
              exact hclosed.trans (ih _ _ (hclosed.cleared hsub))
            · exact hsent.trans (ih _ _ (hsent.cleared hsub))
      · exact .refl d

theorem Acts.reportOverflow (h : Acts flags send) (d : ClientDaemon) :
    Actions flags d (reportOverflow send d) := by
  unfold ClientDaemon.reportOverflow
  split
  · simp only
    split
    · exact (Action.count _ _ d).once
    · have hreport := (Action.count d.overflowCounter (d.sentMessageOverflowCnt + 1) d).once.trans
        (h (.bufferOverflow d.overflowCounter) _)
      split
      · exact hreport.trans (Action.count _ _ _).once
      · exact hreport
  · exact .refl d

theorem store_actions {sub : Submission} (hsub : d.state ≠ .bufferFull → d.Bufferable sub) :
    Actions flags d (store answers sub d).2 := by
  rcases store_cases answers sub d with ⟨hstate, _, hstore⟩ | ⟨_, hstore⟩
  · rw [hstore]
    exact (Action.push (hsub hstate)).once
  · rw [hstore]
    exact (Action.changeState .bufferFull d).once.trans (Action.discard sub _).once

/-- A message of a call is sent, kept or discarded as its state and the devices have it. -/
theorem Acts.dispatch_toAll (h : Acts flags send) {sub : Submission} {ret : Int}
    (hsub : .submitted sub d.state ret ∈ d.log) :
    Actions flags d (dispatch flags answers send false sub ret d).2 := by
  by_cases hsend : (d.event.current.AllowsClient .clientMsgTcp ∨
      d.event.current.AllowsClient .clientMsgSerial) ∧ d.state = .sendDirect ∧ ret ≠ 1
  · obtain ⟨hallowed, hdirect, hret⟩ := hsend
    rw [hdirect] at hsub
    have hsent : Actions flags d (sendAllMultiple flags answers send sub d).2 :=
      h.sendLoop _ _ _ _ (.inl ⟨ret, hsub, hret⟩)
    have hbufferable : (sendAllMultiple flags answers send sub d).2.Bufferable sub :=
      ⟨.sendDirect, ret, hsent.mem_log hsub, .inr (.inr ⟨rfl, hret⟩)⟩
    unfold dispatch ClientDaemon.sendSockets
    rw [if_pos ⟨hallowed, .inr hdirect, hret⟩]
    simp only [Bool.false_eq_true, false_and, if_false, not_false_eq_true, true_and]
    split
    · exact hsent.trans (store_actions fun _ => hbufferable)
    · exact hsent.trans (h.reportOverflow _)
  · unfold dispatch ClientDaemon.sendSockets
    simp only [Bool.false_eq_true, false_or, false_and, if_false, not_false_eq_true, true_and]
    rw [if_neg hsend]
    simp only
    split
    · next hstate =>
        refine store_actions fun hfull => ⟨d.state, ret, hsub, ?_⟩
        rcases hstate with hstate | hstate | hstate
        · exact .inl hstate
        · exact .inr (.inl hstate)
        · exact absurd hstate hfull
    · exact h.reportOverflow d

/-- A message from the ring buffer is sent. -/
theorem Acts.dispatch_force (h : Acts flags send) {sub : Submission}
    (hsub : .buffered sub ∈ d.log) (ret : Int) :
    Actions flags d (dispatch flags answers send true sub ret d).2 := by
  have hsent : Actions flags d (ClientDaemon.sendSockets flags answers send true sub ret d).2 := by
    unfold ClientDaemon.sendSockets
    split
    · exact h.sendLoop _ _ _ _ (.inr hsub)
    · exact .refl d
  unfold dispatch
  simp only [not_true_eq_false, false_and, if_false, true_and]
  split
  · exact hsent
  · exact hsent.trans (h.reportOverflow _)

theorem Acts.submit (h : Acts flags send) (message : ClientMessage) (d : ClientDaemon) :
    Actions flags d (submit flags answers send message d).2 := by
  refine (Action.sinks answers message d).once.trans ?_
  unfold ClientDaemon.submit
  refine h.dispatch_toAll ?_
  simp only [offlineSinks, List.append_assoc]
  simp

theorem clientSend_acts (n : Nat) : Acts flags (clientSend flags answers n) := by
  induction n with
  | zero => exact fun _ d => .refl d
  | succ n ih => exact fun message d => ih.submit message d

theorem sendToAll_actions (flags : MctDaemonFlags) (answers : Answers) (message : ClientMessage)
    (d : ClientDaemon) :
    Actions flags d (sendToAll flags answers message d).2 := clientSend_acts _ message d

/-- The log tells of the messages in the ring buffer. -/
def RingLogged (d : ClientDaemon) : Prop := ∀ sub ∈ d.clientRingbuffer, .buffered sub ∈ d.log

theorem Action.ringLogged (h : Action flags d d') (hring : d.RingLogged) : d'.RingLogged := by
  intro sub hsub
  have hkept : ∀ other ∈ d.clientRingbuffer, .buffered other ∈ d'.log :=
    fun other hother => h.mem_log (hring other hother)
  cases h with
  | push hbufferable =>
      rcases List.mem_append.mp hsub with hsub | hsub
      · exact hkept sub hsub
      · obtain rfl := List.mem_singleton.mp hsub
        exact List.mem_append_right _ (List.mem_singleton_self _)
  | connect fd =>
      refine hkept sub ?_
      unfold connectionCreate at hsub
      split at hsub <;> exact hsub
  | remove => exact hkept sub (List.mem_of_mem_tail hsub)
  | sinks answers message => exact hkept sub hsub
  | send hcleared fd accepted => exact hkept sub hsub
  | discard other => exact hkept sub hsub
  | changeState state => exact hkept sub hsub
  | close fd => exact hkept sub hsub
  | count overflowCounter cnt => exact hkept sub hsub

theorem Actions.ringLogged (h : Actions flags d d') (hring : d.RingLogged) : d'.RingLogged :=
  h.keeps (fun _ _ haction => haction.ringLogged) hring

theorem replayLoop_actions (n : Nat) (hring : d.RingLogged) :
    Actions flags d (replayLoop flags answers n d).2 := by
  induction n generalizing d with
  | zero => exact .refl d
  | succ n ih =>
      unfold replayLoop
      cases hhead : d.clientRingbuffer with
      | nil => exact .refl d
      | cons sub rest =>
          have hmem : .buffered sub ∈ d.log := hring sub (hhead ▸ List.mem_cons_self)
          have hsent : Actions flags d (sendForce flags answers sub d).2 :=
            (clientSend_acts d.depth).dispatch_force hmem 0
          simp only
          split
          · exact hsent
          · have hremoved := (hsent.trans (Action.remove _).once).trans
              (Action.changeState .sendBuffer _).once
            split
            · exact hremoved.trans (Action.changeState .sendDirect _).once
            · exact hremoved.trans (ih (hremoved.ringLogged hring))

theorem sendRingbufferToClient_actions (hring : d.RingLogged) :
    Actions flags d (sendRingbufferToClient flags answers d).2 := by
  unfold sendRingbufferToClient
  split
  · exact (Action.changeState .sendDirect d).once
  · exact replayLoop_actions _ hring

theorem clientUpdate_actions (hring : d.RingLogged) :
    Actions flags d (clientUpdate flags answers d) := by
  have hreplay : Actions flags d (sendRingbufferToClient flags answers d).2 :=
    sendRingbufferToClient_actions hring
  unfold clientUpdate
  simp only
  split
  · exact hreplay
  · split
    · have hreport := hreplay.trans (sendToAll_actions flags answers
        (.bufferOverflow (sendRingbufferToClient flags answers d).2.overflowCounter) _)
      split
      · exact hreport.trans (Action.count 0 _ _).once
      · exact hreport
    · exact hreplay

theorem processClientConnect_actions (fd : Int) (hring : d.RingLogged) :
    Actions flags d (processClientConnect flags answers fd d) := by
  have hcreated : Actions flags d (d.connectionCreate fd) := (Action.connect fd d).once
  unfold processClientConnect
  simp only
  generalize hinfo : (if 0 < flags.sendEcuSoftwareVersion then
      if 0 < flags.sendTimezone then
        (sendToAll flags answers .timezone
          (sendToAll flags answers .softwareVersion (d.connectionCreate fd)).2).2
      else (sendToAll flags answers .softwareVersion (d.connectionCreate fd)).2
    else d.connectionCreate fd) = informed
  have hinformed : Actions flags d informed := by
    rw [← hinfo]
    split
    · split
      · exact (hcreated.trans (sendToAll_actions _ _ _ _)).trans (sendToAll_actions _ _ _ _)
      · exact hcreated.trans (sendToAll_actions _ _ _ _)
    · exact hcreated
  have hestablished := hinformed.trans (sendToAll_actions flags answers
    (.connectionEstablished fd informed.event.clientConnections) informed)
  split
  · have hreplaying := hestablished.trans (Action.changeState .sendBuffer _).once
    exact hreplaying.trans (clientUpdate_actions (hreplaying.ringLogged hring))
  · exact hestablished

/-- An event is a sequence of actions. -/
theorem step_actions (hring : d.RingLogged) (event : Input × Answers) :
    Actions flags d (step flags d event).2 := by
  obtain ⟨input, answers⟩ := event
  cases input with
  | message data => exact sendToAll_actions _ _ _ d
  | connect fd => exact processClientConnect_actions fd hring
  | disconnect fd => exact (clientSend_acts d.depth).closeSocket fd d
  | oneSTimer =>
      unfold step processOneSTimer
      simp only
      generalize hreplay : (if d.state = .sendBuffer ∨ d.state = .bufferFull then
        (sendRingbufferToClient flags answers d).2 else d) = replayed
      have hreplayed : Actions flags d replayed := by
        rw [← hreplay]
        split
        · exact sendRingbufferToClient_actions hring
        · exact .refl d
      split
      · exact hreplayed.trans (sendToAll_actions _ _ _ _)
      · exact hreplayed
  | sixtySTimer =>
      unfold step processSixtySTimer
      simp only
      generalize hversion : (if 0 < flags.sendEcuSoftwareVersion then
        (sendToAll flags answers .softwareVersion d).2 else d) = informed
      have hinformed : Actions flags d informed := by
        rw [← hversion]
        split
        · exact sendToAll_actions _ _ _ _
        · exact .refl d
      split
      · exact hinformed.trans (sendToAll_actions _ _ _ _)
      · exact hinformed

/-- What every action keeps holds at the end of every run. -/
theorem run_keeps {inv : ClientDaemon → Prop}
    (haction : ∀ d d', Action flags d d' → inv d → inv d') (hring : d.RingLogged) (hinv : inv d)
    (events : List (Input × Answers)) : inv (runOps (step flags) d events).2 := by
  refine (@runOps_keeps _ _ _ (step flags) (fun _ _ => True) (fun d => d.RingLogged ∧ inv d) ?_ _
    ⟨hring, hinv⟩ events (guarded_true _ _ _)).2
  intro d event hd _
  have hactions : Actions flags d (step flags d event).2 := step_actions hd.1 event
  exact ⟨hactions.ringLogged hd.1, hactions.keeps haction hd.2⟩

end Actions

end ClientDaemon

end MctDaemon.Daemon
