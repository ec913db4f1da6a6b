import MctDaemon.Daemon.ClientBacklog

/-!
The runs of the daemon in which no message for the clients is lost: what a call does
while messages are kept and while they are sent, the replay of the ring buffer to a
single client, and what every event keeps as long as the first client of the table
accepts what it is sent or is the only one, and every message fits into the empty ring
buffer.
-/

namespace MctDaemon.Daemon

open Lib

namespace ClientDaemon

/-- Messages are kept for later, and the ring buffer is full only if something is in it. -/
def Keeping (d : ClientDaemon) : Prop :=
  d.state = .buffer ∨ d.state = .sendBuffer ∨ d.state = .bufferFull ∧ d.clientRingbuffer ≠ []

/-- A message is kept, and may then be owed for, or it is discarded. -/
structure Stored (opened held : List Submission) (owed : Nat) (sub : Submission)
    (d : ClientDaemon) (result : Int × ClientDaemon) : Prop where
  event : result.2.event = d.event
  filled : result.2.clientRingbuffer ≠ []
  kept : result.1 = 0 → d.state ≠ .bufferFull ∧ result.2.state = d.state ∧
    result.2.overflowCounter = d.overflowCounter ∧
    Books opened held (owed + reportCount sub) result.2
  discarded : result.1 ≠ 0 → result.2.state = .bufferFull ∧ Books opened held owed result.2

/-- The last client has been closed, and messages are kept. -/
structure Emptied (opened held : List Submission) (owed : Nat) (d d' : ClientDaemon) : Prop where
  wired : d'.Wired
  none : d'.clientFds = []
  state : d'.state = .buffer ∨ d'.state = .bufferFull
  filled : d'.clientRingbuffer ≠ []
  counter : d'.state = .buffer → d'.overflowCounter = d.overflowCounter
  books : Books opened held owed d'

section Keeping

variable {flags : MctDaemonFlags} {answers : Answers} {d d' : ClientDaemon}
variable {sub : Submission} {fd : Int} {opened held : List Submission} {owed : Nat}
variable {result : Int × ClientDaemon}

theorem Keeping.buffers (h : d.Keeping) : d.Buffers :=
  h.imp_right fun hrest => hrest.imp_right And.left

theorem Stored.keeping (h : Stored opened held owed sub d result) (hkeeping : d.Keeping) :
    result.2.Keeping := by
  by_cases hret : result.1 = 0
  · obtain ⟨hfull, hstate, -, -⟩ := h.kept hret
    rw [Keeping, hstate]
    exact hkeeping.imp_right fun hkeeping => hkeeping.imp_right fun hboth => absurd hboth.1 hfull
  · exact .inr (.inr ⟨(h.discarded hret).1, h.filled⟩)

theorem Stored.quiet (h : Stored opened held owed sub d result) (hsub : reportCount sub = 0) :
    Books opened held owed result.2 := by
  by_cases hret : result.1 = 0
  · have hbooks := (h.kept hret).2.2.2
    rwa [hsub] at hbooks
  · exact (h.discarded hret).2

theorem store_stored (hfits : ∀ number, answers.fits number [] = true)
    (h : Books (sub :: opened) (sub :: held) (owed + reportCount sub) d) (hkeeping : d.Keeping) :
    Stored opened held owed sub d (store answers sub d) := by
  rcases store_cases answers sub d with ⟨hfull, _, hstore⟩ | ⟨hfull, hstore⟩
  · rw [hstore]
    refine ⟨rfl, ?_, fun _ => ⟨hfull, rfl, rfl, h.push⟩, fun hret => absurd rfl hret⟩
    exact List.append_ne_nil_of_right_ne_nil _ (List.cons_ne_nil _ _)
  · rw [hstore]
    have hbooks : Books (sub :: opened) (sub :: held) (owed + reportCount sub)
        (d.changeState .bufferFull) := h.congr rfl rfl rfl
    have hret : mctDaemonErrorBufferFull ≠ 0 := by decide
    refine ⟨rfl, ?_, fun hzero => absurd hzero hret, fun _ => ⟨rfl, hbooks.discard⟩⟩
    intro hempty
    have hring : d.clientRingbuffer = [] := hempty
    rcases hfull with hfull | hfull
    · rcases hkeeping with hstate | hstate | ⟨-, hring'⟩
      · exact absurd (hfull.symm.trans hstate) (by decide)
      · exact absurd (hfull.symm.trans hstate) (by decide)
      · exact hring' hring
    · rw [hring] at hfull
      exact hfull (hfits _)

theorem keeping_call (flags : MctDaemonFlags)
    (hfits : ∀ number, answers.fits number [] = true) (n : Nat) (message : ClientMessage)
    (h : Books opened held owed d) (hkeeping : d.Keeping)
    (hsingle : IsApplication ⟨d.submissions, message⟩ → ∀ other ∈ opened, ¬ IsApplication other) :
    Stored opened held owed ⟨d.submissions, message⟩ d
      (clientSend flags answers (n + 1) message d) := by
  rw [clientSend_buffers flags answers n message hkeeping.buffers]
  have hsinks : (d.offlineSinks flags answers message).2.Keeping := hkeeping
  obtain ⟨hevent, hfilled, hkept, hdiscarded⟩ := store_stored hfits
    (h.sinks flags answers message hsingle) hsinks
  exact ⟨hevent, hfilled, hkept, hdiscarded⟩

/-- The last client is closed. -/
theorem closeSocket_last (hyvalue : flags.yvalue = [])
    (hfits : ∀ number, answers.fits number [] = true) (n : Nat) (h : d.Wired)
    (hsingle : d.clientFds = [fd]) (hbooks : Books opened held owed d) :
    Emptied opened held owed d (closeSocket flags (clientSend flags answers (n + 1)) fd d) := by
  have hclient : d.Client fd := (mem_clientFds h).mp (hsingle ▸ List.mem_singleton_self fd)
  obtain ⟨hwired, hfds, -, -⟩ := h.closed flags hclient
  have hnone : (d.closed flags fd).clientFds = [] := by
    rw [hfds, hsingle]
    simp
  have hzero : (d.closed flags fd).event.clientConnections = 0 := by
    have hpos := mt (clientConnections_pos hwired).mp (not_not.mpr hnone)
    have hnonneg := clientConnections_nonneg hwired
    omega
  have hbuffer : (d.closed flags fd).state = .buffer := if_pos ⟨hzero, hyvalue⟩
  have hbooks' : Books opened held owed (d.closed flags fd) := hbooks.congr rfl rfl rfl
  have hinfo := keeping_call flags hfits n .connectionInfo hbooks' (.inl hbuffer)
    fun happlication => absurd happlication (quiet_connectionInfo _).1
  unfold closeSocket
  simp only
  generalize clientSend flags answers (n + 1) .connectionInfo (d.closed flags fd) = informed
    at hinfo
  have hkeeping := hinfo.keeping (.inl hbuffer)
  have hquiet := quiet_connectionClosed fd informed.2.event.clientConnections
  have htext := keeping_call flags hfits n
    (.connectionClosed fd informed.2.event.clientConnections)
    (hinfo.quiet (quiet_connectionInfo _).2) hkeeping fun happlication =>
      absurd happlication (hquiet _).1
  generalize clientSend flags answers (n + 1)
    (.connectionClosed fd informed.2.event.clientConnections) informed.2 = told at htext
  have hevent : told.2.event = (d.closed flags fd).event := htext.event.trans hinfo.event
  have hstate : ∀ (sub : Submission) (d : ClientDaemon) (result : Int × ClientDaemon),
      Stored opened held owed sub d result → d.state = .buffer ∨ d.state = .bufferFull →
        result.2.state = .buffer ∨ result.2.state = .bufferFull := by
    intro sub d result hstored hd
    by_cases hret : result.1 = 0
    · rw [(hstored.kept hret).2.1]
      exact hd
    · exact .inr (hstored.discarded hret).1
  have hcounter : ∀ (sub : Submission) (d : ClientDaemon) (result : Int × ClientDaemon),
      Stored opened held owed sub d result → result.2.state = .buffer →
        d.state = .buffer ∧ result.2.overflowCounter = d.overflowCounter := by
    intro sub d result hstored hbuffer
    have hret : result.1 = 0 := by
      by_contra hret
      exact absurd (hbuffer.symm.trans (hstored.discarded hret).1) (by decide)
    obtain ⟨-, hsame, hcount, -⟩ := hstored.kept hret
    exact ⟨hsame.symm.trans hbuffer, hcount⟩
  refine ⟨hwired.congr hevent, ?_, ?_, htext.filled, ?_, htext.quiet (hquiet _).2⟩
  · rw [← hnone, clientFds_congr hevent]
  · exact hstate _ _ _ htext (hstate _ _ _ hinfo (.inl hbuffer))
  · intro hlast
    obtain ⟨hfirst, hsame⟩ := hcounter _ _ _ htext hlast
    exact hsame.trans (hcounter _ _ _ hinfo hfirst).2

end Keeping

/-- Between two events messages are kept. -/
structure Storing (d : ClientDaemon) : Prop where
  wired : d.Wired
  state : d.state = .buffer ∨ d.state = .bufferFull ∧ d.clientRingbuffer ≠ []
  books : Books [] [] 0 d

/-- Between two events messages are sent directly, and nothing waits or is to be reported. -/
structure Sending (d : ClientDaemon) : Prop where
  wired : d.Wired
  connected : d.clientFds ≠ []
  direct : d.state = .sendDirect
  empty : d.clientRingbuffer = []
  settled : d.overflowCounter = 0
  books : Books [] [] 0 d

/-- A single client has taken the message of a call, or it has been closed and the message
is kept or discarded. -/
inductive Answered (sub : Submission) (d : ClientDaemon) (result : Int × ClientDaemon) : Prop where
  | accepted (hret : result.1 = 0) (hevent : result.2.event = d.event)
      (hdirect : result.2.state = .sendDirect) (hempty : result.2.clientRingbuffer = [])
      (hcounter : result.2.overflowCounter = d.overflowCounter)
      (hbooks : Books [] [] (reportCount sub) result.2)
  | closed (hwired : result.2.Wired) (hnone : result.2.clientFds = [])
      (hstate : result.2.state = .buffer ∨
        result.2.state = .bufferFull ∧ result.2.clientRingbuffer ≠ [])
      (hkept : result.1 = 0 → result.2.overflowCounter = d.overflowCounter ∧
        Books [] [] (reportCount sub) result.2)
      (hdiscarded : result.1 ≠ 0 → Books [] [] 0 result.2)

section Single

variable {flags : MctDaemonFlags} {answers : Answers} {d : ClientDaemon} {sub : Submission}
variable {fd : Int} {message : ClientMessage}

/-- A call while there is a single client. -/
theorem single_call (hyvalue : flags.yvalue = []) (hfits : ∀ number, answers.fits number [] = true)
    (hpasses : Passes flags answers) (n : Nat) (message : ClientMessage) (h : d.Wired)
    (hsingle : d.clientFds = [fd]) (hdirect : d.state = .sendDirect)
    (hempty : d.clientRingbuffer = [])
    (hsettled : d.overflowCounter = 0 ∨ 0 < d.sentMessageOverflowCnt)
    (hbooks : Books [] [] 0 d) :
    Answered ⟨d.submissions, message⟩ d (clientSend flags answers (n + 2) message d) := by
  have hsinks : Books [⟨d.submissions, message⟩] [⟨d.submissions, message⟩]
      (0 + reportCount ⟨d.submissions, message⟩) (d.offlineSinks flags answers message).2 :=
    hbooks.sinks flags answers message fun _ _ hother => absurd hother List.not_mem_nil
  have hwired : (d.offlineSinks flags answers message).2.Wired := h.congr rfl
  have hnumber : d.submissions < (d.offlineSinks flags answers message).2.submissions :=
    Nat.lt_succ_self _
  rw [clientSend, submit_direct _ h.allowed hdirect hpasses]
  simp only
  rw [sendAllMultiple_single (n + 1) hwired hnumber hsingle]
  by_cases haccepts : answers.accepts d.submissions fd
  · rw [if_pos haccepts]
    have hfirst := hsinks.first List.mem_cons_self fd fun other hother =>
      absurd (hempty ▸ hother) List.not_mem_nil
    rw [Nat.zero_add] at hfirst
    have hstate : ((d.offlineSinks flags answers message).2.record
        (.sent ⟨d.submissions, message⟩ fd true)).state = .sendDirect := hdirect
    have hsettled' : ((d.offlineSinks flags answers message).2.record
        (.sent ⟨d.submissions, message⟩ fd true)).overflowCounter = 0 ∨
        0 < ((d.offlineSinks flags answers message).2.record
          (.sent ⟨d.submissions, message⟩ fd true)).sentMessageOverflowCnt := hsettled
    simp only
    rw [if_neg (by rw [hstate]; decide), reportOverflow_settled _ hsettled']
    exact .accepted rfl rfl hdirect hempty rfl hfirst.close
  · rw [if_neg haccepts]
    have hfailed : Books [⟨d.submissions, message⟩] [⟨d.submissions, message⟩]
        (0 + reportCount ⟨d.submissions, message⟩) ((d.offlineSinks flags answers message).2.record
          (.sent ⟨d.submissions, message⟩ fd false)) :=
      hsinks.congr (ledger_failed fd) rfl rfl
    obtain ⟨hwired', hnone, hstate, hfilled, hcounter, hbooks'⟩ :=
      closeSocket_last (d := (d.offlineSinks flags answers message).2.record
        (.sent ⟨d.submissions, message⟩ fd false)) hyvalue hfits n (hwired.congr rfl) hsingle
        hfailed
    revert hwired' hnone hstate hfilled hcounter hbooks'
    generalize closeSocket flags (clientSend flags answers (n + 1)) fd
      ((d.offlineSinks flags answers message).2.record
        (.sent ⟨d.submissions, message⟩ fd false)) = d'
    intro hwired' hnone hstate hfilled hcounter hbooks'
    simp only
    rw [if_pos (hstate.imp_right .inr)]
    have hkeeping : d'.Keeping := hstate.imp_right fun hfull => .inr ⟨hfull, hfilled⟩
    have hstored := store_stored hfits hbooks' hkeeping
    generalize store answers ⟨d.submissions, message⟩ d' = result at hstored
    have hstate' : result.2.state = .buffer ∨ result.2.state = .bufferFull := by
      by_cases hret : result.1 = 0
      · rw [(hstored.kept hret).2.1]
        exact hstate
      · exact .inr (hstored.discarded hret).1
    refine .closed (hwired'.congr hstored.event) ((clientFds_congr hstored.event).trans hnone)
      (hstate'.imp_right fun hfull => ⟨hfull, hstored.filled⟩) (fun hret => ?_)
      fun hret => (hstored.discarded hret).2
    obtain ⟨hfull, -, hcounter', hbooks''⟩ := hstored.kept hret
    rw [Nat.zero_add] at hbooks''
    exact ⟨hcounter'.trans (hcounter (hstate.resolve_right hfull)), hbooks''⟩

theorem Answered.books {result : Int × ClientDaemon} (h : Answered sub d result)
    (hsub : reportCount sub = 0) : Books [] [] 0 result.2 := by
  cases h with
  | accepted _ _ _ _ _ hbooks => rwa [hsub] at hbooks
  | closed _ _ _ hkept hdiscarded =>
      by_cases hret : result.1 = 0
      · have hbooks := (hkept hret).2
        rwa [hsub] at hbooks
      · exact hdiscarded hret

/-- A call between two events, while messages are sent directly. -/
theorem sending_call (hyvalue : flags.yvalue = [])
    (hfits : ∀ number, answers.fits number [] = true) (hpasses : Passes flags answers)
    (hfirst : d.FirstAccepts answers) (n : Nat)
    (hreport : ∀ number, reportCount ⟨number, message⟩ = 0) (h : d.Sending) :
    let after := (clientSend flags answers (n + 2) message d).2
    (after.Sending ∧ after.FirstAccepts answers) ∨ (after.Storing ∧ after.clientFds = []) := by
  obtain ⟨fd, later, hlater⟩ := List.exists_cons_of_ne_nil h.connected
  rcases hfirst fd later hlater with rfl | haccepts
  · have hanswered := single_call hyvalue hfits hpasses n message h.wired hlater h.direct h.empty
      (.inl h.settled) h.books
    have hbooks := hanswered.books (hreport _)
    cases hanswered with
    | accepted _ hevent hdirect hempty hcounter _ =>
        have hfds := clientFds_congr hevent
        refine .inl ⟨⟨h.wired.congr hevent, hfds ▸ h.connected, hdirect, hempty,
          hcounter.trans h.settled, hbooks⟩, fun fd' later' hlater' => ?_⟩
        exact hfirst fd' later' (hfds ▸ hlater')
    | closed hwired hnone hstate _ _ => exact .inr ⟨⟨hwired, hstate, hbooks⟩, hnone⟩
  · have hstreaming : d.Streaming fd [] :=
      ⟨h.wired, ⟨later, hlater⟩, h.direct, h.empty, h.settled, h.books⟩
    have hafter := hstreaming.call hpasses haccepts (n + 2) hreport fun _ _ hother =>
      absurd hother List.not_mem_nil
    obtain ⟨later', hlater'⟩ := hafter.first
    refine .inl ⟨⟨hafter.wired, hlater' ▸ List.cons_ne_nil _ _, hafter.direct, hafter.empty,
      hafter.settled, hafter.books⟩, fun fd' later'' hlater'' => ?_⟩
    obtain ⟨rfl, -⟩ := List.cons.inj (hlater'.symm.trans hlater'')
    exact .inr haccepts

/-- A call between two events, while messages are kept. -/
theorem storing_call (flags : MctDaemonFlags)
    (hfits : ∀ number, answers.fits number [] = true) (n : Nat)
    (hreport : ∀ number, reportCount ⟨number, message⟩ = 0) (h : d.Storing) :
    let after := (clientSend flags answers (n + 1) message d).2
    after.Storing ∧ after.event = d.event ∧ after.clientRingbuffer ≠ [] := by
  have hkeeping : d.Keeping := h.state.imp_right .inr
  have hstored := keeping_call flags hfits n message h.books hkeeping
    fun _ _ hother => absurd hother List.not_mem_nil
  have hstate : d.state ≠ .sendBuffer := by
    rcases h.state with hstate | ⟨hstate, -⟩
    all_goals
      rw [hstate]
      decide
  refine ⟨⟨h.wired.congr hstored.event, ?_, hstored.quiet (hreport _)⟩, hstored.event,
    hstored.filled⟩
  by_cases hret : (clientSend flags answers (n + 1) message d).1 = 0
  · obtain ⟨hfull, hsame, -, -⟩ := hstored.kept hret
    rw [hsame]
    exact h.state.imp_right fun hboth => absurd hboth.1 hfull
  · exact .inr ⟨(hstored.discarded hret).1, hstored.filled⟩

end Single

/-- So many messages can still be replayed. -/
def pending (d : ClientDaemon) : Nat := d.clientRingbuffer.length + if d.Settled then 0 else 1

section Replay

variable {flags : MctDaemonFlags} {answers : Answers} {d : ClientDaemon} {sub : Submission}
variable {fd : Int} {rest : List Submission}

/-- The report that is submitted while messages are replayed. -/
def reporting (flags : MctDaemonFlags) (answers : Answers) (d : ClientDaemon) : ClientDaemon :=
  (offlineSinks flags answers (.bufferOverflow d.overflowCounter)
    { d with sentMessageOverflowCnt := 1 }).2

/-- A report is due, and it is kept or discarded. -/
theorem reportOverflow_due (flags : MctDaemonFlags) (answers : Answers) (n : Nat)
    (hcounter : d.overflowCounter ≠ 0) (hcnt : d.sentMessageOverflowCnt = 0)
    (hconnected : 0 < d.event.clientConnections)
    (hstate : d.state = .sendBuffer) :
    reportOverflow (clientSend flags answers (n + 1)) d =
        { (reporting flags answers d).push ⟨d.submissions, .bufferOverflow d.overflowCounter⟩ with
          overflowCounter := 0
          sentMessageOverflowCnt := 0 } ∨
      reportOverflow (clientSend flags answers (n + 1)) d =
        ((reporting flags answers d).changeState .bufferFull).discard
          ⟨d.submissions, .bufferOverflow d.overflowCounter⟩ := by
  have hcall := clientSend_buffers flags answers
    (d := { d with sentMessageOverflowCnt := 1 }) n (.bufferOverflow d.overflowCounter)
    (.inr (.inl hstate))
  unfold reportOverflow
  rw [if_pos ⟨Nat.pos_of_ne_zero hcounter, hconnected⟩]
  simp only [hcnt, hcall]
  rcases store_cases answers ⟨d.submissions, .bufferOverflow d.overflowCounter⟩
    (reporting flags answers d) with ⟨-, -, hstore⟩ | ⟨-, hstore⟩
  · left
    rw [reporting] at hstore ⊢
    simp only [hstore]
    rfl
  · right
    rw [reporting] at hstore ⊢
    simp only [hstore]
    rfl

/-- What comes with a message that a client has taken from the ring buffer. -/
theorem reportOverflow_advance (flags : MctDaemonFlags) (answers : Answers)
    (hbooks : Books [] [] 0 d) (hstate : d.state = .sendBuffer)
    (hring : d.clientRingbuffer = sub :: rest) (hconnected : 0 < d.event.clientConnections)
    (fd : Int) (n : Nat) :
    let after := advance (reportOverflow (clientSend flags answers (n + 1))
      (d.record (.sent sub fd true)))
    after.event = d.event ∧ Books [] [] 0 after ∧ after.Settled ∧ after.pending < d.pending := by
  have hreplayed := hbooks.replayed hring fd
  obtain ⟨event, state, ring, overflowCounter, cnt, submissions, log⟩ := d
  obtain rfl : ring = sub :: rest := hring
  obtain rfl : state = .sendBuffer := hstate
  have hpending : ∀ d : ClientDaemon, d.Settled → d.pending = d.clientRingbuffer.length :=
    fun d hd => congrArg _ (if_pos hd)
  by_cases hsettled : overflowCounter = 0 ∨ 0 < cnt
  · rw [reportOverflow_settled _ hsettled]
    have hsettled' : (advance (record ⟨event, .sendBuffer, sub :: rest, overflowCounter, cnt,
        submissions, log⟩ (.sent sub fd true))).Settled := hsettled
    refine ⟨rfl, hreplayed.congr rfl rfl rfl, hsettled', ?_⟩
    rw [hpending _ hsettled']
    exact Nat.lt_of_lt_of_le (Nat.lt_succ_self _) (Nat.le_add_right _ _)
  · rw [not_or, not_lt, Nat.le_zero] at hsettled
    obtain ⟨hcounter, rfl⟩ := hsettled
    have hdue : pending ⟨event, .sendBuffer, sub :: rest, overflowCounter, 0, submissions, log⟩ =
        rest.length + 2 := by
      unfold pending Settled
      simp [hcounter]
    -- The books are those of the message taken out, though the report comes before that.
    have hsinks : Books [⟨submissions, .bufferOverflow overflowCounter⟩]
        [⟨submissions, .bufferOverflow overflowCounter⟩] (0 + overflowCounter)
        (reporting flags answers ⟨event, .sendBuffer, rest, overflowCounter, 0, submissions,
          log ++ [.sent sub fd true]⟩) := by
      have htaken : Books [] [] 0 ⟨event, .sendBuffer, rest, overflowCounter, 1, submissions,
          log ++ [.sent sub fd true]⟩ := hreplayed.congr rfl rfl rfl
      exact htaken.sinks flags answers (.bufferOverflow overflowCounter) fun _ _ hother =>
        absurd hother List.not_mem_nil
    rw [hdue]
    rcases reportOverflow_due flags answers (d := record ⟨event, .sendBuffer,
      sub :: rest, overflowCounter, 0, submissions, log⟩ (.sent sub fd true)) n hcounter rfl
      hconnected rfl with hreport | hreport
    · rw [hreport]
      refine ⟨rfl, (hsinks.push.reset (Nat.zero_add _).symm 0).congr rfl rfl rfl, .inl rfl, ?_⟩
      rw [hpending _ (.inl rfl)]
      simp [advance, ClientDaemon.push, record, reporting, offlineSinks]
    · rw [hreport]
      have hdiscarded : Books [] [] 0 (((reporting flags answers ⟨event, .sendBuffer, rest,
          overflowCounter, 0, submissions, log ++ [.sent sub fd true]⟩).changeState
            .bufferFull).discard ⟨submissions, .bufferOverflow overflowCounter⟩) := by
        refine Books.discard ?_
        exact hsinks.congr rfl rfl rfl
      refine ⟨rfl, hdiscarded.congr rfl rfl rfl, .inr Nat.zero_lt_one, ?_⟩
      rw [hpending _ (.inr Nat.zero_lt_one)]
      simp [advance, discard, changeState, record, reporting, offlineSinks]

/-- A message from the ring buffer is sent to a single client. -/
theorem sendForce_single (hbooks : Books [] [] 0 d) (h : d.Wired) (hsingle : d.clientFds = [fd])
    (hring : d.clientRingbuffer = sub :: rest) :
    sendForce flags answers sub d =
      if answers.accepts sub.number fd then
        (0, reportOverflow (clientSend flags answers d.depth) (d.record (.sent sub fd true)))
      else
        (mctDaemonErrorSendFailed, closeSocket flags (clientSend flags answers d.depth) fd
          (d.record (.sent sub fd false))) := by
  have hentered : sub ∈ d.ledger.entered :=
    hbooks.placed.known sub (.inr (.inr (.inl
      (show sub ∈ d.clientRingbuffer from hring ▸ List.mem_cons_self))))
  have hsockets : sendSockets flags answers (clientSend flags answers d.depth) true sub 0 d =
      sendAllMultiple flags answers (clientSend flags answers d.depth) sub d :=
    if_pos ⟨.inl h.allowed, .inl rfl, by decide⟩
  unfold sendForce dispatch
  simp only [hsockets, sendAllMultiple_single d.depth h (hbooks.numbers sub hentered) hsingle]
  by_cases haccepts : answers.accepts sub.number fd
  · simp [haccepts]
  · simp [haccepts]

/-- Without a client a message from the ring buffer is not sent. -/
theorem sendForce_none (h : d.Wired) (hnone : d.clientFds = []) (sub : Submission) :
    sendForce flags answers sub d = (mctDaemonErrorSendFailed, d) := by
  have hsockets : sendSockets flags answers (clientSend flags answers d.depth) true sub 0 d =
      (false, d) := by
    unfold sendSockets
    rw [if_pos ⟨.inl h.allowed, .inl rfl, by decide⟩]
    exact sendAllMultiple_none h hnone
  unfold sendForce dispatch
  simp [hsockets]

/-- The ring buffer is replayed to a single client, until nothing waits or the client is
closed. -/
theorem replayLoop_single (hyvalue : flags.yvalue = [])
    (hfits : ∀ number, answers.fits number [] = true) (n : Nat) (hn : d.pending ≤ n)
    (h : d.Wired) (hsingle : d.clientFds = [fd]) (hstate : d.state = .sendBuffer)
    (hring : d.clientRingbuffer ≠ []) (hbooks : Books [] [] 0 d) :
    let result := replayLoop flags answers n d
    (result.1 = 0 ∧ result.2.event = d.event ∧ result.2.state = .sendDirect ∧
        result.2.clientRingbuffer = [] ∧ result.2.Settled ∧ Books [] [] 0 result.2) ∨
      (result.1 ≠ 0 ∧ result.2.Storing ∧ result.2.clientFds = []) := by
  induction n generalizing d with
  | zero =>
      have hpos := List.length_pos_of_ne_nil hring
      unfold pending at hn
      omega
  | succ n ih =>
      obtain ⟨sub, rest, hhead⟩ := List.exists_cons_of_ne_nil hring
      rw [replayLoop_cons hhead, sendForce_single hbooks h hsingle hhead]
      by_cases haccepts : answers.accepts sub.number fd
      · have hconnected := (clientConnections_pos h).mpr (hsingle ▸ List.cons_ne_nil _ _)
        have hadvance := reportOverflow_advance flags answers hbooks hstate
          hhead hconnected fd (d.event.connections.length + 1)
        have hdepth : d.depth = d.event.connections.length + 1 + 1 := rfl
        rw [← hdepth] at hadvance
        rw [if_pos haccepts]
        simp only
        rw [if_neg (not_not.mpr rfl)]
        have hreplaying : (advance (reportOverflow (clientSend flags answers d.depth)
          (d.record (.sent sub fd true)))).state = .sendBuffer := rfl
        revert hadvance hreplaying
        generalize advance (reportOverflow (clientSend flags answers d.depth)
          (d.record (.sent sub fd true))) = after
        rintro ⟨hevent, hbooks', hsettled, hless⟩ hreplaying
        by_cases hempty : after.clientRingbuffer = []
        · rw [if_pos hempty]
          exact .inl ⟨rfl, hevent, rfl, hempty, hsettled, hbooks'.congr rfl rfl rfl⟩
        · rw [if_neg hempty, ← hevent]
          exact ih (by omega) (h.congr hevent) ((clientFds_congr hevent).trans hsingle)
            hreplaying hempty hbooks'
      · have hret : mctDaemonErrorSendFailed ≠ 0 := by decide
        rw [if_neg haccepts, if_pos hret]
        have hfailed : Books [] [] 0 (d.record (.sent sub fd false)) :=
          hbooks.congr (ledger_failed fd) rfl rfl
        obtain ⟨hwired, hnone, hstate', hfilled, -, hbooks'⟩ := closeSocket_last
          (d := d.record (.sent sub fd false)) hyvalue hfits (d.event.connections.length + 1)
          (h.congr rfl) hsingle hfailed
        exact .inr ⟨hret, ⟨hwired, hstate'.imp_right fun hfull => ⟨hfull, hfilled⟩, hbooks'⟩,
          hnone⟩

end Replay

section Connecting

variable {flags : MctDaemonFlags} {answers : Answers} {d : ClientDaemon} {fd : Int}

/-- A descriptor that no connection has is taken into the table and the list. -/
theorem Wired.connectionCreate_eq (h : d.Wired) (hfd : 0 ≤ fd)
    (hnew : ∀ con ∈ d.event.connections, con.fd ≠ fd) :
    d.connectionCreate fd = { d with event :=
      { d.event with
        table := d.event.table.enable fd pollin
        connections := d.event.connections ++ [⟨fd, .clientMsgTcp, .active, pollin⟩]
        clientConnections := d.event.clientConnections + 1 } } := by
  have hnone : ¬ (fd < 0 ∨ (d.event.connections.find? fun con => con.fd = fd).isSome) := by
    rw [List.find?_isSome]
    rintro (hneg | ⟨con, hmem, hsame⟩)
    · omega
    · exact hnew con hmem (by simpa using hsame)
  have hactivated : checkActivate d.event.table ⟨fd, .clientMsgTcp, .inactive, pollin⟩
      d.event.current .activate =
        (0, d.event.table.enable fd pollin, ⟨fd, .clientMsgTcp, .active, pollin⟩) :=
    if_pos ⟨h.activated, rfl⟩
  rw [connectionCreate, if_neg hnone, EventState.register]
  simp only [hactivated]
  rfl

theorem client_append_iff {created : ClientDaemon} (hconnections : created.event.connections =
      d.event.connections ++ [⟨fd, .clientMsgTcp, .active, pollin⟩]) (other : Int) :
    created.Client other ↔ d.Client other ∨ other = fd := by
  simp only [Client, hconnections, List.mem_append, List.mem_singleton]
  constructor
  · rintro ⟨con, hold | rfl, htype, rfl⟩
    · exact .inl ⟨con, hold, htype, rfl⟩
    · exact .inr rfl
  · rintro (⟨con, hcon, htype, rfl⟩ | rfl)
    · exact ⟨con, .inl hcon, htype, rfl⟩
    · exact ⟨_, .inr rfl, rfl, rfl⟩

/-- A new client is watched behind the others. -/
theorem Wired.connect (h : d.Wired) (hfd : 0 ≤ fd) (hwatched : fd ∉ d.fds)
    (hnew : ∀ con ∈ d.event.connections, con.fd ≠ fd) :
    (d.connectionCreate fd).Wired ∧ (d.connectionCreate fd).clientFds = d.clientFds ++ [fd] ∧
      (d.connectionCreate fd).event.clientConnections = d.event.clientConnections + 1 := by
  obtain ⟨hformed, hused⟩ := PollTable.enable_spec h.table fd pollin
  have hcreated := h.connectionCreate_eq hfd hnew
  have hfds : (d.connectionCreate fd).fds = d.fds ++ [fd] := by
    rw [hcreated, fds, hused, enableFd, List.map_append]
    rfl
  have hconnections : (d.connectionCreate fd).event.connections =
      d.event.connections ++ [⟨fd, .clientMsgTcp, .active, pollin⟩] := by
    rw [hcreated]
  have hmem : ∀ con ∈ (d.connectionCreate fd).event.connections,
      con ∈ d.event.connections ∨ con = ⟨fd, .clientMsgTcp, .active, pollin⟩ := by
    intro con hcon
    rw [hconnections, List.mem_append, List.mem_singleton] at hcon
    exact hcon
  have hclient := client_append_iff hconnections
  have hcurrent : (d.connectionCreate fd).event.current = d.event.current := by
    rw [hcreated]
  have hcount : (d.connectionCreate fd).event.clientConnections =
      d.event.clientConnections + 1 := by
    rw [hcreated]
  refine ⟨⟨⟨?_, ?_, ?_, ?_, ?_, hcurrent ▸ h.allowed⟩, ?_, ?_, ?_, hcurrent ▸ h.activated⟩, ?_,
    hcount⟩
  · rw [hcreated]
    exact hformed
  · intro other hother
    rw [hfds, List.count_append, List.count_singleton]
    by_cases hsame : other = fd
    · rw [hsame, List.count_eq_zero.mpr hwatched]
      simp
    · have honce := h.once other (((hclient other).mp hother).resolve_right hsame)
      simp [Ne.symm hsame, honce]
  · intro con hcon htype hin
    rcases hmem con hcon with hold | rfl
    · rw [hfds, List.mem_append, List.mem_singleton] at hin
      exact h.active con hold htype (hin.resolve_right (hnew con hold))
    · rfl
  · intro con hcon other hother htype hsame
    rcases hmem con hcon with hold | rfl
    · rcases hmem other hother with hold' | rfl
      · exact h.own con hold other hold' htype hsame
      · exact absurd hsame.symm (hnew con hold)
    · rcases hmem other hother with hold' | rfl
      · exact absurd hsame (hnew other hold')
      · rfl
  · rw [hconnections, ← List.concat_eq_append]
    exact h.single.concat fun hin => hnew _ hin rfl
  · intro con hcon htype
    rw [hfds, List.mem_append, List.mem_singleton]
    rcases hmem con hcon with hold | rfl
    · exact .inl (h.reached con hold htype)
    · exact .inr rfl
  · intro con hcon
    rcases hmem con hcon with hold | rfl
    · exact h.noSerial con hold
    · show MctConnectionType.clientMsgTcp ≠ .clientMsgSerial
      decide
  · rw [hcount, hconnections, List.countP_append, h.counted]
    simp
  · rw [clientFds, hfds, List.filter_append, clientFds]
    congr 1
    · refine List.filter_congr fun other hother => ?_
      have hne : other ≠ fd := fun hsame => hwatched (hsame ▸ hother)
      simp [hclient, hne]
    · simp [hclient]

theorem clientFds_eq_singleton (h : d.Wired) (hne : d.clientFds ≠ [])
    (hall : ∀ other ∈ d.clientFds, other = fd) : d.clientFds = [fd] := by
  have hreplicate := List.eq_replicate_of_mem hall
  have hnodup := clientFds_nodup h
  rw [hreplicate, List.nodup_replicate] at hnodup
  have hpos := List.length_pos_of_ne_nil hne
  have hone : d.clientFds.length = 1 := by omega
  rwa [hone] at hreplicate

/-- A single connection of a client. -/
theorem clientFds_single (h : d.Wired) (hone : d.event.clientConnections = 1) :
    ∃ fd, d.clientFds = [fd] := by
  have hcounted := h.counted
  rw [hone, List.countP_eq_length_filter] at hcounted
  obtain ⟨con, hcon⟩ := List.length_eq_one_iff.mp (by omega :
    (d.event.connections.filter fun con => con.type = .clientMsgTcp).length = 1)
  have hsame : ∀ fd ∈ d.clientFds, fd = con.fd := by
    intro fd hfd
    obtain ⟨other, hother, htype, rfl⟩ := (mem_clientFds h).mp hfd
    have hin : other ∈ d.event.connections.filter fun con => con.type = .clientMsgTcp :=
      List.mem_filter.mpr ⟨hother, by simpa using htype⟩
    rw [hcon, List.mem_singleton] at hin
    rw [hin]
  exact ⟨con.fd, clientFds_eq_singleton h ((clientConnections_pos h).mp (by omega)) hsame⟩

/-- Between two events. Without a client messages are kept. -/
def AtRest (d : ClientDaemon) : Prop := d.Sending ∨ d.Storing ∧ d.clientFds = []

/-- The first client has connected, and what waits is sent to it. -/
theorem clientUpdate_single (hyvalue : flags.yvalue = [])
    (hfits : ∀ number, answers.fits number [] = true) (hpasses : Passes flags answers)
    (h : d.Wired) (hsingle : d.clientFds = [fd]) (hstate : d.state = .sendBuffer)
    (hbooks : Books [] [] 0 d) (hidle : d.clientRingbuffer = [] → d.overflowCounter = 0) :
    (clientUpdate flags answers d).AtRest := by
  have hne : d.clientFds ≠ [] := hsingle ▸ List.cons_ne_nil _ _
  unfold clientUpdate sendRingbufferToClient
  by_cases hring : d.clientRingbuffer = []
  · rw [if_pos hring]
    simp only
    have hcounter : (d.changeState .sendDirect).overflowCounter = 0 := hidle hring
    rw [if_neg (by simp), if_neg (not_not.mpr hcounter)]
    exact .inl ⟨h.congr rfl, hne, rfl, hring, hcounter, hbooks.congr rfl rfl rfl⟩
  · rw [if_neg hring]
    have hpending : d.pending ≤ d.backlog := by
      unfold pending backlog
      split <;> omega
    rcases replayLoop_single hyvalue hfits d.backlog hpending h hsingle hstate hring hbooks with
      ⟨hret, hevent, hdirect, hempty, hsettled, hbooks'⟩ | ⟨hret, hstoring, hnone⟩
    · simp only
      rw [if_neg (not_not.mpr hret)]
      revert hevent hdirect hempty hsettled hbooks'
      generalize (replayLoop flags answers d.backlog d).2 = d'
      intro hevent hdirect hempty hsettled hbooks'
      have hsingle' : d'.clientFds = [fd] := (clientFds_congr hevent).trans hsingle
      by_cases hcounter : d'.overflowCounter = 0
      · rw [if_neg (not_not.mpr hcounter)]
        exact .inl ⟨h.congr hevent, hsingle' ▸ List.cons_ne_nil _ _, hdirect, hempty, hcounter,
          hbooks'⟩
      · rw [if_pos hcounter, sendToAll]
        have hanswered := single_call hyvalue hfits hpasses d'.event.connections.length
          (.bufferOverflow d'.overflowCounter) (h.congr hevent) hsingle' hdirect hempty hsettled
          hbooks'
        have hdepth : d'.depth = d'.event.connections.length + 2 := rfl
        rw [← hdepth] at hanswered
        revert hanswered
        generalize clientSend flags answers d'.depth (.bufferOverflow d'.overflowCounter) d' =
          result
        intro hanswered
        cases hanswered with
        | accepted hret hevent' hdirect' hempty' hcounter' hreported =>
            rw [if_pos hret]
            have hsettling := hreported.reset hcounter' result.2.sentMessageOverflowCnt
            have hfds := (clientFds_congr hevent').trans hsingle'
            exact .inl ⟨(h.congr hevent).congr hevent', hfds ▸ List.cons_ne_nil _ _, hdirect',
              hempty', rfl, hsettling⟩
        | closed hwired hnone hstate' hkept hdiscarded =>
            right
            by_cases hret : result.1 = 0
            · rw [if_pos hret]
              obtain ⟨hcounter', hreported⟩ := hkept hret
              have hsettling := hreported.reset hcounter' result.2.sentMessageOverflowCnt
              exact ⟨⟨hwired.congr rfl, hstate', hsettling⟩, hnone⟩
            · rw [if_neg hret]
              exact ⟨⟨hwired, hstate', hdiscarded hret⟩, hnone⟩
    · simp only
      rw [if_pos hret]
      exact .inr ⟨hstoring, hnone⟩

end Connecting

/-- Between two calls. When messages are sent directly the first client accepts them. -/
def Quiesced (answers : Answers) (d : ClientDaemon) : Prop :=
  d.Sending ∧ d.FirstAccepts answers ∨ d.Storing ∧ d.clientFds = []

/-- The clients while the event is handled. -/
def opened (flags : MctDaemonFlags) (input : Input) (d : ClientDaemon) : ClientDaemon :=
  match input with
  | .connect fd => d.connectionCreate fd
  | .disconnect fd => d.closed flags fd
  | _ => d

/-- The event is one that can come: a descriptor that is accepted is new, and one that is
closed is a client's. -/
def Possible (d : ClientDaemon) (input : Input) : Prop :=
  match input with
  | .connect fd => 0 ≤ fd ∧ fd ∉ d.fds ∧ ∀ con ∈ d.event.connections, con.fd ≠ fd
  | .disconnect fd => d.Client fd
  | _ => True

/-- During the event no message is too large for the empty ring buffer, no storage device
keeps one off the network, and the first client of the table accepts what it is sent or
is the only one. -/
structure Orderly (flags : MctDaemonFlags) (d : ClientDaemon) (event : Input × Answers) :
    Prop where
  possible : d.Possible event.1
  fits : ∀ number, event.2.fits number [] = true
  passes : Passes flags event.2
  first : (d.opened flags event.1).FirstAccepts event.2

section Events

variable {flags : MctDaemonFlags} {answers : Answers} {d : ClientDaemon} {fd : Int}
variable {message : ClientMessage}

theorem Quiesced.atRest (h : d.Quiesced answers) : d.AtRest := h.imp_left And.left

theorem AtRest.quiesced (h : d.AtRest) (hfirst : d.FirstAccepts answers) : d.Quiesced answers :=
  h.imp_left fun hsending => ⟨hsending, hfirst⟩

theorem AtRest.wired (h : d.AtRest) : d.Wired :=
  h.elim Sending.wired fun hstoring => hstoring.1.wired

/-- A call between two events. -/
theorem Quiesced.call (hyvalue : flags.yvalue = [])
    (hfits : ∀ number, answers.fits number [] = true) (hpasses : Passes flags answers) (n : Nat)
    (hreport : ∀ number, reportCount ⟨number, message⟩ = 0) (h : d.Quiesced answers) :
    (clientSend flags answers (n + 2) message d).2.Quiesced answers := by
  rcases h with ⟨hsending, hfirst⟩ | ⟨hstoring, hnone⟩
  · exact sending_call hyvalue hfits hpasses hfirst n hreport hsending
  · obtain ⟨hstoring', hevent, -⟩ := storing_call flags hfits (n + 1) hreport hstoring
    exact .inr ⟨hstoring', (clientFds_congr hevent).trans hnone⟩

theorem Quiesced.sendToAll (hyvalue : flags.yvalue = [])
    (hfits : ∀ number, answers.fits number [] = true) (hpasses : Passes flags answers)
    (hreport : ∀ number, reportCount ⟨number, message⟩ = 0) (h : d.Quiesced answers) :
    (ClientDaemon.sendToAll flags answers message d).2.Quiesced answers :=
  h.call hyvalue hfits hpasses d.event.connections.length hreport

theorem AtRest.disconnect (hyvalue : flags.yvalue = [])
    (hfits : ∀ number, answers.fits number [] = true) (hpasses : Passes flags answers)
    (hclient : d.Client fd) (hfirst : (d.closed flags fd).FirstAccepts answers) (h : d.AtRest) :
    (closeSocket flags (clientSend flags answers d.depth) fd d).AtRest := by
  have hmem : fd ∈ d.clientFds := (mem_clientFds h.wired).mpr hclient
  rcases h with hsending | ⟨-, hnone⟩
  · obtain ⟨hwired, hfds, -, -⟩ := hsending.wired.closed flags hclient
    by_cases hlast : (d.closed flags fd).clientFds = []
    · have hall : ∀ other ∈ d.clientFds, other = fd := by
        rw [hfds, List.filter_eq_nil_iff] at hlast
        simpa using hlast
      have hsingle := clientFds_eq_singleton hsending.wired hsending.connected hall
      obtain ⟨hwired', hnone, hstate, hfilled, -, hbooks⟩ := closeSocket_last hyvalue hfits
        (d.event.connections.length + 1) hsending.wired hsingle hsending.books
      exact .inr ⟨⟨hwired', hstate.imp_right fun hfull => ⟨hfull, hfilled⟩, hbooks⟩, hnone⟩
    · have hconnected :
          ¬ ((d.closed flags fd).event.clientConnections = 0 ∧ flags.yvalue = []) := by
        have hpos := (clientConnections_pos hwired).mpr hlast
        rintro ⟨hzero, -⟩
        omega
      have hclosed : (d.closed flags fd).Sending :=
        ⟨hwired, hlast, (if_neg hconnected).trans hsending.direct, hsending.empty, hsending.settled,
          hsending.books.congr rfl rfl rfl⟩
      have hinfo := Quiesced.call hyvalue hfits hpasses d.event.connections.length
        (fun number => (quiet_connectionInfo number).2) (.inl ⟨hclosed, hfirst⟩)
      exact (hinfo.call hyvalue hfits hpasses d.event.connections.length
        fun number => (quiet_connectionClosed _ _ number).2).atRest
  · rw [hnone] at hmem
    exact absurd hmem List.not_mem_nil

/-- The messages that come before the first client is served. -/
theorem storing_calls (flags : MctDaemonFlags)
    (hfits : ∀ number, answers.fits number [] = true) (h : d.Storing)
    (hsingle : d.clientFds = [fd]) (hreport : ∀ number, reportCount ⟨number, message⟩ = 0) :
    let after := (ClientDaemon.sendToAll flags answers message d).2
    after.Storing ∧ after.clientFds = [fd] ∧
      after.event.clientConnections = d.event.clientConnections ∧ after.clientRingbuffer ≠ [] := by
  obtain ⟨hstoring, hevent, hfilled⟩ := storing_call flags hfits
    (d.event.connections.length + 1) hreport h
  exact ⟨hstoring, (clientFds_congr hevent).trans hsingle,
    congrArg EventState.clientConnections hevent, hfilled⟩

/-- What every call keeps holds when the new client has been told of the daemon. -/
theorem informed_keeps {p : ClientDaemon → Prop}
    (hversion : ∀ d, p d → p (ClientDaemon.sendToAll flags answers .softwareVersion d).2)
    (htimezone : ∀ d, p d → p (ClientDaemon.sendToAll flags answers .timezone d).2) (h : p d) :
    p (if 0 < flags.sendEcuSoftwareVersion then
      if 0 < flags.sendTimezone then
        (ClientDaemon.sendToAll flags answers .timezone
          (ClientDaemon.sendToAll flags answers .softwareVersion d).2).2
      else (ClientDaemon.sendToAll flags answers .softwareVersion d).2
    else d) := by
  split
  · split
    · exact htimezone _ (hversion d h)
    · exact hversion d h
  · exact h

theorem connectionCreate_event (fd : Int) (d : ClientDaemon) :
    d.connectionCreate fd = { d with event := (d.connectionCreate fd).event } := by
  unfold connectionCreate
  split
  · rfl
  · rfl

/-- A client connects. -/
theorem AtRest.connect (hyvalue : flags.yvalue = [])
    (hfits : ∀ number, answers.fits number [] = true) (hpasses : Passes flags answers)
    (hpossible : d.Possible (.connect fd)) (hfirst : (d.connectionCreate fd).FirstAccepts answers)
    (h : d.AtRest) : (processClientConnect flags answers fd d).AtRest := by
  obtain ⟨hfd, hwatched, hnew⟩ := hpossible
  obtain ⟨hwired, hfds, hcount⟩ := h.wired.connect hfd hwatched hnew
  have hsame := connectionCreate_event fd d
  unfold processClientConnect
  simp only
  revert hwired hfds hcount hfirst hsame
  generalize d.connectionCreate fd = created
  intro hfirst hwired hfds hcount hsame
  rcases h with hsending | ⟨hstoring, hnone⟩
  · have hcreated : created.Sending := by
      refine ⟨hwired, ?_, ?_, ?_, ?_, ?_⟩
      · rw [hfds]
        exact List.append_ne_nil_of_left_ne_nil hsending.connected _
      all_goals rw [hsame]
      · exact hsending.direct
      · exact hsending.empty
      · exact hsending.settled
      · exact hsending.books.congr rfl rfl rfl
    have hinformed := informed_keeps (p := Quiesced answers)
      (fun _ hd => hd.sendToAll hyvalue hfits hpasses fun _ => rfl)
      (fun _ hd => hd.sendToAll hyvalue hfits hpasses fun _ => rfl) (.inl ⟨hcreated, hfirst⟩)
    revert hinformed
    generalize (if 0 < flags.sendEcuSoftwareVersion then _ else created) = informed
    intro hinformed
    have htold : (ClientDaemon.sendToAll flags answers (.connectionEstablished fd
        informed.event.clientConnections) informed).2.Quiesced answers :=
      hinformed.sendToAll hyvalue hfits hpasses fun _ => rfl
    revert htold
    generalize (ClientDaemon.sendToAll flags answers (.connectionEstablished fd
      informed.event.clientConnections) informed).2 = told
    intro htold
    by_cases hone : told.event.clientConnections = 1
    · rw [if_pos hone]
      obtain ⟨client, hclient⟩ := clientFds_single htold.atRest.wired hone
      rcases htold with ⟨htold, -⟩ | ⟨-, hnone⟩
      · have hbooks : Books [] [] 0 (told.changeState .sendBuffer) := htold.books.congr rfl rfl rfl
        exact clientUpdate_single (d := told.changeState .sendBuffer) hyvalue hfits hpasses
          (htold.wired.congr rfl) hclient rfl hbooks fun _ => htold.settled
      · exact absurd (hclient.symm.trans hnone) (by simp)
    · rw [if_neg hone]
      exact htold.atRest
  · have hsingle : created.clientFds = [fd] := by
      rw [hfds, hnone, List.nil_append]
    have hone : created.event.clientConnections = 1 := by
      have hpos := mt (clientConnections_pos hstoring.wired).mp (not_not.mpr hnone)
      have hnonneg := clientConnections_nonneg hstoring.wired
      omega
    have hcreated : created.Storing := by
      refine ⟨hwired, ?_, ?_⟩
      all_goals rw [hsame]
      · exact hstoring.state
      · exact hstoring.books.congr rfl rfl rfl
    have hcall : ∀ (message : ClientMessage), (∀ number, reportCount ⟨number, message⟩ = 0) →
        ∀ d : ClientDaemon, d.Storing ∧ d.clientFds = [fd] ∧ d.event.clientConnections = 1 →
          let after := (ClientDaemon.sendToAll flags answers message d).2
          after.Storing ∧ after.clientFds = [fd] ∧ after.event.clientConnections = 1 := by
      rintro message hreport d ⟨hd, hfd, hcount⟩
      obtain ⟨hd', hfd', hcount', -⟩ := storing_calls flags hfits hd hfd hreport
      exact ⟨hd', hfd', hcount'.trans hcount⟩
    have hinformed := informed_keeps (p := fun d => d.Storing ∧ d.clientFds = [fd] ∧
      d.event.clientConnections = 1) (hcall .softwareVersion fun _ => rfl)
      (hcall .timezone fun _ => rfl) ⟨hcreated, hsingle, hone⟩
    revert hinformed
    generalize (if 0 < flags.sendEcuSoftwareVersion then _ else created) = informed
    rintro ⟨hd, hfd', hcount'⟩
    have hestablished : ∀ number, reportCount ⟨number, .connectionEstablished fd
        informed.event.clientConnections⟩ = 0 := fun _ => rfl
    have htold := storing_calls flags hfits hd hfd' hestablished
    revert htold
    generalize (ClientDaemon.sendToAll flags answers (.connectionEstablished fd
      informed.event.clientConnections) informed).2 = told
    rintro ⟨htold, hsingle', hcount'', hfilled⟩
    rw [if_pos (hcount''.trans hcount')]
    have hbooks : Books [] [] 0 (told.changeState .sendBuffer) := htold.books.congr rfl rfl rfl
    exact clientUpdate_single (d := told.changeState .sendBuffer) hyvalue hfits hpasses
      (htold.wired.congr rfl) hsingle' rfl hbooks fun hempty => absurd hempty hfilled

/-- The timer that replays the ring buffer and sends the time. -/
theorem AtRest.oneSTimer (hyvalue : flags.yvalue = [])
    (hfits : ∀ number, answers.fits number [] = true) (hpasses : Passes flags answers)
    (hfirst : d.FirstAccepts answers) (h : d.AtRest) :
    (processOneSTimer flags answers d).AtRest := by
  have hreplayed : (if d.state = .sendBuffer ∨ d.state = .bufferFull then
      (sendRingbufferToClient flags answers d).2 else d) = d := by
    split
    · next hstate =>
        rcases h with hsending | ⟨hstoring, hnone⟩
        · rw [hsending.direct] at hstate
          exact absurd hstate (by decide)
        · have hring : d.clientRingbuffer ≠ [] := by
            rcases hstoring.state with hbuffer | ⟨-, hring⟩
            · rw [hbuffer] at hstate
              exact absurd hstate (by decide)
            · exact hring
          obtain ⟨sub, rest, hhead⟩ := List.exists_cons_of_ne_nil hring
          rw [sendRingbufferToClient, if_neg hring, backlog, replayLoop_cons hhead,
            sendForce_none hstoring.wired hnone]
          exact congrArg Prod.snd (if_pos (by decide : mctDaemonErrorSendFailed ≠ 0))
    · rfl
  unfold processOneSTimer
  simp only [hreplayed]
  split
  · exact ((h.quiesced hfirst).sendToAll hyvalue hfits hpasses fun _ => rfl).atRest
  · exact h

/-- The timer that sends the version and the timezone. -/
theorem AtRest.sixtySTimer (hyvalue : flags.yvalue = [])
    (hfits : ∀ number, answers.fits number [] = true) (hpasses : Passes flags answers)
    (hfirst : d.FirstAccepts answers) (h : d.AtRest) :
    (processSixtySTimer flags answers d).AtRest := by
  have hversion : (if 0 < flags.sendEcuSoftwareVersion then
      (ClientDaemon.sendToAll flags answers .softwareVersion d).2 else d).Quiesced answers := by
    split
    · exact (h.quiesced hfirst).sendToAll hyvalue hfits hpasses fun _ => rfl
    · exact h.quiesced hfirst
  unfold processSixtySTimer
  simp only
  split
  · exact (hversion.sendToAll hyvalue hfits hpasses fun _ => rfl).atRest
  · exact hversion.atRest

theorem AtRest.step (hyvalue : flags.yvalue = []) {event : Input × Answers}
    (hevent : d.Orderly flags event) (h : d.AtRest) : (step flags d event).2.AtRest := by
  obtain ⟨input, answers⟩ := event
  obtain ⟨hpossible, hfits, hpasses, hfirst⟩ := hevent
  cases input with
  | message data =>
      exact ((h.quiesced hfirst).sendToAll hyvalue hfits hpasses fun _ => rfl).atRest
  | connect fd => exact h.connect hyvalue hfits hpasses hpossible hfirst
  | disconnect fd => exact h.disconnect hyvalue hfits hpasses hpossible hfirst
  | oneSTimer => exact h.oneSTimer hyvalue hfits hpasses hfirst
  | sixtySTimer => exact h.sixtySTimer hyvalue hfits hpasses hfirst

end Events

/-- A client has accepted the message. -/
def Accepted (sub : Submission) (d : ClientDaemon) : Prop := sub ∈ (acceptedIn d.log).map Prod.fst

instance (sub : Submission) (d : ClientDaemon) : Decidable (d.Accepted sub) :=
  inferInstanceAs (Decidable (_ ∈ _))

/-- Every message of an application is accepted by a client, waits in the ring buffer or
is discarded, and only one of these. Every client receives such messages in order and
none twice. The reports that are accepted or wait, and the count that is still to be
reported, make up for what has been discarded, and the next message brings a report. -/
structure Accounted (flags : MctDaemonFlags) (d : ClientDaemon) : Prop where
  placed : ∀ sub ∈ (callsIn d.log).map Prod.fst, IsApplication sub →
    d.Accepted sub ∧ sub ∉ d.clientRingbuffer ∧ sub ∉ discardedIn d.log ∨
      ¬ d.Accepted sub ∧ sub ∈ d.clientRingbuffer ∧ sub ∉ discardedIn d.log ∨
      ¬ d.Accepted sub ∧ sub ∉ d.clientRingbuffer ∧ sub ∈ discardedIn d.log
  ordered : ∀ fd, (((acceptedIn d.log).filter fun pair => pair.2 = fd ∧ IsApplication pair.1).map
    fun pair => pair.1.number).Pairwise (· < ·)
  reported : (discardedIn d.log).length < 4294967296 →
    ((((callsIn d.log).map Prod.fst).filter fun sub =>
      d.Accepted sub ∨ sub ∈ d.clientRingbuffer).map reportCount).sum + d.overflowCounter =
        (discardedIn d.log).length
  reports : ∀ data answers, 0 < d.event.clientConnections → 0 < d.overflowCounter →
    d.state = .sendDirect →
      ∃ number state ret, d.submissions ≤ number ∧
        .submitted ⟨number, .bufferOverflow d.overflowCounter⟩ state ret ∈
          (step flags d (.message data, answers)).2.log

section Accounts

variable {flags : MctDaemonFlags} {d : ClientDaemon}

theorem accepted_iff (sub : Submission) : d.Accepted sub ↔ d.ledger.Delivered sub := by
  rw [Accepted, List.mem_map]
  constructor
  · rintro ⟨⟨_, fd⟩, hmem, rfl⟩
    exact ⟨fd, hmem⟩
  · rintro ⟨fd, hmem⟩
    exact ⟨(sub, fd), hmem, rfl⟩

/-- What is not discarded has been accepted or waits. -/
theorem sum_reportCount (h : d.ledger.Placed []) :
    ((d.ledger.entered.filter fun sub =>
      d.Accepted sub ∨ sub ∈ d.clientRingbuffer).map reportCount).sum +
        (d.ledger.dropped.map reportCount).sum = (d.ledger.entered.map reportCount).sum := by
  have hdropped : (d.ledger.entered.filter fun sub =>
      ¬(d.Accepted sub ∨ sub ∈ d.clientRingbuffer)).Perm d.ledger.dropped := by
    refine (List.perm_ext_iff_of_nodup (h.entered.filter _) h.dropped).mpr fun sub => ?_
    rw [List.mem_filter, decide_eq_true_eq, accepted_iff]
    constructor
    · rintro ⟨hentered, hnot⟩
      rw [not_or] at hnot
      rcases h.placed sub hentered with hheld | hdelivered | hqueue | hdropped
      · exact absurd hheld List.not_mem_nil
      · exact absurd hdelivered hnot.1
      · exact absurd hqueue hnot.2
      · exact hdropped
    · intro hdropped
      refine ⟨h.known sub (.inr (.inr (.inr hdropped))), not_or.mpr ⟨h.lost sub hdropped, ?_⟩⟩
      exact fun hqueue => (h.waiting sub hqueue).2 hdropped
  have hsplit := (List.filter_append_perm (fun sub : Submission =>
    decide (d.Accepted sub ∨ sub ∈ d.clientRingbuffer)) d.ledger.entered).map reportCount
  have hsum := hsplit.sum_eq
  rw [List.map_append, List.sum_append] at hsum
  rw [← hsum, ← (hdropped.map reportCount).sum_eq]
  simp

theorem AtRest.accounted (h : d.AtRest) : d.Accounted flags := by
  have hbooks : Books [] [] 0 d := h.elim Sending.books fun hstoring => hstoring.1.books
  refine ⟨?_, ?_, ?_, ?_⟩
  · intro sub hentered _
    rw [accepted_iff]
    rcases hbooks.placed.placed sub hentered with hheld | hdelivered | hqueue | hdropped
    · exact absurd hheld List.not_mem_nil
    · refine .inl ⟨hdelivered, fun hqueue => ?_, fun hdropped => ?_⟩
      · exact (hbooks.placed.waiting sub hqueue).1 hdelivered
      · exact hbooks.placed.lost sub hdropped hdelivered
    · exact .inr (.inl ⟨(hbooks.placed.waiting sub hqueue).1, hqueue,
        (hbooks.placed.waiting sub hqueue).2⟩)
    · refine .inr (.inr ⟨hbooks.placed.lost sub hdropped, fun hqueue => ?_, hdropped⟩)
      exact (hbooks.placed.waiting sub hqueue).2 hdropped
  · intro fd
    rw [List.pairwise_map, List.pairwise_filter]
    refine hbooks.ordered.received.imp fun hbefore hfirst hsecond => ?_
    obtain ⟨hfd, hkind⟩ := of_decide_eq_true hfirst
    obtain ⟨hfd', hkind'⟩ := of_decide_eq_true hsecond
    exact hbefore hkind hkind' (hfd.trans hfd'.symm)
  · intro hfew
    obtain ⟨-, hsum⟩ := hbooks.counted hfew
    have hparts := sum_reportCount hbooks.placed
    have hdropped : d.ledger.dropped = discardedIn d.log := rfl
    have hentered : d.ledger.entered = (callsIn d.log).map Prod.fst := rfl
    rw [hdropped] at hparts
    rw [hentered] at hparts hsum
    omega
  · intro data answers hconnected hcounter _
    rcases h with hsending | ⟨hstoring, hnone⟩
    · exact absurd hsending.settled (Nat.ne_of_gt hcounter)
    · exact absurd hnone ((clientConnections_pos hstoring.wired).mp hconnected)

end Accounts

instance (d : ClientDaemon) (input : Input) : Decidable (d.Possible input) :=
  match input with
  | .connect _ => inferInstanceAs (Decidable (_ ∧ _ ∧ _))
  | .disconnect _ => inferInstanceAs (Decidable (d.Client _))
  | .message _ => inferInstanceAs (Decidable True)
  | .oneSTimer => inferInstanceAs (Decidable True)
  | .sixtySTimer => inferInstanceAs (Decidable True)

def refuses (fd : Int) : Answers := ⟨fun _ other => other ≠ fd, fun _ _ => true, fun _ => []⟩

/-- An event during which only a client behind the first one takes nothing is orderly. -/
theorem orderly_refuses {d : ClientDaemon} {input : Input} {fd : Int}
    (hpossible : d.Possible input)
    (hfirst : (d.opened bothSinks input).clientFds.head? ≠ some fd) :
    d.Orderly bothSinks (input, refuses fd) where
  possible := hpossible
  fits _ := rfl
  passes := by
    rintro ⟨number, message⟩
    cases message with
    | time => exact (by decide : (-1 : Int) ≠ 1)
    | _ => exact (by decide : (0 : Int) ≠ 1)
  first := by
    intro first later hlater
    right
    intro number
    rw [hlater, List.head?_cons] at hfirst
    simpa [refuses] using hfirst

theorem buffering_wired : buffering.Wired where
  table := PollTable.prepare_wellFormed
  once := by
    rintro fd ⟨con, hmem, -⟩
    exact absurd hmem List.not_mem_nil
  active := by simp [buffering, EventState.prepare]
  own := by simp [buffering, EventState.prepare]
  single := List.nodup_nil
  allowed := by decide
  reached := by simp [buffering, EventState.prepare]
  noSerial := by simp [buffering, EventState.prepare]
  counted := rfl
  activated := by decide

/-- A message comes before the first client, and one when the second client fails. -/
def secondFails : List (Input × Answers) :=
  [(.message [1], refuses 0), (.connect 3, refuses 0), (.connect 4, refuses 0),
    (.message [2], refuses 4), (.disconnect 3, refuses 0), (.message [3], refuses 0)]

end ClientDaemon

end MctDaemon.Daemon
