import MctDaemon.Lib.Run
import MctDaemon.Shared.Receiver

/-!
The application connections of the daemon. Their receivers share one buffer
(`mct_receiver_init_global_buffer`), and the daemon serves them one round at a
time: receive, handle and remove whole messages, move the rest to the begin.
A rest that stays at the start of the shared buffer has no backup, and it
survives only until another connection receives.
-/

namespace MctDaemon.Shared

open Lib

/-- The shared buffer and the receiver of each connection. -/
structure AppReceivers where
  mem : List UInt8
  conns : Nat → MctReceiver

/-- One round of a connection: what it receives, and the sizes of the leading
messages that are removed. -/
structure Round where
  conn : Nat
  incoming : List UInt8
  removals : List Nat
  deriving DecidableEq, Repr

/-- Remove the messages. The bytes presented are listed before the first
removal and after each one. -/
def presentAndRemove (mem : List UInt8) :
    MctReceiver → List Nat → List (List UInt8) × MctReceiver
  | receiver, [] => ([receiver.presented mem], receiver)
  | receiver, size :: sizes =>
      let (shown, last) := presentAndRemove mem (mctReceiverRemove receiver size).2 sizes
      (receiver.presented mem :: shown, last)

/-- A round as `mct_daemon_process_user_messages` plays it. -/
def roundStep (calloc : Malloc) (state : AppReceivers) (round : Round) :
    List (List UInt8) × AppReceivers :=
  let (_, mem, receiver) := mctReceiverReceive state.mem (state.conns round.conn) round.incoming
  let (shown, receiver) := presentAndRemove mem receiver round.removals
  let receiver := mctReceiverMoveToBegin calloc mem receiver
  (shown, {mem := mem, conns := Function.update state.conns round.conn receiver})

/-- All connections are open and none has received anything. -/
def openConnections (mem : List UInt8) : AppReceivers where
  mem := mem
  conns := fun _ => mctReceiverInitGlobalBuffer

/-- What a connection has received so far, and how much of it was removed. -/
structure AppStream where
  received : List UInt8
  removed : Nat
  deriving DecidableEq, Repr

def AppStream.rest (stream : AppStream) : List UInt8 := stream.received.drop stream.removed

def AppStream.receive (stream : AppStream) (incoming : List UInt8) : AppStream :=
  {stream with received := stream.received ++ incoming}

def AppStream.removeAll (stream : AppStream) : List Nat → List (List UInt8) × AppStream
  | [] => ([stream.rest], stream)
  | size :: sizes =>
      let (shown, last) :=
        AppStream.removeAll {stream with removed := stream.removed + size} sizes
      (stream.rest :: shown, last)

/-- The same round on streams of their own. -/
def streamStep (streams : Nat → AppStream) (round : Round) :
    List (List UInt8) × (Nat → AppStream) :=
  let (shown, stream) := ((streams round.conn).receive round.incoming).removeAll round.removals
  (shown, Function.update streams round.conn stream)

def noStreams : Nat → AppStream := fun _ => ⟨[], 0⟩

/-- At least one byte arrives, the bytes not removed fit the buffer, and only
bytes that are there are removed. -/
def Round.Fits (state : AppReceivers) (round : Round) : Prop :=
  round.incoming ≠ [] ∧
    (state.conns round.conn).bytesRcvd + round.incoming.length ≤ mctReceiveBufsize ∧
    (∀ size ∈ round.removals, 0 < size) ∧
    round.removals.sum ≤ (state.conns round.conn).bytesRcvd + round.incoming.length

instance (state : AppReceivers) (round : Round) : Decidable (round.Fits state) :=
  inferInstanceAs (Decidable (_ ∧ _ ∧ _ ∧ _))

/-- No other connection has left bytes in the shared buffer: it has none, or
they are in its backup. -/
def AppReceivers.OthersSaved (state : AppReceivers) (conn : Nat) : Prop :=
  ∀ other, other ≠ conn →
    (state.conns other).bytesRcvd = 0 ∨ (state.conns other).backupBuf ≠ none

/-- Every connection carries the rest of its own stream. -/
structure CarriesAll (state : AppReceivers) (streams : Nat → AppStream) : Prop where
  mem_length : state.mem.length = mctReceiveBufsize
  removed_le : ∀ conn, (streams conn).removed ≤ (streams conn).received.length
  carries : ∀ conn, Carries state.mem (state.conns conn) (streams conn).rest

theorem open_carriesAll (mem : List UInt8) (hmem : mem.length = mctReceiveBufsize) :
    CarriesAll (openConnections mem) noStreams := by
  refine ⟨hmem, fun _ => le_refl _, ?_⟩
  intro conn
  have hinit := carries_init mem
  rw [hmem] at hinit
  exact hinit

section Rounds

variable {mem : List UInt8}

theorem rest_receive (stream : AppStream) (incoming : List UInt8)
    (hremoved : stream.removed ≤ stream.received.length) :
    (stream.receive incoming).rest = stream.rest ++ incoming :=
  List.drop_append_of_le_length hremoved

/-- The receiver presents before and after each removal what the stream has
left. -/
theorem presentAndRemove_eq (sizes : List Nat) {receiver : MctReceiver} {stream : AppStream}
    (h : Presents mem receiver stream.rest)
    (hremoved : stream.removed ≤ stream.received.length)
    (hpos : ∀ size ∈ sizes, 0 < size) (hsum : sizes.sum ≤ stream.rest.length) :
    (presentAndRemove mem receiver sizes).1 = (stream.removeAll sizes).1 ∧
      (stream.removeAll sizes).2.removed ≤ (stream.removeAll sizes).2.received.length ∧
      Presents mem (presentAndRemove mem receiver sizes).2 (stream.removeAll sizes).2.rest := by
  induction sizes generalizing receiver stream with
  | nil =>
      simp only [presentAndRemove, AppStream.removeAll, h.presented_eq]
      exact ⟨trivial, hremoved, h⟩
  | cons size sizes ih =>
      simp only [List.sum_cons] at hsum
      have hrestLen : stream.rest.length = stream.received.length - stream.removed :=
        List.length_drop
      obtain ⟨_, _, hnext⟩ := h.remove size (hpos size (by simp)) (by omega)
      have hdrop : stream.rest.drop size =
          AppStream.rest {stream with removed := stream.removed + size} := List.drop_drop
      rw [hdrop] at hnext
      have hpos' : ∀ later ∈ sizes, 0 < later := by
        intro later hlater
        exact hpos later (by simp [hlater])
      have hsum' : sizes.sum ≤
          (AppStream.rest {stream with removed := stream.removed + size}).length := by
        rw [← hdrop, List.length_drop]
        omega
      obtain ⟨hshown, hle, hlast⟩ := ih hnext (by simp only; omega) hpos' hsum'
      refine ⟨?_, hle, hlast⟩
      simp only [presentAndRemove, AppStream.removeAll, hshown, h.presented_eq]

/-- A receiver that is saved does not depend on the shared buffer. -/
theorem Carries.of_saved {other : List UInt8} {receiver : MctReceiver} {rest : List UInt8}
    (h : Carries mem receiver rest) (hsaved : receiver.bytesRcvd = 0 ∨ receiver.backupBuf ≠ none)
    (hlen : other.length = mem.length) : Carries other receiver rest := by
  refine ⟨h.size_eq.trans hlen.symm, h.count_eq, by rw [hlen]; exact h.fits, h.backup_eq, ?_⟩
  intro hnone
  rcases hsaved with hzero | hbackup
  · have hnil : rest = [] := by
      rw [h.count_eq] at hzero
      exact List.length_eq_zero_iff.mp hzero
    rw [hnil]
    rfl
  · exact absurd hnone hbackup

/-- One round presents the stream's own bytes and leaves every other
connection what it had. -/
theorem CarriesAll.round {state : AppReceivers} {streams : Nat → AppStream}
    (h : CarriesAll state streams) (calloc : Malloc) (halloc : ∀ n, calloc.block n ≠ none)
    (round : Round) (hfits : round.Fits state) (hsaved : state.OthersSaved round.conn) :
    (roundStep calloc state round).1 = (streamStep streams round).1 ∧
      CarriesAll (roundStep calloc state round).2 (streamStep streams round).2 := by
  obtain ⟨hne, hlen, hpos, hsum⟩ := hfits
  have hremoved := h.removed_le round.conn
  rw [(h.carries round.conn).count_eq] at hlen hsum
  obtain ⟨_, hmem, _, hpresents⟩ := (h.carries round.conn).receive round.incoming hne
    (by rw [h.mem_length]; exact hlen)
  rw [← rest_receive _ _ hremoved] at hpresents
  have hremovedNow : ((streams round.conn).receive round.incoming).removed ≤
      ((streams round.conn).receive round.incoming).received.length := by
    simp only [AppStream.receive, List.length_append]
    omega
  have hsumNow : round.removals.sum ≤
      ((streams round.conn).receive round.incoming).rest.length := by
    rw [rest_receive _ _ hremoved, List.length_append]
    exact hsum
  obtain ⟨hshown, hremovedLast, hlast⟩ :=
    presentAndRemove_eq round.removals hpresents hremovedNow hpos hsumNow
  refine ⟨hshown, hmem.trans h.mem_length, ?_, ?_⟩
  · intro conn
    by_cases hconn : conn = round.conn
    · subst hconn
      simpa [streamStep] using hremovedLast
    · simpa [streamStep, hconn] using h.removed_le conn
  · intro conn
    by_cases hconn : conn = round.conn
    · subst hconn
      simpa [roundStep, streamStep] using hlast.moveToBegin calloc (halloc _)
    · have hother := (h.carries conn).of_saved (hsaved conn hconn) hmem
      simpa [roundStep, streamStep, hconn] using hother

end Rounds

/-- In a run in which no connection receives while another one has bytes left
in the shared buffer without a backup, every round presents exactly the bytes
of its own stream that are not removed yet, in order. -/
theorem saved_streams_undisturbed (calloc : Malloc) (halloc : ∀ n, calloc.block n ≠ none)
    (mem : List UInt8) (hmem : mem.length = mctReceiveBufsize) (rounds : List Round)
    (hrun : Guarded (roundStep calloc)
      (fun state round => round.Fits state ∧ state.OthersSaved round.conn)
      (openConnections mem) rounds) :
    (runOps (roundStep calloc) (openConnections mem) rounds).1 =
        (runOps streamStep noStreams rounds).1 ∧
      CarriesAll (runOps (roundStep calloc) (openConnections mem) rounds).2
        (runOps streamStep noStreams rounds).2 :=
  runOps_refines_of_guarded
    (fun _ _ round hcarries hguard => hcarries.round calloc halloc round hguard.1 hguard.2)
    (open_carriesAll mem hmem) rounds hrun

/-- A whole message and a rest, another connection's message, and the end of
the rest. -/
theorem saved_streams_undisturbed_two :
    let mem := List.replicate mctReceiveBufsize 0
    let rounds : List Round := [⟨0, [1, 2, 3], [2]⟩, ⟨1, [9, 8], [2]⟩, ⟨0, [4], []⟩]
    (runOps (roundStep Malloc.zeroed) (openConnections mem) rounds).1 =
      [[[1, 2, 3], [3]], [[9, 8], []], [[3, 4]]] := by
  intro mem rounds
  have hrun : Guarded (roundStep Malloc.zeroed)
      (fun state round => round.Fits state ∧ state.OthersSaved round.conn)
      (openConnections mem) rounds := by
    refine ⟨⟨by decide +kernel, ?_⟩, ⟨by decide +kernel, ?_⟩, ⟨by decide +kernel, ?_⟩, trivial⟩
    · intro other _
      exact Or.inl rfl
    · intro other hother
      by_cases hzero : other = 0
      · subst hzero
        refine Or.inr ?_
        simp [roundStep, mctReceiverReceive, presentAndRemove, mctReceiverRemove,
          mctReceiverMoveToBegin, openConnections, mctReceiverInitGlobalBuffer, mctReceiverInit,
          Malloc.zeroed]
      · refine Or.inl ?_
        simp [roundStep, hzero, openConnections, mctReceiverInitGlobalBuffer, mctReceiverInit]
    · intro other hother
      refine Or.inl ?_
      by_cases hone : other = 1
      · subst hone
        simp [roundStep, mctReceiverReceive, presentAndRemove, mctReceiverRemove,
          mctReceiverMoveToBegin, openConnections, mctReceiverInitGlobalBuffer, mctReceiverInit]
      · have hzero : other ≠ 0 := hother
        simp [roundStep, hone, hzero, openConnections, mctReceiverInitGlobalBuffer,
          mctReceiverInit]
  have hshown := (saved_streams_undisturbed Malloc.zeroed (by simp [Malloc.zeroed]) mem
    (by simp [mem]) rounds hrun).1
  rw [hshown]
  decide +kernel

/-- The first half of a user header is left at the start of the shared
buffer, and another connection's bytes take its place. -/
theorem shared_rest_overwritten :
    let mem := List.replicate mctReceiveBufsize 0
    let rounds : List Round :=
      [⟨0, [68, 85, 72, 1], []⟩, ⟨1, [7, 7, 7], []⟩, ⟨0, [2, 0, 0, 0], []⟩]
    Guarded (roundStep Malloc.zeroed) (fun state round => round.Fits state)
        (openConnections mem) rounds ∧
      (runOps (roundStep Malloc.zeroed) (openConnections mem) rounds).1 =
        [[[68, 85, 72, 1]], [[7, 7, 7]], [[7, 7, 7, 1, 2, 0, 0, 0]]] ∧
      (runOps streamStep noStreams rounds).1 =
        [[[68, 85, 72, 1]], [[7, 7, 7]], [[68, 85, 72, 1, 2, 0, 0, 0]]] := by
  intro mem rounds
  have hfits : Guarded (roundStep Malloc.zeroed) (fun state round => round.Fits state)
      (openConnections mem) rounds :=
    ⟨by decide +kernel, by decide +kernel, by decide +kernel, trivial⟩
  refine ⟨hfits, ?_, by decide +kernel⟩
  clear hfits
  generalize mem = any at *
  simp [rounds, roundStep, mctReceiverReceive, presentAndRemove, mctReceiverMoveToBegin,
    openConnections, mctReceiverInitGlobalBuffer, mctReceiverInit, MctReceiver.presented,
    copyInto]

end MctDaemon.Shared
