import MctDaemon.User.SendLog

/-!
What the replay copies into the resend buffer. The buffer is allocated when the library
starts, for the log buffer and the headers that its messages have then. The entries are log
messages and the messages that register and unregister; descriptions have any length.
-/

namespace MctDaemon.User

open Lib Shared

section Model

structure LibrarySetup where
  logBufLen : UInt16
  useExtendedHeaderForNonVerbose : Bool
  bufferMin : UInt32
  bufferMax : UInt32
  bufferStep : UInt32
  deriving DecidableEq, Repr

/-- `header_size` of `mct_init_common`. -/
def headerSize (setup : LibrarySetup) : Nat :=
  let headerSize :=
    sizeofMctUserHeader + sizeofMctStandardHeader + sizeofMctStandardHeaderExtra
  if setup.useExtendedHeaderForNonVerbose then headerSize + sizeofMctExtendedHeader
  else headerSize

/-- The bytes that are allocated for `resend_buffer`. -/
def resendBufferSize (setup : LibrarySetup) : Nat := setup.logBufLen.toNat + headerSize setup

/-- `mct_init_common`, as far as the replay goes. -/
def mctInitCommon (malloc : Malloc) (setup : LibrarySetup) : Option Resender :=
  (mctBufferInitDynamic malloc setup.bufferMin.toNat setup.bufferMax.toNat
      setup.bufferStep.toNat).map fun startupBuffer =>
    { appID := []
      logBufLen := setup.logBufLen
      startupBuffer
      resendBuffer := List.replicate (resendBufferSize setup) 0
      mctLogHandle := -1 }

/-- The three parts in which a message is handed to `mct_buffer_push3`: the user header, the
message, and what has any length. -/
def UserMessage.parts : UserMessage → List UInt8 × List UInt8 × List UInt8
  | registerApplication apid pid description =>
      (userHeader mctUserMessageRegisterApplication,
        apid.bytes ++ leBytes 4 pid.toNat ++ leBytes 4 description.length, description)
  | unregisterApplication apid pid =>
      (userHeader mctUserMessageUnregisterApplication, apid.bytes ++ leBytes 4 pid.toNat, [])
  | registerContext apid ctid logLevelPos logLevel traceStatus pid description =>
      (userHeader mctUserMessageRegisterContext,
        apid.bytes ++ ctid.bytes ++ leBytes 4 logLevelPos.toNat ++ [logLevel, traceStatus] ++
          leBytes 4 pid.toNat ++ leBytes 4 description.length, description)
  | unregisterContext apid ctid pid =>
      (userHeader mctUserMessageUnregisterContext,
        apid.bytes ++ ctid.bytes ++ leBytes 4 pid.toNat, [])
  | overflow overflowCounter apid =>
      (userHeader mctUserMessageOverflow, leBytes 4 overflowCounter.toNat ++ apid.bytes, [])
  | appLlTs apid logLevel traceStatus =>
      (userHeader mctUserMessageAppLlTs, apid.bytes ++ [logLevel, traceStatus], [])
  | marker => (userHeader mctUserMessageMarker, [], [])
  | log message =>
      (userHeader mctUserMessageLog, message.headers, message.payload)

/-- A message is stored where it could not be sent. -/
def storeMessage (malloc : Malloc) (message : UserMessage) (u : Resender) : Resender :=
  let (header, body, tail) := message.parts
  { u with startupBuffer := (mctBufferPush3 malloc u.startupBuffer header body tail).2 }

/-- A round of the loop of `mct_user_log_resend_buffer` with this answer to its message. -/
def resendOnce (malloc : Malloc) (answer : MctReturnValue) (u : Resender) : Resender :=
  let copy := mctBufferCopy malloc u.startupBuffer true u.logBufLen.toNat
  let mem := copyWithin u.resendBuffer 0 copy.data
  if copy.ret > 0 then
    { u with
      startupBuffer :=
        if answer = .ok then (mctBufferRemove malloc copy.buf).buf else copy.buf
      resendBuffer := addApplicationId mem u.appID
      mctLogHandle := if answer = .pipeError then -1 else u.mctLogHandle
      overrun := u.overrun || reachesBehind mem copy.ret.toNat }
  else { u with startupBuffer := copy.buf, resendBuffer := mem }

/-- What the loop of `mct_user_log_resend_buffer` copies into the resend buffer, round by
round. -/
def resendCopies (malloc : Malloc) (out : Nat → MctReturnValue) :
    Nat → Nat → Resender → List (List UInt8)
  | 0, _, _ => []
  | count + 1, i, u =>
      let copy := mctBufferCopy malloc u.startupBuffer true u.logBufLen.toNat
      copy.data ::
        if copy.ret > 0 then
          if out i = .ok then resendCopies malloc out count (i + 1) (resendOnce malloc .ok u)
          else []
        else resendCopies malloc out count i (resendOnce malloc .ok u)

/-- The events of the library that concern the startup buffer. -/
inductive StartupEvent where
  | registerApp (appID : List UInt8)
  | reattach (handle : Int)
  | store (malloc : Malloc) (message : UserMessage)
  | resend (malloc : Malloc) (out : Nat → MctReturnValue)

/-- An event, and what it copies into the resend buffer. -/
def startupStep (u : Resender) : StartupEvent → List (List UInt8) × Resender
  | .registerApp appID => ([], { u with appID })
  | .reattach handle => ([], { u with mctLogHandle := handle })
  | .store malloc message => ([], storeMessage malloc message u)
  | .resend malloc out =>
      (if u.appID.headD 0 = 0 then []
        else resendCopies malloc out (mctBufferGetMessageCount u.startupBuffer).toNat 0 u,
        (mctUserLogResendBuffer malloc out u).2.2)

end Model

section Specification

variable (setup : LibrarySetup)

/-- No call writes more into the log buffer than it has room for. -/
def UserMessage.Written : UserMessage → Prop
  | .log message => message.payload.length ≤ setup.logBufLen.toNat
  | _ => True

/-- A description is not longer than the log buffer and some headers, and a log message has
an extended header only if there is room for one, in the resend buffer or because of what
else is missing. -/
def UserMessage.Replayable : UserMessage → Prop
  | .registerApplication _ _ description => 20 + description.length ≤ resendBufferSize setup
  | .registerContext _ _ _ _ _ _ description => 30 + description.length ≤ resendBufferSize setup
  | .log message =>
      setup.useExtendedHeaderForNonVerbose = true ∨ message.extended = none ∨
        message.extraBytes.length + message.payload.length + sizeofMctExtendedHeader ≤
          sizeofMctStandardHeaderExtra + setup.logBufLen.toNat
  | _ => True

/-- What is stored can be replayed, and the buffer grows safely. -/
def StartupEvent.Admissible (u : Resender) : StartupEvent → Prop
  | .store malloc message =>
      message.Written setup ∧ message.Replayable setup ∧
        u.startupBuffer.SafePush malloc message.bytes
  | _ => True

end Specification

section Sizes

variable {setup : LibrarySetup}

theorem UserMessage.parts_bytes (message : UserMessage) :
    message.parts.1 ++ message.parts.2.1 ++ message.parts.2.2 = message.bytes := by
  cases message with
  | log message => exact message.parts
  | _ => simp [parts, bytes]

theorem LogMessage.extraBytes_le (message : LogMessage) : message.extraBytes.length ≤ 12 := by
  rw [extraBytes_length]
  split <;> split <;> split <;> omega

theorem resendBufferSize_eq (setup : LibrarySetup) :
    resendBufferSize setup = setup.logBufLen.toNat + 24 +
      if setup.useExtendedHeaderForNonVerbose then 10 else 0 := by
  unfold resendBufferSize headerSize
  split <;> rfl

/-- A message can be replayed exactly if it fits into the resend buffer. -/
theorem replayable_iff {message : UserMessage} (hwritten : message.Written setup) :
    message.Replayable setup ↔ message.bytes.length ≤ resendBufferSize setup := by
  have hsize := resendBufferSize_eq setup
  cases message with
  | registerApplication apid pid description =>
      have hid : apid.bytes.length = 4 := apid.length_eq
      simp only [UserMessage.Replayable, UserMessage.bytes, List.length_append,
        userHeader_length, leBytes_length, hid]
  | registerContext apid ctid logLevelPos logLevel traceStatus pid description =>
      have hid : apid.bytes.length = 4 := apid.length_eq
      have hctid : ctid.bytes.length = 4 := ctid.length_eq
      simp only [UserMessage.Replayable, UserMessage.bytes, List.length_append,
        userHeader_length, leBytes_length, hid, hctid, List.length_cons, List.length_nil]
  | log message =>
      have hextra := message.extraBytes_le
      have hpayload : message.payload.length ≤ setup.logBufLen.toNat := hwritten
      have hlength : (UserMessage.log message).bytes.length = 12 + message.extraBytes.length +
          (message.extended.elim [] ExtendedHeader.bytes).length + message.payload.length := by
        simp only [UserMessage.bytes, LogMessage.bytes, List.length_append, message.front_length]
      rw [hlength, hsize]
      cases hext : message.extended with
      | none =>
          refine iff_of_true (.inr (.inl hext)) ?_
          simp only [Option.elim_none, List.length_nil]
          omega
      | some header =>
          have hapid : header.apid.bytes.length = 4 := header.apid.length_eq
          have hctid : header.ctid.bytes.length = 4 := header.ctid.length_eq
          simp only [UserMessage.Replayable, hext, Option.elim_some, ExtendedHeader.bytes,
            List.length_append, List.length_cons, List.length_nil, hapid, hctid, reduceCtorEq,
            false_or, sizeofMctExtendedHeader, sizeofMctStandardHeaderExtra]
          cases setup.useExtendedHeaderForNonVerbose with
          | false =>
              simp only [Bool.false_eq_true, false_or, if_false]
              omega
          | true => exact iff_of_true (.inl rfl) (by simp only [if_true]; omega)
  | unregisterApplication apid pid =>
      have hid : apid.bytes.length = 4 := apid.length_eq
      refine iff_of_true trivial ?_
      simp only [UserMessage.bytes, List.length_append, userHeader_length, leBytes_length, hid]
      omega
  | unregisterContext apid ctid pid =>
      have hid : apid.bytes.length = 4 := apid.length_eq
      have hctid : ctid.bytes.length = 4 := ctid.length_eq
      refine iff_of_true trivial ?_
      simp only [UserMessage.bytes, List.length_append, userHeader_length, leBytes_length, hid,
        hctid]
      omega
  | overflow overflowCounter apid =>
      have hid : apid.bytes.length = 4 := apid.length_eq
      refine iff_of_true trivial ?_
      simp only [UserMessage.bytes, List.length_append, userHeader_length, leBytes_length, hid]
      omega
  | appLlTs apid logLevel traceStatus =>
      have hid : apid.bytes.length = 4 := apid.length_eq
      refine iff_of_true trivial ?_
      simp only [UserMessage.bytes, List.length_append, userHeader_length, hid, List.length_cons,
        List.length_nil]
      omega
  | marker =>
      refine iff_of_true trivial ?_
      rw [hsize]
      exact le_trans (of_decide_eq_true rfl) (Nat.le_add_right_of_le (Nat.le_add_left 24 _))

end Sizes

section Copies

variable {malloc : Malloc} {out : Nat → MctReturnValue} {room : Nat} {u : Resender}

/-- The loop takes its rounds one after the other. -/
theorem resendLoop_eq (count i : Nat) (u : Resender) :
    (resendLoop malloc out (count + 1) i u).2.2 =
      if (mctBufferCopy malloc u.startupBuffer true u.logBufLen.toNat).ret > 0 then
        if out i = .ok then
          (resendLoop malloc out count (i + 1) (resendOnce malloc .ok u)).2.2
        else resendOnce malloc (out i) u
      else (resendLoop malloc out count i (resendOnce malloc .ok u)).2.2 := by
  dsimp only [resendLoop]
  by_cases hret : (mctBufferCopy malloc u.startupBuffer true u.logBufLen.toNat).ret > 0
  · rw [if_pos hret, if_pos hret]
    by_cases hok : out i = .ok
    · rw [if_pos hok, if_pos hok]
      simp only [resendOnce, if_pos hret, if_true, reduceCtorEq, if_false]
    · rw [if_neg hok, if_neg hok]
      simp only [resendOnce, if_pos hret, if_neg hok]
      by_cases hpipe : out i = .pipeError
      · rw [if_pos hpipe, if_pos hpipe]
      · rw [if_neg hpipe, if_neg hpipe]
  · rw [if_neg hret, if_neg hret]
    simp only [resendOnce, if_neg hret]

theorem resendOnce_within (h : EntriesWithin room u.startupBuffer) (answer : MctReturnValue) :
    EntriesWithin room (resendOnce malloc answer u).startupBuffer := by
  have hcopy : EntriesWithin room
      (mctBufferCopy malloc u.startupBuffer true u.logBufLen.toNat).buf :=
    (h.get true u.logBufLen.toNat false).1
  unfold resendOnce
  by_cases hret : (mctBufferCopy malloc u.startupBuffer true u.logBufLen.toNat).ret > 0
  · rw [if_pos hret]
    dsimp only
    split
    · exact (hcopy.get false 0 true).1
    · exact hcopy
  · rw [if_neg hret]
    exact hcopy

/-- The rounds keep the buffer as it is to be, and copy no more than one entry each. -/
theorem resendLoop_within (h : EntriesWithin room u.startupBuffer) (count i : Nat) :
    EntriesWithin room (resendLoop malloc out count i u).2.2.startupBuffer ∧
      ∀ copied ∈ resendCopies malloc out count i u, copied.length ≤ room := by
  induction count generalizing i u with
  | zero => exact ⟨h, by simp [resendCopies]⟩
  | succ count ih =>
      have hfirst : (mctBufferCopy malloc u.startupBuffer true u.logBufLen.toNat).data.length ≤
          room := (h.get true u.logBufLen.toNat false).2
      have hnext : EntriesWithin room (resendOnce malloc .ok u).startupBuffer :=
        resendOnce_within h .ok
      rw [resendLoop_eq]
      dsimp only [resendCopies]
      rw [List.forall_mem_cons]
      split
      · split
        · exact ⟨(ih hnext (i + 1)).1, hfirst, (ih hnext (i + 1)).2⟩
        · exact ⟨resendOnce_within h (out i), hfirst, by simp⟩
      · exact ⟨(ih hnext i).1, hfirst, (ih hnext i).2⟩

variable {setup : LibrarySetup}

theorem startupStep_within (h : EntriesWithin (resendBufferSize setup) u.startupBuffer)
    (event : StartupEvent) (hevent : event.Admissible setup u) :
    EntriesWithin (resendBufferSize setup) (startupStep u event).2.startupBuffer ∧
      ∀ copied ∈ (startupStep u event).1, copied.length ≤ resendBufferSize setup := by
  cases event with
  | registerApp appID => exact ⟨h, by simp [startupStep]⟩
  | reattach handle => exact ⟨h, by simp [startupStep]⟩
  | store malloc message =>
      obtain ⟨hwritten, hreplayable, hsafe⟩ := hevent
      have hroom := (replayable_iff hwritten).mp hreplayable
      rw [← message.parts_bytes] at hsafe hroom
      exact ⟨h.push3 hsafe hroom, by simp [startupStep]⟩
  | resend malloc out =>
      dsimp only [startupStep, mctUserLogResendBuffer]
      split
      · exact ⟨h, by simp⟩
      · exact resendLoop_within h _ 0

/-- In a run from the start of the library whose messages can be replayed, no copy is longer
than the resend buffer. -/
theorem resend_copies_fit {malloc : Malloc} (hinit : mctInitCommon malloc setup = some u)
    (events : List StartupEvent)
    (hevents : Guarded startupStep (fun u event => event.Admissible setup u) u events) :
    ∀ copies ∈ (runOps startupStep u events).1, ∀ copied ∈ copies,
      copied.length ≤ resendBufferSize setup := by
  have hstart : EntriesWithin (resendBufferSize setup) u.startupBuffer := by
    unfold mctInitCommon at hinit
    obtain ⟨buf, hbuf, rfl⟩ := Option.map_eq_some_iff.mp hinit
    exact initDynamic_within setup.bufferMin.toNat_lt hbuf
  have hstep : ∀ (u : Resender) (event : StartupEvent),
      EntriesWithin (resendBufferSize setup) u.startupBuffer → event.Admissible setup u →
        EntriesWithin (resendBufferSize setup) (startupStep u event).2.startupBuffer ∧
          ∀ copied ∈ (startupStep u event).1, copied.length ≤ resendBufferSize setup :=
    fun _ event hwithin hevent => startupStep_within hwithin event hevent
  refine runOps_each hstep ?_ events hevents
  exact hstart

end Copies

end MctDaemon.User
