import MctDaemon.User.ResendBuffer
import MctDaemon.Lib.Passage
import MctDaemon.Lib.Run

/-!
The way of a log message out of the library (`mct_user_log_send_log`): a report of the
messages that were lost, the replay of those that wait, the message itself, and the startup
buffer where it cannot be sent. The check before the message is stored asks whether the data
area as it is now, with the message behind it, is within the largest size; the push asks for
free bytes.
-/

namespace MctDaemon.User

open Lib Shared

section Model

/-- What the library keeps of the messages that have not reached the daemon.
`bufferEmpty` is `g_mct_buffer_empty`. -/
structure Library where
  resender : Resender
  overflowCounter : UInt32
  bufferEmpty : Bool
  deriving DecidableEq, Repr

/-- What a call of `mct_user_log_send_log` meets: the allocator, the answers to what it
writes to the connection, the block mode, and what other threads do to the library while the
call waits for a free buffer. -/
structure Surroundings where
  malloc : Malloc
  overflow : Bool
  resend : Nat → MctReturnValue
  direct : MctReturnValue
  blocking : Bool
  meanwhile : Library → Library

/-- A call of `mct_user_log_out_error_handling`: its answer, whether it waited, and the
startup buffer that it found and the one that it left. -/
structure Handling where
  ret : MctReturnValue
  blocked : Bool
  message : List UInt8
  found : MctBuffer
  left : MctBuffer
  deriving DecidableEq, Repr

/-- What is seen of a call: its answer, the message it was about, the overflow that it
reported, the messages that the daemon got, and how a failure was handled. -/
structure SendReply where
  ret : MctReturnValue
  logged : Option LogMessage
  reported : Option UInt32
  delivered : List (List UInt8)
  handling : Option Handling

def mctBufferCheckSize (buf : MctBuffer) (needed : Nat) : MctReturnValue :=
  if buf.size + sizeofBufferHead + needed > buf.maxSize then .error else .ok

/-- `mct_user_log_out3`, where `answer` is what a write would give. -/
def mctUserLogOut3 (handle : Int) (answer : MctReturnValue) : MctReturnValue :=
  if handle ≤ 0 then .error else answer

/-- `mct_user_log_send_overflow`, where `written` says whether a write would do. -/
def mctUserLogSendOverflow (handle : Int) (written : Bool) : MctReturnValue :=
  if handle ≤ 0 then .error else if written then .ok else .error

/-- The message behind its user header and in front of its payload. -/
def LogMessage.headers (message : LogMessage) : List UInt8 :=
  [message.htyp, message.mcnt] ++ beBytes 2 message.len ++ message.extraBytes ++
    message.extended.elim [] ExtendedHeader.bytes

/-- `mct_user_log_out_error_handling` for a log message. -/
def mctUserLogOutErrorHandling (around : Surroundings) (message : LogMessage) (lib : Library) :
    Handling × Library :=
  let data1 := userHeader mctUserMessageLog
  let data2 := message.headers
  let data3 := message.payload
  let found := lib.resender.startupBuffer
  let ret := mctBufferCheckSize found (data1.length + data2.length + data3.length)
  let blocked := decide (ret ≠ .ok) && around.blocking
  let lib := if blocked then around.meanwhile { lib with bufferEmpty := false } else lib
  let pushed := mctBufferPush3 around.malloc lib.resender.startupBuffer data1 data2 data3
  let lib := { lib with resender := { lib.resender with startupBuffer := pushed.2 } }
  let lib := if blocked then lib else { lib with bufferEmpty := false }
  ({ ret := if pushed.1 = .ok then ret else .bufferFull
     blocked
     message := data1 ++ data2 ++ data3
     found
     left := pushed.2 }, lib)

/-- Of the messages that a replay has offered, the ones that were taken. -/
def accepted (offered : List (List UInt8)) (ret : MctReturnValue) : List (List UInt8) :=
  if ret = .ok then offered else offered.dropLast

/-- `mct_user_log_resend_buffer` on the connection of the library. -/
def resendRound (malloc : Malloc) (resend : Nat → MctReturnValue) (lib : Library) :
    List (List UInt8) × MctReturnValue × Library :=
  let (offered, ret, resender) := mctUserLogResendBuffer malloc
    (fun i => mctUserLogOut3 lib.resender.mctLogHandle (resend i)) lib.resender
  (accepted offered ret, ret, { lib with resender })

/-- The overflow is reported before anything else. -/
def reportOverflow (around : Surroundings) (lib : Library) : Option UInt32 × Library :=
  if lib.overflowCounter ≠ 0 ∧
      mctUserLogSendOverflow lib.resender.mctLogHandle around.overflow = .ok then
    (some lib.overflowCounter, { lib with overflowCounter := 0 })
  else (none, lib)

def resendFirst (around : Surroundings) (lib : Library) :
    List (List UInt8) × MctReturnValue × Library :=
  if lib.resender.mctLogHandle ≠ -1 ∧ lib.resender.appID.headD 0 ≠ 0 ∧ lib.bufferEmpty = false then
    resendRound around.malloc around.resend lib
  else ([], .ok, lib)

/-- The message itself is sent if there is nothing in front of it. -/
def sendDirect (around : Surroundings) (message : LogMessage)
    (tried : List (List UInt8) × MctReturnValue × Library) :
    List (List UInt8) × MctReturnValue × Library :=
  let (delivered, ret, lib) := tried
  if ret = .ok ∧ lib.resender.appID.headD 0 ≠ 0 then
    let ret := mctUserLogOut3 lib.resender.mctLogHandle around.direct
    (if ret = .ok then delivered ++ [message.bytes] else delivered, ret,
      { lib with bufferEmpty := true })
  else (delivered, ret, lib)

/-- The answer of the call, and what a connection error does to the handle, where the
handling of the failure has answered with another error. -/
def afterFailure (ret : MctReturnValue) (lib : Library) : MctReturnValue × Library :=
  match ret with
  | .pipeFull => (.pipeFull, lib)
  | .pipeError =>
      (.pipeError, { lib with resender := { lib.resender with mctLogHandle := -1 } })
  | .ok => (.ok, lib)
  | _ => (.error, lib)

/-- The end of the call: a message that was not sent is stored. -/
def keepUnsent (around : Surroundings) (message : LogMessage) (ret : MctReturnValue)
    (lib : Library) : MctReturnValue × Option Handling × Library :=
  if ret ≠ .ok ∨ lib.resender.appID.headD 0 = 0 then
    let (handling, lib) := mctUserLogOutErrorHandling around message lib
    if handling.ret = .ok then (.ok, some handling, lib)
    else if handling.ret = .bufferFull then
      (.bufferFull, some handling, { lib with overflowCounter := lib.overflowCounter + 1 })
    else
      let (ret, lib) := afterFailure ret lib
      (ret, some handling, lib)
  else (.ok, none, lib)

/-- What the call has tried for the message before it stores it. -/
def trySend (around : Surroundings) (message : LogMessage) (lib : Library) :
    List (List UInt8) × MctReturnValue × Library :=
  sendDirect around message (resendFirst around (reportOverflow around lib).2)

/-- `mct_user_log_send_log` for the message that it has built. -/
def sendMessage (around : Surroundings) (message : LogMessage) (lib : Library) :
    SendReply × Library :=
  let reported := (reportOverflow around lib).1
  let (delivered, ret, lib) := trySend around message lib
  let (ret, handling, lib) := keepUnsent around message ret lib
  ({ ret, logged := some message, reported, delivered, handling }, lib)

/-- The calls of the library that send or store log messages. -/
inductive SendEvent where
  | sendLog (settings : LogSettings) (context : LogContext) (log : MctContextData)
      (mtype : MctMessageType) (around : Surroundings)
  | resendBuffer (malloc : Malloc) (resend : Nat → MctReturnValue)
  | flush (malloc : Malloc) (resend : Nat → MctReturnValue)
  | reattach (handle : Int)

/-- The message of a call, none if the call is refused. It carries the application id of
the library. -/
def Library.built (lib : Library) (settings : LogSettings) (context : LogContext)
    (log : MctContextData) (mtype : MctMessageType) : Option LogMessage :=
  mctUserLogSendLog { settings with appID := lib.resender.appID } context log mtype

def sendStep (lib : Library) : SendEvent → SendReply × Library
  | .sendLog settings context log mtype around =>
      match lib.built settings context log mtype with
      | some message => sendMessage around message lib
      | none =>
          ({ ret := if context.contextID.head? = some 0 then .wrongParameter else .error
             logged := none, reported := none, delivered := [], handling := none }, lib)
  | .resendBuffer malloc resend =>
      let (delivered, ret, lib) := resendRound malloc resend lib
      ({ ret, logged := none, reported := none, delivered, handling := none }, lib)
  | .flush malloc resend =>
      -- the housekeeper thread
      if lib.bufferEmpty = false ∧ 0 < lib.resender.mctLogHandle then
        let (delivered, ret, lib) := resendRound malloc resend lib
        ({ ret, logged := none, reported := none, delivered, handling := none },
          if ret = .ok then { lib with bufferEmpty := true } else lib)
      else
        ({ ret := .ok, logged := none, reported := none, delivered := [], handling := none }, lib)
  | .reattach handle =>
      ({ ret := .ok, logged := none, reported := none, delivered := [], handling := none },
        if lib.resender.mctLogHandle < 0 then
          { lib with resender := { lib.resender with mctLogHandle := handle } }
        else lib)

end Model

section Specification

/-- The bytes by which the data area may still grow. -/
def growable (buf : MctBuffer) : Nat :=
  (buf.maxSize - (buf.size + sizeofBufferHead)) / buf.stepSize * buf.stepSize

/-- The entry fits into the free space that the buffer has after some more growths. -/
def FitsGrown (buf : MctBuffer) (entry : List UInt8) : Prop :=
  ∃ k, (entrySize entry : Int) ≤ buf.free + (k * buf.stepSize : Nat) ∧
    (0 < k → buf.size + sizeofBufferHead + k * buf.stepSize ≤ buf.maxSize)

/-- The check passes, or there is indeed no room for the entry. -/
def CheckAgrees (buf : MctBuffer) (entry : List UInt8) : Prop :=
  buf.size + sizeofBufferHead + entry.length ≤ buf.maxSize ∨
    buf.free + growable buf < entrySize entry

/-- The call has stored the message and says so, or it has discarded it and says that. -/
def Handling.Honest (handling : Handling) : Prop :=
  ∃ queue, DynamicAs handling.found queue ∧
    (handling.ret = .ok ∧ DynamicAs handling.left (queue ++ [handling.message]) ∨
      handling.ret = .bufferFull ∧ DynamicAs handling.left queue)

/-- A library of a registered application with the messages in its startup buffer, each of which
has room in the resend buffer. What is printed locally is left out. -/
structure Keeps (appID : List UInt8) (logBufLen : UInt16) (room : Nat) (lib : Library)
    (messages : List UserMessage) : Prop where
  stores : Stores lib.resender messages
  faithful : ∀ message ∈ messages, Faithful logBufLen room message
  appID_eq : lib.resender.appID = appID
  logBufLen_eq : lib.resender.logBufLen = logBufLen
  room_eq : lib.resender.resendBuffer.length = room
  inside : lib.resender.overrun = false

/-- Between the calls a buffer that is taken for empty is empty. -/
structure Settled (appID : List UInt8) (logBufLen : UInt16) (room : Nat) (lib : Library)
    (messages : List UserMessage) : Prop extends Keeps appID logBufLen room lib messages where
  empty : lib.bufferEmpty = true → messages = []

/-- What is to reach the daemon for a message. -/
def sentBytes (appID : List UInt8) (message : UserMessage) : List UInt8 :=
  (message.replayed appID).bytes

def Library.queue (lib : Library) (messages : List UserMessage) : LossyQueue UserMessage :=
  ⟨messages, lib.overflowCounter.toNat⟩

def loggedIn (replies : List SendReply) : List UserMessage :=
  replies.filterMap fun reply => reply.logged.map .log

def deliveredIn (replies : List SendReply) : List (List UInt8) :=
  replies.flatMap SendReply.delivered

def reportedIn (replies : List SendReply) : Nat :=
  (replies.map fun reply => reply.reported.elim 0 UInt32.toNat).sum

/-- A call outside the blocking mode. -/
def SendEvent.NonBlocking : SendEvent → Prop
  | .sendLog _ _ _ _ around => around.blocking = false
  | _ => True

/-- A call that does nothing wrong: its message is built and can be replayed, the counter
does not overflow, and if the message has to be stored the buffer grows safely, and the
check agrees with the push. -/
def Admissible (lib : Library) : SendEvent → Prop
  | .sendLog settings context log mtype around =>
      match lib.built settings context log mtype with
      | none => context.contextID.head? = some 0
      | some message =>
          Faithful lib.resender.logBufLen lib.resender.resendBuffer.length (.log message) ∧
          lib.overflowCounter.toNat + 1 < 4294967296 ∧
          let tried := trySend around message lib
          tried.2.1 ≠ .ok ∨ tried.2.2.resender.appID.headD 0 = 0 →
            tried.2.2.resender.startupBuffer.SafePush around.malloc message.bytes ∧
              CheckAgrees tried.2.2.resender.startupBuffer message.bytes
  | _ => True

end Specification

section Growth

variable {malloc : Malloc} {buf : MctBuffer}

theorem fitsGrown_iff (buf : MctBuffer) (entry : List UInt8) :
    FitsGrown buf entry ↔ (entrySize entry : Int) ≤ buf.free + growable buf := by
  constructor
  · rintro ⟨k, hfits, hmax⟩
    rcases Nat.eq_zero_or_pos k with rfl | hk
    · rw [Nat.zero_mul] at hfits
      omega
    · have hsize := hmax hk
      have hle : k * buf.stepSize ≤ growable buf := by
        rcases Nat.eq_zero_or_pos buf.stepSize with hzero | hstep
        · rw [hzero, Nat.mul_zero]
          exact Nat.zero_le _
        · exact Nat.mul_le_mul_right _ ((Nat.le_div_iff_mul_le hstep).mpr (by omega))
      omega
  · intro hfits
    refine ⟨(buf.maxSize - (buf.size + sizeofBufferHead)) / buf.stepSize, hfits, fun hk => ?_⟩
    have hle := Nat.div_mul_le_self (buf.maxSize - (buf.size + sizeofBufferHead)) buf.stepSize
    have hroom : buf.size + sizeofBufferHead < buf.maxSize := by
      by_contra hnot
      rw [Nat.sub_eq_zero_of_le (by omega), Nat.zero_div] at hk
      exact absurd hk (lt_irrefl 0)
    omega

/-- The loop that grows the buffer stays within the largest size. -/
theorem growUntilFree_size (malloc : Malloc) (needed count free : Int) (buf : MctBuffer) :
    ∃ k, (growUntilFree malloc needed count free buf).2.size = buf.size + k * buf.stepSize ∧
      (0 < k → buf.size + sizeofBufferHead + k * buf.stepSize ≤ buf.maxSize) := by
  fun_induction growUntilFree malloc needed count free buf with
  | case1 => exact ⟨0, by simp, by simp⟩
  | case2 free buf _ grown hgrown ih =>
      obtain ⟨-, hmax, hsize, hmaxSize, -, hstepSize, -, -⟩ := mctBufferIncreaseSize_grows hgrown
      obtain ⟨k, hk, hbound⟩ := ih
      rw [hsize, hstepSize, hmaxSize] at hbound
      refine ⟨k + 1, hk.trans ?_, fun _ => ?_⟩
      · rw [hsize, hstepSize, Nat.succ_mul]
        omega
      rw [Nat.succ_mul]
      rcases Nat.eq_zero_or_pos k with rfl | hpos
      · omega
      · have := hbound hpos
        omega
  | case3 => exact ⟨0, by simp, by simp⟩

/-- What is stored fits into the free space that the buffer could grow to. -/
theorem fitsGrown_of_push {queue : List (List UInt8)} (h : DynamicAs buf queue)
    {data1 data2 data3 : List UInt8} (hsafe : buf.SafePush malloc (data1 ++ data2 ++ data3))
    (hok : (mctBufferPush3 malloc buf data1 data2 data3).1 = .ok) :
    FitsGrown buf (data1 ++ data2 ++ data3) := by
  rcases h.stored with hrep | hunusable
  · have hfree : buf.free = buf.size - queueSize queue := hrep.freeSize_eq
    have hgrows := hsafe.2
    rw [hfree] at hgrows
    obtain ⟨hnext, -, -, hend⟩ := hrep.growUntilFree (entrySize (data1 ++ data2 ++ data3)) hgrows
    obtain ⟨k, hsize, hmax⟩ := growUntilFree_size malloc
      (entrySize (data1 ++ data2 ++ data3)) buf.count (buf.size - queueSize queue) buf
    have hroom : ((entrySize (data1 ++ data2 ++ data3) : Nat) : Int) ≤
        (growUntilFree malloc (entrySize (data1 ++ data2 ++ data3)) buf.count
          (buf.size - queueSize queue) buf).2.size - queueSize queue := by
      rcases hend with ⟨-, hroom⟩ | herror
      · exact hroom
      · rw [mctBufferPush3_of_positions malloc hrep.positions_ok hsafe.1, hrep.freeSize_eq] at hok
        generalize growUntilFree malloc (entrySize (data1 ++ data2 ++ data3)) buf.count
          (buf.size - queueSize queue) buf = loop at hok herror
        obtain ⟨ret, grown⟩ := loop
        cases herror
        cases hok
    refine ⟨k, ?_, hmax⟩
    rw [hsize] at hroom
    push_cast at hroom ⊢
    omega
  · rw [hunusable.push3 data1 data2 data3 hsafe] at hok
    cases hok

end Growth

section Handling

variable {appID : List UInt8} {logBufLen : UInt16} {room : Nat} {lib : Library}
variable {messages : List UserMessage} {around : Surroundings} {message : LogMessage}

theorem LogMessage.parts (message : LogMessage) :
    userHeader mctUserMessageLog ++ message.headers ++ message.payload = message.bytes := by
  simp only [headers, bytes, front, List.append_assoc]

theorem checkSize_message (buf : MctBuffer) (message : LogMessage) :
    mctBufferCheckSize buf ((userHeader mctUserMessageLog).length + message.headers.length +
      message.payload.length) = .ok ↔
        buf.size + sizeofBufferHead + message.bytes.length ≤ buf.maxSize := by
  rw [← List.length_append, ← List.length_append, message.parts]
  unfold mctBufferCheckSize
  split
  · exact iff_of_false (by decide) (by omega)
  · exact iff_of_true rfl (by omega)

/-- A call waits only for a message for which there is no room. -/
theorem not_fits_of_blocked
    (hagrees : CheckAgrees lib.resender.startupBuffer message.bytes)
    (hblocked : (mctUserLogOutErrorHandling around message lib).1.blocked = true) :
    ¬ FitsGrown (mctUserLogOutErrorHandling around message lib).1.found
      (mctUserLogOutErrorHandling around message lib).1.message := by
  have hcheck : ¬ lib.resender.startupBuffer.size + sizeofBufferHead + message.bytes.length ≤
      lib.resender.startupBuffer.maxSize := by
    rw [← checkSize_message]
    exact of_decide_eq_true (Bool.and_elim_left hblocked)
  have hfull := hagrees.resolve_left hcheck
  change ¬ FitsGrown lib.resender.startupBuffer
    (userHeader mctUserMessageLog ++ message.headers ++ message.payload)
  rw [message.parts, fitsGrown_iff]
  omega

/-- The buffer with a new content. -/
theorem Keeps.replace {startupBuffer : MctBuffer} {bufferEmpty : Bool}
    (h : Keeps appID logBufLen room lib messages) {messages' : List UserMessage}
    (hstored : DynamicAs startupBuffer (messages'.map UserMessage.bytes))
    (hfaithful : ∀ message ∈ messages', Faithful logBufLen room message) :
    Keeps appID logBufLen room
      { lib with resender := { lib.resender with startupBuffer }, bufferEmpty } messages' where
  stores := ⟨hstored, h.stores.untouched⟩
  faithful := hfaithful
  appID_eq := h.appID_eq
  logBufLen_eq := h.logBufLen_eq
  room_eq := h.room_eq
  inside := h.inside

/-- What is pushed is kept behind the others, or it is refused. -/
theorem handling_spec (hmode : around.blocking = false)
    (h : Keeps appID logBufLen room lib messages)
    (hfaithful : Faithful logBufLen room (.log message))
    (hsafe : lib.resender.startupBuffer.SafePush around.malloc message.bytes)
    (hagrees : CheckAgrees lib.resender.startupBuffer message.bytes) :
    let handled := mctUserLogOutErrorHandling around message lib
    handled.1.Honest ∧ handled.2.bufferEmpty = false ∧
      handled.2.overflowCounter = lib.overflowCounter ∧
      (handled.1.ret = .ok ∧ Keeps appID logBufLen room handled.2 (messages ++ [.log message]) ∨
        handled.1.ret = .bufferFull ∧ Keeps appID logBufLen room handled.2 messages) := by
  have hparts := message.parts
  have hsafe' : lib.resender.startupBuffer.SafePush around.malloc
      (userHeader mctUserMessageLog ++ message.headers ++ message.payload) := by
    rw [hparts]
    exact hsafe
  have hpush := h.stores.stored.push3 _ _ _ hsafe'
  have hfits := fitsGrown_of_push h.stores.stored hsafe'
  rw [hparts] at hpush hfits
  intro handled
  have hreached : handled =
      ({ ret := if (mctBufferPush3 around.malloc lib.resender.startupBuffer
            (userHeader mctUserMessageLog) message.headers message.payload).1 = .ok then
            mctBufferCheckSize lib.resender.startupBuffer
              ((userHeader mctUserMessageLog).length + message.headers.length +
                message.payload.length) else .bufferFull
         blocked := false
         message := message.bytes
         found := lib.resender.startupBuffer
         left := (mctBufferPush3 around.malloc lib.resender.startupBuffer
            (userHeader mctUserMessageLog) message.headers message.payload).2 },
        { lib with
          resender := { lib.resender with
            startupBuffer := (mctBufferPush3 around.malloc lib.resender.startupBuffer
              (userHeader mctUserMessageLog) message.headers message.payload).2 }
          bufferEmpty := false }) := by
    simp only [handled, mctUserLogOutErrorHandling, hmode, Bool.and_false, Bool.false_eq_true,
      if_false, hparts]
  rw [hreached]
  generalize mctBufferPush3 around.malloc lib.resender.startupBuffer
    (userHeader mctUserMessageLog) message.headers message.payload = pushed at hpush hfits
  obtain ⟨ret, buf⟩ := pushed
  rcases hpush with ⟨rfl, hstored⟩ | ⟨rfl, hstored, -⟩
  · have hcheck : lib.resender.startupBuffer.size + sizeofBufferHead + message.bytes.length ≤
        lib.resender.startupBuffer.maxSize := by
      refine hagrees.resolve_right fun hfull => ?_
      have hroom := (fitsGrown_iff _ _).mp (hfits rfl)
      omega
    have hret := (checkSize_message lib.resender.startupBuffer message).mpr hcheck
    refine ⟨⟨_, h.stores.stored, .inl ⟨?_, hstored⟩⟩, rfl, rfl, .inl ⟨?_, h.replace ?_ ?_⟩⟩
    · rw [if_pos rfl]
      exact hret
    · rw [if_pos rfl]
      exact hret
    · rw [List.map_append]
      exact hstored
    · intro other hother
      rcases List.mem_append.mp hother with hold | hnew
      · exact h.faithful other hold
      · rw [List.mem_singleton.mp hnew]
        exact hfaithful
  · refine ⟨⟨_, h.stores.stored, .inr ⟨?_, hstored⟩⟩, rfl, rfl, .inr ⟨?_, h.replace hstored ?_⟩⟩
    · rfl
    · rfl
    · exact h.faithful

end Handling

section Resend

variable {appID : List UInt8} {logBufLen : UInt16} {room : Nat} {lib : Library}
variable {messages : List UserMessage}

theorem accepted_cons (bytes : List UInt8) {offered : List (List UInt8)} {ret : MctReturnValue}
    (hne : ret ≠ .ok → offered ≠ []) :
    accepted (bytes :: offered) ret = bytes :: accepted offered ret := by
  unfold accepted
  split
  · rfl
  · rename_i hret
    exact List.dropLast_cons_of_ne_nil (hne hret)

/-- A message that was refused was offered. -/
theorem resendLoop_offered (malloc : Malloc) (out : Nat → MctReturnValue) (count i : Nat)
    (u : Resender) (hret : (resendLoop malloc out count i u).2.1 ≠ .ok) :
    (resendLoop malloc out count i u).1 ≠ [] := by
  induction count generalizing i u with
  | zero => exact absurd rfl hret
  | succ count ih =>
      simp only [resendLoop] at hret ⊢
      split at hret
      · split at hret
        · rw [if_pos ‹_›, if_pos ‹_›]
          exact List.cons_ne_nil _ _
        · rw [if_pos ‹_›, if_neg ‹_›]
          split <;> exact List.cons_ne_nil _ _
      · rw [if_neg ‹_›]
        exact ih i _ hret

/-- The loop takes the messages in front, and all of them exactly if it ends without an
error. -/
theorem resendLoop_splits (malloc : Malloc) (out : Nat → MctReturnValue) (i : Nat)
    {u : Resender} (happ : u.appID.headD 0 ≠ 0) (h : Stores u messages)
    (hinside : u.overrun = false)
    (hfaithful : ∀ message ∈ messages,
      Faithful u.logBufLen u.resendBuffer.length message) :
    let round := resendLoop malloc out messages.length i u
    ∃ sent rest, messages = sent ++ rest ∧ Stores round.2.2 rest ∧ u.SameSetup round.2.2 ∧
      round.2.2.overrun = false ∧ (round.2.1 = .ok ↔ rest = []) ∧
      accepted round.1 round.2.1 = sent.map (sentBytes u.appID) := by
  induction messages generalizing i u with
  | nil => exact ⟨[], [], rfl, h, ⟨rfl, rfl, rfl⟩, hinside, by simp [resendLoop], rfl⟩
  | cons message rest ih =>
      obtain ⟨next, failed, bytes, beyond, hnext, hsame, hover, hfailed, hfailedSame, hfailedOver,
        hbytes, hround⟩ := resendLoop_round malloc out happ h rest.length i
      obtain ⟨hsent, hwithin⟩ := hbytes.mpr (hfaithful message List.mem_cons_self)
      rw [hinside, hwithin, Bool.or_false] at hover hfailedOver
      rw [List.length_cons, hround]
      by_cases hok : out i = .ok
      · obtain ⟨sent, left, hsplit, hstores, hsame', hover', hret, hall⟩ :=
          ih (i + 1) (by rw [hsame.appID]; exact happ) hnext hover fun other hother => by
            rw [hsame.logBufLen, hsame.room]
            exact hfaithful other (List.mem_cons_of_mem _ hother)
        rw [if_pos hok]
        refine ⟨message :: sent, left, by rw [hsplit, List.cons_append], hstores,
          hsame.trans hsame', hover', hret, ?_⟩
        rw [accepted_cons bytes (resendLoop_offered malloc out rest.length (i + 1) next), hall,
          List.map_cons, hsame.appID, hsent]
        rfl
      · rw [if_neg hok]
        refine ⟨[], message :: rest, rfl, hfailed, hfailedSame, hfailedOver,
          iff_of_false hok (List.cons_ne_nil _ _), ?_⟩
        unfold accepted
        rw [if_neg hok]
        rfl

/-- A round of the replay. -/
theorem resendRound_passes (malloc : Malloc) (resend : Nat → MctReturnValue)
    (happ : appID.headD 0 ≠ 0) (h : Keeps appID logBufLen room lib messages) :
    let round := resendRound malloc resend lib
    ∃ rest, Keeps appID logBufLen room round.2.2 rest ∧ (round.2.1 = .ok → rest = []) ∧
      round.2.2.bufferEmpty = lib.bufferEmpty ∧
      round.2.2.overflowCounter = lib.overflowCounter ∧ (messages = [] → rest = []) ∧
      Passage (sentBytes appID) (lib.queue messages) [] round.1 0 (round.2.2.queue rest) := by
  obtain ⟨hstores, hfaithful, rfl, rfl, rfl, hinside⟩ := h
  obtain ⟨sent, rest, hsplit, hnext, hsame, hover, hret, hall⟩ := resendLoop_splits malloc
    (fun i => mctUserLogOut3 lib.resender.mctLogHandle (resend i)) 0 happ hstores hinside
    hfaithful
  have hround : mctUserLogResendBuffer malloc
      (fun i => mctUserLogOut3 lib.resender.mctLogHandle (resend i)) lib.resender =
        resendLoop malloc (fun i => mctUserLogOut3 lib.resender.mctLogHandle (resend i))
          messages.length 0 lib.resender := by
    unfold mctUserLogResendBuffer
    rw [if_neg happ, hstores.messageCount]
  unfold resendRound
  rw [hround]
  refine ⟨rest, ⟨hnext, fun message hmessage => ?_, hsame.appID, hsame.logBufLen, hsame.room,
    hover⟩, hret.mp, rfl, rfl,
    fun hnil => ?_, ?_⟩
  · exact hfaithful message (hsplit ▸ List.mem_append_right _ hmessage)
  · exact (List.append_eq_nil_iff.mp (hsplit.symm.trans hnil)).2
  · have hleave : Passage (sentBytes lib.resender.appID) ⟨sent ++ rest, _⟩ [] _ 0 ⟨rest, _⟩ :=
      Passage.leave sent rest lib.overflowCounter.toNat
    rw [← hall, ← hsplit] at hleave
    exact hleave

end Resend

section Calls

variable {appID : List UInt8} {logBufLen : UInt16} {room : Nat} {lib : Library}
variable {messages : List UserMessage} {around : Surroundings} {message : LogMessage}

/-- A message carries the application id that the library has. -/
theorem built_bytes (happ : lib.resender.appID.headD 0 ≠ 0) {settings : LogSettings}
    {context : LogContext} {log : MctContextData} {mtype : MctMessageType}
    (hbuilt : lib.built settings context log mtype = some message) :
    sentBytes lib.resender.appID (.log message) = message.bytes := by
  refine ((LogMessage.bytes_filled_iff happ message).mpr fun header hheader => ?_).symm
  unfold Library.built mctUserLogSendLog at hbuilt
  simp only [Option.ite_none_left_eq_some, Option.some.injEq] at hbuilt
  obtain ⟨-, -, rfl⟩ := hbuilt
  simp only at hheader
  split at hheader
  · cases hheader
    obtain ⟨rest, hhead⟩ := setIdBytes_head happ
    simp only [IdBytes.isEmpty, hhead, List.head?_cons, Option.some.injEq, decide_eq_true_eq]
    exact happ
  · cases hheader

theorem reportOverflow_passes (around : Surroundings)
    (h : Settled appID logBufLen room lib messages) :
    let report := reportOverflow around lib
    Settled appID logBufLen room report.2 messages ∧
      report.2.overflowCounter.toNat ≤ lib.overflowCounter.toNat ∧
      Passage (sentBytes appID) (lib.queue messages) [] [] (report.1.elim 0 UInt32.toNat)
        (report.2.queue messages) := by
  unfold reportOverflow
  split
  · exact ⟨⟨⟨h.stores, h.faithful, h.appID_eq, h.logBufLen_eq, h.room_eq, h.inside⟩, h.empty⟩,
    Nat.zero_le _,
      Passage.report messages _⟩
  · exact ⟨h, le_refl _, Passage.refl _⟩

/-- Where something is left behind the replay, the message itself is not sent. -/
theorem resendFirst_passes (around : Surroundings) (happ : appID.headD 0 ≠ 0)
    (h : Settled appID logBufLen room lib messages) :
    let round := resendFirst around lib
    ∃ rest, Keeps appID logBufLen room round.2.2 rest ∧
      (round.2.1 = .ok → 0 < round.2.2.resender.mctLogHandle → rest = []) ∧
      round.2.2.overflowCounter = lib.overflowCounter ∧
      Passage (sentBytes appID) (lib.queue messages) [] round.1 0 (round.2.2.queue rest) := by
  unfold resendFirst
  split
  · obtain ⟨rest, hkeeps, hall, -, hcounter, -, hpasses⟩ :=
      resendRound_passes around.malloc around.resend happ h.toKeeps
    exact ⟨rest, hkeeps, fun hok _ => hall hok, hcounter, hpasses⟩
  · rename_i hskip
    refine ⟨messages, h.toKeeps, fun _ hopen => h.empty ?_, rfl, Passage.refl _⟩
    by_contra hnot
    refine hskip ⟨?_, ?_, Bool.eq_false_iff.mpr hnot⟩
    · exact fun hclosed => absurd hopen (by simp only; omega)
    · rw [h.appID_eq]
      exact happ

/-- What is tried for the message: it is sent behind all others, or it is still to be
stored. -/
theorem trySend_passes (happ : appID.headD 0 ≠ 0) (h : Settled appID logBufLen room lib messages)
    (hbytes : sentBytes appID (.log message) = message.bytes) :
    let tried := trySend around message lib
    let reported := (reportOverflow around lib).1.elim 0 UInt32.toNat
    tried.2.2.overflowCounter.toNat ≤ lib.overflowCounter.toNat ∧
      ((tried.2.1 = .ok ∧ Settled appID logBufLen room tried.2.2 [] ∧
          Passage (sentBytes appID) (lib.queue messages) [.log message] tried.1 reported
            (tried.2.2.queue [])) ∨
        tried.2.1 ≠ .ok ∧ ∃ rest, Keeps appID logBufLen room tried.2.2 rest ∧
          Passage (sentBytes appID) (lib.queue messages) [] tried.1 reported
            (tried.2.2.queue rest)) := by
  obtain ⟨hsettled, hle, hreport⟩ := reportOverflow_passes around h
  obtain ⟨rest, hkeeps, hall, hcounter, hresent⟩ := resendFirst_passes around happ hsettled
  have hpassed := hreport.trans hresent
  rw [List.nil_append, List.nil_append, Nat.add_zero] at hpassed
  unfold trySend
  generalize resendFirst around (reportOverflow around lib).2 = round at *
  obtain ⟨sent, ret, next⟩ := round
  dsimp only at hkeeps hall hcounter hpassed ⊢
  have hid : next.resender.appID.headD 0 ≠ 0 := by
    rw [hkeeps.appID_eq]
    exact happ
  dsimp only [sendDirect]
  by_cases hok : ret = .ok
  · rw [if_pos ⟨hok, hid⟩]
    dsimp only
    refine ⟨by rw [hcounter]; exact hle, ?_⟩
    by_cases hsent : mctUserLogOut3 next.resender.mctLogHandle around.direct = .ok
    · have hopen : 0 < next.resender.mctLogHandle := by
        unfold mctUserLogOut3 at hsent
        split at hsent
        · cases hsent
        · omega
      have hnone := hall hok hopen
      subst hnone
      rw [if_pos hsent]
      refine .inl ⟨hsent, ⟨⟨hkeeps.stores, hkeeps.faithful, hkeeps.appID_eq,
        hkeeps.logBufLen_eq, hkeeps.room_eq, hkeeps.inside⟩, fun _ => rfl⟩, ?_⟩
      have hlast := hpassed.trans (Passage.pass next.overflowCounter.toNat (.log message))
      rw [hbytes] at hlast
      exact hlast
    · rw [if_neg hsent]
      exact .inr ⟨hsent, rest, ⟨hkeeps.stores, hkeeps.faithful, hkeeps.appID_eq,
        hkeeps.logBufLen_eq, hkeeps.room_eq, hkeeps.inside⟩, hpassed⟩
  · rw [if_neg fun hboth => hok hboth.1]
    exact ⟨by rw [hcounter]; exact hle, .inr ⟨hok, rest, hkeeps, hpassed⟩⟩

/-- A call for a message leaves it at one place. -/
theorem sendMessage_passes (hmode : around.blocking = false) (happ : appID.headD 0 ≠ 0)
    (h : Settled appID logBufLen room lib messages)
    (hbytes : sentBytes appID (.log message) = message.bytes)
    (hfaithful : Faithful logBufLen room (.log message))
    (hcounter : lib.overflowCounter.toNat + 1 < 4294967296)
    (hunsent : (trySend around message lib).2.1 ≠ .ok →
      (trySend around message lib).2.2.resender.startupBuffer.SafePush around.malloc
          message.bytes ∧
        CheckAgrees (trySend around message lib).2.2.resender.startupBuffer message.bytes) :
    let call := sendMessage around message lib
    ∃ rest, Settled appID logBufLen room call.2 rest ∧
      Passage (sentBytes appID) (lib.queue messages) [.log message] call.1.delivered
        (call.1.reported.elim 0 UInt32.toNat) (call.2.queue rest) ∧
      ∀ handling ∈ call.1.handling, handling.Honest := by
  obtain ⟨hle, htried⟩ := @trySend_passes _ _ _ _ _ around _ happ h hbytes
  unfold sendMessage
  generalize trySend around message lib = tried at *
  obtain ⟨sent, ret, next⟩ := tried
  dsimp only at hle htried hunsent ⊢
  rcases htried with ⟨hok, hsettled, hpasses⟩ | ⟨hfailed, rest, hkeeps, hpasses⟩
  · have hskip : keepUnsent around message ret next = (.ok, none, next) := by
      unfold keepUnsent
      rw [if_neg]
      rintro (hret | hid)
      · exact hret hok
      · rw [hsettled.appID_eq] at hid
        exact happ hid
    rw [hskip]
    exact ⟨[], hsettled, hpasses, by simp⟩
  · obtain ⟨hsafe, hagrees⟩ := hunsent hfailed
    obtain ⟨hhonest, hflag, hsame, hend⟩ := handling_spec hmode hkeeps hfaithful hsafe hagrees
    unfold keepUnsent
    rw [if_pos (.inl hfailed)]
    generalize mctUserLogOutErrorHandling around message next = handled at *
    obtain ⟨handling, final⟩ := handled
    dsimp only at hhonest hflag hsame hend ⊢
    rcases hend with ⟨hret, hstored⟩ | ⟨hret, hdropped⟩
    · rw [if_pos hret]
      refine ⟨rest ++ [.log message], ⟨hstored, fun hempty => ?_⟩, ?_, fun other hother => ?_⟩
      · rw [hflag] at hempty
        cases hempty
      · have hkeep := hpasses.trans
          (Passage.keep rest next.overflowCounter.toNat (.log message))
        rw [List.append_nil, List.nil_append, ← hsame] at hkeep
        exact hkeep
      · cases hother
        exact hhonest
    · rw [if_neg (by rw [hret]; nofun), if_pos hret]
      have hsum : (final.overflowCounter + 1).toNat = next.overflowCounter.toNat + 1 := by
        rw [hsame, UInt32.toNat_add]
        exact Nat.mod_eq_of_lt (lt_of_le_of_lt (Nat.succ_le_succ hle) hcounter)
      refine ⟨rest, ⟨⟨hdropped.stores, hdropped.faithful, hdropped.appID_eq,
        hdropped.logBufLen_eq, hdropped.room_eq, hdropped.inside⟩, fun hempty => ?_⟩, ?_,
          fun other hother => ?_⟩
      · rw [hflag] at hempty
        cases hempty
      · have hdrop := hpasses.trans
          (Passage.drop rest next.overflowCounter.toNat (.log message))
        rw [List.append_nil, List.nil_append, ← hsum] at hdrop
        exact hdrop
      · cases hother
        exact hhonest

/-- One step of the library. -/
theorem sendStep_passes (happ : appID.headD 0 ≠ 0) (h : Settled appID logBufLen room lib messages)
    (op : SendEvent) (hadmissible : Admissible lib op) (hmode : op.NonBlocking) :
    let reply := (sendStep lib op).1
    ∃ rest, Settled appID logBufLen room (sendStep lib op).2 rest ∧
      Passage (sentBytes appID) (lib.queue messages) (loggedIn [reply]) (deliveredIn [reply])
        (reportedIn [reply]) ((sendStep lib op).2.queue rest) ∧
      ∀ handling ∈ reply.handling, handling.Honest := by
  have hid : lib.resender.appID.headD 0 ≠ 0 := by
    rw [h.appID_eq]
    exact happ
  cases op with
  | sendLog settings context log mtype around =>
      dsimp only [sendStep]
      dsimp only [Admissible] at hadmissible
      cases hbuilt : lib.built settings context log mtype with
      | none => exact ⟨messages, h, Passage.refl _, by simp⟩
      | some message =>
          rw [hbuilt] at hadmissible
          obtain ⟨hfaithful, hcounter, hunsent⟩ := hadmissible
          rw [h.logBufLen_eq, h.room_eq] at hfaithful
          have hbytes := built_bytes hid hbuilt
          rw [h.appID_eq] at hbytes
          obtain ⟨rest, hsettled, hpasses, hhonest⟩ := sendMessage_passes hmode happ h hbytes
            hfaithful hcounter fun hret => hunsent (.inl hret)
          refine ⟨rest, hsettled, ?_, hhonest⟩
          simpa [loggedIn, deliveredIn, reportedIn, sendMessage] using hpasses
  | resendBuffer malloc resend =>
      obtain ⟨rest, hkeeps, -, hflag, -, hnil, hpasses⟩ :=
        resendRound_passes malloc resend happ h.toKeeps
      refine ⟨rest, ⟨hkeeps, fun hempty => hnil (h.empty ?_)⟩, ?_, by simp [sendStep]⟩
      · exact hflag.symm.trans hempty
      · simpa [loggedIn, deliveredIn, reportedIn, sendStep] using hpasses
  | flush malloc resend =>
      dsimp only [sendStep]
      split
      · obtain ⟨rest, hkeeps, hall, hflag, hcounter, hnil, hpasses⟩ :=
          resendRound_passes malloc resend happ h.toKeeps
        dsimp only
        split
        · rename_i hret
          refine ⟨rest, ⟨⟨hkeeps.stores, hkeeps.faithful, hkeeps.appID_eq, hkeeps.logBufLen_eq,
            hkeeps.room_eq, hkeeps.inside⟩,
            fun _ => hall hret⟩, ?_, by simp⟩
          change Passage _ _ _ _ _ ((resendRound malloc resend lib).2.2.queue rest)
          simpa [loggedIn, deliveredIn, reportedIn] using hpasses
        · refine ⟨rest, ⟨hkeeps, fun hempty => hnil (h.empty ?_)⟩, ?_, by simp⟩
          · exact hflag.symm.trans hempty
          · simpa [loggedIn, deliveredIn, reportedIn] using hpasses
      · exact ⟨messages, h, Passage.refl _, by simp⟩
  | reattach handle =>
      dsimp only [sendStep]
      split
      · exact ⟨messages, ⟨⟨⟨h.stores.stored, h.stores.untouched⟩, h.faithful, h.appID_eq,
          h.logBufLen_eq, h.room_eq, h.inside⟩, h.empty⟩, Passage.refl _, by simp⟩
      · exact ⟨messages, h, Passage.refl _, by simp⟩

end Calls

section Runs

variable {appID : List UInt8} {logBufLen : UInt16} {room : Nat} {lib : Library}
variable {waiting : List UserMessage}

/-- A call that waits for a free buffer has no room for its message. -/
theorem sendStep_blocked (op : SendEvent) (hadmissible : Admissible lib op) :
    ∀ handling ∈ (sendStep lib op).1.handling, handling.blocked = true →
      ¬ FitsGrown handling.found handling.message := by
  cases op with
  | sendLog settings context log mtype around =>
      dsimp only [sendStep]
      dsimp only [Admissible] at hadmissible
      cases hbuilt : lib.built settings context log mtype with
      | none => simp
      | some message =>
          rw [hbuilt] at hadmissible
          obtain ⟨-, -, hunsent⟩ := hadmissible
          dsimp only [sendMessage]
          generalize trySend around message lib = tried at *
          obtain ⟨sent, ret, next⟩ := tried
          dsimp only at hunsent ⊢
          intro handling hhandling
          unfold keepUnsent at hhandling
          split at hhandling
          · rename_i hkeep
            have hsame : handling = (mctUserLogOutErrorHandling around message next).1 := by
              dsimp only at hhandling
              split at hhandling
              · cases hhandling
                rfl
              · split at hhandling
                · cases hhandling
                  rfl
                · cases hhandling
                  rfl
            rw [hsame]
            exact not_fits_of_blocked (hunsent hkeep).2
          · cases hhandling
  | resendBuffer malloc resend => simp [sendStep]
  | flush malloc resend =>
      dsimp only [sendStep]
      split <;> simp
  | reattach handle => simp [sendStep]

/-- What has become of the messages in a run. -/
structure Accounted (appID : List UInt8) (logBufLen : UInt16) (room : Nat)
    (start : LossyQueue UserMessage) (replies : List SendReply) (lib : Library) : Prop where
  places : ∃ stored, Settled appID logBufLen room lib stored ∧
    Passage (sentBytes appID) start (loggedIn replies) (deliveredIn replies) (reportedIn replies)
      (lib.queue stored)
  honest : ∀ reply ∈ replies, ∀ handling ∈ reply.handling, handling.Honest

theorem Accounted.step (happ : appID.headD 0 ≠ 0) {start : LossyQueue UserMessage}
    {replies : List SendReply} (h : Accounted appID logBufLen room start replies lib)
    {op : SendEvent} (hop : op.NonBlocking ∧ Admissible lib op) :
    Accounted appID logBufLen room start (replies ++ [(sendStep lib op).1])
      (sendStep lib op).2 := by
  obtain ⟨⟨stored, hsettled, hpasses⟩, hhonest⟩ := h
  obtain ⟨rest, hnext, hlater, hlast⟩ := sendStep_passes happ hsettled op hop.2 hop.1
  refine ⟨⟨rest, hnext, ?_⟩, fun reply hreply => ?_⟩
  · have hall := hpasses.trans hlater
    simpa [loggedIn, deliveredIn, reportedIn] using hall
  · rcases List.mem_append.mp hreply with hold | hnew
    · exact hhonest reply hold
    · rw [List.mem_singleton.mp hnew]
      exact hlast

/-- A connected library with an empty startup buffer of 200 bytes, as
`mct_buffer_init_dynamic` makes it. -/
def quietLibrary (maxSize : Nat) : Library where
  resender :=
    { appID := [65, 80, 80, 49]
      logBufLen := 1390
      startupBuffer :=
        { mem := List.replicate 188 0, size := 188, minSize := 200, maxSize, stepSize := 100
          write := 0, read := 0, count := 0, resets := 0 }
      resendBuffer := List.replicate 1424 0
      mctLogHandle := 3 }
  overflowCounter := 0
  bufferEmpty := true

/-- A call for a verbose message of five bytes while the pipe is full. -/
def callOnFullPipe (blocking : Bool) : SendEvent :=
  .sendLog ⟨true, true, true, false, true, [69, 67, 85, 49], [], 7⟩ ⟨[67, 84, 88, 49], 0, 4, 0, 9⟩
    ⟨[0x41, 0, 0, 0, 5], 5, 1, true⟩ .log
    ⟨Malloc.zeroed, false, fun _ => .pipeFull, .pipeFull, blocking, id⟩

theorem quietLibrary_settled (maxSize : Nat) :
    Settled [65, 80, 80, 49] 1390 1424 (quietLibrary maxSize) [] where
  stores :=
    { stored :=
        { stored := .inl (represents_at_start (List.replicate 188 0) rfl
            (List.length_replicate ..) (of_decide_eq_true rfl) rfl rfl rfl)
          head_le := of_decide_eq_true rfl
          min_le := of_decide_eq_true rfl }
      untouched := fun hzero => absurd (congrArg UInt16.toNat hzero) (of_decide_eq_true rfl) }
  faithful := by simp
  appID_eq := rfl
  logBufLen_eq := rfl
  room_eq := List.length_replicate ..
  inside := rfl
  empty := fun _ => rfl

def callMessage : LogMessage where
  mcnt := 0
  ecu := some (setIdBytes [69, 67, 85, 49])
  seid := some 7
  tmsp := some 9
  extended := some ⟨0x41, 1, setIdBytes [65, 80, 80, 49], setIdBytes [67, 84, 88, 49]⟩
  payload := [0x41, 0, 0, 0, 5]

theorem callOnFullPipe_admissible : Admissible (quietLibrary 500) (callOnFullPipe false) := by
  have hbuilt : (quietLibrary 500).built
      ⟨true, true, true, false, true, [69, 67, 85, 49], [], 7⟩ ⟨[67, 84, 88, 49], 0, 4, 0, 9⟩
      ⟨[0x41, 0, 0, 0, 5], 5, 1, true⟩ .log = some callMessage := by decide +kernel
  dsimp only [Admissible, callOnFullPipe]
  rw [hbuilt]
  refine ⟨⟨by decide, ⟨by decide +kernel, by decide +kernel⟩, .inl ⟨rfl, rfl, rfl, rfl⟩⟩, by decide,
    fun _ => ⟨?_, ?_⟩⟩
  · refine ⟨by decide +kernel, fun k hk => ?_⟩
    exact absurd (hk 0 (Nat.zero_le k)).1 (by decide +kernel)
  · exact .inl (by decide +kernel)

end Runs

end MctDaemon.User
