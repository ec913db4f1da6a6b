import MctDaemon.Lib.Lockstep
import MctDaemon.Shared.Message
import MctDaemon.Shared.Receiver
import MctDaemon.User.StoredMessages

/-!
The stream of an application. `mct_daemon_process_user_messages` looks for user
headers in what its receiver holds and leaves each message to the function of
its type. The receivers of all applications share one buffer, so memory that
other applications wrote stands right behind the bytes received.
-/

namespace MctDaemon.Daemon

open Lib Shared User

section Model

variable {σ : Type*}

def mctUserMessageNotSupported : Nat := 16

def mctDaemonDescsize : Nat := 256

/-- The description of a registration whose own one cannot be read. -/
def dummyDescription : List UInt8 := [85, 110, 107, 110, 111, 119, 110]

/-- A message taken from the stream, with its payload as it was received. -/
inductive UserCommand where
  | registerApplication (payload description : List UInt8)
  | unregisterApplication (payload : List UInt8)
  | registerContext (payload description : List UInt8)
  | unregisterContext (payload : List UInt8)
  | overflow (payload : List UInt8)
  | setAppLlTs (payload : List UInt8)
  | marker (payload : List UInt8)
  | log (message : MctMessage)
  deriving DecidableEq, Repr

/-- What the daemon does with a message once it is taken from the receiver:
its answer, and its state afterwards. Sending a log message to the clients may
also change the message. -/
structure UserActions (σ : Type*) where
  malloc : Malloc
  usersFound : σ → Bool
  perform : UserCommand → σ → Int × σ
  sendToAllClient : MctMessage → σ → MctMessage × σ
  closeSocket : σ → σ

/-- The receiver, `daemon_local->msg` and the daemon during the call, the
messages dispatched so far, and for each user header accepted the number of
bytes received from its first one on. -/
structure UserStream (σ : Type*) where
  receiver : MctReceiver
  msg : MctMessage
  daemon : σ
  commands : List UserCommand
  headers : List Nat
  deriving DecidableEq

/-- `mct_receiver_receive`, with a memory that goes on behind the buffer. -/
def receiveInto (mem : Nat → UInt8) (receiver : MctReceiver) (incoming : List UInt8) :
    (Nat → UInt8) × MctReceiver :=
  let last := receiver.bytesRcvd
  let (mem, backup) :=
    match receiver.backupBuf with
    | some block => if last ≠ 0 then (overlay mem 0 (block.take last), none) else (mem, some block)
    | none => (mem, none)
  let receiver := {receiver with buf := 0, lastBytesRcvd := last, backupBuf := backup}
  if incoming.length = 0 then (mem, {receiver with bytesRcvd := 0})
  else
    (overlay mem last incoming,
      {receiver with
        totalBytesRcvd := int32 (receiver.totalBytesRcvd + incoming.length)
        bytesRcvd := incoming.length + last})

/-- `mct_receiver_move_to_begin` on this memory. -/
def moveToBegin (calloc : Malloc) (mem : Nat → UInt8) (receiver : MctReceiver) : MctReceiver :=
  if receiver.buf ≠ 0 ∧ receiver.bytesRcvd ≠ 0 then
    {receiver with
      backupBuf := (calloc.block (receiver.bytesRcvd + 1)).map fun block =>
        copyInto block 0 (cellsAt mem receiver.buf receiver.bytesRcvd)}
  else receiver

/-- `mct_receiver_check_and_get`. The flags are `MCT_RCV_SKIP_HEADER` and
`MCT_RCV_REMOVE`. -/
def mctReceiverCheckAndGet (mem : Nat → UInt8) (receiver : MctReceiver) (toGet : Nat)
    (skipHeader remove : Bool) : Option (List UInt8) × MctReceiver :=
  let header := if skipHeader then sizeofMctUserHeader else 0
  if receiver.bytesRcvd < toGet + header then (none, receiver)
  else
    let dest := cellsAt mem (receiver.buf + header) toGet
    if remove then
      match mctReceiverRemove receiver ((toGet + header : Nat) : Int) with
      | (.ok, receiver) => (some dest, receiver)
      | (_, receiver) => (none, receiver)
    else (some dest, receiver)

namespace UserStream

/-- What the function of a message type does after it has taken the message. -/
def dispatch (env : UserActions σ) (command : UserCommand) (s : UserStream σ) :
    Int × UserStream σ :=
  let (ret, daemon) := env.perform command s.daemon
  (ret, {s with daemon := daemon, commands := s.commands ++ [command]})

def processNotSup (s : UserStream σ) : Int × UserStream σ :=
  (-1, {s with receiver := (mctReceiverRemove s.receiver sizeofMctUserHeader).2})

def processFixed (env : UserActions σ) (mem : Nat → UInt8) (size : Nat)
    (command : List UInt8 → UserCommand) (s : UserStream σ) : Int × UserStream σ :=
  match mctReceiverCheckAndGet mem s.receiver size true true with
  | (none, receiver) => (-1, {s with receiver := receiver})
  | (some payload, receiver) => dispatch env (command payload) {s with receiver := receiver}

/-- The description behind a payload of this size and how much of it is to be
removed: a dummy one and nothing if there are not as many bytes received. The
receiver still counts the bytes before the description. -/
def readDescription (mem : Nat → UInt8) (receiver : MctReceiver) (size len : Nat) :
    List UInt8 × Nat :=
  let moved := {receiver with buf := receiver.buf + (size + sizeofMctUserHeader)}
  match (mctReceiverCheckAndGet mem moved len false false).1 with
  | some description => (description, len)
  | none => (dummyDescription, 0)

/-- A message with a description behind its payload. Its length is the number
at `lengthAt` of the payload. -/
def processDescribed (env : UserActions σ) (mem : Nat → UInt8) (size lengthAt : Nat)
    (command : List UInt8 → List UInt8 → UserCommand) (s : UserStream σ) : Int × UserStream σ :=
  match (mctReceiverCheckAndGet mem s.receiver size true false).1 with
  | none => (-1, s)
  | some payload =>
      let (description, len) := readDescription mem s.receiver size
        (min (leNat (slice payload lengthAt 4)) mctDaemonDescsize)
      match mctReceiverRemove s.receiver ((size + sizeofMctUserHeader + len : Nat) : Int) with
      | (.ok, receiver) =>
          dispatch env (command payload description) {s with receiver := receiver}
      | (_, receiver) => (-1, {s with receiver := receiver})

def processOverflow (env : UserActions σ) (mem : Nat → UInt8) :=
  processFixed env mem 8 .overflow

def processRegisterApplication (env : UserActions σ) (mem : Nat → UInt8) :=
  processDescribed env mem 12 8 .registerApplication

def processRegisterContext (env : UserActions σ) (mem : Nat → UInt8) :=
  processDescribed env mem 22 18 .registerContext

def processUnregisterApplication (env : UserActions σ) (mem : Nat → UInt8) :=
  processFixed env mem 8 .unregisterApplication

def processUnregisterContext (env : UserActions σ) (mem : Nat → UInt8) :=
  processFixed env mem 12 .unregisterContext

def processMarker (env : UserActions σ) (mem : Nat → UInt8) :=
  processFixed env mem 1 .marker

/-- `mct_daemon_process_user_message_set_app_ll_ts`. The list of users is
looked up before the message is read. -/
def processSetAppLlTs (env : UserActions σ) (mem : Nat → UInt8) (s : UserStream σ) :
    Int × UserStream σ :=
  if env.usersFound s.daemon then processFixed env mem 6 .setAppLlTs s else (-1, s)

/-- `size` of a log message with its user header. -/
def logSize (msg : MctMessage) : Int :=
  msg.headersize + msg.datasize - sizeofStorageHeader + sizeofMctUserHeader +
    if msg.foundSerialheader then mctSerialHeader.length else 0

/-- `mct_daemon_process_user_message_log`. The length that is read is computed
without a sign. -/
def processLog (env : UserActions σ) (mem : Nat → UInt8) (s : UserStream σ) :
    Int × UserStream σ :=
  match mctMessageRead env.malloc s.msg (cellsAt mem (s.receiver.buf + sizeofMctUserHeader)
      (uint32 (s.receiver.bytesRcvd - sizeofMctUserHeader))) false with
  | (.ok, msg) =>
      let (sent, daemon) := env.sendToAllClient msg s.daemon
      let (ret, receiver) := mctReceiverRemove s.receiver (logSize sent)
      (if ret = .ok then 0 else -1,
        {s with
          receiver := receiver
          msg := sent
          daemon := daemon
          commands := s.commands ++ [.log msg]})
  | (_, msg) =>
      (-1, {s with
        receiver := (mctReceiverRemove s.receiver s.receiver.bytesRcvd).2
        msg := msg})

def processUserFunc (env : UserActions σ) (mem : Nat → UInt8) (message : Nat) :
    UserStream σ → Int × UserStream σ :=
  if message ≥ mctUserMessageNotSupported then processNotSup
  else match message with
    | 1 => processLog env mem
    | 2 => processRegisterApplication env mem
    | 3 => processUnregisterApplication env mem
    | 4 => processRegisterContext env mem
    | 5 => processUnregisterContext env mem
    | 8 => processOverflow env mem
    | 9 => processSetAppLlTs env mem
    | 13 => processMarker env mem
    | _ => processNotSup

/-- `mct_user_check_userheader` at this address. -/
def headerAt (mem : Nat → UInt8) (pos : Nat) : Bool :=
  mctUserCheckUserheader (cellsAt mem pos 4)

/-- The scan for a user header from `offset` on, for so many steps. -/
def resync (mem : Nat → UInt8) (buf : Nat) : Nat → Nat → Nat
  | 0, offset => offset
  | steps + 1, offset =>
      if headerAt mem (buf + offset) then offset else resync mem buf steps (offset + 1)

/-- The bytes received and not yet removed. -/
def rest (mem : Nat → UInt8) (s : UserStream σ) : List UInt8 :=
  cellsAt mem s.receiver.buf s.receiver.bytesRcvd

/-- `bytesRcvd >= min_size`. -/
def holdsHeader (s : UserStream σ) : Bool := s.receiver.bytesRcvd ≥ sizeofMctUserHeader

/-- Where the scan of a turn ends. It goes on while
`offset + min_size <= bytesRcvd`. -/
def scanned (mem : Nat → UInt8) (receiver : MctReceiver) : Nat :=
  resync mem receiver.buf (receiver.bytesRcvd + 1 - sizeofMctUserHeader) 0

/-- The header found there is accepted: what stands before it is removed. -/
def accept (s : UserStream σ) (offset : Nat) : UserStream σ :=
  let receiver := if offset > 0 then (mctReceiverRemove s.receiver offset).2 else s.receiver
  {s with receiver := receiver, headers := s.headers ++ [receiver.bytesRcvd]}

/-- A turn of the loop: whether it goes on, and the state. -/
def turn (env : UserActions σ) (mem : Nat → UInt8) (s : UserStream σ) : Bool × UserStream σ :=
  let offset := scanned mem s.receiver
  if headerAt mem (s.receiver.buf + offset) then
    let s := s.accept offset
    let message := leNat (cellsAt mem (s.receiver.buf + 4) 4)
    let (ret, s) := processUserFunc env mem message s
    (ret ≠ -1, s)
  else (false, s)

end UserStream

/-- What a call leaves, with the rest that the receiver still presents. -/
structure StreamOutcome (σ : Type*) where
  stream : UserStream σ
  rest : List UInt8
  deriving DecidableEq

/-- `mct_daemon_process_user_messages` for one delivery; it returns 0. -/
def mctDaemonProcessUserMessages (env : UserActions σ) (socket : Bool) (mem : Nat → UInt8)
    (s : UserStream σ) (incoming : List UInt8) : StreamOutcome σ :=
  let (mem, receiver) := receiveInto mem s.receiver incoming
  let s := {s with receiver := receiver}
  if incoming.length = 0 ∧ socket then ⟨{s with daemon := env.closeSocket s.daemon}, []⟩
  else
    let s := loopFor UserStream.holdsHeader (UserStream.turn env mem) s.receiver.bytesRcvd s
    ⟨{s with receiver := moveToBegin env.malloc mem s.receiver}, s.rest mem⟩

/-- The receiver counts the bytes `rest`, and they are in its backup or at the
start of the memory. -/
def OwesRest (mem : Nat → UInt8) (receiver : MctReceiver) (rest : List UInt8) : Prop :=
  receiver.bytesRcvd = rest.length ∧
    match receiver.backupBuf with
    | some block => block.take rest.length = rest
    | none => cellsAt mem 0 rest.length = rest

def UserStream.start (receiver : MctReceiver) (msg : MctMessage) (daemon : σ) : UserStream σ where
  receiver := receiver
  msg := msg
  daemon := daemon
  commands := []
  headers := []

/-- One call uses only received bytes: its outcome does not depend on the
memory behind them, and it accepts a user header only if all of it is there. -/
structure UsesOnlyReceived (env : UserActions σ) (socket : Bool) (s : UserStream σ)
    (rest incoming : List UInt8) : Prop where
  same : ∀ mem mem', OwesRest mem s.receiver rest → OwesRest mem' s.receiver rest →
    mctDaemonProcessUserMessages env socket mem s incoming =
      mctDaemonProcessUserMessages env socket mem' s incoming
  whole : ∀ mem, OwesRest mem s.receiver rest →
    ∀ received ∈ (mctDaemonProcessUserMessages env socket mem s incoming).stream.headers,
      sizeofMctUserHeader ≤ received

def turnRests (env : UserActions σ) (mem : Nat → UInt8) (s : UserStream σ)
    (incoming : List UInt8) : List (List UInt8) :=
  let (mem, receiver) := receiveInto mem s.receiver incoming
  (turnStarts UserStream.holdsHeader (UserStream.turn env mem) receiver.bytesRcvd
    {s with receiver := receiver}).map (UserStream.rest mem)

/-- The memory that holds these bytes and nothing behind them. -/
def onlyBytes (bytes : List UInt8) : Nat → UInt8 := fun i => bytes.getD i 0

/-- The pattern of a user header first occurs seven bytes before the end: the
last byte of its message type is missing. -/
def EndsInCutHeader (bytes : List UInt8) : Prop :=
  mctUserCheckUserheader (bytes.drop (bytes.length - 7)) = true ∧
    ∀ offset < bytes.length - 7, mctUserCheckUserheader (bytes.drop offset) = false

instance (bytes : List UInt8) : Decidable (EndsInCutHeader bytes) :=
  inferInstanceAs (Decidable (_ ∧ _))

end Model

section Receiver

variable {σ : Type*}

/-- What the function of a message may do to the stream: it moves the start of
the received bytes and leaves their end, and it accepts no header. If the loop
goes on, it has removed something. -/
structure Takes (s : UserStream σ) (result : Int × UserStream σ) : Prop where
  start_le : s.receiver.buf ≤ result.2.receiver.buf
  stop_eq : result.2.receiver.buf + result.2.receiver.bytesRcvd =
    s.receiver.buf + s.receiver.bytesRcvd
  headers_eq : result.2.headers = s.headers
  progress : s.receiver.bytesRcvd ≠ 0 → result.1 ≠ -1 →
    result.2.receiver.bytesRcvd < s.receiver.bytesRcvd

theorem Takes.refused (s : UserStream σ) : Takes s (-1, s) where
  start_le := le_rfl
  stop_eq := rfl
  headers_eq := rfl
  progress _ hne := absurd rfl hne

theorem mctReceiverRemove_window (receiver : MctReceiver) (size : Int) :
    receiver.buf ≤ (mctReceiverRemove receiver size).2.buf ∧
      (mctReceiverRemove receiver size).2.buf + (mctReceiverRemove receiver size).2.bytesRcvd =
        receiver.buf + receiver.bytesRcvd := by
  unfold mctReceiverRemove
  split
  · constructor
    · exact Nat.le_add_right _ _
    · rfl
  · constructor
    · exact Nat.le_add_right _ _
    · simp only
      omega

/-- Removing from the receiver, whatever else is done to the message structure,
the daemon and the commands. -/
theorem Takes.of_remove {s : UserStream σ} {result : Int × UserStream σ} (size : Int)
    (hreceiver : result.2.receiver = (mctReceiverRemove s.receiver size).2)
    (hheaders : result.2.headers = s.headers) : Takes s result := by
  obtain ⟨hstart, hstop⟩ := mctReceiverRemove_window s.receiver size
  rw [← hreceiver] at hstart hstop
  refine ⟨hstart, hstop, hheaders, ?_⟩
  intro hne _
  rw [hreceiver]
  exact mctReceiverRemove_lt s.receiver size hne

theorem mctReceiverRemove_of_le (receiver : MctReceiver) {size : Nat} (hpos : 0 < size)
    (hsize : size ≤ receiver.bytesRcvd) :
    mctReceiverRemove receiver size =
      (.ok, {receiver with
        bytesRcvd := receiver.bytesRcvd - size
        buf := receiver.buf + size}) := by
  rw [mctReceiverRemove, if_neg (by omega)]
  rfl

theorem mctReceiverRemove_of_lt (receiver : MctReceiver) {size : Nat}
    (hsize : receiver.bytesRcvd < size) :
    (mctReceiverRemove receiver size).1 = .wrongParameter := by
  rw [mctReceiverRemove, if_pos (by omega)]

/-- With the user header skipped and the message removed. -/
theorem mctReceiverCheckAndGet_message (mem : Nat → UInt8) (receiver : MctReceiver) (size : Nat) :
    mctReceiverCheckAndGet mem receiver size true true =
      if receiver.bytesRcvd < size + sizeofMctUserHeader then (none, receiver)
      else (some (cellsAt mem (receiver.buf + sizeofMctUserHeader) size),
        (mctReceiverRemove receiver ((size + sizeofMctUserHeader : Nat) : Int)).2) := by
  rw [mctReceiverCheckAndGet]
  simp only [if_true]
  split
  · rfl
  · rename_i hfits
    rw [mctReceiverRemove_of_le receiver (by simp [sizeofMctUserHeader]) (by omega)]

/-- With the user header skipped and nothing removed. -/
theorem mctReceiverCheckAndGet_payload (mem : Nat → UInt8) (receiver : MctReceiver) (size : Nat) :
    (mctReceiverCheckAndGet mem receiver size true false).1 =
      if receiver.bytesRcvd < size + sizeofMctUserHeader then none
      else some (cellsAt mem (receiver.buf + sizeofMctUserHeader) size) := by
  rw [mctReceiverCheckAndGet]
  simp only [if_true]
  split <;> rfl

/-- The description is looked for behind the payload, but counted against all
that the receiver holds. -/
theorem readDescription_eq (mem : Nat → UInt8) (receiver : MctReceiver)
    (size len : Nat) :
    UserStream.readDescription mem receiver size len =
      if receiver.bytesRcvd < len then (dummyDescription, 0)
      else (cellsAt mem (receiver.buf + (size + sizeofMctUserHeader)) len, len) := by
  rw [UserStream.readDescription, mctReceiverCheckAndGet]
  simp only [Bool.false_eq_true, if_false, Nat.add_zero]
  split
  · rename_i description hsome
    split at hsome
    · cases hsome
    · cases hsome
      rw [if_neg (by assumption)]
  · rename_i hnone
    split at hnone
    · rw [if_pos (by assumption)]
    · cases hnone

end Receiver

section Scan

namespace UserStream

variable {mem mem' : Nat → UInt8} {buf : Nat}

theorem resync_le (mem : Nat → UInt8) (buf steps offset : Nat) :
    resync mem buf steps offset ≤ offset + steps := by
  induction steps generalizing offset with
  | zero => exact le_rfl
  | succ steps ih =>
      rw [resync]
      split
      · omega
      · have hrest := ih (offset + 1)
        omega

/-- The scan passes no header, and it stops before its bound only at one. -/
theorem resync_spec (mem : Nat → UInt8) (buf steps offset : Nat) :
    (∀ i, offset ≤ i → i < resync mem buf steps offset → headerAt mem (buf + i) = false) ∧
      (resync mem buf steps offset < offset + steps →
        headerAt mem (buf + resync mem buf steps offset) = true) := by
  induction steps generalizing offset with
  | zero =>
      rw [resync]
      constructor
      · intro i hlow hhigh
        omega
      · intro hless
        omega
  | succ steps ih =>
      rw [resync]
      split
      · rename_i hfound
        constructor
        · intro i hlow hhigh
          omega
        · intro _
          exact hfound
      · rename_i hnone
        obtain ⟨hbefore, hat⟩ := ih (offset + 1)
        constructor
        · intro i hlow hhigh
          rcases Nat.eq_or_lt_of_le hlow with rfl | hlater
          · exact Bool.eq_false_iff.mpr hnone
          · exact hbefore i hlater hhigh
        · intro hless
          apply hat
          omega

/-- The scan looks at the header of each offset that it comes to. -/
theorem resync_congr {steps offset : Nat}
    (h : ∀ i, offset ≤ i → i < offset + steps → headerAt mem (buf + i) = headerAt mem' (buf + i)) :
    resync mem buf steps offset = resync mem' buf steps offset := by
  induction steps generalizing offset with
  | zero => rfl
  | succ steps ih =>
      rw [resync, resync, h offset le_rfl (by omega), ih fun i hlow hhigh =>
        h i (by omega) (by omega)]

end UserStream

end Scan

section Functions

variable {σ : Type*} (env : UserActions σ) (s : UserStream σ) {mem mem' : Nat → UInt8}

namespace UserStream

theorem processNotSup_takes : Takes s (processNotSup s) :=
  .of_remove _ rfl rfl

theorem processFixed_takes (mem : Nat → UInt8) (size : Nat) (command : List UInt8 → UserCommand) :
    Takes s (processFixed env mem size command s) := by
  rw [processFixed, mctReceiverCheckAndGet_message]
  by_cases hshort : s.receiver.bytesRcvd < size + sizeofMctUserHeader
  · rw [if_pos hshort]
    exact .refused s
  · rw [if_neg hshort]
    exact .of_remove _ rfl rfl

theorem processDescribed_takes (mem : Nat → UInt8) (size lengthAt : Nat)
    (command : List UInt8 → List UInt8 → UserCommand) :
    Takes s (processDescribed env mem size lengthAt command s) := by
  rw [processDescribed]
  cases (mctReceiverCheckAndGet mem s.receiver size true false).1 with
  | none => exact .refused s
  | some payload =>
      dsimp only
      split
      · rename_i receiver hremove
        exact .of_remove _ (by rw [hremove]; rfl) rfl
      · rename_i receiver _ hremove
        exact .of_remove _ (by rw [hremove]) rfl

theorem processLog_takes (mem : Nat → UInt8) : Takes s (processLog env mem s) := by
  rw [processLog]
  split
  · exact .of_remove _ rfl rfl
  · exact .of_remove _ rfl rfl

theorem processSetAppLlTs_takes (mem : Nat → UInt8) : Takes s (processSetAppLlTs env mem s) := by
  rw [processSetAppLlTs]
  split
  · exact processFixed_takes env s mem 6 .setAppLlTs
  · exact .refused s

/-- What every function of the table does to the stream. -/
theorem processUserFunc_takes (mem : Nat → UInt8) (message : Nat) :
    Takes s (processUserFunc env mem message s) := by
  unfold processUserFunc
  split
  · exact processNotSup_takes s
  · split
    · exact processLog_takes env s mem
    · exact processDescribed_takes env s mem 12 8 .registerApplication
    · exact processFixed_takes env s mem 8 .unregisterApplication
    · exact processDescribed_takes env s mem 22 18 .registerContext
    · exact processFixed_takes env s mem 12 .unregisterContext
    · exact processFixed_takes env s mem 8 .overflow
    · exact processSetAppLlTs_takes env s mem
    · exact processFixed_takes env s mem 1 .marker
    · exact processNotSup_takes s

def SameReceived (mem mem' : Nat → UInt8) (s : UserStream σ) : Prop :=
  AgreeOn s.receiver.buf (s.receiver.buf + s.receiver.bytesRcvd) mem mem'

theorem processFixed_congr {s : UserStream σ} (h : SameReceived mem mem' s) (size : Nat)
    (command : List UInt8 → UserCommand) :
    processFixed env mem size command s = processFixed env mem' size command s := by
  rw [processFixed, processFixed, mctReceiverCheckAndGet_message, mctReceiverCheckAndGet_message]
  by_cases hshort : s.receiver.bytesRcvd < size + sizeofMctUserHeader
  · rw [if_pos hshort, if_pos hshort]
  · rw [if_neg hshort, if_neg hshort, h.cellsAt_eq (Nat.le_add_right _ _) (by omega)]

/-- The description is read from where enough bytes are received only if it is
counted from the start of the message. What is read behind the received bytes
is lost: removing the message fails. -/
theorem processDescribed_congr {s : UserStream σ} (h : SameReceived mem mem' s)
    (size lengthAt : Nat) (command : List UInt8 → List UInt8 → UserCommand) :
    processDescribed env mem size lengthAt command s =
      processDescribed env mem' size lengthAt command s := by
  rw [processDescribed, processDescribed, mctReceiverCheckAndGet_payload,
    mctReceiverCheckAndGet_payload]
  by_cases hshort : s.receiver.bytesRcvd < size + sizeofMctUserHeader
  · rw [if_pos hshort, if_pos hshort]
  · rw [if_neg hshort, if_neg hshort, h.cellsAt_eq (Nat.le_add_right _ _) (by omega)]
    generalize cellsAt mem' _ size = payload
    dsimp only
    generalize min (leNat (slice payload lengthAt 4)) mctDaemonDescsize = len
    rw [readDescription_eq, readDescription_eq]
    by_cases hless : s.receiver.bytesRcvd < len
    · rw [if_pos hless, if_pos hless]
    · rw [if_neg hless, if_neg hless]
      by_cases hinside : size + sizeofMctUserHeader + len ≤ s.receiver.bytesRcvd
      · rw [h.cellsAt_eq (Nat.le_add_right _ _) (by omega)]
      · have hfail := mctReceiverRemove_of_lt s.receiver (not_le.mp hinside)
        dsimp only
        generalize mctReceiverRemove s.receiver _ = removed at hfail ⊢
        obtain ⟨code, receiver⟩ := removed
        cases hfail
        rfl

/-- What is read of a log message was received, once its whole user header was. -/
theorem processLog_congr {s : UserStream σ} (h : SameReceived mem mem' s)
    (hheader : sizeofMctUserHeader ≤ s.receiver.bytesRcvd) :
    processLog env mem s = processLog env mem' s := by
  have hlength : uint32 ((s.receiver.bytesRcvd : Int) - sizeofMctUserHeader) ≤
      s.receiver.bytesRcvd - sizeofMctUserHeader := by
    unfold uint32
    omega
  rw [processLog, processLog, h.cellsAt_eq (Nat.le_add_right _ _) (by omega)]

theorem processSetAppLlTs_congr {s : UserStream σ} (h : SameReceived mem mem' s) :
    processSetAppLlTs env mem s = processSetAppLlTs env mem' s := by
  rw [processSetAppLlTs, processSetAppLlTs, processFixed_congr env h]

/-- No function of the table uses more than what was received. -/
theorem processUserFunc_congr {s : UserStream σ} (h : SameReceived mem mem' s)
    (hheader : sizeofMctUserHeader ≤ s.receiver.bytesRcvd) (message : Nat) :
    processUserFunc env mem message s = processUserFunc env mem' message s := by
  unfold processUserFunc
  split
  · rfl
  · split
    · exact processLog_congr env h hheader
    · exact processDescribed_congr env h 12 8 .registerApplication
    · exact processFixed_congr env h 8 .unregisterApplication
    · exact processDescribed_congr env h 22 18 .registerContext
    · exact processFixed_congr env h 12 .unregisterContext
    · exact processFixed_congr env h 8 .overflow
    · exact processSetAppLlTs_congr env h
    · exact processFixed_congr env h 1 .marker
    · rfl

end UserStream

end Functions

section Turns

variable {σ : Type*} {env : UserActions σ} {s : UserStream σ} {mem mem' : Nat → UInt8}

namespace UserStream

theorem SameReceived.headerAt_eq (h : SameReceived mem mem' s) {offset : Nat}
    (hinside : offset + 4 ≤ s.receiver.bytesRcvd) :
    headerAt mem (s.receiver.buf + offset) = headerAt mem' (s.receiver.buf + offset) := by
  rw [headerAt, headerAt, h.cellsAt_eq (Nat.le_add_right _ _) (by omega)]

theorem scanned_le (mem : Nat → UInt8) (receiver : MctReceiver) :
    scanned mem receiver ≤ receiver.bytesRcvd - 7 := by
  have hle := resync_le mem receiver.buf
    (receiver.bytesRcvd + 1 - sizeofMctUserHeader) 0
  simp only [sizeofMctUserHeader] at hle
  rw [scanned, sizeofMctUserHeader]
  omega

/-- The pattern is looked for only in what was received. -/
theorem SameReceived.scanned_eq (h : SameReceived mem mem' s) :
    scanned mem s.receiver = scanned mem' s.receiver := by
  apply resync_congr
  intro i _ hi
  apply h.headerAt_eq
  simp only [sizeofMctUserHeader] at hi
  omega

/-- After a header is accepted the stream begins with it. -/
theorem accept_receiver (s : UserStream σ) {offset : Nat} (h : offset ≤ s.receiver.bytesRcvd) :
    (s.accept offset).receiver = {s.receiver with
      bytesRcvd := s.receiver.bytesRcvd - offset
      buf := s.receiver.buf + offset} := by
  rw [accept]
  dsimp only
  split
  · rename_i hpos
    rw [mctReceiverRemove_of_le _ hpos h]
  · rename_i hzero
    have hoffset : offset = 0 := by omega
    rw [hoffset]
    rfl

theorem check_drop_rest (mem : Nat → UInt8) (s : UserStream σ) {offset : Nat}
    (hinside : offset + 4 ≤ s.receiver.bytesRcvd) :
    mctUserCheckUserheader ((s.rest mem).drop offset) =
      headerAt mem (s.receiver.buf + offset) := by
  have hfour : 4 ≤ s.receiver.bytesRcvd - offset := by omega
  rw [rest, cellsAt_drop, headerAt, mctUserCheckUserheader, mctUserCheckUserheader,
    cellsAt_take mem _ hfour, cellsAt_take mem _ le_rfl]

/-- The scan accepts a header that is not all there just when it is the first
one and starts seven bytes before the end. -/
theorem endsInCutHeader_iff (mem : Nat → UInt8) {s : UserStream σ} (hgo : s.holdsHeader = true) :
    EndsInCutHeader (s.rest mem) ↔
      headerAt mem (s.receiver.buf + scanned mem s.receiver) = true ∧
        scanned mem s.receiver = s.receiver.bytesRcvd - 7 := by
  have height : 8 ≤ s.receiver.bytesRcvd := of_decide_eq_true hgo
  have hlength : (s.rest mem).length = s.receiver.bytesRcvd := cellsAt_length _ _ _
  have hle := scanned_le mem s.receiver
  obtain ⟨hbefore, hat⟩ := resync_spec mem s.receiver.buf
    (s.receiver.bytesRcvd + 1 - sizeofMctUserHeader) 0
  constructor
  · rintro ⟨hcut, hnone⟩
    rw [hlength] at hcut hnone
    rw [check_drop_rest mem s (by omega)] at hcut
    have hscanned : scanned mem s.receiver = s.receiver.bytesRcvd - 7 := by
      by_contra hne
      have hfound : headerAt mem (s.receiver.buf + scanned mem s.receiver) = true := by
        apply hat
        have hbound : scanned mem s.receiver < 0 + (s.receiver.bytesRcvd + 1 - 8) := by omega
        exact hbound
      have hnot := hnone (scanned mem s.receiver) (by omega)
      rw [check_drop_rest mem s (by omega), hfound] at hnot
      cases hnot
    rw [hscanned]
    exact ⟨hcut, rfl⟩
  · rintro ⟨hfound, hscanned⟩
    rw [EndsInCutHeader, hlength]
    constructor
    · rw [check_drop_rest mem s (by omega), ← hscanned]
      exact hfound
    · intro offset hoffset
      rw [check_drop_rest mem s (by omega)]
      apply hbefore offset (Nat.zero_le _)
      rw [← hscanned] at hoffset
      exact hoffset

/-- A turn leaves the end of the received bytes where it is. -/
theorem turn_window (env : UserActions σ) (mem : Nat → UInt8) (s : UserStream σ) :
    s.receiver.buf ≤ (turn env mem s).2.receiver.buf ∧
      (turn env mem s).2.receiver.buf + (turn env mem s).2.receiver.bytesRcvd =
        s.receiver.buf + s.receiver.bytesRcvd := by
  rw [turn]
  dsimp only
  split
  · have hle : scanned mem s.receiver ≤ s.receiver.bytesRcvd := by
      have hscanned := scanned_le mem s.receiver
      omega
    generalize leNat (cellsAt mem _ 4) = message
    have htakes := processUserFunc_takes env (s.accept (scanned mem s.receiver)) mem message
    have hstart := htakes.start_le
    have hstop := htakes.stop_eq
    rw [accept_receiver s hle] at hstart hstop
    dsimp only at hstart hstop ⊢
    omega
  · exact ⟨le_rfl, rfl⟩

/-- A turn after which the loop goes on has removed something. -/
theorem turn_less (env : UserActions σ) (mem : Nat → UInt8) {s : UserStream σ}
    (hgo : s.holdsHeader = true) (hcont : (turn env mem s).1 = true) :
    (turn env mem s).2.receiver.bytesRcvd < s.receiver.bytesRcvd := by
  have height : 8 ≤ s.receiver.bytesRcvd := of_decide_eq_true hgo
  have hle := scanned_le mem s.receiver
  rw [turn] at hcont ⊢
  dsimp only at hcont ⊢
  split at hcont
  · rename_i hfound
    rw [if_pos hfound]
    have hreceiver := accept_receiver s (show scanned mem s.receiver ≤ _ by omega)
    have hprogress := (processUserFunc_takes env (s.accept (scanned mem s.receiver)) mem
      (leNat (cellsAt mem ((s.accept (scanned mem s.receiver)).receiver.buf + 4) 4))).progress
    rw [hreceiver] at hprogress hcont ⊢
    dsimp only at hprogress hcont ⊢
    have hless := hprogress (by omega) (of_decide_eq_true hcont)
    omega
  · cases hcont

/-- The received bytes bound the turns: with more of them the loop ends in the
same state. -/
theorem loop_enough (env : UserActions σ) (mem : Nat → UInt8) (s : UserStream σ) (more : Nat) :
    loopFor holdsHeader (turn env mem) (s.receiver.bytesRcvd + more) s =
      loopFor holdsHeader (turn env mem) s.receiver.bytesRcvd s := by
  apply loopFor_enough fun s => s.receiver.bytesRcvd
  · intro s hgo hcont
    exact turn_less env mem hgo hcont
  · intro s hgo
    have height : 8 ≤ s.receiver.bytesRcvd := of_decide_eq_true hgo
    omega
  · exact le_rfl

/-- The only header that a turn accepts is the one its scan ends at. -/
theorem turn_headers (env : UserActions σ) (mem : Nat → UInt8) (s : UserStream σ) :
    (turn env mem s).2.headers =
      if headerAt mem (s.receiver.buf + scanned mem s.receiver) then
        s.headers ++ [s.receiver.bytesRcvd - scanned mem s.receiver]
      else s.headers := by
  rw [turn]
  dsimp only
  split
  · have hle : scanned mem s.receiver ≤ s.receiver.bytesRcvd := by
      have hscanned := scanned_le mem s.receiver
      omega
    dsimp only
    rw [(processUserFunc_takes env (s.accept (scanned mem s.receiver)) mem _).headers_eq]
    have hreceiver := accept_receiver s hle
    rw [accept] at hreceiver ⊢
    dsimp only at hreceiver ⊢
    rw [hreceiver]
  · rfl

theorem SameReceived.turn (h : SameReceived mem mem' s) :
    SameReceived mem mem' (turn env mem s).2 := by
  obtain ⟨hstart, hstop⟩ := turn_window env mem s
  rw [SameReceived, hstop]
  exact h.mono hstart le_rfl

/-- A turn that does not begin with a cut header uses only what was received. -/
theorem turn_congr (h : SameReceived mem mem' s) (hgo : s.holdsHeader = true)
    (hsound : ¬ EndsInCutHeader (s.rest mem)) : turn env mem s = turn env mem' s := by
  have height : 8 ≤ s.receiver.bytesRcvd := of_decide_eq_true hgo
  have hle := scanned_le mem s.receiver
  rw [UserStream.turn, UserStream.turn, ← h.scanned_eq]
  dsimp only
  rw [← h.headerAt_eq (by omega)]
  split
  · rename_i hfound
    -- the whole header was received, its message type too
    have hinside : scanned mem s.receiver + 8 ≤ s.receiver.bytesRcvd := by
      by_contra hcut
      apply hsound
      exact (endsInCutHeader_iff mem hgo).mpr ⟨hfound, by omega⟩
    have hreceiver := accept_receiver s (show scanned mem s.receiver ≤ _ by omega)
    have haccepted : SameReceived mem mem' (s.accept (scanned mem s.receiver)) := by
      rw [SameReceived, hreceiver]
      exact h.mono (Nat.le_add_right _ _) (by dsimp only; omega)
    have hheader : 8 ≤ (s.accept (scanned mem s.receiver)).receiver.bytesRcvd := by
      rw [hreceiver]
      dsimp only
      omega
    rw [haccepted.cellsAt_eq (Nat.le_add_right _ _) (by omega),
      processUserFunc_congr env haccepted hheader]
  · rfl

section Loop

variable {turns : Nat}

/-- The loop over two memories that hold the same received bytes. -/
theorem loop_congr (h : SameReceived mem mem' s)
    (hsound : ∀ start ∈ turnStarts holdsHeader (turn env mem) turns s,
      ¬ EndsInCutHeader (start.rest mem)) :
    loopFor holdsHeader (turn env mem) turns s = loopFor holdsHeader (turn env mem') turns s ∧
      SameReceived mem mem' (loopFor holdsHeader (turn env mem) turns s) := by
  have hkeep (s : UserStream σ) (_ : s.holdsHeader = true) (hsame : SameReceived mem mem' s) :
      SameReceived mem mem' (turn env mem s).2 := hsame.turn
  have hturn (s : UserStream σ) (hgo : s.holdsHeader = true) (hsame : SameReceived mem mem' s)
      (hwhole : ¬ EndsInCutHeader (s.rest mem)) : turn env mem s = turn env mem' s :=
    turn_congr hsame hgo hwhole
  constructor
  · exact (loopFor_lockstep hkeep hturn turns s h hsound).1
  · apply loopFor_invariant (fun s hgo _ => hkeep s hgo) turns s h hsound

theorem loop_headers_whole
    (hsound : ∀ start ∈ turnStarts holdsHeader (turn env mem) turns s,
      ¬ EndsInCutHeader (start.rest mem))
    (h : ∀ n ∈ s.headers, sizeofMctUserHeader ≤ n) :
    ∀ n ∈ (loopFor holdsHeader (turn env mem) turns s).headers, sizeofMctUserHeader ≤ n := by
  have hkeep (s : UserStream σ) (hgo : s.holdsHeader = true)
      (hwhole : ¬ EndsInCutHeader (s.rest mem))
      (hinv : ∀ n ∈ s.headers, sizeofMctUserHeader ≤ n) :
      ∀ n ∈ (turn env mem s).2.headers, sizeofMctUserHeader ≤ n := by
    intro n hn
    rw [turn_headers] at hn
    split at hn
    · rename_i hfound
      rcases List.mem_append.mp hn with hold | hnew
      · exact hinv n hold
      · have height : 8 ≤ s.receiver.bytesRcvd := of_decide_eq_true hgo
        have hle := scanned_le mem s.receiver
        have hne : scanned mem s.receiver ≠ s.receiver.bytesRcvd - 7 := by
          intro hscanned
          exact hwhole ((endsInCutHeader_iff mem hgo).mpr ⟨hfound, hscanned⟩)
        rw [List.mem_singleton.mp hnew, sizeofMctUserHeader]
        omega
    · exact hinv n hn
  exact loopFor_invariant hkeep turns s h hsound

theorem loop_headers_cut {start : UserStream σ}
    (hstart : start ∈ turnStarts holdsHeader (turn env mem) turns s)
    (hcut : EndsInCutHeader (start.rest mem)) :
    7 ∈ (loopFor holdsHeader (turn env mem) turns s).headers := by
  have hkeep (s : UserStream σ) (_ : s.holdsHeader = true) (hseven : 7 ∈ s.headers) :
      7 ∈ (turn env mem s).2.headers := by
    rw [turn_headers]
    split
    · exact List.mem_append_left _ hseven
    · exact hseven
  have hgo : start.holdsHeader = true := going_of_mem_turnStarts hstart
  have height : 8 ≤ start.receiver.bytesRcvd := of_decide_eq_true hgo
  obtain ⟨hfound, hscanned⟩ := (endsInCutHeader_iff mem hgo).mp hcut
  have hseven : start.receiver.bytesRcvd - scanned mem start.receiver = 7 := by omega
  apply loopFor_of_turn hkeep hstart
  rw [turn_headers, if_pos hfound, hseven]
  exact List.mem_append_right _ (List.mem_singleton_self 7)

end Loop

end UserStream

end Turns

section Call

variable {σ : Type*} {env : UserActions σ} {socket : Bool} {s : UserStream σ}
  {receiver : MctReceiver} {rest incoming : List UInt8} {mem mem' : Nat → UInt8}

theorem receiveInto_receiver (mem mem' : Nat → UInt8) (receiver : MctReceiver)
    (incoming : List UInt8) :
    (receiveInto mem receiver incoming).2 = (receiveInto mem' receiver incoming).2 := by
  unfold receiveInto
  cases receiver.backupBuf with
  | none =>
      dsimp only
      split <;> rfl
  | some block =>
      dsimp only
      split <;> split <;> rfl

/-- The chunk follows the rest at the start of the memory. -/
theorem OwesRest.receive (h : OwesRest mem receiver rest) (hne : incoming ≠ []) :
    (receiveInto mem receiver incoming).2.buf = 0 ∧
      (receiveInto mem receiver incoming).2.bytesRcvd = rest.length + incoming.length ∧
      cellsAt (receiveInto mem receiver incoming).1 0 (rest.length + incoming.length) =
        rest ++ incoming := by
  obtain ⟨hcount, hheld⟩ := h
  have hlength : incoming.length ≠ 0 := by simpa using hne
  -- either way the rest stands at the start of the memory now
  obtain ⟨restored, backup, hrestored, hrun⟩ : ∃ restored backup,
      cellsAt restored 0 rest.length = rest ∧
      receiveInto mem receiver incoming = (overlay restored rest.length incoming,
        {receiver with
          buf := 0
          lastBytesRcvd := rest.length
          backupBuf := backup
          totalBytesRcvd := int32 (receiver.totalBytesRcvd + incoming.length)
          bytesRcvd := incoming.length + rest.length}) := by
    unfold receiveInto
    rw [hcount]
    cases hbackup : receiver.backupBuf with
    | none =>
        rw [hbackup] at hheld
        exact ⟨mem, none, hheld, by simp [hlength]⟩
    | some block =>
        rw [hbackup] at hheld
        by_cases hempty : rest.length = 0
        · refine ⟨mem, some block, ?_, by simp [hlength, hempty]⟩
          rw [List.length_eq_zero_iff.mp hempty]
          rfl
        · refine ⟨overlay mem 0 (block.take rest.length), none, ?_, by simp [hlength, hempty]⟩
          have hcells := cellsAt_overlay mem 0 (block.take rest.length)
          rw [hheld] at hcells ⊢
          exact hcells
  rw [hrun]
  refine ⟨rfl, Nat.add_comm _ _, ?_⟩
  rw [← cellsAt_append, cellsAt_overlay_before _ _ (by omega), hrestored, Nat.zero_add,
    cellsAt_overlay]

/-- Two memories from which the same rest is owed hold the same received bytes
after the chunk came. -/
theorem OwesRest.sameReceived (h : OwesRest mem s.receiver rest)
    (h' : OwesRest mem' s.receiver rest) (hne : incoming ≠ []) :
    UserStream.SameReceived (receiveInto mem s.receiver incoming).1
      (receiveInto mem' s.receiver incoming).1
      {s with receiver := (receiveInto mem s.receiver incoming).2} := by
  obtain ⟨hbuf, hcount, hcells⟩ := h.receive hne
  obtain ⟨_, _, hcells'⟩ := h'.receive hne
  rw [UserStream.SameReceived]
  dsimp only
  rw [hbuf, hcount]
  apply AgreeOn.of_cellsAt
  rw [Nat.zero_add, Nat.sub_zero, hcells, hcells']

theorem owesRest_onlyBytes (h : OwesRest mem receiver rest) :
    OwesRest (onlyBytes rest) receiver rest := by
  obtain ⟨hcount, hheld⟩ := h
  refine ⟨hcount, ?_⟩
  cases hbackup : receiver.backupBuf with
  | some block =>
      rw [hbackup] at hheld
      exact hheld
  | none =>
      apply List.ext_getElem
      · simp
      · intro i hcell hrest
        simp [cellsAt, onlyBytes, hrest]

/-- Nothing is received: no turn is taken and nothing is left. -/
theorem process_nil (env : UserActions σ) (socket : Bool) (mem : Nat → UInt8)
    (s : UserStream σ) :
    mctDaemonProcessUserMessages env socket mem s [] =
      ⟨{s with
        receiver := (receiveInto mem s.receiver []).2
        daemon := if socket then env.closeSocket s.daemon else s.daemon}, []⟩ := by
  have hempty : (receiveInto mem s.receiver []).2.bytesRcvd = 0 := by
    unfold receiveInto
    simp
  rw [mctDaemonProcessUserMessages]
  cases socket with
  | true => simp
  | false => simp [hempty, loopFor, moveToBegin, UserStream.rest, cellsAt]

/-- Something is received: the loop begins with it. -/
theorem process_of_ne_nil (env : UserActions σ) (socket : Bool) (mem : Nat → UInt8)
    (s : UserStream σ) (hne : incoming ≠ []) :
    mctDaemonProcessUserMessages env socket mem s incoming =
      let (mem, receiver) := receiveInto mem s.receiver incoming
      let last := loopFor UserStream.holdsHeader (UserStream.turn env mem) receiver.bytesRcvd
        {s with receiver := receiver}
      ⟨{last with receiver := moveToBegin env.malloc mem last.receiver}, last.rest mem⟩ := by
  have hlength : ¬ (incoming.length = 0 ∧ socket = true) := by
    rintro ⟨hzero, _⟩
    exact hne (List.length_eq_zero_iff.mp hzero)
  rw [mctDaemonProcessUserMessages]
  simp only [if_neg hlength]

theorem moveToBegin_congr (calloc : Malloc) (h : s.rest mem = s.rest mem') :
    moveToBegin calloc mem s.receiver = moveToBegin calloc mem' s.receiver := by
  rw [UserStream.rest, UserStream.rest] at h
  rw [moveToBegin, moveToBegin, h]

theorem turnStarts_whole (hsound : ∀ bytes ∈ turnRests env mem s incoming,
      ¬ EndsInCutHeader bytes) :
    ∀ start ∈ turnStarts UserStream.holdsHeader
        (UserStream.turn env (receiveInto mem s.receiver incoming).1)
        (receiveInto mem s.receiver incoming).2.bytesRcvd
        {s with receiver := (receiveInto mem s.receiver incoming).2},
      ¬ EndsInCutHeader (start.rest (receiveInto mem s.receiver incoming).1) := by
  intro start hstart
  apply hsound
  exact List.mem_map_of_mem hstart

/-- A call whose turns over one memory all begin with whole headers ends over
any other memory as over this one. -/
theorem process_congr (socket : Bool) (h : OwesRest mem s.receiver rest)
    (h' : OwesRest mem' s.receiver rest)
    (hsound : ∀ bytes ∈ turnRests env mem s incoming, ¬ EndsInCutHeader bytes) :
    mctDaemonProcessUserMessages env socket mem s incoming =
      mctDaemonProcessUserMessages env socket mem' s incoming := by
  by_cases hempty : incoming = []
  · rw [hempty, process_nil, process_nil, receiveInto_receiver mem mem']
  · obtain ⟨hloop, hlast⟩ := UserStream.loop_congr (h.sameReceived h' hempty)
      (turnStarts_whole hsound)
    have hrest := hlast.cellsAt_eq le_rfl le_rfl
    rw [process_of_ne_nil env socket mem s hempty, process_of_ne_nil env socket mem' s hempty]
    dsimp only
    rw [← receiveInto_receiver mem mem', ← hloop, moveToBegin_congr env.malloc hrest]
    exact congrArg _ hrest

/-- A call whose turns all begin with whole headers accepts no others. -/
theorem headers_whole (socket : Bool)
    (hsound : ∀ bytes ∈ turnRests env mem s incoming, ¬ EndsInCutHeader bytes)
    (hstart : ∀ n ∈ s.headers, sizeofMctUserHeader ≤ n) :
    ∀ n ∈ (mctDaemonProcessUserMessages env socket mem s incoming).stream.headers,
      sizeofMctUserHeader ≤ n := by
  by_cases hempty : incoming = []
  · rw [hempty, process_nil]
    exact hstart
  · rw [process_of_ne_nil env socket mem s hempty]
    exact UserStream.loop_headers_whole (turnStarts_whole hsound) hstart

/-- A turn that begins with a cut header accepts it. -/
theorem headers_cut (socket : Bool) {bytes : List UInt8}
    (hturn : bytes ∈ turnRests env mem s incoming) (hcut : EndsInCutHeader bytes) :
    7 ∈ (mctDaemonProcessUserMessages env socket mem s incoming).stream.headers := by
  by_cases hempty : incoming = []
  · have hnone : (receiveInto mem s.receiver incoming).2.bytesRcvd = 0 := by
      rw [hempty]
      unfold receiveInto
      simp
    rw [turnRests] at hturn
    dsimp only at hturn
    rw [hnone] at hturn
    cases hturn
  · rw [process_of_ne_nil env socket mem s hempty]
    obtain ⟨start, hstart, rfl⟩ := List.mem_map.mp hturn
    exact UserStream.loop_headers_cut hstart hcut

/-- A call uses only received bytes just if no turn of the loop, run over these
bytes alone, begins with a rest that ends in a cut header. -/
theorem usesOnlyReceived_iff (env : UserActions σ) (socket : Bool) {mem : Nat → UInt8}
    {receiver : MctReceiver} (msg : MctMessage) (daemon : σ) {rest : List UInt8}
    (h : OwesRest mem receiver rest) (incoming : List UInt8) :
    UsesOnlyReceived env socket (.start receiver msg daemon) rest incoming ↔
      ∀ bytes ∈ turnRests env (onlyBytes rest) (.start receiver msg daemon) incoming,
        ¬ EndsInCutHeader bytes := by
  have hown : OwesRest (onlyBytes rest) (UserStream.start receiver msg daemon).receiver rest :=
    owesRest_onlyBytes h
  constructor
  · intro huses bytes hturn hcut
    have hseven := huses.whole _ hown 7 (headers_cut socket hturn hcut)
    simp [sizeofMctUserHeader] at hseven
  · intro hsound
    have hcongr (mem : Nat → UInt8)
        (hmem : OwesRest mem (UserStream.start receiver msg daemon).receiver rest) :
        mctDaemonProcessUserMessages env socket mem (.start receiver msg daemon) incoming =
          mctDaemonProcessUserMessages env socket (onlyBytes rest) (.start receiver msg daemon)
            incoming := (process_congr socket hown hmem hsound).symm
    constructor
    · intro mem mem' hmem hmem'
      rw [hcongr mem hmem, hcongr mem' hmem']
    · intro mem hmem
      rw [hcongr mem hmem]
      apply headers_whole socket hsound
      intro n hn
      cases hn

/-- Actions that always succeed and leave the daemon as it is. -/
def quietActions : UserActions Unit where
  malloc := Malloc.zeroed
  usersFound _ := true
  perform _ daemon := (0, daemon)
  sendToAllClient msg daemon := (msg, daemon)
  closeSocket daemon := daemon

/-- A marker behind a byte that belongs to no message. -/
theorem marker_usesOnlyReceived :
    UsesOnlyReceived quietActions false
      (.start mctReceiverInitGlobalBuffer mctMessageInit ()) []
      (0 :: userHeader mctUserMessageMarker ++ [3]) :=
  (usesOnlyReceived_iff quietActions false mctMessageInit ()
    (show OwesRest (fun _ => 0) mctReceiverInitGlobalBuffer [] from ⟨rfl, rfl⟩) _).mpr (by decide)

/-- Seven bytes of the header of a registration, behind a byte that belongs to
no message. A zero behind them completes the header and they wait for the rest;
any other byte makes the type invalid and they are lost. -/
theorem cutRegistration_usesMore :
    ¬ UsesOnlyReceived quietActions false
      (.start mctReceiverInitGlobalBuffer mctMessageInit ()) []
      (0 :: (userHeader mctUserMessageRegisterApplication).take 7) := by
  intro huses
  have hsame := huses.same (fun _ => 0) (fun _ => 1) ⟨rfl, rfl⟩ ⟨rfl, rfl⟩
  have hrests := congrArg StreamOutcome.rest hsame
  revert hrests
  decide

end Call

end MctDaemon.Daemon
