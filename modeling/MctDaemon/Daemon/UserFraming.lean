import MctDaemon.Daemon.EcuOverwrite
import MctDaemon.Daemon.UserStream

/-!
The framing of the stream of an application over several rounds. A message with
a payload of fixed size stays in the receiver until all of it is there. A
registration stays only until its payload is there, and a log message only until
its user header is: what follows is looked for at once, and a message that is
not there completely then is lost.
-/

namespace MctDaemon.Daemon

open Lib Shared User

section Messages

/-- The types whose payload has a fixed size and nothing behind it. -/
inductive FixedKind where
  | unregisterApplication
  | unregisterContext
  | overflow
  | setAppLlTs
  | marker
  deriving DecidableEq, Repr

/-- The types with a description behind the payload. -/
inductive DescribedKind where
  | application
  | context
  deriving DecidableEq, Repr

namespace FixedKind

def mtype : FixedKind → Nat
  | unregisterApplication => mctUserMessageUnregisterApplication
  | unregisterContext => mctUserMessageUnregisterContext
  | overflow => mctUserMessageOverflow
  | setAppLlTs => mctUserMessageAppLlTs
  | marker => mctUserMessageMarker

/-- The size of the structure that the daemon takes. -/
def size : FixedKind → Nat
  | unregisterApplication => 8
  | unregisterContext => 12
  | overflow => 8
  | setAppLlTs => 6
  | marker => 1

def command : FixedKind → List UInt8 → UserCommand
  | unregisterApplication => .unregisterApplication
  | unregisterContext => .unregisterContext
  | overflow => .overflow
  | setAppLlTs => .setAppLlTs
  | marker => .marker

end FixedKind

namespace DescribedKind

def mtype : DescribedKind → Nat
  | application => mctUserMessageRegisterApplication
  | context => mctUserMessageRegisterContext

def size : DescribedKind → Nat
  | application => 12
  | context => 22

/-- Where `description_length` stands in the payload. -/
def lengthAt : DescribedKind → Nat
  | application => 8
  | context => 18

def command : DescribedKind → List UInt8 → List UInt8 → UserCommand
  | application => .registerApplication
  | context => .registerContext

end DescribedKind

/-- A message as it stands in the stream, without its user header. -/
inductive StreamMessage where
  | fixed (kind : FixedKind) (payload : List UInt8)
  | described (kind : DescribedKind) (payload description : List UInt8)
  | log (bytes : List UInt8)
  deriving DecidableEq, Repr

namespace StreamMessage

def mtype : StreamMessage → Nat
  | fixed kind _ => kind.mtype
  | described kind _ _ => kind.mtype
  | log _ => mctUserMessageLog

def body : StreamMessage → List UInt8
  | fixed _ payload => payload
  | described _ payload description => payload ++ description
  | log bytes => bytes

def bytes (message : StreamMessage) : List UInt8 := userHeader message.mtype ++ message.body

/-- The payload has the size of its structure, the length in a registration is
that of the description, and a log message is one message. The library sends a
marker without a payload. -/
def WellFormed : StreamMessage → Prop
  | fixed kind payload => payload.length = kind.size ∨ kind = .marker ∧ payload = []
  | described kind payload description =>
      payload.length = kind.size ∧ leNat (slice payload kind.lengthAt 4) = description.length
  | log bytes => (parseMessage false bytes).map Prod.snd = some bytes.length

instance (message : StreamMessage) : Decidable message.WellFormed := by
  cases message <;> simp only [WellFormed] <;> infer_instance

/-- As long as fewer bytes of the message are received it stays in the receiver. -/
def waitsBelow : StreamMessage → Nat
  | fixed kind _ => sizeofMctUserHeader + kind.size
  | described kind _ _ => sizeofMctUserHeader + kind.size
  | log _ => sizeofMctUserHeader

end StreamMessage

def streamBytes (messages : List StreamMessage) : List UInt8 :=
  messages.flatMap StreamMessage.bytes

/-- The messages that are complete in the first `n` bytes of their stream. -/
def completeIn : List StreamMessage → Nat → List StreamMessage
  | [], _ => []
  | message :: rest, n =>
      if message.bytes.length ≤ n then
        message :: completeIn rest (n - message.bytes.length)
      else []

/-- A message that is cut behind the first `n` bytes of the stream stays in the
receiver. -/
def CutWaits : List StreamMessage → Nat → Prop
  | [], _ => True
  | message :: rest, n =>
      if message.bytes.length ≤ n then CutWaits rest (n - message.bytes.length)
      else n < message.waitsBelow

instance decidableCutWaits : (messages : List StreamMessage) → (n : Nat) →
    Decidable (CutWaits messages n)
  | [], _ => isTrue trivial
  | message :: rest, n =>
      have := decidableCutWaits rest (n - message.bytes.length)
      inferInstanceAs (Decidable (if message.bytes.length ≤ n then
        CutWaits rest (n - message.bytes.length) else n < message.waitsBelow))

end Messages

section Dispatching

variable {σ : Type*}

/-- What the messages dispatched so far have made of `daemon_local->msg` and of
the daemon. -/
structure Dispatched (σ : Type*) where
  msg : MctMessage
  daemon : σ
  commands : List UserCommand
  deriving DecidableEq

namespace Dispatched

def perform (env : UserActions σ) (st : Dispatched σ) (command : UserCommand) :
    Int × Dispatched σ :=
  let (ret, daemon) := env.perform command st.daemon
  (ret, ⟨st.msg, daemon, st.commands ++ [command]⟩)

/-- One message is dispatched, with its own payload and description: the answer,
and the state afterwards. -/
def serve (env : UserActions σ) (st : Dispatched σ) : StreamMessage → Int × Dispatched σ
  | .fixed kind payload => st.perform env (kind.command payload)
  | .described kind payload description => st.perform env (kind.command payload description)
  | .log bytes =>
      let msg := (mctMessageRead env.malloc st.msg bytes false).2
      let (sent, daemon) := env.sendToAllClient msg st.daemon
      (0, ⟨sent, daemon, st.commands ++ [.log msg]⟩)

def serveAll (env : UserActions σ) (st : Dispatched σ) (messages : List StreamMessage) :
    Dispatched σ :=
  messages.foldl (fun st message => (st.serve env message).2) st

/-- The daemon takes all of the message and no more: the description is not too
long for it, the marker has a log mode, and the users are found whose levels are
set. -/
def TakesWhole (env : UserActions σ) (st : Dispatched σ) : StreamMessage → Prop
  | .fixed .setAppLlTs _ => env.usersFound st.daemon = true
  | .fixed .marker payload => payload ≠ []
  | .fixed _ _ => True
  | .described _ _ description => description.length ≤ mctDaemonDescsize
  | .log _ => True

/-- The messages that are complete in one round are all taken, and the function
of none fails, except perhaps that of the last one. -/
def RoundServes (env : UserActions σ) : Dispatched σ → List StreamMessage → Prop
  | _, [] => True
  | st, message :: rest =>
      st.TakesWhole env message ∧ (rest ≠ [] → (st.serve env message).1 ≠ -1) ∧
        RoundServes env (st.serve env message).2 rest

end Dispatched

/-- The stream after this many bytes were taken, with the state that the messages
in them have left. -/
def UserStream.consumed (s : UserStream σ) (taken : Nat) (st : Dispatched σ) : UserStream σ where
  receiver := {s.receiver with
    bytesRcvd := s.receiver.bytesRcvd - taken
    buf := s.receiver.buf + taken}
  msg := st.msg
  daemon := st.daemon
  commands := st.commands
  headers := s.headers

def UserStream.dispatched (s : UserStream σ) : Dispatched σ := ⟨s.msg, s.daemon, s.commands⟩

/-- Sending a message to the clients leaves its sizes. -/
structure UserActions.KeepsSizes (env : UserActions σ) : Prop where
  headerbuffer_length : ∀ msg daemon, msg.headerbuffer.length = sizeofHeaderbuffer →
    (env.sendToAllClient msg daemon).1.headerbuffer.length = sizeofHeaderbuffer
  logSize_eq : ∀ msg daemon,
    UserStream.logSize (env.sendToAllClient msg daemon).1 = UserStream.logSize msg

/-- The command is that of the message, with its own payload and description. -/
def StreamMessage.Announces : StreamMessage → UserCommand → Prop
  | .fixed kind payload, command => command = kind.command payload
  | .described kind payload description, command => command = kind.command payload description
  | .log bytes, .log msg => parseMessage false bytes = some (msg.extracted, bytes.length)
  | .log _, _ => False

/-- A chunk of the stream, and the memory of the receivers when it comes. -/
structure Delivery where
  mem : Nat → UInt8
  chunk : List UInt8

def rounds (env : UserActions σ) (socket : Bool) (o : StreamOutcome σ)
    (deliveries : List Delivery) : StreamOutcome σ :=
  deliveries.foldl (fun o delivery =>
    mctDaemonProcessUserMessages env socket delivery.mem o.stream delivery.chunk) o

/-- The condition on a round, for the messages that are not dispatched yet: what
is not backed up is still in the memory, the chunk brings something and fits
behind it, what is complete then is taken, and what is not stays. -/
structure RoundMeets (env : UserActions σ) (messages : List StreamMessage) (o : StreamOutcome σ)
    (delivery : Delivery) : Prop where
  kept : o.stream.receiver.backupBuf = none →
    cellsAt delivery.mem 0 o.rest.length = o.rest
  arrives : delivery.chunk ≠ []
  fits : o.rest.length + delivery.chunk.length ≤ mctReceiveBufsize
  waits : CutWaits messages (o.rest.length + delivery.chunk.length)
  serves : o.stream.dispatched.RoundServes env
    (completeIn messages (o.rest.length + delivery.chunk.length))

def RunMeets (env : UserActions σ) (socket : Bool) :
    List StreamMessage → StreamOutcome σ → List Delivery → Prop
  | _, _, [] => True
  | messages, o, delivery :: deliveries =>
      RoundMeets env messages o delivery ∧
        RunMeets env socket
          (messages.drop
            (completeIn messages (o.rest.length + delivery.chunk.length)).length)
          (mctDaemonProcessUserMessages env socket delivery.mem o.stream delivery.chunk)
          deliveries

/-- The messages that are complete in the bytes delivered were dispatched, each
once, in their order and as its own; what follows them is kept. -/
structure Framed (env : UserActions σ) (start : Dispatched σ) (messages : List StreamMessage)
    (delivered : List UInt8) (o : StreamOutcome σ) : Prop where
  dispatched : o.stream.dispatched = start.serveAll env (completeIn messages delivered.length)
  own : List.Forall₂ StreamMessage.Announces (completeIn messages delivered.length)
    o.stream.commands
  kept : streamBytes (completeIn messages delivered.length) ++ o.rest = delivered

end Dispatching

section Complete

theorem streamBytes_cons (message : StreamMessage) (rest : List StreamMessage) :
    streamBytes (message :: rest) = message.bytes ++ streamBytes rest :=
  List.flatMap_cons

theorem streamBytes_append (front back : List StreamMessage) :
    streamBytes (front ++ back) = streamBytes front ++ streamBytes back :=
  List.flatMap_append

/-- The complete messages are the first ones of the stream. -/
theorem completeIn_append_drop (messages : List StreamMessage) (n : Nat) :
    completeIn messages n ++ messages.drop (completeIn messages n).length = messages := by
  induction messages generalizing n with
  | nil => rfl
  | cons message rest ih =>
      rw [completeIn]
      split
      · rw [List.cons_append, List.length_cons, List.drop_succ_cons, ih]
      · rfl

theorem streamBytes_completeIn_le (messages : List StreamMessage) (n : Nat) :
    (streamBytes (completeIn messages n)).length ≤ n := by
  induction messages generalizing n with
  | nil => exact Nat.zero_le n
  | cons message rest ih =>
      rw [completeIn]
      split
      · rename_i hle
        have hrest := ih (n - message.bytes.length)
        rw [streamBytes_cons, List.length_append]
        omega
      · exact Nat.zero_le n

/-- More bytes complete the same messages and then what they complete of the
others. -/
theorem completeIn_more (messages : List StreamMessage) {n more : Nat} (h : n ≤ more) :
    completeIn messages more = completeIn messages n ++
      completeIn (messages.drop (completeIn messages n).length)
        (more - (streamBytes (completeIn messages n)).length) := by
  induction messages generalizing n more with
  | nil => rfl
  | cons message rest ih =>
      rw [completeIn, completeIn]
      by_cases hwhole : message.bytes.length ≤ n
      · have hrest := ih (Nat.sub_le_sub_right h message.bytes.length)
        rw [if_pos hwhole, if_pos (hwhole.trans h), List.cons_append, List.length_cons,
          List.drop_succ_cons, hrest, streamBytes_cons, List.length_append, Nat.sub_sub]
      · rw [if_neg hwhole]
        rfl

theorem completeIn_rest (messages : List StreamMessage) (n : Nat) :
    completeIn (messages.drop (completeIn messages n).length)
      (n - (streamBytes (completeIn messages n)).length) = [] := by
  have hsame := completeIn_more messages (le_refl n)
  exact List.self_eq_append_right.mp hsame

/-- In the whole stream all messages are complete. -/
theorem completeIn_streamBytes (messages : List StreamMessage) :
    completeIn messages (streamBytes messages).length = messages := by
  induction messages with
  | nil => rfl
  | cons message rest ih =>
      rw [completeIn, streamBytes_cons, List.length_append, if_pos (Nat.le_add_right _ _),
        Nat.add_sub_cancel_left, ih]

end Complete

section Turn

variable {σ : Type*} {env : UserActions σ} {s : UserStream σ} {mem : Nat → UInt8}
  {more : List UInt8}

namespace UserStream

theorem userHeader_size (mtype : Nat) : (userHeader mtype).length = sizeofMctUserHeader :=
  userHeader_length mtype

theorem rest_length (mem : Nat → UInt8) (s : UserStream σ) :
    (s.rest mem).length = s.receiver.bytesRcvd :=
  cellsAt_length _ _ _

theorem rest_consumed (mem : Nat → UInt8) (s : UserStream σ) (taken : Nat) (st : Dispatched σ) :
    (s.consumed taken st).rest mem = (s.rest mem).drop taken := by
  rw [rest, rest, cellsAt_drop]
  rfl

/-- Bytes that are removed were received. -/
theorem remove_consumed {taken : Nat} (hpos : 0 < taken) (hle : taken ≤ s.receiver.bytesRcvd) :
    mctReceiverRemove s.receiver taken = (.ok, (s.consumed taken s.dispatched).receiver) :=
  mctReceiverRemove_of_le s.receiver hpos hle

/-- The user header is there and a message of fixed size behind it. -/
theorem processFixed_whole {mtype : Nat} {payload : List UInt8}
    (command : List UInt8 → UserCommand)
    (hrest : s.rest mem = userHeader mtype ++ payload ++ more) :
    processFixed env mem payload.length command s =
      ((s.dispatched.perform env (command payload)).1,
        s.consumed (sizeofMctUserHeader + payload.length)
          (s.dispatched.perform env (command payload)).2) := by
  have hcount := congrArg List.length hrest
  simp only [rest_length, List.length_append, userHeader_size] at hcount
  have hpayload := cellsAt_mid hrest
  rw [userHeader_size] at hpayload
  rw [processFixed, mctReceiverCheckAndGet_message, if_neg (by omega), hpayload, Nat.add_comm,
    remove_consumed (by simp [sizeofMctUserHeader]) (by omega)]
  rfl

theorem processFixed_waits {size : Nat} (command : List UInt8 → UserCommand)
    (hshort : s.receiver.bytesRcvd < sizeofMctUserHeader + size) :
    processFixed env mem size command s = (-1, s) := by
  rw [processFixed, mctReceiverCheckAndGet_message, if_pos (by omega)]

/-- The registration is there with its description, which is not too long. -/
theorem processDescribed_whole {mtype lengthAt : Nat} {payload description : List UInt8}
    (command : List UInt8 → List UInt8 → UserCommand)
    (hlength : leNat (slice payload lengthAt 4) = description.length)
    (hshort : description.length ≤ mctDaemonDescsize)
    (hrest : s.rest mem = userHeader mtype ++ (payload ++ description) ++ more) :
    processDescribed env mem payload.length lengthAt command s =
      ((s.dispatched.perform env (command payload description)).1,
        s.consumed (sizeofMctUserHeader + (payload ++ description).length)
          (s.dispatched.perform env (command payload description)).2) := by
  have hcount := congrArg List.length hrest
  simp only [rest_length, List.length_append, userHeader_size] at hcount
  rw [← List.append_assoc, List.append_assoc (_ ++ payload)] at hrest
  have hpayload := cellsAt_mid hrest
  rw [← List.append_assoc] at hrest
  have hdescription := cellsAt_mid hrest
  rw [List.length_append] at hdescription
  rw [userHeader_size] at hpayload hdescription
  have htaken : payload.length + sizeofMctUserHeader + description.length =
      sizeofMctUserHeader + (payload ++ description).length := by
    rw [List.length_append]
    omega
  rw [processDescribed, mctReceiverCheckAndGet_payload, if_neg (by omega), hpayload]
  dsimp only
  rw [hlength, min_eq_left hshort, readDescription_eq, if_neg (by omega),
    Nat.add_comm payload.length, hdescription]
  dsimp only
  rw [Nat.add_comm sizeofMctUserHeader, htaken,
    remove_consumed (by simp [sizeofMctUserHeader]) (by rw [List.length_append]; omega)]
  rfl

theorem processDescribed_waits {size : Nat} (lengthAt : Nat)
    (command : List UInt8 → List UInt8 → UserCommand)
    (hshort : s.receiver.bytesRcvd < sizeofMctUserHeader + size) :
    processDescribed env mem size lengthAt command s = (-1, s) := by
  rw [processDescribed, mctReceiverCheckAndGet_payload, if_pos (by omega)]

/-- The log message is there completely; what stands behind it is not read. -/
theorem processLog_whole (halloc : ∀ n, env.malloc.block n ≠ none) (hkeeps : env.KeepsSizes)
    (hbuffer : s.msg.headerbuffer.length = sizeofHeaderbuffer) {bytes : List UInt8}
    (hparsed : (parseMessage false bytes).map Prod.snd = some bytes.length)
    (hfits : s.receiver.bytesRcvd ≤ mctReceiveBufsize)
    (hrest : s.rest mem = userHeader mctUserMessageLog ++ bytes ++ more) :
    processLog env mem s =
      ((s.dispatched.serve env (.log bytes)).1,
        s.consumed (sizeofMctUserHeader + bytes.length)
          (s.dispatched.serve env (.log bytes)).2) := by
  have hcount := congrArg List.length hrest
  simp only [rest_length, List.length_append, userHeader_size] at hcount
  rw [← List.append_nil (userHeader _ ++ bytes ++ more), List.append_assoc (userHeader _)] at hrest
  have hbehind := cellsAt_mid hrest
  rw [userHeader_size] at hbehind
  have hlength : uint32 ((s.receiver.bytesRcvd : Int) - sizeofMctUserHeader) =
      (bytes ++ more).length := by
    rw [List.length_append]
    simp only [mctReceiveBufsize] at hfits
    unfold uint32
    omega
  obtain ⟨⟨message, taken⟩, hmessage, htaken⟩ := Option.map_eq_some_iff.mp hparsed
  have hne : bytes ≠ [] := by
    rintro rfl
    cases hmessage
  obtain ⟨hok, -, hremoved⟩ := (mctMessageRead_parseMessage halloc hbuffer bytes false).accepted
    message taken hmessage
  have hoffset := @mctMessageRead_resyncOffset env.malloc s.msg bytes hne
  have hsize : logSize (mctMessageRead env.malloc s.msg bytes false).2 =
      (sizeofMctUserHeader + bytes.length : Nat) := by
    rw [MctMessage.bytesToBeRemoved, hoffset] at hremoved
    simp only at htaken
    rw [logSize]
    push_cast at hremoved ⊢
    omega
  rw [processLog, hlength, hbehind, mctMessageRead_append hmessage more]
  generalize hread : mctMessageRead env.malloc s.msg bytes false = read at hok hsize
  obtain ⟨code, msg⟩ := read
  cases hok
  dsimp only at hsize ⊢
  rw [hkeeps.logSize_eq, hsize,
    remove_consumed (by simp [sizeofMctUserHeader]) (by omega), Dispatched.serve]
  simp only [dispatched, hread, if_true]
  rfl

theorem accept_zero (s : UserStream σ) :
    s.accept 0 = {s with headers := s.headers ++ [s.receiver.bytesRcvd]} := rfl

/-- A turn that begins at a user header leaves the message to its function. -/
theorem turn_of_header {mtype : Nat} (hmtype : mtype < 256)
    (hrest : s.rest mem = userHeader mtype ++ more) :
    turn env mem s =
      (decide ((processUserFunc env mem mtype (s.accept 0)).1 ≠ -1),
        (processUserFunc env mem mtype (s.accept 0)).2) := by
  have hcount := congrArg List.length hrest
  rw [rest_length, List.length_append, userHeader_size, sizeofMctUserHeader] at hcount
  rw [userHeader] at hrest
  have hpattern : headerAt mem s.receiver.buf = true := by
    have hcells : cellsAt mem s.receiver.buf 4 = userHeaderPattern :=
      @cellsAt_mid _ mem s.receiver.buf s.receiver.bytesRcvd [] userHeaderPattern
        (leBytes 4 mtype ++ more) (by rw [← List.append_assoc]; exact hrest)
    rw [headerAt, hcells]
    rfl
  have htype : leNat (cellsAt mem (s.receiver.buf + 4) 4) = mtype := by
    have hcells := cellsAt_mid hrest
    rw [leBytes_length] at hcells
    rw [show s.receiver.buf + 4 = s.receiver.buf + userHeaderPattern.length from rfl, hcells]
    exact leNat_leBytes 4 mtype (by omega)
  have hscanned : scanned mem s.receiver = 0 := by
    have hsteps : s.receiver.bytesRcvd + 1 - sizeofMctUserHeader = more.length + 1 := by
      rw [hcount, sizeofMctUserHeader]
      omega
    rw [scanned, hsteps, resync, Nat.add_zero, if_pos hpattern]
  rw [turn, hscanned]
  dsimp only
  rw [Nat.add_zero, if_pos hpattern]
  rw [show (s.accept 0).receiver = s.receiver from rfl, htype]

theorem processUserFunc_fixed (env : UserActions σ) (mem : Nat → UInt8) (kind : FixedKind)
    (s : UserStream σ) :
    processUserFunc env mem kind.mtype s =
      if kind = .setAppLlTs ∧ env.usersFound s.daemon = false then (-1, s)
      else processFixed env mem kind.size kind.command s := by
  cases kind with
  | setAppLlTs =>
      have hfunc : processUserFunc env mem FixedKind.setAppLlTs.mtype s =
          processSetAppLlTs env mem s := rfl
      rw [hfunc, processSetAppLlTs]
      cases env.usersFound s.daemon with
      | true => rfl
      | false => rfl
  | unregisterApplication => rfl
  | unregisterContext => rfl
  | overflow => rfl
  | marker => rfl

theorem processUserFunc_described (env : UserActions σ) (mem : Nat → UInt8)
    (kind : DescribedKind) (s : UserStream σ) :
    processUserFunc env mem kind.mtype s =
      processDescribed env mem kind.size kind.lengthAt kind.command s := by
  cases kind with
  | application => rfl
  | context => rfl

/-- A complete message that the daemon takes wholly is dispatched and removed. -/
theorem processUserFunc_whole (halloc : ∀ n, env.malloc.block n ≠ none)
    (hkeeps : env.KeepsSizes) (hbuffer : s.msg.headerbuffer.length = sizeofHeaderbuffer)
    (hfits : s.receiver.bytesRcvd ≤ mctReceiveBufsize) {message : StreamMessage}
    (hformed : message.WellFormed) (htakes : s.dispatched.TakesWhole env message)
    (hrest : s.rest mem = message.bytes ++ more) :
    processUserFunc env mem message.mtype s =
      ((s.dispatched.serve env message).1,
        s.consumed message.bytes.length (s.dispatched.serve env message).2) := by
  rw [StreamMessage.bytes] at hrest
  rw [StreamMessage.bytes, List.length_append, userHeader_size]
  cases message with
  | fixed kind payload =>
      have hsize : payload.length = kind.size := by
        rcases hformed with hsize | ⟨rfl, rfl⟩
        · exact hsize
        · exact absurd rfl htakes
      have hfound : ¬ (kind = .setAppLlTs ∧ env.usersFound s.daemon = false) := by
        rintro ⟨rfl, hnone⟩
        rw [Dispatched.TakesWhole, dispatched, hnone] at htakes
        cases htakes
      rw [StreamMessage.mtype, processUserFunc_fixed, if_neg hfound, ← hsize]
      exact processFixed_whole kind.command hrest
  | described kind payload description =>
      obtain ⟨hsize, hlength⟩ := hformed
      rw [StreamMessage.mtype, processUserFunc_described, ← hsize]
      exact processDescribed_whole kind.command hlength htakes hrest
  | log bytes => exact processLog_whole halloc hkeeps hbuffer hformed hfits hrest

/-- A message that is cut early stays in the receiver. -/
theorem processUserFunc_waits {message : StreamMessage}
    (hheader : sizeofMctUserHeader ≤ s.receiver.bytesRcvd)
    (hshort : s.receiver.bytesRcvd < message.waitsBelow) :
    processUserFunc env mem message.mtype s = (-1, s) := by
  cases message with
  | fixed kind payload =>
      rw [StreamMessage.mtype, processUserFunc_fixed, processFixed_waits kind.command hshort,
        ite_self]
  | described kind payload description =>
      rw [StreamMessage.mtype, processUserFunc_described]
      exact processDescribed_waits kind.lengthAt kind.command hshort
  | log bytes =>
      rw [StreamMessage.waitsBelow] at hshort
      omega

theorem mtype_lt (message : StreamMessage) : message.mtype < 256 := by
  have hfixed (kind : FixedKind) : kind.mtype < 256 := by cases kind <;> decide
  have hdescribed (kind : DescribedKind) : kind.mtype < 256 := by cases kind <;> decide
  cases message with
  | fixed kind payload => exact hfixed kind
  | described kind payload description => exact hdescribed kind
  | log bytes => exact (by decide : mctUserMessageLog < 256)

theorem turn_whole (halloc : ∀ n, env.malloc.block n ≠ none)
    (hkeeps : env.KeepsSizes) (hbuffer : s.msg.headerbuffer.length = sizeofHeaderbuffer)
    (hfits : s.receiver.bytesRcvd ≤ mctReceiveBufsize) {message : StreamMessage}
    (hformed : message.WellFormed) (htakes : s.dispatched.TakesWhole env message)
    (hrest : s.rest mem = message.bytes ++ more) :
    turn env mem s =
      (decide ((s.dispatched.serve env message).1 ≠ -1),
        (s.accept 0).consumed message.bytes.length (s.dispatched.serve env message).2) := by
  have hheader : s.rest mem = userHeader message.mtype ++ (message.body ++ more) := by
    rw [hrest, StreamMessage.bytes, List.append_assoc]
  have hwhole : processUserFunc env mem message.mtype (s.accept 0) =
      ((s.dispatched.serve env message).1,
        (s.accept 0).consumed message.bytes.length (s.dispatched.serve env message).2) :=
    @processUserFunc_whole _ env (s.accept 0) mem more halloc hkeeps hbuffer hfits message hformed
      htakes hrest
  rw [turn_of_header (mtype_lt message) hheader, hwhole]

/-- The header of a message that is cut early is accepted again with each chunk. -/
theorem turn_waits {message : StreamMessage}
    (hheader : sizeofMctUserHeader ≤ s.receiver.bytesRcvd)
    (hshort : s.receiver.bytesRcvd < message.waitsBelow)
    (hrest : s.rest mem <+: message.bytes) : turn env mem s = (false, s.accept 0) := by
  have hfront : userHeader message.mtype <+: s.rest mem := by
    apply List.prefix_of_prefix_length_le _ hrest
    · rw [userHeader_size, rest_length]
      exact hheader
    · exact List.prefix_append _ _
  obtain ⟨more, hmore⟩ := hfront
  have hwaits : processUserFunc env mem message.mtype (s.accept 0) = (-1, s.accept 0) :=
    @processUserFunc_waits _ env (s.accept 0) mem message hheader hshort
  rw [turn_of_header (mtype_lt message) hmore.symm, hwaits]
  rfl

theorem holdsHeader_iff (s : UserStream σ) :
    s.holdsHeader = true ↔ sizeofMctUserHeader ≤ s.receiver.bytesRcvd :=
  decide_eq_true_iff

/-- What a turn of the loop leaves of the message structure can be read into. -/
theorem headerbuffer_serve (halloc : ∀ n, env.malloc.block n ≠ none) (hkeeps : env.KeepsSizes)
    {st : Dispatched σ} (hbuffer : st.msg.headerbuffer.length = sizeofHeaderbuffer)
    (message : StreamMessage) :
    (st.serve env message).2.msg.headerbuffer.length = sizeofHeaderbuffer := by
  cases message with
  | fixed kind payload => exact hbuffer
  | described kind payload description => exact hbuffer
  | log bytes =>
      have hread := (mctMessageRead_parseMessage halloc hbuffer bytes false).buffer_length
      rw [Dispatched.serve]
      exact hkeeps.headerbuffer_length _ _ hread

theorem sizeofMctUserHeader_le (message : StreamMessage) :
    sizeofMctUserHeader ≤ message.bytes.length := by
  rw [StreamMessage.bytes, List.length_append, userHeader_size]
  exact Nat.le_add_right _ _

/-- A complete message stands in front of what was received. -/
theorem rest_of_complete {message : StreamMessage} {rest : List StreamMessage}
    (hwhole : message.bytes.length ≤ s.receiver.bytesRcvd)
    (hrest : s.rest mem <+: streamBytes (message :: rest)) :
    ∃ more, s.rest mem = message.bytes ++ more ∧ more <+: streamBytes rest := by
  have hfront : message.bytes <+: s.rest mem := by
    apply List.prefix_of_prefix_length_le _ hrest
    · rw [rest_length]
      exact hwhole
    · exact List.prefix_append _ _
  obtain ⟨more, hmore⟩ := hfront
  rw [← hmore, streamBytes_cons] at hrest
  exact ⟨more, hmore.symm, (List.prefix_append_right_inj _).mp hrest⟩

/-- Of a message that is cut early at most the header is accepted. -/
theorem loop_waits {message : StreamMessage} {rest : List StreamMessage} {turns : Nat}
    (hturns : s.receiver.bytesRcvd ≤ turns) (hcut : s.receiver.bytesRcvd < message.bytes.length)
    (hshort : s.receiver.bytesRcvd < message.waitsBelow)
    (hrest : s.rest mem <+: streamBytes (message :: rest)) :
    loopFor holdsHeader (turn env mem) turns s = s ∨
      loopFor holdsHeader (turn env mem) turns s = s.accept 0 := by
  by_cases hheader : sizeofMctUserHeader ≤ s.receiver.bytesRcvd
  · right
    have hown : s.rest mem <+: message.bytes := by
      apply List.prefix_of_prefix_length_le hrest (List.prefix_append _ _)
      rw [rest_length]
      exact hcut.le
    obtain ⟨turns, rfl⟩ : ∃ k, turns = k + 1 := by
      apply Nat.exists_eq_succ_of_ne_zero
      rw [sizeofMctUserHeader] at hheader
      omega
    rw [loopFor, if_pos ((holdsHeader_iff s).mpr hheader), turn_waits hheader hshort hown]
    rfl
  · left
    apply loopFor_of_stopped
    rw [Bool.eq_false_iff, ne_eq, holdsHeader_iff]
    exact hheader

/-- The loop dispatches the messages that are complete in what was received and
leaves what follows. The induction is on the messages of the stream; a turn takes
the first of them or none. -/
theorem loop_stream (mem : Nat → UInt8) (halloc : ∀ n, env.malloc.block n ≠ none)
    (hkeeps : env.KeepsSizes)
    {messages : List StreamMessage} (hformed : ∀ message ∈ messages, message.WellFormed)
    (turns : Nat) (s : UserStream σ) (hturns : s.receiver.bytesRcvd ≤ turns)
    (hbuffer : s.msg.headerbuffer.length = sizeofHeaderbuffer)
    (hfits : s.receiver.bytesRcvd ≤ mctReceiveBufsize)
    (hrest : s.rest mem <+: streamBytes messages)
    (hwaits : CutWaits messages s.receiver.bytesRcvd)
    (hserves : s.dispatched.RoundServes env (completeIn messages s.receiver.bytesRcvd)) :
    (loopFor holdsHeader (turn env mem) turns s).dispatched =
        s.dispatched.serveAll env (completeIn messages s.receiver.bytesRcvd) ∧
      (loopFor holdsHeader (turn env mem) turns s).receiver =
        (s.consumed (streamBytes (completeIn messages s.receiver.bytesRcvd)).length
          s.dispatched).receiver := by
  induction messages generalizing s turns with
  | nil =>
      have hnone : s.receiver.bytesRcvd = 0 := by
        have hlength := hrest.length_le
        rw [rest_length] at hlength
        exact Nat.le_zero.mp hlength
      have hstop : s.holdsHeader = false := by
        rw [holdsHeader, hnone]
        rfl
      rw [loopFor_of_stopped hstop]
      exact ⟨rfl, rfl⟩
  | cons message rest ih =>
      rw [completeIn, CutWaits] at *
      by_cases hwhole : message.bytes.length ≤ s.receiver.bytesRcvd
      · rw [if_pos hwhole] at hwaits hserves ⊢
        obtain ⟨htakes, hanswer, hlater⟩ := hserves
        obtain ⟨more, hmore, hfollowing⟩ := rest_of_complete hwhole hrest
        have hturn := turn_whole halloc hkeeps hbuffer hfits (hformed message List.mem_cons_self)
          htakes hmore
        have hlength := sizeofMctUserHeader_le message
        have hpos : s.holdsHeader = true := (holdsHeader_iff s).mpr (hlength.trans hwhole)
        have hrestNext : ((s.accept 0).consumed message.bytes.length
            (s.dispatched.serve env message).2).rest mem = more := by
          rw [rest_consumed, show (s.accept 0).rest mem = s.rest mem from rfl, hmore,
            List.drop_left]
        rw [sizeofMctUserHeader] at hlength
        obtain ⟨turns, rfl⟩ : ∃ k, turns = k + 1 :=
          Nat.exists_eq_succ_of_ne_zero (by omega)
        rw [loopFor, if_pos hpos, hturn, streamBytes_cons, List.length_append]
        dsimp only
        by_cases hgoes : (s.dispatched.serve env message).1 ≠ -1
        · rw [if_pos (decide_eq_true hgoes)]
          obtain ⟨hdispatched, hreceiver⟩ := ih
            (fun other hother => hformed other (List.mem_cons_of_mem _ hother)) turns
            ((s.accept 0).consumed message.bytes.length (s.dispatched.serve env message).2)
            (by
              simp only [consumed, accept_zero]
              omega)
            (headerbuffer_serve halloc hkeeps hbuffer message)
            ((Nat.sub_le _ _).trans hfits) (by rw [hrestNext]; exact hfollowing) hwaits hlater
          refine ⟨hdispatched, hreceiver.trans ?_⟩
          simp only [consumed, accept_zero, Nat.sub_sub, Nat.add_assoc]
        · -- the loop ends, and there is nothing more that it would have to do
          rw [if_neg (by simpa using hgoes)]
          have hlast : completeIn rest (s.receiver.bytesRcvd - message.bytes.length) = [] := by
            by_contra hmany
            exact hgoes (hanswer hmany)
          rw [hlast]
          exact ⟨rfl, rfl⟩
      · rw [if_neg hwhole] at hwaits ⊢
        rcases @loop_waits _ env s mem message rest turns hturns (not_le.mp hwhole) hwaits hrest
          with hlast | hlast
        · rw [hlast]
          exact ⟨rfl, rfl⟩
        · rw [hlast]
          exact ⟨rfl, rfl⟩

end UserStream

end Turn

section Rounds

variable {σ : Type*} {env : UserActions σ} {socket : Bool} {o : StreamOutcome σ}
  {messages : List StreamMessage}

theorem Dispatched.serveAll_append (env : UserActions σ) (st : Dispatched σ)
    (front back : List StreamMessage) :
    st.serveAll env (front ++ back) = (st.serveAll env front).serveAll env back :=
  List.foldl_append

/-- Every message announces its own payload and description. -/
theorem announces_serve (halloc : ∀ n, env.malloc.block n ≠ none) {st : Dispatched σ}
    (hbuffer : st.msg.headerbuffer.length = sizeofHeaderbuffer) {message : StreamMessage}
    (hformed : message.WellFormed) :
    ∃ command, (st.serve env message).2.commands = st.commands ++ [command] ∧
      message.Announces command := by
  cases message with
  | fixed kind payload => exact ⟨kind.command payload, rfl, rfl⟩
  | described kind payload description => exact ⟨kind.command payload description, rfl, rfl⟩
  | log bytes =>
      obtain ⟨⟨read, taken⟩, hmessage, htaken⟩ := Option.map_eq_some_iff.mp hformed
      obtain ⟨-, hextracted, -⟩ := (mctMessageRead_parseMessage halloc hbuffer bytes false).accepted
        read taken hmessage
      refine ⟨_, rfl, ?_⟩
      rw [StreamMessage.Announces, hextracted, hmessage, ← htaken]

theorem announces_serveAll (halloc : ∀ n, env.malloc.block n ≠ none) (hkeeps : env.KeepsSizes)
    (hformed : ∀ message ∈ messages, message.WellFormed) (st : Dispatched σ)
    (hbuffer : st.msg.headerbuffer.length = sizeofHeaderbuffer) :
    ∃ commands, (st.serveAll env messages).commands = st.commands ++ commands ∧
      List.Forall₂ StreamMessage.Announces messages commands := by
  induction messages generalizing st with
  | nil => exact ⟨[], (List.append_nil _).symm, .nil⟩
  | cons message rest ih =>
      obtain ⟨command, hcommand, hown⟩ := announces_serve halloc hbuffer
        (hformed message List.mem_cons_self)
      obtain ⟨commands, hcommands, howns⟩ := ih
        (fun other hother => hformed other (List.mem_cons_of_mem _ hother))
        (st.serve env message).2 (UserStream.headerbuffer_serve halloc hkeeps hbuffer message)
      refine ⟨command :: commands, ?_, .cons hown howns⟩
      rw [hcommand, List.append_assoc] at hcommands
      exact hcommands

theorem headerbuffer_serveAll (halloc : ∀ n, env.malloc.block n ≠ none) (hkeeps : env.KeepsSizes)
    {st : Dispatched σ} (hbuffer : st.msg.headerbuffer.length = sizeofHeaderbuffer)
    (messages : List StreamMessage) :
    (st.serveAll env messages).msg.headerbuffer.length = sizeofHeaderbuffer := by
  induction messages generalizing st with
  | nil => exact hbuffer
  | cons message rest ih =>
      exact ih (UserStream.headerbuffer_serve halloc hkeeps hbuffer message)

/-- Between two rounds the receiver counts the bytes it keeps, and a backup holds
them. -/
structure Between (o : StreamOutcome σ) : Prop where
  count_eq : o.stream.receiver.bytesRcvd = o.rest.length
  backup : ∀ block, o.stream.receiver.backupBuf = some block →
    o.rest ≠ [] ∧ block.take o.rest.length = o.rest
  headerbuffer : o.stream.msg.headerbuffer.length = sizeofHeaderbuffer

theorem Between.owesRest (h : Between o) {mem : Nat → UInt8}
    (hkept : o.stream.receiver.backupBuf = none → cellsAt mem 0 o.rest.length = o.rest) :
    OwesRest mem o.stream.receiver o.rest := by
  refine ⟨h.count_eq, ?_⟩
  cases hbackup : o.stream.receiver.backupBuf with
  | none => exact hkept hbackup
  | some block => exact (h.backup block hbackup).2

/-- Receiving uses up the backup. -/
theorem Between.receiveInto_backup (h : Between o) (mem : Nat → UInt8) (incoming : List UInt8) :
    (receiveInto mem o.stream.receiver incoming).2.backupBuf = none := by
  unfold receiveInto
  cases hbackup : o.stream.receiver.backupBuf with
  | none =>
      dsimp only
      split <;> rfl
  | some block =>
      have hsome : o.stream.receiver.bytesRcvd ≠ 0 := by
        rw [h.count_eq]
        exact fun hzero => (h.backup block hbackup).1 (List.length_eq_zero_iff.mp hzero)
      dsimp only
      rw [if_pos hsome]
      split <;> rfl

theorem moveToBegin_bytesRcvd (calloc : Malloc) (mem : Nat → UInt8) (receiver : MctReceiver) :
    (moveToBegin calloc mem receiver).bytesRcvd = receiver.bytesRcvd := by
  unfold moveToBegin
  split <;> rfl

/-- The backup that is made at the end of a round. -/
theorem moveToBegin_backup (calloc : Malloc) (mem : Nat → UInt8) {receiver : MctReceiver}
    (hnone : receiver.backupBuf = none) {block : List UInt8}
    (h : (moveToBegin calloc mem receiver).backupBuf = some block) :
    receiver.bytesRcvd ≠ 0 ∧
      block.take receiver.bytesRcvd = cellsAt mem receiver.buf receiver.bytesRcvd := by
  unfold moveToBegin at h
  split at h
  · rename_i hleft
    obtain ⟨fresh, hfresh, rfl⟩ := Option.map_eq_some_iff.mp h
    have hcopied := take_copyInto_append fresh 0
      (cellsAt mem receiver.buf receiver.bytesRcvd) (Nat.zero_le _)
    rw [cellsAt_length, Nat.zero_add, List.take_zero, List.nil_append] at hcopied
    exact ⟨hleft.2, hcopied⟩
  · rw [hnone] at h
    cases h

/-- What is complete in the received bytes stands at their front. -/
theorem completeIn_front {bytes : List UInt8} (hstream : bytes <+: streamBytes messages) :
    streamBytes (completeIn messages bytes.length) ++
      bytes.drop (streamBytes (completeIn messages bytes.length)).length = bytes := by
  apply List.prefix_iff_eq_append.mp
  apply List.prefix_of_prefix_length_le _ hstream (streamBytes_completeIn_le _ _)
  have hsplit := congrArg streamBytes (completeIn_append_drop messages bytes.length)
  rw [streamBytes_append] at hsplit
  exact ⟨_, hsplit⟩

/-- A round dispatches the messages that its chunk completes, and keeps the rest. -/
theorem round_stream (halloc : ∀ n, env.malloc.block n ≠ none) (hkeeps : env.KeepsSizes)
    (hformed : ∀ message ∈ messages, message.WellFormed) (hbetween : Between o)
    {delivery : Delivery} (hmeets : RoundMeets env messages o delivery)
    (hstream : o.rest ++ delivery.chunk <+: streamBytes messages) :
    let next := mctDaemonProcessUserMessages env socket delivery.mem o.stream delivery.chunk
    let complete := completeIn messages (o.rest ++ delivery.chunk).length
    Between next ∧ next.stream.dispatched = o.stream.dispatched.serveAll env complete ∧
      streamBytes complete ++ next.rest = o.rest ++ delivery.chunk := by
  intro next complete
  obtain ⟨hbuf, hcount, hcells⟩ := (hbetween.owesRest hmeets.kept).receive hmeets.arrives
  have hbackup := hbetween.receiveInto_backup delivery.mem delivery.chunk
  have hnext : next = mctDaemonProcessUserMessages env socket delivery.mem o.stream
      delivery.chunk := rfl
  rw [process_of_ne_nil env socket delivery.mem o.stream hmeets.arrives] at hnext
  generalize receiveInto delivery.mem o.stream.receiver delivery.chunk = received
    at hbuf hcount hcells hbackup hnext
  obtain ⟨mem, receiver⟩ := received
  dsimp only at hbuf hcount hcells hbackup hnext
  rw [← List.length_append] at hcount hcells
  have hrest : ({o.stream with receiver := receiver} : UserStream σ).rest mem =
      o.rest ++ delivery.chunk := by
    rw [UserStream.rest]
    dsimp only
    rw [hbuf, hcount, hcells]
  obtain ⟨hdispatched, hreceiver⟩ := UserStream.loop_stream mem halloc hkeeps hformed
    receiver.bytesRcvd {o.stream with receiver := receiver} le_rfl hbetween.headerbuffer
    (by rw [hcount, List.length_append]; exact hmeets.fits) (by rw [hrest]; exact hstream)
    (by rw [hcount, List.length_append]; exact hmeets.waits)
    (by rw [hcount, List.length_append]; exact hmeets.serves)
  generalize loopFor UserStream.holdsHeader (UserStream.turn env mem) receiver.bytesRcvd
    {o.stream with receiver := receiver} = last at hdispatched hreceiver hnext
  rw [hcount] at hdispatched hreceiver
  have hlast : last.rest mem = (o.rest ++ delivery.chunk).drop (streamBytes complete).length := by
    rw [← hrest, ← UserStream.rest_consumed, UserStream.rest, hreceiver]
    rfl
  have hkeptCount : last.receiver.bytesRcvd = (last.rest mem).length :=
    (UserStream.rest_length mem last).symm
  have hnone : last.receiver.backupBuf = none := by
    rw [hreceiver]
    exact hbackup
  rw [hnext]
  refine ⟨⟨?_, ?_, ?_⟩, hdispatched, ?_⟩
  · exact (moveToBegin_bytesRcvd env.malloc mem last.receiver).trans hkeptCount
  · intro block hblock
    obtain ⟨hsome, htake⟩ := moveToBegin_backup env.malloc mem hnone hblock
    refine ⟨fun hempty => hsome (hkeptCount.trans (congrArg List.length hempty)), ?_⟩
    dsimp only
    rw [← hkeptCount]
    exact htake
  · have hmsg := congrArg Dispatched.msg hdispatched
    have hlength : (o.stream.dispatched.serveAll env complete).msg.headerbuffer.length =
        sizeofHeaderbuffer :=
      headerbuffer_serveAll halloc hkeeps hbetween.headerbuffer complete
    exact (congrArg (fun msg => msg.headerbuffer.length) hmsg).trans hlength
  · dsimp only
    rw [hlast]
    exact completeIn_front hstream

/-- A run dispatches the messages that its chunks complete, and keeps the rest.
The induction is on the deliveries; a round leaves the messages that follow. -/
theorem rounds_stream (halloc : ∀ n, env.malloc.block n ≠ none) (hkeeps : env.KeepsSizes)
    (hformed : ∀ message ∈ messages, message.WellFormed) (hbetween : Between o)
    (hnone : completeIn messages o.rest.length = []) (deliveries : List Delivery)
    (hmeets : RunMeets env socket messages o deliveries)
    (hstream : o.rest ++ deliveries.flatMap Delivery.chunk <+: streamBytes messages) :
    let last := rounds env socket o deliveries
    let complete := completeIn messages (o.rest ++ deliveries.flatMap Delivery.chunk).length
    last.stream.dispatched = o.stream.dispatched.serveAll env complete ∧
      streamBytes complete ++ last.rest = o.rest ++ deliveries.flatMap Delivery.chunk := by
  induction deliveries generalizing o messages with
  | nil =>
      intro last complete
      have hcomplete : complete = [] := by
        rw [← hnone]
        simp [complete]
      rw [hcomplete, List.flatMap_nil, List.append_nil]
      exact ⟨rfl, rfl⟩
  | cons delivery deliveries ih =>
      intro last complete
      obtain ⟨hround, hlater⟩ := hmeets
      rw [List.flatMap_cons, ← List.append_assoc] at hstream
      have hfront : o.rest ++ delivery.chunk <+: streamBytes messages :=
        (List.prefix_append _ _).trans hstream
      obtain ⟨hnext, hdispatched, hkept⟩ :=
        @round_stream _ env socket o messages halloc hkeeps hformed hbetween delivery hround hfront
      obtain ⟨next, hprocess⟩ : ∃ next, mctDaemonProcessUserMessages env socket delivery.mem
          o.stream delivery.chunk = next := ⟨_, rfl⟩
      have hlast : last = rounds env socket next deliveries := by
        rw [← hprocess]
        rfl
      rw [hprocess] at hnext hdispatched hkept hlater
      rw [← List.length_append] at hlater
      generalize hdone : completeIn messages (o.rest ++ delivery.chunk).length = done
        at hdispatched hkept hlater
      have hsplit := completeIn_append_drop messages (o.rest ++ delivery.chunk).length
      rw [hdone] at hsplit
      have hlength := congrArg List.length hkept
      rw [List.length_append] at hlength
      have hwhole : (o.rest ++ (delivery :: deliveries).flatMap Delivery.chunk) =
          streamBytes done ++ (next.rest ++ deliveries.flatMap Delivery.chunk) := by
        rw [List.flatMap_cons, ← List.append_assoc, ← hkept, List.append_assoc]
      have hstreamNext : next.rest ++ deliveries.flatMap Delivery.chunk <+:
          streamBytes (messages.drop done.length) := by
        rw [← hkept, List.append_assoc, ← hsplit, streamBytes_append] at hstream
        exact (List.prefix_append_right_inj _).mp hstream
      have hnoneNext : completeIn (messages.drop done.length) next.rest.length = [] := by
        have hrest := completeIn_rest messages (o.rest ++ delivery.chunk).length
        rw [hdone, ← hlength, Nat.add_sub_cancel_left] at hrest
        exact hrest
      have hcomplete : complete = done ++ completeIn (messages.drop done.length)
          (next.rest ++ deliveries.flatMap Delivery.chunk).length := by
        have hle : (o.rest ++ delivery.chunk).length ≤
            (o.rest ++ (delivery :: deliveries).flatMap Delivery.chunk).length := by
          rw [hwhole, ← hkept, List.length_append, List.length_append, List.length_append]
          omega
        have hmore := completeIn_more messages hle
        rw [hdone, hwhole, List.length_append, Nat.add_sub_cancel_left, ← List.length_append,
          ← hwhole] at hmore
        exact hmore
      obtain ⟨hserved, hrest⟩ := ih
        (fun message hmem => hformed message (List.mem_of_mem_drop hmem)) hnext hnoneNext hlater
        hstreamNext
      rw [hlast, hcomplete, Dispatched.serveAll_append, ← hdispatched, streamBytes_append, hwhole,
        List.append_assoc, hrest]
      exact ⟨hserved, rfl⟩


/-- When all of the stream is delivered every message is dispatched, and nothing
is left. -/
theorem Framed.whole {start : Dispatched σ}
    (h : Framed env start messages (streamBytes messages) o) :
    o.stream.dispatched = start.serveAll env messages ∧
      List.Forall₂ StreamMessage.Announces messages o.stream.commands ∧ o.rest = [] := by
  obtain ⟨hdispatched, hown, hkept⟩ := h
  rw [completeIn_streamBytes] at hdispatched hown hkept
  exact ⟨hdispatched, hown, List.append_right_eq_self.mp hkept⟩

/-- However a stream of well-formed messages is cut into rounds that all meet the
condition: after each of them the daemon has dispatched the messages that are
complete, and after the last one all of them. -/
theorem rounds_framed (env : UserActions σ) (socket : Bool)
    (halloc : ∀ n, env.malloc.block n ≠ none) (hkeeps : env.KeepsSizes)
    {messages : List StreamMessage} (hformed : ∀ message ∈ messages, message.WellFormed)
    {msg : MctMessage} (hbuffer : msg.headerbuffer.length = sizeofHeaderbuffer) (daemon : σ)
    {deliveries : List Delivery}
    (hstream : deliveries.flatMap Delivery.chunk <+: streamBytes messages)
    (hmeets : RunMeets env socket messages ⟨.start mctReceiverInitGlobalBuffer msg daemon, []⟩
      deliveries) :
    let last := rounds env socket ⟨.start mctReceiverInitGlobalBuffer msg daemon, []⟩ deliveries
    Framed env ⟨msg, daemon, []⟩ messages (deliveries.flatMap Delivery.chunk) last ∧
      (deliveries.flatMap Delivery.chunk = streamBytes messages →
        last.stream.dispatched = Dispatched.serveAll env ⟨msg, daemon, []⟩ messages ∧
          List.Forall₂ StreamMessage.Announces messages last.stream.commands ∧
          last.rest = []) := by
  intro last
  have hstart : Between (⟨.start mctReceiverInitGlobalBuffer msg daemon, []⟩ :
      StreamOutcome σ) := by
    refine ⟨rfl, ?_, hbuffer⟩
    intro block hblock
    cases hblock
  have hnone : completeIn messages 0 = [] := by
    cases messages with
    | nil => rfl
    | cons message rest =>
        rw [completeIn, if_neg]
        rw [StreamMessage.bytes, List.length_append, UserStream.userHeader_size,
          sizeofMctUserHeader]
        omega
  obtain ⟨hdispatched, hkept⟩ : last.stream.dispatched = _ ∧ _ :=
    rounds_stream halloc hkeeps hformed hstart hnone deliveries hmeets hstream
  have hframed : Framed env ⟨msg, daemon, []⟩ messages (deliveries.flatMap Delivery.chunk)
      last := by
    refine ⟨hdispatched, ?_, hkept⟩
    have hcomplete : ∀ message ∈ completeIn messages
        (deliveries.flatMap Delivery.chunk).length, message.WellFormed := by
      intro message hmem
      apply hformed
      rw [← completeIn_append_drop messages (deliveries.flatMap Delivery.chunk).length]
      exact List.mem_append_left _ hmem
    obtain ⟨commands, hcommands, hown⟩ := announces_serveAll halloc hkeeps hcomplete
      ⟨msg, daemon, []⟩ hbuffer
    have hsame : last.stream.commands = commands :=
      (congrArg Dispatched.commands hdispatched).trans hcommands
    rw [hsame]
    exact hown
  refine ⟨hframed, ?_⟩
  intro hall
  rw [hall] at hframed
  exact hframed.whole

/-- The message as it is sent where no ECU id is configured. -/
def sentMessage (msg : MctMessage) : MctMessage :=
  (mctDaemonClientSendMessageToAllClient ⟨[], mctDaemonEcuId⟩ (List.replicate 8 0)
    ⟨msg, ⟨[], 0, 0⟩, none⟩).msg

/-- Actions that always succeed; log messages get their storage header. -/
def sendingActions : UserActions Unit :=
  { quietActions with sendToAllClient := fun msg daemon => (sentMessage msg, daemon) }

theorem sendingActions_keepsSizes : sendingActions.KeepsSizes where
  headerbuffer_length msg _ hbuffer := by
    apply (copyInto_length msg.headerbuffer 0 _ _).trans hbuffer
    rw [hbuffer, List.length_append, IdBytes.length_eq]
    decide
  logSize_eq _ _ := rfl

/-- A number of lost messages, and a log message with one byte of payload. -/
def twoMessages : List StreamMessage :=
  [.fixed .overflow [3, 0, 0, 0, 65, 80, 80, 49], .log [32, 0, 0, 5, 7]]

/-- The stream is cut inside the second user header. -/
def cutInHeader : List Delivery :=
  [⟨fun _ => 0, (streamBytes twoMessages).take 20⟩,
    ⟨fun _ => 0, (streamBytes twoMessages).drop 20⟩]

theorem cutInHeader_meets : RunMeets sendingActions false twoMessages
    ⟨.start mctReceiverInitGlobalBuffer mctMessageInit (), []⟩ cutInHeader := by
  refine ⟨⟨by decide, by decide, by decide, by decide, ?_⟩,
    ⟨by decide, by decide, by decide, by decide, ?_⟩, trivial⟩
  · exact ⟨trivial, fun h => absurd rfl h, trivial⟩
  · exact ⟨trivial, fun h => absurd rfl h, trivial⟩

theorem cutInHeader_framed :
    List.Forall₂ StreamMessage.Announces twoMessages
        (rounds sendingActions false ⟨.start mctReceiverInitGlobalBuffer mctMessageInit (), []⟩
          cutInHeader).stream.commands ∧
      (rounds sendingActions false ⟨.start mctReceiverInitGlobalBuffer mctMessageInit (), []⟩
        cutInHeader).rest = [] :=
  ((rounds_framed sendingActions false (fun _ => Option.some_ne_none _) sendingActions_keepsSizes
    (by decide) rfl () (by decide) cutInHeader_meets).2 (by decide)).2

/-- The application `APP1` with the description `A`. -/
def registration : List StreamMessage :=
  [.described .application [65, 80, 80, 49, 9, 0, 0, 0, 1, 0, 0, 0] [65]]

/-- The stream is cut behind the payload: the byte behind the received ones is
taken for the description, more is removed than was received, and nothing is
dispatched. -/
theorem cutDescription_not_framed :
    ¬ Framed quietActions ⟨mctMessageInit, (), []⟩ registration (streamBytes registration)
      (rounds quietActions false ⟨.start mctReceiverInitGlobalBuffer mctMessageInit (), []⟩
        [⟨fun _ => 0, (streamBytes registration).take 20⟩,
          ⟨fun _ => 0, (streamBytes registration).drop 20⟩]) := by
  intro hframed
  have hcommands := congrArg Dispatched.commands hframed.dispatched
  revert hcommands
  decide

end Rounds

end MctDaemon.Daemon
