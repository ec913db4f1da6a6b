import MctDaemon.Shared.Receiver
import MctDaemon.User.StoredMessages

/-!
The messages of the daemon to an application, as the library receives and acts
on them (`mct_user_log_check_user_message`). A function of the application is
given by a number, and so are the addresses of its variables. `poll` has found
the connection readable, and `read` delivers what a round is given.
-/

namespace MctDaemon.User

open Lib Shared

def mctUserMessageLogLevel : Nat := 6
def mctUserMessageInjection : Nat := 7
def mctUserMessageLogState : Nat := 12
def mctUserMessageSetBlockMode : Nat := 14

def sizeofMctUserControlMsgLogLevel : Nat := 6
def sizeofMctUserControlMsgInjection : Nat := 12
def sizeofMctUserControlMsgLogState : Nat := 1
def sizeofMctUserControlMsgBlockMode : Nat := 1

def mctUserRcvbufMaxSize : Nat := 10024

def mctModeNonBlocking : Int8 := 0
def mctModeBlocking : Int8 := 1

structure MctUserInjectionCallback where
  serviceId : Nat
  injectionCallback : Option Nat
  injectionCallbackWithId : Option Nat
  data : Nat
  deriving DecidableEq, Repr

structure MctLlTsType where
  contextID : IdBytes
  logLevel : Int8
  logLevelPtr : Option Nat
  traceStatus : Int8
  traceStatusPtr : Option Nat
  injectionTable : List MctUserInjectionCallback
  logLevelChangedCallback : Option Nat
  deriving DecidableEq

/-- `MctUserLogLevelChangedCallback`, once its function is set. -/
structure MctUserLogLevelChangedCallback where
  callback : Nat
  contextID : IdBytes
  logLevel : Int8
  traceStatus : Int8
  deriving DecidableEq

/-- What the library does outside `mct_user`, and which entries of `mct_ll_ts` it
reads or writes. -/
inductive UserEffect where
  | entryUsed (pos : Int)
  | stored (ptr : Nat) (value : Int8)
  | logLevelChanged (change : MctUserLogLevelChangedCallback)
  | injected (callback serviceId : Nat) (data : List UInt8)
  | injectedWithId (callback serviceId : Nat) (data : List UInt8) (privData : Nat)
  deriving DecidableEq

/-- The fields of `mct_user` that the messages concern. The array `mct_ll_ts` is
given with whatever lies in front of it and behind it. -/
structure UserLevels where
  mctLlTs : Option (Int → MctLlTsType)
  mctLlTsNumEntries : Nat
  logState : Int8
  blockMode : Int8
  forceBlocking : Bool
  effects : List UserEffect

namespace UserLevels

def withEffects (s : UserLevels) (effects : List UserEffect) : UserLevels :=
  { s with effects := s.effects ++ effects }

end UserLevels

/-- `*ptr = value`, if there is a pointer. -/
def storeThrough (ptr : Option Nat) (value : Int8) : List UserEffect :=
  match ptr with
  | none => []
  | some ptr => [.stored ptr value]

/-- The case of a LOG_LEVEL message up to the call of the callback. The callback
to call is left as it was if the position is outside the table. -/
def updateLogLevel (s : UserLevels) (delayed : Option MctUserLogLevelChangedCallback)
    (logLevel traceStatus : UInt8) (logLevelPos : Int) :
    UserLevels × Option MctUserLogLevelChangedCallback :=
  if 0 ≤ logLevelPos ∧ logLevelPos < int32 s.mctLlTsNumEntries then
    match s.mctLlTs with
    | none => (s, delayed)
    | some entries =>
        let entry := { entries logLevelPos with
          logLevel := logLevel.toInt8
          traceStatus := traceStatus.toInt8 }
        ({ s with mctLlTs := some (Function.update entries logLevelPos entry) }.withEffects
            (.entryUsed logLevelPos :: (storeThrough entry.logLevelPtr entry.logLevel ++
              storeThrough entry.traceStatusPtr entry.traceStatus)),
          entry.logLevelChangedCallback.map fun callback =>
            ⟨callback, entry.contextID, entry.logLevel, entry.traceStatus⟩)
  else (s, delayed)

def callLogLevelChanged (s : UserLevels) (delayed : Option MctUserLogLevelChangedCallback) :
    UserLevels :=
  match delayed with
  | none => s
  | some change => s.withEffects [.logLevelChanged change]

/-- The delayed call of an injection callback. The function that was called is
cleared, so that none is left for the next message. -/
def callInjection (s : UserLevels) (item : MctUserInjectionCallback) (data : List UInt8) :
    UserLevels :=
  match item.injectionCallback with
  | some callback => s.withEffects [.injected callback item.serviceId data]
  | none =>
      match item.injectionCallbackWithId with
      | some callback => s.withEffects [.injectedWithId callback item.serviceId data item.data]
      | none => s

/-- The case of an INJECTION message; nothing if the copy of its data cannot be
allocated. -/
def inject (malloc : Malloc) (s : UserLevels) (logLevelPos : Int) (serviceId : Nat)
    (dataLengthInject : Nat) (userbuffer : List UInt8) : Option UserLevels :=
  match s.mctLlTs with
  | none => some s
  | some entries =>
      if 0 < dataLengthInject then
        let s := s.withEffects [.entryUsed logLevelPos]
        match (entries logLevelPos).injectionTable.find? (·.serviceId = serviceId) with
        | none => some s
        | some item =>
            match malloc.block dataLengthInject with
            | none => none
            | some _ => some (callInjection s item (userbuffer.take dataLengthInject))
      else some s

def mctUserSetBlockmode (s : UserLevels) (mode : Int8) : UserLevels :=
  if mode < mctModeNonBlocking ∨ mctModeBlocking < mode then s else { s with blockMode := mode }

def setBlockMode (s : UserLevels) (mode : Int8) : UserLevels :=
  if s.forceBlocking then s else mctUserSetBlockmode s mode

/-- The resync: how far the next complete user header is away. -/
def userHeaderOffset : List UInt8 → Option Nat
  | [] => none
  | byte :: bytes =>
      if (byte :: bytes).length < sizeofMctUserHeader then none
      else if mctUserCheckUserheader (byte :: bytes) then some 0
      else (userHeaderOffset bytes).map (· + 1)

/-- The state of a round of `mct_user_log_check_user_message`. -/
structure UserRound where
  receiver : MctReceiver
  levels : UserLevels
  delayed : Option MctUserLogLevelChangedCallback

/-- How a pass of its loop ends. -/
inductive UserTurn where
  | leave (round : UserRound)
  | again (round : UserRound)
  | error (round : UserRound)

namespace UserRound

/-- A message is removed from the receiver. Only RETURN_ERROR, which it does not
answer here, would end the loop. -/
def remove (round : UserRound) (size : Nat) : UserRound :=
  { round with receiver := (mctReceiverRemove round.receiver size).2 }

/-- A message of fixed size is acted on if it is there completely. -/
def fixed (round : UserRound) (size : Nat) (act : UserRound → UserRound) : UserTurn :=
  if round.receiver.bytesRcvd < sizeofMctUserHeader + size then .leave round
  else .again ((act round).remove (sizeofMctUserHeader + size))

/-- The case of an INJECTION message once its length is known. The sizes are
compared as `int32_t`. -/
def injectionOf (malloc : Malloc) (round : UserRound) (bytes : List UInt8) (pos : Int)
    (serviceId dataLengthInject : Nat) (size : Int) : UserTurn :=
  if (round.receiver.bytesRcvd : Int) < size then .leave round
  else
    match inject malloc round.levels pos serviceId dataLengthInject
      (bytes.drop (sizeofMctUserHeader + sizeofMctUserControlMsgInjection)) with
    | none => .error round
    | some levels =>
        match mctReceiverRemove round.receiver size with
        | (.ok, receiver) => .again { round with receiver := receiver, levels := levels }
        | (_, receiver) => .error { round with receiver := receiver, levels := levels }

def injection (malloc : Malloc) (round : UserRound) (bytes : List UInt8) : UserTurn :=
  if round.receiver.bytesRcvd < sizeofMctUserHeader + sizeofMctUserControlMsgInjection then
    .leave round
  else
    round.injectionOf malloc bytes (int32 (leNat (slice bytes 8 4))) (leNat (slice bytes 12 4))
      (leNat (slice bytes 16 4))
      (int32 ((sizeofMctUserHeader + sizeofMctUserControlMsgInjection + leNat (slice bytes 16 4) :
        Nat)))

def changeLevel (bytes : List UInt8) (round : UserRound) : UserRound :=
  let updated := updateLogLevel round.levels round.delayed (bytes.getD 8 0) (bytes.getD 9 0)
    (int32 (leNat (slice bytes 10 4)))
  { round with
    levels := callLogLevelChanged updated.1 updated.2
    delayed := updated.2 }

def changeLogState (bytes : List UInt8) (round : UserRound) : UserRound :=
  { round with levels := { round.levels with logState := (bytes.getD 8 0).toInt8 } }

def changeBlockMode (bytes : List UInt8) (round : UserRound) : UserRound :=
  { round with levels := setBlockMode round.levels (bytes.getD 8 0).toInt8 }

/-- The switch over the type of the message at the start of `bytes`. -/
def dispatch (malloc : Malloc) (round : UserRound) (bytes : List UInt8) (message : Nat) :
    UserTurn :=
  if message = mctUserMessageLogLevel then
    round.fixed sizeofMctUserControlMsgLogLevel (changeLevel bytes)
  else if message = mctUserMessageInjection then round.injection malloc bytes
  else if message = mctUserMessageLogState then
    round.fixed sizeofMctUserControlMsgLogState (changeLogState bytes)
  else if message = mctUserMessageSetBlockMode then
    round.fixed sizeofMctUserControlMsgBlockMode (changeBlockMode bytes)
  else .again (round.remove sizeofMctUserHeader)

def turn (malloc : Malloc) (mem : List UInt8) (round : UserRound) : UserTurn :=
  if round.receiver.bytesRcvd < sizeofMctUserHeader then .leave round
  else
    match userHeaderOffset (round.receiver.presented mem) with
    | none => .leave round
    | some offset =>
        let receiver := { round.receiver with
          buf := round.receiver.buf + offset
          bytesRcvd := round.receiver.bytesRcvd - offset }
        let bytes := receiver.presented mem
        dispatch malloc { round with receiver := receiver } bytes (leNat (slice bytes 4 4))

end UserRound

section Termination

variable {round next : UserRound}

theorem UserRound.fixed_again {size : Nat} (act : UserRound → UserRound)
    (hact : ∀ round, (act round).receiver = round.receiver)
    (h : round.fixed size act = .again next) :
    next.receiver.bytesRcvd < round.receiver.bytesRcvd := by
  unfold UserRound.fixed at h
  split at h
  · cases h
  · rename_i hsize
    cases h
    have hne : round.receiver.bytesRcvd ≠ 0 := by
      unfold sizeofMctUserHeader at hsize
      omega
    change (mctReceiverRemove (act round).receiver _).2.bytesRcvd < _
    rw [hact]
    exact mctReceiverRemove_lt _ _ hne

theorem UserRound.injectionOf_again {malloc : Malloc} {bytes : List UInt8} {pos size : Int}
    {serviceId dataLengthInject : Nat} (hne : round.receiver.bytesRcvd ≠ 0)
    (h : round.injectionOf malloc bytes pos serviceId dataLengthInject size = .again next) :
    next.receiver.bytesRcvd < round.receiver.bytesRcvd := by
  unfold UserRound.injectionOf at h
  split at h
  · cases h
  · split at h
    · cases h
    · split at h
      · rename_i receiver hremove
        cases h
        have hlt := mctReceiverRemove_lt round.receiver size hne
        rw [hremove] at hlt
        exact hlt
      · cases h

theorem UserRound.injection_again {malloc : Malloc} {bytes : List UInt8}
    (h : round.injection malloc bytes = .again next) :
    next.receiver.bytesRcvd < round.receiver.bytesRcvd := by
  unfold UserRound.injection at h
  split at h
  · cases h
  · rename_i hsize
    have hne : round.receiver.bytesRcvd ≠ 0 := by
      intro hzero
      exact hsize (by rw [hzero]; decide)
    exact UserRound.injectionOf_again hne h

-- a case split, since comparing the levels of both sides would compute positions
theorem UserRound.changeLevel_receiver (bytes : List UInt8) (round : UserRound) :
    (round.changeLevel bytes).receiver = round.receiver := by
  obtain ⟨receiver, levels, delayed⟩ := round
  rfl

theorem UserRound.changeLogState_receiver (bytes : List UInt8) (round : UserRound) :
    (round.changeLogState bytes).receiver = round.receiver := by
  obtain ⟨receiver, levels, delayed⟩ := round
  rfl

theorem UserRound.changeBlockMode_receiver (bytes : List UInt8) (round : UserRound) :
    (round.changeBlockMode bytes).receiver = round.receiver := by
  obtain ⟨receiver, levels, delayed⟩ := round
  rfl

theorem UserRound.dispatch_again {malloc : Malloc} {bytes : List UInt8} {message : Nat}
    (hpos : round.receiver.bytesRcvd ≠ 0) (h : round.dispatch malloc bytes message = .again next) :
    next.receiver.bytesRcvd < round.receiver.bytesRcvd := by
  unfold UserRound.dispatch at h
  split at h
  · exact UserRound.fixed_again _ (UserRound.changeLevel_receiver bytes) h
  · split at h
    · exact UserRound.injection_again h
    · split at h
      · exact UserRound.fixed_again _ (UserRound.changeLogState_receiver bytes) h
      · split at h
        · exact UserRound.fixed_again _ (UserRound.changeBlockMode_receiver bytes) h
        · cases h
          exact mctReceiverRemove_lt _ _ hpos

theorem userHeaderOffset_lt {bytes : List UInt8} {offset : Nat}
    (h : userHeaderOffset bytes = some offset) : offset + sizeofMctUserHeader ≤ bytes.length := by
  induction bytes generalizing offset with
  | nil => cases h
  | cons byte bytes ih =>
      unfold userHeaderOffset at h
      split at h
      · cases h
      · rename_i hlength
        split at h
        · cases h
          omega
        · obtain ⟨rest, hrest, rfl⟩ := Option.map_eq_some_iff.mp h
          have hle := ih hrest
          rw [List.length_cons]
          omega

/-- Every pass that goes on has removed bytes. -/
theorem UserRound.turn_again {malloc : Malloc} {mem : List UInt8}
    (h : round.turn malloc mem = .again next) :
    next.receiver.bytesRcvd < round.receiver.bytesRcvd := by
  unfold UserRound.turn at h
  split at h
  · cases h
  · split at h
    · cases h
    · rename_i offset hoffset
      have hinside := userHeaderOffset_lt hoffset
      have hlength : (round.receiver.presented mem).length ≤ round.receiver.bytesRcvd :=
        List.length_take_le _ _
      have hlt := UserRound.dispatch_again (by
        change round.receiver.bytesRcvd - offset ≠ 0
        unfold sizeofMctUserHeader at hinside
        omega) h
      exact lt_of_lt_of_le hlt (Nat.sub_le _ _)

end Termination

/-- The loop over the messages in the buffer: whether it ended without an error,
and the state then. -/
def userLoop (malloc : Malloc) (mem : List UInt8) (round : UserRound) : Bool × UserRound :=
  match _hturn : round.turn malloc mem with
  | .leave next => (true, next)
  | .error next => (false, next)
  | .again next => userLoop malloc mem next
termination_by round.receiver.bytesRcvd
decreasing_by exact UserRound.turn_again _hturn

/-- The library as far as it receives. -/
structure UserReceiver where
  mem : List UInt8
  receiver : MctReceiver
  levels : UserLevels

def mctUserLogCheckUserMessage (malloc : Malloc) (u : UserReceiver) (incoming : List UInt8) :
    MctReturnValue × UserReceiver :=
  let (received, mem, receiver) := mctReceiverReceive u.mem u.receiver incoming
  if received = 0 then (.ok, { u with mem := mem, receiver := receiver })
  else
    match userLoop malloc mem ⟨receiver, u.levels, none⟩ with
    | (false, round) => (.error, ⟨mem, round.receiver, round.levels⟩)
    | (true, round) => (.ok, ⟨mem, mctReceiverMoveToBegin malloc mem round.receiver, round.levels⟩)

end MctDaemon.User
