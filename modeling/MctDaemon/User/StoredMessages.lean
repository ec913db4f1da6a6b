import MctDaemon.User.LogWrite

/-!
The user messages that the library sends to the daemon, as bytes. A message that
could not be sent is stored in the startup buffer in this form.
-/

namespace MctDaemon.User

open Lib Shared

section Ids

/-- The four bytes of an identifier in a message. -/
structure IdBytes where
  bytes : List UInt8
  length_eq : bytes.length = mctIdSize
  deriving Repr

namespace IdBytes

/-- `id[0] == '\0'`. -/
def isEmpty (id : IdBytes) : Bool := id.bytes.head? = some 0

theorem ext {a b : IdBytes} (h : a.bytes = b.bytes) : a = b := by
  cases a
  cases b
  cases h
  rfl

theorem bytes_eq_iff (a b : IdBytes) : a.bytes = b.bytes ↔ a = b :=
  ⟨ext, congrArg bytes⟩

instance : DecidableEq IdBytes := fun a b =>
  decidable_of_iff (a.bytes = b.bytes) (bytes_eq_iff a b)

theorem take_length (text : List UInt8) :
    ((text.take mctIdSize).takeWhile (· ≠ 0)).length ≤ mctIdSize :=
  ((List.takeWhile_prefix _).length_le).trans (List.length_take_le _ _)

end IdBytes

def setIdBytes (text : List UInt8) : IdBytes where
  bytes := (text.take mctIdSize).takeWhile (· ≠ 0) ++
    List.replicate (mctIdSize - ((text.take mctIdSize).takeWhile (· ≠ 0)).length) 0
  length_eq := by
    have hlength := IdBytes.take_length text
    rw [List.length_append, List.length_replicate]
    omega

end Ids

section Headers

def mctUserMessageLog : Nat := 1
def mctUserMessageRegisterApplication : Nat := 2
def mctUserMessageUnregisterApplication : Nat := 3
def mctUserMessageRegisterContext : Nat := 4
def mctUserMessageUnregisterContext : Nat := 5
def mctUserMessageOverflow : Nat := 8
def mctUserMessageAppLlTs : Nat := 9
def mctUserMessageMarker : Nat := 13

def userHeaderPattern : List UInt8 := [68, 85, 72, 1]

def mctUserCheckUserheader (mem : List UInt8) : Bool := mem.take 4 = userHeaderPattern

def userHeader (mtype : Nat) : List UInt8 := userHeaderPattern ++ leBytes 4 mtype

def sizeofMctUserHeader : Nat := 8
def sizeofMctStandardHeader : Nat := 4
def sizeofMctStandardHeaderExtra : Nat := 12
def sizeofMctExtendedHeader : Nat := 10

def beBytes (width n : Nat) : List UInt8 := (leBytes width n).reverse

@[simp] theorem beBytes_length (width n : Nat) : (beBytes width n).length = width := by
  simp [beBytes]

end Headers

section Header

variable {mtype : Nat}

@[simp] theorem userHeader_length (mtype : Nat) : (userHeader mtype).length = 8 := by
  simp [userHeader, userHeaderPattern]

theorem checkUserheader_append (mtype : Nat) (tail : List UInt8) :
    mctUserCheckUserheader (userHeader mtype ++ tail) = true := by
  simp [mctUserCheckUserheader, userHeader, userHeaderPattern]

theorem read_mtype (hmtype : mtype < 4294967296) (tail : List UInt8) :
    leNat (slice (userHeader mtype ++ tail) 4 4) = mtype := by
  have hslice : slice (userHeader mtype ++ tail) 4 4 = leBytes 4 mtype := by
    simp [slice, userHeader, userHeaderPattern]
  rw [hslice, leNat_leBytes 4 mtype (by omega)]

end Header

section Logs

structure ExtendedHeader where
  msin : UInt8
  noar : UInt8
  apid : IdBytes
  ctid : IdBytes
  deriving DecidableEq, Repr

def ExtendedHeader.bytes (header : ExtendedHeader) : List UInt8 :=
  [header.msin, header.noar] ++ header.apid.bytes ++ header.ctid.bytes

/-- A log or trace message. The fields of the extra header are there or not, as
their switches say. -/
structure LogMessage where
  mcnt : UInt8
  ecu : Option IdBytes
  seid : Option UInt32
  tmsp : Option UInt32
  extended : Option ExtendedHeader
  payload : List UInt8
  deriving DecidableEq, Repr

namespace LogMessage

def mctHtypProtocolVersion1 : UInt8 := 0x20
def mctHtypUeh : UInt8 := 0x01
def mctHtypWeid : UInt8 := 0x04
def mctHtypWsid : UInt8 := 0x08
def mctHtypWtms : UInt8 := 0x10

def htyp (message : LogMessage) : UInt8 :=
  let htyp := mctHtypProtocolVersion1
  let htyp := if message.ecu.isSome then htyp ||| mctHtypWeid else htyp
  let htyp := if message.tmsp.isSome then htyp ||| mctHtypWtms else htyp
  let htyp := if message.seid.isSome then htyp ||| mctHtypWsid else htyp
  if message.extended.isSome then htyp ||| mctHtypUeh else htyp

/-- `mct_message_set_extraparameters`: the fields one behind the other. -/
def extraBytes (message : LogMessage) : List UInt8 :=
  message.ecu.elim [] IdBytes.bytes ++ message.seid.elim [] (fun seid => beBytes 4 seid.toNat) ++
    message.tmsp.elim [] fun tmsp => beBytes 4 tmsp.toNat

/-- `len`: the message without its user header. -/
def len (message : LogMessage) : Nat :=
  sizeofMctStandardHeader + message.extraBytes.length +
    (message.extended.elim [] ExtendedHeader.bytes).length + message.payload.length

/-- The message up to its extended header. -/
def front (message : LogMessage) : List UInt8 :=
  userHeader mctUserMessageLog ++ [message.htyp, message.mcnt] ++ beBytes 2 message.len ++
    message.extraBytes

def bytes (message : LogMessage) : List UInt8 :=
  message.front ++ message.extended.elim [] ExtendedHeader.bytes ++ message.payload

end LogMessage

/-- The settings and the identity that a log message takes from `mct_user`. -/
structure LogSettings where
  withEcuId : Bool
  withSessionId : Bool
  withTimestamp : Bool
  useExtendedHeaderForNonVerbose : Bool
  verboseMode : Bool
  ecuID : List UInt8
  appID : List UInt8
  sessionId : UInt32
  deriving DecidableEq, Repr

structure LogContext where
  contextID : List UInt8
  mcnt : UInt8
  logLevel : Int
  traceStatus : Int
  timestamp : UInt32
  deriving DecidableEq, Repr

inductive MctMessageType where
  | log
  | nwTrace
  deriving DecidableEq, Repr

/-- `msin`: type, level and the flag for the verbose mode. -/
def messageInfo (context : LogContext) (mtype : MctMessageType) (verbose : Bool) : UInt8 :=
  let (mstp, level) : UInt8 × Int := match mtype with
    | .log => (0, context.logLevel)
    | .nwTrace => (2, context.traceStatus)
  let msin := (mstp <<< 1) ||| ((level * 16 % 256).toNat.toUInt8 &&& 0xf0)
  if verbose then msin ||| 1 else msin

/-- The message that `mct_user_log_send_log` builds for the daemon, none if it
is refused. -/
def mctUserLogSendLog (settings : LogSettings) (context : LogContext) (log : MctContextData)
    (mtype : MctMessageType) : Option LogMessage :=
  if context.contextID.head? = some 0 then none
  else
    let verbose := settings.verboseMode || log.verboseMode
    let message : LogMessage :=
      { mcnt := context.mcnt
        ecu := if settings.withEcuId then some (setIdBytes settings.ecuID) else none
        seid := if settings.withSessionId then some settings.sessionId else none
        tmsp := if settings.withTimestamp then some context.timestamp else none
        extended :=
          if verbose || settings.useExtendedHeaderForNonVerbose then
            some
              { msin := messageInfo context mtype verbose
                noar := log.argsNum.toUInt8
                apid := setIdBytes settings.appID
                ctid := setIdBytes context.contextID }
          else none
        payload := log.buffer.take log.size }
    if message.len > 65535 then none else some message

end Logs

section Messages

inductive UserMessage where
  | registerApplication (apid : IdBytes) (pid : UInt32) (description : List UInt8)
  | unregisterApplication (apid : IdBytes) (pid : UInt32)
  | registerContext (apid ctid : IdBytes) (logLevelPos : UInt32) (logLevel traceStatus : UInt8)
      (pid : UInt32) (description : List UInt8)
  | unregisterContext (apid ctid : IdBytes) (pid : UInt32)
  | overflow (overflowCounter : UInt32) (apid : IdBytes)
  | appLlTs (apid : IdBytes) (logLevel traceStatus : UInt8)
  | marker
  | log (message : LogMessage)
  deriving DecidableEq, Repr

namespace UserMessage

/-- What `mct_user_log_out2` and `mct_user_log_out3` write, and what is stored
where they fail. -/
def bytes : UserMessage → List UInt8
  | registerApplication apid pid description =>
      userHeader mctUserMessageRegisterApplication ++ apid.bytes ++ leBytes 4 pid.toNat ++
        leBytes 4 description.length ++ description
  | unregisterApplication apid pid =>
      userHeader mctUserMessageUnregisterApplication ++ apid.bytes ++ leBytes 4 pid.toNat
  | registerContext apid ctid logLevelPos logLevel traceStatus pid description =>
      userHeader mctUserMessageRegisterContext ++ apid.bytes ++ ctid.bytes ++
        leBytes 4 logLevelPos.toNat ++ [logLevel, traceStatus] ++ leBytes 4 pid.toNat ++
        leBytes 4 description.length ++ description
  | unregisterContext apid ctid pid =>
      userHeader mctUserMessageUnregisterContext ++ apid.bytes ++ ctid.bytes ++
        leBytes 4 pid.toNat
  | overflow overflowCounter apid =>
      userHeader mctUserMessageOverflow ++ leBytes 4 overflowCounter.toNat ++ apid.bytes
  | appLlTs apid logLevel traceStatus =>
      userHeader mctUserMessageAppLlTs ++ apid.bytes ++ [logLevel, traceStatus]
  | marker => userHeader mctUserMessageMarker
  | log message => message.bytes

end UserMessage

end Messages

end MctDaemon.User
