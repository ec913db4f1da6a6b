import MctDaemon.Daemon.ClientControl
import MctDaemon.Shared.Message
import MctDaemon.User.StoredMessages

/-!
The control requests of the client library (`mct_client.c`). Every call fills the payload of its
service, and `mct_client_send_ctrl_msg` writes it behind the headers of a control message.
-/

namespace MctDaemon.Client

open Lib Shared User Daemon

section Message

/-- `MctClient`, as far as requests are built from it. -/
structure MctClient where
  ecuid : List UInt8
  sendSerialHeader : Bool
  deriving DecidableEq, Repr

/-- `MCT_CLIENT_DUMMY_APP_ID`, `"CA1"`. -/
def mctClientDummyAppId : List UInt8 := [67, 65, 49]

/-- `MCT_CLIENT_DUMMY_CON_ID`, `"CC1"`. -/
def mctClientDummyConId : List UInt8 := [67, 67, 49]

/-- `MCT_HTYP_WEID | MCT_HTYP_WTMS | MCT_HTYP_UEH | MCT_HTYP_PROTOCOL_VERSION1`. -/
def controlHtyp : UInt8 := 0x35

def mctMsinControlRequest : UInt8 := 0x16

def headerId (text dummy : List UInt8) : IdBytes :=
  setIdBytes (if text.headD 0 = 0 then dummy else text)

variable (client : MctClient) (tmsp : UInt32) (apid ctid payload : List UInt8)

/-- The headers of a request with `len` bytes, at the uptime `tmsp`. -/
def controlHeaderBytes (len : Nat) : List UInt8 :=
  [controlHtyp, 0] ++ beBytes 2 len ++ (setIdBytes client.ecuid).bytes ++ beBytes 4 tmsp.toNat ++
    [mctMsinControlRequest, 1] ++ (headerId apid mctClientDummyAppId).bytes ++
    (headerId ctid mctClientDummyConId).bytes

def sizeofControlHeaders : Nat := 22

/-- `mct_client_send_ctrl_msg`: the returned value, and what is written to the socket. -/
def mctClientSendCtrlMsg : MctReturnValue × List UInt8 :=
  let len := int32 (sizeofControlHeaders + payload.length)
  if 65535 < len then (.error, [])
  else
    (.ok, (if client.sendSerialHeader then mctSerialHeader else []) ++
      controlHeaderBytes client tmsp apid ctid len.toNat ++ payload)

end Message

section Calls

def mctServiceIdGetDefaultLogLevel : Nat := 0x04
def mctServiceIdStoreConfig : Nat := 0x05
def mctServiceIdResetToFactoryDefault : Nat := 0x06
def mctServiceIdGetSoftwareVersion : Nat := 0x13

/-- The interface that is named in a request, `"remo"`. -/
def com : IdBytes := setIdBytes [114, 101, 109, 111]

/-- `"APP"` and `"CON"`. -/
def appId : List UInt8 := [65, 80, 80]
def conId : List UInt8 := [67, 79, 78]

def contextRequest (serviceId : Nat) (apid ctid : List UInt8) (logLevel : UInt8) : List UInt8 :=
  leBytes 4 serviceId ++ (setIdBytes apid).bytes ++ (setIdBytes ctid).bytes ++ [logLevel] ++
    com.bytes

def levelRequest (serviceId : Nat) (logLevel : UInt8) : List UInt8 :=
  leBytes 4 serviceId ++ [logLevel] ++ com.bytes

def logInfoRequest (options : UInt8) : List UInt8 :=
  leBytes 4 mctServiceIdGetLogInfo ++ [options] ++ (setIdBytes []).bytes ++
    (setIdBytes []).bytes ++ com.bytes

def statusRequest (serviceId : Nat) (newStatus : UInt8) : List UInt8 :=
  leBytes 4 serviceId ++ [newStatus]

def injectionRequest (serviceId : UInt32) (buffer : List UInt8) : List UInt8 :=
  leBytes 4 serviceId.toNat ++ leBytes 4 buffer.length ++ buffer

variable (client : MctClient) (tmsp : UInt32)

def mctClientSendLogLevel (apid ctid : List UInt8) (logLevel : UInt8) :
    MctReturnValue × List UInt8 :=
  mctClientSendCtrlMsg client tmsp appId conId
    (contextRequest mctServiceIdSetLogLevel apid ctid logLevel)

def mctClientSendTraceStatus (apid ctid : List UInt8) (traceStatus : UInt8) :
    MctReturnValue × List UInt8 :=
  mctClientSendCtrlMsg client tmsp appId conId
    (contextRequest mctServiceIdSetTraceStatus apid ctid traceStatus)

def mctClientGetLogInfo : MctReturnValue × List UInt8 :=
  mctClientSendCtrlMsg client tmsp [] [] (logInfoRequest 7)

def mctClientGetDefaultLogLevel : MctReturnValue × List UInt8 :=
  mctClientSendCtrlMsg client tmsp [] [] (leBytes 4 mctServiceIdGetDefaultLogLevel)

def mctClientGetSoftwareVersion : MctReturnValue × List UInt8 :=
  mctClientSendCtrlMsg client tmsp [] [] (leBytes 4 mctServiceIdGetSoftwareVersion)

def mctClientSendDefaultLogLevel (defaultLogLevel : UInt8) : MctReturnValue × List UInt8 :=
  mctClientSendCtrlMsg client tmsp appId conId
    (levelRequest mctServiceIdSetDefaultLogLevel defaultLogLevel)

def mctClientSendAllLogLevel (logLevel : UInt8) : MctReturnValue × List UInt8 :=
  mctClientSendCtrlMsg client tmsp appId conId
    (levelRequest mctServiceIdSetAllLogLevel logLevel)

def mctClientSendDefaultTraceStatus (defaultTraceStatus : UInt8) : MctReturnValue × List UInt8 :=
  mctClientSendCtrlMsg client tmsp appId conId
    (levelRequest mctServiceIdSetDefaultTraceStatus defaultTraceStatus)

def mctClientSendAllTraceStatus (traceStatus : UInt8) : MctReturnValue × List UInt8 :=
  mctClientSendCtrlMsg client tmsp appId conId
    (levelRequest mctServiceIdSetAllTraceStatus traceStatus)

def mctClientSendTimingPakets (timingPakets : UInt8) : MctReturnValue × List UInt8 :=
  mctClientSendCtrlMsg client tmsp appId conId
    (statusRequest mctServiceIdSetTimingPackets timingPakets)

def mctClientSendStoreConfig : MctReturnValue × List UInt8 :=
  mctClientSendCtrlMsg client tmsp appId conId (leBytes 4 mctServiceIdStoreConfig)

def mctClientSendResetToFactoryDefault : MctReturnValue × List UInt8 :=
  mctClientSendCtrlMsg client tmsp appId conId (leBytes 4 mctServiceIdResetToFactoryDefault)

def mctClientSendInjectMsg (apid ctid : List UInt8) (serviceID : UInt32) (buffer : List UInt8) :
    MctReturnValue × List UInt8 :=
  mctClientSendCtrlMsg client tmsp apid ctid (injectionRequest serviceID buffer)

/-- A call of the library that sends a request. -/
inductive ClientCall where
  | sendLogLevel (apid ctid : List UInt8) (logLevel : UInt8)
  | sendTraceStatus (apid ctid : List UInt8) (traceStatus : UInt8)
  | getLogInfo
  | getDefaultLogLevel
  | getSoftwareVersion
  | sendDefaultLogLevel (defaultLogLevel : UInt8)
  | sendAllLogLevel (logLevel : UInt8)
  | sendDefaultTraceStatus (defaultTraceStatus : UInt8)
  | sendAllTraceStatus (traceStatus : UInt8)
  | sendTimingPakets (timingPakets : UInt8)
  | sendStoreConfig
  | sendResetToFactoryDefault
  | sendInjectMsg (apid ctid : List UInt8) (serviceID : UInt32) (buffer : List UInt8)
  deriving DecidableEq, Repr

namespace ClientCall

def send : ClientCall → MctReturnValue × List UInt8
  | sendLogLevel apid ctid logLevel => mctClientSendLogLevel client tmsp apid ctid logLevel
  | sendTraceStatus apid ctid traceStatus =>
      mctClientSendTraceStatus client tmsp apid ctid traceStatus
  | getLogInfo => mctClientGetLogInfo client tmsp
  | getDefaultLogLevel => mctClientGetDefaultLogLevel client tmsp
  | getSoftwareVersion => mctClientGetSoftwareVersion client tmsp
  | sendDefaultLogLevel level => mctClientSendDefaultLogLevel client tmsp level
  | sendAllLogLevel logLevel => mctClientSendAllLogLevel client tmsp logLevel
  | sendDefaultTraceStatus status => mctClientSendDefaultTraceStatus client tmsp status
  | sendAllTraceStatus traceStatus => mctClientSendAllTraceStatus client tmsp traceStatus
  | sendTimingPakets timingPakets => mctClientSendTimingPakets client tmsp timingPakets
  | sendStoreConfig => mctClientSendStoreConfig client tmsp
  | sendResetToFactoryDefault => mctClientSendResetToFactoryDefault client tmsp
  | sendInjectMsg apid ctid serviceID buffer =>
      mctClientSendInjectMsg client tmsp apid ctid serviceID buffer

def serviceId : ClientCall → Nat
  | sendLogLevel _ _ _ => mctServiceIdSetLogLevel
  | sendTraceStatus _ _ _ => mctServiceIdSetTraceStatus
  | getLogInfo => mctServiceIdGetLogInfo
  | getDefaultLogLevel => mctServiceIdGetDefaultLogLevel
  | getSoftwareVersion => mctServiceIdGetSoftwareVersion
  | sendDefaultLogLevel _ => mctServiceIdSetDefaultLogLevel
  | sendAllLogLevel _ => mctServiceIdSetAllLogLevel
  | sendDefaultTraceStatus _ => mctServiceIdSetDefaultTraceStatus
  | sendAllTraceStatus _ => mctServiceIdSetAllTraceStatus
  | sendTimingPakets _ => mctServiceIdSetTimingPackets
  | sendStoreConfig => mctServiceIdStoreConfig
  | sendResetToFactoryDefault => mctServiceIdResetToFactoryDefault
  | sendInjectMsg _ _ serviceID _ => serviceID.toNat

/-- What a request carries behind the id of its service. -/
def fields : ClientCall → List UInt8
  | sendLogLevel apid ctid level | sendTraceStatus apid ctid level =>
      (setIdBytes apid).bytes ++ (setIdBytes ctid).bytes ++ [level] ++ com.bytes
  | getLogInfo => [7] ++ (setIdBytes []).bytes ++ (setIdBytes []).bytes ++ com.bytes
  | getDefaultLogLevel | getSoftwareVersion | sendStoreConfig | sendResetToFactoryDefault => []
  | sendDefaultLogLevel level | sendAllLogLevel level | sendDefaultTraceStatus level
  | sendAllTraceStatus level => [level] ++ com.bytes
  | sendTimingPakets timingPakets => [timingPakets]
  | sendInjectMsg _ _ _ buffer => leBytes 4 buffer.length ++ buffer

def payload (call : ClientCall) : List UInt8 := leBytes 4 call.serviceId ++ call.fields

/-- The identifiers of the extended header, as they are given. -/
def apid : ClientCall → List UInt8
  | getLogInfo | getDefaultLogLevel | getSoftwareVersion => []
  | sendInjectMsg apid _ _ _ => apid
  | _ => appId

def ctid : ClientCall → List UInt8
  | getLogInfo | getDefaultLogLevel | getSoftwareVersion => []
  | sendInjectMsg _ ctid _ _ => ctid
  | _ => conId

/-- Every call sends the control message of its service. -/
theorem send_eq (call : ClientCall) :
    call.send client tmsp =
      mctClientSendCtrlMsg client tmsp call.apid call.ctid call.payload := by
  cases call with
  | sendLogLevel apid ctid level =>
      simp only [send, mctClientSendLogLevel, contextRequest, List.append_assoc, payload, fields,
        serviceId, ClientCall.apid, ClientCall.ctid]
  | sendTraceStatus apid ctid status =>
      simp only [send, mctClientSendTraceStatus, contextRequest, List.append_assoc, payload,
        fields, serviceId, ClientCall.apid, ClientCall.ctid]
  | getLogInfo => rfl
  | getDefaultLogLevel => rfl
  | getSoftwareVersion => rfl
  | sendDefaultLogLevel level => rfl
  | sendAllLogLevel level => rfl
  | sendDefaultTraceStatus status => rfl
  | sendAllTraceStatus status => rfl
  | sendTimingPakets status => rfl
  | sendStoreConfig => rfl
  | sendResetToFactoryDefault => rfl
  | sendInjectMsg apid ctid serviceID buffer =>
      simp only [send, mctClientSendInjectMsg, injectionRequest, List.append_assoc, payload,
        fields, serviceId, ClientCall.apid, ClientCall.ctid]

end ClientCall

end Calls

section Sent

/-- A call of the library at the uptime `tmsp`. -/
structure Request where
  tmsp : UInt32
  call : ClientCall
  deriving DecidableEq, Repr

namespace Request

variable (client : MctClient) (request : Request)

def result : MctReturnValue × List UInt8 := request.call.send client request.tmsp

/-- The library does not refuse the request. -/
def Accepted : Prop := sizeofControlHeaders + request.call.payload.length ≤ 65535

instance : Decidable request.Accepted := inferInstanceAs (Decidable (_ ≤ _))

/-- The length of the request can be said in an `int32_t`. -/
def Sized : Prop := sizeofControlHeaders + request.call.payload.length < 2147483648

instance : Decidable request.Sized := inferInstanceAs (Decidable (_ < _))

def header : List UInt8 :=
  controlHeaderBytes client request.tmsp request.call.apid request.call.ctid
    (sizeofControlHeaders + request.call.payload.length)

def bytes : List UInt8 :=
  (if client.sendSerialHeader then mctSerialHeader else []) ++
    (request.header client ++ request.call.payload)

/-- The request as it is read from a stream. -/
def message : ReadMessage where
  header := request.header client
  payload := request.call.payload
  foundSerialheader := client.sendSerialHeader
  removed := (request.bytes client).length

variable {client request}

theorem result_accepted (h : request.Accepted) :
    request.result client = (.ok, request.bytes client) := by
  have hsize : ((sizeofControlHeaders : Nat) : Int) + (request.call.payload.length : Int) =
      (sizeofControlHeaders + request.call.payload.length : Nat) := by
    push_cast
    rfl
  have hle : sizeofControlHeaders + request.call.payload.length ≤ 65535 := h
  rw [result, ClientCall.send_eq, mctClientSendCtrlMsg, hsize, int32_natCast (by omega),
    if_neg (by omega), Int.toNat_natCast, List.append_assoc]
  rfl

theorem result_refused (hsized : request.Sized) (h : ¬ request.Accepted) :
    request.result client = (.error, []) := by
  have hsize : ((sizeofControlHeaders : Nat) : Int) + (request.call.payload.length : Int) =
      (sizeofControlHeaders + request.call.payload.length : Nat) := by
    push_cast
    rfl
  have hlt : 65535 < sizeofControlHeaders + request.call.payload.length := not_le.mp h
  rw [result, ClientCall.send_eq, mctClientSendCtrlMsg, hsize, int32_natCast hsized,
    if_pos (by omega)]

theorem header_length : (request.header client).length = sizeofControlHeaders := by
  simp only [header, controlHeaderBytes, List.length_append, beBytes_length, IdBytes.length_eq,
    List.length_cons, List.length_nil]
  rfl

theorem take_standardHeader (more : List UInt8) :
    (request.header client ++ more).take sizeofStandardHeader =
      [controlHtyp, 0] ++ beBytes 2 (sizeofControlHeaders + request.call.payload.length) := by
  simp only [header, controlHeaderBytes, List.append_assoc]
  rfl

/-- The length in the standard header is that of the request. -/
theorem messageLength_header (h : request.Accepted) (more : List UInt8) :
    messageLength ((request.header client ++ more).take sizeofStandardHeader) =
      sizeofControlHeaders + request.call.payload.length := by
  have hle : sizeofControlHeaders + request.call.payload.length ≤ 65535 := h
  rw [take_standardHeader]
  generalize sizeofControlHeaders + request.call.payload.length = len at hle
  simp only [messageLength, beBytes, leBytes, List.reverse_cons, List.reverse_nil, List.nil_append,
    List.cons_append, List.getD_cons_succ, List.getD_cons_zero, Nat.toUInt8, UInt8.toNat_ofNat']
  omega

/-- The request that stands first in a stream is read. -/
theorem parseMessage_bytes {resync : Bool} (h : request.Accepted)
    (hresync : resync = true → client.sendSerialHeader = true) (more : List UInt8) :
    parseMessage resync (request.bytes client ++ more) =
      some (request.message client, (request.bytes client).length) := by
  have hheader : (request.header client).length = sizeofControlHeaders := header_length
  have hsizes : sizeofControlHeaders = 22 := rfl
  -- the serial header is told by its first byte
  have hlocate : locateHeader resync (request.bytes client ++ more) =
      some (client.sendSerialHeader,
        (if client.sendSerialHeader then mctSerialHeader else []).length) := by
    cases hserial : client.sendSerialHeader with
    | true =>
        simp only [bytes, hserial, if_true, List.append_assoc, locateHeader]
        rw [if_neg (by simp only [List.length_append]; omega), if_pos List.take_left]
    | false =>
        have hresyncOff : resync = false := by
          cases resync with
          | false => rfl
          | true => rw [hresync rfl] at hserial; cases hserial
        simp only [bytes, hserial, hresyncOff, locateHeader, Bool.false_eq_true, if_false,
          List.nil_append, List.append_assoc]
        have hlong : ¬ (request.header client ++ (request.call.payload ++ more)).length <
            mctSerialHeader.length := by
          rw [List.length_append, hheader, show mctSerialHeader.length = 4 from rfl]
          omega
        rw [if_neg hlong]
        apply if_neg
        rw [show mctSerialHeader.length = sizeofStandardHeader from rfl, take_standardHeader]
        intro hhead
        exact absurd (List.cons.inj hhead).1 (by decide)
  have hrest : (request.bytes client ++ more).drop
      (if client.sendSerialHeader then mctSerialHeader else []).length =
      request.header client ++ (request.call.payload ++ more) := by
    rw [bytes, List.append_assoc, List.drop_left, List.append_assoc]
  have hlength : (request.header client ++ (request.call.payload ++ more)).length =
      sizeofControlHeaders + (request.call.payload.length + more.length) := by
    rw [List.length_append, List.length_append, hheader]
  have hhead : sizeofStandardHeader + extraSize
      (((request.header client ++ (request.call.payload ++ more)).take
        sizeofStandardHeader).getD 0 0) = (request.header client).length := by
    rw [hheader, take_standardHeader]
    exact (by decide : sizeofStandardHeader + extraSize controlHtyp = sizeofControlHeaders)
  have hstandard : ¬ (request.header client ++ (request.call.payload ++ more)).length <
      sizeofStandardHeader := by
    rw [hlength, hsizes, show sizeofStandardHeader = 4 from rfl]
    omega
  unfold parseMessage parseBody
  simp only [hlocate, hrest]
  rw [messageLength_header h, hhead, if_neg hstandard, if_neg (by omega), if_neg (by omega)]
  have hpayload : slice (request.header client ++ (request.call.payload ++ more))
      (request.header client).length
      (sizeofControlHeaders + request.call.payload.length - (request.header client).length) =
      request.call.payload := by
    rw [hheader, Nat.add_sub_cancel_left, slice, ← hheader, List.drop_left, List.take_left]
  have htotal : (if client.sendSerialHeader = true then mctSerialHeader else []).length +
      (sizeofControlHeaders + request.call.payload.length) = (request.bytes client).length := by
    rw [bytes, List.length_append, List.length_append, hheader]
  rw [List.take_left, hpayload, htotal]
  rfl

end Request

end Sent

end MctDaemon.Client
