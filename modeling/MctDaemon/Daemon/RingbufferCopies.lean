import MctDaemon.Daemon.GetLogInfo
import MctDaemon.Daemon.ClientSend
import MctDaemon.User.ResendCopies

/-!
What is replayed from the ring buffer of the daemon (`mct_daemon_send_ringbuffer_to_client`).
Messages for all clients are stored there while no client is connected, and are copied into
a block of fixed size one after the other. Log messages are forwarded as they come; control
messages and the daemon's own messages are built in one place each.
-/

namespace MctDaemon.Daemon

open Lib Shared User

section Model

def mctDaemonRcvbufsize : Nat := 10024

def mctDaemonTextbufsize : Nat := 512

/-- The ECU version string, and what `snprintf` leaves in a text buffer. -/
structure DaemonText where
  text : List UInt8
  length_lt : text.length < mctDaemonTextbufsize
  deriving DecidableEq, Repr

/-- `MCT_MSIN_CONTROL_RESPONSE` and `MCT_MSIN_CONTROL_TIME`, and `msin` of an internal log
message. -/
def mctMsinControlResponse : UInt8 := 0x26
def mctMsinControlTime : UInt8 := 0x36
def mctMsinInternal : UInt8 := 0x41

/-- What a message takes from the daemon. -/
structure Sender where
  ecuid : IdBytes
  uptime : UInt32
  pid : UInt32
  deriving DecidableEq, Repr

def mctServiceIdGetSoftwareVersion : Nat := 0x13
def mctServiceIdMessageBufferOverflow : Nat := 0x14
def mctServiceIdUnregisterContext : Nat := 0xF01
def mctServiceIdConnectionInfo : Nat := 0xF02
def mctServiceIdTimezone : Nat := 0xF03
def mctServiceIdMarker : Nat := 0xF04

/-- `MCT_SERVICE_RESPONSE_OK` and `MCT_SERVICE_RESPONSE_ERROR`. -/
def mctServiceResponseOk : UInt8 := 0
def mctServiceResponseError : UInt8 := 2

inductive ControlMessage where
  | serviceResponse (serviceId : UInt32) (status : UInt8)
  | softwareVersion (version : DaemonText)
  | bufferOverflow (overflowCounter : UInt32) (apid : List UInt8)
  | unregisterContext (apid ctid comid : IdBytes)
  | connectionInfo (state : UInt8) (comid : IdBytes)
  | timezone (seconds : UInt32) (isdst : UInt8)
  | marker
  | time
  | logInfo (users : MctDaemonUsers) (req : GetLogInfoRequest)

namespace ControlMessage

/-- The payload of a message with a service id and a status. -/
def response (serviceId : Nat) (status : UInt8) (fields : List UInt8) : List UInt8 :=
  leBytes 4 serviceId ++ [status] ++ fields

/-- `databuffer`. -/
def payload : ControlMessage → List UInt8
  | serviceResponse serviceId status => response serviceId.toNat status []
  | softwareVersion version =>
      response mctServiceIdGetSoftwareVersion mctServiceResponseOk
        (leBytes 4 version.text.length ++ version.text)
  | bufferOverflow overflowCounter _ =>
      response mctServiceIdMessageBufferOverflow mctServiceResponseOk
        (leBytes 4 overflowCounter.toNat)
  | unregisterContext apid ctid comid =>
      response mctServiceIdUnregisterContext mctServiceResponseOk
        (apid.bytes ++ ctid.bytes ++ comid.bytes)
  | connectionInfo state comid =>
      response mctServiceIdConnectionInfo mctServiceResponseOk (state :: comid.bytes)
  | timezone seconds isdst =>
      response mctServiceIdTimezone mctServiceResponseOk (leBytes 4 seconds.toNat ++ [isdst])
  | marker => response mctServiceIdMarker mctServiceResponseOk []
  | time => []
  | logInfo users req =>
      match users.controlGetLogInfo req with
      | some reply => reply.payload
      | none => response mctServiceIdGetLogInfo mctServiceResponseError []

/-- The headers behind the storage header: with ECU id, timestamp and extended header. -/
def headers (sender : Sender) (message : ControlMessage) : List UInt8 :=
  let len := sizeofMctStandardHeader + 8 + sizeofMctExtendedHeader + message.payload.length
  let (msin, noar, apid, ctid) : UInt8 × UInt8 × List UInt8 × List UInt8 := match message with
    | time => (mctMsinControlTime, 0, [], [])
    | bufferOverflow _ apid =>
        (mctMsinControlResponse, 1, if apid = [] then [68, 65, 49] else apid, [68, 67, 49])
    | _ => (mctMsinControlResponse, 1, [68, 65, 49], [68, 67, 49])
  [0x35, 0] ++ beBytes 2 len ++ sender.ecuid.bytes ++ beBytes 4 sender.uptime.toNat ++
    [msin, noar] ++ (setIdBytes apid).bytes ++ (setIdBytes ctid).bytes

end ControlMessage

/-- What is handed to `mct_daemon_client_send` for all clients. -/
inductive Broadcast where
  | forward (headers payload : List UInt8)
  | control (message : ControlMessage)
  | internal (counter : UInt8) (text : DaemonText)

/-- The two parts of a message for the clients, none for a control message that is too long
for its length field. -/
def Broadcast.parts (sender : Sender) : Broadcast → Option (List UInt8 × List UInt8)
  | forward headers payload => some (headers, payload)
  | control message =>
      if (message.headers sender).length + message.payload.length > 65535 then none
      else some (message.headers sender, message.payload)
  | internal counter text =>
      let payload := leBytes 4 0x200 ++ leBytes 2 (text.text.length + 1) ++ (text.text ++ [0])
      some ([0x3d, counter] ++ beBytes 2 (26 + payload.length) ++ sender.ecuid.bytes ++
        beBytes 4 sender.pid.toNat ++ beBytes 4 sender.uptime.toNat ++ [mctMsinInternal, 1] ++
        [77, 67, 84, 68] ++ [73, 78, 84, 77], payload)

/-- The daemon as far as the ring buffer is concerned. -/
structure RingDaemon where
  state : MctDaemonState
  clientRingbuffer : MctBuffer
  deriving DecidableEq, Repr

/-- The end of `mct_daemon_client_send` for a message to all clients. -/
def storeBroadcast (malloc : Malloc) (sender : Sender) (message : Broadcast) (d : RingDaemon) :
    RingDaemon :=
  match message.parts sender with
  | none => d
  | some (data1, data2) =>
      if d.state = .buffer ∨ d.state = .sendBuffer then
        let pushed := mctBufferPush3 malloc d.clientRingbuffer data1 data2 []
        { state := if pushed.1 = .ok then d.state else .bufferFull, clientRingbuffer := pushed.2 }
      else d

/-- The events of the daemon that concern the ring buffer. The loop of
`mct_daemon_send_ringbuffer_to_client` copies a message and, if a client takes it, removes
it; in between, other messages may be stored for a client that is closed. -/
inductive RingEvent where
  | changeState (state : MctDaemonState)
  | clientSend (malloc : Malloc) (sender : Sender) (message : Broadcast)
  | copy (malloc : Malloc)
  | remove (malloc : Malloc)

/-- An event, and what it copies into the block of `mct_daemon_send_ringbuffer_to_client`. -/
def ringStep (d : RingDaemon) : RingEvent → List UInt8 × RingDaemon
  | .changeState state => ([], { d with state })
  | .clientSend malloc sender message => ([], storeBroadcast malloc sender message d)
  | .copy malloc =>
      let copied := mctBufferCopy malloc d.clientRingbuffer true mctDaemonRcvbufsize
      (copied.data, { d with clientRingbuffer := copied.buf })
  | .remove malloc =>
      ([], { d with clientRingbuffer := (mctBufferRemove malloc d.clientRingbuffer).buf })

/-- `mct_daemon_init`, as far as the ring buffer goes. -/
def mctDaemonInit (malloc : Malloc) (bufferMin bufferMax bufferStep : UInt32) :
    Option RingDaemon :=
  (mctBufferInitDynamic malloc bufferMin.toNat bufferMax.toNat bufferStep.toNat).map
    fun clientRingbuffer => { state := .init, clientRingbuffer }

end Model

section Specification

/-- A message of an application is not longer than the block it is copied to, and a response
with the log info is not, or it is too long to be sent at all. -/
def Broadcast.Replayable : Broadcast → Prop
  | forward headers payload => headers.length + payload.length ≤ mctDaemonRcvbufsize
  | control (.logInfo users req) =>
      3 ≤ req.options ∧ req.options ≤ 7 →
        int32 (users.responseSize req) ≤ 10002 ∨ 65513 < int32 (users.responseSize req)
  | _ => True

/-- What is stored can be replayed, and the buffer grows safely. -/
def RingEvent.Admissible (d : RingDaemon) : RingEvent → Prop
  | .clientSend malloc sender message =>
      message.Replayable ∧ ∀ data1 data2, message.parts sender = some (data1, data2) →
        d.state = .buffer ∨ d.state = .sendBuffer →
          d.clientRingbuffer.SafePush malloc (data1 ++ data2)
  | _ => True

end Specification

section Sizes

variable {sender : Sender}

theorem ControlMessage.headers_length (sender : Sender) (message : ControlMessage) :
    (message.headers sender).length = 22 := by
  have hecuid : sender.ecuid.bytes.length = 4 := sender.ecuid.length_eq
  have hid (text : List UInt8) : (setIdBytes text).bytes.length = 4 := (setIdBytes text).length_eq
  simp only [headers, List.length_append, List.length_cons, List.length_nil, beBytes_length,
    hecuid, hid]

theorem LogInfoReply.payload_length (reply : LogInfoReply) :
    reply.payload.length = reply.datasize.toNat := by
  unfold LogInfoReply.payload
  rw [List.length_take, List.length_append, List.length_replicate]
  omega

theorem ControlMessage.response_length (serviceId : Nat) (status : UInt8) (fields : List UInt8) :
    (response serviceId status fields).length = 5 + fields.length := by
  simp [response]
  omega

/-- All control messages but the log info are short. -/
theorem ControlMessage.payload_short {message : ControlMessage}
    (hother : ∀ users req, message ≠ .logInfo users req) :
    message.payload.length ≤ 10002 := by
  cases message with
  | serviceResponse serviceId status =>
      simp only [payload, response_length, List.length_nil]
      omega
  | softwareVersion version =>
      have hversion := version.length_lt
      simp only [payload, response_length, List.length_append, leBytes_length]
      unfold mctDaemonTextbufsize at hversion
      omega
  | bufferOverflow overflowCounter apid =>
      simp only [payload, response_length, leBytes_length]
      omega
  | unregisterContext apid ctid comid =>
      have hapid : apid.bytes.length = 4 := apid.length_eq
      have hctid : ctid.bytes.length = 4 := ctid.length_eq
      have hcomid : comid.bytes.length = 4 := comid.length_eq
      simp only [payload, response_length, List.length_append, hapid, hctid, hcomid]
      omega
  | connectionInfo state comid =>
      have hcomid : comid.bytes.length = 4 := comid.length_eq
      simp only [payload, response_length, List.length_cons, hcomid]
      omega
  | timezone seconds isdst =>
      simp only [payload, response_length, List.length_append, leBytes_length, List.length_cons,
        List.length_nil]
      omega
  | marker =>
      simp only [payload, response_length, List.length_nil]
      omega
  | time =>
      simp only [payload, List.length_nil]
      omega
  | logInfo users req => exact absurd rfl (hother users req)

theorem logInfo_length (users : MctDaemonUsers) (req : GetLogInfoRequest) :
    (ControlMessage.logInfo users req).payload.length =
      if 3 ≤ req.options ∧ req.options ≤ 7 ∧ 0 ≤ int32 (users.responseSize req) then
        (int32 (users.responseSize req)).toNat else 5 := by
  have hoptions : req.options < 3 ∨ req.options > 7 ↔ ¬ (3 ≤ req.options ∧ req.options ≤ 7) := by
    simp only [UInt8.lt_iff_toNat_lt, UInt8.le_iff_toNat_le, gt_iff_lt]
    omega
  simp only [ControlMessage.payload, MctDaemonUsers.controlGetLogInfo]
  by_cases hrange : 3 ≤ req.options ∧ req.options ≤ 7
  · rw [if_neg (by rw [hoptions, not_not]; exact hrange)]
    by_cases hneg : int32 (users.responseSize req) < 0
    · rw [if_pos hneg, if_neg (by omega)]
      simp only [ControlMessage.response_length, List.length_nil]
    · rw [if_neg hneg, if_pos ⟨hrange.1, hrange.2, by omega⟩]
      exact LogInfoReply.payload_length _
  · rw [if_pos (hoptions.mpr hrange), if_neg (fun h => hrange ⟨h.1, h.2.1⟩)]
    simp only [ControlMessage.response_length, List.length_nil]

/-- A message can be replayed exactly if it fits into the block it is copied to. -/
theorem broadcast_replayable_iff (sender : Sender) (message : Broadcast) :
    message.Replayable ↔ ∀ data1 data2, message.parts sender = some (data1, data2) →
      (data1 ++ data2).length ≤ mctDaemonRcvbufsize := by
  cases message with
  | forward headers payload =>
      simp [Broadcast.Replayable, Broadcast.parts]
  | internal counter text =>
      refine iff_of_true trivial fun data1 data2 hparts => ?_
      have htext := text.length_lt
      have hecuid : sender.ecuid.bytes.length = 4 := sender.ecuid.length_eq
      simp only [Broadcast.parts, Option.some.injEq, Prod.mk.injEq] at hparts
      obtain ⟨rfl, rfl⟩ := hparts
      simp only [List.length_append, List.length_cons, List.length_nil, beBytes_length,
        leBytes_length, hecuid]
      unfold mctDaemonTextbufsize at htext
      unfold mctDaemonRcvbufsize
      omega
  | control message =>
      have hheaders := message.headers_length sender
      have hparts : (∀ data1 data2, (Broadcast.control message).parts sender =
            some (data1, data2) → (data1 ++ data2).length ≤ mctDaemonRcvbufsize) ↔
          (message.payload.length ≤ 10002 ∨ 65513 < message.payload.length) := by
        simp only [Broadcast.parts, hheaders]
        split
        · exact iff_of_true (by simp) (by omega)
        · unfold mctDaemonRcvbufsize
          refine ⟨fun hall => ?_, fun hshort data1 data2 hsome => ?_⟩
          · have hfits := hall (message.headers sender) message.payload rfl
            rw [List.length_append, hheaders] at hfits
            omega
          · obtain ⟨rfl, rfl⟩ := Prod.mk.inj (Option.some.inj hsome)
            rw [List.length_append, hheaders]
            omega
      rw [hparts]
      by_cases hlog : ∃ users req, message = .logInfo users req
      · obtain ⟨users, req, rfl⟩ := hlog
        rw [logInfo_length]
        simp only [Broadcast.Replayable]
        split
        · rename_i hall
          rw [imp_iff_right ⟨hall.1, hall.2.1⟩]
          omega
        · rename_i hnot
          refine iff_of_true (fun hrange => ?_) (by omega)
          have hneg : int32 (users.responseSize req) < 0 := by
            by_contra hge
            exact hnot ⟨hrange.1, hrange.2, by omega⟩
          omega
      · have hother : ∀ users req, message ≠ .logInfo users req :=
          fun users req heq => hlog ⟨users, req, heq⟩
        refine iff_of_true ?_ (.inl (ControlMessage.payload_short hother))
        cases message with
        | logInfo users req => exact absurd rfl (hother users req)
        | _ => trivial

end Sizes

section Copies

variable {d : RingDaemon}

theorem ringStep_within (h : EntriesWithin mctDaemonRcvbufsize d.clientRingbuffer)
    (event : RingEvent) (hevent : event.Admissible d) :
    EntriesWithin mctDaemonRcvbufsize (ringStep d event).2.clientRingbuffer ∧
      (ringStep d event).1.length ≤ mctDaemonRcvbufsize := by
  cases event with
  | changeState state => exact ⟨h, Nat.zero_le _⟩
  | clientSend malloc sender message =>
      refine ⟨?_, Nat.zero_le _⟩
      obtain ⟨hreplayable, hsafe⟩ := hevent
      have hshort := (broadcast_replayable_iff sender message).mp hreplayable
      change EntriesWithin _ (storeBroadcast malloc sender message d).clientRingbuffer
      unfold storeBroadcast
      cases hparts : message.parts sender with
      | none => exact h
      | some parts =>
          obtain ⟨data1, data2⟩ := parts
          dsimp only
          split
          · rename_i hstate
            have hpush := hsafe data1 data2 hparts hstate
            have hroom := hshort data1 data2 hparts
            rw [← List.append_nil (data1 ++ data2)] at hpush hroom
            exact h.push3 hpush hroom
          · exact h
  | copy malloc => exact h.get true mctDaemonRcvbufsize false
  | remove malloc => exact ⟨(h.get false 0 true).1, Nat.zero_le _⟩

/-- In every run from the start whose messages can be replayed, what is replayed fits where
it is copied to: in the library into the resend buffer, in the daemon into the block of
`mct_daemon_send_ringbuffer_to_client`. -/
theorem replay_copies_fit (malloc : Malloc) (setup : LibrarySetup) (u : Resender)
    (startup : List StartupEvent) (bufferMin bufferMax bufferStep : UInt32) (d : RingDaemon)
    (events : List RingEvent) :
    (mctInitCommon malloc setup = some u →
      Guarded startupStep (fun u event => event.Admissible setup u) u startup →
        ∀ copies ∈ (runOps startupStep u startup).1, ∀ copied ∈ copies,
          copied.length ≤ resendBufferSize setup) ∧
    (mctDaemonInit malloc bufferMin bufferMax bufferStep = some d →
      Guarded ringStep (fun d event => event.Admissible d) d events →
        ∀ copied ∈ (runOps ringStep d events).1, copied.length ≤ mctDaemonRcvbufsize) := by
  refine ⟨fun hinit hevents => resend_copies_fit hinit startup hevents, ?_⟩
  intro hinit hevents
  have hstart : EntriesWithin mctDaemonRcvbufsize d.clientRingbuffer := by
    unfold mctDaemonInit at hinit
    obtain ⟨buf, hbuf, rfl⟩ := Option.map_eq_some_iff.mp hinit
    exact initDynamic_within bufferMin.toNat_lt hbuf
  have hstep : ∀ (d : RingDaemon) (event : RingEvent),
      EntriesWithin mctDaemonRcvbufsize d.clientRingbuffer → event.Admissible d →
        EntriesWithin mctDaemonRcvbufsize (ringStep d event).2.clientRingbuffer ∧
          (ringStep d event).1.length ≤ mctDaemonRcvbufsize :=
    fun _ event hwithin hevent => ringStep_within hwithin event hevent
  refine runOps_each hstep ?_ events hevents
  exact hstart

/-- A message that has room in the empty ring buffer is copied as it is, however long the
block is that it is copied to. -/
theorem copied_whole {malloc : Malloc} {buf : MctBuffer} (h : Represents buf [])
    {data1 data2 : List UInt8} (hfits : entrySize (data1 ++ data2) ≤ buf.size) :
    (mctBufferCopy malloc (mctBufferPush3 malloc buf data1 data2 []).2 true
      mctDaemonRcvbufsize).data = data1 ++ data2 := by
  have hroom : queueSize [] + entrySize (data1 ++ data2 ++ []) ≤ buf.size := by
    rw [List.append_nil, queueSize_nil, Nat.zero_add]
    exact hfits
  have hstored := (h.writeEntry data1 data2 [] hroom).1
  rw [h.push_of_fits malloc data1 data2 [] hroom, mctBufferCopy]
  rw [List.append_nil, List.nil_append] at hstored
  rw [hstored.get malloc true mctDaemonRcvbufsize false]
  rfl

/-- A library with a log buffer of 100 bytes. -/
def smallSetup : LibrarySetup := ⟨100, true, 500, 1000, 100⟩

/-- A context is registered before the application, and replayed when the daemon is there. -/
def registerAndResend (description : List UInt8) : List StartupEvent :=
  [.store Malloc.zeroed
      (.registerContext (setIdBytes [0, 0, 0, 0]) (setIdBytes [67, 84, 88, 49]) 0 4 0 9
        description),
    .registerApp [65, 80, 80, 49], .reattach 3, .resend Malloc.zeroed fun _ => .ok]

/-- A message of an application is stored, and replayed when a client is there. -/
def storeAndCopy (payload : List UInt8) : List RingEvent :=
  [.changeState .buffer,
    .clientSend Malloc.zeroed ⟨setIdBytes [69, 67, 85, 49], 0, 0⟩
      (.forward (List.replicate 26 0) payload),
    .copy Malloc.zeroed]

/-- The ring buffer of a daemon with 20000 bytes for it. -/
def emptyRing : MctBuffer where
  mem := List.replicate 19988 0
  size := 19988
  minSize := 20000
  maxSize := 20000
  stepSize := 1000
  write := 0
  read := 0
  count := 0
  resets := 0

theorem replay_copies_fit_sample :
    ∃ u d, mctInitCommon Malloc.zeroed smallSetup = some u ∧
      mctDaemonInit Malloc.zeroed 500 1000 100 = some d ∧
      (∀ copies ∈ (runOps startupStep u (registerAndResend [65, 66])).1, ∀ copied ∈ copies,
        copied.length ≤ resendBufferSize smallSetup) ∧
      ∀ copied ∈ (runOps ringStep d (storeAndCopy [1, 2, 3])).1,
        copied.length ≤ mctDaemonRcvbufsize := by
  refine ⟨_, _, rfl, rfl,
    (replay_copies_fit Malloc.zeroed smallSetup _ _ 500 1000 100 ⟨.init, emptyRing⟩ []).1 rfl ?_,
    (replay_copies_fit Malloc.zeroed smallSetup ⟨[], 100, emptyRing, [], -1, false⟩
      [] 500 1000 100 _
      _).2 rfl ?_⟩
  · refine ⟨⟨trivial, ?_, ?_⟩, trivial, trivial, trivial, trivial⟩
    · change 30 + 2 ≤ resendBufferSize smallSetup
      decide
    · refine ⟨by decide +kernel, fun k hk => ?_⟩
      exact absurd (hk 0 (Nat.zero_le k)).1 (by decide +kernel)
  · refine ⟨trivial, ⟨?_, fun data1 data2 hparts _ => ?_⟩, trivial, trivial⟩
    · change (List.replicate 26 (0 : UInt8)).length + 3 ≤ mctDaemonRcvbufsize
      decide
    · obtain ⟨rfl, rfl⟩ := Prod.mk.inj (Option.some.inj hparts)
      refine ⟨by decide +kernel, fun k hk => ?_⟩
      exact absurd (hk 0 (Nat.zero_le k)).1 (by decide +kernel)

/-- A context description of 200 bytes is copied with 30 others into 134 bytes, and a message
of 10026 bytes into a block of 10024. -/
theorem long_messages_overrun :
    (∃ u, mctInitCommon Malloc.zeroed smallSetup = some u ∧ resendBufferSize smallSetup = 134 ∧
      (runOps startupStep u (registerAndResend (List.replicate 200 65))).1.map
        (List.map List.length) = [[], [], [], [230]]) ∧
    mctDaemonInit Malloc.zeroed 20000 20000 1000 = some ⟨.init, emptyRing⟩ ∧
      mctDaemonRcvbufsize = 10024 ∧
      (runOps ringStep ⟨.init, emptyRing⟩ (storeAndCopy (List.replicate 10000 0))).1.map
        List.length = [0, 0, 10026] := by
  refine ⟨⟨_, rfl, rfl, by decide +kernel⟩, rfl, rfl, ?_⟩
  have hempty : Represents emptyRing [] :=
    represents_at_start (List.replicate 19988 0) rfl (List.length_replicate ..)
      (of_decide_eq_true rfl) rfl rfl rfl
  have hfits : entrySize (List.replicate 26 (0 : UInt8) ++ List.replicate 10000 0) ≤
      emptyRing.size := by
    unfold entrySize
    rw [List.length_append, List.length_replicate, List.length_replicate]
    decide
  have hcopied : (mctBufferCopy Malloc.zeroed (mctBufferPush3 Malloc.zeroed emptyRing
      (List.replicate 26 0) (List.replicate 10000 0) []).2 true mctDaemonRcvbufsize).data =
      List.replicate 26 0 ++ List.replicate 10000 0 := copied_whole hempty hfits
  change [0, 0, (mctBufferCopy Malloc.zeroed (mctBufferPush3 Malloc.zeroed emptyRing
    (List.replicate 26 0) (List.replicate 10000 0) []).2 true
      mctDaemonRcvbufsize).data.length] = _
  rw [hcopied, List.length_append, List.length_replicate, List.length_replicate]

end Copies

end MctDaemon.Daemon
