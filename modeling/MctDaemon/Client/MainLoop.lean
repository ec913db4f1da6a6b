import MctDaemon.Daemon.ClientMessages

/-!
The receive loop of a client (`mct_client_main_loop`). It reads messages like
the daemon, but does not remove the bytes that a message was found behind. They
come back as bytes of the message itself: the client lags behind the daemon.
-/

namespace MctDaemon.Client

open Lib Shared Daemon

/-- The bytes that `mct_client_main_loop` removes for a message. -/
def clientBytesToBeRemoved (msg : MctMessage) : Int :=
  msg.headersize + msg.datasize - sizeofStorageHeader +
    if msg.foundSerialheader then mctSerialHeader.length else 0

/-- `mct_client_main_loop` for one delivery: the messages passed to the
callback. -/
def mctClientMainLoop (malloc : Malloc) (resync : Bool) (conn : ClientConnection)
    (incoming : List UInt8) : List ReadMessage × ClientConnection :=
  extractRound clientBytesToBeRemoved malloc resync conn incoming

def size (message : ReadMessage) : Nat :=
  message.header.length + message.payload.length +
    if message.foundSerialheader then mctSerialHeader.length else 0

def content (message : ReadMessage) : List UInt8 × List UInt8 × Bool :=
  (message.header, message.payload, message.foundSerialheader)

section Framing

variable {resync : Bool} {buffer : List UInt8} {message : ReadMessage} {taken : Nat}

/-- A message that was parsed and the place where its standard header was
found. -/
theorem parseMessage_size (h : parseMessage resync buffer = some (message, taken)) :
    ∃ offset, locateHeader resync buffer = some (message.foundSerialheader,
        (if message.foundSerialheader then mctSerialHeader.length else 0) + offset) ∧
      taken = offset + size message ∧ 4 ≤ message.header.length := by
  unfold parseMessage at h
  cases hlocate : locateHeader resync buffer with
  | none =>
      rw [hlocate] at h
      cases h
  | some located =>
      obtain ⟨serial, start⟩ := located
      rw [hlocate] at h
      have hstart : (if serial then mctSerialHeader.length else 0) ≤ start := by
        unfold locateHeader at hlocate
        split at hlocate
        · cases hlocate
        · split at hlocate
          · cases hlocate
            exact le_refl _
          · split at hlocate
            · cases hscan : resyncScan buffer 0 with
              | mk found offset =>
                  rw [hscan] at hlocate
                  simp only at hlocate
                  split at hlocate
                  · cases hlocate
                    exact Nat.le_add_right _ _
                  · cases hlocate
            · cases hlocate
              exact le_refl _
      simp only [parseBody] at h
      split at h
      · cases h
      · rename_i hstandard
        split at h
        · cases h
        · rename_i hhead
          split at h
          · cases h
          · rename_i hwhole
            cases h
            refine ⟨start - if serial then mctSerialHeader.length else 0, ?_, ?_, ?_⟩
            · simp only [Nat.add_sub_cancel' hstart]
            · simp only [size, List.length_take, slice]
              rw [List.length_drop (l := List.drop start buffer)]
              omega
            · simp only [List.length_take, sizeofStandardHeader] at hstandard ⊢
              omega

def clientFraming (resync : Bool) : Framing UInt8 ReadMessage where
  read buffer := (parseMessage resync buffer).map fun result => (result.1, size result.1)
  taken_pos buffer message taken h := by
    obtain ⟨⟨parsed, before⟩, hparsed, heq⟩ := Option.map_eq_some_iff.mp h
    cases heq
    obtain ⟨offset, -, htaken, hfour⟩ := parseMessage_size hparsed
    have hbound := (parseMessage_stable hparsed).1
    simp only [size] at htaken ⊢
    omega
  stable buffer more message taken h := by
    obtain ⟨⟨parsed, before⟩, hparsed, heq⟩ := Option.map_eq_some_iff.mp h
    cases heq
    rw [(parseMessage_stable hparsed).2 more]
    rfl

end Framing

section Loop

variable {malloc : Malloc} {resync : Bool} {msg : MctMessage} {buffer : List UInt8}

theorem readHeaders_resyncOffset (malloc : Malloc) (msg : MctMessage) (buffer : List UInt8) :
    (readHeaders malloc msg buffer).2.resyncOffset = msg.resyncOffset := by
  unfold readHeaders readPayload
  simp only
  split
  · rfl
  · split
    · rfl
    · split
      · rfl
      · split
        · rfl
        · split <;> rfl

/-- The offset that is left in the message is where the header was found. -/
theorem mctMessageRead_offset (malloc : Malloc) (msg : MctMessage) {serial : Bool} {offset : Nat}
    (h : locateHeader resync buffer = some (serial,
      (if serial then mctSerialHeader.length else 0) + offset)) :
    (mctMessageRead malloc msg buffer resync).2.resyncOffset = offset := by
  unfold locateHeader at h
  split at h
  · cases h
  · rename_i hlength
    unfold mctMessageRead
    rw [if_neg (by
      simp only [mctSerialHeader, List.length_cons, List.length_nil] at hlength
      omega)]
    simp only [if_neg hlength]
    split at h
    · rename_i hserial
      rw [if_pos hserial, readHeaders_resyncOffset]
      rw [Option.some.injEq, Prod.mk.injEq] at h
      obtain ⟨rfl, hoffset⟩ := h
      simp only [if_true] at hoffset ⊢
      omega
    · rename_i hserial
      rw [if_neg hserial]
      split at h
      · rename_i hresync
        rw [if_pos hresync]
        cases hscan : resyncScan buffer 0 with
        | mk found start =>
            rw [hscan] at h
            simp only at h
            split at h
            · rw [Option.some.injEq, Prod.mk.injEq] at h
              obtain ⟨rfl, hoffset⟩ := h
              simp only [if_true] at hoffset
              rw [readHeaders_resyncOffset]
              simp only
              omega
            · cases h
      · rename_i hresync
        rw [if_neg hresync, readHeaders_resyncOffset]
        rw [Option.some.injEq, Prod.mk.injEq] at h
        obtain ⟨rfl, hoffset⟩ := h
        simpa using hoffset

/-- The client removes what its framing takes. -/
theorem client_loopReads (halloc : ∀ n, malloc.block n ≠ none)
    (hbuffer : msg.headerbuffer.length = sizeofHeaderbuffer) :
    LoopReads clientBytesToBeRemoved (mctMessageRead malloc msg buffer resync)
      ((clientFraming resync).read buffer) := by
  have hreads := mctMessageRead_parseMessage halloc hbuffer buffer resync
  refine ⟨hreads.buffer_length, ?_, ?_⟩
  · intro hnone
    exact hreads.refused (Option.map_eq_none_iff.mp hnone)
  · intro message taken hread
    obtain ⟨⟨parsed, before⟩, hparsed, heq⟩ := Option.map_eq_some_iff.mp hread
    cases heq
    obtain ⟨hok, hextracted, hremoved⟩ := hreads.accepted _ _ hparsed
    obtain ⟨offset, hlocate, htaken, -⟩ := parseMessage_size hparsed
    have hoffset := mctMessageRead_offset malloc msg hlocate
    refine ⟨hok, hextracted, ?_⟩
    have hclient : clientBytesToBeRemoved (mctMessageRead malloc msg buffer resync).2 =
        (mctMessageRead malloc msg buffer resync).2.bytesToBeRemoved - offset := by
      rw [clientBytesToBeRemoved, MctMessage.bytesToBeRemoved, hoffset]
      omega
    rw [hclient, hremoved, htaken]
    push_cast
    exact add_sub_cancel_left _ _

end Loop

section Lag

/-- No serial header starts among the bytes that were kept too long. -/
def NoHeaderIn (lag stream : List UInt8) : Prop :=
  ∀ i < lag.length, ((lag ++ stream).drop i).take mctSerialHeader.length ≠ mctSerialHeader

instance (lag stream : List UInt8) : Decidable (NoHeaderIn lag stream) :=
  inferInstanceAs (Decidable (∀ i < _, _))

/-- The bytes that the client keeps too long never hold the start of a serial
header. Behind a message these are the last bytes in front of its end, as many
as the client was behind and as the message was found behind. -/
inductive Harmless (resync : Bool) : List UInt8 → List UInt8 → Prop where
  | last {lag stream : List UInt8} (hread : parseMessage resync stream = none)
      (hclear : NoHeaderIn lag stream) : Harmless resync lag stream
  | next {lag stream : List UInt8} {message : ReadMessage} {taken : Nat}
      (hread : parseMessage resync stream = some (message, taken))
      (hclear : NoHeaderIn lag stream)
      (hrest : Harmless resync
        (((lag ++ stream).drop (size message)).take (lag.length + taken - size message))
        (stream.drop taken)) : Harmless resync lag stream

theorem resyncScan_header {bytes : List UInt8} {offset found : Nat}
    (h : resyncScan bytes offset = (true, found)) :
    (bytes.drop (found - offset)).take mctSerialHeader.length = mctSerialHeader := by
  induction bytes generalizing offset with
  | nil => cases h
  | cons byte rest ih =>
      have hbound := resyncScan_found h
      simp only [resyncScan] at h
      split at h
      · rename_i hhead
        cases h
        rw [Nat.sub_self]
        exact hhead
      · split at h
        · have hnext := (resyncScan_found h).1
          have hstep : found - offset = found - (offset + 1) + 1 := by omega
          rw [hstep, List.drop_succ_cons]
          exact ih h
        · cases h

theorem resyncScan_shift (bytes : List UInt8) (offset more : Nat) :
    resyncScan bytes (offset + more) =
      ((resyncScan bytes offset).1, (resyncScan bytes offset).2 + more) := by
  induction bytes generalizing offset with
  | nil =>
      simp only [resyncScan]
      rw [Nat.add_right_comm]
  | cons byte rest ih =>
      simp only [resyncScan]
      split
      · rfl
      · split
        · rw [Nat.add_right_comm, ih]
        · rw [Nat.add_right_comm]

/-- A scan goes past bytes without a header. -/
theorem resyncScan_skip {lag stream : List UInt8} (hclear : NoHeaderIn lag stream)
    (hlength : mctSerialHeader.length ≤ stream.length) (offset : Nat) :
    resyncScan (lag ++ stream) offset = resyncScan stream (offset + lag.length) := by
  induction lag generalizing offset with
  | nil => rfl
  | cons byte lag ih =>
      have hfirst := hclear 0 (Nat.succ_pos _)
      have hrest : NoHeaderIn lag stream := fun i hi => by
        simpa using hclear (i + 1) (Nat.succ_lt_succ hi)
      rw [List.cons_append, resyncScan, if_neg (by simpa [mctSerialHeader] using hfirst),
        if_pos (by rw [List.length_append]; omega), ih hrest]
      rw [List.length_cons]
      congr 1
      omega

theorem locateHeader_lag {resync : Bool} {lag stream : List UInt8}
    (hlag : lag = [] ∨ resync = true) (hclear : NoHeaderIn lag stream) :
    locateHeader resync (lag ++ stream) =
      (locateHeader resync stream).map fun located => (located.1, lag.length + located.2) := by
  by_cases hnil : lag = []
  · subst hnil
    simp
  have hresync : resync = true := hlag.resolve_left hnil
  subst hresync
  have hpos : 0 < lag.length := List.length_pos_iff.mpr hnil
  have hfront := hclear 0 hpos
  rw [List.drop_zero] at hfront
  by_cases hshort : stream.length < mctSerialHeader.length
  · -- a header that the scan finds would start in the lag
    have hnone : locateHeader true stream = none := by rw [locateHeader, if_pos hshort]
    rw [hnone, Option.map_none, locateHeader]
    by_cases hlong : (lag ++ stream).length < mctSerialHeader.length
    · rw [if_pos hlong]
    · rw [if_neg hlong, if_neg hfront, if_pos rfl]
      cases hscan : resyncScan (lag ++ stream) 0 with
      | mk found start =>
          cases found with
          | false => rfl
          | true =>
              have hinside := (resyncScan_found hscan).2.1
              have hheader := resyncScan_header hscan
              rw [List.length_append] at hinside
              simp only [mctSerialHeader, List.length_cons, List.length_nil] at hshort
              exact absurd hheader (hclear (start - 0) (by omega))
  · have hlength := Nat.le_of_not_lt hshort
    have hskip := resyncScan_skip hclear hlength 0
    have hshift := resyncScan_shift stream 0 lag.length
    have hlong : ¬ (lag ++ stream).length < mctSerialHeader.length := by
      rw [List.length_append]
      omega
    rw [locateHeader, if_neg hlong, if_neg hfront, if_pos rfl, locateHeader, if_neg hshort, hskip,
      hshift]
    by_cases hserial : stream.take mctSerialHeader.length = mctSerialHeader
    · have hfound : resyncScan stream 0 = (true, 0) := by
        cases stream with
        | nil => simp [mctSerialHeader] at hlength
        | cons byte rest =>
            rw [resyncScan, if_pos (by simpa [mctSerialHeader] using hserial)]
      rw [if_pos hserial, hfound]
      simp only [if_true, Nat.zero_add, Option.map_some, Option.some.injEq, Prod.mk.injEq, true_and]
      omega
    · rw [if_neg hserial, if_pos rfl]
      cases hscan : resyncScan stream 0 with
      | mk found start =>
          cases found with
          | false => rfl
          | true =>
              simp only [if_true, Option.map_some, Option.some.injEq, Prod.mk.injEq, true_and]
              omega

theorem parseBody_shift (serial : Bool) (start more : Nat) (body : List UInt8) :
    parseBody serial (more + start) body =
      (parseBody serial start body).map fun result =>
        ({ result.1 with removed := ((more + result.2 : Nat) : Int) }, more + result.2) := by
  simp only [parseBody]
  split
  · rfl
  · split
    · rfl
    · split
      · rfl
      · simp only [Option.map_some, Nat.add_assoc]

/-- Bytes without a serial header in front of a message do not change it. -/
theorem parseMessage_lag {resync : Bool} {lag stream : List UInt8}
    (hlag : lag = [] ∨ resync = true) (hclear : NoHeaderIn lag stream) :
    parseMessage resync (lag ++ stream) =
      (parseMessage resync stream).map fun result =>
        ({ result.1 with removed := ((lag.length + result.2 : Nat) : Int) },
          lag.length + result.2) := by
  simp only [parseMessage, locateHeader_lag hlag hclear]
  cases locateHeader resync stream with
  | none => rfl
  | some located =>
      simp only [Option.map_some]
      rw [← parseBody_shift, List.drop_length_add_append]

/-- Without the scan for a serial header a message starts at once. -/
theorem taken_of_not_resync {stream : List UInt8} {message : ReadMessage} {taken : Nat}
    (h : parseMessage false stream = some (message, taken)) : taken = size message := by
  obtain ⟨offset, hlocate, htaken, -⟩ := parseMessage_size h
  simp only [locateHeader] at hlocate
  split at hlocate
  · cases hlocate
  · split at hlocate
    · rw [Option.some.injEq, Prod.mk.injEq] at hlocate
      obtain ⟨hserial, hoffset⟩ := hlocate
      rw [← hserial, if_pos rfl] at hoffset
      omega
    · simp only [Bool.false_eq_true, if_false, Option.some.injEq, Prod.mk.injEq] at hlocate
      obtain ⟨hserial, hoffset⟩ := hlocate
      rw [← hserial] at hoffset
      simp only [Bool.false_eq_true, if_false] at hoffset
      omega

theorem size_le_taken {resync : Bool} {stream : List UInt8} {message : ReadMessage} {taken : Nat}
    (h : parseMessage resync stream = some (message, taken)) : size message ≤ taken := by
  obtain ⟨offset, -, htaken, -⟩ := parseMessage_size h
  omega

/-- The client reads the messages of the daemon, as long as what it keeps too
long is harmless. -/
theorem client_drain_eq {resync : Bool} {lag stream : List UInt8}
    (hharmless : Harmless resync lag stream) (hlag : lag = [] ∨ resync = true) :
    ((clientFraming resync).drain (lag ++ stream)).1.map content =
      ((messageFraming resync).drain stream).1.map content := by
  induction hharmless with
  | last hread hclear =>
      rename_i lag stream
      have hclient : (clientFraming resync).read (lag ++ stream) = none := by
        simp only [clientFraming, parseMessage_lag hlag hclear, hread, Option.map_none]
      rw [Framing.drain_of_none _ hclient,
        Framing.drain_of_none (messageFraming resync) hread]
  | next hread hclear hrest ih =>
      rename_i lag stream message taken
      have hle := size_le_taken hread
      have hclient : (clientFraming resync).read (lag ++ stream) =
          some ({ message with removed := ((lag.length + taken : Nat) : Int) }, size message) := by
        simp only [clientFraming, parseMessage_lag hlag hclear, hread, Option.map_some]
        rfl
      -- what is left is the new lag and the rest of the stream
      have hbehind : (lag ++ stream).drop (size message) =
          ((lag ++ stream).drop (size message)).take (lag.length + taken - size message) ++
            stream.drop taken := by
        have hsum : size message + (lag.length + taken - size message) = lag.length + taken := by
          omega
        conv_lhs => rw [← List.take_append_drop (lag.length + taken - size message)
          ((lag ++ stream).drop (size message))]
        rw [List.drop_drop, hsum, List.drop_length_add_append]
      have hlag' : ((lag ++ stream).drop (size message)).take
          (lag.length + taken - size message) = [] ∨ resync = true := by
        cases resync with
        | true => exact .inr rfl
        | false =>
            left
            rw [hlag.resolve_right (by decide), taken_of_not_resync hread]
            simp
      rw [Framing.drain_of_some _ hclient,
        Framing.drain_of_some (messageFraming resync) hread, hbehind]
      simp only [List.map_cons, ih hlag']
      rfl

/-- Nothing is kept too long where every message starts at once. -/
theorem harmless_of_not_resync (stream : List UInt8) : Harmless false [] stream := by
  induction stream using (messageFraming false).drain_induction with
  | none stream hread => exact .last hread fun i hi => absurd hi (Nat.not_lt_zero i)
  | some stream message taken hread ih =>
      refine .next hread (fun i hi => absurd hi (Nat.not_lt_zero i)) ?_
      rw [taken_of_not_resync hread] at ih ⊢
      simpa using ih

end Lag

section Streams

variable {malloc : Malloc}

/-- The client passes the messages to its callback that the daemon extracts
from the same chunks, as long as what it keeps too long is harmless. -/
theorem client_frames_like_daemon (malloc : Malloc) (halloc : ∀ n, malloc.block n ≠ none)
    (resync : Bool) (clientMem daemonMem : List UInt8) (clientMsg daemonMsg : MctMessage)
    (hclientMsg : clientMsg.headerbuffer.length = sizeofHeaderbuffer)
    (hdaemonMsg : daemonMsg.headerbuffer.length = sizeofHeaderbuffer)
    (chunks : List (List UInt8))
    (hclient : Guarded (mctClientMainLoop malloc resync) ClientConnection.Fits
      (openClient clientMem clientMsg) chunks)
    (hdaemon : Guarded (processClientMessages malloc resync) ClientConnection.Fits
      (openClient daemonMem daemonMsg) chunks)
    (hharmless : resync = true → Harmless true [] chunks.flatten) :
    (runOps (mctClientMainLoop malloc resync) (openClient clientMem clientMsg)
        chunks).1.flatten.map content =
      (runOps (processClientMessages malloc resync) (openClient daemonMem daemonMsg)
        chunks).1.flatten.map content := by
  have hclientLoop := (@run_extract_drain malloc resync clientBytesToBeRemoved
    (clientFraming resync) (fun _ _ => client_loopReads halloc) halloc clientMem clientMsg
    hclientMsg chunks hclient).1
  have hround : processClientMessages malloc resync =
      extractRound MctMessage.bytesToBeRemoved malloc resync := by
    funext conn incoming
    exact processClientMessages_eq malloc resync conn incoming
  rw [hround] at hdaemon ⊢
  have hdaemonLoop := (run_extract_drain resync (fun _ _ => daemon_loopReads resync halloc) halloc
    daemonMem daemonMsg hdaemonMsg chunks hdaemon).1
  have hkept : Harmless resync [] chunks.flatten := by
    cases resync with
    | false => exact harmless_of_not_resync _
    | true => exact hharmless rfl
  have hsame := client_drain_eq hkept (.inl rfl)
  rw [List.nil_append] at hsame
  have hclientRun : runOps (mctClientMainLoop malloc resync) (openClient clientMem clientMsg)
      chunks = runOps (extractRound clientBytesToBeRemoved malloc resync)
        (openClient clientMem clientMsg) chunks := rfl
  rw [hclientRun, hclientLoop, hdaemonLoop, hsame]

def serialMessage (payload : List UInt8) : List UInt8 :=
  mctSerialHeader ++ [32, 0, 0, UInt8.ofNat (4 + payload.length)] ++ payload

/-- Two messages with a stray byte in front of each, cut within a header. -/
theorem client_frames_like_daemon_sample :
    let chunks : List (List UInt8) :=
      [[9, 68, 76], [83, 1, 32, 0, 0, 6, 1, 2], 9 :: serialMessage [3]]
    (runOps (mctClientMainLoop Malloc.zeroed true)
        (openClient (List.replicate 32 0) mctMessageInit) chunks).1.flatten.map content =
      (runOps (processClientMessages Malloc.zeroed true)
        (openClient (List.replicate 32 0) mctMessageInit) chunks).1.flatten.map content ∧
    chunks.flatten = [9] ++ serialMessage [1, 2] ++ [9] ++ serialMessage [3] := by
  intro chunks
  have hclient : Guarded (mctClientMainLoop Malloc.zeroed true) ClientConnection.Fits
      (openClient (List.replicate 32 0) mctMessageInit) chunks :=
    ⟨by decide +kernel, by decide +kernel, by decide +kernel, trivial⟩
  have hdaemon : Guarded (processClientMessages Malloc.zeroed true) ClientConnection.Fits
      (openClient (List.replicate 32 0) mctMessageInit) chunks :=
    ⟨by decide +kernel, by decide +kernel, by decide +kernel, trivial⟩
  have hharmless : Harmless true [] chunks.flatten := by
    refine @Harmless.next true _ _ ⟨[32, 0, 0, 6], [1, 2], true, 11⟩ 11 (by decide +kernel)
      (by decide +kernel) ?_
    refine @Harmless.next true _ _ ⟨[32, 0, 0, 5], [3], true, 10⟩ 10 (by decide +kernel)
      (by decide +kernel) ?_
    exact .last (by decide +kernel) (by decide +kernel)
  exact ⟨client_frames_like_daemon Malloc.zeroed (fun _ => Option.some_ne_none _) true
    (List.replicate 32 0) (List.replicate 32 0) mctMessageInit mctMessageInit rfl rfl chunks
    hclient hdaemon (fun _ => hharmless), by decide⟩

/-- Eight stray bytes in front of a message of eight bytes: the client reads
the message twice. -/
theorem client_repeats_message_behind_garbage :
    let chunks : List (List UInt8) := [List.replicate 8 0 ++ serialMessage []]
    Guarded (mctClientMainLoop Malloc.zeroed true) ClientConnection.Fits
      (openClient (List.replicate 32 0) mctMessageInit) chunks ∧
    Guarded (processClientMessages Malloc.zeroed true) ClientConnection.Fits
      (openClient (List.replicate 32 0) mctMessageInit) chunks ∧
    (runOps (mctClientMainLoop Malloc.zeroed true)
        (openClient (List.replicate 32 0) mctMessageInit) chunks).1.flatten.map content =
      [([32, 0, 0, 4], [], true), ([32, 0, 0, 4], [], true)] ∧
    (runOps (processClientMessages Malloc.zeroed true)
        (openClient (List.replicate 32 0) mctMessageInit) chunks).1.flatten.map content =
      [([32, 0, 0, 4], [], true)] := by
  exact ⟨⟨by decide +kernel, trivial⟩, ⟨by decide +kernel, trivial⟩, by decide +kernel,
    by decide +kernel⟩

end Streams

end MctDaemon.Client
