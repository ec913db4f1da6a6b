import MctDaemon.Shared.Message
import MctDaemon.Shared.Receiver

/-!
The messages of a client connection. `mct_daemon_process_client_messages`
receives once, reads and removes messages while there are complete ones, and
keeps the rest. What is done with a message does not touch the connection's
receiver or the fields of the message that say what to remove.
-/

namespace MctDaemon.Daemon

open Lib Shared

/-- A connection: the buffer of its receiver, the receiver, and the message
structure of the daemon. -/
structure ClientConnection where
  mem : List UInt8
  receiver : MctReceiver
  msg : MctMessage
  deriving DecidableEq, Repr

/-- Nothing is read from a receiver without bytes. -/
theorem read_ne_ok_of_empty (malloc : Malloc) (msg : MctMessage) (mem : List UInt8)
    (receiver : MctReceiver) (resync : Bool) (h : receiver.bytesRcvd = 0) :
    (mctMessageRead malloc msg (receiver.presented mem) resync).1 ≠ .ok := by
  have hnil : receiver.presented mem = [] := by
    simp [MctReceiver.presented, slice, h]
  rw [hnil]
  simp [mctMessageRead]

/-- The loop over all received messages: what was read, in order, and the
receiver and message structure at its end. -/
def processMessages (malloc : Malloc) (resync : Bool) (mem : List UInt8) (msg : MctMessage)
    (receiver : MctReceiver) : List ReadMessage × MctMessage × MctReceiver :=
  match _hread : mctMessageRead malloc msg (receiver.presented mem) resync with
  | (.ok, next) =>
      let (messages, last) := processMessages malloc resync mem next
        (mctReceiverRemove receiver next.bytesToBeRemoved).2
      (next.extracted :: messages, last)
  | (_, next) => ([], next, receiver)
termination_by receiver.bytesRcvd
decreasing_by
  apply mctReceiverRemove_lt
  intro hempty
  have hne := read_ne_ok_of_empty malloc msg mem receiver resync hempty
  rw [_hread] at hne
  exact hne rfl

/-- `mct_daemon_process_client_messages` for one delivery of the socket. -/
def processClientMessages (malloc : Malloc) (resync : Bool) (conn : ClientConnection)
    (incoming : List UInt8) : List ReadMessage × ClientConnection :=
  let (_, mem, receiver) := mctReceiverReceive conn.mem conn.receiver incoming
  let (messages, msg, receiver) := processMessages malloc resync mem conn.msg receiver
  (messages, {mem := mem, receiver := mctReceiverMoveToBegin malloc mem receiver, msg := msg})

/-- A connection as `mct_connection_get_receiver` makes it, whatever the
daemon read before. -/
def openClient (mem : List UInt8) (msg : MctMessage) : ClientConnection where
  mem := mem
  receiver := mctReceiverInit mem.length
  msg := msg

/-- The bytes not removed yet. -/
def ClientConnection.rest (conn : ClientConnection) : List UInt8 :=
  conn.receiver.presented conn.mem

/-- The chunk is not empty and fits the buffer with the rest. -/
def ClientConnection.Fits (conn : ClientConnection) (incoming : List UInt8) : Prop :=
  incoming ≠ [] ∧ conn.receiver.bytesRcvd + incoming.length ≤ conn.mem.length

instance (conn : ClientConnection) (incoming : List UInt8) : Decidable (conn.Fits incoming) :=
  inferInstanceAs (Decidable (_ ∧ _))

/-- The loop of a reader that removes `removal` bytes for each message. -/
def extractMessages (removal : MctMessage → Int) (malloc : Malloc) (resync : Bool)
    (mem : List UInt8) (msg : MctMessage) (receiver : MctReceiver) :
    List ReadMessage × MctMessage × MctReceiver :=
  match _hread : mctMessageRead malloc msg (receiver.presented mem) resync with
  | (.ok, next) =>
      let (messages, last) := extractMessages removal malloc resync mem next
        (mctReceiverRemove receiver (removal next)).2
      (next.extracted :: messages, last)
  | (_, next) => ([], next, receiver)
termination_by receiver.bytesRcvd
decreasing_by
  apply mctReceiverRemove_lt
  intro hempty
  have hne := read_ne_ok_of_empty malloc msg mem receiver resync hempty
  rw [_hread] at hne
  exact hne rfl

def extractRound (removal : MctMessage → Int) (malloc : Malloc) (resync : Bool)
    (conn : ClientConnection) (incoming : List UInt8) : List ReadMessage × ClientConnection :=
  let (_, mem, receiver) := mctReceiverReceive conn.mem conn.receiver incoming
  let (messages, msg, receiver) := extractMessages removal malloc resync mem conn.msg receiver
  (messages, {mem := mem, receiver := mctReceiverMoveToBegin malloc mem receiver, msg := msg})

theorem processMessages_eq (malloc : Malloc) (resync : Bool) (mem : List UInt8)
    (msg : MctMessage) (receiver : MctReceiver) :
    processMessages malloc resync mem msg receiver =
      extractMessages MctMessage.bytesToBeRemoved malloc resync mem msg receiver := by
  induction hcount : receiver.bytesRcvd using Nat.strong_induction_on
    generalizing msg receiver with
  | _ count ih =>
      rw [processMessages, extractMessages]
      split
      · rename_i next hread
        have hne : receiver.bytesRcvd ≠ 0 := by
          intro hempty
          have hfail := read_ne_ok_of_empty malloc msg mem receiver resync hempty
          rw [hread] at hfail
          exact hfail rfl
        have hlt := mctReceiverRemove_lt receiver next.bytesToBeRemoved hne
        rw [ih _ (hcount ▸ hlt) next _ rfl]
      · rfl

theorem processClientMessages_eq (malloc : Malloc) (resync : Bool) (conn : ClientConnection)
    (incoming : List UInt8) :
    processClientMessages malloc resync conn incoming =
      extractRound MctMessage.bytesToBeRemoved malloc resync conn incoming := by
  simp only [processClientMessages, extractRound, processMessages_eq]

/-- What is read and removed is a frame of the bytes presented. -/
structure LoopReads (removal : MctMessage → Int) (result : MctMessageError × MctMessage)
    (parsed : Option (ReadMessage × Nat)) : Prop where
  buffer_length : result.2.headerbuffer.length = sizeofHeaderbuffer
  refused : parsed = none → result.1 ≠ .ok
  accepted : ∀ message taken, parsed = some (message, taken) →
    result.1 = .ok ∧ result.2.extracted = message ∧ removal result.2 = taken

section Processing

variable {malloc : Malloc} (resync : Bool) {mem : List UInt8} {removal : MctMessage → Int}
  {framing : Framing UInt8 ReadMessage}

/-- The loop reads the messages of the bytes presented and presents their
rest. -/
theorem extractMessages_drain
    (hloop : ∀ msg bytes, msg.headerbuffer.length = sizeofHeaderbuffer →
      LoopReads removal (mctMessageRead malloc msg bytes resync) (framing.read bytes))
    (bytes : List UInt8) {msg : MctMessage} {receiver : MctReceiver}
    (h : Presents mem receiver bytes)
    (hbuffer : msg.headerbuffer.length = sizeofHeaderbuffer) :
    (extractMessages removal malloc resync mem msg receiver).1 =
        (framing.drain bytes).1 ∧
      (extractMessages removal malloc resync mem msg receiver).2.1.headerbuffer.length =
        sizeofHeaderbuffer ∧
      Presents mem (extractMessages removal malloc resync mem msg receiver).2.2
        (framing.drain bytes).2 := by
  induction bytes using framing.drain_induction generalizing msg receiver with
  | none bytes hread =>
      have hreads := hloop msg bytes hbuffer
      have hrefused := hreads.refused hread
      rw [framing.drain_of_none hread, extractMessages]
      split
      · rename_i next hok
        rw [h.presented_eq] at hok
        rw [hok] at hrefused
        exact absurd rfl hrefused
      · rename_i next hne hresult
        rw [h.presented_eq] at hresult
        have hlen := hreads.buffer_length
        rw [hresult] at hlen
        exact ⟨rfl, hlen, h⟩
  | some bytes message taken hread ih =>
      have hreads := hloop msg bytes hbuffer
      obtain ⟨hok, hextracted, hremoved⟩ := hreads.accepted message taken hread
      obtain ⟨hpos, hle⟩ := framing.taken_pos _ _ _ hread
      rw [framing.drain_of_some hread, extractMessages]
      split
      · rename_i next hresult
        rw [h.presented_eq] at hresult
        rw [hresult] at hextracted hremoved
        have hlen := hreads.buffer_length
        rw [hresult] at hlen
        simp only at hextracted hremoved hlen
        obtain ⟨_, _, hnext⟩ := h.remove taken hpos hle
        rw [hremoved]
        obtain ⟨hmessages, hbufferLast, hlast⟩ := ih hnext hlen
        rw [hextracted]
        exact ⟨congrArg (message :: ·) hmessages, hbufferLast, hlast⟩
      · rename_i next hne hresult
        rw [h.presented_eq] at hresult
        rw [hresult] at hok
        exact (hne hok).elim

theorem moveToBegin_presented (receiver : MctReceiver) :
    (mctReceiverMoveToBegin malloc mem receiver).presented mem = receiver.presented mem := by
  unfold mctReceiverMoveToBegin
  split
  · split <;> rfl
  · rfl

/-- Between two deliveries: the connection still owes `rest`. -/
structure Owes (conn : ClientConnection) (rest : List UInt8) : Prop where
  carries : Carries conn.mem conn.receiver rest
  rest_eq : conn.rest = rest
  buffer_length : conn.msg.headerbuffer.length = sizeofHeaderbuffer

theorem openClient_owes (mem : List UInt8) (msg : MctMessage)
    (hbuffer : msg.headerbuffer.length = sizeofHeaderbuffer) : Owes (openClient mem msg) [] := by
  refine ⟨carries_init mem, ?_, hbuffer⟩
  simp [ClientConnection.rest, openClient, mctReceiverInit, MctReceiver.presented]

/-- One delivery: the messages of the rest and the chunk, and their rest. -/
theorem Owes.extract {conn : ClientConnection} {rest : List UInt8} (h : Owes conn rest)
    (hloop : ∀ msg bytes, msg.headerbuffer.length = sizeofHeaderbuffer →
      LoopReads removal (mctMessageRead malloc msg bytes resync) (framing.read bytes))
    (halloc : ∀ n, malloc.block n ≠ none) (incoming : List UInt8) (hfits : conn.Fits incoming) :
    (extractRound removal malloc resync conn incoming).1 =
        (framing.feed rest incoming).1 ∧
      Owes (extractRound removal malloc resync conn incoming).2
        (framing.feed rest incoming).2 ∧
      (extractRound removal malloc resync conn incoming).2.mem.length = conn.mem.length := by
  obtain ⟨hne, hroom⟩ := hfits
  rw [h.carries.count_eq] at hroom
  obtain ⟨_, hmem, _, hpresents⟩ := h.carries.receive incoming hne hroom
  obtain ⟨hmessages, hbuffer, hlast⟩ := extractMessages_drain resync hloop
    (rest ++ incoming) hpresents h.buffer_length
  refine ⟨hmessages, ⟨hlast.moveToBegin malloc (halloc _), ?_, hbuffer⟩, hmem⟩
  exact (moveToBegin_presented _).trans hlast.presented_eq

/-- A whole stream in one delivery, be it empty. -/
theorem extract_whole
    (hloop : ∀ msg bytes, msg.headerbuffer.length = sizeofHeaderbuffer →
      LoopReads removal (mctMessageRead malloc msg bytes resync) (framing.read bytes))
    (halloc : ∀ n, malloc.block n ≠ none) (mem : List UInt8)
    (msg : MctMessage) (hbuffer : msg.headerbuffer.length = sizeofHeaderbuffer)
    (stream : List UInt8) (hroom : stream.length ≤ mem.length) :
    (extractRound removal malloc resync (openClient mem msg) stream).1 =
        (framing.drain stream).1 ∧
      (extractRound removal malloc resync (openClient mem msg) stream).2.rest =
        (framing.drain stream).2 := by
  by_cases hempty : stream = []
  · subst hempty
    have hpresents : Presents mem (mctReceiverReceive mem (mctReceiverInit mem.length) []).2.2
        [] := by
      refine ⟨rfl, rfl, ?_, rfl, ?_⟩
      · simp [mctReceiverReceive, mctReceiverInit]
      · simp [mctReceiverReceive, MctReceiver.presented, slice]
    obtain ⟨hmessages, _, hlast⟩ := extractMessages_drain resync hloop [] hpresents hbuffer
    exact ⟨hmessages, (moveToBegin_presented _).trans hlast.presented_eq⟩
  · have hfits : (openClient mem msg).Fits stream :=
      ⟨hempty, by simpa [openClient, mctReceiverInit] using hroom⟩
    obtain ⟨hmessages, howes, _⟩ :=
      (openClient_owes mem msg hbuffer).extract resync hloop halloc stream hfits
    exact ⟨hmessages, howes.rest_eq⟩

/-- Any deliveries that fit extract the messages of the whole stream and leave
its rest. -/
theorem run_extract_drain
    (hloop : ∀ msg bytes, msg.headerbuffer.length = sizeofHeaderbuffer →
      LoopReads removal (mctMessageRead malloc msg bytes resync) (framing.read bytes))
    (halloc : ∀ n, malloc.block n ≠ none) (mem : List UInt8)
    (msg : MctMessage) (hbuffer : msg.headerbuffer.length = sizeofHeaderbuffer)
    (chunks : List (List UInt8))
    (hrun : Guarded (extractRound removal malloc resync) ClientConnection.Fits
      (openClient mem msg) chunks) :
    let run := runOps (extractRound removal malloc resync) (openClient mem msg) chunks
    run.1.flatten = (framing.drain chunks.flatten).1 ∧
      run.2.rest = (framing.drain chunks.flatten).2 := by
  obtain ⟨hreplies, hfinal⟩ := runOps_refines_of_guarded
    (fun conn rest incoming (h : Owes conn rest) hguard =>
      have hstep := h.extract resync hloop halloc incoming hguard
      ⟨hstep.1, hstep.2.1⟩)
    (openClient_owes mem msg hbuffer) chunks hrun
  have hempty : framing.read [] = none := by
    cases hread : framing.read [] with
    | none => rfl
    | some result =>
        have htaken := framing.taken_pos [] result.1 result.2 hread
        simp only [List.length_nil] at htaken
        omega
  have hpieces := framing.feed_pieces [] hempty chunks
  rw [List.nil_append] at hpieces
  rw [← hpieces]
  exact ⟨by rw [hreplies], hfinal.rest_eq⟩

/-- The daemon removes what the framing takes. -/
theorem daemon_loopReads (halloc : ∀ n, malloc.block n ≠ none) {msg : MctMessage}
    {bytes : List UInt8} (hbuffer : msg.headerbuffer.length = sizeofHeaderbuffer) :
    LoopReads MctMessage.bytesToBeRemoved (mctMessageRead malloc msg bytes resync)
      ((messageFraming resync).read bytes) := by
  have hreads := mctMessageRead_parseMessage halloc hbuffer bytes resync
  exact ⟨hreads.buffer_length, hreads.refused, hreads.accepted⟩

end Processing

/-- The messages extracted from a stream, and the rest behind the last one, do
not depend on how the stream is cut into chunks. -/
theorem client_framing_cut_independent (malloc : Malloc) (halloc : ∀ n, malloc.block n ≠ none)
    (resync : Bool) (mem wholeMem : List UInt8) (msg wholeMsg : MctMessage)
    (hbuffer : msg.headerbuffer.length = sizeofHeaderbuffer)
    (hwholeBuffer : wholeMsg.headerbuffer.length = sizeofHeaderbuffer)
    (chunks : List (List UInt8))
    (hrun : Guarded (processClientMessages malloc resync) ClientConnection.Fits
      (openClient mem msg) chunks)
    (hwhole : chunks.flatten.length ≤ wholeMem.length) :
    let cut := runOps (processClientMessages malloc resync) (openClient mem msg) chunks
    let whole := processClientMessages malloc resync (openClient wholeMem wholeMsg)
      chunks.flatten
    cut.1.flatten = whole.1 ∧ cut.2.rest = whole.2.rest := by
  have hround : processClientMessages malloc resync =
      extractRound MctMessage.bytesToBeRemoved malloc resync := by
    funext conn incoming
    exact processClientMessages_eq malloc resync conn incoming
  intro cut whole
  rw [hround] at hrun
  obtain ⟨hmessages, hrest⟩ := run_extract_drain resync
    (fun _ _ => daemon_loopReads resync halloc) halloc mem msg hbuffer chunks hrun
  obtain ⟨hwholeMessages, hwholeRest⟩ := extract_whole resync
    (fun _ _ => daemon_loopReads resync halloc) halloc wholeMem wholeMsg hwholeBuffer
    chunks.flatten hwhole
  rw [← hround] at hmessages hrest hwholeMessages hwholeRest
  exact ⟨hmessages.trans hwholeMessages.symm, hrest.trans hwholeRest.symm⟩

/-- A stray byte, a message behind a serial header, and the start of another:
the chunks cut the serial header and the standard header. -/
theorem client_framing_cut_independent_four :
    let chunks : List (List UInt8) :=
      [[9, 68], [76, 83, 1, 32, 0, 0], [6, 1, 2], [68, 76, 83, 1, 32]]
    let cut := runOps (processClientMessages Malloc.zeroed true)
      (openClient (List.replicate 12 0) mctMessageInit) chunks
    let whole := processClientMessages Malloc.zeroed true
      (openClient (List.replicate 16 0) mctMessageInit) chunks.flatten
    cut.1 = [[], [], [⟨[32, 0, 0, 6], [1, 2], true, 11⟩], []] ∧
      cut.1.flatten = whole.1 ∧ cut.2.rest = whole.2.rest := by
  intro chunks cut whole
  have hrun : Guarded (processClientMessages Malloc.zeroed true) ClientConnection.Fits
      (openClient (List.replicate 12 0) mctMessageInit) chunks :=
    ⟨by decide +kernel, by decide +kernel, by decide +kernel, by decide +kernel, trivial⟩
  refine ⟨by decide +kernel, ?_⟩
  exact client_framing_cut_independent Malloc.zeroed (by simp [Malloc.zeroed]) true
    (List.replicate 12 0) (List.replicate 16 0) mctMessageInit mctMessageInit rfl rfl chunks
    hrun (by decide)

end MctDaemon.Daemon
