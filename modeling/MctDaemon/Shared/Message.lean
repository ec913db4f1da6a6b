import MctDaemon.Lib.Stream
import MctDaemon.Shared.Types

/-!
`mct_message_read`: one message from the front of a byte string, with an
optional serial header and an optional scan for it. The reader is stateful,
it keeps its header and data buffers; `parseMessage` says what it finds, and
finding it does not depend on the bytes that follow.
-/

namespace MctDaemon.Shared

open Lib

/-- `MCT_MESSAGE_ERROR_OK` to `MCT_MESSAGE_ERROR_CONTENT`. -/
inductive MctMessageError where
  | ok
  | unknown
  | size
  | content
  deriving DecidableEq, Repr

def sizeofStorageHeader : Nat := 16

def sizeofStandardHeader : Nat := 4

def sizeofExtendedHeader : Nat := 10

/-- The size of `headerbuffer`: all headers with twelve bytes of extra
parameters. -/
def sizeofHeaderbuffer : Nat := 42

def mctSerialHeader : List UInt8 := [68, 76, 83, 1]

/-- `MctMessage`. The block at `databuffer` has `databuffersize` bytes. The
header values that point into `headerbuffer` or are decoded from it are left
out. -/
structure MctMessage where
  foundSerialheader : Bool
  resyncOffset : Nat
  headersize : Nat
  datasize : Int
  headerbuffer : List UInt8
  databuffer : Option (List UInt8)
  deriving DecidableEq, Repr

/-- `mct_message_init`, with a cleared header buffer. -/
def mctMessageInit : MctMessage where
  foundSerialheader := false
  resyncOffset := 0
  headersize := 0
  datasize := 0
  headerbuffer := List.replicate sizeofHeaderbuffer 0
  databuffer := none

/-- A bit of `htyp`: `MCT_IS_HTYP_UEH` is bit 0, `WEID` bit 2, `WSID` bit 3 and
`WTMS` bit 4. -/
def isHtyp (bit : Nat) (htyp : UInt8) : Bool := htyp.toNat.testBit bit

def standardHeaderExtraSize (htyp : UInt8) : Nat :=
  (if isHtyp 2 htyp then 4 else 0) + (if isHtyp 3 htyp then 4 else 0) +
    (if isHtyp 4 htyp then 4 else 0)

/-- The extra parameters and the extended header that `htyp` announces. -/
def extraSize (htyp : UInt8) : Nat :=
  standardHeaderExtraSize htyp + if isHtyp 0 htyp then sizeofExtendedHeader else 0

/-- `MCT_BETOH_16` of the length in a standard header. -/
def messageLength (standard : List UInt8) : Nat :=
  256 * (standard.getD 2 0).toNat + (standard.getD 3 0).toNat

/-- The `do` loop of the resync scan on the bytes from `offset` on: whether
the serial header was found, and the offset at the end. -/
def resyncScan : List UInt8 → Nat → Bool × Nat
  | [], offset => (false, offset + 1)
  | byte :: rest, offset =>
      if (byte :: rest).take 4 = mctSerialHeader then (true, offset)
      else if mctSerialHeader.length ≤ rest.length then resyncScan rest (offset + 1)
      else (false, offset + 1)

/-- The block for the payload: the last one, unless it is too small. -/
def payloadBlock (malloc : Malloc) (databuffer : Option (List UInt8)) (datasize : Int) :
    Option (List UInt8) :=
  match databuffer with
  | some block => if datasize > block.length then malloc.block datasize.toNat else some block
  | none => malloc.block datasize.toNat

/-- `mct_message_read` from the point where the headers are loaded. -/
def readPayload (malloc : Malloc) (msg : MctMessage) (buffer : List UInt8) :
    MctMessageError × MctMessage :=
  if buffer.length < msg.headersize - sizeofStorageHeader + msg.datasize then (.size, msg)
  else
    match payloadBlock malloc msg.databuffer msg.datasize with
    | none => (.unknown, {msg with databuffer := none})
    | some block =>
        (.ok, {msg with
          databuffer := some (copyInto block 0
            (slice buffer (msg.headersize - sizeofStorageHeader) msg.datasize.toNat))})

/-- `mct_message_read` from the point where the standard header is next. -/
def readHeaders (malloc : Malloc) (msg : MctMessage) (buffer : List UInt8) :
    MctMessageError × MctMessage :=
  if buffer.length < sizeofStandardHeader then (.size, msg)
  else
    let standard := buffer.take sizeofStandardHeader
    let extra := extraSize (standard.getD 0 0)
    let headersize := sizeofStorageHeader + sizeofStandardHeader + extra
    let datasize : Int := messageLength standard - (headersize - sizeofStorageHeader)
    let msg := {msg with
      headerbuffer := copyInto msg.headerbuffer sizeofStorageHeader standard
      headersize := headersize
      datasize := datasize}
    if datasize < 0 then (.content, msg)
    else if 0 < extra ∧ buffer.length < headersize - sizeofStorageHeader then (.size, msg)
    else
      let headerbuffer :=
        if 0 < extra then
          copyInto msg.headerbuffer (sizeofStorageHeader + sizeofStandardHeader)
            (slice buffer sizeofStandardHeader extra)
        else msg.headerbuffer
      readPayload malloc {msg with headerbuffer := headerbuffer} buffer

def mctMessageRead (malloc : Malloc) (msg : MctMessage) (buffer : List UInt8)
    (resync : Bool) : MctMessageError × MctMessage :=
  if buffer.length = 0 then (.unknown, msg)
  else
    let msg := {msg with resyncOffset := 0}
    if buffer.length < mctSerialHeader.length then (.size, msg)
    else if buffer.take mctSerialHeader.length = mctSerialHeader then
      readHeaders malloc {msg with foundSerialheader := true}
        (buffer.drop mctSerialHeader.length)
    else if resync then
      let (found, offset) := resyncScan buffer 0
      readHeaders malloc {msg with foundSerialheader := found, resyncOffset := offset}
        (buffer.drop ((if found then mctSerialHeader.length else 0) + offset))
    else readHeaders malloc {msg with foundSerialheader := false} buffer

/-- A message as it was read: the header bytes without the storage header, the
payload, the serial header flag and the bytes removed for it. -/
structure ReadMessage where
  header : List UInt8
  payload : List UInt8
  foundSerialheader : Bool
  removed : Int
  deriving DecidableEq, Repr

/-- `bytes_to_be_removed`, as the callers of `mct_message_read` compute it. -/
def MctMessage.bytesToBeRemoved (msg : MctMessage) : Int :=
  msg.headersize + msg.datasize - sizeofStorageHeader +
    (if msg.foundSerialheader then mctSerialHeader.length else 0) + msg.resyncOffset

def MctMessage.extracted (msg : MctMessage) : ReadMessage where
  header := slice msg.headerbuffer sizeofStorageHeader (msg.headersize - sizeofStorageHeader)
  payload := (msg.databuffer.getD []).take msg.datasize.toNat
  foundSerialheader := msg.foundSerialheader
  removed := msg.bytesToBeRemoved

section Parsing

/-- Where the standard header of the next message starts, and whether a serial
header stands before it. -/
def locateHeader (resync : Bool) (buffer : List UInt8) : Option (Bool × Nat) :=
  if buffer.length < mctSerialHeader.length then none
  else if buffer.take mctSerialHeader.length = mctSerialHeader then
    some (true, mctSerialHeader.length)
  else if resync then
    let (found, offset) := resyncScan buffer 0
    if found then some (true, mctSerialHeader.length + offset) else none
  else some (false, 0)

/-- The message whose standard header comes first in `body`. -/
def parseBody (serial : Bool) (start : Nat) (body : List UInt8) :
    Option (ReadMessage × Nat) :=
  let standard := body.take sizeofStandardHeader
  let head := sizeofStandardHeader + extraSize (standard.getD 0 0)
  let length := messageLength standard
  if body.length < sizeofStandardHeader then none
  else if length < head then none
  else if body.length < length then none
  else
    some (⟨body.take head, slice body head (length - head), serial, (start + length : Nat)⟩,
      start + length)

/-- The message at the front of a byte string, if it is there completely. -/
def parseMessage (resync : Bool) (buffer : List UInt8) : Option (ReadMessage × Nat) :=
  match locateHeader resync buffer with
  | none => none
  | some (serial, start) => parseBody serial start (buffer.drop start)

theorem extraSize_le (htyp : UInt8) : extraSize htyp ≤ 22 := by
  unfold extraSize standardHeaderExtraSize sizeofExtendedHeader
  split <;> split <;> split <;> split <;> omega

private theorem take_append_enough {α : Type*} {n : Nat} {front more : List α}
    (h : n ≤ front.length) : (front ++ more).take n = front.take n :=
  List.take_append_of_le_length h

/-- A serial header that was found lies inside the bytes scanned, and bytes
behind them are not looked at. -/
theorem resyncScan_found {bytes : List UInt8} {offset found : Nat}
    (h : resyncScan bytes offset = (true, found)) :
    offset ≤ found ∧ found + 4 ≤ offset + bytes.length ∧
      ∀ more, resyncScan (bytes ++ more) offset = (true, found) := by
  induction bytes generalizing offset with
  | nil => cases h
  | cons byte rest ih =>
      simp only [resyncScan] at h
      split at h
      · rename_i hhead
        have hlen : 4 ≤ (byte :: rest).length := by
          have hfour := congrArg List.length hhead
          simp only [List.length_take, mctSerialHeader, List.length_cons, List.length_nil]
            at hfour
          simp only [List.length_cons]
          omega
        cases h
        refine ⟨le_refl _, by omega, ?_⟩
        intro more
        rw [List.cons_append, resyncScan, ← List.cons_append, take_append_enough hlen,
          if_pos hhead]
      · rename_i hhead
        split at h
        · rename_i hmore
          obtain ⟨hge, hinside, hstable⟩ := ih h
          have hlen : 4 ≤ (byte :: rest).length := by
            simp only [List.length_cons]
            simp only [mctSerialHeader, List.length_cons, List.length_nil] at hmore
            omega
          refine ⟨by omega, by simp only [List.length_cons]; omega, ?_⟩
          intro more
          rw [List.cons_append, resyncScan, ← List.cons_append, take_append_enough hlen,
            if_neg hhead, if_pos (by rw [List.length_append]; omega)]
          exact hstable more
        · cases h

/-- A scan without success stops three bytes before the end. -/
theorem resyncScan_missed {bytes : List UInt8} {offset last : Nat}
    (hlen : 4 ≤ bytes.length) (h : resyncScan bytes offset = (false, last)) :
    last + 3 = offset + bytes.length := by
  induction bytes generalizing offset with
  | nil => simp at hlen
  | cons byte rest ih =>
      simp only [resyncScan] at h
      split at h
      · cases h
      · split at h
        · rename_i hmore
          have hrest := ih (by simpa [mctSerialHeader] using hmore) h
          simp only [List.length_cons]
          omega
        · rename_i hend
          cases h
          simp only [mctSerialHeader, List.length_cons, List.length_nil] at hend hlen ⊢
          omega

theorem locateHeader_stable {resync serial : Bool} {buffer : List UInt8} {start : Nat}
    (h : locateHeader resync buffer = some (serial, start)) :
    start ≤ buffer.length ∧
      ∀ more, locateHeader resync (buffer ++ more) = some (serial, start) := by
  unfold locateHeader at h
  split at h
  · cases h
  · rename_i hlen
    have hlong (more : List UInt8) : ¬ (buffer ++ more).length < mctSerialHeader.length := by
      rw [List.length_append]
      omega
    split at h
    · rename_i hhead
      cases h
      refine ⟨by omega, ?_⟩
      intro more
      unfold locateHeader
      rw [if_neg (hlong more), take_append_enough (by omega), if_pos hhead]
    · rename_i hhead
      split at h
      · rename_i hresync
        cases hscan : resyncScan buffer 0 with
        | mk found offset =>
            simp only [hscan] at h
            split at h
            · rename_i hfound
              subst hfound
              cases h
              obtain ⟨_, hinside, hstable⟩ := resyncScan_found hscan
              refine ⟨by simp only [mctSerialHeader, List.length_cons, List.length_nil]; omega, ?_⟩
              intro more
              unfold locateHeader
              rw [if_neg (hlong more), take_append_enough (by omega), if_neg hhead,
                if_pos hresync, hstable more]
              rfl
            · cases h
      · rename_i hresync
        cases h
        refine ⟨Nat.zero_le _, ?_⟩
        intro more
        unfold locateHeader
        rw [if_neg (hlong more), take_append_enough (by omega), if_neg hhead, if_neg hresync]

theorem parseBody_stable {serial : Bool} {start taken : Nat} {body : List UInt8}
    {message : ReadMessage} (h : parseBody serial start body = some (message, taken)) :
    start + sizeofStandardHeader ≤ taken ∧ taken ≤ start + body.length ∧
      ∀ more, parseBody serial start (body ++ more) = some (message, taken) := by
  unfold parseBody at h
  simp only at h
  split at h
  · cases h
  · rename_i hstandard
    split at h
    · cases h
    · rename_i hhead
      split at h
      · cases h
      · rename_i hwhole
        cases h
        refine ⟨by omega, by omega, ?_⟩
        intro more
        have hlen : (body ++ more).length = body.length + more.length := List.length_append
        unfold parseBody
        simp only [take_append_enough (Nat.le_of_not_lt hstandard)]
        rw [if_neg (by omega), if_neg hhead, if_neg (by omega), take_append_enough (by omega)]
        unfold slice
        rw [List.drop_append_of_le_length (by omega),
          take_append_enough (by rw [List.length_drop]; omega)]

/-- A message that was read stays what it is, whatever arrives behind it. -/
theorem parseMessage_stable {resync : Bool} {buffer : List UInt8} {message : ReadMessage}
    {taken : Nat} (h : parseMessage resync buffer = some (message, taken)) :
    (0 < taken ∧ taken ≤ buffer.length) ∧
      ∀ more, parseMessage resync (buffer ++ more) = some (message, taken) := by
  unfold parseMessage at h
  cases hlocate : locateHeader resync buffer with
  | none =>
      rw [hlocate] at h
      cases h
  | some located =>
      obtain ⟨serial, start⟩ := located
      rw [hlocate] at h
      obtain ⟨hstart, hlocated⟩ := locateHeader_stable hlocate
      obtain ⟨hpos, hle, hparsed⟩ := parseBody_stable h
      rw [List.length_drop] at hle
      refine ⟨⟨by simp only [sizeofStandardHeader] at hpos; omega, by omega⟩, ?_⟩
      intro more
      unfold parseMessage
      rw [hlocated more]
      simp only
      rw [List.drop_append_of_le_length hstart]
      exact hparsed more

def messageFraming (resync : Bool) : Framing UInt8 ReadMessage where
  read := parseMessage resync
  taken_pos _ _ _ h := (parseMessage_stable h).1
  stable _ more _ _ h := (parseMessage_stable h).2 more

end Parsing

section Reading

variable {malloc : Malloc} {msg : MctMessage}

/-- What a call of `mct_message_read` leaves behind says what was parsed. -/
structure ReadsAs (result : MctMessageError × MctMessage)
    (parsed : Option (ReadMessage × Nat)) : Prop where
  buffer_length : result.2.headerbuffer.length = sizeofHeaderbuffer
  refused : parsed = none → result.1 ≠ .ok
  accepted : ∀ message taken, parsed = some (message, taken) →
    result.1 = .ok ∧ result.2.extracted = message ∧ result.2.bytesToBeRemoved = taken

theorem ReadsAs.refuse {error : MctMessageError} (herror : error ≠ .ok)
    (hbuffer : msg.headerbuffer.length = sizeofHeaderbuffer) : ReadsAs (error, msg) none := by
  refine ⟨hbuffer, fun _ => herror, ?_⟩
  intro message taken h
  cases h

/-- The two copies into the header buffer put the headers side by side. -/
theorem headers_copied {headerbuffer body : List UInt8} {extra : Nat}
    (hbuffer : headerbuffer.length = sizeofHeaderbuffer) (hextra : extra ≤ 22)
    (hbody : sizeofStandardHeader + extra ≤ body.length) :
    let copied := copyInto
      (copyInto headerbuffer sizeofStorageHeader (body.take sizeofStandardHeader))
      (sizeofStorageHeader + sizeofStandardHeader) (slice body sizeofStandardHeader extra)
    copied.length = sizeofHeaderbuffer ∧
      slice copied sizeofStorageHeader (sizeofStandardHeader + extra) =
        body.take (sizeofStandardHeader + extra) := by
  have hstorage : sizeofStorageHeader = 16 := rfl
  have hstandard : sizeofStandardHeader = 4 := rfl
  have hwhole : sizeofHeaderbuffer = 42 := rfl
  have hfour : (body.take sizeofStandardHeader).length = sizeofStandardHeader := by
    rw [List.length_take]
    omega
  have hrest : (slice body sizeofStandardHeader extra).length = extra :=
    slice_length _ _ _ hbody
  have hfirst : (copyInto headerbuffer sizeofStorageHeader
      (body.take sizeofStandardHeader)).length = sizeofHeaderbuffer := by
    rw [copyInto_length _ _ _ (by omega), hbuffer]
  have hsecond := copyInto_length
    (copyInto headerbuffer sizeofStorageHeader (body.take sizeofStandardHeader))
    (sizeofStorageHeader + sizeofStandardHeader) (slice body sizeofStandardHeader extra)
    (by omega)
  refine ⟨hsecond.trans hfirst, ?_⟩
  have hfront := take_copyInto_append headerbuffer sizeofStorageHeader
    (body.take sizeofStandardHeader) (by omega)
  have hboth := take_copyInto_append
    (copyInto headerbuffer sizeofStorageHeader (body.take sizeofStandardHeader))
    (sizeofStorageHeader + sizeofStandardHeader) (slice body sizeofStandardHeader extra)
    (by omega)
  rw [hfour] at hfront
  rw [hfront, hrest, List.append_assoc] at hboth
  have hstart : (headerbuffer.take sizeofStorageHeader).length = sizeofStorageHeader := by
    rw [List.length_take]
    omega
  have hdropped := congrArg (List.drop sizeofStorageHeader) hboth
  have hsize : sizeofStorageHeader + sizeofStandardHeader + extra - sizeofStorageHeader =
      sizeofStandardHeader + extra := by omega
  have hsplit : body.take (sizeofStandardHeader + extra) =
      body.take sizeofStandardHeader ++ (body.drop sizeofStandardHeader).take extra :=
    List.take_add
  rw [List.drop_take, List.drop_left' hstart, hsize] at hdropped
  rw [hsplit]
  exact hdropped

theorem payloadBlock_fits (halloc : ∀ n, malloc.block n ≠ none)
    (databuffer : Option (List UInt8)) (datasize : Nat) :
    ∃ block, payloadBlock malloc databuffer datasize = some block ∧
      datasize ≤ block.length := by
  have hfresh : ∃ block, malloc.block datasize = some block ∧ datasize ≤ block.length := by
    cases hblock : malloc.block datasize with
    | none => exact absurd hblock (halloc datasize)
    | some block => exact ⟨block, rfl, (malloc.length_eq _ _ hblock).ge⟩
  unfold payloadBlock
  cases databuffer with
  | none => exact hfresh
  | some block =>
      simp only
      split
      · exact hfresh
      · exact ⟨block, rfl, by omega⟩

/-- With the headers in place, the payload decides. -/
theorem readPayload_spec (halloc : ∀ n, malloc.block n ≠ none)
    (hbuffer : msg.headerbuffer.length = sizeofHeaderbuffer) (body : List UInt8)
    (start head length : Nat) (hhead : msg.headersize = sizeofStorageHeader + head)
    (hdata : msg.datasize = (length - head : Nat)) (hle : head ≤ length)
    (hheader : head ≤ body.length →
      slice msg.headerbuffer sizeofStorageHeader head = body.take head)
    (hstart : start = (if msg.foundSerialheader then mctSerialHeader.length else 0) +
      msg.resyncOffset) :
    ReadsAs (readPayload malloc msg body)
      (if body.length < length then none
      else
        some (⟨body.take head, slice body head (length - head), msg.foundSerialheader,
          (start + length : Nat)⟩, start + length)) := by
  have hsize : msg.headersize - sizeofStorageHeader = head := by omega
  have hsizeInt : (msg.headersize : Int) - sizeofStorageHeader = head := by omega
  unfold readPayload
  rw [hdata, hsizeInt, hsize]
  by_cases hwhole : body.length < length
  · rw [if_pos hwhole, if_pos (by omega)]
    exact ReadsAs.refuse (by decide) hbuffer
  · rw [if_neg hwhole, if_neg (by omega)]
    obtain ⟨block, hblock, hfits⟩ := payloadBlock_fits halloc msg.databuffer (length - head)
    rw [hblock]
    refine ⟨hbuffer, ?_, ?_⟩
    · intro hnone
      cases hnone
    · intro message taken hparsed
      cases hparsed
      have hremoved : (msg.headersize : Int) + (length - head : Nat) - sizeofStorageHeader +
          (if msg.foundSerialheader then mctSerialHeader.length else 0) + msg.resyncOffset =
          (start + length : Nat) := by
        rw [hstart, hhead]
        split <;> push_cast [Nat.cast_sub hle] <;> ring
      have hpayloadLen : (slice body head (length - head)).length = length - head :=
        slice_length _ _ _ (by omega)
      have hpayload := take_copyInto_append block 0 (slice body head (length - head))
        (Nat.zero_le _)
      rw [hpayloadLen, Nat.zero_add, List.take_zero, List.nil_append] at hpayload
      refine ⟨rfl, ?_, hremoved⟩
      unfold MctMessage.extracted
      rw [ReadMessage.mk.injEq]
      refine ⟨?_, ?_, rfl, hremoved⟩
      · simp only [hsize]
        exact hheader (by omega)
      · simp only [Option.getD_some, Int.toNat_natCast]
        exact hpayload

theorem readHeaders_parseBody (halloc : ∀ n, malloc.block n ≠ none)
    (hbuffer : msg.headerbuffer.length = sizeofHeaderbuffer) (body : List UInt8)
    (start : Nat)
    (hstart : start = (if msg.foundSerialheader then mctSerialHeader.length else 0) +
      msg.resyncOffset) :
    ReadsAs (readHeaders malloc msg body) (parseBody msg.foundSerialheader start body) := by
  unfold readHeaders parseBody
  simp only
  by_cases hstandard : body.length < sizeofStandardHeader
  · rw [if_pos hstandard, if_pos hstandard]
    exact ReadsAs.refuse (by decide) hbuffer
  have hextra := extraSize_le ((body.take sizeofStandardHeader).getD 0 0)
  rw [if_neg hstandard, if_neg hstandard]
  generalize hlength : messageLength (body.take sizeofStandardHeader) = length
  generalize extraSize ((body.take sizeofStandardHeader).getD 0 0) = extra at hextra
  have hcopied : (copyInto msg.headerbuffer sizeofStorageHeader
      (body.take sizeofStandardHeader)).length = sizeofHeaderbuffer := by
    rw [copyInto_length, hbuffer]
    rw [List.length_take, hbuffer]
    simp only [sizeofStorageHeader, sizeofStandardHeader, sizeofHeaderbuffer]
    omega
  have hsizes : ((sizeofStorageHeader + sizeofStandardHeader + extra : Nat) : Int) -
      sizeofStorageHeader = (sizeofStandardHeader + extra : Nat) := by
    push_cast
    ring
  have hhead : sizeofStorageHeader + sizeofStandardHeader + extra - sizeofStorageHeader =
      sizeofStandardHeader + extra := by omega
  rw [hsizes, hhead]
  by_cases hshort : length < sizeofStandardHeader + extra
  · rw [if_pos hshort, if_pos (by omega)]
    exact ReadsAs.refuse (by decide) hcopied
  rw [if_neg hshort, if_neg (by omega)]
  have hdatasize : (length : Int) - (sizeofStandardHeader + extra : Nat) =
      ((length - (sizeofStandardHeader + extra) : Nat) : Int) := by omega
  rw [hdatasize]
  by_cases hmissing : 0 < extra ∧ body.length < sizeofStandardHeader + extra
  · rw [if_pos hmissing, if_pos (by omega)]
    exact ReadsAs.refuse (by decide) hcopied
  rw [if_neg hmissing]
  -- without extra parameters nothing is copied, which is copying no bytes
  have hheaders : (if 0 < extra then
        copyInto (copyInto msg.headerbuffer sizeofStorageHeader (body.take sizeofStandardHeader))
          (sizeofStorageHeader + sizeofStandardHeader) (slice body sizeofStandardHeader extra)
      else copyInto msg.headerbuffer sizeofStorageHeader (body.take sizeofStandardHeader)) =
      copyInto (copyInto msg.headerbuffer sizeofStorageHeader (body.take sizeofStandardHeader))
        (sizeofStorageHeader + sizeofStandardHeader) (slice body sizeofStandardHeader extra) := by
    split
    · rfl
    · have hzero : extra = 0 := by omega
      simp [hzero, slice]
  have hbody : sizeofStandardHeader + extra ≤ body.length := by omega
  obtain ⟨hlen, hslice⟩ := headers_copied hbuffer hextra hbody
  rw [hheaders]
  exact readPayload_spec halloc hlen body start (sizeofStandardHeader + extra) length
    (Nat.add_assoc _ _ _) rfl (Nat.le_of_not_lt hshort) (fun _ => hslice) hstart

/-- `mct_message_read` finds what is at the front of the buffer, whatever it
read before. -/
theorem mctMessageRead_parseMessage (halloc : ∀ n, malloc.block n ≠ none)
    (hbuffer : msg.headerbuffer.length = sizeofHeaderbuffer) (buffer : List UInt8)
    (resync : Bool) :
    ReadsAs (mctMessageRead malloc msg buffer resync) (parseMessage resync buffer) := by
  unfold mctMessageRead parseMessage locateHeader
  by_cases hempty : buffer.length = 0
  · rw [if_pos hempty, if_pos (by rw [hempty]; decide)]
    exact ReadsAs.refuse (by decide) hbuffer
  rw [if_neg hempty]
  simp only
  by_cases hshort : buffer.length < mctSerialHeader.length
  · rw [if_pos hshort, if_pos hshort]
    exact ReadsAs.refuse (by decide) hbuffer
  rw [if_neg hshort, if_neg hshort]
  by_cases hserial : buffer.take mctSerialHeader.length = mctSerialHeader
  · rw [if_pos hserial, if_pos hserial]
    exact @readHeaders_parseBody malloc
      {msg with resyncOffset := 0, foundSerialheader := true} halloc hbuffer
      (buffer.drop mctSerialHeader.length) mctSerialHeader.length rfl
  rw [if_neg hserial, if_neg hserial]
  by_cases hresync : resync = true
  · rw [if_pos hresync, if_pos hresync]
    cases hscan : resyncScan buffer 0 with
    | mk found offset =>
        cases found with
        | true =>
            exact @readHeaders_parseBody malloc
              {msg with resyncOffset := offset, foundSerialheader := true} halloc hbuffer
              (buffer.drop (mctSerialHeader.length + offset))
              (mctSerialHeader.length + offset) rfl
        | false =>
            have hlast := resyncScan_missed
              (by simpa [mctSerialHeader] using Nat.le_of_not_lt hshort) hscan
            have hrest : (buffer.drop ((if false = true then mctSerialHeader.length else 0) +
                offset)).length < sizeofStandardHeader := by
              rw [List.length_drop]
              simp only [sizeofStandardHeader, Bool.false_eq_true, if_false]
              omega
            simp only [readHeaders]
            rw [if_pos hrest]
            exact ReadsAs.refuse (by decide) hbuffer
  · rw [if_neg hresync, if_neg hresync]
    exact @readHeaders_parseBody malloc
      {msg with resyncOffset := 0, foundSerialheader := false} halloc hbuffer buffer 0 rfl

theorem readPayload_append {body : List UInt8} (more : List UInt8) {head length : Nat}
    (hhead : msg.headersize = sizeofStorageHeader + head)
    (hdata : msg.datasize = (length - head : Nat)) (hle : head ≤ length)
    (hwhole : length ≤ body.length) :
    readPayload malloc msg (body ++ more) = readPayload malloc msg body := by
  have hsize : msg.headersize - sizeofStorageHeader = head := by omega
  have hsizeInt : (msg.headersize : Int) - sizeofStorageHeader = head := by omega
  have hslice : slice (body ++ more) head (length - head) = slice body head (length - head) := by
    unfold slice
    rw [List.drop_append_of_le_length (by omega),
      List.take_append_of_le_length (by rw [List.length_drop]; omega)]
  unfold readPayload
  rw [hdata, hsizeInt, hsize, Int.toNat_natCast, hslice, List.length_append,
    if_neg (by omega), if_neg (by omega)]

/-- What stands behind a whole message is not looked at. -/
theorem readHeaders_append {serial : Bool} {start taken : Nat} {body : List UInt8}
    {message : ReadMessage} (h : parseBody serial start body = some (message, taken))
    (more : List UInt8) :
    readHeaders malloc msg (body ++ more) = readHeaders malloc msg body := by
  unfold parseBody at h
  simp only at h
  split at h
  · cases h
  rename_i hstandard
  split at h
  · cases h
  rename_i hhead
  split at h
  · cases h
  rename_i hwhole
  have hlength : (body ++ more).length = body.length + more.length := List.length_append
  have htake : (body ++ more).take sizeofStandardHeader = body.take sizeofStandardHeader :=
    List.take_append_of_le_length (Nat.le_of_not_lt hstandard)
  unfold readHeaders
  simp only [htake]
  generalize hlen : messageLength (body.take sizeofStandardHeader) = length at hhead hwhole
  generalize extraSize ((body.take sizeofStandardHeader).getD 0 0) = extra at hhead
  have hslice : slice (body ++ more) sizeofStandardHeader extra =
      slice body sizeofStandardHeader extra := by
    unfold slice
    rw [List.drop_append_of_le_length (by omega),
      List.take_append_of_le_length (by rw [List.length_drop]; omega)]
  have hdata : ¬ (length : Int) -
      ((sizeofStorageHeader + sizeofStandardHeader + extra : Nat) - sizeofStorageHeader) < 0 := by
    omega
  have hthere : ¬ (0 < extra ∧ body.length <
      sizeofStorageHeader + sizeofStandardHeader + extra - sizeofStorageHeader) := by omega
  have hthereMore : ¬ (0 < extra ∧ (body ++ more).length <
      sizeofStorageHeader + sizeofStandardHeader + extra - sizeofStorageHeader) := by omega
  rw [hslice, if_neg (by omega), if_neg hdata, if_neg hthereMore, if_neg hstandard, if_neg hdata,
    if_neg hthere]
  apply readPayload_append more (Nat.add_assoc _ _ _) _ (Nat.le_of_not_lt hhead)
    (Nat.le_of_not_lt hwhole)
  dsimp only
  omega

/-- A message that is there completely is read as if nothing stood behind it. -/
theorem mctMessageRead_append {buffer : List UInt8} {message : ReadMessage} {taken : Nat}
    (h : parseMessage false buffer = some (message, taken)) (more : List UInt8) :
    mctMessageRead malloc msg (buffer ++ more) false = mctMessageRead malloc msg buffer false := by
  unfold parseMessage locateHeader at h
  by_cases hshort : buffer.length < mctSerialHeader.length
  · rw [if_pos hshort] at h
    cases h
  rw [if_neg hshort] at h
  have hfour : mctSerialHeader.length = 4 := rfl
  have hlength : (buffer ++ more).length = buffer.length + more.length := List.length_append
  have htake : (buffer ++ more).take mctSerialHeader.length =
      buffer.take mctSerialHeader.length :=
    List.take_append_of_le_length (Nat.le_of_not_lt hshort)
  have hsome : ¬ buffer.length = 0 := by omega
  have hsomeMore : ¬ (buffer ++ more).length = 0 := by omega
  have hshortMore : ¬ (buffer ++ more).length < mctSerialHeader.length := by omega
  unfold mctMessageRead
  simp only [htake, Bool.false_eq_true, if_false] at h ⊢
  rw [if_neg hsomeMore, if_neg hshortMore, if_neg hsome, if_neg hshort]
  by_cases hserial : buffer.take mctSerialHeader.length = mctSerialHeader
  · rw [if_pos hserial] at h
    rw [if_pos hserial, if_pos hserial, List.drop_append_of_le_length (by omega)]
    exact readHeaders_append h more
  · rw [if_neg hserial] at h
    rw [if_neg hserial, if_neg hserial]
    exact readHeaders_append h more

theorem readHeaders_resyncOffset (buffer : List UInt8) :
    (readHeaders malloc msg buffer).2.resyncOffset = msg.resyncOffset := by
  unfold readHeaders readPayload
  split
  · rfl
  dsimp only
  split
  · rfl
  split
  · rfl
  split
  · rfl
  split
  · rfl
  · rfl

/-- Without a scan nothing is skipped. -/
theorem mctMessageRead_resyncOffset {buffer : List UInt8} (hne : buffer ≠ []) :
    (mctMessageRead malloc msg buffer false).2.resyncOffset = 0 := by
  unfold mctMessageRead
  rw [if_neg (by simpa using hne)]
  dsimp only
  split
  · rfl
  split
  · exact readHeaders_resyncOffset _
  · exact readHeaders_resyncOffset _

end Reading

end MctDaemon.Shared
