import MctDaemon.Shared.Message

/-!
`mct_message_read` with the whole of the message structure, the decoded extra
parameters and the pointer to the extended header included. The structure is
reused from message to message; what a read leaves in it is compared over two
earlier states.
-/

namespace MctDaemon.Shared

open Lib

section Model

structure HeaderExtra where
  ecu : List UInt8
  seid : Nat
  tmsp : Nat
  deriving DecidableEq, Repr

/-- `MctMessage` with the values decoded from its headers. `extendedheader` is
the position in the header buffer, or `NULL`. -/
structure MctMessageState where
  msg : MctMessage
  headerextra : HeaderExtra
  extendedheader : Option Nat
  deriving DecidableEq, Repr

/-- `MCT_BETOH_32` of four bytes. -/
def beNat32 (bytes : List UInt8) : Nat := bytes.foldl (fun n b => 256 * n + b.toNat) 0

def extraOffset : Nat := sizeofStorageHeader + sizeofStandardHeader

def mctMessageGetExtraparameters (headerbuffer : List UInt8) (htyp : UInt8) (old : HeaderExtra) :
    HeaderExtra :=
  let weid := if isHtyp 2 htyp then 4 else 0
  let wsid := if isHtyp 3 htyp then 4 else 0
  { ecu := if isHtyp 2 htyp then slice headerbuffer extraOffset 4 else old.ecu
    seid := if isHtyp 3 htyp then beNat32 (slice headerbuffer (extraOffset + weid) 4) else old.seid
    tmsp :=
      if isHtyp 4 htyp then beNat32 (slice headerbuffer (extraOffset + (weid + wsid)) 4)
      else old.tmsp }

/-- `mct_message_read` from the point where the payload is loaded. -/
def readPayloadState (malloc : Malloc) (st : MctMessageState) (buffer : List UInt8) :
    MctMessageError × MctMessageState :=
  let (code, msg) := readPayload malloc st.msg buffer
  (code, { st with msg := msg })

/-- `mct_message_read` from the point where the standard header is next. -/
def readHeadersState (malloc : Malloc) (st : MctMessageState) (buffer : List UInt8) :
    MctMessageError × MctMessageState :=
  if buffer.length < sizeofStandardHeader then (.size, st)
  else
    let standard := buffer.take sizeofStandardHeader
    let htyp := standard.getD 0 0
    let extra := extraSize htyp
    let headersize := sizeofStorageHeader + sizeofStandardHeader + extra
    let datasize : Int := messageLength standard - (headersize - sizeofStorageHeader)
    let msg := { st.msg with
      headerbuffer := copyInto st.msg.headerbuffer sizeofStorageHeader standard
      headersize := headersize
      datasize := datasize }
    if datasize < 0 then (.content, { st with msg := msg })
    else if 0 < extra then
      if buffer.length < headersize - sizeofStorageHeader then (.size, { st with msg := msg })
      else
        let headerbuffer := copyInto msg.headerbuffer extraOffset
          (slice buffer sizeofStandardHeader extra)
        readPayloadState malloc
          { msg := { msg with headerbuffer := headerbuffer }
            headerextra := mctMessageGetExtraparameters headerbuffer htyp st.headerextra
            extendedheader :=
              if isHtyp 0 htyp then some (extraOffset + standardHeaderExtraSize htyp) else none }
          buffer
    else readPayloadState malloc { st with msg := msg } buffer

/-- `mct_message_read`. -/
def mctMessageReadState (malloc : Malloc) (st : MctMessageState) (buffer : List UInt8)
    (resync : Bool) : MctMessageError × MctMessageState :=
  if buffer.length = 0 then (.unknown, st)
  else
    let msg := { st.msg with resyncOffset := 0 }
    if buffer.length < mctSerialHeader.length then (.size, { st with msg := msg })
    else if buffer.take mctSerialHeader.length = mctSerialHeader then
      readHeadersState malloc { st with msg := { msg with foundSerialheader := true } }
        (buffer.drop mctSerialHeader.length)
    else if resync then
      let (found, offset) := resyncScan buffer 0
      readHeadersState malloc
        { st with msg := { msg with foundSerialheader := found, resyncOffset := offset } }
        (buffer.drop ((if found then mctSerialHeader.length else 0) + offset))
    else
      readHeadersState malloc { st with msg := { msg with foundSerialheader := false } } buffer

end Model

section Projection

variable (malloc : Malloc) (st : MctMessageState)

/-- Result and state without the decoded values. -/
def withoutExtra (result : MctMessageError × MctMessageState) : MctMessageError × MctMessage :=
  (result.1, result.2.msg)

theorem withoutExtra_readHeadersState (buffer : List UInt8) :
    withoutExtra (readHeadersState malloc st buffer) = readHeaders malloc st.msg buffer := by
  unfold readHeadersState readHeaders
  simp only
  by_cases hstandard : buffer.length < sizeofStandardHeader
  · rw [if_pos hstandard, if_pos hstandard]
    rfl
  rw [if_neg hstandard, if_neg hstandard]
  generalize extraSize ((buffer.take sizeofStandardHeader).getD 0 0) = extra
  split
  · rfl
  · by_cases hextra : 0 < extra
    · rw [if_pos hextra, if_pos hextra]
      simp only [hextra, true_and]
      split
      · rfl
      · rfl
    · rw [if_neg hextra, if_neg hextra, if_neg fun h => hextra h.1]
      rfl

/-- Without the decoded values, the call is the one on the rest of the state. -/
theorem withoutExtra_mctMessageReadState (buffer : List UInt8) (resync : Bool) :
    withoutExtra (mctMessageReadState malloc st buffer resync) =
      mctMessageRead malloc st.msg buffer resync := by
  unfold mctMessageReadState mctMessageRead
  split
  · rfl
  · simp only
    split
    · rfl
    · split
      · exact withoutExtra_readHeadersState malloc _ _
      · split
        · exact withoutExtra_readHeadersState malloc _ _
        · exact withoutExtra_readHeadersState malloc _ _

end Projection

section Outcome

variable {malloc : Malloc}

/-- The code for a message whose standard header comes first in `body`. -/
def bodyCode (body : List UInt8) : MctMessageError :=
  let standard := body.take sizeofStandardHeader
  let head := sizeofStandardHeader + extraSize (standard.getD 0 0)
  if body.length < sizeofStandardHeader then .size
  else if messageLength standard < head then .content
  else if body.length < messageLength standard then .size
  else .ok

/-- What a read of `body` leaves in the message. -/
structure HeadersRead (before after : MctMessageState) (body : List UInt8) : Prop where
  foundSerialheader : after.msg.foundSerialheader = before.msg.foundSerialheader
  resyncOffset : after.msg.resyncOffset = before.msg.resyncOffset
  headersize : after.msg.headersize = extraOffset + extraSize (body.getD 0 0)
  datasize : after.msg.datasize =
    messageLength body - (sizeofStandardHeader + extraSize (body.getD 0 0) : Nat)
  databuffer : ∃ block, after.msg.databuffer = some block ∧ after.msg.datasize ≤ block.length
  headerextra : after.headerextra =
    if 0 < extraSize (body.getD 0 0) then
      mctMessageGetExtraparameters after.msg.headerbuffer (body.getD 0 0) before.headerextra
    else before.headerextra
  extendedheader : after.extendedheader =
    if 0 < extraSize (body.getD 0 0) then
      if isHtyp 0 (body.getD 0 0) then
        some (extraOffset + standardHeaderExtraSize (body.getD 0 0))
      else none
    else before.extendedheader

theorem readPayloadState_outcome (halloc : ∀ n, malloc.block n ≠ none) (st : MctMessageState)
    (body : List UInt8) {datasize : Nat} (hdata : st.msg.datasize = datasize) {head : Nat}
    (hhead : st.msg.headersize = sizeofStorageHeader + head) :
    (readPayloadState malloc st body).1 = (if body.length < head + datasize then .size else .ok) ∧
      ((readPayloadState malloc st body).1 = .ok → ∃ block, datasize ≤ block.length ∧
        (readPayloadState malloc st body).2 =
          { st with msg := { st.msg with databuffer := some block } }) := by
  obtain ⟨⟨found, offset, headersize, data, headerbuffer, databuffer⟩, headerextra, extended⟩ := st
  simp only at hdata hhead
  subst hdata hhead
  unfold readPayloadState readPayload
  simp only [Int.toNat_natCast]
  have hsize : ((sizeofStorageHeader + head : Nat) : Int) - sizeofStorageHeader + datasize =
      (head + datasize : Nat) := by
    push_cast
    ring
  rw [hsize]
  by_cases hwhole : body.length < head + datasize
  · rw [if_pos (by omega), if_pos hwhole]
    exact ⟨rfl, nofun⟩
  · obtain ⟨block, hblock, hfits⟩ := payloadBlock_fits halloc databuffer datasize
    rw [if_neg (by omega), if_neg hwhole, hblock]
    refine ⟨rfl, fun _ => ⟨_, ?_, rfl⟩⟩
    have hpiece := List.length_take_le datasize
      (body.drop (sizeofStorageHeader + head - sizeofStorageHeader))
    rw [copyInto_length]
    · exact hfits
    · rw [slice, Nat.zero_add]
      exact hpiece.trans hfits

theorem getD_take_standard {body : List UInt8} (n : Nat) (hn : n < sizeofStandardHeader) :
    (body.take sizeofStandardHeader).getD n 0 = body.getD n 0 := by
  simp [List.getD_eq_getElem?_getD, hn]

theorem messageLength_take (body : List UInt8) :
    messageLength (body.take sizeofStandardHeader) = messageLength body := by
  rw [messageLength, getD_take_standard 2 (by decide), getD_take_standard 3 (by decide),
    messageLength]

theorem readHeadersState_outcome (halloc : ∀ n, malloc.block n ≠ none) (st : MctMessageState)
    (body : List UInt8) :
    (readHeadersState malloc st body).1 = bodyCode body ∧
      ((readHeadersState malloc st body).1 = .ok →
        HeadersRead st (readHeadersState malloc st body).2 body) := by
  unfold readHeadersState bodyCode
  simp only [getD_take_standard 0 (by decide : 0 < sizeofStandardHeader), messageLength_take]
  by_cases hstandard : body.length < sizeofStandardHeader
  · rw [if_pos hstandard, if_pos hstandard]
    exact ⟨rfl, nofun⟩
  rw [if_neg hstandard, if_neg hstandard]
  have hsize : ∀ extra : Nat, ((sizeofStorageHeader + sizeofStandardHeader + extra : Nat) : Int) -
      sizeofStorageHeader = (sizeofStandardHeader + extra : Nat) := by
    intro extra
    push_cast
    ring
  have hhead : ∀ extra : Nat, sizeofStorageHeader + sizeofStandardHeader + extra -
      sizeofStorageHeader = sizeofStandardHeader + extra := by
    intro extra
    omega
  rw [hsize, hhead]
  by_cases hshort : messageLength body < sizeofStandardHeader + extraSize (body.getD 0 0)
  · rw [if_pos (by omega), if_pos hshort]
    exact ⟨rfl, nofun⟩
  rw [if_neg (by omega), if_neg hshort]
  obtain ⟨datasize, hdatasize⟩ : ∃ datasize : Nat, messageLength body =
      sizeofStandardHeader + extraSize (body.getD 0 0) + datasize :=
    ⟨_, (Nat.add_sub_cancel' (Nat.le_of_not_lt hshort)).symm⟩
  have hdata : (messageLength body : Int) -
      (sizeofStandardHeader + extraSize (body.getD 0 0) : Nat) = datasize := by omega
  by_cases hextra : 0 < extraSize (body.getD 0 0)
  · rw [if_pos hextra]
    by_cases hmissing : body.length < sizeofStandardHeader + extraSize (body.getD 0 0)
    · rw [if_pos hmissing, if_pos (by omega)]
      exact ⟨rfl, nofun⟩
    rw [if_neg hmissing]
    obtain ⟨hcode, hread⟩ := readPayloadState_outcome halloc
      { msg := { st.msg with
          headersize := sizeofStorageHeader + (sizeofStandardHeader + extraSize (body.getD 0 0))
          datasize := datasize
          headerbuffer := copyInto (copyInto st.msg.headerbuffer sizeofStorageHeader
            (body.take sizeofStandardHeader)) extraOffset
            (slice body sizeofStandardHeader (extraSize (body.getD 0 0))) }
        headerextra := mctMessageGetExtraparameters (copyInto (copyInto st.msg.headerbuffer
          sizeofStorageHeader (body.take sizeofStandardHeader)) extraOffset
          (slice body sizeofStandardHeader (extraSize (body.getD 0 0)))) (body.getD 0 0)
          st.headerextra
        extendedheader :=
          if isHtyp 0 (body.getD 0 0) then
            some (extraOffset + standardHeaderExtraSize (body.getD 0 0))
          else none } body rfl rfl
    rw [← hdatasize] at hcode
    rw [hdata, Nat.add_assoc]
    refine ⟨hcode, fun hok => ?_⟩
    obtain ⟨block, hfits, hstate⟩ := hread hok
    rw [hstate]
    exact ⟨rfl, rfl, (Nat.add_assoc _ _ _).symm, hdata.symm, ⟨block, rfl, by simpa using hfits⟩,
      (if_pos hextra).symm, (if_pos hextra).symm⟩
  · rw [if_neg hextra]
    obtain ⟨hcode, hread⟩ := readPayloadState_outcome halloc
      { st with msg := { st.msg with
          headersize := sizeofStorageHeader + (sizeofStandardHeader + extraSize (body.getD 0 0))
          datasize := datasize
          headerbuffer := copyInto st.msg.headerbuffer sizeofStorageHeader
            (body.take sizeofStandardHeader) } } body rfl rfl
    rw [← hdatasize] at hcode
    rw [hdata, Nat.add_assoc]
    refine ⟨hcode, fun hok => ?_⟩
    obtain ⟨block, hfits, hstate⟩ := hread hok
    rw [hstate]
    exact ⟨rfl, rfl, (Nat.add_assoc _ _ _).symm, hdata.symm, ⟨block, rfl, by simpa using hfits⟩,
      (if_neg hextra).symm, (if_neg hextra).symm⟩

/-- The state with which the headers behind the serial header are read. -/
def MctMessageState.located (st : MctMessageState) (serial : Bool) (start : Nat) :
    MctMessageState :=
  { st with msg := { st.msg with
      resyncOffset := start - if serial then mctSerialHeader.length else 0
      foundSerialheader := serial } }

/-- The headers are read from where they stand, and nothing is read if there is
no place for them. -/
theorem mctMessageReadState_located (st : MctMessageState) (buffer : List UInt8) (resync : Bool) :
    match locateHeader resync buffer with
    | none => (mctMessageReadState malloc st buffer resync).1 =
        if buffer.length = 0 then .unknown else .size
    | some (serial, start) => mctMessageReadState malloc st buffer resync =
        readHeadersState malloc (st.located serial start) (buffer.drop start) := by
  unfold mctMessageReadState locateHeader
  by_cases hempty : buffer.length = 0
  · rw [if_pos hempty, if_pos (by rw [hempty]; decide), if_pos hempty]
  rw [if_neg hempty]
  simp only
  by_cases hshort : buffer.length < mctSerialHeader.length
  · rw [if_pos hshort, if_pos hshort]
    exact (if_neg hempty).symm
  rw [if_neg hshort, if_neg hshort]
  by_cases hserial : buffer.take mctSerialHeader.length = mctSerialHeader
  · rw [if_pos hserial, if_pos hserial]
    rfl
  rw [if_neg hserial, if_neg hserial]
  by_cases hresync : resync = true
  · rw [if_pos hresync, if_pos hresync]
    cases hscan : resyncScan buffer 0 with
    | mk found offset =>
        cases found with
        | true =>
            have hoffset : mctSerialHeader.length + offset - mctSerialHeader.length = offset := by
              omega
            simp only [MctMessageState.located, if_true, hoffset]
        | false =>
            have hlast := resyncScan_missed
              (by simpa [mctSerialHeader] using Nat.le_of_not_lt hshort) hscan
            have hrest : (buffer.drop ((if false = true then mctSerialHeader.length else 0) +
                offset)).length < sizeofStandardHeader := by
              rw [List.length_drop]
              simp only [sizeofStandardHeader, Bool.false_eq_true, if_false]
              omega
            simp only [readHeadersState]
            rw [if_pos hrest]
            exact (if_neg hempty).symm
  · rw [if_neg hresync, if_neg hresync]
    rfl

/-- The code of `mct_message_read`. -/
def messageCode (resync : Bool) (buffer : List UInt8) : MctMessageError :=
  match locateHeader resync buffer with
  | none => if buffer.length = 0 then .unknown else .size
  | some (_, start) => bodyCode (buffer.drop start)

theorem mctMessageReadState_code (halloc : ∀ n, malloc.block n ≠ none) (st : MctMessageState)
    (buffer : List UInt8) (resync : Bool) :
    (mctMessageReadState malloc st buffer resync).1 = messageCode resync buffer := by
  have hlocated := @mctMessageReadState_located malloc st buffer resync
  unfold messageCode
  cases hlocate : locateHeader resync buffer with
  | none =>
      rw [hlocate] at hlocated
      exact hlocated
  | some place =>
      rw [hlocate] at hlocated
      simp only at hlocated ⊢
      rw [hlocated]
      exact (readHeadersState_outcome halloc _ _).1

end Outcome

section Comparison

/-- What a read message says: its bytes, its sizes and the extra parameters that
`htyp` names. -/
structure MessageView where
  read : ReadMessage
  headersize : Nat
  datasize : Int
  resyncOffset : Nat
  ecu : Option (List UInt8)
  seid : Option Nat
  tmsp : Option Nat
  deriving DecidableEq, Repr

namespace MctMessageState

def htyp (st : MctMessageState) : UInt8 := st.msg.extracted.header.getD 0 0

def view (st : MctMessageState) : MessageView where
  read := st.msg.extracted
  headersize := st.msg.headersize
  datasize := st.msg.datasize
  resyncOffset := st.msg.resyncOffset
  ecu := if isHtyp 2 st.htyp then some st.headerextra.ecu else none
  seid := if isHtyp 3 st.htyp then some st.headerextra.seid else none
  tmsp := if isHtyp 4 st.htyp then some st.headerextra.tmsp else none

/-- The pointer to the extended header is set exactly if there is one, and the
message with all that was removed for it lies inside `length` bytes. -/
structure ReadWithin (st : MctMessageState) (length : Nat) : Prop where
  extendedheader : st.extendedheader =
    if isHtyp 0 st.htyp then some (extraOffset + standardHeaderExtraSize st.htyp) else none
  inside : st.msg.bytesToBeRemoved ≤ length
  datasize_nonneg : 0 ≤ st.msg.datasize
  databuffer : ∃ block, st.msg.databuffer = some block ∧ st.msg.datasize ≤ block.length

end MctMessageState

variable {malloc : Malloc} {buffer : List UInt8} {resync : Bool}

theorem parseMessage_locate {message : ReadMessage} {taken : Nat}
    (h : parseMessage resync buffer = some (message, taken)) :
    ∃ serial start, locateHeader resync buffer = some (serial, start) ∧
      message.header = (buffer.drop start).take
        (sizeofStandardHeader + extraSize ((buffer.drop start).getD 0 0)) ∧
      sizeofStandardHeader + extraSize ((buffer.drop start).getD 0 0) ≤
        messageLength (buffer.drop start) ∧ taken ≤ buffer.length := by
  unfold parseMessage at h
  split at h
  · cases h
  · next serial start hlocate =>
      refine ⟨serial, start, hlocate, ?_⟩
      have hinside := (parseBody_stable h).2.1
      have hstart := (locateHeader_stable hlocate).1
      rw [List.length_drop] at hinside
      unfold parseBody at h
      simp only [getD_take_standard 0 (by decide : 0 < sizeofStandardHeader),
        messageLength_take] at h
      split at h
      · cases h
      · split at h
        · cases h
        · split at h
          · cases h
          · cases h
            exact ⟨rfl, by omega, by omega⟩

/-- The extra parameters as they stand in the bytes of the headers. -/
def parsedView (message : ReadMessage) (start : Nat) : MessageView :=
  let htyp := message.header.getD 0 0
  let weid := if isHtyp 2 htyp then 4 else 0
  let wsid := if isHtyp 3 htyp then 4 else 0
  { read := message
    headersize := extraOffset + extraSize htyp
    datasize := messageLength message.header - (sizeofStandardHeader + extraSize htyp : Nat)
    resyncOffset := start - if message.foundSerialheader then mctSerialHeader.length else 0
    ecu := if isHtyp 2 htyp then some (slice message.header 4 4) else none
    seid := if isHtyp 3 htyp then some (beNat32 (slice message.header (4 + weid) 4)) else none
    tmsp :=
      if isHtyp 4 htyp then some (beNat32 (slice message.header (4 + (weid + wsid)) 4)) else none }

theorem slice_slice {α : Type*} (mem : List α) {off len a k : Nat} (h : a + k ≤ len) :
    slice (slice mem off len) a k = slice mem (off + a) k := by
  simp only [slice, List.drop_take, List.take_take, List.drop_drop]
  rw [min_eq_left (by omega)]

theorem extra_inside {htyp : UInt8} :
    (isHtyp 2 htyp → 4 ≤ extraSize htyp) ∧
    (isHtyp 3 htyp → (if isHtyp 2 htyp then 4 else 0) + 4 ≤ extraSize htyp) ∧
    (isHtyp 4 htyp → (if isHtyp 2 htyp then 4 else 0) + (if isHtyp 3 htyp then 4 else 0) + 4 ≤
      extraSize htyp) ∧ (isHtyp 0 htyp → 0 < extraSize htyp) := by
  have hsize : sizeofExtendedHeader = 10 := rfl
  refine ⟨fun h => ?_, fun h => ?_, fun h => ?_, fun h => ?_⟩
  · simp only [extraSize, standardHeaderExtraSize, h, if_true]
    omega
  · simp only [extraSize, standardHeaderExtraSize, h, if_true]
    omega
  · simp only [extraSize, standardHeaderExtraSize, h, if_true]
    omega
  · simp only [extraSize, h, if_true, hsize]
    omega

/-- The extra parameters are read from the part of the header buffer that holds the header. -/
theorem getExtraparameters_cut {headerbuffer header : List UInt8} {htyp : UInt8}
    (hcut : header = slice headerbuffer sizeofStorageHeader
      (sizeofStandardHeader + extraSize htyp)) (old : HeaderExtra) :
    (isHtyp 2 htyp →
      (mctMessageGetExtraparameters headerbuffer htyp old).ecu = slice header 4 4) ∧
    (isHtyp 3 htyp → (mctMessageGetExtraparameters headerbuffer htyp old).seid =
      beNat32 (slice header (4 + if isHtyp 2 htyp then 4 else 0) 4)) ∧
    (isHtyp 4 htyp → (mctMessageGetExtraparameters headerbuffer htyp old).tmsp =
      beNat32 (slice header
        (4 + ((if isHtyp 2 htyp then 4 else 0) + if isHtyp 3 htyp then 4 else 0)) 4)) := by
  obtain ⟨hin2, hin3, hin4, -⟩ := @extra_inside htyp
  have hslice : ∀ a : Nat, a + 4 ≤ extraSize htyp →
      slice headerbuffer (extraOffset + a) 4 = slice header (4 + a) 4 := by
    intro a ha
    rw [hcut, slice_slice _ (by simp only [sizeofStandardHeader]; omega)]
    congr 1
    simp only [extraOffset, sizeofStandardHeader]
    omega
  refine ⟨fun hbit => ?_, fun hbit => ?_, fun hbit => ?_⟩
  · simp only [mctMessageGetExtraparameters, hbit, if_true]
    rw [← hslice 0 (by have hpos := hin2 hbit; omega)]
    rfl
  · simp only [mctMessageGetExtraparameters, hbit, if_true]
    exact congrArg beNat32 (hslice _ (hin3 hbit))
  · simp only [mctMessageGetExtraparameters, hbit, if_true]
    exact congrArg beNat32 (hslice _ (hin4 hbit))

/-- A pointer to an extended header stays from the message before if the header has no extra
part. -/
theorem HeadersRead.readWithin_iff {before after : MctMessageState} {body : List UInt8}
    {length : Nat} (hread : HeadersRead before after body) (hhtyp : after.htyp = body.getD 0 0)
    (hlong : sizeofStandardHeader + extraSize (body.getD 0 0) ≤ messageLength body)
    (hinside : after.msg.bytesToBeRemoved ≤ length) :
    after.ReadWithin length ↔ 0 < extraSize (body.getD 0 0) ∨ before.extendedheader = none := by
  have hdata := hread.datasize
  have hin0 := (@extra_inside (body.getD 0 0)).2.2.2
  constructor
  · intro hwithin
    refine or_iff_not_imp_left.mpr fun hnone => ?_
    have hueh : ¬ isHtyp 0 (body.getD 0 0) := fun hbit => hnone (hin0 hbit)
    have hpointer := hwithin.extendedheader
    rw [hread.extendedheader, if_neg hnone, hhtyp, if_neg hueh] at hpointer
    exact hpointer
  · intro hcond
    refine ⟨?_, hinside, by omega, hread.databuffer⟩
    rw [hread.extendedheader, hhtyp]
    by_cases hpos : 0 < extraSize (body.getD 0 0)
    · rw [if_pos hpos]
    · have hueh : ¬ isHtyp 0 (body.getD 0 0) := fun hbit => hpos (hin0 hbit)
      rw [if_neg hpos, if_neg hueh]
      exact hcond.resolve_left hpos

/-- The values of the extra parameters are those of the parsed header. -/
theorem HeadersRead.view_eq {before after : MctMessageState} {body : List UInt8}
    {message : ReadMessage} {start : Nat} (hread : HeadersRead before after body)
    (hextracted : after.msg.extracted = message) (hhtyp : message.header.getD 0 0 = body.getD 0 0)
    (hlength : messageLength message.header = messageLength body)
    (hoffset : after.msg.resyncOffset =
      start - if message.foundSerialheader then mctSerialHeader.length else 0) :
    after.view = parsedView message start := by
  have hcut : message.header = slice after.msg.headerbuffer sizeofStorageHeader
      (sizeofStandardHeader + extraSize (body.getD 0 0)) := by
    have hsize : extraOffset + extraSize (body.getD 0 0) - sizeofStorageHeader =
        sizeofStandardHeader + extraSize (body.getD 0 0) := by
      simp only [extraOffset]
      omega
    rw [← hsize, ← hread.headersize, ← hextracted]
    rfl
  obtain ⟨hin2, hin3, hin4, -⟩ := @extra_inside (body.getD 0 0)
  obtain ⟨hecu, hseid, htmsp⟩ := getExtraparameters_cut hcut before.headerextra
  have hextra : 0 < extraSize (body.getD 0 0) →
      after.headerextra = mctMessageGetExtraparameters after.msg.headerbuffer (body.getD 0 0)
        before.headerextra := fun hpos => by rw [hread.headerextra, if_pos hpos]
  rw [MctMessageState.view, parsedView, MessageView.mk.injEq, MctMessageState.htyp, hextracted,
    hhtyp, hlength]
  refine ⟨rfl, hread.headersize, hread.datasize, hoffset, ?_, ?_, ?_⟩
  · by_cases hbit : isHtyp 2 (body.getD 0 0)
    · have hpos := hin2 hbit
      rw [if_pos hbit, if_pos hbit, hextra (by omega), hecu hbit]
    · rw [if_neg hbit, if_neg hbit]
  · by_cases hbit : isHtyp 3 (body.getD 0 0)
    · have hpos := hin3 hbit
      rw [if_pos hbit, if_pos hbit, hextra (by omega), hseid hbit]
    · rw [if_neg hbit, if_neg hbit]
  · by_cases hbit : isHtyp 4 (body.getD 0 0)
    · have hpos := hin4 hbit
      rw [if_pos hbit, if_pos hbit, hextra (by omega), htmsp hbit]
    · rw [if_neg hbit, if_neg hbit]

/-- A read that succeeds says what was parsed, and nothing of what was in the
structure before, up to the pointer to the extended header. -/
theorem mctMessageReadState_parsed (halloc : ∀ n, malloc.block n ≠ none) {st : MctMessageState}
    (hbuffer : st.msg.headerbuffer.length = sizeofHeaderbuffer) {message : ReadMessage}
    {taken : Nat}
    (h : parseMessage resync buffer = some (message, taken)) :
    (mctMessageReadState malloc st buffer resync).1 = .ok ∧
      ∃ start, (mctMessageReadState malloc st buffer resync).2.view = parsedView message start ∧
        ∃ serial, locateHeader resync buffer = some (serial, start) ∧
        ((mctMessageReadState malloc st buffer resync).2.ReadWithin buffer.length ↔
          0 < extraSize (message.header.getD 0 0) ∨ st.extendedheader = none) := by
  obtain ⟨serial, start, hlocate, hheader, hlong, hinside⟩ := parseMessage_locate h
  have hlocated := @mctMessageReadState_located malloc st buffer resync
  have hprojected := withoutExtra_mctMessageReadState malloc st buffer resync
  obtain ⟨hok, hextracted, hremoved⟩ :=
    (mctMessageRead_parseMessage halloc hbuffer buffer resync).accepted message taken h
  rw [← hprojected] at hok hextracted hremoved
  simp only [withoutExtra] at hok hextracted hremoved
  rw [hlocate] at hlocated
  simp only at hlocated
  have hread := (readHeadersState_outcome halloc (st.located serial start) (buffer.drop start)).2
    (by rw [← hlocated]; exact hok)
  rw [← hlocated] at hread
  generalize mctMessageReadState malloc st buffer resync = result at *
  obtain ⟨code, after⟩ := result
  simp only at hok hextracted hremoved hread ⊢
  generalize buffer.drop start = body at *
  have hhtyp : message.header.getD 0 0 = body.getD 0 0 := by
    rw [hheader]
    simp [List.getD_eq_getElem?_getD, sizeofStandardHeader]
  have hlength : messageLength message.header = messageLength body := by
    rw [hheader]
    simp only [messageLength, List.getD_eq_getElem?_getD, sizeofStandardHeader]
    rw [List.getElem?_take_of_lt (by omega), List.getElem?_take_of_lt (by omega)]
  have hserial : message.foundSerialheader = serial := by
    rw [← hextracted]
    exact hread.foundSerialheader
  have hoffset : after.msg.resyncOffset =
      start - if message.foundSerialheader then mctSerialHeader.length else 0 := by
    rw [hserial]
    exact hread.resyncOffset
  have hremains : after.msg.bytesToBeRemoved ≤ buffer.length := by
    rw [hremoved]
    exact_mod_cast hinside
  refine ⟨hok, start, hread.view_eq hextracted hhtyp hlength hoffset, serial, hlocate, ?_⟩
  rw [hhtyp]
  exact hread.readWithin_iff (by rw [MctMessageState.htyp, hextracted, hhtyp]) hlong hremains

end Comparison

section Resync

variable {malloc : Malloc}

/-- The first serial header of the buffer stands at `k`. -/
def FirstSerialHeader (buffer : List UInt8) (k : Nat) : Prop :=
  (buffer.drop k).take mctSerialHeader.length = mctSerialHeader ∧
    ∀ i < k, (buffer.drop i).take mctSerialHeader.length ≠ mctSerialHeader

theorem resyncScan_first {bytes : List UInt8} {k : Nat} (h : FirstSerialHeader bytes k)
    (offset : Nat) : resyncScan bytes offset = (true, offset + k) := by
  induction bytes generalizing k offset with
  | nil =>
      have hfound := h.1
      rw [List.drop_nil, List.take_nil] at hfound
      cases hfound
  | cons byte rest ih =>
      cases k with
      | zero =>
          have hhead : (byte :: rest).take 4 = mctSerialHeader := h.1
          rw [resyncScan, if_pos hhead]
          rfl
      | succ k =>
          have hlength := congrArg List.length h.1
          rw [List.length_take, List.drop_succ_cons, List.length_drop] at hlength
          have hfour : mctSerialHeader.length = 4 := rfl
          have hhead : (byte :: rest).take 4 ≠ mctSerialHeader := h.2 0 (Nat.succ_pos k)
          rw [resyncScan, if_neg hhead, if_pos (by omega),
            ih ⟨h.1, fun i hi => h.2 (i + 1) (Nat.succ_lt_succ hi)⟩, Nat.add_assoc, Nat.add_comm 1]

theorem locateHeader_first {buffer : List UInt8} {k : Nat} (h : FirstSerialHeader buffer k) :
    locateHeader true buffer = some (true, mctSerialHeader.length + k) := by
  have hlength := congrArg List.length h.1
  rw [List.length_take, List.length_drop] at hlength
  have hfour : mctSerialHeader.length = 4 := rfl
  unfold locateHeader
  rw [if_neg (by omega)]
  cases k with
  | zero =>
      have hhead : buffer.take mctSerialHeader.length = mctSerialHeader := h.1
      rw [if_pos hhead]
      rfl
  | succ k =>
      have hhead : buffer.take mctSerialHeader.length ≠ mctSerialHeader := h.2 0 (Nat.succ_pos k)
      rw [if_neg hhead, if_pos rfl, resyncScan_first h, Nat.zero_add]
      rfl

namespace MctMessageState

def withResyncOffset (st : MctMessageState) (k : Nat) : MctMessageState :=
  { st with msg := { st.msg with resyncOffset := k } }

end MctMessageState

theorem readPayloadState_withResyncOffset (st : MctMessageState) (k : Nat) (body : List UInt8) :
    readPayloadState malloc (st.withResyncOffset k) body =
      ((readPayloadState malloc st body).1,
        (readPayloadState malloc st body).2.withResyncOffset k) := by
  obtain ⟨⟨found, offset, headersize, datasize, headerbuffer, databuffer⟩, extra, extended⟩ := st
  unfold readPayloadState readPayload
  simp only [MctMessageState.withResyncOffset]
  by_cases hshort : (body.length : Int) < (headersize : Int) - sizeofStorageHeader + datasize
  · simp only [hshort, if_true]
  · simp only [hshort, if_false]
    cases payloadBlock malloc databuffer datasize with
    | none => rfl
    | some block => rfl

theorem readHeadersState_withResyncOffset (st : MctMessageState) (k : Nat) (body : List UInt8) :
    readHeadersState malloc (st.withResyncOffset k) body =
      ((readHeadersState malloc st body).1,
        (readHeadersState malloc st body).2.withResyncOffset k) := by
  unfold readHeadersState
  simp only [MctMessageState.withResyncOffset]
  split_ifs
  · rfl
  · rfl
  · rfl
  · exact readPayloadState_withResyncOffset ⟨⟨_, _, _, _, _, _⟩, _, _⟩ k body
  · exact readPayloadState_withResyncOffset ⟨⟨_, _, _, _, _, _⟩, _, _⟩ k body
  · exact readPayloadState_withResyncOffset ⟨⟨_, _, _, _, _, _⟩, _, _⟩ k body

/-- Resynchronising reads the buffer from the serial header on. -/
theorem mctMessageReadState_resync (st : MctMessageState) {buffer : List UInt8} {k : Nat}
    (h : FirstSerialHeader buffer k) :
    mctMessageReadState malloc st buffer true =
      ((mctMessageReadState malloc st (buffer.drop k) true).1,
        (mctMessageReadState malloc st (buffer.drop k) true).2.withResyncOffset k) := by
  have hfront : FirstSerialHeader (buffer.drop k) 0 := ⟨h.1, nofun⟩
  have hwhole := @mctMessageReadState_located malloc st buffer true
  have hrest := @mctMessageReadState_located malloc st (buffer.drop k) true
  rw [locateHeader_first h] at hwhole
  rw [locateHeader_first hfront] at hrest
  simp only at hwhole hrest
  rw [hwhole, hrest, List.drop_drop, Nat.add_zero, Nat.add_comm k,
    ← readHeadersState_withResyncOffset]
  congr 1
  simp [MctMessageState.located, MctMessageState.withResyncOffset]

end Resync

section Independence

/-- Two earlier states of the structure read the same, and the message lies
inside the buffer. -/
def ReadsAlike (malloc : Malloc) (st other : MctMessageState) (buffer : List UInt8)
    (resync : Bool) : Prop :=
  (mctMessageReadState malloc st buffer resync).1 =
      (mctMessageReadState malloc other buffer resync).1 ∧
    ((mctMessageReadState malloc st buffer resync).1 = .ok →
      (mctMessageReadState malloc st buffer resync).2.view =
          (mctMessageReadState malloc other buffer resync).2.view ∧
        (mctMessageReadState malloc st buffer resync).2.ReadWithin buffer.length ∧
        (mctMessageReadState malloc other buffer resync).2.ReadWithin buffer.length)

/-- With a serial header in the buffer, reading with resync is reading from the
first one on. -/
def ResyncsToFirst (malloc : Malloc) (st : MctMessageState) (buffer : List UInt8) : Prop :=
  ∀ k, FirstSerialHeader buffer k →
    mctMessageReadState malloc st buffer true =
      ((mctMessageReadState malloc st (buffer.drop k) true).1,
        (mctMessageReadState malloc st (buffer.drop k) true).2.withResyncOffset k)

/-- What `mct_message_read` makes of a buffer does not depend on the message
read before, unless the message has no extra parameters and no extended header:
then the pointer to the extended header stays as it was. -/
theorem message_read_independent_iff (malloc : Malloc) (halloc : ∀ n, malloc.block n ≠ none)
    (st other : MctMessageState) (hst : st.msg.headerbuffer.length = sizeofHeaderbuffer)
    (hother : other.msg.headerbuffer.length = sizeofHeaderbuffer) (buffer : List UInt8)
    (resync : Bool) :
    (ReadsAlike malloc st other buffer resync ∧ ResyncsToFirst malloc st buffer) ↔
      ∀ message taken, parseMessage resync buffer = some (message, taken) →
        0 < extraSize (message.header.getD 0 0) ∨
          st.extendedheader = none ∧ other.extendedheader = none := by
  have hcode : (mctMessageReadState malloc st buffer resync).1 =
      (mctMessageReadState malloc other buffer resync).1 := by
    rw [mctMessageReadState_code halloc, mctMessageReadState_code halloc]
  constructor
  · rintro ⟨⟨_, halike⟩, _⟩ message taken hparse
    obtain ⟨hok, start, _, _, _, hwithin⟩ := mctMessageReadState_parsed halloc hst hparse
    obtain ⟨_, start', _, _, _, hwithin'⟩ := mctMessageReadState_parsed halloc hother hparse
    obtain ⟨_, hread, hread'⟩ := halike hok
    rw [or_and_left]
    exact ⟨hwithin.mp hread, hwithin'.mp hread'⟩
  · intro hcond
    refine ⟨⟨hcode, fun hok => ?_⟩, fun k hk => mctMessageReadState_resync st hk⟩
    cases hparse : parseMessage resync buffer with
    | none =>
        have hrefused := (mctMessageRead_parseMessage halloc hst buffer resync).refused hparse
        rw [← withoutExtra_mctMessageReadState] at hrefused
        exact absurd hok hrefused
    | some parsed =>
        obtain ⟨message, taken⟩ := parsed
        have hextra := hcond message taken hparse
        rw [or_and_left] at hextra
        obtain ⟨_, start, hview, _, hlocate, hwithin⟩ :=
          mctMessageReadState_parsed halloc hst hparse
        obtain ⟨_, start', hview', _, hlocate', hwithin'⟩ :=
          mctMessageReadState_parsed halloc hother hparse
        rw [hlocate] at hlocate'
        cases hlocate'
        exact ⟨hview.trans hview'.symm, hwithin.mpr hextra.1, hwithin'.mpr hextra.2⟩

def freshMessage : MctMessageState := ⟨mctMessageInit, ⟨[0, 0, 0, 0], 0, 0⟩, none⟩

/-- The structure after a message with an extended header. -/
def usedMessage : MctMessageState :=
  (mctMessageReadState Malloc.zeroed freshMessage
    [0x21, 0, 0, 14, 0x41, 0, 65, 80, 80, 49, 67, 79, 78, 49] false).2

theorem message_read_independent_sample :
    ReadsAlike Malloc.zeroed freshMessage usedMessage [0x24, 0, 0, 9, 69, 67, 85, 49, 7] false ∧
      ResyncsToFirst Malloc.zeroed freshMessage [0x24, 0, 0, 9, 69, 67, 85, 49, 7] :=
  (message_read_independent_iff Malloc.zeroed nofun freshMessage usedMessage (by decide +kernel)
    (by decide +kernel) [0x24, 0, 0, 9, 69, 67, 85, 49, 7] false).mpr (by
      intro message taken hparse
      have hparsed : parseMessage false [0x24, 0, 0, 9, 69, 67, 85, 49, 7] =
          some (⟨[0x24, 0, 0, 9, 69, 67, 85, 49], [7], false, 9⟩, 9) := by decide +kernel
      rw [hparsed] at hparse
      cases hparse
      exact .inl (by decide))

/-- A message without any of them leaves the pointer to the last one's extended
header. -/
theorem extendedheader_left_behind :
    (mctMessageReadState Malloc.zeroed freshMessage [0x20, 0, 0, 4] false).1 = .ok ∧
      (mctMessageReadState Malloc.zeroed freshMessage [0x20, 0, 0, 4] false).2.extendedheader =
        none ∧
      (mctMessageReadState Malloc.zeroed usedMessage [0x20, 0, 0, 4] false).1 = .ok ∧
      (mctMessageReadState Malloc.zeroed usedMessage [0x20, 0, 0, 4] false).2.extendedheader =
        some 20 := by
  decide +kernel

end Independence

end MctDaemon.Shared
