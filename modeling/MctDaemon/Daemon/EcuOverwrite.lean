import MctDaemon.Shared.ExtraParameters
import MctDaemon.Shared.LogFileAccess
import MctDaemon.User.StoredMessages

/-!
`mct_daemon_client_send_message_to_all_client` gives a message with the default ECU id the id
that is configured. The setter that it uses leaves session id and timestamp in network byte
order; only the timestamp is converted back.
-/

namespace MctDaemon.Daemon

open Lib Shared User

section Model

def mctDaemonEcuId : List UInt8 := [69, 67, 85, 49]

/-- The `evalue` of the flags, and the `ecuid` of the daemon. -/
structure EcuSettings where
  evalue : List UInt8
  ecuid : List UInt8
  deriving DecidableEq, Repr

/-- `standardheader->htyp`. -/
def storedHtyp (st : MctMessageState) : UInt8 := st.msg.headerbuffer.getD sizeofStorageHeader 0

/-- The test in front of the overwriting; the default id has no zero, so that `strncmp` compares
all of its bytes. -/
def Overwrites (settings : EcuSettings) (st : MctMessageState) : Prop :=
  settings.evalue.headD 0 ≠ 0 ∧ st.headerextra.ecu.take mctIdSize = mctDaemonEcuId

instance (settings : EcuSettings) (st : MctMessageState) : Decidable (Overwrites settings st) :=
  inferInstanceAs (Decidable (_ ∧ _))

/-- The part of the function that is run for such a message. -/
def overwriteEcu (settings : EcuSettings) (st : MctMessageState) : MctMessageState :=
  let extra := { st.headerextra with ecu := (setIdBytes settings.ecuid).bytes }
  let (headerbuffer, extra) :=
    mctMessageSetExtraparameters st.msg.headerbuffer (storedHtyp st) extra
  { st with
    msg := { st.msg with headerbuffer := headerbuffer }
    headerextra := { extra with tmsp := mctHtobe32 extra.tmsp } }

/-- `mct_set_storageheader` at a time given by its eight bytes. -/
def mctSetStorageheader (headerbuffer time ecu : List UInt8) : List UInt8 :=
  copyInto headerbuffer 0 ([68, 76, 84, 1] ++ time ++ (setIdBytes ecu).bytes)

/-- `mct_daemon_client_send_message_to_all_client` up to the sending: the message that is
handed to `mct_daemon_client_send`. -/
def mctDaemonClientSendMessageToAllClient (settings : EcuSettings) (time : List UInt8)
    (st : MctMessageState) : MctMessageState :=
  let st := if Overwrites settings st then overwriteEcu settings st else st
  let ecu := if isHtyp 2 (storedHtyp st) then st.headerextra.ecu else settings.ecuid
  { st with msg := { st.msg with
      headerbuffer := mctSetStorageheader st.msg.headerbuffer time ecu } }

end Model

section Received

/-- The values of the structure are those in the headers. -/
def Received (st : MctMessageState) : Prop :=
  mctMessageGetExtraparameters st.msg.headerbuffer (storedHtyp st) st.headerextra = st.headerextra

/-- A message that was read has the values of its headers. -/
theorem received_of_read {malloc : Malloc} (halloc : ∀ n, malloc.block n ≠ none)
    {st : MctMessageState} (hbuffer : st.msg.headerbuffer.length = sizeofHeaderbuffer)
    {buffer : List UInt8} {resync : Bool} {message : ReadMessage} {taken : Nat}
    (h : parseMessage resync buffer = some (message, taken)) :
    Received (mctMessageReadState malloc st buffer resync).2 := by
  obtain ⟨serial, start, hlocate, hheader, -, -⟩ := parseMessage_locate h
  have hlocated := @mctMessageReadState_located malloc st buffer resync
  have hprojected := withoutExtra_mctMessageReadState malloc st buffer resync
  obtain ⟨hok, hextracted, -⟩ :=
    (mctMessageRead_parseMessage halloc hbuffer buffer resync).accepted message taken h
  rw [← hprojected] at hok hextracted
  rw [hlocate] at hlocated
  simp only [withoutExtra] at hok hextracted hlocated
  have hread := (readHeadersState_outcome halloc (st.located serial start) (buffer.drop start)).2
    (by rw [← hlocated]; exact hok)
  rw [← hlocated] at hread
  generalize (mctMessageReadState malloc st buffer resync).2 = after at hread hextracted
  generalize buffer.drop start = body at hread hheader
  have hhtyp : storedHtyp after = body.getD 0 0 := by
    have hbody : message.header.getD 0 0 = body.getD 0 0 := by
      rw [hheader]
      simp [List.getD_eq_getElem?_getD, sizeofStandardHeader]
    have hsize : 0 < extraOffset + extraSize (body.getD 0 0) - sizeofStorageHeader := by
      simp only [extraOffset, sizeofStorageHeader, sizeofStandardHeader]
      omega
    rw [← hbody, ← hextracted, storedHtyp, MctMessage.extracted, hread.headersize, slice,
      List.getD_eq_getElem?_getD, List.getD_eq_getElem?_getD, List.getElem?_take_of_lt hsize,
      List.getElem?_drop, Nat.add_zero]
  have hextra := hread.headerextra
  rw [Received, hhtyp]
  split at hextra
  · rw [hextra]
    simp only [mctMessageGetExtraparameters, HeaderExtra.mk.injEq]
    refine ⟨?_, ?_, ?_⟩
    · split
      · rfl
      · rfl
    · split
      · rfl
      · rfl
    · split
      · rfl
      · rfl
  · next hnone =>
      obtain ⟨hecu, hseid, htmsp, -⟩ := @extra_inside (body.getD 0 0)
      simp only [mctMessageGetExtraparameters]
      rw [if_neg fun hbit => hnone (by have := hecu hbit; omega),
        if_neg fun hbit => hnone (by have := hseid hbit; omega),
        if_neg fun hbit => hnone (by have := htmsp hbit; omega)]

end Received

section Overwrite

variable {settings : EcuSettings} {time : List UInt8} {st : MctMessageState} {ecu : List UInt8}
  {seid tmsp : UInt32}

/-- Only the ECU id of the headers that were received is another one, and the structure still
holds the session id and the timestamp of the message. -/
structure KeepsReceived (before after : MctMessageState) : Prop where
  headers : ∀ i, sizeofStorageHeader ≤ i →
    ¬ (isHtyp 2 (storedHtyp before) ∧ extraOffset ≤ i ∧ i < extraOffset + mctIdSize) →
      after.msg.headerbuffer[i]? = before.msg.headerbuffer[i]?
  seid : isHtyp 3 (storedHtyp before) → after.headerextra.seid = before.headerextra.seid
  tmsp : isHtyp 4 (storedHtyp before) → after.headerextra.tmsp = before.headerextra.tmsp

variable (hbuffer : st.msg.headerbuffer.length = sizeofHeaderbuffer)
  (hextra : st.headerextra = ⟨ecu, seid.toNat, tmsp.toNat⟩)

include hbuffer hextra

/-- The headers of a received message are written as they are, up to the ECU id. -/
theorem overwriteEcu_headerbuffer (hreceived : Received st) :
    (overwriteEcu settings st).msg.headerbuffer = copyInto st.msg.headerbuffer extraOffset
      (if isHtyp 2 (storedHtyp st) then (setIdBytes settings.ecuid).bytes else []) := by
  have hid := (setIdBytes settings.ecuid).length_eq
  have hoffset : extraOffset + 12 ≤ st.msg.headerbuffer.length := by
    rw [hbuffer]
    decide
  rw [overwriteEcu]
  simp only [hextra]
  rw [mctMessageSetExtraparameters_eq (by omega) hid]
  simp only [extraBytes]
  apply copyInto_standing
  rw [length_if _ hid]
  -- the numbers that are written were read from there
  rw [Received, hextra, mctMessageGetExtraparameters, HeaderExtra.mk.injEq] at hreceived
  obtain ⟨-, hseid, htmsp⟩ := hreceived
  have hnumber : ∀ (named : Bool) (off : Nat) (v : UInt32), off + 4 ≤ extraOffset + 12 →
      (named → beNat32 (slice st.msg.headerbuffer off 4) = v.toNat) →
      slice st.msg.headerbuffer off (if named then (leBytes 4 v.toNat).reverse else []).length =
        if named then (leBytes 4 v.toNat).reverse else [] := by
    intro named off v hoff hread
    cases named with
    | false => rfl
    | true =>
        have hlength : (slice st.msg.headerbuffer off 4).length = 4 :=
          slice_length _ _ _ (by omega)
        have hbytes := eq_reverse_of_beNat32 v hlength (hread rfl)
        simp only [if_true]
        rw [leBytes_reverse_length, hbytes]
  have hstep : ∀ named : Bool, (if named then 4 else 0) ≤ 4 := by decide
  rw [List.length_append, slice_add, hnumber, length_if _ (leBytes_reverse_length seid),
    Nat.add_assoc, hnumber]
  · have hweid := hstep (isHtyp 2 (storedHtyp st))
    have hwsid := hstep (isHtyp 3 (storedHtyp st))
    omega
  · intro hwtms
    rw [if_pos hwtms] at htmsp
    exact htmsp
  · have hweid := hstep (isHtyp 2 (storedHtyp st))
    omega
  · intro hwsid
    rw [if_pos hwsid] at hseid
    exact hseid

/-- The timestamp is converted in every message, the session id in those that have one. -/
theorem overwriteEcu_headerextra :
    (overwriteEcu settings st).headerextra =
      { ecu := (setIdBytes settings.ecuid).bytes
        seid := (if isHtyp 3 (storedHtyp st) then mctSwap32 seid else seid).toNat
        tmsp := (if isHtyp 4 (storedHtyp st) then tmsp else mctSwap32 tmsp).toNat } := by
  have hid := (setIdBytes settings.ecuid).length_eq
  have hoffset : extraOffset ≤ st.msg.headerbuffer.length := by
    rw [hbuffer]
    decide
  rw [overwriteEcu]
  simp only [hextra]
  rw [mctMessageSetExtraparameters_eq hoffset hid]
  simp only [swapped, mctHtobe32_toNat, HeaderExtra.mk.injEq, true_and]
  split
  · rw [mctSwap32_mctSwap32]
  · rfl

/-- A message whose ECU id is overwritten keeps the rest if and only if it has no session id, or
one that reads the same in both byte orders. -/
theorem keepsReceived_iff (htime : time.length = 8) (hover : Overwrites settings st)
    (hreceived : Received st) :
    KeepsReceived st (mctDaemonClientSendMessageToAllClient settings time st) ↔
      (isHtyp 3 (storedHtyp st) → mctSwap32 seid = seid) := by
  have hbytes := @overwriteEcu_headerbuffer settings st ecu seid tmsp hbuffer hextra hreceived
  have hvalues := @overwriteEcu_headerextra settings st ecu seid tmsp hbuffer hextra
  have hid := (setIdBytes settings.ecuid).length_eq
  have hsent : (mctDaemonClientSendMessageToAllClient settings time st).headerextra =
      (overwriteEcu settings st).headerextra := by
    simp only [mctDaemonClientSendMessageToAllClient, if_pos hover]
  constructor
  · intro h hwsid
    have hseid := h.seid hwsid
    rw [hsent, hvalues, hextra, if_pos hwsid] at hseid
    exact UInt32.toNat_inj.mp hseid
  · intro h
    refine ⟨?_, ?_, ?_⟩
    · intro i hstorage hi
      have hpiece : (if isHtyp 2 (storedHtyp st) then (setIdBytes settings.ecuid).bytes
          else []).length = if isHtyp 2 (storedHtyp st) then 4 else 0 := length_if _ hid
      have hinside : extraOffset + (if isHtyp 2 (storedHtyp st) then
          (setIdBytes settings.ecuid).bytes else []).length ≤ st.msg.headerbuffer.length := by
        rw [hpiece, hbuffer]
        split
        · decide
        · decide
      have hoverwritten := getElem?_copyInto hinside (i := i) (by
        rw [hpiece]
        split
        · next hweid =>
            have hout : ¬ (extraOffset ≤ i ∧ i < extraOffset + 4) := fun hin => hi ⟨hweid, hin⟩
            omega
        · omega)
      have hlength := copyInto_length _ _ _ hinside
      simp only [mctDaemonClientSendMessageToAllClient, if_pos hover, mctSetStorageheader, hbytes]
      rw [getElem?_copyInto, hoverwritten]
      · rw [hlength, hbuffer, List.length_append, (setIdBytes _).length_eq, List.length_append,
          htime]
        decide
      · rw [List.length_append, (setIdBytes _).length_eq, List.length_append, htime]
        exact .inr hstorage
    · intro hwsid
      rw [hsent, hvalues, hextra, if_pos hwsid, h hwsid]
    · intro hwtms
      rw [hsent, hvalues, hextra, if_pos hwtms]

omit hextra in
/-- What a caller of the setter, and what a sender to all clients, finds unchanged. -/
theorem extraParameters_iff (htyp : UInt8) (hecu : ecu.length = mctIdSize) (htime : time.length = 8)
    (hextra : st.headerextra = ⟨ecu, seid.toNat, tmsp.toNat⟩) :
    (RoundTrips st.msg.headerbuffer htyp st.headerextra ↔ Palindromic htyp seid tmsp) ∧
      (Overwrites settings st → Received st →
        (KeepsReceived st (mctDaemonClientSendMessageToAllClient settings time st) ↔
          (isHtyp 3 (storedHtyp st) → mctSwap32 seid = seid))) := by
  have hoffset : extraOffset ≤ st.msg.headerbuffer.length := by
    rw [hbuffer]
    decide
  constructor
  · rw [hextra]
    exact roundTrips_iff_palindromic hoffset hecu seid tmsp
  · intro hover hreceived
    exact keepsReceived_iff hbuffer hextra htime hover hreceived

end Overwrite

section Sample

/-- A message of the default ECU with the session id 1. -/
def sessionMessage : MctMessageState where
  msg := { mctMessageInit with
    headersize := 28
    headerbuffer := List.replicate 16 0 ++ [0x2c, 0, 0, 12] ++ mctDaemonEcuId ++ [0, 0, 0, 1] ++
      List.replicate 14 0 }
  headerextra := ⟨mctDaemonEcuId, 1, 0⟩
  extendedheader := none

/-- The ECU id `HU` is configured. -/
def headUnit : EcuSettings := ⟨[72, 85], [72, 85, 0, 0]⟩

/-- The same message with a session id that reads alike from both ends. -/
def palindromeMessage : MctMessageState where
  msg := { mctMessageInit with
    headersize := 28
    headerbuffer := List.replicate 16 0 ++ [0x2c, 0, 0, 12] ++ mctDaemonEcuId ++ [1, 0, 0, 1] ++
      List.replicate 14 0 }
  headerextra := ⟨mctDaemonEcuId, 0x01000001, 0⟩
  extendedheader := none

theorem extraParameters_iff_palindrome :
    RoundTrips palindromeMessage.msg.headerbuffer 0x2c palindromeMessage.headerextra ∧
      KeepsReceived palindromeMessage (mctDaemonClientSendMessageToAllClient headUnit
        (List.replicate 8 0) palindromeMessage) := by
  obtain ⟨hround, hkeeps⟩ := @extraParameters_iff headUnit (List.replicate 8 0) palindromeMessage
    mctDaemonEcuId 0x01000001 0 rfl 0x2c rfl rfl rfl
  constructor
  · exact hround.mpr ⟨fun _ => by decide, fun _ => by decide⟩
  · exact (hkeeps (by decide) rfl).mpr fun _ => by decide

/-- The session id is left as 0x01000000, by the setter and by the daemon. -/
theorem sessionMessage_not_kept :
    ¬ RoundTrips sessionMessage.msg.headerbuffer 0x2c sessionMessage.headerextra ∧
      Overwrites headUnit sessionMessage ∧ Received sessionMessage ∧
        ¬ KeepsReceived sessionMessage (mctDaemonClientSendMessageToAllClient headUnit
          (List.replicate 8 0) sessionMessage) := by
  refine ⟨fun h => absurd h.kept (by decide), by decide, ?_, fun h => absurd h.seid (by decide)⟩
  rw [Received]
  decide

end Sample

end MctDaemon.Daemon
