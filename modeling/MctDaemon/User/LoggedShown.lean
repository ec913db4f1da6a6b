import MctDaemon.Shared.LogFileAccess
import MctDaemon.User.FileLimit
import MctDaemon.User.LoggedArguments

/-!
A message in verbose mode from the calls that log it to the text it is shown as. The text is made
of what the arguments of the calls are shown as. The number of arguments is written in one byte, so
that of more than 255 only the first ones are shown.
-/

namespace MctDaemon.Shared

namespace LogMessage

/-- What `mct_message_payload` looks at of a message in its buffers. -/
def payloadMessage (message : LogMessage) : PayloadMessage :=
  let htyp := message.header.getD sizeofStorageHeader 0
  let extended := message.header.drop
    (sizeofStorageHeader + sizeofStandardHeader + standardHeaderExtraSize htyp)
  ⟨htyp, extended.getD 0 0, message.payload⟩

/-- `noar` of the extended header. -/
def noar (message : LogMessage) : UInt8 :=
  let htyp := message.header.getD sizeofStorageHeader 0
  (message.header.drop
    (sizeofStorageHeader + sizeofStandardHeader + standardHeaderExtraSize htyp)).getD 1 0

end LogMessage

end MctDaemon.Shared

namespace MctDaemon.User

open Lib Shared

section Headers

namespace LogMessage

variable {message : LogMessage} {header : ExtendedHeader} {storageHeader : List UInt8}

/-- The message in the buffers of a reader, behind a storage header. -/
def loaded (message : LogMessage) (storageHeader : List UInt8) : Shared.LogMessage :=
  ⟨storageHeader ++ message.headers, message.payload⟩

/-- The bits of `htyp` say which fields there are. -/
theorem htyp_bits (message : LogMessage) :
    isHtyp 0 message.htyp = message.extended.isSome ∧
      isHtyp 2 message.htyp = message.ecu.isSome ∧ isHtyp 3 message.htyp = message.seid.isSome ∧
        isHtyp 4 message.htyp = message.tmsp.isSome := by
  obtain ⟨mcnt, ecu, seid, tmsp, extended, payload⟩ := message
  rw [htyp]
  generalize ecu.isSome = ecu, seid.isSome = seid, tmsp.isSome = tmsp,
    extended.isSome = extended
  revert ecu seid tmsp extended
  decide

/-- The numbers of a message are in the byte order of the library. -/
theorem htyp_masks (message : LogMessage) (payload : List UInt8) (msin : UInt8) :
    (PayloadMessage.mk message.htyp msin payload).isMsbf = false ∧
      (PayloadMessage.mk message.htyp msin payload).isUeh = message.extended.isSome := by
  change decide (message.htyp &&& 0x02 ≠ 0) = false ∧
    decide (message.htyp &&& 0x01 ≠ 0) = message.extended.isSome
  obtain ⟨mcnt, ecu, seid, tmsp, extended, body⟩ := message
  rw [htyp]
  generalize ecu.isSome = ecu, seid.isSome = seid, tmsp.isSome = tmsp,
    extended.isSome = extended
  revert ecu seid tmsp extended
  decide

theorem extraBytes_size (message : LogMessage) :
    message.extraBytes.length = standardHeaderExtraSize message.htyp := by
  obtain ⟨-, hecu, hseid, htmsp⟩ := message.htyp_bits
  rw [extraBytes_length, standardHeaderExtraSize, hecu, hseid, htmsp]

theorem loaded_htyp (hstorage : storageHeader.length = 16) :
    (message.loaded storageHeader).header.getD sizeofStorageHeader 0 = message.htyp := by
  have hoff : sizeofStorageHeader = storageHeader.length := hstorage.symm
  rw [loaded, headers, hoff]
  simp

/-- The extended header in the header buffer. -/
theorem loaded_extended (hstorage : storageHeader.length = 16) :
    (message.loaded storageHeader).header.drop
        (sizeofStorageHeader + sizeofStandardHeader + standardHeaderExtraSize message.htyp) =
      message.extended.elim [] ExtendedHeader.bytes := by
  have hfront : (storageHeader ++ ([message.htyp, message.mcnt] ++ beBytes 2 message.len ++
      message.extraBytes)).length =
        sizeofStorageHeader + sizeofStandardHeader + standardHeaderExtraSize message.htyp := by
    simp [hstorage, message.extraBytes_size, sizeofStorageHeader, sizeofStandardHeader]
    omega
  rw [loaded, headers, ← List.append_assoc, ← hfront, List.drop_left]

theorem loaded_payloadMessage (hstorage : storageHeader.length = 16)
    (hextended : message.extended = some header) :
    (message.loaded storageHeader).payloadMessage = ⟨message.htyp, header.msin, message.payload⟩ ∧
      (message.loaded storageHeader).noar = header.noar := by
  rw [Shared.LogMessage.payloadMessage, Shared.LogMessage.noar, loaded_htyp hstorage,
    loaded_extended hstorage, hextended]
  exact ⟨rfl, rfl⟩

end LogMessage

/-- In verbose mode the lowest bit of `msin` is set. -/
theorem messageInfo_verbose (context : LogContext) (mtype : MctMessageType) :
    messageInfo context mtype true &&& 1 ≠ 0 := by
  have hbit : ∀ b : UInt8, (b ||| 1) &&& 1 ≠ 0 := by
    apply forall_byte
    decide +kernel
  exact hbit _

end Headers

section Shown

variable {printing : PrintSettings} {settings : LogSettings} {context : LogContext}
  {mtype : MctMessageType} {log : MctContextData} {message : LogMessage}
  {storageHeader : List UInt8} {args : List Argument} {text : List Char} {textlength : Nat}

/-- What is built of a context in verbose mode. -/
theorem sendLog_verbose (hverbose : log.verboseMode)
    (h : mctUserLogSendLog settings context log mtype = some message) :
    message.payload = log.buffer.take log.size ∧ message.len ≤ 65535 ∧
      ∃ header, message.extended = some header ∧ header.msin = messageInfo context mtype true ∧
        header.noar = log.argsNum.toUInt8 := by
  simp only [mctUserLogSendLog, Option.ite_none_left_eq_some, Option.some.injEq] at h
  obtain ⟨-, hlen, rfl⟩ := h
  refine ⟨rfl, Nat.le_of_not_gt hlen, _, if_pos ?_, ?_, rfl⟩
  · rw [hverbose, Bool.or_true, Bool.true_or]
  · rw [hverbose, Bool.or_true]

/-- The text of a message whose payload is made of readable arguments. -/
theorem payload_shown (hargs : ∀ a ∈ args, a.Readable printing) (hverbose : log.verboseMode)
    (hfloat : ∀ width n, '\x00' ∉ printing.printFloat width n)
    (hmessage : mctUserLogSendLog settings context log mtype = some message)
    (hbuffer : log.buffer.take log.size = args.flatMap Argument.bytes)
    (hnumber : log.argsNum = args.length) (hstorage : storageHeader.length = 16)
    (hroom : argumentsRoom printing (args.take (args.length % 256)) < textlength)
    (hsmall : textlength < 2147483648) (hmemory : textlength ≤ text.length) (limited : Bool) :
    mctMessagePayload printing (message.loaded storageHeader).payloadMessage textlength
        (message.loaded storageHeader).noar text limited =
      (.ok, argumentsText printing (args.take (args.length % 256))) := by
  obtain ⟨hpayload, hlen, header, hextended, hmsin, hnoar⟩ := sendLog_verbose hverbose hmessage
  obtain ⟨hparts, hcount⟩ := LogMessage.loaded_payloadMessage hstorage hextended
  obtain ⟨hmsb, hueh⟩ := message.htyp_masks message.payload header.msin
  have hfew : (args.take (args.length % 256)).length = args.length % 256 :=
    List.length_take_of_le (Nat.mod_le _ _)
  have hnoarNat : header.noar.toNat = (args.take (args.length % 256)).length := by
    rw [hnoar, hnumber, hfew]
    exact UInt8.toNat_ofNat'
  have hdata : message.payload = (args.take (args.length % 256)).flatMap Argument.bytes ++
      (args.drop (args.length % 256)).flatMap Argument.bytes := by
    rw [hpayload, hbuffer, ← List.flatMap_append, List.take_append_drop]
  have hshort : message.payload.length < 2147483648 := by
    rw [LogMessage.len] at hlen
    omega
  have hnonverbose : (PayloadMessage.mk message.htyp header.msin message.payload).isNonverbose =
      false := by
    rw [PayloadMessage.isNonverbose, hueh, hextended, hmsin]
    simpa using messageInfo_verbose context mtype
  obtain ⟨s, hs, hstring, -⟩ := payloadVerbose_shown
    (fun a ha => hargs a (List.mem_of_mem_take ha)) hmsb hfloat hdata hshort hnoarNat hroom hsmall
    hmemory
  rw [hparts, hcount, mctMessagePayload, hnonverbose, if_neg Bool.false_ne_true, hs]
  exact congrArg (Prod.mk _) hstring

/-- Whatever is logged to a message in verbose mode, its text shows the arguments that were added,
one behind the other. -/
theorem logged_is_shown {user : MctUser} {given : Option (List UInt8)} {messageid : UInt32}
    {calls : List Call}
    (hstart : mctUserLogWriteStartInternal user given messageid true = (.true, log))
    (hgiven : ∀ buffer ∈ given, buffer.length = user.logBufLen.toNat)
    (hcalls : ∀ call ∈ calls, call.write.Proper ∧ call.write.Shows printing)
    (hfits : Guarded (writeStep user.logBufLen)
      (fun log call => CallFits (call.mctUser user.logBufLen) log call.write) log calls)
    (hmessage : mctUserLogSendLog settings context
      (runOps (writeStep user.logBufLen) log calls).2 mtype = some message)
    (hfloat : ∀ width n, '\x00' ∉ printing.printFloat width n)
    (hstorage : storageHeader.length = 16)
    (hroom : argumentsRoom printing ((addedRun user.logBufLen 0 calls).take
      ((addedRun user.logBufLen 0 calls).length % 256)) < textlength)
    (hsmall : textlength < 2147483648) (hmemory : textlength ≤ text.length) (limited : Bool) :
    mctMessagePayload printing (message.loaded storageHeader).payloadMessage textlength
        (message.loaded storageHeader).noar text limited =
      (.ok, argumentsText printing ((addedRun user.logBufLen 0 calls).take
        ((addedRun user.logBufLen 0 calls).length % 256))) := by
  have hlog : WellFormed user.logBufLen log :=
    (Started.own user given messageid true rfl hgiven log hstart).wellFormed
  have hfresh : log.size = 0 ∧ log.argsNum = 0 ∧ log.verboseMode := by
    rw [mctUserLogWriteStartInternal, if_pos (by simp [isVerboseMode])] at hstart
    cases hstart
    exact ⟨rfl, rfl, rfl⟩
  obtain ⟨hsize, hnone, hverbose⟩ := hfresh
  obtain ⟨hbuffer, hnumber, hmode, -⟩ :=
    writeRun_adds hverbose hlog (fun call hcall => (hcalls call hcall).1) hfits
  rw [hsize, List.take_zero, List.nil_append] at hbuffer
  rw [hsize, hnone, Nat.zero_add] at hnumber
  exact payload_shown (addedRun_readable hcalls 0) hmode hfloat hmessage hbuffer hnumber hstorage
    hroom hsmall hmemory limited

/-- A string and a number with its name and its unit. -/
def upAfterMilliseconds : List Call :=
  [⟨true, false, mctUserLogWriteString (some ⟨[], [117, 112, 0]⟩)⟩,
    ⟨true, false, mctUserLogWriteUint32Attr (some [105, 110, 0]) (some [109, 115, 0]) 7⟩]

theorem logged_is_shown_sample :
    let log := (mctUserLogWriteStartInternal ⟨64, true, false⟩ none 0 true).2
    ∃ message, mctUserLogSendLog ⟨true, true, true, false, false, [69, 67, 85, 49],
        [65, 80, 80, 49], 7⟩ ⟨[67, 84, 88, 49], 3, 4, 0, 100⟩
        (runOps (writeStep 64) log upAfterMilliseconds).2 .log = some message ∧
      mctMessagePayload ⟨true, fun _ _ => []⟩ (message.loaded (List.replicate 16 0)).payloadMessage
          100 (message.loaded (List.replicate 16 0)).noar (List.replicate 100 'x') false =
        (.ok, "up in:7:ms".toList) := by
  intro log
  have hsome : (mctUserLogSendLog ⟨true, true, true, false, false, [69, 67, 85, 49],
      [65, 80, 80, 49], 7⟩ ⟨[67, 84, 88, 49], 3, 4, 0, 100⟩
      (runOps (writeStep 64) log upAfterMilliseconds).2 .log).isSome := by
    decide +kernel
  obtain ⟨message, hmessage⟩ := Option.isSome_iff_exists.mp hsome
  refine ⟨message, hmessage, (@logged_is_shown ⟨true, fun _ _ => []⟩
    ⟨true, true, true, false, false, [69, 67, 85, 49], [65, 80, 80, 49], 7⟩
    ⟨[67, 84, 88, 49], 3, 4, 0, 100⟩ .log log message (List.replicate 16 0)
    (List.replicate 100 'x') 100 ⟨64, true, false⟩ none 0 upAfterMilliseconds rfl ?_ ?_ ?_ hmessage
    ?_ rfl (by decide +kernel) (by decide) (by decide) false).trans (by decide +kernel)⟩
  · intro buffer hbuffer
    cases hbuffer
  · intro call hcall
    simp only [upAfterMilliseconds, List.mem_cons, List.not_mem_nil, or_false] at hcall
    rcases hcall with rfl | rfl
    · refine ⟨fun t ht => ?_, trivial⟩
      cases ht
      decide
    · refine ⟨⟨fun name hname => ?_, fun unit hunit => ?_⟩, .inr ?_⟩
      · cases hname
        decide
      · cases hunit
        decide
      · rw [PrintsBehindName]
        decide
  · refine ⟨fun _ _ t ht => ?_, trivial, trivial⟩
    cases ht
    dsimp only [StringFits]
    rw [if_pos (by decide)]
    decide
  · intro width n
    exact List.not_mem_nil

end Shown

end MctDaemon.User
