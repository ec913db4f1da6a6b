import MctDaemon.Shared.LogInfo
import MctDaemon.Shared.MessagePayload

/-!
The client side of GET_LOG_INFO: `mct_client_parse_get_log_info_resp_text`
reads the counts, identifiers, levels and descriptions back from the text that
`mct_message_payload` prints for a response with option 7.

A count and a length are two bytes, but their converter keeps the lower one,
so a response is read back when all of them are below 256.
-/

namespace MctDaemon.Client

open Lib Shared

def mctGetLogInfoHeader : Nat := 18

def getLogInfoStatusMin : UInt8 := 3
def getLogInfoStatusMax : UInt8 := 7

/-- What the client keeps about a context. -/
structure ContextIDsInfoType where
  contextId : List UInt8
  logLevel : Int16
  traceStatus : Int16
  lenContextDescription : UInt16
  contextDescription : Option (List UInt8)
  deriving DecidableEq

def sizeofContextIDsInfoType : Nat := 24

/-- What the client keeps about an application. -/
structure AppIDsType where
  appId : List UInt8
  countContextIds : UInt16
  contextIdInfo : List ContextIDsInfoType
  lenAppDescription : UInt16
  appDescription : Option (List UInt8)
  deriving DecidableEq

def sizeofAppIDsType : Nat := 32

structure LogInfoType where
  countAppIds : UInt16
  appIds : List AppIDsType
  deriving DecidableEq

section Converters

variable (rp : Nat → Char)

/-- `mct_getloginfo_conv_ascii_to_uint16_t`: the number and the next position. -/
def mctGetloginfoConvAsciiToUint16T (rpCount : Nat) : Int16 × Nat :=
  let numWork := [rp (rpCount + 3), rp (rpCount + 4), rp rpCount, rp (rpCount + 1)]
  ((UInt8.ofInt (strtol16 numWork)).toUInt16.toInt16, rpCount + 6)

def mctGetloginfoConvAsciiToInt16T (rpCount : Nat) : Int16 × Nat :=
  ((Int8.ofInt (strtol16 [rp rpCount, rp (rpCount + 1)])).toInt16, rpCount + 3)

/-- `mct_getloginfo_conv_ascii_to_id`: the bytes with the zero that is written
behind them. Behind an identifier it falls on the next field, which is 0 or
assigned afterwards. -/
def mctGetloginfoConvAsciiToId (rpCount : Nat) : Nat → List UInt8 × Nat
  | 0 => ([0], rpCount)
  | len + 1 =>
      let (bytes, next) := mctGetloginfoConvAsciiToId (rpCount + 3) len
      (UInt8.ofInt (strtol16 [rp rpCount, rp (rpCount + 1)]) :: bytes, next)

end Converters

section Parser

variable (calloc : Malloc) (rp : Nat → Char) (status : UInt8)

/-- `calloc`: whether there is a block. -/
def allocated (size : Nat) : Except MctReturnValue Unit :=
  match calloc.block size with
  | none => .error .error
  | some _ => .ok ()

def parseDescription (rpCount : Nat) :
    Except MctReturnValue ((UInt16 × Option (List UInt8)) × Nat) :=
  if status = 7 then
    let (len, rpCount) := mctGetloginfoConvAsciiToUint16T rp rpCount
    allocated calloc (len.toUInt16.toNat + 1) >>= fun _ =>
      let (description, rpCount) := mctGetloginfoConvAsciiToId rp rpCount len.toUInt16.toNat
      .ok ((len.toUInt16, some description), rpCount)
  else .ok ((0, none), rpCount)

/-- A round of the loop over the contexts of an application. -/
def parseContext (rpCount : Nat) : Except MctReturnValue (ContextIDsInfoType × Nat) :=
  let (contextId, rpCount) := mctGetloginfoConvAsciiToId rp rpCount mctIdSize
  let (logLevel, rpCount) :=
    if hasLogLevel status then mctGetloginfoConvAsciiToInt16T rp rpCount else (0, rpCount)
  let (traceStatus, rpCount) :=
    if hasTraceStatus status then mctGetloginfoConvAsciiToInt16T rp rpCount else (0, rpCount)
  parseDescription calloc rp status rpCount >>= fun ((len, description), rpCount) =>
    .ok (⟨contextId.take mctIdSize, logLevel, traceStatus, len, description⟩, rpCount)

/-- The rounds of a loop, with the position behind them. -/
def parseTimes {α : Type} (round : Nat → Except MctReturnValue (α × Nat)) :
    Nat → Nat → Except MctReturnValue (List α × Nat)
  | 0, rpCount => .ok ([], rpCount)
  | n + 1, rpCount =>
      round rpCount >>= fun (entry, rpCount) =>
        parseTimes round n rpCount >>= fun (entries, rpCount) => .ok (entry :: entries, rpCount)

def parseApplication (rpCount : Nat) : Except MctReturnValue (AppIDsType × Nat) :=
  let (appId, rpCount) := mctGetloginfoConvAsciiToId rp rpCount mctIdSize
  let (count, rpCount) := mctGetloginfoConvAsciiToUint16T rp rpCount
  allocated calloc (count.toUInt16.toNat * sizeofContextIDsInfoType) >>= fun _ =>
    parseTimes (parseContext calloc rp status) count.toUInt16.toNat rpCount >>=
      fun (contexts, rpCount) =>
        parseDescription calloc rp status rpCount >>= fun ((len, description), rpCount) =>
          .ok (⟨appId.take mctIdSize, count.toUInt16, contexts, len, description⟩, rpCount)

/-- `mct_client_parse_get_log_info_resp_text`: the text is given as the memory
at `resp_text`. -/
def mctClientParseGetLogInfoRespText (respText : Nat → Char) :
    Except MctReturnValue LogInfoType :=
  let rp := fun i => respText (mctGetLogInfoHeader + i)
  if status < getLogInfoStatusMin ∨ status > getLogInfoStatusMax then .error .error
  else
    let (count, rpCount) := mctGetloginfoConvAsciiToUint16T rp 0
    allocated calloc (count.toUInt16.toNat * sizeofAppIDsType) >>= fun _ =>
      parseTimes (parseApplication calloc rp status) count.toUInt16.toNat rpCount >>=
        fun (applications, _) => .ok ⟨count.toUInt16, applications⟩

end Parser

section Values

def kept (description : List UInt8) : Option (List UInt8) := some (description ++ [0])

def keptContext (context : ContextInfo) : ContextIDsInfoType where
  contextId := context.ctid
  logLevel := context.logLevel.toInt16
  traceStatus := context.traceStatus.toInt16
  lenContextDescription := context.description.length.toUInt16
  contextDescription := kept context.description

def keptApplication (application : ApplicationInfo) : AppIDsType where
  appId := application.apid
  countContextIds := application.contexts.length.toUInt16
  contextIdInfo := application.contexts.map keptContext
  lenAppDescription := application.description.length.toUInt16
  appDescription := kept application.description

/-- The counts, identifiers, levels and descriptions of a response. -/
def keptInfo (applications : List ApplicationInfo) : LogInfoType where
  countAppIds := applications.length.toUInt16
  appIds := applications.map keptApplication

/-- The counts and lengths of an application fit into one byte. -/
def ShortApplication (application : ApplicationInfo) : Prop :=
  application.contexts.length < 256 ∧ application.description.length < 256 ∧
    ∀ context ∈ application.contexts, context.description.length < 256

instance (application : ApplicationInfo) : Decidable (ShortApplication application) :=
  inferInstanceAs (Decidable (_ ∧ _ ∧ _))

/-- Every count and length of a response fits into one byte. -/
def Short (applications : List ApplicationInfo) : Prop :=
  applications.length < 256 ∧ ∀ application ∈ applications, ShortApplication application

instance (applications : List ApplicationInfo) : Decidable (Short applications) :=
  inferInstanceAs (Decidable (_ ∧ _))

end Values

section Shown

variable {calloc : Malloc} {rp : Nat → Char} {pos : Nat}

/-- The converter of the counts keeps the lower byte. -/
theorem convUint16_shown {n : Nat} (h : Shows rp pos (leBytes 2 n)) :
    mctGetloginfoConvAsciiToUint16T rp pos = ((n % 256).toUInt8.toUInt16.toInt16, pos + 6) := by
  obtain ⟨hlowHigh, hlowLow, hhighHigh, hhighLow, -⟩ := h
  have hcarry : UInt8.ofInt 256 = 0 := rfl
  unfold mctGetloginfoConvAsciiToUint16T
  dsimp only
  rw [hlowHigh, hlowLow, hhighHigh, hhighLow, strtol16_bytes, UInt8.ofInt_add, UInt8.ofInt_mul,
    ofInt_toNat, ofInt_toNat, hcarry, UInt8.zero_mul, UInt8.zero_add]

theorem convInt16_shown {level : Int8} (h : Shows rp pos [level.toUInt8]) :
    mctGetloginfoConvAsciiToInt16T rp pos = (level.toInt16, pos + 3) := by
  obtain ⟨hhigh, hlow, -⟩ := h
  rw [mctGetloginfoConvAsciiToInt16T, hhigh, hlow, strtol16_byte, int8_ofInt_toNat]

theorem convId_shown {bytes : List UInt8} (h : Shows rp pos bytes) :
    mctGetloginfoConvAsciiToId rp pos bytes.length = (bytes ++ [0], pos + 3 * bytes.length) := by
  induction bytes generalizing pos with
  | nil => rfl
  | cons byte bytes ih =>
      obtain ⟨hhigh, hlow, hrest⟩ := h
      rw [List.length_cons, mctGetloginfoConvAsciiToId, ih hrest, hhigh, hlow, strtol16_byte,
        ofInt_toNat]
      simp only [List.cons_append, Prod.mk.injEq, true_and]
      omega

/-- A count below 256 comes back. -/
theorem toUInt16_count {n : Nat} (h : n < 256) :
    (n % 256).toUInt8.toUInt16.toInt16.toUInt16 = n.toUInt16 := by
  apply UInt16.toNat.inj
  rw [UInt16.toUInt16_toInt16, UInt8.toNat_toUInt16]
  simp
  omega

theorem toNat_count {n : Nat} (h : n < 256) : n.toUInt16.toNat = n := by
  simp
  omega

variable (halloc : ∀ n, calloc.block n ≠ none)
include halloc

theorem allocated_ok (size : Nat) : allocated calloc size = .ok () := by
  unfold allocated
  split
  · next hnone => exact absurd hnone (halloc size)
  · rfl

theorem parseDescription_shown {description : List UInt8} (hshort : description.length < 256)
    (h : Shows rp pos (descriptionBytes 7 description)) :
    parseDescription calloc rp 7 pos =
      .ok ((description.length.toUInt16, kept description),
        pos + 3 * (descriptionBytes 7 description).length) := by
  have hbytes : descriptionBytes 7 description = leBytes 2 description.length ++ description := rfl
  rw [hbytes] at h ⊢
  obtain ⟨hlength, hdescription⟩ := shows_append.mp h
  unfold parseDescription
  rw [if_pos rfl, convUint16_shown hlength]
  dsimp only
  rw [toUInt16_count hshort, toNat_count hshort, allocated_ok halloc]
  have hread := convId_shown hdescription
  rw [leBytes_length] at hread
  rw [show pos + 6 = pos + 3 * 2 from rfl, hread, List.length_append, leBytes_length]
  simp only [kept, bind, Except.bind, Except.ok.injEq, Prod.mk.injEq, true_and]
  omega

theorem parseContext_shown {context : ContextInfo} (hshort : context.description.length < 256)
    (h : Shows rp pos (context.bytes 7)) :
    parseContext calloc rp 7 pos =
      .ok (keptContext context, pos + 3 * (context.bytes 7).length) := by
  have hbytes : context.bytes 7 = context.ctid ++ ([context.logLevel.toUInt8] ++
      ([context.traceStatus.toUInt8] ++ descriptionBytes 7 context.description)) := by
    simp [ContextInfo.bytes, hasLogLevel, hasTraceStatus]
  rw [hbytes] at h ⊢
  obtain ⟨hid, h⟩ := shows_append.mp h
  obtain ⟨hlevel, h⟩ := shows_append.mp h
  obtain ⟨hstatus, hdescription⟩ := shows_append.mp h
  have hread := convId_shown hid
  rw [context.ctid_length] at hread hlevel hstatus hdescription
  rw [List.length_singleton, Nat.mul_one] at hstatus hdescription
  rw [List.length_singleton, Nat.mul_one] at hdescription
  unfold parseContext
  rw [hread]
  dsimp only
  rw [if_pos (by decide), convInt16_shown hlevel, if_pos (by decide)]
  dsimp only
  rw [convInt16_shown hstatus]
  dsimp only
  rw [parseDescription_shown halloc hshort hdescription]
  simp only [bind, Except.bind, keptContext, List.length_append, List.length_singleton,
    context.ctid_length, List.take_left' context.ctid_length, Except.ok.injEq, Prod.mk.injEq,
    true_and]
  omega

omit halloc in
/-- The rounds of a loop that each read what is shown for one entry. -/
theorem parseTimes_shown {α β : Type} {round : Nat → Except MctReturnValue (β × Nat)}
    {enc : α → List UInt8} {val : α → β} {entries : List α}
    (hround : ∀ entry ∈ entries, ∀ pos, Shows rp pos (enc entry) →
      round pos = .ok (val entry, pos + 3 * (enc entry).length))
    (h : Shows rp pos (entries.flatMap enc)) :
    parseTimes round entries.length pos =
      .ok (entries.map val, pos + 3 * (entries.flatMap enc).length) := by
  induction entries generalizing pos with
  | nil => rfl
  | cons entry entries ih =>
      rw [List.flatMap_cons] at h ⊢
      obtain ⟨hfirst, hrest⟩ := shows_append.mp h
      have hnext := ih (fun e he => hround e (List.mem_cons_of_mem entry he)) hrest
      rw [List.length_cons, parseTimes, hround entry List.mem_cons_self pos hfirst]
      simp only [bind, Except.bind]
      rw [hnext]
      simp only [List.map_cons, List.length_append, Except.ok.injEq, Prod.mk.injEq, true_and]
      omega

theorem parseApplication_shown {application : ApplicationInfo}
    (hshort : ShortApplication application) (h : Shows rp pos (application.bytes 7)) :
    parseApplication calloc rp 7 pos =
      .ok (keptApplication application, pos + 3 * (application.bytes 7).length) := by
  obtain ⟨hcount, hlength, hcontexts⟩ := hshort
  have hbytes : application.bytes 7 = application.apid ++ (leBytes 2 application.contexts.length ++
      (application.contexts.flatMap (ContextInfo.bytes 7) ++
        descriptionBytes 7 application.description)) := by
    simp only [ApplicationInfo.bytes, List.append_assoc]
  rw [hbytes] at h ⊢
  obtain ⟨hid, h⟩ := shows_append.mp h
  obtain ⟨hnumber, h⟩ := shows_append.mp h
  obtain ⟨hentries, hdescription⟩ := shows_append.mp h
  have hread := convId_shown hid
  rw [application.apid_length] at hread hnumber
  rw [application.apid_length, leBytes_length] at hentries hdescription
  unfold parseApplication
  rw [hread]
  dsimp only
  rw [convUint16_shown hnumber]
  dsimp only
  rw [toUInt16_count hcount, toNat_count hcount, allocated_ok halloc]
  have hloop := parseTimes_shown
    (fun context hc _ hshown => parseContext_shown halloc (hcontexts context hc) hshown) hentries
  simp only [bind, Except.bind]
  rw [show pos + 3 * mctIdSize + 6 = pos + 3 * mctIdSize + 3 * 2 from rfl, hloop]
  dsimp only
  rw [parseDescription_shown halloc hlength hdescription]
  simp only [keptApplication, List.length_append, leBytes_length, application.apid_length,
    List.take_left' application.apid_length, Except.ok.injEq, Prod.mk.injEq, true_and]
  omega

/-- The parser reads the applications that the text shows. -/
theorem parse_shown {respText : Nat → Char} {applications : List ApplicationInfo}
    (hshort : Short applications)
    (h : Shows (fun i => respText (mctGetLogInfoHeader + i)) 0
      (applicationsBytes 7 applications)) :
    mctClientParseGetLogInfoRespText calloc 7 respText = .ok (keptInfo applications) := by
  obtain ⟨hcount, happlications⟩ := hshort
  obtain ⟨h, -⟩ := shows_append.mp h
  obtain ⟨hnumber, hentries⟩ := shows_append.mp h
  rw [leBytes_length] at hentries
  unfold mctClientParseGetLogInfoRespText
  rw [if_neg (by decide)]
  dsimp only
  rw [convUint16_shown hnumber]
  dsimp only
  rw [toUInt16_count hcount, toNat_count hcount, allocated_ok halloc]
  have hloop := parseTimes_shown
    (fun application hmem _ hshown => parseApplication_shown halloc
      (happlications application hmem) hshown) hentries
  simp only [bind, Except.bind]
  rw [show 0 + 6 = 0 + 3 * 2 from rfl, hloop]
  rfl

end Shown

section Bounds

variable {calloc : Malloc} {rp : Nat → Char} {pos : Nat} {status : UInt8}

/-- A converted count is below 256. -/
theorem convUint16_lt (rp : Nat → Char) (pos : Nat) :
    (mctGetloginfoConvAsciiToUint16T rp pos).1.toUInt16.toNat < 256 := by
  unfold mctGetloginfoConvAsciiToUint16T
  dsimp only
  rw [UInt16.toUInt16_toInt16, UInt8.toNat_toUInt16]
  exact UInt8.toNat_lt _

theorem convId_length (rp : Nat → Char) (pos len : Nat) :
    (mctGetloginfoConvAsciiToId rp pos len).1.length = len + 1 := by
  induction len generalizing pos with
  | zero => rfl
  | succ len ih =>
      rw [mctGetloginfoConvAsciiToId, List.length_cons, ih]

theorem bind_ok {α β : Type} {x : Except MctReturnValue α} {f : α → Except MctReturnValue β} {b : β}
    (h : (x >>= f) = .ok b) : ∃ a, x = .ok a ∧ f a = .ok b := by
  cases x with
  | error e => cases h
  | ok a => exact ⟨a, rfl, h⟩

theorem parseDescription_short {result : (UInt16 × Option (List UInt8)) × Nat}
    (h : parseDescription calloc rp status pos = .ok result) {description : List UInt8}
    (hsome : result.1.2 = some description) : description.length ≤ 256 := by
  unfold parseDescription at h
  split at h
  · obtain ⟨-, -, hresult⟩ := bind_ok h
    cases hresult
    cases hsome
    rw [convId_length]
    exact convUint16_lt rp pos
  · cases h
    cases hsome

/-- What is kept of the contexts has short descriptions. -/
theorem parseContext_short {result : ContextIDsInfoType × Nat}
    (h : parseContext calloc rp status pos = .ok result) {description : List UInt8}
    (hsome : result.1.contextDescription = some description) : description.length ≤ 256 := by
  unfold parseContext at h
  obtain ⟨parsed, hparsed, hresult⟩ := bind_ok h
  cases hresult
  exact parseDescription_short hparsed hsome

theorem parseTimes_spec {α : Type} {round : Nat → Except MctReturnValue (α × Nat)} {n : Nat}
    {result : List α × Nat} (h : parseTimes round n pos = .ok result) :
    result.1.length = n ∧ ∀ entry ∈ result.1, ∃ start stop, round start = .ok (entry, stop) := by
  induction n generalizing pos result with
  | zero =>
      cases h
      exact ⟨rfl, nofun⟩
  | succ n ih =>
      obtain ⟨first, hfirst, hrest⟩ := bind_ok h
      obtain ⟨rest, hloop, hresult⟩ := bind_ok hrest
      cases hresult
      obtain ⟨hlength, hentries⟩ := ih hloop
      refine ⟨by rw [List.length_cons, hlength], fun entry hentry => ?_⟩
      rcases List.mem_cons.mp hentry with rfl | hlater
      · exact ⟨pos, first.2, hfirst⟩
      · exact hentries entry hlater

theorem parseApplication_short {application : ApplicationInfo} {stop : Nat}
    (h : parseApplication calloc rp status pos = .ok (keptApplication application, stop)) :
    ShortApplication application := by
  unfold parseApplication at h
  obtain ⟨-, -, h⟩ := bind_ok h
  obtain ⟨contexts, hcontexts, h⟩ := bind_ok h
  obtain ⟨parsed, hparsed, hresult⟩ := bind_ok h
  simp only [keptApplication, Except.ok.injEq, Prod.mk.injEq, AppIDsType.mk.injEq] at hresult
  obtain ⟨⟨-, -, hkept, -, hdescription⟩, -⟩ := hresult
  obtain ⟨hlength, hentries⟩ := parseTimes_spec hcontexts
  rw [hkept, List.length_map] at hlength
  refine ⟨by rw [hlength]; exact convUint16_lt rp _, ?_, fun context hmem => ?_⟩
  · have hshort := parseDescription_short hparsed hdescription
    rw [List.length_append] at hshort
    exact hshort
  · obtain ⟨start, stop, hround⟩ := hentries (keptContext context)
      (hkept ▸ List.mem_map_of_mem hmem)
    have hshort := parseContext_short hround rfl
    rw [List.length_append] at hshort
    exact hshort

/-- What is kept of a response has short counts and lengths. -/
theorem short_of_parsed {applications : List ApplicationInfo}
    (h : mctClientParseGetLogInfoRespText calloc status rp = .ok (keptInfo applications)) :
    Short applications := by
  unfold mctClientParseGetLogInfoRespText at h
  split at h
  · cases h
  dsimp only at h
  have hcount := convUint16_lt (fun i => rp (mctGetLogInfoHeader + i)) 0
  generalize mctGetloginfoConvAsciiToUint16T (fun i => rp (mctGetLogInfoHeader + i)) 0 = number
    at h hcount
  obtain ⟨-, -, h⟩ := bind_ok h
  obtain ⟨parsed, hparsed, hresult⟩ := bind_ok h
  simp only [keptInfo, Except.ok.injEq, LogInfoType.mk.injEq] at hresult
  obtain ⟨-, hkept⟩ := hresult
  obtain ⟨hlength, hentries⟩ := parseTimes_spec hparsed
  rw [hkept, List.length_map] at hlength
  rw [← hlength] at hcount
  refine ⟨hcount, fun application hmem => ?_⟩
  obtain ⟨start, stop, hround⟩ := hentries (keptApplication application)
    (hkept ▸ List.mem_map_of_mem hmem)
  exact parseApplication_short hround

end Bounds

section Response

/-- The message that `mct_daemon_client_send_control_message` makes of a
payload. -/
def controlMessage (payload : List UInt8) : PayloadMessage where
  htyp := 0x35
  msin := 0x26
  databuffer := payload

/-- The text buffer is large enough for the payload. -/
def LargeEnough (textlength : Nat) (payload : List UInt8) : Prop :=
  3 * payload.length + 20 ≤ textlength ∧ textlength < 2147483648

instance (textlength : Nat) (payload : List UInt8) : Decidable (LargeEnough textlength payload) :=
  inferInstanceAs (Decidable (_ ∧ _))

def HoldsString (mem : Nat → Char) (text : List Char) : Prop :=
  ∀ i c, (text ++ ['\x00'])[i]? = some c → mem i = c

/-- The text of a response is read back as what was sent. -/
def ReadsBack (calloc : Malloc) (textlength : Nat) (applications : List ApplicationInfo) : Prop :=
  ∃ text, mctMessagePayloadNonverbose (controlMessage (responseBytes 7 applications)) textlength
      false = (.ok, text) ∧
    ∀ mem, HoldsString mem text →
      mctClientParseGetLogInfoRespText calloc 7 mem = .ok (keptInfo applications)

/-- The digits stand behind the header of the text. -/
theorem shows_of_holdsString {mem : Nat → Char} {bytes : List UInt8}
    (h : HoldsString mem ("get_log_info, 07, ".toList ++ hexText ' ' bytes)) :
    Shows (fun i => mem (mctGetLogInfoHeader + i)) 0 bytes := by
  apply shows_hexText
  intro i c hc
  have hheader : "get_log_info, 07, ".toList.length = mctGetLogInfoHeader := rfl
  apply h
  rw [Nat.zero_add, List.append_assoc, List.getElem?_append_right (by omega), hheader,
    Nat.add_sub_cancel_left]
  exact (List.getElem?_append_left (List.getElem?_eq_some_iff.mp hc).1).trans hc

theorem responseBytes_of_context {applications : List ApplicationInfo}
    (hcontext : ∃ application ∈ applications, application.contexts ≠ []) :
    responseBytes 7 applications =
      leBytes 4 mctServiceIdGetLogInfo ++ 7 :: applicationsBytes 7 applications := by
  obtain ⟨application, hmem, hne⟩ := hcontext
  have hstatus : responseStatus 7 applications = 7 := by
    refine if_neg fun hempty => hne ?_
    exact List.flatMap_eq_nil_iff.mp hempty application hmem
  rw [responseBytes, hstatus]

theorem controlMessage_isUeh (payload : List UInt8) :
    (controlMessage payload).isUeh = true := by
  have hueh : (0x35 : UInt8) &&& 0x01 ≠ 0 := by decide
  exact decide_eq_true hueh

theorem controlMessage_isControl (payload : List UInt8) :
    (controlMessage payload).isControl = true := by
  have hmstp : ((0x26 : UInt8) &&& 0x0e) >>> 1 = 3 := by decide
  exact decide_eq_true ⟨controlMessage_isUeh payload, hmstp⟩

theorem controlMessage_isControlResponse (payload : List UInt8) :
    (controlMessage payload).isControlResponse = true := by
  have hmtin : ((0x26 : UInt8) &&& 0xf0) >>> 4 = 2 := by decide
  exact decide_eq_true ⟨controlMessage_isControl payload, hmtin⟩

theorem controlMessage_isMsbf (payload : List UInt8) :
    (controlMessage payload).isMsbf = false := by
  have hmsbf : ¬ (0x35 : UInt8) &&& 0x02 ≠ 0 := by decide
  exact decide_eq_false hmsbf

theorem endianGet_controlMessage (payload bytes : List UInt8) :
    endianGet (controlMessage payload) (some bytes) = leNat bytes := by
  rw [endianGet, controlMessage_isMsbf, if_neg Bool.false_ne_true]

/-- The text in front of the status of a response. -/
theorem identifierText_response {textlength : Nat} (payload : List UInt8) {datalength : Int}
    (hlarge : 20 ≤ textlength) (hpositive : 0 < datalength) :
    identifierText (controlMessage payload) textlength mctServiceIdGetLogInfo datalength =
      "get_log_info, ".toList := by
  have hname : (serviceIdName.getD mctServiceIdGetLogInfo "").toList = "get_log_info".toList := rfl
  have hfirst : appendText textlength [] "get_log_info".toList = "get_log_info".toList :=
    appendText_fits (lt_of_lt_of_le (by decide) hlarge)
  have happend : "get_log_info".toList ++ [',', ' '] = "get_log_info, ".toList := rfl
  unfold identifierText
  dsimp only
  rw [if_pos (controlMessage_isControl payload), if_pos hpositive, if_pos (by decide), hname,
    hfirst, appendText_fits (lt_of_lt_of_le (by decide) hlarge), happend]

/-- The status 7 stands behind it in two digits. -/
theorem appendRetval_response {textlength : Nat} (payload : List UInt8) {rest : List UInt8}
    (hlarge : 20 ≤ textlength) (hrest : 0 < rest.length) :
    appendRetval (controlMessage payload) textlength "get_log_info, ".toList
        ⟨7 :: rest, (7 :: rest).length⟩ =
      ("get_log_info, 07, ".toList, ⟨rest, rest.length⟩) := by
  have hread : (PayloadReader.mk (7 :: rest) ((7 :: rest).length : Nat)).readValue 1 =
      (some [7], ⟨rest, rest.length⟩) :=
    have hone : ([7] : List UInt8).length = 1 := rfl
    readValue_append hone
  have hvalue : retvalText (leNat [7]).toUInt8 = ['0', '7'] := rfl
  have hlength : "get_log_info, ".toList.length = 14 := rfl
  have happend : "get_log_info, ".toList ++ ['0', '7'] ++ [',', ' '] =
      "get_log_info, 07, ".toList := rfl
  unfold appendRetval
  rw [if_pos ⟨controlMessage_isControlResponse payload, by simp⟩, hread]
  dsimp only
  have hretval : appendText textlength "get_log_info, ".toList ['0', '7'] =
      "get_log_info, ".toList ++ ['0', '7'] :=
    appendText_fits (lt_of_lt_of_le (by decide) hlarge)
  rw [endianGet_controlMessage, hvalue, hretval, if_pos (by omega),
    appendText_fits (lt_of_lt_of_le (by decide) hlarge), happend]

/-- The text of a response with option 7. -/
theorem payload_text {textlength : Nat} {applications : List ApplicationInfo}
    (hcontext : ∃ application ∈ applications, application.contexts ≠ [])
    (hlarge : LargeEnough textlength (responseBytes 7 applications)) :
    mctMessagePayloadNonverbose (controlMessage (responseBytes 7 applications)) textlength false =
      (.ok, "get_log_info, 07, ".toList ++ hexText ' ' (applicationsBytes 7 applications)) := by
  obtain ⟨hfits, hint⟩ := hlarge
  have hbytes := responseBytes_of_context hcontext
  rw [hbytes, List.length_append, leBytes_length, List.length_cons] at hfits
  have hrest : 0 < (applicationsBytes 7 applications).length := by
    simp [applicationsBytes]
  refine payload_fits hbytes (leBytes_length 4 _) (by rw [List.length_cons]; omega) hint ?_ ?_
  · rw [endianGet_controlMessage, leNat_leBytes 4 mctServiceIdGetLogInfo (by decide),
      identifierText_response _ (by omega) (by simp)]
    exact appendRetval_response _ (by omega) hrest
  · have hheader : "get_log_info, 07, ".toList.length = 18 := rfl
    omega

/-- What is read back has short counts and lengths. -/
theorem ReadsBack.short {calloc : Malloc} {textlength : Nat} {applications : List ApplicationInfo}
    (h : ReadsBack calloc textlength applications) : Short applications := by
  obtain ⟨text, -, hread⟩ := h
  refine short_of_parsed (hread (fun i => (text ++ ['\x00']).getD i '\x00') fun i c hc => ?_)
  exact (List.getD_eq_getElem?_getD).trans (by rw [hc, Option.getD_some])

/-- The text that is printed for a response with at least one context is read
back as what was sent if and only if every count and every length fits into
one byte. -/
theorem log_info_text_read_back (calloc : Malloc) (halloc : ∀ n, calloc.block n ≠ none)
    (applications : List ApplicationInfo)
    (hcontext : ∃ application ∈ applications, application.contexts ≠ []) (textlength : Nat)
    (hlarge : LargeEnough textlength (responseBytes 7 applications)) :
    ReadsBack calloc textlength applications ↔ Short applications := by
  have htext := payload_text hcontext hlarge
  refine ⟨ReadsBack.short, fun hshort => ⟨_, htext, fun mem hmem => ?_⟩⟩
  exact parse_shown halloc hshort (shows_of_holdsString hmem)

/-- A response with an application of two contexts, one of them without a
description. -/
def twoContexts : List ApplicationInfo :=
  [{ apid := [76, 79, 71, 0], apid_length := rfl, description := [108, 111, 103, 115]
     contexts :=
      [{ ctid := [84, 69, 83, 84], ctid_length := rfl, logLevel := 4, traceStatus := 0
         description := [116, 101, 115, 116] },
       { ctid := [73, 78, 0, 0], ctid_length := rfl, logLevel := -1, traceStatus := -1
         description := [] }] },
   { apid := [83, 89, 83, 0], apid_length := rfl, description := [], contexts := [] }]

theorem log_info_text_read_back_two :
    (∀ n, Malloc.zeroed.block n ≠ none) ∧ ReadsBack Malloc.zeroed 4096 twoContexts :=
  ⟨fun _ => Option.some_ne_none _,
    (log_info_text_read_back Malloc.zeroed (fun _ => Option.some_ne_none _) twoContexts
      (by decide) 4096 (by decide)).mpr (by decide)⟩

def longDescription : List ApplicationInfo :=
  [{ apid := [76, 79, 71, 0], apid_length := rfl, description := []
     contexts :=
      [{ ctid := [84, 69, 83, 84], ctid_length := rfl, logLevel := 4, traceStatus := 0
         description := List.replicate 256 120 }] }]

/-- The length of this description is read as 0. -/
theorem log_info_text_long_description :
    (∃ application ∈ longDescription, application.contexts ≠ []) ∧
      LargeEnough 4096 (responseBytes 7 longDescription) ∧
      ¬ ReadsBack Malloc.zeroed 4096 longDescription := by
  refine ⟨by decide, by decide +kernel, fun hread => ?_⟩
  obtain ⟨-, -, hdescriptions⟩ := hread.short.2 _ List.mem_cons_self
  have hlength := hdescriptions _ List.mem_cons_self
  rw [List.length_replicate] at hlength
  exact lt_irrefl 256 hlength

end Response

end MctDaemon.Client
