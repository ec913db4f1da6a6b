import MctDaemon.Lib.PrefixDecoder
import MctDaemon.Shared.Types

/-!
The layout of a GET_LOG_INFO response: the service identifier, the status, the
number of applications, and for each one its identifier, the number of its
contexts, the contexts and its description. The option says which parts of a
context are there. A payload is decoded by this layout alone.
-/

namespace MctDaemon.Shared

open Lib

def mctServiceIdGetLogInfo : Nat := 3

structure ContextInfo where
  ctid : List UInt8
  ctid_length : ctid.length = mctIdSize
  logLevel : Int8
  traceStatus : Int8
  description : List UInt8
  deriving DecidableEq

structure ApplicationInfo where
  apid : List UInt8
  apid_length : apid.length = mctIdSize
  contexts : List ContextInfo
  description : List UInt8
  deriving DecidableEq

def hasLogLevel (options : UInt8) : Bool := options = 4 ∨ options = 6 ∨ options = 7

def hasTraceStatus (options : UInt8) : Bool := options = 5 ∨ options = 6 ∨ options = 7

def descriptionBytes (options : UInt8) (description : List UInt8) : List UInt8 :=
  if options = 7 then leBytes 2 description.length ++ description else []

def ContextInfo.bytes (options : UInt8) (context : ContextInfo) : List UInt8 :=
  context.ctid ++ (if hasLogLevel options then [context.logLevel.toUInt8] else []) ++
    (if hasTraceStatus options then [context.traceStatus.toUInt8] else []) ++
    descriptionBytes options context.description

def ApplicationInfo.bytes (options : UInt8) (application : ApplicationInfo) : List UInt8 :=
  application.apid ++ leBytes 2 application.contexts.length ++
    application.contexts.flatMap (ContextInfo.bytes options) ++
    descriptionBytes options application.description

/-- The status of a response: 8 when it has no contexts. -/
def responseStatus (options : UInt8) (applications : List ApplicationInfo) : UInt8 :=
  if applications.flatMap ApplicationInfo.contexts = [] then 8 else options

def mctDaemonRemoString : List UInt8 := [114, 101, 109, 111]

/-- The applications with their number, and the end of the response. -/
def applicationsBytes (options : UInt8) (applications : List ApplicationInfo) : List UInt8 :=
  leBytes 2 applications.length ++ applications.flatMap (ApplicationInfo.bytes options) ++
    mctDaemonRemoString

def responseBytes (options : UInt8) (applications : List ApplicationInfo) : List UInt8 :=
  leBytes 4 mctServiceIdGetLogInfo ++ responseStatus options applications ::
    applicationsBytes options applications

section Decoding

variable (options : UInt8)

def decodeLevel (present : Bool) : Decoder UInt8 Int8 := fun input =>
  if present then
    match input with
    | [] => none
    | byte :: rest => some (byte.toInt8, rest)
  else some (0, input)

def decodeDescription : Decoder UInt8 (List UInt8) :=
  if options = 7 then (decodeUint16.andThen takeFront).filterMap fun part => some part.2
  else fun input => some ([], input)

def decodeContext : Decoder UInt8 ContextInfo :=
  ((takeFront mctIdSize).andThen fun _ => (decodeLevel (hasLogLevel options)).andThen fun _ =>
      (decodeLevel (hasTraceStatus options)).andThen fun _ => decodeDescription options).filterMap
    fun (ctid, logLevel, traceStatus, description) =>
      if h : ctid.length = mctIdSize then some ⟨ctid, h, logLevel, traceStatus, description⟩
      else none

def decodeApplication : Decoder UInt8 ApplicationInfo :=
  ((takeFront mctIdSize).andThen fun _ =>
      (decodeUint16.andThen (decodeTimes (decodeContext options))).andThen fun _ =>
        decodeDescription options).filterMap
    fun (apid, (_, contexts), description) =>
      if h : apid.length = mctIdSize then some ⟨apid, h, contexts, description⟩ else none

/-- The status and the applications of a payload that has nothing behind its
end. -/
def decodeResponse (payload : List UInt8) : Option (UInt8 × List ApplicationInfo) :=
  if payload.take 4 = leBytes 4 mctServiceIdGetLogInfo then
    match payload.drop 4 with
    | [] => none
    | status :: rest =>
        match decodeUint16.andThen (decodeTimes (decodeApplication options)) rest with
        | none => none
        | some ((_, applications), behind) =>
            if behind = mctDaemonRemoString then some (status, applications) else none
  else none

/-- The description is a part of the response and its length fits, or it is not
a part. -/
def DescriptionFits (description : List UInt8) : Prop :=
  if options = 7 then description.length < 65536 else description = []

/-- What the option leaves out is 0, and the rest fits. -/
structure ContextInfo.Fits (context : ContextInfo) : Prop where
  logLevel : hasLogLevel options = false → context.logLevel = 0
  traceStatus : hasTraceStatus options = false → context.traceStatus = 0
  description : DescriptionFits options context.description

structure ApplicationInfo.Fits (application : ApplicationInfo) : Prop where
  count : application.contexts.length < 65536
  contexts : ∀ context ∈ application.contexts, context.Fits options
  description : DescriptionFits options application.description

theorem reads_decodeLevel (present : Bool) :
    Reads (decodeLevel present) (fun level => if present then [level.toUInt8] else [])
      (fun level => present = false → level = 0) := by
  intro input level rest
  unfold decodeLevel
  cases present with
  | false =>
      constructor
      · intro h
        cases h
        exact ⟨rfl, fun _ => rfl⟩
      · rintro ⟨rfl, hzero⟩
        rw [hzero rfl]
        rfl
  | true =>
      constructor
      · intro h
        cases input with
        | nil => cases h
        | cons byte rest =>
            cases h
            exact ⟨rfl, nofun⟩
      · rintro ⟨rfl, -⟩
        rfl

theorem reads_decodeDescription :
    Reads (decodeDescription options) (descriptionBytes options) (DescriptionFits options) := by
  unfold decodeDescription descriptionBytes DescriptionFits
  split
  · have hread := reads_filterMap (reads_andThen reads_decodeUint16 reads_takeFront)
      (fun part => some part.2) (fun description => (description.length, description))
      fun part description hok => by
        constructor
        · intro heq
          cases heq
          exact Prod.ext hok.2.symm rfl
        · rintro rfl
          rfl
    intro input description rest
    have hthis := hread input description rest
    simpa using hthis
  · intro input description rest
    constructor
    · intro h
      cases h
      exact ⟨rfl, rfl⟩
    · rintro ⟨rfl, rfl⟩
      rfl

theorem reads_decodeContext :
    Reads (decodeContext options) (ContextInfo.bytes options) (ContextInfo.Fits options) := by
  have hid : Reads (takeFront mctIdSize) id (fun id : List UInt8 => id.length = mctIdSize) :=
    reads_takeFront mctIdSize
  have hparts := reads_andThen hid fun _ =>
    reads_andThen (reads_decodeLevel (hasLogLevel options)) fun _ =>
      reads_andThen (reads_decodeLevel (hasTraceStatus options)) fun _ =>
        reads_decodeDescription options
  have hread := reads_filterMap hparts
    (fun (ctid, logLevel, traceStatus, description) =>
      if h : ctid.length = mctIdSize then
        some (ContextInfo.mk ctid h logLevel traceStatus description) else none)
    (fun context => (context.ctid, context.logLevel, context.traceStatus, context.description))
    fun part context hok => by
      obtain ⟨ctid, logLevel, traceStatus, description⟩ := part
      have hlength : ctid.length = mctIdSize := hok.1
      simp only [hlength, dif_pos, Option.some.injEq]
      constructor
      · rintro rfl
        rfl
      · intro heq
        cases heq
        rfl
  intro input context rest
  refine (hread input context rest).trans (and_congr ?_ ?_)
  · simp only [ContextInfo.bytes, id, List.append_assoc]
  · constructor
    · rintro ⟨-, hlevel, hstatus, hdescription⟩
      exact ⟨hlevel, hstatus, hdescription⟩
    · rintro ⟨hlevel, hstatus, hdescription⟩
      exact ⟨context.ctid_length, hlevel, hstatus, hdescription⟩

theorem reads_decodeApplication :
    Reads (decodeApplication options) (ApplicationInfo.bytes options)
      (ApplicationInfo.Fits options) := by
  have hid : Reads (takeFront mctIdSize) id (fun id : List UInt8 => id.length = mctIdSize) :=
    reads_takeFront mctIdSize
  have hparts := reads_andThen hid fun _ =>
    reads_andThen (reads_andThen reads_decodeUint16
      (reads_decodeTimes (reads_decodeContext options))) fun _ => reads_decodeDescription options
  have hread := reads_filterMap hparts
    (fun (apid, (_, contexts), description) =>
      if h : apid.length = mctIdSize then some (ApplicationInfo.mk apid h contexts description)
      else none)
    (fun application => (application.apid, (application.contexts.length, application.contexts),
      application.description))
    fun part application hok => by
      obtain ⟨apid, ⟨n, contexts⟩, description⟩ := part
      obtain ⟨hlength, ⟨-, hcount, -⟩, -⟩ := hok
      simp only at hlength hcount
      simp only [hlength, dif_pos, Option.some.injEq]
      constructor
      · rintro rfl
        rw [hcount]
      · intro heq
        cases heq
        rfl
  intro input application rest
  refine (hread input application rest).trans (and_congr ?_ ?_)
  · simp only [ApplicationInfo.bytes, id, List.append_assoc]
  · constructor
    · rintro ⟨-, ⟨hcount, -, hcontexts⟩, hdescription⟩
      exact ⟨hcount, hcontexts, hdescription⟩
    · rintro ⟨hcount, hcontexts, hdescription⟩
      exact ⟨application.apid_length, ⟨hcount, rfl, hcontexts⟩, hdescription⟩

/-- A payload is decoded if and only if it has the layout, and its counts and
lengths fit. -/
theorem decodeResponse_eq_some_iff (payload : List UInt8) (status : UInt8)
    (applications : List ApplicationInfo) :
    decodeResponse options payload = some (status, applications) ↔
      payload = leBytes 4 mctServiceIdGetLogInfo ++
          status :: applicationsBytes options applications ∧
        applications.length < 65536 ∧ ∀ application ∈ applications, application.Fits options := by
  have hreads := reads_andThen reads_decodeUint16
    (reads_decodeTimes (reads_decodeApplication options))
  unfold decodeResponse
  constructor
  · intro h
    split at h
    · next hfront =>
        have hpayload := List.take_append_drop 4 payload
        rw [hfront] at hpayload
        split at h
        · cases h
        · next status' rest hdrop =>
            split at h
            · cases h
            · next n applications' behind hdecode =>
                split at h
                · next hend =>
                    cases h
                    obtain ⟨hrest, hcount, hlength, hall⟩ := (hreads _ _ _).mp hdecode
                    simp only at hrest hcount hlength hall
                    rw [← hpayload, hdrop, hrest, hend, applicationsBytes, hlength]
                    exact ⟨rfl, hcount, hall⟩
                · cases h
    · cases h
  · rintro ⟨rfl, hcount, hall⟩
    have hdecode := (hreads (applicationsBytes options applications)
      (applications.length, applications) mctDaemonRemoString).mpr ⟨rfl, hcount, rfl, hall⟩
    rw [if_pos (List.take_left' (leBytes_length 4 _)), List.drop_left' (leBytes_length 4 _)]
    simp only [hdecode, if_pos]

end Decoding

section Shown

variable (options : UInt8)

/-- What a response with this option shows of a context. -/
def ContextInfo.shown (context : ContextInfo) : ContextInfo :=
  { context with
    logLevel := if hasLogLevel options then context.logLevel else 0
    traceStatus := if hasTraceStatus options then context.traceStatus else 0
    description := if options = 7 then context.description else [] }

def ApplicationInfo.shown (application : ApplicationInfo) : ApplicationInfo :=
  { application with
    contexts := application.contexts.map (ContextInfo.shown options)
    description := if options = 7 then application.description else [] }

theorem ContextInfo.bytes_shown (context : ContextInfo) :
    (context.shown options).bytes options = context.bytes options := by
  unfold ContextInfo.bytes ContextInfo.shown descriptionBytes
  split <;> split <;> split <;> rfl

theorem ApplicationInfo.bytes_shown (application : ApplicationInfo) :
    (application.shown options).bytes options = application.bytes options := by
  have hcontexts : (application.contexts.map (ContextInfo.shown options)).flatMap
      (ContextInfo.bytes options) = application.contexts.flatMap (ContextInfo.bytes options) := by
    rw [List.flatMap_map]
    exact congrArg (fun f => application.contexts.flatMap f)
      (funext (ContextInfo.bytes_shown options))
  unfold ApplicationInfo.bytes ApplicationInfo.shown descriptionBytes
  dsimp only
  rw [hcontexts, List.length_map]
  split <;> rfl

/-- The application fits when its counts and lengths do. -/
theorem ApplicationInfo.fits_shown_iff (application : ApplicationInfo) :
    (application.shown options).Fits options ↔ application.contexts.length < 65536 ∧
      (options = 7 → application.description.length < 65536 ∧
        ∀ context ∈ application.contexts, context.description.length < 65536) := by
  have hdescription : ∀ description : List UInt8,
      DescriptionFits options (if options = 7 then description else []) ↔
        (options = 7 → description.length < 65536) := by
    intro description
    unfold DescriptionFits
    by_cases hseven : options = 7
    · rw [if_pos hseven, if_pos hseven]
      exact ⟨fun h _ => h, fun h => h hseven⟩
    · rw [if_neg hseven, if_neg hseven]
      exact iff_of_true rfl fun h => absurd h hseven
  constructor
  · rintro ⟨hcount, hcontexts, hown⟩
    refine ⟨by simpa [ApplicationInfo.shown] using hcount, fun hseven => ?_⟩
    refine ⟨(hdescription _).mp hown hseven, fun context hmem => ?_⟩
    exact (hdescription _).mp (hcontexts _ (List.mem_map_of_mem hmem)).description hseven
  · rintro ⟨hcount, hlengths⟩
    refine ⟨by simpa [ApplicationInfo.shown] using hcount, fun context hmem => ?_,
      (hdescription _).mpr fun hseven => (hlengths hseven).1⟩
    obtain ⟨original, horiginal, rfl⟩ := List.mem_map.mp hmem
    refine ⟨fun hlevel => if_neg (by rw [hlevel]; exact Bool.false_ne_true),
      fun hstatus => if_neg (by rw [hstatus]; exact Bool.false_ne_true), ?_⟩
    exact (hdescription _).mpr fun hseven => (hlengths hseven).2 original horiginal

end Shown

section Blocks

variable (options : UInt8)

/-- The part of a response for an application, with a count and contexts that
need not be those of the application. -/
def blockBytes (application : ApplicationInfo) (count : Nat)
    (contexts : List ContextInfo) : List UInt8 :=
  application.apid ++ leBytes 2 count ++ contexts.flatMap (ContextInfo.bytes options) ++
    descriptionBytes options application.description

theorem ContextInfo.bytes_pos (context : ContextInfo) : 0 < (context.bytes options).length := by
  unfold ContextInfo.bytes
  simp only [List.length_append, context.ctid_length, mctIdSize]
  omega

/-- Contexts that were left out leave fewer bytes. -/
theorem eq_of_sublist_of_length {few all : List ContextInfo} (hsub : few.Sublist all)
    (hlength : (all.flatMap (ContextInfo.bytes options)).length ≤
      (few.flatMap (ContextInfo.bytes options)).length) : few = all := by
  induction hsub with
  | slnil => rfl
  | cons context hrest ih =>
      have hpos := context.bytes_pos options
      have hfewer := (hrest.flatMap (ContextInfo.bytes options)).length_le
      simp only [List.flatMap_cons, List.length_append] at hlength
      omega
  | cons_cons context hrest ih =>
      simp only [List.flatMap_cons, List.length_append] at hlength
      rw [ih (by omega)]

theorem blockBytes_length_le (application : ApplicationInfo) (count : Nat)
    {contexts : List ContextInfo} (hsub : contexts.Sublist application.contexts) :
    (blockBytes options application count contexts).length ≤
      (application.bytes options).length := by
  have hfewer := (hsub.flatMap (ContextInfo.bytes options)).length_le
  simp only [blockBytes, ApplicationInfo.bytes, List.length_append, leBytes_length]
  omega

/-- The parts of a response are those of the applications as soon as they are
as long as these together. -/
theorem blocks_eq {κ : Type} {keys : List κ} {info : κ → ApplicationInfo} {count : κ → Nat}
    {contexts : κ → List ContextInfo}
    (hsub : ∀ key ∈ keys, (contexts key).Sublist (info key).contexts)
    (h : (keys.flatMap fun key => blockBytes options (info key) (count key) (contexts key)) =
      keys.flatMap fun key => (info key).bytes options) :
    ∀ key ∈ keys, contexts key = (info key).contexts ∧
      leBytes 2 (count key) = leBytes 2 (info key).contexts.length := by
  have hle : ∀ {keys : List κ}, (∀ key ∈ keys, (contexts key).Sublist (info key).contexts) →
      (keys.flatMap fun key => blockBytes options (info key) (count key) (contexts key)).length ≤
        (keys.flatMap fun key => (info key).bytes options).length := by
    intro keys hsub
    induction keys with
    | nil => exact le_rfl
    | cons key keys ih =>
        have hfirst := blockBytes_length_le options (info key) (count key)
          (hsub key List.mem_cons_self)
        have hrest := ih fun k hk => hsub k (List.mem_cons_of_mem key hk)
        simp only [List.flatMap_cons, List.length_append]
        omega
  induction keys with
  | nil => exact nofun
  | cons key keys ih =>
      have htail := fun k hk => hsub k (List.mem_cons_of_mem key hk)
      have hfirst := blockBytes_length_le options (info key) (count key)
        (hsub key List.mem_cons_self)
      have hrest := hle htail
      have hlength := congrArg List.length h
      simp only [List.flatMap_cons, List.length_append] at h hlength
      obtain ⟨hblock, hblocks⟩ := List.append_inj h (by omega)
      refine List.forall_mem_cons.mpr ⟨?_, ih htail hblocks⟩
      have hsame := congrArg List.length hblock
      simp only [blockBytes, ApplicationInfo.bytes, List.length_append, leBytes_length] at hsame
      have hcontexts := eq_of_sublist_of_length options (hsub key List.mem_cons_self)
        (by omega)
      refine ⟨hcontexts, ?_⟩
      rw [blockBytes, ApplicationInfo.bytes, hcontexts, List.append_assoc, List.append_assoc,
        List.append_assoc, List.append_assoc] at hblock
      have hbehind := List.append_cancel_left hblock
      exact (List.append_inj hbehind (by rw [leBytes_length, leBytes_length])).1

end Blocks

end MctDaemon.Shared
