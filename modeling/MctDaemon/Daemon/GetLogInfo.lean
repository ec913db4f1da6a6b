import MctDaemon.Shared.LogInfo
import MctDaemon.Daemon.ContextOrder
import MctDaemon.Daemon.UserSlices

/-!
`mct_daemon_control_get_log_info`: a first pass over the tables adds up the
size of the response, a second one writes it. The two passes look at the
request in different ways, and an entry of the second pass that the filter on
the context identifier leaves out has been counted before.
-/

namespace MctDaemon.Daemon

open Lib Shared

structure GetLogInfoRequest where
  options : UInt8
  apid : ID4
  ctid : ID4
  deriving DecidableEq

def textBytes (text : List Char) : List UInt8 := text.map fun c => c.toNat.toUInt8

theorem textBytes_length (text : List Char) : (textBytes text).length = text.length :=
  List.length_map _

/-- The bytes of a description, which may be missing. -/
def descriptionText (description : Option (List Char)) : List UInt8 :=
  textBytes (description.getD [])

def MctDaemonContext.info (context : MctDaemonContext) : ContextInfo where
  ctid := textBytes context.ctid.chars
  ctid_length := (textBytes_length _).trans context.ctid.length_eq
  logLevel := Int8.ofInt context.logLevel
  traceStatus := Int8.ofInt context.traceStatus
  description := descriptionText context.contextDescription

/-- What the tables say about an application, with these contexts. -/
def MctDaemonApplication.info (application : MctDaemonApplication)
    (contexts : List MctDaemonContext) : ApplicationInfo where
  apid := textBytes application.apid.chars
  apid_length := (textBytes_length _).trans application.apid.length_eq
  contexts := contexts.map MctDaemonContext.info
  description := descriptionText application.applicationDescription

/-- `sizecont`: the size of the entry of a context without its description. -/
def sizecont (options : UInt8) : Nat :=
  4 + (if hasLogLevel options then 1 else 0) + if hasTraceStatus options then 1 else 0

def descriptionSize (description : Option (List Char)) : Nat :=
  2 + (descriptionText description).length

/-- What the request looks for: the application and the context, where it
names them, and the numbers of both. -/
structure Sought where
  application : Option Nat
  context : Option Nat
  numApplications : Nat
  numContexts : Int
  deriving DecidableEq

/-- What is sent back: the size of the buffer and what is written into it, one
piece behind the other. -/
structure LogInfoReply where
  datasize : Int
  written : List UInt8
  deriving DecidableEq

/-- The buffer is cleared before it is written. -/
def LogInfoReply.payload (reply : LogInfoReply) : List UInt8 :=
  (reply.written ++ List.replicate (reply.datasize.toNat - reply.written.length) 0).take
    reply.datasize.toNat

namespace MctDaemonUsers

/-- Contexts of the application at this position, from the sum of the numbers
before it on. -/
def contextsFrom (d : MctDaemonUsers) (i count : Nat) : List MctDaemonContext :=
  (d.contexts.drop (d.offsetBase i).toNat).take count

/-- The search at the start of `mct_daemon_control_get_log_info`. -/
def sought (d : MctDaemonUsers) (req : GetLogInfoRequest) : Sought :=
  if ¬ req.apid.isEmpty then
    match d.applicationFind req.apid with
    | none => ⟨none, none, 0, 0⟩
    | some i =>
        if ¬ req.ctid.isEmpty then
          let context := d.contextFind req.apid req.ctid
          ⟨some i, context, 1, if context.isSome then 1 else 0⟩
        else
          ⟨some i, none, 1, ((d.applications[i]?).map MctDaemonApplication.numContexts).getD 0⟩
  else ⟨none, none, d.applications.length, d.contexts.length⟩

def contextDescriptionsSize (contexts : List MctDaemonContext) : Nat :=
  (contexts.map fun context => descriptionSize context.contextDescription).sum

def applicationDescriptionsSize (applications : List MctDaemonApplication) : Nat :=
  (applications.map fun application => descriptionSize application.applicationDescription).sum

/-- The part of the first pass for the descriptions. -/
def descriptionsSize (d : MctDaemonUsers) (req : GetLogInfoRequest) : Nat :=
  let found := d.sought req
  if ¬ req.apid.isEmpty then
    (if ¬ req.ctid.isEmpty then
        contextDescriptionsSize ((found.context.bind fun k => d.contexts[k]?).toList)
      else
        match found.application with
        | none => 0
        | some i => contextDescriptionsSize (d.contextsFrom i found.numContexts.toNat)) +
      applicationDescriptionsSize ((found.application.bind fun i => d.applications[i]?).toList)
  else contextDescriptionsSize d.contexts + applicationDescriptionsSize d.applications

/-- The size that the first pass adds up. -/
def responseSize (d : MctDaemonUsers) (req : GetLogInfoRequest) : Int :=
  let found := d.sought req
  4 + 1 + 4 + found.numApplications * (4 + 2) + found.numContexts * sizecont req.options + 2 +
    if req.options = 7 then (d.descriptionsSize req : Int) else 0

/-- The filter of the second pass, which compares the bytes of the request. -/
def PassesFilter (req : GetLogInfoRequest) (context : MctDaemonContext) : Prop :=
  req.ctid.isEmpty ∨ context.ctid = req.ctid

instance (req : GetLogInfoRequest) : DecidablePred (PassesFilter req) :=
  fun _ => inferInstanceAs (Decidable (_ ∨ _))

/-- The entry of a context, unless the filter leaves it out. -/
def contextEntry (req : GetLogInfoRequest) (context : MctDaemonContext) : List UInt8 :=
  if PassesFilter req context then context.info.bytes req.options else []

/-- The contexts that the loop over the contexts of an application looks at. -/
def listedContexts (d : MctDaemonUsers) (req : GetLogInfoRequest) (i count : Nat) :
    List MctDaemonContext :=
  if count = 1 ∧ ¬ req.apid.isEmpty ∧ ¬ req.ctid.isEmpty then
    (((d.sought req).context.bind fun k => d.contexts[k]?).toList)
  else d.contextsFrom i count

def applicationEntry (d : MctDaemonUsers) (req : GetLogInfoRequest) (i : Nat) : List UInt8 :=
  let apid :=
    if ¬ req.apid.isEmpty then req.apid
    else ((d.applications[i]?).map MctDaemonApplication.apid).getD (setId [])
  match d.applicationFind apid with
  | none => []
  | some k =>
      match d.applications[k]? with
      | none => []
      | some application =>
          let numContexts :=
            if ¬ req.apid.isEmpty then (d.sought req).numContexts else application.numContexts
          let countConIds := (numContexts % 65536).toNat
          textBytes (setId apid.chars).chars ++ leBytes 2 countConIds ++
            (d.listedContexts req k countConIds).flatMap (contextEntry req) ++
            descriptionBytes req.options (descriptionText application.applicationDescription)

/-- The second pass. -/
def responseWritten (d : MctDaemonUsers) (req : GetLogInfoRequest) : List UInt8 :=
  let found := d.sought req
  let value := if found.numApplications ≠ 0 ∧ found.numContexts ≠ 0 then req.options else 8
  let countAppIds := found.numApplications % 65536
  leBytes 4 mctServiceIdGetLogInfo ++ [value] ++
    (if countAppIds ≠ 0 then
      leBytes 2 countAppIds ++ (List.range countAppIds).flatMap (d.applicationEntry req)
    else []) ++ mctDaemonRemoString

/-- `mct_daemon_control_get_log_info`, with none for a response that only
reports an error: for an option out of range, or for a buffer whose size has
become negative and that no memory can be found for. -/
def controlGetLogInfo (d : MctDaemonUsers) (req : GetLogInfoRequest) : Option LogInfoReply :=
  if req.options < 3 ∨ req.options > 7 then none
  else
    let datasize := int32 (d.responseSize req)
    if datasize < 0 then none else some ⟨datasize, d.responseWritten req⟩

section Selection

def SelectsApplication (req : GetLogInfoRequest) (application : MctDaemonApplication) : Prop :=
  req.apid.isEmpty ∨ application.apid = setId req.apid.chars

instance (req : GetLogInfoRequest) : DecidablePred (SelectsApplication req) :=
  fun _ => inferInstanceAs (Decidable (_ ∨ _))

def SelectsContext (req : GetLogInfoRequest) (context : MctDaemonContext) : Prop :=
  req.ctid.isEmpty ∨ context.ctid = setId req.ctid.chars

instance (req : GetLogInfoRequest) : DecidablePred (SelectsContext req) :=
  fun _ => inferInstanceAs (Decidable (_ ∨ _))

def selectedApplications (d : MctDaemonUsers) (req : GetLogInfoRequest) :
    List MctDaemonApplication :=
  d.applications.filter fun application => SelectsApplication req application

def selectedContexts (d : MctDaemonUsers) (req : GetLogInfoRequest)
    (application : MctDaemonApplication) : List MctDaemonContext :=
  (d.contextsOf application.apid).filter fun context => SelectsContext req context

/-- What a response has to say. -/
def selection (d : MctDaemonUsers) (req : GetLogInfoRequest) : List ApplicationInfo :=
  (d.selectedApplications req).map fun application =>
    application.info (d.selectedContexts req application)

end Selection

section Sizes

def contextSize (options : UInt8) (context : MctDaemonContext) : Nat :=
  sizecont options + if options = 7 then descriptionSize context.contextDescription else 0

/-- The size of the entry of an application without its contexts. -/
def applicationSize (options : UInt8) (application : MctDaemonApplication) : Nat :=
  6 + if options = 7 then descriptionSize application.applicationDescription else 0

theorem descriptionBytes_length (options : UInt8) (description : Option (List Char)) :
    (descriptionBytes options (descriptionText description)).length =
      if options = 7 then descriptionSize description else 0 := by
  unfold descriptionBytes descriptionSize
  split
  · rw [List.length_append, leBytes_length]
  · rfl

theorem context_bytes_length (options : UInt8) (context : MctDaemonContext) :
    (context.info.bytes options).length = contextSize options context := by
  have hctid : context.info.ctid.length = 4 := context.info.ctid_length
  have hdescription := descriptionBytes_length options context.contextDescription
  unfold ContextInfo.bytes contextSize sizecont
  rw [List.length_append, List.length_append, List.length_append, hctid,
    show context.info.description = descriptionText context.contextDescription from rfl,
    hdescription]
  split <;> split <;> simp

theorem contexts_bytes_length (options : UInt8) (contexts : List MctDaemonContext) :
    ((contexts.map MctDaemonContext.info).flatMap (ContextInfo.bytes options)).length =
      (contexts.map (contextSize options)).sum := by
  induction contexts with
  | nil => rfl
  | cons context contexts ih =>
      rw [List.map_cons, List.flatMap_cons, List.length_append, ih, context_bytes_length,
        List.map_cons, List.sum_cons]

theorem application_bytes_length (options : UInt8) (application : MctDaemonApplication)
    (contexts : List MctDaemonContext) :
    ((application.info contexts).bytes options).length =
      applicationSize options application + (contexts.map (contextSize options)).sum := by
  have hapid : (application.info contexts).apid.length = 4 :=
    (application.info contexts).apid_length
  have hdescription := descriptionBytes_length options application.applicationDescription
  have hcontexts := contexts_bytes_length options contexts
  unfold ApplicationInfo.bytes applicationSize
  rw [List.length_append, List.length_append, List.length_append, hapid, leBytes_length,
    show (application.info contexts).contexts = contexts.map MctDaemonContext.info from rfl,
    show (application.info contexts).description =
      descriptionText application.applicationDescription from rfl, hdescription, hcontexts]
  omega

/-- The descriptions and the entries without them. -/
theorem contextDescriptionsSize_add (options : UInt8) (contexts : List MctDaemonContext) :
    contexts.length * sizecont options +
        (if options = 7 then contextDescriptionsSize contexts else 0) =
      (contexts.map (contextSize options)).sum := by
  induction contexts with
  | nil => simp [contextDescriptionsSize]
  | cons context contexts ih =>
      rw [List.map_cons, List.sum_cons, ← ih]
      simp only [contextDescriptionsSize, contextSize, List.length_cons, List.map_cons,
        List.sum_cons, Nat.add_mul, Nat.one_mul]
      split <;> omega

theorem applicationDescriptionsSize_add (options : UInt8)
    (applications : List MctDaemonApplication) :
    applications.length * 6 +
        (if options = 7 then applicationDescriptionsSize applications else 0) =
      (applications.map (applicationSize options)).sum := by
  induction applications with
  | nil => simp [applicationDescriptionsSize]
  | cons application applications ih =>
      rw [List.map_cons, List.sum_cons, ← ih]
      simp only [applicationDescriptionsSize, applicationSize, List.length_cons, List.map_cons,
        List.sum_cons]
      split <;> omega

/-- The size of the response that says what it has to say. -/
theorem responseBytes_selection_length (d : MctDaemonUsers) (req : GetLogInfoRequest) :
    (responseBytes req.options (d.selection req)).length =
      11 + ((d.selectedApplications req).map fun application =>
        applicationSize req.options application +
          ((d.selectedContexts req application).map (contextSize req.options)).sum).sum := by
  have hparts : ∀ applications : List MctDaemonApplication,
      ((applications.map fun application =>
          application.info (d.selectedContexts req application)).flatMap
            (ApplicationInfo.bytes req.options)).length =
        (applications.map fun application => applicationSize req.options application +
          ((d.selectedContexts req application).map (contextSize req.options)).sum).sum := by
    intro applications
    induction applications with
    | nil => rfl
    | cons application applications ih =>
        rw [List.map_cons, List.flatMap_cons, List.length_append, ih, application_bytes_length,
          List.map_cons, List.sum_cons]
  have hall := hparts (d.selectedApplications req)
  simp only [responseBytes, applicationsBytes, selection, List.length_append, List.length_cons,
    leBytes_length, hall, mctDaemonRemoString, List.length_nil]
  omega

end Sizes

section Slices

variable {d : MctDaemonUsers} {req : GetLogInfoRequest} {k : Nat}
  {application : MctDaemonApplication}

/-- The slice holds contexts of the application. -/
theorem Counts.contextsFrom_eq (h : d.Counts) (hk : d.applications[k]? = some application)
    {count : Nat} (hcount : count ≤ (d.contextsOf application.apid).length) :
    d.contextsFrom k count = (d.contextsOf application.apid).take count := by
  have hsplit := h.tables.contexts_split application.apid
  unfold contextsFrom
  rw [h.offsetBase_eq hk, Int.toNat_natCast, hsplit, List.drop_left,
    List.take_append_of_le_length hcount]

/-- The contexts of all applications are those of the table. -/
theorem Counts.sum_contextsOf (h : d.Counts) (f : MctDaemonContext → Nat) :
    (d.applications.map fun application =>
      ((d.contextsOf application.apid).map f).sum).sum = (d.contexts.map f).sum := by
  have hmem : ∀ context ∈ d.contexts, context.apid ∈ d.apids :=
    fun context hcontext => h.members _ (List.mem_map_of_mem hcontext)
  have hkeys := sum_filter_key h.tables.applications.nodup f hmem
  rw [List.map_map] at hkeys
  exact hkeys

end Slices

section SecondPass

variable {d : MctDaemonUsers} {req : GetLogInfoRequest} {k : Nat}
  {application : MctDaemonApplication}

/-- The number that the second pass writes in front of the contexts. -/
def countConIds (d : MctDaemonUsers) (req : GetLogInfoRequest)
    (application : MctDaemonApplication) : Nat :=
  ((if ¬ req.apid.isEmpty then (d.sought req).numContexts else application.numContexts) %
    65536).toNat

/-- The contexts that the second pass writes for an application. -/
def shownContexts (d : MctDaemonUsers) (req : GetLogInfoRequest) (k : Nat)
    (application : MctDaemonApplication) : List MctDaemonContext :=
  (d.listedContexts req k (d.countConIds req application)).filter fun context =>
    PassesFilter req context

/-- The applications that the second pass goes through, with their positions. -/
def listedApplications (d : MctDaemonUsers) (req : GetLogInfoRequest) :
    List (MctDaemonApplication × Nat) :=
  if req.apid.isEmpty then d.applications.zipIdx
  else ((d.applicationFind req.apid).bind fun k =>
    (d.applications[k]?).map fun application => (application, k)).toList

/-- What the second pass writes for an application. -/
def writtenBlock (d : MctDaemonUsers) (req : GetLogInfoRequest)
    (listed : MctDaemonApplication × Nat) : List UInt8 :=
  blockBytes req.options (listed.1.info (d.selectedContexts req listed.1))
    (d.countConIds req listed.1)
    ((d.shownContexts req listed.2 listed.1).map MctDaemonContext.info)

theorem mem_listedApplications {listed : MctDaemonApplication × Nat}
    (h : listed ∈ d.listedApplications req) :
    d.applications[listed.2]? = some listed.1 ∧
      (¬ req.apid.isEmpty → listed.1.apid = setId req.apid.chars ∧
        d.applicationFind req.apid = some listed.2) := by
  unfold listedApplications at h
  split at h
  · next hempty => exact ⟨List.mem_zipIdx_iff_getElem?.mp h, fun hne => absurd hempty hne⟩
  · rw [Option.mem_toList] at h
    obtain ⟨k, hfound, hk⟩ := Option.bind_eq_some_iff.mp h
    obtain ⟨application, happlication, rfl⟩ := Option.map_eq_some_iff.mp hk
    obtain ⟨other, hother, hid⟩ := applicationFind_sound hfound
    rw [happlication] at hother
    cases hother
    exact ⟨happlication, fun _ => ⟨hid, hfound⟩⟩

theorem flatMap_contextEntry (contexts : List MctDaemonContext) :
    contexts.flatMap (contextEntry req) =
      ((contexts.filter fun context => PassesFilter req context).map
        MctDaemonContext.info).flatMap (ContextInfo.bytes req.options) := by
  induction contexts with
  | nil => rfl
  | cons context contexts ih =>
      rw [List.flatMap_cons, ih]
      unfold contextEntry
      by_cases hpasses : PassesFilter req context
      · rw [if_pos hpasses, List.filter_cons_of_pos (by simpa using hpasses), List.map_cons,
          List.flatMap_cons]
      · rw [if_neg hpasses, List.filter_cons_of_neg (by simpa using hpasses), List.nil_append]

/-- A round of the second pass, where the search for the application leads to
this position. -/
theorem applicationEntry_eq {i : Nat} {apid : ID4} (hk : d.applications[k]? = some application)
    (happlication : (if ¬ req.apid.isEmpty then req.apid
      else ((d.applications[i]?).map MctDaemonApplication.apid).getD (setId [])) = apid)
    (hapid : setId apid.chars = application.apid) (hfound : d.applicationFind apid = some k) :
    d.applicationEntry req i = d.writtenBlock req (application, k) := by
  unfold applicationEntry
  simp only [happlication, hfound, hk, hapid]
  unfold writtenBlock blockBytes
  rw [flatMap_contextEntry]
  rfl

/-- A loop over the positions of a list is one over its entries. -/
theorem flatMap_range_length {α β : Type} {entries : List α} {f : Nat → List β}
    {g : α × Nat → List β} (h : ∀ i entry, entries[i]? = some entry → f i = g (entry, i)) :
    (List.range entries.length).flatMap f = entries.zipIdx.flatMap g := by
  rw [List.flatMap_def, List.flatMap_def]
  congr 1
  apply List.ext_getElem
  · rw [List.length_map, List.length_map, List.length_range, List.length_zipIdx]
  · intro i hrange hentries
    rw [List.length_map, List.length_zipIdx] at hentries
    rw [List.getElem_map, List.getElem_map, List.getElem_range, List.getElem_zipIdx, Nat.zero_add]
    exact h i _ (List.getElem?_eq_getElem hentries)

/-- The second pass writes one block for each application. -/
theorem Counts.flatMap_applicationEntry (h : d.Counts) :
    (List.range (d.listedApplications req).length).flatMap (d.applicationEntry req) =
      (d.listedApplications req).flatMap (d.writtenBlock req) := by
  by_cases hempty : req.apid.isEmpty
  · have hlisted : d.listedApplications req = d.applications.zipIdx := if_pos hempty
    rw [hlisted, List.length_zipIdx]
    refine flatMap_range_length fun i application hi => ?_
    have hcanonical := h.tables.apids.canonical application.apid
      (List.mem_map_of_mem (List.mem_of_getElem? hi))
    refine applicationEntry_eq hi ?_ hcanonical (h.tables.applicationFind_eq hi)
    rw [if_neg (not_not_intro hempty), hi]
    rfl
  · cases hlisted : d.listedApplications req with
    | nil => rfl
    | cons listed rest =>
        have hrest : rest = [] := by
          unfold listedApplications at hlisted
          rw [if_neg hempty] at hlisted
          have hlength := congrArg List.length hlisted
          have hle := Option.length_toList_le (o := (d.applicationFind req.apid).bind fun k =>
            (d.applications[k]?).map fun application => (application, k))
          rw [hlength, List.length_cons] at hle
          exact List.length_eq_zero_iff.mp (by omega)
        obtain ⟨hk, hfound⟩ := mem_listedApplications (hlisted ▸ List.mem_cons_self)
        obtain ⟨hapid, hfind⟩ := hfound hempty
        subst hrest
        rw [List.length_singleton, List.flatMap_singleton, List.range_one, List.flatMap_singleton]
        exact applicationEntry_eq hk (if_pos hempty) hapid.symm hfind

theorem sought_of_empty (hempty : req.apid.isEmpty) :
    d.sought req = ⟨none, none, d.applications.length, d.contexts.length⟩ :=
  if_neg (not_not_intro hempty)

theorem sought_of_none (hne : ¬ req.apid.isEmpty) (hfind : d.applicationFind req.apid = none) :
    d.sought req = ⟨none, none, 0, 0⟩ := by
  unfold sought
  rw [if_pos hne, hfind]

/-- An application that is found, and all of its contexts. -/
theorem sought_of_found (hne : ¬ req.apid.isEmpty) (hall : req.ctid.isEmpty)
    (hfind : d.applicationFind req.apid = some k) (hk : d.applications[k]? = some application) :
    d.sought req = ⟨some k, none, 1, application.numContexts⟩ := by
  unfold sought
  rw [if_pos hne, hfind]
  dsimp only
  rw [if_neg (not_not_intro hall), hk]
  rfl

/-- An application that is found, and a context that is searched. -/
theorem sought_of_context (hne : ¬ req.apid.isEmpty) (hone : ¬ req.ctid.isEmpty)
    (hfind : d.applicationFind req.apid = some k) :
    d.sought req = ⟨some k, d.contextFind req.apid req.ctid, 1,
      if (d.contextFind req.apid req.ctid).isSome then 1 else 0⟩ := by
  unfold sought
  rw [if_pos hne, hfind]
  dsimp only
  rw [if_pos hone]

theorem listedApplications_of_found (hne : ¬ req.apid.isEmpty)
    (hfind : d.applicationFind req.apid = some k) (hk : d.applications[k]? = some application) :
    d.listedApplications req = [(application, k)] := by
  unfold listedApplications
  rw [if_neg hne, hfind, Option.bind_some, hk]
  rfl

theorem listedApplications_of_none (hne : ¬ req.apid.isEmpty)
    (hfind : d.applicationFind req.apid = none) : d.listedApplications req = [] := by
  unfold listedApplications
  rw [if_neg hne, hfind]
  rfl

theorem numApplications_eq :
    (d.sought req).numApplications = (d.listedApplications req).length := by
  by_cases hempty : req.apid.isEmpty
  · rw [sought_of_empty hempty, listedApplications, if_pos hempty, List.length_zipIdx]
  · cases hfind : d.applicationFind req.apid with
    | none =>
        rw [sought_of_none hempty hfind, listedApplications_of_none hempty hfind]
        rfl
    | some k =>
        obtain ⟨application, hk, -⟩ := applicationFind_sound hfind
        rw [listedApplications_of_found hempty hfind hk]
        by_cases hall : req.ctid.isEmpty
        · rw [sought_of_found hempty hall hfind hk]
          rfl
        · rw [sought_of_context hempty hall hfind]
          rfl

def responseValue (d : MctDaemonUsers) (req : GetLogInfoRequest) : UInt8 :=
  if (d.sought req).numApplications ≠ 0 ∧ (d.sought req).numContexts ≠ 0 then req.options else 8

/-- What is written when there are applications, and not too many. -/
theorem Counts.responseWritten_eq (h : d.Counts) (hpos : 0 < (d.listedApplications req).length)
    (hlt : (d.listedApplications req).length < 65536) :
    d.responseWritten req = leBytes 4 mctServiceIdGetLogInfo ++ d.responseValue req ::
      (leBytes 2 (d.listedApplications req).length ++
        (d.listedApplications req).flatMap (d.writtenBlock req) ++ mctDaemonRemoString) := by
  unfold responseWritten
  have hmod : (d.sought req).numApplications % 65536 = (d.listedApplications req).length := by
    rw [numApplications_eq, Nat.mod_eq_of_lt hlt]
  have hne : (d.listedApplications req).length ≠ 0 := Nat.ne_of_gt hpos
  dsimp only
  rw [hmod, if_pos hne, h.flatMap_applicationEntry]
  simp only [responseValue, List.append_assoc, List.cons_append, List.nil_append]

/-- What is written when there is no application. -/
theorem responseWritten_of_nil (h : d.listedApplications req = []) :
    (d.responseWritten req).length = 9 := by
  have hnone : (d.sought req).numApplications = 0 := by
    rw [numApplications_eq, h]
    rfl
  unfold responseWritten
  dsimp only
  rw [hnone]
  rfl

/-- The context that is searched is the only one with its identifiers. -/
theorem Counts.selectedContexts_of_find (h : d.Counts) (hone : ¬ req.ctid.isEmpty)
    (hapid : application.apid = setId req.apid.chars) {j : Nat} {context : MctDaemonContext}
    (hj : d.contexts[j]? = some context) (hcontext : context.apid = setId req.apid.chars ∧
      context.ctid = setId req.ctid.chars) : d.selectedContexts req application = [context] := by
  have hkey := h.tables.contexts.filter_key_eq (List.mem_of_getElem? hj)
  rw [← hkey, selectedContexts, contextsOf, List.filter_filter]
  refine List.filter_congr fun other hother => ?_
  rw [Bool.eq_iff_iff]
  simp only [Bool.and_eq_true, decide_eq_true_eq, SelectsContext, hone, Bool.false_eq_true,
    false_or, MctDaemonContext.key, hcontext.1, hcontext.2, hapid, EmbeddingLike.apply_eq_iff_eq,
    Prod.mk.injEq]
  exact and_comm

/-- A stored context that passes the filter was asked for. -/
theorem InOrder.selects_of_passes (h : d.InOrder) {context : MctDaemonContext}
    (hmem : context ∈ d.contexts) (hpasses : PassesFilter req context) :
    SelectsContext req context := by
  rcases hpasses with hall | hctid
  · exact .inl hall
  · have hcanonical := (h.ctids context.key (List.mem_map_of_mem hmem)).1
    refine .inr ?_
    rw [← hctid]
    exact hcanonical.symm

/-- The number written in front of the contexts is not larger than theirs,
where the loop looks at a slice of the table. -/
theorem Counts.countConIds_le (h : d.Counts) {listed : MctDaemonApplication × Nat}
    (hlisted : listed ∈ d.listedApplications req)
    (hslice : ¬ (d.countConIds req listed.1 = 1 ∧ ¬ req.apid.isEmpty ∧ ¬ req.ctid.isEmpty)) :
    d.countConIds req listed.1 ≤ (d.contextsOf listed.1.apid).length := by
  obtain ⟨hk, hfound⟩ := mem_listedApplications hlisted
  have hnumber := h.numContexts_eq hk
  have hle : (listed.1.numContexts % 65536).toNat ≤ (d.contextsOf listed.1.apid).length := by
    rw [hnumber]
    omega
  unfold countConIds at hslice ⊢
  by_cases hempty : req.apid.isEmpty
  · rw [if_neg (not_not_intro hempty)]
    exact hle
  · obtain ⟨-, hfind⟩ := hfound hempty
    rw [if_pos hempty] at hslice ⊢
    by_cases hall : req.ctid.isEmpty
    · rw [sought_of_found hempty hall hfind hk]
      exact hle
    · rw [sought_of_context hempty hall hfind] at hslice ⊢
      cases hcontext : d.contextFind req.apid req.ctid with
      | none => simp
      | some j =>
          rw [hcontext] at hslice
          exact absurd ⟨rfl, hempty, hall⟩ hslice

/-- Every context that is written was asked for. -/
theorem Counts.shownContexts_sublist (h : d.Counts) (horder : d.InOrder)
    {listed : MctDaemonApplication × Nat} (hlisted : listed ∈ d.listedApplications req) :
    (d.shownContexts req listed.2 listed.1).Sublist (d.selectedContexts req listed.1) := by
  obtain ⟨hk, hfound⟩ := mem_listedApplications hlisted
  unfold shownContexts listedContexts
  split
  · next hspecial =>
      obtain ⟨-, hempty, hall⟩ := hspecial
      obtain ⟨hapid, hfind⟩ := hfound hempty
      rw [sought_of_context hempty hall hfind]
      dsimp only
      cases hcontext : d.contextFind req.apid req.ctid with
      | none => exact List.nil_sublist _
      | some j =>
          obtain ⟨context, hj, hids⟩ := contextFind_sound hcontext
          rw [Option.bind_some, hj, h.selectedContexts_of_find hall hapid hj hids]
          exact List.filter_sublist
  · next hslice =>
      have hle := h.countConIds_le hlisted hslice
      rw [h.contextsFrom_eq hk hle]
      have hpasses : ((d.contextsOf listed.1.apid).filter fun context =>
          PassesFilter req context) = (d.selectedContexts req listed.1).filter fun context =>
            PassesFilter req context := by
        rw [selectedContexts, List.filter_filter]
        refine List.filter_congr fun context hcontext => ?_
        have hmem := (List.mem_filter.mp hcontext).1
        rw [Bool.eq_iff_iff, Bool.and_eq_true, decide_eq_true_eq, decide_eq_true_eq]
        exact ⟨fun h => ⟨h, horder.selects_of_passes hmem h⟩, And.left⟩
      refine ((List.take_sublist _ _).filter _).trans ?_
      rw [hpasses]
      exact List.filter_sublist

end SecondPass

section FirstPass

variable {d : MctDaemonUsers} {req : GetLogInfoRequest} {k : Nat}
  {application : MctDaemonApplication}

/-- The first pass adds up the sizes of the entries of these applications and
contexts. -/
theorem responseSize_eq (applications : List MctDaemonApplication)
    (contexts : List MctDaemonContext)
    (hnumApplications : (d.sought req).numApplications = applications.length)
    (hnumContexts : (d.sought req).numContexts = contexts.length)
    (hdescriptions : d.descriptionsSize req =
      contextDescriptionsSize contexts + applicationDescriptionsSize applications) :
    d.responseSize req = ((11 + (applications.map (applicationSize req.options)).sum +
      (contexts.map (contextSize req.options)).sum : Nat) : Int) := by
  have happlications := applicationDescriptionsSize_add req.options applications
  have hcontexts := contextDescriptionsSize_add req.options contexts
  unfold responseSize
  dsimp only
  rw [hnumApplications, hnumContexts, hdescriptions, ← happlications, ← hcontexts]
  push_cast
  split <;> ring

/-- All applications and contexts. -/
theorem responseSize_of_empty (hempty : req.apid.isEmpty) :
    d.responseSize req = ((11 + (d.applications.map (applicationSize req.options)).sum +
      (d.contexts.map (contextSize req.options)).sum : Nat) : Int) := by
  refine responseSize_eq d.applications d.contexts ?_ ?_ ?_
  · rw [sought_of_empty hempty]
  · rw [sought_of_empty hempty]
  · exact if_neg (not_not_intro hempty)

/-- No application. -/
theorem responseSize_of_none (hne : ¬ req.apid.isEmpty)
    (hfind : d.applicationFind req.apid = none) : d.responseSize req = 11 := by
  refine responseSize_eq [] [] ?_ ?_ ?_
  · rw [sought_of_none hne hfind]
    rfl
  · rw [sought_of_none hne hfind]
    rfl
  · unfold descriptionsSize
    dsimp only
    rw [if_pos hne, sought_of_none hne hfind]
    split <;> rfl

/-- One application with all of its contexts. -/
theorem Counts.responseSize_of_found (h : d.Counts) (hne : ¬ req.apid.isEmpty)
    (hall : req.ctid.isEmpty) (hfind : d.applicationFind req.apid = some k)
    (hk : d.applications[k]? = some application) :
    d.responseSize req = ((11 + applicationSize req.options application +
      ((d.contextsOf application.apid).map (contextSize req.options)).sum : Nat) : Int) := by
  have hnumber := h.numContexts_eq hk
  have hslice := h.contextsFrom_eq hk (le_refl (d.contextsOf application.apid).length)
  rw [List.take_length] at hslice
  have hsize : d.responseSize req = _ := responseSize_eq [application]
    (d.contextsOf application.apid) (by rw [sought_of_found hne hall hfind hk]; rfl)
    (by rw [sought_of_found hne hall hfind hk]; exact hnumber) (by
      unfold descriptionsSize
      dsimp only
      rw [if_pos hne, sought_of_found hne hall hfind hk, if_neg (not_not_intro hall)]
      dsimp only
      rw [hnumber, Int.toNat_natCast, hslice, Option.bind_some, hk]
      rfl)
  rw [hsize, List.map_singleton, List.sum_singleton]

/-- One application with the context that is searched, if it is found. -/
theorem responseSize_of_context (hne : ¬ req.apid.isEmpty) (hone : ¬ req.ctid.isEmpty)
    (hfind : d.applicationFind req.apid = some k)
    (hk : d.applications[k]? = some application) (contexts : List MctDaemonContext)
    (hcontexts : ((d.contextFind req.apid req.ctid).bind fun j => d.contexts[j]?).toList = contexts)
    (hlength : contexts.length = if (d.contextFind req.apid req.ctid).isSome then 1 else 0) :
    d.responseSize req = ((11 + applicationSize req.options application +
      (contexts.map (contextSize req.options)).sum : Nat) : Int) := by
  have hsize : d.responseSize req = _ := responseSize_eq [application] contexts
    (by rw [sought_of_context hne hone hfind]; rfl)
    (by rw [sought_of_context hne hone hfind, hlength]; split <;> rfl) (by
      unfold descriptionsSize
      dsimp only
      rw [if_pos hne, sought_of_context hne hone hfind, if_pos hone]
      dsimp only
      rw [hcontexts, Option.bind_some, hk]
      rfl)
  rw [hsize, List.map_singleton, List.sum_singleton]

end FirstPass

end MctDaemonUsers

end MctDaemon.Daemon
