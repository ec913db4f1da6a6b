import MctDaemon.Daemon.GetLogInfo

/-!
When a GET_LOG_INFO response is exact. The two passes agree unless an
identifier with bytes behind its zero is searched for or compared, a number or
a length does not fit into two bytes, or contexts are filtered that the first
pass and the counts include: this is so when the request names a context, but
no application.
-/

namespace MctDaemon.Daemon

open Lib Shared

namespace MctDaemonUsers

/-- The response stays within its buffer, and where it has applications to
list, its payload is decoded as these. -/
def ExactLogInfo (d : MctDaemonUsers) (req : GetLogInfoRequest) : Prop :=
  ∃ reply, d.controlGetLogInfo req = some reply ∧ (reply.written.length : Int) ≤ reply.datasize ∧
    (d.selection req ≠ [] → decodeResponse req.options reply.payload =
      some (responseStatus req.options (d.selection req),
        (d.selection req).map (ApplicationInfo.shown req.options)))

/-- A description that is a part of the response has a length that fits. -/
def ShortDescriptions (d : MctDaemonUsers) (req : GetLogInfoRequest) : Prop :=
  req.options = 7 → ∀ application ∈ d.selectedApplications req,
    (descriptionText application.applicationDescription).length < 65536 ∧
      ∀ context ∈ d.selectedContexts req application,
        (descriptionText context.contextDescription).length < 65536

/-- The contexts of an application that were not asked for. -/
def hiddenContexts (d : MctDaemonUsers) (req : GetLogInfoRequest)
    (application : MctDaemonApplication) : List MctDaemonContext :=
  (d.contextsOf application.apid).filter fun context => ¬ SelectsContext req context

/-- All registered contexts are asked for by their bytes, or those that are not
do not show: not in the numbers modulo 2^16 and not in the size modulo 2^32. -/
structure NoHiddenContexts (d : MctDaemonUsers) (req : GetLogInfoRequest) : Prop where
  status : d.contexts ≠ [] → ∃ context ∈ d.contexts, SelectsContext req context
  numbers : ∀ application ∈ d.applications, 65536 ∣ (d.hiddenContexts req application).length
  first : ∀ application ∈ d.applications, ∀ context ∈ (d.contextsOf application.apid).take
    (d.selectedContexts req application).length, context.ctid = req.ctid
  size : 4294967296 ∣ ((d.applications.map fun application =>
    ((d.hiddenContexts req application).map (contextSize req.options)).sum).sum)

/-- The condition on the tables and the request. -/
structure Answerable (d : MctDaemonUsers) (req : GetLogInfoRequest) : Prop where
  application : d.Reaches req.apid
  context : ¬ req.apid.isEmpty → ¬ req.ctid.isEmpty →
    toLex (setId req.apid.chars, setId req.ctid.chars) ∈ d.contextKeys →
      NotAbove d.contextApids req.apid ∧ req.ctid.Canonical
  applications : (d.selectedApplications req).length < 65536
  contexts : ∀ application ∈ d.selectedApplications req,
    (d.selectedContexts req application).length < 65536
  descriptions : d.ShortDescriptions req
  size : (responseBytes req.options (d.selection req)).length < 2147483648
  hidden : req.apid.isEmpty → ¬ req.ctid.isEmpty → d.NoHiddenContexts req

section Reply

variable {d : MctDaemonUsers} {req : GetLogInfoRequest}

/-- The bytes of a response that says what it has to say. -/
theorem responseBytes_shown (options : UInt8) (applications : List ApplicationInfo) :
    leBytes 4 mctServiceIdGetLogInfo ++ responseStatus options applications ::
        applicationsBytes options (applications.map (ApplicationInfo.shown options)) =
      responseBytes options applications := by
  have hbytes : (applications.map (ApplicationInfo.shown options)).flatMap
      (ApplicationInfo.bytes options) = applications.flatMap (ApplicationInfo.bytes options) := by
    rw [List.flatMap_map]
    exact congrArg (fun f => applications.flatMap f) (funext (ApplicationInfo.bytes_shown options))
  rw [responseBytes, applicationsBytes, applicationsBytes, hbytes, List.length_map]

/-- A payload within its buffer has cleared bytes behind what was written. -/
theorem payload_of_le {reply : LogInfoReply} (h : (reply.written.length : Int) ≤ reply.datasize) :
    reply.payload =
      reply.written ++ List.replicate (reply.datasize.toNat - reply.written.length) 0 := by
  unfold LogInfoReply.payload
  rw [List.take_of_length_le]
  rw [List.length_append, List.length_replicate]
  omega

/-- No cleared bytes stand behind the end of a response. -/
theorem eq_of_append_replicate_eq {written front : List UInt8} {n : Nat}
    (h : written ++ List.replicate n 0 = front ++ mctDaemonRemoString) :
    written = front ++ mctDaemonRemoString ∧ n = 0 := by
  cases n with
  | zero => exact ⟨by simpa using h, rfl⟩
  | succ n =>
      have hlast := congrArg List.getLast? h
      rw [List.replicate_succ', ← List.append_assoc, List.getLast?_concat,
        show mctDaemonRemoString = [114, 101, 109] ++ [111] from rfl, ← List.append_assoc,
        List.getLast?_concat, Option.some.injEq] at hlast
      exact absurd hlast (by decide)

/-- The decoded payload is what was written, up to its end. -/
theorem decode_iff {reply : LogInfoReply} (h : (reply.written.length : Int) ≤ reply.datasize) :
    decodeResponse req.options reply.payload =
        some (responseStatus req.options (d.selection req),
          (d.selection req).map (ApplicationInfo.shown req.options)) ↔
      reply.written = responseBytes req.options (d.selection req) ∧
        reply.datasize = (responseBytes req.options (d.selection req)).length ∧
        (d.selection req).length < 65536 ∧
        ∀ application ∈ d.selection req, (application.shown req.options).Fits req.options := by
  rw [decodeResponse_eq_some_iff, responseBytes_shown, payload_of_le h, List.length_map]
  have hfits : (∀ application ∈ (d.selection req).map (ApplicationInfo.shown req.options),
      application.Fits req.options) ↔
        ∀ application ∈ d.selection req, (application.shown req.options).Fits req.options :=
    List.forall_mem_map
  rw [hfits]
  constructor
  · rintro ⟨hbytes, hrest⟩
    have hform : responseBytes req.options (d.selection req) =
        (leBytes 4 mctServiceIdGetLogInfo ++ responseStatus req.options (d.selection req) ::
          (leBytes 2 (d.selection req).length ++
            (d.selection req).flatMap (ApplicationInfo.bytes req.options))) ++
          mctDaemonRemoString := by
      simp only [responseBytes, applicationsBytes, List.append_assoc, List.cons_append]
    rw [hform] at hbytes ⊢
    obtain ⟨hwritten, hzero⟩ := eq_of_append_replicate_eq hbytes
    refine ⟨hwritten, ?_, hrest⟩
    rw [← hwritten]
    omega
  · rintro ⟨hwritten, hdatasize, hrest⟩
    refine ⟨?_, hrest⟩
    rw [hwritten, hdatasize, Int.toNat_natCast, Nat.sub_self, List.replicate_zero, List.append_nil]

end Reply

section Agree

variable {d : MctDaemonUsers} {req : GetLogInfoRequest}

/-- The two passes and the request agree. -/
structure Agrees (d : MctDaemonUsers) (req : GetLogInfoRequest) : Prop where
  listed : (d.listedApplications req).map Prod.fst = d.selectedApplications req
  length : (d.selectedApplications req).length < 65536
  contexts : ∀ listed ∈ d.listedApplications req,
    d.shownContexts req listed.2 listed.1 = d.selectedContexts req listed.1 ∧
      d.countConIds req listed.1 = (d.selectedContexts req listed.1).length
  value : d.responseValue req = responseStatus req.options (d.selection req)
  fits : ∀ application ∈ d.selection req, (application.shown req.options).Fits req.options
  datasize : int32 (d.responseSize req) = (responseBytes req.options (d.selection req)).length

/-- The applications of the second pass are those that are selected, unless the
search misses one. -/
theorem Counts.listed_eq_selected (h : d.Counts)
    (hfound : req.apid.isEmpty ∨ (d.applicationFind req.apid).isSome) :
    (d.listedApplications req).map Prod.fst = d.selectedApplications req := by
  by_cases hempty : req.apid.isEmpty
  · have hlisted : d.listedApplications req = d.applications.zipIdx := if_pos hempty
    rw [hlisted, List.zipIdx_map_fst, selectedApplications, List.filter_eq_self.mpr]
    intro application _
    simp [SelectsApplication, hempty]
  · obtain ⟨k, hk⟩ := Option.isSome_iff_exists.mp (hfound.resolve_left hempty)
    obtain ⟨application, happlication, hid⟩ := applicationFind_sound hk
    have hone := h.tables.applications.filter_key_eq (List.mem_of_getElem? happlication)
    rw [listedApplications_of_found hempty hk happlication, List.map_singleton, ← hone]
    refine List.filter_congr fun other _ => decide_eq_decide.mpr ?_
    rw [hid]
    exact (or_iff_right hempty).symm

theorem selection_eq_map
    (h : (d.listedApplications req).map Prod.fst = d.selectedApplications req) :
    d.selection req = (d.listedApplications req).map fun listed =>
      listed.1.info (d.selectedContexts req listed.1) := by
  rw [selection, ← h, List.map_map]
  rfl

theorem info_injective_of_sublist {few all : List MctDaemonContext} (hsub : few.Sublist all)
    (h : few.map MctDaemonContext.info = all.map MctDaemonContext.info) : few = all := by
  have hlength := congrArg List.length h
  rw [List.length_map, List.length_map] at hlength
  exact hsub.eq_of_length hlength

theorem countConIds_lt (application : MctDaemonApplication) :
    d.countConIds req application < 65536 := by
  unfold countConIds
  omega

theorem leBytes_two_injective {m n : Nat} (hm : m < 65536) (hn : n < 65536)
    (h : leBytes 2 m = leBytes 2 n) : m = n := by
  rw [← leNat_leBytes 2 m hm, ← leNat_leBytes 2 n hn, h]

/-- What is written is the response if and only if the passes agree. -/
theorem Counts.written_eq_iff (h : d.Counts) (horder : d.InOrder)
    (hlisted : (d.listedApplications req).map Prod.fst = d.selectedApplications req)
    (hpos : 0 < (d.listedApplications req).length)
    (hlt : (d.listedApplications req).length < 65536)
    (hfits : ∀ application ∈ d.selection req, application.contexts.length < 65536) :
    d.responseWritten req = responseBytes req.options (d.selection req) ↔
      d.responseValue req = responseStatus req.options (d.selection req) ∧
        ∀ listed ∈ d.listedApplications req,
          d.shownContexts req listed.2 listed.1 = d.selectedContexts req listed.1 ∧
            d.countConIds req listed.1 = (d.selectedContexts req listed.1).length := by
  have hselection := selection_eq_map hlisted
  have hlength : (d.selection req).length = (d.listedApplications req).length := by
    rw [hselection, List.length_map]
  have hbytes : (d.selection req).flatMap (ApplicationInfo.bytes req.options) =
      (d.listedApplications req).flatMap fun listed =>
        (listed.1.info (d.selectedContexts req listed.1)).bytes req.options := by
    rw [hselection, List.flatMap_map]
  rw [h.responseWritten_eq hpos hlt, responseBytes, applicationsBytes, hlength, hbytes]
  constructor
  · intro hwritten
    have hcons := List.append_cancel_left hwritten
    rw [List.cons.injEq] at hcons
    obtain ⟨hvalue, hrest⟩ := hcons
    have hblocks := List.append_cancel_left (List.append_cancel_right hrest)
    refine ⟨hvalue, fun listed hmem => ?_⟩
    have hsub : ∀ listed ∈ d.listedApplications req,
        ((d.shownContexts req listed.2 listed.1).map MctDaemonContext.info).Sublist
          (listed.1.info (d.selectedContexts req listed.1)).contexts :=
      fun listed hmem => (h.shownContexts_sublist horder hmem).map _
    obtain ⟨hcontexts, hcount⟩ := blocks_eq req.options hsub hblocks listed hmem
    have hsame := info_injective_of_sublist (h.shownContexts_sublist horder hmem) hcontexts
    refine ⟨hsame, ?_⟩
    have hshort := hfits (listed.1.info (d.selectedContexts req listed.1)) (by
      rw [hselection]
      exact List.mem_map_of_mem hmem)
    have hinfo : (listed.1.info (d.selectedContexts req listed.1)).contexts.length =
        (d.selectedContexts req listed.1).length := List.length_map _
    rw [hinfo] at hshort hcount
    exact leBytes_two_injective (countConIds_lt _) hshort hcount
  · rintro ⟨hvalue, hcontexts⟩
    rw [hvalue]
    have hblocks : (d.listedApplications req).flatMap (d.writtenBlock req) =
        (d.listedApplications req).flatMap fun listed =>
          (listed.1.info (d.selectedContexts req listed.1)).bytes req.options := by
      refine List.flatMap_congr fun listed hmem => ?_
      obtain ⟨hshown, hcount⟩ := hcontexts listed hmem
      have hinfo : (listed.1.info (d.selectedContexts req listed.1)).contexts.length =
          (d.selectedContexts req listed.1).length := List.length_map _
      rw [writtenBlock, hshown, hcount, ← hinfo]
      rfl
    rw [hblocks]

/-- A response with applications to list is exact if and only if the passes
agree. -/
theorem Counts.exact_iff_agrees (h : d.Counts) (horder : d.InOrder)
    (hoptions : ¬ (req.options < 3 ∨ req.options > 7)) (hne : d.selection req ≠ []) :
    d.ExactLogInfo req ↔ d.Agrees req := by
  have hcontrol : d.controlGetLogInfo req =
      if int32 (d.responseSize req) < 0 then none
      else some ⟨int32 (d.responseSize req), d.responseWritten req⟩ := if_neg hoptions
  have hfitsCount : ∀ application : ApplicationInfo,
      (application.shown req.options).Fits req.options → application.contexts.length < 65536 :=
    fun application hfits => ((application.fits_shown_iff req.options).mp hfits).1
  have hselected : (d.selection req).length = (d.selectedApplications req).length :=
    List.length_map _
  have hpositive : 0 < (d.selection req).length := List.length_pos_iff.mpr hne
  constructor
  · rintro ⟨reply, hreply, hle, hdecode⟩
    obtain ⟨hwritten, hdatasize, hlength, hfits⟩ := (decode_iff hle).mp (hdecode hne)
    rw [hcontrol] at hreply
    split at hreply
    · cases hreply
    cases hreply
    have hlistedNe : d.listedApplications req ≠ [] := by
      intro hnil
      have hnine := responseWritten_of_nil hnil
      have heleven := responseBytes_selection_length d req
      have hsame := congrArg List.length hwritten
      dsimp only at hsame
      omega
    have hfound : req.apid.isEmpty ∨ (d.applicationFind req.apid).isSome := by
      by_cases hempty : req.apid.isEmpty
      · exact .inl hempty
      · refine .inr (Option.isSome_iff_ne_none.mpr fun hnone => hlistedNe ?_)
        exact listedApplications_of_none hempty hnone
    have hlisted := h.listed_eq_selected hfound
    have hcount : (d.listedApplications req).length = (d.selection req).length := by
      rw [hselected, ← hlisted, List.length_map]
    obtain ⟨hvalue, hcontexts⟩ := (h.written_eq_iff horder hlisted (by omega) (by omega)
      fun application hmem => hfitsCount application (hfits application hmem)).mp hwritten
    exact ⟨hlisted, by omega, hcontexts, hvalue, hfits, hdatasize⟩
  · rintro ⟨hlisted, hlength, hcontexts, hvalue, hfits, hdatasize⟩
    have hcount : (d.listedApplications req).length = (d.selection req).length := by
      rw [hselected, ← hlisted, List.length_map]
    have hwritten := (h.written_eq_iff horder hlisted (by omega) (by omega)
      fun application hmem => hfitsCount application (hfits application hmem)).mpr
        ⟨hvalue, hcontexts⟩
    have hle : ((d.responseWritten req).length : Int) ≤ int32 (d.responseSize req) := by
      rw [hwritten, hdatasize]
    refine ⟨⟨int32 (d.responseSize req), d.responseWritten req⟩, ?_, hle, fun _ => ?_⟩
    · rw [hcontrol, if_neg (by omega)]
    · exact (decode_iff hle).mpr ⟨hwritten, hdatasize, by omega, hfits⟩

/-- A response without applications stays within its buffer. -/
theorem Counts.exact_of_nil (h : d.Counts) (hoptions : ¬ (req.options < 3 ∨ req.options > 7))
    (hnil : d.selection req = []) : d.ExactLogInfo req := by
  have hselected : d.selectedApplications req = [] := List.map_eq_nil_iff.mp hnil
  have hsize : d.responseSize req = 11 ∧ d.listedApplications req = [] := by
    by_cases hempty : req.apid.isEmpty
    · have hlisted := h.listed_eq_selected (.inl hempty)
      have happlications : d.applications = [] := by
        rw [hselected, listedApplications, if_pos hempty, List.zipIdx_map_fst] at hlisted
        exact hlisted
      have hcontexts : d.contexts = [] := by
        refine List.eq_nil_iff_forall_not_mem.mpr fun context hmem => ?_
        have hmember := h.members _ (List.mem_map_of_mem hmem)
        rw [apids, happlications] at hmember
        cases hmember
      rw [responseSize_of_empty hempty, happlications, hcontexts, listedApplications,
        if_pos hempty, happlications]
      exact ⟨rfl, rfl⟩
    · cases hfind : d.applicationFind req.apid with
      | none => exact ⟨responseSize_of_none hempty hfind, listedApplications_of_none hempty hfind⟩
      | some k =>
          have hlisted := h.listed_eq_selected (.inr (by rw [hfind]; rfl))
          obtain ⟨application, hk, -⟩ := applicationFind_sound hfind
          rw [hselected, listedApplications_of_found hempty hfind hk] at hlisted
          cases hlisted
  have hnine := responseWritten_of_nil hsize.2
  have heleven : int32 (d.responseSize req) = 11 := by
    rw [hsize.1]
    exact int32_of_small (by omega) (by omega)
  refine ⟨⟨11, d.responseWritten req⟩, ?_, ?_, fun hne => absurd hnil hne⟩
  · unfold controlGetLogInfo
    rw [if_neg hoptions]
    dsimp only
    rw [heleven, if_neg (by omega)]
  · dsimp only
    omega

end Agree

section Conditions

variable {d : MctDaemonUsers} {req : GetLogInfoRequest}

/-- The search for the application does not miss it. -/
theorem Counts.found_iff_reaches (h : d.Counts) (hne : d.selectedApplications req ≠ []) :
    (req.apid.isEmpty ∨ (d.applicationFind req.apid).isSome) ↔ d.Reaches req.apid := by
  constructor
  · rintro (hempty | hsome) hmem
    · have hnonempty := h.tables.apids.nonempty _ hmem
      rw [isEmpty_setId] at hnonempty
      exact absurd hempty hnonempty
    · unfold applicationFind at hsome
      split at hsome
      · cases hsome
      · split at hsome
        · next hrange => exact notAbove_of_withinRange hrange
        · cases hsome
  · intro hreaches
    by_cases hempty : req.apid.isEmpty
    · exact .inl hempty
    · obtain ⟨application, hmem⟩ := List.exists_mem_of_ne_nil _ hne
      obtain ⟨hstored, hselects⟩ := List.mem_filter.mp hmem
      have hid : application.apid = setId req.apid.chars :=
        (of_decide_eq_true hselects).resolve_left hempty
      refine .inr ((h.tables.applicationFind_isSome hreaches).mpr ?_)
      rw [← hid]
      exact List.mem_map_of_mem hstored

theorem fits_iff : (∀ application ∈ d.selection req,
    (application.shown req.options).Fits req.options) ↔
      (∀ application ∈ d.selectedApplications req,
        (d.selectedContexts req application).length < 65536) ∧ d.ShortDescriptions req := by
  have hfits : ∀ application : MctDaemonApplication,
      (((application.info (d.selectedContexts req application)).shown req.options).Fits
          req.options) ↔
        (d.selectedContexts req application).length < 65536 ∧ (req.options = 7 →
          (descriptionText application.applicationDescription).length < 65536 ∧
            ∀ context ∈ d.selectedContexts req application,
              (descriptionText context.contextDescription).length < 65536) := by
    intro application
    rw [ApplicationInfo.fits_shown_iff]
    refine and_congr ?_ (imp_congr_right fun _ => and_congr Iff.rfl ?_)
    · rw [show (application.info (d.selectedContexts req application)).contexts =
        (d.selectedContexts req application).map MctDaemonContext.info from rfl, List.length_map]
    · exact List.forall_mem_map
  have hall : (∀ application ∈ d.selection req,
      (application.shown req.options).Fits req.options) ↔
        ∀ application ∈ d.selectedApplications req,
          ((application.info (d.selectedContexts req application)).shown req.options).Fits
            req.options := List.forall_mem_map
  rw [hall]
  constructor
  · intro h
    exact ⟨fun application hmem => ((hfits application).mp (h application hmem)).1,
      fun hseven application hmem => ((hfits application).mp (h application hmem)).2 hseven⟩
  · rintro ⟨hcounts, hdescriptions⟩ application hmem
    exact (hfits application).mpr ⟨hcounts application hmem,
      fun hseven => hdescriptions hseven application hmem⟩

/-- The status is right if and only if the first pass counts contexts exactly
when there are some to list. -/
theorem value_iff (hoptions : req.options ≠ 8) (hne : d.selection req ≠ [])
    (hlisted : (d.listedApplications req).map Prod.fst = d.selectedApplications req) :
    d.responseValue req = responseStatus req.options (d.selection req) ↔
      ((d.sought req).numContexts ≠ 0 ↔
        ∃ application ∈ d.selectedApplications req, d.selectedContexts req application ≠ []) := by
  have hnumber : (d.sought req).numApplications ≠ 0 := by
    have hlength := congrArg List.length hlisted
    rw [List.length_map, ← numApplications_eq] at hlength
    rw [hlength]
    exact fun hzero => hne (List.map_eq_nil_iff.mpr (List.length_eq_zero_iff.mp hzero))
  have hstatus : responseStatus req.options (d.selection req) =
      if (∃ application ∈ d.selectedApplications req, d.selectedContexts req application ≠ []) then
        req.options else 8 := by
    unfold responseStatus
    by_cases hsome : ∃ application ∈ d.selectedApplications req,
        d.selectedContexts req application ≠ []
    · obtain ⟨application, hmem, hcontexts⟩ := hsome
      have hlisted : ¬ (d.selection req).flatMap ApplicationInfo.contexts = [] := by
        intro hnil
        have hinfo := List.flatMap_eq_nil_iff.mp hnil _ (List.mem_map_of_mem hmem)
        exact hcontexts (List.map_eq_nil_iff.mp hinfo)
      rw [if_neg hlisted, if_pos ⟨application, hmem, hcontexts⟩]
    · have hnil : (d.selection req).flatMap ApplicationInfo.contexts = [] := by
        refine List.flatMap_eq_nil_iff.mpr fun info hmem => ?_
        obtain ⟨application, happlication, rfl⟩ := List.mem_map.mp hmem
        refine List.map_eq_nil_iff.mpr ?_
        by_contra hcontexts
        exact hsome ⟨application, happlication, hcontexts⟩
      rw [if_pos hnil, if_neg hsome]
  rw [hstatus, responseValue]
  by_cases hsome : ∃ application ∈ d.selectedApplications req,
      d.selectedContexts req application ≠ []
  · rw [if_pos hsome]
    by_cases hcontexts : (d.sought req).numContexts = 0
    · rw [if_neg (fun h => h.2 hcontexts)]
      exact iff_of_false hoptions.symm fun h => h.mpr hsome hcontexts
    · rw [if_pos ⟨hnumber, hcontexts⟩]
      exact iff_of_true rfl (iff_of_true hcontexts hsome)
  · rw [if_neg hsome]
    by_cases hcontexts : (d.sought req).numContexts = 0
    · rw [if_neg (fun h => h.2 hcontexts)]
      exact iff_of_true rfl (iff_of_false (not_not_intro hcontexts) hsome)
    · rw [if_pos ⟨hnumber, hcontexts⟩]
      exact iff_of_false hoptions fun h => hsome (h.mp hcontexts)

/-- The contexts of an application that the loop goes through, where the
request does not name both an application and a context. -/
theorem Counts.shownContexts_eq (h : d.Counts) {listed : MctDaemonApplication × Nat}
    (hlisted : listed ∈ d.listedApplications req) (hslice : req.apid.isEmpty ∨ req.ctid.isEmpty) :
    d.countConIds req listed.1 = (d.contextsOf listed.1.apid).length % 65536 ∧
      d.shownContexts req listed.2 listed.1 =
        ((d.contextsOf listed.1.apid).take (d.countConIds req listed.1)).filter
          fun context => PassesFilter req context := by
  obtain ⟨hk, hfound⟩ := mem_listedApplications hlisted
  have hnumber := h.numContexts_eq hk
  have hnotBoth : ¬ (d.countConIds req listed.1 = 1 ∧ ¬ req.apid.isEmpty ∧ ¬ req.ctid.isEmpty) :=
    fun hboth => hslice.elim hboth.2.1 hboth.2.2
  constructor
  · unfold countConIds
    by_cases hempty : req.apid.isEmpty
    · rw [if_neg (not_not_intro hempty), hnumber]
      omega
    · obtain ⟨-, hfind⟩ := hfound hempty
      rw [if_pos hempty, sought_of_found hempty (hslice.resolve_left hempty) hfind hk]
      dsimp only
      rw [hnumber]
      omega
  · unfold shownContexts listedContexts
    rw [if_neg hnotBoth, h.contextsFrom_eq hk (h.countConIds_le hlisted hnotBoth)]

/-- A slice that is filtered holds what is asked for if and only if the number
of the others does not show and the first contexts pass. -/
theorem filter_take_eq_iff {contexts : List MctDaemonContext}
    (hselects : ∀ context ∈ contexts, PassesFilter req context → SelectsContext req context)
    (hshort : (contexts.filter fun context => SelectsContext req context).length < 65536) :
    ((contexts.take (contexts.length % 65536)).filter (fun context => PassesFilter req context) =
        contexts.filter (fun context => SelectsContext req context) ∧
      contexts.length % 65536 =
        (contexts.filter fun context => SelectsContext req context).length) ↔
      65536 ∣ (contexts.filter fun context => ¬ SelectsContext req context).length ∧
        ∀ context ∈ contexts.take
          (contexts.filter fun context => SelectsContext req context).length,
          PassesFilter req context := by
  have hsplit : contexts.length =
      (contexts.filter fun context => SelectsContext req context).length +
        (contexts.filter fun context => ¬ SelectsContext req context).length := by
    have hparts := List.length_eq_length_filter_add (l := contexts)
      fun context => decide (SelectsContext req context)
    simpa using hparts
  have hpasses : contexts.filter (fun context => PassesFilter req context) =
      (contexts.filter fun context => SelectsContext req context).filter
        fun context => PassesFilter req context := by
    rw [List.filter_filter]
    refine List.filter_congr fun context hmem => ?_
    rw [Bool.eq_iff_iff, Bool.and_eq_true, decide_eq_true_eq, decide_eq_true_eq]
    exact ⟨fun h => ⟨h, hselects context hmem h⟩, And.left⟩
  constructor
  · rintro ⟨hfilter, hcount⟩
    refine ⟨by omega, ?_⟩
    rw [← hcount]
    have hlength : ((contexts.take (contexts.length % 65536)).filter fun context =>
        PassesFilter req context).length = (contexts.take (contexts.length % 65536)).length := by
      rw [hfilter, List.length_take_of_le (Nat.mod_le _ _), hcount]
    rw [List.length_filter_eq_length_iff] at hlength
    exact fun context hmem => of_decide_eq_true (hlength context hmem)
  · rintro ⟨hothers, hfirst⟩
    have hcount : contexts.length % 65536 =
        (contexts.filter fun context => SelectsContext req context).length := by omega
    refine ⟨?_, hcount⟩
    rw [hcount]
    have hself : (contexts.take (contexts.filter fun context =>
        SelectsContext req context).length).filter (fun context => PassesFilter req context) =
          contexts.take (contexts.filter fun context => SelectsContext req context).length :=
      List.filter_eq_self.mpr fun context hmem => decide_eq_true (hfirst context hmem)
    have hsub : ((contexts.take (contexts.filter fun context =>
        SelectsContext req context).length).filter fun context => PassesFilter req context).Sublist
          (contexts.filter fun context => SelectsContext req context) := by
      refine ((List.take_sublist _ _).filter _).trans ?_
      rw [hpasses]
      exact List.filter_sublist
    refine hsub.eq_of_length ?_
    rw [hself, List.length_take_of_le (by omega)]

end Conditions

section Cases

variable {d : MctDaemonUsers} {req : GetLogInfoRequest}

/-- What the second pass, the status and the size have to be. -/
def PassesAgree (d : MctDaemonUsers) (req : GetLogInfoRequest) : Prop :=
  (∀ listed ∈ d.listedApplications req,
    d.shownContexts req listed.2 listed.1 = d.selectedContexts req listed.1 ∧
      d.countConIds req listed.1 = (d.selectedContexts req listed.1).length) ∧
  d.responseValue req = responseStatus req.options (d.selection req) ∧
  int32 (d.responseSize req) = (responseBytes req.options (d.selection req)).length

/-- A size comes back as an `int32_t`, without what is a multiple of 2^32. -/
theorem int32_add_eq_iff (size hidden : Nat) :
    int32 ((size + hidden : Nat) : Int) = size ↔ size < 2147483648 ∧ 4294967296 ∣ hidden := by
  unfold int32
  omega

theorem selectedApplications_of_empty (hempty : req.apid.isEmpty) :
    d.selectedApplications req = d.applications :=
  List.filter_eq_self.mpr fun _ _ => decide_eq_true (.inl hempty)

/-- Without an application in the request, the first pass includes what was not
asked for. -/
theorem Counts.responseSize_hidden (h : d.Counts) (hempty : req.apid.isEmpty) :
    d.responseSize req = (((responseBytes req.options (d.selection req)).length +
      (d.applications.map fun application =>
        ((d.hiddenContexts req application).map (contextSize req.options)).sum).sum : Nat) :
          Int) := by
  have hparts : ∀ application : MctDaemonApplication,
      ((d.contextsOf application.apid).map (contextSize req.options)).sum =
        ((d.selectedContexts req application).map (contextSize req.options)).sum +
          ((d.hiddenContexts req application).map (contextSize req.options)).sum :=
    fun application => (List.sum_map_filter_add_sum_map_filter_not (SelectsContext req)
      (contextSize req.options) (d.contextsOf application.apid)).symm
  rw [responseSize_of_empty hempty, responseBytes_selection_length,
    selectedApplications_of_empty hempty, ← h.sum_contextsOf, List.sum_map_add]
  simp only [hparts]
  rw [List.sum_map_add]
  push_cast
  ring

/-- Without an application in the request, all of them are listed: each gets its own contexts exactly
if those that pass the filter stand in front and the counter did not run over. -/
theorem Counts.shownContexts_iff_of_empty (h : d.Counts) (horder : d.InOrder)
    (hempty : req.apid.isEmpty)
    (hcounts : ∀ application ∈ d.applications,
      (d.selectedContexts req application).length < 65536) :
    (∀ listed ∈ d.listedApplications req,
      d.shownContexts req listed.2 listed.1 = d.selectedContexts req listed.1 ∧
        d.countConIds req listed.1 = (d.selectedContexts req listed.1).length) ↔
      ∀ application ∈ d.applications, 65536 ∣ (d.hiddenContexts req application).length ∧
        ∀ context ∈ (d.contextsOf application.apid).take
          (d.selectedContexts req application).length, PassesFilter req context := by
  have hfst := h.listed_eq_selected (.inl hempty)
  have hone : ∀ listed ∈ d.listedApplications req,
      (d.shownContexts req listed.2 listed.1 = d.selectedContexts req listed.1 ∧
        d.countConIds req listed.1 = (d.selectedContexts req listed.1).length) ↔
      65536 ∣ (d.hiddenContexts req listed.1).length ∧
        ∀ context ∈ (d.contextsOf listed.1.apid).take
          (d.selectedContexts req listed.1).length, PassesFilter req context := by
    intro listed hmem
    obtain ⟨hcount, hshown⟩ := h.shownContexts_eq hmem (.inl hempty)
    have hstored := List.mem_of_getElem? (mem_listedApplications hmem).1
    rw [hshown, hcount]
    exact filter_take_eq_iff (fun context hcontext => horder.selects_of_passes
      (List.mem_filter.mp hcontext).1) (hcounts listed.1 hstored)
  have hmap := (@List.forall_mem_map _ _ Prod.fst (d.listedApplications req) fun application =>
    65536 ∣ (d.hiddenContexts req application).length ∧
      ∀ context ∈ (d.contextsOf application.apid).take
        (d.selectedContexts req application).length, PassesFilter req context).symm
  rw [hfst, selectedApplications_of_empty hempty] at hmap
  rw [← hmap]
  exact forall₂_congr hone

/-- Some application has a context that is asked for exactly if there is such a context. -/
theorem Counts.exists_selected (h : d.Counts) :
    (∃ application ∈ d.applications, d.selectedContexts req application ≠ []) ↔
      ∃ context ∈ d.contexts, SelectsContext req context := by
  constructor
  · rintro ⟨application, -, hcontexts⟩
    obtain ⟨context, hmem⟩ := List.exists_mem_of_ne_nil _ hcontexts
    obtain ⟨hof, hselects⟩ := List.mem_filter.mp hmem
    exact ⟨context, (List.mem_filter.mp hof).1, of_decide_eq_true hselects⟩
  · rintro ⟨context, hmem, hselects⟩
    obtain ⟨application, happlication, hid⟩ :=
      List.mem_map.mp (h.members _ (List.mem_map_of_mem hmem))
    refine ⟨application, happlication, List.ne_nil_of_mem (a := context) ?_⟩
    exact List.mem_filter.mpr ⟨List.mem_filter.mpr ⟨hmem, decide_eq_true hid.symm⟩,
      decide_eq_true hselects⟩

theorem Counts.value_iff_of_empty (h : d.Counts) (hoptions : req.options ≠ 8)
    (hne : d.selection req ≠ []) (hempty : req.apid.isEmpty) :
    d.responseValue req = responseStatus req.options (d.selection req) ↔
      (d.contexts ≠ [] → ∃ context ∈ d.contexts, SelectsContext req context) := by
  rw [value_iff hoptions hne (h.listed_eq_selected (.inl hempty)),
    selectedApplications_of_empty hempty, h.exists_selected, sought_of_empty hempty]
  have hlength : ((d.contexts.length : Nat) : Int) ≠ 0 ↔ d.contexts ≠ [] := by
    rw [Ne, Int.natCast_eq_zero, List.length_eq_zero_iff]
  rw [hlength]
  refine ⟨Iff.mp, fun hmp => ⟨hmp, ?_⟩⟩
  rintro ⟨context, hmem, -⟩
  exact List.ne_nil_of_mem hmem

/-- Where no context is named, none is hidden. -/
theorem hiddenContexts_eq_nil (hall : req.ctid.isEmpty) (application : MctDaemonApplication) :
    d.hiddenContexts req application = [] := by
  refine List.filter_eq_nil_iff.mpr fun context _ => ?_
  simp [SelectsContext, hall]

/-- A request without an application. -/
theorem Counts.passesAgree_of_empty (h : d.Counts) (horder : d.InOrder) (hoptions : req.options ≠ 8)
    (hne : d.selection req ≠ []) (hempty : req.apid.isEmpty)
    (hcounts : ∀ application ∈ d.selectedApplications req,
      (d.selectedContexts req application).length < 65536) :
    d.PassesAgree req ↔ (responseBytes req.options (d.selection req)).length < 2147483648 ∧
      (¬ req.ctid.isEmpty → d.NoHiddenContexts req) := by
  rw [selectedApplications_of_empty hempty] at hcounts
  have hcontexts := h.shownContexts_iff_of_empty horder hempty hcounts
  have hvalue := h.value_iff_of_empty hoptions hne hempty
  have hsize := h.responseSize_hidden hempty
  unfold PassesAgree
  rw [hcontexts, hvalue, hsize, int32_add_eq_iff]
  by_cases hall : req.ctid.isEmpty
  · have hhidden := hiddenContexts_eq_nil (d := d) hall
    have hzero : (d.applications.map fun application =>
        ((d.hiddenContexts req application).map (contextSize req.options)).sum).sum = 0 := by
      refine List.sum_eq_zero fun n hn => ?_
      obtain ⟨application, -, rfl⟩ := List.mem_map.mp hn
      rw [hhidden]
      rfl
    rw [hzero]
    constructor
    · rintro ⟨-, -, hsize, -⟩
      exact ⟨hsize, fun hone => absurd hall hone⟩
    · rintro ⟨hsize, -⟩
      refine ⟨fun application _ => ⟨?_, fun _ _ => .inl hall⟩, fun hsome => ?_, hsize, dvd_zero _⟩
      · rw [hhidden]
        exact dvd_zero _
      · obtain ⟨context, hmem⟩ := List.exists_mem_of_ne_nil _ hsome
        exact ⟨context, hmem, .inl hall⟩
  · have hpasses : ∀ context, PassesFilter req context ↔ context.ctid = req.ctid :=
      fun context => or_iff_right hall
    simp only [hpasses]
    constructor
    · rintro ⟨happlications, hstatus, hsize, hdvd⟩
      exact ⟨hsize, fun _ => ⟨hstatus, fun application hmem => (happlications application hmem).1,
        fun application hmem => (happlications application hmem).2, hdvd⟩⟩
    · rintro ⟨hsize, hhidden⟩
      obtain ⟨hstatus, hnumbers, hfirst, hdvd⟩ := hhidden hall
      exact ⟨fun application hmem => ⟨hnumbers application hmem, hfirst application hmem⟩, hstatus,
        hsize, hdvd⟩

variable {k : Nat} {application : MctDaemonApplication}

/-- The size of a response for one application. -/
theorem responseBytes_length_of_one (hselected : d.selectedApplications req = [application]) :
    (responseBytes req.options (d.selection req)).length =
      11 + applicationSize req.options application +
        ((d.selectedContexts req application).map (contextSize req.options)).sum := by
  rw [responseBytes_selection_length, hselected, List.map_singleton, List.sum_singleton]
  omega

/-- The parts of the condition for one application. -/
theorem passesAgree_of_one (hoptions : req.options ≠ 8) (hne : d.selection req ≠ [])
    (hlisted : d.listedApplications req = [(application, k)])
    (hselected : d.selectedApplications req = [application]) :
    d.PassesAgree req ↔
      (d.shownContexts req k application = d.selectedContexts req application ∧
        d.countConIds req application = (d.selectedContexts req application).length) ∧
      ((d.sought req).numContexts ≠ 0 ↔ d.selectedContexts req application ≠ []) ∧
      int32 (d.responseSize req) = (responseBytes req.options (d.selection req)).length := by
  have hfst : (d.listedApplications req).map Prod.fst = d.selectedApplications req := by
    rw [hlisted, hselected]
    rfl
  unfold PassesAgree
  rw [value_iff hoptions hne hfst, hlisted, hselected]
  simp only [List.mem_singleton, forall_eq, exists_eq_left]

/-- A request for all contexts of an application. -/
theorem Counts.passesAgree_of_found (h : d.Counts) (hoptions : req.options ≠ 8)
    (hne : d.selection req ≠ []) (hnamed : ¬ req.apid.isEmpty) (hall : req.ctid.isEmpty)
    (hfind : d.applicationFind req.apid = some k) (hk : d.applications[k]? = some application)
    (hcount : (d.selectedContexts req application).length < 65536) :
    d.PassesAgree req ↔ (responseBytes req.options (d.selection req)).length < 2147483648 := by
  have hlisted := listedApplications_of_found hnamed hfind hk
  have hselected : (d.listedApplications req).map Prod.fst = d.selectedApplications req :=
    h.listed_eq_selected (.inr (by rw [hfind]; rfl))
  rw [hlisted] at hselected
  have hcontexts : d.selectedContexts req application = d.contextsOf application.apid :=
    List.filter_eq_self.mpr fun _ _ => decide_eq_true (.inl hall)
  have hmem : (application, k) ∈ d.listedApplications req := by
    rw [hlisted]
    exact List.mem_singleton_self _
  obtain ⟨hnumber, hshown⟩ := h.shownContexts_eq hmem (.inr hall)
  dsimp only at hnumber hshown
  have hsize := responseBytes_length_of_one hselected.symm
  rw [hcontexts] at hcount hsize
  rw [passesAgree_of_one hoptions hne hlisted hselected.symm, hcontexts, hshown, hnumber,
    Nat.mod_eq_of_lt hcount, List.take_length, h.responseSize_of_found hnamed hall hfind hk,
    ← hsize, sought_of_found hnamed hall hfind hk, h.numContexts_eq hk]
  have hint := int32_add_eq_iff (responseBytes req.options (d.selection req)).length 0
  rw [Nat.add_zero] at hint
  rw [hint]
  constructor
  · rintro ⟨-, -, hlt, -⟩
    exact hlt
  · intro hlt
    refine ⟨⟨List.filter_eq_self.mpr fun _ _ => decide_eq_true (.inl hall), rfl⟩, ?_, hlt,
      dvd_zero _⟩
    rw [Ne, Int.natCast_eq_zero, List.length_eq_zero_iff]

/-- A context that the search for it leads to. -/
theorem Counts.passesAgree_of_context_found (h : d.Counts) (hoptions : req.options ≠ 8)
    (hne : d.selection req ≠ []) (hnamed : ¬ req.apid.isEmpty) (hone : ¬ req.ctid.isEmpty)
    (hfind : d.applicationFind req.apid = some k) (hk : d.applications[k]? = some application)
    {j : Nat} (hj : d.contextFind req.apid req.ctid = some j) :
    d.PassesAgree req ↔ (responseBytes req.options (d.selection req)).length < 2147483648 ∧
      req.ctid.Canonical := by
  have hlisted := listedApplications_of_found hnamed hfind hk
  have hselected : (d.listedApplications req).map Prod.fst = d.selectedApplications req :=
    h.listed_eq_selected (.inr (by rw [hfind]; rfl))
  rw [hlisted] at hselected
  have hapid : application.apid = setId req.apid.chars := by
    obtain ⟨other, hother, hid⟩ := applicationFind_sound hfind
    rw [hk] at hother
    cases hother
    exact hid
  obtain ⟨context, hcontext, hids⟩ := contextFind_sound hj
  have hcontexts := h.selectedContexts_of_find hone hapid hcontext hids
  have hsought := sought_of_context hnamed hone hfind
  have hsome : (d.contextFind req.apid req.ctid).isSome := by
    rw [hj]
    rfl
  rw [if_pos hsome] at hsought
  have hcount : d.countConIds req application = 1 := by
    unfold countConIds
    rw [if_pos hnamed, hsought]
    rfl
  have hshown : d.shownContexts req k application =
      [context].filter fun context => PassesFilter req context := by
    unfold shownContexts listedContexts
    rw [if_pos ⟨hcount, hnamed, hone⟩, hsought]
    dsimp only
    rw [hj, Option.bind_some, hcontext]
    rfl
  have hcanonical : [context].filter (fun context => PassesFilter req context) = [context] ↔
      req.ctid.Canonical := by
    rw [List.filter_eq_self]
    simp only [List.mem_singleton, forall_eq, decide_eq_true_eq, PassesFilter, hids.2]
    exact or_iff_right hone
  have hsize := responseBytes_length_of_one hselected.symm
  have hfirst := responseSize_of_context hnamed hone hfind hk [context]
    (by rw [hj, Option.bind_some, hcontext]; rfl) (by rw [if_pos hsome]; rfl)
  rw [hcontexts] at hsize
  rw [← hsize] at hfirst
  rw [passesAgree_of_one hoptions hne hlisted hselected.symm, hcontexts, hshown, hcount, hsought,
    hcanonical, hfirst]
  have hint := int32_add_eq_iff (responseBytes req.options (d.selection req)).length 0
  rw [Nat.add_zero] at hint
  rw [hint]
  constructor
  · rintro ⟨⟨hid, -⟩, -, hlt, -⟩
    exact ⟨hlt, hid⟩
  · rintro ⟨hlt, hid⟩
    exact ⟨⟨hid, rfl⟩, iff_of_true one_ne_zero (List.cons_ne_nil _ _), hlt, dvd_zero _⟩

/-- A context that the search for it does not lead to. -/
theorem Counts.passesAgree_of_context_missed (h : d.Counts) (hoptions : req.options ≠ 8)
    (hne : d.selection req ≠ []) (hnamed : ¬ req.apid.isEmpty) (hone : ¬ req.ctid.isEmpty)
    (hfind : d.applicationFind req.apid = some k) (hk : d.applications[k]? = some application)
    (hnone : d.contextFind req.apid req.ctid = none) :
    d.PassesAgree req ↔ (responseBytes req.options (d.selection req)).length < 2147483648 ∧
      d.selectedContexts req application = [] := by
  have hlisted := listedApplications_of_found hnamed hfind hk
  have hselected : (d.listedApplications req).map Prod.fst = d.selectedApplications req :=
    h.listed_eq_selected (.inr (by rw [hfind]; rfl))
  rw [hlisted] at hselected
  have hsought := sought_of_context hnamed hone hfind
  have hsome : ¬ (d.contextFind req.apid req.ctid).isSome := by
    rw [hnone]
    exact Bool.false_ne_true
  rw [if_neg hsome] at hsought
  have hcount : d.countConIds req application = 0 := by
    unfold countConIds
    rw [if_pos hnamed, hsought]
    rfl
  have hshown : d.shownContexts req k application = [] := by
    unfold shownContexts listedContexts contextsFrom
    rw [hcount, if_neg (fun hboth => absurd hboth.1 (by decide)), List.take_zero]
    rfl
  have hsize := responseBytes_length_of_one hselected.symm
  have hfirst := responseSize_of_context hnamed hone hfind hk []
    (by rw [hnone]; rfl) (by rw [if_neg hsome]; rfl)
  rw [passesAgree_of_one hoptions hne hlisted hselected.symm, hshown, hcount, hsought]
  have hint := int32_add_eq_iff (responseBytes req.options (d.selection req)).length 0
  rw [Nat.add_zero] at hint
  constructor
  · rintro ⟨⟨hnil, -⟩, -, hlt⟩
    rw [← hnil] at hsize
    rw [hfirst, ← hsize, hint] at hlt
    exact ⟨hlt.1, hnil.symm⟩
  · rintro ⟨hlt, hnil⟩
    rw [hnil] at hsize ⊢
    rw [hfirst, ← hsize, hint]
    exact ⟨⟨rfl, rfl⟩, iff_of_false (not_not_intro rfl) (not_not_intro rfl), hlt, dvd_zero _⟩

/-- A request for one context of an application. -/
theorem Counts.passesAgree_of_context (h : d.Counts) (hoptions : req.options ≠ 8)
    (hne : d.selection req ≠ []) (hnamed : ¬ req.apid.isEmpty) (hone : ¬ req.ctid.isEmpty)
    (hfind : d.applicationFind req.apid = some k) (hk : d.applications[k]? = some application) :
    d.PassesAgree req ↔ (responseBytes req.options (d.selection req)).length < 2147483648 ∧
      (toLex (setId req.apid.chars, setId req.ctid.chars) ∈ d.contextKeys →
        NotAbove d.contextApids req.apid ∧ req.ctid.Canonical) := by
  have hapid : application.apid = setId req.apid.chars := by
    obtain ⟨other, hother, hid⟩ := applicationFind_sound hfind
    rw [hk] at hother
    cases hother
    exact hid
  cases hcontext : d.contextFind req.apid req.ctid with
  | some j =>
      rw [h.passesAgree_of_context_found hoptions hne hnamed hone hfind hk hcontext]
      obtain ⟨context, hj, hids⟩ := contextFind_sound hcontext
      have hkey : toLex (setId req.apid.chars, setId req.ctid.chars) ∈ d.contextKeys := by
        rw [← hids.1, ← hids.2]
        exact List.mem_map_of_mem (List.mem_of_getElem? hj)
      have habove : NotAbove d.contextApids req.apid := by
        unfold contextFind at hcontext
        split at hcontext
        · cases hcontext
        · split at hcontext
          · next hrange => exact notAbove_of_withinRange hrange
          · cases hcontext
      exact and_congr_right fun _ =>
        ⟨fun hcanonical _ => ⟨habove, hcanonical⟩, fun hkeyed => (hkeyed hkey).2⟩
  | none =>
      rw [h.passesAgree_of_context_missed hoptions hne hnamed hone hfind hk hcontext]
      refine and_congr_right fun _ => ?_
      constructor
      · intro hnil hkey
        obtain ⟨context, hmem, hids⟩ := List.mem_map.mp hkey
        have hpair : context.apid = setId req.apid.chars ∧ context.ctid = setId req.ctid.chars := by
          simpa [MctDaemonContext.key] using hids
        have hin : context ∈ d.selectedContexts req application :=
          List.mem_filter.mpr ⟨List.mem_filter.mpr ⟨hmem,
            decide_eq_true (hpair.1.trans hapid.symm)⟩, decide_eq_true (.inr hpair.2)⟩
        rw [hnil] at hin
        cases hin
      · intro hkeyed
        refine List.eq_nil_iff_forall_not_mem.mpr fun context hmem => ?_
        obtain ⟨hof, hselects⟩ := List.mem_filter.mp hmem
        obtain ⟨hstored, hid⟩ := List.mem_filter.mp hof
        have hkey : toLex (setId req.apid.chars, setId req.ctid.chars) ∈ d.contextKeys := by
          rw [← hapid, ← of_decide_eq_true hid, ← (of_decide_eq_true hselects).resolve_left hone]
          exact List.mem_map_of_mem hstored
        have hsome := (h.tables.contextFind_isSome fun hin => (hkeyed hin).1).mpr hkey
        rw [hcontext] at hsome
        cases hsome

end Cases

section Exact

variable {d : MctDaemonUsers} {req : GetLogInfoRequest}

/-- A request that selects nothing meets the condition. -/
theorem Counts.answerable_of_nil (h : d.Counts) (hnil : d.selection req = []) :
    d.Answerable req := by
  have hselected : d.selectedApplications req = [] := List.map_eq_nil_iff.mp hnil
  have hmissing : setId req.apid.chars ∉ d.apids := by
    intro hmem
    obtain ⟨application, happlication, hid⟩ := List.mem_map.mp hmem
    have hin : application ∈ d.selectedApplications req :=
      List.mem_filter.mpr ⟨happlication, decide_eq_true (.inr hid)⟩
    rw [hselected] at hin
    cases hin
  refine ⟨fun hmem => absurd hmem hmissing, fun _ _ hkey => ?_, by rw [hselected]; decide, ?_, ?_,
    ?_, fun hempty _ => ?_⟩
  · obtain ⟨context, hcontext, hids⟩ := List.mem_map.mp hkey
    have hid : context.apid = setId req.apid.chars := by
      have hpair : context.apid = setId req.apid.chars ∧ context.ctid = setId req.ctid.chars := by
        simpa [MctDaemonContext.key] using hids
      exact hpair.1
    exact absurd (hid ▸ h.members _ (List.mem_map_of_mem hcontext)) hmissing
  · rw [hselected]
    exact fun _ hmem => absurd hmem List.not_mem_nil
  · intro _
    rw [hselected]
    exact fun _ hmem => absurd hmem List.not_mem_nil
  · rw [responseBytes_selection_length, hselected, List.map_nil, List.sum_nil]
    decide
  · have happlications : d.applications = [] := by
      rw [← selectedApplications_of_empty hempty, hselected]
    have hcontexts : d.contexts = [] := by
      refine List.eq_nil_iff_forall_not_mem.mpr fun context hmem => ?_
      have hmember := h.members _ (List.mem_map_of_mem hmem)
      rw [apids, happlications] at hmember
      cases hmember
    refine ⟨fun hne => absurd hcontexts hne, ?_, ?_, ?_⟩
    · rw [happlications]
      exact fun _ hmem => absurd hmem List.not_mem_nil
    · rw [happlications]
      exact fun _ hmem => absurd hmem List.not_mem_nil
    · rw [happlications]
      exact dvd_zero _

/-- The passes agree if and only if the condition is met. -/
theorem Counts.agrees_iff_answerable (h : d.Counts) (horder : d.InOrder)
    (hoptions : req.options ≠ 8) (hne : d.selection req ≠ []) :
    d.Agrees req ↔ d.Answerable req := by
  have hselected : d.selectedApplications req ≠ [] :=
    fun hnil => hne (List.map_eq_nil_iff.mpr hnil)
  have hreaches := h.found_iff_reaches hselected
  have hfound : (d.listedApplications req).map Prod.fst = d.selectedApplications req ↔
      d.Reaches req.apid := by
    rw [← hreaches]
    refine ⟨fun hlisted => ?_, h.listed_eq_selected⟩
    by_cases hempty : req.apid.isEmpty
    · exact .inl hempty
    · refine .inr (Option.isSome_iff_ne_none.mpr fun hnone => hselected ?_)
      rw [← hlisted, listedApplications_of_none hempty hnone]
      rfl
  have hpasses : d.Reaches req.apid → (∀ application ∈ d.selectedApplications req,
      (d.selectedContexts req application).length < 65536) →
      (d.PassesAgree req ↔ (responseBytes req.options (d.selection req)).length < 2147483648 ∧
        (req.apid.isEmpty → ¬ req.ctid.isEmpty → d.NoHiddenContexts req) ∧
        (¬ req.apid.isEmpty → ¬ req.ctid.isEmpty →
          toLex (setId req.apid.chars, setId req.ctid.chars) ∈ d.contextKeys →
            NotAbove d.contextApids req.apid ∧ req.ctid.Canonical)) := by
    intro hreach hcounts
    by_cases hempty : req.apid.isEmpty
    · rw [h.passesAgree_of_empty horder hoptions hne hempty hcounts]
      exact and_congr_right fun _ =>
        ⟨fun hhidden => ⟨fun _ => hhidden, fun hnamed => absurd hempty hnamed⟩,
          fun hboth => hboth.1 hempty⟩
    · obtain ⟨k, hfind⟩ := Option.isSome_iff_exists.mp
        ((hreaches.mpr hreach).resolve_left hempty)
      obtain ⟨application, hk, -⟩ := applicationFind_sound hfind
      have hlisted := listedApplications_of_found hempty hfind hk
      have hone := hfound.mpr hreach
      rw [hlisted] at hone
      by_cases hall : req.ctid.isEmpty
      · have hcount := hcounts application (hone ▸ List.mem_singleton_self _)
        rw [h.passesAgree_of_found hoptions hne hempty hall hfind hk hcount]
        exact ⟨fun hlt => ⟨hlt, fun hnone => absurd hnone hempty, fun _ hctid => absurd hall hctid⟩,
          And.left⟩
      · rw [h.passesAgree_of_context hoptions hne hempty hall hfind hk]
        exact and_congr_right fun _ =>
          ⟨fun hkeyed => ⟨fun hnone => absurd hnone hempty, fun _ _ => hkeyed⟩,
            fun hboth => hboth.2 hempty hall⟩
  constructor
  · rintro ⟨hlisted, hlength, hcontexts, hvalue, hfits, hdatasize⟩
    have hreach := hfound.mp hlisted
    obtain ⟨hcounts, hdescriptions⟩ := fits_iff.mp hfits
    obtain ⟨hsize, hhidden, hkeyed⟩ :=
      (hpasses hreach hcounts).mp ⟨hcontexts, hvalue, hdatasize⟩
    exact ⟨hreach, hkeyed, hlength, hcounts, hdescriptions, hsize, hhidden⟩
  · rintro ⟨hreach, hkeyed, hlength, hcounts, hdescriptions, hsize, hhidden⟩
    obtain ⟨hcontexts, hvalue, hdatasize⟩ :=
      (hpasses hreach hcounts).mpr ⟨hsize, hhidden, hkeyed⟩
    exact ⟨hfound.mpr hreach, hlength, hcontexts, hvalue, fits_iff.mpr ⟨hcounts, hdescriptions⟩,
      hdatasize⟩

end Exact

end MctDaemonUsers

/-- A GET_LOG_INFO response is exact if and only if the request reaches what it
names, the numbers and lengths fit, and no context is filtered out that has
been counted. -/
theorem log_info_exact (d : MctDaemonUsers) (hcounts : d.Counts) (horder : d.InOrder)
    (req : GetLogInfoRequest) (hoptions : 3 ≤ req.options ∧ req.options ≤ 7) :
    d.ExactLogInfo req ↔ d.Answerable req := by
  have hrange : ¬ (req.options < 3 ∨ req.options > 7) := by
    rintro (hlow | hhigh)
    · exact absurd hlow (UInt8.not_lt.mpr hoptions.1)
    · exact absurd hhigh (UInt8.not_lt.mpr hoptions.2)
  have height : req.options ≠ 8 := by
    intro hoption
    rw [hoption] at hoptions
    exact absurd hoptions.2 (by decide)
  by_cases hnil : d.selection req = []
  · exact iff_of_true (hcounts.exact_of_nil hrange hnil) (hcounts.answerable_of_nil hnil)
  · rw [hcounts.exact_iff_agrees horder hrange hnil]
    exact hcounts.agrees_iff_answerable horder height hnil

/-- The application LOG with the contexts INTM and TEST, and the application
SYS with none. -/
def tablesOfTwo : MctDaemonUsers where
  ownEcu := true
  applications :=
    [{ MctDaemonApplication.fresh (setId ['L', 'O', 'G', '\x00']) with
        numContexts := 2
        applicationDescription := some ['l', 'o', 'g'] },
      MctDaemonApplication.fresh (setId ['S', 'Y', 'S', '\x00'])]
  contexts :=
    [{ MctDaemonContext.fresh (setId ['L', 'O', 'G', '\x00']) (setId ['I', 'N', 'T', 'M']) with
        logLevel := -1, traceStatus := 1 },
      { MctDaemonContext.fresh (setId ['L', 'O', 'G', '\x00']) (setId ['T', 'E', 'S', 'T']) with
        logLevel := 4, contextDescription := some ['t', 'e', 's', 't'] }]
  defaultLogLevel := 4
  defaultTraceStatus := 0
  forceLlTs := false
  runtimeContextCfgLoaded := false
  blockMode := 0

theorem tablesOfTwo_counts : tablesOfTwo.Counts :=
  ⟨⟨by decide, by decide, ⟨by decide, by decide, by decide⟩, ⟨by decide, by decide, by decide⟩,
    by decide⟩, rfl, by decide, by decide⟩

theorem tablesOfTwo_inOrder : tablesOfTwo.InOrder := ⟨by decide, by decide, by decide⟩

theorem log_info_exact_sample :
    (3 ≤ (7 : UInt8) ∧ (7 : UInt8) ≤ 7) ∧
      tablesOfTwo.ExactLogInfo ⟨7, ⟨['L', 'O', 'G', '\x00'], rfl⟩, ⟨['T', 'E', 'S', 'T'], rfl⟩⟩ :=
  ⟨by decide, (log_info_exact tablesOfTwo tablesOfTwo_counts tablesOfTwo_inOrder
    ⟨7, ⟨['L', 'O', 'G', '\x00'], rfl⟩, ⟨['T', 'E', 'S', 'T'], rfl⟩⟩ (by decide)).mpr
    ⟨fun _ => .inl (by decide), fun _ _ _ => ⟨.inl (by decide), by decide⟩, by decide, by decide,
      by unfold MctDaemonUsers.ShortDescriptions; decide, by decide,
      fun hempty => absurd hempty (by decide)⟩⟩

/-- The context TEST of any application: the number of the contexts of LOG is
2, and one entry follows. -/
theorem log_info_counts_filtered :
    tablesOfTwo.Counts ∧ tablesOfTwo.InOrder ∧
      ¬ tablesOfTwo.ExactLogInfo ⟨7, setId [], ⟨['T', 'E', 'S', 'T'], rfl⟩⟩ := by
  refine ⟨tablesOfTwo_counts, tablesOfTwo_inOrder, ?_⟩
  rintro ⟨reply, hreply, -, hdecode⟩
  have hwrong : (tablesOfTwo.controlGetLogInfo
      ⟨7, setId [], ⟨['T', 'E', 'S', 'T'], rfl⟩⟩).all (fun reply =>
        decodeResponse 7 reply.payload ≠
          some (responseStatus 7 (tablesOfTwo.selection
              ⟨7, setId [], ⟨['T', 'E', 'S', 'T'], rfl⟩⟩),
            (tablesOfTwo.selection ⟨7, setId [], ⟨['T', 'E', 'S', 'T'], rfl⟩⟩).map
              (ApplicationInfo.shown 7))) = true := by
    decide +kernel
  rw [hreply] at hwrong
  exact of_decide_eq_true hwrong (hdecode (by decide))

end MctDaemon.Daemon
