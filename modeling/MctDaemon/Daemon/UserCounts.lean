import MctDaemon.Daemon.UserMessages
import MctDaemon.Daemon.UserTables

/-!
The number of contexts that each application stores, and the part of the table
of contexts that is found through these numbers. Both hold as long as no
application is deleted by a failed block mode message while it has contexts.
-/

namespace MctDaemon.Daemon

open Lib Shared

namespace MctDaemonUsers

/-- Every context belongs to an application, and the applications count them. -/
structure Counts (d : MctDaemonUsers) : Prop where
  tables : d.Tables
  ownEcu : d.ownEcu = true
  members : ∀ apid ∈ d.contextApids, apid ∈ d.apids
  counts : ∀ entry ∈ d.countEntries, entry.2 = d.contextApids.count entry.1

variable {d : MctDaemonUsers}

theorem Counts.of_sameEntries (h : d.Counts) {d' : MctDaemonUsers} (hsame : SameEntries d d') :
    d'.Counts := by
  have hkeys := hsame.sameKeys
  have hcontextApids : d'.contextApids = d.contextApids := by
    rw [contextApids_eq_map_keys, hsame.contextKeys, ← contextApids_eq_map_keys]
  refine ⟨h.tables.of_sameKeys hkeys, hsame.ownEcu.trans h.ownEcu, ?_, ?_⟩
  · rw [hcontextApids, hkeys.1]
    exact h.members
  · rw [hcontextApids, hsame.countEntries]
    exact h.counts

/-- An application of the table is found at its position. -/
theorem Tables.applicationFind_eq (h : d.Tables) {i : Nat} {application : MctDaemonApplication}
    (hi : d.applications[i]? = some application) :
    d.applicationFind application.apid = some i := by
  have hmem : application.apid ∈ d.apids := List.mem_map_of_mem (List.mem_of_getElem? hi)
  have hcanonical := h.apids.canonical _ hmem
  have hfind := @Tables.applicationFind_isSome _ h application.apid fun _ => .inl hcanonical
  rw [hcanonical] at hfind
  obtain ⟨j, hj⟩ := Option.isSome_iff_exists.mp (hfind.mpr hmem)
  obtain ⟨other, hother, hapid⟩ := applicationFind_sound hj
  rw [hj, h.applications.position hother hi (hapid.trans hcanonical)]

/-- One application's number and the contexts under its identifier change by
the same amount. -/
theorem Counts.recount (h : d.Counts) {d' : MctDaemonUsers} (htables : d'.Tables)
    (hown : d'.ownEcu = d.ownEcu) {i : Nat} {application : MctDaemonApplication}
    (hi : d.applications[i]? = some application) (amount : Int)
    {f : MctDaemonApplication → MctDaemonApplication}
    (happlications : d'.applications = d.applications.modify i f)
    (hf : ∀ application, (f application).apid = application.apid ∧
      (f application).numContexts = application.numContexts + amount)
    (hcount : ∀ apid, (d'.contextApids.count apid : Int) =
      d.contextApids.count apid + if apid = application.apid then amount else 0)
    (hmembers : ∀ apid ∈ d'.contextApids, apid ∈ d.apids) : d'.Counts := by
  have hapids : d'.apids = d.apids := by
    rw [apids, happlications]
    exact map_modify_of_keep (fun application => (hf application).1) _ _
  refine ⟨htables, hown.trans h.ownEcu, ?_, ?_⟩
  · rw [hapids]
    exact hmembers
  · intro entry hentry
    rw [countEntries, happlications] at hentry
    obtain ⟨changed, hchanged, rfl⟩ := List.mem_map.mp hentry
    obtain ⟨j, hj⟩ := List.mem_iff_getElem?.mp hchanged
    rw [List.getElem?_modify, Option.map_eq_map, Option.map_eq_some_iff] at hj
    obtain ⟨old, hold, rfl⟩ := hj
    have hcounted : old.numContexts = d.contextApids.count old.apid :=
      h.counts (old.apid, old.numContexts) (List.mem_map_of_mem (List.mem_of_getElem? hold))
    by_cases hij : i = j
    · have hsame : old = application := by
        rw [← hij, hi] at hold
        exact (Option.some.inj hold).symm
      subst hsame
      simp only [if_pos hij, (hf old).1, (hf old).2, hcount, if_true]
      omega
    · have hne : old.apid ≠ application.apid := by
        intro hsame
        exact hij (h.tables.applications.position hi hold hsame.symm)
      simp only [if_neg hij, hcount, if_neg hne]
      omega

section Register

theorem ID4.Canonical.notAbove {apid : ID4} (h : apid.Canonical) (apids : List ID4) :
    NotAbove apids apid := .inl h

theorem countEntries_sortApplications_perm (d : MctDaemonUsers) :
    d.sortApplications.countEntries.Perm d.countEntries := (sortByKey_perm _ _).map _

/-- A new application has no contexts. -/
theorem Counts.applicationAdd (h : d.Counts) (ipc : MctIpc) {apid : ID4} (hapid : apid.Canonical)
    (pid : Int) (description : Option (List Char)) (fd opened : Int) :
    (d.applicationAdd ipc apid pid description fd opened).2.Counts := by
  by_cases hempty : apid.isEmpty
  · unfold MctDaemonUsers.applicationAdd
    rw [if_pos hempty]
    exact h
  · obtain ⟨_, htables, hkeys, hmem⟩ := h.tables.applicationAdd ipc hempty
      (ID4.Canonical.notAbove hapid d.apids) pid description fd opened
    have hfind := @Tables.applicationFind_isSome _ h.tables apid fun _ => .inl hapid
    have hcontextApids : (d.applicationAdd ipc apid pid description fd opened).2.contextApids =
        d.contextApids := by
      rw [contextApids_eq_map_keys, hkeys, ← contextApids_eq_map_keys]
    unfold MctDaemonUsers.applicationAdd at htables hmem hcontextApids ⊢
    rw [if_neg hempty] at htables hmem hcontextApids ⊢
    cases hfound : d.applicationFind apid with
    | some i =>
        exact h.of_sameEntries (sameEntries_storeApplication ipc i pid description fd opened)
    | none =>
        rw [hapid] at hfind
        have hnot : apid ∉ d.apids := by
          rw [← hfind, hfound]
          exact Bool.false_ne_true
        simp only [hfound] at htables hmem hcontextApids
        have hstored := sameEntries_storeApplication
          (d := d.appendApplication (setId apid.chars)) ipc d.applications.length pid description
          fd opened
        refine ⟨htables, hstored.ownEcu.trans h.ownEcu, ?_, ?_⟩
        · intro other hother
          rw [hcontextApids] at hother
          exact (hmem other).mpr (.inr (h.members other hother))
        · intro entry hentry
          have hentry := (countEntries_sortApplications_perm _).mem_iff.mp hentry
          rw [hstored.countEntries, countEntries, appendApplication, List.map_append,
            List.mem_append, List.map_singleton, List.mem_singleton] at hentry
          rw [hcontextApids]
          rcases hentry with hold | rfl
          · exact h.counts entry hold
          · have hzero : d.contextApids.count apid = 0 :=
              List.count_eq_zero_of_not_mem fun hmem => hnot (h.members apid hmem)
            rw [hapid]
            simp only [MctDaemonApplication.fresh, hzero, Nat.cast_zero]

theorem sameEntries_modifyContext (k : Nat) {f : MctDaemonContext → MctDaemonContext}
    (hf : ∀ context, (f context).key = context.key) : SameEntries d (d.modifyContext k f) :=
  ⟨rfl, rfl, map_modify_of_keep hf _ _⟩

theorem sameEntries_userSendLogState (i : Nat) (write : SendResult) :
    SameEntries d (d.userSendLogState i write) := by
  unfold userSendLogState
  split
  · exact .refl d
  · simp only
    split
    · exact sameEntries_applicationResetUserHandle i
    · exact .refl d

theorem sameEntries_userSendLogLevel (k : Nat) (write : SendResult) :
    SameEntries d (d.userSendLogLevel k write).2 := by
  unfold userSendLogLevel
  split
  · exact .refl d
  · simp only
    split
    · exact .refl d
    · split
      · split
        · exact .refl d
        · exact sameEntries_applicationResetUserHandle _
      · exact .refl d

theorem perm_contextApids_insertContext (context : MctDaemonContext) :
    (d.insertContext context).contextApids.Perm (d.contextApids ++ [context.apid]) := by
  have hmap := (sortByKey_perm MctDaemonContext.key (d.contexts ++ [context])).map
    MctDaemonContext.apid
  rwa [List.map_append] at hmap

theorem count_contextApids_insertContext (context : MctDaemonContext) (apid : ID4) :
    (d.insertContext context).contextApids.count apid =
      d.contextApids.count apid + if apid = context.apid then 1 else 0 := by
  rw [(perm_contextApids_insertContext context).count_eq, List.count_append]
  by_cases hapid : apid = context.apid
  · rw [if_pos hapid, hapid, List.count_singleton_self]
  · have hzero : [context.apid].count apid = 0 :=
      List.count_eq_zero_of_not_mem (by simpa using hapid)
    rw [if_neg hapid, hzero]

/-- A new context is counted by its application. -/
theorem Counts.contextAdd (h : d.Counts) {apid : ID4} (hapid : apid.Canonical) (ctid : ID4)
    (logLevel traceStatus logLevelPos userHandle : Int) (description : Option (List Char)) :
    (d.contextAdd apid ctid logLevel traceStatus logLevelPos userHandle description).2.Counts := by
  have htables := (@Tables.contextAdd _ h.tables apid (fun _ => ⟨.inl hapid, .inl hapid⟩) ctid
    logLevel traceStatus logLevelPos userHandle description).1
  unfold MctDaemonUsers.contextAdd at htables ⊢
  by_cases hempty : (apid.isEmpty || ctid.isEmpty) = true
  · rw [if_pos hempty]
    exact h
  by_cases hlevel : logLevel < mctLogDefault ∨ mctLogVerbose < logLevel
  · rw [if_neg hempty, if_pos hlevel]
    exact h
  by_cases htrace : traceStatus < mctTraceStatusDefault ∨ mctTraceStatusOn < traceStatus
  · rw [if_neg hempty, if_neg hlevel, if_pos htrace]
    exact h
  rw [if_neg hempty, if_neg hlevel, if_neg htrace] at htables ⊢
  cases happlication : d.applicationFind apid with
  | none => exact h
  | some i =>
      simp only [happlication] at htables ⊢
      cases hcontext : d.contextFind apid ctid with
      | some k => exact h.of_sameEntries (sameEntries_modifyContext k fun _ => rfl)
      | none =>
          simp only [hcontext] at htables ⊢
          obtain ⟨application, hi, hid⟩ := applicationFind_sound happlication
          have hmem : setId apid.chars ∈ d.apids := by
            rw [← hid]
            exact List.mem_map_of_mem (List.mem_of_getElem? hi)
          refine h.recount htables rfl hi 1 rfl (fun _ => ⟨rfl, rfl⟩) ?_ ?_
          · intro other
            rw [count_contextApids_insertContext, hid]
            push_cast
            rfl
          · intro other hother
            have hmem' := (perm_contextApids_insertContext _).mem_iff.mp hother
            rcases List.mem_append.mp hmem' with hold | hnew
            · exact h.members other hold
            · rw [List.mem_singleton.mp hnew]
              exact hmem

theorem Counts.registerContext (h : d.Counts) {apid : ID4} (hapid : apid.Canonical) (ctid : ID4)
    (logLevel traceStatus logLevelPos : Int) (description : List Char) (storageLogLevel : Int)
    (write : SendResult) :
    (d.registerContext apid ctid logLevel traceStatus logLevelPos description storageLogLevel
      write).2.Counts := by
  unfold MctDaemonUsers.registerContext
  split
  · exact h
  · split
    · exact h
    · next application _ =>
        simp only
        generalize (if logLevel = mctUserLogLevelNotSet then mctLogDefault else logLevel) = level
        generalize (if traceStatus = mctUserTraceStatusNotSet then mctTraceStatusDefault
          else traceStatus) = status
        have hadd := h.contextAdd hapid ctid level status logLevelPos application.userHandle
          (some description)
        split
        · exact h
        · split
          · exact h
          · unfold addContextOf
            simp only
            split
            · exact hadd
            · next k _ =>
                have hstored := hadd.of_sameEntries (sameEntries_modifyContext k
                  (f := fun context => { context with storageLogLevel := storageLogLevel })
                  fun _ => rfl)
                split
                · exact hstored.of_sameEntries (sameEntries_userSendLogLevel k write)
                · exact hstored

end Register

section Delete

theorem contextDel_contexts {pos : Nat} {context : MctDaemonContext}
    (hpos : d.contexts[pos]? = some context) :
    (d.contextDel pos).contexts = d.contexts.eraseIdx pos := by
  simp only [MctDaemonUsers.contextDel, hpos]
  split <;> rfl

theorem count_eraseIdx {apids : List ID4} {pos : Nat} {apid : ID4} (hpos : apids[pos]? = some apid)
    (other : ID4) :
    (apids.count other : Int) =
      (apids.eraseIdx pos).count other + if other = apid then 1 else 0 := by
  obtain ⟨hlt, rfl⟩ := List.getElem?_eq_some_iff.mp hpos
  rw [← (List.getElem_cons_eraseIdx_perm hlt).count_eq]
  by_cases hother : other = apids[pos]
  · rw [if_pos hother, hother, List.count_cons_self]
    push_cast
    rfl
  · rw [if_neg hother, List.count_cons_of_ne (Ne.symm hother), add_zero]

/-- A deleted context is no longer counted. -/
theorem Counts.contextDel (h : d.Counts) (pos : Nat) : (d.contextDel pos).Counts := by
  cases hpos : d.contexts[pos]? with
  | none =>
      unfold MctDaemonUsers.contextDel
      rw [hpos]
      exact h
  | some context =>
      have htables := (h.tables.contextDel hpos).1
      have hcontextApids : (d.contextDel pos).contextApids = d.contextApids.eraseIdx pos := by
        rw [contextApids, contextDel_contexts hpos, contextApids, List.eraseIdx_map]
      have hapid : d.contextApids[pos]? = some context.apid := by
        rw [contextApids, List.getElem?_map, hpos, Option.map_some]
      obtain ⟨application, happlication, hsame⟩ :=
        List.mem_map.mp (h.members _ (List.mem_of_getElem? hapid))
      obtain ⟨i, hi⟩ := List.mem_iff_getElem?.mp happlication
      have hfind := h.tables.applicationFind_eq hi
      rw [hsame] at hfind
      refine h.recount htables ?_ hi (-1)
        (f := fun application => { application with numContexts := application.numContexts - 1 })
        ?_ (fun _ => ⟨rfl, rfl⟩) ?_ ?_
      · simp only [MctDaemonUsers.contextDel, hpos, hfind]
        rfl
      · simp only [MctDaemonUsers.contextDel, hpos, hfind]
        rfl
      · intro other
        have hcount := count_eraseIdx hapid other
        rw [hcontextApids, hsame]
        split at hcount <;> simp_all
      · intro other hother
        rw [hcontextApids] at hother
        exact h.members other (List.mem_of_mem_eraseIdx hother)

theorem Counts.contextsClear (h : d.Counts) : d.contextsClear.Counts := by
  have hapids : d.contextsClear.apids = d.apids := by
    simp only [apids, MctDaemonUsers.contextsClear, List.map_map]
    rfl
  refine ⟨h.tables.withContexts hapids List.Pairwise.nil ?_, h.ownEcu, ?_, ?_⟩
  · exact fun context hmem => absurd hmem List.not_mem_nil
  · exact fun apid hmem => absurd hmem List.not_mem_nil
  · intro entry hentry
    simp only [countEntries, MctDaemonUsers.contextsClear, List.map_map, List.mem_map] at hentry
    obtain ⟨application, _, rfl⟩ := hentry
    rfl

theorem Counts.unregisterContext (h : d.Counts) (apid ctid : ID4) :
    (d.unregisterContext apid ctid).Counts := by
  unfold MctDaemonUsers.unregisterContext
  split
  · exact h
  · split
    · exact h
    · split
      · exact h
      · exact h.contextDel _

/-- An application without contexts can be deleted. -/
theorem Counts.applicationDel (h : d.Counts) {pos : Nat} {application : MctDaemonApplication}
    (hpos : d.applications[pos]? = some application) (hnone : application.numContexts = 0) :
    (d.applicationDel pos).Counts := by
  obtain ⟨htables, hkeys, hmem⟩ := h.tables.applicationDel hpos
  have hcontextApids : (d.applicationDel pos).contextApids = d.contextApids := by
    rw [contextApids_eq_map_keys, hkeys, ← contextApids_eq_map_keys]
  have hentries : (d.applicationDel pos).countEntries = d.countEntries.eraseIdx pos := by
    have hreset := (sameEntries_applicationResetUserHandle (d := d) pos).countEntries
    rw [← hreset]
    simp only [countEntries, MctDaemonUsers.applicationDel, List.eraseIdx_map]
  have hcounted : application.numContexts = d.contextApids.count application.apid :=
    h.counts (application.apid, application.numContexts)
      (List.mem_map_of_mem (List.mem_of_getElem? hpos))
  have hnot : application.apid ∉ d.contextApids := by
    apply List.count_eq_zero.mp
    omega
  refine ⟨htables, ?_, ?_, ?_⟩
  · exact (sameEntries_applicationResetUserHandle pos).ownEcu.trans h.ownEcu
  · intro apid hapid
    rw [hcontextApids] at hapid
    refine (hmem apid).mpr ⟨h.members apid hapid, ?_⟩
    rintro rfl
    exact hnot hapid
  · intro entry hentry
    rw [hentries] at hentry
    rw [hcontextApids]
    exact h.counts entry (List.mem_of_mem_eraseIdx hentry)

end Delete

section Blockmode

/-- The block mode message to the application at this position, with the
outcome. -/
def blockmodeSendAt (d : MctDaemonUsers) (i : Nat) (blockMode : Int) (write : SendResult) :
    List (MctDaemonApplication × SendResult) :=
  match d.applications[i]? with
  | none => []
  | some application =>
      if application.blockmodeStatus ≠ blockMode then
        [(application, userLogOut2 application.userHandle write)]
      else []

/-- The messages of the loop over these positions. -/
def blockmodeSendsFrom (blockMode : Int) (writes : Nat → SendResult) :
    List Nat → MctDaemonUsers → List (MctDaemonApplication × SendResult)
  | [], _ => []
  | count :: counts, d =>
      d.blockmodeSendAt count blockMode (writes count) ++
        blockmodeSendsFrom blockMode writes counts
          (d.updateBlockmodeAt count blockMode (writes count))

/-- The messages of `mct_daemon_user_update_blockmode`. -/
def blockmodeSends (d : MctDaemonUsers) (name : ID4) (blockMode : Int)
    (writes : Nat → SendResult) : List (MctDaemonApplication × SendResult) :=
  if blockMode < mctModeNonBlocking ∨ mctModeBlocking < blockMode then []
  else if name = mctAllApplications then
    blockmodeSendsFrom blockMode writes (List.range d.applications.length) d
  else
    match d.applicationFind name with
    | none => []
    | some i => d.blockmodeSendAt i blockMode (writes 0)

/-- No message fails with EPIPE that goes to an application with contexts. -/
def Harmless (sends : List (MctDaemonApplication × SendResult)) : Prop :=
  ∀ send ∈ sends, send.2.ok = false → send.2.epipe = true → send.1.numContexts = 0

instance (sends : List (MctDaemonApplication × SendResult)) : Decidable (Harmless sends) :=
  inferInstanceAs (Decidable (∀ send ∈ sends, _))

theorem Counts.updateBlockmodeAt (h : d.Counts) {i : Nat} {blockMode : Int} {write : SendResult}
    (hharmless : Harmless (d.blockmodeSendAt i blockMode write)) :
    (d.updateBlockmodeAt i blockMode write).Counts := by
  unfold blockmodeSendAt at hharmless
  unfold MctDaemonUsers.updateBlockmodeAt
  cases hi : d.applications[i]? with
  | none => exact h
  | some application =>
      simp only [hi] at hharmless ⊢
      by_cases hmode : application.blockmodeStatus ≠ blockMode
      · rw [if_pos hmode] at hharmless ⊢
        have hsend := hharmless _ (List.mem_singleton_self _)
        simp only [userSendUpdateBlockmode, hi]
        cases hok : (userLogOut2 application.userHandle write).ok with
        | true => exact h.of_sameEntries (sameEntries_modifyApplication i fun _ => ⟨rfl, rfl⟩)
        | false =>
            cases hepipe : (userLogOut2 application.userHandle write).epipe with
            | true => exact h.applicationDel hi (hsend hok hepipe)
            | false => exact h
      · rw [if_neg hmode]
        exact h

theorem Counts.updateBlockmodeFold (h : d.Counts) {blockMode : Int} {writes : Nat → SendResult}
    {positions : List Nat}
    (hharmless : Harmless (blockmodeSendsFrom blockMode writes positions d)) :
    (positions.foldl (fun d count =>
      d.updateBlockmodeAt count blockMode (writes count)) d).Counts := by
  induction positions generalizing d with
  | nil => exact h
  | cons count counts ih =>
      simp only [blockmodeSendsFrom] at hharmless
      have hfirst : Harmless (d.blockmodeSendAt count blockMode (writes count)) :=
        fun send hsend => hharmless send (List.mem_append_left _ hsend)
      exact ih (h.updateBlockmodeAt hfirst)
        fun send hsend => hharmless send (List.mem_append_right _ hsend)

/-- A block mode update deletes at most applications without contexts. -/
theorem Counts.userUpdateBlockmode (h : d.Counts) {name : ID4} {blockMode : Int}
    {writes : Nat → SendResult} (hharmless : Harmless (d.blockmodeSends name blockMode writes)) :
    (d.userUpdateBlockmode name blockMode writes).2.Counts := by
  unfold blockmodeSends at hharmless
  unfold MctDaemonUsers.userUpdateBlockmode
  by_cases hmode : blockMode < mctModeNonBlocking ∨ mctModeBlocking < blockMode
  · rw [if_pos hmode]
    exact h
  · rw [if_neg hmode] at hharmless ⊢
    by_cases hall : name = mctAllApplications
    · rw [if_pos hall] at hharmless ⊢
      exact (h.updateBlockmodeFold hharmless).of_sameEntries ⟨rfl, rfl, rfl⟩
    · rw [if_neg hall] at hharmless ⊢
      cases hfound : d.applicationFind name with
      | none => exact h
      | some i =>
          simp only [hfound] at hharmless
          exact h.updateBlockmodeAt hharmless

end Blockmode

end MctDaemonUsers

end MctDaemon.Daemon
