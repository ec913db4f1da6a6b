import MctDaemon.Daemon.UserCounts

/-!
The contexts of one application, found by adding up the stored numbers of the
applications before it. In a daemon whose numbers are right this part of the
table holds exactly the contexts under the identifier, so that unregistering
the application or setting its levels touches these and no others.
-/

namespace MctDaemon.Daemon

open Lib Shared

namespace MctDaemonUsers

variable {d : MctDaemonUsers}

section Slice

/-- The contexts that come before those of an application, its own, and the
rest. -/
def contextsBefore (d : MctDaemonUsers) (apid : ID4) : List MctDaemonContext :=
  d.contexts.filter fun context => context.apid < apid

def contextsOf (d : MctDaemonUsers) (apid : ID4) : List MctDaemonContext :=
  d.contexts.filter fun context => context.apid = apid

def contextsBehind (d : MctDaemonUsers) (apid : ID4) : List MctDaemonContext :=
  d.contexts.filter fun context => apid < context.apid

theorem Tables.contexts_split (h : d.Tables) (apid : ID4) :
    d.contexts = d.contextsBefore apid ++ (d.contextsOf apid ++ d.contextsBehind apid) :=
  eq_below_append_at_append_above h.contextApids.ordered apid

theorem count_contextApids (apid : ID4) :
    d.contextApids.count apid = d.contexts.countP fun context => context.apid = apid := by
  rw [contextApids, List.count, List.countP_map]
  congr 1

/-- The numbers stored before an application add up to the contexts before its
own. -/
theorem Counts.offsetBase_eq (h : d.Counts) {i : Nat} {application : MctDaemonApplication}
    (hi : d.applications[i]? = some application) :
    d.offsetBase i = (d.contextsBefore application.apid).length := by
  have hstored : (d.applications.take i).map MctDaemonApplication.numContexts =
      ((d.applications.take i).map MctDaemonApplication.apid).map fun apid =>
        ((d.contexts.countP fun context => context.apid = apid : Nat) : Int) := by
    rw [List.map_map]
    refine List.map_congr_left fun other hother => ?_
    rw [Function.comp_apply, ← count_contextApids]
    exact h.counts (other.apid, other.numContexts)
      (List.mem_map_of_mem (List.mem_of_mem_take hother))
  have hnodup : ((d.applications.take i).map MctDaemonApplication.apid).Nodup :=
    h.tables.applications.nodup.sublist ((List.take_sublist i _).map _)
  have hbefore : (d.contexts.countP fun context =>
      context.apid ∈ (d.applications.take i).map MctDaemonApplication.apid) =
        d.contexts.countP fun context => context.apid < application.apid := by
    apply List.countP_congr
    intro context hcontext
    rw [decide_eq_true_eq, decide_eq_true_eq, h.tables.applications.mem_take_iff hi]
    exact and_iff_right (h.members _ (List.mem_map_of_mem hcontext))
  have hsum := @sum_countP_eq_countP_mem _ _ _ MctDaemonContext.apid _ hnodup d.contexts
  rw [offsetBase, hstored, contextsBefore, ← List.countP_eq_length_filter, ← hbefore, ← hsum]
  rw [Nat.cast_list_sum]
  simp only [List.map_map]
  rfl

theorem Counts.numContexts_eq (h : d.Counts) {i : Nat} {application : MctDaemonApplication}
    (hi : d.applications[i]? = some application) :
    application.numContexts = (d.contextsOf application.apid).length := by
  rw [contextsOf, ← List.countP_eq_length_filter, ← count_contextApids]
  exact h.counts (application.apid, application.numContexts)
    (List.mem_map_of_mem (List.mem_of_getElem? hi))

end Slice

section Unregister

theorem Counts.contextsDelDown (h : d.Counts) (offset : Int) (count : Nat) :
    (d.contextsDelDown offset count).Counts := by
  induction count generalizing d with
  | zero => exact h
  | succ count ih =>
      apply ih
      unfold atPosition
      split
      · exact h
      · exact h.contextDel _

/-- Deleting downwards takes out the part of the table. -/
theorem contextsDelDown_contexts {before part behind : List MctDaemonContext}
    (hcontexts : d.contexts = before ++ (part ++ behind)) :
    (d.contextsDelDown before.length part.length).contexts = before ++ behind := by
  induction part using List.reverseRecOn generalizing d behind with
  | nil => exact hcontexts
  | append_singleton part last ih =>
      have hpos : d.contexts[before.length + part.length]? = some last := by
        rw [hcontexts]
        simp
      have hposition : d.atPosition (before.length + part.length : Nat) contextDel =
          d.contextDel (before.length + part.length) := rfl
      rw [List.length_append, List.length_singleton]
      simp only [contextsDelDown]
      rw [← Nat.cast_add, hposition]
      apply ih
      rw [contextDel_contexts hpos, hcontexts, List.append_assoc, List.singleton_append]
      rw [List.eraseIdx_append_of_length_le (by omega), Nat.add_sub_cancel_left,
        List.eraseIdx_append_of_length_le le_rfl, Nat.sub_self, List.eraseIdx_cons_zero]

theorem contextDel_apids (pos : Nat) : (d.contextDel pos).apids = d.apids := by
  unfold contextDel
  split
  · rfl
  · split
    · rfl
    · exact sameApids_modifyApplication _ fun _ => rfl

theorem contextsDelDown_apids (offset : Int) (count : Nat) :
    (d.contextsDelDown offset count).apids = d.apids := by
  induction count generalizing d with
  | zero => rfl
  | succ count ih =>
      rw [contextsDelDown, ih]
      unfold atPosition
      split
      · rfl
      · exact contextDel_apids _

end Unregister

section Exact

def withoutHandle (context : MctDaemonContext) : MctDaemonContext :=
  { context with userHandle := mctFdInit }

/-- Exactly the contexts under the identifier are gone, and the others are as
they were, apart from handles that were withdrawn. -/
def DeletesContextsOf (d d' : MctDaemonUsers) (apid : ID4) : Prop :=
  d'.contexts.map withoutHandle =
    (d.contexts.filter fun context => context.apid ≠ apid).map withoutHandle

theorem contexts_applicationResetUserHandle (i : Nat) :
    (d.applicationResetUserHandle i).contexts.map withoutHandle = d.contexts.map withoutHandle := by
  have hinvalidate : ∀ fd, (d.contexts.map (MctDaemonContext.invalidate fd)).map withoutHandle =
      d.contexts.map withoutHandle := by
    intro fd
    rw [List.map_map]
    refine List.map_congr_left fun context _ => ?_
    simp only [Function.comp_apply, MctDaemonContext.invalidate]
    split <;> rfl
  unfold applicationResetUserHandle
  split
  · rfl
  · split
    · rfl
    · split
      · exact hinvalidate _
      · rfl

theorem filter_ne_eq_before_append_behind (h : d.Tables) (apid : ID4) :
    (d.contexts.filter fun context => context.apid ≠ apid) =
      d.contextsBefore apid ++ d.contextsBehind apid := by
  have hsplit := congrArg (List.filter fun context => context.apid ≠ apid) (h.contexts_split apid)
  rw [hsplit, List.filter_append, List.filter_append]
  have hbefore : (d.contextsBefore apid).filter (fun context => context.apid ≠ apid) =
      d.contextsBefore apid := by
    rw [List.filter_eq_self]
    intro context hmem
    have hlt : context.apid < apid := by simpa using (List.mem_filter.mp hmem).2
    simpa using hlt.ne
  have hof : (d.contextsOf apid).filter (fun context => context.apid ≠ apid) = [] := by
    rw [List.filter_eq_nil_iff]
    intro context hmem
    simpa using (List.mem_filter.mp hmem).2
  have hbehind : (d.contextsBehind apid).filter (fun context => context.apid ≠ apid) =
      d.contextsBehind apid := by
    rw [List.filter_eq_self]
    intro context hmem
    have hlt : apid < context.apid := by simpa using (List.mem_filter.mp hmem).2
    simpa using hlt.ne'
  rw [hbefore, hof, hbehind, List.nil_append]

/-- Unregistering deletes the contexts of the application and keeps the
numbers right. -/
theorem Counts.unregisterApplication (h : d.Counts) {apid : ID4} (hapid : apid.Canonical) :
    (d.unregisterApplication apid).Counts ∧
      DeletesContextsOf d (d.unregisterApplication apid) apid := by
  unfold MctDaemonUsers.unregisterApplication
  cases hfound : d.applicationFind apid with
  | none =>
      refine ⟨h, ?_⟩
      have hfind := @Tables.applicationFind_isSome _ h.tables apid fun _ => .inl hapid
      rw [hapid, hfound] at hfind
      have hall : (d.contexts.filter fun context => context.apid ≠ apid) = d.contexts := by
        rw [List.filter_eq_self]
        intro context hmem
        have hmember := h.members _ (List.mem_map_of_mem (f := MctDaemonContext.apid) hmem)
        simp only [ne_eq, decide_eq_true_eq]
        rintro rfl
        exact absurd (hfind.mpr hmember) Bool.false_ne_true
      simp only [DeletesContextsOf, hall]
  | some i =>
      obtain ⟨application, hi, hid⟩ := applicationFind_sound hfound
      rw [hapid] at hid
      subst hid
      simp only [hi]
      have hcontexts : (d.contextsDelDown (d.offsetBase i) application.numContexts.toNat).contexts =
          d.contexts.filter fun context => context.apid ≠ application.apid := by
        rw [h.offsetBase_eq hi, h.numContexts_eq hi, Int.toNat_natCast,
          filter_ne_eq_before_append_behind h.tables]
        exact contextsDelDown_contexts (h.tables.contexts_split application.apid)
      have hdown := h.contextsDelDown (d.offsetBase i) application.numContexts.toNat
      obtain ⟨other, hother, hsame⟩ : ∃ other,
          (d.contextsDelDown (d.offsetBase i) application.numContexts.toNat).applications[i]? =
            some other ∧ other.apid = application.apid := by
        have hlookup : (d.contextsDelDown (d.offsetBase i)
            application.numContexts.toNat).apids[i]? = some application.apid := by
          rw [contextsDelDown_apids, apids, List.getElem?_map, hi, Option.map_some]
        rwa [apids, List.getElem?_map, Option.map_eq_some_iff] at hlookup
      have hnone : other.numContexts = 0 := by
        have hcount := hdown.numContexts_eq hother
        rw [hsame, contextsOf, hcontexts, List.filter_filter] at hcount
        rw [hcount, List.filter_eq_nil_iff.mpr]
        · rfl
        · intro context _
          simp
      refine ⟨hdown.applicationDel hother hnone, ?_⟩
      rw [DeletesContextsOf, ← hcontexts]
      exact contexts_applicationResetUserHandle i

end Exact

section Levels

/-- The context is the same, except that its handle may have been withdrawn. -/
def MayLoseHandle (context context' : MctDaemonContext) : Prop :=
  context' = context ∨ context' = withoutHandle context

theorem MayLoseHandle.trans {a b c : MctDaemonContext} (h : MayLoseHandle a b)
    (h' : MayLoseHandle b c) : MayLoseHandle a c := by
  rcases h with rfl | rfl
  · exact h'
  · rcases h' with rfl | rfl
    · exact .inr rfl
    · exact .inr rfl

def withLevels (logLevel traceStatus : Int) (context : MctDaemonContext) : MctDaemonContext :=
  { context with logLevel := logLevel, traceStatus := traceStatus }

theorem MayLoseHandle.withLevels {context context' : MctDaemonContext}
    (h : MayLoseHandle context context') (logLevel traceStatus : Int) :
    MayLoseHandle (withLevels logLevel traceStatus context)
      (withLevels logLevel traceStatus context') := by
  rcases h with rfl | rfl
  · exact .inl rfl
  · exact .inr rfl

/-- The context has the levels, or has a handle to which they could not be sent. -/
def LevelsSet (logLevel traceStatus : Int) (failed : Prop) (context context' : MctDaemonContext) :
    Prop :=
  MayLoseHandle (withLevels logLevel traceStatus context) context' ∨
    mctFdMinimum ≤ context.userHandle ∧ failed ∧ MayLoseHandle context context'

theorem LevelsSet.trans {logLevel traceStatus : Int} {failed : Prop}
    {a b c : MctDaemonContext} (h : LevelsSet logLevel traceStatus failed a b)
    (h' : MayLoseHandle b c) : LevelsSet logLevel traceStatus failed a c := by
  rcases h with hset | ⟨hvalid, hfailed, hkept⟩
  · exact .inl (hset.trans h')
  · exact .inr ⟨hvalid, hfailed, hkept.trans h'⟩

theorem MayLoseHandle.trans_levelsSet {logLevel traceStatus : Int} {failed : Prop}
    {a b c : MctDaemonContext} (h : MayLoseHandle a b)
    (h' : LevelsSet logLevel traceStatus failed b c) :
    LevelsSet logLevel traceStatus failed a c := by
  rcases h' with hset | ⟨hvalid, hfailed, hkept⟩
  · exact .inl ((h.withLevels logLevel traceStatus).trans hset)
  · rcases h with rfl | rfl
    · exact .inr ⟨hvalid, hfailed, hkept⟩
    · exact absurd hvalid (by simp only [withoutHandle]; decide)

theorem applicationResetUserHandle_context (i : Nat) {p : Nat} {context : MctDaemonContext}
    (hp : d.contexts[p]? = some context) :
    ∃ context', (d.applicationResetUserHandle i).contexts[p]? = some context' ∧
      MayLoseHandle context context' := by
  have hinvalidate : ∀ fd, ∃ context',
      (d.contexts.map (MctDaemonContext.invalidate fd))[p]? = some context' ∧
        MayLoseHandle context context' := by
    intro fd
    refine ⟨context.invalidate fd, by rw [List.getElem?_map, hp, Option.map_some], ?_⟩
    unfold MctDaemonContext.invalidate
    split
    · exact .inr rfl
    · exact .inl rfl
  unfold applicationResetUserHandle
  split
  · exact ⟨context, hp, .inl rfl⟩
  · split
    · exact ⟨context, hp, .inl rfl⟩
    · split
      · exact hinvalidate _
      · exact ⟨context, hp, .inl rfl⟩

/-- A message that is sent changes nothing; one to a valid handle that is not
sent has failed to be written. -/
theorem userSendLogLevel_context (k : Nat) (write : SendResult) {p : Nat}
    {context : MctDaemonContext} (hp : d.contexts[p]? = some context) :
    ∃ context', (d.userSendLogLevel k write).2.contexts[p]? = some context' ∧
      MayLoseHandle context context' := by
  unfold userSendLogLevel
  split
  · exact ⟨context, hp, .inl rfl⟩
  · simp only
    split
    · exact ⟨context, hp, .inl rfl⟩
    · split
      · split
        · exact ⟨context, hp, .inl rfl⟩
        · exact applicationResetUserHandle_context _ hp
      · exact ⟨context, hp, .inl rfl⟩

theorem userSendLogLevel_failed {k : Nat} {write : SendResult} {context : MctDaemonContext}
    (hk : d.contexts[k]? = some context) (hvalid : mctFdMinimum ≤ context.userHandle)
    (hfailed : (d.userSendLogLevel k write).1 = false) : write.ok = false := by
  have hpositive : ¬ context.userHandle ≤ 0 := by
    have hminimum : mctFdMinimum = 3 := rfl
    omega
  have hout : userLogOut2 context.userHandle write = write := if_neg hpositive
  unfold userSendLogLevel at hfailed
  simp only [hk, hout] at hfailed
  cases hok : write.ok with
  | false => rfl
  | true =>
      rw [hok, if_pos rfl] at hfailed
      exact absurd hfailed (by simp)

/-- One position gets the levels, and the others may lose their handle. -/
theorem setContextLlTs_context (k : Nat) (logLevel traceStatus : Int) (write : SendResult)
    {p : Nat} {context : MctDaemonContext} (hp : d.contexts[p]? = some context) :
    ∃ context', (d.setContextLlTs k logLevel traceStatus write).contexts[p]? = some context' ∧
      if p = k then LevelsSet logLevel traceStatus (write.ok = false) context context'
      else MayLoseHandle context context' := by
  unfold setContextLlTs
  cases hk : d.contexts[k]? with
  | none =>
      refine ⟨context, hp, ?_⟩
      have hne : p ≠ k := by
        rintro rfl
        rw [hp] at hk
        cases hk
      rw [if_neg hne]
      exact .inl rfl
  | some target =>
      simp only
      have hset : ∀ {e : MctDaemonUsers} {q : Nat} {c : MctDaemonContext}
          (f : MctDaemonContext → MctDaemonContext), e.contexts[q]? = some c →
          (e.modifyContext k f).contexts[q]? = some (if k = q then f c else c) := by
        intro e q c f hq
        rw [modifyContext, List.getElem?_modify, hq]
        rfl
      have hlevels := hset (fun context =>
        { context with logLevel := logLevel, traceStatus := traceStatus }) hp
      by_cases hvalid : mctFdMinimum ≤ target.userHandle
      · rw [if_pos hvalid]
        obtain ⟨sentTo, hsent, hloses⟩ := userSendLogLevel_context k write hlevels
        cases hresult : (userSendLogLevel (d.modifyContext k fun context =>
            { context with logLevel := logLevel, traceStatus := traceStatus }) k write).1 with
        | true =>
            rw [if_pos rfl]
            refine ⟨sentTo, hsent, ?_⟩
            by_cases hpk : p = k
            · rw [if_pos hpk.symm] at hloses
              rw [if_pos hpk]
              exact .inl hloses
            · rw [if_neg (Ne.symm hpk)] at hloses
              rw [if_neg hpk]
              exact hloses
        | false =>
            have htarget := hset (fun context =>
              { context with logLevel := logLevel, traceStatus := traceStatus }) hk
            rw [if_pos rfl] at htarget
            have hfailed := userSendLogLevel_failed htarget hvalid hresult
            rw [if_neg Bool.false_ne_true]
            refine ⟨_, hset _ hsent, ?_⟩
            by_cases hpk : p = k
            · subst hpk
              rw [hp] at hk
              rw [if_pos rfl] at hloses
              rw [if_pos rfl, if_pos rfl, ← Option.some.inj hk]
              rw [← Option.some.inj hk] at hvalid
              exact .inr ⟨hvalid, hfailed, hloses.withLevels context.logLevel context.traceStatus⟩
            · rw [if_neg (Ne.symm hpk)] at hloses
              rw [if_neg (Ne.symm hpk), if_neg hpk]
              exact hloses
      · rw [if_neg hvalid]
        refine ⟨_, hlevels, ?_⟩
        by_cases hpk : p = k
        · rw [if_pos hpk.symm, if_pos hpk]
          exact .inl (.inl rfl)
        · rw [if_neg (Ne.symm hpk), if_neg hpk]
          exact .inl rfl

/-- The loop over the positions of an application's contexts. -/
theorem setContextLlTs_fold (offset : Nat) (logLevel traceStatus : Int)
    (writes : Nat → SendResult) (count : Nat) {p : Nat} {context : MctDaemonContext}
    (hp : d.contexts[p]? = some context) :
    ∃ context', ((List.range count).foldl
        (fun e (k : Nat) => e.atPosition (offset + k) fun e pos =>
          e.setContextLlTs pos logLevel traceStatus (writes k)) d).contexts[p]? = some context' ∧
      if offset ≤ p ∧ p < offset + count then
        LevelsSet logLevel traceStatus (∃ k, (writes k).ok = false) context context'
      else MayLoseHandle context context' := by
  induction count with
  | zero =>
      refine ⟨context, hp, ?_⟩
      rw [if_neg (by omega)]
      exact .inl rfl
  | succ count ih =>
      obtain ⟨middle, hmiddle, hbefore⟩ := ih
      rw [List.range_succ, List.foldl_append, List.foldl_cons, List.foldl_nil]
      obtain ⟨context', hafter, hlast⟩ :=
        setContextLlTs_context (offset + count) logLevel traceStatus (writes count) hmiddle
      refine ⟨context', hafter, ?_⟩
      by_cases hpos : p = offset + count
      · rw [if_neg (by omega)] at hbefore
        rw [if_pos hpos] at hlast
        rw [if_pos (by omega)]
        refine hbefore.trans_levelsSet ?_
        rcases hlast with hset | ⟨hvalid, hfailed, hkept⟩
        · exact .inl hset
        · exact .inr ⟨hvalid, ⟨count, hfailed⟩, hkept⟩
      · rw [if_neg hpos] at hlast
        by_cases hin : offset ≤ p ∧ p < offset + count
        · rw [if_pos hin] at hbefore
          rw [if_pos (by omega)]
          exact hbefore.trans hlast
        · rw [if_neg hin] at hbefore
          rw [if_neg (by omega)]
          exact hbefore.trans hlast

/-- Exactly the contexts under the identifier get the levels, unless they have a
handle and a message failed; the others keep everything but, perhaps, a handle. -/
def SetsLevelsOf (d d' : MctDaemonUsers) (apid : ID4) (logLevel traceStatus : Int)
    (writes : Nat → SendResult) : Prop :=
  d'.contexts.length = d.contexts.length ∧
    ∀ (p : Nat) (context : MctDaemonContext), d.contexts[p]? = some context →
      ∃ context', d'.contexts[p]? = some context' ∧
        if context.apid = apid then
          LevelsSet logLevel traceStatus (∃ k, (writes k).ok = false) context context'
        else MayLoseHandle context context'

theorem sameEntries_setContextLlTs (k : Nat) (logLevel traceStatus : Int) (write : SendResult) :
    SameEntries d (d.setContextLlTs k logLevel traceStatus write) := by
  unfold setContextLlTs
  split
  · exact .refl d
  · simp only
    have hset : SameEntries d (d.modifyContext k fun context =>
        { context with logLevel := logLevel, traceStatus := traceStatus }) :=
      sameEntries_modifyContext k fun _ => rfl
    split
    · have hsent := hset.trans (sameEntries_userSendLogLevel k write)
      split
      · exact hsent
      · exact hsent.trans (sameEntries_modifyContext k fun _ => rfl)
    · exact hset

theorem sameEntries_setAppLlTs (apid : ID4) (logLevel traceStatus : Int)
    (writes : Nat → SendResult) :
    SameEntries d (d.setAppLlTs apid logLevel traceStatus writes) := by
  have hfold : ∀ (offset : Int) (positions : List Nat) (e : MctDaemonUsers), SameEntries e
      (positions.foldl (fun e (k : Nat) => e.atPosition (offset + k) fun e pos =>
        e.setContextLlTs pos logLevel traceStatus (writes k)) e) := by
    intro offset positions
    induction positions with
    | nil => exact SameEntries.refl
    | cons k positions ih =>
        intro e
        refine SameEntries.trans ?_ (ih _)
        simp only [atPosition]
        split
        · exact .refl e
        · exact sameEntries_setContextLlTs _ _ _ _
  unfold setAppLlTs
  split
  · exact .refl d
  · split
    · exact .refl d
    · exact hfold _ _ d

theorem SameEntries.length_contexts {d' : MctDaemonUsers} (h : SameEntries d d') :
    d'.contexts.length = d.contexts.length := by
  have hlength := congrArg List.length h.contextKeys
  simpa only [MctDaemonUsers.contextKeys, List.length_map] using hlength

/-- The positions of an application's contexts. -/
theorem Tables.apid_eq_iff (h : d.Tables) (apid : ID4) {p : Nat} {context : MctDaemonContext}
    (hp : d.contexts[p]? = some context) :
    context.apid = apid ↔ (d.contextsBefore apid).length ≤ p ∧
      p < (d.contextsBefore apid).length + (d.contextsOf apid).length := by
  have hbefore : ∀ c ∈ d.contextsBefore apid, c.apid < apid := by
    intro c hmem
    simpa using (List.mem_filter.mp hmem).2
  have hof : ∀ c ∈ d.contextsOf apid, c.apid = apid := by
    intro c hmem
    simpa using (List.mem_filter.mp hmem).2
  have hbehind : ∀ c ∈ d.contextsBehind apid, apid < c.apid := by
    intro c hmem
    simpa using (List.mem_filter.mp hmem).2
  rw [h.contexts_split apid] at hp
  rcases Nat.lt_or_ge p (d.contextsBefore apid).length with hlt | hge
  · rw [List.getElem?_append_left hlt] at hp
    have hne := (hbefore context (List.mem_of_getElem? hp)).ne
    constructor
    · exact fun hsame => absurd hsame hne
    · omega
  · rw [List.getElem?_append_right hge] at hp
    rcases Nat.lt_or_ge (p - (d.contextsBefore apid).length) (d.contextsOf apid).length with
      hlt | hge'
    · rw [List.getElem?_append_left hlt] at hp
      have hsame := hof context (List.mem_of_getElem? hp)
      exact ⟨fun _ => by omega, fun _ => hsame⟩
    · rw [List.getElem?_append_right hge'] at hp
      have hne := (hbehind context (List.mem_of_getElem? hp)).ne'
      constructor
      · exact fun hsame => absurd hsame hne
      · omega

theorem Counts.setAppLlTs (h : d.Counts) {apid : ID4} (hapid : apid.Canonical)
    (logLevel traceStatus : Int) (writes : Nat → SendResult) :
    (d.setAppLlTs apid logLevel traceStatus writes).Counts ∧
      SetsLevelsOf d (d.setAppLlTs apid logLevel traceStatus writes) apid logLevel traceStatus
        writes := by
  have hsame := sameEntries_setAppLlTs (d := d) apid logLevel traceStatus writes
  refine ⟨h.of_sameEntries hsame, hsame.length_contexts, ?_⟩
  intro p context hp
  unfold MctDaemonUsers.setAppLlTs
  cases hfound : d.applicationFind apid with
  | none =>
      refine ⟨context, hp, ?_⟩
      have hfind := @Tables.applicationFind_isSome _ h.tables apid fun _ => .inl hapid
      rw [hapid, hfound] at hfind
      have hmember := h.members _
        (List.mem_map_of_mem (f := MctDaemonContext.apid) (List.mem_of_getElem? hp))
      rw [if_neg]
      · exact .inl rfl
      · rintro rfl
        exact absurd (hfind.mpr hmember) Bool.false_ne_true
  | some i =>
      obtain ⟨application, hi, hid⟩ := applicationFind_sound hfound
      rw [hapid] at hid
      subst hid
      simp only [hi]
      rw [h.offsetBase_eq hi, h.numContexts_eq hi, Int.toNat_natCast]
      obtain ⟨context', hcontext', hcase⟩ := setContextLlTs_fold
        (d.contextsBefore application.apid).length logLevel traceStatus writes
        (d.contextsOf application.apid).length hp
      refine ⟨context', hcontext', ?_⟩
      rw [if_congr (h.tables.apid_eq_iff application.apid hp) rfl rfl]
      exact hcase

end Levels

end MctDaemonUsers

section Runs

/-- The messages of applications and of the daemon's clients that reach the
tables. -/
inductive UserMessage where
  | registerApplication (apid : ID4) (pid : Int) (description : List Char) (fd opened : Int)
      (logState : SendResult) (writes : Nat → SendResult)
  | registerContext (apid ctid : ID4) (logLevel traceStatus logLevelPos : Int)
      (description : List Char) (storageLogLevel : Int) (write : SendResult)
  | unregisterApplication (apid : ID4)
  | unregisterContext (apid ctid : ID4)
  | setAppLlTs (apid : ID4) (logLevel traceStatus : Int) (writes : Nat → SendResult)
  | updateBlockmode (name : ID4) (blockMode : Int) (writes : Nat → SendResult)
  | contextsClear

open MctDaemonUsers

def messageStep (ipc : MctIpc) (d : MctDaemonUsers) : UserMessage → Unit × MctDaemonUsers
  | .registerApplication apid pid description fd opened logState writes =>
      ((), (d.registerApplication ipc apid pid description fd opened logState writes).2)
  | .registerContext apid ctid logLevel traceStatus logLevelPos description storageLogLevel write =>
      ((), (d.registerContext apid ctid logLevel traceStatus logLevelPos description
        storageLogLevel write).2)
  | .unregisterApplication apid => ((), d.unregisterApplication apid)
  | .unregisterContext apid ctid => ((), d.unregisterContext apid ctid)
  | .setAppLlTs apid logLevel traceStatus writes =>
      ((), d.setAppLlTs apid logLevel traceStatus writes)
  | .updateBlockmode name blockMode writes =>
      ((), (d.userUpdateBlockmode name blockMode writes).2)
  | .contextsClear => ((), d.contextsClear)

def UserMessage.Canonical : UserMessage → Prop
  | .registerApplication apid _ _ _ _ _ _ => apid.Canonical
  | .registerContext apid _ _ _ _ _ _ _ => apid.Canonical
  | .unregisterApplication apid => apid.Canonical
  | .setAppLlTs apid _ _ _ => apid.Canonical
  | _ => True

instance (message : UserMessage) : Decidable message.Canonical := by
  cases message <;> simp only [UserMessage.Canonical] <;> infer_instance

/-- No block mode message of this step fails with EPIPE that goes to an
application with contexts. -/
def BlockmodeHarmless (ipc : MctIpc) (d : MctDaemonUsers) : UserMessage → Prop
  | .registerApplication apid pid description fd opened logState writes =>
      match d.applicationAdd ipc apid pid (some description) fd opened with
      | (none, _) => True
      | (some i, d) =>
          let d := d.userSendLogState i logState
          Harmless (d.blockmodeSends apid d.blockMode writes)
  | .updateBlockmode name blockMode writes => Harmless (d.blockmodeSends name blockMode writes)
  | _ => True

instance (ipc : MctIpc) (d : MctDaemonUsers) (message : UserMessage) :
    Decidable (BlockmodeHarmless ipc d message) := by
  cases message with
  | registerApplication apid pid description fd opened logState writes =>
      simp only [BlockmodeHarmless]
      split <;> infer_instance
  | _ =>
      simp only [BlockmodeHarmless]
      infer_instance

variable {d : MctDaemonUsers}

theorem messageStep_counts (ipc : MctIpc) (message : UserMessage) (h : d.Counts)
    (hcanonical : message.Canonical) (hharmless : BlockmodeHarmless ipc d message) :
    (messageStep ipc d message).2.Counts := by
  cases message with
  | registerApplication apid pid description fd opened logState writes =>
      have hadd := h.applicationAdd ipc hcanonical pid (some description) fd opened
      simp only [messageStep, MctDaemonUsers.registerApplication]
      simp only [BlockmodeHarmless] at hharmless
      generalize d.applicationAdd ipc apid pid (some description) fd opened = result at *
      obtain ⟨found, added⟩ := result
      cases found with
      | none => exact hadd
      | some i =>
          exact (hadd.of_sameEntries (sameEntries_userSendLogState i logState)).userUpdateBlockmode
            hharmless
  | registerContext apid ctid logLevel traceStatus logLevelPos description storageLogLevel write =>
      exact h.registerContext hcanonical ctid logLevel traceStatus logLevelPos description
        storageLogLevel write
  | unregisterApplication apid => exact (h.unregisterApplication hcanonical).1
  | unregisterContext apid ctid => exact h.unregisterContext apid ctid
  | setAppLlTs apid logLevel traceStatus writes =>
      exact (h.setAppLlTs hcanonical logLevel traceStatus writes).1
  | updateBlockmode name blockMode writes => exact h.userUpdateBlockmode hharmless
  | contextsClear => exact h.contextsClear

theorem counts_empty (hempty : d.IsEmpty) (hown : d.ownEcu = true) : d.Counts := by
  have htables := (registered_empty hempty).tables
  obtain ⟨happlications, hcontexts⟩ := hempty
  refine ⟨htables, hown, ?_, ?_⟩
  · rw [contextApids, hcontexts]
    exact fun apid hmem => absurd hmem List.not_mem_nil
  · rw [countEntries, happlications]
    exact fun entry hmem => absurd hmem List.not_mem_nil

/-- The numbers of contexts match the table, and what is done to the contexts of
an application is done to exactly these. -/
def MctDaemonUsers.ContextsCounted (d : MctDaemonUsers) : Prop :=
  (∀ context ∈ d.contexts, ∃ application ∈ d.applications, application.apid = context.apid) ∧
    (∀ application ∈ d.applications, application.numContexts =
      d.contexts.countP fun context => context.apid = application.apid) ∧
    (∀ apid : ID4, apid.Canonical → DeletesContextsOf d (d.unregisterApplication apid) apid) ∧
    ∀ (apid : ID4) (logLevel traceStatus : Int) (writes : Nat → SendResult), apid.Canonical →
      SetsLevelsOf d (d.setAppLlTs apid logLevel traceStatus writes) apid logLevel traceStatus
        writes

theorem MctDaemonUsers.Counts.contextsCounted (h : d.Counts) : d.ContextsCounted := by
  refine ⟨?_, ?_, ?_, ?_⟩
  · intro context hmem
    exact List.mem_map.mp (h.members _ (List.mem_map_of_mem hmem))
  · intro application hmem
    rw [← count_contextApids]
    exact h.counts (application.apid, application.numContexts) (List.mem_map_of_mem hmem)
  · intro apid hapid
    exact (h.unregisterApplication hapid).2
  · intro apid logLevel traceStatus writes hapid
    exact (h.setAppLlTs hapid logLevel traceStatus writes).2

/-- The numbers are right after every run of messages in which no application
with contexts is lost to a block mode message. -/
theorem context_counts_match (ipc : MctIpc) (start : MctDaemonUsers) (hempty : start.IsEmpty)
    (hown : start.ownEcu = true) (messages : List UserMessage)
    (hcanonical : ∀ message ∈ messages, message.Canonical)
    (hharmless : Guarded (messageStep ipc) (BlockmodeHarmless ipc) start messages) :
    (runOps (messageStep ipc) start messages).2.ContextsCounted := by
  have hstep : ∀ (d : MctDaemonUsers) message, d.Counts →
      message.Canonical ∧ BlockmodeHarmless ipc d message →
      (messageStep ipc d message).2.Counts :=
    fun _ message hd hboth => messageStep_counts ipc message hd hboth.1 hboth.2
  have hrun := runOps_keeps hstep (counts_empty hempty hown) messages
    (hharmless.and_forall hcanonical)
  exact hrun.contextsCounted

/-- Two applications, one with two contexts, whose block mode is changed. -/
def sampleMessages : List UserMessage :=
  [.registerApplication (setId ['A', 'P', 'P', '1']) 10 [] 5 0 ⟨true, false⟩
    (fun _ => ⟨true, false⟩),
    .registerApplication (setId ['A', 'P', 'P', '2']) 11 [] 6 0 ⟨true, false⟩
      (fun _ => ⟨true, false⟩),
    .registerContext (setId ['A', 'P', 'P', '2']) (setId ['C', 'T', 'X', '1']) (-2) 0 0 [] (-1)
      ⟨true, false⟩,
    .registerContext (setId ['A', 'P', 'P', '2']) (setId ['C', 'T', 'X', '2']) 4 0 1 [] (-1)
      ⟨true, false⟩,
    .updateBlockmode mctAllApplications 1
      (fun count => if count = 0 then ⟨false, true⟩ else ⟨true, false⟩)]

theorem context_counts_match_sample :
    (runOps (messageStep .unixSocket) ⟨true, [], [], 4, 0, false, false, 0⟩
      sampleMessages).2.ContextsCounted :=
  context_counts_match .unixSocket ⟨true, [], [], 4, 0, false, false, 0⟩ (by decide) rfl
    sampleMessages (by decide) (by decide +kernel)

/-- The block mode message to an application with a context fails with EPIPE:
the application is deleted and its context stays. -/
theorem context_left_without_application :
    ¬ (runOps (messageStep .unixSocket) ⟨true, [], [], 4, 0, false, false, 0⟩
      [.registerApplication ⟨['A', 'P', 'P', '1'], rfl⟩ 10 [] 5 0 ⟨true, false⟩
          (fun _ => ⟨true, false⟩),
        .registerContext ⟨['A', 'P', 'P', '1'], rfl⟩ ⟨['C', 'T', 'X', '1'], rfl⟩ 4 0 0 [] (-1)
          ⟨true, false⟩,
        .updateBlockmode ⟨['A', 'P', 'P', '1'], rfl⟩ 1
          (fun _ => ⟨false, true⟩)]).2.ContextsCounted := by
  rintro ⟨hmembers, _⟩
  revert hmembers
  decide +kernel

end Runs

end MctDaemon.Daemon
