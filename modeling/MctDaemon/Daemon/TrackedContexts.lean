import MctDaemon.Daemon.UserSlices
import MctDaemon.Lib.Replica

/-!
The contexts of one application in the tables of the daemon: a map from context
identifiers to the position at which the application keeps each of them. A registration
assigns to one key of the map, and what other applications send leaves it alone.
-/

namespace MctDaemon.Daemon

open Lib Shared

/-- What of a context its application is concerned with: the identifiers, whether only the
configuration names it, and its position in the table of the application. -/
structure ContextTrack where
  key : ID4 ×ₗ ID4
  predefined : Bool
  logLevelPos : Int
  deriving DecidableEq

def MctDaemonContext.track (context : MctDaemonContext) : ContextTrack :=
  ⟨context.key, context.predefined, context.logLevelPos⟩

namespace MctDaemonUsers

def tracks (d : MctDaemonUsers) : List ContextTrack := d.contexts.map MctDaemonContext.track

/-- The position under which a context is registered. -/
def registeredAt (d : MctDaemonUsers) (apid ctid : ID4) : Option Int :=
  (d.tracks.find? fun t => t.key = toLex (apid, ctid) && !t.predefined).map ContextTrack.logLevelPos

/-- No application is reached through handle 0. -/
def HandlesOpen (d : MctDaemonUsers) : Prop :=
  ∀ application ∈ d.applications, application.userHandle ≠ 0

instance (d : MctDaemonUsers) : Decidable d.HandlesOpen :=
  inferInstanceAs (Decidable (∀ application ∈ d.applications, _))

/-- These contexts are as they were, and these applications are still there. -/
structure Keeps (kept : ID4 ×ₗ ID4 → Prop) (staying : ID4 → Prop) (d d' : MctDaemonUsers) :
    Prop where
  tracks : ∀ t : ContextTrack, kept t.key → (t ∈ d'.tracks ↔ t ∈ d.tracks)
  apids : ∀ apid, staying apid → apid ∈ d.apids → apid ∈ d'.apids
  handles : d.HandlesOpen → d'.HandlesOpen

/-- Nothing that concerns an application has changed. -/
def Quiet (d d' : MctDaemonUsers) : Prop := Keeps (fun _ => True) (fun _ => True) d d'

variable {d : MctDaemonUsers}

section Registered

/-- In tables in order there is one context under a key. -/
theorem Tables.track_unique (h : d.Tables) {s t : ContextTrack} (hs : s ∈ d.tracks)
    (ht : t ∈ d.tracks) (hkey : s.key = t.key) : s = t := by
  obtain ⟨a, ha, rfl⟩ := List.mem_map.mp hs
  obtain ⟨b, hb, rfl⟩ := List.mem_map.mp ht
  obtain ⟨i, hi⟩ := List.mem_iff_getElem?.mp ha
  obtain ⟨j, hj⟩ := List.mem_iff_getElem?.mp hb
  have hij := h.contexts.position hi hj hkey
  rw [hij, hj] at hi
  rw [Option.some.inj hi]

theorem Tables.registeredAt_eq_some_iff (h : d.Tables) (apid ctid : ID4) (pos : Int) :
    d.registeredAt apid ctid = some pos ↔ ⟨toLex (apid, ctid), false, pos⟩ ∈ d.tracks := by
  unfold registeredAt
  rw [Option.map_eq_some_iff]
  constructor
  · rintro ⟨⟨key, predefined, other⟩, hfind, rfl⟩
    have hsome := List.find?_some hfind
    have hmem := List.mem_of_find?_eq_some hfind
    simp only [Bool.and_eq_true, decide_eq_true_eq, Bool.not_eq_true'] at hsome
    rwa [hsome.1, hsome.2] at hmem
  · intro hmem
    have hfound : (d.tracks.find? fun t =>
        t.key = toLex (apid, ctid) && !t.predefined).isSome := by
      rw [List.find?_isSome]
      exact ⟨_, hmem, by simp⟩
    obtain ⟨t, ht⟩ := Option.isSome_iff_exists.mp hfound
    have hkey := List.find?_some ht
    simp only [Bool.and_eq_true, decide_eq_true_eq] at hkey
    have hsame := h.track_unique (List.mem_of_find?_eq_some ht) hmem hkey.1
    exact ⟨t, ht, by rw [hsame]⟩

/-- What the tables say of a key that is kept. -/
theorem Keeps.registeredAt_eq {kept : ID4 ×ₗ ID4 → Prop} {staying : ID4 → Prop}
    {d' : MctDaemonUsers} (h : Keeps kept staying d d') (hd : d.Tables) (hd' : d'.Tables)
    {apid ctid : ID4} (hkept : kept (toLex (apid, ctid))) :
    d'.registeredAt apid ctid = d.registeredAt apid ctid := by
  apply Option.ext
  intro pos
  rw [hd'.registeredAt_eq_some_iff, hd.registeredAt_eq_some_iff]
  exact h.tracks ⟨toLex (apid, ctid), false, pos⟩ hkept

end Registered

section Frame

variable {d' d'' : MctDaemonUsers} {kept kept' : ID4 ×ₗ ID4 → Prop} {staying staying' : ID4 → Prop}

theorem Keeps.refl (kept : ID4 ×ₗ ID4 → Prop) (staying : ID4 → Prop) (d : MctDaemonUsers) :
    Keeps kept staying d d := ⟨fun _ _ => Iff.rfl, fun _ _ hmem => hmem, id⟩

theorem Keeps.trans (h : Keeps kept staying d d') (h' : Keeps kept staying d' d'') :
    Keeps kept staying d d'' where
  tracks t ht := (h'.tracks t ht).trans (h.tracks t ht)
  apids apid ha hmem := h'.apids apid ha (h.apids apid ha hmem)
  handles hopen := h'.handles (h.handles hopen)

theorem Keeps.mono (h : Keeps kept staying d d') (hkept : ∀ key, kept' key → kept key)
    (hstaying : ∀ apid, staying' apid → staying apid) : Keeps kept' staying' d d' where
  tracks t ht := h.tracks t (hkept t.key ht)
  apids apid ha := h.apids apid (hstaying apid ha)
  handles := h.handles

theorem Quiet.keeps (h : Quiet d d') (kept : ID4 ×ₗ ID4 → Prop) (staying : ID4 → Prop) :
    Keeps kept staying d d' := h.mono (fun _ _ => trivial) fun _ _ => trivial

theorem Quiet.refl (d : MctDaemonUsers) : Quiet d d := Keeps.refl _ _ d

theorem Quiet.trans (h : Quiet d d') (h' : Quiet d' d'') : Quiet d d'' := Keeps.trans h h'

theorem quiet_foldl {α : Type*} {f : MctDaemonUsers → α → MctDaemonUsers}
    (hf : ∀ d x, Quiet d (f d x)) (xs : List α) (d : MctDaemonUsers) :
    Quiet d (xs.foldl f d) := by
  induction xs generalizing d with
  | nil => exact .refl d
  | cons x xs ih => exact (hf d x).trans (ih (f d x))

/-- A change of handles in which no handle becomes 0. -/
theorem quiet_of_same (htracks : d'.tracks = d.tracks) (hapids : d'.apids = d.apids)
    (hopen : d.HandlesOpen → d'.HandlesOpen) : Quiet d d' where
  tracks t _ := by rw [htracks]
  apids apid _ hmem := by rwa [hapids]
  handles := hopen

theorem handlesOpen_modify (i : Nat) {f : MctDaemonApplication → MctDaemonApplication}
    (hf : ∀ application, application.userHandle ≠ 0 → (f application).userHandle ≠ 0)
    (h : d.HandlesOpen) : (d.modifyApplication i f).HandlesOpen := by
  intro application hmem
  rcases mem_of_mem_modify hmem with hold | ⟨old, hold, rfl⟩
  · exact h application hold
  · exact hf old (h old (List.mem_of_getElem? hold))

theorem quiet_modifyApplication (i : Nat) {f : MctDaemonApplication → MctDaemonApplication}
    (hf : ∀ application, (f application).apid = application.apid ∧
      (application.userHandle ≠ 0 → (f application).userHandle ≠ 0)) :
    Quiet d (d.modifyApplication i f) :=
  quiet_of_same rfl (sameApids_modifyApplication i fun application => (hf application).1)
    (handlesOpen_modify i fun application => (hf application).2)

theorem quiet_modifyContext (k : Nat) {f : MctDaemonContext → MctDaemonContext}
    (hf : ∀ context, (f context).track = context.track) : Quiet d (d.modifyContext k f) :=
  quiet_of_same (map_modify_of_keep hf _ _) rfl id

theorem quiet_contextsInvalidateFd (fd : Int) : Quiet d (d.contextsInvalidateFd fd) := by
  apply quiet_of_same
  · rw [tracks, contextsInvalidateFd, List.map_map]
    apply List.map_congr_left
    intro context _
    simp only [Function.comp_apply, MctDaemonContext.invalidate]
    split <;> rfl
  · rfl
  · exact id

theorem quiet_applicationsInvalidateFd (fd : Int) : Quiet d (d.applicationsInvalidateFd fd) := by
  apply quiet_of_same
  · rfl
  · rw [apids, applicationsInvalidateFd, List.map_map]
    apply List.map_congr_left
    intro application _
    simp only [Function.comp_apply, MctDaemonApplication.invalidate]
    split <;> rfl
  · intro hopen application hmem
    obtain ⟨old, hold, rfl⟩ := List.mem_map.mp hmem
    unfold MctDaemonApplication.invalidate
    split
    · simp [mctFdInit]
    · exact hopen old hold

theorem quiet_applicationResetUserHandle (i : Nat) : Quiet d (d.applicationResetUserHandle i) := by
  unfold applicationResetUserHandle
  split
  · exact .refl d
  · split
    · exact .refl d
    · next application _ _ =>
        have hcontexts : Quiet d
            (if d.ownEcu then d.contextsInvalidateFd application.userHandle else d) := by
          split
          · exact quiet_contextsInvalidateFd _
          · exact .refl d
        apply hcontexts.trans
        exact quiet_modifyApplication i fun _ => ⟨rfl, fun _ => by simp [mctFdInit]⟩

end Frame

section Applications

theorem quiet_changePid (i : Nat) (pid : Int) : Quiet d (d.changePid i pid) := by
  unfold changePid
  split
  · exact .refl d
  · split
    · apply (quiet_applicationResetUserHandle i).trans
      exact quiet_modifyApplication i fun _ => ⟨rfl, id⟩
    · exact .refl d

theorem quiet_openHandle {ipc : MctIpc} {fd opened : Int}
    (hopen : (openUserHandle ipc fd opened).1 ≠ 0) (i : Nat) (pid : Int) :
    Quiet d (d.openHandle ipc i pid fd opened) := by
  unfold openHandle
  split
  · exact .refl d
  · split
    · apply ((quiet_applicationsInvalidateFd _).trans (quiet_contextsInvalidateFd _)).trans
      exact quiet_modifyApplication i fun _ => ⟨rfl, fun _ => hopen⟩
    · exact .refl d

theorem quiet_storeApplication {ipc : MctIpc} {fd opened : Int}
    (hopen : (openUserHandle ipc fd opened).1 ≠ 0) (i : Nat) (pid : Int)
    (description : Option (List Char)) :
    Quiet d (d.storeApplication ipc i pid description fd opened) := by
  have hdescription : Quiet d (d.modifyApplication i fun application =>
      { application with applicationDescription := description }) :=
    quiet_modifyApplication i fun _ => ⟨rfl, id⟩
  exact (hdescription.trans (quiet_changePid i pid)).trans (quiet_openHandle hopen i pid)

theorem quiet_appendApplication (apid : ID4) : Quiet d (d.appendApplication apid) where
  tracks _ _ := Iff.rfl
  apids other _ hmem := by
    rw [apids, appendApplication, List.map_append]
    exact List.mem_append_left _ hmem
  handles hopen application hmem := by
    rcases List.mem_append.mp hmem with hold | hnew
    · exact hopen application hold
    · rw [List.mem_singleton.mp hnew]
      simp [MctDaemonApplication.fresh, mctFdInit]

theorem quiet_sortApplications : Quiet d d.sortApplications where
  tracks _ _ := Iff.rfl
  apids _ _ hmem := mem_sortApplications.mpr hmem
  handles hopen application hmem := hopen application ((sortByKey_perm _ _).mem_iff.mp hmem)

theorem quiet_applicationAdd {ipc : MctIpc} {fd opened : Int}
    (hopen : (openUserHandle ipc fd opened).1 ≠ 0) (apid : ID4) (pid : Int)
    (description : Option (List Char)) :
    Quiet d (d.applicationAdd ipc apid pid description fd opened).2 := by
  unfold applicationAdd
  split
  · exact .refl d
  · split
    · exact quiet_storeApplication hopen _ pid description
    · exact ((quiet_appendApplication _).trans
        (quiet_storeApplication hopen _ pid description)).trans
        quiet_sortApplications

theorem quiet_userSendLogState (i : Nat) (write : SendResult) :
    Quiet d (d.userSendLogState i write) := by
  unfold userSendLogState
  split
  · exact .refl d
  · simp only
    split
    · exact quiet_applicationResetUserHandle i
    · exact .refl d

theorem quiet_userSendLogLevel (k : Nat) (write : SendResult) :
    Quiet d (d.userSendLogLevel k write).2 := by
  unfold userSendLogLevel
  split
  · exact .refl d
  · simp only
    split
    · exact .refl d
    · split
      · split
        · exact .refl d
        · exact quiet_applicationResetUserHandle _
      · exact .refl d

theorem userLogOut2_epipe (userHandle : Int) {write : SendResult} (h : write.epipe = false) :
    (userLogOut2 userHandle write).epipe = false := by
  unfold userLogOut2
  split <;> exact h

/-- A block mode update that no application answers with EPIPE deletes none. -/
theorem quiet_updateBlockmodeAt (i : Nat) (blockMode : Int) {write : SendResult}
    (hwrite : write.epipe = false) : Quiet d (d.updateBlockmodeAt i blockMode write) := by
  unfold updateBlockmodeAt
  split
  · exact .refl d
  · next application hi =>
      split
      · simp only [userSendUpdateBlockmode, hi, userLogOut2_epipe _ hwrite]
        split
        · exact quiet_modifyApplication i fun _ => ⟨rfl, id⟩
        · exact .refl d
      · exact .refl d

theorem quiet_userUpdateBlockmode (name : ID4) (blockMode : Int) {writes : Nat → SendResult}
    (hwrites : ∀ i, (writes i).epipe = false) :
    Quiet d (d.userUpdateBlockmode name blockMode writes).2 := by
  unfold userUpdateBlockmode
  split
  · exact .refl d
  · split
    · have hall := quiet_foldl (fun d count => quiet_updateBlockmodeAt (d := d) count blockMode
        (hwrites count)) (List.range d.applications.length) d
      exact hall.trans (quiet_of_same rfl rfl id)
    · split
      · exact .refl d
      · exact quiet_updateBlockmodeAt _ blockMode (hwrites 0)

theorem quiet_registerApplication {ipc : MctIpc} {fd opened : Int}
    (hopen : (openUserHandle ipc fd opened).1 ≠ 0) (apid : ID4) (pid : Int)
    (description : List Char) (logState : SendResult) {writes : Nat → SendResult}
    (hwrites : ∀ i, (writes i).epipe = false) :
    Quiet d (d.registerApplication ipc apid pid description fd opened logState writes).2 := by
  have hadd := @quiet_applicationAdd d ipc fd opened hopen apid pid (some description)
  unfold registerApplication
  generalize d.applicationAdd ipc apid pid (some description) fd opened = result at hadd
  obtain ⟨application, added⟩ := result
  cases application with
  | none => exact hadd
  | some i =>
      exact (hadd.trans (quiet_userSendLogState i logState)).trans
        (quiet_userUpdateBlockmode apid _ hwrites)

end Applications

section Contexts

variable {apid ctid : ID4}

/-- Entries under another key do not change when a context is stored again. -/
theorem tracks_modify {k : Nat} {context : MctDaemonContext} (hk : d.contexts[k]? = some context)
    {f : MctDaemonContext → MctDaemonContext} (hf : ∀ c, (f c).key = c.key) {t : ContextTrack}
    (ht : t.key ≠ context.key) :
    t ∈ (d.contexts.modify k f).map MctDaemonContext.track ↔ t ∈ d.tracks := by
  rw [tracks, List.mem_iff_getElem?, List.mem_iff_getElem?]
  apply exists_congr
  intro j
  rw [List.getElem?_map, List.getElem?_map, List.getElem?_modify]
  by_cases hkj : k = j
  · subst hkj
    rw [hk]
    simp only [if_pos, Option.map_eq_map, Option.map_some, Option.some.injEq]
    apply iff_of_false
    · rintro rfl
      exact ht (hf context)
    · rintro rfl
      exact ht rfl
  · cases d.contexts[j]? <;> simp [hkj]

/-- Adding a context concerns its own key only. -/
theorem contextAdd_keeps (logLevel traceStatus logLevelPos userHandle : Int)
    (description : Option (List Char)) :
    Keeps (· ≠ toLex (setId apid.chars, setId ctid.chars)) (fun _ => True) d
      (d.contextAdd apid ctid logLevel traceStatus logLevelPos userHandle description).2 := by
  unfold contextAdd
  split
  · exact .refl _ _ d
  split
  · exact .refl _ _ d
  split
  · exact .refl _ _ d
  cases happlication : d.applicationFind apid with
  | none => exact .refl _ _ d
  | some i =>
      cases hcontext : d.contextFind apid ctid with
      | some k =>
          obtain ⟨context, hk, hapid, hctid⟩ := contextFind_sound hcontext
          have hkey : context.key = toLex (setId apid.chars, setId ctid.chars) := by
            rw [MctDaemonContext.key, hapid, hctid]
          refine ⟨fun t ht => ?_, fun _ _ hmem => hmem, id⟩
          exact @tracks_modify d k context hk
            (d.storeContext false logLevel traceStatus logLevelPos userHandle description)
            (storeContext_key false _ _ _ _ _) t (by rwa [hkey])
      | none =>
          have hcounted : Quiet d (d.modifyApplication i fun application =>
              { application with numContexts := application.numContexts + 1 }) :=
            quiet_modifyApplication i fun _ => ⟨rfl, id⟩
          apply (hcounted.keeps _ _).trans
          refine ⟨fun t ht => ?_, fun _ _ hmem => hmem, id⟩
          have hperm := (sortByKey_perm MctDaemonContext.key
            (d.contexts ++ [d.storeContext true logLevel traceStatus logLevelPos userHandle
              description (MctDaemonContext.fresh (setId apid.chars) (setId ctid.chars))])).map
            MctDaemonContext.track
          rw [tracks, tracks]
          apply hperm.mem_iff.trans
          rw [List.map_append, List.mem_append]
          apply or_iff_left
          intro hnew
          rw [List.map_singleton, List.mem_singleton] at hnew
          exact ht (by rw [hnew]; rfl)

theorem storeContext_track (isNew : Bool) (logLevel traceStatus logLevelPos : Int)
    {userHandle : Int} (hhandle : userHandle ≠ 0) (description : Option (List Char))
    (context : MctDaemonContext) :
    (d.storeContext isNew logLevel traceStatus logLevelPos userHandle description context).track =
      ⟨context.key, false, logLevelPos⟩ := by
  simp [storeContext, MctDaemonContext.track, MctDaemonContext.key, hhandle]

/-- The context that is added has the position it was added with. -/
theorem contextAdd_track {logLevel traceStatus logLevelPos userHandle : Int}
    {description : Option (List Char)}
    (hvalid : ¬ ContextRefused apid ctid logLevel traceStatus)
    (hregistered : (d.applicationFind apid).isSome) (hhandle : userHandle ≠ 0) :
    ⟨toLex (setId apid.chars, setId ctid.chars), false, logLevelPos⟩ ∈
      (d.contextAdd apid ctid logLevel traceStatus logLevelPos userHandle
        description).2.tracks := by
  unfold ContextRefused at hvalid
  rw [not_or, not_or] at hvalid
  obtain ⟨i, hi⟩ := Option.isSome_iff_exists.mp hregistered
  unfold contextAdd
  rw [if_neg hvalid.1, if_neg hvalid.2.1, if_neg hvalid.2.2, hi]
  cases hcontext : d.contextFind apid ctid with
  | some k =>
      obtain ⟨context, hk, hapid, hctid⟩ := contextFind_sound hcontext
      have hstored : (d.contexts.modify k (d.storeContext false logLevel traceStatus logLevelPos
          userHandle description))[k]? = some (d.storeContext false logLevel traceStatus
          logLevelPos userHandle description context) := by
        rw [List.getElem?_modify_eq, hk]
        rfl
      have htrack := List.mem_map_of_mem (f := MctDaemonContext.track)
        (List.mem_of_getElem? hstored)
      rw [storeContext_track false _ _ _ hhandle, MctDaemonContext.key, hapid, hctid] at htrack
      exact htrack
  | none =>
      have hnew : d.storeContext true logLevel traceStatus logLevelPos userHandle description
          (MctDaemonContext.fresh (setId apid.chars) (setId ctid.chars)) ∈
          sortByKey MctDaemonContext.key (d.contexts ++
            [d.storeContext true logLevel traceStatus logLevelPos userHandle description
              (MctDaemonContext.fresh (setId apid.chars) (setId ctid.chars))]) := by
        apply (sortByKey_perm _ _).mem_iff.mpr
        exact List.mem_append_right _ (List.mem_singleton_self _)
      have htrack := List.mem_map_of_mem (f := MctDaemonContext.track) hnew
      rw [storeContext_track true _ _ _ hhandle] at htrack
      exact htrack

theorem contextDel_keeps {pos : Nat} {context : MctDaemonContext}
    (hpos : d.contexts[pos]? = some context) :
    Keeps (· ≠ context.key) (fun _ => True) d (d.contextDel pos) where
  tracks t ht := by
    rw [tracks, contextDel_contexts hpos, ← List.eraseIdx_map, tracks]
    constructor
    · exact List.mem_of_mem_eraseIdx
    · intro hmem
      obtain ⟨j, hj⟩ := List.mem_iff_getElem?.mp hmem
      have hne : j ≠ pos := by
        rintro rfl
        rw [List.getElem?_map, hpos, Option.map_some, Option.some.injEq] at hj
        exact ht (by rw [← hj]; rfl)
      exact List.mem_eraseIdx_iff_getElem?.mpr ⟨j, hne, hj⟩
  apids apid _ hmem := by rwa [contextDel_apids]
  handles hopen := by
    unfold contextDel
    rw [hpos]
    simp only
    split
    · exact hopen
    · exact @handlesOpen_modify { d with contexts := d.contexts.eraseIdx pos } _ _
        (fun _ => id) hopen

/-- An unregistered context is no longer registered, though the configuration may still
name it. -/
theorem unregisterContext_keeps :
    Keeps (· ≠ toLex (setId apid.chars, setId ctid.chars)) (fun _ => True) d
      (d.unregisterContext apid ctid) := by
  unfold unregisterContext
  cases hfound : d.contextFind apid ctid with
  | none => exact .refl _ _ d
  | some k =>
      obtain ⟨context, hk, hapid, hctid⟩ := contextFind_sound hfound
      have hkey : context.key = toLex (setId apid.chars, setId ctid.chars) := by
        rw [MctDaemonContext.key, hapid, hctid]
      simp only [hk]
      split
      · exact .refl _ _ d
      · rw [← hkey]
        exact contextDel_keeps hk

theorem Tables.unregisterContext_gone (h : d.Tables) (hapid : apid.Canonical)
    (hctid : ctid.Canonical) (pos : Int) :
    ⟨toLex (apid, ctid), false, pos⟩ ∉ (d.unregisterContext apid ctid).tracks := by
  have hfind := @Tables.contextFind_isSome _ h apid ctid fun _ => .inl hapid
  rw [hapid, hctid] at hfind
  unfold MctDaemonUsers.unregisterContext
  cases hfound : d.contextFind apid ctid with
  | none =>
      intro hmem
      obtain ⟨context, hcontext, htrack⟩ := List.mem_map.mp hmem
      have hkey : context.key = toLex (apid, ctid) := congrArg ContextTrack.key htrack
      rw [hfound] at hfind
      have hstored := hfind.mpr (hkey ▸ List.mem_map_of_mem (f := MctDaemonContext.key) hcontext)
      exact absurd hstored Bool.false_ne_true
  | some k =>
      obtain ⟨context, hk, hcapid, hcctid⟩ := contextFind_sound hfound
      rw [hapid] at hcapid
      rw [hctid] at hcctid
      have hkey : context.key = toLex (apid, ctid) := by
        rw [MctDaemonContext.key, hcapid, hcctid]
      simp only [hk]
      split
      · next hpredefined =>
          intro hmem
          have hstored : context.track ∈ d.tracks :=
            List.mem_map_of_mem (List.mem_of_getElem? hk)
          have hsame := h.track_unique hmem hstored hkey.symm
          have hflag := congrArg ContextTrack.predefined hsame
          rw [MctDaemonContext.track, hpredefined] at hflag
          exact absurd hflag Bool.false_ne_true
      · intro hmem
        obtain ⟨other, hother, htrack⟩ := List.mem_map.mp hmem
        have hotherKey : other.key = toLex (apid, ctid) := congrArg ContextTrack.key htrack
        have hgone := (h.contextDel hk).2.2 other.key
        exact (hgone.mp (List.mem_map_of_mem hother)).2 (hotherKey.trans hkey.symm)

theorem quiet_addContextOf (application : MctDaemonApplication)
    (logLevel traceStatus logLevelPos : Int) (description : List Char) (storageLogLevel : Int)
    (write : SendResult) :
    Quiet (d.contextAdd apid ctid logLevel traceStatus logLevelPos application.userHandle
        (some description)).2
      (d.addContextOf application apid ctid logLevel traceStatus logLevelPos description
        storageLogLevel write).2 := by
  unfold addContextOf
  generalize d.contextAdd apid ctid logLevel traceStatus logLevelPos application.userHandle
    (some description) = result
  obtain ⟨context, added⟩ := result
  cases context with
  | none => exact .refl _
  | some k =>
      have hstored : Quiet added (added.modifyContext k fun context =>
          { context with storageLogLevel := storageLogLevel }) :=
        quiet_modifyContext k fun _ => rfl
      simp only
      split
      · exact hstored.trans (quiet_userSendLogLevel k write)
      · exact hstored

/-- A registration concerns the key of the context only. -/
theorem registerContext_keeps (logLevel traceStatus logLevelPos : Int) (description : List Char)
    (storageLogLevel : Int) (write : SendResult) :
    Keeps (· ≠ toLex (setId apid.chars, setId ctid.chars)) (fun _ => True) d
      (d.registerContext apid ctid logLevel traceStatus logLevelPos description storageLogLevel
        write).2 := by
  unfold registerContext
  split
  · exact .refl _ _ d
  · split
    · exact .refl _ _ d
    · next application _ =>
        simp only
        generalize (if logLevel = mctUserLogLevelNotSet then mctLogDefault else logLevel) = level
        generalize (if traceStatus = mctUserTraceStatusNotSet then mctTraceStatusDefault
          else traceStatus) = status
        split
        · exact .refl _ _ d
        · split
          · exact .refl _ _ d
          · exact (contextAdd_keeps _ _ logLevelPos application.userHandle (some description)).trans
              ((quiet_addContextOf application _ _ logLevelPos description storageLogLevel
                write).keeps _ _)

/-- The levels with which an application may register a context. -/
def LevelsValid (logLevel traceStatus : Int) : Prop :=
  (mctUserLogLevelNotSet ≤ logLevel ∧ logLevel ≤ mctLogVerbose) ∧
    mctUserTraceStatusNotSet ≤ traceStatus ∧ traceStatus ≤ mctTraceStatusOn

instance (logLevel traceStatus : Int) : Decidable (LevelsValid logLevel traceStatus) :=
  inferInstanceAs (Decidable (_ ∧ _))

/-- A level that is not set is replaced before it is checked. -/
theorem replaced_valid {level notSet fallback high : Int} (hfallback : fallback = notSet + 1)
    (hhigh : fallback ≤ high) (hlevel : notSet ≤ level ∧ level ≤ high) :
    ¬ ((if level = notSet then fallback else level) < fallback ∨
      high < if level = notSet then fallback else level) := by
  split <;> omega

/-- A context of a registered application is registered at its position. -/
theorem registerContext_track {logLevel traceStatus logLevelPos : Int} {description : List Char}
    {storageLogLevel : Int} {write : SendResult} (hopen : d.HandlesOpen)
    (hregistered : (d.applicationFind apid).isSome)
    (hnonempty : (apid.isEmpty || ctid.isEmpty) = false)
    (hlevels : LevelsValid logLevel traceStatus) :
    ⟨toLex (setId apid.chars, setId ctid.chars), false, logLevelPos⟩ ∈
      (d.registerContext apid ctid logLevel traceStatus logLevelPos description storageLogLevel
        write).2.tracks := by
  have hlevel := @replaced_valid logLevel mctUserLogLevelNotSet mctLogDefault mctLogVerbose
    (by decide) (by decide) hlevels.1
  have hstatus := @replaced_valid traceStatus mctUserTraceStatusNotSet mctTraceStatusDefault
    mctTraceStatusOn (by decide) (by decide) hlevels.2
  obtain ⟨i, hi⟩ := Option.isSome_iff_exists.mp hregistered
  obtain ⟨application, happlication, _⟩ := applicationFind_sound hi
  unfold registerContext
  simp only [hi, happlication]
  rw [if_neg hlevel, if_neg hstatus]
  apply ((quiet_addContextOf application _ _ logLevelPos description storageLogLevel
    write).tracks _ trivial).mpr
  apply contextAdd_track
  · unfold ContextRefused
    rw [not_or, not_or, hnonempty]
    exact ⟨Bool.false_ne_true, hlevel, hstatus⟩
  · exact hregistered
  · exact hopen application (List.mem_of_getElem? happlication)

theorem quiet_setContextLlTs (k : Nat) (logLevel traceStatus : Int) (write : SendResult) :
    Quiet d (d.setContextLlTs k logLevel traceStatus write) := by
  unfold setContextLlTs
  split
  · exact .refl d
  · next context _ =>
      have hset : Quiet d (d.modifyContext k fun context =>
          { context with logLevel := logLevel, traceStatus := traceStatus }) :=
        quiet_modifyContext k fun _ => rfl
      simp only
      split
      · split
        · exact hset.trans (quiet_userSendLogLevel k write)
        · exact (hset.trans (quiet_userSendLogLevel k write)).trans
            (quiet_modifyContext k fun _ => rfl)
      · exact hset

theorem quiet_atPosition (pos : Int) {f : MctDaemonUsers → Nat → MctDaemonUsers}
    (hf : ∀ k, Quiet d (f d k)) : Quiet d (d.atPosition pos f) := by
  unfold atPosition
  split
  · exact .refl d
  · exact hf _

theorem quiet_setAppLlTs (logLevel traceStatus : Int) (writes : Nat → SendResult) :
    Quiet d (d.setAppLlTs apid logLevel traceStatus writes) := by
  unfold setAppLlTs
  split
  · exact .refl d
  · split
    · exact .refl d
    · exact quiet_foldl (fun _ k => quiet_atPosition _ fun pos =>
        quiet_setContextLlTs pos logLevel traceStatus (writes k)) _ d

theorem handlesOpen_applicationDel (i : Nat) (h : d.HandlesOpen) :
    (d.applicationDel i).HandlesOpen := by
  intro application hmem
  have hreset := (quiet_applicationResetUserHandle (d := d) i).handles h
  exact hreset application (List.mem_of_mem_eraseIdx hmem)

theorem handlesOpen_contextsDelDown (offset : Int) (count : Nat) (h : d.HandlesOpen) :
    (d.contextsDelDown offset count).HandlesOpen := by
  induction count generalizing d with
  | zero => exact h
  | succ count ih =>
      apply ih
      unfold atPosition
      split
      · exact h
      · next k _ =>
          cases hpos : d.contexts[k]? with
          | none =>
              unfold contextDel
              rwa [hpos]
          | some context => exact (contextDel_keeps hpos).handles h

/-- An application that is unregistered takes its own contexts along. -/
theorem Counts.unregisterApplication_keeps (h : d.Counts) (hapid : apid.Canonical) :
    Keeps (fun key => (ofLex key).1 ≠ apid) (· ≠ apid) d (d.unregisterApplication apid) where
  tracks t ht := by
    have htrack : MctDaemonContext.track ∘ withoutHandle = MctDaemonContext.track := rfl
    have hdeletes := congrArg (List.map MctDaemonContext.track) (h.unregisterApplication hapid).2
    rw [List.map_map, List.map_map, htrack] at hdeletes
    rw [tracks, hdeletes, tracks, List.mem_map, List.mem_map]
    apply exists_congr
    intro context
    rw [List.mem_filter]
    constructor
    · exact fun hmem => ⟨hmem.1.1, hmem.2⟩
    · intro hmem
      refine ⟨⟨hmem.1, ?_⟩, hmem.2⟩
      rw [decide_eq_true_eq]
      rintro rfl
      exact ht (by rw [← hmem.2]; rfl)
  apids other hother hmem := by
    unfold MctDaemonUsers.unregisterApplication
    cases hfound : d.applicationFind apid with
    | none => exact hmem
    | some i =>
        obtain ⟨application, hi, hid⟩ := applicationFind_sound hfound
        have hdown := h.contextsDelDown (d.offsetBase i) application.numContexts.toNat
        have hsame := @contextsDelDown_apids d (d.offsetBase i) application.numContexts.toNat
        have hlookup : d.apids[i]? = some application.apid := by
          rw [MctDaemonUsers.apids, List.getElem?_map, hi, Option.map_some]
        rw [← hsame, MctDaemonUsers.apids, List.getElem?_map, Option.map_eq_some_iff] at hlookup
        obtain ⟨entry, hentry, hentryId⟩ := hlookup
        simp only [hi]
        apply ((hdown.tables.applicationDel hentry).2.2 other).mpr
        rw [hsame, hentryId, hid, hapid]
        exact ⟨hmem, hother⟩
  handles hopen := by
    unfold MctDaemonUsers.unregisterApplication
    split
    · exact hopen
    · split
      · exact hopen
      · exact handlesOpen_applicationDel _ (handlesOpen_contextsDelDown _ _ hopen)

end Contexts

end MctDaemonUsers

section Runs

open MctDaemonUsers

def contextAssignment (apid : ID4) : UserMessage → Option (ID4 × Option Int)
  | .registerContext other ctid _ _ logLevelPos _ _ _ =>
      if other = apid then some (ctid, some logLevelPos) else none
  | .unregisterContext other ctid => if other = apid then some (ctid, none) else none
  | _ => none

/-- Applications send canonical identifiers, the pipe of one that registers can be opened, and no
message about the block mode fails with EPIPE, whichever application it is for. The application
itself is alive: it keeps registered and registers its contexts with valid levels. -/
def UserMessage.Proper (ipc : MctIpc) (apid : ID4) : UserMessage → Prop
  | .registerApplication other _ _ fd opened _ writes =>
      other.Canonical ∧ (openUserHandle ipc fd opened).1 ≠ 0 ∧ ∀ i, (writes i).epipe = false
  | .registerContext other ctid logLevel traceStatus _ _ _ _ =>
      other.Canonical ∧ (other = apid →
        ctid.Canonical ∧ ctid.isEmpty = false ∧ LevelsValid logLevel traceStatus)
  | .unregisterApplication other => other.Canonical ∧ other ≠ apid
  | .unregisterContext other ctid => other.Canonical ∧ (other = apid → ctid.Canonical)
  | .setAppLlTs other _ _ _ => other.Canonical
  | .updateBlockmode _ _ writes => ∀ i, (writes i).epipe = false
  | .contextsClear => False

/-- What the daemon keeps of an application that is registered. -/
structure ServesApplication (apid : ID4) (d : MctDaemonUsers) : Prop where
  counts : d.Counts
  handles : d.HandlesOpen
  registered : apid ∈ d.apids

variable {d : MctDaemonUsers} {ipc : MctIpc} {apid : ID4} {message : UserMessage}

/-- Where no write is answered with EPIPE, no application is lost. -/
theorem harmless_blockmodeSends (d : MctDaemonUsers) (name : ID4) (blockMode : Int)
    {writes : Nat → SendResult} (hwrites : ∀ i, (writes i).epipe = false) :
    Harmless (d.blockmodeSends name blockMode writes) := by
  have hat : ∀ (d : MctDaemonUsers) (i j : Nat),
      Harmless (d.blockmodeSendAt i blockMode (writes j)) := by
    intro d i j send hsend _ hepipe
    unfold blockmodeSendAt at hsend
    split at hsend
    · exact absurd hsend List.not_mem_nil
    · split at hsend
      · rw [List.mem_singleton.mp hsend, userLogOut2_epipe _ (hwrites j)] at hepipe
        exact absurd hepipe Bool.false_ne_true
      · exact absurd hsend List.not_mem_nil
  have hfrom : ∀ (counts : List Nat) (d : MctDaemonUsers),
      Harmless (blockmodeSendsFrom blockMode writes counts d) := by
    intro counts
    induction counts with
    | nil => exact fun _ _ hsend => absurd hsend List.not_mem_nil
    | cons count counts ih =>
        intro d send hsend
        rcases List.mem_append.mp hsend with hfirst | hlater
        · exact hat d count count send hfirst
        · exact ih _ send hlater
  unfold blockmodeSends
  split
  · exact fun _ hsend => absurd hsend List.not_mem_nil
  · split
    · exact hfrom _ d
    · split
      · exact fun _ hsend => absurd hsend List.not_mem_nil
      · exact hat d _ 0

theorem UserMessage.Proper.canonical (h : message.Proper ipc apid) : message.Canonical := by
  cases message with
  | registerApplication => exact h.1
  | registerContext => exact h.1
  | unregisterApplication => exact h.1
  | setAppLlTs => exact h
  | unregisterContext => trivial
  | updateBlockmode => trivial
  | contextsClear => trivial

theorem UserMessage.Proper.harmless (h : message.Proper ipc apid) (d : MctDaemonUsers) :
    BlockmodeHarmless ipc d message := by
  cases message with
  | registerApplication =>
      simp only [BlockmodeHarmless]
      split
      · trivial
      · exact harmless_blockmodeSends _ _ _ h.2.2
  | updateBlockmode => exact harmless_blockmodeSends d _ _ h
  | registerContext => trivial
  | unregisterApplication => trivial
  | setAppLlTs => trivial
  | unregisterContext => trivial
  | contextsClear => trivial

/-- A key of another application. -/
theorem ne_of_fst_ne {other ctid : ID4} {key : ID4 ×ₗ ID4} (hkey : (ofLex key).1 = apid)
    (hother : other ≠ apid) : key ≠ toLex (other, ctid) := by
  rintro rfl
  exact hother hkey

/-- A message that assigns nothing to the contexts of the application leaves them alone. -/
theorem messageStep_keeps (h : d.Counts) (hproper : message.Proper ipc apid)
    (hnone : contextAssignment apid message = none) :
    Keeps (fun key => (ofLex key).1 = apid) (· = apid) d (messageStep ipc d message).2 := by
  cases message with
  | registerApplication other pid description fd opened logState writes =>
      exact (quiet_registerApplication hproper.2.1 other pid description logState
        hproper.2.2).keeps _ _
  | registerContext other ctid logLevel traceStatus logLevelPos description storageLogLevel write =>
      have hother : other ≠ apid := by
        intro hsame
        simp only [contextAssignment, if_pos hsame] at hnone
        cases hnone
      apply (registerContext_keeps logLevel traceStatus logLevelPos description storageLogLevel
        write).mono
      · intro key hkey
        rw [hproper.1]
        exact ne_of_fst_ne hkey hother
      · exact fun _ _ => trivial
  | unregisterApplication other =>
      apply (h.unregisterApplication_keeps hproper.1).mono
      · exact fun key hkey => hkey ▸ hproper.2.symm
      · exact fun _ hsame => hsame ▸ hproper.2.symm
  | unregisterContext other ctid =>
      have hother : other ≠ apid := by
        intro hsame
        simp only [contextAssignment, if_pos hsame] at hnone
        cases hnone
      apply unregisterContext_keeps.mono
      · intro key hkey
        rw [hproper.1]
        exact ne_of_fst_ne hkey hother
      · exact fun _ _ => trivial
  | setAppLlTs other logLevel traceStatus writes =>
      exact (quiet_setAppLlTs logLevel traceStatus writes).keeps _ _
  | updateBlockmode name blockMode writes =>
      exact (quiet_userUpdateBlockmode name blockMode hproper).keeps _ _
  | contextsClear => exact hproper.elim

/-- A message about one context assigns its position, and leaves the other ones alone. -/
theorem ServesApplication.assigns (h : ServesApplication apid d) (hapid : apid.isEmpty = false)
    (hproper : message.Proper ipc apid) {ctid : ID4} {value : Option Int}
    (hsome : contextAssignment apid message = some (ctid, value)) :
    Keeps (· ≠ toLex (apid, ctid)) (fun _ => True) d (messageStep ipc d message).2 ∧
      (messageStep ipc d message).2.registeredAt apid ctid = value := by
  have hcounts := messageStep_counts ipc message h.counts hproper.canonical (hproper.harmless d)
  have htables := hcounts.tables
  cases message with
  | registerContext other name logLevel traceStatus logLevelPos description storageLogLevel write =>
      simp only [contextAssignment] at hsome
      split at hsome
      · next hsame =>
          subst hsame
          cases hsome
          obtain ⟨hcanonical, hown⟩ := hproper
          obtain ⟨hctid, hnonempty, hlevels⟩ := hown rfl
          have hfind := @Tables.applicationFind_isSome _ h.counts.tables other
            fun _ => .inl hcanonical
          rw [hcanonical] at hfind
          have hkeeps := @registerContext_keeps d other ctid logLevel traceStatus logLevelPos
            description storageLogLevel write
          have htrack := @registerContext_track d other ctid logLevel traceStatus logLevelPos
            description storageLogLevel write h.handles (hfind.mpr h.registered)
            (by rw [hapid, hnonempty]; rfl) hlevels
          rw [hcanonical, hctid] at hkeeps htrack
          exact ⟨hkeeps, (htables.registeredAt_eq_some_iff _ _ _).mpr htrack⟩
      · cases hsome
  | unregisterContext other name =>
      simp only [contextAssignment] at hsome
      split at hsome
      · next hsame =>
          subst hsame
          cases hsome
          obtain ⟨hcanonical, hown⟩ := hproper
          have hctid := hown rfl
          have hkeeps := @unregisterContext_keeps d other ctid
          rw [hcanonical, hctid] at hkeeps
          refine ⟨hkeeps, ?_⟩
          apply Option.eq_none_iff_forall_not_mem.mpr
          intro pos hpos
          exact h.counts.tables.unregisterContext_gone hcanonical hctid pos
            ((htables.registeredAt_eq_some_iff _ _ _).mp hpos)
      · cases hsome
  | registerApplication => cases hsome
  | unregisterApplication => cases hsome
  | setAppLlTs => cases hsome
  | updateBlockmode => cases hsome
  | contextsClear => cases hsome

/-- One message: the application is served on, and its contexts follow the message. -/
theorem ServesApplication.step (h : ServesApplication apid d) (hapid : apid.isEmpty = false)
    (hproper : message.Proper ipc apid) :
    ServesApplication apid (messageStep ipc d message).2 ∧
      (messageStep ipc d message).2.registeredAt apid =
        replay (d.registeredAt apid) (contextAssignment apid message).toList := by
  have hcounts := messageStep_counts ipc message h.counts hproper.canonical (hproper.harmless d)
  cases hassign : contextAssignment apid message with
  | none =>
      have hkeeps := messageStep_keeps h.counts hproper hassign
      refine ⟨⟨hcounts, hkeeps.handles h.handles, hkeeps.apids apid rfl h.registered⟩, ?_⟩
      funext ctid
      exact hkeeps.registeredAt_eq h.counts.tables hcounts.tables rfl
  | some op =>
      obtain ⟨ctid, value⟩ := op
      obtain ⟨hkeeps, hvalue⟩ := h.assigns hapid hproper hassign
      refine ⟨⟨hcounts, hkeeps.handles h.handles, hkeeps.apids apid trivial h.registered⟩, ?_⟩
      funext other
      rw [Option.toList_some, replay_cons, replay_nil]
      by_cases hother : other = ctid
      · rw [hother, Function.update_self, hvalue]
      · rw [Function.update_of_ne hother]
        apply hkeeps.registeredAt_eq h.counts.tables hcounts.tables
        intro hsame
        exact hother (congrArg Prod.snd (toLex.injective hsame))

/-- An application that registers is served from then on, and its contexts are as before. -/
theorem servesApplication_registered (hcounts : d.Counts) (hopen : d.HandlesOpen)
    (hapid : apid.isEmpty = false) {pid fd opened : Int} {description : List Char}
    {logState : SendResult} {writes : Nat → SendResult}
    (hproper : (UserMessage.registerApplication apid pid description fd opened logState
      writes).Proper ipc apid) :
    ServesApplication apid (d.registerApplication ipc apid pid description fd opened logState
        writes).2 ∧
      (d.registerApplication ipc apid pid description fd opened logState writes).2.registeredAt
        apid = d.registeredAt apid := by
  have hnext := messageStep_counts ipc _ hcounts hproper.canonical (hproper.harmless d)
  have hkeeps := messageStep_keeps hcounts hproper rfl
  obtain ⟨hcanonical, _, hwrites⟩ := hproper
  refine ⟨⟨hnext, hkeeps.handles hopen, ?_⟩, ?_⟩
  · obtain ⟨hsome, _, _, hmem⟩ := hcounts.tables.applicationAdd ipc (ne_true_of_eq_false hapid)
      (.inl hcanonical) pid (some description) fd opened
    have hstored := (hmem apid).mpr (.inl hcanonical.symm)
    unfold MctDaemonUsers.registerApplication
    generalize d.applicationAdd ipc apid pid (some description) fd opened = result at hsome hstored
    obtain ⟨application, added⟩ := result
    cases application with
    | none => cases hsome
    | some i =>
        exact ((quiet_userSendLogState i logState).trans
          (quiet_userUpdateBlockmode apid _ hwrites)).apids apid trivial hstored
  · funext ctid
    exact hkeeps.registeredAt_eq hcounts.tables hnext.tables rfl

/-- Whatever all applications send in whatever order, as long as no block mode message fails with
EPIPE, the contexts of one of them are those that its own messages left: each is registered at the
position that its last registration named, unless it was unregistered since. -/
theorem contexts_follow_own_messages (ipc : MctIpc) {apid : ID4} (hapid : apid.isEmpty = false)
    {d : MctDaemonUsers} (hserving : ServesApplication apid d) (messages : List UserMessage)
    (hproper : ∀ message ∈ messages, message.Proper ipc apid) :
    ServesApplication apid (runOps (messageStep ipc) d messages).2 ∧
      (runOps (messageStep ipc) d messages).2.registeredAt apid =
        replay (d.registeredAt apid) (messages.filterMap (contextAssignment apid)) :=
  runOps_replay (messageStep ipc) (fun d => d.registeredAt apid) (contextAssignment apid)
    (fun _ _ hserving hproper => hserving.step hapid hproper) hserving messages hproper

/-- `APP1` registers two contexts and takes one back, while `APP2` registers one of the same
name and unregisters. -/
def interleavedMessages : List UserMessage :=
  [.registerContext (setId ['A', 'P', 'P', '1']) (setId ['C', 'T', 'X']) (-2) (-2) 0 [] (-1)
      ⟨true, false⟩,
    .registerApplication (setId ['A', 'P', 'P', '2']) 11 [] 6 0 ⟨true, false⟩
      (fun _ => ⟨true, false⟩),
    .registerContext (setId ['A', 'P', 'P', '2']) (setId ['C', 'T', 'X']) 4 0 7 [] (-1)
      ⟨true, false⟩,
    .registerContext (setId ['A', 'P', 'P', '1']) (setId ['N', 'E', 'W']) 4 0 1 [] (-1)
      ⟨true, false⟩,
    .unregisterApplication (setId ['A', 'P', 'P', '2']),
    .unregisterContext (setId ['A', 'P', 'P', '1']) (setId ['C', 'T', 'X'])]

theorem interleavedMessages_proper : ∀ message ∈ interleavedMessages,
    message.Proper .unixSocket (setId ['A', 'P', 'P', '1']) := by
  intro message hmem
  simp only [interleavedMessages, List.mem_cons, List.not_mem_nil, or_false] at hmem
  rcases hmem with rfl | rfl | rfl | rfl | rfl | rfl
  · exact ⟨by decide, fun _ => by decide⟩
  · exact ⟨by decide, by decide, fun _ => rfl⟩
  · exact ⟨by decide, fun _ => by decide⟩
  · exact ⟨by decide, fun _ => by decide⟩
  · exact ⟨by decide, by decide⟩
  · exact ⟨by decide, fun _ => by decide⟩

/-- The tables of a daemon at which only `APP1` is registered. -/
def oneApplication : MctDaemonUsers :=
  ((⟨true, [], [], 4, 0, false, false, 0⟩ : MctDaemonUsers).registerApplication .unixSocket
    (setId ['A', 'P', 'P', '1']) 10 [] 5 0 ⟨true, false⟩ fun _ => ⟨true, false⟩).2

theorem oneApplication_served : ServesApplication (setId ['A', 'P', 'P', '1']) oneApplication := by
  apply And.left
  apply @servesApplication_registered ⟨true, [], [], 4, 0, false, false, 0⟩ .unixSocket
  · exact counts_empty ⟨rfl, rfl⟩ rfl
  · exact fun _ hmem => absurd hmem List.not_mem_nil
  · decide
  · exact ⟨by decide, by decide, fun _ => rfl⟩

theorem contexts_follow_own_messages_two :
    ServesApplication (setId ['A', 'P', 'P', '1'])
        (runOps (messageStep .unixSocket) oneApplication interleavedMessages).2 ∧
      (runOps (messageStep .unixSocket) oneApplication interleavedMessages).2.registeredAt
          (setId ['A', 'P', 'P', '1']) =
        replay (oneApplication.registeredAt (setId ['A', 'P', 'P', '1']))
          (interleavedMessages.filterMap (contextAssignment (setId ['A', 'P', 'P', '1']))) :=
  contexts_follow_own_messages .unixSocket (by decide) oneApplication_served interleavedMessages
    interleavedMessages_proper

end Runs

end MctDaemon.Daemon
