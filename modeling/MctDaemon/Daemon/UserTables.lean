import MctDaemon.Daemon.Users
import MctDaemon.Lib.Run

/-!
The tables of applications and contexts as keyed maps. An identifier that is
not canonical is compared as it is with the bounds of a table, and in canonical
form with the entries, so that the last entry is missed; runs that do not
search for the last entry by such an identifier keep the tables sorted and
free of duplicates.
-/

namespace MctDaemon.Daemon

open Lib Shared

section Find

/-- The identifier as it is is not above the identifiers of a table that holds
its canonical form. -/
def NotAbove (apids : List ID4) (apid : ID4) : Prop :=
  apid.Canonical ∨ ∃ other ∈ apids, setId apid.chars < other

instance (apids : List ID4) (apid : ID4) : Decidable (NotAbove apids apid) :=
  inferInstanceAs (Decidable (_ ∨ _))

/-- Identifiers in order, as the tables store them. -/
structure Stored (apids : List ID4) : Prop where
  ordered : apids.Pairwise (· ≤ ·)
  canonical : ∀ apid ∈ apids, apid.Canonical
  nonempty : ∀ apid ∈ apids, ¬ apid.isEmpty

theorem Stored.head_le {apids : List ID4} (h : Stored apids) {first apid : ID4}
    (hfirst : apids.head? = some first) (hmem : apid ∈ apids) : first ≤ apid := by
  cases apids with
  | nil => cases hfirst
  | cons a apids =>
      rw [List.head?_cons, Option.some_inj] at hfirst
      rcases List.mem_cons.mp hmem with rfl | hmem
      · exact hfirst.ge
      · rw [← hfirst]
        exact List.rel_of_pairwise_cons h.ordered hmem

theorem Stored.le_getLast {apids : List ID4} (h : Stored apids) {last apid : ID4}
    (hlast : apids.getLast? = some last) (hmem : apid ∈ apids) : apid ≤ last := by
  obtain ⟨front, rfl⟩ := List.getLast?_eq_some_iff.mp hlast
  rcases List.mem_append.mp hmem with hfront | hmem
  · exact (List.pairwise_append.mp h.ordered).2.2 apid hfront last (List.mem_singleton_self last)
  · exact (List.mem_singleton.mp hmem).le

theorem Stored.sublist {apids apids' : List ID4} (h : Stored apids) (hsub : apids'.Sublist apids) :
    Stored apids' :=
  ⟨h.ordered.sublist hsub, fun apid hmem => h.canonical apid (hsub.subset hmem),
    fun apid hmem => h.nonempty apid (hsub.subset hmem)⟩

theorem withinRange_of_mem {apids : List ID4} (h : Stored apids) {apid : ID4}
    (habove : NotAbove apids apid) (hmem : setId apid.chars ∈ apids) :
    withinRange apids apid := by
  unfold withinRange
  cases hfirst : apids.head? with
  | none =>
      rw [List.head?_eq_none_iff] at hfirst
      rw [hfirst] at hmem
      cases hmem
  | some first =>
      cases hlast : apids.getLast? with
      | none =>
          rw [List.getLast?_eq_none_iff] at hlast
          rw [hlast] at hmem
          cases hmem
      | some last =>
          simp only [Bool.decide_and, Bool.and_eq_true, decide_eq_true_eq, not_lt]
          refine ⟨(h.head_le hfirst hmem).trans (setId_le apid), ?_⟩
          rcases habove with hcanonical | ⟨other, hother, hlt⟩
          · rw [hcanonical] at hmem
            exact h.le_getLast hlast hmem
          · exact (lt_of_setId_lt (h.canonical other hother) hlt).le.trans
              (h.le_getLast hlast hother)

/-- An identifier within the range is not above the last one. -/
theorem notAbove_of_withinRange {apids : List ID4} {apid : ID4} (h : withinRange apids apid) :
    NotAbove apids apid := by
  unfold withinRange at h
  split at h
  · next first last _ hlast =>
      simp only [Bool.decide_and, Bool.and_eq_true, decide_eq_true_eq, not_lt] at h
      by_cases hcanonical : apid.Canonical
      · exact .inl hcanonical
      · refine .inr ⟨last, List.mem_of_getLast? hlast, ?_⟩
        exact (lt_of_le_of_ne (setId_le apid) hcanonical).trans_le h.2
  · cases h

end Find

namespace MctDaemonUsers

def apids (d : MctDaemonUsers) : List ID4 := d.applications.map MctDaemonApplication.apid

def contextKeys (d : MctDaemonUsers) : List (ID4 ×ₗ ID4) := d.contexts.map MctDaemonContext.key

def contextApids (d : MctDaemonUsers) : List ID4 := d.contexts.map MctDaemonContext.apid

/-- Both tables increase, and their identifiers are as `mct_set_id` leaves them. -/
structure Tables (d : MctDaemonUsers) : Prop where
  applications : Increasing MctDaemonApplication.apid d.applications
  contexts : Increasing MctDaemonContext.key d.contexts
  apids : Stored d.apids
  contextApids : Stored d.contextApids
  ctids : ∀ context ∈ d.contexts, ¬ context.ctid.isEmpty

/-- The search for the application does not miss it. -/
def Reaches (d : MctDaemonUsers) (apid : ID4) : Prop :=
  setId apid.chars ∈ d.apids → NotAbove d.apids apid

/-- The search for the context does not miss it. -/
def ReachesContext (d : MctDaemonUsers) (apid ctid : ID4) : Prop :=
  toLex (setId apid.chars, setId ctid.chars) ∈ d.contextKeys → NotAbove d.contextApids apid

/-- Neither the application of the context is missed nor, before and after it is
added, the context. -/
def ReachesAll (d : MctDaemonUsers) (apid : ID4) : Prop :=
  setId apid.chars ∈ d.apids → NotAbove d.apids apid ∧ NotAbove d.contextApids apid

instance (d : MctDaemonUsers) (apid : ID4) : Decidable (d.ReachesAll apid) :=
  inferInstanceAs (Decidable (_ → _))

variable {d : MctDaemonUsers}

theorem applicationFind_sound {apid : ID4} {i : Nat} (h : d.applicationFind apid = some i) :
    ∃ application, d.applications[i]? = some application ∧
      application.apid = setId apid.chars := by
  unfold applicationFind at h
  split at h
  · cases h
  · split at h
    · exact bsearch_sound h
    · cases h

theorem contextFind_sound {apid ctid : ID4} {k : Nat} (h : d.contextFind apid ctid = some k) :
    ∃ context, d.contexts[k]? = some context ∧ context.apid = setId apid.chars ∧
      context.ctid = setId ctid.chars := by
  unfold contextFind at h
  split at h
  · cases h
  · split at h
    · obtain ⟨context, hk, hkey⟩ := bsearch_sound h
      have hpair := toLex.injective hkey
      exact ⟨context, hk, congrArg Prod.fst hpair, congrArg Prod.snd hpair⟩
    · cases h

/-- An application is found just when its identifier is stored. -/
theorem Tables.applicationFind_isSome (h : d.Tables) {apid : ID4}
    (hreaches : d.Reaches apid) :
    (d.applicationFind apid).isSome ↔ setId apid.chars ∈ d.apids := by
  constructor
  · intro hsome
    obtain ⟨i, hi⟩ := Option.isSome_iff_exists.mp hsome
    obtain ⟨application, hlookup, hapid⟩ := applicationFind_sound hi
    rw [← hapid]
    exact List.mem_map_of_mem (List.mem_of_getElem? hlookup)
  · intro hmem
    have hnonempty := h.apids.nonempty _ hmem
    rw [isEmpty_setId] at hnonempty
    have hwithin : withinRange (d.applications.map MctDaemonApplication.apid) apid :=
      withinRange_of_mem h.apids (hreaches hmem) hmem
    unfold applicationFind
    rw [if_neg hnonempty, if_pos hwithin]
    exact (bsearch_isSome_iff h.applications).mpr hmem

/-- A context is found just when its identifiers are stored. -/
theorem Tables.contextFind_isSome (h : d.Tables) {apid ctid : ID4}
    (hreaches : d.ReachesContext apid ctid) :
    (d.contextFind apid ctid).isSome ↔
      toLex (setId apid.chars, setId ctid.chars) ∈ d.contextKeys := by
  constructor
  · intro hsome
    obtain ⟨k, hk⟩ := Option.isSome_iff_exists.mp hsome
    obtain ⟨context, hlookup, hapid, hctid⟩ := contextFind_sound hk
    rw [← hapid, ← hctid]
    exact List.mem_map_of_mem (f := MctDaemonContext.key) (List.mem_of_getElem? hlookup)
  · intro hmem
    obtain ⟨context, hcontext, hkey⟩ := List.mem_map.mp hmem
    have hpair := toLex.injective hkey
    have hapid : context.apid = setId apid.chars := congrArg Prod.fst hpair
    have hctid : context.ctid = setId ctid.chars := congrArg Prod.snd hpair
    have hstored : setId apid.chars ∈ d.contextApids := by
      rw [← hapid]
      exact List.mem_map_of_mem hcontext
    have hnonempty := h.contextApids.nonempty _ hstored
    have hnonempty' := h.ctids context hcontext
    rw [isEmpty_setId] at hnonempty
    rw [hctid, isEmpty_setId] at hnonempty'
    have hwithin : withinRange (d.contexts.map MctDaemonContext.apid) apid :=
      withinRange_of_mem h.contextApids (hreaches hmem) hstored
    unfold contextFind
    rw [if_neg (by simp [hnonempty, hnonempty']), if_pos hwithin]
    exact (bsearch_isSome_iff h.contexts).mpr hmem

section Frame

def SameKeys (d d' : MctDaemonUsers) : Prop :=
  d'.apids = d.apids ∧ d'.contextKeys = d.contextKeys

def countEntries (d : MctDaemonUsers) : List (ID4 × Int) :=
  d.applications.map fun application => (application.apid, application.numContexts)

/-- The identifiers and the numbers of contexts are the same. -/
structure SameEntries (d d' : MctDaemonUsers) : Prop where
  ownEcu : d'.ownEcu = d.ownEcu
  countEntries : d'.countEntries = d.countEntries
  contextKeys : d'.contextKeys = d.contextKeys

theorem SameEntries.refl (d : MctDaemonUsers) : SameEntries d d := ⟨rfl, rfl, rfl⟩

theorem SameEntries.trans {d₁ d₂ d₃ : MctDaemonUsers} (h : SameEntries d₁ d₂)
    (h' : SameEntries d₂ d₃) : SameEntries d₁ d₃ :=
  ⟨h'.ownEcu.trans h.ownEcu, h'.countEntries.trans h.countEntries,
    h'.contextKeys.trans h.contextKeys⟩

theorem apids_eq_map_entries (d : MctDaemonUsers) : d.apids = d.countEntries.map Prod.fst := by
  simp only [apids, countEntries, List.map_map]
  rfl

theorem SameEntries.sameKeys {d' : MctDaemonUsers} (h : SameEntries d d') : SameKeys d d' := by
  refine ⟨?_, h.contextKeys⟩
  rw [apids_eq_map_entries, h.countEntries, ← apids_eq_map_entries]

theorem contextApids_eq_map_keys (d : MctDaemonUsers) :
    d.contextApids = d.contextKeys.map fun key => (ofLex key).1 := by
  simp only [contextApids, contextKeys, List.map_map]
  rfl

theorem sameKeys_modifyApplication (i : Nat) {f : MctDaemonApplication → MctDaemonApplication}
    (hf : ∀ application, (f application).apid = application.apid) :
    SameKeys d (d.modifyApplication i f) := ⟨map_modify_of_keep hf _ _, rfl⟩

theorem sameEntries_modifyApplication (i : Nat) {f : MctDaemonApplication → MctDaemonApplication}
    (hf : ∀ application, (f application).apid = application.apid ∧
      (f application).numContexts = application.numContexts) :
    SameEntries d (d.modifyApplication i f) := by
  refine ⟨rfl, map_modify_of_keep ?_ _ _, rfl⟩
  intro application
  rw [(hf application).1, (hf application).2]

theorem invalidate_key (fd : Int) (context : MctDaemonContext) :
    (context.invalidate fd).key = context.key := by
  unfold MctDaemonContext.invalidate
  split <;> rfl

theorem sameEntries_applicationsInvalidateFd (fd : Int) :
    SameEntries d (d.applicationsInvalidateFd fd) := by
  refine ⟨rfl, ?_, rfl⟩
  simp only [countEntries, applicationsInvalidateFd, List.map_map]
  refine List.map_congr_left fun application _ => ?_
  simp only [Function.comp_apply, MctDaemonApplication.invalidate]
  split <;> rfl

theorem sameEntries_contextsInvalidateFd (fd : Int) :
    SameEntries d (d.contextsInvalidateFd fd) := by
  refine ⟨rfl, rfl, ?_⟩
  simp only [contextKeys, contextsInvalidateFd, List.map_map]
  exact List.map_congr_left fun context _ => invalidate_key fd context

theorem sameEntries_applicationResetUserHandle (i : Nat) :
    SameEntries d (d.applicationResetUserHandle i) := by
  unfold applicationResetUserHandle
  split
  · exact .refl d
  · split
    · exact .refl d
    · split
      · exact (sameEntries_contextsInvalidateFd _).trans
          (sameEntries_modifyApplication i fun _ => ⟨rfl, rfl⟩)
      · exact sameEntries_modifyApplication i fun _ => ⟨rfl, rfl⟩

theorem sameEntries_changePid (i : Nat) (pid : Int) : SameEntries d (d.changePid i pid) := by
  unfold changePid
  split
  · exact .refl d
  · split
    · exact (sameEntries_applicationResetUserHandle i).trans
        (sameEntries_modifyApplication i fun _ => ⟨rfl, rfl⟩)
    · exact .refl d

theorem sameEntries_openHandle (ipc : MctIpc) (i : Nat) (pid fd opened : Int) :
    SameEntries d (d.openHandle ipc i pid fd opened) := by
  unfold openHandle
  split
  · exact .refl d
  · split
    · exact ((sameEntries_applicationsInvalidateFd _).trans
        (sameEntries_contextsInvalidateFd _)).trans
          (sameEntries_modifyApplication i fun _ => ⟨rfl, rfl⟩)
    · exact .refl d

theorem sameEntries_storeApplication (ipc : MctIpc) (i : Nat) (pid : Int)
    (description : Option (List Char)) (fd opened : Int) :
    SameEntries d (d.storeApplication ipc i pid description fd opened) := by
  have hdescription : SameEntries d (d.modifyApplication i fun application =>
      { application with applicationDescription := description }) :=
    sameEntries_modifyApplication i fun _ => ⟨rfl, rfl⟩
  exact (hdescription.trans (sameEntries_changePid i pid)).trans
    (sameEntries_openHandle ipc i pid fd opened)

/-- Tables with some of the entries are tables. -/
theorem Tables.of_sublist (h : d.Tables) {d' : MctDaemonUsers} (hapids : d'.apids.Sublist d.apids)
    (hkeys : d'.contextKeys.Sublist d.contextKeys) : d'.Tables := by
  refine ⟨List.Pairwise.sublist hapids h.applications, List.Pairwise.sublist hkeys h.contexts,
    h.apids.sublist hapids, ?_, ?_⟩
  · have hcontextApids := h.contextApids
    rw [contextApids_eq_map_keys] at hcontextApids ⊢
    exact hcontextApids.sublist (hkeys.map _)
  · intro context hmem
    have hkey : context.key ∈ d.contextKeys := hkeys.subset (List.mem_map_of_mem hmem)
    obtain ⟨other, hother, hsame⟩ := List.mem_map.mp hkey
    have hctid : other.ctid = context.ctid := congrArg Prod.snd (toLex.injective hsame)
    rw [← hctid]
    exact h.ctids other hother

theorem Tables.of_sameKeys (h : d.Tables) {d' : MctDaemonUsers} (hsame : SameKeys d d') :
    d'.Tables :=
  h.of_sublist (by rw [hsame.1]) (by rw [hsame.2])

end Frame

section Steps

theorem Stored.of_increasing {apids : List ID4} (hincreasing : apids.Pairwise (· < ·))
    (hcanonical : ∀ apid ∈ apids, apid.Canonical) (hnonempty : ∀ apid ∈ apids, ¬ apid.isEmpty) :
    Stored apids := ⟨hincreasing.imp le_of_lt, hcanonical, hnonempty⟩

theorem contextApids_ordered {contexts : List MctDaemonContext}
    (h : Increasing MctDaemonContext.key contexts) :
    (contexts.map MctDaemonContext.apid).Pairwise (· ≤ ·) := by
  rw [List.pairwise_map]
  refine (List.pairwise_map.mp h).imp ?_
  intro a b hlt
  exact (Prod.Lex.lt_iff.mp hlt).elim le_of_lt fun hsame => le_of_eq hsame.1

theorem mem_sortApplications {apid : ID4} : apid ∈ d.sortApplications.apids ↔ apid ∈ d.apids :=
  mem_map_sortByKey _ _

/-- The tables are in order again after a new application is sorted in. -/
theorem Tables.sorted (h : d.Tables) {stored : MctDaemonUsers} {apid : ID4}
    (hsame : SameKeys (d.appendApplication apid) stored) (hnew : apid ∉ d.apids)
    (hcanonical : apid.Canonical) (hnonempty : ¬ apid.isEmpty) :
    stored.sortApplications.Tables ∧
      ∀ other, other ∈ stored.sortApplications.apids ↔ other = apid ∨ other ∈ d.apids := by
  have happend : stored.apids = d.apids ++ [apid] := by
    rw [hsame.1]
    exact List.map_append
  have hnodup : stored.apids.Nodup := by
    rw [happend, List.nodup_append]
    refine ⟨h.applications.nodup, List.nodup_singleton _, ?_⟩
    intro a ha b hb hab
    rw [List.mem_singleton] at hb
    exact hnew (hb ▸ hab ▸ ha)
  have hmem : ∀ other, other ∈ stored.sortApplications.apids ↔ other = apid ∨ other ∈ d.apids := by
    intro other
    rw [mem_sortApplications, happend, List.mem_append, List.mem_singleton, or_comm]
  have hincreasing := sortByKey_increasing hnodup
  have hcontexts : ({ d with contexts := stored.contexts } : MctDaemonUsers).Tables :=
    h.of_sameKeys ⟨rfl, hsame.2⟩
  refine ⟨⟨hincreasing, hcontexts.contexts, Stored.of_increasing hincreasing ?_ ?_,
    hcontexts.contextApids, hcontexts.ctids⟩, hmem⟩
  · intro other hother
    rcases (hmem other).mp hother with rfl | hold
    · exact hcanonical
    · exact h.apids.canonical other hold
  · intro other hother
    rcases (hmem other).mp hother with rfl | hold
    · exact hnonempty
    · exact h.apids.nonempty other hold

/-- A registered application is in the table afterwards, and nothing else has
changed among the identifiers. -/
theorem Tables.applicationAdd (h : d.Tables) (ipc : MctIpc) {apid : ID4}
    (hnonempty : ¬ apid.isEmpty) (habove : NotAbove d.apids apid) (pid : Int)
    (description : Option (List Char)) (fd opened : Int) :
    let result := d.applicationAdd ipc apid pid description fd opened
    result.1.isSome ∧ result.2.Tables ∧ result.2.contextKeys = d.contextKeys ∧
      ∀ other, other ∈ result.2.apids ↔ other = setId apid.chars ∨ other ∈ d.apids := by
  have hfind := h.applicationFind_isSome fun _ => habove
  unfold MctDaemonUsers.applicationAdd
  rw [if_neg hnonempty]
  cases hfound : d.applicationFind apid with
  | some i =>
      have hsame :=
        (sameEntries_storeApplication (d := d) ipc i pid description fd opened).sameKeys
      have hmem := hfind.mp (by simp [hfound])
      refine ⟨rfl, h.of_sameKeys hsame, hsame.2, ?_⟩
      intro other
      simp only [hsame.1]
      constructor
      · exact .inr
      · rintro (rfl | hother)
        · exact hmem
        · exact hother
  | none =>
      have hnot : setId apid.chars ∉ d.apids := by
        rw [← hfind, hfound]
        exact Bool.false_ne_true
      have hstored := (sameEntries_storeApplication
        (d := d.appendApplication (setId apid.chars)) ipc
        d.applications.length pid description fd opened).sameKeys
      obtain ⟨htables, hmem⟩ := h.sorted hstored hnot (setId_canonical apid)
        (by rwa [isEmpty_setId])
      refine ⟨?_, htables, hstored.2, hmem⟩
      rw [htables.applicationFind_isSome]
      · exact (hmem _).mpr (.inl rfl)
      · intro _
        rcases habove with hcanonical | ⟨other, hother, hlt⟩
        · exact .inl hcanonical
        · exact .inr ⟨other, (hmem other).mpr (.inr hother), hlt⟩

theorem Tables.applicationDel (h : d.Tables) {pos : Nat} {application : MctDaemonApplication}
    (hpos : d.applications[pos]? = some application) :
    (d.applicationDel pos).Tables ∧ (d.applicationDel pos).contextKeys = d.contextKeys ∧
      ∀ other, other ∈ (d.applicationDel pos).apids ↔
        other ∈ d.apids ∧ other ≠ application.apid := by
  have hsame := (sameEntries_applicationResetUserHandle (d := d) pos).sameKeys
  have htables := h.of_sameKeys hsame
  have hentry : ∃ entry, (d.applicationResetUserHandle pos).applications[pos]? = some entry ∧
      entry.apid = application.apid := by
    have hlookup : d.apids[pos]? = some application.apid := by
      simp only [MctDaemonUsers.apids, List.getElem?_map, hpos, Option.map_some]
    rw [← hsame.1, MctDaemonUsers.apids, List.getElem?_map, Option.map_eq_some_iff] at hlookup
    exact hlookup
  obtain ⟨entry, hentry, hapid⟩ := hentry
  have hmem : ∀ other, other ∈ (d.applicationDel pos).apids ↔
      other ∈ d.apids ∧ other ≠ application.apid := by
    intro other
    rw [← hsame.1, ← hapid]
    exact htables.applications.mem_map_eraseIdx hentry
  have hincreasing : Increasing MctDaemonApplication.apid (d.applicationDel pos).applications :=
    htables.applications.eraseIdx pos
  refine ⟨⟨hincreasing, htables.contexts, Stored.of_increasing hincreasing ?_ ?_,
    htables.contextApids, htables.ctids⟩, hsame.2, hmem⟩
  · intro other hother
    exact h.apids.canonical other ((hmem other).mp hother).1
  · intro other hother
    exact h.apids.nonempty other ((hmem other).mp hother).1

/-- Only contexts have changed: the tables are in order if the contexts are. -/
theorem Tables.withContexts (h : d.Tables) {d' : MctDaemonUsers} (hapids : d'.apids = d.apids)
    (hincreasing : Increasing MctDaemonContext.key d'.contexts)
    (hids : ∀ context ∈ d'.contexts, context.apid.Canonical ∧ ¬ context.apid.isEmpty ∧
      ¬ context.ctid.isEmpty) : d'.Tables := by
  have happlications : ({ d with applications := d'.applications } : MctDaemonUsers).Tables :=
    h.of_sameKeys ⟨hapids, rfl⟩
  refine ⟨happlications.applications, hincreasing, happlications.apids,
    ⟨contextApids_ordered hincreasing, ?_, ?_⟩, fun context hmem => (hids context hmem).2.2⟩
  · intro apid hmem
    obtain ⟨context, hcontext, rfl⟩ := List.mem_map.mp hmem
    exact (hids context hcontext).1
  · intro apid hmem
    obtain ⟨context, hcontext, rfl⟩ := List.mem_map.mp hmem
    exact (hids context hcontext).2.1

theorem Tables.contextIds (h : d.Tables) {context : MctDaemonContext}
    (hmem : context ∈ d.contexts) :
    context.apid.Canonical ∧ ¬ context.apid.isEmpty ∧ ¬ context.ctid.isEmpty :=
  ⟨h.contextApids.canonical _ (List.mem_map_of_mem hmem),
    h.contextApids.nonempty _ (List.mem_map_of_mem hmem), h.ctids context hmem⟩

theorem Tables.insertContext (h : d.Tables) (context : MctDaemonContext)
    (hnew : context.key ∉ d.contextKeys)
    (hids : context.apid.Canonical ∧ ¬ context.apid.isEmpty ∧ ¬ context.ctid.isEmpty) :
    (d.insertContext context).Tables ∧
      ∀ key, key ∈ (d.insertContext context).contextKeys ↔
        key = context.key ∨ key ∈ d.contextKeys := by
  have hincreasing := h.contexts.insert hnew
  constructor
  · refine h.withContexts rfl hincreasing ?_
    intro other hother
    have hmem := (sortByKey_perm _ _).mem_iff.mp hother
    rcases List.mem_append.mp hmem with hold | hnew
    · exact h.contextIds hold
    · rw [List.mem_singleton.mp hnew]
      exact hids
  · intro key
    have hmem := mem_map_sortByKey MctDaemonContext.key (d.contexts ++ [context]) (k := key)
    rw [List.map_append, List.mem_append, List.map_singleton, List.mem_singleton, or_comm] at hmem
    exact hmem

theorem storeContext_key (isNew : Bool) (logLevel traceStatus logLevelPos userHandle : Int)
    (description : Option (List Char)) (context : MctDaemonContext) :
    (d.storeContext isNew logLevel traceStatus logLevelPos userHandle description context).key =
      context.key := rfl

/-- A context that is accepted is in the table afterwards, and nothing else has
changed among the identifiers. -/
theorem Tables.contextAdd (h : d.Tables) {apid : ID4} (hreaches : d.ReachesAll apid)
    (ctid : ID4) (logLevel traceStatus logLevelPos userHandle : Int)
    (description : Option (List Char)) :
    let result := d.contextAdd apid ctid logLevel traceStatus logLevelPos userHandle description
    result.2.Tables ∧ result.2.apids = d.apids ∧
      (result.1 = none ∧ result.2 = d ∨ result.1.isSome ∧
        ∀ key, key ∈ result.2.contextKeys ↔
          key = toLex (setId apid.chars, setId ctid.chars) ∨ key ∈ d.contextKeys) := by
  have hrefused : d.Tables ∧ d.apids = d.apids ∧
      ((none : Option Nat) = none ∧ d = d ∨ (none : Option Nat).isSome ∧
        ∀ key, key ∈ d.contextKeys ↔
          key = toLex (setId apid.chars, setId ctid.chars) ∨ key ∈ d.contextKeys) :=
    ⟨h, rfl, .inl ⟨rfl, rfl⟩⟩
  unfold MctDaemonUsers.contextAdd
  by_cases hempty : (apid.isEmpty || ctid.isEmpty) = true
  · rw [if_pos hempty]
    exact hrefused
  rw [if_neg hempty]
  rw [Bool.or_eq_true, not_or] at hempty
  by_cases hlevel : logLevel < mctLogDefault ∨ mctLogVerbose < logLevel
  · rw [if_pos hlevel]
    exact hrefused
  rw [if_neg hlevel]
  by_cases htrace : traceStatus < mctTraceStatusDefault ∨ mctTraceStatusOn < traceStatus
  · rw [if_pos htrace]
    exact hrefused
  rw [if_neg htrace]
  cases happlication : d.applicationFind apid with
  | none => exact hrefused
  | some i =>
      simp only
      obtain ⟨application, hi, hapid⟩ := applicationFind_sound happlication
      have hregistered : setId apid.chars ∈ d.apids := by
        rw [← hapid]
        exact List.mem_map_of_mem (List.mem_of_getElem? hi)
      have habove := (hreaches hregistered).2
      have hfind : (d.contextFind apid ctid).isSome ↔ _ := h.contextFind_isSome fun _ => habove
      cases hfound : d.contextFind apid ctid with
      | some k =>
          have hkeys : (d.contexts.modify k (d.storeContext false logLevel traceStatus logLevelPos
              userHandle description)).map MctDaemonContext.key = d.contextKeys :=
            map_modify_of_keep (fun context => storeContext_key false _ _ _ _ _ context) _ _
          have hstored := hfind.mp (by simp [hfound])
          refine ⟨h.of_sameKeys ⟨rfl, hkeys⟩, rfl, .inr ⟨rfl, ?_⟩⟩
          intro key
          rw [MctDaemonUsers.contextKeys, hkeys]
          constructor
          · exact .inr
          · rintro (rfl | hmem)
            · exact hstored
            · exact hmem
      | none =>
          have hnot : toLex (setId apid.chars, setId ctid.chars) ∉ d.contextKeys := by
            rw [← hfind, hfound]
            exact Bool.false_ne_true
          simp only
          have hcounted := sameKeys_modifyApplication (d := d) i
            (f := fun application =>
              { application with numContexts := application.numContexts + 1 })
            fun _ => rfl
          obtain ⟨htables, hmem⟩ := (h.of_sameKeys hcounted).insertContext
            (d.storeContext true logLevel traceStatus logLevelPos userHandle description
              (MctDaemonContext.fresh (setId apid.chars) (setId ctid.chars)))
            (by rwa [hcounted.2])
            ⟨setId_canonical apid, fun hapid => hempty.1 ((isEmpty_setId apid).symm.trans hapid),
              fun hctid => hempty.2 ((isEmpty_setId ctid).symm.trans hctid)⟩
          refine ⟨htables, hcounted.1, .inr ⟨?_, ?_⟩⟩
          · rw [htables.contextFind_isSome]
            · exact (hmem _).mpr (.inl rfl)
            · intro _
              rcases habove with hcanonical | ⟨other, hother, hlt⟩
              · exact .inl hcanonical
              · obtain ⟨context, hcontext, rfl⟩ := List.mem_map.mp hother
                refine .inr ⟨context.apid, ?_, hlt⟩
                apply List.mem_map_of_mem
                exact (sortByKey_perm _ _).mem_iff.mpr (List.mem_append_left _ hcontext)
          · intro key
            rw [hmem, hcounted.2]
            rfl

theorem sameApids_modifyApplication (i : Nat) {f : MctDaemonApplication → MctDaemonApplication}
    (hf : ∀ application, (f application).apid = application.apid) :
    (d.modifyApplication i f).apids = d.apids := map_modify_of_keep hf _ _

theorem Tables.contextDel (h : d.Tables) {pos : Nat} {context : MctDaemonContext}
    (hpos : d.contexts[pos]? = some context) :
    (d.contextDel pos).Tables ∧ (d.contextDel pos).apids = d.apids ∧
      ∀ key, key ∈ (d.contextDel pos).contextKeys ↔ key ∈ d.contextKeys ∧ key ≠ context.key := by
  have hcontexts : (d.contextDel pos).contexts = d.contexts.eraseIdx pos := by
    simp only [MctDaemonUsers.contextDel, hpos]
    split <;> rfl
  have hapids : (d.contextDel pos).apids = d.apids := by
    simp only [MctDaemonUsers.contextDel, hpos]
    split
    · rfl
    · exact sameApids_modifyApplication _ fun _ => rfl
  refine ⟨h.withContexts hapids ?_ ?_, hapids, ?_⟩
  · rw [hcontexts]
    exact h.contexts.eraseIdx pos
  · intro other hmem
    rw [hcontexts] at hmem
    exact h.contextIds (List.mem_of_mem_eraseIdx hmem)
  · intro key
    rw [contextKeys, hcontexts]
    exact h.contexts.mem_map_eraseIdx hpos

end Steps

end MctDaemonUsers

section Runs

/-- The calls that change the tables. An entry to be deleted is given by its
position. -/
inductive UserOp where
  | applicationAdd (apid : ID4) (pid : Int) (description : Option (List Char)) (fd opened : Int)
  | applicationDel (pos : Nat)
  | contextAdd (apid ctid : ID4) (logLevel traceStatus logLevelPos userHandle : Int)
      (description : Option (List Char))
  | contextDel (pos : Nat)

/-- What a call reports: an entry under this identifier was added, or deleted. -/
inductive UserEvent where
  | applicationAdded (apid : ID4)
  | applicationDeleted (apid : ID4)
  | contextAdded (key : ID4 ×ₗ ID4)
  | contextDeleted (key : ID4 ×ₗ ID4)
  | refused
  deriving DecidableEq

/-- One call. An entry was added if the call answers with a pointer to it; when it does is said by
`Registered.refused_iff`. -/
def userStep (ipc : MctIpc) (d : MctDaemonUsers) : UserOp → UserEvent × MctDaemonUsers
  | .applicationAdd apid pid description fd opened =>
      let (found, d) := d.applicationAdd ipc apid pid description fd opened
      (if found.isSome then .applicationAdded (setId apid.chars) else .refused, d)
  | .applicationDel pos =>
      match d.applications[pos]? with
      | none => (.refused, d)
      | some application => (.applicationDeleted application.apid, d.applicationDel pos)
  | .contextAdd apid ctid logLevel traceStatus logLevelPos userHandle description =>
      let (found, d) :=
        d.contextAdd apid ctid logLevel traceStatus logLevelPos userHandle description
      (if found.isSome then .contextAdded (toLex (setId apid.chars, setId ctid.chars))
        else .refused, d)
  | .contextDel pos =>
      match d.contexts[pos]? with
      | none => (.refused, d)
      | some context => (.contextDeleted context.key, d.contextDel pos)

/-- The checks of `mct_daemon_context_add` before it searches. -/
def ContextRefused (apid ctid : ID4) (logLevel traceStatus : Int) : Prop :=
  (apid.isEmpty || ctid.isEmpty) ∨ (logLevel < mctLogDefault ∨ mctLogVerbose < logLevel) ∨
    (traceStatus < mctTraceStatusDefault ∨ mctTraceStatusOn < traceStatus)

instance (apid ctid : ID4) (logLevel traceStatus : Int) :
    Decidable (ContextRefused apid ctid logLevel traceStatus) :=
  inferInstanceAs (Decidable (_ ∨ _ ∨ _))

/-- The identifiers of the call do not make it miss the last entry. -/
def SearchesRight (d : MctDaemonUsers) : UserOp → Prop
  | .applicationAdd apid _ _ _ _ => apid.isEmpty ∨ NotAbove d.apids apid
  | .contextAdd apid ctid logLevel traceStatus _ _ _ =>
      ContextRefused apid ctid logLevel traceStatus ∨ d.ReachesAll apid
  | _ => True

instance (d : MctDaemonUsers) (op : UserOp) : Decidable (SearchesRight d op) := by
  cases op <;> simp only [SearchesRight] <;> infer_instance

/-- The call changes the tables: an application that is added has an identifier, and
a context passes the checks and belongs to a registered application. -/
def Admitted (d : MctDaemonUsers) : UserOp → Prop
  | .applicationAdd apid _ _ _ _ => ¬ apid.isEmpty
  | .applicationDel pos => pos < d.applications.length
  | .contextAdd apid ctid logLevel traceStatus _ _ _ =>
      ¬ ContextRefused apid ctid logLevel traceStatus ∧ setId apid.chars ∈ d.apids
  | .contextDel pos => pos < d.contexts.length

open MctDaemonUsers UserEvent

/-- The tables hold what was added and not deleted since. -/
structure Registered (events : List UserEvent) (d : MctDaemonUsers) : Prop where
  tables : d.Tables
  applications : ∀ apid, apid ∈ d.apids ↔
    Lasts (applicationAdded apid) (applicationDeleted apid) events
  contexts : ∀ key, key ∈ d.contextKeys ↔ Lasts (contextAdded key) (contextDeleted key) events

variable {events : List UserEvent} {d : MctDaemonUsers}

theorem contextAdd_refused {apid ctid : ID4} {logLevel traceStatus : Int}
    (h : ContextRefused apid ctid logLevel traceStatus) (logLevelPos userHandle : Int)
    (description : Option (List Char)) :
    d.contextAdd apid ctid logLevel traceStatus logLevelPos userHandle description = (none, d) := by
  unfold MctDaemonUsers.contextAdd
  by_cases hempty : (apid.isEmpty || ctid.isEmpty) = true
  · rw [if_pos hempty]
  · by_cases hlevel : logLevel < mctLogDefault ∨ mctLogVerbose < logLevel
    · rw [if_neg hempty, if_pos hlevel]
    · rw [if_neg hempty, if_neg hlevel, if_pos ((h.resolve_left hempty).resolve_left hlevel)]

/-- A call that only adds an application. -/
theorem Registered.addApplication (h : Registered events d) {d' : MctDaemonUsers} {apid : ID4}
    (htables : d'.Tables) (hkeys : d'.contextKeys = d.contextKeys)
    (hmem : ∀ other, other ∈ d'.apids ↔ other = apid ∨ other ∈ d.apids) :
    Registered (events ++ [applicationAdded apid]) d' := by
  refine ⟨htables, ?_, ?_⟩
  · intro other
    rw [hmem, lasts_append_singleton (by simp), ← h.applications]
    simp [eq_comm]
  · intro key
    rw [hkeys, lasts_append_singleton (by simp), ← h.contexts]
    simp

/-- A call that only takes out an application. -/
theorem Registered.deleteApplication (h : Registered events d) {d' : MctDaemonUsers} {apid : ID4}
    (htables : d'.Tables) (hkeys : d'.contextKeys = d.contextKeys)
    (hmem : ∀ other, other ∈ d'.apids ↔ other ∈ d.apids ∧ other ≠ apid) :
    Registered (events ++ [applicationDeleted apid]) d' := by
  refine ⟨htables, ?_, ?_⟩
  · intro other
    rw [hmem, lasts_append_singleton (by simp), ← h.applications]
    simp [eq_comm]
  · intro key
    rw [hkeys, lasts_append_singleton (by simp), ← h.contexts]
    simp

theorem Registered.addContext (h : Registered events d) {d' : MctDaemonUsers}
    {key : ID4 ×ₗ ID4} (htables : d'.Tables) (hapids : d'.apids = d.apids)
    (hmem : ∀ other, other ∈ d'.contextKeys ↔ other = key ∨ other ∈ d.contextKeys) :
    Registered (events ++ [contextAdded key]) d' := by
  refine ⟨htables, ?_, ?_⟩
  · intro apid
    rw [hapids, lasts_append_singleton (by simp), ← h.applications]
    simp
  · intro other
    rw [hmem, lasts_append_singleton (by simp), ← h.contexts]
    simp [eq_comm]

theorem Registered.deleteContext (h : Registered events d) {d' : MctDaemonUsers}
    {key : ID4 ×ₗ ID4} (htables : d'.Tables) (hapids : d'.apids = d.apids)
    (hmem : ∀ other, other ∈ d'.contextKeys ↔ other ∈ d.contextKeys ∧ other ≠ key) :
    Registered (events ++ [contextDeleted key]) d' := by
  refine ⟨htables, ?_, ?_⟩
  · intro apid
    rw [hapids, lasts_append_singleton (by simp), ← h.applications]
    simp
  · intro other
    rw [hmem, lasts_append_singleton (by simp), ← h.contexts]
    simp [eq_comm]

theorem Registered.refuse (h : Registered events d) : Registered (events ++ [refused]) d := by
  refine ⟨h.tables, ?_, ?_⟩
  · intro apid
    rw [lasts_append_singleton (by simp), ← h.applications]
    simp
  · intro key
    rw [lasts_append_singleton (by simp), ← h.contexts]
    simp

/-- Every call that searches right keeps the tables in step with its report. -/
theorem Registered.step (h : Registered events d) (ipc : MctIpc) (op : UserOp)
    (hop : SearchesRight d op) :
    Registered (events ++ [(userStep ipc d op).1]) (userStep ipc d op).2 := by
  cases op with
  | applicationAdd apid pid description fd opened =>
      by_cases hempty : apid.isEmpty
      · have hadd : d.applicationAdd ipc apid pid description fd opened = (none, d) := by
          unfold MctDaemonUsers.applicationAdd
          rw [if_pos hempty]
        simp only [userStep, hadd]
        exact h.refuse
      · obtain ⟨hsome, htables, hkeys, hmem⟩ :=
          h.tables.applicationAdd ipc hempty (hop.resolve_left hempty) pid description fd opened
        simp only [userStep, hsome, if_true]
        exact h.addApplication htables hkeys hmem
  | applicationDel pos =>
      cases hpos : d.applications[pos]? with
      | none =>
          simp only [userStep, hpos]
          exact h.refuse
      | some application =>
          obtain ⟨htables, hkeys, hmem⟩ := h.tables.applicationDel hpos
          simp only [userStep, hpos]
          exact h.deleteApplication htables hkeys hmem
  | contextAdd apid ctid logLevel traceStatus logLevelPos userHandle description =>
      by_cases hrefused : ContextRefused apid ctid logLevel traceStatus
      · simp only [userStep, contextAdd_refused hrefused]
        exact h.refuse
      · obtain ⟨htables, hapids, hcase⟩ := h.tables.contextAdd (hop.resolve_left hrefused) ctid
          logLevel traceStatus logLevelPos userHandle description
        simp only [userStep]
        rcases hcase with ⟨hnone, hsame⟩ | ⟨hsome, hmem⟩
        · rw [hnone, hsame]
          exact h.refuse
        · rw [if_pos hsome]
          exact h.addContext htables hapids hmem
  | contextDel pos =>
      cases hpos : d.contexts[pos]? with
      | none =>
          simp only [userStep, hpos]
          exact h.refuse
      | some context =>
          obtain ⟨htables, hapids, hmem⟩ := h.tables.contextDel hpos
          simp only [userStep, hpos]
          exact h.deleteContext htables hapids hmem

/-- A context that passes the checks is added if its application is registered, and only then. -/
theorem contextAdd_isSome_iff (h : d.Tables) {apid ctid : ID4} {logLevel traceStatus : Int}
    (hreaches : d.ReachesAll apid) (hpassed : ¬ ContextRefused apid ctid logLevel traceStatus)
    (logLevelPos userHandle : Int) (description : Option (List Char)) :
    (d.contextAdd apid ctid logLevel traceStatus logLevelPos userHandle description).1.isSome ↔
      setId apid.chars ∈ d.apids := by
  have hcase := (h.contextAdd hreaches ctid logLevel traceStatus logLevelPos userHandle
    description).2.2
  simp only [ContextRefused, not_or] at hpassed
  obtain ⟨hempty, hlevel, htrace⟩ := hpassed
  unfold MctDaemonUsers.contextAdd at hcase ⊢
  rw [if_neg hempty, if_neg (not_or.mpr hlevel), if_neg (not_or.mpr htrace)] at hcase ⊢
  cases happlication : d.applicationFind apid with
  | none =>
      refine iff_of_false Bool.false_ne_true fun hregistered => ?_
      have hfind := (h.applicationFind_isSome fun _ => (hreaches hregistered).1).mpr hregistered
      rw [happlication] at hfind
      cases hfind
  | some i =>
      obtain ⟨application, hi, hapid⟩ := applicationFind_sound happlication
      have hregistered : setId apid.chars ∈ d.apids := by
        rw [← hapid]
        exact List.mem_map_of_mem (List.mem_of_getElem? hi)
      refine iff_of_true ?_ hregistered
      simp only [happlication] at hcase ⊢
      cases hfound : d.contextFind apid ctid with
      | some k => rfl
      | none =>
          simp only [hfound] at hcase ⊢
          rcases hcase with ⟨_, hsame⟩ | ⟨hsome, _⟩
          · -- the table would have one context more
            have hlength := congrArg (fun users => users.contexts.length) hsame
            simp only [insertContext, (sortByKey_perm _ _).length_eq, List.length_append,
              List.length_singleton, modifyApplication] at hlength
            omega
          · exact hsome

/-- A call is refused exactly if it is not admitted. -/
theorem Registered.refused_iff (h : Registered events d) (ipc : MctIpc) (op : UserOp)
    (hop : SearchesRight d op) : (userStep ipc d op).1 = .refused ↔ ¬ Admitted d op := by
  cases op with
  | applicationAdd apid pid description fd opened =>
      by_cases hempty : apid.isEmpty
      · simp [userStep, MctDaemonUsers.applicationAdd, Admitted, hempty]
      · have hsome := (h.tables.applicationAdd ipc hempty (hop.resolve_left hempty) pid description
          fd opened).1
        simp [userStep, Admitted, hempty, hsome]
  | applicationDel pos =>
      cases hpos : d.applications[pos]? with
      | none =>
          have hpast := List.getElem?_eq_none_iff.mp hpos
          simp [userStep, Admitted, hpast]
      | some application =>
          simp [userStep, Admitted, (List.getElem?_eq_some_iff.mp hpos).1]
  | contextAdd apid ctid logLevel traceStatus logLevelPos userHandle description =>
      by_cases hrefused : ContextRefused apid ctid logLevel traceStatus
      · simp [userStep, Admitted, hrefused, contextAdd_refused hrefused]
      · have hsome := contextAdd_isSome_iff h.tables (hop.resolve_left hrefused) hrefused
          logLevelPos userHandle description
        simp only [userStep, Admitted, hrefused, not_false_eq_true, true_and, ← hsome]
        split
        · next hadded => simp [hadded]
        · next hnone => simp [hnone]
  | contextDel pos =>
      cases hpos : d.contexts[pos]? with
      | none =>
          have hpast := List.getElem?_eq_none_iff.mp hpos
          simp [userStep, Admitted, hpast]
      | some context => simp [userStep, Admitted, (List.getElem?_eq_some_iff.mp hpos).1]

def MctDaemonUsers.IsEmpty (d : MctDaemonUsers) : Prop := d.applications = [] ∧ d.contexts = []

instance (d : MctDaemonUsers) : Decidable d.IsEmpty := inferInstanceAs (Decidable (_ ∧ _))

theorem registered_empty (h : d.IsEmpty) : Registered [] d := by
  obtain ⟨happlications, hcontexts⟩ := h
  have hapids : d.apids = [] := by rw [MctDaemonUsers.apids, happlications]; rfl
  have hkeys : d.contextKeys = [] := by rw [contextKeys, hcontexts]; rfl
  have hcontextApids : d.contextApids = [] := by rw [contextApids, hcontexts]; rfl
  have hstored : Stored ([] : List ID4) := ⟨List.Pairwise.nil, by simp, by simp⟩
  refine ⟨⟨?_, ?_, by rwa [hapids], by rwa [hcontextApids], by simp [hcontexts]⟩, ?_, ?_⟩
  · rw [happlications]
    exact List.Pairwise.nil
  · rw [hcontexts]
    exact List.Pairwise.nil
  · intro apid
    simp [hapids, not_lasts_nil]
  · intro key
    simp [hkeys, not_lasts_nil]

/-- The keys of the tables increase, and the lookups that do not miss the last
entry find just what was added and not deleted since. -/
def KeyedMaps (events : List UserEvent) (d : MctDaemonUsers) : Prop :=
  Increasing MctDaemonApplication.apid d.applications ∧
    Increasing MctDaemonContext.key d.contexts ∧
    (∀ apid, d.Reaches apid →
      ((d.applicationFind apid).isSome ↔
        Lasts (applicationAdded (setId apid.chars)) (applicationDeleted (setId apid.chars))
          events)) ∧
    ∀ apid ctid, d.ReachesContext apid ctid →
      ((d.contextFind apid ctid).isSome ↔
        Lasts (contextAdded (toLex (setId apid.chars, setId ctid.chars)))
          (contextDeleted (toLex (setId apid.chars, setId ctid.chars))) events)

/-- The tables are keyed maps in every run that searches right, from an empty
list. -/
theorem user_tables_keyed (ipc : MctIpc) (start : MctDaemonUsers) (hstart : start.IsEmpty)
    (ops : List UserOp) (hops : Guarded (userStep ipc) SearchesRight start ops) :
    KeyedMaps (runOps (userStep ipc) start ops).1 (runOps (userStep ipc) start ops).2 := by
  have hstep : ∀ events d op, Registered events d → SearchesRight d op →
      Registered (events ++ [(userStep ipc d op).1]) (userStep ipc d op).2 :=
    fun _ _ op hinv hop => hinv.step ipc op hop
  have h := runOps_replies hstep (registered_empty hstart) ops hops
  rw [List.nil_append] at h
  refine ⟨h.tables.applications, h.tables.contexts, ?_, ?_⟩
  · intro apid hreaches
    rw [h.tables.applicationFind_isSome hreaches, h.applications]
  · intro apid ctid hreaches
    rw [h.tables.contextFind_isSome hreaches, h.contexts]

/-- Two applications and a context, one application under an identifier that is
not canonical. -/
def sampleCalls : List UserOp :=
  [.applicationAdd (setId ['L', 'O', 'G', '\x00']) 12 (some ['l']) 0 8,
    .applicationAdd (setId ['A', '\x00', 'Z', 'Z']) 13 none 0 9,
    .contextAdd (setId ['L', 'O', 'G', '\x00']) (setId ['M', 'A', 'I', 'N']) 4 0 1 8 none,
    .applicationDel 0]

theorem user_tables_keyed_sample :
    KeyedMaps (runOps (userStep .fifo) ⟨true, [], [], 4, 0, false, false, 0⟩ sampleCalls).1
      (runOps (userStep .fifo) ⟨true, [], [], 4, 0, false, false, 0⟩ sampleCalls).2 :=
  user_tables_keyed .fifo ⟨true, [], [], 4, 0, false, false, 0⟩ (by decide) sampleCalls
    (by decide +kernel)

/-- The same identifier twice, with characters behind its zero: the second
registration misses the first entry. -/
theorem application_registered_twice :
    ¬ Increasing MctDaemonApplication.apid
      (runOps (userStep .fifo) ⟨true, [], [], 4, 0, false, false, 0⟩
        [.applicationAdd ⟨['A', '\x00', 'Z', 'Z'], rfl⟩ 12 none 0 8,
          .applicationAdd ⟨['A', '\x00', 'Z', 'Z'], rfl⟩ 12 none 0 9]).2.applications := by
  decide +kernel

end Runs

end MctDaemon.Daemon
