import MctDaemon.Daemon.UserMessages
import MctDaemon.Daemon.UserTables
import MctDaemon.Lib.Holding

/-!
The connection handles of applications and contexts. Applications hold them
and contexts refer to them, each under its application identifier; every step
of the registration either leaves these pairs alone, withdraws a handle, gives
a free one to an application, or copies that of an application to a context.
-/

namespace MctDaemon.Daemon

open Lib Shared

/-- A handle that can be a connection to an application. -/
def ValidHandle (userHandle : Int) : Prop := mctFdMinimum ≤ userHandle

theorem not_validHandle_fdInit : ¬ ValidHandle mctFdInit := by
  unfold ValidHandle
  decide

namespace MctDaemonUsers

def holders (d : MctDaemonUsers) : List (ID4 × Int) :=
  d.applications.map fun application => (application.apid, application.userHandle)

def references (d : MctDaemonUsers) : List (ID4 × Int) :=
  d.contexts.map fun context => (context.apid, context.userHandle)

/-- Handles are held once and referred to under the identifier of the holder. -/
structure Handles (d : MctDaemonUsers) : Prop where
  ownEcu : d.ownEcu = true
  unshared : Unshared ValidHandle d.holders
  attributed : Attributed ValidHandle d.holders d.references

/-- Every handle that a context refers to is held. -/
def HandlesHeld (d : MctDaemonUsers) : Prop := Backed ValidHandle d.holders d.references

/-- A step keeps both. -/
def KeepsHandles (d d' : MctDaemonUsers) : Prop :=
  d.Handles → d'.Handles ∧ (d.HandlesHeld → d'.HandlesHeld)

variable {d : MctDaemonUsers}

theorem KeepsHandles.refl (d : MctDaemonUsers) : KeepsHandles d d := fun h => ⟨h, id⟩

theorem KeepsHandles.trans {d₁ d₂ d₃ : MctDaemonUsers} (h : KeepsHandles d₁ d₂)
    (h' : KeepsHandles d₂ d₃) : KeepsHandles d₁ d₃ := by
  intro hd
  obtain ⟨hsecond, hheld⟩ := h hd
  obtain ⟨hthird, hheld'⟩ := h' hsecond
  exact ⟨hthird, hheld' ∘ hheld⟩

theorem KeepsHandles.of_same {d' : MctDaemonUsers} (hown : d'.ownEcu = d.ownEcu)
    (hholders : d'.holders = d.holders) (hreferences : d'.references = d.references) :
    KeepsHandles d d' := by
  rintro ⟨hd, hunshared, hattributed⟩
  rw [← hholders] at hunshared
  rw [← hholders, ← hreferences] at hattributed
  refine ⟨⟨hown.trans hd, hunshared, hattributed⟩, ?_⟩
  intro hheld
  rw [HandlesHeld, hholders, hreferences]
  exact hheld

section Parts

theorem holders_applicationsInvalidateFd (fd : Int) :
    (d.applicationsInvalidateFd fd).holders = d.holders.map (withdraw mctFdInit fd) := by
  simp only [holders, applicationsInvalidateFd, List.map_map]
  refine List.map_congr_left fun application _ => ?_
  simp only [Function.comp_apply, MctDaemonApplication.invalidate, withdraw]
  split <;> rfl

theorem references_contextsInvalidateFd (fd : Int) :
    (d.contextsInvalidateFd fd).references = d.references.map (withdraw mctFdInit fd) := by
  simp only [references, contextsInvalidateFd, List.map_map]
  refine List.map_congr_left fun context _ => ?_
  simp only [Function.comp_apply, MctDaemonContext.invalidate, withdraw]
  split <;> rfl

theorem holders_modifyApplication (i : Nat) {f : MctDaemonApplication → MctDaemonApplication}
    (hf : ∀ application, (f application).apid = application.apid ∧
      (f application).userHandle = application.userHandle) :
    (d.modifyApplication i f).holders = d.holders := by
  refine map_modify_of_keep ?_ _ _
  intro application
  rw [(hf application).1, (hf application).2]

theorem keepsHandles_modifyApplication (i : Nat) {f : MctDaemonApplication → MctDaemonApplication}
    (hf : ∀ application, (f application).apid = application.apid ∧
      (f application).userHandle = application.userHandle) :
    KeepsHandles d (d.modifyApplication i f) :=
  .of_same rfl (holders_modifyApplication i hf) rfl

theorem Handles.applicationsInvalidateFd (h : d.Handles) (fd : Int) :
    (d.applicationsInvalidateFd fd).Handles := by
  refine ⟨h.ownEcu, ?_, ?_⟩
  · rw [holders_applicationsInvalidateFd]
    exact h.unshared.withdraw not_validHandle_fdInit
  · rw [holders_applicationsInvalidateFd]
    exact h.attributed.withdraw_holders not_validHandle_fdInit

theorem keepsHandles_contextsInvalidateFd (fd : Int) :
    KeepsHandles d (d.contextsInvalidateFd fd) := by
  intro h
  refine ⟨⟨h.ownEcu, h.unshared, ?_⟩, ?_⟩
  · rw [references_contextsInvalidateFd]
    exact h.attributed.withdraw_references not_validHandle_fdInit
  · intro hheld
    rw [HandlesHeld, references_contextsInvalidateFd]
    exact hheld.withdraw_references not_validHandle_fdInit

/-- Both tables give up a descriptor, as when a connection is accepted on it. -/
theorem keepsHandles_invalidateFd (fd : Int) :
    KeepsHandles d ((d.applicationsInvalidateFd fd).contextsInvalidateFd fd) := by
  intro h
  refine ⟨(keepsHandles_contextsInvalidateFd fd (h.applicationsInvalidateFd fd)).1, ?_⟩
  intro hheld
  rw [HandlesHeld, references_contextsInvalidateFd]
  change Backed ValidHandle (d.applicationsInvalidateFd fd).holders _
  rw [holders_applicationsInvalidateFd]
  exact hheld.withdraw_both not_validHandle_fdInit

/-- A handle that is neither held nor referred to is given to an application
whose own handle nobody refers to. -/
theorem keepsHandles_assign (i : Nat) (userHandle : Int)
    {f : MctDaemonApplication → MctDaemonApplication}
    (hf : ∀ application, (f application).apid = application.apid ∧
      (f application).userHandle = userHandle)
    (hholders : ∀ p ∈ d.holders, ValidHandle p.2 → p.2 ≠ userHandle)
    (hreferences : ∀ r ∈ d.references, ValidHandle r.2 → r.2 ≠ userHandle)
    (hi : ∀ p, d.holders[i]? = some p → ∀ r ∈ d.references, ValidHandle r.2 → p.2 ≠ r.2) :
    KeepsHandles d (d.modifyApplication i f) := by
  have hassign : (d.modifyApplication i f).holders =
      d.holders.modify i fun p => (p.1, userHandle) := by
    apply List.ext_getElem?
    intro j
    simp only [holders, modifyApplication, List.getElem?_map, List.getElem?_modify]
    cases d.applications[j]? with
    | none => rfl
    | some application =>
        by_cases hij : i = j
        · simp [hij, hf]
        · simp [hij]
  intro h
  refine ⟨⟨h.ownEcu, ?_, ?_⟩, ?_⟩
  · rw [hassign]
    exact h.unshared.assign i hholders
  · rw [hassign]
    exact h.attributed.assign i hreferences
  · intro hheld
    rw [HandlesHeld, hassign]
    exact hheld.assign hi

theorem holders_getElem? {i : Nat} {application : MctDaemonApplication}
    (hi : d.applications[i]? = some application) :
    d.holders[i]? = some (application.apid, application.userHandle) := by
  simp only [holders, List.getElem?_map, hi, Option.map_some]

end Parts

section Steps

theorem holders_contextsInvalidateFd (fd : Int) :
    (d.contextsInvalidateFd fd).holders = d.holders := rfl

theorem ne_fdInit_of_validHandle {userHandle : Int} (h : ValidHandle userHandle) :
    userHandle ≠ mctFdInit := by
  rintro rfl
  exact not_validHandle_fdInit h

theorem keepsHandles_applicationResetUserHandle (i : Nat) :
    KeepsHandles d (d.applicationResetUserHandle i) := by
  intro h
  unfold applicationResetUserHandle
  cases hi : d.applications[i]? with
  | none => exact KeepsHandles.refl d h
  | some application =>
      simp only
      by_cases hinit : application.userHandle = mctFdInit
      · rw [if_pos hinit]
        exact KeepsHandles.refl d h
      · rw [if_neg hinit, if_pos h.ownEcu]
        refine (keepsHandles_contextsInvalidateFd application.userHandle).trans
          (keepsHandles_assign i mctFdInit (fun _ => ⟨rfl, rfl⟩) ?_ ?_ ?_) h
        · exact fun p _ hvalid => ne_fdInit_of_validHandle hvalid
        · exact fun r _ hvalid => ne_fdInit_of_validHandle hvalid
        · intro p hp r hr hvalid
          rw [holders_contextsInvalidateFd, holders_getElem? hi] at hp
          rw [references_contextsInvalidateFd] at hr
          rw [← Option.some.inj hp]
          exact ((mem_withdraw not_validHandle_fdInit hvalid).mp hr).2.symm

/-- The application has no handle after the reset. -/
theorem applicationResetUserHandle_holder (i : Nat) {p : ID4 × Int}
    (hp : (d.applicationResetUserHandle i).holders[i]? = some p) : p.2 = mctFdInit := by
  unfold applicationResetUserHandle at hp
  cases hi : d.applications[i]? with
  | none =>
      simp only [hi, holders, List.getElem?_map, Option.map_none] at hp
      cases hp
  | some application =>
      simp only [hi] at hp
      by_cases hinit : application.userHandle = mctFdInit
      · rw [if_pos hinit, holders_getElem? hi] at hp
        rw [← Option.some.inj hp]
        exact hinit
      · rw [if_neg hinit] at hp
        have happlications : (if d.ownEcu then d.contextsInvalidateFd application.userHandle
            else d).applications = d.applications := by
          split <;> rfl
        simp only [modifyApplication, holders, List.getElem?_map, List.getElem?_modify_eq,
          happlications, hi, Option.map_eq_map, Option.map_some] at hp
        rw [← Option.some.inj hp]

theorem keepsHandles_changePid (i : Nat) (pid : Int) : KeepsHandles d (d.changePid i pid) := by
  unfold changePid
  split
  · exact .refl d
  · split
    · exact (keepsHandles_applicationResetUserHandle i).trans
        (keepsHandles_modifyApplication i fun _ => ⟨rfl, rfl⟩)
    · exact .refl d

/-- The handle that is opened is withdrawn from everybody before it is stored. -/
theorem keepsHandles_openHandle (ipc : MctIpc) (i : Nat) (pid fd opened : Int) :
    KeepsHandles d (d.openHandle ipc i pid fd opened) := by
  unfold openHandle
  cases hi : d.applications[i]? with
  | none => exact .refl d
  | some application =>
      simp only
      by_cases hopens : application.userHandle = mctFdInit ∧ pid ≠ 0
      · rw [if_pos hopens]
        refine (keepsHandles_invalidateFd (openUserHandle ipc fd opened).1).trans
          (keepsHandles_assign i (openUserHandle ipc fd opened).1 (fun _ => ⟨rfl, rfl⟩) ?_ ?_ ?_)
        · intro p hp hvalid
          rw [holders_contextsInvalidateFd, holders_applicationsInvalidateFd] at hp
          exact ((mem_withdraw not_validHandle_fdInit hvalid).mp hp).2
        · intro r hr hvalid
          rw [references_contextsInvalidateFd] at hr
          exact ((mem_withdraw not_validHandle_fdInit hvalid).mp hr).2
        · intro p hp r _ hvalid
          rw [holders_contextsInvalidateFd, holders_applicationsInvalidateFd, List.getElem?_map,
            holders_getElem? hi, Option.map_some] at hp
          have hhandle : p.2 = mctFdInit := by
            rw [← Option.some.inj hp]
            unfold withdraw
            split
            · rfl
            · exact hopens.1
          rw [hhandle]
          exact (ne_fdInit_of_validHandle hvalid).symm
      · rw [if_neg hopens]
        exact .refl d

theorem keepsHandles_storeApplication (ipc : MctIpc) (i : Nat) (pid : Int)
    (description : Option (List Char)) (fd opened : Int) :
    KeepsHandles d (d.storeApplication ipc i pid description fd opened) := by
  have hdescription : KeepsHandles d (d.modifyApplication i fun application =>
      { application with applicationDescription := description }) :=
    keepsHandles_modifyApplication i fun _ => ⟨rfl, rfl⟩
  exact (hdescription.trans (keepsHandles_changePid i pid)).trans
    (keepsHandles_openHandle ipc i pid fd opened)

theorem keepsHandles_appendApplication (apid : ID4) :
    KeepsHandles d (d.appendApplication apid) := by
  have hholders : (d.appendApplication apid).holders = d.holders ++ [(apid, mctFdInit)] :=
    List.map_append
  intro h
  refine ⟨⟨h.ownEcu, ?_, ?_⟩, ?_⟩
  · rw [hholders]
    exact h.unshared.append_void not_validHandle_fdInit
  · rw [hholders]
    intro r hr p hp hvalid hsame
    rcases List.mem_append.mp hp with hold | hnew
    · exact h.attributed r hr p hold hvalid hsame
    · rw [List.mem_singleton.mp hnew] at hsame
      exact absurd hsame.symm (ne_fdInit_of_validHandle hvalid)
  · intro hheld r hr hvalid
    rw [hholders]
    exact List.mem_append_left _ (hheld r hr hvalid)

theorem keepsHandles_sortApplications : KeepsHandles d d.sortApplications := by
  have hperm : d.sortApplications.holders.Perm d.holders := (sortByKey_perm _ _).map _
  intro h
  refine ⟨⟨h.ownEcu, h.unshared.perm hperm, ?_⟩, ?_⟩
  · intro r hr p hp
    exact h.attributed r hr p (hperm.mem_iff.mp hp)
  · intro hheld r hr hvalid
    exact hperm.mem_iff.mpr (hheld r hr hvalid)

theorem keepsHandles_applicationAdd (ipc : MctIpc) (apid : ID4) (pid : Int)
    (description : Option (List Char)) (fd opened : Int) :
    KeepsHandles d (d.applicationAdd ipc apid pid description fd opened).2 := by
  unfold applicationAdd
  split
  · exact .refl d
  · split
    · exact keepsHandles_storeApplication ipc _ pid description fd opened
    · exact ((keepsHandles_appendApplication _).trans
        (keepsHandles_storeApplication ipc _ pid description fd opened)).trans
          keepsHandles_sortApplications

theorem keepsHandles_applicationDel (pos : Nat) : KeepsHandles d (d.applicationDel pos) := by
  refine (keepsHandles_applicationResetUserHandle pos).trans ?_
  have herase : (d.applicationDel pos).holders =
      (d.applicationResetUserHandle pos).holders.eraseIdx pos := by
    simp only [holders, applicationDel, List.eraseIdx_map]
  intro h
  refine ⟨⟨h.ownEcu, ?_, ?_⟩, ?_⟩
  · rw [herase]
    exact h.unshared.sublist (List.eraseIdx_sublist _ _)
  · rw [herase]
    intro r hr p hp
    exact h.attributed r hr p (List.mem_of_mem_eraseIdx hp)
  · intro hheld r hr hvalid
    rw [herase, List.mem_eraseIdx_iff_getElem?]
    obtain ⟨j, hj⟩ := List.mem_iff_getElem?.mp (hheld r hr hvalid)
    refine ⟨j, ?_, hj⟩
    rintro rfl
    exact ne_fdInit_of_validHandle hvalid (applicationResetUserHandle_holder j hj)

/-- Contexts may be dropped, and may copy the handle of an application. -/
theorem keepsHandles_refer {d' : MctDaemonUsers} (hown : d'.ownEcu = d.ownEcu)
    (hholders : d'.holders = d.holders)
    (hreferences : ∀ r ∈ d'.references, ValidHandle r.2 → r ∈ d.references ∨ r ∈ d.holders) :
    KeepsHandles d d' := by
  intro h
  refine ⟨⟨hown.trans h.ownEcu, ?_, ?_⟩, ?_⟩
  · rw [hholders]
    exact h.unshared
  · rw [hholders]
    exact h.attributed.refer h.unshared hreferences
  · intro hheld
    rw [HandlesHeld, hholders]
    exact hheld.refer hreferences

theorem keepsHandles_contextDel (pos : Nat) : KeepsHandles d (d.contextDel pos) := by
  unfold contextDel
  cases d.contexts[pos]? with
  | none => exact .refl d
  | some context =>
      have hremoved : KeepsHandles d { d with contexts := d.contexts.eraseIdx pos } := by
        refine keepsHandles_refer rfl rfl fun r hr _ => .inl ?_
        simp only [references, ← List.eraseIdx_map] at hr
        exact List.mem_of_mem_eraseIdx hr
      simp only
      split
      · exact hremoved
      · exact hremoved.trans (keepsHandles_modifyApplication _ fun _ => ⟨rfl, rfl⟩)

theorem keepsHandles_insertContext (context : MctDaemonContext)
    (hhandle : ValidHandle context.userHandle → (context.apid, context.userHandle) ∈ d.holders) :
    KeepsHandles d (d.insertContext context) := by
  refine keepsHandles_refer rfl rfl ?_
  intro r hr hvalid
  obtain ⟨other, hother, rfl⟩ := List.mem_map.mp hr
  have hmem := (sortByKey_perm _ _).mem_iff.mp hother
  rcases List.mem_append.mp hmem with hold | hnew
  · exact .inl (List.mem_map_of_mem hold)
  · rw [List.mem_singleton.mp hnew] at hvalid ⊢
    exact .inr (hhandle hvalid)

/-- A context with a handle that does not count, or with that of an application
under the same identifier. -/
theorem keepsHandles_contextAdd (apid ctid : ID4)
    (logLevel traceStatus logLevelPos userHandle : Int) (description : Option (List Char))
    (hhandle : ValidHandle userHandle → (setId apid.chars, userHandle) ∈ d.holders) :
    KeepsHandles d
      (d.contextAdd apid ctid logLevel traceStatus logLevelPos userHandle description).2 := by
  unfold contextAdd
  split
  · exact .refl d
  split
  · exact .refl d
  split
  · exact .refl d
  split
  · exact .refl d
  · next i happlication =>
      split
      · next k hcontext =>
          refine keepsHandles_refer rfl rfl ?_
          intro r hr hvalid
          obtain ⟨context, hk, hapid, _⟩ := contextFind_sound hcontext
          simp only [references, List.mem_map] at hr
          obtain ⟨other, hother, rfl⟩ := hr
          obtain ⟨j, hj⟩ := List.mem_iff_getElem?.mp hother
          rw [List.getElem?_modify, Option.map_eq_map, Option.map_eq_some_iff] at hj
          obtain ⟨old, hold, rfl⟩ := hj
          by_cases hkj : k = j
          · rw [hkj, hold] at hk
            rw [if_pos hkj] at hvalid ⊢
            right
            have hid : old.apid = setId apid.chars := by
              rw [Option.some.inj hk]
              exact hapid
            simp only [storeContext, hid] at hvalid ⊢
            exact hhandle hvalid
          · rw [if_neg hkj]
            exact .inl (List.mem_map_of_mem (List.mem_of_getElem? hold))
      · have hcounted : KeepsHandles d (d.modifyApplication i fun application =>
            { application with numContexts := application.numContexts + 1 }) :=
          keepsHandles_modifyApplication i fun _ => ⟨rfl, rfl⟩
        have hholders : (d.modifyApplication i fun application =>
            { application with numContexts := application.numContexts + 1 }).holders = d.holders :=
          holders_modifyApplication i fun _ => ⟨rfl, rfl⟩
        refine hcounted.trans (keepsHandles_insertContext _ ?_)
        rw [hholders]
        exact hhandle

theorem keepsHandles_modifyContext (k : Nat) {f : MctDaemonContext → MctDaemonContext}
    (hf : ∀ context, (f context).apid = context.apid ∧
      (f context).userHandle = context.userHandle) : KeepsHandles d (d.modifyContext k f) := by
  refine .of_same rfl rfl (map_modify_of_keep ?_ _ _)
  intro context
  rw [(hf context).1, (hf context).2]

theorem keepsHandles_userSendLogState (i : Nat) (write : SendResult) :
    KeepsHandles d (d.userSendLogState i write) := by
  unfold userSendLogState
  split
  · exact .refl d
  · simp only
    split
    · exact keepsHandles_applicationResetUserHandle i
    · exact .refl d

theorem keepsHandles_userSendLogLevel (k : Nat) (write : SendResult) :
    KeepsHandles d (d.userSendLogLevel k write).2 := by
  unfold userSendLogLevel
  split
  · exact .refl d
  · simp only
    split
    · exact .refl d
    · split
      · split
        · exact .refl d
        · exact keepsHandles_applicationResetUserHandle _
      · exact .refl d

/-- The context of an application refers to its handle. -/
theorem keepsHandles_addContextOf {application : MctDaemonApplication} {apid : ID4}
    (hholder : (setId apid.chars, application.userHandle) ∈ d.holders) (ctid : ID4)
    (logLevel traceStatus logLevelPos : Int) (description : List Char) (storageLogLevel : Int)
    (write : SendResult) :
    KeepsHandles d (d.addContextOf application apid ctid logLevel traceStatus logLevelPos
      description storageLogLevel write).2 := by
  have hadd := keepsHandles_contextAdd apid ctid logLevel traceStatus logLevelPos
    application.userHandle (some description) fun _ => hholder
  unfold addContextOf
  simp only
  split
  · exact hadd
  · next k hcontext =>
      have hstored := hadd.trans (keepsHandles_modifyContext k
        (f := fun context => { context with storageLogLevel := storageLogLevel })
        fun _ => ⟨rfl, rfl⟩)
      split
      · exact hstored.trans (keepsHandles_userSendLogLevel k write)
      · exact hstored

theorem keepsHandles_registerContext (apid ctid : ID4) (logLevel traceStatus logLevelPos : Int)
    (description : List Char) (storageLogLevel : Int) (write : SendResult) :
    KeepsHandles d (d.registerContext apid ctid logLevel traceStatus logLevelPos description
      storageLogLevel write).2 := by
  unfold registerContext
  cases happlication : d.applicationFind apid with
  | none => exact .refl d
  | some i =>
      obtain ⟨application, hi, hapid⟩ := applicationFind_sound happlication
      have hholder : (setId apid.chars, application.userHandle) ∈ d.holders := by
        rw [← hapid]
        exact List.mem_of_getElem? (holders_getElem? hi)
      simp only [hi]
      generalize (if logLevel = mctUserLogLevelNotSet then mctLogDefault else logLevel) = level
      generalize (if traceStatus = mctUserTraceStatusNotSet then mctTraceStatusDefault
        else traceStatus) = status
      split
      · exact .refl d
      · split
        · exact .refl d
        · exact keepsHandles_addContextOf hholder ctid level status logLevelPos description
            storageLogLevel write

end Steps

end MctDaemonUsers

section Runs

inductive HandleOp where
  | applicationAdd (apid : ID4) (pid : Int) (description : Option (List Char)) (fd opened : Int)
  | applicationDel (pos : Nat)
  | sendLogState (pos : Nat) (write : SendResult)
  | registerContext (apid ctid : ID4) (logLevel traceStatus logLevelPos : Int)
      (description : List Char) (storageLogLevel : Int) (write : SendResult)
  /-- A context of the runtime configuration, without a handle. -/
  | loadContext (apid ctid : ID4) (logLevel traceStatus : Int) (description : List Char)
  | contextDel (pos : Nat)
  /-- A connection is accepted on the descriptor. -/
  | accept (fd : Int)
  | applicationsInvalidateFd (fd : Int)
  | contextsInvalidateFd (fd : Int)

open MctDaemonUsers

def handleStep (ipc : MctIpc) (d : MctDaemonUsers) : HandleOp → Unit × MctDaemonUsers
  | .applicationAdd apid pid description fd opened =>
      ((), (d.applicationAdd ipc apid pid description fd opened).2)
  | .applicationDel pos => ((), d.applicationDel pos)
  | .sendLogState pos write => ((), d.userSendLogState pos write)
  | .registerContext apid ctid logLevel traceStatus logLevelPos description storageLogLevel write =>
      ((), (d.registerContext apid ctid logLevel traceStatus logLevelPos description
        storageLogLevel write).2)
  | .loadContext apid ctid logLevel traceStatus description =>
      ((), (d.contextAdd apid ctid logLevel traceStatus 0 0 (some description)).2)
  | .contextDel pos => ((), d.contextDel pos)
  | .accept fd => ((), (d.applicationsInvalidateFd fd).contextsInvalidateFd fd)
  | .applicationsInvalidateFd fd => ((), d.applicationsInvalidateFd fd)
  | .contextsInvalidateFd fd => ((), d.contextsInvalidateFd fd)

variable {d : MctDaemonUsers}

/-- Only the withdrawal from the applications alone leaves references behind. -/
theorem handleStep_keepsHandles (ipc : MctIpc) (op : HandleOp)
    (hop : ∀ fd, op ≠ .applicationsInvalidateFd fd) : KeepsHandles d (handleStep ipc d op).2 := by
  cases op with
  | applicationAdd apid pid description fd opened =>
      exact keepsHandles_applicationAdd ipc apid pid description fd opened
  | applicationDel pos => exact keepsHandles_applicationDel pos
  | sendLogState pos write => exact keepsHandles_userSendLogState pos write
  | registerContext apid ctid logLevel traceStatus logLevelPos description storageLogLevel write =>
      exact keepsHandles_registerContext apid ctid logLevel traceStatus logLevelPos description
        storageLogLevel write
  | loadContext apid ctid logLevel traceStatus description =>
      refine keepsHandles_contextAdd apid ctid logLevel traceStatus 0 0 (some description) ?_
      intro hvalid
      exact absurd hvalid (by unfold ValidHandle; decide)
  | contextDel pos => exact keepsHandles_contextDel pos
  | accept fd => exact keepsHandles_invalidateFd fd
  | applicationsInvalidateFd fd => exact absurd rfl (hop fd)
  | contextsInvalidateFd fd => exact keepsHandles_contextsInvalidateFd fd

theorem handleStep_handles (ipc : MctIpc) (op : HandleOp) (h : d.Handles) :
    (handleStep ipc d op).2.Handles := by
  by_cases hop : ∃ fd, op = .applicationsInvalidateFd fd
  · obtain ⟨fd, rfl⟩ := hop
    exact h.applicationsInvalidateFd fd
  · exact (handleStep_keepsHandles ipc op (fun fd hfd => hop ⟨fd, hfd⟩) h).1

theorem handles_empty (hempty : d.IsEmpty) (hown : d.ownEcu = true) :
    d.Handles ∧ d.HandlesHeld := by
  obtain ⟨happlications, hcontexts⟩ := hempty
  refine ⟨⟨hown, ?_, ?_⟩, ?_⟩
  · rw [unshared_iff_pairwise, holders, happlications]
    exact List.Pairwise.nil
  · rw [references, hcontexts]
    exact fun r hr => absurd hr List.not_mem_nil
  · rw [HandlesHeld, references, hcontexts]
    exact fun r hr => absurd hr List.not_mem_nil

/-- Each valid handle is held by one application at most. -/
def MctDaemonUsers.HeldOnce (d : MctDaemonUsers) : Prop :=
  ∀ (i j : Nat) (a b : MctDaemonApplication), d.applications[i]? = some a →
    d.applications[j]? = some b → mctFdMinimum ≤ a.userHandle →
    a.userHandle = b.userHandle → i = j

/-- The contexts that hold a valid handle have the identifier of the application
that holds it. -/
def MctDaemonUsers.SameApid (d : MctDaemonUsers) : Prop :=
  ∀ context ∈ d.contexts, ∀ application ∈ d.applications,
    mctFdMinimum ≤ context.userHandle → application.userHandle = context.userHandle →
    application.apid = context.apid

/-- Each valid handle of a context is that of its application. -/
def MctDaemonUsers.FromApplication (d : MctDaemonUsers) : Prop :=
  ∀ context ∈ d.contexts, mctFdMinimum ≤ context.userHandle →
    ∃ application ∈ d.applications, application.userHandle = context.userHandle ∧
      application.apid = context.apid

/-- No message goes to the wrong application, in any run. Contexts keep a handle
without an application only if it is withdrawn from the applications alone. -/
theorem handles_of_one_application (ipc : MctIpc) (start : MctDaemonUsers)
    (hempty : start.IsEmpty) (hown : start.ownEcu = true) (ops : List HandleOp) :
    (runOps (handleStep ipc) start ops).2.HeldOnce ∧
      (runOps (handleStep ipc) start ops).2.SameApid ∧
      ((∀ op ∈ ops, ∀ fd, op ≠ .applicationsInvalidateFd fd) →
        (runOps (handleStep ipc) start ops).2.FromApplication) := by
  obtain ⟨hstart, hheld⟩ := handles_empty hempty hown
  have hrun : Guarded (handleStep ipc) (fun _ _ => True) start ops := guarded_true _ _ _
  have h : (runOps (handleStep ipc) start ops).2.Handles :=
    runOps_keeps (fun d op hd _ => handleStep_handles ipc op hd) hstart ops hrun
  refine ⟨?_, ?_, ?_⟩
  · intro i j a b ha hb hvalid hsame
    exact h.unshared i j _ _ (holders_getElem? ha) (holders_getElem? hb) hvalid hsame
  · intro context hcontext application happlication hvalid hsame
    exact h.attributed _ (List.mem_map_of_mem hcontext) _ (List.mem_map_of_mem happlication)
      hvalid hsame
  · intro hops context hcontext hvalid
    have hboth : (runOps (handleStep ipc) start ops).2.Handles ∧
        (runOps (handleStep ipc) start ops).2.HandlesHeld := by
      have hstep : ∀ (d : MctDaemonUsers) op, d.Handles ∧ d.HandlesHeld →
          (∀ fd, op ≠ .applicationsInvalidateFd fd) ∧ True →
          (handleStep ipc d op).2.Handles ∧ (handleStep ipc d op).2.HandlesHeld := by
        intro d op hd hop
        obtain ⟨hnext, hheld⟩ := handleStep_keepsHandles ipc op hop.1 hd.1
        exact ⟨hnext, hheld hd.2⟩
      exact runOps_keeps hstep ⟨hstart, hheld⟩ ops (hrun.and_forall hops)
    have hmem := hboth.2 _ (List.mem_map_of_mem hcontext) hvalid
    obtain ⟨application, happlication, hsame⟩ := List.mem_map.mp hmem
    exact ⟨application, happlication, congrArg Prod.snd hsame, congrArg Prod.fst hsame⟩

/-- Two applications with a context each. The second takes over the descriptor
of the first, is registered by another process, and is deleted. -/
def handleCalls : List HandleOp :=
  [.applicationAdd (setId ['A', 'P', 'P', '1']) 10 none 5 0,
    .registerContext (setId ['A', 'P', 'P', '1']) (setId ['C', 'T', '\x00', '\x00']) 4 0 0 [] (-1)
      ⟨true, false⟩,
    .accept 6,
    .applicationAdd (setId ['A', 'P', 'P', '2']) 11 none 6 0,
    .registerContext (setId ['A', 'P', 'P', '2']) (setId ['C', 'T', '\x00', '\x00']) (-1) 0 0 []
      (-1) ⟨false, true⟩,
    .applicationAdd (setId ['A', 'P', 'P', '2']) 12 none 5 0,
    .applicationDel 1]

theorem handles_of_one_application_two :
    (runOps (handleStep .unixSocket) ⟨true, [], [], 4, 0, false, false, 0⟩ handleCalls).2.HeldOnce ∧
      (runOps (handleStep .unixSocket) ⟨true, [], [], 4, 0, false, false, 0⟩
        handleCalls).2.SameApid ∧
      ((∀ op ∈ handleCalls, ∀ fd, op ≠ .applicationsInvalidateFd fd) →
        (runOps (handleStep .unixSocket) ⟨true, [], [], 4, 0, false, false, 0⟩
          handleCalls).2.FromApplication) :=
  handles_of_one_application .unixSocket ⟨true, [], [], 4, 0, false, false, 0⟩ (by decide) rfl
    handleCalls

end Runs

end MctDaemon.Daemon
