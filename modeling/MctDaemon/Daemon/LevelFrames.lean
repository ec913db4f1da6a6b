import MctDaemon.Daemon.LogLevels

/-!
What the steps leave alone. Registering and deleting applications, and messages
that cannot be sent, take handles away and change no level. A property of the
tables that every message keeps is kept by the loops over contexts.
-/

namespace MctDaemon.Daemon

open Lib Shared

namespace MctDaemonUsers

section Reduces

/-- The fields of the daemon that levels depend on. -/
def settings (d : MctDaemonUsers) : Bool × Int × Int × Bool × Bool :=
  (d.ownEcu, d.defaultLogLevel, d.defaultTraceStatus, d.forceLlTs, d.runtimeContextCfgLoaded)

/-- Contexts may go, or lose their handle, and nothing else happens to levels. -/
structure Reduces (d d' : MctDaemonUsers) : Prop where
  settings : d'.settings = d.settings
  contexts : ∀ context' ∈ d'.contexts, ∃ context ∈ d.contexts, MayLoseHandle context context'

variable {d : MctDaemonUsers}

theorem Reduces.refl (d : MctDaemonUsers) : Reduces d d :=
  ⟨rfl, fun context hmem => ⟨context, hmem, .inl rfl⟩⟩

theorem Reduces.trans {d₁ d₂ d₃ : MctDaemonUsers} (h : Reduces d₁ d₂) (h' : Reduces d₂ d₃) :
    Reduces d₁ d₃ := by
  refine ⟨h'.settings.trans h.settings, ?_⟩
  intro third hthird
  obtain ⟨second, hsecond, hloses⟩ := h'.contexts third hthird
  obtain ⟨first, hfirst, hloses'⟩ := h.contexts second hsecond
  exact ⟨first, hfirst, hloses'.trans hloses⟩

theorem Reduces.of_subset {d' : MctDaemonUsers} (hsettings : d'.settings = d.settings)
    (hcontexts : d'.contexts ⊆ d.contexts) : Reduces d d' :=
  ⟨hsettings, fun context hmem => ⟨context, hcontexts hmem, .inl rfl⟩⟩

/-- A context that has a handle afterwards is untouched. -/
theorem Reduces.mem_of_valid {d' : MctDaemonUsers} (h : Reduces d d') {context : MctDaemonContext}
    (hmem : context ∈ d'.contexts) (hvalid : ValidHandle context.userHandle) :
    context ∈ d.contexts := by
  obtain ⟨old, hold, rfl | rfl⟩ := h.contexts context hmem
  · exact hold
  · exact absurd hvalid not_validHandle_fdInit

theorem reduces_contextsInvalidateFd (fd : Int) : Reduces d (d.contextsInvalidateFd fd) := by
  refine ⟨rfl, ?_⟩
  intro context' hmem
  obtain ⟨context, hcontext, rfl⟩ := List.mem_map.mp hmem
  refine ⟨context, hcontext, ?_⟩
  unfold MctDaemonContext.invalidate
  split
  · exact .inr rfl
  · exact .inl rfl

theorem reduces_applicationResetUserHandle (i : Nat) :
    Reduces d (d.applicationResetUserHandle i) := by
  unfold applicationResetUserHandle
  split
  · exact .refl d
  · split
    · exact .refl d
    · split
      · exact (reduces_contextsInvalidateFd _).trans (.of_subset rfl (List.Subset.refl _))
      · exact .of_subset rfl (List.Subset.refl _)

theorem reduces_changePid (i : Nat) (pid : Int) : Reduces d (d.changePid i pid) := by
  unfold changePid
  split
  · exact .refl d
  · split
    · exact (reduces_applicationResetUserHandle i).trans (.of_subset rfl (List.Subset.refl _))
    · exact .refl d

theorem reduces_openHandle (ipc : MctIpc) (i : Nat) (pid fd opened : Int) :
    Reduces d (d.openHandle ipc i pid fd opened) := by
  unfold openHandle
  split
  · exact .refl d
  · split
    · have happlications :
          Reduces d (d.applicationsInvalidateFd (openUserHandle ipc fd opened).1) :=
        .of_subset rfl (List.Subset.refl _)
      exact (happlications.trans (reduces_contextsInvalidateFd _)).trans
        (.of_subset rfl (List.Subset.refl _))
    · exact .refl d

theorem reduces_storeApplication (ipc : MctIpc) (i : Nat) (pid : Int)
    (description : Option (List Char)) (fd opened : Int) :
    Reduces d (d.storeApplication ipc i pid description fd opened) := by
  have hdescription : Reduces d (d.modifyApplication i fun application =>
      { application with applicationDescription := description }) :=
    .of_subset rfl (List.Subset.refl _)
  exact (hdescription.trans (reduces_changePid i pid)).trans
    (reduces_openHandle ipc i pid fd opened)

theorem reduces_applicationAdd (ipc : MctIpc) (apid : ID4) (pid : Int)
    (description : Option (List Char)) (fd opened : Int) :
    Reduces d (d.applicationAdd ipc apid pid description fd opened).2 := by
  unfold applicationAdd
  split
  · exact .refl d
  · split
    · exact reduces_storeApplication ipc _ pid description fd opened
    · have happended : Reduces d (d.appendApplication (setId apid.chars)) :=
        .of_subset rfl (List.Subset.refl _)
      exact (happended.trans (reduces_storeApplication ipc _ pid description fd opened)).trans
        (.of_subset rfl (List.Subset.refl _))

theorem reduces_applicationDel (pos : Nat) : Reduces d (d.applicationDel pos) :=
  (reduces_applicationResetUserHandle pos).trans (.of_subset rfl (List.Subset.refl _))

theorem reduces_userSendLogState (i : Nat) (write : SendResult) :
    Reduces d (d.userSendLogState i write) := by
  unfold userSendLogState
  split
  · exact .refl d
  · simp only
    split
    · exact reduces_applicationResetUserHandle i
    · exact .refl d

theorem reduces_userSendLogLevel (k : Nat) (write : SendResult) :
    Reduces d (d.userSendLogLevel k write).2 := by
  unfold userSendLogLevel
  split
  · exact .refl d
  · simp only
    split
    · exact .refl d
    · split
      · split
        · exact .refl d
        · exact reduces_applicationResetUserHandle _
      · exact .refl d

theorem reduces_updateBlockmodeAt (i : Nat) (blockMode : Int) (write : SendResult) :
    Reduces d (d.updateBlockmodeAt i blockMode write) := by
  unfold updateBlockmodeAt userSendUpdateBlockmode
  cases hi : d.applications[i]? with
  | none => exact .refl d
  | some application =>
      simp only
      split
      · split
        · exact .of_subset rfl (List.Subset.refl _)
        · split
          · exact reduces_applicationDel i
          · exact .refl d
      · exact .refl d

theorem reduces_userUpdateBlockmode (name : ID4) (blockMode : Int) (writes : Nat → SendResult) :
    Reduces d (d.userUpdateBlockmode name blockMode writes).2 := by
  have hfold : ∀ (positions : List Nat) (e : MctDaemonUsers), Reduces e
      (positions.foldl (fun e count => e.updateBlockmodeAt count blockMode (writes count)) e) := by
    intro positions
    induction positions with
    | nil => exact Reduces.refl
    | cons count positions ih => exact fun e => (reduces_updateBlockmodeAt count _ _).trans (ih _)
  unfold userUpdateBlockmode
  split
  · exact .refl d
  · split
    · exact (hfold _ d).trans (.of_subset rfl (List.Subset.refl _))
    · split
      · exact .refl d
      · exact reduces_updateBlockmodeAt _ _ _

theorem reduces_registerApplication (ipc : MctIpc) (apid : ID4) (pid : Int)
    (description : List Char) (fd opened : Int) (logState : SendResult)
    (writes : Nat → SendResult) :
    Reduces d (d.registerApplication ipc apid pid description fd opened logState writes).2 := by
  have hadd := reduces_applicationAdd (d := d) ipc apid pid (some description) fd opened
  unfold registerApplication
  simp only
  split
  · exact hadd
  · exact (hadd.trans (reduces_userSendLogState _ logState)).trans
      (reduces_userUpdateBlockmode _ _ writes)

theorem reduces_contextDel (pos : Nat) : Reduces d (d.contextDel pos) := by
  have hremoved : d.contexts.eraseIdx pos ⊆ d.contexts := (List.eraseIdx_sublist _ _).subset
  unfold contextDel
  split
  · exact .refl d
  · simp only
    split
    · exact .of_subset rfl hremoved
    · exact .of_subset rfl hremoved

theorem reduces_contextsDelDown (offset : Int) (count : Nat) :
    Reduces d (d.contextsDelDown offset count) := by
  induction count generalizing d with
  | zero => exact .refl d
  | succ count ih =>
      refine Reduces.trans ?_ ih
      unfold atPosition
      split
      · exact .refl d
      · exact reduces_contextDel _

theorem reduces_unregisterApplication (apid : ID4) : Reduces d (d.unregisterApplication apid) := by
  unfold unregisterApplication
  split
  · exact .refl d
  · split
    · exact .refl d
    · exact (reduces_contextsDelDown _ _).trans (reduces_applicationDel _)

theorem reduces_unregisterContext (apid ctid : ID4) :
    Reduces d (d.unregisterContext apid ctid) := by
  unfold unregisterContext
  split
  · exact .refl d
  · split
    · exact .refl d
    · split
      · exact .refl d
      · exact reduces_contextDel _

end Reduces

end MctDaemonUsers

namespace MctDaemonUsers

section Tables

variable {d : MctDaemonUsers}

theorem Tables.applicationDel_any (h : d.Tables) (pos : Nat) : (d.applicationDel pos).Tables := by
  cases hpos : d.applications[pos]? with
  | some application => exact (h.applicationDel hpos).1
  | none =>
      have hsame : d.applicationDel pos = d := by
        have hlength := List.getElem?_eq_none_iff.mp hpos
        simp only [MctDaemonUsers.applicationDel, applicationResetUserHandle, hpos,
          List.eraseIdx_of_length_le hlength]
      rw [hsame]
      exact h

theorem Tables.updateBlockmodeAt (h : d.Tables) (i : Nat) (blockMode : Int) (write : SendResult) :
    (d.updateBlockmodeAt i blockMode write).Tables ∧
      KeepsHandles d (d.updateBlockmodeAt i blockMode write) := by
  unfold MctDaemonUsers.updateBlockmodeAt userSendUpdateBlockmode
  cases hi : d.applications[i]? with
  | none => exact ⟨h, .refl d⟩
  | some application =>
      simp only
      split
      · split
        · exact ⟨h.of_sameKeys (sameKeys_modifyApplication i fun _ => rfl),
            keepsHandles_modifyApplication i fun _ => ⟨rfl, rfl⟩⟩
        · split
          · exact ⟨h.applicationDel_any i, keepsHandles_applicationDel i⟩
          · exact ⟨h, .refl d⟩
      · exact ⟨h, .refl d⟩

theorem Tables.userUpdateBlockmode (h : d.Tables) (name : ID4) (blockMode : Int)
    (writes : Nat → SendResult) :
    (d.userUpdateBlockmode name blockMode writes).2.Tables ∧
      KeepsHandles d (d.userUpdateBlockmode name blockMode writes).2 := by
  have hfold : ∀ (positions : List Nat) (e : MctDaemonUsers), e.Tables →
      let final := positions.foldl (fun e count =>
        e.updateBlockmodeAt count blockMode (writes count)) e
      final.Tables ∧ KeepsHandles e final := by
    intro positions
    induction positions with
    | nil => exact fun e he => ⟨he, .refl e⟩
    | cons count positions ih =>
        intro e he
        obtain ⟨htables, hkeeps⟩ := he.updateBlockmodeAt count blockMode (writes count)
        obtain ⟨hfinal, hrest⟩ := ih _ htables
        exact ⟨hfinal, hkeeps.trans hrest⟩
  unfold MctDaemonUsers.userUpdateBlockmode
  split
  · exact ⟨h, .refl d⟩
  · split
    · obtain ⟨htables, hkeeps⟩ := hfold (List.range d.applications.length) d h
      exact ⟨htables.of_sameKeys ⟨rfl, rfl⟩, hkeeps.trans (.of_same rfl rfl rfl)⟩
    · split
      · exact ⟨h, .refl d⟩
      · exact h.updateBlockmodeAt _ _ _

theorem Tables.applicationAdd_any (h : d.Tables) (ipc : MctIpc) {apid : ID4}
    (hsearch : apid.isEmpty ∨ NotAbove d.apids apid) (pid : Int)
    (description : Option (List Char)) (fd opened : Int) :
    (d.applicationAdd ipc apid pid description fd opened).2.Tables := by
  by_cases hempty : apid.isEmpty
  · unfold MctDaemonUsers.applicationAdd
    rw [if_pos hempty]
    exact h
  · exact (h.applicationAdd ipc hempty (hsearch.resolve_left hempty) pid description fd opened).2.1

theorem Tables.registerApplication (h : d.Tables) (ipc : MctIpc) {apid : ID4}
    (hsearch : apid.isEmpty ∨ NotAbove d.apids apid) (pid : Int) (description : List Char)
    (fd opened : Int) (logState : SendResult) (writes : Nat → SendResult) :
    (d.registerApplication ipc apid pid description fd opened logState writes).2.Tables ∧
      KeepsHandles d
        (d.registerApplication ipc apid pid description fd opened logState writes).2 := by
  have hadded := h.applicationAdd_any ipc hsearch pid (some description) fd opened
  have hkeeps := keepsHandles_applicationAdd (d := d) ipc apid pid (some description) fd opened
  unfold MctDaemonUsers.registerApplication
  simp only
  split
  · exact ⟨hadded, hkeeps⟩
  · next i _ =>
      have hstate := hadded.of_sameKeys (sameEntries_userSendLogState i logState).sameKeys
      obtain ⟨htables, hupdated⟩ := hstate.userUpdateBlockmode apid
        ((d.applicationAdd ipc apid pid (some description) fd opened).2.userSendLogState i
          logState).blockMode writes
      exact ⟨htables, (hkeeps.trans (keepsHandles_userSendLogState i logState)).trans hupdated⟩

theorem Tables.contextDel_any (h : d.Tables) (pos : Nat) : (d.contextDel pos).Tables := by
  cases hpos : d.contexts[pos]? with
  | some context => exact (h.contextDel hpos).1
  | none =>
      unfold MctDaemonUsers.contextDel
      rw [hpos]
      exact h

theorem Tables.contextsDelDown (h : d.Tables) (offset : Int) (count : Nat) :
    (d.contextsDelDown offset count).Tables ∧ KeepsHandles d (d.contextsDelDown offset count) := by
  induction count generalizing d with
  | zero => exact ⟨h, .refl d⟩
  | succ count ih =>
      have hone : (d.atPosition (offset + count) MctDaemonUsers.contextDel).Tables ∧
          KeepsHandles d (d.atPosition (offset + count) MctDaemonUsers.contextDel) := by
        unfold atPosition
        split
        · exact ⟨h, .refl d⟩
        · exact ⟨h.contextDel_any _, keepsHandles_contextDel _⟩
      obtain ⟨hfinal, hrest⟩ := ih hone.1
      exact ⟨hfinal, hone.2.trans hrest⟩

theorem Tables.unregisterApplication (h : d.Tables) (apid : ID4) :
    (d.unregisterApplication apid).Tables ∧ KeepsHandles d (d.unregisterApplication apid) := by
  unfold MctDaemonUsers.unregisterApplication
  cases d.applicationFind apid with
  | none => exact ⟨h, .refl d⟩
  | some i =>
      cases hi : d.applications[i]? with
      | none =>
          simp only [hi]
          exact ⟨h, .refl d⟩
      | some application =>
          simp only [hi]
          obtain ⟨htables, hkeeps⟩ := h.contextsDelDown (d.offsetBase i)
            application.numContexts.toNat
          exact ⟨htables.applicationDel_any i, hkeeps.trans (keepsHandles_applicationDel i)⟩

theorem Tables.unregisterContext (h : d.Tables) (apid ctid : ID4) :
    (d.unregisterContext apid ctid).Tables ∧ KeepsHandles d (d.unregisterContext apid ctid) := by
  unfold MctDaemonUsers.unregisterContext
  split
  · exact ⟨h, .refl d⟩
  · split
    · exact ⟨h, .refl d⟩
    · split
      · exact ⟨h, .refl d⟩
      · exact ⟨h.contextDel_any _, keepsHandles_contextDel _⟩

end Tables

end MctDaemonUsers

namespace MctDaemonUsers

section Registration

variable {d : MctDaemonUsers}

/-- The daemon with a context that was not registered before. -/
def withNewContext (d : MctDaemonUsers) (i : Nat) (context : MctDaemonContext) : MctDaemonUsers :=
  (d.modifyApplication i fun application =>
    { application with numContexts := application.numContexts + 1 }).insertContext context

/-- What a registration of a context does: nothing, a change of the entry it
finds, or a new entry. -/
theorem contextAdd_cases (apid ctid : ID4) (logLevel traceStatus logLevelPos userHandle : Int)
    (description : Option (List Char)) :
    d.contextAdd apid ctid logLevel traceStatus logLevelPos userHandle description = (none, d) ∨
      (-1 ≤ logLevel ∧ logLevel ≤ 6 ∧ -1 ≤ traceStatus ∧ traceStatus ≤ 1) ∧
        ((∃ k, d.contextFind apid ctid = some k ∧
          d.contextAdd apid ctid logLevel traceStatus logLevelPos userHandle description =
            (some k, d.modifyContext k
              (d.storeContext false logLevel traceStatus logLevelPos userHandle description))) ∨
        ∃ i context, d.contextFind apid ctid = none ∧
          context = d.storeContext true logLevel traceStatus logLevelPos userHandle description
            (MctDaemonContext.fresh (setId apid.chars) (setId ctid.chars)) ∧
          d.contextAdd apid ctid logLevel traceStatus logLevelPos userHandle description =
            ((d.withNewContext i context).contextFind apid ctid, d.withNewContext i context)) := by
  unfold contextAdd
  by_cases hempty : (apid.isEmpty || ctid.isEmpty) = true
  · rw [if_pos hempty]
    exact .inl rfl
  rw [if_neg hempty]
  by_cases hlevel : logLevel < mctLogDefault ∨ mctLogVerbose < logLevel
  · rw [if_pos hlevel]
    exact .inl rfl
  rw [if_neg hlevel]
  by_cases hstatus : traceStatus < mctTraceStatusDefault ∨ mctTraceStatusOn < traceStatus
  · rw [if_pos hstatus]
    exact .inl rfl
  rw [if_neg hstatus]
  have hranges : -1 ≤ logLevel ∧ logLevel ≤ 6 ∧ -1 ≤ traceStatus ∧ traceStatus ≤ 1 := by
    rw [show mctLogDefault = -1 from rfl, show mctLogVerbose = 6 from rfl] at hlevel
    rw [show mctTraceStatusDefault = -1 from rfl, show mctTraceStatusOn = 1 from rfl] at hstatus
    omega
  cases d.applicationFind apid with
  | none => exact .inl rfl
  | some i =>
      simp only
      cases hfound : d.contextFind apid ctid with
      | some k => exact .inr ⟨hranges, .inl ⟨k, rfl, rfl⟩⟩
      | none => exact .inr ⟨hranges, .inr ⟨i, _, rfl, rfl, rfl⟩⟩

theorem mem_withNewContext {i : Nat} {context other : MctDaemonContext} :
    other ∈ (d.withNewContext i context).contexts ↔ other ∈ d.contexts ∨ other = context := by
  have hperm := (sortByKey_perm MctDaemonContext.key (d.contexts ++ [context])).mem_iff (a := other)
  rw [List.mem_append, List.mem_singleton] at hperm
  exact hperm

/-- An application that is found is not missed. -/
theorem notAbove_of_found {apid : ID4} {i : Nat}
    (hfound : d.applicationFind apid = some i) : NotAbove d.apids apid := by
  unfold applicationFind at hfound
  split at hfound
  · cases hfound
  · split at hfound
    · next hwithin =>
        unfold withinRange at hwithin
        split at hwithin
        · next first last hfirst hlast =>
            simp only [Bool.decide_and, Bool.and_eq_true, decide_eq_true_eq, not_lt] at hwithin
            have hmem : last ∈ d.apids := List.mem_of_getLast? hlast
            by_cases hcanonical : apid.Canonical
            · exact .inl hcanonical
            · have hlt : setId apid.chars < apid := lt_of_le_of_ne (setId_le apid) hcanonical
              exact .inr ⟨last, hmem, hlt.trans_le hwithin.2⟩
        · cases hwithin
    · cases hfound

/-- Two entries under one key are one entry. -/
theorem Tables.eq_of_key (h : d.Tables) {k : Nat} {context other : MctDaemonContext}
    (hk : d.contexts[k]? = some context) (hother : other ∈ d.contexts)
    (hkey : other.key = context.key) : other = context := by
  obtain ⟨j, hj⟩ := List.mem_iff_getElem?.mp hother
  have hjk := h.contexts.position hj hk hkey
  rw [hjk, hk] at hj
  exact (Option.some.inj hj).symm

/-- What a registration of a context that is answered with an entry has done. -/
theorem contextAdd_found {apid ctid : ID4}
    {logLevel traceStatus logLevelPos userHandle : Int} {description : Option (List Char)} {k : Nat}
    {d' : MctDaemonUsers}
    (hadd : d.contextAdd apid ctid logLevel traceStatus logLevelPos userHandle description =
      (some k, d')) (htables : d'.Tables) :
    ∃ context, d'.contexts[k]? = some context ∧
      context.key = toLex (setId apid.chars, setId ctid.chars) ∧ d'.settings = d.settings ∧
      (∀ other ∈ d'.contexts, other.key ≠ context.key → other ∈ d.contexts) ∧
      (d.contextFind apid ctid = none ∧ context = d.storeContext true logLevel traceStatus
          logLevelPos userHandle description
          (MctDaemonContext.fresh (setId apid.chars) (setId ctid.chars)) ∨
        ∃ old, d.contextFind apid ctid = some k ∧ d.contexts[k]? = some old ∧
          context = d.storeContext false logLevel traceStatus logLevelPos userHandle description
            old) := by
  obtain hnone | ⟨_, ⟨j, hfind, hsome⟩ | ⟨i, context, hfind, rfl, hsome⟩⟩ :=
    d.contextAdd_cases apid ctid logLevel traceStatus logLevelPos userHandle description
  · rw [hnone] at hadd
    cases hadd
  · rw [hsome, Prod.mk.injEq, Option.some_inj] at hadd
    obtain ⟨rfl, rfl⟩ := hadd
    obtain ⟨old, hold, hapid, hctid⟩ := contextFind_sound hfind
    refine ⟨_, ?_, ?_, rfl, ?_, .inr ⟨old, hfind, hold, rfl⟩⟩
    · simp only [modifyContext, List.getElem?_modify_eq, hold, Option.map_eq_map, Option.map_some]
    · rw [storeContext_key, MctDaemonContext.key, hapid, hctid]
    · intro other hmem hne
      rcases mem_of_mem_modify hmem with hkept | ⟨before, hbefore, rfl⟩
      · exact hkept
      · rw [hold] at hbefore
        rw [Option.some.inj hbefore] at hne
        exact absurd rfl hne
  · rw [hsome, Prod.mk.injEq] at hadd
    obtain ⟨hposition, rfl⟩ := hadd
    obtain ⟨found, hfound, hapid, hctid⟩ := contextFind_sound hposition
    have hkey : found.key = toLex (setId apid.chars, setId ctid.chars) := by
      rw [MctDaemonContext.key, hapid, hctid]
    have hnew := htables.eq_of_key hfound (mem_withNewContext.mpr (.inr rfl)) hkey.symm
    refine ⟨found, hfound, hkey, rfl, ?_, .inl ⟨hfind, hnew.symm⟩⟩
    intro other hmem hne
    rcases mem_withNewContext.mp hmem with hold | hsame
    · exact hold
    · exact absurd (congrArg MctDaemonContext.key (hsame.trans hnew)) hne

end Registration

end MctDaemonUsers

section Bytes

theorem toNat_uint8 (n : Int) : ((uint8 n).toNat : Int) = n % 256 := by
  have hlow := Int.emod_nonneg n (show (256 : Int) ≠ 0 by decide)
  have hhigh := Int.emod_lt_of_pos n (show (0 : Int) < 256 by decide)
  rw [uint8, UInt8.toNat_ofNat_of_lt' (by simp only [UInt8.size]; omega)]
  omega

/-- A signed byte survives the message. -/
theorem int8_uint8 (n : Int) : int8 (uint8 n).toNat = int8 n := by
  rw [toNat_uint8, int8, int8, ← Int.emod_bmod (n := 256) n]
  rfl

theorem int8_range (n : Int) : -128 ≤ int8 n ∧ int8 n ≤ 127 := by
  have hlow := Int.le_bmod (x := n) (m := 256) (by decide)
  have hhigh := Int.bmod_lt (x := n) (m := 256) (by decide)
  rw [int8]
  omega

theorem int8_of_range {n : Int} (hlow : -128 ≤ n) (hhigh : n ≤ 127) : int8 n = n :=
  Int.bmod_eq_of_le (by omega) (by omega)

theorem int8_int8 (n : Int) : int8 (int8 n) = int8 n :=
  int8_of_range (int8_range n).1 (int8_range n).2

end Bytes

namespace LevelState

theorem users_userSendLogLevel (flags : LevelFlags) (s : LevelState) (k : Nat)
    (write : SendResult) :
    (s.userSendLogLevel flags k write).2.users = (s.users.userSendLogLevel k write).2 := by
  unfold userSendLogLevel
  cases hk : s.users.contexts[k]? with
  | none => simp only [MctDaemonUsers.userSendLogLevel, hk]
  | some context => rfl

section Loops

variable {inv : LevelState → Prop} {flags : LevelFlags} {writes : Nat → SendResult}

/-- What each turn carries on from one position to the next. -/
theorem forEachContext_induction {f : LevelState → Nat → MctDaemonContext → LevelState}
    {motive : Nat → LevelState → Prop} {s : LevelState} (hstart : motive 0 s)
    (hnone : ∀ n t, n < s.users.contexts.length → motive n t → t.users.contexts[n]? = none →
      motive (n + 1) t)
    (hsome : ∀ n t context, n < s.users.contexts.length → motive n t →
      t.users.contexts[n]? = some context → motive (n + 1) (f t n context)) :
    motive s.users.contexts.length (s.forEachContext f) := by
  unfold forEachContext
  generalize hlength : s.users.contexts.length = length
  have hle : length ≤ s.users.contexts.length := hlength.ge
  clear hlength
  induction length with
  | zero => exact hstart
  | succ n ih =>
      have hbefore := ih (by omega)
      rw [List.range_succ, List.foldl_append, List.foldl_cons, List.foldl_nil]
      split
      · next hlookup => exact hnone n _ hle hbefore hlookup
      · next context hlookup => exact hsome n _ context hle hbefore hlookup

theorem forEachContext_keeps {f : LevelState → Nat → MctDaemonContext → LevelState}
    (hf : ∀ s count context, inv s → s.users.contexts[count]? = some context →
      inv (f s count context)) {s : LevelState} (h : inv s) : inv (s.forEachContext f) :=
  forEachContext_induction (motive := fun _ t => inv t) h (fun _ _ _ ht _ => ht)
    fun count t context _ ht hcontext => hf t count context ht hcontext

theorem findMultipleContextLoop_keeps {kind : LevelKind} {status : Int}
    (hsend : ∀ s k, inv s → inv (s.sendStatus kind flags k status (writes k))) (appFlag : Bool)
    (str : List Char) (len : Nat) {s : LevelState} (h : inv s) (counts : List Nat) :
    inv (findMultipleContextLoop kind flags appFlag str len status writes s counts) := by
  induction counts generalizing s with
  | nil => exact h
  | cons count counts ih =>
      unfold findMultipleContextLoop
      split
      · exact h
      · split
        · exact ih (hsend s count h)
        · split
          · exact h
          · exact ih h
        · exact ih h

theorem int8_requested (kind : LevelKind) (flags : LevelFlags) (level : UInt8) :
    int8 (if flags.enforceContextLLAndTS then uint8 (getStatus level (flags.cap kind))
      else level).toNat = requested kind flags level := by
  unfold requested
  split
  · rw [int8_uint8, getStatus, int8_int8]
  · rfl

/-- What every single context keeps is kept by a request, however it names its
contexts. -/
theorem controlSetStatus_keeps {kind : LevelKind} {req : MctServiceSetLogLevel}
    (hsend : ∀ s k, inv s →
      inv (s.sendStatus kind flags k (requested kind flags req.logLevel) (writes k)))
    {s : LevelState} (h : inv s) : inv (s.controlSetStatus kind flags req writes) := by
  have hstatus := int8_requested kind flags req.logLevel
  have hloop : ∀ appFlag str len,
      inv (s.findMultipleContextAndSendStatus kind flags appFlag str len
        (requested kind flags req.logLevel) writes) :=
    fun appFlag str len => findMultipleContextLoop_keeps hsend appFlag str len h _
  unfold controlSetStatus
  simp only [hstatus]
  split
  · exact hloop _ _ _
  split
  · exact hloop _ _ _
  split
  · exact hloop _ _ _
  split
  · exact hloop _ _ _
  split
  · exact h
  · exact hsend _ _ h

theorem setAppLlTs_keeps {logLevel traceStatus : UInt8}
    (hset : ∀ s pos k, inv s → inv (s.setContextLlTs flags pos logLevel traceStatus (writes k)))
    (apid : ID4) {s : LevelState} (h : inv s) :
    inv (s.setAppLlTs flags apid logLevel traceStatus writes) := by
  unfold setAppLlTs
  split
  · exact h
  · split
    · exact h
    · apply List.foldlRecOn _ _ h
      intro t ht k _
      split
      · exact ht
      · exact hset t _ k ht

end Loops

end LevelState

end MctDaemon.Daemon
