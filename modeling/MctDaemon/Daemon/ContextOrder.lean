import MctDaemon.Daemon.LevelFrames

/-!
The contexts stay in the order of their identifiers, whatever is registered,
requested or sent. No condition on the identifiers is needed for this: an
identifier that the search misses is registered again, behind the entry it has
already.
-/

namespace MctDaemon.Daemon

open Lib Shared

namespace MctDaemonUsers

section Keys

variable {d : MctDaemonUsers}

/-- Contexts may have been deleted, but none was added or moved. -/
def FewerKeys (d d' : MctDaemonUsers) : Prop := d'.contextKeys.Sublist d.contextKeys

theorem FewerKeys.refl (d : MctDaemonUsers) : FewerKeys d d := List.Sublist.refl _

theorem FewerKeys.trans {d₁ d₂ d₃ : MctDaemonUsers} (h : FewerKeys d₁ d₂)
    (h' : FewerKeys d₂ d₃) : FewerKeys d₁ d₃ := List.Sublist.trans h' h

theorem SameEntries.fewerKeys {d' : MctDaemonUsers} (h : SameEntries d d') : FewerKeys d d' := by
  unfold FewerKeys
  rw [h.contextKeys]

theorem fewerKeys_modifyContext (k : Nat) {f : MctDaemonContext → MctDaemonContext}
    (hf : ∀ context, (f context).key = context.key) : FewerKeys d (d.modifyContext k f) :=
  (sameEntries_modifyContext k hf).fewerKeys

theorem fewerKeys_applicationAdd (ipc : MctIpc) (apid : ID4) (pid : Int)
    (description : Option (List Char)) (fd opened : Int) :
    FewerKeys d (d.applicationAdd ipc apid pid description fd opened).2 := by
  unfold applicationAdd
  split
  · exact .refl d
  · split
    · exact (sameEntries_storeApplication ipc _ pid description fd opened).fewerKeys
    · exact (sameEntries_storeApplication (d := d.appendApplication (setId apid.chars)) ipc _ pid
        description fd opened).fewerKeys

theorem fewerKeys_applicationDel (pos : Nat) : FewerKeys d (d.applicationDel pos) :=
  (sameEntries_applicationResetUserHandle (d := d) pos).fewerKeys

theorem fewerKeys_updateBlockmodeAt (i : Nat) (blockMode : Int) (write : SendResult) :
    FewerKeys d (d.updateBlockmodeAt i blockMode write) := by
  unfold updateBlockmodeAt userSendUpdateBlockmode
  cases d.applications[i]? with
  | none => exact .refl d
  | some application =>
      simp only
      split
      · split
        · exact .refl d
        · split
          · exact fewerKeys_applicationDel i
          · exact .refl d
      · exact .refl d

theorem fewerKeys_userUpdateBlockmode (name : ID4) (blockMode : Int)
    (writes : Nat → SendResult) :
    FewerKeys d (d.userUpdateBlockmode name blockMode writes).2 := by
  have hfold : ∀ (positions : List Nat) (e : MctDaemonUsers), FewerKeys e
      (positions.foldl (fun e count => e.updateBlockmodeAt count blockMode (writes count)) e) := by
    intro positions
    induction positions with
    | nil => exact fun e => .refl e
    | cons count positions ih =>
        exact fun e => (fewerKeys_updateBlockmodeAt count blockMode (writes count)).trans (ih _)
  unfold userUpdateBlockmode
  split
  · exact .refl d
  · split
    · exact hfold (List.range d.applications.length) d
    · split
      · exact .refl d
      · exact fewerKeys_updateBlockmodeAt _ _ _

theorem fewerKeys_registerApplication (ipc : MctIpc) (apid : ID4) (pid : Int)
    (description : List Char) (fd opened : Int) (logState : SendResult)
    (writes : Nat → SendResult) :
    FewerKeys d (d.registerApplication ipc apid pid description fd opened logState writes).2 := by
  have hadded := fewerKeys_applicationAdd (d := d) ipc apid pid (some description) fd opened
  unfold registerApplication
  simp only
  split
  · exact hadded
  · exact (hadded.trans (sameEntries_userSendLogState _ logState).fewerKeys).trans
      (fewerKeys_userUpdateBlockmode apid _ writes)

theorem fewerKeys_contextDel (pos : Nat) : FewerKeys d (d.contextDel pos) := by
  have hremoved : FewerKeys d { d with contexts := d.contexts.eraseIdx pos } :=
    (List.eraseIdx_sublist d.contexts pos).map MctDaemonContext.key
  unfold contextDel
  split
  · exact .refl d
  · simp only
    split
    · exact hremoved
    · exact hremoved

theorem fewerKeys_contextsDelDown (offset : Int) (count : Nat) :
    FewerKeys d (d.contextsDelDown offset count) := by
  induction count generalizing d with
  | zero => exact .refl d
  | succ count ih =>
      have hone : FewerKeys d (d.atPosition (offset + count) contextDel) := by
        unfold atPosition
        split
        · exact .refl d
        · exact fewerKeys_contextDel _
      exact hone.trans ih

theorem fewerKeys_unregisterApplication (apid : ID4) :
    FewerKeys d (d.unregisterApplication apid) := by
  unfold unregisterApplication
  split
  · exact .refl d
  · split
    · exact .refl d
    · exact (fewerKeys_contextsDelDown _ _).trans (fewerKeys_applicationDel _)

theorem fewerKeys_unregisterContext (apid ctid : ID4) :
    FewerKeys d (d.unregisterContext apid ctid) := by
  unfold unregisterContext
  split
  · exact .refl d
  · split
    · exact .refl d
    · split
      · exact .refl d
      · exact fewerKeys_contextDel _

structure InOrder (d : MctDaemonUsers) : Prop where
  ordered : d.contextKeys.Pairwise (· ≤ ·)
  apids : ∀ key ∈ d.contextKeys, (ofLex key).1.Canonical ∧ ¬ (ofLex key).1.isEmpty
  ctids : ∀ key ∈ d.contextKeys, (ofLex key).2.Canonical ∧ ¬ (ofLex key).2.isEmpty

theorem InOrder.fewer {d' : MctDaemonUsers} (h : d.InOrder) (hfewer : FewerKeys d d') :
    d'.InOrder where
  ordered := List.Pairwise.sublist hfewer h.ordered
  apids key hkey := h.apids key (hfewer.subset hkey)
  ctids key hkey := h.ctids key (hfewer.subset hkey)

/-- A new context is sorted in, be it there already or not. -/
theorem InOrder.withNewContext (h : d.InOrder) (i : Nat) {context : MctDaemonContext}
    (hapid : context.apid.Canonical ∧ ¬ context.apid.isEmpty)
    (hctid : context.ctid.Canonical ∧ ¬ context.ctid.isEmpty) :
    (d.withNewContext i context).InOrder := by
  have hmem : ∀ key, key ∈ (d.withNewContext i context).contextKeys ↔
      key ∈ d.contextKeys ∨ key = context.key := by
    intro key
    change key ∈ (sortByKey MctDaemonContext.key (d.contexts ++ [context])).map _ ↔ _
    rw [mem_map_sortByKey, List.map_append, List.mem_append, List.map_singleton,
      List.mem_singleton]
    rfl
  refine ⟨sortByKey_sorted _ _, fun key hkey => ?_, fun key hkey => ?_⟩
  · rcases (hmem key).mp hkey with hold | rfl
    · exact h.apids key hold
    · exact hapid
  · rcases (hmem key).mp hkey with hold | rfl
    · exact h.ctids key hold
    · exact hctid

theorem InOrder.contextAdd (h : d.InOrder) (apid ctid : ID4)
    (logLevel traceStatus logLevelPos userHandle : Int) (description : Option (List Char)) :
    (d.contextAdd apid ctid logLevel traceStatus logLevelPos userHandle description).2.InOrder := by
  by_cases hempty : (apid.isEmpty || ctid.isEmpty) = true
  · have hrefused : d.contextAdd apid ctid logLevel traceStatus logLevelPos userHandle
        description = (none, d) := by
      unfold MctDaemonUsers.contextAdd
      rw [if_pos hempty]
    rw [hrefused]
    exact h
  rw [Bool.or_eq_true, not_or] at hempty
  rcases contextAdd_cases (d := d) apid ctid logLevel traceStatus logLevelPos userHandle
    description with hrefused | ⟨_, ⟨k, _, hstored⟩ | ⟨i, context, _, hcontext, hadded⟩⟩
  · rw [hrefused]
    exact h
  · rw [hstored]
    exact h.fewer (fewerKeys_modifyContext k (storeContext_key _ _ _ _ _ _))
  · rw [hadded]
    have hkey : context.key = toLex (setId apid.chars, setId ctid.chars) := by
      rw [hcontext, storeContext_key]
      rfl
    have hapid : context.apid = setId apid.chars :=
      congrArg Prod.fst (toLex.injective hkey)
    have hctid : context.ctid = setId ctid.chars :=
      congrArg Prod.snd (toLex.injective hkey)
    refine h.withNewContext i ?_ ?_
    · rw [hapid, isEmpty_setId]
      exact ⟨setId_canonical apid, hempty.1⟩
    · rw [hctid, isEmpty_setId]
      exact ⟨setId_canonical ctid, hempty.2⟩

theorem InOrder.contextApids (h : d.InOrder) : Stored d.contextApids := by
  rw [contextApids_eq_map_keys]
  refine ⟨List.pairwise_map.mpr (h.ordered.imp fun hle => ?_), ?_, ?_⟩
  · exact (Prod.Lex.le_iff.mp hle).elim le_of_lt fun hsame => le_of_eq hsame.1
  · rintro apid hapid
    obtain ⟨key, hkey, rfl⟩ := List.mem_map.mp hapid
    exact (h.apids key hkey).1
  · rintro apid hapid
    obtain ⟨key, hkey, rfl⟩ := List.mem_map.mp hapid
    exact (h.apids key hkey).2

/-- Under canonical identifiers every registered context is found. -/
theorem InOrder.contextFind_isSome (h : d.InOrder) {apid ctid : ID4} (hapid : apid.Canonical)
    (hmem : toLex (setId apid.chars, setId ctid.chars) ∈ d.contextKeys) :
    (d.contextFind apid ctid).isSome := by
  have hempty := (h.apids _ hmem).2
  have hempty' := (h.ctids _ hmem).2
  rw [ofLex_toLex, isEmpty_setId] at hempty hempty'
  have hstored : setId apid.chars ∈ d.contextApids := by
    rw [contextApids_eq_map_keys]
    exact List.mem_map_of_mem hmem
  have hwithin : withinRange (d.contexts.map MctDaemonContext.apid) apid :=
    withinRange_of_mem h.contextApids (.inl hapid) hstored
  unfold contextFind
  rw [if_neg (by simp [hempty, hempty']), if_pos hwithin]
  exact bsearch_isSome_of_mem h.ordered hmem

end Keys

end MctDaemonUsers

namespace LevelState

open MctDaemonUsers

section Keys

variable {flags : LevelFlags} {s : LevelState}

theorem sameEntries_modifyContext (k : Nat) {f : MctDaemonContext → MctDaemonContext}
    (hf : ∀ context, (f context).key = context.key) :
    SameEntries s.users (s.modifyContext k f).users :=
  MctDaemonUsers.sameEntries_modifyContext k hf

theorem sameEntries_userSendLogLevel (k : Nat) (write : SendResult) :
    SameEntries s.users (s.userSendLogLevel flags k write).2.users := by
  rw [users_userSendLogLevel]
  exact MctDaemonUsers.sameEntries_userSendLogLevel k write

theorem sameEntries_sendIfValid (k : Nat) (context : MctDaemonContext) (otherwise : Bool)
    (write : SendResult) :
    SameEntries s.users (s.sendIfValid flags k context otherwise write).2.users := by
  unfold sendIfValid
  split
  · exact sameEntries_userSendLogLevel k write
  · exact .refl _

/-- A setting that is sent, and put back if that fails. -/
theorem sameEntries_sent {f g : MctDaemonContext → MctDaemonContext}
    (hf : ∀ context, (f context).key = context.key) (hg : ∀ context, (g context).key = context.key)
    (k : Nat) (context : MctDaemonContext) (otherwise : Bool) (write : SendResult) :
    SameEntries s.users
      (if ((s.modifyContext k f).sendIfValid flags k context otherwise write).1 then
        ((s.modifyContext k f).sendIfValid flags k context otherwise write).2
      else ((s.modifyContext k f).sendIfValid flags k context otherwise write).2.modifyContext k
        g).users := by
  have hchanged : SameEntries s.users
      ((s.modifyContext k f).sendIfValid flags k context otherwise write).2.users :=
    (sameEntries_modifyContext k hf).trans (sameEntries_sendIfValid k context otherwise write)
  split
  · exact hchanged
  · exact hchanged.trans (sameEntries_modifyContext k hg)

theorem withStatus_key (kind : LevelKind) (status : Int) (context : MctDaemonContext) :
    (context.withStatus kind status).key = context.key := by
  cases kind <;> rfl

theorem sameEntries_sendStatus (kind : LevelKind) (k : Nat) (status : Int) (write : SendResult) :
    SameEntries s.users (s.sendStatus kind flags k status write).users := by
  unfold sendStatus
  split
  · exact .refl _
  · exact sameEntries_sent (withStatus_key kind status) (withStatus_key kind _) k _ false write

theorem sameEntries_setContextLlTs (k : Nat) (logLevel traceStatus : UInt8) (write : SendResult) :
    SameEntries s.users (s.setContextLlTs flags k logLevel traceStatus write).users := by
  unfold setContextLlTs
  split
  · exact .refl _
  · rename_i context _
    have hlevels : ∀ logLevel traceStatus (other : MctDaemonContext),
        (MctDaemonUsers.withLevels logLevel traceStatus other).key = other.key :=
      fun _ _ _ => rfl
    exact sameEntries_sent (hlevels _ _) (hlevels _ _) k context true write

end Keys

section Steps

variable {flags : LevelFlags} {s : LevelState}

/-- The contexts of the daemon are in order. -/
def InOrder (s : LevelState) : Prop := s.users.InOrder

theorem InOrder.fewer {s t : LevelState} (h : s.InOrder) (hfewer : FewerKeys s.users t.users) :
    t.InOrder := MctDaemonUsers.InOrder.fewer h hfewer

theorem inOrder_forEachContext {f : LevelState → Nat → MctDaemonContext → LevelState}
    (hf : ∀ s count context, SameEntries s.users (f s count context).users)
    (h : s.InOrder) : (s.forEachContext f).InOrder :=
  forEachContext_keeps (fun s count context hs _ => hs.fewer (hf s count context).fewerKeys) h

theorem inOrder_userSendDefaultUpdate (h : s.InOrder) (writes : Nat → SendResult) :
    (s.userSendDefaultUpdate flags writes).InOrder := by
  refine inOrder_forEachContext (fun s count context => ?_) h
  split
  · exact sameEntries_sendIfValid count context true (writes count)
  · exact .refl _

theorem inOrder_userSendAllStatusUpdate (h : s.InOrder) (kind : LevelKind) (status : Int)
    (writes : Nat → SendResult) :
    (s.userSendAllStatusUpdate kind flags status writes).InOrder := by
  refine inOrder_forEachContext (fun s count context => ?_) h
  split
  · exact (sameEntries_modifyContext count (withStatus_key kind status)).trans
      (sameEntries_userSendLogLevel count (writes count))
  · exact .refl _

theorem inOrder_controlSetDefaultStatus (h : s.InOrder) (kind : LevelKind)
    (accepted : UInt8 → Bool) (level : UInt8) (writes : Nat → SendResult) :
    (s.controlSetDefaultStatus kind accepted flags level writes).InOrder := by
  unfold controlSetDefaultStatus
  split
  · refine inOrder_userSendDefaultUpdate (h.fewer ?_) writes
    cases kind <;> exact .refl _
  · exact h

theorem inOrder_controlSetAllStatus (h : s.InOrder) (kind : LevelKind)
    (accepted : UInt8 → Bool) (level : UInt8) (writes : Nat → SendResult) :
    (s.controlSetAllStatus kind accepted flags level writes).InOrder := by
  unfold controlSetAllStatus
  split
  · exact inOrder_userSendAllStatusUpdate h kind _ writes
  · exact h

theorem inOrder_controlResetToFactoryDefault (h : s.InOrder) (writes : Nat → SendResult) :
    (s.controlResetToFactoryDefault flags writes).InOrder := by
  unfold controlResetToFactoryDefault
  split
  · refine inOrder_userSendDefaultUpdate (h.fewer ?_) writes
    exact FewerKeys.refl s.users
  · exact h

theorem inOrder_registerContext (h : s.InOrder) (apid ctid : ID4)
    (logLevel traceStatus logLevelPos : Int) (description : List Char) (write : SendResult) :
    (s.registerContext flags apid ctid logLevel traceStatus logLevelPos description
      write).InOrder := by
  have hadd : ∀ application logLevel traceStatus, (s.addContextOf flags application apid ctid
      logLevel traceStatus logLevelPos description write).InOrder := by
    intro application logLevel traceStatus
    have hadded := h.contextAdd apid ctid logLevel traceStatus logLevelPos application.userHandle
      (some description)
    unfold addContextOf
    simp only
    split
    · exact hadded
    · rename_i k _
      have hstorage := hadded.fewer (MctDaemonUsers.fewerKeys_modifyContext k
        (fun context => rfl : ∀ context : MctDaemonContext,
          ({ context with storageLogLevel := mctLogDefault } : MctDaemonContext).key =
            context.key))
      split
      · exact hstorage.fewer (sameEntries_userSendLogLevel k write).fewerKeys
      · exact hstorage
  unfold registerContext
  cases s.users.applicationFind apid with
  | none => exact h
  | some i =>
      dsimp only
      cases s.users.applications[i]? with
      | none => exact h
      | some application =>
          dsimp only
          generalize (if logLevel = mctUserLogLevelNotSet then mctLogDefault else logLevel) = level
          generalize (if traceStatus = mctUserTraceStatusNotSet then mctTraceStatusDefault
            else traceStatus) = status
          split
          · exact h
          · split
            · exact h
            · exact hadd application level status

end Steps

/-- Every operation keeps the order. -/
theorem inOrder_levelStep (ipc : MctIpc) (flags : LevelFlags) {s : LevelState}
    (h : s.InOrder) (op : LevelOp) : (levelStep ipc flags s op).2.InOrder := by
  have hrequest : ∀ kind req writes,
      (s.controlSetStatus kind flags req writes).InOrder := 
    fun kind _ writes => controlSetStatus_keeps
      (fun _ k hs => hs.fewer (sameEntries_sendStatus kind k _ (writes k)).fewerKeys) h
  cases op with
  | loadApplication apid description => exact h.fewer (fewerKeys_applicationAdd _ _ _ _ _ _)
  | loadContext apid ctid logLevel traceStatus description => exact h.contextAdd _ _ _ _ _ _ _
  | runtimeContextCfgLoaded => exact h.fewer (.refl s.users)
  | registerApplication apid pid description fd opened logState writes =>
      exact h.fewer (fewerKeys_registerApplication _ _ _ _ _ _ _ _)
  | unregisterApplication apid => exact h.fewer (fewerKeys_unregisterApplication apid)
  | registerContext apid ctid logLevel traceStatus logLevelPos description write =>
      exact inOrder_registerContext h _ _ _ _ _ _ _
  | unregisterContext apid ctid => exact h.fewer (fewerKeys_unregisterContext apid ctid)
  | setAppLlTs apid logLevel traceStatus writes =>
      exact setAppLlTs_keeps
        (fun _ pos k hs => hs.fewer (sameEntries_setContextLlTs pos _ _ (writes k)).fewerKeys)
        apid h
  | setLogLevel req writes => exact hrequest .logLevel req writes
  | setTraceStatus req writes => exact hrequest .traceStatus req writes
  | setDefaultLogLevel logLevel writes => exact inOrder_controlSetDefaultStatus h _ _ _ _
  | setDefaultTraceStatus logLevel writes => exact inOrder_controlSetDefaultStatus h _ _ _ _
  | setAllLogLevel logLevel writes => exact inOrder_controlSetAllStatus h _ _ _ _
  | setAllTraceStatus logLevel writes => exact inOrder_controlSetAllStatus h _ _ _ _
  | resetToFactoryDefault writes => exact inOrder_controlResetToFactoryDefault h writes
  | storeConfig applicationsSaved contextsSaved writes =>
      change (s.controlStoreConfig flags applicationsSaved contextsSaved writes).InOrder
      unfold controlStoreConfig
      split
      · exact inOrder_controlResetToFactoryDefault h writes
      · exact h

theorem inOrder_of_isEmpty {s : LevelState} (h : s.users.IsEmpty) : s.InOrder := by
  have hnone : s.users.contextKeys = [] := by rw [contextKeys, h.2, List.map_nil]
  refine ⟨?_, ?_, ?_⟩
  · rw [hnone]
    exact List.Pairwise.nil
  · intro key hkey
    rw [hnone] at hkey
    cases hkey
  · intro key hkey
    rw [hnone] at hkey
    cases hkey

/-- Every run does. -/
theorem inOrder_levelRun (ipc : MctIpc) (flags : LevelFlags) {start : LevelState}
    (hstart : start.users.IsEmpty) (ops : List LevelOp) :
    (runOps (levelStep ipc flags) start ops).2.InOrder := by
  have hkeeps : ∀ (s : LevelState) (op : LevelOp), s.InOrder → True →
      (levelStep ipc flags s op).2.InOrder := fun s op hs _ => inOrder_levelStep ipc flags hs op
  exact runOps_keeps hkeeps (inOrder_of_isEmpty hstart) ops (guarded_true _ _ _)

end LevelState

end MctDaemon.Daemon
