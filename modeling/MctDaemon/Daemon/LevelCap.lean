import MctDaemon.Daemon.LevelFrames

/-!
The enforced cap on log levels and trace statuses. Every path by which a value
reaches a context, a default or a message clips it, except the one by which an
application sets the levels of its own contexts.
-/

namespace MctDaemon.Daemon

open Lib Shared

/-- The daemon enforces the configured values, which are levels. -/
structure LevelFlags.Enforced (flags : LevelFlags) : Prop where
  enforce : flags.enforceContextLLAndTS = true
  contextLogLevel : 0 ≤ flags.contextLogLevel ∧ flags.contextLogLevel ≤ mctLogVerbose
  contextTraceStatus : 0 ≤ flags.contextTraceStatus ∧ flags.contextTraceStatus ≤ mctTraceStatusOn

theorem LevelFlags.Enforced.cap {flags : LevelFlags} (h : flags.Enforced) (kind : LevelKind) :
    0 ≤ flags.cap kind ∧ flags.cap kind ≤ 6 := by
  have hlevel := h.contextLogLevel
  have hstatus := h.contextTraceStatus
  have hverbose : mctLogVerbose = 6 := rfl
  have hon : mctTraceStatusOn = 1 := rfl
  cases kind with
  | logLevel =>
      simp only [LevelFlags.cap]
      omega
  | traceStatus =>
      simp only [LevelFlags.cap]
      omega

/-- The configured value is kept by its conversion. -/
theorem LevelFlags.Enforced.within_int8_cap {flags : LevelFlags} (h : flags.Enforced)
    (kind : LevelKind) : 0 ≤ int8 (flags.cap kind) ∧ int8 (flags.cap kind) ≤ flags.cap kind := by
  obtain ⟨hlow, hhigh⟩ := h.cap kind
  rw [int8_of_range (by omega) (by omega)]
  exact ⟨hlow, le_refl _⟩

/-- The value is the default, or one that is allowed. -/
def Within (cap level : Int) : Prop := level = -1 ∨ 0 ≤ level ∧ level ≤ cap

/-- The byte is the default, or one that is allowed. -/
def ByteWithin (cap : Int) (byte : UInt8) : Prop := (byte.toNat : Int) ≤ cap ∨ byte = 255

instance (cap : Int) (byte : UInt8) : Decidable (ByteWithin cap byte) :=
  inferInstanceAs (Decidable (_ ∨ _))

theorem ByteWithin.within {cap : Int} {byte : UInt8} (h : ByteWithin cap byte) (hcap : cap ≤ 6) :
    Within cap (int8 byte.toNat) := by
  rcases h with hle | rfl
  · rw [int8_of_range (by omega) (by omega)]
    exact .inr ⟨by omega, hle⟩
  · exact .inl (by decide)

theorem within_getStatus {cap : Int} (hlow : 0 ≤ cap) (hhigh : cap ≤ 6) (request : UInt8) :
    0 ≤ getStatus request cap ∧ getStatus request cap ≤ cap := by
  unfold getStatus
  split
  · rw [int8_of_range (by omega) (by omega)]
    omega
  · rw [int8_of_range (by omega) (by omega)]
    omega

/-- What is asked for is clipped. -/
theorem LevelFlags.Enforced.requested {flags : LevelFlags} (h : flags.Enforced) (kind : LevelKind)
    (level : UInt8) : 0 ≤ LevelState.requested kind flags level ∧
      LevelState.requested kind flags level ≤ flags.cap kind := by
  obtain ⟨hlow, hhigh⟩ := h.cap kind
  rw [LevelState.requested, if_pos h.enforce]
  exact within_getStatus hlow hhigh level

namespace MctDaemonContext

/-- Both settings are within the cap. The storage log level is unset, or zero in
an entry that is not complete. -/
structure Capped (flags : LevelFlags) (context : MctDaemonContext) : Prop where
  logLevel : Within flags.contextLogLevel context.logLevel
  traceStatus : Within flags.contextTraceStatus context.traceStatus
  storage : context.storageLogLevel = mctLogDefault ∨ context.storageLogLevel = 0

variable {flags : LevelFlags} {context : MctDaemonContext}

theorem Capped.status (h : context.Capped flags) (kind : LevelKind) :
    Within (flags.cap kind) (context.status kind) := by
  cases kind with
  | logLevel => exact h.logLevel
  | traceStatus => exact h.traceStatus

theorem Capped.withStatus (h : context.Capped flags) {kind : LevelKind} {status : Int}
    (hstatus : Within (flags.cap kind) status) : (context.withStatus kind status).Capped flags := by
  cases kind with
  | logLevel => exact ⟨hstatus, h.traceStatus, h.storage⟩
  | traceStatus => exact ⟨h.logLevel, hstatus, h.storage⟩

theorem Capped.withLevels (h : context.Capped flags) {logLevel traceStatus : Int}
    (hlevel : Within flags.contextLogLevel logLevel)
    (hstatus : Within flags.contextTraceStatus traceStatus) :
    (MctDaemonUsers.withLevels logLevel traceStatus context).Capped flags :=
  ⟨hlevel, hstatus, h.storage⟩

theorem Capped.mayLoseHandle (h : context.Capped flags) {context' : MctDaemonContext}
    (hloses : MctDaemonUsers.MayLoseHandle context context') : context'.Capped flags := by
  rcases hloses with rfl | rfl
  · exact h
  · exact ⟨h.logLevel, h.traceStatus, h.storage⟩

end MctDaemonContext

def MctUserControlMsgLogLevel.Capped (flags : LevelFlags) (message : MctUserControlMsgLogLevel) :
    Prop :=
  (message.logLevel.toNat : Int) ≤ flags.contextLogLevel ∧
    (message.traceStatus.toNat : Int) ≤ flags.contextTraceStatus

/-- The tables and all messages so far are within the cap. -/
structure WithinCap (flags : LevelFlags) (s : LevelState) : Prop where
  ownEcu : s.users.ownEcu = true
  forceLlTs : s.users.forceLlTs = true
  notLoaded : s.users.runtimeContextCfgLoaded = false
  defaultLogLevel : 0 ≤ s.users.defaultLogLevel ∧ s.users.defaultLogLevel ≤ flags.contextLogLevel
  defaultTraceStatus : 0 ≤ s.users.defaultTraceStatus ∧
    s.users.defaultTraceStatus ≤ flags.contextTraceStatus
  contexts : ∀ context ∈ s.users.contexts, context.Capped flags
  events : ∀ key message, .delivered key message ∈ s.events → message.Capped flags

variable {flags : LevelFlags} {s : LevelState}

section Messages

theorem toNat_uint8_le {n cap : Int} (hlow : 0 ≤ n) (hn : n ≤ cap) :
    ((uint8 n).toNat : Int) ≤ cap := by
  rw [toNat_uint8]
  omega

theorem WithinCap.levelMessage (h : WithinCap flags s) (henforced : flags.Enforced)
    {context : MctDaemonContext} (hcontext : context.Capped flags) :
    (s.users.levelMessage flags context).Capped flags := by
  obtain ⟨hlow, hhigh⟩ := h.defaultLogLevel
  obtain ⟨hlow', hhigh'⟩ := h.defaultTraceStatus
  have hcap := henforced.cap .logLevel
  have hcap' := henforced.cap .traceStatus
  simp only [LevelFlags.cap] at hcap hcap'
  have hdefault : mctLogDefault = -1 := rfl
  have hdefault' : mctTraceStatusDefault = -1 := rfl
  constructor
  · refine toNat_uint8_le ?_ ?_
    · split
      · have hstorage := hcontext.storage
        omega
      · split
        · exact hlow
        · have hlevel := hcontext.logLevel
          unfold Within at hlevel
          omega
    · split
      · have hstorage := hcontext.storage
        have hlevel := hcontext.logLevel
        unfold Within at hlevel
        omega
      · split
        · exact hhigh
        · have hlevel := hcontext.logLevel
          unfold Within at hlevel
          omega
  · refine toNat_uint8_le ?_ ?_
    · split
      · exact hlow'
      · have hstatus := hcontext.traceStatus
        unfold Within at hstatus
        omega
    · split
      · exact hhigh'
      · have hstatus := hcontext.traceStatus
        unfold Within at hstatus
        omega

theorem WithinCap.reduces (h : WithinCap flags s) {users : MctDaemonUsers}
    (hreduces : s.users.Reduces users) : WithinCap flags (s.withUsers users) := by
  have hsettings := hreduces.settings
  simp only [MctDaemonUsers.settings, Prod.mk.injEq] at hsettings
  obtain ⟨hown, hlevel, hstatus, hforce, hloaded⟩ := hsettings
  refine ⟨hown.trans h.ownEcu, hforce.trans h.forceLlTs, hloaded.trans h.notLoaded, ?_, ?_, ?_,
    h.events⟩
  · simp only [LevelState.withUsers, hlevel]
    exact h.defaultLogLevel
  · simp only [LevelState.withUsers, hstatus]
    exact h.defaultTraceStatus
  · intro context' hmem
    obtain ⟨context, hcontext, hloses⟩ := hreduces.contexts context' hmem
    exact (h.contexts context hcontext).mayLoseHandle hloses

theorem WithinCap.modifyContext (h : WithinCap flags s) (k : Nat)
    {f : MctDaemonContext → MctDaemonContext}
    (hf : ∀ context : MctDaemonContext, context.Capped flags → (f context).Capped flags) :
    WithinCap flags (s.modifyContext k f) := by
  refine ⟨h.ownEcu, h.forceLlTs, h.notLoaded, h.defaultLogLevel, h.defaultTraceStatus, ?_, h.events⟩
  intro context hmem
  rcases mem_of_mem_modify hmem with hold | ⟨old, hold, rfl⟩
  · exact h.contexts context hold
  · exact hf old (h.contexts old (List.mem_of_getElem? hold))

theorem WithinCap.userSendLogLevel (h : WithinCap flags s) (henforced : flags.Enforced) (k : Nat)
    (write : SendResult) : WithinCap flags (s.userSendLogLevel flags k write).2 := by
  unfold LevelState.userSendLogLevel
  cases hk : s.users.contexts[k]? with
  | none => exact h
  | some context =>
      have hreduced := h.reduces (MctDaemonUsers.reduces_userSendLogLevel (d := s.users) k write)
      refine ⟨hreduced.ownEcu, hreduced.forceLlTs, hreduced.notLoaded, hreduced.defaultLogLevel,
        hreduced.defaultTraceStatus, hreduced.contexts, ?_⟩
      intro key message hmem
      simp only at hmem
      split at hmem
      · rcases List.mem_append.mp hmem with hold | hnew
        · exact h.events key message hold
        · rw [List.mem_singleton, LevelEvent.delivered.injEq] at hnew
          rw [hnew.2]
          exact h.levelMessage henforced (h.contexts context (List.mem_of_getElem? hk))
      · exact h.events key message hmem

theorem WithinCap.sendIfValid (h : WithinCap flags s) (henforced : flags.Enforced) (k : Nat)
    (context : MctDaemonContext) (otherwise : Bool) (write : SendResult) :
    WithinCap flags (s.sendIfValid flags k context otherwise write).2 := by
  unfold LevelState.sendIfValid
  split
  · exact h.userSendLogLevel henforced k write
  · exact h

end Messages

section Steps

theorem WithinCap.sendStatus (h : WithinCap flags s) (henforced : flags.Enforced)
    {kind : LevelKind} {status : Int} (hstatus : Within (flags.cap kind) status) (k : Nat)
    (write : SendResult) : WithinCap flags (s.sendStatus kind flags k status write) := by
  unfold LevelState.sendStatus
  cases hk : s.users.contexts[k]? with
  | none => exact h
  | some context =>
      have hset := h.modifyContext k (f := (·.withStatus kind status)) fun _ hold =>
        hold.withStatus hstatus
      have hsent := hset.sendIfValid henforced k context false write
      simp only
      split
      · exact hsent
      · exact hsent.modifyContext k fun _ hold =>
          hold.withStatus ((h.contexts context (List.mem_of_getElem? hk)).status kind)

theorem WithinCap.setContextLlTs (h : WithinCap flags s) (henforced : flags.Enforced)
    {logLevel traceStatus : UInt8} (hlevel : ByteWithin flags.contextLogLevel logLevel)
    (hstatus : ByteWithin flags.contextTraceStatus traceStatus) (k : Nat) (write : SendResult) :
    WithinCap flags (s.setContextLlTs flags k logLevel traceStatus write) := by
  unfold LevelState.setContextLlTs
  cases hk : s.users.contexts[k]? with
  | none => exact h
  | some context =>
      have hset := h.modifyContext k
        (f := MctDaemonUsers.withLevels (int8 logLevel.toNat) (int8 traceStatus.toNat))
        fun _ hold => hold.withLevels (hlevel.within (henforced.cap .logLevel).2)
            (hstatus.within (henforced.cap .traceStatus).2)
      have hsent := hset.sendIfValid henforced k context true write
      have hcontext := h.contexts context (List.mem_of_getElem? hk)
      simp only
      split
      · exact hsent
      · exact hsent.modifyContext k fun _ hold =>
          hold.withLevels hcontext.logLevel hcontext.traceStatus

theorem WithinCap.userSendDefaultUpdate (h : WithinCap flags s) (henforced : flags.Enforced)
    (writes : Nat → SendResult) : WithinCap flags (s.userSendDefaultUpdate flags writes) := by
  refine LevelState.forEachContext_keeps ?_ h
  intro t count context ht _
  split
  · exact ht.sendIfValid henforced count context true (writes count)
  · exact ht

theorem WithinCap.userSendAllStatusUpdate (h : WithinCap flags s) (henforced : flags.Enforced)
    {kind : LevelKind} {status : Int} (hstatus : Within (flags.cap kind) status)
    (writes : Nat → SendResult) :
    WithinCap flags (s.userSendAllStatusUpdate kind flags status writes) := by
  refine LevelState.forEachContext_keeps ?_ h
  intro t count context ht _
  split
  · exact (ht.modifyContext count fun _ hold => hold.withStatus hstatus).userSendLogLevel henforced
      count (writes count)
  · exact ht

theorem WithinCap.setDefault (h : WithinCap flags s) {kind : LevelKind} {status : Int}
    (hstatus : 0 ≤ status ∧ status ≤ flags.cap kind) :
    WithinCap flags (s.withUsers (s.users.setDefault kind status)) := by
  cases kind with
  | logLevel =>
      exact ⟨h.ownEcu, h.forceLlTs, h.notLoaded, hstatus, h.defaultTraceStatus, h.contexts,
        h.events⟩
  | traceStatus =>
      exact ⟨h.ownEcu, h.forceLlTs, h.notLoaded, h.defaultLogLevel, hstatus, h.contexts, h.events⟩

theorem WithinCap.controlSetDefaultStatus (h : WithinCap flags s) (henforced : flags.Enforced)
    (kind : LevelKind) (accepted : UInt8 → Bool) (level : UInt8) (writes : Nat → SendResult) :
    WithinCap flags (LevelState.controlSetDefaultStatus kind accepted flags s level writes) := by
  unfold LevelState.controlSetDefaultStatus
  split
  · exact (h.setDefault (henforced.requested kind level)).userSendDefaultUpdate henforced writes
  · exact h

theorem WithinCap.controlSetAllStatus (h : WithinCap flags s) (henforced : flags.Enforced)
    (kind : LevelKind) (accepted : UInt8 → Bool) (level : UInt8) (writes : Nat → SendResult) :
    WithinCap flags (LevelState.controlSetAllStatus kind accepted flags s level writes) := by
  unfold LevelState.controlSetAllStatus
  split
  · exact h.userSendAllStatusUpdate henforced (.inr (henforced.requested kind level)) writes
  · exact h

theorem WithinCap.controlSetStatus (h : WithinCap flags s) (henforced : flags.Enforced)
    (kind : LevelKind) (req : MctServiceSetLogLevel) (writes : Nat → SendResult) :
    WithinCap flags (s.controlSetStatus kind flags req writes) :=
  LevelState.controlSetStatus_keeps
    (fun _ k ht => ht.sendStatus henforced (.inr (henforced.requested kind req.logLevel)) k _) h

theorem WithinCap.controlResetToFactoryDefault (h : WithinCap flags s)
    (henforced : flags.Enforced) (writes : Nat → SendResult) :
    WithinCap flags (s.controlResetToFactoryDefault flags writes) := by
  unfold LevelState.controlResetToFactoryDefault
  split
  · refine WithinCap.userSendDefaultUpdate ?_ henforced writes
    refine ⟨h.ownEcu, henforced.enforce, h.notLoaded, ?_, ?_, h.contexts, h.events⟩
    · exact henforced.within_int8_cap .logLevel
    · exact henforced.within_int8_cap .traceStatus
  · exact h

/-- A registration is clipped to the current defaults. -/
theorem WithinCap.storeContext (h : WithinCap flags s) (isNew : Bool)
    {logLevel traceStatus : Int} (hranges : -1 ≤ logLevel ∧ -1 ≤ traceStatus)
    (logLevelPos userHandle : Int) (description : Option (List Char)) {context : MctDaemonContext}
    (hstorage : context.storageLogLevel = mctLogDefault ∨ context.storageLogLevel = 0) :
    (s.users.storeContext isNew logLevel traceStatus logLevelPos userHandle description
      context).Capped flags := by
  have hlevel := h.defaultLogLevel
  have hstatus := h.defaultTraceStatus
  have hforced : (s.users.ownEcu && s.users.forceLlTs) = true := by
    rw [h.ownEcu, h.forceLlTs]
    rfl
  refine ⟨?_, ?_, hstorage⟩
  · simp only [MctDaemonUsers.storeContext, hforced, h.notLoaded, Bool.not_false, Bool.or_true,
      if_true]
    unfold Within
    omega
  · simp only [MctDaemonUsers.storeContext, hforced, h.notLoaded, Bool.not_false, Bool.or_true,
      if_true]
    unfold Within
    omega

theorem WithinCap.contextAdd (h : WithinCap flags s) (apid ctid : ID4)
    (logLevel traceStatus logLevelPos userHandle : Int) (description : Option (List Char)) :
    WithinCap flags (s.withUsers (s.users.contextAdd apid ctid logLevel traceStatus logLevelPos
      userHandle description).2) := by
  obtain hnone | ⟨⟨hlevel, _, hstatus, _⟩, ⟨k, _, hadd⟩ | ⟨i, context, _, rfl, hadd⟩⟩ :=
    s.users.contextAdd_cases apid ctid logLevel traceStatus logLevelPos userHandle description
  · rw [hnone]
    exact h
  · rw [hadd]
    exact h.modifyContext k fun context hold =>
      h.storeContext false ⟨hlevel, hstatus⟩ logLevelPos userHandle description hold.storage
  · rw [hadd]
    refine ⟨h.ownEcu, h.forceLlTs, h.notLoaded, h.defaultLogLevel, h.defaultTraceStatus, ?_,
      h.events⟩
    intro other hmem
    rcases MctDaemonUsers.mem_withNewContext.mp hmem with hold | rfl
    · exact h.contexts other hold
    · exact h.storeContext true ⟨hlevel, hstatus⟩ logLevelPos userHandle description
        (.inr rfl)

theorem WithinCap.registerContext (h : WithinCap flags s) (henforced : flags.Enforced)
    (apid ctid : ID4) (logLevel traceStatus logLevelPos : Int) (description : List Char)
    (write : SendResult) :
    WithinCap flags (s.registerContext flags apid ctid logLevel traceStatus logLevelPos description
      write) := by
  have hadd : ∀ (application : MctDaemonApplication) (logLevel traceStatus : Int),
      WithinCap flags (s.addContextOf flags application apid ctid logLevel traceStatus logLevelPos
        description write) := by
    intro application logLevel traceStatus
    have hadded := h.contextAdd apid ctid logLevel traceStatus logLevelPos
      application.userHandle (some description)
    unfold LevelState.addContextOf
    generalize s.users.contextAdd apid ctid logLevel traceStatus logLevelPos
      application.userHandle (some description) = added at hadded ⊢
    obtain ⟨found, users⟩ := added
    cases found with
    | none => exact hadded
    | some k =>
        have hregistered : WithinCap flags ⟨users, s.events ++
            [.registered (toLex (setId apid.chars, setId ctid.chars)) logLevel traceStatus]⟩ := by
          refine ⟨hadded.ownEcu, hadded.forceLlTs, hadded.notLoaded, hadded.defaultLogLevel,
            hadded.defaultTraceStatus, hadded.contexts, ?_⟩
          intro key message hmem
          rcases List.mem_append.mp hmem with hold | hnew
          · exact h.events key message hold
          · rw [List.mem_singleton] at hnew
            cases hnew
        have hstored := hregistered.modifyContext k
          (f := fun context => { context with storageLogLevel := mctLogDefault })
          fun _ hold => ⟨hold.logLevel, hold.traceStatus, .inl rfl⟩
        simp only
        split
        · exact hstored.userSendLogLevel henforced k write
        · exact hstored
  unfold LevelState.registerContext
  split
  · exact h
  split
  · exact h
  generalize (if logLevel = mctUserLogLevelNotSet then mctLogDefault else logLevel) = level
  generalize (if traceStatus = mctUserTraceStatusNotSet then mctTraceStatusDefault
    else traceStatus) = status
  simp only
  split
  · exact h
  split
  · exact h
  exact hadd _ _ _

end Steps

section Runs

def LevelOp.LoadsNothing : LevelOp → Prop
  | .loadApplication .. => False
  | .loadContext .. => False
  | .runtimeContextCfgLoaded => False
  | _ => True

instance : (op : LevelOp) → Decidable op.LoadsNothing
  | .loadApplication .. | .loadContext .. | .runtimeContextCfgLoaded => isFalse id
  | .registerApplication .. | .unregisterApplication .. | .registerContext ..
  | .unregisterContext .. | .setAppLlTs .. | .setLogLevel .. | .setTraceStatus ..
  | .setDefaultLogLevel .. | .setDefaultTraceStatus .. | .setAllLogLevel ..
  | .setAllTraceStatus .. | .resetToFactoryDefault .. | .storeConfig .. => isTrue trivial

def MctDaemonUsers.hasContexts (d : MctDaemonUsers) (apid : ID4) : Bool :=
  (d.applicationFind apid).any fun i =>
    d.applications[i]?.any fun application => 0 < application.numContexts

/-- An application that sets the levels of its contexts asks for the default or
for what is allowed. -/
def SetsWithinCap (flags : LevelFlags) (s : LevelState) : LevelOp → Prop
  | .setAppLlTs apid logLevel traceStatus _ =>
      s.users.hasContexts apid →
        ByteWithin flags.contextLogLevel logLevel ∧ ByteWithin flags.contextTraceStatus traceStatus
  | _ => True

instance (flags : LevelFlags) (s : LevelState) :
    (op : LevelOp) → Decidable (SetsWithinCap flags s op)
  | .setAppLlTs .. => inferInstanceAs (Decidable (_ → _))
  | .loadApplication .. | .loadContext .. | .runtimeContextCfgLoaded | .registerApplication ..
  | .unregisterApplication .. | .registerContext .. | .unregisterContext .. | .setLogLevel ..
  | .setTraceStatus .. | .setDefaultLogLevel .. | .setDefaultTraceStatus .. | .setAllLogLevel ..
  | .setAllTraceStatus .. | .resetToFactoryDefault .. | .storeConfig .. => isTrue trivial

/-- The levels of no context are set for an application that has none. -/
theorem setAppLlTs_of_not_hasContexts {apid : ID4} (hnone : ¬ s.users.hasContexts apid)
    (logLevel traceStatus : UInt8) (writes : Nat → SendResult) :
    s.setAppLlTs flags apid logLevel traceStatus writes = s := by
  unfold LevelState.setAppLlTs
  unfold MctDaemonUsers.hasContexts at hnone
  cases hfound : s.users.applicationFind apid with
  | none => rfl
  | some i =>
      cases hi : s.users.applications[i]? with
      | none => simp only [hi]
      | some application =>
          have hcount : application.numContexts.toNat = 0 := by
            simp only [hfound, Option.any_some, hi, decide_eq_true_eq, not_lt] at hnone
            omega
          simp only [hi, hcount, List.range_zero, List.foldl_nil]

theorem WithinCap.setAppLlTs (h : WithinCap flags s) (henforced : flags.Enforced) (apid : ID4)
    (logLevel traceStatus : UInt8) (writes : Nat → SendResult)
    (hguard : SetsWithinCap flags s (.setAppLlTs apid logLevel traceStatus writes)) :
    WithinCap flags (s.setAppLlTs flags apid logLevel traceStatus writes) := by
  by_cases hcontexts : s.users.hasContexts apid
  · obtain ⟨hlevel, hstatus⟩ := hguard hcontexts
    exact LevelState.setAppLlTs_keeps
      (fun _ pos _ ht => ht.setContextLlTs henforced hlevel hstatus pos _) apid h
  · rw [setAppLlTs_of_not_hasContexts hcontexts]
    exact h

theorem WithinCap.step (h : WithinCap flags s) (henforced : flags.Enforced) (ipc : MctIpc)
    (op : LevelOp) (hloads : op.LoadsNothing) (hguard : SetsWithinCap flags s op) :
    WithinCap flags (levelStep ipc flags s op).2 := by
  cases op with
  | loadApplication apid description => exact hloads.elim
  | loadContext apid ctid logLevel traceStatus description => exact hloads.elim
  | runtimeContextCfgLoaded => exact hloads.elim
  | registerApplication apid pid description fd opened logState writes =>
      exact h.reduces (MctDaemonUsers.reduces_registerApplication ipc apid pid description fd opened
        logState writes)
  | unregisterApplication apid =>
      exact h.reduces (MctDaemonUsers.reduces_unregisterApplication apid)
  | registerContext apid ctid logLevel traceStatus logLevelPos description write =>
      exact h.registerContext henforced apid ctid logLevel traceStatus logLevelPos description write
  | unregisterContext apid ctid =>
      exact h.reduces (MctDaemonUsers.reduces_unregisterContext apid ctid)
  | setAppLlTs apid logLevel traceStatus writes =>
      exact h.setAppLlTs henforced apid logLevel traceStatus writes hguard
  | setLogLevel req writes => exact h.controlSetStatus henforced .logLevel req writes
  | setTraceStatus req writes => exact h.controlSetStatus henforced .traceStatus req writes
  | setDefaultLogLevel level writes =>
      simp only [levelStep, LevelState.controlSetDefaultLogLevel]
      exact h.controlSetDefaultStatus henforced .logLevel _ level writes
  | setDefaultTraceStatus level writes =>
      simp only [levelStep, LevelState.controlSetDefaultTraceStatus]
      exact h.controlSetDefaultStatus henforced .traceStatus _ level writes
  | setAllLogLevel level writes =>
      simp only [levelStep, LevelState.controlSetAllLogLevel]
      exact h.controlSetAllStatus henforced .logLevel _ level writes
  | setAllTraceStatus level writes =>
      simp only [levelStep, LevelState.controlSetAllTraceStatus]
      exact h.controlSetAllStatus henforced .traceStatus _ level writes
  | resetToFactoryDefault writes => exact h.controlResetToFactoryDefault henforced writes
  | storeConfig applicationsSaved contextsSaved writes =>
      simp only [levelStep, LevelState.controlStoreConfig]
      split
      · exact h.controlResetToFactoryDefault henforced writes
      · exact h

/-- The daemon as it starts with the cap enforced. -/
def LevelFlags.start (flags : LevelFlags) (blockMode : Int) : LevelState where
  users :=
    { ownEcu := true
      applications := []
      contexts := []
      defaultLogLevel := int8 flags.contextLogLevel
      defaultTraceStatus := int8 flags.contextTraceStatus
      forceLlTs := flags.enforceContextLLAndTS
      runtimeContextCfgLoaded := false
      blockMode := blockMode }
  events := []

/-- No context, no default and no message exceeds the configured values. -/
def NeverAbove (flags : LevelFlags) (s : LevelState) : Prop :=
  (∀ context ∈ s.users.contexts, context.logLevel ≤ flags.contextLogLevel ∧
    context.traceStatus ≤ flags.contextTraceStatus) ∧
  (s.users.defaultLogLevel ≤ flags.contextLogLevel ∧
    s.users.defaultTraceStatus ≤ flags.contextTraceStatus) ∧
  ∀ key message, .delivered key message ∈ s.events → message.Capped flags

/-- The cap holds in every run in which applications do not set levels above it
themselves. -/
theorem cap_never_exceeded (ipc : MctIpc) (flags : LevelFlags) (henforced : flags.Enforced)
    (blockMode : Int) (ops : List LevelOp) (hloads : ∀ op ∈ ops, op.LoadsNothing)
    (hops : Guarded (levelStep ipc flags) (SetsWithinCap flags) (flags.start blockMode) ops) :
    NeverAbove flags (runOps (levelStep ipc flags) (flags.start blockMode) ops).2 := by
  have hlevel := henforced.cap .logLevel
  have hstatus := henforced.cap .traceStatus
  have hstart : WithinCap flags (flags.start blockMode) := by
    refine ⟨rfl, henforced.enforce, rfl, ?_, ?_, ?_, ?_⟩
    · exact henforced.within_int8_cap .logLevel
    · exact henforced.within_int8_cap .traceStatus
    · exact fun context hmem => absurd hmem List.not_mem_nil
    · exact fun key message hmem => absurd hmem List.not_mem_nil
  have hstep : ∀ s op, WithinCap flags s → op.LoadsNothing ∧ SetsWithinCap flags s op →
      WithinCap flags (levelStep ipc flags s op).2 :=
    fun _ op hs hop => hs.step henforced ipc op hop.1 hop.2
  have h := runOps_keeps hstep hstart ops (hops.and_forall hloads)
  refine ⟨?_, ⟨h.defaultLogLevel.2, h.defaultTraceStatus.2⟩, h.events⟩
  intro context hmem
  have hcapped := h.contexts context hmem
  have hlogLevel := hcapped.logLevel
  have htraceStatus := hcapped.traceStatus
  simp only [LevelFlags.cap] at hlevel hstatus
  unfold Within at hlogLevel htraceStatus
  omega

/-- A daemon that allows WARN, and no traces. An application registers a context
with more, sets its levels, and is asked for more by two requests. -/
def capFlags : LevelFlags := ⟨3, 0, true, false, true⟩

def capOps : List LevelOp :=
  [.registerApplication (setId ['A', 'P', 'P', '1']) 10 [] 5 0 ⟨true, false⟩
      (fun _ => ⟨true, false⟩),
    .registerContext (setId ['A', 'P', 'P', '1']) (setId ['C', 'T', 'X', '1']) 6 (-1) 0 []
      ⟨true, false⟩,
    .setAppLlTs (setId ['A', 'P', 'P', '1']) 2 255 (fun _ => ⟨true, false⟩),
    .setLogLevel ⟨setId ['A', '*', '\x00', '\x00'], setId ['\x00', '\x00', '\x00', '\x00'], 6⟩
      (fun _ => ⟨true, false⟩),
    .setAllTraceStatus 1 (fun _ => ⟨true, false⟩)]

theorem cap_never_exceeded_sample :
    NeverAbove capFlags (runOps (levelStep .unixSocket capFlags) (capFlags.start 0) capOps).2 :=
  cap_never_exceeded .unixSocket capFlags ⟨rfl, by decide, by decide⟩ 0 capOps (by decide)
    (by decide +kernel)

/-- The application sets a level above the cap: it is stored and sent. -/
theorem application_exceeds_cap :
    let final := (runOps (levelStep .unixSocket capFlags) (capFlags.start 0)
      [.registerApplication ⟨['A', 'P', 'P', '1'], rfl⟩ 10 [] 5 0 ⟨true, false⟩
          (fun _ => ⟨true, false⟩),
        .registerContext ⟨['A', 'P', 'P', '1'], rfl⟩ ⟨['C', 'T', 'X', '1'], rfl⟩ 2 0 0 []
          ⟨true, false⟩,
        .setAppLlTs ⟨['A', 'P', 'P', '1'], rfl⟩ 6 0 (fun _ => ⟨true, false⟩)]).2
    ¬ NeverAbove capFlags final := by
  intro final hnever
  have hcontexts := hnever.1
  revert hcontexts
  decide +kernel

end Runs

end MctDaemon.Daemon
