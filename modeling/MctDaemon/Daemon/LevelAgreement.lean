import MctDaemon.Daemon.LevelFrames

/-!
What applications hold against what the tables say. An application holds the
values it registered a context with until a LOG_LEVEL message for the context
reaches it, and the last such values from then on. A message that fails costs
the context its handle.
-/

namespace MctDaemon.Daemon

open Lib Shared

namespace LevelEvent

def key : LevelEvent → ID4 ×ₗ ID4
  | .registered key _ _ => key
  | .delivered key _ => key

/-- The log level and trace status that the application holds after the event. -/
def held : LevelEvent → Int × Int
  | .registered _ logLevel traceStatus => (logLevel, traceStatus)
  | .delivered _ message => (int8 message.logLevel.toNat, int8 message.traceStatus.toNat)

end LevelEvent

def heldFor (events : List LevelEvent) (key : ID4 ×ₗ ID4) : Option (Int × Int) :=
  (events.filter fun event => event.key = key).getLast?.map LevelEvent.held

@[simp] theorem heldFor_append_self (events : List LevelEvent) (event : LevelEvent) :
    heldFor (events ++ [event]) event.key = some event.held := by
  simp [heldFor]

theorem heldFor_append (events : List LevelEvent) {more : List LevelEvent} {key : ID4 ×ₗ ID4}
    (hmore : ∀ event ∈ more, event.key ≠ key) :
    heldFor (events ++ more) key = heldFor events key := by
  have hnone : (more.filter fun event => event.key = key) = [] := by
    rw [List.filter_eq_nil_iff]
    intro event hmem
    simpa using hmore event hmem
  rw [heldFor, List.filter_append, hnone, List.append_nil, heldFor]

/-- What the tables give for a context. -/
def MctDaemonUsers.levels (d : MctDaemonUsers) (context : MctDaemonContext) : Int × Int :=
  (if context.logLevel = mctLogDefault then d.defaultLogLevel else context.logLevel,
    if context.traceStatus = mctTraceStatusDefault then d.defaultTraceStatus
    else context.traceStatus)

def MctDaemonContext.UsesDefault (context : MctDaemonContext) : Prop :=
  context.logLevel = mctLogDefault ∨ context.traceStatus = mctTraceStatusDefault

theorem MctDaemonUsers.levels_of_settings {d d' : MctDaemonUsers} (h : d'.settings = d.settings) :
    d'.levels = d.levels := by
  simp only [settings, Prod.mk.injEq] at h
  funext context
  simp only [levels, h.2.1, h.2.2.1]

/-- A value of an `int8_t`. -/
def IsInt8 (n : Int) : Prop := -128 ≤ n ∧ n ≤ 127

theorem isInt8_int8 (n : Int) : IsInt8 (int8 n) := int8_range n

/-- The levels of a context are bytes, and no log storage adds to those of a
context that can be reached. -/
structure MctDaemonContext.Regular (context : MctDaemonContext) : Prop where
  logLevel : IsInt8 context.logLevel
  traceStatus : IsInt8 context.traceStatus
  storage : ValidHandle context.userHandle → context.storageLogLevel = mctLogDefault

/-- The tables are in order, and handles and levels are what they can be. -/
structure MctDaemonUsers.Regular (d : MctDaemonUsers) : Prop where
  tables : d.Tables
  handles : d.Handles
  handlesHeld : d.HandlesHeld
  defaultLogLevel : IsInt8 d.defaultLogLevel
  defaultTraceStatus : IsInt8 d.defaultTraceStatus
  contexts : ∀ context ∈ d.contexts, context.Regular

/-- Every context that can be reached, apart from the exempt ones, has an
application that holds what the tables give. -/
def AgreesExcept (exempt : MctDaemonContext → Prop) (s : LevelState) : Prop :=
  ∀ context ∈ s.users.contexts, ValidHandle context.userHandle →
    exempt context ∨ heldFor s.events context.key = some (s.users.levels context)

def Agrees (s : LevelState) : Prop :=
  ∀ context ∈ s.users.contexts, mctFdMinimum ≤ context.userHandle →
    heldFor s.events context.key = some (s.users.levels context)

def Unreached (key : ID4 ×ₗ ID4) (s : LevelState) : Prop :=
  ∀ context ∈ s.users.contexts, ValidHandle context.userHandle → context.key ≠ key

variable {s : LevelState} {exempt : MctDaemonContext → Prop}

theorem agrees_iff : Agrees s ↔ AgreesExcept (fun _ => False) s := by
  constructor
  · exact fun h context hmem hvalid => .inr (h context hmem hvalid)
  · intro h context hmem hvalid
    exact (h context hmem hvalid).resolve_left id

theorem AgreesExcept.mono (h : AgreesExcept exempt s) {exempt' : MctDaemonContext → Prop}
    (himp : ∀ context ∈ s.users.contexts, ValidHandle context.userHandle → exempt context →
      exempt' context) : AgreesExcept exempt' s :=
  fun context hmem hvalid => (h context hmem hvalid).imp_left (himp context hmem hvalid)

section Regular

namespace MctDaemonUsers.Regular

variable {d : MctDaemonUsers}

theorem of_reduces (h : d.Regular) {d' : MctDaemonUsers} (hreduces : Reduces d d')
    (htables : d'.Tables) (hkeeps : KeepsHandles d d') : d'.Regular := by
  obtain ⟨hhandles, hheld⟩ := hkeeps h.handles
  have hsettings := hreduces.settings
  simp only [settings, Prod.mk.injEq] at hsettings
  refine ⟨htables, hhandles, hheld h.handlesHeld, ?_, ?_, ?_⟩
  · rw [hsettings.2.1]
    exact h.defaultLogLevel
  · rw [hsettings.2.2.1]
    exact h.defaultTraceStatus
  · intro context' hmem
    obtain ⟨context, hcontext, rfl | rfl⟩ := hreduces.contexts context' hmem
    · exact h.contexts _ hcontext
    · have hold := h.contexts context hcontext
      exact ⟨hold.logLevel, hold.traceStatus, fun hvalid => absurd hvalid not_validHandle_fdInit⟩

theorem modifyContext (h : d.Regular) (k : Nat) {f : MctDaemonContext → MctDaemonContext}
    (hf : ∀ context, (f context).key = context.key ∧
      (f context).userHandle = context.userHandle)
    (hregular : ∀ context : MctDaemonContext, context.Regular → (f context).Regular) :
    (d.modifyContext k f).Regular := by
  have happlied : ∀ context, (f context).apid = context.apid := fun context =>
    congrArg (fun key => (ofLex key).1) (hf context).1
  obtain ⟨hhandles, hheld⟩ := keepsHandles_modifyContext k (d := d)
    (fun context => ⟨happlied context, (hf context).2⟩) h.handles
  refine ⟨h.tables.of_sameKeys ?_, hhandles, hheld h.handlesHeld, h.defaultLogLevel,
    h.defaultTraceStatus, ?_⟩
  · exact (sameEntries_modifyContext k fun context => (hf context).1).sameKeys
  · intro context hmem
    rcases mem_of_mem_modify hmem with hold | ⟨old, hold, rfl⟩
    · exact h.contexts context hold
    · exact hregular old (h.contexts old (List.mem_of_getElem? hold))

theorem userSendLogLevel (h : d.Regular) (k : Nat) (write : SendResult) :
    (d.userSendLogLevel k write).2.Regular :=
  h.of_reduces (reduces_userSendLogLevel k write)
    (h.tables.of_sameKeys (sameEntries_userSendLogLevel k write).sameKeys)
    (keepsHandles_userSendLogLevel k write)

/-- The message about a context that can be reached says what the tables give. -/
theorem held_levelMessage (h : d.Regular) (flags : LevelFlags) {context : MctDaemonContext}
    (hmem : context ∈ d.contexts) (hvalid : ValidHandle context.userHandle) :
    (LevelEvent.delivered context.key (d.levelMessage flags context)).held = d.levels context := by
  have hcontext := h.contexts context hmem
  have hstorage := hcontext.storage hvalid
  have hkept : ∀ n, IsInt8 n → int8 (uint8 n).toNat = n := by
    intro n hn
    rw [int8_uint8, int8_of_range hn.1 hn.2]
  have hlevel : IsInt8 (d.levels context).1 := by
    simp only [levels]
    split
    · exact h.defaultLogLevel
    · exact hcontext.logLevel
  have hstatus : IsInt8 (d.levels context).2 := by
    simp only [levels]
    split
    · exact h.defaultTraceStatus
    · exact hcontext.traceStatus
  have hfirst := hkept _ hlevel
  have hsecond := hkept _ hstatus
  simp only [levels] at hfirst hsecond
  simp only [LevelEvent.held, levelMessage, hstorage, ne_eq, not_true_eq_false, false_and, if_false,
    levels, hfirst, hsecond]

/-- A message to a context that can be reached fails only if no application is
left under its handle. -/
theorem userSendLogLevel_broken (h : d.Regular) {k : Nat} {context : MctDaemonContext}
    (hk : d.contexts[k]? = some context) (hvalid : ValidHandle context.userHandle)
    {write : SendResult} (hwrite : write.ok ∨ write.epipe)
    (hfailed : (d.userSendLogLevel k write).1 = false) :
    ∀ other ∈ (d.userSendLogLevel k write).2.contexts, ValidHandle other.userHandle →
      other.key ≠ context.key := by
  have hok := userSendLogLevel_failed hk hvalid hfailed
  have hepipe : write.epipe = true := by
    rcases hwrite with hwrite | hwrite
    · rw [hok] at hwrite
      cases hwrite
    · exact hwrite
  have hpositive : ¬ context.userHandle ≤ 0 := by
    have hminimum : mctFdMinimum = 3 := rfl
    unfold ValidHandle at hvalid
    omega
  have hheld := h.handlesHeld _ (List.mem_map_of_mem
    (f := fun context => (context.apid, context.userHandle)) (List.mem_of_getElem? hk)) hvalid
  obtain ⟨application, happlication, hsame⟩ := List.mem_map.mp hheld
  obtain ⟨i, hi⟩ := List.mem_iff_getElem?.mp happlication
  have hapid : application.apid = context.apid := congrArg Prod.fst hsame
  have hhandle : application.userHandle = context.userHandle := congrArg Prod.snd hsame
  have hfind := h.tables.applicationFind_eq hi
  rw [hapid] at hfind
  have hinit : context.userHandle ≠ mctFdInit := ne_fdInit_of_validHandle hvalid
  have hreset : (d.userSendLogLevel k write).2.contexts =
      d.contexts.map (MctDaemonContext.invalidate context.userHandle) := by
    simp only [MctDaemonUsers.userSendLogLevel, hk, userLogOut2, if_neg hpositive, hok, hepipe,
      hfind, Bool.false_eq_true, if_false, if_true, applicationResetUserHandle, hi, hhandle,
      if_neg hinit, h.handles.ownEcu]
    rfl
  intro other hmem hother hkey
  rw [hreset, List.mem_map] at hmem
  obtain ⟨old, hold, rfl⟩ := hmem
  have hkeys := invalidate_key context.userHandle old
  have heq := h.tables.eq_of_key hk hold (hkeys.symm.trans hkey)
  subst heq
  rw [MctDaemonContext.invalidate, if_pos rfl] at hother
  exact not_validHandle_fdInit hother

end MctDaemonUsers.Regular

end Regular

section Sends

theorem AgreesExcept.drop {key : ID4 ×ₗ ID4}
    (h : AgreesExcept (fun context => context.key = key ∨ exempt context) s)
    (hunreached : Unreached key s) : AgreesExcept exempt s := by
  intro context hmem hvalid
  rcases h context hmem hvalid with (hkey | hexempt) | hagrees
  · exact absurd hkey (hunreached context hmem hvalid)
  · exact .inl hexempt
  · exact .inr hagrees

/-- A change of one context leaves the others in agreement. -/
theorem AgreesExcept.modifyContext (h : AgreesExcept exempt s) {k : Nat}
    {context : MctDaemonContext} (hk : s.users.contexts[k]? = some context)
    {f : MctDaemonContext → MctDaemonContext} (hf : ∀ context, (f context).key = context.key) :
    AgreesExcept (fun other => other.key = context.key ∨ exempt other) (s.modifyContext k f) := by
  intro other hmem hvalid
  rcases mem_of_mem_modify hmem with hold | ⟨old, hold, rfl⟩
  · exact (h other hold hvalid).imp_left .inr
  · rw [hk] at hold
    rw [← Option.some.inj hold]
    exact .inl (.inl (hf context))

theorem Unreached.modifyContext {key : ID4 ×ₗ ID4} (h : Unreached key s) (k : Nat)
    {f : MctDaemonContext → MctDaemonContext}
    (hf : ∀ context, (f context).key = context.key ∧
      (f context).userHandle = context.userHandle) : Unreached key (s.modifyContext k f) := by
  intro other hmem hvalid
  rcases mem_of_mem_modify hmem with hold | ⟨old, hold, rfl⟩
  · exact h other hold hvalid
  · rw [(hf old).2] at hvalid
    rw [(hf old).1]
    exact h old (List.mem_of_getElem? hold) hvalid

theorem MctDaemonUsers.Regular.unreached (h : s.users.Regular) {k : Nat}
    {context : MctDaemonContext} (hk : s.users.contexts[k]? = some context)
    (hvoid : ¬ ValidHandle context.userHandle) : Unreached context.key s := by
  intro other hmem hvalid hkey
  rw [h.tables.eq_of_key hk hmem hkey] at hvalid
  exact hvoid hvalid

/-- After a message the context agrees, or cannot be reached any more. -/
theorem AgreesExcept.userSendLogLevel (flags : LevelFlags) (hregular : s.users.Regular) {k : Nat}
    {context : MctDaemonContext} (hk : s.users.contexts[k]? = some context)
    (hvalid : ValidHandle context.userHandle)
    (h : AgreesExcept (fun other => other.key = context.key ∨ exempt other) s)
    {write : SendResult} (hwrite : write.ok ∨ write.epipe) :
    AgreesExcept exempt (s.userSendLogLevel flags k write).2 ∧
      ((s.userSendLogLevel flags k write).1 = false →
        Unreached context.key (s.userSendLogLevel flags k write).2) := by
  have hbroken := hregular.userSendLogLevel_broken hk hvalid hwrite
  have hreduces := MctDaemonUsers.reduces_userSendLogLevel (d := s.users) k write
  have hlevels := MctDaemonUsers.levels_of_settings hreduces.settings
  simp only [LevelState.userSendLogLevel, hk]
  cases hsent : (s.users.userSendLogLevel k write).1 with
  | false =>
      have hunreached := hbroken hsent
      refine ⟨?_, fun _ => hunreached⟩
      intro other hmem hother
      have hold := hreduces.mem_of_valid hmem hother
      simp only [Bool.false_eq_true, if_false, hlevels]
      rcases h other hold hother with (hkey | hexempt) | hagrees
      · exact absurd hkey (hunreached other hmem hother)
      · exact .inl hexempt
      · exact .inr hagrees
  | true =>
      refine ⟨?_, fun hfalse => absurd hfalse.symm Bool.false_ne_true⟩
      intro other hmem hother
      have hold := hreduces.mem_of_valid hmem hother
      simp only [if_true, hlevels]
      by_cases hkey : other.key = context.key
      · right
        rw [hregular.tables.eq_of_key hk hold hkey,
          ← hregular.held_levelMessage flags (List.mem_of_getElem? hk) hvalid]
        exact heldFor_append_self _ _
      · rw [heldFor_append _ fun event hmem => List.mem_singleton.mp hmem ▸ Ne.symm hkey]
        rcases h other hold hother with (hsame | hexempt) | hagrees
        · exact absurd hsame hkey
        · exact .inl hexempt
        · exact .inr hagrees

end Sends

/-- The tables are in order and applications know the levels. -/
structure Informed (s : LevelState) : Prop where
  regular : s.users.Regular
  agrees : AgreesExcept (fun _ => False) s

section Steps

theorem Informed.reduces (h : Informed s) {users : MctDaemonUsers}
    (hreduces : s.users.Reduces users) (htables : users.Tables)
    (hkeeps : MctDaemonUsers.KeepsHandles s.users users) : Informed (s.withUsers users) := by
  refine ⟨h.regular.of_reduces hreduces htables hkeeps, ?_⟩
  intro context hmem hvalid
  simp only [LevelState.withUsers, MctDaemonUsers.levels_of_settings hreduces.settings]
  exact h.agrees context (hreduces.mem_of_valid hmem hvalid) hvalid

/-- Changes that keep what a context is and whether it is regular. -/
structure Keeping (f : MctDaemonContext → MctDaemonContext) : Prop where
  same : ∀ context, (f context).key = context.key ∧ (f context).userHandle = context.userHandle
  regular : ∀ context : MctDaemonContext, context.Regular → (f context).Regular

theorem keeping_withStatus (kind : LevelKind) {status : Int} (hstatus : IsInt8 status) :
    Keeping (·.withStatus kind status) := by
  cases kind with
  | logLevel =>
      exact ⟨fun _ => ⟨rfl, rfl⟩, fun _ hold => ⟨hstatus, hold.traceStatus, hold.storage⟩⟩
  | traceStatus =>
      exact ⟨fun _ => ⟨rfl, rfl⟩, fun _ hold => ⟨hold.logLevel, hstatus, hold.storage⟩⟩

theorem keeping_withLevels {logLevel traceStatus : Int} (hlevel : IsInt8 logLevel)
    (hstatus : IsInt8 traceStatus) :
    Keeping (MctDaemonUsers.withLevels logLevel traceStatus) :=
  ⟨fun _ => ⟨rfl, rfl⟩, fun _ hold => ⟨hlevel, hstatus, hold.storage⟩⟩

/-- When a context is out of reach, another change of it does not matter. -/
theorem restore {t : LevelState} (hregular : t.users.Regular)
    (hagrees : AgreesExcept (fun _ => False) t) {context : MctDaemonContext}
    (hunreached : Unreached context.key t) (hkeys : t.users.contextKeys = s.users.contextKeys)
    {k : Nat} (hk : s.users.contexts[k]? = some context) {g : MctDaemonContext → MctDaemonContext}
    (hg : Keeping g) : Informed (t.modifyContext k g) := by
  have hkey : t.users.contextKeys[k]? = some context.key := by
    rw [hkeys, MctDaemonUsers.contextKeys, List.getElem?_map, hk, Option.map_some]
  rw [MctDaemonUsers.contextKeys, List.getElem?_map, Option.map_eq_some_iff] at hkey
  obtain ⟨other, hother, hsame⟩ := hkey
  refine ⟨hregular.modifyContext k hg.same hg.regular, ?_⟩
  refine (hagrees.modifyContext hother fun context => (hg.same context).1).drop ?_
  rw [hsame]
  exact hunreached.modifyContext k hg.same

/-- A change that is sent if the context can be reached, and is taken back or
kept if nothing is sent. -/
theorem Informed.exchange (h : Informed s) (flags : LevelFlags) {k : Nat}
    {context : MctDaemonContext}
    (hk : s.users.contexts[k]? = some context) {f g : MctDaemonContext → MctDaemonContext}
    (hf : Keeping f) (hg : Keeping g) (otherwise : Bool) {write : SendResult}
    (hwrite : write.ok ∨ write.epipe) :
    let sent := (s.modifyContext k f).sendIfValid flags k context otherwise write
    Informed (if sent.1 then sent.2 else sent.2.modifyContext k g) := by
  have hset : (s.modifyContext k f).users.Regular := h.regular.modifyContext k hf.same hf.regular
  have hpending := h.agrees.modifyContext hk fun context => (hf.same context).1
  have htarget : (s.modifyContext k f).users.contexts[k]? = some (f context) := by
    simp only [LevelState.modifyContext, LevelState.withUsers, MctDaemonUsers.modifyContext,
      List.getElem?_modify_eq, hk, Option.map_eq_map, Option.map_some]
  rw [← (hf.same context).1] at hpending
  by_cases hvalid : ValidHandle context.userHandle
  · have hreached : ValidHandle (f context).userHandle := by
      rw [(hf.same context).2]
      exact hvalid
    obtain ⟨hagrees, hunreached⟩ := hpending.userSendLogLevel flags hset htarget hreached hwrite
    have hsent := LevelState.users_userSendLogLevel flags (s.modifyContext k f) k write
    have hregular : ((s.modifyContext k f).userSendLogLevel flags k write).2.users.Regular := by
      rw [hsent]
      exact hset.userSendLogLevel k write
    have hkept := (MctDaemonUsers.sameEntries_userSendLogLevel
      (d := (s.modifyContext k f).users) k write).contextKeys
    rw [← hsent] at hkept
    simp only [LevelState.sendIfValid, if_pos (show mctFdMinimum ≤ context.userHandle from hvalid)]
    split
    · exact ⟨hregular, hagrees⟩
    · next hfailed =>
        exact restore hregular hagrees (hunreached (by simpa using hfailed)) hkept htarget hg
  · have hunreached := hset.unreached htarget (by rwa [(hf.same context).2])
    have hagrees := hpending.drop hunreached
    simp only [LevelState.sendIfValid,
      if_neg (show ¬ mctFdMinimum ≤ context.userHandle from hvalid)]
    split
    · exact ⟨hset, hagrees⟩
    · exact restore hset hagrees hunreached rfl htarget hg

theorem Informed.sendStatus (h : Informed s) (flags : LevelFlags) {kind : LevelKind} {status : Int}
    (hstatus : IsInt8 status) (k : Nat) {write : SendResult} (hwrite : write.ok ∨ write.epipe) :
    Informed (s.sendStatus kind flags k status write) := by
  unfold LevelState.sendStatus
  cases hk : s.users.contexts[k]? with
  | none => exact h
  | some context =>
      have hcontext := h.regular.contexts context (List.mem_of_getElem? hk)
      have hold : IsInt8 (context.status kind) := by
        cases kind with
        | logLevel => exact hcontext.logLevel
        | traceStatus => exact hcontext.traceStatus
      exact h.exchange flags hk (keeping_withStatus kind hstatus) (keeping_withStatus kind hold)
        false hwrite

theorem Informed.setContextLlTs (h : Informed s) (flags : LevelFlags) (k : Nat)
    (logLevel traceStatus : UInt8)
    {write : SendResult} (hwrite : write.ok ∨ write.epipe) :
    Informed (s.setContextLlTs flags k logLevel traceStatus write) := by
  unfold LevelState.setContextLlTs
  cases hk : s.users.contexts[k]? with
  | none => exact h
  | some context =>
      have hcontext := h.regular.contexts context (List.mem_of_getElem? hk)
      exact h.exchange flags hk (keeping_withLevels (isInt8_int8 _) (isInt8_int8 _))
        (keeping_withLevels hcontext.logLevel hcontext.traceStatus) true hwrite

theorem isInt8_requested (kind : LevelKind) (flags : LevelFlags) (level : UInt8) :
    IsInt8 (LevelState.requested kind flags level) := by
  unfold LevelState.requested getStatus
  split
  · exact isInt8_int8 _
  · exact isInt8_int8 _

theorem Informed.controlSetStatus (h : Informed s) (flags : LevelFlags) (kind : LevelKind)
    (req : MctServiceSetLogLevel) {writes : Nat → SendResult}
    (hwrites : ∀ k, (writes k).ok ∨ (writes k).epipe) :
    Informed (s.controlSetStatus kind flags req writes) :=
  LevelState.controlSetStatus_keeps
    (fun _ k ht => ht.sendStatus flags (isInt8_requested kind flags req.logLevel) k (hwrites k)) h

theorem Informed.setAppLlTs (h : Informed s) (flags : LevelFlags) (apid : ID4)
    (logLevel traceStatus : UInt8)
    {writes : Nat → SendResult} (hwrites : ∀ k, (writes k).ok ∨ (writes k).epipe) :
    Informed (s.setAppLlTs flags apid logLevel traceStatus writes) :=
  LevelState.setAppLlTs_keeps
    (fun _ pos k ht => ht.setContextLlTs flags pos logLevel traceStatus (hwrites k)) apid h

theorem Informed.userSendAllStatusUpdate (h : Informed s) (flags : LevelFlags) {kind : LevelKind}
    {status : Int}
    (hstatus : IsInt8 status) {writes : Nat → SendResult}
    (hwrites : ∀ k, (writes k).ok ∨ (writes k).epipe) :
    Informed (s.userSendAllStatusUpdate kind flags status writes) := by
  refine LevelState.forEachContext_keeps ?_ h
  intro t count context ht hcontext
  split
  · next hvalid =>
      have hkeeping := keeping_withStatus kind hstatus
      have hsent := ht.exchange flags hcontext hkeeping
        (g := id) ⟨fun _ => ⟨rfl, rfl⟩, fun _ hold => hold⟩ false (hwrites count)
      have hid : ∀ u : LevelState, u.modifyContext count id = u := by
        intro u
        simp only [LevelState.modifyContext, LevelState.withUsers, MctDaemonUsers.modifyContext,
          List.modify_id]
      simp only [LevelState.sendIfValid, if_pos hvalid, hid, ite_self] at hsent
      exact hsent
  · exact ht

end Steps

section Defaults

/-- The contexts from a position on that use a default. -/
def PendingFrom (keys : List (ID4 ×ₗ ID4)) (context : MctDaemonContext) : Prop :=
  context.UsesDefault ∧ context.key ∈ keys

/-- One context of the update: it does not use a default, is out of reach, or
is sent a message. -/
theorem pending_step (flags : LevelFlags) {key : ID4 ×ₗ ID4} {keys : List (ID4 ×ₗ ID4)}
    (hregular : s.users.Regular)
    (h : AgreesExcept (PendingFrom (key :: keys)) s) {k : Nat} {context : MctDaemonContext}
    (hk : s.users.contexts[k]? = some context) (hkey : context.key = key) {write : SendResult}
    (hwrite : write.ok ∨ write.epipe) :
    let t := if context.logLevel = mctLogDefault ∨ context.traceStatus = mctTraceStatusDefault then
      (s.sendIfValid flags k context true write).2 else s
    t.users.Regular ∧ AgreesExcept (PendingFrom keys) t ∧
      t.users.contextKeys = s.users.contextKeys := by
  subst hkey
  have hpending : AgreesExcept
      (fun other => other.key = context.key ∨ PendingFrom keys other) s := by
    refine h.mono fun other _ _ hother => ?_
    rcases List.mem_cons.mp hother.2 with hsame | hmem
    · exact .inl hsame
    · exact .inr ⟨hother.1, hmem⟩
  by_cases hdefault : context.UsesDefault
  · simp only [if_pos (show context.logLevel = mctLogDefault ∨
      context.traceStatus = mctTraceStatusDefault from hdefault)]
    by_cases hvalid : ValidHandle context.userHandle
    · simp only [LevelState.sendIfValid,
        if_pos (show mctFdMinimum ≤ context.userHandle from hvalid)]
      refine ⟨?_, (hpending.userSendLogLevel flags hregular hk hvalid hwrite).1, ?_⟩
      · rw [LevelState.users_userSendLogLevel]
        exact hregular.userSendLogLevel k write
      · rw [LevelState.users_userSendLogLevel]
        exact (MctDaemonUsers.sameEntries_userSendLogLevel k write).contextKeys
    · simp only [LevelState.sendIfValid,
        if_neg (show ¬ mctFdMinimum ≤ context.userHandle from hvalid)]
      exact ⟨hregular, hpending.drop (hregular.unreached hk hvalid), trivial⟩
  · simp only [if_neg (show ¬ (context.logLevel = mctLogDefault ∨
      context.traceStatus = mctTraceStatusDefault) from hdefault)]
    refine ⟨hregular, h.mono fun other hmem _ hother => ⟨hother.1, ?_⟩, trivial⟩
    rcases List.mem_cons.mp hother.2 with hsame | hrest
    · rw [hregular.tables.eq_of_key hk hmem hsame] at hother
      exact absurd hother.1 hdefault
    · exact hrest

/-- After the update nobody who uses a default is left behind. -/
theorem informed_userSendDefaultUpdate (flags : LevelFlags) (hregular : s.users.Regular)
    (h : AgreesExcept MctDaemonContext.UsesDefault s) {writes : Nat → SendResult}
    (hwrites : ∀ k, (writes k).ok ∨ (writes k).epipe) :
    Informed (s.userSendDefaultUpdate flags writes) := by
  have hlength : s.users.contextKeys.length = s.users.contexts.length := List.length_map _
  have hloop : (s.userSendDefaultUpdate flags writes).users.Regular ∧
      AgreesExcept (PendingFrom (s.users.contextKeys.drop s.users.contexts.length))
        (s.userSendDefaultUpdate flags writes) ∧
      (s.userSendDefaultUpdate flags writes).users.contextKeys = s.users.contextKeys := by
    refine LevelState.forEachContext_induction
      (motive := fun n t => t.users.Regular ∧
        AgreesExcept (PendingFrom (s.users.contextKeys.drop n)) t ∧
        t.users.contextKeys = s.users.contextKeys) ⟨hregular, ?_, rfl⟩ ?_ ?_
    · exact h.mono fun context hmem _ hdefault => ⟨hdefault, List.mem_map_of_mem hmem⟩
    · intro n t hn hbefore hnone
      rw [List.getElem?_eq_none_iff, ← List.length_map MctDaemonContext.key,
        ← MctDaemonUsers.contextKeys, hbefore.2.2] at hnone
      omega
    · intro n t context hn hbefore hcontext
      obtain ⟨ht, hpending, hkeys⟩ := hbefore
      have hsame : context.key = s.users.contextKeys[n] := by
        have hkey : t.users.contextKeys[n]? = some context.key := by
          rw [MctDaemonUsers.contextKeys, List.getElem?_map, hcontext]
          rfl
        rw [hkeys, List.getElem?_eq_getElem (by omega)] at hkey
        exact (Option.some.inj hkey).symm
      rw [List.drop_eq_getElem_cons (by omega)] at hpending
      obtain ⟨hnext, hrest, hkept⟩ := pending_step flags ht hpending hcontext hsame (hwrites n)
      exact ⟨hnext, hrest, hkept.trans hkeys⟩
  obtain ⟨hfinal, hnone, _⟩ := hloop
  rw [← hlength, List.drop_length] at hnone
  exact ⟨hfinal, hnone.mono fun _ _ _ hpending => absurd hpending.2 List.not_mem_nil⟩

/-- Other defaults concern only the contexts that use them. -/
theorem Informed.withDefaults (h : Informed s) (flags : LevelFlags) (users : MctDaemonUsers)
    (hcontexts : users.contexts = s.users.contexts)
    (happlications : users.applications = s.users.applications)
    (hown : users.ownEcu = s.users.ownEcu) (hlevel : IsInt8 users.defaultLogLevel)
    (hstatus : IsInt8 users.defaultTraceStatus) {writes : Nat → SendResult}
    (hwrites : ∀ k, (writes k).ok ∨ (writes k).epipe) :
    Informed ((s.withUsers users).userSendDefaultUpdate flags writes) := by
  have hkeys : MctDaemonUsers.SameKeys s.users users := by
    simp only [MctDaemonUsers.SameKeys, MctDaemonUsers.apids, MctDaemonUsers.contextKeys,
      hcontexts, happlications, and_self]
  obtain ⟨hhandles, hheld⟩ := MctDaemonUsers.KeepsHandles.of_same hown
    (show users.holders = s.users.holders by simp only [MctDaemonUsers.holders, happlications])
    (show users.references = s.users.references by
      simp only [MctDaemonUsers.references, hcontexts]) h.regular.handles
  refine informed_userSendDefaultUpdate flags ?_ ?_ hwrites
  · refine ⟨h.regular.tables.of_sameKeys hkeys, hhandles, hheld h.regular.handlesHeld, hlevel,
      hstatus, ?_⟩
    simp only [LevelState.withUsers, hcontexts]
    exact h.regular.contexts
  · intro context hmem hvalid
    simp only [LevelState.withUsers, hcontexts] at hmem ⊢
    by_cases hdefault : context.UsesDefault
    · exact .inl hdefault
    · have hagrees := (h.agrees context hmem hvalid).resolve_left id
      right
      rw [MctDaemonContext.UsesDefault, not_or] at hdefault
      simp only [hagrees, MctDaemonUsers.levels, if_neg hdefault.1, if_neg hdefault.2]

theorem Informed.controlSetDefaultStatus (h : Informed s) (flags : LevelFlags) (kind : LevelKind)
    (accepted : UInt8 → Bool) (level : UInt8) {writes : Nat → SendResult}
    (hwrites : ∀ k, (writes k).ok ∨ (writes k).epipe) :
    Informed (LevelState.controlSetDefaultStatus kind accepted flags s level writes) := by
  have hrequested := isInt8_requested kind flags level
  unfold LevelState.controlSetDefaultStatus
  split
  · cases kind with
    | logLevel =>
        exact h.withDefaults flags
          (s.users.setDefault .logLevel (LevelState.requested .logLevel flags level)) rfl rfl rfl
          hrequested h.regular.defaultTraceStatus hwrites
    | traceStatus =>
        exact h.withDefaults flags
          (s.users.setDefault .traceStatus (LevelState.requested .traceStatus flags level)) rfl rfl
          rfl h.regular.defaultLogLevel hrequested hwrites
  · exact h

theorem Informed.controlSetAllStatus (h : Informed s) (flags : LevelFlags) (kind : LevelKind)
    (accepted : UInt8 → Bool) (level : UInt8) {writes : Nat → SendResult}
    (hwrites : ∀ k, (writes k).ok ∨ (writes k).epipe) :
    Informed (LevelState.controlSetAllStatus kind accepted flags s level writes) := by
  unfold LevelState.controlSetAllStatus
  split
  · exact h.userSendAllStatusUpdate flags (isInt8_requested kind flags level) hwrites
  · exact h

theorem Informed.controlResetToFactoryDefault (h : Informed s) (flags : LevelFlags)
    {writes : Nat → SendResult} (hwrites : ∀ k, (writes k).ok ∨ (writes k).epipe) :
    Informed (s.controlResetToFactoryDefault flags writes) := by
  unfold LevelState.controlResetToFactoryDefault
  split
  · exact h.withDefaults flags
      { s.users with
        defaultLogLevel := int8 flags.contextLogLevel
        defaultTraceStatus := int8 flags.contextTraceStatus
        forceLlTs := flags.enforceContextLLAndTS } rfl rfl rfl
      (isInt8_int8 flags.contextLogLevel) (isInt8_int8 flags.contextTraceStatus) hwrites
  · exact h

end Defaults

section Registration

variable {d : MctDaemonUsers}

theorem isInt8_of_level {n : Int} (hlow : -1 ≤ n) (hhigh : n ≤ 6) : IsInt8 n := by
  unfold IsInt8
  omega

/-- A registration stores bytes. -/
theorem isInt8_storeContext (h : d.Regular) (isNew : Bool) {logLevel traceStatus : Int}
    (hlevel : IsInt8 logLevel) (hstatus : IsInt8 traceStatus) (logLevelPos userHandle : Int)
    (description : Option (List Char)) {context : MctDaemonContext}
    (hold : IsInt8 context.logLevel ∧ IsInt8 context.traceStatus) :
    let stored := d.storeContext isNew logLevel traceStatus logLevelPos userHandle description
      context
    IsInt8 stored.logLevel ∧ IsInt8 stored.traceStatus := by
  have hmin : ∀ a b : Int, IsInt8 a → IsInt8 b → IsInt8 (min a b) := by
    intro a b ha hb
    rcases min_choice a b with hmin | hmin
    · rwa [hmin]
    · rwa [hmin]
  simp only [MctDaemonUsers.storeContext]
  constructor
  · split
    · split
      · exact hmin _ _ hlevel h.defaultLogLevel
      · exact hlevel
    · exact hold.1
  · split
    · split
      · exact hmin _ _ hstatus h.defaultTraceStatus
      · exact hstatus
    · exact hold.2

/-- The registration of a context leaves the tables regular, if what is done to
the entry next makes it regular, and the other contexts as they were. -/
theorem MctDaemonUsers.Regular.contextAdd (h : d.Regular) {apid ctid : ID4}
    {logLevel traceStatus logLevelPos userHandle : Int} {description : Option (List Char)} {k : Nat}
    {d' : MctDaemonUsers}
    (hadd : d.contextAdd apid ctid logLevel traceStatus logLevelPos userHandle description =
      (some k, d')) (hreaches : d.ReachesAll apid)
    (hhandle : ValidHandle userHandle → (setId apid.chars, userHandle) ∈ d.holders)
    {f : MctDaemonContext → MctDaemonContext}
    (hf : ∀ context, (f context).key = context.key ∧
      (f context).userHandle = context.userHandle)
    (hregular : ∀ context : MctDaemonContext, context.userHandle = userHandle →
      IsInt8 context.logLevel → IsInt8 context.traceStatus → (f context).Regular) :
    (d'.modifyContext k f).Regular ∧ (d'.modifyContext k f).settings = d.settings ∧
      ∃ context, d'.contexts[k]? = some context ∧
        context.key = toLex (setId apid.chars, setId ctid.chars) ∧
        context.userHandle = userHandle ∧
        (∀ other ∈ (d'.modifyContext k f).contexts, other.key ≠ context.key →
          other ∈ d.contexts) ∧
        (d.contextFind apid ctid = none ∧ context = d.storeContext true logLevel traceStatus
            logLevelPos userHandle description
            (MctDaemonContext.fresh (setId apid.chars) (setId ctid.chars)) ∨
          ∃ old, d.contextFind apid ctid = some k ∧ d.contexts[k]? = some old ∧
            context = d.storeContext false logLevel traceStatus logLevelPos userHandle description
              old) := by
  have htables : d'.Tables := by
    have hall := (h.tables.contextAdd hreaches ctid logLevel traceStatus logLevelPos userHandle
      description).1
    rw [hadd] at hall
    exact hall
  have hkeeps : MctDaemonUsers.KeepsHandles d d' := by
    have hall := MctDaemonUsers.keepsHandles_contextAdd apid ctid logLevel traceStatus logLevelPos
      userHandle description hhandle
    rw [hadd] at hall
    exact hall
  have hranges : (-1 ≤ logLevel ∧ logLevel ≤ 6 ∧ -1 ≤ traceStatus ∧ traceStatus ≤ 1) := by
    obtain hnone | ⟨hranges, _⟩ :=
      d.contextAdd_cases apid ctid logLevel traceStatus logLevelPos userHandle description
    · rw [hadd] at hnone
      cases hnone
    · exact hranges
  have hzero : IsInt8 0 := isInt8_of_level (by decide) (by decide)
  have hlevel : IsInt8 logLevel := isInt8_of_level hranges.1 hranges.2.1
  have hstatus : IsInt8 traceStatus := isInt8_of_level hranges.2.2.1 (by omega)
  obtain ⟨context, hk, hkey, hsettings, hothers, hstored⟩ :=
    MctDaemonUsers.contextAdd_found hadd htables
  have hbytes : context.userHandle = userHandle ∧ IsInt8 context.logLevel ∧
      IsInt8 context.traceStatus := by
    obtain ⟨_, rfl⟩ | ⟨old, _, hold, rfl⟩ := hstored
    · exact ⟨rfl, isInt8_storeContext h true hlevel hstatus logLevelPos userHandle description
        ⟨hzero, hzero⟩⟩
    · have hregular := h.contexts old (List.mem_of_getElem? hold)
      exact ⟨rfl, isInt8_storeContext h false hlevel hstatus logLevelPos userHandle description
        ⟨hregular.logLevel, hregular.traceStatus⟩⟩
  have happlied : ∀ context, (f context).apid = context.apid := fun context =>
    congrArg (fun key => (ofLex key).1) (hf context).1
  obtain ⟨hhandles, hheld⟩ := (hkeeps.trans (MctDaemonUsers.keepsHandles_modifyContext k
    fun context => ⟨happlied context, (hf context).2⟩)) h.handles
  have hsame := hsettings
  simp only [MctDaemonUsers.settings, Prod.mk.injEq] at hsame
  have hfinal : (d'.modifyContext k f).Tables :=
    htables.of_sameKeys (MctDaemonUsers.sameEntries_modifyContext k fun context =>
      (hf context).1).sameKeys
  have hentry : (d'.modifyContext k f).contexts[k]? = some (f context) := by
    simp only [MctDaemonUsers.modifyContext, List.getElem?_modify_eq, hk, Option.map_eq_map,
      Option.map_some]
  have hrest : ∀ other ∈ (d'.modifyContext k f).contexts, other.key ≠ context.key →
      other ∈ d.contexts := by
    intro other hmem hne
    rcases mem_of_mem_modify hmem with hold | ⟨before, hbefore, rfl⟩
    · exact hothers other hold hne
    · rw [hk] at hbefore
      rw [← Option.some.inj hbefore] at hne
      exact absurd (hf context).1 hne
  refine ⟨⟨hfinal, hhandles, hheld h.handlesHeld, ?_, ?_, ?_⟩, hsettings, context, hk, hkey,
    hbytes.1, hrest, hstored⟩
  · rw [show (d'.modifyContext k f).defaultLogLevel = d.defaultLogLevel from hsame.2.1]
    exact h.defaultLogLevel
  · rw [show (d'.modifyContext k f).defaultTraceStatus = d.defaultTraceStatus from hsame.2.2.1]
    exact h.defaultTraceStatus
  · intro other hmem
    by_cases hother : other.key = context.key
    · rw [hfinal.eq_of_key hentry hmem (hother.trans (hf context).1.symm)]
      exact hregular context hbytes.1 hbytes.2.1 hbytes.2.2
    · exact h.contexts other (hrest other hmem hother)

theorem MctDaemonUsers.Regular.contextAdd_none (h : d.Regular) {apid ctid : ID4}
    {logLevel traceStatus logLevelPos userHandle : Int} {description : Option (List Char)}
    {d' : MctDaemonUsers} (hreaches : d.ReachesAll apid)
    (hadd : d.contextAdd apid ctid logLevel traceStatus logLevelPos userHandle description =
      (none, d')) : d' = d := by
  have hcases := (h.tables.contextAdd hreaches ctid logLevel traceStatus logLevelPos userHandle
    description).2.2
  rw [hadd] at hcases
  obtain ⟨_, hsame⟩ | ⟨hsome, _⟩ := hcases
  · exact hsame
  · cases hsome

/-- A change under one key leaves the others in agreement. -/
theorem Informed.others (h : Informed s) {users : MctDaemonUsers}
    (hsettings : users.settings = s.users.settings) {key : ID4 ×ₗ ID4}
    (hrest : ∀ other ∈ users.contexts, other.key ≠ key → other ∈ s.users.contexts)
    (more : List LevelEvent) (hmore : ∀ event ∈ more, event.key = key) :
    AgreesExcept (fun other => other.key = key ∨ False) ⟨users, s.events ++ more⟩ := by
  intro other hmem hvalid
  by_cases hkey : other.key = key
  · exact .inl (.inl hkey)
  · right
    simp only [MctDaemonUsers.levels_of_settings hsettings]
    rw [heldFor_append _ fun event hevent => (hmore event hevent).trans_ne (Ne.symm hkey)]
    exact (h.agrees other (hrest other hmem hkey) hvalid).resolve_left id

/-- A context of the runtime configuration has no handle. -/
theorem Informed.loadContext (h : Informed s) {apid ctid : ID4} (hreaches : s.users.ReachesAll apid)
    (logLevel traceStatus logLevelPos : Int) (description : Option (List Char)) :
    Informed (s.withUsers (s.users.contextAdd apid ctid logLevel traceStatus logLevelPos 0
      description).2) := by
  have hvoid : ¬ ValidHandle 0 := by
    unfold ValidHandle
    decide
  generalize hadd : s.users.contextAdd apid ctid logLevel traceStatus logLevelPos 0 description =
    added
  obtain ⟨found, users⟩ := added
  cases found with
  | none =>
      rw [MctDaemonUsers.Regular.contextAdd_none h.regular hreaches hadd]
      exact h
  | some k =>
      obtain ⟨hregular, hsettings, context, hk, hkey, hhandle, hrest, _⟩ :=
        h.regular.contextAdd hadd hreaches (fun hvalid => absurd hvalid hvoid) (f := id)
        (fun _ => ⟨rfl, rfl⟩)
        (fun context hzero hlevel hstatus =>
          ⟨hlevel, hstatus, fun hvalid => absurd (hzero ▸ hvalid) hvoid⟩)
      rw [MctDaemonUsers.modifyContext, List.modify_id] at hregular hsettings hrest
      refine ⟨hregular, ?_⟩
      have hagrees := h.others hsettings hrest [] fun event hmem =>
        absurd hmem List.not_mem_nil
      rw [List.append_nil] at hagrees
      refine hagrees.drop (hregular.unreached hk ?_)
      rw [hhandle]
      exact hvoid

/-- The defaults do not clip the values. -/
def ClipsNothing (d : MctDaemonUsers) (logLevel traceStatus : Int) : Prop :=
  d.forceLlTs = true → logLevel ≤ d.defaultLogLevel ∧ traceStatus ≤ d.defaultTraceStatus

/-- The context will have the values it is registered with. -/
def KeepsExplicit (d : MctDaemonUsers) (apid ctid : ID4) (logLevel traceStatus : Int) : Prop :=
  match d.contextFind apid ctid with
  | some k =>
      if d.runtimeContextCfgLoaded then d.contexts[k]?.map d.levels = some (logLevel, traceStatus)
      else ClipsNothing d logLevel traceStatus
  | none => ClipsNothing d logLevel traceStatus

/-- Explicit values are what the tables give for the context afterwards. -/
theorem levels_storeContext (hown : d.ownEcu = true) {apid ctid : ID4} {logLevel traceStatus : Int}
    (hlevel : logLevel ≠ mctLogDefault) (hstatus : traceStatus ≠ mctTraceStatusDefault)
    (hkeeps : KeepsExplicit d apid ctid logLevel traceStatus)
    {logLevelPos userHandle : Int} {description : Option (List Char)} {k : Nat}
    {context : MctDaemonContext}
    (hstored : d.contextFind apid ctid = none ∧ context = d.storeContext true logLevel traceStatus
        logLevelPos userHandle description
        (MctDaemonContext.fresh (setId apid.chars) (setId ctid.chars)) ∨
      ∃ old, d.contextFind apid ctid = some k ∧ d.contexts[k]? = some old ∧
        context = d.storeContext false logLevel traceStatus logLevelPos userHandle description
          old) : d.levels context = (logLevel, traceStatus) := by
  have hclips : ∀ isNew base, (isNew || !d.runtimeContextCfgLoaded) = true →
      ClipsNothing d logLevel traceStatus →
      d.levels (d.storeContext isNew logLevel traceStatus logLevelPos userHandle description
        base) = (logLevel, traceStatus) := by
    intro isNew base hadopts hclips
    have hkept : (if d.forceLlTs = true then min logLevel d.defaultLogLevel else logLevel) =
        logLevel ∧ (if d.forceLlTs = true then min traceStatus d.defaultTraceStatus
          else traceStatus) = traceStatus := by
      by_cases hforce : d.forceLlTs = true
      · rw [if_pos hforce, if_pos hforce]
        exact ⟨min_eq_left (hclips hforce).1, min_eq_left (hclips hforce).2⟩
      · rw [if_neg hforce, if_neg hforce]
        exact ⟨rfl, rfl⟩
    simp only [MctDaemonUsers.levels, MctDaemonUsers.storeContext, hadopts, hown, Bool.true_and,
      if_true, hkept.1, hkept.2, if_neg hlevel, if_neg hstatus]
  unfold KeepsExplicit at hkeeps
  obtain ⟨hfind, rfl⟩ | ⟨old, hfind, hold, rfl⟩ := hstored
  · rw [hfind] at hkeeps
    exact hclips true _ rfl hkeeps
  · simp only [hfind, hold, Option.map_some, Option.some_inj] at hkeeps
    by_cases hloaded : d.runtimeContextCfgLoaded = true
    · rw [if_pos hloaded] at hkeeps
      rw [← hkeeps]
      simp only [MctDaemonUsers.levels, MctDaemonUsers.storeContext, hloaded, Bool.not_true,
        Bool.or_false, Bool.false_eq_true, if_false]
    · rw [if_neg hloaded] at hkeeps
      exact hclips false _ (by simpa using hloaded) hkeeps

/-- A registration with a default is answered by a message, and one without is
to be kept as it is. -/
theorem Informed.addContextOf (h : Informed s) (flags : LevelFlags) {apid ctid : ID4}
    (hreaches : s.users.ReachesAll apid) {application : MctDaemonApplication}
    (hholder : (setId apid.chars, application.userHandle) ∈ s.users.holders)
    {logLevel traceStatus : Int} (logLevelPos : Int) (description : List Char) {write : SendResult}
    (hwrite : write.ok ∨ write.epipe)
    (hkeeps : logLevel = mctLogDefault ∨ traceStatus = mctTraceStatusDefault ∨
      application.userHandle < mctFdMinimum ∨
      KeepsExplicit s.users apid ctid logLevel traceStatus) :
    Informed (s.addContextOf flags application apid ctid logLevel traceStatus logLevelPos
      description write) := by
  unfold LevelState.addContextOf
  generalize hadd : s.users.contextAdd apid ctid logLevel traceStatus logLevelPos
    application.userHandle (some description) = added
  obtain ⟨found, users⟩ := added
  cases found with
  | none =>
      simp only
      rw [MctDaemonUsers.Regular.contextAdd_none h.regular hreaches hadd]
      exact h
  | some k =>
      obtain ⟨hregular, hsettings, context, hk, hkey, hhandle, hrest, hstored⟩ :=
        h.regular.contextAdd hadd hreaches (fun _ => hholder)
          (f := fun context => { context with storageLogLevel := mctLogDefault })
          (fun _ => ⟨rfl, rfl⟩) fun _ _ hlevel hstatus => ⟨hlevel, hstatus, fun _ => rfl⟩
      have hagrees := h.others hsettings hrest
        [.registered (toLex (setId apid.chars, setId ctid.chars)) logLevel traceStatus]
        fun event hmem => (congrArg LevelEvent.key (List.mem_singleton.mp hmem)).trans hkey.symm
      obtain ⟨stored, hentry, hsame, hstoredHandle, hstoredLevels⟩ : ∃ stored,
          (users.modifyContext k fun context =>
            { context with storageLogLevel := mctLogDefault }).contexts[k]? = some stored ∧
            stored.key = context.key ∧ stored.userHandle = context.userHandle ∧
            s.users.levels stored = s.users.levels context := by
        refine ⟨{ context with storageLogLevel := mctLogDefault }, ?_, rfl, rfl, rfl⟩
        simp only [MctDaemonUsers.modifyContext, List.getElem?_modify_eq, hk, Option.map_eq_map,
          Option.map_some]
      rw [← hsame] at hagrees hkey
      rw [hhandle] at hstoredHandle
      simp only [LevelState.modifyContext, LevelState.withUsers]
      by_cases hvalid : ValidHandle application.userHandle
      · have hreached : ValidHandle stored.userHandle := by
          rw [hstoredHandle]
          exact hvalid
        by_cases hdefault : logLevel = mctLogDefault ∨ traceStatus = mctTraceStatusDefault
        · rw [if_pos ⟨hvalid, hdefault⟩]
          refine ⟨?_, (hagrees.userSendLogLevel flags hregular hentry hreached hwrite).1⟩
          rw [LevelState.users_userSendLogLevel]
          exact hregular.userSendLogLevel k write
        · rw [if_neg fun hboth => hdefault hboth.2]
          rw [not_or] at hdefault
          have hexplicit := ((hkeeps.resolve_left hdefault.1).resolve_left hdefault.2).resolve_left
            (not_lt.mpr hvalid)
          have hlevels := levels_storeContext h.regular.handles.ownEcu hdefault.1 hdefault.2
            hexplicit hstored
          have hheld := heldFor_append_self s.events
            (.registered (toLex (setId apid.chars, setId ctid.chars)) logLevel traceStatus)
          simp only [LevelEvent.held, ← hlevels, ← hstoredLevels] at hheld
          refine ⟨hregular, ?_⟩
          intro other hmem hother
          rcases hagrees other hmem hother with (hkeyed | hfalse) | hagree
          · right
            rw [hregular.tables.eq_of_key hentry hmem hkeyed, hkey]
            simp only [MctDaemonUsers.levels_of_settings hsettings]
            exact hheld
          · exact hfalse.elim
          · exact .inr hagree
      · rw [if_neg fun hboth => hvalid hboth.1]
        refine ⟨hregular, hagrees.drop (hregular.unreached hentry ?_)⟩
        rw [hstoredHandle]
        exact hvalid

end Registration

section Runs

/-- Every message to an application is written, or fails with EPIPE. -/
def LevelOp.Writes : LevelOp → Prop
  | .registerContext _ _ _ _ _ _ write => write.ok ∨ write.epipe
  | .setAppLlTs _ _ _ writes => ∀ k, (writes k).ok ∨ (writes k).epipe
  | .setLogLevel _ writes => ∀ k, (writes k).ok ∨ (writes k).epipe
  | .setTraceStatus _ writes => ∀ k, (writes k).ok ∨ (writes k).epipe
  | .setDefaultLogLevel _ writes => ∀ k, (writes k).ok ∨ (writes k).epipe
  | .setDefaultTraceStatus _ writes => ∀ k, (writes k).ok ∨ (writes k).epipe
  | .setAllLogLevel _ writes => ∀ k, (writes k).ok ∨ (writes k).epipe
  | .setAllTraceStatus _ writes => ∀ k, (writes k).ok ∨ (writes k).epipe
  | .resetToFactoryDefault writes => ∀ k, (writes k).ok ∨ (writes k).epipe
  | .storeConfig _ _ writes => ∀ k, (writes k).ok ∨ (writes k).epipe
  | _ => True

def MctDaemonUsers.handleOf (d : MctDaemonUsers) (apid : ID4) : Int :=
  ((d.applicationFind apid).bind fun i => d.applications[i]?).elim mctFdInit
    MctDaemonApplication.userHandle

/-- The lookups do not miss the last entry, and a context that is registered
with explicit values will have them. -/
def RegistersAsTold (s : LevelState) : LevelOp → Prop
  | .registerApplication apid _ _ _ _ _ _ => apid.isEmpty ∨ NotAbove s.users.apids apid
  | .registerContext apid ctid logLevel traceStatus _ _ _ =>
      let logLevel := if logLevel = mctUserLogLevelNotSet then mctLogDefault else logLevel
      let traceStatus :=
        if traceStatus = mctUserTraceStatusNotSet then mctTraceStatusDefault else traceStatus
      s.users.applicationFind apid = none ∨ ContextRefused apid ctid logLevel traceStatus ∨
        NotAbove s.users.contextApids apid ∧
          (logLevel = mctLogDefault ∨ traceStatus = mctTraceStatusDefault ∨
            s.users.handleOf apid < mctFdMinimum ∨
            KeepsExplicit s.users apid ctid logLevel traceStatus)
  | _ => True

instance (d : MctDaemonUsers) (logLevel traceStatus : Int) :
    Decidable (ClipsNothing d logLevel traceStatus) :=
  inferInstanceAs (Decidable (_ → _))

instance (d : MctDaemonUsers) (apid ctid : ID4) (logLevel traceStatus : Int) :
    Decidable (KeepsExplicit d apid ctid logLevel traceStatus) := by
  unfold KeepsExplicit
  split <;> infer_instance

instance (s : LevelState) : (op : LevelOp) → Decidable (RegistersAsTold s op)
  | .registerApplication .. => inferInstanceAs (Decidable (_ ∨ _))
  | .registerContext .. => inferInstanceAs (Decidable (_ ∨ _ ∨ _))
  | .loadApplication .. | .loadContext .. | .runtimeContextCfgLoaded | .unregisterApplication ..
  | .unregisterContext .. | .setAppLlTs .. | .setLogLevel .. | .setTraceStatus ..
  | .setDefaultLogLevel .. | .setDefaultTraceStatus .. | .setAllLogLevel ..
  | .setAllTraceStatus .. | .resetToFactoryDefault .. | .storeConfig .. => isTrue trivial

theorem Informed.registerContext (h : Informed s) (flags : LevelFlags) (apid ctid : ID4)
    (logLevel traceStatus logLevelPos : Int) (description : List Char) {write : SendResult}
    (hwrite : write.ok ∨ write.epipe)
    (hguard : RegistersAsTold s
      (.registerContext apid ctid logLevel traceStatus logLevelPos description write)) :
    Informed (s.registerContext flags apid ctid logLevel traceStatus logLevelPos description
      write) := by
  simp only [RegistersAsTold] at hguard
  unfold LevelState.registerContext
  cases hfind : s.users.applicationFind apid with
  | none => exact h
  | some i =>
      obtain ⟨application, hi, hapid⟩ := MctDaemonUsers.applicationFind_sound hfind
      have hhandle : s.users.handleOf apid = application.userHandle := by
        simp only [MctDaemonUsers.handleOf, hfind, Option.bind_some, hi, Option.elim_some]
      have hholder : (setId apid.chars, application.userHandle) ∈ s.users.holders := by
        rw [← hapid]
        exact List.mem_of_getElem? (MctDaemonUsers.holders_getElem? hi)
      rw [hfind, hhandle] at hguard
      simp only [hi]
      generalize (if logLevel = mctUserLogLevelNotSet then mctLogDefault else logLevel) = level
        at hguard ⊢
      generalize (if traceStatus = mctUserTraceStatusNotSet then mctTraceStatusDefault
        else traceStatus) = status at hguard ⊢
      split
      · exact h
      split
      · exact h
      rcases hguard with hnone | hrefused | ⟨habove, hkeeps⟩
      · cases hnone
      · simp only [LevelState.addContextOf, contextAdd_refused hrefused]
        exact h
      · exact h.addContextOf flags (fun _ => ⟨MctDaemonUsers.notAbove_of_found hfind, habove⟩)
          hholder logLevelPos description hwrite hkeeps

theorem Informed.step (h : Informed s) (ipc : MctIpc) (flags : LevelFlags) (op : LevelOp)
    (hwrites : op.Writes) (hguard : RegistersAsTold s op) :
    Informed (levelStep ipc flags s op).2 := by
  cases op with
  | loadApplication apid description =>
      exact h.reduces (MctDaemonUsers.reduces_applicationAdd ipc _ _ _ _ _)
        (h.regular.tables.applicationAdd_any ipc (.inr (.inl (setId_setId apid))) _ _ _ _)
        (MctDaemonUsers.keepsHandles_applicationAdd ipc _ _ _ _ _)
  | loadContext apid ctid logLevel traceStatus description =>
      exact h.loadContext (fun _ => ⟨.inl (setId_setId apid), .inl (setId_setId apid)⟩) _ _ _ _
  | runtimeContextCfgLoaded =>
      have hkeeps : MctDaemonUsers.KeepsHandles s.users
          { s.users with runtimeContextCfgLoaded := true } := .of_same rfl rfl rfl
      obtain ⟨hhandles, hheld⟩ := hkeeps h.regular.handles
      exact ⟨⟨h.regular.tables.of_sameKeys ⟨rfl, rfl⟩, hhandles, hheld h.regular.handlesHeld,
        h.regular.defaultLogLevel, h.regular.defaultTraceStatus, h.regular.contexts⟩, h.agrees⟩
  | registerApplication apid pid description fd opened logState writes =>
      obtain ⟨htables, hkeeps⟩ := h.regular.tables.registerApplication ipc hguard pid description fd
        opened logState writes
      exact h.reduces (MctDaemonUsers.reduces_registerApplication ipc apid pid description fd opened
        logState writes) htables hkeeps
  | unregisterApplication apid =>
      obtain ⟨htables, hkeeps⟩ := h.regular.tables.unregisterApplication apid
      exact h.reduces (MctDaemonUsers.reduces_unregisterApplication apid) htables hkeeps
  | registerContext apid ctid logLevel traceStatus logLevelPos description write =>
      exact h.registerContext flags apid ctid logLevel traceStatus logLevelPos description hwrites
        hguard
  | unregisterContext apid ctid =>
      obtain ⟨htables, hkeeps⟩ := h.regular.tables.unregisterContext apid ctid
      exact h.reduces (MctDaemonUsers.reduces_unregisterContext apid ctid) htables hkeeps
  | setAppLlTs apid logLevel traceStatus writes =>
      exact h.setAppLlTs flags apid logLevel traceStatus hwrites
  | setLogLevel req writes => exact h.controlSetStatus flags .logLevel req hwrites
  | setTraceStatus req writes => exact h.controlSetStatus flags .traceStatus req hwrites
  | setDefaultLogLevel level writes =>
      simp only [levelStep, LevelState.controlSetDefaultLogLevel]
      exact h.controlSetDefaultStatus flags .logLevel _ level hwrites
  | setDefaultTraceStatus level writes =>
      simp only [levelStep, LevelState.controlSetDefaultTraceStatus]
      exact h.controlSetDefaultStatus flags .traceStatus _ level hwrites
  | setAllLogLevel level writes =>
      simp only [levelStep, LevelState.controlSetAllLogLevel]
      exact h.controlSetAllStatus flags .logLevel _ level hwrites
  | setAllTraceStatus level writes =>
      simp only [levelStep, LevelState.controlSetAllTraceStatus]
      exact h.controlSetAllStatus flags .traceStatus _ level hwrites
  | resetToFactoryDefault writes => exact h.controlResetToFactoryDefault flags hwrites
  | storeConfig applicationsSaved contextsSaved writes =>
      simp only [levelStep, LevelState.controlStoreConfig]
      split
      · exact h.controlResetToFactoryDefault flags hwrites
      · exact h

def LevelState.Starts (s : LevelState) : Prop :=
  s.users.IsEmpty ∧ s.users.ownEcu = true ∧ IsInt8 s.users.defaultLogLevel ∧
    IsInt8 s.users.defaultTraceStatus ∧ s.events = []

theorem LevelState.Starts.informed (h : s.Starts) : Informed s := by
  obtain ⟨hempty, hown, hlevel, hstatus, hevents⟩ := h
  obtain ⟨hhandles, hheld⟩ := handles_empty hempty hown
  refine ⟨⟨(registered_empty hempty).tables, hhandles, hheld, hlevel, hstatus, ?_⟩, ?_⟩
  · rw [hempty.2]
    exact fun context hmem => absurd hmem List.not_mem_nil
  · intro context hmem
    rw [hempty.2] at hmem
    exact absurd hmem List.not_mem_nil

/-- Applications know the levels in every run in which contexts get the explicit
values they are registered with. -/
theorem applications_know_levels (ipc : MctIpc) (flags : LevelFlags) (start : LevelState)
    (hstart : start.Starts) (ops : List LevelOp) (hwrites : ∀ op ∈ ops, op.Writes)
    (hops : Guarded (levelStep ipc flags) RegistersAsTold start ops) :
    Agrees (runOps (levelStep ipc flags) start ops).2 := by
  have hstep : ∀ s op, Informed s → op.Writes ∧ RegistersAsTold s op →
      Informed (levelStep ipc flags s op).2 :=
    fun _ op hs hop => hs.step ipc flags op hop.1 hop.2
  exact agrees_iff.mpr
    (runOps_keeps hstep hstart.informed ops (hops.and_forall hwrites)).agrees

/-- Levels at WARN by force. A context of the runtime configuration is
registered with a default, another one with values that are allowed; then the
defaults change, and a message fails. -/
def levelOps : List LevelOp :=
  [.loadApplication ['A', 'P', 'P', '1'] ['d'],
    .loadContext ['A', 'P', 'P', '1'] ['C', 'T', 'X', '1'] 2 0 ['d'],
    .runtimeContextCfgLoaded,
    .registerApplication (setId ['A', 'P', 'P', '1']) 10 [] 5 0 ⟨true, false⟩
      (fun _ => ⟨true, false⟩),
    .registerContext (setId ['A', 'P', 'P', '1']) (setId ['C', 'T', 'X', '1']) 6 (-2) 0 []
      ⟨true, false⟩,
    .registerContext (setId ['A', 'P', 'P', '1']) (setId ['C', 'T', 'X', '2']) 3 0 1 []
      ⟨true, false⟩,
    .setLogLevel ⟨setId ['A', 'P', 'P', '1'], setId ['C', 'T', 'X', '2'], 255⟩
      (fun _ => ⟨true, false⟩),
    .setDefaultLogLevel 1 (fun _ => ⟨true, false⟩),
    .setAllTraceStatus 1 (fun k => if k = 0 then ⟨true, false⟩ else ⟨false, true⟩)]

def levelStart : LevelState := ⟨⟨true, [], [], 3, 0, true, false, 0⟩, []⟩

theorem applications_know_levels_sample :
    Agrees (runOps (levelStep .unixSocket ⟨3, 0, false, false, true⟩) levelStart levelOps).2 := by
  refine applications_know_levels .unixSocket ⟨3, 0, false, false, true⟩ levelStart ?_ levelOps ?_
    (by decide +kernel)
  · exact ⟨⟨rfl, rfl⟩, rfl, by unfold IsInt8; decide, by unfold IsInt8; decide, rfl⟩
  · have hok : ∀ k : Nat, ((⟨true, false⟩ : SendResult).ok : Prop) ∨
        ((⟨true, false⟩ : SendResult).epipe : Prop) := fun _ => .inl rfl
    intro op hop
    simp only [levelOps, List.mem_cons, List.not_mem_nil, or_false] at hop
    rcases hop with rfl | rfl | rfl | rfl | rfl | rfl | rfl | rfl | rfl
    · trivial
    · trivial
    · trivial
    · trivial
    · exact hok 0
    · exact hok 0
    · exact hok
    · exact hok
    · intro k
      by_cases hk : k = 0
      · simp [hk]
      · simp [hk]

/-- The level is forced down in the table, and the application is not told. -/
theorem application_keeps_explicit_level :
    ¬ Agrees (runOps (levelStep .unixSocket ⟨3, 0, true, false, true⟩) levelStart
      [.registerApplication ⟨['A', 'P', 'P', '1'], rfl⟩ 10 [] 5 0 ⟨true, false⟩
          (fun _ => ⟨true, false⟩),
        .registerContext ⟨['A', 'P', 'P', '1'], rfl⟩ ⟨['C', 'T', 'X', '1'], rfl⟩ 6 0 0 []
          ⟨true, false⟩]).2 := by
  unfold Agrees
  decide +kernel

end Runs

end MctDaemon.Daemon
