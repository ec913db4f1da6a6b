import MctDaemon.Daemon.ClientControl

/-!
Which control requests are judged by their own bytes. Three services look further: an injection
whose length is compared with the size of the buffer, a filter level that the request is too short
for, and a mount point without a terminating zero.
-/

namespace MctDaemon.Daemon

open Lib Shared ReusedBuffer

namespace ControlState

section Meaning

variable (env : ControlEnv) (s : ControlState) (header : ControlHeader)
  (databuffer : ReusedBuffer UInt8)

/-- The id that a request begins with. -/
def requestId : Nat := header.word (databuffer.own.take 4)

/-- The length that an injection declares. -/
def declaredLength : Int := int32 (header.word ((databuffer.own.drop 4).take 4))

/-- The request comes to this service. -/
structure Serves (service : ControlService) : Prop where
  long : 4 ≤ databuffer.used
  permitted : (findConnection s.daemonLocal.pEvent.connections env.sock).any fun con =>
    s.permitted env con (requestId header databuffer)
  control : 0 < requestId header databuffer ∧
    requestId header databuffer < mctServiceIdCallswCinjection
  service : ControlService.ofId (requestId header databuffer) = service

/-- The request is an injection for this context, which may be injected into. -/
structure Injects (k : Nat) (context : MctDaemonContext) : Prop where
  long : 4 ≤ databuffer.used
  connected : (findConnection s.daemonLocal.pEvent.connections env.sock).isSome
  injection : ¬(0 < requestId header databuffer ∧
    requestId header databuffer < mctServiceIdCallswCinjection)
  target : s.injectionTarget env header (requestId header databuffer) = .ok (k, context)

def Overdeclares : Prop :=
  (∃ k context, Injects env s header databuffer k context) ∧ 8 ≤ databuffer.used ∧
    (databuffer.used : Int) < 8 + declaredLength header databuffer

/-- A request to set the filter level ends before the level does. -/
def LevelMissing : Prop := Serves env s header databuffer .setFilterLevel ∧ databuffer.used < 8

/-- The mount point of a log-storage request, if it is looked at, goes on to the end of the
request. -/
def MountPointOpen : Prop :=
  Serves env s header databuffer .offlineLogstorage ∧ s.storage.storageHandle.length ≠ 0 ∧
    1033 ≤ databuffer.used ∧
    ¬ refusedBefore env s (ConnectionType.ofByte (byteAt databuffer.own 1028)) ∧
    0 ∉ databuffer.own.drop 4

/-- What is left over in the buffer does not matter; an injection forwards the declared bytes if
the request carries them, and is refused if it does not. -/
structure JudgedByOwnBytes : Prop where
  decides : OwnDecides (processControl env s header) databuffer
  forwards : ∀ k context, Injects env s header databuffer k context → 8 ≤ databuffer.used →
    0 ≤ declaredLength header databuffer →
    8 + declaredLength header databuffer ≤ databuffer.used →
    ∃ outcome, processControl env s header databuffer = some outcome ∧
      outcome.next.injections = s.injections ++
        if 0 ≤ (userLogOut3 env context.userHandle).code then
          [⟨context.userHandle, context.logLevelPos, requestId header databuffer,
            (databuffer.own.drop 8).take (declaredLength header databuffer).toNat⟩]
        else []
  refuses : ∀ k context, Injects env s header databuffer k context → 8 ≤ databuffer.used →
    (databuffer.used : Int) < 8 + declaredLength header databuffer →
    processControl env s header databuffer =
      some ⟨0, [.service (requestId header databuffer) .error], s⟩

end Meaning

variable {env : ControlEnv} {s : ControlState} {header : ControlHeader}
  {databuffer databuffer' : ReusedBuffer UInt8}

section Same

theorem requestId_same (hsame : SameOwn databuffer databuffer') :
    requestId header databuffer' = requestId header databuffer := by
  unfold requestId
  rw [show databuffer.own = databuffer'.own from hsame]

theorem read_id (hlong : 4 ≤ databuffer.used) :
    databuffer.read 0 4 = some (databuffer.own.take 4) := read_own (by omega)

theorem checked_same (hsame : SameOwn databuffer databuffer') (size : Nat)
    (serve : List UInt8 → List ControlAnswer × ControlState) :
    checked s databuffer' size serve = checked s databuffer size serve := by
  unfold checked
  rw [hsame.used_eq]
  split
  · rfl
  · rw [hsame.read_eq (by rw [hsame.used_eq]; omega)]

theorem controlSetFilterLevel_same (hsame : SameOwn databuffer databuffer')
    (hlong : 8 ≤ databuffer.used) :
    s.controlSetFilterLevel env databuffer' = s.controlSetFilterLevel env databuffer := by
  unfold controlSetFilterLevel
  rw [hsame.read_eq (by omega)]

/-- The connection type stands within the structure. -/
theorem byteAt_read :
    byteAt (databuffer.own.take 1033) 1028 = byteAt databuffer.own 1028 := by
  unfold byteAt
  rw [List.getD_eq_getElem?_getD, List.getElem?_take_of_lt (by omega),
    ← List.getD_eq_getElem?_getD]

/-- A log-storage request that is long enough, with its mount point still to be read. -/
theorem controlServiceLogstorage_eq (hslots : s.storage.storageHandle.length ≠ 0)
    (hlong : 1033 ≤ databuffer.used) :
    s.controlServiceLogstorage env databuffer =
      if refusedBefore env s (ConnectionType.ofByte (byteAt databuffer.own 1028)) then
        some ([.service mctServiceIdOfflineLogstorage .error], s)
      else
        (databuffer.readUntil 0 4).map fun mountPoint =>
          s.serveLogstorage env (ConnectionType.ofByte (byteAt databuffer.own 1028))
            (byteChars mountPoint) := by
  unfold controlServiceLogstorage
  rw [if_neg hslots, if_neg (by omega), read_own (by omega), List.drop_zero, Option.bind_some]
  dsimp only
  rw [byteAt_read]

theorem controlServiceLogstorage_same (hsame : SameOwn databuffer databuffer')
    (hclosed : s.storage.storageHandle.length ≠ 0 → 1033 ≤ databuffer.used →
      ¬ refusedBefore env s (ConnectionType.ofByte (byteAt databuffer.own 1028)) →
      0 ∈ databuffer.own.drop 4) :
    s.controlServiceLogstorage env databuffer' = s.controlServiceLogstorage env databuffer := by
  have hused : databuffer'.used = databuffer.used := hsame.used_eq.symm
  by_cases hslots : s.storage.storageHandle.length = 0
  · unfold controlServiceLogstorage
    rw [if_pos hslots, if_pos hslots]
  by_cases hlong : 1033 ≤ databuffer.used
  · rw [controlServiceLogstorage_eq hslots (by omega), controlServiceLogstorage_eq hslots hlong,
      show databuffer'.own = databuffer.own from hsame.symm]
    split
    · rfl
    · next hlooks => rw [hsame.readUntil_eq (hclosed hslots hlong hlooks)]
  · unfold controlServiceLogstorage
    rw [if_neg hslots, if_pos (by omega), if_neg hslots, if_pos (by omega)]

/-- Only two services look behind a request. -/
theorem serve_same (hsame : SameOwn databuffer databuffer') (id : Nat)
    (hlevel : ControlService.ofId id = .setFilterLevel → 8 ≤ databuffer.used)
    (hmount : ControlService.ofId id = .offlineLogstorage →
      s.storage.storageHandle.length ≠ 0 → 1033 ≤ databuffer.used →
      ¬ refusedBefore env s (ConnectionType.ofByte (byteAt databuffer.own 1028)) →
      0 ∈ databuffer.own.drop 4) :
    s.serve env databuffer' id = s.serve env databuffer id := by
  unfold serve
  cases hservice : ControlService.ofId id with
  | setLogLevel => exact checked_same hsame _ _
  | setTraceStatus => exact checked_same hsame _ _
  | getLogInfo => exact checked_same hsame _ _
  | setTimingPackets => exact checked_same hsame _ _
  | setDefaultLogLevel => exact checked_same hsame _ _
  | setDefaultTraceStatus => exact checked_same hsame _ _
  | setAllLogLevel => exact checked_same hsame _ _
  | setAllTraceStatus => exact checked_same hsame _ _
  | setFilterLevel => exact controlSetFilterLevel_same hsame (hlevel hservice)
  | offlineLogstorage => exact controlServiceLogstorage_same hsame (hmount hservice)
  | getDefaultLogLevel => rfl
  | storeConfig => rfl
  | resetToFactoryDefault => rfl
  | getLocalTime => rfl
  | getSoftwareVersion => rfl
  | messageBufferOverflow => rfl
  | getFilterStatus => rfl
  | notSupported => rfl

end Same

section Injections

variable {k : Nat} {context : MctDaemonContext}

/-- An injection with a target and a length. -/
theorem controlCallswCinjection_eq (hlong : 8 ≤ databuffer.used)
    (htarget : s.injectionTarget env header (requestId header databuffer) = .ok (k, context)) :
    s.controlCallswCinjection env header databuffer =
      if (databuffer.cells.length : Int) < declaredLength header databuffer ∨
          declaredLength header databuffer < 0 then
        some ([.service (requestId header databuffer) .error], s)
      else
        (databuffer.read 8 (declaredLength header databuffer).toNat).map fun data =>
          s.forwardInjection env (requestId header databuffer) k context data := by
  unfold controlCallswCinjection
  rw [read_id (by omega), Option.bind_some]
  dsimp only
  rw [show header.word (databuffer.own.take 4) = requestId header databuffer from rfl, htarget]
  dsimp only
  rw [if_neg (by omega), read_own (by omega), Option.bind_some]
  rfl

theorem controlCallswCinjection_same (hsame : SameOwn databuffer databuffer')
    (hlong : 4 ≤ databuffer.used)
    (hcarried : ∀ k context,
      s.injectionTarget env header (requestId header databuffer) = .ok (k, context) →
      8 ≤ databuffer.used → 8 + declaredLength header databuffer ≤ databuffer.used) :
    s.controlCallswCinjection env header databuffer' =
      s.controlCallswCinjection env header databuffer := by
  have hown : databuffer'.own = databuffer.own := hsame.symm
  have hused : databuffer'.used = databuffer.used := hsame.used_eq.symm
  cases htarget : s.injectionTarget env header (requestId header databuffer) with
  | error status =>
      unfold controlCallswCinjection
      rw [read_id hlong, read_id (by omega), hown, Option.bind_some, Option.bind_some]
      dsimp only
      rw [show header.word (databuffer.own.take 4) = requestId header databuffer from rfl,
        htarget]
  | ok target =>
      obtain ⟨k, context⟩ := target
      by_cases hlength : 8 ≤ databuffer.used
      · have hbound := hcarried k context htarget hlength
        have hcells := databuffer.used_le
        have hcells' := databuffer'.used_le
        have hdeclared : declaredLength header databuffer' = declaredLength header databuffer := by
          unfold declaredLength
          rw [hown]
        rw [controlCallswCinjection_eq (by omega) (requestId_same hsame ▸ htarget),
          controlCallswCinjection_eq hlength htarget, hdeclared, requestId_same hsame]
        by_cases hneg : declaredLength header databuffer < 0
        · rw [if_pos (.inr hneg), if_pos (.inr hneg)]
        · rw [if_neg (by omega), if_neg (by omega), hsame.read_eq (by omega)]
      · unfold controlCallswCinjection
        rw [read_id hlong, read_id (by omega), hown, Option.bind_some, Option.bind_some]
        dsimp only
        rw [show header.word (databuffer.own.take 4) = requestId header databuffer from rfl,
          htarget]
        dsimp only
        rw [if_pos (by omega), if_pos (by omega), hsame.read_eq (by omega)]

end Injections

section Dispatch

/-- A request that comes to a service is answered by it. -/
theorem Serves.processControl_eq {service : ControlService}
    (h : Serves env s header databuffer service) (hsame : SameOwn databuffer databuffer') :
    processControl env s header databuffer' =
      (s.serve env databuffer' (requestId header databuffer)).map
        fun (answers, next) => ⟨0, answers, next⟩ := by
  have hlong' : 4 ≤ databuffer'.used := hsame.used_eq ▸ h.long
  obtain ⟨con, hcon, hpermitted⟩ := (Option.any_eq_true _ _).mp h.permitted
  unfold processControl
  simp only [if_neg (show ¬ databuffer'.used < 4 by omega), hcon, read_id hlong',
    Option.bind_some]
  rw [show header.word (databuffer'.own.take 4) = requestId header databuffer' from rfl,
    requestId_same hsame, if_pos h.control, if_pos hpermitted]

/-- An injection is handled by its function. -/
theorem Injects.processControl_eq {k : Nat} {context : MctDaemonContext}
    (h : Injects env s header databuffer k context) (hsame : SameOwn databuffer databuffer') :
    processControl env s header databuffer' =
      (s.controlCallswCinjection env header databuffer').map
        fun (answers, next) => ⟨0, answers, next⟩ := by
  have hlong' : 4 ≤ databuffer'.used := hsame.used_eq ▸ h.long
  obtain ⟨con, hcon⟩ := Option.isSome_iff_exists.mp h.connected
  unfold processControl
  simp only [if_neg (show ¬ databuffer'.used < 4 by omega), hcon, read_id hlong',
    Option.bind_some]
  rw [show header.word (databuffer'.own.take 4) = requestId header databuffer' from rfl,
    requestId_same hsame, if_neg h.injection]

/-- A request that none of the three services looks behind is judged by its own bytes. -/
theorem processControl_same (hinjection : ¬ Overdeclares env s header databuffer)
    (hlevel : ¬ LevelMissing env s header databuffer)
    (hmount : ¬ MountPointOpen env s header databuffer)
    (hsame : SameOwn databuffer databuffer') :
    processControl env s header databuffer' = processControl env s header databuffer := by
  by_cases hlong : 4 ≤ databuffer.used
  · have hlong' : 4 ≤ databuffer'.used := hsame.used_eq ▸ hlong
    have hid' : header.word (databuffer'.own.take 4) = requestId header databuffer :=
      requestId_same hsame
    unfold processControl
    rw [if_neg (not_lt.mpr hlong), if_neg (not_lt.mpr hlong')]
    cases hcon : findConnection s.daemonLocal.pEvent.connections env.sock with
    | none => rfl
    | some con =>
        simp only [read_id hlong, read_id hlong', Option.bind_some]
        rw [hid', show header.word (databuffer.own.take 4) = requestId header databuffer from rfl]
        congr 1
        by_cases hcontrol : 0 < requestId header databuffer ∧
            requestId header databuffer < mctServiceIdCallswCinjection
        · rw [if_pos hcontrol, if_pos hcontrol]
          by_cases hpermitted : s.permitted env con (requestId header databuffer) = true
          · rw [if_pos hpermitted, if_pos hpermitted]
            have hserves : ∀ service,
                ControlService.ofId (requestId header databuffer) = service →
                Serves env s header databuffer service := fun service hservice =>
              ⟨hlong, by rw [hcon]; exact hpermitted, hcontrol, hservice⟩
            apply serve_same hsame
            · intro hservice
              by_contra hshort
              exact hlevel ⟨hserves _ hservice, by omega⟩
            · intro hservice hslots hsize hlooks
              by_contra hopen
              exact hmount ⟨hserves _ hservice, hslots, hsize, hlooks, hopen⟩
          · rw [if_neg hpermitted, if_neg hpermitted]
        · rw [if_neg hcontrol, if_neg hcontrol]
          apply controlCallswCinjection_same hsame hlong
          intro k context htarget hlength
          by_contra hover
          apply hinjection
          refine ⟨⟨k, context, hlong, by rw [hcon]; rfl, hcontrol, htarget⟩, hlength, ?_⟩
          omega
  · have hshort' : databuffer'.used < 4 := hsame.used_eq ▸ not_le.mp hlong
    unfold processControl
    rw [if_pos hshort', if_pos (not_le.mp hlong)]

end Dispatch

section Past

/-- With what is left over an injection is given bytes that the request does not carry. -/
theorem Overdeclares.not_ownDecides (h : Overdeclares env s header databuffer) :
    ¬ OwnDecides (processControl env s header) databuffer := by
  obtain ⟨⟨k, context, hinjects⟩, hlong, hover⟩ := h
  have houtcome : ∀ rest : List UInt8,
      declaredLength header databuffer ≤ databuffer.used + rest.length →
      processControl env s header (ofParts databuffer.own rest) =
        ((ofParts databuffer.own rest).read 8 (declaredLength header databuffer).toNat).map
          fun data =>
            let (answers, next) :=
              s.forwardInjection env (requestId header databuffer) k context data
            ⟨0, answers, next⟩ := by
    intro rest hfits
    have hsame := sameOwn_ofParts databuffer rest
    have hdeclared : declaredLength header (ofParts databuffer.own rest) =
        declaredLength header databuffer := by
      unfold declaredLength
      rw [own_ofParts]
    have hcells : (ofParts databuffer.own rest).cells.length =
        databuffer.used + rest.length := by
      simp only [ofParts, List.length_append, own_length]
    rw [hinjects.processControl_eq hsame, controlCallswCinjection_eq
        (hsame.used_eq ▸ hlong) (requestId_same hsame ▸ hinjects.target), hdeclared,
      requestId_same hsame, if_neg (by rw [hcells]; omega), Option.map_map]
    rfl
  let missing := ((declaredLength header databuffer) - databuffer.used).toNat
  apply not_ownDecides_of_none (List.replicate missing 0)
    (List.replicate (declaredLength header databuffer).toNat 0)
  · have hfits : declaredLength header databuffer ≤
        databuffer.used + (List.replicate missing (0 : UInt8)).length := by
      rw [List.length_replicate]
      omega
    rw [houtcome _ hfits, Option.map_eq_none_iff]
    apply if_neg
    simp only [ofParts, List.length_append, own_length, List.length_replicate]
    omega
  · rw [houtcome _ (by rw [List.length_replicate]; omega), Option.isSome_map]
    apply read_ofParts_isSome
    rw [List.length_replicate]
    omega

/-- The filter level is one that is left over. -/
theorem LevelMissing.not_ownDecides (h : LevelMissing env s header databuffer) :
    ¬ OwnDecides (processControl env s header) databuffer := by
  obtain ⟨hserves, hshort⟩ := h
  have houtcome : ∀ rest : List UInt8,
      (processControl env s header (ofParts databuffer.own rest)).isSome =
        ((ofParts databuffer.own rest).read 0 8).isSome := by
    intro rest
    rw [hserves.processControl_eq (sameOwn_ofParts databuffer rest), serve, hserves.service,
      Option.isSome_map, controlSetFilterLevel, Option.isSome_map]
  apply not_ownDecides_of_none [] (List.replicate 8 0)
  · rw [← Option.isNone_iff_eq_none, ← Option.not_isSome, houtcome, read_ofParts_nil hshort]
    rfl
  · rw [houtcome]
    apply read_ofParts_isSome
    rw [List.length_replicate]
    omega

/-- The mount point ends where something left over is zero. -/
theorem MountPointOpen.not_ownDecides (h : MountPointOpen env s header databuffer) :
    ¬ OwnDecides (processControl env s header) databuffer := by
  obtain ⟨hserves, hslots, hlong, hlooks, hopen⟩ := h
  have houtcome : ∀ rest : List UInt8,
      (processControl env s header (ofParts databuffer.own rest)).isSome =
        ((ofParts databuffer.own rest).readUntil 0 4).isSome := by
    intro rest
    have hsame := sameOwn_ofParts databuffer rest
    have hlooks' : ¬ refusedBefore env s
        (ConnectionType.ofByte (byteAt (ofParts databuffer.own rest).own 1028)) := by
      rw [own_ofParts]
      exact hlooks
    rw [hserves.processControl_eq hsame, serve, hserves.service, Option.isSome_map]
    dsimp only
    rw [controlServiceLogstorage_eq hslots (hsame.used_eq ▸ hlong), if_neg hlooks',
      Option.isSome_map]
  apply not_ownDecides_of_none [] [0]
  · rw [← Option.isNone_iff_eq_none, ← Option.not_isSome, houtcome, readUntil_ofParts_nil hopen]
    rfl
  · rw [houtcome]
    exact readUntil_ofParts_stop (by omega)

end Past

section Exact

/-- A control request is judged by its own bytes unless a service looks behind them. -/
theorem judgedByOwnBytes_iff (env : ControlEnv) (s : ControlState) (header : ControlHeader)
    (databuffer : ReusedBuffer UInt8) :
    JudgedByOwnBytes env s header databuffer ↔
      ¬ Overdeclares env s header databuffer ∧ ¬ LevelMissing env s header databuffer ∧
        ¬ MountPointOpen env s header databuffer := by
  constructor
  · intro h
    exact ⟨fun hover => hover.not_ownDecides h.decides,
      fun hmissing => hmissing.not_ownDecides h.decides,
      fun hopen => hopen.not_ownDecides h.decides⟩
  · rintro ⟨hinjection, hlevel, hmount⟩
    refine ⟨fun _ => processControl_same hinjection hlevel hmount, ?_, ?_⟩
    · intro k context hinjects hlong hnonneg hfits
      have hcells := databuffer.used_le
      have hread : databuffer.read 8 (declaredLength header databuffer).toNat =
          some ((databuffer.own.drop 8).take (declaredLength header databuffer).toNat) :=
        read_own (by omega)
      rw [hinjects.processControl_eq (sameOwn_refl _),
        controlCallswCinjection_eq hlong hinjects.target, if_neg (by omega), hread]
      refine ⟨_, rfl, ?_⟩
      unfold forwardInjection
      by_cases hsent : (userLogOut3 env context.userHandle).code < 0
      · simp only [if_pos hsent, if_neg (not_le.mpr hsent), List.append_nil]
        split
        · rfl
        · rfl
      · simp only [if_neg hsent, if_pos (not_lt.mp hsent)]
    · intro k context hinjects hlong hover
      exact absurd ⟨⟨k, context, hinjects⟩, hlong, hover⟩ hinjection

end Exact

section Leftover

def openFilter : MctMessageFilter :=
  let current : MctFilterConfiguration := ⟨['a'], 0, 100, 0, -1, [], .inl rfl⟩
  ⟨[current], current, [], noInjections_le⟩

def oneContext : ControlState where
  levels :=
    { users :=
        { ownEcu := true
          applications := [{ MctDaemonApplication.fresh (setId ['A']) with
            userHandle := 7, numContexts := 1 }]
          contexts := [{ MctDaemonContext.fresh (setId ['A']) (setId ['C']) with userHandle := 7 }]
          defaultLogLevel := 4
          defaultTraceStatus := 0
          forceLlTs := false
          runtimeContextCfgLoaded := false
          blockMode := 0 }
      events := [] }
  daemonLocal := ⟨openFilter, ⟨[], [⟨5, .clientMsgTcp, .active, 1⟩]⟩, [], [5], false⟩
  storage := ⟨[], 0⟩
  timingpackets := 0
  injections := []

/-- Every call of the daemon succeeds. -/
def plainEnv : ControlEnv where
  sock := 5
  flags := ⟨4, 0, false, false, true⟩
  injectionMode := true
  backend := false
  ctrlMask := fun _ => ⟨0, 0⟩
  ecuVersionString := []
  overflowCounter := 0
  writes := fun _ => ⟨true, false⟩
  writev := .ok
  sockets := fun _ _ => none
  stat := fun _ => none
  loadConfig := fun _ => 0
  applicationsSaved := true
  contextsSaved := true
  storageLevels := fun _ _ _ levels => levels

/-- An injection that declares four bytes and carries none. -/
def emptyInjection : List UInt8 := [0, 0x10, 0, 0, 4, 0, 0, 0]

/-- The data of the injections that are forwarded when the buffer ends with these bytes. -/
def forwarded (rest : List UInt8) : Option (List (List UInt8)) :=
  (processControl plainEnv oneContext ⟨1, setId ['A'], setId ['C'], setId ['E']⟩
    (ofParts emptyInjection rest)).map fun outcome =>
      outcome.next.injections.map InjectionMessage.data

/-- What is left over of an earlier message is forwarded. -/
theorem leftover_forwarded :
    forwarded [1, 2, 3, 4] = some [[1, 2, 3, 4]] ∧ forwarded [5, 6, 7, 8] = some [[5, 6, 7, 8]] ∧
      ¬ JudgedByOwnBytes plainEnv oneContext ⟨1, setId ['A'], setId ['C'], setId ['E']⟩
        (ofParts emptyInjection [1, 2, 3, 4]) := by
  have hfirst : forwarded [1, 2, 3, 4] = some [[1, 2, 3, 4]] := by decide +kernel
  have hsecond : forwarded [5, 6, 7, 8] = some [[5, 6, 7, 8]] := by decide +kernel
  refine ⟨hfirst, hsecond, ?_⟩
  intro h
  have hsame := h.decides (ofParts emptyInjection [5, 6, 7, 8]) rfl
  have heq : forwarded [5, 6, 7, 8] = forwarded [1, 2, 3, 4] := by
    unfold forwarded
    rw [hsame]
  rw [hfirst, hsecond] at heq
  exact absurd heq (by decide)

end Leftover

end ControlState

end MctDaemon.Daemon
