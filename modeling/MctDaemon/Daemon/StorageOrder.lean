import MctDaemon.Daemon.StorageLevels
import MctDaemon.Lib.Run
import MctDaemon.Logstorage.FilterLookup

/-!
The storage log level of a context and the order of events. A context that registers asks every
log storage device for its filters; a device that is connected or disconnected walks the keys of
its filters and searches the contexts that each one names.
-/

namespace MctDaemon.Daemon

open Lib Shared Logstorage

section Model

def resetLoglevel : Int := -1

/-- The identifiers that `mct_logstorage_get_config` is called with for a context. -/
def messageIds (ecu : List Char) (apid ctid : ID4) : MessageIds :=
  ⟨some (idText apid.chars, idText ctid.chars), ecu⟩

/-- The loop over the configurations that a device has for a context. -/
def configuredLoglevel (device : StorageDevice) : Int → List Nat → Int
  | storage, [] => storage
  | storage, i :: rest =>
      match device.filters[i]? with
      | none => configuredLoglevel device storage rest
      | some filter =>
          if filter.config.fileName.isNone then int8 filter.config.logLevel
          else configuredLoglevel device (max (int8 filter.config.logLevel) storage) rest

/-- `mct_daemon_logstorage_get_loglevel`. A device without a configuration is none. Nothing comes of
it when more is found on a device than the array on the stack has places: the memory behind it is
written over. -/
def getLoglevel (ecu : List Char) (storageHandle : List (Option StorageDevice)) (apid ctid : ID4) :
    Option Int :=
  storageHandle.foldlM (fun storage handle =>
    match handle with
    | none => some storage
    | some device =>
        let config := getConfig device.table (messageIds ecu apid ctid)
        if config.length > mctConfigFileSectionsMax then none
        else some (configuredLoglevel device storage config)) (-1)

/-- The second loop of `mct_daemon_logstorage_reset_application_loglevel`, at one device. -/
def updateOther (flags : LevelFlags) (ecu : List Char) (devNum : Nat)
    (write : Nat → Nat → Nat → SendResult) (s : LevelUpdate) (handle : Option StorageDevice)
    (i : Nat) : LevelUpdate :=
  if i = devNum then s
  else
    match handle with
    | none => s
    | some device => s.updateApplicationLoglevel flags ecu device (write i)

/-- `mct_daemon_logstorage_reset_application_loglevel`. `write` answers for the send to a context
on behalf of a key of a device. -/
def resetApplicationLoglevel (flags : LevelFlags) (ecu : List Char)
    (storageHandle : List (Option StorageDevice)) (devNum : Nat)
    (write : Nat → Nat → Nat → SendResult) (s : LevelUpdate) : LevelUpdate :=
  match storageHandle[devNum]?.join with
  | none => s
  | some device =>
      let s := (deviceKeys device).zipIdx.foldl (fun s x =>
        s.updateContextLoglevel flags ecu x.1 resetLoglevel (write devNum x.2)) s
      storageHandle.zipIdx.foldl (fun s x => updateOther flags ecu devNum write s x.1 x.2) s

/-- The tables with the messages that were sent, and the log storage devices; `overrun` once more
was written to an array than it has places. -/
structure StorageState where
  update : LevelUpdate
  storageHandle : List (Option StorageDevice)
  overrun : Bool

namespace StorageState

/-- The part of `mct_daemon_process_user_message_register_context` after the checks. -/
def addContextOf (flags : LevelFlags) (ecu : List Char) (s : StorageState)
    (application : MctDaemonApplication) (apid ctid : ID4)
    (logLevel traceStatus logLevelPos : Int) (description : List Char) (write : SendResult) :
    StorageState :=
  let (found, users) := s.update.users.contextAdd apid ctid logLevel traceStatus logLevelPos
    application.userHandle (some description)
  match found with
  | none => { s with update := { s.update with users := users } }
  | some k =>
      match if s.storageHandle.length ≠ 0 then getLoglevel ecu s.storageHandle apid ctid
        else some mctLogDefault with
      | none => { s with update := { s.update with users := users }, overrun := true }
      | some storage =>
          let update := { s.update with users := users }.setStorageLevel k storage
          if mctFdMinimum ≤ application.userHandle ∧
              (logLevel = mctLogDefault ∨ traceStatus = mctTraceStatusDefault) then
            { s with update := update.userSendLogLevel flags k write }
          else { s with update := update }

def registerContext (flags : LevelFlags) (ecu : List Char) (s : StorageState) (apid ctid : ID4)
    (logLevel traceStatus logLevelPos : Int) (description : List Char) (write : SendResult) :
    StorageState :=
  match s.update.users.applicationFind apid with
  | none => s
  | some i =>
      match s.update.users.applications[i]? with
      | none => s
      | some application =>
          let logLevel := if logLevel = mctUserLogLevelNotSet then mctLogDefault else logLevel
          let traceStatus :=
            if traceStatus = mctUserTraceStatusNotSet then mctTraceStatusDefault else traceStatus
          if logLevel < mctLogDefault ∨ mctLogVerbose < logLevel then s
          else if traceStatus < mctTraceStatusDefault ∨ mctTraceStatusOn < traceStatus then s
          else s.addContextOf flags ecu application apid ctid logLevel traceStatus logLevelPos
            description write

/-- The service for a device that is connected, with the filters of its configuration file. The
file has a section that is not accepted if there is a warning. -/
def connect (flags : LevelFlags) (ecu : List Char) (s : StorageState) (deviceIndex : Nat)
    (filters : List AcceptedFilter) (warning : Bool) (write : Nat → Nat → SendResult) :
    StorageState :=
  if deviceIndex < s.storageHandle.length then
    let s := { s with storageHandle := s.storageHandle.set deviceIndex (some (deviceOf filters)) }
    if warning then s
    else
      { s with update := s.update.updateApplicationLoglevel flags ecu (deviceOf filters) write }
  else s

def disconnect (flags : LevelFlags) (ecu : List Char) (s : StorageState) (deviceIndex : Nat)
    (write : Nat → Nat → Nat → SendResult) : StorageState where
  update := resetApplicationLoglevel flags ecu s.storageHandle deviceIndex write s.update
  storageHandle := s.storageHandle.set deviceIndex none
  overrun := s.overrun

end StorageState

inductive StorageEvent where
  | connect (deviceIndex : Nat) (filters : List AcceptedFilter) (warning : Bool)
      (write : Nat → Nat → SendResult)
  | disconnect (deviceIndex : Nat) (write : Nat → Nat → Nat → SendResult)
  | register (apid ctid : ID4) (logLevel traceStatus logLevelPos : Int) (description : List Char)
      (write : SendResult)

def storageStep (flags : LevelFlags) (ecu : List Char) (s : StorageState) :
    StorageEvent → Unit × StorageState
  | .connect deviceIndex filters warning write =>
      ((), s.connect flags ecu deviceIndex filters warning write)
  | .disconnect deviceIndex write => ((), s.disconnect flags ecu deviceIndex write)
  | .register apid ctid logLevel traceStatus logLevelPos description write =>
      ((), s.registerContext flags ecu apid ctid logLevel traceStatus logLevelPos description write)

end Model

section Demand

variable (ecu : List Char)

/-- The levels of the filters of a device that match a context: those with one of the keys that
`mct_logstorage_get_config` looks for. -/
def matchingLevels (context : MctDaemonContext) : Option StorageDevice → List Int
  | none => []
  | some device =>
      (device.table.configList.zipIdx.filter fun x =>
        0 < ownedKeys (messageIds ecu context.apid context.ctid) x.1).map fun x =>
          filterLevel device x.2

def demandedLevel (storageHandle : List (Option StorageDevice)) (context : MctDaemonContext) :
    Int :=
  runningMax mctLogDefault (storageHandle.flatMap (matchingLevels ecu context))

/-- Every context has the level that is demanded of it, and no array was overrun. -/
def MeetsDemand (s : StorageState) : Prop :=
  s.overrun = false ∧ ∀ context ∈ s.update.users.contexts,
    context.storageLogLevel = demandedLevel ecu s.storageHandle context

instance (s : StorageState) : Decidable (MeetsDemand ecu s) :=
  inferInstanceAs (Decidable (_ ∧ _))

/-- The filters write to files, a configuration file has at most so many sections, and identifiers
have nothing behind a zero. -/
def StorageEvent.Accepted : StorageEvent → Prop
  | .connect _ filters _ _ => (∀ filter ∈ filters, filter.properties.fileName.isSome) ∧
      filters.length ≤ mctConfigFileSectionsMax
  | .disconnect _ _ => True
  | .register apid ctid _ _ _ _ _ => apid.Canonical ∧ ctid.Canonical

/-- A device reaches a context by the keys of its filters as the lookup reaches the filters from the
context: the keys that name the context are those that are looked for. -/
def FoundAlike (d : MctDaemonUsers) (device : StorageDevice) (k : Nat)
    (context : MctDaemonContext) : Prop :=
  ∀ key ∈ deviceKeys device, k ∈ keyPositions ecu d key ↔
    ∃ possible ∈ possibleKeys (messageIds ecu context.apid context.ctid),
      sameKey key possible = true

instance (d : MctDaemonUsers) (device : StorageDevice) (k : Nat) (context : MctDaemonContext) :
    Decidable (FoundAlike ecu d device k context) :=
  inferInstanceAs (Decidable (∀ _ ∈ _, _))

/-- Every context is reached alike. -/
def AllFoundAlike (d : MctDaemonUsers) (device : StorageDevice) : Prop :=
  ∀ x ∈ d.contexts.zipIdx, FoundAlike ecu d device x.2 x.1

instance (d : MctDaemonUsers) (device : StorageDevice) : Decidable (AllFoundAlike ecu d device) :=
  inferInstanceAs (Decidable (∀ _ ∈ _, _))

/-- The lookup on a device does not end before each filter that matches is found: when the first
keys have found as many filters as there are, repetitions counted, they have found those. And no
more is found than the array has places. -/
def LookedThrough (message : MessageIds) (device : StorageDevice) : Prop :=
  (∀ n ∈ List.range ((possibleKeys message).length + 1),
    (device.table.configList.map (hitCount hasKey ((possibleKeys message).take n))).sum =
        device.table.numConfigs →
      ∀ filter ∈ device.table.configList, 0 < ownedKeys message filter →
        0 < hitCount hasKey ((possibleKeys message).take n) filter) ∧
    (getConfig device.table message).length ≤ mctConfigFileSectionsMax

instance (message : MessageIds) (device : StorageDevice) :
    Decidable (LookedThrough message device) :=
  inferInstanceAs (Decidable (_ ∧ _))

/-- A device that is connected has no section that is not accepted, is not connected yet, unless
with the same filters, and reaches the contexts alike; when a device is disconnected, it and all
others do; when a context registers, the lookup on each device is complete. -/
def OrderFree (s : StorageState) : StorageEvent → Prop
  | .connect deviceIndex filters warning _ =>
      warning = false ∧
        (∀ device ∈ s.storageHandle[deviceIndex]?.join, device = deviceOf filters) ∧
        AllFoundAlike ecu s.update.users (deviceOf filters)
  | .disconnect deviceIndex _ =>
      s.storageHandle[deviceIndex]?.join.isSome →
        ∀ handle ∈ s.storageHandle, ∀ device ∈ handle, AllFoundAlike ecu s.update.users device
  | .register apid ctid _ _ _ _ _ =>
      ∀ handle ∈ s.storageHandle, ∀ device ∈ handle,
        LookedThrough (messageIds ecu apid ctid) device

instance (s : StorageState) (event : StorageEvent) : Decidable (OrderFree ecu s event) :=
  match event with
  | .connect _ _ _ _ => inferInstanceAs (Decidable (_ ∧ _ ∧ _))
  | .disconnect _ _ => inferInstanceAs (Decidable (_ → _))
  | .register _ _ _ _ _ _ _ => inferInstanceAs (Decidable (∀ _ ∈ _, _))

end Demand

section Found

variable {ecu : List Char} {device : StorageDevice} {configs : List StorageConfig}

/-- What the lookup finds has one of the keys. -/
theorem mem_getConfig {table : MctLogStorage} {message : MessageIds} {i : Nat}
    (h : i ∈ getConfig table message) :
    ∃ possible ∈ possibleKeys message, i ∈ listFind possible table.configList := by
  have hrun (keys : List (List Char)) (found : List Nat)
      (hi : i ∈ findConfigs table keys found) :
      i ∈ found ∨ ∃ possible ∈ keys, i ∈ listFind possible table.configList := by
    induction keys generalizing found with
    | nil => exact .inl hi
    | cons key keys ih =>
        have hhere (h : i ∈ found ++ listFind key table.configList) :
            i ∈ found ∨ ∃ possible ∈ key :: keys, i ∈ listFind possible table.configList := by
          rcases List.mem_append.mp h with hold | hnew
          · exact .inl hold
          · exact .inr ⟨key, List.mem_cons_self, hnew⟩
        rw [findConfigs] at hi
        split at hi
        · exact hhere hi
        · rcases ih _ hi with hbefore | ⟨possible, hpossible, hfind⟩
          · exact hhere hbefore
          · exact .inr ⟨possible, List.mem_cons_of_mem _ hpossible, hfind⟩
  exact (hrun _ _ h).resolve_left List.not_mem_nil

theorem mem_listFind {key : List Char} {table : MctLogStorage} {i : Nat} :
    i ∈ listFind key table.configList ↔
      ∃ filter, table.configList[i]? = some filter ∧ hasKey key filter = true := by
  rw [listFind, List.mem_findIdxs_iff_exists_getElem_pos]
  constructor
  · rintro ⟨hi, hkey⟩
    exact ⟨_, List.getElem?_eq_getElem hi, hkey⟩
  · rintro ⟨filter, hfilter, hkey⟩
    obtain ⟨hi, rfl⟩ := List.getElem?_eq_some_iff.mp hfilter
    exact ⟨hi, hkey⟩

/-- A device has at most one filter for each section of its configuration file. -/
theorem length_setupDevice_le (configs : List StorageConfig) :
    (setupDevice configs).table.configList.length ≤ configs.length := by
  have hrun (device : StorageDevice) :
      (configs.foldl setupFilter device).table.configList.length ≤
        device.table.configList.length + configs.length := by
    induction configs generalizing device with
    | nil => exact le_rfl
    | cons config configs ih =>
        have hone : (setupFilter device config).table.configList.length ≤
            device.table.configList.length + 1 := by
          rw [setupFilter]
          split
          · omega
          · next keys hkeys => simp [prepareTable, hkeys]
        have hrest := ih (setupFilter device config)
        rw [List.length_cons]
        exact hrest.trans (by omega)
  rw [setupDevice]
  exact (hrun _).trans (Nat.zero_add _).le

/-- One key finds no more than the array of `mct_logstorage_get_loglevel_by_key` has places. -/
theorem listFind_fits {deviceIndex : Nat} {filters : List AcceptedFilter} {warning : Bool}
    {write : Nat → Nat → SendResult}
    (haccepted : (StorageEvent.connect deviceIndex filters warning write).Accepted)
    (key : List Char) :
    (listFind key (deviceOf filters).table.configList).length ≤ mctConfigFileSectionsMax := by
  have hsections : (deviceOf filters).table.configList.length ≤ filters.length :=
    (length_setupDevice_le _).trans (List.length_map _).le
  rw [listFind, List.length_findIdxs]
  exact List.countP_le_length.trans (hsections.trans haccepted.2)

/-- A key is a key of its device up to its length in the table. -/
theorem sameKey_cut {own key : List Char} :
    sameKey (own.take maxKeyLen) key = sameKey own key := by
  rw [sameKey, sameKey, List.take_take, Nat.min_self]

theorem getLoglevelByKey_le (hconfigs : AcceptedLevels configs) {key : List Char} {bound : Int}
    (hkey : key ∈ deviceKeys (setupDevice configs))
    (h : ∀ i ∈ listFind key (setupDevice configs).table.configList,
      filterLevel (setupDevice configs) i ≤ bound) :
    getLoglevelByKey (setupDevice configs) key ≤ bound := by
  have hlevels : ∀ level ∈ (listFind key (setupDevice configs).table.configList).map
      (filterLevel (setupDevice configs)), 1 ≤ level ∧ level ≤ bound := by
    intro level hlevel
    obtain ⟨i, hi, rfl⟩ := List.mem_map.mp hlevel
    exact ⟨(filterLevel_range hconfigs (List.mem_findIdxs_iff_exists_getElem_pos.mp hi).1).1,
      h i hi⟩
  have hne : (listFind key (setupDevice configs).table.configList).map
      (filterLevel (setupDevice configs)) ≠ [] := by
    simpa using listFind_ne_nil hkey
  rw [getLoglevelByKey]
  generalize (listFind key (setupDevice configs).table.configList).map
    (filterLevel (setupDevice configs)) = levels at hlevels hne
  cases levels with
  | nil => exact absurd rfl hne
  | cons first levels =>
      have hfirst := hlevels first List.mem_cons_self
      cases levels with
      | nil => exact hfirst.2
      | cons second levels =>
          apply runningMax_le
          · omega
          · intro level hlevel
            exact (hlevels level hlevel).2

theorem filterLevel_le {key : List Char} {i : Nat}
    (hi : i ∈ listFind key device.table.configList) :
    filterLevel device i ≤ getLoglevelByKey device key := by
  have hlevel := List.mem_map_of_mem (f := filterLevel device) hi
  rw [getLoglevelByKey]
  generalize (listFind key device.table.configList).map (filterLevel device) = levels at hlevel
  cases levels with
  | nil => cases hlevel
  | cons first levels =>
      cases levels with
      | nil => exact (List.mem_singleton.mp hlevel).le
      | cons second levels => exact le_runningMax hlevel

/-- A filter that matches is found by a possible key, and the other way round. -/
theorem ownedKeys_pos_iff {message : MessageIds} {filter : MctLogStorageFilter} :
    0 < ownedKeys message filter ↔ ∃ possible ∈ possibleKeys message, hasKey possible filter := by
  rw [ownedKeys, hitCount, List.countP_pos_iff]

theorem mem_matchingLevels {context : MctDaemonContext} {level : Int} :
    level ∈ matchingLevels ecu context (some device) ↔ ∃ i filter,
      device.table.configList[i]? = some filter ∧
        0 < ownedKeys (messageIds ecu context.apid context.ctid) filter ∧
          filterLevel device i = level := by
  rw [matchingLevels, List.mem_map]
  constructor
  · rintro ⟨⟨filter, i⟩, hx, hlevel⟩
    obtain ⟨hmem, howned⟩ := List.mem_filter.mp hx
    exact ⟨i, filter, List.mem_zipIdx_iff_getElem?.mp hmem, of_decide_eq_true howned, hlevel⟩
  · rintro ⟨i, filter, hfilter, howned, hlevel⟩
    refine ⟨(filter, i), List.mem_filter.mpr ⟨?_, decide_eq_true howned⟩, hlevel⟩
    exact List.mem_zipIdx_iff_getElem?.mpr hfilter

/-- A context that is reached alike has as much demanded of it as matches it. -/
theorem demands_le_iff (hconfigs : AcceptedLevels configs) {d : MctDaemonUsers} {k : Nat}
    {context : MctDaemonContext} (h : FoundAlike ecu d (setupDevice configs) k context)
    (bound : Int) :
    (∀ level ∈ demands ecu d (setupDevice configs) k, level ≤ bound) ↔
      ∀ level ∈ matchingLevels ecu context (some (setupDevice configs)), level ≤ bound := by
  constructor
  · intro hdemands level hlevel
    obtain ⟨i, filter, hfilter, howned, rfl⟩ := mem_matchingLevels.mp hlevel
    obtain ⟨possible, hpossible, hkey⟩ := ownedKeys_pos_iff.mp howned
    obtain ⟨own, hown, hsame⟩ := List.any_eq_true.mp hkey
    -- the key that answers for the filter names the context
    have hcopied : own.take maxKeyLen ∈ deviceKeys (setupDevice configs) :=
      List.mem_flatMap.mpr ⟨filter, List.mem_of_getElem? hfilter, List.mem_map_of_mem hown⟩
    have hnames := (h _ hcopied).mpr ⟨possible, hpossible, sameKey_cut.trans hsame⟩
    have hfound : i ∈ listFind (own.take maxKeyLen) (setupDevice configs).table.configList :=
      mem_listFind.mpr ⟨filter, hfilter, List.any_eq_true.mpr ⟨own, hown, by simp [sameKey]⟩⟩
    apply (filterLevel_le hfound).trans
    apply hdemands
    exact List.mem_map_of_mem (List.mem_filter.mpr ⟨hcopied, decide_eq_true hnames⟩)
  · intro hmatching level hlevel
    obtain ⟨key, hkey, rfl⟩ := List.mem_map.mp hlevel
    obtain ⟨hown, hnames⟩ := List.mem_filter.mp hkey
    obtain ⟨possible, hpossible, hsame⟩ := (h key hown).mp (of_decide_eq_true hnames)
    apply getLoglevelByKey_le hconfigs hown
    intro i hi
    obtain ⟨filter, hfilter, hhas⟩ := mem_listFind.mp hi
    obtain ⟨other, hother, hsame'⟩ := List.any_eq_true.mp hhas
    have howned : 0 < ownedKeys (messageIds ecu context.apid context.ctid) filter := by
      refine ownedKeys_pos_iff.mpr ⟨possible, hpossible, List.any_eq_true.mpr ⟨other, hother, ?_⟩⟩
      rw [sameKey, decide_eq_true_eq] at hsame hsame' ⊢
      exact hsame'.trans hsame
    apply hmatching
    exact mem_matchingLevels.mpr ⟨i, filter, hfilter, howned, rfl⟩

/-- A lookup that looks the table through finds every filter that matches. -/
theorem LookedThrough.mem_getConfig {message : MessageIds} (h : LookedThrough message device)
    {i : Nat} {filter : MctLogStorageFilter} (hfilter : device.table.configList[i]? = some filter)
    (howned : 0 < ownedKeys message filter) : i ∈ getConfig device.table message := by
  obtain ⟨n, hn, hrun, hend, -⟩ := searchUntil_eq hasKey device.table.configList
    device.table.numConfigs (possibleKeys message) []
  rw [getConfig, findConfigs_eq, hrun, List.nil_append]
  rw [List.nil_append, length_reported] at hend
  have hhits : 0 < hitCount hasKey ((possibleKeys message).take n) filter := by
    rcases hend with rfl | hfull
    · rwa [List.take_length]
    · exact h.1 n (List.mem_range.mpr (Nat.lt_succ_of_le hn)) hfull filter
        (List.mem_of_getElem? hfilter) howned
  obtain ⟨hi, rfl⟩ := List.getElem?_eq_some_iff.mp hfilter
  rwa [← List.count_pos_iff, count_reported _ _ _ _ hi]

end Found

section Levels

open MctDaemonUsers (SameEntries)

variable (flags : LevelFlags) (ecu : List Char)

/-- The entries are the same, and the storage log level of each context is this value of what it
was. -/
structure Relevelled (d d' : MctDaemonUsers) (level : Nat → Int → Int) : Prop where
  entries : SameEntries d d'
  contexts : ∀ (k : Nat) (context : MctDaemonContext), d.contexts[k]? = some context →
    ∃ context', d'.contexts[k]? = some context' ∧
      context'.storageLogLevel = level k context.storageLogLevel

namespace Relevelled

variable {d d' d'' : MctDaemonUsers} {level level' : Nat → Int → Int}

theorem refl (d : MctDaemonUsers) : Relevelled d d fun _ storage => storage where
  entries := .refl d
  contexts _ context hcontext := ⟨context, hcontext, rfl⟩

theorem trans (h : Relevelled d d' level) (h' : Relevelled d' d'' level') :
    Relevelled d d'' fun k storage => level' k (level k storage) where
  entries := h.entries.trans h'.entries
  contexts k context hcontext := by
    obtain ⟨context', hcontext', hlevel⟩ := h.contexts k context hcontext
    obtain ⟨context'', hcontext'', hlevel'⟩ := h'.contexts k context' hcontext'
    exact ⟨context'', hcontext'', by rw [hlevel', hlevel]⟩

/-- The levels of the contexts that are there matter. -/
theorem congr (h : Relevelled d d' level)
    (hlevel : ∀ k storage, level k storage = level' k storage) : Relevelled d d' level' where
  entries := h.entries
  contexts k context hcontext := by
    rw [← hlevel]
    exact h.contexts k context hcontext

end Relevelled

namespace LevelUpdate

theorem sameEntries_updateContextLoglevel (s : LevelUpdate) (key : List Char) (level : Int)
    (write : Nat → SendResult) :
    SameEntries s.users (s.updateContextLoglevel flags ecu key level write).users := by
  rw [updateContextLoglevel_eq]
  generalize keyPositions ecu s.users key = positions
  induction positions generalizing s with
  | nil => exact .refl _
  | cons k positions ih =>
      exact (sameEntries_updateLogLevel flags s k level (write k)).trans (ih _)

theorem sameEntries_updateKeys (device : StorageDevice) (write : Nat → Nat → SendResult)
    (keys : List (List Char × Nat)) (s : LevelUpdate) :
    SameEntries s.users (s.updateKeys flags ecu device write keys).users := by
  induction keys generalizing s with
  | nil => exact .refl _
  | cons x keys ih =>
      rw [updateKeys]
      split
      · exact .refl _
      · exact (sameEntries_updateContextLoglevel flags ecu s _ _ _).trans (ih _)

/-- A device that is connected raises each context to what it demands. -/
theorem relevelled_update {configs : List StorageConfig} (hconfigs : AcceptedLevels configs)
    (write : Nat → Nat → SendResult) (s : LevelUpdate) :
    Relevelled s.users
      (s.updateApplicationLoglevel flags ecu (setupDevice configs) write).users
      fun k storage => runningMax storage (demands ecu s.users (setupDevice configs) k) := by
  have hraised : Raised s.users
      (visits ecu (setupDevice configs) s.users (deviceKeys (setupDevice configs)).zipIdx)
      (s.updateApplicationLoglevel flags ecu (setupDevice configs) write) := by
    rw [updateApplicationLoglevel_eq hconfigs]
    apply foldl_prefix_induction
    · intro done v later t hall hdone
      have hv : v ∈ visits ecu (setupDevice configs) s.users
          (deviceKeys (setupDevice configs)).zipIdx := by
        rw [hall]
        exact List.mem_append_right _ List.mem_cons_self
      obtain ⟨⟨context, hcontext⟩, hlow, hhigh⟩ := visits_sound hconfigs hv
      exact hdone.visit write hcontext hlow hhigh
    · exact ⟨rfl, fun _ context hcontext => ⟨context.userHandle, .inl rfl, hcontext⟩⟩
  refine ⟨sameEntries_updateKeys flags ecu _ write _ s, ?_⟩
  intro k context hcontext
  obtain ⟨handle, _, hnow⟩ := hraised.contexts k context hcontext
  rw [levelsAt_visits] at hnow
  exact ⟨_, hnow, rfl⟩

theorem relevelled_setStorageLevel (s : LevelUpdate) (k : Nat) (level : Int) :
    Relevelled s.users (s.setStorageLevel k level).users
      fun j storage => if j = k then level else storage := by
  refine ⟨sameEntries_setStorageLevel s k level, ?_⟩
  intro j context hcontext
  rw [contexts_setStorageLevel, hcontext]
  by_cases hj : j = k
  · exact ⟨{ context with storageLogLevel := level }, by simp [hj], by simp [hj]⟩
  · exact ⟨context, by simp [hj], by simp [hj]⟩

/-- The first loop when a device is disconnected. -/
theorem relevelled_reset (keys : List (List Char × Nat)) (write : Nat → Nat → SendResult)
    (s : LevelUpdate) :
    Relevelled s.users
      (keys.foldl (fun s x =>
        s.updateContextLoglevel flags ecu x.1 resetLoglevel (write x.2)) s).users
      fun k storage =>
        if ∃ x ∈ keys, k ∈ keyPositions ecu s.users x.1 then mctLogDefault else storage := by
  have hpositions (positions : List Nat) (turn : Nat) (s : LevelUpdate) :
      Relevelled s.users
        (positions.foldl (fun s k => s.updateLogLevel flags k resetLoglevel (write turn k)) s).users
        fun k storage => if k ∈ positions then mctLogDefault else storage := by
    induction positions generalizing s with
    | nil => exact (Relevelled.refl _).congr fun _ _ => rfl
    | cons j positions ih =>
        refine ((relevelled_setStorageLevel s j mctLogDefault).trans (ih _)).congr ?_
        intro k storage
        by_cases hk : k ∈ positions
        · simp [hk]
        · simp [hk]
  induction keys generalizing s with
  | nil => exact (Relevelled.refl _).congr fun _ _ => by simp
  | cons x keys ih =>
      obtain ⟨key, turn⟩ := x
      have hfirst := hpositions (keyPositions ecu s.users key) turn s
      rw [← updateContextLoglevel_eq] at hfirst
      refine (hfirst.trans (ih _)).congr ?_
      intro k storage
      have hsame (key' : List Char) : keyPositions ecu _ key' = keyPositions ecu s.users key' :=
        keyPositions_congr hfirst.entries.contextKeys key'
      simp only [hsame, List.mem_cons, exists_eq_or_imp]
      by_cases hk : k ∈ keyPositions ecu s.users key
      · simp [hk]
      · rw [if_neg hk]
        exact if_congr (or_iff_right hk).symm rfl rfl

end LevelUpdate

/-- The devices have what the configuration files of accepted filters give them. -/
def Configured (storageHandle : List (Option StorageDevice)) : Prop :=
  ∀ handle ∈ storageHandle, ∀ device ∈ handle, ∃ filters : List AcceptedFilter,
    (∀ filter ∈ filters, filter.properties.fileName.isSome) ∧ device = deviceOf filters

/-- The levels that a device demands, unless it is the one at this index. -/
def otherDemands (ecu : List Char) (d : MctDaemonUsers) (devNum k : Nat)
    (handle : Option StorageDevice) (i : Nat) : List Int :=
  if i = devNum then []
  else
    match handle with
    | none => []
    | some device => demands ecu d device k

variable {ecu} in
theorem otherDemands_congr {d d' : MctDaemonUsers} (h : d'.contextKeys = d.contextKeys)
    (devNum k : Nat) (handle : Option StorageDevice) (i : Nat) :
    otherDemands ecu d' devNum k handle i = otherDemands ecu d devNum k handle i := by
  simp only [otherDemands, demands, keyPositions_congr h]

theorem relevelled_updateOther {handle : Option StorageDevice} (hconfigured : Configured [handle])
    (devNum : Nat) (write : Nat → Nat → Nat → SendResult) (s : LevelUpdate) (i : Nat) :
    Relevelled s.users (updateOther flags ecu devNum write s handle i).users
      fun k storage => runningMax storage (otherDemands ecu s.users devNum k handle i) := by
  by_cases hi : i = devNum
  · simp only [updateOther, otherDemands, if_pos hi]
    exact .refl _
  · simp only [updateOther, otherDemands, if_neg hi]
    cases handle with
    | none => exact .refl _
    | some device =>
        obtain ⟨filters, _, rfl⟩ := hconfigured _ List.mem_cons_self device rfl
        exact LevelUpdate.relevelled_update flags ecu (acceptedLevels_filters filters) (write i) s

/-- The second loop when a device is disconnected. -/
theorem relevelled_others {handles : List (Option StorageDevice × Nat)}
    (hconfigured : Configured (handles.map Prod.fst)) (devNum : Nat)
    (write : Nat → Nat → Nat → SendResult) (s : LevelUpdate) :
    Relevelled s.users
      (handles.foldl (fun s x => updateOther flags ecu devNum write s x.1 x.2) s).users
      fun k storage => runningMax storage
        (handles.flatMap fun x => otherDemands ecu s.users devNum k x.1 x.2) := by
  induction handles generalizing s with
  | nil => exact (Relevelled.refl _).congr fun _ _ => rfl
  | cons x handles ih =>
      have hhere : Configured [x.1] := by
        intro handle hhandle
        rw [List.mem_singleton.mp hhandle]
        exact hconfigured x.1 List.mem_cons_self
      have hrest : Configured (handles.map Prod.fst) :=
        fun handle hhandle => hconfigured handle (List.mem_cons_of_mem _ hhandle)
      have hfirst := relevelled_updateOther flags ecu hhere devNum write s x.2
      refine (hfirst.trans (ih hrest _)).congr ?_
      intro k storage
      simp only [otherDemands_congr hfirst.entries.contextKeys, List.flatMap_cons,
        runningMax_append]

end Levels

section Steps

open MctDaemonUsers (SameEntries)

variable {flags : LevelFlags} {ecu : List Char} {s : StorageState}

/-- What holds in every state of a run. -/
structure LevelsSettled (ecu : List Char) (s : StorageState) : Prop where
  tables : s.update.users.Tables
  configured : Configured s.storageHandle
  meets : MeetsDemand ecu s

theorem demandedLevel_le_iff {storageHandle : List (Option StorageDevice)}
    {context : MctDaemonContext} {bound : Int} :
    demandedLevel ecu storageHandle context ≤ bound ↔ mctLogDefault ≤ bound ∧
      ∀ (i : Nat) (handle : Option StorageDevice), storageHandle[i]? = some handle →
        ∀ level ∈ matchingLevels ecu context handle, level ≤ bound := by
  rw [demandedLevel, runningMax_le_iff]
  apply and_congr_right
  intro _
  constructor
  · intro hall i handle hhandle level hlevel
    exact hall level (List.mem_flatMap.mpr ⟨handle, List.mem_of_getElem? hhandle, hlevel⟩)
  · intro hall level hlevel
    obtain ⟨handle, hhandle, hfound⟩ := List.mem_flatMap.mp hlevel
    obtain ⟨i, hi⟩ := List.mem_iff_getElem?.mp hhandle
    exact hall i handle hi level hfound

/-- What is demanded of a context depends on its identifiers alone. -/
theorem demandedLevel_congr {context context' : MctDaemonContext} (h : context'.key = context.key)
    (storageHandle : List (Option StorageDevice)) :
    demandedLevel ecu storageHandle context' = demandedLevel ecu storageHandle context := by
  have hapid : context'.apid = context.apid := congrArg (fun key => (ofLex key).1) h
  have hctid : context'.ctid = context.ctid := congrArg (fun key => (ofLex key).2) h
  have hmatching : matchingLevels ecu context' = matchingLevels ecu context := by
    funext handle
    cases handle with
    | none => rfl
    | some device => simp only [matchingLevels, hapid, hctid]
  rw [demandedLevel, demandedLevel, hmatching]

/-- The contexts have what is demanded after an update if it changes their levels to that. -/
theorem Relevelled.settled {level : Nat → Int → Int} {s' : StorageState} (hs : LevelsSettled ecu s)
    (h : Relevelled s.update.users s'.update.users level)
    (hconfigured : Configured s'.storageHandle) (hinside : s'.overrun = s.overrun)
    (hlevel : ∀ (k : Nat) (context : MctDaemonContext),
      s.update.users.contexts[k]? = some context →
      level k (demandedLevel ecu s.storageHandle context) =
        demandedLevel ecu s'.storageHandle context) : LevelsSettled ecu s' := by
  refine ⟨hs.tables.of_sameKeys h.entries.sameKeys, hconfigured, hinside.trans hs.meets.1, ?_⟩
  intro context' hcontext'
  obtain ⟨k, hk⟩ := List.mem_iff_getElem?.mp hcontext'
  have hkey := congrArg (·[k]?) h.entries.contextKeys
  simp only [MctDaemonUsers.contextKeys, List.getElem?_map, hk, Option.map_some] at hkey
  obtain ⟨context, hcontext, hsame⟩ := Option.map_eq_some_iff.mp hkey.symm
  obtain ⟨now, hnow, hstorage⟩ := h.contexts k context hcontext
  rw [hk] at hnow
  obtain rfl := Option.some.inj hnow
  rw [hstorage, hs.meets.2 context (List.mem_of_getElem? hcontext), hlevel k context hcontext,
    demandedLevel_congr hsame.symm]

theorem AllFoundAlike.context {d : MctDaemonUsers} {device : StorageDevice}
    (h : AllFoundAlike ecu d device) {k : Nat} {context : MctDaemonContext}
    (hcontext : d.contexts[k]? = some context) : FoundAlike ecu d device k context :=
  h (context, k) (List.mem_zipIdx_iff_getElem?.mpr hcontext)

theorem Configured.set {storageHandle : List (Option StorageDevice)} (h : Configured storageHandle)
    {handle : Option StorageDevice} (hhandle : Configured [handle]) (i : Nat) :
    Configured (storageHandle.set i handle) := by
  intro other hother
  rcases List.mem_or_eq_of_mem_set hother with hold | rfl
  · exact h other hold
  · exact hhandle other List.mem_cons_self

theorem configured_deviceOf {filters : List AcceptedFilter}
    (hfilters : ∀ filter ∈ filters, filter.properties.fileName.isSome) :
    Configured [some (deviceOf filters)] := by
  intro handle hhandle device hdevice
  rw [List.mem_singleton.mp hhandle] at hdevice
  obtain rfl := Option.mem_some_iff.mp hdevice
  exact ⟨filters, hfilters, rfl⟩

theorem configured_none : Configured [none] := by
  intro handle hhandle device hdevice
  rw [List.mem_singleton.mp hhandle] at hdevice
  cases hdevice

theorem connect_eq {deviceIndex : Nat} (hindex : deviceIndex < s.storageHandle.length)
    (filters : List AcceptedFilter) (write : Nat → Nat → SendResult) :
    s.connect flags ecu deviceIndex filters false write =
      ⟨s.update.updateApplicationLoglevel flags ecu (deviceOf filters) write,
        s.storageHandle.set deviceIndex (some (deviceOf filters)), s.overrun⟩ := by
  rw [StorageState.connect, if_pos hindex]
  rfl

theorem LevelsSettled.connect (hs : LevelsSettled ecu s) {deviceIndex : Nat}
    {filters : List AcceptedFilter} {warning : Bool} {write : Nat → Nat → SendResult}
    (haccepted : (StorageEvent.connect deviceIndex filters warning write).Accepted)
    (hfree : OrderFree ecu s (.connect deviceIndex filters warning write)) :
    LevelsSettled ecu (s.connect flags ecu deviceIndex filters warning write) := by
  obtain ⟨rfl, hagain, halike⟩ := hfree
  by_cases hindex : deviceIndex < s.storageHandle.length
  · have hconfigs := acceptedLevels_filters filters
    have hraised := LevelUpdate.relevelled_update flags ecu hconfigs write s.update
    rw [connect_eq hindex]
    apply Relevelled.settled hs hraised
    · exact hs.configured.set (configured_deviceOf haccepted.1) deviceIndex
    · rfl
    · intro k context hcontext
      apply eq_of_forall_ge_iff
      intro bound
      rw [runningMax_le_iff, demands_le_iff hconfigs (halike.context hcontext),
        demandedLevel_le_iff, demandedLevel_le_iff]
      constructor
      · rintro ⟨⟨hbound, hold⟩, hnew⟩
        refine ⟨hbound, ?_⟩
        intro i handle hhandle
        rw [List.getElem?_set] at hhandle
        split at hhandle
        · cases hhandle
          exact hnew
        · exact hold i handle hhandle
      · rintro ⟨hbound, hall⟩
        have hnew : ∀ level ∈ matchingLevels ecu context (some (deviceOf filters)), level ≤ bound :=
          hall deviceIndex _ (List.getElem?_set_self hindex)
        refine ⟨⟨hbound, ?_⟩, hnew⟩
        intro i handle hhandle
        by_cases hi : i = deviceIndex
        · subst hi
          cases handle with
          | none => exact fun level hlevel => absurd hlevel List.not_mem_nil
          | some device =>
              rw [hagain device (by rw [hhandle]; rfl)]
              exact hnew
        · exact hall i handle (by rw [List.getElem?_set_ne (Ne.symm hi), hhandle])
  · rw [StorageState.connect, if_neg hindex]
    exact hs

/-- What the other devices demand of a context is what is found for it on them. -/
theorem otherDemands_le_iff {storageHandle : List (Option StorageDevice)} {d : MctDaemonUsers}
    (hconfigured : Configured storageHandle)
    (halike : ∀ handle ∈ storageHandle, ∀ device ∈ handle, AllFoundAlike ecu d device) {k : Nat}
    {context : MctDaemonContext} (hcontext : d.contexts[k]? = some context) (devNum : Nat)
    (bound : Int) :
    (∀ level ∈ storageHandle.zipIdx.flatMap fun x => otherDemands ecu d devNum k x.1 x.2,
        level ≤ bound) ↔
      ∀ (i : Nat) (handle : Option StorageDevice),
        (storageHandle.set devNum none)[i]? = some handle →
          ∀ level ∈ matchingLevels ecu context handle, level ≤ bound := by
  have hone (device : StorageDevice) (hdevice : some device ∈ storageHandle) :
      (∀ level ∈ demands ecu d device k, level ≤ bound) ↔
        ∀ level ∈ matchingLevels ecu context (some device), level ≤ bound := by
    have hreached := (halike _ hdevice device rfl).context hcontext
    obtain ⟨filters, _, rfl⟩ := hconfigured _ hdevice device rfl
    exact demands_le_iff (acceptedLevels_filters filters) hreached bound
  constructor
  · intro hall i handle hhandle level hlevel
    by_cases hi : i = devNum
    · subst hi
      obtain ⟨hi, hvalue⟩ := List.getElem?_eq_some_iff.mp hhandle
      rw [List.getElem_set_self] at hvalue
      subst hvalue
      cases hlevel
    · rw [List.getElem?_set_ne (Ne.symm hi)] at hhandle
      cases handle with
      | none => cases hlevel
      | some device =>
          refine (hone device (List.mem_of_getElem? hhandle)).mp ?_ level hlevel
          intro demand hdemand
          apply hall
          refine List.mem_flatMap.mpr
            ⟨(some device, i), List.mem_zipIdx_iff_getElem?.mpr hhandle, ?_⟩
          simpa only [otherDemands, if_neg hi] using hdemand
  · intro hall level hlevel
    obtain ⟨⟨handle, i⟩, hhandle, hdemand⟩ := List.mem_flatMap.mp hlevel
    rw [List.mem_zipIdx_iff_getElem?] at hhandle
    simp only [otherDemands] at hdemand
    split at hdemand
    · cases hdemand
    · rename_i hi
      cases handle with
      | none => cases hdemand
      | some device =>
          refine (hone device (List.mem_of_getElem? hhandle)).mpr ?_ level hdemand
          exact hall i (some device) (by rw [List.getElem?_set_ne (Ne.symm hi), hhandle])

theorem resetApplicationLoglevel_eq {storageHandle : List (Option StorageDevice)} {devNum : Nat}
    {device : StorageDevice} (hown : storageHandle[devNum]?.join = some device)
    {write : Nat → Nat → Nat → SendResult} {s : LevelUpdate} :
    resetApplicationLoglevel flags ecu storageHandle devNum write s =
      storageHandle.zipIdx.foldl (fun s x => updateOther flags ecu devNum write s x.1 x.2)
        ((deviceKeys device).zipIdx.foldl (fun s x =>
          s.updateContextLoglevel flags ecu x.1 resetLoglevel (write devNum x.2)) s) := by
  rw [resetApplicationLoglevel, hown]

theorem LevelsSettled.disconnect (hs : LevelsSettled ecu s) {deviceIndex : Nat}
    {write : Nat → Nat → Nat → SendResult}
    (hfree : OrderFree ecu s (.disconnect deviceIndex write)) :
    LevelsSettled ecu (s.disconnect flags ecu deviceIndex write) := by
  have hconfigured := hs.configured.set configured_none deviceIndex
  cases hown : s.storageHandle[deviceIndex]?.join with
  | none =>
      have hkept : s.storageHandle.set deviceIndex none = s.storageHandle := by
        cases hhandle : s.storageHandle[deviceIndex]? with
        | none => exact List.set_eq_of_length_le (List.getElem?_eq_none_iff.mp hhandle)
        | some handle =>
            rw [hhandle, Option.join_some] at hown
            subst hown
            obtain ⟨hi, hvalue⟩ := List.getElem?_eq_some_iff.mp hhandle
            rw [← hvalue, List.set_getElem_self]
      have hsame : s.disconnect flags ecu deviceIndex write = s := by
        rw [StorageState.disconnect, resetApplicationLoglevel, hown, hkept]
      rw [hsame]
      exact hs
  | some device =>
      have halike := hfree (by rw [hown]; rfl)
      have hhandle := Option.join_eq_some_iff.mp hown
      have hdevice : some device ∈ s.storageHandle := List.mem_of_getElem? hhandle
      have hreset := LevelUpdate.relevelled_reset flags ecu (deviceKeys device).zipIdx
        (write deviceIndex) s.update
      have hpaired : Configured (s.storageHandle.zipIdx.map Prod.fst) := by
        rw [List.zipIdx_map_fst]
        exact hs.configured
      have hothers (t : LevelUpdate) := relevelled_others flags ecu hpaired deviceIndex write t
      have hall := hreset.trans (hothers _)
      rw [StorageState.disconnect, resetApplicationLoglevel_eq hown]
      refine @Relevelled.settled _ _ _ ⟨_, _, s.overrun⟩ hs hall hconfigured rfl ?_
      intro k context hcontext
      apply eq_of_forall_ge_iff
      intro bound
      simp only [otherDemands_congr hreset.entries.contextKeys]
      rw [runningMax_le_iff, otherDemands_le_iff hs.configured halike hcontext,
        demandedLevel_le_iff]
      apply and_congr_left
      intro hrest
      split
      · exact Iff.rfl
      · rename_i hnames
        -- no key of the device names the context, so that nothing is found for it there
        obtain ⟨filters, _, rfl⟩ := hs.configured _ hdevice device rfl
        have hnone : demands ecu s.update.users (deviceOf filters) k = [] := by
          rw [demands, List.map_eq_nil_iff, List.filter_eq_nil_iff]
          intro key hkey hk
          obtain ⟨turn, hturn⟩ := List.mem_iff_getElem?.mp hkey
          exact hnames ⟨(key, turn), List.mem_zipIdx_iff_getElem?.mpr hturn, of_decide_eq_true hk⟩
        have hfound := (demands_le_iff (acceptedLevels_filters filters)
          ((halike _ hdevice _ rfl).context hcontext) bound).mp
        have hnothing :
            ∀ level ∈ matchingLevels ecu context (some (deviceOf filters)), level ≤ bound := by
          apply hfound
          intro level hlevel
          have hcases : level ∈ demands ecu s.update.users (deviceOf filters) k := hlevel
          rw [hnone] at hcases
          cases hcases
        rw [demandedLevel_le_iff]
        apply and_iff_left
        intro i handle hi
        by_cases hindex : i = deviceIndex
        · subst hindex
          rw [hhandle] at hi
          obtain rfl := Option.some.inj hi
          exact hnothing
        · exact hrest i handle (by rw [List.getElem?_set_ne (Ne.symm hindex), hi])

theorem filterLevel_eq {device : StorageDevice} {i : Nat} {filter : StorageFilter}
    (h : device.filters[i]? = some filter) : filterLevel device i = filter.config.logLevel := by
  rw [filterLevel, h]
  rfl

/-- The loop over file filters takes the highest level. -/
theorem configuredLoglevel_eq {device : StorageDevice} {found : List Nat}
    (hfound : ∀ i ∈ found, ∃ filter, device.filters[i]? = some filter ∧
      filter.config.fileName.isSome ∧ (filter.config.logLevel : Int) ≤ mctLogVerbose)
    (storage : Int) :
    configuredLoglevel device storage found =
      runningMax storage (found.map (filterLevel device)) := by
  induction found generalizing storage with
  | nil => rfl
  | cons i found ih =>
      obtain ⟨filter, hfilter, hname, hlevel⟩ := hfound i List.mem_cons_self
      have hrest : ∀ j ∈ found, ∃ filter, device.filters[j]? = some filter ∧
          filter.config.fileName.isSome ∧ (filter.config.logLevel : Int) ≤ mctLogVerbose :=
        fun j hj => hfound j (List.mem_cons_of_mem _ hj)
      have hkept : int8 filter.config.logLevel = filter.config.logLevel := by
        have hverbose : mctLogVerbose = 6 := rfl
        exact int8_of_range (by omega) (by omega)
      have hnamed : ¬ filter.config.fileName.isNone = true := by
        rw [Option.isNone_iff_eq_none]
        intro hnone
        rw [hnone] at hname
        cases hname
      rw [configuredLoglevel, hfilter]
      dsimp only
      rw [if_neg hnamed, ih hrest, hkept, List.map_cons, filterLevel_eq hfilter, max_comm]
      rfl

theorem listFind_filter {configs : List StorageConfig} {key : List Char} {i : Nat}
    (h : i ∈ listFind key (setupDevice configs).table.configList) :
    ∃ filter, (setupDevice configs).filters[i]? = some filter := by
  obtain ⟨entry, hentry, _⟩ := mem_listFind.mp h
  have hlinked := congrArg (·[i]?) (setupDevice_accepted configs).linked
  simp only [List.getElem?_map, hentry, Option.map_some] at hlinked
  cases hfilter : (setupDevice configs).filters[i]? with
  | none =>
      rw [hfilter] at hlinked
      cases hlinked
  | some filter => exact ⟨filter, rfl⟩

/-- A lookup that looks the table through finds the highest of the matching levels. -/
theorem runningMax_found {device : StorageDevice} {context : MctDaemonContext}
    (hlooked : LookedThrough (messageIds ecu context.apid context.ctid) device) (start : Int) :
    runningMax start ((getConfig device.table
        (messageIds ecu context.apid context.ctid)).map (filterLevel device)) =
      runningMax start (matchingLevels ecu context (some device)) := by
  apply eq_of_forall_ge_iff
  intro bound
  rw [runningMax_le_iff, runningMax_le_iff]
  apply and_congr_right
  intro _
  constructor
  · intro hfound level hlevel
    obtain ⟨i, filter, hfilter, howned, rfl⟩ := mem_matchingLevels.mp hlevel
    exact hfound _ (List.mem_map_of_mem (hlooked.mem_getConfig hfilter howned))
  · intro hmatching level hlevel
    obtain ⟨i, hi, rfl⟩ := List.mem_map.mp hlevel
    obtain ⟨possible, hpossible, hfind⟩ := mem_getConfig hi
    obtain ⟨filter, hfilter, hkey⟩ := mem_listFind.mp hfind
    apply hmatching
    exact mem_matchingLevels.mpr
      ⟨i, filter, hfilter, ownedKeys_pos_iff.mpr ⟨possible, hpossible, hkey⟩, rfl⟩

/-- A context is registered with the level that is demanded of it. -/
theorem getLoglevel_eq {storageHandle : List (Option StorageDevice)}
    (hconfigured : Configured storageHandle) {apid ctid : ID4}
    (hlooked : ∀ handle ∈ storageHandle, ∀ device ∈ handle,
      LookedThrough (messageIds ecu apid ctid) device) {context : MctDaemonContext}
    (hkey : context.key = toLex (setId apid.chars, setId ctid.chars)) :
    getLoglevel ecu storageHandle apid ctid =
      some (demandedLevel ecu storageHandle context) := by
  have hapid : context.apid = setId apid.chars := congrArg (fun key => (ofLex key).1) hkey
  have hctid : context.ctid = setId ctid.chars := congrArg (fun key => (ofLex key).2) hkey
  have hids : messageIds ecu context.apid context.ctid = messageIds ecu apid ctid := by
    rw [messageIds, messageIds, hapid, hctid, idText_setId, idText_setId]
  rw [← hids] at hlooked
  rw [getLoglevel, demandedLevel, show mctLogDefault = -1 from rfl, ← hids]
  generalize (-1 : Int) = start
  induction storageHandle generalizing start with
  | nil => rfl
  | cons handle handles ih =>
      have hrest : Configured handles := fun other hother =>
        hconfigured other (List.mem_cons_of_mem _ hother)
      have hothers := ih hrest fun other hother => hlooked other (List.mem_cons_of_mem _ hother)
      rw [List.foldlM_cons, List.flatMap_cons, runningMax_append]
      cases handle with
      | none => exact hothers start
      | some device =>
          have hthrough := hlooked _ List.mem_cons_self device rfl
          obtain ⟨filters, hfile, rfl⟩ := hconfigured _ List.mem_cons_self device rfl
          have hlevels := acceptedLevels_filters filters
          have hfound (i : Nat) (hi : i ∈ getConfig (deviceOf filters).table
              (messageIds ecu context.apid context.ctid)) :
              ∃ filter, (deviceOf filters).filters[i]? = some filter ∧
                filter.config.fileName.isSome ∧ (filter.config.logLevel : Int) ≤ mctLogVerbose := by
            obtain ⟨possible, _, hfind⟩ := mem_getConfig hi
            obtain ⟨filter, hfilter⟩ := listFind_filter hfind
            have hknown := setupDevice_configs _ _ (List.mem_of_getElem? hfilter)
            obtain ⟨accepted, haccepted, hsame⟩ := List.mem_map.mp hknown
            refine ⟨filter, hfilter, ?_, (hlevels _ hknown).2⟩
            rw [← hsame]
            exact hfile accepted haccepted
          dsimp only
          rw [if_neg (not_lt.mpr hthrough.2), configuredLoglevel_eq hfound,
            runningMax_found hthrough]
          exact hothers _

theorem LevelsSettled.send (hs : LevelsSettled ecu s) (k : Nat) (write : SendResult) :
    LevelsSettled ecu
      ⟨s.update.userSendLogLevel flags k write, s.storageHandle, s.overrun⟩ := by
  have hentries := LevelUpdate.sameEntries_userSendLogLevel flags s.update k write
  refine ⟨hs.tables.of_sameKeys hentries.sameKeys, hs.configured, hs.meets.1, ?_⟩
  intro context' hcontext'
  rw [LevelUpdate.users_userSendLogLevel] at hcontext'
  obtain ⟨context, hcontext, hsame | hlost⟩ :=
    (MctDaemonUsers.reduces_userSendLogLevel k write).contexts context' hcontext'
  · rw [hsame]
    exact hs.meets.2 context hcontext
  · rw [hlost]
    exact hs.meets.2 context hcontext

theorem LevelsSettled.addContextOf (hs : LevelsSettled ecu s) {apid : ID4} (hapid : apid.Canonical)
    (application : MctDaemonApplication) (ctid : ID4)
    (hlooked : ∀ handle ∈ s.storageHandle, ∀ device ∈ handle,
      LookedThrough (messageIds ecu apid ctid) device) (logLevel traceStatus logLevelPos : Int)
    (description : List Char) (write : SendResult) :
    LevelsSettled ecu (s.addContextOf flags ecu application apid ctid logLevel traceStatus
      logLevelPos description write) := by
  have hreaches : s.update.users.ReachesAll apid := fun _ => ⟨.inl hapid, .inl hapid⟩
  have htables := hs.tables.contextAdd hreaches ctid logLevel traceStatus logLevelPos
    application.userHandle (some description)
  rw [StorageState.addContextOf]
  generalize hadd : s.update.users.contextAdd apid ctid logLevel traceStatus logLevelPos
    application.userHandle (some description) = added at htables
  obtain ⟨found, users⟩ := added
  cases found with
  | none =>
      obtain ⟨_, hsame⟩ | ⟨hsome, _⟩ := htables.2.2
      · dsimp only at hsame ⊢
        rw [hsame]
        exact hs
      · cases hsome
  | some k =>
      obtain ⟨context, hcontext, hkey, _, hothers, _⟩ :=
        MctDaemonUsers.contextAdd_found hadd htables.1
      have hlevel : (if s.storageHandle.length ≠ 0 then getLoglevel ecu s.storageHandle apid ctid
          else some mctLogDefault) = some (demandedLevel ecu s.storageHandle context) := by
        split
        · exact getLoglevel_eq hs.configured hlooked hkey
        · rename_i hnone
          rw [List.length_eq_zero_iff.mp (not_not.mp hnone)]
          rfl
      have hstored : LevelsSettled ecu ⟨LevelUpdate.setStorageLevel ⟨users, s.update.sent⟩ k
          (demandedLevel ecu s.storageHandle context), s.storageHandle, s.overrun⟩ := by
        refine ⟨?_, hs.configured, hs.meets.1, ?_⟩
        · exact htables.1.of_sameKeys
            (LevelUpdate.sameEntries_setStorageLevel ⟨users, s.update.sent⟩ k _).sameKeys
        · intro other hother
          obtain ⟨j, hj⟩ := List.mem_iff_getElem?.mp hother
          rw [LevelUpdate.contexts_setStorageLevel] at hj
          obtain ⟨before, hbefore, hafter⟩ := Option.map_eq_some_iff.mp hj
          split at hafter
          · rename_i hhere
            rw [hhere, hcontext] at hbefore
            obtain rfl := Option.some.inj hbefore
            rw [← hafter]
            rfl
          · rename_i hhere
            rw [← hafter]
            apply hs.meets.2
            apply hothers before (List.mem_of_getElem? hbefore)
            intro hsame
            exact hhere (htables.1.contexts.position hbefore hcontext hsame)
      simp only [hlevel]
      split
      · exact hstored.send k write
      · exact hstored

theorem LevelsSettled.registerContext (hs : LevelsSettled ecu s) {apid : ID4}
    (hapid : apid.Canonical) (ctid : ID4)
    (hlooked : ∀ handle ∈ s.storageHandle, ∀ device ∈ handle,
      LookedThrough (messageIds ecu apid ctid) device) (logLevel traceStatus logLevelPos : Int)
    (description : List Char) (write : SendResult) :
    LevelsSettled ecu (s.registerContext flags ecu apid ctid logLevel traceStatus logLevelPos
      description write) := by
  rw [StorageState.registerContext]
  split
  · exact hs
  · split
    · exact hs
    · rename_i application _
      dsimp only
      generalize (if logLevel = mctUserLogLevelNotSet then mctLogDefault else logLevel) = level
      generalize (if traceStatus = mctUserTraceStatusNotSet then mctTraceStatusDefault
        else traceStatus) = status
      split
      · exact hs
      · split
        · exact hs
        · exact hs.addContextOf hapid application ctid hlooked level status logLevelPos
            description write

/-- What one event preserves. -/
theorem LevelsSettled.step (hs : LevelsSettled ecu s) {event : StorageEvent}
    (haccepted : event.Accepted) (hfree : OrderFree ecu s event) :
    LevelsSettled ecu (storageStep flags ecu s event).2 := by
  cases event with
  | connect deviceIndex filters warning write => exact hs.connect haccepted hfree
  | disconnect deviceIndex write => exact hs.disconnect hfree
  | register apid ctid logLevel traceStatus logLevelPos description write =>
      exact hs.registerContext haccepted.1 ctid hfree logLevel traceStatus logLevelPos
        description write

end Steps

section Result

/-- A daemon without contexts and without log storage, with so many places for devices. -/
structure StorageState.Starts (s : StorageState) : Prop where
  overrun : s.overrun = false
  tables : s.update.users.Tables
  contexts : s.update.users.contexts = []
  storageHandle : ∀ handle ∈ s.storageHandle, handle = none

def contextSection (apids logLevel : List Char) (ecuid : Option (List Char)) :
    List (List Char × List Char) :=
  [("LogAppName".toList, apids), ("ContextName".toList, "CTX1".toList),
    ("LogLevel".toList, logLevel), ("File".toList, "log".toList),
    ("FileSize".toList, "500".toList), ("NOFiles".toList, "2".toList)] ++
    (ecuid.toList.map fun ecuid => ("EcuID".toList, ecuid))

/-- A filter at FATAL that lists an application and the wildcard. -/
def listedTwice : AcceptedFilter where
  properties :=
    { FilterProperties.initial with
      apids := some "APP1,.*".toList
      ctids := some "CTX1".toList
      logLevel := 1
      fileName := some "log".toList
      fileSize := 500
      numFiles := 2 }
  accepted := ⟨fun key => List.lookup key
    (contextSection "APP1,.*".toList "MCT_LOG_FATAL".toList none), "FILTER1".toList,
    by decide +kernel⟩

/-- A filter at VERBOSE for the same application on one ECU. -/
def onOwnEcu : AcceptedFilter where
  properties :=
    { FilterProperties.initial with
      apids := some "APP1".toList
      ctids := some "CTX1".toList
      ecuid := some "ECU1".toList
      logLevel := 6
      fileName := some "log".toList
      fileSize := 500
      numFiles := 2 }
  accepted := ⟨fun key => List.lookup key
    (contextSection "APP1".toList "MCT_LOG_VERBOSE".toList (some "ECU1".toList)), "FILTER2".toList,
    by decide +kernel⟩

/-- A daemon with one application and places for two devices. -/
def twoDevices : StorageState where
  update :=
    { users := { oneContext 0 with
        applications := [{ MctDaemonApplication.fresh (setId "APP1".toList) with userHandle := 5 }]
        contexts := [] }
      sent := [] }
  storageHandle := [none, none]
  overrun := false

theorem twoDevices_starts : twoDevices.Starts where
  overrun := rfl
  tables := by
    refine ⟨by decide, by decide, ?_, ?_, by decide⟩
    · exact ⟨by decide, by decide, by decide⟩
    · exact ⟨by decide, by decide, by decide⟩
  contexts := rfl
  storageHandle := by decide

def allSent : Nat → Nat → SendResult := fun _ _ => ⟨true, false⟩

def registerCtx1 : StorageEvent :=
  .register (setId "APP1".toList) (setId "CTX1".toList) 4 0 0 [] ⟨true, false⟩

/-- A context registers between two devices, and the first one is disconnected. -/
def devicesChange : List StorageEvent :=
  [.connect 0 [onOwnEcu] false allSent, registerCtx1, .connect 1 [fatalFilter] false allSent,
    .disconnect 0 fun _ => allSent]

def levelsAfter (events : List StorageEvent) : List Int :=
  (runOps (storageStep maintained "ECU1".toList) twoDevices events).2.update.users.contexts.map
    MctDaemonContext.storageLogLevel

end Result

end MctDaemon.Daemon
