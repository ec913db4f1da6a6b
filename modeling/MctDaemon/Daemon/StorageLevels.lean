import MctDaemon.Daemon.LevelFrames
import MctDaemon.Lib.RunningMax
import MctDaemon.Lib.Walk
import MctDaemon.Logstorage.FilterSection

/-!
Log levels that a log storage device demands (`mct_daemon_offline_logstorage.c`). When a device is
connected, the keys of its filters are walked; each key is split into identifiers, and every context
that they name gets the higher of its storage log level and that of the key.
-/

namespace MctDaemon.Daemon

open Lib Shared Logstorage

section Keys

/-- What `mct_logstorage_split_key` finds in a key. An application or context id that the key does
not name is the wildcard, the ECU id is empty. -/
structure KeyParts where
  apid : List Char
  ctid : List Char
  ecuid : List Char
  deriving DecidableEq, Repr

def splitEcuid (key : List Char) : Option KeyParts :=
  if key.length > idSize + 2 ∨ key.length < 2 then none
  else some ⟨wildcard, wildcard, key.take (key.length - 2)⟩

def splitCtid (key : List Char) : Option KeyParts :=
  if key.length > idSize + 2 ∨ key.length < 1 then none else some ⟨wildcard, key.drop 2, []⟩

def splitApid (key : List Char) : Option KeyParts :=
  if key.length > idSize + 2 ∨ key.length < 2 then none
  else some ⟨(key.drop 1).take (key.length - 2), wildcard, []⟩

def splitApidCtid (key : List Char) : Option KeyParts :=
  if key.length > maxKeyLen then none
  else match strtok ':' key with
    | apid :: ctid :: _ => some ⟨apid.take idSize, ctid.take idSize, []⟩
    | _ => none

def splitEcuidApid (key : List Char) : Option KeyParts :=
  if key.length > maxKeyLen then none
  else match strtok ':' key with
    | ecuid :: apid :: _ => some ⟨apid.take idSize, wildcard, ecuid.take idSize⟩
    | _ => none

/-- `mct_logstorage_split_multi`. A token that is missing would be read from a null pointer. -/
def splitMulti (key : List Char) : Option KeyParts :=
  if key.length > maxKeyLen then none
  else match strtok ':' key with
    | [] => none
    | ecuid :: tokens =>
        if key[ecuid.length + 1]? = some ':' then
          some ⟨wildcard, (tokens.headD []).take idSize, ecuid.take idSize⟩
        else match tokens with
          | apid :: ctid :: _ => some ⟨apid.take idSize, ctid.take idSize, ecuid.take idSize⟩
          | _ => none

def splitKey (key : List Char) : Option KeyParts :=
  if ':' ∉ key then none
  else if key.drop (key.length - 2) = [':', ':'] then splitEcuid key
  else if key.take 2 = [':', ':'] then splitCtid key
  else if key.head? = some ':' ∧ key.getLast? = some ':' then splitApid key
  else if key.head? = some ':' then splitApidCtid key
  else if key.getLast? = some ':' then splitEcuidApid key
  else splitMulti key

/-- `MCT_DAEMON_LOGSTORAGE_CMP_APID` to `_ECID`: what the contexts are compared by. -/
inductive CmpFlag where
  | apid
  | ctid
  | ecid
  deriving DecidableEq, Repr

/-- `tmp_id` in `mct_logstorage_update_all_contexts`. -/
def CmpFlag.tmpId (cmpFlag : CmpFlag) (context : MctDaemonContext) : List Char :=
  match cmpFlag with
  | .apid => idText context.apid.chars
  | .ctid => idText context.ctid.chars
  | .ecid => wildcard

namespace KeyParts

/-- The key is for contexts of the daemon's own ECU. -/
def ownEcu (ecu : List Char) (parts : KeyParts) : Bool :=
  parts.ecuid = [] || strncmpEq parts.ecuid ecu idSize

/-- The comparison over all contexts if an id is the wildcard. -/
def comparison (parts : KeyParts) : Option (CmpFlag × List Char) :=
  if parts.ctid = wildcard ∧ parts.apid = wildcard then some (.ecid, parts.apid)
  else if parts.ctid = wildcard then some (.apid, parts.apid)
  else if parts.apid = wildcard then some (.ctid, parts.ctid)
  else none

end KeyParts

def filterLevel (device : StorageDevice) (i : Nat) : Int :=
  (device.filters[i]?.map fun filter => (filter.config.logLevel : Int)).getD 0

/-- `mct_logstorage_get_loglevel_by_key` of a connected device. -/
def getLoglevelByKey (device : StorageDevice) (key : List Char) : Int :=
  match (listFind key device.table.configList).map (filterLevel device) with
  | [] => -1
  | [logLevel] => logLevel
  | logLevels => runningMax 0 logLevels

/-- The keys of a device, as the loops over its filters copy them. -/
def deviceKeys (device : StorageDevice) : List (List Char) :=
  device.table.configList.flatMap fun filter => filter.keyList.map (List.take maxKeyLen)

end Keys

section Model

/-- The tables, and the LOG_LEVEL messages sent since the update began, each with the position of
its context. -/
structure LevelUpdate where
  users : MctDaemonUsers
  sent : List (Nat × MctUserControlMsgLogLevel)

def resetSendLoglevel : Int := 0

namespace LevelUpdate

variable (flags : LevelFlags) (ecu : List Char)

/-- `mct_daemon_user_send_log_level` with the position of the context that is written to. -/
def userSendLogLevel (s : LevelUpdate) (k : Nat) (write : SendResult) : LevelUpdate :=
  match s.users.contexts[k]? with
  | none => s
  | some context =>
      let (sent, users) := s.users.userSendLogLevel k write
      ⟨users, if sent then s.sent ++ [(k, s.users.levelMessage flags context)] else s.sent⟩

def setStorageLevel (s : LevelUpdate) (k : Nat) (level : Int) : LevelUpdate :=
  { s with users := s.users.modifyContext k ({· with storageLogLevel := level}) }

/-- `mct_daemon_logstorage_send_log_level` for the daemon's own ECU. -/
def sendLogLevel (s : LevelUpdate) (k : Nat) (loglevel : Int) (write : SendResult) :
    LevelUpdate :=
  match s.users.contexts[k]? with
  | none => s
  | some context =>
      if loglevel > mctLogVerbose ∨ loglevel < mctLogDefault then s
      else
        let s := s.setStorageLevel k (max loglevel context.storageLogLevel)
        if max loglevel context.storageLogLevel > context.storageLogLevel then
          s.userSendLogLevel flags k write
        else s

/-- `mct_daemon_logstorage_reset_log_level` for the daemon's own ECU. -/
def resetLogLevel (s : LevelUpdate) (k : Nat) (loglevel : Int) (write : SendResult) :
    LevelUpdate :=
  if loglevel > mctLogVerbose ∨ loglevel < mctLogDefault then s
  else
    let s := s.setStorageLevel k mctLogDefault
    if loglevel = resetSendLoglevel then s.userSendLogLevel flags k write else s

/-- The choice between the two. -/
def updateLogLevel (s : LevelUpdate) (k : Nat) (currLogLevel : Int) (write : SendResult) :
    LevelUpdate :=
  if currLogLevel > 0 then s.sendLogLevel flags k currLogLevel write
  else s.resetLogLevel flags k currLogLevel write

def updateAllContexts (s : LevelUpdate) (id : List Char) (currLogLevel : Int) (cmpFlag : CmpFlag)
    (write : Nat → SendResult) : LevelUpdate :=
  (List.range s.users.contexts.length).foldl (fun s i =>
    if s.users.contexts[i]?.any fun context => strncmpEq id (cmpFlag.tmpId context) idSize then
      s.updateLogLevel flags i currLogLevel (write i)
    else s) s

def updateContext (s : LevelUpdate) (apid ctid : List Char) (currLogLevel : Int)
    (write : Nat → SendResult) : LevelUpdate :=
  match s.users.contextFind (setId apid) (setId ctid) with
  | none => s
  | some k => s.updateLogLevel flags k currLogLevel (write k)

/-- `mct_logstorage_update_context_loglevel`. A key for another ECU changes no context of the
daemon's own. -/
def updateContextLoglevel (s : LevelUpdate) (key : List Char) (currLogLevel : Int)
    (write : Nat → SendResult) : LevelUpdate :=
  match splitKey key with
  | none => s
  | some parts =>
      if parts.ownEcu ecu then
        match parts.comparison with
        | some (cmpFlag, id) => s.updateAllContexts flags id currLogLevel cmpFlag write
        | none => s.updateContext flags parts.apid parts.ctid currLogLevel write
      else s

/-- The loop over the keys. `write` answers for the send to a context on behalf of a key. -/
def updateKeys (device : StorageDevice) (write : Nat → Nat → SendResult) :
    List (List Char × Nat) → LevelUpdate → LevelUpdate
  | [], s => s
  | (key, turn) :: keys, s =>
      if getLoglevelByKey device key < 0 then s
      else updateKeys device write keys
        (s.updateContextLoglevel flags ecu key (getLoglevelByKey device key) (write turn))

/-- `mct_daemon_logstorage_update_application_loglevel` for a connected device with its
configuration. -/
def updateApplicationLoglevel (device : StorageDevice) (write : Nat → Nat → SendResult)
    (s : LevelUpdate) : LevelUpdate :=
  s.updateKeys flags ecu device write (deviceKeys device).zipIdx

end LevelUpdate

end Model

section Demands

variable (flags : LevelFlags) (ecu : List Char) (d : MctDaemonUsers) (device : StorageDevice)

/-- The log level in effect for a context: its own or, at DEFAULT, that of the daemon; with log
storage levels maintained, the storage log level if that is higher. -/
def levelInEffect (context : MctDaemonContext) : Int :=
  let own := if context.logLevel = mctLogDefault then d.defaultLogLevel else context.logLevel
  if flags.maintainLogstorageLoglevel then max own context.storageLogLevel else own

/-- The last message sent to the context at a position. -/
def lastSent (sent : List (Nat × MctUserControlMsgLogLevel)) (k : Nat) :
    Option MctUserControlMsgLogLevel :=
  ((sent.filter fun x => x.1 = k).getLast?).map Prod.snd

/-- However the sends turn out, the level last sent to a context is not below the one that was in
effect for it. -/
def NeverLowers : Prop :=
  ∀ (write : Nat → Nat → SendResult) (k : Nat) (context : MctDaemonContext),
    d.contexts[k]? = some context →
    ∀ message ∈ lastSent
        (LevelUpdate.updateApplicationLoglevel flags ecu device write ⟨d, []⟩).sent k,
      levelInEffect flags d context ≤ message.logLevel.toNat

/-- The levels are those of the daemon: DEFAULT to VERBOSE, and no DEFAULT for the default. -/
structure LevelsInRange : Prop where
  defaultLogLevel : 0 ≤ d.defaultLogLevel ∧ d.defaultLogLevel ≤ mctLogVerbose
  contexts : ∀ context ∈ d.contexts,
    mctLogDefault ≤ context.logLevel ∧ context.logLevel ≤ mctLogVerbose ∧
      mctLogDefault ≤ context.storageLogLevel ∧ context.storageLogLevel ≤ mctLogVerbose

/-- The levels that `mct_logstorage_check_loglevel` accepts: FATAL to VERBOSE. -/
def AcceptedLevels (configs : List StorageConfig) : Prop :=
  ∀ config ∈ configs, 1 ≤ config.logLevel ∧ (config.logLevel : Int) ≤ mctLogVerbose

def keyPositions (key : List Char) : List Nat :=
  match splitKey key with
  | none => []
  | some parts =>
      if parts.ownEcu ecu then
        match parts.comparison with
        | some (cmpFlag, id) => (List.range d.contexts.length).filter fun i =>
            d.contexts[i]?.any fun context => strncmpEq id (cmpFlag.tmpId context) idSize
        | none => (d.contextFind (setId parts.apid) (setId parts.ctid)).toList
      else []

/-- The levels that the keys of a device demand of a context, in the order of the keys. -/
def demands (k : Nat) : List Int :=
  ((deviceKeys device).filter fun key => k ∈ keyPositions ecu d key).map (getLoglevelByKey device)

def firstRaise (k : Nat) (context : MctDaemonContext) : Option Int :=
  (demands ecu d device k).find? fun level => context.storageLogLevel < level

end Demands

section Device

variable {configs : List StorageConfig}

theorem setupDevice_configs (configs : List StorageConfig) :
    ∀ filter ∈ (setupDevice configs).filters, filter.config ∈ configs := by
  have hrun (known : List StorageConfig) (device : StorageDevice)
      (hknown : ∀ filter ∈ device.filters, filter.config ∈ known ++ configs) :
      ∀ filter ∈ (configs.foldl setupFilter device).filters, filter.config ∈ known ++ configs := by
    induction configs generalizing known device with
    | nil => exact hknown
    | cons config configs ih =>
        rw [List.append_cons] at hknown ⊢
        apply ih
        intro filter hfilter
        rw [setupFilter] at hfilter
        split at hfilter
        · exact hknown filter hfilter
        · rcases List.mem_append.mp hfilter with hold | hnew
          · exact hknown filter hold
          · rw [List.mem_singleton.mp hnew]
            simp
  intro filter hfilter
  apply hrun [] _ _ filter hfilter
  intro filter hnone
  cases hnone

theorem filterLevel_range (h : AcceptedLevels configs) {i : Nat}
    (hi : i < (setupDevice configs).table.configList.length) :
    1 ≤ filterLevel (setupDevice configs) i ∧
      filterLevel (setupDevice configs) i ≤ mctLogVerbose := by
  have hlength := congrArg List.length (setupDevice_accepted configs).linked
  simp only [List.length_map] at hlength
  rw [hlength] at hi
  have hlevel := h _ (setupDevice_configs configs _ (List.getElem_mem hi))
  rw [filterLevel, List.getElem?_eq_getElem hi]
  simp only [Option.map_some, Option.getD_some]
  exact ⟨by exact_mod_cast hlevel.1, hlevel.2⟩

theorem listFind_ne_nil {device : StorageDevice} {key : List Char}
    (hkey : key ∈ deviceKeys device) : listFind key device.table.configList ≠ [] := by
  obtain ⟨filter, hfilter, hcopied⟩ := List.mem_flatMap.mp hkey
  obtain ⟨own, hown, rfl⟩ := List.mem_map.mp hcopied
  obtain ⟨i, hi, rfl⟩ := List.getElem_of_mem hfilter
  have hhas : hasKey (own.take maxKeyLen) device.table.configList[i] = true :=
    List.any_eq_true.mpr ⟨own, hown, by simp [sameKey]⟩
  exact List.ne_nil_of_mem (List.mem_findIdxs_iff_exists_getElem_pos.mpr ⟨hi, hhas⟩)

/-- A key of the device has the level of a filter. -/
theorem getLoglevelByKey_range (h : AcceptedLevels configs) {key : List Char}
    (hkey : key ∈ deviceKeys (setupDevice configs)) :
    1 ≤ getLoglevelByKey (setupDevice configs) key ∧
      getLoglevelByKey (setupDevice configs) key ≤ mctLogVerbose := by
  have hlevels : ∀ level ∈ (listFind key (setupDevice configs).table.configList).map
      (filterLevel (setupDevice configs)), 1 ≤ level ∧ level ≤ mctLogVerbose := by
    intro level hlevel
    obtain ⟨i, hi, rfl⟩ := List.mem_map.mp hlevel
    exact filterLevel_range h (List.mem_findIdxs_iff_exists_getElem_pos.mp hi).1
  have hne : (listFind key (setupDevice configs).table.configList).map
      (filterLevel (setupDevice configs)) ≠ [] := by
    simpa using listFind_ne_nil hkey
  rw [getLoglevelByKey]
  generalize (listFind key (setupDevice configs).table.configList).map
    (filterLevel (setupDevice configs)) = levels at hlevels hne
  match levels with
  | [] => exact absurd rfl hne
  | [level] => exact hlevels level List.mem_cons_self
  | first :: second :: levels =>
      constructor
      · exact (hlevels first List.mem_cons_self).1.trans (le_runningMax List.mem_cons_self)
      · apply runningMax_le
        · decide
        · intro level hlevel
          exact (hlevels level hlevel).2

end Device

section Positions

variable {ecu : List Char} {d d' : MctDaemonUsers}

theorem contextFind_congr (h : d'.contextKeys = d.contextKeys) (apid ctid : ID4) :
    d'.contextFind apid ctid = d.contextFind apid ctid := by
  have hapids : d'.contextApids = d.contextApids := by
    rw [MctDaemonUsers.contextApids_eq_map_keys, h, ← MctDaemonUsers.contextApids_eq_map_keys]
  rw [MctDaemonUsers.contextApids, MctDaemonUsers.contextApids] at hapids
  rw [MctDaemonUsers.contextFind, MctDaemonUsers.contextFind, hapids, bsearch_congr h]

/-- A context is compared by its identifiers. -/
theorem compares_congr (h : d'.contextKeys = d.contextKeys) (id : List Char) (cmpFlag : CmpFlag)
    (i : Nat) :
    (d'.contexts[i]?.any fun context => strncmpEq id (cmpFlag.tmpId context) idSize) =
      d.contexts[i]?.any fun context => strncmpEq id (cmpFlag.tmpId context) idSize := by
  have hkey := congrArg (·[i]?) h
  simp only [MctDaemonUsers.contextKeys, List.getElem?_map] at hkey
  cases hcontext : d.contexts[i]? with
  | none =>
      rw [hcontext, Option.map_none, Option.map_eq_none_iff] at hkey
      rw [hkey]
  | some context =>
      rw [hcontext, Option.map_some, Option.map_eq_some_iff] at hkey
      obtain ⟨context', hcontext', hsame⟩ := hkey
      have hapid : context'.apid = context.apid := congrArg (fun key => (ofLex key).1) hsame
      have hctid : context'.ctid = context.ctid := congrArg (fun key => (ofLex key).2) hsame
      rw [hcontext']
      cases cmpFlag <;> simp [CmpFlag.tmpId, hapid, hctid]

theorem length_contexts_congr (h : d'.contextKeys = d.contextKeys) :
    d'.contexts.length = d.contexts.length := by
  have hlength := congrArg List.length h
  rwa [MctDaemonUsers.contextKeys, MctDaemonUsers.contextKeys, List.length_map,
    List.length_map] at hlength

/-- What a key names depends on the identifiers in the table alone. -/
theorem keyPositions_congr (h : d'.contextKeys = d.contextKeys) (key : List Char) :
    keyPositions ecu d' key = keyPositions ecu d key := by
  unfold keyPositions
  simp only [contextFind_congr h, compares_congr h, length_contexts_congr h]

theorem nodup_keyPositions (ecu : List Char) (d : MctDaemonUsers) (key : List Char) :
    (keyPositions ecu d key).Nodup := by
  unfold keyPositions
  split
  · exact List.nodup_nil
  · split
    · split
      · exact List.nodup_range.filter _
      · cases d.contextFind _ _ with
        | none => exact List.nodup_nil
        | some k => exact List.nodup_singleton k
    · exact List.nodup_nil

end Positions

section Visits

/-- A context that the update comes to, with the turn of the key and the level demanded. -/
structure Visit where
  turn : Nat
  position : Nat
  level : Int

variable (flags : LevelFlags) (ecu : List Char) (device : StorageDevice)

/-- The contexts that an update comes to, in order. -/
def visits (d : MctDaemonUsers) (keys : List (List Char × Nat)) : List Visit :=
  keys.flatMap fun x => (keyPositions ecu d x.1).map fun k => ⟨x.2, k, getLoglevelByKey device x.1⟩

def levelsAt (k : Nat) (visits : List Visit) : List Int :=
  (visits.filter fun v => v.position = k).map Visit.level

def LevelUpdate.visit (write : Nat → Nat → SendResult) (s : LevelUpdate) (v : Visit) :
    LevelUpdate :=
  s.sendLogLevel flags v.position v.level (write v.turn v.position)

namespace LevelUpdate

theorem sameEntries_setStorageLevel (s : LevelUpdate) (k : Nat) (level : Int) :
    MctDaemonUsers.SameEntries s.users (s.setStorageLevel k level).users :=
  MctDaemonUsers.sameEntries_modifyContext k fun _ => rfl

theorem sameEntries_userSendLogLevel (s : LevelUpdate) (k : Nat) (write : SendResult) :
    MctDaemonUsers.SameEntries s.users (s.userSendLogLevel flags k write).users := by
  rw [LevelUpdate.userSendLogLevel]
  cases s.users.contexts[k]? with
  | none => exact .refl _
  | some context => exact MctDaemonUsers.sameEntries_userSendLogLevel k write

theorem sameEntries_updateLogLevel (s : LevelUpdate) (k : Nat) (level : Int)
    (write : SendResult) :
    MctDaemonUsers.SameEntries s.users (s.updateLogLevel flags k level write).users := by
  have hset (storage : Int) := sameEntries_setStorageLevel s k storage
  unfold updateLogLevel sendLogLevel resetLogLevel
  split
  · split
    · exact .refl _
    · split
      · exact .refl _
      · dsimp only
        split
        · exact (hset _).trans (sameEntries_userSendLogLevel flags _ k write)
        · exact hset _
  · split
    · exact .refl _
    · dsimp only
      split
      · exact (hset _).trans (sameEntries_userSendLogLevel flags _ k write)
      · exact hset _

theorem contextKeys_updateLogLevel (s : LevelUpdate) (k : Nat) (level : Int)
    (write : SendResult) :
    (s.updateLogLevel flags k level write).users.contextKeys = s.users.contextKeys :=
  (sameEntries_updateLogLevel flags s k level write).contextKeys

/-- An update for a key comes to the contexts that the key names before it. -/
theorem updateContextLoglevel_eq (s : LevelUpdate) (key : List Char) (level : Int)
    (write : Nat → SendResult) :
    s.updateContextLoglevel flags ecu key level write =
      (keyPositions ecu s.users key).foldl
        (fun s k => s.updateLogLevel flags k level (write k)) s := by
  have hkeep (s : LevelUpdate) (i : Nat) :
      (s.updateLogLevel flags i level (write i)).users.contextKeys = s.users.contextKeys :=
    contextKeys_updateLogLevel flags s i level (write i)
  unfold updateContextLoglevel keyPositions
  cases splitKey key with
  | none => rfl
  | some parts =>
      dsimp only
      split
      · split
        · rename_i cmpFlag id _
          exact foldl_ite_eq_filter
            (fun s i j => compares_congr (hkeep s i) id cmpFlag j) _ s
        · rw [updateContext]
          cases s.users.contextFind (setId parts.apid) (setId parts.ctid) with
          | none => rfl
          | some k => rfl
      · rfl

theorem contextKeys_visit (write : Nat → Nat → SendResult) (s : LevelUpdate) (v : Visit)
    (hpos : 0 < v.level) : (s.visit flags write v).users.contextKeys = s.users.contextKeys := by
  have hupdate := contextKeys_updateLogLevel flags s v.position v.level
    (write v.turn v.position)
  rwa [updateLogLevel, if_pos hpos] at hupdate

theorem contextKeys_foldl_visit (write : Nat → Nat → SendResult) (s : LevelUpdate)
    {done : List Visit} (hpos : ∀ v ∈ done, 0 < v.level) :
    (done.foldl (visit flags write) s).users.contextKeys = s.users.contextKeys := by
  induction done generalizing s with
  | nil => rfl
  | cons v done ih =>
      rw [List.foldl_cons, ih, contextKeys_visit flags write s v (hpos v List.mem_cons_self)]
      intro w hw
      exact hpos w (List.mem_cons_of_mem _ hw)

/-- With positive levels the update sends on each visit. -/
theorem updateKeys_eq (write : Nat → Nat → SendResult) {keys : List (List Char × Nat)}
    (hpos : ∀ x ∈ keys, 0 < getLoglevelByKey device x.1) (s : LevelUpdate) :
    s.updateKeys flags ecu device write keys =
      (visits ecu device s.users keys).foldl (visit flags write) s := by
  induction keys generalizing s with
  | nil => rfl
  | cons x keys ih =>
      obtain ⟨key, turn⟩ := x
      have hlevel : 0 < getLoglevelByKey device key := hpos (key, turn) List.mem_cons_self
      have hrest : ∀ x ∈ keys, 0 < getLoglevelByKey device x.1 :=
        fun x hx => hpos x (List.mem_cons_of_mem _ hx)
      have hvisit (s : LevelUpdate) (k : Nat) :
          s.updateLogLevel flags k (getLoglevelByKey device key) (write turn k) =
            s.visit flags write ⟨turn, k, getLoglevelByKey device key⟩ := if_pos hlevel
      have hpositions : ∀ v ∈ (keyPositions ecu s.users key).map
          (fun k => Visit.mk turn k (getLoglevelByKey device key)), 0 < v.level := by
        intro v hv
        obtain ⟨k, _, rfl⟩ := List.mem_map.mp hv
        exact hlevel
      have hkeys := contextKeys_foldl_visit flags write s hpositions
      rw [List.foldl_map] at hkeys
      have hlater (d' : MctDaemonUsers) (hd' : d'.contextKeys = s.users.contextKeys) :
          visits ecu device d' keys = visits ecu device s.users keys := by
        simp only [visits, keyPositions_congr hd']
      have hcons : visits ecu device s.users ((key, turn) :: keys) =
          (keyPositions ecu s.users key).map
              (fun k => Visit.mk turn k (getLoglevelByKey device key)) ++
            visits ecu device s.users keys := List.flatMap_cons
      rw [updateKeys, if_neg (by omega), ih hrest, updateContextLoglevel_eq, hcons,
        List.foldl_append, List.foldl_map]
      simp only [hvisit]
      rw [hlater _ hkeys]

end LevelUpdate

end Visits

section Send

theorem userSendLogLevel_sent {d : MctDaemonUsers} {k : Nat} {context : MctDaemonContext}
    (hcontext : d.contexts[k]? = some context) (write : SendResult) :
    (d.userSendLogLevel k write).1 = true ↔ 0 < context.userHandle ∧ write.ok = true := by
  unfold MctDaemonUsers.userSendLogLevel userLogOut2
  simp only [hcontext]
  by_cases hvalid : 0 < context.userHandle
  · simp only [if_neg (not_le.mpr hvalid), hvalid, true_and]
    cases hok : write.ok with
    | true => simp
    | false =>
        simp only [Bool.false_eq_true, if_false, iff_false, Bool.not_eq_true]
        split
        · split <;> rfl
        · rfl
  · simp only [if_pos (not_lt.mp hvalid), hvalid, false_and, Bool.false_eq_true, if_false,
      iff_false, Bool.not_eq_true]
    split
    · split <;> rfl
    · rfl

/-- A send that does not end in EPIPE leaves the tables as they are. -/
theorem userSendLogLevel_snd (d : MctDaemonUsers) (k : Nat) {write : SendResult}
    (hopen : write.epipe = false) : (d.userSendLogLevel k write).2 = d := by
  unfold MctDaemonUsers.userSendLogLevel userLogOut2
  cases d.contexts[k]? with
  | none => rfl
  | some context =>
      dsimp only
      by_cases hvalid : context.userHandle ≤ 0
      · simp [if_pos hvalid, hopen]
      · rw [if_neg hvalid, hopen]
        cases write.ok <;> rfl

theorem defaultLogLevel_userSendLogLevel (d : MctDaemonUsers) (k : Nat) (write : SendResult) :
    (d.userSendLogLevel k write).2.defaultLogLevel = d.defaultLogLevel :=
  congrArg (fun settings => settings.2.1) (MctDaemonUsers.reduces_userSendLogLevel k write).settings

variable (flags : LevelFlags) {s : LevelUpdate} {k : Nat} {context : MctDaemonContext}

namespace LevelUpdate

/-- A message is sent if the handle is valid and the write succeeds. -/
theorem sent_userSendLogLevel (hcontext : s.users.contexts[k]? = some context)
    (write : SendResult) :
    (s.userSendLogLevel flags k write).sent =
      if 0 < context.userHandle ∧ write.ok = true then
        s.sent ++ [(k, s.users.levelMessage flags context)]
      else s.sent := by
  rw [userSendLogLevel, hcontext]
  exact if_congr (userSendLogLevel_sent hcontext write) rfl rfl

theorem users_userSendLogLevel (s : LevelUpdate) (k : Nat) (write : SendResult) :
    (s.userSendLogLevel flags k write).users = (s.users.userSendLogLevel k write).2 := by
  rw [userSendLogLevel]
  cases hcontext : s.users.contexts[k]? with
  | none => simp [MctDaemonUsers.userSendLogLevel, hcontext]
  | some context => rfl

/-- The contexts after one storage log level is set. -/
theorem contexts_setStorageLevel (s : LevelUpdate) (k : Nat) (level : Int) (j : Nat) :
    (s.setStorageLevel k level).users.contexts[j]? = s.users.contexts[j]?.map fun context =>
      if j = k then { context with storageLogLevel := level } else context := by
  rw [setStorageLevel, MctDaemonUsers.modifyContext, List.getElem?_modify]
  by_cases hj : k = j
  · simp [hj]
  · simp [hj, Ne.symm hj]

variable {v : Visit} (write : Nat → Nat → SendResult)

/-- What a visit does, if its level is one of a filter. -/
theorem visit_eq (hcontext : s.users.contexts[v.position]? = some context)
    (hlow : 0 < v.level) (hhigh : v.level ≤ mctLogVerbose) :
    s.visit flags write v =
      if context.storageLogLevel < v.level then
        (s.setStorageLevel v.position v.level).userSendLogLevel flags v.position
          (write v.turn v.position)
      else s.setStorageLevel v.position context.storageLogLevel := by
  have hinside : ¬ (v.level > mctLogVerbose ∨ v.level < mctLogDefault) := by
    simp only [mctLogDefault]
    omega
  rw [visit, sendLogLevel, hcontext]
  dsimp only
  rw [if_neg hinside]
  by_cases hraise : context.storageLogLevel < v.level
  · rw [max_eq_left hraise.le, if_pos hraise, if_pos hraise]
  · rw [max_eq_right (not_lt.mp hraise), if_neg (lt_irrefl _), if_neg hraise]

theorem sent_visit (hcontext : s.users.contexts[v.position]? = some context)
    (hlow : 0 < v.level) (hhigh : v.level ≤ mctLogVerbose) :
    (s.visit flags write v).sent =
      if context.storageLogLevel < v.level ∧ 0 < context.userHandle ∧
          (write v.turn v.position).ok = true then
        s.sent ++ [(v.position, s.users.levelMessage flags
          { context with storageLogLevel := v.level })]
      else s.sent := by
  have hset : (s.setStorageLevel v.position v.level).users.contexts[v.position]? =
      some { context with storageLogLevel := v.level } := by
    simp [contexts_setStorageLevel, hcontext]
  rw [visit_eq flags write hcontext hlow hhigh]
  by_cases hraise : context.storageLogLevel < v.level
  · rw [if_pos hraise, sent_userSendLogLevel flags hset]
    simp only [hraise, true_and]
    rfl
  · rw [if_neg hraise]
    simp only [hraise, false_and, if_false]
    rfl

/-- A visit raises the storage log level of its context; contexts may lose their handles, but only
to an EPIPE. -/
theorem context_visit {j : Nat} {own : MctDaemonContext}
    (hcontext : s.users.contexts[v.position]? = some context)
    (hj : s.users.contexts[j]? = some own) (hlow : 0 < v.level) (hhigh : v.level ≤ mctLogVerbose) :
    ∃ next, (s.visit flags write v).users.contexts[j]? = some next ∧
      MctDaemonUsers.MayLoseHandle
        (if j = v.position then
          { own with storageLogLevel := max own.storageLogLevel v.level }
        else own) next ∧
      ((write v.turn v.position).epipe = false → next.userHandle = own.userHandle) := by
  have hset (level : Int) : (s.setStorageLevel v.position level).users.contexts[j]? =
      some (if j = v.position then { own with storageLogLevel := level } else own) := by
    rw [contexts_setStorageLevel, hj, Option.map_some]
  have hsame (level : Int) :
      (if j = v.position then { own with storageLogLevel := level } else own).userHandle =
        own.userHandle := by
    split <;> rfl
  have hown (hposition : j = v.position) : own = context := by
    rw [hposition, hcontext] at hj
    exact (Option.some.inj hj).symm
  rw [visit_eq flags write hcontext hlow hhigh]
  by_cases hraise : context.storageLogLevel < v.level
  · have hmax : (if j = v.position then
          { own with storageLogLevel := max own.storageLogLevel v.level } else own) =
        if j = v.position then { own with storageLogLevel := v.level } else own := by
      by_cases hposition : j = v.position
      · rw [if_pos hposition, if_pos hposition, hown hposition, max_eq_right hraise.le]
      · rw [if_neg hposition, if_neg hposition]
    rw [if_pos hraise, users_userSendLogLevel, hmax]
    obtain ⟨next, hnext, hloses⟩ := MctDaemonUsers.userSendLogLevel_context v.position
      (write v.turn v.position) (hset v.level)
    refine ⟨next, hnext, hloses, ?_⟩
    intro hopen
    rw [userSendLogLevel_snd _ _ hopen, hset] at hnext
    rw [← Option.some.inj hnext, hsame]
  · have hmax : (if j = v.position then
          { own with storageLogLevel := max own.storageLogLevel v.level } else own) =
        if j = v.position then { own with storageLogLevel := context.storageLogLevel }
        else own := by
      by_cases hposition : j = v.position
      · rw [if_pos hposition, if_pos hposition, hown hposition, max_eq_left (not_lt.mp hraise)]
      · rw [if_neg hposition, if_neg hposition]
    rw [if_neg hraise, hmax]
    exact ⟨_, hset _, .inl rfl, fun _ => hsame _⟩

theorem defaultLogLevel_visit (hcontext : s.users.contexts[v.position]? = some context)
    (hlow : 0 < v.level) (hhigh : v.level ≤ mctLogVerbose) :
    (s.visit flags write v).users.defaultLogLevel = s.users.defaultLogLevel := by
  rw [visit_eq flags write hcontext hlow hhigh]
  split
  · rw [users_userSendLogLevel, defaultLogLevel_userSendLogLevel]
    rfl
  · rfl

end LevelUpdate

end Send

section Run

variable {flags : LevelFlags} {ecu : List Char} {d : MctDaemonUsers} {device : StorageDevice}
  {s : LevelUpdate} {done : List Visit} {v : Visit} {k : Nat} {context : MctDaemonContext}

/-- The context with this handle, after these levels were demanded of it. -/
def raisedTo (context : MctDaemonContext) (handle : Int) (levels : List Int) : MctDaemonContext :=
  { context with
    userHandle := handle
    storageLogLevel := runningMax context.storageLogLevel levels }

/-- What the visits so far have done to the tables: each storage log level is raised to the levels
demanded, and a handle may be lost. -/
structure Raised (d : MctDaemonUsers) (done : List Visit) (s : LevelUpdate) : Prop where
  defaultLogLevel : s.users.defaultLogLevel = d.defaultLogLevel
  contexts : ∀ (k : Nat) (context : MctDaemonContext), d.contexts[k]? = some context →
    ∃ handle, (handle = context.userHandle ∨ handle ≤ 0) ∧
      s.users.contexts[k]? = some (raisedTo context handle (levelsAt k done))

theorem levelsAt_concat (k : Nat) (done : List Visit) (v : Visit) :
    levelsAt k (done ++ [v]) = levelsAt k done ++ if k = v.position then [v.level] else [] := by
  rw [levelsAt, levelsAt, List.filter_append, List.map_append]
  by_cases hk : k = v.position
  · simp [hk]
  · simp [hk, Ne.symm hk]

theorem raised_nil (d : MctDaemonUsers) : Raised d [] ⟨d, []⟩ where
  defaultLogLevel := rfl
  contexts _ context hcontext := ⟨context.userHandle, .inl rfl, hcontext⟩

theorem Raised.visit (h : Raised d done s) (write : Nat → Nat → SendResult)
    (hposition : d.contexts[v.position]? = some context) (hlow : 0 < v.level)
    (hhigh : v.level ≤ mctLogVerbose) : Raised d (done ++ [v]) (s.visit flags write v) := by
  obtain ⟨_, _, hvisited⟩ := h.contexts v.position context hposition
  refine ⟨?_, ?_⟩
  · rw [LevelUpdate.defaultLogLevel_visit flags write hvisited hlow hhigh, h.defaultLogLevel]
  · intro k own hown
    obtain ⟨handle, hhandle, hnow⟩ := h.contexts k own hown
    obtain ⟨next, hnext, hloses, _⟩ :=
      LevelUpdate.context_visit flags write hvisited hnow hlow hhigh
    have hraised : (if k = v.position then
          { raisedTo own handle (levelsAt k done) with
            storageLogLevel :=
              max (raisedTo own handle (levelsAt k done)).storageLogLevel v.level }
        else raisedTo own handle (levelsAt k done)) =
        raisedTo own handle (levelsAt k (done ++ [v])) := by
      rw [levelsAt_concat, raisedTo]
      split
      · rw [raisedTo, runningMax_concat]
      · rw [raisedTo, List.append_nil]
    rw [hraised] at hloses
    rcases hloses with rfl | rfl
    · exact ⟨handle, hhandle, hnext⟩
    · exact ⟨mctFdInit, .inr (by decide), hnext⟩

/-- The level of a message that is sent when a level is demanded. -/
def raisedLevel (flags : LevelFlags) (d : MctDaemonUsers) (context : MctDaemonContext)
    (level : Int) : Int :=
  if flags.maintainLogstorageLoglevel then max context.logLevel level
  else if context.logLevel = mctLogDefault then d.defaultLogLevel
  else context.logLevel

/-- A visit sends a message if it raises the level and the send succeeds. -/
theorem Raised.sent_visit (h : Raised d done s) (flags : LevelFlags)
    (write : Nat → Nat → SendResult)
    (hposition : d.contexts[v.position]? = some context) (hlow : 0 < v.level)
    (hhigh : v.level ≤ mctLogVerbose) :
    ∃ handle, (handle = context.userHandle ∨ handle ≤ 0) ∧
      s.users.contexts[v.position]? =
        some (raisedTo context handle (levelsAt v.position done)) ∧
      ∃ message : MctUserControlMsgLogLevel,
        message.logLevel = uint8 (raisedLevel flags d context v.level) ∧
        (s.visit flags write v).sent =
          if runningMax context.storageLogLevel (levelsAt v.position done) < v.level ∧
              0 < handle ∧ (write v.turn v.position).ok = true then
            s.sent ++ [(v.position, message)]
          else s.sent := by
  obtain ⟨handle, hhandle, hnow⟩ := h.contexts v.position context hposition
  refine ⟨handle, hhandle, hnow, _, ?_, LevelUpdate.sent_visit flags write hnow hlow hhigh⟩
  have hraised : v.level ≠ mctLogDefault := by
    simp only [mctLogDefault]
    omega
  rw [MctDaemonUsers.levelMessage, raisedLevel, h.defaultLogLevel]
  exact congrArg uint8 (if_congr (and_iff_right hraised) rfl rfl)

section Demands

theorem keyPositions_getElem? {key : List Char} (h : k ∈ keyPositions ecu d key) :
    ∃ context, d.contexts[k]? = some context := by
  unfold keyPositions at h
  split at h
  · cases h
  · split at h
    · split at h
      · have hk := List.mem_range.mp (List.mem_filter.mp h).1
        exact ⟨d.contexts[k], List.getElem?_eq_getElem hk⟩
      · obtain ⟨context, hcontext, _⟩ :=
          MctDaemonUsers.contextFind_sound (Option.mem_toList.mp h)
        exact ⟨context, hcontext⟩
    · cases h

/-- A visit is for a key of the device, at its turn. -/
theorem mem_visits (h : v ∈ visits ecu device d (deviceKeys device).zipIdx) :
    ∃ key, (deviceKeys device)[v.turn]? = some key ∧ v.position ∈ keyPositions ecu d key ∧
      v.level = getLoglevelByKey device key := by
  obtain ⟨⟨key, turn⟩, hkey, hv⟩ := List.mem_flatMap.mp h
  obtain ⟨k, hk, rfl⟩ := List.mem_map.mp hv
  exact ⟨key, List.mem_zipIdx_iff_getElem?.mp hkey, hk, rfl⟩

/-- The visits for one key. -/
theorem levelsAt_key {positions : List Nat} (h : positions.Nodup) (k turn : Nat) (level : Int) :
    levelsAt k (positions.map fun j => Visit.mk turn j level) =
      if k ∈ positions then [level] else [] := by
  have hfilter : (positions.map fun j => Visit.mk turn j level).filter
      (fun v => v.position = k) = (positions.filter (· = k)).map fun j => ⟨turn, j, level⟩ := by
    rw [List.filter_map]
    rfl
  rw [levelsAt, hfilter, List.filter_eq, h.count]
  split <;> rfl

/-- The levels of the visits to a context are those demanded of it. -/
theorem levelsAt_visits (ecu : List Char) (d : MctDaemonUsers) (device : StorageDevice) (k : Nat) :
    levelsAt k (visits ecu device d (deviceKeys device).zipIdx) = demands ecu d device k := by
  have hkeys (keys : List (List Char)) (first : Nat) :
      levelsAt k (visits ecu device d (keys.zipIdx first)) =
        (keys.filter fun key => k ∈ keyPositions ecu d key).map (getLoglevelByKey device) := by
    induction keys generalizing first with
    | nil => rfl
    | cons key keys ih =>
        have hrest := ih (first + 1)
        rw [levelsAt, visits] at hrest
        rw [List.zipIdx_cons, levelsAt, visits, List.flatMap_cons, List.filter_append,
          List.map_append, hrest]
        have hkey := levelsAt_key (nodup_keyPositions ecu d key) k first
          (getLoglevelByKey device key)
        rw [levelsAt] at hkey
        rw [hkey]
        by_cases hk : k ∈ keyPositions ecu d key
        · simp [hk]
        · simp [hk]
  exact hkeys (deviceKeys device) 0

end Demands

end Run

section Result

variable {flags : LevelFlags} {ecu : List Char} {d : MctDaemonUsers} {configs : List StorageConfig}

/-- Each visit of an update finds its context, and its level is one of a filter. -/
theorem visits_sound (hconfigs : AcceptedLevels configs) {v : Visit}
    (hv : v ∈ visits ecu (setupDevice configs) d (deviceKeys (setupDevice configs)).zipIdx) :
    (∃ context, d.contexts[v.position]? = some context) ∧ 0 < v.level ∧
      v.level ≤ mctLogVerbose := by
  obtain ⟨key, hkey, hposition, hlevel⟩ := mem_visits hv
  obtain ⟨hlow, hhigh⟩ := getLoglevelByKey_range hconfigs (List.mem_of_getElem? hkey)
  rw [← hlevel] at hlow hhigh
  exact ⟨keyPositions_getElem? hposition, by omega, hhigh⟩

theorem updateApplicationLoglevel_eq (hconfigs : AcceptedLevels configs)
    (write : Nat → Nat → SendResult) (s : LevelUpdate) :
    s.updateApplicationLoglevel flags ecu (setupDevice configs) write =
      (visits ecu (setupDevice configs) s.users (deviceKeys (setupDevice configs)).zipIdx).foldl
        (LevelUpdate.visit flags write) s := by
  apply LevelUpdate.updateKeys_eq
  rintro ⟨key, turn⟩ hx
  have hkey := List.mem_of_getElem? (List.mem_zipIdx_iff_getElem?.mp hx)
  have hlow := (getLoglevelByKey_range hconfigs hkey).1
  exact Int.lt_of_lt_of_le Int.zero_lt_one hlow

/-- The condition on a context: at DEFAULT, with levels maintained and a handle, the first level
that raises its storage log level is not below the default of the daemon. -/
def RaisesToDefault (flags : LevelFlags) (ecu : List Char) (d : MctDaemonUsers)
    (device : StorageDevice) (k : Nat) (context : MctDaemonContext) : Prop :=
  context.logLevel = mctLogDefault → flags.maintainLogstorageLoglevel → 0 < context.userHandle →
    ∀ level ∈ firstRaise ecu d device k context, d.defaultLogLevel ≤ level

/-- A message that raises a context to a level is not below the level in effect. -/
theorem levelInEffect_le (hrange : LevelsInRange d) {k : Nat} {context : MctDaemonContext}
    (hcontext : d.contexts[k]? = some context) {level : Int}
    (hlow : context.storageLogLevel < level) (hhigh : level ≤ mctLogVerbose)
    (hdefault : context.logLevel = mctLogDefault → flags.maintainLogstorageLoglevel →
      d.defaultLogLevel ≤ level) :
    levelInEffect flags d context ≤ (uint8 (raisedLevel flags d context level)).toNat := by
  obtain ⟨hzero, htop⟩ := hrange.defaultLogLevel
  obtain ⟨hown, hown', hstorage, _⟩ := hrange.contexts context (List.mem_of_getElem? hcontext)
  have hverbose : mctLogVerbose = 6 := rfl
  have hminus : mctLogDefault = -1 := rfl
  rw [toNat_uint8, levelInEffect, raisedLevel]
  by_cases hmaintain : flags.maintainLogstorageLoglevel = true
  · rw [if_pos hmaintain, if_pos hmaintain]
    by_cases hlevel : context.logLevel = mctLogDefault
    · have hfirst := hdefault hlevel hmaintain
      rw [if_pos hlevel, hlevel]
      omega
    · rw [if_neg hlevel]
      omega
  · rw [if_neg hmaintain, if_neg hmaintain]
    by_cases hlevel : context.logLevel = mctLogDefault
    · rw [if_pos hlevel]
      omega
    · rw [if_neg hlevel]
      omega

theorem levelsAt_split {all done later : List Visit} {v : Visit}
    (hall : all = done ++ v :: later) :
    levelsAt v.position all =
      levelsAt v.position done ++ v.level :: levelsAt v.position later := by
  rw [hall, levelsAt, List.filter_append, List.filter_cons_of_pos (by simp), List.map_append]
  rfl

/-- No message sent so far is below the level that was in effect. -/
def NoneLower (flags : LevelFlags) (d : MctDaemonUsers) (s : LevelUpdate) : Prop :=
  ∀ x ∈ s.sent, ∀ context, d.contexts[x.1]? = some context →
    levelInEffect flags d context ≤ x.2.logLevel.toNat

/-- One visit, with the visits before and after it. -/
theorem NoneLower.visit (hrange : LevelsInRange d) {s : LevelUpdate} {done later : List Visit}
    {v : Visit} {context : MctDaemonContext} (hdone : Raised d done s)
    (hnone : NoneLower flags d s) (write : Nat → Nat → SendResult)
    (hcontext : d.contexts[v.position]? = some context) (hlow : 0 < v.level)
    (hhigh : v.level ≤ mctLogVerbose) {device : StorageDevice}
    (hall : visits ecu device d (deviceKeys device).zipIdx = done ++ v :: later)
    (hraises : RaisesToDefault flags ecu d device v.position context) :
    NoneLower flags d (s.visit flags write v) := by
  obtain ⟨handle, hhandle, _, message, hmessage, hnext⟩ :=
    hdone.sent_visit flags write hcontext hlow hhigh
  rw [NoneLower, hnext]
  split
  · rename_i hsends
    obtain ⟨hraise, hvalid, _⟩ := hsends
    intro x hx own hown
    rcases List.mem_append.mp hx with hold | hnew
    · exact hnone x hold own hown
    · rw [List.mem_singleton.mp hnew] at hown ⊢
      rw [hcontext] at hown
      obtain rfl := Option.some.inj hown
      rw [hmessage]
      apply levelInEffect_le hrange hcontext _ hhigh
      · intro hlevel hmaintain
        obtain ⟨first, hfirst, hle⟩ := first_raise_le (levelsAt v.position later) hraise
        have hvalid' : 0 < context.userHandle := by omega
        rw [← levelsAt_split hall, levelsAt_visits] at hfirst
        exact (hraises hlevel hmaintain hvalid' first hfirst).trans hle
      · exact (le_runningMax_start _ _).trans_lt hraise
  · exact hnone

/-- With the condition for all contexts no message of an update is below the level in effect. -/
theorem noneLower_update (hrange : LevelsInRange d) (hconfigs : AcceptedLevels configs)
    (hraises : ∀ (k : Nat) (context : MctDaemonContext), d.contexts[k]? = some context →
      RaisesToDefault flags ecu d (setupDevice configs) k context)
    (write : Nat → Nat → SendResult) :
    NoneLower flags d
      (LevelUpdate.updateApplicationLoglevel flags ecu (setupDevice configs) write ⟨d, []⟩) := by
  rw [updateApplicationLoglevel_eq hconfigs]
  have hstart : Raised d [] ⟨d, []⟩ ∧ NoneLower flags d ⟨d, []⟩ := by
    refine ⟨raised_nil d, ?_⟩
    intro x hx
    cases hx
  refine (foldl_prefix_induction (motive := fun done s => Raised d done s ∧ NoneLower flags d s)
    ?_ _ hstart).2
  rintro done v later s hall ⟨hdone, hnone⟩
  have hv : v ∈ visits ecu (setupDevice configs) d (deviceKeys (setupDevice configs)).zipIdx := by
    rw [hall]
    exact List.mem_append_right _ List.mem_cons_self
  obtain ⟨⟨context, hcontext⟩, hlow, hhigh⟩ := visits_sound hconfigs hv
  exact ⟨hdone.visit write hcontext hlow hhigh,
    hnone.visit hrange hdone write hcontext hlow hhigh hall (hraises v.position context hcontext)⟩

/-- Only the send to this context on behalf of this key succeeds; no connection breaks. -/
def onlyAt (turn k : Nat) : Nat → Nat → SendResult := fun t j => ⟨t = turn ∧ j = k, false⟩

/-- Nothing is sent before a visit, and that visit's message alone from it on. -/
structure SentBy (flags : LevelFlags) (d : MctDaemonUsers) (context : MctDaemonContext)
    (v : Visit) (done : List Visit) (s : LevelUpdate) : Prop where
  raised : Raised d done s
  handle : ∃ now, s.users.contexts[v.position]? = some now ∧ now.userHandle = context.userHandle
  before : v ∉ done → s.sent = []
  after : v ∈ done → ∃ message : MctUserControlMsgLogLevel, s.sent = [(v.position, message)] ∧
    message.logLevel = uint8 (raisedLevel flags d context v.level)

/-- A visit `w` of a run in which only the sends of `v`, the first visit that raises its context,
get through. -/
theorem SentBy.visit {context : MctDaemonContext} {v w : Visit} {done : List Visit}
    {s : LevelUpdate} (h : SentBy flags d context v done s)
    (hcontext : d.contexts[v.position]? = some context) (hvalid : 0 < context.userHandle)
    (hraise : context.storageLogLevel < v.level)
    (hfirst : v ∉ done → ∀ level ∈ levelsAt v.position done, level ≤ context.storageLogLevel)
    (hturn : w.turn = v.turn → w.level = v.level)
    {own : MctDaemonContext} (hown : d.contexts[w.position]? = some own) (hlow : 0 < w.level)
    (hhigh : w.level ≤ mctLogVerbose) :
    SentBy flags d context v (done ++ [w])
      (s.visit flags (onlyAt v.turn v.position) w) := by
  obtain ⟨now, hnow, hhandle⟩ := h.handle
  obtain ⟨handle, _, hvisited, message, hmessage, hnext⟩ :=
    h.raised.sent_visit flags (onlyAt v.turn v.position) hown hlow hhigh
  have hraised : Raised d (done ++ [w]) (s.visit flags (onlyAt v.turn v.position) w) :=
    h.raised.visit _ hown hlow hhigh
  have hkept : ∃ next, (s.visit flags (onlyAt v.turn v.position) w).users.contexts[v.position]? =
      some next ∧ next.userHandle = context.userHandle := by
    obtain ⟨next, hnext, _, hopen⟩ :=
      LevelUpdate.context_visit flags (onlyAt v.turn v.position) hvisited hnow hlow hhigh
    exact ⟨next, hnext, (hopen rfl).trans hhandle⟩
  by_cases hsame : w.turn = v.turn ∧ w.position = v.position
  · have hw : w = v := by
      cases w
      cases v
      simp_all
    subst hw
    rw [hcontext] at hown
    obtain rfl := Option.some.inj hown
    by_cases hdone : w ∈ done
    · have hreached :
          ¬ runningMax context.storageLogLevel (levelsAt w.position done) < w.level := by
        rw [not_lt]
        apply le_runningMax
        exact List.mem_map_of_mem (List.mem_filter.mpr ⟨hdone, by simp⟩)
      rw [if_neg fun hsends => hreached hsends.1] at hnext
      refine ⟨hraised, hkept, ?_, ?_⟩
      · intro hnot
        exact absurd (List.mem_append_left _ hdone) hnot
      · intro _
        rw [hnext]
        exact h.after hdone
    · have hstart : runningMax context.storageLogLevel (levelsAt w.position done) < w.level := by
        rw [runningMax_eq_start (hfirst hdone)]
        exact hraise
      have hopen : 0 < handle := by
        rw [hnow] at hvisited
        have huser : now.userHandle = handle := congrArg (·.userHandle) (Option.some.inj hvisited)
        omega
      rw [if_pos ⟨hstart, hopen, by simp [onlyAt]⟩, h.before hdone] at hnext
      refine ⟨hraised, hkept, ?_, ?_⟩
      · intro hnot
        exact absurd (List.mem_append_right _ (List.mem_singleton_self w)) hnot
      · intro _
        exact ⟨message, hnext, hmessage⟩
  · have hfails : (onlyAt v.turn v.position w.turn w.position).ok = false := by
      simp only [onlyAt, decide_eq_false_iff_not]
      exact hsame
    have hne : v ≠ w := by
      rintro rfl
      exact hsame ⟨rfl, rfl⟩
    rw [if_neg fun hsends => by simp [hfails] at hsends] at hnext
    refine ⟨hraised, hkept, ?_, ?_⟩
    · intro hnot
      rw [hnext]
      exact h.before fun hdone => hnot (List.mem_append_left _ hdone)
    · intro hdone
      rw [hnext]
      rcases List.mem_append.mp hdone with hearlier | hlast
      · exact h.after hearlier
      · exact absurd (List.mem_singleton.mp hlast) hne

/-- The first visit that raises a context with a handle can be the only one whose message gets
through. -/
theorem lastSent_first_raise (flags : LevelFlags) (hconfigs : AcceptedLevels configs) {k : Nat}
    {context : MctDaemonContext} (hcontext : d.contexts[k]? = some context)
    (hvalid : 0 < context.userHandle) {level : Int}
    (hfirst : firstRaise ecu d (setupDevice configs) k context = some level) :
    ∃ write, ∃ message ∈ lastSent (LevelUpdate.updateApplicationLoglevel flags ecu
        (setupDevice configs) write ⟨d, []⟩).sent k,
      message.logLevel = uint8 (raisedLevel flags d context level) := by
  rw [firstRaise, ← levelsAt_visits, levelsAt, List.find?_map] at hfirst
  obtain ⟨v, hfound, rfl⟩ := Option.map_eq_some_iff.mp hfirst
  obtain ⟨hv, hposition⟩ := List.mem_filter.mp (List.mem_of_find?_eq_some hfound)
  obtain rfl : v.position = k := of_decide_eq_true hposition
  have hraise : context.storageLogLevel < v.level := by simpa using List.find?_some hfound
  -- of the visits before it none raises the context
  have hearlier (done later : List Visit)
      (hall : visits ecu (setupDevice configs) d (deviceKeys (setupDevice configs)).zipIdx =
        done ++ later) (hnot : v ∉ done) :
      ∀ level ∈ levelsAt v.position done, level ≤ context.storageLogLevel := by
    rw [hall, List.filter_append, List.find?_append] at hfound
    cases hdone : (done.filter fun w => w.position = v.position).find?
        ((fun level => decide (context.storageLogLevel < level)) ∘ Visit.level) with
    | some w =>
        rw [hdone, Option.some_or] at hfound
        obtain rfl := Option.some.inj hfound
        exact absurd (List.mem_filter.mp (List.mem_of_find?_eq_some hdone)).1 hnot
    | none =>
        intro level hlevel
        obtain ⟨w, hw, rfl⟩ := List.mem_map.mp hlevel
        simpa using List.find?_eq_none.mp hdone w hw
  have hstart : SentBy flags d context v [] ⟨d, []⟩ :=
    ⟨raised_nil d, ⟨context, hcontext, rfl⟩, fun _ => rfl, fun hmem => nomatch hmem⟩
  have hrun : SentBy flags d context v
      (visits ecu (setupDevice configs) d (deviceKeys (setupDevice configs)).zipIdx)
      ((visits ecu (setupDevice configs) d (deviceKeys (setupDevice configs)).zipIdx).foldl
        (LevelUpdate.visit flags (onlyAt v.turn v.position)) ⟨d, []⟩) := by
    refine foldl_prefix_induction (motive := SentBy flags d context v) ?_ _ hstart
    intro done w later s hall h
    have hw : w ∈ visits ecu (setupDevice configs) d (deviceKeys (setupDevice configs)).zipIdx := by
      rw [hall]
      exact List.mem_append_right _ List.mem_cons_self
    obtain ⟨⟨own, hown⟩, hlow, hhigh⟩ := visits_sound hconfigs hw
    have hturn (hsame : w.turn = v.turn) : w.level = v.level := by
      obtain ⟨key, hkey, _, hlevel⟩ := mem_visits hw
      obtain ⟨key', hkey', _, hlevel'⟩ := mem_visits hv
      rw [hsame, hkey'] at hkey
      rw [hlevel, hlevel', Option.some.inj hkey]
    exact h.visit hcontext hvalid hraise (hearlier done (w :: later) hall) hturn hown hlow hhigh
  obtain ⟨message, hsent, hlevel⟩ := hrun.after hv
  refine ⟨onlyAt v.turn v.position, message, ?_, hlevel⟩
  rw [updateApplicationLoglevel_eq hconfigs, hsent]
  simp [lastSent]

theorem acceptedLevels_filters (filters : List AcceptedFilter) :
    AcceptedLevels (filters.map fun filter => filter.properties.storageConfig) := by
  intro config hconfig
  obtain ⟨filter, _, rfl⟩ := List.mem_map.mp hconfig
  obtain ⟨find, secName, hread⟩ := filter.accepted
  obtain ⟨hlow, hhigh⟩ := hasLevel_readSection hread
  simp only [FilterProperties.storageConfig]
  constructor
  · omega
  · rw [Int.toNat_of_nonneg (by omega)]
    exact hhigh

def fatalSection : List (List Char × List Char) :=
  [("LogAppName".toList, "APP1".toList), ("ContextName".toList, ".*".toList),
    ("LogLevel".toList, "MCT_LOG_FATAL".toList), ("File".toList, "log".toList),
    ("FileSize".toList, "500".toList), ("NOFiles".toList, "2".toList)]

def fatalFilter : AcceptedFilter where
  properties :=
    { FilterProperties.initial with
      apids := some "APP1".toList
      ctids := some ".*".toList
      logLevel := 1
      fileName := some "log".toList
      fileSize := 500
      numFiles := 2 }
  accepted := ⟨fun key => List.lookup key fatalSection, "FILTER1".toList, by decide +kernel⟩

/-- A daemon with the default VERBOSE and one context at this level. -/
def oneContext (logLevel : Int) : MctDaemonUsers where
  ownEcu := true
  applications := [{ MctDaemonApplication.fresh (setId "APP1".toList) with
    userHandle := 5, numContexts := 1 }]
  contexts := [{ MctDaemonContext.fresh (setId "APP1".toList) (setId "CTX1".toList) with
    logLevel := logLevel, userHandle := 5, storageLogLevel := mctLogDefault }]
  defaultLogLevel := mctLogVerbose
  defaultTraceStatus := 0
  forceLlTs := false
  runtimeContextCfgLoaded := false
  blockMode := mctModeNonBlocking

/-- Log storage levels are maintained, as they are by default. -/
def maintained : LevelFlags where
  contextLogLevel := mctLogVerbose
  contextTraceStatus := 0
  enforceContextLLAndTS := false
  maintainLogstorageLoglevel := true
  runtimeCfgNamed := false

end Result

end MctDaemon.Daemon
