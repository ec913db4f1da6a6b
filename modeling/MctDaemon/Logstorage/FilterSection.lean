import MctDaemon.Logstorage.ConfigValues
import MctDaemon.Logstorage.FileName
import MctDaemon.Logstorage.StorageWrite
import MctDaemon.Shared.ConfigFile

/-!
One filter section of the log storage configuration (`mct_daemon_offline_setup_filter_properties`):
fourteen entries are looked up, checked and kept, then the filter is stored. Whatever a check
returns other than zero drops the section.
-/

namespace MctDaemon.Logstorage

open Lib Shared

section Properties

/-- `MctLogStorageFilterConfig` as far as a section of the configuration file fills it. -/
structure FilterProperties where
  apids : Option (List Char)
  ctids : Option (List Char)
  logLevel : Int
  resetLogLevel : Int
  fileName : Option (List Char)
  fileSize : Nat
  numFiles : Nat
  sync : Nat
  overwrite : Int
  excludedApids : Option (List Char)
  excludedCtids : Option (List Char)
  ecuid : Option (List Char)
  specificSize : Nat
  disableNetworkRouting : Int
  deriving DecidableEq, Repr

def mctLogOff : Int := 0
def mctLogstorageSyncUnset : Nat := 0
def mctLogstorageSyncOnMsg : Nat := 1
def mctLogstorageOverwriteDiscardOld : Int := 1
def mctLogstorageOverwriteDiscardNew : Int := 2
def mctLogstorageDisableNwOff : Int := 1
def mctLogstorageDisableNwOn : Int := 2

/-- The cache based strategies, each with its bit. -/
def syncStrategies : List (List Char × Nat) :=
  [("ON_DAEMON_EXIT".toList, 2), ("ON_DEMAND".toList, 4), ("ON_DEVICE_DISCONNECT".toList, 8),
    ("ON_SPECIFIC_SIZE".toList, 16), ("ON_FILE_SIZE".toList, 32)]

/-- `tmp_data` before the loop. -/
def FilterProperties.initial : FilterProperties where
  apids := none
  ctids := none
  logLevel := mctLogVerbose
  resetLogLevel := mctLogOff
  fileName := none
  fileSize := 0
  numFiles := 0
  sync := mctLogstorageSyncUnset
  overwrite := 0
  excludedApids := none
  excludedCtids := none
  ecuid := none
  specificSize := 0
  disableNetworkRouting := mctLogstorageDisableNwOff

/-- The part of it that the filter table and the messages are compared with. -/
def FilterProperties.storageConfig (p : FilterProperties) : StorageConfig where
  ids := ⟨p.apids, p.ctids, p.ecuid⟩
  logLevel := p.logLevel.toNat
  excludedApids := p.excludedApids
  excludedCtids := p.excludedCtids
  fileName := p.fileName
  disableNetwork := p.disableNetworkRouting = mctLogstorageDisableNwOn
  cached := ¬ (p.sync = mctLogstorageSyncUnset ∨ p.sync = mctLogstorageSyncOnMsg)

end Properties

section Checks

/-- `strcasestr(s, needle) != NULL`. -/
def strcasestr (s needle : List Char) : Bool :=
  s.tails.any fun tail => strncasecmpEq tail needle needle.length

def mctLogstorageCountIds (str : Option (List Char)) : Int :=
  match str with
  | none => -1
  | some str => 1 + str.count ','

/-- The names one behind the other: a comma follows each but the last of the counted ones. -/
def joinNames (num : Nat) : Nat → List (List Char) → List Char
  | _, [] => []
  | i, tok :: toks =>
      tok.take 4 ++ (if 1 < num ∧ i < num then [','] else []) ++ joinNames num (i + 1) toks

/-- `mct_logstorage_read_list_of_names`: the returned value and the list. -/
def mctLogstorageReadListOfNames (value : List Char) : Int × Option (List Char) :=
  if value = [] then (-1, none)
  else (0, some (joinNames (1 + value.count ',') 1 (strtok ',' value)))

def mctLogstorageSetLoglevel (value : Int) : Int × Int :=
  if value ≤ -1 ∨ 7 ≤ value then (-1, -1) else (0, value)

def logLevelNames : List (List Char × Int) :=
  [("MCT_LOG_FATAL".toList, 1), ("MCT_LOG_ERROR".toList, 2), ("MCT_LOG_WARN".toList, 3),
    ("MCT_LOG_INFO".toList, 4), ("MCT_LOG_DEBUG".toList, 5), ("MCT_LOG_VERBOSE".toList, 6)]

variable (config : FilterProperties) (value : List Char)

def mctLogstorageCheckApids : Int × FilterProperties :=
  ((mctLogstorageReadListOfNames value).1,
    { config with apids := (mctLogstorageReadListOfNames value).2 })

def mctLogstorageCheckCtids : Int × FilterProperties :=
  ((mctLogstorageReadListOfNames value).1,
    { config with ctids := (mctLogstorageReadListOfNames value).2 })

def mctLogstorageStoreConfigExcludedApids : Int × FilterProperties :=
  ((mctLogstorageReadListOfNames value).1,
    { config with excludedApids := (mctLogstorageReadListOfNames value).2 })

def mctLogstorageStoreConfigExcludedCtids : Int × FilterProperties :=
  ((mctLogstorageReadListOfNames value).1,
    { config with excludedCtids := (mctLogstorageReadListOfNames value).2 })

def mctLogstorageCheckLoglevel : Int × FilterProperties :=
  let level := mctLogstorageSetLoglevel ((logLevelNames.lookup value).getD (-1))
  (level.1, { config with logLevel := level.2 })

def mctLogstorageCheckResetLoglevel : Int × FilterProperties :=
  match (("MCT_LOG_OFF".toList, mctLogOff) :: logLevelNames).lookup value with
  | some level => (0, { config with resetLogLevel := level })
  | none => (-1, { config with resetLogLevel := -1 })

/-- `mct_logstorage_check_filename`: an earlier name is dropped, unless the new one is empty. -/
def mctLogstorageCheckFilename : Int × FilterProperties :=
  if value = [] then (-1, config)
  else
    match checkFilename value with
    | none => (-1, { config with fileName := none })
    | some name => (0, { config with fileName := some name })

def mctLogstorageCheckFilesize : Int × FilterProperties :=
  ((mctLogstorageReadNumber value).1, { config with fileSize := (mctLogstorageReadNumber value).2 })

def mctLogstorageCheckNofiles : Int × FilterProperties :=
  ((mctLogstorageReadNumber value).1, { config with numFiles := (mctLogstorageReadNumber value).2 })

def mctLogstorageCheckSpecificsize : Int × FilterProperties :=
  ((mctLogstorageReadNumber value).1,
    { config with specificSize := (mctLogstorageReadNumber value).2 })

/-- The cache based strategies of a text, besides those that are set. -/
def cacheStrategies (sync : Nat) (value : List Char) : Nat :=
  syncStrategies.foldl (fun sync strategy =>
    if strcasestr value strategy.1 then sync ||| strategy.2 else sync) sync

def mctLogstorageCheckSyncStrategy : Int × FilterProperties :=
  if strcasestr value "ON_MSG".toList then (0, { config with sync := mctLogstorageSyncOnMsg })
  else if cacheStrategies config.sync value = 0 then
    (1, { config with sync := mctLogstorageSyncOnMsg })
  else (0, { config with sync := cacheStrategies config.sync value })

def mctLogstorageCheckOverwriteStrategy : Int × FilterProperties :=
  if strcasestr value "DISCARD_OLD".toList then
    (0, { config with overwrite := mctLogstorageOverwriteDiscardOld })
  else if strcasestr value "DISCARD_NEW".toList then
    (0, { config with overwrite := mctLogstorageOverwriteDiscardNew })
  else (1, { config with overwrite := mctLogstorageOverwriteDiscardOld })

def mctLogstorageCheckDisableNetwork : Int × FilterProperties :=
  if strcasestr value "ON".toList then
    (0, { config with disableNetworkRouting := mctLogstorageDisableNwOn })
  else if strcasestr value "OFF".toList then
    (0, { config with disableNetworkRouting := mctLogstorageDisableNwOff })
  else (1, { config with disableNetworkRouting := mctLogstorageDisableNwOff })

def mctLogstorageCheckEcuid : Int × FilterProperties :=
  if value = [] then (-1, config) else (0, { config with ecuid := some value })

end Checks

section Sections

inductive FilterConfType where
  | logappname
  | contextname
  | excludedLogappname
  | excludedContextname
  | loglevel
  | resetLoglevel
  | file
  | filesize
  | nofiles
  | syncbehavior
  | overwritebehavior
  | ecuid
  | specificSize
  | disableNetwork
  deriving DecidableEq, Repr

open FilterConfType

/-- The entries, in the order of the loop. -/
def filterConfTypes : List FilterConfType :=
  [logappname, contextname, excludedLogappname, excludedContextname, loglevel, resetLoglevel, file,
    filesize, nofiles, syncbehavior, overwritebehavior, ecuid, specificSize, disableNetwork]

/-- `mct_logstorage_check_param`: the functions are those of `filter_cfg_entries` in every kind of
section. -/
def mctLogstorageCheckParam (config : FilterProperties) (ctype : FilterConfType)
    (value : List Char) : Int × FilterProperties :=
  match ctype with
  | logappname => mctLogstorageCheckApids config value
  | contextname => mctLogstorageCheckCtids config value
  | excludedLogappname => mctLogstorageStoreConfigExcludedApids config value
  | excludedContextname => mctLogstorageStoreConfigExcludedCtids config value
  | loglevel => mctLogstorageCheckLoglevel config value
  | resetLoglevel => mctLogstorageCheckResetLoglevel config value
  | file => mctLogstorageCheckFilename config value
  | filesize => mctLogstorageCheckFilesize config value
  | nofiles => mctLogstorageCheckNofiles config value
  | syncbehavior => mctLogstorageCheckSyncStrategy config value
  | overwritebehavior => mctLogstorageCheckOverwriteStrategy config value
  | ecuid => mctLogstorageCheckEcuid config value
  | specificSize => mctLogstorageCheckSpecificsize config value
  | disableNetwork => mctLogstorageCheckDisableNetwork config value

/-- `MctLogstorageFilterConf`; the function is that of the entry's type. -/
structure MctLogstorageFilterConf where
  key : Option (List Char)
  isOpt : Bool
  deriving DecidableEq, Repr

def filterCfgEntries : FilterConfType → MctLogstorageFilterConf
  | logappname => ⟨some "LogAppName".toList, true⟩
  | contextname => ⟨some "ContextName".toList, true⟩
  | excludedLogappname => ⟨some "ExcludedLogAppName".toList, true⟩
  | excludedContextname => ⟨some "ExcludedContextName".toList, true⟩
  | loglevel => ⟨some "LogLevel".toList, false⟩
  | resetLoglevel => ⟨none, false⟩
  | file => ⟨some "File".toList, false⟩
  | filesize => ⟨some "FileSize".toList, false⟩
  | nofiles => ⟨some "NOFiles".toList, false⟩
  | syncbehavior => ⟨some "SyncBehavior".toList, true⟩
  | overwritebehavior => ⟨some "OverwriteBehavior".toList, true⟩
  | ecuid => ⟨some "EcuID".toList, true⟩
  | specificSize => ⟨some "SpecificSize".toList, true⟩
  | disableNetwork => ⟨some "DisableNetwork".toList, true⟩

def filterNonverboseStorageEntries : FilterConfType → MctLogstorageFilterConf
  | logappname => ⟨none, false⟩
  | contextname => ⟨none, false⟩
  | excludedLogappname => ⟨none, true⟩
  | excludedContextname => ⟨none, true⟩
  | loglevel => ⟨none, false⟩
  | resetLoglevel => ⟨none, false⟩
  | file => ⟨some "File".toList, false⟩
  | filesize => ⟨some "FileSize".toList, false⟩
  | nofiles => ⟨some "NOFiles".toList, false⟩
  | syncbehavior => ⟨none, true⟩
  | overwritebehavior => ⟨none, true⟩
  | ecuid => ⟨some "EcuID".toList, false⟩
  | specificSize => ⟨none, true⟩
  | disableNetwork => ⟨none, true⟩

def filterNonverboseControlEntries : FilterConfType → MctLogstorageFilterConf
  | logappname => ⟨some "LogAppName".toList, false⟩
  | contextname => ⟨some "ContextName".toList, false⟩
  | excludedLogappname => ⟨none, true⟩
  | excludedContextname => ⟨none, true⟩
  | loglevel => ⟨some "LogLevel".toList, false⟩
  | resetLoglevel => ⟨some "ResetLogLevel".toList, true⟩
  | file => ⟨none, false⟩
  | filesize => ⟨none, false⟩
  | nofiles => ⟨none, false⟩
  | syncbehavior => ⟨none, true⟩
  | overwritebehavior => ⟨none, true⟩
  | ecuid => ⟨some "EcuID".toList, false⟩
  | specificSize => ⟨none, true⟩
  | disableNetwork => ⟨none, true⟩

/-- What the look-up of an entry answers. -/
inductive SectionValue where
  | value (text : List Char)
  /-- `MCT_OFFLINE_LOGSTORAGE_FILTER_CONTINUE`. -/
  | filterContinue
  /-- `MCT_OFFLINE_LOGSTORAGE_FILTER_ERROR`. -/
  | filterError
  deriving DecidableEq, Repr

/-- `mct_logstorage_get_filter_section_value`; `find` is the look-up of a key in the section. -/
def mctLogstorageGetFilterSectionValue (find : List Char → Option (List Char))
    (entry : MctLogstorageFilterConf) : SectionValue :=
  match entry.key with
  | none => .filterContinue
  | some key =>
      match find key with
      | some text => .value text
      | none => if entry.isOpt then .filterContinue else .filterError

/-- The entries of a section of this name: the branches of `mct_logstorage_get_filter_value`. -/
def sectionEntries (secName : List Char) : Option (FilterConfType → MctLogstorageFilterConf) :=
  if strncmpEq secName "FILTER".toList 6 then some filterCfgEntries
  else if strncmpEq secName "NON-VERBOSE-STORAGE-FILTER".toList 26 then
    some filterNonverboseStorageEntries
  else if strncmpEq secName "NON-VERBOSE-LOGLEVEL-CTRL".toList 25 then
    some filterNonverboseControlEntries
  else none

/-- The loop over the entries, none where it returns `MCT_OFFLINE_LOGSTORAGE_FILTER_ERROR`. -/
def readEntries (find : List Char → Option (List Char))
    (entries : FilterConfType → MctLogstorageFilterConf) :
    List FilterConfType → FilterProperties → Option FilterProperties
  | [], config => some config
  | ctype :: rest, config =>
      match mctLogstorageGetFilterSectionValue find (entries ctype) with
      | .filterError => none
      | .filterContinue => readEntries find entries rest config
      | .value text =>
          if (mctLogstorageCheckParam config ctype text).1 ≠ 0 then none
          else readEntries find entries rest (mctLogstorageCheckParam config ctype text).2

/-- What is kept of a section before it is stored. -/
def readSection (find : List Char → Option (List Char)) (secName : List Char) :
    Option FilterProperties :=
  match sectionEntries secName with
  | none => none
  | some entries =>
      match readEntries find entries filterConfTypes FilterProperties.initial with
      | none => none
      | some config =>
          if 1 < mctLogstorageCountIds config.excludedApids ∧
              1 < mctLogstorageCountIds config.excludedCtids then none
          else some config

/-- The filters of a device with all their properties. -/
structure SectionHandle where
  device : StorageDevice
  properties : List FilterProperties

/-- The returned values: zero, and the two errors of
`mct_daemon_offline_setup_filter_properties`. -/
inductive SetupResult where
  | ok
  | filterError
  | storeFilterError
  deriving DecidableEq, Repr

def mctLogstorageSetupTable (handle : SectionHandle) (config : FilterProperties) :
    SetupResult × SectionHandle :=
  match createKeys config.storageConfig.ids with
  | none => (.storeFilterError, handle)
  | some _ =>
      (.ok, ⟨setupFilter handle.device config.storageConfig, handle.properties ++ [config]⟩)

/-- The section with these values. -/
def setupSection (handle : SectionHandle) (find : List Char → Option (List Char))
    (secName : List Char) : SetupResult × SectionHandle :=
  match readSection find secName with
  | none => (.filterError, handle)
  | some config => mctLogstorageSetupTable handle config

def mctDaemonOfflineSetupFilterProperties (handle : SectionHandle) (configFile : MctConfigFile)
    (secName : List Char) : SetupResult × SectionHandle :=
  setupSection handle (mctConfigFileGetValue configFile secName) secName

end Sections

section Fallback

/-- The options that are to fall back to a default. -/
inductive StorageOption where
  | syncBehavior
  | overwriteBehavior
  | disableNetwork
  deriving DecidableEq, Repr

namespace StorageOption

def all : List StorageOption := [syncBehavior, overwriteBehavior, disableNetwork]

def ctype : StorageOption → FilterConfType
  | syncBehavior => .syncbehavior
  | overwriteBehavior => .overwritebehavior
  | disableNetwork => .disableNetwork

def key : StorageOption → List Char
  | syncBehavior => "SyncBehavior".toList
  | overwriteBehavior => "OverwriteBehavior".toList
  | disableNetwork => "DisableNetwork".toList

/-- The names that a text for the option may hold. -/
def names : StorageOption → List (List Char)
  | syncBehavior => "ON_MSG".toList :: syncStrategies.map Prod.fst
  | overwriteBehavior => ["DISCARD_OLD".toList, "DISCARD_NEW".toList]
  | disableNetwork => ["ON".toList, "OFF".toList]

/-- The text names no known strategy. -/
def unknown (o : StorageOption) (text : List Char) : Bool :=
  o.names.all fun name => !strcasestr text name

def field : StorageOption → FilterProperties → Int
  | syncBehavior, p => p.sync
  | overwriteBehavior, p => p.overwrite
  | disableNetwork, p => p.disableNetworkRouting

def withDefault : StorageOption → FilterProperties → FilterProperties
  | syncBehavior, p => { p with sync := mctLogstorageSyncOnMsg }
  | overwriteBehavior, p => { p with overwrite := mctLogstorageOverwriteDiscardOld }
  | disableNetwork, p => { p with disableNetworkRouting := mctLogstorageDisableNwOff }

/-- The filter works by the default of the option. A strategy that is not set works as
`ON_MSG`, and everything but `DISCARD_NEW` as `DISCARD_OLD`. -/
def IsDefault : StorageOption → FilterProperties → Prop
  | syncBehavior, p => p.sync = mctLogstorageSyncUnset ∨ p.sync = mctLogstorageSyncOnMsg
  | overwriteBehavior, p => p.overwrite ≠ mctLogstorageOverwriteDiscardNew
  | disableNetwork, p => p.disableNetworkRouting = mctLogstorageDisableNwOff

end StorageOption

/-- The options of the section that are given a text that names no known strategy. -/
def unknownOptions (find : List Char → Option (List Char)) : List StorageOption :=
  StorageOption.all.filter fun o => (find o.key).any o.unknown

/-- The section without these options. -/
def without (options : List StorageOption) (find : List Char → Option (List Char))
    (key : List Char) : Option (List Char) :=
  if ∃ o ∈ options, o.key = key then none else find key

def SectionHandle.store (handle : SectionHandle) (config : FilterProperties) : SectionHandle :=
  ⟨setupFilter handle.device config.storageConfig, handle.properties ++ [config]⟩

variable (handle : SectionHandle) (configFile : MctConfigFile) (secName : List Char)

/-- The options of a section that name no known strategy. -/
abbrev unknownIn : List StorageOption := unknownOptions (mctConfigFileGetValue configFile secName)

/-- The outcome of the section without the options that name no known strategy. -/
def setupWithout : SetupResult × SectionHandle :=
  setupSection handle
    (without (unknownIn configFile secName) (mctConfigFileGetValue configFile secName)) secName

/-- The filter is stored as without the options that name no known strategy, and works by their
defaults. -/
def FallsBack : Prop :=
  ∃ p q, setupWithout handle configFile secName = (.ok, handle.store p) ∧
    mctDaemonOfflineSetupFilterProperties handle configFile secName = (.ok, handle.store q) ∧
      (unknownIn configFile secName).foldr StorageOption.withDefault q =
        (unknownIn configFile secName).foldr StorageOption.withDefault p ∧
      ∀ o ∈ unknownIn configFile secName, o.IsDefault q

end Fallback

section Loop

variable {find find' : List Char → Option (List Char)}
  {entries : FilterConfType → MctLogstorageFilterConf} {config : FilterProperties}

theorem checkSyncStrategy_only (config : FilterProperties) (text : List Char) :
    ∃ sync, (mctLogstorageCheckSyncStrategy config text).2 = { config with sync } := by
  unfold mctLogstorageCheckSyncStrategy
  split
  · exact ⟨_, rfl⟩
  · split
    · exact ⟨_, rfl⟩
    · exact ⟨_, rfl⟩

theorem checkOverwriteStrategy_only (config : FilterProperties) (text : List Char) :
    ∃ overwrite, (mctLogstorageCheckOverwriteStrategy config text).2 =
      { config with overwrite } := by
  unfold mctLogstorageCheckOverwriteStrategy
  split
  · exact ⟨_, rfl⟩
  · split
    · exact ⟨_, rfl⟩
    · exact ⟨_, rfl⟩

theorem checkDisableNetwork_only (config : FilterProperties) (text : List Char) :
    ∃ disableNetworkRouting, (mctLogstorageCheckDisableNetwork config text).2 =
      { config with disableNetworkRouting } := by
  unfold mctLogstorageCheckDisableNetwork
  split
  · exact ⟨_, rfl⟩
  · split
    · exact ⟨_, rfl⟩
    · exact ⟨_, rfl⟩

theorem checkResetLoglevel_only (config : FilterProperties) (text : List Char) :
    ∃ resetLogLevel, (mctLogstorageCheckResetLoglevel config text).2 =
      { config with resetLogLevel } := by
  unfold mctLogstorageCheckResetLoglevel
  split
  · exact ⟨_, rfl⟩
  · exact ⟨_, rfl⟩

theorem checkFilename_only (config : FilterProperties) (text : List Char) :
    ∃ fileName, (mctLogstorageCheckFilename config text).2 = { config with fileName } := by
  unfold mctLogstorageCheckFilename
  split
  · exact ⟨config.fileName, rfl⟩
  · split
    · exact ⟨_, rfl⟩
    · exact ⟨_, rfl⟩

theorem checkEcuid_only (config : FilterProperties) (text : List Char) :
    ∃ ecuid, (mctLogstorageCheckEcuid config text).2 = { config with ecuid } := by
  unfold mctLogstorageCheckEcuid
  split
  · exact ⟨config.ecuid, rfl⟩
  · exact ⟨_, rfl⟩

theorem checkFilesize_only (config : FilterProperties) (text : List Char) :
    ∃ fileSize, (mctLogstorageCheckFilesize config text).2 = { config with fileSize } :=
  ⟨_, rfl⟩

theorem checkNofiles_only (config : FilterProperties) (text : List Char) :
    ∃ numFiles, (mctLogstorageCheckNofiles config text).2 = { config with numFiles } :=
  ⟨_, rfl⟩

theorem checkSpecificsize_only (config : FilterProperties) (text : List Char) :
    ∃ specificSize, (mctLogstorageCheckSpecificsize config text).2 = { config with specificSize } :=
  ⟨_, rfl⟩

/-- A check sets the property of its own entry only. -/
theorem field_checkParam (o : StorageOption) {ctype : FilterConfType} (h : ctype ≠ o.ctype)
    (text : List Char) :
    o.field (mctLogstorageCheckParam config ctype text).2 = o.field config := by
  cases ctype with
  | syncbehavior =>
      obtain ⟨sync, hcheck⟩ := checkSyncStrategy_only config text
      rw [mctLogstorageCheckParam, hcheck]
      cases o with
      | syncBehavior => exact absurd rfl h
      | overwriteBehavior => rfl
      | disableNetwork => rfl
  | overwritebehavior =>
      obtain ⟨overwrite, hcheck⟩ := checkOverwriteStrategy_only config text
      rw [mctLogstorageCheckParam, hcheck]
      cases o with
      | syncBehavior => rfl
      | overwriteBehavior => exact absurd rfl h
      | disableNetwork => rfl
  | disableNetwork =>
      obtain ⟨routing, hcheck⟩ := checkDisableNetwork_only config text
      rw [mctLogstorageCheckParam, hcheck]
      cases o with
      | syncBehavior => rfl
      | overwriteBehavior => rfl
      | disableNetwork => exact absurd rfl h
  | resetLoglevel =>
      obtain ⟨level, hcheck⟩ := checkResetLoglevel_only config text
      rw [mctLogstorageCheckParam, hcheck]
      cases o <;> rfl
  | file =>
      obtain ⟨name, hcheck⟩ := checkFilename_only config text
      rw [mctLogstorageCheckParam, hcheck]
      cases o <;> rfl
  | ecuid =>
      obtain ⟨ecuid, hcheck⟩ := checkEcuid_only config text
      rw [mctLogstorageCheckParam, hcheck]
      cases o <;> rfl
  | filesize =>
      obtain ⟨size, hcheck⟩ := checkFilesize_only config text
      rw [mctLogstorageCheckParam, hcheck]
      cases o <;> rfl
  | nofiles =>
      obtain ⟨files, hcheck⟩ := checkNofiles_only config text
      rw [mctLogstorageCheckParam, hcheck]
      cases o <;> rfl
  | specificSize =>
      obtain ⟨size, hcheck⟩ := checkSpecificsize_only config text
      rw [mctLogstorageCheckParam, hcheck]
      cases o <;> rfl
  | _ => cases o <;> rfl

/-- The loop depends on what the look-ups of its entries answer. -/
theorem readEntries_congr {ctypes : List FilterConfType}
    (h : ∀ ctype ∈ ctypes, mctLogstorageGetFilterSectionValue find (entries ctype) =
      mctLogstorageGetFilterSectionValue find' (entries ctype)) (config : FilterProperties) :
    readEntries find entries ctypes config = readEntries find' entries ctypes config := by
  induction ctypes generalizing config with
  | nil => rfl
  | cons ctype rest ih =>
      have hrest := ih fun other hother => h other (List.mem_cons_of_mem _ hother)
      rw [readEntries, readEntries, h ctype List.mem_cons_self]
      cases mctLogstorageGetFilterSectionValue find' (entries ctype) with
      | filterError => rfl
      | filterContinue => exact hrest config
      | value text => simp only [hrest]

/-- An option that is not looked up stays as it is. -/
theorem field_readEntries (o : StorageOption) (hkey : (entries o.ctype).key = none)
    {ctypes : List FilterConfType} {result : FilterProperties}
    (h : readEntries find entries ctypes config = some result) :
    o.field result = o.field config := by
  induction ctypes generalizing config with
  | nil =>
      cases h
      rfl
  | cons ctype rest ih =>
      rw [readEntries] at h
      cases hvalue : mctLogstorageGetFilterSectionValue find (entries ctype) with
      | filterError => simp [hvalue] at h
      | filterContinue =>
          rw [hvalue] at h
          exact ih h
      | value text =>
          have hother : ctype ≠ o.ctype := by
            rintro rfl
            simp [mctLogstorageGetFilterSectionValue, hkey] at hvalue
          simp only [hvalue] at h
          split at h
          · cases h
          · rw [ih h, field_checkParam o hother]

theorem cacheStrategies_of_unknown {text : List Char}
    (h : ∀ strategy ∈ syncStrategies, strcasestr text strategy.1 = false) (sync : Nat) :
    cacheStrategies sync text = sync := by
  unfold cacheStrategies
  generalize syncStrategies = strategies at h ⊢
  induction strategies generalizing sync with
  | nil => rfl
  | cons strategy rest ih =>
      rw [List.foldl_cons, h strategy List.mem_cons_self]
      exact ih sync fun other hother => h other (List.mem_cons_of_mem _ hother)

/-- A text that names no known strategy is answered with one. -/
theorem checkParam_unknown (o : StorageOption) {text : List Char} (h : o.unknown text)
    (hunset : o.field config = o.field FilterProperties.initial) :
    (mctLogstorageCheckParam config o.ctype text).1 = 1 := by
  have hnames : ∀ name ∈ o.names, strcasestr text name = false := by
    simpa [StorageOption.unknown] using h
  cases o with
  | syncBehavior =>
      have hsync : config.sync = 0 := by
        simpa [StorageOption.field, FilterProperties.initial, mctLogstorageSyncUnset] using hunset
      have hmsg := hnames "ON_MSG".toList List.mem_cons_self
      have hcache : cacheStrategies config.sync text = 0 := by
        rw [cacheStrategies_of_unknown, hsync]
        intro strategy hstrategy
        exact hnames _ (List.mem_cons_of_mem _ (List.mem_map_of_mem (f := Prod.fst) hstrategy))
      simp only [StorageOption.ctype, mctLogstorageCheckParam, mctLogstorageCheckSyncStrategy, hmsg,
        hcache]
      rfl
  | overwriteBehavior =>
      have hold := hnames "DISCARD_OLD".toList (by decide)
      have hnew := hnames "DISCARD_NEW".toList (by decide)
      simp only [StorageOption.ctype, mctLogstorageCheckParam, mctLogstorageCheckOverwriteStrategy,
        hold, hnew]
      rfl
  | disableNetwork =>
      have hon := hnames "ON".toList (by decide)
      have hoff := hnames "OFF".toList (by decide)
      simp only [StorageOption.ctype, mctLogstorageCheckParam, mctLogstorageCheckDisableNetwork,
        hon, hoff]
      rfl

/-- An option that is looked up and names no known strategy drops the section. -/
theorem readEntries_unknown (o : StorageOption) (hkey : (entries o.ctype).key = some o.key)
    {text : List Char} (htext : find o.key = some text) (h : o.unknown text)
    {ctypes : List FilterConfType} (hmem : o.ctype ∈ ctypes)
    (hunset : o.field config = o.field FilterProperties.initial) :
    readEntries find entries ctypes config = none := by
  induction ctypes generalizing config with
  | nil => cases hmem
  | cons ctype rest ih =>
      rw [readEntries]
      by_cases hself : ctype = o.ctype
      · have hvalue : mctLogstorageGetFilterSectionValue find (entries ctype) = .value text := by
          rw [hself, mctLogstorageGetFilterSectionValue, hkey]
          simp only [htext]
        have hcheck : (mctLogstorageCheckParam config ctype text).1 ≠ 0 := by
          rw [hself, checkParam_unknown o h hunset]
          decide
        simp only [hvalue, if_pos hcheck]
      · have hrest : o.ctype ∈ rest := by
          rcases List.mem_cons.mp hmem with heq | hrest
          · exact absurd heq.symm hself
          · exact hrest
        cases mctLogstorageGetFilterSectionValue find (entries ctype) with
        | filterError => rfl
        | filterContinue => exact ih hrest hunset
        | value other =>
            simp only
            split
            · rfl
            · apply ih hrest
              rw [field_checkParam o hself, hunset]

end Loop

section Settled

variable {handle : SectionHandle} {configFile : MctConfigFile} {secName : List Char}

/-- The name is that of a section that looks the options up. -/
def IsFilterSection (secName : List Char) : Prop := strncmpEq secName "FILTER".toList 6

theorem key_filterCfgEntries (o : StorageOption) :
    (filterCfgEntries o.ctype).key = some o.key := by
  cases o <;> rfl

/-- The other kinds of section have no entry with the key of an option. -/
theorem key_other {entries : FilterConfType → MctLogstorageFilterConf}
    (hsection : ¬ IsFilterSection secName) (hentries : sectionEntries secName = some entries)
    (o : StorageOption) (ctype : FilterConfType) :
    (entries o.ctype).key = none ∧ (entries ctype).key ≠ some o.key := by
  rw [sectionEntries, if_neg (show ¬ strncmpEq secName "FILTER".toList 6 from hsection)] at hentries
  split at hentries
  · cases hentries
    constructor
    · cases o <;> rfl
    · cases o <;> cases ctype <;> decide
  · split at hentries
    · cases hentries
      constructor
      · cases o <;> rfl
      · cases o <;> cases ctype <;> decide
    · cases hentries

theorem without_nil (find : List Char → Option (List Char)) : without [] find = find := by
  funext key
  simp [without]

theorem getFilterSectionValue_without {find : List Char → Option (List Char)}
    {options : List StorageOption} {entry : MctLogstorageFilterConf}
    (h : ∀ o ∈ options, entry.key ≠ some o.key) :
    mctLogstorageGetFilterSectionValue (without options find) entry =
      mctLogstorageGetFilterSectionValue find entry := by
  unfold mctLogstorageGetFilterSectionValue
  cases hkey : entry.key with
  | none => rfl
  | some key =>
      have hnone : ¬ ∃ o ∈ options, o.key = key := by
        rintro ⟨o, ho, heq⟩
        exact h o ho (by rw [hkey, heq])
      simp only [without, if_neg hnone]

/-- Sections of the other kinds are read as if the options were not there. -/
theorem readSection_other {find : List Char → Option (List Char)}
    (hsection : ¬ IsFilterSection secName) (options : List StorageOption) :
    readSection (without options find) secName = readSection find secName := by
  unfold readSection
  cases hentries : sectionEntries secName with
  | none => rfl
  | some entries =>
      have hloop : readEntries (without options find) entries filterConfTypes
          FilterProperties.initial =
          readEntries find entries filterConfTypes FilterProperties.initial :=
        readEntries_congr (fun ctype _ => getFilterSectionValue_without fun o _ =>
          (key_other hsection hentries o ctype).2) FilterProperties.initial
      simp only [hloop]

theorem readSection_unknown {find : List Char → Option (List Char)}
    (hsection : IsFilterSection secName) {o : StorageOption} {text : List Char}
    (htext : find o.key = some text) (h : o.unknown text) : readSection find secName = none := by
  have hmem : o.ctype ∈ filterConfTypes := by cases o <;> decide
  have hloop := readEntries_unknown o (key_filterCfgEntries o) htext h hmem rfl
  have hentries : sectionEntries secName = some filterCfgEntries := if_pos hsection
  simp only [readSection, hentries, hloop]

theorem isDefault_of_field {o : StorageOption} {p : FilterProperties}
    (h : o.field p = o.field FilterProperties.initial) : o.IsDefault p := by
  cases o with
  | syncBehavior =>
      left
      exact Int.ofNat_inj.mp h
  | overwriteBehavior =>
      intro hnew
      exact absurd (hnew.symm.trans h) (by decide)
  | disableNetwork => exact h

theorem isDefault_readSection {find : List Char → Option (List Char)} {p : FilterProperties}
    (hsection : ¬ IsFilterSection secName) (h : readSection find secName = some p)
    (o : StorageOption) : o.IsDefault p := by
  unfold readSection at h
  cases hentries : sectionEntries secName with
  | none => simp [hentries] at h
  | some entries =>
      simp only [hentries] at h
      cases hloop : readEntries find entries filterConfTypes FilterProperties.initial with
      | none => simp [hloop] at h
      | some config =>
          simp only [hloop] at h
          split at h
          · cases h
          · cases h
            apply isDefault_of_field
            exact field_readEntries o (key_other hsection hentries o o.ctype).1 hloop

/-- An accepted section is kept and stored. -/
theorem setupSection_ok {find : List Char → Option (List Char)}
    (h : (setupSection handle find secName).1 = .ok) :
    ∃ p, readSection find secName = some p ∧
      setupSection handle find secName = (.ok, handle.store p) := by
  unfold setupSection at h ⊢
  cases hread : readSection find secName with
  | none => simp [hread] at h
  | some p =>
      simp only [hread] at h ⊢
      unfold mctLogstorageSetupTable at h ⊢
      cases hkeys : createKeys p.storageConfig.ids with
      | none => simp [hkeys] at h
      | some keys => exact ⟨p, rfl, rfl⟩

theorem unknown_of_mem {find : List Char → Option (List Char)} {o : StorageOption}
    (h : o ∈ unknownOptions find) : ∃ text, find o.key = some text ∧ o.unknown text := by
  have hunknown := (List.mem_filter.mp h).2
  cases htext : find o.key with
  | none => simp [htext] at hunknown
  | some text => exact ⟨text, rfl, by simpa [htext] using hunknown⟩

/-- A section that would be accepted without the options that name no known strategy falls back
exactly if there are none, or if its kind does not look them up. -/
theorem fallsBack_iff (haccepted : (setupWithout handle configFile secName).1 = .ok) :
    FallsBack handle configFile secName ↔
      unknownIn configFile secName = [] ∨ ¬ IsFilterSection secName := by
  obtain ⟨p, hread, hstored⟩ := setupSection_ok haccepted
  constructor
  · rintro ⟨-, q, -, hsetup, -, -⟩
    by_contra hcontra
    rw [not_or, not_not] at hcontra
    obtain ⟨o, ho⟩ := List.exists_mem_of_ne_nil _ hcontra.1
    obtain ⟨text, htext, hunknown⟩ := unknown_of_mem ho
    rw [mctDaemonOfflineSetupFilterProperties, setupSection,
      readSection_unknown hcontra.2 htext hunknown] at hsetup
    cases hsetup
  · rintro (hnone | hsection)
    · refine ⟨p, p, hstored, ?_, rfl, ?_⟩
      · rw [hnone, without_nil] at hstored
        exact hstored
      · rw [hnone]
        intro o ho
        cases ho
    · have hsame : readSection (without (unknownIn configFile secName)
          (mctConfigFileGetValue configFile secName)) secName =
          readSection (mctConfigFileGetValue configFile secName) secName :=
        readSection_other hsection _
      refine ⟨p, p, hstored, ?_, rfl, ?_⟩
      · rw [setupSection, hsame] at hstored
        exact hstored
      · intro o _
        exact isDefault_readSection hsection hread o

def emptyHandle : SectionHandle := ⟨⟨⟨[], 0⟩, [], [], 0, 0, false⟩, []⟩

/-- A section with a synchronisation that is not known. -/
def unknownSync (secName : List Char) : MctConfigFile :=
  [⟨secName, [("LogAppName".toList, "APP1".toList), ("ContextName".toList, "CTX1".toList),
    ("LogLevel".toList, "MCT_LOG_INFO".toList), ("File".toList, "log".toList),
    ("FileSize".toList, "500".toList), ("NOFiles".toList, "2".toList),
    ("EcuID".toList, "ECU1".toList), ("SyncBehavior".toList, "SOMETIMES".toList)]⟩]

/-- The section is dropped, which would be accepted without the option. -/
theorem unknownSync_dropped :
    (setupWithout emptyHandle (unknownSync "FILTER1".toList) "FILTER1".toList).1 = .ok ∧
      ¬ FallsBack emptyHandle (unknownSync "FILTER1".toList) "FILTER1".toList := by
  constructor
  · decide +kernel
  · rintro ⟨-, q, -, hsetup, -, -⟩
    have hdropped : (mctDaemonOfflineSetupFilterProperties emptyHandle
        (unknownSync "FILTER1".toList) "FILTER1".toList).1 = .filterError := by decide +kernel
    rw [hsetup] at hdropped
    cases hdropped

/-- In a section of another kind the option is not looked up. -/
theorem unknownSync_ignored :
    FallsBack emptyHandle (unknownSync "NON-VERBOSE-STORAGE-FILTER1".toList)
      "NON-VERBOSE-STORAGE-FILTER1".toList :=
  (fallsBack_iff (by decide +kernel)).mpr (.inr (by unfold IsFilterSection; decide))

end Settled

section Levels

def FilterProperties.HasLevel (p : FilterProperties) : Prop :=
  1 ≤ p.logLevel ∧ p.logLevel ≤ mctLogVerbose

/-- A text that is accepted for the log level names one. -/
theorem hasLevel_checkLoglevel {config : FilterProperties} {text : List Char}
    (hok : (mctLogstorageCheckLoglevel config text).1 = 0) :
    (mctLogstorageCheckLoglevel config text).2.HasLevel := by
  rw [mctLogstorageCheckLoglevel] at hok ⊢
  cases hlookup : logLevelNames.lookup text with
  | none =>
      rw [hlookup, Option.getD_none, mctLogstorageSetLoglevel, if_pos (by omega)] at hok
      cases hok
  | some level =>
      have hnamed : 1 ≤ level ∧ level ≤ 6 := by
        obtain ⟨before, after, heq, _⟩ := List.lookup_eq_some_iff.mp hlookup
        have hlevels : ∀ x ∈ logLevelNames, 1 ≤ x.2 ∧ x.2 ≤ 6 := by decide
        rw [heq] at hlevels
        exact hlevels (text, level) (List.mem_append_right _ List.mem_cons_self)
      have hset : mctLogstorageSetLoglevel level = (0, level) := by
        rw [mctLogstorageSetLoglevel, if_neg (by omega)]
      simp only [Option.getD_some, hset]
      exact hnamed

theorem hasLevel_checkParam {config : FilterProperties} {ctype : FilterConfType} {text : List Char}
    (hok : (mctLogstorageCheckParam config ctype text).1 = 0) (h : config.HasLevel) :
    (mctLogstorageCheckParam config ctype text).2.HasLevel := by
  cases ctype with
  | loglevel => exact hasLevel_checkLoglevel hok
  | logappname =>
      rw [mctLogstorageCheckParam, mctLogstorageCheckApids]
      exact h
  | contextname =>
      rw [mctLogstorageCheckParam, mctLogstorageCheckCtids]
      exact h
  | excludedLogappname =>
      rw [mctLogstorageCheckParam, mctLogstorageStoreConfigExcludedApids]
      exact h
  | excludedContextname =>
      rw [mctLogstorageCheckParam, mctLogstorageStoreConfigExcludedCtids]
      exact h
  | resetLoglevel =>
      obtain ⟨level, hcheck⟩ := checkResetLoglevel_only config text
      rw [mctLogstorageCheckParam, hcheck]
      exact h
  | file =>
      obtain ⟨name, hcheck⟩ := checkFilename_only config text
      rw [mctLogstorageCheckParam, hcheck]
      exact h
  | filesize =>
      obtain ⟨size, hcheck⟩ := checkFilesize_only config text
      rw [mctLogstorageCheckParam, hcheck]
      exact h
  | nofiles =>
      obtain ⟨number, hcheck⟩ := checkNofiles_only config text
      rw [mctLogstorageCheckParam, hcheck]
      exact h
  | syncbehavior =>
      obtain ⟨sync, hcheck⟩ := checkSyncStrategy_only config text
      rw [mctLogstorageCheckParam, hcheck]
      exact h
  | overwritebehavior =>
      obtain ⟨overwrite, hcheck⟩ := checkOverwriteStrategy_only config text
      rw [mctLogstorageCheckParam, hcheck]
      exact h
  | ecuid =>
      obtain ⟨ecuid, hcheck⟩ := checkEcuid_only config text
      rw [mctLogstorageCheckParam, hcheck]
      exact h
  | specificSize =>
      obtain ⟨size, hcheck⟩ := checkSpecificsize_only config text
      rw [mctLogstorageCheckParam, hcheck]
      exact h
  | disableNetwork =>
      obtain ⟨disable, hcheck⟩ := checkDisableNetwork_only config text
      rw [mctLogstorageCheckParam, hcheck]
      exact h

theorem hasLevel_readEntries {find : List Char → Option (List Char)}
    {entries : FilterConfType → MctLogstorageFilterConf} {ctypes : List FilterConfType}
    {config result : FilterProperties}
    (hread : readEntries find entries ctypes config = some result) (h : config.HasLevel) :
    result.HasLevel := by
  induction ctypes generalizing config with
  | nil =>
      cases hread
      exact h
  | cons ctype rest ih =>
      rw [readEntries] at hread
      cases hvalue : mctLogstorageGetFilterSectionValue find (entries ctype) with
      | filterError => simp [hvalue] at hread
      | filterContinue =>
          rw [hvalue] at hread
          exact ih hread h
      | value text =>
          simp only [hvalue] at hread
          split at hread
          · cases hread
          · rename_i hok
            exact ih hread (hasLevel_checkParam (not_not.mp hok) h)

/-- Every section that is accepted has a log level, its own or VERBOSE. -/
theorem hasLevel_readSection {find : List Char → Option (List Char)} {secName : List Char}
    {p : FilterProperties} (h : readSection find secName = some p) : p.HasLevel := by
  rw [readSection] at h
  split at h
  · cases h
  · split at h
    · cases h
    · rename_i config hread
      split at h
      · cases h
      · cases h
        exact hasLevel_readEntries hread ⟨by decide, by decide⟩

/-- A filter of a configuration file. -/
structure AcceptedFilter where
  properties : FilterProperties
  accepted : ∃ find secName, readSection find secName = some properties

def deviceOf (filters : List AcceptedFilter) : StorageDevice :=
  setupDevice (filters.map fun filter => filter.properties.storageConfig)

end Levels

end MctDaemon.Logstorage
