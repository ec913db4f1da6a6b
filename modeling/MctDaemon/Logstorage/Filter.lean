import MctDaemon.Lib.Search

/-!
The filter table of the offline log storage: keys made from a configuration
(`mct_logstorage_create_keys`), the list of filters
(`mct_logstorage_prepare_table`) and the lookup for a message
(`mct_logstorage_get_config`). A C string is the list of its characters up to
the terminating zero. A filter is named by its position in the list.
-/

namespace MctDaemon.Logstorage

open Lib

def idSize : Nat := 4

def maxIds : Nat := 100

def maxKeyLen : Nat := 15

/-- The part of `MctLogStorageFilterConfig` that decides which messages the
filter takes. -/
structure MctLogStorageFilterConfig where
  apids : Option (List Char)
  ctids : Option (List Char)
  ecuid : Option (List Char)
  deriving DecidableEq, Repr

/-- An entry of `MctLogStorageFilterList`. -/
structure MctLogStorageFilter where
  keyList : List (List Char)
  data : MctLogStorageFilterConfig
  deriving DecidableEq, Repr

/-- The handle: its filters and `num_configs`. -/
structure MctLogStorage where
  configList : List MctLogStorageFilter
  numConfigs : Nat
  deriving DecidableEq, Repr

section Keys

/-- `.*`. -/
def wildcard : List Char := ['.', '*']

/-- `strncmp(s, ".*", 2) == 0`. -/
def isWildcard (s : List Char) : Bool := s.take 2 = wildcard

/-- The tokens `strtok_r` finds between commas. -/
def tokens (ids : List Char) : List (List Char) :=
  (ids.splitOn ',').filter fun token => token ≠ []

def getKeysList (ids : List Char) : Option (List (List Char)) :=
  if tokens ids = [] then none
  else some (((tokens ids).take maxIds).map (List.take idSize))

def createKeysOnlyCtid (ecuid : Option (List Char)) (ctid : List Char) : List Char :=
  match ecuid with
  | some ecuid => ecuid ++ [':', ':'] ++ ctid
  | none => [':', ':'] ++ ctid

def createKeysOnlyApid (ecuid : Option (List Char)) (apid : List Char) : List Char :=
  match ecuid with
  | some ecuid => ecuid ++ [':'] ++ apid ++ [':']
  | none => [':'] ++ apid ++ [':']

def createKeysMulti (ecuid : Option (List Char)) (apid ctid : List Char) : List Char :=
  match ecuid with
  | some ecuid => ecuid ++ [':'] ++ apid ++ [':'] ++ ctid
  | none => [':'] ++ apid ++ [':'] ++ ctid

def createKeysOnlyEcu (ecuid : List Char) : List Char := ecuid ++ [':', ':']

def createKey (ecuid : Option (List Char)) (apid ctid : List Char) : List Char :=
  if isWildcard apid then createKeysOnlyCtid ecuid ctid
  else if isWildcard ctid then createKeysOnlyApid ecuid apid
  else createKeysMulti ecuid apid ctid

/-- The first condition of `mct_logstorage_create_keys`: only the ECU id
matters. -/
def MctLogStorageFilterConfig.ecuAlone (config : MctLogStorageFilterConfig) : Bool :=
  match config.apids, config.ctids with
  | none, none => config.ecuid.isSome
  | some apids, some ctids => isWildcard apids && isWildcard ctids && config.ecuid.isSome
  | _, _ => false

/-- `mct_logstorage_create_keys`; `none` is its error. -/
def createKeys (config : MctLogStorageFilterConfig) : Option (List (List Char)) :=
  if config.ecuAlone then some [createKeysOnlyEcu (config.ecuid.getD [])]
  else
    match config.apids, config.ctids with
    | some apids, some ctids =>
        match getKeysList apids, getKeysList ctids with
        | some apidList, some ctidList =>
            some (apidList.flatMap fun apid =>
              ctidList.map fun ctid => createKey config.ecuid apid ctid)
        | _, _ => none
    | _, _ => none

/-- `mct_logstorage_prepare_table`, and the count its caller keeps. -/
def prepareTable (handle : MctLogStorage) (config : MctLogStorageFilterConfig) :
    MctLogStorage :=
  match createKeys config with
  | none => handle
  | some keys =>
      {configList := handle.configList ++ [⟨keys, config⟩], numConfigs := handle.numConfigs + 1}

/-- The handle after all filter sections of a configuration file. -/
def setupTable (configs : List MctLogStorageFilterConfig) : MctLogStorage :=
  configs.foldl prepareTable ⟨[], 0⟩

end Keys

section Lookup

/-- The ids of a message as `mct_logstorage_get_config` gets them. `apid` and
`ctid` are both given or both null. -/
structure MessageIds where
  ids : Option (List Char × List Char)
  ecuid : List Char
  deriving DecidableEq, Repr

/-- `strncmp` over at most `MCT_OFFLINE_LOGSTORAGE_MAX_KEY_LEN` characters. -/
def sameKey (a b : List Char) : Bool := a.take maxKeyLen = b.take maxKeyLen

/-- Some key of the filter is the key looked for. -/
def hasKey (key : List Char) (filter : MctLogStorageFilter) : Bool :=
  filter.keyList.any fun own => sameKey own key

/-- `mct_logstorage_list_find`: the positions of the filters that have the
key. -/
def listFind (key : List Char) (list : List MctLogStorageFilter) : List Nat :=
  list.findIdxs (hasKey key)

/-- The keys `mct_logstorage_get_config` looks for, in its order. -/
def possibleKeys (message : MessageIds) : List (List Char) :=
  let ecuid := message.ecuid.take idSize
  match message.ids with
  | none => [ecuid ++ [':', ':']]
  | some (apid, ctid) =>
      let apid := apid.take idSize
      let ctid := ctid.take idSize
      [[':'] ++ apid ++ [':'],
        [':', ':'] ++ ctid,
        [':'] ++ apid ++ [':'] ++ ctid,
        ecuid ++ [':'] ++ apid ++ [':'] ++ ctid,
        ecuid ++ [':'] ++ apid ++ [':'],
        ecuid ++ [':', ':'] ++ ctid,
        ecuid ++ [':', ':']]

/-- The loop over the possible keys, with the configurations found so far. -/
def findConfigs (handle : MctLogStorage) : List (List Char) → List Nat → List Nat
  | [], config => config
  | key :: keys, config =>
      let config := config ++ listFind key handle.configList
      if config.length = handle.numConfigs then config else findConfigs handle keys config

def getConfig (handle : MctLogStorage) (message : MessageIds) : List Nat :=
  findConfigs handle (possibleKeys message) []

end Lookup

section Meaning

/-- The ids a configuration lists. A list that is absent stands for the
wildcard. -/
def listedIds (ids : Option (List Char)) : List (List Char) :=
  match ids with
  | none => [wildcard]
  | some ids => (tokens ids).map (List.take idSize)

/-- The filter takes the message: its ECU id is unset or equal, and some
listed application id and some listed context id are the wildcard or equal.
Two wildcards count only together with an ECU id. -/
def MctLogStorageFilterConfig.Matches (config : MctLogStorageFilterConfig)
    (message : MessageIds) : Prop :=
  (∀ ecuid ∈ config.ecuid, ecuid = message.ecuid.take idSize) ∧
    ∃ apid ∈ listedIds config.apids, ∃ ctid ∈ listedIds config.ctids,
      (apid = wildcard ∨ ∃ ids ∈ message.ids, apid = ids.1.take idSize) ∧
        (ctid = wildcard ∨ ∃ ids ∈ message.ids, ctid = ids.2.take idSize) ∧
        (apid = wildcard → ctid = wildcard → config.ecuid.isSome)

instance (config : MctLogStorageFilterConfig) (message : MessageIds) :
    Decidable (config.Matches message) :=
  inferInstanceAs (Decidable (_ ∧ _))

/-- The lookup returns each filter that takes the message once, and no other. -/
def ExactLookup (handle : MctLogStorage) (message : MessageIds) : Prop :=
  ∀ i, (hi : i < handle.configList.length) →
    (getConfig handle message).count i =
      if handle.configList[i].data.Matches message then 1 else 0

end Meaning

end MctDaemon.Logstorage
