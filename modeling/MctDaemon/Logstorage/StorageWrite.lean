import MctDaemon.Lib.TextBuffer
import MctDaemon.Logstorage.Filter
import MctDaemon.Shared.ConfigFile
import MctDaemon.Shared.Message

/-!
`mct_logstorage_write`: the filters that are found for a message prepare it one after the other.
The strategies change the state of their own filter and the newest file record of its file; the
configuration stays as it is, so that every file keeps a record.
-/

namespace MctDaemon.Logstorage

open Lib Shared

section Model

def mctOfflineLogstorageMaxErrors : Nat := 5
def mctLogVerbose : Nat := 6

/-- `MctLogStorageFilterConfig` as the configuration file gives it. `cached` stands for every
`sync` but `MCT_LOGSTORAGE_SYNC_UNSET` and `MCT_LOGSTORAGE_SYNC_ON_MSG`. -/
structure StorageConfig where
  ids : MctLogStorageFilterConfig
  logLevel : Nat
  excludedApids : Option (List Char)
  excludedCtids : Option (List Char)
  fileName : Option (List Char)
  disableNetwork : Bool
  cached : Bool
  deriving DecidableEq, Repr

/-- The rest of it, which changes while messages are stored. -/
structure FilterState where
  skip : Bool
  workingFileName : Option (List Char)
  wrapId : Nat
  deriving DecidableEq, Repr

structure StorageFilter where
  config : StorageConfig
  state : FilterState
  deriving DecidableEq, Repr

/-- `MctNewestFileName`, with its key in the list. -/
structure NewestFileRecord where
  fileName : List Char
  newestFile : Option (List Char)
  wrapId : Nat
  deriving DecidableEq, Repr

/-- `MctLogStorage` of a connected device with its configuration. `overrun` once a message was found
more often than the array of `mct_logstorage_write` has places: the memory behind it is lost. -/
structure StorageDevice where
  table : MctLogStorage
  filters : List StorageFilter
  newestFileList : List NewestFileRecord
  writeErrors : Nat
  prepareErrors : Nat
  overrun : Bool
  deriving DecidableEq, Repr

/-- The newest file list with a record for the file name of a filter. -/
def addNewestFile (list : List NewestFileRecord) (fileName : Option (List Char)) :
    List NewestFileRecord :=
  match fileName with
  | none => list
  | some name =>
      if list.any fun tmp => tmp.fileName = name then list else list ++ [⟨name, none, 0⟩]

/-- `mct_logstorage_setup_table`, on one section of the configuration file. -/
def setupFilter (d : StorageDevice) (config : StorageConfig) : StorageDevice :=
  match createKeys config.ids with
  | none => d
  | some _ =>
      { d with
        table := prepareTable d.table config.ids
        filters := d.filters ++ [⟨config, ⟨false, none, 0⟩⟩]
        newestFileList := addNewestFile d.newestFileList config.fileName }

/-- A device after its configuration file was read. -/
def setupDevice (configs : List StorageConfig) : StorageDevice :=
  configs.foldl setupFilter ⟨⟨[], 0⟩, [], [], 0, 0, false⟩

def mctLogstorageCheckExcludedIds (id excludedIds : List Char) : Bool :=
  (strtok ',' excludedIds).any fun token => strncmpEq id token idSize

/-- A configuration that `mct_logstorage_filter` leaves in the array. -/
def keepsConfig (config : StorageConfig) (message : MessageIds) (logLevel : Nat) : Bool :=
  if logLevel > config.logLevel then false
  else if config.ids.ecuid.any fun ecuid => ¬ strncmpEq message.ecuid ecuid idSize then false
  else
    match config.excludedApids, config.excludedCtids with
    | some apids, some ctids =>
        ¬ message.ids.any fun (apid, ctid) =>
          mctLogstorageCheckExcludedIds apid apids && mctLogstorageCheckExcludedIds ctid ctids
    | none, some ctids =>
        ¬ message.ids.any fun (_, ctid) => mctLogstorageCheckExcludedIds ctid ctids
    | some apids, none =>
        ¬ message.ids.any fun (apid, _) => mctLogstorageCheckExcludedIds apid apids
    | none, none => true

/-- The array of configurations, some of them set to NULL. It has `MCT_CONFIG_FILE_SECTIONS_MAX`
places; `overrun` when `mct_logstorage_get_config` found more and wrote them behind it. -/
structure ConfigArray where
  configs : List (Option Nat)
  overrun : Bool
  deriving DecidableEq, Repr

def mctLogstorageFilter (d : StorageDevice) (message : MessageIds) (logLevel : Nat) :
    ConfigArray where
  configs := (getConfig d.table message).map fun i =>
    if d.filters[i]?.any fun f => keepsConfig f.config message logLevel then some i else none
  overrun := (getConfig d.table message).length > mctConfigFileSectionsMax

/-- The functions of the strategies, by the place in the array at which they are called: what they
return, and what they leave of the filter. Without a cache, a preparation that succeeds names the
working file. -/
structure StrategyFunctions where
  prepare : Nat → StorageFilter → NewestFileRecord → Bool × FilterState
  write : Nat → StorageFilter → Bool × FilterState
  named : ∀ k f newest, (prepare k f newest).1 → ¬ f.config.cached →
    (prepare k f newest).2.skip = false → (prepare k f newest).2.workingFileName.isSome

/-- A call of `mct_logstorage_prepare`, with what comes of it: the filter, the newest file record,
what the function returned and whether the message was written. -/
structure Attempt where
  filter : Nat
  record : List Char
  prepared : Bool × FilterState
  written : Bool
  deriving DecidableEq, Repr

/-- The variables of the loop of `mct_logstorage_write`; `stopped` once it returned `-1`. -/
structure WriteState where
  device : StorageDevice
  found : Bool
  disableNw : Bool
  err : Bool
  stopped : Bool
  attempts : List Attempt
  deriving DecidableEq, Repr

namespace WriteState

def setFilter (s : WriteState) (i : Nat) (state : FilterState) : WriteState :=
  { s with device := { s.device with
    filters := s.device.filters.modify i fun f => { f with state := state } } }

/-- The newest file of the record is the working file of the filter, if it has one. -/
def setNewest (s : WriteState) (name : List Char) (state : FilterState) : WriteState :=
  match state.workingFileName with
  | none => s
  | some file =>
      { s with device := { s.device with
        newestFileList := s.device.newestFileList.map fun tmp =>
          if tmp.fileName = name then ⟨name, some file, state.wrapId⟩ else tmp } }

/-- A preparation failed; a filter is skipped when there are too many failures. -/
def countPrepareError (s : WriteState) (i : Nat) (state : FilterState) : WriteState :=
  let s := { s with device := { s.device with prepareErrors := s.device.prepareErrors + 1 } }
  if s.device.prepareErrors ≥ mctOfflineLogstorageMaxErrors then
    s.setFilter i { state with skip := true }
  else s

def countWriteError (s : WriteState) : WriteState :=
  { s with
    device := { s.device with writeErrors := s.device.writeErrors + 1 }
    err := s.err || s.device.writeErrors + 1 ≥ mctOfflineLogstorageMaxErrors }

/-- The message is written to the file that was prepared. -/
def writeMessage (s : WriteState) (fns : StrategyFunctions) (k i : Nat) (f : StorageFilter)
    (name : List Char) : WriteState :=
  let s := if f.config.cached then s else s.setNewest name f.state
  let (ok, state) := fns.write k f
  let s := s.setFilter i state
  if ok then if f.config.cached then s.setNewest name state else s else s.countWriteError

/-- The file is prepared, and the message written to it. -/
def storeMessage (s : WriteState) (fns : StrategyFunctions) (k i : Nat) (f : StorageFilter)
    (tmp : NewestFileRecord) : WriteState :=
  let answer := fns.prepare k f tmp
  let attempted := fun written =>
    { s.setFilter i answer.2 with
      attempts := s.attempts ++ [⟨i, tmp.fileName, answer, written⟩] }
  if answer.1 then
    if answer.2.skip then attempted false
    else if ¬ f.config.cached ∧ answer.2.workingFileName.isNone then
      { attempted false with stopped := true }
    else (attempted true).writeMessage fns k i ⟨f.config, answer.2⟩ tmp.fileName
  else (attempted false).countPrepareError i answer.2

/-- The body of the loop, for the configuration at one place of the array. -/
def step (fns : StrategyFunctions) (s : WriteState) (entry : Option Nat × Nat) : WriteState :=
  if s.stopped then s
  else
    match entry.1 with
    | none => s
    | some i =>
        match s.device.filters[i]? with
        | none => s
        | some f =>
            match f.config.fileName with
            | none => s
            | some name =>
                let s := { s with disableNw := s.disableNw || f.config.disableNetwork }
                if f.state.skip then s
                else
                  match s.device.newestFileList.find? fun tmp => tmp.fileName = name with
                  | some tmp => { s with found := true }.storeMessage fns entry.2 i f tmp
                  | none =>
                      -- the prepare functions reject a record that is NULL
                      if s.found then s.countPrepareError i f.state
                      else { s with stopped := true }

end WriteState

/-- The size of the header that `htyp` announces. -/
def writtenHeaderLen (htyp : UInt8) : Nat :=
  let standardHeaderExtraLen := 12 - (if isHtyp 2 htyp then 0 else 4) -
    (if isHtyp 3 htyp then 0 else 4) - (if isHtyp 4 htyp then 0 else 4)
  4 + (if isHtyp 0 htyp then 10 else 0) + standardHeaderExtraLen

/-- The header of a message: the header buffer behind the storage header, of which `size2` bytes
are the header of this message. The header is whole. -/
structure WriteHeader where
  data2 : List UInt8
  size2 : Nat
  room : data2.length = 26
  whole : writtenHeaderLen (data2.getD 0 0) ≤ size2

/-- Bytes as a string that need not be terminated. -/
def idChars (bytes : List UInt8) : List Char := cString (bytes.map fun b => Char.ofNat b.toNat)

namespace WriteHeader

variable (h : WriteHeader)

def htyp : UInt8 := h.data2.getD 0 0

def extendedHeader : Option (List UInt8) :=
  if isHtyp 0 h.htyp then some (slice h.data2 (writtenHeaderLen h.htyp - 10) 10) else none

def ids : Option (List Char × List Char) :=
  h.extendedHeader.map fun extended => (idChars (slice extended 2 4), idChars (slice extended 6 4))

/-- `MCT_GET_MSIN_MTIN`, and the level of a message without an extended header. -/
def logLevel : Nat :=
  match h.extendedHeader with
  | some extended => (extended.getD 0 0).toNat / 16
  | none => mctLogVerbose

/-- `extraHeader->ecu`: the four bytes behind the standard header. -/
def extraHeaderEcu : List Char := idChars (slice h.data2 4 4)

/-- The ids that `mct_logstorage_filter` is called with. -/
def messageIds : MessageIds := ⟨h.ids, h.extraHeaderEcu⟩

end WriteHeader

/-- The variables of `mct_logstorage_write` in front of its loop. -/
def startWrite (d : StorageDevice) (array : ConfigArray) : WriteState :=
  ⟨{ d with overrun := d.overrun || array.overrun }, false, false, false, false, []⟩

/-- `mct_logstorage_write`, on a message whose header is whole. Behind an overrun, what it does is
of no account. -/
def mctLogstorageWrite (fns : StrategyFunctions) (d : StorageDevice) (h : WriteHeader) :
    WriteState :=
  let array := mctLogstorageFilter d h.messageIds h.logLevel
  array.configs.zipIdx.foldl (WriteState.step fns) (startWrite d array)

/-- A device with its configuration, after it stored messages. -/
def deviceAfter (configs : List StorageConfig) (writes : List (StrategyFunctions × WriteHeader)) :
    StorageDevice :=
  writes.foldl (fun d write => (mctLogstorageWrite write.1 d write.2).device) (setupDevice configs)

end Model

section Accepted

/-- What the configuration leaves behind and no strategy changes: the table, the configurations, and
the names in the newest file list; and whether an array was overrun. -/
structure SameFilters (d d' : StorageDevice) : Prop where
  table : d'.table = d.table
  configs : d'.filters.map StorageFilter.config = d.filters.map StorageFilter.config
  names : d'.newestFileList.map NewestFileRecord.fileName =
    d.newestFileList.map NewestFileRecord.fileName
  overrun : d'.overrun = d.overrun

theorem SameFilters.refl (d : StorageDevice) : SameFilters d d := ⟨rfl, rfl, rfl, rfl⟩

theorem SameFilters.trans {d d' d'' : StorageDevice} (h : SameFilters d d')
    (h' : SameFilters d' d'') : SameFilters d d'' :=
  ⟨h'.table.trans h.table, h'.configs.trans h.configs, h'.names.trans h.names,
    h'.overrun.trans h.overrun⟩

/-- The keys of the table are those of the filters, and each file has a record. -/
structure Accepted (d : StorageDevice) : Prop where
  keys : ∀ filter ∈ d.table.configList, createKeys filter.data = some filter.keyList
  linked : d.table.configList.map MctLogStorageFilter.data =
    (d.filters.map StorageFilter.config).map StorageConfig.ids
  recorded : ∀ config ∈ d.filters.map StorageFilter.config, ∀ name ∈ config.fileName,
    name ∈ d.newestFileList.map NewestFileRecord.fileName

/-- An overrun leaves the lists of the device as they are. -/
theorem Accepted.overrun {d : StorageDevice} (h : Accepted d) (overrun : Bool) :
    Accepted { d with overrun := overrun } :=
  ⟨h.keys, h.linked, h.recorded⟩

theorem Accepted.of_same {d d' : StorageDevice} (h : Accepted d) (hsame : SameFilters d d') :
    Accepted d' := by
  refine ⟨?_, ?_, ?_⟩
  · rw [hsame.table]
    exact h.keys
  · rw [hsame.table, hsame.configs]
    exact h.linked
  · rw [hsame.configs, hsame.names]
    exact h.recorded

theorem mem_addNewestFile_of_mem {list : List NewestFileRecord} {fileName : Option (List Char)}
    {name : List Char} (h : name ∈ list.map NewestFileRecord.fileName) :
    name ∈ (addNewestFile list fileName).map NewestFileRecord.fileName := by
  unfold addNewestFile
  split
  · exact h
  · split
    · exact h
    · rw [List.map_append]
      exact List.mem_append_left _ h

theorem mem_addNewestFile {list : List NewestFileRecord} {fileName : Option (List Char)}
    {name : List Char} (h : name ∈ fileName) :
    name ∈ (addNewestFile list fileName).map NewestFileRecord.fileName := by
  obtain rfl := Option.mem_def.mp h
  unfold addNewestFile
  simp only
  split
  · next hany =>
      obtain ⟨tmp, htmp, hsame⟩ := List.any_eq_true.mp hany
      exact List.mem_map.mpr ⟨tmp, htmp, by simpa using hsame⟩
  · rw [List.map_append]
    exact List.mem_append_right _ (by simp)

theorem Accepted.setupFilter {d : StorageDevice} (h : Accepted d) (config : StorageConfig) :
    Accepted (setupFilter d config) := by
  rw [Logstorage.setupFilter]
  split
  · exact h
  · next keys hkeys =>
      have htable : (prepareTable d.table config.ids).configList =
          d.table.configList ++ [⟨keys, config.ids⟩] := by
        rw [prepareTable, hkeys]
      refine ⟨?_, ?_, ?_⟩
      · simp only [htable]
        intro filter hfilter
        rcases List.mem_append.mp hfilter with hold | hnew
        · exact h.keys filter hold
        · rw [List.mem_singleton.mp hnew]
          exact hkeys
      · simp only [htable, List.map_append, List.map_singleton, h.linked]
      · intro other hother name hname
        simp only [List.map_append, List.map_singleton, List.mem_append, List.mem_singleton]
          at hother
        rcases hother with hold | rfl
        · exact mem_addNewestFile_of_mem (h.recorded other hold name hname)
        · exact mem_addNewestFile hname

theorem setupDevice_accepted (configs : List StorageConfig) : Accepted (setupDevice configs) := by
  rw [setupDevice]
  have hstart : Accepted ⟨⟨[], 0⟩, [], [], 0, 0, false⟩ := by
    refine ⟨?_, rfl, ?_⟩
    · intro filter hfilter
      cases hfilter
    · intro config hconfig
      cases hconfig
  generalize (⟨⟨[], 0⟩, [], [], 0, 0, false⟩ : StorageDevice) = d at hstart ⊢
  induction configs generalizing d with
  | nil => exact hstart
  | cons config configs ih => exact ih _ (hstart.setupFilter config)

theorem setupDevice_overrun (configs : List StorageConfig) :
    (setupDevice configs).overrun = false := by
  rw [setupDevice]
  have hstart : (⟨⟨[], 0⟩, [], [], 0, 0, false⟩ : StorageDevice).overrun = false := rfl
  generalize (⟨⟨[], 0⟩, [], [], 0, 0, false⟩ : StorageDevice) = d at hstart ⊢
  induction configs generalizing d with
  | nil => exact hstart
  | cons config configs ih =>
      apply ih
      rw [setupFilter]
      split
      · exact hstart
      · exact hstart

end Accepted

section Loop

variable {fns : StrategyFunctions} {s : WriteState}

/-- A change of the elements that a function does not see. -/
theorem map_modify_of_same {α β : Type*} {g : α → β} {change : α → α} (h : ∀ a, g (change a) = g a)
    (l : List α) (i : Nat) : (l.modify i change).map g = l.map g := by
  apply List.ext_getElem?
  intro j
  rw [List.getElem?_map, List.getElem?_map, List.getElem?_modify]
  cases l[j]? with
  | none => rfl
  | some a =>
      simp only [Option.map_eq_map, Option.map_some, Option.some.injEq]
      split
      · exact h a
      · rfl

/-- What a call of the strategies does: the configuration stays, and so do the other filters. -/
structure ChangesOnly (i : Nat) (d d' : StorageDevice) : Prop where
  same : SameFilters d d'
  others : ∀ j, j ≠ i → d'.filters[j]? = d.filters[j]?

theorem ChangesOnly.refl (i : Nat) (d : StorageDevice) : ChangesOnly i d d :=
  ⟨SameFilters.refl d, fun _ _ => rfl⟩

theorem ChangesOnly.trans {i : Nat} {d d' d'' : StorageDevice} (h : ChangesOnly i d d')
    (h' : ChangesOnly i d' d'') : ChangesOnly i d d'' :=
  ⟨h.same.trans h'.same, fun j hj => (h'.others j hj).trans (h.others j hj)⟩

/-- A filter with a file that is not skipped. -/
def Storable (d : StorageDevice) (i : Nat) : Prop :=
  ∃ f, d.filters[i]? = some f ∧ f.config.fileName.isSome ∧ f.state.skip = false

theorem ChangesOnly.storable {i j : Nat} {d d' : StorageDevice} (h : ChangesOnly i d d')
    (hj : j ≠ i) : Storable d' j ↔ Storable d j := by
  rw [Storable, Storable, h.others j hj]

namespace WriteState

/-- A change of the device that leaves the filters and the names of the records alone. -/
structure Keeps (i : Nat) (s s' : WriteState) : Prop where
  attempts : s'.attempts = s.attempts
  stopped : s'.stopped = s.stopped
  changes : ChangesOnly i s.device s'.device

theorem Keeps.refl (i : Nat) (s : WriteState) : Keeps i s s := ⟨rfl, rfl, ChangesOnly.refl i _⟩

theorem Keeps.trans {i : Nat} {s s' s'' : WriteState} (h : Keeps i s s') (h' : Keeps i s' s'') :
    Keeps i s s'' :=
  ⟨h'.attempts.trans h.attempts, h'.stopped.trans h.stopped, h.changes.trans h'.changes⟩

theorem setFilter_keeps (s : WriteState) (i : Nat) (state : FilterState) :
    Keeps i s (s.setFilter i state) := by
  have hconfigs := @map_modify_of_same _ _ StorageFilter.config
    (fun f => { f with state := state }) (fun _ => rfl) s.device.filters i
  refine ⟨rfl, rfl, ⟨rfl, hconfigs, rfl, rfl⟩, fun j hj => ?_⟩
  exact List.getElem?_modify_ne _ _ (Ne.symm hj)

theorem setNewest_keeps (s : WriteState) (name : List Char) (state : FilterState) (i : Nat) :
    Keeps i s (s.setNewest name state) := by
  rw [setNewest]
  split
  · exact Keeps.refl i s
  · refine ⟨rfl, rfl, ⟨rfl, rfl, ?_, rfl⟩, fun _ _ => rfl⟩
    rw [List.map_map]
    apply List.map_congr_left
    intro tmp _
    simp only [Function.comp_apply]
    split
    · next hname => exact hname.symm
    · rfl

theorem countPrepareError_keeps (s : WriteState) (i : Nat) (state : FilterState) :
    Keeps i s (s.countPrepareError i state) := by
  rw [countPrepareError]
  have hcount : Keeps i s
      { s with device := { s.device with prepareErrors := s.device.prepareErrors + 1 } } :=
    ⟨rfl, rfl, ⟨rfl, rfl, rfl, rfl⟩, fun _ _ => rfl⟩
  simp only
  split
  · exact hcount.trans (setFilter_keeps _ i _)
  · exact hcount

theorem writeMessage_keeps (s : WriteState) (k i : Nat) (f : StorageFilter) (name : List Char) :
    Keeps i s (s.writeMessage fns k i f name) := by
  rw [writeMessage]
  generalize fns.write k f = answer
  have hfirst : Keeps i s (if f.config.cached then s else s.setNewest name f.state) := by
    split
    · exact Keeps.refl i s
    · exact s.setNewest_keeps name f.state i
  generalize (if f.config.cached then s else s.setNewest name f.state) = s' at hfirst ⊢
  have hwritten := hfirst.trans (s'.setFilter_keeps i answer.2)
  simp only
  split
  · split
    · exact hwritten.trans (setNewest_keeps _ name answer.2 i)
    · exact hwritten
  · exact hwritten.trans ⟨rfl, rfl, ⟨rfl, rfl, rfl, rfl⟩, fun _ _ => rfl⟩

/-- What a preparation leaves: one more attempt, and nothing but its filter and the records. -/
structure Attempted (i : Nat) (record : List Char) (answer : Bool × FilterState)
    (s s' : WriteState) : Prop where
  attempts : ∃ written : Bool, s'.attempts = s.attempts ++ [⟨i, record, answer, written⟩] ∧
    (written ↔ answer.1 ∧ answer.2.skip = false)
  stopped : s'.stopped = s.stopped
  changes : ChangesOnly i s.device s'.device

theorem Attempted.keeps {i : Nat} {record : List Char} {answer : Bool × FilterState}
    {s s' s'' : WriteState} (h : Attempted i record answer s s') (hkeeps : Keeps i s' s'') :
    Attempted i record answer s s'' := by
  refine ⟨?_, hkeeps.stopped.trans h.stopped, h.changes.trans hkeeps.changes⟩
  rw [hkeeps.attempts]
  exact h.attempts

theorem storeMessage_attempted (fns : StrategyFunctions) (k i : Nat) (f : StorageFilter)
    (tmp : NewestFileRecord) (s : WriteState) :
    Attempted i tmp.fileName (fns.prepare k f tmp) s (s.storeMessage fns k i f tmp) := by
  have hnamed := fns.named k f tmp
  rw [storeMessage]
  generalize fns.prepare k f tmp = answer at hnamed ⊢
  have hattempted : ∀ written : Bool, (written ↔ answer.1 ∧ answer.2.skip = false) →
      Attempted i tmp.fileName answer s
        { s.setFilter i answer.2 with
          attempts := s.attempts ++ [⟨i, tmp.fileName, answer, written⟩] } :=
    fun written hwritten => ⟨⟨written, rfl, hwritten⟩, rfl, (s.setFilter_keeps i answer.2).changes⟩
  simp only
  split
  · next hok =>
      split
      · next hskip => exact hattempted false (by simp [hskip])
      · next hskip =>
          rw [Bool.not_eq_true] at hskip
          split
          · next hunnamed =>
              have hsome := hnamed hok hunnamed.1 hskip
              rw [← Option.not_isNone, hunnamed.2] at hsome
              cases hsome
          · exact (hattempted true (by simp [hok, hskip])).keeps (writeMessage_keeps _ k i _ _)
  · next hfailed =>
      exact (hattempted false (by simp [hfailed])).keeps (countPrepareError_keeps _ i _)

/-- What one turn of the loop can do: nothing, or an attempt with the record of the file. -/
theorem step_cases (hstopped : s.stopped = false) (h : Accepted s.device) (c : Option Nat)
    (k : Nat) :
    ((step fns s (c, k)).attempts = s.attempts ∧ (step fns s (c, k)).stopped = false ∧
      (step fns s (c, k)).device = s.device ∧ ∀ i, c = some i → ¬ Storable s.device i) ∨
    ∃ i f name answer, c = some i ∧ s.device.filters[i]? = some f ∧
      f.config.fileName = some name ∧ f.state.skip = false ∧
      Attempted i name answer s (step fns s (c, k)) := by
  have hrunning : ¬ s.stopped = true := by simp [hstopped]
  rw [step, if_neg hrunning]
  cases c with
  | none => exact .inl ⟨rfl, hstopped, rfl, nofun⟩
  | some i =>
      simp only
      cases hf : s.device.filters[i]? with
      | none =>
          refine .inl ⟨rfl, hstopped, rfl, ?_⟩
          rintro _ ⟨⟩ ⟨f, hsome, -⟩
          rw [hf] at hsome
          cases hsome
      | some f =>
          simp only
          cases hname : f.config.fileName with
          | none =>
              refine .inl ⟨rfl, hstopped, rfl, ?_⟩
              rintro _ ⟨⟩ ⟨g, hg, hfile, -⟩
              rw [hf] at hg
              rw [← Option.some.inj hg, hname] at hfile
              cases hfile
          | some name =>
              simp only
              by_cases hskip : f.state.skip = true
              · rw [if_pos hskip]
                refine .inl ⟨rfl, hstopped, rfl, ?_⟩
                rintro _ ⟨⟩ ⟨g, hg, -, hkept⟩
                rw [hf] at hg
                rw [← Option.some.inj hg, hskip] at hkept
                cases hkept
              · rw [if_neg hskip]
                have hconfig : f.config ∈ s.device.filters.map StorageFilter.config :=
                  List.mem_map_of_mem (List.mem_of_getElem? hf)
                obtain ⟨tmp, htmp, hsame⟩ :=
                  List.mem_map.mp (h.recorded f.config hconfig name hname)
                cases hfind : s.device.newestFileList.find? fun tmp => tmp.fileName = name with
                | none =>
                    have hother := List.find?_eq_none.mp hfind tmp htmp
                    exact absurd hsame (by simpa using hother)
                | some record =>
                    have hrecord : record.fileName = name := by
                      simpa using List.find?_some hfind
                    have hattempted := storeMessage_attempted fns k i f record
                      { s with disableNw := s.disableNw || f.config.disableNetwork, found := true }
                    rw [hrecord] at hattempted
                    exact .inr ⟨i, f, name, _, rfl, hf, hname, by simpa using hskip,
                      hattempted.attempts, hattempted.stopped, hattempted.changes⟩

def OwnRecord (d : StorageDevice) (a : Attempt) : Prop :=
  ∃ config, (d.filters.map StorageFilter.config)[a.filter]? = some config ∧
    config.fileName = some a.record

structure Stores (entries : List (Option Nat × Nat)) (s s' : WriteState) : Prop where
  stopped : s'.stopped = false
  same : SameFilters s.device s'.device
  filters : ∀ i, (∃ a ∈ s'.attempts, a.filter = i) ↔
    (∃ a ∈ s.attempts, a.filter = i) ∨ (∃ k, (some i, k) ∈ entries) ∧ Storable s.device i
  attempts : ∀ a ∈ s'.attempts, a ∈ s.attempts ∨
    OwnRecord s.device a ∧ (a.written ↔ a.prepared.1 ∧ a.prepared.2.skip = false)

theorem foldl_step_stores (entries : List (Option Nat × Nat)) (hstopped : s.stopped = false)
    (h : Accepted s.device) : Stores entries s (entries.foldl (step fns) s) := by
  induction entries generalizing s with
  | nil =>
      refine ⟨hstopped, SameFilters.refl _, fun i => ?_, fun a ha => .inl ha⟩
      simp
  | cons entry entries ih =>
      obtain ⟨c, k⟩ := entry
      rw [List.foldl_cons]
      rcases step_cases hstopped h c k with ⟨hattempts, hrunning, hdevice, hnone⟩ |
        ⟨i, f, name, answer, rfl, hf, hname, hskip, hattempted⟩
      · have hrest := @ih (step fns s (c, k)) hrunning (hdevice ▸ h)
        refine ⟨hrest.stopped, hdevice ▸ hrest.same, fun j => ?_, ?_⟩
        · rw [hrest.filters j, hattempts, hdevice]
          apply or_congr_right
          constructor
          · rintro ⟨⟨l, hl⟩, hstorable⟩
            exact ⟨⟨l, List.mem_cons_of_mem _ hl⟩, hstorable⟩
          · rintro ⟨⟨l, hl⟩, hstorable⟩
            rcases List.mem_cons.mp hl with heq | hl
            · exact absurd hstorable (hnone j (congrArg Prod.fst heq).symm)
            · exact ⟨⟨l, hl⟩, hstorable⟩
        · intro a ha
          have hcase := hrest.attempts a ha
          rwa [hattempts, hdevice] at hcase
      · have hchanges := hattempted.changes
        have hrest := @ih (step fns s (some i, k)) (hattempted.stopped.trans hstopped)
          (h.of_same hchanges.same)
        obtain ⟨written, hattempts, hwritten⟩ := hattempted.attempts
        have hown : OwnRecord s.device ⟨i, name, answer, written⟩ :=
          ⟨f.config, by rw [List.getElem?_map, hf, Option.map_some], hname⟩
        refine ⟨hrest.stopped, hchanges.same.trans hrest.same, fun j => ?_, ?_⟩
        · rw [hrest.filters j, hattempts]
          by_cases hj : j = i
          · rw [hj]
            refine iff_of_true (.inl ⟨⟨i, name, answer, written⟩, by simp, rfl⟩) (.inr ⟨?_, ?_⟩)
            · exact ⟨k, List.mem_cons_self⟩
            · exact ⟨f, hf, by simp [hname], hskip⟩
          · rw [hchanges.storable hj]
            have hold : (∃ a ∈ s.attempts ++ [⟨i, name, answer, written⟩], a.filter = j) ↔
                ∃ a ∈ s.attempts, a.filter = j := by
              simp only [List.mem_append, List.mem_singleton, or_and_right, exists_or,
                exists_eq_left, or_iff_left_iff_imp]
              exact fun heq => absurd heq.symm hj
            have hentries : (∃ l, (some j, l) ∈ (some i, k) :: entries) ↔
                ∃ l, (some j, l) ∈ entries := by
              simp only [List.mem_cons, Prod.mk.injEq, Option.some.injEq, hj, false_and, false_or]
            rw [hold, hentries]
        · intro a ha
          rcases hrest.attempts a ha with hmem | ⟨⟨config, hconfig, hrecord⟩, hdone⟩
          · rw [hattempts] at hmem
            rcases List.mem_append.mp hmem with hmem | hmem
            · exact .inl hmem
            · rw [List.mem_singleton.mp hmem]
              exact .inr ⟨hown, hwritten⟩
          · rw [hchanges.same.configs] at hconfig
            exact .inr ⟨⟨config, hconfig, hrecord⟩, hdone⟩

end WriteState

end Loop

end MctDaemon.Logstorage
