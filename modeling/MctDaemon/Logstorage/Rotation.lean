import MctDaemon.Lib.Run
import MctDaemon.Logstorage.LogFileNames

/-!
The filters of one device, which share a directory. Whose log file a file is, is
decided by the start of its name. As long as no filter counts a file that is not
built from its own file name, each counts and removes files of its own only.
-/

namespace MctDaemon.Logstorage

open Lib

structure LogStorage where
  store : FileStore
  configs : List MctLogStorageFileConfig
  deriving DecidableEq, Repr

/-- A filter opens its log file for a message, or data is written to the file that
it has opened. -/
inductive LogFileOp where
  | openLog (filter : Nat) (time : MctLogStorageUserConfig.Tm) (msgSize : Int)
  | writeLog (filter : Nat) (data : List UInt8)
  deriving DecidableEq, Repr

/-- The files that were counted and removed for a filter. -/
structure LogFileEvent where
  filter : Nat
  counted : List FilePath
  removed : List FilePath
  deriving DecidableEq, Repr

def removedPaths (calls : List FileCall) : List FilePath :=
  calls.filterMap fun
    | .remove path => some path
    | _ => none

namespace MctLogStorageUserConfig

/-- One call of `mct_logstorage_open_log_file`, or what happens between two. -/
def logFileStep (fileConfig : MctLogStorageUserConfig) (storage : LogStorage) :
    LogFileOp → LogFileEvent × LogStorage
  | .openLog filter time msgSize =>
      match storage.configs[filter]? with
      | none => (⟨filter, [], []⟩, storage)
      | some config =>
          let (_, config', calls) :=
            fileConfig.openLogFile time.print msgSize true false storage.store config
          let counted := fileConfig.storageDirInfo storage.store config.fileName config.numFiles
          (⟨filter, counted.map fun record => resolve record.name, removedPaths calls⟩,
            ⟨runCalls storage.store calls, storage.configs.set filter config'⟩)
  | .writeLog filter data =>
      (⟨filter, [], []⟩,
        match storage.configs[filter]?.bind MctLogStorageFileConfig.log with
        | some path =>
            if path ∈ storage.store.paths then
              { storage with store := storage.store.append path data }
            else storage
        | none => storage)

/-- The name of the file is built from the file name of the filter. -/
def BuiltFor (fileConfig : MctLogStorageUserConfig) (config : MctLogStorageFileConfig)
    (path : FilePath) : Prop :=
  ∃ idx ≤ uintMax, ∃ time : Tm,
    path = fileConfig.logPath config.fileName config.numFiles idx time.print

/-- The name of the file is built from the file name of this filter and from that of
no other. -/
def OwnFile (fileConfig : MctLogStorageUserConfig) (configs : List MctLogStorageFileConfig)
    (filter : Nat) (path : FilePath) : Prop :=
  (∃ config, configs[filter]? = some config ∧ fileConfig.BuiltFor config path) ∧
    ∀ other config, configs[other]? = some config → other ≠ filter →
      ¬ fileConfig.BuiltFor config path

def NewIdx (fileConfig : MctLogStorageUserConfig) (idx : Nat) : Prop :=
  1 ≤ idx ∧ idx ≤ max 1 fileConfig.logfileMaxcounter

/-- The file is counted for the filter. -/
def Counts (fileConfig : MctLogStorageUserConfig) (config : MctLogStorageFileConfig)
    (path : FilePath) : Prop :=
  (fileConfig.countedIdx config.fileName config.numFiles path).isSome

/-- What the filters count on the device is their own, and new files of one are not
taken for those of another. -/
structure OwnFilesOnly (fileConfig : MctLogStorageUserConfig) (storage : LogStorage) : Prop where
  proper : ∀ path ∈ storage.store.paths, ∀ part ∈ path, ProperName part
  stored : ∀ path ∈ storage.store.paths, ∀ filter config, storage.configs[filter]? = some config →
    fileConfig.Counts config path → fileConfig.OwnFile storage.configs filter path
  apart : ∀ (filter other : Nat) (config config' : MctLogStorageFileConfig),
    storage.configs[filter]? = some config → storage.configs[other]? = some config' →
      other ≠ filter → ∀ idx (time : Tm), fileConfig.NewIdx idx →
        let path := fileConfig.logPath config.fileName config.numFiles idx time.print
        ¬ fileConfig.Counts config' path ∧ ¬ fileConfig.BuiltFor config' path

section Calls

variable {fileConfig : MctLogStorageUserConfig} {store : FileStore}
  {config : MctLogStorageFileConfig}

theorem mem_paths_put {path other : FilePath} {content : List UInt8}
    (h : other ∈ (FileStore.put path content store).paths) :
    other = path ∨ other ∈ store.paths := by
  rw [← FileStore.lookup_isSome_iff, FileStore.lookup_put] at h
  split at h
  · next hsame => exact .inl hsame
  · exact .inr ((FileStore.lookup_isSome_iff _).mp h)

theorem mem_paths_remove {path other : FilePath} (h : other ∈ (store.remove path).paths) :
    other ∈ store.paths := by
  rw [← FileStore.lookup_isSome_iff, FileStore.lookup_remove] at h
  split at h
  · cases h
  · exact (FileStore.lookup_isSome_iff _).mp h

/-- A new file is one that was opened. -/
theorem mem_paths_runCalls {calls : List FileCall} {path : FilePath}
    (h : path ∈ (runCalls store calls).paths) :
    path ∈ store.paths ∨ .openAppend path ∈ calls ∨ .openTruncate path ∈ calls := by
  induction calls generalizing store with
  | nil => exact .inl h
  | cons call calls ih =>
      rcases ih h with hrun | hopen
      · cases call with
        | openAppend other =>
            rcases mem_paths_put hrun with rfl | hstored
            · exact .inr (.inl List.mem_cons_self)
            · exact .inl hstored
        | openTruncate other =>
            rcases mem_paths_put hrun with rfl | hstored
            · exact .inr (.inr List.mem_cons_self)
            · exact .inl hstored
        | remove other => exact .inl (mem_paths_remove hrun)
      · exact .inr (hopen.imp (List.mem_cons_of_mem _) (List.mem_cons_of_mem _))

def Created (fileConfig : MctLogStorageUserConfig) (config : MctLogStorageFileConfig)
    (path : FilePath) : Prop :=
  ∃ idx, fileConfig.NewIdx idx ∧ ∃ time : Tm,
    path = fileConfig.logPath config.fileName config.numFiles idx time.print

/-- The calls that a filter may make: it opens stored files and those it makes, and
removes those it has counted or makes. -/
def Permitted (fileConfig : MctLogStorageUserConfig) (store : FileStore)
    (config : MctLogStorageFileConfig) : FileCall → Prop
  | .openAppend path => path ∈ store.paths ∨ fileConfig.Created config path
  | .openTruncate path => fileConfig.Created config path
  | .remove path => fileConfig.Created config path ∨
      path ∈ (fileConfig.storageDirInfo store config.fileName config.numFiles).map
        fun record => resolve record.name

theorem nextIdx_new (idx wrapId : Nat) : fileConfig.NewIdx (fileConfig.nextIdx idx wrapId).1 := by
  unfold nextIdx NewIdx
  simp only
  split
  · exact ⟨le_refl 1, le_max_left _ _⟩
  · next hno =>
      rw [not_or, not_lt] at hno
      exact ⟨Nat.one_le_iff_ne_zero.mpr hno.2, hno.1.trans (le_max_right _ _)⟩

theorem rotateLogFile_permitted (time : Tm) (working : List Char) (ret : Int)
    (hrecords : config.records =
      fileConfig.storageDirInfo store config.fileName config.numFiles) :
    let result := fileConfig.rotateLogFile time.print store config working ret
    result.2.1.fileName = config.fileName ∧ result.2.1.numFiles = config.numFiles ∧
      ∀ call ∈ result.2.2, Permitted fileConfig store config call := by
  intro result
  have hresult : result = fileConfig.rotateLogFile time.print store config working ret := rfl
  generalize result = result at hresult ⊢
  subst hresult
  unfold rotateLogFile
  simp only
  split
  · exact ⟨rfl, rfl, by simp⟩
  · generalize hidx : fileConfig.nextIdx (fileConfig.workingIdx config.numFiles working)
      config.wrapId = next
    obtain ⟨idx, wrapId⟩ := next
    simp only
    have hnew : fileConfig.Created config
        (resolve (fileConfig.logFileName config.fileName config.numFiles idx time.print)) := by
      refine ⟨idx, ?_, time, rfl⟩
      have hnext := @nextIdx_new fileConfig (fileConfig.workingIdx config.numFiles working)
        config.wrapId
      rwa [hidx] at hnext
    generalize fileConfig.logFileName config.fileName config.numFiles idx time.print = fileName
      at hnew
    generalize decide (wrapId ≠ 0 ∧ (store.lookup (resolve fileName)).isSome = true) = reused
    generalize config.records.length - (if reused = true then 1 else 0) + 1 = numLogFiles
    have hremoved : ∀ call ∈ (if reused = true then [FileCall.remove (resolve fileName)] else []),
        Permitted fileConfig store config call := by
      intro call hcall
      split at hcall
      · rw [List.mem_singleton.mp hcall]
        exact .inl hnew
      · cases hcall
    have holdest : Permitted fileConfig store config (.remove (resolve
        (((config.records ++ [(⟨fileName, idx⟩ : MctLogStorageFileList)]).head?.map
          MctLogStorageFileList.name).getD []))) := by
      cases hlist : config.records with
      | nil => exact .inl hnew
      | cons oldest rest =>
          refine .inr ?_
          rw [← hrecords, hlist]
          exact List.mem_cons_self
    generalize (if reused = true then [FileCall.remove (resolve fileName)] else []) = removed
      at hremoved ⊢
    split
    · refine ⟨rfl, rfl, ?_⟩
      intro call hcall
      rcases List.mem_append.mp hcall with hfirst | hcall
      · exact hremoved call hfirst
      · rcases List.mem_cons.mp hcall with rfl | hcall
        · exact hnew
        · rw [List.mem_singleton.mp hcall]
          exact holdest
    · refine ⟨rfl, rfl, ?_⟩
      intro call hcall
      rcases List.mem_append.mp hcall with hfirst | hcall
      · exact hremoved call hfirst
      · rw [List.mem_singleton.mp hcall]
        exact hnew

/-- Every call that `openLogFile` makes is permitted. -/
theorem openLogFile_permitted (time : Tm) (msgSize : Int) :
    let result := fileConfig.openLogFile time.print msgSize true false store config
    result.2.1.fileName = config.fileName ∧ result.2.1.numFiles = config.numFiles ∧
      ∀ call ∈ result.2.2, Permitted fileConfig store config call := by
  intro result
  have hresult : result = fileConfig.openLogFile time.print msgSize true false store config := rfl
  generalize result = result at hresult ⊢
  subst hresult
  unfold openLogFile
  simp only [or_true, if_true]
  split
  · refine ⟨rfl, rfl, ?_⟩
    intro call hcall
    rw [List.mem_singleton.mp hcall]
    exact .inr ⟨1, ⟨le_refl 1, le_max_left _ _⟩, time, rfl⟩
  · next newest _ =>
      have hrotate : ∀ working workingFileName ret,
          let result := fileConfig.rotateLogFile time.print store
            { config with
              records := fileConfig.storageDirInfo store config.fileName config.numFiles
              workingFileName := workingFileName } working ret
          result.2.1.fileName = config.fileName ∧ result.2.1.numFiles = config.numFiles ∧
            ∀ call ∈ result.2.2, Permitted fileConfig store config call :=
        fun working _ ret => rotateLogFile_permitted time working ret rfl
      split
      · exact hrotate _ _ _
      · next content hcontent =>
          split
          · refine ⟨rfl, rfl, ?_⟩
            intro call hcall
            rw [List.mem_singleton.mp hcall]
            exact .inl (FileStore.mem_paths_of_lookup hcontent)
          · exact hrotate _ _ _

end Calls

section Run

variable {fileConfig : MctLogStorageUserConfig}

/-- The file names and the numbers of files of the filters. -/
def fileNames (configs : List MctLogStorageFileConfig) : List (List Char × Nat) :=
  configs.map fun config => (config.fileName, config.numFiles)

/-- The filter as it was at the start has the same file name. -/
theorem exists_initial {configs initial : List MctLogStorageFileConfig}
    (h : fileNames configs = fileNames initial) {filter : Nat} {config : MctLogStorageFileConfig}
    (hget : configs[filter]? = some config) :
    ∃ config', initial[filter]? = some config' ∧ config'.fileName = config.fileName ∧
      config'.numFiles = config.numFiles := by
  have hname := congrArg (fun names => names[filter]?) h
  simp only [fileNames, List.getElem?_map, hget, Option.map_some] at hname
  obtain ⟨config', hget', hsame⟩ := Option.map_eq_some_iff.mp hname.symm
  exact ⟨config', hget', (Prod.mk.inj hsame).1, (Prod.mk.inj hsame).2⟩

theorem fileNames_set {configs : List MctLogStorageFileConfig} {filter : Nat}
    {config after : MctLogStorageFileConfig} (hget : configs[filter]? = some config)
    (hname : after.fileName = config.fileName) (hfiles : after.numFiles = config.numFiles) :
    fileNames (configs.set filter after) = fileNames configs := by
  unfold fileNames
  rw [List.map_set, hname, hfiles]
  refine List.ext_getElem? fun k => ?_
  rw [List.getElem?_set]
  split
  · next hk =>
      subst hk
      obtain ⟨hlt, hvalue⟩ := List.getElem?_eq_some_iff.mp hget
      rw [if_pos (by rw [List.length_map]; exact hlt), List.getElem?_map, hget, Option.map_some]
  · rfl

/-- The invariant of the run: the file names are those of the start, and what is
counted belongs to the filter. -/
structure KeepsApart (fileConfig : MctLogStorageUserConfig)
    (initial : List MctLogStorageFileConfig) (events : List LogFileEvent) (storage : LogStorage) :
    Prop where
  names : fileNames storage.configs = fileNames initial
  proper : ∀ path ∈ storage.store.paths, ∀ part ∈ path, ProperName part
  stored : ∀ path ∈ storage.store.paths, ∀ (filter : Nat) config, initial[filter]? = some config →
    fileConfig.Counts config path → fileConfig.OwnFile initial filter path
  events : ∀ event ∈ events, ∀ path ∈ event.counted ++ event.removed,
    fileConfig.OwnFile initial event.filter path

variable {initial : LogStorage}

/-- A file that a filter makes is its own. -/
theorem Created.ownFile (h : fileConfig.OwnFilesOnly initial)
    (hmaximum : fileConfig.logfileMaxcounter ≤ uintMax) {filter : Nat}
    {config : MctLogStorageFileConfig} (hget : initial.configs[filter]? = some config)
    {path : FilePath} (hcreated : fileConfig.Created config path) :
    fileConfig.OwnFile initial.configs filter path := by
  obtain ⟨idx, hidx, time, rfl⟩ := hcreated
  have hbound : idx ≤ uintMax := hidx.2.trans (max_le (by decide) hmaximum)
  refine ⟨⟨config, hget, idx, hbound, time, rfl⟩, ?_⟩
  intro other config' hget' hne
  exact (h.apart filter other config config' hget hget' hne idx time hidx).2

/-- Whoever counts a file that a filter makes is this filter. -/
theorem Created.stored (h : fileConfig.OwnFilesOnly initial)
    (hmaximum : fileConfig.logfileMaxcounter ≤ uintMax) {filter : Nat}
    {config : MctLogStorageFileConfig} (hget : initial.configs[filter]? = some config)
    {path : FilePath} (hcreated : fileConfig.Created config path) {other : Nat}
    {config' : MctLogStorageFileConfig} (hget' : initial.configs[other]? = some config')
    (hcounts : fileConfig.Counts config' path) :
    fileConfig.OwnFile initial.configs other path := by
  by_cases hsame : other = filter
  · subst hsame
    exact hcreated.ownFile h hmaximum hget
  · obtain ⟨idx, hidx, time, rfl⟩ := hcreated
    exact absurd hcounts (h.apart filter other config config' hget hget' hsame idx time hidx).1

/-- What a scan counts is on the device. -/
theorem mem_storageDirInfo {store : FileStore} {fileName : List Char} {numFiles : Nat}
    (hproper : ∀ path ∈ store.paths, ∀ part ∈ path, ProperName part) {path : FilePath}
    (h : path ∈ (fileConfig.storageDirInfo store fileName numFiles).map
      fun record => resolve record.name) :
    path ∈ store.paths ∧ (fileConfig.countedIdx fileName numFiles path).isSome := by
  obtain ⟨record, hrecord, rfl⟩ := List.mem_map.mp h
  obtain ⟨path, hstored, hcounted, hname⟩ :=
    mem_scanRecords.mp ((storageDirInfo_perm _ _ _ _).mem_iff.mp hrecord)
  obtain ⟨dName, rfl, _⟩ := exists_entry hcounted
  rw [hname, pathRecordName_append,
    resolve_recordName _ (hproper _ hstored dName (by simp))]
  exact ⟨hstored, by rw [← nameDirectory, hcounted]; rfl⟩

theorem keepsApart_step (h : fileConfig.OwnFilesOnly initial)
    (hmaximum : fileConfig.logfileMaxcounter ≤ uintMax) {events : List LogFileEvent}
    {storage : LogStorage} (hstorage : KeepsApart fileConfig initial.configs events storage)
    (op : LogFileOp) :
    KeepsApart fileConfig initial.configs (events ++ [(fileConfig.logFileStep storage op).1])
      (fileConfig.logFileStep storage op).2 := by
  have hnothing : ∀ filter, ∀ event ∈ events ++ [(⟨filter, [], []⟩ : LogFileEvent)],
      ∀ path ∈ event.counted ++ event.removed,
        fileConfig.OwnFile initial.configs event.filter path := by
    intro filter event hevent path hpath
    rcases List.mem_append.mp hevent with hbefore | hlast
    · exact hstorage.events event hbefore path hpath
    · rw [List.mem_singleton.mp hlast] at hpath
      cases hpath
  cases op with
  | writeLog filter data =>
      unfold logFileStep
      simp only
      split
      · next path hlog =>
          split
          · next hpath =>
              have hpaths : (storage.store.append path data).paths = storage.store.paths := by
                rw [FileStore.append, FileStore.paths_put, if_pos hpath]
              refine ⟨hstorage.names, ?_, ?_, hnothing filter⟩
              · rw [hpaths]
                exact hstorage.proper
              · rw [hpaths]
                exact hstorage.stored
          · exact ⟨hstorage.names, hstorage.proper, hstorage.stored, hnothing filter⟩
      · exact ⟨hstorage.names, hstorage.proper, hstorage.stored, hnothing filter⟩
  | openLog filter time msgSize =>
      unfold logFileStep
      simp only
      cases hget : storage.configs[filter]? with
      | none => exact ⟨hstorage.names, hstorage.proper, hstorage.stored, hnothing filter⟩
      | some config =>
          simp only
          obtain ⟨config', hget', hname, hfiles⟩ := exists_initial hstorage.names hget
          obtain ⟨hname', hfiles', hcalls⟩ :=
            @openLogFile_permitted fileConfig storage.store config time msgSize
          generalize fileConfig.openLogFile time.print msgSize true false storage.store config =
            result at hname' hfiles' hcalls ⊢
          obtain ⟨ret, after, calls⟩ := result
          simp only at hname' hfiles' hcalls ⊢
          have hcreated :
              ∀ path, fileConfig.Created config path → fileConfig.Created config' path := by
            intro path hpath
            unfold Created at hpath ⊢
            rwa [hname, hfiles]
          have hcounted : ∀ path ∈ (fileConfig.storageDirInfo storage.store config.fileName
              config.numFiles).map fun record => resolve record.name,
              fileConfig.OwnFile initial.configs filter path := by
            intro path hpath
            obtain ⟨hstored, hcounts⟩ := mem_storageDirInfo hstorage.proper hpath
            refine hstorage.stored path hstored filter config' hget' ?_
            rwa [Counts, hname, hfiles]
          have hnew : ∀ path ∈ (runCalls storage.store calls).paths,
              path ∈ storage.store.paths ∨ fileConfig.Created config' path := by
            intro path hpath
            rcases mem_paths_runCalls hpath with hstored | happend | htruncate
            · exact .inl hstored
            · exact (hcalls _ happend).imp_right (hcreated path)
            · exact .inr (hcreated path (hcalls _ htruncate))
          refine ⟨?_, ?_, ?_, ?_⟩
          · exact (fileNames_set hget hname' hfiles').trans hstorage.names
          · intro path hpath part hpart
            rcases hnew path hpath with hstored | ⟨idx, _, time', rfl⟩
            · exact hstorage.proper path hstored part hpart
            · exact proper_of_mem_resolve hpart
          · intro path hpath other config'' hget'' hcounts
            rcases hnew path hpath with hstored | hmade
            · exact hstorage.stored path hstored other config'' hget'' hcounts
            · exact hmade.stored h hmaximum hget' hget'' hcounts
          · intro event hevent path hpath
            rcases List.mem_append.mp hevent with hbefore | hlast
            · exact hstorage.events event hbefore path hpath
            · rw [List.mem_singleton.mp hlast] at hpath ⊢
              rcases List.mem_append.mp hpath with hpath | hpath
              · exact hcounted path hpath
              · obtain ⟨call, hcall, hremove⟩ := List.mem_filterMap.mp hpath
                cases call with
                | openAppend other => cases hremove
                | openTruncate other => cases hremove
                | remove other =>
                    rw [Option.some_inj] at hremove
                    subst hremove
                    rcases hcalls _ hcall with hmade | hfound
                    · exact (hcreated other hmade).ownFile h hmaximum hget'
                    · exact hcounted other hfound

/-- Every file that is counted or removed for a filter, in every run of calls for
filters on one device, has a name that is built from the file name of this filter
and of no other. -/
theorem rotation_keeps_to_own_files (hmaximum : fileConfig.logfileMaxcounter ≤ uintMax)
    (h : fileConfig.OwnFilesOnly initial) (ops : List LogFileOp) :
    ∀ event ∈ (runOps fileConfig.logFileStep initial ops).1,
      ∀ path ∈ event.counted ++ event.removed,
        fileConfig.OwnFile initial.configs event.filter path := by
  have hstart : KeepsApart fileConfig initial.configs [] initial :=
    ⟨rfl, h.proper, h.stored, by simp⟩
  have hrun := @runOps_replies _ _ _ fileConfig.logFileStep (fun _ _ => True)
    (KeepsApart fileConfig initial.configs)
    (fun events storage op hstorage _ => keepsApart_step h hmaximum hstorage op)
    [] initial hstart ops (guarded_true _ _ _)
  exact hrun.events

end Run

section Names

variable {fileConfig : MctLogStorageUserConfig}

def SameName (fileName other : List Char) : Prop :=
  nameDirectory fileName = nameDirectory other ∧ (scanParts fileName).2 = (scanParts other).2

instance (fileName other : List Char) : Decidable (SameName fileName other) :=
  inferInstanceAs (Decidable (_ ∧ _))

theorem front_eq_of_delimiter {front front' rest rest' : List Char}
    (hfront : fileConfig.logfileDelimiter ∉ front) (hfront' : fileConfig.logfileDelimiter ∉ front')
    (h : front ++ fileConfig.logfileDelimiter :: rest =
      front' ++ fileConfig.logfileDelimiter :: rest') : front = front' := by
  have hdrop := congrArg (fun s => (s.dropWhile fun c => c ≠ fileConfig.logfileDelimiter).length) h
  have hlength := congrArg List.length h
  simp only [dropWhile_delimiter hfront, dropWhile_delimiter hfront', List.length_append,
    List.length_cons] at hdrop hlength
  exact List.append_inj_left h (by omega)

/-- A file with an index of one file name is not counted for another one. -/
theorem RegularName.not_counted {fileName other : List Char}
    (h : RegularName fileConfig fileName) (h' : RegularName fileConfig other)
    (hname : ¬ SameName fileName other) {numFiles numFiles' : Nat}
    (hsingle : ¬ fileConfig.single numFiles) (hsingle' : ¬ fileConfig.single numFiles')
    {idx : Nat} (hidx : idx ≤ uintMax) {time : List Char} (htime : '/' ∉ time) :
    fileConfig.countedIdx other numFiles' (fileConfig.logPath fileName numFiles idx time) =
      none := by
  rw [Option.eq_none_iff_forall_ne_some]
  intro counted hcounted
  obtain ⟨dName, hpath, hentry⟩ := exists_entry hcounted
  rw [h.logPath_eq numFiles hidx htime] at hpath
  obtain ⟨hdirectory, hdName⟩ := List.append_inj' hpath rfl
  rw [List.singleton_inj] at hdName
  unfold entryIdx at hentry
  split at hentry
  · next hprefix =>
      simp only at hentry
      split at hentry
      · next hnext =>
          obtain ⟨rest, hrest⟩ := List.head?_eq_some_iff.mp hnext
          rw [eq_append_of_strncmpEq hprefix, hrest, logTail, if_neg hsingle, printIndex,
            List.cons_append] at hdName
          exact hname ⟨hdirectory, front_eq_of_delimiter h.cut.delimiter h'.cut.delimiter hdName⟩
      · cases hentry
  · cases hentry

theorem differ_of_pairwise {configs : List MctLogStorageFileConfig}
    (h : (configs.map MctLogStorageFileConfig.fileName).Pairwise
      fun fileName other => ¬ SameName fileName other)
    {filter other : Nat} {config config' : MctLogStorageFileConfig}
    (hget : configs[filter]? = some config) (hget' : configs[other]? = some config')
    (hne : other ≠ filter) : ¬ SameName config.fileName config'.fileName := by
  obtain ⟨hlt, rfl⟩ := List.getElem?_eq_some_iff.mp hget
  obtain ⟨hlt', rfl⟩ := List.getElem?_eq_some_iff.mp hget'
  rw [List.pairwise_map, List.pairwise_iff_getElem] at h
  rcases Nat.lt_or_gt_of_ne hne with hless | hless
  · rintro ⟨hdirectory, hname⟩
    exact h other filter hlt' hlt hless ⟨hdirectory.symm, hname.symm⟩
  · exact h filter other hlt hlt' hless

/-- Filters with different names without the delimiter, all with an index, and a
directory in which each file that is counted was built for its filter. -/
theorem ownFilesOnly_of_regular (hmaximum : fileConfig.logfileMaxcounter ≤ uintMax)
    {storage : LogStorage}
    (hproper : ∀ path ∈ storage.store.paths, ∀ part ∈ path, ProperName part)
    (hregular : ∀ config ∈ storage.configs, RegularName fileConfig config.fileName ∧
      ¬ fileConfig.single config.numFiles)
    (hnames : (storage.configs.map MctLogStorageFileConfig.fileName).Pairwise
      fun fileName other => ¬ SameName fileName other)
    (hstored : ∀ path ∈ storage.store.paths, ∀ config ∈ storage.configs,
      fileConfig.Counts config path → fileConfig.BuiltFor config path) :
    fileConfig.OwnFilesOnly storage := by
  have hnot : ∀ (filter other : Nat) (config config' : MctLogStorageFileConfig),
      storage.configs[filter]? = some config → storage.configs[other]? = some config' →
        other ≠ filter → ∀ idx ≤ uintMax, ∀ time : Tm, ¬ fileConfig.Counts config'
          (fileConfig.logPath config.fileName config.numFiles idx time.print) := by
    intro filter other config config' hget hget' hne idx hidx time hcounts
    obtain ⟨hname, hsingle⟩ := hregular config (List.mem_of_getElem? hget)
    obtain ⟨hname', hsingle'⟩ := hregular config' (List.mem_of_getElem? hget')
    rw [Counts, hname.not_counted hname' (differ_of_pairwise hnames hget hget' hne)
      hsingle hsingle' hidx (slash_print time)] at hcounts
    cases hcounts
  have hcounted : ∀ config ∈ storage.configs, ∀ path, fileConfig.BuiltFor config path →
      fileConfig.Counts config path := by
    rintro config hmem path ⟨idx, hidx, time, rfl⟩
    rw [Counts, (hregular config hmem).1.countedIdx_logPath _ hidx (slash_print time)]
    rfl
  refine ⟨hproper, ?_, ?_⟩
  · intro path hpath filter config hget hcounts
    refine ⟨⟨config, hget, hstored path hpath config (List.mem_of_getElem? hget) hcounts⟩, ?_⟩
    rintro other config' hget' hne ⟨idx, hidx, time, rfl⟩
    exact hnot other filter config' config hget' hget (Ne.symm hne) idx hidx time hcounts
  · intro filter other config config' hget hget' hne idx time hidx
    have hbound : idx ≤ uintMax := hidx.2.trans (max_le (by decide) hmaximum)
    have hcounts := hnot filter other config config' hget hget' hne idx hbound time
    exact ⟨hcounts, fun hbuilt => hcounts (hcounted config' (List.mem_of_getElem? hget') _ hbuilt)⟩

/-- A filter `log` with up to two files of ten bytes, and another one with one file. -/
def twoConfigs (other : List Char) : List MctLogStorageFileConfig :=
  [⟨['l', 'o', 'g'], none, 0, 10, 2, .discardOld, false, none, []⟩,
    ⟨other, none, 0, 10, 1, .discardOld, false, none, []⟩]

theorem plain_apart : plainUserConfig.OwnFilesOnly ⟨[], twoConfigs ['d', 'a', 't']⟩ := by
  have hdat : RegularName plainUserConfig ['d', 'a', 't'] :=
    ⟨by decide, by decide, by decide, by decide, by decide, by decide,
      fun idx _ => fits_of_width (by decide) (by decide) idx⟩
  refine ownFilesOnly_of_regular (by decide) (by simp [FileStore.paths]) ?_ (by decide +kernel)
    (by simp [FileStore.paths])
  simp only [twoConfigs, List.forall_mem_cons]
  exact ⟨⟨plain_log, by decide⟩, ⟨hdat, by decide⟩, by simp⟩

/-- Both filters open a file, and the first one a second time. -/
def sampleCalls : List LogFileOp :=
  let time : Tm := ⟨2024, 1, 31, 12, 5, 9⟩
  [.openLog 1 time 8, .writeLog 1 [1, 2, 3, 4, 5, 6, 7, 8], .openLog 0 time 8,
    .writeLog 0 [1, 2, 3, 4, 5, 6, 7, 8], .openLog 0 time 8]

theorem rotation_keeps_to_own_files_sample :
    plainUserConfig.OwnFilesOnly ⟨[], twoConfigs ['d', 'a', 't']⟩ ∧
      ∀ event ∈ (runOps plainUserConfig.logFileStep ⟨[], twoConfigs ['d', 'a', 't']⟩ sampleCalls).1,
        ∀ path ∈ event.counted ++ event.removed,
          plainUserConfig.OwnFile (twoConfigs ['d', 'a', 't']) event.filter path :=
  ⟨plain_apart, rotation_keeps_to_own_files (by decide) plain_apart sampleCalls⟩

/-- A filter `log_a` with one file and no index: its file is counted and removed for
the filter `log`. -/
theorem other_filter_removed :
    let fileConfig := { plainUserConfig with logfileOptionalCounter := true }
    let path := fileConfig.logPath ['l', 'o', 'g', '_', 'a'] 1 1 []
    (∀ idx, fileConfig.countedIdx ['l', 'o', 'g', '_', 'a'] 1
        (fileConfig.logPath ['l', 'o', 'g', '_', 'a'] 1 idx []) = some 1) ∧
      RegularName fileConfig ['l', 'o', 'g'] ∧
      ∃ event ∈ (runOps fileConfig.logFileStep ⟨[], twoConfigs ['l', 'o', 'g', '_', 'a']⟩
          sampleCalls).1,
        event.filter = 0 ∧ path ∈ event.removed ∧
          ¬ fileConfig.OwnFile (twoConfigs ['l', 'o', 'g', '_', 'a']) event.filter path := by
  intro fileConfig path
  refine ⟨?_, ?_, ⟨0, [[['l', 'o', 'g', '_', 'a', '.', 'm', 'c', 't']],
    [['l', 'o', 'g', '_', '0', '1', '.', 'm', 'c', 't']]], [path]⟩, by decide +kernel, rfl,
    List.mem_singleton.mpr rfl, ?_⟩
  · intro idx
    have hcounted : fileConfig.countedIdx ['l', 'o', 'g', '_', 'a'] 1 path = some 1 := by
      decide +kernel
    exact hcounted
  · exact ⟨plain_log.punct, plain_log.slash, plain_log.delimiter, plain_log.nonempty,
      plain_log.last, plain_log.short, plain_log.fits⟩
  · rintro ⟨_, hother⟩
    exact hother 1 _ rfl (by decide) ⟨1, by decide, ⟨2024, 1, 31, 12, 5, 9⟩, by decide +kernel⟩

end Names

end MctLogStorageUserConfig

end MctDaemon.Logstorage
