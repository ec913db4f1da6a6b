import MctDaemon.Lib.Run
import MctDaemon.Logstorage.LogFileNames

/-!
A filter that discards new messages when its files are full. The comparison of
the newest index with the number of files stops it in time as long as the files
that are counted have distinct indices from one to that number; no stored file is
then touched but to append to it.
-/

namespace MctDaemon.Logstorage

open Lib

namespace MctLogStorageUserConfig

/-- The counted files have distinct indices up to the number of files, and no index
wraps before. -/
structure WithinLimit (fileConfig : MctLogStorageUserConfig) (fileName : List Char) (numFiles : Nat)
    (store : FileStore) : Prop where
  maximum : numFiles ≤ fileConfig.logfileMaxcounter
  range : ∀ path ∈ store.paths, ∀ idx ∈ fileConfig.countedIdx fileName numFiles path,
    1 ≤ idx ∧ idx ≤ numFiles
  unique : ∀ path ∈ store.paths, ∀ path' ∈ store.paths,
    ∀ idx ∈ fileConfig.countedIdx fileName numFiles path,
      idx ∈ fileConfig.countedIdx fileName numFiles path' → path = path'

/-- The log files that the filter builds are counted and traced back. -/
def OwnCounted (fileConfig : MctLogStorageUserConfig) (fileName : List Char) (numFiles : Nat) :
    Prop :=
  ∀ idx (time : Tm), 1 ≤ idx → idx ≤ numFiles →
    fileConfig.countedIdx fileName numFiles
        (fileConfig.logPath fileName numFiles idx time.print) = some idx ∧
      fileConfig.Traceable fileName numFiles (fileConfig.logPath fileName numFiles idx time.print)

theorem RegularName.ownCounted {fileConfig : MctLogStorageUserConfig} {fileName : List Char}
    (h : RegularName fileConfig fileName) {numFiles : Nat} (hfiles : numFiles ≤ uintMax) :
    fileConfig.OwnCounted fileName numFiles := by
  intro idx time hlow hhigh
  refine ⟨?_, h.traceable_logPath numFiles (hhigh.trans hfiles) (slash_print time)⟩
  rw [h.countedIdx_logPath numFiles (hhigh.trans hfiles) (slash_print time), ownIdx]
  split
  · next hsingle =>
      rw [single, Bool.and_eq_true, decide_eq_true_eq] at hsingle
      exact congrArg some (by omega)
  · rfl

/-- The store of a filter that discards new messages. -/
structure LimitedStore (fileConfig : MctLogStorageUserConfig) (fileName : List Char)
    (numFiles : Nat) (store : FileStore) : Prop where
  distinct : store.Distinct
  traceable : ∀ path ∈ store.paths, fileConfig.Traceable fileName numFiles path
  limit : fileConfig.single numFiles ∨ fileConfig.WithinLimit fileName numFiles store

section Limit

variable {fileConfig : MctLogStorageUserConfig} {fileName : List Char} {numFiles : Nat}
  {store : FileStore}

theorem LimitedStore.records (h : fileConfig.LimitedStore fileName numFiles store) :
    RecordsOf fileConfig fileName numFiles store
      (fileConfig.storageDirInfo store fileName numFiles) :=
  (recordsOf_scanRecords fileConfig fileName numFiles h.distinct h.traceable).perm
    (storageDirInfo_perm fileConfig store fileName numFiles)

/-- The indices of the records are distinct. -/
theorem WithinLimit.nodup (h : fileConfig.WithinLimit fileName numFiles store)
    {records : List MctLogStorageFileList}
    (hrecords : RecordsOf fileConfig fileName numFiles store records) :
    (records.map MctLogStorageFileList.idx).Nodup := by
  have hdistinct := hrecords.distinct
  rw [List.Nodup, List.pairwise_map] at hdistinct ⊢
  refine hdistinct.imp_of_mem fun {a b} ha hb hne hidx => hne ?_
  have hb' := hrecords.counted b hb
  rw [← hidx] at hb'
  exact h.unique _ (hrecords.stored a ha) _ (hrecords.stored b hb) a.idx (hrecords.counted a ha) hb'

/-- With an index in range that is not taken, there are fewer records than files. -/
theorem WithinLimit.length_lt (h : fileConfig.WithinLimit fileName numFiles store)
    {records : List MctLogStorageFileList}
    (hrecords : RecordsOf fileConfig fileName numFiles store records) {free : Nat}
    (hlow : 1 ≤ free) (hhigh : free ≤ numFiles) (hfree : ∀ record ∈ records, record.idx ≠ free) :
    records.length < numFiles := by
  have hnodup : (free :: records.map MctLogStorageFileList.idx).Nodup := by
    rw [List.nodup_cons]
    refine ⟨?_, h.nodup hrecords⟩
    intro hmem
    obtain ⟨record, hrecord, hidx⟩ := List.mem_map.mp hmem
    exact hfree record hrecord hidx
  have hsubset : (free :: records.map MctLogStorageFileList.idx).toFinset ⊆
      Finset.Icc 1 numFiles := by
    intro idx hidx
    rw [List.mem_toFinset] at hidx
    rw [Finset.mem_Icc]
    rcases List.mem_cons.mp hidx with rfl | hmem
    · exact ⟨hlow, hhigh⟩
    · obtain ⟨record, hrecord, rfl⟩ := List.mem_map.mp hmem
      exact h.range _ (hrecords.stored record hrecord) _ (hrecords.counted record hrecord)
  have hcard := Finset.card_le_card hsubset
  rw [List.toFinset_card_of_nodup hnodup, Nat.card_Icc, List.length_cons, List.length_map] at hcard
  omega

/-- A file that the filter adds keeps the store within the limit. -/
theorem LimitedStore.add (h : fileConfig.LimitedStore fileName numFiles store) {path : FilePath}
    (htrace : fileConfig.Traceable fileName numFiles path) {idx : Nat}
    (hcounted : fileConfig.countedIdx fileName numFiles path = some idx)
    (hlow : 1 ≤ idx) (hhigh : idx ≤ numFiles)
    (hfree : ∀ other ∈ store.paths, other ≠ path →
      ¬ fileConfig.single numFiles → fileConfig.countedIdx fileName numFiles other ≠ some idx)
    (content : List UInt8) :
    fileConfig.LimitedStore fileName numFiles (FileStore.put path content store) := by
  have hmem : ∀ other, other ∈ (FileStore.put path content store).paths →
      other = path ∨ other ≠ path ∧ other ∈ store.paths := by
    intro other hother
    by_cases hsame : other = path
    · exact .inl hsame
    · rw [← FileStore.lookup_isSome_iff, FileStore.lookup_put, if_neg hsame,
        FileStore.lookup_isSome_iff] at hother
      exact .inr ⟨hsame, hother⟩
  refine ⟨h.distinct.put path content, ?_, ?_⟩
  · intro other hother
    rcases hmem other hother with rfl | ⟨_, hold⟩
    · exact htrace
    · exact h.traceable other hold
  · by_cases hsingle : fileConfig.single numFiles
    · exact .inl hsingle
    have hlimit := h.limit.resolve_left hsingle
    refine .inr ⟨hlimit.maximum, ?_, ?_⟩
    · intro other hother idx' hidx'
      rcases hmem other hother with rfl | ⟨_, hold⟩
      · rw [Option.mem_def, hcounted, Option.some_inj] at hidx'
        rw [← hidx']
        exact ⟨hlow, hhigh⟩
      · exact hlimit.range other hold idx' hidx'
    · intro other hother other' hother' idx' hidx' hidx''
      rcases hmem other hother with rfl | ⟨hne, hold⟩ <;>
        rcases hmem other' hother' with rfl | ⟨hne', hold'⟩
      · rfl
      · rw [Option.mem_def, hcounted] at hidx'
        rw [Option.mem_def, ← hidx'] at hidx''
        exact absurd hidx'' (hfree other' hold' hne' hsingle)
      · rw [Option.mem_def, hcounted] at hidx''
        rw [Option.mem_def, ← hidx''] at hidx'
        exact absurd hidx' (hfree other hold hne hsingle)
      · exact hlimit.unique other hold other' hold' idx' hidx' hidx''

/-- What is written to a stored file keeps the store within the limit. -/
theorem LimitedStore.put_stored (h : fileConfig.LimitedStore fileName numFiles store)
    {path : FilePath} (hpath : path ∈ store.paths) (content : List UInt8) :
    fileConfig.LimitedStore fileName numFiles (FileStore.put path content store) := by
  have hpaths : (FileStore.put path content store).paths = store.paths := by
    rw [FileStore.paths_put, if_pos hpath]
  refine ⟨h.distinct.put path content, ?_, ?_⟩
  · rw [hpaths]
    exact h.traceable
  · refine h.limit.imp_right fun hlimit => ⟨hlimit.maximum, ?_, ?_⟩
    · rw [hpaths]
      exact hlimit.range
    · rw [hpaths]
      exact hlimit.unique

end Limit

def SameSettings (config config' : MctLogStorageFileConfig) : Prop :=
  config'.fileName = config.fileName ∧ config'.fileSize = config.fileSize ∧
    config'.numFiles = config.numFiles ∧ config'.overwrite = config.overwrite

/-- Room for a message behind what a file holds. -/
def Fits (config : MctLogStorageFileConfig) (content : List UInt8) (msgSize : Int) : Prop :=
  content.length + msgSize ≤ (config.fileSize : Int).bmod 4294967296

/-- A filter that discards new messages has either stopped, or it has opened a file
to append to; the file is new only below the limit, and else it has room. -/
def OpenedOrStopped (fileConfig : MctLogStorageUserConfig) (store : FileStore)
    (config : MctLogStorageFileConfig) (msgSize : Int)
    (result : Int × MctLogStorageFileConfig × List FileCall) : Prop :=
  result.1 = 0 ∧ SameSettings config result.2.1 ∧ result.2.1.wrapId = 0 ∧
    (result.2.1.skip = true ∧ result.2.1.log = config.log ∧ result.2.2 = [] ∨
      ∃ path, result.2.1.skip = false ∧ result.2.1.log = some path ∧
        (fileConfig.countedIdx config.fileName config.numFiles path).isSome ∧
        runCalls store result.2.2 = store.openAppend path ∧
        fileConfig.LimitedStore config.fileName config.numFiles (store.openAppend path) ∧
        (config.numFiles ≤ (fileConfig.scanRecords store config.fileName config.numFiles).length →
          ∃ content, store.lookup path = some content ∧ Fits config content msgSize))

section Open

variable {fileConfig : MctLogStorageUserConfig} {store : FileStore}
  {config : MctLogStorageFileConfig}

theorem rotateLogFile_limited (hmaximum : fileConfig.logfileMaxcounter ≤ uintMax)
    (hown : fileConfig.OwnCounted config.fileName config.numFiles)
    (hstore : fileConfig.LimitedStore config.fileName config.numFiles store)
    (hwrap : config.wrapId = 0) (hskip : config.skip = false)
    (hdiscard : config.overwrite = .discardNew)
    (hrecords : config.records =
      fileConfig.storageDirInfo store config.fileName config.numFiles)
    {newest : MctLogStorageFileList} (hnewest : config.records.getLast? = some newest)
    (time : Tm) (msgSize : Int) :
    OpenedOrStopped fileConfig store config msgSize
      (fileConfig.rotateLogFile time.print store config newest.name 0) := by
  have hof := hstore.records
  rw [← hrecords] at hof
  have hmem := List.mem_of_getLast? hnewest
  have hidx := hof.working newest hmem
  unfold rotateLogFile
  simp only [hidx]
  by_cases hfull : config.numFiles = newest.idx
  · rw [if_pos ⟨hdiscard, hfull⟩]
    exact ⟨rfl, ⟨rfl, rfl, rfl, rfl⟩, hwrap, .inl ⟨rfl, rfl, rfl⟩⟩
  · rw [if_neg fun hboth => hfull hboth.2]
    have hsingle : ¬ fileConfig.single config.numFiles := by
      intro hsingle
      rw [workingIdx, if_pos hsingle] at hidx
      rw [single, Bool.and_eq_true, decide_eq_true_eq] at hsingle
      exact hfull (hsingle.1.trans hidx)
    have hlimit := hstore.limit.resolve_left hsingle
    have hrange := hlimit.range _ (hof.stored newest hmem) _ (hof.counted newest hmem)
    have hmax := hlimit.maximum
    unfold uintMax at hmaximum
    have hnext : fileConfig.nextIdx newest.idx config.wrapId = (newest.idx + 1, 0) := by
      unfold nextIdx
      rw [hwrap, Nat.mod_eq_of_lt (by omega)]
      exact if_neg (by omega)
    have hfree : ∀ record ∈ config.records, record.idx ≠ newest.idx + 1 := by
      have hscan := hlimit.nodup (recordsOf_scanRecords fileConfig config.fileName config.numFiles
        hstore.distinct hstore.traceable)
      rw [hrecords] at hnewest ⊢
      exact storageDirInfo_newest hscan hnewest
    obtain ⟨hcounted, htrace⟩ := hown (newest.idx + 1) time (by omega) (by omega)
    have hnew : fileConfig.logPath config.fileName config.numFiles (newest.idx + 1) time.print ∉
        store.paths := by
      intro hstored
      obtain ⟨record, hrecord, _, hsame⟩ := hof.complete _ hstored _ hcounted
      exact hfree record hrecord hsame
    have hnone := (FileStore.lookup_eq_none_iff _).mpr hnew
    have hlength := hlimit.length_lt hof (by omega) (by omega) hfree
    have hcount : (fileConfig.scanRecords store config.fileName config.numFiles).length =
        config.records.length := by
      rw [hrecords]
      exact (storageDirInfo_perm _ _ _ _).length_eq.symm
    simp only [hnext]
    rw [if_neg (by simp; omega)]
    refine ⟨rfl, ⟨rfl, rfl, rfl, rfl⟩, rfl, .inr ⟨_, hskip, rfl, ?_, ?_, ?_, ?_⟩⟩
    · rw [← logPath, hcounted]
      rfl
    · rw [← logPath, FileStore.openAppend, hnone]
      rfl
    · refine hstore.add htrace hcounted (by omega) (by omega) ?_ _
      intro other hother _ _ hsame
      obtain ⟨record, hrecord, _, hidx'⟩ := hof.complete other hother _ hsame
      exact hfree record hrecord hidx'
    · intro hreached
      omega

/-- What a call of `openLogFile` does for a filter that discards new messages. -/
theorem openLogFile_limited (hmaximum : fileConfig.logfileMaxcounter ≤ uintMax)
    (hfiles : 1 ≤ config.numFiles)
    (hown : fileConfig.OwnCounted config.fileName config.numFiles)
    (hstore : fileConfig.LimitedStore config.fileName config.numFiles store)
    (hwrap : config.wrapId = 0) (hskip : config.skip = false)
    (hdiscard : config.overwrite = .discardNew) (time : Tm) (msgSize : Int) :
    OpenedOrStopped fileConfig store config msgSize
      (fileConfig.openLogFile time.print msgSize true false store config) := by
  have hof := hstore.records
  have hcount : (fileConfig.scanRecords store config.fileName config.numFiles).length =
      (fileConfig.storageDirInfo store config.fileName config.numFiles).length :=
    (storageDirInfo_perm _ _ _ _).length_eq.symm
  unfold openLogFile
  simp only [or_true, if_true]
  cases hnewest : (fileConfig.storageDirInfo store config.fileName config.numFiles).getLast? with
  | none =>
      have hnil := List.getLast?_eq_none_iff.mp hnewest
      obtain ⟨hcounted, htrace⟩ := hown 1 time (by omega) hfiles
      refine ⟨rfl, ⟨rfl, rfl, rfl, rfl⟩, hwrap, .inr ⟨_, hskip, rfl, ?_, rfl, ?_, ?_⟩⟩
      · rw [← logPath, hcounted]
        rfl
      · refine hstore.add htrace hcounted (by omega) hfiles ?_ _
        intro other hother _ _ hsame
        obtain ⟨record, hrecord, _⟩ := hof.complete other hother _ hsame
        rw [hnil] at hrecord
        exact List.not_mem_nil hrecord
      · intro hreached
        rw [hcount, hnil, List.length_nil] at hreached
        omega
  | some newest =>
      have hmem := List.mem_of_getLast? hnewest
      have hstored := hof.stored newest hmem
      obtain ⟨content, hcontent⟩ :=
        Option.isSome_iff_exists.mp ((FileStore.lookup_isSome_iff _).mpr hstored)
      simp only [hwrap, if_true, hcontent]
      by_cases hfits : Fits config content msgSize
      · rw [if_pos (by simpa [Fits] using hfits)]
        refine ⟨rfl, ⟨rfl, rfl, rfl, rfl⟩, rfl, .inr ⟨_, hskip, rfl, ?_, rfl, ?_, ?_⟩⟩
        · rw [hof.counted newest hmem]
          rfl
        · exact hstore.put_stored hstored _
        · exact fun _ => ⟨content, hcontent, hfits⟩
      · rw [if_neg (by simpa [Fits] using hfits)]
        exact @rotateLogFile_limited fileConfig store
          { config with
            workingFileName := some newest.name
            wrapId := 0
            records := fileConfig.storageDirInfo store config.fileName config.numFiles }
          hmaximum hown hstore rfl hskip hdiscard rfl newest hnewest time msgSize

end Open

/-- A device with a filter that discards new messages. -/
structure DiscardingNew (fileConfig : MctLogStorageUserConfig) (device : MctLogStorageDevice) :
    Prop where
  strategy : device.config.overwrite = .discardNew
  files : 1 ≤ device.config.numFiles
  own : fileConfig.OwnCounted device.config.fileName device.config.numFiles
  store : fileConfig.LimitedStore device.config.fileName device.config.numFiles device.store
  wrapId : device.config.wrapId = 0
  newest : device.newest.wrapId = 0
  log : ∀ path ∈ device.config.log, path ∈ device.store.paths ∧
    (fileConfig.countedIdx device.config.fileName device.config.numFiles path).isSome

/-- The message is at the end of one file of the filter and nothing else has changed;
where the limit is reached, this file was there and had room. -/
def Appended (fileConfig : MctLogStorageUserConfig) (device device' : MctLogStorageDevice)
    (message : List UInt8) : Prop :=
  device'.config.skip = false ∧
    ∃ path, (fileConfig.countedIdx device.config.fileName device.config.numFiles path).isSome ∧
      (∀ other, device'.store.lookup other =
        if other = path then some ((device.store.lookup path).getD [] ++ message)
        else device.store.lookup other) ∧
      (device.config.numFiles ≤ (fileConfig.scanRecords device.store device.config.fileName
          device.config.numFiles).length →
        ∃ content, device.store.lookup path = some content ∧
          Fits device.config content message.length)

/-- Every file is still there and holds at least what it held. -/
def Grows (store store' : FileStore) : Prop :=
  ∀ path content, store.lookup path = some content →
    ∃ more, store'.lookup path = some (content ++ more)

theorem Grows.refl (store : FileStore) : Grows store store :=
  fun _ content hcontent => ⟨[], by rw [hcontent, List.append_nil]⟩

theorem Grows.trans {store store' store'' : FileStore} (h : Grows store store')
    (h' : Grows store' store'') : Grows store store'' := by
  intro path content hcontent
  obtain ⟨more, hmore⟩ := h path content hcontent
  obtain ⟨more', hmore'⟩ := h' path _ hmore
  exact ⟨more ++ more', by rw [hmore', List.append_assoc]⟩

section Write

variable {fileConfig : MctLogStorageUserConfig} {device : MctLogStorageDevice}

theorem write_of_skip (hskip : device.config.skip = true) (time : List Char)
    (message : List UInt8) : fileConfig.write device time message = device := by
  rw [write, if_pos hskip]

/-- What `prepareOnMsg` does for a filter that discards new messages: it has opened a
file or stopped, or it goes on with the file that is open, which has room. -/
theorem prepareOnMsg_limited (hmaximum : fileConfig.logfileMaxcounter ≤ uintMax)
    (h : DiscardingNew fileConfig device) (hskip : device.config.skip = false) (time : Tm)
    (msgSize : Int) :
    let result := fileConfig.prepareOnMsg time.print msgSize device.newest device.store
      device.config
    OpenedOrStopped fileConfig device.store { device.config with log := none } msgSize result ∨
      result = (0, device.config, []) ∧ ∃ path content, device.config.log = some path ∧
        device.store.lookup path = some content ∧ Fits device.config content msgSize := by
  intro result
  cases hlog : device.config.log with
  | none =>
      have hclosed : { device.config with log := none } = device.config := by rw [← hlog]
      have hresult : result = fileConfig.openLogFile time.print msgSize true false device.store
          device.config := by
        simp only [result, prepareOnMsg, hlog]
        rw [if_neg (by rw [h.wrapId, h.newest]; exact lt_irrefl 0)]
      rw [hclosed, hresult]
      exact .inl (openLogFile_limited hmaximum h.files h.own h.store h.wrapId hskip h.strategy
        time msgSize)
  | some path =>
      obtain ⟨hstored, _⟩ := h.log path hlog
      obtain ⟨content, hcontent⟩ :=
        Option.isSome_iff_exists.mp ((FileStore.lookup_isSome_iff _).mpr hstored)
      have hresult : result = fileConfig.prepareOnMsg time.print msgSize device.newest device.store
        device.config := rfl
      unfold prepareOnMsg at hresult
      simp only [hlog, hcontent] at hresult
      split at hresult
      · rw [if_pos (by rw [h.wrapId]; exact Nat.zero_le _)] at hresult
        rw [hresult]
        exact .inl (@openLogFile_limited fileConfig device.store
          (syncNewest device.newest { device.config with log := none })
          hmaximum h.files h.own h.store h.newest hskip h.strategy time msgSize)
      · next hgo =>
          rw [not_or, not_lt] at hgo
          exact .inr ⟨hresult, path, content, rfl, hcontent, hgo.1⟩

/-- A write to a filter that discards new messages. -/
theorem write_limited (hmaximum : fileConfig.logfileMaxcounter ≤ uintMax)
    (h : DiscardingNew fileConfig device) (hskip : device.config.skip = false) (time : Tm)
    (message : List UInt8) :
    let device' := fileConfig.write device time.print message
    DiscardingNew fileConfig device' ∧ SameSettings device.config device'.config ∧
      (device'.config.skip = true ∧ device'.store = device.store ∨
        Appended fileConfig device device' message) := by
  have hprepared := prepareOnMsg_limited hmaximum h hskip time message.length
  unfold write
  rw [if_neg (by rw [hskip]; decide)]
  generalize fileConfig.prepareOnMsg time.print message.length device.newest device.store
    device.config = result at hprepared
  obtain ⟨ret, config, calls⟩ := result
  simp only at hprepared ⊢
  rcases hprepared with ⟨hret, hsame, hwrap, hrest⟩ |
    ⟨hresult, path, content, hlog, hcontent, hfits⟩
  · simp only at hret hsame hwrap hrest
    obtain ⟨hname, hsize, hnum, hstrategy⟩ := id hsame
    simp only at hname hsize hnum hstrategy
    rcases hrest with ⟨hstop, hlog, hcalls⟩ | ⟨path, hgo, hlog, hcounted, hrun, hstore, hroom⟩
    · rw [if_pos ⟨hret, hstop⟩, hcalls]
      refine ⟨⟨?_, ?_, ?_, ?_, hwrap, h.newest, ?_⟩, hsame, .inl ⟨hstop, rfl⟩⟩
      · exact hstrategy.trans h.strategy
      · exact hnum.symm ▸ h.files
      · simp only [hname, hnum]
        exact h.own
      · simp only [hname, hnum]
        exact h.store
      · intro path hpath
        simp only [hlog] at hpath
        cases hpath
    · rw [if_neg (by simp [hgo]), if_pos hret, hlog, hrun]
      have hmem : path ∈ (device.store.openAppend path).paths := by
        rw [← FileStore.lookup_isSome_iff, FileStore.lookup_openAppend, if_pos rfl]
        rfl
      refine ⟨⟨?_, ?_, ?_, ?_, hwrap, hwrap, ?_⟩, hsame, .inr ⟨hgo, path, hcounted, ?_, hroom⟩⟩
      · exact hstrategy.trans h.strategy
      · exact hnum.symm ▸ h.files
      · simp only [hname, hnum]
        exact h.own
      · simp only [hname, hnum]
        exact hstore.put_stored hmem _
      · intro other hother
        simp only [hlog, Option.mem_def, Option.some_inj] at hother
        subst hother
        simp only [hname, hnum]
        refine ⟨?_, hcounted⟩
        rw [← FileStore.lookup_isSome_iff, FileStore.lookup_append, if_pos rfl]
        rfl
      · intro other
        rw [FileStore.lookup_append, FileStore.lookup_openAppend, FileStore.lookup_openAppend,
          if_pos rfl, Option.getD_some]
        split <;> rfl
  · obtain ⟨rfl, rfl, rfl⟩ := hresult
    obtain ⟨hstored, hcounted⟩ := h.log path hlog
    rw [if_neg (by simp [hskip]), if_pos rfl, hlog]
    refine ⟨⟨h.strategy, h.files, h.own, h.store.put_stored hstored _, h.wrapId, h.wrapId, ?_⟩,
      ⟨rfl, rfl, rfl, rfl⟩, .inr ⟨hskip, path, hcounted, ?_, fun _ => ⟨content, hcontent, hfits⟩⟩⟩
    · intro other hother
      simp only [hlog, Option.mem_def, Option.some_inj] at hother
      subst hother
      refine ⟨?_, hcounted⟩
      rw [← FileStore.lookup_isSome_iff, FileStore.lookup_append, if_pos rfl]
      rfl
    · intro other
      exact FileStore.lookup_append path message other

theorem writeStep_limited (hmaximum : fileConfig.logfileMaxcounter ≤ uintMax)
    (h : DiscardingNew fileConfig device) (message : StoredMessage) :
    let device' := (fileConfig.writeStep device message).2
    DiscardingNew fileConfig device' ∧
      (device'.config.skip = true ∧ device'.store = device.store ∨
        Appended fileConfig device device' message.data) := by
  by_cases hskip : device.config.skip = true
  · simp only [writeStep, write_of_skip hskip]
    exact ⟨h, .inl ⟨hskip, trivial⟩⟩
  · obtain ⟨hnext, _, hwritten⟩ :=
      write_limited hmaximum h (Bool.eq_false_iff.mpr hskip) message.time message.data
    exact ⟨hnext, hwritten⟩

theorem Appended.grows {device' : MctLogStorageDevice} {message : List UInt8}
    (h : Appended fileConfig device device' message) : Grows device.store device'.store := by
  obtain ⟨_, path, _, hlookup, _⟩ := h
  intro other content hcontent
  rw [hlookup]
  split
  · next hsame =>
      subst hsame
      exact ⟨message, by rw [hcontent, Option.getD_some]⟩
  · exact ⟨[], by rw [hcontent, List.append_nil]⟩

/-- A filter that has just been read, with up to `numFiles` files of ten bytes. -/
def freshDevice (store : FileStore) (numFiles : Nat) (overwrite : OverwriteStrategy) :
    MctLogStorageDevice where
  store := store
  config := ⟨['l', 'o', 'g'], none, 0, 10, numFiles, overwrite, false, none, []⟩
  newest := ⟨none, 0⟩
  prepareErrors := 0

/-- The log file with the index two. -/
def secondLog : StoredFile := ⟨[['l', 'o', 'g', '_', '0', '2', '.', 'm', 'c', 't']], [1, 2, 3, 4]⟩

def sampleMessage : StoredMessage := ⟨⟨2024, 1, 31, 12, 5, 9⟩, [5, 6, 7, 8, 9, 10, 11, 12]⟩

theorem second_log_limited :
    plainUserConfig.LimitedStore ['l', 'o', 'g'] 2 [secondLog] :=
  ⟨by decide, by decide +kernel, .inr ⟨by decide, by decide +kernel, by decide +kernel⟩⟩

end Write

end MctLogStorageUserConfig

end MctDaemon.Logstorage
