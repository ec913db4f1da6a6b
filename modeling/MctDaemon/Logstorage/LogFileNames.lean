import MctDaemon.Logstorage.LogFiles

/-!
Which files of a device a filter takes for its own, and with what index. Log
files with a file name without the delimiter are found under the paths of the
names that are built from it, and their index is read back from the name and from
the record of a scan.
-/

namespace MctDaemon.Logstorage

open Lib

namespace MctLogStorageUserConfig

def nameDirectory (fileName : List Char) : FilePath := resolve ((scanParts fileName).1.getD [])

def logPath (fileConfig : MctLogStorageUserConfig) (fileName : List Char) (numFiles idx : Nat)
    (time : List Char) : FilePath :=
  resolve (fileConfig.logFileName fileName numFiles idx time)

/-- The index that a file of the device is counted with, if it is taken for a log
file of the filter. -/
def countedIdx (fileConfig : MctLogStorageUserConfig) (fileName : List Char) (numFiles : Nat)
    (path : FilePath) : Option Nat :=
  if path.dropLast = nameDirectory fileName then
    path.getLast?.bind (fileConfig.entryIdx numFiles (scanParts fileName).2)
  else none

/-- File names that are found again: without the delimiter, not cut anywhere, and
not the name of a directory. -/
structure RegularName (fileConfig : MctLogStorageUserConfig) (fileName : List Char) : Prop where
  punct : isPunct fileConfig.logfileDelimiter
  slash : fileConfig.logfileDelimiter ≠ '/'
  delimiter : fileConfig.logfileDelimiter ∉ fileName
  nonempty : fileName ≠ []
  last : fileName.getLast? ≠ some '/'
  short : fileName.length ≤ maxFileNameLen
  fits : ∀ idx ≤ uintMax, fileName.length + (fileConfig.printIndex idx).length + timestampLen +
    suffix.length + 1 < mctMountPathMax

def timeStamp (fileConfig : MctLogStorageUserConfig) (time : List Char) : List Char :=
  if fileConfig.logfileTimestamp then (fileConfig.logfileDelimiter :: time).take timestampLen
  else []

/-- What a log file has behind the file name. -/
def logTail (fileConfig : MctLogStorageUserConfig) (numFiles idx : Nat) (time : List Char) :
    List Char :=
  (if fileConfig.single numFiles then [] else fileConfig.printIndex idx) ++
    (fileConfig.timeStamp time ++ suffix)

/-- How the file name is cut into a directory and a name in it. -/
structure CutName (fileConfig : MctLogStorageUserConfig) (fileName : List Char)
    (directory : Option (List Char)) (base : List Char) : Prop where
  nonempty : base ≠ []
  slash : '/' ∉ base
  delimiter : fileConfig.logfileDelimiter ∉ base
  path : ∀ tail, tail ≠ [] → '/' ∉ tail →
    resolve (fileName ++ tail) = resolve (directory.getD []) ++ [base ++ tail]
  recordFront : ∀ dName, ∃ front, recordName directory dName = front ++ dName ∧
    fileConfig.logfileDelimiter ∉ front

section Names

variable {fileConfig : MctLogStorageUserConfig} {fileName : List Char}

theorem proper_append {base tail : List Char} (hne : base ≠ []) (hslash : '/' ∉ base)
    (htail : tail ≠ []) (hslash' : '/' ∉ tail) : ProperName (base ++ tail) := by
  refine ⟨by simp [hne], ?_, by simp [hslash, hslash']⟩
  intro hdot
  have hlength := congrArg List.length hdot
  have hbase := List.length_pos_iff.mpr hne
  have htail' := List.length_pos_iff.mpr htail
  rw [List.length_append, List.length_singleton] at hlength
  omega

/-- The record of an entry leads back to it. -/
theorem resolve_recordName (directory : Option (List Char)) {dName : List Char}
    (hproper : ProperName dName) :
    resolve (recordName directory dName) = resolve (directory.getD []) ++ [dName] := by
  cases directory with
  | none => exact resolve_of_proper hproper
  | some directory =>
      rw [recordName, resolve_append, resolve_of_proper hproper]
      rfl

theorem RegularName.cut (h : RegularName fileConfig fileName) :
    CutName fileConfig fileName (scanParts fileName).1 (scanParts fileName).2 := by
  have htake : fileName.take maxFileNameLen = fileName := List.take_of_length_le h.short
  unfold scanParts
  simp only [htake]
  split
  · next hslash =>
      obtain ⟨s, base, hsplit, hne, hbase⟩ := exists_directory hslash h.last
      have hdelimiter := h.delimiter
      rw [hsplit, List.mem_append, List.mem_cons, not_or, not_or] at hdelimiter
      obtain ⟨hs, _, hbaseDelimiter⟩ := hdelimiter
      rw [hsplit]
      simp only [basename_eq hne hbase]
      refine ⟨hne, hbase, hbaseDelimiter, ?_, ?_⟩
      · intro tail htail htailSlash
        rw [List.append_assoc, List.cons_append, resolve_append,
          resolve_of_proper (proper_append hne hbase htail htailSlash), Option.getD_some,
          resolve_dirname hne hbase]
      · intro dName
        refine ⟨dirname (s ++ '/' :: base) ++ ['/'], by simp [recordName], ?_⟩
        intro hmem
        rcases List.mem_append.mp hmem with hmem | hmem
        · rcases List.mem_cons.mp (dirname_subset hne hbase hmem) with hsame | hmem
          · exact h.slash hsame
          · exact hs hmem
        · exact h.slash (List.mem_singleton.mp hmem)
  · next hslash =>
      refine ⟨h.nonempty, hslash, h.delimiter, ?_, ?_⟩
      · intro tail htail htailSlash
        rw [resolve_of_proper (proper_append h.nonempty hslash htail htailSlash)]
        rfl
      · exact fun dName => ⟨[], rfl, List.not_mem_nil⟩

theorem strncatPart_timeStamp (time : List Char) {n : Int} (hroom : timestampLen ≤ n) :
    (if fileConfig.logfileTimestamp then
      strncatPart ((fileConfig.logfileDelimiter :: time).take timestampLen) n else []) =
        fileConfig.timeStamp time := by
  unfold timeStamp
  split
  · rw [strncatPart, if_neg (by omega), List.take_take, Nat.min_eq_right (by omega)]
  · rfl

theorem RegularName.logFileName (h : RegularName fileConfig fileName) (numFiles : Nat) {idx : Nat}
    (hidx : idx ≤ uintMax) (time : List Char) :
    fileConfig.logFileName fileName numFiles idx time =
      fileName ++ fileConfig.logTail numFiles idx time := by
  have hfits := h.fits idx hidx
  have hshort := h.short
  have hname : fileName.length + fileName.length + suffix.length + 1 ≤ mctMountPathMax := by
    simp only [suffix, List.length_cons, List.length_nil, mctMountPathMax, maxFileNameLen] at *
    omega
  unfold MctLogStorageUserConfig.logFileName logTail
  by_cases hsingle : fileConfig.single numFiles
  · simp only [appendIndex_single hsingle hname, if_pos hsingle, List.nil_append]
    rw [strncatPart_timeStamp time (by omega), List.append_assoc]
  · have huncut : fileConfig.NotTruncated fileName idx := ⟨hname, by omega⟩
    simp only [appendIndex_eq hsingle huncut, if_neg hsingle]
    rw [strncatPart_timeStamp time (by omega), List.append_assoc, List.append_assoc]

theorem logTail_ne_nil (numFiles idx : Nat) (time : List Char) :
    fileConfig.logTail numFiles idx time ≠ [] := by
  intro hnil
  have hsuffix := (List.append_eq_nil_iff.mp (List.append_eq_nil_iff.mp hnil).2).2
  cases hsuffix

theorem not_mem_printPadded {c : Char} (hdigit : ¬ c.isDigit) (hminus : c ≠ '-') (width : Nat)
    (n : Int) : c ∉ printPadded width n := by
  have hdigits : ∀ k, c ∉ List.replicate k '0' ++ Nat.toDigits 10 n.natAbs := by
    intro k hmem
    rcases List.mem_append.mp hmem with hzero | hdigits
    · rw [List.eq_of_mem_replicate hzero] at hdigit
      exact hdigit rfl
    · exact hdigit (Nat.isDigit_of_mem_toDigits (by decide) (by decide) hdigits)
  unfold printPadded
  split
  · rw [List.mem_cons, not_or]
    exact ⟨hminus, hdigits _⟩
  · exact hdigits _

theorem length_printPadded_le {n : Int} (hlow : -10000000000 < n) (hhigh : n < 10000000000)
    (width : Nat) : (printPadded width n).length ≤ max width 11 := by
  have hdigits : (Nat.toDigits 10 n.natAbs).length ≤ 10 :=
    Nat.toDigits_length 10 n.natAbs 10 (by decide) (by omega)
  unfold printPadded
  split
  · rw [List.length_cons, List.length_append, List.length_replicate]
    omega
  · rw [List.length_append, List.length_replicate]
    omega

/-- A short name is not cut if its indices are not printed very wide. -/
theorem fits_of_width (hshort : fileName.length ≤ maxFileNameLen)
    (hwidth : fileConfig.indexWidth ≤ 800) (idx : Nat) :
    fileName.length + (fileConfig.printIndex idx).length + timestampLen + suffix.length + 1 <
      mctMountPathMax := by
  have hlow := Int.le_bmod (x := (idx : Int)) (m := 4294967296) (by decide)
  have hhigh := Int.bmod_lt (x := (idx : Int)) (m := 4294967296) (by decide)
  have hprinted := length_printPadded_le (n := (idx : Int).bmod 4294967296)
    (by omega) (by omega) fileConfig.indexWidth
  rw [printIndex, List.length_cons]
  simp only [maxFileNameLen, timestampLen, suffix, List.length_cons, List.length_nil,
    mctMountPathMax] at *
  omega

theorem RegularName.slash_logTail (h : RegularName fileConfig fileName) (numFiles idx : Nat)
    {time : List Char} (htime : '/' ∉ time) : '/' ∉ fileConfig.logTail numFiles idx time := by
  have hindex : '/' ∉ fileConfig.printIndex idx := by
    rw [printIndex, List.mem_cons, not_or]
    exact ⟨Ne.symm h.slash, not_mem_printPadded (by decide) (by decide) _ _⟩
  have hstamp : '/' ∉ fileConfig.timeStamp time := by
    unfold timeStamp
    split
    · intro hmem
      rcases List.mem_cons.mp (List.take_subset _ _ hmem) with hsame | hmem
      · exact h.slash hsame.symm
      · exact htime hmem
    · exact List.not_mem_nil
  unfold logTail
  rw [List.mem_append, List.mem_append, not_or, not_or]
  refine ⟨?_, hstamp, by decide⟩
  split
  · exact List.not_mem_nil
  · exact hindex

/-- The log file with an index lies in the directory of the file name. -/
theorem RegularName.logPath_eq (h : RegularName fileConfig fileName) (numFiles : Nat) {idx : Nat}
    (hidx : idx ≤ uintMax) {time : List Char} (htime : '/' ∉ time) :
    fileConfig.logPath fileName numFiles idx time = nameDirectory fileName ++
      [(scanParts fileName).2 ++ fileConfig.logTail numFiles idx time] := by
  rw [logPath, h.logFileName numFiles hidx]
  exact h.cut.path _ (logTail_ne_nil numFiles idx time) (h.slash_logTail numFiles idx htime)

/-- The index of a name that is built from a text without the delimiter. -/
theorem getIdxOfLogFile_printIndex {front : List Char}
    (hfront : fileConfig.logfileDelimiter ∉ front)
    (hpunct : isPunct fileConfig.logfileDelimiter) {idx : Nat} (hidx : idx ≤ uintMax)
    (time : List Char) :
    fileConfig.getIdxOfLogFile (front ++ (fileConfig.printIndex idx ++
      (fileConfig.timeStamp time ++ suffix))) = idx := by
  obtain ⟨hlow, hhigh⟩ := bmod_bounds idx
  have hhead : ¬ (fileConfig.timeStamp time ++ suffix).head?.any Char.isDigit := by
    unfold timeStamp
    split
    · have hdelimiter := not_isDigit_of_isPunct hpunct
      simpa [timestampLen] using hdelimiter
    · decide
  rw [printIndex, List.cons_append, getIdxOfLogFile_eq hfront,
    strtol_printPadded _ hlow hhigh hhead, bmod_emod hidx]
  rfl

/-- The index that a log file is counted with. -/
def ownIdx (fileConfig : MctLogStorageUserConfig) (numFiles idx : Nat) : Nat :=
  if fileConfig.single numFiles then 1 else idx

theorem RegularName.entryIdx_own (h : RegularName fileConfig fileName) (numFiles : Nat) {idx : Nat}
    (hidx : idx ≤ uintMax) (time : List Char) :
    fileConfig.entryIdx numFiles (scanParts fileName).2
        ((scanParts fileName).2 ++ fileConfig.logTail numFiles idx time) =
      some (fileConfig.ownIdx numFiles idx) := by
  have hprefix : strncmpEq ((scanParts fileName).2 ++ fileConfig.logTail numFiles idx time)
      (scanParts fileName).2 (scanParts fileName).2.length = true := by
    simp [strncmpEq]
  unfold entryIdx ownIdx
  rw [if_pos hprefix, List.drop_left]
  by_cases hsingle : fileConfig.single numFiles
  · simp only [if_pos hsingle, logTail, List.nil_append, timeStamp]
    rw [if_pos]
    by_cases hstamp : fileConfig.logfileTimestamp
    · rw [if_pos hstamp]
      exact .inr ⟨hstamp, rfl⟩
    · rw [if_neg hstamp]
      exact .inl rfl
  · have hhead : (fileConfig.printIndex idx ++ (fileConfig.timeStamp time ++ suffix)).head? =
        some fileConfig.logfileDelimiter := by
      rw [printIndex, List.cons_append, List.head?_cons]
    simp only [if_neg hsingle, logTail]
    rw [if_pos hhead, getIdxOfLogFile_printIndex h.cut.delimiter h.punct hidx]

/-- The log file with an index is counted, and with this index. -/
theorem RegularName.countedIdx_logPath (h : RegularName fileConfig fileName) (numFiles : Nat)
    {idx : Nat} (hidx : idx ≤ uintMax) {time : List Char} (htime : '/' ∉ time) :
    fileConfig.countedIdx fileName numFiles (fileConfig.logPath fileName numFiles idx time) =
      some (fileConfig.ownIdx numFiles idx) := by
  rw [h.logPath_eq numFiles hidx htime, countedIdx, List.dropLast_concat, if_pos rfl,
    List.getLast?_concat, Option.bind_some, h.entryIdx_own numFiles hidx]

theorem eq_append_of_strncmpEq {s base : List Char} (h : strncmpEq s base base.length = true) :
    s = base ++ s.drop base.length := by
  simp only [strncmpEq, List.take_length, decide_eq_true_eq] at h
  conv_lhs => rw [← List.take_append_drop base.length s, h]

/-- The index of the working file, when it is named by a record. -/
theorem RegularName.workingIdx_recordName (h : RegularName fileConfig fileName) (numFiles : Nat)
    {dName : List Char} {idx : Nat}
    (hentry : fileConfig.entryIdx numFiles (scanParts fileName).2 dName = some idx) :
    fileConfig.workingIdx numFiles (recordName (scanParts fileName).1 dName) = idx := by
  unfold entryIdx at hentry
  split at hentry
  · next hprefix =>
      unfold workingIdx
      by_cases hsingle : fileConfig.single numFiles
      · simp only [if_pos hsingle] at hentry ⊢
        split at hentry
        · exact Option.some.inj hentry
        · cases hentry
      · simp only [if_neg hsingle] at hentry ⊢
        split at hentry
        · next hnext =>
            obtain ⟨front, hrecord, hfront⟩ := h.cut.recordFront dName
            obtain ⟨rest, hrest⟩ := List.head?_eq_some_iff.mp hnext
            have hsplit :
                dName = (scanParts fileName).2 ++ fileConfig.logfileDelimiter :: rest := by
              rw [← hrest, ← eq_append_of_strncmpEq hprefix]
            rw [← Option.some.inj hentry, hrecord, hsplit, ← List.append_assoc,
              getIdxOfLogFile_eq h.cut.delimiter, getIdxOfLogFile_eq]
            rw [List.mem_append, not_or]
            exact ⟨hfront, h.cut.delimiter⟩
        · cases hentry
  · cases hentry

/-- A printed time can stand in the name of a file. -/
theorem slash_print (time : Tm) : '/' ∉ time.print := by
  have hpart : ∀ (width : Nat) (n : Int), '/' ∉ printPadded width n :=
    not_mem_printPadded (by decide) (by decide)
  simp [Tm.print, hpart]

/-- A file name `log` with the default delimiter, two digits and no time stamp. -/
def plainUserConfig : MctLogStorageUserConfig where
  logfileTimestamp := false
  logfileDelimiter := '_'
  logfileMaxcounter := 99
  logfileCounteridxlen := 2
  logfileOptionalCounter := false

theorem plain_log : RegularName plainUserConfig ['l', 'o', 'g'] where
  punct := by decide
  slash := by decide
  delimiter := by decide
  nonempty := by decide
  last := by decide
  short := by decide
  fits := fun idx _ => fits_of_width (by decide) (by decide) idx


end Names

section Scan

variable {fileConfig : MctLogStorageUserConfig} {fileName : List Char} {store : FileStore}

def pathRecordName (fileName : List Char) (path : FilePath) : List Char :=
  recordName (scanParts fileName).1 (path.getLast?.getD [])

/-- If the file is counted, then its record leads back to it and to its index. -/
def Traceable (fileConfig : MctLogStorageUserConfig) (fileName : List Char) (numFiles : Nat)
    (path : FilePath) : Prop :=
  ∀ idx ∈ fileConfig.countedIdx fileName numFiles path,
    resolve (pathRecordName fileName path) = path ∧
      fileConfig.workingIdx numFiles (pathRecordName fileName path) = idx

instance (fileConfig : MctLogStorageUserConfig) (fileName : List Char) (numFiles : Nat)
    (path : FilePath) : Decidable (fileConfig.Traceable fileName numFiles path) :=
  match h : fileConfig.countedIdx fileName numFiles path with
  | none => isTrue (by rintro idx hidx; rw [h] at hidx; cases hidx)
  | some idx =>
      decidable_of_iff (resolve (pathRecordName fileName path) = path ∧
        fileConfig.workingIdx numFiles (pathRecordName fileName path) = idx)
        (by simp [Traceable, h])

theorem countedIdx_append {numFiles : Nat} (dName : List Char) :
    fileConfig.countedIdx fileName numFiles (nameDirectory fileName ++ [dName]) =
      fileConfig.entryIdx numFiles (scanParts fileName).2 dName := by
  rw [countedIdx, List.dropLast_concat, if_pos rfl, List.getLast?_concat, Option.bind_some]

theorem pathRecordName_append (front : FilePath) (dName : List Char) :
    pathRecordName fileName (front ++ [dName]) = recordName (scanParts fileName).1 dName := by
  rw [pathRecordName, List.getLast?_concat, Option.getD_some]

/-- A counted file lies in the directory of the file name. -/
theorem exists_entry {numFiles idx : Nat} {path : FilePath}
    (h : fileConfig.countedIdx fileName numFiles path = some idx) :
    ∃ dName, path = nameDirectory fileName ++ [dName] ∧
      fileConfig.entryIdx numFiles (scanParts fileName).2 dName = some idx := by
  unfold countedIdx at h
  split at h
  · next hdirectory =>
      obtain ⟨dName, hlast, hfound⟩ := Option.bind_eq_some_iff.mp h
      obtain ⟨front, rfl⟩ := List.getLast?_eq_some_iff.mp hlast
      rw [List.dropLast_concat] at hdirectory
      exact ⟨dName, by rw [hdirectory], hfound⟩
  · cases h

/-- The records of a scan are the files that are counted. -/
theorem mem_scanRecords {numFiles : Nat} {record : MctLogStorageFileList} :
    record ∈ fileConfig.scanRecords store fileName numFiles ↔
      ∃ path ∈ store.paths, fileConfig.countedIdx fileName numFiles path = some record.idx ∧
        record.name = pathRecordName fileName path := by
  unfold MctLogStorageUserConfig.scanRecords
  simp only [List.mem_filterMap, FileStore.mem_scandir, Option.map_eq_some_iff]
  constructor
  · rintro ⟨dName, hmem, idx, hidx, rfl⟩
    exact ⟨_, hmem, (countedIdx_append dName).trans hidx, (pathRecordName_append _ dName).symm⟩
  · rintro ⟨path, hmem, hidx, hname⟩
    obtain ⟨dName, rfl, hfound⟩ := exists_entry hidx
    rw [pathRecordName_append] at hname
    exact ⟨dName, hmem, record.idx, hfound, by rw [← hname]⟩

theorem RegularName.traceable (h : RegularName fileConfig fileName) (numFiles : Nat)
    {path : FilePath} (hproper : ∀ part ∈ path, ProperName part) :
    fileConfig.Traceable fileName numFiles path := by
  intro idx hidx
  obtain ⟨dName, rfl, hentry⟩ := exists_entry hidx
  rw [pathRecordName_append]
  exact ⟨resolve_recordName _ (hproper dName (by simp)), h.workingIdx_recordName numFiles hentry⟩

/-- The log files that are built from the name are traced back, too. -/
theorem RegularName.traceable_logPath (h : RegularName fileConfig fileName) (numFiles : Nat)
    {idx : Nat} (hidx : idx ≤ uintMax) {time : List Char} (htime : '/' ∉ time) :
    fileConfig.Traceable fileName numFiles (fileConfig.logPath fileName numFiles idx time) := by
  intro counted hcounted
  rw [Option.mem_def, h.countedIdx_logPath numFiles hidx htime, Option.some_inj] at hcounted
  have hproper := proper_append h.cut.nonempty h.cut.slash
    (@logTail_ne_nil fileConfig numFiles idx time) (h.slash_logTail numFiles idx htime)
  rw [h.logPath_eq numFiles hidx htime, pathRecordName, List.getLast?_concat, Option.getD_some,
    h.workingIdx_recordName numFiles (h.entryIdx_own numFiles hidx time)]
  exact ⟨resolve_recordName _ hproper, hcounted⟩

/-- What a list of records says about the files of the device: each record is a file
that is counted, under its path and with its index, and each such file has one. -/
structure RecordsOf (fileConfig : MctLogStorageUserConfig) (fileName : List Char) (numFiles : Nat)
    (store : FileStore) (records : List MctLogStorageFileList) : Prop where
  stored : ∀ record ∈ records, resolve record.name ∈ store.paths
  counted : ∀ record ∈ records,
    fileConfig.countedIdx fileName numFiles (resolve record.name) = some record.idx
  working : ∀ record ∈ records, fileConfig.workingIdx numFiles record.name = record.idx
  complete : ∀ path ∈ store.paths, ∀ idx, fileConfig.countedIdx fileName numFiles path = some idx →
    ∃ record ∈ records, resolve record.name = path ∧ record.idx = idx
  distinct : (records.map fun record => resolve record.name).Nodup

theorem RecordsOf.perm {numFiles : Nat} {records records' : List MctLogStorageFileList}
    (h : RecordsOf fileConfig fileName numFiles store records) (hperm : records'.Perm records) :
    RecordsOf fileConfig fileName numFiles store records' := by
  refine ⟨fun record hmem => h.stored record (hperm.mem_iff.mp hmem),
    fun record hmem => h.counted record (hperm.mem_iff.mp hmem),
    fun record hmem => h.working record (hperm.mem_iff.mp hmem), ?_, ?_⟩
  · intro path hpath idx hidx
    obtain ⟨record, hmem, hrecord⟩ := h.complete path hpath idx hidx
    exact ⟨record, hperm.mem_iff.mpr hmem, hrecord⟩
  · exact (hperm.map _).nodup_iff.mpr h.distinct

/-- The scan finds the files that are counted. -/
theorem recordsOf_scanRecords (fileConfig : MctLogStorageUserConfig) (fileName : List Char)
    (numFiles : Nat) (hdistinct : store.Distinct)
    (htrace : ∀ path ∈ store.paths, fileConfig.Traceable fileName numFiles path) :
    RecordsOf fileConfig fileName numFiles store
      (fileConfig.scanRecords store fileName numFiles) := by
  have hentry := @mem_scanRecords fileConfig fileName store numFiles
  refine ⟨?_, ?_, ?_, ?_, ?_⟩
  · intro record hmem
    obtain ⟨path, hstored, hidx, hname⟩ := hentry.mp hmem
    rwa [hname, (htrace path hstored _ hidx).1]
  · intro record hmem
    obtain ⟨path, hstored, hidx, hname⟩ := hentry.mp hmem
    rw [hname, (htrace path hstored _ hidx).1, hidx]
  · intro record hmem
    obtain ⟨path, hstored, hidx, hname⟩ := hentry.mp hmem
    rw [hname]
    exact (htrace path hstored _ hidx).2
  · intro path hpath idx hidx
    exact ⟨⟨pathRecordName fileName path, idx⟩, hentry.mpr ⟨path, hpath, hidx, rfl⟩,
      (htrace path hpath _ hidx).1, rfl⟩
  · have hpaths : (fileConfig.scanRecords store fileName numFiles).map
          (fun record => resolve record.name) =
        (store.scandir (nameDirectory fileName)).filterMap fun dName =>
          (fileConfig.entryIdx numFiles (scanParts fileName).2 dName).map fun _ =>
            nameDirectory fileName ++ [dName] := by
      unfold MctLogStorageUserConfig.scanRecords
      simp only [List.map_filterMap]
      refine List.filterMap_congr fun dName hmem => ?_
      rw [Option.map_map]
      cases hidx : fileConfig.entryIdx numFiles (scanParts fileName).2 dName with
      | none => rfl
      | some idx =>
          have hstored : nameDirectory fileName ++ [dName] ∈ store.paths :=
            FileStore.mem_scandir.mp hmem
          have htraced := htrace _ hstored idx ((countedIdx_append dName).trans hidx)
          rw [pathRecordName_append] at htraced
          exact congrArg some htraced.1
    rw [hpaths]
    refine List.Nodup.filterMap ?_ (FileStore.nodup_scandir hdistinct _)
    intro dName dName' path hpath hpath'
    obtain ⟨_, _, rfl⟩ := Option.map_eq_some_iff.mp (Option.mem_def.mp hpath)
    obtain ⟨_, _, hsame⟩ := Option.map_eq_some_iff.mp (Option.mem_def.mp hpath')
    simpa using hsame.symm

end Scan

section Order

def IncreasingIdx (records : List MctLogStorageFileList) : Prop :=
  (records.map MctLogStorageFileList.idx).Pairwise (· < ·)

theorem IncreasingIdx.last {records : List MctLogStorageFileList} (h : IncreasingIdx records)
    {newest : MctLogStorageFileList} (hnewest : records.getLast? = some newest) :
    ∀ record ∈ records, record.idx ≤ newest.idx := by
  intro record hmem
  obtain ⟨front, rfl⟩ := List.getLast?_eq_some_iff.mp hnewest
  rw [IncreasingIdx, List.map_append, List.pairwise_append] at h
  rcases List.mem_append.mp hmem with hfront | hlast
  · exact (h.2.2 record.idx (List.mem_map_of_mem hfront) newest.idx (by simp)).le
  · rw [List.mem_singleton.mp hlast]

theorem splitGap_append (records : List MctLogStorageFileList) :
    (splitGap records).1 ++ (splitGap records).2 = records := by
  fun_induction splitGap records with
  | case1 a b rest hgap => rfl
  | case2 a b rest hnext ih => rw [List.cons_append, ih]
  | case3 records hshort => exact List.append_nil records

theorem splitGap_ne_nil {records : List MctLogStorageFileList} (h : records ≠ []) :
    (splitGap records).1 ≠ [] := by
  fun_cases splitGap records with
  | case1 a b rest hgap => exact List.cons_ne_nil _ _
  | case2 a b rest hnext => exact List.cons_ne_nil _ _
  | case3 records hshort => exact h

/-- No record has the index behind that of the record before the gap. -/
theorem splitGap_gap {records : List MctLogStorageFileList} (h : IncreasingIdx records)
    {newest : MctLogStorageFileList} (hnewest : (splitGap records).1.getLast? = some newest) :
    ∀ record ∈ records, record.idx ≠ newest.idx + 1 := by
  fun_induction splitGap records with
  | case1 a b rest hgap =>
      rw [List.getLast?_singleton, Option.some_inj] at hnewest
      subst hnewest
      rw [IncreasingIdx, List.map_cons, List.pairwise_cons] at h
      obtain ⟨hfirst, hrest⟩ := h
      rw [List.map_cons, List.pairwise_cons] at hrest
      intro record hmem
      have hb := hfirst b.idx (by simp)
      rcases List.mem_cons.mp hmem with rfl | hmem
      · omega
      · rcases List.mem_cons.mp hmem with rfl | hmem
        · exact hgap
        · have hrecord := hrest.1 record.idx (List.mem_map_of_mem hmem)
          omega
  | case2 a b rest hnext ih =>
      rw [IncreasingIdx, List.map_cons, List.pairwise_cons] at h
      obtain ⟨hfirst, hrest⟩ := h
      have hne := splitGap_ne_nil (List.cons_ne_nil b rest)
      rw [List.getLast?_cons_of_ne_nil hne] at hnewest
      intro record hmem
      rcases List.mem_cons.mp hmem with rfl | hmem
      · have hlast : newest ∈ b :: rest := by
          rw [← splitGap_append (b :: rest)]
          exact List.mem_append_left _ (List.mem_of_getLast? hnewest)
        have hless := hfirst newest.idx (List.mem_map_of_mem hlast)
        omega
      · exact ih hrest hnewest record hmem
  | case3 records hshort =>
      intro record hmem
      have hle := h.last hnewest record hmem
      omega

theorem rearrangeFileName_perm (records : List MctLogStorageFileList) :
    (rearrangeFileName records).Perm records := by
  unfold rearrangeFileName
  split
  · next a b rest =>
      split
      · exact List.Perm.refl _
      · conv_rhs => rw [← splitGap_append (a :: b :: rest)]
        exact List.perm_append_comm
  · exact List.Perm.refl _

theorem sortFileName_perm (records : List MctLogStorageFileList) :
    (sortFileName records).1.Perm records := by
  unfold sortFileName
  split
  · exact List.Perm.refl _
  · exact bubbleSort_perm records

theorem sortFileName_increasing {records : List MctLogStorageFileList}
    (h : (records.map MctLogStorageFileList.idx).Nodup) :
    IncreasingIdx (sortFileName records).1 := by
  have hperm := sortFileName_perm records
  unfold sortFileName at hperm ⊢
  split
  · next hshort =>
      rcases records with _ | ⟨a, _ | ⟨b, rest⟩⟩
      · exact List.Pairwise.nil
      · exact List.pairwise_singleton _ _
      · simp at hshort
  · have hnodup : ((bubbleSort MctLogStorageFileList.idx records).map
        MctLogStorageFileList.idx).Nodup :=
      ((bubbleSort_perm records).map _).nodup_iff.mpr h
    exact ((bubbleSort_sorted records).and hnodup).imp fun hab => lt_of_le_of_ne hab.1 hab.2

variable (fileConfig : MctLogStorageUserConfig) (store : FileStore) (fileName : List Char)
  (numFiles : Nat)

theorem storageDirInfo_perm :
    (fileConfig.storageDirInfo store fileName numFiles).Perm
      (fileConfig.scanRecords store fileName numFiles) := by
  unfold storageDirInfo
  have hsorted := sortFileName_perm (fileConfig.scanRecords store fileName numFiles)
  simp only
  split
  · exact (rearrangeFileName_perm _).trans hsorted
  · exact hsorted

variable {fileConfig store fileName numFiles}

/-- No log file has the index behind that of the newest one. -/
theorem storageDirInfo_newest
    (h : ((fileConfig.scanRecords store fileName numFiles).map MctLogStorageFileList.idx).Nodup)
    {newest : MctLogStorageFileList}
    (hnewest : (fileConfig.storageDirInfo store fileName numFiles).getLast? = some newest) :
    ∀ record ∈ fileConfig.storageDirInfo store fileName numFiles,
      record.idx ≠ newest.idx + 1 := by
  have hincreasing := sortFileName_increasing h
  intro record hmem
  have hsorted : record ∈ (sortFileName (fileConfig.scanRecords store fileName numFiles)).1 :=
    (sortFileName_perm _).mem_iff.mpr ((storageDirInfo_perm _ _ _ _).mem_iff.mp hmem)
  unfold storageDirInfo at hnewest
  simp only at hnewest
  generalize (sortFileName (fileConfig.scanRecords store fileName numFiles)).1 = sorted at *
  have hlast : sorted.getLast? = some newest → record.idx ≠ newest.idx + 1 := by
    intro hnewest
    have hle := hincreasing.last hnewest record hsorted
    omega
  split at hnewest
  · unfold rearrangeFileName at hnewest
    split at hnewest
    · next a b rest =>
        split at hnewest
        · exact hlast hnewest
        · rw [List.getLast?_append_of_ne_nil _ (splitGap_ne_nil (List.cons_ne_nil a _))] at hnewest
          exact splitGap_gap hincreasing hnewest record hsorted
    · exact hlast hnewest
  · exact hlast hnewest

end Order

end MctLogStorageUserConfig

end MctDaemon.Logstorage
