import MctDaemon.Lib.BubbleSort
import MctDaemon.Lib.FileStore
import MctDaemon.Logstorage.FileName

/-!
The log files of a filter: the scan of the storage directory
(`mct_logstorage_storage_dir_info`), the choice and rotation of files
(`mct_logstorage_open_log_file`), and a message on its way to the device
(`mct_logstorage_prepare_on_msg`, `mct_logstorage_write_on_msg`, and the part of
`mct_logstorage_write` about one filter). The store holds the files under the
mount point; calls on it succeed where there is a file.
-/

namespace MctDaemon.Logstorage

open Lib

def maxFileNameLen : Nat := 100
def maxErrors : Nat := 5

/-- A log file that was found, with its index. -/
structure MctLogStorageFileList where
  name : List Char
  idx : Nat
  deriving DecidableEq, Repr

inductive OverwriteStrategy where
  | error
  | unset
  | discardOld
  | discardNew
  deriving DecidableEq, Repr

/-- The part of `MctLogStorageFilterConfig` that the log files are written by. -/
structure MctLogStorageFileConfig where
  fileName : List Char
  workingFileName : Option (List Char)
  wrapId : Nat
  fileSize : Nat
  numFiles : Nat
  overwrite : OverwriteStrategy
  skip : Bool
  log : Option FilePath
  records : List MctLogStorageFileList
  deriving DecidableEq, Repr

/-- The newest file of a file name, shared by the filters that have it. -/
structure MctNewestFileName where
  newestFile : Option (List Char)
  wrapId : Nat
  deriving DecidableEq, Repr

/-- A call that changes the files of the device. -/
inductive FileCall where
  | openAppend (path : FilePath)
  | openTruncate (path : FilePath)
  | remove (path : FilePath)
  deriving DecidableEq, Repr

def FileCall.run (store : FileStore) : FileCall → FileStore
  | openAppend path => store.openAppend path
  | openTruncate path => store.openTruncate path
  | remove path => store.remove path

def runCalls (store : FileStore) (calls : List FileCall) : FileStore :=
  calls.foldl FileCall.run store

section Records

/-- `mct_logstorage_sort_file_name`. The biggest index is that of the last
comparison, so it stays zero where there is none. -/
def sortFileName (records : List MctLogStorageFileList) : List MctLogStorageFileList × Nat :=
  if records.length ≤ 1 then (records, 0)
  else
    let sorted := bubbleSort MctLogStorageFileList.idx records
    (sorted, (sorted.getLast?.map MctLogStorageFileList.idx).getD 0)

/-- The records up to the first one whose index is not followed by the next
index, and the records behind it. -/
def splitGap : List MctLogStorageFileList →
    List MctLogStorageFileList × List MctLogStorageFileList
  | a :: b :: rest =>
      if b.idx ≠ a.idx + 1 then ([a], b :: rest)
      else (a :: (splitGap (b :: rest)).1, (splitGap (b :: rest)).2)
  | records => (records, [])

def rearrangeFileName (records : List MctLogStorageFileList) : List MctLogStorageFileList :=
  match records with
  | a :: b :: rest =>
      if a.idx ≠ 1 then records
      else (splitGap (a :: b :: rest)).2 ++ (splitGap (a :: b :: rest)).1
  | _ => records

end Records

namespace MctLogStorageUserConfig

/-- The directory that is scanned, if the name has one, and the file name in it. -/
def scanParts (fileName : List Char) : Option (List Char) × List Char :=
  let name := fileName.take maxFileNameLen
  if '/' ∈ fileName then (some (dirname name), basename name) else (none, name)

/-- The index that an entry of the directory is recorded with, if it is taken for a
log file of the filter. -/
def entryIdx (fileConfig : MctLogStorageUserConfig) (numFiles : Nat) (file dName : List Char) :
    Option Nat :=
  if strncmpEq dName file file.length then
    let next := (dName.drop file.length).head?
    if fileConfig.single numFiles then
      if next = some '.' ∨ fileConfig.logfileTimestamp ∧ next = some fileConfig.logfileDelimiter
      then some 1
      else none
    else if next = some fileConfig.logfileDelimiter then some (fileConfig.getIdxOfLogFile dName)
    else none
  else none

def recordName (directory : Option (List Char)) (dName : List Char) : List Char :=
  match directory with
  | some directory => directory ++ '/' :: dName
  | none => dName

def scanRecords (fileConfig : MctLogStorageUserConfig) (store : FileStore) (fileName : List Char)
    (numFiles : Nat) : List MctLogStorageFileList :=
  let (directory, file) := scanParts fileName
  (store.scandir (resolve (directory.getD []))).filterMap fun dName =>
    (fileConfig.entryIdx numFiles file dName).map fun idx => ⟨recordName directory dName, idx⟩

/-- `mct_logstorage_storage_dir_info`: the log files from the oldest to the newest. -/
def storageDirInfo (fileConfig : MctLogStorageUserConfig) (store : FileStore)
    (fileName : List Char) (numFiles : Nat) : List MctLogStorageFileList :=
  let (sorted, maxIdx) := sortFileName (fileConfig.scanRecords store fileName numFiles)
  if maxIdx = fileConfig.logfileMaxcounter then rearrangeFileName sorted else sorted

/-- The index behind this one, and the count of wraps. -/
def nextIdx (fileConfig : MctLogStorageUserConfig) (idx wrapId : Nat) : Nat × Nat :=
  let next := (idx + 1) % 4294967296
  if fileConfig.logfileMaxcounter < next ∨ next = 0 then (1, (wrapId + 1) % 4294967296)
  else (next, wrapId)

def workingIdx (fileConfig : MctLogStorageUserConfig) (numFiles : Nat)
    (working : List Char) : Nat :=
  if fileConfig.single numFiles then 1 else fileConfig.getIdxOfLogFile working

/-- The part of `mct_logstorage_open_log_file` for a working file that has no space. -/
def rotateLogFile (fileConfig : MctLogStorageUserConfig) (time : List Char) (store : FileStore)
    (config : MctLogStorageFileConfig) (working : List Char) (ret : Int) :
    Int × MctLogStorageFileConfig × List FileCall :=
  let idx := fileConfig.workingIdx config.numFiles working
  if config.overwrite = .discardNew ∧ config.numFiles = idx then
    (0, { config with skip := true }, [])
  else
    let (idx, wrapId) := fileConfig.nextIdx idx config.wrapId
    let fileName := fileConfig.logFileName config.fileName config.numFiles idx time
    let path := resolve fileName
    let reused : Bool := wrapId ≠ 0 ∧ (store.lookup path).isSome
    let numLogFiles := config.records.length - (if reused then 1 else 0) + 1
    let records := config.records ++ [⟨fileName, idx⟩]
    let removed := if reused then [.remove path] else []
    let config :=
      { config with
        workingFileName := some fileName
        wrapId := wrapId
        log := some path
        records := records }
    if config.numFiles < numLogFiles ∧ ¬ fileConfig.single config.numFiles then
      let oldest := (records.head?.map MctLogStorageFileList.name).getD []
      (ret, { config with records := records.tail },
        removed ++ [.openTruncate path, .remove (resolve oldest)])
    else (ret, config, removed ++ [.openTruncate path])

/-- `mct_logstorage_open_log_file`: the return value, the filter, and the calls on
the files of the device. -/
def openLogFile (fileConfig : MctLogStorageUserConfig) (time : List Char) (msgSize : Int)
    (isUpdateRequired isSync : Bool) (store : FileStore) (config : MctLogStorageFileConfig) :
    Int × MctLogStorageFileConfig × List FileCall :=
  let config :=
    if config.records = [] ∨ isUpdateRequired then
      { config with
        records := fileConfig.storageDirInfo store config.fileName config.numFiles }
    else config
  match config.records.getLast? with
  | none =>
      let fileName := fileConfig.logFileName config.fileName config.numFiles 1 time
      (0, { config with
        workingFileName := some fileName
        log := some (resolve fileName)
        records := [⟨fileName, 1⟩] }, [.openAppend (resolve fileName)])
  | some newest =>
      let working :=
        if config.wrapId = 0 then newest.name else config.workingFileName.getD newest.name
      let config := { config with workingFileName := some working }
      match store.lookup (resolve working) with
      | none => fileConfig.rotateLogFile time store config working (-1)
      | some content =>
          let size : Int := content.length
          let limit : Int := (config.fileSize : Int).bmod 4294967296
          if isSync ∧ size < limit ∨ ¬ isSync ∧ size + msgSize ≤ limit then
            (0, { config with log := some (resolve working) }, [.openAppend (resolve working)])
          else fileConfig.rotateLogFile time store config working 0

def syncNewest (newest : MctNewestFileName) (config : MctLogStorageFileConfig) :
    MctLogStorageFileConfig :=
  { config with wrapId := newest.wrapId, workingFileName := newest.newestFile }

def prepareOnMsg (fileConfig : MctLogStorageUserConfig) (time : List Char) (logMsgSize : Int)
    (newest : MctNewestFileName) (store : FileStore) (config : MctLogStorageFileConfig) :
    Int × MctLogStorageFileConfig × List FileCall :=
  match config.log with
  | none =>
      let config := if config.wrapId < newest.wrapId then syncNewest newest config else config
      fileConfig.openLogFile time logMsgSize true false store config
  | some path =>
      match store.lookup path with
      | none => (-1, config, [])
      | some content =>
          if (config.fileSize : Int).bmod 4294967296 < content.length + logMsgSize ∨
              config.workingFileName ≠ newest.newestFile ∨ config.wrapId < newest.wrapId then
            let config := { config with log := none }
            let config := if config.wrapId ≤ newest.wrapId then syncNewest newest config else config
            fileConfig.openLogFile time logMsgSize true false store config
          else (0, config, [])

end MctLogStorageUserConfig

structure MctLogStorageDevice where
  store : FileStore
  config : MctLogStorageFileConfig
  newest : MctNewestFileName
  prepareErrors : Nat
  deriving DecidableEq, Repr

namespace MctLogStorageUserConfig

/-- What `mct_logstorage_write` does for one filter with synchronisation on each
message: `message` is the data of the headers and of the payload, `time` is the
time as it is printed into a new name. -/
def write (fileConfig : MctLogStorageUserConfig) (device : MctLogStorageDevice)
    (time : List Char) (message : List UInt8) : MctLogStorageDevice :=
  if device.config.skip then device
  else
    let (ret, config, calls) :=
      fileConfig.prepareOnMsg time message.length device.newest device.store device.config
    let store := runCalls device.store calls
    if ret = 0 ∧ config.skip then { device with store := store, config := config }
    else if ret = 0 then
      { device with
        store := match config.log with
          | some path => store.append path message
          | none => store
        config := config
        newest := ⟨config.workingFileName, config.wrapId⟩ }
    else
      { device with
        store := store
        config :=
          if maxErrors ≤ device.prepareErrors + 1 then { config with skip := true } else config
        prepareErrors := device.prepareErrors + 1 }

structure Tm where
  year : Nat
  mon : Nat
  mday : Nat
  hour : Nat
  min : Nat
  sec : Nat
  deriving DecidableEq, Repr

/-- The time as it is printed into a name: `%04d%02d%02d-%02d%02d%02d`. -/
def Tm.print (time : Tm) : List Char :=
  printPadded 4 time.year ++ printPadded 2 time.mon ++ printPadded 2 time.mday ++
    '-' :: (printPadded 2 time.hour ++ printPadded 2 time.min ++ printPadded 2 time.sec)

/-- A message and the time it is written at. -/
structure StoredMessage where
  time : Tm
  data : List UInt8
  deriving DecidableEq, Repr

def writeStep (fileConfig : MctLogStorageUserConfig) (device : MctLogStorageDevice)
    (message : StoredMessage) : Unit × MctLogStorageDevice :=
  ((), fileConfig.write device message.time.print message.data)

end MctLogStorageUserConfig

/-- The filter as it is when its configuration was read. -/
def MctLogStorageDevice.IsFresh (device : MctLogStorageDevice) : Prop :=
  device.config.log = none ∧ device.config.workingFileName = none ∧ device.config.wrapId = 0 ∧
    device.config.skip = false ∧ device.newest = ⟨none, 0⟩

instance (device : MctLogStorageDevice) : Decidable device.IsFresh :=
  inferInstanceAs (Decidable (_ ∧ _ ∧ _ ∧ _ ∧ _))

end MctDaemon.Logstorage
