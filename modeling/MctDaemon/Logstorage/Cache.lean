import MctDaemon.Lib.Machine

/-!
The message cache of the offline log storage: a ring of bytes with a footer of
four offsets behind it. Messages are cached by `mctLogstorageWriteMsgCache` and
written to the log file by `mctLogstorageSyncMsgCache`. Opening a log file is
the file system's part and is a parameter. A read behind the block the cache
was allocated in gives `none`.
-/

namespace MctDaemon.Logstorage

open Lib

section Strategies

def syncOnMsg : Nat := 1
def syncOnDaemonExit : Nat := 2
def syncOnDemand : Nat := 4
def syncOnDeviceDisconnect : Nat := 8
def syncOnSpecificSize : Nat := 16
def syncOnFileSize : Nat := 32

/-- `MCT_OFFLINE_LOGSTORAGE_IS_STRATEGY_SET(S, s) > 0`. -/
def isStrategySet (strategies status : Nat) : Bool := 0 < strategies &&& status

end Strategies

structure CacheFooter where
  /-- Current write offset. -/
  offset : Nat
  /-- Wrap around counter. -/
  wrapAroundCnt : Nat
  /-- Last sync position. -/
  lastSyncOffset : Nat
  /-- End position of the previous round. -/
  endSyncOffset : Nat
  deriving DecidableEq, Repr

def CacheFooter.cleared : CacheFooter := ⟨0, 0, 0, 0⟩

/-- The footer as it stands in memory behind the cache. -/
def CacheFooter.bytes (footer : CacheFooter) : List UInt8 :=
  leBytes 4 footer.offset ++ leBytes 4 footer.wrapAroundCnt ++
    leBytes 4 footer.lastSyncOffset ++ leBytes 4 footer.endSyncOffset

/-- The fields of a filter configuration that the cache functions only read. -/
structure CacheConfig where
  sync : Nat
  fileSize : Nat
  specificSize : Nat
  deriving DecidableEq, Repr

def CacheConfig.cacheSize (config : CacheConfig) : Nat :=
  if isStrategySet config.sync syncOnSpecificSize then config.specificSize else config.fileSize

/-- What `mct_logstorage_open_log_file` comes back with: an error, the limit of
files reached, or an open file and its size. -/
inductive OpenAnswer where
  | failed
  | skipped
  | opened (size : Nat)
  deriving DecidableEq, Repr

/-- The answers of the file system to the opens of a run: the number of opens
before it, the bytes to be written and `is_sync`. -/
def LogFiles : Type := Nat → Int → Bool → OpenAnswer

/-- The cache, and the fields of the filter configuration that change. The
bytes handed to `fwrite` are collected in `written`. -/
structure CacheState where
  cache : List UInt8
  footer : CacheFooter
  log : Bool
  currentWriteFileOffset : Nat
  skip : Bool
  opens : Nat
  written : List UInt8
  deriving DecidableEq, Repr

namespace CacheState

/-- The allocated block: the cache and the footer behind it. -/
def block (s : CacheState) : List UInt8 := s.cache ++ s.footer.bytes

def closeLog (s : CacheState) : CacheState :=
  { s with log := false, currentWriteFileOffset := 0 }

def openLogFile (files : LogFiles) (s : CacheState) (count : Int) (isSync : Bool) :
    Int × CacheState :=
  match files s.opens count isSync with
  | .failed => (-1, { s with opens := s.opens + 1 })
  | .skipped => (0, { s with opens := s.opens + 1, skip := true })
  | .opened size =>
      (0, { s with opens := s.opens + 1, log := true, currentWriteFileOffset := size })

/-- `fwrite(cache + offset, count, 1, log)`. -/
def write (s : CacheState) (offset count : Nat) : Option CacheState :=
  if offset + count ≤ s.block.length then
    some { s with written := s.written ++ slice s.block offset count }
  else none

end CacheState

section Headers

/-- `{ 'D', 'L', 'T', 0x01 }` -/
def magic : List UInt8 := [68, 76, 84, 1]

/-- `strncmp(cells, magic, 4) == 0`, which stops at the first difference. -/
def startsWith : List UInt8 → List UInt8 → Option Bool
  | [], _ => some true
  | _ :: _, [] => none
  | c :: expected, cell :: cells => if cell = c then startsWith expected cells else some false

/-- The loop of `mct_logstorage_find_mct_header` from index `i` on. -/
def findHeaderFrom (i cnt : Nat) : List UInt8 → Option Int
  | [] => if i < cnt then none else some (-1)
  | cell :: cells =>
      if i < cnt then do
        if ← startsWith magic (cell :: cells) then return i
        findHeaderFrom (i + 1) cnt cells
      else some (-1)

def mctLogstorageFindMctHeader (block : List UInt8) (offset cnt : Nat) : Option Int :=
  findHeaderFrom 0 cnt (block.drop offset)

/-- The loop of `mct_logstorage_find_last_mct_header` from index `i` down. -/
def findLastHeaderFrom (cells : List UInt8) : Nat → Option Int
  | 0 => some (-1)
  | i + 1 => do
      if ← startsWith magic (cells.drop (i + 1)) then return (i + 1 : Nat)
      findLastHeaderFrom cells i

def mctLogstorageFindLastMctHeader (block : List UInt8) (offset cnt : Nat) : Option Int :=
  findLastHeaderFrom (block.drop offset) (int32 (cnt - 3)).toNat

end Headers

section Sync

variable (files : LogFiles) (config : CacheConfig)

/-- The branch of `mct_logstorage_sync_to_file` for more bytes than the file
has room for: fill the file with whole messages and close it. The new start
offset and count are returned with the state. -/
def fillRemainingFile (s : CacheState) (startOffset : Nat) (remainFileSize : Int) :
    Option (CacheState × Nat × Int) := do
  let startIndex ← mctLogstorageFindMctHeader s.block startOffset (uint32 remainFileSize)
  let endIndex ← mctLogstorageFindLastMctHeader s.block (uint32 (startOffset + startIndex))
    (uint32 (remainFileSize - startIndex))
  let count := int32 (endIndex - startIndex)
  if 0 ≤ startIndex ∧ startIndex < endIndex ∧ 0 < count ∧ count ≤ remainFileSize then
    let s ← s.write (startOffset + startIndex.toNat) count.toNat
    let startOffset := uint32 (startOffset + count)
    return ({ s.closeLog with footer := { s.footer with lastSyncOffset := startOffset } },
      startOffset, count)
  else
    return (s.closeLog, startOffset, count)

/-- The rest of `mct_logstorage_sync_to_file`: write from the first header at
or behind the start offset up to the end offset. -/
def syncFromHeader (s : CacheState) (startOffset endOffset : Nat) (count : Int) :
    Option (Int × CacheState) := do
  let startIndex ← mctLogstorageFindMctHeader s.block startOffset (uint32 count)
  let count := int32 (endOffset - startOffset - startIndex)
  if 0 ≤ startIndex ∧ 0 < count then
    let (ret, s) := if s.log then (0, s) else s.openLogFile files count false
    if ret ≠ 0 then return (-1, s)
    if s.skip then return (0, s)
    let s ← s.write (startOffset + startIndex.toNat) count.toNat
    return (0, { s with
      currentWriteFileOffset := uint32 (s.currentWriteFileOffset + count)
      footer := { s.footer with lastSyncOffset := endOffset, wrapAroundCnt := 0 } })
  else
    return (0, { s with footer := { s.footer with wrapAroundCnt := 0 } })

def mctLogstorageSyncToFile (s : CacheState) (startOffset endOffset : Nat) :
    Option (Int × CacheState) := do
  let count := int32 (endOffset - startOffset)
  let s := if s.log then s.closeLog else s
  let (ret, s) := s.openLogFile files count true
  if ret ≠ 0 then return (-1, s)
  if s.skip then return (0, s)
  let remainFileSize := int32 (config.fileSize - s.currentWriteFileOffset)
  if remainFileSize < count then
    let (s, startOffset, count) ← fillRemainingFile s startOffset remainFileSize
    syncFromHeader files s startOffset endOffset count
  else
    syncFromHeader files s startOffset endOffset count

def CacheState.setLastSync (s : CacheState) (offset : Nat) : CacheState :=
  { s with footer := { s.footer with lastSyncOffset := offset } }

/-- The choice of what to write in `mct_logstorage_sync_msg_cache`. -/
def syncRounds (s : CacheState) : Option CacheState :=
  let sync := mctLogstorageSyncToFile files config
  if s.footer.wrapAroundCnt < 1 then do
    let (_, s) ← sync s s.footer.lastSyncOffset s.footer.offset
    return s
  else if s.footer.wrapAroundCnt = 1 ∧ s.footer.offset < s.footer.lastSyncOffset then do
    let (_, s) ← sync s s.footer.lastSyncOffset s.footer.endSyncOffset
    let s := s.setLastSync 0
    let (_, s) ← sync s s.footer.lastSyncOffset s.footer.offset
    return s
  else do
    let (_, s) ← sync s s.footer.offset s.footer.endSyncOffset
    let s := s.setLastSync 0
    let (_, s) ← sync s s.footer.lastSyncOffset s.footer.offset
    return s

def mctLogstorageSyncMsgCache (s : CacheState) (status : Nat) : Option (Int × CacheState) := do
  if isStrategySet config.sync status then
    let s ← syncRounds files config s
    let s :=
      if status = syncOnSpecificSize ∨ status = syncOnFileSize then
        { s with cache := List.replicate config.cacheSize 0, footer := .cleared }
      else s
    let s := if status = syncOnFileSize ∧ s.log then s.closeLog else s
    return (0, s)
  else return (0, s)

end Sync

section Write

/-- The first branch of `mct_logstorage_write_msg_cache`: add at the current position. -/
def CacheState.addAtOffset (s : CacheState) (msg : List UInt8) : CacheState :=
  let offset := s.footer.offset + msg.length
  { s with
    cache := copyInto s.cache s.footer.offset msg
    footer := { s.footer with
      offset := offset
      endSyncOffset := if s.footer.wrapAroundCnt < 1 then offset else s.footer.endSyncOffset } }

/-- The last branch: start writing from the beginning. -/
def CacheState.addAtStart (s : CacheState) (msg : List UInt8) : CacheState :=
  { s with
    cache := copyInto s.cache 0 msg
    footer := { s.footer with endSyncOffset := s.footer.offset, offset := msg.length } }

def CacheState.countWrapAround (s : CacheState) : CacheState :=
  { s with footer := { s.footer with wrapAroundCnt := uint32 (s.footer.wrapAroundCnt + 1) } }

variable (files : LogFiles) (config : CacheConfig)

/-- What happens when a message reaches the end of the cache. -/
def syncOrCountWrapAround (s : CacheState) : Option (Int × CacheState) :=
  if isStrategySet config.sync syncOnFileSize then
    mctLogstorageSyncMsgCache files config s syncOnFileSize
  else if isStrategySet config.sync syncOnSpecificSize then
    mctLogstorageSyncMsgCache files config s syncOnSpecificSize
  else if isStrategySet config.sync syncOnDemand ∨ isStrategySet config.sync syncOnDaemonExit then
    some (0, s.countWrapAround)
  else some (0, s)

def mctLogstorageWriteMsgCache (s : CacheState) (data1 data2 data3 : List UInt8) :
    Option (Int × CacheState) := do
  let msg := data1 ++ data2 ++ data3
  let msgSize := int32 (data1.length + data2.length + data3.length : Nat)
  let remainCacheSize := int32 (config.cacheSize - s.footer.offset)
  let s := if msgSize ≤ remainCacheSize then s.addAtOffset msg else s
  if remainCacheSize ≤ msgSize then
    if config.cacheSize < uint32 msgSize then return (-1, s)
    let (ret, s) ← syncOrCountWrapAround files config s
    if ret ≠ 0 then return (-1, s)
    if remainCacheSize < msgSize then return (0, s.addAtStart msg)
    return (0, s)
  return (0, s)

end Write

/-- The calls on the message cache of one filter. -/
inductive CacheOp where
  | write (data1 data2 data3 : List UInt8)
  | sync (status : Nat)
  deriving DecidableEq, Repr

def cacheCall (files : LogFiles) (config : CacheConfig) (s : CacheState) :
    CacheOp → Option (Int × CacheState)
  | .write data1 data2 data3 => mctLogstorageWriteMsgCache files config s data1 data2 data3
  | .sync status => mctLogstorageSyncMsgCache files config s status

/-- A run that has read behind the block is stuck. -/
def cacheStep (files : LogFiles) (config : CacheConfig) (s : Option CacheState) (op : CacheOp) :
    Option Int × Option CacheState :=
  let result := s.bind fun s => cacheCall files config s op
  (result.map Prod.fst, result.map Prod.snd)

/-- A cache as it is allocated, before any file was opened. -/
def freshCache (config : CacheConfig) : CacheState where
  cache := List.replicate config.cacheSize 0
  footer := .cleared
  log := false
  currentWriteFileOffset := 0
  skip := false
  opens := 0
  written := []

end MctDaemon.Logstorage
