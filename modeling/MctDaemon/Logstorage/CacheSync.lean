import MctDaemon.Lib.Layout
import MctDaemon.Logstorage.Cache

/-!
What the calls on the message cache do under the strategies ON_DEMAND and
ON_DAEMON_EXIT with room in the log file: the three ways to add a message, and
the two ways a piece of the cache gets into the file.
-/

namespace MctDaemon.Logstorage

open Lib

theorem magic_ne_nil : magic ≠ [] := by decide

theorem magic_apart : SelfApart magic := by
  intro i hlow hhigh
  simp only [magic, List.length_cons, List.length_nil] at hhigh
  interval_cases i <;> decide

section Scan

theorem startsWith_true {expected cells : List UInt8} (h : expected <+: cells) :
    startsWith expected cells = some true := by
  induction expected generalizing cells with
  | nil => rfl
  | cons c expected ih =>
      obtain ⟨rest, rfl⟩ := h
      simp only [List.cons_append, startsWith, if_pos]
      exact ih (List.prefix_append _ _)

theorem startsWith_some {expected cells : List UInt8} {answer : Bool}
    (h : startsWith expected cells = some answer) : answer = true ↔ expected <+: cells := by
  constructor
  · rintro rfl
    induction expected generalizing cells with
    | nil => exact List.nil_prefix
    | cons c expected ih =>
        cases cells with
        | nil => simp [startsWith] at h
        | cons cell cells =>
            simp only [startsWith] at h
            split at h
            · next heq =>
                subst heq
                exact List.prefix_cons_inj cell |>.mpr (ih h)
            · simp at h
  · intro hprefix
    rw [startsWith_true hprefix] at h
    exact (Option.some.inj h).symm

/-- The header scan that stays in the block finds the first header among the
`cnt` positions, or none of them has one. -/
theorem findHeaderFrom_some {cells : List UInt8} {i cnt : Nat} {r : Int}
    (h : findHeaderFrom i cnt cells = some r) :
    (r = -1 ∧ ∀ j, i + j < cnt → ¬ magic <+: cells.drop j) ∨
      ∃ k, r = (i + k : Nat) ∧ i + k < cnt ∧ magic <+: cells.drop k ∧
        ∀ j, j < k → ¬ magic <+: cells.drop j := by
  induction cells generalizing i with
  | nil =>
      simp only [findHeaderFrom] at h
      split at h
      · simp at h
      · left
        refine ⟨(Option.some.inj h).symm, ?_⟩
        intro j hj
        omega
  | cons cell cells ih =>
      simp only [findHeaderFrom] at h
      split at h
      · next hlow =>
          cases hstart : startsWith magic (cell :: cells) with
          | none => simp [hstart] at h
          | some answer =>
              have hiff := startsWith_some hstart
              cases answer with
              | true =>
                  simp only [hstart, Option.bind_eq_bind, Option.bind_some, if_true] at h
                  right
                  refine ⟨0, (Option.some.inj h).symm, hlow, hiff.mp rfl, ?_⟩
                  intro j hj
                  omega
              | false =>
                  have hnot : ¬ magic <+: cell :: cells := by
                    intro hprefix
                    exact Bool.false_ne_true (hiff.mpr hprefix)
                  simp only [hstart, Option.bind_eq_bind, Option.bind_some] at h
                  rcases ih h with ⟨hmissed, hnone⟩ | ⟨k, hfound, hk, hmark, hfirst⟩
                  · left
                    refine ⟨hmissed, ?_⟩
                    intro j hj
                    cases j with
                    | zero => exact hnot
                    | succ j => exact hnone j (by omega)
                  · right
                    refine ⟨k + 1, by rw [hfound]; congr 1; omega, by omega, hmark, ?_⟩
                    intro j hj
                    cases j with
                    | zero => exact hnot
                    | succ j => exact hfirst j (by omega)
      · left
        refine ⟨(Option.some.inj h).symm, ?_⟩
        intro j hj
        omega

theorem findHeader_none_asked (block : List UInt8) (offset : Nat) :
    mctLogstorageFindMctHeader block offset 0 = some (-1) := by
  unfold mctLogstorageFindMctHeader
  cases block.drop offset <;> simp [findHeaderFrom]

theorem findHeader_here {block : List UInt8} {offset cnt : Nat} (hcnt : 0 < cnt)
    (hmark : magic <+: block.drop offset) :
    mctLogstorageFindMctHeader block offset cnt = some 0 := by
  unfold mctLogstorageFindMctHeader
  cases hcells : block.drop offset with
  | nil =>
      rw [hcells] at hmark
      exact absurd (List.prefix_nil.mp hmark) magic_ne_nil
  | cons cell cells =>
      rw [hcells] at hmark
      simp [findHeaderFrom, hcnt, startsWith_true hmark]

end Scan

/-- Messages stay in the cache until ON_DEMAND or ON_DAEMON_EXIT. -/
structure CacheConfig.SyncsOnRequest (config : CacheConfig) : Prop where
  no_file_size : isStrategySet config.sync syncOnFileSize = false
  no_specific_size : isStrategySet config.sync syncOnSpecificSize = false
  on_request : isStrategySet config.sync syncOnDemand ∨ isStrategySet config.sync syncOnDaemonExit

theorem CacheConfig.SyncsOnRequest.cacheSize {config : CacheConfig}
    (h : config.SyncsOnRequest) : config.cacheSize = config.fileSize := by
  simp [CacheConfig.cacheSize, h.no_specific_size]

/-- Every open finds a file with room for the bytes to be written. -/
def EnoughRoom (files : LogFiles) (config : CacheConfig) : Prop :=
  ∀ opens (count : Int) isSync, count ≤ config.fileSize →
    ∃ size : Nat, files opens count isSync = .opened size ∧ size ≤ config.fileSize ∧
      count ≤ config.fileSize - size

/-- The state after a piece of the cache was written. -/
structure SyncedTo (s s' : CacheState) (cells : List UInt8) (lastSync : Nat) : Prop where
  cache_eq : s'.cache = s.cache
  footer_eq : s'.footer = { s.footer with lastSyncOffset := lastSync, wrapAroundCnt := 0 }
  skip_eq : s'.skip = s.skip
  written_eq : s'.written = s.written ++ cells

section Sync

variable {files : LogFiles} {config : CacheConfig} {s : CacheState} {start stop : Nat}

theorem slice_block (hstop : start + stop ≤ s.cache.length) :
    slice s.block start stop = slice s.cache start stop := by
  unfold slice CacheState.block
  rw [List.drop_append_of_le_length (by omega), List.take_append_of_le_length]
  rw [List.length_drop]
  omega

/-- With room in the file the log file is opened and the whole count is looked at. -/
theorem syncToFile_opens (hroom : EnoughRoom files config)
    (hsize : config.fileSize < 2147483648) (hskip : s.skip = false)
    (hstart : start ≤ config.fileSize) (hstop : stop ≤ config.fileSize) :
    ∃ opened : CacheState, opened.cache = s.cache ∧ opened.footer = s.footer ∧
      opened.skip = false ∧ opened.written = s.written ∧ opened.log = true ∧
      mctLogstorageSyncToFile files config s start stop =
        syncFromHeader files opened start stop (int32 (stop - start)) := by
  have hcount : int32 ((stop : Int) - start) = stop - start :=
    int32_of_small (by omega) (by omega)
  obtain ⟨size, hanswer, hfits, henough⟩ :=
    hroom (if s.log then s.closeLog else s).opens (stop - start) true (by omega)
  have hremain : int32 ((config.fileSize : Int) - size) = config.fileSize - size :=
    int32_of_small (by omega) (by omega)
  have hclosed : (if s.log then s.closeLog else s).skip = false := by
    split <;> exact hskip
  refine ⟨{ (if s.log then s.closeLog else s) with
    opens := (if s.log then s.closeLog else s).opens + 1
    log := true
    currentWriteFileOffset := size }, ?_, ?_, hclosed, ?_, rfl, ?_⟩
  · simp only
    split <;> rfl
  · simp only
    split <;> rfl
  · simp only
    split <;> rfl
  · simp only [mctLogstorageSyncToFile, CacheState.openLogFile, hcount, hanswer, hclosed, hremain]
    rw [if_neg (by simp), if_neg (by simp), if_neg (by omega)]

/-- The bytes from the first header up to the end offset are written. -/
theorem syncToFile_writes (hroom : EnoughRoom files config)
    (hsize : config.fileSize < 2147483648) (hcache : s.cache.length = config.fileSize)
    (hskip : s.skip = false) (hstop : stop ≤ config.fileSize) {k : Nat} (hk : start + k < stop)
    (hfind : mctLogstorageFindMctHeader s.block start (uint32 (stop - start : Int)) =
      some (k : Int)) :
    ∃ ret s', mctLogstorageSyncToFile files config s start stop = some (ret, s') ∧
      SyncedTo s s' (slice s.cache (start + k) (stop - (start + k))) stop := by
  obtain ⟨opened, hocache, hofooter, hoskip, howritten, holog, hsync⟩ :=
    syncToFile_opens hroom hsize hskip (by omega : start ≤ config.fileSize) hstop
  have hblock : opened.block = s.block := by
    simp only [CacheState.block, hocache, hofooter]
  have hcount : int32 ((stop : Int) - start) = stop - start :=
    int32_of_small (by omega) (by omega)
  have hcount' : int32 ((stop : Int) - start - k) = (stop - (start + k) : Nat) := by
    rw [int32_of_small (by omega) (by omega)]
    omega
  have hlength : start + k + (stop - (start + k)) ≤ s.block.length := by
    simp only [CacheState.block, List.length_append]
    omega
  have hslice : slice s.block (start + k) (stop - (start + k)) =
      slice s.cache (start + k) (stop - (start + k)) := slice_block (by omega)
  rw [hsync, hcount]
  simp only [syncFromHeader, hblock, hfind, Option.bind_eq_bind, Option.bind_some, hcount',
    holog, if_true]
  rw [if_pos ⟨by omega, by omega⟩, if_neg (by simp), if_neg (by simp [hoskip])]
  simp only [CacheState.write, hblock, Int.toNat_natCast, if_pos hlength, Option.bind_some,
    hslice]
  exact ⟨_, _, rfl, hocache, by rw [← hofooter], by rw [hskip, ← hoskip], by rw [howritten]⟩

/-- Without a header, or with no byte counted behind it, nothing is written. -/
theorem syncToFile_writes_nothing (hroom : EnoughRoom files config)
    (hsize : config.fileSize < 2147483648) (hskip : s.skip = false)
    (hstart : start ≤ config.fileSize) (hstop : stop ≤ config.fileSize) {r : Int}
    (hfind : mctLogstorageFindMctHeader s.block start (uint32 (stop - start : Int)) = some r)
    (hnothing : ¬ (0 ≤ r ∧ 0 < int32 ((stop : Int) - start - r))) :
    ∃ ret s', mctLogstorageSyncToFile files config s start stop = some (ret, s') ∧
      SyncedTo s s' [] s.footer.lastSyncOffset := by
  obtain ⟨opened, hocache, hofooter, hoskip, howritten, holog, hsync⟩ :=
    syncToFile_opens hroom hsize hskip hstart hstop
  have hblock : opened.block = s.block := by
    simp only [CacheState.block, hocache, hofooter]
  have hcount : int32 ((stop : Int) - start) = stop - start :=
    int32_of_small (by omega) (by omega)
  rw [hsync, hcount]
  simp only [syncFromHeader, hblock, hfind, Option.bind_eq_bind, Option.bind_some]
  rw [if_neg hnothing]
  exact ⟨_, _, rfl, hocache, by rw [← hofooter], by rw [hskip, ← hoskip],
    by rw [howritten, List.append_nil]⟩

/-- A piece that begins at the last sync position and holds whole messages is
written as it is. -/
theorem syncToFile_records (hroom : EnoughRoom files config)
    (hsize : config.fileSize < 2147483648) (hcache : s.cache.length = config.fileSize)
    (hskip : s.skip = false) (hstop : stop ≤ config.fileSize)
    {records : List (Placed UInt8)} (hlaid : LaidOut s.footer.lastSyncOffset records stop)
    (hmarked : ∀ record ∈ records, Marked magic record.data)
    (hcells : slice s.cache s.footer.lastSyncOffset (stop - s.footer.lastSyncOffset) =
      contents records) :
    ∃ ret s', mctLogstorageSyncToFile files config s s.footer.lastSyncOffset stop =
        some (ret, s') ∧ SyncedTo s s' (contents records) stop := by
  have hle := hlaid.le
  cases records with
  | nil =>
      have hempty : s.footer.lastSyncOffset = stop := hlaid
      have hfind : mctLogstorageFindMctHeader s.block s.footer.lastSyncOffset
          (uint32 ((stop : Int) - s.footer.lastSyncOffset)) = some (-1) := by
        rw [hempty, Int.sub_self, uint32_of_small (by omega) (by omega)]
        exact findHeader_none_asked _ _
      obtain ⟨ret, s', hsync, hsynced⟩ := syncToFile_writes_nothing hroom hsize hskip
        (by omega) hstop hfind (by simp)
      refine ⟨ret, s', hsync, ?_⟩
      rw [hempty] at hsynced
      exact hsynced
  | cons record records =>
      have hmark : Marked magic record.data := hmarked record List.mem_cons_self
      have hlength : 4 ≤ record.data.length := hmark.1.length_le
      have htotal := hlaid.length
      simp only [contents_cons, List.length_append] at htotal
      have hfind : mctLogstorageFindMctHeader s.block s.footer.lastSyncOffset
          (uint32 ((stop : Int) - s.footer.lastSyncOffset)) = some ((0 : Nat) : Int) := by
        apply findHeader_here
        · rw [uint32_of_small (by omega) (by omega)]
          omega
        · have hcache : magic <+: s.cache.drop s.footer.lastSyncOffset := by
            apply List.IsPrefix.trans _ (List.take_prefix (stop - s.footer.lastSyncOffset) _)
            rw [show List.take _ _ = _ from hcells]
            exact hmark.1.trans (List.prefix_append _ _)
          simp only [CacheState.block]
          rw [List.drop_append_of_le_length (by omega)]
          exact hcache.trans (List.prefix_append _ _)
      obtain ⟨ret, s', hsync, hsynced⟩ := syncToFile_writes hroom hsize hcache hskip hstop
        (by omega) hfind
      refine ⟨ret, s', hsync, ?_⟩
      rw [Nat.add_zero, hcells] at hsynced
      exact hsynced

end Sync

theorem syncMsgCache_not_set (files : LogFiles) (config : CacheConfig) (s : CacheState)
    {status : Nat} (h : ¬ isStrategySet config.sync status) :
    mctLogstorageSyncMsgCache files config s status = some (0, s) := by
  unfold mctLogstorageSyncMsgCache
  rw [if_neg h]
  rfl

section Write

variable {config : CacheConfig} {s : CacheState} {data1 data2 data3 : List UInt8}

/-- The position a message of this length is written to. -/
def CacheState.slot (s : CacheState) (config : CacheConfig) (length : Nat) : Nat :=
  if length ≤ config.cacheSize - s.footer.offset then s.footer.offset else 0

theorem syncOrCountWrapAround_counts (files : LogFiles) (hconfig : config.SyncsOnRequest)
    (s : CacheState) : syncOrCountWrapAround files config s = some (0, s.countWrapAround) := by
  have hrequest := hconfig.on_request
  simp [syncOrCountWrapAround, hconfig.no_file_size, hconfig.no_specific_size, hrequest]

variable (hconfig : config.SyncsOnRequest) (hsize : config.fileSize < 2147483648)
  (hoffset : s.footer.offset ≤ config.fileSize)
  (hmsg : (data1 ++ data2 ++ data3).length ≤ config.fileSize)

include hsize hoffset in
private theorem remain_eq : int32 ((config.fileSize : Int) - s.footer.offset) =
    (config.fileSize - s.footer.offset : Nat) := by
  rw [int32_of_small (by omega) (by omega)]
  omega

include hsize hmsg in
private theorem msgSize_eq : int32 ((data1.length + data2.length + data3.length : Nat) : Int) =
    ((data1 ++ data2 ++ data3).length : Nat) := by
  simp only [List.length_append] at hmsg ⊢
  exact int32_natCast (by omega)

include hconfig hsize hoffset hmsg

theorem writeMsgCache_before_end (files : LogFiles)
    (hroom : (data1 ++ data2 ++ data3).length < config.fileSize - s.footer.offset) :
    mctLogstorageWriteMsgCache files config s data1 data2 data3 =
      some (0, s.addAtOffset (data1 ++ data2 ++ data3)) := by
  simp only [mctLogstorageWriteMsgCache, hconfig.cacheSize, remain_eq hsize hoffset,
    msgSize_eq hsize hmsg]
  rw [if_neg (by omega), if_pos (by omega)]
  rfl

/-- A message that fills the cache exactly bumps the counter as well. -/
theorem writeMsgCache_to_end (files : LogFiles)
    (hroom : (data1 ++ data2 ++ data3).length = config.fileSize - s.footer.offset) :
    mctLogstorageWriteMsgCache files config s data1 data2 data3 =
      some (0, (s.addAtOffset (data1 ++ data2 ++ data3)).countWrapAround) := by
  simp only [mctLogstorageWriteMsgCache, hconfig.cacheSize, remain_eq hsize hoffset,
    msgSize_eq hsize hmsg]
  rw [if_pos (by omega), uint32_natCast (by omega), if_neg (by omega), if_pos (by omega),
    syncOrCountWrapAround_counts files hconfig]
  simp only [Option.bind_eq_bind, Option.bind_some]
  rw [if_neg (by simp), if_neg (by omega)]
  rfl

theorem writeMsgCache_from_start (files : LogFiles)
    (hroom : config.fileSize - s.footer.offset < (data1 ++ data2 ++ data3).length) :
    mctLogstorageWriteMsgCache files config s data1 data2 data3 =
      some (0, s.countWrapAround.addAtStart (data1 ++ data2 ++ data3)) := by
  simp only [mctLogstorageWriteMsgCache, hconfig.cacheSize, remain_eq hsize hoffset,
    msgSize_eq hsize hmsg]
  rw [if_pos (by omega), uint32_natCast (by omega), if_neg (by omega), if_neg (by omega),
    syncOrCountWrapAround_counts files hconfig]
  simp only [Option.bind_eq_bind, Option.bind_some]
  rw [if_neg (by simp), if_pos (by omega)]
  rfl

end Write

end MctDaemon.Logstorage
