import MctDaemon.Logstorage.Cache

/-!
A sync of the message cache while the log file cannot be opened.
`mct_logstorage_sync_to_file` reports this to `mct_logstorage_sync_msg_cache`, which
does not look at the report, so that neither it nor `mct_logstorage_write_msg_cache`
tells of messages that are cleared from the cache without having been written.
-/

namespace MctDaemon.Logstorage

open Lib

section Calls

variable (files : LogFiles) (config : CacheConfig)

/-- A call of `mct_logstorage_sync_to_file`: the piece of the cache to write, and the
returned value. -/
structure SyncCall where
  startOffset : Nat
  endOffset : Nat
  returned : Int
  deriving DecidableEq, Repr

/-- The piece that a sync writes first. -/
def CacheFooter.firstPiece (footer : CacheFooter) : Nat × Nat :=
  if footer.wrapAroundCnt < 1 then (footer.lastSyncOffset, footer.offset)
  else if footer.wrapAroundCnt = 1 ∧ footer.offset < footer.lastSyncOffset then
    (footer.lastSyncOffset, footer.endSyncOffset)
  else (footer.offset, footer.endSyncOffset)

def CacheFooter.pieces (footer : CacheFooter) : List (Nat × Nat) :=
  if footer.wrapAroundCnt < 1 then [footer.firstPiece]
  else [footer.firstPiece, (0, footer.offset)]

/-- The calls that a sync makes, up to one that reads behind the block. -/
def syncCalls (s : CacheState) (status : Nat) : List SyncCall :=
  if isStrategySet config.sync status then
    let first := s.footer.firstPiece
    match mctLogstorageSyncToFile files config s first.1 first.2 with
    | none => []
    | some (ret, s') =>
        ⟨first.1, first.2, ret⟩ ::
          if s.footer.wrapAroundCnt < 1 then []
          else
            let s' := s'.setLastSync 0
            match mctLogstorageSyncToFile files config s' s'.footer.lastSyncOffset
              s'.footer.offset with
            | none => []
            | some (ret', _) => [⟨s'.footer.lastSyncOffset, s'.footer.offset, ret'⟩]
  else []

/-- The cells of the piece are as they were, and the next sync is to write them. -/
def CacheState.Keeps (s s' : CacheState) (call : SyncCall) : Prop :=
  slice s'.cache call.startOffset (call.endOffset - call.startOffset) =
      slice s.cache call.startOffset (call.endOffset - call.startOffset) ∧
    ∃ piece ∈ s'.footer.pieces, piece.1 ≤ call.startOffset ∧ call.endOffset ≤ piece.2

/-- When a piece cannot be written the sync returns an error and the cache keeps the piece. -/
def ReportsFailures (s : CacheState) (status : Nat) : Prop :=
  ∀ call ∈ syncCalls files config s status, call.returned ≠ 0 →
    ∃ ret s', mctLogstorageSyncMsgCache files config s status = some (ret, s') ∧ ret ≠ 0 ∧
      s.Keeps s' call

end Calls

section Returned

variable {files : LogFiles} {config : CacheConfig} {s : CacheState}

/-- A sync that ends returns 0. -/
theorem syncMsgCache_returned {status : Nat} {ret : Int} {s' : CacheState}
    (h : mctLogstorageSyncMsgCache files config s status = some (ret, s')) : ret = 0 := by
  unfold mctLogstorageSyncMsgCache at h
  split at h
  · cases hrounds : syncRounds files config s with
    | none =>
        rw [hrounds] at h
        cases h
    | some synced =>
        rw [hrounds] at h
        exact (Prod.mk.inj (Option.some.inj h)).1.symm
  · exact (Prod.mk.inj (Option.some.inj h)).1.symm

/-- A failed call is never reported, so that failures are handled as they should be exactly
where there is none. -/
theorem failed_sync_reported_iff (files : LogFiles) (config : CacheConfig) (s : CacheState)
    (status : Nat) :
    ReportsFailures files config s status ↔
      ∀ call ∈ syncCalls files config s status, call.returned = 0 := by
  constructor
  · intro hreports call hcall
    by_contra hfailed
    obtain ⟨ret, s', hsync, hret, -⟩ := hreports call hcall hfailed
    exact hret (syncMsgCache_returned hsync)
  · intro hnone call hcall hfailed
    exact absurd (hnone call hcall) hfailed

end Returned

section Unopened

variable {files : LogFiles} {config : CacheConfig} {s : CacheState}

/-- Without a log file a call changes nothing in the cache and writes nothing. -/
theorem syncToFile_unopened (hfiles : ∀ opens count isSync, files opens count isSync = .failed)
    (startOffset endOffset : Nat) :
    ∃ s', mctLogstorageSyncToFile files config s startOffset endOffset = some (-1, s') ∧
      s'.cache = s.cache ∧ s'.footer = s.footer ∧ s'.written = s.written := by
  unfold mctLogstorageSyncToFile
  simp only [CacheState.openLogFile, hfiles]
  rw [if_pos (by decide)]
  refine ⟨_, rfl, ?_⟩
  cases s.log with
  | true => exact ⟨rfl, rfl, rfl⟩
  | false => exact ⟨rfl, rfl, rfl⟩

/-- Both rounds of a sync come to nothing. -/
theorem syncRounds_unopened (hfiles : ∀ opens count isSync, files opens count isSync = .failed) :
    ∃ s', syncRounds files config s = some s' ∧ s'.cache = s.cache ∧ s'.written = s.written := by
  have hround : ∀ startOffset endOffset, ∃ first second,
      mctLogstorageSyncToFile files config s startOffset endOffset = some (-1, first) ∧
        mctLogstorageSyncToFile files config (first.setLastSync 0)
          (first.setLastSync 0).footer.lastSyncOffset (first.setLastSync 0).footer.offset =
            some (-1, second) ∧
        second.cache = s.cache ∧ second.written = s.written := by
    intro startOffset endOffset
    obtain ⟨first, hfirst, hcache, -, hwritten⟩ :=
      @syncToFile_unopened files config s hfiles startOffset endOffset
    obtain ⟨second, hsecond, hcache', -, hwritten'⟩ :=
      @syncToFile_unopened files config (first.setLastSync 0) hfiles
        (first.setLastSync 0).footer.lastSyncOffset (first.setLastSync 0).footer.offset
    exact ⟨first, second, hfirst, hsecond, hcache'.trans hcache, hwritten'.trans hwritten⟩
  unfold syncRounds
  split
  · obtain ⟨first, hfirst, hcache, -, hwritten⟩ :=
      @syncToFile_unopened files config s hfiles s.footer.lastSyncOffset s.footer.offset
    refine ⟨first, ?_, hcache, hwritten⟩
    simp only [hfirst, Option.bind_eq_bind, Option.bind_some, Option.pure_def]
  · split
    · obtain ⟨first, second, hfirst, hsecond, hkept⟩ :=
        hround s.footer.lastSyncOffset s.footer.endSyncOffset
      refine ⟨second, ?_, hkept⟩
      simp only [hfirst, hsecond, Option.bind_eq_bind, Option.bind_some, Option.pure_def]
    · obtain ⟨first, second, hfirst, hsecond, hkept⟩ :=
        hround s.footer.offset s.footer.endSyncOffset
      refine ⟨second, ?_, hkept⟩
      simp only [hfirst, hsecond, Option.bind_eq_bind, Option.bind_some, Option.pure_def]

/-- A sync for a size empties the cache although nothing was written. -/
theorem syncMsgCache_unopened (hfiles : ∀ opens count isSync, files opens count isSync = .failed)
    {status : Nat} (hstatus : isStrategySet config.sync status)
    (hsize : status = syncOnSpecificSize ∨ status = syncOnFileSize) :
    ∃ s', mctLogstorageSyncMsgCache files config s status = some (0, s') ∧
      s'.cache = List.replicate config.cacheSize 0 ∧ s'.footer = .cleared ∧
      s'.written = s.written := by
  obtain ⟨synced, hsynced, -, hwritten⟩ := @syncRounds_unopened files config s hfiles
  unfold mctLogstorageSyncMsgCache
  rw [if_pos hstatus, hsynced]
  simp only [Option.bind_eq_bind, Option.bind_some, if_pos hsize, Option.pure_def]
  refine ⟨_, rfl, ?_⟩
  split
  · exact ⟨rfl, rfl, hwritten⟩
  · exact ⟨rfl, rfl, hwritten⟩

/-- What comes of the failures that are not reported: while no log file can be opened, a message
that does not fit behind the others takes the place of them all, nothing was written, and the caller
of `mct_logstorage_write_msg_cache` is told that all went well. -/
theorem writeMsgCache_unopened (hfiles : ∀ opens count isSync, files opens count isSync = .failed)
    (hsync : isStrategySet config.sync syncOnFileSize ∨
      isStrategySet config.sync syncOnSpecificSize)
    {data1 data2 data3 : List UInt8}
    (hlong : int32 (config.cacheSize - s.footer.offset) <
      int32 (data1.length + data2.length + data3.length : Nat))
    (hfits : uint32 (int32 (data1.length + data2.length + data3.length : Nat)) ≤
      config.cacheSize) :
    ∃ s', mctLogstorageWriteMsgCache files config s data1 data2 data3 = some (0, s') ∧
      s'.cache = copyInto (List.replicate config.cacheSize 0) 0 (data1 ++ data2 ++ data3) ∧
      s'.written = s.written := by
  have hcleared : ∃ s', syncOrCountWrapAround files config s = some (0, s') ∧
      s'.cache = List.replicate config.cacheSize 0 ∧ s'.written = s.written := by
    unfold syncOrCountWrapAround
    split
    · next hfile =>
        obtain ⟨s', hs', hcache, -, hwritten⟩ :=
          @syncMsgCache_unopened files config s hfiles _ hfile (.inr rfl)
        exact ⟨s', hs', hcache, hwritten⟩
    · next hfile =>
        have hspecific := hsync.resolve_left hfile
        obtain ⟨s', hs', hcache, -, hwritten⟩ :=
          @syncMsgCache_unopened files config s hfiles _ hspecific (.inl rfl)
        rw [if_pos hspecific]
        exact ⟨s', hs', hcache, hwritten⟩
  obtain ⟨cleared, hs', hcache, hwritten⟩ := hcleared
  unfold mctLogstorageWriteMsgCache
  simp only [if_neg (not_le.mpr hlong), if_pos hlong.le, if_neg (not_lt.mpr hfits), hs',
    Option.bind_eq_bind, Option.bind_some, if_pos hlong, Option.pure_def]
  rw [if_neg (by decide)]
  exact ⟨_, rfl, congrArg (fun cache => copyInto cache 0 _) hcache, hwritten⟩

end Unopened

/-- A message of eight bytes in a cache of sixteen. -/
def oneMessage : CacheState where
  cache := [68, 76, 84, 1, 1, 2, 3, 4] ++ List.replicate 8 0
  footer := ⟨8, 0, 0, 8⟩
  log := false
  currentWriteFileOffset := 0
  skip := false
  opens := 0
  written := []

/-- The log file cannot be opened, and the message is gone. -/
theorem message_lost_without_file :
    ¬ ReportsFailures (fun _ _ _ => .failed) ⟨syncOnFileSize, 16, 0⟩ oneMessage syncOnFileSize ∧
      (mctLogstorageSyncMsgCache (fun _ _ _ => .failed) ⟨syncOnFileSize, 16, 0⟩ oneMessage
        syncOnFileSize).map (fun result => (result.1, result.2.cache, result.2.written)) =
        some (0, List.replicate 16 0, []) := by
  refine ⟨?_, by decide⟩
  intro hreports
  obtain ⟨ret, s', hsync, hret, -⟩ := hreports ⟨0, 8, -1⟩ (by decide) (by decide)
  exact hret (syncMsgCache_returned hsync)

end MctDaemon.Logstorage
