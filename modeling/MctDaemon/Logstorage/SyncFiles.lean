import MctDaemon.Logstorage.CacheSync

/-!
Which log file the cache goes to: `mct_logstorage_sync_to_file` with the choice of
the file that `mct_logstorage_open_log_file` makes. File operations succeed, and
there is always a next file.
-/

namespace MctDaemon.Logstorage

open Lib

/-- A log file: the size that it had, and the pieces of the cache that were
appended to it. -/
structure SyncedFile where
  filled : Nat
  pieces : List (Placed UInt8)
  deriving DecidableEq, Repr

def SyncedFile.size (f : SyncedFile) : Nat := f.filled + (contents f.pieces).length

/-- The log files, the current one last. -/
structure SyncedFiles where
  older : List SyncedFile
  current : SyncedFile
  deriving DecidableEq, Repr

namespace SyncedFiles

def all (files : SyncedFiles) : List SyncedFile := files.older ++ [files.current]

def bytes (files : SyncedFiles) : List UInt8 := contents (files.all.flatMap SyncedFile.pieces)

/-- The file that `mct_logstorage_open_log_file` opens. -/
def openFile (files : SyncedFiles) (fileSize : Nat) (count : Int) (isSync : Bool) : SyncedFiles :=
  if isSync ∧ (files.current.size : Int) < int32 fileSize ∨
      ¬ isSync ∧ (files.current.size : Int) + count ≤ int32 fileSize then files
  else ⟨files.all, ⟨0, []⟩⟩

def append (files : SyncedFiles) (piece : Placed UInt8) : SyncedFiles :=
  { files with current := ⟨files.current.filled, files.current.pieces ++ [piece]⟩ }

/-- `fwrite(cache + offset, count, 1, log)`. -/
def write (files : SyncedFiles) (cache : List UInt8) (offset count : Nat) : Option SyncedFiles :=
  if offset + count ≤ cache.length then some (files.append ⟨offset, slice cache offset count⟩)
  else none

end SyncedFiles

section Model

variable (cache : List UInt8) (fileSize : Nat)

/-- The first part of `mct_logstorage_sync_to_file`, for more bytes than there is
room for in the file. -/
def fillFile (files : SyncedFiles) (startOffset : Nat) (remainFileSize : Int) :
    Option (SyncedFiles × Nat × Int) := do
  let startIndex ← mctLogstorageFindMctHeader cache startOffset (uint32 remainFileSize)
  let endIndex ← mctLogstorageFindLastMctHeader cache (uint32 (startOffset + startIndex))
    (uint32 (remainFileSize - startIndex))
  let count := int32 (endIndex - startIndex)
  if 0 ≤ startIndex ∧ startIndex < endIndex ∧ 0 < count ∧ count ≤ remainFileSize then
    let files ← files.write cache (startOffset + startIndex.toNat) count.toNat
    return (files, uint32 (startOffset + count), count)
  else
    return (files, startOffset, count)

/-- The second part; the log file has been closed by the first. -/
def syncRest (files : SyncedFiles) (log : Bool) (startOffset endOffset : Nat) (count : Int) :
    Option SyncedFiles := do
  let startIndex ← mctLogstorageFindMctHeader cache startOffset (uint32 count)
  let count := int32 (endOffset - startOffset - startIndex)
  if 0 ≤ startIndex ∧ 0 < count then
    let files := if log then files else files.openFile fileSize count false
    files.write cache (startOffset + startIndex.toNat) count.toNat
  else return files

/-- `mct_logstorage_sync_to_file`: the log files after it. -/
def syncFiles (files : SyncedFiles) (startOffset endOffset : Nat) : Option SyncedFiles := do
  let count := int32 (endOffset - startOffset)
  let files := files.openFile fileSize count true
  let remainFileSize := int32 (fileSize - files.current.size)
  if remainFileSize < count then
    let (files, startOffset, count) ← fillFile cache files startOffset remainFileSize
    syncRest cache fileSize files false startOffset endOffset count
  else
    syncRest cache fileSize files true startOffset endOffset count

end Model

section Searches

variable {cache : List UInt8} {offset cnt : Nat}

theorem startsWith_eq {expected cells : List UInt8} (h : expected.length ≤ cells.length) :
    ∃ answer, startsWith expected cells = some answer := by
  induction expected generalizing cells with
  | nil => exact ⟨true, rfl⟩
  | cons c expected ih =>
      cases cells with
      | nil => simp at h
      | cons cell cells =>
          rw [startsWith]
          split
          · exact ih (by simpa using h)
          · exact ⟨false, rfl⟩

theorem length_of_mark {cells : List UInt8} {i : Nat} (h : magic <+: cells.drop i) :
    i + 4 ≤ cells.length := by
  have hle := h.length_le
  simp only [magic, List.length_cons, List.length_nil, List.length_drop] at hle
  omega

theorem findHeaderFrom_total {k i : Nat} {cells : List UInt8} (hk : i + k < cnt)
    (hmark : magic <+: cells.drop k) : ∃ r, findHeaderFrom i cnt cells = some r := by
  induction k generalizing i cells with
  | zero =>
      cases cells with
      | nil => exact absurd (length_of_mark hmark) (by simp)
      | cons cell cells =>
          rw [findHeaderFrom, if_pos (by omega), startsWith_true (by simpa using hmark)]
          exact ⟨_, rfl⟩
  | succ k ih =>
      cases cells with
      | nil => exact absurd (length_of_mark hmark) (by simp)
      | cons cell cells =>
          have hlength := length_of_mark hmark
          obtain ⟨answer, hanswer⟩ := @startsWith_eq magic (cell :: cells)
            (by simp only [magic, List.length_cons, List.length_nil] at hlength ⊢; omega)
          rw [findHeaderFrom, if_pos (by omega), hanswer]
          cases answer with
          | true => exact ⟨_, rfl⟩
          | false => exact ih (by omega) hmark

/-- The search that has a header in its window finds the first one. -/
theorem findHeader_first {k : Nat} (hk : k < cnt) (hat : magic <+: cache.drop (offset + k)) :
    ∃ j ≤ k, mctLogstorageFindMctHeader cache offset cnt = some (j : Int) ∧
      magic <+: cache.drop (offset + j) ∧ ∀ i < j, ¬ magic <+: cache.drop (offset + i) := by
  simp only [← List.drop_drop] at hat ⊢
  obtain ⟨r, hr⟩ := findHeaderFrom_total (by omega : 0 + k < cnt) hat
  rcases findHeaderFrom_some hr with ⟨-, hnone⟩ | ⟨j, hj, -, hmark, hfirst⟩
  · exact absurd hat (hnone k (by omega))
  · refine ⟨j, ?_, by rw [mctLogstorageFindMctHeader, hr, hj, Nat.zero_add], hmark, hfirst⟩
    by_contra hlt
    exact hfirst k (by omega) hat

/-- The search finds nothing in a window without header. -/
theorem findHeader_none {r : Int} (h : mctLogstorageFindMctHeader cache offset cnt = some r)
    (hnone : ∀ i < cnt, ¬ magic <+: cache.drop (offset + i)) : r = -1 := by
  simp only [← List.drop_drop] at hnone
  rcases findHeaderFrom_some h with ⟨hr, -⟩ | ⟨j, -, hj, hmark, -⟩
  · exact hr
  · exact absurd hmark (hnone j (by omega))

theorem findLastHeaderFrom_some {cells : List UInt8} {n : Nat} {r : Int}
    (h : findLastHeaderFrom cells n = some r) :
    (r = -1 ∧ ∀ j, 0 < j → j ≤ n → ¬ magic <+: cells.drop j) ∨
      ∃ e, r = (e : Nat) ∧ 0 < e ∧ e ≤ n ∧ magic <+: cells.drop e ∧
        ∀ j, e < j → j ≤ n → ¬ magic <+: cells.drop j := by
  induction n with
  | zero => exact .inl ⟨(Option.some.inj h).symm, fun j hlow hhigh => by omega⟩
  | succ n ih =>
      rw [findLastHeaderFrom] at h
      cases hstart : startsWith magic (cells.drop (n + 1)) with
      | none => simp [hstart] at h
      | some answer =>
          have hiff := startsWith_some hstart
          cases answer with
          | true =>
              simp only [hstart, Option.bind_eq_bind, Option.bind_some, if_true] at h
              exact .inr ⟨n + 1, (Option.some.inj h).symm, by omega, le_rfl, hiff.mp rfl,
                fun j hlow hhigh => by omega⟩
          | false =>
              have hnot : ¬ magic <+: cells.drop (n + 1) :=
                fun hprefix => Bool.false_ne_true (hiff.mpr hprefix)
              have hstep : ∀ {j}, j ≤ n + 1 → j = n + 1 ∨ j ≤ n := by omega
              simp only [hstart, Option.bind_eq_bind, Option.bind_some] at h
              rcases ih h with ⟨hmissed, hnone⟩ | ⟨e, hr, hlow, hhigh, hmark, hlast⟩
              · refine .inl ⟨hmissed, fun j hlow hhigh => ?_⟩
                rcases hstep hhigh with rfl | hle
                · exact hnot
                · exact hnone j hlow hle
              · refine .inr ⟨e, hr, hlow, by omega, hmark, fun j hlow hhigh => ?_⟩
                rcases hstep hhigh with rfl | hle
                · exact hnot
                · exact hlast j hlow hle

theorem findLastHeaderFrom_total {cells : List UInt8} {n : Nat} (hlength : n + 4 ≤ cells.length) :
    ∃ r, findLastHeaderFrom cells n = some r := by
  induction n with
  | zero => exact ⟨_, rfl⟩
  | succ n ih =>
      obtain ⟨answer, hanswer⟩ := @startsWith_eq magic (cells.drop (n + 1))
        (by simp only [magic, List.length_cons, List.length_nil, List.length_drop]; omega)
      rw [findLastHeaderFrom, hanswer]
      cases answer with
      | true => exact ⟨_, rfl⟩
      | false => exact ih (by omega)

/-- The backward search looks at the positions of the window that have a whole
header in it, and at one more. -/
theorem findLastHeader_some {r : Int} (hcnt : cnt < 2147483648)
    (h : mctLogstorageFindLastMctHeader cache offset cnt = some r) :
    (r = -1 ∧ ∀ j, 0 < j → j + 3 ≤ cnt → ¬ magic <+: cache.drop (offset + j)) ∨
      ∃ e, r = (e : Nat) ∧ 0 < e ∧ e + 3 ≤ cnt ∧ magic <+: cache.drop (offset + e) ∧
        ∀ j, e < j → j + 3 ≤ cnt → ¬ magic <+: cache.drop (offset + j) := by
  have hstart : (int32 ((cnt : Int) - 3)).toNat = cnt - 3 := by
    rw [int32_of_small (by omega) (by omega)]
    omega
  simp only [← List.drop_drop]
  rw [mctLogstorageFindLastMctHeader, hstart] at h
  rcases findLastHeaderFrom_some h with ⟨hr, hnone⟩ | ⟨e, hr, hlow, hhigh, hmark, hlast⟩
  · exact .inl ⟨hr, fun j hlow hhigh => hnone j hlow (by omega)⟩
  · exact .inr ⟨e, hr, hlow, by omega, hmark, fun j hlow hhigh => hlast j hlow (by omega)⟩

theorem findLastHeader_total (hcnt : cnt < 2147483648) (hlength : offset + cnt + 1 ≤ cache.length) :
    ∃ r, mctLogstorageFindLastMctHeader cache offset cnt = some r := by
  have hstart : (int32 ((cnt : Int) - 3)).toNat = cnt - 3 := by
    rw [int32_of_small (by omega) (by omega)]
    omega
  rw [mctLogstorageFindLastMctHeader, hstart]
  by_cases hsmall : cnt ≤ 3
  · rw [Nat.sub_eq_zero_of_le hsmall]
    exact ⟨_, rfl⟩
  · exact findLastHeaderFrom_total (by rw [List.length_drop]; omega)

end Searches

section Connection

variable {cells extra : List UInt8}

theorem startsWith_append {expected : List UInt8} {answer : Bool}
    (h : startsWith expected cells = some answer) :
    startsWith expected (cells ++ extra) = some answer := by
  induction expected generalizing cells with
  | nil => simpa only [startsWith] using h
  | cons c expected ih =>
      cases cells with
      | nil => simp [startsWith] at h
      | cons cell cells =>
          simp only [startsWith, List.cons_append] at h ⊢
          split
          · next heq =>
              rw [if_pos heq] at h
              exact ih h
          · next hne => rwa [if_neg hne] at h

theorem findHeaderFrom_append {i cnt : Nat} {r : Int}
    (h : findHeaderFrom i cnt cells = some r) :
    findHeaderFrom i cnt (cells ++ extra) = some r := by
  induction cells generalizing i with
  | nil =>
      rw [findHeaderFrom] at h
      split at h
      · cases h
      · next hlast =>
          rw [List.nil_append]
          cases extra with
          | nil => rw [findHeaderFrom, if_neg hlast, h]
          | cons cell extra => rw [findHeaderFrom, if_neg hlast, h]
  | cons cell cells ih =>
      rw [List.cons_append, findHeaderFrom]
      rw [findHeaderFrom] at h
      split
      · next hlow =>
          rw [if_pos hlow] at h
          cases hstart : startsWith magic (cell :: cells) with
          | none => simp [hstart] at h
          | some answer =>
              rw [← List.cons_append, startsWith_append hstart]
              rw [hstart] at h
              cases answer with
              | true => exact h
              | false => exact ih h
      · next hlast => rwa [if_neg hlast] at h

/-- A search that stays in the cache does not depend on what is behind it. -/
theorem findHeader_append {cache : List UInt8} {offset cnt : Nat} {r : Int}
    (h : mctLogstorageFindMctHeader cache offset cnt = some r) :
    mctLogstorageFindMctHeader (cache ++ extra) offset cnt = some r := by
  unfold mctLogstorageFindMctHeader at h ⊢
  rw [List.drop_append]
  exact findHeaderFrom_append h

theorem findLastHeaderFrom_append {n : Nat} {r : Int} (h : findLastHeaderFrom cells n = some r) :
    findLastHeaderFrom (cells ++ extra) n = some r := by
  induction n with
  | zero => exact h
  | succ n ih =>
      rw [findLastHeaderFrom] at h ⊢
      cases hstart : startsWith magic (cells.drop (n + 1)) with
      | none => simp [hstart] at h
      | some answer =>
          rw [List.drop_append, startsWith_append hstart]
          rw [hstart] at h
          cases answer with
          | true => exact h
          | false => exact ih h

theorem findLastHeader_append {cache : List UInt8} {offset cnt : Nat} {r : Int}
    (h : mctLogstorageFindLastMctHeader cache offset cnt = some r) :
    mctLogstorageFindLastMctHeader (cache ++ extra) offset cnt = some r := by
  unfold mctLogstorageFindLastMctHeader at h ⊢
  rw [List.drop_append]
  exact findLastHeaderFrom_append h

theorem openFile_bytes (files : SyncedFiles) (fileSize : Nat) (count : Int) (isSync : Bool) :
    (files.openFile fileSize count isSync).bytes = files.bytes := by
  unfold SyncedFiles.openFile
  split
  · rfl
  · simp [SyncedFiles.bytes, SyncedFiles.all]

/-- What the cache hands to `fwrite` is what is added to the files. -/
def SameBytes (s s' : CacheState) (files files' : SyncedFiles) : Prop :=
  ∃ added, s'.written = s.written ++ added ∧ files'.bytes = files.bytes ++ added

theorem sameBytes_write {s s' : CacheState} {files files' files'' : SyncedFiles}
    {offset count : Nat} (hbytes : files'.bytes = files.bytes)
    (hfiles : files'.write s.cache offset count = some files'')
    (hs : s'.cache = s.cache) (hwritten : s'.written = s.written) :
    ∃ s'', s'.write offset count = some s'' ∧ s'' = { s' with written := s''.written } ∧
      SameBytes s s'' files files'' := by
  unfold SyncedFiles.write at hfiles
  split at hfiles
  · next hinside =>
      obtain rfl := Option.some.inj hfiles
      have hblock : offset + count ≤ s'.block.length := by
        simp only [CacheState.block, hs, List.length_append]
        omega
      have hslice : slice s'.block offset count = slice s.cache offset count := by
        rw [← hs]
        exact slice_block (by rwa [hs])
      refine ⟨_, by rw [CacheState.write, if_pos hblock], rfl, slice s.cache offset count, ?_, ?_⟩
      · simp only [hwritten, hslice]
      · rw [← hbytes]
        simp [SyncedFiles.bytes, SyncedFiles.append, SyncedFiles.all, contents]
  · cases hfiles

variable {s : CacheState} {files files' : SyncedFiles} {startOffset endOffset : Nat}

/-- The first part of the call in the cache. -/
theorem fillRemainingFile_of_fillFile {room count : Int} {startOffset' : Nat}
    (h : fillFile s.cache files startOffset room = some (files', startOffset', count)) :
    ∃ s', fillRemainingFile s startOffset room = some (s', startOffset', count) ∧
      s'.cache = s.cache ∧ s'.log = false ∧ s'.skip = s.skip ∧ s'.opens = s.opens ∧
        SameBytes s s' files files' := by
  simp only [fillFile, Option.bind_eq_bind, Option.bind_eq_some_iff] at h
  obtain ⟨r, hr, e, he, h⟩ := h
  simp only [fillRemainingFile, CacheState.block, findHeader_append hr, findLastHeader_append he,
    Option.bind_eq_bind, Option.bind_some]
  split at h
  · next hfits =>
      obtain ⟨filled, hwrite, h⟩ := Option.bind_eq_some_iff.mp h
      obtain ⟨s', hs', hrest, hsame⟩ := @sameBytes_write _ s _ _ _ _ _ rfl hwrite rfl rfl
      obtain ⟨rfl, rfl, rfl⟩ : filled = files' ∧ _ = startOffset' ∧ _ = count := by
        simpa using h
      rw [if_pos hfits, hs']
      refine ⟨_, rfl, ?_, rfl, ?_, ?_, hsame⟩ <;> rw [hrest] <;> rfl
  · next hfits =>
      obtain ⟨rfl, rfl, rfl⟩ : files = files' ∧ _ = startOffset' ∧ _ = count := by
        simpa using h
      rw [if_neg hfits]
      exact ⟨_, rfl, rfl, rfl, rfl, rfl, [], by simp [CacheState.closeLog], by simp⟩

variable {oracle : LogFiles} {fileSize : Nat}

/-- The second part, with a log file for each open. -/
theorem syncFromHeader_of_syncRest {count : Int} (hskip : s.skip = false)
    (hopen : ∀ count, oracle s.opens count false =
      .opened (files.openFile fileSize count false).current.size)
    (h : syncRest s.cache fileSize files s.log startOffset endOffset count = some files') :
    ∃ s', syncFromHeader oracle s startOffset endOffset count = some (0, s') ∧
      SameBytes s s' files files' := by
  simp only [syncRest, Option.bind_eq_bind, Option.bind_eq_some_iff] at h
  obtain ⟨r, hr, h⟩ := h
  simp only [syncFromHeader, CacheState.block, findHeader_append hr, Option.bind_eq_bind,
    Option.bind_some]
  split at h
  · next hfound =>
      rw [if_pos hfound]
      cases hlog : s.log with
      | true =>
          simp only [hlog, if_true] at h ⊢
          obtain ⟨s', hs', -, hsame⟩ := @sameBytes_write _ s _ _ _ _ _ rfl h rfl rfl
          rw [if_neg (by simp), if_neg (by simp [hskip]), hs']
          exact ⟨_, rfl, hsame⟩
      | false =>
          simp only [hlog, Bool.false_eq_true, if_false, CacheState.openLogFile, hopen] at h ⊢
          obtain ⟨s', hs', -, hsame⟩ := @sameBytes_write _
            { s with
              opens := s.opens + 1
              log := true
              currentWriteFileOffset := (files.openFile fileSize _ false).current.size } _ _ _ _ _
            (openFile_bytes files fileSize _ false) h rfl rfl
          rw [if_neg (by simp), if_neg (by simp [hskip]), hs']
          exact ⟨_, rfl, hsame⟩
  · next hfound =>
      obtain rfl : files = files' := by simpa using h
      rw [if_neg hfound]
      exact ⟨_, rfl, [], by simp, by simp⟩

/-- The answers to the opens of a call: for the files before it, and for those
after its first part. -/
def fileAnswers (opens fileSize : Nat) (before second : SyncedFiles) : LogFiles :=
  fun n count isSync =>
    .opened ((if n = opens then before else second).openFile fileSize count isSync).current.size

/-- With these files, `mctLogstorageSyncToFile` hands to `fwrite` what the files get. -/
theorem syncToFile_of_syncFiles {config : CacheConfig} (hskip : s.skip = false)
    (h : syncFiles s.cache config.fileSize files startOffset endOffset = some files') :
    ∃ second s', mctLogstorageSyncToFile (fileAnswers s.opens config.fileSize files second) config
        s startOffset endOffset = some (0, s') ∧ SameBytes s s' files files' := by
  obtain ⟨base, hbase, hcache, hwritten, hopens, hbaseSkip⟩ : ∃ base : CacheState,
      base = (if s.log then s.closeLog else s) ∧ base.cache = s.cache ∧
        base.written = s.written ∧ base.opens = s.opens ∧ base.skip = false := by
    refine ⟨_, rfl, ?_, ?_, ?_, ?_⟩ <;> split <;> first | rfl | exact hskip
  simp only [syncFiles, Option.bind_eq_bind] at h
  generalize hcount : int32 ((endOffset : Int) - startOffset) = count at h
  have hbytes := openFile_bytes files config.fileSize count true
  generalize hopened : files.openFile config.fileSize count true = opened at h hbytes
  have hfirst : ∀ second, fileAnswers s.opens config.fileSize files second s.opens count true =
      .opened opened.current.size := by
    intro second
    rw [fileAnswers, if_pos rfl, hopened]
  have hnext : ∀ second count, fileAnswers s.opens config.fileSize files second (s.opens + 1)
      count false = .opened (second.openFile config.fileSize count false).current.size := by
    intro second count
    rw [fileAnswers, if_neg (by omega)]
  simp only [mctLogstorageSyncToFile, ← hbase, hcount, CacheState.openLogFile, hopens, hfirst,
    hbaseSkip]
  split at h
  · next hroom =>
      rw [← hcache] at h
      obtain ⟨⟨filled, next, count'⟩, hfill, hrest⟩ := Option.bind_eq_some_iff.mp h
      obtain ⟨s1, hs1, hs1cache, hs1log, hs1skip, hs1opens, added1, hadded1, hbytes1⟩ :=
        fillRemainingFile_of_fillFile
          (s := { base with
            opens := s.opens + 1
            log := true
            currentWriteFileOffset := opened.current.size
            skip := false }) hfill
      rw [← hs1log, ← hs1cache] at hrest
      obtain ⟨s2, hs2, added2, hadded2, hbytes2⟩ :=
        @syncFromHeader_of_syncRest _ _ _ _ _
          (fileAnswers s.opens config.fileSize files filled) _ _ hs1skip
          (fun count => by rw [hs1opens]; exact hnext filled count) hrest
      refine ⟨filled, s2, ?_, added1 ++ added2, ?_, ?_⟩
      · rw [if_neg (by simp), if_neg (by simp), if_pos hroom, hs1]
        exact hs2
      · rw [hadded2, hadded1, hwritten, List.append_assoc]
      · rw [hbytes2, hbytes1, hbytes, List.append_assoc]
  · next hroom =>
      rw [← hcache] at h
      obtain ⟨s', hs', added, hadded, hbytes'⟩ :=
        @syncFromHeader_of_syncRest
          { base with
            opens := s.opens + 1
            log := true
            currentWriteFileOffset := opened.current.size
            skip := false }
          _ _ _ _ (fileAnswers s.opens config.fileSize files opened) _ _ rfl
          (fun count => hnext opened count) h
      refine ⟨opened, s', ?_, added, ?_, ?_⟩
      · rw [if_neg (by simp), if_neg (by simp), if_neg hroom]
        exact hs'
      · rw [hadded, hwritten]
      · rw [hbytes', hbytes]

end Connection

end MctDaemon.Logstorage
