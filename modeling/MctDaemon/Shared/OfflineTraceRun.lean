import Mathlib.Data.List.Infix
import MctDaemon.Shared.OfflineTrace

/-!
What the offline trace keeps. As long as the oldest file is the one that is
removed and a new file has a new name, the directory is the end of the history
of all trace files, each file holds whole messages, and the quota is kept.
-/

namespace MctDaemon.Shared

open Lib

section Removal

def filesSize (files : List TraceFile) : Nat := (files.map fun f => f.content.length).sum

/-- What is left when the files in front are removed as long as the size is above
the bound. -/
def dropOver (bound : Int) : List TraceFile → List TraceFile
  | [] => []
  | f :: rest => if bound < filesSize (f :: rest) then dropOver bound rest else f :: rest

/-- Each file that is in the way is older than all that were created behind it,
by the second, and not larger than an `int` can tell. -/
def RemovesOldest (bound : Int) : List TraceFile → Prop
  | [] => True
  | f :: rest => bound < filesSize (f :: rest) →
      (0 < f.mtime ∧ f.content.length < 2147483648 ∧ ∀ g ∈ rest, f.mtime < g.mtime) ∧
        RemovesOldest bound rest

instance decidableRemovesOldest (bound : Int) :
    (files : List TraceFile) → Decidable (RemovesOldest bound files)
  | [] => .isTrue trivial
  | _ :: rest =>
      have := decidableRemovesOldest bound rest
      inferInstanceAs (Decidable (_ → _ ∧ _))

theorem dropOver_suffix (bound : Int) (files : List TraceFile) :
    dropOver bound files <:+ files := by
  induction files with
  | nil => exact List.suffix_rfl
  | cons f rest ih =>
      rw [dropOver]
      split
      · exact ih.trans (List.suffix_cons f rest)
      · exact List.suffix_rfl

theorem filesSize_dropOver {bound : Int} (hbound : 0 ≤ bound) (files : List TraceFile) :
    filesSize (dropOver bound files) ≤ bound := by
  induction files with
  | nil => simpa [dropOver, filesSize] using hbound
  | cons f rest ih =>
      rw [dropOver]
      split
      · exact ih
      · omega

variable {cfg : TraceSettings}

theorem totalSize_eq {files : List TraceFile} (htrace : ∀ f ∈ files, isTraceFile f) :
    mctOfflineTraceGetTotalSize cfg files = filesSize files := by
  have hall : (cfg.listing.order files).filter isTraceFile = cfg.listing.order files :=
    List.filter_eq_self.mpr fun f hf => htrace f ((cfg.listing.perm files).mem_iff.mp hf)
  rw [mctOfflineTraceGetTotalSize, hall, filesSize]
  exact ((cfg.listing.perm files).map _).sum_eq

theorem foldl_olderFile_of_le {f : TraceFile} (hpos : 0 < f.mtime) {files : List TraceFile}
    (hall : ∀ g ∈ files, f.mtime ≤ g.mtime) :
    files.foldl olderFile (f.mtime, some f) = (f.mtime, some f) := by
  induction files with
  | nil => rfl
  | cons g rest ih =>
      have hle := hall g List.mem_cons_self
      rw [List.foldl_cons, olderFile, if_neg (by simp only; omega),
        ih fun other hother => hall other (List.mem_cons_of_mem _ hother)]

/-- The scan finds a file that is older than all others. -/
theorem foldl_olderFile {f : TraceFile} (hpos : 0 < f.mtime) {files : List TraceFile}
    (hmem : f ∈ files) (hall : ∀ g ∈ files, g = f ∨ f.mtime < g.mtime)
    {oldest : Nat × Option TraceFile} (holdest : oldest.1 = 0 ∨ f.mtime < oldest.1) :
    files.foldl olderFile oldest = (f.mtime, some f) := by
  induction files generalizing oldest with
  | nil => cases hmem
  | cons g rest ih =>
      have hrest : ∀ other ∈ rest, other = f ∨ f.mtime < other.mtime :=
        fun other hother => hall other (List.mem_cons_of_mem _ hother)
      rw [List.foldl_cons]
      rcases hall g List.mem_cons_self with rfl | hyounger
      · rw [olderFile, if_pos holdest]
        refine foldl_olderFile_of_le hpos fun other hother => ?_
        rcases hrest other hother with rfl | h
        · exact le_rfl
        · exact h.le
      · have hmem' : f ∈ rest := by
          rcases List.mem_cons.mp hmem with rfl | h
          · omega
          · exact h
        refine ih hmem' hrest ?_
        unfold olderFile
        split
        · exact .inr hyounger
        · exact holdest

theorem deleteOldestFile_eq {f : TraceFile} {rest : List TraceFile}
    (htrace : ∀ g ∈ f :: rest, isTraceFile g)
    (hnodup : ((f :: rest).map TraceFile.name).Nodup) (hpos : 0 < f.mtime)
    (hsize : f.content.length < 2147483648) (hyounger : ∀ g ∈ rest, f.mtime < g.mtime) :
    mctOfflineTraceDeleteOldestFile cfg (f :: rest) = ((f.content.length : Int), rest) := by
  have hperm := cfg.listing.perm (f :: rest)
  have hfilter : (cfg.listing.order (f :: rest)).filter isTraceFile =
      cfg.listing.order (f :: rest) :=
    List.filter_eq_self.mpr fun g hg => htrace g (hperm.mem_iff.mp hg)
  have hfold := foldl_olderFile hpos (hperm.mem_iff.mpr List.mem_cons_self)
    (fun g hg => (List.mem_cons.mp (hperm.mem_iff.mp hg)).imp id (hyounger g))
    (.inl rfl : ((0, none) : Nat × Option TraceFile).1 = 0 ∨ _)
  rw [List.map_cons, List.nodup_cons] at hnodup
  have hleft : (f :: rest).filter (fun g => g.name ≠ f.name) = rest := by
    rw [List.filter_cons_of_neg (by simp), List.filter_eq_self]
    intro g hg
    have hname : g.name ∈ rest.map TraceFile.name := List.mem_map_of_mem hg
    rw [decide_eq_true_eq]
    intro heq
    rw [heq] at hname
    exact hnodup.1 hname
  unfold mctOfflineTraceDeleteOldestFile
  rw [hfilter, hfold]
  simp only [hleft, Prod.mk.injEq, and_true]
  rw [Int.bmod_eq_of_le] <;> omega

/-- The files that are removed are the oldest. -/
theorem checkSizeLoop_eq {n : Nat} {files : List TraceFile} (hn : files.length < n)
    (htrace : ∀ f ∈ files, isTraceFile f) (hnodup : (files.map TraceFile.name).Nodup)
    (hremoves : RemovesOldest ((cfg.maxSize : Int) - cfg.fileSize) files)
    (hquota : cfg.fileSize ≤ cfg.maxSize) :
    checkSizeLoop cfg n files = dropOver ((cfg.maxSize : Int) - cfg.fileSize) files := by
  induction n generalizing files with
  | zero => omega
  | succ n ih =>
      rw [checkSizeLoop, totalSize_eq htrace]
      cases files with
      | nil =>
          rw [if_neg (by simp only [filesSize, List.map_nil, List.sum_nil]; omega)]
          rfl
      | cons f rest =>
          rw [dropOver]
          by_cases hover : (cfg.maxSize : Int) - cfg.fileSize < filesSize (f :: rest)
          · obtain ⟨⟨hpos, hsize, hyounger⟩, hrest⟩ := hremoves hover
            rw [if_pos hover, if_pos hover,
              deleteOldestFile_eq htrace hnodup hpos hsize hyounger]
            simp only
            rw [if_neg (by omega)]
            rw [List.map_cons, List.nodup_cons] at hnodup
            exact ih (by simpa using hn) (fun g hg => htrace g (List.mem_cons_of_mem _ hg))
              hnodup.2 hrest
          · rw [if_neg hover, if_neg hover]

end Removal

section Names

/-- An index of 32 bits is printed with ten digits. -/
theorem printPadded_ten_length {idx : Nat} (hidx : idx < 4294967296) :
    (printPadded 10 idx).length = 10 := by
  have hdigits : (Nat.toDigits 10 idx).length ≤ 10 :=
    (Nat.length_toDigits_le_iff (by omega) (by omega)).mpr (by omega)
  simp only [printPadded, Int.natAbs_natCast]
  rw [if_neg (by omega), List.length_append, List.length_replicate]
  omega

variable {cfg : TraceSettings}

/-- All names with an index have one length. -/
theorem newFileName_length (hindexed : ¬ cfg.filenameTimestampBased) (now : Nat)
    (files : List TraceFile) : (newFileName cfg now files).length = 31 := by
  have hname : ∀ idx : Nat, idx < 4294967296 → (mctOfflineTraceFileName idx).length = 31 := by
    intro idx hidx
    simp [mctOfflineTraceFileName, filenameBase, filenameExt, printPadded_ten_length hidx]
  rw [newFileName, if_neg hindexed]
  exact hname _ (Nat.mod_lt _ (by omega))

theorem newFileName_trace (now written : Nat) (files : List TraceFile) (content : List UInt8) :
    isTraceFile ⟨newFileName cfg now files, content, written⟩ := by
  obtain ⟨rest, hrest⟩ : ∃ rest, newFileName cfg now files = filenameBase ++ rest := by
    unfold newFileName
    split
    · exact ⟨_, by rw [List.append_assoc]⟩
    · exact ⟨_, by rw [mctOfflineTraceFileName, List.append_assoc]⟩
  simp only [isTraceFile, hrest, List.any_eq_true]
  refine ⟨_, (List.mem_tails _ _).mpr List.suffix_rfl, ?_⟩
  rw [List.isPrefixOf_iff_prefix]
  exact List.prefix_append _ _

end Names

section Rotation

variable (cfg : TraceSettings)

/-- What is left of the files when a new one is started. -/
def filesLeft (files : List TraceFile) : List TraceFile :=
  dropOver ((cfg.maxSize : Int) - cfg.fileSize) files

/-- The files to be removed are the oldest, and the new file has a new name. -/
def StartsFresh (now : Nat) (files : List TraceFile) : Prop :=
  RemovesOldest ((cfg.maxSize : Int) - cfg.fileSize) files ∧
    newFileName cfg now (filesLeft cfg files) ∉ (filesLeft cfg files).map TraceFile.name

instance (now : Nat) (files : List TraceFile) : Decidable (StartsFresh cfg now files) :=
  inferInstanceAs (Decidable (_ ∧ _))

variable {cfg}

/-- The path of a new file is short enough, in each directory alike. -/
def PathFits (cfg : TraceSettings) : Prop :=
  cfg.filenameTimestampBased = true ∨ cfg.directory.length + 32 < nameMax

theorem createNewFile_ok_iff {now : Nat} {st : TraceState} :
    (mctOfflineTraceCreateNewFile cfg now st).1 = .ok ↔ PathFits cfg := by
  unfold mctOfflineTraceCreateNewFile PathFits
  by_cases hstamp : cfg.filenameTimestampBased = true
  · simp [hstamp]
  · have hlength := newFileName_length hstamp now st.files
    simp only [hlength, hstamp, not_false_eq_true, true_and, false_or, Bool.false_eq_true]
    split
    · simp only [reduceCtorEq, false_iff]
      omega
    · simp only [true_iff]
      omega

/-- A new file is created empty, behind those that are left. -/
theorem startNewFile_eq {now : Nat} {files : List TraceFile} {handle : Option (List Char × Nat)}
    (hpath : PathFits cfg) (hquota : cfg.fileSize ≤ cfg.maxSize)
    (htrace : ∀ f ∈ files, isTraceFile f) (hnodup : (files.map TraceFile.name).Nodup)
    (hfresh : StartsFresh cfg now files) :
    (mctOfflineTraceCreateNewFile cfg now (mctOfflineTraceCheckSize cfg ⟨files, handle⟩)).2 =
      ⟨filesLeft cfg files ++ [⟨newFileName cfg now (filesLeft cfg files), [], now⟩],
        some (newFileName cfg now (filesLeft cfg files), 0)⟩ := by
  have hleft : mctOfflineTraceCheckSize cfg ⟨files, handle⟩ = ⟨filesLeft cfg files, handle⟩ := by
    rw [mctOfflineTraceCheckSize, checkSizeLoop_eq (Nat.lt_succ_self _) htrace hnodup hfresh.1
      hquota, filesLeft]
  have hok := (@createNewFile_ok_iff cfg now ⟨filesLeft cfg files, handle⟩).mpr hpath
  rw [hleft]
  simp only [mctOfflineTraceCreateNewFile] at hok ⊢
  split at hok
  · cases hok
  · next hshort => rw [if_neg hshort, openTraceFile,
      if_neg (mt List.mem_map.mpr hfresh.2)]

end Rotation

section Writing

variable {cfg : TraceSettings}

/-- A write at the end of the newest file appends to it and leaves the others. -/
theorem write_newest {front : List TraceFile} {f : TraceFile}
    (hnew : f.name ∉ front.map TraceFile.name) (data : List UInt8) (now : Nat) :
    ∃ mtime, TraceState.write ⟨front ++ [f], some (f.name, f.content.length)⟩ data now =
      ⟨front ++ [⟨f.name, f.content ++ data, mtime⟩],
        some (f.name, (f.content ++ data).length)⟩ := by
  have hfront : front.map
      (fun g => if g.name = f.name then g.writeAt f.content.length data now else g) = front := by
    conv_rhs => rw [← List.map_id front]
    refine List.map_congr_left fun g hg => ?_
    rw [if_neg, id_eq]
    intro heq
    exact hnew (heq ▸ List.mem_map_of_mem hg)
  have hlast : ∃ mtime,
      f.writeAt f.content.length data now = ⟨f.name, f.content ++ data, mtime⟩ := by
    unfold TraceFile.writeAt
    split
    · next hempty =>
        rw [hempty, List.append_nil]
        exact ⟨_, rfl⟩
    · rw [List.take_length, List.drop_of_length_le (Nat.le_add_right _ _), List.append_nil]
      exact ⟨_, rfl⟩
  obtain ⟨mtime, hlast⟩ := hlast
  refine ⟨mtime, ?_⟩
  simp only [TraceState.write, List.map_append, hfront, List.map_cons, List.map_nil, if_true,
    hlast, List.length_append]

/-- The three writes of a message. -/
theorem write_message {front : List TraceFile} {f : TraceFile}
    (hnew : f.name ∉ front.map TraceFile.name) (w : TraceWrite) :
    ∃ mtime, (((TraceState.write ⟨front ++ [f], some (f.name, f.content.length)⟩
        w.data1 w.written).write w.data2 w.written).write w.data3 w.written) =
      ⟨front ++ [⟨f.name, f.content ++ w.message, mtime⟩],
        some (f.name, (f.content ++ w.message).length)⟩ := by
  obtain ⟨m1, h1⟩ := write_newest hnew w.data1 w.written
  obtain ⟨m2, h2⟩ := write_newest (f := ⟨f.name, f.content ++ w.data1, m1⟩) hnew w.data2 w.written
  obtain ⟨m3, h3⟩ := write_newest (f := ⟨f.name, (f.content ++ w.data1) ++ w.data2, m2⟩) hnew
    w.data3 w.written
  refine ⟨m3, ?_⟩
  rw [h1, h2, h3, TraceWrite.message]
  simp only [List.append_assoc]

end Writing

section Runs

def traceContents (files : List TraceFile) : List (List Char × List UInt8) :=
  files.map fun f => (f.name, f.content)

/-- A file that was created, with the messages that were written to it. -/
structure CreatedFile where
  name : List Char
  messages : List (List UInt8)
  deriving DecidableEq, Repr

def CreatedFile.whole (c : CreatedFile) : List Char × List UInt8 := (c.name, c.messages.flatten)

/-- All files that a run created: those that were closed, and the newest. -/
structure TraceHistory where
  closed : List CreatedFile
  newest : CreatedFile
  deriving DecidableEq, Repr

def TraceHistory.created (h : TraceHistory) : List CreatedFile := h.closed ++ [h.newest]

variable (cfg : TraceSettings)

def TraceHistory.record (st : TraceState) (h : TraceHistory) (w : TraceWrite) : TraceHistory :=
  if startsNewFile cfg st w then
    ⟨h.created, ⟨newFileName cfg w.opened (mctOfflineTraceCheckSize cfg st).files, [w.message]⟩⟩
  else ⟨h.closed, ⟨h.newest.name, h.newest.messages ++ [w.message]⟩⟩

def traceRun (run : TraceState × TraceHistory) (writes : List TraceWrite) :
    TraceState × TraceHistory :=
  writes.foldl (fun run w => ((mctOfflineTraceWrite cfg run.1 w).2, run.2.record cfg run.1 w)) run

def traceStart (now : Nat) (initial : List TraceFile) : TraceState × TraceHistory :=
  ((mctOfflineTraceInit cfg now initial).2,
    ⟨[], newFileName cfg now (mctOfflineTraceCheckSize cfg ⟨initial, none⟩).files, []⟩)

def RunFresh (run : TraceState × TraceHistory) : List TraceWrite → Prop
  | [] => True
  | w :: writes =>
      (startsNewFile cfg run.1 w → StartsFresh cfg w.opened run.1.files) ∧
        RunFresh (traceRun cfg run [w]) writes

instance decidableRunFresh (run : TraceState × TraceHistory) :
    (writes : List TraceWrite) → Decidable (RunFresh cfg run writes)
  | [] => .isTrue trivial
  | w :: writes =>
      have := decidableRunFresh (traceRun cfg run [w]) writes
      inferInstanceAs (Decidable ((_ → _) ∧ _))

/-- What the trace is there for: the quota is kept; the directory holds the last
of all files, each with its own messages from first to last; each message went to
one file, and the last is at the end of the newest. -/
structure KeepsNewest (initial : List TraceFile) (writes : List TraceWrite)
    (run : TraceState × TraceHistory) : Prop where
  quota : filesSize run.1.files ≤ cfg.maxSize
  suffix : traceContents run.1.files <:+
    traceContents initial ++ run.2.created.map CreatedFile.whole
  distinct : (run.1.files.map TraceFile.name).Nodup
  recorded : run.2.created.flatMap CreatedFile.messages = writes.map TraceWrite.message
  last : ∀ w, writes.getLast? = some w → ∃ f earlier, run.1.files.getLast? = some f ∧
    f.name = run.2.newest.name ∧ f.content = earlier ++ w.message

variable {cfg}

/-- The invariant of a run. -/
structure Kept (cfg : TraceSettings) (initial : List TraceFile)
    (run : TraceState × TraceHistory) : Prop where
  trace : ∀ f ∈ run.1.files, isTraceFile f
  distinct : (run.1.files.map TraceFile.name).Nodup
  fits : run.2.newest.messages.flatten.length < cfg.fileSize
  ohandle : run.1.ohandle = some (run.2.newest.name, run.2.newest.messages.flatten.length)
  newest : ∃ front mtime,
    run.1.files = front ++ [⟨run.2.newest.name, run.2.newest.messages.flatten, mtime⟩] ∧
      traceContents front <:+ traceContents initial ++ run.2.closed.map CreatedFile.whole ∧
      (filesSize front : Int) ≤ (cfg.maxSize : Int) - cfg.fileSize

theorem traceRun_append (run : TraceState × TraceHistory) (first second : List TraceWrite) :
    traceRun cfg run (first ++ second) = traceRun cfg (traceRun cfg run first) second :=
  List.foldl_append

theorem traceContents_append (first second : List TraceFile) :
    traceContents (first ++ second) = traceContents first ++ traceContents second := List.map_append

theorem filesSize_append (first second : List TraceFile) :
    filesSize (first ++ second) = filesSize first + filesSize second := by
  simp only [filesSize, List.map_append, List.sum_append]

theorem filesLeft_suffix (files : List TraceFile) : filesLeft cfg files <:+ files :=
  dropOver_suffix _ files

/-- The files are the last of the history. -/
theorem Kept.suffix {initial : List TraceFile} {run : TraceState × TraceHistory}
    (hkept : Kept cfg initial run) :
    traceContents run.1.files <:+ traceContents initial ++ run.2.created.map CreatedFile.whole := by
  obtain ⟨front, mtime, hfiles, ⟨before, hbefore⟩, -⟩ := hkept.newest
  rw [hfiles, traceContents_append, TraceHistory.created, List.map_append, ← List.append_assoc,
    ← hbefore]
  exact ⟨before, by rw [List.append_assoc]; rfl⟩

/-- A file that starts fresh is the newest, and empty. -/
theorem kept_fresh {initial files : List TraceFile} {closed : List CreatedFile} {now : Nat}
    (hquota : 0 < cfg.fileSize ∧ cfg.fileSize ≤ cfg.maxSize)
    (htrace : ∀ f ∈ files, isTraceFile f) (hdistinct : (files.map TraceFile.name).Nodup)
    (hhistory : traceContents files <:+ traceContents initial ++ closed.map CreatedFile.whole)
    (hfresh : StartsFresh cfg now files) :
    Kept cfg initial
      (⟨filesLeft cfg files ++ [⟨newFileName cfg now (filesLeft cfg files), [], now⟩],
          some (newFileName cfg now (filesLeft cfg files), 0)⟩,
        ⟨closed, ⟨newFileName cfg now (filesLeft cfg files), []⟩⟩) where
  trace := by
    intro f hf
    rcases List.mem_append.mp hf with hold | hnew
    · exact htrace f ((filesLeft_suffix files).mem hold)
    · rw [List.mem_singleton.mp hnew]
      exact newFileName_trace _ _ _ _
  distinct := by
    have hleft := hdistinct.sublist ((@filesLeft_suffix cfg files).sublist.map _)
    rw [List.map_append, List.map_singleton]
    exact List.nodup_append'.mpr ⟨hleft, List.nodup_singleton _,
      List.disjoint_singleton.mpr hfresh.2⟩
  fits := hquota.1
  ohandle := rfl
  newest := by
    refine ⟨filesLeft cfg files, now, rfl, ?_, filesSize_dropOver (by omega) files⟩
    exact ((filesLeft_suffix files).map _).trans hhistory

/-- The name of the newest file is not that of another. -/
theorem newest_not_mem {front : List TraceFile} {f : TraceFile}
    (hdistinct : ((front ++ [f]).map TraceFile.name).Nodup) :
    f.name ∉ front.map TraceFile.name := by
  rw [List.map_append, List.map_singleton] at hdistinct
  exact List.disjoint_singleton.mp (List.nodup_append'.mp hdistinct).2.2

/-- A message that fits goes to the end of the newest file. -/
theorem kept_write {initial : List TraceFile} {st : TraceState} {h : TraceHistory}
    (hkept : Kept cfg initial (st, h)) {w : TraceWrite}
    (hfits : h.newest.messages.flatten.length + w.message.length < cfg.fileSize) :
    Kept cfg initial
      (((st.write w.data1 w.written).write w.data2 w.written).write w.data3 w.written,
        ⟨h.closed, ⟨h.newest.name, h.newest.messages ++ [w.message]⟩⟩) := by
  obtain ⟨files, ohandle⟩ := st
  obtain ⟨htrace, hdistinct, hfit, hhandle, front, mtime, hfiles, hhistory, hsize⟩ := hkept
  simp only at htrace hdistinct hfit hhandle hfiles hhistory
  subst hfiles hhandle
  have hwhole : h.newest.messages.flatten ++ w.message =
      (h.newest.messages ++ [w.message]).flatten := by
    rw [List.flatten_append, List.flatten_singleton]
  obtain ⟨written, hwrite⟩ := write_message
    (f := ⟨h.newest.name, h.newest.messages.flatten, mtime⟩) (newest_not_mem hdistinct) w
  rw [hwrite]
  simp only [hwhole]
  constructor
  case trace =>
    intro f hf
    rcases List.mem_append.mp hf with hold | hnew
    · exact htrace f (List.mem_append_left _ hold)
    · rw [List.mem_singleton.mp hnew]
      exact htrace ⟨h.newest.name, _, mtime⟩ (List.mem_append_right _ (List.mem_singleton_self _))
  case distinct => simpa only [List.map_append, List.map_singleton] using hdistinct
  case fits => simpa only [← hwhole, List.length_append] using hfits
  case ohandle => rfl
  case newest => exact ⟨front, written, rfl, hhistory, hsize⟩

theorem start_kept {initial : List TraceFile} {now : Nat}
    (hquota : 0 < cfg.fileSize ∧ cfg.fileSize ≤ cfg.maxSize)
    (hinit : (mctOfflineTraceInit cfg now initial).1 = .ok)
    (htrace : ∀ f ∈ initial, isTraceFile f) (hdistinct : (initial.map TraceFile.name).Nodup)
    (hfresh : StartsFresh cfg now initial) :
    Kept cfg initial (traceStart cfg now initial) := by
  have hleft : (mctOfflineTraceCheckSize cfg ⟨initial, none⟩).files = filesLeft cfg initial :=
    checkSizeLoop_eq (Nat.lt_succ_self _) htrace hdistinct hfresh.1 hquota.2
  rw [traceStart, hleft, mctOfflineTraceInit,
    startNewFile_eq (createNewFile_ok_iff.mp hinit) hquota.2 htrace hdistinct hfresh]
  exact kept_fresh hquota htrace hdistinct (by simp) hfresh

/-- A write keeps the invariant. -/
theorem step_kept {initial : List TraceFile} {run : TraceState × TraceHistory} {w : TraceWrite}
    (hquota : 0 < cfg.fileSize ∧ cfg.fileSize ≤ cfg.maxSize) (hpath : PathFits cfg)
    (hkept : Kept cfg initial run) (hsmall : w.message.length < cfg.fileSize)
    (hfresh : startsNewFile cfg run.1 w → StartsFresh cfg w.opened run.1.files) :
    Kept cfg initial (traceRun cfg run [w]) := by
  obtain ⟨⟨files, ohandle⟩, h⟩ := run
  have hhandle := hkept.ohandle
  simp only at hhandle hfresh
  subst hhandle
  have hlength : w.message.length = w.data1.length + w.data2.length + w.data3.length := by
    simp only [TraceWrite.message, List.length_append]
  simp only [traceRun, List.foldl_cons, List.foldl_nil, mctOfflineTraceWrite, reduceCtorEq,
    if_false]
  by_cases hstart : startsNewFile cfg
      ⟨files, some (h.newest.name, h.newest.messages.flatten.length)⟩ w
  · have hfresh := hfresh hstart
    have hleft : (mctOfflineTraceCheckSize cfg ⟨files, some (h.newest.name,
        h.newest.messages.flatten.length)⟩).files = filesLeft cfg files :=
      checkSizeLoop_eq (Nat.lt_succ_self _) hkept.trace hkept.distinct hfresh.1 hquota.2
    rw [if_pos hstart, startNewFile_eq hpath hquota.2 hkept.trace hkept.distinct hfresh,
      TraceHistory.record, if_pos hstart, hleft]
    exact kept_write (kept_fresh hquota hkept.trace hkept.distinct hkept.suffix hfresh)
      (by simpa using hsmall)
  · rw [if_neg hstart, TraceHistory.record, if_neg hstart]
    refine kept_write hkept ?_
    simp only [startsNewFile, Option.any_some, decide_eq_true_eq] at hstart
    omega

theorem run_kept {initial : List TraceFile} {run : TraceState × TraceHistory}
    {writes : List TraceWrite} (hquota : 0 < cfg.fileSize ∧ cfg.fileSize ≤ cfg.maxSize)
    (hpath : PathFits cfg) (hkept : Kept cfg initial run)
    (hsmall : ∀ w ∈ writes, w.message.length < cfg.fileSize) (hfresh : RunFresh cfg run writes) :
    Kept cfg initial (traceRun cfg run writes) := by
  induction writes generalizing run with
  | nil => exact hkept
  | cons w writes ih =>
      have hstep := step_kept hquota hpath hkept (hsmall w List.mem_cons_self) hfresh.1
      exact ih hstep (fun other hother => hsmall other (List.mem_cons_of_mem _ hother)) hfresh.2

/-- Every message is recorded once, the last one for the newest file. -/
theorem record_created (st : TraceState) (h : TraceHistory) (w : TraceWrite) :
    (h.record cfg st w).created.flatMap CreatedFile.messages =
        h.created.flatMap CreatedFile.messages ++ [w.message] ∧
      ∃ earlier, (h.record cfg st w).newest.messages = earlier ++ [w.message] := by
  unfold TraceHistory.record
  split
  · exact ⟨by simp [TraceHistory.created], [], rfl⟩
  · exact ⟨by simp [TraceHistory.created], h.newest.messages, rfl⟩

theorem run_recorded (run : TraceState × TraceHistory) (writes : List TraceWrite) :
    (traceRun cfg run writes).2.created.flatMap CreatedFile.messages =
      run.2.created.flatMap CreatedFile.messages ++ writes.map TraceWrite.message := by
  induction writes generalizing run with
  | nil => simp [traceRun]
  | cons w writes ih =>
      have hstep := (@record_created cfg run.1 run.2 w).1
      rw [← List.singleton_append, traceRun_append, ih, List.map_append, ← List.append_assoc]
      simp only [traceRun, List.foldl_cons, List.foldl_nil, List.map_cons, List.map_nil, hstep]

theorem run_last (run : TraceState × TraceHistory) {writes : List TraceWrite} {w : TraceWrite}
    (hlast : writes.getLast? = some w) :
    ∃ earlier, (traceRun cfg run writes).2.newest.messages = earlier ++ [w.message] := by
  obtain ⟨before, rfl⟩ := List.getLast?_eq_some_iff.mp hlast
  rw [traceRun_append]
  exact (record_created _ _ w).2

/-- In a run that keeps the invariant the trace does what it is there for. -/
theorem Kept.keepsNewest {initial : List TraceFile} {now : Nat} {writes : List TraceWrite}
    (hkept : Kept cfg initial (traceRun cfg (traceStart cfg now initial) writes)) :
    KeepsNewest cfg initial writes (traceRun cfg (traceStart cfg now initial) writes) := by
  have hrecorded := @run_recorded cfg (traceStart cfg now initial) writes
  obtain ⟨front, mtime, hfiles, -, hsize⟩ := hkept.newest
  constructor
  case quota =>
    have hfits := hkept.fits
    rw [hfiles, filesSize_append]
    simp only [filesSize, List.map_cons, List.map_nil, List.sum_singleton] at hsize ⊢
    omega
  case suffix => exact hkept.suffix
  case distinct => exact hkept.distinct
  case recorded => simpa [traceStart, TraceHistory.created] using hrecorded
  case last =>
    intro w hw
    obtain ⟨earlier, hearlier⟩ := @run_last cfg (traceStart cfg now initial) _ _ hw
    refine ⟨_, earlier.flatten, by rw [hfiles, List.getLast?_concat], rfl, ?_⟩
    rw [hearlier, List.flatten_append, List.flatten_singleton]

/-- The trace keeps the newest messages within its quota, in every run in which
each new file starts fresh. -/
theorem offline_trace_keeps_newest {initial : List TraceFile} {now : Nat}
    {writes : List TraceWrite} (hquota : 0 < cfg.fileSize ∧ cfg.fileSize ≤ cfg.maxSize)
    (hinit : (mctOfflineTraceInit cfg now initial).1 = .ok)
    (htrace : ∀ f ∈ initial, isTraceFile f) (hdistinct : (initial.map TraceFile.name).Nodup)
    (hsmall : ∀ w ∈ writes, w.message.length < cfg.fileSize)
    (hstart : StartsFresh cfg now initial)
    (hfresh : RunFresh cfg (traceStart cfg now initial) writes) :
    KeepsNewest cfg initial writes (traceRun cfg (traceStart cfg now initial) writes) := by
  have hstarted := start_kept hquota hinit htrace hdistinct hstart
  exact (run_kept hquota (createNewFile_ok_iff.mp hinit) hstarted hsmall hfresh).keepsNewest

/-- A trace of two files with ten bytes each, with the second of a minute as time. -/
def sampleTrace (filenameTimestampBased : Bool) : TraceSettings where
  directory := ['/', 't']
  fileSize := 10
  maxSize := 20
  filenameTimestampBased := filenameTimestampBased
  stamp := fun second => ['2', '0', '2', '4', '0', '1', '0', '1', '_', '1', '2', '0', '0'] ++
    printPadded 2 second
  listing := ⟨id, fun _ => .rfl⟩

def sampleTraceWrites : List TraceWrite :=
  [⟨[1, 1], [1, 1], [1, 1], 1, 1⟩, ⟨[2, 2], [2, 2], [2, 2], 2, 2⟩, ⟨[3, 3], [], [3, 3], 3, 3⟩]

theorem offline_trace_keeps_newest_sample :
    KeepsNewest (sampleTrace false) [] sampleTraceWrites
      (traceRun (sampleTrace false) (traceStart (sampleTrace false) 1 []) sampleTraceWrites) :=
  offline_trace_keeps_newest (by decide) (by decide +kernel) (by decide) (by decide) (by decide)
    (by decide +kernel) (by decide +kernel)

/-- Two files of one second have one name: the second message is written over the
first one. -/
theorem offline_trace_same_second :
    (mctOfflineTraceInit (sampleTrace true) 1 []).1 = .ok ∧
      ¬ KeepsNewest (sampleTrace true) []
        [⟨[1, 1], [1, 1, 1, 1], [1, 1], 1, 1⟩, ⟨[2, 2], [2, 2], [2], 1, 1⟩]
        (traceRun (sampleTrace true) (traceStart (sampleTrace true) 1 [])
          [⟨[1, 1], [1, 1, 1, 1], [1, 1], 1, 1⟩, ⟨[2, 2], [2, 2], [2], 1, 1⟩]) :=
  ⟨by decide +kernel, fun hkeeps => absurd hkeeps.suffix (by decide +kernel)⟩

end Runs

end MctDaemon.Shared
