import MctDaemon.Shared.OfflineTraceRun

/-!
The names that the offline trace gives to its files when they are numbered. The index of a new
file follows the largest one in the directory, so that its name is new: what the run then asks
for is only that the oldest files are the ones removed.
-/

namespace MctDaemon.Shared

open Lib

section Indices

/-- A name with an index is the one that the trace makes for it. -/
def OwnIndex (name : List Char) : Prop :=
  filenameBase ++ ['.'] <+: name → ∃ idx, idx < 4294967296 ∧ name = mctOfflineTraceFileName idx

/-- The index that the next file is numbered from. -/
def newestIdx (cfg : TraceSettings) (files : List TraceFile) : Nat :=
  mctOfflineTraceGetIdxOfLogFile (mctOfflineTraceStorageDirInfo (cfg.listing.order files))

theorem fileName_prefix (idx : Nat) : filenameBase ++ ['.'] <+: mctOfflineTraceFileName idx :=
  ⟨printPadded 10 idx ++ filenameExt, by simp [mctOfflineTraceFileName]⟩

theorem lt_of_append_lt {front s t : List Char} (h : front ++ s < front ++ t) : s < t := by
  induction front with
  | nil => exact h
  | cons c front ih =>
      rcases List.cons_lt_cons_iff.mp h with hless | ⟨-, hrest⟩
      · exact absurd hless (Char.lt_irrefl c)
      · exact ih hrest

/-- Names with indices compare as their indices. -/
theorem lt_of_fileName_lt {i j : Nat} (hi : i < 4294967296) (hj : j < 4294967296)
    (h : mctOfflineTraceFileName i < mctOfflineTraceFileName j) : i < j := by
  have hlength : (printPadded 10 i).length = (printPadded 10 j).length := by
    rw [printPadded_ten_length hi, printPadded_ten_length hj]
  have hdigits : printPadded 10 i ++ filenameExt < printPadded 10 j ++ filenameExt := by
    apply @lt_of_append_lt (filenameBase ++ ['.'])
    simpa only [mctOfflineTraceFileName, List.append_assoc, List.cons_append,
      List.nil_append] using h
  exact lt_of_printPadded_lt hlength hdigits

/-- The index of a name is read back. -/
theorem getIdx_fileName {idx : Nat} (hidx : idx < 4294967296) :
    mctOfflineTraceGetIdxOfLogFile (some (mctOfflineTraceFileName idx)) = idx := by
  have hdigits : '.' ∉ printPadded 10 idx := fun hmem =>
    absurd (isDigit_printPadded 10 idx '.' hmem) (by decide)
  have hread := strtol_printPadded 10 (show (-9223372036854775808 : Int) ≤ idx by omega) (by omega)
    (show ¬ ([] : List Char).head?.any Char.isDigit by decide)
  have hne : printPadded 10 idx ≠ [] := by
    intro hnil
    have hlength := printPadded_ten_length hidx
    rw [hnil] at hlength
    cases hlength
  have htokens : strtok '.' (mctOfflineTraceFileName idx) =
      [filenameBase, printPadded 10 idx, ['m', 'c', 't']] := by
    rw [strtok, mctOfflineTraceFileName, filenameExt, List.append_assoc, List.cons_append,
      List.splitOn_append_cons_self_of_not_mem (by decide),
      List.splitOn_append_cons_self_of_not_mem hdigits, List.splitOn_eq_singleton (by decide)]
    simp [filenameBase, hne]
  rw [List.append_nil] at hread
  simp only [mctOfflineTraceGetIdxOfLogFile, htokens, List.getElem?_cons_succ,
    List.getElem?_cons_zero, hread]
  omega

/-- The scan of names with indices keeps the one with the largest. -/
theorem newerName_fileName {i j : Nat} (hi : i < 4294967296) (hj : j < 4294967296) :
    newerName (some (mctOfflineTraceFileName i)) (mctOfflineTraceFileName j) =
      some (mctOfflineTraceFileName (max i j)) := by
  have hlength : ∀ {k : Nat}, k < 4294967296 → (mctOfflineTraceFileName k).length = 31 := by
    intro k hk
    simp [mctOfflineTraceFileName, filenameBase, filenameExt, printPadded_ten_length hk]
  rw [newerName]
  simp only [hlength hi, hlength hj, lt_irrefl, if_false, true_and]
  split
  · next hless => rw [max_eq_right (lt_of_fileName_lt hi hj hless).le]
  · next hnot =>
      have hle : j ≤ i := by
        by_contra hless
        rcases List.le_iff_lt_or_eq.mp (List.not_lt.mp hnot) with hgreater | hsame
        · exact hless (lt_of_fileName_lt hj hi hgreater).le
        · have hidx := getIdx_fileName hj
          rw [hsame, getIdx_fileName hi] at hidx
          exact hless hidx.ge
      rw [max_eq_left hle]

theorem foldl_newerName {idxs : List Nat} (hidxs : ∀ i ∈ idxs, i < 4294967296) {i : Nat}
    (hi : i < 4294967296) :
    ∃ new ∈ i :: idxs, (idxs.map mctOfflineTraceFileName).foldl newerName
        (some (mctOfflineTraceFileName i)) = some (mctOfflineTraceFileName new) ∧
      ∀ j ∈ i :: idxs, j ≤ new := by
  induction idxs generalizing i with
  | nil => exact ⟨i, List.mem_cons_self, rfl, by simp⟩
  | cons j rest ih =>
      obtain ⟨hj, hrest⟩ := List.forall_mem_cons.mp hidxs
      obtain ⟨new, hmem, hfold, hmost⟩ := ih hrest (max_lt hi hj)
      rw [List.map_cons, List.foldl_cons, newerName_fileName hi hj]
      refine ⟨new, ?_, hfold, ?_⟩
      · rcases List.mem_cons.mp hmem with rfl | hlater
        · rcases max_choice i j with hmax | hmax
          · rw [hmax]
            exact List.mem_cons_self
          · rw [hmax]
            exact List.mem_cons_of_mem _ List.mem_cons_self
        · exact List.mem_cons_of_mem _ (List.mem_cons_of_mem _ hlater)
      · have hfirst := hmost (max i j) List.mem_cons_self
        intro k hk
        rcases List.mem_cons.mp hk with rfl | hk
        · exact (le_max_left _ _).trans hfirst
        · rcases List.mem_cons.mp hk with rfl | hk
          · exact (le_max_right _ _).trans hfirst
          · exact hmost k (List.mem_cons_of_mem _ hk)

variable {cfg : TraceSettings} {files : List TraceFile}

/-- The newest index is the largest one, in whatever order the directory is read. -/
theorem newestIdx_spec (hown : ∀ f ∈ files, OwnIndex f.name) :
    (∀ idx < 4294967296, (∃ f ∈ files, f.name = mctOfflineTraceFileName idx) →
        idx ≤ newestIdx cfg files) ∧
      (newestIdx cfg files = 0 ∨ newestIdx cfg files < 4294967296 ∧
        ∃ f ∈ files, f.name = mctOfflineTraceFileName (newestIdx cfg files)) := by
  let indexed := (((cfg.listing.order files).map TraceFile.name).insertionSort (· ≤ ·)).filter
    fun name => (filenameBase ++ ['.']).isPrefixOf name
  have hmem : ∀ name, name ∈ indexed ↔
      (∃ f ∈ files, f.name = name) ∧ filenameBase ++ ['.'] <+: name := by
    intro name
    simp only [indexed, List.mem_filter, List.mem_insertionSort, List.mem_map,
      (cfg.listing.perm files).mem_iff, List.isPrefixOf_iff_prefix]
  have hnames : ∀ name ∈ indexed, ∃ idx, idx < 4294967296 ∧
      mctOfflineTraceFileName idx = name := by
    intro name hname
    obtain ⟨⟨f, hf, rfl⟩, hprefix⟩ := (hmem name).mp hname
    obtain ⟨idx, hidx, hsame⟩ := hown f hf hprefix
    exact ⟨idx, hidx, hsame.symm⟩
  obtain ⟨idxs, hidxs, hmap⟩ : ∃ idxs : List Nat, (∀ i ∈ idxs, i < 4294967296) ∧
      idxs.map mctOfflineTraceFileName = indexed := by
    generalize indexed = names at hnames
    induction names with
    | nil => exact ⟨[], by simp, rfl⟩
    | cons name rest ih =>
        obtain ⟨⟨idx, hidx, rfl⟩, hrest⟩ := List.forall_mem_cons.mp hnames
        obtain ⟨idxs, hidxs, rfl⟩ := ih hrest
        exact ⟨idx :: idxs, List.forall_mem_cons.mpr ⟨hidx, hidxs⟩, rfl⟩
  have hinfo : newestIdx cfg files = mctOfflineTraceGetIdxOfLogFile
      ((idxs.map mctOfflineTraceFileName).foldl newerName none) := by
    rw [hmap]
    rfl
  have hlisted : ∀ idx < 4294967296, (∃ f ∈ files, f.name = mctOfflineTraceFileName idx) →
      idx ∈ idxs := by
    intro idx hidx hfile
    have hname := (hmem (mctOfflineTraceFileName idx)).mpr ⟨hfile, fileName_prefix idx⟩
    rw [← hmap] at hname
    obtain ⟨i, hi, hsame⟩ := List.mem_map.mp hname
    have hback := getIdx_fileName (hidxs i hi)
    rw [hsame, getIdx_fileName hidx] at hback
    exact hback ▸ hi
  have hback : ∀ idx ∈ idxs, ∃ f ∈ files, f.name = mctOfflineTraceFileName idx := by
    intro idx hidx
    have hname : mctOfflineTraceFileName idx ∈ indexed := hmap ▸ List.mem_map_of_mem hidx
    exact ((hmem _).mp hname).1
  rw [hinfo]
  cases idxs with
  | nil =>
      refine ⟨fun idx hidx hfile => absurd (hlisted idx hidx hfile) List.not_mem_nil, .inl rfl⟩
  | cons i rest =>
      obtain ⟨hi, hrest⟩ := List.forall_mem_cons.mp hidxs
      obtain ⟨new, hnew, hfold, hmost⟩ := foldl_newerName hrest hi
      have hidx := getIdx_fileName (hidxs new hnew)
      rw [List.map_cons, List.foldl_cons, newerName, hfold, hidx]
      exact ⟨fun idx hlt hfile => hmost idx (hlisted idx hlt hfile),
        .inr ⟨hidxs new hnew, hback new hnew⟩⟩

/-- The file behind the newest has a new name. -/
theorem newFileName_fresh (hindexed : ¬ cfg.filenameTimestampBased)
    (hown : ∀ f ∈ files, OwnIndex f.name) (hroom : newestIdx cfg files + 1 < 4294967296)
    (now : Nat) :
    newFileName cfg now files = mctOfflineTraceFileName (newestIdx cfg files + 1) ∧
      newFileName cfg now files ∉ files.map TraceFile.name := by
  have hname : newFileName cfg now files =
      mctOfflineTraceFileName (newestIdx cfg files + 1) := by
    rw [newFileName, if_neg hindexed]
    exact congrArg _ (Nat.mod_eq_of_lt hroom)
  refine ⟨hname, fun hmem => ?_⟩
  rw [hname] at hmem
  have hle := (@newestIdx_spec cfg files hown).1 _ hroom (List.mem_map.mp hmem)
  omega

/-- Fewer names, a lower index. -/
theorem newestIdx_mono {fewer : List TraceFile} (hown : ∀ f ∈ files, OwnIndex f.name)
    (hnames : ∀ name ∈ fewer.map TraceFile.name, name ∈ files.map TraceFile.name) :
    newestIdx cfg fewer ≤ newestIdx cfg files := by
  have hown' : ∀ f ∈ fewer, OwnIndex f.name := by
    intro f hf
    obtain ⟨g, hg, hsame⟩ := List.mem_map.mp (hnames f.name (List.mem_map_of_mem hf))
    exact hsame ▸ hown g hg
  rcases (@newestIdx_spec cfg fewer hown').2 with hzero | ⟨hlt, f, hf, hname⟩
  · rw [hzero]
    exact Nat.zero_le _
  · have hmem := hnames f.name (List.mem_map_of_mem hf)
    rw [hname] at hmem
    exact (@newestIdx_spec cfg files hown).1 _ hlt (List.mem_map.mp hmem)

end Indices

section IndexedRuns

variable {cfg : TraceSettings}

theorem TraceState.write_names (st : TraceState) (data : List UInt8) (now : Nat) :
    (st.write data now).files.map TraceFile.name = st.files.map TraceFile.name := by
  unfold TraceState.write
  split
  · rfl
  · rw [List.map_map]
    refine List.map_congr_left fun f _ => ?_
    simp only [Function.comp_apply, TraceFile.writeAt]
    split
    · split <;> rfl
    · rfl

theorem message_names (st : TraceState) (w : TraceWrite) :
    (((st.write w.data1 w.written).write w.data2 w.written).write w.data3 w.written).files.map
      TraceFile.name = st.files.map TraceFile.name := by
  rw [TraceState.write_names, TraceState.write_names, TraceState.write_names]

/-- What starting a new file does to names with indices: the new one follows the newest. -/
theorem indexed_behind (hindexed : ¬ cfg.filenameTimestampBased) {files : List TraceFile}
    (hown : ∀ f ∈ files, OwnIndex f.name) (hroom : newestIdx cfg files + 1 < 4294967296)
    (now : Nat) :
    let new : TraceFile := ⟨newFileName cfg now (filesLeft cfg files), [], now⟩
    new.name ∉ (filesLeft cfg files).map TraceFile.name ∧
      (∀ f ∈ filesLeft cfg files ++ [new], OwnIndex f.name) ∧
      newestIdx cfg (filesLeft cfg files ++ [new]) ≤ newestIdx cfg files + 1 := by
  have hownLeft : ∀ f ∈ filesLeft cfg files, OwnIndex f.name :=
    fun f hf => hown f ((filesLeft_suffix files).mem hf)
  have hmono : newestIdx cfg (filesLeft cfg files) ≤ newestIdx cfg files :=
    newestIdx_mono hown fun name hname =>
      ((filesLeft_suffix files).sublist.map TraceFile.name).mem hname
  have hroomLeft : newestIdx cfg (filesLeft cfg files) + 1 < 4294967296 := by omega
  obtain ⟨hname, hfresh⟩ := newFileName_fresh hindexed hownLeft hroomLeft now
  have hownAfter : ∀ f ∈ filesLeft cfg files ++
      [⟨newFileName cfg now (filesLeft cfg files), [], now⟩], OwnIndex f.name := by
    intro f hf
    rcases List.mem_append.mp hf with hold | hnew
    · exact hownLeft f hold
    · rw [List.mem_singleton.mp hnew]
      exact fun _ => ⟨_, hroomLeft, hname⟩
  refine ⟨hfresh, hownAfter, ?_⟩
  rcases (@newestIdx_spec cfg _ hownAfter).2 with hzero | ⟨hlt, f, hf, hsame⟩
  · rw [hzero]
    exact Nat.zero_le _
  · rcases List.mem_append.mp hf with hold | hnew
    · have hle := (@newestIdx_spec cfg _ hownLeft).1 _ hlt ⟨f, hold, hsame⟩
      omega
    · have hindex := hname.symm.trans (List.mem_singleton.mp hnew ▸ hsame)
      have hidx := getIdx_fileName hlt
      rw [← hindex, getIdx_fileName hroomLeft] at hidx
      omega

theorem indexed_names {files others : List TraceFile} (hown : ∀ f ∈ files, OwnIndex f.name)
    (hnames : others.map TraceFile.name = files.map TraceFile.name) :
    (∀ f ∈ others, OwnIndex f.name) ∧ newestIdx cfg others ≤ newestIdx cfg files := by
  refine ⟨fun f hf => ?_, newestIdx_mono hown fun name hname => hnames ▸ hname⟩
  have hmem : f.name ∈ files.map TraceFile.name := hnames ▸ List.mem_map_of_mem hf
  obtain ⟨g, hg, hsame⟩ := List.mem_map.mp hmem
  exact hsame ▸ hown g hg

variable (cfg) in
/-- Each new file of a run removes the oldest ones. -/
def RunRemoves (run : TraceState × TraceHistory) : List TraceWrite → Prop
  | [] => True
  | w :: writes =>
      (startsNewFile cfg run.1 w →
          RemovesOldest ((cfg.maxSize : Int) - cfg.fileSize) run.1.files) ∧
        RunRemoves (traceRun cfg run [w]) writes

/-- The names after a write. -/
theorem step_indexed {initial : List TraceFile} {run : TraceState × TraceHistory} {w : TraceWrite}
    (hquota : cfg.fileSize ≤ cfg.maxSize) (hpath : PathFits cfg)
    (hindexed : ¬ cfg.filenameTimestampBased) (hkept : Kept cfg initial run)
    (hown : ∀ f ∈ run.1.files, OwnIndex f.name)
    (hroom : newestIdx cfg run.1.files + 1 < 4294967296)
    (hfresh : startsNewFile cfg run.1 w → StartsFresh cfg w.opened run.1.files) :
    (∀ f ∈ (traceRun cfg run [w]).1.files, OwnIndex f.name) ∧
      newestIdx cfg (traceRun cfg run [w]).1.files ≤ newestIdx cfg run.1.files + 1 := by
  obtain ⟨⟨files, ohandle⟩, h⟩ := run
  have hhandle := hkept.ohandle
  simp only at hhandle hfresh hown hroom
  subst hhandle
  simp only [traceRun, List.foldl_cons, List.foldl_nil, mctOfflineTraceWrite, reduceCtorEq,
    if_false]
  by_cases hstart : startsNewFile cfg
      ⟨files, some (h.newest.name, h.newest.messages.flatten.length)⟩ w
  · rw [if_pos hstart, startNewFile_eq hpath hquota hkept.trace hkept.distinct (hfresh hstart)]
    obtain ⟨-, hownAfter, hnewest⟩ := indexed_behind hindexed hown hroom w.opened
    obtain ⟨hownLast, hlast⟩ := @indexed_names cfg _ _ hownAfter
      (message_names ⟨_, some (newFileName cfg w.opened (filesLeft cfg files), 0)⟩ w)
    exact ⟨hownLast, hlast.trans hnewest⟩
  · rw [if_neg hstart]
    obtain ⟨hownLast, hlast⟩ := @indexed_names cfg _ _ hown
      (message_names ⟨_, some (h.newest.name, h.newest.messages.flatten.length)⟩ w)
    exact ⟨hownLast, hlast.trans (Nat.le_succ _)⟩

theorem runFresh_of_removes {initial : List TraceFile} {run : TraceState × TraceHistory}
    {writes : List TraceWrite} (hquota : 0 < cfg.fileSize ∧ cfg.fileSize ≤ cfg.maxSize)
    (hpath : PathFits cfg) (hindexed : ¬ cfg.filenameTimestampBased)
    (hkept : Kept cfg initial run) (hsmall : ∀ w ∈ writes, w.message.length < cfg.fileSize)
    (hown : ∀ f ∈ run.1.files, OwnIndex f.name)
    (hroom : newestIdx cfg run.1.files + writes.length < 4294967296)
    (hremoves : RunRemoves cfg run writes) : RunFresh cfg run writes := by
  induction writes generalizing run with
  | nil => trivial
  | cons w writes ih =>
      rw [List.length_cons] at hroom
      have hroom' : newestIdx cfg run.1.files + 1 < 4294967296 := by omega
      have hfresh : startsNewFile cfg run.1 w → StartsFresh cfg w.opened run.1.files :=
        fun hstart => ⟨hremoves.1 hstart, (indexed_behind hindexed hown hroom' w.opened).1⟩
      obtain ⟨hownNext, hnext⟩ := step_indexed hquota.2 hpath hindexed hkept hown hroom' hfresh
      exact ⟨hfresh, ih (step_kept hquota hpath hkept (hsmall w List.mem_cons_self) hfresh)
        (fun other hother => hsmall other (List.mem_cons_of_mem _ hother)) hownNext (by omega)
        hremoves.2⟩

/-- With indices for names every new file of a run has a new name, as long as the names with
an index that the directory begins with are the trace's own and the index stays in 32 bits:
what is left to ask for is that the oldest files are the ones removed. -/
theorem indexed_names_fresh {initial : List TraceFile} {now : Nat} {writes : List TraceWrite}
    (hquota : 0 < cfg.fileSize ∧ cfg.fileSize ≤ cfg.maxSize)
    (hinit : (mctOfflineTraceInit cfg now initial).1 = .ok)
    (htrace : ∀ f ∈ initial, isTraceFile f) (hdistinct : (initial.map TraceFile.name).Nodup)
    (hsmall : ∀ w ∈ writes, w.message.length < cfg.fileSize)
    (hindexed : ¬ cfg.filenameTimestampBased) (hown : ∀ f ∈ initial, OwnIndex f.name)
    (hroom : newestIdx cfg initial + 1 + writes.length < 4294967296)
    (hstart : RemovesOldest ((cfg.maxSize : Int) - cfg.fileSize) initial)
    (hremoves : RunRemoves cfg (traceStart cfg now initial) writes) :
    StartsFresh cfg now initial ∧ RunFresh cfg (traceStart cfg now initial) writes := by
  obtain ⟨hnew, hownAfter, hnewest⟩ :=
    indexed_behind hindexed hown (show newestIdx cfg initial + 1 < 4294967296 by omega) now
  have hfresh : StartsFresh cfg now initial := ⟨hstart, hnew⟩
  have hpath := createNewFile_ok_iff.mp hinit
  have hfiles : (traceStart cfg now initial).1.files = filesLeft cfg initial ++
      [⟨newFileName cfg now (filesLeft cfg initial), [], now⟩] := by
    rw [traceStart, mctOfflineTraceInit,
      startNewFile_eq hpath hquota.2 htrace hdistinct hfresh]
  refine ⟨hfresh, runFresh_of_removes hquota hpath hindexed
    (start_kept hquota hinit htrace hdistinct hfresh) hsmall (hfiles ▸ hownAfter) ?_ hremoves⟩
  rw [hfiles]
  omega

/-- The trace with indices keeps the newest messages within its quota, in every run in which
the oldest files are the ones removed. -/
theorem indexed_trace_keeps_newest {initial : List TraceFile} {now : Nat}
    {writes : List TraceWrite} (hquota : 0 < cfg.fileSize ∧ cfg.fileSize ≤ cfg.maxSize)
    (hinit : (mctOfflineTraceInit cfg now initial).1 = .ok)
    (htrace : ∀ f ∈ initial, isTraceFile f) (hdistinct : (initial.map TraceFile.name).Nodup)
    (hsmall : ∀ w ∈ writes, w.message.length < cfg.fileSize)
    (hindexed : ¬ cfg.filenameTimestampBased) (hown : ∀ f ∈ initial, OwnIndex f.name)
    (hroom : newestIdx cfg initial + 1 + writes.length < 4294967296)
    (hstart : RemovesOldest ((cfg.maxSize : Int) - cfg.fileSize) initial)
    (hremoves : RunRemoves cfg (traceStart cfg now initial) writes) :
    KeepsNewest cfg initial writes (traceRun cfg (traceStart cfg now initial) writes) := by
  obtain ⟨hfresh, hrun⟩ := indexed_names_fresh hquota hinit htrace hdistinct hsmall hindexed hown
    hroom hstart hremoves
  have hstarted := start_kept hquota hinit htrace hdistinct hfresh
  exact (run_kept hquota (createNewFile_ok_iff.mp hinit) hstarted hsmall hrun).keepsNewest

end IndexedRuns

end MctDaemon.Shared
