import MctDaemon.Logstorage.FilterLookup
import MctDaemon.Logstorage.StorageWrite

/-!
Which filters of a device store a message. They are to be selected by the ids and the level in its
header; the ECU id is read behind the standard header whether the message carries one or not. A
filter is found once for each key that fits, and all that is found goes to an array on the stack.
-/

namespace MctDaemon.Logstorage

open Lib Shared

section Selection

variable (d : StorageDevice) (h : WriteHeader)

def WriteHeader.ecu : Option (List Char) := if isHtyp 2 h.htyp then some h.extraHeaderEcu else none

def Listed (id list : List Char) : Prop :=
  ∃ token ∈ strtok ',' list, id.take idSize = token.take idSize

/-- The filter leaves the message out: each exclusion list that is set has the id. -/
def Excludes (config : StorageConfig) : Prop :=
  ∃ apid ctid, h.ids = some (apid, ctid) ∧
    (config.excludedApids.isSome ∨ config.excludedCtids.isSome) ∧
    (∀ list ∈ config.excludedApids, Listed apid list) ∧
    ∀ list ∈ config.excludedCtids, Listed ctid list

/-- What a filter asks for beside the ids: it has a file, it is not skipped, its level is high
enough, and it does not leave the message out. -/
def Takes (i : Nat) : Prop :=
  ∃ f, d.filters[i]? = some f ∧ f.config.fileName.isSome ∧ f.state.skip = false ∧
    h.logLevel ≤ f.config.logLevel ∧ ¬ Excludes h f.config

/-- The ECU id of the filter, if it is set, is the given one. -/
def FitsEcu (ecu : List Char) (i : Nat) : Prop :=
  ∀ f, d.filters[i]? = some f → ∀ ecuid ∈ f.config.ids.ecuid, ecu.take idSize = ecuid.take idSize

def AnyEcu (i : Nat) : Prop := ∀ f, d.filters[i]? = some f → f.config.ids.ecuid = none

/-- The filters that are to store the message: those that its ids find, by the ECU id it carries
or by none. -/
def Selected (i : Nat) : Prop :=
  Takes d h i ∧
    match h.ecu with
    | some ecu => i ∈ getConfig d.table ⟨h.ids, ecu⟩ ∧ FitsEcu d ecu i
    | none => i ∈ getConfig d.table ⟨h.ids, []⟩ ∧ AnyEcu d i

/-- The filters that prepare the message are those that are selected, each with the record of its
own file; what is prepared is written. Nothing was written behind an array. -/
structure StoredBySelected (after : WriteState) : Prop where
  inside : after.device.overrun = false
  filters : ∀ i, (∃ a ∈ after.attempts, a.filter = i) ↔ Selected d h i
  records : ∀ a ∈ after.attempts,
    ∃ f, d.filters[a.filter]? = some f ∧ f.config.fileName = some a.record
  written : ∀ a ∈ after.attempts, a.written ↔ a.prepared.1 ∧ a.prepared.2.skip = false

/-- The message carries an ECU id; or the four bytes behind its standard header find no filter that
takes it but those that are found without an ECU id and that take messages of any ECU. -/
def NoStrayEcu : Prop :=
  isHtyp 2 h.htyp ∨
    ∀ i ∈ getConfig d.table h.messageIds, Takes d h i →
      FitsEcu d h.extraHeaderEcu i → i ∈ getConfig d.table ⟨h.ids, []⟩ ∧ AnyEcu d i

/-- The message is found at most as often as the array has places. -/
def FitsArray : Prop := (getConfig d.table h.messageIds).length ≤ mctConfigFileSectionsMax

end Selection

section Filter

variable {d : StorageDevice} {h : WriteHeader}

theorem checkExcludedIds_iff {id list : List Char} :
    mctLogstorageCheckExcludedIds id list ↔ Listed id list := by
  rw [mctLogstorageCheckExcludedIds, List.any_eq_true]
  exact exists_congr fun token => and_congr_right fun _ => decide_eq_true_iff

/-- A configuration that is left in the array. -/
theorem keepsConfig_iff {config : StorageConfig} {ecu : List Char} :
    keepsConfig config ⟨h.ids, ecu⟩ h.logLevel ↔
      h.logLevel ≤ config.logLevel ∧
        (∀ ecuid ∈ config.ids.ecuid, ecu.take idSize = ecuid.take idSize) ∧
        ¬ Excludes h config := by
  have hecu : config.ids.ecuid.any (fun ecuid => ¬ strncmpEq ecu ecuid idSize) = false ↔
      ∀ ecuid ∈ config.ids.ecuid, ecu.take idSize = ecuid.take idSize := by
    cases config.ids.ecuid with
    | none => simp
    | some ecuid => simp [strncmpEq]
  rw [keepsConfig, ← hecu]
  split
  · next hlevel =>
      refine iff_of_false ?_ fun hall => absurd hall.1 (not_le.mpr hlevel)
      exact Bool.false_ne_true
  · next hlevel =>
      rw [not_lt] at hlevel
      split
      · next hother =>
          refine iff_of_false Bool.false_ne_true fun hall => ?_
          exact Bool.false_ne_true (hall.2.1.symm.trans hother)
      · next hfits =>
          rw [Bool.not_eq_true] at hfits
          simp only [hlevel, hfits, true_and]
          cases hapids : config.excludedApids with
          | none =>
              cases hctids : config.excludedCtids with
              | none => simp [Excludes, hapids, hctids]
              | some ctids =>
                  cases hids : h.ids with
                  | none => simp [Excludes, hids]
                  | some ids =>
                      obtain ⟨apid, ctid⟩ := ids
                      simp [Excludes, hapids, hctids, hids, ← checkExcludedIds_iff]
          | some apids =>
              cases hctids : config.excludedCtids with
              | none =>
                  cases hids : h.ids with
                  | none => simp [Excludes, hids]
                  | some ids =>
                      obtain ⟨apid, ctid⟩ := ids
                      simp [Excludes, hapids, hctids, hids, ← checkExcludedIds_iff]
              | some ctids =>
                  cases hids : h.ids with
                  | none => simp [Excludes, hids]
                  | some ids =>
                      obtain ⟨apid, ctid⟩ := ids
                      simp [Excludes, hapids, hctids, hids, ← checkExcludedIds_iff, imp_iff_not_or]

/-- What is left in the array. -/
theorem mem_mctLogstorageFilter {i : Nat} :
    some i ∈ (mctLogstorageFilter d h.messageIds h.logLevel).configs ↔
      i ∈ getConfig d.table h.messageIds ∧ ∃ f, d.filters[i]? = some f ∧
        h.logLevel ≤ f.config.logLevel ∧ ¬ Excludes h f.config ∧
          FitsEcu d h.extraHeaderEcu i := by
  have hkept : (d.filters[i]?.any fun f => keepsConfig f.config h.messageIds h.logLevel) ↔
      ∃ f, d.filters[i]? = some f ∧ h.logLevel ≤ f.config.logLevel ∧ ¬ Excludes h f.config ∧
        FitsEcu d h.extraHeaderEcu i := by
    cases hf : d.filters[i]? with
    | none => simp
    | some f =>
        rw [Option.any_some, WriteHeader.messageIds, keepsConfig_iff]
        constructor
        · rintro ⟨hlevel, hecu, hexcluded⟩
          refine ⟨f, rfl, hlevel, hexcluded, fun g hg => ?_⟩
          rw [hf] at hg
          exact Option.some.inj hg ▸ hecu
        · rintro ⟨g, hg, hlevel, hexcluded, hecu⟩
          obtain rfl := Option.some.inj hg
          exact ⟨hlevel, hecu f hf, hexcluded⟩
  rw [← hkept, mctLogstorageFilter, List.mem_map]
  constructor
  · rintro ⟨j, hj, hsome⟩
    split at hsome
    · next hany =>
        obtain rfl := Option.some.inj hsome
        exact ⟨hj, hany⟩
    · cases hsome
  · rintro ⟨hmem, hany⟩
    exact ⟨i, hmem, if_pos hany⟩

end Filter

section Lookup

variable {handle : MctLogStorage}

theorem subset_findConfigs (keys : List (List Char)) (found : List Nat) :
    found ⊆ findConfigs handle keys found := by
  induction keys generalizing found with
  | nil => exact List.Subset.refl _
  | cons key keys ih =>
      rw [findConfigs]
      split
      · exact List.subset_append_left _ _
      · exact List.Subset.trans (List.subset_append_left _ _) (ih _)

/-- What is found was found before, or by one of the keys. -/
theorem mem_findConfigs {keys : List (List Char)} {found : List Nat} {i : Nat}
    (h : i ∈ findConfigs handle keys found) :
    i ∈ found ∨ ∃ key ∈ keys, i ∈ listFind key handle.configList := by
  induction keys generalizing found with
  | nil => exact .inl h
  | cons key keys ih =>
      rw [findConfigs] at h
      have hstep : i ∈ found ++ listFind key handle.configList →
          i ∈ found ∨ ∃ other ∈ key :: keys, i ∈ listFind other handle.configList := by
        intro hmem
        rcases List.mem_append.mp hmem with hmem | hmem
        · exact .inl hmem
        · exact .inr ⟨key, List.mem_cons_self, hmem⟩
      split at h
      · exact hstep h
      · rcases ih h with hmem | ⟨other, hother, hmem⟩
        · exact hstep hmem
        · exact .inr ⟨other, List.mem_cons_of_mem _ hother, hmem⟩

/-- The search ends within the first keys, or it goes on behind all that they find. -/
theorem findConfigs_append (keys keys' : List (List Char)) (found : List Nat) :
    findConfigs handle (keys ++ keys') found = findConfigs handle keys found ∨
      (∀ key ∈ keys, listFind key handle.configList ⊆ findConfigs handle keys found) ∧
        findConfigs handle (keys ++ keys') found =
          findConfigs handle keys' (findConfigs handle keys found) := by
  induction keys generalizing found with
  | nil => exact .inr ⟨nofun, rfl⟩
  | cons key keys ih =>
      rw [List.cons_append, findConfigs, findConfigs]
      split
      · exact .inl rfl
      · rcases ih (found ++ listFind key handle.configList) with hstop | ⟨hall, hrest⟩
        · exact .inl hstop
        · refine .inr ⟨fun other hother => ?_, hrest⟩
          rcases List.mem_cons.mp hother with rfl | hother
          · exact List.Subset.trans (List.subset_append_right _ _) (subset_findConfigs _ _)
          · exact hall other hother

/-- The keys without an ECU id. -/
def plainKeys (apid ctid : List Char) : List (List Char) :=
  [[':'] ++ apid.take idSize ++ [':'], [':', ':'] ++ ctid.take idSize,
    [':'] ++ apid.take idSize ++ [':'] ++ ctid.take idSize]

theorem mem_getKeysList {ids : List Char} {list : List (List Char)} {id : List Char}
    (h : getKeysList ids = some list) (hid : id ∈ list) : id ≠ [] := by
  rw [getKeysList] at h
  split at h
  · cases h
  · rw [← Option.some.inj h] at hid
    obtain ⟨token, htoken, rfl⟩ := List.mem_map.mp hid
    have hne : token ≠ [] := by simpa using (List.mem_filter.mp (List.mem_of_mem_take htoken)).2
    simpa [idSize] using hne

/-- A key without an ECU id has an application or a context id. -/
theorem length_key_le {config : MctLogStorageFilterConfig} {keys : List (List Char)}
    (hnone : config.ecuid = none) (hkeys : createKeys config = some keys) :
    ∀ key ∈ keys, 3 ≤ key.length := by
  have halone : ¬ config.ecuAlone := by
    rw [MctLogStorageFilterConfig.ecuAlone, hnone]
    split
    · simp
    · simp
    · simp
  rw [createKeys, if_neg halone] at hkeys
  split at hkeys
  · next apids ctids _ _ =>
      split at hkeys
      · next apidList ctidList hapids hctids =>
          intro key hkey
          rw [← Option.some.inj hkeys] at hkey
          obtain ⟨apid, hapid, hkey⟩ := List.mem_flatMap.mp hkey
          obtain ⟨ctid, hctid, rfl⟩ := List.mem_map.mp hkey
          have hapidPos := List.length_pos_iff.mpr (mem_getKeysList hapids hapid)
          have hctidPos := List.length_pos_iff.mpr (mem_getKeysList hctids hctid)
          rw [createKey, hnone]
          split
          · simp only [createKeysOnlyCtid, List.length_append, List.length_cons, List.length_nil]
            omega
          · split
            · simp only [createKeysOnlyApid, List.length_append, List.length_cons, List.length_nil]
              omega
            · simp only [createKeysMulti, List.length_append, List.length_cons, List.length_nil]
              omega
      · cases hkeys
  · cases hkeys

/-- No filter without an ECU id has a key without ids. -/
theorem listFind_empty (hkeys : ∀ filter ∈ handle.configList,
      createKeys filter.data = some filter.keyList) {i : Nat}
    (h : i ∈ listFind [':', ':'] handle.configList) :
    ∃ filter, handle.configList[i]? = some filter ∧ filter.data.ecuid ≠ none := by
  obtain ⟨hi, hkey⟩ := (List.mem_findIdxs_iff_exists_getElem_pos).mp h
  refine ⟨handle.configList[i], List.getElem?_eq_getElem hi, fun hnone => ?_⟩
  have hcreated := hkeys handle.configList[i] (List.getElem_mem hi)
  obtain ⟨own, hown, hsame⟩ := List.any_eq_true.mp hkey
  have hlong : 3 ≤ own.length := length_key_le hnone hcreated own hown
  have htake := congrArg List.length (of_decide_eq_true hsame)
  rw [List.length_take, List.length_take] at htake
  simp [maxKeyLen] at htake
  omega

/-- A filter without an ECU id that is found without one is found by any. -/
theorem mem_getConfig_of_empty (hkeys : ∀ filter ∈ handle.configList,
      createKeys filter.data = some filter.keyList) {ids : Option (List Char × List Char)} {i : Nat}
    (hany : ∀ filter, handle.configList[i]? = some filter → filter.data.ecuid = none)
    (h : i ∈ getConfig handle ⟨ids, []⟩) (ecu : List Char) : i ∈ getConfig handle ⟨ids, ecu⟩ := by
  have hempty : i ∉ listFind [':', ':'] handle.configList := by
    intro hmem
    obtain ⟨filter, hfilter, hne⟩ := listFind_empty hkeys hmem
    exact hne (hany filter hfilter)
  cases ids with
  | none =>
      rcases mem_findConfigs h with hmem | ⟨key, hkey, hmem⟩
      · cases hmem
      · rw [List.mem_singleton.mp hkey] at hmem
        exact absurd hmem hempty
  | some ids =>
      obtain ⟨apid, ctid⟩ := ids
      have hplain : i ∈ findConfigs handle (plainKeys apid ctid) [] := by
        have hsplit : possibleKeys ⟨some (apid, ctid), []⟩ = plainKeys apid ctid ++
            [[':'] ++ apid.take idSize ++ [':'] ++ ctid.take idSize,
              [':'] ++ apid.take idSize ++ [':'], [':', ':'] ++ ctid.take idSize, [':', ':']] := rfl
        rw [getConfig, hsplit] at h
        rcases findConfigs_append (plainKeys apid ctid) _ [] with hstop | ⟨hall, hrest⟩
        · rwa [hstop] at h
        · rw [hrest] at h
          rcases mem_findConfigs h with hmem | ⟨key, hkey, hmem⟩
          · exact hmem
          · have hknown : key ∈ plainKeys apid ctid ∨ key = [':', ':'] := by
              simp only [plainKeys, List.mem_cons, List.not_mem_nil, or_false] at hkey ⊢
              tauto
            rcases hknown with hknown | rfl
            · exact hall key hknown hmem
            · exact absurd hmem hempty
      have hsplit : ∃ keys, possibleKeys ⟨some (apid, ctid), ecu⟩ = plainKeys apid ctid ++ keys :=
        ⟨_, rfl⟩
      obtain ⟨keys, hsplit⟩ := hsplit
      rw [getConfig, hsplit]
      rcases @findConfigs_append handle (plainKeys apid ctid) keys [] with hstop | ⟨-, hrest⟩
      · rwa [hstop]
      · rw [hrest]
        exact subset_findConfigs _ _ hplain

end Lookup

section Result

variable {d : StorageDevice} {h : WriteHeader} {fns : StrategyFunctions}

theorem mctLogstorageWrite_stores (haccepted : Accepted d) :
    WriteState.Stores (mctLogstorageFilter d h.messageIds h.logLevel).configs.zipIdx
      (startWrite d (mctLogstorageFilter d h.messageIds h.logLevel))
      (mctLogstorageWrite fns d h) :=
  WriteState.foldl_step_stores _ rfl (haccepted.overrun _)

/-- An array is overrun by a message that is found too often, or was before. -/
theorem overrun_mctLogstorageWrite (haccepted : Accepted d) :
    (mctLogstorageWrite fns d h).device.overrun = false ↔ d.overrun = false ∧ FitsArray d h := by
  rw [(mctLogstorageWrite_stores haccepted).same.overrun, startWrite, mctLogstorageFilter,
    FitsArray]
  simp

/-- A device keeps its configuration over all writes; its arrays hold what is found as long as each
message fits. -/
theorem deviceAfter_settled (configs : List StorageConfig)
    (writes : List (StrategyFunctions × WriteHeader)) :
    Accepted (deviceAfter configs writes) ∧
      (deviceAfter configs writes).table = (setupDevice configs).table ∧
      ((deviceAfter configs writes).overrun = false ↔
        ∀ header ∈ writes.map Prod.snd, FitsArray (setupDevice configs) header) := by
  have hstart := setupDevice_accepted configs
  rw [deviceAfter]
  induction writes using List.reverseRecOn with
  | nil => exact ⟨hstart, rfl, iff_of_true (setupDevice_overrun configs) (by simp)⟩
  | append_singleton writes write ih =>
      obtain ⟨haccepted, htable, hfit⟩ := ih
      rw [List.foldl_append, List.foldl_cons, List.foldl_nil]
      generalize List.foldl _ (setupDevice configs) writes = d at haccepted htable hfit ⊢
      have hstores := @mctLogstorageWrite_stores d write.2 write.1 haccepted
      refine ⟨(haccepted.overrun _).of_same hstores.same, hstores.same.table.trans htable, ?_⟩
      rw [overrun_mctLogstorageWrite haccepted, hfit, FitsArray, htable, List.map_append,
        List.forall_mem_append, List.map_singleton, List.forall_mem_singleton, FitsArray]

/-- The filters that prepare the message. -/
theorem prepared_iff (haccepted : Accepted d) (i : Nat) :
    (∃ a ∈ (mctLogstorageWrite fns d h).attempts, a.filter = i) ↔
      i ∈ getConfig d.table h.messageIds ∧ Takes d h i ∧
        FitsEcu d h.extraHeaderEcu i := by
  have hplace : (∃ k, (some i, k) ∈
      (mctLogstorageFilter d h.messageIds h.logLevel).configs.zipIdx) ↔
        some i ∈ (mctLogstorageFilter d h.messageIds h.logLevel).configs := by
    simp only [List.mem_zipIdx_iff_getElem?]
    exact List.mem_iff_getElem?.symm
  rw [(mctLogstorageWrite_stores haccepted).filters i, hplace, mem_mctLogstorageFilter]
  constructor
  · rintro (⟨a, ha, -⟩ | ⟨⟨hmem, f, hf, hlevel, hkept, hfits⟩, g, hg, hfile, hskip⟩)
    · cases ha
    · have hfg : d.filters[i]? = some g := hg
      rw [hf] at hfg
      obtain rfl := Option.some.inj hfg
      exact ⟨hmem, ⟨f, hf, hfile, hskip, hlevel, hkept⟩, hfits⟩
  · rintro ⟨hmem, ⟨f, hf, hfile, hskip, hlevel, hkept⟩, hfits⟩
    exact .inr ⟨⟨hmem, f, hf, hlevel, hkept, hfits⟩, f, hf, hfile, hskip⟩

/-- A filter of the table has the ids of the configuration. -/
theorem Accepted.ecuid_eq_none (haccepted : Accepted d) {i : Nat} (hany : AnyEcu d i) :
    ∀ filter, d.table.configList[i]? = some filter → filter.data.ecuid = none := by
  intro filter hfilter
  have hlinked := congrArg (·[i]?) haccepted.linked
  simp only [List.map_map, List.getElem?_map, hfilter, Option.map_some] at hlinked
  obtain ⟨f, hf, hids⟩ := Option.map_eq_some_iff.mp hlinked.symm
  rw [← hids]
  exact hany f hf

theorem AnyEcu.fitsEcu {i : Nat} (hany : AnyEcu d i) (ecu : List Char) : FitsEcu d ecu i := by
  intro f hf ecuid hecuid
  rw [hany f hf] at hecuid
  cases hecuid

/-- Each attempt has the record of its file, and what is prepared is written. -/
theorem attempts_own (haccepted : Accepted d) {a : Attempt}
    (ha : a ∈ (mctLogstorageWrite fns d h).attempts) :
    (∃ f, d.filters[a.filter]? = some f ∧ f.config.fileName = some a.record) ∧
      (a.written ↔ a.prepared.1 ∧ a.prepared.2.skip = false) := by
  rcases (mctLogstorageWrite_stores haccepted).attempts a ha with
    hmem | ⟨⟨config, hconfig, hrecord⟩, hwritten⟩
  · cases hmem
  · rw [List.getElem?_map] at hconfig
    obtain ⟨f, hf, rfl⟩ := Option.map_eq_some_iff.mp hconfig
    exact ⟨⟨f, hf, hrecord⟩, hwritten⟩

def oneEcu : StorageConfig where
  ids := ⟨some "APP1".toList, some "CTX1".toList, some "ECU1".toList⟩
  logLevel := 4
  excludedApids := none
  excludedCtids := none
  fileName := some "log".toList
  disableNetwork := false
  cached := false

def alwaysStores : StrategyFunctions where
  prepare := fun _ _ _ => (true, ⟨false, some "log_001.mct".toList, 1⟩)
  write := fun _ f => (true, f.state)
  named := fun _ _ _ _ _ _ => rfl

theorem timedMessage_whole : writtenHeaderLen 0x31 ≤ 18 := by decide

/-- A message without an ECU id, whose time stamp ends with the byte: an extended header with the
level 4 and the ids `APP1` and `CTX1`. -/
def timedMessage (last : UInt8) : WriteHeader where
  data2 := [0x31, 0, 0, 18, 69, 67, 85, last, 0x41, 0, 65, 80, 80, 49, 67, 84, 88, 49,
    0, 0, 0, 0, 0, 0, 0, 0]
  size2 := 18
  room := rfl
  whole := timedMessage_whole

/-- A filter that finds each message of `CTX1` from `APP1` by two keys. -/
def foundTwice : StorageConfig :=
  { oneEcu with ids := ⟨some "APP1,.*".toList, some "CTX1".toList, none⟩ }

/-- With 64 filters a message is found 127 times. -/
example : ¬ FitsArray (setupDevice (oneEcu :: List.replicate 63 foundTwice)) (timedMessage 49) := by
  unfold FitsArray
  decide +kernel

end Result

end MctDaemon.Logstorage
