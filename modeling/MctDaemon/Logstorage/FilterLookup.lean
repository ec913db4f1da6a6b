import MctDaemon.Logstorage.Filter

/-!
When the lookup of the offline log storage is exact. A filter is found once
for every possible key of the message that it owns, so it is found twice if
the message fits its lists in two ways, and the search stops when as many
filters were found as there are, repetitions counted.
-/

namespace MctDaemon.Logstorage

open Lib

section Search

theorem prepareTable_numConfigs (handle : MctLogStorage) (config : MctLogStorageFilterConfig)
    (h : handle.numConfigs = handle.configList.length) :
    (prepareTable handle config).numConfigs = (prepareTable handle config).configList.length := by
  unfold prepareTable
  split
  · exact h
  · simp [h]

theorem setupTable_numConfigs (configs : List MctLogStorageFilterConfig) :
    (setupTable configs).numConfigs = (setupTable configs).configList.length := by
  unfold setupTable
  generalize hstart : (⟨[], 0⟩ : MctLogStorage) = handle
  have hinit : handle.numConfigs = handle.configList.length := by
    rw [← hstart]
    rfl
  clear hstart
  induction configs generalizing handle with
  | nil => exact hinit
  | cons config configs ih => exact ih _ (prepareTable_numConfigs handle config hinit)

/-- Every filter in the table got its keys from its configuration. -/
theorem setupTable_keys (configs : List MctLogStorageFilterConfig) :
    ∀ filter ∈ (setupTable configs).configList, createKeys filter.data = some filter.keyList := by
  unfold setupTable
  generalize hstart : (⟨[], 0⟩ : MctLogStorage) = handle
  have hinit : ∀ filter ∈ handle.configList, createKeys filter.data = some filter.keyList := by
    rw [← hstart]
    intro filter hfilter
    cases hfilter
  clear hstart
  induction configs generalizing handle with
  | nil => exact hinit
  | cons config configs ih =>
      refine ih (prepareTable handle config) ?_
      intro filter hfilter
      unfold prepareTable at hfilter
      split at hfilter
      · exact hinit filter hfilter
      · rename_i keys hkeys
        rcases List.mem_append.mp hfilter with hold | hnew
        · exact hinit filter hold
        · rw [List.mem_singleton.mp hnew]
          exact hkeys

theorem findConfigs_eq (handle : MctLogStorage) (keys : List (List Char)) (found : List Nat) :
    findConfigs handle keys found =
      searchUntil hasKey handle.configList handle.numConfigs keys found := by
  induction keys generalizing found with
  | nil => rfl
  | cons key keys ih =>
      unfold findConfigs searchUntil
      simp only [listFind, ih]

def ownedKeys (message : MessageIds) (filter : MctLogStorageFilter) : Nat :=
  hitCount hasKey (possibleKeys message) filter

end Search

section Keys

def joinKey (ecuid apid ctid : List Char) : List Char := ecuid ++ ':' :: (apid ++ ':' :: ctid)

/-- Two lists are cut at their first separator in the same way. -/
private theorem append_separator_inj {α : Type*} {separator : α} {front front' back back' : List α}
    (hfront : separator ∉ front) (hfront' : separator ∉ front') :
    front ++ separator :: back = front' ++ separator :: back' ↔
      front = front' ∧ back = back' := by
  induction front generalizing front' with
  | nil =>
      cases front' with
      | nil => simp
      | cons head front' =>
          simp only [List.mem_cons, not_or] at hfront'
          simp only [List.nil_append, List.cons_append, List.cons.injEq, reduceCtorEq, false_and,
            iff_false, not_and]
          exact fun hsame => absurd hsame hfront'.1
  | cons head front ih =>
      simp only [List.mem_cons, not_or] at hfront
      cases front' with
      | nil =>
          simp only [List.nil_append, List.cons_append, List.cons.injEq, reduceCtorEq, false_and,
            iff_false, not_and]
          exact fun hsame => absurd hsame.symm hfront.1
      | cons head' front' =>
          simp only [List.mem_cons, not_or] at hfront'
          simp only [List.cons_append, List.cons.injEq, ih hfront.2 hfront'.2, and_assoc]

theorem joinKey_inj {ecuid apid ctid ecuid' apid' ctid' : List Char} (hecuid : ':' ∉ ecuid)
    (hecuid' : ':' ∉ ecuid') (hapid : ':' ∉ apid) (hapid' : ':' ∉ apid') :
    joinKey ecuid apid ctid = joinKey ecuid' apid' ctid' ↔
      ecuid = ecuid' ∧ apid = apid' ∧ ctid = ctid' := by
  unfold joinKey
  rw [append_separator_inj hecuid hecuid', append_separator_inj hapid hapid']

/-- The application part of a key: nothing for the wildcard. -/
def keyApid (apid : List Char) : List Char := if isWildcard apid then [] else apid

/-- The context part of a key: nothing for the wildcard, unless the
application is the wildcard. -/
def keyCtid (apid ctid : List Char) : List Char :=
  if isWildcard apid then ctid else if isWildcard ctid then [] else ctid

theorem createKey_eq (ecuid : Option (List Char)) (apid ctid : List Char) :
    createKey ecuid apid ctid =
      joinKey (ecuid.getD []) (keyApid apid) (keyCtid apid ctid) := by
  unfold createKey keyApid keyCtid
  split
  · cases ecuid <;> simp [createKeysOnlyCtid, joinKey]
  · split
    · cases ecuid <;> simp [createKeysOnlyApid, joinKey]
    · cases ecuid <;> simp [createKeysMulti, joinKey]

theorem listedIds_ne_nil {ids : Option (List Char)} {id : List Char} (h : id ∈ listedIds ids) :
    id ≠ [] ∧ id.length ≤ idSize := by
  unfold listedIds at h
  split at h
  · rw [List.mem_singleton.mp h]
    decide
  · obtain ⟨token, htoken, rfl⟩ := List.mem_map.mp h
    have hne : token ≠ [] := by simpa using (List.mem_filter.mp htoken).2
    cases token with
    | nil => exact absurd rfl hne
    | cons char rest => exact ⟨by simp [idSize], by simp [idSize]⟩

/-- A list that starts with the wildcard lists it. -/
theorem listed_wildcard {ids : List Char} (h : isWildcard ids) :
    ∃ id ∈ listedIds (some ids), isWildcard id := by
  unfold isWildcard wildcard at h
  match ids with
  | [] => simp at h
  | [char] => simp at h
  | first :: second :: rest =>
      have hchars : first = '.' ∧ second = '*' := by simpa using h
      obtain ⟨rfl, rfl⟩ := hchars
      obtain ⟨token, others, hsplit⟩ : ∃ token others, ('.' :: '*' :: rest).splitOn ',' =
          ('.' :: '*' :: token) :: others := by
        obtain ⟨token, others, hrest⟩ :=
          List.exists_cons_of_ne_nil (List.splitOnP_ne_nil (fun char => char == ',') rest)
        refine ⟨token, others, ?_⟩
        rw [List.splitOn, List.splitOnP_cons_eq_if_modifyHead, if_neg (by decide),
          List.splitOnP_cons_eq_if_modifyHead, if_neg (by decide), hrest]
        rfl
      refine ⟨('.' :: '*' :: token).take idSize, ?_, ?_⟩
      · refine List.mem_map.mpr ⟨'.' :: '*' :: token, ?_, rfl⟩
        rw [tokens, hsplit]
        simp
      · simp [isWildcard, wildcard, idSize]

end Keys

section Ways

/-- Ids without separators, which only the wildcard itself is taken for. -/
structure PlainConfig (config : MctLogStorageFilterConfig) : Prop where
  apids_few : ∀ ids ∈ config.apids, (tokens ids).length ≤ maxIds
  ctids_few : ∀ ids ∈ config.ctids, (tokens ids).length ≤ maxIds
  apids_plain : ∀ id ∈ listedIds config.apids, ':' ∉ id ∧ (isWildcard id → id = wildcard)
  ctids_plain : ∀ id ∈ listedIds config.ctids, isWildcard id → id = wildcard
  ecuid_plain : ∀ ecuid ∈ config.ecuid, ecuid ≠ [] ∧ ':' ∉ ecuid ∧ ecuid.length ≤ idSize

/-- The ids of a message, cut to `MCT_ID_SIZE`, none of them empty or with a
separator in it, and no wildcards. -/
structure PlainMessage (message : MessageIds) (ecuid apid ctid : List Char) : Prop where
  ecuid_eq : message.ecuid.take idSize = ecuid
  ids_eq : ∃ ids, message.ids = some ids ∧ ids.1.take idSize = apid ∧ ids.2.take idSize = ctid
  ecuid_plain : ecuid ≠ [] ∧ ':' ∉ ecuid
  apid_plain : apid ≠ [] ∧ ':' ∉ apid ∧ ¬ isWildcard apid
  ctid_plain : ctid ≠ [] ∧ ¬ isWildcard ctid

/-- In how many ways the ids of a message fit the lists of a filter: the
application id is listed and the context wildcard is, the other way round, or
both ids are listed. -/
def ways (config : MctLogStorageFilterConfig) (apid ctid : List Char) : Nat :=
  (if apid ∈ listedIds config.apids ∧ wildcard ∈ listedIds config.ctids then 1 else 0) +
    (if wildcard ∈ listedIds config.apids ∧ ctid ∈ listedIds config.ctids then 1 else 0) +
    (if apid ∈ listedIds config.apids ∧ ctid ∈ listedIds config.ctids then 1 else 0)

/-- The ids fit in at most one way. If both lists have the wildcard, then only
the ECU id matters to the filter, or it has none, or there is a way. -/
def SingleWay (config : MctLogStorageFilterConfig) (ecuid apid ctid : List Char) : Prop :=
  config.ecuAlone ∨ (∃ other ∈ config.ecuid, other ≠ ecuid) ∨
    ways config apid ctid ≤ 1 ∧
      (wildcard ∈ listedIds config.apids → wildcard ∈ listedIds config.ctids →
        config.ecuid.isSome → ways config apid ctid = 1)

variable {config : MctLogStorageFilterConfig} {message : MessageIds}
variable {ecuid apid ctid : List Char} {keys : List (List Char)}

theorem isWildcard_wildcard : isWildcard wildcard := by decide

/-- The keys of a filter whose lists matter are those of the products of the
lists. -/
theorem mem_keys_iff (hconfig : PlainConfig config) (hkeys : createKeys config = some keys)
    (halone : ¬ config.ecuAlone) (key : List Char) :
    key ∈ keys ↔ ∃ a ∈ listedIds config.apids, ∃ c ∈ listedIds config.ctids,
      createKey config.ecuid a c = key := by
  unfold createKeys at hkeys
  rw [if_neg halone] at hkeys
  split at hkeys
  · rename_i apids ctids hapids hctids
    split at hkeys
    · rename_i apidList ctidList hapidList hctidList
      cases hkeys
      unfold getKeysList at hapidList hctidList
      split at hapidList
      · cases hapidList
      · split at hctidList
        · cases hctidList
        · cases hapidList
          cases hctidList
          have hfewA := hconfig.apids_few apids (by rw [hapids]; rfl)
          have hfewC := hconfig.ctids_few ctids (by rw [hctids]; rfl)
          rw [hapids, hctids, List.take_of_length_le hfewA, List.take_of_length_le hfewC]
          simp only [List.mem_flatMap, List.mem_map, listedIds]
    · cases hkeys
  · cases hkeys

theorem joinKey_length (ecuid apid ctid : List Char) :
    (joinKey ecuid apid ctid).length = ecuid.length + apid.length + ctid.length + 2 := by
  simp only [joinKey, List.length_append, List.length_cons]
  omega

/-- Comparing keys of three ids is comparing the ids. -/
theorem hasKey_joinKey (hconfig : PlainConfig config) (hkeys : createKeys config = some keys)
    (halone : ¬ config.ecuAlone) {e a c : List Char} (he : ':' ∉ e) (ha : ':' ∉ a)
    (helen : e.length ≤ idSize) (halen : a.length ≤ idSize) (hclen : c.length ≤ idSize) :
    hasKey (joinKey e a c) ⟨keys, config⟩ ↔
      config.ecuid.getD [] = e ∧ ∃ apid ∈ listedIds config.apids,
        ∃ ctid ∈ listedIds config.ctids, keyApid apid = a ∧ keyCtid apid ctid = c := by
  have hid : idSize = 4 := rfl
  have hmax : maxKeyLen = 15 := rfl
  have hown : ':' ∉ config.ecuid.getD [] ∧ (config.ecuid.getD []).length ≤ idSize := by
    cases hecuid : config.ecuid with
    | none => simp
    | some own =>
        have hplain := hconfig.ecuid_plain own (by rw [hecuid]; rfl)
        exact ⟨hplain.2.1, hplain.2.2⟩
  have hcompare : ∀ apid ∈ listedIds config.apids, ∀ ctid ∈ listedIds config.ctids,
      (sameKey (createKey config.ecuid apid ctid) (joinKey e a c) ↔
        config.ecuid.getD [] = e ∧ keyApid apid = a ∧ keyCtid apid ctid = c) := by
    intro apid hapid ctid hctid
    have hapidLen := (listedIds_ne_nil hapid).2
    have hctidLen := (listedIds_ne_nil hctid).2
    have hpart : ':' ∉ keyApid apid ∧ (keyApid apid).length ≤ idSize := by
      unfold keyApid
      split
      · simp
      · exact ⟨(hconfig.apids_plain apid hapid).1, hapidLen⟩
    have hctidPart : (keyCtid apid ctid).length ≤ idSize := by
      unfold keyCtid
      split
      · exact hctidLen
      · split
        · simp
        · exact hctidLen
    unfold sameKey
    rw [createKey_eq, List.take_of_length_le (by rw [joinKey_length]; omega),
      List.take_of_length_le (by rw [joinKey_length]; omega), decide_eq_true_iff,
      joinKey_inj hown.1 he hpart.1 ha]
  unfold hasKey
  rw [List.any_eq_true]
  constructor
  · rintro ⟨own, hmem, hsame⟩
    obtain ⟨apid, hapid, ctid, hctid, rfl⟩ := (mem_keys_iff hconfig hkeys halone own).mp hmem
    obtain ⟨hecuid, hparts⟩ := (hcompare apid hapid ctid hctid).mp hsame
    exact ⟨hecuid, apid, hapid, ctid, hctid, hparts⟩
  · rintro ⟨hecuid, apid, hapid, ctid, hctid, hparts⟩
    refine ⟨createKey config.ecuid apid ctid, ?_, ?_⟩
    · exact (mem_keys_iff hconfig hkeys halone _).mpr ⟨apid, hapid, ctid, hctid, rfl⟩
    · exact (hcompare apid hapid ctid hctid).mpr ⟨hecuid, hparts⟩

/-- A key with an application id only comes from the id and a wildcard. -/
theorem parts_only_apid (hconfig : PlainConfig config)
    (hapid : apid ≠ [] ∧ ':' ∉ apid ∧ ¬ isWildcard apid) :
    (∃ a ∈ listedIds config.apids, ∃ c ∈ listedIds config.ctids,
        keyApid a = apid ∧ keyCtid a c = []) ↔
      apid ∈ listedIds config.apids ∧ wildcard ∈ listedIds config.ctids := by
  constructor
  · rintro ⟨a, ha, c, hc, hkeyA, hkeyC⟩
    unfold keyApid at hkeyA
    unfold keyCtid at hkeyC
    split at hkeyA
    · exact absurd hkeyA.symm hapid.1
    · rename_i hwild
      rw [if_neg hwild] at hkeyC
      split at hkeyC
      · rename_i hctid
        rw [← hkeyA, ← hconfig.ctids_plain c hc hctid]
        exact ⟨ha, hc⟩
      · exact absurd hkeyC (listedIds_ne_nil hc).1
  · rintro ⟨ha, hc⟩
    refine ⟨apid, ha, wildcard, hc, ?_, ?_⟩
    · exact if_neg hapid.2.2
    · unfold keyCtid
      rw [if_neg hapid.2.2, if_pos isWildcard_wildcard]

/-- A key with a context id only comes from a wildcard and the id. -/
theorem parts_only_ctid (hconfig : PlainConfig config) (ctid : List Char) :
    (∃ a ∈ listedIds config.apids, ∃ c ∈ listedIds config.ctids,
        keyApid a = [] ∧ keyCtid a c = ctid) ↔
      wildcard ∈ listedIds config.apids ∧ ctid ∈ listedIds config.ctids := by
  constructor
  · rintro ⟨a, ha, c, hc, hkeyA, hkeyC⟩
    unfold keyApid at hkeyA
    unfold keyCtid at hkeyC
    split at hkeyA
    · rename_i hwild
      rw [if_pos hwild] at hkeyC
      rw [← hkeyC, ← (hconfig.apids_plain a ha).2 hwild]
      exact ⟨ha, hc⟩
    · exact absurd hkeyA (listedIds_ne_nil ha).1
  · rintro ⟨ha, hc⟩
    refine ⟨wildcard, ha, ctid, hc, ?_, ?_⟩
    · exact if_pos isWildcard_wildcard
    · exact if_pos isWildcard_wildcard

/-- A key with both ids comes from both ids. -/
theorem parts_both (hapid : apid ≠ [] ∧ ':' ∉ apid ∧ ¬ isWildcard apid)
    (hctid : ctid ≠ [] ∧ ¬ isWildcard ctid) :
    (∃ a ∈ listedIds config.apids, ∃ c ∈ listedIds config.ctids,
        keyApid a = apid ∧ keyCtid a c = ctid) ↔
      apid ∈ listedIds config.apids ∧ ctid ∈ listedIds config.ctids := by
  constructor
  · rintro ⟨a, ha, c, hc, hkeyA, hkeyC⟩
    unfold keyApid at hkeyA
    unfold keyCtid at hkeyC
    split at hkeyA
    · exact absurd hkeyA.symm hapid.1
    · rename_i hwild
      rw [if_neg hwild] at hkeyC
      split at hkeyC
      · exact absurd hkeyC.symm hctid.1
      · rw [← hkeyA, ← hkeyC]
        exact ⟨ha, hc⟩
  · rintro ⟨ha, hc⟩
    refine ⟨apid, ha, ctid, hc, ?_, ?_⟩
    · exact if_neg hapid.2.2
    · unfold keyCtid
      rw [if_neg hapid.2.2, if_neg hctid.2]

/-- No key of listed ids is without both. -/
theorem parts_none :
    ¬ ∃ a ∈ listedIds config.apids, ∃ c ∈ listedIds config.ctids,
        keyApid a = [] ∧ keyCtid a c = [] := by
  rintro ⟨a, ha, c, hc, hkeyA, hkeyC⟩
  unfold keyApid at hkeyA
  unfold keyCtid at hkeyC
  split at hkeyA
  · rename_i hwild
    rw [if_pos hwild] at hkeyC
    exact (listedIds_ne_nil hc).1 hkeyC
  · exact (listedIds_ne_nil ha).1 hkeyA

theorem possibleKeys_eq (hmessage : PlainMessage message ecuid apid ctid) :
    possibleKeys message =
      [joinKey [] apid [], joinKey [] [] ctid, joinKey [] apid ctid, joinKey ecuid apid ctid,
        joinKey ecuid apid [], joinKey ecuid [] ctid, joinKey ecuid [] []] := by
  obtain ⟨ids, hids, hapid, hctid⟩ := hmessage.ids_eq
  unfold possibleKeys
  rw [hids, hmessage.ecuid_eq]
  simp [hapid, hctid, joinKey]

/-- A filter whose lists matter owns as many possible keys as there are ways
the ids fit them, if its ECU id is unset or equal, and none otherwise. -/
theorem ownedKeys_lists (hconfig : PlainConfig config)
    (hmessage : PlainMessage message ecuid apid ctid) (hkeys : createKeys config = some keys)
    (halone : ¬ config.ecuAlone) :
    ownedKeys message ⟨keys, config⟩ =
      if ∀ own ∈ config.ecuid, own = ecuid then ways config apid ctid else 0 := by
  obtain ⟨ids, _, hapidCut, hctidCut⟩ := hmessage.ids_eq
  have hecuidLen : ecuid.length ≤ idSize := by
    rw [← hmessage.ecuid_eq, List.length_take]
    exact Nat.min_le_left _ _
  have hapidLen : apid.length ≤ idSize := by
    rw [← hapidCut, List.length_take]
    exact Nat.min_le_left _ _
  have hctidLen : ctid.length ≤ idSize := by
    rw [← hctidCut, List.length_take]
    exact Nat.min_le_left _ _
  have hnil : ([] : List Char).length ≤ idSize := Nat.zero_le _
  have hnone : ':' ∉ ([] : List Char) := List.not_mem_nil
  have hecuid := hmessage.ecuid_plain
  have hapid := hmessage.apid_plain
  have hctid := hmessage.ctid_plain
  have hunset : config.ecuid.getD [] = [] ↔ config.ecuid = none := by
    cases hcase : config.ecuid with
    | none => simp
    | some own =>
        have hplain := hconfig.ecuid_plain own (by rw [hcase]; rfl)
        simp [hplain.1]
  have hset : config.ecuid.getD [] = ecuid ↔ config.ecuid = some ecuid := by
    cases hcase : config.ecuid with
    | none => simpa using hecuid.1.symm
    | some own => simp
  unfold ownedKeys hitCount
  rw [possibleKeys_eq hmessage]
  simp only [List.countP_cons, List.countP_nil,
    hasKey_joinKey hconfig hkeys halone hnone hapid.2.1 hnil hapidLen hnil,
    hasKey_joinKey hconfig hkeys halone hnone hnone hnil hnil hctidLen,
    hasKey_joinKey hconfig hkeys halone hnone hapid.2.1 hnil hapidLen hctidLen,
    hasKey_joinKey hconfig hkeys halone hecuid.2 hapid.2.1 hecuidLen hapidLen hctidLen,
    hasKey_joinKey hconfig hkeys halone hecuid.2 hapid.2.1 hecuidLen hapidLen hnil,
    hasKey_joinKey hconfig hkeys halone hecuid.2 hnone hecuidLen hnil hctidLen,
    hasKey_joinKey hconfig hkeys halone hecuid.2 hnone hecuidLen hnil hnil,
    parts_only_apid hconfig hapid, parts_only_ctid hconfig ctid, parts_both hapid hctid,
    parts_none, hunset, hset, and_false, if_false]
  unfold ways
  cases hcase : config.ecuid with
  | none =>
      simp
      omega
  | some own =>
      by_cases hsame : own = ecuid
      · subst hsame
        simp
        omega
      · simp [hsame]

/-- A filter to which only the ECU id matters owns the last possible key of
its ECU's messages. -/
theorem ownedKeys_alone (hconfig : PlainConfig config)
    (hmessage : PlainMessage message ecuid apid ctid) (hkeys : createKeys config = some keys)
    (halone : config.ecuAlone) :
    ownedKeys message ⟨keys, config⟩ = if config.ecuid = some ecuid then 1 else 0 := by
  obtain ⟨ids, _, hapidCut, hctidCut⟩ := hmessage.ids_eq
  have hid : idSize = 4 := rfl
  have hmax : maxKeyLen = 15 := rfl
  have hecuidLen : ecuid.length ≤ idSize := by
    rw [← hmessage.ecuid_eq, List.length_take]
    exact Nat.min_le_left _ _
  have hapidLen : apid.length ≤ idSize := by
    rw [← hapidCut, List.length_take]
    exact Nat.min_le_left _ _
  have hctidLen : ctid.length ≤ idSize := by
    rw [← hctidCut, List.length_take]
    exact Nat.min_le_left _ _
  obtain ⟨own, hown⟩ : ∃ own, config.ecuid = some own := by
    unfold MctLogStorageFilterConfig.ecuAlone at halone
    split at halone
    · exact Option.isSome_iff_exists.mp halone
    · simp only [Bool.and_eq_true] at halone
      exact Option.isSome_iff_exists.mp halone.2
    · cases halone
  have hplain := hconfig.ecuid_plain own (by rw [hown]; rfl)
  have hecuid := hmessage.ecuid_plain
  have hapid := hmessage.apid_plain
  have hctid := hmessage.ctid_plain
  unfold createKeys at hkeys
  rw [if_pos halone, hown] at hkeys
  cases hkeys
  have hkey : createKeysOnlyEcu ((some own).getD []) = joinKey own [] [] := by
    simp [createKeysOnlyEcu, joinKey]
  have hcompare {e a c : List Char} (he : ':' ∉ e) (ha : ':' ∉ a) (helen : e.length ≤ idSize)
      (halen : a.length ≤ idSize) (hclen : c.length ≤ idSize) :
      hasKey (joinKey e a c) ⟨[createKeysOnlyEcu ((some own).getD [])], config⟩ ↔
        own = e ∧ [] = a ∧ [] = c := by
    have hownLen : (joinKey own [] []).length ≤ maxKeyLen := by
      rw [joinKey_length, List.length_nil]
      omega
    have hotherLen : (joinKey e a c).length ≤ maxKeyLen := by
      rw [joinKey_length]
      omega
    rw [hasKey, List.any_cons, List.any_nil, Bool.or_false, hkey, sameKey,
      List.take_of_length_le hownLen, List.take_of_length_le hotherLen, decide_eq_true_iff,
      joinKey_inj hplain.2.1 he List.not_mem_nil ha]
  have hnone : ':' ∉ ([] : List Char) := List.not_mem_nil
  have hnil : ([] : List Char).length ≤ idSize := Nat.zero_le _
  unfold ownedKeys hitCount
  rw [possibleKeys_eq hmessage]
  simp only [List.countP_cons, List.countP_nil,
    hcompare hnone hapid.2.1 hnil hapidLen hnil, hcompare hnone hnone hnil hnil hctidLen,
    hcompare hnone hapid.2.1 hnil hapidLen hctidLen,
    hcompare hecuid.2 hapid.2.1 hecuidLen hapidLen hctidLen,
    hcompare hecuid.2 hapid.2.1 hecuidLen hapidLen hnil,
    hcompare hecuid.2 hnone hecuidLen hnil hctidLen,
    hcompare hecuid.2 hnone hecuidLen hnil hnil, hown, Option.some.injEq]
  simp [hplain.1, hapid.1.symm, hctid.1.symm]

/-- A filter takes a message if its ECU id fits and the ids fit in one of the
three ways, or, with an ECU id, both lists have the wildcard. -/
theorem matches_iff (hmessage : PlainMessage message ecuid apid ctid) :
    config.Matches message ↔ (∀ own ∈ config.ecuid, own = ecuid) ∧
      (0 < ways config apid ctid ∨
        wildcard ∈ listedIds config.apids ∧ wildcard ∈ listedIds config.ctids ∧
          config.ecuid.isSome) := by
  obtain ⟨ids, hids, hapidCut, hctidCut⟩ := hmessage.ids_eq
  have hapidPlain : apid ≠ wildcard := by
    rintro rfl
    exact hmessage.apid_plain.2.2 isWildcard_wildcard
  have hctidPlain : ctid ≠ wildcard := by
    rintro rfl
    exact hmessage.ctid_plain.2 isWildcard_wildcard
  have hways : 0 < ways config apid ctid ↔
      (apid ∈ listedIds config.apids ∧ wildcard ∈ listedIds config.ctids) ∨
        (wildcard ∈ listedIds config.apids ∧ ctid ∈ listedIds config.ctids) ∨
        (apid ∈ listedIds config.apids ∧ ctid ∈ listedIds config.ctids) := by
    unfold ways
    split <;> split <;> split <;> simp [*]
  unfold MctLogStorageFilterConfig.Matches
  rw [hmessage.ecuid_eq, hways, hids]
  refine and_congr_right fun _ => ?_
  constructor
  · rintro ⟨a, ha, c, hc, hfitA, hfitC, hboth⟩
    have hfitA' : a = wildcard ∨ a = apid := by simpa [hapidCut] using hfitA
    have hfitC' : c = wildcard ∨ c = ctid := by simpa [hctidCut] using hfitC
    rcases hfitA' with rfl | rfl
    · rcases hfitC' with rfl | rfl
      · exact Or.inr ⟨ha, hc, hboth rfl rfl⟩
      · exact Or.inl (Or.inr (Or.inl ⟨ha, hc⟩))
    · rcases hfitC' with rfl | rfl
      · exact Or.inl (Or.inl ⟨ha, hc⟩)
      · exact Or.inl (Or.inr (Or.inr ⟨ha, hc⟩))
  · rintro ((⟨ha, hc⟩ | ⟨ha, hc⟩ | ⟨ha, hc⟩) | ⟨ha, hc, hsome⟩)
    · exact ⟨apid, ha, wildcard, hc, Or.inr ⟨ids, rfl, hapidCut.symm⟩, Or.inl rfl,
        fun hwild => absurd hwild hapidPlain⟩
    · exact ⟨wildcard, ha, ctid, hc, Or.inl rfl, Or.inr ⟨ids, rfl, hctidCut.symm⟩,
        fun _ hwild => absurd hwild hctidPlain⟩
    · exact ⟨apid, ha, ctid, hc, Or.inr ⟨ids, rfl, hapidCut.symm⟩,
        Or.inr ⟨ids, rfl, hctidCut.symm⟩, fun hwild => absurd hwild hapidPlain⟩
    · exact ⟨wildcard, ha, wildcard, hc, Or.inl rfl, Or.inl rfl, fun _ _ => hsome⟩

/-- Both lists of a filter to which only the ECU id matters have the
wildcard. -/
theorem alone_wildcards (hconfig : PlainConfig config) (halone : config.ecuAlone) :
    wildcard ∈ listedIds config.apids ∧ wildcard ∈ listedIds config.ctids ∧
      config.ecuid.isSome := by
  unfold MctLogStorageFilterConfig.ecuAlone at halone
  split at halone
  · rename_i hapids hctids
    rw [hapids, hctids]
    exact ⟨List.mem_singleton.mpr rfl, List.mem_singleton.mpr rfl, halone⟩
  · rename_i apids ctids hapids hctids
    simp only [Bool.and_eq_true] at halone
    obtain ⟨a, ha, hwildA⟩ := listed_wildcard halone.1.1
    obtain ⟨c, hc, hwildC⟩ := listed_wildcard halone.1.2
    rw [← hapids] at ha
    rw [← hctids] at hc
    have hsameA := (hconfig.apids_plain a ha).2 hwildA
    have hsameC := hconfig.ctids_plain c hc hwildC
    subst hsameA
    subst hsameC
    exact ⟨ha, hc, halone.2⟩
  · cases halone

/-- A filter owns one possible key if it takes the message and none if it does
not, exactly when the ids fit it in a single way. -/
theorem ownedKeys_eq_iff (hconfig : PlainConfig config)
    (hmessage : PlainMessage message ecuid apid ctid) (hkeys : createKeys config = some keys) :
    ownedKeys message ⟨keys, config⟩ = (if config.Matches message then 1 else 0) ↔
      SingleWay config ecuid apid ctid := by
  have hother : (∃ other ∈ config.ecuid, other ≠ ecuid) ↔
      ¬ ∀ own ∈ config.ecuid, own = ecuid := by
    push Not
    rfl
  unfold SingleWay
  rw [hother, if_congr (matches_iff hmessage) rfl rfl]
  by_cases halone : config.ecuAlone = true
  · rw [ownedKeys_alone hconfig hmessage hkeys halone]
    obtain ⟨hwildA, hwildC, hsome⟩ := alone_wildcards hconfig halone
    obtain ⟨own, hown⟩ := Option.isSome_iff_exists.mp hsome
    simp [halone, hwildA, hwildC, hown]
  · rw [ownedKeys_lists hconfig hmessage hkeys halone]
    by_cases hfits : ∀ own ∈ config.ecuid, own = ecuid
    · rw [if_pos hfits]
      generalize ways config apid ctid = count
      by_cases hwild : wildcard ∈ listedIds config.apids ∧
          wildcard ∈ listedIds config.ctids ∧ config.ecuid.isSome
      · rw [if_pos ⟨hfits, Or.inr hwild⟩]
        constructor
        · intro hone
          exact Or.inr (Or.inr ⟨hone.le, fun _ _ _ => hone⟩)
        · rintro (h | h | ⟨_, h⟩)
          · exact absurd h halone
          · exact absurd hfits h
          · exact h hwild.1 hwild.2.1 hwild.2.2
      · have hsplit : (if (∀ own ∈ config.ecuid, own = ecuid) ∧ (0 < count ∨
            wildcard ∈ listedIds config.apids ∧ wildcard ∈ listedIds config.ctids ∧
              config.ecuid.isSome) then 1 else 0) = if 0 < count then 1 else 0 := by
          simp only [hwild, or_false]
          exact if_congr ⟨fun h => h.2, fun h => ⟨hfits, h⟩⟩ rfl rfl
        rw [hsplit]
        constructor
        · intro hcount
          refine Or.inr (Or.inr ⟨?_, fun hA hC hS => absurd ⟨hA, hC, hS⟩ hwild⟩)
          split at hcount <;> omega
        · rintro (h | h | ⟨hle, _⟩)
          · exact absurd h halone
          · exact absurd hfits h
          · split <;> omega
    · rw [if_neg hfits, if_neg (fun h => hfits h.1)]
      exact ⟨fun _ => Or.inr (Or.inl hfits), fun _ => rfl⟩

end Ways

/-- The lookup is exact if and only if every filter owns one possible key of
the message when it takes it and none when it does not, or all filters take it
and some first keys find each of them once, so that the search stops there. For
plain ids the first condition says that each filter is fitted in a single
way. -/
theorem get_config_exact_iff (configs : List MctLogStorageFilterConfig)
    (message : MessageIds) :
    (ExactLookup (setupTable configs) message ↔
      (∀ filter ∈ (setupTable configs).configList,
        ownedKeys message filter = if filter.data.Matches message then 1 else 0) ∨
      (∀ filter ∈ (setupTable configs).configList, filter.data.Matches message) ∧
        ∃ s ≤ (possibleKeys message).length, ∀ filter ∈ (setupTable configs).configList,
          hitCount hasKey ((possibleKeys message).take s) filter = 1) ∧
    ∀ ecuid apid ctid, PlainMessage message ecuid apid ctid →
      ∀ filter ∈ (setupTable configs).configList, PlainConfig filter.data →
        (ownedKeys message filter = (if filter.data.Matches message then 1 else 0) ↔
          SingleWay filter.data ecuid apid ctid) := by
  constructor
  · have hsearch := searchUntil_exact_iff hasKey (setupTable configs).configList
      (fun filter => decide (filter.data.Matches message)) (possibleKeys message)
    have hrun : getConfig (setupTable configs) message = searchUntil hasKey
        (setupTable configs).configList (setupTable configs).configList.length
        (possibleKeys message) [] := by
      rw [getConfig, findConfigs_eq, setupTable_numConfigs]
    unfold ExactLookup
    rw [hrun]
    simpa only [ownedKeys, decide_eq_true_eq] using hsearch
  · intro ecuid apid ctid hmessage filter hfilter hconfig
    exact ownedKeys_eq_iff hconfig hmessage (setupTable_keys configs filter hfilter)

/-- Two applications with any context: one way for each message of theirs. -/
theorem get_config_exact_iff_plain :
    let config : MctLogStorageFilterConfig :=
      ⟨some "APP1,APP2".toList, some ".*".toList, some "ECU1".toList⟩
    let message : MessageIds := ⟨some ("APP2".toList, "CTX".toList), "ECU1".toList⟩
    SingleWay config "ECU1".toList "APP2".toList "CTX".toList ∧
      ∀ filter ∈ (setupTable [config]).configList, ownedKeys message filter = 1 := by
  intro config message
  have hsingle : SingleWay config "ECU1".toList "APP2".toList "CTX".toList :=
    Or.inr (Or.inr (by decide +kernel))
  have hmessage : PlainMessage message "ECU1".toList "APP2".toList "CTX".toList :=
    ⟨by decide, ⟨_, rfl, by decide, by decide⟩, by decide, by decide, by decide⟩
  have hconfig : PlainConfig config :=
    ⟨by decide +kernel, by decide +kernel, by decide +kernel, by decide +kernel,
      by decide +kernel⟩
  refine ⟨hsingle, ?_⟩
  intro filter hfilter
  have hdata : filter.data = config := by
    have hall : ∀ filter ∈ (setupTable [config]).configList, filter.data = config := by
      decide +kernel
    exact hall filter hfilter
  have hcount := ((get_config_exact_iff [config] message).2 _ _ _ hmessage filter hfilter
    (by rw [hdata]; exact hconfig)).mpr (by rw [hdata]; exact hsingle)
  rw [hcount, hdata, if_pos (by decide +kernel)]

/-- The first filter is found by its wildcard and by its application id. The
two findings make up the number of filters, and the second filter, which takes
the message too, is not looked for. -/
theorem get_config_repeats_and_drops :
    let configs : List MctLogStorageFilterConfig :=
      [⟨some "APP1,.*".toList, some "CTX1".toList, none⟩,
        ⟨some "APP1".toList, some "CTX1".toList, some "ECU1".toList⟩]
    let message : MessageIds := ⟨some ("APP1".toList, "CTX1".toList), "ECU1".toList⟩
    (∀ filter ∈ (setupTable configs).configList, filter.data.Matches message) ∧
      getConfig (setupTable configs) message = [0, 0] ∧
      ¬ ExactLookup (setupTable configs) message := by
  intro configs message
  refine ⟨by decide +kernel, by decide +kernel, ?_⟩
  intro hexact
  have hsecond := hexact 1 (by decide +kernel)
  exact absurd hsecond (by decide +kernel)

end MctDaemon.Logstorage
