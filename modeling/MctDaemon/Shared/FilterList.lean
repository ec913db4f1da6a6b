import Mathlib.Data.List.TakeWhile
import MctDaemon.Shared.LogFile

/-!
The filter list of the tools (`MctFilter`, `mct_common.c`): five arrays of which
the first `counter` entries are in use, with `mct_filter_find`, `mct_filter_add`
and `mct_filter_delete`. Deleting an entry shifts the entries behind it down, so
that the entries in use stay those before `counter`.
-/

namespace MctDaemon.Shared

section Ids

/-- The characters `mct_set_id` copies: those before the first zero, four at most. -/
def idBytesText (text : List UInt8) : List UInt8 :=
  (text.take mctIdSize).takeWhile fun b => b ≠ 0

/-- The four bytes `mct_set_id` leaves for a text. -/
def padId (text : List UInt8) : List UInt8 :=
  idBytesText text ++ List.replicate (mctIdSize - (idBytesText text).length) 0

theorem idBytesText_length_le (text : List UInt8) : (idBytesText text).length ≤ mctIdSize :=
  ((List.takeWhile_prefix _).length_le).trans (List.length_take_le _ _)

theorem zero_notMem_idBytesText (text : List UInt8) : 0 ∉ idBytesText text := by
  intro h
  simpa using List.mem_takeWhile_imp h

theorem idBytesText_eq_self {text : List UInt8} (hlength : text.length ≤ mctIdSize)
    (hzero : 0 ∉ text) : idBytesText text = text := by
  rw [idBytesText, List.take_of_length_le hlength, List.takeWhile_eq_self_iff]
  intro b hb
  have hne : b ≠ 0 := by
    rintro rfl
    exact hzero hb
  simpa using hne

theorem padId_length (text : List UInt8) : (padId text).length = mctIdSize := by
  have hle := idBytesText_length_le text
  rw [padId, List.length_append, List.length_replicate]
  omega

theorem idBytesText_padId (text : List UInt8) : idBytesText (padId text) = idBytesText text := by
  have hzeros : ∀ n, (List.replicate n (0 : UInt8)).takeWhile (fun b => b ≠ 0) = [] := by
    intro n
    cases n with
    | zero => rfl
    | succ n => rfl
  have hself := idBytesText_eq_self (idBytesText_length_le text) (zero_notMem_idBytesText text)
  rw [idBytesText, List.take_of_length_le (idBytesText_length_le text)] at hself
  rw [idBytesText, List.take_of_length_le (padId_length text).le, padId, List.takeWhile_append,
    hself, if_pos rfl, hzeros, List.append_nil]

theorem padId_padId (text : List UInt8) : padId (padId text) = padId text := by
  rw [padId, idBytesText_padId, padId]

/-- An identifier as `mct_set_id` leaves it: unused bytes are zero. -/
structure FilterId where
  bytes : List UInt8
  padded : padId bytes = bytes
  deriving DecidableEq

namespace FilterId

theorem ext {a b : FilterId} (h : a.bytes = b.bytes) : a = b := by
  obtain ⟨_, _⟩ := a
  obtain ⟨_, _⟩ := b
  subst h
  rfl

theorem length_eq (id : FilterId) : id.bytes.length = mctIdSize := by
  rw [← id.padded, padId_length]

@[simp]
theorem take_bytes (id : FilterId) : id.bytes.take mctIdSize = id.bytes :=
  List.take_of_length_le id.length_eq.le

end FilterId

def mctSetId (text : List UInt8) : FilterId := ⟨padId text, padId_padId text⟩

@[simp]
theorem mctSetId_bytes (id : FilterId) : mctSetId id.bytes = id := FilterId.ext id.padded

end Ids

section Model

def mctFilterMax : Nat := 30

def int32Max : Int := 2147483647

structure MctFilter where
  apid : Vector FilterId mctFilterMax
  ctid : Vector FilterId mctFilterMax
  logLevel : Vector Int mctFilterMax
  payloadMax : Vector Int mctFilterMax
  payloadMin : Vector Int mctFilterMax
  counter : Nat
  counter_le : counter ≤ mctFilterMax
  deriving DecidableEq

/-- The arguments of `mct_filter_find`, `mct_filter_add` and
`mct_filter_delete`: the memory at `apid` and `ctid`, `ctid` may be `NULL`. -/
structure FilterArgs where
  apid : List UInt8
  ctid : Option (List UInt8)
  logLevel : Int
  payloadMin : Int
  payloadMax : Int
  deriving DecidableEq, Repr

namespace MctFilter

/-- Entry `num` of the five arrays. -/
def entryAt (f : MctFilter) (num : Nat) : MctFilterEntry where
  apid := (f.apid[num]?.getD (mctSetId [])).bytes
  ctid := (f.ctid[num]?.getD (mctSetId [])).bytes
  logLevel := f.logLevel[num]?.getD 0
  payloadMin := f.payloadMin[num]?.getD 0
  payloadMax := f.payloadMax[num]?.getD 0

/-- The assignments to entry `num` of the five arrays. -/
def store (f : MctFilter) (num : Nat) (apid ctid : List UInt8)
    (logLevel payloadMin payloadMax : Int) : MctFilter :=
  { f with
    apid := f.apid.setIfInBounds num (mctSetId apid)
    ctid := f.ctid.setIfInBounds num (mctSetId ctid)
    logLevel := f.logLevel.setIfInBounds num logLevel
    payloadMin := f.payloadMin.setIfInBounds num payloadMin
    payloadMax := f.payloadMax.setIfInBounds num payloadMax }

def entries (f : MctFilter) : List MctFilterEntry := (List.range f.counter).map f.entryAt

/-- The condition in the loop of `mct_filter_find`. -/
def finds (f : MctFilter) (args : FilterArgs) (num : Nat) : Bool :=
  (f.entryAt num).apid = args.apid.take mctIdSize ∧
    (f.entryAt num).ctid = (match args.ctid with
      | none => [0, 0, 0, 0]
      | some ctid => ctid.take mctIdSize) ∧
    ((f.entryAt num).logLevel = args.logLevel ∨ (f.entryAt num).logLevel = 0) ∧
    (f.entryAt num).payloadMin ≤ args.payloadMin ∧ args.payloadMax ≤ (f.entryAt num).payloadMax

end MctFilter

def mctFilterFind (f : MctFilter) (args : FilterArgs) : Int :=
  match (List.range f.counter).find? (f.finds args) with
  | some num => num
  | none => -1

def mctFilterAdd (f : MctFilter) (args : FilterArgs) : MctReturnValue × MctFilter :=
  if hmax : f.counter ≥ mctFilterMax then (.error, f)
  else if mctFilterFind f args < 0 then
    (.ok, { f.store f.counter args.apid (args.ctid.getD []) args.logLevel args.payloadMin
        args.payloadMax with
      counter := f.counter + 1
      counter_le := by omega })
  else (.error, f)

namespace MctFilter

/-- The condition in the loop of `mct_filter_delete`. -/
def deletes (f : MctFilter) (args : FilterArgs) (ctid : List UInt8) (j : Nat) : Bool :=
  (f.entryAt j).apid = args.apid.take mctIdSize ∧ (f.entryAt j).ctid = ctid.take mctIdSize ∧
    ((f.entryAt j).logLevel = args.logLevel ∨ (f.entryAt j).logLevel = 0) ∧
    (f.entryAt j).payloadMin = args.payloadMin ∧ (f.entryAt j).payloadMax = args.payloadMax

/-- The assignments to entry `k` from the entry behind it. -/
def copyNext (f : MctFilter) (k : Nat) : MctFilter :=
  f.store k (f.entryAt (k + 1)).apid (f.entryAt (k + 1)).ctid (f.entryAt (k + 1)).logLevel
    (f.entryAt (k + 1)).payloadMin (f.entryAt (k + 1)).payloadMax

/-- The loop that copies `count` entries down, from entry `j` on. -/
def shiftDown (f : MctFilter) (j count : Nat) : MctFilter :=
  (List.range' j count).foldl copyNext f

end MctFilter

def mctFilterDelete (f : MctFilter) (args : FilterArgs) : MctReturnValue × MctFilter :=
  match args.ctid with
  | none => (.wrongParameter, f)
  | some ctid =>
      match (List.range f.counter).find? (f.deletes args ctid) with
      | none => (.error, f)
      | some j =>
          (.ok, { (f.store j [] [] 0 0 int32Max).shiftDown j (f.counter - 1 - j) with
            counter := f.counter - 1
            counter_le := (Nat.sub_le _ _).trans f.counter_le })

end Model

namespace MctFilter

section Entries

variable (f : MctFilter)

theorem entries_length : f.entries.length = f.counter := by
  rw [entries, List.length_map, List.length_range]

theorem getElem?_entries {num : Nat} (hnum : num < f.counter) :
    f.entries[num]? = some (f.entryAt num) := by
  simp [entries, hnum]

theorem entryAt_store {num : Nat} (hnum : num < mctFilterMax) (apid ctid : List UInt8)
    (logLevel payloadMin payloadMax : Int) (i : Nat) :
    (f.store num apid ctid logLevel payloadMin payloadMax).entryAt i =
      if i = num then
        ⟨(mctSetId apid).bytes, (mctSetId ctid).bytes, logLevel, payloadMin, payloadMax⟩
      else f.entryAt i := by
  by_cases hi : i = num
  · subst hi
    simp [entryAt, store, hnum]
  · simp [entryAt, store, hi, Ne.symm hi]

theorem entryAt_copyNext {k : Nat} (hk : k < mctFilterMax) (i : Nat) :
    (f.copyNext k).entryAt i = if i = k then f.entryAt (k + 1) else f.entryAt i := by
  rw [copyNext, entryAt_store f hk]
  simp [entryAt]

/-- The loop moves the entries behind `j` down by one, up to its last step. -/
theorem entryAt_shiftDown {j count : Nat} (hcount : j + count ≤ mctFilterMax) (i : Nat) :
    (f.shiftDown j count).entryAt i =
      if j ≤ i ∧ i < j + count then f.entryAt (i + 1) else f.entryAt i := by
  induction count generalizing j f with
  | zero =>
      rw [if_neg (by omega)]
      rfl
  | succ count ih =>
      have hstep : f.shiftDown j (count + 1) = (f.copyNext j).shiftDown (j + 1) count := rfl
      rw [hstep, ih (f.copyNext j) (by omega), entryAt_copyNext f (by omega),
        entryAt_copyNext f (by omega)]
      by_cases hfirst : i = j
      · subst hfirst
        simp
      · by_cases hmoved : j + 1 ≤ i ∧ i < j + 1 + count
        · rw [if_pos hmoved, if_neg (by omega), if_pos (by omega)]
        · rw [if_neg hmoved, if_neg hfirst, if_neg (by omega)]

theorem entries_shiftDown {j : Nat} (hj : j < f.counter) :
    (List.range (f.counter - 1)).map
        ((f.store j [] [] 0 0 int32Max).shiftDown j (f.counter - 1 - j)).entryAt =
      f.entries.eraseIdx j := by
  have hmax := f.counter_le
  apply List.ext_getElem?
  intro i
  by_cases hi : i < f.counter - 1
  · rw [List.getElem?_map, List.getElem?_range hi, Option.map_some,
      entryAt_shiftDown _ (by omega), entryAt_store f (by omega), entryAt_store f (by omega),
      List.getElem?_eraseIdx]
    by_cases hbefore : i < j
    · rw [if_neg (by omega), if_neg hbefore.ne, if_pos hbefore, getElem?_entries f (by omega)]
    · rw [if_pos (by omega), if_neg (by omega), if_neg hbefore, getElem?_entries f (by omega)]
  · rw [List.getElem?_eq_none, List.getElem?_eq_none]
    · rw [List.length_eraseIdx_of_lt (by rwa [entries_length]), entries_length]
      omega
    · rw [List.length_map, List.length_range]
      omega

end Entries

end MctFilter

/-- The entry that `mct_filter_add` appends. -/
def FilterArgs.entry (args : FilterArgs) : MctFilterEntry :=
  ⟨(mctSetId args.apid).bytes, (mctSetId (args.ctid.getD [])).bytes, args.logLevel,
    args.payloadMin, args.payloadMax⟩

section Operations

variable {f : MctFilter} {args : FilterArgs}

theorem mctFilterFind_nonneg_iff : 0 ≤ mctFilterFind f args ↔
    ∃ num < f.counter, f.finds args num := by
  unfold mctFilterFind
  split
  · next num hfind =>
      have hmem := List.mem_range.mp (List.mem_of_find?_eq_some hfind)
      exact iff_of_true (Int.natCast_nonneg num) ⟨num, hmem, List.find?_some hfind⟩
  · next hnone =>
      refine iff_of_false (by decide) ?_
      rintro ⟨num, hnum, hfinds⟩
      exact List.find?_eq_none.mp hnone num (List.mem_range.mpr hnum) hfinds

/-- A filter that is added stands behind the others. -/
theorem entries_mctFilterAdd (h : (mctFilterAdd f args).1 = .ok) :
    f.counter < mctFilterMax ∧ mctFilterFind f args < 0 ∧
      (mctFilterAdd f args).2.entries = f.entries ++ [args.entry] := by
  unfold mctFilterAdd at h ⊢
  by_cases hmax : f.counter ≥ mctFilterMax
  · rw [dif_pos hmax] at h
    cases h
  rw [dif_neg hmax] at h ⊢
  by_cases hfind : mctFilterFind f args < 0
  · rw [if_pos hfind] at h ⊢
    refine ⟨by omega, hfind, ?_⟩
    have hentry : ∀ i, (f.store f.counter args.apid (args.ctid.getD []) args.logLevel
        args.payloadMin args.payloadMax).entryAt i = if i = f.counter then args.entry else
          f.entryAt i := f.entryAt_store (by omega) _ _ _ _ _
    rw [MctFilter.entries, List.range_succ, List.map_append, MctFilter.entries]
    congr 1
    · refine List.map_congr_left fun i hi => ?_
      exact (hentry i).trans (if_neg (List.mem_range.mp hi).ne)
    · exact congrArg (fun e => [e]) ((hentry f.counter).trans (if_pos rfl))
  · rw [if_neg hfind] at h
    cases h

/-- What `mct_filter_delete` removes, and what it leaves. -/
theorem mctFilterDelete_cases (f : MctFilter) (args : FilterArgs) :
    ((mctFilterDelete f args).1 = .ok ∧ ∃ ctid j, args.ctid = some ctid ∧ j < f.counter ∧
      f.deletes args ctid j ∧ (∀ i < j, ¬ f.deletes args ctid i) ∧
      (mctFilterDelete f args).2.entries = f.entries.eraseIdx j) ∨
    ((mctFilterDelete f args).1 ≠ .ok ∧ (mctFilterDelete f args).2 = f ∧
      ∀ ctid, args.ctid = some ctid → ∀ j < f.counter, ¬ f.deletes args ctid j) := by
  unfold mctFilterDelete
  split
  · next hctid =>
      refine .inr ⟨nofun, rfl, ?_⟩
      rintro ctid hsome
      rw [hctid] at hsome
      cases hsome
  · next ctid hctid =>
      split
      · next hnone =>
          refine .inr ⟨nofun, rfl, ?_⟩
          rintro ctid' hsome j hj
          rw [hctid, Option.some.injEq] at hsome
          subst hsome
          exact List.find?_eq_none.mp hnone j (List.mem_range.mpr hj)
      · next j hfind =>
          have hj := List.mem_range.mp (List.mem_of_find?_eq_some hfind)
          refine .inl ⟨rfl, ctid, j, hctid, hj, List.find?_some hfind, ?_, ?_⟩
          · rw [List.find?_range_eq_some] at hfind
            intro i hi
            simpa using hfind.2.2 i hi
          · exact f.entries_shiftDown hj

/-- `mct_filter_find` accepts what `mct_filter_delete` would remove. -/
theorem finds_of_deletes {ctid : List UInt8} (hctid : args.ctid = some ctid) {num : Nat}
    (h : f.deletes args ctid num) : f.finds args num := by
  simp only [MctFilter.deletes, decide_eq_true_eq] at h
  obtain ⟨hapid, hctid', hlevel, hmin, hmax⟩ := h
  simp only [MctFilter.finds, hctid, decide_eq_true_eq]
  exact ⟨hapid, hctid', hlevel, hmin.le, hmax.ge⟩

end Operations

section AddDelete

variable {f g : MctFilter} {args : FilterArgs}

/-- The entries of a list that another extends. -/
theorem entryAt_of_append {tail : List MctFilterEntry} (h : g.entries = f.entries ++ tail)
    {num : Nat} (hnum : num < f.counter) : g.entryAt num = f.entryAt num := by
  have hlength := congrArg List.length h
  rw [List.length_append, MctFilter.entries_length, MctFilter.entries_length] at hlength
  have hentry := g.getElem?_entries (by omega : num < g.counter)
  rw [h, List.getElem?_append_left (by rwa [MctFilter.entries_length]),
    f.getElem?_entries hnum] at hentry
  exact (Option.some.inj hentry).symm

/-- The entry that was just added is the first that the same arguments delete. -/
theorem deletes_added_iff {apid ctid : FilterId} {logLevel payloadMin payloadMax : Int}
    (hargs : args = ⟨apid.bytes, some ctid.bytes, logLevel, payloadMin, payloadMax⟩)
    (hadd : (mctFilterAdd f args).1 = .ok) {j : Nat} (hj : j ≤ f.counter) :
    (mctFilterAdd f args).2.deletes args ctid.bytes j ↔ j = f.counter := by
  obtain ⟨_, hfind, hentries⟩ := entries_mctFilterAdd hadd
  constructor
  · intro hdeletes
    by_contra hne
    have hbefore : j < f.counter := lt_of_le_of_ne hj hne
    have hold : f.deletes args ctid.bytes j := by
      rw [MctFilter.deletes, entryAt_of_append hentries hbefore] at hdeletes
      exact hdeletes
    have hfinds := finds_of_deletes (by rw [hargs]) hold
    have hnonneg := mctFilterFind_nonneg_iff.mpr ⟨j, hbefore, hfinds⟩
    omega
  · rintro rfl
    have hcounter := congrArg List.length hentries
    rw [List.length_append, MctFilter.entries_length, MctFilter.entries_length,
      List.length_singleton] at hcounter
    have hentry := (mctFilterAdd f args).2.getElem?_entries
      (by omega : f.counter < (mctFilterAdd f args).2.counter)
    rw [hentries, ← f.entries_length, List.getElem?_concat_length, Option.some.injEq] at hentry
    rw [← f.entries_length, MctFilter.deletes, ← hentry, hargs]
    simp [FilterArgs.entry]

/-- An entry that `mct_filter_find` takes for another one: the ids are the same, and the level
and the bounds are no narrower. -/
def MctFilterEntry.Finds (entry other : MctFilterEntry) : Prop :=
  (entry.apid = other.apid ∧ entry.ctid = other.ctid) ∧
    (entry.logLevel = other.logLevel ∨ entry.logLevel = 0) ∧
      entry.payloadMin ≤ other.payloadMin ∧ other.payloadMax ≤ entry.payloadMax

/-- An entry that `mct_filter_delete` takes for another one. -/
def MctFilterEntry.Deletes (entry other : MctFilterEntry) : Prop :=
  (entry.apid = other.apid ∧ entry.ctid = other.ctid) ∧
    (entry.logLevel = other.logLevel ∨ entry.logLevel = 0) ∧
      entry.payloadMin = other.payloadMin ∧ entry.payloadMax = other.payloadMax

theorem finds_iff {args : FilterArgs} {apid ctid : FilterId} (hapid : args.apid = apid.bytes)
    (hctid : args.ctid = some ctid.bytes) (num : Nat) :
    f.finds args num ↔ (f.entryAt num).Finds args.entry := by
  simp only [MctFilter.finds, MctFilterEntry.Finds, FilterArgs.entry, hapid, hctid,
    FilterId.take_bytes, mctSetId_bytes, Option.getD_some, decide_eq_true_eq, and_assoc]

/-- What `mct_filter_delete` compares the entries with. -/
def FilterArgs.wanted (args : FilterArgs) : MctFilterEntry :=
  ⟨args.apid.take mctIdSize, (args.ctid.getD []).take mctIdSize, args.logLevel, args.payloadMin,
    args.payloadMax⟩

theorem deletes_iff {args : FilterArgs} {ctid : List UInt8} (hctid : args.ctid = some ctid)
    (num : Nat) : f.deletes args ctid num ↔ (f.entryAt num).Deletes args.wanted := by
  simp only [MctFilter.deletes, MctFilterEntry.Deletes, FilterArgs.wanted, hctid,
    Option.getD_some, decide_eq_true_eq, and_assoc]

theorem mem_entries {entry : MctFilterEntry} :
    entry ∈ f.entries ↔ ∃ num < f.counter, f.entryAt num = entry := by
  simp [MctFilter.entries]

/-- A filter is added exactly if there is room and no entry is found for it. -/
theorem mctFilterAdd_ok_iff {args : FilterArgs} {apid ctid : FilterId}
    (hapid : args.apid = apid.bytes) (hctid : args.ctid = some ctid.bytes) :
    (mctFilterAdd f args).1 = .ok ↔
      f.counter < mctFilterMax ∧ ∀ entry ∈ f.entries, ¬ entry.Finds args.entry := by
  have hfind : mctFilterFind f args < 0 ↔ ∀ entry ∈ f.entries, ¬ entry.Finds args.entry := by
    rw [← not_le, mctFilterFind_nonneg_iff, not_exists]
    constructor
    · intro hnone entry hmem
      obtain ⟨num, hnum, rfl⟩ := mem_entries.mp hmem
      exact fun hfinds => hnone num ⟨hnum, (finds_iff hapid hctid num).mpr hfinds⟩
    · rintro hnone num ⟨hnum, hfinds⟩
      exact hnone _ (mem_entries.mpr ⟨num, hnum, rfl⟩) ((finds_iff hapid hctid num).mp hfinds)
  constructor
  · intro hadd
    obtain ⟨hroom, hnone, _⟩ := entries_mctFilterAdd hadd
    exact ⟨hroom, hfind.mp hnone⟩
  · rintro ⟨hroom, hnone⟩
    rw [mctFilterAdd, dif_neg (by omega), if_pos (hfind.mpr hnone)]

theorem mctFilterAdd_refused (h : (mctFilterAdd f args).1 ≠ .ok) : (mctFilterAdd f args).2 = f := by
  unfold mctFilterAdd at h ⊢
  split
  · rfl
  · next hroom =>
      rw [dif_neg hroom] at h
      split
      · next hnone =>
          rw [if_pos hnone] at h
          exact absurd rfl h
      · rfl

/-- A filter that is deleted is the first of the entries that fit, and the others stay in
order. -/
theorem mctFilterDelete_ok (h : (mctFilterDelete f args).1 = .ok) : args.ctid ≠ none ∧
    ∃ front other back, f.entries = front ++ other :: back ∧ other.Deletes args.wanted ∧
      (∀ earlier ∈ front, ¬ earlier.Deletes args.wanted) ∧
        (mctFilterDelete f args).2.entries = front ++ back := by
  rcases mctFilterDelete_cases f args with ⟨_, ctid, j, hctid, hj, hfirst, hbefore, hleft⟩ |
    ⟨hfail, _⟩
  · have hlength : j < f.entries.length := by rwa [f.entries_length]
    have hat : f.entries[j] = f.entryAt j := by simp [MctFilter.entries]
    refine ⟨by rw [hctid]; exact Option.some_ne_none ctid,
      f.entries.take j, f.entries[j], f.entries.drop (j + 1), ?_, ?_, ?_, ?_⟩
    · rw [← List.drop_eq_getElem_cons hlength, List.take_append_drop]
    · rw [hat]
      exact (deletes_iff hctid j).mp hfirst
    · intro earlier hmem
      obtain ⟨i, hi, rfl⟩ := List.mem_take_iff_getElem.mp hmem
      have hij : i < j := by omega
      have hati : f.entries[i] = f.entryAt i := by simp [MctFilter.entries]
      rw [hati]
      exact fun hother => hbefore i hij ((deletes_iff hctid i).mpr hother)
    · rw [hleft, List.eraseIdx_eq_take_drop_succ]
  · exact absurd h hfail

theorem mctFilterDelete_refused (h : (mctFilterDelete f args).1 ≠ .ok) :
    (mctFilterDelete f args).2 = f ∧
      (args.ctid ≠ none → ∀ entry ∈ f.entries, ¬ entry.Deletes args.wanted) := by
  rcases mctFilterDelete_cases f args with ⟨hok, _⟩ | ⟨_, hsame, hnone⟩
  · exact absurd hok h
  · refine ⟨hsame, ?_⟩
    intro hctid entry hmem
    obtain ⟨ctid, hsome⟩ := Option.ne_none_iff_exists'.mp hctid
    obtain ⟨num, hnum, rfl⟩ := mem_entries.mp hmem
    exact fun hother => hnone ctid hsome num hnum ((deletes_iff hsome num).mpr hother)

/-- Deleting what was just added leaves the list as it was before. -/
theorem delete_added {apid ctid : FilterId} {logLevel payloadMin payloadMax : Int}
    (hargs : args = ⟨apid.bytes, some ctid.bytes, logLevel, payloadMin, payloadMax⟩)
    (hadd : (mctFilterAdd f args).1 = .ok) :
    (mctFilterDelete (mctFilterAdd f args).2 args).1 = .ok ∧
      (mctFilterDelete (mctFilterAdd f args).2 args).2.entries = f.entries := by
  obtain ⟨_, _, hentries⟩ := entries_mctFilterAdd hadd
  have hcounter := congrArg List.length hentries
  rw [List.length_append, MctFilter.entries_length, MctFilter.entries_length,
    List.length_singleton] at hcounter
  have hctid : args.ctid = some ctid.bytes := by rw [hargs]
  rcases mctFilterDelete_cases (mctFilterAdd f args).2 args with
    ⟨hok, ctid', j, hctid', hj, hlast, _, hleft⟩ | ⟨_, _, hnone⟩
  · obtain rfl := Option.some.inj (hctid.symm.trans hctid')
    have hjlast := (deletes_added_iff hargs hadd (by omega)).mp hlast
    refine ⟨hok, ?_⟩
    rw [hleft, hentries, hjlast, ← f.entries_length, List.eraseIdx_append_of_length_le le_rfl,
      Nat.sub_self]
    exact List.append_nil _
  · exact absurd ((deletes_added_iff hargs hadd le_rfl).mpr rfl)
      (hnone ctid.bytes hctid f.counter (by omega))

/-- A filter is added behind the others if there is room and no entry is found for it, and
deleting it then restores the list. Any list that something is deleted from loses the first of
the entries that fit and keeps the others in order; otherwise it does not change. -/
theorem filter_add_delete (f : MctFilter) :
    (∀ (apid ctid : FilterId) (logLevel payloadMin payloadMax : Int),
      let args : FilterArgs := ⟨apid.bytes, some ctid.bytes, logLevel, payloadMin, payloadMax⟩
      let entry : MctFilterEntry := ⟨apid.bytes, ctid.bytes, logLevel, payloadMin, payloadMax⟩
      ((mctFilterAdd f args).1 = .ok ↔
          f.counter < mctFilterMax ∧ ∀ other ∈ f.entries, ¬ other.Finds entry) ∧
        ((mctFilterAdd f args).1 = .ok →
          (mctFilterAdd f args).2.entries = f.entries ++ [entry] ∧
            (mctFilterDelete (mctFilterAdd f args).2 args).1 = .ok ∧
              (mctFilterDelete (mctFilterAdd f args).2 args).2.entries = f.entries) ∧
        ((mctFilterAdd f args).1 ≠ .ok → (mctFilterAdd f args).2 = f)) ∧
    ∀ args : FilterArgs,
      ((mctFilterDelete f args).1 = .ok ↔
          args.ctid ≠ none ∧ ∃ other ∈ f.entries, other.Deletes args.wanted) ∧
        ((mctFilterDelete f args).1 = .ok → ∃ front other back,
          f.entries = front ++ other :: back ∧ other.Deletes args.wanted ∧
            (∀ earlier ∈ front, ¬ earlier.Deletes args.wanted) ∧
              (mctFilterDelete f args).2.entries = front ++ back) ∧
        ((mctFilterDelete f args).1 ≠ .ok → (mctFilterDelete f args).2 = f) := by
  refine ⟨?_, fun args => ⟨⟨?_, ?_⟩, fun hok => (mctFilterDelete_ok hok).2,
    fun hfail => (mctFilterDelete_refused hfail).1⟩⟩
  · intro apid ctid logLevel payloadMin payloadMax args entry
    have hentry : args.entry = entry := by
      simp only [args, entry, FilterArgs.entry, Option.getD_some, mctSetId_bytes]
    have hadded := @mctFilterAdd_ok_iff f args apid ctid rfl rfl
    rw [hentry] at hadded
    refine ⟨hadded, fun hadd => ⟨?_, delete_added rfl hadd⟩, mctFilterAdd_refused⟩
    rw [(entries_mctFilterAdd hadd).2.2, hentry]
  · intro hok
    obtain ⟨hctid, front, other, back, hentries, hother, _⟩ := mctFilterDelete_ok hok
    refine ⟨hctid, other, ?_, hother⟩
    rw [hentries]
    exact List.mem_append_right _ List.mem_cons_self
  · rintro ⟨hctid, other, hmem, hother⟩
    by_contra hfail
    exact (mctFilterDelete_refused hfail).2 hctid other hmem hother

/-- A list with one filter for the messages of up to 9 bytes, whatever their level. -/
def shortMessagesFilter : MctFilter :=
  ⟨.replicate _ (mctSetId [65]), .replicate _ (mctSetId [67]), .replicate _ 0, .replicate _ 0,
    .replicate _ 9, 1, by decide⟩

/-- A filter of the same ids for one level is added if it is for longer messages too, and the
same arguments delete it and not the other one. -/
theorem filter_add_delete_longer :
    let args : FilterArgs := ⟨(mctSetId [65]).bytes, some (mctSetId [67]).bytes, 4, 0, 20⟩
    (mctFilterAdd shortMessagesFilter args).1 = .ok ∧
      (mctFilterDelete (mctFilterAdd shortMessagesFilter args).2 args).2.entries =
        shortMessagesFilter.entries := by
  intro args
  have hall := (filter_add_delete shortMessagesFilter).1 (mctSetId [65]) (mctSetId [67]) 4 0 20
  have hadd : (mctFilterAdd shortMessagesFilter args).1 = .ok := by decide
  exact ⟨hadd, (hall.2.1 hadd).2.2⟩

end AddDelete

end MctDaemon.Shared
