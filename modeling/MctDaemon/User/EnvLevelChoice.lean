import MctDaemon.Lib.Priority
import MctDaemon.User.EnvLogLevels
import Mathlib.Data.List.GetD
import Mathlib.Data.List.TakeWhile

/-!
The level that the environment gives a context. `mct_env_adjust_ll_from_env` looks for the
first entry of the highest priority in the set. The set also has the entry of an item that
could not be read, it may miss items behind a level name, and the context id is compared over
four bytes, whatever stands behind its zero.
-/

namespace MctDaemon.User

open Lib

section Model

def idByte (id : List Char) (i : Nat) : Char := id.getD i '\x00'

def mctEnvIdsMatch (a b : Nat → Char) : Bool := (List.range 4).all fun i => a i = b i

def mctEnvLlItemGetMatchingPrio (item : MctEnvLlItem) (apid ctid : Nat → Char) : Nat :=
  if idByte item.appId 0 = '\x00' then
    if idByte item.ctxId 0 = '\x00' then 1
    else if mctEnvIdsMatch (idByte item.ctxId) ctid then 2
    else 0
  else if mctEnvIdsMatch (idByte item.appId) apid then
    if idByte item.ctxId 0 = '\x00' then 3
    else if mctEnvIdsMatch (idByte item.ctxId) ctid then 4
    else 0
  else 0

/-- The loop of `mct_env_adjust_ll_from_env`. -/
def adjustLoop (apid ctid : Nat → Char) : List MctEnvLlItem → Int → Nat → Int
  | [], res, _ => res
  | item :: items, res, prio =>
      let p := mctEnvLlItemGetMatchingPrio item apid ctid
      if p > prio then
        if p = 4 then item.ll else adjustLoop apid ctid items item.ll p
      else adjustLoop apid ctid items res prio

def mctEnvAdjustLlFromEnv (set : MctEnvLlSet) (apid ctid : Nat → Char) (ll : Int) : Int :=
  adjustLoop apid ctid set.entries ll 0

/-- The memory of a context id: its characters, the zero, and what is behind it. -/
def ctidMemory (ctid : List Char) (behind : Nat → Char) (i : Nat) : Char :=
  if i < ctid.length then idByte ctid i
  else if i = ctid.length then '\x00'
  else behind (i - ctid.length - 1)

end Model

section Purpose

/-- The priority of an item for an application and a context. -/
def matchingPriority (apid : Nat → Char) (ctid : List Char) (item : MctEnvLlItem) : Nat :=
  if item.appId = [] then
    if item.ctxId = [] then 1 else if item.ctxId = ctid then 2 else 0
  else if mctEnvIdsMatch (idByte item.appId) apid then
    if item.ctxId = [] then 3 else if item.ctxId = ctid then 4 else 0
  else 0

/-- The level of an item that has been chosen, or the given one. -/
def levelOf (ll : Int) (item : Option MctEnvLlItem) : Int := (item.map MctEnvLlItem.ll).getD ll

/-- The level of the first well-formed item of the highest matching priority is returned. -/
def AdjustsLevel (uninit : MctEnvLlItem) (s : List Char) (apid : Nat → Char) (ctid : List Char)
    (behind : Nat → Char) (ll : Int) : Prop :=
  ∃ ok set, mctEnvExtractLlSet uninit s = some (ok, set) ∧
    mctEnvAdjustLlFromEnv set apid (ctidMemory ctid behind) ll =
      levelOf ll (firstHighest (matchingPriority apid ctid) (wellFormed s))

/-- What the first characters of a text say that is no level. -/
def brokenLevel (l : List Char) : Int :=
  if ['-', '1'] <+: l then -1
  else
    match l with
    | [] => 0
    | c :: _ => if '0' ≤ c ∧ c ≤ '6' then c.toNat - 48 else 0

/-- The entry that a string is taken for, and the string that is read behind it. Nothing is read
behind what is no item, nor behind a level name that more than a second `;` follows. -/
def takenItem (s : List Char) : MctEnvLlItem × List Char :=
  match cutId s with
  | none => (⟨(s.takeWhile fun c => c ≠ ':').take 4, [], 0⟩, [])
  | some (appId, s) =>
      match cutId s with
      | none => (⟨appId, (s.takeWhile fun c => c ≠ ':').take 4, 0⟩, [])
      | some (ctxId, s) =>
          let l := s.takeWhile fun c => c ≠ ';'
          let rest := (s.dropWhile fun c => c ≠ ';').tail
          match tolerantNumber l with
          | some ll => (⟨appId, ctxId, ll⟩, rest)
          | none =>
              match levelName l with
              | some ll => (⟨appId, ctxId, ll⟩, if rest.head? = some ';' then rest.tail else [])
              | none => (⟨appId, ctxId, brokenLevel l⟩, [])

/-- The entries that a string is taken for, in at most so many steps. -/
def takenFrom : Nat → List Char → List MctEnvLlItem
  | 0, _ => []
  | fuel + 1, s =>
      (takenItem s).1 :: if (takenItem s).2 = [] then [] else takenFrom fuel (takenItem s).2

/-- The entries that a string is taken for. -/
def taken (s : List Char) : List MctEnvLlItem := takenFrom (s.length + 1) s

/-- Only zeros stand behind the context id up to the length of an id. -/
def ZerosBehind (ctid : List Char) (behind : Nat → Char) : Prop :=
  ∀ i < 4, ctid.length < i → ctidMemory ctid behind i = '\x00'

instance (ctid : List Char) (behind : Nat → Char) : Decidable (ZerosBehind ctid behind) :=
  inferInstanceAs (Decidable (∀ i < 4, ctid.length < i → ctidMemory ctid behind i = '\x00'))

/-- Whether an entry can be compared with the context id. -/
def comparable (ctid : List Char) (behind : Nat → Char) (item : MctEnvLlItem) : Bool :=
  ZerosBehind ctid behind ∨ item.ctxId = []

end Purpose

section Priorities

variable {item : MctEnvLlItem} {apid : Nat → Char} {ctid : List Char} {behind : Nat → Char}

theorem idByte_zero_iff {id : List Char} (hnul : '\x00' ∉ id) :
    idByte id 0 = '\x00' ↔ id = [] := by
  cases id with
  | nil => exact iff_of_true rfl rfl
  | cons c id =>
      refine iff_of_false ?_ (List.cons_ne_nil c id)
      rintro rfl
      exact hnul List.mem_cons_self

theorem idByte_ne_zero {id : List Char} (hnul : '\x00' ∉ id) {i : Nat} :
    idByte id i ≠ '\x00' ↔ i < id.length := by
  constructor
  · intro hne
    by_contra hout
    exact hne (List.getD_eq_default _ _ (not_lt.mp hout))
  · intro hi hzero
    rw [idByte, List.getD_eq_getElem _ _ hi] at hzero
    exact hnul (hzero ▸ List.getElem_mem hi)

/-- A context id is compared as a string just if zeros follow it. -/
theorem idsMatch_ctidMemory {id : List Char} (hid : id.length ≤ 4) (hnul : '\x00' ∉ id)
    (hctid : ctid.length ≤ 4) (hctidNul : '\x00' ∉ ctid) :
    mctEnvIdsMatch (idByte id) (ctidMemory ctid behind) ↔ id = ctid ∧ ZerosBehind ctid behind := by
  unfold mctEnvIdsMatch
  simp only [List.all_eq_true, List.mem_range, decide_eq_true_eq]
  constructor
  · intro hsame
    have hinside : ∀ i < ctid.length, idByte id i = idByte ctid i := by
      intro i hi
      rw [hsame i (by omega), ctidMemory, if_pos hi]
    have hle : ctid.length ≤ id.length := by
      by_contra hless
      have hlast := hinside id.length (by omega)
      exact (idByte_ne_zero hctidNul).mpr (by omega : id.length < ctid.length)
        (hlast.symm.trans (not_not.mp fun hne => lt_irrefl _ ((idByte_ne_zero hnul).mp hne)))
    have hge : id.length ≤ ctid.length := by
      by_contra hless
      have hzero := hsame ctid.length (by omega)
      rw [ctidMemory, if_neg (lt_irrefl _), if_pos rfl] at hzero
      exact (idByte_ne_zero hnul).mpr (by omega : ctid.length < id.length) hzero
    have heq : id = ctid := by
      apply List.ext_getElem (by omega)
      intro i hi hi'
      have hbyte := hinside i hi'
      rw [idByte, idByte, List.getD_eq_getElem _ _ hi, List.getD_eq_getElem _ _ hi'] at hbyte
      exact hbyte
    refine ⟨heq, ?_⟩
    intro i hi hbehind
    rw [← hsame i hi, idByte, List.getD_eq_default _ _ (by omega)]
  · rintro ⟨rfl, hzeros⟩ i hi
    rcases lt_trichotomy i id.length with hless | rfl | hbehind
    · rw [ctidMemory, if_pos hless]
    · rw [ctidMemory, if_neg (lt_irrefl _), if_pos rfl, idByte,
        List.getD_eq_default _ _ (le_refl _)]
    · rw [hzeros i hi hbehind, idByte, List.getD_eq_default _ _ hbehind.le]

/-- The ids of an entry: up to four characters, and no zero among them. -/
structure MctEnvLlItem.IdsFit (item : MctEnvLlItem) : Prop where
  appId_nul : '\x00' ∉ item.appId
  ctxId_nul : '\x00' ∉ item.ctxId
  ctxId_short : item.ctxId.length ≤ 4

/-- The code gives the priority of an item to the entries it can compare. -/
theorem getMatchingPrio_eq (hitem : item.IdsFit) (hctid : ctid.length ≤ 4)
    (hctidNul : '\x00' ∉ ctid) :
    mctEnvLlItemGetMatchingPrio item apid (ctidMemory ctid behind) =
      if comparable ctid behind item then matchingPriority apid ctid item else 0 := by
  have hctx := @idsMatch_ctidMemory ctid behind _ hitem.ctxId_short hitem.ctxId_nul hctid hctidNul
  unfold mctEnvLlItemGetMatchingPrio matchingPriority comparable
  simp only [idByte_zero_iff hitem.appId_nul, idByte_zero_iff hitem.ctxId_nul, hctx,
    decide_eq_true_eq]
  by_cases hempty : item.ctxId = []
  · simp only [hempty, or_true, if_true]
  · simp only [hempty, or_false, if_false]
    by_cases hzeros : ZerosBehind ctid behind
    · simp only [hzeros, and_true, if_true]
    · simp only [hzeros, and_false, if_false, ite_self]

end Priorities

section Loop

variable {apid ctid : Nat → Char} {ll : Int}

theorem getMatchingPrio_le (item : MctEnvLlItem) :
    mctEnvLlItemGetMatchingPrio item apid ctid ≤ 4 := by
  unfold mctEnvLlItemGetMatchingPrio
  split_ifs <;> omega

/-- The loop chooses the first entry of the highest priority. -/
theorem adjustLoop_spec (seen items : List MctEnvLlItem) :
    adjustLoop apid ctid items
        (levelOf ll (firstHighest (mctEnvLlItemGetMatchingPrio · apid ctid) seen))
        (highest (mctEnvLlItemGetMatchingPrio · apid ctid) seen) =
      levelOf ll (firstHighest (mctEnvLlItemGetMatchingPrio · apid ctid) (seen ++ items)) := by
  induction items generalizing seen with
  | nil => rw [List.append_nil, adjustLoop]
  | cons item items ih =>
      have hchosen := @firstHighest_concat _ (mctEnvLlItemGetMatchingPrio · apid ctid) seen item
      have hhighest := @highest_concat _ (mctEnvLlItemGetMatchingPrio · apid ctid) seen item
      have hrest := ih (seen ++ [item])
      rw [List.append_cons, adjustLoop]
      by_cases hmore : highest (mctEnvLlItemGetMatchingPrio · apid ctid) seen <
          mctEnvLlItemGetMatchingPrio item apid ctid
      · rw [if_pos hmore] at hchosen
        rw [max_eq_right hmore.le] at hhighest
        rw [if_pos hmore]
        split
        · next hfour =>
            -- no entry behind can outrank this one
            have hle : highest (mctEnvLlItemGetMatchingPrio · apid ctid) items ≤ 4 :=
              highest_le getMatchingPrio_le items
            rw [firstHighest_append, if_neg (by omega), hchosen]
            rfl
        · rw [hchosen, hhighest] at hrest
          exact hrest
      · rw [if_neg hmore] at hchosen
        rw [max_eq_left (not_lt.mp hmore)] at hhighest
        rw [if_neg hmore]
        rw [hchosen, hhighest] at hrest
        exact hrest

end Loop

section Sets

variable {s : List Char} {ok : Bool} {items : List MctEnvLlItem}

/-- Every entry is made of characters of the string. -/
theorem extractLlItem_idsFit (hnul : '\x00' ∉ s) : (mctEnvExtractLlItem s).2.1.IdsFit := by
  obtain ⟨hs, -, -⟩ := idLoop_reads 4 s
  have happId : '\x00' ∉ (idLoop 4 s).1 := fun hmem => hnul (hs ▸ List.mem_append_left _ hmem)
  have htail : '\x00' ∉ (idLoop 4 s).2.tail :=
    fun hmem => hnul (hs ▸ List.mem_append_right _ (List.mem_of_mem_tail hmem))
  obtain ⟨hs', hshort, -⟩ := idLoop_reads 4 (idLoop 4 s).2.tail
  have hctxId : '\x00' ∉ (idLoop 4 (idLoop 4 s).2.tail).1 :=
    fun hmem => htail (hs' ▸ List.mem_append_left _ hmem)
  simp only [mctEnvExtractLlItem, mctEnvExtractId]
  by_cases hfirst : peek (idLoop 4 s).2 = ':'
  · by_cases hsecond : peek (idLoop 4 (idLoop 4 s).2.tail).2 = ':'
    · simp only [hfirst, hsecond, decide_true, Bool.not_true, Bool.false_eq_true, if_false]
      exact ⟨happId, hctxId, hshort⟩
    · simp only [hfirst, hsecond, decide_true, decide_false, Bool.not_true, Bool.not_false,
        Bool.false_eq_true, if_false, if_true]
      exact ⟨happId, hctxId, hshort⟩
  · simp only [hfirst, decide_false, Bool.not_false, if_true]
    exact ⟨happId, List.not_mem_nil, Nat.zero_le _⟩

theorem SetRun.idsFit (hrun : SetRun s ok items) (hnul : '\x00' ∉ s) :
    ∀ item ∈ items, item.IdsFit := by
  induction hrun with
  | @failed s env item h =>
      intro other hmem
      rw [List.mem_singleton.mp hmem]
      have hfit := extractLlItem_idsFit hnul
      rw [h] at hfit
      exact hfit
  | @done s env item h hend =>
      intro other hmem
      rw [List.mem_singleton.mp hmem]
      have hfit := extractLlItem_idsFit hnul
      rw [h] at hfit
      exact hfit
  | @more s env item ok items h hmore hrest ih =>
      intro other hmem
      rcases List.mem_cons.mp hmem with rfl | hmem
      · have hfit := extractLlItem_idsFit hnul
        rw [h] at hfit
        exact hfit
      · exact ih (extractLlItem_rest hnul h).2 other hmem

end Sets

section Taken

variable {s l r t : List Char} {ok : Bool} {items : List MctEnvLlItem} {ll : Int}

theorem idLoop_fst (n : Nat) (hnul : '\x00' ∉ s) :
    (idLoop n s).1 = (s.takeWhile fun c => c ≠ ':').take n := by
  induction n generalizing s with
  | zero => rfl
  | succ n ih =>
      cases s with
      | nil => rfl
      | cons c s =>
          rw [List.mem_cons, not_or] at hnul
          rw [idLoop, peek_cons]
          by_cases hc : c = ':'
          · rw [if_neg fun h => h.1 hc, List.takeWhile_cons_of_neg (by simpa using hc)]
            rfl
          · rw [if_pos ⟨hc, Ne.symm hnul.1⟩, List.takeWhile_cons_of_pos (by simpa using hc),
              List.take_succ_cons, List.tail_cons, ih hnul.2]

theorem cutId_eq_some {id rest : List Char} (h : cutId s = some (id, rest)) :
    s = id ++ ':' :: rest ∧ id.length ≤ 4 ∧ ':' ∉ id := by
  unfold cutId at h
  have hsplit := List.takeWhile_append_dropWhile (p := fun c => decide (c ≠ ':')) (l := s)
  split at h
  · cases h
  · next c behind hdrop =>
      dsimp only at h
      split at h
      · next hshort =>
          obtain ⟨rfl, rfl⟩ := Prod.mk.inj (Option.some.inj h)
          have hc : c = ':' := by
            have hhead := List.head?_dropWhile_not (fun c => decide (c ≠ ':')) s
            rw [hdrop] at hhead
            simpa using hhead
          refine ⟨?_, hshort, fun hmem => absurd (List.mem_takeWhile_imp hmem) (by decide)⟩
          rw [hdrop, hc] at hsplit
          exact hsplit.symm
      · cases h

/-- An id is found by `mct_env_extract_id` where it is, or the first characters are taken. -/
theorem extractId_eq (hnul : '\x00' ∉ s) :
    (∀ id rest, cutId s = some (id, rest) → mctEnvExtractId s = (true, id, ':' :: rest)) ∧
      (cutId s = none →
        ∃ env, mctEnvExtractId s = (false, (s.takeWhile fun c => c ≠ ':').take 4, env)) := by
  constructor
  · intro id rest hcut
    obtain ⟨rfl, hshort, hfree⟩ := cutId_eq_some hcut
    exact extractId_id hshort hfree fun hmem => hnul (List.mem_append_left _ hmem)
  · intro hcut
    rcases hid : mctEnvExtractId s with ⟨ok, id, env⟩
    cases ok with
    | true =>
        obtain ⟨hs, hshort, hfree⟩ := extractId_reads hid
        rw [hs, cutId_id hshort hfree] at hcut
        cases hcut
    | false =>
        have hread : (idLoop 4 s).1 = id := congrArg (·.2.1) hid
        exact ⟨env, by rw [← idLoop_fst 4 hnul, hread]⟩

/-- A level ends at the first `;`. -/
theorem level_cut (hfree : ';' ∉ l) (hend : atEnd r) (hnul : '\x00' ∉ r) :
    (l ++ r).takeWhile (fun c => c ≠ ';') = l ∧ (l ++ r).dropWhile (fun c => c ≠ ';') = r := by
  have hall : ∀ c ∈ l, decide (c ≠ ';') = true := by
    intro c hc
    rw [decide_eq_true_eq]
    rintro rfl
    exact hfree hc
  rw [List.takeWhile_append_of_pos hall, List.dropWhile_append_of_pos hall]
  rcases atEnd_cases hend hnul with rfl | ⟨r, rfl⟩
  · exact ⟨List.append_nil l, rfl⟩
  · rw [List.takeWhile_cons_of_neg (by simp), List.dropWhile_cons_of_neg (by simp)]
    exact ⟨List.append_nil l, rfl⟩

theorem tolerantNumber_free (h : tolerantNumber l = some ll) : ';' ∉ l := by
  rcases tolerantNumber_facts h with ⟨rfl, -⟩ | ⟨rfl, -⟩ | ⟨c, rfl, -, -, -, hc, -⟩
  · decide
  · decide
  · exact fun hmem => hc (List.mem_singleton.mp hmem).symm

/-- A text that is no level is refused, and what its first characters say is kept. -/
theorem extractLl_broken (hnul : '\x00' ∉ t)
    (hnumber : tolerantNumber (t.takeWhile fun c => c ≠ ';') = none)
    (hname : levelName (t.takeWhile fun c => c ≠ ';') = none) :
    ∃ env, mctEnvExtractLl t 0 = (false, brokenLevel (t.takeWhile fun c => c ≠ ';'), env) := by
  have hlevel : (mctEnvExtractLl t 0).2.1 = brokenLevel (t.takeWhile fun c => c ≠ ';') := by
    have hsymbolic : ∀ ll env, mctEnvExtractSymbolicLl t ≠ (some ll, env) := by
      intro ll env hread
      obtain ⟨l, r, rfl, hend, hfound, -⟩ := extractSymbolicLl_reads hnul hread
      rw [(level_cut (levelName_facts hfound).2.1 hend
        fun hmem => hnul (List.mem_append_right l hmem)).1, hfound] at hname
      cases hname
    unfold mctEnvExtractLl brokenLevel
    cases t with
    | nil => rfl
    | cons c t =>
        rw [peek_cons, List.tail_cons]
        by_cases hminus : c = '-'
        · subst hminus
          rw [if_pos rfl, List.takeWhile_cons_of_pos (by decide)]
          by_cases hone : peek t = '1'
          · rw [if_pos hone, eq_cons_of_peek (by decide) hone,
              List.takeWhile_cons_of_pos (by decide), if_pos ⟨_, rfl⟩]
          · rw [if_neg hone, if_neg]
            · rfl
            · rintro ⟨more, hmore⟩
              cases t with
              | nil => cases hmore
              | cons d t =>
                  by_cases hd : d = ';'
                  · rw [hd, List.takeWhile_cons_of_neg (by decide)] at hmore
                    cases hmore
                  · rw [List.takeWhile_cons_of_pos (by simpa using hd)] at hmore
                    exact hone (List.cons.inj (List.cons.inj hmore).2).1.symm
        · have hprefix : ¬ ['-', '1'] <+: (c :: t).takeWhile fun c => c ≠ ';' := by
            rintro ⟨more, hmore⟩
            by_cases hc : c = ';'
            · rw [hc, List.takeWhile_cons_of_neg (by decide)] at hmore
              cases hmore
            · rw [List.takeWhile_cons_of_pos (by simpa using hc)] at hmore
              exact hminus (List.cons.inj hmore).1.symm
          have hsix : '0' ≤ c ∧ c < '7' ↔ '0' ≤ c ∧ c ≤ '6' := by
            constructor
            · rintro ⟨hlow, hhigh⟩
              rcases levelNumber_eq_some (by
                have hdigit := tolerantNumber_digit hlow hhigh
                rwa [tolerantNumber, if_neg fun h => hminus (List.cons.inj h).1] at hdigit)
                with ⟨hpair, -⟩ | ⟨d, hd, hlow, hsix, -⟩
              · cases hpair
              · rw [(List.cons.inj hd).1]
                exact ⟨hlow, hsix⟩
            · exact fun h => ⟨h.1, lt_of_le_of_lt h.2 (by decide)⟩
          rw [if_neg hminus, if_neg hprefix]
          by_cases hdigit : '0' ≤ c ∧ c < '7'
          · have hc : c ≠ ';' := by
              rintro rfl
              exact absurd hdigit (by decide)
            rw [if_pos hdigit, List.takeWhile_cons_of_pos (by simpa using hc)]
            exact (if_pos (hsix.mp hdigit)).symm
          · rw [if_neg hdigit]
            have hzero : (match (c :: t).takeWhile fun c => c ≠ ';' with
                | [] => (0 : Int)
                | c :: _ => if '0' ≤ c ∧ c ≤ '6' then c.toNat - 48 else 0) = 0 := by
              by_cases hc : c = ';'
              · rw [hc, List.takeWhile_cons_of_neg (by decide)]
              · rw [List.takeWhile_cons_of_pos (by simpa using hc)]
                exact if_neg (mt hsix.mpr hdigit)
            rcases hread : mctEnvExtractSymbolicLl (c :: t) with ⟨_ | ll, env⟩
            · exact hzero.symm
            · exact absurd hread (hsymbolic ll env)
  rcases hread : mctEnvExtractLl t 0 with ⟨ok, ll, env⟩
  rw [hread] at hlevel
  cases ok with
  | false => exact ⟨env, by rw [← hlevel]⟩
  | true =>
      obtain ⟨l, r, rfl, hend, ⟨hfound, -⟩ | ⟨hfound, -⟩⟩ := extractLl_reads hnul hread
      · rw [(level_cut (tolerantNumber_free hfound) hend
          fun hmem => hnul (List.mem_append_right l hmem)).1, hfound] at hnumber
        cases hnumber
      · rw [(level_cut (levelName_facts hfound).2.1 hend
          fun hmem => hnul (List.mem_append_right l hmem)).1, hfound] at hname
        cases hname

/-- Behind a level name only a second `;` is passed over. -/
theorem behindName_eq (hnul : '\x00' ∉ r) :
    (if r.head? = some ';' then r.tail else []) = if atEnd r then skipSemicolon r else [] := by
  cases r with
  | nil => rfl
  | cons c r =>
      by_cases hc : c = ';'
      · rw [hc]
        rfl
      · have hzero : c ≠ '\x00' := fun hzero => hnul (hzero ▸ List.mem_cons_self)
        rw [List.head?_cons, if_neg fun h => hc (Option.some.inj h), if_neg]
        rw [atEnd, peek_cons, decide_eq_true_eq]
        exact not_or.mpr ⟨hc, hzero⟩

/-- One round takes the entry, and goes on with the string behind it. -/
theorem extractLlItem_taken (hnul : '\x00' ∉ s) :
    ∃ ok env, mctEnvExtractLlItem s = (ok, (takenItem s).1, env) ∧
      (takenItem s).2 = if ok then skipSemicolon env else [] := by
  cases hfirst : cutId s with
  | none =>
      obtain ⟨env, hid⟩ := (extractId_eq hnul).2 hfirst
      refine ⟨false, env, ?_, by rw [takenItem, hfirst]; rfl⟩
      rw [takenItem, hfirst]
      simp only [mctEnvExtractLlItem, hid, Bool.not_false, if_true]
  | some cut =>
      obtain ⟨appId, s'⟩ := cut
      obtain ⟨rfl, hshort, hfree⟩ := cutId_eq_some hfirst
      have hnul' : '\x00' ∉ s' := fun hmem => hnul (by simp [hmem])
      cases hsecond : cutId s' with
      | none =>
          have hid := (extractId_eq hnul).1 _ _ hfirst
          obtain ⟨env, hid'⟩ := (extractId_eq hnul').2 hsecond
          refine ⟨false, env, ?_, by simp only [takenItem, hfirst, hsecond]; rfl⟩
          simp only [takenItem, hfirst, hsecond, mctEnvExtractLlItem, hid, List.tail_cons, hid',
            Bool.not_true, Bool.not_false, Bool.false_eq_true, if_false, if_true]
      | some cut =>
          obtain ⟨ctxId, t⟩ := cut
          obtain ⟨rfl, hshort', hfree'⟩ := cutId_eq_some hsecond
          have hnulT : '\x00' ∉ t := fun hmem => hnul' (by simp [hmem])
          have hsplit := List.takeWhile_append_dropWhile (p := fun c => decide (c ≠ ';')) (l := t)
          have hread := extractLlItem_ids hshort hfree hshort' hfree' hnul
          simp only [takenItem, hfirst, hsecond]
          have hend : atEnd (t.dropWhile fun c => c ≠ ';') := by
            cases hdrop : t.dropWhile fun c => c ≠ ';' with
            | nil => rfl
            | cons c r =>
                have hhead := List.head?_dropWhile_not (fun c => decide (c ≠ ';')) t
                rw [hdrop] at hhead
                have hc : c = ';' := by simpa using hhead
                rw [hc]
                rfl
          have hnulR : '\x00' ∉ t.dropWhile fun c => c ≠ ';' :=
            fun hmem => hnulT ((List.dropWhile_suffix _).subset hmem)
          cases hnumber : tolerantNumber (t.takeWhile fun c => c ≠ ';') with
          | some ll =>
              have hlevel := extractLl_number hnumber hend
              rw [hsplit] at hlevel
              rw [hlevel] at hread
              refine ⟨true, _, hread, ?_⟩
              dsimp only
              rcases atEnd_cases hend hnulR with hnil | ⟨r, hr⟩
              · rw [hnil]
                rfl
              · rw [hr]
                rfl
          | none =>
              cases hname : levelName (t.takeWhile fun c => c ≠ ';') with
              | some ll =>
                  have hlevel := extractLl_name hname hend hnulR 0
                  rw [hsplit] at hlevel
                  rw [hlevel] at hread
                  refine ⟨_, _, hread, ?_⟩
                  dsimp only
                  exact behindName_eq fun hmem => hnulR (List.mem_of_mem_tail hmem)
              | none =>
                  obtain ⟨env, hlevel⟩ := extractLl_broken hnulT hnumber hname
                  rw [hlevel] at hread
                  exact ⟨false, env, hread, rfl⟩

/-- The entries of the rounds are those that the string is taken for. -/
theorem SetRun.takenFrom_eq (hrun : SetRun s ok items) (hnul : '\x00' ∉ s) {fuel : Nat}
    (hfuel : s.length < fuel) : items = takenFrom fuel s := by
  induction hrun generalizing fuel with
  | @failed s env item h =>
      obtain ⟨ok, env', hread, hrest⟩ := extractLlItem_taken hnul
      rw [h] at hread
      cases hread
      obtain ⟨fuel, rfl⟩ := Nat.exists_eq_succ_of_ne_zero (by omega : fuel ≠ 0)
      have hnothing : (takenItem s).2 = [] := hrest
      rw [takenFrom, if_pos hnothing]
  | @done s env item h hend =>
      obtain ⟨ok, env', hread, hrest⟩ := extractLlItem_taken hnul
      obtain ⟨-, hnul'⟩ := extractLlItem_rest hnul h
      rw [h] at hread
      cases hread
      rw [peek_eq_nul_iff hnul'] at hend
      obtain ⟨fuel, rfl⟩ := Nat.exists_eq_succ_of_ne_zero (by omega : fuel ≠ 0)
      rw [takenFrom, if_pos (hrest.trans hend)]
  | @more s env item ok items h hmore hrun ih =>
      obtain ⟨ok', env', hread, hrest⟩ := extractLlItem_taken hnul
      obtain ⟨hless, hnul'⟩ := extractLlItem_rest hnul h
      rw [h] at hread
      cases hread
      have hrest : (takenItem s).2 = skipSemicolon env := hrest
      obtain ⟨fuel, rfl⟩ := Nat.exists_eq_succ_of_ne_zero (by omega : fuel ≠ 0)
      have hgoes : skipSemicolon env ≠ [] := fun hnil => hmore ((peek_eq_nul_iff hnul').mpr hnil)
      rw [takenFrom, hrest, if_neg hgoes, ← ih hnul' (by omega)]

theorem SetRun.taken_eq (hrun : SetRun s ok items) (hnul : '\x00' ∉ s) : items = taken s :=
  hrun.takenFrom_eq hnul (Nat.lt_succ_self _)

end Taken

section Levels

variable {uninit : MctEnvLlItem} {s : List Char} {apid : Nat → Char} {ctid : List Char}
  {behind : Nat → Char} {ll : Int}

/-- What the code returns for the set of a string: the level of the first entry of the highest
priority among those that it can compare. -/
theorem adjustLl_eq {set : MctEnvLlSet} (hfit : ∀ item ∈ set.entries, item.IdsFit)
    (hctid : ctid.length ≤ 4) (hctidNul : '\x00' ∉ ctid) :
    mctEnvAdjustLlFromEnv set apid (ctidMemory ctid behind) ll =
      levelOf ll (firstHighest (matchingPriority apid ctid)
        (set.entries.filter (comparable ctid behind))) := by
  have hloop := @adjustLoop_spec apid (ctidMemory ctid behind) ll [] set.entries
  rw [List.nil_append, firstHighest_nil, highest_nil] at hloop
  have hprio : firstHighest (mctEnvLlItemGetMatchingPrio · apid (ctidMemory ctid behind))
      set.entries = firstHighest (fun item => if comparable ctid behind item then
        matchingPriority apid ctid item else 0) set.entries := by
    apply firstHighest_congr
    intro item hitem
    exact getMatchingPrio_eq (hfit item hitem) hctid hctidNul
  rw [← firstHighest_filter, ← hprio]
  exact hloop

/-- Behind the entries that the comparable ones have in common with the well-formed items
neither has one that outranks these, or the levels that follow are the same. -/
def LevelsAgree (apid : Nat → Char) (ctid : List Char) (ll : Int)
    (entries items : List MctEnvLlItem) : Prop :=
  let prio := matchingPriority apid ctid
  let common := commonPrefix entries items
  let surplus := entries.drop common.length
  let missing := items.drop common.length
  let level := fun extra =>
    levelOf ll (firstHighest prio
      (if highest prio common < highest prio extra then extra else common))
  (highest prio surplus ≤ highest prio common ∧ highest prio missing ≤ highest prio common) ∨
    level surplus = level missing

theorem levelsAgree_iff {entries items : List MctEnvLlItem} :
    LevelsAgree apid ctid ll entries items ↔
      levelOf ll (firstHighest (matchingPriority apid ctid) entries) =
        levelOf ll (firstHighest (matchingPriority apid ctid) items) := by
  obtain ⟨hentries, hitems⟩ := commonPrefix_append entries items
  have hchosen : ∀ extra : List MctEnvLlItem, firstHighest (matchingPriority apid ctid)
      (commonPrefix entries items ++ extra) = firstHighest (matchingPriority apid ctid)
        (if highest (matchingPriority apid ctid) (commonPrefix entries items) <
          highest (matchingPriority apid ctid) extra then extra
        else commonPrefix entries items) := by
    intro extra
    rw [firstHighest_append]
    split
    · rfl
    · rfl
  have hsurplus := hchosen (entries.drop (commonPrefix entries items).length)
  have hmissing := hchosen (items.drop (commonPrefix entries items).length)
  rw [hentries] at hsurplus
  rw [hitems] at hmissing
  rw [hsurplus, hmissing]
  unfold LevelsAgree
  constructor
  · rintro (⟨hsurplus, hmissing⟩ | hsame)
    · rw [if_neg (not_lt.mpr hsurplus), if_neg (not_lt.mpr hmissing)]
    · exact hsame
  · exact .inr

/-- The grammar is followed exactly where only the last item has a level name or the string is
rejected either way, and the level is the right one exactly where what the string is taken for
beside its well-formed items, and what is passed over of them, makes no difference. -/
theorem env_levels_iff (uninit : MctEnvLlItem) (hnul : '\x00' ∉ s) (apid : Nat → Char)
    (hctid : ctid.length ≤ 4) (hctidNul : '\x00' ∉ ctid)
    (behind : Nat → Char) (ll : Int) :
    (FollowsGrammar uninit s ↔ NamesLast s ∨ ¬ InGrammar s ∧ ¬ Tolerated s) ∧
      (AdjustsLevel uninit s apid ctid behind ll ↔
        LevelsAgree apid ctid ll ((taken s).filter (comparable ctid behind)) (wellFormed s)) := by
  refine ⟨followsGrammar_iff uninit hnul, ?_⟩
  obtain ⟨ok, set, hextract, hrun⟩ := extractLlSet_run uninit hnul
  have hadjust := @adjustLl_eq apid ctid behind ll set (hrun.idsFit hnul) hctid hctidNul
  rw [hrun.taken_eq hnul] at hadjust
  rw [levelsAgree_iff, ← hadjust]
  constructor
  · rintro ⟨ok', set', hextract', hlevel⟩
    cases hextract.symm.trans hextract'
    exact hlevel
  · intro hlevel
    exact ⟨ok, set, hextract, hlevel⟩

theorem env_levels_one_item :
    FollowsGrammar ⟨[], [], 0⟩ "A:B:Info".toList ∧
      AdjustsLevel ⟨[], [], 0⟩ "A:B:Info".toList (idByte ['A']) ['B'] (fun _ => '\x00') 2 := by
  have hlevels := @env_levels_iff "A:B:Info".toList ['B'] ⟨[], [], 0⟩ (by decide) (idByte ['A'])
    (by decide) (by decide) (fun _ => '\x00') 2
  constructor
  · refine hlevels.1.mpr (.inl ⟨[⟨['A'], ['B'], 4⟩], .last ?_⟩)
    exact ⟨by decide, by decide, by decide, by decide, "Info".toList, rfl, by decide⟩
  · exact hlevels.2.mpr (.inl (by decide))

/-- Two items are rejected because the first one has a level name, and an empty variable turns
every level off. -/
theorem env_levels_lost :
    ¬ FollowsGrammar ⟨[], [], 0⟩ "::info;A:B:3".toList ∧
      ¬ AdjustsLevel ⟨[], [], 0⟩ [] (idByte ['A']) ['B'] (fun _ => '\x00') 4 := by
  constructor
  · rintro ⟨ok, set, hset, hgrammar, -⟩
    have hrejected : (mctEnvExtractLlSet ⟨[], [], 0⟩ "::info;A:B:3".toList).map Prod.fst =
      some false := by rfl
    rw [hset] at hrejected
    have hok : ok = true := by
      refine hgrammar.mpr ⟨[⟨[], [], 4⟩, ⟨['A'], ['B'], 3⟩], ?_⟩
      refine @LlSet.more _ _ "::info".toList _ "A:B:3".toList _ ?_ (.last ?_)
      · exact ⟨by decide, by decide, by decide, by decide, "info".toList, rfl, by decide⟩
      · exact ⟨by decide, by decide, by decide, by decide, ['3'], rfl, by decide⟩
    rw [hok] at hrejected
    cases hrejected
  · rintro ⟨ok, set, hset, hlevel⟩
    have hone : mctEnvExtractLlSet ⟨[], [], 0⟩ [] =
      some (false, ⟨List.replicate 10 ⟨[], [], 0⟩, 1⟩) := by rfl
    cases hone.symm.trans hset
    exact absurd hlevel (by decide)

end Levels

end MctDaemon.User
