import Mathlib.Data.Char
import Mathlib.Tactic

/-!
Log levels from the environment. `mct_env_extract_ll_set` reads items `apid:ctid:ll` with
scanners that move one pointer along the string. A level name takes the `;` behind it along,
a `-` without a 1 is passed over, and the item that cannot be read is counted in the set too.
-/

namespace MctDaemon.User

section Model

/-- `**env`. -/
def peek (env : List Char) : Char := env.headD '\x00'

/-- `mct_env_ll_item`. An id has up to four characters, and zeros behind them. -/
structure MctEnvLlItem where
  appId : List Char
  ctxId : List Char
  ll : Int
  deriving DecidableEq, Repr

/-- The loop of `mct_env_extract_id`: the id, and where the pointer stands. -/
def idLoop : Nat → List Char → List Char × List Char
  | 0, env => ([], env)
  | n + 1, env =>
      if peek env ≠ ':' ∧ peek env ≠ '\x00' then
        (peek env :: (idLoop n env.tail).1, (idLoop n env.tail).2)
      else ([], env)

def mctEnvExtractId (env : List Char) : Bool × List Char × List Char :=
  let (id, env) := idLoop 4 env
  (peek env = ':', id, env)

/-- The loop of `mct_env_helper_to_lower`. -/
def lowerLoop : Nat → List Char → List Char × List Char
  | 0, env => ([], env)
  | n + 1, env =>
      if peek env ≠ '\x00' ∧ peek env ≠ ';' then
        ((peek env).toLower :: (lowerLoop n env.tail).1, (lowerLoop n env.tail).2)
      else ([], env)

def levelNames : List (List Char × Int) :=
  [("default".toList, -1), ("off".toList, 0), ("fatal".toList, 1), ("error".toList, 2),
    ("warning".toList, 3), ("info".toList, 4), ("debug".toList, 5), ("verbose".toList, 6)]

/-- `mct_env_extract_symbolic_ll`. The character behind the name is passed over. -/
def mctEnvExtractSymbolicLl (env : List Char) : Option Int × List Char :=
  let (result, env) := lowerLoop 7 env
  if peek env = '\x00' ∨ peek env = ';' then
    match levelNames.lookup result with
    | some ll => (some ll, if peek env ≠ '\x00' then env.tail else env)
    | none => (none, env)
  else (none, env)

/-- Whether an item may end here. -/
def atEnd (env : List Char) : Bool := peek env = ';' ∨ peek env = '\x00'

/-- `mct_env_extract_ll`, with the level that the item has so far. -/
def mctEnvExtractLl (env : List Char) (ll : Int) : Bool × Int × List Char :=
  if peek env = '-' then
    if peek env.tail = '1' then (atEnd env.tail.tail, -1, env.tail.tail)
    else (atEnd env.tail, ll, env.tail)
  else if '0' ≤ peek env ∧ peek env < '7' then
    (atEnd env.tail, (peek env).toNat - 48, env.tail)
  else
    match mctEnvExtractSymbolicLl env with
    | (some ll, env) => (atEnd env, ll, env)
    | (none, env) => (false, ll, env)

def mctEnvExtractLlItem (env : List Char) : Bool × MctEnvLlItem × List Char :=
  let (ok, appId, env) := mctEnvExtractId env
  if !ok then (false, ⟨appId, [], 0⟩, env)
  else
    let (ok, ctxId, env) := mctEnvExtractId env.tail
    if !ok then (false, ⟨appId, ctxId, 0⟩, env)
    else
      let (ok, ll, env) := mctEnvExtractLl env.tail 0
      (ok, ⟨appId, ctxId, ll⟩, env)

/-- `mct_env_ll_set`, with the array that has been allocated. -/
structure MctEnvLlSet where
  item : List MctEnvLlItem
  numElem : Nat

namespace MctEnvLlSet

def entries (set : MctEnvLlSet) : List MctEnvLlItem := set.item.take set.numElem

/-- `mct_env_increase_ll_set`: the items are copied to a larger array. -/
def increase (set : MctEnvLlSet) (uninit : MctEnvLlItem) : MctEnvLlSet :=
  { set with item := set.item ++ List.replicate 10 uninit }

/-- `item[num_elem++]`, in an array that is increased if it is full. -/
def push (set : MctEnvLlSet) (uninit item : MctEnvLlItem) : MctEnvLlSet :=
  let set := if set.numElem = set.item.length then set.increase uninit else set
  ⟨set.item.set set.numElem item, set.numElem + 1⟩

end MctEnvLlSet

/-- The character between two items is passed over. -/
def skipSemicolon (env : List Char) : List Char := if peek env = ';' then env.tail else env

/-- The loop of `mct_env_extract_ll_set`, in at most so many rounds. -/
def extractLoop (uninit : MctEnvLlItem) :
    Nat → List Char → MctEnvLlSet → Option (Bool × MctEnvLlSet)
  | 0, _, _ => none
  | fuel + 1, env, set =>
      let (ok, item, env) := mctEnvExtractLlItem env
      let set := set.push uninit item
      if !ok then some (false, set)
      else if peek (skipSemicolon env) = '\x00' then some (true, set)
      else extractLoop uninit fuel (skipSemicolon env) set

def mctEnvExtractLlSet (uninit : MctEnvLlItem) (env : List Char) : Option (Bool × MctEnvLlSet) :=
  extractLoop uninit (env.length + 1) env ⟨List.replicate 10 uninit, 0⟩

end Model

section Grammar

def levelNumber (l : List Char) : Option Int :=
  if l = ['-', '1'] then some (-1)
  else
    match l with
    | [c] => if '0' ≤ c ∧ c ≤ '6' then some (c.toNat - 48) else none
    | _ => none

def levelName (l : List Char) : Option Int := levelNames.lookup (l.map Char.toLower)

def documentedLevel (l : List Char) : Option Int := levelNumber l <|> levelName l

/-- `apid:ctid:ll`. -/
structure IsItem (level : List Char → Option Int) (text : List Char) (item : MctEnvLlItem) :
    Prop where
  appId_short : item.appId.length ≤ 4
  appId_free : ':' ∉ item.appId
  ctxId_short : item.ctxId.length ≤ 4
  ctxId_free : ':' ∉ item.ctxId
  parts : ∃ l, text = item.appId ++ ':' :: (item.ctxId ++ ':' :: l) ∧ level l = some item.ll

/-- Items with a `;` between them, and one at the end if need be. The levels of the last item
and of those in front of it are given apart. -/
inductive LlSet (inner last : List Char → Option Int) : List Char → List MctEnvLlItem → Prop
  | last {text item} (h : IsItem last text item) : LlSet inner last text [item]
  | trailing {text item} (h : IsItem last text item) : LlSet inner last (text ++ [';']) [item]
  | more {text item rest items} (h : IsItem inner text item) (hrest : LlSet inner last rest items) :
      LlSet inner last (text ++ ';' :: rest) (item :: items)

def InGrammar (s : List Char) : Prop := ∃ items, LlSet documentedLevel documentedLevel s items

def NamesLast (s : List Char) : Prop := ∃ items, LlSet levelNumber documentedLevel s items

/-- A level in digits, or a `-` alone. -/
def tolerantNumber (l : List Char) : Option Int := if l = ['-'] then some 0 else levelNumber l

/-- What is taken for a set as well: a `-` as a level, and a second `;` behind a level name,
which is needed there if another item follows. -/
inductive Tolerated : List Char → Prop
  | last {text item} (h : IsItem (fun l => tolerantNumber l <|> levelName l) text item) :
      Tolerated text
  | trailing {text item} (h : IsItem (fun l => tolerantNumber l <|> levelName l) text item) :
      Tolerated (text ++ [';'])
  | more {text item rest} (h : IsItem tolerantNumber text item) (hrest : Tolerated rest) :
      Tolerated (text ++ ';' :: rest)
  | doubled {text item} (h : IsItem levelName text item) : Tolerated (text ++ [';', ';'])
  | doubledMore {text item rest} (h : IsItem levelName text item) (hrest : Tolerated rest) :
      Tolerated (text ++ ';' :: ';' :: rest)

/-- The id that ends at the first `:`, and what is behind it. -/
def cutId (s : List Char) : Option (List Char × List Char) :=
  let id := s.takeWhile fun c => c ≠ ':'
  match s.dropWhile fun c => c ≠ ':' with
  | [] => none
  | _ :: rest => if id.length ≤ 4 then some (id, rest) else none

/-- The item that the string begins with, and what is behind its level. -/
def firstItem (s : List Char) : Option (MctEnvLlItem × List Char) := do
  let (appId, s) ← cutId s
  let (ctxId, s) ← cutId s
  let ll ← documentedLevel (s.takeWhile fun c => c ≠ ';')
  return (⟨appId, ctxId, ll⟩, s.dropWhile fun c => c ≠ ';')

/-- The items up to the first one that is not well formed, in at most so many steps. -/
def wellFormedFrom : Nat → List Char → List MctEnvLlItem
  | 0, _ => []
  | fuel + 1, s =>
      match firstItem s with
      | none => []
      | some (item, rest) => item :: wellFormedFrom fuel rest.tail

/-- The well-formed items in front of the first error. -/
def wellFormed (s : List Char) : List MctEnvLlItem := wellFormedFrom s.length s

end Grammar

section Scanners

@[simp] theorem peek_nil : peek [] = '\x00' := rfl

@[simp] theorem peek_cons (c : Char) (env : List Char) : peek (c :: env) = c := rfl

/-- A character that is not the end of the string is its first one. -/
theorem eq_cons_of_peek {env : List Char} {c : Char} (hc : c ≠ '\x00') (h : peek env = c) :
    env = c :: env.tail := by
  cases env with
  | nil => exact absurd h.symm hc
  | cons d env =>
      rw [← h]
      rfl

theorem peek_eq_nul_iff {env : List Char} (hnul : '\x00' ∉ env) : peek env = '\x00' ↔ env = [] := by
  cases env with
  | nil => exact iff_of_true rfl rfl
  | cons c env => exact iff_of_false (fun h => hnul (by rw [← h]; simp)) (List.cons_ne_nil c env)

/-- The loop takes up to so many characters, none of them a `:`. -/
theorem idLoop_reads (n : Nat) (env : List Char) :
    env = (idLoop n env).1 ++ (idLoop n env).2 ∧ (idLoop n env).1.length ≤ n ∧
      ':' ∉ (idLoop n env).1 := by
  induction n generalizing env with
  | zero => exact ⟨rfl, le_refl 0, List.not_mem_nil⟩
  | succ n ih =>
      rw [idLoop]
      split
      · next hmore =>
          obtain ⟨hparts, hlength, hfree⟩ := ih env.tail
          refine ⟨?_, Nat.succ_le_succ hlength, ?_⟩
          · rw [List.cons_append, ← hparts]
            exact eq_cons_of_peek hmore.2 rfl
          · rw [List.mem_cons, not_or]
            exact ⟨Ne.symm hmore.1, hfree⟩
      · exact ⟨rfl, Nat.zero_le _, List.not_mem_nil⟩

/-- An id with a `:` behind it is taken whole. -/
theorem idLoop_id {n : Nat} {id t : List Char} (hshort : id.length ≤ n) (hfree : ':' ∉ id)
    (hnul : '\x00' ∉ id) : idLoop n (id ++ ':' :: t) = (id, ':' :: t) := by
  induction id generalizing n with
  | nil =>
      cases n with
      | zero => rfl
      | succ n => exact if_neg (by simp)
  | cons c id ih =>
      rw [List.mem_cons, not_or] at hfree hnul
      obtain ⟨n, rfl⟩ := Nat.exists_eq_succ_of_ne_zero (by rw [List.length_cons] at hshort; omega :
        n ≠ 0)
      rw [List.cons_append, idLoop, peek_cons, if_pos ⟨Ne.symm hfree.1, Ne.symm hnul.1⟩,
        List.tail_cons, ih (Nat.le_of_succ_le_succ hshort) hfree.2 hnul.2]

/-- What `mct_env_extract_id` has read when it succeeds. -/
theorem extractId_reads {env id env' : List Char} (h : mctEnvExtractId env = (true, id, env')) :
    env = id ++ ':' :: env'.tail ∧ id.length ≤ 4 ∧ ':' ∉ id := by
  obtain ⟨hparts, hlength, hfree⟩ := idLoop_reads 4 env
  unfold mctEnvExtractId at h
  simp only [Prod.mk.injEq, decide_eq_true_eq] at h
  obtain ⟨hcolon, hid, henv⟩ := h
  rw [hid] at hparts hlength hfree
  rw [henv] at hparts hcolon
  refine ⟨?_, hlength, hfree⟩
  rw [← eq_cons_of_peek (by decide) hcolon]
  exact hparts

theorem extractId_id {id t : List Char} (hshort : id.length ≤ 4) (hfree : ':' ∉ id)
    (hnul : '\x00' ∉ id) : mctEnvExtractId (id ++ ':' :: t) = (true, id, ':' :: t) := by
  unfold mctEnvExtractId
  rw [idLoop_id hshort hfree hnul]
  rfl

/-- The loop takes up to so many characters, none of them a `;`. -/
theorem lowerLoop_reads (n : Nat) (env : List Char) :
    ∃ l, env = l ++ (lowerLoop n env).2 ∧ (lowerLoop n env).1 = l.map Char.toLower ∧ ';' ∉ l := by
  induction n generalizing env with
  | zero => exact ⟨[], rfl, rfl, List.not_mem_nil⟩
  | succ n ih =>
      rw [lowerLoop]
      split
      · next hmore =>
          obtain ⟨l, hparts, hlower, hfree⟩ := ih env.tail
          refine ⟨peek env :: l, ?_, ?_, ?_⟩
          · rw [List.cons_append, ← hparts]
            exact eq_cons_of_peek hmore.1 rfl
          · rw [List.map_cons, hlower]
          · rw [List.mem_cons, not_or]
            exact ⟨Ne.symm hmore.2, hfree⟩
      · exact ⟨[], rfl, rfl, List.not_mem_nil⟩

/-- Characters up to the end of an item are taken whole. -/
theorem lowerLoop_whole {n : Nat} {l r : List Char} (hshort : l.length ≤ n) (hfree : ';' ∉ l)
    (hnul : '\x00' ∉ l) (hend : atEnd r) : lowerLoop n (l ++ r) = (l.map Char.toLower, r) := by
  induction l generalizing n with
  | nil =>
      cases n with
      | zero => rfl
      | succ n =>
          refine if_neg ?_
          rintro ⟨hne, hne'⟩
          simp only [atEnd, decide_eq_true_eq] at hend
          exact hend.elim hne' hne
  | cons c l ih =>
      rw [List.mem_cons, not_or] at hfree hnul
      obtain ⟨n, rfl⟩ := Nat.exists_eq_succ_of_ne_zero (by rw [List.length_cons] at hshort; omega :
        n ≠ 0)
      rw [List.cons_append, lowerLoop, peek_cons, if_pos ⟨Ne.symm hnul.1, Ne.symm hfree.1⟩,
        List.tail_cons, ih (Nat.le_of_succ_le_succ hshort) hfree.2 hnul.2]
      rfl

end Scanners

section Levels

variable {l r : List Char} {ll : Int}

/-- Behind an item the string ends, or a `;` follows. -/
theorem atEnd_cases (hend : atEnd r) (hnul : '\x00' ∉ r) : r = [] ∨ ∃ r', r = ';' :: r' := by
  simp only [atEnd, decide_eq_true_eq] at hend
  rcases hend with hsemicolon | hend
  · exact .inr ⟨r.tail, eq_cons_of_peek (by decide) hsemicolon⟩
  · exact .inl ((peek_eq_nul_iff hnul).mp hend)

/-- What a level name looks like. -/
theorem levelName_facts (h : levelName l = some ll) :
    l.length ≤ 7 ∧ ';' ∉ l ∧ '\x00' ∉ l ∧
      ∃ c cs, l = c :: cs ∧ c ≠ '-' ∧ ¬ ('0' ≤ c ∧ c < '7') := by
  have hnames : ∀ entry ∈ levelNames, entry.1.length ≤ 7 ∧ ';' ∉ entry.1 ∧ '\x00' ∉ entry.1 ∧
      entry.1 ≠ [] ∧ entry.1.all fun c => 'a' ≤ c := by decide
  obtain ⟨front, back, hlist, -⟩ := List.lookup_eq_some_iff.mp h
  have hentry : (l.map Char.toLower, ll) ∈ levelNames := by
    rw [hlist]
    exact List.mem_append_right _ List.mem_cons_self
  obtain ⟨hlength, hsemicolon, hnul, hne, hletters⟩ := hnames _ hentry
  refine ⟨by simpa using hlength, ?_, ?_, ?_⟩
  · exact fun hmem => hsemicolon (List.mem_map_of_mem (f := Char.toLower) hmem)
  · exact fun hmem => hnul (List.mem_map_of_mem (f := Char.toLower) hmem)
  · cases l with
    | nil => exact absurd rfl hne
    | cons c cs =>
        have hc : 'a' ≤ c.toLower :=
          of_decide_eq_true (List.all_eq_true.mp hletters _ (by simp))
        refine ⟨c, cs, rfl, ?_, ?_⟩
        · rintro rfl
          exact absurd hc (by decide)
        · rintro ⟨-, hless⟩
          have hsame : c.toLower = c := by
            unfold Char.toLower
            apply dif_neg
            rintro ⟨hupper, -⟩
            exact absurd (lt_of_lt_of_le hless (le_trans (by decide : '7' ≤ 'A') hupper))
              (lt_irrefl c)
          rw [hsame] at hc
          exact absurd (lt_of_le_of_lt hc hless) (by decide)

/-- What a level in digits looks like. -/
theorem levelNumber_eq_some (h : levelNumber l = some ll) :
    l = ['-', '1'] ∧ ll = -1 ∨ ∃ c, l = [c] ∧ '0' ≤ c ∧ c ≤ '6' ∧ ll = c.toNat - 48 := by
  unfold levelNumber at h
  split at h
  · next hminus => exact .inl ⟨hminus, (Option.some.inj h).symm⟩
  · split at h
    · next c _ =>
        split at h
        · next hdigit => exact .inr ⟨c, rfl, hdigit.1, hdigit.2, (Option.some.inj h).symm⟩
        · cases h
    · cases h

/-- What a level in digits, or a `-` alone, looks like. -/
theorem tolerantNumber_facts (h : tolerantNumber l = some ll) :
    l = ['-'] ∧ ll = 0 ∨ l = ['-', '1'] ∧ ll = -1 ∨
      ∃ c, l = [c] ∧ '0' ≤ c ∧ c < '7' ∧ c ≠ '-' ∧ c ≠ ';' ∧ c ≠ '\x00' ∧ ll = c.toNat - 48 := by
  unfold tolerantNumber at h
  split at h
  · next hl => exact .inl ⟨hl, (Option.some.inj h).symm⟩
  · rcases levelNumber_eq_some h with hminus | ⟨c, hl, hlow, hsix, hll⟩
    · exact .inr (.inl hminus)
    · refine .inr (.inr ⟨c, hl, hlow, lt_of_le_of_lt hsix (by decide), ?_, ?_, ?_, hll⟩)
      · rintro rfl
        exact absurd hlow (by decide)
      · rintro rfl
        exact absurd hsix (by decide)
      · rintro rfl
        exact absurd hlow (by decide)

theorem tolerantNumber_digit {c : Char} (hlow : '0' ≤ c) (hhigh : c < '7') :
    tolerantNumber [c] = some ((c.toNat : Int) - 48) := by
  have hminus : [c] ≠ ['-'] := by
    intro heq
    rw [(List.cons.inj heq).1] at hlow
    exact absurd hlow (by decide)
  have hsix : c ≤ '6' := by
    by_contra hmore
    simp only [not_le, Char.lt_def, UInt32.lt_iff_toNat_lt] at hhigh hmore
    simp at hhigh hmore
    omega
  have hpair : [c] ≠ ['-', '1'] := by simp
  rw [tolerantNumber, if_neg hminus, levelNumber, if_neg hpair]
  exact if_pos ⟨hlow, hsix⟩

/-- A level in digits leaves the pointer behind it. -/
theorem extractLl_number (h : tolerantNumber l = some ll) (hend : atEnd r) :
    mctEnvExtractLl (l ++ r) 0 = (true, ll, r) := by
  unfold mctEnvExtractLl
  rcases tolerantNumber_facts h with ⟨rfl, rfl⟩ | ⟨rfl, rfl⟩ | ⟨c, rfl, hlow, hhigh, hne, -, -, rfl⟩
  · have hone : peek r ≠ '1' := by
      intro hone
      rw [atEnd, hone] at hend
      exact absurd hend (by decide)
    rw [List.singleton_append, peek_cons, if_pos rfl, List.tail_cons, if_neg hone, hend]
  · simp only [List.cons_append, List.nil_append, peek_cons, List.tail_cons, if_true, hend]
  · rw [List.singleton_append, peek_cons, if_neg hne, if_pos ⟨hlow, hhigh⟩, List.tail_cons, hend]

/-- A level name takes the character behind it along. -/
theorem extractLl_name (h : levelName l = some ll) (hend : atEnd r) (hnul : '\x00' ∉ r) (x : Int) :
    mctEnvExtractLl (l ++ r) x = (atEnd r.tail, ll, r.tail) := by
  obtain ⟨hlength, hfree, hnulFree, c, cs, hl, hminus, hdigit⟩ := levelName_facts h
  have hsymbolic : mctEnvExtractSymbolicLl (l ++ r) = (some ll, r.tail) := by
    have hstop : peek r = '\x00' ∨ peek r = ';' := by
      simpa only [atEnd, decide_eq_true_eq, or_comm] using hend
    unfold mctEnvExtractSymbolicLl
    rw [lowerLoop_whole hlength hfree hnulFree hend]
    simp only [if_pos hstop]
    rw [show levelNames.lookup (l.map Char.toLower) = some ll from h]
    simp only
    rcases atEnd_cases hend hnul with rfl | ⟨r', rfl⟩
    · rfl
    · rfl
  unfold mctEnvExtractLl
  rw [hsymbolic, hl, List.cons_append, peek_cons, if_neg hminus, if_neg hdigit]

/-- What `mct_env_extract_symbolic_ll` has read when it finds a name. -/
theorem extractSymbolicLl_reads {t env : List Char} (hnul : '\x00' ∉ t)
    (h : mctEnvExtractSymbolicLl t = (some ll, env)) :
    ∃ l r, t = l ++ r ∧ atEnd r ∧ levelName l = some ll ∧ env = r.tail := by
  obtain ⟨l, hparts, hlower, hfree⟩ := lowerLoop_reads 7 t
  unfold mctEnvExtractSymbolicLl at h
  generalize lowerLoop 7 t = read at hparts hlower h
  obtain ⟨result, r⟩ := read
  simp only at hparts hlower h
  subst hlower
  have hnul' : '\x00' ∉ r := fun hmem => hnul (by rw [hparts]; exact List.mem_append_right l hmem)
  split at h
  · next hstop =>
      have hend : atEnd r := by simpa only [atEnd, decide_eq_true_eq, or_comm] using hstop
      split at h
      · next ll' hname =>
          obtain ⟨hll, henv⟩ := Prod.mk.inj h
          refine ⟨l, r, hparts, hend, ?_, ?_⟩
          · rw [← hll]
            exact hname
          · rw [← henv]
            rcases atEnd_cases hend hnul' with rfl | ⟨r', rfl⟩
            · rfl
            · rfl
      · cases h
  · cases h

/-- What `mct_env_extract_ll` has read when it succeeds. -/
theorem extractLl_reads {t env : List Char} (hnul : '\x00' ∉ t)
    (h : mctEnvExtractLl t 0 = (true, ll, env)) :
    ∃ l r, t = l ++ r ∧ atEnd r ∧ (tolerantNumber l = some ll ∧ env = r ∨
      levelName l = some ll ∧ env = r.tail ∧ atEnd r.tail) := by
  unfold mctEnvExtractLl at h
  split at h
  · next hminus =>
      have ht := eq_cons_of_peek (by decide) hminus
      split at h
      · next hone =>
          have ht' := eq_cons_of_peek (by decide) hone
          simp only [Prod.mk.injEq] at h
          obtain ⟨hend, rfl, rfl⟩ := h
          exact ⟨['-', '1'], t.tail.tail, by rw [ht, ht']; rfl, hend, .inl ⟨rfl, rfl⟩⟩
      · simp only [Prod.mk.injEq] at h
        obtain ⟨hend, rfl, rfl⟩ := h
        exact ⟨['-'], t.tail, ht, hend, .inl ⟨rfl, rfl⟩⟩
  · split at h
    · next hdigit =>
        have ht : t = peek t :: t.tail := eq_cons_of_peek
          (by intro hzero; rw [hzero] at hdigit; exact absurd hdigit.1 (by decide)) rfl
        simp only [Prod.mk.injEq] at h
        obtain ⟨hend, rfl, rfl⟩ := h
        exact ⟨[peek t], t.tail, ht, hend, .inl ⟨tolerantNumber_digit hdigit.1 hdigit.2, rfl⟩⟩
    · split at h
      · next ll' env' hsymbolic =>
          simp only [Prod.mk.injEq] at h
          obtain ⟨hend', rfl, rfl⟩ := h
          obtain ⟨l, r, ht, hend, hname, rfl⟩ := extractSymbolicLl_reads hnul hsymbolic
          exact ⟨l, r, ht, hend, .inr ⟨hname, rfl, hend'⟩⟩
      · cases h

end Levels

section Items

variable {level level' : List Char → Option Int} {s text text' r r' : List Char}
  {item item' : MctEnvLlItem}

theorem IsItem.mono (h : IsItem level text item)
    (hlevel : ∀ l ll, level l = some ll → level' l = some ll) : IsItem level' text item := by
  obtain ⟨l, htext, hll⟩ := h.parts
  exact ⟨h.appId_short, h.appId_free, h.ctxId_short, h.ctxId_free, l, htext, hlevel l _ hll⟩

theorem IsItem.ne_nil (h : IsItem level text item) : text ≠ [] := by
  obtain ⟨l, rfl, -⟩ := h.parts
  simp

/-- With its ids taken the item goes on with its level. -/
theorem extractLlItem_ids {appId ctxId t : List Char} (hshort : appId.length ≤ 4)
    (hfree : ':' ∉ appId) (hshort' : ctxId.length ≤ 4) (hfree' : ':' ∉ ctxId)
    (hnul : '\x00' ∉ appId ++ ':' :: (ctxId ++ ':' :: t)) :
    mctEnvExtractLlItem (appId ++ ':' :: (ctxId ++ ':' :: t)) =
      ((mctEnvExtractLl t 0).1, ⟨appId, ctxId, (mctEnvExtractLl t 0).2.1⟩,
        (mctEnvExtractLl t 0).2.2) := by
  simp only [List.mem_append, List.mem_cons, not_or] at hnul
  have happId := @extractId_id appId (ctxId ++ ':' :: t) hshort hfree hnul.1
  have hctxId := @extractId_id ctxId t hshort' hfree' hnul.2.2.1
  simp only [mctEnvExtractLlItem, happId, hctxId, List.tail_cons, Bool.not_true,
    Bool.false_eq_true, if_false]

theorem extractLlItem_number (h : IsItem tolerantNumber text item) (hend : atEnd r)
    (hnul : '\x00' ∉ text ++ r) : mctEnvExtractLlItem (text ++ r) = (true, item, r) := by
  obtain ⟨l, rfl, hll⟩ := h.parts
  simp only [List.append_assoc, List.cons_append] at hnul ⊢
  rw [extractLlItem_ids h.appId_short h.appId_free h.ctxId_short h.ctxId_free hnul,
    extractLl_number hll hend]

theorem extractLlItem_name (h : IsItem levelName text item) (hend : atEnd r)
    (hnul : '\x00' ∉ text ++ r) :
    mctEnvExtractLlItem (text ++ r) = (atEnd r.tail, item, r.tail) := by
  obtain ⟨l, rfl, hll⟩ := h.parts
  have hnul' : '\x00' ∉ r := fun hmem => hnul (List.mem_append_right _ hmem)
  simp only [List.append_assoc, List.cons_append] at hnul ⊢
  rw [extractLlItem_ids h.appId_short h.appId_free h.ctxId_short h.ctxId_free hnul,
    extractLl_name hll hend hnul']

/-- What `mct_env_extract_ll_item` has read when it succeeds. -/
theorem extractLlItem_reads {env : List Char} (hnul : '\x00' ∉ s)
    (h : mctEnvExtractLlItem s = (true, item, env)) :
    ∃ text r, s = text ++ r ∧ atEnd r ∧ (IsItem tolerantNumber text item ∧ env = r ∨
      IsItem levelName text item ∧ env = r.tail ∧ atEnd r.tail) := by
  unfold mctEnvExtractLlItem at h
  rcases hid : mctEnvExtractId s with ⟨ok, appId, env₁⟩
  cases ok with
  | false => simp [hid] at h
  | true =>
      obtain ⟨hs, hshort, hfree⟩ := extractId_reads hid
      simp only [hid, Bool.not_true, Bool.false_eq_true, if_false] at h
      rcases hid' : mctEnvExtractId env₁.tail with ⟨ok, ctxId, env₂⟩
      cases ok with
      | false => simp [hid'] at h
      | true =>
          obtain ⟨hs', hshort', hfree'⟩ := extractId_reads hid'
          simp only [hid', Bool.not_true, Bool.false_eq_true, if_false] at h
          rcases hlevel : mctEnvExtractLl env₂.tail 0 with ⟨ok, ll, env₃⟩
          simp only [hlevel, Prod.mk.injEq] at h
          obtain ⟨rfl, rfl, rfl⟩ := h
          rw [hs'] at hs
          have hnul' : '\x00' ∉ env₂.tail := fun hmem => hnul (by rw [hs]; simp [hmem])
          obtain ⟨l, r, ht, hend, hread⟩ := extractLl_reads hnul' hlevel
          have hitem : ∀ level : List Char → Option Int, level l = some ll →
              IsItem level (appId ++ ':' :: (ctxId ++ ':' :: l)) ⟨appId, ctxId, ll⟩ :=
            fun level hll => ⟨hshort, hfree, hshort', hfree', l, rfl, hll⟩
          refine ⟨appId ++ ':' :: (ctxId ++ ':' :: l), r, ?_, hend, ?_⟩
          · rw [hs, ht]
            simp only [List.append_assoc, List.cons_append]
          · rcases hread with ⟨hll, henv⟩ | ⟨hll, henv, hend'⟩
            · exact .inl ⟨hitem _ hll, henv⟩
            · exact .inr ⟨hitem _ hll, henv, hend'⟩

end Items

section Loop

/-- The rounds of the loop of `mct_env_extract_ll_set`, with the entries that they leave. -/
inductive SetRun : List Char → Bool → List MctEnvLlItem → Prop
  | failed {s env item} (h : mctEnvExtractLlItem s = (false, item, env)) : SetRun s false [item]
  | done {s env item} (h : mctEnvExtractLlItem s = (true, item, env))
      (hend : peek (skipSemicolon env) = '\x00') : SetRun s true [item]
  | more {s env item ok items} (h : mctEnvExtractLlItem s = (true, item, env))
      (hmore : peek (skipSemicolon env) ≠ '\x00') (hrest : SetRun (skipSemicolon env) ok items) :
      SetRun s ok (item :: items)

variable {s env : List Char} {item : MctEnvLlItem} {ok : Bool} {items : List MctEnvLlItem}

namespace MctEnvLlSet

/-- The array holds at least the entries that count. -/
def Fits (set : MctEnvLlSet) : Prop := set.numElem ≤ set.item.length

theorem push_entries {set : MctEnvLlSet} (h : set.Fits) (uninit item : MctEnvLlItem) :
    (set.push uninit item).Fits ∧ (set.push uninit item).entries = set.entries ++ [item] := by
  have hset : ∀ array : List MctEnvLlItem, set.numElem < array.length →
      (⟨array.set set.numElem item, set.numElem + 1⟩ : MctEnvLlSet).Fits ∧
        (⟨array.set set.numElem item, set.numElem + 1⟩ : MctEnvLlSet).entries =
          array.take set.numElem ++ [item] := by
    intro array hroom
    refine ⟨?_, ?_⟩
    · rw [Fits, List.length_set]
      exact hroom
    · rw [entries, List.take_add_one, List.take_set_of_le (le_refl _), List.getElem?_set_self hroom]
      rfl
  unfold push
  by_cases hfull : set.numElem = set.item.length
  · simp only [if_pos hfull]
    have hincreased := hset (set.item ++ List.replicate 10 uninit) (by
      rw [List.length_append, List.length_replicate]
      omega)
    rw [List.take_append_of_le_length (le_of_eq hfull)] at hincreased
    exact hincreased
  · simp only [if_neg hfull]
    exact hset set.item (lt_of_le_of_ne h hfull)

end MctEnvLlSet

theorem skipSemicolon_suffix (env : List Char) : skipSemicolon env <:+ env := by
  unfold skipSemicolon
  split
  · exact List.tail_suffix env
  · exact List.suffix_refl env

/-- An item that is read leaves a shorter string. -/
theorem extractLlItem_rest (hnul : '\x00' ∉ s) (h : mctEnvExtractLlItem s = (true, item, env)) :
    (skipSemicolon env).length < s.length ∧ '\x00' ∉ skipSemicolon env := by
  obtain ⟨text, r, rfl, -, hread⟩ := extractLlItem_reads hnul h
  have hsuffix : env <:+ r := by
    rcases hread with ⟨-, rfl⟩ | ⟨-, rfl, -⟩
    · exact List.suffix_refl env
    · exact List.tail_suffix r
  have htext : text ≠ [] := by
    rcases hread with ⟨hitem, -⟩ | ⟨hitem, -⟩
    · exact hitem.ne_nil
    · exact hitem.ne_nil
  have hskip := (skipSemicolon_suffix env).trans hsuffix
  constructor
  · have hlength := hskip.length_le
    have hpos := List.length_pos_of_ne_nil htext
    rw [List.length_append]
    omega
  · exact fun hmem => hnul (List.mem_append_right text (hskip.subset hmem))

/-- The loop ends, and adds the entries of its rounds to the set. -/
theorem extractLoop_run (uninit : MctEnvLlItem) {fuel : Nat} {set : MctEnvLlSet}
    (hnul : '\x00' ∉ s) (hfits : set.Fits) (hfuel : s.length < fuel) :
    ∃ ok set' items, extractLoop uninit fuel s set = some (ok, set') ∧
      set'.entries = set.entries ++ items ∧ SetRun s ok items := by
  induction fuel generalizing s set with
  | zero => exact absurd hfuel (Nat.not_lt_zero _)
  | succ fuel ih =>
      rcases hitem : mctEnvExtractLlItem s with ⟨ok, item, env⟩
      obtain ⟨hfits', hentries⟩ := set.push_entries hfits uninit item
      simp only [extractLoop, hitem]
      cases ok with
      | false => exact ⟨false, _, [item], rfl, hentries, .failed hitem⟩
      | true =>
          simp only [Bool.not_true, Bool.false_eq_true, if_false]
          split
          · next hend => exact ⟨true, _, [item], rfl, hentries, .done hitem hend⟩
          · next hmore =>
              obtain ⟨hless, hnul'⟩ := extractLlItem_rest hnul hitem
              obtain ⟨ok, set', items, hloop, hset, hrun⟩ := ih hnul' hfits' (by omega)
              refine ⟨ok, set', item :: items, hloop, ?_, .more hitem hmore hrun⟩
              rw [hset, hentries, List.append_assoc]
              rfl

/-- `mct_env_extract_ll_set` ends, and its set has the entries of a run. -/
theorem extractLlSet_run (uninit : MctEnvLlItem) (hnul : '\x00' ∉ s) :
    ∃ ok set, mctEnvExtractLlSet uninit s = some (ok, set) ∧ SetRun s ok set.entries := by
  obtain ⟨ok, set, items, hloop, hset, hrun⟩ := extractLoop_run uninit hnul
    (show (⟨List.replicate 10 uninit, 0⟩ : MctEnvLlSet).Fits from Nat.zero_le _)
    (Nat.lt_succ_self s.length)
  refine ⟨ok, set, hloop, ?_⟩
  rw [hset]
  exact hrun

/-- What a run goes on with when an item has been read. -/
theorem SetRun.of_item (hrun : SetRun s ok items) (h : mctEnvExtractLlItem s = (true, item, env)) :
    (peek (skipSemicolon env) = '\x00' ∧ ok = true ∧ items = [item]) ∨
      (peek (skipSemicolon env) ≠ '\x00' ∧
        ∃ rest, SetRun (skipSemicolon env) ok rest ∧ items = item :: rest) := by
  cases hrun with
  | failed hfailed =>
      rw [h] at hfailed
      cases hfailed
  | done hread hend =>
      rw [h] at hread
      cases hread
      exact .inl ⟨hend, rfl, rfl⟩
  | more hread hmore hrest =>
      rw [h] at hread
      cases hread
      exact .inr ⟨hmore, _, hrest, rfl⟩

theorem SetRun.of_failed (hrun : SetRun s ok items)
    (h : mctEnvExtractLlItem s = (false, item, env)) : ok = false := by
  cases hrun with
  | failed _ => rfl
  | done hread _ =>
      rw [h] at hread
      cases hread
  | more hread _ _ =>
      rw [h] at hread
      cases hread

/-- The id of the first entry is the one that the string begins with. -/
theorem SetRun.head_appId {id t : List Char} (hrun : SetRun (id ++ ':' :: t) ok items)
    (hshort : id.length ≤ 4) (hfree : ':' ∉ id) (hnul : '\x00' ∉ id) :
    ∃ first rest, items = first :: rest ∧ first.appId = id := by
  have hread : (mctEnvExtractLlItem (id ++ ':' :: t)).2.1.appId = id := by
    have hid := @extractId_id id t hshort hfree hnul
    simp only [mctEnvExtractLlItem, hid, Bool.not_true, Bool.false_eq_true, if_false]
    split
    · rfl
    · rfl
  cases hrun with
  | failed h =>
      rw [h] at hread
      exact ⟨_, _, rfl, hread⟩
  | done h _ =>
      rw [h] at hread
      exact ⟨_, _, rfl, hread⟩
  | more h _ _ =>
      rw [h] at hread
      exact ⟨_, _, rfl, hread⟩

end Loop

section Acceptance

variable {s text rest : List Char} {item : MctEnvLlItem} {ok : Bool} {items : List MctEnvLlItem}
  {inner last : List Char → Option Int}

theorem tolerantNumber_of_levelNumber {l : List Char} {ll : Int} (h : levelNumber l = some ll) :
    tolerantNumber l = some ll := by
  rw [tolerantNumber, if_neg, h]
  rintro rfl
  have hnone : levelNumber ['-'] = none := by decide
  rw [hnone] at h
  cases h

theorem IsItem.number (h : IsItem levelNumber text item) : IsItem tolerantNumber text item :=
  h.mono fun _ _ => tolerantNumber_of_levelNumber

/-- The level of an item is in digits, or it is a name. -/
theorem IsItem.documented (h : IsItem documentedLevel text item) :
    IsItem levelNumber text item ∨ IsItem levelName text item := by
  obtain ⟨l, htext, hll⟩ := h.parts
  unfold documentedLevel at hll
  cases hnumber : levelNumber l with
  | some ll =>
      rw [hnumber] at hll
      exact .inl ⟨h.appId_short, h.appId_free, h.ctxId_short, h.ctxId_free, l, htext,
        hnumber.trans hll⟩
  | none =>
      rw [hnumber] at hll
      exact .inr ⟨h.appId_short, h.appId_free, h.ctxId_short, h.ctxId_free, l, htext, hll⟩

theorem IsItem.tolerant
    (h : IsItem (fun l => tolerantNumber l <|> levelName l) text item) :
    IsItem tolerantNumber text item ∨ IsItem levelName text item := by
  obtain ⟨l, htext, hll⟩ := h.parts
  cases hnumber : tolerantNumber l with
  | some ll =>
      simp only [hnumber] at hll
      exact .inl ⟨h.appId_short, h.appId_free, h.ctxId_short, h.ctxId_free, l, htext,
        hnumber.trans hll⟩
  | none =>
      simp only [hnumber] at hll
      exact .inr ⟨h.appId_short, h.appId_free, h.ctxId_short, h.ctxId_free, l, htext, hll⟩

/-- An item at the end of the string, or with just a `;` behind it, ends the run. -/
theorem SetRun.ends (hrun : SetRun (text ++ rest) ok items) (hnul : '\x00' ∉ text ++ rest)
    (h : IsItem tolerantNumber text item ∨ IsItem levelName text item)
    (hrest : rest = [] ∨ rest = [';']) : ok = true ∧ items = [item] := by
  have hread : ∃ env, mctEnvExtractLlItem (text ++ rest) = (true, item, env) ∧
      peek (skipSemicolon env) = '\x00' := by
    rcases h with h | h
    · rcases hrest with rfl | rfl
      · exact ⟨_, extractLlItem_number h rfl hnul, rfl⟩
      · exact ⟨_, extractLlItem_number h rfl hnul, rfl⟩
    · rcases hrest with rfl | rfl
      · exact ⟨_, extractLlItem_name h rfl hnul, rfl⟩
      · exact ⟨_, extractLlItem_name h rfl hnul, rfl⟩
  obtain ⟨env, hread, hend⟩ := hread
  rcases hrun.of_item hread with ⟨-, hok, hitems⟩ | ⟨hmore, -⟩
  · exact ⟨hok, hitems⟩
  · exact absurd hend hmore

/-- Behind an item with a level in digits and a `;` the run goes on. -/
theorem SetRun.goes_on (hrun : SetRun (text ++ ';' :: rest) ok items)
    (hnul : '\x00' ∉ text ++ ';' :: rest) (h : IsItem tolerantNumber text item)
    (hrest : rest ≠ []) : ∃ items', SetRun rest ok items' ∧ items = item :: items' := by
  have hskip : skipSemicolon (';' :: rest) = rest := rfl
  rcases hrun.of_item (extractLlItem_number h rfl hnul) with ⟨hend, -⟩ | ⟨-, items', hmore, hitems⟩
  · rw [hskip, peek_eq_nul_iff (by simp_all)] at hend
    exact absurd hend hrest
  · exact ⟨items', hmore, hitems⟩

theorem LlSet.ne_nil (h : LlSet inner last s items) : s ≠ [] := by
  cases h with
  | last h => exact h.ne_nil
  | trailing h => simp
  | more h hrest => simp

/-- A set whose last item alone may have a level name is read whole. -/
theorem LlSet.read (h : LlSet levelNumber documentedLevel s items) (hnul : '\x00' ∉ s)
    {entries : List MctEnvLlItem} (hrun : SetRun s ok entries) : ok = true ∧ entries = items := by
  induction h generalizing entries with
  | @last text item h =>
      rw [← List.append_nil text] at hrun hnul
      exact hrun.ends hnul (h.documented.imp_left IsItem.number) (.inl rfl)
  | @trailing text item h => exact hrun.ends hnul (h.documented.imp_left IsItem.number) (.inr rfl)
  | @more text item rest items h hrest ih =>
      obtain ⟨entries, hmore, rfl⟩ := hrun.goes_on hnul h.number hrest.ne_nil
      obtain ⟨hok, rfl⟩ := ih (fun hmem => hnul (by simp [hmem])) hmore
      exact ⟨hok, rfl⟩

/-- The first item of a set. -/
theorem LlSet.first (h : LlSet inner last s items) :
    ∃ item rest, items = item :: rest ∧ item.appId.length ≤ 4 ∧ ':' ∉ item.appId ∧
      ∃ t, s = item.appId ++ ':' :: t := by
  have hparts : ∀ {level : List Char → Option Int} {text : List Char} {item : MctEnvLlItem}
      (r : List Char), IsItem level text item → item.appId.length ≤ 4 ∧ ':' ∉ item.appId ∧
        ∃ t, text ++ r = item.appId ++ ':' :: t := by
    intro level text item r h
    obtain ⟨l, rfl, -⟩ := h.parts
    exact ⟨h.appId_short, h.appId_free, _, by rw [List.append_assoc]; rfl⟩
  cases h with
  | @last text item h => exact ⟨item, [], rfl, by simpa using hparts [] h⟩
  | trailing h => exact ⟨_, _, rfl, hparts _ h⟩
  | more h hrest => exact ⟨_, _, rfl, hparts _ h⟩

/-- Behind a level name a `;` has been taken along. If what follows begins with another one
that belongs to an id, it is taken too, and the id is another one. -/
theorem SetRun.behind_name (hrun : SetRun (text ++ ';' :: rest) true (item :: items))
    (hnul : '\x00' ∉ text ++ ';' :: rest) (h : IsItem levelName text item) :
    ¬ LlSet inner last rest items := by
  intro hset
  have hnul' : '\x00' ∉ rest := fun hmem => hnul (by simp [hmem])
  have hread := extractLlItem_name h (show atEnd (';' :: rest) from rfl) hnul
  rw [List.tail_cons] at hread
  cases hend : atEnd rest with
  | false =>
      rw [hend] at hread
      exact absurd (hrun.of_failed hread) (by decide)
  | true =>
      obtain rfl | ⟨r, rfl⟩ := atEnd_cases hend hnul'
      · exact hset.ne_nil rfl
      · rw [hend] at hread
        have hskip : skipSemicolon (';' :: r) = r := rfl
        obtain ⟨first, others, rfl, hshort, hfree, t, ht⟩ := hset.first
        rcases hrun.of_item hread with ⟨-, -, hitems⟩ | ⟨-, items', hmore, hitems⟩
        · simp at hitems
        · rw [hskip] at hmore
          obtain ⟨-, rfl⟩ := List.cons.inj hitems
          -- the id begins with the semicolon that the run has passed over
          cases happId : first.appId with
          | nil =>
              rw [happId] at ht
              exact absurd (List.cons.inj ht).1 (by decide)
          | cons c id =>
              rw [happId] at ht hshort hfree
              obtain ⟨rfl, rfl⟩ := List.cons.inj ht
              rw [List.length_cons] at hshort
              rw [List.mem_cons, not_or] at hfree
              obtain ⟨first', others', hsame, hid⟩ := hmore.head_appId (by omega) hfree.2
                (fun hmem => hnul' (by simp [hmem]))
              rw [← (List.cons.inj hsame).1, happId] at hid
              exact absurd (congrArg List.length hid) (by simp)

/-- A set that is read whole has a level name only in its last item. -/
theorem LlSet.namesLast (h : LlSet documentedLevel documentedLevel s items) (hnul : '\x00' ∉ s)
    (hrun : SetRun s true items) : LlSet levelNumber documentedLevel s items := by
  induction h with
  | last h => exact .last h
  | trailing h => exact .trailing h
  | @more text item rest items h hrest ih =>
      rcases h.documented with hnumber | hname
      · obtain ⟨items', hmore, hitems⟩ := hrun.goes_on hnul hnumber.number hrest.ne_nil
        obtain ⟨-, rfl⟩ := List.cons.inj hitems
        exact .more hnumber (ih (fun hmem => hnul (by simp [hmem])) hmore)
      · exact absurd hrest (hrun.behind_name hnul hname)

theorem Tolerated.ne_nil (h : Tolerated s) : s ≠ [] := by
  cases h with
  | last h => exact h.ne_nil
  | trailing h => simp
  | more h hrest => simp
  | doubled h => simp
  | doubledMore h hrest => simp

/-- What is tolerated is accepted. -/
theorem Tolerated.accepted (h : Tolerated s) (hnul : '\x00' ∉ s) (hrun : SetRun s ok items) :
    ok = true := by
  induction h generalizing items with
  | @last text item h =>
      rw [← List.append_nil text] at hrun hnul
      exact (hrun.ends hnul h.tolerant (.inl rfl)).1
  | @trailing text item h => exact (hrun.ends hnul h.tolerant (.inr rfl)).1
  | @more text item rest h hrest ih =>
      obtain ⟨items', hmore, -⟩ := hrun.goes_on hnul h hrest.ne_nil
      exact ih (fun hmem => hnul (by simp [hmem])) hmore
  | @doubled text item h =>
      rcases hrun.of_item (extractLlItem_name h rfl hnul) with ⟨-, hok, -⟩ | ⟨hmore, -⟩
      · exact hok
      · exact absurd rfl hmore
  | @doubledMore text item rest h hrest ih =>
      rcases hrun.of_item (extractLlItem_name h rfl hnul) with ⟨-, hok, -⟩ | ⟨-, items', hmore, -⟩
      · exact hok
      · exact ih (fun hmem => hnul (by simp [hmem])) hmore

theorem IsItem.tolerant_of_number (h : IsItem tolerantNumber text item) :
    IsItem (fun l => tolerantNumber l <|> levelName l) text item := by
  apply h.mono
  intro l ll hll
  simp only [hll]
  rfl

theorem IsItem.tolerant_of_name (h : IsItem levelName text item) :
    IsItem (fun l => tolerantNumber l <|> levelName l) text item := by
  apply h.mono
  intro l ll hll
  obtain ⟨-, -, -, c, cs, hl, hminus, hdigit⟩ := levelName_facts hll
  have hnone : tolerantNumber l = none := by
    cases htolerant : tolerantNumber l with
    | none => rfl
    | some ll' =>
        rcases tolerantNumber_facts htolerant with
          ⟨hl', -⟩ | ⟨hl', -⟩ | ⟨d, hl', hlow, hhigh, -⟩
        · exact absurd (List.cons.inj (hl.symm.trans hl')).1 hminus
        · exact absurd (List.cons.inj (hl.symm.trans hl')).1 hminus
        · have hc : c = d := (List.cons.inj (hl.symm.trans hl')).1
          exact absurd (hc ▸ ⟨hlow, hhigh⟩) hdigit
  simp only [hnone]
  exact hll

/-- What is accepted is tolerated. -/
theorem SetRun.tolerated (hrun : SetRun s ok items) (hnul : '\x00' ∉ s) (hok : ok = true) :
    Tolerated s := by
  induction hrun with
  | failed h => cases hok
  | done h hend =>
      obtain ⟨-, hnul'⟩ := extractLlItem_rest hnul h
      rw [peek_eq_nul_iff hnul'] at hend
      obtain ⟨text, r, rfl, hr, ⟨hitem, rfl⟩ | ⟨hitem, rfl, hr'⟩⟩ := extractLlItem_reads hnul h
      · obtain rfl | ⟨r, rfl⟩ := atEnd_cases hr fun hmem => hnul (by simp [hmem])
        · rw [List.append_nil]
          exact .last hitem.tolerant_of_number
        · rw [show r = [] from hend]
          exact .trailing hitem.tolerant_of_number
      · obtain rfl | ⟨r, rfl⟩ := atEnd_cases hr fun hmem => hnul (by simp [hmem])
        · rw [List.append_nil]
          exact .last hitem.tolerant_of_name
        · rw [List.tail_cons] at hr' hend
          obtain rfl | ⟨r, rfl⟩ := atEnd_cases hr' fun hmem => hnul (by simp [hmem])
          · exact .trailing hitem.tolerant_of_name
          · rw [show r = [] from hend]
            exact .doubled hitem
  | more h hmore hrest ih =>
      obtain ⟨-, hnul'⟩ := extractLlItem_rest hnul h
      have hset := ih hnul' hok
      obtain ⟨text, r, rfl, hr, ⟨hitem, rfl⟩ | ⟨hitem, rfl, hr'⟩⟩ := extractLlItem_reads hnul h
      · obtain rfl | ⟨r, rfl⟩ := atEnd_cases hr fun hmem => hnul (by simp [hmem])
        · exact absurd rfl hmore
        · exact .more hitem hset
      · obtain rfl | ⟨r, rfl⟩ := atEnd_cases hr fun hmem => hnul (by simp [hmem])
        · exact absurd rfl hmore
        · rw [List.tail_cons] at hr' hmore hset
          obtain rfl | ⟨r, rfl⟩ := atEnd_cases hr' fun hmem => hnul (by simp [hmem])
          · exact absurd rfl hmore
          · exact .doubledMore hitem hset

theorem cutId_id {id t : List Char} (hshort : id.length ≤ 4) (hfree : ':' ∉ id) :
    cutId (id ++ ':' :: t) = some (id, t) := by
  have hall : ∀ c ∈ id, decide (c ≠ ':') = true := by
    intro c hc
    rw [decide_eq_true_eq]
    rintro rfl
    exact hfree hc
  unfold cutId
  rw [List.takeWhile_append_of_pos hall, List.dropWhile_append_of_pos hall,
    List.takeWhile_cons_of_neg (by simp), List.dropWhile_cons_of_neg (by simp), List.append_nil]
  simp only [if_pos hshort]

/-- No level has a `;` in it. -/
theorem documentedLevel_free {l : List Char} {ll : Int} (h : documentedLevel l = some ll) :
    ';' ∉ l := by
  unfold documentedLevel at h
  cases hnumber : levelNumber l with
  | none =>
      rw [hnumber] at h
      exact (levelName_facts h).2.1
  | some ll' =>
      rcases tolerantNumber_facts (tolerantNumber_of_levelNumber hnumber) with
        ⟨rfl, -⟩ | ⟨rfl, -⟩ | ⟨c, rfl, -, -, -, hc, -⟩
      · decide
      · decide
      · exact fun hmem => hc (List.mem_singleton.mp hmem).symm

/-- A well-formed item is the first one of a string that it begins. -/
theorem firstItem_item {r : List Char} (h : IsItem documentedLevel text item)
    (hr : r = [] ∨ ∃ r', r = ';' :: r') : firstItem (text ++ r) = some (item, r) := by
  obtain ⟨l, rfl, hll⟩ := h.parts
  have hall : ∀ c ∈ l, decide (c ≠ ';') = true := by
    intro c hc
    rw [decide_eq_true_eq]
    rintro rfl
    exact documentedLevel_free hll hc
  have hcut : (l ++ r).takeWhile (fun c => c ≠ ';') = l ∧
      (l ++ r).dropWhile (fun c => c ≠ ';') = r := by
    rw [List.takeWhile_append_of_pos hall, List.dropWhile_append_of_pos hall]
    rcases hr with rfl | ⟨r', rfl⟩
    · exact ⟨List.append_nil l, rfl⟩
    · rw [List.takeWhile_cons_of_neg (by simp), List.dropWhile_cons_of_neg (by simp)]
      exact ⟨List.append_nil l, rfl⟩
  simp only [List.append_assoc, List.cons_append, firstItem, cutId_id h.appId_short h.appId_free,
    cutId_id h.ctxId_short h.ctxId_free, hcut.1, hcut.2, hll, Option.bind_eq_bind,
    Option.bind_some, Option.pure_def]

/-- The items of a set are its well-formed items. -/
theorem LlSet.wellFormed_eq (h : LlSet documentedLevel documentedLevel s items) :
    wellFormed s = items := by
  have hnil : ∀ fuel, wellFormedFrom fuel [] = [] := by
    intro fuel
    cases fuel with
    | zero => rfl
    | succ fuel => rfl
  have hstep : ∀ {text rest : List Char} {item : MctEnvLlItem} {fuel : Nat},
      IsItem documentedLevel text item → (rest = [] ∨ ∃ r, rest = ';' :: r) →
      (text ++ rest).length ≤ fuel → ∃ fuel', rest.tail.length ≤ fuel' ∧
        wellFormedFrom fuel (text ++ rest) = item :: wellFormedFrom fuel' rest.tail := by
    intro text rest item fuel h hrest hfuel
    have hpos := List.length_pos_of_ne_nil h.ne_nil
    rw [List.length_append] at hfuel
    obtain ⟨fuel, rfl⟩ := Nat.exists_eq_succ_of_ne_zero (by omega : fuel ≠ 0)
    refine ⟨fuel, ?_, ?_⟩
    · rw [List.length_tail]
      omega
    · rw [wellFormedFrom, firstItem_item h hrest]
  have hsteps : ∀ fuel, s.length ≤ fuel → wellFormedFrom fuel s = items := by
    induction h with
    | @last text item h =>
        intro fuel hfuel
        rw [← List.append_nil text] at hfuel ⊢
        obtain ⟨fuel', -, hwell⟩ := hstep h (.inl rfl) hfuel
        rw [hwell, List.tail_nil, hnil]
    | @trailing text item h =>
        intro fuel hfuel
        obtain ⟨fuel', -, hwell⟩ := hstep h (.inr ⟨[], rfl⟩) hfuel
        rw [hwell, List.tail_cons, hnil]
    | @more text item rest items h hrest ih =>
        intro fuel hfuel
        obtain ⟨fuel', hfuel', hwell⟩ := hstep h (.inr ⟨rest, rfl⟩) hfuel
        rw [hwell, List.tail_cons, ih fuel' hfuel']
  exact hsteps s.length (le_refl _)

theorem LlSet.documented (h : LlSet levelNumber documentedLevel s items) :
    LlSet documentedLevel documentedLevel s items := by
  induction h with
  | last h => exact .last h
  | trailing h => exact .trailing h
  | more h hrest ih =>
      refine .more (h.mono ?_) ih
      intro l ll hll
      rw [documentedLevel, hll]
      rfl

theorem accepted_iff_tolerated (hrun : SetRun s ok items) (hnul : '\x00' ∉ s) :
    ok = true ↔ Tolerated s :=
  ⟨hrun.tolerated hnul, fun h => h.accepted hnul hrun⟩

/-- The string is accepted just if it is in the grammar, and its items are then stored. -/
def FollowsGrammar (uninit : MctEnvLlItem) (s : List Char) : Prop :=
  ∃ ok set, mctEnvExtractLlSet uninit s = some (ok, set) ∧ (ok = true ↔ InGrammar s) ∧
    ∀ items, LlSet documentedLevel documentedLevel s items → set.entries = items

/-- The grammar is followed where only the last item has a level name, and where neither the
grammar nor the code takes the string for a set. -/
theorem followsGrammar_iff (uninit : MctEnvLlItem) (hnul : '\x00' ∉ s) :
    FollowsGrammar uninit s ↔ NamesLast s ∨ ¬ InGrammar s ∧ ¬ Tolerated s := by
  obtain ⟨ok, set, hextract, hrun⟩ := extractLlSet_run uninit hnul
  have haccepted := accepted_iff_tolerated hrun hnul
  constructor
  · rintro ⟨ok', set', hextract', hgrammar, hstored⟩
    cases hextract.symm.trans hextract'
    by_cases hin : InGrammar s
    · obtain ⟨items, hset⟩ := hin
      have hok : ok = true := hgrammar.mpr ⟨items, hset⟩
      subst hok
      rw [hstored items hset] at hrun
      exact .inl ⟨items, hset.namesLast hnul hrun⟩
    · exact .inr ⟨hin, fun htolerated => hin (hgrammar.mp (haccepted.mpr htolerated))⟩
  · rintro (⟨items, hset⟩ | ⟨hout, hnot⟩)
    · obtain ⟨rfl, hentries⟩ := hset.read hnul hrun
      refine ⟨true, set, hextract, iff_of_true rfl ⟨items, hset.documented⟩, ?_⟩
      intro items' hset'
      rw [hentries, ← hset.documented.wellFormed_eq, hset'.wellFormed_eq]
    · refine ⟨ok, set, hextract, iff_of_false (fun hok => hnot (haccepted.mp hok)) hout, ?_⟩
      exact fun items hset => absurd ⟨items, hset⟩ hout

end Acceptance

end MctDaemon.User
