import MctDaemon.Lib.HexText
import MctDaemon.Daemon.ClientControl
import MctDaemon.Daemon.MessageFilter

/-!
The setting `ControlMessage` of a filter section. Its list is kept as two masks, into which the ids
of two ranges are folded; a mask is read here as the set of the services it permits.
-/

namespace MctDaemon.Daemon

open Lib Shared

section Mask

def mctServiceIdLastEntry : Int := 0x15
def mctUserServiceId : Int := 0xF00
def mctUserServiceIdLastEntry : Int := 0xF0F

/-- `MCT_NUM_SERVICE_ID`, the bytes of `lower`. -/
def mctNumServiceId : Nat := 0x15 / 8 + 1

/-- `MCT_NUM_USER_SERVICE_ID`, the bytes of `upper`. -/
def mctNumUserServiceId : Nat := (0xF0F &&& 0xFF) / 8 + 1

/-- The check that `set_bit`, `bit` and the loop over the list make. -/
def invalidServiceId (id : Int) : Bool :=
  id ≤ 0 ∨ mctUserServiceIdLastEntry ≤ id ∨ mctServiceIdLastEntry ≤ id ∧ id ≤ mctUserServiceId

namespace MctServiceIdFlag

def initFlags : MctServiceIdFlag := ⟨0, 0⟩

def enableAll : MctServiceIdFlag :=
  ⟨2 ^ (8 * mctNumServiceId) - 1, 2 ^ (8 * mctNumUserServiceId) - 1⟩

def setBit (flags : MctServiceIdFlag) (id : Int) : MctServiceIdFlag :=
  if invalidServiceId id then flags
  else if id.toNat &&& 0xF00 ≠ 0 then
    { flags with upper := flags.upper ||| 2 ^ (id.toNat &&& 0xFF) }
  else { flags with lower := flags.lower ||| 2 ^ (id.toNat &&& 0xFF) }

/-- One turn of the loop over the list. -/
def setToken (flags : MctServiceIdFlag) (token : List Char) : MctServiceIdFlag :=
  if invalidServiceId (strtol16 token) then flags else flags.setBit (int32 (strtol16 token))

end MctServiceIdFlag

open MctServiceIdFlag

def filterControlMask (value : List Char) : MctServiceIdFlag :=
  if value.head? = some '*' then enableAll
  else if strncasecmpEq value filterClientNone value.length then initFlags
  else (strtok ',' value).foldl setToken initFlags

/-- `mct_daemon_filter_is_control_allowed` with the mask of the current configuration. -/
def isControlAllowed (flags : MctServiceIdFlag) (messageId : Int) : MctReturnValue :=
  if invalidServiceId messageId then .error
  else if flags.bit messageId.toNat then .true else .ok

end Mask

section Ids

/-- The id of a service between the bounds of the two enumerations. -/
def KnownService (id : Int) : Prop := 0 < id ∧ id < 0x15 ∨ 0xF00 < id ∧ id < 0xF0F

theorem knownService_iff (id : Int) : KnownService id ↔ invalidServiceId id = false := by
  rw [invalidServiceId, decide_eq_false_iff_not]
  simp only [mctUserServiceIdLastEntry, mctServiceIdLastEntry, mctUserServiceId, KnownService]
  omega

/-- What the masking leaves of the ids of each range. -/
theorem lower_slot : ∀ n < 0x15, n &&& 0xF00 = 0 ∧ n &&& 0xFF = n := by decide

theorem upper_slot : ∀ n < 0x0F, (0xF00 + n) &&& 0xF00 ≠ 0 ∧ (0xF00 + n) &&& 0xFF = n := by decide

/-- A known service is a number below the first bound, or one behind the second. -/
theorem KnownService.cases {id : Int} (hid : KnownService id) :
    (∃ n : Nat, id = n ∧ 0 < n ∧ n < 0x15) ∨
      ∃ n : Nat, id = (0xF00 + n : Nat) ∧ 0 < n ∧ n < 0x0F := by
  rcases hid with ⟨hpos, hlt⟩ | ⟨hpos, hlt⟩
  · left
    exact ⟨id.toNat, by omega, by omega, by omega⟩
  · right
    exact ⟨(id - 0xF00).toNat, by omega, by omega, by omega⟩

theorem KnownService.int32 {id : Int} (hid : KnownService id) : Lib.int32 id = id := by
  unfold KnownService at hid
  apply int32_of_small
  · omega
  · omega

end Ids

namespace MctServiceIdFlag

def Permits (flags : MctServiceIdFlag) : Set Int :=
  { id | KnownService id ∧ flags.bit id.toNat }

/-- The bits lie in the arrays. -/
structure Fits (flags : MctServiceIdFlag) : Prop where
  lower : flags.lower < 2 ^ (8 * mctNumServiceId)
  upper : flags.upper < 2 ^ (8 * mctNumUserServiceId)

section Bits

variable (flags : MctServiceIdFlag) {n k : Nat}

theorem bit_lower (hpos : 0 < n) (hlt : n < 0x15) : flags.bit n = flags.lower.testBit n := by
  obtain ⟨hrange, hslot⟩ := lower_slot n hlt
  have hvalid : ¬ (n ≤ 0 ∨ 0xF0F ≤ n ∨ 0x15 ≤ n ∧ n ≤ 0xF00) := by omega
  rw [bit, if_neg hvalid, if_neg (not_not_intro hrange), hslot]

theorem bit_upper (hpos : 0 < n) (hlt : n < 0x0F) :
    flags.bit (0xF00 + n) = flags.upper.testBit n := by
  obtain ⟨hrange, hslot⟩ := upper_slot n hlt
  have hvalid : ¬ (0xF00 + n ≤ 0 ∨ 0xF0F ≤ 0xF00 + n ∨ 0x15 ≤ 0xF00 + n ∧ 0xF00 + n ≤ 0xF00) := by
    omega
  rw [bit, if_neg hvalid, if_pos hrange, hslot]

theorem setBit_lower (hpos : 0 < k) (hlt : k < 0x15) :
    flags.setBit (k : Nat) = { flags with lower := flags.lower ||| 2 ^ k } := by
  obtain ⟨hrange, hslot⟩ := lower_slot k hlt
  have hknown : KnownService (k : Int) := Or.inl ⟨by omega, by omega⟩
  simp [setBit, (knownService_iff _).mp hknown, hrange, hslot]

theorem setBit_upper (hpos : 0 < k) (hlt : k < 0x0F) :
    flags.setBit (0xF00 + k : Nat) = { flags with upper := flags.upper ||| 2 ^ k } := by
  obtain ⟨hrange, hslot⟩ := upper_slot k hlt
  have hknown : KnownService (0xF00 + k : Nat) := Or.inr ⟨by omega, by omega⟩
  simp only [setBit, (knownService_iff _).mp hknown, Int.toNat_natCast, hslot, if_pos hrange]
  rfl

theorem mem_permits {id : Int} (hid : KnownService id) :
    id ∈ flags.Permits ↔ flags.bit id.toNat := by
  constructor
  · intro hmem
    exact hmem.2
  · intro hbit
    exact ⟨hid, hbit⟩

theorem mem_permits_lower (hpos : 0 < n) (hlt : n < 0x15) :
    ((n : Nat) : Int) ∈ flags.Permits ↔ flags.lower.testBit n := by
  rw [mem_permits flags (Or.inl ⟨by omega, by omega⟩), Int.toNat_natCast,
    bit_lower flags hpos hlt]

theorem mem_permits_upper (hpos : 0 < n) (hlt : n < 0x0F) :
    ((0xF00 + n : Nat) : Int) ∈ flags.Permits ↔ flags.upper.testBit n := by
  rw [mem_permits flags (Or.inr ⟨by omega, by omega⟩), Int.toNat_natCast,
    bit_upper flags hpos hlt]

/-- No two services share a bit: the new id is permitted, and nothing else changes. -/
theorem permits_setBit {id : Int} (hid : KnownService id) :
    (flags.setBit id).Permits = insert id flags.Permits := by
  ext other
  rw [Set.mem_insert_iff]
  by_cases hother : KnownService other
  · rcases hid.cases with ⟨k, rfl, hk, hklt⟩ | ⟨k, rfl, hk, hklt⟩ <;>
      rcases hother.cases with ⟨n, rfl, hn, hnlt⟩ | ⟨n, rfl, hn, hnlt⟩
    · have hself : ((n : Nat) : Int) = (k : Nat) ↔ k = n := by omega
      rw [setBit_lower flags hk hklt, mem_permits_lower _ hn hnlt, mem_permits_lower _ hn hnlt]
      simp only [Nat.testBit_or, Nat.testBit_two_pow, Bool.or_eq_true, decide_eq_true_eq, hself]
      exact or_comm
    · have hne : ((0xF00 + n : Nat) : Int) ≠ (k : Nat) := by omega
      rw [setBit_lower flags hk hklt, mem_permits_upper _ hn hnlt, mem_permits_upper _ hn hnlt]
      exact (or_iff_right hne).symm
    · have hne : ((n : Nat) : Int) ≠ (0xF00 + k : Nat) := by omega
      rw [setBit_upper flags hk hklt, mem_permits_lower _ hn hnlt, mem_permits_lower _ hn hnlt]
      exact (or_iff_right hne).symm
    · have hself : ((0xF00 + n : Nat) : Int) = (0xF00 + k : Nat) ↔ k = n := by omega
      rw [setBit_upper flags hk hklt, mem_permits_upper _ hn hnlt, mem_permits_upper _ hn hnlt]
      simp only [Nat.testBit_or, Nat.testBit_two_pow, Bool.or_eq_true, decide_eq_true_eq, hself]
      exact or_comm
  · have hne : other ≠ id := fun heq => hother (heq ▸ hid)
    constructor
    · intro hmem
      exact absurd hmem.1 hother
    · rintro (heq | hmem)
      · exact absurd heq hne
      · exact absurd hmem.1 hother

theorem permits_initFlags : initFlags.Permits = ∅ := by
  apply Set.eq_empty_of_forall_notMem
  rintro other ⟨hother, hbit⟩
  rcases hother.cases with ⟨n, rfl, hn, hnlt⟩ | ⟨n, rfl, hn, hnlt⟩
  · rw [Int.toNat_natCast, bit_lower _ hn hnlt] at hbit
    simp [initFlags] at hbit
  · rw [Int.toNat_natCast, bit_upper _ hn hnlt] at hbit
    simp [initFlags] at hbit

theorem permits_enableAll {id : Int} (hid : KnownService id) : id ∈ enableAll.Permits := by
  rcases hid.cases with ⟨n, rfl, hn, hnlt⟩ | ⟨n, rfl, hn, hnlt⟩
  · rw [mem_permits_lower _ hn hnlt, enableAll, mctNumServiceId, Nat.testBit_two_pow_sub_one,
      decide_eq_true_eq]
    omega
  · rw [mem_permits_upper _ hn hnlt, enableAll, mctNumUserServiceId, Nat.testBit_two_pow_sub_one,
      decide_eq_true_eq]
    exact lt_trans hnlt (of_decide_eq_true rfl)

end Bits

section Fitting

variable {flags : MctServiceIdFlag}

theorem Fits.initFlags : initFlags.Fits where
  lower := by simp [MctServiceIdFlag.initFlags]
  upper := by simp [MctServiceIdFlag.initFlags]

theorem Fits.enableAll : enableAll.Fits where
  lower := Nat.sub_lt (by simp) (by simp)
  upper := Nat.sub_lt (by simp) (by simp)

theorem Fits.setBit (h : flags.Fits) (id : Int) : (flags.setBit id).Fits := by
  by_cases hid : KnownService id
  · rcases hid.cases with ⟨n, rfl, hn, hnlt⟩ | ⟨n, rfl, hn, hnlt⟩
    · rw [setBit_lower flags hn hnlt]
      have hbit : 2 ^ n < 2 ^ (8 * mctNumServiceId) :=
        Nat.pow_lt_pow_right (by omega) (lt_trans hnlt (of_decide_eq_true rfl))
      exact ⟨Nat.or_lt_two_pow h.lower hbit, h.upper⟩
    · rw [setBit_upper flags hn hnlt]
      have hbit : 2 ^ n < 2 ^ (8 * mctNumUserServiceId) :=
        Nat.pow_lt_pow_right (by omega) (lt_trans hnlt (of_decide_eq_true rfl))
      exact ⟨h.lower, Nat.or_lt_two_pow h.upper hbit⟩
  · rw [MctServiceIdFlag.setBit, if_pos (by simpa [knownService_iff] using hid)]
    exact h

end Fitting

section Tokens

variable (flags : MctServiceIdFlag) (token : List Char)

theorem setToken_known (h : KnownService (strtol16 token)) :
    flags.setToken token = flags.setBit (strtol16 token) := by
  rw [setToken, (knownService_iff _).mp h, h.int32]
  rfl

theorem setToken_invalid (h : ¬ KnownService (strtol16 token)) : flags.setToken token = flags := by
  rw [setToken, if_pos (by simpa [knownService_iff] using h)]

theorem permits_setToken :
    (flags.setToken token).Permits =
      { id | KnownService id ∧ strtol16 token = id } ∪ flags.Permits := by
  by_cases h : KnownService (strtol16 token)
  · rw [setToken_known flags token h, permits_setBit flags h, Set.insert_eq]
    congr 1
    ext id
    constructor
    · rintro rfl
      exact ⟨h, rfl⟩
    · rintro ⟨-, rfl⟩
      rfl
  · rw [setToken_invalid flags token h]
    symm
    apply Set.union_eq_right.mpr
    rintro id ⟨hid, rfl⟩
    exact absurd hid h

/-- After the loop the mask permits the ids of the list, besides those it had. -/
theorem permits_foldl (tokens : List (List Char)) :
    (tokens.foldl setToken flags).Permits =
      { id | KnownService id ∧ ∃ token ∈ tokens, strtol16 token = id } ∪ flags.Permits := by
  induction tokens generalizing flags with
  | nil => simp
  | cons token rest ih =>
      rw [List.foldl_cons, ih, permits_setToken]
      ext id
      simp only [Set.mem_union, List.mem_cons, exists_eq_or_imp]
      constructor
      · rintro (⟨hid, hrest⟩ | ⟨hid, htoken⟩ | hflags)
        · exact Or.inl ⟨hid, Or.inr hrest⟩
        · exact Or.inl ⟨hid, Or.inl htoken⟩
        · exact Or.inr hflags
      · rintro (⟨hid, htoken | hrest⟩ | hflags)
        · exact Or.inr (Or.inl ⟨hid, htoken⟩)
        · exact Or.inl ⟨hid, hrest⟩
        · exact Or.inr (Or.inr hflags)

theorem Fits.setToken {flags : MctServiceIdFlag} (h : flags.Fits) (token : List Char) :
    (flags.setToken token).Fits := by
  rw [MctServiceIdFlag.setToken]
  split
  · exact h
  · exact h.setBit _

theorem Fits.foldl {flags : MctServiceIdFlag} (h : flags.Fits) (tokens : List (List Char)) :
    (tokens.foldl MctServiceIdFlag.setToken flags).Fits := by
  induction tokens generalizing flags with
  | nil => exact h
  | cons token rest ih => exact ih (h.setToken token)

end Tokens

end MctServiceIdFlag

section Setting

open MctServiceIdFlag

variable (value : List Char)

/-- The setting is the wildcard, or a number of its list is the id. -/
def Listed (id : Int) : Prop :=
  value = ['*'] ∨ ∃ number ∈ value.splitOn ',', hexNumber number = some id

instance (id : Int) : Decidable (Listed value id) := inferInstanceAs (Decidable (_ ∨ _))

/-- Text behind the wildcard, or an entry of the list that is no number but begins with the id,
lets the id through. -/
def Overread (id : Int) : Prop :=
  value.head? = some '*' ∨
    ∃ number ∈ value.splitOn ',', hexNumber number = none ∧ strtol16 number = id

instance (id : Int) : Decidable (Overread value id) := inferInstanceAs (Decidable (_ ∨ _))

theorem eq_of_toLower_n {c : Char} (h : c.toLower = 'n') : c = 'n' ∨ c = 'N' := by
  unfold Char.toLower at h
  split at h
  · right
    have hval := congrArg Char.val h
    apply Char.ext
    have hsum : c.val + 32 = 110 := hval
    calc
      c.val = c.val + 32 - 32 := by simp
      _ = 110 - 32 := by rw [hsum]
      _ = 'N'.val := rfl
  · exact Or.inl h

/-- A beginning of the word for none has no separator and no number. -/
theorem number_of_none {value number : List Char}
    (h : strncasecmpEq value filterClientNone value.length)
    (hnumber : number ∈ value.splitOn ',') : strtol16 number = 0 := by
  have hlower : value.map Char.toLower =
      (filterClientNone.take value.length).map Char.toLower := by
    simpa [strncasecmpEq] using h
  have hsep : ',' ∉ value := by
    intro hmem
    have hin : ',' ∈ (filterClientNone.take value.length).map Char.toLower := by
      rw [← hlower]
      exact List.mem_map_of_mem (f := Char.toLower) hmem
    have hword : ',' ∈ filterClientNone.map Char.toLower :=
      ((List.take_sublist _ _).map _).mem hin
    exact absurd hword (by decide)
  rw [List.splitOn_eq_singleton hsep, List.mem_singleton] at hnumber
  subst hnumber
  cases number with
  | nil => rfl
  | cons c cs =>
      have hc : c.toLower = 'n' := by
        have hhead := congrArg List.head? hlower
        simpa [filterClientNone] using hhead
      rcases eq_of_toLower_n hc with rfl | rfl
      · rfl
      · rfl

/-- An empty piece between two separators is no number of a service. -/
theorem listed_strtok {id : Int} (hid : KnownService id) :
    (∃ token ∈ strtok ',' value, strtol16 token = id) ↔
      ∃ number ∈ value.splitOn ',', strtol16 number = id := by
  constructor
  · rintro ⟨token, htoken, hvalue⟩
    exact ⟨token, (List.mem_filter.mp htoken).1, hvalue⟩
  · rintro ⟨number, hnumber, hvalue⟩
    have hne : number ≠ [] := by
      rintro rfl
      have hzero : id = 0 := hvalue.symm
      unfold KnownService at hid
      omega
    exact ⟨number, List.mem_filter.mpr ⟨hnumber, by simpa using hne⟩, hvalue⟩

theorem mem_permits_filterControlMask {id : Int} (hid : KnownService id) :
    id ∈ (filterControlMask value).Permits ↔
      value.head? = some '*' ∨ ∃ number ∈ value.splitOn ',', strtol16 number = id := by
  unfold filterControlMask
  split
  · next hstar =>
      constructor
      · intro _
        exact Or.inl hstar
      · intro _
        exact permits_enableAll hid
  · next hstar =>
      split
      · next hnone =>
          rw [permits_initFlags]
          constructor
          · intro hmem
            exact absurd hmem (Set.notMem_empty id)
          · rintro (hwild | ⟨number, hnumber, hvalue⟩)
            · exact absurd hwild hstar
            · rw [number_of_none hnone hnumber] at hvalue
              unfold KnownService at hid
              omega
      · rw [permits_foldl, permits_initFlags, Set.union_empty, ← listed_strtok value hid]
        constructor
        · rintro ⟨-, hlist⟩
          exact Or.inr hlist
        · rintro (hwild | hlist)
          · exact absurd hwild hstar
          · exact ⟨hid, hlist⟩

/-- Whatever the setting, no bit is set outside the arrays. -/
theorem filterControlMask_fits : (filterControlMask value).Fits := by
  unfold filterControlMask
  split
  · exact Fits.enableAll
  · split
    · exact Fits.initFlags
    · exact Fits.initFlags.foldl _

theorem isControlAllowed_pos (flags : MctServiceIdFlag) {id : Int} (hid : KnownService id) :
    0 < (isControlAllowed flags id).code ↔ id ∈ flags.Permits := by
  rw [isControlAllowed, (knownService_iff id).mp hid, mem_permits flags hid]
  cases flags.bit id.toNat with
  | false => decide
  | true => decide

/-- A number is read as a known service if it is this number. -/
theorem strtol16_eq_iff {number : List Char} {n id : Int} (hid : KnownService id)
    (hnumber : hexNumber number = some n) : strtol16 number = id ↔ n = id := by
  rw [strtol16_of_hexNumber hnumber]
  unfold KnownService at hid
  omega

/-- What is let through is listed or read too far, and what is listed is let through. -/
theorem mem_permits_iff_or {id : Int} (hid : KnownService id) :
    id ∈ (filterControlMask value).Permits ↔ Listed value id ∨ Overread value id := by
  rw [mem_permits_filterControlMask value hid]
  constructor
  · rintro (hstar | ⟨number, hmem, hvalue⟩)
    · exact .inr (.inl hstar)
    · cases hnumber : hexNumber number with
      | none => exact .inr (.inr ⟨number, hmem, hnumber, hvalue⟩)
      | some n =>
          rw [strtol16_eq_iff hid hnumber] at hvalue
          exact .inl (.inr ⟨number, hmem, hvalue ▸ hnumber⟩)
  · rintro ((rfl | ⟨number, hmem, hnumber⟩) | hstar | ⟨number, hmem, -, hvalue⟩)
    · exact .inl rfl
    · exact .inr ⟨number, hmem, (strtol16_eq_iff hid hnumber).mpr rfl⟩
    · exact .inl hstar
    · exact .inr ⟨number, hmem, hvalue⟩

/-- A known service is allowed just if the setting lists it, if and only if no text that is read
too far lets through what is not listed. -/
theorem isControlAllowed_listed_iff {id : Int} (hid : KnownService id) :
    (0 < (isControlAllowed (filterControlMask value) id).code ↔ Listed value id) ↔
      Listed value id ∨ ¬ Overread value id := by
  rw [isControlAllowed_pos _ hid, mem_permits_iff_or value hid]
  by_cases hlisted : Listed value id
  · simp [hlisted]
  · simp [hlisted]

/-- Numbers, a repetition, an empty entry and a word: 5 is allowed and listed, 6 neither. -/
theorem storeConfig_allowed :
    0 < (isControlAllowed (filterControlMask "1F,0x5,,f05, 5,all".toList) 5).code ∧
      ¬ 0 < (isControlAllowed (filterControlMask "1F,0x5,,f05, 5,all".toList) 6).code := by
  have hlisted : Listed "1F,0x5,,f05, 5,all".toList 5 := by decide +kernel
  have hnot : ¬ Listed "1F,0x5,,f05, 5,all".toList 6 := by decide +kernel
  have hread : ¬ Overread "1F,0x5,,f05, 5,all".toList 6 := by decide +kernel
  exact ⟨((isControlAllowed_listed_iff _ (.inl ⟨by decide, by decide⟩)).mpr (.inl hlisted)).mpr
      hlisted,
    mt ((isControlAllowed_listed_iff _ (.inl ⟨by decide, by decide⟩)).mpr (.inr hread)).mp hnot⟩

/-- `5xyz` is no number and permits the service 5; so does a text behind the wildcard. -/
theorem invalid_number_allowed :
    KnownService 5 ∧ ¬ (0 < (isControlAllowed (filterControlMask "5xyz".toList) 5).code ↔
        Listed "5xyz".toList 5) ∧
      ¬ (0 < (isControlAllowed (filterControlMask "*no".toList) 5).code ↔
        Listed "*no".toList 5) := by
  refine ⟨.inl ⟨by decide, by decide⟩, ?_, ?_⟩
  · decide +kernel
  · decide +kernel

end Setting

end MctDaemon.Daemon
