import Mathlib.Data.Char
import Mathlib.Data.List.Lex
import Mathlib.Data.List.TakeWhile
import MctDaemon.Shared.Types

/-!
Identifiers of four characters (`ID4`, `mct_set_id`) and their order. Messages
carry identifiers with any characters after the first zero; `setId` clears
these, which can only lower an identifier in the order of `memcmp`.
-/

namespace MctDaemon.Shared

/-- Four characters, padded with zeros when the identifier is shorter. -/
structure ID4 where
  chars : List Char
  length_eq : chars.length = mctIdSize
  deriving DecidableEq, Repr

namespace ID4

theorem chars_injective : Function.Injective ID4.chars := by
  rintro ⟨a, _⟩ ⟨b, _⟩ rfl
  rfl

/-- The order of `memcmp`. -/
instance : LinearOrder ID4 := LinearOrder.lift' ID4.chars chars_injective

theorem lt_def (a b : ID4) : a < b ↔ a.chars < b.chars := Iff.rfl

theorem le_def (a b : ID4) : a ≤ b ↔ a.chars ≤ b.chars := Iff.rfl

/-- `id[0] == '\0'`. -/
def isEmpty (id : ID4) : Bool := id.chars.head? = some '\x00'

end ID4

/-- The characters `mct_set_id` copies. -/
def idText (text : List Char) : List Char := (text.take mctIdSize).takeWhile fun c => c ≠ '\x00'

theorem length_idText_le (text : List Char) : (idText text).length ≤ mctIdSize :=
  ((List.takeWhile_prefix _).length_le).trans (List.length_take_le _ _)

def setId (text : List Char) : ID4 where
  chars := idText text ++ List.replicate (mctIdSize - (idText text).length) '\x00'
  length_eq := by
    have hle := length_idText_le text
    rw [List.length_append, List.length_replicate]
    omega

namespace ID4

/-- Nothing stands behind a zero. -/
def Canonical (id : ID4) : Prop := setId id.chars = id

instance (id : ID4) : Decidable id.Canonical := inferInstanceAs (Decidable (_ = _))

end ID4

section Text

theorem not_mem_idText (text : List Char) : '\x00' ∉ idText text := by
  intro h
  simpa using List.mem_takeWhile_imp h

theorem idText_eq_self {text : List Char} (hlength : text.length ≤ mctIdSize)
    (hzero : '\x00' ∉ text) : idText text = text := by
  rw [idText, List.take_of_length_le hlength, List.takeWhile_eq_self_iff]
  intro c hc
  have hne : c ≠ '\x00' := by
    rintro rfl
    exact hzero hc
  simpa using hne

theorem idText_setId (text : List Char) : idText (setId text).chars = idText text := by
  have hzeros : ∀ n, (List.replicate n '\x00').takeWhile (fun c => c ≠ '\x00') = [] := by
    intro n
    cases n with
    | zero => rfl
    | succ n => rfl
  have hall := idText_eq_self (length_idText_le text) (not_mem_idText text)
  rw [idText, List.take_of_length_le (length_idText_le text)] at hall
  rw [idText, List.take_of_length_le (setId text).length_eq.le]
  simp only [setId]
  rw [List.takeWhile_append, hall, if_pos rfl, hzeros, List.append_nil]

theorem setId_congr {text text' : List Char} (h : idText text = idText text') :
    setId text = setId text' := by
  apply ID4.chars_injective
  simp only [setId, h]

/-- Identifiers made by `mct_set_id` are kept by it. -/
theorem setId_setId (text : List Char) : setId (setId text).chars = setId text :=
  setId_congr (idText_setId text)

/-- A canonical identifier is what `mct_set_id` makes of its text. -/
theorem ID4.Canonical.setId_idText {id : ID4} (h : id.Canonical) : setId (idText id.chars) = id :=
  (setId_congr (idText_eq_self (length_idText_le _) (not_mem_idText _))).trans h

theorem idText_ne_nil {id : ID4} (h : ¬ id.isEmpty) : idText id.chars ≠ [] := by
  obtain ⟨chars, hlength⟩ := id
  cases chars with
  | nil => cases hlength
  | cons c cs =>
      have hc : c ≠ '\x00' := by simpa [ID4.isEmpty] using h
      simp [idText, mctIdSize, hc]

theorem idText_subset (text : List Char) : idText text ⊆ text := fun _ hc =>
  List.take_subset _ _ ((List.takeWhile_prefix _).subset hc)

end Text

section Order

/-- Everything from the first zero on is cleared. -/
def clearBehind : List Char → List Char
  | [] => []
  | c :: cs => if c = '\x00' then List.replicate (cs.length + 1) '\x00' else c :: clearBehind cs

theorem zero_le_char (c : Char) : '\x00' ≤ c := Nat.zero_le _

theorem cons_le_cons_of_le (c : Char) {l m : List Char} (h : l ≤ m) : c :: l ≤ c :: m := by
  rw [← not_lt] at h ⊢
  intro hlt
  rcases List.cons_lt_cons_iff.mp hlt with hlt | ⟨_, hlt⟩
  · exact lt_irrefl c hlt
  · exact h hlt

theorem replicate_zero_le (l : List Char) : List.replicate l.length '\x00' ≤ l := by
  induction l with
  | nil => exact le_refl _
  | cons c cs ih =>
      rcases (zero_le_char c).lt_or_eq with hlt | rfl
      · exact le_of_lt (List.cons_lt_cons_iff.mpr (.inl hlt))
      · exact cons_le_cons_of_le _ ih

theorem clearBehind_le (l : List Char) : clearBehind l ≤ l := by
  induction l with
  | nil => exact le_refl _
  | cons c cs ih =>
      simp only [clearBehind]
      split
      · exact replicate_zero_le (c :: cs)
      · exact cons_le_cons_of_le c ih

/-- Characters behind a zero do not lift a list over one that has none. -/
theorem lt_of_clearBehind_lt {l m : List Char} (hlength : l.length = m.length)
    (hm : clearBehind m = m) (h : clearBehind l < m) : l < m := by
  induction l generalizing m with
  | nil => exact h
  | cons c cs ih =>
      cases m with
      | nil => simp at hlength
      | cons d ds =>
          simp only [List.length_cons, Nat.add_right_cancel_iff] at hlength
          simp only [clearBehind] at h hm
          by_cases hc : c = '\x00'
          · rw [if_pos hc] at h
            by_cases hd : d = '\x00'
            · rw [if_pos hd, ← hlength] at hm
              rw [hm] at h
              exact absurd h (lt_irrefl _)
            · rw [hc]
              exact List.cons_lt_cons_iff.mpr (.inl ((zero_le_char d).lt_of_ne' hd))
          · rw [if_neg hc] at h
            rcases List.cons_lt_cons_iff.mp h with hlt | ⟨rfl, hlt⟩
            · exact List.cons_lt_cons_iff.mpr (.inl hlt)
            · rw [if_neg hc, List.cons_inj_right] at hm
              exact List.cons_lt_cons_iff.mpr (.inr ⟨rfl, ih hlength hm hlt⟩)

theorem setId_chars (id : ID4) : (setId id.chars).chars = clearBehind id.chars := by
  have hclear : ∀ l : List Char, l.takeWhile (fun c => c ≠ '\x00') ++
      List.replicate (l.length - (l.takeWhile fun c => c ≠ '\x00').length) '\x00' =
      clearBehind l := by
    intro l
    induction l with
    | nil => rfl
    | cons c cs ih =>
        by_cases hc : c = '\x00'
        · simp [clearBehind, hc]
        · simp [clearBehind, hc]
          simpa using ih
  have htake : id.chars.take mctIdSize = id.chars := List.take_of_length_le id.length_eq.le
  simp only [setId, idText, htake]
  rw [← id.length_eq]
  exact hclear id.chars

theorem clearBehind_clearBehind (l : List Char) : clearBehind (clearBehind l) = clearBehind l := by
  induction l with
  | nil => rfl
  | cons c cs ih =>
      by_cases hc : c = '\x00'
      · simp [clearBehind, hc, List.replicate_succ]
      · simp [clearBehind, hc, ih]

theorem setId_canonical (id : ID4) : (setId id.chars).Canonical := by
  apply ID4.chars_injective
  rw [setId_chars, setId_chars, clearBehind_clearBehind]

theorem setId_le (id : ID4) : setId id.chars ≤ id := by
  rw [ID4.le_def, setId_chars]
  exact clearBehind_le id.chars

theorem lt_of_setId_lt {id other : ID4} (hother : other.Canonical) (h : setId id.chars < other) :
    id < other := by
  rw [ID4.lt_def, setId_chars] at h
  have hclear : clearBehind other.chars = other.chars := by
    rw [← setId_chars, hother]
  exact lt_of_clearBehind_lt (id.length_eq.trans other.length_eq.symm) hclear h

theorem isEmpty_setId (id : ID4) : (setId id.chars).isEmpty = id.isEmpty := by
  simp only [ID4.isEmpty, setId_chars]
  obtain ⟨chars, hlength⟩ := id
  cases chars with
  | nil => rfl
  | cons c cs =>
      by_cases hc : c = '\x00'
      · simp [clearBehind, hc, List.replicate_succ]
      · simp [clearBehind, hc]

end Order

end MctDaemon.Shared
