import MctDaemon.Lib.Machine
import Mathlib.Tactic

/-!
Decoders that take a value off the front of a list and hand on the rest. What
such a decoder accepts is described by the encoding of the values and a
condition on them.
-/

namespace MctDaemon.Lib

universe u v

/-- The value at the front of a list, and what follows it. -/
abbrev Decoder (α : Type u) (β : Type v) := List α → Option (β × List α)

/-- The decoder accepts exactly the encodings of the values that meet the
condition, with anything behind them. -/
def Reads {α : Type u} {β : Type v} (dec : Decoder α β) (enc : β → List α) (ok : β → Prop) : Prop :=
  ∀ input value rest, dec input = some (value, rest) ↔ input = enc value ++ rest ∧ ok value

def takeFront {α : Type u} (n : Nat) : Decoder α (List α) := fun input =>
  if n ≤ input.length then some (input.take n, input.drop n) else none

theorem reads_takeFront {α : Type u} (n : Nat) :
    Reads (takeFront n) id (fun value : List α => value.length = n) := by
  intro input value rest
  unfold takeFront
  constructor
  · intro h
    split at h
    · next hle =>
        cases h
        exact ⟨(List.take_append_drop n input).symm, List.length_take_of_le hle⟩
    · cases h
  · rintro ⟨rfl, rfl⟩
    rw [id, if_pos (by simp), List.take_left, List.drop_left]

section Combine

variable {α : Type u} {β γ : Type v}

/-- Two values, the second decoded as the first one says. -/
def Decoder.andThen (first : Decoder α β) (second : β → Decoder α γ) : Decoder α (β × γ) :=
  fun input =>
    (first input).bind fun entry =>
      (second entry.1 entry.2).map fun entry' => ((entry.1, entry'.1), entry'.2)

theorem reads_andThen {first : Decoder α β} {second : β → Decoder α γ} {enc : β → List α}
    {ok : β → Prop} {enc' : β → γ → List α} {ok' : β → γ → Prop} (hfirst : Reads first enc ok)
    (hsecond : ∀ value, Reads (second value) (enc' value) (ok' value)) :
    Reads (first.andThen second) (fun pair => enc pair.1 ++ enc' pair.1 pair.2)
      (fun pair => ok pair.1 ∧ ok' pair.1 pair.2) := by
  rintro input ⟨value, value'⟩ rest
  constructor
  · intro h
    obtain ⟨⟨front, behind⟩, hfront, hrest⟩ := Option.bind_eq_some_iff.mp h
    obtain ⟨⟨back, last⟩, hback, heq⟩ := Option.map_eq_some_iff.mp hrest
    cases heq
    obtain ⟨rfl, hok⟩ := (hfirst input front behind).mp hfront
    obtain ⟨rfl, hok'⟩ := (hsecond front behind back last).mp hback
    exact ⟨(List.append_assoc _ _ _).symm, hok, hok'⟩
  · rintro ⟨rfl, hok, hok'⟩
    have hfront := (hfirst (enc value ++ (enc' value value' ++ rest)) value _).mpr ⟨rfl, hok⟩
    have hback := (hsecond value (enc' value value' ++ rest) value' rest).mpr ⟨rfl, hok'⟩
    unfold Decoder.andThen
    dsimp only
    rw [List.append_assoc, hfront, Option.bind_some, hback, Option.map_some]

/-- The values that a partial function makes of the decoded ones. -/
def Decoder.filterMap (dec : Decoder α β) (f : β → Option γ) : Decoder α γ := fun input =>
  (dec input).bind fun entry => (f entry.1).map fun value => (value, entry.2)

theorem reads_filterMap {dec : Decoder α β} {enc : β → List α} {ok : β → Prop}
    (h : Reads dec enc ok) (f : β → Option γ) (parts : γ → β)
    (hf : ∀ part value, ok part → (f part = some value ↔ part = parts value)) :
    Reads (dec.filterMap f) (fun value => enc (parts value)) (fun value => ok (parts value)) := by
  intro input value rest
  constructor
  · intro hdec
    obtain ⟨⟨part, behind⟩, hpart, hrest⟩ := Option.bind_eq_some_iff.mp hdec
    obtain ⟨value', hvalue, heq⟩ := Option.map_eq_some_iff.mp hrest
    cases heq
    obtain ⟨rfl, hok⟩ := (h input part behind).mp hpart
    obtain rfl := (hf part value hok).mp hvalue
    exact ⟨rfl, hok⟩
  · rintro ⟨rfl, hok⟩
    have hpart := (h (enc (parts value) ++ rest) (parts value) rest).mpr ⟨rfl, hok⟩
    have hvalue := (hf (parts value) value hok).mpr rfl
    unfold Decoder.filterMap
    rw [hpart, Option.bind_some, hvalue, Option.map_some]

def decodeTimes (dec : Decoder α β) : Nat → Decoder α (List β)
  | 0 => fun input => some ([], input)
  | n + 1 => (dec.andThen fun _ => decodeTimes dec n).filterMap fun pair => some (pair.1 :: pair.2)

theorem reads_decodeTimes {dec : Decoder α β} {enc : β → List α} {ok : β → Prop}
    (h : Reads dec enc ok) (n : Nat) :
    Reads (decodeTimes dec n) (List.flatMap enc)
      (fun values => values.length = n ∧ ∀ value ∈ values, ok value) := by
  induction n with
  | zero =>
      intro input values rest
      constructor
      · intro hdec
        cases hdec
        exact ⟨rfl, rfl, nofun⟩
      · rintro ⟨rfl, hlength, -⟩
        rw [List.length_eq_zero_iff.mp hlength]
        rfl
  | succ n ih =>
      have hpair := reads_andThen h fun _ => ih
      intro input values rest
      constructor
      · intro hdec
        obtain ⟨⟨⟨value, values'⟩, behind⟩, hentry, hrest⟩ := Option.bind_eq_some_iff.mp hdec
        cases hrest
        obtain ⟨rfl, hok, hlength, hall⟩ := (hpair _ _ _).mp hentry
        exact ⟨rfl, by rw [List.length_cons, hlength], List.forall_mem_cons.mpr ⟨hok, hall⟩⟩
      · rintro ⟨rfl, hlength, hall⟩
        cases values with
        | nil => cases hlength
        | cons value values =>
            obtain ⟨hok, hrest⟩ := List.forall_mem_cons.mp hall
            have hentry := (hpair (enc value ++ values.flatMap enc ++ rest) (value, values)
              rest).mpr ⟨rfl, hok, Nat.succ.inj hlength, hrest⟩
            rw [decodeTimes, Decoder.filterMap, List.flatMap_cons, hentry]
            rfl

end Combine

section Numbers

theorem leBytes_leNat (bytes : List UInt8) : leBytes bytes.length (leNat bytes) = bytes := by
  induction bytes with
  | nil => rfl
  | cons b bytes ih =>
      have hb := b.toNat_lt
      rw [List.length_cons, leNat, leBytes]
      have hlow : (b.toNat + 256 * leNat bytes) % 256 = b.toNat := by omega
      have hhigh : (b.toNat + 256 * leNat bytes) / 256 = leNat bytes := by omega
      rw [hlow, hhigh, ih]
      simp

/-- The bytes of a number are those of its lower part and those of its upper part. -/
theorem leBytes_append (width more n : Nat) :
    leBytes (width + more) n = leBytes width (n % 256 ^ width) ++
      leBytes more (n / 256 ^ width) := by
  induction width generalizing n with
  | zero => simp [leBytes]
  | succ width ih =>
      have hhead : n % 256 ^ (width + 1) % 256 = n % 256 := by
        rw [Nat.pow_succ, Nat.mul_comm, Nat.mod_mul_right_mod]
      have htail : n % 256 ^ (width + 1) / 256 = n / 256 % 256 ^ width := by
        rw [Nat.pow_succ, Nat.mul_comm, Nat.mod_mul_right_div_self]
      have hrest : n / 256 ^ (width + 1) = n / 256 / 256 ^ width := by
        rw [Nat.div_div_eq_div_mul, Nat.pow_succ, Nat.mul_comm]
      rw [Nat.succ_add, leBytes, ih, leBytes, hhead, htail, hrest, List.cons_append]

theorem leNat_lt (bytes : List UInt8) : leNat bytes < 256 ^ bytes.length := by
  induction bytes with
  | nil => decide
  | cons b bytes ih =>
      have hb := b.toNat_lt
      rw [List.length_cons, leNat, Nat.pow_succ]
      omega

/-- Two bytes, the lower one first. -/
def decodeUint16 : Decoder UInt8 Nat := (takeFront 2).filterMap fun bytes => some (leNat bytes)

theorem reads_decodeUint16 : Reads decodeUint16 (leBytes 2) (fun n => n < 65536) := by
  intro input n rest
  constructor
  · intro h
    obtain ⟨⟨bytes, behind⟩, htake, heq⟩ := Option.bind_eq_some_iff.mp h
    cases heq
    obtain ⟨rfl, hlength⟩ := (reads_takeFront 2 input bytes behind).mp htake
    have hbytes := leBytes_leNat bytes
    have hlt := leNat_lt bytes
    rw [hlength] at hbytes hlt
    exact ⟨by rw [hbytes, id], hlt⟩
  · rintro ⟨rfl, hlt⟩
    have htake := (reads_takeFront 2 (leBytes 2 n ++ rest) (leBytes 2 n) rest).mpr
      ⟨rfl, leBytes_length 2 n⟩
    rw [decodeUint16, Decoder.filterMap, htake, Option.bind_some, leNat_leBytes 2 n hlt,
      Option.map_some]

end Numbers

end MctDaemon.Lib
