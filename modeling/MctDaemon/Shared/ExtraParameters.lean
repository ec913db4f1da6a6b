import MctDaemon.Lib.ByteOrder
import MctDaemon.Lib.PrefixDecoder
import MctDaemon.Shared.MessageState

/-!
`mct_message_set_extraparameters` writes the ECU id, the session id and the timestamp that
`htyp` names behind the standard header. The two numbers are converted to network byte order
where they stand, in the structure of the caller, and are left there in that order.
-/

namespace MctDaemon.Shared

open Lib

section Model

def mctSwap32 (value : UInt32) : UInt32 :=
  (value >>> 24 &&& (0xff : UInt32)) ||| (value <<< 8 &&& (0xff0000 : UInt32)) |||
    (value >>> 8 &&& (0xff00 : UInt32)) ||| (value <<< 24 &&& (0xff000000 : UInt32))

/-- `MCT_HTOBE_32` and `MCT_BETOH_32` on a little-endian machine. -/
def mctHtobe32 (value : Nat) : Nat := (mctSwap32 value.toUInt32).toNat

/-- `mct_message_set_extraparameters`, with the structure as it is left behind. -/
def mctMessageSetExtraparameters (headerbuffer : List UInt8) (htyp : UInt8) (extra : HeaderExtra) :
    List UInt8 × HeaderExtra :=
  let weid := if isHtyp 2 htyp then 4 else 0
  let wsid := if isHtyp 3 htyp then 4 else 0
  let headerbuffer :=
    if isHtyp 2 htyp then copyInto headerbuffer extraOffset (extra.ecu.take mctIdSize)
    else headerbuffer
  let extra := if isHtyp 3 htyp then { extra with seid := mctHtobe32 extra.seid } else extra
  let headerbuffer :=
    if isHtyp 3 htyp then copyInto headerbuffer (extraOffset + weid) (leBytes 4 extra.seid)
    else headerbuffer
  let extra := if isHtyp 4 htyp then { extra with tmsp := mctHtobe32 extra.tmsp } else extra
  let headerbuffer :=
    if isHtyp 4 htyp then copyInto headerbuffer (extraOffset + (weid + wsid)) (leBytes 4 extra.tmsp)
    else headerbuffer
  (headerbuffer, extra)

end Model

section Swap

variable (v : UInt32)

theorem mctSwap32_toNat : (mctSwap32 v).toNat = v.toNat / 16777216 +
    v.toNat / 65536 % 256 * 256 + v.toNat / 256 % 256 * 65536 + v.toNat % 256 * 16777216 := by
  have hv := v.toNat_lt
  rw [mctSwap32, UInt32.toNat_or, UInt32.toNat_or, UInt32.toNat_or,
    @shiftRight_and v 24 0xff 24 0 rfl rfl, @shiftLeft_and v 8 0xff0000 8 16 rfl rfl,
    @shiftRight_and v 8 0xff00 8 8 rfl rfl, @shiftLeft_and v 24 0xff000000 24 24 rfl rfl]
  rw [Nat.or_assoc _ (_ <<< 16), Nat.or_comm (_ <<< 16), ← Nat.or_assoc, Nat.shiftLeft_zero,
    or_byte _ 8 (by omega), or_byte _ 16 (by omega), or_byte _ 24 (by omega)]
  omega

/-- A swapped number lies in memory with its highest byte first. -/
theorem leBytes_mctSwap32 : leBytes 4 (mctSwap32 v).toNat = (leBytes 4 v.toNat).reverse := by
  obtain ⟨b₀, b₁, b₂, b₃, hbytes⟩ : ∃ b₀ b₁ b₂ b₃, leBytes 4 v.toNat = [b₀, b₁, b₂, b₃] :=
    ⟨_, _, _, _, rfl⟩
  have hv : v.toNat = leNat [b₀, b₁, b₂, b₃] := by
    rw [← hbytes, leNat_leBytes 4 v.toNat v.toNat_lt]
  have hswap : (mctSwap32 v).toNat = leNat [b₃, b₂, b₁, b₀] := by
    have h₀ := b₀.toNat_lt
    have h₁ := b₁.toNat_lt
    have h₂ := b₂.toNat_lt
    have h₃ := b₃.toNat_lt
    simp only [leNat] at hv ⊢
    have hhigh : v.toNat / 16777216 = b₃.toNat := by omega
    have hthird : v.toNat / 65536 % 256 = b₂.toNat := by omega
    have hsecond : v.toNat / 256 % 256 = b₁.toNat := by omega
    have hlow : v.toNat % 256 = b₀.toNat := by omega
    rw [mctSwap32_toNat, hhigh, hthird, hsecond, hlow]
    omega
  rw [hbytes, hswap]
  exact leBytes_leNat [b₃, b₂, b₁, b₀]

theorem leBytes_reverse_length : (leBytes 4 v.toNat).reverse.length = 4 := by
  rw [List.length_reverse, leBytes_length]

theorem leBytes_injective {v w : UInt32} (h : leBytes 4 v.toNat = leBytes 4 w.toNat) : v = w := by
  apply UInt32.toNat_inj.mp
  rw [← leNat_leBytes 4 v.toNat v.toNat_lt, ← leNat_leBytes 4 w.toNat w.toNat_lt, h]

@[simp] theorem mctSwap32_mctSwap32 : mctSwap32 (mctSwap32 v) = v := by
  apply leBytes_injective
  rw [leBytes_mctSwap32, leBytes_mctSwap32, List.reverse_reverse]

@[simp] theorem mctHtobe32_toNat : mctHtobe32 v.toNat = (mctSwap32 v).toNat := by
  rw [mctHtobe32, Nat.toUInt32_eq, UInt32.ofNat_toNat]

theorem beNat32_eq_leNat (bytes : List UInt8) : beNat32 bytes = leNat bytes.reverse := by
  induction bytes using List.reverseRecOn with
  | nil => rfl
  | append_singleton bytes b ih =>
      rw [beNat32] at ih
      rw [beNat32, List.foldl_append, ih, List.reverse_append, List.reverse_singleton,
        List.singleton_append, leNat]
      exact Nat.add_comm _ _

/-- Bytes in network byte order are read back as the number. -/
theorem beNat32_reverse : beNat32 (leBytes 4 v.toNat).reverse = v.toNat := by
  rw [beNat32_eq_leNat, List.reverse_reverse, leNat_leBytes 4 v.toNat v.toNat_lt]

/-- The bytes a number was read from are those that are written for it. -/
theorem eq_reverse_of_beNat32 {bytes : List UInt8} (hlength : bytes.length = 4)
    (h : beNat32 bytes = v.toNat) : bytes = (leBytes 4 v.toNat).reverse := by
  have hbytes := leBytes_leNat bytes.reverse
  rw [List.length_reverse, hlength, ← beNat32_eq_leNat, h] at hbytes
  rw [hbytes, List.reverse_reverse]

end Swap

section Fields

variable {headerbuffer : List UInt8} {htyp : UInt8} {ecu : List UInt8}

/-- The extra parameters as they stand behind the standard header. -/
def extraBytes (htyp : UInt8) (ecu seid tmsp : List UInt8) : List UInt8 :=
  (if isHtyp 2 htyp then ecu else []) ++ ((if isHtyp 3 htyp then seid else []) ++
    if isHtyp 4 htyp then tmsp else [])

/-- The values that are left in the structure. -/
def swapped (htyp : UInt8) (ecu : List UInt8) (seid tmsp : UInt32) : HeaderExtra where
  ecu := ecu
  seid := (if isHtyp 3 htyp then mctSwap32 seid else seid).toNat
  tmsp := (if isHtyp 4 htyp then mctSwap32 tmsp else tmsp).toNat

theorem copyInto_if (named : Bool) (mem : List UInt8) (off : Nat) (piece : List UInt8) :
    (if named then copyInto mem off piece else mem) =
      copyInto mem off (if named then piece else []) := by
  cases named with
  | false => exact (copyInto_nil mem off).symm
  | true => rfl

theorem length_if (named : Bool) {piece : List UInt8} (h : piece.length = 4) :
    (if named then piece else []).length = if named then 4 else 0 := by
  cases named with
  | false => rfl
  | true => exact h

/-- The numbers that `htyp` names read the same in both byte orders. -/
def Palindromic (htyp : UInt8) (seid tmsp : UInt32) : Prop :=
  (isHtyp 3 htyp → mctSwap32 seid = seid) ∧ (isHtyp 4 htyp → mctSwap32 tmsp = tmsp)

theorem swapped_eq_iff (seid tmsp : UInt32) :
    swapped htyp ecu seid tmsp = ⟨ecu, seid.toNat, tmsp.toNat⟩ ↔ Palindromic htyp seid tmsp := by
  have hnumber : ∀ (named : Bool) (v : UInt32),
      (if named then mctSwap32 v else v).toNat = v.toNat ↔ (named → mctSwap32 v = v) := by
    intro named v
    rw [UInt32.toNat_inj]
    cases named with
    | false => simp
    | true => simp
  rw [swapped, HeaderExtra.mk.injEq, hnumber, hnumber, Palindromic]
  exact and_iff_right rfl

/-- What is written can be read, the structure keeps its values, and they can be written
again. -/
structure RoundTrips (headerbuffer : List UInt8) (htyp : UInt8) (extra : HeaderExtra) : Prop where
  read : ∀ old, mctMessageGetExtraparameters
      (mctMessageSetExtraparameters headerbuffer htyp extra).1 htyp old =
    { ecu := if isHtyp 2 htyp then extra.ecu else old.ecu
      seid := if isHtyp 3 htyp then extra.seid else old.seid
      tmsp := if isHtyp 4 htyp then extra.tmsp else old.tmsp }
  kept : (mctMessageSetExtraparameters headerbuffer htyp extra).2 = extra
  again : (mctMessageSetExtraparameters (mctMessageSetExtraparameters headerbuffer htyp extra).1
      htyp (mctMessageSetExtraparameters headerbuffer htyp extra).2).1 =
    (mctMessageSetExtraparameters headerbuffer htyp extra).1

variable (hbuffer : extraOffset ≤ headerbuffer.length) (hecu : ecu.length = mctIdSize)

include hbuffer hecu

/-- What the setter does: it writes the named parameters, numbers in network byte order. -/
theorem mctMessageSetExtraparameters_eq (seid tmsp : UInt32) :
    mctMessageSetExtraparameters headerbuffer htyp ⟨ecu, seid.toNat, tmsp.toNat⟩ =
      (copyInto headerbuffer extraOffset (extraBytes htyp ecu (leBytes 4 seid.toNat).reverse
        (leBytes 4 tmsp.toNat).reverse), swapped htyp ecu seid tmsp) := by
  have hseid : (if isHtyp 3 htyp then
        { (⟨ecu, seid.toNat, tmsp.toNat⟩ : HeaderExtra) with seid := mctHtobe32 seid.toNat }
      else ⟨ecu, seid.toNat, tmsp.toNat⟩) =
        ⟨ecu, (if isHtyp 3 htyp then mctSwap32 seid else seid).toNat, tmsp.toNat⟩ := by
    split
    · rw [mctHtobe32_toNat]
    · rfl
  have htmsp : ∀ n : Nat, (if isHtyp 4 htyp then
        { (⟨ecu, n, tmsp.toNat⟩ : HeaderExtra) with tmsp := mctHtobe32 tmsp.toNat }
      else ⟨ecu, n, tmsp.toNat⟩) =
        ⟨ecu, n, (if isHtyp 4 htyp then mctSwap32 tmsp else tmsp).toNat⟩ := by
    intro n
    split
    · rw [mctHtobe32_toNat]
    · rfl
  have hnumber : ∀ (named : Bool) (v : UInt32),
      (if named then leBytes 4 (if named then mctSwap32 v else v).toNat else []) =
        if named then (leBytes 4 v.toNat).reverse else [] := by
    intro named v
    cases named with
    | false => rfl
    | true => exact leBytes_mctSwap32 v
  have htext : ecu.take mctIdSize = ecu := List.take_of_length_le hecu.le
  simp only [mctMessageSetExtraparameters, hseid, htmsp, htext, copyInto_if, hnumber]
  -- the three copies stand one behind the other
  rw [← length_if (isHtyp 2 htyp) hecu, copyInto_append hbuffer,
    ← length_if (isHtyp 3 htyp) (leBytes_reverse_length seid), ← List.length_append,
    copyInto_append hbuffer, List.append_assoc]
  rfl

/-- The getter finds the parameters that were written. -/
theorem mctMessageGetExtraparameters_extraBytes (seid tmsp : UInt32) (old : HeaderExtra) :
    mctMessageGetExtraparameters (copyInto headerbuffer extraOffset (extraBytes htyp ecu
        (leBytes 4 seid.toNat).reverse (leBytes 4 tmsp.toNat).reverse)) htyp old =
      { ecu := if isHtyp 2 htyp then ecu else old.ecu
        seid := if isHtyp 3 htyp then seid.toNat else old.seid
        tmsp := if isHtyp 4 htyp then tmsp.toNat else old.tmsp } := by
  have hecuRead : isHtyp 2 htyp → slice (copyInto headerbuffer extraOffset (extraBytes htyp ecu
      (leBytes 4 seid.toNat).reverse (leBytes 4 tmsp.toNat).reverse)) extraOffset 4 = ecu := by
    intro hweid
    have hpiece := @slice_copyInto_piece _ headerbuffer [] ecu
      ((if isHtyp 3 htyp then (leBytes 4 seid.toNat).reverse else []) ++
        if isHtyp 4 htyp then (leBytes 4 tmsp.toNat).reverse else []) extraOffset hbuffer
    rw [hecu] at hpiece
    rw [extraBytes, if_pos hweid]
    exact hpiece
  have hseidRead : isHtyp 3 htyp → slice (copyInto headerbuffer extraOffset (extraBytes htyp ecu
      (leBytes 4 seid.toNat).reverse (leBytes 4 tmsp.toNat).reverse))
        (extraOffset + if isHtyp 2 htyp then 4 else 0) 4 = (leBytes 4 seid.toNat).reverse := by
    intro hwsid
    have hpiece := @slice_copyInto_piece _ headerbuffer (if isHtyp 2 htyp then ecu else [])
      (leBytes 4 seid.toNat).reverse
      (if isHtyp 4 htyp then (leBytes 4 tmsp.toNat).reverse else []) extraOffset hbuffer
    rw [leBytes_reverse_length, length_if _ hecu] at hpiece
    rw [extraBytes, if_pos hwsid]
    exact hpiece
  have htmspRead : isHtyp 4 htyp → slice (copyInto headerbuffer extraOffset (extraBytes htyp ecu
      (leBytes 4 seid.toNat).reverse (leBytes 4 tmsp.toNat).reverse))
        (extraOffset + ((if isHtyp 2 htyp then 4 else 0) + if isHtyp 3 htyp then 4 else 0)) 4 =
          (leBytes 4 tmsp.toNat).reverse := by
    intro hwtms
    have hpiece := @slice_copyInto_piece _ headerbuffer ((if isHtyp 2 htyp then ecu else []) ++
      if isHtyp 3 htyp then (leBytes 4 seid.toNat).reverse else [])
      (leBytes 4 tmsp.toNat).reverse [] extraOffset hbuffer
    rw [leBytes_reverse_length, List.length_append, length_if _ hecu,
      length_if _ (leBytes_reverse_length seid), List.append_nil, List.append_assoc] at hpiece
    rw [extraBytes, if_pos hwtms]
    exact hpiece
  rw [mctMessageGetExtraparameters, HeaderExtra.mk.injEq]
  refine ⟨?_, ?_, ?_⟩
  · split
    · next hweid => exact hecuRead hweid
    · rfl
  · split
    · next hwsid => rw [hseidRead hwsid, beNat32_reverse]
    · rfl
  · split
    · next hwtms => rw [htmspRead hwtms, beNat32_reverse]
    · rfl

theorem roundTrips_iff_palindromic (seid tmsp : UInt32) :
    RoundTrips headerbuffer htyp ⟨ecu, seid.toNat, tmsp.toNat⟩ ↔ Palindromic htyp seid tmsp := by
  have hset := @mctMessageSetExtraparameters_eq headerbuffer htyp ecu hbuffer hecu seid tmsp
  constructor
  · intro h
    have hkept := h.kept
    rw [hset] at hkept
    exact (swapped_eq_iff seid tmsp).mp hkept
  · intro h
    have hkept := (@swapped_eq_iff htyp ecu seid tmsp).mpr h
    refine ⟨?_, ?_, ?_⟩
    · intro old
      rw [hset]
      exact mctMessageGetExtraparameters_extraBytes hbuffer hecu seid tmsp old
    · rw [hset]
      exact hkept
    · rw [hset, hkept, mctMessageSetExtraparameters_eq (le_length_copyInto hbuffer) hecu]
      exact copyInto_again hbuffer

end Fields

end MctDaemon.Shared
