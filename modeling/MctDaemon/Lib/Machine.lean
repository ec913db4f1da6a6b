import Mathlib.Tactic

/-!
Fixed-width conversions and flat memory, as a C program on a 32-bit `int`
target sees them. Integers are unbounded; a conversion is applied where the
program converts, so that overflow is visible in the terms. Memory is a list
of cells and a copy replaces a segment of it.
-/

namespace MctDaemon.Lib

/-- Conversion to a 32-bit two's complement `int`. -/
@[irreducible] def int32 (x : Int) : Int := (x + 2147483648) % 4294967296 - 2147483648

/-- Conversion to a 32-bit `unsigned int`. -/
@[irreducible] def uint32 (x : Int) : Nat := (x % 4294967296).toNat

@[simp] theorem int32_of_small {x : Int} (hlow : -2147483648 ≤ x)
    (hhigh : x < 2147483648) : int32 x = x := by
  unfold int32
  omega

@[simp] theorem uint32_of_small {x : Int} (hlow : 0 ≤ x)
    (hhigh : x < 4294967296) : uint32 x = x.toNat := by
  unfold uint32
  omega

theorem uint32_natCast {n : Nat} (h : n < 4294967296) : uint32 (n : Int) = n := by
  rw [uint32_of_small (by omega) (by omega)]
  omega

theorem int32_natCast {n : Nat} (h : n < 2147483648) : int32 (n : Int) = n :=
  int32_of_small (by omega) (by omega)

section Bytes

/-- Little-endian layout of a number in `width` bytes. -/
def leBytes : Nat → Nat → List UInt8
  | 0, _ => []
  | width + 1, n => (n % 256).toUInt8 :: leBytes width (n / 256)

/-- The number a little-endian byte string denotes. -/
def leNat : List UInt8 → Nat
  | [] => 0
  | b :: bs => b.toNat + 256 * leNat bs

@[simp] theorem leBytes_length (width n : Nat) : (leBytes width n).length = width := by
  induction width generalizing n with
  | zero => rfl
  | succ width ih => simp [leBytes, ih]

theorem leNat_leBytes (width n : Nat) (h : n < 256 ^ width) :
    leNat (leBytes width n) = n := by
  induction width generalizing n with
  | zero =>
      simp only [pow_zero, Nat.lt_one_iff] at h
      simp [leBytes, leNat, h]
  | succ width ih =>
      have hdiv : n / 256 < 256 ^ width := by
        rw [pow_succ] at h
        omega
      have hbyte : (n % 256).toUInt8.toNat = n % 256 := by
        simp [Nat.toUInt8, UInt8.toNat_ofNat']
      simp only [leBytes, leNat, ih _ hdiv, hbyte]
      omega

end Bytes

section Memory

variable {α : Type*}

/-- `memcpy(mem + off, data, |data|)`. -/
def copyInto (mem : List α) (off : Nat) (data : List α) : List α :=
  mem.take off ++ data ++ mem.drop (off + data.length)

/-- The `len` cells at `mem + off`. -/
def slice (mem : List α) (off len : Nat) : List α :=
  (mem.drop off).take len

theorem copyInto_length (mem : List α) (off : Nat) (data : List α)
    (h : off + data.length ≤ mem.length) :
    (copyInto mem off data).length = mem.length := by
  simp only [copyInto, List.length_append, List.length_take, List.length_drop]
  omega

@[simp] theorem copyInto_nil (mem : List α) (off : Nat) :
    copyInto mem off [] = mem := by
  simp [copyInto]

theorem slice_length (mem : List α) (off len : Nat) (h : off + len ≤ mem.length) :
    (slice mem off len).length = len := by
  simp only [slice, List.length_take, List.length_drop]
  omega

@[simp] theorem slice_zero (mem : List α) (len : Nat) : slice mem 0 len = mem.take len := by
  simp [slice]

/-- What was just copied is what stands there. -/
theorem slice_copyInto_self (mem : List α) (off : Nat) (data : List α)
    (h : off ≤ mem.length) : slice (copyInto mem off data) off data.length = data := by
  simp only [slice, copyInto, List.append_assoc]
  rw [List.drop_append_of_le_length (by simp [h]), List.drop_eq_nil_of_le (by simp)]
  simp

/-- A copy right behind a prefix extends the prefix. -/
theorem take_copyInto_append (mem : List α) (off : Nat) (data : List α)
    (hoff : off ≤ mem.length) :
    (copyInto mem off data).take (off + data.length) = mem.take off ++ data := by
  simp only [copyInto]
  rw [List.take_append_of_le_length (by simp [hoff])]
  rw [List.take_of_length_le (by simp)]

theorem slice_eq_drop_take (mem : List α) (off stop : Nat) :
    slice mem off (stop - off) = (mem.take stop).drop off := by
  simp only [slice, List.drop_take]

theorem drop_slice (mem : List α) (off len n : Nat) :
    (slice mem off len).drop n = slice mem (off + n) (len - n) := by
  simp only [slice, List.drop_take, List.drop_drop]

/-- A copy leaves the cells behind it alone. -/
theorem slice_copyInto_behind (mem : List α) (off len : Nat) (data : List α)
    (h : off ≤ mem.length) :
    slice (copyInto mem off data) (off + data.length) len = slice mem (off + data.length) len := by
  have hfront : (mem.take off ++ data).length = off + data.length := by simp [h]
  simp only [slice, copyInto]
  rw [List.drop_append, List.drop_eq_nil_of_le hfront.le, List.nil_append, hfront, Nat.sub_self,
    List.drop_zero]

end Memory

/-- What an allocator answers: no block, or a block of the requested size
whose cells hold anything. -/
structure Malloc where
  block : Nat → Option (List UInt8)
  length_eq : ∀ n cells, block n = some cells → cells.length = n

/-- An allocator that never fails and hands out cleared blocks. -/
def Malloc.zeroed : Malloc where
  block n := some (List.replicate n 0)
  length_eq := by
    intro n cells h
    cases h
    exact List.length_replicate

end MctDaemon.Lib
