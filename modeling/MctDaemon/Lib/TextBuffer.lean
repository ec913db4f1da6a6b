import MctDaemon.Lib.ByteOrder
import MctDaemon.Lib.TextFile

/-!
Strings in a memory of characters, and `snprintf` to a place in it. A string ends at the first
zero; what is printed behind the start of a string becomes a part of it.
-/

namespace MctDaemon.Lib

/-- `snprintf(mem + off, size, "%s", text)`. -/
def snprintf (mem : List Char) (off size : Nat) (text : List Char) : List Char :=
  if size = 0 then mem else copyInto mem off (text.take (size - 1) ++ ['\x00'])

/-- The string at `mem + off`. -/
def stringAt (mem : List Char) (off : Nat) : List Char := cString (mem.drop off)

section Strings

variable {mem text : List Char} {off size : Nat}

theorem cString_append (h : '\x00' ∉ text) (rest : List Char) :
    cString (text ++ '\x00' :: rest) = text := by
  rw [cString, List.takeWhile_append_of_pos, List.takeWhile_cons_of_neg, List.append_nil]
  · simp
  · intro c hc
    have hne : c ≠ '\x00' := by
      rintro rfl
      exact h hc
    simpa using hne

theorem not_mem_cString (buffer : List Char) : '\x00' ∉ cString buffer := by
  intro h
  simpa using List.mem_takeWhile_imp h

/-- A text that fits, in memory. -/
theorem snprintf_fits (hfits : text.length < size) :
    snprintf mem off size text = copyInto mem off (text ++ ['\x00']) := by
  rw [snprintf, if_neg (by omega), List.take_of_length_le (by omega)]

theorem snprintf_length (hfits : text.length < size) (hroom : off + size ≤ mem.length) :
    (snprintf mem off size text).length = mem.length := by
  rw [snprintf_fits hfits]
  apply copyInto_length
  rw [List.length_append, List.length_singleton]
  omega

/-- Printing leaves what stands in front of it alone. -/
theorem take_snprintf (hoff : off ≤ mem.length) :
    (snprintf mem off size text).take off = mem.take off := by
  rw [snprintf]
  split
  · rfl
  · rw [copyInto, List.append_assoc, List.take_left' (List.length_take_of_le hoff)]

theorem getElem?_snprintf {i : Nat} (hoff : off ≤ mem.length) (hi : i < off) :
    (snprintf mem off size text)[i]? = mem[i]? := by
  have htake := congrArg (·[i]?) (@take_snprintf mem text off size hoff)
  rwa [List.getElem?_take_of_lt hi, List.getElem?_take_of_lt hi] at htake

/-- What is printed ends with a zero. -/
theorem snprintf_zero (hfits : text.length < size) (hoff : off ≤ mem.length) :
    (snprintf mem off size text)[off + text.length]? = some '\x00' := by
  have hlength : (mem.take off ++ text).length = off + text.length := by
    rw [List.length_append, List.length_take_of_le hoff]
  rw [snprintf_fits hfits, copyInto, ← List.append_assoc (mem.take off), ← hlength,
    List.append_assoc, List.getElem?_append_right le_rfl, Nat.sub_self]
  rfl

/-- The string from a place inside of what was printed. -/
theorem stringAt_inside (hfits : text.length < size) (hoff : off ≤ mem.length)
    (htext : '\x00' ∉ text) {k : Nat} (hk : k ≤ text.length) :
    stringAt (snprintf mem off size text) (off + k) = text.drop k := by
  have hlength : (mem.take off).length = off := List.length_take_of_le hoff
  have hrest : '\x00' ∉ text.drop k := fun h => htext (List.mem_of_mem_drop h)
  rw [snprintf_fits hfits, stringAt, copyInto, ← List.drop_drop, List.append_assoc,
    List.drop_left' hlength, List.append_assoc, List.drop_append_of_le_length hk]
  exact cString_append hrest _

/-- The string that was printed. -/
theorem stringAt_snprintf (hfits : text.length < size) (hoff : off ≤ mem.length)
    (htext : '\x00' ∉ text) : stringAt (snprintf mem off size text) off = text :=
  stringAt_inside hfits hoff htext (Nat.zero_le _)

/-- A string goes on behind a part of it without a zero. -/
theorem stringAt_split (hfront : '\x00' ∉ mem.take off) :
    stringAt mem 0 = mem.take off ++ stringAt mem off := by
  conv_lhs => rw [stringAt, List.drop_zero, cString, ← List.take_append_drop off mem]
  rw [List.takeWhile_append_of_pos]
  · rfl
  · intro c hc
    have hne : c ≠ '\x00' := by
      rintro rfl
      exact hfront hc
    simpa using hne

/-- A string ends at a zero or in front of it. -/
theorem length_stringAt_le {k : Nat} (h : mem[k]? = some '\x00') :
    (stringAt mem 0).length ≤ k := by
  rw [stringAt, List.drop_zero, cString]
  by_contra hlong
  have hk : k < (mem.takeWhile fun c => c ≠ '\x00').length := Nat.lt_of_not_le hlong
  have hprefix := List.takeWhile_prefix (l := mem) fun c => decide (c ≠ '\x00')
  have hget := hprefix.getElem hk
  rw [List.getElem?_eq_getElem (hk.trans_le hprefix.length_le), ← hget, Option.some.injEq] at h
  exact not_mem_cString mem (h ▸ List.getElem_mem hk)

theorem length_stringAt (h : off ≤ mem.length) : off + (stringAt mem off).length ≤ mem.length := by
  have hle := (List.takeWhile_prefix (l := mem.drop off) fun c => decide (c ≠ '\x00')).length_le
  rw [List.length_drop] at hle
  change (stringAt mem off).length ≤ _ at hle
  omega

/-- What is printed behind the start of a string. -/
theorem snprintf_behind {front : List Char} (hfront : mem.take front.length = front)
    (hfits : text.length < size) (hroom : front.length + size ≤ mem.length) :
    (snprintf mem front.length size text).take (front.length + text.length) = front ++ text := by
  have hoff : front.length ≤ mem.length := by omega
  have hlength : (mem.take front.length ++ text).length = front.length + text.length := by
    rw [List.length_append, hfront]
  rw [snprintf_fits hfits, copyInto, ← List.append_assoc (mem.take front.length),
    List.append_assoc, List.take_left' hlength, hfront]

/-- The string that is printed behind another one goes on from it. -/
theorem stringAt_snprintf_behind {front : List Char} (hfront : mem.take front.length = front)
    (hzero : '\x00' ∉ front) (htext : '\x00' ∉ text) (hfits : text.length < size)
    (hroom : front.length + size ≤ mem.length) :
    stringAt (snprintf mem front.length size text) 0 = front ++ text := by
  have hoff : front.length ≤ mem.length := by omega
  have htake : (snprintf mem front.length size text).take front.length = front :=
    (take_snprintf hoff).trans hfront
  rw [stringAt_split (htake.symm ▸ hzero), htake, stringAt_snprintf hfits hoff htext]

end Strings

section Behind

variable {mem front text : List Char}

/-- What is behind a zero is no part of a string. -/
theorem cString_append_zero (text rest : List Char) :
    cString (text ++ '\x00' :: rest) = cString text := by
  induction text with
  | nil => rfl
  | cons c text ih =>
      rw [cString, cString, List.cons_append, List.takeWhile_cons, List.takeWhile_cons]
      split
      · exact congrArg (c :: ·) ih
      · rfl

theorem take_of_stringAt (h : stringAt mem 0 = front) : mem.take front.length = front := by
  rw [← h, stringAt, List.drop_zero]
  exact (List.prefix_iff_eq_take.mp (List.takeWhile_prefix _)).symm

theorem not_mem_stringAt (off : Nat) : '\x00' ∉ stringAt mem off := not_mem_cString _

/-- A text that is copied behind a string, with a zero behind it, goes on from the string up to
its first zero. -/
theorem stringAt_copyInto_behind (hfront : stringAt mem 0 = front) :
    stringAt (copyInto mem front.length (text ++ ['\x00'])) front.length = cString text ∧
      stringAt (copyInto mem front.length (text ++ ['\x00'])) 0 = front ++ cString text := by
  have htake := take_of_stringAt hfront
  have hlength : (mem.take front.length).length = front.length := by rw [htake]
  have hvalue : stringAt (copyInto mem front.length (text ++ ['\x00'])) front.length =
      cString text := by
    rw [stringAt, copyInto, List.append_assoc, List.drop_left' hlength, List.append_assoc]
    exact cString_append_zero _ _
  have hstart : (copyInto mem front.length (text ++ ['\x00'])).take front.length = front := by
    rw [copyInto, List.append_assoc, List.take_left' hlength, htake]
  have hclean : '\x00' ∉ (copyInto mem front.length (text ++ ['\x00'])).take front.length := by
    rw [hstart, ← hfront]
    exact not_mem_stringAt 0
  refine ⟨hvalue, ?_⟩
  rw [stringAt_split hclean, hstart, hvalue]

/-- A part of a string is the string from its place on. -/
theorem stringAt_part (h : stringAt mem 0 = front ++ text) : stringAt mem front.length = text := by
  have htake : mem.take front.length = front := by
    have hwhole := congrArg (List.take front.length) (take_of_stringAt h)
    rw [List.take_take, List.length_append, Nat.min_eq_left (Nat.le_add_right _ _),
      List.take_left] at hwhole
    exact hwhole
  have hsplit := @stringAt_split mem front.length (by
    rw [htake]
    intro hzero
    exact not_mem_stringAt 0 (h ▸ List.mem_append_left text hzero))
  rw [htake, h] at hsplit
  exact (List.append_cancel_left hsplit).symm

/-- What is printed behind a string, if there is room for it. -/
theorem snprintf_goes_on {size : Nat} (hfront : stringAt mem 0 = front) (htext : '\x00' ∉ text)
    (hfits : text.length < size) (hroom : front.length + text.length < mem.length) :
    stringAt (snprintf mem front.length size text) front.length = text ∧
      stringAt (snprintf mem front.length size text) 0 = front ++ text ∧
        (snprintf mem front.length size text).length = mem.length := by
  obtain ⟨hbehind, hwhole⟩ := @stringAt_copyInto_behind mem front text hfront
  rw [cString_eq_self htext] at hbehind hwhole
  rw [snprintf_fits hfits]
  refine ⟨hbehind, hwhole, copyInto_length _ _ _ ?_⟩
  rw [List.length_append, List.length_singleton]
  omega

end Behind

end MctDaemon.Lib
