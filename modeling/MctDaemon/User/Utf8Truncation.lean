import MctDaemon.Lib.Utf8
import MctDaemon.User.BufferBound
import Mathlib.Data.List.GetD

/-!
A UTF-8 text that does not fit. It is cut where `reduce_size`, from the last three bytes of
the part that would fit, says that a character begins. That is the longest part of whole
characters, unless so little fits that the last three bytes begin in front of the text.
-/

namespace MctDaemon.User

open Lib Shared

section Reads

/-- The places of a UTF-8 text that are looked at for the cut. -/
def cutReads (text : Text) (maxPayload : Nat) : List Int :=
  let last := text.at ((maxPayload : Int) - 1)
  if last &&& 0x80 ≠ 0 ∧ last &&& 0x40 = 0 then
    if text.at ((maxPayload : Int) - 2) &&& 0xe0 = 0xe0 then
      [(maxPayload : Int) - 1, (maxPayload : Int) - 2]
    else [(maxPayload : Int) - 1, (maxPayload : Int) - 2, (maxPayload : Int) - 3]
  else [(maxPayload : Int) - 1]

/-- The bytes of a UTF-8 text that `mct_user_log_write_sized_string_utils_attr` reads, as starts
and numbers. -/
def textReads (user : MctUser) (log : MctContextData) (text : Text) (length : UInt16)
    (name : Option (List UInt8)) (withVarInfo : Bool) : List (Int × Nat) :=
  let overhead := stringOverhead (isVerboseMode user log) name withVarInfo
  if ¬ user.initialised then []
  else if log.size + (length + 1).toNat + overhead > user.logBufLen.toNat then
    let minPayload := log.size + strTruncateMessageLength + overhead
    if minPayload > user.logBufLen.toNat then []
    else
      let maxPayload := user.logBufLen.toNat - minPayload
      let copied :=
        (((maxPayload : Int) - reduceSize text .utf8 maxPayload) % 18446744073709551616).toNat
      (cutReads text maxPayload).map (fun i => (i, 1)) ++ [(0, copied)]
  else [(0, length.toNat)]

end Reads

section Reduce

variable {first second third : UInt8}

theorem reduce_ascii (h : third &&& 0x80 = 0) : utf8ReduceSize first second third = 0 := by
  unfold utf8ReduceSize
  rw [if_neg (not_not.mpr h)]

theorem lead_bits : ∀ b : UInt8, b &&& 0xc0 = 0xc0 → b &&& 0x80 ≠ 0 ∧ b &&& 0x40 ≠ 0 := by
  apply forall_byte
  decide +kernel

theorem continuation_bits : ∀ b : UInt8, IsContinuation b →
    b &&& 0x80 ≠ 0 ∧ b &&& 0x40 = 0 ∧ b &&& 0xe0 ≠ 0xe0 ∧ b &&& 0xf0 ≠ 0xf0 := by
  apply forall_byte
  decide +kernel

/-- The last byte is the first one of a character. -/
theorem reduce_lead (h : third &&& 0xc0 = 0xc0) : utf8ReduceSize first second third = 1 := by
  obtain ⟨hhigh, hlow⟩ := lead_bits third h
  unfold utf8ReduceSize
  rw [if_pos hhigh, if_pos hlow]

/-- The byte in front of the last one is the first one of a character of three or four bytes. -/
theorem reduce_second (h : IsContinuation third) (hsecond : second &&& 0xe0 = 0xe0) :
    utf8ReduceSize first second third = 2 := by
  obtain ⟨hhigh, hlow, -⟩ := continuation_bits third h
  unfold utf8ReduceSize
  rw [if_pos hhigh, if_neg (not_not.mpr hlow), if_pos hsecond]

/-- The first of the three bytes is the first one of a character of four bytes. -/
theorem reduce_third (h : IsContinuation third) (hsecond : second &&& 0xe0 ≠ 0xe0)
    (hfirst : first &&& 0xf0 = 0xf0) : utf8ReduceSize first second third = 3 := by
  obtain ⟨hhigh, hlow, -⟩ := continuation_bits third h
  unfold utf8ReduceSize
  rw [if_pos hhigh, if_neg (not_not.mpr hlow), if_neg hsecond, if_pos hfirst]

theorem reduce_whole (h : IsContinuation third) (hsecond : second &&& 0xe0 ≠ 0xe0)
    (hfirst : first &&& 0xf0 ≠ 0xf0) : utf8ReduceSize first second third = 0 := by
  obtain ⟨hhigh, hlow, -⟩ := continuation_bits third h
  unfold utf8ReduceSize
  rw [if_pos hhigh, if_neg (not_not.mpr hlow), if_neg hsecond, if_neg hfirst]

end Reduce

section Cut

variable {text : Text} {front char rest : List UInt8}

/-- A place `j` bytes in front of `m`, behind the first bytes of the text. -/
theorem at_sub (h : text.bytes = front ++ rest) {m i j : Nat} (hm : m = front.length + i + j) :
    text.at ((m : Int) - j) = rest.getD i 0 := by
  have hplace : (m : Int) - j = Int.ofNat (front.length + i) := by
    rw [hm, Nat.cast_add]
    exact Int.add_sub_cancel _ _
  rw [hplace, Text.at, h, List.getD_append_right _ _ _ _ (Nat.le_add_right _ _),
    Nat.add_sub_cancel_left]

/-- The last byte of a character is not the first one of four. -/
theorem last_byte (h : IsUtf8Char char) : ∃ init b, char = init ++ [b] ∧ b &&& 0xf0 ≠ 0xf0 := by
  have hascii : ∀ b : UInt8, b &&& 0x80 = 0 → b &&& 0xf0 ≠ 0xf0 := by
    apply forall_byte
    decide +kernel
  cases h with
  | @one a ha => exact ⟨[], a, rfl, hascii a ha⟩
  | @two a b ha hb => exact ⟨[a], b, rfl, (continuation_bits b hb).2.2.2⟩
  | @three a b c ha hb hc => exact ⟨[a, b], c, rfl, (continuation_bits c hc).2.2.2⟩
  | @four a b c d ha hb hc hd => exact ⟨[a, b, c], d, rfl, (continuation_bits d hd).2.2.2⟩

theorem lead_two : ∀ b : UInt8, b &&& 0xe0 = 0xc0 → b &&& 0xc0 = 0xc0 ∧ b &&& 0xe0 ≠ 0xe0 := by
  apply forall_byte
  decide +kernel

theorem lead_three : ∀ b : UInt8, b &&& 0xf0 = 0xe0 →
    b &&& 0xc0 = 0xc0 ∧ b &&& 0xe0 = 0xe0 ∧ b &&& 0xf0 ≠ 0xf0 := by
  apply forall_byte
  decide +kernel

theorem lead_four : ∀ b : UInt8, b &&& 0xf8 = 0xf0 →
    b &&& 0xc0 = 0xc0 ∧ b &&& 0xe0 = 0xe0 ∧ b &&& 0xf0 = 0xf0 := by
  apply forall_byte
  decide +kernel

variable {m : Nat}

theorem reduceSize_eq {first second third : UInt8} (hfirst : text.at ((m : Int) - 3) = first)
    (hsecond : text.at ((m : Int) - 2) = second) (hthird : text.at ((m : Int) - 1) = third) :
    reduceSize text .utf8 m = utf8ReduceSize first second third := by
  rw [reduceSize, hfirst, hsecond, hthird]

/-- The places that are looked at are in the text if it has three bytes up to there, or if the
look stops before it leaves it. -/
theorem cutReads_inside (hone : 1 ≤ m)
    (htwo : 2 ≤ m ∨ ¬ (text.at ((m : Int) - 1) &&& 0x80 ≠ 0 ∧ text.at ((m : Int) - 1) &&& 0x40 = 0))
    (hthree : 3 ≤ m ∨ text.at ((m : Int) - 2) &&& 0xe0 = 0xe0 ∨
      ¬ (text.at ((m : Int) - 1) &&& 0x80 ≠ 0 ∧ text.at ((m : Int) - 1) &&& 0x40 = 0)) :
    ∀ i ∈ cutReads text m, 0 ≤ i := by
  intro i hi
  unfold cutReads at hi
  simp only at hi
  split at hi
  · next hcontinues =>
      have htwo := htwo.resolve_right (not_not.mpr hcontinues)
      split at hi
      · simp only [List.mem_cons, List.not_mem_nil, or_false] at hi
        omega
      · next hsecond =>
          have hthree := (hthree.resolve_right fun h =>
            h.elim hsecond fun h => h hcontinues)
          simp only [List.mem_cons, List.not_mem_nil, or_false] at hi
          omega
  · rw [List.mem_singleton] at hi
    omega

/-- Inside a character the bytes of it that would fit are left out. -/
theorem reduce_inside (h : text.bytes = front ++ (char ++ rest)) (hchar : IsUtf8Char char)
    {o : Nat} (hpos : 0 < o) (hlt : o < char.length) :
    reduceSize text .utf8 (front.length + o) = o ∧
      ∀ i ∈ cutReads text (front.length + o), 0 ≤ i := by
  have hat : ∀ i j, o = i + j → text.at (((front.length + o : Nat) : Int) - j) =
      (char ++ rest).getD i 0 := fun i j ho => at_sub h (by omega)
  have hlead : ∀ {a : UInt8} {tail : List UInt8}, char = a :: tail → a &&& 0xc0 = 0xc0 → o = 1 →
      reduceSize text .utf8 (front.length + o) = o ∧
        ∀ i ∈ cutReads text (front.length + o), 0 ≤ i := by
    intro a tail hcharEq ha ho
    have hlast : text.at (((front.length + o : Nat) : Int) - 1) = a := by
      have hplace := hat 0 1 ho
      rw [hcharEq] at hplace
      exact hplace
    obtain ⟨-, hlow⟩ := lead_bits a ha
    constructor
    · rw [reduceSize, hlast, reduce_lead ha, ho]
    · refine cutReads_inside (by omega) (.inr ?_) (.inr (.inr ?_))
      · rw [hlast]
        exact fun hcontinues => hlow hcontinues.2
      · rw [hlast]
        exact fun hcontinues => hlow hcontinues.2
  have hsecond : ∀ {a b : UInt8} {tail : List UInt8}, char = a :: b :: tail →
      a &&& 0xe0 = 0xe0 → IsContinuation b → o = 2 →
      reduceSize text .utf8 (front.length + o) = o ∧
        ∀ i ∈ cutReads text (front.length + o), 0 ≤ i := by
    intro a b tail hcharEq ha hb ho
    have hlast : text.at (((front.length + o : Nat) : Int) - 1) = b := by
      have hplace := hat 1 1 ho
      rw [hcharEq] at hplace
      exact hplace
    have hbefore : text.at (((front.length + o : Nat) : Int) - 2) = a := by
      have hplace := hat 0 2 ho
      rw [hcharEq] at hplace
      exact hplace
    constructor
    · rw [reduceSize, hlast, hbefore, reduce_second hb ha, ho]
    · exact cutReads_inside (by omega) (.inl (by omega)) (.inr (.inl (hbefore ▸ ha)))
  cases hchar with
  | one ha =>
      simp only [List.length_cons, List.length_nil] at hlt
      omega
  | two ha hb =>
      simp only [List.length_cons, List.length_nil] at hlt
      exact hlead rfl (lead_two _ ha).1 (by omega)
  | three ha hb hc =>
      obtain ⟨hlow, hhigh, -⟩ := lead_three _ ha
      simp only [List.length_cons, List.length_nil] at hlt
      rcases (by omega : o = 1 ∨ o = 2) with ho | ho
      · exact hlead rfl hlow ho
      · exact hsecond rfl hhigh hb ho
  | @four a b c d ha hb hc hd =>
      obtain ⟨hlow, hhigh, hfour⟩ := lead_four _ ha
      simp only [List.length_cons, List.length_nil] at hlt
      rcases (by omega : o = 1 ∨ o = 2 ∨ o = 3) with ho | ho | ho
      · exact hlead rfl hlow ho
      · exact hsecond rfl hhigh hb ho
      · have hlast : text.at (((front.length + o : Nat) : Int) - 1) = c := hat 2 1 ho
        have hbefore : text.at (((front.length + o : Nat) : Int) - 2) = b := hat 1 2 ho
        have hfirst : text.at (((front.length + o : Nat) : Int) - 3) = a := hat 0 3 ho
        constructor
        · rw [reduceSize_eq hfirst hbefore hlast,
            reduce_third hc (continuation_bits b hb).2.2.1 hfour, ho]
        · exact cutReads_inside (by omega) (.inl (by omega)) (.inl (by omega))

/-- Behind a character nothing is left out, if a byte of the text stands in front of one of two
bytes. -/
theorem reduce_behind (h : text.bytes = front ++ (char ++ rest)) (hchar : IsUtf8Char char)
    (hfront : char.length = 2 → ∃ init b, front = init ++ [b] ∧ b &&& 0xf0 ≠ 0xf0) :
    reduceSize text .utf8 (front.length + char.length) = 0 ∧
      ∀ i ∈ cutReads text (front.length + char.length), 0 ≤ i := by
  have hat : ∀ i j, char.length = i + j →
      text.at (((front.length + char.length : Nat) : Int) - j) = (char ++ rest).getD i 0 :=
    fun i j hlength => at_sub h (by omega)
  cases hchar with
  | @one a ha =>
      have hlast : text.at (((front.length + 1 : Nat) : Int) - 1) = a := hat 0 1 rfl
      constructor
      · exact (congrArg (utf8ReduceSize _ _) hlast).trans (reduce_ascii ha)
      · refine cutReads_inside (by simp) (.inr ?_) (.inr (.inr ?_))
        · exact fun hcontinues => hcontinues.1 (hlast.symm ▸ ha)
        · exact fun hcontinues => hcontinues.1 (hlast.symm ▸ ha)
  | @two a b ha hb =>
      obtain ⟨init, last, rfl, hinit⟩ := hfront rfl
      have hlast : text.at ((((init ++ [last]).length + 2 : Nat) : Int) - 1) = b := hat 1 1 rfl
      have hbefore : text.at ((((init ++ [last]).length + 2 : Nat) : Int) - 2) = a := hat 0 2 rfl
      have hthird : text.at ((((init ++ [last]).length + 2 : Nat) : Int) - 3) = last := by
        rw [List.append_assoc] at h
        exact at_sub h (by simp : _ = init.length + 0 + 3)
      constructor
      · exact (reduceSize_eq hthird hbefore hlast).trans (reduce_whole hb (lead_two a ha).2 hinit)
      · rw [List.length_append, List.length_singleton]
        exact cutReads_inside (by simp) (.inl (by simp)) (.inl (by simp))
  | @three a b c ha hb hc =>
      have hlast : text.at (((front.length + 3 : Nat) : Int) - 1) = c := hat 2 1 rfl
      have hbefore : text.at (((front.length + 3 : Nat) : Int) - 2) = b := hat 1 2 rfl
      have hthird : text.at (((front.length + 3 : Nat) : Int) - 3) = a := hat 0 3 rfl
      constructor
      · exact (reduceSize_eq hthird hbefore hlast).trans
          (reduce_whole hc (continuation_bits b hb).2.2.1 (lead_three a ha).2.2)
      · exact cutReads_inside (by simp) (.inl (by simp)) (.inl (by simp))
  | @four a b c d ha hb hc hd =>
      have hlast : text.at (((front.length + 4 : Nat) : Int) - 1) = d := hat 3 1 rfl
      have hbefore : text.at (((front.length + 4 : Nat) : Int) - 2) = c := hat 2 2 rfl
      have hthird : text.at (((front.length + 4 : Nat) : Int) - 3) = b := hat 1 3 rfl
      constructor
      · exact (reduceSize_eq hthird hbefore hlast).trans
          (reduce_whole hd (continuation_bits c hc).2.2.1 (continuation_bits b hb).2.2.2)
      · exact cutReads_inside (by simp) (.inl (by simp)) (.inl (by simp))

/-- The first character has two bytes, and just these would fit. -/
def StartsWithTwo (chars : List Char) (room : Nat) : Prop :=
  room = 2 ∧ ∃ c ∈ chars.head?, c.utf8Size = 2

/-- The bytes that are left out are those behind the last whole character. -/
theorem reduce_cut {cut back : List Char} {c : Char} {behind : List UInt8} {room : Nat}
    (h : text.bytes = utf8Bytes (cut ++ c :: back) ++ behind)
    (hfits : (utf8Bytes cut).length ≤ room)
    (hover : room < (utf8Bytes cut).length + (String.utf8EncodeChar c).length)
    (hne : room ≠ 0) (htwo : ¬ StartsWithTwo (cut ++ c :: back) room) :
    reduceSize text .utf8 room = room - (utf8Bytes cut).length ∧
      ∀ i ∈ cutReads text room, 0 ≤ i := by
  rw [utf8Bytes_append, utf8Bytes_cons, List.append_assoc, List.append_assoc] at h
  obtain ⟨o, rfl⟩ := Nat.exists_eq_add_of_le hfits
  rw [Nat.add_sub_cancel_left]
  rcases Nat.eq_zero_or_pos o with rfl | hpos
  · rcases List.eq_nil_or_concat' cut with rfl | ⟨init, d, rfl⟩
    · exact absurd rfl hne
    · rw [utf8Bytes_append, utf8Bytes_cons, utf8Bytes_nil, List.append_nil, List.append_assoc] at h
      have hlength : (utf8Bytes (init ++ [d])).length + 0 =
          (utf8Bytes init).length + (String.utf8EncodeChar d).length := by
        rw [utf8Bytes_append, utf8Bytes_cons, utf8Bytes_nil, List.append_nil, List.length_append,
          Nat.add_zero]
      rw [hlength] at htwo ⊢
      apply reduce_behind h (isUtf8Char_encode d)
      intro hsize
      rcases List.eq_nil_or_concat' init with rfl | ⟨init, e, rfl⟩
      · refine absurd ⟨?_, d, rfl, ?_⟩ htwo
        · rw [utf8Bytes_nil, List.length_nil, Nat.zero_add, hsize]
        · rw [← String.length_utf8EncodeChar, hsize]
      · obtain ⟨front, b, hb, hbits⟩ := last_byte (isUtf8Char_encode e)
        refine ⟨utf8Bytes init ++ front, b, ?_, hbits⟩
        rw [utf8Bytes_append, utf8Bytes_cons, utf8Bytes_nil, List.append_nil, hb, List.append_assoc]
  · exact reduce_inside h (isUtf8Char_encode c) hpos (by omega)

/-- Where nothing or just a character of two bytes would fit, a byte in front of the text is
looked at. -/
theorem cutReads_outside {chars : List Char} {behind : List UInt8} {room : Nat}
    (h : text.bytes = utf8Bytes chars ++ behind) (hroom : room = 0 ∨ StartsWithTwo chars room) :
    ∃ i ∈ cutReads text room, i < 0 := by
  have hlast : ∀ room : Nat, (room : Int) - 1 ∈ cutReads text room := by
    intro room
    unfold cutReads
    simp only
    split
    · split
      · exact List.mem_cons_self
      · exact List.mem_cons_self
    · exact List.mem_cons_self
  rcases hroom with rfl | ⟨rfl, c, hc, hsize⟩
  · exact ⟨_, hlast 0, by decide⟩
  · obtain ⟨rest, rfl⟩ : ∃ rest, chars = c :: rest := by
      cases chars with
      | nil => cases hc
      | cons d rest => exact ⟨rest, by rw [Option.some.inj hc]⟩
    rw [utf8Bytes_cons, List.append_assoc] at h
    have hchar := isUtf8Char_encode c
    have hlength := String.length_utf8EncodeChar c
    rw [hsize] at hlength
    generalize String.utf8EncodeChar c = char at h hchar hlength
    cases hchar with
    | one ha => cases hlength
    | three ha hb hc => cases hlength
    | four ha hb hc hd => cases hlength
    | @two a b ha hb =>
        have hthird : text.at (((2 : Nat) : Int) - 1) = b := @at_sub text [] _ h 2 1 1 rfl
        have hsecond : text.at (((2 : Nat) : Int) - 2) = a := @at_sub text [] _ h 2 0 2 rfl
        obtain ⟨hhigh, hlow, -⟩ := continuation_bits b hb
        refine ⟨-1, ?_, by decide⟩
        unfold cutReads
        simp only [hthird, hsecond]
        rw [if_pos ⟨hhigh, hlow⟩, if_neg (lead_two a ha).2]
        simp

end Cut

namespace Writing

variable {w : Writing} {src : List UInt8} {n : Nat}

def message (w : Writing) : List UInt8 := w.log.buffer.take w.log.size

@[simp] theorem countArgument_message (w : Writing) : w.countArgument.message = w.message := rfl

/-- A copy that fits is put behind the message. -/
theorem append_message (hn : n ≤ src.length) (hroom : w.log.size + n ≤ w.log.buffer.length) :
    (w.append src n).message = w.message ++ src.take n ∧
      (w.append src n).log.buffer.length = w.log.buffer.length := by
  have hlength : (src.take n).length = n := List.length_take_of_le hn
  constructor
  · have htake := take_copyInto_append w.log.buffer w.log.size (src.take n) (by omega)
    rw [hlength] at htake
    exact htake
  · exact copyInto_length _ _ _ (by rw [hlength]; exact hroom)

def stringHeader (verbose : Bool) (argSize : Nat) (name : Option (List UInt8))
    (withVarInfo : Bool) : List UInt8 :=
  (if verbose then leBytes 4 (stringTypeInfo .utf8 withVarInfo).toNat else []) ++
    leBytes 2 argSize ++
      if verbose ∧ withVarInfo then
        leBytes 2 (attributeSize name) ++ (attributeBytes name).take (attributeSize name)
      else []

variable {verbose withVarInfo : Bool} {argSize : Nat} {name : Option (List UInt8)}

theorem appendAttribute_message (hroom : w.log.size + attributeSize name ≤ w.log.buffer.length) :
    (w.appendAttribute name).message =
        w.message ++ (attributeBytes name).take (attributeSize name) ∧
      (w.appendAttribute name).log.buffer.length = w.log.buffer.length := by
  unfold appendAttribute
  split
  · refine append_message ?_ hroom
    cases name with
    | none => exact Nat.zero_le _
    | some name =>
        simp only [attributeSize, attributeBytes, strlen, List.length_append, List.length_singleton]
        exact Nat.mod_le _ _
  · next hzero =>
      rw [not_not.mp hzero, List.take_zero, List.append_nil]
      exact ⟨rfl, rfl⟩

theorem appendName_message (hroom : w.log.size + (2 + attributeSize name) ≤ w.log.buffer.length) :
    (w.appendName name).message = w.message ++
        (leBytes 2 (attributeSize name) ++ (attributeBytes name).take (attributeSize name)) ∧
      (w.appendName name).log.buffer.length = w.log.buffer.length := by
  obtain ⟨hsize, hlength⟩ := @append_message w (leBytes 2 (attributeSize name)) 2 (by simp)
    (by omega)
  obtain ⟨htext, hlength'⟩ := @appendAttribute_message
    (w.append (leBytes 2 (attributeSize name)) 2) name (by rw [append_size, hlength]; omega)
  refine ⟨?_, hlength'.trans hlength⟩
  rw [appendName, htext, hsize, List.take_of_length_le (by simp), List.append_assoc]

/-- The header of a string is put behind the message. -/
theorem appendStringHeader_message
    (hroom : w.log.size + stringOverhead verbose name withVarInfo ≤ w.log.buffer.length) :
    (w.appendStringHeader verbose .utf8 argSize name withVarInfo).message =
        w.message ++ stringHeader verbose argSize name withVarInfo ∧
      (w.appendStringHeader verbose .utf8 argSize name withVarInfo).log.buffer.length =
        w.log.buffer.length := by
  have hsizes : stringOverhead verbose name withVarInfo = (if verbose then 4 else 0) +
      (2 + if verbose ∧ withVarInfo then 2 + attributeSize name else 0) := by
    unfold stringOverhead
    cases verbose with
    | false => rfl
    | true =>
        simp only [if_true, true_and]
        omega
  rw [hsizes] at hroom
  have htype : ∃ w' : Writing, (if verbose then
        w.append (leBytes 4 (stringTypeInfo .utf8 withVarInfo).toNat) 4 else w) = w' ∧
      w'.message = w.message ++
        (if verbose then leBytes 4 (stringTypeInfo .utf8 withVarInfo).toNat else []) ∧
      w'.log.size = w.log.size + (if verbose then 4 else 0) ∧
      w'.log.buffer.length = w.log.buffer.length := by
    refine ⟨_, rfl, ?_⟩
    cases verbose with
    | false => exact ⟨(List.append_nil _).symm, rfl, rfl⟩
    | true =>
        obtain ⟨hmessage, hlength⟩ := @append_message w
          (leBytes 4 (stringTypeInfo .utf8 withVarInfo).toNat) 4 (by simp)
          (by simp only [if_true] at hroom; omega)
        rw [List.take_of_length_le (by simp)] at hmessage
        exact ⟨hmessage, rfl, hlength⟩
  obtain ⟨w', hw', hmessage, hsize, hlength⟩ := htype
  obtain ⟨hmessage', hlength'⟩ := @append_message w' (leBytes 2 argSize) 2 (by simp) (by omega)
  rw [List.take_of_length_le (by simp)] at hmessage'
  have hsize' : (w'.append (leBytes 2 argSize) 2).log.size = w'.log.size + 2 := rfl
  simp only [appendStringHeader, hw', stringHeader]
  split
  · next hname =>
      rw [if_pos hname] at hroom
      obtain ⟨hmessage'', hlength''⟩ := @appendName_message (w'.append (leBytes 2 argSize) 2) name
        (by omega)
      refine ⟨?_, hlength''.trans (hlength'.trans hlength)⟩
      rw [hmessage'', hmessage', hmessage]
      simp only [List.append_assoc]
  · refine ⟨?_, hlength'.trans hlength⟩
    rw [hmessage', hmessage]
    simp only [List.append_assoc, List.append_nil]

end Writing

section Truncation

variable {user : MctUser} {log : MctContextData} {text : Text} {length : UInt16}
  {name : Option (List UInt8)} {withVarInfo : Bool} {chars : List Char} {behind : List UInt8}

/-- What the buffer can take of a text beside the message about the truncation. -/
def textRoom (user : MctUser) (log : MctContextData) (name : Option (List UInt8))
    (withVarInfo : Bool) : Nat :=
  user.logBufLen.toNat -
    (log.size + strTruncateMessageLength + stringOverhead (isVerboseMode user log) name withVarInfo)

/-- The longest part of whole characters that leaves room for the marker is stored, and the
marker behind it; their number is the length of the argument, and only the text is read. -/
def StoresCut (user : MctUser) (log : MctContextData) (text : Text) (length : UInt16)
    (name : Option (List UInt8)) (withVarInfo : Bool) (chars : List Char) : Prop :=
  let verbose := isVerboseMode user log
  let w := (mctUserLogWriteSizedStringUtilsAttr user log (some text) length .utf8 name
    withVarInfo).2
  ∃ cut, IsCut chars cut (textRoom user log name withVarInfo) ∧
    w.message = log.buffer.take log.size ++
      Writing.stringHeader verbose ((utf8Bytes cut).length + strTruncateMessageLength) name
        withVarInfo ++ (utf8Bytes cut ++ (strTruncatedMessage ++ [0])) ∧
    w.log.size = log.size + stringOverhead verbose name withVarInfo +
      ((utf8Bytes cut).length + strTruncateMessageLength) ∧
    w.log.size ≤ user.logBufLen.toNat ∧
    ∀ read ∈ textReads user log text length name withVarInfo,
      0 ≤ read.1 ∧ read.1 + read.2 ≤ length.toNat

theorem cutReads_le {text : Text} {m : Nat} : ∀ i ∈ cutReads text m, i < m := by
  intro i hi
  unfold cutReads at hi
  simp only at hi
  split at hi
  · split at hi
    · simp only [List.mem_cons, List.not_mem_nil, or_false] at hi
      omega
    · simp only [List.mem_cons, List.not_mem_nil, or_false] at hi
      omega
  · rw [List.mem_singleton] at hi
    omega

/-- What is read of a text that does not fit. -/
theorem textReads_truncated (hinit : user.initialised) (hlength : length ≠ 65535)
    (hfull : user.logBufLen.toNat < log.size + (length.toNat + 1) +
      stringOverhead (isVerboseMode user log) name withVarInfo)
    (hmarker : log.size + strTruncateMessageLength +
      stringOverhead (isVerboseMode user log) name withVarInfo ≤ user.logBufLen.toNat) :
    textReads user log text length name withVarInfo =
      (cutReads text (textRoom user log name withVarInfo)).map (fun i => (i, 1)) ++
        [(0, (((textRoom user log name withVarInfo : Int) -
          reduceSize text .utf8 (textRoom user log name withVarInfo)) %
            18446744073709551616).toNat)] := by
  dsimp only [textReads]
  rw [if_neg (not_not.mpr hinit), length_succ hlength, if_pos hfull, if_neg (not_lt.mpr hmarker),
    ← textRoom]

/-- What the function does with a text that does not fit. -/
theorem write_truncated (hinit : user.initialised) (hlength : length ≠ 65535)
    (hfull : user.logBufLen.toNat < log.size + (length.toNat + 1) +
      stringOverhead (isVerboseMode user log) name withVarInfo)
    (hmarker : log.size + strTruncateMessageLength +
      stringOverhead (isVerboseMode user log) name withVarInfo ≤ user.logBufLen.toNat)
    {kept : Nat} (hkept : reduceSize text .utf8 (textRoom user log name withVarInfo) + kept =
      textRoom user log name withVarInfo) :
    (mctUserLogWriteSizedStringUtilsAttr user log (some text) length .utf8 name withVarInfo).2 =
        ((((⟨log, []⟩ : Writing).appendStringHeader (isVerboseMode user log) .utf8
          (kept + strTruncateMessageLength) name withVarInfo).append text.bytes kept).append
          (strTruncatedMessage ++ [0]) strTruncateMessageLength).countArgument ∧
      textReads user log text length name withVarInfo =
        (cutReads text (textRoom user log name withVarInfo)).map (fun i => (i, 1)) ++
          [(0, kept)] := by
  have hbound := user.logBufLen.toNat_lt
  have hroom : textRoom user log name withVarInfo = user.logBufLen.toNat -
      (log.size + strTruncateMessageLength +
        stringOverhead (isVerboseMode user log) name withVarInfo) := rfl
  have hcopied : (((textRoom user log name withVarInfo : Int) -
      reduceSize text .utf8 (textRoom user log name withVarInfo)) %
        18446744073709551616).toNat = kept := by
    omega
  have hargSize : (((user.logBufLen.toNat : Int) - log.size -
      (stringOverhead (isVerboseMode user log) name withVarInfo : Nat) -
        reduceSize text .utf8 (textRoom user log name withVarInfo)) % 65536).toNat =
      kept + strTruncateMessageLength := by
    omega
  constructor
  · dsimp only [mctUserLogWriteSizedStringUtilsAttr]
    rw [if_neg (not_not.mpr hinit), length_succ hlength, if_pos hfull,
      if_neg (not_lt.mpr hmarker), ← textRoom, hargSize, hcopied]
  · rw [textReads_truncated hinit hlength hfull hmarker, hcopied]

/-- A text of 65535 bytes passes the check as one of none. -/
theorem write_wrapped (hinit : user.initialised)
    (hmarker : log.size + strTruncateMessageLength +
      stringOverhead (isVerboseMode user log) name withVarInfo ≤ user.logBufLen.toNat) :
    (mctUserLogWriteSizedStringUtilsAttr user log (some text) 65535 .utf8 name
      withVarInfo).2.log.size =
        log.size + stringOverhead (isVerboseMode user log) name withVarInfo := by
  have hfits : ¬ log.size + ((65535 : UInt16) + 1).toNat +
      stringOverhead (isVerboseMode user log) name withVarInfo > user.logBufLen.toNat := by
    change ¬ log.size + 0 + _ > _
    omega
  dsimp only [mctUserLogWriteSizedStringUtilsAttr]
  rw [if_neg (not_not.mpr hinit), if_neg hfits]
  exact Writing.appendStringHeader_size _

variable (hinit : user.initialised) (hbuffer : log.buffer.length = user.logBufLen.toNat)
  (htext : text.bytes = utf8Bytes chars ++ behind)
  (hchars : (utf8Bytes chars).length = length.toNat)
  (hfull : user.logBufLen.toNat < log.size + (length.toNat + 1) +
    stringOverhead (isVerboseMode user log) name withVarInfo)
  (hmarker : log.size + strTruncateMessageLength +
    stringOverhead (isVerboseMode user log) name withVarInfo ≤ user.logBufLen.toNat)

include hinit hbuffer htext hchars hfull hmarker

/-- The cut of a text is stored with the marker. -/
theorem storesCut (hlength : length ≠ 65535) (hroom : textRoom user log name withVarInfo ≠ 0)
    (htwo : ¬ StartsWithTwo chars (textRoom user log name withVarInfo)) :
    StoresCut user log text length name withVarInfo chars := by
  have hroomEq : textRoom user log name withVarInfo = user.logBufLen.toNat -
      (log.size + strTruncateMessageLength +
        stringOverhead (isVerboseMode user log) name withVarInfo) := rfl
  have hmarkerLength : 1 ≤ strTruncateMessageLength := Nat.le_add_left 1 _
  obtain ⟨cut, c, back, rfl, hcut, hover⟩ :=
    @exists_cut chars (textRoom user log name withVarInfo) (by omega)
  obtain ⟨hreduce, hreads⟩ := reduce_cut htext hcut.fits hover hroom htwo
  have hfits := hcut.fits
  obtain ⟨hwrite, htextReads⟩ := @write_truncated user log text length name withVarInfo hinit
    hlength hfull hmarker (utf8Bytes cut).length (by omega)
  have hbytes : text.bytes.take (utf8Bytes cut).length = utf8Bytes cut := by
    rw [htext, utf8Bytes_append, List.append_assoc, List.take_left]
  have hcopied : (utf8Bytes cut).length ≤ text.bytes.length := by
    rw [htext, utf8Bytes_append, List.append_assoc, List.length_append]
    exact Nat.le_add_right _ _
  -- the header, the text and the marker are put behind the message one after the other
  obtain ⟨hheader, hheaderLength⟩ := @Writing.appendStringHeader_message ⟨log, []⟩
    (isVerboseMode user log) withVarInfo ((utf8Bytes cut).length + strTruncateMessageLength) name
    (by simp only; omega)
  obtain ⟨hmessage, hmessageLength⟩ := @Writing.append_message
    ((⟨log, []⟩ : Writing).appendStringHeader (isVerboseMode user log) .utf8
      ((utf8Bytes cut).length + strTruncateMessageLength) name withVarInfo) text.bytes
    (utf8Bytes cut).length hcopied
    (by rw [hheaderLength, Writing.appendStringHeader_size]; simp only; omega)
  obtain ⟨hwhole, -⟩ := @Writing.append_message _ (strTruncatedMessage ++ [0])
    strTruncateMessageLength (by simp [strTruncateMessageLength])
    (by
      rw [hmessageLength, hheaderLength, Writing.append_size, Writing.appendStringHeader_size]
      simp only
      omega)
  have hmarkerBytes : (strTruncatedMessage ++ [0]).take strTruncateMessageLength =
      strTruncatedMessage ++ [0] := List.take_of_length_le (by simp [strTruncateMessageLength])
  have hsize : (mctUserLogWriteSizedStringUtilsAttr user log (some text) length .utf8 name
      withVarInfo).2.log.size = log.size +
        stringOverhead (isVerboseMode user log) name withVarInfo +
          ((utf8Bytes cut).length + strTruncateMessageLength) := by
    rw [hwrite]
    simp only [Writing.countArgument_size, Writing.append_size, Writing.appendStringHeader_size]
    omega
  refine ⟨cut, hcut, ?_, hsize, by omega, ?_⟩
  · rw [hwrite, Writing.countArgument_message, hwhole, hmessage, hheader, hbytes, hmarkerBytes,
      List.append_assoc]
    rfl
  · intro read hread
    rw [htextReads, List.mem_append, List.mem_singleton, List.mem_map] at hread
    rcases hread with ⟨i, hi, rfl⟩ | rfl
    · have hle := cutReads_le i hi
      exact ⟨hreads i hi, by simp only; omega⟩
    · exact ⟨le_refl 0, by simp only; omega⟩

/-- A UTF-8 text that does not fit is cut behind its last whole character that leaves room for
the marker, from the text alone, if and only if its length is below 65535, something of it
fits, and this is not just a first character of two bytes. -/
theorem storesCut_iff :
    StoresCut user log text length name withVarInfo chars ↔
      length ≠ 65535 ∧ textRoom user log name withVarInfo ≠ 0 ∧
        ¬ StartsWithTwo chars (textRoom user log name withVarInfo) := by
  constructor
  · rintro ⟨cut, hcut, -, hsize, -, hreads⟩
    have hlength : length ≠ 65535 := by
      rintro rfl
      rw [write_wrapped hinit hmarker] at hsize
      simp only [strTruncateMessageLength] at hsize
      omega
    rw [textReads_truncated hinit hlength hfull hmarker] at hreads
    have hinside : ∀ i ∈ cutReads text (textRoom user log name withVarInfo), 0 ≤ i := fun i hi =>
      (hreads (i, 1) (List.mem_append_left _ (List.mem_map_of_mem hi))).1
    refine ⟨hlength, fun hroom => ?_, fun htwo => ?_⟩
    · obtain ⟨i, hi, hneg⟩ := cutReads_outside htext (.inl hroom)
      exact absurd (hinside i hi) (not_le.mpr hneg)
    · obtain ⟨i, hi, hneg⟩ := cutReads_outside htext (.inr htwo)
      exact absurd (hinside i hi) (not_le.mpr hneg)
  · rintro ⟨hlength, hroom, htwo⟩
    exact storesCut hinit hbuffer htext hchars hfull hmarker hlength hroom htwo

end Truncation

section Sample

/-- A message buffer with room for nothing but the marker, or for some bytes more. -/
def emptyLog (room : Nat) : MctUser × MctContextData :=
  (⟨(38 + room).toUInt16, true, false⟩, ⟨List.replicate (38 + room) 0, 0, 0, false⟩)

/-- A text of characters of two bytes, and the byte in front of it in memory. -/
def accents (inFront : UInt8) : Text := ⟨[inFront], utf8Bytes (List.replicate 20 'é')⟩

/-- Three bytes of the text fit: it is cut behind its first character. -/
theorem storesCut_iff_three :
    StoresCut (emptyLog 3).1 (emptyLog 3).2 (accents 0) 40 none false (List.replicate 20 'é') := by
  apply (@storesCut_iff _ _ (accents 0) 40 none false (List.replicate 20 'é') [] rfl rfl
    (List.append_nil _).symm (by decide) (by decide) (by decide)).mpr
  refine ⟨by decide, by decide, fun htwo => ?_⟩
  exact absurd htwo.1 (by decide)

/-- Nothing of the text fits: the byte in front of it is read. -/
theorem emptyLog_not_storesCut :
    ((emptyLog 0).1.initialised ∧ (emptyLog 0).2.buffer.length = (emptyLog 0).1.logBufLen.toNat ∧
      (accents 0xc3).bytes = utf8Bytes (List.replicate 20 'é') ∧
      (utf8Bytes (List.replicate 20 'é')).length = (40 : UInt16).toNat ∧
      (emptyLog 0).1.logBufLen.toNat <
        (emptyLog 0).2.size + (40 + 1) + stringOverhead false none false ∧
      (emptyLog 0).2.size + strTruncateMessageLength + stringOverhead false none false ≤
        (emptyLog 0).1.logBufLen.toNat) ∧
    ¬ StoresCut (emptyLog 0).1 (emptyLog 0).2 (accents 0xc3) 40 none false
      (List.replicate 20 'é') := by
  refine ⟨⟨rfl, rfl, rfl, by decide, by decide, by decide⟩, ?_⟩
  rintro ⟨cut, -, -, -, -, hreads⟩
  have hread := hreads (-1, 1) (by decide)
  exact absurd hread.1 (by decide)

end Sample

end MctDaemon.User
