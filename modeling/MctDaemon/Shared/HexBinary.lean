import MctDaemon.Shared.MessagePayload

/-!
Hexadecimal text back to bytes. `mct_hex_ascii_to_binary` takes the digits of the text in
pairs and passes over everything else, so it reads what `mct_print_hex_string` prints.
-/

namespace MctDaemon.Shared

open Lib

section Model

/-- The memory behind `binary` and `size`, with the places that have been written, and the
variables of `mct_hex_ascii_to_binary`. -/
structure HexDecoder where
  binary : Nat → UInt8
  written : List Nat
  size : Int
  pos : Nat
  first : Bool

/-- `binary[pos] = value`. -/
def HexDecoder.store (s : HexDecoder) (value : UInt8) : HexDecoder :=
  { s with binary := Function.update s.binary s.pos value, written := s.pos :: s.written }

/-- What a digit does, and whether the loop goes on. -/
def HexDecoder.digit (s : HexDecoder) (digit : Nat) : Bool × HexDecoder :=
  let s := s.store (s.binary s.pos * 16 + UInt8.ofNat digit)
  if s.first then (true, { s with first := false })
  else
    let s := { s with first := true, pos := s.pos + 1 }
    if (s.pos : Int) ≥ s.size then (false, s) else (true, s.store 0)

/-- The loop of `mct_hex_ascii_to_binary` from a place of the text on. -/
def hexLoop : List Char → HexDecoder → HexDecoder
  | [], s => { s with size := s.pos }
  | ch :: text, s =>
      if ch = '\x00' then { s with size := s.pos }
      else
        match hexValue ch with
        | none => hexLoop text s
        | some digit =>
            let (more, s) := s.digit digit
            if more then hexLoop text s else s

def mctHexAsciiToBinary (text : List Char) (binary : Nat → UInt8) (size : Int) : HexDecoder :=
  hexLoop text (HexDecoder.store ⟨binary, [], size, 0, true⟩ 0)

end Model

section Written

/-- So far only bytes below the bound have been written. -/
structure HexDecoder.Within (binary : Nat → UInt8) (bound : Nat) (s : HexDecoder) : Prop where
  written_lt : ∀ i ∈ s.written, i < bound
  kept : ∀ i, bound ≤ i → s.binary i = binary i

variable {binary : Nat → UInt8} {bound : Nat} {s : HexDecoder}

theorem HexDecoder.Within.store (h : s.Within binary bound) (hpos : s.pos < bound)
    (value : UInt8) : (s.store value).Within binary bound := by
  constructor
  · intro i hi
    rcases List.mem_cons.mp hi with rfl | hi
    · exact hpos
    · exact h.written_lt i hi
  · intro i hi
    exact (Function.update_of_ne (by omega) _ _).trans (h.kept i hi)

/-- A digit is stored below the bound, and so is the next one if the loop goes on. -/
theorem HexDecoder.Within.digit (h : s.Within binary bound) (hpos : s.pos < bound)
    (hsize : s.size ≤ bound) (digit : Nat) :
    (s.digit digit).2.Within binary bound ∧
      ((s.digit digit).1 → (s.digit digit).2.pos < bound ∧ (s.digit digit).2.size = s.size) := by
  have hstored := h.store hpos (s.binary s.pos * 16 + UInt8.ofNat digit)
  unfold HexDecoder.digit
  simp only
  split
  · exact ⟨⟨hstored.written_lt, hstored.kept⟩, fun _ => ⟨hpos, rfl⟩⟩
  · split
    · exact ⟨⟨hstored.written_lt, hstored.kept⟩, fun hmore => absurd hmore Bool.false_ne_true⟩
    · next hmore =>
        have hnext : s.pos + 1 < bound := by
          have hless : ((s.pos + 1 : Nat) : Int) < s.size := not_le.mp hmore
          omega
        refine ⟨?_, fun _ => ⟨hnext, rfl⟩⟩
        apply HexDecoder.Within.store
        · exact ⟨hstored.written_lt, hstored.kept⟩
        · exact hnext

/-- Whatever the text is, the loop stays below the bound. -/
theorem hexLoop_within {text : List Char} (h : s.Within binary bound) (hpos : s.pos < bound)
    (hsize : s.size ≤ bound) : (hexLoop text s).Within binary bound := by
  induction text generalizing s with
  | nil => exact ⟨h.written_lt, h.kept⟩
  | cons ch text ih =>
      rw [hexLoop]
      split
      · exact ⟨h.written_lt, h.kept⟩
      · split
        · exact ih h hpos hsize
        · next digit hdigit =>
            obtain ⟨hwithin, hmore⟩ := h.digit hpos hsize digit
            simp only
            split
            · next hgoes =>
                obtain ⟨hpos', hsize'⟩ := hmore hgoes
                exact ih hwithin hpos' (hsize' ▸ hsize)
            · exact hwithin

/-- The function stays below the bound. -/
theorem mctHexAsciiToBinary_within (text : List Char) (binary : Nat → UInt8) (size : Int) :
    (mctHexAsciiToBinary text binary size).Within binary (max size 1).toNat := by
  have hpos : 0 < (max size 1).toNat := by omega
  apply hexLoop_within
  · apply HexDecoder.Within.store _ hpos
    exact ⟨fun i hi => absurd hi List.not_mem_nil, fun i hi => rfl⟩
  · exact hpos
  · exact (le_max_left size 1).trans (Int.self_le_toNat _)

end Written

section Decoding

variable {s : HexDecoder} {bytes : List UInt8}

/-- The two digits of a byte make up the byte. -/
theorem two_digits (byte : UInt8) :
    (0 * 16 + UInt8.ofNat (byte.toNat / 16)) * 16 + UInt8.ofNat (byte.toNat % 16) = byte := by
  have hbyte := byte.toNat_lt
  apply UInt8.toNat.inj
  simp only [UInt8.toNat_add, UInt8.toNat_mul, UInt8.toNat_ofNat', UInt8.toNat_ofNat]
  omega

theorem hexLoop_digit {n : Nat} (h : n < 16) (text : List Char) (s : HexDecoder) :
    hexLoop (n.digitChar :: text) s =
      if (s.digit n).1 then hexLoop text (s.digit n).2 else (s.digit n).2 := by
  have hnul : ∀ {n : Nat}, n < 16 → n.digitChar ≠ '\x00' := by decide
  rw [hexLoop, if_neg (hnul h), hexValue_digitChar h]

/-- The delimiter is passed over. -/
theorem hexLoop_delim (text : List Char) (s : HexDecoder) :
    hexLoop (' ' :: text) s = hexLoop text s := by
  rw [hexLoop, if_neg (by decide)]
  rfl

theorem HexDecoder.digit_first (h : s.first = true) (digit : Nat) :
    s.digit digit =
      (true, { s.store (s.binary s.pos * 16 + UInt8.ofNat digit) with first := false }) :=
  if_pos h

theorem HexDecoder.digit_second (h : s.first = false) (digit : Nat) :
    s.digit digit =
      let s' := { s.store (s.binary s.pos * 16 + UInt8.ofNat digit) with
        first := true, pos := s.pos + 1 }
      if (s'.pos : Int) ≥ s.size then (false, s') else (true, s'.store 0) :=
  if_neg (by rw [HexDecoder.store, h]; exact Bool.false_ne_true)

/-- The two digits of a byte store it, and clear the next one if there is room for it. -/
theorem hexLoop_byte {byte : UInt8} {text : List Char} (hfirst : s.first = true)
    (hclear : s.binary s.pos = 0) :
    ∃ s', s'.binary = Function.update s.binary s.pos byte ∧ s'.size = s.size ∧
      s'.pos = s.pos + 1 ∧ s'.first = true ∧
      hexLoop (highDigit byte :: lowDigit byte :: text) s =
        if (s'.pos : Int) ≥ s.size then s' else hexLoop text (s'.store 0) := by
  have hhigh : byte.toNat / 16 < 16 := by
    have hbyte := byte.toNat_lt
    omega
  have hlow : byte.toNat % 16 < 16 := Nat.mod_lt _ (by decide)
  generalize hhalf : { s.store (s.binary s.pos * 16 + UInt8.ofNat (byte.toNat / 16)) with
    first := false } = half
  have hpos : half.pos = s.pos := by rw [← hhalf]; rfl
  have hsize : half.size = s.size := by rw [← hhalf]; rfl
  have hbinary : half.binary =
      Function.update s.binary s.pos (0 * 16 + UInt8.ofNat (byte.toNat / 16)) := by
    rw [← hhalf, hclear]
    rfl
  refine ⟨{ half.store (half.binary half.pos * 16 + UInt8.ofNat (byte.toNat % 16)) with
    first := true, pos := half.pos + 1 }, ?_, hsize, congrArg (· + 1) hpos, rfl, ?_⟩
  · have hstored : Function.update half.binary half.pos
        (half.binary half.pos * 16 + UInt8.ofNat (byte.toNat % 16)) =
          Function.update s.binary s.pos byte := by
      rw [hpos, hbinary, Function.update_self, two_digits, Function.update_idem]
    exact hstored
  · rw [highDigit, lowDigit, hexLoop_digit hhigh, HexDecoder.digit_first hfirst, hhalf, if_pos rfl,
      hexLoop_digit hlow, HexDecoder.digit_second (by rw [← hhalf]), hsize]
    simp only
    split
    · rfl
    · rfl

/-- The bytes of a printed text are stored from where the loop stands, and `*size` becomes the
place behind them. -/
theorem hexLoop_hexText (hfirst : s.first = true) (hclear : s.binary s.pos = 0)
    (hroom : (s.pos + bytes.length : Int) ≤ s.size) :
    (hexLoop (hexText ' ' bytes) s).size = s.pos + bytes.length ∧
      (∀ i < s.pos, (hexLoop (hexText ' ' bytes) s).binary i = s.binary i) ∧
      ∀ i byte, bytes[i]? = some byte →
        (hexLoop (hexText ' ' bytes) s).binary (s.pos + i) = byte := by
  induction bytes generalizing s with
  | nil =>
      rw [hexText, hexLoop]
      exact ⟨(Int.add_zero _).symm, fun i hi => rfl, fun i byte hi => by cases hi⟩
  | cons byte bytes ih =>
      obtain ⟨text, htext, hnext⟩ : ∃ text, hexText ' ' (byte :: bytes) =
          highDigit byte :: lowDigit byte :: text ∧
            ∀ s, hexLoop text s = hexLoop (hexText ' ' bytes) s := by
        cases bytes with
        | nil => exact ⟨[], rfl, fun s => rfl⟩
        | cons next bytes => exact ⟨_, rfl, hexLoop_delim _⟩
      obtain ⟨s', hbinary, hsize, hpos, hfirst', hloop⟩ := @hexLoop_byte s byte text hfirst hclear
      rw [List.length_cons, Nat.cast_succ] at hroom
      rw [htext, hloop, hpos]
      split
      · next hfull =>
          -- the text ends where the memory does
          have hlast : bytes = [] := by
            rw [← List.length_eq_zero_iff]
            omega
          subst hlast
          refine ⟨?_, ?_, ?_⟩
          · rw [hsize]
            simp only [List.length_nil, List.length_cons] at hroom ⊢
            omega
          · intro i hi
            rw [hbinary, Function.update_of_ne (by omega)]
          · intro i b hb
            cases i with
            | zero =>
                rw [hbinary, Nat.add_zero, Function.update_self]
                exact Option.some.inj hb
            | succ i => cases hb
      · rw [hnext]
        have hstored : ∀ i, i ≠ s'.pos → (s'.store 0).binary i = s'.binary i :=
          fun i hi => Function.update_of_ne hi _ _
        have hspos : (s'.store 0).pos = s.pos + 1 := hpos
        obtain ⟨hend, hkept, hbytes⟩ := ih (show (s'.store 0).first = true from hfirst')
          (Function.update_self s'.pos 0 s'.binary)
          (by rw [hspos, show (s'.store 0).size = s'.size from rfl, hsize]; omega)
        rw [hspos] at hend hkept hbytes
        refine ⟨?_, ?_, ?_⟩
        · rw [hend, List.length_cons]
          omega
        · intro i hi
          rw [hkept i (by omega), hstored i (by omega), hbinary,
            Function.update_of_ne (by omega)]
        · intro i b hb
          cases i with
          | zero =>
              rw [Nat.add_zero, hkept s.pos (by omega), hstored s.pos (by omega), hbinary,
                Function.update_self]
              exact Option.some.inj hb
          | succ i =>
              rw [Nat.add_comm i 1, ← Nat.add_assoc]
              exact hbytes i b hb

/-- The loop ends at the zero behind a text. -/
theorem hexLoop_zero (text rest : List Char) (s : HexDecoder) :
    hexLoop (text ++ '\x00' :: rest) s = hexLoop text s := by
  induction text generalizing s with
  | nil => rfl
  | cons ch text ih =>
      rw [List.cons_append, hexLoop, hexLoop]
      simp only [ih]

/-- What the loop reads of a memory that bytes were printed to. -/
theorem hexLoop_printed {bytes : List UInt8} {old : List Char} {textlength : Int}
    (hpositive : 0 < textlength) (hfits : bytes.length * 3 ≤ textlength)
    (hold : bytes ≠ [] ∨ old[0]? = some '\x00') :
    ∃ mem, mctPrintHexString old textlength bytes bytes.length = (.ok, mem) ∧
      ∀ s, hexLoop mem s = hexLoop (hexText ' ' bytes) s := by
  unfold mctPrintHexString
  by_cases hne : bytes = []
  · subst hne
    refine ⟨old, mctPrintHexStringDelim_nothing hpositive, ?_⟩
    have hzero := hold.resolve_left fun h => h rfl
    cases old with
    | nil => cases hzero
    | cons ch old =>
        cases hzero
        exact hexLoop_zero [] old
  · refine ⟨_, mctPrintHexStringDelim_fits List.take_length hpositive hfits hne, ?_⟩
    rw [copyInto, List.take_zero, List.nil_append, List.append_assoc]
    exact hexLoop_zero _ _

/-- A text that is printed to a buffer is decoded to its bytes; no bytes leave the buffer alone,
so that it has to hold the empty string then. Whatever the text is, only the memory that
`*size` allows is written, the first byte apart. -/
theorem hex_text_decodes (binary : Nat → UInt8) (size : Int) :
    (∀ (bytes : List UInt8) (old : List Char) (textlength : Int), 0 < textlength →
      bytes.length * 3 ≤ textlength → textlength ≤ old.length →
      (bytes ≠ [] ∨ old[0]? = some '\x00') → bytes.length ≤ size → 1 ≤ size →
      ∃ mem, mctPrintHexString old textlength bytes bytes.length = (.ok, mem) ∧
        mem.length = old.length ∧ (mctHexAsciiToBinary mem binary size).size = bytes.length ∧
          (List.range bytes.length).map (mctHexAsciiToBinary mem binary size).binary = bytes) ∧
    ∀ (text : List Char) (bound : Nat), bound = max size 1 →
      (∀ i ∈ (mctHexAsciiToBinary text binary size).written, i < bound) ∧
        ∀ i, bound ≤ i → (mctHexAsciiToBinary text binary size).binary i = binary i := by
  constructor
  · intro bytes old textlength hpositive hfits hbuffer hold hroom hsize
    obtain ⟨mem, hprint, hloop⟩ := hexLoop_printed hpositive hfits hold
    refine ⟨mem, hprint, mctPrintHexString_length hfits hbuffer hprint, ?_⟩
    unfold mctHexAsciiToBinary
    rw [hloop]
    let start := HexDecoder.store ⟨binary, [], size, 0, true⟩ 0
    obtain ⟨hend, -, hbytes⟩ := @hexLoop_hexText start bytes rfl
      (Function.update_self 0 0 binary) (by simpa [start, HexDecoder.store] using hroom)
    have hpos : start.pos = 0 := rfl
    rw [hpos] at hend hbytes
    constructor
    · rw [Nat.cast_zero, Int.zero_add] at hend
      exact hend
    · apply List.ext_getElem
      · rw [List.length_map, List.length_range]
      · intro i _ hi
        have hbyte := hbytes i bytes[i] (List.getElem?_eq_getElem hi)
        rw [Nat.zero_add] at hbyte
        rw [List.getElem_map, List.getElem_range]
        exact hbyte
  · intro text bound hbound
    have hwithin := mctHexAsciiToBinary_within text binary size
    rw [← hbound, Int.toNat_natCast] at hwithin
    exact ⟨hwithin.written_lt, hwithin.kept⟩

/-- Two bytes fill the memory exactly. -/
theorem hex_text_decodes_exact_fit :
    ∃ mem, mctPrintHexString "old text".toList 8 [171, 7] 2 = (.ok, mem) ∧ mem.length = 8 ∧
      (mctHexAsciiToBinary mem (fun _ => 255) 2).size = 2 ∧
        (List.range 2).map (mctHexAsciiToBinary mem (fun _ => 255) 2).binary = [171, 7] :=
  (hex_text_decodes (fun _ => 255) 2).1 [171, 7] "old text".toList 8 (by decide) (by decide)
    (by decide) (.inl (by decide)) (by decide) (by decide)

/-- No bytes are printed to a buffer that holds another text: it is decoded to that one's byte. -/
theorem empty_text_keeps_byte :
    mctPrintHexString ['a', 'b', '\x00'] 3 [] 0 = (.ok, ['a', 'b', '\x00']) ∧
      (mctHexAsciiToBinary ['a', 'b', '\x00'] (fun _ => 0) 1).size = 1 ∧
        (mctHexAsciiToBinary ['a', 'b', '\x00'] (fun _ => 0) 1).binary 0 = 171 := by
  decide

end Decoding

end MctDaemon.Shared
