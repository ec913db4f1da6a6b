import Mathlib.Data.List.TakeWhile
import MctDaemon.Lib.CString

/-!
Text files read line by line into a buffer that may be too short for a line,
and lines cut into fields by a separator.
-/

namespace MctDaemon.Lib

/-- The lines that `fgets` reads from a file. A line ends with its newline, or
with the last of the `size` characters the buffer has room for; `room` of them
are left behind the characters of `line` read so far. -/
def fgetsLines (size : Nat) : Nat → List Char → List Char → List (List Char)
  | _, line, [] => if line = [] then [] else [line]
  | room, line, c :: cs =>
      if c = '\n' ∨ room ≤ 1 then (line ++ [c]) :: fgetsLines size size [] cs
      else fgetsLines size (room - 1) (line ++ [c]) cs

/-- The lines of a file, from its start. -/
def readLines (size : Nat) (content : List Char) : List (List Char) :=
  fgetsLines size size [] content

def cString (buffer : List Char) : List Char := buffer.takeWhile fun c => c ≠ '\x00'

theorem cString_eq_self {buffer : List Char} (h : '\x00' ∉ buffer) : cString buffer = buffer := by
  rw [cString, List.takeWhile_eq_self_iff]
  intro c hc
  have hne : c ≠ '\x00' := by
    rintro rfl
    exact h hc
  simpa using hne

section Lines

variable {size : Nat}

theorem fgetsLines_append {l : List Char} (hl : '\n' ∉ l) (rest : List Char) {room : Nat}
    (hroom : l.length < room) (line : List Char) :
    fgetsLines size room line (l ++ rest) =
      fgetsLines size (room - l.length) (line ++ l) rest := by
  induction l generalizing room line with
  | nil => simp
  | cons c cs ih =>
      rw [List.mem_cons, not_or] at hl
      rw [List.length_cons] at hroom
      rw [List.cons_append, fgetsLines, if_neg]
      · rw [ih hl.2 (by omega), List.length_cons, List.append_assoc, List.singleton_append,
          Nat.sub_sub, Nat.add_comm 1]
      · rintro (rfl | hshort)
        · exact hl.1 rfl
        · omega

theorem readLines_short {l : List Char} (hl : '\n' ∉ l) (hlength : l.length < size)
    (rest : List Char) :
    readLines size (l ++ '\n' :: rest) = (l ++ ['\n']) :: readLines size rest := by
  rw [readLines, fgetsLines_append hl _ hlength, List.nil_append, fgetsLines, if_pos (.inl rfl)]
  rfl

/-- A last line that has no newline. -/
theorem readLines_last {l : List Char} (hl : '\n' ∉ l) (hne : l ≠ []) (hlength : l.length ≤ size) :
    readLines size l = [l] := by
  obtain ⟨front, c, rfl⟩ := List.eq_nil_or_concat' l |>.resolve_left hne
  rw [List.mem_append, not_or] at hl
  rw [List.length_append, List.length_singleton] at hlength
  rw [readLines, fgetsLines_append hl.1 _ (by omega), List.nil_append, fgetsLines]
  split
  · rfl
  · rw [fgetsLines, if_neg (by simp)]

/-- The pieces of a line of at most two buffers. -/
def linePieces (size : Nat) (line : List Char) : List (List Char) :=
  if line.length ≤ size then [line] else [line.take size, line.drop size]

theorem readLines_line {l : List Char} (hl : '\n' ∉ l) (hsize : 0 < size)
    (hlength : (l ++ ['\n']).length ≤ 2 * size) (rest : List Char) :
    readLines size ((l ++ ['\n']) ++ rest) =
      linePieces size (l ++ ['\n']) ++ readLines size rest := by
  have hlong : (l ++ ['\n']).length = l.length + 1 := by simp
  rw [hlong] at hlength
  rw [List.append_assoc, List.singleton_append]
  unfold linePieces
  by_cases hshort : (l ++ ['\n']).length ≤ size
  · rw [if_pos hshort, readLines_short hl (by omega)]
    rfl
  · rw [if_neg hshort]
    obtain ⟨c, second, hdrop⟩ : ∃ c second, l.drop (size - 1) = c :: second := by
      apply List.exists_cons_of_ne_nil
      rw [List.ne_nil_iff_length_pos, List.length_drop]
      omega
    have hsplit : l = l.take (size - 1) ++ c :: second := by
      rw [← hdrop, List.take_append_drop]
    have hfirst : (l.take (size - 1)).length = size - 1 := List.length_take_of_le (by omega)
    have hsecond : second.length < size := by
      have hlengths := congrArg List.length hsplit
      rw [List.length_append, List.length_cons, hfirst] at hlengths
      omega
    generalize l.take (size - 1) = first at hsplit hfirst
    subst hsplit
    rw [List.mem_append, List.mem_cons, not_or, not_or] at hl
    obtain ⟨hfirst', _, hsecond'⟩ := hl
    have hfull : readLines size ((first ++ c :: second) ++ '\n' :: rest) =
        (first ++ [c]) :: readLines size (second ++ '\n' :: rest) := by
      rw [List.append_assoc, List.cons_append, readLines,
        fgetsLines_append hfirst' _ (by omega), List.nil_append, fgetsLines,
        if_pos (.inr (by omega))]
      rfl
    have htake : ((first ++ c :: second) ++ ['\n']).take size = first ++ [c] := by
      rw [List.append_assoc, List.cons_append, List.append_cons, List.take_left']
      simp only [List.length_append, List.length_singleton]
      omega
    have hdrop' : ((first ++ c :: second) ++ ['\n']).drop size = second ++ ['\n'] := by
      rw [List.append_assoc, List.cons_append, List.append_cons, List.drop_left']
      simp only [List.length_append, List.length_singleton]
      omega
    rw [hfull, readLines_short hsecond' hsecond, htake, hdrop']
    rfl

/-- A file of such lines is read piece by piece. -/
theorem readLines_flatten {lines : List (List Char)} (hsize : 0 < size)
    (hlines : ∀ line ∈ lines, ∃ l, line = l ++ ['\n'] ∧ '\n' ∉ l ∧ line.length ≤ 2 * size) :
    readLines size lines.flatten = lines.flatMap (linePieces size) := by
  induction lines with
  | nil => rfl
  | cons line lines ih =>
      obtain ⟨l, rfl, hl, hlength⟩ := hlines line List.mem_cons_self
      rw [List.flatten_cons, readLines_line hl hsize hlength, List.flatMap_cons,
        ih fun other hmem => hlines other (List.mem_cons_of_mem _ hmem)]

/-- A line that fills the buffer leaves its newline behind. -/
theorem linePieces_newline {l : List Char} (hlength : l.length ≤ size) :
    linePieces size (l ++ ['\n']) = [l ++ ['\n']] ∨
      linePieces size (l ++ ['\n']) = [l, ['\n']] := by
  rw [linePieces, List.length_append, List.length_singleton]
  split
  · exact .inl rfl
  · have hfull : l.length = size := by omega
    rw [List.take_left' hfull, List.drop_left' hfull]
    exact .inr rfl

theorem mem_linePieces {piece line : List Char} (h : piece ∈ linePieces size line) :
    piece = line.take size ∨ piece = line.drop size ∧ size < line.length := by
  unfold linePieces at h
  split at h
  · next hle =>
      rw [List.mem_singleton] at h
      rw [h, List.take_of_length_le hle]
      exact .inl rfl
  · rcases List.mem_pair.mp h with rfl | rfl
    · exact .inl rfl
    · exact .inr ⟨rfl, by omega⟩

theorem subset_of_mem_linePieces {piece line : List Char} (h : piece ∈ linePieces size line) :
    piece ⊆ line := by
  rcases mem_linePieces h with rfl | ⟨rfl, _⟩
  · exact List.take_subset _ _
  · exact List.drop_subset _ _

end Lines

section Words

variable {α : Type*}

/-- The words that `fscanf` reads with `%<width>s`: between blanks, and cut when
they have more than `width` characters. `room` of these are left behind the
characters of `word` read so far. -/
def wordsFrom (blank : α → Bool) (width : Nat) : Nat → List α → List α → List (List α)
  | _, word, [] => if word.isEmpty then [] else [word]
  | room, word, c :: cs =>
      if blank c then
        if word.isEmpty then wordsFrom blank width width [] cs
        else word :: wordsFrom blank width width [] cs
      else if room ≤ 1 then (word ++ [c]) :: wordsFrom blank width width [] cs
      else wordsFrom blank width (room - 1) (word ++ [c]) cs

/-- The words of a file, from its start. -/
def readWords (blank : α → Bool) (width : Nat) (content : List α) : List (List α) :=
  wordsFrom blank width width [] content

variable {blank : α → Bool} {width : Nat}

theorem wordsFrom_append {w : List α} (hw : ∀ c ∈ w, ¬ blank c) (rest : List α) {room : Nat}
    (hroom : w.length < room) (word : List α) :
    wordsFrom blank width room word (w ++ rest) =
      wordsFrom blank width (room - w.length) (word ++ w) rest := by
  induction w generalizing room word with
  | nil => simp
  | cons c cs ih =>
      rw [List.length_cons] at hroom
      rw [List.cons_append, wordsFrom, if_neg (hw c List.mem_cons_self), if_neg (by omega),
        ih (fun d hd => hw d (List.mem_cons_of_mem _ hd)) (by omega), List.length_cons,
        List.append_assoc, List.singleton_append, Nat.sub_sub, Nat.add_comm 1]

/-- A word that is short enough is read whole. -/
theorem readWords_append {w : List α} (hne : w ≠ []) (hw : ∀ c ∈ w, ¬ blank c)
    (hlength : w.length < width) {c : α} (hc : blank c) (rest : List α) :
    readWords blank width (w ++ c :: rest) = w :: readWords blank width rest := by
  rw [readWords, wordsFrom_append hw _ hlength, List.nil_append, wordsFrom, if_pos hc,
    if_neg (by simpa using hne), readWords]

end Words

section Fields

variable {sep : Char}

theorem mem_strtok {s token : List Char} (h : token ∈ strtok sep s) : token ≠ [] ∧ sep ∉ token := by
  obtain ⟨hmem, hne⟩ := List.mem_filter.mp h
  refine ⟨by simpa using hne, ?_⟩
  clear h hne
  induction s generalizing token with
  | nil =>
      rw [List.splitOn_nil, List.mem_singleton] at hmem
      rw [hmem]
      exact List.not_mem_nil
  | cons c cs ih =>
      rw [List.splitOn_cons_eq_if_modifyHead] at hmem
      split at hmem
      · rcases List.mem_cons.mp hmem with rfl | hmem
        · exact List.not_mem_nil
        · exact ih hmem
      · next hc =>
          obtain ⟨first, others, hsplit⟩ := List.exists_cons_of_ne_nil (List.splitOn_ne_nil sep cs)
          rw [hsplit, List.modifyHead_cons] at hmem
          rcases List.mem_cons.mp hmem with rfl | hmem
          · have hfirst := @ih first (by rw [hsplit]; exact List.mem_cons_self)
            rw [List.mem_cons, not_or]
            exact ⟨fun hsame => hc (by simp [hsame]), hfirst⟩
          · exact ih (by rw [hsplit]; exact List.mem_cons_of_mem _ hmem)

theorem strtok_cons {w : List Char} (hw : w ≠ []) (hsep : sep ∉ w) (rest : List Char) :
    strtok sep (w ++ sep :: rest) = w :: strtok sep rest := by
  rw [strtok, List.splitOn_append_cons_self_of_not_mem hsep,
    List.filter_cons_of_pos (by simpa using hw)]
  rfl

theorem strtok_self {w : List Char} (hw : w ≠ []) (hsep : sep ∉ w) : strtok sep w = [w] := by
  rw [strtok, List.splitOn_eq_singleton hsep, List.filter_cons_of_pos (by simpa using hw)]
  rfl

theorem length_splitOn (sep : Char) (s : List Char) :
    ((s.splitOn sep).map fun token => token.length + 1).sum = s.length + 1 := by
  induction s with
  | nil => rfl
  | cons c cs ih =>
      rw [List.splitOn_cons_eq_if_modifyHead]
      split
      · rw [List.map_cons, List.sum_cons, ih, List.length_nil, List.length_cons]
        omega
      · obtain ⟨first, others, hsplit⟩ := List.exists_cons_of_ne_nil (List.splitOn_ne_nil sep cs)
        rw [hsplit, List.map_cons, List.sum_cons] at ih
        rw [hsplit, List.modifyHead_cons, List.map_cons, List.sum_cons, List.length_cons,
          List.length_cons]
        omega

/-- The tokens and the separators between them fit into the string. -/
theorem length_strtok_le (s : List Char) :
    ((strtok sep s).map fun token => token.length + 1).sum ≤ s.length + 1 := by
  rw [← length_splitOn sep s]
  exact ((List.filter_sublist).map _).sum_le_sum fun _ _ => Nat.zero_le _

theorem length_le_of_mem_strtok {s token : List Char} (h : token ∈ strtok sep s) :
    token.length ≤ s.length := by
  have htoken : token.length + 1 ≤ _ := List.single_le_sum (fun _ _ => Nat.zero_le _) _
    (List.mem_map_of_mem (f := fun token => token.length + 1) h)
  have hsum := htoken.trans (length_strtok_le s)
  omega

/-- Fields, each followed by the separator. -/
def record (sep : Char) (fields : List (List Char)) : List Char :=
  fields.flatMap fun field => field ++ [sep]

theorem length_record (fields : List (List Char)) :
    (record sep fields).length = (fields.map fun field => field.length + 1).sum := by
  rw [record, List.length_flatMap]
  simp only [List.length_append, List.length_singleton]

theorem not_mem_record {c : Char} {fields : List (List Char)} (hsep : c ≠ sep)
    (hfields : ∀ field ∈ fields, c ∉ field) : c ∉ record sep fields := by
  intro h
  obtain ⟨field, hmem, hc⟩ := List.mem_flatMap.mp h
  rcases List.mem_append.mp hc with hc | hc
  · exact hfields field hmem hc
  · exact hsep (List.mem_singleton.mp hc)

theorem strtok_record {fields : List (List Char)}
    (hfields : ∀ field ∈ fields, field ≠ [] ∧ sep ∉ field) (rest : List Char) :
    strtok sep (record sep fields ++ rest) = fields ++ strtok sep rest := by
  induction fields with
  | nil => rfl
  | cons field fields ih =>
      obtain ⟨hne, hnot⟩ := hfields field List.mem_cons_self
      have hsplit : record sep (field :: fields) ++ rest =
          field ++ sep :: (record sep fields ++ rest) := by
        simp [record]
      rw [hsplit, strtok_cons hne hnot,
        ih fun other hmem => hfields other (List.mem_cons_of_mem _ hmem),
        List.cons_append]

/-- A last field that fits into the buffer behind the others is read in full
with them; what is left of the line has no field but its end. -/
theorem strtok_linePieces {size : Nat} {fields : List (List Char)} {text : List Char}
    (hfields : ∀ field ∈ fields, field ≠ [] ∧ sep ∉ field) (htext : text ≠ []) (hsep : sep ∉ text)
    (hnewline : sep ≠ '\n')
    (hlength : (record sep fields).length + text.length ≤ size) :
    ∃ first short others,
      linePieces size (record sep fields ++ text ++ [sep, '\n']) = first :: short ∧
      strtok sep first = fields ++ text :: others ∧
      ∀ piece ∈ short, strtok sep piece = [['\n']] := by
  have hall : strtok sep (record sep fields ++ text ++ [sep, '\n']) =
      fields ++ text :: strtok sep ['\n'] := by
    rw [List.append_assoc, strtok_record hfields, strtok_cons htext hsep]
  have hend : strtok sep ['\n'] = [['\n']] := strtok_self (by simp) (by simpa using hnewline)
  unfold linePieces
  by_cases hle : (record sep fields ++ text ++ [sep, '\n']).length ≤ size
  · refine ⟨_, [], _, if_pos hle, hall, ?_⟩
    intro piece hmem
    cases hmem
  · rw [if_neg hle]
    simp only [List.length_append, List.length_cons, List.length_nil] at hle
    by_cases hfull : (record sep fields ++ text).length = size
    · rw [List.take_left' hfull, List.drop_left' hfull]
      refine ⟨_, _, [], rfl, ?_, ?_⟩
      · rw [strtok_record hfields, strtok_self htext hsep]
      · intro piece hmem
        rw [List.mem_singleton.mp hmem, ← hend]
        simp [strtok, List.splitOn_cons_eq_if_modifyHead]
    · have hone : (record sep fields ++ text ++ [sep]).length = size := by
        simp only [List.length_append, List.length_singleton] at hfull ⊢
        omega
      rw [List.append_cons, List.take_left' hone, List.drop_left' hone]
      refine ⟨_, _, [], rfl, ?_, ?_⟩
      · rw [List.append_assoc, strtok_record hfields, strtok_cons htext hsep]
        rfl
      · intro piece hmem
        rw [List.mem_singleton.mp hmem, hend]

/-- A piece of a line is short, or it starts with the fields, and what follows
them fits into the buffer with them. -/
theorem strtok_of_mem_linePieces {size : Nat} {fields : List (List Char)} {rest piece : List Char}
    (hfields : ∀ field ∈ fields, field ≠ [] ∧ sep ∉ field)
    (hlength : (record sep fields).length ≤ size)
    (hpiece : piece ∈ linePieces size (record sep fields ++ rest)) :
    piece.length + size ≤ (record sep fields).length + rest.length ∨
      ∃ others, strtok sep piece = fields ++ others ∧
        ∀ token ∈ others, (record sep fields).length + token.length ≤ size := by
  rcases mem_linePieces hpiece with rfl | ⟨rfl, hlong⟩
  · right
    rw [List.take_append, List.take_of_length_le hlength, strtok_record hfields]
    refine ⟨_, rfl, ?_⟩
    intro token hmem
    have htoken := length_le_of_mem_strtok hmem
    rw [List.length_take] at htoken
    omega
  · left
    rw [List.length_append] at hlong
    rw [List.length_drop, List.length_append]
    omega

end Fields

end MctDaemon.Lib
