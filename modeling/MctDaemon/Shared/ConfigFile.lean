import MctDaemon.Lib.SectionFile
import MctDaemon.Lib.TextFile

/-!
Configuration files: `mct_config_file_read_file` keeps the sections of a file with their keys
and values, `mct_config_file_get_value` looks them up. What is found is compared with what is
written in the first block of the section.
-/

namespace MctDaemon.Shared

open Lib

section Model

def mctConfigFileEntryMaxLen : Nat := 100
def mctConfigFileLineMaxLen : Nat := 210
def mctConfigFileSectionsMax : Nat := 125
def mctConfigFileKeysMax : Nat := 25

abbrev ConfigData := List Char × List Char

/-- `MctConfigFileSection`: its name and the list of its keys; `num_entries` is the length. -/
abbrev MctConfigFileSection := FileSection (List Char) ConfigData

/-- `MctConfigFile`; `num_sections` is the length. -/
abbrev MctConfigFile := List MctConfigFileSection

def mctConfigFileTrimLine (line : List Char) : List Char := line.filter fun c => ¬ isSpace c

def mctConfigFileIgnoreLine (line : List Char) : Bool :=
  match line with
  | [] => true
  | c :: _ => c = '#' ∨ c = ';' ∨ c = '\n'

/-- `mct_config_file_is_section_name`, whether the name is used. -/
def mctConfigFileIsSectionName (file : MctConfigFile) (name : List Char) : Bool :=
  file.any fun s => strncmpEq s.name name mctConfigFileEntryMaxLen

def mctConfigFileSetSection (file : MctConfigFile) (name : List Char) : Option MctConfigFile :=
  if file.length ≥ mctConfigFileSectionsMax then none
  else if mctConfigFileIsSectionName file name then none
  else some (file ++ [⟨name.take mctConfigFileEntryMaxLen, []⟩])

def mctConfigFileSetSectionData (file : MctConfigFile) (str1 str2 : List Char) : MctConfigFile :=
  file.modify (file.length - 1) fun s =>
    if s.entries.length + 1 ≥ mctConfigFileKeysMax then s
    else { s with entries := s.entries ++ [(str1, str2)] }

def mctConfigFileLineHasSection (line : List Char) : Bool := line.head? = some '['

/-- `mct_config_file_get_section_name_from_string`: opening brackets and blanks are skipped. -/
def mctConfigFileGetSectionNameFromString (line : List Char) : List Char :=
  ((line.take mctConfigFileEntryMaxLen).takeWhile fun c =>
    c = '[' ∨ isSpace c ∨ ¬ (c = ']' ∨ c = '\n')).filter fun c => ¬ (c = '[' ∨ isSpace c)

/-- `mct_config_file_get_key_value`: the first two tokens between equals signs. -/
def mctConfigFileGetKeyValue (line : List Char) : Option ConfigData :=
  match strtok '=' line with
  | str1 :: str2 :: _ =>
      some (str1.take (mctConfigFileEntryMaxLen - 1), str2.take (mctConfigFileEntryMaxLen - 1))
  | _ => none

def mctConfigFileReadLine (line : List Char) : SectionLine (List Char) ConfigData :=
  if mctConfigFileLineHasSection line then .header (mctConfigFileGetSectionNameFromString line)
  else
    match mctConfigFileGetKeyValue line with
    | some data => .entry data
    | none => .other

/-- The body of the loop of `mct_config_file_read_file`, on a filled line buffer: the file, and
whether the last header was stored. -/
def readConfigLine (st : MctConfigFile × Bool) (buffer : List Char) : MctConfigFile × Bool :=
  let line := cString buffer
  if mctConfigFileIgnoreLine line then st
  else
    match mctConfigFileReadLine (mctConfigFileTrimLine line) with
    | .header str1 =>
        match mctConfigFileSetSection st.1 str1 with
        | some file => (file, true)
        | none => (st.1, false)
    | .entry (str1, str2) => if st.2 then (mctConfigFileSetSectionData st.1 str1 str2, true) else st
    | .other => st

def mctConfigFileReadFile (content : List Char) : MctConfigFile :=
  ((readLines (mctConfigFileLineMaxLen - 1) content).foldl readConfigLine ([], false)).1

def mctConfigFileFindSection (file : MctConfigFile) (name : List Char) :
    Option MctConfigFileSection :=
  file.find? fun s => strncmpEq s.name name mctConfigFileEntryMaxLen

/-- `mct_config_file_get_value`, or nothing where it returns an error. -/
def mctConfigFileGetValue (file : MctConfigFile) (name key : List Char) : Option (List Char) :=
  match mctConfigFileFindSection file name with
  | none => none
  | some s =>
      (s.entries.find? fun data => strncmpEq data.1 key mctConfigFileEntryMaxLen).map fun data =>
        data.2.take mctConfigFileEntryMaxLen

end Model

section Written

/-- A key and a value with one equals sign between them. -/
def writtenData (line : List Char) : Option ConfigData :=
  match line.splitOn '=' with
  | [key, value] => if key ≠ [] ∧ value ≠ [] then some (key, value) else none
  | _ => none

/-- What a line of a configuration file says: a header in brackets, or a key and a value. Blanks
do not count; a line whose first other character is `#` or `;` is a comment. -/
def configLine (line : List Char) : SectionLine (List Char) ConfigData :=
  match mctConfigFileTrimLine line with
  | [] => .other
  | c :: cs =>
      if c = '[' then .header ((cs.takeWhile fun c => c ≠ ']').filter fun c => c ≠ '[')
      else if c = '#' ∨ c = ';' then .other
      else
        match writtenData (c :: cs) with
        | some data => .entry data
        | none => .other

def configLines (content : List Char) : List (List Char) := (content.splitOn '\n').map cString

/-- The lines of the section: those between its first header and the next header. -/
def configBlock (content name : List Char) : Option (List (List Char)) :=
  firstBlock (fun line => (configLine line).headerName) name (configLines content)

/-- The keys and values that are written in a block. -/
def writtenEntries (block : List (List Char)) : List ConfigData :=
  block.filterMap fun line => (configLine line).entryOf

/-- The value of the first entry with the key. -/
def valueOf (entries : List ConfigData) (key : List Char) : Option (List Char) :=
  (entries.find? fun data => data.1 = key).map Prod.snd

/-- The value that is written for a key: that of the first line of the section with the key. -/
def writtenValue (content name key : List Char) : Option (List Char) :=
  (configBlock content name).bind fun block => valueOf (writtenEntries block) key

/-- The file fits the limits: its lines, the parts of its lines, and the number of different
sections. -/
structure WithinLimits (content : List Char) : Prop where
  line : ∀ line ∈ content.splitOn '\n', line.length < mctConfigFileLineMaxLen
  header : ∀ line ∈ configLines content, (configLine line).headerName.isSome →
    ((mctConfigFileTrimLine line).takeWhile fun c => c ≠ ']').length ≤ mctConfigFileEntryMaxLen
  entry : ∀ line ∈ configLines content, ∀ data ∈ (configLine line).entryOf,
    data.1.length < mctConfigFileEntryMaxLen ∧ data.2.length < mctConfigFileEntryMaxLen
  sections : (headerNames ((configLines content).map configLine)).dedup.length ≤
    mctConfigFileSectionsMax

end Written

section Lines

variable {line : List Char}

/-- What the reader makes of a line. -/
def storedLine (line : List Char) : SectionLine (List Char) ConfigData :=
  if mctConfigFileIgnoreLine line then .other
  else mctConfigFileReadLine (mctConfigFileTrimLine line)

/-- A line that is left out is a comment or empty. -/
theorem trimLine_ignored (hline : '\n' ∉ line) (h : mctConfigFileIgnoreLine line) :
    mctConfigFileTrimLine line = [] ∨
      ∃ c cs, mctConfigFileTrimLine line = c :: cs ∧ (c = '#' ∨ c = ';') := by
  cases line with
  | nil => exact .inl rfl
  | cons c line =>
      have hkept : c = '#' ∨ c = ';' := by
        simp only [mctConfigFileIgnoreLine, Bool.decide_or, Bool.or_eq_true, decide_eq_true_eq] at h
        rcases h with h | h | h
        · exact .inl h
        · exact .inr h
        · exact absurd (h ▸ List.mem_cons_self) hline
      refine .inr ⟨c, mctConfigFileTrimLine line, ?_, hkept⟩
      rw [mctConfigFileTrimLine, List.filter_cons_of_pos, ← mctConfigFileTrimLine]
      rcases hkept with rfl | rfl
      · decide
      · decide

theorem not_isSpace_trimLine {c : Char} (h : c ∈ mctConfigFileTrimLine line) :
    isSpace c = false := by
  simpa using List.of_mem_filter h

/-- The name of a header that is not too long. -/
theorem sectionName_trimLine {cs : List Char} (hline : mctConfigFileTrimLine line = '[' :: cs)
    (hshort : (cs.takeWhile fun c => c ≠ ']').length < mctConfigFileEntryMaxLen) :
    mctConfigFileGetSectionNameFromString ('[' :: cs) =
      (cs.takeWhile fun c => c ≠ ']').filter fun c => c ≠ '[' := by
  have hspace : ∀ c ∈ '[' :: cs, isSpace c = false := fun c hc =>
    not_isSpace_trimLine (hline.symm ▸ hc)
  have hnewline : ∀ c ∈ '[' :: cs, c ≠ '\n' := by
    rintro _ hc rfl
    exact absurd (hspace _ hc) (by decide)
  have hskip : ∀ c ∈ '[' :: cs.take 99,
      decide (c = '[' ∨ isSpace c ∨ ¬ (c = ']' ∨ c = '\n')) = decide (c ≠ ']') := by
    intro c hc
    have hmem : c ∈ '[' :: cs := (List.take_subset 100 ('[' :: cs)) hc
    have hnotSpace := hspace c hmem
    have hnotNewline := hnewline c hmem
    by_cases hopen : c = '['
    · rw [hopen]
      decide
    · simp [hopen, hnotSpace, hnotNewline]
  have htake : ('[' :: cs).take mctConfigFileEntryMaxLen = '[' :: cs.take 99 := rfl
  have hfilter : ∀ c ∈ cs.takeWhile fun c => c ≠ ']',
      decide (¬ (c = '[' ∨ isSpace c)) = decide (c ≠ '[') := by
    intro c hc
    have hnotSpace := hspace c (List.mem_cons_of_mem _ ((List.takeWhile_prefix _).subset hc))
    simp [hnotSpace]
  rw [mctConfigFileGetSectionNameFromString, htake, takeWhile_congr_mem hskip,
    List.takeWhile_cons_of_pos (by decide), ← List.take_takeWhile,
    List.take_of_length_le (Nat.le_of_lt_succ hshort), List.filter_cons_of_neg (by decide),
    List.filter_congr hfilter]

theorem headerName_readLine {c : Char} {cs : List Char} (h : c ≠ '[') :
    (mctConfigFileReadLine (c :: cs)).headerName = none := by
  have hsection : ¬ mctConfigFileLineHasSection (c :: cs) := by
    rw [mctConfigFileLineHasSection, List.head?_cons]
    simpa using h
  rw [mctConfigFileReadLine, if_neg hsection]
  split
  · rfl
  · rfl

/-- A header within the limit is read as it is written. -/
theorem headerName_storedLine (hline : '\n' ∉ line)
    (hshort : (configLine line).headerName.isSome →
      ((mctConfigFileTrimLine line).takeWhile fun c => c ≠ ']').length ≤
        mctConfigFileEntryMaxLen) :
    (storedLine line).headerName = (configLine line).headerName := by
  rw [storedLine]
  by_cases hignored : mctConfigFileIgnoreLine line
  · rw [if_pos hignored, configLine]
    rcases trimLine_ignored hline hignored with htrim | ⟨c, cs, htrim, hc⟩
    · rw [htrim]
    · have hne : c ≠ '[' := by
        rcases hc with rfl | rfl
        · decide
        · decide
      rw [htrim]
      simp only
      rw [if_neg hne, if_pos hc]
  · rw [if_neg hignored]
    cases htrim : mctConfigFileTrimLine line with
    | nil =>
        rw [configLine, htrim]
        rfl
    | cons c cs =>
        by_cases hheader : c = '['
        · subst hheader
          have hwritten : configLine line =
              .header ((cs.takeWhile fun c => c ≠ ']').filter fun c => c ≠ '[') := by
            rw [configLine, htrim]
            exact if_pos rfl
          have hsection : mctConfigFileLineHasSection ('[' :: cs) := rfl
          rw [hwritten, htrim, List.takeWhile_cons_of_pos (by decide)] at hshort
          rw [hwritten, mctConfigFileReadLine, if_pos hsection,
            sectionName_trimLine htrim (hshort rfl)]
        · rw [configLine, htrim]
          simp only
          rw [if_neg hheader, headerName_readLine hheader]
          split
          · rfl
          · split
            · rfl
            · rfl

/-- Two parts without an equals sign are the two tokens of the line. -/
theorem getKeyValue_written {data : ConfigData} (h : writtenData line = some data)
    (hkey : data.1.length < mctConfigFileEntryMaxLen)
    (hvalue : data.2.length < mctConfigFileEntryMaxLen) :
    mctConfigFileGetKeyValue line = some data := by
  rw [writtenData] at h
  split at h
  · next key value hsplit =>
      split at h
      · next hne =>
          obtain rfl := Option.some.inj h
          have htokens : strtok '=' line = [key, value] := by
            rw [strtok, hsplit, List.filter_cons_of_pos (by simpa using hne.1),
              List.filter_cons_of_pos (by simpa using hne.2), List.filter_nil]
          rw [mctConfigFileGetKeyValue, htokens]
          simp only
          rw [List.take_of_length_le (Nat.le_sub_one_of_lt hkey),
            List.take_of_length_le (Nat.le_sub_one_of_lt hvalue)]
      · cases h
  · cases h

/-- A line with a key and a value is stored as it is written. -/
theorem storedLine_written (hline : '\n' ∉ line) {data : ConfigData}
    (h : configLine line = .entry data) (hkey : data.1.length < mctConfigFileEntryMaxLen)
    (hvalue : data.2.length < mctConfigFileEntryMaxLen) : storedLine line = .entry data := by
  rw [configLine] at h
  split at h
  · cases h
  · next c cs htrim =>
      split at h
      · cases h
      · next hheader =>
          split at h
          · cases h
          · next hcomment =>
              split at h
              · next written hwritten =>
                  obtain rfl := SectionLine.entry.inj h
                  have hkept : ¬ mctConfigFileIgnoreLine line := by
                    intro hignored
                    rcases trimLine_ignored hline hignored with hempty | ⟨d, ds, hstart, hd⟩
                    · rw [hempty] at htrim
                      cases htrim
                    · rw [hstart] at htrim
                      obtain ⟨rfl, -⟩ := List.cons.inj htrim
                      exact hcomment hd
                  have hsection : ¬ mctConfigFileLineHasSection (c :: cs) := by
                    rw [mctConfigFileLineHasSection, List.head?_cons]
                    simpa using hheader
                  rw [storedLine, if_neg hkept, htrim, mctConfigFileReadLine, if_neg hsection,
                    getKeyValue_written hwritten hkey hvalue]
              · cases h

/-- The name of a header is cut so that it is shorter than the limit. -/
theorem storedLine_header_short {name : List Char} (h : storedLine line = .header name) :
    name.length < mctConfigFileEntryMaxLen := by
  rw [storedLine] at h
  split at h
  · cases h
  · rw [mctConfigFileReadLine] at h
    split at h
    · next hsection =>
        obtain ⟨cs, hcs⟩ : ∃ cs, mctConfigFileTrimLine line = '[' :: cs := by
          rw [mctConfigFileLineHasSection, decide_eq_true_eq] at hsection
          exact List.head?_eq_some_iff.mp hsection
        have htake : ('[' :: cs).take mctConfigFileEntryMaxLen = '[' :: cs.take 99 := rfl
        have hlength : (cs.take 99).length ≤ 99 := List.length_take_le _ _
        rw [hcs, SectionLine.header.injEq, mctConfigFileGetSectionNameFromString, htake,
          List.takeWhile_cons_of_pos (by decide), List.filter_cons_of_neg (by decide)] at h
        rw [← h]
        apply Nat.lt_succ_of_le
        exact (List.length_filter_le _ _).trans
          ((List.takeWhile_prefix _).length_le.trans hlength)
    · split at h
      · cases h
      · cases h

theorem storedLine_entry_short {data : ConfigData} (h : storedLine line = .entry data) :
    data.1.length < mctConfigFileEntryMaxLen ∧ data.2.length < mctConfigFileEntryMaxLen := by
  rw [storedLine] at h
  split at h
  · cases h
  · rw [mctConfigFileReadLine] at h
    split at h
    · cases h
    · split at h
      · next stored hstored =>
          obtain rfl := SectionLine.entry.inj h
          rw [mctConfigFileGetKeyValue] at hstored
          split at hstored
          · obtain rfl := Option.some.inj hstored
            exact ⟨Nat.lt_succ_of_le (List.length_take_le _ _),
              Nat.lt_succ_of_le (List.length_take_le _ _)⟩
          · cases hstored
      · cases h

/-- A line means the same with its newline. -/
theorem storedLine_newline : storedLine (line ++ ['\n']) = storedLine line := by
  have htrim : mctConfigFileTrimLine (line ++ ['\n']) = mctConfigFileTrimLine line := by
    rw [mctConfigFileTrimLine, mctConfigFileTrimLine, List.filter_append,
      List.filter_cons_of_neg (by decide), List.filter_nil, List.append_nil]
  have hignored : mctConfigFileIgnoreLine (line ++ ['\n']) = mctConfigFileIgnoreLine line := by
    cases line with
    | nil => rfl
    | cons c cs => rfl
  rw [storedLine, storedLine, htrim, hignored]

theorem storedLine_cString_newline :
    storedLine (cString (line ++ ['\n'])) = storedLine (cString line) := by
  rw [cString, List.takeWhile_append]
  split
  · next hall =>
      have hself : cString line = line := (List.takeWhile_prefix _).eq_of_length hall
      rw [hself, List.takeWhile_cons_of_pos (by decide), List.takeWhile_nil, storedLine_newline]
  · rfl

end Lines

section Run

variable {content : List Char}

/-- Names that are compared whole. -/
def ShortNames (file : MctConfigFile) : Prop :=
  ∀ s ∈ file, s.name.length < mctConfigFileEntryMaxLen

theorem ShortNames.nil : ShortNames [] := by
  intro s hs
  cases hs

theorem strncmpEq_short {a b : List Char} (ha : a.length < mctConfigFileEntryMaxLen) :
    strncmpEq a b mctConfigFileEntryMaxLen ↔ a = b := by
  rw [strncmpEq, decide_eq_true_eq, List.take_of_length_le ha.le]
  constructor
  · intro h
    have hlength := congrArg List.length h
    rw [List.length_take] at hlength
    rw [h, List.take_of_length_le (by omega)]
  · rintro rfl
    exact (List.take_of_length_le ha.le).symm

theorem setSection_eq {file : MctConfigFile} (hfile : ShortNames file) {name : List Char}
    (hname : name.length < mctConfigFileEntryMaxLen) :
    mctConfigFileSetSection file name =
      if file.length < mctConfigFileSectionsMax ∧ name ∉ file.map FileSection.name then
        some (file ++ [⟨name, []⟩])
      else none := by
  have hused : mctConfigFileIsSectionName file name ↔ name ∈ file.map FileSection.name := by
    rw [mctConfigFileIsSectionName, List.any_eq_true, List.mem_map]
    exact exists_congr fun s => and_congr_right fun hs => strncmpEq_short (hfile s hs)
  rw [mctConfigFileSetSection, List.take_of_length_le hname.le]
  by_cases hroom : file.length < mctConfigFileSectionsMax
  · rw [if_neg (not_le.mpr hroom)]
    by_cases hmem : name ∈ file.map FileSection.name
    · rw [if_pos (hused.mpr hmem), if_neg fun hboth => hboth.2 hmem]
    · rw [if_neg (mt hused.mp hmem), if_pos ⟨hroom, hmem⟩]
  · rw [if_pos (not_lt.mp hroom), if_neg fun hboth => hroom hboth.1]

theorem setSectionData_eq (file : MctConfigFile) (str1 str2 : List Char) :
    mctConfigFileSetSectionData file str1 str2 =
      addEntry (mctConfigFileKeysMax - 1) file (str1, str2) := by
  rw [mctConfigFileSetSectionData, addEntry]
  congr 1
  funext s
  by_cases hroom : s.entries.length < mctConfigFileKeysMax - 1
  · rw [if_neg (by omega), if_pos hroom]
  · rw [if_pos (by omega), if_neg hroom]

/-- The reader is one with a limit of 125 sections and of 24 entries. -/
theorem readConfigLine_eq {st : MctConfigFile × Bool} (hst : ShortNames st.1)
    (buffer : List Char) :
    readConfigLine st buffer = readSectionLine mctConfigFileSectionsMax (mctConfigFileKeysMax - 1)
      st (storedLine (cString buffer)) := by
  obtain ⟨file, taken⟩ := st
  have hheader : ∀ name, storedLine (cString buffer) = .header name →
      name.length < mctConfigFileEntryMaxLen := fun name => storedLine_header_short
  rw [readConfigLine]
  rw [storedLine] at hheader ⊢
  simp only
  by_cases hignored : mctConfigFileIgnoreLine (cString buffer)
  · rw [if_pos hignored, if_pos hignored]
    cases taken with
    | true => rfl
    | false => rfl
  · rw [if_neg hignored] at hheader
    rw [if_neg hignored, if_neg hignored]
    cases hline : mctConfigFileReadLine (mctConfigFileTrimLine (cString buffer)) with
    | header name =>
        simp only
        rw [setSection_eq hst (hheader name hline), readSectionLine]
        split
        · next htaken =>
            split at htaken
            · next hroom => rw [if_pos hroom, Option.some.inj htaken]
            · cases htaken
        · next hrejected =>
            split at hrejected
            · cases hrejected
            · next hroom => rw [if_neg hroom]
    | entry data =>
        cases taken with
        | true => exact congrArg (·, true) (setSectionData_eq file data.1 data.2)
        | false => rfl
    | other =>
        cases taken with
        | true => rfl
        | false => rfl

theorem ShortNames.step {st : MctConfigFile × Bool} (hst : ShortNames st.1) (line : List Char)
    {maxSections maxEntries : Nat} :
    ShortNames (readSectionLine maxSections maxEntries st (storedLine line)).1 := by
  obtain ⟨file, taken⟩ := st
  cases hline : storedLine line with
  | header name =>
      rw [readSectionLine]
      split
      · intro s hs
        rcases List.mem_append.mp hs with hs | hs
        · exact hst s hs
        · rw [List.mem_singleton.mp hs]
          exact storedLine_header_short hline
      · exact hst
  | entry data =>
      cases taken with
      | true =>
          intro s hs
          have hname : s.name ∈ (addEntry maxEntries file data).map FileSection.name :=
            List.mem_map_of_mem hs
          rw [addEntry_names] at hname
          obtain ⟨old, hold, hsame⟩ := List.mem_map.mp hname
          rw [← hsame]
          exact hst old hold
      | false => exact hst
  | other =>
      cases taken with
      | true => exact hst
      | false => exact hst

/-- The names over a run. -/
theorem ShortNames.run {st : MctConfigFile × Bool} (hst : ShortNames st.1)
    (lines : List (List Char)) {maxSections maxEntries : Nat} :
    ShortNames (readSections maxSections maxEntries st (lines.map storedLine)).1 := by
  induction lines generalizing st with
  | nil => exact hst
  | cons line lines ih => exact ih (hst.step line)

/-- The run of the reader. -/
theorem foldl_readConfigLine {buffers : List (List Char)} {st : MctConfigFile × Bool}
    (hst : ShortNames st.1) :
    buffers.foldl readConfigLine st = readSections mctConfigFileSectionsMax
      (mctConfigFileKeysMax - 1) st (buffers.map fun buffer => storedLine (cString buffer)) := by
  induction buffers generalizing st with
  | nil => rfl
  | cons buffer buffers ih =>
      rw [List.foldl_cons, List.map_cons, readSections_cons, readConfigLine_eq hst]
      exact ih (hst.step (cString buffer))

/-- A file whose lines fit the buffer is read line by line. -/
theorem readFile_eq
    (hlines : ∀ line ∈ content.splitOn '\n', line.length < mctConfigFileLineMaxLen) :
    mctConfigFileReadFile content = (readSections mctConfigFileSectionsMax
      (mctConfigFileKeysMax - 1) ([], false) ((configLines content).map storedLine)).1 := by
  have hwhole : ∀ line ∈ content.splitOn '\n', line.length ≤ mctConfigFileLineMaxLen - 1 :=
    fun line hline => Nat.le_sub_one_of_lt (hlines line hline)
  rw [mctConfigFileReadFile, foldl_readConfigLine ShortNames.nil,
    readSections_readLines _ _ (fun _ => storedLine_cString_newline) rfl (by decide) hwhole,
    configLines, List.map_map]
  rfl

end Run

section Entries

variable {entries : List ConfigData} {key value : List Char}

/-- The first entry with the key stands behind `front`. -/
def FirstEntry (entries front : List ConfigData) (key value : List Char) : Prop :=
  (∃ back, entries = front ++ (key, value) :: back) ∧ key ∉ front.map Prod.fst

theorem FirstEntry.valueOf_take {front : List ConfigData}
    (h : FirstEntry entries front key value) (n : Nat) :
    valueOf (entries.take n) key = if front.length < n then some value else none := by
  obtain ⟨⟨back, rfl⟩, hfront⟩ := h
  have hnone : ∀ data ∈ front, ¬ decide (data.1 = key) := by
    intro data hdata heq
    exact hfront (List.mem_map.mpr ⟨data, hdata, by simpa using heq⟩)
  rw [valueOf, List.take_append, List.find?_append]
  split
  · next hlt =>
      obtain ⟨m, hm⟩ := Nat.exists_eq_add_of_lt hlt
      have hrest : n - front.length = m + 1 := by omega
      rw [List.take_of_length_le hlt.le, List.find?_eq_none.mpr hnone, Option.none_or, hrest,
        List.take_succ_cons, List.find?_cons_of_pos (by simp)]
      rfl
  · next hge =>
      have hrest : n - front.length = 0 := by omega
      have htake : ∀ data ∈ front.take n, ¬ decide (data.1 = key) := fun data hdata =>
        hnone data (List.take_subset _ _ hdata)
      rw [hrest, List.take_zero, List.find?_nil, Option.or_none, List.find?_eq_none.mpr htake]
      rfl

theorem valueOf_eq_some : valueOf entries key = some value ↔
    ∃ front, FirstEntry entries front key value := by
  constructor
  · intro h
    obtain ⟨⟨stored, _⟩, hfind, rfl⟩ := Option.map_eq_some_iff.mp h
    obtain ⟨hkey, front, back, hsplit, hfront⟩ := List.find?_eq_some_iff_append.mp hfind
    obtain rfl := of_decide_eq_true hkey
    refine ⟨front, ⟨back, hsplit⟩, fun hmem => ?_⟩
    obtain ⟨data, hdata, heq⟩ := List.mem_map.mp hmem
    simpa [heq] using hfront data hdata
  · rintro ⟨front, h⟩
    have htake := h.valueOf_take entries.length
    obtain ⟨⟨back, hsplit⟩, -⟩ := h
    have hlt : front.length < entries.length := by
      rw [hsplit, List.length_append, List.length_cons]
      omega
    rwa [List.take_length, if_pos hlt] at htake

theorem valueOf_eq_none : valueOf entries key = none ↔ key ∉ entries.map Prod.fst := by
  rw [valueOf, Option.map_eq_none_iff, List.find?_eq_none, List.mem_map, not_exists]
  apply forall_congr'
  intro data
  rw [not_and, decide_eq_true_eq]

end Entries

section Lookup

variable {content name key : List Char}

/-- What the reader makes of the lines of a block. -/
def storedEntries (block : List (List Char)) : List ConfigData :=
  block.filterMap fun line => (storedLine line).entryOf

/-- The lines of the section are stored as they are written: the first one that is split into
the key and a value is among the 24 that are stored, and the first one that is written with the
key has the same value; or none is written with the key, and none is among those stored. -/
def StoredAsWritten (content name key : List Char) : Prop :=
  ∀ block ∈ configBlock content name, ∀ front value,
    FirstEntry (storedEntries block) front key value →
      if front.length < mctConfigFileKeysMax - 1 then
        ∃ above, FirstEntry (writtenEntries block) above key value
      else key ∉ (writtenEntries block).map Prod.fst

theorem newline_not_mem {line : List Char} (h : line ∈ configLines content) : '\n' ∉ line := by
  obtain ⟨whole, hwhole, rfl⟩ := List.mem_map.mp h
  intro hmem
  have hnewline : '\n' ∈ whole := (List.takeWhile_prefix _).subset hmem
  have hne : whole ≠ [] := List.ne_nil_of_mem hnewline
  exact (mem_strtok (List.mem_filter.mpr ⟨hwhole, by simpa using hne⟩)).2 hnewline

/-- The headers are read as they are written. -/
theorem firstBlock_storedLine (hlimits : WithinLimits content) :
    firstBlock SectionLine.headerName name ((configLines content).map storedLine) =
      (configBlock content name).map (List.map storedLine) := by
  rw [firstBlock_map, configBlock]
  apply congrArg
  apply firstBlock_congr
  intro line hline
  exact headerName_storedLine (newline_not_mem hline) (hlimits.header line hline)

theorem headerNames_storedLine (hlimits : WithinLimits content) :
    headerNames ((configLines content).map storedLine) =
      headerNames ((configLines content).map configLine) := by
  rw [headerNames, headerNames, List.filterMap_map, List.filterMap_map]
  apply List.filterMap_congr
  intro line hline
  exact headerName_storedLine (newline_not_mem hline) (hlimits.header line hline)

/-- What is written in a block is among what is stored of its lines. -/
theorem writtenEntries_subset (hlimits : WithinLimits content) {block : List (List Char)}
    (hblock : block ⊆ configLines content) : writtenEntries block ⊆ storedEntries block := by
  intro data hdata
  obtain ⟨line, hline, hwritten⟩ := List.mem_filterMap.mp hdata
  have hmem := hblock hline
  have hentry : configLine line = .entry data := by
    cases hconfig : configLine line with
    | header other => simp [hconfig, SectionLine.entryOf] at hwritten
    | entry other =>
        rw [hconfig] at hwritten
        rw [Option.some.inj hwritten]
    | other => simp [hconfig, SectionLine.entryOf] at hwritten
  obtain ⟨hkey, hvalue⟩ := hlimits.entry line hmem data hwritten
  refine List.mem_filterMap.mpr ⟨line, hline, ?_⟩
  rw [storedLine_written (newline_not_mem hmem) hentry hkey hvalue]
  rfl

theorem storedEntries_short {block : List (List Char)} {data : ConfigData}
    (h : data ∈ storedEntries block) :
    data.1.length < mctConfigFileEntryMaxLen ∧ data.2.length < mctConfigFileEntryMaxLen := by
  obtain ⟨line, -, hstored⟩ := List.mem_filterMap.mp h
  cases hline : storedLine line with
  | header other => simp [hline, SectionLine.entryOf] at hstored
  | entry other =>
      rw [hline] at hstored
      obtain rfl := Option.some.inj hstored
      exact storedLine_entry_short hline
  | other => simp [hline, SectionLine.entryOf] at hstored

/-- The value is that of the first entry with the key, among the first 24 of the section. -/
theorem getValue_eq (hlimits : WithinLimits content) :
    mctConfigFileGetValue (mctConfigFileReadFile content) name key =
      (configBlock content name).bind fun block =>
        valueOf ((storedEntries block).take (mctConfigFileKeysMax - 1)) key := by
  have hsections : (headerNames ((configLines content).map storedLine)).dedup.length ≤
      mctConfigFileSectionsMax := by
    rw [headerNames_storedLine hlimits]
    exact hlimits.sections
  have hlookup := @lookupSection_readSections _ _ _ mctConfigFileSectionsMax
    (mctConfigFileKeysMax - 1) ((configLines content).map storedLine) name hsections
  have hshort : ShortNames (mctConfigFileReadFile content) := by
    rw [readFile_eq hlimits.line]
    exact ShortNames.nil.run _
  have hfind : mctConfigFileFindSection (mctConfigFileReadFile content) name =
      (mctConfigFileReadFile content).find? fun s => s.name = name := by
    rw [mctConfigFileFindSection]
    apply List.find?_congr
    intro s hs
    rw [Bool.eq_iff_iff, strncmpEq_short (hshort s hs), decide_eq_true_eq]
  rw [← readFile_eq hlimits.line, firstBlock_storedLine hlimits, lookupSection, ← hfind] at hlookup
  rw [mctConfigFileGetValue]
  cases hblock : configBlock content name with
  | none =>
      rw [hblock, Option.map_none, Option.map_none, Option.map_eq_none_iff] at hlookup
      rw [hlookup]
      rfl
  | some block =>
      rw [hblock, Option.map_some, Option.map_some, List.filterMap_map] at hlookup
      obtain ⟨s, hs, hentries⟩ := Option.map_eq_some_iff.mp hlookup
      have hstored : s.entries = (storedEntries block).take (mctConfigFileKeysMax - 1) := hentries
      have hsize : ∀ data ∈ s.entries, data.1.length < mctConfigFileEntryMaxLen ∧
          data.2.length < mctConfigFileEntryMaxLen := by
        intro data hdata
        rw [hstored] at hdata
        exact storedEntries_short (List.take_subset _ _ hdata)
      have hkeys : s.entries.find? (fun data => strncmpEq data.1 key mctConfigFileEntryMaxLen) =
          s.entries.find? fun data => data.1 = key := by
        apply List.find?_congr
        intro data hdata
        rw [Bool.eq_iff_iff, strncmpEq_short (hsize data hdata).1, decide_eq_true_eq]
      have hvalues : (s.entries.find? fun data => data.1 = key).map
          (fun data => data.2.take mctConfigFileEntryMaxLen) = valueOf s.entries key := by
        apply Option.map_congr
        intro data hdata
        exact List.take_of_length_le (hsize data (List.mem_of_find?_eq_some hdata)).2.le
      rw [hs, Option.bind_some, ← hstored, ← hvalues, ← hkeys]

/-- The value that is found is the one that is written exactly where the lines of the section
are stored as they are written. -/
theorem getValue_iff (hlimits : WithinLimits content) :
    mctConfigFileGetValue (mctConfigFileReadFile content) name key =
      writtenValue content name key ↔ StoredAsWritten content name key := by
  rw [getValue_eq hlimits, writtenValue, StoredAsWritten]
  cases hblock : configBlock content name with
  | none => exact ⟨fun _ => nofun, fun _ => rfl⟩
  | some block =>
      have hsubset := writtenEntries_subset hlimits (firstBlock_subset hblock)
      rw [Option.bind_some, Option.bind_some]
      simp only [Option.mem_def, Option.some.injEq, forall_eq']
      constructor
      · intro h front value hfirst
        rw [hfirst.valueOf_take] at h
        split
        · next hroom =>
            rw [if_pos hroom] at h
            exact valueOf_eq_some.mp h.symm
        · next hfull =>
            rw [if_neg hfull] at h
            exact valueOf_eq_none.mp h.symm
      · intro h
        cases hvalue : valueOf (storedEntries block) key with
        | none =>
            have hkey := valueOf_eq_none.mp hvalue
            have hstored : key ∉ ((storedEntries block).take (mctConfigFileKeysMax - 1)).map
                Prod.fst := fun hmem => hkey (List.map_subset _ (List.take_subset _ _) hmem)
            have hwritten : key ∉ (writtenEntries block).map Prod.fst := fun hmem =>
              hkey (List.map_subset _ hsubset hmem)
            rw [valueOf_eq_none.mpr hstored, valueOf_eq_none.mpr hwritten]
        | some value =>
            obtain ⟨front, hfirst⟩ := valueOf_eq_some.mp hvalue
            have hwritten := h front value hfirst
            rw [hfirst.valueOf_take]
            split at hwritten
            · next hroom => rw [if_pos hroom, valueOf_eq_some.mpr hwritten]
            · next hfull => rw [if_neg hfull, valueOf_eq_none.mpr hwritten]

/-- The value in a small file. -/
theorem getValue_iff_small :
    WithinLimits "; sections\n[ one ]\nkey = 1\nkey = 2\n".toList ∧
      StoredAsWritten "; sections\n[ one ]\nkey = 1\nkey = 2\n".toList "one".toList
        "key".toList := by
  have hlimits : WithinLimits "; sections\n[ one ]\nkey = 1\nkey = 2\n".toList := by
    constructor
    · decide
    · decide
    · decide
    · decide
  exact ⟨hlimits, (getValue_iff hlimits).mp (by decide +kernel)⟩

/-- A section with as many keys as the limit allows. -/
def fullSection : List Char :=
  ("[s]\na=1\nb=1\nc=1\nd=1\ne=1\nf=1\ng=1\nh=1\ni=1\nj=1\nk=1\nl=1\nm=1\n" ++
    "n=1\no=1\np=1\nq=1\nr=1\ns=1\nt=1\nu=1\nv=1\nw=1\nx=1\ny=1\n").toList

/-- The last of 25 keys is not stored. -/
theorem fullSection_last_lost :
    WithinLimits fullSection ∧
      (configBlock fullSection "s".toList).map (fun block => (writtenEntries block).length) =
        some mctConfigFileKeysMax ∧
      writtenValue fullSection "s".toList "y".toList = some "1".toList ∧
      mctConfigFileGetValue (mctConfigFileReadFile fullSection) "s".toList "y".toList = none := by
  refine ⟨?_, ?_, ?_, ?_⟩
  · constructor
    · decide +kernel
    · decide +kernel
    · decide +kernel
    · decide +kernel
  · decide +kernel
  · decide +kernel
  · decide +kernel

end Lookup

end MctDaemon.Shared
