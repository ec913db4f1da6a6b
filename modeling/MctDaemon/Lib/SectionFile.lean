import Mathlib.Data.List.Dedup
import Mathlib.Data.List.TakeWhile
import Mathlib.Tactic
import MctDaemon.Lib.TextFile

/-!
Files of sections: a header line opens a section, the entry lines below it belong to it, up to
the next header. A reader with a limit for sections and one for the entries of a section keeps
the first section of each name; what it holds of a name is the first block of that name, cut at
the limit.
-/

namespace MctDaemon.Lib

inductive SectionLine (ν ε : Type*) where
  | header (name : ν)
  | entry (entry : ε)
  | other
  deriving DecidableEq, Repr

structure FileSection (ν ε : Type*) where
  name : ν
  entries : List ε
  deriving DecidableEq, Repr

variable {ν ε : Type*}

namespace SectionLine

def headerName : SectionLine ν ε → Option ν
  | header name => some name
  | _ => none

def entryOf : SectionLine ν ε → Option ε
  | entry e => some e
  | _ => none

end SectionLine

/-- The lines below the first header of the name, up to the next header; none if the name has
no header. -/
def firstBlock [DecidableEq ν] {α : Type*} (header : α → Option ν) (name : ν) :
    List α → Option (List α)
  | [] => none
  | line :: lines =>
      if header line = some name then some (lines.takeWhile fun line => (header line).isNone)
      else firstBlock header name lines

section Blocks

variable [DecidableEq ν] {α β : Type*} {name : ν}

/-- A block of lines that are read through a function. -/
theorem firstBlock_map (header : β → Option ν) (f : α → β) (lines : List α) :
    firstBlock header name (lines.map f) =
      (firstBlock (header ∘ f) name lines).map (List.map f) := by
  induction lines with
  | nil => rfl
  | cons line lines ih =>
      rw [List.map_cons, firstBlock, firstBlock]
      by_cases hline : header (f line) = some name
      · have hcomp : (header ∘ f) line = some name := hline
        rw [if_pos hline, if_pos hcomp, Option.map_some, List.takeWhile_map]
        rfl
      · have hcomp : ¬ (header ∘ f) line = some name := hline
        rw [if_neg hline, if_neg hcomp, ih]

theorem takeWhile_congr_mem {p q : α → Bool} {lines : List α}
    (h : ∀ line ∈ lines, p line = q line) :
    lines.takeWhile p = lines.takeWhile q := by
  induction lines with
  | nil => rfl
  | cons line lines ih =>
      rw [List.takeWhile_cons, List.takeWhile_cons, h line List.mem_cons_self,
        ih fun below hmem => h below (List.mem_cons_of_mem _ hmem)]

theorem firstBlock_congr {header header' : α → Option ν} {lines : List α}
    (h : ∀ line ∈ lines, header line = header' line) :
    firstBlock header name lines = firstBlock header' name lines := by
  induction lines with
  | nil => rfl
  | cons line lines ih =>
      have hrest : ∀ line ∈ lines, header line = header' line := fun below hmem =>
        h below (List.mem_cons_of_mem _ hmem)
      have htake : lines.takeWhile (fun line => (header line).isNone) =
          lines.takeWhile (fun line => (header' line).isNone) :=
        takeWhile_congr_mem fun below hmem => congrArg Option.isNone (hrest below hmem)
      rw [firstBlock, firstBlock, h line List.mem_cons_self, htake, ih hrest]

theorem firstBlock_subset {header : α → Option ν} {lines block : List α}
    (h : firstBlock header name lines = some block) : block ⊆ lines := by
  induction lines with
  | nil => cases h
  | cons line lines ih =>
      rw [firstBlock] at h
      split at h
      · rw [← Option.some.inj h]
        exact fun below hmem =>
          List.mem_cons_of_mem _ ((List.takeWhile_prefix _).subset hmem)
      · exact fun below hmem => List.mem_cons_of_mem _ (ih h hmem)

end Blocks

def headerNames (lines : List (SectionLine ν ε)) : List ν :=
  lines.filterMap SectionLine.headerName

section Entries

variable (maxEntries : Nat)

def addEntry (file : List (FileSection ν ε)) (e : ε) : List (FileSection ν ε) :=
  file.modify (file.length - 1) fun s =>
    if s.entries.length < maxEntries then { s with entries := s.entries ++ [e] } else s

variable {maxEntries} {file : List (FileSection ν ε)}

theorem addEntry_names (e : ε) :
    (addEntry maxEntries file e).map FileSection.name = file.map FileSection.name := by
  rw [addEntry]
  apply List.ext_getElem?
  intro i
  rw [List.getElem?_map, List.getElem?_map, List.getElem?_modify]
  cases file[i]? with
  | none => rfl
  | some s =>
      simp only [Option.map_eq_map, Option.map_some, Option.some.injEq]
      split
      · split
        · rfl
        · rfl
      · rfl

theorem modify_last {α : Type*} (l : List α) (a : α) (f : α → α) :
    (l ++ [a]).modify l.length f = l ++ [f a] := by
  induction l with
  | nil => rfl
  | cons b l ih =>
      rw [List.cons_append, List.length_cons, List.modify_succ_cons, ih, List.cons_append]

theorem addEntry_append (s : FileSection ν ε) (e : ε) :
    addEntry maxEntries (file ++ [s]) e = file ++
      [if s.entries.length < maxEntries then { s with entries := s.entries ++ [e] } else s] := by
  rw [addEntry, List.length_append, List.length_singleton, Nat.add_sub_cancel, modify_last]

/-- What stands in front of the last section is left alone. -/
theorem prefix_addEntry {base : List (FileSection ν ε)} (h : base <+: file)
    (hlonger : base.length < file.length) (e : ε) : base <+: addEntry maxEntries file e := by
  obtain ⟨more, rfl⟩ := h
  rcases List.eq_nil_or_concat' more with rfl | ⟨init, s, rfl⟩
  · rw [List.append_nil] at hlonger
    exact absurd hlonger (lt_irrefl _)
  · rw [← List.append_assoc, addEntry_append, List.append_assoc]
    exact List.prefix_append _ _

end Entries

section Reader

variable [DecidableEq ν] (maxSections maxEntries : Nat)

/-- The reader on a line: its sections, and whether the last header was taken. -/
def readSectionLine : List (FileSection ν ε) × Bool → SectionLine ν ε →
    List (FileSection ν ε) × Bool
  | (file, _), .header name =>
      if file.length < maxSections ∧ name ∉ file.map FileSection.name then
        (file ++ [⟨name, []⟩], true)
      else (file, false)
  | (file, true), .entry e => (addEntry maxEntries file e, true)
  | (file, false), .entry _ => (file, false)
  | (file, taken), .other => (file, taken)

def readSections (st : List (FileSection ν ε) × Bool) (lines : List (SectionLine ν ε)) :
    List (FileSection ν ε) × Bool :=
  lines.foldl (readSectionLine maxSections maxEntries) st

theorem readSections_append (st : List (FileSection ν ε) × Bool)
    (front back : List (SectionLine ν ε)) :
    readSections maxSections maxEntries st (front ++ back) =
      readSections maxSections maxEntries (readSections maxSections maxEntries st front) back :=
  List.foldl_append

theorem readSections_cons (st : List (FileSection ν ε) × Bool) (line : SectionLine ν ε)
    (lines : List (SectionLine ν ε)) :
    readSections maxSections maxEntries st (line :: lines) =
      readSections maxSections maxEntries (readSectionLine maxSections maxEntries st line) lines :=
  rfl

theorem readSectionLine_other (st : List (FileSection ν ε) × Bool) :
    readSectionLine maxSections maxEntries st .other = st := by
  obtain ⟨file, taken⟩ := st
  cases taken with
  | true => rfl
  | false => rfl

/-- Lines that fit the buffer are read whole: a newline changes the meaning of no line. -/
theorem readSections_readLines {meaning : List Char → SectionLine ν ε} {size : Nat}
    (hnewline : ∀ line, meaning (line ++ ['\n']) = meaning line) (hempty : meaning [] = .other)
    (hsize : 0 < size) {content : List Char}
    (hlines : ∀ line ∈ content.splitOn '\n', line.length ≤ size)
    (st : List (FileSection ν ε) × Bool) :
    readSections maxSections maxEntries st ((readLines size content).map meaning) =
      readSections maxSections maxEntries st ((content.splitOn '\n').map meaning) := by
  -- the lines are taken from the front of the file
  induction hlength : content.length using Nat.strong_induction_on generalizing content st with
  | _ n ih =>
      by_cases hmem : '\n' ∈ content
      · obtain ⟨line, rest, rfl, hline⟩ := List.eq_append_cons_of_mem hmem
        rw [List.splitOn_append_cons_self_of_not_mem hline] at hlines ⊢
        have hshort : line.length ≤ size := hlines line List.mem_cons_self
        have hrest : rest.length < n := by
          rw [← hlength, List.length_append, List.length_cons]
          omega
        have hwhole : (line ++ ['\n']).length ≤ 2 * size := by
          rw [List.length_append, List.length_singleton]
          omega
        have hpieces : readSections maxSections maxEntries st
            ((linePieces size (line ++ ['\n'])).map meaning) =
              readSectionLine maxSections maxEntries st (meaning line) := by
          rcases linePieces_newline hshort with hone | htwo
          · rw [hone, List.map_singleton, hnewline]
            rfl
          · have hend : meaning ['\n'] = .other := (hnewline []).trans hempty
            rw [htwo, List.map_cons, List.map_singleton, hend, readSections_cons,
              readSections_cons, readSectionLine_other]
            rfl
        rw [List.append_cons line '\n' rest, readLines_line hline hsize hwhole, List.map_append,
          readSections_append, hpieces, List.map_cons, readSections_cons]
        exact ih _ hrest (fun below hbelow => hlines below (List.mem_cons_of_mem _ hbelow)) _ rfl
      · rw [List.splitOn_eq_singleton hmem] at hlines ⊢
        cases content with
        | nil =>
            rw [List.map_singleton, hempty, readSections_cons, readSectionLine_other]
            rfl
        | cons c cs =>
            rw [readLines_last hmem (List.cons_ne_nil c cs) (hlines _ List.mem_cons_self)]

/-- The section of a name, as far as it is kept. -/
def lookupSection (file : List (FileSection ν ε)) (name : ν) : Option (List ε) :=
  (file.find? fun s => s.name = name).map FileSection.entries

variable {maxSections maxEntries} {file : List (FileSection ν ε)} {taken : Bool}
  {lines : List (SectionLine ν ε)} {name : ν}

/-- No name twice, and only names of headers. -/
structure Named (file : List (FileSection ν ε)) (names : List ν) : Prop where
  nodup : (file.map FileSection.name).Nodup
  subset : file.map FileSection.name ⊆ names

theorem Named.step {names : List ν} (h : Named file names) (line : SectionLine ν ε)
    (hline : ∀ name, line.headerName = some name → name ∈ names) :
    Named (readSectionLine maxSections maxEntries (file, taken) line).1 names := by
  cases line with
  | header name =>
      rw [readSectionLine]
      split
      · next htaken =>
          have hnodup := h.nodup.concat htaken.2
          rw [List.concat_eq_append] at hnodup
          refine ⟨?_, ?_⟩
          · rw [List.map_append]
            exact hnodup
          · rw [List.map_append]
            refine List.append_subset.mpr ⟨h.subset, fun other hother => ?_⟩
            rw [List.map_singleton, List.mem_singleton] at hother
            exact hother ▸ hline name rfl
      · exact h
  | entry e =>
      cases taken with
      | true =>
          refine ⟨?_, ?_⟩
          · rw [readSectionLine, addEntry_names]
            exact h.nodup
          · rw [readSectionLine, addEntry_names]
            exact h.subset
      | false => exact h
  | other =>
      cases taken with
      | true => exact h
      | false => exact h

/-- The names over a run. -/
theorem Named.run {names : List ν} (h : Named file names)
    (hlines : headerNames lines ⊆ names) :
    Named (readSections maxSections maxEntries (file, taken) lines).1 names := by
  induction lines generalizing file taken with
  | nil => exact h
  | cons line lines ih =>
      have hstep := @Named.step _ _ _ maxSections maxEntries file taken names h line
        fun name hname => hlines (List.mem_filterMap.mpr ⟨line, List.mem_cons_self, hname⟩)
      have hrest : headerNames lines ⊆ names := fun name hname => hlines (by
        obtain ⟨below, hmem, hbelow⟩ := List.mem_filterMap.mp hname
        exact List.mem_filterMap.mpr ⟨below, List.mem_cons_of_mem _ hmem, hbelow⟩)
      exact ih hstep hrest

/-- The lines of a block are entries of the section. -/
theorem readSections_block {entries : List ε} (hlines : ∀ line ∈ lines, line.headerName = none)
    (hentries : entries.length ≤ maxEntries) :
    readSections maxSections maxEntries (file ++ [⟨name, entries⟩], true) lines =
      (file ++ [⟨name, (entries ++ lines.filterMap SectionLine.entryOf).take maxEntries⟩],
        true) := by
  induction lines generalizing entries with
  | nil =>
      rw [List.filterMap_nil, List.append_nil, List.take_of_length_le hentries]
      rfl
  | cons line lines ih =>
      have hrest : ∀ line ∈ lines, line.headerName = none := fun below hmem =>
        hlines below (List.mem_cons_of_mem _ hmem)
      rw [readSections_cons]
      cases line with
      | header above => cases hlines _ List.mem_cons_self
      | other => exact ih hrest hentries
      | entry e =>
          rw [readSectionLine, addEntry_append]
          split
          · next hroom =>
              rw [ih hrest (by rw [List.length_append]; exact hroom), List.append_assoc]
              rfl
          · next hfull =>
              have hlength : entries.length = maxEntries := le_antisymm hentries (not_lt.mp hfull)
              rw [ih hrest hentries, List.take_left' hlength, List.take_left' hlength]

/-- Behind a block, the sections read so far stay as they are. -/
theorem readSections_prefix {base : List (FileSection ν ε)} (h : base <+: file)
    (htaken : taken → base.length < file.length) :
    base <+: (readSections maxSections maxEntries (file, taken) lines).1 := by
  induction lines generalizing file taken with
  | nil => exact h
  | cons line lines ih =>
      rw [readSections_cons]
      cases line with
      | header name =>
          rw [readSectionLine]
          split
          · apply ih (h.trans (List.prefix_append _ _))
            intro _
            rw [List.length_append]
            exact Nat.lt_succ_of_le h.length_le
          · exact ih h nofun
      | entry e =>
          cases taken with
          | true =>
              apply ih (prefix_addEntry h (htaken rfl) e)
              intro _
              rw [addEntry, List.length_modify]
              exact htaken rfl
          | false => exact ih h nofun
      | other =>
          cases taken with
          | true => exact ih h htaken
          | false => exact ih h nofun

omit [DecidableEq ν] in
/-- A block ends with the file or in front of a header. -/
theorem block_split (lines : List (SectionLine ν ε)) :
    ∃ post, lines = (lines.takeWhile fun line => line.headerName.isNone) ++ post ∧
      ∀ line ∈ post.head?, line.headerName ≠ none := by
  refine ⟨lines.dropWhile fun line => line.headerName.isNone,
    (List.takeWhile_append_dropWhile).symm, ?_⟩
  intro line hline hnone
  have hhead :=
    List.head?_dropWhile_not (fun line : SectionLine ν ε => line.headerName.isNone) lines
  rw [Option.mem_def.mp hline] at hhead
  simp only [hnone, Option.isNone_none, Bool.true_eq_false] at hhead

/-- The first header of a name, with its block. -/
theorem firstBlock_split {block : List (SectionLine ν ε)}
    (h : firstBlock SectionLine.headerName name lines = some block) :
    ∃ pre post, lines = pre ++ .header name :: (block ++ post) ∧ name ∉ headerNames pre ∧
      (∀ line ∈ block, line.headerName = none) ∧ ∀ line ∈ post.head?, line.headerName ≠ none := by
  induction lines with
  | nil => cases h
  | cons line lines ih =>
      rw [firstBlock] at h
      split at h
      · next hline =>
          obtain ⟨post, hpost, hhead⟩ := block_split lines
          rw [Option.some.inj h] at hpost
          have hheader : line = .header name := by
            cases line with
            | header other => rw [Option.some.inj hline]
            | entry e => cases hline
            | other => cases hline
          refine ⟨[], post, by rw [hheader, List.nil_append, ← hpost], List.not_mem_nil, ?_, hhead⟩
          intro below hbelow
          rw [← Option.some.inj h] at hbelow
          have hnone := @List.mem_takeWhile_imp _
            (fun line : SectionLine ν ε => line.headerName.isNone) _ _ hbelow
          exact Option.isNone_iff_eq_none.mp hnone
      · next hline =>
          obtain ⟨pre, post, hlines, hpre, hblock, hhead⟩ := ih h
          refine ⟨line :: pre, post, by rw [hlines, List.cons_append], ?_, hblock, hhead⟩
          intro hmem
          obtain ⟨above, habove, hname⟩ := List.mem_filterMap.mp hmem
          rcases List.mem_cons.mp habove with rfl | habove
          · exact hline hname
          · exact hpre (List.mem_filterMap.mpr ⟨above, habove, hname⟩)

theorem firstBlock_eq_none (h : firstBlock SectionLine.headerName name lines = none) :
    name ∉ headerNames lines := by
  induction lines with
  | nil => exact List.not_mem_nil
  | cons line lines ih =>
      rw [firstBlock] at h
      split at h
      · cases h
      · next hline =>
          intro hmem
          obtain ⟨above, habove, hname⟩ := List.mem_filterMap.mp hmem
          rcases List.mem_cons.mp habove with rfl | habove
          · exact hline hname
          · exact ih h (List.mem_filterMap.mpr ⟨above, habove, hname⟩)

theorem lookupSection_append {entries : List ε} {more : List (FileSection ν ε)}
    (hname : name ∉ file.map FileSection.name) :
    lookupSection (file ++ ⟨name, entries⟩ :: more) name = some entries := by
  have hnone : file.find? (fun s => s.name = name) = none := by
    rw [List.find?_eq_none]
    intro s hs heq
    exact hname (List.mem_map.mpr ⟨s, hs, by simpa using heq⟩)
  rw [lookupSection, List.find?_append, hnone, Option.none_or, List.find?_cons_of_pos (by simp)]
  rfl

theorem lookupSection_eq_none (hname : name ∉ file.map FileSection.name) :
    lookupSection file name = none := by
  have hnone : file.find? (fun s => s.name = name) = none := by
    rw [List.find?_eq_none]
    intro s hs heq
    exact hname (List.mem_map.mpr ⟨s, hs, by simpa using heq⟩)
  rw [lookupSection, hnone, Option.map_none]

/-- What is kept of a name: the first entries of its first block. -/
theorem lookupSection_readSections (hnames : (headerNames lines).dedup.length ≤ maxSections) :
    lookupSection (readSections maxSections maxEntries ([], false) lines).1 name =
      (firstBlock SectionLine.headerName name lines).map fun block =>
        (block.filterMap SectionLine.entryOf).take maxEntries := by
  cases hblock : firstBlock SectionLine.headerName name lines with
  | none =>
      have hrun := @Named.run _ _ _ maxSections maxEntries [] false lines (headerNames lines)
        ⟨List.nodup_nil, List.nil_subset _⟩ (List.Subset.refl _)
      exact lookupSection_eq_none fun hmem => firstBlock_eq_none hblock (hrun.subset hmem)
  | some block =>
      obtain ⟨pre, post, rfl, hpre, hnone, hhead⟩ := firstBlock_split hblock
      have hrun := @Named.run _ _ _ maxSections maxEntries [] false pre (headerNames pre)
        ⟨List.nodup_nil, List.nil_subset _⟩ (List.Subset.refl _)
      rw [readSections_append]
      generalize readSections maxSections maxEntries ([], false) pre = st at hrun
      obtain ⟨file, taken⟩ := st
      have hfresh : name ∉ file.map FileSection.name := fun hmem => hpre (hrun.subset hmem)
      have hroom : file.length < maxSections := by
        have hnodup : (name :: file.map FileSection.name).Nodup :=
          List.nodup_cons.mpr ⟨hfresh, hrun.nodup⟩
        have hsubset : name :: file.map FileSection.name ⊆
            (headerNames (pre ++ .header name :: (block ++ post))).dedup := by
          intro other hother
          rw [List.mem_dedup, headerNames, List.filterMap_append, List.mem_append]
          rcases List.mem_cons.mp hother with rfl | hother
          · exact .inr (List.mem_filterMap.mpr ⟨_, List.mem_cons_self, rfl⟩)
          · exact .inl (hrun.subset hother)
        have hle := (List.subperm_of_subset hnodup hsubset).length_le
        rw [List.length_cons, List.length_map] at hle
        omega
      rw [readSections_cons, readSectionLine, if_pos ⟨hroom, hfresh⟩, readSections_append,
        readSections_block hnone (Nat.zero_le _), List.nil_append]
      -- what comes behind the block starts with a header
      have hkept : file ++ [⟨name, (block.filterMap SectionLine.entryOf).take maxEntries⟩] <+:
          (readSections maxSections maxEntries (file ++ [⟨name,
            (block.filterMap SectionLine.entryOf).take maxEntries⟩], true) post).1 := by
        cases post with
        | nil => exact List.prefix_refl _
        | cons line post =>
            cases line with
            | entry e => exact absurd rfl (hhead _ rfl)
            | other => exact absurd rfl (hhead _ rfl)
            | header next =>
                rw [readSections_cons, readSectionLine]
                split
                · apply readSections_prefix (List.prefix_append _ _)
                  intro _
                  simp
                · exact readSections_prefix (List.prefix_refl _) nofun
      obtain ⟨more, hmore⟩ := hkept
      rw [← hmore, List.append_assoc, List.singleton_append, lookupSection_append hfresh,
        Option.map_some]

end Reader

end MctDaemon.Lib
