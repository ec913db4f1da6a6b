import Mathlib.Data.Char
import Mathlib.Data.List.DropRight
import Mathlib.Data.List.Lex
import Mathlib.Tactic

/-!
A store of files under paths: what the calls that open, write and remove files
leave in it, and the names that a directory lists. A path is given by its
components, so that texts that name the same file have the same path.
-/

namespace MctDaemon.Lib

/-- The names of the directories of a file, and its own name. -/
abbrev FilePath := List (List Char)

section Paths

/-- The components of a path; empty ones and `.` do not count. -/
def resolve (text : List Char) : FilePath :=
  (text.splitOn '/').filter fun part => part ≠ [] ∧ part ≠ ['.']

def basename (text : List Char) : List Char :=
  let stripped := text.rdropWhile (· = '/')
  if stripped = [] then (if text = [] then ['.'] else ['/'])
  else stripped.rtakeWhile (· ≠ '/')

def dirname (text : List Char) : List Char :=
  let stripped := text.rdropWhile (· = '/')
  if stripped = [] then (if text = [] then ['.'] else ['/'])
  else
    let front := stripped.rdropWhile (· ≠ '/')
    if front = [] then ['.']
    else
      let directory := front.rdropWhile (· = '/')
      if directory = [] then ['/'] else directory

/-- A part between two slashes has no slash. -/
theorem slash_of_mem_splitOn {text part : List Char} (h : part ∈ text.splitOn '/') :
    '/' ∉ part := by
  induction text generalizing part with
  | nil =>
      rw [List.splitOn_nil, List.mem_singleton] at h
      rw [h]
      exact List.not_mem_nil
  | cons c text ih =>
      rw [List.splitOn_cons_eq_if_modifyHead] at h
      split at h
      · rcases List.mem_cons.mp h with rfl | hrest
        · exact List.not_mem_nil
        · exact ih hrest
      · next hc =>
          obtain ⟨first, others, hsplit⟩ :=
            List.exists_cons_of_ne_nil (List.splitOn_ne_nil '/' text)
          rw [hsplit, List.modifyHead_cons] at h
          rcases List.mem_cons.mp h with rfl | hrest
          · rw [List.mem_cons, not_or]
            exact ⟨fun hslash => hc (by simp [← hslash]), ih (by simp [hsplit])⟩
          · exact ih (by simp [hsplit, hrest])

/-- A directory and a name in it. -/
theorem resolve_append (s t : List Char) : resolve (s ++ '/' :: t) = resolve s ++ resolve t := by
  rw [resolve, List.splitOn_append_cons_self, List.filter_append]
  rfl

structure ProperName (part : List Char) : Prop where
  nonempty : part ≠ []
  dot : part ≠ ['.']
  slash : '/' ∉ part

theorem proper_of_mem_resolve {text part : List Char} (h : part ∈ resolve text) :
    ProperName part := by
  obtain ⟨hmem, hpart⟩ := List.mem_filter.mp h
  rw [decide_eq_true_eq] at hpart
  exact ⟨hpart.1, hpart.2, slash_of_mem_splitOn hmem⟩

theorem resolve_of_proper {part : List Char} (h : ProperName part) : resolve part = [part] := by
  rw [resolve, List.splitOn_eq_singleton h.slash,
    List.filter_cons_of_pos (by simp [h.nonempty, h.dot])]
  rfl

theorem resolve_rdropWhile (s : List Char) : resolve (s.rdropWhile (· = '/')) = resolve s := by
  induction s using List.reverseRecOn with
  | nil => rfl
  | append_singleton s c ih =>
      by_cases hc : c = '/'
      · subst hc
        rw [List.rdropWhile_concat_pos _ _ _ (by simp), ih, resolve_append]
        simp [resolve]
      · rw [List.rdropWhile_concat_neg _ _ _ (by simpa using hc)]

theorem rdropWhile_slash {s base : List Char} (hne : base ≠ []) (hslash : '/' ∉ base) :
    (s ++ '/' :: base).rdropWhile (· = '/') = s ++ '/' :: base := by
  obtain ⟨front, c, rfl⟩ := List.eq_nil_or_concat base |>.resolve_left hne
  have hc : c ≠ '/' := by
    rintro rfl
    exact hslash (by simp)
  rw [List.concat_eq_append, ← List.cons_append, ← List.append_assoc,
    List.rdropWhile_concat_neg _ _ _ (by simpa using hc)]

theorem reverse_ne_slash {base : List Char} (hslash : '/' ∉ base) :
    ∀ c ∈ base.reverse, (c ≠ '/' : Bool) := by
  intro c hc
  have hne : c ≠ '/' := by
    rintro rfl
    exact hslash (List.mem_reverse.mp hc)
  simpa using hne

/-- A text that ends with a name. -/
theorem basename_eq {s base : List Char} (hne : base ≠ []) (hslash : '/' ∉ base) :
    basename (s ++ '/' :: base) = base := by
  unfold basename
  simp only [rdropWhile_slash hne hslash]
  rw [if_neg (by simp), List.rtakeWhile, List.reverse_append, List.reverse_cons,
    List.append_assoc, List.takeWhile_append_of_pos (reverse_ne_slash hslash)]
  simp

theorem dirname_eq {s base : List Char} (hne : base ≠ []) (hslash : '/' ∉ base) :
    dirname (s ++ '/' :: base) =
      if s.rdropWhile (· = '/') = [] then ['/'] else s.rdropWhile (· = '/') := by
  have hfront : (s ++ '/' :: base).rdropWhile (· ≠ '/') = s ++ ['/'] := by
    rw [List.rdropWhile, List.reverse_append, List.reverse_cons, List.append_assoc,
      List.dropWhile_append_of_pos (reverse_ne_slash hslash)]
    simp
  unfold dirname
  simp only [rdropWhile_slash hne hslash, hfront]
  rw [if_neg (by simp), if_neg (by simp), List.rdropWhile_concat_pos _ _ _ (by simp)]

theorem resolve_dirname {s base : List Char} (hne : base ≠ []) (hslash : '/' ∉ base) :
    resolve (dirname (s ++ '/' :: base)) = resolve s := by
  rw [dirname_eq hne hslash]
  split
  · next hnil =>
      rw [← resolve_rdropWhile s, hnil]
      rfl
  · exact resolve_rdropWhile s

/-- The directory of a text has only characters of the text. -/
theorem dirname_subset {s base : List Char} (hne : base ≠ []) (hslash : '/' ∉ base) :
    dirname (s ++ '/' :: base) ⊆ '/' :: s := by
  rw [dirname_eq hne hslash]
  split
  · intro c hc
    rw [List.mem_singleton.mp hc]
    exact List.mem_cons_self
  · intro c hc
    exact List.mem_cons_of_mem _ ((List.rdropWhile_prefix _ s).subset hc)

/-- A text with a slash that does not end with one. -/
theorem exists_directory {text : List Char} (hslash : '/' ∈ text)
    (hlast : text.getLast? ≠ some '/') :
    ∃ s base, text = s ++ '/' :: base ∧ base ≠ [] ∧ '/' ∉ base := by
  obtain ⟨back, front, hsplit, hback⟩ := List.eq_append_cons_of_mem (List.mem_reverse.mpr hslash)
  have htext : text = front.reverse ++ '/' :: back.reverse := by
    rw [← List.reverse_reverse text, hsplit]
    simp
  refine ⟨front.reverse, back.reverse, htext, ?_, ?_⟩
  · intro hnil
    rw [htext, hnil] at hlast
    exact hlast (by simp)
  · rwa [List.mem_reverse]

end Paths

structure StoredFile where
  path : FilePath
  content : List UInt8
  deriving DecidableEq, Repr

abbrev FileStore := List StoredFile

namespace FileStore

def paths (store : FileStore) : List FilePath := store.map StoredFile.path

def lookup (store : FileStore) (path : FilePath) : Option (List UInt8) :=
  (store.find? fun file => file.path = path).map StoredFile.content

/-- The file holds this, and it is a new file if there was none. -/
def put (path : FilePath) (content : List UInt8) : FileStore → FileStore
  | [] => [⟨path, content⟩]
  | file :: files =>
      if file.path = path then ⟨path, content⟩ :: files else file :: put path content files

/-- `fopen(path, "a+")`. -/
def openAppend (store : FileStore) (path : FilePath) : FileStore :=
  put path ((store.lookup path).getD []) store

/-- `fopen(path, "w+")`. -/
def openTruncate (store : FileStore) (path : FilePath) : FileStore := put path [] store

/-- `remove(path)`. -/
def remove (store : FileStore) (path : FilePath) : FileStore :=
  store.filter fun file => file.path ≠ path

/-- `fwrite` to a file that was opened to append. -/
def append (store : FileStore) (path : FilePath) (data : List UInt8) : FileStore :=
  put path ((store.lookup path).getD [] ++ data) store

/-- `scandir(directory, .., 0, alphasort)`. -/
def scandir (store : FileStore) (directory : FilePath) : List (List Char) :=
  (store.paths.filterMap fun path =>
    if path.dropLast = directory then path.getLast? else none).insertionSort (· ≤ ·)

section Lookup

variable {store : FileStore}

theorem lookup_isSome_iff (path : FilePath) :
    (store.lookup path).isSome ↔ path ∈ store.paths := by
  simp only [lookup, Option.isSome_map, List.find?_isSome, decide_eq_true_eq, paths, List.mem_map]

theorem lookup_eq_none_iff (path : FilePath) :
    store.lookup path = none ↔ path ∉ store.paths := by
  rw [← lookup_isSome_iff, Option.isSome_iff_ne_none, not_ne_iff]

theorem mem_paths_of_lookup {path : FilePath} {content : List UInt8}
    (h : store.lookup path = some content) : path ∈ store.paths := by
  rw [← lookup_isSome_iff, h]
  rfl

theorem lookup_cons (file : StoredFile) (store : FileStore) (path : FilePath) :
    lookup (file :: store) path =
      if file.path = path then some file.content else store.lookup path := by
  unfold lookup
  split
  · next h => rw [List.find?_cons_of_pos (by simpa using h), Option.map_some]
  · next h => rw [List.find?_cons_of_neg (by simpa using h)]

theorem lookup_put (path : FilePath) (content : List UInt8) (other : FilePath) :
    (put path content store).lookup other =
      if other = path then some content else store.lookup other := by
  induction store with
  | nil =>
      rw [put, lookup_cons]
      simp only [eq_comm]
  | cons file files ih =>
      rw [put]
      split
      · next hpath =>
          rw [lookup_cons, lookup_cons, hpath]
          simp only [eq_comm]
          split <;> rfl
      · next hpath =>
          rw [lookup_cons, lookup_cons, ih]
          split
          · next hfile => rw [if_neg (by rwa [← hfile])]
          · rfl

theorem lookup_openAppend (path other : FilePath) :
    (store.openAppend path).lookup other =
      if other = path then some ((store.lookup path).getD []) else store.lookup other :=
  lookup_put path _ other

theorem lookup_append (path : FilePath) (data : List UInt8) (other : FilePath) :
    (store.append path data).lookup other =
      if other = path then some ((store.lookup path).getD [] ++ data) else store.lookup other :=
  lookup_put path _ other

theorem lookup_remove (path other : FilePath) :
    (store.remove path).lookup other = if other = path then none else store.lookup other := by
  induction store with
  | nil =>
      split <;> rfl
  | cons file files ih =>
      by_cases hpath : file.path = path
      · have hcons : remove (file :: files) path = remove files path :=
          List.filter_cons_of_neg (by simpa using hpath)
        rw [hcons, ih, lookup_cons]
        split
        · rfl
        · next hother => rw [if_neg (by rintro rfl; exact hother hpath)]
      · have hcons : remove (file :: files) path = file :: remove files path :=
          List.filter_cons_of_pos (by simpa using hpath)
        rw [hcons, lookup_cons, lookup_cons, ih]
        split
        · next hfile => rw [if_neg (by rwa [← hfile])]
        · rfl

theorem paths_cons (file : StoredFile) (store : FileStore) :
    paths (file :: store) = file.path :: store.paths := rfl

theorem paths_put (path : FilePath) (content : List UInt8) :
    (put path content store).paths =
      if path ∈ store.paths then store.paths else store.paths ++ [path] := by
  induction store with
  | nil => rfl
  | cons file files ih =>
      rw [put]
      by_cases hpath : file.path = path
      · rw [if_pos hpath, paths_cons, paths_cons, if_pos (by simp [hpath]), hpath]
      · rw [if_neg hpath, paths_cons, paths_cons, ih]
        by_cases hmem : path ∈ paths files
        · rw [if_pos hmem, if_pos (List.mem_cons_of_mem _ hmem)]
        · rw [if_neg hmem, if_neg (by simp [Ne.symm hpath, hmem]), List.cons_append]

def Distinct (store : FileStore) : Prop := store.paths.Nodup

instance (store : FileStore) : Decidable store.Distinct :=
  inferInstanceAs (Decidable (List.Nodup _))

theorem Distinct.put (h : store.Distinct) (path : FilePath) (content : List UInt8) :
    (put path content store).Distinct := by
  unfold Distinct
  rw [paths_put]
  split
  · exact h
  · next hnot =>
      rw [List.nodup_append]
      refine ⟨h, List.nodup_singleton _, ?_⟩
      intro a ha b hb hab
      rw [List.mem_singleton] at hb
      exact hnot (hb ▸ hab ▸ ha)

theorem Distinct.remove (h : store.Distinct) (path : FilePath) : (store.remove path).Distinct :=
  List.Nodup.sublist (List.filter_sublist.map StoredFile.path) h

end Lookup

section Scan

variable {store : FileStore}

theorem mem_scandir {directory : FilePath} {name : List Char} :
    name ∈ store.scandir directory ↔ directory ++ [name] ∈ store.paths := by
  rw [scandir, (List.perm_insertionSort _ _).mem_iff, List.mem_filterMap]
  constructor
  · rintro ⟨path, hmem, hname⟩
    split at hname
    · next hdirectory =>
        obtain ⟨front, rfl⟩ := List.getLast?_eq_some_iff.mp hname
        rw [List.dropLast_concat] at hdirectory
        rwa [← hdirectory]
    · cases hname
  · intro hmem
    exact ⟨directory ++ [name], hmem, by simp⟩

theorem nodup_scandir (h : store.Distinct) (directory : FilePath) :
    (store.scandir directory).Nodup := by
  rw [scandir, (List.perm_insertionSort _ _).nodup_iff]
  refine List.Nodup.filterMap ?_ h
  intro path path' name hname hname'
  rw [Option.mem_def] at hname hname'
  split at hname
  · next hdirectory =>
      split at hname'
      · next hdirectory' =>
          obtain ⟨front, rfl⟩ := List.getLast?_eq_some_iff.mp hname
          obtain ⟨front', rfl⟩ := List.getLast?_eq_some_iff.mp hname'
          rw [List.dropLast_concat] at hdirectory hdirectory'
          rw [hdirectory, hdirectory']
      · cases hname'
  · cases hname

end Scan

end FileStore

end MctDaemon.Lib
