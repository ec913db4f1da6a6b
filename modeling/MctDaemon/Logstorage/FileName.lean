import MctDaemon.Lib.CString

/-!
The names of log files: `mct_logstorage_check_filename`,
`mct_logstorage_log_file_name` and `mct_logstorage_get_idx_of_log_file`. A C
string is the list of its characters up to the terminating zero.
-/

namespace MctDaemon.Logstorage

open Lib

def mctMountPathMax : Nat := 1024
def fileExtensionLen : Nat := 4
def timestampLen : Nat := 16

def uintMax : Nat := 4294967295

/-- `.mct`. -/
def suffix : List Char := ['.', 'm', 'c', 't']

/-- The user's choices for the names of log files. -/
structure MctLogStorageUserConfig where
  logfileTimestamp : Bool
  logfileDelimiter : Char
  logfileMaxcounter : Nat
  logfileCounteridxlen : Nat
  logfileOptionalCounter : Bool
  deriving DecidableEq, Repr

def isPunct (c : Char) : Bool :=
  33 ≤ c.val ∧ c.val ≤ 126 ∧ ¬ c.isAlphanum

/-- `mct_logstorage_check_filename`: the name that is stored. -/
def checkFilename (value : List Char) : Option (List Char) :=
  if value = [] then none
  else if ['.', '.'] <:+: value then none
  else some value

/-- What `strncat` appends of a string if its size is the `int` `n`. -/
def strncatPart (s : List Char) (n : Int) : List Char := if n < 0 then s else s.take n.toNat

namespace MctLogStorageUserConfig

/-- The name takes no index. -/
def single (fileConfig : MctLogStorageUserConfig) (numFiles : Nat) : Bool :=
  numFiles = 1 && fileConfig.logfileOptionalCounter

def indexWidth (fileConfig : MctLogStorageUserConfig) : Nat :=
  if fileConfig.logfileMaxcounter = uintMax then 0 else fileConfig.logfileCounteridxlen

/-- What `snprintf` prints for an index: the delimiter and the index as an `int`. -/
def printIndex (fileConfig : MctLogStorageUserConfig) (idx : Nat) : List Char :=
  fileConfig.logfileDelimiter ::
    printPadded fileConfig.indexWidth ((idx : Int).bmod 4294967296)

/-- The text that the index is printed into, and the position `spos` behind it.
`snprintf` writes at the position behind the name, which is seen only if the name
was not cut. -/
def appendIndex (fileConfig : MctLogStorageUserConfig) (name : List Char) (numFiles idx : Nat) :
    List Char × Int :=
  let smax : Int := mctMountPathMax - suffix.length - 1
  let spos : Int := name.length
  let text := strncatPart name (smax - spos)
  if fileConfig.single numFiles then (text, spos)
  else
    let printed := fileConfig.printIndex idx
    let room := smax - spos
    if (printed.length : Int) < room then
      (if text.length = name.length then text ++ printed else text, spos + printed.length)
    else if room = 0 then (text, smax)
    else (if text.length = name.length then text ++ strncatPart printed (room - 1) else text, smax)

/-- `mct_logstorage_log_file_name`; `time` is the time as it is printed. -/
def logFileName (fileConfig : MctLogStorageUserConfig) (name : List Char) (numFiles idx : Nat)
    (time : List Char) : List Char :=
  let smax : Int := mctMountPathMax - suffix.length - 1
  let (text, spos) := fileConfig.appendIndex name numFiles idx
  let stamp :=
    if fileConfig.logfileTimestamp then
      strncatPart ((fileConfig.logfileDelimiter :: time).take timestampLen) (smax - spos)
    else []
  text ++ stamp ++ suffix

/-- `mct_logstorage_get_idx_of_log_file`. The length of the index is computed from
the lengths of the parts around it, and the index is read from so far before
them. -/
def getIdxOfLogFile (fileConfig : MctLogStorageUserConfig) (file : List Char) : Nat :=
  let filename := file.dropWhile fun c => c ≠ fileConfig.logfileDelimiter
  if filename = [] then uintMax
  else
    let filenameLen : Int := file.length - filename.length
    let behind : Int := fileExtensionLen + if fileConfig.logfileTimestamp then timestampLen else 0
    let fileindexLen : Int := file.length - (behind + filenameLen + 1)
    let start : Int := file.length - (behind + fileindexLen)
    (strtol (file.drop start.toNat) % 4294967296).toNat

section Decode

variable {fileConfig : MctLogStorageUserConfig} {name : List Char}

/-- The name and the index are not cut. -/
def NotTruncated (fileConfig : MctLogStorageUserConfig) (name : List Char) (idx : Nat) : Prop :=
  name.length + name.length + suffix.length + 1 ≤ mctMountPathMax ∧
    name.length + (fileConfig.printIndex idx).length + suffix.length + 1 < mctMountPathMax

instance (fileConfig : MctLogStorageUserConfig) (name : List Char) (idx : Nat) :
    Decidable (fileConfig.NotTruncated name idx) := inferInstanceAs (Decidable (_ ∧ _))

theorem not_isDigit_of_isPunct {c : Char} (h : isPunct c) : ¬ c.isDigit := by
  simp only [isPunct, decide_eq_true_eq] at h
  intro hdigit
  exact h.2.2 (by simp [Char.isAlphanum, hdigit])

theorem not_isSpace_of_isPunct {c : Char} (h : isPunct c) : ¬ isSpace c := by
  simp only [isPunct, decide_eq_true_eq, UInt32.le_iff_toNat_le] at h
  simp only [isSpace, Bool.decide_or, Bool.decide_and, Bool.or_eq_true, Bool.and_eq_true,
    decide_eq_true_eq, UInt32.le_iff_toNat_le, ← UInt32.toNat_inj]
  have h33 : (33 : UInt32).toNat = 33 := rfl
  have h32 : (32 : UInt32).toNat = 32 := rfl
  have h13 : (13 : UInt32).toNat = 13 := rfl
  omega

theorem strncatPart_name
    (hname : name.length + name.length + suffix.length + 1 ≤ mctMountPathMax) :
    strncatPart name (mctMountPathMax - suffix.length - 1 - name.length) = name := by
  unfold strncatPart
  split
  · rfl
  · exact List.take_of_length_le (by omega)

/-- A name that takes no index. -/
theorem appendIndex_single {numFiles idx : Nat} (hsingle : fileConfig.single numFiles)
    (hname : name.length + name.length + suffix.length + 1 ≤ mctMountPathMax) :
    fileConfig.appendIndex name numFiles idx = (name, (name.length : Int)) := by
  unfold appendIndex
  simp only [strncatPart_name hname]
  rw [if_pos hsingle]

theorem appendIndex_eq {idx : Nat} {numFiles : Nat} (hindex : ¬ fileConfig.single numFiles)
    (hfits : fileConfig.NotTruncated name idx) :
    fileConfig.appendIndex name numFiles idx =
      (name ++ fileConfig.printIndex idx,
        (name.length : Int) + (fileConfig.printIndex idx).length) := by
  obtain ⟨hname, hprinted⟩ := hfits
  unfold appendIndex
  simp only [strncatPart_name hname]
  rw [if_neg hindex, if_pos (by omega), if_pos trivial]

/-- Behind the index stands the time stamp, which starts with the delimiter, or the
extension. -/
theorem head_stamp {delimiter : Char} (hdelimiter : ¬ delimiter.isDigit) (time : List Char)
    (k : Nat) (n : Int) :
    ¬ (strncatPart ((delimiter :: time).take k) n ++ suffix).head?.any Char.isDigit := by
  have hhead : ∀ k : Nat, ¬ ((delimiter :: time).take k ++ suffix).head?.any Char.isDigit := by
    intro k
    cases k with
    | zero =>
        rw [List.take_zero]
        decide
    | succ k => simpa using hdelimiter
  unfold strncatPart
  split
  · exact hhead k
  · rw [List.take_take]
    exact hhead _

/-- The name, the delimiter, the index, and text that does not go on with a digit. -/
theorem logFileName_eq {idx : Nat} (hpunct : isPunct fileConfig.logfileDelimiter)
    {numFiles : Nat} (hindex : ¬ fileConfig.single numFiles)
    (hfits : fileConfig.NotTruncated name idx) (time : List Char) :
    ∃ rest : List Char, ¬ rest.head?.any Char.isDigit ∧
      fileConfig.logFileName name numFiles idx time = name ++ fileConfig.logfileDelimiter ::
        (printPadded fileConfig.indexWidth ((idx : Int).bmod 4294967296) ++ rest) := by
  have happend := appendIndex_eq hindex hfits
  unfold logFileName
  simp only [happend]
  split
  · have hhead := head_stamp (not_isDigit_of_isPunct hpunct) time timestampLen
      (mctMountPathMax - suffix.length - 1 - (name.length + (fileConfig.printIndex idx).length))
    refine ⟨_, hhead, ?_⟩
    rw [printIndex, List.append_assoc, List.append_assoc, List.cons_append]
  · refine ⟨suffix, by decide, ?_⟩
    rw [printIndex, List.append_nil, List.append_assoc, List.cons_append]

theorem dropWhile_delimiter {front : List Char} (hfront : fileConfig.logfileDelimiter ∉ front)
    (rest : List Char) :
    (front ++ fileConfig.logfileDelimiter :: rest).dropWhile
      (fun c => c ≠ fileConfig.logfileDelimiter) = fileConfig.logfileDelimiter :: rest := by
  rw [List.dropWhile_append_of_pos]
  · simp
  · intro c hc
    have hne : c ≠ fileConfig.logfileDelimiter := by
      rintro rfl
      exact hfront hc
    simpa using hne

/-- The index is read behind the first delimiter. -/
theorem getIdxOfLogFile_eq {front : List Char} (hfront : fileConfig.logfileDelimiter ∉ front)
    (rest : List Char) :
    fileConfig.getIdxOfLogFile (front ++ fileConfig.logfileDelimiter :: rest) =
      (strtol rest % 4294967296).toNat := by
  have hdrop := dropWhile_delimiter hfront rest
  unfold getIdxOfLogFile
  simp only [hdrop]
  rw [if_neg (List.cons_ne_nil _ _)]
  have hstart : ∀ behind : Int, (((front ++ fileConfig.logfileDelimiter :: rest).length : Int) -
      (behind + ((front ++ fileConfig.logfileDelimiter :: rest).length - (behind +
        ((front ++ fileConfig.logfileDelimiter :: rest).length -
          (fileConfig.logfileDelimiter :: rest).length) + 1)))).toNat = front.length + 1 := by
    intro behind
    simp only [List.length_append, List.length_cons]
    omega
  rw [hstart, List.append_cons, List.drop_left' (by simp)]

/-- The text of a name behind its first delimiter. -/
def behindDelimiter (fileConfig : MctLogStorageUserConfig) (name : List Char) : List Char :=
  (name.dropWhile fun c => c ≠ fileConfig.logfileDelimiter).tail

theorem behindDelimiter_eq {front : List Char} (hfront : fileConfig.logfileDelimiter ∉ front)
    (behind : List Char) :
    fileConfig.behindDelimiter (front ++ fileConfig.logfileDelimiter :: behind) = behind := by
  rw [behindDelimiter, dropWhile_delimiter hfront, List.tail_cons]

/-- A number in the name behind its first delimiter is the index; or there is none,
and the delimiter is read as the sign of the index. -/
def ReadsIndex (fileConfig : MctLogStorageUserConfig) (name : List Char) (idx : Nat) : Prop :=
  if (fileConfig.behindDelimiter name).all isSpace then
    fileConfig.logfileDelimiter = '+' ∧ idx < 2147483648
  else strtol (fileConfig.behindDelimiter name) % 4294967296 = idx

instance (fileConfig : MctLogStorageUserConfig) (name : List Char) (idx : Nat) :
    Decidable (fileConfig.ReadsIndex name idx) := inferInstanceAs (Decidable (ite _ _ _))

/-- An index as an `int` and back. -/
theorem bmod_emod {idx : Nat} (hidx : idx ≤ uintMax) :
    ((idx : Int).bmod 4294967296) % 4294967296 = idx := by
  have hmod : ((idx : Int).bmod 4294967296) % ((4294967296 : Nat) : Int) =
      (idx : Int) % ((4294967296 : Nat) : Int) := Int.bmod_emod
  unfold uintMax at hidx
  omega

theorem bmod_bounds (idx : Nat) :
    -9223372036854775808 ≤ (idx : Int).bmod 4294967296 ∧
      (idx : Int).bmod 4294967296 ≤ 9223372036854775807 := by
  have hlow := Int.le_bmod (x := (idx : Int)) (m := 4294967296) (by decide)
  have hhigh := Int.bmod_lt (x := (idx : Int)) (m := 4294967296) (by decide)
  omega

theorem toNat_bmod {idx : Nat} (hidx : idx ≤ uintMax) :
    ((idx : Int).bmod 4294967296).toNat = if idx < 2147483648 then idx else 0 := by
  unfold uintMax at hidx
  rw [Int.bmod_def]
  split <;> split <;> omega

/-- Behind white space alone, only the delimiter `+` keeps the index, and only of
an index that is printed without a sign. -/
theorem strtol_behind_space {idx : Nat} (hpunct : isPunct fileConfig.logfileDelimiter)
    (hlow : 1 ≤ idx) (hhigh : idx ≤ uintMax) {behind rest : List Char} (hspace : behind.all isSpace)
    (hrest : ¬ rest.head?.any Char.isDigit) :
    (strtol (behind ++ fileConfig.logfileDelimiter ::
      (printPadded fileConfig.indexWidth ((idx : Int).bmod 4294967296) ++ rest)) %
        4294967296).toNat = idx ↔ fileConfig.logfileDelimiter = '+' ∧ idx < 2147483648 := by
  have hdigits := leadingDecimal_printPadded fileConfig.indexWidth ((idx : Int).bmod 4294967296)
    hrest
  rw [toNat_bmod hhigh] at hdigits
  have hnotSpace := not_isSpace_of_isPunct hpunct
  have hnotDigit := not_isDigit_of_isPunct hpunct
  unfold uintMax at hhigh
  rw [strtol_append_of_space hspace]
  generalize fileConfig.logfileDelimiter = delimiter at hnotDigit hnotSpace
  by_cases hminus : delimiter = '-'
  · subst hminus
    have hne : ¬ '-' = '+' := by decide
    rw [strtol, List.dropWhile_cons_of_neg hnotSpace]
    simp only [hdigits, hne, false_and, iff_false]
    split <;> omega
  · by_cases hplus : delimiter = '+'
    · subst hplus
      rw [strtol, List.dropWhile_cons_of_neg hnotSpace]
      simp only [hdigits, true_and]
      split <;> omega
    · rw [strtol_cons hnotSpace hminus hplus, leadingDecimal,
        List.takeWhile_cons_of_neg hnotDigit, List.foldl_nil]
      simp only [hplus, false_and, iff_false]
      omega

/-- For every name, delimiter and index, with or without a time stamp: which
indices are read back from the names that are built with them. -/
theorem log_file_index_decodes (fileConfig : MctLogStorageUserConfig)
    (hpunct : isPunct fileConfig.logfileDelimiter)
    (hmaximum : fileConfig.logfileMaxcounter ≤ uintMax) {value name : List Char}
    (hname : checkFilename value = some name) {numFiles : Nat}
    (hindex : ¬ fileConfig.single numFiles) {idx : Nat} (hlow : 1 ≤ idx)
    (hhigh : idx ≤ fileConfig.logfileMaxcounter) (hfits : fileConfig.NotTruncated name idx)
    (time : List Char) :
    fileConfig.getIdxOfLogFile (fileConfig.logFileName name numFiles idx time) = idx ↔
      fileConfig.logfileDelimiter ∉ name ∨ fileConfig.ReadsIndex name idx := by
  obtain ⟨rest, hrest, hfile⟩ := logFileName_eq hpunct hindex hfits time
  rw [hfile]
  by_cases hmem : fileConfig.logfileDelimiter ∈ name
  · obtain ⟨front, behind, rfl, hfront⟩ := List.eq_append_cons_of_mem hmem
    rw [List.append_assoc, List.cons_append, getIdxOfLogFile_eq hfront, ReadsIndex,
      behindDelimiter_eq hfront]
    simp only [hmem, not_true, false_or]
    split
    · next hspace => exact strtol_behind_space hpunct hlow (hhigh.trans hmaximum) hspace hrest
    · next hspace =>
        rw [strtol_append_cons hspace (not_isDigit_of_isPunct hpunct)]
        omega
  · obtain ⟨hboundLow, hboundHigh⟩ := bmod_bounds idx
    rw [getIdxOfLogFile_eq hmem, strtol_printPadded _ hboundLow hboundHigh hrest,
      bmod_emod (hhigh.trans hmaximum)]
    simp [hmem]

/-- File names `log`, with the default delimiter and two digits. -/
def sampleUserConfig : MctLogStorageUserConfig where
  logfileTimestamp := true
  logfileDelimiter := '_'
  logfileMaxcounter := 99
  logfileCounteridxlen := 2
  logfileOptionalCounter := false

/-- A time as it is printed into a name. -/
def sampleTime : List Char :=
  ['2', '0', '2', '4', '0', '1', '3', '1', '-', '1', '2', '0', '5', '0', '9']

theorem log_file_index_decodes_sample :
    sampleUserConfig.getIdxOfLogFile (sampleUserConfig.logFileName ['l', 'o', 'g'] 3 7
        sampleTime) = 7 :=
  (log_file_index_decodes sampleUserConfig (by decide) (by decide)
    (show checkFilename ['l', 'o', 'g'] = some ['l', 'o', 'g'] by decide) (by decide) (by decide)
    (by decide) (by decide) sampleTime).mpr (.inl (by decide))

/-- A name with a delimiter: the index is looked for behind that one. -/
theorem delimiter_in_name :
    checkFilename ['a', '_', 'b'] = some ['a', '_', 'b'] ∧ ¬ sampleUserConfig.single 3 ∧
      sampleUserConfig.NotTruncated ['a', '_', 'b'] 7 ∧
      sampleUserConfig.getIdxOfLogFile (sampleUserConfig.logFileName ['a', '_', 'b'] 3 7
        sampleTime) ≠ 7 := by
  decide

end Decode

end MctLogStorageUserConfig

end MctDaemon.Logstorage
