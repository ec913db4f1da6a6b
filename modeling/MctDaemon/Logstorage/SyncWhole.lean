import MctDaemon.Logstorage.SyncFiles

/-!
When the messages of a region of the cache are in the log files after
`mct_logstorage_sync_to_file`: each of them whole, once and in order, and no file
larger than its limit.
-/

namespace MctDaemon.Logstorage

open Lib

section Region

variable {cache : List UInt8} {fileSize : Nat}

/-- The messages are in the files from a position of the cache on, each file has a
run of them, and none of the files that got something is too large. -/
def HoldMessages (fileSize : Nat) : List SyncedFile → Nat → List (List UInt8) → Prop
  | [], _, messages => messages = []
  | f :: files, position, messages =>
      ∃ group rest, messages = group ++ rest ∧
        LaidOut position f.pieces (position + group.flatten.length) ∧
          (f.pieces ≠ [] → f.size ≤ fileSize) ∧
            HoldMessages fileSize files (position + group.flatten.length) rest

/-- A region of the cache: the tail of an overwritten message and whole messages
behind it. -/
structure SyncRegion (cache : List UInt8) (fileSize startOffset endOffset : Nat)
    (tail : List UInt8) (messages : List (List UInt8)) : Prop where
  le : startOffset ≤ endOffset
  inside : endOffset ≤ cache.length
  small : cache.length < 2147483648
  cells : slice cache startOffset (endOffset - startOffset) = tail ++ messages.flatten
  headers : ∀ message ∈ messages, magic <+: message
  nonempty : messages ≠ []
  fits : ∀ message ∈ messages, message.length ≤ fileSize

variable {messages : List (List UInt8)} {position : Nat}

theorem hold_skip {f : SyncedFile} {files : List SyncedFile} (hf : f.pieces = [])
    (hmessages : ∀ message ∈ messages, message ≠ []) :
    HoldMessages fileSize (f :: files) position messages ↔
      HoldMessages fileSize files position messages := by
  constructor
  · rintro ⟨group, rest, rfl, hlaid, -, hrest⟩
    rw [hf] at hlaid
    have hempty : group.flatten = [] := by
      have hlength : position = position + group.flatten.length := hlaid
      exact List.eq_nil_of_length_eq_zero (by omega)
    have hgroup : group = [] := by
      cases group with
      | nil => rfl
      | cons message group =>
          rw [List.flatten_cons, List.append_eq_nil_iff] at hempty
          exact absurd hempty.1 (hmessages message (by simp))
    subst hgroup
    simpa using hrest
  · intro hfiles
    exact ⟨[], messages, rfl, by rw [hf]; rfl, fun hne => absurd hf hne, by simpa using hfiles⟩

theorem hold_older {older files : List SyncedFile} (holder : ∀ f ∈ older, f.pieces = [])
    (hmessages : ∀ message ∈ messages, message ≠ []) :
    HoldMessages fileSize (older ++ files) position messages ↔
      HoldMessages fileSize files position messages := by
  induction older with
  | nil => rfl
  | cons f older ih =>
      rw [List.cons_append, hold_skip (holder f List.mem_cons_self) hmessages,
        ih fun g hg => holder g (List.mem_cons_of_mem _ hg)]

/-- The last file gets what is left. -/
theorem hold_last {f : SyncedFile} :
    HoldMessages fileSize [f] position messages ↔
      LaidOut position f.pieces (position + messages.flatten.length) ∧
        (f.pieces ≠ [] → f.size ≤ fileSize) := by
  constructor
  · rintro ⟨group, rest, rfl, hlaid, hsize, hrest⟩
    obtain rfl : rest = [] := hrest
    exact ⟨by simpa using hlaid, hsize⟩
  · rintro ⟨hlaid, hsize⟩
    exact ⟨messages, [], by simp, hlaid, hsize, rfl⟩

section Pieces

variable {older : List SyncedFile} {c d : Nat} {p q : Placed UInt8}

theorem hold_piece (holder : ∀ f ∈ older, f.pieces = [])
    (hmessages : ∀ message ∈ messages, message ≠ []) :
    HoldMessages fileSize (older ++ [⟨c, [p]⟩]) position messages ↔
      p.pos = position ∧ p.data.length = messages.flatten.length ∧
        c + p.data.length ≤ fileSize := by
  rw [hold_older holder hmessages, hold_last]
  simp only [LaidOut, Placed.stop, SyncedFile.size, contents_cons, contents_nil, List.append_nil,
    ne_eq, not_false_eq_true, true_imp_iff, List.cons_ne_self]
  constructor
  · rintro ⟨⟨hpos, hstop⟩, hsize⟩
    exact ⟨hpos, by omega, hsize⟩
  · rintro ⟨hpos, hlength, hsize⟩
    exact ⟨⟨hpos, by omega⟩, hsize⟩

theorem hold_two_pieces (holder : ∀ f ∈ older, f.pieces = [])
    (hmessages : ∀ message ∈ messages, message ≠ []) :
    HoldMessages fileSize (older ++ [⟨c, [p, q]⟩]) position messages ↔
      p.pos = position ∧ q.pos = p.stop ∧ q.stop = position + messages.flatten.length ∧
        c + (p.data.length + q.data.length) ≤ fileSize := by
  rw [hold_older holder hmessages, hold_last]
  simp only [LaidOut, SyncedFile.size, contents_cons, contents_nil, List.append_nil,
    List.length_append, ne_eq, reduceCtorEq, not_false_eq_true, true_imp_iff, and_assoc]

theorem hold_two_files (holder : ∀ f ∈ older, f.pieces = [])
    (hmessages : ∀ message ∈ messages, message ≠ []) :
    HoldMessages fileSize (older ++ [⟨c, [p]⟩, ⟨d, [q]⟩]) position messages ↔
      p.pos = position ∧ q.pos = p.stop ∧ q.stop = position + messages.flatten.length ∧
        (∃ group rest, messages = group ++ rest ∧ p.data.length = group.flatten.length) ∧
          c + p.data.length ≤ fileSize ∧ d + q.data.length ≤ fileSize := by
  rw [hold_older holder hmessages, HoldMessages]
  simp only [hold_last, LaidOut, SyncedFile.size, contents_cons, contents_nil, List.append_nil,
    ne_eq, reduceCtorEq, not_false_eq_true, true_imp_iff]
  constructor
  · rintro ⟨group, rest, rfl, ⟨hpos, hstop⟩, hc, ⟨hnext, hend⟩, hd⟩
    rw [List.flatten_append, List.length_append, ← Nat.add_assoc]
    refine ⟨hpos, by omega, hend, ⟨group, rest, rfl, ?_⟩, hc, hd⟩
    simp only [Placed.stop] at hstop
    omega
  · rintro ⟨hpos, hnext, hend, ⟨group, rest, rfl, hgroup⟩, hc, hd⟩
    rw [List.flatten_append, List.length_append, ← Nat.add_assoc] at hend
    have hstop : p.stop = position + group.flatten.length := by
      simp only [Placed.stop]
      omega
    exact ⟨group, rest, rfl, ⟨hpos, hstop⟩, hc, ⟨by omega, hend⟩, hd⟩

end Pieces

end Region

section Parts

variable {cache : List UInt8} {fileSize startOffset endOffset : Nat} {files : SyncedFiles}

/-- The second part writes from the header that it finds. -/
theorem syncRest_found {log : Bool} {count : Int} {j : Nat}
    (hfind : mctLogstorageFindMctHeader cache startOffset (uint32 count) = some (j : Int))
    (hj : startOffset + j < endOffset) (hinside : endOffset ≤ cache.length)
    (hsmall : endOffset < 2147483648) :
    syncRest cache fileSize files log startOffset endOffset count =
      some ((if log then files
        else files.openFile fileSize (endOffset - (startOffset + j) : Nat) false).append
          ⟨startOffset + j, slice cache (startOffset + j) (endOffset - (startOffset + j))⟩) := by
  have hcount : int32 ((endOffset : Int) - startOffset - j) =
      ((endOffset - (startOffset + j) : Nat) : Int) := by
    rw [int32_of_small (by omega) (by omega)]
    omega
  simp only [syncRest, hfind, Option.bind_eq_bind, Option.bind_some, hcount, Int.toNat_natCast]
  rw [if_pos ⟨by omega, by omega⟩, SyncedFiles.write, if_pos (by omega)]

theorem syncRest_missed {log : Bool} {count : Int}
    (hfind : mctLogstorageFindMctHeader cache startOffset (uint32 count) = some (-1)) :
    syncRest cache fileSize files log startOffset endOffset count = some files := by
  simp only [syncRest, hfind, Option.bind_eq_bind, Option.bind_some]
  rw [if_neg (by omega)]
  rfl

variable {room j : Nat}

/-- Without header in the room that is left nothing is written, and the count is 0. -/
theorem fillFile_missed {result : SyncedFiles × Nat × Int} (hroom : room < 2147483647)
    (hblock : cache.length < 2147483648) (hstart : startOffset ≤ cache.length)
    (hnone : ∀ i < room, ¬ magic <+: cache.drop (startOffset + i))
    (h : fillFile cache files startOffset room = some result) :
    result = (files, startOffset, 0) := by
  simp only [fillFile, uint32_natCast (by omega : room < 4294967296), Option.bind_eq_bind,
    Option.bind_eq_some_iff] at h
  obtain ⟨r, hr, r', hr', h⟩ := h
  obtain rfl := findHeader_none hr hnone
  have hcnt : uint32 ((room : Int) - -1) = room + 1 := by
    rw [uint32_of_small (by omega) (by omega)]
    omega
  rw [hcnt] at hr'
  have hr' : r' = -1 := by
    rcases findLastHeader_some (by omega) hr' with ⟨hr', -⟩ | ⟨e, -, hlow, hhigh, hmark, -⟩
    · exact hr'
    · exfalso
      by_cases hzero : startOffset = 0
      · have hwrap : uint32 ((startOffset : Int) + -1) = 4294967295 := by
          rw [hzero]
          decide +kernel
        have hlength := length_of_mark hmark
        omega
      · have hbefore : uint32 ((startOffset : Int) + -1) = startOffset - 1 := by
          rw [uint32_of_small (by omega) (by omega)]
          omega
        rw [hbefore, show startOffset - 1 + e = startOffset + (e - 1) by omega] at hmark
        exact hnone (e - 1) (by omega) hmark
  subst hr'
  rw [if_neg (by omega), Int.sub_self, int32_of_small (by omega) (by omega)] at h
  exact (Option.some.inj h).symm

/-- With no header behind the first one in the room nothing is written. -/
theorem fillFile_first (hroom : room < 2147483648) (hj : j < room)
    (hinside : startOffset + room < cache.length) (hsmall : startOffset + room < 2147483648)
    (hfind : mctLogstorageFindMctHeader cache startOffset room = some (j : Int))
    (hnone : ∀ i, j < i → i + 3 ≤ room → ¬ magic <+: cache.drop (startOffset + i)) :
    fillFile cache files startOffset room = some (files, startOffset, -1 - (j : Int)) := by
  have hsub : ((room : Int) - j) = ((room - j : Nat) : Int) := by omega
  have hadd : ((startOffset : Int) + j) = ((startOffset + j : Nat) : Int) := by omega
  obtain ⟨r, hr⟩ := @findLastHeader_total cache (startOffset + j) (room - j)
    (by omega) (by omega)
  rcases findLastHeader_some (by omega) hr with ⟨rfl, -⟩ | ⟨e, -, hlow, hhigh, hmark, -⟩
  · simp only [fillFile, uint32_natCast (by omega : room < 4294967296), hfind,
      Option.bind_eq_bind, Option.bind_some, hsub, hadd,
      uint32_natCast (by omega : startOffset + j < 4294967296),
      uint32_natCast (by omega : room - j < 4294967296), hr]
    rw [int32_of_small (by omega) (by omega), if_neg (by omega)]
    rfl
  · rw [Nat.add_assoc] at hmark
    exact absurd hmark (hnone (j + e) (by omega) (by omega))

/-- The last header in the room is taken for the end, as if it were counted from
the start offset. -/
theorem fillFile_last {e : Nat} (hroom : room < 2147483648)
    (hinside : startOffset + room < cache.length) (hsmall : startOffset + room < 2147483648)
    (hfind : mctLogstorageFindMctHeader cache startOffset room = some (j : Int))
    (hlow : 0 < e) (hhigh : j + e + 3 ≤ room) (hmark : magic <+: cache.drop (startOffset + (j + e)))
    (hlast : ∀ i, j + e < i → i + 3 ≤ room → ¬ magic <+: cache.drop (startOffset + i)) :
    fillFile cache files startOffset room =
      if j < e then
        some (files.append ⟨startOffset + j, slice cache (startOffset + j) (e - j)⟩,
          startOffset + (e - j), ((e - j : Nat) : Int))
      else some (files, startOffset, (e : Int) - j) := by
  have hsub : ((room : Int) - j) = ((room - j : Nat) : Int) := by omega
  have hadd : ((startOffset : Int) + j) = ((startOffset + j : Nat) : Int) := by omega
  obtain ⟨r, hr⟩ := @findLastHeader_total cache (startOffset + j) (room - j)
    (by omega) (by omega)
  have hre : r = (e : Int) := by
    rcases findLastHeader_some (by omega) hr with
      ⟨-, hnone⟩ | ⟨e', rfl, hlow', hhigh', hmark', hlast'⟩
    · rw [← Nat.add_assoc] at hmark
      exact absurd hmark (hnone e hlow (by omega))
    · rcases Nat.lt_trichotomy e e' with hlt | rfl | hlt
      · rw [Nat.add_assoc] at hmark'
        exact absurd hmark' (hlast (j + e') (by omega) (by omega))
      · rfl
      · rw [← Nat.add_assoc] at hmark
        exact absurd hmark (hlast' e hlt (by omega))
  subst hre
  simp only [fillFile, uint32_natCast (by omega : room < 4294967296), hfind,
    Option.bind_eq_bind, Option.bind_some, hsub, hadd,
    uint32_natCast (by omega : startOffset + j < 4294967296),
    uint32_natCast (by omega : room - j < 4294967296), hr]
  rw [int32_of_small (by omega) (by omega)]
  by_cases hje : j < e
  · have hcount : ((e : Int) - j) = ((e - j : Nat) : Int) := by omega
    have hnext : ((startOffset : Int) + (e - j : Nat)) = ((startOffset + (e - j) : Nat) : Int) := by
      omega
    rw [if_pos hje, if_pos (by omega), hcount]
    simp only [Int.toNat_natCast, SyncedFiles.write, hnext,
      uint32_natCast (by omega : startOffset + (e - j) < 4294967296)]
    rw [if_pos (by omega)]
    rfl
  · rw [if_neg hje, if_neg (by omega)]
    rfl

end Parts

section Whole

variable {cache : List UInt8} {fileSize filled startOffset endOffset : Nat} {tail : List UInt8}
  {messages : List (List UInt8)}

theorem SyncRegion.length
    (hregion : SyncRegion cache fileSize startOffset endOffset tail messages) :
    endOffset = startOffset + (tail.length + messages.flatten.length) := by
  have hlength := congrArg List.length hregion.cells
  have hle := hregion.le
  have hinside := hregion.inside
  rw [slice, List.length_take, List.length_drop, List.length_append] at hlength
  omega

theorem SyncRegion.message_ne_nil
    (hregion : SyncRegion cache fileSize startOffset endOffset tail messages) :
    ∀ message ∈ messages, message ≠ [] := by
  rintro message hmem rfl
  exact magic_ne_nil (List.prefix_nil.mp (hregion.headers [] hmem))

/-- Behind the tail there is a header. -/
theorem SyncRegion.header
    (hregion : SyncRegion cache fileSize startOffset endOffset tail messages) :
    magic <+: cache.drop (startOffset + tail.length) ∧
      startOffset + tail.length + 4 ≤ endOffset := by
  obtain ⟨first, rest, hmessages⟩ := List.exists_cons_of_ne_nil hregion.nonempty
  have hmark : magic <+: messages.flatten := by
    rw [hmessages, List.flatten_cons]
    exact (hregion.headers first (by simp [hmessages])).trans (List.prefix_append _ _)
  have hcells : tail ++ messages.flatten <+: cache.drop startOffset := by
    rw [← hregion.cells]
    exact List.take_prefix _ _
  constructor
  · rw [← List.drop_drop]
    refine hmark.trans ?_
    have hdrop := hcells.drop tail.length
    rwa [List.drop_left] at hdrop
  · have hlength := hregion.length
    have hfour := hmark.length_le
    simp only [magic, List.length_cons, List.length_nil] at hfour
    omega

def firstSize (fileSize filled : Nat) : Nat := if filled < fileSize then filled else 0

def firstFiles (fileSize filled : Nat) : SyncedFiles :=
  ⟨if filled < fileSize then [] else [⟨filled, []⟩], ⟨firstSize fileSize filled, []⟩⟩

def roomLeft (fileSize filled : Nat) : Nat := fileSize - firstSize fileSize filled

theorem openFile_first (hsize : fileSize < 2147483648) (count : Int) :
    SyncedFiles.openFile ⟨[], ⟨filled, []⟩⟩ fileSize count true = firstFiles fileSize filled := by
  unfold SyncedFiles.openFile firstFiles firstSize
  rw [int32_natCast hsize]
  simp only [SyncedFile.size, contents_nil, List.length_nil, Nat.add_zero, true_and,
    not_true_eq_false, false_and, or_false, Nat.cast_lt]
  by_cases h : filled < fileSize
  · simp only [if_pos h]
  · simp only [if_neg h]
    rfl

theorem syncFiles_eq (hregion : SyncRegion cache fileSize startOffset endOffset tail messages)
    (hsize : fileSize < 2147483648) :
    syncFiles cache fileSize ⟨[], ⟨filled, []⟩⟩ startOffset endOffset =
      if roomLeft fileSize filled < endOffset - startOffset then
        (fillFile cache (firstFiles fileSize filled) startOffset (roomLeft fileSize filled)).bind
          fun (files, startOffset, count) =>
            syncRest cache fileSize files false startOffset endOffset count
      else
        syncRest cache fileSize (firstFiles fileSize filled) true startOffset endOffset
          ((endOffset - startOffset : Nat) : Int) := by
  have hle := hregion.le
  have hinside := hregion.inside
  have hsmall := hregion.small
  have hcount : int32 ((endOffset : Int) - startOffset) =
      ((endOffset - startOffset : Nat) : Int) := by
    rw [int32_of_small (by omega) (by omega)]
    omega
  have hcurrent : (firstFiles fileSize filled).current.size = firstSize fileSize filled := rfl
  have hfirst : firstSize fileSize filled ≤ fileSize := by
    unfold firstSize
    split <;> omega
  have hroom : int32 ((fileSize : Int) - firstSize fileSize filled) =
      ((roomLeft fileSize filled : Nat) : Int) := by
    rw [int32_of_small (by omega) (by omega), roomLeft]
    omega
  simp only [syncFiles, hcount, openFile_first hsize, hcurrent, hroom, Nat.cast_lt]
  rfl

theorem firstFiles_older (f : SyncedFile) (hf : f ∈ (firstFiles fileSize filled).older) :
    f.pieces = [] := by
  unfold firstFiles at hf
  simp only at hf
  split at hf
  · cases hf
  · rw [List.mem_singleton.mp hf]

/-- The last header that is found in the room is at `tailLength + cut`, and by
chance `cut` is the end of a message. -/
structure CutsAt (cache : List UInt8) (fileSize room startOffset endOffset tailLength : Nat)
    (messages : List (List UInt8)) (cut : Nat) : Prop where
  behind : 2 * tailLength < cut
  inside : tailLength + cut + 3 ≤ room
  found : magic <+: cache.drop (startOffset + (tailLength + cut))
  last : ∀ i, tailLength + cut < i → i + 3 ≤ room → ¬ magic <+: cache.drop (startOffset + i)
  header : magic <+: cache.drop (startOffset + cut)
  first : ∀ i, cut - tailLength ≤ i → i < cut → ¬ magic <+: cache.drop (startOffset + i)
  fits : endOffset - (startOffset + cut) ≤ fileSize
  boundary : endOffset - (startOffset + tailLength) ≤ room ∨
    ∃ group rest, messages = group ++ rest ∧ cut = tailLength + group.flatten.length

/-- After the call the files hold the messages of the region. -/
def HeldAfterSync (cache : List UInt8) (fileSize filled startOffset endOffset tailLength : Nat)
    (messages : List (List UInt8)) : Prop :=
  ∃ files, syncFiles cache fileSize ⟨[], ⟨filled, []⟩⟩ startOffset endOffset = some files ∧
    HoldMessages fileSize files.all (startOffset + tailLength) messages

theorem firstSize_room (hfile : 0 < fileSize) :
    firstSize fileSize filled + roomLeft fileSize filled = fileSize ∧
      0 < roomLeft fileSize filled := by
  unfold roomLeft firstSize
  split <;> omega

theorem firstFiles_all_pieces (f : SyncedFile) (hf : f ∈ (firstFiles fileSize filled).all) :
    f.pieces = [] := by
  rcases List.mem_append.mp hf with hf | hf
  · exact firstFiles_older f hf
  · rw [List.mem_singleton.mp hf]
    rfl

/-- The file that the second part opens gets its piece from position `q` on. -/
theorem hold_second {q count : Nat} (hmessages : ∀ message ∈ messages, message ≠ [])
    (hq : q + count ≤ cache.length) (hsize : fileSize < 2147483648) :
    HoldMessages fileSize ((((firstFiles fileSize filled).openFile fileSize count false).append
        ⟨q, slice cache q count⟩).all) startOffset messages ↔
      q = startOffset ∧ count = messages.flatten.length ∧ count ≤ fileSize := by
  have hlength := slice_length _ _ _ hq
  have hcurrent : (firstFiles fileSize filled).current.size = firstSize fileSize filled := rfl
  simp only [SyncedFiles.openFile, Bool.false_eq_true, false_and, not_false_eq_true, true_and,
    false_or, int32_natCast hsize, hcurrent]
  by_cases hfits : ((firstSize fileSize filled : Nat) : Int) + count ≤ fileSize
  · rw [if_pos hfits]
    refine (hold_piece (c := firstSize fileSize filled) firstFiles_older hmessages).trans ?_
    simp only [hlength]
    omega
  · rw [if_neg hfits]
    refine (hold_piece (c := 0) firstFiles_all_pieces hmessages).trans ?_
    simp only [hlength, Nat.zero_add]

/-- Both parts have written something. -/
theorem hold_both {p : Placed UInt8} {q count : Nat}
    (hmessages : ∀ message ∈ messages, message ≠ []) (hq : q + count ≤ cache.length)
    (hsize : fileSize < 2147483648) :
    HoldMessages fileSize (((((firstFiles fileSize filled).append p).openFile fileSize count
        false).append ⟨q, slice cache q count⟩).all) startOffset messages ↔
      p.pos = startOffset ∧ q = p.stop ∧ q + count = startOffset + messages.flatten.length ∧
        (firstSize fileSize filled + (p.data.length + count) ≤ fileSize ∨
          (∃ group rest, messages = group ++ rest ∧ p.data.length = group.flatten.length) ∧
            firstSize fileSize filled + p.data.length ≤ fileSize ∧ count ≤ fileSize) := by
  have hlength := slice_length _ _ _ hq
  have hcurrent : ((firstFiles fileSize filled).append p).current.size =
      firstSize fileSize filled + p.data.length := by
    simp [SyncedFiles.append, firstFiles, SyncedFile.size]
  simp only [SyncedFiles.openFile, Bool.false_eq_true, false_and, not_false_eq_true, true_and,
    false_or, int32_natCast hsize, hcurrent]
  by_cases hfits : ((firstSize fileSize filled + p.data.length : Nat) : Int) + count ≤ fileSize
  · rw [if_pos hfits]
    refine (hold_two_pieces (c := firstSize fileSize filled) firstFiles_older hmessages).trans ?_
    simp only [hlength, Placed.stop]
    constructor
    · rintro ⟨hpos, hnext, hstop, hroom⟩
      exact ⟨hpos, hnext, hstop, .inl hroom⟩
    · rintro ⟨hpos, hnext, hstop, -⟩
      exact ⟨hpos, hnext, hstop, by omega⟩
  · rw [if_neg hfits]
    have hall : ((SyncedFiles.mk ((firstFiles fileSize filled).append p).all ⟨0, []⟩).append
        ⟨q, slice cache q count⟩).all = (firstFiles fileSize filled).older ++
          [⟨firstSize fileSize filled, [p]⟩, ⟨0, [⟨q, slice cache q count⟩]⟩] := by
      simp [SyncedFiles.append, SyncedFiles.all, firstFiles]
    rw [hall, hold_two_files firstFiles_older hmessages]
    simp only [hlength, Nat.zero_add, Placed.stop]
    constructor
    · rintro ⟨hpos, hnext, hstop, hgroup, hroom, hcount⟩
      exact ⟨hpos, hnext, hstop, .inr ⟨hgroup, hroom, hcount⟩⟩
    · rintro ⟨hpos, hnext, hstop, hroom | ⟨hgroup, hroom, hcount⟩⟩
      · omega
      · exact ⟨hpos, hnext, hstop, hgroup, hroom, hcount⟩

theorem hold_nothing (hmessages : ∀ message ∈ messages, message ≠ []) (hnonempty : messages ≠ []) :
    ¬ HoldMessages fileSize (firstFiles fileSize filled).all startOffset messages := by
  rw [← List.append_nil (firstFiles fileSize filled).all,
    hold_older firstFiles_all_pieces hmessages]
  exact hnonempty

theorem held_iff_of_some {files : SyncedFiles} {tailLength : Nat}
    (h : syncFiles cache fileSize ⟨[], ⟨filled, []⟩⟩ startOffset endOffset = some files) :
    HeldAfterSync cache fileSize filled startOffset endOffset tailLength messages ↔
      HoldMessages fileSize files.all (startOffset + tailLength) messages := by
  unfold HeldAfterSync
  rw [h]
  simp only [Option.some.injEq, exists_eq_left']

/-- The first header is the one behind the tail if none is in the tail. -/
theorem first_eq_iff {j k : Nat} (hjk : j ≤ k) (hj : magic <+: cache.drop (startOffset + j))
    (hnone : ∀ i < j, ¬ magic <+: cache.drop (startOffset + i)) :
    j = k ↔ ∀ i < k, ¬ magic <+: cache.drop (startOffset + i) := by
  constructor
  · rintro rfl
    exact hnone
  · intro htail
    by_contra hne
    exact htail j (by omega) hj

/-- The first header is found as often as it is searched for. -/
theorem findHeader_again {j cnt : Nat} (hj : magic <+: cache.drop (startOffset + j))
    (hnone : ∀ i < j, ¬ magic <+: cache.drop (startOffset + i)) (hcnt : j < cnt) :
    mctLogstorageFindMctHeader cache startOffset cnt = some (j : Int) := by
  obtain ⟨j', hle, hfind, hj', -⟩ := findHeader_first hcnt hj
  have heq : j' = j := by
    by_contra hne
    exact hnone j' (by omega) hj'
  rw [hfind, heq]

/-- The region fits into the file, or the first header in it is that of the first
message and the split is right: no header that the room has behind it is as far from
it as from the start, or the last one happens to fit. -/
def SyncsWhole (cache : List UInt8) (fileSize filled startOffset endOffset tailLength : Nat)
    (messages : List (List UInt8)) : Prop :=
  (∀ i < tailLength, ¬ magic <+: cache.drop (startOffset + i)) ∧
    (roomLeft fileSize filled < endOffset - startOffset →
      tailLength < roomLeft fileSize filled ∧
        ((∀ i, tailLength < i → i + 3 ≤ roomLeft fileSize filled →
            magic <+: cache.drop (startOffset + i) → i < 2 * tailLength) ∧
              endOffset - (startOffset + tailLength) ≤ fileSize ∨
          ∃ cut, CutsAt cache fileSize (roomLeft fileSize filled) startOffset endOffset tailLength
            messages cut))

theorem SyncRegion.fileSize_pos
    (hregion : SyncRegion cache fileSize startOffset endOffset tail messages) : 0 < fileSize := by
  obtain ⟨first, rest, hmessages⟩ := List.exists_cons_of_ne_nil hregion.nonempty
  have hfirst : first ∈ messages := by simp [hmessages]
  have hlength := (hregion.headers first hfirst).length_le
  have hfits := hregion.fits first hfirst
  simp only [magic, List.length_cons, List.length_nil] at hlength
  omega

section Cases

variable (hregion : SyncRegion cache fileSize startOffset endOffset tail messages)
  (hsize : fileSize < 2147483648)

include hregion hsize

/-- All of the region fits into the file. -/
theorem held_of_room (hroom : ¬ roomLeft fileSize filled < endOffset - startOffset)
    (hfile : 0 < fileSize) :
    HeldAfterSync cache fileSize filled startOffset endOffset tail.length messages ↔
      ∀ i < tail.length, ¬ magic <+: cache.drop (startOffset + i) := by
  obtain ⟨hheader, hbehind⟩ := hregion.header
  have hlength := hregion.length
  have hinside := hregion.inside
  have hsmall := hregion.small
  have hsum := @firstSize_room _ filled hfile
  obtain ⟨j, hjk, hfind, hj, hnone⟩ := @findHeader_first _ _
    (endOffset - startOffset) _ (by omega : tail.length < endOffset - startOffset) hheader
  have hsync := @syncFiles_eq _ _ filled _ _ _ _ hregion hsize
  rw [if_neg hroom, syncRest_found (by rwa [uint32_natCast (by omega)]) (by omega) hinside
    (by omega)] at hsync
  rw [held_iff_of_some hsync, ← first_eq_iff hjk hj hnone]
  refine (hold_piece (c := firstSize fileSize filled) firstFiles_older
    hregion.message_ne_nil).trans ?_
  simp only [slice_length _ _ _ (by omega : startOffset + j + (endOffset - (startOffset + j)) ≤
    cache.length)]
  omega

variable (hroom : roomLeft fileSize filled < endOffset - startOffset)

include hroom

/-- There is no header in the room of the file. -/
theorem not_held_of_missed
    (hnone : ∀ i < roomLeft fileSize filled, ¬ magic <+: cache.drop (startOffset + i)) :
    ¬ HeldAfterSync cache fileSize filled startOffset endOffset tail.length messages := by
  have hinside := hregion.inside
  have hsmall := hregion.small
  rintro ⟨files, hsync, hhold⟩
  rw [syncFiles_eq hregion hsize, if_pos hroom, Option.bind_eq_some_iff] at hsync
  obtain ⟨result, hfill, hrest⟩ := hsync
  obtain rfl := fillFile_missed (by omega) hsmall (by omega) hnone hfill
  simp only at hrest
  rw [syncRest_missed (by
    rw [uint32_of_small (by omega) (by omega)]
    exact findHeader_none_asked _ _)] at hrest
  obtain rfl := Option.some.inj hrest
  exact hold_nothing hregion.message_ne_nil hregion.nonempty hhold

/-- The last header in the room is twice as far as the first: nothing is written. -/
theorem not_held_of_equal
    (hfill : fillFile cache (firstFiles fileSize filled) startOffset (roomLeft fileSize filled) =
      some (firstFiles fileSize filled, startOffset, 0)) :
    ¬ HeldAfterSync cache fileSize filled startOffset endOffset tail.length messages := by
  have hsync := @syncFiles_eq _ _ filled _ _ _ _ hregion hsize
  rw [if_pos hroom, hfill, Option.bind_some] at hsync
  simp only at hsync
  rw [syncRest_missed (by
    rw [uint32_of_small (by omega) (by omega)]
    exact findHeader_none_asked _ _)] at hsync
  rw [held_iff_of_some hsync]
  exact hold_nothing hregion.message_ne_nil hregion.nonempty

variable {j : Nat} (hjk : j ≤ tail.length) (hjroom : j < roomLeft fileSize filled)
  (hj : magic <+: cache.drop (startOffset + j))
  (hnone : ∀ i < j, ¬ magic <+: cache.drop (startOffset + i))

include hjk hjroom hj hnone

/-- No header in the room is far enough behind the first one: everything goes to
the file that the second part opens. -/
theorem held_of_first {count : Int} (hcount : count < 0) (hlarge : -2147483648 ≤ count)
    (hfill : fillFile cache (firstFiles fileSize filled) startOffset (roomLeft fileSize filled) =
      some (firstFiles fileSize filled, startOffset, count)) :
    HeldAfterSync cache fileSize filled startOffset endOffset tail.length messages ↔
      (∀ i < tail.length, ¬ magic <+: cache.drop (startOffset + i)) ∧
        endOffset - (startOffset + tail.length) ≤ fileSize := by
  have hbehind := hregion.header.2
  have hlength := hregion.length
  have hinside := hregion.inside
  have hsmall := hregion.small
  have hwindow : j < uint32 count := by
    have hwrap : (uint32 count : Int) = 4294967296 + count := by
      unfold uint32
      omega
    omega
  have hsync := @syncFiles_eq _ _ filled _ _ _ _ hregion hsize
  rw [if_pos hroom, hfill, Option.bind_some] at hsync
  simp only at hsync
  rw [syncRest_found (findHeader_again hj hnone hwindow) (by omega) hinside (by omega)] at hsync
  rw [held_iff_of_some hsync, ← first_eq_iff hjk hj hnone]
  simp only [Bool.false_eq_true, if_false]
  rw [hold_second hregion.message_ne_nil (by omega) hsize]
  constructor
  · rintro ⟨heq, -, hfits⟩
    obtain rfl : j = tail.length := by omega
    exact ⟨rfl, hfits⟩
  · rintro ⟨rfl, hfits⟩
    exact ⟨rfl, by omega, hfits⟩

/-- The room is filled up to the last header, and the rest goes to the next file. -/
theorem held_of_cut {e : Nat} (hje : j < e) (hhigh : j + e + 3 ≤ roomLeft fileSize filled)
    (hmark : magic <+: cache.drop (startOffset + (j + e)))
    (hlast : ∀ i, j + e < i → i + 3 ≤ roomLeft fileSize filled →
      ¬ magic <+: cache.drop (startOffset + i))
    (hfile : 0 < fileSize)
    (hfill : fillFile cache (firstFiles fileSize filled) startOffset (roomLeft fileSize filled) =
      some ((firstFiles fileSize filled).append
          ⟨startOffset + j, slice cache (startOffset + j) (e - j)⟩,
        startOffset + (e - j), ((e - j : Nat) : Int))) :
    HeldAfterSync cache fileSize filled startOffset endOffset tail.length messages ↔
      j = tail.length ∧ CutsAt cache fileSize (roomLeft fileSize filled) startOffset endOffset
        tail.length messages e := by
  have hlength := hregion.length
  have hinside := hregion.inside
  have hsmall := hregion.small
  have hsum := @firstSize_room _ filled hfile
  have hslice := slice_length cache (startOffset + j) (e - j) (by omega)
  have hsync := @syncFiles_eq _ _ filled _ _ _ _ hregion hsize
  rw [if_pos hroom, hfill, Option.bind_some] at hsync
  simp only at hsync
  have hcount : uint32 ((e - j : Nat) : Int) = e - j := uint32_natCast (by omega)
  by_cases hwindow : ∃ i < e - j, magic <+: cache.drop (startOffset + (e - j) + i)
  · obtain ⟨i, hi, hheader⟩ := hwindow
    obtain ⟨q, hq, hfind, hqheader, hqnone⟩ := findHeader_first hi hheader
    have hqle : e - j + q ≤ j + e := by
      by_contra hlt
      exact hqnone (2 * j) (by omega) (by
        rwa [show startOffset + (e - j) + 2 * j = startOffset + (j + e) by omega])
    rw [syncRest_found (by rwa [hcount]) (by omega) hinside (by omega)] at hsync
    rw [held_iff_of_some hsync]
    simp only [Bool.false_eq_true, if_false]
    rw [hold_both hregion.message_ne_nil (by omega) hsize]
    simp only [Placed.stop, hslice]
    constructor
    · rintro ⟨hpos, hnext, hstop, hfits⟩
      obtain rfl : j = tail.length := by omega
      obtain rfl : q = tail.length := by omega
      refine ⟨rfl, by omega, by omega, hmark, hlast, ?_, ?_, ?_, ?_⟩
      · rwa [Nat.add_assoc, Nat.sub_add_cancel hje.le] at hqheader
      · intro position hlow hhigh
        have hnot := hqnone (position - (e - tail.length)) (by clear hfits; omega)
        rwa [Nat.add_assoc, Nat.add_sub_cancel' hlow] at hnot
      · rcases hfits with hfits | ⟨-, -, hfits⟩
        · omega
        · omega
      · rcases hfits with hfits | ⟨⟨group, rest, hgroup, hcut⟩, -, -⟩
        · exact .inl (by omega)
        · exact .inr ⟨group, rest, hgroup, by rw [← hcut]; omega⟩
    · rintro ⟨rfl, hcut⟩
      have hqeq : q = tail.length := by
        have hbehind := hcut.behind
        by_contra hne
        rcases Nat.lt_or_gt_of_ne hne with hlt | hgt
        · apply hcut.first (e - tail.length + q) (by omega) (by omega)
          rwa [← Nat.add_assoc]
        · apply hqnone tail.length hgt
          rw [show startOffset + (e - tail.length) + tail.length = startOffset + e by omega]
          exact hcut.header
      have hfits := hcut.fits
      refine ⟨by omega, by omega, by omega, ?_⟩
      rcases hcut.boundary with hboundary | ⟨group, rest, hgroup, hboundary⟩
      · exact .inl (by omega)
      · refine .inr ⟨⟨group, rest, hgroup, ?_⟩, ?_, ?_⟩
        · rw [hboundary]
          omega
        · omega
        · omega
  · constructor
    · rintro ⟨files, hfiles, hhold⟩
      simp only [not_exists, not_and] at hwindow
      rw [hsync] at hfiles
      have hrest := hfiles
      simp only [syncRest, hcount, Option.bind_eq_bind, Option.bind_eq_some_iff] at hrest
      obtain ⟨r, hr, -⟩ := hrest
      obtain rfl := findHeader_none hr hwindow
      rw [syncRest_missed (by rwa [hcount])] at hfiles
      obtain rfl := Option.some.inj hfiles
      have hpiece := (hold_piece (c := firstSize fileSize filled) firstFiles_older
        hregion.message_ne_nil).mp hhold
      simp only [hslice] at hpiece
      omega
    · rintro ⟨rfl, hcut⟩
      have hbehind := hcut.behind
      refine absurd ⟨tail.length, by omega, ?_⟩ hwindow
      rw [show startOffset + (e - tail.length) + tail.length = startOffset + e by omega]
      exact hcut.header

variable (hinroom : startOffset + roomLeft fileSize filled < cache.length)
  (hfind : mctLogstorageFindMctHeader cache startOffset (roomLeft fileSize filled) = some (j : Int))

include hinroom hfind

/-- No other header is found in the room. -/
theorem whole_of_none
    (hlast : ∀ i, j < i → i + 3 ≤ roomLeft fileSize filled →
      ¬ magic <+: cache.drop (startOffset + i)) :
    HeldAfterSync cache fileSize filled startOffset endOffset tail.length messages ↔
      SyncsWhole cache fileSize filled startOffset endOffset tail.length messages := by
  have hsmall := hregion.small
  have heq := first_eq_iff hjk hj hnone
  have hfill := @fillFile_first _ _ (firstFiles fileSize filled) _ _ (by omega) hjroom hinroom
    (by omega) hfind hlast
  rw [held_of_first hregion hsize hroom hjk hjroom hj hnone (by omega) (by omega) hfill]
  constructor
  · rintro ⟨htail, hfits⟩
    obtain rfl := heq.mpr htail
    refine ⟨htail, fun _ => ⟨hjroom, .inl ⟨?_, hfits⟩⟩⟩
    intro i hlow hhigh hmark
    exact absurd hmark (hlast i hlow hhigh)
  · rintro ⟨htail, hsplit⟩
    obtain rfl := heq.mpr htail
    rcases (hsplit hroom).2 with ⟨-, hfits⟩ | ⟨cut, hcut⟩
    · exact ⟨htail, hfits⟩
    · have hbehind := hcut.behind
      exact absurd hcut.found (hlast _ (by omega) hcut.inside)

/-- Another header is found in the room, the last one `e` behind the first. -/
theorem whole_of_last {e : Nat} (hlow : 0 < e) (hhigh : j + e + 3 ≤ roomLeft fileSize filled)
    (hmark : magic <+: cache.drop (startOffset + (j + e)))
    (hlast : ∀ i, j + e < i → i + 3 ≤ roomLeft fileSize filled →
      ¬ magic <+: cache.drop (startOffset + i)) :
    HeldAfterSync cache fileSize filled startOffset endOffset tail.length messages ↔
      SyncsWhole cache fileSize filled startOffset endOffset tail.length messages := by
  have hsmall := hregion.small
  have heq := first_eq_iff hjk hj hnone
  have hfill := @fillFile_last _ _ (firstFiles fileSize filled) _ _ _ (by omega) hinroom
    (by omega) hfind hlow hhigh hmark hlast
  rcases Nat.lt_trichotomy e j with hlt | rfl | hlt
  case inl =>
    rw [if_neg (by omega)] at hfill
    rw [held_of_first hregion hsize hroom hjk hjroom hj hnone (by omega) (by omega) hfill]
    constructor
    · rintro ⟨htail, hfits⟩
      obtain rfl := heq.mpr htail
      refine ⟨htail, fun _ => ⟨hjroom, .inl ⟨?_, hfits⟩⟩⟩
      intro i _ hroomed hheader
      by_contra hfar
      exact hlast i (by omega) hroomed hheader
    · rintro ⟨htail, hsplit⟩
      obtain rfl := heq.mpr htail
      rcases (hsplit hroom).2 with ⟨-, hfits⟩ | ⟨cut, hcut⟩
      · exact ⟨htail, hfits⟩
      · have hbehind := hcut.behind
        exact absurd hcut.found (hlast _ (by omega) hcut.inside)
  case inr.inl =>
    rw [if_neg (by omega), Int.sub_self] at hfill
    constructor
    · exact fun hheld => absurd hheld (not_held_of_equal hregion hsize hroom hfill)
    · rintro ⟨htail, hsplit⟩
      obtain rfl := heq.mpr htail
      rcases (hsplit hroom).2 with ⟨hnear, -⟩ | ⟨cut, hcut⟩
      · have hfar := hnear _ (by omega) hhigh hmark
        omega
      · have hbehind := hcut.behind
        exact absurd hcut.found (hlast _ (by omega) hcut.inside)
  case inr.inr =>
    rw [if_pos hlt] at hfill
    rw [held_of_cut hregion hsize hroom hjk hjroom hj hnone hlt hhigh hmark hlast
      hregion.fileSize_pos hfill]
    constructor
    · rintro ⟨rfl, hcut⟩
      exact ⟨hnone, fun _ => ⟨hjroom, .inr ⟨e, hcut⟩⟩⟩
    · rintro ⟨htail, hsplit⟩
      obtain rfl := heq.mpr htail
      rcases (hsplit hroom).2 with ⟨hnear, -⟩ | ⟨cut, hcut⟩
      · have hfar := hnear _ (by omega) hhigh hmark
        omega
      · rcases Nat.lt_trichotomy cut e with hless | rfl | hmore
        · exact absurd hmark (hcut.last _ (by omega) hhigh)
        · exact ⟨rfl, hcut⟩
        · exact absurd hcut.found (hlast _ (by omega) hcut.inside)

end Cases

/-- The messages of a region are held by the files after the call exactly if the
region fits into the file or happens to be split right. -/
theorem sync_to_file_whole_iff
    (hregion : SyncRegion cache fileSize startOffset endOffset tail messages)
    (hsize : fileSize < 2147483648) :
    HeldAfterSync cache fileSize filled startOffset endOffset tail.length messages ↔
      SyncsWhole cache fileSize filled startOffset endOffset tail.length messages := by
  have hfile := hregion.fileSize_pos
  have hinside := hregion.inside
  have hsmall := hregion.small
  have hheader := hregion.header.1
  unfold SyncsWhole
  by_cases hroom : ¬ roomLeft fileSize filled < endOffset - startOffset
  · rw [held_of_room hregion hsize hroom hfile]
    exact ⟨fun htail => ⟨htail, fun h => absurd h hroom⟩, And.left⟩
  rw [not_not] at hroom
  by_cases hnone : ∀ i < roomLeft fileSize filled, ¬ magic <+: cache.drop (startOffset + i)
  · constructor
    · exact fun hheld => absurd hheld (not_held_of_missed hregion hsize hroom hnone)
    · rintro ⟨-, hsplit⟩
      exact absurd hheader (hnone _ (hsplit hroom).1)
  simp only [not_forall, not_not] at hnone
  obtain ⟨i, hi, hmark⟩ := hnone
  obtain ⟨j, hji, hfind, hj, hfirst⟩ := findHeader_first hi hmark
  have hjk : j ≤ tail.length := by
    by_contra hlt
    exact hfirst tail.length (by omega) hheader
  have hinroom : startOffset + roomLeft fileSize filled < cache.length := by omega
  obtain ⟨r, hr⟩ := @findLastHeader_total cache (startOffset + j)
    (roomLeft fileSize filled - j) (by omega) (by omega)
  have hspec := findLastHeader_some (by omega) hr
  simp only [Nat.add_assoc] at hspec
  rcases hspec with ⟨-, hlast⟩ | ⟨e, -, hlow, hhigh, hmark, hlast⟩
  case inl =>
    refine whole_of_none hregion hsize hroom hjk (by omega) hj hfirst hinroom hfind ?_
    intro i hlow hhigh
    have hnot := hlast (i - j) (by omega) (by omega)
    rwa [Nat.add_sub_cancel' hlow.le] at hnot
  case inr =>
    refine whole_of_last hregion hsize hroom hjk (by omega) hj hfirst hinroom hfind hlow (by omega)
      hmark ?_
    intro i hlow hhigh
    have hnot := hlast (i - j) (by omega) (by omega)
    rwa [Nat.add_sub_cancel' (by omega)] at hnot

end Whole

section Samples

def sampleCached (n : UInt8) : List UInt8 := magic ++ [n, n, n, n]

/-- Three messages in the cache, behind so many bytes of an older one. -/
def sampleCache (tailLength : Nat) : List UInt8 :=
  List.replicate tailLength 9 ++ (sampleCached 1 ++ sampleCached 2 ++ sampleCached 3)

theorem sampleCache_region (tailLength : Nat) (hsmall : tailLength < 100) :
    SyncRegion (sampleCache tailLength) 20 0 (tailLength + 24) (List.replicate tailLength 9)
      [sampleCached 1, sampleCached 2, sampleCached 3] where
  le := by omega
  inside := by simp [sampleCache, sampleCached, magic]
  small := by
    simp [sampleCache, sampleCached, magic]
    omega
  cells := by simp [slice, sampleCache, sampleCached, magic]
  headers := by decide
  nonempty := by decide
  fits := by decide

theorem sync_to_file_whole_sample :
    HeldAfterSync (sampleCache 0) 20 0 0 24 0 [sampleCached 1, sampleCached 2, sampleCached 3] :=
  (sync_to_file_whole_iff (sampleCache_region 0 (by omega)) (by omega)).mpr
    ⟨by simp, fun _ => ⟨by decide, .inr ⟨16,
      { behind := by decide
        inside := by decide
        found := by decide
        last := by
          intro i hlow hhigh
          obtain rfl : i = 17 := by
            have hroom : roomLeft 20 0 = 20 := rfl
            omega
          decide
        header := by decide
        first := fun i hlow hhigh => absurd (show 16 ≤ i from hlow) (by omega)
        fits := by decide
        boundary := .inr ⟨[sampleCached 1, sampleCached 2], [sampleCached 3], rfl, rfl⟩ }⟩⟩⟩

/-- Two bytes of an older message are in front: of the first message only six bytes
are written. -/
theorem sync_to_file_cuts_message :
    SyncRegion (sampleCache 2) 20 0 26 [9, 9] [sampleCached 1, sampleCached 2, sampleCached 3] ∧
      ¬ HeldAfterSync (sampleCache 2) 20 0 0 26 2
        [sampleCached 1, sampleCached 2, sampleCached 3] := by
  refine ⟨sampleCache_region 2 (by omega), ?_⟩
  have hsync : syncFiles (sampleCache 2) 20 ⟨[], ⟨0, []⟩⟩ 0 26 =
      some ⟨[⟨0, [⟨2, (sampleCached 1).take 6⟩]⟩],
        ⟨0, [⟨10, sampleCached 2 ++ sampleCached 3⟩]⟩⟩ := by
    decide +kernel
  rw [held_iff_of_some hsync]
  intro hhold
  have hnext := ((@hold_two_files _ _ _ [] _ _ _ _ (by decide) (by decide)).mp hhold).2.1
  exact absurd hnext (by decide)

end Samples

end MctDaemon.Logstorage
