import MctDaemon.Lib.TextFile
import MctDaemon.Shared.FilterCover

/-!
Filter files (`mct_filter_save`, `mct_filter_load`). A file names the ids of each
filter, in four characters each; what was shorter comes back filled up with
dashes.
-/

namespace MctDaemon.Shared

open Lib

section Model

/-- `----`, which stands for an empty id. -/
def dashes : List UInt8 := [45, 45, 45, 45]

def mctPrintId (id : List UInt8) : List UInt8 :=
  idBytesText id ++ List.replicate (mctIdSize - (idBytesText id).length) 45

/-- What `mct_filter_save` writes for an id. -/
def savedId (id : List UInt8) : List UInt8 :=
  if id.head? = some 0 then dashes else mctPrintId id

/-- The file `mct_filter_save` writes. -/
def mctFilterSave (f : MctFilter) : List UInt8 :=
  f.entries.flatMap fun entry => savedId entry.apid ++ 32 :: (savedId entry.ctid ++ [32])

def mctCommonBufferLength : Nat := 255

/-- `isspace`. -/
def isSpaceByte (b : UInt8) : Bool := b = 32 ∨ 9 ≤ b ∧ b ≤ 13

/-- The id that `mct_filter_load` makes of a word. -/
def loadedId (word : List UInt8) : FilterId :=
  if word.takeWhile (fun b => b ≠ 0) = dashes then mctSetId [] else mctSetId word

/-- The loop of `mct_filter_load` over the words of the file. -/
def loadWords (f : MctFilter) : List (List UInt8) → MctFilter
  | apid :: ctid :: words =>
      if apid.head? = some 0 ∨ ctid.head? = some 0 then f
      else
        loadWords
          (if f.counter < mctFilterMax then
            (mctFilterAdd f
              ⟨(loadedId apid).bytes, some (loadedId ctid).bytes, 0, 0, int32Max⟩).2
          else f) words
  | _ => f

def mctFilterLoad (f : MctFilter) (content : List UInt8) : MctFilter :=
  loadWords { f with counter := 0, counter_le := Nat.zero_le _ }
    (readWords isSpaceByte mctCommonBufferLength content)

end Model

section Saving

/-- An id of printable characters that are no blanks, other than `----`, or an
empty one. -/
def PrintableId (id : List UInt8) : Prop :=
  (∀ b ∈ idBytesText id, 33 ≤ b ∧ b ≤ 126) ∧ idBytesText id ≠ dashes

/-- The entry with the ids that come back from its line in a file, and no other
restriction. -/
def MctFilterEntry.reloaded (entry : MctFilterEntry) : MctFilterEntry :=
  ⟨(loadedId (savedId entry.apid)).bytes, (loadedId (savedId entry.ctid)).bytes, 0, 0, int32Max⟩

instance instDecidablePrintableId (id : List UInt8) : Decidable (PrintableId id) :=
  inferInstanceAs (Decidable (_ ∧ _))

theorem mctPrintId_length (id : List UInt8) : (mctPrintId id).length = mctIdSize := by
  have hle := idBytesText_length_le id
  rw [mctPrintId, List.length_append, List.length_replicate]
  omega

theorem savedId_length (id : List UInt8) : (savedId id).length = mctIdSize := by
  unfold savedId
  split
  · rfl
  · exact mctPrintId_length id

theorem printable_of_mem_savedId {id : List UInt8} (hid : PrintableId id) {b : UInt8}
    (hb : b ∈ savedId id) : 33 ≤ b ∧ b ≤ 126 := by
  have hdash : (33 : UInt8) ≤ 45 ∧ (45 : UInt8) ≤ 126 := by decide
  unfold savedId at hb
  split at hb
  · rw [List.eq_of_mem_replicate (n := 4) hb]
    exact hdash
  · rcases List.mem_append.mp hb with htext | hfill
    · exact hid.1 b htext
    · rw [List.eq_of_mem_replicate hfill]
      exact hdash

/-- A saved id is read back as one word. -/
theorem readWords_savedId {id : List UInt8} (hid : PrintableId id) (rest : List UInt8) :
    readWords isSpaceByte mctCommonBufferLength (savedId id ++ 32 :: rest) =
      savedId id :: readWords isSpaceByte mctCommonBufferLength rest := by
  have hlength := savedId_length id
  refine readWords_append ?_ ?_ ?_ rfl rest
  · intro hnil
    rw [hnil] at hlength
    cases hlength
  · intro b hb
    have hprintable := printable_of_mem_savedId hid hb
    rw [UInt8.le_iff_toNat_le, UInt8.le_iff_toNat_le] at hprintable
    have h33 : (33 : UInt8).toNat = 33 := rfl
    have h13 : (13 : UInt8).toNat = 13 := rfl
    have h32 : (32 : UInt8).toNat = 32 := rfl
    simp only [isSpaceByte, decide_eq_true_eq, not_or, not_and, UInt8.le_iff_toNat_le,
      ← UInt8.toNat_inj]
    omega
  · rw [hlength]
    decide

/-- The words that stand for these entries in a file. -/
def savedWords (entries : List MctFilterEntry) : List (List UInt8) :=
  entries.flatMap fun entry => [savedId entry.apid, savedId entry.ctid]

theorem readWords_mctFilterSave {f : MctFilter}
    (hids : ∀ entry ∈ f.entries, PrintableId entry.apid ∧ PrintableId entry.ctid) :
    readWords isSpaceByte mctCommonBufferLength (mctFilterSave f) = savedWords f.entries := by
  unfold mctFilterSave savedWords
  generalize f.entries = entries at hids
  induction entries with
  | nil => rfl
  | cons entry entries ih =>
      obtain ⟨hapid, hctid⟩ := hids entry List.mem_cons_self
      rw [List.flatMap_cons, List.flatMap_cons, List.append_assoc, List.cons_append,
        readWords_savedId hapid, List.append_assoc, List.singleton_append, readWords_savedId hctid,
        ih fun other hmem => hids other (List.mem_cons_of_mem _ hmem)]
      rfl

end Saving

section Loading

/-- An entry as `mct_filter_load` adds it. -/
def MctFilterEntry.Plain (entry : MctFilterEntry) : Prop :=
  entry.logLevel = 0 ∧ entry.payloadMin = 0 ∧ entry.payloadMax = int32Max

/-- Where there is room, only an entry that fits already is refused. -/
theorem found_of_refused {f : MctFilter} {args : FilterArgs} (hroom : f.counter < mctFilterMax)
    (h : (mctFilterAdd f args).1 ≠ .ok) : 0 ≤ mctFilterFind f args := by
  by_contra hnone
  rw [mctFilterAdd, dif_neg (by omega), if_pos (not_le.mp hnone)] at h
  exact h rfl

variable {g : MctFilter}

/-- Adding the ids of an entry leaves a plain list with exactly these ids more. -/
theorem mem_entries_loadEntry (hroom : g.counter < mctFilterMax)
    (hplain : ∀ entry ∈ g.entries, entry.Plain) (entry : MctFilterEntry) :
    let next := (mctFilterAdd g ⟨(loadedId (savedId entry.apid)).bytes,
      some (loadedId (savedId entry.ctid)).bytes, 0, 0, int32Max⟩).2
    next.counter ≤ g.counter + 1 ∧ (∀ other ∈ next.entries, other.Plain) ∧
      ∀ other, other ∈ next.entries ↔ other ∈ g.entries ∨ other = entry.reloaded := by
  intro next
  have hnew : FilterArgs.entry ⟨(loadedId (savedId entry.apid)).bytes,
      some (loadedId (savedId entry.ctid)).bytes, 0, 0, int32Max⟩ = entry.reloaded := by
    simp [FilterArgs.entry, MctFilterEntry.reloaded]
  by_cases hok : (mctFilterAdd g ⟨(loadedId (savedId entry.apid)).bytes,
      some (loadedId (savedId entry.ctid)).bytes, 0, 0, int32Max⟩).1 = .ok
  · obtain ⟨_, _, hentries⟩ := entries_mctFilterAdd hok
    rw [hnew] at hentries
    have hlength := congrArg List.length hentries
    rw [MctFilter.entries_length, List.length_append, MctFilter.entries_length,
      List.length_singleton] at hlength
    refine ⟨hlength.le, ?_, ?_⟩
    · intro other hother
      rw [hentries] at hother
      rcases List.mem_append.mp hother with hold | hadded
      · exact hplain other hold
      · rw [List.mem_singleton.mp hadded]
        exact ⟨rfl, rfl, rfl⟩
    · intro other
      rw [hentries, List.mem_append, List.mem_singleton]
  · have hsame := mctFilterAdd_refused hok
    obtain ⟨num, hnum, hfinds⟩ := mctFilterFind_nonneg_iff.mp (found_of_refused hroom hok)
    have hmem : g.entryAt num ∈ g.entries := List.mem_map_of_mem (List.mem_range.mpr hnum)
    have hpresent : entry.reloaded ∈ g.entries := by
      obtain ⟨hlevel, hmin, hmax⟩ := hplain _ hmem
      obtain ⟨hapid, hctid⟩ := ids_of_finds hfinds
      rw [hnew] at hapid hctid
      have hentry : g.entryAt num = entry.reloaded := by
        generalize g.entryAt num = found at hlevel hmin hmax hapid hctid
        cases found
        simp only at hlevel hmin hmax hapid hctid
        subst hlevel hmin hmax hapid hctid
        rfl
      rwa [← hentry]
    have hnext : next = g := hsame
    rw [hnext]
    refine ⟨Nat.le_succ _, hplain, fun other => (or_iff_left_of_imp ?_).symm⟩
    rintro rfl
    exact hpresent

theorem loadWords_cons {entry : MctFilterEntry} (hapid : PrintableId entry.apid)
    (hctid : PrintableId entry.ctid) (hroom : g.counter < mctFilterMax)
    (words : List (List UInt8)) :
    loadWords g (savedId entry.apid :: savedId entry.ctid :: words) =
      loadWords (mctFilterAdd g ⟨(loadedId (savedId entry.apid)).bytes,
        some (loadedId (savedId entry.ctid)).bytes, 0, 0, int32Max⟩).2 words := by
  have hhead : ∀ {id : List UInt8}, PrintableId id → (savedId id).head? ≠ some 0 := by
    intro id hid hzero
    have hmem := List.mem_of_mem_head? hzero
    have hprintable := (printable_of_mem_savedId hid hmem).1
    revert hprintable
    decide
  rw [loadWords, if_neg (by simp [hhead hapid, hhead hctid]), if_pos hroom]

/-- The entries of a loaded list are those of the file, whatever is dropped as
already present. -/
theorem mem_entries_loadWords {entries : List MctFilterEntry}
    (hids : ∀ entry ∈ entries, PrintableId entry.apid ∧ PrintableId entry.ctid)
    (hroom : g.counter + entries.length ≤ mctFilterMax)
    (hplain : ∀ entry ∈ g.entries, entry.Plain) (other : MctFilterEntry) :
    other ∈ (loadWords g (savedWords entries)).entries ↔
      other ∈ g.entries ∨ ∃ entry ∈ entries, other = entry.reloaded := by
  induction entries generalizing g with
  | nil =>
      have hnil : loadWords g (savedWords []) = g := rfl
      rw [hnil]
      simp
  | cons entry entries ih =>
      rw [List.length_cons] at hroom
      obtain ⟨hapid, hctid⟩ := hids entry List.mem_cons_self
      obtain ⟨hcounter, hplain', hmem⟩ := mem_entries_loadEntry (by omega) hplain entry
      have hwords : savedWords (entry :: entries) =
          savedId entry.apid :: savedId entry.ctid :: savedWords entries := rfl
      rw [hwords, loadWords_cons hapid hctid (by omega),
        ih (fun e he => hids e (List.mem_cons_of_mem _ he)) (by omega) hplain', hmem]
      simp [or_assoc]

end Loading

section RoundTrip

/-- The entry restricts neither the level nor the size of the payload. -/
def MctFilterEntry.Unrestricted (entry : MctFilterEntry) : Prop :=
  entry.logLevel = 0 ∧ entry.payloadMin ≤ 0 ∧
    (entry.payloadMax = 0 ∨ entry.payloadMax = int32Max)

instance instDecidableUnrestricted (entry : MctFilterEntry) : Decidable entry.Unrestricted :=
  inferInstanceAs (Decidable (_ ∧ _))

theorem MctFilterEntry.Unrestricted.allows {entry : MctFilterEntry} (h : entry.Unrestricted)
    {level size : Int} (hsize : 0 ≤ size) (hsize' : size ≤ int32Max) : entry.Allows level size := by
  obtain ⟨hlevel, hmin, hmax⟩ := h
  refine ⟨.inl hlevel, .inr (hmin.trans hsize), hmax.imp_right fun heq => ?_⟩
  rwa [heq]

theorem MctFilterEntry.reloaded_unrestricted (entry : MctFilterEntry) :
    entry.reloaded.Unrestricted :=
  ⟨rfl, le_rfl, .inr rfl⟩

/-- Unrestricted lists answer by the ids of a message. -/
theorem messageFilterCheck_unrestricted {entries : List MctFilterEntry}
    (hentries : ∀ entry ∈ entries, entry.Unrestricted) {headerbuffer : List UInt8} {size : Int}
    (hsize : 0 ≤ size) (hsize' : size ≤ int32Max) :
    messageFilterCheck headerbuffer size entries ↔
      entries = [] ∨ ¬ headerHasUeh headerbuffer ∨
        ∃ entry ∈ entries, entry.IdsAllow (headerApid headerbuffer) (headerCtid headerbuffer) := by
  rw [messageFilterCheck_iff]
  refine or_congr_right (or_congr_right (exists_congr fun entry => and_congr_right fun hmem => ?_))
  exact and_iff_left ((hentries entry hmem).allows hsize hsize')

/-- Two lists of unrestricted entries answer alike exactly when each entry of one
is covered by an entry of the other. -/
theorem messageFilterCheck_eq_iff {l m : List MctFilterEntry} (hl : ∀ e ∈ l, e.Unrestricted)
    (hm : ∀ e ∈ m, e.Unrestricted) (hlength : l.length < 255) (hlength' : m.length < 255)
    (hempty : l = [] ↔ m = [])
    (hids : ∀ e ∈ l ++ m, e.apid.length = 4 ∧ e.ctid.length = 4) :
    (∀ (headerbuffer : List UInt8) (size : Int), 0 ≤ size → size ≤ int32Max →
      messageFilterCheck headerbuffer size l = messageFilterCheck headerbuffer size m) ↔
    (∀ e ∈ m, ∃ s ∈ l, s.IdsAllow e.apid e.ctid) ∧
      (∀ e ∈ l, ∃ s ∈ m, s.IdsAllow e.apid e.ctid) := by
  have hcover : ∀ {a b : List MctFilterEntry}, (∀ e ∈ a, e.Unrestricted) →
      (∀ e ∈ b, e.Unrestricted) → a.length < 255 → (b = [] ↔ a = []) →
      (∀ e ∈ b, e.apid.length = 4 ∧ e.ctid.length = 4) →
      (∀ (headerbuffer : List UInt8) (size : Int), 0 ≤ size → size ≤ int32Max →
        messageFilterCheck headerbuffer size a = messageFilterCheck headerbuffer size b) →
      ∀ e ∈ b, ∃ s ∈ a, s.IdsAllow e.apid e.ctid := by
    intro a b ha hb hlen hnil hid hsame e he
    obtain ⟨headerbuffer, hueh, _, hallow, honly⟩ := exists_probe a hlen (hid e he).1 (hid e he).2
      (by decide : 0 < 16)
    have hzero : (0 : Int) ≤ int32Max := by decide
    have hpass := (messageFilterCheck_unrestricted hb le_rfl hzero).mpr
      (.inr (.inr ⟨e, he, hallow⟩))
    rw [← hsame headerbuffer 0 le_rfl hzero,
      messageFilterCheck_unrestricted ha le_rfl hzero] at hpass
    rcases hpass with hno | hno | ⟨s, hs, hsallow⟩
    · exact absurd (hnil.mpr hno) (List.ne_nil_of_mem he)
    · exact absurd hueh hno
    · exact ⟨s, hs, honly s hs hsallow⟩
  constructor
  · intro hsame
    exact ⟨hcover hl hm hlength hempty.symm (fun e he => hids e (List.mem_append_right _ he)) hsame,
      hcover hm hl hlength' hempty (fun e he => hids e (List.mem_append_left _ he))
        fun headerbuffer size h0 h1 => (hsame headerbuffer size h0 h1).symm⟩
  · rintro ⟨hml, hlm⟩ headerbuffer size hsize hsize'
    rw [Bool.eq_iff_iff, messageFilterCheck_unrestricted hl hsize hsize',
      messageFilterCheck_unrestricted hm hsize hsize']
    refine or_congr hempty (or_congr_right ⟨?_, ?_⟩)
    · rintro ⟨e, he, hallow⟩
      obtain ⟨s, hs, hcovers⟩ := hlm e he
      exact ⟨s, hs, hcovers.trans hallow⟩
    · rintro ⟨e, he, hallow⟩
      obtain ⟨s, hs, hcovers⟩ := hml e he
      exact ⟨s, hs, hcovers.trans hallow⟩

/-- A list of filters without restrictions on level and payload answers alike
after it was saved and loaded, exactly when the entries whose ids have fewer
than four characters, and come back filled up with dashes, are covered by
others before and after. -/
theorem saved_filters_load_back_iff (f g : MctFilter)
    (hids : ∀ entry ∈ f.entries, PrintableId entry.apid ∧ PrintableId entry.ctid)
    (hunrestricted : ∀ entry ∈ f.entries, entry.Unrestricted) :
    (∀ (headerbuffer : List UInt8) (size : Int), 0 ≤ size → size ≤ int32Max →
      messageFilterCheck headerbuffer size (mctFilterLoad g (mctFilterSave f)).entries =
        messageFilterCheck headerbuffer size f.entries) ↔
    ∀ entry ∈ f.entries,
      (∃ other ∈ f.entries, other.reloaded.IdsAllow entry.apid entry.ctid) ∧
      (∃ other ∈ f.entries, other.IdsAllow entry.reloaded.apid entry.reloaded.ctid) := by
  have hcounter := f.counter_le
  have hlength := f.entries_length
  have hmem : ∀ other, other ∈ (mctFilterLoad g (mctFilterSave f)).entries ↔
      ∃ entry ∈ f.entries, other = entry.reloaded := by
    intro other
    have hstart : ({ g with counter := 0, counter_le := Nat.zero_le _ } : MctFilter).entries = [] :=
      rfl
    rw [mctFilterLoad, readWords_mctFilterSave hids, mem_entries_loadWords hids (by simp; omega)
      (by rw [hstart]; nofun), hstart]
    simp
  have hempty : (mctFilterLoad g (mctFilterSave f)).entries = [] ↔ f.entries = [] := by
    simp only [List.eq_nil_iff_forall_not_mem, hmem]
    exact ⟨fun h entry hentry => h _ ⟨entry, hentry, rfl⟩,
      fun h other ⟨entry, hentry, _⟩ => h entry hentry⟩
  have hmax : mctFilterMax < 255 := by decide
  have hlengths : ∀ f : MctFilter, ∀ e ∈ f.entries, e.apid.length = 4 ∧ e.ctid.length = 4 := by
    intro f e he
    obtain ⟨num, _, rfl⟩ := List.mem_map.mp he
    exact length_entryAt f num
  rw [messageFilterCheck_eq_iff ?_ hunrestricted ?_ (by omega) hempty ?_]
  · constructor
    · rintro ⟨hback, hforth⟩ entry hentry
      obtain ⟨other, hother, hallow⟩ := hback entry hentry
      obtain ⟨source, hsource, rfl⟩ := (hmem other).mp hother
      exact ⟨⟨source, hsource, hallow⟩, hforth _ ((hmem _).mpr ⟨entry, hentry, rfl⟩)⟩
    · intro hall
      refine ⟨fun entry hentry => ?_, fun other hother => ?_⟩
      · obtain ⟨⟨source, hsource, hallow⟩, _⟩ := hall entry hentry
        exact ⟨source.reloaded, (hmem _).mpr ⟨source, hsource, rfl⟩, hallow⟩
      · obtain ⟨source, hsource, rfl⟩ := (hmem other).mp hother
        exact (hall source hsource).2
  · intro e he
    obtain ⟨entry, _, rfl⟩ := (hmem e).mp he
    exact entry.reloaded_unrestricted
  · rw [MctFilter.entries_length]
    exact (MctFilter.counter_le _).trans_lt hmax
  · intro e he
    rcases List.mem_append.mp he with h | h
    · exact hlengths _ e h
    · exact hlengths _ e h

/-- A list with the filters `APP1`, `CON1` and `APP2` for every context. -/
def wholeIds : MctFilter :=
  let first := (mctFilterAdd (mctFilterLoad shortMessages [])
    ⟨[65, 80, 80, 49], some [67, 79, 78, 49], 0, 0, int32Max⟩).2
  (mctFilterAdd first ⟨[65, 80, 80, 50], none, 0, 0, int32Max⟩).2

theorem saved_filters_load_back_sample :
    wholeIds.entries.length = 2 ∧
      ∀ (headerbuffer : List UInt8) (size : Int), 0 ≤ size → size ≤ int32Max →
        messageFilterCheck headerbuffer size
            (mctFilterLoad wholeIds (mctFilterSave wholeIds)).entries =
          messageFilterCheck headerbuffer size wholeIds.entries :=
  ⟨by decide +kernel, (saved_filters_load_back_iff wholeIds wholeIds (by decide +kernel)
    (by decide +kernel)).mpr (by decide +kernel)⟩

/-- A list with the filter `LOG`, for every context. -/
def shortId : MctFilter :=
  (mctFilterAdd (mctFilterLoad shortMessages []) ⟨[76, 79, 71, 0], none, 0, 0, int32Max⟩).2

/-- The application id `LOG` is saved as `LOG-`. -/
theorem saved_short_id_lost :
    (∀ entry ∈ shortId.entries, PrintableId entry.apid ∧ PrintableId entry.ctid) ∧
      (∀ entry ∈ shortId.entries, entry.Unrestricted) ∧
      messageFilterCheck (headerWith 4 [76, 79, 71, 0] [67, 79, 78, 49]) 60 shortId.entries =
        true ∧
      messageFilterCheck (headerWith 4 [76, 79, 71, 0] [67, 79, 78, 49]) 60
        (mctFilterLoad shortId (mctFilterSave shortId)).entries = false := by
  decide +kernel

end RoundTrip

end MctDaemon.Shared
