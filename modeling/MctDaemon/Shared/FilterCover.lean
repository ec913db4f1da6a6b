import MctDaemon.Shared.FilterList

/-!
What a filter list lets through. A message passes when one entry allows its ids,
its level and its size, so a list is only as good as the union of its entries;
messages with ids that no entry names show which entry it must be.
-/

namespace MctDaemon.Shared

open Lib

section Messages

/-- The bytes behind the extra parameters, where the extended header stands. -/
def extendedBytes (headerbuffer : List UInt8) : List UInt8 :=
  headerbuffer.drop (sizeofStorageHeader + sizeofStandardHeader +
    standardHeaderExtraSize (headerbuffer.getD sizeofStorageHeader 0))

def headerHasUeh (headerbuffer : List UInt8) : Bool :=
  isHtyp 0 (headerbuffer.getD sizeofStorageHeader 0)

def headerApid (headerbuffer : List UInt8) : List UInt8 := slice (extendedBytes headerbuffer) 2 4

def headerCtid (headerbuffer : List UInt8) : List UInt8 := slice (extendedBytes headerbuffer) 6 4

/-- `MCT_GET_MSIN_MTIN`. -/
def headerMtin (headerbuffer : List UInt8) : Nat :=
  ((extendedBytes headerbuffer).getD 0 0).toNat / 16

theorem headerMtin_lt (headerbuffer : List UInt8) : headerMtin headerbuffer < 16 := by
  have h := ((extendedBytes headerbuffer).getD 0 0).toNat_lt
  unfold headerMtin
  omega

/-- The header bytes of a message with an extended header and no extra
parameters. -/
def headerWith (level : Nat) (apid ctid : List UInt8) : List UInt8 :=
  List.replicate sizeofStorageHeader 0 ++ [1, 0, 0, 0] ++ [UInt8.ofNat (level * 16), 0] ++
    apid ++ ctid

variable {level : Nat} {apid ctid : List UInt8}

theorem htyp_headerWith : (headerWith level apid ctid).getD sizeofStorageHeader 0 = 1 := rfl

theorem headerWith_ueh : headerHasUeh (headerWith level apid ctid) := by
  rw [headerHasUeh, htyp_headerWith]
  decide

theorem extendedBytes_headerWith :
    extendedBytes (headerWith level apid ctid) = [UInt8.ofNat (level * 16), 0] ++ apid ++ ctid := by
  have hextra : standardHeaderExtraSize 1 = 0 := by decide
  rw [extendedBytes, htyp_headerWith, hextra]
  rfl

theorem headerMtin_headerWith (hlevel : level < 16) :
    headerMtin (headerWith level apid ctid) = level := by
  rw [headerMtin, extendedBytes_headerWith]
  simp only [List.cons_append, List.getD_cons_zero, UInt8.toNat_ofNat']
  omega

theorem headerApid_headerWith (hapid : apid.length = 4) :
    headerApid (headerWith level apid ctid) = apid := by
  rw [headerApid, extendedBytes_headerWith]
  simp [slice, hapid]

theorem headerCtid_headerWith (hapid : apid.length = 4) (hctid : ctid.length = 4) :
    headerCtid (headerWith level apid ctid) = ctid := by
  rw [headerCtid, extendedBytes_headerWith]
  simp [slice, hapid, hctid]

end Messages

namespace MctFilterEntry

/-- The entry does not exclude the ids; an empty id of the entry allows all. -/
def IdsAllow (entry : MctFilterEntry) (apid ctid : List UInt8) : Prop :=
  (entry.apid.head? = some 0 ∨ entry.apid = apid) ∧
    (entry.ctid.head? = some 0 ∨ entry.ctid = ctid)

def Allows (entry : MctFilterEntry) (level size : Int) : Prop :=
  (entry.logLevel = 0 ∨ entry.logLevel = level) ∧
    (entry.payloadMin = 0 ∨ entry.payloadMin ≤ size) ∧
    (entry.payloadMax = 0 ∨ size ≤ entry.payloadMax)

instance instDecidableIdsAllow (entry : MctFilterEntry) (apid ctid : List UInt8) :
    Decidable (entry.IdsAllow apid ctid) :=
  inferInstanceAs (Decidable (_ ∧ _))

theorem IdsAllow.trans {entry other : MctFilterEntry} {apid ctid : List UInt8}
    (h : entry.IdsAllow other.apid other.ctid) (hother : other.IdsAllow apid ctid) :
    entry.IdsAllow apid ctid := by
  obtain ⟨hapid, hctid⟩ := h
  refine ⟨?_, ?_⟩
  · rcases hapid with hempty | hsame
    · exact .inl hempty
    · rw [hsame]
      exact hother.1
  · rcases hctid with hempty | hsame
    · exact .inl hempty
    · rw [hsame]
      exact hother.2

end MctFilterEntry

theorem messageFilterCheck_iff (headerbuffer : List UInt8) (size : Int)
    (entries : List MctFilterEntry) :
    messageFilterCheck headerbuffer size entries ↔
      entries = [] ∨ ¬ headerHasUeh headerbuffer ∨
        ∃ entry ∈ entries, entry.IdsAllow (headerApid headerbuffer) (headerCtid headerbuffer) ∧
          entry.Allows (headerMtin headerbuffer) size := by
  unfold messageFilterCheck
  by_cases hpass : entries = [] ∨ ¬ headerHasUeh headerbuffer
  · have hcond : entries = [] ∨ (!isHtyp 0 (headerbuffer.getD sizeofStorageHeader 0)) = true := by
      simpa [headerHasUeh] using hpass
    rw [if_pos hcond]
    exact iff_of_true rfl (or_assoc.mp (.inl hpass))
  · have hcond : ¬ (entries = [] ∨
        (!isHtyp 0 (headerbuffer.getD sizeofStorageHeader 0)) = true) := by
      simpa [headerHasUeh] using hpass
    rw [if_neg hcond, ← or_assoc, or_iff_right hpass, List.any_eq_true]
    refine exists_congr fun entry => and_congr_right fun _ => ?_
    rw [decide_eq_true_eq, MctFilterEntry.IdsAllow, MctFilterEntry.Allows, and_assoc]
    simp only [headerApid, headerCtid, headerMtin, extendedBytes, Nat.cast_ofNat,
      Int.natCast_ediv]

section Probes

/-- A short list of bytes leaves one out. -/
theorem exists_fresh_byte (bytes : List UInt8) (hbytes : bytes.length < 256) :
    ∃ b, b ∉ bytes := by
  by_contra hall
  push Not at hall
  have hsub : List.range 256 ⊆ bytes.map UInt8.toNat := by
    intro n hn
    rw [List.mem_range] at hn
    refine List.mem_map.mpr ⟨UInt8.ofNat n, hall _, ?_⟩
    rw [UInt8.toNat_ofNat']
    omega
  have hlength := (List.nodup_range.subperm hsub).length_le
  rw [List.length_range, List.length_map] at hlength
  omega

/-- An id that only the empty ones among `ids` and `id` itself allow. -/
theorem exists_probe_id (ids : List (List UInt8)) (hids : ids.length < 255) {id : List UInt8}
    (hlength : id.length = 4) :
    ∃ probe : List UInt8, probe.length = 4 ∧ (id.head? = some 0 ∨ id = probe) ∧
      ∀ other ∈ ids, other.head? = some 0 ∨ other = probe → other.head? = some 0 ∨ other = id := by
  by_cases hempty : id.head? = some 0
  · obtain ⟨b, hb⟩ := exists_fresh_byte (0 :: ids.map fun other => other.headD 0)
      (by rw [List.length_cons, List.length_map]; omega)
    refine ⟨[b, b, b, b], rfl, .inl hempty, ?_⟩
    rintro other hother (hzero | rfl)
    · exact .inl hzero
    · exact absurd (List.mem_cons_of_mem _ (List.mem_map.mpr ⟨_, hother, rfl⟩)) hb
  · exact ⟨id, hlength, .inr rfl, fun other _ h => h⟩

/-- A message that an entry allows, and of the others only those that allow all
that its ids allow. -/
theorem exists_probe (entries : List MctFilterEntry) (hentries : entries.length < 255)
    {entry : MctFilterEntry} (hapid : entry.apid.length = 4) (hctid : entry.ctid.length = 4)
    {level : Nat} (hlevel : level < 16) :
    ∃ headerbuffer, headerHasUeh headerbuffer ∧ headerMtin headerbuffer = level ∧
      entry.IdsAllow (headerApid headerbuffer) (headerCtid headerbuffer) ∧
      ∀ other ∈ entries, other.IdsAllow (headerApid headerbuffer) (headerCtid headerbuffer) →
        other.IdsAllow entry.apid entry.ctid := by
  obtain ⟨apid, hapidLength, hapidAllow, hapidOnly⟩ :=
    exists_probe_id (entries.map MctFilterEntry.apid) (by rwa [List.length_map]) hapid
  obtain ⟨ctid, hctidLength, hctidAllow, hctidOnly⟩ :=
    exists_probe_id (entries.map MctFilterEntry.ctid) (by rwa [List.length_map]) hctid
  refine ⟨headerWith level apid ctid, headerWith_ueh, headerMtin_headerWith hlevel, ?_, ?_⟩
  · rw [headerApid_headerWith hapidLength, headerCtid_headerWith hapidLength hctidLength]
    exact ⟨hapidAllow, hctidAllow⟩
  · intro other hother hallow
    rw [headerApid_headerWith hapidLength, headerCtid_headerWith hapidLength hctidLength] at hallow
    exact ⟨hapidOnly _ (List.mem_map_of_mem hother) hallow.1,
      hctidOnly _ (List.mem_map_of_mem hother) hallow.2⟩

end Probes

section Refused

theorem padId_take (text : List UInt8) : padId (text.take mctIdSize) = padId text := by
  have htext : idBytesText (text.take mctIdSize) = idBytesText text := by
    rw [idBytesText, List.take_take, min_self, idBytesText]
  rw [padId, htext, padId]

variable {f : MctFilter} {args : FilterArgs}

theorem length_entryAt (f : MctFilter) (num : Nat) :
    (f.entryAt num).apid.length = 4 ∧ (f.entryAt num).ctid.length = 4 :=
  ⟨FilterId.length_eq _, FilterId.length_eq _⟩

/-- The entry that is found has the ids of the filter that is refused. -/
theorem ids_of_finds {num : Nat} (h : f.finds args num) :
    (f.entryAt num).apid = args.entry.apid ∧ (f.entryAt num).ctid = args.entry.ctid := by
  simp only [MctFilter.finds, decide_eq_true_eq] at h
  obtain ⟨hapid, hctid, _⟩ := h
  have hpad : ∀ {id : FilterId} {text : List UInt8}, id.bytes = text.take mctIdSize →
      id.bytes = padId text := by
    intro id text hid
    rw [← padId_take, ← hid, id.padded]
  refine ⟨hpad hapid, ?_⟩
  cases hargs : args.ctid with
  | none =>
      rw [hargs] at hctid
      rw [hctid, FilterArgs.entry, hargs]
      rfl
  | some ctid =>
      rw [hargs] at hctid
      rw [FilterArgs.entry, hargs]
      exact hpad hctid

/-- With an upper bound of its own, the refused filter allows no size that the
entry that is found excludes. -/
theorem allows_of_finds {num : Nat} (h : f.finds args num) (hmax : args.payloadMax ≠ 0)
    {level size : Int} (hsize : 0 ≤ size) (hallow : args.entry.Allows level size) :
    (f.entryAt num).Allows level size := by
  simp only [MctFilter.finds, decide_eq_true_eq] at h
  obtain ⟨_, _, hlevel, hmin, hle⟩ := h
  obtain ⟨hlevel', hmin', hmax'⟩ := hallow
  simp only [FilterArgs.entry] at hlevel' hmin' hmax'
  refine ⟨?_, ?_, ?_⟩
  · rcases hlevel with hsame | hall
    · rwa [hsame]
    · exact .inl hall
  · right
    omega
  · right
    omega

/-- A filter refused as already present is covered by the list for every
message, unless it has no upper bound for the payload while the list bounds it:
`mct_filter_find` compares 0 as a size, `mct_message_filter_check` does not. -/
theorem refused_filter_covered_iff (f : MctFilter) (args : FilterArgs)
    (hrefused : 0 ≤ mctFilterFind f args) :
    (∀ (headerbuffer : List UInt8) (size : Int), 0 ≤ size → size ≤ int32Max →
      messageFilterCheck headerbuffer size f.entries =
        messageFilterCheck headerbuffer size (f.entries ++ [args.entry])) ↔
    (args.payloadMax ≠ 0 ∨
      ∀ level : Nat, level < 16 → ∀ size : Int, 0 ≤ size → size ≤ int32Max →
        args.entry.Allows level size →
        ∃ entry ∈ f.entries, entry.IdsAllow args.entry.apid args.entry.ctid ∧
          entry.Allows level size) := by
  obtain ⟨num, hnum, hfinds⟩ := mctFilterFind_nonneg_iff.mp hrefused
  have hfound : f.entryAt num ∈ f.entries :=
    List.mem_map_of_mem (List.mem_range.mpr hnum)
  have hids := ids_of_finds hfinds
  have hne : f.entries ≠ [] := List.ne_nil_of_mem hfound
  constructor
  · intro hsame
    refine or_iff_not_imp_left.mpr fun _ level hlevel size hsize hsize' hallow => ?_
    have hlength := f.entries_length
    have hcounter := f.counter_le
    have hshort : f.entries.length < 255 := by
      unfold mctFilterMax at hcounter
      omega
    obtain ⟨headerbuffer, hueh, hmtin, hallowed, honly⟩ :=
      @exists_probe f.entries hshort args.entry (FilterId.length_eq _) (FilterId.length_eq _)
        level hlevel
    have hpass : messageFilterCheck headerbuffer size (f.entries ++ [args.entry]) :=
      (messageFilterCheck_iff _ _ _).mpr (.inr (.inr
        ⟨args.entry, by simp, hallowed, by rwa [hmtin]⟩))
    rw [← hsame headerbuffer size hsize hsize', messageFilterCheck_iff] at hpass
    rcases hpass with hnil | hno | ⟨entry, hentry, hentryIds, hentryAllows⟩
    · exact absurd hnil hne
    · exact absurd hueh hno
    · rw [hmtin] at hentryAllows
      exact ⟨entry, hentry, honly entry hentry hentryIds, hentryAllows⟩
  · intro hcond headerbuffer size hsize hsize'
    rw [Bool.eq_iff_iff, messageFilterCheck_iff, messageFilterCheck_iff]
    constructor
    · rintro (hnil | hno | ⟨entry, hentry, hallow⟩)
      · exact absurd hnil hne
      · exact .inr (.inl hno)
      · exact .inr (.inr ⟨entry, List.mem_append_left _ hentry, hallow⟩)
    · rintro (hnil | hno | ⟨entry, hentry, hentryIds, hentryAllows⟩)
      · simp at hnil
      · exact .inr (.inl hno)
      · rcases List.mem_append.mp hentry with hold | hnew
        · exact .inr (.inr ⟨entry, hold, hentryIds, hentryAllows⟩)
        rw [List.mem_singleton] at hnew
        subst hnew
        rcases hcond with hmax | hcover
        · refine .inr (.inr ⟨f.entryAt num, hfound, ?_,
            allows_of_finds hfinds hmax hsize hentryAllows⟩)
          rwa [MctFilterEntry.IdsAllow, hids.1, hids.2]
        · obtain ⟨entry, hmem, hcoverIds, hcoverAllows⟩ :=
            hcover _ (headerMtin_lt headerbuffer) size hsize hsize' hentryAllows
          exact .inr (.inr ⟨entry, hmem, hcoverIds.trans hentryIds, hcoverAllows⟩)

/-- A list with one filter for short messages of `APP1` and `CON1`. -/
def shortMessages : MctFilter :=
  (mctFilterAdd
    { apid := Vector.replicate mctFilterMax (mctSetId [])
      ctid := Vector.replicate mctFilterMax (mctSetId [])
      logLevel := Vector.replicate mctFilterMax 0
      payloadMax := Vector.replicate mctFilterMax 0
      payloadMin := Vector.replicate mctFilterMax 0
      counter := 0
      counter_le := Nat.zero_le _ }
    ⟨[65, 80, 80, 49], some [67, 79, 78, 49], 0, 0, 100⟩).2

theorem refused_filter_covered_sample :
    messageFilterCheck (headerWith 4 [65, 80, 80, 49] [67, 79, 78, 49]) 60 shortMessages.entries =
      messageFilterCheck (headerWith 4 [65, 80, 80, 49] [67, 79, 78, 49]) 60
        (shortMessages.entries ++
          [FilterArgs.entry ⟨[65, 80, 80, 49], some [67, 79, 78, 49], 4, 10, 50⟩]) :=
  (refused_filter_covered_iff shortMessages
    ⟨[65, 80, 80, 49], some [67, 79, 78, 49], 4, 10, 50⟩ (by decide +kernel)).mpr
    (.inl (by decide)) _ 60 (by decide) (by decide)

/-- A filter for messages of every size is refused beside one for short
messages, and long messages do not pass. -/
theorem refused_filter_not_covered :
    (mctFilterAdd shortMessages ⟨[65, 80, 80, 49], some [67, 79, 78, 49], 0, 0, 0⟩).1 = .error ∧
      0 ≤ mctFilterFind shortMessages ⟨[65, 80, 80, 49], some [67, 79, 78, 49], 0, 0, 0⟩ ∧
      messageFilterCheck (headerWith 4 [65, 80, 80, 49] [67, 79, 78, 49]) 200
        shortMessages.entries = false ∧
      messageFilterCheck (headerWith 4 [65, 80, 80, 49] [67, 79, 78, 49]) 200
        (shortMessages.entries ++
          [FilterArgs.entry ⟨[65, 80, 80, 49], some [67, 79, 78, 49], 0, 0, 0⟩]) = true := by
  decide +kernel

end Refused

end MctDaemon.Shared
