import MctDaemon.User.DaemonMessages
import MctDaemon.User.LoggedShown

/-!
A file that the library has logged to, in the hands of a reader. The scan finds the messages as
they were logged, each at the end of the one before, and none beside them; those that pass the
filter can be loaded in any order.
-/

namespace MctDaemon.User

open Lib Shared

section Meaning

def loggedMessages (calls : List FileCall) : List (FileCall × LogMessage) :=
  calls.filterMap fun call => call.message.map fun message => (call, message)

def fileEntry (logged : FileCall × LogMessage) : List UInt8 := logged.1.entry logged.2

/-- What a reader has of it. -/
def fileMessage (logged : FileCall × LogMessage) : Shared.LogMessage :=
  logged.2.loaded logged.1.storageHeader

/-- A message passes a filter without entries, and one that has an entry for it; a message without
an extended header passes every filter. -/
def passes (filter : Option (List MctFilterEntry)) (message : LogMessage) : Bool :=
  filter.all fun filter => filter.isEmpty || message.extended.all fun header =>
    filter.any fun entry =>
      (entry.apid.head? = some 0 ∨ entry.apid = header.apid.bytes) ∧
        (entry.ctid.head? = some 0 ∨ entry.ctid = header.ctid.bytes) ∧
        (entry.logLevel = 0 ∨ entry.logLevel = header.msin.toNat / 16) ∧
        (entry.payloadMin = 0 ∨ entry.payloadMin ≤ message.payload.length) ∧
        (entry.payloadMax = 0 ∨ message.payload.length ≤ entry.payloadMax)

/-- The calls of `mct_file_read` among the calls of a reader. -/
def readCount (ops : List FileOp) : Nat := ops.count .read

end Meaning

section Entries

variable {content front back : List UInt8} {logged : FileCall × LogMessage}

def Built (logged : FileCall × LogMessage) : Prop := logged.1.message = some logged.2

theorem built_of_mem {calls : List FileCall} (h : logged ∈ loggedMessages calls) :
    Built logged := by
  obtain ⟨call, -, hlogged⟩ := List.mem_filterMap.mp h
  obtain ⟨message, hmessage, rfl⟩ := Option.map_eq_some_iff.mp hlogged
  exact hmessage

theorem fileEntry_eq (logged : FileCall × LogMessage) :
    fileEntry logged = (fileMessage logged).header ++ (fileMessage logged).payload := rfl

/-- The headers of a message have the size that its `htyp` announces. -/
theorem header_length (logged : FileCall × LogMessage) :
    (fileMessage logged).header.length =
      sizeofStorageHeader + sizeofStandardHeader + extraSize logged.2.htyp := by
  have hstorage := storageHeader_length logged.1
  obtain ⟨hueh, -⟩ := logged.2.htyp_bits
  have hextended : (logged.2.extended.elim [] ExtendedHeader.bytes).length =
      if isHtyp 0 logged.2.htyp then sizeofExtendedHeader else 0 := by
    rw [hueh]
    cases logged.2.extended with
    | none => rfl
    | some header =>
        rw [Option.elim_some, ExtendedHeader.bytes, List.length_append, List.length_append,
          header.apid.length_eq, header.ctid.length_eq]
        rfl
  rw [fileMessage, LogMessage.loaded, LogMessage.headers, extraSize, ← logged.2.extraBytes_size,
    ← hextended]
  simp only [List.length_append, hstorage, List.length_cons, List.length_nil, beBytes_length,
    sizeofStorageHeader, sizeofStandardHeader]
  omega

theorem fileEntry_length (logged : FileCall × LogMessage) :
    (fileEntry logged).length = 16 + logged.2.len := by
  rw [fileEntry, FileCall.entry, List.append_assoc, List.length_append,
    storageHeader_length, logged.2.headers_length_add]

theorem nextHeader_entry (hcontent : content = front ++ (fileEntry logged ++ back)) :
    nextHeader content front.length = some front.length := by
  have hlength := fileEntry_length logged
  have hlen : 4 ≤ logged.2.len := by
    rw [LogMessage.len, sizeofMctStandardHeader]
    omega
  have hpattern : (fileEntry logged ++ back).take storagePattern.length = storagePattern := by
    rw [fileEntry, FileCall.entry, FileCall.storageHeader]
    simp only [List.append_assoc]
    exact List.take_left
  have hnonempty : (fileEntry logged ++ back).length ≠ 0 := by
    rw [List.length_append]
    omega
  rw [nextHeader, hcontent, List.drop_left]
  obtain ⟨byte, rest, hrest⟩ := List.exists_cons_of_ne_nil
    (fun h => hnonempty (List.length_eq_zero_iff.mpr h))
  rw [hrest] at hpattern ⊢
  rw [headerOffset, ← hrest, if_neg, hrest, if_pos hpattern]
  · rfl
  · rw [List.length_append, sizeofStorageHeader, sizeofStandardHeader]
    omega

theorem standardAt_entry (hcontent : content = front ++ (fileEntry logged ++ back)) :
    standardAt content front.length =
      [logged.2.htyp, logged.2.mcnt] ++ beBytes 2 logged.2.len := by
  have hstorage := storageHeader_length logged.1
  have hsplit : content = (front ++ logged.1.storageHeader) ++
      (([logged.2.htyp, logged.2.mcnt] ++ beBytes 2 logged.2.len) ++ (logged.2.extraBytes ++
        (logged.2.extended.elim [] ExtendedHeader.bytes ++ (logged.2.payload ++ back)))) := by
    rw [hcontent, fileEntry, FileCall.entry, LogMessage.headers]
    simp only [List.append_assoc]
  have hoff : front.length + sizeofStorageHeader = (front ++ logged.1.storageHeader).length := by
    rw [List.length_append, hstorage]
    rfl
  rw [standardAt, hoff, hsplit]
  exact slice_append rfl rfl

/-- The length in a standard header. -/
theorem messageLength_header {n : Nat} (hn : n ≤ 65535) (htyp mcnt : UInt8) :
    messageLength ([htyp, mcnt] ++ beBytes 2 n) = n := by
  have hhigh : (n / 256 % 256).toUInt8.toNat = n / 256 := by
    rw [UInt8.toNat_ofNat']
    omega
  have hlow : (n % 256).toUInt8.toNat = n % 256 := by
    rw [UInt8.toNat_ofNat']
    omega
  change 256 * (n / 256 % 256).toUInt8.toNat + (n % 256).toUInt8.toNat = n
  rw [hhigh, hlow]
  exact Nat.div_add_mod n 256

/-- The message at the start of an entry is the one that was logged. -/
theorem messageAt_entry (hbuilt : Built logged)
    (hcontent : content = front ++ (fileEntry logged ++ back)) :
    headersizeAt content front.length = (fileMessage logged).header.length ∧
      datasizeAt content front.length = (fileMessage logged).payload.length ∧
        messageAt content front.length = fileMessage logged ∧ EndsWithin content front.length := by
  have hlen := message_len_le hbuilt
  have hstandard := standardAt_entry hcontent
  have hheader := header_length logged
  have hwhole : (fileMessage logged).header.length + (fileMessage logged).payload.length =
      16 + logged.2.len := by
    rw [← List.length_append]
    exact fileEntry_length logged
  have hheadersize : headersizeAt content front.length = (fileMessage logged).header.length := by
    rw [headersizeAt, hstandard, hheader]
    rfl
  have hdatasize : datasizeAt content front.length = (fileMessage logged).payload.length := by
    rw [datasizeAt, hheadersize, hstandard, messageLength_header hlen, sizeofStorageHeader]
    omega
  have hparts : content = front ++ ((fileMessage logged).header ++
      ((fileMessage logged).payload ++ back)) := by
    rw [hcontent, ← List.append_assoc (fileMessage logged).header]
    rfl
  refine ⟨hheadersize, hdatasize, ?_, ?_⟩
  · have hpayload : slice content (front.length + (fileMessage logged).header.length)
        (fileMessage logged).payload.length = (fileMessage logged).payload := by
      rw [hparts, ← List.append_assoc]
      exact slice_append List.length_append.symm rfl
    rw [messageAt, hheadersize, hdatasize, Int.toNat_natCast, hpayload, hparts,
      slice_append rfl rfl]
  · rw [EndsWithin, hheadersize, hdatasize, Int.toNat_natCast, hparts, List.length_append,
      List.length_append, List.length_append]
    omega

/-- The check of the header bytes is the check of the message. -/
theorem filterCheck_entry (filter : List MctFilterEntry) :
    messageFilterCheck (fileMessage logged).header (fileMessage logged).payload.length filter =
      passes (some filter) logged.2 := by
  have hstorage := storageHeader_length logged.1
  have hhtyp := @LogMessage.loaded_htyp logged.2 _ hstorage
  have hextended := @LogMessage.loaded_extended logged.2 _ hstorage
  obtain ⟨hueh, -⟩ := logged.2.htyp_bits
  rw [messageFilterCheck, fileMessage, hhtyp, hextended, hueh, passes, Option.all_some]
  cases filter with
  | nil => rfl
  | cons entry filter =>
      cases hheader : logged.2.extended with
      | none => rfl
      | some header =>
          have hapid : slice header.bytes 2 4 = header.apid.bytes := by
            rw [ExtendedHeader.bytes, List.append_assoc]
            exact slice_append rfl header.apid.length_eq.symm
          have hctid : slice header.bytes 6 4 = header.ctid.bytes := by
            have hfront : 6 = ([header.msin, header.noar] ++ header.apid.bytes).length := by
              rw [List.length_append, header.apid.length_eq]
              rfl
            have hlast := @slice_append _ header.ctid.bytes [] _ _ hfront header.ctid.length_eq.symm
            rw [List.append_nil] at hlast
            exact hlast
          rw [Option.elim_some, hapid, hctid, Option.all_some]
          rfl

theorem readOutcome_entry (hbuilt : Built logged) (filter : Option (List MctFilterEntry))
    (hcontent : content = front ++ (fileEntry logged ++ back)) :
    readOutcome content filter front.length = some (front.length, passes filter logged.2) := by
  obtain ⟨hheader, hdata, hmessage, hends⟩ := messageAt_entry hbuilt hcontent
  have hslice : slice content front.length (headersizeAt content front.length) =
      (fileMessage logged).header := congrArg Shared.LogMessage.header hmessage
  rw [readOutcome, nextHeader_entry hcontent]
  dsimp only
  rw [if_neg (by rw [hdata]; exact Int.not_lt.mpr (Int.natCast_nonneg _))]
  cases filter with
  | none => rfl
  | some filter =>
      dsimp only
      rw [EndsWithin] at hends
      rw [if_neg (by omega), hslice, hdata, filterCheck_entry]

end Entries

section Files

/-- The entries that the code appends are the first ones. -/
theorem appended_prefix (filesizeMax : UInt32) (size : Nat) (all : List (List UInt8)) :
    appended filesizeMax size all <+: all := by
  induction all generalizing size with
  | nil => exact List.prefix_rfl
  | cons entry rest ih =>
      rw [appended]
      split
      · exact List.nil_prefix
      · exact (List.cons_prefix_cons).mpr ⟨rfl, ih _⟩

theorem entries_eq (calls : List FileCall) :
    entries calls = (loggedMessages calls).map fileEntry := by
  rw [entries, loggedMessages, List.map_filterMap]
  congr 1
  funext call
  rw [Option.map_map]
  rfl

theorem withinLimit_prefix (limit : Option Nat) (size : Nat) (all : List (List UInt8)) :
    withinLimit limit size all <+: all := by
  induction all generalizing size with
  | nil => exact List.prefix_rfl
  | cons entry rest ih =>
      rw [withinLimit]
      split
      · exact List.nil_prefix
      · exact (List.cons_prefix_cons).mpr ⟨rfl, ih _⟩

/-- A part of the entries that has as many bytes has as many entries. -/
theorem eq_of_flatten_eq {front all : List (List UInt8)} (hfront : front <+: all)
    (hpos : ∀ entry ∈ all, 0 < entry.length) (hflatten : front.flatten = all.flatten) :
    front = all := by
  obtain ⟨rest, rfl⟩ := hfront
  rw [List.flatten_append, List.self_eq_append_right] at hflatten
  have hrest : rest = [] := by
    by_contra hne
    exact flatten_ne_nil hne (fun entry hentry => hpos entry (List.mem_append_right _ hentry))
      hflatten
  rw [hrest, List.append_nil]

/-- Where the limit applies, what the code appends is what the limit allows. -/
theorem appended_eq_within {filesize : Option UInt32} {calls : List FileCall}
    (h : LimitApplies filesize calls) :
    appended (startLogging filesize).filesizeMax 0 (entries calls) =
      withinLimit (fileLimit filesize) 0 (entries calls) := by
  have hflatten := flatten_appended filesize calls h
  have hcode := appended_prefix (startLogging filesize).filesizeMax 0 (entries calls)
  have hlimit := withinLimit_prefix (fileLimit filesize) 0 (entries calls)
  have hpos : ∀ entry ∈ entries calls, 0 < entry.length :=
    fun entry hentry => (entry_length hentry).1
  rcases List.prefix_or_prefix_of_prefix hcode hlimit with hshort | hshort
  · exact eq_of_flatten_eq hshort (fun entry hentry => hpos entry (hlimit.subset hentry)) hflatten
  · exact (eq_of_flatten_eq hshort (fun entry hentry => hpos entry (hcode.subset hentry))
      hflatten.symm).symm

/-- The messages that are in the file: the first ones, as many as the code appends. -/
def messagesInFile (filesize : Option UInt32) (calls : List FileCall) :
    List (FileCall × LogMessage) :=
  (loggedMessages calls).take
    (appended (startLogging filesize).filesizeMax 0 (entries calls)).length

theorem map_messagesInFile (filesize : Option UInt32) (calls : List FileCall) :
    (messagesInFile filesize calls).map fileEntry =
      appended (startLogging filesize).filesizeMax 0 (entries calls) := by
  have hfront := appended_prefix (startLogging filesize).filesizeMax 0 (entries calls)
  rw [messagesInFile, List.map_take, ← entries_eq]
  exact (List.prefix_iff_eq_take.mp hfront).symm

/-- The file holds them, one behind the other. -/
theorem file_holds (filesize : Option UInt32) (calls : List FileCall) :
    (logAll (startLogging filesize) calls).file =
      (messagesInFile filesize calls).flatMap fileEntry := by
  rw [file_logAll, ← map_messagesInFile, List.flatMap_def]

end Files

section Runs

variable {malloc : Malloc} {filter : Option (List MctFilterEntry)}
  {logged : List (FileCall × LogMessage)} {state : MctFile × List Shared.LogMessage} {k : Nat}

/-- What a reader has after `k` calls of `mct_file_read`. -/
structure ReadTo (filter : Option (List MctFilterEntry)) (logged : List (FileCall × LogMessage))
    (k : Nat) (state : MctFile × List Shared.LogMessage) : Prop where
  scanned : Scanned (logged.flatMap fileEntry) state
  position : state.1.filePosition = ((logged.take k).flatMap fileEntry).length
  accepted : state.2 = ((logged.take k).filter fun entry => passes filter entry.2).map fileMessage
  whole : AllWhole (logged.flatMap fileEntry) state.1.index

theorem readTo_open (filter : Option (List MctFilterEntry))
    (logged : List (FileCall × LogMessage)) : ReadTo filter logged 0 (mctFileOpen, []) where
  scanned := scanned_open _
  position := by
    rw [List.take_zero]
    rfl
  accepted := by
    rw [List.take_zero]
    rfl
  whole := fun pos hpos => absurd hpos List.not_mem_nil

/-- Loading a message does not move the scan. -/
theorem ReadTo.message (halloc : ∀ n, malloc.block n ≠ none) (h : ReadTo filter logged k state)
    (index : Nat) : ReadTo filter logged k
      (fileStep malloc (logged.flatMap fileEntry) filter state (.message index)).2 := by
  have hkeep := message_keeps halloc h.scanned index
  obtain ⟨hscanned, -, hwhole⟩ := scanned_step filter halloc h.scanned (.message index)
  exact ⟨hscanned, hkeep.filePosition.trans h.position, h.accepted, hwhole.mpr ⟨h.whole, trivial⟩⟩

/-- The next call of `mct_file_read` finds the next message, or it is at the end of the file. -/
theorem ReadTo.read (halloc : ∀ n, malloc.block n ≠ none)
    (hbuilt : ∀ entry ∈ logged, Built entry) (h : ReadTo filter logged k state) :
    ReadTo filter logged (k + 1)
      (fileStep malloc (logged.flatMap fileEntry) filter state .read).2 := by
  obtain ⟨hscanned, -, hwhole⟩ := scanned_step filter halloc h.scanned .read
  rcases Nat.lt_or_ge k logged.length with hk | hk
  · have htake : logged.take (k + 1) = logged.take k ++ [logged[k]] :=
      List.take_succ_eq_append_getElem hk
    have hsplit : logged.flatMap fileEntry = (logged.take k).flatMap fileEntry ++
        (fileEntry logged[k] ++ (logged.drop (k + 1)).flatMap fileEntry) := by
      rw [← List.flatMap_cons, ← List.drop_eq_getElem_cons hk, ← List.flatMap_append,
        List.take_append_drop]
    have hmem := hbuilt logged[k] (List.getElem_mem hk)
    have houtcome := readOutcome_entry hmem filter hsplit
    obtain ⟨hheader, hdata, hmessage, hends⟩ := messageAt_entry hmem hsplit
    rw [← h.position] at houtcome hheader hdata hmessage hends
    obtain ⟨hret, -, hposition, -⟩ := MctFile.read_of_some h.scanned.buffer houtcome
    have hlast := lastRead_of_read h.scanned.buffer houtcome
    refine ⟨hscanned, ?_, ?_, hwhole.mpr ⟨h.whole, ?_⟩⟩
    · change (state.1.read (logged.flatMap fileEntry) filter).2.filePosition = _
      rw [hposition, hheader, hdata, Int.toNat_natCast, h.position, htake, List.flatMap_append,
        List.length_append, List.flatMap_cons, List.flatMap_nil, List.append_nil, fileEntry_eq,
        List.length_append]
      omega
    · rw [htake, List.filter_append, List.map_append, ← h.accepted]
      simp only [fileStep, hret, hlast, hmessage]
      cases hpasses : passes filter logged[k].2 with
      | false => simp [hpasses]
      | true => simp [hpasses]
    · simp only [AcceptsWhole, houtcome]
      cases passes filter logged[k].2 with
      | false => trivial
      | true => exact hends
  · -- behind the last message there is no storage header
    have hall : logged.take (k + 1) = logged.take k := by
      rw [List.take_of_length_le hk, List.take_of_length_le (Nat.le_succ_of_le hk)]
    have hend : (logged.flatMap fileEntry).drop state.1.filePosition = [] := by
      rw [h.position, List.take_of_length_le hk, List.drop_length]
    have hnone : readOutcome (logged.flatMap fileEntry) filter state.1.filePosition = none := by
      rw [readOutcome, nextHeader, hend]
      rfl
    obtain ⟨hret, hkeep⟩ := MctFile.read_of_none h.scanned.buffer hnone
    refine ⟨hscanned, ?_, ?_, hwhole.mpr ⟨h.whole, ?_⟩⟩
    · rw [hall]
      exact hkeep.filePosition.trans h.position
    · rw [hall, ← h.accepted]
      simp only [fileStep, hret]
      exact if_neg (by decide)
    · simp only [AcceptsWhole, hnone]

theorem readTo_run (halloc : ∀ n, malloc.block n ≠ none) (hbuilt : ∀ entry ∈ logged, Built entry)
    (h : ReadTo filter logged k state) (ops : List FileOp) :
    ReadTo filter logged (k + readCount ops)
      (runOps (fileStep malloc (logged.flatMap fileEntry) filter) state ops).2 := by
  induction ops generalizing k state with
  | nil => exact h
  | cons op ops ih =>
      cases op with
      | read =>
          have hrest := ih (h.read halloc hbuilt)
          rw [Nat.add_right_comm, Nat.add_assoc] at hrest
          rw [readCount, List.count_cons_self]
          exact hrest
      | message index =>
          have hrest := ih (h.message halloc index)
          rw [readCount, List.count_cons_of_ne fun h => by cases h]
          exact hrest

/-- Whatever is logged to a file, and however it is limited: the file holds the first of the
messages, those that the limit allows wherever it applies. A reader finds them in their order and
can load those that pass its filter at any time, each with the headers and the payload that were
logged. -/
theorem logged_file_is_read (halloc : ∀ n, malloc.block n ≠ none) (filesize : Option UInt32)
    (calls : List FileCall) (filter : Option (List MctFilterEntry)) (ops : List FileOp) :
    let logged := messagesInFile filesize calls
    let file := (logAll (startLogging filesize) calls).file
    let final := (runOps (fileStep malloc file filter) (mctFileOpen, []) ops).2
    logged <+: loggedMessages calls ∧
      (LimitApplies filesize calls →
        logged.map fileEntry = withinLimit (fileLimit filesize) 0 (entries calls)) ∧
      file = logged.flatMap fileEntry ∧
      final.2 = ((logged.take (readCount ops)).filter fun entry =>
        passes filter entry.2).map fileMessage ∧
      RandomAccess malloc file final := by
  intro logged file final
  have hfront : logged <+: loggedMessages calls := List.take_prefix _ _
  have hfile : file = logged.flatMap fileEntry := file_holds filesize calls
  have hbuilt : ∀ entry ∈ logged, Built entry :=
    fun entry hentry => built_of_mem (hfront.subset hentry)
  have hrun := readTo_run halloc hbuilt (readTo_open filter logged) ops
  rw [Nat.zero_add, ← hfile] at hrun
  have hwhole := hrun.whole
  have hscanned := hrun.scanned
  rw [← hfile] at hwhole hscanned
  refine ⟨hfront, ?_, hfile, hrun.accepted, (randomAccess_iff halloc hscanned).mpr hwhole⟩
  intro hlimit
  exact (map_messagesInFile filesize calls).trans (appended_eq_within hlimit)

/-- Of two messages the limit lets one into the file, which is loaded while the file is read. -/
theorem logged_file_is_read_sample :
    let calls := [oneCall, oneCall]
    let file := (logAll (startLogging (some 60)) calls).file
    let ops := [FileOp.read, .message 0, .read, .message 0]
    let final := (runOps (fileStep Malloc.zeroed file none) (mctFileOpen, []) ops).2
    file = ((loggedMessages calls).take 1).flatMap fileEntry ∧
      final.2 = ((loggedMessages calls).take 1).map fileMessage ∧
      RandomAccess Malloc.zeroed file final ∧ final.1.index.length = 1 := by
  intro calls file ops final
  obtain ⟨-, -, hfile, haccepted, hloaded⟩ := @logged_file_is_read Malloc.zeroed
    (fun _ => Option.some_ne_none _) (some 60) calls none ops
  have hone : messagesInFile (some 60) calls = (loggedMessages calls).take 1 := by
    rw [messagesInFile]
    exact congrArg (loggedMessages calls).take (by decide +kernel)
  have hpass : ((((loggedMessages calls).take 1).take 2).filter fun entry => passes none entry.2) =
      (loggedMessages calls).take 1 := by
    rw [List.take_take]
    exact List.filter_eq_self.mpr fun _ _ => rfl
  rw [hone] at hfile haccepted
  exact ⟨hfile, haccepted.trans (congrArg (List.map fileMessage) hpass), hloaded,
    by decide +kernel⟩

end Runs

end MctDaemon.User
