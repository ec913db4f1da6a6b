import MctDaemon.Shared.LogFileAccess

/-!
`mct_file_quick_parsing` beside reading the file with `mct_file_read` and
printing the messages of the index. The quick loop leaves the position of the
file where it is when a filter does not accept a message, and so it does not
notice the end of the file behind one.
-/

namespace MctDaemon.Shared

open Lib

/-- `mct_message_header` and `mct_message_payload`: the text of the header
bytes, and the returned value and text for a message. Both depend on the
message alone, and not on what the text buffer held before. -/
structure MessageText where
  header : List UInt8 → List Char
  payload : LogMessage → MctReturnValue × List Char

def MessageText.line (text : MessageText) (message : LogMessage) : List Char :=
  text.header message.header ++ ('[' :: (text.payload message).2) ++ [']', '\n']

/-- What `mct_file_quick_parsing` works on. It counts the messages, but does
not put them into the index. -/
structure QuickParse where
  file : MctFile
  counter : Nat
  output : List Char
  deriving DecidableEq, Repr

/-- The end of a round for a message that was printed. -/
def QuickParse.next (parse : QuickParse) (line : List Char) : QuickParse where
  file := { parse.file with
    position := parse.file.counterTotal - 1
    counterTotal := parse.file.counterTotal + 1
    filePosition := parse.file.handle }
  counter := parse.counter + 1
  output := parse.output ++ line

/-- The check of `file->filter`, which need not be set. -/
def passesFilter (filter : Option (List MctFilterEntry)) (headerbuffer : List UInt8)
    (datasize : Int) : Bool :=
  match filter with
  | none => true
  | some filter => messageFilterCheck headerbuffer datasize filter

section Loops

variable (malloc : Malloc) (text : MessageText) (content : List UInt8)
  (filter : Option (List MctFilterEntry))

/-- The loop of `mct_file_quick_parsing`. -/
def quickLoop : Nat → MctReturnValue → QuickParse → Option (MctReturnValue × QuickParse)
  | 0, _, _ => none
  | fuel + 1, ret, parse =>
      if ret.code < MctReturnValue.ok.code ∨ content.length ≤ parse.file.filePosition then
        some (ret, parse)
      else
        let (ret, file) := parse.file.readHeader content
        if ret.code < MctReturnValue.ok.code then some (ret, { parse with file := file })
        else
          let (ret, file) := file.readHeaderExtended content
          if ret.code < MctReturnValue.ok.code then some (ret, { parse with file := file })
          else
            let (ret, file) := file.readData malloc content
            if ret.code < MctReturnValue.ok.code then some (ret, { parse with file := file })
            else
              if !passesFilter filter file.msg.headerbuffer file.msg.datasize then
                quickLoop fuel .ok { parse with file := file }
              else
                let header := text.header file.loaded.header
                let (ret, payload) := text.payload file.loaded
                if ret.code < MctReturnValue.ok.code then
                  some (ret, { parse with file := file, output := parse.output ++ header })
                else
                  quickLoop fuel ret (QuickParse.next { parse with file := file }
                    (header ++ ('[' :: payload) ++ [']', '\n']))

/-- `mct_file_quick_parsing` on a file that was just opened. -/
def quickParsing : Option (MctReturnValue × QuickParse) :=
  quickLoop malloc text content filter (content.length + 1) .ok ⟨mctFileOpen, 0, []⟩

/-- `mct_file_read` until it fails. -/
def readAll : Nat → MctFile → Option MctFile
  | 0, _ => none
  | fuel + 1, file =>
      let (ret, file) := file.read content filter
      if ret.code < MctReturnValue.ok.code then some file else readAll fuel file

/-- `mct_file_message` for each of these indices, with its line. -/
def printMessages : List Nat → MctFile → Option (List (List Char))
  | [], _ => some []
  | index :: rest, file =>
      let (ret, file) := file.message malloc content index
      if ret.code < MctReturnValue.ok.code then none
      else if (text.payload file.loaded).1.code < MctReturnValue.ok.code then none
      else (printMessages rest file).map (text.line file.loaded :: ·)

/-- The lines of the messages of the index, once the file was read. -/
def indexedLines : Option (List (List Char)) :=
  (readAll content filter (content.length + 1) mctFileOpen).bind fun file =>
    printMessages malloc text content (List.range file.index.length) file

end Loops

structure FileMessage where
  header : List UInt8
  payload : List UInt8
  pattern : header.take storagePattern.length = storagePattern
  header_length : header.length = sizeofStorageHeader + sizeofStandardHeader +
    extraSize (header.getD sizeofStorageHeader 0)
  whole : messageLength (slice header sizeofStorageHeader sizeofStandardHeader) +
    sizeofStorageHeader = header.length + payload.length

namespace FileMessage

def bytes (message : FileMessage) : List UInt8 := message.header ++ message.payload

def log (message : FileMessage) : LogMessage := ⟨message.header, message.payload⟩

def accepted (filter : Option (List MctFilterEntry)) (message : FileMessage) : Bool :=
  passesFilter filter message.header message.payload.length

end FileMessage

def fileContent (messages : List FileMessage) : List UInt8 := messages.flatMap FileMessage.bytes

section Placed

variable {content before after : List UInt8} {message : FileMessage}

theorem FileMessage.twenty_le (message : FileMessage) : 20 ≤ message.header.length := by
  have := message.header_length
  simp only [sizeofStorageHeader, sizeofStandardHeader] at this
  omega

/-- A slice behind a prefix. -/
theorem slice_append_behind (before rest : List UInt8) (start size : Nat) :
    slice (before ++ rest) (before.length + start) size = slice rest start size := by
  simp only [slice, List.drop_append, List.drop_of_length_le (Nat.le_add_right _ _),
    List.nil_append, Nat.add_sub_cancel_left]

theorem slice_append_front {front rest : List UInt8} {start size : Nat}
    (h : start + size ≤ front.length) :
    slice (front ++ rest) start size = slice front start size := by
  simp only [slice]
  rw [List.drop_append_of_le_length (by omega),
    List.take_append_of_le_length (by rw [List.length_drop]; omega)]

/-- What the readers find at a message of a well-formed file. -/
theorem FileMessage.placed (message : FileMessage) (before after : List UInt8) :
    let content := before ++ (message.bytes ++ after)
    nextHeader content before.length = some before.length ∧
      headersizeAt content before.length = message.header.length ∧
      datasizeAt content before.length = message.payload.length ∧
      messageAt content before.length = message.log := by
  have htwenty := message.twenty_le
  have hstandard : standardAt (before ++ (message.bytes ++ after)) before.length =
      slice message.header sizeofStorageHeader sizeofStandardHeader := by
    rw [standardAt, slice_append_behind, bytes, List.append_assoc,
      slice_append_front (by simp only [sizeofStorageHeader, sizeofStandardHeader]; omega)]
  have hhtyp : (slice message.header sizeofStorageHeader sizeofStandardHeader).getD 0 0 =
      message.header.getD sizeofStorageHeader 0 := by
    simp [slice, List.getD, sizeofStandardHeader]
  have hsize : headersizeAt (before ++ (message.bytes ++ after)) before.length =
      message.header.length := by
    rw [headersizeAt, hstandard, hhtyp, message.header_length]
  have hdata : datasizeAt (before ++ (message.bytes ++ after)) before.length =
      message.payload.length := by
    have := message.whole
    rw [datasizeAt, hstandard, hsize]
    omega
  refine ⟨?_, hsize, hdata, ?_⟩
  · have hoffset : headerOffset (message.bytes ++ after) = some 0 := by
      have hlength : (message.bytes ++ after).length =
          message.header.length + (message.payload.length + after.length) := by
        simp [bytes]
      have htake : (message.bytes ++ after).take storagePattern.length = storagePattern := by
        rw [bytes, List.append_assoc, List.take_append_of_le_length
          (by simp only [storagePattern, List.length_cons, List.length_nil]; omega),
          message.pattern]
      cases hbytes : message.bytes ++ after with
      | nil =>
          rw [hbytes] at hlength
          simp only [List.length_nil] at hlength
          omega
      | cons byte rest =>
          rw [hbytes] at hlength htake
          rw [headerOffset, if_neg (by
            rw [hlength]
            simp only [sizeofStorageHeader, sizeofStandardHeader]
            omega), if_pos htake]
    simp [nextHeader, hoffset]
  · rw [messageAt, hsize, hdata, Int.toNat_natCast, slice_append_behind]
    have hheader := slice_append_behind before (message.bytes ++ after) 0 message.header.length
    rw [Nat.add_zero] at hheader
    rw [hheader, bytes, List.append_assoc]
    simp [slice, log]

end Placed

section Agreement

variable {malloc : Malloc} {text : MessageText} {content : List UInt8}
  {filter : Option (List MctFilterEntry)}

def acceptedLines (text : MessageText) (filter : Option (List MctFilterEntry))
    (messages : List FileMessage) : List (List Char) :=
  (messages.filter (FileMessage.accepted filter)).map fun message => text.line message.log

/-- The payloads of the messages can be printed. -/
def Decode (text : MessageText) (messages : List FileMessage) : Prop :=
  ∀ message ∈ messages, MctReturnValue.ok.code ≤ (text.payload message.log).1.code

theorem FileMessage.endsWithin (message : FileMessage) (before after : List UInt8) :
    EndsWithin (before ++ (message.bytes ++ after)) before.length := by
  obtain ⟨-, hsize, hdata, -⟩ := message.placed before after
  rw [EndsWithin, hsize, hdata, Int.toNat_natCast]
  simp only [bytes, List.length_append]
  omega

/-- The quick loop behind the last message: it returns an error, unless it takes the
position of the file for its end. -/
theorem quickLoop_end (before : List UInt8) (parse : QuickParse) (ret : MctReturnValue)
    (fuel : Nat) (hret : MctReturnValue.ok.code ≤ ret.code)
    (hhandle : parse.file.handle = before.length)
    (hposition : parse.file.filePosition ≤ before.length) :
    ∃ final result, quickLoop malloc text before filter (fuel + 1) ret parse =
        some (final, result) ∧
      result.output = parse.output ∧ result.counter = parse.counter ∧
      (MctReturnValue.ok.code ≤ final.code ↔ parse.file.filePosition = before.length) := by
  rw [quickLoop]
  split
  · rename_i hend
    refine ⟨ret, parse, rfl, rfl, rfl, ?_⟩
    simp only [hret, true_iff]
    omega
  · rename_i hmore
    have hnone : nextHeader before parse.file.handle = none := by
      rw [nextHeader, hhandle]
      simp [headerOffset]
    have herror := MctFile.readHeader_of_none parse.file hnone
    generalize parse.file.readHeader before = first at herror ⊢
    obtain ⟨final, file⟩ := first
    simp only at herror ⊢
    subst herror
    refine ⟨.error, { parse with file := file }, by rw [if_pos (by decide)], rfl, rfl, ?_⟩
    refine iff_of_false (by decide) ?_
    omega

theorem FileMessage.length_behind (message : FileMessage) (before : List UInt8) :
    (before ++ message.bytes).length =
      before.length + message.header.length + message.payload.length := by
  simp only [FileMessage.bytes, List.length_append]
  omega

/-- One round of the quick loop: the message is read, and printed if the filter accepts it.
Only then does the position of the file move. -/
theorem quickLoop_round (filter : Option (List MctFilterEntry))
    (halloc : ∀ n, malloc.block n ≠ none) (message : FileMessage) (before after : List UInt8)
    (parse : QuickParse) (ret : MctReturnValue) (fuel : Nat)
    (hret : MctReturnValue.ok.code ≤ ret.code)
    (hpayload : MctReturnValue.ok.code ≤ (text.payload message.log).1.code)
    (hbuffer : parse.file.msg.headerbuffer.length = sizeofHeaderbuffer)
    (hhandle : parse.file.handle = before.length)
    (hposition : parse.file.filePosition ≤ before.length) :
    ∃ file : MctFile, file.msg.headerbuffer.length = sizeofHeaderbuffer ∧
      file.handle = (before ++ message.bytes).length ∧
      file.filePosition = parse.file.filePosition ∧
      quickLoop malloc text (before ++ (message.bytes ++ after)) filter (fuel + 1) ret parse =
        if message.accepted filter then
          quickLoop malloc text (before ++ (message.bytes ++ after)) filter fuel
            (text.payload message.log).1
            (QuickParse.next { parse with file := file } (text.line message.log))
        else
          quickLoop malloc text (before ++ (message.bytes ++ after)) filter fuel .ok
            { parse with file := file } := by
  have htwenty := message.twenty_le
  have hlength := message.length_behind before
  obtain ⟨hfound, hsize, hdata, hmessage⟩ := message.placed before after
  have hends := message.endsWithin before after
  obtain ⟨file1, file2, file3, h1, h2, h3, hkeep, hloaded, hhandle3, hdata3, hcheck⟩ :=
    MctFile.load_whole halloc hbuffer (hhandle ▸ hfound) (by rw [hdata]; omega) hends
  have hbehind : file3.handle = (before ++ message.bytes).length := by
    rw [hhandle3, hsize, hdata, Int.toNat_natCast, hlength]
  have haccepted : passesFilter filter file3.msg.headerbuffer file3.msg.datasize =
      message.accepted filter := by
    have hheader := congrArg LogMessage.header hmessage
    simp only [messageAt] at hheader
    simp only [FileMessage.accepted, passesFilter, hcheck, hdata3, hdata, hheader,
      FileMessage.log]
  have hinside : ¬(ret.code < MctReturnValue.ok.code ∨
      (before ++ (message.bytes ++ after)).length ≤ parse.file.filePosition) := by
    rw [← List.append_assoc, List.length_append, hlength]
    omega
  refine ⟨file3, hkeep.buffer.trans hbuffer, hbehind, hkeep.filePosition, ?_⟩
  rw [quickLoop, if_neg hinside]
  simp only [h1, h2, h3, lt_irrefl, if_false]
  rw [haccepted, hloaded, hmessage]
  cases message.accepted filter with
  | false => rfl
  | true =>
      simp only [Bool.not_true, Bool.false_eq_true, if_false, if_neg (not_lt.mpr hpayload)]
      rfl

/-- The rounds of the quick loop over the messages that are left. -/
theorem quickLoop_spec (filter : Option (List MctFilterEntry))
    (halloc : ∀ n, malloc.block n ≠ none) {messages : List FileMessage}
    (hdecode : Decode text messages) (before : List UInt8) (parse : QuickParse)
    (ret : MctReturnValue) (fuel : Nat) (hret : MctReturnValue.ok.code ≤ ret.code)
    (hbuffer : parse.file.msg.headerbuffer.length = sizeofHeaderbuffer)
    (hhandle : parse.file.handle = before.length)
    (hposition : parse.file.filePosition ≤ before.length) (hfuel : messages.length < fuel) :
    ∃ final result, quickLoop malloc text (before ++ fileContent messages) filter fuel ret parse =
        some (final, result) ∧
      result.output = parse.output ++ (acceptedLines text filter messages).flatten ∧
      result.counter = parse.counter + (acceptedLines text filter messages).length ∧
      (MctReturnValue.ok.code ≤ final.code ↔
        match messages.getLast? with
        | none => parse.file.filePosition = before.length
        | some last => last.accepted filter = true) := by
  induction messages generalizing before parse ret fuel with
  | nil =>
      obtain ⟨fuel, rfl⟩ := Nat.exists_eq_succ_of_ne_zero (by omega : fuel ≠ 0)
      obtain ⟨final, result, hrun, hout, hcount, hend⟩ :=
        @quickLoop_end malloc text filter before parse ret fuel
          hret hhandle hposition
      refine ⟨final, result, ?_, by simp [acceptedLines, hout], hcount, hend⟩
      rw [show before ++ fileContent [] = before from List.append_nil before]
      exact hrun
  | cons message rest ih =>
      obtain ⟨fuel, rfl⟩ := Nat.exists_eq_succ_of_ne_zero (by omega : fuel ≠ 0)
      have hpayload := hdecode message List.mem_cons_self
      have hrest : Decode text rest := fun m hm => hdecode m (List.mem_cons_of_mem _ hm)
      have hlength := message.length_behind before
      have htwenty := message.twenty_le
      obtain ⟨file, hbuffer', hhandle', hkeep, hround⟩ :=
        quickLoop_round filter halloc message before (fileContent rest) parse ret fuel hret
          hpayload hbuffer hhandle hposition
      rw [show before ++ fileContent (message :: rest) =
        before ++ (message.bytes ++ fileContent rest) from rfl, hround, ← List.append_assoc]
      cases haccept : message.accepted filter with
      | false =>
          obtain ⟨final, result, hrun, hout, hcount, hend⟩ :=
            ih hrest (before ++ message.bytes) { parse with file := file } .ok fuel (le_refl _)
              hbuffer' hhandle' (by rw [hlength, hkeep]; omega) (by simpa using hfuel)
          refine ⟨final, result, hrun, ?_, ?_, hend.trans ?_⟩
          · rw [hout]
            simp [acceptedLines, haccept]
          · rw [hcount]
            simp [acceptedLines, haccept]
          · cases rest with
            | nil =>
                simp only [List.getLast?_nil, List.getLast?_singleton, haccept, hlength, hkeep]
                refine iff_of_false ?_ (by decide)
                omega
            | cons other rest => rw [List.getLast?_cons_cons, List.getLast?_cons]
      | true =>
          obtain ⟨final, result, hrun, hout, hcount, hend⟩ :=
            ih hrest (before ++ message.bytes)
              (QuickParse.next { parse with file := file } (text.line message.log))
              (text.payload message.log).1 fuel hpayload hbuffer' hhandle' hhandle'.le
              (by simpa using hfuel)
          refine ⟨final, result, hrun, ?_, ?_, hend.trans ?_⟩
          · rw [hout]
            simp [acceptedLines, haccept, QuickParse.next]
          · rw [hcount]
            simp only [acceptedLines, haccept, QuickParse.next, List.filter_cons_of_pos,
              List.map_cons, List.length_cons]
            omega
          · cases rest with
            | nil =>
                simp only [List.getLast?_nil, List.getLast?_singleton, haccept]
                exact iff_of_true hhandle' trivial
            | cons other rest => rw [List.getLast?_cons_cons, List.getLast?_cons]

/-- `mct_file_read` over the messages that are left puts the accepted ones into
the index. -/
theorem readAll_spec (filter : Option (List MctFilterEntry)) {content : List UInt8}
    {messages : List FileMessage} (before : List UInt8) {file : MctFile} {fuel : Nat}
    (hcontent : content = before ++ fileContent messages)
    (hbuffer : file.msg.headerbuffer.length = sizeofHeaderbuffer)
    (hposition : file.filePosition = before.length) (hfuel : messages.length < fuel) :
    ∃ positions final, readAll content filter fuel file = some final ∧
      final.index = file.index ++ positions ∧
      final.msg.headerbuffer.length = sizeofHeaderbuffer ∧
      List.Forall₂ (fun pos (message : FileMessage) =>
          nextHeader content pos = some pos ∧ 0 ≤ datasizeAt content pos ∧
            messageAt content pos = message.log ∧ EndsWithin content pos)
        positions (messages.filter (FileMessage.accepted filter)) := by
  induction messages generalizing before file fuel with
  | nil =>
      obtain ⟨fuel, rfl⟩ := Nat.exists_eq_succ_of_ne_zero (by omega : fuel ≠ 0)
      have hnone : readOutcome content filter file.filePosition = none := by
        rw [readOutcome, nextHeader, hposition, hcontent]
        simp [fileContent, headerOffset]
      obtain ⟨hret, hkeep⟩ := MctFile.read_of_none hbuffer hnone
      refine ⟨[], (file.read content filter).2, ?_, by rw [hkeep.index, List.append_nil],
        hkeep.buffer.trans hbuffer, .nil⟩
      simp only [readAll, hret]
      rw [if_pos (by decide)]
  | cons message rest ih =>
      obtain ⟨fuel, rfl⟩ := Nat.exists_eq_succ_of_ne_zero (by omega : fuel ≠ 0)
      have hplaced : content = before ++ (message.bytes ++ fileContent rest) := hcontent
      have hnext : content = (before ++ message.bytes) ++ fileContent rest := by
        rw [hplaced, List.append_assoc]
      obtain ⟨hfound, hsize, hdata, hmessage⟩ := message.placed before (fileContent rest)
      have hends := message.endsWithin before (fileContent rest)
      rw [← hplaced] at hfound hsize hdata hmessage hends
      have hheader := congrArg LogMessage.header hmessage
      simp only [messageAt] at hheader
      have houtcome : readOutcome content filter file.filePosition =
          some (before.length, message.accepted filter) := by
        have hcut : ¬ content.length < before.length + headersizeAt content before.length := by
          simp only [EndsWithin] at hends
          omega
        simp only [readOutcome, hposition, hfound]
        rw [if_neg (by rw [hdata]; omega)]
        cases filter with
        | none => rfl
        | some filter =>
            simp only [if_neg hcut, hheader, hdata]
            rfl
      obtain ⟨hret, hindex, hforward, -, -, hbuffer1⟩ := MctFile.read_of_some hbuffer houtcome
      have hbehind : (file.read content filter).2.filePosition =
          (before ++ message.bytes).length := by
        rw [hforward, hsize, hdata, Int.toNat_natCast]
        simp only [FileMessage.bytes, List.length_append]
        omega
      obtain ⟨positions, final, hrun, hindex1, hbuffer2, hpositions⟩ :=
        ih (before ++ message.bytes) hnext hbuffer1 hbehind
          (Nat.lt_of_succ_lt_succ hfuel)
      have hcode : ¬(file.read content filter).1.code < MctReturnValue.ok.code := by
        rw [hret]
        split <;> decide
      refine ⟨(if message.accepted filter then [before.length] else []) ++ positions, final, ?_,
        ?_, hbuffer2, ?_⟩
      · simp only [readAll, if_neg hcode]
        exact hrun
      · rw [hindex1, hindex, hposition, List.append_assoc]
      · by_cases haccept : message.accepted filter = true
        · rw [if_pos haccept, List.filter_cons_of_pos haccept]
          exact .cons ⟨hfound, by rw [hdata]; omega, hmessage, hends⟩ hpositions
        · rw [if_neg haccept, List.filter_cons_of_neg haccept]
          exact hpositions

/-- The messages of the index, printed in any order. -/
theorem printMessages_spec {content : List UInt8} (halloc : ∀ n, malloc.block n ≠ none)
    {messages : List FileMessage} (hdecode : Decode text messages) {entries indices : List Nat}
    {file : MctFile} (hindex : file.index = entries)
    (hbuffer : file.msg.headerbuffer.length = sizeofHeaderbuffer)
    (hentries : List.Forall₂ (fun index (message : FileMessage) => ∃ pos,
        entries[index]? = some pos ∧ nextHeader content pos = some pos ∧
          0 ≤ datasizeAt content pos ∧ messageAt content pos = message.log ∧
          EndsWithin content pos) indices messages) :
    printMessages malloc text content indices file =
      some (messages.map fun message => text.line message.log) := by
  induction hentries generalizing file with
  | nil => rfl
  | cons hentry hrest ih =>
      rename_i index message indices messages
      obtain ⟨pos, hpos, hnext, hsize, hmessage, hends⟩ := hentry
      obtain ⟨hkeep, hok, hloaded⟩ :=
        MctFile.message_spec halloc hbuffer (hindex ▸ hpos) hnext hsize
      have hret := hok.mpr hends
      have hpayload := hdecode message List.mem_cons_self
      have htail := ih (fun m hm => hdecode m (List.mem_cons_of_mem _ hm))
        (hkeep.index.trans hindex) (hkeep.buffer.trans hbuffer)
      simp only [printMessages, hret, hloaded hret, hmessage, htail, lt_irrefl, if_false,
        if_neg (not_lt.mpr hpayload), Option.map_some, List.map_cons]

theorem length_le_fileContent (messages : List FileMessage) :
    messages.length ≤ (fileContent messages).length := by
  induction messages with
  | nil => exact Nat.zero_le _
  | cons message rest ih =>
      have htwenty := message.twenty_le
      simp only [fileContent, List.flatMap_cons, List.length_append, List.length_cons,
        FileMessage.bytes] at ih ⊢
      omega

theorem indexedLines_spec (filter : Option (List MctFilterEntry))
    (halloc : ∀ n, malloc.block n ≠ none) {messages : List FileMessage}
    (hdecode : Decode text messages) :
    indexedLines malloc text (fileContent messages) filter =
      some (acceptedLines text filter messages) := by
  have hfuel := Nat.lt_succ_of_le (length_le_fileContent messages)
  obtain ⟨positions, final, hrun, hindex, hbuffer, hpositions⟩ :=
    readAll_spec filter [] (show fileContent messages = [] ++ fileContent messages from rfl)
      (show mctFileOpen.msg.headerbuffer.length = sizeofHeaderbuffer from rfl) rfl hfuel
  have hentries : final.index = positions := hindex
  simp only [indexedLines, hrun, Option.bind_some, hentries]
  refine printMessages_spec halloc ?_ hentries hbuffer ?_
  · exact fun message hmem => hdecode message (List.mem_of_mem_filter hmem)
  · rw [List.forall₂_iff_get] at hpositions ⊢
    refine ⟨by simpa using hpositions.1, ?_⟩
    intro i hi hj
    have hlt : i < positions.length := by simpa using hi
    refine ⟨positions[i], ?_, hpositions.2 i hlt hj⟩
    simp [hlt]

/-- The quick parser returns a value that is not negative, and its output and
counter are those of the lines that the messages of the index have. -/
def QuickAgrees (malloc : Malloc) (text : MessageText) (content : List UInt8)
    (filter : Option (List MctFilterEntry)) : Prop :=
  ∃ ret quick lines, quickParsing malloc text content filter = some (ret, quick) ∧
    indexedLines malloc text content filter = some lines ∧
    MctReturnValue.ok.code ≤ ret.code ∧ quick.output = lines.flatten ∧
    quick.counter = lines.length

/-- On a well-formed file the lines are those of the index, and the returned
value says so if and only if the last message is accepted. -/
theorem quick_parsing_agrees (malloc : Malloc) (halloc : ∀ n, malloc.block n ≠ none)
    (text : MessageText) (filter : Option (List MctFilterEntry)) (messages : List FileMessage)
    (hdecode : Decode text messages) :
    (∃ ret quick lines,
      quickParsing malloc text (fileContent messages) filter = some (ret, quick) ∧
      indexedLines malloc text (fileContent messages) filter = some lines ∧
      quick.output = lines.flatten ∧ quick.counter = lines.length) ∧
    (QuickAgrees malloc text (fileContent messages) filter ↔
      ∀ last, messages.getLast? = some last → last.accepted filter = true) := by
  have hindexed := indexedLines_spec filter halloc hdecode
  have hfuel := Nat.lt_succ_of_le (length_le_fileContent messages)
  obtain ⟨ret, quick, hrun, hout, hcount, hret⟩ :=
    quickLoop_spec filter halloc hdecode [] ⟨mctFileOpen, 0, []⟩ .ok _ (le_refl _) rfl rfl
      (le_refl _) hfuel
  have hquick : quickParsing malloc text (fileContent messages) filter = some (ret, quick) := hrun
  have hlines : quick.counter = (acceptedLines text filter messages).length := by
    rw [hcount, Nat.zero_add]
  refine ⟨⟨ret, quick, _, hquick, hindexed, hout, hlines⟩, ?_⟩
  have hlast : MctReturnValue.ok.code ≤ ret.code ↔
      ∀ last, messages.getLast? = some last → last.accepted filter = true := by
    rw [hret]
    cases messages.getLast? with
    | none => exact iff_of_true rfl fun last h => by cases h
    | some last => exact ⟨fun h other hother => by cases hother; exact h, fun h => h last rfl⟩
  rw [← hlast]
  constructor
  · rintro ⟨ret', quick', lines, hquick', -, hnonneg, -⟩
    rw [hquick] at hquick'
    cases hquick'
    exact hnonneg
  · intro hnonneg
    exact ⟨ret, quick, _, hquick, hindexed, hnonneg, hout, hlines⟩

/-- A message of the application that this byte names, with a message id for
its payload. -/
def messageOf (apid : UInt8) : FileMessage where
  header := storagePattern ++ List.replicate 12 0 ++ [33, 0, 0, 18] ++
    [64, 0, apid, 0, 0, 0, 67, 0, 0, 0]
  payload := [1, 0, 0, 0]
  pattern := rfl
  header_length := by
    change 30 = 20 + extraSize 33
    decide
  whole := rfl

def applicationFilter (apid : UInt8) : List MctFilterEntry :=
  [⟨[apid, 0, 0, 0], [0, 0, 0, 0], 0, 0, 0⟩]

def plainText : MessageText where
  header header := (slice header 22 1).map fun byte => Char.ofNat byte.toNat
  payload _ := (.ok, ['x'])

theorem quick_parsing_agrees_sample :
    QuickAgrees Malloc.zeroed plainText (fileContent [messageOf 66, messageOf 65])
      (some (applicationFilter 65)) ∧
    indexedLines Malloc.zeroed plainText (fileContent [messageOf 66, messageOf 65])
      (some (applicationFilter 65)) = some [['A', '[', 'x', ']', '\n']] :=
  ⟨(quick_parsing_agrees Malloc.zeroed (fun _ => Option.some_ne_none _) plainText
      (some (applicationFilter 65)) [messageOf 66, messageOf 65]
      (fun _ _ => le_refl _)).2.mpr
      (by intro last h; cases h; decide +kernel), by decide +kernel⟩

/-- The filter drops the last message: the lines are right, and an error is
returned. -/
theorem quick_parsing_fails_behind_dropped_message :
    Decode plainText [messageOf 65, messageOf 66] ∧
    (quickParsing Malloc.zeroed plainText (fileContent [messageOf 65, messageOf 66])
      (some (applicationFilter 65))).map (fun result => (result.1, result.2.counter)) =
        some (.error, 1) ∧
    ¬ QuickAgrees Malloc.zeroed plainText (fileContent [messageOf 65, messageOf 66])
      (some (applicationFilter 65)) := by
  have hquick : (quickParsing Malloc.zeroed plainText (fileContent [messageOf 65, messageOf 66])
      (some (applicationFilter 65))).map (fun result => (result.1, result.2.counter)) =
        some (.error, 1) := by decide +kernel
  refine ⟨fun _ _ => le_refl _, hquick, ?_⟩
  rintro ⟨ret, quick, lines, hrun, -, hnonneg, -⟩
  rw [hrun, Option.map_some, Option.some.injEq, Prod.mk.injEq] at hquick
  have herror : ret = .error := hquick.1
  rw [herror] at hnonneg
  exact absurd hnonneg (by decide)

end Agreement

end MctDaemon.Shared
