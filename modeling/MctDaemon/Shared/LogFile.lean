import MctDaemon.Shared.Message

/-!
Reading log files (`mct_common.c`). `mct_file_read` goes from message to message
and remembers where it began to look for each one it accepts; `mct_file_message`
goes back there. Both use one file handle and one message. The content of the
file does not change, and a seek to a position that is not negative succeeds,
also behind the end.
-/

namespace MctDaemon.Shared

open Lib

def storagePattern : List UInt8 := [68, 76, 84, 1]

structure MctFilterEntry where
  apid : List UInt8
  ctid : List UInt8
  logLevel : Int
  payloadMin : Int
  payloadMax : Int
  deriving DecidableEq, Repr

/-- An open log file: the index has `counter` entries, and `handle` is the
position of the file handle. -/
structure MctFile where
  index : List Nat
  counterTotal : Nat
  position : Int
  filePosition : Nat
  handle : Nat
  msg : MctMessage
  deriving DecidableEq, Repr

/-- `mct_file_init` and `mct_file_open`. -/
def mctFileOpen : MctFile where
  index := []
  counterTotal := 0
  position := 0
  filePosition := 0
  handle := 0
  msg := mctMessageInit

/-- `mct_message_filter_check` on the header bytes of a message. Messages
without an extended header pass every filter. -/
def messageFilterCheck (headerbuffer : List UInt8) (datasize : Int)
    (filter : List MctFilterEntry) : Bool :=
  let htyp := headerbuffer.getD sizeofStorageHeader 0
  let extended := headerbuffer.drop
    (sizeofStorageHeader + sizeofStandardHeader + standardHeaderExtraSize htyp)
  if filter = [] ∨ !isHtyp 0 htyp then true
  else
    filter.any fun entry =>
      (entry.apid.head? = some 0 ∨ entry.apid = slice extended 2 4) ∧
        (entry.ctid.head? = some 0 ∨ entry.ctid = slice extended 6 4) ∧
        (entry.logLevel = 0 ∨ entry.logLevel = (extended.getD 0 0).toNat / 16) ∧
        (entry.payloadMin = 0 ∨ entry.payloadMin ≤ datasize) ∧
        (entry.payloadMax = 0 ∨ datasize ≤ entry.payloadMax)

/-- The loop of `mct_file_read_header` over the rest of the file behind `pos`:
whether a storage header was found, the header buffer and the position at the
end. -/
def findHeader : List UInt8 → List UInt8 → Nat → Bool × List UInt8 × Nat
  | [], headerbuffer, pos => (false, headerbuffer, pos)
  | byte :: rest, headerbuffer, pos =>
      let bytes := (byte :: rest).take (sizeofStorageHeader + sizeofStandardHeader)
      let headerbuffer := copyInto headerbuffer 0 bytes
      if bytes.length < sizeofStorageHeader + sizeofStandardHeader then
        (false, headerbuffer, pos + bytes.length)
      else if bytes.take storagePattern.length = storagePattern then
        (true, headerbuffer, pos + bytes.length)
      else findHeader rest headerbuffer (pos + 1)

namespace MctFile

def readHeader (content : List UInt8) (file : MctFile) : MctReturnValue × MctFile :=
  let (found, headerbuffer, handle) :=
    findHeader (content.drop file.handle) file.msg.headerbuffer file.handle
  if found then
    let standard := slice headerbuffer sizeofStorageHeader sizeofStandardHeader
    let headersize := sizeofStorageHeader + sizeofStandardHeader + extraSize (standard.getD 0 0)
    let datasize : Int := messageLength standard + sizeofStorageHeader - headersize
    let file := { file with
      handle := handle
      msg := { file.msg with
        headerbuffer := headerbuffer
        headersize := headersize
        datasize := datasize } }
    (if datasize < 0 then .error else .ok, file)
  else
    (.error, { file with
      handle := handle
      msg := { file.msg with headerbuffer := headerbuffer } })

/-- `fread(headerbuffer + offset, size, 1, handle)`. -/
def freadHeader (content : List UInt8) (file : MctFile) (offset size : Nat) : Bool × MctFile :=
  let bytes := slice content file.handle size
  (bytes.length = size, { file with
    handle := file.handle + bytes.length
    msg := { file.msg with headerbuffer := copyInto file.msg.headerbuffer offset bytes } })

def readHeaderExtended (content : List UInt8) (file : MctFile) : MctReturnValue × MctFile :=
  let htyp := file.msg.headerbuffer.getD sizeofStorageHeader 0
  let extra := standardHeaderExtraSize htyp
  let offset := sizeofStorageHeader + sizeofStandardHeader
  let (loaded, file) :=
    if extra ≠ 0 then file.freadHeader content offset extra else (true, file)
  if !loaded then (.error, file)
  else if !isHtyp 0 htyp then (.ok, file)
  else
    let (loaded, file) := file.freadHeader content (offset + extra) sizeofExtendedHeader
    (if loaded then .ok else .error, file)

def readData (malloc : Malloc) (content : List UInt8) (file : MctFile) :
    MctReturnValue × MctFile :=
  match payloadBlock malloc file.msg.databuffer file.msg.datasize with
  | none => (.error, { file with msg := { file.msg with databuffer := none } })
  | some block =>
      let bytes := slice content file.handle file.msg.datasize.toNat
      (if bytes.length < file.msg.datasize.toNat then .error else .ok, { file with
        handle := file.handle + bytes.length
        msg := { file.msg with databuffer := some (copyInto block 0 bytes) } })

/-- The handle goes back to the end of the last message. -/
def seekBack (file : MctFile) : MctFile := { file with handle := file.filePosition }

def accept (file : MctFile) : MctFile :=
  { file with
    index := file.index ++ [file.filePosition]
    position := file.index.length }

/-- The end of `mct_file_read`: the rest of the message is skipped. -/
def skip (file : MctFile) (size : Int) : MctFile :=
  let handle := (file.handle + size).toNat
  { file with
    counterTotal := file.counterTotal + 1
    handle := handle
    filePosition := handle }

/-- `mct_file_read`. With a filter the headers are read, without one they are
skipped together with the payload. -/
def read (content : List UInt8) (filter : Option (List MctFilterEntry)) (file : MctFile) :
    MctReturnValue × MctFile :=
  let (ret, file) := file.seekBack.readHeader content
  if ret.code < MctReturnValue.ok.code then (.error, file.seekBack)
  else
    match filter with
    | none =>
        let size := file.msg.headersize - (sizeofStorageHeader + sizeofStandardHeader) +
          file.msg.datasize
        (.true, file.accept.skip size)
    | some filter =>
        let (ret, file) := file.readHeaderExtended content
        if ret.code < MctReturnValue.ok.code then (.error, file.seekBack)
        else if messageFilterCheck file.msg.headerbuffer file.msg.datasize filter then
          (.true, file.accept.skip file.msg.datasize)
        else (.ok, file.skip file.msg.datasize)

def message (malloc : Malloc) (content : List UInt8) (file : MctFile) (index : Nat) :
    MctReturnValue × MctFile :=
  match file.index[index]? with
  | none => (.wrongParameter, file)
  | some pos =>
      let (ret, file) := { file with handle := pos }.readHeader content
      if ret.code < MctReturnValue.ok.code then (.error, file)
      else
        let (ret, file) := file.readHeaderExtended content
        if ret.code < MctReturnValue.ok.code then (.error, file)
        else
          let (ret, file) := file.readData malloc content
          if ret.code < MctReturnValue.ok.code then (.error, file)
          else (.ok, { file with position := index })

end MctFile

end MctDaemon.Shared
