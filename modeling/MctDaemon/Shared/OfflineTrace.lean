import Mathlib.Data.Char
import Mathlib.Data.List.Lex
import Mathlib.Data.List.Sort
import MctDaemon.Lib.CString
import MctDaemon.Shared.Types

/-!
The offline trace (`mct_offline_trace.c`): messages are appended to trace files,
and the oldest files are removed to keep the directory below its quota. File
operations succeed. The files of the directory are listed in the order in which
they were created; the order in which the directory returns them is arbitrary.
-/

namespace MctDaemon.Shared

open Lib

section Files

/-- A file in the trace directory; the modification time is in seconds. -/
structure TraceFile where
  name : List Char
  content : List UInt8
  mtime : Nat
  deriving DecidableEq, Repr

/-- The order in which `readdir` returns the files. -/
structure Listing where
  order : List TraceFile → List TraceFile
  perm : ∀ files, (order files).Perm files

def filenameBase : List Char :=
  ['m', 'c', 't', '_', 'o', 'f', 'f', 'l', 'i', 'n', 'e', 't', 'r', 'a', 'c', 'e']

def filenameExt : List Char := ['.', 'm', 'c', 't']

/-- `strstr(name, MCT_OFFLINETRACE_FILENAME_BASE)`. -/
def isTraceFile (f : TraceFile) : Bool := f.name.tails.any fun rest => filenameBase.isPrefixOf rest

/-- The configuration of the trace. `stamp` is the local time as text. -/
structure TraceSettings where
  directory : List Char
  fileSize : Nat
  maxSize : Nat
  filenameTimestampBased : Bool
  stamp : Nat → List Char
  listing : Listing

/-- The directory and the open file, with the position in it. -/
structure TraceState where
  files : List TraceFile
  ohandle : Option (List Char × Nat)

end Files

section Names

/-- The loop of `mct_offline_trace_storage_dir_info`: a longer name is younger,
and so is one that compares greater. -/
def newerName (newest : Option (List Char)) (name : List Char) : Option (List Char) :=
  match newest with
  | none => some name
  | some new =>
      if new.length < name.length then some name
      else if new.length = name.length ∧ new < name then some name
      else some new

/-- `mct_offline_trace_storage_dir_info`: the newest file with an index. -/
def mctOfflineTraceStorageDirInfo (files : List TraceFile) : Option (List Char) :=
  (((files.map TraceFile.name).insertionSort (· ≤ ·)).filter
    fun name => (filenameBase ++ ['.']).isPrefixOf name).foldl newerName none

def mctOfflineTraceGetIdxOfLogFile (file : Option (List Char)) : Nat :=
  match file with
  | none => 0
  | some name =>
      match (strtok '.' name)[1]? with
      | none => 0
      | some token => (strtol token % 4294967296).toNat

def mctOfflineTraceFileName (idx : Nat) : List Char :=
  filenameBase ++ '.' :: printPadded 10 idx ++ filenameExt

/-- The name that `mct_offline_trace_create_new_file` sets. -/
def newFileName (cfg : TraceSettings) (now : Nat) (files : List TraceFile) : List Char :=
  if cfg.filenameTimestampBased then filenameBase ++ '_' :: cfg.stamp now ++ filenameExt
  else
    mctOfflineTraceFileName
      ((mctOfflineTraceGetIdxOfLogFile (mctOfflineTraceStorageDirInfo (cfg.listing.order files)) +
        1) % 4294967296)

end Names

section Operations

variable (cfg : TraceSettings)

def nameMax : Nat := 255

/-- `open(path, O_WRONLY | O_CREAT)`. -/
def openTraceFile (now : Nat) (name : List Char) (files : List TraceFile) : List TraceFile :=
  if ∃ file ∈ files, file.name = name then files else files ++ [⟨name, [], now⟩]

/-- `mct_offline_trace_create_new_file`. The path of an indexed file has to be
shorter than `NAME_MAX`. -/
def mctOfflineTraceCreateNewFile (now : Nat) (st : TraceState) : MctReturnValue × TraceState :=
  let name := newFileName cfg now st.files
  if ¬ cfg.filenameTimestampBased ∧ nameMax ≤ cfg.directory.length + 1 + name.length then
    (.error, st)
  else (.ok, ⟨openTraceFile now name st.files, some (name, 0)⟩)

def mctOfflineTraceGetTotalSize (files : List TraceFile) : Nat :=
  (((cfg.listing.order files).filter isTraceFile).map fun f => f.content.length).sum

/-- The loop of `mct_offline_trace_delete_oldest_file`: the time and the file
found so far. A time of 0 stands for none. -/
def olderFile (oldest : Nat × Option TraceFile) (f : TraceFile) : Nat × Option TraceFile :=
  if oldest.1 = 0 ∨ f.mtime < oldest.1 then (f.mtime, some f) else oldest

/-- `mct_offline_trace_delete_oldest_file`: the size of the file removed as an
`int`, or -1. -/
def mctOfflineTraceDeleteOldestFile (files : List TraceFile) : Int × List TraceFile :=
  match (((cfg.listing.order files).filter isTraceFile).foldl olderFile (0, none)).2 with
  | none => (-1, files)
  | some oldest =>
      ((oldest.content.length : Int).bmod 4294967296, files.filter fun f => f.name ≠ oldest.name)

/-- The loop of `mct_offline_trace_check_size`, for at most so many files. -/
def checkSizeLoop : Nat → List TraceFile → List TraceFile
  | 0, files => files
  | n + 1, files =>
      if (cfg.maxSize : Int) - cfg.fileSize < mctOfflineTraceGetTotalSize cfg files then
        let (size, left) := mctOfflineTraceDeleteOldestFile cfg files
        if size < 0 then left else checkSizeLoop n left
      else files

/-- `mct_offline_trace_check_size`: each round removes a file. -/
def mctOfflineTraceCheckSize (st : TraceState) : TraceState :=
  { st with files := checkSizeLoop cfg (st.files.length + 1) st.files }

def mctOfflineTraceInit (now : Nat) (files : List TraceFile) : MctReturnValue × TraceState :=
  mctOfflineTraceCreateNewFile cfg now (mctOfflineTraceCheckSize cfg ⟨files, none⟩)

/-- A file after `write` at a position. -/
def TraceFile.writeAt (f : TraceFile) (position : Nat) (data : List UInt8) (now : Nat) :
    TraceFile :=
  if data = [] then f
  else
    { f with
      content := f.content.take position ++ data ++ f.content.drop (position + data.length)
      mtime := now }

/-- `write` to the open file. -/
def TraceState.write (st : TraceState) (data : List UInt8) (now : Nat) : TraceState :=
  match st.ohandle with
  | none => st
  | some (name, position) =>
      { files := st.files.map fun f => if f.name = name then f.writeAt position data now else f
        ohandle := some (name, position + data.length) }

/-- The arguments of a call of `mct_offline_trace_write`, and the time when a new
file is named and when the data is written. -/
structure TraceWrite where
  data1 : List UInt8
  data2 : List UInt8
  data3 : List UInt8
  opened : Nat
  written : Nat
  deriving DecidableEq, Repr

def TraceWrite.message (w : TraceWrite) : List UInt8 := w.data1 ++ w.data2 ++ w.data3

def startsNewFile (st : TraceState) (w : TraceWrite) : Bool :=
  st.ohandle.any fun handle =>
    cfg.fileSize ≤ handle.2 + w.data1.length + w.data2.length + w.data3.length

def mctOfflineTraceWrite (st : TraceState) (w : TraceWrite) : MctReturnValue × TraceState :=
  if st.ohandle = none then (.error, st)
  else
    let st :=
      if startsNewFile cfg st w then
        (mctOfflineTraceCreateNewFile cfg w.opened
          (mctOfflineTraceCheckSize cfg { st with ohandle := none })).2
      else st
    (.ok, ((st.write w.data1 w.written).write w.data2 w.written).write w.data3 w.written)

end Operations

end MctDaemon.Shared
