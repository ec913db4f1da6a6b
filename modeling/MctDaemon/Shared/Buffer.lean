import MctDaemon.Lib.Ring
import MctDaemon.Shared.Types

/-!
The ring buffer of `mct_common.c`: `mct_buffer_init_dynamic`,
`mct_buffer_push3`, `mct_buffer_get` and what they call. A buffer is one
block of memory: a head with the write and read positions and the number of
entries, and behind it `size` bytes of data. Null pointers are not modelled.
-/

namespace MctDaemon.Shared

open Lib

/-- `MctBuffer` with the `MctBufferHead` its `shm` points to. `mem` is the
data area. `resets` counts the calls of `mct_buffer_reset`, each of which
logs a warning. -/
structure MctBuffer where
  mem : List UInt8
  size : Nat
  minSize : Nat
  maxSize : Nat
  stepSize : Nat
  write : Int
  read : Int
  count : Int
  resets : Nat
  deriving DecidableEq, Repr

/-- `sizeof(MctBufferHead)`: three `int`. -/
def sizeofBufferHead : Nat := 12

/-- The head of one entry. The structure is not packed: three bytes of
padding stand between the status and the size. -/
structure MctBufferBlockHead where
  head : List UInt8
  status : UInt8
  size : Int
  deriving DecidableEq, Repr

def sizeofBlockHead : Nat := 12

/-- `MCT_BUFFER_HEAD` with its terminating zero. -/
def mctBufferHead : List UInt8 := [83, 72, 77, 0]

/-- The object representation. The padding is never read. -/
def MctBufferBlockHead.toBytes (h : MctBufferBlockHead) : List UInt8 :=
  h.head ++ h.status :: [0, 0, 0] ++ leBytes 4 (uint32 h.size)

def MctBufferBlockHead.ofBytes (bytes : List UInt8) : MctBufferBlockHead where
  head := bytes.take 4
  status := bytes.getD 4 0
  size := int32 (leNat (slice bytes 8 4))

/-- `mct_buffer_write_block`. A block larger than the data area is refused
with a warning and the position stays. -/
def mctBufferWriteBlock (buf : MctBuffer) (write : Int) (data : List UInt8) :
    MctBuffer × Int :=
  if data.length ≤ buf.size then
    if uint32 (write + data.length) ≤ buf.size then
      ({buf with mem := copyInto buf.mem write.toNat data}, write + data.length)
    else if uint32 write ≤ buf.size then
      let first := buf.size - uint32 write
      let mem := copyInto (copyInto buf.mem write.toNat (data.take first)) 0 (data.drop first)
      ({buf with mem := mem}, write + int32 (data.length - buf.size))
    else (buf, write)
  else (buf, write)

/-- `mct_buffer_read_block`: the bytes stored in the caller's block and the
new position. -/
def mctBufferReadBlock (buf : MctBuffer) (read : Int) (size : Nat) :
    List UInt8 × Int :=
  if uint32 (read + size) ≤ buf.size then
    (slice buf.mem read.toNat size, read + size)
  else if uint32 read ≤ buf.size then
    (slice buf.mem read.toNat (buf.size - uint32 read) ++
        slice buf.mem 0 (size + uint32 read - buf.size),
      read + int32 (size - buf.size))
  else ([], read)

def mctBufferReset (buf : MctBuffer) : MctBuffer :=
  {buf with
    mem := List.replicate buf.size 0
    write := 0
    read := 0
    count := 0
    resets := buf.resets + 1}

/-- `mct_buffer_increase_size`: the grown buffer, or `none` for
`MCT_RETURN_ERROR`, which changes nothing. The new block keeps whatever the
allocator left behind the copied bytes. -/
def mctBufferIncreaseSize (malloc : Malloc) (buf : MctBuffer) : Option MctBuffer :=
  if buf.stepSize = 0 then none
  else if buf.size + sizeofBufferHead + buf.stepSize > buf.maxSize then none
  else
    match malloc.block (buf.size + sizeofBufferHead + buf.stepSize) with
    | none => none
    | some block =>
        let fresh := block.drop sizeofBufferHead
        if buf.read < buf.write then
          let copied := slice buf.mem buf.read.toNat (buf.write - buf.read).toNat
          some {buf with
            mem := copyInto fresh 0 copied
            size := buf.size + buf.stepSize
            write := buf.write - buf.read
            read := 0}
        else
          let first := slice buf.mem buf.read.toNat (buf.size - uint32 buf.read)
          let second := slice buf.mem 0 buf.write.toNat
          some {buf with
            mem := copyInto (copyInto fresh 0 first) (buf.size - uint32 buf.read) second
            size := buf.size + buf.stepSize
            write := int32 buf.size + buf.write - buf.read
            read := 0}

/-- `mct_buffer_minimize_size`: an empty buffer goes back to its first size. -/
def mctBufferMinimizeSize (malloc : Malloc) (buf : MctBuffer) :
    MctReturnValue × MctBuffer :=
  if buf.size + sizeofBufferHead = buf.minSize then (.ok, buf)
  else
    match malloc.block buf.minSize with
    | none => (.error, buf)
    | some _ =>
        (.ok, {buf with
          mem := List.replicate (buf.minSize - sizeofBufferHead) 0
          size := buf.minSize - sizeofBufferHead
          write := 0
          read := 0
          count := 0})

/-- `mct_buffer_init_dynamic`, for the parameters it accepts. -/
def mctBufferInitDynamic (malloc : Malloc) (minSize maxSize stepSize : Nat) :
    Option MctBuffer :=
  if minSize = 0 ∨ maxSize = 0 ∨ stepSize = 0 then none
  else if minSize > maxSize then none
  else if stepSize > maxSize then none
  else
    match malloc.block minSize with
    | none => none
    | some _ =>
        if minSize < sizeofBufferHead then none
        else
          some {
            mem := List.replicate (minSize - sizeofBufferHead) 0
            size := minSize - sizeofBufferHead
            minSize, maxSize, stepSize
            write := 0, read := 0, count := 0, resets := 0}

/-- The free size as `mct_buffer_push3` first computes it. -/
def freeSize (size : Nat) (write read count : Int) : Int :=
  if read > write then read - write
  else if count ≠ 0 ∧ write = read then 0
  else int32 size - write + read

/-- The free size as the loop of `mct_buffer_push3` computes it again: the
last branch is unsigned there. -/
def freeSizeAgain (size : Nat) (write read count : Int) : Int :=
  if read > write then read - write
  else if count ≠ 0 ∧ write = read then 0
  else int32 (size - write + read)

theorem mctBufferIncreaseSize_grows {malloc : Malloc} {buf grown : MctBuffer}
    (h : mctBufferIncreaseSize malloc buf = some grown) :
    buf.stepSize ≠ 0 ∧ buf.size + sizeofBufferHead + buf.stepSize ≤ buf.maxSize ∧
      grown.size = buf.size + buf.stepSize ∧ grown.maxSize = buf.maxSize ∧
      grown.minSize = buf.minSize ∧ grown.stepSize = buf.stepSize ∧
      grown.count = buf.count ∧ grown.resets = buf.resets := by
  unfold mctBufferIncreaseSize at h
  split at h
  · cases h
  · rename_i hstep
    split at h
    · cases h
    · rename_i hmax
      split at h
      · cases h
      · split at h <;> cases h <;>
          exact ⟨hstep, by omega, rfl, rfl, rfl, rfl, rfl, rfl⟩

/-- The loop of `mct_buffer_push3` that grows the buffer until `needed` bytes
are free. `count` is the count read before the loop. -/
def growUntilFree (malloc : Malloc) (needed count : Int) (free : Int) (buf : MctBuffer) :
    MctReturnValue × MctBuffer :=
  if free < needed then
    match _hgrown : mctBufferIncreaseSize malloc buf with
    | none => (.error, buf)
    | some grown =>
        growUntilFree malloc needed count
          (freeSizeAgain grown.size grown.write grown.read count) grown
  else (.ok, buf)
termination_by buf.maxSize - buf.size
decreasing_by
  obtain ⟨hstep, hmax, hsize, hmaxSize, _⟩ := mctBufferIncreaseSize_grows _hgrown
  rw [hsize, hmaxSize]
  have : 0 < buf.stepSize := Nat.pos_of_ne_zero hstep
  omega

theorem growUntilFree_of_enough (malloc : Malloc) {needed count free : Int}
    (buf : MctBuffer) (h : ¬ free < needed) :
    growUntilFree malloc needed count free buf = (.ok, buf) := by
  unfold growUntilFree
  exact if_neg h

/-- `mct_buffer_push3`, from the point where enough bytes are free. -/
def writeEntry (buf : MctBuffer) (data1 data2 data3 : List UInt8) : MctBuffer :=
  let head : MctBufferBlockHead := {
    head := mctBufferHead
    status := 2
    size := int32 (data1.length + data2.length + data3.length)}
  let (buf, write) := mctBufferWriteBlock buf buf.write head.toBytes
  let (buf, write) :=
    if data1.length ≠ 0 then mctBufferWriteBlock buf write data1 else (buf, write)
  let (buf, write) :=
    if data2.length ≠ 0 then mctBufferWriteBlock buf write data2 else (buf, write)
  let (buf, write) :=
    if data3.length ≠ 0 then mctBufferWriteBlock buf write data3 else (buf, write)
  {buf with write := write, count := buf.count + 1}

def mctBufferPush3 (malloc : Malloc) (buf : MctBuffer)
    (data1 data2 data3 : List UInt8) : MctReturnValue × MctBuffer :=
  if uint32 buf.read > buf.size ∨ uint32 buf.write > buf.size then
    (.error, mctBufferReset buf)
  else
    let needed :=
      int32 (sizeofBlockHead + data1.length + data2.length + data3.length : Nat)
    match growUntilFree malloc needed buf.count
        (freeSize buf.size buf.write buf.read buf.count) buf with
    | (.ok, buf) => (.ok, writeEntry buf data1 data2 data3)
    | (_, buf) => (.error, buf)

def mctBufferPush (malloc : Malloc) (buf : MctBuffer) (data : List UInt8) :
    MctReturnValue × MctBuffer :=
  mctBufferPush3 malloc buf data [] []

/-- The bytes between the positions of a buffer that holds an entry. -/
def usedSize (size : Nat) (write read : Int) : Int :=
  if write > read then write - read else int32 size - read + write

/-- The return value of `mct_buffer_get`, the bytes it stored at `data` and
the buffer it leaves. -/
structure BufferGet where
  ret : Int
  data : List UInt8
  buf : MctBuffer
  deriving DecidableEq, Repr

/-- `mct_buffer_get` behind its header checks: `read` is the position behind
the header. `data` says whether a data pointer was given; with one, the whole
entry is stored there, whatever `maxSize` is. -/
def takeEntry (malloc : Malloc) (buf : MctBuffer) (read size : Int) (data : Bool)
    (maxSize : Int) (delete : Bool) : BufferGet :=
  let (stored, newRead) :=
    if data ∧ maxSize ≠ 0 then mctBufferReadBlock buf read (uint32 size)
    else if uint32 (read + size) ≤ buf.size then ([], read + size)
    else ([], read + size - int32 buf.size)
  if delete then
    let left := {buf with read := newRead, count := buf.count - 1}
    ⟨size, stored, if left.count = 0 then (mctBufferMinimizeSize malloc left).2 else left⟩
  else ⟨size, stored, buf⟩

def mctBufferGet (malloc : Malloc) (buf : MctBuffer) (data : Bool) (maxSize : Int)
    (delete : Bool) : BufferGet :=
  if uint32 buf.read > buf.size ∨ uint32 buf.write > buf.size ∨ buf.count < 0 then
    ⟨MctReturnValue.error.code, [], mctBufferReset buf⟩
  else if buf.count = 0 then
    ⟨MctReturnValue.error.code, [],
      if buf.write ≠ buf.read then mctBufferReset buf else buf⟩
  else
    let used := usedSize buf.size buf.write buf.read
    if used < sizeofBlockHead then ⟨MctReturnValue.error.code, [], mctBufferReset buf⟩
    else
      let (bytes, read) := mctBufferReadBlock buf buf.read sizeofBlockHead
      let head := MctBufferBlockHead.ofBytes bytes
      if head.head ≠ mctBufferHead then ⟨MctReturnValue.error.code, [], mctBufferReset buf⟩
      else if head.status ≠ 2 then ⟨MctReturnValue.error.code, [], mctBufferReset buf⟩
      else if used < sizeofBlockHead + head.size then
        ⟨MctReturnValue.error.code, [], mctBufferReset buf⟩
      else takeEntry malloc buf read head.size data maxSize delete

def mctBufferPull (malloc : Malloc) (buf : MctBuffer) (data : Bool) (maxSize : Int) :
    BufferGet :=
  mctBufferGet malloc buf data maxSize true

def mctBufferCopy (malloc : Malloc) (buf : MctBuffer) (data : Bool) (maxSize : Int) :
    BufferGet :=
  mctBufferGet malloc buf data maxSize false

def mctBufferRemove (malloc : Malloc) (buf : MctBuffer) : BufferGet :=
  mctBufferGet malloc buf false 0 true

def mctBufferGetUsedSize (buf : MctBuffer) : Int :=
  if buf.count = 0 then MctReturnValue.ok.code
  else usedSize buf.size buf.write buf.read

def mctBufferGetMessageCount (buf : MctBuffer) : Int := buf.count

end MctDaemon.Shared
