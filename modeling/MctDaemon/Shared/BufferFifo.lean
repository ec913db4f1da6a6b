import MctDaemon.Lib.Run
import MctDaemon.Shared.BufferQueue

/-!
A ring buffer of fixed size against an unbounded-length queue of byte
strings. The specification `queueStep` knows the size of the data area and
the queue, nothing of positions or cells.
-/

namespace MctDaemon.Shared

open Lib

/-- The calls that touch the contents of a ring buffer. -/
inductive BufferOp where
  | push (data : List UInt8)
  | push3 (data1 data2 data3 : List UInt8)
  | pull (data : Bool) (maxSize : Int)
  | copy (data : Bool) (maxSize : Int)
  | remove
  deriving DecidableEq, Repr

/-- The return value of a call and the bytes it stored for the caller. -/
structure BufferReply where
  ret : Int
  data : List UInt8
  deriving DecidableEq, Repr

def BufferGet.reply (result : BufferGet) : BufferReply := ⟨result.ret, result.data⟩

def bufferStep (malloc : Malloc) (buf : MctBuffer) : BufferOp → BufferReply × MctBuffer
  | .push data =>
      let (ret, next) := mctBufferPush malloc buf data
      (⟨ret.code, []⟩, next)
  | .push3 data1 data2 data3 =>
      let (ret, next) := mctBufferPush3 malloc buf data1 data2 data3
      (⟨ret.code, []⟩, next)
  | .pull data maxSize =>
      ((mctBufferPull malloc buf data maxSize).reply, (mctBufferPull malloc buf data maxSize).buf)
  | .copy data maxSize =>
      ((mctBufferCopy malloc buf data maxSize).reply, (mctBufferCopy malloc buf data maxSize).buf)
  | .remove => ((mctBufferRemove malloc buf).reply, (mctBufferRemove malloc buf).buf)

/-- Append the entry if its head and bytes fit beside the queued entries. -/
def queuePush (size : Nat) (queue : List (List UInt8)) (entry : List UInt8) :
    BufferReply × List (List UInt8) :=
  if entrySize entry ≤ size - queueSize queue then
    (⟨MctReturnValue.ok.code, []⟩, queue ++ [entry])
  else (⟨MctReturnValue.error.code, []⟩, queue)

/-- The oldest entry's length, and its bytes if they are asked for. -/
def queueFront (queue : List (List UInt8)) (data : Bool) (maxSize : Int) : BufferReply :=
  match queue with
  | [] => ⟨MctReturnValue.error.code, []⟩
  | entry :: _ => ⟨entry.length, if data ∧ maxSize ≠ 0 then entry else []⟩

/-- What each call means on a queue stored in `size` bytes. -/
def queueStep (size : Nat) (queue : List (List UInt8)) :
    BufferOp → BufferReply × List (List UInt8)
  | .push data => queuePush size queue data
  | .push3 data1 data2 data3 => queuePush size queue (data1 ++ data2 ++ data3)
  | .pull data maxSize => (queueFront queue data maxSize, queue.tail)
  | .copy data maxSize => (queueFront queue data maxSize, queue)
  | .remove => (queueFront queue false 0, queue.tail)

/-- A buffer of fixed size that holds no entry. The cells hold anything. -/
def emptyBuffer (mem : List UInt8) : MctBuffer where
  mem := mem
  size := mem.length
  minSize := mem.length + sizeofBufferHead
  maxSize := mem.length + sizeofBufferHead
  stepSize := 0
  write := 0
  read := 0
  count := 0
  resets := 0

/-- The sizes a call passes are below 2^31, that of the whole entry with its
head included. -/
def BufferOp.Small : BufferOp → Prop
  | .push data => entrySize data < 2147483648
  | .push3 data1 data2 data3 => entrySize (data1 ++ data2 ++ data3) < 2147483648
  | _ => True

/-- A buffer of `size` bytes that is never grown, has never been reset and
stores the queue. -/
structure FixedAs (size : Nat) (buf : MctBuffer) (queue : List (List UInt8)) : Prop where
  represents : Represents buf queue
  size_eq : buf.size = size
  min_eq : buf.size + sizeofBufferHead = buf.minSize
  step_eq : buf.stepSize = 0
  resets_eq : buf.resets = 0

theorem emptyBuffer_fixed (mem : List UInt8) (hsize : mem.length < 2147483648) :
    FixedAs mem.length (emptyBuffer mem) [] := by
  refine ⟨⟨le_refl _, rfl, rfl, hsize, by simp [emptyBuffer], by simp, ?_, ?_⟩,
    rfl, rfl, rfl, rfl⟩
  · simp [emptyBuffer]
  · simp [ringRead]

section Steps

variable {size : Nat} {buf : MctBuffer} {queue : List (List UInt8)}

/-- Without room the growing loop stops at once: a step size of zero cannot
grow, and the buffer stays as it is. -/
theorem FixedAs.push_full (h : FixedAs size buf queue) (malloc : Malloc)
    (data1 data2 data3 : List UInt8)
    (hsmall : entrySize (data1 ++ data2 ++ data3) < 2147483648)
    (hfull : ¬ entrySize (data1 ++ data2 ++ data3) ≤ size - queueSize queue) :
    mctBufferPush3 malloc buf data1 data2 data3 = (.error, buf) := by
  have hfits := h.represents.fits
  have hsize := h.size_eq
  have hless : (buf.size : Int) - queueSize queue <
      entrySize (data1 ++ data2 ++ data3) := by omega
  have hstuck : mctBufferIncreaseSize malloc buf = none := by
    unfold mctBufferIncreaseSize
    exact if_pos h.step_eq
  have hloop : growUntilFree malloc (entrySize (data1 ++ data2 ++ data3)) buf.count
      ((buf.size : Int) - queueSize queue) buf = (.error, buf) := by
    unfold growUntilFree
    rw [if_pos hless]
    split
    · rfl
    · rename_i hgrown
      rw [hstuck] at hgrown
      cases hgrown
  rw [mctBufferPush3_of_positions malloc h.represents.positions_ok hsmall,
    h.represents.freeSize_eq, hloop]
  rfl

theorem FixedAs.push3 (h : FixedAs size buf queue) (malloc : Malloc)
    (data1 data2 data3 : List UInt8)
    (hsmall : entrySize (data1 ++ data2 ++ data3) < 2147483648) :
    (⟨(mctBufferPush3 malloc buf data1 data2 data3).1.code, []⟩ : BufferReply) =
        (queuePush size queue (data1 ++ data2 ++ data3)).1 ∧
      FixedAs size (mctBufferPush3 malloc buf data1 data2 data3).2
        (queuePush size queue (data1 ++ data2 ++ data3)).2 := by
  have hfits := h.represents.fits
  have hsize := h.size_eq
  unfold queuePush
  split
  · rename_i hroom
    have hfit : queueSize queue + entrySize (data1 ++ data2 ++ data3) ≤ buf.size := by omega
    obtain ⟨hrep, hlimits⟩ := h.represents.writeEntry data1 data2 data3 hfit
    rw [h.represents.push_of_fits malloc data1 data2 data3 hfit]
    refine ⟨rfl, hrep, hlimits.size_eq.trans hsize, ?_, hlimits.step_eq.trans h.step_eq,
      hlimits.resets_eq.trans h.resets_eq⟩
    rw [hlimits.size_eq, hlimits.min_eq]
    exact h.min_eq
  · rename_i hfull
    rw [h.push_full malloc data1 data2 data3 hsmall hfull]
    exact ⟨rfl, h⟩

theorem FixedAs.dropEntry {entry : List UInt8} (h : FixedAs size buf (entry :: queue)) :
    FixedAs size (dropEntry buf entry) queue :=
  ⟨h.represents.dropEntry, h.size_eq, h.min_eq, h.step_eq, h.resets_eq⟩

/-- A fixed buffer already has its minimal size. -/
theorem FixedAs.minimize (h : FixedAs size buf queue) (malloc : Malloc) :
    (mctBufferMinimizeSize malloc buf).2 = buf := by
  unfold mctBufferMinimizeSize
  rw [if_pos h.min_eq]

theorem FixedAs.get (h : FixedAs size buf queue) (malloc : Malloc) (data : Bool)
    (maxSize : Int) (delete : Bool) :
    (mctBufferGet malloc buf data maxSize delete).reply = queueFront queue data maxSize ∧
      FixedAs size (mctBufferGet malloc buf data maxSize delete).buf
        (if delete then queue.tail else queue) := by
  cases queue with
  | nil =>
      rw [h.represents.get_empty]
      refine ⟨rfl, ?_⟩
      cases delete <;> exact h
  | cons entry rest =>
      rw [h.represents.get]
      refine ⟨rfl, ?_⟩
      cases delete with
      | false => exact h
      | true =>
          simp only [if_true, List.tail_cons, h.dropEntry.minimize, ite_self]
          exact h.dropEntry

/-- One call on the buffer is the same call on the queue. -/
theorem FixedAs.step (h : FixedAs size buf queue) (malloc : Malloc) (op : BufferOp)
    (hop : op.Small) :
    (bufferStep malloc buf op).1 = (queueStep size queue op).1 ∧
      FixedAs size (bufferStep malloc buf op).2 (queueStep size queue op).2 := by
  cases op with
  | push data =>
      have hsame : data ++ [] ++ [] = data := by simp
      have hpush := h.push3 malloc data [] [] (by rw [hsame]; exact hop)
      rw [hsame] at hpush
      exact hpush
  | push3 data1 data2 data3 => exact h.push3 malloc data1 data2 data3 hop
  | pull data maxSize => exact h.get malloc data maxSize true
  | copy data maxSize => exact h.get malloc data maxSize false
  | remove => exact h.get malloc false 0 true

/-- A refused push leaves every cell and every field as it was. -/
theorem FixedAs.refused (h : FixedAs size buf queue) (malloc : Malloc)
    (data1 data2 data3 : List UInt8)
    (hsmall : entrySize (data1 ++ data2 ++ data3) < 2147483648)
    (herror : (mctBufferPush3 malloc buf data1 data2 data3).1 ≠ .ok) :
    (mctBufferPush3 malloc buf data1 data2 data3).2 = buf := by
  have hsize := h.size_eq
  have hfits := h.represents.fits
  by_cases hroom : entrySize (data1 ++ data2 ++ data3) ≤ size - queueSize queue
  · rw [h.represents.push_of_fits malloc data1 data2 data3 (by omega)] at herror
    exact absurd rfl herror
  · rw [h.push_full malloc data1 data2 data3 hsmall hroom]

end Steps

/-- A buffer of fixed size, started empty, answers every run of calls as the
queue does. It counts the queue's entries and their size, a refused push
changes nothing, and it is never reset. -/
theorem fixed_buffer_is_fifo (malloc : Malloc) (mem : List UInt8)
    (ops : List BufferOp) (hsize : mem.length < 2147483648)
    (hops : ∀ op ∈ ops, op.Small) :
    let buffer := runOps (bufferStep malloc) (emptyBuffer mem) ops
    let queue := runOps (queueStep mem.length) [] ops
    buffer.1 = queue.1 ∧ Represents buffer.2 queue.2 ∧
      mctBufferGetMessageCount buffer.2 = queue.2.length ∧
      mctBufferGetUsedSize buffer.2 = queueSize queue.2 ∧
      buffer.2.resets = 0 ∧
      ∀ data1 data2 data3, entrySize (data1 ++ data2 ++ data3) < 2147483648 →
        (mctBufferPush3 malloc buffer.2 data1 data2 data3).1 ≠ .ok →
          (mctBufferPush3 malloc buffer.2 data1 data2 data3).2 = buffer.2 := by
  obtain ⟨hreplies, hfinal⟩ := runOps_refines
    (fun buf queue op hrelated hop => hrelated.step malloc op hop)
    (emptyBuffer_fixed mem hsize) ops hops
  refine ⟨hreplies, hfinal.represents, hfinal.represents.getMessageCount,
    hfinal.represents.getUsedSize, hfinal.resets_eq, ?_⟩
  intro data1 data2 data3 hsmall herror
  exact hfinal.refused malloc data1 data2 data3 hsmall herror

/-- Three entries through 40 bytes: the second straddles the end of the
memory once the first is gone, and the third finds no room. -/
theorem fixed_buffer_is_fifo_straddling :
    let ops : List BufferOp :=
      [.push [1, 2, 3], .push3 [4] [] [5, 6], .remove, .push3 [7, 8] [9] [], .push [],
        .copy true 3, .pull true 3, .pull true 3, .pull true 3]
    let buffer := runOps (bufferStep Malloc.zeroed) (emptyBuffer (List.replicate 40 0)) ops
    let queue := runOps (queueStep 40) [] ops
    queue.1 = [⟨0, []⟩, ⟨0, []⟩, ⟨3, []⟩, ⟨0, []⟩, ⟨-1, []⟩, ⟨3, [4, 5, 6]⟩, ⟨3, [4, 5, 6]⟩,
        ⟨3, [7, 8, 9]⟩, ⟨-1, []⟩] ∧
      buffer.1 = queue.1 ∧ buffer.2.resets = 0 := by
  have hrun := fixed_buffer_is_fifo Malloc.zeroed (List.replicate 40 0)
    [.push [1, 2, 3], .push3 [4] [] [5, 6], .remove, .push3 [7, 8] [9] [], .push [],
      .copy true 3, .pull true 3, .pull true 3, .pull true 3]
    (by decide) (by simp [BufferOp.Small, entrySize, sizeofBlockHead])
  exact ⟨by decide, hrun.1, hrun.2.2.2.2.1⟩

end MctDaemon.Shared
