import MctDaemon.Lib.Machine
import MctDaemon.Shared.Types

/-!
The receiver of `mct_common.c`. Its memory is a parameter of every function:
an application's receiver shares it with all the others, a client's receiver
has it to itself. A block of `recv` or `read` is the list of bytes it stored.
-/

namespace MctDaemon.Shared

open Lib

/-- `MctReceiver`. `buf` is the distance of the pointer from `buffer`, and
`backupBuf` the block `backup_buf` points to. -/
structure MctReceiver where
  lastBytesRcvd : Nat
  bytesRcvd : Nat
  totalBytesRcvd : Int
  buf : Nat
  backupBuf : Option (List UInt8)
  buffersize : Nat
  deriving DecidableEq, Repr

def mctReceiveBufsize : Nat := 65535

/-- `mct_receiver_init` on a cleared receiver. -/
def mctReceiverInit (buffersize : Nat) : MctReceiver where
  lastBytesRcvd := 0
  bytesRcvd := 0
  totalBytesRcvd := 0
  buf := 0
  backupBuf := none
  buffersize := buffersize

/-- `mct_receiver_init_global_buffer`, once the buffer is allocated. -/
def mctReceiverInitGlobalBuffer : MctReceiver := mctReceiverInit mctReceiveBufsize

/-- `mct_receiver_receive`: the return value, the memory and the receiver.
`incoming` is what the system call delivered; a failing call delivers
nothing. -/
def mctReceiverReceive (mem : List UInt8) (receiver : MctReceiver) (incoming : List UInt8) :
    Nat × List UInt8 × MctReceiver :=
  let last := receiver.bytesRcvd
  let (mem, backup) :=
    match receiver.backupBuf with
    | some block => if last ≠ 0 then (copyInto mem 0 (block.take last), none) else (mem, some block)
    | none => (mem, none)
  let receiver := {receiver with buf := 0, lastBytesRcvd := last, backupBuf := backup}
  if incoming.length = 0 then (0, mem, {receiver with bytesRcvd := 0})
  else
    (incoming.length + last, copyInto mem last incoming,
      {receiver with
        totalBytesRcvd := int32 (receiver.totalBytesRcvd + incoming.length)
        bytesRcvd := incoming.length + last})

def mctReceiverRemove (receiver : MctReceiver) (size : Int) :
    MctReturnValue × MctReceiver :=
  if size > receiver.bytesRcvd ∨ size ≤ 0 then
    (.wrongParameter,
      {receiver with buf := receiver.buf + receiver.bytesRcvd, bytesRcvd := 0})
  else
    (.ok,
      {receiver with
        bytesRcvd := receiver.bytesRcvd - size.toNat
        buf := receiver.buf + size.toNat})

theorem mctReceiverRemove_lt (receiver : MctReceiver) (size : Int)
    (h : receiver.bytesRcvd ≠ 0) :
    (mctReceiverRemove receiver size).2.bytesRcvd < receiver.bytesRcvd := by
  unfold mctReceiverRemove
  split
  · simp only
    omega
  · simp only
    omega

/-- `mct_receiver_move_to_begin`. The bytes left are saved only if `buf` has
moved away from `buffer`. -/
def mctReceiverMoveToBegin (calloc : Malloc) (mem : List UInt8) (receiver : MctReceiver) :
    MctReceiver :=
  if receiver.buf ≠ 0 ∧ receiver.bytesRcvd ≠ 0 then
    match calloc.block (receiver.bytesRcvd + 1) with
    | none => {receiver with backupBuf := none}
    | some block =>
        {receiver with
          backupBuf := some (copyInto block 0 (slice mem receiver.buf receiver.bytesRcvd))}
  else receiver

/-- The bytes at `buf[0..bytesRcvd)`. -/
def MctReceiver.presented (mem : List UInt8) (receiver : MctReceiver) : List UInt8 :=
  slice mem receiver.buf receiver.bytesRcvd

/-- Between `receive` and `move_to_begin`: the receiver presents `bytes`. -/
structure Presents (mem : List UInt8) (receiver : MctReceiver) (bytes : List UInt8) :
    Prop where
  size_eq : receiver.buffersize = mem.length
  count_eq : receiver.bytesRcvd = bytes.length
  inside : receiver.buf + bytes.length ≤ mem.length
  backup_eq : receiver.backupBuf = none
  presented_eq : receiver.presented mem = bytes

/-- Between two rounds: the receiver still owes `rest`, from its backup or
from the start of the memory. -/
structure Carries (mem : List UInt8) (receiver : MctReceiver) (rest : List UInt8) :
    Prop where
  size_eq : receiver.buffersize = mem.length
  count_eq : receiver.bytesRcvd = rest.length
  fits : rest.length ≤ mem.length
  backup_eq : ∀ block, receiver.backupBuf = some block →
    rest ≠ [] ∧ block.take rest.length = rest
  in_place : receiver.backupBuf = none → mem.take rest.length = rest

section Rounds

variable {mem : List UInt8} {receiver : MctReceiver} {rest bytes : List UInt8}

theorem carries_init (mem : List UInt8) : Carries mem (mctReceiverInit mem.length) [] := by
  refine ⟨rfl, rfl, by simp, ?_, ?_⟩
  · intro block hblock
    cases hblock
  · intro _
    rfl

/-- Receiving puts the chunk behind what was left over. -/
theorem Carries.receive (h : Carries mem receiver rest) (incoming : List UInt8)
    (hne : incoming ≠ []) (hfit : rest.length + incoming.length ≤ mem.length) :
    (mctReceiverReceive mem receiver incoming).1 = rest.length + incoming.length ∧
      (mctReceiverReceive mem receiver incoming).2.1.length = mem.length ∧
      (mctReceiverReceive mem receiver incoming).2.2.buf = 0 ∧
      Presents (mctReceiverReceive mem receiver incoming).2.1
        (mctReceiverReceive mem receiver incoming).2.2 (rest ++ incoming) := by
  have hlen : incoming.length ≠ 0 := by simpa using hne
  -- either way the left over bytes stand at the start of the memory now
  obtain ⟨restored, hrestored, htake, hrun⟩ : ∃ restored : List UInt8,
      restored.length = mem.length ∧ restored.take rest.length = rest ∧
      mctReceiverReceive mem receiver incoming =
        (incoming.length + rest.length, copyInto restored rest.length incoming,
          {receiver with
            buf := 0
            lastBytesRcvd := rest.length
            backupBuf := none
            totalBytesRcvd := int32 (receiver.totalBytesRcvd + incoming.length)
            bytesRcvd := incoming.length + rest.length}) := by
    unfold mctReceiverReceive
    rw [h.count_eq]
    cases hbackup : receiver.backupBuf with
    | none => exact ⟨mem, rfl, h.in_place hbackup, by simp [hlen]⟩
    | some block =>
        obtain ⟨hrest, hblock⟩ := h.backup_eq block hbackup
        have hrestLen : rest.length ≠ 0 := by simpa using hrest
        refine ⟨copyInto mem 0 rest, copyInto_length _ _ _ (by simpa using h.fits), ?_, ?_⟩
        · have happend := take_copyInto_append mem 0 rest (Nat.zero_le _)
          simpa using happend
        · simp [hlen, hrestLen, hblock]
  have hcopied : (copyInto restored rest.length incoming).length = mem.length := by
    rw [copyInto_length _ _ _ (by omega), hrestored]
  have hfits := h.fits
  rw [hrun]
  refine ⟨Nat.add_comm _ _, hcopied, rfl, ?_, ?_, ?_, rfl, ?_⟩
  · rw [hcopied]
    exact h.size_eq
  · simp [Nat.add_comm]
  · rw [hcopied]
    simpa using hfit
  · simp only [MctReceiver.presented, slice_zero]
    rw [Nat.add_comm, take_copyInto_append _ _ _ (by omega), htake]

/-- Going on by some bytes presents the others. -/
theorem Presents.advance (h : Presents mem receiver bytes) {size : Nat}
    (hle : size ≤ bytes.length) :
    Presents mem
      { receiver with bytesRcvd := receiver.bytesRcvd - size, buf := receiver.buf + size }
      (bytes.drop size) := by
  have hinside := h.inside
  refine ⟨h.size_eq, ?_, ?_, h.backup_eq, ?_⟩
  · simp [h.count_eq]
  · simp only [List.length_drop]
    omega
  · have hpresented := h.presented_eq
    simp only [MctReceiver.presented, slice, h.count_eq] at hpresented ⊢
    rw [← List.drop_drop, ← List.drop_take, hpresented]

/-- Removing leading bytes presents the others. -/
theorem Presents.remove (h : Presents mem receiver bytes) (size : Nat) (hpos : 0 < size)
    (hle : size ≤ bytes.length) :
    (mctReceiverRemove receiver size).1 = .ok ∧
      (mctReceiverRemove receiver size).2.buf = receiver.buf + size ∧
      Presents mem (mctReceiverRemove receiver size).2 (bytes.drop size) := by
  have hrun : mctReceiverRemove receiver size =
      (.ok, {receiver with
        bytesRcvd := receiver.bytesRcvd - size
        buf := receiver.buf + size}) := by
    unfold mctReceiverRemove
    rw [if_neg (by rw [h.count_eq]; omega)]
    simp
  rw [hrun]
  exact ⟨rfl, rfl, h.advance hle⟩

/-- What `move_to_begin` leaves behind: in place if nothing was removed, else
in the backup. -/
theorem Presents.moveToBegin (h : Presents mem receiver bytes) (calloc : Malloc)
    (halloc : calloc.block (bytes.length + 1) ≠ none) :
    Carries mem (mctReceiverMoveToBegin calloc mem receiver) bytes := by
  have hinside := h.inside
  have hpresented := h.presented_eq
  unfold mctReceiverMoveToBegin
  split
  · rename_i hmoved
    rw [← h.count_eq] at halloc
    cases hblock : calloc.block (receiver.bytesRcvd + 1) with
    | none => exact absurd hblock halloc
    | some block =>
        have hlen := calloc.length_eq _ _ hblock
        refine ⟨h.size_eq, h.count_eq, by omega, ?_, ?_⟩
        · intro saved hsaved
          cases hsaved
          have hne : bytes.length ≠ 0 := by
            rw [← h.count_eq]
            exact hmoved.2
          have hbytes : slice mem receiver.buf receiver.bytesRcvd = bytes := hpresented
          have happend := take_copyInto_append block 0 bytes (Nat.zero_le _)
          rw [hbytes]
          exact ⟨by simpa using hne, by simpa using happend⟩
        · intro hnone
          cases hnone
  · rename_i hstays
    refine ⟨h.size_eq, h.count_eq, by omega, ?_, ?_⟩
    · intro block hblock
      rw [h.backup_eq] at hblock
      cases hblock
    · intro _
      by_cases hzero : bytes.length = 0
      · rw [hzero, List.length_eq_zero_iff.mp hzero]
        rfl
      · have hbuf : receiver.buf = 0 := by
          by_contra hmoved
          exact hstays ⟨hmoved, by rw [h.count_eq]; exact hzero⟩
        rw [MctReceiver.presented, hbuf, slice_zero, h.count_eq] at hpresented
        exact hpresented

end Rounds

end MctDaemon.Shared
