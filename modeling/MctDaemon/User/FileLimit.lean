import MctDaemon.Shared.LogFile
import MctDaemon.User.SendLog

/-!
Logging to a file: `mct_init_file`, `mct_set_filesize_max` and the branch of
`mct_user_log_send_log` that appends a message to the file unless the file would become too large.
The size it compares is a sum in 32 bits.
-/

namespace MctDaemon.User

open Lib Shared

section Model

/-- What the library keeps while it logs to a file, and the bytes of the file. -/
structure FileUser where
  mctIsFile : Bool
  filesizeMax : UInt32
  mctUserFileReachMax : Bool
  file : List UInt8
  deriving DecidableEq, Repr

/-- A call of `mct_user_log_send_log`, with the time it takes for the storage header. -/
structure FileCall where
  settings : LogSettings
  context : LogContext
  log : MctContextData
  mtype : MctMessageType
  seconds : UInt32
  microseconds : UInt32
  deriving DecidableEq, Repr

namespace FileCall

def storageHeader (call : FileCall) : List UInt8 :=
  storagePattern ++ leBytes 4 call.seconds.toNat ++ leBytes 4 call.microseconds.toNat ++
    (setIdBytes call.settings.ecuID).bytes

/-- The message of a call, none if the call is refused. -/
def message (call : FileCall) : Option LogMessage :=
  mctUserLogSendLog call.settings call.context call.log call.mtype

def entry (call : FileCall) (message : LogMessage) : List UInt8 :=
  call.storageHeader ++ message.headers ++ message.payload

end FileCall

namespace FileUser

/-- The static variables when the program starts. -/
def atStart : FileUser := ⟨false, 0, false, []⟩

/-- `mct_init_file` with the name of a new file. -/
def mctInitFile (user : FileUser) : FileUser := { user with mctIsFile := true, file := [] }

def mctSetFilesizeMax (user : FileUser) (filesize : UInt32) : MctReturnValue × FileUser :=
  if user.mctIsFile = false then (.error, user)
  else if filesize = 0 then (.ok, { user with filesizeMax := 4294967295 })
  else (.ok, { user with filesizeMax := filesize })

/-- The branch of `mct_user_log_send_log` for a file, when the write succeeds. -/
def logToFile (user : FileUser) (entry : List UInt8) : MctReturnValue × FileUser :=
  if user.mctUserFileReachMax then (.fileSzErr, user)
  else
    let msgSize := UInt32.ofNat (user.file.length + entry.length)
    if user.filesizeMax < msgSize then (.fileSzErr, { user with mctUserFileReachMax := true })
    else (.ok, { user with file := user.file ++ entry })

def sendLog (user : FileUser) (call : FileCall) : MctReturnValue × FileUser :=
  match call.message with
  | none => (if call.context.contextID.head? = some 0 then .wrongParameter else .error, user)
  | some message => user.logToFile (call.entry message)

end FileUser

/-- A program that starts to log to a new file, with its call of `mct_set_filesize_max`. -/
def startLogging (filesize : Option UInt32) : FileUser :=
  match filesize with
  | none => FileUser.atStart.mctInitFile
  | some filesize => (FileUser.atStart.mctInitFile.mctSetFilesizeMax filesize).2

def logAll (user : FileUser) (calls : List FileCall) : FileUser :=
  calls.foldl (fun user call => (user.sendLog call).2) user

end Model

section Meaning

def entries (calls : List FileCall) : List (List UInt8) :=
  calls.filterMap fun call => call.message.map call.entry

def fileLimit (filesize : Option UInt32) : Option Nat :=
  match filesize with
  | none => none
  | some filesize => if filesize = 0 then none else some filesize.toNat

/-- The entries in front of the first one that would make the file larger than the limit. -/
def withinLimit (limit : Option Nat) : Nat → List (List UInt8) → List (List UInt8)
  | _, [] => []
  | size, entry :: rest =>
      if limit.any (· < size + entry.length) then []
      else entry :: withinLimit limit (size + entry.length) rest

/-- The file holds the messages up to the limit, whole and in their order, and it is no larger
than the limit. -/
structure KeepsLimit (filesize : Option UInt32) (calls : List FileCall) : Prop where
  holds : (logAll (startLogging filesize) calls).file =
    (withinLimit (fileLimit filesize) 0 (entries calls)).flatten
  bounded : ∀ limit ∈ fileLimit filesize,
    (logAll (startLogging filesize) calls).file.length ≤ limit

/-- In a file of this size, the first of the entries that would make it larger than the limit
leaves its size in 32 bits. -/
def NoWrap (limit size : Nat) (all : List (List UInt8)) : Prop :=
  ∀ front entry back, all = front ++ entry :: back → size + front.flatten.length ≤ limit →
    limit < size + front.flatten.length + entry.length →
      size + front.flatten.length + entry.length < 4294967296

/-- The size was set, and no entry passes the limit by a size beyond 32 bits; or nothing is
logged. -/
def LimitApplies (filesize : Option UInt32) (calls : List FileCall) : Prop :=
  entries calls = [] ∨
    filesize.isSome ∧ ∀ limit ∈ fileLimit filesize, NoWrap limit 0 (entries calls)

end Meaning

section Sizes

theorem LogMessage.headers_length_add (message : LogMessage) :
    (message.headers ++ message.payload).length = message.len := by
  simp [LogMessage.headers, LogMessage.len, sizeofMctStandardHeader]
  omega

theorem storageHeader_length (call : FileCall) : call.storageHeader.length = 16 := by
  simp [FileCall.storageHeader, storagePattern, (setIdBytes call.settings.ecuID).length_eq,
    mctIdSize]

theorem message_len_le {call : FileCall} {message : LogMessage}
    (h : call.message = some message) : message.len ≤ 65535 := by
  simp only [FileCall.message, mctUserLogSendLog, Option.ite_none_left_eq_some,
    Option.some.injEq] at h
  obtain ⟨-, hlen, heq⟩ := h
  rw [← heq]
  exact Nat.le_of_not_gt hlen

/-- An entry is not empty and not larger than a message with its storage header. -/
theorem entry_length {calls : List FileCall} {entry : List UInt8} (h : entry ∈ entries calls) :
    0 < entry.length ∧ entry.length ≤ 65551 := by
  obtain ⟨call, -, hentry⟩ := List.mem_filterMap.mp h
  obtain ⟨message, hmessage, rfl⟩ := Option.map_eq_some_iff.mp hentry
  have hlen := message_len_le hmessage
  have hsize : (call.entry message).length = 16 + message.len := by
    rw [FileCall.entry, List.append_assoc, List.length_append, storageHeader_length,
      message.headers_length_add]
  omega

end Sizes

section Run

/-- The entries that the code appends: the size in 32 bits is compared. -/
def appended (filesizeMax : UInt32) : Nat → List (List UInt8) → List (List UInt8)
  | _, [] => []
  | size, entry :: rest =>
      if filesizeMax < UInt32.ofNat (size + entry.length) then []
      else entry :: appended filesizeMax (size + entry.length) rest

variable (user : FileUser)

/-- A refused call changes nothing, so that the calls are their entries. -/
theorem logAll_eq_foldl (calls : List FileCall) :
    logAll user calls =
      (entries calls).foldl (fun user entry => (user.logToFile entry).2) user := by
  induction calls generalizing user with
  | nil => rfl
  | cons call calls ih =>
      rw [logAll, List.foldl_cons, ← logAll, ih]
      unfold FileUser.sendLog entries
      cases hmessage : call.message with
      | none => simp [hmessage]
      | some message => simp [hmessage]

/-- Once the maximum is reached, nothing is appended. -/
theorem foldl_reached (all : List (List UInt8)) (h : user.mctUserFileReachMax) :
    all.foldl (fun user entry => (user.logToFile entry).2) user = user := by
  induction all with
  | nil => rfl
  | cons entry rest ih =>
      have hstep : (user.logToFile entry).2 = user := by
        rw [FileUser.logToFile, if_pos h]
      rw [List.foldl_cons, hstep, ih]

theorem logToFile_over {entry : List UInt8} (h : user.mctUserFileReachMax = false)
    (hover : user.filesizeMax < UInt32.ofNat (user.file.length + entry.length)) :
    (user.logToFile entry).2 = { user with mctUserFileReachMax := true } := by
  rw [FileUser.logToFile, if_neg (by simp [h])]
  exact congrArg Prod.snd (if_pos hover)

theorem logToFile_within {entry : List UInt8} (h : user.mctUserFileReachMax = false)
    (hwithin : ¬ user.filesizeMax < UInt32.ofNat (user.file.length + entry.length)) :
    (user.logToFile entry).2 = { user with file := user.file ++ entry } := by
  rw [FileUser.logToFile, if_neg (by simp [h])]
  exact congrArg Prod.snd (if_neg hwithin)

/-- The file after any number of entries. -/
theorem file_foldl (all : List (List UInt8)) (h : user.mctUserFileReachMax = false) :
    (all.foldl (fun user entry => (user.logToFile entry).2) user).file =
      user.file ++ (appended user.filesizeMax user.file.length all).flatten := by
  induction all generalizing user with
  | nil => simp [appended]
  | cons entry rest ih =>
      rw [List.foldl_cons, appended]
      by_cases hover : user.filesizeMax < UInt32.ofNat (user.file.length + entry.length)
      · rw [logToFile_over user h hover, if_pos hover, foldl_reached _ _ rfl]
        simp
      · rw [logToFile_within user h hover, if_neg hover]
        have hrest := ih { user with file := user.file ++ entry } h
        rw [List.length_append] at hrest
        rw [hrest, List.flatten_cons, List.append_assoc]

end Run

section Limits

theorem flatten_ne_nil {all : List (List UInt8)} (hne : all ≠ [])
    (hsize : ∀ entry ∈ all, 0 < entry.length) : all.flatten ≠ [] := by
  obtain ⟨entry, rest, rfl⟩ := List.exists_cons_of_ne_nil hne
  intro hnil
  have hlen := hsize entry List.mem_cons_self
  rw [List.flatten_cons, List.append_eq_nil_iff] at hnil
  rw [hnil.1] at hlen
  exact absurd hlen (Nat.lt_irrefl 0)

/-- Without a limit every entry is appended. -/
theorem appended_max (size : Nat) (all : List (List UInt8)) :
    appended 4294967295 size all = all := by
  induction all generalizing size with
  | nil => rfl
  | cons entry rest ih =>
      have hle : ¬ (4294967295 : UInt32) < UInt32.ofNat (size + entry.length) := by
        rw [UInt32.lt_iff_toNat_lt]
        have hlt := (UInt32.ofNat (size + entry.length)).toNat_lt
        simp only [UInt32.reduceToNat]
        omega
      rw [appended, if_neg hle, ih]

theorem withinLimit_none (size : Nat) (all : List (List UInt8)) :
    withinLimit none size all = all := by
  induction all generalizing size with
  | nil => rfl
  | cons entry rest ih =>
      rw [withinLimit, if_neg (by simp), ih]

/-- Before a size is set, the maximum is zero and no entry is appended. -/
theorem appended_zero {all : List (List UInt8)}
    (hsize : ∀ entry ∈ all, 0 < entry.length ∧ entry.length ≤ 65551) : appended 0 0 all = [] := by
  cases all with
  | nil => rfl
  | cons entry rest =>
      obtain ⟨hpos, hle⟩ := hsize entry List.mem_cons_self
      have hlt : (0 : UInt32) < UInt32.ofNat (0 + entry.length) := by
        have hsmall : 0 + entry.length < UInt32.size :=
          lt_of_le_of_lt (b := 65551) (by omega) (by decide)
        rw [UInt32.lt_iff_toNat_lt, UInt32.toNat_ofNat_of_lt' hsmall]
        simp only [UInt32.reduceToNat]
        omega
      rw [appended, if_pos hlt]

variable {limit : UInt32} {size : Nat} {entry : List UInt8} {rest : List (List UInt8)}

theorem withinLimit_le (hsize : size ≤ limit.toNat) (all : List (List UInt8)) :
    size + (withinLimit (some limit.toNat) size all).flatten.length ≤ limit.toNat := by
  induction all generalizing size with
  | nil => simpa [withinLimit] using hsize
  | cons entry rest ih =>
      rw [withinLimit]
      split
      · simpa using hsize
      · next hover =>
          have hnext : size + entry.length ≤ limit.toNat := by simpa using hover
          have hrest := ih hnext
          rw [List.flatten_cons, List.length_append]
          omega

theorem noWrap_cons {limit : Nat} :
    NoWrap limit size (entry :: rest) ↔
      (size ≤ limit → limit < size + entry.length → size + entry.length < 4294967296) ∧
        NoWrap limit (size + entry.length) rest := by
  constructor
  · intro h
    constructor
    · intro hsize hover
      exact h [] entry rest rfl hsize hover
    · intro front other back hrest hwithin hover
      have hlen : (entry :: front).flatten.length = entry.length + front.flatten.length := by
        rw [List.flatten_cons, List.length_append]
      have hnext := h (entry :: front) other back (by rw [hrest]; rfl)
      rw [hlen, ← Nat.add_assoc] at hnext
      exact hnext hwithin hover
  · rintro ⟨hfirst, hrest⟩ front other back hall hwithin hover
    cases front with
    | nil =>
        obtain ⟨rfl, rfl⟩ := List.cons_eq_cons.mp hall
        exact hfirst hwithin hover
    | cons first front =>
        obtain ⟨rfl, hback⟩ := List.cons_eq_cons.mp hall
        rw [List.flatten_cons, List.length_append, ← Nat.add_assoc] at hwithin hover ⊢
        exact hrest front other back hback hwithin hover

/-- Behind an entry that makes the file larger than the limit, nothing is asked. -/
theorem noWrap_of_over {limit : Nat} (h : limit < size) (all : List (List UInt8)) :
    NoWrap limit size all := by
  intro front other back _ hwithin
  omega

/-- The code appends what the limit allows if and only if no sum wraps past it. -/
theorem appended_eq_iff (hsize : size ≤ limit.toNat) {all : List (List UInt8)}
    (hentries : ∀ entry ∈ all, 0 < entry.length ∧ entry.length ≤ 65551) :
    (appended limit size all).flatten = (withinLimit (some limit.toNat) size all).flatten ↔
      NoWrap limit.toNat size all := by
  induction all generalizing size with
  | nil =>
      constructor
      · intro _ front other back hall
        simp at hall
      · intro _
        rfl
  | cons entry rest ih =>
      obtain ⟨hpos, hmax⟩ := hentries entry List.mem_cons_self
      have hrest : ∀ other ∈ rest, 0 < other.length ∧ other.length ≤ 65551 :=
        fun other hother => hentries other (List.mem_cons_of_mem _ hother)
      have hlimit : limit.toNat < 4294967296 := limit.toNat_lt
      have htest : limit < UInt32.ofNat (size + entry.length) ↔
          limit.toNat < (size + entry.length) % 4294967296 := by
        rw [UInt32.lt_iff_toNat_lt, UInt32.toNat_ofNat']
      rw [noWrap_cons, appended, withinLimit]
      by_cases hwithin : size + entry.length ≤ limit.toNat
      · have hmod : (size + entry.length) % 4294967296 = size + entry.length :=
          Nat.mod_eq_of_lt (by omega)
        rw [if_neg (by rw [htest]; omega), if_neg (by simpa using hwithin), List.flatten_cons,
          List.flatten_cons, List.append_cancel_left_eq, ih hwithin hrest]
        constructor
        · intro h
          exact ⟨by omega, h⟩
        · intro h
          exact h.2
      · rw [if_pos (show (some limit.toNat).any (· < size + entry.length) = true by
          simpa using hwithin)]
        by_cases hwrap : size + entry.length < 4294967296
        · have hmod : (size + entry.length) % 4294967296 = size + entry.length :=
            Nat.mod_eq_of_lt hwrap
          rw [if_pos (by rw [htest]; omega)]
          constructor
          · intro _
            exact ⟨fun _ _ => hwrap, noWrap_of_over (by omega) rest⟩
          · intro _
            rfl
        · -- the wrapped sum is below the limit, which is near the largest number
          rw [if_neg (by rw [htest]; omega), List.flatten_cons, List.flatten_nil]
          constructor
          · intro hnil
            have hlen := congrArg List.length hnil
            rw [List.length_append, List.length_nil] at hlen
            omega
          · intro h
            exact absurd (h.1 hsize (by omega)) hwrap

end Limits

section Settled

variable (filesize : Option UInt32) (calls : List FileCall)

theorem startLogging_some {filesize : UInt32} (h : filesize ≠ 0) :
    startLogging (some filesize) =
      { FileUser.atStart.mctInitFile with filesizeMax := filesize } := by
  simp [startLogging, FileUser.mctSetFilesizeMax, FileUser.mctInitFile, h]

theorem file_logAll :
    (logAll (startLogging filesize) calls).file =
      (appended (startLogging filesize).filesizeMax 0 (entries calls)).flatten := by
  rw [logAll_eq_foldl]
  cases filesize with
  | none => exact file_foldl _ (entries calls) rfl
  | some filesize =>
      by_cases hzero : filesize = 0
      · subst hzero
        exact file_foldl _ (entries calls) rfl
      · rw [startLogging_some hzero]
        exact file_foldl _ (entries calls) rfl

theorem keepsLimit_of_holds
    (h : (logAll (startLogging filesize) calls).file =
      (withinLimit (fileLimit filesize) 0 (entries calls)).flatten) :
    KeepsLimit filesize calls := by
  refine ⟨h, fun limit hlimit => ?_⟩
  obtain ⟨size, rfl⟩ : ∃ size : UInt32, limit = size.toNat := by
    cases filesize with
    | none => cases hlimit
    | some size =>
        refine ⟨size, ?_⟩
        simp only [fileLimit, Option.mem_def, Option.ite_none_left_eq_some,
          Option.some.injEq] at hlimit
        exact hlimit.2.symm
  have hle : 0 + (withinLimit (some size.toNat) 0 (entries calls)).flatten.length ≤ size.toNat :=
    withinLimit_le (Nat.zero_le _) (entries calls)
  rw [h, Option.mem_def.mp hlimit]
  simpa using hle

/-- Where the limit applies, the file has what the limit allows. -/
theorem flatten_appended (h : LimitApplies filesize calls) :
    (appended (startLogging filesize).filesizeMax 0 (entries calls)).flatten =
      (withinLimit (fileLimit filesize) 0 (entries calls)).flatten := by
  rcases h with hnil | ⟨hset, hwrap⟩
  · rw [hnil]
    rfl
  · cases filesize with
    | none => cases hset
    | some filesize =>
        by_cases hzero : filesize = 0
        · subst hzero
          rw [show (startLogging (some 0)).filesizeMax = 4294967295 from rfl, appended_max]
          rw [show fileLimit (some 0) = none from rfl, withinLimit_none]
        · have hlimit : fileLimit (some filesize) = some filesize.toNat := if_neg hzero
          rw [startLogging_some hzero, hlimit]
          apply (appended_eq_iff (Nat.zero_le _) fun entry hentry => entry_length hentry).mpr
          exact hwrap filesize.toNat hlimit

/-- Logging to a file keeps its limit exactly if the size was set and no sum wraps past it. -/
theorem keepsLimit_iff : KeepsLimit filesize calls ↔ LimitApplies filesize calls := by
  have hsize : ∀ entry ∈ entries calls, 0 < entry.length ∧ entry.length ≤ 65551 :=
    fun entry hentry => entry_length hentry
  have hfile := file_logAll filesize calls
  constructor
  · intro h
    have hholds := hfile.symm.trans h.holds
    cases filesize with
    | none =>
        left
        by_contra hne
        apply flatten_ne_nil hne fun entry hentry => (hsize entry hentry).1
        rw [fileLimit, withinLimit_none] at hholds
        rw [← hholds]
        exact congrArg List.flatten (appended_zero hsize)
    | some filesize =>
        right
        refine ⟨rfl, fun limit hlimit => ?_⟩
        simp only [fileLimit, Option.mem_def, Option.ite_none_left_eq_some,
          Option.some.injEq] at hlimit
        obtain ⟨hzero, rfl⟩ := hlimit
        rw [startLogging_some hzero, fileLimit, if_neg hzero] at hholds
        exact (appended_eq_iff (Nat.zero_le _) hsize).mp hholds
  · intro h
    exact keepsLimit_of_holds filesize calls (hfile.trans (flatten_appended filesize calls h))

/-- A call that logs one message without a payload. -/
def oneCall : FileCall where
  settings := ⟨true, true, true, false, true, [69, 67, 85, 49], [65, 80, 80, 49], 7⟩
  context := ⟨[67, 84, 88, 49], 0, 4, 0, 9⟩
  log := ⟨[], 0, 0, false⟩
  mtype := .log
  seconds := 0
  microseconds := 0

/-- Without a call of `mct_set_filesize_max` the first message is already too large. -/
theorem oneCall_not_kept : ¬ KeepsLimit none [oneCall] := by
  intro h
  exact absurd h.holds (by decide)

end Settled

end MctDaemon.User
