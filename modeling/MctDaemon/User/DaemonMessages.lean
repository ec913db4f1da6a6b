import MctDaemon.Lib.Run
import MctDaemon.User.CheckUserMessage

/-!
The stream of messages that the daemon sends to an application, with other bytes
between them, and what becomes of it in the rounds of the library.
-/

namespace MctDaemon.User

open Lib Shared

section Messages

inductive DaemonMessage where
  | logLevel (logLevel traceStatus : UInt8) (logLevelPos : Int)
  | injection (logLevelPos : Int) (serviceId : Nat) (data : List UInt8)
  | logState (logState : UInt8)
  | setBlockMode (blockMode : UInt8)
  deriving DecidableEq, Repr

/-- The bytes of an `int32_t`. -/
def int32Bytes (n : Int) : List UInt8 := leBytes 4 (uint32 n)

def IsInt32 (n : Int) : Prop := -2147483648 ≤ n ∧ n < 2147483648

instance (n : Int) : Decidable (IsInt32 n) := inferInstanceAs (Decidable (_ ∧ _))

namespace DaemonMessage

def mtype : DaemonMessage → Nat
  | .logLevel .. => mctUserMessageLogLevel
  | .injection .. => mctUserMessageInjection
  | .logState _ => mctUserMessageLogState
  | .setBlockMode _ => mctUserMessageSetBlockMode

def body : DaemonMessage → List UInt8
  | .logLevel level status pos => level :: status :: int32Bytes pos
  | .injection pos serviceId data =>
      int32Bytes pos ++ (leBytes 4 serviceId ++ (leBytes 4 data.length ++ data))
  | .logState state => [state]
  | .setBlockMode mode => [mode]

def bytes (message : DaemonMessage) : List UInt8 := userHeader message.mtype ++ message.body

/-- The fields have the values of their types, and the message fits the receive
buffer. -/
def WellFormed (message : DaemonMessage) : Prop :=
  message.bytes.length ≤ mctUserRcvbufMaxSize ∧
    match message with
    | .logLevel _ _ pos => IsInt32 pos
    | .injection pos serviceId _ => IsInt32 pos ∧ serviceId < 4294967296
    | .logState _ => True
    | .setBlockMode _ => True

instance (message : DaemonMessage) : Decidable message.WellFormed :=
  match message with
  | .logLevel .. => inferInstanceAs (Decidable (_ ∧ _))
  | .injection .. => inferInstanceAs (Decidable (_ ∧ _))
  | .logState _ => inferInstanceAs (Decidable (_ ∧ True))
  | .setBlockMode _ => inferInstanceAs (Decidable (_ ∧ True))

end DaemonMessage

def act (s : UserLevels) : DaemonMessage → UserLevels
  | .logLevel logLevel traceStatus logLevelPos =>
      let updated := updateLogLevel s none logLevel traceStatus logLevelPos
      callLogLevelChanged updated.1 updated.2
  | .injection logLevelPos serviceId data =>
      match s.mctLlTs with
      | none => s
      | some entries =>
          if data = [] then s
          else
            let s := s.withEffects [.entryUsed logLevelPos]
            match (entries logLevelPos).injectionTable.find? (·.serviceId = serviceId) with
            | none => s
            | some item => callInjection s item data
  | .logState logState => { s with logState := logState.toInt8 }
  | .setBlockMode blockMode => setBlockMode s blockMode.toInt8

/-- The same within a round, with the callback that an earlier message of the
round has left to call. -/
def actInRound (state : UserLevels × Option MctUserLogLevelChangedCallback) :
    DaemonMessage → UserLevels × Option MctUserLogLevelChangedCallback
  | .logLevel logLevel traceStatus logLevelPos =>
      let updated := updateLogLevel state.1 state.2 logLevel traceStatus logLevelPos
      (callLogLevelChanged updated.1 updated.2, updated.2)
  | message => (act state.1 message, state.2)

end Messages

section Scan

/-- A user header pattern stands at this position. -/
def HeaderAt (bytes : List UInt8) (pos : Nat) : Prop :=
  mctUserCheckUserheader (bytes.drop pos) = true

def NoHeader (bytes : List UInt8) : Prop := ¬ userHeaderPattern <:+: bytes

instance (bytes : List UInt8) : Decidable (NoHeader bytes) := inferInstanceAs (Decidable (¬ _))

theorem headerAt_iff {bytes : List UInt8} {pos : Nat} :
    HeaderAt bytes pos ↔ (bytes.drop pos).take 4 = userHeaderPattern := by
  unfold HeaderAt mctUserCheckUserheader
  exact decide_eq_true_iff

theorem userHeaderOffset_eq_some {bytes : List UInt8} {pos : Nat}
    (hlength : pos + sizeofMctUserHeader ≤ bytes.length) (hat : HeaderAt bytes pos)
    (hbefore : ∀ j < pos, ¬ HeaderAt bytes j) : userHeaderOffset bytes = some pos := by
  induction bytes generalizing pos with
  | nil =>
      unfold sizeofMctUserHeader at hlength
      simp at hlength
  | cons byte bytes ih =>
      unfold userHeaderOffset
      rw [if_neg (by omega)]
      cases pos with
      | zero =>
          rw [if_pos (show mctUserCheckUserheader (byte :: bytes) = true from hat)]
      | succ pos =>
          rw [if_neg (show ¬ mctUserCheckUserheader (byte :: bytes) = true from
            hbefore 0 (Nat.succ_pos pos))]
          rw [List.length_cons] at hlength
          rw [ih (by omega) hat fun j hj => hbefore (j + 1) (Nat.succ_lt_succ hj)]
          rfl

theorem userHeaderOffset_found {bytes : List UInt8} {pos : Nat}
    (h : userHeaderOffset bytes = some pos) : HeaderAt bytes pos := by
  induction bytes generalizing pos with
  | nil => cases h
  | cons byte bytes ih =>
      unfold userHeaderOffset at h
      split at h
      · cases h
      · split at h
        · rename_i hcheck
          cases h
          exact hcheck
        · obtain ⟨rest, hrest, rfl⟩ := Option.map_eq_some_iff.mp h
          exact ih hrest

theorem userHeaderOffset_eq_none {bytes : List UInt8}
    (hnone : ∀ j, j + sizeofMctUserHeader ≤ bytes.length → ¬ HeaderAt bytes j) :
    userHeaderOffset bytes = none := by
  cases hfound : userHeaderOffset bytes with
  | none => rfl
  | some pos =>
      exact absurd (userHeaderOffset_found hfound) (hnone pos (userHeaderOffset_lt hfound))

/-- A pattern is where its four bytes are. -/
theorem HeaderAt.byte {bytes : List UInt8} {pos : Nat} (h : HeaderAt bytes pos) {i : Nat}
    (hi : i < 4) : bytes[pos + i]? = userHeaderPattern[i]? := by
  rw [← headerAt_iff.mp h, List.getElem?_take_of_lt hi, List.getElem?_drop]

theorem HeaderAt.length_le {bytes : List UInt8} {pos : Nat} (h : HeaderAt bytes pos) :
    pos + 4 ≤ bytes.length := by
  have hlength := congrArg List.length (headerAt_iff.mp h)
  rw [List.length_take, List.length_drop, show userHeaderPattern.length = 4 from rfl] at hlength
  omega

/-- Bytes without a pattern have none at any position. -/
theorem NoHeader.not_headerAt {bytes : List UInt8} (h : NoHeader bytes) (pos : Nat) :
    ¬ HeaderAt bytes pos := by
  intro hat
  refine h ⟨bytes.take pos, bytes.drop (pos + 4), ?_⟩
  rw [← headerAt_iff.mp hat, ← List.drop_drop, List.append_assoc, List.take_append_drop,
    List.take_append_drop]

/-- No pattern begins in bytes without one that are followed by a user header. -/
theorem NoHeader.not_headerAt_append {gap : List UInt8} (h : NoHeader gap) (mtype : Nat)
    (tail : List UInt8) {pos : Nat} (hpos : pos < gap.length) :
    ¬ HeaderAt (gap ++ (userHeader mtype ++ tail)) pos := by
  intro hat
  by_cases hinside : pos + 4 ≤ gap.length
  · refine h.not_headerAt pos (headerAt_iff.mpr ?_)
    rw [← headerAt_iff.mp hat, List.drop_append_of_le_length hpos.le,
      List.take_append_of_le_length (by rw [List.length_drop]; omega)]
  · -- the pattern would have its first byte a second time
    have hfirst : (gap ++ (userHeader mtype ++ tail))[gap.length]? = some 68 := by
      rw [List.getElem?_append_right (le_refl _), Nat.sub_self]
      rfl
    obtain ⟨i, hi⟩ : ∃ i, gap.length = pos + i := ⟨gap.length - pos, by omega⟩
    rw [hi, hat.byte (by omega)] at hfirst
    have hcases : i = 1 ∨ i = 2 ∨ i = 3 := by omega
    rcases hcases with rfl | rfl | rfl
    · cases hfirst
    · cases hfirst
    · cases hfirst

theorem headerAt_gap (gap : List UInt8) (mtype : Nat) (tail : List UInt8) :
    HeaderAt (gap ++ (userHeader mtype ++ tail)) gap.length := by
  unfold HeaderAt
  rw [List.drop_left]
  exact checkUserheader_append mtype tail

/-- The header behind a gap is found. -/
theorem userHeaderOffset_gap {gap : List UInt8} (h : NoHeader gap) (mtype : Nat)
    (tail : List UInt8) :
    userHeaderOffset (gap ++ (userHeader mtype ++ tail)) = some gap.length := by
  refine userHeaderOffset_eq_some ?_ (headerAt_gap gap mtype tail) fun j hj =>
    h.not_headerAt_append mtype tail hj
  simp [sizeofMctUserHeader]

/-- It is not found before its eighth byte is there. -/
theorem userHeaderOffset_short {gap bytes more tail : List UInt8} (h : NoHeader gap) {mtype : Nat}
    (hstream : bytes ++ more = gap ++ (userHeader mtype ++ tail))
    (hshort : bytes.length < gap.length + sizeofMctUserHeader) : userHeaderOffset bytes = none := by
  refine userHeaderOffset_eq_none fun j hj hat => ?_
  have hbefore : j < gap.length := by omega
  refine h.not_headerAt_append mtype tail hbefore ?_
  rw [← hstream, headerAt_iff, ← headerAt_iff.mp hat]
  unfold sizeofMctUserHeader at hj
  rw [List.drop_append_of_le_length (by omega),
    List.take_append_of_le_length (by rw [List.length_drop]; omega)]

theorem userHeaderOffset_trail {bytes more trail : List UInt8} (h : NoHeader trail)
    (hstream : bytes ++ more = trail) : userHeaderOffset bytes = none := by
  refine userHeaderOffset_eq_none fun j _ hat => h.not_headerAt j ?_
  rw [← hstream, headerAt_iff, ← headerAt_iff.mp hat]
  have hlength := hat.length_le
  rw [List.drop_append_of_le_length (by omega),
    List.take_append_of_le_length (by rw [List.length_drop]; omega)]

end Scan

section Turns

variable {malloc : Malloc} {mem bytes more tail : List UInt8} {round : UserRound}
  {message : DaemonMessage}

/-- A front that has arrived, and the stream behind it. -/
theorem split_stream {front : List UInt8} (hstream : bytes ++ more = front ++ tail)
    (hlength : front.length ≤ bytes.length) :
    bytes = front ++ bytes.drop front.length ∧ bytes.drop front.length ++ more = tail := by
  have htake : bytes.take front.length = front := by
    rw [← List.take_append_of_le_length hlength, hstream, List.take_left]
  have hbytes : front ++ bytes.drop front.length = bytes := by
    conv_rhs => rw [← List.take_append_drop front.length bytes, htake]
  refine ⟨hbytes.symm, ?_⟩
  rw [← hbytes, List.append_assoc] at hstream
  exact List.append_cancel_left hstream

theorem uint32_lt (n : Int) : uint32 n < 4294967296 := by
  unfold uint32
  omega

theorem int32_int32Bytes {n : Int} (h : IsInt32 n) : int32 (leNat (int32Bytes n)) = n := by
  obtain ⟨hlow, hhigh⟩ := h
  rw [int32Bytes, leNat_leBytes 4 _ (uint32_lt n)]
  unfold int32 uint32
  omega

@[simp] theorem int32Bytes_length (n : Int) : (int32Bytes n).length = 4 := leBytes_length 4 _

/-- What is read at an offset of a stream is what was put there. -/
theorem slice_append {front field back : List UInt8} {off len : Nat} (hoff : off = front.length)
    (hlen : len = field.length) : slice (front ++ (field ++ back)) off len = field := by
  rw [slice, hoff, hlen, List.drop_left, List.take_left]

/-- It does not depend on bytes that come later. -/
theorem slice_of_append {off len : Nat} (hinside : off + len ≤ bytes.length) :
    slice (bytes ++ more) off len = slice bytes off len := by
  rw [slice, slice, List.drop_append_of_le_length (by omega),
    List.take_append_of_le_length (by rw [List.length_drop]; omega)]

theorem mtype_lt (message : DaemonMessage) : message.mtype < 4294967296 := by
  cases message with
  | logLevel level status pos => exact (by decide : mctUserMessageLogLevel < 4294967296)
  | injection pos serviceId data => exact (by decide : mctUserMessageInjection < 4294967296)
  | logState state => exact (by decide : mctUserMessageLogState < 4294967296)
  | setBlockMode mode => exact (by decide : mctUserMessageSetBlockMode < 4294967296)

theorem bytes_length (message : DaemonMessage) :
    message.bytes.length = sizeofMctUserHeader + message.body.length := by
  rw [DaemonMessage.bytes, List.length_append, userHeader_length]
  rfl

/-- The type of the message is in the first eight bytes. -/
theorem read_message_type (hstream : bytes ++ more = message.bytes ++ tail)
    (hheader : sizeofMctUserHeader ≤ bytes.length) :
    leNat (slice bytes 4 4) = message.mtype := by
  unfold sizeofMctUserHeader at hheader
  have hslice : slice (bytes ++ more) 4 4 = slice bytes 4 4 := slice_of_append (by omega)
  rw [← hslice, hstream, DaemonMessage.bytes, List.append_assoc,
    read_mtype (mtype_lt message)]

/-- A message of fixed size that is there is acted on and removed. -/
theorem fixed_complete {size : Nat} {step : UserRound → UserRound}
    (hreceiver : ∀ round, (step round).receiver = round.receiver)
    (hpresents : Presents mem round.receiver bytes)
    (hsize : sizeofMctUserHeader + size ≤ bytes.length) :
    ∃ next, round.fixed size step = .again next ∧
      Presents mem next.receiver (bytes.drop (sizeofMctUserHeader + size)) ∧
      next.levels = (step round).levels ∧ next.delayed = (step round).delayed := by
  refine ⟨(step round).remove (sizeofMctUserHeader + size), ?_, ?_, rfl, rfl⟩
  · unfold UserRound.fixed
    rw [if_neg (by rw [hpresents.count_eq]; omega)]
  · unfold UserRound.remove
    rw [hreceiver]
    exact (hpresents.remove _ (by unfold sizeofMctUserHeader; omega) hsize).2.2

theorem fixed_incomplete {size : Nat} {step : UserRound → UserRound}
    (hpresents : Presents mem round.receiver bytes)
    (hsize : bytes.length < sizeofMctUserHeader + size) :
    round.fixed size step = .leave round := by
  unfold UserRound.fixed
  rw [if_pos (by rw [hpresents.count_eq]; omega)]

/-- What is known of the fields of an injection at the start of a stream. -/
theorem read_injection {pos : Int} {serviceId : Nat} {data : List UInt8} (hpos : IsInt32 pos)
    (hid : serviceId < 4294967296) (hlength : data.length < 4294967296)
    (hstream : bytes ++ more = (DaemonMessage.injection pos serviceId data).bytes ++ tail)
    (hheader : 20 ≤ bytes.length) :
    int32 (leNat (slice bytes 8 4)) = pos ∧ leNat (slice bytes 12 4) = serviceId ∧
      leNat (slice bytes 16 4) = data.length := by
  have hfields : bytes ++ more = userHeader mctUserMessageInjection ++ (int32Bytes pos ++
      (leBytes 4 serviceId ++ (leBytes 4 data.length ++ (data ++ tail)))) := by
    rw [hstream]
    simp [DaemonMessage.bytes, DaemonMessage.mtype, DaemonMessage.body]
  have hstays : ∀ off len, off + len ≤ 20 → slice bytes off len = slice (bytes ++ more) off len :=
    fun off len hle => (slice_of_append (by omega)).symm
  have hposition : slice bytes 8 4 = int32Bytes pos := by
    rw [hstays 8 4 (by omega), hfields]
    exact slice_append (by simp) (by simp)
  have hservice : slice bytes 12 4 = leBytes 4 serviceId := by
    rw [hstays 12 4 (by omega), hfields, ← List.append_assoc]
    exact slice_append (by simp) (by simp)
  have hdata : slice bytes 16 4 = leBytes 4 data.length := by
    rw [hstays 16 4 (by omega), hfields, ← List.append_assoc, ← List.append_assoc]
    exact slice_append (by simp) (by simp)
  rw [hposition, hservice, hdata, int32_int32Bytes hpos, leNat_leBytes 4 _ hid,
    leNat_leBytes 4 _ hlength]
  exact ⟨rfl, rfl, rfl⟩

/-- An injection whose data can be copied does what the message says. -/
theorem inject_eq (halloc : ∀ n, malloc.block n ≠ none) (s : UserLevels) (pos : Int)
    (serviceId : Nat) (data behind : List UInt8) :
    inject malloc s pos serviceId data.length (data ++ behind) =
      some (act s (.injection pos serviceId data)) := by
  unfold inject
  cases hentries : s.mctLlTs with
  | none => simp [act, hentries]
  | some entries =>
      dsimp only
      by_cases hdata : data = []
      · simp [act, hentries, hdata]
      · have hpos : 0 < data.length := List.length_pos_iff.mpr hdata
        rw [if_pos hpos]
        simp only [act, hentries, if_neg hdata]
        cases (entries pos).injectionTable.find? (·.serviceId = serviceId) with
        | none => rfl
        | some item =>
            dsimp only
            cases hblock : malloc.block data.length with
            | none => exact absurd hblock (halloc _)
            | some block => simp

theorem injection_complete (halloc : ∀ n, malloc.block n ≠ none) {pos : Int} {serviceId : Nat}
    {data : List UInt8} (hpos : IsInt32 pos) (hid : serviceId < 4294967296)
    (hlength : 20 + data.length < 2147483648)
    (hstream : bytes ++ more = (DaemonMessage.injection pos serviceId data).bytes ++ tail)
    (hpresents : Presents mem round.receiver bytes) (hsize : 20 + data.length ≤ bytes.length) :
    ∃ next, round.injection malloc bytes = .again next ∧
      Presents mem next.receiver (bytes.drop (20 + data.length)) ∧
      next.levels = act round.levels (.injection pos serviceId data) ∧
      next.delayed = round.delayed := by
  obtain ⟨hposition, hservice, hdata⟩ :=
    read_injection hpos hid (by omega) hstream (by omega)
  have hmessage : (DaemonMessage.injection pos serviceId data).bytes.length = 20 + data.length := by
    simp [DaemonMessage.bytes, DaemonMessage.body]
    omega
  have hbehind : ∃ behind, bytes.drop 20 = data ++ behind := by
    have hsplit := (split_stream hstream (by rw [hmessage]; exact hsize)).1
    refine ⟨bytes.drop (DaemonMessage.injection pos serviceId data).bytes.length, ?_⟩
    generalize bytes.drop (DaemonMessage.injection pos serviceId data).bytes.length = behind
      at hsplit
    have hfront : bytes = (userHeader mctUserMessageInjection ++ (int32Bytes pos ++
        (leBytes 4 serviceId ++ leBytes 4 data.length))) ++ (data ++ behind) := by
      rw [hsplit]
      simp [DaemonMessage.bytes, DaemonMessage.mtype, DaemonMessage.body]
    rw [hfront]
    exact List.drop_left' (by simp)
  obtain ⟨behind, hbehind⟩ := hbehind
  have hint : int32 ((20 + data.length : Nat) : Int) = (20 + data.length : Nat) :=
    int32_natCast hlength
  obtain ⟨hok, hbuf, hnext⟩ := hpresents.remove (20 + data.length) (by omega) hsize
  have hremove : mctReceiverRemove round.receiver ((20 + data.length : Nat) : Int) =
      (.ok, (mctReceiverRemove round.receiver ((20 + data.length : Nat) : Int)).2) :=
    Prod.ext hok rfl
  refine ⟨{ round with
    receiver := (mctReceiverRemove round.receiver ((20 + data.length : Nat) : Int)).2
    levels := act round.levels (.injection pos serviceId data) }, ?_, hnext, rfl, rfl⟩
  have hsizes : sizeofMctUserHeader + sizeofMctUserControlMsgInjection = 20 := rfl
  unfold UserRound.injection UserRound.injectionOf
  rw [hsizes, if_neg (by rw [hpresents.count_eq]; omega), hposition, hservice, hdata, hint,
    if_neg (by rw [hpresents.count_eq]; omega), hbehind, inject_eq halloc]
  dsimp only
  rw [hremove]

theorem injection_incomplete {pos : Int} {serviceId : Nat} {data : List UInt8} (hpos : IsInt32 pos)
    (hid : serviceId < 4294967296) (hlength : 20 + data.length < 2147483648)
    (hstream : bytes ++ more = (DaemonMessage.injection pos serviceId data).bytes ++ tail)
    (hpresents : Presents mem round.receiver bytes) (hsize : bytes.length < 20 + data.length) :
    round.injection malloc bytes = .leave round := by
  have hsizes : sizeofMctUserHeader + sizeofMctUserControlMsgInjection = 20 := rfl
  unfold UserRound.injection
  by_cases hheader : bytes.length < 20
  · rw [hsizes, if_pos (by rw [hpresents.count_eq]; exact hheader)]
  · obtain ⟨-, -, hdata⟩ := read_injection hpos hid (by omega) hstream (by omega)
    unfold UserRound.injectionOf
    rw [hsizes, if_neg (by rw [hpresents.count_eq]; exact hheader), hdata,
      int32_natCast hlength, if_pos (by rw [hpresents.count_eq]; omega)]

theorem getD_append {front rest : List UInt8} {byte : UInt8} {off : Nat}
    (hoff : off = front.length) : (front ++ byte :: rest).getD off 0 = byte := by
  rw [hoff]
  simp [List.getD]

/-- What is known of the fields of a LOG_LEVEL message. -/
theorem read_logLevel {level status : UInt8} {pos : Int} (hpos : IsInt32 pos)
    (behind : List UInt8)
    (hbytes : bytes = (DaemonMessage.logLevel level status pos).bytes ++ behind) :
    bytes.getD 8 0 = level ∧ bytes.getD 9 0 = status ∧ int32 (leNat (slice bytes 10 4)) = pos := by
  have hfields : bytes = userHeader mctUserMessageLogLevel ++
      level :: status :: (int32Bytes pos ++ behind) := by
    rw [hbytes]
    simp [DaemonMessage.bytes, DaemonMessage.mtype, DaemonMessage.body]
  refine ⟨?_, ?_, ?_⟩
  · rw [hfields]
    exact getD_append (by simp)
  · have hstatus : bytes = (userHeader mctUserMessageLogLevel ++ [level]) ++
        status :: (int32Bytes pos ++ behind) := by
      rw [hfields]
      simp
    rw [hstatus]
    exact getD_append (by simp)
  · have hposition : bytes = (userHeader mctUserMessageLogLevel ++ [level, status]) ++
        (int32Bytes pos ++ behind) := by
      rw [hfields]
      simp
    have hslice : slice bytes 10 4 = int32Bytes pos := by
      rw [hposition]
      exact slice_append (by simp) (by simp)
    rw [hslice, int32_int32Bytes hpos]

/-- The one byte of a message is behind its user header. -/
theorem read_byte {mtype : Nat} {byte : UInt8} {behind : List UInt8}
    (hbytes : bytes = (userHeader mtype ++ [byte]) ++ behind) : bytes.getD 8 0 = byte := by
  rw [hbytes, List.append_assoc]
  exact getD_append (by simp)

section Cases

variable (malloc : Malloc) (round : UserRound) (bytes : List UInt8)

theorem dispatch_logLevel : round.dispatch malloc bytes mctUserMessageLogLevel =
    round.fixed sizeofMctUserControlMsgLogLevel (UserRound.changeLevel bytes) := by
  unfold UserRound.dispatch
  rw [if_pos rfl]

theorem dispatch_injection : round.dispatch malloc bytes mctUserMessageInjection =
    round.injection malloc bytes := by
  unfold UserRound.dispatch
  rw [if_neg (by decide), if_pos rfl]

theorem dispatch_logState : round.dispatch malloc bytes mctUserMessageLogState =
    round.fixed sizeofMctUserControlMsgLogState (UserRound.changeLogState bytes) := by
  unfold UserRound.dispatch
  rw [if_neg (by decide), if_neg (by decide), if_pos rfl]

theorem dispatch_setBlockMode : round.dispatch malloc bytes mctUserMessageSetBlockMode =
    round.fixed sizeofMctUserControlMsgBlockMode (UserRound.changeBlockMode bytes) := by
  unfold UserRound.dispatch
  rw [if_neg (by decide), if_neg (by decide), if_neg (by decide), if_pos rfl]

end Cases

/-- A message that is there is acted on and removed. -/
theorem dispatch_complete (halloc : ∀ n, malloc.block n ≠ none) (hwell : message.WellFormed)
    (hstream : bytes ++ more = message.bytes ++ tail)
    (hpresents : Presents mem round.receiver bytes)
    (hsize : message.bytes.length ≤ bytes.length) :
    ∃ next, round.dispatch malloc bytes message.mtype = .again next ∧
      Presents mem next.receiver (bytes.drop message.bytes.length) ∧
      (next.levels, next.delayed) = actInRound (round.levels, round.delayed) message := by
  have hsplit := (split_stream hstream hsize).1
  have hlength := bytes_length message
  rw [hlength] at hsize
  cases message with
  | logLevel level status pos =>
      have hbody : (DaemonMessage.logLevel level status pos).body.length =
          sizeofMctUserControlMsgLogLevel := by
        simp [DaemonMessage.body, sizeofMctUserControlMsgLogLevel]
      rw [hbody] at hlength hsize
      obtain ⟨next, hnext, hremoved, hlevels, hdelayed⟩ := fixed_complete
        (UserRound.changeLevel_receiver bytes) hpresents hsize
      obtain ⟨hlevel, hstatus, hpos⟩ := read_logLevel hwell.2 _ hsplit
      refine ⟨next, ?_, by rw [hlength]; exact hremoved, ?_⟩
      · rw [DaemonMessage.mtype, dispatch_logLevel]
        exact hnext
      · rw [hlevels, hdelayed]
        simp only [UserRound.changeLevel, hlevel, hstatus, hpos, actInRound]
  | injection pos serviceId data =>
      have hbody : (DaemonMessage.injection pos serviceId data).body.length = 12 + data.length := by
        simp [DaemonMessage.body]
        omega
      have hheader : sizeofMctUserHeader = 8 := rfl
      obtain ⟨hfits, hpos, hid⟩ := hwell
      unfold mctUserRcvbufMaxSize at hfits
      rw [hbody, hheader, ← Nat.add_assoc] at hlength hsize
      obtain ⟨next, hnext, hremoved, hlevels, hdelayed⟩ := injection_complete halloc hpos hid
        (by omega) hstream hpresents hsize
      refine ⟨next, ?_, by rw [hlength]; exact hremoved, ?_⟩
      · rw [DaemonMessage.mtype, dispatch_injection]
        exact hnext
      · rw [hlevels, hdelayed]
        rfl
  | logState state =>
      obtain ⟨next, hnext, hremoved, hlevels, hdelayed⟩ := fixed_complete
        (UserRound.changeLogState_receiver bytes) hpresents hsize
      refine ⟨next, ?_, by rw [hlength]; exact hremoved, ?_⟩
      · rw [DaemonMessage.mtype, dispatch_logState]
        exact hnext
      · rw [hlevels, hdelayed]
        simp only [UserRound.changeLogState, read_byte hsplit, actInRound, act]
  | setBlockMode mode =>
      obtain ⟨next, hnext, hremoved, hlevels, hdelayed⟩ := fixed_complete
        (UserRound.changeBlockMode_receiver bytes) hpresents hsize
      refine ⟨next, ?_, by rw [hlength]; exact hremoved, ?_⟩
      · rw [DaemonMessage.mtype, dispatch_setBlockMode]
        exact hnext
      · rw [hlevels, hdelayed]
        simp only [UserRound.changeBlockMode, read_byte hsplit, actInRound, act]

/-- The first bytes of a message are left where they are. -/
theorem dispatch_incomplete (malloc : Malloc) (hwell : message.WellFormed)
    (hstream : bytes ++ more = message.bytes ++ tail)
    (hpresents : Presents mem round.receiver bytes)
    (hsize : bytes.length < message.bytes.length) :
    round.dispatch malloc bytes message.mtype = .leave round := by
  cases message with
  | logLevel level status pos =>
      have hbody : (DaemonMessage.logLevel level status pos).body.length =
          sizeofMctUserControlMsgLogLevel := by
        simp [DaemonMessage.body, sizeofMctUserControlMsgLogLevel]
      rw [bytes_length, hbody] at hsize
      rw [DaemonMessage.mtype, dispatch_logLevel, fixed_incomplete hpresents hsize]
  | injection pos serviceId data =>
      have hbytes : (DaemonMessage.injection pos serviceId data).bytes.length =
          20 + data.length := by
        simp [DaemonMessage.bytes, DaemonMessage.body]
        omega
      obtain ⟨hfits, hpos, hid⟩ := hwell
      rw [hbytes] at hsize hfits
      unfold mctUserRcvbufMaxSize at hfits
      rw [DaemonMessage.mtype, dispatch_injection,
        injection_incomplete hpos hid (by omega) hstream hpresents hsize]
  | logState state =>
      rw [bytes_length] at hsize
      rw [DaemonMessage.mtype, dispatch_logState]
      exact fixed_incomplete hpresents hsize
  | setBlockMode mode =>
      rw [bytes_length] at hsize
      rw [DaemonMessage.mtype, dispatch_setBlockMode]
      exact fixed_incomplete hpresents hsize

end Turns

section Streams

/-- The messages, each with the other bytes in front of it, and the bytes behind
the last one. -/
def stream (items : List (List UInt8 × DaemonMessage)) (trail : List UInt8) : List UInt8 :=
  items.flatMap (fun item => item.1 ++ item.2.bytes) ++ trail

theorem stream_cons (gap : List UInt8) (message : DaemonMessage)
    (items : List (List UInt8 × DaemonMessage)) (trail : List UInt8) :
    stream ((gap, message) :: items) trail = gap ++ (message.bytes ++ stream items trail) := by
  simp [stream]

/-- Well-formed messages, and no header among the other bytes. -/
def Clean (items : List (List UInt8 × DaemonMessage)) (trail : List UInt8) : Prop :=
  (∀ item ∈ items, NoHeader item.1 ∧ item.2.WellFormed) ∧ NoHeader trail

instance (items : List (List UInt8 × DaemonMessage)) (trail : List UInt8) :
    Decidable (Clean items trail) :=
  inferInstanceAs (Decidable (_ ∧ _))

/-- The other bytes leave room for a user header behind them, and room at the
end. -/
def Roomy (items : List (List UInt8 × DaemonMessage)) (trail : List UInt8) : Prop :=
  (∀ item ∈ items, item.1.length + sizeofMctUserHeader ≤ mctUserRcvbufMaxSize) ∧
    trail.length < mctUserRcvbufMaxSize

instance (items : List (List UInt8 × DaemonMessage)) (trail : List UInt8) :
    Decidable (Roomy items trail) :=
  inferInstanceAs (Decidable (_ ∧ _))

/-- The messages that are complete within the first `n` bytes of the stream. -/
def delivered : List (List UInt8 × DaemonMessage) → Nat → List DaemonMessage
  | [], _ => []
  | (gap, message) :: items, n =>
      if gap.length + message.bytes.length ≤ n then
        message :: delivered items (n - (gap.length + message.bytes.length))
      else []

theorem Clean.tail {item : List UInt8 × DaemonMessage}
    {items : List (List UInt8 × DaemonMessage)} {trail : List UInt8}
    (h : Clean (item :: items) trail) : Clean items trail :=
  ⟨fun other hother => h.1 other (List.mem_cons_of_mem _ hother), h.2⟩

theorem Roomy.tail {item : List UInt8 × DaemonMessage}
    {items : List (List UInt8 × DaemonMessage)} {trail : List UInt8}
    (h : Roomy (item :: items) trail) : Roomy items trail :=
  ⟨fun other hother => h.1 other (List.mem_cons_of_mem _ hother), h.2⟩

/-- Bytes that the resync has passed are gone from the stream. -/
theorem Clean.passed {gap : List UInt8} {message : DaemonMessage}
    {items : List (List UInt8 × DaemonMessage)} {trail : List UInt8}
    (h : Clean ((gap, message) :: items) trail) : Clean (([], message) :: items) trail := by
  refine ⟨fun item hitem => ?_, h.2⟩
  rcases List.mem_cons.mp hitem with rfl | hmem
  · refine ⟨?_, (h.1 _ List.mem_cons_self).2⟩
    rintro ⟨front, back, hinfix⟩
    simp [userHeaderPattern] at hinfix
  · exact h.1 item (List.mem_cons_of_mem _ hmem)

theorem Roomy.passed {gap : List UInt8} {message : DaemonMessage}
    {items : List (List UInt8 × DaemonMessage)} {trail : List UInt8}
    (h : Roomy ((gap, message) :: items) trail) : Roomy (([], message) :: items) trail := by
  refine ⟨fun item hitem => ?_, h.2⟩
  rcases List.mem_cons.mp hitem with rfl | hmem
  · have hgap := h.1 (gap, message) List.mem_cons_self
    exact le_trans (Nat.add_le_add_right (Nat.zero_le _) _) hgap
  · exact h.1 item (List.mem_cons_of_mem _ hmem)

end Streams

section Loop

variable {malloc : Malloc} {mem bytes later trail : List UInt8} {round : UserRound}
  {message : DaemonMessage} {items : List (List UInt8 × DaemonMessage)}

/-- What the loop leaves: the bytes that are still to be dealt with, at the
start of what is left of the stream. -/
structure Left (items : List (List UInt8 × DaemonMessage)) (trail bytes later rest : List UInt8)
    (items' : List (List UInt8 × DaemonMessage)) : Prop where
  stream_eq : rest ++ later = stream items' trail
  clean : Clean items' trail
  roomy : Roomy items' trail
  room : rest.length < mctUserRcvbufMaxSize
  counts : ∀ k, delivered items (bytes.length + k) =
    delivered items bytes.length ++ delivered items' (rest.length + k)

/-- Nothing is done with bytes that contain no complete user header. -/
theorem turn_none (malloc : Malloc) (hpresents : Presents mem round.receiver bytes)
    (hnone : userHeaderOffset bytes = none) : round.turn malloc mem = .leave round := by
  unfold UserRound.turn
  split
  · rfl
  · rw [hpresents.presented_eq, hnone]

/-- The bytes in front of a header are passed, and the message is looked at. -/
theorem turn_some (malloc : Malloc) (hpresents : Presents mem round.receiver bytes) {offset : Nat}
    (hsome : userHeaderOffset bytes = some offset) :
    ∃ receiver, Presents mem receiver (bytes.drop offset) ∧
      round.turn malloc mem = UserRound.dispatch malloc { round with receiver := receiver }
        (bytes.drop offset) (leNat (slice (bytes.drop offset) 4 4)) := by
  have hinside := userHeaderOffset_lt hsome
  have hle : offset ≤ bytes.length := by omega
  have hadvance := hpresents.advance hle
  refine ⟨_, hadvance, ?_⟩
  unfold UserRound.turn
  rw [if_neg (by rw [hpresents.count_eq]; omega), hpresents.presented_eq, hsome]
  dsimp only
  rw [← hadvance.presented_eq]

theorem userLoop_eq (malloc : Malloc) (mem : List UInt8) (round : UserRound) :
    userLoop malloc mem round =
      match round.turn malloc mem with
      | .leave next => (true, next)
      | .error next => (false, next)
      | .again next => userLoop malloc mem next := by
  rw [userLoop]
  split
  · rename_i next hturn
    rw [hturn]
  · rename_i next hturn
    rw [hturn]
  · rename_i next hturn
    rw [hturn]

theorem delivered_of_short {gap : List UInt8} {n : Nat}
    (h : n < gap.length + message.bytes.length) : delivered ((gap, message) :: items) n = [] := by
  rw [delivered, if_neg (by omega)]

theorem delivered_of_complete {gap : List UInt8} {n : Nat}
    (h : gap.length + message.bytes.length ≤ n) :
    delivered ((gap, message) :: items) n =
      message :: delivered items (n - (gap.length + message.bytes.length)) := by
  rw [delivered, if_pos h]

/-- Bytes that were passed do not count any more. -/
theorem delivered_passed (gap : List UInt8) {n : Nat} (h : gap.length ≤ n) :
    delivered ((gap, message) :: items) n =
      delivered (([], message) :: items) (n - gap.length) := by
  by_cases hcomplete : gap.length + message.bytes.length ≤ n
  · rw [delivered_of_complete hcomplete, delivered_of_complete (by simp; omega)]
    simp only [List.length_nil, Nat.zero_add, Nat.sub_sub]
  · rw [delivered_of_short (by omega), delivered_of_short (by simp; omega)]

/-- While the first message is not complete, the bytes that wait stand at the start of the stream:
all of them before its user header is there, those behind the gap from then on. -/
theorem Left.of_waiting {gap : List UInt8} (hstream : bytes ++ later =
      stream ((gap, message) :: items) trail) (hclean : Clean ((gap, message) :: items) trail)
    (hroomy : Roomy ((gap, message) :: items) trail)
    (hshort : bytes.length < gap.length + sizeofMctUserHeader) :
    Left ((gap, message) :: items) trail bytes later bytes ((gap, message) :: items) := by
  have hnone : bytes.length < gap.length + message.bytes.length := by
    rw [bytes_length]
    omega
  refine ⟨hstream, hclean, hroomy, hshort.trans_le (hroomy.1 _ List.mem_cons_self), fun k => ?_⟩
  rw [delivered_of_short hnone]
  rfl

theorem Left.of_incomplete {gap : List UInt8}
    (hbehind : bytes.drop gap.length ++ later = message.bytes ++ stream items trail)
    (hclean : Clean ((gap, message) :: items) trail)
    (hroomy : Roomy ((gap, message) :: items) trail) (hgap : gap.length ≤ bytes.length)
    (hnone : bytes.length < gap.length + message.bytes.length) :
    Left ((gap, message) :: items) trail bytes later (bytes.drop gap.length)
      (([], message) :: items) := by
  refine ⟨?_, hclean.passed, hroomy.passed, ?_, fun k => ?_⟩
  · rw [stream_cons]
    exact hbehind
  · have hwell : message.WellFormed := (hclean.1 _ List.mem_cons_self).2
    have hsize := hwell.1
    rw [List.length_drop]
    omega
  · rw [delivered_of_short hnone, List.nil_append, delivered_passed gap (by omega),
      List.length_drop]
    congr 1
    omega

theorem Left.of_complete {gap rest : List UInt8} {items' : List (List UInt8 × DaemonMessage)}
    (hcomplete : gap.length + message.bytes.length ≤ bytes.length)
    (hleft : Left items trail (bytes.drop (gap.length + message.bytes.length)) later rest items') :
    Left ((gap, message) :: items) trail bytes later rest items' := by
  refine ⟨hleft.stream_eq, hleft.clean, hleft.roomy, hleft.room, fun k => ?_⟩
  have hcounts := hleft.counts k
  rw [List.length_drop] at hcounts
  rw [delivered_of_complete hcomplete, delivered_of_complete (by omega), List.cons_append,
    ← hcounts]
  congr 2
  omega

/-- The loop acts on the messages that are complete, in their order. The
induction is on the stream; the bytes that are left begin a shorter one. -/
theorem userLoop_stream (halloc : ∀ n, malloc.block n ≠ none)
    (hpresents : Presents mem round.receiver bytes) (hstream : bytes ++ later = stream items trail)
    (hclean : Clean items trail) (hroomy : Roomy items trail) :
    ∃ final rest items', userLoop malloc mem round = (true, final) ∧
      Presents mem final.receiver rest ∧
      (final.levels, final.delayed) =
        (delivered items bytes.length).foldl actInRound (round.levels, round.delayed) ∧
      Left items trail bytes later rest items' := by
  induction items generalizing bytes round with
  | nil =>
      have htrail : bytes ++ later = trail := hstream
      have hturn := turn_none malloc hpresents (userHeaderOffset_trail hclean.2 htrail)
      refine ⟨round, bytes, [], ?_, hpresents, rfl, hstream, hclean, hroomy, ?_, fun _ => rfl⟩
      · rw [userLoop_eq, hturn]
      · have hlength := congrArg List.length htrail
        rw [List.length_append] at hlength
        have hroom := hroomy.2
        omega
  | cons item items ih =>
      obtain ⟨gap, message⟩ := item
      obtain ⟨hgap, hwell⟩ : NoHeader gap ∧ message.WellFormed := hclean.1 _ List.mem_cons_self
      have hparts := hstream
      rw [stream_cons] at hparts
      have hheader : bytes ++ later = gap ++ (userHeader message.mtype ++
          (message.body ++ stream items trail)) := by
        rw [hparts, DaemonMessage.bytes, List.append_assoc]
      by_cases hshort : bytes.length < gap.length + sizeofMctUserHeader
      · -- no user header has arrived completely
        have hturn := turn_none malloc hpresents
          (userHeaderOffset_short hgap hheader hshort)
        refine ⟨round, bytes, (gap, message) :: items, ?_, hpresents, ?_,
          .of_waiting hstream hclean hroomy hshort⟩
        · rw [userLoop_eq, hturn]
        · rw [delivered_of_short (by rw [bytes_length]; omega)]
          rfl
      · obtain ⟨hbytes, hbehind⟩ := split_stream hparts (by omega)
        have hoffset : userHeaderOffset bytes = some gap.length := by
          rw [← List.append_assoc] at hheader
          have hfront := (split_stream hheader (by simp; exact not_lt.mp hshort)).1
          rw [hfront, List.append_assoc]
          exact userHeaderOffset_gap hgap message.mtype _
        obtain ⟨receiver, hpassed, hturn⟩ := turn_some malloc hpresents hoffset
        have htype := read_message_type hbehind (by rw [List.length_drop]; omega)
        rw [htype] at hturn
        have hpassedRound : Presents mem { round with receiver := receiver }.receiver
          (bytes.drop gap.length) := hpassed
        by_cases hcomplete : gap.length + message.bytes.length ≤ bytes.length
        · obtain ⟨next, hnext, hremoved, hacted⟩ := dispatch_complete halloc hwell hbehind
            hpassedRound (by rw [List.length_drop]; omega)
          rw [List.drop_drop] at hremoved
          have hrest := (split_stream hbehind (by rw [List.length_drop]; omega)).2
          rw [List.drop_drop] at hrest
          obtain ⟨final, rest, items', hloop, hfinal, hlevels, hleft⟩ :=
            ih hremoved hrest hclean.tail hroomy.tail
          refine ⟨final, rest, items', ?_, hfinal, ?_, .of_complete hcomplete hleft⟩
          · rw [userLoop_eq, hturn, hnext]
            exact hloop
          · rw [delivered_of_complete hcomplete, List.foldl_cons, hlevels, hacted,
              List.length_drop]
        · -- the header is there, the message is not
          have hleave := dispatch_incomplete malloc hwell hbehind hpassedRound
            (by rw [List.length_drop]; omega)
          refine ⟨{ round with receiver := receiver }, bytes.drop gap.length,
            ([], message) :: items, ?_, hpassed, ?_,
            .of_incomplete hbehind hclean hroomy (by omega) (by omega)⟩
          · rw [userLoop_eq, hturn, hleave]
          · rw [delivered_of_short (by omega)]
            rfl

end Loop

end MctDaemon.User
