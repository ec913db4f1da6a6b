import MctDaemon.User.DaemonMessages

/-!
Every message of the daemon is acted on once, in its order, with its own values,
and only entries of the table are used: in every run in which no injection names
a position outside the table, no callback is left over for a message that names
none, and the other bytes leave room for a user header.
-/

namespace MctDaemon.User

open Lib Shared

section Conditions

def registered (s : UserLevels) (pos : Int) : Option MctLlTsType :=
  if 0 ≤ pos ∧ pos < int32 s.mctLlTsNumEntries then s.mctLlTs.map fun entries => entries pos
  else none

def InTable (s : UserLevels) : DaemonMessage → Prop
  | .injection pos _ data =>
      data = [] ∨ s.mctLlTs.isNone ∨ 0 ≤ pos ∧ pos < s.mctLlTsNumEntries
  | _ => True

/-- Whether a callback is left to call after a LOG_LEVEL message. -/
def pendingAfter (s : UserLevels) (pending : Bool) (pos : Int) : Bool :=
  match registered s pos with
  | some entry => entry.logLevelChangedCallback.isSome
  | none => pending

/-- No LOG_LEVEL message for a position outside the table comes in a round after
one that has a callback to call. -/
def NoRepeat (s : UserLevels) : Bool → List DaemonMessage → Prop
  | _, [] => True
  | pending, .logLevel _ _ pos :: messages =>
      ((registered s pos).isSome ∨ pending = false) ∧
        NoRepeat s (pendingAfter s pending pos) messages
  | pending, _ :: messages => NoRepeat s pending messages

/-- The same for every round, after `n` bytes have been received. -/
def RoundsNoRepeat (s : UserLevels) (items : List (List UInt8 × DaemonMessage)) :
    Nat → List (List UInt8) → Prop
  | _, [] => True
  | n, chunk :: chunks =>
      NoRepeat s false ((delivered items (n + chunk.length)).drop (delivered items n).length) ∧
        RoundsNoRepeat s items (n + chunk.length) chunks

instance decidableNoRepeat (s : UserLevels) :
    ∀ (pending : Bool) (messages : List DaemonMessage), Decidable (NoRepeat s pending messages)
  | _, [] => inferInstanceAs (Decidable True)
  | pending, .logLevel _ _ pos :: messages =>
      have := decidableNoRepeat s (pendingAfter s pending pos) messages
      inferInstanceAs (Decidable (_ ∧ NoRepeat s (pendingAfter s pending pos) messages))
  | pending, .injection .. :: messages => decidableNoRepeat s pending messages
  | pending, .logState _ :: messages => decidableNoRepeat s pending messages
  | pending, .setBlockMode _ :: messages => decidableNoRepeat s pending messages

instance decidableRoundsNoRepeat (s : UserLevels) (items : List (List UInt8 × DaemonMessage)) :
    ∀ (n : Nat) (chunks : List (List UInt8)), Decidable (RoundsNoRepeat s items n chunks)
  | _, [] => inferInstanceAs (Decidable True)
  | n, chunk :: chunks =>
      have := decidableRoundsNoRepeat s items (n + chunk.length) chunks
      inferInstanceAs (Decidable (_ ∧ RoundsNoRepeat s items (n + chunk.length) chunks))

instance (s : UserLevels) (message : DaemonMessage) : Decidable (InTable s message) :=
  match message with
  | .injection .. => inferInstanceAs (Decidable (_ ∨ _))
  | .logLevel .. => inferInstanceAs (Decidable True)
  | .logState _ => inferInstanceAs (Decidable True)
  | .setBlockMode _ => inferInstanceAs (Decidable True)

/-- At least one byte is read, and not more than there is room for. -/
def UserReceiver.Fits (u : UserReceiver) (incoming : List UInt8) : Prop :=
  incoming ≠ [] ∧ u.receiver.bytesRcvd + incoming.length ≤ u.receiver.buffersize

instance (u : UserReceiver) (incoming : List UInt8) : Decidable (u.Fits incoming) :=
  inferInstanceAs (Decidable (_ ∧ _))

/-- The library before it has received anything. -/
def openUser (mem : List UInt8) (levels : UserLevels) : UserReceiver where
  mem := mem
  receiver := mctReceiverInit mem.length
  levels := levels

end Conditions

section Acts

variable {s t : UserLevels}

/-- The same callbacks are registered at the same positions. -/
structure SameTable (s t : UserLevels) : Prop where
  numEntries : t.mctLlTsNumEntries = s.mctLlTsNumEntries
  callbacks : ∀ pos, (t.mctLlTs.map fun entries => (entries pos).logLevelChangedCallback) =
    s.mctLlTs.map fun entries => (entries pos).logLevelChangedCallback

theorem SameTable.refl (s : UserLevels) : SameTable s s := ⟨rfl, fun _ => rfl⟩

theorem SameTable.trans {s₁ s₂ s₃ : UserLevels} (h : SameTable s₁ s₂) (h' : SameTable s₂ s₃) :
    SameTable s₁ s₃ :=
  ⟨h'.numEntries.trans h.numEntries, fun pos => (h'.callbacks pos).trans (h.callbacks pos)⟩

theorem SameTable.of_eq (hnum : t.mctLlTsNumEntries = s.mctLlTsNumEntries)
    (hentries : t.mctLlTs = s.mctLlTs) : SameTable s t := ⟨hnum, fun _ => by rw [hentries]⟩

theorem SameTable.registered (h : SameTable s t) (pos : Int) :
    (User.registered t pos).map (·.logLevelChangedCallback) =
      (User.registered s pos).map (·.logLevelChangedCallback) := by
  unfold User.registered
  rw [h.numEntries]
  split
  · rw [Option.map_map, Option.map_map]
    exact h.callbacks pos
  · rfl

/-- A change of a level that is registered, and what it leaves to call. -/
theorem updateLogLevel_registered {pos : Int} {entry : MctLlTsType}
    (h : registered s pos = some entry) (level status : UInt8) :
    SameTable s (updateLogLevel s none level status pos).1 ∧
      (updateLogLevel s none level status pos).1.effects =
        s.effects ++ .entryUsed pos :: (storeThrough entry.logLevelPtr level.toInt8 ++
          storeThrough entry.traceStatusPtr status.toInt8) ∧
      (updateLogLevel s none level status pos).2.isSome = entry.logLevelChangedCallback.isSome ∧
      ∀ delayed, updateLogLevel s delayed level status pos =
        updateLogLevel s none level status pos := by
  unfold registered at h
  by_cases hrange : 0 ≤ pos ∧ pos < int32 s.mctLlTsNumEntries
  · rw [if_pos hrange] at h
    obtain ⟨entries, hentries, hentry⟩ := Option.map_eq_some_iff.mp h
    subst hentry
    unfold updateLogLevel
    simp only [if_pos hrange, hentries]
    refine ⟨⟨rfl, fun other => ?_⟩, rfl, by simp, fun _ => trivial⟩
    rw [hentries]
    simp only [UserLevels.withEffects, Option.map_some, Option.some_inj]
    by_cases hother : other = pos
    · rw [hother, Function.update_self]
    · rw [Function.update_of_ne hother]
  · rw [if_neg hrange] at h
    cases h

theorem updateLogLevel_unregistered {pos : Int} (h : registered s pos = none)
    (delayed : Option MctUserLogLevelChangedCallback) (level status : UInt8) :
    updateLogLevel s delayed level status pos = (s, delayed) := by
  unfold registered at h
  unfold updateLogLevel
  split
  · rename_i hrange
    rw [if_pos hrange, Option.map_eq_none_iff] at h
    rw [h]
  · rfl

theorem sameTable_withEffects (effects : List UserEffect) : SameTable s (s.withEffects effects) :=
  .of_eq rfl rfl

theorem callLogLevelChanged_table (delayed : Option MctUserLogLevelChangedCallback) :
    SameTable s (callLogLevelChanged s delayed) := by
  unfold callLogLevelChanged
  split
  · exact .refl s
  · exact sameTable_withEffects _

theorem callInjection_table (item : MctUserInjectionCallback) (data : List UInt8) :
    SameTable s (callInjection s item data) := by
  unfold callInjection
  split
  · exact sameTable_withEffects _
  · split
    · exact sameTable_withEffects _
    · exact .refl s

theorem setBlockMode_table (mode : Int8) : SameTable s (setBlockMode s mode) := by
  unfold setBlockMode mctUserSetBlockmode
  split
  · exact .refl s
  · split
    · exact .refl s
    · exact .of_eq rfl rfl

/-- No message registers or withdraws a callback. -/
theorem sameTable_act (s : UserLevels) (message : DaemonMessage) : SameTable s (act s message) := by
  cases message with
  | logLevel level status pos =>
      cases hentry : registered s pos with
      | none =>
          simp only [act, updateLogLevel_unregistered hentry]
          exact callLogLevelChanged_table none
      | some entry =>
          obtain ⟨htable, -⟩ := updateLogLevel_registered hentry level status
          exact htable.trans (callLogLevelChanged_table _)
  | injection pos serviceId data =>
      simp only [act]
      split
      · exact .refl s
      · split
        · exact .refl s
        · split
          · exact sameTable_withEffects _
          · exact (sameTable_withEffects _).trans (callInjection_table _ _)
  | logState state => exact .of_eq rfl rfl
  | setBlockMode mode => exact setBlockMode_table _

/-- A round without a callback that is left over acts on each message by
itself. -/
theorem foldl_actInRound (hsame : SameTable s t)
    {delayed : Option MctUserLogLevelChangedCallback} {messages : List DaemonMessage}
    (hrepeat : NoRepeat s delayed.isSome messages) :
    (messages.foldl actInRound (t, delayed)).1 = messages.foldl act t := by
  induction messages generalizing t delayed with
  | nil => rfl
  | cons message messages ih =>
      rw [List.foldl_cons, List.foldl_cons]
      have hnext := hsame.trans (sameTable_act t message)
      cases message with
      | logLevel level status pos =>
          have hregistered := hsame.registered pos
          obtain ⟨hfree, hrest⟩ := hrepeat
          unfold pendingAfter at hrest
          cases hentry : registered s pos with
          | none =>
              rw [hentry] at hfree hrest hregistered
              rw [Option.map_none, Option.map_eq_none_iff] at hregistered
              have hpending := hfree.resolve_left (by simp)
              have hdelayed : delayed = none := by simpa using hpending
              subst hdelayed
              have hsteps : actInRound (t, none) (.logLevel level status pos) =
                  (act t (.logLevel level status pos), none) := by
                simp only [actInRound, act, updateLogLevel_unregistered hregistered]
              rw [hsteps]
              exact ih hnext hrest
          | some entry =>
              rw [hentry] at hrest hregistered
              obtain ⟨own, hown, hcallback⟩ := Option.map_eq_some_iff.mp hregistered
              obtain ⟨-, -, hpending, hdelayed⟩ := updateLogLevel_registered hown level status
              have hsteps : actInRound (t, delayed) (.logLevel level status pos) =
                  (act t (.logLevel level status pos),
                    (updateLogLevel t none level status pos).2) := by
                simp only [actInRound, act, hdelayed delayed]
              rw [hsteps]
              refine ih hnext ?_
              rw [hpending, hcallback]
              exact hrest
      | injection pos serviceId data => exact ih hnext hrepeat
      | logState state => exact ih hnext hrepeat
      | setBlockMode mode => exact ih hnext hrepeat

end Acts

section Entries

variable {s t : UserLevels} {message : DaemonMessage}

/-- Only entries of the table have been used. -/
def WithinTable (s : UserLevels) : Prop :=
  ∀ pos : Int, .entryUsed pos ∈ s.effects → 0 ≤ pos ∧ pos < s.mctLlTsNumEntries

theorem WithinTable.withEffects (h : WithinTable s) {effects : List UserEffect}
    (hnew : ∀ pos : Int, .entryUsed pos ∈ effects → 0 ≤ pos ∧ pos < s.mctLlTsNumEntries) :
    WithinTable (s.withEffects effects) := by
  intro pos hpos
  rcases List.mem_append.mp hpos with hold | hadded
  · exact h pos hold
  · exact hnew pos hadded

theorem WithinTable.callLogLevelChanged (h : WithinTable s)
    (delayed : Option MctUserLogLevelChangedCallback) :
    WithinTable (callLogLevelChanged s delayed) := by
  unfold User.callLogLevelChanged
  split
  · exact h
  · exact h.withEffects (by simp)

theorem WithinTable.callInjection (h : WithinTable s) (item : MctUserInjectionCallback)
    (data : List UInt8) : WithinTable (callInjection s item data) := by
  unfold User.callInjection
  split
  · exact h.withEffects (by simp)
  · split
    · exact h.withEffects (by simp)
    · exact h

theorem entryUsed_storeThrough (pos : Int) (ptr : Option Nat) (value : Int8) :
    .entryUsed pos ∉ storeThrough ptr value := by
  cases ptr with
  | none => simp [storeThrough]
  | some ptr => simp [storeThrough]

theorem int32_le_natCast (n : Nat) : int32 n ≤ n := by
  unfold int32
  omega

/-- A message about an entry of the table uses that entry. -/
theorem WithinTable.act (h : WithinTable s) (hmessage : InTable s message) :
    WithinTable (act s message) := by
  cases message with
  | logLevel level status pos =>
      simp only [User.act]
      cases hentry : registered s pos with
      | none =>
          rw [updateLogLevel_unregistered hentry]
          exact h.callLogLevelChanged none
      | some entry =>
          obtain ⟨htable, heffects, -, -⟩ := updateLogLevel_registered hentry level status
          refine WithinTable.callLogLevelChanged (fun other hother => ?_) _
          rw [heffects] at hother
          rw [htable.numEntries]
          rcases List.mem_append.mp hother with hold | hadded
          · exact h other hold
          · have hself : other = pos := by
              simpa [entryUsed_storeThrough] using hadded
            unfold registered at hentry
            split at hentry
            · rename_i hrange
              rw [hself]
              exact ⟨hrange.1, hrange.2.trans_le (int32_le_natCast _)⟩
            · cases hentry
  | injection pos serviceId data =>
      simp only [User.act]
      cases hentries : s.mctLlTs with
      | none => exact h
      | some entries =>
          dsimp only
          split
          · exact h
          · rename_i hdata
            have hrange : 0 ≤ pos ∧ pos < s.mctLlTsNumEntries := by
              rcases hmessage with hnone | hnone | hrange
              · exact absurd hnone hdata
              · rw [hentries] at hnone
                cases hnone
              · exact hrange
            have hused : WithinTable (s.withEffects [.entryUsed pos]) :=
              h.withEffects fun other hother => by
                rw [List.mem_singleton] at hother
                cases hother
                exact hrange
            split
            · exact hused
            · exact hused.callInjection _ _
  | logState state => exact h
  | setBlockMode mode =>
      simp only [User.act, setBlockMode, mctUserSetBlockmode]
      split
      · exact h
      · split
        · exact h
        · exact h

theorem SameTable.inTable (h : SameTable s t) (hmessage : InTable s message) :
    InTable t message := by
  cases message with
  | injection pos serviceId data =>
      have hnone : t.mctLlTs.isNone = s.mctLlTs.isNone := by
        have hcallbacks := congrArg Option.isNone (h.callbacks pos)
        simpa using hcallbacks
      unfold InTable at hmessage ⊢
      rw [hnone, h.numEntries]
      exact hmessage
  | logLevel level status pos => trivial
  | logState state => trivial
  | setBlockMode mode => trivial

theorem sameTable_foldl (s : UserLevels) (messages : List DaemonMessage) :
    SameTable s (messages.foldl act s) := by
  induction messages generalizing s with
  | nil => exact .refl s
  | cons message messages ih => exact (sameTable_act s message).trans (ih _)

theorem WithinTable.foldl (h : WithinTable s) {messages : List DaemonMessage}
    (hmessages : ∀ message ∈ messages, InTable s message) :
    WithinTable (messages.foldl User.act s) := by
  induction messages generalizing s with
  | nil => exact h
  | cons message messages ih =>
      refine ih (h.act (hmessages message List.mem_cons_self)) fun other hother => ?_
      exact (sameTable_act s message).inTable (hmessages other (List.mem_cons_of_mem _ hother))

theorem mem_delivered {items : List (List UInt8 × DaemonMessage)} {n : Nat}
    (h : message ∈ delivered items n) : ∃ item ∈ items, item.2 = message := by
  induction items generalizing n with
  | nil => cases h
  | cons item items ih =>
      obtain ⟨gap, first⟩ := item
      unfold delivered at h
      split at h
      · rcases List.mem_cons.mp h with rfl | hrest
        · exact ⟨_, List.mem_cons_self, rfl⟩
        · obtain ⟨item, hitem, hsame⟩ := ih hrest
          exact ⟨item, List.mem_cons_of_mem _ hitem, hsame⟩
      · cases h

end Entries

section Rounds

variable {malloc : Malloc} {u : UserReceiver} {s : UserLevels} {rest chunk later trail : List UInt8}
  {items : List (List UInt8 × DaemonMessage)}

/-- A round acts on the messages that it completes, and keeps the rest. -/
theorem check_round (halloc : ∀ n, malloc.block n ≠ none)
    (hcarries : Carries u.mem u.receiver rest) (hmem : u.mem.length = mctUserRcvbufMaxSize)
    (hfits : u.Fits chunk) (hstream : rest ++ (chunk ++ later) = stream items trail)
    (hclean : Clean items trail) (hroomy : Roomy items trail) (hsame : SameTable s u.levels)
    (hrepeat : NoRepeat s false (delivered items (rest.length + chunk.length))) :
    ∃ next rest' items', mctUserLogCheckUserMessage malloc u chunk = (.ok, next) ∧
      Carries next.mem next.receiver rest' ∧ next.mem.length = mctUserRcvbufMaxSize ∧
      next.levels = (delivered items (rest.length + chunk.length)).foldl act u.levels ∧
      Left items trail (rest ++ chunk) later rest' items' := by
  obtain ⟨hne, hroom⟩ := hfits
  rw [hcarries.count_eq, hcarries.size_eq] at hroom
  obtain ⟨hcount, hlength, -, hpresents⟩ := hcarries.receive chunk hne hroom
  rw [← List.append_assoc] at hstream
  have hpositive : 0 < chunk.length := List.length_pos_iff.mpr hne
  have hstart : Presents (mctReceiverReceive u.mem u.receiver chunk).2.1
      (UserRound.mk (mctReceiverReceive u.mem u.receiver chunk).2.2 u.levels none).receiver
      (rest ++ chunk) := hpresents
  obtain ⟨final, rest', items', hloop, hfinal, hlevels, hleft⟩ :=
    userLoop_stream halloc hstart hstream hclean hroomy
  refine ⟨⟨(mctReceiverReceive u.mem u.receiver chunk).2.1, mctReceiverMoveToBegin malloc
    (mctReceiverReceive u.mem u.receiver chunk).2.1 final.receiver, final.levels⟩, rest', items',
    ?_, hfinal.moveToBegin malloc (halloc _), hlength.trans hmem, ?_, hleft⟩
  · unfold mctUserLogCheckUserMessage
    dsimp only
    rw [if_neg (by omega), hloop]
  · have hfirst := congrArg Prod.fst hlevels
    rw [List.length_append] at hfirst
    exact hfirst.trans (foldl_actInRound hsame hrepeat)

/-- A run acts on the messages that are complete, and there is room after it. -/
theorem check_run (halloc : ∀ n, malloc.block n ≠ none) {all : List (List UInt8 × DaemonMessage)}
    {n : Nat} (hcarries : Carries u.mem u.receiver rest)
    (hmem : u.mem.length = mctUserRcvbufMaxSize) {chunks : List (List UInt8)}
    (hfits : Guarded (mctUserLogCheckUserMessage malloc) UserReceiver.Fits u chunks)
    (hstream : rest ++ (chunks.flatten ++ later) = stream items trail)
    (hclean : Clean items trail) (hroomy : Roomy items trail)
    (hroom : rest.length < mctUserRcvbufMaxSize) (hdone : delivered items rest.length = [])
    (hcounts : ∀ k, delivered all (n + k) = delivered all n ++ delivered items (rest.length + k))
    (hsame : SameTable s u.levels) (hrepeat : RoundsNoRepeat s all n chunks) :
    let final := (runOps (mctUserLogCheckUserMessage malloc) u chunks).2
    final.levels = (delivered items (rest.length + chunks.flatten.length)).foldl act u.levels ∧
      final.receiver.bytesRcvd < final.receiver.buffersize := by
  induction chunks generalizing u rest items n with
  | nil =>
      refine ⟨?_, ?_⟩
      · rw [List.flatten_nil, List.length_nil, Nat.add_zero, hdone]
        rfl
      · rw [runOps_nil, hcarries.count_eq, hcarries.size_eq, hmem]
        exact hroom
  | cons chunk chunks ih =>
      obtain ⟨hfit, hfits⟩ := hfits
      obtain ⟨hfirst, hrest⟩ := hrepeat
      rw [List.flatten_cons, List.append_assoc] at hstream
      rw [hcounts chunk.length, List.drop_left] at hfirst
      obtain ⟨next, rest', items', hround, hnext, hlength, hlevels, hleft⟩ :=
        check_round halloc hcarries hmem hfit hstream hclean hroomy hsame hfirst
      have hleftCounts : ∀ k, delivered items (rest.length + chunk.length + k) =
          delivered items (rest.length + chunk.length) ++ delivered items' (rest'.length + k) := by
        intro k
        have hcount := hleft.counts k
        rw [List.length_append] at hcount
        exact hcount
      have hdone' : delivered items' rest'.length = [] := by
        have hzero := hleftCounts 0
        rw [Nat.add_zero, Nat.add_zero] at hzero
        exact List.append_right_eq_self.mp hzero.symm
      rw [hround] at hfits
      have hlater := ih hnext hlength hfits hleft.stream_eq hleft.clean hleft.roomy hleft.room
        hdone' (fun k => ?_) (hsame.trans ?_) hrest
      · rw [runOps_cons, hround]
        refine ⟨?_, hlater.2⟩
        rw [hlater.1, hlevels, ← List.foldl_append, ← hleftCounts, List.flatten_cons,
          List.length_append, Nat.add_assoc]
      · rw [Nat.add_assoc, hcounts, hcounts, List.append_assoc, ← hleftCounts, Nat.add_assoc]
      · rw [hlevels]
        exact sameTable_foldl _ _

/-- In every run whose injections are for entries of the table, in whose rounds
no callback is left over, and whose other bytes leave room, each message of the
daemon is acted on once, as soon as it is complete and in its order, only entries
of the table are used, and every round leaves room to receive more. -/
theorem daemon_messages_dispatched (malloc : Malloc) (halloc : ∀ n, malloc.block n ≠ none)
    (mem : List UInt8) (hmem : mem.length = mctUserRcvbufMaxSize) (levels : UserLevels)
    (hlevels : WithinTable levels) (items : List (List UInt8 × DaemonMessage))
    (trail : List UInt8) (hclean : Clean items trail) (chunks : List (List UInt8))
    (later : List UInt8) (hcut : chunks.flatten ++ later = stream items trail)
    (hfits : Guarded (mctUserLogCheckUserMessage malloc) UserReceiver.Fits (openUser mem levels)
      chunks)
    (htable : ∀ item ∈ items, InTable levels item.2)
    (hrepeat : RoundsNoRepeat levels items 0 chunks) (hroomy : Roomy items trail) :
    let final := (runOps (mctUserLogCheckUserMessage malloc) (openUser mem levels) chunks).2
    final.levels = (delivered items chunks.flatten.length).foldl act levels ∧
      WithinTable final.levels ∧ final.receiver.bytesRcvd < final.receiver.buffersize := by
  have hpositive : 0 < mctUserRcvbufMaxSize := by decide
  have hnone : delivered items 0 = [] := by
    cases items with
    | nil => rfl
    | cons item items => exact delivered_of_short (by rw [bytes_length]; simp [sizeofMctUserHeader])
  obtain ⟨hfinal, hroom⟩ := check_run (s := levels) (u := openUser mem levels) halloc
    (carries_init mem) hmem hfits hcut hclean hroomy hpositive hnone
    (fun k => by rw [hnone]; rfl) (.refl levels) hrepeat
  rw [List.length_nil, Nat.zero_add] at hfinal
  refine ⟨hfinal, ?_, hroom⟩
  rw [hfinal]
  refine hlevels.foldl fun message hmessage => ?_
  obtain ⟨item, hitem, rfl⟩ := mem_delivered hmessage
  exact htable item hitem

/-- One context, with a callback for its levels and one for an injection. -/
def oneContext : UserLevels where
  mctLlTs := some fun _ =>
    { contextID := setIdBytes [67, 84, 88, 49]
      logLevel := 4
      logLevelPtr := none
      traceStatus := 0
      traceStatusPtr := none
      injectionTable := [⟨4096, some 7, none, 0⟩]
      logLevelChangedCallback := some 3 }
  mctLlTsNumEntries := 1
  logState := 0
  blockMode := 0
  forceBlocking := false
  effects := []

/-- A stray byte, a change of the level and an injection, cut within the user
header of the second. -/
def userItems : List (List UInt8 × DaemonMessage) :=
  [([68], .logLevel 2 1 0), ([], .injection 0 4096 [42])]

def userChunks : List (List UInt8) := [(stream userItems []).take 18, (stream userItems []).drop 18]

theorem daemon_messages_dispatched_sample :
    let final := (runOps (mctUserLogCheckUserMessage .zeroed)
      (openUser (List.replicate mctUserRcvbufMaxSize 0) oneContext) userChunks).2
    final.levels = [.logLevel 2 1 0, .injection 0 4096 [42]].foldl act oneContext ∧
      WithinTable final.levels ∧ final.receiver.bytesRcvd < final.receiver.buffersize := by
  have hall := daemon_messages_dispatched .zeroed (by simp [Malloc.zeroed])
    (List.replicate mctUserRcvbufMaxSize 0) List.length_replicate oneContext
    (fun pos hpos => by cases hpos) userItems [] (by decide +kernel) userChunks []
    (by decide +kernel) (by decide +kernel) (by decide +kernel) (by decide +kernel)
    (by decide +kernel)
  have hmessages : delivered userItems userChunks.flatten.length =
      [.logLevel 2 1 0, .injection 0 4096 [42]] := by decide +kernel
  rw [hmessages] at hall
  exact hall

/-- A callback that is left over is called again for the next message, which is
for no context. -/
example :
    let change : MctUserLogLevelChangedCallback := ⟨3, ⟨[67, 84, 88, 49], rfl⟩, 2, 1⟩
    (runOps (mctUserLogCheckUserMessage .zeroed)
      (openUser (List.replicate mctUserRcvbufMaxSize 0) oneContext)
      [(DaemonMessage.logLevel 2 1 0).bytes ++
        (DaemonMessage.logLevel 5 0 9).bytes]).2.levels.effects =
        [.entryUsed 0, .logLevelChanged change, .logLevelChanged change] := by decide +kernel

/-- An injection for a position behind the table reads what lies there. -/
theorem injection_leaves_table :
    ¬ WithinTable (runOps (mctUserLogCheckUserMessage .zeroed)
      (openUser (List.replicate mctUserRcvbufMaxSize 0) oneContext)
      [(DaemonMessage.injection 1 4096 [42]).bytes]).2.levels := by
  intro h
  have hused : (.entryUsed 1 : UserEffect) ∈ (runOps (mctUserLogCheckUserMessage .zeroed)
      (openUser (List.replicate mctUserRcvbufMaxSize 0) oneContext)
      [(DaemonMessage.injection 1 4096 [42]).bytes]).2.levels.effects := by decide +kernel
  have hrange := h 1 hused
  revert hrange
  decide +kernel

end Rounds

end MctDaemon.User
