import MctDaemon.Daemon.ContextOrder

/-!
Which contexts a request for a log level or a trace status changes. The search
of the code, with its early end, is compared with the documented patterns, and
the sends are taken one after the other, since a failed one may withdraw the
handles of other contexts.
-/

namespace MctDaemon.Daemon

open Lib Shared

section Patterns

/-- An identifier matches a pattern: a prefix before a star, or the identifier
itself. -/
def MatchesId (pattern id : ID4) : Prop :=
  if (idText pattern.chars).getLast? = some '*' then
    (idText pattern.chars).dropLast <+: idText id.chars
  else id = setId pattern.chars

instance (pattern id : ID4) : Decidable (MatchesId pattern id) :=
  inferInstanceAs (Decidable (ite _ _ _))

def NamesOne (req : MctServiceSetLogLevel) : Prop := ¬ req.apid.isEmpty ∧ ¬ req.ctid.isEmpty

instance (req : MctServiceSetLogLevel) : Decidable (NamesOne req) :=
  inferInstanceAs (Decidable (_ ∧ _))

/-- The contexts that a request is about, as documented. -/
def MctServiceSetLogLevel.Matches (req : MctServiceSetLogLevel) (context : MctDaemonContext) :
    Prop :=
  if req.ctid.isEmpty then ¬ req.apid.isEmpty ∧ MatchesId req.apid context.apid
  else if req.apid.isEmpty then MatchesId req.ctid context.ctid
  else context.apid = setId req.apid.chars ∧ context.ctid = setId req.ctid.chars

instance (req : MctServiceSetLogLevel) (context : MctDaemonContext) :
    Decidable (req.Matches context) :=
  inferInstanceAs (Decidable (ite _ _ _))

theorem takeWhile_take_le {l m : List Char} (hlength : l.length = m.length) (h : l ≤ m) (n : Nat) :
    (l.takeWhile fun c => c ≠ '\x00').take n ≤ (m.takeWhile fun c => c ≠ '\x00').take n := by
  induction l generalizing m n with
  | nil =>
      cases m with
      | nil => exact le_refl _
      | cons d ds => cases hlength
  | cons c cs ih =>
      cases m with
      | nil => cases hlength
      | cons d ds =>
          rw [List.length_cons, List.length_cons, Nat.add_right_cancel_iff] at hlength
          cases n with
          | zero => exact le_refl _
          | succ n =>
              by_cases hc : c = '\x00'
              · rw [List.takeWhile_cons_of_neg (by simp [hc]), List.take_nil]
                exact not_lt.mp (List.not_lt_nil _)
              · have hstep : c < d ∨ c = d ∧ cs ≤ ds := by
                  rcases lt_or_eq_of_le h with hlt | heq
                  · rcases List.cons_lt_cons_iff.mp hlt with hlt | ⟨heq, hlt⟩
                    · exact .inl hlt
                    · exact .inr ⟨heq, hlt.le⟩
                  · cases heq
                    exact .inr ⟨rfl, le_refl _⟩
                rcases hstep with hlt | ⟨rfl, hle⟩
                · have hd : d ≠ '\x00' := (lt_of_le_of_lt (zero_le_char c) hlt).ne'
                  rw [List.takeWhile_cons_of_pos (by simp [hc]),
                    List.takeWhile_cons_of_pos (by simp [hd]), List.take_succ_cons,
                    List.take_succ_cons]
                  exact (List.cons_lt_cons_iff.mpr (.inl hlt)).le
                · rw [List.takeWhile_cons_of_pos (by simp [hc]),
                    List.takeWhile_cons_of_pos (by simp [hc]), List.take_succ_cons,
                    List.take_succ_cons]
                  exact cons_le_cons_of_le c (ih hlength hle n)

/-- Cutting identifiers keeps their order. -/
theorem idText_take_le {a b : ID4} (h : a ≤ b) (n : Nat) :
    (idText a.chars).take n ≤ (idText b.chars).take n := by
  simp only [idText, List.take_of_length_le a.length_eq.le, List.take_of_length_le b.length_eq.le]
  exact takeWhile_take_le (a.length_eq.trans b.length_eq.symm) h n

theorem strncmp_eq_iff {a b : List Char} {n : Nat} :
    strncmp a b n = .eq ↔ (idText a).take n = b.take n := by
  unfold strncmp
  split
  · simp [*]
  · split
    · simp [*]
    · simp [*]

theorem strncmp_gt_iff {a b : List Char} {n : Nat} :
    strncmp a b n = .gt ↔ b.take n < (idText a).take n := by
  unfold strncmp
  split
  · simp [*]
  · rename_i hne
    split
    · rename_i hlt
      simp [hlt.le]
    · rename_i hnot
      simp [lt_of_le_of_ne (not_lt.mp hnot) (Ne.symm hne)]

/-- Behind a greater identifier no other matches. -/
theorem strncmp_ne_of_gt {a b : ID4} {str : List Char} {n : Nat}
    (hgt : strncmp a.chars str n = .gt) (hle : a ≤ b) : strncmp b.chars str n ≠ .eq := by
  rw [strncmp_gt_iff] at hgt
  rw [Ne, strncmp_eq_iff]
  intro heq
  have hcut := idText_take_le hle n
  rw [heq] at hcut
  exact absurd (hgt.trans_le hcut) (lt_irrefl _)

end Patterns

section Scan

variable (kind : LevelKind) (flags : LevelFlags) (status : Int) (writes : Nat → SendResult)

/-- The chosen contexts get the setting, one after the other. -/
def scan (chosen : Nat → Bool) (s : LevelState) (positions : List Nat) : LevelState :=
  positions.foldl
    (fun s k => if chosen k then s.sendStatus kind flags k status (writes k) else s) s

/-- What the turn of a chosen context does to the handles: a send to a closed
connection withdraws it. -/
def withdraw (chosen : Nat → Bool) (d : MctDaemonUsers) (k : Nat) : MctDaemonUsers :=
  match d.contexts[k]? with
  | none => d
  | some context =>
      if chosen k ∧ mctFdMinimum ≤ context.userHandle then (d.userSendLogLevel k (writes k)).2
      else d

/-- The tables, as far as handles go, before the turn of the context at `k`. -/
def beforeTurn (chosen : Nat → Bool) (d : MctDaemonUsers) (k : Nat) : MctDaemonUsers :=
  (List.range k).foldl (withdraw writes chosen) d

/-- A chosen context that has a valid handle at its turn, and whose send
succeeds. -/
def Reached (chosen : Nat → Bool) (d : MctDaemonUsers) (k : Nat) : Bool :=
  chosen k && (writes k).ok && (beforeTurn writes chosen d k).contexts[k]?.any fun context =>
    mctFdMinimum ≤ context.userHandle

def markStatus (changed : Nat → Bool) (d : MctDaemonUsers) : MctDaemonUsers :=
  { d with contexts := d.contexts.mapIdx fun k context =>
      if changed k then context.withStatus kind status else context }

end Scan

section Marks

variable {kind : LevelKind} {flags : LevelFlags} {status : Int} {writes : Nat → SendResult}
  {changed chosen : Nat → Bool} {d : MctDaemonUsers} {k : Nat}

theorem markStatus_getElem? (changed : Nat → Bool) (d : MctDaemonUsers) (k : Nat) :
    (markStatus kind status changed d).contexts[k]? = d.contexts[k]?.map fun context =>
      if changed k then context.withStatus kind status else context := by
  simp [markStatus, List.getElem?_mapIdx]

theorem withStatus_userHandle (context : MctDaemonContext) :
    (context.withStatus kind status).userHandle = context.userHandle := by
  cases kind <;> rfl

theorem withStatus_withStatus (context : MctDaemonContext) (other : Int) :
    (context.withStatus kind status).withStatus kind other = context.withStatus kind other := by
  cases kind <;> rfl

theorem withStatus_status (context : MctDaemonContext) :
    context.withStatus kind (context.status kind) = context := by
  cases kind <;> rfl

theorem invalidate_withStatus (fd : Int) (context : MctDaemonContext) :
    (context.withStatus kind status).invalidate fd =
      (context.invalidate fd).withStatus kind status := by
  unfold MctDaemonContext.invalidate
  rw [withStatus_userHandle]
  split
  · cases kind <;> rfl
  · rfl

/-- Withdrawing a handle does not depend on the settings. -/
theorem markStatus_contextsInvalidateFd (fd : Int) :
    (markStatus kind status changed d).contextsInvalidateFd fd =
      markStatus kind status changed (d.contextsInvalidateFd fd) := by
  unfold markStatus MctDaemonUsers.contextsInvalidateFd
  congr 1
  refine List.ext_getElem? fun k => ?_
  simp only [List.getElem?_map, List.getElem?_mapIdx, Option.map_map]
  refine congrArg (fun f => Option.map f d.contexts[k]?) (funext fun context => ?_)
  simp only [Function.comp_apply]
  split
  · exact invalidate_withStatus fd context
  · rfl

theorem markStatus_applicationResetUserHandle (i : Nat) :
    (markStatus kind status changed d).applicationResetUserHandle i =
      markStatus kind status changed (d.applicationResetUserHandle i) := by
  have happlications : (markStatus kind status changed d).applications = d.applications := rfl
  have hown : (markStatus kind status changed d).ownEcu = d.ownEcu := rfl
  unfold MctDaemonUsers.applicationResetUserHandle
  rw [happlications, hown]
  split
  · rfl
  · split
    · rfl
    · split
      · dsimp only
        rw [markStatus_contextsInvalidateFd]
        rfl
      · rfl

/-- Neither does a send. -/
theorem markStatus_userSendLogLevel (write : SendResult) :
    (markStatus kind status changed d).userSendLogLevel k write =
      ((d.userSendLogLevel k write).1,
        markStatus kind status changed (d.userSendLogLevel k write).2) := by
  unfold MctDaemonUsers.userSendLogLevel
  rw [markStatus_getElem?]
  cases hcontext : d.contexts[k]? with
  | none => rfl
  | some context =>
      simp only [Option.map_some]
      have hkey : (if changed k then context.withStatus kind status else context).userHandle =
          context.userHandle ∧
          (if changed k then context.withStatus kind status else context).apid = context.apid := by
        split
        · exact ⟨withStatus_userHandle context, by cases kind <;> rfl⟩
        · exact ⟨rfl, rfl⟩
      rw [hkey.1, hkey.2]
      have hfind : (markStatus kind status changed d).applicationFind context.apid =
          d.applicationFind context.apid := rfl
      rw [hfind]
      split
      · rfl
      · split
        · split
          · rfl
          · rw [markStatus_applicationResetUserHandle]
        · rfl

/-- The setting of one more context is changed. -/
theorem modifyContext_markStatus :
    (markStatus kind status changed d).modifyContext k (·.withStatus kind status) =
      markStatus kind status (fun j => j = k || changed j) d := by
  unfold markStatus MctDaemonUsers.modifyContext
  congr 1
  refine List.ext_getElem? fun j => ?_
  simp only [List.getElem?_modify, List.getElem?_mapIdx, Option.map_eq_map, Option.map_map]
  refine congrArg (fun f => Option.map f d.contexts[j]?) (funext fun context => ?_)
  by_cases hj : k = j
  · subst hj
    by_cases hchanged : changed k
    · simp [hchanged, withStatus_withStatus]
    · simp [hchanged]
  · have hne : ¬ j = k := fun h => hj h.symm
    simp [hj, hne]

/-- It is put back. -/
theorem modifyContext_markStatus_back (hchanged : changed k = false) {old : Int}
    (hold : ∀ context, d.contexts[k]? = some context → context.status kind = old) :
    (markStatus kind status (fun j => j = k || changed j) d).modifyContext k
        (·.withStatus kind old) = markStatus kind status changed d := by
  unfold markStatus MctDaemonUsers.modifyContext
  congr 1
  refine List.ext_getElem? fun j => ?_
  simp only [List.getElem?_modify, List.getElem?_mapIdx]
  cases hcontext : d.contexts[j]? with
  | none => rfl
  | some context =>
      simp only [Option.map_eq_map, Option.map_some]
      by_cases hj : k = j
      · subst hj
        have hstatus := hold context hcontext
        subst hstatus
        simp [hchanged, withStatus_withStatus, withStatus_status]
      · have hne : ¬ j = k := fun h => hj h.symm
        simp [hj, hne]

/-- A send withdraws one handle at most. -/
theorem userSendLogLevel_contexts (d : MctDaemonUsers) (k : Nat) (write : SendResult) :
    (d.userSendLogLevel k write).2.contexts = d.contexts ∨
      ∃ fd, (d.userSendLogLevel k write).2.contexts =
        d.contexts.map (MctDaemonContext.invalidate fd) := by
  unfold MctDaemonUsers.userSendLogLevel
  cases hcontext : d.contexts[k]? with
  | none => exact .inl rfl
  | some context =>
      dsimp only
      split
      · exact .inl rfl
      split
      · split
        · exact .inl rfl
        · rename_i i _
          unfold MctDaemonUsers.applicationResetUserHandle
          split
          · exact .inl rfl
          split
          · exact .inl rfl
          split
          · exact .inr ⟨_, rfl⟩
          · exact .inl rfl
      · exact .inl rfl

def OnlyHandles (d d' : MctDaemonUsers) : Prop :=
  ∀ (k : Nat) (context : MctDaemonContext), d.contexts[k]? = some context →
    ∃ handle, d'.contexts[k]? = some { context with userHandle := handle }

theorem onlyHandles_userSendLogLevel (d : MctDaemonUsers) (k : Nat) (write : SendResult) :
    OnlyHandles d (d.userSendLogLevel k write).2 := by
  intro j context hcontext
  rcases userSendLogLevel_contexts d k write with hsame | ⟨fd, hinvalid⟩
  · exact ⟨context.userHandle, hsame ▸ hcontext⟩
  · rw [hinvalid, List.getElem?_map, hcontext, Option.map_some]
    unfold MctDaemonContext.invalidate
    split
    · exact ⟨mctFdInit, rfl⟩
    · exact ⟨context.userHandle, rfl⟩

theorem OnlyHandles.trans {d₁ d₂ d₃ : MctDaemonUsers} (h : OnlyHandles d₁ d₂)
    (h' : OnlyHandles d₂ d₃) : OnlyHandles d₁ d₃ := by
  intro k context hcontext
  obtain ⟨handle, hmid⟩ := h k context hcontext
  obtain ⟨handle', hlast⟩ := h' k { context with userHandle := handle } hmid
  exact ⟨handle', hlast⟩

/-- A send is answered as the connection answers if the handle is valid. -/
theorem userSendLogLevel_fst {context : MctDaemonContext} (hcontext : d.contexts[k]? = some context)
    (hvalid : mctFdMinimum ≤ context.userHandle) (write : SendResult) :
    (d.userSendLogLevel k write).1 = write.ok := by
  have hpos : ¬ context.userHandle ≤ 0 := by
    unfold mctFdMinimum at hvalid
    omega
  unfold MctDaemonUsers.userSendLogLevel userLogOut2
  rw [hcontext]
  dsimp only
  rw [if_neg hpos]
  split
  · rename_i hok
    exact hok.symm
  · rename_i hfailed
    rw [Bool.not_eq_true] at hfailed
    split
    · split <;> exact hfailed.symm
    · exact hfailed.symm

/-- The turn of a chosen context: the setting stays if the send succeeds. -/
theorem users_sendStatus (s : LevelState) (hs : s.users = markStatus kind status changed d)
    (hchanged : changed k = false) (write : SendResult) {context : MctDaemonContext}
    (hcontext : d.contexts[k]? = some context) :
    (s.sendStatus kind flags k status write).users =
      if mctFdMinimum ≤ context.userHandle then
        markStatus kind status (fun j => j = k && write.ok || changed j)
          (d.userSendLogLevel k write).2
      else s.users := by
  have hfound : s.users.contexts[k]? = some context := by
    rw [hs, markStatus_getElem?, hcontext, Option.map_some, if_neg (by simp [hchanged])]
  have hmarked : (s.modifyContext k (·.withStatus kind status)).users =
      markStatus kind status (fun j => j = k || changed j) d := by
    change s.users.modifyContext k _ = _
    rw [hs, modifyContext_markStatus]
  unfold LevelState.sendStatus
  rw [hfound]
  dsimp only
  unfold LevelState.sendIfValid
  by_cases hvalid : mctFdMinimum ≤ context.userHandle
  · rw [if_pos hvalid, if_pos hvalid]
    have hsent : ((s.modifyContext k (·.withStatus kind status)).userSendLogLevel flags k write).1 =
        write.ok := by
      have hsent : (LevelState.userSendLogLevel flags (s.modifyContext k (·.withStatus kind status))
          k write).1 = ((s.modifyContext k (·.withStatus kind status)).users.userSendLogLevel k
            write).1 := by
        unfold LevelState.userSendLogLevel
        cases hfind : (s.modifyContext k (·.withStatus kind status)).users.contexts[k]? with
        | none => simp [MctDaemonUsers.userSendLogLevel, hfind]
        | some found => rfl
      rw [hsent, hmarked, markStatus_userSendLogLevel]
      exact userSendLogLevel_fst hcontext hvalid write
    have husers : ((s.modifyContext k (·.withStatus kind status)).userSendLogLevel flags k
        write).2.users = markStatus kind status (fun j => j = k || changed j)
          (d.userSendLogLevel k write).2 := by
      rw [LevelState.users_userSendLogLevel, hmarked, markStatus_userSendLogLevel]
    cases hok : write.ok with
    | true =>
        rw [hok] at hsent
        rw [if_pos hsent, husers]
        simp only [Bool.and_true]
    | false =>
        rw [hok] at hsent
        rw [if_neg (by rw [hsent]; simp)]
        change MctDaemonUsers.modifyContext (LevelState.users _) k _ = _
        rw [husers, modifyContext_markStatus_back hchanged]
        · simp only [Bool.and_false, Bool.false_or]
        · intro other hother
          obtain ⟨handle, hsame⟩ := onlyHandles_userSendLogLevel d k write k context hcontext
          rw [hsame] at hother
          cases hother
          cases kind <;> rfl
  · rw [if_neg hvalid, if_neg hvalid]
    rw [if_neg (by simp)]
    change (s.modifyContext k _).users.modifyContext k _ = _
    rw [hmarked, modifyContext_markStatus_back hchanged, hs]
    intro other hother
    rw [hcontext] at hother
    cases hother
    rfl

theorem markStatus_none : markStatus kind status (fun _ => false) d = d := by
  unfold markStatus
  congr 1
  refine List.ext_getElem? fun k => ?_
  simp [List.getElem?_mapIdx]

theorem beforeTurn_succ (chosen : Nat → Bool) (d : MctDaemonUsers) (k : Nat) :
    beforeTurn writes chosen d (k + 1) =
      withdraw writes chosen (beforeTurn writes chosen d k) k := by
  rw [beforeTurn, List.range_succ, List.foldl_append]
  rfl

/-- A turn of the scan, whether the context is chosen or not. -/
theorem users_turn {s : LevelState} (hs : s.users = markStatus kind status
      (fun j => j < k && Reached writes chosen d j) (beforeTurn writes chosen d k)) :
    (if chosen k then s.sendStatus kind flags k status (writes k) else s).users =
      markStatus kind status (fun j => j < k + 1 && Reached writes chosen d j)
        (beforeTurn writes chosen d (k + 1)) := by
  have hchanged : ((fun j => j < k && Reached writes chosen d j) : Nat → Bool) k = false := by simp
  have hone : ∀ b : Bool, b = Reached writes chosen d k →
      (fun j => decide (j < k + 1) && Reached writes chosen d j) =
        fun j => decide (j = k) && b || decide (j < k) && Reached writes chosen d j := by
    intro b hb
    funext j
    rcases lt_trichotomy j k with hlt | heq | hgt
    · have hle : j < k + 1 := by omega
      have hne : ¬ j = k := by omega
      simp [hlt, hle, hne]
    · simp [heq, hb]
    · have hle : ¬ j < k + 1 := by omega
      have hne : ¬ j = k := by omega
      have hnot : ¬ j < k := by omega
      simp [hle, hne, hnot]
  rw [beforeTurn_succ, withdraw]
  cases hcontext : (beforeTurn writes chosen d k).contexts[k]? with
  | none =>
      have hstays : (if chosen k then s.sendStatus kind flags k status (writes k) else s) = s := by
        have hnone : s.users.contexts[k]? = none := by
          rw [hs, markStatus_getElem?, hcontext, Option.map_none]
        split
        · unfold LevelState.sendStatus
          rw [hnone]
        · rfl
      rw [hstays, hs, hone false (by simp [Reached, hcontext])]
      simp
  | some context =>
      dsimp only
      by_cases hchosen : chosen k
      · rw [if_pos hchosen, users_sendStatus s hs hchanged (writes k) hcontext]
        by_cases hvalid : mctFdMinimum ≤ context.userHandle
        · rw [if_pos hvalid, if_pos ⟨hchosen, hvalid⟩,
            hone (writes k).ok (by simp [Reached, hcontext, hchosen, hvalid])]
        · rw [if_neg hvalid, if_neg (fun h => hvalid h.2), hs,
            hone false (by simp [Reached, hcontext, hvalid])]
          simp
      · rw [if_neg hchosen, if_neg (fun h => hchosen h.1), hs,
          hone false (by simp [Reached, hchosen])]
        simp

/-- The contexts that are reached get the setting; no other changes. -/
theorem users_scan (s : LevelState) (n : Nat) :
    (scan kind flags status writes chosen s (List.range n)).users =
      markStatus kind status (fun j => j < n && Reached writes chosen s.users j)
        (beforeTurn writes chosen s.users n) := by
  induction n with
  | zero =>
      have hnone : (fun j => decide (j < 0) && Reached writes chosen s.users j) =
          fun _ => false := by simp
      rw [hnone, markStatus_none]
      rfl
  | succ n ih =>
      rw [List.range_succ, scan, List.foldl_append]
      exact users_turn ih

end Marks

section Choice

variable {kind : LevelKind} {flags : LevelFlags} {status : Int} {writes : Nat → SendResult}
  {d : MctDaemonUsers} {req : MctServiceSetLogLevel}

theorem idText_eq_nil_iff {id : ID4} : idText id.chars = [] ↔ id.isEmpty := by
  constructor
  · intro hnil
    by_contra hnot
    exact idText_ne_nil hnot hnil
  · intro hempty
    obtain ⟨chars, hlength⟩ := id
    cases chars with
    | nil => rfl
    | cons c cs =>
        have hc : c = '\x00' := by simpa [ID4.isEmpty] using hempty
        simp [idText, mctIdSize, hc]

/-- The comparison of the code decides whether an identifier matches. -/
theorem strncmp_eq_iff_matchesId {pattern id : ID4} (hid : id.Canonical) :
    strncmp id.chars (idText pattern.chars)
        (if (idText pattern.chars).getLast? = some '*' then (idText pattern.chars).length - 1
          else mctIdSize) = .eq ↔ MatchesId pattern id := by
  rw [strncmp_eq_iff, MatchesId]
  by_cases hstar : (idText pattern.chars).getLast? = some '*'
  · rw [if_pos hstar, if_pos hstar, List.prefix_iff_eq_take, List.length_dropLast,
      List.dropLast_eq_take]
    exact eq_comm
  · rw [if_neg hstar, if_neg hstar, List.take_of_length_le (length_idText_le _),
      List.take_of_length_le (length_idText_le _)]
    constructor
    · intro hsame
      rw [← setId_congr hsame]
      exact hid.symm
    · intro hsame
      rw [hsame, idText_setId]

/-- The contexts that a scan with these arguments chooses. -/
def named (appFlag : Bool) (str : List Char) (len : Nat) (keys : List (ID4 ×ₗ ID4)) (k : Nat) :
    Bool :=
  keys[k]?.any fun key =>
    strncmp (if appFlag then (ofLex key).1 else (ofLex key).2).chars str len = .eq

theorem scan_of_not_chosen {chosen : Nat → Bool} (s : LevelState) {positions : List Nat}
    (hnone : ∀ k ∈ positions, chosen k = false) :
    scan kind flags status writes chosen s positions = s := by
  induction positions with
  | nil => rfl
  | cons k positions ih =>
      have hfirst : chosen k = false := hnone k List.mem_cons_self
      rw [scan, List.foldl_cons, if_neg (by simp [hfirst])]
      exact ih fun j hj => hnone j (List.mem_cons_of_mem _ hj)

theorem scan_one {chosen : Nat → Bool} (s : LevelState) {k : Nat} {positions : List Nat}
    (hchosen : ∀ j, chosen j = decide (j = k)) (hnodup : positions.Nodup) (hk : k ∈ positions) :
    scan kind flags status writes chosen s positions =
      s.sendStatus kind flags k status (writes k) := by
  induction positions with
  | nil => cases hk
  | cons j positions ih =>
      obtain ⟨hnot, hrest⟩ := List.nodup_cons.mp hnodup
      rw [scan, List.foldl_cons]
      by_cases hj : j = k
      · subst hj
        rw [if_pos (by simp [hchosen])]
        refine scan_of_not_chosen _ fun i hi => ?_
        have hne : i ≠ j := fun h => hnot (h ▸ hi)
        simp [hchosen, hne]
      · rw [if_neg (by simp [hchosen, hj])]
        exact ih hrest ((List.mem_cons.mp hk).resolve_left fun h => hj h.symm)

/-- Once an application identifier is greater, no context behind it is named. -/
theorem named_behind {str : List Char} {len : Nat} {keys : List (ID4 ×ₗ ID4)}
    (hordered : keys.Pairwise (· ≤ ·)) {j k : Nat} (hjk : j ≤ k) {key : ID4 ×ₗ ID4}
    (hj : keys[j]? = some key) (hgt : strncmp (ofLex key).1.chars str len = .gt) :
    named true str len keys k = false := by
  rw [Bool.eq_false_iff]
  intro hnamed
  obtain ⟨other, hk, hother⟩ := (Option.any_eq_true _ _).mp hnamed
  have hle : key ≤ other := by
    rcases Nat.lt_or_eq_of_le hjk with hlt | rfl
    · obtain ⟨hjlt, rfl⟩ := List.getElem?_eq_some_iff.mp hj
      obtain ⟨hklt, hother⟩ := List.getElem?_eq_some_iff.mp hk
      rw [← hother]
      exact List.pairwise_iff_getElem.mp hordered j k hjlt hklt hlt
    · rw [hj] at hk
      exact le_of_eq (Option.some.inj hk)
  have hapid : (ofLex key).1 ≤ (ofLex other).1 :=
    (Prod.Lex.le_iff.mp hle).elim le_of_lt fun hsame => le_of_eq hsame.1
  exact strncmp_ne_of_gt hgt hapid (of_decide_eq_true hother)

/-- The loop of the code, with its early end, visits what it is to choose. -/
theorem findMultipleContextLoop_eq_scan {appFlag : Bool} {str : List Char} {len : Nat}
    {keys : List (ID4 ×ₗ ID4)} (hordered : keys.Pairwise (· ≤ ·)) (s : LevelState)
    (hkeys : s.users.contextKeys = keys) {positions : List Nat}
    (hpositions : positions.Pairwise (· < ·)) :
    s.findMultipleContextLoop kind flags appFlag str len status writes positions =
      scan kind flags status writes (named appFlag str len keys) s positions := by
  induction positions generalizing s with
  | nil => rfl
  | cons count positions ih =>
      obtain ⟨hbehind, hrest⟩ := List.pairwise_cons.mp hpositions
      have hkey : keys[count]? = s.users.contexts[count]?.map MctDaemonContext.key := by
        rw [← hkeys, MctDaemonUsers.contextKeys, List.getElem?_map]
      unfold LevelState.findMultipleContextLoop
      cases hcontext : s.users.contexts[count]? with
      | none =>
          rw [hcontext, Option.map_none, List.getElem?_eq_none_iff] at hkey
          refine (scan_of_not_chosen s fun k hk => ?_).symm
          have hle : keys.length ≤ k := by
            rcases List.mem_cons.mp hk with rfl | hmem
            · exact hkey
            · exact hkey.trans (hbehind k hmem).le
          simp [named, List.getElem?_eq_none hle]
      | some context =>
          rw [hcontext, Option.map_some] at hkey
          have hnamed : named appFlag str len keys count = decide (strncmp
              (if appFlag then context.apid else context.ctid).chars str len = .eq) := by
            simp only [named, hkey, Option.any_some]
            rfl
          rw [scan, List.foldl_cons, hnamed]
          dsimp only
          cases hcompared : strncmp (if appFlag then context.apid else context.ctid).chars str
              len with
          | lt => exact ih s hkeys hrest
          | eq =>
              have hsame : (s.sendStatus kind flags count status (writes count)).users.contextKeys =
                  keys := by
                rw [← hkeys]
                exact (LevelState.sameEntries_sendStatus kind count status _).contextKeys
              exact ih _ hsame hrest
          | gt =>
              cases appFlag with
              | false => exact ih s hkeys hrest
              | true =>
                  refine (scan_of_not_chosen s fun k hk => ?_).symm
                  exact named_behind hordered (hbehind k hk).le hkey hcompared

/-- The contexts that a request chooses: the one that is found under two
identifiers, or all that match. -/
def chosenContexts (d : MctDaemonUsers) (req : MctServiceSetLogLevel) (k : Nat) : Bool :=
  if NamesOne req then d.contextFind (setId req.apid.chars) (setId req.ctid.chars) = some k
  else d.contexts[k]?.any fun context => req.Matches context

theorem named_contextKeys (appFlag : Bool) (str : List Char) (len : Nat) (k : Nat) :
    named appFlag str len d.contextKeys k = d.contexts[k]?.any fun context =>
      strncmp (if appFlag then context.apid else context.ctid).chars str len = .eq := by
  rw [named, MctDaemonUsers.contextKeys, List.getElem?_map]
  cases d.contexts[k]? with
  | none => rfl
  | some context => rfl

theorem chosenContexts_of_pattern (hone : ¬ NamesOne req) {k : Nat} {context : MctDaemonContext}
    (hcontext : d.contexts[k]? = some context) :
    chosenContexts d req k ↔ req.Matches context := by
  rw [chosenContexts, if_neg hone, hcontext, Option.any_some, decide_eq_true_eq]

/-- The scan over the application identifiers, or the context identifiers. -/
theorem findMultipleContext_eq_scan {s : LevelState} (h : s.InOrder) (hone : ¬ NamesOne req)
    {appFlag : Bool} {pattern : ID4}
    (hmatches : ∀ context : MctDaemonContext, req.Matches context ↔
      MatchesId pattern (if appFlag then context.apid else context.ctid)) :
    s.findMultipleContextAndSendStatus kind flags appFlag (idText pattern.chars)
        (if (idText pattern.chars).getLast? = some '*' then (idText pattern.chars).length - 1
          else mctIdSize) status writes =
      scan kind flags status writes (chosenContexts s.users req) s
        (List.range s.users.contexts.length) := by
  unfold LevelState.findMultipleContextAndSendStatus
  rw [findMultipleContextLoop_eq_scan h.ordered s rfl List.pairwise_lt_range]
  congr 1
  funext k
  rw [named_contextKeys, chosenContexts, if_neg hone]
  cases hcontext : s.users.contexts[k]? with
  | none => rfl
  | some context =>
      have hmem : context.key ∈ s.users.contextKeys :=
        List.mem_map_of_mem (List.mem_of_getElem? hcontext)
      have hcanonical : (if appFlag then context.apid else context.ctid).Canonical := by
        split
        · exact (h.apids _ hmem).1
        · exact (h.ctids _ hmem).1
      rw [Option.any_some, Option.any_some, decide_eq_decide,
        strncmp_eq_iff_matchesId hcanonical]
      exact (hmatches context).symm

open LevelState in
/-- A request sends to the contexts that it chooses, one after the other. -/
theorem controlSetStatus_eq_scan {s : LevelState} (h : s.InOrder) :
    s.controlSetStatus kind flags req writes =
      scan kind flags (requested kind flags req.logLevel) writes (chosenContexts s.users req) s
        (List.range s.users.contexts.length) := by
  unfold LevelState.controlSetStatus
  simp only [int8_requested]
  by_cases hapid : req.apid.isEmpty
  · have hnoapid := idText_eq_nil_iff.mpr hapid
    have hone : ¬ NamesOne req := fun hone => hone.1 hapid
    by_cases hctid : req.ctid.isEmpty
    · have hnoctid := idText_eq_nil_iff.mpr hctid
      rw [if_neg (fun h => h.1 hnoapid), if_neg (fun h => h.1 hnoctid),
        if_neg (fun h => h.1 hnoapid), if_neg (fun h => h.1 hnoctid)]
      have hnotfound : s.users.contextFind (setId req.apid.chars) (setId req.ctid.chars) =
          none := by
        unfold MctDaemonUsers.contextFind
        rw [if_pos (by simp [isEmpty_setId, hapid])]
      rw [hnotfound]
      refine (scan_of_not_chosen s fun k _ => ?_).symm
      rw [chosenContexts, if_neg hone]
      cases s.users.contexts[k]? with
      | none => rfl
      | some context => simp [MctServiceSetLogLevel.Matches, hctid, hapid]
    · have hsome : idText req.ctid.chars ≠ [] := idText_ne_nil hctid
      have hmatches : ∀ context : MctDaemonContext, req.Matches context ↔
          MatchesId req.ctid (if false then context.apid else context.ctid) := by
        intro context
        rw [MctServiceSetLogLevel.Matches, if_neg hctid, if_pos hapid]
        rfl
      rw [if_neg (fun h => h.1 hnoapid), ← findMultipleContext_eq_scan h hone hmatches]
      by_cases hstar : (idText req.ctid.chars).getLast? = some '*'
      · rw [if_pos ⟨hsome, hstar, hnoapid⟩, if_pos hstar]
      · rw [if_neg (fun h => hstar h.2.1), if_neg (fun h => h.1 hnoapid),
          if_pos ⟨hsome, hstar, hnoapid⟩, if_neg hstar]
  · have hsomeApid : idText req.apid.chars ≠ [] := idText_ne_nil hapid
    by_cases hctid : req.ctid.isEmpty
    · have hnoctid := idText_eq_nil_iff.mpr hctid
      have hone : ¬ NamesOne req := fun hone => hone.2 hctid
      have hmatches : ∀ context : MctDaemonContext, req.Matches context ↔
          MatchesId req.apid (if true then context.apid else context.ctid) := by
        intro context
        rw [MctServiceSetLogLevel.Matches, if_pos hctid, and_iff_right hapid]
        rfl
      rw [← findMultipleContext_eq_scan h hone hmatches]
      by_cases hstar : (idText req.apid.chars).getLast? = some '*'
      · rw [if_pos ⟨hsomeApid, hstar, hnoctid⟩, if_pos hstar]
      · rw [if_neg (fun h => hstar h.2.1), if_neg (fun h => h.1 hnoctid),
          if_pos ⟨hsomeApid, hstar, hnoctid⟩, if_neg hstar]
    · have hsome : idText req.ctid.chars ≠ [] := idText_ne_nil hctid
      have hone : NamesOne req := ⟨hapid, hctid⟩
      rw [if_neg (fun h => hsome h.2.2), if_neg (fun h => hsomeApid h.2.2),
        if_neg (fun h => hsome h.2.2), if_neg (fun h => hsomeApid h.2.2)]
      cases hfound : s.users.contextFind (setId req.apid.chars) (setId req.ctid.chars) with
      | none =>
          refine (scan_of_not_chosen s fun k _ => ?_).symm
          simp [chosenContexts, hone, hfound]
      | some k =>
          obtain ⟨context, hcontext, _⟩ := MctDaemonUsers.contextFind_sound hfound
          have hlength : k < s.users.contexts.length :=
            (List.getElem?_eq_some_iff.mp hcontext).1
          refine (scan_one s (fun j => ?_) List.nodup_range (List.mem_range.mpr hlength)).symm
          simp [chosenContexts, hone, hfound, eq_comm]

/-- A choice of contexts for a request: only contexts that match; all of them for
a pattern; one of them for two identifiers, which is all of them when no context
is registered twice. -/
structure Chooses (d : MctDaemonUsers) (req : MctServiceSetLogLevel) (chosen : Nat → Bool) :
    Prop where
  matching : ∀ k, chosen k → ∃ context, d.contexts[k]? = some context ∧ req.Matches context
  pattern : ¬ NamesOne req → ∀ (k : Nat) (context : MctDaemonContext),
    d.contexts[k]? = some context → req.Matches context → chosen k
  one : NamesOne req → (∃ context ∈ d.contexts, req.Matches context) → ∃! k, chosen k
  distinct : d.contextKeys.Nodup → ∀ (k : Nat) (context : MctDaemonContext),
    d.contexts[k]? = some context → req.Matches context → chosen k

theorem matches_of_namesOne (hone : NamesOne req) {context : MctDaemonContext} :
    req.Matches context ↔ context.apid = setId req.apid.chars ∧ context.ctid = setId req.ctid.chars
    := by
  rw [MctServiceSetLogLevel.Matches, if_neg hone.2, if_neg hone.1]

theorem chosenContexts_of_namesOne (hone : NamesOne req) {k : Nat} :
    chosenContexts d req k ↔
      d.contextFind (setId req.apid.chars) (setId req.ctid.chars) = some k := by
  rw [chosenContexts, if_pos hone, decide_eq_true_eq]

/-- What a request chooses is what it names. -/
theorem chooses_chosenContexts (h : d.InOrder) : Chooses d req (chosenContexts d req) := by
  have hfound : NamesOne req → (∃ context ∈ d.contexts, req.Matches context) →
      ∃ k, d.contextFind (setId req.apid.chars) (setId req.ctid.chars) = some k := by
    rintro hone ⟨context, hcontext, hmatches⟩
    obtain ⟨hapid, hctid⟩ := (matches_of_namesOne hone).mp hmatches
    refine Option.isSome_iff_exists.mp (h.contextFind_isSome (setId_canonical req.apid) ?_)
    rw [setId_setId, setId_setId, ← hapid, ← hctid]
    exact List.mem_map_of_mem (f := MctDaemonContext.key) hcontext
  refine ⟨?_, ?_, ?_, ?_⟩
  · intro k hk
    by_cases hone : NamesOne req
    · obtain ⟨context, hcontext, hapid, hctid⟩ :=
        MctDaemonUsers.contextFind_sound ((chosenContexts_of_namesOne hone).mp hk)
      rw [setId_setId] at hapid hctid
      exact ⟨context, hcontext, (matches_of_namesOne hone).mpr ⟨hapid, hctid⟩⟩
    · rw [chosenContexts, if_neg hone] at hk
      obtain ⟨context, hcontext, hmatches⟩ := (Option.any_eq_true _ _).mp hk
      exact ⟨context, hcontext, of_decide_eq_true hmatches⟩
  · intro hone k context hcontext hmatches
    exact (chosenContexts_of_pattern hone hcontext).mpr hmatches
  · intro hone hexists
    obtain ⟨k, hk⟩ := hfound hone hexists
    refine ⟨k, (chosenContexts_of_namesOne hone).mpr hk, fun j hj => ?_⟩
    exact Option.some.inj (((chosenContexts_of_namesOne hone).mp hj).symm.trans hk)
  · intro hnodup k context hcontext hmatches
    by_cases hone : NamesOne req
    · obtain ⟨j, hj⟩ := hfound hone ⟨context, List.mem_of_getElem? hcontext, hmatches⟩
      obtain ⟨other, hother, hapid, hctid⟩ := MctDaemonUsers.contextFind_sound hj
      rw [setId_setId] at hapid hctid
      obtain ⟨hapid', hctid'⟩ := (matches_of_namesOne hone).mp hmatches
      have hkey : other.key = context.key := by
        unfold MctDaemonContext.key
        rw [hapid, hctid, hapid', hctid']
      have hsame : j = k := by
        have hlength : j < d.contextKeys.length := by
          rw [MctDaemonUsers.contextKeys, List.length_map]
          exact (List.getElem?_eq_some_iff.mp hother).1
        refine (List.getElem?_inj hlength hnodup).mp ?_
        rw [MctDaemonUsers.contextKeys, List.getElem?_map, List.getElem?_map, hother, hcontext,
          Option.map_some, Option.map_some, hkey]
      rw [← hsame]
      exact (chosenContexts_of_namesOne hone).mpr hj
    · exact (chosenContexts_of_pattern hone hcontext).mpr hmatches

theorem onlyHandles_beforeTurn (writes : Nat → SendResult) (chosen : Nat → Bool) (n : Nat) :
    OnlyHandles d (beforeTurn writes chosen d n) := by
  induction n with
  | zero => exact fun k context hcontext => ⟨context.userHandle, hcontext⟩
  | succ n ih =>
      rw [beforeTurn_succ]
      refine ih.trans ?_
      unfold withdraw
      split
      · exact fun k context hcontext => ⟨context.userHandle, hcontext⟩
      · split
        · exact onlyHandles_userSendLogLevel _ n (writes n)
        · exact fun k context hcontext => ⟨context.userHandle, hcontext⟩

/-- A request in any run changes exactly the contexts that it names, if they can
be reached: the two kinds of requests choose alike, and of every other context
all but the handle stays. -/
theorem requests_change_named_contexts (ipc : MctIpc) (flags : LevelFlags) (start : LevelState)
    (hstart : start.users.IsEmpty) (ops : List LevelOp) (req : MctServiceSetLogLevel) :
    let s := (runOps (levelStep ipc flags) start ops).2
    ∃ chosen, Chooses s.users req chosen ∧
      ∀ (kind : LevelKind) (writes : Nat → SendResult) (k : Nat) (context : MctDaemonContext),
        s.users.contexts[k]? = some context →
          ∃ handle, (s.controlSetStatus kind flags req writes).users.contexts[k]? =
            some ({ context with userHandle := handle }.withStatus kind
              (if Reached writes chosen s.users k then LevelState.requested kind flags req.logLevel
                else context.status kind)) := by
  intro s
  have hs : s.InOrder := LevelState.inOrder_levelRun ipc flags hstart ops
  refine ⟨chosenContexts s.users req, chooses_chosenContexts hs, ?_⟩
  intro kind writes k context hcontext
  have hlength : k < s.users.contexts.length := (List.getElem?_eq_some_iff.mp hcontext).1
  obtain ⟨handle, hlast⟩ := onlyHandles_beforeTurn writes (chosenContexts s.users req)
    s.users.contexts.length k context hcontext
  refine ⟨handle, ?_⟩
  rw [controlSetStatus_eq_scan hs, users_scan, markStatus_getElem?, hlast, Option.map_some]
  by_cases hreached : Reached writes (chosenContexts s.users req) s.users k
  · rw [if_pos (by simp [hlength, hreached]), if_pos hreached]
  · rw [if_neg (by simp [hreached]), if_neg hreached]
    cases kind <;> rfl

/-- Two applications, one with two contexts. -/
def requestOps : List LevelOp :=
  [.registerApplication (setId ['A', 'P', 'P', '1']) 10 [] 5 0 ⟨true, false⟩
      (fun _ => ⟨true, false⟩),
    .registerContext (setId ['A', 'P', 'P', '1']) (setId ['C', 'T', 'X', '2']) 3 0 0 []
      ⟨true, false⟩,
    .registerContext (setId ['A', 'P', 'P', '1']) (setId ['C', 'T', 'X', '1']) 3 0 1 []
      ⟨true, false⟩,
    .registerApplication (setId ['B', 'A', 'P', 'P']) 11 [] 6 0 ⟨true, false⟩
      (fun _ => ⟨true, false⟩),
    .registerContext (setId ['B', 'A', 'P', 'P']) (setId ['C', 'T', 'X', '1']) 3 0 0 []
      ⟨true, false⟩]

def requestFlags : LevelFlags := ⟨3, 0, false, false, true⟩

def requestState : LevelState :=
  (runOps (levelStep .unixSocket requestFlags) ⟨⟨true, [], [], 3, 0, false, false, 0⟩, []⟩
    requestOps).2

/-- The contexts of the applications whose identifiers start with `AP`. -/
def requestOfApplications : MctServiceSetLogLevel :=
  ⟨setId ['A', 'P', '*', '\x00'], setId ['\x00', '\x00', '\x00', '\x00'], 6⟩

theorem requests_change_named_contexts_sample :
    ∃ chosen, Chooses requestState.users requestOfApplications chosen ∧ ¬ chosen 2 ∧
      ∀ (kind : LevelKind) (writes : Nat → SendResult) (k : Nat) (context : MctDaemonContext),
        requestState.users.contexts[k]? = some context →
          ∃ handle, (requestState.controlSetStatus kind requestFlags requestOfApplications
            writes).users.contexts[k]? = some ({ context with userHandle := handle }.withStatus kind
              (if Reached writes chosen requestState.users k then
                LevelState.requested kind requestFlags requestOfApplications.logLevel
              else context.status kind)) := by
  obtain ⟨chosen, hchooses, hchanged⟩ := requests_change_named_contexts .unixSocket requestFlags
    ⟨⟨true, [], [], 3, 0, false, false, 0⟩, []⟩ ⟨rfl, rfl⟩ requestOps requestOfApplications
  refine ⟨chosen, hchooses, fun htwo => ?_, hchanged⟩
  obtain ⟨context, hcontext, hmatches⟩ := hchooses.matching 2 htwo
  have hnone : ∀ context ∈ requestState.users.contexts[2]?,
      ¬ requestOfApplications.Matches context := by decide +kernel
  exact hnone context hcontext hmatches

end Choice

end MctDaemon.Daemon
