import MctDaemon.Lib.Walk
import MctDaemon.Daemon.UserCounts

/-!
A block mode update to all applications. What the send to an application answers is given for its
place in the table before the update; the loop goes by position, and a failed send may delete the
entry it stands on.
-/

namespace MctDaemon.Daemon

open Lib Shared

namespace MctDaemonUsers

section Applications

variable (blockMode : Int) (send : Nat → SendResult)

/-- What the send to an application answers, given with its place in the table. -/
def sendAnswer (x : MctDaemonApplication × Nat) : SendResult :=
  userLogOut2 x.1.userHandle (send x.2)

/-- The application is to be told the new mode. -/
def NeedsUpdate (x : MctDaemonApplication × Nat) : Prop := x.1.blockmodeStatus ≠ blockMode

def EndsInEpipe (x : MctDaemonApplication × Nat) : Prop :=
  NeedsUpdate blockMode x ∧ (sendAnswer send x).ok = false ∧ (sendAnswer send x).epipe = true

instance : DecidablePred (NeedsUpdate blockMode) := fun _ => inferInstanceAs (Decidable (_ ≠ _))

instance : DecidablePred (EndsInEpipe blockMode send) :=
  fun _ => inferInstanceAs (Decidable (_ ∧ _))

def told (x : MctDaemonApplication × Nat) : MctDaemonApplication :=
  if NeedsUpdate blockMode x ∧ (sendAnswer send x).ok then
    { x.1 with blockmodeStatus := blockMode }
  else x.1

/-- What the send on a turn of the loop answers: the turn has come to an application of the table
before the update. -/
def sendOnTurn (d : MctDaemonUsers) (t : Nat) : SendResult :=
  match (visited (EndsInEpipe blockMode send) d.applications.zipIdx)[t]? with
  | none => send t
  | some x => send x.2

/-- The update is sent once to every application that needs it, and to no other; an application
stays unless its send ends in EPIPE, with the new mode if the send succeeds. -/
structure ReachesEvery (d : MctDaemonUsers) : Prop where
  sent : d.blockmodeSends mctAllApplications blockMode (d.sendOnTurn blockMode send) =
    (d.applications.zipIdx.filter (NeedsUpdate blockMode)).map fun x => (x.1, sendAnswer send x)
  left : (d.userUpdateBlockmode mctAllApplications blockMode
      (d.sendOnTurn blockMode send)).2.applications =
    (d.applications.zipIdx.filter fun x => ¬ EndsInEpipe blockMode send x).map (told blockMode send)

end Applications

section Turns

/-- What a turn does to the entry it finds. -/
def blockmodeTurn (blockMode : Int) (write : SendResult) (application : MctDaemonApplication) :
    Option MctDaemonApplication :=
  if application.blockmodeStatus ≠ blockMode then
    let sent := userLogOut2 application.userHandle write
    if sent.ok then some { application with blockmodeStatus := blockMode }
    else if sent.epipe then none
    else some application
  else some application

variable (d : MctDaemonUsers) (blockMode : Int)

theorem applications_resetUserHandle_eraseIdx (i : Nat) :
    (d.applicationResetUserHandle i).applications.eraseIdx i = d.applications.eraseIdx i := by
  unfold applicationResetUserHandle
  split
  · rfl
  · split
    · rfl
    · split <;> exact List.eraseIdx_modify_of_eq _ _ _

theorem modify_of_getElem? {α : Type*} {l : List α} {i : Nat} {a : α} (f : α → α)
    (h : l[i]? = some a) : l.modify i f = l.set i (f a) := by
  apply List.ext_getElem?
  intro j
  rw [List.getElem?_modify, List.getElem?_set]
  by_cases hij : i = j
  · subst hij
    have hi := (List.getElem?_eq_some_iff.mp h).1
    have hget := (List.getElem?_eq_some_iff.mp h).2
    simp [hi, hget]
  · simp [hij]

theorem applications_updateBlockmodeAt (i : Nat) (write : SendResult) :
    (d.updateBlockmodeAt i blockMode write).applications =
      turnAt (blockmodeTurn blockMode write) i d.applications := by
  unfold updateBlockmodeAt turnAt blockmodeTurn userSendUpdateBlockmode
  cases happlication : d.applications[i]? with
  | none => rfl
  | some application =>
      obtain ⟨hi, hget⟩ := List.getElem?_eq_some_iff.mp happlication
      have hself : d.applications.set i application = d.applications := by
        rw [← hget, List.set_getElem_self]
      by_cases hneeds : application.blockmodeStatus ≠ blockMode
      · simp only [if_pos hneeds]
        cases hok : (userLogOut2 application.userHandle write).ok with
        | true =>
            exact modify_of_getElem? _ happlication
        | false =>
            cases hepipe : (userLogOut2 application.userHandle write).epipe with
            | true =>
                exact applications_resetUserHandle_eraseIdx d i
            | false => exact hself.symm
      · simp only [if_neg hneeds]
        exact hself.symm

variable (writes : Nat → SendResult)

theorem applications_foldl (positions : List Nat) :
    (positions.foldl (fun d t => d.updateBlockmodeAt t blockMode (writes t)) d).applications =
      positions.foldl (fun l t => turnAt (blockmodeTurn blockMode (writes t)) t l)
        d.applications := by
  induction positions generalizing d with
  | nil => rfl
  | cons t ts ih => rw [List.foldl_cons, List.foldl_cons, ih, applications_updateBlockmodeAt]

/-- The message to an application, if it is to be told the mode. -/
def sendOf (x : Nat × MctDaemonApplication) : List (MctDaemonApplication × SendResult) :=
  if x.2.blockmodeStatus ≠ blockMode then [(x.2, userLogOut2 x.2.userHandle (writes x.1))] else []

theorem sendOf_needs {x : MctDaemonApplication × Nat} (h : NeedsUpdate blockMode x) (t : Nat) :
    sendOf blockMode writes (t, x.1) = [(x.1, userLogOut2 x.1.userHandle (writes t))] :=
  if_pos h

theorem sendOf_other {x : MctDaemonApplication × Nat} (h : ¬ NeedsUpdate blockMode x) (t : Nat) :
    sendOf blockMode writes (t, x.1) = [] :=
  if_neg h

theorem blockmodeSendsFrom_eq (positions : List Nat) :
    blockmodeSendsFrom blockMode writes positions d =
      (entriesAt (fun t => blockmodeTurn blockMode (writes t)) positions
        d.applications).flatMap (sendOf blockMode writes) := by
  induction positions generalizing d with
  | nil => rfl
  | cons t ts ih =>
      rw [blockmodeSendsFrom, entriesAt, List.flatMap_append, ih, applications_updateBlockmodeAt]
      congr 1
      unfold blockmodeSendAt
      cases d.applications[t]? with
      | none => rfl
      | some application => simp [sendOf]

end Turns

section Update

variable (d : MctDaemonUsers) {blockMode : Int} (send : Nat → SendResult)

theorem blockmodeTurn_eq (x : MctDaemonApplication × Nat) :
    blockmodeTurn blockMode (send x.2) x.1 =
      if EndsInEpipe blockMode send x then none else some (told blockMode send x) := by
  unfold blockmodeTurn EndsInEpipe told NeedsUpdate sendAnswer
  by_cases hneeds : x.1.blockmodeStatus ≠ blockMode
  · by_cases hok : (userLogOut2 x.1.userHandle (send x.2)).ok = true
    · simp [hneeds, hok]
    · by_cases hepipe : (userLogOut2 x.1.userHandle (send x.2)).epipe = true
      · simp [hneeds, hok, hepipe]
      · simp [hneeds, hok, hepipe]
  · simp [hneeds]

variable (blockMode) in
/-- The turns of the loop meet the applications that the walk along the table comes to. -/
theorem answers_sendOnTurn :
    AnswersAlong (EndsInEpipe blockMode send) (told blockMode send) Prod.fst
      (fun t => blockmodeTurn blockMode (d.sendOnTurn blockMode send t)) 0
      d.applications.zipIdx := by
  intro j x hx
  have hturn : d.sendOnTurn blockMode send (0 + j) = send x.2 := by
    rw [Nat.zero_add, sendOnTurn, hx]
  simp only [hturn]
  exact blockmodeTurn_eq send x

/-- Each turn that finds an application sends it what its place is given. -/
theorem flatMap_sendOf (l : List ((MctDaemonApplication × Nat) × Nat))
    (h : ∀ found ∈ l, d.sendOnTurn blockMode send found.2 = send found.1.2) :
    (l.map fun found => (found.2, found.1.1)).flatMap
        (sendOf blockMode (d.sendOnTurn blockMode send)) =
      ((l.map Prod.fst).filter (NeedsUpdate blockMode)).map fun x => (x.1, sendAnswer send x) := by
  induction l with
  | nil => rfl
  | cons found rest ih =>
      have hrest := ih fun other hother => h other (List.mem_cons_of_mem _ hother)
      have hfound := h found List.mem_cons_self
      rw [List.map_cons, List.flatMap_cons, hrest, List.map_cons]
      by_cases hneeds : NeedsUpdate blockMode found.1
      · rw [List.filter_cons_of_pos (by simpa using hneeds), sendOf_needs blockMode _ hneeds,
          hfound]
        rfl
      · rw [List.filter_cons_of_neg (by simpa using hneeds), sendOf_other blockMode _ hneeds]
        rfl

/-- The messages go to the applications the walk comes to, each answered as its place says. -/
theorem blockmodeSends_eq
    (hmode : mctModeNonBlocking ≤ blockMode ∧ blockMode ≤ mctModeBlocking) :
    d.blockmodeSends mctAllApplications blockMode (d.sendOnTurn blockMode send) =
      ((visited (EndsInEpipe blockMode send) d.applications.zipIdx).filter
        (NeedsUpdate blockMode)).map fun x => (x.1, sendAnswer send x) := by
  have hrange : ¬ (blockMode < mctModeNonBlocking ∨ mctModeBlocking < blockMode) := by omega
  have hentries := entriesAt_range' [] d.applications.zipIdx (Nat.le_refl _)
    (d.answers_sendOnTurn blockMode send)
  rw [List.length_nil, List.nil_append, List.zipIdx_map_fst, List.length_zipIdx] at hentries
  rw [blockmodeSends, if_neg hrange, if_pos rfl, blockmodeSendsFrom_eq, List.range_eq_range',
    hentries, flatMap_sendOf, List.zipIdx_map_fst]
  rintro ⟨x, j⟩ hfound
  have hx := List.mem_zipIdx_iff_getElem?.mp hfound
  rw [sendOnTurn, hx]

/-- What the loop leaves is what the walk leaves. -/
theorem applications_userUpdateBlockmode
    (hmode : mctModeNonBlocking ≤ blockMode ∧ blockMode ≤ mctModeBlocking) :
    (d.userUpdateBlockmode mctAllApplications blockMode
        (d.sendOnTurn blockMode send)).2.applications =
      leftover (EndsInEpipe blockMode send) (told blockMode send) Prod.fst
        d.applications.zipIdx := by
  have hrange : ¬ (blockMode < mctModeNonBlocking ∨ mctModeBlocking < blockMode) := by omega
  have hloop := foldl_turnAt [] d.applications.zipIdx (Nat.le_refl _)
    (d.answers_sendOnTurn blockMode send)
  rw [List.length_nil, List.nil_append, List.nil_append, List.zipIdx_map_fst,
    List.length_zipIdx] at hloop
  rw [userUpdateBlockmode, if_neg hrange, if_pos rfl, ← hloop, ← List.range_eq_range']
  exact applications_foldl d blockMode _ _

theorem nodup_zipIdx : d.applications.zipIdx.Nodup := by
  apply List.Nodup.of_map Prod.snd
  rw [List.zipIdx_map_snd]
  exact List.nodup_range'

/-- A block mode change reaches every application exactly if no application that is to be told
stands right behind one whose send ends in EPIPE. -/
theorem reachesEvery_iff
    (hmode : mctModeNonBlocking ≤ blockMode ∧ blockMode ≤ mctModeBlocking) :
    d.ReachesEvery blockMode send ↔
      d.applications.zipIdx.IsChain fun x y =>
        ¬(EndsInEpipe blockMode send x ∧ NeedsUpdate blockMode y) := by
  rw [← filter_visited_iff_isChain _ _ (fun x hx => hx.1) d.nodup_zipIdx]
  constructor
  · intro h
    have hsent := h.sent
    rw [d.blockmodeSends_eq send hmode] at hsent
    apply ((visited_sublist _ _).filter _).eq_of_length
    simpa using congrArg List.length hsent
  · intro h
    refine ⟨?_, ?_⟩
    · rw [d.blockmodeSends_eq send hmode, h]
    · rw [d.applications_userUpdateBlockmode send hmode]
      apply leftover_of_isChain (p := NeedsUpdate blockMode)
      · intro x hx
        exact if_neg fun hboth => hx hboth.1
      · intro x hx
        exact hx.1
      · exact (filter_visited_iff_isChain _ _ (fun x hx => hx.1) d.nodup_zipIdx).mp h

/-- Two applications run in non-blocking mode; the first of them is gone. -/
def twoApplications : MctDaemonUsers where
  ownEcu := true
  applications :=
    [⟨setId ['A', 'P', 'P', '1'], 100, 5, false, none, 0, mctModeNonBlocking⟩,
      ⟨setId ['A', 'P', 'P', '2'], 101, 6, false, none, 0, mctModeNonBlocking⟩]
  contexts := []
  defaultLogLevel := 4
  defaultTraceStatus := 0
  forceLlTs := false
  runtimeContextCfgLoaded := false
  blockMode := mctModeNonBlocking

/-- The second application is not told the new mode. -/
theorem twoApplications_skipped :
    ¬ twoApplications.ReachesEvery mctModeBlocking
      (fun i => if i = 0 then ⟨false, true⟩ else ⟨true, false⟩) := by
  intro h
  exact absurd h.sent (by decide)

/-- With the second of them gone, the first is told. -/
theorem twoApplications_told :
    twoApplications.ReachesEvery mctModeBlocking
      fun i => if i = 1 then ⟨false, true⟩ else ⟨true, false⟩ :=
  (reachesEvery_iff _ _ (by decide)).mpr (by decide)

end Update

end MctDaemonUsers

end MctDaemon.Daemon
