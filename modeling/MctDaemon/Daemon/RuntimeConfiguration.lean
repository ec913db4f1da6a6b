import MctDaemon.Daemon.UserTables
import MctDaemon.Lib.TextFile

/-!
The registered applications and contexts in the files of the runtime
configuration: `mct_daemon_applications_save`, `mct_daemon_contexts_save` and
the functions that load the files again (`mct_daemon_common.c`). A file that
was not written is `none`.
-/

namespace MctDaemon.Daemon

open Lib Shared

def mctDaemonCommonTextbufsize : Nat := 255

def int8 (n : Int) : Int := n.bmod 256

def applicationLine (application : MctDaemonApplication) : List Char :=
  let apid := idText application.apid.chars
  match application.applicationDescription with
  | some (c :: cs) => apid ++ ':' :: (c :: cs) ++ [':', '\n']
  | _ => apid ++ [':', ':', '\n']

def contextLine (context : MctDaemonContext) : List Char :=
  let apid := idText context.apid.chars
  let ctid := idText context.ctid.chars
  let logLevel := printInt context.logLevel
  let traceStatus := printInt context.traceStatus
  match context.contextDescription with
  | some (c :: cs) =>
      apid ++ ':' :: ctid ++ ':' :: logLevel ++ ':' :: traceStatus ++ ':' :: (c :: cs) ++
        [':', '\n']
  | _ => apid ++ ':' :: ctid ++ ':' :: logLevel ++ ':' :: traceStatus ++ [':', ':', '\n']

/-- What `sscanf` makes of the fields of a context's line, on top of the levels
read before, and the fields that are kept as text if none is missing. -/
def scanContext (ll ts : Int) (line : List Char) :
    (Int × Int) × Option (List Char × List Char × List Char) :=
  match strtok ':' (cString line) with
  | apid :: ctid :: level :: fields =>
      let ll := (sscanfInt level).getD ll
      match fields with
      | [] => ((ll, ts), none)
      | status :: fields =>
          let ts := (sscanfInt status).getD ts
          ((ll, ts), fields.head?.map fun description => (apid, ctid, description))
  | _ => ((ll, ts), none)

namespace MctDaemonUsers

/-- `mct_daemon_applications_save`: the content of the file. -/
def applicationsSave (d : MctDaemonUsers) : Option (List Char) :=
  if d.applications = [] then none else some (d.applications.map applicationLine).flatten

/-- `mct_daemon_contexts_save`: the content of the file. -/
def contextsSave (d : MctDaemonUsers) : Option (List Char) :=
  if d.contexts = [] then none else some (d.contexts.map contextLine).flatten

/-- The loop of `mct_daemon_applications_load`. -/
def applicationsLoadLines (ipc : MctIpc) : MctDaemonUsers → List (List Char) → Int × MctDaemonUsers
  | d, [] => (0, d)
  | d, line :: lines =>
      match strtok ':' (cString line) with
      | apid :: description :: _ =>
          -- without a process nothing is opened
          match d.applicationAdd ipc (setId apid) 0 (some description) (-1) mctFdInit with
          | (none, d) => (-1, d)
          | (some _, d) => applicationsLoadLines ipc d lines
      | _ => applicationsLoadLines ipc d lines

def applicationsLoad (ipc : MctIpc) (d : MctDaemonUsers) (file : Option (List Char)) :
    Int × MctDaemonUsers :=
  match file with
  | none => (-1, d)
  | some content => d.applicationsLoadLines ipc (readLines (mctDaemonCommonTextbufsize - 1) content)

/-- The loop of `mct_daemon_contexts_load`. -/
def contextsLoadLines : MctDaemonUsers → Int → Int → List (List Char) → Int × MctDaemonUsers
  | d, _, _, [] => (0, d)
  | d, ll, ts, line :: lines =>
      let scanned := scanContext ll ts line
      match scanned.2 with
      | none => contextsLoadLines d scanned.1.1 scanned.1.2 lines
      | some (apid, ctid, description) =>
          match d.contextAdd (setId apid) (setId ctid) (int8 scanned.1.1) (int8 scanned.1.2) 0 0
            (some description) with
          | (none, d) => (-1, d)
          | (some _, d) => contextsLoadLines d scanned.1.1 scanned.1.2 lines

/-- `mct_daemon_contexts_load`, with what its variables for the levels hold
before they are set. -/
def contextsLoad (d : MctDaemonUsers) (ll ts : Int) (file : Option (List Char)) :
    Int × MctDaemonUsers :=
  match file with
  | none => (-1, d)
  | some content => d.contextsLoadLines ll ts (readLines (mctDaemonCommonTextbufsize - 1) content)

/-- The files of `d` are written, and loaded into the tables of `start`. -/
def reload (ipc : MctIpc) (ll ts : Int) (d start : MctDaemonUsers) : MctDaemonUsers :=
  ((start.applicationsLoad ipc d.applicationsSave).2.contextsLoad ll ts d.contextsSave).2

/-- What the file of the applications keeps of them. -/
def applicationEntries (d : MctDaemonUsers) : List (ID4 × Option (List Char)) :=
  d.applications.map fun application => (application.apid, application.applicationDescription)

/-- What the file of the contexts keeps of them. -/
def contextEntries (d : MctDaemonUsers) : List (ID4 × ID4 × Int × Int × Option (List Char)) :=
  d.contexts.map fun context =>
    (context.apid, context.ctid, context.logLevel, context.traceStatus, context.contextDescription)

/-- The tables hold the same applications and contexts as those of `d`. -/
def ReloadedFrom (d loaded : MctDaemonUsers) : Prop :=
  loaded.applicationEntries = d.applicationEntries ∧ loaded.contextEntries = d.contextEntries

instance (d loaded : MctDaemonUsers) : Decidable (ReloadedFrom d loaded) :=
  inferInstanceAs (Decidable (_ ∧ _))

end MctDaemonUsers

section Lines

/-- The fields of an application's line before its description. -/
def applicationFields (application : MctDaemonApplication) : List (List Char) :=
  [idText application.apid.chars]

/-- The fields of a context's line before its description. -/
def contextFields (context : MctDaemonContext) : List (List Char) :=
  [idText context.apid.chars, idText context.ctid.chars, printInt context.logLevel,
    printInt context.traceStatus]

theorem applicationLine_eq (application : MctDaemonApplication) :
    applicationLine application = record ':' (applicationFields application) ++
      application.applicationDescription.getD [] ++ [':', '\n'] := by
  unfold applicationLine applicationFields
  rcases application.applicationDescription with _ | (_ | ⟨c, cs⟩) <;> simp [record]

theorem contextLine_eq (context : MctDaemonContext) :
    contextLine context = record ':' (contextFields context) ++
      context.contextDescription.getD [] ++ [':', '\n'] := by
  unfold contextLine contextFields
  rcases context.contextDescription with _ | (_ | ⟨c, cs⟩) <;> simp [record]

/-- A description as it can be registered, without a newline. -/
def SavedText (description : Option (List Char)) : Prop :=
  ∃ text, description = some text ∧ text.length ≤ 256 ∧ '\n' ∉ text ∧ '\x00' ∉ text

instance : DecidablePred SavedText
  | none => isFalse (by rintro ⟨_, h, _⟩; cases h)
  | some text =>
      decidable_of_iff (text.length ≤ 256 ∧ '\n' ∉ text ∧ '\x00' ∉ text) (by simp [SavedText])

def SavedId (id : ID4) : Prop :=
  id.Canonical ∧ ¬ id.isEmpty ∧ ':' ∉ id.chars ∧ '\n' ∉ id.chars

instance (id : ID4) : Decidable (SavedId id) := inferInstanceAs (Decidable (_ ∧ _ ∧ _ ∧ _))

/-- Tables of applications and contexts that may be registered, with identifiers
and descriptions that do not run over a line. -/
structure Saveable (d : MctDaemonUsers) : Prop where
  tables : d.Tables
  apids : ∀ application ∈ d.applications, SavedId application.apid
  descriptions : ∀ application ∈ d.applications, SavedText application.applicationDescription
  contextIds : ∀ context ∈ d.contexts, SavedId context.apid ∧ SavedId context.ctid
  contextDescriptions : ∀ context ∈ d.contexts, SavedText context.contextDescription
  logLevels : ∀ context ∈ d.contexts,
    mctLogDefault ≤ context.logLevel ∧ context.logLevel ≤ mctLogVerbose
  traceStatuses : ∀ context ∈ d.contexts,
    mctTraceStatusDefault ≤ context.traceStatus ∧ context.traceStatus ≤ mctTraceStatusOn

/-- A field that is read back as it is. -/
structure PlainField (field : List Char) : Prop where
  nonempty : field ≠ []
  separator : ':' ∉ field
  newline : '\n' ∉ field
  zero : '\x00' ∉ field
  short : field.length ≤ mctIdSize

theorem SavedId.plain {id : ID4} (h : SavedId id) : PlainField (idText id.chars) := by
  obtain ⟨_, hnonempty, hsep, hnewline⟩ := h
  exact ⟨idText_ne_nil hnonempty, fun hc => hsep (idText_subset _ hc),
    fun hc => hnewline (idText_subset _ hc), not_mem_idText _, length_idText_le _⟩

/-- The levels in range are printed and read back. -/
theorem level_plain {n : Int} (hlow : -1 ≤ n) (hhigh : n ≤ 6) :
    PlainField (printInt n) ∧ (sscanfInt (printInt n)) = some n ∧ int8 n = n := by
  have hplain : ∀ k : Fin 8, PlainField (printInt (k.val - 1)) ∧
      (sscanfInt (printInt (k.val - 1))) = some (k.val - 1 : Int) ∧
      int8 (k.val - 1) = k.val - 1 := by
    intro k
    refine ⟨⟨?_, ?_, ?_, ?_, ?_⟩, ?_, ?_⟩ <;> revert k <;> decide +kernel
  have h := hplain ⟨(n + 1).toNat, by omega⟩
  have hn : (((n + 1).toNat : Nat) : Int) - 1 = n := by omega
  rw [hn] at h
  exact h

/-- The description is not empty, has no separator, and fits into the buffer of
the loading functions together with the fields before it. -/
def Storable (fields : List (List Char)) (description : Option (List Char)) : Prop :=
  description.getD [] ≠ [] ∧ ':' ∉ description.getD [] ∧
    (record ':' fields).length + (description.getD []).length < mctDaemonCommonTextbufsize

instance (fields : List (List Char)) (description : Option (List Char)) :
    Decidable (Storable fields description) := inferInstanceAs (Decidable (_ ∧ _ ∧ _))

variable {fields : List (List Char)} {description : Option (List Char)}

theorem length_record_le (hfields : ∀ field ∈ fields, PlainField field)
    (hcount : fields.length ≤ 4) :
    (record ':' fields).length ≤ 20 := by
  have hsum : (fields.map fun field => field.length + 1).sum ≤ fields.length * 5 := by
    have hle := List.sum_le_card_nsmul (fields.map fun field => field.length + 1) 5 ?_
    · rwa [List.length_map] at hle
    · intro n hn
      obtain ⟨field, hmem, rfl⟩ := List.mem_map.mp hn
      exact Nat.succ_le_succ (hfields field hmem).short
  rw [length_record]
  omega

/-- The line of saved fields and a saved description. -/
theorem savedLine (hfields : ∀ field ∈ fields, PlainField field) (hcount : fields.length ≤ 4)
    (hdescription : SavedText description) :
    (∃ l, record ':' fields ++ description.getD [] ++ [':', '\n'] = l ++ ['\n'] ∧ '\n' ∉ l ∧
      (record ':' fields ++ description.getD [] ++ [':', '\n']).length ≤
        2 * (mctDaemonCommonTextbufsize - 1)) ∧
      '\x00' ∉ record ':' fields ++ description.getD [] ++ [':', '\n'] := by
  obtain ⟨text, rfl, hlength, hnewline, hzero⟩ := hdescription
  have hrecord := length_record_le hfields hcount
  rw [Option.getD_some]
  refine ⟨⟨record ':' fields ++ text ++ [':'], ?_, ?_, ?_⟩, ?_⟩
  · rw [List.append_cons]
  · have hnot : '\n' ∉ record ':' fields := not_mem_record (by decide) fun field hmem =>
      (hfields field hmem).newline
    simp [hnot, hnewline]
  · simp only [List.length_append, List.length_cons, List.length_nil, mctDaemonCommonTextbufsize]
    omega
  · have hnot : '\x00' ∉ record ':' fields := not_mem_record (by decide) fun field hmem =>
      (hfields field hmem).zero
    simp [hnot, hzero]

/-- The pieces of a line whose description is stored. -/
theorem storable_linePieces (hfields : ∀ field ∈ fields, PlainField field)
    (hstorable : Storable fields description) :
    ∃ first short others,
      linePieces (mctDaemonCommonTextbufsize - 1)
        (record ':' fields ++ description.getD [] ++ [':', '\n']) = first :: short ∧
      strtok ':' first = fields ++ description.getD [] :: others ∧
      ∀ piece ∈ short, strtok ':' piece = [['\n']] := by
  obtain ⟨hne, hsep, hlength⟩ := hstorable
  exact strtok_linePieces
    (fun field hmem => ⟨(hfields field hmem).nonempty, (hfields field hmem).separator⟩)
    hne hsep (by decide) (by omega)

/-- A description that is read from a piece of a line: from the first piece,
behind the fields of the line, or from a short one. -/
theorem storable_of_mem_linePieces {piece : List Char}
    (hfields : ∀ field ∈ fields, PlainField field) (hcount : fields.length ≤ 4)
    (hdescription : SavedText description)
    (hpiece : piece ∈ linePieces (mctDaemonCommonTextbufsize - 1)
      (record ':' fields ++ description.getD [] ++ [':', '\n'])) :
    piece.length ≤ 24 ∨ ∃ others, strtok ':' piece = fields ++ others ∧
      ∀ token ∈ others, (record ':' fields).length + token.length < mctDaemonCommonTextbufsize := by
  have hrecord := length_record_le hfields hcount
  obtain ⟨saved, rfl, hlength, _⟩ := hdescription
  rw [List.append_assoc] at hpiece
  have hread := strtok_of_mem_linePieces
    (fun field hmem => ⟨(hfields field hmem).nonempty, (hfields field hmem).separator⟩)
    (by rw [mctDaemonCommonTextbufsize]; omega) hpiece
  rcases hread with hshort | ⟨others, htokens, hfit⟩
  · left
    simp only [List.length_append, List.length_cons, List.length_nil, Option.getD_some,
      mctDaemonCommonTextbufsize] at hshort
    omega
  · refine .inr ⟨others, htokens, ?_⟩
    intro token hmem
    have hle := hfit token hmem
    rw [mctDaemonCommonTextbufsize] at hle ⊢
    omega

end Lines

namespace MctDaemonUsers

variable {d : MctDaemonUsers}

section Add

/-- Without a process nothing but the description is stored. -/
theorem storeApplication_loaded (ipc : MctIpc)
    (hpid : ∀ application ∈ d.applications, application.pid = 0)
    (i : Nat) (description : Option (List Char)) (fd opened : Int) :
    d.storeApplication ipc i 0 description fd opened = d.modifyApplication i fun application =>
      { application with applicationDescription := description } := by
  have hchange : ∀ d : MctDaemonUsers, (∀ application, d.applications[i]? = some application →
      application.pid = 0) → d.changePid i 0 = d := by
    intro d hzero
    unfold changePid
    split
    · rfl
    · next application hi => rw [if_neg (not_not.mpr (hzero application hi))]
  have hopen : ∀ d : MctDaemonUsers, d.openHandle ipc i 0 fd opened = d := by
    intro d
    unfold openHandle
    split
    · rfl
    · rw [if_neg (by simp)]
  unfold storeApplication
  simp only
  rw [hchange, hopen]
  intro application hi
  rcases mem_of_mem_modify (List.mem_of_getElem? hi) with hold | ⟨before, hbefore, rfl⟩
  · exact hpid application hold
  · exact hpid before (List.mem_of_getElem? hbefore)

def loadedApplication (apid : ID4) (description : Option (List Char)) : MctDaemonApplication :=
  { MctDaemonApplication.fresh apid with applicationDescription := description }

/-- A registration without a process in a table of applications without one. -/
theorem applicationAdd_loaded (ipc : MctIpc) {apid : ID4} (hnonempty : ¬ apid.isEmpty)
    (hpid : ∀ application ∈ d.applications, application.pid = 0)
    (description : Option (List Char)) (fd opened : Int) :
    (d.applicationAdd ipc apid 0 description fd opened).2 =
      match d.applicationFind apid with
      | some i => d.modifyApplication i fun application =>
          { application with applicationDescription := description }
      | none =>
          { d with
            applications := sortByKey MctDaemonApplication.apid
              (d.applications ++ [loadedApplication (setId apid.chars) description]) } := by
  unfold applicationAdd
  rw [if_neg hnonempty]
  cases d.applicationFind apid with
  | some i => exact storeApplication_loaded ipc hpid i description fd opened
  | none =>
      simp only
      rw [storeApplication_loaded]
      · simp only [modifyApplication, sortApplications, appendApplication, loadedApplication]
        rw [List.modify_eq_take_drop]
        simp
      · intro application hmem
        rcases List.mem_append.mp hmem with hold | hnew
        · exact hpid application hold
        · rw [List.mem_singleton.mp hnew]
          rfl

/-- An entry of the table after a registration without a process: one that was
there, or the registered one. -/
theorem mem_applicationAdd_loaded (ipc : MctIpc) {apid : ID4}
    (hpid : ∀ application ∈ d.applications, application.pid = 0)
    (description : Option (List Char)) (fd opened : Int) {application : MctDaemonApplication}
    (hmem : application ∈ (d.applicationAdd ipc apid 0 description fd opened).2.applications) :
    application.pid = 0 ∧ (application ∈ d.applications ∨ application.apid = setId apid.chars ∧
      application.applicationDescription = description) := by
  by_cases hempty : apid.isEmpty
  · unfold applicationAdd at hmem
    rw [if_pos hempty] at hmem
    exact ⟨hpid application hmem, .inl hmem⟩
  rw [applicationAdd_loaded ipc hempty hpid] at hmem
  cases hfound : d.applicationFind apid with
  | some i =>
      simp only [hfound] at hmem
      rcases mem_of_mem_modify hmem with hold | ⟨before, hbefore, rfl⟩
      · exact ⟨hpid application hold, .inl hold⟩
      · obtain ⟨entry, hentry, hapid⟩ := applicationFind_sound hfound
        rw [hbefore] at hentry
        refine ⟨hpid before (List.mem_of_getElem? hbefore), .inr ⟨?_, rfl⟩⟩
        rw [← hapid, ← Option.some.inj hentry]
  | none =>
      simp only [hfound] at hmem
      rcases List.mem_append.mp ((sortByKey_perm _ _).mem_iff.mp hmem) with hold | hnew
      · exact ⟨hpid application hold, .inl hold⟩
      · rw [List.mem_singleton.mp hnew]
        exact ⟨rfl, .inr ⟨rfl, rfl⟩⟩

theorem contexts_applicationAdd_loaded (ipc : MctIpc) {apid : ID4}
    (hpid : ∀ application ∈ d.applications, application.pid = 0)
    (description : Option (List Char)) (fd opened : Int) :
    (d.applicationAdd ipc apid 0 description fd opened).2.contexts = d.contexts := by
  by_cases hempty : apid.isEmpty
  · unfold applicationAdd
    rw [if_pos hempty]
  rw [applicationAdd_loaded ipc hempty hpid]
  cases d.applicationFind apid with
  | some i => rfl
  | none => rfl

/-- The contexts of the table after a registration: those that were there, or the
registered one, if its application is registered. -/
theorem mem_contextAdd {apid ctid : ID4} {logLevel traceStatus logLevelPos userHandle : Int}
    {description : Option (List Char)} {context : MctDaemonContext}
    (hmem : context ∈ (d.contextAdd apid ctid logLevel traceStatus logLevelPos userHandle
      description).2.contexts) :
    context ∈ d.contexts ∨ context.apid = setId apid.chars ∧ context.ctid = setId ctid.chars ∧
      context.contextDescription = description ∧ setId apid.chars ∈ d.apids := by
  unfold contextAdd at hmem
  split at hmem
  · exact .inl hmem
  split at hmem
  · exact .inl hmem
  split at hmem
  · exact .inl hmem
  cases happlication : d.applicationFind apid with
  | none =>
      simp only [happlication] at hmem
      exact .inl hmem
  | some i =>
      obtain ⟨application, hi, hapid⟩ := applicationFind_sound happlication
      have hregistered : setId apid.chars ∈ d.apids := by
        rw [← hapid]
        exact List.mem_map_of_mem (List.mem_of_getElem? hi)
      simp only [happlication] at hmem
      cases hfound : d.contextFind apid ctid with
      | some k =>
          simp only [hfound] at hmem
          rcases mem_of_mem_modify hmem with hold | ⟨before, hbefore, rfl⟩
          · exact .inl hold
          · obtain ⟨entry, hentry, hapid', hctid⟩ := contextFind_sound hfound
            rw [hbefore] at hentry
            refine .inr ⟨?_, ?_, rfl, hregistered⟩
            · rw [← hapid', ← Option.some.inj hentry]
              rfl
            · rw [← hctid, ← Option.some.inj hentry]
              rfl
      | none =>
          simp only [hfound] at hmem
          rcases List.mem_append.mp ((sortByKey_perm _ _).mem_iff.mp hmem) with hold | hnew
          · exact .inl hold
          · rw [List.mem_singleton.mp hnew]
            exact .inr ⟨rfl, rfl, rfl, hregistered⟩

theorem applicationEntries_modify (i : Nat) {f : MctDaemonApplication → MctDaemonApplication}
    (hf : ∀ application, (f application).apid = application.apid ∧
      (f application).applicationDescription = application.applicationDescription) :
    (d.modifyApplication i f).applicationEntries = d.applicationEntries := by
  refine map_modify_of_keep ?_ _ _
  intro application
  rw [(hf application).1, (hf application).2]

theorem applicationEntries_contextAdd (apid ctid : ID4)
    (logLevel traceStatus logLevelPos userHandle : Int) (description : Option (List Char)) :
    (d.contextAdd apid ctid logLevel traceStatus logLevelPos userHandle
      description).2.applicationEntries = d.applicationEntries := by
  unfold contextAdd
  split
  · rfl
  split
  · rfl
  split
  · rfl
  cases d.applicationFind apid with
  | none => rfl
  | some i =>
      cases d.contextFind apid ctid with
      | some k => rfl
      | none => exact applicationEntries_modify i fun _ => ⟨rfl, rfl⟩

theorem apids_eq_map_applicationEntries : d.apids = d.applicationEntries.map Prod.fst := by
  simp only [apids, applicationEntries, List.map_map]
  rfl

end Add

section Sources

/-- The piece of the file an application is loaded from. -/
def ApplicationSource (piece : List Char) (application : MctDaemonApplication) : Prop :=
  ∃ apid text others, strtok ':' (cString piece) = apid :: text :: others ∧
    application.apid = setId apid ∧ application.applicationDescription = some text

/-- The piece of the file a context is loaded from. -/
def ContextSource (piece : List Char) (context : MctDaemonContext) : Prop :=
  ∃ apid ctid level status text others,
    strtok ':' (cString piece) = apid :: ctid :: level :: status :: text :: others ∧
      context.apid = setId apid ∧ context.ctid = setId ctid ∧
      context.contextDescription = some text

/-- Every application that is loaded stands in a piece of the file. -/
theorem applicationsLoadLines_sources (ipc : MctIpc) (pieces : List (List Char))
    (hpid : ∀ application ∈ d.applications, application.pid = 0) :
    (d.applicationsLoadLines ipc pieces).2.contexts = d.contexts ∧
      ∀ application ∈ (d.applicationsLoadLines ipc pieces).2.applications,
        application ∈ d.applications ∨ ∃ piece ∈ pieces, ApplicationSource piece application := by
  induction pieces generalizing d with
  | nil => exact ⟨rfl, fun application hmem => .inl hmem⟩
  | cons piece pieces ih =>
      unfold applicationsLoadLines
      split
      · next apid text others htokens =>
          have hcontexts : (d.applicationAdd ipc (setId apid) 0 (some text) (-1)
              mctFdInit).2.contexts = d.contexts :=
            contexts_applicationAdd_loaded ipc hpid (some text) (-1) mctFdInit
          have hadded : ∀ application ∈
              (d.applicationAdd ipc (setId apid) 0 (some text) (-1) mctFdInit).2.applications,
              application.pid = 0 ∧ (application ∈ d.applications ∨
                ApplicationSource piece application) := by
            intro application hmem
            obtain ⟨hzero, hold | ⟨hapid, hdescription⟩⟩ :=
              mem_applicationAdd_loaded ipc hpid (some text) (-1) mctFdInit hmem
            · exact ⟨hzero, .inl hold⟩
            · rw [setId_setId] at hapid
              exact ⟨hzero, .inr ⟨apid, text, others, htokens, hapid, hdescription⟩⟩
          split
          · next added heq =>
              rw [heq] at hcontexts hadded
              refine ⟨hcontexts, fun application hmem => ?_⟩
              rcases (hadded application hmem).2 with hold | hsource
              · exact .inl hold
              · exact .inr ⟨piece, List.mem_cons_self, hsource⟩
          · next i added heq =>
              rw [heq] at hcontexts hadded
              obtain ⟨hcontexts', hsources⟩ :=
                ih fun application hmem => (hadded application hmem).1
              refine ⟨hcontexts'.trans hcontexts, fun application hmem => ?_⟩
              rcases hsources application hmem with hadded' | ⟨source, hsource, hloaded⟩
              · rcases (hadded application hadded').2 with hold | hsource
                · exact .inl hold
                · exact .inr ⟨piece, List.mem_cons_self, hsource⟩
              · exact .inr ⟨source, List.mem_cons_of_mem _ hsource, hloaded⟩
      · obtain ⟨hcontexts, hsources⟩ := ih hpid
        refine ⟨hcontexts, fun application hmem => ?_⟩
        rcases hsources application hmem with hold | ⟨source, hsource, hloaded⟩
        · exact .inl hold
        · exact .inr ⟨source, List.mem_cons_of_mem _ hsource, hloaded⟩

theorem scanContext_eq_some {ll ts : Int} {piece apid ctid text : List Char}
    (h : (scanContext ll ts piece).2 = some (apid, ctid, text)) :
    ∃ level status others,
      strtok ':' (cString piece) = apid :: ctid :: level :: status :: text :: others := by
  unfold scanContext at h
  split at h
  · next apid' ctid' level fields htokens =>
      rcases fields with _ | ⟨status, _ | ⟨text', others⟩⟩
      · cases h
      · cases h
      · simp only [List.head?_cons, Option.map_some, Option.some_inj, Prod.mk.injEq] at h
        obtain ⟨rfl, rfl, rfl⟩ := h
        exact ⟨level, status, others, htokens⟩
  · cases h

/-- Every context that is loaded stands in a piece of the file, and its
application is registered. -/
theorem contextsLoadLines_sources (ll ts : Int) (pieces : List (List Char)) :
    (d.contextsLoadLines ll ts pieces).2.applicationEntries = d.applicationEntries ∧
      ∀ context ∈ (d.contextsLoadLines ll ts pieces).2.contexts,
        context ∈ d.contexts ∨ context.apid ∈ d.apids ∧
          ∃ piece ∈ pieces, ContextSource piece context := by
  induction pieces generalizing d ll ts with
  | nil => exact ⟨rfl, fun context hmem => .inl hmem⟩
  | cons piece pieces ih =>
      unfold contextsLoadLines
      simp only
      split
      · obtain ⟨hentries, hsources⟩ := ih (d := d) (scanContext ll ts piece).1.1
          (scanContext ll ts piece).1.2
        refine ⟨hentries, fun context hmem => ?_⟩
        rcases hsources context hmem with hold | ⟨hregistered, source, hsource, hloaded⟩
        · exact .inl hold
        · exact .inr ⟨hregistered, source, List.mem_cons_of_mem _ hsource, hloaded⟩
      · next apid ctid text hscan =>
          obtain ⟨level, status, others, htokens⟩ := scanContext_eq_some hscan
          have hentries := applicationEntries_contextAdd (d := d) (setId apid) (setId ctid)
            (int8 (scanContext ll ts piece).1.1) (int8 (scanContext ll ts piece).1.2) 0 0
            (some text)
          have hadded : ∀ context ∈ (d.contextAdd (setId apid) (setId ctid)
              (int8 (scanContext ll ts piece).1.1) (int8 (scanContext ll ts piece).1.2) 0 0
              (some text)).2.contexts, context ∈ d.contexts ∨ context.apid ∈ d.apids ∧
                ContextSource piece context := by
            intro context hmem
            rcases mem_contextAdd hmem with hold | ⟨hapid, hctid, hdescription, hregistered⟩
            · exact .inl hold
            · rw [← hapid] at hregistered
              rw [setId_setId] at hapid hctid
              exact .inr ⟨hregistered, apid, ctid, level, status, text, others, htokens, hapid,
                hctid, hdescription⟩
          split
          · next added heq =>
              rw [heq] at hentries hadded
              refine ⟨hentries, fun context hmem => ?_⟩
              rcases hadded context hmem with hold | ⟨hregistered, hsource⟩
              · exact .inl hold
              · exact .inr ⟨hregistered, piece, List.mem_cons_self, hsource⟩
          · next k added heq =>
              rw [heq] at hentries hadded
              obtain ⟨hentries', hsources⟩ := ih (d := added) (scanContext ll ts piece).1.1
                (scanContext ll ts piece).1.2
              have hapids : added.apids = d.apids := by
                rw [apids_eq_map_applicationEntries, hentries, ← apids_eq_map_applicationEntries]
              rw [hapids] at hsources
              refine ⟨hentries'.trans hentries, fun context hmem => ?_⟩
              rcases hsources context hmem with hadded' | ⟨hregistered, source, hsource, hloaded⟩
              · rcases hadded context hadded' with hold | ⟨hregistered, hsource⟩
                · exact .inl hold
                · exact .inr ⟨hregistered, piece, List.mem_cons_self, hsource⟩
              · exact .inr ⟨hregistered, source, List.mem_cons_of_mem _ hsource, hloaded⟩

end Sources

end MctDaemonUsers

section Stored

open MctDaemonUsers

variable {d : MctDaemonUsers}

theorem Saveable.plain_application (h : Saveable d) {application : MctDaemonApplication}
    (hmem : application ∈ d.applications) :
    ∀ field ∈ applicationFields application, PlainField field := by
  intro field hfield
  rw [List.mem_singleton.mp hfield]
  exact (h.apids application hmem).plain

theorem Saveable.plain_context (h : Saveable d) {context : MctDaemonContext}
    (hmem : context ∈ d.contexts) : ∀ field ∈ contextFields context, PlainField field := by
  obtain ⟨hapid, hctid⟩ := h.contextIds context hmem
  obtain ⟨hlow, hhigh⟩ := h.logLevels context hmem
  obtain ⟨htraceLow, htraceHigh⟩ := h.traceStatuses context hmem
  intro field hfield
  simp only [contextFields, List.mem_cons, List.not_mem_nil, or_false] at hfield
  rcases hfield with rfl | rfl | rfl | rfl
  · exact hapid.plain
  · exact hctid.plain
  · exact (level_plain hlow hhigh).1
  · exact (level_plain htraceLow (htraceHigh.trans (by decide))).1

/-- The file of the applications is read piece by piece. -/
theorem Saveable.readLines_applications (h : Saveable d) :
    readLines (mctDaemonCommonTextbufsize - 1) (d.applications.map applicationLine).flatten =
      d.applications.flatMap fun application =>
        linePieces (mctDaemonCommonTextbufsize - 1) (applicationLine application) := by
  rw [readLines_flatten (by decide), List.flatMap_map]
  intro line hline
  obtain ⟨application, hmem, rfl⟩ := List.mem_map.mp hline
  rw [applicationLine_eq]
  exact (savedLine (h.plain_application hmem) (by simp [applicationFields])
    (h.descriptions application hmem)).1

/-- The file of the contexts is read piece by piece. -/
theorem Saveable.readLines_contexts (h : Saveable d) :
    readLines (mctDaemonCommonTextbufsize - 1) (d.contexts.map contextLine).flatten =
      d.contexts.flatMap fun context =>
        linePieces (mctDaemonCommonTextbufsize - 1) (contextLine context) := by
  rw [readLines_flatten (by decide), List.flatMap_map]
  intro line hline
  obtain ⟨context, hmem, rfl⟩ := List.mem_map.mp hline
  rw [contextLine_eq]
  exact (savedLine (h.plain_context hmem) (by simp [contextFields])
    (h.contextDescriptions context hmem)).1

theorem Saveable.applications_zero (h : Saveable d) {application : MctDaemonApplication}
    (hmem : application ∈ d.applications) : '\x00' ∉ applicationLine application := by
  rw [applicationLine_eq]
  exact (savedLine (h.plain_application hmem) (by simp [applicationFields])
    (h.descriptions application hmem)).2

theorem Saveable.contexts_zero (h : Saveable d) {context : MctDaemonContext}
    (hmem : context ∈ d.contexts) : '\x00' ∉ contextLine context := by
  rw [contextLine_eq]
  exact (savedLine (h.plain_context hmem) (by simp [contextFields])
    (h.contextDescriptions context hmem)).2

/-- A description that is found in the file after its identifier was stored. -/
theorem Saveable.storable_application (h : Saveable d) {application : MctDaemonApplication}
    (hmem : application ∈ d.applications) {piece : List Char}
    (hpiece : piece ∈ d.applications.flatMap fun application =>
      linePieces (mctDaemonCommonTextbufsize - 1) (applicationLine application))
    (hsource : ApplicationSource piece application) :
    Storable (applicationFields application) application.applicationDescription := by
  obtain ⟨other, hother, hpiece⟩ := List.mem_flatMap.mp hpiece
  obtain ⟨apid, text, others, htokens, hapid, hdescription⟩ := hsource
  rw [cString_eq_self fun hzero => h.applications_zero hother
    (subset_of_mem_linePieces hpiece hzero)] at htokens
  have hfields := length_record_le (h.plain_application hmem) (by simp [applicationFields])
  have htoken : text ∈ strtok ':' piece := by simp [htokens]
  obtain ⟨hne, hsep⟩ := mem_strtok htoken
  rw [hdescription]
  refine ⟨hne, hsep, ?_⟩
  rw [applicationLine_eq] at hpiece
  rw [Option.getD_some]
  rcases storable_of_mem_linePieces (h.plain_application hother) (by simp [applicationFields])
    (h.descriptions other hother) hpiece with hshort | ⟨others', htokens', hfit⟩
  · have hlength := length_le_of_mem_strtok htoken
    rw [mctDaemonCommonTextbufsize]
    omega
  · rw [htokens', applicationFields, List.singleton_append, List.cons.injEq] at htokens
    obtain ⟨rfl, rfl⟩ := htokens
    rw [(h.apids other hother).1.setId_idText] at hapid
    rw [applicationFields, hapid]
    exact hfit text List.mem_cons_self

/-- A description that is found in the file after its identifiers was stored. -/
theorem Saveable.storable_context (h : Saveable d) {context : MctDaemonContext}
    (hmem : context ∈ d.contexts) {piece : List Char}
    (hpiece : piece ∈ d.contexts.flatMap fun context =>
      linePieces (mctDaemonCommonTextbufsize - 1) (contextLine context))
    (hsource : ContextSource piece context) :
    Storable (contextFields context) context.contextDescription := by
  obtain ⟨other, hother, hpiece⟩ := List.mem_flatMap.mp hpiece
  obtain ⟨apid, ctid, level, status, text, others, htokens, hapid, hctid, hdescription⟩ := hsource
  rw [cString_eq_self fun hzero => h.contexts_zero hother
    (subset_of_mem_linePieces hpiece hzero)] at htokens
  have hfields := length_record_le (h.plain_context hmem) (by simp [contextFields])
  have htoken : text ∈ strtok ':' piece := by simp [htokens]
  obtain ⟨hne, hsep⟩ := mem_strtok htoken
  rw [hdescription]
  refine ⟨hne, hsep, ?_⟩
  rw [contextLine_eq] at hpiece
  rw [Option.getD_some]
  rcases storable_of_mem_linePieces (h.plain_context hother) (by simp [contextFields])
    (h.contextDescriptions other hother) hpiece with hshort | ⟨others', htokens', hfit⟩
  · have hlength := length_le_of_mem_strtok htoken
    rw [mctDaemonCommonTextbufsize]
    omega
  · rw [htokens', contextFields] at htokens
    simp only [List.cons_append, List.nil_append, List.cons.injEq] at htokens
    obtain ⟨rfl, rfl, rfl, rfl, rfl⟩ := htokens
    obtain ⟨hotherApid, hotherCtid⟩ := h.contextIds other hother
    rw [hotherApid.1.setId_idText] at hapid
    rw [hotherCtid.1.setId_idText] at hctid
    -- the keys of the contexts are distinct, so this is the line of the context
    have hsame : context = other := by
      obtain ⟨i, hi⟩ := List.mem_iff_getElem?.mp hmem
      obtain ⟨j, hj⟩ := List.mem_iff_getElem?.mp hother
      have hij := h.tables.contexts.position hi hj (by
        simp only [MctDaemonContext.key, hapid, hctid])
      rw [hij, hj] at hi
      exact (Option.some.inj hi).symm
    rw [hsame]
    exact hfit text List.mem_cons_self

theorem Saveable.applicationsLoad_sources (h : Saveable d) (ipc : MctIpc)
    {start : MctDaemonUsers} (hstart : start.IsEmpty) :
    (start.applicationsLoad ipc d.applicationsSave).2.contexts = [] ∧
      ∀ application ∈ (start.applicationsLoad ipc d.applicationsSave).2.applications,
        ∃ piece ∈ d.applications.flatMap fun application =>
          linePieces (mctDaemonCommonTextbufsize - 1) (applicationLine application),
          ApplicationSource piece application := by
  obtain ⟨happlications, hcontexts⟩ := hstart
  unfold applicationsSave
  split
  · refine ⟨hcontexts, fun application hmem => ?_⟩
    simp only [applicationsLoad, happlications] at hmem
    cases hmem
  · unfold applicationsLoad
    simp only [h.readLines_applications]
    obtain ⟨hkept, hsources⟩ := applicationsLoadLines_sources (d := start) ipc
      (d.applications.flatMap fun application =>
        linePieces (mctDaemonCommonTextbufsize - 1) (applicationLine application))
      (by simp [happlications])
    refine ⟨hkept.trans hcontexts, fun application hmem => ?_⟩
    rcases hsources application hmem with hold | hsource
    · rw [happlications] at hold
      cases hold
    · exact hsource

theorem Saveable.contextsLoad_sources (h : Saveable d) (ll ts : Int)
    {start : MctDaemonUsers} (hstart : start.contexts = []) :
    (start.contextsLoad ll ts d.contextsSave).2.applicationEntries = start.applicationEntries ∧
      ∀ context ∈ (start.contextsLoad ll ts d.contextsSave).2.contexts,
        context.apid ∈ start.apids ∧ ∃ piece ∈ d.contexts.flatMap fun context =>
          linePieces (mctDaemonCommonTextbufsize - 1) (contextLine context),
          ContextSource piece context := by
  unfold contextsSave
  split
  · refine ⟨rfl, fun context hmem => ?_⟩
    simp only [contextsLoad, hstart] at hmem
    cases hmem
  · unfold contextsLoad
    simp only [h.readLines_contexts]
    obtain ⟨hkept, hsources⟩ := contextsLoadLines_sources (d := start) ll ts
      (d.contexts.flatMap fun context =>
        linePieces (mctDaemonCommonTextbufsize - 1) (contextLine context))
    refine ⟨hkept, fun context hmem => ?_⟩
    rcases hsources context hmem with hold | hsource
    · rw [hstart] at hold
      cases hold
    · exact hsource

/-- What is reloaded was stored in the files. -/
theorem Saveable.storable_of_reloaded (h : Saveable d) (ipc : MctIpc) (ll ts : Int)
    {start : MctDaemonUsers} (hstart : start.IsEmpty)
    (hreloaded : d.ReloadedFrom (d.reload ipc ll ts start)) :
    (∀ application ∈ d.applications,
      Storable (applicationFields application) application.applicationDescription) ∧
    ∀ context ∈ d.contexts,
      Storable (contextFields context) context.contextDescription ∧ context.apid ∈ d.apids := by
  obtain ⟨hentries, hcontextEntries⟩ := hreloaded
  obtain ⟨hempty, happlications⟩ := h.applicationsLoad_sources ipc hstart
  obtain ⟨hkept, hcontexts⟩ := h.contextsLoad_sources ll ts hempty
  have hsame : (start.applicationsLoad ipc d.applicationsSave).2.applicationEntries =
      d.applicationEntries := hkept.symm.trans hentries
  constructor
  · intro application hmem
    have hentry : (application.apid, application.applicationDescription) ∈ d.applicationEntries :=
      List.mem_map_of_mem (f := fun application : MctDaemonApplication =>
        (application.apid, application.applicationDescription)) hmem
    rw [← hsame] at hentry
    obtain ⟨loaded, hloaded, heq⟩ := List.mem_map.mp hentry
    rw [Prod.mk.injEq] at heq
    obtain ⟨piece, hpiece, apid, text, others, htokens, hapid, hdescription⟩ :=
      happlications loaded hloaded
    exact h.storable_application hmem hpiece
      ⟨apid, text, others, htokens, heq.1.symm.trans hapid, heq.2.symm.trans hdescription⟩
  · intro context hmem
    have hentry : (context.apid, context.ctid, context.logLevel, context.traceStatus,
        context.contextDescription) ∈ d.contextEntries :=
      List.mem_map_of_mem (f := fun context : MctDaemonContext => (context.apid, context.ctid,
        context.logLevel, context.traceStatus, context.contextDescription)) hmem
    rw [← hcontextEntries] at hentry
    obtain ⟨loaded, hloaded, heq⟩ := List.mem_map.mp hentry
    simp only [Prod.mk.injEq] at heq
    obtain ⟨happid, hcctid, _, _, htext⟩ := heq
    obtain ⟨hregistered, piece, hpiece, apid, ctid, level, status, text, others, htokens, hapid,
      hctid, hdescription⟩ := hcontexts loaded hloaded
    constructor
    · exact h.storable_context hmem hpiece ⟨apid, ctid, level, status, text, others, htokens,
        happid.symm.trans hapid, hcctid.symm.trans hctid, htext.symm.trans hdescription⟩
    · rw [apids_eq_map_applicationEntries, hsame, ← apids_eq_map_applicationEntries] at hregistered
      rw [← happid]
      exact hregistered

end Stored

section Reload

open MctDaemonUsers

variable {d : MctDaemonUsers}

/-- The application of a saved line is added, and the rest of the line is skipped. -/
theorem Saveable.applicationsLoadLines_line (h : Saveable d) (ipc : MctIpc)
    (loading : MctDaemonUsers) {application : MctDaemonApplication}
    (hmem : application ∈ d.applications)
    (hstorable : Storable (applicationFields application) application.applicationDescription)
    (pieces : List (List Char)) :
    loading.applicationsLoadLines ipc (linePieces (mctDaemonCommonTextbufsize - 1)
        (applicationLine application) ++ pieces) =
      match loading.applicationAdd ipc application.apid 0 application.applicationDescription (-1)
        mctFdInit with
      | (none, added) => (-1, added)
      | (some _, added) => added.applicationsLoadLines ipc pieces := by
  have hskip : ∀ (short : List (List Char)) (loading : MctDaemonUsers),
      (∀ piece ∈ short, strtok ':' (cString piece) = [['\n']]) →
      loading.applicationsLoadLines ipc (short ++ pieces) =
        loading.applicationsLoadLines ipc pieces := by
    intro short
    induction short with
    | nil => exact fun _ _ => rfl
    | cons piece short ih =>
        intro loading hshort
        rw [List.cons_append, applicationsLoadLines, hshort piece List.mem_cons_self]
        exact ih loading fun other hother => hshort other (List.mem_cons_of_mem _ hother)
  obtain ⟨first, short, others, hpieces, hfirst, hshort⟩ :=
    storable_linePieces (h.plain_application hmem) hstorable
  rw [← applicationLine_eq] at hpieces
  have hstring : ∀ piece ∈ first :: short, cString piece = piece := by
    intro piece hpiece
    rw [← hpieces] at hpiece
    exact cString_eq_self fun hzero => h.applications_zero hmem
      (subset_of_mem_linePieces hpiece hzero)
  obtain ⟨text, hdescription, _⟩ := h.descriptions application hmem
  rw [hpieces, List.cons_append, applicationsLoadLines, hstring first List.mem_cons_self, hfirst,
    hdescription]
  simp only [applicationFields, List.cons_append, List.nil_append, Option.getD_some]
  rw [(h.apids application hmem).1.setId_idText]
  split
  · rfl
  · refine hskip short _ fun piece hpiece => ?_
    rw [hstring piece (List.mem_cons_of_mem _ hpiece), hshort piece hpiece]

/-- The context of a saved line is added, and the rest of the line is skipped. -/
theorem Saveable.contextsLoadLines_line (h : Saveable d) (loading : MctDaemonUsers) (ll ts : Int)
    {context : MctDaemonContext} (hmem : context ∈ d.contexts)
    (hstorable : Storable (contextFields context) context.contextDescription)
    (pieces : List (List Char)) :
    loading.contextsLoadLines ll ts (linePieces (mctDaemonCommonTextbufsize - 1)
        (contextLine context) ++ pieces) =
      match loading.contextAdd context.apid context.ctid context.logLevel context.traceStatus 0 0
        context.contextDescription with
      | (none, added) => (-1, added)
      | (some _, added) => added.contextsLoadLines context.logLevel context.traceStatus pieces := by
  have hskip : ∀ (short : List (List Char)) (loading : MctDaemonUsers) (ll ts : Int),
      (∀ piece ∈ short, strtok ':' (cString piece) = [['\n']]) →
      loading.contextsLoadLines ll ts (short ++ pieces) =
        loading.contextsLoadLines ll ts pieces := by
    intro short
    induction short with
    | nil => exact fun _ _ _ _ => rfl
    | cons piece short ih =>
        intro loading ll ts hshort
        have hscan : scanContext ll ts piece = ((ll, ts), none) := by
          rw [scanContext, hshort piece List.mem_cons_self]
        rw [List.cons_append, contextsLoadLines, hscan]
        exact ih loading ll ts fun other hother => hshort other (List.mem_cons_of_mem _ hother)
  obtain ⟨first, short, others, hpieces, hfirst, hshort⟩ :=
    storable_linePieces (h.plain_context hmem) hstorable
  rw [← contextLine_eq] at hpieces
  have hstring : ∀ piece ∈ first :: short, cString piece = piece := by
    intro piece hpiece
    rw [← hpieces] at hpiece
    exact cString_eq_self fun hzero => h.contexts_zero hmem
      (subset_of_mem_linePieces hpiece hzero)
  obtain ⟨hlow, hhigh⟩ := h.logLevels context hmem
  obtain ⟨htraceLow, htraceHigh⟩ := h.traceStatuses context hmem
  obtain ⟨_, hlevel, hlevelInt⟩ := level_plain hlow hhigh
  obtain ⟨_, htrace, htraceInt⟩ := level_plain htraceLow (htraceHigh.trans (by decide))
  obtain ⟨text, hdescription, _⟩ := h.contextDescriptions context hmem
  have hscan : scanContext ll ts first = ((context.logLevel, context.traceStatus),
      some (idText context.apid.chars, idText context.ctid.chars, text)) := by
    rw [scanContext, hstring first List.mem_cons_self, hfirst, hdescription]
    simp [contextFields, hlevel, htrace]
  obtain ⟨hapid, hctid⟩ := h.contextIds context hmem
  rw [hpieces, List.cons_append, contextsLoadLines, hscan]
  simp only
  rw [hapid.1.setId_idText, hctid.1.setId_idText, hlevelInt, htraceInt, hdescription]
  split
  · rfl
  · refine hskip short _ _ _ fun piece hpiece => ?_
    rw [hstring piece (List.mem_cons_of_mem _ hpiece), hshort piece hpiece]

/-- What the reading of the applications leaves of a table of applications. -/
def withApplications (start : MctDaemonUsers) (applications : List MctDaemonApplication) :
    MctDaemonUsers :=
  { start with
    applications := applications.map fun application =>
      loadedApplication application.apid application.applicationDescription }

theorem apids_withApplications (start : MctDaemonUsers) (applications : List MctDaemonApplication) :
    (withApplications start applications).apids =
      applications.map MctDaemonApplication.apid := by
  simp only [apids, withApplications, List.map_map]
  rfl

/-- An application behind those that are loaded is added at the end. -/
theorem Saveable.applicationAdd_next (h : Saveable d) (ipc : MctIpc) {start : MctDaemonUsers}
    (hstart : start.IsEmpty) {front back : List MctDaemonApplication}
    {application : MctDaemonApplication} (hsplit : d.applications = front ++ application :: back)
    (fd opened : Int) :
    ∃ i, (withApplications start front).applicationAdd ipc application.apid 0
        application.applicationDescription fd opened =
      (some i, withApplications start (front ++ [application])) := by
  have hmem : application ∈ d.applications := by simp [hsplit]
  obtain ⟨hcanonical, hnonempty, _⟩ := h.apids application hmem
  have hkeys : (withApplications start front).contextKeys = [] := by
    simp only [contextKeys, withApplications, hstart.2, List.map_nil]
  have htables : (withApplications start front).Tables := by
    refine h.tables.of_sublist ?_ ?_
    · rw [apids_withApplications, MctDaemonUsers.apids, hsplit]
      exact (List.sublist_append_left _ _).map _
    · rw [hkeys]
      exact List.nil_sublist _
  have hincreasing : Increasing MctDaemonApplication.apid (front ++ [application]) := by
    refine List.Pairwise.sublist ?_ h.tables.applications
    rw [hsplit, List.append_cons front application back]
    exact (List.sublist_append_left _ _).map _
  have hnot : application.apid ∉ (withApplications start front).apids := by
    rw [apids_withApplications]
    have hnodup := hincreasing.nodup
    rw [List.map_append, List.nodup_append] at hnodup
    exact fun hfront => hnodup.2.2 _ hfront _ (List.mem_singleton_self _) rfl
  have hfind : (withApplications start front).applicationFind application.apid = none := by
    rw [Option.eq_none_iff_forall_ne_some]
    intro i hfound
    obtain ⟨entry, hentry, hapid⟩ := applicationFind_sound hfound
    rw [hcanonical] at hapid
    rw [← hapid] at hnot
    exact hnot (List.mem_map_of_mem (List.mem_of_getElem? hentry))
  have hadded := applicationAdd_loaded (d := withApplications start front) ipc hnonempty
    (by simp [withApplications, loadedApplication, MctDaemonApplication.fresh])
    application.applicationDescription fd opened
  have hsome := (htables.applicationAdd ipc hnonempty (.inl hcanonical) 0
    application.applicationDescription fd opened).1
  obtain ⟨i, hi⟩ := Option.isSome_iff_exists.mp hsome
  refine ⟨i, Prod.ext hi ?_⟩
  rw [hadded, hfind]
  have hsorted : Increasing MctDaemonApplication.apid
      ((withApplications start front).applications ++
        [loadedApplication application.apid application.applicationDescription]) := by
    refine hincreasing.of_map_eq ?_
    simp [withApplications, loadedApplication, MctDaemonApplication.fresh]
  simp only
  rw [hcanonical, hsorted.sortByKey_eq]
  simp [withApplications]

/-- The applications are loaded one behind the other. -/
theorem Saveable.applicationsLoadLines_all (h : Saveable d) (ipc : MctIpc)
    {start : MctDaemonUsers} (hstart : start.IsEmpty) {front back : List MctDaemonApplication}
    (hsplit : d.applications = front ++ back)
    (hstorable : ∀ application ∈ back,
      Storable (applicationFields application) application.applicationDescription) :
    (withApplications start front).applicationsLoadLines ipc (back.flatMap fun application =>
        linePieces (mctDaemonCommonTextbufsize - 1) (applicationLine application)) =
      (0, withApplications start d.applications) := by
  induction back generalizing front with
  | nil =>
      rw [hsplit, List.append_nil]
      rfl
  | cons application back ih =>
      have hmem : application ∈ d.applications := by simp [hsplit]
      obtain ⟨i, hadded⟩ := h.applicationAdd_next ipc hstart hsplit (-1) mctFdInit
      rw [List.flatMap_cons, h.applicationsLoadLines_line ipc _ hmem
        (hstorable application List.mem_cons_self), hadded]
      exact ih (by rw [hsplit, List.append_cons])
        fun other hother => hstorable other (List.mem_cons_of_mem _ hother)

def loadedContext (context : MctDaemonContext) : MctDaemonContext :=
  { MctDaemonContext.fresh context.apid context.ctid with
    logLevel := context.logLevel
    traceStatus := context.traceStatus
    contextDescription := context.contextDescription
    predefined := true }

/-- The contexts of `front` are loaded into a table with these applications. -/
structure ContextsLoaded (entries : List (ID4 × Option (List Char)))
    (front : List MctDaemonContext) (loading : MctDaemonUsers) : Prop where
  tables : loading.Tables
  forceLlTs : loading.forceLlTs = false
  applicationEntries : loading.applicationEntries = entries
  contexts : loading.contexts = front.map loadedContext

/-- A context behind those that are loaded is added at the end. -/
theorem Saveable.contextAdd_next (h : Saveable d) {front back : List MctDaemonContext}
    {context : MctDaemonContext} (hsplit : d.contexts = front ++ context :: back)
    (hregistered : context.apid ∈ d.apids) {loading : MctDaemonUsers}
    (hloaded : ContextsLoaded d.applicationEntries front loading) :
    ∃ k added, loading.contextAdd context.apid context.ctid context.logLevel context.traceStatus 0 0
        context.contextDescription = (some k, added) ∧
      ContextsLoaded d.applicationEntries (front ++ [context]) added := by
  have hmem : context ∈ d.contexts := by simp [hsplit]
  obtain ⟨⟨hcanonical, hnonempty, _⟩, hctidCanonical, hctidNonempty, _⟩ := h.contextIds context hmem
  obtain ⟨hlow, hhigh⟩ := h.logLevels context hmem
  obtain ⟨htraceLow, htraceHigh⟩ := h.traceStatuses context hmem
  have hincreasing : Increasing MctDaemonContext.key (front ++ [context]) := by
    refine List.Pairwise.sublist ?_ h.tables.contexts
    rw [hsplit, List.append_cons front context back]
    exact (List.sublist_append_left _ _).map _
  have hloadedKeys : loading.contextKeys = front.map MctDaemonContext.key := by
    simp only [contextKeys, hloaded.contexts, List.map_map]
    rfl
  have hnot : context.key ∉ loading.contextKeys := by
    rw [hloadedKeys]
    have hnodup := hincreasing.nodup
    rw [List.map_append, List.nodup_append] at hnodup
    exact fun hfront => hnodup.2.2 _ hfront _ (List.mem_singleton_self _) rfl
  have happlication : (loading.applicationFind context.apid).isSome := by
    rw [hloaded.tables.applicationFind_isSome fun _ => .inl hcanonical, hcanonical,
      apids_eq_map_applicationEntries, hloaded.applicationEntries,
      ← apids_eq_map_applicationEntries]
    exact hregistered
  have hfind : loading.contextFind context.apid context.ctid = none := by
    rw [Option.eq_none_iff_forall_ne_some]
    intro k hfound
    obtain ⟨entry, hentry, hapid, hctid⟩ := contextFind_sound hfound
    have hkey : entry.key = context.key := by
      rw [MctDaemonContext.key, hapid, hctid, hcanonical, hctidCanonical]
      rfl
    rw [← hkey] at hnot
    exact hnot (List.mem_map_of_mem (List.mem_of_getElem? hentry))
  have hreaches : loading.ReachesAll context.apid := fun _ => ⟨.inl hcanonical, .inl hcanonical⟩
  obtain ⟨htables, _, hresult⟩ := hloaded.tables.contextAdd hreaches context.ctid context.logLevel
    context.traceStatus 0 0 context.contextDescription
  have hentries := applicationEntries_contextAdd (d := loading) context.apid context.ctid
    context.logLevel context.traceStatus 0 0 context.contextDescription
  obtain ⟨hcontexts, hforce⟩ : (loading.contextAdd context.apid context.ctid context.logLevel
      context.traceStatus 0 0 context.contextDescription).2.contexts =
        (front ++ [context]).map loadedContext ∧
      (loading.contextAdd context.apid context.ctid context.logLevel
        context.traceStatus 0 0 context.contextDescription).2.forceLlTs = false := by
    obtain ⟨i, hi⟩ := Option.isSome_iff_exists.mp happlication
    have hsorted : Increasing MctDaemonContext.key ((front ++ [context]).map loadedContext) := by
      refine hincreasing.of_map_eq ?_
      rw [List.map_map]
      rfl
    unfold contextAdd
    rw [if_neg (by simp [hnonempty, hctidNonempty]), if_neg (by omega), if_neg (by omega), hi,
      hfind]
    simp only [insertContext, modifyApplication, hloaded.contexts]
    refine ⟨?_, hloaded.forceLlTs⟩
    rw [← hsorted.sortByKey_eq, List.map_append, List.map_singleton, hcanonical, hctidCanonical]
    simp [storeContext, hloaded.forceLlTs, loadedContext, MctDaemonContext.fresh]
  rcases hresult with ⟨_, hsame⟩ | ⟨hsome, _⟩
  · rw [hsame, hloaded.contexts] at hcontexts
    have hlength := congrArg List.length hcontexts
    simp at hlength
  · obtain ⟨k, hk⟩ := Option.isSome_iff_exists.mp hsome
    exact ⟨k, _, Prod.ext hk rfl, htables, hforce, hentries.trans hloaded.applicationEntries,
      hcontexts⟩

/-- The contexts are loaded one behind the other. -/
theorem Saveable.contextsLoadLines_all (h : Saveable d) (ll ts : Int)
    {front back : List MctDaemonContext} (hsplit : d.contexts = front ++ back)
    (hstorable : ∀ context ∈ back, Storable (contextFields context) context.contextDescription ∧
      context.apid ∈ d.apids) {loading : MctDaemonUsers}
    (hloaded : ContextsLoaded d.applicationEntries front loading) :
    ContextsLoaded d.applicationEntries d.contexts
      (loading.contextsLoadLines ll ts (back.flatMap fun context =>
        linePieces (mctDaemonCommonTextbufsize - 1) (contextLine context))).2 := by
  induction back generalizing front loading ll ts with
  | nil =>
      rw [hsplit, List.append_nil]
      exact hloaded
  | cons context back ih =>
      have hmem : context ∈ d.contexts := by simp [hsplit]
      obtain ⟨hfits, hregistered⟩ := hstorable context List.mem_cons_self
      obtain ⟨k, added, hadded, hnext⟩ := h.contextAdd_next hsplit hregistered hloaded
      rw [List.flatMap_cons, h.contextsLoadLines_line _ ll ts hmem hfits, hadded]
      exact ih _ _ (by rw [hsplit, List.append_cons])
        (fun other hother => hstorable other (List.mem_cons_of_mem _ hother)) hnext

/-- What is stored in the files is reloaded. -/
theorem Saveable.reloaded_of_storable (h : Saveable d) (ipc : MctIpc) (ll ts : Int)
    {start : MctDaemonUsers} (hstart : start.IsEmpty) (hforce : start.forceLlTs = false)
    (happlications : ∀ application ∈ d.applications,
      Storable (applicationFields application) application.applicationDescription)
    (hcontexts : ∀ context ∈ d.contexts,
      Storable (contextFields context) context.contextDescription ∧ context.apid ∈ d.apids) :
    d.ReloadedFrom (d.reload ipc ll ts start) := by
  have hfirst : (start.applicationsLoad ipc d.applicationsSave).2 =
      withApplications start d.applications := by
    have hempty : withApplications start [] = start := by
      rw [withApplications, List.map_nil, ← hstart.1]
    unfold applicationsSave
    split
    · next hnone => rw [hnone, hempty, applicationsLoad]
    · unfold applicationsLoad
      simp only [h.readLines_applications]
      conv_lhs => rw [← hempty]
      rw [h.applicationsLoadLines_all ipc hstart (List.nil_append _).symm happlications]
  have hloaded : ContextsLoaded d.applicationEntries []
      (withApplications start d.applications) := by
    have hkeys : (withApplications start d.applications).contextKeys = [] := by
      simp only [contextKeys, withApplications, hstart.2, List.map_nil]
    refine ⟨h.tables.of_sublist ?_ ?_, hforce, ?_, hstart.2⟩
    · rw [apids_withApplications]
      exact List.Sublist.refl _
    · rw [hkeys]
      exact List.nil_sublist _
    · simp only [applicationEntries, withApplications, List.map_map]
      rfl
  have hsecond : ContextsLoaded d.applicationEntries d.contexts (d.reload ipc ll ts start) := by
    rw [reload, hfirst]
    unfold contextsSave
    split
    · next hnone =>
        rw [hnone]
        exact hloaded
    · unfold contextsLoad
      simp only [h.readLines_contexts]
      exact h.contextsLoadLines_all ll ts (List.nil_append _).symm hcontexts hloaded
  refine ⟨hsecond.applicationEntries, ?_⟩
  rw [contextEntries, hsecond.contexts, List.map_map]
  rfl

/-- Which tables are the same after their files are loaded: those whose contexts
have an application, and whose descriptions are not empty, have no separator and
fit into the buffer behind the fields before them. -/
theorem runtime_configuration_reloads (ipc : MctIpc) (ll ts : Int) {d start : MctDaemonUsers}
    (hd : Saveable d) (hstart : start.IsEmpty) (hforce : start.forceLlTs = false) :
    d.ReloadedFrom (d.reload ipc ll ts start) ↔
      (∀ application ∈ d.applications,
        Storable (applicationFields application) application.applicationDescription) ∧
      ∀ context ∈ d.contexts,
        Storable (contextFields context) context.contextDescription ∧ context.apid ∈ d.apids :=
  ⟨hd.storable_of_reloaded ipc ll ts hstart,
    fun h => hd.reloaded_of_storable ipc ll ts hstart hforce h.1 h.2⟩

def sampleRegistered : MctDaemonUsers where
  ownEcu := true
  applications := [{ MctDaemonApplication.fresh (setId ['A', 'P', 'P']) with
      applicationDescription := some ['m', 'a', 'i', 'n'] },
    { MctDaemonApplication.fresh (setId ['L', 'O', 'G']) with
      applicationDescription := some ['l', ' ', 'g'] }]
  contexts := [{ MctDaemonContext.fresh (setId ['A', 'P', 'P']) (setId ['C']) with
      logLevel := -1, traceStatus := 1, contextDescription := some ['c'] },
    { MctDaemonContext.fresh (setId ['L', 'O', 'G']) (setId ['C']) with
      logLevel := 6, traceStatus := 0, contextDescription := some ['d'] }]
  defaultLogLevel := 4
  defaultTraceStatus := 0
  forceLlTs := false
  runtimeContextCfgLoaded := false
  blockMode := 0

def emptyUsers : MctDaemonUsers := ⟨true, [], [], 4, 0, false, false, 0⟩

/-- The tables of an application that registered without a description. -/
def silentApplication : MctDaemonUsers :=
  { emptyUsers with
    applications := [{ MctDaemonApplication.fresh (setId ['A', 'P', 'P']) with
      applicationDescription := some [] }] }

theorem sampleRegistered_saveable : Saveable sampleRegistered := by
  refine ⟨⟨?_, ?_, ⟨?_, ?_, ?_⟩, ⟨?_, ?_, ?_⟩, ?_⟩, ?_, ?_, ?_, ?_, ?_, ?_⟩ <;> decide +kernel

theorem runtime_configuration_reloads_sample :
    sampleRegistered.ReloadedFrom (sampleRegistered.reload .fifo 0 0 emptyUsers) :=
  (runtime_configuration_reloads .fifo 0 0 sampleRegistered_saveable (by decide) rfl).mpr
    (by decide +kernel)

theorem silentApplication_saveable : Saveable silentApplication := by
  refine ⟨⟨?_, ?_, ⟨?_, ?_, ?_⟩, ⟨?_, ?_, ?_⟩, ?_⟩, ?_, ?_, ?_, ?_, ?_, ?_⟩ <;> decide +kernel

/-- An empty description comes back as the end of its line. -/
theorem empty_description_lost :
    Saveable silentApplication ∧ emptyUsers.IsEmpty ∧
      (silentApplication.reload .fifo 0 0 emptyUsers).applicationEntries =
        [(setId ['A', 'P', 'P'], some ['\n'])] ∧
      ¬ silentApplication.ReloadedFrom (silentApplication.reload .fifo 0 0 emptyUsers) :=
  ⟨silentApplication_saveable, by decide, by decide +kernel, by decide +kernel⟩

end Reload

end MctDaemon.Daemon
