import MctDaemon.Daemon.MessageFilter
import MctDaemon.Lib.Decision

/-!
The injection check as a whitelist. Each name of the current filter is a rule
that may decide; the check takes the first decision. A section of the
configuration file grants a request by equality of name and ids.
-/

namespace MctDaemon.Daemon

open Lib Shared

/-- The ids of an injection message and its service id. -/
structure InjectionRequest where
  apid : List Char
  ctid : List Char
  ecuid : List Char
  serviceId : Int
  deriving DecidableEq, Repr

section Meaning

/-- The setting is '*', or one of its ids is the service id. -/
def settingGrants (value : List Char) (serviceId : Int) : Prop :=
  strncmpEq value ['*'] 1 ∨
    ¬ strncasecmpEq value filterClientNone value.length ∧
      ∃ token ∈ strtok ',' value, int32 (strtol token) = serviceId

instance (value : List Char) (serviceId : Int) : Decidable (settingGrants value serviceId) :=
  inferInstanceAs (Decidable (_ ∨ _))

/-- The section has this name, the ids of the request and a setting that grants it. -/
def InjectionSection.Grants (sec : InjectionSection) (name : List Char)
    (request : InjectionRequest) : Prop :=
  sec.name = name ∧ sec.logAppName = request.apid ∧ sec.contextName = request.ctid ∧
    sec.nodeID = request.ecuid ∧ settingGrants sec.serviceID request.serviceId

instance (sec : InjectionSection) (name : List Char) (request : InjectionRequest) :
    Decidable (sec.Grants name request) :=
  inferInstanceAs (Decidable (_ ∧ _))

/-- The setting stores the service id: no '*' and no list without ids, but an item with this
number, or an empty item, for which a 0 is stored. -/
def settingStores (value : List Char) (serviceId : Int) : Prop :=
  ¬ strncmpEq value ['*'] 1 ∧ ¬ strncasecmpEq value filterClientNone value.length ∧
    ((∃ token ∈ strtok ',' value, int32 (strtol token) = serviceId) ∨
      serviceId = 0 ∧ (strtok ',' value).length < 1 + value.count ',')

instance (value : List Char) (serviceId : Int) : Decidable (settingStores value serviceId) :=
  inferInstanceAs (Decidable (_ ∧ _))

/-- The ids of the request are those of the section, or begin with them. -/
def InjectionSection.Covers (sec : InjectionSection) (request : InjectionRequest) : Prop :=
  sec.logAppName <+: request.apid ∧ sec.contextName <+: request.ctid ∧
    sec.nodeID <+: request.ecuid

instance (sec : InjectionSection) (request : InjectionRequest) : Decidable (sec.Covers request) :=
  inferInstanceAs (Decidable (_ ∧ _))

/-- The section that is taken for a name: the first one with the name or the start of it. -/
def sectionFor (secs : List InjectionSection) (name : List Char) : Option InjectionSection :=
  secs.find? fun sec => sec.name <+: name

def Whitelisted (secs : List InjectionSection) (current : MctFilterConfiguration)
    (request : InjectionRequest) : Prop :=
  current.numInjections = -1 ∨
    ∃ name ∈ current.injections, ∃ sec ∈ secs, sec.Grants name request

/-- The section that is taken for the name stores the service id behind ids that fit. -/
def Opens (secs : List InjectionSection) (request : InjectionRequest) (name : List Char) : Prop :=
  ∃ sec ∈ sectionFor secs name, sec.Covers request ∧
    settingStores sec.serviceID request.serviceId

/-- The section that is taken for the name grants the request by an item of its list. -/
def Lists (secs : List InjectionSection) (request : InjectionRequest) (name : List Char) : Prop :=
  ∃ sec ∈ sectionFor secs name, sec.Grants name request ∧ ¬ strncmpEq sec.serviceID ['*'] 1

/-- A section grants the request and is overlooked: for its '*', or behind the section that is
taken for the name. -/
def Overlooked (secs : List InjectionSection) (request : InjectionRequest) (name : List Char) :
    Prop :=
  ∃ sec ∈ secs, sec.Grants name request ∧
    (strncmpEq sec.serviceID ['*'] 1 ∨ sec ∉ sectionFor secs name)

/-- The names are read as the whitelist they are: either the sections of all of them have ids that
fit, one stores the service id, and that is right; or none stores it, none is overlooked, and the
names without a section and those with other ids do not occur together. -/
def ReadAsListed (secs : List InjectionSection) (request : InjectionRequest)
    (names : List (List Char)) : Prop :=
  (∀ name ∈ names, ∃ sec ∈ sectionFor secs name, sec.Covers request) ∧
      ((∃ name ∈ names, Lists secs request name) ∨
        (∃ name ∈ names, Opens secs request name) ∧ ∃ name ∈ names, Overlooked secs request name) ∨
    (∀ name ∈ names, ¬ Opens secs request name ∧ ¬ Overlooked secs request name) ∧
      ((∀ name ∈ names, sectionFor secs name ≠ none) ∨
        ∀ name ∈ names, ∀ sec ∈ sectionFor secs name, sec.Covers request)

end Meaning

/-- The filter that the injection sections of a configuration file make. -/
def filterOf (secs : List InjectionSection) (hsecs : secs.length ≤ mctFilterInjectionConfigMax)
    (configs : List MctFilterConfiguration) (current : MctFilterConfiguration) :
    MctMessageFilter where
  configs := configs
  current := current
  injections := secs.map setupInjectionConfig
  injections_le := by simpa using hsecs

/-- The same configuration with its names in another order. -/
def MctFilterConfiguration.reorder (conf : MctFilterConfiguration) (names : List (List Char))
    (h : names.Perm conf.injections) : MctFilterConfiguration :=
  { conf with
    injections := names
    counted := by
      rw [h.length_eq]
      exact conf.counted }

/-- The check answers TRUE for the whitelisted requests and no others, and the
order of the names does not change its answer. -/
def ExactWhitelist (secs : List InjectionSection)
    (hsecs : secs.length ≤ mctFilterInjectionConfigMax) (configs : List MctFilterConfiguration)
    (current : MctFilterConfiguration) (request : InjectionRequest) : Prop :=
  let answer := fun conf => isInjectionAllowed (filterOf secs hsecs configs conf) request.apid
    request.ctid request.ecuid request.serviceId
  (answer current = .true ↔ Whitelisted secs current request) ∧
    ∀ names, (h : names.Perm current.injections) →
      answer (current.reorder names h) = answer current

section Decisions

variable (known : List MctInjectionConfig) (request : InjectionRequest)

/-- How the loop over the names ends at a name: without a configuration, at an
id that fails the comparison, or at a stored service id; or it goes on. -/
def decideInjection (name : List Char) : Option MctReturnValue :=
  match findInjectionByName known name with
  | none => some .error
  | some icfg =>
      if icfg.apid <+: request.apid ∧ icfg.ctid <+: request.ctid ∧
          icfg.ecuid <+: request.ecuid then
        if icfg.hasServiceId request.serviceId then some .true else none
      else some .ok

/-- The loop takes the first decision. -/
theorem scanInjections_eq (names : List (List Char)) :
    scanInjections known request.apid request.ctid request.ecuid request.serviceId names =
      firstDecision (decideInjection known request) .ok names := by
  induction names with
  | nil => rfl
  | cons name names ih =>
      simp only [scanInjections, firstDecision, List.findSome?_cons, decideInjection]
      cases findInjectionByName known name with
      | none => rfl
      | some icfg =>
          have hcompare : ∀ id own : List Char,
              (!strncmpEq own id own.length) = true ↔ ¬ own <+: id := by
            intro id own
            rw [← strncmpEq_length_left]
            simp
          simp only [hcompare]
          by_cases hapid : icfg.apid <+: request.apid
          · by_cases hctid : icfg.ctid <+: request.ctid
            · by_cases hecuid : icfg.ecuid <+: request.ecuid
              · simp only [hapid, hctid, hecuid, not_true, if_false, and_self, if_true]
                by_cases hid : icfg.hasServiceId request.serviceId
                · simp [hid]
                · simpa [hid, firstDecision, decideInjection] using ih
              · simp [hapid, hctid, hecuid]
            · simp [hapid, hctid]
          · simp [hapid]

/-- Of rules that agree, one that says TRUE decides. -/
theorem firstDecision_true_iff {names : List (List Char)}
    (hagree : Agree (decideInjection known request) names) :
    firstDecision (decideInjection known request) .ok names = .true ↔
      ∃ name ∈ names, decideInjection known request name = some .true := by
  constructor
  · intro htrue
    cases hfirst : names.findSome? (decideInjection known request) with
    | none =>
        rw [firstDecision, hfirst] at htrue
        cases htrue
    | some answer =>
        rw [firstDecision, hfirst] at htrue
        obtain ⟨name, hmem, hname⟩ := List.exists_of_findSome?_eq_some hfirst
        exact ⟨name, hmem, hname.trans (congrArg some htrue)⟩
  · rintro ⟨name, hmem, hname⟩
    exact firstDecision_of_agree hagree hmem hname

end Decisions

section Reading

variable {secs : List InjectionSection} {request : InjectionRequest} {name : List Char}
  {names : List (List Char)}

theorem length_strtok_le_count (value : List Char) :
    (strtok ',' value).length ≤ 1 + value.count ',' := by
  have hsplit : (value.splitOn ',').length = 1 + value.count ',' := by
    induction value with
    | nil => rfl
    | cons c cs ih =>
        rw [List.splitOn_cons_eq_if_modifyHead]
        split
        · next hc =>
            rw [beq_iff_eq.mp hc, List.length_cons, ih, List.count_cons_self]
            omega
        · next hc =>
            rw [List.length_modifyHead, ih, List.count_cons_of_ne (by simpa using hc)]
  rw [← hsplit]
  exact List.length_filter_le _ _

theorem hasServiceId_iff (sec : InjectionSection) (serviceId : Int) :
    (setupInjectionConfig sec).hasServiceId serviceId = true ↔
      settingStores sec.serviceID serviceId := by
  unfold settingStores
  rw [MctInjectionConfig.hasServiceId, setupInjectionConfig]
  dsimp only
  rw [setInjectionServiceIds]
  by_cases hall : strncmpEq sec.serviceID ['*'] 1
  · simp [hall]
  · by_cases hnone : strncasecmpEq sec.serviceID filterClientNone sec.serviceID.length
    · simp [hall, hnone]
    · have hcount := length_strtok_le_count sec.serviceID
      rw [if_neg hall, if_neg hnone, List.take_of_length_le]
      · simp only [List.contains_iff_mem, List.mem_append, List.mem_map, List.mem_replicate,
          List.length_map]
        constructor
        · rintro (⟨token, hmem, hid⟩ | ⟨hempty, rfl⟩)
          · exact ⟨hall, hnone, .inl ⟨token, hmem, hid⟩⟩
          · exact ⟨hall, hnone, .inr ⟨rfl, by omega⟩⟩
        · rintro ⟨-, -, ⟨token, hmem, hid⟩ | ⟨rfl, hempty⟩⟩
          · exact .inl ⟨token, hmem, hid⟩
          · exact .inr ⟨by omega, rfl⟩
      · simp only [List.length_append, List.length_map, List.length_replicate]
        omega

theorem findInjectionByName_map (secs : List InjectionSection) (name : List Char) :
    findInjectionByName (secs.map setupInjectionConfig) name =
      (sectionFor secs name).map setupInjectionConfig := by
  rw [findInjectionByName, List.find?_map, sectionFor]
  congr 2
  funext sec
  rw [Function.comp_apply, Bool.eq_iff_iff, decide_eq_true_iff]
  exact strncmpEq_length_left sec.name name

/-- How the loop ends at a name, by the section that is taken for it. -/
theorem decideInjection_eq (secs : List InjectionSection) (request : InjectionRequest)
    (name : List Char) :
    decideInjection (secs.map setupInjectionConfig) request name =
      match sectionFor secs name with
      | none => some .error
      | some sec =>
          if sec.Covers request then
            if settingStores sec.serviceID request.serviceId then some .true else none
          else some .ok := by
  rw [decideInjection, findInjectionByName_map]
  cases sectionFor secs name with
  | none => rfl
  | some sec =>
      simp only [Option.map_some, hasServiceId_iff]
      rfl

theorem decideInjection_true_iff :
    decideInjection (secs.map setupInjectionConfig) request name = some .true ↔
      Opens secs request name := by
  rw [decideInjection_eq, Opens]
  cases sectionFor secs name with
  | none => simp
  | some sec =>
      by_cases hcovers : sec.Covers request
      · by_cases hstores : settingStores sec.serviceID request.serviceId
        · simp [hcovers, hstores]
        · simp [hcovers, hstores]
      · simp [hcovers]

theorem Lists.opens (h : Lists secs request name) : Opens secs request name := by
  obtain ⟨sec, hsec, ⟨-, hapid, hctid, hecuid, hgrants⟩, hall⟩ := h
  obtain ⟨hnone, hlisted⟩ := hgrants.resolve_left hall
  refine ⟨sec, hsec, ⟨?_, ?_, ?_⟩, hall, hnone, .inl hlisted⟩
  · rw [hapid]
  · rw [hctid]
  · rw [hecuid]

/-- A section that grants the request is taken for its name, or it is overlooked. -/
theorem grants_iff : (∃ sec ∈ secs, sec.Grants name request) ↔
    Lists secs request name ∨ Overlooked secs request name := by
  constructor
  · rintro ⟨sec, hsec, hgrants⟩
    by_cases htaken : sec ∈ sectionFor secs name ∧ ¬ strncmpEq sec.serviceID ['*'] 1
    · exact .inl ⟨sec, htaken.1, hgrants, htaken.2⟩
    · refine .inr ⟨sec, hsec, hgrants, ?_⟩
      by_cases hall : strncmpEq sec.serviceID ['*'] 1
      · exact .inl hall
      · exact .inr fun h => htaken ⟨h, hall⟩
  · rintro (⟨sec, hsec, hgrants, -⟩ | ⟨sec, hsec, hgrants, -⟩)
    · exact ⟨sec, List.mem_of_find?_eq_some hsec, hgrants⟩
    · exact ⟨sec, hsec, hgrants⟩

/-- Names that agree with one that stores the service id all have ids that fit. -/
theorem agree_opens_iff (hopens : ∃ name ∈ names, Opens secs request name) :
    Agree (decideInjection (secs.map setupInjectionConfig) request) names ↔
      ∀ name ∈ names, ∃ sec ∈ sectionFor secs name, sec.Covers request := by
  obtain ⟨first, hfirst, hopen⟩ := hopens
  have htrue := decideInjection_true_iff.mpr hopen
  constructor
  · intro hagree name hname
    have hsame := fun answer => hagree first hfirst name hname .true htrue answer
    rw [decideInjection_eq] at hsame
    cases hsec : sectionFor secs name with
    | none =>
        rw [hsec] at hsame
        exact absurd (hsame .error rfl) (by decide)
    | some sec =>
        rw [hsec] at hsame
        refine ⟨sec, rfl, ?_⟩
        by_contra hcovers
        dsimp only at hsame
        rw [if_neg hcovers] at hsame
        exact absurd (hsame .ok rfl) (by decide)
  · intro hcovered
    have honly : ∀ name ∈ names, ∀ answer ∈ decideInjection (secs.map setupInjectionConfig)
        request name, answer = .true := by
      intro name hname answer hanswer
      obtain ⟨sec, hsec, hcovers⟩ := hcovered name hname
      rw [decideInjection_eq, Option.mem_def.mp hsec] at hanswer
      dsimp only at hanswer
      rw [if_pos hcovers] at hanswer
      split at hanswer
      · exact (Option.mem_some_iff.mp hanswer).symm
      · cases hanswer
    intro a ha b hb x hx y hy
    rw [honly a ha x hx, honly b hb y hy]

/-- Names that do not store the service id agree if they end the loop for one reason. -/
theorem agree_closed_iff (hclosed : ∀ name ∈ names, ¬ Opens secs request name) :
    Agree (decideInjection (secs.map setupInjectionConfig) request) names ↔
      (∀ name ∈ names, sectionFor secs name ≠ none) ∨
        ∀ name ∈ names, ∀ sec ∈ sectionFor secs name, sec.Covers request := by
  have hmissing : ∀ name, sectionFor secs name = none →
      decideInjection (secs.map setupInjectionConfig) request name = some .error := by
    intro name hnone
    rw [decideInjection_eq, hnone]
  have hother : ∀ name, ∀ sec ∈ sectionFor secs name, ¬ sec.Covers request →
      decideInjection (secs.map setupInjectionConfig) request name = some .ok := by
    intro name sec hsec hcovers
    rw [decideInjection_eq, Option.mem_def.mp hsec]
    exact if_neg hcovers
  have hgoesOn : ∀ name ∈ names, ∀ sec ∈ sectionFor secs name, sec.Covers request →
      decideInjection (secs.map setupInjectionConfig) request name = none := by
    intro name hname sec hsec hcovers
    rw [decideInjection_eq, Option.mem_def.mp hsec]
    dsimp only
    rw [if_pos hcovers, if_neg fun hstores => hclosed name hname ⟨sec, hsec, hcovers, hstores⟩]
  constructor
  · intro hagree
    by_contra hboth
    rw [not_or] at hboth
    push Not at hboth
    obtain ⟨⟨first, hfirst, hnone⟩, second, hsecond, sec, hsec, hcovers⟩ := hboth
    exact absurd (hagree first hfirst second hsecond .error (hmissing first hnone) .ok
      (hother second sec hsec hcovers)) (by decide)
  · intro hone a ha b hb x hx y hy
    have hanswer : ∀ name ∈ names, ∀ answer ∈ decideInjection (secs.map setupInjectionConfig)
        request name, sectionFor secs name = none ∧ answer = .error ∨
          (∃ sec ∈ sectionFor secs name, ¬ sec.Covers request) ∧ answer = .ok := by
      intro name hname answer hanswer
      cases hsec : sectionFor secs name with
      | none =>
          rw [hmissing name hsec] at hanswer
          exact .inl ⟨rfl, (Option.mem_some_iff.mp hanswer).symm⟩
      | some sec =>
          by_cases hcovers : sec.Covers request
          · rw [hgoesOn name hname sec hsec hcovers] at hanswer
            cases hanswer
          · rw [hother name sec hsec hcovers] at hanswer
            exact .inr ⟨⟨sec, rfl, hcovers⟩, (Option.mem_some_iff.mp hanswer).symm⟩
    rcases hanswer a ha x hx with ⟨hnoneA, rfl⟩ | ⟨⟨secA, hsecA, hcoversA⟩, rfl⟩
    · rcases hanswer b hb y hy with ⟨-, rfl⟩ | ⟨⟨secB, hsecB, hcoversB⟩, rfl⟩
      · rfl
      · rcases hone with hone | hone
        · exact absurd hnoneA (hone a ha)
        · exact absurd (hone b hb secB hsecB) hcoversB
    · rcases hanswer b hb y hy with ⟨hnoneB, rfl⟩ | ⟨-, rfl⟩
      · rcases hone with hone | hone
        · exact absurd hnoneB (hone b hb)
        · exact absurd (hone a ha secA hsecA) hcoversA
      · rfl

/-- The names agree, and one stores the service id just when a section grants the request, if and
only if they are read as the whitelist they are. -/
theorem readAsListed_iff :
    Agree (decideInjection (secs.map setupInjectionConfig) request) names ∧
        ((∃ name ∈ names,
          decideInjection (secs.map setupInjectionConfig) request name = some .true) ↔
          ∃ name ∈ names, ∃ sec ∈ secs, sec.Grants name request) ↔
      ReadAsListed secs request names := by
  simp only [decideInjection_true_iff, grants_iff]
  unfold ReadAsListed
  by_cases hopens : ∃ name ∈ names, Opens secs request name
  · rw [agree_opens_iff hopens]
    constructor
    · rintro ⟨hcovered, hexact⟩
      obtain ⟨name, hname, hgrants⟩ := hexact.mp hopens
      refine .inl ⟨hcovered, ?_⟩
      rcases hgrants with hlists | hover
      · exact .inl ⟨name, hname, hlists⟩
      · exact .inr ⟨hopens, name, hname, hover⟩
    · rintro (⟨hcovered, hgrants⟩ | ⟨hclosed, -⟩)
      · refine ⟨hcovered, fun _ => ?_, fun _ => hopens⟩
        rcases hgrants with ⟨name, hname, hlists⟩ | ⟨-, name, hname, hover⟩
        · exact ⟨name, hname, .inl hlists⟩
        · exact ⟨name, hname, .inr hover⟩
      · obtain ⟨name, hname, hopen⟩ := hopens
        exact absurd hopen (hclosed name hname).1
  · have hclosed : ∀ name ∈ names, ¬ Opens secs request name :=
      fun name hname hopen => hopens ⟨name, hname, hopen⟩
    rw [agree_closed_iff hclosed]
    constructor
    · rintro ⟨hone, hexact⟩
      refine .inr ⟨fun name hname => ⟨hclosed name hname, fun hover => ?_⟩, hone⟩
      exact hopens (hexact.mpr ⟨name, hname, .inr hover⟩)
    · rintro (⟨-, ⟨name, hname, hlists⟩ | ⟨hopen, -⟩⟩ | ⟨hnone, hone⟩)
      · exact absurd hlists.opens (hclosed name hname)
      · exact absurd hopen hopens
      · refine ⟨hone, fun hopen => absurd hopen hopens, ?_⟩
        rintro ⟨name, hname, hlists | hover⟩
        · exact absurd hlists.opens (hclosed name hname)
        · exact absurd hover (hnone name hname).2

end Reading

/-- The check is the whitelist exactly when all or no injections are allowed, or the names are
read as they are listed. -/
theorem injection_whitelist_exact_iff (secs : List InjectionSection)
    (hsecs : secs.length ≤ mctFilterInjectionConfigMax) (configs : List MctFilterConfiguration)
    (current : MctFilterConfiguration) (request : InjectionRequest) :
    ExactWhitelist secs hsecs configs current request ↔
      current.numInjections = 0 ∨ current.numInjections = -1 ∨
        ReadAsListed secs request current.injections := by
  rw [← readAsListed_iff]
  unfold ExactWhitelist
  simp only [isInjectionAllowed, filterOf, Whitelisted, MctFilterConfiguration.reorder]
  by_cases hzero : current.numInjections = 0
  · have hempty : current.injections = [] := by
      rcases current.counted with hall | hcount
      · omega
      · exact List.eq_nil_of_length_eq_zero (by omega)
    simp [hzero, hempty]
  · by_cases hall : current.numInjections = -1
    · simp [hall]
    · simp only [hzero, hall, if_false, false_or, scanInjections_eq]
      constructor
      · rintro ⟨hexact, horder⟩
        have hagree := (firstDecision_perm_iff _ _ _).mp horder
        exact ⟨hagree, (firstDecision_true_iff _ _ hagree).symm.trans hexact⟩
      · rintro ⟨hagree, hexact⟩
        exact ⟨(firstDecision_true_iff _ _ hagree).trans hexact,
          (firstDecision_perm_iff _ _ _).mpr hagree⟩

/-- Two names with the ids of the request, the second of which lists the service id. -/
theorem injection_whitelist_exact_iff_two :
    ExactWhitelist
      [⟨['i', '1'], ['A'], ['C'], ['E'], ['7', ',', '9']⟩, ⟨['i', '2'], ['A'], ['C'], ['E'], ['8']⟩]
      (by decide) [] ⟨[], 0, 100, 0, 2, [['i', '1'], ['i', '2']], .inr rfl⟩
      ⟨['A'], ['C'], ['E'], 8⟩ := by
  refine (injection_whitelist_exact_iff _ _ _ _ _).mpr (.inr (.inr (.inl ⟨?_, .inl ?_⟩)))
  · decide +kernel
  · refine ⟨['i', '2'], by decide, ⟨['i', '2'], ['A'], ['C'], ['E'], ['8']⟩, ?_, ?_⟩
    · decide
    · decide +kernel

/-- Two names, the first for another application: the loop is left at its id
and the second name, which grants the request, is not looked at. -/
theorem injection_whitelist_left_early :
    ¬ ExactWhitelist
      [⟨['i', '1'], ['A'], ['C'], ['E'], ['7']⟩, ⟨['i', '2'], ['B'], ['C'], ['E'], ['7']⟩]
      (by decide) [] ⟨[], 0, 100, 0, 2, [['i', '1'], ['i', '2']], .inr rfl⟩
      ⟨['B'], ['C'], ['E'], 7⟩ := by
  rintro ⟨hexact, _⟩
  have hlisted : Whitelisted
      [⟨['i', '1'], ['A'], ['C'], ['E'], ['7']⟩, ⟨['i', '2'], ['B'], ['C'], ['E'], ['7']⟩]
      ⟨[], 0, 100, 0, 2, [['i', '1'], ['i', '2']], .inr rfl⟩ ⟨['B'], ['C'], ['E'], 7⟩ := by
    right
    refine ⟨['i', '2'], by decide, ⟨['i', '2'], ['B'], ['C'], ['E'], ['7']⟩, by decide, ?_⟩
    decide +kernel
  have htrue := hexact.mpr hlisted
  revert htrue
  decide +kernel

end MctDaemon.Daemon
