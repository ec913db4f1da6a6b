import MctDaemon.Daemon.FilterPartition

/-!
The names of the sections in a filter configuration file. The check for a filter
section compares as many characters as the new name has, that for an injection
section as many as the stored name has, so a name that is a prefix of another is
accepted in one order only.
-/

namespace MctDaemon.Daemon

open Lib Shared

section Model

/-- `mct_daemon_filter_name`: whether the name is free. -/
def filterName (configs : List MctFilterConfiguration) (value : List Char) : MctReturnValue :=
  if configs.any fun conf => strncmpEq conf.name value value.length then .error else .ok

/-- The loop of `mct_daemon_prepare_message_filter` over filter sections whose
other values are valid: all of them are accepted. -/
def acceptsFilters (configs : List MctFilterConfiguration) : List MctFilterConfiguration → Bool
  | [] => true
  | sec :: secs =>
      filterName configs sec.name = .ok ∧ (setupFilterSection configs sec).1 = .ok ∧
        acceptsFilters (setupFilterSection configs sec).2 secs

def injectionName (known : List MctInjectionConfig) (value : List Char) : MctReturnValue :=
  if (findInjectionByName known value).isSome then .error else .ok

/-- The same loop over injection sections; there is room for
`MCT_FILTER_INJECTION_CONFIG_MAX` of them. -/
def acceptsInjections (known : List MctInjectionConfig) : List InjectionSection → Bool
  | [] => true
  | sec :: secs =>
      known.length ≠ mctFilterInjectionConfigMax ∧ injectionName known sec.name = .ok ∧
        acceptsInjections (known ++ [setupInjectionConfig sec]) secs

end Model

section Filters

variable {configs : List MctFilterConfiguration}

theorem filterName_ok_iff (value : List Char) :
    filterName configs value = .ok ↔ ∀ conf ∈ configs, ¬ value <+: conf.name := by
  have hcompare : ∀ conf : MctFilterConfiguration,
      strncmpEq conf.name value value.length ↔ value <+: conf.name := by
    intro conf
    rw [← strncmpEq_length_left, strncmpEq, strncmpEq, decide_eq_true_eq, decide_eq_true_eq]
    exact eq_comm
  unfold filterName
  split
  · next hany =>
      obtain ⟨conf, hmem, hequal⟩ := List.any_eq_true.mp hany
      refine iff_of_false ?_ fun hall => hall conf hmem ((hcompare conf).mp hequal)
      intro hok
      cases hok
  · next hnone =>
      refine iff_of_true rfl fun conf hmem hprefix => hnone ?_
      exact List.any_eq_true.mpr ⟨conf, hmem, (hcompare conf).mpr hprefix⟩

/-- A section with a new level is inserted among the others. -/
theorem setupFilterSection_of_new_level (hconsecutive : Consecutive mctFilterLevelMin configs)
    {sec : MctFilterConfiguration}
    (hlevel : sec.levelMax ∉ configs.map MctFilterConfiguration.levelMax) :
    (setupFilterSection configs sec).1 = .ok ∧
      Consecutive mctFilterLevelMin (setupFilterSection configs sec).2 ∧
      ((setupFilterSection configs sec).2.map MctFilterConfiguration.unbounded).Perm
        ((sec :: configs).map MctFilterConfiguration.unbounded) := by
  rcases setupFilterSection_inserted hconsecutive sec with ⟨_, htaken⟩ | ⟨hok, _, hnext, hperm⟩
  · exact absurd htaken hlevel
  · exact ⟨hok, hnext, hperm⟩

theorem acceptsFilters_iff (hconsecutive : Consecutive mctFilterLevelMin configs)
    {secs : List MctFilterConfiguration}
    (hlevels : ((configs ++ secs).map MctFilterConfiguration.levelMax).Nodup) :
    acceptsFilters configs secs ↔
      (∀ sec ∈ secs, ∀ conf ∈ configs, ¬ sec.name <+: conf.name) ∧
      secs.Pairwise fun earlier later => ¬ later.name <+: earlier.name := by
  induction secs generalizing configs with
  | nil => simp [acceptsFilters]
  | cons sec secs ih =>
      have hmiddle : ((sec :: configs ++ secs).map MctFilterConfiguration.levelMax).Nodup :=
        (List.perm_middle.map _).nodup_iff.mp hlevels
      have hlevel : sec.levelMax ∉ configs.map MctFilterConfiguration.levelMax := by
        intro htaken
        rw [List.cons_append, List.map_cons, List.nodup_cons, List.map_append] at hmiddle
        exact hmiddle.1 (List.mem_append_left _ htaken)
      obtain ⟨hok, hnext, hperm⟩ := setupFilterSection_of_new_level hconsecutive hlevel
      have hlevelsPerm := hperm.map MctFilterConfiguration.levelMax
      have hnamesPerm := hperm.map MctFilterConfiguration.name
      rw [List.map_map, List.map_map] at hlevelsPerm hnamesPerm
      have hnext' : (((setupFilterSection configs sec).2 ++ secs).map
          MctFilterConfiguration.levelMax).Nodup := by
        rw [List.map_append] at hmiddle ⊢
        exact ((hlevelsPerm.append_right _).nodup_iff).mpr hmiddle
      have hnames : ∀ name : List Char,
          (∀ conf ∈ (setupFilterSection configs sec).2, ¬ name <+: conf.name) ↔
            ¬ name <+: sec.name ∧ ∀ conf ∈ configs, ¬ name <+: conf.name := by
        intro name
        have hmem : ∀ other, other ∈ (setupFilterSection configs sec).2.map
            MctFilterConfiguration.name ↔
              other ∈ (sec :: configs).map MctFilterConfiguration.name :=
          fun other => hnamesPerm.mem_iff
        rw [← List.forall_mem_map (f := MctFilterConfiguration.name)
          (P := fun other => ¬ name <+: other)]
        simp only [hmem, List.map_cons, List.forall_mem_cons, List.forall_mem_map]
      rw [acceptsFilters, decide_eq_true_eq, filterName_ok_iff, and_iff_right hok, ih hnext hnext',
        List.forall_mem_cons, List.pairwise_cons]
      simp only [hnames]
      constructor
      · rintro ⟨hfirst, hrest, hpairwise⟩
        exact ⟨⟨hfirst, fun other hmem => (hrest other hmem).2⟩,
          fun other hmem => (hrest other hmem).1, hpairwise⟩
      · rintro ⟨⟨hfirst, hrest⟩, hbehind, hpairwise⟩
        exact ⟨hfirst, fun other hmem => ⟨hbehind other hmem, hrest other hmem⟩, hpairwise⟩

end Filters

section Injections

variable {known : List MctInjectionConfig}

theorem injectionName_ok_iff (value : List Char) :
    injectionName known value = .ok ↔ ∀ icfg ∈ known, ¬ icfg.name <+: value := by
  unfold injectionName findInjectionByName
  split
  · next hfound =>
      obtain ⟨icfg, hmem, hequal⟩ := List.find?_isSome.mp hfound
      exact iff_of_false nofun fun hall => hall icfg hmem ((strncmpEq_length_left _ _).mp hequal)
  · next hnone =>
      refine iff_of_true rfl fun icfg hmem hprefix => hnone ?_
      exact List.find?_isSome.mpr ⟨icfg, hmem, (strncmpEq_length_left _ _).mpr hprefix⟩

theorem acceptsInjections_iff (secs : List InjectionSection)
    (hknown : known.length ≤ mctFilterInjectionConfigMax) :
    acceptsInjections known secs ↔
      known.length + secs.length ≤ mctFilterInjectionConfigMax ∧
      (∀ sec ∈ secs, ∀ icfg ∈ known, ¬ icfg.name <+: sec.name) ∧
      secs.Pairwise fun earlier later => ¬ earlier.name <+: later.name := by
  induction secs generalizing known with
  | nil => simpa [acceptsInjections] using hknown
  | cons sec secs ih =>
      rw [acceptsInjections, decide_eq_true_eq, injectionName_ok_iff]
      by_cases hfull : known.length = mctFilterInjectionConfigMax
      · refine iff_of_false (fun h => h.1 hfull) fun h => ?_
        have hroom := h.1
        rw [List.length_cons] at hroom
        omega
      · rw [and_iff_right hfull, ih (by rw [List.length_append, List.length_singleton]; omega),
          List.length_append, List.length_singleton, List.length_cons, List.forall_mem_cons,
          List.pairwise_cons]
        simp only [List.forall_mem_append, List.forall_mem_singleton]
        constructor
        · rintro ⟨hfirst, hroom, hrest, hpairwise⟩
          exact ⟨by omega, ⟨hfirst, fun other hmem => (hrest other hmem).1⟩,
            fun other hmem => (hrest other hmem).2, hpairwise⟩
        · rintro ⟨hroom, ⟨hfirst, hrest⟩, hbehind, hpairwise⟩
          exact ⟨hfirst, by omega, fun other hmem => ⟨hrest other hmem, hbehind other hmem⟩,
            hpairwise⟩

end Injections

section Order

/-- Some name in a list stands before another one that the check `clashes` takes
for the same although it differs. -/
def TakenForSame (clashes : List Char → List Char → Prop) (names : List (List Char)) : Prop :=
  ¬ names.Pairwise fun earlier later => ¬ (clashes earlier later ∧ earlier ≠ later)

theorem pairwise_iff_nodup_iff (clashes : List Char → List Char → Prop)
    (hrefl : ∀ name, clashes name name) (names : List (List Char)) :
    ((names.Pairwise fun earlier later => ¬ clashes earlier later) ↔ names.Nodup) ↔
      (¬ names.Nodup ∨ ¬ TakenForSame clashes names) := by
  have hnodup : (names.Pairwise fun earlier later => ¬ clashes earlier later) → names.Nodup := by
    intro hpairwise
    refine hpairwise.imp ?_
    rintro earlier later hno rfl
    exact hno (hrefl earlier)
  unfold TakenForSame
  rw [not_not]
  constructor
  · intro hiff
    refine or_iff_not_imp_left.mpr fun hno => ?_
    exact (hiff.mpr (not_not.mp hno)).imp fun hclash hboth => hclash hboth.1
  · rintro (hrepeated | hpairwise)
    · exact iff_of_false (fun h => hrepeated (hnodup h)) hrepeated
    · refine ⟨hnodup, fun h => ?_⟩
      refine (hpairwise.and h).imp ?_
      rintro earlier later ⟨hno, hne⟩ hclash
      exact hno ⟨hclash, hne⟩

/-- Sections with different levels are accepted exactly if their names are
pairwise different, unless a later filter name is a proper prefix of an earlier
one, an earlier injection name is a proper prefix of a later one, or there are
more injections than there is room for. -/
theorem section_names_accepted_iff (filters : List MctFilterConfiguration)
    (injections : List InjectionSection)
    (hlevels : (filters.map MctFilterConfiguration.levelMax).Nodup) :
    ((acceptsFilters [] filters ↔ (filters.map MctFilterConfiguration.name).Nodup) ↔
      (¬ (filters.map MctFilterConfiguration.name).Nodup ∨
        ¬ TakenForSame (fun earlier later => later <+: earlier)
          (filters.map MctFilterConfiguration.name))) ∧
    ((acceptsInjections [] injections ↔ (injections.map InjectionSection.name).Nodup) ↔
      (¬ (injections.map InjectionSection.name).Nodup ∨
        injections.length ≤ mctFilterInjectionConfigMax ∧
          ¬ TakenForSame (fun earlier later => earlier <+: later)
            (injections.map InjectionSection.name))) := by
  constructor
  · have haccepts : acceptsFilters [] filters ↔ (filters.map MctFilterConfiguration.name).Pairwise
        fun earlier later => ¬ later <+: earlier := by
      have hstart : Consecutive mctFilterLevelMin [] := trivial
      rw [acceptsFilters_iff hstart hlevels, List.pairwise_map]
      simp
    rw [haccepts]
    exact pairwise_iff_nodup_iff (fun earlier later => later <+: earlier)
      (fun name => List.prefix_rfl) _
  · have haccepts : acceptsInjections [] injections ↔
        injections.length ≤ mctFilterInjectionConfigMax ∧
          (injections.map InjectionSection.name).Pairwise
            fun earlier later => ¬ earlier <+: later := by
      rw [acceptsInjections_iff injections (Nat.zero_le _), List.pairwise_map]
      simp
    have hnames := pairwise_iff_nodup_iff (fun earlier later => earlier <+: later)
      (fun name => List.prefix_rfl) (injections.map InjectionSection.name)
    rw [haccepts]
    by_cases hroom : injections.length ≤ mctFilterInjectionConfigMax
    · rw [and_iff_right hroom, and_iff_right hroom]
      exact hnames
    · simp [hroom]

def namedFilter (name : List Char) (level : Nat) : MctFilterConfiguration where
  name := name
  levelMin := mctFilterLevelMin
  levelMax := level
  clientMask := filterClientConnectionDefaultMask
  numInjections := 0
  injections := []
  counted := noInjections_counted

def namedInjection (name : List Char) : InjectionSection where
  name := name
  logAppName := ['A', 'P', 'P']
  contextName := ['C', 'O', 'N']
  nodeID := ['E', 'C', 'U']
  serviceID := ['5', '0', '0', '0']

theorem section_names_accepted_sample :
    acceptsFilters [] [namedFilter ['A'] 1, namedFilter ['A', 'B'] 2] = true ∧
      acceptsInjections [] [namedInjection ['A', 'B'], namedInjection ['A']] = true := by
  have h := section_names_accepted_iff [namedFilter ['A'] 1, namedFilter ['A', 'B'] 2]
    [namedInjection ['A', 'B'], namedInjection ['A']] (by decide)
  constructor
  · exact (h.1.mpr (.inr (not_not.mpr (by decide)))).mpr (by decide)
  · exact (h.2.mpr (.inr ⟨by decide, not_not.mpr (by decide)⟩)).mpr (by decide)

/-- Two filter names are accepted in one order and not in the other, and two
injection names the other way round. -/
theorem section_names_depend_on_order :
    acceptsFilters [] [namedFilter ['A'] 1, namedFilter ['A', 'B'] 2] = true ∧
      acceptsFilters [] [namedFilter ['A', 'B'] 2, namedFilter ['A'] 1] = false ∧
      acceptsInjections [] [namedInjection ['A', 'B'], namedInjection ['A']] = true ∧
      acceptsInjections [] [namedInjection ['A'], namedInjection ['A', 'B']] = false := by
  decide +kernel

end Order

end MctDaemon.Daemon
