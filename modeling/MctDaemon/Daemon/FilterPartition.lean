import MctDaemon.Daemon.FilterConnections

/-!
The filter levels partition the level range. Insertion keeps the list
consecutive from the lowest level on, so that one upper bound decides which
configuration a level selects.
-/

namespace MctDaemon.Daemon

open Lib Shared

/-- Each configuration begins one level above the end of the one before. -/
def Consecutive : Nat → List MctFilterConfiguration → Prop
  | _, [] => True
  | low, conf :: rest =>
      conf.levelMin = low ∧ low ≤ conf.levelMax ∧ Consecutive (conf.levelMax + 1) rest

def MctFilterConfiguration.unbounded (conf : MctFilterConfiguration) : MctFilterConfiguration :=
  { conf with levelMin := mctFilterLevelMin }

section Consecutive

variable {low : Nat} {configs : List MctFilterConfiguration}

theorem Consecutive.le_levelMax (h : Consecutive low configs) {conf : MctFilterConfiguration}
    (hmem : conf ∈ configs) : low ≤ conf.levelMax := by
  induction configs generalizing low with
  | nil => simp at hmem
  | cons first rest ih =>
      obtain ⟨hmin, hle, hrest⟩ := h
      rcases List.mem_cons.mp hmem with rfl | hmem
      · exact hle
      · exact (Nat.le_succ_of_le hle).trans (ih hrest hmem)

theorem Consecutive.pairwise (h : Consecutive low configs) :
    configs.Pairwise fun a b => a.levelMax < b.levelMax := by
  induction configs generalizing low with
  | nil => exact List.Pairwise.nil
  | cons first rest ih =>
      obtain ⟨hmin, hle, hrest⟩ := h
      refine List.Pairwise.cons ?_ (ih hrest)
      intro conf hmem
      exact hrest.le_levelMax hmem

/-- The upper bounds determine the lower ones. -/
theorem Consecutive.eq_of_unbounded {other : List MctFilterConfiguration}
    (h : Consecutive low configs) (hother : Consecutive low other)
    (heq : configs.map MctFilterConfiguration.unbounded =
      other.map MctFilterConfiguration.unbounded) : configs = other := by
  induction configs generalizing low other with
  | nil =>
      cases other with
      | nil => rfl
      | cons first rest => simp at heq
  | cons conf rest ih =>
      cases other with
      | nil => simp at heq
      | cons first others =>
          obtain ⟨hmin, _, hrest⟩ := h
          obtain ⟨hmin', _, hrest'⟩ := hother
          simp only [List.map_cons, List.cons.injEq] at heq
          obtain ⟨hhead, htail⟩ := heq
          have hconf : conf = first := by
            cases conf
            cases first
            simp only [MctFilterConfiguration.unbounded, MctFilterConfiguration.mk.injEq] at hhead
            simp only [MctFilterConfiguration.mk.injEq]
            exact ⟨hhead.1, hmin.trans hmin'.symm, hhead.2.2⟩
          subst hconf
          rw [ih hrest hrest' htail]

/-- Two consecutive lists with the same upper bounds in any order are the same list. -/
theorem Consecutive.eq_of_perm {other : List MctFilterConfiguration}
    (h : Consecutive low configs) (hother : Consecutive low other)
    (hperm : (configs.map MctFilterConfiguration.unbounded).Perm
      (other.map MctFilterConfiguration.unbounded)) : configs = other := by
  apply h.eq_of_unbounded hother
  have hsorted : ∀ {l : List MctFilterConfiguration}, Consecutive low l →
      (l.map MctFilterConfiguration.unbounded).Pairwise fun a b => a.levelMax < b.levelMax := by
    intro l hl
    rw [List.pairwise_map]
    exact hl.pairwise
  apply hperm.eq_of_pairwise _ (hsorted h) (hsorted hother)
  intro a b _ _ hab hba
  omega

/-- A level from `low` on is in at most one configuration, and the first
configuration that reaches it is the one. -/
theorem Consecutive.select (h : Consecutive low configs) {level : Nat} (hlow : low ≤ level)
    {conf : MctFilterConfiguration} (hselect : selectLevel configs level = some conf) :
    conf ∈ configs ∧ ∀ other ∈ configs,
      other.levelMin ≤ level ∧ level ≤ other.levelMax ↔ other = conf := by
  induction configs generalizing low with
  | nil => simp [selectLevel] at hselect
  | cons first rest ih =>
      obtain ⟨hmin, hle, hrest⟩ := h
      have habove : ∀ {base : Nat} {l : List MctFilterConfiguration}, Consecutive base l →
          ∀ other ∈ l, base ≤ other.levelMin := by
        intro base l hl
        induction l generalizing base with
        | nil => simp
        | cons head tail ihtail =>
            obtain ⟨hhead, hheadle, htail⟩ := hl
            intro other hmem
            rcases List.mem_cons.mp hmem with rfl | hmem
            · exact hhead.ge
            · have hbase := ihtail htail other hmem
              omega
      by_cases hfirst : level ≤ first.levelMax
      · have hconf : conf = first := by
          simp only [selectLevel, List.find?_cons, hfirst, decide_true, Option.some.injEq]
            at hselect
          exact hselect.symm
        subst hconf
        refine ⟨List.mem_cons_self, ?_⟩
        intro other hmem
        rcases List.mem_cons.mp hmem with rfl | hbehind
        · exact ⟨fun _ => rfl, fun _ => ⟨by omega, hfirst⟩⟩
        · have hbase := habove hrest other hbehind
          constructor
          · rintro ⟨hlower, _⟩
            omega
          · rintro rfl
            have hself := hrest.le_levelMax hbehind
            omega
      · have hselect' : selectLevel rest level = some conf := by
          simpa only [selectLevel, List.find?_cons, hfirst, decide_false] using hselect
        obtain ⟨hmem, hunique⟩ := ih hrest (by omega) hselect'
        refine ⟨List.mem_cons_of_mem first hmem, ?_⟩
        intro other hother
        rcases List.mem_cons.mp hother with rfl | hother
        · constructor
          · rintro ⟨_, hupper⟩
            exact absurd hupper hfirst
          · rintro rfl
            have hself := hrest.le_levelMax hmem
            omega
        · exact hunique other hother

end Consecutive

section Insertion

variable {conf : MctFilterConfiguration}

/-- What an insertion into a list does: rejected because the level is taken and
nothing changed, or inserted with every bound adjusted. -/
def Inserted (low : Nat) (conf : MctFilterConfiguration) (configs : List MctFilterConfiguration)
    (result : MctReturnValue × List MctFilterConfiguration) : Prop :=
  (result = (.error, configs) ∧ conf.levelMax ∈ configs.map MctFilterConfiguration.levelMax) ∨
    (result.1 = .ok ∧ conf.levelMax ∉ configs.map MctFilterConfiguration.levelMax ∧
      Consecutive low result.2 ∧
      (result.2.map MctFilterConfiguration.unbounded).Perm
        (conf.unbounded :: configs.map MctFilterConfiguration.unbounded))

theorem checkFilterLevel_error (conf other : MctFilterConfiguration) :
    checkFilterLevel conf other = .error ↔ conf.levelMax = other.levelMax := by
  unfold checkFilterLevel
  split <;> simp_all

theorem insertBehind_inserted {low : Nat} {entry : MctFilterConfiguration}
    {rest : List MctFilterConfiguration} (h : Consecutive low (entry :: rest))
    (hbehind : entry.levelMax ≤ conf.levelMax) :
    Inserted low conf (entry :: rest) (insertBehind conf entry rest) := by
  induction rest generalizing low entry with
  | nil =>
      obtain ⟨hmin, hle, _⟩ := h
      simp only [insertBehind, checkFilterLevel_error]
      by_cases htaken : conf.levelMax = entry.levelMax
      · rw [if_pos htaken]
        exact .inl ⟨rfl, by simp [htaken]⟩
      · rw [if_neg htaken]
        refine .inr ⟨rfl, by simpa using htaken, ⟨hmin, hle, rfl, by simp only; omega, trivial⟩, ?_⟩
        exact List.Perm.swap _ _ _
  | cons next rest ih =>
      obtain ⟨hmin, hle, hnext⟩ := h
      simp only [insertBehind, checkFilterLevel_error]
      by_cases htaken : conf.levelMax = entry.levelMax
      · rw [if_pos htaken]
        exact .inl ⟨rfl, by simp [htaken]⟩
      · rw [if_neg htaken]
        by_cases hbefore : conf.levelMax < next.levelMax
        · -- between the entry and the next one
          rw [if_pos hbefore]
          obtain ⟨hnextmin, hnextle, hrest⟩ := hnext
          refine .inr ⟨rfl, ?_, ⟨hmin, hle, hnextmin, by simp only; omega, rfl,
            by simp only; omega, hrest⟩, ?_⟩
          · simp only [List.map_cons, List.mem_cons, List.mem_map, not_or]
            refine ⟨htaken, by omega, ?_⟩
            rintro ⟨other, hmem, hother⟩
            have habove := hrest.le_levelMax hmem
            omega
          · exact List.Perm.swap _ _ _
        · rw [if_neg hbefore]
          rcases ih hnext (by omega) with ⟨herror, htaken'⟩ | ⟨hok, hfree, hconsecutive, hperm⟩
          · left
            rw [herror]
            exact ⟨rfl, List.mem_cons_of_mem _ htaken'⟩
          · right
            refine ⟨hok, ?_, ⟨hmin, hle, ?_⟩, ?_⟩
            · rw [List.map_cons, List.mem_cons, not_or]
              exact ⟨htaken, hfree⟩
            · exact hconsecutive
            · rw [List.map_cons, List.map_cons]
              exact (hperm.cons _).trans (List.Perm.swap _ _ _)

theorem setupFilterSection_inserted {configs : List MctFilterConfiguration}
    (h : Consecutive mctFilterLevelMin configs) (tmp : MctFilterConfiguration) :
    Inserted mctFilterLevelMin tmp configs (setupFilterSection configs tmp) := by
  cases configs with
  | nil => exact .inr ⟨rfl, by simp, ⟨rfl, Nat.zero_le _, trivial⟩, List.Perm.refl _⟩
  | cons first rest =>
      simp only [setupFilterSection, insertFilter]
      by_cases hfront : tmp.levelMax < first.levelMax
      · obtain ⟨hmin, hle, hrest⟩ := h
        rw [if_pos hfront]
        refine .inr ⟨rfl, ?_, ⟨rfl, Nat.zero_le _, rfl, hfront, hrest⟩, List.Perm.refl _⟩
        simp only [List.map_cons, List.mem_cons, List.mem_map, not_or]
        refine ⟨by omega, ?_⟩
        rintro ⟨other, hmem, hother⟩
        have habove := hrest.le_levelMax hmem
        omega
      · rw [if_neg hfront]
        have hbehind : first.levelMax ≤ tmp.unbounded.levelMax := by
          simp only [MctFilterConfiguration.unbounded]
          omega
        exact insertBehind_inserted h hbehind

end Insertion

section Sequence

/-- The sections of a sequence that are not rejected. -/
def accepted : List MctFilterConfiguration → List MctFilterConfiguration →
    List MctFilterConfiguration
  | _, [] => []
  | configs, tmp :: tmps =>
      let (ret, next) := setupFilterSection configs tmp
      if ret = .ok then tmp :: accepted next tmps else accepted next tmps

/-- A sequence of insertions keeps the list consecutive, with the accepted
sections and no others. -/
theorem setupFilterSections_consecutive (tmps : List MctFilterConfiguration)
    {configs : List MctFilterConfiguration} (h : Consecutive mctFilterLevelMin configs) :
    Consecutive mctFilterLevelMin (runOps setupFilterSection configs tmps).2 ∧
      ((runOps setupFilterSection configs tmps).2.map MctFilterConfiguration.unbounded).Perm
        ((accepted configs tmps ++ configs).map MctFilterConfiguration.unbounded) := by
  induction tmps generalizing configs with
  | nil => exact ⟨h, List.Perm.refl _⟩
  | cons tmp tmps ih =>
      simp only [runOps_cons, accepted]
      rcases setupFilterSection_inserted h tmp with ⟨herror, _⟩ | ⟨hok, _, hnext, hperm⟩
      · rw [herror]
        exact ih h
      · obtain ⟨hfinal, hall⟩ := ih hnext
        refine ⟨hfinal, hall.trans ?_⟩
        rw [if_pos hok, List.map_append, List.map_append, List.map_cons]
        exact (hperm.append_left _).trans List.perm_middle

end Sequence

section Range

theorem closeLevelRange_spec {low : Nat} {configs : List MctFilterConfiguration}
    (h : Consecutive low configs) (hne : configs ≠ [])
    (hrange : ∀ conf ∈ configs, conf.levelMax ≤ mctFilterLevelMax) :
    Consecutive low (closeLevelRange configs) ∧
      (closeLevelRange configs).getLast?.map MctFilterConfiguration.levelMax =
        some mctFilterLevelMax ∧
      ∀ level ≤ mctFilterLevelMax, (selectLevel (closeLevelRange configs) level).isSome := by
  induction configs generalizing low with
  | nil => exact absurd rfl hne
  | cons conf rest ih =>
      obtain ⟨hmin, hle, hrest⟩ := h
      have hconf := hrange conf List.mem_cons_self
      cases rest with
      | nil =>
          simp only [closeLevelRange]
          by_cases hopen : conf.levelMax < mctFilterLevelMax
          · rw [if_pos hopen]
            refine ⟨⟨hmin, by simp only; omega, trivial⟩, rfl, ?_⟩
            intro level hlevel
            simp [selectLevel, hlevel]
          · rw [if_neg hopen]
            have hmax : conf.levelMax = mctFilterLevelMax := by omega
            refine ⟨⟨hmin, hle, trivial⟩, by simp [hmax], ?_⟩
            intro level hlevel
            simp [selectLevel, hmax, hlevel]
      | cons next rest =>
          obtain ⟨hconsecutive, hlast, hcover⟩ := ih hrest (by simp) fun other hmem =>
            hrange other (List.mem_cons_of_mem conf hmem)
          refine ⟨⟨hmin, hle, hconsecutive⟩, ?_, ?_⟩
          · have hcons : closeLevelRange (next :: rest) ≠ [] := by
              intro hempty
              rw [hempty] at hlast
              simp at hlast
            simp only [closeLevelRange]
            rw [List.getLast?_cons, ← hlast]
            cases hclose : closeLevelRange (next :: rest) with
            | nil => exact absurd hclose hcons
            | cons head tail => simp [List.getLast?_cons]
          · intro level hlevel
            simp only [closeLevelRange, selectLevel, List.find?_cons]
            split
            · rfl
            · exact hcover level hlevel

/-- Completing the list raises the upper bound of its last entry. -/
theorem closeLevelRange_eq {configs : List MctFilterConfiguration}
    (hrange : ∀ conf ∈ configs, conf.levelMax ≤ mctFilterLevelMax) {last : MctFilterConfiguration}
    (hlast : configs.getLast? = some last) :
    closeLevelRange configs =
      configs.dropLast ++ [{ last with levelMax := mctFilterLevelMax }] := by
  induction configs with
  | nil => cases hlast
  | cons conf rest ih =>
      cases rest with
      | nil =>
          have hconf : conf = last := Option.some.inj hlast
          have hle := hrange conf List.mem_cons_self
          subst hconf
          simp only [closeLevelRange, List.dropLast_singleton, List.nil_append]
          split
          · rfl
          · have hmax : conf.levelMax = mctFilterLevelMax := by omega
            rw [← hmax]
      | cons next rest =>
          rw [List.getLast?_cons_cons] at hlast
          rw [closeLevelRange, ih (fun other hmem => hrange other (List.mem_cons_of_mem conf hmem))
            hlast]
          rfl

theorem checkFilterLevelRange_spec {configs : List MctFilterConfiguration}
    (h : Consecutive mctFilterLevelMin configs)
    (hrange : ∀ conf ∈ configs, conf.levelMax ≤ mctFilterLevelMax) :
    Consecutive mctFilterLevelMin (checkFilterLevelRange configs) ∧
      (checkFilterLevelRange configs).getLast?.map MctFilterConfiguration.levelMax =
        some mctFilterLevelMax ∧
      ∀ level ≤ mctFilterLevelMax, (selectLevel (checkFilterLevelRange configs) level).isSome := by
  unfold checkFilterLevelRange
  split
  · refine ⟨⟨rfl, Nat.zero_le _, trivial⟩, rfl, ?_⟩
    intro level hlevel
    simp [selectLevel, addClosedFilter, hlevel]
  · next hne => exact closeLevelRange_spec h hne hrange

end Range

/-- However sections are inserted, the list holds the accepted ones and no others, the
completed list partitions the level range, a level selects the configuration it lies in, and
the list depends on the accepted sections only. -/
theorem filter_levels_partition (tmps : List MctFilterConfiguration)
    (hrange : ∀ tmp ∈ tmps, tmp.levelMax ≤ mctFilterLevelMax) :
    (∀ before tmp after, tmps = before ++ tmp :: after →
      let configs := (runOps setupFilterSection [] before).2
      ((setupFilterSection configs tmp).1 ≠ .ok ↔
        tmp.levelMax ∈ configs.map MctFilterConfiguration.levelMax) ∧
      ((setupFilterSection configs tmp).1 ≠ .ok →
        (setupFilterSection configs tmp).2 = configs)) ∧
    let inserted := (runOps setupFilterSection [] tmps).2
    let configs := checkFilterLevelRange inserted
    (inserted.map MctFilterConfiguration.unbounded).Perm
        ((accepted [] tmps).map MctFilterConfiguration.unbounded) ∧
      (∀ last, inserted.getLast? = some last →
        configs = inserted.dropLast ++ [{ last with levelMax := mctFilterLevelMax }]) ∧
      configs.Pairwise (fun a b => a.levelMax < b.levelMax) ∧
      Consecutive mctFilterLevelMin configs ∧
      configs.getLast?.map MctFilterConfiguration.levelMax = some mctFilterLevelMax ∧
      (∀ level ≤ mctFilterLevelMax, ∃ conf ∈ configs,
        (∀ other ∈ configs, other.levelMin ≤ level ∧ level ≤ other.levelMax ↔ other = conf) ∧
        setDefaultLevel configs level = (.ok, some conf) ∧
        ∀ sockets (d : MctDaemonLocal), d.pFilter.configs = configs →
          (d.filterChangeFilterLevel sockets level).2.pFilter.current = conf) ∧
      ∀ others, (accepted [] others).Perm (accepted [] tmps) →
        checkFilterLevelRange (runOps setupFilterSection [] others).2 = configs := by
  have hrun : ∀ tmps : List MctFilterConfiguration,
      Consecutive mctFilterLevelMin (runOps setupFilterSection [] tmps).2 ∧
        ((runOps setupFilterSection [] tmps).2.map MctFilterConfiguration.unbounded).Perm
          ((accepted [] tmps).map MctFilterConfiguration.unbounded) := by
    intro tmps
    have h := @setupFilterSections_consecutive tmps [] trivial
    rwa [List.append_nil] at h
  have hsub : ∀ {configs tmps : List MctFilterConfiguration}, accepted configs tmps ⊆ tmps := by
    intro configs tmps
    induction tmps generalizing configs with
    | nil => simp [accepted]
    | cons tmp tmps ih =>
        simp only [accepted]
        split
        · exact List.cons_subset_cons tmp ih
        · exact List.subset_cons_of_subset tmp ih
  have hbounds : ∀ conf ∈ (runOps setupFilterSection [] tmps).2,
      conf.levelMax ≤ mctFilterLevelMax := by
    intro conf hmem
    have hmem' := (hrun tmps).2.mem_iff.mp (List.mem_map_of_mem hmem)
    obtain ⟨tmp, htmp, heq⟩ := List.mem_map.mp hmem'
    have hlevel := congrArg MctFilterConfiguration.levelMax heq
    simp only [MctFilterConfiguration.unbounded] at hlevel
    rw [← hlevel]
    exact hrange tmp (hsub htmp)
  obtain ⟨hconsecutive, hlast, hcover⟩ := checkFilterLevelRange_spec (hrun tmps).1 hbounds
  refine ⟨?_, (hrun tmps).2, ?_, hconsecutive.pairwise, hconsecutive, hlast, ?_, ?_⟩
  · rintro before tmp after rfl
    simp only
    rcases setupFilterSection_inserted (hrun before).1 tmp with ⟨herror, htaken⟩ | ⟨hok, hfree, _⟩
    · rw [herror]
      exact ⟨⟨fun _ => htaken, fun _ => by simp⟩, fun _ => rfl⟩
    · exact ⟨⟨fun hnot => absurd hok hnot, fun htaken => absurd htaken hfree⟩,
        fun hnot => absurd hok hnot⟩
  · intro last hlastInserted
    have hne : (runOps setupFilterSection [] tmps).2 ≠ [] := by
      intro hnil
      rw [hnil] at hlastInserted
      cases hlastInserted
    rw [checkFilterLevelRange, if_neg hne]
    exact closeLevelRange_eq hbounds hlastInserted
  · intro level hlevel
    obtain ⟨conf, hselect⟩ := Option.isSome_iff_exists.mp (hcover level hlevel)
    obtain ⟨hmem, hunique⟩ := hconsecutive.select (Nat.zero_le level) hselect
    refine ⟨conf, hmem, hunique, ?_, ?_⟩
    · rw [setDefaultLevel, hselect]
    · intro sockets d hconfigs
      rw [MctDaemonLocal.filterChangeFilterLevel_current hlevel (hconfigs ▸ hselect)]
  · intro others hperm
    have hsame :
        (runOps setupFilterSection [] others).2 = (runOps setupFilterSection [] tmps).2 := by
      apply (hrun others).1.eq_of_perm (hrun tmps).1
      exact (hrun others).2.trans ((hperm.map _).trans (hrun tmps).2.symm)
    rw [hsame]

/-- Three sections, the third for a level that is taken. -/
theorem filter_levels_partition_three :
    let section50 : MctFilterConfiguration := ⟨['a'], 0, 50, 0, 0, [], .inr rfl⟩
    let section20 : MctFilterConfiguration := ⟨['b'], 0, 20, 0, 0, [], .inr rfl⟩
    let section20' : MctFilterConfiguration := ⟨['c'], 0, 20, 0, 0, [], .inr rfl⟩
    let configs := checkFilterLevelRange
      (runOps setupFilterSection [] [section50, section20, section20']).2
    configs.map (fun conf => (conf.levelMin, conf.levelMax)) = [(0, 20), (21, 100)] ∧
      Consecutive mctFilterLevelMin configs := by
  intro section50 section20 section20' configs
  have hall := filter_levels_partition [section50, section20, section20'] (by decide)
  exact ⟨by decide, hall.2.2.2.2.1⟩

end MctDaemon.Daemon
