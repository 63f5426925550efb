import Sluicio.Integrations.Narrowed
import Sluicio.Integrations.Sources

/-!
# What a read beside sources selects

A read of an integration's metrics or logs asks for its members, their groups pinned to them,
and for the services of its sources, each with its own conditions.  Of a service that is no
member it selects the rows of a source.  The pin is asked of the row and of an anchor, and not
of the rows below an anchor: where a matcher selects what is below, the rows of a source's
services there are selected without its conditions.
-/

namespace Sluicio.Integrations

open Store (LogAttrFilter Row Span Engine EnvironmentConfig isSourceGroup memberGroups
  widened attrCond attrGroupsClause NothingToMatch)

variable {F : Type}

/-- The pattern of `anyOf` matches the names it is made of, and no others. -/
def NamesExactly (engine : Engine F) : Prop :=
  ∀ svcs, svcs ≠ [] → ∀ name, engine.regex name (anyOf svcs).value ↔ name ∈ svcs

/-- The services and the groups that a read asks for. -/
abbrev Scope := List String × List (List LogAttrFilter)

/-- A read of these services and groups returns the row. -/
def Selected (cfg : EnvironmentConfig) (engine : Engine F) (traces : List Span)
    (start stop : Int) (scope : Scope) (row : Row) : Prop :=
  row.serviceName ∈ scope.1 ∧
    matched engine traces row (attrGroupsClause cfg engine row.table scope.2 start stop)

/-- The members and the sources, for a request that reads the environments `envs`. -/
def sliceScope (members : List String) (groups : List (List LogAttrFilter))
    (sources : List ResolvedSource) (signal : SourceSignal) (envs : List String) : Scope :=
  ((withSources members groups sources signal).1,
    withEnvironments (withSources members groups sources signal).2 envs)

/-! ## One group, narrowed -/

def narrowedGroup (envs : List String) (g : List LogAttrFilter) : List LogAttrFilter :=
  if envs = [] then g else g ++ [addedFilter envs g]

theorem withEnvironments_eq_map {groups : List (List LogAttrFilter)} (hgroups : groups ≠ [])
    (envs : List String) : withEnvironments groups envs = groups.map (narrowedGroup envs) := by
  by_cases henvs : envs = []
  · subst henvs
    have hid : narrowedGroup [] = id := by
      funext g
      exact if_pos rfl
    rw [hid, List.map_id]
    rfl
  · rw [withEnvironments_eq henvs, groupsToNarrow, if_neg hgroups]
    refine List.map_congr_left fun g _ => ?_
    exact (if_neg henvs).symm

theorem isSourceGroup_narrowedGroup (envs : List String) (g : List LogAttrFilter) :
    isSourceGroup (narrowedGroup envs g) = isSourceGroup g := by
  unfold narrowedGroup
  split
  · rfl
  · exact isSourceGroup_narrowed envs g

theorem any_descendants_narrowedGroup (envs : List String) (g : List LogAttrFilter) :
    (narrowedGroup envs g).any LogAttrFilter.descendants = g.any LogAttrFilter.descendants := by
  unfold narrowedGroup
  split
  · rfl
  · exact any_descendants_narrowed envs g

section Conditions

variable (cfg : EnvironmentConfig) (engine : Engine F)

def InEnvironments (envs : List String) (row : Row) : Prop :=
  envs ≠ [] → (attrCond cfg engine row.table (addedFilter envs [])).eval engine row = .yes

variable {cfg engine} {envs : List String} {row : Row}

theorem meets_append (g g' : List LogAttrFilter) :
    Meets cfg engine (g ++ g') row ↔ Meets cfg engine g row ∧ Meets cfg engine g' row := by
  unfold Meets
  simp only [List.mem_append, or_imp, forall_and]

theorem meets_singleton (f : LogAttrFilter) :
    Meets cfg engine [f] row ↔ (attrCond cfg engine row.table f).eval engine row = .yes := by
  unfold Meets
  simp only [List.mem_singleton, forall_eq]

theorem meets_narrowedGroup (g : List LogAttrFilter) :
    Meets cfg engine (narrowedGroup envs g) row ↔
      Meets cfg engine g row ∧ InEnvironments cfg engine envs row := by
  unfold narrowedGroup InEnvironments
  by_cases henvs : envs = []
  · rw [if_pos henvs]
    simp [henvs]
  -- the tags of the group do not enter the condition
  have hadded : attrCond cfg engine row.table (addedFilter envs g) =
      attrCond cfg engine row.table (addedFilter envs []) := by
    cases g <;> rfl
  rw [if_neg henvs, meets_append, meets_singleton, hadded]
  simp [henvs]

theorem anyOf_yes (hnames : NamesExactly engine) {svcs : List String} (hsvcs : svcs ≠ [])
    {f : LogAttrFilter} (hkey : f.key = (anyOf svcs).key) (hop : f.op = (anyOf svcs).op)
    (hvalue : f.value = (anyOf svcs).value) :
    (attrCond cfg engine row.table f).eval engine row = .yes ↔ row.serviceName ∈ svcs := by
  have hexpr : Store.attrExpr cfg row.table "service.name" = .column .serviceName := by
    unfold Store.attrExpr
    rw [if_neg (by decide), if_neg (fun h => absurd h.1 (by decide)),
      if_neg (fun h => absurd h.1 (by decide)), if_pos (by decide)]
  have hcond : attrCond cfg engine row.table f =
      .text .regex (.column .serviceName) (.text (anyOf svcs).value) := by
    unfold attrCond
    dsimp only
    rw [hop, hkey, hvalue]
    show Store.Cond.text .regex (Store.attrExpr cfg row.table "service.name") _ = _
    rw [hexpr]
  rw [hcond, ← hnames svcs hsvcs row.serviceName]
  show Store.Truth.ofBool (engine.regex row.serviceName (anyOf svcs).value) = .yes ↔ _
  rw [Store.Truth.ofBool_eq_yes]

theorem meets_pinned (hnames : NamesExactly engine) {members : List String}
    (hmembers : members ≠ []) (g : List LogAttrFilter) :
    Meets cfg engine (pinned members g) row ↔
      Meets cfg engine g row ∧ row.serviceName ∈ members := by
  cases g with
  | nil =>
    show Meets cfg engine [anyOf members] row ↔ _
    rw [meets_singleton, anyOf_yes hnames hmembers rfl rfl rfl]
    exact (and_iff_right fun f hf => absurd hf List.not_mem_nil).symm
  | cons f fs =>
    unfold pinned
    rw [meets_append, meets_singleton]
    exact and_congr_right fun _ => anyOf_yes hnames hmembers rfl rfl rfl

theorem mem_services_of_meets (hnames : NamesExactly engine) {signal : SourceSignal}
    {source : ResolvedSource} (hservices : source.services ≠ [])
    (h : Meets cfg engine (sourceGroup signal source) row) : row.serviceName ∈ source.services := by
  let first : LogAttrFilter := { anyOf source.services with source := true }
  have hfirst : first ∈ sourceGroup signal source :=
    List.mem_map.2 ⟨anyOf source.services, List.mem_cons_self, rfl⟩
  exact (anyOf_yes hnames hservices rfl rfl rfl).1 (h first hfirst)

end Conditions

/-! ## The groups beside sources -/

section Groups

variable {members : List String} {groups : List (List LogAttrFilter)}
  {sources : List ResolvedSource} {signal : SourceSignal} {envs : List String}

theorem mem_withSources {name : String} :
    name ∈ (withSources members groups sources signal).1 ↔
      name ∈ members ∨ ∃ source ∈ sources, name ∈ source.services := by
  unfold withSources
  split
  · next hnone =>
    simp [hnone]
  · simp only [List.mem_append, List.mem_eraseDups, List.mem_filter, List.mem_flatMap,
      decide_eq_true_eq]
    constructor
    · rintro (hmember | ⟨hsource, _⟩)
      · exact .inl hmember
      · exact .inr hsource
    · rintro (hmember | hsource)
      · exact .inl hmember
      · by_cases hmember : name ∈ members
        · exact .inl hmember
        · exact .inr ⟨hsource, hmember⟩

theorem isSourceGroup_pinned (g : List LogAttrFilter) :
    isSourceGroup (pinned members g) = isSourceGroup g := by
  cases g with
  | nil => rfl
  | cons f fs => simp [pinned, isSourceGroup, anyOf]

theorem any_descendants_pinned (g : List LogAttrFilter) :
    (pinned members g).any LogAttrFilter.descendants = g.any LogAttrFilter.descendants := by
  cases g with
  | nil => rfl
  | cons f fs => simp [pinned, anyOf]

theorem isSourceGroup_sourceGroup (source : ResolvedSource) :
    isSourceGroup (sourceGroup signal source) :=
  List.any_eq_true.2 ⟨{ anyOf source.services with source := true },
    List.mem_map.2 ⟨anyOf source.services, List.mem_cons_self, rfl⟩, rfl⟩

variable {g : List LogAttrFilter}

theorem mem_pinnedGroups (hg : g ∈ pinnedGroups members groups) :
    members ≠ [] ∧
      (groups = [] ∧ g = pinned members [] ∨ ∃ g₀ ∈ groups, g = pinned members g₀) := by
  unfold pinnedGroups at hg
  split at hg
  · cases hg
  · next hmembers =>
    refine ⟨hmembers, ?_⟩
    split at hg
    · next hnone => exact .inl ⟨hnone, List.mem_singleton.1 hg⟩
    · obtain ⟨g₀, hg₀, rfl⟩ := List.mem_map.1 hg
      exact .inr ⟨g₀, hg₀, rfl⟩

theorem not_isSourceGroup_of_mem_pinnedGroups (hgroups : ∀ g ∈ groups, ¬ isSourceGroup g)
    (hg : g ∈ pinnedGroups members groups) : isSourceGroup g = false := by
  obtain ⟨_, ⟨_, rfl⟩ | ⟨g₀, hg₀, rfl⟩⟩ := mem_pinnedGroups hg
  · rfl
  · rw [isSourceGroup_pinned]
    simpa using hgroups g₀ hg₀

theorem sliceScope_groups (hsources : sources ≠ []) :
    (sliceScope members groups sources signal envs).2 =
      (pinnedGroups members groups ++ sources.map (sourceGroup signal)).map
        (narrowedGroup envs) := by
  have hne : pinnedGroups members groups ++ sources.map (sourceGroup signal) ≠ [] := by
    simp [hsources]
  unfold sliceScope withSources
  rw [if_neg hsources]
  exact withEnvironments_eq_map hne envs

theorem sourceGroups_sliceScope (hgroups : ∀ g ∈ groups, ¬ isSourceGroup g)
    (hsources : sources ≠ []) :
    g ∈ (sliceScope members groups sources signal envs).2.filter isSourceGroup ↔
      ∃ source ∈ sources, g = narrowedGroup envs (sourceGroup signal source) := by
  rw [sliceScope_groups hsources, List.mem_filter, List.mem_map]
  constructor
  · rintro ⟨⟨g₀, hg₀, rfl⟩, hsource⟩
    rw [isSourceGroup_narrowedGroup] at hsource
    rcases List.mem_append.1 hg₀ with hpinned | hof
    · rw [not_isSourceGroup_of_mem_pinnedGroups hgroups hpinned] at hsource
      cases hsource
    · obtain ⟨source, hmem, rfl⟩ := List.mem_map.1 hof
      exact ⟨source, hmem, rfl⟩
  · rintro ⟨source, hmem, rfl⟩
    refine ⟨⟨_, List.mem_append_right _ (List.mem_map_of_mem hmem), rfl⟩, ?_⟩
    rw [isSourceGroup_narrowedGroup]
    exact isSourceGroup_sourceGroup source

theorem memberGroups_sliceScope (hgroups : ∀ g ∈ groups, ¬ isSourceGroup g)
    (hsources : sources ≠ []) :
    memberGroups (sliceScope members groups sources signal envs).2 =
      memberGroups ((pinnedGroups members groups).map (narrowedGroup envs)) := by
  have hpinned : ∀ g ∈ (pinnedGroups members groups).map (narrowedGroup envs),
      (!isSourceGroup g) := by
    intro g hg
    obtain ⟨g₀, hg₀, rfl⟩ := List.mem_map.1 hg
    rw [isSourceGroup_narrowedGroup, not_isSourceGroup_of_mem_pinnedGroups hgroups hg₀]
    rfl
  have hothers : ∀ g ∈ (sources.map (sourceGroup signal)).map (narrowedGroup envs),
      ¬ (!isSourceGroup g) := by
    intro g hg
    rw [List.map_map] at hg
    obtain ⟨source, _, rfl⟩ := List.mem_map.1 hg
    rw [Function.comp_apply, isSourceGroup_narrowedGroup, isSourceGroup_sourceGroup]
    decide
  unfold memberGroups
  rw [sliceScope_groups hsources, List.map_append, List.filter_append,
    List.filter_eq_nil_iff.2 hothers, List.append_nil]

end Groups

theorem mem_resolveSources {systemMembers : UUID → List String} {stored : List Source}
    {r : ResolvedSource} : r ∈ resolveSources systemMembers signal stored ↔
      ∃ s ∈ stored, s.signal = signal ∧ s.origin.services systemMembers ≠ [] ∧
        r = ⟨s.origin.services systemMembers, s.conditions, s.metricNames⟩ := by
  simp only [resolveSources, List.mem_filter, List.mem_map, decide_eq_true_eq]
  constructor
  · rintro ⟨⟨s, ⟨hs, hsignal⟩, rfl⟩, hne⟩
    exact ⟨s, hs, hsignal, hne, rfl⟩
  · rintro ⟨s, hs, hsignal, hne, rfl⟩
    exact ⟨⟨s, ⟨hs, hsignal⟩, rfl⟩, hne⟩

theorem includeDescendants_of_attrGroups {matchers : List GroupedMatcher} {mode : RuleMatch}
    (h : ∃ g ∈ attrGroupsFromMatchers matchers mode,
      g.any LogAttrFilter.descendants) : ∃ m ∈ matchers, m.includeDescendants := by
  obtain ⟨g, hg, hdescendants⟩ := h
  obtain ⟨n, _, rfl⟩ := List.mem_map.1 hg
  obtain ⟨f, hf, hflag⟩ := List.any_eq_true.1 hdescendants
  obtain ⟨m, hm, rfl⟩ := List.mem_map.1 hf
  exact ⟨m, (List.mem_filter.1 hm).1, hflag⟩

/-! ## What a read selects -/

section Selected

variable {cfg : EnvironmentConfig} {engine : Engine F} {traces : List Span} {start stop : Int}
  {members : List String} {groups : List (List LogAttrFilter)}
  {sources : List ResolvedSource} {signal : SourceSignal} {envs : List String} {row : Row}

/-- The members' predicate beside sources. -/
def ByPinned (cfg : EnvironmentConfig) (engine : Engine F) (traces : List Span)
    (members : List String) (groups : List (List LogAttrFilter)) (envs : List String)
    (start stop : Int) (row : Row) : Prop :=
  ByMembers cfg engine traces
    (memberGroups ((pinnedGroups members groups).map (narrowedGroup envs))) start stop row

def BySource (cfg : EnvironmentConfig) (engine : Engine F) (sources : List ResolvedSource)
    (signal : SourceSignal) (envs : List String) (row : Row) : Prop :=
  ∃ source ∈ sources, Meets cfg engine (sourceGroup signal source) row ∧
    InEnvironments cfg engine envs row

theorem selected_iff (hgroups : ∀ g ∈ groups, ¬ isSourceGroup g) (hsources : sources ≠ []) :
    Selected cfg engine traces start stop (sliceScope members groups sources signal envs) row ↔
      (row.serviceName ∈ members ∨ ∃ source ∈ sources, row.serviceName ∈ source.services) ∧
        (ByPinned cfg engine traces members groups envs start stop row ∨
          BySource cfg engine sources signal envs row) := by
  have hsomething : ¬ NothingToMatch (sliceScope members groups sources signal envs).2 := by
    intro hnothing
    obtain ⟨source, hmem⟩ := List.exists_mem_of_ne_nil sources hsources
    have hgroup : narrowedGroup envs (sourceGroup signal source) ∈
        (sliceScope members groups sources signal envs).2.filter isSourceGroup :=
      (sourceGroups_sliceScope hgroups hsources).2 ⟨source, hmem, rfl⟩
    have hsource := (List.mem_filter.1 hgroup).2
    rw [hnothing _ (List.mem_filter.1 hgroup).1] at hsource
    cases hsource
  unfold Selected
  rw [matched_iff, or_iff_right hsomething, memberGroups_sliceScope hgroups hsources]
  refine and_congr mem_withSources (or_congr_right ?_)
  constructor
  · rintro ⟨g, hg, hmeets⟩
    obtain ⟨source, hmem, rfl⟩ := (sourceGroups_sliceScope hgroups hsources).1 hg
    exact ⟨source, hmem, (meets_narrowedGroup _).1 hmeets⟩
  · rintro ⟨source, hmem, hmeets⟩
    exact ⟨_, (sourceGroups_sliceScope hgroups hsources).2 ⟨source, hmem, rfl⟩,
      (meets_narrowedGroup _).2 hmeets⟩

theorem selected_services (h : Selected cfg engine traces start stop
    (sliceScope members groups sources signal envs) row) :
    row.serviceName ∈ members ∨ ∃ source ∈ sources, row.serviceName ∈ source.services :=
  mem_withSources.1 h.1

theorem below_of_byPinned (hnames : NamesExactly engine)
    (h : ByPinned cfg engine traces members groups envs start stop row)
    (hnot : row.serviceName ∉ members) :
    row.table ≠ .metricAttributes ∧ ∃ g ∈ groups, g.any LogAttrFilter.descendants := by
  obtain ⟨x, hx, hpart⟩ := h.1
  have hmem := (Store.memberGroups_fst_ne hx).2.2
  obtain ⟨g, hg, heq⟩ := List.mem_map.1 hmem
  obtain ⟨hmembers, hform⟩ := mem_pinnedGroups hg
  rcases boundPart_cases hpart with ⟨hmeets, _⟩ | ⟨hwidened, _⟩
  · rw [← heq, meets_narrowedGroup] at hmeets
    rcases hform with ⟨_, rfl⟩ | ⟨g₀, _, rfl⟩
    · exact absurd ((meets_pinned hnames hmembers []).1 hmeets.1).2 hnot
    · exact absurd ((meets_pinned hnames hmembers g₀).1 hmeets.1).2 hnot
  · have hbelow : x.1.any LogAttrFilter.descendants ∧ row.table ≠ .metricAttributes := by
      unfold widened at hwidened
      simp only [Bool.not_eq_true', Bool.or_eq_false_iff, Bool.not_eq_false',
        decide_eq_false_iff_not] at hwidened
      exact ⟨hwidened.1.1.1, hwidened.1.1.2⟩
    refine ⟨hbelow.2, ?_⟩
    rw [← heq, any_descendants_narrowedGroup] at hbelow
    rcases hform with ⟨_, rfl⟩ | ⟨g₀, hg₀, rfl⟩
    · cases hbelow.1
    · rw [any_descendants_pinned] at hbelow
      exact ⟨g₀, hg₀, hbelow.1⟩

theorem selected_of_bySource (hnames : NamesExactly engine)
    (hgroups : ∀ g ∈ groups, ¬ isSourceGroup g) (hservices : ∀ r ∈ sources, r.services ≠ [])
    (h : BySource cfg engine sources signal envs row) :
    Selected cfg engine traces start stop (sliceScope members groups sources signal envs) row := by
  obtain ⟨source, hmem, hmeets, _⟩ := id h
  have hname := mem_services_of_meets hnames (hservices source hmem) hmeets
  rw [selected_iff hgroups (List.ne_nil_of_mem hmem)]
  exact ⟨.inr ⟨source, hmem, hname⟩, .inr h⟩

theorem byMembers_single {g : List LogAttrFilter} (hne : g ≠ [])
    (hsource : isSourceGroup g = false) (hplain : g.any LogAttrFilter.descendants = false) :
    ByMembers cfg engine traces (memberGroups [g]) start stop row ↔ Meets cfg engine g row := by
  have hgroups : memberGroups [g] = [(g, 0)] := by
    simp [memberGroups, hsource, hne]
  have hwidened : widened row.table start stop g = false := by
    simp [widened, hplain]
  rw [hgroups]
  constructor
  · rintro ⟨⟨x, hx, hpart⟩, _⟩
    rw [List.mem_singleton.1 hx] at hpart
    rcases boundPart_cases hpart with ⟨hmeets, _⟩ | ⟨hlookup, _⟩
    · exact hmeets
    · rw [hwidened] at hlookup
      cases hlookup
  · intro hmeets
    refine ⟨⟨(g, 0), List.mem_singleton_self _, boundPart_of_meets hmeets ?_⟩, fun hgated => ?_⟩
    · rintro ⟨hlookup, _⟩
      rw [hwidened] at hlookup
      cases hlookup
    · -- one member is not required together with others
      have hone : (Store.memberOrder [(g, 0)]).length = 1 := rfl
      simp [Store.gated, hone] at hgated

theorem inEnvironments_nil (row : Row) : InEnvironments cfg engine [] row :=
  fun hne => absurd rfl hne

theorem selected_noSources_iff (hmember : row.serviceName ∈ members) :
    Selected cfg engine traces start stop (sliceScope members [] [] signal envs) row ↔
      InEnvironments cfg engine envs row := by
  have hscope : sliceScope members [] [] signal envs = (members, withEnvironments [] envs) := rfl
  unfold Selected
  rw [hscope, and_iff_right hmember, matched_iff]
  by_cases henvs : envs = []
  · subst henvs
    exact iff_of_true (.inl fun g hg => absurd hg List.not_mem_nil) (inEnvironments_nil row)
  have hgroups : withEnvironments [] envs = [[addedFilter envs []]] :=
    withEnvironments_eq henvs []
  have hsomething : ¬ NothingToMatch [[addedFilter envs []]] := fun hnothing =>
    absurd (hnothing _ (List.mem_singleton_self _)) (List.cons_ne_nil _ _)
  have hnosource : [[addedFilter envs []]].filter isSourceGroup = [] := rfl
  rw [hgroups, or_iff_right hsomething, hnosource,
    byMembers_single (List.cons_ne_nil _ _) rfl rfl, meets_singleton]
  unfold InEnvironments
  simp [henvs]

theorem selected_noGroups_iff (hnames : NamesExactly engine) (hmember : row.serviceName ∈ members) :
    Selected cfg engine traces start stop (sliceScope members [] sources signal envs) row ↔
      InEnvironments cfg engine envs row := by
  have hmembers : members ≠ [] := List.ne_nil_of_mem hmember
  by_cases hsources : sources = []
  · subst hsources
    exact selected_noSources_iff hmember
  have hpinned : ByPinned cfg engine traces members [] envs start stop row ↔
      InEnvironments cfg engine envs row := by
    have hgroups : pinnedGroups members [] = [pinned members []] := by
      unfold pinnedGroups
      rw [if_neg hmembers, if_pos rfl]
      rfl
    have hne : narrowedGroup envs (pinned members []) ≠ [] := by
      unfold narrowedGroup
      split <;> simp [pinned]
    unfold ByPinned
    rw [hgroups, List.map_singleton, byMembers_single hne, meets_narrowedGroup,
      meets_pinned hnames hmembers]
    · exact and_iff_right ⟨fun f hf => absurd hf List.not_mem_nil, hmember⟩
    · rw [isSourceGroup_narrowedGroup, isSourceGroup_pinned]
      rfl
    · rw [any_descendants_narrowedGroup, any_descendants_pinned]
      rfl
  rw [selected_iff (fun g hg => absurd hg List.not_mem_nil) hsources, hpinned]
  constructor
  · rintro ⟨_, hin | ⟨_, _, _, hin⟩⟩
    · exact hin
    · exact hin
  · exact fun hin => ⟨.inl hmember, .inl hin⟩

/-- A slice that was changed has a row of no member, and of no new source, only as it had it: of
the members' part only what is below an anchor counts. -/
theorem selected_of_changed {members' : List String} {groups' : List (List LogAttrFilter)}
    {sources' : List ResolvedSource} (hnames : NamesExactly engine)
    (hgroups : ∀ g ∈ groups, ¬ isSourceGroup g) (hgroups' : ∀ g ∈ groups', ¬ isSourceGroup g)
    (hservices : ∀ r ∈ sources, r.services ≠ []) (hservices' : ∀ r ∈ sources', r.services ≠ [])
    (hmember : row.serviceName ∈ members' → members' = members ∧ groups' = [] ∧ groups = [])
    (hsources : ∀ r ∈ sources', row.serviceName ∈ r.services → r ∈ sources)
    (hbelow : (∃ r ∈ sources', row.serviceName ∈ r.services) →
      row.table ≠ .metricAttributes → (∃ g ∈ groups', g.any LogAttrFilter.descendants) →
      members' = members ∧ groups' = groups) (h : Selected cfg engine traces start stop
      (sliceScope members' groups' sources' signal envs) row) :
    Selected cfg engine traces start stop (sliceScope members groups sources signal envs) row := by
  by_cases hin : row.serviceName ∈ members'
  · obtain ⟨rfl, rfl, rfl⟩ := hmember hin
    rw [selected_noGroups_iff hnames hin] at h ⊢
    exact h
  have hsource : ∃ r ∈ sources', row.serviceName ∈ r.services :=
    (selected_services h).resolve_left hin
  obtain ⟨source, hmem, hname⟩ := id hsource
  rw [selected_iff hgroups' (List.ne_nil_of_mem hmem)] at h
  rcases h.2 with hpinned | ⟨source', hmem', hmeets, henvs⟩
  · obtain ⟨htable, hdescendants⟩ := below_of_byPinned hnames hpinned hin
    obtain ⟨rfl, rfl⟩ := hbelow hsource htable hdescendants
    have hold : source ∈ sources := hsources source hmem hname
    rw [selected_iff hgroups (List.ne_nil_of_mem hold)]
    exact ⟨.inr ⟨source, hold, hname⟩, .inl hpinned⟩
  · have hname' := mem_services_of_meets hnames (hservices' source' hmem') hmeets
    exact selected_of_bySource hnames hgroups hservices
      ⟨source', hsources source' hmem' hname', hmeets, henvs⟩

end Selected

/-- The alternatives of a pattern in which every other special character is escaped; `cur` is
the one being read. -/
def alternatives : List Char → List Char → List (List Char)
  | cur, [] => [cur]
  | cur, '|' :: cs => cur :: alternatives [] cs
  | cur, '\\' :: c :: cs => alternatives (cur ++ [c]) cs
  | cur, c :: cs => alternatives (cur ++ [c]) cs

/-- The characters that `quoteMeta` escapes. -/
def isMeta (c : Char) : Bool := c ∈ "\\.+*?()|[]\x7b\x7d^$".toList

theorem toList_quoteMeta (s : String) :
    (quoteMeta s).toList = s.toList.flatMap fun c => if isMeta c then ['\\', c] else [c] := by
  unfold quoteMeta isMeta
  rw [String.toList_ofList]
  simp only [decide_eq_true_eq]

theorem alternatives_quoted (name cur rest : List Char) :
    alternatives cur ((name.flatMap fun c => if isMeta c then ['\\', c] else [c]) ++ rest) =
      alternatives (cur ++ name) rest := by
  induction name generalizing cur with
  | nil => simp
  | cons c name ih =>
    by_cases hc : isMeta c
    · simp [hc, alternatives, ih]
    have hbar : c ≠ '|' := by
      rintro rfl
      exact hc (by decide)
    have hslash : c ≠ '\\' := by
      rintro rfl
      exact hc (by decide)
    have hstep : ∀ cs, alternatives cur (c :: cs) = alternatives (cur ++ [c]) cs := by
      intro cs
      rw [alternatives]
      · simp [hbar]
      · simp [hslash]
    simp [hc, hstep, ih]

theorem alternatives_intercalate (name : String) (names : List String) :
    alternatives [] ("|".intercalate ((name :: names).map quoteMeta)).toList =
      (name :: names).map String.toList := by
  rw [String.toList_intercalate]
  show alternatives [] (['|'].intercalate _) = _
  induction names generalizing name with
  | nil =>
    have hlast := alternatives_quoted name.toList [] []
    simpa [List.intercalate, toList_quoteMeta, alternatives] using hlast
  | cons next names ih =>
    have hcons : ['|'].intercalate (((name :: next :: names).map quoteMeta).map String.toList) =
        (quoteMeta name).toList ++
          '|' :: ['|'].intercalate (((next :: names).map quoteMeta).map String.toList) := by
      simp [List.intercalate]
    rw [hcons, toList_quoteMeta, alternatives_quoted, List.nil_append, alternatives, ih]
    rfl

def matchesAlternatives (name pattern : String) : Bool :=
  name.toList ∈ alternatives [] ((pattern.toList.drop 4).dropLast.dropLast)

theorem matchesAlternatives_anyOf {svcs : List String} (hsvcs : svcs ≠ []) (name : String) :
    matchesAlternatives name (anyOf svcs).value ↔ name ∈ svcs := by
  have hvalue : (((anyOf svcs).value.toList.drop 4).dropLast).dropLast =
      ("|".intercalate (svcs.map quoteMeta)).toList := by
    show ((("^(?:" ++ "|".intercalate (svcs.map quoteMeta) ++ ")$").toList.drop
      4).dropLast).dropLast = _
    rw [String.toList_append, String.toList_append]
    show ((('^' :: '(' :: '?' :: ':' :: (("|".intercalate (svcs.map quoteMeta)).toList ++
      [')', '$'])).drop 4).dropLast).dropLast = _
    simp
  unfold matchesAlternatives
  rw [decide_eq_true_eq, hvalue]
  cases svcs with
  | nil => exact absurd rfl hsvcs
  | cons first rest =>
    rw [alternatives_intercalate, List.mem_map]
    constructor
    · rintro ⟨svc, hsvc, heq⟩
      rwa [← String.toList_inj.1 heq]
    · exact fun hname => ⟨name, hname, rfl⟩

theorem namesExactly_of_alternatives {F : Type} {engine : Engine F}
    (h : engine.regex = matchesAlternatives) : NamesExactly engine := by
  intro svcs hsvcs name
  rw [h]
  exact matchesAlternatives_anyOf hsvcs name

end Sluicio.Integrations
