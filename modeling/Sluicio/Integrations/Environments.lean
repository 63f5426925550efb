import Sluicio.Integrations.Narrowed

/-!
# Reading the environments of a request

A row that a narrowed group selects by its own filters is of the environments.  A row that
is selected because it is below an anchor need not be: the environment is asked of the
anchor.  And a group without filters, which the compiler skips, becomes one that selects
every row of the environments.
-/

namespace Sluicio.Integrations

open Store (LogAttrFilter Row Span Engine EnvironmentConfig Clause PrimaryMap
  isSourceGroup groupMemberOf memberGroups gated widened attrCond attrGroupsClause boundOnSpans
  boundPart boundSubtree environmentOf NothingToMatch)
open Store

variable {F : Type}

section Exact

variable (cfg : EnvironmentConfig) (engine : Engine F) (table : PrimaryMap)
  (groups : List (List LogAttrFilter)) (start stop : Int) (envs : List String)

def NoneRequired : Prop := ∀ g ∈ groups, ∀ f ∈ g, f.requireAllGroups = false

instance : Decidable (NoneRequired groups) :=
  inferInstanceAs (Decidable (∀ g ∈ groups, ∀ f ∈ g, _))

/-- The rows selected with the environments are of these environments, and when no group
requires all members they are those of them that are selected without. -/
def ReadsEnvironments : Prop :=
  ∀ (traces : List Span) (row : Row), row.table = table → (∀ s, row = .span s → s ∈ traces) →
    (matched engine traces row
        (attrGroupsClause cfg engine table (withEnvironments groups envs) start stop) →
      environmentOf cfg row ∈ envs) ∧
    (NoneRequired groups →
      (matched engine traces row
          (attrGroupsClause cfg engine table (withEnvironments groups envs) start stop) ↔
        matched engine traces row (attrGroupsClause cfg engine table groups start stop) ∧
          environmentOf cfg row ∈ envs))

/-- A span of the environments can meet the group. -/
def MetIn (g : List LogAttrFilter) : Prop :=
  ∃ s : Span, environmentOf cfg (.span s) ∈ envs ∧ Meets cfg engine g (.span s)

/-- A member's group asks for the spans below its anchors, spans of the environments can be
anchors, and, when the members are required, spans of the environments can meet each. -/
def LooksBelow : Prop :=
  ∃ x ∈ membersToNarrow groups, widened table start stop x.1 ∧ start ≤ stop ∧
    MetIn cfg engine envs x.1 ∧
    (gated table start stop (membersToNarrow groups) →
      ∀ y ∈ membersToNarrow groups, ∃ z ∈ membersToNarrow groups,
        groupMemberOf z.1 z.2 = groupMemberOf y.1 y.2 ∧ MetIn cfg engine envs z.1)

/-- Some spans can be anchors of a member's group that asks for those below, or a group
without filters stands beside one that has some. -/
def Uneven : Prop :=
  (∃ x ∈ membersToNarrow groups, widened table start stop x.1 ∧ start ≤ stop ∧
      ∃ s : Span, Meets cfg engine x.1 (.span s)) ∨
    ([] ∈ groups ∧ ¬ NothingToMatch groups)

/-- Every row of the environments meets a group that selects by its own filters. -/
def Covers : Prop :=
  ∀ row : Row, row.table = table → environmentOf cfg row ∈ envs →
    ∃ g ∈ groups, g ≠ [] ∧ Meets cfg engine g row ∧
      (isSourceGroup g ∨ ¬ LookupOnly table start stop g)

variable {cfg engine table groups start stop envs}

theorem meets_nil (row : Row) : Meets cfg engine [] row :=
  fun _ hf => absurd hf List.not_mem_nil

theorem not_lookupOnly_nil : ¬ LookupOnly table start stop [] := by
  intro hlookup
  exact Bool.noConfusion hlookup.1

variable {x : List LogAttrFilter × Nat}

theorem mem_membersToNarrow (hx : x ∈ membersToNarrow groups) :
    x.1 ∈ groupsToNarrow groups ∧ isSourceGroup x.1 = false := by
  obtain ⟨hmem, hsource⟩ := List.mem_filter.1 (List.fst_mem_of_mem_zipIdx hx)
  exact ⟨hmem, by simpa using hsource⟩

variable {g : List LogAttrFilter} {traces : List Span} {row : Row}

theorem exists_memberToNarrow (hg : g ∈ groupsToNarrow groups) (hsource : isSourceGroup g = false) :
    ∃ n, (g, n) ∈ membersToNarrow groups := by
  have hmem : g ∈ (groupsToNarrow groups).filter fun g => !isSourceGroup g :=
    List.mem_filter.2 ⟨hg, by simpa using hsource⟩
  obtain ⟨n, hn⟩ := List.mem_iff_getElem?.1 hmem
  exact ⟨n, List.mk_mem_zipIdx_iff_getElem?.2 hn⟩

theorem memberGroups_subset (hx : x ∈ memberGroups groups) : x ∈ membersToNarrow groups := by
  have hne : groups ≠ [] := by
    rintro rfl
    cases hx
  unfold membersToNarrow groupsToNarrow
  rw [if_neg hne]
  exact (List.mem_filter.1 hx).1

theorem mem_memberGroups (hx : x ∈ membersToNarrow groups) (hne : x.1 ≠ []) :
    x ∈ memberGroups groups := by
  unfold membersToNarrow groupsToNarrow at hx
  split at hx
  · simp only [List.mem_zipIdx_iff_getElem?] at hx
    have hmem := List.mem_of_getElem? hx
    simp [isSourceGroup, hne] at hmem
  · exact List.mem_filter.2 ⟨hx, by simpa using hne⟩

theorem gated_of_noneRequired (h : NoneRequired groups) :
    gated table start stop (membersToNarrow groups) = false := by
  have hnone : ((membersToNarrow groups).any fun x =>
      x.1.any LogAttrFilter.requireAllGroups) = false := by
    rw [List.any_eq_false]
    intro x hx hany
    obtain ⟨f, hf, hall⟩ := List.any_eq_true.1 hany
    have hmem := (mem_membersToNarrow hx).1
    unfold groupsToNarrow at hmem
    split at hmem
    · rw [List.mem_singleton.1 hmem] at hf
      cases hf
    · rw [h x.1 hmem f hf] at hall
      cases hall
  simp [gated, hnone]

theorem gated_memberGroups_of_noneRequired (h : NoneRequired groups) :
    gated table start stop (memberGroups groups) = false := by
  have hnone : ((memberGroups groups).any fun x =>
      x.1.any LogAttrFilter.requireAllGroups) = false := by
    rw [List.any_eq_false]
    intro x hx hany
    obtain ⟨f, hf, hall⟩ := List.any_eq_true.1 hany
    rw [h x.1 (memberGroups_fst_ne hx).2.2 f hf] at hall
    cases hall
  simp [gated, hnone]

theorem narrowed_matched_iff (henvs : envs ≠ []) (hnames : MatchesNames engine envs)
    (hrow : row.table = table) :
    matched engine traces row
        (attrGroupsClause cfg engine table (withEnvironments groups envs) start stop) ↔
      ByMembers cfg engine traces ((membersToNarrow groups).map
          fun x => (x.1 ++ [addedFilter envs x.1], x.2)) start stop row ∨
        (∃ g ∈ groups.filter isSourceGroup, Meets cfg engine g row) ∧
          environmentOf cfg row ∈ envs := by
  have hsomething : ¬ NothingToMatch (withEnvironments groups envs) := by
    intro hnothing
    rw [withEnvironments_eq henvs] at hnothing
    have hmem : ∃ g, g ∈ groupsToNarrow groups := by
      unfold groupsToNarrow
      split
      · exact ⟨_, List.mem_cons_self⟩
      · next hne => exact List.exists_mem_of_ne_nil _ hne
    obtain ⟨g, hg⟩ := hmem
    have hnil := hnothing _ (List.mem_map_of_mem hg)
    simp at hnil
  rw [← hrow, matched_iff, memberGroups_withEnvironments henvs, sourceGroups_withEnvironments henvs]
  simp only [hsomething, false_or, List.mem_map, exists_exists_and_eq_and,
    meets_narrowed henvs hnames]
  refine or_congr_right ⟨?_, ?_⟩
  · rintro ⟨g, hg, hmeets, henv⟩
    exact ⟨⟨g, hg, hmeets⟩, henv⟩
  · rintro ⟨⟨g, hg, hmeets⟩, henv⟩
    exact ⟨g, hg, hmeets, henv⟩

theorem narrowedMember_cases (henvs : envs ≠ []) (hnames : MatchesNames engine envs)
    (hrow : row.table = table) (hbelow : ¬ LooksBelow cfg engine table groups start stop envs)
    (h : ByMembers cfg engine traces ((membersToNarrow groups).map
      fun x => (x.1 ++ [addedFilter envs x.1], x.2)) start stop row) :
    environmentOf cfg row ∈ envs ∧ ∃ x ∈ membersToNarrow groups, Meets cfg engine x.1 row ∧
      ¬ LookupOnly table start stop x.1 := by
  obtain ⟨⟨_, hmem, hpart⟩, hgate⟩ := h
  obtain ⟨x, hx, rfl⟩ := List.mem_map.1 hmem
  rcases boundPart_cases hpart with ⟨hmeets, hplain⟩ | ⟨hwidened, hwindow, a, ha, hanchor⟩
  · rw [meets_narrowed henvs hnames] at hmeets
    unfold LookupOnly at hplain ⊢
    rw [widened_narrowed, hrow] at hplain
    exact ⟨hmeets.2, x, hx, hmeets.1, hplain⟩
  · rw [widened_narrowed, hrow] at hwidened
    have hmet := (meets_narrowed henvs hnames).1 hanchor
    refine absurd ⟨x, hx, hwidened, hwindow, ⟨a, hmet.2, hmet.1⟩, fun hgated y hy => ?_⟩ hbelow
    rw [gated_narrowed, hrow] at hgate
    obtain ⟨_, hother, hsame, s, _, hspan⟩ := spans_of_boundGate (hgate hgated) _
      (List.mem_map_of_mem hy)
    obtain ⟨z, hz, rfl⟩ := List.mem_map.1 hother
    have hmet' := (meets_narrowed henvs hnames).1 hspan
    rw [groupMemberOf_narrowed, groupMemberOf_narrowed] at hsame
    exact ⟨z, hz, hsame, s, hmet'.2, hmet'.1⟩

theorem matched_of_meets (hrow : row.table = table) (hnone : NoneRequired groups)
    (hg : g ∈ groups) (hne : g ≠ []) (hmeets : Meets cfg engine g row)
    (hself : isSourceGroup g ∨ ¬ LookupOnly table start stop g) :
    matched engine traces row (attrGroupsClause cfg engine table groups start stop) := by
  rw [← hrow, matched_iff]
  right
  by_cases hsource : isSourceGroup g = true
  · exact .inr ⟨g, List.mem_filter.2 ⟨hg, hsource⟩, hmeets⟩
  left
  have hplain : ¬ LookupOnly row.table start stop g := by
    rw [hrow]
    exact hself.resolve_left hsource
  have hmem : g ∈ groupsToNarrow groups := by
    unfold groupsToNarrow
    rwa [if_neg (List.ne_nil_of_mem hg)]
  obtain ⟨n, hn⟩ := exists_memberToNarrow hmem (by simpa using hsource)
  refine ⟨⟨(g, n), mem_memberGroups hn hne, boundPart_of_meets hmeets hplain⟩, fun hgated => ?_⟩
  rw [gated_memberGroups_of_noneRequired hnone] at hgated
  cases hgated

theorem narrowedMatched_of_meets (henvs : envs ≠ []) (hnames : MatchesNames engine envs)
    (hrow : row.table = table) (hnone : NoneRequired groups) (hg : g ∈ groupsToNarrow groups)
    (hmeets : Meets cfg engine g row) (hself : isSourceGroup g ∨ ¬ LookupOnly table start stop g)
    (henv : environmentOf cfg row ∈ envs) :
    matched engine traces row
      (attrGroupsClause cfg engine table (withEnvironments groups envs) start stop) := by
  rw [narrowed_matched_iff henvs hnames hrow]
  by_cases hsource : isSourceGroup g = true
  · refine .inr ⟨⟨g, List.mem_filter.2 ⟨?_, hsource⟩, hmeets⟩, henv⟩
    unfold groupsToNarrow at hg
    split at hg
    · rw [List.mem_singleton.1 hg] at hsource
      cases hsource
    · exact hg
  left
  have hplain : ¬ LookupOnly row.table start stop (g ++ [addedFilter envs g]) := by
    unfold LookupOnly
    rw [widened_narrowed, hrow]
    exact hself.resolve_left hsource
  obtain ⟨n, hn⟩ := exists_memberToNarrow hg (by simpa using hsource)
  refine ⟨⟨_, List.mem_map_of_mem hn, boundPart_of_meets
    ((meets_narrowed henvs hnames).2 ⟨hmeets, henv⟩) hplain⟩, fun hgated => ?_⟩
  rw [gated_narrowed, gated_of_noneRequired hnone] at hgated
  cases hgated

theorem mem_groups_of_mem (hsome : ¬ NothingToMatch groups) (hg : g ∈ groupsToNarrow groups) :
    g ∈ groups := by
  unfold groupsToNarrow at hg
  split at hg
  · next hnil =>
    rw [hnil] at hsome
    exact absurd (fun _ hmem => absurd hmem List.not_mem_nil) hsome
  · exact hg

theorem narrowed_iff_of_even (henvs : envs ≠ []) (hnames : MatchesNames engine envs)
    (hrow : row.table = table) (hnone : NoneRequired groups)
    (hbelow : ¬ LooksBelow cfg engine table groups start stop envs)
    (heven : ¬ Uneven cfg engine table groups start stop) (hin : environmentOf cfg row ∈ envs) :
    matched engine traces row
        (attrGroupsClause cfg engine table (withEnvironments groups envs) start stop) ↔
      matched engine traces row (attrGroupsClause cfg engine table groups start stop) := by
  by_cases hnothing : NothingToMatch groups
  · -- every group is empty, so both lists select the row
    have hempty : [] ∈ groupsToNarrow groups := by
      unfold groupsToNarrow
      split
      · exact List.mem_cons_self
      · next hne =>
        obtain ⟨g, hg⟩ := List.exists_mem_of_ne_nil _ hne
        exact hnothing g hg ▸ hg
    have hall : matched engine traces row
        (attrGroupsClause cfg engine table groups start stop) := by
      rw [← hrow, matched_iff]
      exact .inl hnothing
    refine iff_of_true ?_ hall
    exact narrowedMatched_of_meets henvs hnames hrow hnone hempty (meets_nil row)
      (.inr not_lookupOnly_nil) hin
  · have hfilters : ∀ {g}, g ∈ groups → g ≠ [] := fun hg hnil =>
      heven (.inr ⟨hnil ▸ hg, hnothing⟩)
    constructor
    · rw [narrowed_matched_iff henvs hnames hrow]
      rintro (hmember | ⟨⟨g, hg, hmeets⟩, _⟩)
      · obtain ⟨_, x, hx, hmeets, hplain⟩ :=
          narrowedMember_cases henvs hnames hrow hbelow hmember
        have hg := mem_groups_of_mem hnothing (mem_membersToNarrow hx).1
        exact matched_of_meets hrow hnone hg (hfilters hg) hmeets (.inr hplain)
      · obtain ⟨hg, hsource⟩ := List.mem_filter.1 hg
        exact matched_of_meets hrow hnone hg (hfilters hg) hmeets (.inl hsource)
    · intro hmatched
      have hkept : ∀ {g}, g ∈ groups → g ∈ groupsToNarrow groups := by
        intro g hg
        unfold groupsToNarrow
        rwa [if_neg (List.ne_nil_of_mem hg)]
      rw [← hrow, matched_iff, or_iff_right hnothing] at hmatched
      rcases hmatched with ⟨⟨x, hx, hpart⟩, _⟩ | ⟨g, hg, hmeets⟩
      · obtain ⟨_, _, hg⟩ := memberGroups_fst_ne hx
        rcases boundPart_cases hpart with ⟨hmeets, hplain⟩ | ⟨hwidened, hwindow, a, _, hanchor⟩
        · rw [hrow] at hplain
          exact narrowedMatched_of_meets henvs hnames hrow hnone (hkept hg) hmeets (.inr hplain) hin
        · rw [hrow] at hwidened
          exact absurd (.inl ⟨x, memberGroups_subset hx, hwidened, hwindow, a, hanchor⟩) heven
      · obtain ⟨hg, hsource⟩ := List.mem_filter.1 hg
        exact narrowedMatched_of_meets henvs hnames hrow hnone (hkept hg) hmeets (.inl hsource) hin

theorem readsEnvironments_of (henvs : envs ≠ []) (hnames : MatchesNames engine envs)
    (hbelow : ¬ LooksBelow cfg engine table groups start stop envs)
    (heven : NoneRequired groups → Uneven cfg engine table groups start stop →
      Covers cfg engine table groups start stop envs) :
    ReadsEnvironments cfg engine table groups start stop envs := by
  intro traces row hrow _
  have henv : matched engine traces row (attrGroupsClause cfg engine table
      (withEnvironments groups envs) start stop) → environmentOf cfg row ∈ envs := by
    rw [narrowed_matched_iff henvs hnames hrow]
    rintro (hmember | hsource)
    · exact (narrowedMember_cases henvs hnames hrow hbelow hmember).1
    · exact hsource.2
  refine ⟨henv, fun hnone => ?_⟩
  by_cases huneven : Uneven cfg engine table groups start stop
  · have hcovers := heven hnone huneven
    constructor
    · intro hmatched
      obtain ⟨g, hg, hne, hmeets, hself⟩ := hcovers row hrow (henv hmatched)
      exact ⟨matched_of_meets hrow hnone hg hne hmeets hself, henv hmatched⟩
    · rintro ⟨_, hin⟩
      obtain ⟨g, hg, _, hmeets, hself⟩ := hcovers row hrow hin
      have hmem : g ∈ groupsToNarrow groups := by
        unfold groupsToNarrow
        rwa [if_neg (List.ne_nil_of_mem hg)]
      exact narrowedMatched_of_meets henvs hnames hrow hnone hmem hmeets hself hin
  · constructor
    · intro hmatched
      have hin := henv hmatched
      exact ⟨(narrowed_iff_of_even henvs hnames hrow hnone hbelow huneven hin).1 hmatched, hin⟩
    · rintro ⟨hmatched, hin⟩
      exact (narrowed_iff_of_even henvs hnames hrow hnone hbelow huneven hin).2 hmatched

end Exact

/-! ## Stores that show the difference -/

section Stores

private def placed (s : Span) (time : Int) (spanId parentSpanId : String) : Span :=
  { s with timestamp := time, traceId := "t", spanId := spanId, parentSpanId := parentSpanId }

private def placedBelow (time : Int) : Row → Row
  | .span s => .span (placed s time "2" "1")
  | .log l => .log { l with traceId := "t", spanId := "2" }
  | .metric m => .metric m

private def alone : Row → List Span
  | .span s => [s]
  | _ => []

/-- The second span of the trace, below `a`: the row, if it is a span. -/
private def childOf (a : Span) (time : Int) : Row → Span
  | .span s => placed s time "2" "1"
  | _ => placed a time "2" "1"

private def bareSpan (cfg : EnvironmentConfig) (env : String) : Span :=
  { timestamp := 0, traceId := "", spanId := "", parentSpanId := "", serviceName := "",
    spanName := "", environment := env, resourceAttributes := [(cfg.key, env)],
    spanAttributes := [] }

private def bareLog (cfg : EnvironmentConfig) (env : String) : Store.LogRecord :=
  { traceId := "t", spanId := "2", serviceName := "", environment := env,
    resourceAttributes := [(cfg.key, env)], logAttributes := [] }

variable {cfg : EnvironmentConfig} {engine : Engine F} {table : PrimaryMap}
  {groups : List (List LogAttrFilter)} {start stop : Int} {envs : List String} {traces : List Span}
  {row : Row}

theorem meets_congr {row' : Row} (htable : row'.table = row.table)
    (hexpr : ∀ e : Store.Expr, e.eval row' = e.eval row) (hmap : ∀ m, row'.map m = row.map m)
    (hresource : row'.resourceAttributes = row.resourceAttributes) (g : List LogAttrFilter) :
    Meets cfg engine g row' ↔ Meets cfg engine g row := by
  unfold Meets
  rw [htable]
  refine forall_congr' fun f => imp_congr_right fun _ => ?_
  have heval : (attrCond cfg engine row.table f).eval engine row' =
      (attrCond cfg engine row.table f).eval engine row := by
    cases attrCond cfg engine row.table f with
    | text op e v => cases v <;> simp [Store.Cond.eval, hexpr]
    | number op e v => cases v <;> simp [Store.Cond.eval, hexpr]
    | nonEmpty e => simp [Store.Cond.eval, hexpr]
    | isEmpty e => simp [Store.Cond.eval, hexpr]
    | present m key => simp [Store.Cond.eval, hmap, hresource]
    | absent m key => simp [Store.Cond.eval, hmap, hresource]
    | never => rfl
  rw [heval]

theorem meets_placed (g : List LogAttrFilter) (s : Span) (time : Int)
    (spanId parentSpanId : String) :
    Meets cfg engine g (.span (placed s time spanId parentSpanId)) ↔
      Meets cfg engine g (.span s) := by
  have htable : (Row.span (placed s time spanId parentSpanId)).table = (Row.span s).table := rfl
  refine meets_congr htable (fun e => ?_) (fun _ => rfl) rfl g
  cases e with
  | column c => cases c <;> rfl
  | attr m key => rfl
  | environment c => rfl

theorem meets_placedBelow (g : List LogAttrFilter) (time : Int) (row : Row) :
    Meets cfg engine g (placedBelow time row) ↔ Meets cfg engine g row := by
  cases row with
  | span s => exact meets_placed g s time "2" "1"
  | metric m => rfl
  | log l =>
    have htable : (placedBelow time (.log l)).table = (Row.log l).table := rfl
    refine meets_congr htable (fun e => ?_) (fun _ => rfl) rfl g
    cases e with
    | column c => cases c <;> rfl
    | attr m key => rfl
    | environment c => rfl

theorem exists_longer (names : List (List Char)) : ∃ n, ∀ name ∈ names, name.length < n := by
  induction names with
  | nil => exact ⟨0, fun _ h => absurd h List.not_mem_nil⟩
  | cons name names ih =>
    obtain ⟨n, hn⟩ := ih
    refine ⟨max n (name.length + 1), fun other hother => ?_⟩
    rcases List.mem_cons.1 hother with rfl | hmem
    · omega
    · have hlt := hn other hmem
      omega

theorem exists_environment (cfg : EnvironmentConfig) (envs : List String) :
    ∃ env, env ∉ envs ∧
      ∀ row, rawEnvironment cfg row = env → environmentOf cfg row = env := by
  obtain ⟨n, hn⟩ := exists_longer (envs.map String.toList ++ cfg.aliases.map fun a => a.1.toList)
  have hlong : ∀ name ∈ envs.map String.toList ++ cfg.aliases.map (fun a => a.1.toList),
      name.length ≠ n := fun name hname => Nat.ne_of_lt (hn name hname)
  refine ⟨String.ofList (List.replicate n 'x'), fun hmem => ?_, fun row hraw => ?_⟩
  · exact hlong _ (List.mem_append_left _ (List.mem_map_of_mem hmem)) (by simp)
  · have hnone : cfg.aliases.find? (fun a => a.1.toList =
        lower (String.ofList (List.replicate n 'x'))) = none := by
      rw [List.find?_eq_none]
      intro a ha heq
      refine hlong _ (List.mem_append_right _ (List.mem_map_of_mem ha)) ?_
      rw [of_decide_eq_true heq]
      simp [lower]
    unfold environmentOf
    rw [hraw, hnone]
    rfl

variable {a : Span} {g : List LogAttrFilter}

theorem boundSubtree_of_anchor {c : Span} (hrow : row.trace = some ("t", "2"))
    (hinside : Store.TraceInside traces row start stop) (ha : a ∈ traces)
    (haid : a.traceId = "t" ∧ a.spanId = "1") (hmeets : Meets cfg engine g (.span a))
    (hc : c ∈ traces) (hcid : c.traceId = "t" ∧ c.spanId = "2" ∧ c.parentSpanId = "1") :
    (boundSubtree cfg engine table start stop g).eval engine traces (.row row) = .yes := by
  rw [boundSubtree_eval table hinside]
  have hanchor : (boundOnSpans cfg engine table g).eval engine traces (.row (.span a)) = .yes :=
    (boundOnSpans_yes table).2 hmeets
  have hholds : Store.GroupHolds cfg engine g (.span a) :=
    (boundOnSpans_eval table g a).1 hanchor
  have hlink : ("2", "1") ∈ traceLinks traces "t" := by
    refine List.mem_map.2 ⟨c, List.mem_filter.2 ⟨hc, by simpa using hcid.1⟩, ?_⟩
    rw [hcid.2.1, hcid.2.2]
  refine ⟨"t", "2", hrow, a, ha, haid.1, hholds, ["2"], by decide, ?_⟩
  rw [haid.2]
  exact .down (.here "1") hlink

theorem boundPart_of_boundSubtree (hwidened : widened row.table start stop g)
    (h : (boundSubtree cfg engine row.table start stop g).eval engine traces (.row row) = .yes) :
    (boundPart cfg engine row.table start stop g).eval engine traces (.row row) = .yes := by
  unfold boundPart
  rw [if_pos hwidened]
  split
  · exact h
  · rw [Clause.eval_any]
    exact ⟨_, List.mem_cons_of_mem _ List.mem_cons_self, h⟩

theorem not_readsEnvironments_of_looksBelow (henvs : envs ≠ []) (hnames : MatchesNames engine envs)
    (h : LooksBelow cfg engine table groups start stop envs) :
    ¬ ReadsEnvironments cfg engine table groups start stop envs := by
  intro hreads
  obtain ⟨x, hx, hwidened, hwindow, hmet, hgate⟩ := h
  obtain ⟨env, henv, hraw⟩ := exists_environment cfg envs
  -- every group that spans of the environments can meet has one in the trace
  have hwitness : ∀ g, ∃ s : Span, s.timestamp = start ∧ s.traceId = "t" ∧ s.spanId = "1" ∧
      (MetIn cfg engine envs g → Meets cfg engine (g ++ [addedFilter envs g]) (.span s)) := by
    intro g
    by_cases hg : MetIn cfg engine envs g
    · obtain ⟨s, hs, hmeets⟩ := hg
      refine ⟨placed s start "1" "", rfl, rfl, rfl, fun _ => ?_⟩
      rw [meets_placed]
      exact (meets_narrowed henvs hnames).2 ⟨hmeets, hs⟩
    · exact ⟨placed (bareSpan cfg env) start "1" "", rfl, rfl, rfl, fun hmet => absurd hmet hg⟩
  choose anchor htime htrace hid hanchor using hwitness
  let child := placed (bareSpan cfg env) start "2" "1"
  let traces := child :: (membersToNarrow groups).map fun z => anchor z.1
  have hmem : ∀ z ∈ membersToNarrow groups, anchor z.1 ∈ traces := fun z hz =>
    List.mem_cons_of_mem _ (List.mem_map_of_mem hz)
  have hbare : ∀ row, rawEnvironment cfg row = env → environmentOf cfg row ∉ envs := by
    intro row hrow
    rw [hraw row hrow]
    exact henv
  obtain ⟨row, hrow, hstored, hids, hout⟩ : ∃ row : Row, row.table = table ∧
      (∀ s, row = .span s → s ∈ traces) ∧ row.trace = some ("t", "2") ∧
      environmentOf cfg row ∉ envs := by
    cases table with
    | spanAttributes =>
      refine ⟨.span child, rfl, fun s hs => ?_, rfl, hbare _ ?_⟩
      · rw [← Row.span.inj hs]
        exact List.mem_cons_self
      · show (if cfg.key ≠ "" then Store.AttrMap.value [(cfg.key, env)] cfg.key else env) = env
        simp [Store.AttrMap.value]
    | logAttributes =>
      refine ⟨.log (bareLog cfg env), rfl, fun s hs => Row.noConfusion hs, rfl, hbare _ ?_⟩
      show (if cfg.key ≠ "" then Store.AttrMap.value [(cfg.key, env)] cfg.key else env) = env
      simp [Store.AttrMap.value]
    | metricAttributes => simp [widened] at hwidened
  have hinside : Store.TraceInside traces row start stop := by
    intro s hs _
    rcases List.mem_cons.1 hs with rfl | hs
    · exact ⟨Int.le_refl start, hwindow⟩
    · obtain ⟨z, _, rfl⟩ := List.mem_map.1 hs
      rw [htime]
      exact ⟨Int.le_refl start, hwindow⟩
  refine hout ((hreads traces row hrow hstored).1 ?_)
  rw [narrowed_matched_iff henvs hnames hrow]
  refine .inl ⟨⟨_, List.mem_map_of_mem hx, boundPart_of_boundSubtree ?_ ?_⟩, fun hgated => ?_⟩
  · rw [widened_narrowed, hrow]
    exact hwidened
  · exact boundSubtree_of_anchor hids hinside (hmem x hx) ⟨htrace x.1, hid x.1⟩
      (hanchor x.1 hmet) List.mem_cons_self ⟨rfl, rfl, rfl⟩
  · rw [gated_narrowed, hrow] at hgated
    have hne : (membersToNarrow groups).map (fun x => (x.1 ++ [addedFilter envs x.1], x.2)) ≠ [] :=
      List.ne_nil_of_mem (List.mem_map_of_mem hx)
    rw [boundGate_eval row.table hne hids hinside]
    intro _ hmapped
    obtain ⟨y, hy, rfl⟩ := List.mem_map.1 hmapped
    obtain ⟨z, hz, hsame, hmetz⟩ := hgate hgated y hy
    refine ⟨_, List.mem_map_of_mem hz, ?_, anchor z.1, hmem z hz, htrace z.1, ?_⟩
    · rw [groupMemberOf_narrowed, groupMemberOf_narrowed]
      exact hsame
    · have honSpans : (boundOnSpans cfg engine table (z.1 ++ [addedFilter envs z.1])).eval engine
          traces (.row (.span (anchor z.1))) = .yes :=
        (boundOnSpans_yes table).2 (hanchor z.1 hmetz)
      exact (boundOnSpans_eval table _ _).1 honSpans

theorem covered_of_matched (hrow : row.table = table) (hsome : ¬ NothingToMatch groups)
    (h : matched engine traces row (attrGroupsClause cfg engine table groups start stop)) :
    (∃ g ∈ groups, g ≠ [] ∧ Meets cfg engine g row ∧
      (isSourceGroup g ∨ ¬ LookupOnly table start stop g)) ∨
    ∃ x ∈ membersToNarrow groups, widened table start stop x.1 ∧ start ≤ stop ∧
      ∃ a ∈ traces, Meets cfg engine x.1 (.span a) := by
  rw [← hrow, matched_iff, or_iff_right hsome] at h
  rcases h with ⟨⟨x, hx, hpart⟩, _⟩ | ⟨g, hg, hmeets⟩
  · obtain ⟨hne, _, hg⟩ := memberGroups_fst_ne hx
    rcases boundPart_cases hpart with ⟨hmeets, hplain⟩ | hlookup
    · rw [hrow] at hplain
      exact .inl ⟨x.1, hg, hne, hmeets, .inr hplain⟩
    · rw [hrow] at hlookup
      exact .inr ⟨x, memberGroups_subset hx, hlookup⟩
  · obtain ⟨hg, hsource⟩ := List.mem_filter.1 hg
    refine .inl ⟨g, hg, ?_, hmeets, .inl hsource⟩
    rintro rfl
    cases hsource

theorem covers_of_empty (henvs : envs ≠ []) (hnames : MatchesNames engine envs)
    (hreads : ReadsEnvironments cfg engine table groups start stop envs)
    (hnone : NoneRequired groups) (hempty : [] ∈ groups) (hsome : ¬ NothingToMatch groups) :
    Covers cfg engine table groups start stop envs := by
  have hbelow : ¬ LooksBelow cfg engine table groups start stop envs := fun h =>
    not_readsEnvironments_of_looksBelow henvs hnames h hreads
  intro row hrow hin
  -- the row alone in the store
  have hstored : ∀ s, row = .span s → s ∈ alone row := by
    rintro s rfl
    exact List.mem_cons_self
  have honly : ∀ a ∈ alone row, row = .span a := by
    intro a ha
    cases row with
    | span s => rw [List.mem_singleton.1 ha]
    | log l => exact absurd ha List.not_mem_nil
    | metric m => exact absurd ha List.not_mem_nil
  have hnarrow : [] ∈ groupsToNarrow groups := by
    unfold groupsToNarrow
    rwa [if_neg (List.ne_nil_of_mem hempty)]
  have hmatched := ((hreads (alone row) row hrow hstored).2 hnone).1
    (narrowedMatched_of_meets henvs hnames hrow hnone hnarrow (meets_nil row)
      (.inr not_lookupOnly_nil) hin)
  rcases covered_of_matched hrow hsome hmatched.1 with hcovered | ⟨x, hx, hw, hwin, a, ha, hmeets⟩
  · exact hcovered
  · rw [honly a ha] at hin
    refine absurd ⟨x, hx, hw, hwin, ⟨a, hin, hmeets⟩, fun hgated => ?_⟩ hbelow
    rw [gated_of_noneRequired hnone] at hgated
    cases hgated

/-- With an anchor that a group looks below, every row of the environments is read: as a row
below the anchor it is selected, and with the environments only by a group's own filters. -/
theorem covers_of_anchor (henvs : envs ≠ []) (hnames : MatchesNames engine envs)
    (hreads : ReadsEnvironments cfg engine table groups start stop envs)
    (hnone : NoneRequired groups) (hempty : [] ∉ groups) {x : List LogAttrFilter × Nat}
    (hx : x ∈ membersToNarrow groups) (hwidened : widened table start stop x.1)
    (hwindow : start ≤ stop) (hmeets : Meets cfg engine x.1 (.span a)) :
    Covers cfg engine table groups start stop envs := by
  have hbelow : ¬ LooksBelow cfg engine table groups start stop envs := fun h =>
    not_readsEnvironments_of_looksBelow henvs hnames h hreads
  have hfilters : ∀ {g}, g ∈ groups → g ≠ [] := fun hg hnil => hempty (hnil ▸ hg)
  have hxne : x.1 ≠ [] := by
    intro hnil
    rw [hnil] at hwidened
    cases hwidened
  have hxmember := mem_memberGroups hx hxne
  have hsome : ¬ NothingToMatch groups := fun hnothing =>
    hxne (hnothing x.1 (memberGroups_fst_ne hxmember).2.2)
  intro row hrow hin
  -- the row below an anchor
  let anchor := placed a start "1" ""
  let child := childOf a start row
  have hchild : child.timestamp = start ∧ child.traceId = "t" ∧ child.spanId = "2" ∧
      child.parentSpanId = "1" := by
    cases row <;> exact ⟨rfl, rfl, rfl, rfl⟩
  have hrow' : (placedBelow start row).table = table := by
    rw [← hrow]
    cases row <;> rfl
  have hids : (placedBelow start row).trace = some ("t", "2") := by
    cases row with
    | span s => rfl
    | log l => rfl
    | metric m =>
      rw [← hrow] at hwidened
      simp [widened, Row.table] at hwidened
  have hstored : ∀ s, placedBelow start row = .span s → s ∈ [anchor, child] := by
    intro s hs
    cases row with
    | span s' =>
      rw [← Row.span.inj hs]
      exact List.mem_cons_of_mem _ List.mem_cons_self
    | log l => cases hs
    | metric m => cases hs
  have hin' : environmentOf cfg (placedBelow start row) ∈ envs := by cases row <;> exact hin
  have hinside : Store.TraceInside [anchor, child] (placedBelow start row) start stop := by
    intro s hs _
    rcases List.mem_cons.1 hs with rfl | hs
    · exact ⟨Int.le_refl start, hwindow⟩
    · rw [List.mem_singleton.1 hs, hchild.1]
      exact ⟨Int.le_refl start, hwindow⟩
  have hselected : matched engine [anchor, child] (placedBelow start row)
      (attrGroupsClause cfg engine table groups start stop) := by
    rw [← hrow', matched_iff]
    refine .inr (.inl ⟨⟨x, hxmember, boundPart_of_boundSubtree ?_ ?_⟩, fun hgated => ?_⟩)
    · rw [hrow']
      exact hwidened
    · exact boundSubtree_of_anchor hids hinside List.mem_cons_self ⟨rfl, rfl⟩
        ((meets_placed x.1 a start "1" "").2 hmeets)
        (List.mem_cons_of_mem _ List.mem_cons_self) hchild.2
    · rw [gated_memberGroups_of_noneRequired hnone] at hgated
      cases hgated
  have hnarrowed := ((hreads _ _ hrow' hstored).2 hnone).2 ⟨hselected, hin'⟩
  rw [narrowed_matched_iff henvs hnames hrow'] at hnarrowed
  rcases hnarrowed with hmember | ⟨⟨g, hg, hmeetsg⟩, _⟩
  · obtain ⟨_, y, hy, hmeetsy, hplain⟩ := narrowedMember_cases henvs hnames hrow' hbelow hmember
    have hg := mem_groups_of_mem hsome (mem_membersToNarrow hy).1
    exact ⟨y.1, hg, hfilters hg, (meets_placedBelow y.1 start row).1 hmeetsy, .inr hplain⟩
  · obtain ⟨hg, hsource⟩ := List.mem_filter.1 hg
    exact ⟨g, hg, hfilters hg, (meets_placedBelow g start row).1 hmeetsg, .inl hsource⟩

end Stores

/-- **Reading environments.**  The groups narrowed to a list of environments select rows of
these environments, and those that the groups select when no group requires all members,
exactly when no member's group looks below anchors of the environments, and an anchor that
a group looks below, or a group without filters beside others, is only there when every
row of the environments meets a group that selects by itself. -/
theorem readsEnvironments_iff (cfg : EnvironmentConfig) (engine : Engine F)
    (table : PrimaryMap) (groups : List (List LogAttrFilter)) (start stop : Int)
    (envs : List String) (henvs : envs ≠ []) (hnames : MatchesNames engine envs) :
    ReadsEnvironments cfg engine table groups start stop envs ↔
      ¬ LooksBelow cfg engine table groups start stop envs ∧
        (NoneRequired groups → Uneven cfg engine table groups start stop →
          Covers cfg engine table groups start stop envs) := by
  constructor
  · intro hreads
    refine ⟨fun h => not_readsEnvironments_of_looksBelow henvs hnames h hreads, ?_⟩
    intro hnone huneven
    by_cases hempty : [] ∈ groups ∧ ¬ NothingToMatch groups
    · exact covers_of_empty henvs hnames hreads hnone hempty.1 hempty.2
    obtain ⟨x, hx, hwidened, hwindow, a, hmeets⟩ := huneven.resolve_right hempty
    have hxne : x.1 ≠ [] := by
      intro hnil
      rw [hnil] at hwidened
      cases hwidened
    have hnoempty : [] ∉ groups := fun hmem => hempty ⟨hmem, fun hnothing =>
      hxne (hnothing x.1 (memberGroups_fst_ne (mem_memberGroups hx hxne)).2.2)⟩
    exact covers_of_anchor henvs hnames hreads hnone hnoempty hx hwidened hwindow hmeets
  · rintro ⟨hbelow, heven⟩
    exact readsEnvironments_of henvs hnames hbelow heven

/-! ### A call into another environment -/

/-- Text comparisons only, and the pattern for two environments. -/
private def textEngine : Engine Nat where
  regex s pattern := pattern = "^(?:prod|test)$" && (s = "prod" || s = "test")
  parseFloat _ := none
  toFloat64OrNull _ := none
  compare _ _ _ := false

private def plainConfig : EnvironmentConfig := ⟨"", []⟩

private def belowGateway : List (List LogAttrFilter) :=
  [[{ key := "service.name", op := .eq, value := "gateway", descendants := true }]]

private def gatewaySpan : Span := ⟨5, "t", "1", "", "gateway", "GET", "prod", [], []⟩

private def sandboxSpan : Span := ⟨6, "t", "2", "1", "billing", "charge", "sandbox", [], []⟩

theorem readsEnvironments_example :
    ReadsEnvironments plainConfig textEngine .spanAttributes belowGateway 1 9 ["prod", "test"] ↔
      ¬ LooksBelow plainConfig textEngine .spanAttributes belowGateway 1 9 ["prod", "test"] ∧
        (NoneRequired belowGateway →
          Uneven plainConfig textEngine .spanAttributes belowGateway 1 9 →
          Covers plainConfig textEngine .spanAttributes belowGateway 1 9 ["prod", "test"]) := by
  refine readsEnvironments_iff plainConfig textEngine .spanAttributes belowGateway 1 9
    ["prod", "test"] (List.cons_ne_nil _ _) fun _ s => ?_
  have hpattern : environmentPattern ["prod", "test"] = "^(?:prod|test)$" := by decide +kernel
  rw [hpattern]
  simp [textEngine]

/-- What the gateway of `prod` calls in another environment is read with `prod`; and beside
a group without filters, which the compiler skips, every span of `prod` is. -/
theorem other_environment_read :
    ¬ ReadsEnvironments plainConfig textEngine .spanAttributes belowGateway 1 9 ["prod"] ∧
      ¬ ReadsEnvironments plainConfig textEngine .spanAttributes
        [[], [{ key := "service.name", op := .eq, value := "orders" }]] 1 9 ["prod"] := by
  constructor
  · intro hreads
    have hread := (hreads [gatewaySpan, sandboxSpan] (.span sandboxSpan) rfl (by
      intro s hs
      rw [← Row.span.inj hs]
      decide)).1 (by decide +kernel)
    revert hread
    decide
  · intro hreads
    have hread := (hreads [gatewaySpan] (.span gatewaySpan) rfl (by
      intro s hs
      rw [← Row.span.inj hs]
      decide)).2 (by decide)
    revert hread
    decide +kernel

end Sluicio.Integrations
