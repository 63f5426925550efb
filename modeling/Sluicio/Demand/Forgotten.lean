import Sluicio.Demand.Coverage

/-!
# What the sweep forgets

After a successful sweep every read of a stored object is demanded, for all the services it
is read from, exactly when the reads the sweep forgets are demanded by something else.  It
forgets the conditions of a span attribute check, the conditions that an integration's
matchers and sources put on metrics and logs, the metrics its sources name, the columns of
the message lists and the exception type of an error filter, and it takes the services of a
rule from one of its bindings only.
-/

namespace Sluicio.Demand

open Lib Query
open Alerting.Store (AlertRule)

section Forgotten

variable {F : Type} (w : World F) (c : Config)

/-- What a query names itself, without its groups. -/
def Query.ownReads (q : Query) : List Read := readsOf q.signal q.reach (q.ownKeys w)

def Query.groupReads (q : Query) : List Read := readsOf q.signal q.reach (q.groupKeys w)

/-- The reads of stored objects that have no case of their own in the sweep. -/
inductive Forgotten : Read → Prop
  /-- the conditions of a span attribute check -/
  | traceAttribute {r : AlertRule} {env : Option String} {q : Query} {ρ : Read}
      (hr : r ∈ c.rules) (hsignal : r.signal = .trace) (henv : env ∈ w.turns r)
      (hq : q ∈ traceAttributeQueries c env r) (hρ : ρ ∈ q.ownReads w) : Forgotten ρ
  | twoBindings {r : AlertRule} {env : Option String} {q : Query} {ρ : Read} (hr : r ∈ c.rules)
      (htwo : TwoBindings r) (henv : env ∈ w.turns r) (hq : q ∈ ruleQueries c env r)
      (hρ : ρ ∈ q.ownReads w) : Forgotten ρ
  | sourceServices {r : AlertRule} {env : Option String} {q : Query} {ρ : Read} (hr : r ∈ c.rules)
      (henv : env ∈ w.turns r) (hq : q ∈ ruleQueries c env r)
      (houtside : OutsideMembers c r q.reach) (hρ : ρ ∈ q.ownReads w) : Forgotten ρ
  | checkConditions {r : AlertRule} {env : Option String} {q : Query} {ρ : Read} (hr : r ∈ c.rules)
      (hsignal : r.signal ≠ .trace) (henv : env ∈ w.turns r) (hq : q ∈ ruleQueries c env r)
      (hρ : ρ ∈ q.groupReads w) : Forgotten ρ
  | pageConditions {i : Integration} {q : Query} {ρ : Read} (hi : i ∈ c.integrations)
      (hq : q ∈ sliceQueries c i) (hsignal : q.signal ≠ .trace) (hρ : ρ ∈ q.groupReads w) :
      Forgotten ρ
  | sourceMetric {i : Integration} {s : Integrations.Source} {name : String}
      (hi : i ∈ c.integrations) (hs : s ∈ i.sources) (hname : s.NamesMetric name) :
      Forgotten ⟨.metric, name, .only (s.origin.services (systemMembers c.catalog))⟩
  | columns {i : Integration} {s : Search} {ρ : Read} (hi : i ∈ c.integrations)
      (hs : search? w c [integrationFilter i] none = some s) (hρ : ρ ∈ s.columnReads) :
      Forgotten ρ
  | viewColumns {v : View} {s : Search} {ρ : Read} (hv : v ∈ c.views)
      (hs : search? w c v.filters v.messageColumns = some s) (hρ : ρ ∈ s.columnReads) :
      Forgotten ρ
  | errorType {v : View} {s : Search} {ρ : Read} (hv : v ∈ c.views)
      (hs : search? w c v.filters v.messageColumns = some s) (hρ : ρ ∈ s.rowReads)
      (hkey : ρ.key = Messageviews.exceptionTypeKey) : Forgotten ρ
  | environment {ρ : Read} (hρ : Reads w c ρ) (hkey : ρ.key = w.environment.key) : Forgotten ρ

end Forgotten

/-! ## The queries of a rule -/

section Rules

variable {F : Type} {w : World F} {c : Config} {q : Query} {k : String} {env : Option String}
  {r : AlertRule}

theorem Query.mem_reads {ρ : Read} : ρ ∈ q.reads w ↔ ρ ∈ q.ownReads w ∨ ρ ∈ q.groupReads w := by
  simp only [reads, ownReads, groupReads, mem_readsOf, List.mem_append]
  tauto

variable {attrs : List Alerting.AttrFilter}

theorem mem_specKeys {signal : Signal}
    (h : k ∈ (alertAttrsToStore attrs).flatMap (filterKeys w signal)) (hne : k ≠ "") :
    k = w.environment.key ∨ k ∈ (attrKeys attrs).filter (· ≠ "") := by
  obtain ⟨f, hf, hk⟩ := List.mem_flatMap.1 h
  obtain ⟨a, ha, rfl⟩ := List.mem_map.1 hf
  rcases mem_filterKeys hk with henv | ⟨rfl, _, _⟩
  · exact .inl henv
  · exact .inr (List.mem_filter.2 ⟨List.mem_map_of_mem ha, by simpa using hne⟩)

theorem mem_metricQueries (h : q ∈ metricQueries c env r) : ∃ reach groups,
      metricScope c env r = some (reach, groups) ∧
      q = { signal := .metric, reach := reach, metricName := r.spec.metricName,
            attrs := alertAttrsToStore r.spec.attrs, splitBy := r.spec.splitBy,
            groups := groups } := by
  unfold metricQueries at h
  split at h
  · cases h
  split at h
  · cases h
  · rename_i reach groups hscope
    exact ⟨reach, groups, hscope, List.mem_singleton.1 h⟩

theorem mem_logQueries (h : q ∈ logQueries c env r) : ∃ spec reach groups,
      r.logSpec = some spec ∧ logScope c env r = some (reach, groups) ∧
      q = { signal := .log, reach := reach, attrs := alertAttrsToStore spec.attrs,
            groups := groups } := by
  unfold logQueries at h
  split at h
  · rename_i spec reach groups hspec hscope
    exact ⟨spec, reach, groups, hspec, hscope, List.mem_singleton.1 h⟩
  · cases h

theorem mem_traceQueries {attrs : Option (List Alerting.AttrFilter)}
    (h : q ∈ traceQueries c env r attrs) : ∃ as svcs groups,
      attrs = some as ∧ traceScope c env r = some (svcs, groups) ∧
      q = { signal := .trace, reach := .only svcs, attrs := alertAttrsToStore as,
            groups := groups } := by
  unfold traceQueries at h
  split at h
  · rename_i as svcs groups hscope
    exact ⟨as, svcs, groups, rfl, hscope, List.mem_singleton.1 h⟩
  · cases h

theorem mem_conditionKeys (hmetric : q.metricName = "") (hsplit : q.splitBy = "")
    (hattrs : q.attrs = alertAttrsToStore attrs) (hk : k ∈ q.ownKeys w) (hne : k ≠ "") :
    k = w.environment.key ∨ k ∈ (attrKeys attrs).filter (· ≠ "") := by
  simp only [ownKeys, hmetric, hsplit, hattrs, List.cons_append, List.mem_cons,
    List.mem_append] at hk
  rcases hk with hname | hconditions | hempty
  · exact absurd hname hne
  · exact mem_specKeys hconditions hne
  · exact (mem_exprKeys hempty).imp_right fun hkey => absurd hkey.1 hne

theorem eq_environment_of_noConditions (hmetric : q.metricName = "") (hsplit : q.splitBy = "")
    (hattrs : q.attrs = alertAttrsToStore []) (hk : k ∈ q.ownKeys w) (hne : k ≠ "") :
    k = w.environment.key :=
  (mem_conditionKeys hmetric hsplit hattrs hk hne).resolve_right List.not_mem_nil

/-- The query of a trace rule is that of a span attribute check, or of an error check, or of a
check with no condition of its own. -/
theorem mem_traceRuleQueries (hsignal : r.signal = .trace) (h : q ∈ ruleQueries c env r) :
    q ∈ traceAttributeQueries c env r ∨ ∃ attrs, q ∈ traceQueries c env r attrs ∧
      (attrs = (r.traceErrorSpec.map fun s => s.attrs) ∨ ∀ as, attrs = some as → as = []) := by
  have hnone : ∀ {σ : Type} (spec : Option σ) (as : List Alerting.AttrFilter),
      (spec.map fun _ => ([] : List Alerting.AttrFilter)) = some as → as = [] := by
    intro σ spec as has
    cases spec with
    | none => cases has
    | some _ => exact (Option.some.inj has).symm
  simp only [ruleQueries, hsignal, List.mem_append] at h
  rcases h with ((herror | hattribute) | hlatency) | hvolume
  · exact .inr ⟨_, herror, .inl rfl⟩
  · exact .inl hattribute
  · exact .inr ⟨_, hlatency, .inr (hnone _)⟩
  · exact .inr ⟨_, hvolume, .inr (hnone _)⟩

theorem traceRule_scope (hsignal : r.signal = .trace) (h : q ∈ ruleQueries c env r) :
    q.signal = .trace ∧ ∃ svcs, q.reach = .only svcs ∧
      traceScope c env r = some (svcs, q.groups) := by
  have hquery : ∃ attrs, q ∈ traceQueries c env r attrs := by
    rcases mem_traceRuleQueries hsignal h with hattribute | ⟨attrs, hq, _⟩
    · exact ⟨_, hattribute⟩
    · exact ⟨attrs, hq⟩
  obtain ⟨attrs, hq⟩ := hquery
  obtain ⟨as, svcs, groups, _, hscope, rfl⟩ := mem_traceQueries hq
  exact ⟨rfl, svcs, rfl, hscope⟩

/-- Every query of a rule stays in the scopes the rule is recorded under, but for a second
binding and for the services of a source. -/
theorem ruleQueries_within (h : q ∈ ruleQueries c env r) :
    TwoBindings r ∨ OutsideMembers c r q.reach ∨ q.reach.Within (ruleScopes c r) := by
  cases hsignal : r.signal with
  | metric =>
    simp only [ruleQueries, hsignal] at h
    obtain ⟨reach, groups, hscope, rfl⟩ := mem_metricQueries h
    exact metricScope_within hscope
  | log =>
    simp only [ruleQueries, hsignal] at h
    obtain ⟨_, reach, groups, _, hscope, rfl⟩ := mem_logQueries h
    exact logScope_within hscope
  | trace =>
    obtain ⟨_, svcs, hreach, hscope⟩ := traceRule_scope hsignal h
    rw [hreach]
    exact (traceScope_within hscope).imp_right .inr

/-- Every key of a rule's own is recorded for it, but for the conditions of a span attribute
check. -/
theorem ruleQueries_ownKeys (h : q ∈ ruleQueries c env r) (hk : k ∈ q.ownKeys w) (hne : k ≠ "") :
    (r.signal = .trace ∧ q ∈ traceAttributeQueries c env r) ∨ k = w.environment.key ∨
      (q.signal = ruleSignal r ∧ k ∈ ruleKeys r) := by
  cases hsignal : r.signal with
  | metric =>
    simp only [ruleQueries, hsignal] at h
    obtain ⟨reach, groups, _, rfl⟩ := mem_metricQueries h
    right
    simp only [ruleSignal, ruleKeys, hsignal, true_and, List.mem_cons]
    simp only [ownKeys, List.cons_append, List.mem_cons, List.mem_append] at hk
    rcases hk with hname | hattrs | hsplit
    · exact .inr (.inl hname)
    · exact (mem_specKeys hattrs hne).imp_right fun hkey => .inr (.inr hkey)
    · exact (mem_exprKeys hsplit).imp_right fun hkey => .inr (.inl hkey.1)
  | log =>
    simp only [ruleQueries, hsignal] at h
    obtain ⟨spec, reach, groups, hspec, _, rfl⟩ := mem_logQueries h
    right
    simp only [ruleSignal, ruleKeys, hsignal, hspec, true_and, List.mem_cons]
    exact (mem_conditionKeys rfl rfl rfl hk hne).imp_right .inr
  | trace =>
    rcases mem_traceRuleQueries hsignal h with hattribute | ⟨attrs, hq, hattrs⟩
    · exact .inl ⟨rfl, hattribute⟩
    right
    rcases hattrs with herror | hnone
    · obtain ⟨as, svcs, groups, has, _, rfl⟩ := mem_traceQueries hq
      have hspec : (r.traceErrorSpec.map fun s => s.attrs) = some as := herror.symm.trans has
      simp only [ruleSignal, ruleKeys, hsignal, hspec, true_and, List.mem_cons]
      exact (mem_conditionKeys rfl rfl rfl hk hne).imp_right .inr
    · obtain ⟨as, svcs, groups, has, _, rfl⟩ := mem_traceQueries hq
      obtain rfl := hnone as has
      exact .inl (eq_environment_of_noConditions rfl rfl rfl hk hne)

end Rules

/-! ## Every read is covered or forgotten -/

section Main

variable {F : Type} {w : World F} {c : Config} {q : Query} {ρ : Read} {i : Integration}
  {filters : List Messageviews.Filter} {fromView : Option (List Integrations.MessageColumn)}
  {s : Search} {env : Option String} {k : String} {r : AlertRule}

theorem rule_ownReads (hr : r ∈ c.rules) (henv : env ∈ w.turns r) (hq : q ∈ ruleQueries c env r)
    (hρ : ρ ∈ q.ownReads w) : Forgotten w c ρ ∨ Covered (Named c) ρ := by
  obtain ⟨hsignal, hreach, hkey, hne⟩ := mem_readsOf.1 hρ
  rcases ruleQueries_ownKeys hq hkey hne with ⟨htrace, hattribute⟩ | hconf | ⟨hq', hrule⟩
  · exact .inl (.traceAttribute hr htrace henv hattribute hρ)
  · exact .inl (.environment (.rule hr henv hq (mem_reads.2 (.inl hρ))) hconf)
  rcases ruleQueries_within hq with htwo | houtside | hwithin
  · exact .inl (.twoBindings hr htwo henv hq hρ)
  · exact .inl (.sourceServices hr henv hq houtside hρ)
  · right
    rw [← hreach] at hwithin
    refine covered_of_within hwithin fun svc hsvc => ?_
    rw [hsignal, hq']
    exact .rule hr hsvc hrule

theorem covered_groupReads (hsignal : q.signal = .trace) (hgroups : q.groups = [] ∨ ∃ env id,
      q.groups = contextEnvironmentGroups env (matcherGroups c id)) (hρ : ρ ∈ q.groupReads w) :
    ρ.key = w.environment.key ∨ Covered (Named c) ρ := by
  obtain ⟨htrace, _, hkey, hne⟩ := mem_readsOf.1 hρ
  rcases hgroups with hnil | ⟨env, id, hgroups⟩
  · rw [groupKeys, hnil] at hkey
    cases hkey
  · refine (named_of_groupKeys hgroups hkey hne).imp_right fun hnamed => covered_of_org ?_
    rw [htrace, hsignal]
    exact hnamed

theorem rule_groupReads (hr : r ∈ c.rules) (henv : env ∈ w.turns r) (hq : q ∈ ruleQueries c env r)
    (hρ : ρ ∈ q.groupReads w) : Forgotten w c ρ ∨ Covered (Named c) ρ := by
  by_cases hsignal : r.signal = .trace
  · obtain ⟨htrace, svcs, _, hscope⟩ := traceRule_scope hsignal hq
    have hgroups : q.groups = [] ∨ ∃ env id,
        q.groups = contextEnvironmentGroups env (matcherGroups c id) :=
      (traceScope_groups hscope).imp_right fun ⟨id, h⟩ => ⟨env, id, h⟩
    exact (covered_groupReads htrace hgroups hρ).imp_left
      (.environment (.rule hr henv hq (mem_reads.2 (.inr hρ))))
  · exact .inl (.checkConditions hr hsignal henv hq hρ)

theorem slice_ownKeys (h : q ∈ sliceQueries c i) (hk : k ∈ q.ownKeys w) (hne : k ≠ "") :
    k = w.environment.key := by
  have hquery : ∃ signal slice, q ∈ sliceQuery signal slice := by
    simp only [sliceQueries, List.mem_append] at h
    rcases h with (htrace | hmetric) | hlog
    · exact ⟨_, _, htrace⟩
    · exact ⟨_, _, hmetric⟩
    · exact ⟨_, _, hlog⟩
  obtain ⟨signal, slice, hq⟩ := hquery
  unfold sliceQuery at hq
  split at hq
  · cases hq
  · rw [List.mem_singleton.1 hq] at hk
    exact eq_environment_of_noConditions rfl rfl rfl hk hne

theorem slice_groups (h : q ∈ sliceQueries c i) (hsignal : q.signal = .trace) :
    q.groups = matcherGroups c i.id := by
  simp only [sliceQueries, sliceQuery, List.mem_append] at h
  rcases h with (htrace | hmetric) | hlog
  · split at htrace
    · cases htrace
    · rw [List.mem_singleton.1 htrace]
  · split at hmetric
    · cases hmetric
    · rw [List.mem_singleton.1 hmetric] at hsignal
      cases hsignal
  · split at hlog
    · cases hlog
    · rw [List.mem_singleton.1 hlog] at hsignal
      cases hsignal

theorem slice_reads (hi : i ∈ c.integrations) (hq : q ∈ sliceQueries c i) (hρ : ρ ∈ q.reads w) :
    Forgotten w c ρ ∨ Covered (Named c) ρ := by
  rcases mem_reads.1 hρ with hown | hgroup
  · obtain ⟨_, _, hkey, hne⟩ := mem_readsOf.1 hown
    exact .inl (.environment (.slice hi hq hρ) (slice_ownKeys hq hkey hne))
  by_cases hsignal : q.signal = .trace
  · have hgroups : q.groups = [] ∨ ∃ env id,
        q.groups = contextEnvironmentGroups env (matcherGroups c id) :=
      .inr ⟨none, i.id, slice_groups hq hsignal⟩
    exact (covered_groupReads hsignal hgroups hgroup).imp_left (.environment (.slice hi hq hρ))
  · exact .inl (.pageConditions hi hq hsignal hgroup)

/-! ### Searches -/

theorem integrationSearch_eq_some {plan : Messageviews.SQL}
    (h : integrationSearch? w c filters fromView plan = some s) :
    s.keys = plan.keys ∧
      s.groups = ((c.integrations.find? fun i => i.name = plan.integrationName).map
        fun i => matcherGroups c i.id).getD [] := by
  simp only [integrationSearch?, Option.ite_none_left_eq_some] at h
  cases h.2
  exact ⟨rfl, rfl⟩

theorem search_groups (h : search? w c filters fromView = some s) :
    s.groups = [] ∨ ∃ env id, s.groups = contextEnvironmentGroups env (matcherGroups c id) := by
  unfold search? at h
  split at h
  · cases h
  rename_i plan _
  split at h
  · rw [(integrationSearch_eq_some h).2]
    cases c.integrations.find? fun i => i.name = plan.integrationName with
    | none => exact .inl rfl
    | some i => exact .inr ⟨none, i.id, rfl⟩
  · cases h
    exact .inl rfl

theorem search_keys (h : search? w c filters fromView = some s) (hk : k ∈ s.keys) :
    ∃ f ∈ filters, f.Names k := by
  unfold search? at h
  split at h
  · cases h
  rename_i plan hplan
  refine Messageviews.mem_keys_build hplan ?_
  split at h
  · rwa [← (integrationSearch_eq_some h).1]
  · cases h
    exact hk

theorem search_groupReads (h : search? w c filters fromView = some s) (hρ : ρ ∈ s.groupReads w) :
    ρ.key = w.environment.key ∨ Covered (Named c) ρ := by
  rcases mem_reads.1 hρ with hown | hgroup
  · obtain ⟨_, _, hkey, hne⟩ := mem_readsOf.1 hown
    exact .inl (eq_environment_of_noConditions rfl rfl rfl hkey hne)
  · exact covered_groupReads rfl (search_groups h) hgroup

theorem view_reads {v : View} (hv : v ∈ c.views)
    (hs : search? w c v.filters v.messageColumns = some s) (hρ : ρ ∈ s.reads w) :
    Forgotten w c ρ ∨ Covered (Named c) ρ := by
  rcases List.mem_append.1 hρ with hfind | hcolumn
  · rcases List.mem_append.1 hfind with hrow | hgroup
    · obtain ⟨hsignal, _, hkey, hne⟩ := mem_readsOf.1 hrow
      obtain ⟨f, hf, ⟨hfield, hpath, _⟩ | ⟨_, hexception⟩⟩ := search_keys hs hkey
      · refine .inr (covered_of_org ?_)
        rw [hsignal, ← hpath]
        exact .view hv hf hfield (hpath ▸ hne)
      · exact .inl (.errorType hv hs hrow hexception)
    · exact (search_groupReads hs hgroup).imp_left (.environment (.view hv hs hρ))
  · exact .inl (.viewColumns hv hs hcolumn)

theorem messages_reads (hi : i ∈ c.integrations)
    (hs : search? w c [integrationFilter i] none = some s) (hρ : ρ ∈ s.reads w) :
    Forgotten w c ρ ∨ Covered (Named c) ρ := by
  rcases List.mem_append.1 hρ with hfind | hcolumn
  · rcases List.mem_append.1 hfind with hrow | hgroup
    · obtain ⟨_, _, hkey, _⟩ := mem_readsOf.1 hrow
      obtain ⟨f, hf, hnames⟩ := search_keys hs hkey
      rw [List.mem_singleton.1 hf] at hnames
      -- the page's one row is on the integration
      rcases hnames with ⟨hfield, _⟩ | ⟨hfield, _⟩ <;> cases hfield
    · exact (search_groupReads hs hgroup).imp_left (.environment (.messages hi hs hρ))
  · exact .inl (.columns hi hs hcolumn)

theorem covered_mappingReads {m : Mapping} (hm : m ∈ c.mappings) (hρ : ρ ∈ mappingReads m) :
    Covered (Named c) ρ := by
  have hread : ρ ∈ readsOf .trace (.only [m.serviceName]) [m.attributeKey] := by
    unfold mappingReads at hρ
    split at hρ
    · cases hρ
    · exact hρ
  obtain ⟨hsignal, hreach, hkey, hne⟩ := mem_readsOf.1 hread
  rw [Covered, hreach]
  intro svc hsvc
  rw [List.mem_singleton.1 hsvc, hsignal, List.mem_singleton.1 hkey]
  rw [List.mem_singleton.1 hkey] at hne
  exact .inr (.mapping hm hne)

/-- **Every read is forgotten or covered** by what the sweep records. -/
theorem forgotten_or_covered (h : Reads w c ρ) : Forgotten w c ρ ∨ Covered (Named c) ρ := by
  cases h with
  | rule hr henv hq hρ =>
    rcases mem_reads.1 hρ with hown | hgroup
    · exact rule_ownReads hr henv hq hown
    · exact rule_groupReads hr henv hq hgroup
  | slice hi hq hρ => exact slice_reads hi hq hρ
  | sourceMetric hi hs hname => exact .inl (.sourceMetric hi hs hname)
  | messages hi hs hρ => exact messages_reads hi hs hρ
  | view hv hs hρ => exact view_reads hv hs hρ
  | mapping hm hρ => exact .inr (covered_mappingReads hm hρ)

theorem Search.mem_reads_of_column (h : ρ ∈ s.columnReads) :
    ρ ∈ s.reads w := List.mem_append_right _ h

theorem Search.mem_reads_of_row (h : ρ ∈ s.rowReads) : ρ ∈ s.reads w :=
  List.mem_append_left _ (List.mem_append_left _ h)

theorem Forgotten.reads (h : Forgotten w c ρ) : Reads w c ρ := by
  cases h with
  | @traceAttribute r env q ρ hr hsignal henv hq hρ =>
    have hq' : q ∈ ruleQueries c env r := by
      simp only [ruleQueries, hsignal, List.mem_append]
      exact .inl (.inl (.inr hq))
    exact .rule hr henv hq' (mem_reads.2 (.inl hρ))
  | twoBindings hr _ henv hq hρ | sourceServices hr henv hq _ hρ =>
    exact .rule hr henv hq (mem_reads.2 (.inl hρ))
  | checkConditions hr _ henv hq hρ => exact .rule hr henv hq (mem_reads.2 (.inr hρ))
  | pageConditions hi hq _ hρ => exact .slice hi hq (mem_reads.2 (.inr hρ))
  | sourceMetric hi hs hname => exact .sourceMetric hi hs hname
  | columns hi hs hρ => exact .messages hi hs (Search.mem_reads_of_column hρ)
  | viewColumns hv hs hρ => exact .view hv hs (Search.mem_reads_of_column hρ)
  | errorType hv hs hρ _ => exact .view hv hs (Search.mem_reads_of_row hρ)
  | environment hρ _ => exact hρ

/-- What is demanded once a successful sweep has run: what was demanded, and what the
configuration names where the sweep looks. -/
theorem covered_runOnce {faults : Listing → Option String} {sent : Bool} {day : Nat}
    {cell : Cell} (h : Succeeds faults c sent day cell) (ρ : Read) :
    Covered (runOnce faults c sent day cell).ledger.Demands ρ ↔
      Covered (fun signal svc key => cell.Holds signal svc key ∨ Named c signal svc key) ρ :=
  covered_congr (demands_runOnce h) ρ

end Main

/-! ## Reachable configurations -/

/-- The configuration that a run of writes leaves, from the one of a new organisation. -/
def reached (checks : Checks) (ws : List Write) : Config :=
  run (Config.write checks) Config.empty ws

/-- **What a successful sweep leaves undemanded.**  Whatever was written, after a successful
sweep every key that a stored object reads is demanded for every service it is read from if
and only if the ledger, the writer or an object the sweep walks demands what it forgets. -/
theorem reads_demanded_iff {F : Type} (w : World F) (checks : Checks) (ws : List Write)
    {faults : Listing → Option String} {sent : Bool} {day : Nat} {cell : Cell}
    (h : Succeeds faults (reached checks ws) sent day cell) :
    (∀ ρ, Reads w (reached checks ws) ρ →
      Covered (runOnce faults (reached checks ws) sent day cell).ledger.Demands ρ) ↔
    ∀ ρ, Forgotten w (reached checks ws) ρ →
      Covered (fun signal svc key => cell.Holds signal svc key ∨
        Named (reached checks ws) signal svc key) ρ := by
  simp only [covered_runOnce h]
  constructor
  · exact fun hall ρ hρ => hall ρ hρ.reads
  · intro hall ρ hρ
    rcases forgotten_or_covered hρ with hforgotten | hcovered
    · exact hall ρ hforgotten
    · exact hcovered.mono fun _ _ _ => .inr

private def noLibraries : Checks where
  parsers := {
    parseUUID := fun _ => none
    parseDuration := fun _ => none
    validateTemplate := fun _ => none
    validateLiquid := fun _ => none }
  constraints := {
    admitsRule := fun _ => true
    admitsRoute := fun _ => true }
  compile := fun _ => none
  parseFloat := fun _ => false

private def wholeScope : World Nat where
  environment := { key := "deployment.environment", aliases := [] }
  engine := {
    regex := fun _ _ => false
    parseFloat := fun _ => none
    toFloat64OrNull := fun _ => none
    compare := fun _ _ _ => false }
  equalFold := fun s t => s = t
  turns := fun _ => [none]

private def topicFacet : Mapping where
  id := 3
  serviceName := "orders"
  attributeSource := .span
  attributeKey := "messaging.destination.name"
  matchOperator := .exists
  setIOKind := "queue"
  setIORole := "input"

private theorem reached_topicFacet :
    reached noLibraries [.createMapping topicFacet] =
      { Config.empty with mappings := [topicFacet] } := by rfl

/-- With nothing stored but a facet mapping, nothing is forgotten. -/
theorem topicFacet_demanded :
    Succeeds (fun _ => none) (reached noLibraries [.createMapping topicFacet]) true 20 {} ∧
      ∀ ρ, Reads wholeScope (reached noLibraries [.createMapping topicFacet]) ρ →
        Covered (runOnce (fun _ => none) (reached noLibraries [.createMapping topicFacet]) true
          20 {}).ledger.Demands ρ := by
  have hsweep : Succeeds (fun _ => none) (reached noLibraries [.createMapping topicFacet]) true
      20 {} := ⟨fun _ => rfl, by decide +kernel, by decide +kernel⟩
  refine ⟨hsweep, (reads_demanded_iff wholeScope noLibraries [.createMapping topicFacet]
    hsweep).2 ?_⟩
  rw [reached_topicFacet]
  intro ρ hρ
  have hkey : ρ.key = "deployment.environment" → ¬ Reads wholeScope
      { Config.empty with mappings := [topicFacet] } ρ := by
    intro hkey hread
    cases hread with
    | rule hr | slice hi | sourceMetric hi | messages hi | view hv => contradiction
    | mapping hm hρ =>
      rw [List.mem_singleton.1 hm] at hρ
      rw [List.mem_singleton.1 hρ] at hkey
      exact absurd hkey (by decide)
  cases hρ with
  | environment hread henv => exact absurd hread (hkey henv)
  | traceAttribute hr | twoBindings hr | sourceServices hr | checkConditions hr => contradiction
  | pageConditions hi | sourceMetric hi | columns hi => contradiction
  | viewColumns hv | errorType hv => contradiction

private def cardPayments : Api.AlertRuleRequest where
  name := "card payments"
  signal := "trace"
  serviceName := "checkout"
  traceAttributeSpec := some {
    threshold := 1
    windowSeconds := 300
    attrs := [{ key := "payment.method", op := "eq", value := "card" }] }

/-- The method of the payment is read of the service's spans, and nothing demands it. -/
theorem cardPayments_not_demanded :
    ∃ ρ, Succeeds (fun _ => none) (reached noLibraries [.createRule 7 20 cardPayments]) true 20 {} ∧
      Reads wholeScope (reached noLibraries [.createRule 7 20 cardPayments]) ρ ∧
      ¬ Covered (runOnce (fun _ => none) (reached noLibraries [.createRule 7 20 cardPayments])
        true 20 {}).ledger.Demands ρ := by
  refine ⟨⟨.trace, "payment.method", .only ["checkout"]⟩,
    ⟨fun _ => rfl, by decide +kernel, by decide +kernel⟩, ?_, ?_⟩
  · have hread : ∃ r ∈ (reached noLibraries [.createRule 7 20 cardPayments]).rules,
        ∃ q ∈ ruleQueries (reached noLibraries [.createRule 7 20 cardPayments]) none r,
          ⟨.trace, "payment.method", .only ["checkout"]⟩ ∈ q.reads wholeScope := by
      decide +kernel
    obtain ⟨r, hr, q, hq, hρ⟩ := hread
    exact .rule hr (List.mem_singleton_self none) hq hρ
  · intro hcovered
    have hledger : (runOnce (fun _ => none) (reached noLibraries [.createRule 7 20 cardPayments])
        true 20 {}).ledger = [(⟨20, 1, .trace, "checkout", "", .rule⟩, 1)] := by
      decide +kernel
    have hkey : ∀ svc, ¬ Counts.Demands [(⟨20, 1, .trace, "checkout", "", .rule⟩, 1)] .trace svc
        "payment.method" := by
      rintro svc ⟨b, hb, _, _, _, hb', _⟩
      rw [List.mem_singleton.1 hb] at hb'
      exact absurd hb' (by decide)
    rw [hledger] at hcovered
    rcases hcovered "checkout" (List.mem_singleton_self _) with horg | hsvc
    · exact hkey _ horg
    · exact hkey _ hsvc

end Sluicio.Demand
