import Sluicio.Demand.Sweep

/-!
# What the sweep covers

A read is covered when its key is named for every service it is read from, or for the whole
organisation.  The keys a condition reads are its own, or the attribute of the environment;
the services a rule is evaluated on are within the scopes the sweep records it under, unless
the rule is bound twice or its integration reads a source outside its members.
-/

namespace Sluicio.Demand

open Lib Store
open Alerting.Store (AlertRule)
open Integrations (attrGroupsFromMatchers)
open Store (LogAttrFilter)

def Covered (names : Signal → String → String → Prop) (ρ : Read) : Prop :=
  match ρ.reach with
  | .all => names ρ.signal "" ρ.key
  | .only svcs => ∀ svc ∈ svcs, names ρ.signal "" ρ.key ∨ names ρ.signal svc ρ.key

variable {ρ : Read} {P : Signal → String → String → Prop} {f : LogAttrFilter}
  {g : List LogAttrFilter} {reach : Reach} {Q : Signal → String → String → Prop}

theorem Covered.mono (h : ∀ signal svc key, P signal svc key → Q signal svc key)
    (hρ : Covered P ρ) : Covered Q ρ := by
  unfold Covered at hρ ⊢
  cases hreach : ρ.reach with
  | all =>
    rw [hreach] at hρ
    exact h _ _ _ hρ
  | only svcs =>
    rw [hreach] at hρ
    exact fun svc hsvc => (hρ svc hsvc).imp (h _ _ _) (h _ _ _)

theorem covered_congr (h : ∀ signal svc key, P signal svc key ↔ Q signal svc key) (ρ : Read) :
    Covered P ρ ↔ Covered Q ρ :=
  ⟨Covered.mono fun _ _ _ => (h _ _ _).1, Covered.mono fun _ _ _ => (h _ _ _).2⟩

theorem covered_of_org (h : P ρ.signal "" ρ.key) : Covered P ρ := by
  unfold Covered
  cases ρ.reach with
  | all => exact h
  | only svcs => exact fun _ _ => .inl h

/-- The services are among the scopes, or the whole organisation is. -/
def Reach.Within (reach : Reach) (scopes : List String) : Prop :=
  "" ∈ scopes ∨ ∃ svcs, reach = .only svcs ∧ ∀ svc ∈ svcs, svc ∈ scopes

theorem covered_of_within {scopes : List String} (hreach : ρ.reach.Within scopes)
    (h : ∀ svc ∈ scopes, P ρ.signal svc ρ.key) : Covered P ρ := by
  rcases hreach with horg | ⟨svcs, hsvcs, hall⟩
  · exact covered_of_org (h "" horg)
  · unfold Covered
    rw [hsvcs]
    exact fun svc hsvc => .inr (h svc (hall svc hsvc))

/-! ## The keys a condition reads -/

section Keys

variable {F : Type} {w : World F} {table : Store.PrimaryMap} {k key : String}

theorem mem_exprKeys (h : k ∈ exprKeys (attrExpr w.environment table key)) :
    k = w.environment.key ∨
      (k = key ∧ key ≠ serviceNameAttrKey ∧ key ≠ environmentAttrKey) := by
  unfold attrExpr at h
  split at h
  · exact .inl (List.mem_singleton.1 h)
  split at h
  · cases h
  split at h
  · cases h
  split at h
  · cases h
  · rename_i henv _ _ hsvc
    exact .inr ⟨List.mem_singleton.1 h, hsvc, henv⟩

theorem mem_presenceKeys {e : Store.Expr} (he : presenceExpr w.environment table key = some e)
    (h : k ∈ exprKeys e) : k = w.environment.key := by
  unfold presenceExpr at he
  split at he
  · cases he
    exact List.mem_singleton.1 h
  split at he
  · cases he
    cases h
  split at he
  · cases he
    cases h
  · cases he

/-- What `exists` and `not_exists` look up in the maps. -/
theorem of_presenceExpr_eq_none (h : presenceExpr w.environment table key = none) :
    key ≠ serviceNameAttrKey ∧ key ≠ environmentAttrKey := by
  unfold presenceExpr at h
  constructor
  · rintro rfl
    rw [if_neg (by decide), if_pos rfl] at h
    cases h
  · rintro rfl
    rw [if_pos rfl] at h
    cases h

theorem mem_numberKeys {op : Store.NumOp} {value : String}
    (h : k ∈ condKeys (match w.engine.parseFloat value with
      | none => (.never : Store.Cond (Store.Arg F))
      | some n => .number op (attrExpr w.environment table key) (.number n))) :
    k ∈ exprKeys (attrExpr w.environment table key) := by
  cases hn : w.engine.parseFloat value with
  | none =>
    rw [hn] at h
    cases h
  | some n =>
    rw [hn] at h
    exact h

theorem mem_filterKeys {signal : Signal} {f : LogAttrFilter} (h : k ∈ filterKeys w signal f) :
    k = w.environment.key ∨
      (k = f.key ∧ f.key ≠ serviceNameAttrKey ∧ f.key ≠ environmentAttrKey) := by
  unfold filterKeys attrCond at h
  cases hop : f.op with
  | present | absent =>
    simp only [hop] at h
    cases he : presenceExpr w.environment (primaryMap signal) f.key with
    | some e =>
      rw [he] at h
      exact .inl (mem_presenceKeys he h)
    | none =>
      rw [he] at h
      exact .inr ⟨List.mem_singleton.1 h, of_presenceExpr_eq_none he⟩
  | gt | gte | lt | lte =>
    simp only [hop] at h
    exact mem_exprKeys (mem_numberKeys h)
  | unknown op =>
    simp only [hop] at h
    cases h
  | eq | neq | contains | notContains | startsWith | endsWith | regex =>
    simp only [hop] at h
    exact mem_exprKeys h

end Keys

variable {c : Config}

theorem mem_attrGroupsFromMatchers {ms : List Integrations.GroupedMatcher}
    {mode : Integrations.RuleMatch} (hg : g ∈ attrGroupsFromMatchers ms mode) (hf : f ∈ g) :
    ∃ m ∈ ms, f.key = m.attr := by
  obtain ⟨n, _, rfl⟩ := List.mem_map.1 hg
  obtain ⟨m, hm, rfl⟩ := List.mem_map.1 hf
  exact ⟨m, (List.mem_filter.1 hm).1, rfl⟩

variable {id : UUID} {env : Option String} {groups : List (List LogAttrFilter)} {r : AlertRule}
  {svcs : List String}

theorem mem_matcherGroups (hg : g ∈ matcherGroups c id) (hf : f ∈ g) :
    ∃ i ∈ c.integrations, ∃ m ∈ i.matchers, f.key = m.attr := by
  unfold matcherGroups at hg
  split at hg
  · cases hg
  · rename_i i hi
    exact ⟨i, List.mem_of_find?_eq_some hi, mem_attrGroupsFromMatchers hg hf⟩

theorem mem_contextEnvironmentGroups (hg : g ∈ contextEnvironmentGroups env groups) (hf : f ∈ g) :
    f.key = environmentAttrKey ∨ ∃ g' ∈ groups, f ∈ g' := by
  have hadded : ∀ {value : String} (g : List LogAttrFilter),
      (Integrations.environmentFilter .eq value g).key = environmentAttrKey := by
    intro value g
    cases g <;> rfl
  cases env with
  | none => exact .inr ⟨g, hg, hf⟩
  | some env =>
    replace hg : g ∈ Integrations.narrowed .eq env groups := hg
    unfold Integrations.narrowed at hg
    split at hg
    · rw [List.mem_singleton.1 hg] at hf
      rw [List.mem_singleton.1 hf]
      exact .inl (hadded _)
    obtain ⟨g', hg', rfl⟩ := List.mem_map.1 hg
    rcases List.mem_append.1 hf with hold | hnew
    · exact .inr ⟨g', hg', hold⟩
    · rw [List.mem_singleton.1 hnew]
      exact .inl (hadded _)

theorem named_of_groupKeys {F : Type} {w : World F} {q : Query}
    (hgroups : q.groups = contextEnvironmentGroups env (matcherGroups c id)) {k : String}
    (hk : k ∈ q.groupKeys w) (hne : k ≠ "") : k = w.environment.key ∨ Named c .trace "" k := by
  obtain ⟨g, hg, hk⟩ := List.mem_flatMap.1 hk
  obtain ⟨f, hf, hk⟩ := List.mem_flatMap.1 hk
  rcases mem_filterKeys hk with henv | ⟨rfl, hsvc, henv⟩
  · exact .inl henv
  rcases mem_contextEnvironmentGroups (hgroups ▸ hg) hf with hadded | ⟨g', hg', hf'⟩
  · exact absurd hadded henv
  obtain ⟨i, hi, m, hm, hkey⟩ := mem_matcherGroups hg' hf'
  have hattr : m.isServiceMatcher = false := by
    rw [hkey] at hne hsvc
    have hsvc' : m.attr ≠ "service.name" := hsvc
    simp [Integrations.Matcher.isServiceMatcher, hne, hsvc']
  rw [hkey]
  exact .inr (.matcher hi hm hattr)

/-! ## The services of a rule -/

/-- The rule is bound twice: to a service and to an integration or a system, or to both of
these. -/
def TwoBindings (r : AlertRule) : Prop :=
  (r.serviceName ≠ "" ∧ (r.integrationID ≠ none ∨ r.systemID ≠ none)) ∨
    (r.integrationID ≠ none ∧ r.systemID ≠ none)

/-- The check reads a service that is no member of its integration. -/
def OutsideMembers (c : Config) (r : AlertRule) (reach : Reach) : Prop :=
  ∃ id svcs, r.integrationID = some id ∧ reach = .only svcs ∧
    ∃ svc ∈ svcs, svc ∉ c.catalog.attached id

/-- The scopes the sweep records a rule under. -/
def ruleScopes (c : Config) (r : AlertRule) : List String :=
  scopeServices c.catalog r.serviceName r.integrationID

theorem within_unbound (hservice : r.serviceName = "") (hintegration : r.integrationID = none)
    (reach : Reach) : reach.Within (ruleScopes c r) := by
  left
  rw [ruleScopes, scopeServices, hintegration, hservice]
  exact List.mem_singleton_self _

theorem within_service (hservice : r.serviceName ≠ "") (h : ∀ svc ∈ svcs, svc = r.serviceName) :
    (Reach.only svcs).Within (ruleScopes c r) := by
  refine .inr ⟨svcs, rfl, fun svc hsvc => ?_⟩
  rw [ruleScopes, scopeServices, if_pos hservice]
  exact List.mem_singleton.2 (h svc hsvc)

theorem within_members (hservice : r.serviceName = "") (hid : r.integrationID = some id)
    (h : ∀ svc ∈ svcs, svc ∈ c.catalog.attached id) :
    (Reach.only svcs).Within (ruleScopes c r) := by
  rw [ruleScopes, scopeServices, if_neg (by simp [hservice]), hid]
  cases hquery : c.catalog.integrationServices id with
  | error e =>
    left
    simp [hquery]
  | ok names =>
    have hnames : names = c.catalog.attached id := by
      simp only [Catalog.integrationServices, wrapErr_eq_ok, readRows_eq_ok] at hquery
      exact hquery.2.symm
    cases hcases : names with
    | nil =>
      left
      simp [hquery, hcases]
    | cons svc rest =>
      right
      refine ⟨svcs, rfl, fun svc' hsvc' => ?_⟩
      have := h svc' hsvc'
      rw [← hnames, hcases] at this
      simpa [hquery, hcases] using this

theorem outside_or_within (hservice : r.serviceName = "") (hid : r.integrationID = some id) :
    OutsideMembers c r (.only svcs) ∨ (Reach.only svcs).Within (ruleScopes c r) := by
  by_cases hall : ∀ svc ∈ svcs, svc ∈ c.catalog.attached id
  · exact .inr (within_members hservice hid hall)
  · push Not at hall
    exact .inl ⟨id, svcs, hid, rfl, hall⟩

theorem attached_of_scope {scope : List String × List (List LogAttrFilter)}
    (h : integrationCheckScope c env id = scope) {svc : String} (hsvc : svc ∈ scope.1) :
    svc ∈ c.catalog.attached id := by
  subst h
  unfold integrationCheckScope at hsvc
  split at hsvc
  · cases hsvc
  · exact hsvc

theorem oneBinding (h : ¬ TwoBindings r) :
    (r.serviceName = "" ∧ r.integrationID = none) ∨
      (r.systemID = none ∧ r.integrationID = none) ∨
      (r.systemID = none ∧ r.serviceName = "" ∧ ∃ id, r.integrationID = some id) := by
  unfold TwoBindings at h
  cases hsys : r.systemID <;> cases hid : r.integrationID <;> simp [hsys, hid] at h ⊢
  · exact h
  · exact h

/-- A check with one binding: what is left to see is where it is bound to a service, and where to
an integration. -/
theorem scope_within {Q : Prop}
    (hbound : r.systemID = none → r.integrationID = none → r.serviceName ≠ "" →
      reach = .only [r.serviceName])
    (hmember : ∀ id, r.systemID = none → r.serviceName = "" → r.integrationID = some id →
      Q ∨ reach.Within (ruleScopes c r)) :
    TwoBindings r ∨ Q ∨ reach.Within (ruleScopes c r) := by
  by_cases htwo : TwoBindings r
  · exact .inl htwo
  right
  rcases oneBinding htwo with ⟨hservice, hid⟩ | ⟨hsys, hid⟩ | ⟨hsys, hservice, id, hid⟩
  · exact .inr (within_unbound hservice hid reach)
  · by_cases hservice : r.serviceName = ""
    · exact .inr (within_unbound hservice hid reach)
    · rw [hbound hsys hid hservice]
      exact .inr (within_service hservice fun svc hsvc => List.mem_singleton.1 hsvc)
  · exact hmember id hsys hservice hid

theorem metricScope_within (h : metricScope c env r = some (reach, groups)) :
    TwoBindings r ∨ OutsideMembers c r reach ∨ reach.Within (ruleScopes c r) := by
  refine scope_within (fun hsys hid hservice => ?_) fun id hsys hservice hid => ?_
  · simp only [metricScope, hsys, hid, if_pos hservice] at h
    cases h
    rfl
  · simp only [metricScope, hsys, hid] at h
    split at h
    · cases h
    · cases h
      exact outside_or_within hservice hid

theorem logScope_within (h : logScope c env r = some (reach, groups)) :
    TwoBindings r ∨ OutsideMembers c r reach ∨ reach.Within (ruleScopes c r) := by
  refine scope_within (fun hsys hid hservice => ?_) fun id hsys hservice hid => ?_
  · simp only [logScope, hsys, hid, Reach.named, if_neg hservice] at h
    cases h
    rfl
  · simp only [logScope, hsys, hid, Reach.named, if_pos hservice] at h
    split at h
    · cases h
    · cases h
      exact outside_or_within hservice hid

theorem traceScope_within (h : traceScope c env r = some (svcs, groups)) :
    TwoBindings r ∨ (Reach.only svcs).Within (ruleScopes c r) := by
  rw [← false_or (Reach.Within _ _)]
  refine scope_within (fun hsys hid hservice => ?_) fun id hsys hservice hid => .inr ?_
  · simp only [traceScope, hsys, hid, if_pos hservice] at h
    cases h
    rfl
  · simp only [traceScope, hsys, hid] at h
    split at h
    · cases h
    · exact within_members hservice hid fun svc hsvc =>
        attached_of_scope (Option.some.inj h) hsvc

theorem traceScope_groups (h : traceScope c env r = some (svcs, groups)) :
    groups = [] ∨ ∃ id, groups = contextEnvironmentGroups env (matcherGroups c id) := by
  cases hsys : r.systemID with
  | some sys =>
    simp only [traceScope, hsys] at h
    split at h
    · cases h
    · cases h
      exact .inl rfl
  | none =>
    cases hid : r.integrationID with
    | some id =>
      simp only [traceScope, hsys, hid] at h
      split at h
      · cases h
      replace h := Option.some.inj h
      unfold integrationCheckScope at h
      split at h
      · cases h
        exact .inl rfl
      · cases h
        exact .inr ⟨id, rfl⟩
    | none =>
      simp only [traceScope, hsys, hid] at h
      by_cases hservice : r.serviceName = ""
      · simp [hservice] at h
      · simp only [if_pos hservice] at h
        cases h
        exact .inl rfl

end Sluicio.Demand
