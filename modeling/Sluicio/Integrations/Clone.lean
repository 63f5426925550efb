import Sluicio.Alerting.Store.Rules
import Sluicio.Identity.Policies
import Sluicio.Integrations.Sources

/-!
# Cloning an integration

`Clone` inserts a second integration and copies what belongs to the first, table by table, each
with a column list of its own.  `PlanClone` decides what a caller's clone carries: the policies
of the groups only for an admin, who could grant them by hand.
-/

namespace Sluicio.Integrations.Clone

open Lib
open Alerting (Time)
open Alerting.Store (Database Row Route)
open Identity (AccessPolicy)
open Tracecompletion (trimSpace)

structure IntegrationRow where
  id : UUID
  organizationID : UUID
  slug : String
  name : String
  description : String := ""
  ruleMatch : RuleMatch := .any
  declaredEnvironments : List String := []
  badgePublic : Bool := false
  createdAt : Time
  updatedAt : Time

structure MatcherRow where
  id : UUID
  integrationID : UUID
  matcher : GroupedMatcher
  createdAt : Time

structure TagRow where
  integrationID : UUID
  tagID : UUID
  createdAt : Time

structure MetadataRow where
  integrationID : UUID
  fieldID : UUID
  value : String
  updatedAt : Time

structure PolicyRow extends AccessPolicy where
  createdAt : Time

structure SourceRow where
  id : UUID
  integrationID : UUID
  source : Source
  position : Int
  createdAt : Time

structure Tables where
  integrations : List IntegrationRow
  matchers : List MatcherRow := []
  tags : List TagRow := []
  metadata : List MetadataRow := []
  policies : List PolicyRow := []
  checks : Database
  sources : List SourceRow := []
  systems : Nat := 0
  entityLimit : Option Nat := none

/-- What the tables' references ask for. -/
structure Tables.Keyed (t : Tables) : Prop where
  matcherOf : ∀ m ∈ t.matchers, m.integrationID ∈ t.integrations.map IntegrationRow.id
  tagOf : ∀ tag ∈ t.tags, tag.integrationID ∈ t.integrations.map IntegrationRow.id
  metadataOf : ∀ m ∈ t.metadata, m.integrationID ∈ t.integrations.map IntegrationRow.id
  policyOf : ∀ p ∈ t.policies, ∀ id, p.targetIntegrationID = some id →
    id ∈ t.integrations.map IntegrationRow.id
  checkOf : ∀ r ∈ t.checks.rules, ∀ id, r.integrationID = some id →
    id ∈ t.integrations.map IntegrationRow.id
  routeOf : ∀ rt ∈ t.checks.routes, rt.alertRuleID ∈ t.checks.rules.map Row.id

namespace Tables

variable (t : Tables) (id : UUID)

def matchersOf : List MatcherRow := t.matchers.filter fun m => m.integrationID = id

def tagsOf : List TagRow := t.tags.filter fun tag => tag.integrationID = id

def metadataOf : List MetadataRow := t.metadata.filter fun m => m.integrationID = id

def policiesOf : List PolicyRow := t.policies.filter fun p => p.targetIntegrationID = some id

def sourcesOf : List SourceRow := t.sources.filter fun s => s.integrationID = id

/-- The health checks of the organization that are bound to the integration. -/
def checksOf (orgID : UUID) : List Row :=
  t.checks.rules.filter fun r => r.organizationID = orgID && r.integrationID = some id

end Tables

structure CloneScope where
  groupAccess : Bool
  healthChecks : Bool
  publicBadge : Bool

def planClone (callerIsAdmin : Bool) : CloneScope where
  groupAccess := callerIsAdmin
  healthChecks := true
  publicBadge := false

structure CloneOptions where
  name : String
  slug : String
  scope : CloneScope

inductive CloneError where
  | nameAndSlugRequired
  | sourceNotFound
  | slugExists
  | entityLimit
  | database

/-- The ids that `gen_random_uuid` gives: of the clone, and of the copy of each row. -/
structure NewIDs where
  integration : UUID
  matcher : UUID → UUID
  policy : UUID → UUID
  rule : UUID → UUID

/-! ## Copies -/

section Copies

variable (ids : NewIDs) (now : Time)

def copiedMatcher (m : MatcherRow) : MatcherRow where
  id := ids.matcher m.id
  integrationID := ids.integration
  matcher := m.matcher
  createdAt := now

/-- The column list has no `grant_services`: the copy has the default. -/
def copiedPolicy (p : PolicyRow) : PolicyRow where
  id := ids.policy p.id
  groupID := p.groupID
  kind := p.kind
  targetServiceName := p.targetServiceName
  targetIntegrationID := some ids.integration
  attributeMatch := p.attributeMatch
  targetSystemKind := p.targetSystemKind
  conditions := p.conditions
  targetSystemID := p.targetSystemID
  signals := p.signals
  createdAt := now

/-- The column list has no `check_scope`, `environment_mode` or `environments`. -/
def copiedRule (row : Row) : Row where
  id := ids.rule row.id
  organizationID := row.organizationID
  integrationID := some ids.integration
  name := row.name
  description := row.description
  signal := row.signal
  ruleSpec := row.ruleSpec
  severity := row.severity
  evaluationInterval := row.evaluationInterval
  enabled := row.enabled
  serviceName := row.serviceName
  groupID := row.groupID
  titleTemplate := row.titleTemplate
  bodyTemplate := row.bodyTemplate
  source := row.source
  displayOnService := row.displayOnService
  unit := row.unit
  resolveMode := row.resolveMode
  notificationConfig := row.notificationConfig
  runbook := row.runbook
  systemID := row.systemID
  createdAt := now
  updatedAt := now

/-- An `INSERT` of rows into a table with a primary key. -/
def insertAll {α : Type} (key : α → UUID) (rows new : List α) : Except CloneError (List α) :=
  if ((rows ++ new).map key).Nodup then .ok (rows ++ new) else .error .database

theorem insertAll_eq_ok {α : Type} {key : α → UUID} {rows new rows' : List α}
    (h : insertAll key rows new = .ok rows') : rows' = rows ++ new := by
  unfold insertAll at h
  split at h
  · cases h
    rfl
  · cases h

/-- The routes of a rule, for its copy; a route that exists already is left out. -/
def copiedRoutes (db : Database) (src : UUID) : List Route :=
  ((db.channelIDsFor src).map (Route.mk (ids.rule src))).filter fun rt => rt ∉ db.routes

theorem nodup_copiedRoutes (db : Database) (src : UUID) :
    (db.routes ++ copiedRoutes ids db src).Nodup := by
  have hinj : Function.Injective (Route.mk (ids.rule src)) := by
    intro ch ch' heq
    exact congrArg Route.channelID heq
  have hnew := ((db.nodup_channelIDsFor src).map hinj).filter fun rt => decide (rt ∉ db.routes)
  apply db.routeKey.append hnew
  intro rt hold hmem
  exact of_decide_eq_true (List.mem_filter.1 hmem).2 hold

theorem nodup_copiedRule (db : Database) (row : Row)
    (hfree : ids.rule row.id ∉ db.rules.map Row.id) :
    ((db.rules ++ [copiedRule ids now row]).map Row.id).Nodup := by
  rw [List.map_append]
  apply db.ruleKey.append (List.nodup_singleton _)
  intro x hx hx'
  rw [List.mem_singleton.1 hx'] at hx
  exact hfree hx

/-- The body of the loop of `cloneAlertRules`. -/
def copyRule (db : Database) (src : UUID) : Except CloneError Database :=
  match db.rules.find? fun row => row.id = src with
  | none => .error .database
  | some row =>
    if hfree : ids.rule row.id ∈ db.rules.map Row.id then .error .database
    else
      .ok {
        rules := db.rules ++ [copiedRule ids now row]
        routes := db.routes ++ copiedRoutes ids db src
        ruleKey := nodup_copiedRule ids now db row hfree
        routeKey := nodup_copiedRoutes ids db src }

def cloneAlertRules (orgID srcID : UUID) (t : Tables) : Except CloneError Database :=
  ((t.checksOf srcID orgID).map Row.id).foldlM (copyRule ids now) t.checks

/-- The copy of the health checks, if the clone carries them. -/
def cloneChecks (orgID srcID : UUID) (scope : CloneScope) (t : Tables) :
    Except CloneError Database :=
  if scope.healthChecks then cloneAlertRules ids now orgID srcID t else .ok t.checks

/-- The copy of the policies of the groups, if the clone carries them. -/
def clonePolicies (srcID : UUID) (scope : CloneScope) (t : Tables) :
    Except CloneError (List PolicyRow) :=
  if scope.groupAccess then
    insertAll (fun p => p.id) t.policies ((t.policiesOf srcID).map (copiedPolicy ids now))
  else .ok t.policies

/-- The limit on integrations and systems leaves no room for one more. -/
def Tables.full (t : Tables) : Bool :=
  t.entityLimit.any fun limit => limit < t.integrations.length + 1 + t.systems

/-- `Clone`; a transaction that fails leaves the tables as they are. -/
def clone (orgID srcID : UUID) (opt : CloneOptions) (t : Tables) :
    Except CloneError (IntegrationRow × Tables) :=
  let name := trimSpace opt.name
  let slug := trimSpace opt.slug
  if name = "" ∨ slug = "" then .error .nameAndSlugRequired
  else
    match t.integrations.find? fun i => i.id = srcID && i.organizationID = orgID with
    | none => .error .sourceNotFound
    | some src =>
      let out : IntegrationRow :=
        { id := ids.integration, organizationID := orgID, slug := slug, name := name
          description := src.description, ruleMatch := src.ruleMatch
          declaredEnvironments := src.declaredEnvironments, createdAt := now, updatedAt := now }
      if t.integrations.any fun i =>
          i.id = out.id || (i.organizationID = orgID && i.slug = slug) then .error .slugExists
      else if t.full then .error .entityLimit
      else do
        let matchers ← insertAll MatcherRow.id t.matchers
          ((t.matchersOf srcID).map (copiedMatcher ids now))
        let policies ← clonePolicies ids now srcID opt.scope t
        let checks ← cloneChecks ids now orgID srcID opt.scope t
        .ok (out, { t with
          integrations := t.integrations ++ [out]
          matchers := matchers
          tags := t.tags ++ (t.tagsOf srcID).map fun tag =>
            { integrationID := out.id, tagID := tag.tagID, createdAt := now }
          metadata := t.metadata ++ (t.metadataOf srcID).map fun m =>
            { integrationID := out.id, fieldID := m.fieldID, value := m.value, updatedAt := now }
          policies := policies
          checks := checks })

def cloneIntegration (callerIsAdmin : Bool) (orgID srcID : UUID) (name slug : String)
    (t : Tables) : Except CloneError (IntegrationRow × Tables) :=
  clone ids now orgID srcID ⟨name, slug, planClone callerIsAdmin⟩ t

end Copies

/-! ## The loop over the checks -/

section Checks

variable {ids : NewIDs} {now : Time}

def RoutesOfRules (db : Database) : Prop :=
  ∀ rt ∈ db.routes, rt.alertRuleID ∈ db.rules.map Row.id

variable {db' db : Database}

theorem channelIDsFor_eq_nil (hdb : RoutesOfRules db) {id : UUID} (hid : id ∉ db.rules.map Row.id) :
    db.channelIDsFor id = [] := by
  unfold Database.channelIDsFor
  rw [List.filter_eq_nil_iff.2, List.map_nil]
  intro rt hrt hof
  apply hid
  rw [← of_decide_eq_true hof]
  exact hdb rt hrt

/-- What copying one rule does: one more rule, with the channels of its original. -/
structure Copied (ids : NewIDs) (now : Time) (db db' : Database) (row : Row) : Prop where
  free : ids.rule row.id ∉ db.rules.map Row.id
  rules : db'.rules = db.rules ++ [copiedRule ids now row]
  routes : db.routes <+: db'.routes
  channels : db'.channelIDsFor (ids.rule row.id) = db.channelIDsFor row.id
  others : ∀ id, id ≠ ids.rule row.id → db'.channelIDsFor id = db.channelIDsFor id
  routesOf : RoutesOfRules db'

theorem copyRule_eq_ok (hdb : RoutesOfRules db) {row : Row} (hrow : row ∈ db.rules)
    (h : copyRule ids now db row.id = .ok db') : Copied ids now db db' row := by
  have hfind : db.rules.find? (fun r => r.id = row.id) = some row :=
    (find?_key_eq_some db.ruleKey).2 ⟨hrow, rfl⟩
  simp only [copyRule, hfind] at h
  split at h
  · cases h
  next hfree =>
  have hnone := channelIDsFor_eq_nil hdb hfree
  have hcopies : copiedRoutes ids db row.id =
      (db.channelIDsFor row.id).map (Route.mk (ids.rule row.id)) := by
    apply List.filter_eq_self.2
    intro rt hrt
    obtain ⟨ch, _, rfl⟩ := List.mem_map.1 hrt
    apply decide_eq_true
    intro hold
    exact hfree (hdb _ hold)
  cases h
  constructor
  · exact hfree
  · rfl
  · exact List.prefix_append _ _
  · show ((db.routes ++ copiedRoutes ids db row.id).filter _).map _ = _
    rw [hcopies, List.filter_append, List.map_append]
    show db.channelIDsFor (ids.rule row.id) ++ _ = _
    rw [hnone, List.filter_map]
    simp [Function.comp_def]
  · intro id hid
    show ((db.routes ++ copiedRoutes ids db row.id).filter _).map _ = _
    rw [hcopies, List.filter_append, List.map_append, List.filter_map]
    show db.channelIDsFor id ++ _ = _
    simp [Function.comp_def, hid.symm]
  · intro rt hrt
    show rt.alertRuleID ∈ (db.rules ++ [copiedRule ids now row]).map Row.id
    rw [List.map_append, List.mem_append]
    rcases List.mem_append.1 hrt with hold | hnew
    · exact .inl (hdb rt hold)
    · rw [hcopies] at hnew
      obtain ⟨ch, _, rfl⟩ := List.mem_map.1 hnew
      exact .inr List.mem_cons_self

/-- What copying rules one after the other does. -/
structure CopiedAll (ids : NewIDs) (now : Time) (db db' : Database) (rows : List Row) :
    Prop where
  rules : db'.rules = db.rules ++ rows.map (copiedRule ids now)
  routes : db.routes <+: db'.routes
  channels : ∀ row ∈ rows, db'.channelIDsFor (ids.rule row.id) = db.channelIDsFor row.id
  others : ∀ row ∈ db.rules, db'.channelIDsFor row.id = db.channelIDsFor row.id

theorem foldlM_copyRule_eq_ok {rows : List Row} (hdb : RoutesOfRules db)
    (hrows : ∀ row ∈ rows, row ∈ db.rules)
    (h : (rows.map Row.id).foldlM (copyRule ids now) db = .ok db') :
    CopiedAll ids now db db' rows := by
  induction rows generalizing db with
  | nil =>
    rw [List.map_nil, List.foldlM_nil, pure_eq_ok] at h
    subst h
    constructor
    · rw [List.map_nil, List.append_nil]
    · exact List.prefix_refl _
    · intro row hrow
      cases hrow
    · intro row _
      rfl
  | cons row rows ih =>
    rw [List.map_cons, List.foldlM_cons, bind_eq_ok] at h
    obtain ⟨db₁, hstep, hrest⟩ := h
    have hrow : row ∈ db.rules := hrows row List.mem_cons_self
    have hcopied := copyRule_eq_ok hdb hrow hstep
    have hkept : ∀ r ∈ db.rules, r ∈ db₁.rules := by
      intro r hr
      rw [hcopied.rules]
      exact List.mem_append_left _ hr
    -- a row of the table has another id than the copy
    have hother : ∀ r ∈ db.rules, r.id ≠ ids.rule row.id := by
      intro r hr heq
      apply hcopied.free
      rw [← heq]
      exact List.mem_map_of_mem hr
    have hall := ih hcopied.routesOf
      (fun r hr => hkept r (hrows r (List.mem_cons_of_mem _ hr))) hrest
    constructor
    · rw [hall.rules, hcopied.rules, List.append_assoc]
      rfl
    · exact hcopied.routes.trans hall.routes
    · intro r hr
      cases List.mem_cons.1 hr with
      | inl heq =>
        have hcopy : copiedRule ids now row ∈ db₁.rules := by
          rw [hcopied.rules]
          exact List.mem_append_right _ List.mem_cons_self
        rw [heq, ← hcopied.channels]
        exact hall.others _ hcopy
      | inr htail =>
        rw [hall.channels r htail]
        exact hcopied.others r.id (hother r (hrows r hr))
    · intro r hr
      rw [hall.others r (hkept r hr)]
      exact hcopied.others r.id (hother r hr)

end Checks

/-! ## What a clone preserves -/

section Clone

/-- A health check with its channels, without its id, its owner and its times. -/
def checkConfig (t : Tables) (row : Row) : Row × List UUID :=
  ({ row with id := 0, integrationID := none, createdAt := 0, updatedAt := 0 },
    t.checks.channelIDsFor row.id)

/-- A policy without its id and its target. -/
def policyConfig (p : PolicyRow) : AccessPolicy :=
  { p.toAccessPolicy with id := 0, targetIntegrationID := none }

/-- A source with its place, without its id and its owner. -/
def sourceConfig (s : SourceRow) : Source × Int := (s.source, s.position)

/-- Every row of the tables stays, as it was. -/
structure Kept (t t' : Tables) : Prop where
  integrations : t.integrations <+: t'.integrations
  matchers : t.matchers <+: t'.matchers
  tags : t.tags <+: t'.tags
  metadata : t.metadata <+: t'.metadata
  policies : t.policies <+: t'.policies
  checks : t.checks.rules <+: t'.checks.rules
  routes : t.checks.routes <+: t'.checks.routes
  channels : ∀ row ∈ t.checks.rules, t'.checks.channelIDsFor row.id = t.checks.channelIDsFor row.id
  sources : t.sources <+: t'.sources

/-- The clone `dst` has a counterpart of each row of the original `src`, equal but for its id,
its owner and its times. -/
structure Counterparts (t t' : Tables) (orgID src dst : UUID) : Prop where
  checks : (t'.checksOf dst orgID).map (checkConfig t') = (t.checksOf src orgID).map (checkConfig t)
  matchers : (t'.matchersOf dst).map MatcherRow.matcher = (t.matchersOf src).map MatcherRow.matcher
  sources : (t'.sourcesOf dst).map sourceConfig = (t.sourcesOf src).map sourceConfig
  policies : (t'.policiesOf dst).map policyConfig = (t.policiesOf src).map policyConfig
  kept : Kept t t'

/-- A health check without what its copy has the defaults of, too. -/
def copiedConfig (t : Tables) (row : Row) : Row × List UUID :=
  ({ (checkConfig t row).1 with checkScope := none, environmentMode := .each, environments := [] },
    (checkConfig t row).2)

/-- A policy without what its copy has the default of, too. -/
def copiedPolicyConfig (p : PolicyRow) : AccessPolicy :=
  { policyConfig p with grantServices := false }

/-- What a clone preserves: of each matcher, tag, value of the metadata and health check it has
a counterpart, and of each policy if the caller is an admin; of a health check up to its scope
and its environments, and of a policy up to whether it grants the services. -/
structure Preserves (callerIsAdmin : Bool) (t t' : Tables) (orgID src : UUID)
    (out : IntegrationRow) : Prop where
  described : ∃ i ∈ t.integrations, i.id = src ∧ i.organizationID = out.organizationID ∧
    out.description = i.description ∧ out.ruleMatch = i.ruleMatch ∧
    out.declaredEnvironments = i.declaredEnvironments
  checks : (t'.checksOf out.id orgID).map (copiedConfig t') =
    (t.checksOf src orgID).map (copiedConfig t)
  matchers : (t'.matchersOf out.id).map MatcherRow.matcher =
    (t.matchersOf src).map MatcherRow.matcher
  tags : (t'.tagsOf out.id).map TagRow.tagID = (t.tagsOf src).map TagRow.tagID
  metadata : (t'.metadataOf out.id).map (fun m => (m.fieldID, m.value)) =
    (t.metadataOf src).map fun m => (m.fieldID, m.value)
  policies : (t'.policiesOf out.id).map copiedPolicyConfig =
    if callerIsAdmin then (t.policiesOf src).map copiedPolicyConfig else []
  kept : Kept t t'

variable {ids : NewIDs} {now : Time} {orgID srcID : UUID} {opt : CloneOptions}
  {t t' : Tables} {out : IntegrationRow}

/-- What a successful `Clone` did. -/
structure Cloned (ids : NewIDs) (now : Time) (orgID srcID : UUID) (scope : CloneScope)
    (t t' : Tables) (out : IntegrationRow) : Prop where
  described : ∃ i ∈ t.integrations, i.id = srcID ∧ i.organizationID = out.organizationID ∧
    out.description = i.description ∧ out.ruleMatch = i.ruleMatch ∧
    out.declaredEnvironments = i.declaredEnvironments
  id : out.id = ids.integration
  fresh : out.id ∉ t.integrations.map IntegrationRow.id
  integrations : t'.integrations = t.integrations ++ [out]
  matchers : t'.matchers = t.matchers ++ (t.matchersOf srcID).map (copiedMatcher ids now)
  tags : t'.tags = t.tags ++ (t.tagsOf srcID).map fun tag =>
    { integrationID := out.id, tagID := tag.tagID, createdAt := now }
  metadata : t'.metadata = t.metadata ++ (t.metadataOf srcID).map fun m =>
    { integrationID := out.id, fieldID := m.fieldID, value := m.value, updatedAt := now }
  policies : t'.policies = t.policies ++
    if scope.groupAccess then (t.policiesOf srcID).map (copiedPolicy ids now) else []
  checks : cloneChecks ids now orgID srcID scope t = .ok t'.checks
  sources : t'.sources = t.sources

theorem clone_eq_ok (h : clone ids now orgID srcID opt t = .ok (out, t')) :
    Cloned ids now orgID srcID opt.scope t t' out := by
  simp only [clone] at h
  split at h
  · cases h
  split at h
  · cases h
  next src hfind =>
  split at h
  · cases h
  next hfree =>
  split at h
  · cases h
  rw [bind_eq_ok] at h
  obtain ⟨matchers, hmatchers, h⟩ := h
  rw [bind_eq_ok] at h
  obtain ⟨policies, hpolicies, h⟩ := h
  rw [bind_eq_ok] at h
  obtain ⟨checks, hchecks, hout⟩ := h
  have hsrc := List.find?_some hfind
  simp only [Bool.and_eq_true, decide_eq_true_eq] at hsrc
  cases hout
  constructor
  · exact ⟨src, List.mem_of_find?_eq_some hfind, hsrc.1, hsrc.2, rfl, rfl, rfl⟩
  · rfl
  · intro hmem
    obtain ⟨i, hi, hid⟩ := List.mem_map.1 hmem
    apply hfree
    rw [List.any_eq_true]
    refine ⟨i, hi, ?_⟩
    simp [hid]
  · rfl
  · exact insertAll_eq_ok hmatchers
  · rfl
  · rfl
  · show policies = _
    unfold clonePolicies at hpolicies
    cases hscope : opt.scope.groupAccess with
    | true =>
      rw [hscope, if_pos rfl] at hpolicies
      exact insertAll_eq_ok hpolicies
    | false =>
      rw [hscope] at hpolicies
      cases hpolicies
      exact (List.append_nil _).symm
  · exact hchecks
  · rfl

theorem filter_append_copies {α : Type} {p : α → Bool} {rows copies : List α}
    (hold : ∀ r ∈ rows, p r = false) (hnew : ∀ r ∈ copies, p r) :
    (rows ++ copies).filter p = copies := by
  rw [List.filter_append, List.filter_eq_self.2 hnew, List.filter_eq_nil_iff.2, List.nil_append]
  intro r hr
  rw [hold r hr]
  exact Bool.false_ne_true

theorem Tables.Keyed.unbound (ht : t.Keyed) {id : UUID}
    (hid : id ∉ t.integrations.map IntegrationRow.id) :
    (∀ m ∈ t.matchers, decide (m.integrationID = id) = false) ∧
    (∀ tag ∈ t.tags, decide (tag.integrationID = id) = false) ∧
    (∀ m ∈ t.metadata, decide (m.integrationID = id) = false) ∧
    (∀ p ∈ t.policies, decide (p.targetIntegrationID = some id) = false) ∧
    ∀ r ∈ t.checks.rules, decide (r.integrationID = some id) = false := by
  refine ⟨?_, ?_, ?_, ?_, ?_⟩
  · intro m hm
    exact decide_eq_false fun heq => hid (heq ▸ ht.matcherOf m hm)
  · intro tag htag
    exact decide_eq_false fun heq => hid (heq ▸ ht.tagOf tag htag)
  · intro m hm
    exact decide_eq_false fun heq => hid (heq ▸ ht.metadataOf m hm)
  · intro p hp
    exact decide_eq_false fun heq => hid (ht.policyOf p hp id heq)
  · intro r hr
    exact decide_eq_false fun heq => hid (ht.checkOf r hr id heq)

theorem Cloned.checksOf {admin : Bool} (ht : t.Keyed)
    (h : Cloned ids now orgID srcID (planClone admin) t t' out) :
    CopiedAll ids now t.checks t'.checks (t.checksOf srcID orgID) ∧
      t'.checksOf out.id orgID = (t.checksOf srcID orgID).map (copiedRule ids now) := by
  have hrun : cloneAlertRules ids now orgID srcID t = .ok t'.checks := h.checks
  have hall := foldlM_copyRule_eq_ok ht.routeOf (fun row hrow => (List.mem_filter.1 hrow).1) hrun
  refine ⟨hall, ?_⟩
  unfold Tables.checksOf
  rw [hall.rules]
  apply filter_append_copies
  · intro r hr
    rw [(ht.unbound h.fresh).2.2.2.2 r hr, Bool.and_false]
  · intro r hr
    obtain ⟨row, hrow, rfl⟩ := List.mem_map.1 hr
    have horg := (Bool.and_eq_true_iff.1 (List.mem_filter.1 hrow).2).1
    have howner : decide ((copiedRule ids now row).integrationID = some out.id) = true := by
      rw [h.id]
      exact decide_eq_true rfl
    rw [howner, Bool.and_true]
    exact horg

theorem Cloned.kept {admin : Bool} (ht : t.Keyed)
    (h : Cloned ids now orgID srcID (planClone admin) t t' out) : Kept t t' := by
  obtain ⟨hall, _⟩ := h.checksOf ht
  constructor
  · rw [h.integrations]
    exact List.prefix_append _ _
  · rw [h.matchers]
    exact List.prefix_append _ _
  · rw [h.tags]
    exact List.prefix_append _ _
  · rw [h.metadata]
    exact List.prefix_append _ _
  · rw [h.policies]
    exact List.prefix_append _ _
  · rw [hall.rules]
    exact List.prefix_append _ _
  · exact hall.routes
  · exact hall.others
  · rw [h.sources]

/-- **A clone preserves the configuration**: the matchers, the tags, the metadata and the health
checks are copied one for one, the policies only for an admin, and nothing of the original
changes. -/
theorem cloneIntegration_preserves {callerIsAdmin : Bool} {name slug : String} (ht : t.Keyed)
    (h : cloneIntegration ids now callerIsAdmin orgID srcID name slug t = .ok (out, t')) :
    Preserves callerIsAdmin t t' orgID srcID out := by
  have hcloned := clone_eq_ok h
  obtain ⟨hmatchers, htags, hmetadata, hpolicies, _⟩ := ht.unbound hcloned.fresh
  obtain ⟨hall, hchecks⟩ := hcloned.checksOf ht
  constructor
  · exact hcloned.described
  · rw [hchecks, List.map_map]
    apply List.map_congr_left
    intro row hrow
    have hchannels := hall.channels row hrow
    show (_, t'.checks.channelIDsFor (ids.rule row.id)) = (_, t.checks.channelIDsFor row.id)
    rw [hchannels]
    rfl
  · unfold Tables.matchersOf
    rw [hcloned.matchers, filter_append_copies hmatchers, List.map_map]
    · rfl
    · intro m hm
      obtain ⟨m₀, _, rfl⟩ := List.mem_map.1 hm
      exact decide_eq_true hcloned.id.symm
  · unfold Tables.tagsOf
    rw [hcloned.tags, filter_append_copies htags, List.map_map]
    · rfl
    · intro tag htag
      obtain ⟨tag₀, _, rfl⟩ := List.mem_map.1 htag
      exact decide_eq_true rfl
  · unfold Tables.metadataOf
    rw [hcloned.metadata, filter_append_copies hmetadata, List.map_map]
    · rfl
    · intro m hm
      obtain ⟨m₀, _, rfl⟩ := List.mem_map.1 hm
      exact decide_eq_true rfl
  · unfold Tables.policiesOf
    rw [hcloned.policies, filter_append_copies hpolicies]
    · cases callerIsAdmin with
      | true =>
        show List.map _ (List.map _ _) = List.map _ _
        rw [List.map_map]
        rfl
      | false => rfl
    · intro p hp
      cases callerIsAdmin with
      | true =>
        obtain ⟨p₀, _, rfl⟩ := List.mem_map.1 hp
        exact decide_eq_true (congrArg some hcloned.id.symm)
      | false => cases hp
  · exact hcloned.kept ht

end Clone

/-! ### A clone of orders -/

/-- Orders, with a matcher, a check that notifies a channel, and the support group's policy. -/
private def acme : Tables where
  integrations :=
    [{ id := 1, organizationID := 7, slug := "orders", name := "Orders", createdAt := 5
       updatedAt := 5 }]
  matchers :=
    [{ id := 11, integrationID := 1, createdAt := 6
       matcher := { attr := "service.name", operator := .equals, value := "orders" } }]
  policies :=
    [{ id := 21, groupID := 2, kind := .integration, targetIntegrationID := some 1
       createdAt := 6 }]
  checks :=
    { rules := [{ id := 31, organizationID := 7, integrationID := some 1, name := "errors"
                  signal := .log, ruleSpec := .object [], createdAt := 6, updatedAt := 6 }]
      routes := [⟨31, 41⟩]
      ruleKey := List.nodup_singleton _
      routeKey := List.nodup_singleton _ }

private def newIDs : NewIDs where
  integration := 101
  matcher id := id + 100
  policy id := id + 100
  rule id := id + 100

private theorem acme_keyed : acme.Keyed where
  matcherOf := by decide
  tagOf := by decide
  metadataOf := by decide
  policyOf := by
    intro p hp id hid
    rw [List.mem_singleton.1 hp] at hid
    cases hid
    decide
  checkOf := by
    intro r hr id hid
    rw [List.mem_singleton.1 hr] at hid
    cases hid
    decide
  routeOf := by decide

theorem admin_clone_preserves : ∃ out t',
    cloneIntegration newIDs 9 true 7 1 "Orders EU" "orders-eu" acme = .ok (out, t') ∧
      Preserves true acme t' 7 1 out := by
  have hok : (cloneIntegration newIDs 9 true 7 1 "Orders EU" "orders-eu" acme).isOk := by
    decide +kernel
  cases hclone : cloneIntegration newIDs 9 true 7 1 "Orders EU" "orders-eu" acme with
  | error e =>
    rw [hclone] at hok
    cases hok
  | ok r => exact ⟨r.1, r.2, rfl, cloneIntegration_preserves acme_keyed hclone⟩

/-- The clone of an editor has no counterpart of the support group's policy. -/
theorem editor_clone_drops_access : ∃ out t',
    cloneIntegration newIDs 9 false 7 1 "Orders EU" "orders-eu" acme = .ok (out, t') ∧
      ¬ Counterparts acme t' 7 1 out.id := by
  have hnone : (cloneIntegration newIDs 9 false 7 1 "Orders EU" "orders-eu" acme).toOption.map
      (fun r => (r.2.policiesOf r.1.id).length) = some 0 := by decide +kernel
  cases hclone : cloneIntegration newIDs 9 false 7 1 "Orders EU" "orders-eu" acme with
  | error e =>
    rw [hclone] at hnone
    cases hnone
  | ok r =>
    refine ⟨r.1, r.2, rfl, ?_⟩
    intro h
    rw [hclone] at hnone
    have hzero : (r.2.policiesOf r.1.id).length = 0 := Option.some.inj hnone
    have hlen := congrArg List.length h.policies
    rw [List.length_map, List.length_map, hzero] at hlen
    cases hlen

end Sluicio.Integrations.Clone
