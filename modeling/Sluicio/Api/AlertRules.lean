import Sluicio.Alerting.Store.Rules
import Sluicio.Store.AttrClause
import Sluicio.Tracecompletion.Types

/-!
# Saving an alert rule

`buildRule` turns the body of a create or an update into an `AlertRule`, or refuses it.
What it accepts is written by `CreateRule` or `UpdateRule` and read back by `GetRule`: a
created rule reads back as it was accepted, an updated one exactly when the row had the
accepted signal and no declared check scope.
-/

namespace Sluicio.Api

open Lib
open Alerting (Severity AttrFilter Time Duration)
open Alerting.Store
open Tracecompletion (trimSpace)
open Database

structure AlertRuleRequest where
  name : String
  description : String := ""
  severity : String := ""
  enabled : Option Bool := none
  /-- "metric", "log" or "trace"; empty is "metric" -/
  signal : String := ""
  spec : MetricRuleSpec := {}
  logSpec : Option LogRuleSpec := none
  traceErrorSpec : Option TraceErrorRuleSpec := none
  traceLatencySpec : Option TraceLatencyRuleSpec := none
  traceVolumeSpec : Option TraceVolumeRuleSpec := none
  traceAttributeSpec : Option TraceAttributeRuleSpec := none
  channelIDs : List String := []
  runbook : String := ""
  integrationID : String := ""
  systemID : String := ""
  serviceName : String := ""
  groupID : String := ""
  titleTemplate : String := ""
  bodyTemplate : String := ""
  notificationContent : Option NotificationContent := none
  source : String := ""
  displayOnService : Bool := false
  unit : String := ""
  resolveMode : String := ""
  environmentMode : String := ""
  environments : List String := []

/-- The parsers `buildRule` calls: of ids, of durations, and of the two template
languages, which answer with their error. -/
structure Parsers where
  parseUUID : String → Option UUID
  parseDuration : String → Option Duration
  validateTemplate : String → Option String
  validateLiquid : String → Option String

def maxCheckWindowSeconds : Int := 45 * 24 * 60 * 60

/-- An id that may be left blank. -/
def parseRef (p : Parsers) (err : String) (s : String) : Except String (Option UUID) :=
  if trimSpace s = "" then .ok none
  else
    match p.parseUUID (trimSpace s) with
    | none => .error err
    | some id => .ok (some id)

def parseChannelIDs (p : Parsers) (raw : List String) : Except String (List UUID) :=
  raw.mapM fun s =>
    match p.parseUUID (trimSpace s) with
    | none => .error ("invalid channel id: " ++ s)
    | some id => .ok id

def parseSeverity (s : String) : Except String Severity :=
  match trimSpace s with
  | "" => .ok .warning
  | "info" => .ok .info
  | "warning" => .ok .warning
  | "critical" => .ok .critical
  | _ => .error "invalid severity"

def parseSource (s : String) : Except String RuleSource :=
  match trimSpace s with
  | "" => .ok .telemetry
  | "telemetry" => .ok .telemetry
  | "pushed" => .ok .pushed
  | _ => .error "invalid source (use telemetry or pushed)"

/-- The mode the request names, or the default of its signal. -/
def parseResolveMode (signal s : String) : Except String RuleResolveMode :=
  match trimSpace s with
  | "auto" => .ok .auto
  | "manual" => .ok .manual
  | "" => .ok (if signal = "log" ∨ signal = "trace" then .manual else .auto)
  | _ => .error "invalid resolve_mode (use auto or manual)"

/-- A check that answers with its error, under a prefix. -/
def refuse (msg : String) (err : Option String) : Except String Unit :=
  match err with
  | none => .ok ()
  | some e => .error (msg ++ e)

/-! ## Specs -/

def validOperator (op : String) : Bool := op ∈ ["gt", "gte", "lt", "lte", "eq", "neq"]

def validAggregation (a : String) : Bool :=
  a ∈ ["max", "avg", "min", "sum", "p95", "last", "increase", "rate", "age"]

def validAttrOps : List String :=
  ["eq", "neq", "contains", "not_contains", "starts_with", "ends_with", "matches",
    "exists", "not_exists", "gt", "gte", "lt", "lte"]

/-- The predicates of a spec, with their keys trimmed. -/
def validateAttrs (attrs : List AttrFilter) : Except String (List AttrFilter) :=
  attrs.mapM fun f =>
    if !Store.attrKeyRe (trimSpace f.key) then
      .error ("invalid attribute key: " ++ trimSpace f.key)
    else if f.op ∉ validAttrOps then .error ("invalid attribute operator: " ++ f.op)
    else .ok { f with key := trimSpace f.key }

def validateMetricRuleSpec (p : Parsers) (spec : MetricRuleSpec) :
    Except String MetricRuleSpec :=
  let forWindow := if spec.forWindow = "" then "5m" else spec.forWindow
  let splitBy := trimSpace spec.splitBy
  if trimSpace spec.metricName = "" then .error "spec.metric_name is required"
  else if !validAggregation spec.aggregation then .error "invalid spec.aggregation"
  else if !validOperator spec.operator then .error "invalid spec.operator"
  else if (p.parseDuration forWindow).isNone then
    .error "invalid spec.for_window (use a Go duration like 5m)"
  else do
    let attrs ← validateAttrs spec.attrs
    if splitBy ≠ "" ∧ !Store.attrKeyRe splitBy then
      .error ("invalid spec.split_by attribute key: " ++ splitBy)
    else
      .ok { spec with metricName := trimSpace spec.metricName, forWindow := forWindow,
                      attrs := attrs, splitBy := splitBy }

def validatePushedRuleSpec (spec : MetricRuleSpec) : Except String MetricRuleSpec :=
  if !validOperator spec.operator then .error "invalid spec.operator"
  else
    .ok { spec with metricName := "", aggregation := "last", forWindow := "5m", attrs := [],
                    splitBy := "", fireOnNoData := false }

/-- The bounds of a trailing window. -/
def checkWindow (spec : String) (seconds : Int) : Except String Unit :=
  if seconds < 60 ∨ maxCheckWindowSeconds < seconds then
    .error (spec ++ ".window_seconds must be between 60 and 3888000")
  else .ok ()

def validateLogRuleSpec (spec : LogRuleSpec) : Except String LogRuleSpec := do
  let comparison ←
    if spec.comparison = "" ∨ spec.comparison = "at_least" then .ok "at_least"
    else if spec.comparison = "fewer_than" then .ok "fewer_than"
    else .error "log_spec.comparison must be 'at_least' or 'fewer_than'"
  checkWindow "log_spec" spec.windowSeconds
  let attrs ← validateAttrs spec.attrs
  return { spec with
    bodyContains := trimSpace spec.bodyContains
    threshold := if spec.threshold < 1 then 1 else spec.threshold
    comparison := comparison
    attrs := attrs }

/-- The spec of a trace rule: latency before volume before attribute before error. -/
def traceSpec (req : AlertRuleRequest) : Except String Spec :=
  match req.traceLatencySpec, req.traceVolumeSpec, req.traceAttributeSpec, req.traceErrorSpec with
  | some s, _, _, _ =>
    if s.thresholdMs < 1 then .error "trace_latency_spec.threshold_ms must be at least 1"
    else .ok (.traceLatency { s with kind := traceLatencySpecKind })
  | none, some s, _, _ =>
    if s.threshold < 1 then .error "trace_volume_spec.threshold must be at least 1"
    else do
      checkWindow "trace_volume_spec" s.windowSeconds
      return .traceVolume { s with kind := traceVolumeSpecKind }
  | none, none, some s, _ =>
    if s.threshold < 1 then .error "trace_attribute_spec.threshold must be at least 1"
    else do
      checkWindow "trace_attribute_spec" s.windowSeconds
      if s.attrs = [] then
        .error "trace_attribute_spec.attrs must name at least one attribute condition"
      else
        let attrs ← validateAttrs s.attrs
        return .traceAttribute { s with kind := traceAttributeSpecKind, attrs := attrs }
  | none, none, none, some s =>
    if s.threshold < 1 then .error "trace_error_spec.threshold must be at least 1"
    else do
      let attrs ← validateAttrs s.attrs
      return .traceError { s with kind := traceErrorSpecKind, attrs := attrs }
  | none, none, none, none =>
    .error ("a trace rule needs trace_error_spec (failed traces), trace_latency_spec " ++
      "(response time), trace_volume_spec (low traffic), or trace_attribute_spec " ++
      "(span attribute)")

/-! ## `buildRule` -/

/-- The rule before its environments and its spec; the signal comes with the spec. -/
def ruleFields (p : Parsers) (orgID id : UUID) (signal : String) (req : AlertRuleRequest) :
    Except String AlertRule := do
  let severity ← parseSeverity req.severity
  let channelIDs ← parseChannelIDs p req.channelIDs
  let integrationID ← parseRef p "invalid integration_id" req.integrationID
  let systemID ← parseRef p "invalid system_id" req.systemID
  if systemID.isSome ∧ integrationID.isSome then
    .error "a rule binds to a system or an integration, not both"
  else if systemID.isSome ∧ trimSpace req.serviceName ≠ "" then
    .error "a rule binds to a system or a service, not both"
  else
    let groupID ← parseRef p "invalid group_id" req.groupID
    refuse "invalid title_template: " (p.validateTemplate (trimSpace req.titleTemplate))
    refuse "invalid body_template: " (p.validateTemplate (trimSpace req.bodyTemplate))
    refuse "invalid notification email subject: "
      (req.notificationContent.bind fun nc => p.validateLiquid nc.emailSubject)
    refuse "invalid notification email body: "
      (req.notificationContent.bind fun nc => p.validateLiquid nc.emailBody)
    let source ← parseSource req.source
    let resolveMode ← parseResolveMode signal req.resolveMode
    return {
      id := id
      organizationID := orgID
      integrationID := integrationID
      systemID := systemID
      serviceName := trimSpace req.serviceName
      groupID := groupID
      name := trimSpace req.name
      description := trimSpace req.description
      runbook := trimSpace req.runbook
      severity := severity
      signal := .metric
      enabled := req.enabled.getD true
      channelIDs := channelIDs
      titleTemplate := trimSpace req.titleTemplate
      bodyTemplate := trimSpace req.bodyTemplate
      notificationContent := req.notificationContent
      source := source
      displayOnService := req.displayOnService
      unit := trimSpace req.unit
      resolveMode := resolveMode }

/-- The environments of a check that is bound to an integration. -/
def scopeEnvironments (req : AlertRuleRequest) (rule : AlertRule) :
    Except String AlertRule :=
  match trimSpace req.environmentMode with
  | "" => .ok { rule with environmentMode := .each }
  | "each" => .ok { rule with environmentMode := .each }
  | "only" =>
    if rule.integrationID.isNone then
      .error "environment_mode only applies to a check bound to an integration"
    else if ∃ e ∈ req.environments, 128 < (trimSpace e).utf8ByteSize then
      .error "environment name too long (max 128)"
    else if req.environments = [] then
      .error "environment_mode \"only\" needs at least one environment"
    else
      .ok { rule with
        environmentMode := .only
        environments := (req.environments.map trimSpace).eraseDups.mergeSort
          fun a b => decide (a ≤ b) }
  | _ => .error "environment_mode must be \"each\" or \"only\""

def requestedSpec (p : Parsers) (signal : String) (req : AlertRuleRequest)
    (rule : AlertRule) : Except String Spec :=
  match signal with
  | "metric" =>
    if rule.source = .pushed then
      if rule.serviceName = "" then
        .error "a pushed health check must be bound to a service"
      else Spec.metric <$> validatePushedRuleSpec req.spec
    else Spec.metric <$> validateMetricRuleSpec p req.spec
  | "log" =>
    if rule.source = .pushed then .error "only metric health checks can be pushed"
    else
      match req.logSpec with
      | none => .error "log_spec is required for a log rule"
      | some s => do
        let s ← validateLogRuleSpec s
        if s.minSeverity = 0 ∧ s.bodyContains = "" ∧ s.attrs = [] ∧ rule.serviceName = "" ∧
            rule.integrationID.isNone then
          .error ("a log rule needs at least one match criterion (min severity, text, or " ++
            "attribute) or a service/integration scope")
        else .ok (.log s)
  | "trace" =>
    if rule.source = .pushed then .error "only metric health checks can be pushed"
    else if rule.integrationID.isNone ∧ rule.serviceName = "" then
      .error "a trace rule must be bound to an integration or a service"
    else traceSpec req
  | _ => .error "invalid signal (use metric, log, or trace)"

def requestedSignal (req : AlertRuleRequest) : String :=
  if trimSpace req.signal = "" then "metric" else trimSpace req.signal

def buildRule (p : Parsers) (orgID id : UUID) (req : AlertRuleRequest) :
    Except String AlertRule :=
  if trimSpace req.name = "" then .error "name is required"
  else do
    let fields ← ruleFields p orgID id (requestedSignal req) req
    let rule ← scopeEnvironments req fields
    let spec ← requestedSpec p (requestedSignal req) req rule
    return rule.withSpec spec

/-! ## What `buildRule` accepts -/

/-- The fields a request cannot set, and those it sets to one of the known values. -/
structure PlainFields (orgID id : UUID) (r : AlertRule) : Prop where
  id : r.id = id
  organizationID : r.organizationID = orgID
  evalSeconds : r.evalSeconds = 0
  checkScope : r.checkScope = none
  source : r.source = .telemetry ∨ r.source = .pushed
  resolveMode : r.resolveMode = .auto ∨ r.resolveMode = .manual
  environments : r.environmentMode = .each → r.environments = []

theorem parseSource_eq_ok {s : String} {source : RuleSource}
    (h : parseSource s = .ok source) : source = .telemetry ∨ source = .pushed := by
  unfold parseSource at h
  split at h <;> cases h
  · exact Or.inl rfl
  · exact Or.inl rfl
  · exact Or.inr rfl

variable {p : Parsers} {signal : String} {c : Constraints} {r : AlertRule} {db' db : Database}
  {now : Time}

theorem parseResolveMode_eq_ok {s : String} {mode : RuleResolveMode}
    (h : parseResolveMode signal s = .ok mode) : mode = .auto ∨ mode = .manual := by
  unfold parseResolveMode at h
  split at h <;> cases h
  · exact Or.inl rfl
  · exact Or.inr rfl
  · split
    · exact Or.inr rfl
    · exact Or.inl rfl

variable {id orgID : UUID} {req : AlertRuleRequest}

theorem ruleFields_plain (h : ruleFields p orgID id signal req = .ok r) :
    PlainFields orgID id r ∧ r.environmentMode = .each ∧ r.environments = [] := by
  simp only [ruleFields, bind_eq_ok] at h
  obtain ⟨_, _, _, _, _, _, _, _, h⟩ := h
  split_ifs at h
  simp only [bind_eq_ok, pure_eq_ok] at h
  obtain ⟨_, _, _, _, _, _, _, _, _, _, source, hsource, mode, hmode, rfl⟩ := h
  exact ⟨⟨rfl, rfl, rfl, rfl, parseSource_eq_ok hsource, parseResolveMode_eq_ok hmode,
    fun _ => rfl⟩, rfl, rfl⟩

theorem scopeEnvironments_plain {fields : AlertRule} (hfields : PlainFields orgID id fields)
    (hnone : fields.environments = []) (h : scopeEnvironments req fields = .ok r) :
    PlainFields orgID id r := by
  obtain ⟨hid, horg, heval, hscope, hsource, hresolve, _⟩ := hfields
  unfold scopeEnvironments at h
  split at h
  · cases h
    exact ⟨hid, horg, heval, hscope, hsource, hresolve, fun _ => hnone⟩
  · cases h
    exact ⟨hid, horg, heval, hscope, hsource, hresolve, fun _ => hnone⟩
  · split_ifs at h
    cases h
    exact ⟨hid, horg, heval, hscope, hsource, hresolve, fun heach => by cases heach⟩
  · cases h

theorem traceSpec_kinded {s : Spec} (h : traceSpec req = .ok s) : s.Kinded := by
  unfold traceSpec at h
  split at h
  · split_ifs at h
    cases h
    exact rfl
  · split_ifs at h
    simp only [bind_eq_ok, pure_eq_ok] at h
    obtain ⟨_, _, rfl⟩ := h
    exact rfl
  · split_ifs at h
    · simp only [bind_eq_ok] at h
      obtain ⟨_, _, h⟩ := h
      cases h
    · simp only [bind_eq_ok, pure_eq_ok] at h
      obtain ⟨_, _, _, _, rfl⟩ := h
      exact rfl
  · split_ifs at h
    simp only [bind_eq_ok, pure_eq_ok] at h
    obtain ⟨_, _, rfl⟩ := h
    exact rfl
  · cases h

theorem requestedSpec_eq_ok {rule : AlertRule} {s : Spec}
    (h : requestedSpec p signal req rule = .ok s) :
    s.Kinded ∧ (rule.source = .pushed → ∃ m, s = .metric m) := by
  have hmetric : ∀ {x : Except String MetricRuleSpec}, Spec.metric <$> x = .ok s →
      ∃ m, s = .metric m := by
    intro x hx
    cases x with
    | error e => cases hx
    | ok m =>
      cases hx
      exact ⟨m, rfl⟩
  unfold requestedSpec at h
  split at h
  · have hm : ∃ m, s = .metric m := by
      split_ifs at h
      · exact hmetric h
      · exact hmetric h
    obtain ⟨m, rfl⟩ := hm
    exact ⟨trivial, fun _ => ⟨m, rfl⟩⟩
  · split_ifs at h with hpushed
    split at h
    · cases h
    simp only [bind_eq_ok] at h
    obtain ⟨_, _, h⟩ := h
    split_ifs at h
    cases h
    exact ⟨trivial, fun hp => absurd hp hpushed⟩
  · split_ifs at h with hpushed
    exact ⟨traceSpec_kinded h, fun hp => absurd hp hpushed⟩
  · cases h

/-- **What `buildRule` accepts, the columns can hold.** -/
theorem buildRule_storable (h : buildRule p orgID id req = .ok r) :
    r.Storable ∧ PlainFields orgID id r := by
  unfold buildRule at h
  split_ifs at h
  simp only [bind_eq_ok, pure_eq_ok] at h
  obtain ⟨fields, hfields, rule, hrule, spec, hspec, rfl⟩ := h
  obtain ⟨hplain, _, hnone⟩ := ruleFields_plain hfields
  have hrule := scopeEnvironments_plain hplain hnone hrule
  obtain ⟨hkinded, hpushed⟩ := requestedSpec_eq_ok hspec
  have hsame : PlainFields orgID id (rule.withSpec spec) := by
    cases spec <;> exact ⟨hrule.id, hrule.organizationID, hrule.evalSeconds,
      hrule.checkScope, hrule.source, hrule.resolveMode, hrule.environments⟩
  have hsource : ruleSource (rule.withSpec spec) = (rule.withSpec spec).source := by
    unfold ruleSource
    rcases hsame.source with htelemetry | hp
    · simp [htelemetry]
    · have hp' : rule.source = .pushed := by cases spec <;> exact hp
      obtain ⟨m, rfl⟩ := hpushed hp'
      simp [hp', AlertRule.withSpec, AlertRule.noSpec]
  have hresolve : resolveModeOf (rule.withSpec spec) = (rule.withSpec spec).resolveMode := by
    unfold resolveModeOf
    rcases hsame.resolveMode with hauto | hmanual
    · simp [hauto]
    · simp [hmanual]
  have henvs : environmentsOf (rule.withSpec spec) = (rule.withSpec spec).environments := by
    unfold environmentsOf
    cases hmode : (rule.withSpec spec).environmentMode with
    | each => simp [hsame.environments hmode]
    | only => simp
  exact ⟨⟨⟨rule, spec, hkinded, rfl⟩, hsource, hresolve, henvs⟩, hsame⟩

/-! ## Saving and reading back -/

/-- The rule that was read is the accepted one in every field that a request describes, and
in its check scope.  The channels of a rule are a set. -/
def ReadsAs (accepted read : AlertRule) : Prop :=
  read = { accepted with
    id := read.id, channelIDs := read.channelIDs, evalSeconds := read.evalSeconds,
    createdAt := read.createdAt, updatedAt := read.updatedAt } ∧
  ∀ ch, ch ∈ read.channelIDs ↔ ch ∈ accepted.channelIDs

/-- A create stored what was accepted, and took nothing away. -/
structure CreatedAsAccepted (db db' : Database) (id : UUID) (r : AlertRule) : Prop where
  read : ∃ read, db'.getRule r.organizationID id = .ok read ∧ ReadsAs r read
  rows : ∀ row ∈ db.rules, row ∈ db'.rules
  routes : ∀ rt : Route, rt.alertRuleID ≠ id → (rt ∈ db'.routes ↔ rt ∈ db.routes)

/-- An update stored what was accepted, and kept the columns that a rule does not
describe, the other rows and their routes. -/
structure UpdatedAsAccepted (db db' : Database) (orgID : UUID) (row : Row)
    (r : AlertRule) : Prop where
  read : ∃ read, db'.getRule orgID r.id = .ok read ∧ read.id = r.id ∧ ReadsAs r read
  columns : ∃ row', db'.row? orgID r.id = some row' ∧
    row'.evaluationInterval = row.evaluationInterval ∧ row'.createdAt = row.createdAt
  rows : ∀ row' : Row, row'.id ≠ r.id → (row' ∈ db'.rules ↔ row' ∈ db.rules)
  routes : ∀ rt : Route, rt.alertRuleID ≠ r.id → (rt ∈ db'.routes ↔ rt ∈ db.routes)

theorem createdAsAccepted (hstorable : r.Storable) (h : createRule c db id now r = .ok db') :
    CreatedAsAccepted db db' id r := by
  obtain ⟨_, hrules, hroutes⟩ := createRule_eq_ok h
  have hread := getRule_createRule h
  rw [scanRule_insertedRow hstorable] at hread
  refine ⟨⟨_, hread, rfl, fun ch => mem_dedupe⟩, ?_, ?_⟩
  · intro row hrow
    rw [hrules]
    exact List.mem_append_left _ hrow
  · intro rt hne
    rw [hroutes]
    exact mem_replacedRoutes_other hne

theorem updateRule_keeps (h : updateRule c db orgID now r = .ok db') :
    (∀ row' : Row, row'.id ≠ r.id → (row' ∈ db'.rules ↔ row' ∈ db.rules)) ∧
      ∀ rt : Route, rt.alertRuleID ≠ r.id → (rt ∈ db'.routes ↔ rt ∈ db.routes) := by
  obtain ⟨_, _, hrules, hroutes⟩ := updateRule_eq_ok h
  constructor
  · intro row' hne
    rw [hrules, mem_updateWhere]
    constructor
    · rintro ⟨row₀, hmem, ⟨hhit, rfl⟩ | ⟨_, rfl⟩⟩
      · simp only [Bool.and_eq_true, decide_eq_true_eq] at hhit
        exact absurd hhit.2 hne
      · exact hmem
    · intro hmem
      exact ⟨row', hmem, Or.inr ⟨by simp [hne], rfl⟩⟩
  · intro rt hne
    rw [hroutes]
    exact mem_replacedRoutes_other hne

/-- An accepted update is stored as accepted exactly when the row had its signal and no
declared check scope, the two columns that the `SET` clause leaves out. -/
theorem updatedAsAccepted_iff {row : Row} (hstorable : r.Storable) (hplain : PlainFields orgID id r)
    (hrow : db.row? orgID r.id = some row) (h : updateRule c db orgID now r = .ok db') :
    UpdatedAsAccepted db db' orgID row r ↔ row.signal = r.signal ∧ row.checkScope = none := by
  have hread := getRule_updateRule h hrow
  obtain ⟨_, horg, hid⟩ := row?_eq_some.1 hrow
  constructor
  · rintro ⟨⟨read, hget, _, hsame, _⟩, _, _, _⟩
    rw [hread] at hget
    cases hget
    have hsignal := congrArg AlertRule.signal hsame
    have hscope := congrArg AlertRule.checkScope hsame
    have hsignal' : row.signal = r.signal := by
      simpa only [scanRule_signal, Row.updated] using hsignal
    have hscope' : row.checkScope = r.checkScope := by
      simpa only [scanRule_checkScope, Row.updated] using hscope
    exact ⟨hsignal', hscope'.trans hplain.checkScope⟩
  · rintro ⟨hsignal, hscope⟩
    obtain ⟨hrows, hroutes⟩ := updateRule_keeps h
    rw [scanRule_updated hstorable hsignal] at hread
    have hscope' : row.checkScope = r.checkScope := hscope.trans hplain.checkScope.symm
    have horg' : row.organizationID = r.organizationID :=
      horg.trans hplain.organizationID.symm
    refine ⟨⟨_, hread, hid, ?_, fun ch => mem_dedupe⟩, ?_, hrows, hroutes⟩
    · simp only [hscope', horg']
    · exact ⟨_, row?_updateRule h hrow, rfl, rfl⟩

/-- **When saving a rule stores what was accepted.**  A create always does; an update does
exactly over a row of the accepted signal without a declared check scope. -/
theorem saved_reads_back_iff (p : Parsers) (c : Constraints) (orgID id : UUID)
    (req : AlertRuleRequest) (r : AlertRule) (hbuilt : buildRule p orgID id req = .ok r) :
    (∀ db db' newID now, createRule c db newID now r = .ok db' →
      CreatedAsAccepted db db' newID r) ∧
    (∀ db db' now row, db.row? orgID id = some row →
      updateRule c db orgID now r = .ok db' →
      (UpdatedAsAccepted db db' orgID row r ↔ row.signal = r.signal ∧ row.checkScope = none)) := by
  obtain ⟨hstorable, hplain⟩ := buildRule_storable hbuilt
  constructor
  · intro db db' newID now hcreate
    exact createdAsAccepted hstorable hcreate
  · intro db db' now row hrow hupdate
    have hrow' : db.row? orgID r.id = some row := by
      rw [hplain.id]
      exact hrow
    exact updatedAsAccepted_iff hstorable hplain hrow' hupdate

/-! A log check on errors, saved over a metric check on a queue's depth. -/

private def fiveMinutes : Parsers where
  parseUUID := fun _ => none
  parseDuration := fun s => if s = "5m" then some (5 * Alerting.minute) else none
  validateTemplate := fun _ => none
  validateLiquid := fun _ => none

private def noConstraints : Constraints where
  admitsRule := fun _ => true
  admitsRoute := fun _ => true

private def errorsRequest : AlertRuleRequest where
  name := "errors"
  signal := "log"
  logSpec := some { minSeverity := 17, threshold := 1, windowSeconds := 300 }

private def errorsRule : AlertRule where
  id := 7
  organizationID := 1
  name := "errors"
  signal := .log
  severity := .warning
  enabled := true
  resolveMode := .manual
  logSpec := some { minSeverity := 17, threshold := 1, windowSeconds := 300,
                    comparison := "at_least" }

private theorem errorsRequest_built :
    buildRule fiveMinutes 1 7 errorsRequest = .ok errorsRule := by rfl

private def depthRow : Row where
  id := 7
  organizationID := 1
  name := "depth"
  signal := .metric
  ruleSpec := MetricRuleSpec.marshal
    { metricName := "queue.depth", aggregation := "last", operator := "gt", threshold := 100,
      forWindow := "5m" }
  createdAt := 10
  updatedAt := 10

private def oneRule (row : Row) : Database where
  rules := [row]
  routes := []
  ruleKey := List.nodup_singleton _
  routeKey := List.nodup_nil

theorem saved_reads_back_errors :
    (∃ db', createRule noConstraints (oneRule depthRow) 8 20 errorsRule = .ok db' ∧
      CreatedAsAccepted (oneRule depthRow) db' 8 errorsRule) ∧
    (∃ db', updateRule noConstraints (oneRule { depthRow with signal := .log }) 1 20
        errorsRule = .ok db' ∧
      UpdatedAsAccepted (oneRule { depthRow with signal := .log }) db' 1
        { depthRow with signal := .log } errorsRule) := by
  have hsaved := saved_reads_back_iff fiveMinutes noConstraints 1 7 errorsRequest errorsRule
    errorsRequest_built
  obtain ⟨created, hcreate⟩ : ∃ db',
      createRule noConstraints (oneRule depthRow) 8 20 errorsRule = .ok db' :=
    ⟨_, rfl⟩
  obtain ⟨updated, hupdate⟩ : ∃ db', updateRule noConstraints
      (oneRule { depthRow with signal := .log }) 1 20 errorsRule = .ok db' := ⟨_, rfl⟩
  exact ⟨⟨created, hcreate, hsaved.1 _ _ _ _ hcreate⟩,
    ⟨updated, hupdate, (hsaved.2 _ _ _ _ rfl hupdate).2 ⟨rfl, rfl⟩⟩⟩

/-- The row stays a metric row, and the accepted log spec is read as a metric spec. -/
theorem changed_signal_lost :
    buildRule fiveMinutes 1 7 errorsRequest = .ok errorsRule ∧
    (oneRule depthRow).row? 1 7 = some depthRow ∧
    ∃ db', updateRule noConstraints (oneRule depthRow) 1 20 errorsRule = .ok db' ∧
      (∃ read, db'.getRule 1 7 = .ok read ∧ read.signal = .metric ∧ read.logSpec = none) ∧
      ¬ UpdatedAsAccepted (oneRule depthRow) db' 1 depthRow errorsRule := by
  obtain ⟨hstorable, hplain⟩ := buildRule_storable errorsRequest_built
  have hrow : (oneRule depthRow).row? 1 7 = some depthRow := rfl
  obtain ⟨db', hupdate⟩ : ∃ db',
      updateRule noConstraints (oneRule depthRow) 1 20 errorsRule = .ok db' := ⟨_, rfl⟩
  have hread := getRule_updateRule hupdate hrow
  refine ⟨errorsRequest_built, hrow, db', hupdate, ⟨_, hread, rfl, rfl⟩, ?_⟩
  intro hsaved
  have hsignal := ((updatedAsAccepted_iff hstorable hplain hrow hupdate).1 hsaved).1
  cases hsignal

end Sluicio.Api
