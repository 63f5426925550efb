import Sluicio.Api.TemplateChecks
import Sluicio.Api.AlertRules
import Sluicio.Alerting.Store.Firing

/-!
# Checks captured from rules

A template can be made of the checks a service has: each rule is written down as a check, and
applying the template makes a rule of the check again.  What a check has no field for, and what
the capture leaves out of the fields there are, comes back as a default.
-/

namespace Sluicio.Api.Templates

open Alerting (AttrFilter Severity Duration minute)
open Alerting.Store
open Lib

/-- `string(r.Severity)`. -/
def severityText : Severity → String
  | .info => "info"
  | .warning => "warning"
  | .critical => "critical"

/-- The `alert_severity` of a text. -/
def severityOf : String → Option Severity
  | "info" => some .info
  | "warning" => some .warning
  | "critical" => some .critical
  | _ => none

@[simp] theorem severityOf_severityText (severity : Severity) :
    severityOf (severityText severity) = some severity := by
  cases severity <;> rfl

/-- The check scope of a text; the column takes no other. -/
def checkScopeOf : String → Option (Option CheckScope)
  | "" => some none
  | "process" => some (some .process)
  | "flow" => some (some .flow)
  | _ => none

def captureAttrs (attrs : List AttrFilter) : List CheckAttr :=
  attrs.map fun a => { key := a.key, op := a.op, value := a.value }

def alertRuleToCustomCheck (r : AlertRule) : Option Check :=
  match r.signal with
  | .metric =>
    some {
      name := r.name
      description := r.description
      signal := "metric"
      metric := r.spec.metricName
      agg := r.spec.aggregation
      op := r.spec.operator
      threshold := r.spec.threshold
      attrs := captureAttrs r.spec.attrs
      splitBy := r.spec.splitBy
      severity := severityText r.severity
      unit := r.unit
      display := r.displayOnService }
  | .log =>
    r.logSpec.map fun s =>
      { name := r.name
        description := r.description
        signal := "log"
        minSeverity := s.minSeverity
        bodyContains := s.bodyContains
        logThreshold := s.threshold
        severity := severityText r.severity }
  | .trace =>
    match r.traceErrorSpec, r.traceLatencySpec, r.traceVolumeSpec, r.traceAttributeSpec with
    | some s, _, _, _ =>
      some {
        name := r.name
        description := r.description
        signal := "trace_error"
        traceThreshold := s.threshold
        windowSeconds := s.windowSeconds
        attrs := captureAttrs s.attrs
        severity := severityText r.severity }
    | none, some s, _, _ =>
      some {
        name := r.name
        description := r.description
        signal := "trace_latency"
        thresholdMs := s.thresholdMs
        windowSeconds := s.windowSeconds
        severity := severityText r.severity
        unit := r.unit }
    | none, none, some s, _ =>
      some {
        name := r.name
        description := r.description
        signal := "trace_volume"
        traceThreshold := s.threshold
        windowSeconds := s.windowSeconds
        severity := severityText r.severity }
    | none, none, none, some s =>
      some {
        name := r.name
        description := r.description
        signal := "trace_attribute"
        traceThreshold := s.threshold
        windowSeconds := s.windowSeconds
        attrs := captureAttrs s.attrs
        severity := severityText r.severity }
    | none, none, none, none => none

/-! ## From a check to a rule -/

def traceWindow (seconds : Int) : Int := if seconds < 60 then 300 else seconds

def atLeastOne (threshold : Int) : Int := if threshold < 1 then 1 else threshold

/-- The spec that `createTemplateChecks` gives the rule of a check. -/
def SystemCheck.spec (c : SystemCheck) : Spec :=
  match c.signal with
  | "log" =>
    .log {
      minSeverity := c.minSeverity
      bodyContains := c.bodyContains
      threshold := atLeastOne c.logThreshold
      windowSeconds := 300
      comparison := "at_least" }
  | "trace_error" =>
    .traceError {
      kind := traceErrorSpecKind
      threshold := atLeastOne c.traceThreshold
      windowSeconds := traceWindow c.windowSeconds
      attrs := c.attrs }
  | "trace_latency" =>
    .traceLatency {
      kind := traceLatencySpecKind
      thresholdMs := c.thresholdMs
      windowSeconds := traceWindow c.windowSeconds
      aggregation := "p95" }
  | "trace_volume" =>
    .traceVolume {
      kind := traceVolumeSpecKind
      threshold := atLeastOne c.traceThreshold
      windowSeconds := traceWindow c.windowSeconds }
  | "trace_attribute" =>
    .traceAttribute {
      kind := traceAttributeSpecKind
      threshold := atLeastOne c.traceThreshold
      windowSeconds := traceWindow c.windowSeconds
      attrs := c.attrs }
  | _ =>
    .metric {
      metricName := c.metric
      aggregation := c.agg
      operator := c.op
      threshold := c.threshold
      forWindow := "5m"
      attrs := c.attrs
      splitBy := c.splitBy
      fireOnNoData := c.fireOnNoData }

/-- The rule of a check, without its spec; the id is given on insertion. -/
def SystemCheck.fields (c : SystemCheck) (orgID : UUID) (service : String)
    (channels : List UUID) (severity : Severity) (scope : Option CheckScope) : AlertRule where
  id := 0
  organizationID := orgID
  serviceName := service
  name := c.name
  description := c.description
  signal := .metric
  severity := severity
  evalSeconds := 60
  enabled := true
  checkScope := scope
  displayOnService :=
    match c.spec with
    | .metric _ => c.display
    | _ => false
  unit := c.unit
  channelIDs := channels

/-- The rule of a check; a severity or a scope that its column cannot hold makes none. -/
def SystemCheck.rule (c : SystemCheck) (orgID : UUID) (service : String)
    (channels : List UUID) : Option AlertRule :=
  match severityOf c.severity, checkScopeOf c.scope with
  | some severity, some scope =>
    some ((c.fields orgID service channels severity scope).withSpec c.spec)
  | _, _ => none

/-- What capturing a spec and applying it again makes of it. -/
def reapplied : Spec → Spec
  | .metric s => .metric { s with forWindow := "5m", fireOnNoData := false }
  | .log s =>
    .log {
      minSeverity := s.minSeverity
      bodyContains := s.bodyContains
      threshold := atLeastOne s.threshold
      windowSeconds := 300
      comparison := "at_least" }
  | .traceError s =>
    .traceError {
      kind := traceErrorSpecKind
      threshold := atLeastOne s.threshold
      windowSeconds := traceWindow s.windowSeconds
      attrs := s.attrs }
  | .traceLatency s =>
    .traceLatency {
      kind := traceLatencySpecKind
      thresholdMs := s.thresholdMs
      windowSeconds := traceWindow s.windowSeconds
      aggregation := "p95" }
  | .traceVolume s =>
    .traceVolume {
      kind := traceVolumeSpecKind
      threshold := atLeastOne s.threshold
      windowSeconds := traceWindow s.windowSeconds }
  | .traceAttribute s =>
    .traceAttribute {
      kind := traceAttributeSpecKind
      threshold := atLeastOne s.threshold
      windowSeconds := traceWindow s.windowSeconds
      attrs := s.attrs }

@[simp] theorem captureAttrs_back (attrs : List AttrFilter) :
    ((captureAttrs attrs).map fun a => ({ key := a.key, op := a.op, value := a.value } :
      AttrFilter)) = attrs := by
  simp [captureAttrs, Function.comp_def]

/-- **A rule, captured and applied.**  The name and the severity come back, the spec comes back
as `reapplied` has it, and the check scope never does. -/
theorem captured_rule (b : AlertRule) (s : Spec) (orgID : UUID) (service : String)
    (channels : List UUID) :
    ∃ c, alertRuleToCustomCheck (b.withSpec s) = some c ∧ c.name = b.name ∧
      (customCheckToSystemCheck c).rule orgID service channels =
        some (((customCheckToSystemCheck c).fields orgID service channels b.severity none).withSpec
          (reapplied s)) := by
  cases s <;>
    (refine ⟨_, rfl, rfl, ?_⟩
     simp [SystemCheck.rule, customCheckToSystemCheck, checkScopeOf, SystemCheck.spec,
       AlertRule.withSpec, AlertRule.noSpec, reapplied])

/-! ## What `buildRule` lets through -/

def Accepted : Spec → Prop
  | .metric s => parseOperator s.operator ≠ .other
  | .log s => 1 ≤ s.threshold
  | .traceError s => 1 ≤ s.threshold
  | .traceLatency s => 1 ≤ s.thresholdMs
  | .traceVolume s => 1 ≤ s.threshold ∧ 60 ≤ s.windowSeconds
  | .traceAttribute s => 1 ≤ s.threshold ∧ 60 ≤ s.windowSeconds ∧ s.attrs ≠ []

variable {r : AlertRule} {s : Spec} {seconds : Int}

theorem checkWindow_eq_ok {spec : String} {u : Unit} (h : checkWindow spec seconds = .ok u) :
    60 ≤ seconds := by
  unfold checkWindow at h
  split_ifs at h with hout
  omega

theorem validateAttrs_ne_nil {attrs attrs' : List AttrFilter} (hattrs : attrs ≠ [])
    (h : validateAttrs attrs = .ok attrs') : attrs' ≠ [] := by
  cases attrs with
  | nil => exact absurd rfl hattrs
  | cons f attrs =>
    unfold validateAttrs at h
    rw [List.mapM_cons] at h
    simp only [bind_eq_ok, pure_eq_ok] at h
    obtain ⟨g, -, rest, -, rfl⟩ := h
    exact List.cons_ne_nil _ _

theorem parseOperator_of_valid {op : String} (h : validOperator op) :
    parseOperator op ≠ .other := by
  unfold validOperator at h
  simp only [List.mem_cons, List.not_mem_nil, or_false, decide_eq_true_eq] at h
  rcases h with rfl | rfl | rfl | rfl | rfl | rfl <;> exact fun h => by cases h

theorem validateLogRuleSpec_threshold {s s' : LogRuleSpec}
    (h : validateLogRuleSpec s = .ok s') : 1 ≤ s'.threshold := by
  have hfloor : 1 ≤ if s.threshold < 1 then 1 else s.threshold := by
    split_ifs <;> omega
  unfold validateLogRuleSpec at h
  by_cases hmost : s.comparison = "" ∨ s.comparison = "at_least"
  · simp only [if_pos hmost, bind_eq_ok, pure_eq_ok] at h
    obtain ⟨_, _, _, _, _, _, rfl⟩ := h
    exact hfloor
  by_cases hfewer : s.comparison = "fewer_than"
  · simp only [if_neg hmost, if_pos hfewer, bind_eq_ok, pure_eq_ok] at h
    obtain ⟨_, _, _, _, _, _, rfl⟩ := h
    exact hfloor
  · rw [if_neg hmost, if_neg hfewer] at h
    cases h

variable {req : AlertRuleRequest} {p : Parsers}

theorem traceSpec_accepted (h : traceSpec req = .ok s) : Accepted s := by
  unfold traceSpec at h
  split at h
  · split_ifs at h with hlow
    cases h
    exact not_lt.1 hlow
  · split_ifs at h with hlow
    simp only [bind_eq_ok, pure_eq_ok] at h
    obtain ⟨_, hwindow, rfl⟩ := h
    exact ⟨not_lt.1 hlow, checkWindow_eq_ok hwindow⟩
  · split_ifs at h with hlow hattrs
    · simp only [bind_eq_ok] at h
      obtain ⟨_, _, h⟩ := h
      cases h
    · simp only [bind_eq_ok, pure_eq_ok] at h
      obtain ⟨_, hwindow, _, hchecked, rfl⟩ := h
      exact ⟨not_lt.1 hlow, checkWindow_eq_ok hwindow, validateAttrs_ne_nil hattrs hchecked⟩
  · split_ifs at h with hlow
    simp only [bind_eq_ok, pure_eq_ok] at h
    obtain ⟨_, _, rfl⟩ := h
    exact not_lt.1 hlow
  · cases h

theorem metricSpec_accepted {s s' : MetricRuleSpec} (h : validateMetricRuleSpec p s = .ok s') :
    parseOperator s'.operator ≠ .other := by
  have hvalid : validOperator s.operator ∧ s'.operator = s.operator := by
    simp only [validateMetricRuleSpec] at h
    split_ifs at h with hname hagg hop
    -- with and without a window of its own, each with and without a bad split
    · obtain ⟨_, -, hspec⟩ := bind_eq_ok.1 h
      cases hspec
    · obtain ⟨_, -, hspec⟩ := bind_eq_ok.1 h
      cases hspec
      exact ⟨by simpa using hop, rfl⟩
    · obtain ⟨_, -, hspec⟩ := bind_eq_ok.1 h
      cases hspec
    · obtain ⟨_, -, hspec⟩ := bind_eq_ok.1 h
      cases hspec
      exact ⟨by simpa using hop, rfl⟩
  rw [hvalid.2]
  exact parseOperator_of_valid hvalid.1

theorem requestedSpec_accepted {signal : String} {rule : AlertRule}
    (htelemetry : rule.source = .telemetry) (h : requestedSpec p signal req rule = .ok s) :
    Accepted s := by
  have hsource : ¬ rule.source = .pushed := by
    rw [htelemetry]
    exact fun h => by cases h
  unfold requestedSpec at h
  split at h
  · rw [if_neg hsource] at h
    cases hspec : validateMetricRuleSpec p req.spec with
    | error e =>
      rw [hspec] at h
      cases h
    | ok m =>
      rw [hspec] at h
      cases h
      exact metricSpec_accepted hspec
  · rw [if_neg hsource] at h
    split at h
    · cases h
    simp only [bind_eq_ok] at h
    obtain ⟨s', hspec, h⟩ := h
    split_ifs at h
    cases h
    exact validateLogRuleSpec_threshold hspec
  · rw [if_neg hsource] at h
    split_ifs at h
    exact traceSpec_accepted h
  · cases h

theorem ruleFields_system {orgID id : UUID} {signal : String}
    (h : ruleFields p orgID id signal req = .ok r) (hservice : r.serviceName ≠ "") :
    r.systemID = none := by
  simp only [ruleFields, bind_eq_ok] at h
  obtain ⟨_, _, _, _, _, _, systemID, _, h⟩ := h
  split_ifs at h with hboth honly
  simp only [bind_eq_ok, pure_eq_ok] at h
  obtain ⟨_, _, _, _, _, _, _, _, _, _, _, _, _, _, rfl⟩ := h
  cases systemID with
  | none => rfl
  | some system => exact absurd ⟨rfl, hservice⟩ honly

/-- The environments are all that `scopeEnvironments` sets. -/
theorem scopeEnvironments_eq_ok {fields : AlertRule} (h : scopeEnvironments req fields = .ok r) :
    r = { fields with environmentMode := r.environmentMode, environments := r.environments } := by
  unfold scopeEnvironments at h
  split at h
  · cases h
    rfl
  · cases h
    rfl
  · split_ifs at h
    cases h
    rfl
  · cases h

/-- A rule of the table that was accepted at some time.  The columns a request does not set are
the row's own: those of a rule that a template made, and that was edited since, too. -/
def WasBuilt (p : Parsers) (orgID : UUID) (r : AlertRule) : Prop :=
  ∃ id req rule, buildRule p orgID id req = .ok rule ∧
    r = { rule with
      id := r.id, channelIDs := r.channelIDs, evalSeconds := r.evalSeconds,
      checkScope := r.checkScope, createdAt := r.createdAt, updatedAt := r.updatedAt }

theorem WasBuilt.spec {orgID : UUID} (h : WasBuilt p orgID r) (hsource : r.source = .telemetry)
    (hservice : r.serviceName ≠ "") :
    ∃ (b : AlertRule) (s : Spec), r = b.withSpec s ∧ Accepted s ∧ b.systemID = none := by
  obtain ⟨id, req, rule, hbuilt, hsame⟩ := h
  unfold buildRule at hbuilt
  split_ifs at hbuilt
  simp only [bind_eq_ok, pure_eq_ok] at hbuilt
  obtain ⟨fields, hfields, bound, hbound, s, hs, rfl⟩ := hbuilt
  have henvs := scopeEnvironments_eq_ok hbound
  have hscope : bound.serviceName = r.serviceName ∧ bound.source = r.source := by
    rw [hsame]
    cases s <;> exact ⟨rfl, rfl⟩
  have hsystem : bound.systemID = none := by
    rw [← hscope.1] at hservice
    rw [henvs] at hservice ⊢
    exact ruleFields_system (r := fields) hfields hservice
  refine ⟨{ bound with
    id := r.id, channelIDs := r.channelIDs, evalSeconds := r.evalSeconds,
    checkScope := r.checkScope, createdAt := r.createdAt, updatedAt := r.updatedAt }, s, ?_,
    requestedSpec_accepted (hscope.2.trans hsource) hs, hsystem⟩
  rw [hsame]
  cases s <;> rfl

/-! ## What comes back -/

/-- The windows and directions that capturing and applying a spec keeps. -/
def Kept (parse : String → Option Duration) : Spec → Prop
  | .metric s => s.forWindowDuration parse = 5 * minute ∧ s.fireOnNoData = false
  | .log s =>
    s.attrs = [] ∧ windowDuration s.windowSeconds = 5 * minute ∧ s.comparison ≠ "fewer_than"
  | .traceError s => s.windowSeconds < 60 → windowDuration s.windowSeconds = 5 * minute
  | .traceLatency s =>
    (s.windowSeconds < 60 → windowDuration s.windowSeconds = 5 * minute) ∧ s.aggregation ≠ "max"
  | .traceVolume _ | .traceAttribute _ => True

theorem windowDuration_default : windowDuration 300 = 5 * minute := by decide

theorem windowDuration_traceWindow :
    windowDuration seconds = windowDuration (traceWindow seconds) ↔
      (seconds < 60 → windowDuration seconds = 5 * minute) := by
  unfold traceWindow
  by_cases hshort : seconds < 60
  · simp [hshort, windowDuration_default]
  · simp [hshort]

theorem traceWindow_of_long (h : 60 ≤ seconds) :
    traceWindow seconds = seconds := if_neg (not_lt.2 h)

theorem atLeastOne_of {threshold : Int} (h : 1 ≤ threshold) : atLeastOne threshold = threshold :=
  if_neg (not_lt.2 h)

variable {parse : String → Option Duration} {b b' : AlertRule}

/-- **Which specs come back with their firing condition**, when the rule goes to its own service
or another, whose name `b` already has. -/
theorem sameFiring_reapplied_iff (hparse : parse "5m" = some (5 * minute)) (hs : Accepted s)
    (hsource : b.source = .telemetry) (hsource' : b'.source = .telemetry)
    (hservice : b.serviceName ≠ "") (hsystem : b.systemID = none)
    (hscope : b'.scope = ⟨b.serviceName, none, none⟩) :
    SameFiring parse (b.withSpec s) (b'.withSpec (reapplied s)) ↔
      b.integrationID = none ∧ Kept parse s := by
  have hsame : b.scope = b'.scope ↔ b.integrationID = none := by
    rw [hscope]
    unfold AlertRule.scope
    simp [hsystem]
  have hbound : b.Bound := .inr (.inr hservice)
  have hbound' : b'.Bound := by
    have hname : b'.serviceName = b.serviceName := congrArg Scope.serviceName hscope
    exact .inr (.inr (hname ▸ hservice))
  cases s with
  | metric s =>
    have hdefault : MetricRuleSpec.forWindowDuration parse
        { s with forWindow := "5m", fireOnNoData := false } = 5 * minute := by
      unfold MetricRuleSpec.forWindowDuration
      simp only [hparse]
      decide
    have hiff := @sameFiring_metric_iff parse b b' s
      { s with forWindow := "5m", fireOnNoData := false } hsource hsource' hs rfl rfl rfl
    refine hiff.trans ?_
    simp [MetricRuleSpec.query, hdefault, hsame, Kept, and_assoc]
  | log s =>
    have hone : 1 ≤ s.threshold := hs
    rw [reapplied, sameFiring_log_iff hone (atLeastOne_of hone)]
    simp [LogRuleSpec.query, windowDuration_default, hsame, Kept]
    tauto
  | traceError s =>
    have hone : 1 ≤ s.threshold := hs
    rw [reapplied, sameFiring_traceError_iff hbound hbound' (atLeastOne_of hone)]
    simp [TraceErrorRuleSpec.query, hsame, Kept, windowDuration_traceWindow]
  | traceLatency s =>
    have hmax : s.quantile = 19 / 20 ↔ s.aggregation ≠ "max" := by
      unfold TraceLatencyRuleSpec.quantile
      split_ifs with haggregation
      · have hne : ¬ (1 : Rat) = 19 / 20 := by decide +kernel
        simp [haggregation, hne]
      · simp [haggregation]
    have hiff := @sameFiring_traceLatency_iff parse b b' s
      ⟨traceLatencySpecKind, s.thresholdMs, traceWindow s.windowSeconds, "p95"⟩ hbound hbound' hs
      rfl
    refine hiff.trans ?_
    have hp95 : TraceLatencyRuleSpec.quantile
        ⟨traceLatencySpecKind, s.thresholdMs, traceWindow s.windowSeconds, "p95"⟩ = 19 / 20 := rfl
    simp only [TraceLatencyRuleSpec.query, TraceLatencyQuery.mk.injEq, hsame, hp95, hmax, Kept,
      windowDuration_traceWindow]
    tauto
  | traceVolume s =>
    obtain ⟨hone, hlong⟩ : 1 ≤ s.threshold ∧ 60 ≤ s.windowSeconds := hs
    rw [reapplied, sameFiring_traceVolume_iff hbound hbound' (atLeastOne_of hone)]
    simp [TraceVolumeRuleSpec.query, hsame, Kept, traceWindow_of_long hlong]
  | traceAttribute s =>
    obtain ⟨hone, hlong, hattrs⟩ : 1 ≤ s.threshold ∧ 60 ≤ s.windowSeconds ∧ s.attrs ≠ [] := hs
    have hiff := @sameFiring_traceAttribute_iff parse b b' s
      ⟨traceAttributeSpecKind, atLeastOne s.threshold, traceWindow s.windowSeconds, s.attrs⟩
      hbound hbound' hattrs hattrs (atLeastOne_of hone)
    refine hiff.trans ?_
    simp [TraceAttributeRuleSpec.query, hsame, Kept, traceWindow_of_long hlong]

end Sluicio.Api.Templates
