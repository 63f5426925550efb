import Sluicio.Alerting.Store.Rules
import Sluicio.Alerting.Evaluate
import Mathlib.Algebra.Order.Ring.Rat

/-!
# What a stored rule watches

The engine evaluates a rule in two parts: a query, made of the row's scope and the spec, and a
decision on what the telemetry store answers.  Two rules have the same firing condition when
every store makes them fire alike, and that comes down to the same query and the same decision.

Times are told by the length of the window; all of them end at the moment of the evaluation.
-/

namespace Sluicio.Alerting

/-! ## Decisions

Of a verdict only the breach is looked at here: as a function of the answer, for each spec. -/

def MetricRuleSpec.decides (s : MetricRuleSpec) (latest : Option Rat) (p : Rat × Nat) : Bool :=
  if p.2 = 0 then s.fireOnNoData && latest.isSome
  else evaluateBreach s.operator p.1 s.threshold

/-- The decision on the aggregates of a split. -/
def MetricRuleSpec.decidesSplit (s : MetricRuleSpec) (latest : Option Rat)
    (groups : List (Rat × Nat)) : Bool :=
  (groups.any fun g => g.2 > 0 && evaluateBreach s.operator g.1 s.threshold) ||
    ((groups.map Prod.snd).sum = 0 && s.fireOnNoData && latest.isSome)

def LogRuleSpec.decides (s : LogRuleSpec) (count : Nat) : Bool :=
  if s.firesBelow then (count : Int) < max s.threshold 1 else max s.threshold 1 ≤ (count : Int)

/-- The decision on a count of traces. -/
def reaches (threshold : Int) (count : Nat) : Bool := max threshold 1 ≤ (count : Int)

def TraceLatencyRuleSpec.decides (s : TraceLatencyRuleSpec) (p : Rat × Nat) : Bool :=
  p.2 > 0 && s.thresholdMs > 0 && (s.thresholdMs : Rat) ≤ p.1

/-- A scope without services decides nothing. -/
def TraceVolumeRuleSpec.decides (s : TraceVolumeRuleSpec) (p : Nat × Bool) : Option Bool :=
  if p.2 then some (s.threshold > 0 && (p.1 : Int) < s.threshold) else none

section Decisions

variable (tel : Telemetry) (env : Option String) (latest : Option Rat) (rule : AlertRule)

theorem breached_evaluateRule (s : MetricRuleSpec) :
    (evaluateRule tel env latest rule s).map Verdict.breached =
      (tel.metricAggregate rule env).map (s.decides latest) := by
  unfold evaluateRule
  cases tel.metricAggregate rule env with
  | none => rfl
  | some p =>
    obtain ⟨value, samples⟩ := p
    show some (decideMetric s samples value _).firing = some (s.decides latest (value, samples))
    unfold decideMetric MetricRuleSpec.decides
    by_cases hzero : samples = 0
    · cases s.fireOnNoData <;> cases latest.isSome <;> simp [hzero, MetricOutcome.firing]
    · cases evaluateBreach s.operator value s.threshold <;> simp [hzero, MetricOutcome.firing]

theorem breached_evaluateSplitRule (s : MetricRuleSpec) :
    (evaluateSplitRule tel env latest rule s).map Verdict.breached =
      (tel.metricAggregateGrouped rule env).map (s.decidesSplit latest) := by
  unfold evaluateSplitRule
  cases tel.metricAggregateGrouped rule env <;> rfl

theorem floor_threshold (threshold : Int) :
    (if threshold < 1 then 1 else threshold) = max threshold 1 := by
  omega

theorem breached_evaluateLogRule (s : LogRuleSpec) :
    (evaluateLogRule tel env rule s).map Verdict.breached =
      (tel.countLogs rule env).map s.decides := by
  unfold evaluateLogRule LogRuleSpec.decides
  simp only [floor_threshold]
  cases tel.countLogs rule env <;> rfl

theorem breached_evaluateTraceErrorRule (s : TraceErrorRuleSpec) (hscope : rule.ruleHasScope) :
    (evaluateTraceErrorRule tel env rule s).map Verdict.breached =
      (tel.countErrorTraces rule env).map (reaches s.threshold) := by
  unfold evaluateTraceErrorRule reaches
  simp only [floor_threshold, hscope, if_true]
  cases tel.countErrorTraces rule env <;> rfl

theorem breached_evaluateTraceAttributeRule (s : TraceAttributeRuleSpec)
    (hscope : rule.ruleHasScope) (hattrs : s.attrs ≠ []) :
    (evaluateTraceAttributeRule tel env rule s).map Verdict.breached =
      (tel.countMatchingTraces rule env).map (reaches s.threshold) := by
  have hguard : (rule.ruleHasScope && !s.attrs.isEmpty) := by
    simp [hscope, hattrs]
  unfold evaluateTraceAttributeRule reaches
  simp only [floor_threshold, hguard, if_true]
  cases tel.countMatchingTraces rule env <;> rfl

theorem breached_evaluateTraceLatencyRule (s : TraceLatencyRuleSpec) (hscope : rule.ruleHasScope) :
    (evaluateTraceLatencyRule tel env rule s).map Verdict.breached =
      (tel.traceLatencyMs rule env).map s.decides := by
  unfold evaluateTraceLatencyRule
  simp only [hscope, if_true]
  cases tel.traceLatencyMs rule env <;> rfl

theorem breached_evaluateTraceVolumeRule (s : TraceVolumeRuleSpec) (hscope : rule.ruleHasScope) :
    (evaluateTraceVolumeRule tel env rule s).map Verdict.breached =
      (tel.totalTraces rule env).bind s.decides := by
  unfold evaluateTraceVolumeRule
  simp only [hscope, if_true]
  cases tel.totalTraces rule env with
  | none => rfl
  | some p =>
    obtain ⟨total, hasServices⟩ := p
    cases hasServices <;> rfl

end Decisions

end Sluicio.Alerting

namespace Sluicio.Alerting.Store

def maxCheckWindow : Duration := 45 * 24 * hour

def clampWindow (d : Duration) : Duration :=
  if d < minute then 5 * minute else if maxCheckWindow < d then maxCheckWindow else d

/-- `WindowDuration`, the same for each spec that counts seconds. -/
def windowDuration (seconds : Int) : Duration := clampWindow (wrap64 (seconds * second))

def MetricRuleSpec.forWindowDuration (parse : String → Option Duration) (s : MetricRuleSpec) :
    Duration :=
  match parse s.forWindow with
  | none => 5 * minute
  | some d => clampWindow d

/-- `Quantile`: the maximum is the quantile 1. -/
def TraceLatencyRuleSpec.quantile (s : TraceLatencyRuleSpec) : Rat :=
  if s.aggregation = "max" then 1 else 19 / 20

/-- What of the cell a rule is bound to. -/
structure Scope where
  serviceName : String
  integrationID : Option UUID
  systemID : Option UUID
  deriving DecidableEq

structure MetricQuery where
  metricName : String
  attrs : List AttrFilter
  aggregation : String
  scope : Scope
  window : Duration

structure LogCountQuery where
  minSeverity : Int
  bodyContains : String
  attrs : List AttrFilter
  scope : Scope
  window : Duration

/-- `TraceErrorQuery`, and `TraceAttributeQuery`, which has the same fields. -/
structure TraceQuery where
  scope : Scope
  attrs : List AttrFilter
  window : Duration

structure TraceLatencyQuery where
  scope : Scope
  quantile : Rat
  window : Duration
  deriving DecidableEq

structure TraceVolumeQuery where
  scope : Scope
  window : Duration

/-- What the telemetry store answers each query; `none` is a failed one. -/
structure Answers where
  metricAggregate : MetricQuery → Option (Rat × Nat)
  metricAggregateGrouped : MetricQuery × String → Option (List (Rat × Nat))
  countLogs : LogCountQuery → Option Nat
  countErrorTraces : TraceQuery → Option Nat
  countMatchingTraces : TraceQuery → Option Nat
  traceLatencyMs : TraceLatencyQuery → Option (Rat × Nat)
  totalTraces : TraceVolumeQuery → Option (Nat × Bool)

open Answers

def AlertRule.scope (r : AlertRule) : Scope := ⟨r.serviceName, r.integrationID, r.systemID⟩

def MetricRuleSpec.query (parse : String → Option Duration) (s : MetricRuleSpec)
    (scope : Scope) : MetricQuery :=
  ⟨s.metricName, s.attrs, s.aggregation, scope, s.forWindowDuration parse⟩

def LogRuleSpec.query (s : LogRuleSpec) (scope : Scope) : LogCountQuery :=
  ⟨s.minSeverity, s.bodyContains, s.attrs, scope, windowDuration s.windowSeconds⟩

def TraceErrorRuleSpec.query (s : TraceErrorRuleSpec) (scope : Scope) : TraceQuery :=
  ⟨scope, s.attrs, windowDuration s.windowSeconds⟩

def TraceAttributeRuleSpec.query (s : TraceAttributeRuleSpec) (scope : Scope) : TraceQuery :=
  ⟨scope, s.attrs, windowDuration s.windowSeconds⟩

def TraceLatencyRuleSpec.query (s : TraceLatencyRuleSpec) (scope : Scope) :
    TraceLatencyQuery :=
  ⟨scope, s.quantile, windowDuration s.windowSeconds⟩

def TraceVolumeRuleSpec.query (s : TraceVolumeRuleSpec) (scope : Scope) : TraceVolumeQuery :=
  ⟨scope, windowDuration s.windowSeconds⟩

/-! ## The rule as the engine has it -/

def parseOperator : String → Operator
  | "gt" => .gt
  | "gte" => .gte
  | "lt" => .lt
  | "lte" => .lte
  | "eq" => .eq
  | "neq" => .neq
  | _ => .other

def MetricRuleSpec.engine (s : MetricRuleSpec) : Alerting.MetricRuleSpec :=
  ⟨parseOperator s.operator, s.threshold, s.fireOnNoData, s.splitBy⟩

def LogRuleSpec.engine (s : LogRuleSpec) : Alerting.LogRuleSpec :=
  ⟨s.threshold, if s.comparison = "fewer_than" then .fewerThan else .atLeast⟩

/-- The part of a spec that decides on an answer. -/
def Spec.engine : Spec → RuleSpec
  | .metric s => .metric s.engine
  | .log s => .log s.engine
  | .traceError s => .traceError ⟨s.threshold, s.attrs⟩
  | .traceLatency s => .traceLatency ⟨s.thresholdMs⟩
  | .traceVolume s => .traceVolume ⟨s.threshold⟩
  | .traceAttribute s => .traceAttribute ⟨s.threshold, s.attrs⟩

def AlertRule.spec? (r : AlertRule) : Option Spec :=
  match r.signal with
  | .metric => some (.metric r.spec)
  | .log => r.logSpec.map .log
  | .trace =>
    (r.traceErrorSpec.map .traceError).or <| (r.traceLatencySpec.map .traceLatency).or <|
      (r.traceVolumeSpec.map .traceVolume).or (r.traceAttributeSpec.map .traceAttribute)

@[simp] theorem AlertRule.spec?_withSpec (r : AlertRule) (s : Spec) :
    (r.withSpec s).spec? = some s := by
  cases s <;> rfl

def AlertRule.engine (r : AlertRule) (s : Spec) : Alerting.AlertRule where
  id := r.id
  integrationID := r.integrationID
  systemID := r.systemID
  serviceName := r.serviceName
  groupID := r.groupID
  spec := s.engine
  enabled := r.enabled
  environmentMode := r.environmentMode
  environments := r.environments
  source := if r.source = .pushed then .pushed else .telemetry
  displayOnService := r.displayOnService
  resolveMode := if r.resolveMode = .manual then .manual else .auto
  channelIDs := r.channelIDs

def Answers.telemetry (a : Answers) (parse : String → Option Duration) (scope : Scope)
    (s : Spec) : Telemetry :=
  match s with
  | .metric s =>
    { Telemetry.metricOnly 0 with
      metricAggregate := fun _ _ => a.metricAggregate (s.query parse scope)
      metricAggregateGrouped := fun _ _ =>
        a.metricAggregateGrouped (s.query parse scope, s.splitBy) }
  | .log s => { Telemetry.metricOnly 0 with countLogs := fun _ _ => a.countLogs (s.query scope) }
  | .traceError s =>
    { Telemetry.metricOnly 0 with
      countErrorTraces := fun _ _ => a.countErrorTraces (s.query scope) }
  | .traceLatency s =>
    { Telemetry.metricOnly 0 with traceLatencyMs := fun _ _ => a.traceLatencyMs (s.query scope) }
  | .traceVolume s =>
    { Telemetry.metricOnly 0 with totalTraces := fun _ _ => a.totalTraces (s.query scope) }
  | .traceAttribute s =>
    { Telemetry.metricOnly 0 with
      countMatchingTraces := fun _ _ => a.countMatchingTraces (s.query scope) }

/-- Whether the rule is breached, over its whole scope and with the last reading of it; `none`
when there is nothing to decide. -/
def AlertRule.fires (parse : String → Option Duration) (a : Answers) (latest : Option Rat)
    (r : AlertRule) : Option Bool :=
  r.spec?.bind fun s =>
    (verdict (a.telemetry parse r.scope s) none latest (r.engine s)).map Verdict.breached

/-- Every telemetry makes the two rules fire alike. -/
def SameFiring (parse : String → Option Duration) (r r' : AlertRule) : Prop :=
  ∀ (a : Answers) (latest : Option Rat), r.fires parse a latest = r'.fires parse a latest

/-- Where a decision is not the same for all answers, it is the same for all stores just when the
queries are. -/
theorem forall_decides_iff {Query Answer Decision : Type*} (decides : Answer → Decision)
    {x y : Answer} (hxy : decides x ≠ decides y) {q q' : Query} :
    (∀ answer : Query → Answer, decides (answer q) = decides (answer q')) ↔ q = q' := by
  classical
  constructor
  · intro hsame
    by_contra hne
    have hq := hsame fun p => if p = q then x else y
    rw [if_pos rfl, if_neg (Ne.symm hne)] at hq
    exact hxy hq
  · rintro rfl answer
    rfl

/-- A store that answers nothing. -/
def Answers.silent : Answers where
  metricAggregate _ := none
  metricAggregateGrouped _ := none
  countLogs _ := none
  countErrorTraces _ := none
  countMatchingTraces _ := none
  traceLatencyMs _ := none
  totalTraces _ := none

variable {parse : String → Option Duration} {a : Answers} {latest : Option Rat} {b b' : AlertRule}

/-! ## Each rule is its query and its decision -/

theorem engine_source {r : AlertRule} (hsource : r.source = .telemetry) (s : Spec) :
    (r.engine s).source = .telemetry := by
  show (if r.source = .pushed then Source.pushed else .telemetry) = .telemetry
  rw [hsource]
  rfl

theorem withSpec_source (b : AlertRule) (s : Spec) : (b.withSpec s).source = b.source := by
  cases s <;> rfl

theorem fires_metric {s : MetricRuleSpec} (hsource : b.source = .telemetry)
    (hsplit : s.splitBy = "") :
    (b.withSpec (.metric s)).fires parse a latest =
      (a.metricAggregate (s.query parse b.scope)).map (s.engine.decides latest) := by
  have hengine := engine_source (r := b.withSpec (.metric s)) hsource (.metric s)
  rw [AlertRule.fires, AlertRule.spec?_withSpec, Option.bind_some]
  show (if (AlertRule.engine _ _).source = .pushed then _
    else if s.splitBy = "" then _ else _ : Option Verdict).map Verdict.breached = _
  rw [hengine, if_neg (by decide), if_pos hsplit, breached_evaluateRule]
  rfl

theorem fires_metricSplit {s : MetricRuleSpec} (hsource : b.source = .telemetry)
    (hsplit : s.splitBy ≠ "") :
    (b.withSpec (.metric s)).fires parse a latest =
      (a.metricAggregateGrouped (s.query parse b.scope, s.splitBy)).map
        (s.engine.decidesSplit latest) := by
  have hengine := engine_source (r := b.withSpec (.metric s)) hsource (.metric s)
  rw [AlertRule.fires, AlertRule.spec?_withSpec, Option.bind_some]
  show (if (AlertRule.engine _ _).source = .pushed then _
    else if s.splitBy = "" then _ else _ : Option Verdict).map Verdict.breached = _
  rw [hengine, if_neg (by decide), if_neg hsplit, breached_evaluateSplitRule]
  rfl

theorem fires_log {s : LogRuleSpec} :
    (b.withSpec (.log s)).fires parse a latest =
      (a.countLogs (s.query b.scope)).map s.engine.decides := by
  rw [AlertRule.fires, AlertRule.spec?_withSpec, Option.bind_some]
  exact breached_evaluateLogRule _ _ _ _

def AlertRule.Bound (r : AlertRule) : Prop :=
  r.integrationID.isSome ∨ r.systemID.isSome ∨ r.serviceName ≠ ""

theorem engine_hasScope {s : Spec} (hbound : b.Bound) : ((b.withSpec s).engine s).ruleHasScope := by
  have hscope : ((b.withSpec s).engine s).ruleHasScope =
      (b.integrationID.isSome || b.systemID.isSome || b.serviceName != "") := by
    cases s <;> rfl
  rw [hscope]
  unfold AlertRule.Bound at hbound
  simpa [or_assoc] using hbound

theorem fires_traceError {s : TraceErrorRuleSpec} (hbound : b.Bound) :
    (b.withSpec (.traceError s)).fires parse a latest =
      (a.countErrorTraces (s.query b.scope)).map (reaches s.threshold) := by
  rw [AlertRule.fires, AlertRule.spec?_withSpec, Option.bind_some]
  exact breached_evaluateTraceErrorRule _ _ _ _ (engine_hasScope hbound)

theorem fires_traceLatency {s : TraceLatencyRuleSpec} (hbound : b.Bound) :
    (b.withSpec (.traceLatency s)).fires parse a latest =
      (a.traceLatencyMs (s.query b.scope)).map
        (Alerting.TraceLatencyRuleSpec.decides ⟨s.thresholdMs⟩) := by
  rw [AlertRule.fires, AlertRule.spec?_withSpec, Option.bind_some]
  exact breached_evaluateTraceLatencyRule _ _ _ _ (engine_hasScope hbound)

theorem fires_traceVolume {s : TraceVolumeRuleSpec} (hbound : b.Bound) :
    (b.withSpec (.traceVolume s)).fires parse a latest =
      (a.totalTraces (s.query b.scope)).bind
        (Alerting.TraceVolumeRuleSpec.decides ⟨s.threshold⟩) := by
  rw [AlertRule.fires, AlertRule.spec?_withSpec, Option.bind_some]
  exact breached_evaluateTraceVolumeRule _ _ _ _ (engine_hasScope hbound)

theorem fires_traceAttribute {s : TraceAttributeRuleSpec} (hbound : b.Bound)
    (hattrs : s.attrs ≠ []) :
    (b.withSpec (.traceAttribute s)).fires parse a latest =
      (a.countMatchingTraces (s.query b.scope)).map (reaches s.threshold) := by
  rw [AlertRule.fires, AlertRule.spec?_withSpec, Option.bind_some]
  exact breached_evaluateTraceAttributeRule _ _ _ _ (engine_hasScope hbound) hattrs

/-! ## When two rules fire alike -/

theorem exists_breach {op : Operator} (hop : op ≠ .other) (threshold : Rat) :
    ∃ value, evaluateBreach op value threshold := by
  cases op with
  | gt => exact ⟨threshold + 1, by simp [evaluateBreach]⟩
  | gte => exact ⟨threshold, by simp [evaluateBreach]⟩
  | lt => exact ⟨threshold - 1, by simp [evaluateBreach]⟩
  | lte => exact ⟨threshold, by simp [evaluateBreach]⟩
  | eq => exact ⟨threshold, by simp [evaluateBreach]⟩
  | neq => exact ⟨threshold + 1, by simp [evaluateBreach]⟩
  | other => exact absurd rfl hop

/-- Metric rules that compare alike fire alike just when they ask the same and treat silence
alike. -/
theorem sameFiring_metric_iff {s s' : MetricRuleSpec} (hsource : b.source = .telemetry)
    (hsource' : b'.source = .telemetry) (hop : parseOperator s.operator ≠ .other)
    (hoperator : s'.operator = s.operator) (hthreshold : s'.threshold = s.threshold)
    (hsplit : s'.splitBy = s.splitBy) :
    SameFiring parse (b.withSpec (.metric s)) (b'.withSpec (.metric s')) ↔
      s.query parse b.scope = s'.query parse b'.scope ∧ s.fireOnNoData = s'.fireOnNoData := by
  obtain ⟨value, hbreach⟩ := exists_breach hop s.threshold
  have hengine (hfire : s.fireOnNoData = s'.fireOnNoData) : s'.engine = s.engine := by
    simp only [MetricRuleSpec.engine, hoperator, hthreshold, hfire, hsplit]
  unfold SameFiring
  by_cases hnone : s.splitBy = ""
  · simp only [fires_metric hsource hnone, fires_metric hsource' (hsplit.trans hnone)]
    constructor
    · intro hsame
      have hfire : s.fireOnNoData = s'.fireOnNoData := by
        have hsilent := hsame { silent with metricAggregate := fun _ => some (0, 0) }
          (some 0)
        simpa [MetricRuleSpec.decides, MetricRuleSpec.engine] using hsilent
      have hne : Option.map (s.engine.decides none) (some (value, 1)) ≠
          Option.map (s.engine.decides none) (some (value, 0)) := by
        simp [MetricRuleSpec.decides, MetricRuleSpec.engine, hbreach]
      refine ⟨(forall_decides_iff _ hne).1 fun answer => ?_, hfire⟩
      have hanswer := hsame { silent with metricAggregate := answer } none
      rwa [hengine hfire] at hanswer
    · rintro ⟨hquery, hfire⟩ a latest
      rw [hquery, hengine hfire]
  · have hnone' : s'.splitBy ≠ "" := hsplit ▸ hnone
    simp only [fires_metricSplit hsource hnone, fires_metricSplit hsource' hnone']
    constructor
    · intro hsame
      have hfire : s.fireOnNoData = s'.fireOnNoData := by
        have hsilent := hsame { silent with metricAggregateGrouped := fun _ => some [] }
          (some 0)
        simpa [MetricRuleSpec.decidesSplit, MetricRuleSpec.engine] using hsilent
      have hne : Option.map (s.engine.decidesSplit none) (some [(value, 1)]) ≠
          Option.map (s.engine.decidesSplit none) (some []) := by
        simp [MetricRuleSpec.decidesSplit, MetricRuleSpec.engine, hbreach]
      have hpair : (s.query parse b.scope, s.splitBy) = (s'.query parse b'.scope, s'.splitBy) := by
        refine (forall_decides_iff _ hne).1 fun answer => ?_
        have hanswer := hsame { silent with metricAggregateGrouped := answer } none
        rwa [hengine hfire] at hanswer
      exact ⟨congrArg Prod.fst hpair, hfire⟩
    · rintro ⟨hquery, hfire⟩ a latest
      rw [hquery, hengine hfire, hsplit]

theorem decides_log {s : LogRuleSpec} (hone : 1 ≤ s.threshold) :
    s.engine.decides 0 = decide (s.comparison = "fewer_than") ∧
      s.engine.decides s.threshold.toNat = !decide (s.comparison = "fewer_than") := by
  have hcast : (s.threshold.toNat : Int) = s.threshold := Int.toNat_of_nonneg (by omega)
  have hmax : max s.threshold 1 = s.threshold := max_eq_left hone
  have hpos : ¬ s.threshold ≤ 0 := by omega
  unfold Alerting.LogRuleSpec.decides LogRuleSpec.engine Alerting.LogRuleSpec.firesBelow
  by_cases hfewer : s.comparison = "fewer_than"
  · simp [hfewer, hmax, hcast]
    omega
  · simp [hfewer, hmax, hcast, hpos]

theorem sameFiring_log_iff {s s' : LogRuleSpec} (hone : 1 ≤ s.threshold)
    (hthreshold : s'.threshold = s.threshold) :
    SameFiring parse (b.withSpec (.log s)) (b'.withSpec (.log s')) ↔
      s.query b.scope = s'.query b'.scope ∧
        (s.comparison = "fewer_than" ↔ s'.comparison = "fewer_than") := by
  obtain ⟨hzero, hreached⟩ := decides_log hone
  have hzero' := (decides_log (s := s') (hthreshold ▸ hone)).1
  have hengine (hway : s.comparison = "fewer_than" ↔ s'.comparison = "fewer_than") :
      s'.engine = s.engine := by
    simp only [LogRuleSpec.engine, hthreshold, hway]
  unfold SameFiring
  simp only [fires_log]
  constructor
  · intro hsame
    have hway : s.comparison = "fewer_than" ↔ s'.comparison = "fewer_than" := by
      have hnone := hsame { silent with countLogs := fun _ => some 0 } none
      have hdecides : s.engine.decides 0 = s'.engine.decides 0 := Option.some.inj hnone
      rwa [hzero, hzero', decide_eq_decide] at hdecides
    have hne : Option.map s.engine.decides (some 0) ≠
        Option.map s.engine.decides (some s.threshold.toNat) := by
      rw [Option.map_some, Option.map_some, hzero, hreached]
      exact fun h => Bool.self_ne_not _ (Option.some.inj h)
    refine ⟨(forall_decides_iff _ hne).1 fun answer => ?_, hway⟩
    have hanswer := hsame { silent with countLogs := answer } none
    rwa [hengine hway] at hanswer
  · rintro ⟨hquery, hway⟩ a latest
    rw [hquery, hengine hway]

theorem map_reaches_ne (threshold : Int) :
    Option.map (reaches threshold) (some 0) ≠
      Option.map (reaches threshold) (some (max threshold 1).toNat) := by
  have hcast : ((max threshold 1).toNat : Int) = max threshold 1 := Int.toNat_of_nonneg (by omega)
  have hzero : reaches threshold 0 = false := decide_eq_false (by omega)
  have hself : reaches threshold (max threshold 1).toNat := decide_eq_true hcast.ge
  simp [hzero, hself]

theorem sameFiring_traceError_iff {s s' : TraceErrorRuleSpec} (hbound : b.Bound)
    (hbound' : b'.Bound) (hthreshold : s'.threshold = s.threshold) :
    SameFiring parse (b.withSpec (.traceError s)) (b'.withSpec (.traceError s')) ↔
      s.query b.scope = s'.query b'.scope := by
  unfold SameFiring
  simp only [fires_traceError hbound, fires_traceError hbound', hthreshold]
  constructor
  · intro hsame
    refine (forall_decides_iff _ (map_reaches_ne s.threshold)).1 fun answer => ?_
    exact hsame { silent with countErrorTraces := answer } none
  · intro hquery a latest
    rw [hquery]

theorem sameFiring_traceAttribute_iff {s s' : TraceAttributeRuleSpec} (hbound : b.Bound)
    (hbound' : b'.Bound) (hattrs : s.attrs ≠ []) (hattrs' : s'.attrs ≠ [])
    (hthreshold : s'.threshold = s.threshold) :
    SameFiring parse (b.withSpec (.traceAttribute s)) (b'.withSpec (.traceAttribute s')) ↔
      s.query b.scope = s'.query b'.scope := by
  unfold SameFiring
  simp only [fires_traceAttribute hbound hattrs, fires_traceAttribute hbound' hattrs', hthreshold]
  constructor
  · intro hsame
    refine (forall_decides_iff _ (map_reaches_ne s.threshold)).1 fun answer => ?_
    exact hsame { silent with countMatchingTraces := answer } none
  · intro hquery a latest
    rw [hquery]

theorem sameFiring_traceLatency_iff {s s' : TraceLatencyRuleSpec} (hbound : b.Bound)
    (hbound' : b'.Bound) (hone : 1 ≤ s.thresholdMs) (hthreshold : s'.thresholdMs = s.thresholdMs) :
    SameFiring parse (b.withSpec (.traceLatency s)) (b'.withSpec (.traceLatency s')) ↔
      s.query b.scope = s'.query b'.scope := by
  have hpos : 0 < s.thresholdMs := hone
  have hne : Option.map (Alerting.TraceLatencyRuleSpec.decides ⟨s.thresholdMs⟩) (some (0, 0)) ≠
      Option.map (Alerting.TraceLatencyRuleSpec.decides ⟨s.thresholdMs⟩)
        (some ((s.thresholdMs : Rat), 1)) := by
    simp [Alerting.TraceLatencyRuleSpec.decides, hpos]
  unfold SameFiring
  simp only [fires_traceLatency hbound, fires_traceLatency hbound', hthreshold]
  constructor
  · intro hsame
    refine (forall_decides_iff _ hne).1 fun answer => ?_
    exact hsame { silent with traceLatencyMs := answer } none
  · intro hquery a latest
    rw [hquery]

theorem sameFiring_traceVolume_iff {s s' : TraceVolumeRuleSpec} (hbound : b.Bound)
    (hbound' : b'.Bound) (hthreshold : s'.threshold = s.threshold) :
    SameFiring parse (b.withSpec (.traceVolume s)) (b'.withSpec (.traceVolume s')) ↔
      s.query b.scope = s'.query b'.scope := by
  have hne : Option.bind (some (0, true)) (Alerting.TraceVolumeRuleSpec.decides ⟨s.threshold⟩) ≠
      Option.bind (some (0, false)) (Alerting.TraceVolumeRuleSpec.decides ⟨s.threshold⟩) := by
    simp [Alerting.TraceVolumeRuleSpec.decides]
  unfold SameFiring
  simp only [fires_traceVolume hbound, fires_traceVolume hbound', hthreshold]
  constructor
  · intro hsame
    refine (forall_decides_iff (fun answer => Option.bind answer _) hne).1 fun answer => ?_
    exact hsame { silent with totalTraces := answer } none
  · intro hquery a latest
    rw [hquery]

end Sluicio.Alerting.Store
