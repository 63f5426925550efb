import Sluicio.Alerting.Engine

/-!
# Evaluating rules

Each evaluator first reads telemetry and decides whether its rule is breached, or
that there is nothing to decide.  What follows is the same for all of them: the
rule's firing instance is opened, confirmed or resolved.  The evaluators are
written up to their verdict, and `State.drive` is the rest.

An evaluation is about one environment, or about the whole scope of its rule
(`none`).
-/

namespace Sluicio.Alerting

/-- What the telemetry store answers; `none` is a failed query.  Values are
rationals: no evaluator reads more of a float than its order. -/
structure Telemetry where
  /-- value and samples -/
  metricAggregate : AlertRule → Option String → Option (Rat × Nat)
  metricAggregateGrouped : AlertRule → Option String → Option (List (Rat × Nat))
  countLogs : AlertRule → Option String → Option Nat
  countErrorTraces : AlertRule → Option String → Option Nat
  countMatchingTraces : AlertRule → Option String → Option Nat
  traceLatencyMs : AlertRule → Option String → Option (Rat × Nat)
  /-- count, and whether the scope has any service -/
  totalTraces : AlertRule → Option String → Option (Nat × Bool)

/-- A store that answers metric queries only, each with this value. -/
def Telemetry.metricOnly (value : Rat) : Telemetry where
  metricAggregate := fun _ _ => some (value, 1)
  metricAggregateGrouped := fun _ _ => none
  countLogs := fun _ _ => none
  countErrorTraces := fun _ _ => none
  countMatchingTraces := fun _ _ => none
  traceLatencyMs := fun _ _ => none
  totalTraces := fun _ _ => none

/-! ## Verdicts -/

/-- How an evaluation confirms an instance whose condition still holds. -/
inductive Confirm where
  | touch | refresh

/-- The reading to record, whether the rule is breached, and how a standing breach
is confirmed. -/
structure Verdict where
  reading : Option Rat := none
  breached : Bool
  confirm : Confirm := .touch

inductive MetricOutcome where
  | clear | breach | noData | unknown

def MetricOutcome.firing : MetricOutcome → Bool
  | .breach | .noData => true
  | .clear | .unknown => false

def decideMetric (spec : MetricRuleSpec) (samples : Nat) (value : Rat)
    (everReported : Bool) : MetricOutcome :=
  if samples = 0 then
    if spec.fireOnNoData && everReported then .noData else .unknown
  else if evaluateBreach spec.operator value spec.threshold then .breach
  else .clear

/-- `evaluateRule`, for a metric rule that is not split. -/
def evaluateRule (tel : Telemetry) (env : Option String) (latest : Option Rat)
    (rule : AlertRule) (spec : MetricRuleSpec) : Option Verdict :=
  match tel.metricAggregate rule env with
  | none => none
  | some (value, samples) =>
    let everReported := samples = 0 && spec.fireOnNoData && latest.isSome
    some { reading := if samples > 0 then some value else none
           breached := (decideMetric spec samples value everReported).firing
           confirm := .refresh }

def worstGroup : List (Rat × Nat) → Option Rat
  | [] => none
  | (value, samples) :: groups =>
    match worstGroup groups with
    | none => if samples > 0 then some value else none
    | some worst => if samples > 0 ∧ value > worst then some value else some worst

def evaluateSplitRule (tel : Telemetry) (env : Option String) (latest : Option Rat)
    (rule : AlertRule) (spec : MetricRuleSpec) : Option Verdict :=
  match tel.metricAggregateGrouped rule env with
  | none => none
  | some groups =>
    let breaching := groups.any fun g =>
      g.2 > 0 && evaluateBreach spec.operator g.1 spec.threshold
    let noData := (groups.map Prod.snd).sum = 0 && spec.fireOnNoData && latest.isSome
    some { reading := if rule.displayOnService then worstGroup groups else none
           breached := breaching || noData
           confirm := .refresh }

def evaluatePushedRule (latest : Option Rat) (spec : MetricRuleSpec) : Option Verdict :=
  match latest with
  | none => none
  | some value => some { breached := evaluateBreach spec.operator value spec.threshold }

def evaluateLogRule (tel : Telemetry) (env : Option String) (rule : AlertRule)
    (spec : LogRuleSpec) : Option Verdict :=
  let threshold := if spec.threshold < 1 then 1 else spec.threshold
  match tel.countLogs rule env with
  | none => none
  | some count =>
    some { breached := if spec.firesBelow then (count : Int) < threshold
                       else threshold ≤ count }

def evaluateTraceErrorRule (tel : Telemetry) (env : Option String) (rule : AlertRule)
    (spec : TraceErrorRuleSpec) : Option Verdict :=
  if rule.ruleHasScope then
    let threshold := if spec.threshold < 1 then 1 else spec.threshold
    match tel.countErrorTraces rule env with
    | none => none
    | some count => some { breached := threshold ≤ (count : Int) }
  else none

def evaluateTraceAttributeRule (tel : Telemetry) (env : Option String) (rule : AlertRule)
    (spec : TraceAttributeRuleSpec) : Option Verdict :=
  if rule.ruleHasScope && !spec.attrs.isEmpty then
    let threshold := if spec.threshold < 1 then 1 else spec.threshold
    match tel.countMatchingTraces rule env with
    | none => none
    | some count => some { breached := threshold ≤ (count : Int) }
  else none

def evaluateTraceLatencyRule (tel : Telemetry) (env : Option String) (rule : AlertRule)
    (spec : TraceLatencyRuleSpec) : Option Verdict :=
  if rule.ruleHasScope then
    match tel.traceLatencyMs rule env with
    | none => none
    | some (latencyMs, samples) =>
      some { breached := samples > 0 && spec.thresholdMs > 0 &&
               (spec.thresholdMs : Rat) ≤ latencyMs }
  else none

/-- `evaluateTraceVolumeRule`: a scope without services is no low traffic. -/
def evaluateTraceVolumeRule (tel : Telemetry) (env : Option String) (rule : AlertRule)
    (spec : TraceVolumeRuleSpec) : Option Verdict :=
  if rule.ruleHasScope then
    match tel.totalTraces rule env with
    | none => none
    | some (total, hasServices) =>
      if hasServices then
        some { breached := spec.threshold > 0 && (total : Int) < spec.threshold }
      else none
  else none

/-- The evaluator of the loop that lists the rule.  Pushed rules and trace
completion have loops of their own: the first evaluates the latest pushed reading
and never an environment, the second opens instances by trace. -/
def verdict (tel : Telemetry) (env : Option String) (latest : Option Rat)
    (rule : AlertRule) : Option Verdict :=
  match rule.spec with
  | .metric spec =>
    if rule.source = .pushed then evaluatePushedRule latest spec
    else if spec.splitBy = "" then evaluateRule tel env latest rule spec
    else evaluateSplitRule tel env latest rule spec
  | .log spec => evaluateLogRule tel env rule spec
  | .traceError spec => evaluateTraceErrorRule tel env rule spec
  | .traceAttribute spec => evaluateTraceAttributeRule tel env rule spec
  | .traceLatency spec => evaluateTraceLatencyRule tel env rule spec
  | .traceVolume spec => evaluateTraceVolumeRule tel env rule spec
  | .traceCompletion => none

def State.recordReading (s : State) (ruleID : UUID) : Option Rat → State
  | none => s
  | some value =>
    { s with readings := fun id => if id = ruleID then some value else s.readings id }

/-- A new instance, and its first notification. -/
def State.openFiring (s : State) (fault : Fault) (env : Option String) (rule : AlertRule) : State :=
  let (id, s) := s.openInstance rule.id (fingerprintFor env) env
  s.enqueueFiring fault env id rule

/-- The tail every evaluator shares. -/
def State.drive (s : State) (fault : Fault) (env : Option String) (rule : AlertRule)
    (v : Verdict) : State :=
  match v.breached, s.activeInstance rule.id (fingerprintFor env) with
  | true, none => s.openFiring fault env rule
  | true, some active =>
    match v.confirm with
    | .touch => s.touchInstance active.id
    | .refresh => s.refreshInstance active.id env
  | false, some active => s.resolveOrHold fault env active rule
  | false, none => s

/-- One evaluation of a rule for one environment. -/
def State.evaluate (s : State) (fault : Fault) (tel : Telemetry) (env : Option String)
    (rule : AlertRule) : State :=
  match verdict tel env (s.readings rule.id) rule with
  | none => s
  | some v => (s.recordReading rule.id v.reading).drive fault env rule v

/-- `fireDelayed`, for the instance of one trace and stage.  It notifies the
rule's own channels, unrouted, for the store's default window, and leaves the
watermark alone. -/
def State.fireDelayed (s : State) (fault : Fault) (rule : AlertRule)
    (integrationID : UUID) (fingerprint : String) : State :=
  match s.activeInstance rule.id fingerprint with
  | some active => s.touchInstance active.id
  | none =>
    let (id, s) := s.openInstance rule.id fingerprint none
    match suppressingWindowForIntegration s.world.windows s.world.now integrationID with
    | some w => s.markInstanceSuppressed id w
    | none =>
      if rule.channelIDs = [] then s
      else (s.enqueueJobs fault id rule.channelIDs 0).2

/-- `resolveStageFiring`: silent. -/
def State.resolveStageFiring (s : State) (ruleID : UUID) (fingerprint : String) : State :=
  match s.activeInstance ruleID fingerprint with
  | none => s
  | some active => s.resolveInstance active.id

end Sluicio.Alerting
