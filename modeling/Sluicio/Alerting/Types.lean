import Sluicio.Catalog
import Mathlib.Algebra.Ring.Int.Defs
import Mathlib.Algebra.Ring.Nat

/-!
# Alert rules, instances and delivery jobs

The rows the alert engine reads and writes.  Times are nanoseconds on one clock
shared by the engine and the database; a `time.Duration` is a signed count of
nanoseconds.
-/

namespace Sluicio.Alerting

/-- `time.Time`, in nanoseconds. -/
abbrev Time := Nat

/-- `time.Duration`, in nanoseconds. -/
abbrev Duration := Int

def second : Duration := 1000000000
def minute : Duration := 60 * second
def hour : Duration := 60 * minute

/-- `int64` arithmetic wraps, that of durations with it. -/
def wrap64 (x : Int) : Int := Int.bmod x (2 ^ 64)

/-! ## Rules -/

/-- The `alert_severity` enum. -/
inductive Severity where
  | info | warning | critical
  deriving DecidableEq

inductive Operator where
  | gt | gte | lt | lte | eq | neq
  | other
  deriving DecidableEq

def evaluateBreach (op : Operator) (value threshold : Rat) : Bool :=
  match op with
  | .gt => threshold < value
  | .gte => threshold ≤ value
  | .lt => value < threshold
  | .lte => value ≤ threshold
  | .eq => value = threshold
  | .neq => value ≠ threshold
  | .other => false

structure AttrFilter where
  key : String
  op : String
  value : String
  deriving DecidableEq

structure MetricRuleSpec where
  operator : Operator
  threshold : Rat
  fireOnNoData : Bool
  splitBy : String
  deriving DecidableEq

inductive LogComparison where
  | atLeast | fewerThan
  deriving DecidableEq

structure LogRuleSpec where
  threshold : Int
  comparison : LogComparison
  deriving DecidableEq

def LogRuleSpec.firesBelow (s : LogRuleSpec) : Bool := s.comparison = .fewerThan

structure TraceErrorRuleSpec where
  threshold : Int
  attrs : List AttrFilter
  deriving DecidableEq

structure TraceLatencyRuleSpec where
  thresholdMs : Int
  deriving DecidableEq

structure TraceVolumeRuleSpec where
  threshold : Int
  deriving DecidableEq

structure TraceAttributeRuleSpec where
  threshold : Int
  attrs : List AttrFilter
  deriving DecidableEq

/-- `signal` and `rule_spec` together: the signal is the constructor's, and the
four trace checks and trace completion are told apart by `rule_spec->>'kind'`. -/
inductive RuleSpec where
  | metric (spec : MetricRuleSpec)
  | log (spec : LogRuleSpec)
  | traceError (spec : TraceErrorRuleSpec)
  | traceLatency (spec : TraceLatencyRuleSpec)
  | traceVolume (spec : TraceVolumeRuleSpec)
  | traceAttribute (spec : TraceAttributeRuleSpec)
  | traceCompletion
  deriving DecidableEq

inductive Signal where
  | metric | log | trace
  deriving DecidableEq

def RuleSpec.signal : RuleSpec → Signal
  | .metric _ => .metric
  | .log _ => .log
  | _ => .trace

inductive Source where
  | telemetry | pushed
  deriving DecidableEq

inductive ResolveMode where
  | auto | manual
  deriving DecidableEq

inductive EnvironmentMode where
  | each | only
  deriving DecidableEq

structure AlertRule where
  id : UUID
  integrationID : Option UUID := none
  systemID : Option UUID := none
  serviceName : String := ""
  groupID : Option UUID := none
  spec : RuleSpec
  enabled : Bool := true
  environmentMode : EnvironmentMode := .each
  environments : List String := []
  source : Source := .telemetry
  displayOnService : Bool := false
  resolveMode : ResolveMode := .auto
  channelIDs : List UUID := []
  deriving DecidableEq

def AlertRule.ruleHasScope (rule : AlertRule) : Bool :=
  rule.integrationID.isSome || rule.systemID.isSome || rule.serviceName != ""

inductive InstanceState where
  | firing | resolved
  deriving DecidableEq

/-- A row of `alert_instances`.  Of the labels only `environment` is kept: no
other label is read back. -/
structure AlertInstance where
  id : UUID
  alertRuleID : UUID
  state : InstanceState
  fingerprint : String
  environment : Option String
  startedAt : Time
  lastEvaluatedAt : Time
  endedAt : Option Time := none
  handledAt : Option Time := none
  suppressedBy : Option UUID := none
  lastNotifiedAt : Option Time := none
  deriving DecidableEq

/-- An operator has neither acknowledged nor closed it, and it is firing. -/
def AlertInstance.FiringUnacked (i : AlertInstance) : Prop :=
  i.state = .firing ∧ i.handledAt = none

instance (i : AlertInstance) : Decidable i.FiringUnacked :=
  inferInstanceAs (Decidable (_ ∧ _))

inductive JobState where
  | pending | running | succeeded | failed | dropped
  deriving DecidableEq

/-- A row of `notification_jobs`. -/
structure NotificationJob where
  id : UUID
  alertInstanceID : UUID
  channelID : UUID
  forState : InstanceState
  state : JobState := .pending
  attempts : Nat := 0
  nextAttemptAt : Time
  createdAt : Time
  updatedAt : Time
  expiresAt : Time

/-- The rows `EnqueueJobs` inserts: one pending job per channel, for the
transition the instance is in. -/
def newJobs (now : Time) (nextID instanceID : UUID) (forState : InstanceState)
    (channelIDs : List UUID) (window : Duration) : List NotificationJob :=
  channelIDs.mapIdx fun k ch =>
    { id := nextID + k, alertInstanceID := instanceID, channelID := ch,
      forState := forState, nextAttemptAt := now, createdAt := now, updatedAt := now,
      expiresAt := (now + (if window ≤ 0 then 6 * hour else window)).toNat }

/-- What holds of every row `EnqueueJobs` inserts. -/
theorem mem_newJobs {now : Time} {nextID instanceID : UUID} {forState : InstanceState}
    {channelIDs : List UUID} {window : Duration} {j : NotificationJob}
    (h : j ∈ newJobs now nextID instanceID forState channelIDs window) :
    nextID ≤ j.id ∧ j.id < nextID + channelIDs.length ∧
      j.alertInstanceID = instanceID ∧ j.channelID ∈ channelIDs ∧
      j.forState = forState ∧ j.state = .pending ∧ j.nextAttemptAt = now ∧
      j.createdAt = now ∧ j.updatedAt = now ∧ now < j.expiresAt := by
  obtain ⟨k, hk, rfl⟩ := List.mem_mapIdx.1 h
  have hw : (0 : Int) < if window ≤ 0 then 6 * hour else window := by
    split
    · decide
    · next h => exact Int.not_le.1 h
  refine ⟨by simp, by simpa using hk, rfl, List.getElem_mem hk, rfl, rfl, rfl, rfl, rfl, ?_⟩
  simp only [Int.lt_toNat]
  omega

theorem newJobs_map_id (now : Time) (nextID instanceID : UUID)
    (forState : InstanceState) (channelIDs : List UUID) (window : Duration) :
    (newJobs now nextID instanceID forState channelIDs window).map (·.id) =
      List.range' nextID channelIDs.length := by
  refine List.ext_getElem (by simp [newJobs]) fun k _ _ => ?_
  simp [newJobs]

end Sluicio.Alerting
