import Sluicio.Alerting.Types
import Sluicio.Tracecompletion.Types

/-!
# Classifying traces

The scan aggregates the spans of each trace in a window and of the integration's services;
`classify` buckets the aggregate.  Timestamps are nanoseconds since 1970.
-/

namespace Sluicio.Tracecompletion

open Alerting

/-- Trace ids are hexadecimal. -/
structure TraceID where
  text : String
  hex : text.toList.all fun c =>
    ('0' ≤ c && c ≤ '9') || ('a' ≤ c && c ≤ 'f') || ('A' ≤ c && c ≤ 'F')
  deriving DecidableEq

/-- What the scan reads of a row of `traces`. -/
structure Span where
  traceID : TraceID
  spanName : String
  serviceName : String
  timestamp : Int
  deriving DecidableEq

structure TraceAgg where
  traceID : TraceID
  startAt : Int
  hasStart : Bool
  stageAt : List Int
  hasStage : List Bool
  traceMin : Int
  lastSpan : Int
  deriving DecidableEq

/-- `min` of a column; 1970 when there are no rows. -/
def minTime : List Int → Int
  | [] => 0
  | t :: ts => ts.foldl min t

/-- `max` of a column. -/
def maxTime : List Int → Int
  | [] => 0
  | t :: ts => ts.foldl max t

def timesOf (names : List String) (rows : List Span) : List Int :=
  (rows.filter fun sp => sp.spanName ∈ names).map Span.timestamp

/-- `countIf(SpanName IN names) > 0`. -/
def hasSpan (names : List String) (rows : List Span) : Bool :=
  rows.any fun sp => sp.spanName ∈ names

def aggregate (spec : RuleSpec) (traceID : TraceID) (rows : List Span) : TraceAgg where
  traceID := traceID
  startAt := if spec.gated then minTime (timesOf [spec.startSpanName] rows) else 0
  hasStart := spec.gated && hasSpan [spec.startSpanName] rows
  stageAt := spec.effectiveStages.map fun st => minTime (timesOf st.spanNames rows)
  hasStage := spec.effectiveStages.map fun st => hasSpan st.spanNames rows
  traceMin := minTime (rows.map Span.timestamp)
  lastSpan := maxTime (rows.map Span.timestamp)

def scanned (services : List String) (since until_ : Int) (spans : List Span) : List Span :=
  spans.filter fun sp =>
    since ≤ sp.timestamp && sp.timestamp ≤ until_ && sp.serviceName ∈ services

def ofTrace (traceID : TraceID) (spans : List Span) : List Span :=
  spans.filter fun sp => sp.traceID = traceID

/-- `scanTraces`.  The order of the groups is the database's; here it is that of their
last rows. -/
def scanTraces (spec : RuleSpec) (services : List String) (since until_ : Int)
    (spans : List Span) : List TraceAgg :=
  let rows := scanned services since until_ spans
  ((rows.map Span.traceID).dedup.map fun t => aggregate spec t (ofTrace t rows)).filter
    fun a => !spec.gated || a.hasStart

/-! ## Buckets -/

inductive TraceState where
  | completed | pending | delayed
  deriving DecidableEq

structure TraceClassification where
  traceID : TraceID
  state : TraceState
  /-- the stage the trace stalled at, from 1 on; 0 when it stalled at none -/
  delayedStage : Nat := 0
  startedAt : Int := 0
  lastSpanAt : Int

def stageBaseline (spec : RuleSpec) (a : TraceAgg) : Int :=
  if spec.gated then a.startAt else a.traceMin

/-- The time from which a stage's clock runs is set: Go's zero time is in the year 1. -/
def clockSet (t : Int) : Bool := t ≠ -62135596800 * second

/-- The loop of `classify`, over the stages with what was seen of each. -/
def classifyFrom (a : TraceAgg) (now : Int) :
    Nat → Int → List (EffectiveStage × Bool × Int) → Option TraceClassification
  | _, _, [] => none
  | i, prevTs, (st, seen, seenAt) :: rest =>
    if seen then classifyFrom a now (i + 1) seenAt rest
    else some {
      traceID := a.traceID, lastSpanAt := a.lastSpan, startedAt := prevTs
      delayedStage := i + 1
      state :=
        if clockSet prevTs && prevTs ≤ now - st.timeoutSeconds * second then .delayed
        else .pending }

def classify (spec : RuleSpec) (a : TraceAgg) (now : Int) : TraceClassification :=
  let stages := spec.effectiveStages
  let c : TraceClassification :=
    { traceID := a.traceID, lastSpanAt := a.lastSpan, state := .pending }
  if stages = [] then c
  else
    let base := stageBaseline spec a
    if a.hasStage.getLast?.getD false then { c with state := .completed, startedAt := base }
    else
      (classifyFrom a now 0 base (stages.zip (a.hasStage.zip a.stageAt))).getD
        { c with state := .completed, startedAt := base }

/-- The delayed classifications of `scanAndBucket`. -/
def scanDelayed (spec : RuleSpec) (services : List String) (now since until_ : Int)
    (spans : List Span) : List TraceClassification :=
  ((scanTraces spec services since until_ spans).map fun a => classify spec a now).filter
    fun c => c.state = .delayed

end Sluicio.Tracecompletion
