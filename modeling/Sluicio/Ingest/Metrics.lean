import Mathlib.Data.Rat.Defs
import Sluicio.Store.Clause

/-!
# Metrics on their way into the database

`ConvertMetricsRequest` makes one row of every data point of a gauge, a sum or a histogram.
A request names the temporality of its sums and histograms, and the rows do not: of a sum
they keep the exported value and whether it is monotonic.

A value is the exact number a double stands for, and an attribute's value is the text
`anyValueToString` writes.  Times are nanoseconds.
-/

namespace Sluicio.Ingest

open Store (AttrMap)

/-- A `KeyValue` of the request. -/
structure KeyValue where
  key : String
  value : String
  deriving DecidableEq

/-- The value of a `NumberDataPoint`. -/
inductive NumberValue where
  | asDouble (v : ℚ)
  | asInt (v : Int)
  | unset
  deriving DecidableEq

structure NumberDataPoint where
  attributes : List KeyValue
  startTime : Int
  time : Int
  value : NumberValue
  deriving DecidableEq

/-- A data point of a histogram, explicit or exponential.  The sum is optional. -/
structure HistogramDataPoint where
  attributes : List KeyValue
  startTime : Int
  time : Int
  sum : Option ℚ
  count : Nat
  deriving DecidableEq

inductive AggregationTemporality where
  | unspecified | delta | cumulative
  deriving DecidableEq

/-- The kinds of a metric, with its data points.  Of a summary only their number counts. -/
inductive MetricData where
  | gauge (points : List NumberDataPoint)
  | sum (isMonotonic : Bool) (temporality : AggregationTemporality)
      (points : List NumberDataPoint)
  | histogram (temporality : AggregationTemporality) (points : List HistogramDataPoint)
  | exponentialHistogram (temporality : AggregationTemporality)
      (points : List HistogramDataPoint)
  | summary (points : Nat)
  | unset
  deriving DecidableEq

structure Metric where
  name : String
  unit : String
  data : MetricData
  deriving DecidableEq

/-- A `ResourceMetrics`: the resource's attributes and the metrics of its scopes. -/
structure ResourceMetrics where
  attributes : List KeyValue
  scopeMetrics : List (List Metric)
  deriving DecidableEq

/-- A `MetricRow`, without the organisation of the request's key. -/
structure MetricRow where
  timestamp : Int
  startTimestamp : Int
  metricName : String
  metricType : String
  serviceName : String
  serviceNamespace : String
  value : ℚ
  count : Nat
  isMonotonic : Bool
  unit : String
  resourceAttributes : AttrMap
  metricAttributes : AttrMap

/-- `m[key] = value`. -/
def setKey (m : AttrMap) (key value : String) : AttrMap :=
  if m.contains key then m.map fun e => if e.1 = key then (key, value) else e
  else m ++ [(key, value)]

def attributesToMap (attrs : List KeyValue) : AttrMap :=
  attrs.foldl (fun out kv => setKey out kv.key kv.value) []

def unknownService : String := "unknown_service"

def resolveServiceName (resourceAttrs : AttrMap) : String :=
  if resourceAttrs.value "service.name" ≠ "" then resourceAttrs.value "service.name"
  else unknownService

def numberDataPointValue : NumberValue → ℚ
  | .asDouble v => v
  | .asInt v => v
  | .unset => 0

/-- `base`: the fields every data point of a metric shares. -/
def base (m : Metric) (resourceAttrs : AttrMap) (serviceName serviceNamespace : String) :
    MetricRow where
  timestamp := 0
  startTimestamp := 0
  metricName := m.name
  metricType := ""
  serviceName := serviceName
  serviceNamespace := serviceNamespace
  value := 0
  count := 0
  isMonotonic := false
  unit := m.unit
  resourceAttributes := resourceAttrs
  metricAttributes := []

/-- The row of a gauge's or a sum's data point. -/
def numberRow (r : MetricRow) (metricType : String) (monotonic : Bool) (dp : NumberDataPoint) :
    MetricRow :=
  { r with
    metricType := metricType
    timestamp := dp.time
    startTimestamp := dp.startTime
    value := numberDataPointValue dp.value
    isMonotonic := monotonic
    metricAttributes := attributesToMap dp.attributes }

def histogramRow (r : MetricRow) (dp : HistogramDataPoint) : MetricRow :=
  { r with
    metricType := "histogram"
    timestamp := dp.time
    startTimestamp := dp.startTime
    value := dp.sum.getD 0
    count := dp.count
    metricAttributes := attributesToMap dp.attributes }

/-- `convertMetric`: a metric's rows and the data points it skips. -/
def convertMetric (m : Metric) (resourceAttrs : AttrMap)
    (serviceName serviceNamespace : String) : List MetricRow × Nat :=
  let r := base m resourceAttrs serviceName serviceNamespace
  match m.data with
  | .gauge points => (points.map (numberRow r "gauge" false), 0)
  | .sum isMonotonic _ points => (points.map (numberRow r "sum" isMonotonic), 0)
  | .histogram _ points => (points.map (histogramRow r), 0)
  | .exponentialHistogram _ points => (points.map (histogramRow r), 0)
  | .summary points => ([], points)
  | .unset => ([], 0)

def convertResource (rm : ResourceMetrics) : List (List MetricRow × Nat) :=
  let resourceAttrs := attributesToMap rm.attributes
  let serviceName := resolveServiceName resourceAttrs
  let serviceNamespace := resourceAttrs.value "service.namespace"
  rm.scopeMetrics.flatten.map fun m => convertMetric m resourceAttrs serviceName serviceNamespace

/-- `ConvertMetricsRequest`: the rows, and how many data points were skipped. -/
def convertMetricsRequest (resourceMetrics : List ResourceMetrics) : List MetricRow × Nat :=
  (resourceMetrics.flatMap convertResource).foldl (fun out m => (out.1 ++ m.1, out.2 + m.2)) ([], 0)

theorem mem_convertMetric {m : Metric} {resourceAttrs : AttrMap}
    {serviceName serviceNamespace : String} {r : MetricRow}
    (h : r ∈ (convertMetric m resourceAttrs serviceName serviceNamespace).1) :
    r.metricName = m.name := by
  unfold convertMetric at h
  cases hdata : m.data <;> simp only [hdata, List.mem_map, List.not_mem_nil] at h <;>
    obtain ⟨dp, -, rfl⟩ := h <;> rfl

def ResourceMetrics.rows (rm : ResourceMetrics) : List MetricRow :=
  (convertResource rm).flatMap Prod.fst

theorem convertMetricsRequest_rows (resourceMetrics : List ResourceMetrics) :
    (convertMetricsRequest resourceMetrics).1 = resourceMetrics.flatMap ResourceMetrics.rows := by
  have hfold (ms : List (List MetricRow × Nat)) (out : List MetricRow × Nat) :
      (ms.foldl (fun out m => (out.1 ++ m.1, out.2 + m.2)) out).1 =
        out.1 ++ ms.flatMap Prod.fst := by
    induction ms generalizing out with
    | nil => simp
    | cons m ms ih => rw [List.foldl_cons, ih, List.flatMap_cons, List.append_assoc]
  rw [convertMetricsRequest, hfold, List.nil_append, List.flatMap_assoc]
  rfl

theorem ResourceMetrics.metricName_of_mem {rm : ResourceMetrics} {r : MetricRow}
    (h : r ∈ rm.rows) : ∃ scope ∈ rm.scopeMetrics, ∃ m ∈ scope, r.metricName = m.name := by
  obtain ⟨c, hc, hr⟩ := List.mem_flatMap.1 h
  obtain ⟨m, hm, rfl⟩ := List.mem_map.1 hc
  obtain ⟨scope, hscope, hmem⟩ := List.mem_flatten.1 hm
  exact ⟨scope, hscope, m, hmem, mem_convertMetric hr⟩

def MetricData.split : MetricData → List MetricData
  | .gauge points => points.map fun dp => .gauge [dp]
  | .sum isMonotonic temporality points => points.map fun dp => .sum isMonotonic temporality [dp]
  | .histogram temporality points => points.map fun dp => .histogram temporality [dp]
  | .exponentialHistogram temporality points =>
    points.map fun dp => .exponentialHistogram temporality [dp]
  | .summary points => [.summary points]
  | .unset => [.unset]

def ResourceMetrics.split (rm : ResourceMetrics) : List ResourceMetrics :=
  rm.scopeMetrics.flatten.flatMap fun m =>
    m.data.split.map fun data => ⟨rm.attributes, [[{ m with data := data }]]⟩

theorem convertMetric_split (m : Metric) (resourceAttrs : AttrMap)
    (serviceName serviceNamespace : String) :
    (m.data.split.flatMap fun data =>
        (convertMetric { m with data := data } resourceAttrs serviceName serviceNamespace).1) =
      (convertMetric m resourceAttrs serviceName serviceNamespace).1 := by
  unfold convertMetric MetricData.split
  cases hdata : m.data <;> simp [List.flatMap_map, base, ← List.map_eq_flatMap]

theorem ResourceMetrics.rows_split (rm : ResourceMetrics) :
    rm.split.flatMap ResourceMetrics.rows = rm.rows := by
  simp only [split, List.flatMap_assoc, List.flatMap_map, rows, convertResource,
    List.flatten_cons, List.flatten_nil, List.append_nil, List.map_cons, List.map_nil,
    List.flatMap_cons, List.flatMap_nil, convertMetric_split]

end Sluicio.Ingest
