import Mathlib.Algebra.GroupWithZero.Nat
import Sluicio.Lib.Grouped

/-!
# What is ingested, and what is consumed

The demand ledger says when each key was last consumed, by somebody looking or by the
configuration.  The supply queries aggregate the telemetry of the observation window; each
group carries the first time it was seen, of a metric no more than ten services are listed,
and of the spans only so many rows are read.
-/

namespace Sluicio.Advisor

open Lib

/-- `time.Time`, in nanoseconds since the zero time. -/
abbrev Time := Nat

def day : Nat := 24 * 3600 * 1000000000

/-- `DemandSet`.  A key that a map does not have is at the zero time. -/
structure DemandSet where
  earliest : Time := 0
  human : String → Time := fun _ => 0
  mechanical : String → Time := fun _ => 0

def demandKey (signal service key : String) : String := signal ++ "|" ++ service ++ "|" ++ key

def lookupKeys (signal service key : String) : List String :=
  [demandKey signal service key] ++
    (if service ≠ "" then [demandKey signal "" key] else []) ++
    (if key ≠ "" then [demandKey signal service ""] else [])

/-- The ledger goes back at least as far as the window. -/
def DemandSet.Mature (d : DemandSet) (start : Time) : Prop :=
  d.earliest ≠ 0 ∧ d.earliest ≤ start

instance (d : DemandSet) (start : Time) : Decidable (d.Mature start) :=
  inferInstanceAs (Decidable (_ ∧ _))

def DemandSet.lastConsumed (d : DemandSet) (signal service key : String) : Time :=
  (lookupKeys signal service key).foldl
    (fun best k => max (max best (d.human k)) (d.mechanical k)) 0

def DemandSet.ConsumedSince (d : DemandSet) (signal service key : String) (cutoff : Time) : Prop :=
  d.lastConsumed signal service key ≠ 0 ∧ cutoff ≤ d.lastConsumed signal service key

def DemandSet.Mechanical (d : DemandSet) (signal service key : String) : Prop :=
  ∃ k ∈ lookupKeys signal service key, d.mechanical k ≠ 0

/-- The veto: it was consumed since the cutoff, or the configuration references it. -/
def DemandSet.InUse (d : DemandSet) (signal service key : String) (cutoff : Time) : Prop :=
  d.ConsumedSince signal service key cutoff ∨ d.Mechanical signal service key

instance (d : DemandSet) (signal service key : String) (cutoff : Time) :
    Decidable (d.InUse signal service key cutoff) :=
  inferInstanceAs (Decidable ((_ ∧ _) ∨ ∃ k ∈ lookupKeys signal service key, _))

/-- A row of `metrics`, of `logs` and of `traces`. -/
structure MetricRow where
  service : String
  name : String
  attributes : List (String × String) := []
  timestamp : Time
  deriving DecidableEq

structure LogRow where
  service : String
  severityNumber : Int
  body : String := ""
  attributes : List (String × String) := []
  timestamp : Time

structure SpanRow where
  service : String
  attributes : List (String × String) := []
  timestamp : Time

/-- The telemetry of an organization, each table in the order in which a query reads it. -/
structure Telemetry where
  metrics : List MetricRow := []
  logs : List LogRow := []
  spans : List SpanRow := []

/-- The observation window, and its bounds as the driver writes them into a query. -/
structure Window where
  start : Time
  stop : Time
  queryStart : Time := start
  queryStop : Time := stop

/-- `Timestamp >= ? AND Timestamp < ?`. -/
def Window.Holds (w : Window) (t : Time) : Prop := w.queryStart ≤ t ∧ t < w.queryStop

instance (w : Window) (t : Time) : Decidable (w.Holds t) := inferInstanceAs (Decidable (_ ∧ _))

/-! ## Supply -/

/-- `perDay`; the quotient is an exact one. -/
def perDay (total : Nat) (w : Window) : Nat :=
  if w.stop - w.start < day then total else total * day / (w.stop - w.start)

/-- `length(arrayStringConcat(mapKeys(m), '')) + length(arrayStringConcat(mapValues(m), ''))`. -/
def attributeBytes (attributes : List (String × String)) : Nat :=
  (attributes.map fun a => a.1.utf8ByteSize + a.2.utf8ByteSize).sum

/-- `min(Timestamp)` of a group. -/
def firstSeen (times : List Time) : Time := times.min?.getD 0

structure MetricSupply where
  name : String
  rows : Nat
  services : List String
  firstSeen : Time
  estBytesPerDay : Nat
  deriving DecidableEq

/-- A group of `MetricsSupply`. -/
def metricSupply (w : Window) (name : String) (rows : List MetricRow) : MetricSupply where
  name := name
  rows := rows.length
  services := (rows.map MetricRow.service).eraseDups.take 10
  firstSeen := firstSeen (rows.map MetricRow.timestamp)
  estBytesPerDay :=
    perDay (rows.map fun r => r.name.utf8ByteSize + 8 + attributeBytes r.attributes).sum w

def metricsSupply (t : Telemetry) (w : Window) : List MetricSupply :=
  let rows := t.metrics.filter fun r => w.Holds r.timestamp
  (rows.map MetricRow.name).dedup.map fun name =>
    metricSupply w name (rows.filter fun r => r.name = name)

/-- The band of a severity number: 1 trace, 5 debug, 9 info, 13 warn, 17 error, 21 fatal. -/
def band (severityNumber : Int) : Int := (max severityNumber 1 - 1) / 4 * 4 + 1

structure LogStreamSupply where
  service : String
  severityNumber : Int
  rows : Nat
  firstSeen : Time
  estBytesPerDay : Nat

/-- A group of `LogStreamsSupply`. -/
def logStreamSupply (w : Window) (stream : String × Int) (rows : List LogRow) :
    LogStreamSupply where
  service := stream.1
  severityNumber := stream.2
  rows := rows.length
  firstSeen := firstSeen (rows.map LogRow.timestamp)
  estBytesPerDay :=
    perDay (rows.map fun r => r.body.utf8ByteSize + attributeBytes r.attributes).sum w

def LogRow.stream (r : LogRow) : String × Int := (r.service, band r.severityNumber)

def logStreamsSupply (t : Telemetry) (w : Window) : List LogStreamSupply :=
  let rows := t.logs.filter fun r => w.Holds r.timestamp
  (rows.map LogRow.stream).dedup.map fun stream =>
    logStreamSupply w stream (rows.filter fun r => r.stream = stream)

structure SpanAttrSupply where
  service : String
  key : String
  spansWithKey : Nat
  spansTotal : Nat
  distinctValues : Nat
  firstSeen : Time
  estBytesPerDay : Nat
  deriving DecidableEq

/-- A row of `ARRAY JOIN SpanAttributes AS kv`. -/
structure AttrRow where
  service : String
  key : String
  value : String
  timestamp : Time
  deriving DecidableEq

def SpanRow.attrRows (r : SpanRow) : List AttrRow :=
  r.attributes.map fun kv => ⟨r.service, kv.1, kv.2, r.timestamp⟩

def AttrRow.attr (r : AttrRow) : String × String := (r.service, r.key)

/-- A group of `SpanAttrsSupply`. -/
def spanAttrSupply (w : Window) (sampled : List SpanRow) (attr : String × String)
    (rows : List AttrRow) : SpanAttrSupply where
  service := attr.1
  key := attr.2
  spansWithKey := rows.length
  spansTotal := sampled.countP fun r => r.service = attr.1
  distinctValues := (rows.map AttrRow.value).dedup.length
  firstSeen := firstSeen (rows.map AttrRow.timestamp)
  estBytesPerDay :=
    perDay (rows.map fun r => r.key.utf8ByteSize + r.value.utf8ByteSize).sum w

/-- `sampleRows`, when the caller asks for none. -/
def sampleRows : Nat := 200000

/-- `SpanAttrsSupply`, with the number of rows that it samples. -/
def spanAttrsSupply (t : Telemetry) (w : Window) (sampleRows : Nat) : List SpanAttrSupply :=
  let sampled := (t.spans.filter fun r => w.Holds r.timestamp).take sampleRows
  let rows := sampled.flatMap SpanRow.attrRows
  (rows.map AttrRow.attr).dedup.map fun attr =>
    spanAttrSupply w sampled attr (rows.filter fun r => r.attr = attr)

end Sluicio.Advisor
