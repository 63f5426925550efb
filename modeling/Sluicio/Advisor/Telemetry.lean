import Sluicio.Advisor.Store
import Sluicio.Advisor.Supply

/-!
# The telemetry evaluators

Each evaluator goes through what is supplied, one metric, log stream or attribute after the
other, and suggests a change to the collector for what is old enough, large enough and not in
use.  What a suggestion says to a reader is left out here; the change that its snippet makes is
not.
-/

namespace Sluicio.Advisor

/-- A change to the telemetry that is collected. -/
inductive Change where
  | dropMetric (name : String)
  /-- `severity_number < …` of a service -/
  | dropLogs (service : String) (below : Int)
  | deleteKey (service key : String)
  | deleteMatchingKeys (service keyPrefix : String)

/-- A snippet: the processor it configures, and what that does. -/
structure Snippet where
  processor : String
  change : Change

structure Target where
  version : String

/-- `collectorversion.Name`, for components that have never been renamed. -/
def componentName (component : String) (_ : Target) : Except String String :=
  match component with
  | "filter_processor" => .ok "filter"
  | "transform_processor" => .ok "transform"
  | _ => .error ("collectorversion: no naming recorded for \"" ++ component ++ "\"")

def snippetDropMetric (name : String) (t : Target) : Except String Snippet := do
  let filter ← componentName "filter_processor" t
  return ⟨filter, .dropMetric name⟩

/-- `SEVERITY_NUMBER_INFO`, `SEVERITY_NUMBER_WARN` and `SEVERITY_NUMBER_ERROR`. -/
def floorNumber (floor : String) : Int :=
  match floor with
  | "info" => 9
  | "warn" => 13
  | "error" => 17
  | _ => 13

def snippetLogFloor (service floor : String) (t : Target) : Except String Snippet := do
  let filter ← componentName "filter_processor" t
  return ⟨filter, .dropLogs service (floorNumber floor)⟩

def snippetDeleteSpanAttr (service key : String) (t : Target) : Except String Snippet := do
  let transform ← componentName "transform_processor" t
  return ⟨transform, .deleteKey service key⟩

def snippetDeleteAttrPattern (service keyPrefix : String) (t : Target) :
    Except String Snippet := do
  let transform ← componentName "transform_processor" t
  return ⟨transform, .deleteMatchingKeys service keyPrefix⟩

/-! ## Evaluators -/

def minMetricRowsPerDay : Nat := 100
def minLogRowsPerDay : Nat := 1000
def minAttrBytesPerDay : Nat := 100000
def highCardinalityValues : Nat := 1000

def echoPrefixes : List String :=
  ["http.request.header.", "http.response.header.", "rpc.request.metadata.",
    "rpc.response.metadata."]

def reservedAttrPrefixes : List String :=
  ["io.", "service.", "integration.", "messaging.", "db.", "rpc.system",
    "http.request.method", "http.response.status_code", "http.route",
    "error.", "exception.", "peer.service", "file.", "transfer."]

def hasPrefix (s p : String) : Bool := p.toList.isPrefixOf s.toList

def echoPrefix (key : String) : String := (echoPrefixes.find? (hasPrefix key)).getD ""

def isReservedAttr (key : String) : Bool := reservedAttrPrefixes.any (hasPrefix key)

structure TelemetryInput where
  demand : DemandSet
  window : Window
  target : Option (String → Target) := none

def TelemetryInput.targetFor (i : TelemetryInput) (service : String) : Target :=
  match i.target with
  | none => { version := "0.157.0" }
  | some target => target service

/-- A finding of the telemetry evaluators, with its snippet or the reason there is none. -/
structure TelemetryFinding where
  fingerprint : Fingerprint
  scopeKind : String
  scopeID : String
  weight : Nat
  snippet : Except String Snippet
  snippetTarget : String

def TelemetryInput.withSnippet (i : TelemetryInput) (fingerprint : Fingerprint)
    (scopeKind scopeID : String) (weight : Nat) (service : String)
    (gen : Target → Except String Snippet) : TelemetryFinding where
  fingerprint := fingerprint
  scopeKind := scopeKind
  scopeID := scopeID
  weight := weight
  snippet := gen (i.targetFor service)
  snippetTarget := (i.targetFor service).version

def TelemetryInput.Quarantined (i : TelemetryInput) (firstSeen : Time) : Prop :=
  firstSeen = 0 ∨ i.window.start < firstSeen

instance (i : TelemetryInput) (firstSeen : Time) : Decidable (i.Quarantined firstSeen) :=
  inferInstanceAs (Decidable (_ ∨ _))

/-- The metric is one that `evalUnusedMetrics` suggests to drop. -/
def UnusedMetric (i : TelemetryInput) (m : MetricSupply) : Prop :=
  ¬ i.Quarantined m.firstSeen ∧
  ¬ i.demand.InUse "metric" "" m.name i.window.start ∧
  (∀ service ∈ m.services, ¬ i.demand.InUse "metric" service m.name i.window.start) ∧
  minMetricRowsPerDay ≤ perDay m.rows i.window

instance (i : TelemetryInput) (m : MetricSupply) : Decidable (UnusedMetric i m) :=
  inferInstanceAs (Decidable (_ ∧ _ ∧ _ ∧ _))

def evalUnusedMetrics (i : TelemetryInput) (metrics : List MetricSupply) :
    List TelemetryFinding :=
  (metrics.filter fun m => UnusedMetric i m).map fun m =>
    i.withSnippet ⟨.t1, "metric|" ++ m.name⟩ "metric" m.name m.estBytesPerDay ""
      (snippetDropMetric m.name)

/-- `bandFloor`: the name of a band and the floor that drops it; warnings and above have
neither. -/
def bandFloor (band : Int) : Option (String × String) :=
  if band ≤ 4 then some ("TRACE", "info")
  else if band ≤ 8 then some ("DEBUG", "info")
  else if band ≤ 12 then some ("INFO", "warn")
  else none

/-- The stream is one that `evalUnviewedLogs` judges, its band aside. -/
def UnviewedStream (i : TelemetryInput) (s : LogStreamSupply) : Prop :=
  ¬ i.Quarantined s.firstSeen ∧
  ¬ i.demand.InUse "log" s.service "" i.window.start ∧
  minLogRowsPerDay ≤ perDay s.rows i.window

instance (i : TelemetryInput) (s : LogStreamSupply) : Decidable (UnviewedStream i s) :=
  inferInstanceAs (Decidable (_ ∧ _ ∧ _))

def evalUnviewedLogs (i : TelemetryInput) (streams : List LogStreamSupply) :
    List TelemetryFinding :=
  streams.filterMap fun s =>
    match bandFloor s.severityNumber with
    | none => none
    | some (bandName, floor) =>
      if UnviewedStream i s then
        some (i.withSnippet ⟨.t2, "log|" ++ s.service ++ "|" ++ bandName⟩ "service" s.service
          s.estBytesPerDay s.service (snippetLogFloor s.service floor))
      else none

/-- The attribute is one that `evalSpanAttributes` judges. -/
def UnusedAttr (i : TelemetryInput) (a : SpanAttrSupply) : Prop :=
  ¬ i.Quarantined a.firstSeen ∧
  ¬ i.demand.InUse "trace" a.service a.key i.window.start ∧
  isReservedAttr a.key = false

instance (i : TelemetryInput) (a : SpanAttrSupply) : Decidable (UnusedAttr i a) :=
  inferInstanceAs (Decidable (_ ∧ _ ∧ _))

/-- `DistinctValues` and size of T4; presence on half of the spans and size of T3. -/
def HighCardinality (a : SpanAttrSupply) : Prop :=
  highCardinalityValues ≤ a.distinctValues ∧ minAttrBytesPerDay ≤ a.estBytesPerDay

def DeadWeight (a : SpanAttrSupply) : Prop :=
  0 < a.spansTotal ∧ a.spansTotal ≤ 2 * a.spansWithKey ∧ minAttrBytesPerDay ≤ a.estBytesPerDay

instance (a : SpanAttrSupply) : Decidable (HighCardinality a) :=
  inferInstanceAs (Decidable (_ ∧ _))

instance (a : SpanAttrSupply) : Decidable (DeadWeight a) :=
  inferInstanceAs (Decidable (_ ∧ _ ∧ _))

/-- What `evalSpanAttributes` has come to: the findings of single keys, and those of families
by service and prefix. -/
structure AttrFindings where
  out : List TelemetryFinding := []
  echoed : List ((String × String) × TelemetryFinding) := []

/-- One round of the loop. -/
def AttrFindings.next (i : TelemetryInput) (f : AttrFindings) (a : SpanAttrSupply) :
    AttrFindings :=
  if ¬ UnusedAttr i a then f
  else if echoPrefix a.key ≠ "" then
    if f.echoed.any fun e => e.1 = (a.service, echoPrefix a.key) then
      { f with
        echoed := f.echoed.map fun e =>
          if e.1 = (a.service, echoPrefix a.key) then
            (e.1, { e.2 with weight := e.2.weight + a.estBytesPerDay })
          else e }
    else
      { f with
        echoed := f.echoed ++ [((a.service, echoPrefix a.key),
          i.withSnippet ⟨.t5, "attr-family|" ++ a.service ++ "|" ++ echoPrefix a.key⟩ "service"
            a.service a.estBytesPerDay a.service
            (snippetDeleteAttrPattern a.service (echoPrefix a.key)))] }
  else if HighCardinality a then
    { f with
      out := f.out ++ [i.withSnippet ⟨.t4, "attr|" ++ a.service ++ "|" ++ a.key⟩ "attribute"
        (a.service ++ "." ++ a.key) a.estBytesPerDay a.service
        (snippetDeleteSpanAttr a.service a.key)] }
  else if DeadWeight a then
    { f with
      out := f.out ++ [i.withSnippet ⟨.t3, "attr|" ++ a.service ++ "|" ++ a.key⟩ "attribute"
        (a.service ++ "." ++ a.key) a.estBytesPerDay a.service
        (snippetDeleteSpanAttr a.service a.key)] }
  else f

def evalSpanAttributes (i : TelemetryInput) (attrs : List SpanAttrSupply) :
    List TelemetryFinding :=
  let f := attrs.foldl (AttrFindings.next i) {}
  f.out ++ f.echoed.map Prod.snd

/-- `EvaluateTelemetry`, T1 to T5.  T6, which hashes values and deletes nothing, is left out. -/
def evaluateTelemetry (i : TelemetryInput) (t : Telemetry) (sampleRows : Nat) :
    List TelemetryFinding :=
  if i.demand.Mature i.window.start then
    evalUnusedMetrics i (metricsSupply t i.window) ++
      evalUnviewedLogs i (logStreamsSupply t i.window) ++
      evalSpanAttributes i (spanAttrsSupply t i.window sampleRows)
  else []

end Sluicio.Advisor
