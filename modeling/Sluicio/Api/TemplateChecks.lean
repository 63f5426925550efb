import Sluicio.Alerting.Store.Specs

/-!
# Checks of templates

A health check is written down in three shapes: as it is stored with a template or a system
type (`Check`), as the template that is applied has it (`SystemCheck`), and as an alert rule.
The first two have the same fields.  Storing the checks loses none of them: the column is JSON,
with the empty fields left out.
-/

namespace Sluicio.Api.Templates

open Alerting (AttrFilter)
open Alerting.Store (Value member omitEmpty lookup_omitEmpty stringField numberField
  intField boolField)

/-- `monitoringtemplates.AttrFilter`. -/
structure CheckAttr where
  key : String
  op : String
  value : String
  deriving DecidableEq

open CheckAttr

structure Check where
  name : String := ""
  description : String := ""
  signal : String := ""
  metric : String := ""
  agg : String := ""
  op : String := ""
  threshold : Rat := 0
  attrs : List CheckAttr := []
  splitBy : String := ""
  fireOnNoData : Bool := false
  scope : String := ""
  minSeverity : Int := 0
  bodyContains : String := ""
  logThreshold : Int := 0
  traceThreshold : Int := 0
  thresholdMs : Int := 0
  windowSeconds : Int := 0
  severity : String := ""
  unit : String := ""
  display : Bool := false
  deriving DecidableEq

structure SystemCheck where
  name : String := ""
  description : String := ""
  signal : String := ""
  metric : String := ""
  agg : String := ""
  op : String := ""
  threshold : Rat := 0
  attrs : List AttrFilter := []
  splitBy : String := ""
  scope : String := ""
  fireOnNoData : Bool := false
  minSeverity : Int := 0
  bodyContains : String := ""
  logThreshold : Int := 0
  traceThreshold : Int := 0
  thresholdMs : Int := 0
  windowSeconds : Int := 0
  severity : String := ""
  unit : String := ""
  display : Bool := false

def customCheckToSystemCheck (c : Check) : SystemCheck where
  name := c.name
  description := c.description
  signal := c.signal
  metric := c.metric
  agg := c.agg
  op := c.op
  threshold := c.threshold
  attrs := c.attrs.map fun a => { key := a.key, op := a.op, value := a.value }
  splitBy := c.splitBy
  fireOnNoData := c.fireOnNoData
  scope := c.scope
  minSeverity := c.minSeverity
  bodyContains := c.bodyContains
  logThreshold := c.logThreshold
  traceThreshold := c.traceThreshold
  thresholdMs := c.thresholdMs
  windowSeconds := c.windowSeconds
  severity := c.severity
  unit := c.unit
  display := c.display

/-! ## The stored checks

`monitoring_templates.checks`, written with `json.Marshal` and read with `json.Unmarshal`. -/

def CheckAttr.marshal (a : CheckAttr) : Value :=
  .object [("key", .string a.key), ("op", .string a.op), ("value", .string a.value)]

def CheckAttr.unmarshal (j : Value) : CheckAttr where
  key := (stringField (member j "key")).getD ""
  op := (stringField (member j "op")).getD ""
  value := (stringField (member j "value")).getD ""

def elements : Option Value → List Value
  | some (.array vs) => vs
  | _ => []

def Check.marshal (c : Check) : Value :=
  .object <|
    [("name", .string c.name)] ++
    omitEmpty "description" (c.description == "") (.string c.description) ++
    omitEmpty "signal" (c.signal == "") (.string c.signal) ++
    omitEmpty "metric" (c.metric == "") (.string c.metric) ++
    omitEmpty "agg" (c.agg == "") (.string c.agg) ++
    omitEmpty "op" (c.op == "") (.string c.op) ++
    omitEmpty "threshold" (c.threshold == 0) (.number c.threshold) ++
    omitEmpty "attrs" c.attrs.isEmpty (.array (c.attrs.map CheckAttr.marshal)) ++
    omitEmpty "split_by" (c.splitBy == "") (.string c.splitBy) ++
    omitEmpty "fire_on_no_data" (!c.fireOnNoData) (.bool c.fireOnNoData) ++
    omitEmpty "scope" (c.scope == "") (.string c.scope) ++
    omitEmpty "min_severity" (c.minSeverity == 0) (.number c.minSeverity) ++
    omitEmpty "body_contains" (c.bodyContains == "") (.string c.bodyContains) ++
    omitEmpty "log_threshold" (c.logThreshold == 0) (.number c.logThreshold) ++
    omitEmpty "trace_threshold" (c.traceThreshold == 0) (.number c.traceThreshold) ++
    omitEmpty "threshold_ms" (c.thresholdMs == 0) (.number c.thresholdMs) ++
    omitEmpty "window_seconds" (c.windowSeconds == 0) (.number c.windowSeconds) ++
    omitEmpty "severity" (c.severity == "") (.string c.severity) ++
    omitEmpty "unit" (c.unit == "") (.string c.unit) ++
    omitEmpty "display" (!c.display) (.bool c.display)

def Check.unmarshal (j : Value) : Check where
  name := (stringField (member j "name")).getD ""
  description := (stringField (member j "description")).getD ""
  signal := (stringField (member j "signal")).getD ""
  metric := (stringField (member j "metric")).getD ""
  agg := (stringField (member j "agg")).getD ""
  op := (stringField (member j "op")).getD ""
  threshold := (numberField (member j "threshold")).getD 0
  attrs := (elements (member j "attrs")).map CheckAttr.unmarshal
  splitBy := (stringField (member j "split_by")).getD ""
  fireOnNoData := (boolField (member j "fire_on_no_data")).getD false
  scope := (stringField (member j "scope")).getD ""
  minSeverity := (intField (member j "min_severity")).getD 0
  bodyContains := (stringField (member j "body_contains")).getD ""
  logThreshold := (intField (member j "log_threshold")).getD 0
  traceThreshold := (intField (member j "trace_threshold")).getD 0
  thresholdMs := (intField (member j "threshold_ms")).getD 0
  windowSeconds := (intField (member j "window_seconds")).getD 0
  severity := (stringField (member j "severity")).getD ""
  unit := (stringField (member j "unit")).getD ""
  display := (boolField (member j "display")).getD false

/-- `Create`: what the column is given. -/
def marshalChecks (checks : List Check) : Value := .array (checks.map Check.marshal)

/-- `scan`: what is read from the column. -/
def scanChecks (j : Value) : List Check := (elements (some j)).map Check.unmarshal

theorem CheckAttr.unmarshal_marshal (a : CheckAttr) : unmarshal a.marshal = a := by
  simp [unmarshal, marshal, List.lookup_cons]

@[simp] theorem elements_omitted (attrs : List CheckAttr) :
    (elements (if attrs = [] then none else
      some (.array (attrs.map marshal)))).map unmarshal = attrs := by
  have hid : unmarshal ∘ marshal = id := funext unmarshal_marshal
  by_cases h : attrs = []
  · simp [h, elements]
  · simp [h, elements, hid]

theorem Check.unmarshal_marshal (c : Check) : Check.unmarshal c.marshal = c := by
  simp [Check.unmarshal, Check.marshal, List.lookup_append, List.lookup_cons, lookup_omitEmpty]

@[simp] theorem scanChecks_marshalChecks (checks : List Check) :
    scanChecks (marshalChecks checks) = checks := by
  have hid : Check.unmarshal ∘ Check.marshal = id := funext Check.unmarshal_marshal
  simp [scanChecks, marshalChecks, elements, hid]

end Sluicio.Api.Templates
