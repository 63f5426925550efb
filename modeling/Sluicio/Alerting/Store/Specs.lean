import Sluicio.Alerting.Types
import Sluicio.Audit.Chain

/-!
# Rule specs as JSON

`alert_rules.rule_spec` is one JSONB column with a shape for each signal.  A spec is
written with `json.Marshal`, which leaves the empty `omitempty` fields out, and read with
`json.Unmarshal`, whose error the callers drop: a field that is absent, null or of another
type keeps its zero value.
-/

namespace Sluicio.Alerting.Store

open Audit (Json)

/-- A JSON value; a `numeric` is a rational. -/
abbrev Value := Json Rat

/-- The member of a JSON object, if it is one and has it. -/
def member (j : Value) (key : String) : Option Value :=
  match j with
  | .object ms => ms.lookup key
  | _ => none

@[simp] theorem member_object (ms : List (String × Value)) (key : String) :
    member (.object ms) key = ms.lookup key := rfl

/-- A member that is written unless it is empty. -/
def omitEmpty (key : String) (empty : Bool) (v : Value) : List (String × Value) :=
  if empty then [] else [(key, v)]

theorem lookup_omitEmpty (key key' : String) (empty : Bool) (v : Value) :
    (omitEmpty key empty v).lookup key' = if key' = key ∧ empty = false then some v else none := by
  cases empty with
  | true => simp [omitEmpty]
  | false =>
    by_cases h : key' = key
    · simp [omitEmpty, h]
    · have hbeq : (key' == key) = false := by simpa using h
      simp [omitEmpty, List.lookup_cons, hbeq, h]

/-! ## Reading a field

Each reader answers `none` for a value that the field's type cannot hold. -/

def stringField : Option Value → Option String
  | none | some .null => some ""
  | some (.string s) => some s
  | _ => none

def numberField : Option Value → Option Rat
  | none | some .null => some 0
  | some (.number q) => some q
  | _ => none

def intField : Option Value → Option Int
  | none | some .null => some 0
  | some (.number q) => if q.den = 1 then some q.num else none
  | _ => none

def boolField : Option Value → Option Bool
  | none | some .null => some false
  | some (.bool b) => some b
  | _ => none

def stringsField : Option Value → Option (List String)
  | none | some .null => some []
  | some (.array vs) => vs.mapM fun v => stringField (some v)
  | _ => none

@[simp] theorem stringField_string (s : String) : stringField (some (.string s)) = some s := rfl

@[simp] theorem numberField_number (q : Rat) : numberField (some (.number q)) = some q := rfl

@[simp] theorem intField_number (n : Int) : intField (some (.number (n : Rat))) = some n := by
  simp [intField]

@[simp] theorem boolField_bool (b : Bool) : boolField (some (.bool b)) = some b := rfl

/-! A field that was left out because it is empty reads back as empty. -/

@[simp] theorem stringField_omitted (s : String) :
    stringField (if s = "" then none else some (.string s)) = some s := by
  by_cases h : s = ""
  · simp [h, stringField]
  · simp [h]

@[simp] theorem boolField_omitted (b : Bool) :
    boolField (if b = true then some (.bool b) else none) = some b := by
  cases b <;> rfl

@[simp] theorem numberField_omitted (q : Rat) :
    numberField (if q = 0 then none else some (.number q)) = some q := by
  by_cases h : q = 0
  · simp [h, numberField]
  · simp [h]

@[simp] theorem intField_omitted (n : Int) :
    intField (if n = 0 then none else some (.number (n : Rat))) = some n := by
  by_cases h : n = 0
  · simp [h, intField]
  · rw [if_neg h, intField_number]

def marshalAttr (f : AttrFilter) : Value :=
  .object [("key", .string f.key), ("op", .string f.op), ("value", .string f.value)]

def unmarshalAttr (j : Value) : AttrFilter where
  key := (stringField (member j "key")).getD ""
  op := (stringField (member j "op")).getD ""
  value := (stringField (member j "value")).getD ""

def marshalAttrs (attrs : List AttrFilter) : Value := .array (attrs.map marshalAttr)

def attrsField : Option Value → List AttrFilter
  | some (.array vs) => vs.map unmarshalAttr
  | _ => []

/-- A filter reads back as it was written. -/
theorem unmarshal_marshalAttr (f : AttrFilter) : unmarshalAttr (marshalAttr f) = f := by
  simp [unmarshalAttr, marshalAttr, List.lookup_cons]

@[simp] theorem attrsField_marshalAttrs (attrs : List AttrFilter) :
    attrsField (some (marshalAttrs attrs)) = attrs := by
  have hid : unmarshalAttr ∘ marshalAttr = id := funext unmarshal_marshalAttr
  simp [attrsField, marshalAttrs, hid]

@[simp] theorem attrsField_omitted (attrs : List AttrFilter) :
    attrsField (if attrs = [] then none else some (marshalAttrs attrs)) = attrs := by
  by_cases h : attrs = []
  · simp [h, attrsField]
  · simp [h]

/-! ## The specs of the signals -/

/-- The spec of a metric rule, with Go's zero values. -/
structure MetricRuleSpec where
  metricName : String := ""
  aggregation : String := ""
  operator : String := ""
  threshold : Rat := 0
  /-- a Go duration -/
  forWindow : String := ""
  attrs : List AttrFilter := []
  splitBy : String := ""
  fireOnNoData : Bool := false

/-- What `ruleSpecJSON` stores of it. -/
def MetricRuleSpec.marshal (s : MetricRuleSpec) : Value :=
  .object <|
    [("metric_name", .string s.metricName), ("aggregation", .string s.aggregation),
      ("operator", .string s.operator), ("threshold", .number s.threshold),
      ("for_window", .string s.forWindow)] ++
    omitEmpty "attrs" s.attrs.isEmpty (marshalAttrs s.attrs) ++
    omitEmpty "split_by" (s.splitBy == "") (.string s.splitBy) ++
    omitEmpty "fire_on_no_data" (!s.fireOnNoData) (.bool s.fireOnNoData)

/-- What `scanRule` makes of the column. -/
def MetricRuleSpec.unmarshal (j : Value) : MetricRuleSpec where
  metricName := (stringField (member j "metric_name")).getD ""
  aggregation := (stringField (member j "aggregation")).getD ""
  operator := (stringField (member j "operator")).getD ""
  threshold := (numberField (member j "threshold")).getD 0
  forWindow := (stringField (member j "for_window")).getD ""
  attrs := attrsField (member j "attrs")
  splitBy := (stringField (member j "split_by")).getD ""
  fireOnNoData := (boolField (member j "fire_on_no_data")).getD false

/-- The spec of a log rule. -/
structure LogRuleSpec where
  minSeverity : Int := 0
  bodyContains : String := ""
  attrs : List AttrFilter := []
  threshold : Int := 0
  windowSeconds : Int := 0
  comparison : String := ""

def LogRuleSpec.marshal (s : LogRuleSpec) : Value :=
  .object <|
    [("min_severity", .number s.minSeverity), ("body_contains", .string s.bodyContains)] ++
    omitEmpty "attrs" s.attrs.isEmpty (marshalAttrs s.attrs) ++
    [("threshold", .number s.threshold), ("window_seconds", .number s.windowSeconds)] ++
    omitEmpty "comparison" (s.comparison == "") (.string s.comparison)

def LogRuleSpec.unmarshal (j : Value) : LogRuleSpec where
  minSeverity := (intField (member j "min_severity")).getD 0
  bodyContains := (stringField (member j "body_contains")).getD ""
  attrs := attrsField (member j "attrs")
  threshold := (intField (member j "threshold")).getD 0
  windowSeconds := (intField (member j "window_seconds")).getD 0
  comparison := (stringField (member j "comparison")).getD ""

/-- The kinds of trace spec, told apart by the `kind` that each of them writes. -/
def traceErrorSpecKind : String := "trace_error"
def traceLatencySpecKind : String := "trace_latency"
def traceVolumeSpecKind : String := "trace_volume"
def traceAttributeSpecKind : String := "trace_attribute"

structure TraceErrorRuleSpec where
  kind : String := ""
  threshold : Int := 0
  windowSeconds : Int := 0
  /-- narrow which error spans count; empty for every one -/
  attrs : List AttrFilter := []

def TraceErrorRuleSpec.marshal (s : TraceErrorRuleSpec) : Value :=
  .object <|
    [("kind", .string s.kind), ("threshold", .number s.threshold),
      ("window_seconds", .number s.windowSeconds)] ++
    omitEmpty "attrs" s.attrs.isEmpty (marshalAttrs s.attrs)

def TraceErrorRuleSpec.unmarshal (j : Value) : TraceErrorRuleSpec where
  kind := (stringField (member j "kind")).getD ""
  threshold := (intField (member j "threshold")).getD 0
  windowSeconds := (intField (member j "window_seconds")).getD 0
  attrs := attrsField (member j "attrs")

structure TraceLatencyRuleSpec where
  kind : String := ""
  thresholdMs : Int := 0
  windowSeconds : Int := 0
  aggregation : String := ""

def TraceLatencyRuleSpec.marshal (s : TraceLatencyRuleSpec) : Value :=
  .object [("kind", .string s.kind), ("threshold_ms", .number s.thresholdMs),
    ("window_seconds", .number s.windowSeconds), ("aggregation", .string s.aggregation)]

def TraceLatencyRuleSpec.unmarshal (j : Value) : TraceLatencyRuleSpec where
  kind := (stringField (member j "kind")).getD ""
  thresholdMs := (intField (member j "threshold_ms")).getD 0
  windowSeconds := (intField (member j "window_seconds")).getD 0
  aggregation := (stringField (member j "aggregation")).getD ""

structure TraceVolumeRuleSpec where
  kind : String := ""
  threshold : Int := 0
  windowSeconds : Int := 0

def TraceVolumeRuleSpec.marshal (s : TraceVolumeRuleSpec) : Value :=
  .object [("kind", .string s.kind), ("threshold", .number s.threshold),
    ("window_seconds", .number s.windowSeconds)]

def TraceVolumeRuleSpec.unmarshal (j : Value) : TraceVolumeRuleSpec where
  kind := (stringField (member j "kind")).getD ""
  threshold := (intField (member j "threshold")).getD 0
  windowSeconds := (intField (member j "window_seconds")).getD 0

structure TraceAttributeRuleSpec where
  kind : String := ""
  threshold : Int := 0
  windowSeconds : Int := 0
  attrs : List AttrFilter := []

def TraceAttributeRuleSpec.marshal (s : TraceAttributeRuleSpec) : Value :=
  .object [("kind", .string s.kind), ("threshold", .number s.threshold),
    ("window_seconds", .number s.windowSeconds), ("attrs", marshalAttrs s.attrs)]

def TraceAttributeRuleSpec.unmarshal (j : Value) : TraceAttributeRuleSpec where
  kind := (stringField (member j "kind")).getD ""
  threshold := (intField (member j "threshold")).getD 0
  windowSeconds := (intField (member j "window_seconds")).getD 0
  attrs := attrsField (member j "attrs")

/-- Each spec reads back as it was written. -/
theorem MetricRuleSpec.unmarshal_marshal (s : MetricRuleSpec) : unmarshal s.marshal = s := by
  simp [unmarshal, marshal, List.lookup_append,
    List.lookup_cons, lookup_omitEmpty]

theorem LogRuleSpec.unmarshal_marshal (s : LogRuleSpec) : unmarshal s.marshal = s := by
  simp [unmarshal, marshal, List.lookup_append,
    List.lookup_cons, lookup_omitEmpty]

theorem TraceErrorRuleSpec.unmarshal_marshal (s : TraceErrorRuleSpec) :
    unmarshal s.marshal = s := by
  simp [unmarshal, marshal, List.lookup_cons,
    lookup_omitEmpty]

theorem TraceLatencyRuleSpec.unmarshal_marshal (s : TraceLatencyRuleSpec) :
    unmarshal s.marshal = s := by
  simp [unmarshal, marshal, List.lookup_cons]

theorem TraceVolumeRuleSpec.unmarshal_marshal (s : TraceVolumeRuleSpec) :
    unmarshal s.marshal = s := by
  simp [unmarshal, marshal, List.lookup_cons]

theorem TraceAttributeRuleSpec.unmarshal_marshal (s : TraceAttributeRuleSpec) :
    unmarshal s.marshal = s := by
  simp [unmarshal, marshal, List.lookup_cons]

/-! ## The notification config -/

/-- `notification_config`: what an operator chose to put into a notification, and the templates of
its texts. -/
structure NotificationContent where
  service : Bool := false
  integration : Bool := false
  serviceMetadata : Bool := false
  integrationMetadata : Bool := false
  check : Bool := false
  emailSubject : String := ""
  emailBody : String := ""
  slackTitle : String := ""
  slackBody : String := ""

def NotificationContent.marshal (c : NotificationContent) : Value :=
  .object <|
    [("service", .bool c.service), ("integration", .bool c.integration),
      ("service_metadata", .bool c.serviceMetadata),
      ("integration_metadata", .bool c.integrationMetadata), ("check", .bool c.check)] ++
    omitEmpty "email_subject" (c.emailSubject == "") (.string c.emailSubject) ++
    omitEmpty "email_body" (c.emailBody == "") (.string c.emailBody) ++
    omitEmpty "slack_title" (c.slackTitle == "") (.string c.slackTitle) ++
    omitEmpty "slack_body" (c.slackBody == "") (.string c.slackBody)

/-- This one's error is looked at: what does not unmarshal is no config. -/
def NotificationContent.unmarshal (j : Value) : Option NotificationContent :=
  match j with
  | .null => some {}
  | .object _ => do
      let service ← boolField (member j "service")
      let integration ← boolField (member j "integration")
      let serviceMetadata ← boolField (member j "service_metadata")
      let integrationMetadata ← boolField (member j "integration_metadata")
      let check ← boolField (member j "check")
      let emailSubject ← stringField (member j "email_subject")
      let emailBody ← stringField (member j "email_body")
      let slackTitle ← stringField (member j "slack_title")
      let slackBody ← stringField (member j "slack_body")
      return ⟨service, integration, serviceMetadata, integrationMetadata, check,
        emailSubject, emailBody, slackTitle, slackBody⟩
  | _ => none

theorem NotificationContent.unmarshal_marshal (c : NotificationContent) :
    unmarshal c.marshal = some c := by
  simp [unmarshal, marshal, List.lookup_append,
    List.lookup_cons, lookup_omitEmpty]

end Sluicio.Alerting.Store
