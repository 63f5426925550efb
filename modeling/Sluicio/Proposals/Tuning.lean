import Sluicio.Alerting.Store.Rules
import Sluicio.Tracecompletion.Types

/-!
# Tuning a rule by proposal

An agent may propose another threshold, severity, window or enabled flag for an alert rule.
Approving the proposal reads the rule, sets the fields and writes the rule back with
`UpdateRule`.  The threshold and the window it sets are those of the metric spec, whatever
the kind of the rule.
-/

namespace Sluicio.Proposals

open Lib
open Alerting (Severity Signal Duration Time second)
open Alerting.Store
open AlertRule

/-- `alertRuleTunables`: a proposal that names another field is refused when it is filed. -/
inductive Tunable where
  | threshold | severity | forWindow | enabled
  deriving DecidableEq

/-- `Change`.  The values are raw JSON. -/
structure Change where
  field : Tunable
  before : Value
  after : Value

/-- Why `apply` gives up. -/
inductive ApplyError where
  | store (err : StoreError)
  /-- the value is not of the type of the field -/
  | unmarshal (field : Tunable)
  | notASeverity (v : String)
  | notADuration (v : String)

/-- `ValidSeverity`, and the severity. -/
def severity? : String → Option Severity
  | "info" => some .info
  | "warning" => some .warning
  | "critical" => some .critical
  | _ => none

/-- One change of `apply`, on the rule that was read.  A JSON null unmarshals into the zero
value without an error. -/
def editRule (parseDuration : String → Option Duration) (r : AlertRule) (ch : Change) :
    Except ApplyError AlertRule :=
  match ch.field with
  | .threshold =>
    match numberField (some ch.after) with
    | none => .error (.unmarshal .threshold)
    | some v => .ok { r with spec := { r.spec with threshold := v } }
  | .severity =>
    match stringField (some ch.after) with
    | none => .error (.unmarshal .severity)
    | some v =>
      match severity? v with
      | none => .error (.notASeverity v)
      | some sev => .ok { r with severity := sev }
  | .forWindow =>
    match stringField (some ch.after) with
    | none => .error (.unmarshal .forWindow)
    | some v =>
      if (parseDuration v).isNone then .error (.notADuration v)
      else .ok { r with spec := { r.spec with forWindow := v } }
  | .enabled =>
    match boolField (some ch.after) with
    | none => .error (.unmarshal .enabled)
    | some v => .ok { r with enabled := v }

/-- All changes of a proposal, in their order. -/
def editAll (parseDuration : String → Option Duration) :
    AlertRule → List Change → Except ApplyError AlertRule
  | r, [] => .ok r
  | r, ch :: chs => do
    let r ← editRule parseDuration r ch
    editAll parseDuration r chs

def apply (parseDuration : String → Option Duration) (c : Constraints) (db : Database)
    (orgID id : UUID) (now : Time) (changes : List Change) :
    Except ApplyError Database := do
  let r ← (db.getRule orgID id).mapError .store
  let r ← editAll parseDuration r changes
  (Database.updateRule c db orgID now r).mapError .store

def isStruct : Value → Bool
  | .object _ | .null => true
  | _ => false

def unmarshalStage (j : Value) : Option Tracecompletion.Stage :=
  if !isStruct j then none
  else do
    let spanNames ← stringsField (member j "span_names")
    let timeoutSeconds ← intField (member j "timeout_seconds")
    return ⟨spanNames, timeoutSeconds⟩

def stagesField : Option Value → Option (List Tracecompletion.Stage)
  | none | some .null => some []
  | some (.array vs) => vs.mapM unmarshalStage
  | _ => none

/-- The spec of a trace-completion rule, which its evaluator normalises after it has been
read; `none` when it does not unmarshal, which fails the evaluator's whole query. -/
def unmarshalCompletion (j : Value) : Option Tracecompletion.RuleSpec :=
  if !isStruct j then none
  else do
    let kind ← stringField (member j "kind")
    let startSpanName ← stringField (member j "start_span_name")
    let stages ← stagesField (member j "stages")
    let defaultTimeoutSeconds ← intField (member j "default_timeout_seconds")
    let closingSpanNames ← stringsField (member j "closing_span_names")
    let timeoutSeconds ← intField (member j "timeout_seconds")
    let lookbackSeconds ← intField (member j "lookback_seconds")
    return ⟨kind, startSpanName, stages, defaultTimeoutSeconds, closingSpanNames,
      timeoutSeconds, lookbackSeconds⟩

/-- The rows the trace-completion evaluator selects: trace rows of its kind, or of none. -/
def isCompletion (row : Row) : Bool :=
  row.signal = .trace &&
    match member row.ruleSpec "kind" with
    | none | some .null => true
    | some (.string kind) => kind = "" || kind = "trace_completion"
    | _ => false

/-- What the evaluators read of a row: the rule, and the spec that trace completion reads
when the row is one of its own. -/
structure Reading where
  rule : AlertRule
  completion : Option (Option Tracecompletion.RuleSpec)

def readRow (row : Row) (channelIDs : List UUID) : Reading where
  rule := { scanRule row with channelIDs := channelIDs }
  completion := if isCompletion row then some (unmarshalCompletion row.ruleSpec) else none

/-- The reading of a stored rule. -/
def reading (db : Database) (orgID id : UUID) : Option Reading :=
  (db.row? orgID id).map fun row => readRow row (db.channelIDsFor id)

/-! ## The fields of a proposal -/

/-- A value of one of the fields; windows are compared as durations. -/
inductive Setting where
  | number (q : Rat)
  | severity (s : Severity)
  | window (d : Duration)
  | flag (b : Bool)
  deriving DecidableEq

/-- The threshold of a rule, which each kind has in a spec of its own. -/
def thresholdOf (r : AlertRule) : Option Rat :=
  match r.signal with
  | .metric => some r.spec.threshold
  | .log => r.logSpec.map fun s => (s.threshold : Rat)
  | .trace =>
    (r.traceErrorSpec.map fun s => (s.threshold : Rat)).or <|
    (r.traceLatencySpec.map fun s => (s.thresholdMs : Rat)).or <|
    (r.traceVolumeSpec.map fun s => (s.threshold : Rat)).or <|
    r.traceAttributeSpec.map fun s => (s.threshold : Rat)

def windowOf (parseDuration : String → Option Duration) (r : AlertRule) : Option Duration :=
  match r.signal with
  | .metric => parseDuration r.spec.forWindow
  | .log => r.logSpec.map fun s => s.windowSeconds * second
  | .trace =>
    (r.traceErrorSpec.map fun s => s.windowSeconds * second).or <|
    (r.traceLatencySpec.map fun s => s.windowSeconds * second).or <|
    (r.traceVolumeSpec.map fun s => s.windowSeconds * second).or <|
    r.traceAttributeSpec.map fun s => s.windowSeconds * second

def setting (parseDuration : String → Option Duration) (r : AlertRule) : Tunable → Option Setting
  | .threshold => (thresholdOf r).map .number
  | .severity => some (.severity r.severity)
  | .forWindow => (windowOf parseDuration r).map .window
  | .enabled => some (.flag r.enabled)

def Change.proposed (parseDuration : String → Option Duration) (ch : Change) :
    Option Setting :=
  match ch.field, ch.after with
  | .threshold, .number q => some (.number q)
  | .severity, .string s => (severity? s).map .severity
  | .forWindow, .string s => (parseDuration s).map .window
  | .enabled, .bool b => some (.flag b)
  | _, _ => none

/-- A reading without the four fields and without its timestamp. -/
def Reading.rest (x : Reading) : Reading :=
  { x with rule := { x.rule with
      severity := .warning
      enabled := true
      updatedAt := 0
      spec := { x.rule.spec with threshold := 0, forWindow := "" }
      logSpec := x.rule.logSpec.map fun s => { s with threshold := 0, windowSeconds := 0 }
      traceErrorSpec :=
        x.rule.traceErrorSpec.map fun s => { s with threshold := 0, windowSeconds := 0 }
      traceLatencySpec :=
        x.rule.traceLatencySpec.map fun s => { s with thresholdMs := 0, windowSeconds := 0 }
      traceVolumeSpec :=
        x.rule.traceVolumeSpec.map fun s => { s with threshold := 0, windowSeconds := 0 }
      traceAttributeSpec :=
        x.rule.traceAttributeSpec.map fun s =>
          { s with threshold := 0, windowSeconds := 0 } } }

/-- The approved changes took effect: each proposed field holds the proposed value, and
everything else is as it was. -/
structure TakesEffect (parseDuration : String → Option Duration) (changes : List Change)
    (before after : Reading) : Prop where
  proposed : ∀ ch ∈ changes, ∃ v, ch.proposed parseDuration = some v ∧
    setting parseDuration after.rule ch.field = some v
  others : ∀ f, (∀ ch ∈ changes, ch.field ≠ f) →
    setting parseDuration after.rule f = setting parseDuration before.rule f
  rest : after.rest = before.rest

/-! ## What the edits do to the rule -/

section Edits

variable {parseDuration : String → Option Duration}

/-- What `apply` set, on the rule it passes to `UpdateRule`. -/
def edited (parseDuration : String → Option Duration) (r : AlertRule) : Tunable → Option Setting
  | .threshold => some (.number r.spec.threshold)
  | .severity => some (.severity r.severity)
  | .forWindow => (parseDuration r.spec.forWindow).map .window
  | .enabled => some (.flag r.enabled)

variable {r r' : AlertRule} {ch : Change} {changes : List Change}

theorem edited_of_editRule (h : editRule parseDuration r ch = .ok r') :
    (∀ f, f ≠ ch.field → edited parseDuration r' f = edited parseDuration r f) ∧
      ∀ v, ch.proposed parseDuration = some v → edited parseDuration r' ch.field = some v := by
  obtain ⟨field, before, after⟩ := ch
  cases field with
  | threshold =>
    simp only [editRule] at h
    split at h
    · cases h
    · next q hq =>
      cases h
      refine ⟨fun f hf => by cases f <;> first | rfl | exact absurd rfl hf, ?_⟩
      intro v hv
      cases after <;> simp_all [Change.proposed, edited]
  | severity =>
    simp only [editRule] at h
    split at h
    · cases h
    · next text htext =>
      split at h
      · cases h
      · next sev hsev =>
        cases h
        refine ⟨fun f hf => by cases f <;> first | rfl | exact absurd rfl hf, ?_⟩
        intro v hv
        cases after <;> simp_all [Change.proposed, edited]
  | forWindow =>
    simp only [editRule] at h
    split at h
    · cases h
    · next text htext =>
      split_ifs at h
      cases h
      refine ⟨fun f hf => by cases f <;> first | rfl | exact absurd rfl hf, ?_⟩
      intro v hv
      cases after <;> simp_all [Change.proposed, edited]
  | enabled =>
    simp only [editRule] at h
    split at h
    · cases h
    · next b hb =>
      cases h
      refine ⟨fun f hf => by cases f <;> first | rfl | exact absurd rfl hf, ?_⟩
      intro v hv
      cases after <;> simp_all [Change.proposed, edited]

/-- All the edits: a field no change names keeps its value, one on which the changes agree
has the proposed value. -/
theorem edited_of_editAll (h : editAll parseDuration r changes = .ok r') (f : Tunable) :
    ((∀ ch ∈ changes, ch.field ≠ f) → edited parseDuration r' f = edited parseDuration r f) ∧
    ∀ v, (∃ ch ∈ changes, ch.field = f) →
      (∀ ch ∈ changes, ch.field = f → ch.proposed parseDuration = some v) →
      edited parseDuration r' f = some v := by
  induction changes generalizing r with
  | nil =>
    cases h
    exact ⟨fun _ => rfl, fun v hex _ => by simp at hex⟩
  | cons ch chs ih =>
    simp only [editAll, bind_eq_ok] at h
    obtain ⟨r₁, hhead, htail⟩ := h
    obtain ⟨hother, hset⟩ := edited_of_editRule hhead
    obtain ⟨ihother, ihset⟩ := ih htail
    constructor
    · intro hnone
      have hhead' : f ≠ ch.field := fun heq => hnone ch (by simp) heq.symm
      rw [ihother fun ch' hch' => hnone ch' (by simp [hch']), hother f hhead']
    · intro v hex hagree
      by_cases hlater : ∃ ch' ∈ chs, ch'.field = f
      · exact ihset v hlater fun ch' hch' => hagree ch' (by simp [hch'])
      -- the head is the last change of the field
      have hnone : ∀ ch' ∈ chs, ch'.field ≠ f := fun ch' hch' heq =>
        hlater ⟨ch', hch', heq⟩
      obtain ⟨ch', hch', heq⟩ := hex
      have hfield : ch.field = f := by
        rcases List.mem_cons.1 hch' with rfl | hch'
        · exact heq
        · exact absurd heq (hnone ch' hch')
      rw [ihother hnone, ← hfield]
      exact hset v (hagree ch (by simp) hfield)

/-- The edits touch four fields. -/
def Retuned (r r' : AlertRule) : Prop :=
  r' = { r with
    spec := { r.spec with threshold := r'.spec.threshold, forWindow := r'.spec.forWindow }
    severity := r'.severity
    enabled := r'.enabled }

theorem retuned_of_editRule (h : editRule parseDuration r ch = .ok r') : Retuned r r' := by
  obtain ⟨field, before, after⟩ := ch
  cases field with
  | threshold =>
    simp only [editRule] at h
    split at h
    · cases h
    · cases h
      rfl
  | severity =>
    simp only [editRule] at h
    split at h
    · cases h
    split at h
    · cases h
    · cases h
      rfl
  | forWindow =>
    simp only [editRule] at h
    split at h
    · cases h
    · split_ifs at h
      cases h
      rfl
  | enabled =>
    simp only [editRule] at h
    split at h
    · cases h
    · cases h
      rfl

theorem retuned_of_editAll (h : editAll parseDuration r changes = .ok r') : Retuned r r' := by
  induction changes generalizing r with
  | nil =>
    cases h
    rfl
  | cons ch chs ih =>
    simp only [editAll, bind_eq_ok] at h
    obtain ⟨r₁, hhead, htail⟩ := h
    have hrest := ih htail
    have hone := retuned_of_editRule hhead
    unfold Retuned at hone hrest ⊢
    rw [hrest, hone]

end Edits

/-! ## What the store makes of a retuned rule -/

def retunedSpec (m : MetricRuleSpec) : Spec → Spec
  | .metric _ => .metric m
  | s => s

variable {s : Spec} {row : Row}

/-- The JSON that `UpdateRule` writes for a retuned rule of a kind is that of the kind's own
spec. -/
theorem ruleSpecJSON_retuned {r r' : AlertRule} (h : Retuned r r') {r₀ : AlertRule}
    (hr : r = r₀.withSpec s) : ruleSpecJSON r' = (retunedSpec r'.spec s).marshal := by
  rw [h, hr]
  cases s <;> rfl

theorem kinded_retunedSpec {m : MetricRuleSpec} (h : s.Kinded) :
    (retunedSpec m s).Kinded ∧ (retunedSpec m s).signal = s.signal := by
  cases s <;> exact ⟨h, rfl⟩

/-- The columns of the row that `UpdateRule` leaves for a retuned rule. -/
theorem scanColumns_retuned {r' : AlertRule} {channelIDs : List UUID}
    (h : Retuned { scanRule row with channelIDs := channelIDs } r') (now : Time) :
    scanColumns (row.updated r' now) =
      { scanColumns row with
        severity := r'.severity
        enabled := r'.enabled
        updatedAt := now
        source := ruleSource (scanColumns row)
        resolveMode := resolveModeOf (scanColumns row)
        environments := environmentsOf (scanColumns row) } := by
  obtain ⟨spec, log, error, latency, volume, attr, hrow⟩ := scanRule_eq_columns row
  rw [h, hrow]
  simp [scanColumns, Row.updated, unmarshal_notifConfigJSON, ruleSource, resolveModeOf,
    environmentsOf]

theorem scanRule_of_isCompletion (h : isCompletion row) : scanRule row = scanColumns row := by
  simp only [isCompletion, Bool.and_eq_true, decide_eq_true_eq] at h
  obtain ⟨hsignal, hkind⟩ := h
  have hread : (stringField (member row.ruleSpec "kind")).getD "" = "" ∨
      (stringField (member row.ruleSpec "kind")).getD "" = "trace_completion" := by
    split at hkind
    · next hnone => simp [hnone, stringField]
    · next hnull => simp [hnull, stringField]
    · next kind hstring =>
      simpa [hstring] using hkind
    · cases hkind
  rw [scanRule, hsignal]
  rcases hread with hread | hread <;>
    simp [scanSpec, hread, traceLatencySpecKind, traceErrorSpecKind, traceVolumeSpecKind,
      traceAttributeSpecKind]

theorem isCompletion_of_withSpec (hsignal : s.signal = row.signal)
    (h : scanRule row = (scanColumns row).withSpec s) : isCompletion row = false := by
  by_contra hnot
  have hcompletion : isCompletion row := by simpa using hnot
  have hnone := h.symm.trans (scanRule_of_isCompletion hcompletion)
  have htrace : s.signal = .trace := by
    simp only [isCompletion, Bool.and_eq_true, decide_eq_true_eq] at hcompletion
    rw [hsignal]
    exact hcompletion.1
  cases s with
  | metric m => cases htrace
  | log s => cases htrace
  | traceError s => cases congrArg traceErrorSpec hnone
  | traceLatency s => cases congrArg traceLatencySpec hnone
  | traceVolume s => cases congrArg traceVolumeSpec hnone
  | traceAttribute s => cases congrArg traceAttributeSpec hnone

def emptyCompletion : Tracecompletion.RuleSpec := ⟨"", "", [], 0, [], 0, 0⟩

theorem unmarshalCompletion_metric (m : MetricRuleSpec) :
    unmarshalCompletion m.marshal = some emptyCompletion := by
  simp [unmarshalCompletion, MetricRuleSpec.marshal, isStruct, List.lookup_append,
    List.lookup_cons, lookup_omitEmpty, stringField, intField, stagesField, stringsField,
    emptyCompletion]

/-! ## What an approval does to the reading -/

/-- The fields that `apply` sets where the rule has them: all four of a metric rule, and the
severity and the enabled flag of any. -/
def Reached (before : Reading) (f : Tunable) : Prop :=
  before.rule.signal = .metric ∨ f = .severity ∨ f = .enabled

/-- What rewriting the row keeps beside the four fields: a source, a resolve mode and
environments that `UpdateRule` would write as they are, and the spec of a trace rule of none
of the four kinds, if it was empty. -/
structure Kept (before : Reading) : Prop where
  source : ruleSource before.rule = before.rule.source
  resolveMode : resolveModeOf before.rule = before.rule.resolveMode
  environments : environmentsOf before.rule = before.rule.environments
  ownSpec : before.rule.signal = .trace → before.rule.noSpec = before.rule →
    before.completion = some (some emptyCompletion)

section Approval

variable {parseDuration : String → Option Duration} {row : Row} {channelIDs : List UUID}
  {r' : AlertRule}

theorem readings_withSpec (hretuned : Retuned (readRow row channelIDs).rule r') (now : Time)
    {s : Spec} (hs : s.Kinded) (hsignal : s.signal = row.signal)
    (hrow : scanRule row = (scanColumns row).withSpec s) :
    readRow row channelIDs =
        ⟨{ (scanColumns row).withSpec s with channelIDs := channelIDs }, none⟩ ∧
      readRow (row.updated r' now) channelIDs =
        ⟨{ (scanColumns (row.updated r' now)).withSpec (retunedSpec r'.spec s) with
            channelIDs := channelIDs }, none⟩ := by
  obtain ⟨hs', hsignal'⟩ := kinded_retunedSpec (m := r'.spec) hs
  have hspec : (row.updated r' now).ruleSpec = (retunedSpec r'.spec s).marshal := by
    have hrule : (readRow row channelIDs).rule =
        ({ scanColumns row with channelIDs := channelIDs } : AlertRule).withSpec s := by
      rw [readRow, hrow]
      cases s <;> rfl
    exact ruleSpecJSON_retuned hretuned hrule
  have hsig : (row.updated r' now).signal = (retunedSpec r'.spec s).signal :=
    hsignal.symm.trans hsignal'.symm
  have hrow' := scanRule_of_marshal hs' hsig hspec
  have hold := isCompletion_of_withSpec hsignal hrow
  have hnew := isCompletion_of_withSpec hsig.symm hrow'
  constructor
  · simp [readRow, hrow, hold]
  · simp [readRow, hrow', hnew]

/-- The two readings of a trace row of another kind: what was its spec is now an empty
completion spec. -/
theorem readings_specless (hretuned : Retuned (readRow row channelIDs).rule r') (now : Time)
    (hsignal : row.signal = .trace) (hrow : scanRule row = scanColumns row) :
    (readRow row channelIDs).rule = { scanColumns row with channelIDs := channelIDs } ∧
      readRow (row.updated r' now) channelIDs =
        ⟨{ scanColumns (row.updated r' now) with channelIDs := channelIDs },
          some (some emptyCompletion)⟩ := by
  have hspec : (row.updated r' now).ruleSpec = r'.spec.marshal := by
    show ruleSpecJSON r' = _
    rw [hretuned, readRow, hrow]
    simp [ruleSpecJSON, scanColumns, hsignal]
  have hkind : member (row.updated r' now).ruleSpec "kind" = none := by
    rw [hspec]
    simp [MetricRuleSpec.marshal, List.lookup_append, List.lookup_cons, lookup_omitEmpty]
  have hsig : (row.updated r' now).signal = .trace := hsignal
  have hcompletion : isCompletion (row.updated r' now) := by
    simp [isCompletion, hsig, hkind]
  constructor
  · rw [readRow, hrow]
  · rw [readRow, scanRule_of_isCompletion hcompletion, if_pos hcompletion, hspec,
      unmarshalCompletion_metric]

theorem setting_reached (hretuned : Retuned (readRow row channelIDs).rule r') (now : Time)
    {f : Tunable} (hf : Reached (readRow row channelIDs) f) :
    setting parseDuration (readRow row channelIDs).rule f =
        edited parseDuration (readRow row channelIDs).rule f ∧
      setting parseDuration (readRow (row.updated r' now) channelIDs).rule f =
        edited parseDuration r' f := by
  have hcolumns := scanColumns_retuned hretuned now
  rcases scanRule_cases row with ⟨s, hs, hsignal, hrow⟩ | ⟨hsignal, hrow⟩
  · obtain ⟨hbefore, hafter⟩ := readings_withSpec hretuned now hs hsignal hrow
    rw [hbefore] at hf ⊢
    rw [hafter, hcolumns]
    cases s <;> cases f <;>
      simp_all [Reached, setting, edited, withSpec, noSpec, thresholdOf,
        windowOf, retunedSpec]
  · obtain ⟨hbefore, hafter⟩ := readings_specless hretuned now hsignal hrow
    rw [Reached, hbefore] at hf
    rw [hbefore, hafter, hcolumns]
    cases f <;> simp_all [setting, edited, scanColumns]

theorem setting_unreached (hretuned : Retuned (readRow row channelIDs).rule r') (now : Time)
    {f : Tunable} (hf : ¬ Reached (readRow row channelIDs) f) :
    setting parseDuration (readRow (row.updated r' now) channelIDs).rule f =
      setting parseDuration (readRow row channelIDs).rule f := by
  have hcolumns := scanColumns_retuned hretuned now
  rcases scanRule_cases row with ⟨s, hs, hsignal, hrow⟩ | ⟨hsignal, hrow⟩
  · obtain ⟨hbefore, hafter⟩ := readings_withSpec hretuned now hs hsignal hrow
    rw [hbefore] at hf ⊢
    rw [hafter, hcolumns]
    cases s <;> cases f <;>
      simp_all [Reached, setting, withSpec, noSpec, thresholdOf,
        windowOf, retunedSpec]
  · obtain ⟨hbefore, hafter⟩ := readings_specless hretuned now hsignal hrow
    rw [Reached, hbefore] at hf
    rw [hbefore, hafter, hcolumns]
    cases f <;> simp_all [setting, thresholdOf, windowOf, scanColumns]

theorem rest_iff_kept (hretuned : Retuned (readRow row channelIDs).rule r') (now : Time) :
    (readRow (row.updated r' now) channelIDs).rest = (readRow row channelIDs).rest ↔
      Kept (readRow row channelIDs) := by
  have hcolumns := scanColumns_retuned hretuned now
  rcases scanRule_cases row with ⟨s, hs, hsignal, hrow⟩ | ⟨hsignal, hrow⟩
  · obtain ⟨hbefore, hafter⟩ := readings_withSpec hretuned now hs hsignal hrow
    have hmetric : ∀ m, s = .metric m →
        r'.spec = { m with threshold := r'.spec.threshold, forWindow := r'.spec.forWindow } := by
      rintro m rfl
      have hspec := congrArg AlertRule.spec hretuned
      rw [hbefore] at hspec
      exact hspec
    have hsame : ruleSource { (scanColumns row).withSpec s with channelIDs := channelIDs } =
        ruleSource (scanColumns row) := by
      cases s <;> exact ruleSource_congr rfl hsignal
    rw [hbefore, hafter, hcolumns]
    constructor
    · intro h
      constructor
      · rw [hsame]
        cases s <;> exact congrArg (fun x : Reading => x.rule.source) h
      · cases s <;> exact congrArg (fun x : Reading => x.rule.resolveMode) h
      · cases s <;> exact congrArg (fun x : Reading => x.rule.environments) h
      · intro htrace hnone
        cases s with
        | metric m => cases htrace
        | log s => cases htrace
        | traceError s => cases congrArg traceErrorSpec hnone
        | traceLatency s => cases congrArg traceLatencySpec hnone
        | traceVolume s => cases congrArg traceVolumeSpec hnone
        | traceAttribute s => cases congrArg traceAttributeSpec hnone
    · rintro ⟨hsource, hresolve, henvs, _⟩
      have hsource' : ruleSource (scanColumns row) = (scanColumns row).source := by
        rw [← hsame, hsource]
        cases s <;> rfl
      have hresolve' : resolveModeOf (scanColumns row) = (scanColumns row).resolveMode := by
        cases s <;> exact hresolve
      have henvs' : environmentsOf (scanColumns row) = (scanColumns row).environments := by
        cases s <;> exact henvs
      rw [hsource', hresolve', henvs']
      cases s with
      | metric m =>
        rw [hmetric m rfl]
        rfl
      | log s => rfl
      | traceError s => rfl
      | traceLatency s => rfl
      | traceVolume s => rfl
      | traceAttribute s => rfl
  · obtain ⟨hbefore, hafter⟩ := readings_specless hretuned now hsignal hrow
    have hread : readRow row channelIDs =
        ⟨{ scanColumns row with channelIDs := channelIDs },
          (readRow row channelIDs).completion⟩ := by
      rw [← hbefore]
    rw [hread, hafter, hcolumns]
    constructor
    · intro h
      exact {
        source := congrArg (fun x : Reading => x.rule.source) h
        resolveMode := congrArg (fun x : Reading => x.rule.resolveMode) h
        environments := congrArg (fun x : Reading => x.rule.environments) h
        ownSpec := fun _ _ => (congrArg Reading.completion h).symm }
    · rintro ⟨hsource, hresolve, henvs, hown⟩
      have hsource' : ruleSource (scanColumns row) = (scanColumns row).source := hsource
      have hresolve' : resolveModeOf (scanColumns row) = (scanColumns row).resolveMode :=
        hresolve
      have henvs' : environmentsOf (scanColumns row) = (scanColumns row).environments := henvs
      have hcompletion : (readRow row channelIDs).completion = some (some emptyCompletion) :=
        hown hsignal rfl
      rw [hsource', hresolve', henvs', hcompletion]
      rfl

end Approval

/-! ## Approving -/

/-- What a proposal's changes have to be: each proposes a value of its field, the changes of
one field agree, and what `apply` does not reach in a rule of the kind is already as
proposed. -/
def ChangesReach (parseDuration : String → Option Duration) (changes : List Change)
    (before : Reading) : Prop :=
  ∀ ch ∈ changes, ∃ v, ch.proposed parseDuration = some v ∧
    (∀ ch' ∈ changes, ch'.field = ch.field → ch'.proposed parseDuration = some v) ∧
    (¬ Reached before ch.field → setting parseDuration before.rule ch.field = some v)

/-- What a successful `apply` did to the row: it wrote the retuned rule over it. -/
theorem apply_eq_ok {parseDuration : String → Option Duration} {c : Constraints}
    {db db' : Database} {orgID id : UUID} {now : Time} {changes : List Change}
    (h : apply parseDuration c db orgID id now changes = .ok db') :
    ∃ row r', db.row? orgID id = some row ∧
      editAll parseDuration (readRow row (db.channelIDsFor id)).rule changes = .ok r' ∧
      reading db' orgID id = some (readRow (row.updated r' now) (db.channelIDsFor id)) := by
  unfold apply at h
  cases hrow : db.row? orgID id with
  | none => simp [Database.getRule, hrow, Except.mapError, bind, Except.bind] at h
  | some row =>
    rw [Database.getRule_of_row? hrow] at h
    simp only [bind_eq_ok, mapError_eq_ok] at h
    obtain ⟨r, hr, r', hedit, hupdate⟩ := h
    cases hr
    obtain ⟨_, _, hid⟩ := Database.row?_eq_some.1 hrow
    have hretuned := retuned_of_editAll hedit
    have hid' : r'.id = id := by
      have hsame := congrArg AlertRule.id hretuned
      have hcolumn := congrArg AlertRule.id (scanRule_noSpec row)
      exact hsame.trans (hcolumn.trans hid)
    have hchannels : r'.channelIDs = db.channelIDsFor id :=
      congrArg channelIDs hretuned
    refine ⟨row, r', rfl, hedit, ?_⟩
    subst hid'
    obtain ⟨_, _, _, hroutes⟩ := Database.updateRule_eq_ok hupdate
    have hrow' := Database.row?_updateRule hupdate hrow
    have hsame : db'.channelIDsFor r'.id = db.channelIDsFor r'.id := by
      rw [Database.channelIDsFor, hroutes, Database.channels_replacedRoutes, if_pos rfl,
        hchannels, dedupe_of_nodup (db.nodup_channelIDsFor r'.id)]
    rw [reading, hrow', hsame]
    rfl

/-- **When an approval takes effect exactly.**  For every stored rule and every approved list
of changes: the changes reach the rule, and rewriting the row keeps the rest. -/
theorem approval_takes_effect_iff (parseDuration : String → Option Duration) (c : Constraints)
    (db db' : Database) (orgID id : UUID) (now : Time) (changes : List Change)
    (before after : Reading) (happly : apply parseDuration c db orgID id now changes = .ok db')
    (hbefore : reading db orgID id = some before) (hafter : reading db' orgID id = some after) :
    TakesEffect parseDuration changes before after ↔
      ChangesReach parseDuration changes before ∧ Kept before := by
  obtain ⟨row, r', hrow, hedit, hread⟩ := apply_eq_ok happly
  have hold : readRow row (db.channelIDsFor id) = before := by
    simpa [reading, hrow] using hbefore
  have hnew : readRow (row.updated r' now) (db.channelIDsFor id) = after := by
    simpa [hread] using hafter
  have hretuned := retuned_of_editAll hedit
  have hkept := rest_iff_kept hretuned now
  have hedited := fun f => edited_of_editAll hedit f
  have hreached : ∀ f, Reached (readRow row (db.channelIDsFor id)) f → _ := fun f =>
    @setting_reached parseDuration row (db.channelIDsFor id) r' hretuned now f
  have hunreached : ∀ f, ¬ Reached (readRow row (db.channelIDsFor id)) f → _ := fun f =>
    @setting_unreached parseDuration row (db.channelIDsFor id) r' hretuned now f
  rw [hold, hnew] at hkept
  simp only [hold, hnew] at hreached hunreached
  rw [hold] at hedited
  constructor
  · rintro ⟨hproposed, _, hrest⟩
    refine ⟨?_, hkept.1 hrest⟩
    intro ch hch
    obtain ⟨v, hv, hset⟩ := hproposed ch hch
    refine ⟨v, hv, ?_, ?_⟩
    · intro ch' hch' hfield
      obtain ⟨v', hv', hset'⟩ := hproposed ch' hch'
      rw [hfield, hset] at hset'
      rw [hv', hset']
    · intro hnot
      rw [← hunreached ch.field hnot]
      exact hset
  · rintro ⟨hchanges, hk⟩
    refine ⟨?_, ?_, hkept.2 hk⟩
    · intro ch hch
      obtain ⟨v, hv, hagree, hnot⟩ := hchanges ch hch
      refine ⟨v, hv, ?_⟩
      by_cases hreach : Reached before ch.field
      · rw [(hreached ch.field hreach).2]
        exact (hedited ch.field).2 v ⟨ch, hch, rfl⟩ hagree
      · rw [hunreached ch.field hreach]
        exact hnot hreach
    · intro f hnone
      by_cases hreach : Reached before f
      · obtain ⟨hb, ha⟩ := hreached f hreach
        rw [ha, hb]
        exact (hedited f).1 hnone
      · exact hunreached f hreach

/-! A queue-depth check, a check on error logs, and a trace-completion rule. -/

private def fiveMinutesOnly (s : String) : Option Duration :=
  if s = "5m" then some (5 * Alerting.minute) else none

private def admitAll : Constraints where
  admitsRule := fun _ => true
  admitsRoute := fun _ => true

private def storedRow (signal : Signal) (spec : Value) : Row where
  id := 7
  organizationID := 1
  name := "check"
  signal := signal
  ruleSpec := spec
  createdAt := 10
  updatedAt := 10

private theorem rowKey (row : Row) : ([row].map Row.id).Nodup := List.nodup_singleton _

private def storedOnly (row : Row) : Database where
  rules := [row]
  routes := []
  ruleKey := rowKey row
  routeKey := List.nodup_nil

private def queueDepth : Row :=
  storedRow .metric (MetricRuleSpec.marshal
    { metricName := "queue.depth", aggregation := "last", operator := "gt", threshold := 100,
      forWindow := "5m" })

private def errorLogs : Row :=
  storedRow .log (LogRuleSpec.marshal
    { minSeverity := 17, threshold := 1, windowSeconds := 300, comparison := "at_least" })

private def orderCompletes : Row :=
  storedRow .trace (.object [("kind", .string "trace_completion"),
    ("closing_span_names", .array [.string "shipped"]), ("timeout_seconds", .number 60),
    ("lookback_seconds", .number 3600)])

private def toTwoHundred (before : Rat) : Change := ⟨.threshold, .number before, .number 200⟩

private def toCritical : Change := ⟨.severity, .string "warning", .string "critical"⟩

theorem approval_takes_effect_queueDepth : ∃ db' before after,
    apply fiveMinutesOnly admitAll (storedOnly queueDepth) 1 7 20 [toTwoHundred 100] = .ok db' ∧
    reading (storedOnly queueDepth) 1 7 = some before ∧ reading db' 1 7 = some after ∧
    TakesEffect fiveMinutesOnly [toTwoHundred 100] before after := by
  obtain ⟨db', happly⟩ : ∃ db',
      apply fiveMinutesOnly admitAll (storedOnly queueDepth) 1 7 20 [toTwoHundred 100] =
        .ok db' := ⟨_, rfl⟩
  obtain ⟨row, r', hrow, _, hread⟩ := apply_eq_ok happly
  have hbefore : reading (storedOnly queueDepth) 1 7 = some (readRow queueDepth []) := rfl
  refine ⟨db', _, _, happly, hbefore, hread, ?_⟩
  refine (approval_takes_effect_iff fiveMinutesOnly admitAll _ db' 1 7 20 _ _ _ happly hbefore
    hread).2 ⟨?_, ⟨rfl, rfl, rfl, by intro h; cases h⟩⟩
  intro ch hch
  rw [List.mem_singleton] at hch
  subst hch
  refine ⟨.number 200, rfl, ?_, fun hnot => absurd (Or.inl rfl) hnot⟩
  intro ch' hch' _
  rw [List.mem_singleton.1 hch']
  rfl

/-- An approved threshold leaves the log check as it was, and an approved severity leaves the
trace-completion rule without its spec. -/
theorem approval_misses_its_field :
    (∃ db' before after,
      apply fiveMinutesOnly admitAll (storedOnly errorLogs) 1 7 20 [toTwoHundred 0] = .ok db' ∧
      reading (storedOnly errorLogs) 1 7 = some before ∧ reading db' 1 7 = some after ∧
      thresholdOf after.rule = some 1 ∧
      ¬ TakesEffect fiveMinutesOnly [toTwoHundred 0] before after) ∧
    (∃ db' before after,
      apply fiveMinutesOnly admitAll (storedOnly orderCompletes) 1 7 20 [toCritical] = .ok db' ∧
      reading (storedOnly orderCompletes) 1 7 = some before ∧ reading db' 1 7 = some after ∧
      before.completion = some (some ⟨"trace_completion", "", [], 0, ["shipped"], 60, 3600⟩) ∧
      after.completion = some (some emptyCompletion) ∧
      ¬ TakesEffect fiveMinutesOnly [toCritical] before after) := by
  constructor
  · obtain ⟨db', happly⟩ : ∃ db',
        apply fiveMinutesOnly admitAll (storedOnly errorLogs) 1 7 20 [toTwoHundred 0] =
          .ok db' := ⟨_, rfl⟩
    obtain ⟨after, hafter, hthreshold⟩ : ∃ after, reading db' 1 7 = some after ∧
        thresholdOf after.rule = some 1 := by
      cases happly
      exact ⟨_, rfl, rfl⟩
    refine ⟨db', _, after, happly, rfl, hafter, hthreshold, ?_⟩
    intro htakes
    obtain ⟨v, hv, hset⟩ := htakes.proposed _ (List.mem_singleton.2 rfl)
    cases hv
    have hone : setting fiveMinutesOnly after.rule .threshold = some (.number 1) := by
      simp [setting, hthreshold]
    have hcontra := hone.symm.trans hset
    revert hcontra
    decide
  · obtain ⟨db', happly⟩ : ∃ db',
        apply fiveMinutesOnly admitAll (storedOnly orderCompletes) 1 7 20 [toCritical] =
          .ok db' := ⟨_, rfl⟩
    obtain ⟨after, hafter, hempty⟩ : ∃ after, reading db' 1 7 = some after ∧
        after.completion = some (some emptyCompletion) := by
      cases happly
      exact ⟨_, rfl, rfl⟩
    refine ⟨db', _, after, happly, rfl, hafter, rfl, hempty, ?_⟩
    intro htakes
    have hspec := congrArg Reading.completion htakes.rest
    have hcontra := hempty.symm.trans hspec
    revert hcontra
    decide

end Sluicio.Proposals
