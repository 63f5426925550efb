import Sluicio.Alerting.Store.Specs

/-!
# The rule store

The rows of `alert_rules` and `alert_rule_routes` as the rule editor writes and reads them.
`CreateRule`, `UpdateRule` and `scanRule` each name the columns on their own, and the spec
goes through the codec of the signal, so that what one writes the other has to read back.

This is the whole of `alerting.AlertRule`; the engine's modules have the fields that the
evaluators read.
-/

namespace Sluicio.Alerting.Store

open Lib Store.TraceAttributeRuleSpec

/-- `alert_rules.source` is a text; the import writes others than the two. -/
inductive RuleSource where
  | telemetry | pushed
  | other (text : String)
  deriving DecidableEq

/-- `alert_rules.resolve_mode`, a text as well. -/
inductive RuleResolveMode where
  | auto | manual
  | other (text : String)
  deriving DecidableEq

/-- `alert_rules.check_scope`, when it is not null. -/
inductive CheckScope where
  | process | flow

/-- `alerting.AlertRule`.  A nil slice and an empty one are one list. -/
structure AlertRule where
  id : UUID
  organizationID : UUID
  integrationID : Option UUID := none
  systemID : Option UUID := none
  serviceName : String := ""
  groupID : Option UUID := none
  name : String
  description : String := ""
  signal : Signal
  spec : MetricRuleSpec := {}
  logSpec : Option LogRuleSpec := none
  traceErrorSpec : Option TraceErrorRuleSpec := none
  traceLatencySpec : Option TraceLatencyRuleSpec := none
  traceVolumeSpec : Option TraceVolumeRuleSpec := none
  traceAttributeSpec : Option TraceAttributeRuleSpec := none
  severity : Severity
  evalSeconds : Int := 0
  enabled : Bool
  checkScope : Option CheckScope := none
  environmentMode : EnvironmentMode := .each
  environments : List String := []
  source : RuleSource := .telemetry
  displayOnService : Bool := false
  unit : String := ""
  runbook : String := ""
  resolveMode : RuleResolveMode := .auto
  channelIDs : List UUID := []
  titleTemplate : String := ""
  bodyTemplate : String := ""
  notificationContent : Option NotificationContent := none
  createdAt : Time := 0
  updatedAt : Time := 0

/-- A row of `alert_rules`. -/
structure Row where
  id : UUID
  organizationID : UUID
  integrationID : Option UUID := none
  systemID : Option UUID := none
  serviceName : Option String := none
  groupID : Option UUID := none
  name : String
  description : Option String := none
  signal : Signal
  ruleSpec : Value
  severity : Severity := .warning
  /-- seconds -/
  evaluationInterval : Int := 60
  enabled : Bool := true
  titleTemplate : Option String := none
  bodyTemplate : Option String := none
  createdAt : Time
  updatedAt : Time
  source : RuleSource := .telemetry
  displayOnService : Bool := false
  unit : Option String := none
  resolveMode : RuleResolveMode := .auto
  notificationConfig : Option Value := none
  runbook : String := ""
  checkScope : Option CheckScope := none
  environmentMode : EnvironmentMode := .each
  environments : List String := []

/-- A row of `alert_rule_routes`. -/
structure Route where
  alertRuleID : UUID
  channelID : UUID
  deriving DecidableEq

open Store.AlertRule

def nilIfEmpty (s : String) : Option String := if s = "" then none else some s

/-- `COALESCE(column, '')`. -/
def coalesce (column : Option String) : String := column.getD ""

@[simp] theorem coalesce_nilIfEmpty (s : String) : coalesce (nilIfEmpty s) = s := by
  unfold nilIfEmpty
  by_cases h : s = ""
  · simp [coalesce, h]
  · simp [coalesce, h]

def ruleSpecJSON (r : AlertRule) : Value :=
  match r.signal, r.logSpec, r.traceLatencySpec, r.traceVolumeSpec, r.traceAttributeSpec,
      r.traceErrorSpec with
  | .log, some ls, _, _, _, _ => ls.marshal
  | .trace, _, some ls, _, _, _ => ls.marshal
  | .trace, _, none, some vs, _, _ => vs.marshal
  | .trace, _, none, none, some as, _ => as.marshal
  | .trace, _, none, none, none, some ts => ts.marshal
  | _, _, _, _, _, _ => r.spec.marshal

def ruleSource (r : AlertRule) : RuleSource :=
  if r.source = .pushed ∧ r.signal = .metric then .pushed else .telemetry

variable {s : Spec} {row : Row} {r : AlertRule} {ids : List UUID}

theorem ruleSource_congr {r' : AlertRule} (hsource : r.source = r'.source)
    (hsignal : r.signal = r'.signal) : ruleSource r = ruleSource r' := by
  simp [ruleSource, hsource, hsignal]

def resolveModeOf (r : AlertRule) : RuleResolveMode :=
  if r.resolveMode = .manual then .manual else .auto

def environmentsOf (r : AlertRule) : List String :=
  if r.environmentMode = .only then r.environments else []

def notifConfigJSON (nc : Option NotificationContent) : Option Value :=
  nc.map NotificationContent.marshal

/-- `dedupe`: the first of each. -/
def dedupe (ids : List UUID) : List UUID := ids.eraseDups

theorem mem_dedupe {id : UUID} : id ∈ dedupe ids ↔ id ∈ ids :=
  List.mem_eraseDups

theorem dedupe_of_nodup (h : ids.Nodup) : dedupe ids = ids := by
  induction ids with
  | nil => rfl
  | cons id ids ih =>
    obtain ⟨hnot, hrest⟩ := List.nodup_cons.1 h
    have hsame : (ids.filter fun x => !x == id) = ids := by
      refine List.filter_eq_self.2 fun x hx => ?_
      have hne : x ≠ id := fun heq => hnot (heq ▸ hx)
      simpa using hne
    have hids : ids.eraseDups = ids := ih hrest
    rw [dedupe, List.eraseDups_cons, hsame, hids]

theorem nodup_dedupe (ids : List UUID) : (dedupe ids).Nodup := by
  -- the recursion of `eraseDups` is on the tail without the head
  induction h : ids.length using Nat.strong_induction_on generalizing ids with
  | _ n ih =>
    cases ids with
    | nil => exact List.nodup_nil
    | cons id ids =>
      have hlen : (ids.filter fun x => !x == id).length < n := by
        have := List.length_filter_le (fun x => !x == id) ids
        simp only [List.length_cons] at h
        omega
      have hrest := ih _ hlen (ids.filter fun x => !x == id) rfl
      have hnot : id ∉ dedupe (ids.filter fun x => !x == id) := by
        rw [mem_dedupe]
        simp
      show (List.eraseDups (id :: ids)).Nodup
      rw [List.eraseDups_cons]
      exact List.nodup_cons.2 ⟨hnot, hrest⟩

/-- What `scanRule` makes of the spec, by the signal of the row and, on a trace row, the
kind in the spec.  A trace-completion row has none of the four kinds, and leaves every spec
empty. -/
def scanSpec (signal : Signal) (spec : Value) (r : AlertRule) : AlertRule :=
  match signal with
  | .log => { r with logSpec := some (LogRuleSpec.unmarshal spec) }
  | .metric => { r with spec := MetricRuleSpec.unmarshal spec }
  | .trace =>
    let kind := (stringField (member spec "kind")).getD ""
    if kind = traceLatencySpecKind then
      { r with traceLatencySpec := some (TraceLatencyRuleSpec.unmarshal spec) }
    else if kind = traceErrorSpecKind then
      { r with traceErrorSpec := some (TraceErrorRuleSpec.unmarshal spec) }
    else if kind = traceVolumeSpecKind then
      { r with traceVolumeSpec := some (TraceVolumeRuleSpec.unmarshal spec) }
    else if kind = traceAttributeSpecKind then
      { r with traceAttributeSpec := some (unmarshal spec) }
    else r

/-- The columns `scanRule` reads, without the spec. -/
def scanColumns (row : Row) : AlertRule where
  id := row.id
  organizationID := row.organizationID
  integrationID := row.integrationID
  systemID := row.systemID
  serviceName := coalesce row.serviceName
  groupID := row.groupID
  name := row.name
  description := coalesce row.description
  signal := row.signal
  severity := row.severity
  evalSeconds := row.evaluationInterval
  enabled := row.enabled
  titleTemplate := coalesce row.titleTemplate
  bodyTemplate := coalesce row.bodyTemplate
  createdAt := row.createdAt
  updatedAt := row.updatedAt
  source := row.source
  displayOnService := row.displayOnService
  unit := coalesce row.unit
  resolveMode := row.resolveMode
  notificationContent := row.notificationConfig.bind NotificationContent.unmarshal
  runbook := row.runbook
  checkScope := row.checkScope
  environmentMode := row.environmentMode
  environments := row.environments
  channelIDs := []

def scanRule (row : Row) : AlertRule := scanSpec row.signal row.ruleSpec (scanColumns row)

/-! ## A written row reads back -/

/-- The spec of a rule, by its kind. -/
inductive Spec where
  | metric (s : MetricRuleSpec)
  | log (s : LogRuleSpec)
  | traceError (s : TraceErrorRuleSpec)
  | traceLatency (s : TraceLatencyRuleSpec)
  | traceVolume (s : TraceVolumeRuleSpec)
  | traceAttribute (s : TraceAttributeRuleSpec)

def Spec.Kinded : Spec → Prop
  | .metric _ | .log _ => True
  | .traceError s => s.kind = traceErrorSpecKind
  | .traceLatency s => s.kind = traceLatencySpecKind
  | .traceVolume s => s.kind = traceVolumeSpecKind
  | .traceAttribute s => s.kind = traceAttributeSpecKind

def Spec.signal : Spec → Signal
  | .metric _ => .metric
  | .log _ => .log
  | _ => .trace

def AlertRule.noSpec (r : AlertRule) : AlertRule :=
  { r with spec := {}, logSpec := none, traceErrorSpec := none, traceLatencySpec := none,
           traceVolumeSpec := none, traceAttributeSpec := none }

def AlertRule.withSpec (r : AlertRule) : Spec → AlertRule
  | .metric s => { r.noSpec with signal := .metric, spec := s }
  | .log s => { r.noSpec with signal := .log, logSpec := some s }
  | .traceError s => { r.noSpec with signal := .trace, traceErrorSpec := some s }
  | .traceLatency s => { r.noSpec with signal := .trace, traceLatencySpec := some s }
  | .traceVolume s => { r.noSpec with signal := .trace, traceVolumeSpec := some s }
  | .traceAttribute s => { r.noSpec with signal := .trace, traceAttributeSpec := some s }

def Spec.marshal : Spec → Value
  | .metric s => s.marshal
  | .log s => s.marshal
  | .traceError s => s.marshal
  | .traceLatency s => s.marshal
  | .traceVolume s => s.marshal
  | .traceAttribute s => s.marshal

theorem scanSpec_marshal (hs : s.Kinded) (r : AlertRule) :
    scanSpec s.signal s.marshal { r.noSpec with signal := s.signal } = r.withSpec s := by
  cases s with
  | metric s =>
    simp [scanSpec, Spec.signal, Spec.marshal, withSpec, MetricRuleSpec.unmarshal_marshal]
  | log s =>
    simp [scanSpec, Spec.signal, Spec.marshal, withSpec, LogRuleSpec.unmarshal_marshal]
  | traceError s =>
    have hkind : stringField (member s.marshal "kind") = some traceErrorSpecKind := by
      simpa [TraceErrorRuleSpec.marshal, Spec.Kinded] using hs
    simp [scanSpec, Spec.signal, Spec.marshal, withSpec, hkind,
      TraceErrorRuleSpec.unmarshal_marshal, traceErrorSpecKind, traceLatencySpecKind]
  | traceLatency s =>
    have hkind : stringField (member s.marshal "kind") = some traceLatencySpecKind := by
      simpa [TraceLatencyRuleSpec.marshal, Spec.Kinded] using hs
    simp [scanSpec, Spec.signal, Spec.marshal, withSpec, hkind,
      TraceLatencyRuleSpec.unmarshal_marshal]
  | traceVolume s =>
    have hkind : stringField (member s.marshal "kind") = some traceVolumeSpecKind := by
      simpa [TraceVolumeRuleSpec.marshal, Spec.Kinded] using hs
    simp [scanSpec, Spec.signal, Spec.marshal, withSpec, hkind,
      TraceVolumeRuleSpec.unmarshal_marshal, traceErrorSpecKind, traceLatencySpecKind,
      traceVolumeSpecKind]
  | traceAttribute s =>
    have hkind : stringField (member s.marshal "kind") = some traceAttributeSpecKind := by
      simpa [marshal, Spec.Kinded] using hs
    simp [scanSpec, Spec.signal, Spec.marshal, withSpec, hkind,
      unmarshal_marshal, traceErrorSpecKind, traceLatencySpecKind,
      traceVolumeSpecKind, traceAttributeSpecKind]

/-- What a rule is like that the columns can hold as it is. -/
structure AlertRule.Storable (r : AlertRule) : Prop where
  oneSpec : ∃ (r₀ : AlertRule) (s : Spec), s.Kinded ∧ r = r₀.withSpec s
  source : ruleSource r = r.source
  resolveMode : resolveModeOf r = r.resolveMode
  environments : environmentsOf r = r.environments

/-! ## The tables -/

/-- The two tables, with their primary keys. -/
structure Database where
  rules : List Row
  routes : List Route
  ruleKey : (rules.map Row.id).Nodup
  routeKey : routes.Nodup

/-- What a statement can fail on: the rows the other tables and the types of the columns
admit. -/
structure Constraints where
  admitsRule : Row → Bool
  admitsRoute : Route → Bool

inductive StoreError where
  | notFound
  | database

/-- The row `CreateRule` inserts; the columns it does not name have their defaults. -/
def insertedRow (r : AlertRule) (id : UUID) (now : Time) : Row where
  id := id
  organizationID := r.organizationID
  integrationID := r.integrationID
  systemID := r.systemID
  serviceName := nilIfEmpty r.serviceName
  groupID := r.groupID
  name := r.name
  description := nilIfEmpty r.description
  signal := r.signal
  ruleSpec := ruleSpecJSON r
  severity := r.severity
  enabled := r.enabled
  titleTemplate := nilIfEmpty r.titleTemplate
  bodyTemplate := nilIfEmpty r.bodyTemplate
  createdAt := now
  updatedAt := now
  source := ruleSource r
  displayOnService := r.displayOnService
  unit := nilIfEmpty r.unit
  resolveMode := resolveModeOf r
  notificationConfig := notifConfigJSON r.notificationContent
  runbook := r.runbook
  checkScope := r.checkScope
  environmentMode := r.environmentMode
  environments := environmentsOf r

/-- The `SET` clause of `UpdateRule`. -/
def Row.updated (row : Row) (r : AlertRule) (now : Time) : Row :=
  { row with
    name := r.name
    description := nilIfEmpty r.description
    ruleSpec := ruleSpecJSON r
    severity := r.severity
    enabled := r.enabled
    integrationID := r.integrationID
    systemID := r.systemID
    serviceName := nilIfEmpty r.serviceName
    groupID := r.groupID
    titleTemplate := nilIfEmpty r.titleTemplate
    bodyTemplate := nilIfEmpty r.bodyTemplate
    source := ruleSource r
    displayOnService := r.displayOnService
    unit := nilIfEmpty r.unit
    resolveMode := resolveModeOf r
    notificationConfig := notifConfigJSON r.notificationContent
    runbook := r.runbook
    environmentMode := r.environmentMode
    environments := environmentsOf r
    updatedAt := now }

namespace Database

def channelIDsFor (db : Database) (ruleID : UUID) : List UUID :=
  (db.routes.filter fun rt => rt.alertRuleID = ruleID).map Route.channelID

/-- The row of a rule of the organisation. -/
def row? (db : Database) (orgID id : UUID) : Option Row :=
  db.rules.find? fun row => row.organizationID = orgID && row.id = id

def getRule (db : Database) (orgID id : UUID) : Except StoreError AlertRule :=
  match db.row? orgID id with
  | none => .error .notFound
  | some row => .ok { scanRule row with channelIDs := db.channelIDsFor id }

/-- The kinds of trace specs that are alert rules and no trace completion. -/
def ruleKinds : List String :=
  [traceErrorSpecKind, traceLatencySpecKind, traceVolumeSpecKind, traceAttributeSpecKind]

/-- `ListRules`, in no order and without the channels. -/
def listRules (db : Database) (orgID : UUID) : List AlertRule :=
  (db.rules.filter fun row => row.organizationID = orgID && (row.signal ≠ .trace ||
    (stringField (member row.ruleSpec "kind")).getD "" ∈ ruleKinds)).map scanRule

/-- The routes `replaceRoutes` leaves. -/
def replacedRoutes (routes : List Route) (ruleID : UUID) (channelIDs : List UUID) :
    List Route :=
  (routes.filter fun rt => rt.alertRuleID ≠ ruleID) ++
    (dedupe channelIDs).map fun ch => ⟨ruleID, ch⟩

theorem nodup_replacedRoutes {routes : List Route} (h : routes.Nodup) (ruleID : UUID)
    (channelIDs : List UUID) : (replacedRoutes routes ruleID channelIDs).Nodup := by
  have hinj : Function.Injective fun ch : UUID => Route.mk ruleID ch := by
    intro ch ch' heq
    exact congrArg Route.channelID heq
  have hnew : ((dedupe channelIDs).map fun ch => Route.mk ruleID ch).Nodup :=
    (nodup_dedupe channelIDs).map hinj
  refine (h.filter _).append hnew ?_
  intro rt hold hmem
  obtain ⟨ch, _, rfl⟩ := List.mem_map.1 hmem
  simp at hold

theorem nodup_updated {rules : List Row} (h : (rules.map Row.id).Nodup) (p : Row → Bool)
    (r : AlertRule) (now : Time) :
    ((updateWhere p (fun row => row.updated r now) rules).map Row.id).Nodup := by
  have hid : ∀ row : Row, (row.updated r now).id = row.id := fun _ => rfl
  rw [map_updateWhere hid]
  exact h

/-- `CreateRule`.  The id is one that `gen_random_uuid` gives, and the insert fails on one
that is taken. -/
def createRule (c : Constraints) (db : Database) (id : UUID) (now : Time) (r : AlertRule) :
    Except StoreError Database :=
  if hfree : id ∈ db.rules.map Row.id then .error .database
  else if c.admitsRule (insertedRow r id now) &&
      (dedupe r.channelIDs).all fun ch => c.admitsRoute ⟨id, ch⟩ then
    .ok {
      rules := db.rules ++ [insertedRow r id now]
      routes := replacedRoutes db.routes id r.channelIDs
      ruleKey := by
        simp only [List.map_append, List.map_cons, List.map_nil]
        exact db.ruleKey.append (List.nodup_singleton _) (by
          intro x hx hx'
          rw [List.mem_singleton.1 hx'] at hx
          exact hfree hx)
      routeKey := nodup_replacedRoutes db.routeKey id r.channelIDs }
  else .error .database

def updateRule (c : Constraints) (db : Database) (orgID : UUID) (now : Time)
    (r : AlertRule) : Except StoreError Database :=
  match db.row? orgID r.id with
  | none => .error .notFound
  | some row =>
    if c.admitsRule (row.updated r now) &&
        (dedupe r.channelIDs).all fun ch => c.admitsRoute ⟨r.id, ch⟩ then
      .ok {
        rules := updateWhere (fun row => row.organizationID = orgID && row.id = r.id)
          (fun row => row.updated r now) db.rules
        routes := replacedRoutes db.routes r.id r.channelIDs
        ruleKey := nodup_updated db.ruleKey _ r now
        routeKey := nodup_replacedRoutes db.routeKey r.id r.channelIDs }
    else .error .database

/-- `DeleteRule`; the routes go with the rule. -/
def deleteRule (db : Database) (orgID id : UUID) : Except StoreError Database :=
  match db.row? orgID id with
  | none => .error .notFound
  | some _ =>
    .ok {
      rules := db.rules.filter fun row => !(row.organizationID = orgID && row.id = id)
      routes := db.routes.filter fun rt => rt.alertRuleID ≠ id
      ruleKey := db.ruleKey.sublist (List.filter_sublist.map _)
      routeKey := db.routeKey.filter _ }

end Database

/-! ## A written row reads back -/

theorem unmarshal_notifConfigJSON (nc : Option NotificationContent) :
    (notifConfigJSON nc).bind NotificationContent.unmarshal = nc := by
  cases nc with
  | none => rfl
  | some nc => exact NotificationContent.unmarshal_marshal nc

/-- A storable rule is read back from the row that `CreateRule` inserts. -/
theorem scanRule_insertedRow (h : r.Storable) (id : UUID) (now : Time) :
    scanRule (insertedRow r id now) =
      { r with id := id, channelIDs := [], evalSeconds := 60, createdAt := now,
               updatedAt := now } := by
  have hcolumns : scanColumns (insertedRow r id now) =
      { r.noSpec with id := id, channelIDs := [], evalSeconds := 60, createdAt := now,
                      updatedAt := now } := by
    simp [scanColumns, insertedRow, noSpec, h.source, h.resolveMode,
      h.environments, unmarshal_notifConfigJSON]
  obtain ⟨r₀, s, hs, rfl⟩ := h.oneSpec
  have hscan := scanSpec_marshal hs
    { r₀ with id := id, channelIDs := [], evalSeconds := 60, createdAt := now,
              updatedAt := now }
  rw [scanRule, hcolumns]
  cases s <;> exact hscan

/-- A storable rule is read back from the row that `UpdateRule` leaves, when the row had
the rule's signal.  The columns that are not in the `SET` clause are the row's own. -/
theorem scanRule_updated (h : r.Storable) (hsignal : row.signal = r.signal) (now : Time) :
    scanRule (row.updated r now) =
      { r with id := row.id, organizationID := row.organizationID, channelIDs := [],
               evalSeconds := row.evaluationInterval, checkScope := row.checkScope,
               createdAt := row.createdAt, updatedAt := now } := by
  have hcolumns : scanColumns (row.updated r now) =
      { r.noSpec with
        id := row.id, organizationID := row.organizationID, channelIDs := [],
        evalSeconds := row.evaluationInterval, checkScope := row.checkScope,
        createdAt := row.createdAt, updatedAt := now } := by
    simp [scanColumns, Row.updated, noSpec, h.source, h.resolveMode,
      h.environments, unmarshal_notifConfigJSON, hsignal]
  obtain ⟨r₀, s, hs, rfl⟩ := h.oneSpec
  have hscan := scanSpec_marshal hs
    { r₀ with
      id := row.id, organizationID := row.organizationID, channelIDs := [],
      evalSeconds := row.evaluationInterval, checkScope := row.checkScope,
      createdAt := row.createdAt, updatedAt := now }
  rw [scanRule, hcolumns]
  show scanSpec row.signal _ _ = _
  rw [hsignal]
  cases s <;> exact hscan

theorem scanRule_noSpec (row : Row) : (scanRule row).noSpec = scanColumns row := by
  rw [scanRule]
  cases row.signal with
  | metric => rfl
  | log => rfl
  | trace =>
    simp only [scanSpec]
    split_ifs <;> rfl

theorem scanRule_of_marshal (hs : s.Kinded) (hsignal : row.signal = s.signal)
    (hspec : row.ruleSpec = s.marshal) : scanRule row = (scanColumns row).withSpec s := by
  have hcolumns : { (scanColumns row).noSpec with signal := s.signal } = scanColumns row := by
    rw [← hsignal]
    rfl
  have hscan := scanSpec_marshal hs (scanColumns row)
  rw [hcolumns] at hscan
  rw [scanRule, hsignal, hspec]
  exact hscan

theorem scanRule_eq_columns (row : Row) : ∃ spec log error latency volume attr,
    scanRule row = { scanColumns row with
      spec := spec, logSpec := log, traceErrorSpec := error, traceLatencySpec := latency,
      traceVolumeSpec := volume, traceAttributeSpec := attr } := by
  refine ⟨(scanRule row).spec, (scanRule row).logSpec, (scanRule row).traceErrorSpec,
    (scanRule row).traceLatencySpec, (scanRule row).traceVolumeSpec,
    (scanRule row).traceAttributeSpec, ?_⟩
  rw [← scanRule_noSpec row]
  rfl

theorem scanRule_cases (row : Row) :
    (∃ s : Spec, s.Kinded ∧ s.signal = row.signal ∧ scanRule row = (scanColumns row).withSpec s) ∨
    (row.signal = .trace ∧ scanRule row = scanColumns row) := by
  have hcolumns : (scanColumns row).signal = row.signal := rfl
  rw [scanRule]
  cases hsignal : row.signal with
  | metric =>
    refine Or.inl ⟨.metric (MetricRuleSpec.unmarshal row.ruleSpec), trivial, rfl, ?_⟩
    simp only [scanSpec, withSpec, ← hsignal, ← hcolumns]
    rfl
  | log =>
    refine Or.inl ⟨.log (LogRuleSpec.unmarshal row.ruleSpec), trivial, rfl, ?_⟩
    simp only [scanSpec, withSpec, ← hsignal, ← hcolumns]
    rfl
  | trace =>
    simp only [scanSpec]
    split_ifs with hlatency herror hvolume hattr
    · refine Or.inl ⟨.traceLatency (TraceLatencyRuleSpec.unmarshal row.ruleSpec), hlatency,
        rfl, ?_⟩
      simp only [withSpec, ← hsignal, ← hcolumns]
      rfl
    · refine Or.inl ⟨.traceError (TraceErrorRuleSpec.unmarshal row.ruleSpec), herror, rfl, ?_⟩
      simp only [withSpec, ← hsignal, ← hcolumns]
      rfl
    · refine Or.inl ⟨.traceVolume (TraceVolumeRuleSpec.unmarshal row.ruleSpec), hvolume,
        rfl, ?_⟩
      simp only [withSpec, ← hsignal, ← hcolumns]
      rfl
    · refine Or.inl ⟨.traceAttribute (unmarshal row.ruleSpec), hattr,
        rfl, ?_⟩
      simp only [withSpec, ← hsignal, ← hcolumns]
      rfl
    · exact Or.inr ⟨trivial, rfl⟩

theorem scanRule_signal (row : Row) : (scanRule row).signal = row.signal :=
  congrArg signal (scanRule_noSpec row)

theorem scanRule_checkScope (row : Row) : (scanRule row).checkScope = row.checkScope :=
  congrArg checkScope (scanRule_noSpec row)

/-! ## What the statements do to the tables -/

namespace Database

variable {db db' : Database} {row : Row} {c : Constraints} {now : Time} {r : AlertRule}
  {id orgID : UUID}

theorem row?_eq_some :
    db.row? orgID id = some row ↔ row ∈ db.rules ∧ row.organizationID = orgID ∧ row.id = id := by
  unfold row?
  constructor
  · intro h
    have hkeys := List.find?_some h
    simp only [Bool.and_eq_true, decide_eq_true_eq] at hkeys
    exact ⟨List.mem_of_find?_eq_some h, hkeys⟩
  · rintro ⟨hmem, horg, hid⟩
    cases hfind : db.rules.find? fun row => row.organizationID = orgID && row.id = id with
    | none =>
      have hnot := List.find?_eq_none.1 hfind row hmem
      simp [horg, hid] at hnot
    | some row' =>
      have hkeys := List.find?_some hfind
      simp only [Bool.and_eq_true, decide_eq_true_eq] at hkeys
      have hsame := eq_of_key_eq db.ruleKey (List.mem_of_find?_eq_some hfind) hmem
        (hkeys.2.trans hid.symm)
      rw [hsame]

theorem getRule_of_row? (h : db.row? orgID id = some row) :
    db.getRule orgID id = .ok { scanRule row with channelIDs := db.channelIDsFor id } := by
  simp [getRule, h]

theorem channels_replacedRoutes (routes : List Route) (ruleID id : UUID) (channelIDs : List UUID) :
    ((replacedRoutes routes ruleID channelIDs).filter fun rt => rt.alertRuleID = id).map
        Route.channelID =
      if id = ruleID then dedupe channelIDs
      else (routes.filter fun rt => rt.alertRuleID = id).map Route.channelID := by
  unfold replacedRoutes
  rw [List.filter_append, List.filter_filter, List.filter_map, List.map_append, List.map_map]
  by_cases h : id = ruleID
  · subst h
    simp [Function.comp_def]
  have hne : ¬ ruleID = id := fun heq => h heq.symm
  have hold : (routes.filter fun rt => rt.alertRuleID = id && !rt.alertRuleID = ruleID) =
      routes.filter fun rt => rt.alertRuleID = id := by
    refine List.filter_congr fun rt _ => ?_
    by_cases hid : rt.alertRuleID = id
    · simp [hid, h]
    · simp [hid]
  simp [Function.comp_def, hne, h, hold]

theorem nodup_channelIDsFor (db : Database) (ruleID : UUID) : (db.channelIDsFor ruleID).Nodup := by
  refine (db.routeKey.filter _).map_on ?_
  intro rt hrt rt' hrt' hsame
  simp only [List.mem_filter, decide_eq_true_eq] at hrt hrt'
  obtain ⟨id, ch⟩ := rt
  obtain ⟨id', ch'⟩ := rt'
  simp_all

theorem mem_replacedRoutes_other {routes : List Route} {ruleID : UUID}
    {channelIDs : List UUID} {rt : Route} (hne : rt.alertRuleID ≠ ruleID) :
    rt ∈ replacedRoutes routes ruleID channelIDs ↔ rt ∈ routes := by
  simp only [replacedRoutes, List.mem_append, List.mem_filter, List.mem_map, decide_eq_true_eq]
  constructor
  · rintro (⟨hmem, _⟩ | ⟨ch, _, rfl⟩)
    · exact hmem
    · exact absurd rfl hne
  · intro hmem
    exact Or.inl ⟨hmem, hne⟩

/-- What a successful `CreateRule` did. -/
theorem createRule_eq_ok (h : createRule c db id now r = .ok db') :
    id ∉ db.rules.map Row.id ∧ db'.rules = db.rules ++ [insertedRow r id now] ∧
      db'.routes = replacedRoutes db.routes id r.channelIDs := by
  unfold createRule at h
  split at h
  · cases h
  · next hfree =>
    split at h
    · cases h
      exact ⟨hfree, rfl, rfl⟩
    · cases h

/-- What a successful `UpdateRule` did. -/
theorem updateRule_eq_ok (h : updateRule c db orgID now r = .ok db') :
    ∃ row, db.row? orgID r.id = some row ∧
      db'.rules = updateWhere (fun row => row.organizationID = orgID && row.id = r.id)
        (fun row => row.updated r now) db.rules ∧
      db'.routes = replacedRoutes db.routes r.id r.channelIDs := by
  unfold updateRule at h
  split at h
  · cases h
  · next row hrow =>
    split at h
    · cases h
      exact ⟨row, hrow, rfl, rfl⟩
    · cases h

/-- What a successful `DeleteRule` did. -/
theorem deleteRule_eq_ok (h : deleteRule db orgID id = .ok db') :
    ∃ row, db.row? orgID id = some row ∧
      (db'.rules = db.rules.filter fun row => !(row.organizationID = orgID && row.id = id)) ∧
      db'.routes = db.routes.filter fun rt => rt.alertRuleID ≠ id := by
  unfold deleteRule at h
  split at h
  · cases h
  · next row hrow =>
    cases h
    exact ⟨row, hrow, rfl, rfl⟩

theorem getRule_createRule (h : createRule c db id now r = .ok db') :
    db'.getRule r.organizationID id =
      .ok { scanRule (insertedRow r id now) with channelIDs := dedupe r.channelIDs } := by
  obtain ⟨_, hrules, hroutes⟩ := createRule_eq_ok h
  have hmem : insertedRow r id now ∈ db'.rules := by simp [hrules]
  have hrow : db'.row? r.organizationID id = some (insertedRow r id now) :=
    row?_eq_some.2 ⟨hmem, rfl, rfl⟩
  rw [getRule_of_row? hrow, channelIDsFor, hroutes, channels_replacedRoutes, if_pos rfl]

theorem row?_updateRule (h : updateRule c db orgID now r = .ok db')
    (hrow : db.row? orgID r.id = some row) : db'.row? orgID r.id = some (row.updated r now) := by
  obtain ⟨_, _, hrules, _⟩ := updateRule_eq_ok h
  obtain ⟨hmem, horg, hid⟩ := row?_eq_some.1 hrow
  have hmem' : row.updated r now ∈ db'.rules := by
    rw [hrules]
    exact mem_updateWhere_of hmem (by simp [horg, hid])
  exact row?_eq_some.2 ⟨hmem', horg, hid⟩

theorem row?_updateRule_other {orgID' id' : UUID} (h : updateRule c db orgID now r = .ok db')
    (hother : ¬ (orgID' = orgID ∧ id' = r.id)) (hrow : db'.row? orgID' id' = some row) :
    db.row? orgID' id' = some row ∧ db'.channelIDsFor id' = db.channelIDsFor id' := by
  obtain ⟨target, htarget, hrules, hroutes⟩ := updateRule_eq_ok h
  obtain ⟨hmem, horg, hid⟩ := row?_eq_some.1 hrow
  rw [hrules, mem_updateWhere] at hmem
  obtain ⟨row₀, hmem₀, ⟨hhit, hupdated⟩ | ⟨hmiss, hsame⟩⟩ := hmem
  · -- the updated row is the rule itself
    simp only [Bool.and_eq_true, decide_eq_true_eq] at hhit
    have horg₀ : row.organizationID = row₀.organizationID := by rw [hupdated]; rfl
    have hid₀ : row.id = row₀.id := by rw [hupdated]; rfl
    exact absurd ⟨by rw [← horg, horg₀, hhit.1], by rw [← hid, hid₀, hhit.2]⟩ hother
  · subst hsame
    refine ⟨row?_eq_some.2 ⟨hmem₀, horg, hid⟩, ?_⟩
    have hne : id' ≠ r.id := by
      intro heq
      obtain ⟨htmem, htorg, htid⟩ := row?_eq_some.1 htarget
      have hkey := eq_of_key_eq db.ruleKey hmem₀ htmem (by rw [hid, heq, htid])
      exact hother ⟨by rw [← horg, hkey, htorg], heq⟩
    rw [channelIDsFor, hroutes, channels_replacedRoutes, if_neg hne]
    rfl

theorem getRule_updateRule (h : updateRule c db orgID now r = .ok db')
    (hrow : db.row? orgID r.id = some row) :
    db'.getRule orgID r.id =
      .ok { scanRule (row.updated r now) with channelIDs := dedupe r.channelIDs } := by
  obtain ⟨_, _, _, hroutes⟩ := updateRule_eq_ok h
  rw [getRule_of_row? (row?_updateRule h hrow), channelIDsFor, hroutes,
    channels_replacedRoutes, if_pos rfl]

end Database

end Sluicio.Alerting.Store
