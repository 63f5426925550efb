import Sluicio.Api.AlertRules
import Sluicio.Integrations.Sources
import Sluicio.Messageviews.Search

/-!
# The configuration of an organisation

The objects an organisation stores that read telemetry: alert rules, integrations with their
matchers, sources and columns, saved message views and facet mappings, and beside them the
templates, completion rules and dashboards that the demand sweep walks as well.  A write
leaves the configuration as it was when its checks refuse it.
-/

namespace Sluicio.Demand

open Lib
open Alerting (Time)
open Alerting.Store (AlertRule Database Constraints)
open Integrations (GroupedMatcher RuleMatch Source MessageColumn MessageFilter)
open Messageviews (Filter)
open Tracecompletion (trimSpace RuleSpec)

/-- `DefaultOrgID`, the organisation of the cell. -/
def defaultOrgID : UUID := 1

/-! ## Facet mappings -/

inductive AttributeSource where
  | span | resource
  | other (text : String)

inductive MappingOperator where
  | equals | startsWith | endsWith | contains | exists
  | other (text : String)

structure Mapping where
  id : UUID
  serviceName : String
  attributeSource : AttributeSource
  attributeKey : String
  matchOperator : MappingOperator
  matchValue : String := ""
  setIOKind : String
  setIORole : String

def validKinds : List String := ["file", "queue", "stream", "http", "db", "email"]
def validRoles : List String := ["input", "output"]

inductive MappingError where
  | attributeSource | attributeKey | matchValue | matchOperator | ioKind | ioRole | serviceName

/-- The check of `Validate` on the operator and its value. -/
def Mapping.checkOperator (m : Mapping) : Except MappingError Unit :=
  match m.matchOperator with
  | .exists => .ok ()
  | .other _ => .error .matchOperator
  | _ => if m.matchValue = "" then .error .matchValue else .ok ()

def Mapping.validate (m : Mapping) : Except MappingError Unit := do
  match m.attributeSource with
  | .other _ => .error .attributeSource
  | _ => pure ()
  if trimSpace m.attributeKey = "" then .error .attributeKey
  m.checkOperator
  if m.setIOKind ∉ validKinds then .error .ioKind
  if m.setIORole ∉ validRoles then .error .ioRole
  if trimSpace m.serviceName = "" then .error .serviceName

/-! ## The stored objects -/

structure Integration where
  id : UUID
  name : String
  matchers : List GroupedMatcher := []
  ruleMatch : RuleMatch := .any
  sources : List Source := []
  messageColumns : List MessageColumn := []
  messageFilters : List MessageFilter := []

/-- A saved view; without columns of its own it has those of the integration it is on. -/
structure View where
  id : UUID
  filters : List Filter
  messageColumns : Option (List MessageColumn) := none

/-- `monitoringtemplates.Check`, what the sweep reads of it. -/
structure TemplateCheck where
  signal : String := ""
  metric : String := ""
  attrKeys : List String := []
  splitBy : String := ""

structure Template where
  id : UUID
  checks : List TemplateCheck

/-- `tracecompletion.Rule`. -/
structure Completion where
  id : UUID
  integrationID : UUID
  spec : RuleSpec

/-- A dashboard, by the integrations that are pinned to it. -/
structure Dashboard where
  id : UUID
  integrationIDs : List UUID

/-- The configuration.  The catalog holds which services are members of which integrations
and systems. -/
structure Config where
  catalog : Catalog
  alerts : Database
  integrations : List Integration
  views : List View
  mappings : List Mapping
  templates : List Template
  completions : List Completion
  dashboards : List Dashboard

namespace Config

def rules (c : Config) : List AlertRule := c.alerts.listRules defaultOrgID

def integration? (c : Config) (id : UUID) : Option Integration :=
  c.integrations.find? fun i => i.id = id

end Config

/-- What the checks of the writes ask of libraries and of the database. -/
structure Checks where
  parsers : Api.Parsers
  constraints : Constraints
  /-- `regexp.Compile` -/
  compile : String → Option (String → Bool)
  /-- `strconv.ParseFloat` -/
  parseFloat : String → Bool

inductive Write where
  | createRule (id : UUID) (now : Time) (req : Api.AlertRuleRequest)
  | updateRule (id : UUID) (now : Time) (req : Api.AlertRuleRequest)
  | deleteRule (id : UUID)
  /-- the rules as an import, a clone or an applied template leaves them -/
  | writeRules (alerts : Database)
  | createIntegration (id : UUID) (name : String) (matchers : List GroupedMatcher)
      (ruleMatch : RuleMatch)
  | replaceMatchers (id : UUID) (matchers : List GroupedMatcher) (ruleMatch : Option RuleMatch)
  | deleteIntegration (id : UUID)
  | putSources (id : UUID) (sources : List Source)
  | putMessageColumns (id : UUID) (columns : List MessageColumn)
  | putMessageFilters (id : UUID) (filters : List MessageFilter)
  | createView (id : UUID) (filters : List Filter) (columns : Option (List MessageColumn))
  | updateView (id : UUID) (filters : List Filter) (columns : Option (List MessageColumn))
  | deleteView (id : UUID)
  | createMapping (m : Mapping)
  | deleteMapping (id : UUID)
  | writeTemplates (templates : List Template)
  | writeCompletions (completions : List Completion)
  | writeDashboards (dashboards : List Dashboard)
  /-- the catalog as the reconciler and the pages of the systems leave it -/
  | writeCatalog (catalog : Catalog)

/-- A matcher of a request; one without an attribute is on the service's name. -/
def requestedMatcher (m : GroupedMatcher) : GroupedMatcher :=
  { m with attr := if m.attr = "" then Store.serviceNameAttrKey else m.attr }

/-- The matchers of a request, if they are all valid. -/
def acceptMatchers (checks : Checks) (ms : List GroupedMatcher) :
    Except Integrations.MatcherError (List GroupedMatcher) :=
  (ms.map requestedMatcher).mapM fun m => do
    m.toMatcher.validate checks.compile
    return m

def acceptViewColumns (columns : Option (List MessageColumn)) :
    Except Integrations.ColumnError (Option (List MessageColumn)) :=
  match columns with
  | none => .ok none
  | some cols => some <$> Integrations.normalizeMessageColumns cols

def systemExists (catalog : Catalog) (s : Source) : Bool :=
  match s.origin with
  | .system id => catalog.systems.any fun e => e.id = id
  | .service _ => true

namespace Config

def setIntegration (c : Config) (id : UUID) (f : Integration → Integration) : Config :=
  { c with integrations := updateWhere (fun i => i.id = id) f c.integrations }

def setView (c : Config) (id : UUID) (f : View → View) : Config :=
  { c with views := updateWhere (fun v => v.id = id) f c.views }

/-- The integration's row goes, and with it the rows that refer to it. -/
def withoutIntegration (c : Config) (id : UUID) : Config :=
  { c with
    alerts := {
      rules := c.alerts.rules.filter fun row => row.integrationID ≠ some id
      routes := c.alerts.routes.filter fun rt =>
        !c.alerts.rules.any fun row => row.id = rt.alertRuleID && row.integrationID = some id
      ruleKey := c.alerts.ruleKey.sublist (List.filter_sublist.map _)
      routeKey := c.alerts.routeKey.filter _ }
    integrations := c.integrations.filter fun i => i.id ≠ id
    completions := c.completions.filter fun r => r.integrationID ≠ id
    dashboards := c.dashboards.map fun d =>
      { d with integrationIDs := d.integrationIDs.filter (· ≠ id) } }

/-- What a write makes of the configuration, or nothing when it is refused. -/
def write? (checks : Checks) (c : Config) : Write → Option Config
  | .createRule id now req => do
    let r ← (Api.buildRule checks.parsers defaultOrgID 0 req).toOption
    let alerts ← (c.alerts.createRule checks.constraints id now r).toOption
    return { c with alerts := alerts }
  | .updateRule id now req => do
    let r ← (Api.buildRule checks.parsers defaultOrgID id req).toOption
    let alerts ← (c.alerts.updateRule checks.constraints defaultOrgID now r).toOption
    return { c with alerts := alerts }
  | .deleteRule id => do
    let alerts ← (c.alerts.deleteRule defaultOrgID id).toOption
    return { c with alerts := alerts }
  | .writeRules alerts => some { c with alerts := alerts }
  | .createIntegration id name ms mode => do
    if (c.integration? id).isSome then none
    let ms ← (acceptMatchers checks ms).toOption
    return { c with integrations := c.integrations ++
      [{ id := id, name := name, matchers := ms, ruleMatch := mode }] }
  | .replaceMatchers id ms mode => do
    let ms ← (acceptMatchers checks ms).toOption
    return c.setIntegration id fun i =>
      { i with matchers := ms, ruleMatch := mode.getD i.ruleMatch }
  | .deleteIntegration id => some (c.withoutIntegration id)
  | .putSources id sources => do
    if !sources.all (systemExists c.catalog) then none
    let sources ← (Integrations.acceptSources checks.compile checks.parseFloat sources).toOption
    return c.setIntegration id fun i => { i with sources := sources }
  | .putMessageColumns id columns => do
    let cols ← (Integrations.normalizeMessageColumns columns).toOption
    return c.setIntegration id fun i => { i with messageColumns := cols }
  | .putMessageFilters id filters => do
    let fs ← (Integrations.normalizeMessageFilters filters).toOption
    return c.setIntegration id fun i => { i with messageFilters := fs }
  | .createView id filters columns => do
    if c.views.any fun v => v.id = id then none
    let cols ← (acceptViewColumns columns).toOption
    (Messageviews.validateAll filters).toOption
    return { c with views := c.views ++ [{ id := id, filters := filters, messageColumns := cols }] }
  | .updateView id filters columns => do
    let cols ← (acceptViewColumns columns).toOption
    (Messageviews.validateAll filters).toOption
    return c.setView id fun v => { v with filters := filters, messageColumns := cols }
  | .deleteView id => some { c with views := c.views.filter fun v => v.id ≠ id }
  | .createMapping m => do
    if c.mappings.any fun m' => m'.id = m.id then none
    let m : Mapping := { m with attributeKey := trimSpace m.attributeKey }
    m.validate.toOption
    return { c with mappings := c.mappings ++ [m] }
  | .deleteMapping id => some { c with mappings := c.mappings.filter fun m => m.id ≠ id }
  | .writeTemplates templates => some { c with templates := templates }
  | .writeCompletions completions => some { c with completions := completions }
  | .writeDashboards dashboards => some { c with dashboards := dashboards }
  | .writeCatalog catalog => some { c with catalog := catalog }

/-- A write, which changes nothing when it is refused. -/
def write (checks : Checks) (c : Config) (w : Write) : Config := (c.write? checks w).getD c

/-- The configuration of a new organisation. -/
def empty : Config where
  catalog := {
    services := []
    serviceKey := List.nodup_nil
    systems := []
    integrations := []
    matched := fun _ => []
    attached := fun _ => [] }
  alerts := { rules := [], routes := [], ruleKey := List.nodup_nil, routeKey := List.nodup_nil }
  integrations := []
  views := []
  mappings := []
  templates := []
  completions := []
  dashboards := []

end Config

end Sluicio.Demand
