import Sluicio.Demand.Config
import Sluicio.Demand.Writer

/-!
# What a stored object reads

The evaluators of the alert rules resolve the binding of a rule to services and attribute
groups and hand the store a query; an integration's pages query its slice of each signal, and
a saved view searches messages.  The attributes a query reads are those of the conditions the
store compiles for it: some keys address a column and read no attribute, and the environment
reads the attribute that the operator's setting names.

The queries of an evaluation are taken to be answered; an evaluation whose lookup fails reads
nothing.
-/

namespace Sluicio.Demand

open Alerting.Store (AlertRule)
open Integrations (MessageColumn MessageFilter SourceSignal attrGroupsFromMatchers
  withEnvironments resolveSources withSources messageColumnKeys defaultMessageColumns
  messageFilterAllowed builtinFilterAllowed)
open Messageviews (Filter SQL)
open Store (LogAttrFilter AttrOp PrimaryMap)
open Tracecompletion (trimSpace)

/-- The services something is read from. -/
inductive Reach where
  | all
  | only (services : List String)
  deriving DecidableEq

def Reach.named (service : String) (reach : Reach) : Reach :=
  if service = "" then reach
  else
    match reach with
    | .all => .only [service]
    | .only services => .only (services.filter (· = service))

/-- An attribute key or a metric name, and the services it is read from. -/
structure Read where
  signal : Signal
  key : String
  reach : Reach
  deriving DecidableEq

/-- What the evaluations depend on beside the configuration. -/
structure World (F : Type) where
  environment : Store.EnvironmentConfig
  engine : Store.Engine F
  /-- `strings.EqualFold` -/
  equalFold : String → String → Bool
  /-- the environments `perEnvironment` evaluates a check in; `none` is its whole scope -/
  turns : AlertRule → List (Option String)

def primaryMap : Signal → PrimaryMap
  | .metric => .metricAttributes
  | .log => .logAttributes
  | _ => .spanAttributes

def exprKeys : Store.Expr → List String
  | .column _ => []
  | .attr _ key => [key]
  | .environment cfg => [cfg.key]

/-- The attribute a condition reads. -/
def condKeys {α : Type} : Store.Cond α → List String
  | .text _ e _ | .number _ e _ | .nonEmpty e | .isEmpty e => exprKeys e
  | .present _ key | .absent _ key => [key]
  | .never => []

/-- A query of the store: the metric, the conditions of its own, the attribute it is split by
and the groups that narrow its scope. -/
structure Query where
  signal : Signal
  reach : Reach
  metricName : String := ""
  attrs : List LogAttrFilter := []
  splitBy : String := ""
  groups : List (List LogAttrFilter) := []

section Query

variable {F : Type} (w : World F)

/-- The attribute the compiled predicate reads. -/
def filterKeys (signal : Signal) (f : LogAttrFilter) : List String :=
  condKeys (Store.attrCond w.environment w.engine (primaryMap signal) f)

/-- What the query names itself. -/
def Query.ownKeys (q : Query) : List String :=
  q.metricName :: q.attrs.flatMap (filterKeys w q.signal) ++
    exprKeys (Store.attrExpr w.environment (primaryMap q.signal) q.splitBy)

def Query.groupKeys (q : Query) : List String :=
  q.groups.flatMap fun g => g.flatMap (filterKeys w q.signal)

def readsOf (signal : Signal) (reach : Reach) (keys : List String) : List Read :=
  (keys.filter (· ≠ "")).map fun key => { signal := signal, key := key, reach := reach }

def Query.reads (q : Query) : List Read :=
  readsOf q.signal q.reach (q.ownKeys w ++ q.groupKeys w)

theorem mem_readsOf {signal : Signal} {reach : Reach} {keys : List String} {ρ : Read} :
    ρ ∈ readsOf signal reach keys ↔
      ρ.signal = signal ∧ ρ.reach = reach ∧ ρ.key ∈ keys ∧ ρ.key ≠ "" := by
  simp only [readsOf, List.mem_map, List.mem_filter, decide_eq_true_eq]
  constructor
  · rintro ⟨key, hkey, rfl⟩
    exact ⟨rfl, rfl, hkey⟩
  · rintro ⟨rfl, rfl, hkey⟩
    exact ⟨ρ.key, hkey, rfl⟩

end Query

def systemMembers (catalog : Catalog) (id : UUID) : List String :=
  (catalog.services.filter fun s => s.systemID = some id).map Service.serviceName

def matcherGroups (c : Config) (id : UUID) : List (List LogAttrFilter) :=
  match c.integration? id with
  | none => []
  | some i => attrGroupsFromMatchers i.matchers i.ruleMatch

def contextEnvironmentGroups (env : Option String) (groups : List (List LogAttrFilter)) :
    List (List LogAttrFilter) :=
  match env with
  | none => groups
  | some env => withEnvironments groups [env]

def integrationCheckScope (c : Config) (env : Option String) (id : UUID) :
    List String × List (List LogAttrFilter) :=
  if c.catalog.attached id = [] then ([], [])
  else (c.catalog.attached id, contextEnvironmentGroups env (matcherGroups c id))

def sourcesOf (c : Config) (id : UUID) : List Integrations.Source :=
  match c.integration? id with
  | none => []
  | some i => i.sources

/-- An integration's members and its sources of a signal. -/
def signalSlice (c : Config) (id : UUID) (signal : SourceSignal) :
    List String × List (List LogAttrFilter) :=
  withSources (c.catalog.attached id) (matcherGroups c id)
    (resolveSources (systemMembers c.catalog) signal (sourcesOf c id)) signal

def integrationSignalCheckScope (c : Config) (env : Option String) (id : UUID)
    (signal : SourceSignal) : List String × List (List LogAttrFilter) :=
  if c.catalog.attached id = [] then ([], [])
  else
    ((signalSlice c id signal).1, contextEnvironmentGroups env (signalSlice c id signal).2)

/-- `metricScope`; `none` is no data. -/
def metricScope (c : Config) (env : Option String) (r : AlertRule) :
    Option (Reach × List (List LogAttrFilter)) :=
  match r.systemID, r.integrationID with
  | some sys, _ =>
    match systemMembers c.catalog sys with
    | [] => some (.all, [])
    | svcs => some (.only svcs, [])
  | none, some id =>
    match integrationSignalCheckScope c env id .metrics with
    | ([], _) => none
    | (svcs, groups) => some (.only svcs, groups)
  | none, none => if r.serviceName ≠ "" then some (.only [r.serviceName], []) else some (.all, [])

/-- The scope that `CountLogs` of the log adapter reads. -/
def logScope (c : Config) (env : Option String) (r : AlertRule) :
    Option (Reach × List (List LogAttrFilter)) :=
  match r.systemID, r.integrationID with
  | some sys, _ =>
    match systemMembers c.catalog sys with
    | [] => some (Reach.all.named r.serviceName, [])
    | svcs => some ((Reach.only svcs).named r.serviceName, [])
  | none, some id =>
    match integrationSignalCheckScope c env id .logs with
    | ([], _) => none
    | (svcs, groups) => some ((Reach.only svcs).named r.serviceName, groups)
  | none, none => some (Reach.all.named r.serviceName, [])

/-- The scope of the adapters of the four trace checks. -/
def traceScope (c : Config) (env : Option String) (r : AlertRule) :
    Option (List String × List (List LogAttrFilter)) :=
  let scope :=
    match r.systemID, r.integrationID with
    | some sys, _ => (systemMembers c.catalog sys, [])
    | none, some id => integrationCheckScope c env id
    | none, none => if r.serviceName ≠ "" then ([r.serviceName], []) else ([], [])
  if scope.1 = [] then none else some scope

/-! ## Alert rules -/

/-- The operator by its name. -/
def attrOpNamed : String → AttrOp
  | "eq" => .eq
  | "neq" => .neq
  | "contains" => .contains
  | "not_contains" => .notContains
  | "starts_with" => .startsWith
  | "ends_with" => .endsWith
  | "matches" => .regex
  | "exists" => .present
  | "not_exists" => .absent
  | "gt" => .gt
  | "gte" => .gte
  | "lt" => .lt
  | "lte" => .lte
  | op => .unknown op

def alertAttrsToStore (attrs : List Alerting.AttrFilter) : List LogAttrFilter :=
  attrs.map fun f => { key := f.key, op := attrOpNamed f.op, value := f.value }

/-- `MetricAggregate`, or `MetricAggregateGrouped` for a rule with a split.  `EnabledMetricRules`
lists the rules on telemetry; a pushed one reads none. -/
def metricQueries (c : Config) (env : Option String) (r : AlertRule) : List Query :=
  if r.source ≠ .telemetry then []
  else
    match metricScope c env r with
    | none => []
    | some (reach, groups) =>
      [{ signal := .metric, reach := reach, metricName := r.spec.metricName,
         attrs := alertAttrsToStore r.spec.attrs, splitBy := r.spec.splitBy, groups := groups }]

/-- `CountLogs`. -/
def logQueries (c : Config) (env : Option String) (r : AlertRule) : List Query :=
  match r.logSpec, logScope c env r with
  | some spec, some (reach, groups) =>
    [{ signal := .log, reach := reach, attrs := alertAttrsToStore spec.attrs, groups := groups }]
  | _, _ => []

/-- The query of one trace check, with the conditions of its own. -/
def traceQueries (c : Config) (env : Option String) (r : AlertRule)
    (attrs : Option (List Alerting.AttrFilter)) : List Query :=
  match attrs, traceScope c env r with
  | some attrs, some (svcs, groups) =>
    [{ signal := .trace, reach := .only svcs, attrs := alertAttrsToStore attrs,
       groups := groups }]
  | _, _ => []

/-- `CountErrorTraces`. -/
def traceErrorQueries (c : Config) (env : Option String) (r : AlertRule) : List Query :=
  traceQueries c env r (r.traceErrorSpec.map fun s => s.attrs)

/-- `CountMatchingTraces`. -/
def traceAttributeQueries (c : Config) (env : Option String) (r : AlertRule) : List Query :=
  traceQueries c env r (r.traceAttributeSpec.map fun s => s.attrs)

/-- `TraceLatencyMs`. -/
def traceLatencyQueries (c : Config) (env : Option String) (r : AlertRule) : List Query :=
  traceQueries c env r (r.traceLatencySpec.map fun _ => [])

/-- `TotalTraces`. -/
def traceVolumeQueries (c : Config) (env : Option String) (r : AlertRule) : List Query :=
  traceQueries c env r (r.traceVolumeSpec.map fun _ => [])

def ruleQueries (c : Config) (env : Option String) (r : AlertRule) : List Query :=
  match r.signal with
  | .metric => metricQueries c env r
  | .log => logQueries c env r
  | .trace =>
    traceErrorQueries c env r ++ traceAttributeQueries c env r ++ traceLatencyQueries c env r ++
      traceVolumeQueries c env r

/-- The query of an integration's slice of a signal, unless there is no service to read. -/
def sliceQuery (signal : Signal) (slice : List String × List (List LogAttrFilter)) : List Query :=
  if slice.1 = [] then []
  else [{ signal := signal, reach := .only slice.1, groups := slice.2 }]

/-- The queries of an integration's pages: its messages, its metrics and its logs. -/
def sliceQueries (c : Config) (i : Integration) : List Query :=
  sliceQuery .trace (c.catalog.attached i.id, matcherGroups c i.id) ++
    sliceQuery .metric (signalSlice c i.id .metrics) ++ sliceQuery .log (signalSlice c i.id .logs)

/-! ## Searches -/

/-- What a search of messages asks of the store: what finds them, and the columns that are
read from every span of their traces. -/
structure Search where
  reach : Reach
  keys : List String
  groups : List (List LogAttrFilter)
  columns : List MessageColumn

def disallowedFilterField (filters : List Filter) (allowed : List MessageFilter) :
    Option String :=
  if allowed = [] then none
  else
    filters.findSome? fun f =>
      match f.field with
      | .payload =>
        if trimSpace f.fieldPath = "" ∨ messageFilterAllowed allowed (trimSpace f.fieldPath) then
          none
        else some (trimSpace f.fieldPath)
      | .time | .integration => none
      | field => if builtinFilterAllowed allowed field.text then none else some field.text

def resolveMessageColumns (fromView : Option (List MessageColumn))
    (fromIntegration : List MessageColumn) : List MessageColumn :=
  match fromView with
  | some cols => cols
  | none => if fromIntegration = [] then defaultMessageColumns else fromIntegration

section Searches

variable {F : Type} (w : World F)

def namedServices (c : Config) (name : String) : List String :=
  match c.integrations.find? fun i => w.equalFold i.name name with
  | none => []
  | some i => c.catalog.matched i.id

/-- A search on an integration: refused, or empty, or on the services that it has in common
with the ones the search names. -/
def integrationSearch? (c : Config) (filters : List Filter)
    (fromView : Option (List MessageColumn)) (plan : SQL) : Option Search :=
  let names := namedServices w c plan.integrationName
  let services :=
    if plan.serviceNameLiterals = [] then names
    else plan.serviceNameLiterals.filter (· ∈ names)
  let found := c.integrations.find? fun i => i.name = plan.integrationName
  let allowed := (found.map Integration.messageFilters).getD []
  if (disallowedFilterField filters allowed).isSome ∨ services = [] then none
  else
    some {
      reach := .only services
      keys := plan.keys
      groups := (found.map fun i => matcherGroups c i.id).getD []
      columns := resolveMessageColumns fromView ((found.map Integration.messageColumns).getD []) }

/-- `searchMessages`, for a caller who may read everything; `none` when nothing is read. -/
def search? (c : Config) (filters : List Filter) (fromView : Option (List MessageColumn)) :
    Option Search :=
  match Messageviews.build filters with
  | .error _ => none
  | .ok plan =>
    if plan.integrationName ≠ "" then integrationSearch? w c filters fromView plan
    else
      some {
        reach := if plan.serviceNameLiterals = [] then .all else .only plan.serviceNameLiterals
        keys := plan.keys
        groups := []
        columns := resolveMessageColumns fromView [] }

def Search.rowReads (s : Search) : List Read := readsOf .trace s.reach s.keys

def Search.groupReads (s : Search) : List Read :=
  Query.reads w { signal := .trace, reach := s.reach, groups := s.groups }

def Search.columnReads (s : Search) : List Read :=
  readsOf .trace .all (messageColumnKeys s.columns)

def Search.reads (s : Search) : List Read :=
  s.rowReads ++ s.groupReads w ++ s.columnReads

/-- The row of the messages page of an integration. -/
def integrationFilter (i : Integration) : Filter :=
  { field := .integration, op := .is, value := i.name }

end Searches

/-- What `conditionSQL` reads of the spans of the mapping's service. -/
def mappingReads (m : Mapping) : List Read :=
  match m.matchOperator with
  | .other _ => []
  | _ => readsOf .trace (.only [m.serviceName]) [m.attributeKey]

section Reads

variable {F : Type} (w : World F) (c : Config)

/-- Some stored object reads this when it is evaluated. -/
inductive Reads : Read → Prop
  | rule {r : AlertRule} {env : Option String} {q : Query} {ρ : Read} (hr : r ∈ c.rules)
      (henv : env ∈ w.turns r) (hq : q ∈ ruleQueries c env r) (hρ : ρ ∈ q.reads w) : Reads ρ
  | slice {i : Integration} {q : Query} {ρ : Read} (hi : i ∈ c.integrations)
      (hq : q ∈ sliceQueries c i) (hρ : ρ ∈ q.reads w) : Reads ρ
  | sourceMetric {i : Integration} {s : Integrations.Source} {name : String}
      (hi : i ∈ c.integrations) (hs : s ∈ i.sources) (hname : s.NamesMetric name) :
      Reads ⟨.metric, name, .only (s.origin.services (systemMembers c.catalog))⟩
  | messages {i : Integration} {s : Search} {ρ : Read} (hi : i ∈ c.integrations)
      (hs : search? w c [integrationFilter i] none = some s) (hρ : ρ ∈ s.reads w) : Reads ρ
  | view {v : View} {s : Search} {ρ : Read} (hv : v ∈ c.views)
      (hs : search? w c v.filters v.messageColumns = some s) (hρ : ρ ∈ s.reads w) : Reads ρ
  | mapping {m : Mapping} {ρ : Read} (hm : m ∈ c.mappings) (hρ : ρ ∈ mappingReads m) : Reads ρ

end Reads

end Sluicio.Demand
