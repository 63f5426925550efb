import Sluicio.Integrations.Groups
import Sluicio.Tracecompletion.Types

/-!
# Metric and log sources

A source is telemetry that is evidence about an integration without its origin being a
member: the metrics of a broker, the logs of a runtime.  A read of the integration's metrics
or logs is its members' slice or the slice of a source.  With a source the members' groups
are pinned to the members, and the source's group is its origin's services with its own
conditions.
-/

namespace Sluicio.Integrations

open Store (LogAttrFilter)
open Tracecompletion (trimSpace)

/-- `Valueless`: the operator asks about the key. -/
def Operator.valueless : Operator → Bool
  | .keyExists | .keyNotExists => true
  | _ => false

inductive MatcherError where
  | needsAttribute (op : Operator)
  | emptyValue
  | invalidRegex (pattern : String)
  | unknownOperator

/-- `Matcher.Validate`.  `compile` is `regexp.Compile`. -/
def Matcher.validate (compile : String → Option (String → Bool)) (m : Matcher) :
    Except MatcherError Unit :=
  if m.operator.valueless then
    if m.isServiceMatcher then .error (.needsAttribute m.operator) else .ok ()
  else if m.value = "" then .error .emptyValue
  else
    match m.operator with
    | .regex => if (compile m.value).isSome then .ok () else .error (.invalidRegex m.value)
    | .other => .error .unknownOperator
    | _ => .ok ()

/-! ## Sources -/

inductive SourceSignal where
  | metrics | logs
  deriving DecidableEq

/-- A matcher's operator, or a comparison of the attribute as a number. -/
inductive SourceOp where
  | text (op : Operator)
  | gt | gte | lt | lte
  deriving DecidableEq

structure SourceCondition where
  attr : String
  operator : SourceOp
  value : String
  deriving DecidableEq

/-- The service a source reads, or the system whose members it reads. -/
inductive Origin where
  | service (name : String)
  | system (id : UUID)
  deriving DecidableEq

structure Source where
  signal : SourceSignal
  origin : Origin
  conditions : List SourceCondition := []
  metricNames : List String := []
  deriving DecidableEq

def maxSources : Nat := 20

inductive SourceError where
  | origin
  | tooManySources | tooManyConditions | tooManyMetricNames
  | conditionAttribute | conditionService
  | conditionNumber (value : String)
  | condition (e : MatcherError)
  | metricNamesOfLogs | metricName

/-- The checks of `Source.Validate` on one condition.  `parseFloat` is
`strconv.ParseFloat`. -/
def SourceCondition.validate (compile : String → Option (String → Bool))
    (parseFloat : String → Bool) (c : SourceCondition) : Except SourceError Unit :=
  if trimSpace c.attr = "" then .error .conditionAttribute
  else if c.attr = "service.name" then .error .conditionService
  else
    match c.operator with
    | .text op =>
      (Matcher.validate compile { attr := c.attr, operator := op, value := c.value }).mapError
        .condition
    | _ => if parseFloat (trimSpace c.value) then .ok () else .error (.conditionNumber c.value)

def Source.validate (compile : String → Option (String → Bool)) (parseFloat : String → Bool)
    (s : Source) : Except SourceError Unit := do
  match s.origin with
  | .service name =>
    if trimSpace name = "" ∨ 256 < name.utf8ByteSize then .error .origin
  | .system _ => pure ()
  if 20 < s.conditions.length then .error .tooManyConditions
  s.conditions.forM (SourceCondition.validate compile parseFloat)
  if s.metricNames ≠ [] ∧ s.signal ≠ .metrics then .error .metricNamesOfLogs
  if 20 < s.metricNames.length then .error .tooManyMetricNames
  s.metricNames.forM fun n =>
    if trimSpace n = "" ∨ 256 < n.utf8ByteSize then .error .metricName else .ok ()

def Source.trimmed (s : Source) : Source :=
  match s.origin with
  | .service name => { s with origin := .service (trimSpace name) }
  | .system _ => s

/-- The checks of `ReplaceSources`, and the sources it writes. -/
def acceptSources (compile : String → Option (String → Bool)) (parseFloat : String → Bool)
    (sources : List Source) : Except SourceError (List Source) :=
  if maxSources < sources.length then .error .tooManySources
  else
    sources.mapM fun s => do
      s.trimmed.validate compile parseFloat
      return s.trimmed

/-- A glob matches a name; `*` matches any run. -/
def globMatches : List Char → List Char → Bool
  | [], name => name.isEmpty
  | '*' :: glob, name => name.tails.any (globMatches glob)
  | c :: glob, d :: name => c = d && globMatches glob name
  | _ :: _, [] => false

def Source.NamesMetric (s : Source) (name : String) : Prop :=
  s.signal = .metrics ∧ name ≠ "" ∧
    ∃ g ∈ s.metricNames, globMatches (trimSpace g).toList name.toList

/-- `strings.ReplaceAll` of an escaped star by a run of any characters. -/
def starRuns : List Char → List Char
  | '\\' :: '*' :: cs => '.' :: '*' :: starRuns cs
  | c :: cs => c :: starRuns cs
  | [] => []

def globsToRegex (globs : List String) : String :=
  "^(?:" ++ "|".intercalate (globs.map fun g =>
    String.ofList (starRuns (quoteMeta (trimSpace g)).toList)) ++ ")$"

structure ResolvedSource where
  services : List String
  conditions : List SourceCondition
  metricNames : List String

def Origin.services (systemMembers : UUID → List String) : Origin → List String
  | .service name => [name]
  | .system id => systemMembers id

/-- `ResolveSources`: a source without services contributes nothing. -/
def resolveSources (systemMembers : UUID → List String) (signal : SourceSignal)
    (sources : List Source) : List ResolvedSource :=
  ((sources.filter fun s => s.signal = signal).map fun s =>
    { services := s.origin.services systemMembers, conditions := s.conditions,
      metricNames := s.metricNames : ResolvedSource }).filter fun r => r.services ≠ []

/-- `anyOf`: a condition naming a set of services exactly. -/
def anyOf (svcs : List String) : LogAttrFilter where
  key := Store.serviceNameAttrKey
  op := .regex
  value := "^(?:" ++ "|".intercalate (svcs.map quoteMeta) ++ ")$"

def sourceConditionFilter (c : SourceCondition) : LogAttrFilter :=
  match c.operator with
  | .gt => { key := c.attr, op := .gt, value := trimSpace c.value }
  | .gte => { key := c.attr, op := .gte, value := trimSpace c.value }
  | .lt => { key := c.attr, op := .lt, value := trimSpace c.value }
  | .lte => { key := c.attr, op := .lte, value := trimSpace c.value }
  | .text op => { key := c.attr, op := attrOpOf op, value := c.value }

def pinned (members : List String) (g : List LogAttrFilter) : List LogAttrFilter :=
  match g with
  | [] => [anyOf members]
  | f :: _ =>
    g ++ [{ anyOf members with requireAllGroups := f.requireAllGroups, member := f.member }]

def pinnedGroups (members : List String) (memberGroups : List (List LogAttrFilter)) :
    List (List LogAttrFilter) :=
  if members = [] then []
  else if memberGroups = [] then [[anyOf members]]
  else memberGroups.map (pinned members)

def metricNameFilters (signal : SourceSignal) (s : ResolvedSource) : List LogAttrFilter :=
  if signal = .metrics ∧ s.metricNames ≠ [] then
    [{ key := Store.metricNameAttrKey, op := .regex, value := globsToRegex s.metricNames }]
  else []

def sourceGroup (signal : SourceSignal) (s : ResolvedSource) : List LogAttrFilter :=
  (anyOf s.services :: s.conditions.map sourceConditionFilter ++ metricNameFilters signal s).map
    fun f => { f with source := true }

def withSources (members : List String) (memberGroups : List (List LogAttrFilter))
    (sources : List ResolvedSource) (signal : SourceSignal) :
    List String × List (List LogAttrFilter) :=
  if sources = [] then (members, memberGroups)
  else
    (members ++ ((sources.flatMap ResolvedSource.services).filter (· ∉ members)).eraseDups,
      pinnedGroups members memberGroups ++ sources.map (sourceGroup signal))

end Sluicio.Integrations
