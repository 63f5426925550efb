import Sluicio.Demand.Reads
import Sluicio.Identity.Mfa
import Sluicio.Messageviews.Plan

/-!
# The message search

`searchMessages` reads the filter rows of its request in three places: `resolveRange` takes the
window from a row on the time, `disallowedFilterField` checks the rows against the fields that
an integration allows, and `Build` makes them conditions.  A muted row is there to be seen and
should change nothing.  Only `Build` passes it over: the window may be that of a muted row, and
a request may be refused for one.
-/

namespace Sluicio.Api.MessageSearch

open Lib
open Demand (Integration disallowedFilterField resolveMessageColumns)
open Identity (parseInt)
open Integrations (MessageColumn MessageFilter messageColumnKeys)
open Messageviews
open Store (TraceSpan MessagesSearchParams MessageCursor SearchTraceRow AttrMap)
open Tracecompletion (trimSpace)

/-- `TimeRange`, in nanoseconds. -/
structure TimeRange where
  fromTime : Int
  toTime : Int
  deriving DecidableEq

/-- Go's readers of times and durations. -/
structure TimeReaders where
  parseDuration : String → Option Int
  /-- `fmt.Sscanf` with `"%dd"` -/
  scanDays : String → Option Int
  parseTime : String → String → Option Int

def hour : Int := 3600 * 10 ^ 9

/-- A duration is 64 bits wide. -/
def wrap64 (n : Int) : Int := n.bmod (2 ^ 64)

section Windows

variable (g : TimeReaders) (now : Int)

def parseAbsolute (s : String) : Option Int :=
  ["2006-01-02T15:04:05Z07:00", "2006-01-02T15:04:05.999999999Z07:00", "2006-01-02T15:04:05",
    "2006-01-02T15:04"].findSome? fun layout => g.parseTime layout (trimSpace s)

def parseRelative (s : String) : Option Int :=
  if "d".toList.isSuffixOf s.toList then
    match g.scanDays s with
    | none => none
    | some n => if n ≤ 0 then none else some (wrap64 (n * (24 * hour)))
  else g.parseDuration s

/-- The window that ends now. -/
def lastly (d : Int) : TimeRange := ⟨now - d, now⟩

def parseRangeString (s : String) : Option TimeRange :=
  if '/' ∈ s.toList then
    match parseAbsolute g (String.ofList (s.toList.takeWhile (· ≠ '/'))),
        parseAbsolute g (String.ofList ((s.toList.dropWhile (· ≠ '/')).drop 1)) with
    | some start, some stop =>
      if start < stop ∧ stop - start ≤ 365 * 24 * hour then some ⟨start, stop⟩ else none
    | _, _ => none
  else
    match parseRelative g s with
    | none => none
    | some d => if d ≤ 0 ∨ 365 * 24 * hour < d then none else some (lastly now d)

/-- `ParseRange`; the query answers the empty text for a name it does not hold. -/
def parseRange (query : String → String) (fallback : Int) : TimeRange :=
  let found := ["range", "window"].findSome? fun name =>
    if trimSpace (query name) = "" then none
    else parseRangeString g now (trimSpace (query name))
  found.getD (lastly now fallback)

def rangeFromRelative (s : String) : TimeRange :=
  match g.parseDuration s with
  | some d => if d ≤ 0 then lastly now hour else lastly now d
  | none => lastly now hour

end Windows

def durationFromPreset (toLower : String → String) (v : String) : String :=
  match trimLast (toLower (trimSpace v)) with
  | "15 minutes" | "15m" => "15m"
  | "1 hour" | "1h" => "1h"
  | "24 hours" | "24h" | "1 day" => "24h"
  | "7 days" | "7d" | "1 week" => "168h"
  | _ => ""

/-! ## Requests and answers -/

/-- `SearchCursor`, and `MessageCursorJSON`. -/
structure SearchCursor where
  ts : String
  id : String
  deriving DecidableEq

/-- `SearchRequest`, and the query of its URL. -/
structure SearchRequest where
  query : String → String := fun _ => ""
  range : String := ""
  filters : List Filter := []
  limit : Int := 0
  cursor : Option SearchCursor := none
  viewID : String := ""

/-- The request without its muted rows. -/
def SearchRequest.unmuted (req : SearchRequest) : SearchRequest :=
  { req with filters := Messageviews.unmuted req.filters }

structure TraceSearchResult where
  row : SearchTraceRow
  attributes : AttrMap
  promoted : List (String × String)

structure SearchResponse where
  window : TimeRange
  total : Nat := 0
  results : List TraceSearchResult := []
  nextCursor : Option SearchCursor := none
  messageColumns : List MessageColumn

/-- Why a request is refused. -/
inductive Refusal where
  | filter (e : FilterError)
  | build (e : BuildError)
  | field (name : String) (allowed : List String)

inductive Reply where
  | refused (why : Refusal)
  | failed
  | answered (response : SearchResponse)

def Reply.isRefused : Reply → Bool
  | .refused _ => true
  | _ => false

def parseMessageCursor (c : Option SearchCursor) : Option MessageCursor :=
  match c with
  | none => none
  | some c =>
    let ts := trimSpace c.ts
    let id := trimSpace c.id
    if ts = "" ∨ id = "" then none
    else
      match parseInt ts with
      | none => none
      | some n => some { firstMatchNano := n, traceID := id }

def nextMessageCursor (rows : List SearchTraceRow) (limit : Nat) : Option SearchCursor :=
  if limit = 0 ∨ rows.length < limit then none
  else rows.getLast?.map fun last => { ts := toString last.firstMatch, id := last.traceID }

def SearchRequest.pageLimit (req : SearchRequest) : Nat :=
  if req.limit ≤ 0 ∨ 1000 < req.limit then 200 else req.limit.toNat

/-! ## The handler -/

abbrev SpanCondition := TraceSpan → Bool

/-- `spanScope`, with what its clause says of a span. -/
structure SpanScope where
  unrestricted : Bool := false
  empty : Bool := false
  serviceIn : List String := []
  clause : SpanCondition := fun _ => true

/-- The lookups of a search that can fail. -/
inductive SearchQuery where
  | listIntegrations
  | getIntegration
  | distinctServiceNames
  | searchMessages

/-- What the handler reads, for one caller. -/
structure Handlers where
  traces : List TraceSpan
  texts : TextFunctions
  readers : TimeReaders
  toLower : String → String := String.toLower
  equalFold : String → String → Bool
  integrations : List Integration
  /-- `Resolver.ServicesForIntegration`, of the services seen in the window -/
  servicesForIntegration : UUID → List String → Except String (List String)
  /-- `SpanAttrGroupsClause` of the integration's groups, `none` for the empty clause -/
  integrationClause : UUID → TimeRange → Option SpanCondition
  viewColumns : String → Option (List MessageColumn)
  scope : TimeRange → SpanScope
  faults : SearchQuery → Option String := fun _ => none

/-- The time row that `resolveRange` takes the window from. -/
def presetRow (toLower : String → String) (filters : List Filter) : Option Filter :=
  filters.find? fun f => f.field = .time && durationFromPreset toLower f.value ≠ ""

/-- `mergeAttributes`: a span's attribute wins. -/
def mergeAttributes (resource span : AttrMap) : AttrMap :=
  span ++ resource.filter fun kv => !span.contains kv.1

def promotedByKey (cols : List MessageColumn) (values : List String) : List (String × String) :=
  ((messageColumnKeys cols).zip values).filter fun kv => kv.2 ≠ ""

/-- A search after its lookups: what is left to be answered. -/
inductive Prepared where
  | refused (why : Refusal)
  | failed
  | empty (window : TimeRange) (columns : List MessageColumn)
  | query (window : TimeRange) (columns : List MessageColumn) (params : MessagesSearchParams)

/-- The services, the columns and the conditions of a search. -/
structure Narrowed where
  services : List String
  columns : List MessageColumn
  clauses : List SpanCondition

section Search

variable (h : Handlers) (now : Int)

/-- The window of a request without a time row. -/
def requestedRange (req : SearchRequest) : TimeRange :=
  if trimSpace req.range ≠ "" then
    parseRange h.readers now (fun name => if name = "range" then req.range else req.query name) hour
  else parseRange h.readers now req.query hour

def resolveRange (req : SearchRequest) : TimeRange :=
  match presetRow h.toLower req.filters with
  | some f => rangeFromRelative h.readers now (durationFromPreset h.toLower f.value)
  | none => requestedRange h now req

def Handlers.distinctServiceNames (window : TimeRange) : List String :=
  ((h.traces.filter fun s => window.fromTime ≤ s.timestamp && s.timestamp ≤ window.toTime).map
    fun s => s.serviceName).dedup

def Handlers.resolveIntegrationServices (name : String) (window : TimeRange) :
    Except String (List String) := do
  let all ← readRows h.faults .listIntegrations h.integrations
  match all.find? fun i => h.equalFold i.name name with
  | none => return []
  | some i =>
    let candidates ← readRows h.faults .distinctServiceNames (h.distinctServiceNames window)
    h.servicesForIntegration i.id candidates

/-- `integrationIDByName`; a failed lookup finds none. -/
def Handlers.integrationIDByName (name : String) : Option UUID :=
  match readRows h.faults .listIntegrations h.integrations with
  | .error _ => none
  | .ok all => (all.find? fun i => i.name = name).map Integration.id

/-- `Integrations.Get`; a failed lookup finds none. -/
def Handlers.getIntegration (id : UUID) : Option Integration :=
  match readRows h.faults .getIntegration h.integrations with
  | .error _ => none
  | .ok all => all.find? fun i => i.id = id

/-- The integration that the plan names, as it is read for its columns and its fields. -/
def Handlers.scopedIntegration (plan : Plan) : Option Integration :=
  (h.integrationIDByName plan.integrationName).bind h.getIntegration

/-- The conditions of the rows, and of the integration's slice. -/
def Handlers.planClauses (plan : Plan) (window : TimeRange) : List SpanCondition :=
  plan.clauses.map (Messageviews.Clause.holds h.texts) ++
    ((h.integrationIDByName plan.integrationName).bind fun id =>
      h.integrationClause id window).toList

/-- The fields that the rows of a search may name, when they are checked; an empty list allows
every field. -/
def Handlers.allowedFields (plan : Plan) (window : TimeRange) : List MessageFilter :=
  if plan.integrationName = "" then []
  else
    match h.resolveIntegrationServices plan.integrationName window with
    | .error _ => []
    | .ok _ => ((h.scopedIntegration plan).map Integration.messageFilters).getD []

/-- The part on the integration: the search is refused, fails or is empty there, or goes on. -/
def Handlers.narrow (plan : Plan) (window : TimeRange) (filters : List Filter)
    (viewID : String) : Except Prepared Narrowed :=
  if plan.integrationName = "" then
    .ok {
      services := plan.serviceNameLiterals
      columns := resolveMessageColumns (h.viewColumns viewID) []
      clauses := plan.clauses.map (Messageviews.Clause.holds h.texts) }
  else
    match h.resolveIntegrationServices plan.integrationName window with
    | .error _ => .error .failed
    | .ok names =>
      let full := h.scopedIntegration plan
      let allowed := (full.map Integration.messageFilters).getD []
      match disallowedFilterField filters allowed with
      | some bad => .error (.refused (.field bad (allowed.map MessageFilter.key)))
      | none =>
        let columns := resolveMessageColumns (h.viewColumns viewID)
          ((full.map Integration.messageColumns).getD [])
        let services :=
          if plan.serviceNameLiterals = [] then names
          else plan.serviceNameLiterals.filter (· ∈ names)
        if services = [] then .error (.empty window columns)
        else .ok { services := services, columns := columns, clauses := h.planClauses plan window }

def intersectServiceIn (requested : List String) (scope : SpanScope) : Option (List String) :=
  if scope.unrestricted then some requested
  else if requested = [] then some scope.serviceIn
  else
    match requested.filter (· ∈ scope.serviceIn) with
    | [] => none
    | services => some services

/-- `SpanSubtreeClause`: the span is an anchor of the window, or below one. -/
def Handlers.subtree (window : TimeRange) (anchor : SpanCondition) : SpanCondition := fun s =>
  let inside : List TraceSpan := h.traces.filter fun x =>
    window.fromTime ≤ x.timestamp && x.timestamp ≤ window.toTime && x.traceId = s.traceId
  let edges := inside.map fun x => (x.spanId, x.parentSpanId)
  let anchors := (inside.filter anchor).map fun x => x.spanId
  s.spanId ∈ descend edges (min edges.length Store.subtreeDepthCap) anchors

/-- The conditions that the store is asked: with a row on the steps below, those of the anchors'
subtrees. -/
def Handlers.searchClauses (plan : Plan) (window : TimeRange) (clauses : List SpanCondition)
    (services : List String) (access : List SpanCondition) : List SpanCondition :=
  if plan.descendants ∧ clauses ≠ [] then
    [h.subtree window fun s => clauses.all (· s) &&
      (services.isEmpty || s.serviceName ∈ services) && access.all (· s)]
  else clauses

/-- The part on what the caller may see, and the query. -/
def Handlers.finish (plan : Plan) (window : TimeRange) (n : Narrowed) (req : SearchRequest) :
    Prepared :=
  let scope := h.scope window
  if scope.empty then .empty window n.columns
  else
    match intersectServiceIn n.services scope with
    | none => .empty window n.columns
    | some services =>
      let access := if scope.unrestricted then [] else [scope.clause]
      .query window n.columns {
        fromTime := window.fromTime
        toTime := window.toTime
        limit := req.pageLimit
        serviceFilter := services
        onlyFailed := plan.onlyFailed
        statusOK := plan.statusOK
        clauses := h.searchClauses plan window n.clauses services access ++ access
        before := parseMessageCursor req.cursor
        promotedKeys := messageColumnKeys n.columns
        excludeClauses := plan.excludeClauses.map (Messageviews.Clause.holds h.texts) }

def Handlers.withPlan (plan : Plan) (window : TimeRange) (req : SearchRequest) : Prepared :=
  match h.narrow plan window req.filters req.viewID with
  | .error early => early
  | .ok n => h.finish plan window n req

/-- `searchMessages` up to its query. -/
def Handlers.prepare (req : SearchRequest) : Prepared :=
  match validateAll req.filters with
  | .error e => .refused (.filter e)
  | .ok () =>
    match buildPlan h.toLower req.filters with
    | .error e => .refused (.build e)
    | .ok plan => h.withPlan plan (resolveRange h now req) req

def searchResult (columns : List MessageColumn) (row : SearchTraceRow) : TraceSearchResult where
  row := row
  attributes := mergeAttributes row.matchedResourceAttrs row.matchedSpanAttrs
  promoted := promotedByKey columns row.promoted

def Handlers.reply : Prepared → Reply
  | .refused why => .refused why
  | .failed => .failed
  | .empty window columns => .answered { window := window, messageColumns := columns }
  | .query window columns params =>
    match readRows h.faults .searchMessages (Store.searchMessages h.traces params) with
    | .error _ => .failed
    | .ok rows => .answered {
        window := window
        total := rows.length
        results := rows.map (searchResult columns)
        nextCursor := nextMessageCursor rows params.limit
        messageColumns := columns }

def Handlers.searchMessages (req : SearchRequest) : Reply := h.reply (h.prepare now req)

end Search

section Narrow

variable {h : Handlers} {plan : Plan} {window : TimeRange} {filters : List Filter}

theorem narrow_eq (viewID : String) :
    h.narrow plan window filters viewID =
      match disallowedFilterField filters (h.allowedFields plan window) with
      | some bad => .error (.refused (.field bad
          ((h.allowedFields plan window).map MessageFilter.key)))
      | none => h.narrow plan window [] viewID := by
  have hnil : ∀ allowed, disallowedFilterField [] allowed = none := by
    intro allowed
    simp [disallowedFilterField]
  have hall : disallowedFilterField filters [] = none := rfl
  unfold Handlers.narrow Handlers.allowedFields
  by_cases hname : plan.integrationName = ""
  · simp only [if_pos hname, hall]
  simp only [if_neg hname]
  cases h.resolveIntegrationServices plan.integrationName window with
  | error e => rw [hall]
  | ok names => simp only [hnil]

theorem narrow_nil_error {viewID : String} {early : Prepared}
    (hearly : h.narrow plan window [] viewID = .error early) :
    early = .failed ∨ ∃ columns, early = .empty window columns := by
  unfold Handlers.narrow at hearly
  by_cases hname : plan.integrationName = ""
  · rw [if_pos hname] at hearly
    cases hearly
  rw [if_neg hname] at hearly
  cases hservices : h.resolveIntegrationServices plan.integrationName window with
  | error e =>
    rw [hservices] at hearly
    cases hearly
    exact .inl rfl
  | ok names =>
    rw [hservices] at hearly
    simp only [disallowedFilterField, List.findSome?_nil, ite_self] at hearly
    by_cases hnone : (if plan.serviceNameLiterals = [] then names
        else plan.serviceNameLiterals.filter (· ∈ names)) = []
    · rw [if_pos hnone] at hearly
      cases hearly
      exact .inr ⟨_, rfl⟩
    · rw [if_neg hnone] at hearly
      cases hearly

end Narrow

end Sluicio.Api.MessageSearch
