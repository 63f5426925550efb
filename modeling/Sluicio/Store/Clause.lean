import Mathlib.Data.List.Infix
import Sluicio.Lib.Descent

/-!
# The clauses the telemetry store compiles

A WHERE fragment over the signal tables, as the store's compilers build it.  A
clause is a tree whose placeholders are labelled by `α`: the compilers return a
`Clause Unit` beside its arguments, and binding the arguments to the placeholders,
left to right, gives a `Clause (Arg F)`.

`tokens` is the clause's text, `fill` binds arguments to it, and `eval` is what
the database answers.  A comparison of a value that is not a number is NULL, so
the answer is one of three truth values.  `runsIn` is the database's check that
every column a clause reads is one the table it is asked of has.
-/

namespace Sluicio.Store

open Lib

/-- The value of a condition. -/
inductive Truth where
  | yes | no | null
  deriving DecidableEq

namespace Truth

/-- A condition that is never NULL. -/
def ofBool (b : Bool) : Truth := if b then .yes else .no

/-- `a AND b AND …`. -/
def all (ts : List Truth) : Truth :=
  if .no ∈ ts then .no else if .null ∈ ts then .null else .yes

/-- `a OR b OR …`. -/
def any (ts : List Truth) : Truth :=
  if .yes ∈ ts then .yes else if .null ∈ ts then .null else .no

@[simp] theorem ofBool_eq_yes {b : Bool} : ofBool b = .yes ↔ b = true := by
  cases b <;> simp [ofBool]

@[simp] theorem all_eq_yes {ts : List Truth} : all ts = .yes ↔ ∀ t ∈ ts, t = .yes := by
  constructor
  · intro h t ht
    cases t with
    | yes => rfl
    | no => simp [all, ht] at h
    | null =>
      by_cases hno : Truth.no ∈ ts
      · simp [all, hno] at h
      · simp [all, hno, ht] at h
  · intro h
    have hno : Truth.no ∉ ts := fun hmem => nomatch h _ hmem
    have hnull : Truth.null ∉ ts := fun hmem => nomatch h _ hmem
    simp [all, hno, hnull]

@[simp] theorem any_eq_yes {ts : List Truth} : any ts = .yes ↔ .yes ∈ ts := by
  by_cases hyes : Truth.yes ∈ ts
  · simp [any, hyes]
  · by_cases hnull : Truth.null ∈ ts
    · simp [any, hyes, hnull]
    · simp [any, hyes, hnull]

end Truth

/-- The attribute map of a signal's table, which also names the table. -/
inductive PrimaryMap where
  | spanAttributes | logAttributes | metricAttributes
  deriving DecidableEq

/-- The columns a predicate can address. -/
inductive Column where
  | serviceName | spanName | metricName

/-- A `Map(String, String)` column: the value of a key it does not hold is empty. -/
abbrev AttrMap := List (String × String)

/-- `m[key]`. -/
def AttrMap.value (m : AttrMap) (key : String) : String := (m.lookup key).getD ""

/-- `mapContains(m, key)`. -/
def AttrMap.contains (m : AttrMap) (key : String) : Bool := (m.lookup key).isSome

/-- A row of the `traces` table. -/
structure Span where
  timestamp : Int
  traceId : String
  spanId : String
  parentSpanId : String
  serviceName : String
  spanName : String
  environment : String
  resourceAttributes : AttrMap
  spanAttributes : AttrMap
  deriving DecidableEq

/-- A row of the `logs` table. -/
structure LogRecord where
  traceId : String
  spanId : String
  serviceName : String
  environment : String
  resourceAttributes : AttrMap
  logAttributes : AttrMap

/-- A row of the `metrics` table, which has no trace. -/
structure MetricPoint where
  serviceName : String
  metricName : String
  environment : String
  resourceAttributes : AttrMap
  metricAttributes : AttrMap

/-- A row of a signal table. -/
inductive Row where
  | span (s : Span)
  | log (l : LogRecord)
  | metric (m : MetricPoint)

namespace Row

def table : Row → PrimaryMap
  | span _ => .spanAttributes
  | log _ => .logAttributes
  | metric _ => .metricAttributes

def attributes : Row → AttrMap
  | span s => s.spanAttributes
  | log l => l.logAttributes
  | metric m => m.metricAttributes

def resourceAttributes : Row → AttrMap
  | span s => s.resourceAttributes
  | log l => l.resourceAttributes
  | metric m => m.resourceAttributes

def serviceName : Row → String
  | span s => s.serviceName
  | log l => l.serviceName
  | metric m => m.serviceName

def environment : Row → String
  | span s => s.environment
  | log l => l.environment
  | metric m => m.environment

/-- `(TraceId, SpanId)`. -/
def trace : Row → Option (String × String)
  | span s => some (s.traceId, s.spanId)
  | log l => some (l.traceId, l.spanId)
  | metric _ => none

/-- A column of the row; one its table does not have is never read (see `runsIn`). -/
def column : Column → Row → String
  | .serviceName, row => row.serviceName
  | .spanName, span s => s.spanName
  | .metricName, metric m => m.metricName
  | _, _ => ""

def map (primaryMap : PrimaryMap) (row : Row) : AttrMap :=
  if row.table = primaryMap then row.attributes else []

end Row

def Column.isIn : Column → PrimaryMap → Bool
  | .serviceName, _ => true
  | .spanName, table => table = .spanAttributes
  | .metricName, table => table = .metricAttributes

/-- Whether a table's rows have a `TraceId` and a `SpanId`. -/
def PrimaryMap.hasTrace : PrimaryMap → Bool
  | .metricAttributes => false
  | _ => true

/-! ## Expressions -/

/-- `EnvironmentConfig`: the attribute the environment is read from when `key` is not
empty, and the aliases of the environments' names, in the order `EnvironmentExpr`
sorts them. -/
structure EnvironmentConfig where
  key : String
  aliases : List (String × String)

/-- A text value of a row. -/
inductive Expr where
  | column (c : Column)
  | attr (primaryMap : PrimaryMap) (key : String)
  | environment (c : EnvironmentConfig)

/-- ASCII lower case, ClickHouse's `lower`. -/
def lower (s : String) : List Char := s.toList.map Char.toLower

/-- A row's environment before the aliases. -/
def rawEnvironment (c : EnvironmentConfig) (row : Row) : String :=
  if c.key ≠ "" then row.resourceAttributes.value c.key else row.environment

def environmentOf (c : EnvironmentConfig) (row : Row) : String :=
  ((c.aliases.find? fun a => a.1.toList = lower (rawEnvironment c row)).map Prod.snd).getD
    (rawEnvironment c row)

namespace Expr

def eval : Expr → Row → String
  | .column c, row => row.column c
  | .attr primaryMap key, row =>
    if (row.map primaryMap).contains key then (row.map primaryMap).value key
    else row.resourceAttributes.value key
  | .environment c, row => environmentOf c row

def isIn : Expr → PrimaryMap → Bool
  | .column c, table => c.isIn table
  | .attr primaryMap _, table => table = primaryMap
  | .environment _, _ => true

end Expr

/-! ## Clauses -/

/-- The comparisons of a value as text. -/
inductive TextOp where
  | eq | neq | contains | notContains | startsWith | endsWith | regex

/-- The comparisons of a value as a number. -/
inductive NumOp where
  | gt | gte | lt | lte

/-- What the store asks of a library it cannot see into: regular expressions, and
the floating-point numbers of Go and of the database. -/
structure Engine (F : Type) where
  regex : String → String → Bool
  parseFloat : String → Option F
  toFloat64OrNull : String → Option F
  compare : NumOp → F → F → Bool

/-- A bound argument. -/
inductive Arg (F : Type) where
  | text (s : String)
  | number (n : F)
  | time (t : Int)

/-- One condition on a row, its placeholders labelled by `α`. -/
inductive Cond (α : Type) where
  | text (op : TextOp) (e : Expr) (v : α)
  | number (op : NumOp) (e : Expr) (v : α)
  | nonEmpty (e : Expr)
  | isEmpty (e : Expr)
  | present (primaryMap : PrimaryMap) (key : String)
  | absent (primaryMap : PrimaryMap) (key : String)
  | never

/-- A clause, its placeholders labelled by `α`.  `countIf` is a condition on a group of
rows, the others are conditions on one row. -/
inductive Clause (α : Type) where
  | cond (c : Cond α)
  | all (parts : List (Clause α))
  | any (parts : List (Clause α))
  | countIf (clause : Clause α)
  | traceIn (start stop : α) (groups : Clause α) (having : List (Clause α))
  | subtree (anchor : Clause α) (start stop start' stop' : α) (anchor' : Clause α)

/-! ### Text -/

def sqlString (s : String) : String :=
  "'" ++ ((s.replace "\\" "\\\\").replace "'" "\\'") ++ "'"

def environmentExpr (c : EnvironmentConfig) : String :=
  let raw := if c.key ≠ "" then "ResourceAttributes[" ++ sqlString c.key ++ "]" else "Environment"
  if c.aliases = [] then raw
  else
    "transform(lower(" ++ raw ++ "), [" ++
      ", ".intercalate (c.aliases.map fun a => sqlString a.1) ++ "], [" ++
      ", ".intercalate (c.aliases.map fun a => sqlString a.2) ++ "], " ++ raw ++ ")"

/-- The map column's name. -/
def PrimaryMap.text : PrimaryMap → String
  | .spanAttributes => "SpanAttributes"
  | .logAttributes => "LogAttributes"
  | .metricAttributes => "MetricAttributes"

def Column.text : Column → String
  | .serviceName => "ServiceName"
  | .spanName => "SpanName"
  | .metricName => "MetricName"

/-- `attrEffectiveExprIn`, a column, or `EnvironmentExpr`. -/
def Expr.text : Expr → String
  | .column c => c.text
  | .attr m key =>
    "if(mapContains(" ++ m.text ++ ", '" ++ key ++ "'), " ++ m.text ++ "['" ++ key ++
      "'], ResourceAttributes['" ++ key ++ "'])"
  | .environment c => environmentExpr c

/-- The comparison sign. -/
def NumOp.text : NumOp → String
  | .gt => ">"
  | .gte => ">="
  | .lt => "<"
  | .lte => "<="

/-- A piece of a clause's text: SQL, or a placeholder. -/
inductive Token (α : Type) where
  | sql (s : String)
  | hole (a : α)

variable {α β F : Type}

def Token.label? : Token α → Option α
  | .sql _ => none
  | .hole a => some a

def Token.text : Token α → String
  | .sql s => s
  | .hole _ => "?"

def Cond.tokens : Cond α → List (Token α)
  | .text .eq e v => [.sql ("(" ++ e.text ++ ") = "), .hole v]
  | .text .neq e v => [.sql ("(" ++ e.text ++ ") != "), .hole v]
  | .text .contains e v =>
    [.sql ("positionCaseInsensitive(" ++ e.text ++ ", "), .hole v, .sql ") > 0"]
  | .text .notContains e v =>
    [.sql ("positionCaseInsensitive(" ++ e.text ++ ", "), .hole v, .sql ") = 0"]
  | .text .startsWith e v =>
    [.sql ("startsWithUTF8(lower(" ++ e.text ++ "), lower("), .hole v, .sql "))"]
  | .text .endsWith e v =>
    [.sql ("endsWithUTF8(lower(" ++ e.text ++ "), lower("), .hole v, .sql "))"]
  | .text .regex e v => [.sql ("match(" ++ e.text ++ ", "), .hole v, .sql ")"]
  | .number op e v =>
    [.sql ("toFloat64OrNull(" ++ e.text ++ ") " ++ op.text ++ " "), .hole v]
  | .nonEmpty (.column c) => [.sql (c.text ++ " != ''")]
  | .nonEmpty e => [.sql ("(" ++ e.text ++ ") != ''")]
  | .isEmpty (.column c) => [.sql (c.text ++ " = ''")]
  | .isEmpty e => [.sql ("(" ++ e.text ++ ") = ''")]
  | .present m key =>
    [.sql ("(mapContains(" ++ m.text ++ ", '" ++ key ++
      "') OR mapContains(ResourceAttributes, '" ++ key ++ "'))")]
  | .absent m key =>
    [.sql ("(NOT mapContains(" ++ m.text ++ ", '" ++ key ++
      "') AND NOT mapContains(ResourceAttributes, '" ++ key ++ "'))")]
  | .never => [.sql "1 = 0"]

def subtreeDepthCap : Nat := 512

/-- What `subtreeClause` writes before its first anchor. -/
def subtreeHead : String :=
  "(TraceId, SpanId) IN (\n\t\tSELECT TraceId, arrayJoin(arrayDistinct(arrayFold(\n" ++
    "\t\t    (acc, _) -> (\n" ++
    "\t\t        arrayConcat(acc.1, arrayMap(e -> e.1, arrayFilter(e -> has(acc.2, e.2), edges))),\n" ++
    "\t\t        arrayMap(e -> e.1, arrayFilter(e -> has(acc.2, e.2), edges))),\n" ++
    "\t\t    range(least(length(edges), " ++ toString subtreeDepthCap ++
    ")), (anchors, anchors)).1))\n" ++
    "\t\tFROM (\n\t\t    SELECT TraceId,\n" ++
    "\t\t           groupArray((SpanId, ParentSpanId)) AS edges,\n" ++
    "\t\t           groupArrayIf(SpanId, "

namespace Clause

mutual

/-- A clause's text. -/
def tokens : Clause α → List (Token α)
  | .cond c => c.tokens
  | .all parts => .sql "(" :: (joined " AND " parts ++ [.sql ")"])
  | .any parts => .sql "(" :: (joined " OR " parts ++ [.sql ")"])
  | .countIf clause => .sql "countIf(" :: (tokens clause ++ [.sql ") > 0"])
  | .traceIn start stop groups having =>
    [.sql "TraceId IN (\n\t\tSELECT TraceId FROM traces\n\t\tWHERE Timestamp >= ",
      .hole start, .sql " AND Timestamp <= ", .hole stop, .sql " AND "] ++
      (tokens groups ++
        (.sql "\n\t\tGROUP BY TraceId\n\t\tHAVING " :: (joined " AND " having ++ [.sql "\n\t)"])))
  | .subtree anchor start stop start' stop' anchor' =>
    .sql subtreeHead ::
      (tokens anchor ++
        ([.sql ")        AS anchors\n\t\t    FROM traces\n\t\t    WHERE Timestamp >= ",
            .hole start, .sql " AND Timestamp <= ", .hole stop,
            .sql "\n\t\t      AND TraceId IN (SELECT TraceId FROM traces WHERE Timestamp >= ",
            .hole start', .sql " AND Timestamp <= ", .hole stop', .sql " AND "] ++
          (tokens anchor' ++ [.sql ")\n\t\t    GROUP BY TraceId\n\t\t)\n\t)"])))

/-- `strings.Join`. -/
def joined (sep : String) : List (Clause α) → List (Token α)
  | [] => []
  | part :: parts =>
    tokens part ++ (if parts.isEmpty then [] else .sql sep :: joined sep parts)

end

def render (c : Clause α) : String := String.join (c.tokens.map Token.text)

/-- The placeholders' labels, in the order of the text. -/
def holes (c : Clause α) : List α := c.tokens.filterMap Token.label?

end Clause

/-! ### Binding arguments -/

/-- The condition with its arguments taken out. -/
def Cond.erase : Cond α → Cond Unit
  | .text op e _ => .text op e ()
  | .number op e _ => .number op e ()
  | .nonEmpty e => .nonEmpty e
  | .isEmpty e => .isEmpty e
  | .present m key => .present m key
  | .absent m key => .absent m key
  | .never => .never

/-- Bind the next argument to a condition's placeholder, if it has one. -/
def Cond.fill : Cond Unit → List α → Option (Cond α × List α)
  | .text op e _, v :: vs => some (.text op e v, vs)
  | .number op e _, v :: vs => some (.number op e v, vs)
  | .text .., [] => none
  | .number .., [] => none
  | .nonEmpty e, vs => some (.nonEmpty e, vs)
  | .isEmpty e, vs => some (.isEmpty e, vs)
  | .present m key, vs => some (.present m key, vs)
  | .absent m key, vs => some (.absent m key, vs)
  | .never, vs => some (.never, vs)

namespace Clause

mutual

/-- The clause with its arguments taken out. -/
def erase : Clause α → Clause Unit
  | .cond c => .cond c.erase
  | .all parts => .all (eraseList parts)
  | .any parts => .any (eraseList parts)
  | .countIf clause => .countIf (erase clause)
  | .traceIn _ _ groups having => .traceIn () () (erase groups) (eraseList having)
  | .subtree anchor _ _ _ _ anchor' =>
    .subtree (erase anchor) () () () () (erase anchor')

def eraseList : List (Clause α) → List (Clause Unit)
  | [] => []
  | part :: parts => erase part :: eraseList parts

end

mutual

/-- Positional binding: the placeholders take the arguments in the order of the text. -/
def fill : Clause Unit → List α → Option (Clause α × List α)
  | .cond c, vs => do
    let (c, vs) ← c.fill vs
    pure (.cond c, vs)
  | .all parts, vs => do
    let (parts, vs) ← fillList parts vs
    pure (.all parts, vs)
  | .any parts, vs => do
    let (parts, vs) ← fillList parts vs
    pure (.any parts, vs)
  | .countIf clause, vs => do
    let (clause, vs) ← fill clause vs
    pure (.countIf clause, vs)
  | .traceIn _ _ groups having, start :: stop :: vs => do
    let (groups, vs) ← fill groups vs
    let (having, vs) ← fillList having vs
    pure (.traceIn start stop groups having, vs)
  | .traceIn .., _ => none
  | .subtree anchor _ _ _ _ anchor', vs => do
    let (anchor, vs) ← fill anchor vs
    match vs with
    | start :: stop :: start' :: stop' :: vs => do
      let (anchor', vs) ← fill anchor' vs
      pure (.subtree anchor start stop start' stop' anchor', vs)
    | _ => none

def fillList : List (Clause Unit) → List α → Option (List (Clause α) × List α)
  | [], vs => some ([], vs)
  | part :: parts, vs => do
    let (part, vs) ← fill part vs
    let (parts, vs) ← fillList parts vs
    pure (part :: parts, vs)

end

end Clause

/-! ### Meaning -/

def TextOp.eval (regex : String → String → Bool) (value arg : String) : TextOp → Bool
  | .eq => value = arg
  | .neq => value ≠ arg
  | .contains => lower arg <:+: lower value
  | .notContains => ¬ lower arg <:+: lower value
  | .startsWith => lower arg <+: lower value
  | .endsWith => lower arg <:+ lower value
  | .regex => regex value arg

def Cond.eval (engine : Engine F) : Cond (Arg F) → Row → Truth
  | .text op e (.text v), row => .ofBool (op.eval engine.regex (e.eval row) v)
  | .number op e (.number n), row =>
    match engine.toFloat64OrNull (e.eval row) with
    | some x => .ofBool (engine.compare op x n)
    | none => .null
  | .nonEmpty e, row => .ofBool (e.eval row ≠ "")
  | .isEmpty e, row => .ofBool (e.eval row = "")
  | .present m key, row =>
    .ofBool ((row.map m).contains key || row.resourceAttributes.contains key)
  | .absent m key, row =>
    .ofBool (!(row.map m).contains key && !row.resourceAttributes.contains key)
  | .never, _ => .no
  | .text _ _ _, _ => .null
  | .number _ _ _, _ => .null

/-- `Timestamp >= ? AND Timestamp <= ?`. -/
def within : Arg F → Arg F → Span → Bool
  | .time start, .time stop, s => start ≤ s.timestamp && s.timestamp ≤ stop
  | _, _, _ => false

/-- The spans of one trace, as the subtree lookup gathers them: those of the outer WHERE,
when the trace is one the inner WHERE found. -/
def gathered (traces : List Span) (inside inside' anchor' : Span → Bool) (traceId : String) :
    List Span :=
  let holding := (traces.filter fun s => inside' s && anchor' s).map Span.traceId
  traces.filter fun s => inside s && (s.traceId ∈ holding) && (s.traceId = traceId)

/-- The subtree lookup: the trace's edges and its anchors, and the nodes the fold reaches. -/
def inSubtree (traces : List Span) (inside anchor inside' anchor' : Span → Bool)
    (traceId spanId : String) : Bool :=
  let group := gathered traces inside inside' anchor' traceId
  let edges := group.map fun s => (s.spanId, s.parentSpanId)
  let anchors := (group.filter anchor).map Span.spanId
  spanId ∈ descend edges (min edges.length subtreeDepthCap) anchors

/-- What a condition is asked of: a row, or the spans of a group. -/
inductive Scope where
  | row (r : Row)
  | group (spans : List Span)

namespace Clause

mutual

/-- The value of a bound clause, over the spans of the `traces` table. -/
def eval (engine : Engine F) (traces : List Span) : Clause (Arg F) → Scope → Truth
  | .cond c, .row r => c.eval engine r
  | .cond _, .group _ => .null
  | .all parts, scope => .all (evalList engine traces parts scope)
  | .any parts, scope => .any (evalList engine traces parts scope)
  | .countIf clause, .group spans =>
    .ofBool (spans.any fun s => eval engine traces clause (.row (.span s)) = .yes)
  | .countIf _, .row _ => .null
  | .traceIn start stop groups having, .row r =>
    .ofBool (match r.trace with
      | none => false
      | some (traceId, _) =>
        let group := traces.filter fun s =>
          within start stop s && (eval engine traces groups (.row (.span s)) = .yes) &&
            (s.traceId = traceId)
        !group.isEmpty && (Truth.all (evalList engine traces having (.group group)) = .yes))
  | .traceIn .., .group _ => .null
  | .subtree anchor start stop start' stop' anchor', .row r =>
    .ofBool (match r.trace with
      | none => false
      | some (traceId, spanId) =>
        inSubtree traces (within start stop)
          (fun s => eval engine traces anchor (.row (.span s)) = .yes) (within start' stop')
          (fun s => eval engine traces anchor' (.row (.span s)) = .yes) traceId spanId)
  | .subtree .., .group _ => .null

def evalList (engine : Engine F) (traces : List Span) : List (Clause (Arg F)) → Scope → List Truth
  | [], _ => []
  | part :: parts, scope =>
    eval engine traces part scope :: evalList engine traces parts scope

end

end Clause

namespace Clause

theorem evalList_eq (engine : Engine F) (traces : List Span) (parts : List (Clause (Arg F)))
    (scope : Scope) :
    evalList engine traces parts scope = parts.map fun p => eval engine traces p scope := by
  induction parts with
  | nil => rfl
  | cons part parts ih => rw [evalList, ih, List.map_cons]

variable {engine : Engine F} {traces : List Span} {parts : List (Clause (Arg F))} {scope : Scope}

@[simp] theorem eval_all :
    eval engine traces (.all parts) scope = .yes ↔
      ∀ p ∈ parts, eval engine traces p scope = .yes := by
  rw [eval, evalList_eq, Truth.all_eq_yes]
  exact List.forall_mem_map

@[simp] theorem eval_any :
    eval engine traces (.any parts) scope = .yes ↔
      ∃ p ∈ parts, eval engine traces p scope = .yes := by
  rw [eval, evalList_eq, Truth.any_eq_yes, List.mem_map]

/-- `countIf(c) > 0`: some row of the group satisfies it. -/
@[simp] theorem eval_countIf {spans : List Span} {c : Clause (Arg F)} :
    eval engine traces (.countIf c) (.group spans) = .yes ↔
      ∃ s ∈ spans, eval engine traces c (.row (.span s)) = .yes := by
  rw [eval, Truth.ofBool_eq_yes, List.any_eq_true]
  simp

end Clause

/-! ### Columns -/

def Cond.runsOn (table : PrimaryMap) : Cond α → Bool
  | .text _ e _ => e.isIn table
  | .number _ e _ => e.isIn table
  | .nonEmpty e => e.isIn table
  | .isEmpty e => e.isIn table
  | .present m _ => table = m
  | .absent m _ => table = m
  | .never => true

/-- Where a clause stands: in a WHERE over a table, or in the HAVING of a group of spans. -/
inductive Place where
  | table (t : PrimaryMap)
  | having

namespace Clause

mutual

/-- The database runs the clause there: every column it reads is one the table has. -/
def runsIn : Clause α → Place → Bool
  | .cond c, .table t => c.runsOn t
  | .cond _, .having => false
  | .all parts, place => listRunsIn parts place
  | .any parts, place => listRunsIn parts place
  | .countIf clause, .having => runsIn clause (.table .spanAttributes)
  | .countIf _, .table _ => false
  | .traceIn _ _ groups having, .table t =>
    t.hasTrace && runsIn groups (.table .spanAttributes) && listRunsIn having .having
  | .traceIn .., .having => false
  | .subtree anchor _ _ _ _ anchor', .table t =>
    t.hasTrace && runsIn anchor (.table .spanAttributes) && runsIn anchor' (.table .spanAttributes)
  | .subtree .., .having => false

def listRunsIn : List (Clause α) → Place → Bool
  | [], _ => true
  | part :: parts, place => runsIn part place && listRunsIn parts place

end

theorem listRunsIn_iff {parts : List (Clause α)} {place : Place} :
    listRunsIn parts place ↔ ∀ p ∈ parts, p.runsIn place := by
  induction parts with
  | nil => simp [listRunsIn]
  | cons part parts ih => simp [listRunsIn, ih]

end Clause

end Sluicio.Store
