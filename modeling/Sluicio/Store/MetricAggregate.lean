import Mathlib.Algebra.Order.BigOperators.Group.List
import Mathlib.Algebra.Order.Ring.Rat
import Mathlib.Data.String.Basic
import Sluicio.Ingest.Metrics
import Sluicio.Lib.Grouped
import Sluicio.Lib.Ordered
import Sluicio.Store.Selection

/-!
# The value a metric check compares

`MetricAggregate` reduces the points of a metric in a window to one number.  Of a counter it
takes the rise: a series is the rows of one service, namespace and pair of attribute maps, its
rise is the highest value less the lowest, and the rises are summed.

Every other aggregation is an expression the database evaluates over the rows.
-/

namespace Sluicio.Store

open Lib
open Ingest (MetricRow)

/-- The `Environment` column, which the database fills in. -/
def environmentColumn (resourceAttributes : AttrMap) : String :=
  if resourceAttributes.value "deployment.environment.name" ≠ "" then
    resourceAttributes.value "deployment.environment.name"
  else resourceAttributes.value "deployment.environment"

/-- A row as a condition reads it. -/
def metricPoint (r : MetricRow) : MetricPoint where
  serviceName := r.serviceName
  metricName := r.metricName
  environment := environmentColumn r.resourceAttributes
  resourceAttributes := r.resourceAttributes
  metricAttributes := r.metricAttributes

/-- The arguments of a metric check's read, beside the metric. -/
structure MetricCheck where
  attrs : List LogAttrFilter
  start : Int
  stop : Int
  serviceIn : List String
  groups : List (List LogAttrFilter)

namespace MetricCheck

variable {F : Type} (cfg : EnvironmentConfig) (engine : Engine F) (traces : List Span)

def inWindow (q : MetricCheck) (time : Int) : Bool := q.start ≤ time && time ≤ q.stop

/-- The predicates that are not about the metric's name or the time. -/
def inScope (q : MetricCheck) (p : MetricPoint) : Bool :=
  (q.attrs.all fun f =>
    let (clause, args) := attrClauseIn cfg engine .metricAttributes f
    satisfies engine traces (.metric p) (some (.cond clause, args))) &&
  (q.serviceIn.isEmpty || q.serviceIn.contains p.serviceName) &&
  match attrGroupsClause cfg engine .metricAttributes q.groups q.start q.stop with
  | none => true
  | some clause => satisfies engine traces (.metric p) (some clause)

def metricCheckPredicates (q : MetricCheck) (metricName : String) (r : MetricRow) : Bool :=
  r.metricName = metricName && q.inWindow r.timestamp && q.inScope cfg engine traces (metricPoint r)

end MetricCheck

def metricAggExpr (aggregation : String) : String :=
  match aggregation with
  | "max" => "max(Value)"
  | "min" => "min(Value)"
  | "sum" => "sum(Value)"
  | "p95" => "quantile(0.95)(Value)"
  | "last" => "argMax(Value, Timestamp)"
  | "age" => "toUnixTimestamp(now()) - argMax(Value, Timestamp)"
  | _ => "avg(Value)"

def mapSort (m : AttrMap) : AttrMap := orderBy Prod.fst m

/-- The columns that tell one series from another. -/
def series (r : MetricRow) : String × String × AttrMap × AttrMap :=
  (r.serviceName, r.serviceNamespace, mapSort r.metricAttributes, mapSort r.resourceAttributes)

/-- The highest of the values less the lowest. -/
def spread (values : List ℚ) : ℚ := values.max?.getD 0 - values.min?.getD 0

/-- `greatest(max(Value) - min(Value), 0)`. -/
def rise (rows : List MetricRow) : ℚ := max (spread (rows.map MetricRow.value)) 0

section Aggregate

variable {F : Type} (cfg : EnvironmentConfig) (engine : Engine F) (traces : List Span)
  (reduce : String → List MetricRow → ℚ)

/-- `MetricAggregate`: the value and the number of rows it is over.  `reduce` is the
database's value of an expression over rows. -/
def metricAggregate (table : List MetricRow) (metricName aggregation : String)
    (q : MetricCheck) : ℚ × Nat :=
  let rows := table.filter (q.metricCheckPredicates cfg engine traces metricName)
  let (v, n) :=
    if aggregation = "increase" ∨ aggregation = "rate" then
      (sumBy series rise rows, sumBy series List.length rows)
    else (reduce (metricAggExpr aggregation) rows, rows.length)
  if n = 0 then (0, 0)
  else if aggregation = "rate" ∧ q.start < q.stop then
    (v / ((q.stop - q.start : Int) / 1000000000), n)
  else (v, n)

end Aggregate

/-! ## What the rise of some values is -/

theorem spread_eq {values : List ℚ} {lo hi : ℚ} (hlo : lo ∈ values) (hhi : hi ∈ values)
    (hall : ∀ v ∈ values, lo ≤ v ∧ v ≤ hi) : spread values = hi - lo := by
  have hmax : values.max? = some hi := List.max?_eq_some_iff.2 ⟨hhi, fun v hv => (hall v hv).2⟩
  have hmin : values.min? = some lo := List.min?_eq_some_iff.2 ⟨hlo, fun v hv => (hall v hv).1⟩
  rw [spread, hmax, hmin]
  rfl

@[simp] theorem spread_nil : spread [] = 0 := by
  simp [spread]

theorem spread_nonneg (values : List ℚ) : 0 ≤ spread values := by
  by_cases h : values = []
  · rw [h, spread_nil]
  · obtain ⟨lo, hlo, hi, hhi, hall⟩ := exists_bounds h
    rw [spread_eq hlo hhi hall]
    exact sub_nonneg.2 (hall lo hlo).2

theorem spread_perm {values values' : List ℚ} (h : values.Perm values') :
    spread values = spread values' := by
  by_cases hnil : values' = []
  · subst hnil
    rw [h.eq_nil]
  · obtain ⟨lo, hlo, hi, hhi, hall⟩ := exists_bounds hnil
    rw [spread_eq hlo hhi hall]
    exact spread_eq (h.mem_iff.2 hlo) (h.mem_iff.2 hhi) fun v hv => hall v (h.mem_iff.1 hv)

theorem rise_eq_spread (rows : List MetricRow) : rise rows = spread (rows.map MetricRow.value) :=
  max_eq_left (spread_nonneg _)

theorem rise_perm {rows rows' : List MetricRow} (h : rows.Perm rows') : rise rows = rise rows' := by
  rw [rise_eq_spread, rise_eq_spread, spread_perm (h.map _)]

section Aggregate

variable {F : Type} {cfg : EnvironmentConfig} {engine : Engine F} {traces : List Span}
  {reduce : String → List MetricRow → ℚ}

theorem sumBy_rise_of_no_rows {rows : List MetricRow} (hzero : sumBy series List.length rows = 0) :
    sumBy series rise rows = 0 := by
  have hnone : ∀ g ∈ groupBy series rows, g.length = 0 := by
    intro g hg
    have hle : g.length ≤ sumBy series List.length rows :=
      List.le_sum_of_mem (List.mem_map_of_mem hg)
    omega
  refine List.sum_eq_zero fun v hv => ?_
  obtain ⟨g, hg, rfl⟩ := List.mem_map.1 hv
  rw [List.eq_nil_of_length_eq_zero (hnone g hg), rise_eq_spread, List.map_nil, spread_nil]

theorem metricAggregate_increase (table : List MetricRow) (metricName : String) (q : MetricCheck) :
    (metricAggregate cfg engine traces reduce table metricName "increase" q).1 =
      sumBy series rise (table.filter (q.metricCheckPredicates cfg engine traces metricName)) := by
  simp only [metricAggregate, true_or, if_true]
  split
  next hzero => exact (sumBy_rise_of_no_rows hzero).symm
  next hsome => simp only [String.reduceEq, false_and, if_false]

end Aggregate

end Sluicio.Store
