import Mathlib.Data.Nat.Cast.Order.Ring
import Mathlib.Tactic.Ring
import Sluicio.Store.MetricAggregate

/-!
# The increase of a counter and its temporality

A producer counts events and exports, at each of its exports, how many it has counted since
it started (cumulative) or since the export before (delta).  The rows do not say which, and
the increase over a window is the highest exported value less the lowest, of each series.
For a cumulative series that is what was counted between the first and the last export in the
window.  For a delta series it is the difference of two exported counts, and
`increase_eq_iff` says when it is right.
-/

namespace Sluicio.Store

open Lib
open Ingest

/-- An export: when, and how many events were counted since the export before. -/
structure Sample where
  time : Int
  events : Nat

/-- An export with the time of the one before and everything counted so far. -/
structure Reading where
  previous : Int
  time : Int
  events : Nat
  total : Nat

/-- What the counter reads at each export. -/
def readings : Int → Nat → List Sample → List Reading
  | _, _, [] => []
  | previous, total, s :: samples =>
    ⟨previous, s.time, s.events, total + s.events⟩ :: readings s.time (total + s.events) samples

/-- One series of a monotonic sum.  The process runs on: nothing sets the count back. -/
structure Counter where
  resource : List KeyValue
  attributes : List KeyValue
  unit : String
  started : Int
  /-- counted before the first of these exports -/
  before : Nat
  samples : List Sample
  temporality : AggregationTemporality
  asDouble : Bool
  inOrder : samples.Pairwise fun a b => a.time ≤ b.time
  stated : temporality ≠ .unspecified

namespace Counter

def readings (c : Counter) : List Reading := Store.readings c.started c.before c.samples

def exported (c : Counter) (r : Reading) : Nat :=
  if c.temporality = .cumulative then r.total else r.events

/-- The start of the interval the value is over. -/
def startTime (c : Counter) (r : Reading) : Int :=
  if c.temporality = .cumulative then c.started else r.previous

def dataPoint (c : Counter) (r : Reading) : NumberDataPoint where
  attributes := c.attributes
  startTime := c.startTime r
  time := r.time
  value := if c.asDouble then .asDouble (c.exported r) else .asInt (c.exported r)

/-- The export as it is sent. -/
def request (c : Counter) (name : String) (r : Reading) : ResourceMetrics where
  attributes := c.resource
  scopeMetrics := [[⟨name, c.unit, .sum true c.temporality [c.dataPoint r]⟩]]

/-- The export as it is stored. -/
def row (c : Counter) (name : String) (r : Reading) : MetricRow where
  timestamp := r.time
  startTimestamp := c.startTime r
  metricName := name
  metricType := "sum"
  serviceName := resolveServiceName (attributesToMap c.resource)
  serviceNamespace := (attributesToMap c.resource).value "service.namespace"
  value := c.exported r
  count := 0
  isMonotonic := true
  unit := c.unit
  resourceAttributes := attributesToMap c.resource
  metricAttributes := attributesToMap c.attributes

def series (c : Counter) : String × String × AttrMap × AttrMap :=
  (resolveServiceName (attributesToMap c.resource),
    (attributesToMap c.resource).value "service.namespace",
    mapSort (attributesToMap c.attributes), mapSort (attributesToMap c.resource))

/-- The exports as a condition reads them. -/
def point (c : Counter) (name : String) : MetricPoint where
  serviceName := resolveServiceName (attributesToMap c.resource)
  metricName := name
  environment := environmentColumn (attributesToMap c.resource)
  resourceAttributes := attributesToMap c.resource
  metricAttributes := attributesToMap c.attributes

def inWindow (c : Counter) (q : MetricCheck) : List Reading :=
  c.readings.filter fun r => q.inWindow r.time

/-- What was counted before each export in a window, since the export before it. -/
def counts (c : Counter) (q : MetricCheck) : List Nat := (c.inWindow q).map Reading.events

end Counter

/-- What was counted between the first and the last of some exports. -/
def eventsBetween (counts : List Nat) : Nat := counts.tail.sum

/-- The counters of one metric, and all that was ingested: their exports and other metrics,
in any order and in any batches. -/
structure Ingested (name : String) where
  counters : List Counter
  apart : (counters.map Counter.series).Nodup
  others : List ResourceMetrics
  named : ∀ rm ∈ others, ∀ scope ∈ rm.scopeMetrics, ∀ m ∈ scope, m.name ≠ name
  batches : List (List ResourceMetrics)
  arrived : (batches.flatten.flatMap ResourceMetrics.split).Perm
    ((counters.flatMap fun c => c.readings.map (c.request name)) ++ others)

/-- The `metrics` table. -/
def Ingested.table {name : String} (d : Ingested name) : List MetricRow :=
  d.batches.flatMap fun batch => (convertMetricsRequest batch).1

theorem readings_pairwise {samples : List Sample}
    (h : samples.Pairwise fun a b => a.time ≤ b.time) (previous : Int) (total : Nat) :
    (readings previous total samples).Pairwise fun a b => a.time ≤ b.time := by
  have hmem (samples : List Sample) (previous : Int) (total : Nat) :
      ∀ r ∈ readings previous total samples, ∃ s ∈ samples, r.time = s.time := by
    induction samples generalizing previous total with
    | nil => exact fun r hr => nomatch hr
    | cons s samples ih =>
      intro r hr
      cases List.mem_cons.1 hr with
      | inl heq => exact ⟨s, List.mem_cons_self, by rw [heq]⟩
      | inr htail =>
        obtain ⟨s', hs', htime⟩ := ih _ _ r htail
        exact ⟨s', List.mem_cons_of_mem s hs', htime⟩
  induction samples generalizing previous total with
  | nil => exact List.Pairwise.nil
  | cons s samples ih =>
    rw [List.pairwise_cons] at h
    refine List.pairwise_cons.2 ⟨fun r hr => ?_, ih h.2 _ _⟩
    obtain ⟨s', hs', htime⟩ := hmem _ _ _ r hr
    rw [htime]
    exact h.1 s' hs'

/-- The count goes up by what was counted since. -/
theorem readings_isChain (samples : List Sample) (previous : Int) (total : Nat) :
    (readings previous total samples).IsChain fun a b => b.total = a.total + b.events := by
  induction samples generalizing previous total with
  | nil => exact List.isChain_nil
  | cons s samples ih =>
    cases samples with
    | nil => exact List.isChain_singleton _
    | cons s' samples => exact List.isChain_cons_cons.2 ⟨rfl, ih s.time (total + s.events)⟩

theorem Counter.inWindow_isChain (c : Counter) (q : MetricCheck) :
    (c.inWindow q).IsChain fun a b => b.total = a.total + b.events := by
  obtain ⟨earlier, later, hall⟩ :=
    isInfix_filter_window (readings_pairwise c.inOrder c.started c.before) q.start q.stop
  have hchain := readings_isChain c.samples c.started c.before
  rw [← hall] at hchain
  exact hchain.left_of_append.right_of_append

theorem total_of_isChain {r : Reading} {rs : List Reading}
    (h : (r :: rs).IsChain fun a b => b.total = a.total + b.events) :
    (∀ s ∈ r :: rs, r.total ≤ s.total ∧ s.total ≤ r.total + (rs.map Reading.events).sum) ∧
      ∃ s ∈ r :: rs, s.total = r.total + (rs.map Reading.events).sum := by
  induction rs generalizing r with
  | nil => simp
  | cons r' rs ih =>
    obtain ⟨hstep, hrest⟩ := List.isChain_cons_cons.1 h
    obtain ⟨hall, s, hs, hlast⟩ := ih hrest
    rw [List.map_cons, List.sum_cons]
    refine ⟨fun a ha => ?_, s, List.mem_cons_of_mem r hs, by omega⟩
    cases List.mem_cons.1 ha with
    | inl heq => subst heq; omega
    | inr hmem =>
      have := hall a hmem
      omega

/-! ## The rise of one series -/

/-- The highest of some counts less the lowest, above what came after the first. -/
def overcount (counts : List Nat) : Int :=
  counts.max?.getD 0 - counts.min?.getD 0 - eventsBetween counts

theorem overcount_eq {counts : List Nat} {lo hi : Nat} (hlo : lo ∈ counts) (hhi : hi ∈ counts)
    (hall : ∀ n ∈ counts, lo ≤ n ∧ n ≤ hi) : overcount counts = hi - lo - eventsBetween counts := by
  have hmax : counts.max? = some hi := List.max?_eq_some_iff.2 ⟨hhi, fun n hn => (hall n hn).2⟩
  have hmin : counts.min? = some lo := List.min?_eq_some_iff.2 ⟨hlo, fun n hn => (hall n hn).1⟩
  rw [overcount, hmax, hmin]
  rfl

theorem spread_counts (counts : List Nat) :
    spread (counts.map (Nat.cast : Nat → ℚ)) = eventsBetween counts + overcount counts := by
  by_cases hnil : counts = []
  · subst hnil
    simp [overcount, eventsBetween]
  obtain ⟨lo, hlo, hi, hhi, hall⟩ := exists_bounds hnil
  have hspread : spread (counts.map (Nat.cast : Nat → ℚ)) = hi - lo := by
    refine spread_eq (List.mem_map_of_mem hlo) (List.mem_map_of_mem hhi) fun v hv => ?_
    obtain ⟨n, hn, rfl⟩ := List.mem_map.1 hv
    exact ⟨Nat.cast_le.2 (hall n hn).1, Nat.cast_le.2 (hall n hn).2⟩
  rw [hspread, overcount_eq hlo hhi hall]
  push_cast
  ring

theorem spread_totals {rs : List Reading} (h : rs.IsChain fun a b => b.total = a.total + b.events) :
    spread (rs.map fun r => (r.total : ℚ)) = eventsBetween (rs.map Reading.events) := by
  cases rs with
  | nil => simp [eventsBetween]
  | cons r rs =>
    obtain ⟨hall, last, hlast, htotal⟩ := total_of_isChain h
    have hspread : spread ((r :: rs).map fun r => (r.total : ℚ)) = last.total - r.total := by
      refine spread_eq (List.mem_map_of_mem (f := fun r : Reading => (r.total : ℚ))
        List.mem_cons_self) (List.mem_map_of_mem hlast) fun v hv => ?_
      obtain ⟨s, hs, rfl⟩ := List.mem_map.1 hv
      have hs := hall s hs
      rw [← htotal] at hs
      exact ⟨Nat.cast_le.2 hs.1, Nat.cast_le.2 hs.2⟩
    rw [hspread, htotal, eventsBetween, List.map_cons, List.tail_cons]
    push_cast
    ring

/-- The rise of a counter's exports in a window, beyond what was counted between them. -/
def Counter.excess (c : Counter) (q : MetricCheck) : Int :=
  if c.temporality = .cumulative then 0 else overcount (c.counts q)

theorem Counter.rise_inWindow (c : Counter) (name : String) (q : MetricCheck) :
    rise ((c.inWindow q).map (c.row name)) = eventsBetween (c.counts q) + c.excess q := by
  have hvalues : ((c.inWindow q).map (c.row name)).map MetricRow.value =
      (c.inWindow q).map fun r => (c.exported r : ℚ) := by
    rw [List.map_map]
    rfl
  rw [rise_eq_spread, hvalues, Counter.excess]
  by_cases hcumulative : c.temporality = .cumulative
  · have hexported : ∀ r, c.exported r = r.total := fun r => if_pos hcumulative
    simp only [hexported, hcumulative, if_true, Int.cast_zero, add_zero]
    exact spread_totals (c.inWindow_isChain q)
  have hexported : ∀ r, c.exported r = r.events := fun r => if_neg hcumulative
  simp only [hexported, hcumulative, if_false]
  rw [← spread_counts, Counter.counts, List.map_map]
  rfl

/-! ## What was ingested -/

theorem Counter.rows_request (c : Counter) (name : String) (r : Reading) :
    (c.request name r).rows = [c.row name r] := by
  have hvalue : numberDataPointValue (c.dataPoint r).value = c.exported r := by
    cases hdouble : c.asDouble <;> simp [dataPoint, hdouble, numberDataPointValue]
  simp only [ResourceMetrics.rows, convertResource, request, convertMetric, List.flatten_cons,
    List.flatten_nil, List.append_nil, List.map_cons, List.map_nil, List.flatMap_cons,
    List.flatMap_nil, numberRow, hvalue]
  rfl

namespace Ingested

variable {name : String} (d : Ingested name)

theorem table_perm : d.table.Perm
    ((d.counters.flatMap fun c => c.readings.map (c.row name)) ++
      d.others.flatMap ResourceMetrics.rows) := by
  have hsplit : d.table = (d.batches.flatten.flatMap ResourceMetrics.split).flatMap
      ResourceMetrics.rows := by
    simp only [table, convertMetricsRequest_rows, List.flatMap_assoc, ResourceMetrics.rows_split]
    rw [List.flatten_eq_flatMap, List.flatMap_assoc]
    rfl
  have hexports : (d.counters.flatMap fun c => c.readings.map (c.request name)).flatMap
      ResourceMetrics.rows = d.counters.flatMap fun c => c.readings.map (c.row name) := by
    rw [List.flatMap_assoc]
    simp only [List.flatMap_map, Counter.rows_request, ← List.map_eq_flatMap]
  rw [hsplit, ← hexports, ← List.flatMap_append]
  exact d.arrived.flatMap_right ResourceMetrics.rows

section Read

variable {F : Type} (cfg : EnvironmentConfig) (engine : Engine F) (traces : List Span)
  (reduce : String → List MetricRow → ℚ) (q : MetricCheck)

/-- The counters the check reads. -/
def selected : List Counter :=
  d.counters.filter fun c => q.inScope cfg engine traces (c.point name)

/-- What was counted, over the selected counters, between the first and the last export in
the window. -/
def events : Nat :=
  ((d.selected cfg engine traces q).map fun c => eventsBetween (c.counts q)).sum

def selectedDeltas : List Counter :=
  (d.selected cfg engine traces q).filter fun c => c.temporality ≠ .cumulative

variable {cfg engine traces q}

theorem filter_table :
    (d.table.filter (q.metricCheckPredicates cfg engine traces name)).Perm
      ((d.selected cfg engine traces q).flatMap fun c => (c.inWindow q).map (c.row name)) := by
  have hothers : (d.others.flatMap ResourceMetrics.rows).filter
      (q.metricCheckPredicates cfg engine traces name) = [] := by
    rw [List.filter_eq_nil_iff]
    intro r hr hread
    obtain ⟨rm, hrm, hrow⟩ := List.mem_flatMap.1 hr
    obtain ⟨scope, hscope, m, hm, hname⟩ := rm.metricName_of_mem hrow
    refine d.named rm hrm scope hscope m hm (hname ▸ ?_)
    simp only [MetricCheck.metricCheckPredicates, Bool.and_eq_true, decide_eq_true_eq] at hread
    exact hread.1.1
  have hcounters (cs : List Counter) :
      (cs.flatMap fun c => c.readings.map (c.row name)).filter
          (q.metricCheckPredicates cfg engine traces name) =
        (cs.filter fun c => q.inScope cfg engine traces (c.point name)).flatMap fun c =>
          (c.inWindow q).map (c.row name) := by
    induction cs with
    | nil => rfl
    | cons c cs ih =>
      have hpredicate : (q.metricCheckPredicates cfg engine traces name) ∘ c.row name =
          fun r => q.inWindow r.time && q.inScope cfg engine traces (c.point name) := by
        funext r
        simp [MetricCheck.metricCheckPredicates, Counter.row, metricPoint, Counter.point]
      rw [List.flatMap_cons, List.filter_append, ih, List.filter_map, hpredicate]
      cases hscope : q.inScope cfg engine traces (c.point name) with
      | false =>
        rw [List.filter_cons_of_neg (by simp [hscope])]
        simp
      | true =>
        rw [List.filter_cons_of_pos (by simp [hscope]), List.flatMap_cons]
        simp [Counter.inWindow]
  have hperm := d.table_perm.filter (q.metricCheckPredicates cfg engine traces name)
  rwa [List.filter_append, hothers, List.append_nil, hcounters] at hperm

theorem increase_eq :
    (metricAggregate cfg engine traces reduce d.table name "increase" q).1 =
      d.events cfg engine traces q +
        (((d.selectedDeltas cfg engine traces q).map fun c =>
          overcount (c.counts q)).sum : Int) := by
  have hnodup : ((d.selected cfg engine traces q).map Counter.series).Nodup :=
    d.apart.sublist (List.filter_sublist.map _)
  have hseries : ∀ c ∈ d.selected cfg engine traces q, ∀ r ∈ (c.inWindow q).map (c.row name),
      series r = c.series := by
    intro c _ r hr
    obtain ⟨reading, -, rfl⟩ := List.mem_map.1 hr
    rfl
  have hempty : rise [] = 0 := by simp [rise_eq_spread]
  have hdeltas (cs : List Counter) :
      (cs.map fun c => c.excess q).sum =
        ((cs.filter fun c => c.temporality ≠ .cumulative).map
          fun c => overcount (c.counts q)).sum := by
    induction cs with
    | nil => rfl
    | cons c cs ih =>
      rw [List.map_cons, List.sum_cons, ih, Counter.excess]
      by_cases hcumulative : c.temporality = .cumulative <;> simp [hcumulative]
  have hsum (cs : List Counter) :
      (cs.map fun c => (eventsBetween (c.counts q) + c.excess q : ℚ)).sum =
        ((cs.map fun c => eventsBetween (c.counts q)).sum : Nat) +
          ((cs.map fun c => c.excess q).sum : Int) := by
    induction cs with
    | nil => simp
    | cons c cs ih =>
      simp only [List.map_cons, List.sum_cons, ih]
      push_cast
      ring
  calc (metricAggregate cfg engine traces reduce d.table name "increase" q).1
      = sumBy series rise (d.table.filter (q.metricCheckPredicates cfg engine traces name)) :=
        metricAggregate_increase d.table name q
    _ = sumBy series rise ((d.selected cfg engine traces q).flatMap fun c =>
          (c.inWindow q).map (c.row name)) := sumBy_perm hempty rise_perm d.filter_table
    _ = ((d.selected cfg engine traces q).map fun c =>
          rise ((c.inWindow q).map (c.row name))).sum := sumBy_flatMap hempty hseries hnodup
    _ = _ := by
        simp only [Counter.rise_inWindow]
        rw [hsum, hdeltas]
        rfl

end Read

end Ingested

/-! ## When the increase is what was counted -/

/-- The highest of a delta series' counts, less the lowest, is what came after the first: there
is no more than one export, or the first counts as much as all the others and the least of them
together, or all that came after the first came in one export and some export counted nothing. -/
def Tells : List Nat → Prop
  | [] => True
  | first :: rest =>
    rest = [] ∨ (∃ least ∈ rest, (∀ n ∈ rest, least ≤ n) ∧ first = rest.sum + least) ∨
      (0 ∈ first :: rest ∧ rest.sum ∈ rest ∧ first ≤ rest.sum)

theorem overcount_eq_zero_iff (counts : List Nat) : overcount counts = 0 ↔ Tells counts := by
  cases counts with
  | nil => exact iff_of_true rfl trivial
  | cons first rest =>
    have hle : ∀ n ∈ rest, n ≤ rest.sum := fun n hn => List.le_sum_of_mem hn
    constructor
    · intro hzero
      obtain ⟨lo, hlo, hi, hhi, hall⟩ := exists_bounds (List.cons_ne_nil first rest)
      rw [overcount_eq hlo hhi hall, eventsBetween, List.tail_cons] at hzero
      have hfirst := hall first List.mem_cons_self
      by_cases hnil : rest = []
      · exact .inl hnil
      obtain ⟨least, hleast, _, -, hbounds⟩ := exists_bounds hnil
      have hmin := hall least (List.mem_cons_of_mem first hleast)
      cases List.mem_cons.1 hhi with
      | inl hhigh =>
        -- The first export is the highest.
        refine .inr (.inl ⟨least, hleast, fun n hn => (hbounds n hn).1, ?_⟩)
        cases List.mem_cons.1 hlo with
        | inl hlow => omega
        | inr hlow =>
          have := (hbounds lo hlow).1
          omega
      | inr hhigh =>
        have := hle hi hhigh
        have hlow : lo = 0 := by omega
        have hsum : rest.sum = hi := by omega
        exact .inr (.inr ⟨hlow ▸ hlo, hsum ▸ hhigh, by omega⟩)
    · rintro (rfl | ⟨least, hleast, hbottom, hfirst⟩ | ⟨hnone, hsum, hfirst⟩)
      · simp [overcount, eventsBetween]
      · have hall : ∀ n ∈ first :: rest, least ≤ n ∧ n ≤ first := by
          refine List.forall_mem_cons.2 ⟨by omega, fun n hn => ?_⟩
          have := hle n hn
          have := hbottom n hn
          omega
        rw [overcount_eq (List.mem_cons_of_mem first hleast) List.mem_cons_self hall,
          eventsBetween, List.tail_cons]
        omega
      · have hall : ∀ n ∈ first :: rest, 0 ≤ n ∧ n ≤ rest.sum :=
          List.forall_mem_cons.2 ⟨by omega, fun n hn => ⟨n.zero_le, hle n hn⟩⟩
        rw [overcount_eq hnone (List.mem_cons_of_mem first hsum) hall, eventsBetween,
          List.tail_cons]
        omega

/-- The increase is what was counted between the first and the last export in the window
exactly when the delta series it reads are off by nothing in total; one delta series is off by
nothing exactly when its counts tell. -/
theorem increase_eq_iff {F : Type} (cfg : EnvironmentConfig) (engine : Engine F)
    (traces : List Span) (reduce : String → List MetricRow → ℚ) {name : String}
    (d : Ingested name) (q : MetricCheck) :
    ((metricAggregate cfg engine traces reduce d.table name "increase" q).1 =
        d.events cfg engine traces q ↔
      ((d.selectedDeltas cfg engine traces q).map fun c => overcount (c.counts q)).sum = 0) ∧
    ∀ c ∈ d.selectedDeltas cfg engine traces q,
      overcount (c.counts q) = 0 ↔ Tells (c.counts q) := by
  refine ⟨?_, fun c _ => overcount_eq_zero_iff (c.counts q)⟩
  rw [d.increase_eq reduce, add_eq_left, Int.cast_eq_zero]

/-! ### One order a minute, as a delta -/

private def orders : Counter where
  resource := [⟨"service.name", "billing"⟩]
  attributes := []
  unit := "1"
  started := 0
  before := 0
  samples := [⟨60, 1⟩, ⟨120, 1⟩, ⟨180, 1⟩]
  temporality := .delta
  asDouble := false
  inOrder := by decide
  stated := by decide

private def ordersIngested : Ingested "orders.processed" where
  counters := [orders]
  apart := List.nodup_singleton _
  others := []
  named := fun _ hrm => nomatch hrm
  batches := [orders.readings.map (orders.request "orders.processed")]
  arrived := by decide

private def threeMinutes : MetricCheck where
  attrs := []
  start := 0
  stop := 200
  serviceIn := []
  groups := []

/-- Two orders were counted between the exports, and the increase is none. -/
theorem delta_counter_unread :
    ¬ ∀ (F : Type) (cfg : EnvironmentConfig) (engine : Engine F) (traces : List Span)
      (reduce : String → List MetricRow → ℚ) (name : String) (d : Ingested name)
      (q : MetricCheck),
      (metricAggregate cfg engine traces reduce d.table name "increase" q).1 =
        d.events cfg engine traces q := by
  intro h
  let engine : Engine Nat := ⟨fun _ _ => false, fun _ => none, fun _ => none, fun _ _ _ => false⟩
  have hread := h Nat ⟨"", []⟩ engine [] (fun _ _ => 0) "orders.processed" ordersIngested
    threeMinutes
  rw [Ingested.increase_eq] at hread
  revert hread
  decide +kernel

end Sluicio.Store
