import Sluicio.Alerting.Evaluate
import Sluicio.Store.MetricGroups

/-!
# Checks that are split by an attribute

`evaluateSplitRule` compares the value of each group with the threshold, and the groups are
those `MetricAggregateGrouped` returns: the highest values, and no more than its cap.  For a
rule that fires above its threshold those are the groups that breach it first, for any other
rule they need not be.
-/

namespace Sluicio.Alerting

open Sluicio.Store
open Lib
open Ingest (MetricRow)

variable {F : Type} (cfg : EnvironmentConfig) (engine : Engine F) (traces : List Store.Span)
  (reduce : String → List MetricRow → ℚ)

/-- A rule's groups are read from the store. -/
def Telemetry.splitBy (tel : Telemetry) (table : List MetricRow)
    (metricName aggregation : String) (q : MetricCheck) (spec : MetricRuleSpec) : Telemetry :=
  let groups := Store.metricAggregateGrouped cfg engine traces reduce table metricName
    aggregation spec.splitBy q
  { tel with metricAggregateGrouped := fun _ _ => some (groups.map fun g => (g.value, g.samples)) }

def splitValues (table : List MetricRow) (metricName aggregation : String) (q : MetricCheck)
    (spec : MetricRuleSpec) : List MetricGroupAggregate :=
  (allGroups cfg engine traces reduce table metricName aggregation spec.splitBy q).map
    (perSecond aggregation q)

/-- The value breaches the threshold. -/
def MetricRuleSpec.breaches (spec : MetricRuleSpec) (g : MetricGroupAggregate) : Bool :=
  evaluateBreach spec.operator g.value spec.threshold

/-- A group that breaches has fewer than `metricGroupCap` groups above it. -/
def SomeBreachInCap (spec : MetricRuleSpec) (groups : List MetricGroupAggregate) : Prop :=
  ∃ g ∈ groups, spec.breaches g ∧ (groups.filter fun h => g.value < h.value).length < metricGroupCap

section Split

variable {cfg engine traces reduce} {tel : Telemetry} {table : List MetricRow}
  {metricName aggregation : String} {q : MetricCheck} {spec : MetricRuleSpec}
  {groups : List MetricGroupAggregate}

theorem samples_pos {g : MetricGroupAggregate}
    (h : g ∈ splitValues cfg engine traces reduce table metricName aggregation q spec) :
    0 < g.samples := by
  obtain ⟨g', hg', rfl⟩ := List.mem_map.1 h
  rw [perSecond_samples]
  exact of_decide_eq_true (List.mem_filter.1 hg').2

theorem metricAggregateGrouped_eq :
    metricAggregateGrouped cfg engine traces reduce table metricName aggregation spec.splitBy q =
      (orderBy (fun g : MetricGroupAggregate => OrderDual.toDual g.value)
        (splitValues cfg engine traces reduce table metricName aggregation q spec)).take
          metricGroupCap := by
  unfold metricAggregateGrouped splitValues
  rw [List.map_take, map_orderBy_of_le_iff]
  intro g h
  rw [perSecond_value, perSecond_value, OrderDual.toDual_le_toDual, OrderDual.toDual_le_toDual,
    ← not_lt, ← not_lt, perSecondValue_lt_iff]

theorem returned_breach_iff :
    (∃ g ∈ metricAggregateGrouped cfg engine traces reduce table metricName aggregation
        spec.splitBy q, spec.breaches g) ↔
      SomeBreachInCap spec
        (splitValues cfg engine traces reduce table metricName aggregation q spec) := by
  rw [metricAggregateGrouped_eq]
  exact exists_mem_take_orderBy (P := fun v : ℚᵒᵈ =>
    evaluateBreach spec.operator (OrderDual.ofDual v) spec.threshold)

/-- `evaluateSplitRule` reports a breach when one is in the cap, where any value breaches. -/
theorem reports_iff {env : Option String} {latest : Option Rat} {rule : AlertRule}
    (hbreach : ∃ g ∈ splitValues cfg engine traces reduce table metricName aggregation q spec,
      spec.breaches g) :
    (∃ v, evaluateSplitRule
        (tel.splitBy cfg engine traces reduce table metricName aggregation q spec) env latest rule
        spec = some v ∧ v.breached) ↔
      SomeBreachInCap spec
        (splitValues cfg engine traces reduce table metricName aggregation q spec) := by
  rw [← returned_breach_iff]
  let returned := metricAggregateGrouped cfg engine traces reduce table metricName aggregation
    spec.splitBy q
  have hreturned : ∀ g ∈ returned, 0 < g.samples := by
    intro g hg
    simp only [returned, metricAggregateGrouped_eq] at hg
    exact samples_pos (mem_orderBy.1 (List.mem_of_mem_take hg))
  -- some group is returned, and it has samples
  have hdata : ((returned.map fun g => (g.value, g.samples)).map Prod.snd).sum ≠ 0 := by
    have hsome : returned ≠ [] := by
      obtain ⟨g, hg, -⟩ := hbreach
      have hpos : 0 < metricGroupCap := by decide
      simp only [returned, metricAggregateGrouped_eq]
      rw [Ne, List.take_eq_nil_iff, not_or]
      exact ⟨hpos.ne', List.ne_nil_of_mem (mem_orderBy.2 hg)⟩
    obtain ⟨g, hg⟩ := List.exists_mem_of_ne_nil _ hsome
    have hle : g.samples ≤ ((returned.map fun g => (g.value, g.samples)).map Prod.snd).sum := by
      apply List.le_sum_of_mem
      rw [List.map_map]
      exact List.mem_map_of_mem hg
    have hpos := hreturned g hg
    omega
  have hverdict : evaluateSplitRule
      (tel.splitBy cfg engine traces reduce table metricName aggregation q spec) env latest rule
      spec = some {
        reading := if rule.displayOnService then
          worstGroup (returned.map fun g => (g.value, g.samples)) else none
        breached := ((returned.map fun g => (g.value, g.samples)).any fun g =>
          g.2 > 0 && evaluateBreach spec.operator g.1 spec.threshold) || (decide
            (((returned.map fun g => (g.value, g.samples)).map Prod.snd).sum = 0) &&
              spec.fireOnNoData && latest.isSome)
        confirm := .refresh } := rfl
  rw [hverdict]
  simp only [Option.some.injEq, exists_eq_left', hdata, decide_false, Bool.false_and,
    Bool.or_false, List.any_map, List.any_eq_true, Function.comp_apply, Bool.and_eq_true,
    decide_eq_true_eq]
  constructor
  · intro h
    obtain ⟨g, hg, -, hbreaches⟩ := h
    exact ⟨g, hg, hbreaches⟩
  · intro h
    obtain ⟨g, hg, hbreaches⟩ := h
    exact ⟨g, hg, hreturned g hg, hbreaches⟩

/-- **When a split check misses no breach.**  It reports a breach whenever some value's
aggregate breaches the threshold exactly when none does, or one that does has fewer values
above it than the cap. -/
theorem evaluateSplitRule_reports_iff (tel : Telemetry) (env : Option String)
    (latest : Option Rat) (rule : AlertRule) (table : List MetricRow)
    (metricName aggregation : String) (q : MetricCheck) (spec : MetricRuleSpec) :
    ((∃ g ∈ splitValues cfg engine traces reduce table metricName aggregation q spec,
        spec.breaches g) →
      ∃ v, evaluateSplitRule
        (tel.splitBy cfg engine traces reduce table metricName aggregation q spec) env latest rule
        spec = some v ∧ v.breached) ↔
      (∀ g ∈ splitValues cfg engine traces reduce table metricName aggregation q spec,
        spec.breaches g = false) ∨
      SomeBreachInCap spec
        (splitValues cfg engine traces reduce table metricName aggregation q spec) := by
  by_cases hbreach : ∃ g ∈ splitValues cfg engine traces reduce table metricName aggregation q
    spec, spec.breaches g
  · have hsome : ¬ ∀ g ∈ splitValues cfg engine traces reduce table metricName aggregation q
        spec, spec.breaches g = false := by
      intro hnone
      obtain ⟨g, hg, hbreaches⟩ := hbreach
      rw [hnone g hg] at hbreaches
      cases hbreaches
    rw [reports_iff hbreach]
    simp only [hbreach, true_imp_iff, hsome, false_or]
  · have hnone : ∀ g ∈ splitValues cfg engine traces reduce table metricName aggregation q spec,
        spec.breaches g = false := by
      intro g hg
      rw [← Bool.not_eq_true]
      exact fun hbreaches => hbreach ⟨g, hg, hbreaches⟩
    exact ⟨fun _ => .inl hnone, fun _ h => absurd h hbreach⟩

/-! ## The direction of the comparison -/

/-- A rule that fires below it has them last: they are in the cap when fewer values than the
cap do not breach. -/
theorem someBreachInCap_iff_of_below (hbelow : spec.operator = .lt ∨ spec.operator = .lte)
    (hbreach : ∃ g ∈ groups, spec.breaches g) :
    SomeBreachInCap spec groups ↔
      (groups.filter fun g => !spec.breaches g).length < metricGroupCap := by
  have hdown {g h : MetricGroupAggregate} (hle : g.value ≤ h.value) (hh : spec.breaches h) :
      spec.breaches g := by
    unfold MetricRuleSpec.breaches evaluateBreach at hh ⊢
    cases hbelow with
    | inl hop =>
      simp only [hop, decide_eq_true_eq] at hh ⊢
      exact hle.trans_lt hh
    | inr hop =>
      simp only [hop, decide_eq_true_eq] at hh ⊢
      exact hle.trans hh
  constructor
  · intro h
    obtain ⟨g, -, hbreaches, hcount⟩ := h
    apply lt_of_le_of_lt _ hcount
    rw [← List.countP_eq_length_filter, ← List.countP_eq_length_filter]
    apply List.countP_mono_left
    intro h _ hh
    rw [decide_eq_true_eq]
    by_contra hnot
    rw [hdown (not_lt.1 hnot) hbreaches] at hh
    cases hh
  · intro h
    -- the highest of the values that breach
    have hne : (groups.filter fun g => spec.breaches g).map MetricGroupAggregate.value ≠ [] := by
      obtain ⟨g, hg, hbreaches⟩ := hbreach
      exact List.ne_nil_of_mem (List.mem_map_of_mem (List.mem_filter.2 ⟨hg, hbreaches⟩))
    obtain ⟨_, _, hi, hhi, hall⟩ := exists_bounds hne
    obtain ⟨top, htop, rfl⟩ := List.mem_map.1 hhi
    refine ⟨top, (List.mem_filter.1 htop).1, (List.mem_filter.1 htop).2, ?_⟩
    apply lt_of_le_of_lt _ h
    rw [← List.countP_eq_length_filter, ← List.countP_eq_length_filter]
    apply List.countP_mono_left
    intro g hg habove
    rw [Bool.not_eq_true', ← Bool.not_eq_true]
    intro hbreaches
    have hle := (hall _ (List.mem_map_of_mem (List.mem_filter.2 ⟨hg, hbreaches⟩))).2
    exact absurd (of_decide_eq_true habove) (not_lt.2 hle)

end Split

/-! ### An idle queue -/

theorem splitGroups_of_nodup {reduce : String → List MetricRow → ℚ} {aggregation splitKey : String}
    {rows : List MetricRow} (hcounter : ¬ (aggregation = "increase" ∨ aggregation = "rate"))
    (hnodup : (rows.map (splitLabel splitKey)).Nodup) :
    splitGroups reduce aggregation splitKey rows = rows.map fun r =>
      { label := splitLabel splitKey r, value := reduce (metricAggExpr aggregation) [r],
        samples := 1 } := by
  rw [splitGroups, if_neg hcounter, hnodup.dedup, List.map_map]
  apply List.map_congr_left
  intro r hr
  have hone : (rows.filter fun s => splitLabel splitKey s = splitLabel splitKey r) = [r] := by
    have hpart : ((rows.flatMap fun s => [s]).filter fun s =>
        splitLabel splitKey s = splitLabel splitKey r) = [r] :=
      filter_flatMap_key (fun s _ t ht => by rw [List.mem_singleton.1 ht]) hnodup hr
    rwa [List.flatMap_singleton'] at hpart
  show MetricGroupAggregate.mk _ _ _ = _
  rw [hone]
  rfl

private def brokerCfg : EnvironmentConfig := ⟨"", []⟩

private def brokerDb : Engine Nat :=
  ⟨fun _ _ => false, fun _ => none, fun _ => none, fun _ _ _ => false⟩

private def total (_ : String) (rows : List MetricRow) : ℚ := (rows.map MetricRow.value).sum

private def queueName (i : Nat) : String := String.ofList (List.replicate (i + 1) 'q')

private def depth (i : Nat) : MetricRow where
  timestamp := 5
  startTimestamp := 0
  metricName := "queue.depth"
  metricType := "gauge"
  serviceName := "broker"
  serviceNamespace := ""
  value := if i = 0 then 0 else 10
  count := 0
  isMonotonic := false
  unit := ""
  resourceAttributes := []
  metricAttributes := [("queue", queueName i)]

private def splitWindow : MetricCheck :=
  { attrs := [], start := 1, stop := 9, serviceIn := [], groups := [] }

private def idleSpec : MetricRuleSpec :=
  { operator := .lt, threshold := 1, fireOnNoData := false, splitBy := "queue" }

private def idleRule : AlertRule := { id := 1, spec := .metric idleSpec }

private def depths : List MetricRow := (List.range 501).map depth

private def depthGroup (i : Nat) : MetricGroupAggregate :=
  { label := queueName i, value := if i = 0 then 0 else 10, samples := 1 }

private theorem splitValues_depths :
    splitValues brokerCfg brokerDb [] total depths "queue.depth" "sum" splitWindow idleSpec =
      (List.range 501).map depthGroup := by
  have hrows : checkRows brokerCfg brokerDb [] depths "queue.depth" splitWindow = depths := by
    apply List.filter_eq_self.2
    intro r hr
    obtain ⟨i, -, rfl⟩ := List.mem_map.1 hr
    rfl
  have hnodup : (depths.map (splitLabel "queue")).Nodup := by
    rw [depths, List.map_map]
    apply List.Nodup.map _ List.nodup_range
    intro i j hij
    have hlist : List.replicate (i + 1) 'q' = List.replicate (j + 1) 'q' :=
      String.ofList_injective hij
    have hlength := congrArg List.length hlist
    rw [List.length_replicate, List.length_replicate] at hlength
    omega
  have hgroups : splitGroups total "sum" "queue" depths = (List.range 501).map depthGroup := by
    rw [splitGroups_of_nodup (by decide) hnodup, depths, List.map_map]
    apply List.map_congr_left
    intro i _
    show MetricGroupAggregate.mk _ (total _ [depth i]) 1 = _
    rw [total, List.map_singleton, List.sum_singleton]
    rfl
  have hall : ((List.range 501).map depthGroup).filter (fun g => 0 < g.samples) =
      (List.range 501).map depthGroup := by
    apply List.filter_eq_self.2
    intro g hg
    obtain ⟨i, -, rfl⟩ := List.mem_map.1 hg
    rfl
  unfold splitValues allGroups
  rw [hrows]
  show ((splitGroups total "sum" "queue" depths).filter _).map _ = _
  rw [hgroups, hall, List.map_map]
  rfl

/-- Of five hundred busy queues and an idle one, the rule that fires on an idle queue is
asked about the busy ones alone. -/
theorem idle_queue_missed :
    (∃ g ∈ splitValues brokerCfg brokerDb [] total depths "queue.depth" "sum" splitWindow
        idleSpec, idleSpec.breaches g) ∧
      ¬ ∃ v, evaluateSplitRule ((Telemetry.metricOnly 0).splitBy brokerCfg brokerDb []
        total depths "queue.depth" "sum" splitWindow idleSpec) none none idleRule idleSpec =
          some v ∧ v.breached := by
  have hbreach : ∃ g ∈ splitValues brokerCfg brokerDb [] total depths "queue.depth" "sum"
      splitWindow idleSpec, idleSpec.breaches g := by
    rw [splitValues_depths]
    exact ⟨depthGroup 0, List.mem_map_of_mem (List.mem_range.2 (by decide)), by decide⟩
  refine ⟨hbreach, ?_⟩
  rw [reports_iff hbreach, someBreachInCap_iff_of_below (.inl rfl) hbreach, splitValues_depths]
  decide +kernel

end Sluicio.Alerting
