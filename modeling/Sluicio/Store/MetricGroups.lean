import Mathlib.Algebra.BigOperators.Ring.List
import Mathlib.Tactic.NormNum
import Sluicio.Store.MetricAggregate

/-!
# The value of a metric check, split

`MetricAggregateGrouped` reduces the points of a metric in a window to one number for each
value of an attribute, as `MetricAggregate` does for all of them.  The highest values come
first, and there are at most `metricGroupCap` of them.

An attribute that splits the points splits the series: the attribute's value is read off the
maps that tell one series from another.
-/

namespace Sluicio.Store

open Lib
open Ingest (MetricRow)

structure MetricGroupAggregate where
  label : String
  value : ℚ
  samples : Nat

def metricGroupCap : Nat := 500

/-- `attrEffectiveExprIn("MetricAttributes", splitKey)`. -/
def splitLabel (splitKey : String) (r : MetricRow) : String :=
  (Expr.attr .metricAttributes splitKey).eval (.metric (metricPoint r))

/-- What a counter's query groups by first. -/
structure LabelledSeries where
  label : String
  series : String × String × AttrMap × AttrMap
  deriving DecidableEq

def labelledSeries (splitKey : String) (r : MetricRow) : LabelledSeries :=
  { label := splitLabel splitKey r, series := series r }

section Groups

variable {F : Type} (cfg : EnvironmentConfig) (engine : Engine F) (traces : List Span)
  (reduce : String → List MetricRow → ℚ)

/-- The inner rows of a counter's query: the label, the rise and the number of rows of each
label and series. -/
def seriesRises (splitKey : String) (rows : List MetricRow) : List (String × ℚ × Nat) :=
  (rows.map (labelledSeries splitKey)).dedup.map fun k =>
    let group := rows.filter fun r => labelledSeries splitKey r = k
    (k.label, rise group, group.length)

/-- The groups, before they are ordered. -/
def splitGroups (aggregation splitKey : String) (rows : List MetricRow) :
    List MetricGroupAggregate :=
  if aggregation = "increase" ∨ aggregation = "rate" then
    let inner := seriesRises splitKey rows
    (inner.map Prod.fst).dedup.map fun label =>
      let group := inner.filter fun d => d.1 = label
      { label, value := (group.map fun d => d.2.1).sum, samples := (group.map fun d => d.2.2).sum }
  else
    (rows.map (splitLabel splitKey)).dedup.map fun label =>
      let group := rows.filter fun r => splitLabel splitKey r = label
      { label, value := reduce (metricAggExpr aggregation) group, samples := group.length }

def perSecond (aggregation : String) (q : MetricCheck) (g : MetricGroupAggregate) :
    MetricGroupAggregate :=
  if aggregation = "rate" ∧ q.start < q.stop then
    { g with value := g.value / ((q.stop - q.start : Int) / 1000000000) }
  else g

def checkRows (table : List MetricRow) (metricName : String) (q : MetricCheck) :
    List MetricRow :=
  table.filter (q.metricCheckPredicates cfg engine traces metricName)

def allGroups (table : List MetricRow) (metricName aggregation splitKey : String)
    (q : MetricCheck) : List MetricGroupAggregate :=
  (splitGroups reduce aggregation splitKey
    (checkRows cfg engine traces table metricName q)).filter fun g => 0 < g.samples

def metricAggregateGrouped (table : List MetricRow) (metricName aggregation splitKey : String)
    (q : MetricCheck) : List MetricGroupAggregate :=
  ((orderBy (fun g : MetricGroupAggregate => OrderDual.toDual g.value)
    (allGroups cfg engine traces reduce table metricName aggregation splitKey q)).take
      metricGroupCap).map (perSecond aggregation q)

variable {cfg engine traces reduce}

@[simp] theorem perSecond_samples (aggregation : String) (q : MetricCheck)
    (g : MetricGroupAggregate) : (perSecond aggregation q g).samples = g.samples := by
  unfold perSecond
  split <;> rfl

@[simp] theorem perSecond_label (aggregation : String) (q : MetricCheck)
    (g : MetricGroupAggregate) : (perSecond aggregation q g).label = g.label := by
  unfold perSecond
  split <;> rfl

/-- The value a group is compared by. -/
def perSecondValue (aggregation : String) (q : MetricCheck) (v : ℚ) : ℚ :=
  if aggregation = "rate" ∧ q.start < q.stop then
    v / ((q.stop - q.start : Int) / 1000000000)
  else v

theorem perSecond_value (aggregation : String) (q : MetricCheck) (g : MetricGroupAggregate) :
    (perSecond aggregation q g).value = perSecondValue aggregation q g.value := by
  unfold perSecond perSecondValue
  split <;> rfl

variable {q : MetricCheck} {aggregation : String}

theorem seconds_pos (h : q.start < q.stop) : (0 : ℚ) < ((q.stop - q.start : Int) / 1000000000) := by
  have hpos : (0 : ℚ) < ((q.stop - q.start : Int) : ℚ) := by
    exact_mod_cast sub_pos.2 h
  exact div_pos hpos (by norm_num)

theorem perSecondValue_lt_iff (aggregation : String) (q : MetricCheck) (v w : ℚ) :
    perSecondValue aggregation q v < perSecondValue aggregation q w ↔ v < w := by
  unfold perSecondValue
  split
  · rename_i h
    exact div_lt_div_iff_of_pos_right (seconds_pos h.2)
  · rfl

/-! ## A counter's groups -/

theorem lookup_orderedInsert (key : String) (a : String × String) (m : AttrMap) :
    (m.orderedInsert (fun a b => a.1 ≤ b.1) a).lookup key = (a :: m).lookup key := by
  induction m with
  | nil => rfl
  | cons b m ih =>
    rw [List.orderedInsert_cons]
    split
    · rfl
    rename_i hlt
    -- the two have different keys
    have hne : a.1 ≠ b.1 := fun heq => hlt heq.le
    rw [List.lookup_cons, ih, List.lookup_cons, List.lookup_cons, List.lookup_cons]
    by_cases hb : key = b.1
    · have ha : key ≠ a.1 := fun heq => hne (heq.symm.trans hb)
      simp [hb, beq_eq_false_iff_ne.2 (hb ▸ ha)]
    · simp [beq_eq_false_iff_ne.2 hb]

theorem lookup_mapSort (m : AttrMap) (key : String) : (mapSort m).lookup key = m.lookup key := by
  induction m with
  | nil => rfl
  | cons a m ih =>
    show ((mapSort m).orderedInsert (fun a b => a.1 ≤ b.1) a).lookup key = _
    rw [lookup_orderedInsert, List.lookup_cons, List.lookup_cons, ih]

theorem splitLabel_of_series_eq {r s : MetricRow} (h : series r = series s) (splitKey : String) :
    splitLabel splitKey r = splitLabel splitKey s := by
  have hmetric : mapSort r.metricAttributes = mapSort s.metricAttributes :=
    congrArg (fun k => k.2.2.1) h
  have hresource : mapSort r.resourceAttributes = mapSort s.resourceAttributes :=
    congrArg (fun k => k.2.2.2) h
  have hown : r.metricAttributes.lookup splitKey = s.metricAttributes.lookup splitKey := by
    rw [← lookup_mapSort, hmetric, lookup_mapSort]
  have hshared : r.resourceAttributes.lookup splitKey = s.resourceAttributes.lookup splitKey := by
    rw [← lookup_mapSort, hresource, lookup_mapSort]
  have hvalue (r : MetricRow) : splitLabel splitKey r =
      if (r.metricAttributes.lookup splitKey).isSome then
        (r.metricAttributes.lookup splitKey).getD ""
      else (r.resourceAttributes.lookup splitKey).getD "" := rfl
  rw [hvalue, hvalue, hown, hshared]

theorem labelledSeries_eq_iff (splitKey : String) (r s : MetricRow) :
    labelledSeries splitKey r = labelledSeries splitKey s ↔ series r = series s := by
  constructor
  · intro h
    exact congrArg LabelledSeries.series h
  · intro h
    rw [labelledSeries, labelledSeries, splitLabel_of_series_eq h, h]

theorem rise_nil : rise [] = 0 := by
  rw [rise_eq_spread, List.map_nil, spread_nil]

theorem sumBy_labelledSeries (splitKey : String) (rows : List MetricRow) :
    sumBy (labelledSeries splitKey) rise rows = sumBy series rise rows :=
  sumBy_congr_key rise_nil fun r _ s _ => labelledSeries_eq_iff splitKey r s

theorem sum_seriesRises (splitKey : String) (rows : List MetricRow) :
    ((seriesRises splitKey rows).map fun d => d.2.1).sum = sumBy series rise rows := by
  rw [← sumBy_labelledSeries splitKey, seriesRises, List.map_map]
  simp only [sumBy, groupBy, List.map_map]
  rfl

theorem sum_seriesRises_label (splitKey label : String) (rows : List MetricRow) :
    (((seriesRises splitKey rows).filter fun d => d.1 = label).map fun d => d.2.1).sum =
      sumBy series rise (rows.filter fun r => splitLabel splitKey r = label) := by
  let keys := ((rows.map (labelledSeries splitKey)).dedup).filter fun k => k.label = label
  have hnodup : keys.Nodup := (List.nodup_dedup _).filter _
  have hall : ∀ r ∈ rows.filter fun r => splitLabel splitKey r = label,
      labelledSeries splitKey r ∈ keys := by
    intro r hr
    rw [List.mem_filter] at hr
    exact List.mem_filter.2 ⟨List.mem_dedup.2 (List.mem_map_of_mem hr.1), hr.2⟩
  rw [← sumBy_labelledSeries splitKey, sumBy_eq_of_keys rise_nil hnodup hall, seriesRises,
    List.filter_map, List.map_map]
  apply congrArg List.sum
  apply List.map_congr_left
  intro k hk
  have hlabel : k.label = label := of_decide_eq_true (List.mem_filter.1 hk).2
  show rise _ = rise _
  rw [List.filter_filter]
  congr 1
  apply List.filter_congr
  intro r _
  rw [eq_comm, Bool.and_eq_left_iff_imp, decide_eq_true_iff, decide_eq_true_iff]
  intro h
  rw [← hlabel, ← h]
  rfl

section Counter

variable {aggregation splitKey : String} {rows : List MetricRow}

theorem mem_splitGroups_counter (h : aggregation = "increase" ∨ aggregation = "rate")
    {g : MetricGroupAggregate} (hg : g ∈ splitGroups reduce aggregation splitKey rows) :
    g.value = sumBy series rise (rows.filter fun r => splitLabel splitKey r = g.label) ∧
      0 < g.samples := by
  rw [splitGroups, if_pos h] at hg
  obtain ⟨label, hlabel, rfl⟩ := List.mem_map.1 hg
  refine ⟨sum_seriesRises_label splitKey label rows, ?_⟩
  obtain ⟨d, hd, hlabel⟩ := List.mem_map.1 (List.mem_dedup.1 hlabel)
  have hle : d.2.2 ≤
      (((seriesRises splitKey rows).filter fun d => d.1 = label).map fun d => d.2.2).sum :=
    List.le_sum_of_mem (List.mem_map_of_mem (List.mem_filter.2 ⟨hd, decide_eq_true hlabel⟩))
  obtain ⟨k, hk, rfl⟩ := List.mem_map.1 hd
  obtain ⟨r, hr, hkey⟩ := List.mem_map.1 (List.mem_dedup.1 hk)
  have hpos : 0 < (rows.filter fun r => labelledSeries splitKey r = k).length :=
    List.length_pos_of_mem (List.mem_filter.2 ⟨hr, decide_eq_true hkey⟩)
  exact hpos.trans_le hle

theorem sum_splitGroups_counter (h : aggregation = "increase" ∨ aggregation = "rate") :
    ((splitGroups reduce aggregation splitKey rows).map MetricGroupAggregate.value).sum =
      sumBy series rise rows := by
  have hshare : ((splitGroups reduce aggregation splitKey rows).map
      MetricGroupAggregate.value).sum =
        sumBy Prod.fst (fun g => (g.map fun d : String × ℚ × Nat => d.2.1).sum)
          (seriesRises splitKey rows) := by
    rw [splitGroups, if_pos h, List.map_map]
    simp only [sumBy, groupBy, List.map_map]
    rfl
  rw [hshare, sumBy_sum_map, sum_seriesRises]

end Counter

theorem metricAggregate_counter (h : aggregation = "increase" ∨ aggregation = "rate")
    (table : List MetricRow) (metricName : String) (q : MetricCheck) :
    (metricAggregate cfg engine traces reduce table metricName aggregation q).1 =
      perSecondValue aggregation q
        (sumBy series rise (checkRows cfg engine traces table metricName q)) := by
  unfold metricAggregate perSecondValue checkRows
  simp only [h, if_true]
  split
  next hzero =>
    rw [sumBy_rise_of_no_rows hzero]
    split <;> simp
  next hsome => split <;> rfl

theorem sum_perSecondValue (aggregation : String) (q : MetricCheck) (vs : List ℚ) :
    (vs.map (perSecondValue aggregation q)).sum = perSecondValue aggregation q vs.sum := by
  unfold perSecondValue
  split
  · simp only [div_eq_mul_inv]
    rw [List.sum_map_mul_right, List.map_id']
  · rw [List.map_id']

theorem sum_metricAggregateGrouped (h : aggregation = "increase" ∨ aggregation = "rate")
    {table : List MetricRow} {metricName splitKey : String}
    (hcap : (allGroups cfg engine traces reduce table metricName aggregation splitKey q).length ≤
      metricGroupCap) :
    ((metricAggregateGrouped cfg engine traces reduce table metricName aggregation splitKey
      q).map MetricGroupAggregate.value).sum =
        (metricAggregate cfg engine traces reduce table metricName aggregation q).1 := by
  have hall : allGroups cfg engine traces reduce table metricName aggregation splitKey q =
      splitGroups reduce aggregation splitKey (checkRows cfg engine traces table metricName q) :=
    List.filter_eq_self.2 fun g hg => decide_eq_true (mem_splitGroups_counter h hg).2
  have hvalue : (MetricGroupAggregate.value ∘ perSecond aggregation q) =
      perSecondValue aggregation q ∘ MetricGroupAggregate.value := by
    funext g
    exact perSecond_value aggregation q g
  have horder := orderBy_perm (fun g : MetricGroupAggregate => OrderDual.toDual g.value)
    (allGroups cfg engine traces reduce table metricName aggregation splitKey q)
  rw [metricAggregateGrouped, List.take_of_length_le (by rwa [horder.length_eq]), List.map_map,
    hvalue, ← List.map_map, sum_perSecondValue, (horder.map _).sum_eq, hall,
    sum_splitGroups_counter h, metricAggregate_counter h]

end Groups

end Sluicio.Store
