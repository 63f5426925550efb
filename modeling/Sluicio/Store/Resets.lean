import Mathlib.Tactic.Linarith
import Mathlib.Tactic.Ring
import Sluicio.Store.MetricGroups

/-!
# The increase of a counter and its resets

A cumulative counter is set back when its process restarts, and counts on from zero.  What it
counted between two readings is the rise, or after a reset all that is read.

The increase a check is given is the highest reading of a series less the lowest, whatever
their order.  `spread_le_counted_iff` says when that is no more than was counted: when the
first reading of the window is above the lowest by no more than what was counted since the
first reset.
-/

namespace Sluicio.Store

open Lib
open Ingest (MetricRow)

/-- What was counted between the readings. -/
def counted : List ℚ → ℚ
  | v :: w :: vs => (if v ≤ w then w - v else w) + counted (w :: vs)
  | _ => 0

def countedSinceReset : List ℚ → ℚ
  | v :: w :: vs => if v ≤ w then countedSinceReset (w :: vs) else w + counted (w :: vs)
  | _ => 0

/-- The last reading before the first reset. -/
def firstPeak : ℚ → List ℚ → ℚ
  | v, w :: vs => if v ≤ w then firstPeak w vs else v
  | v, [] => v

section Readings

variable {v : ℚ} {vs : List ℚ}

theorem counted_nonneg (h : ∀ w ∈ vs, 0 ≤ w) (v : ℚ) : 0 ≤ counted (v :: vs) := by
  induction vs generalizing v with
  | nil => exact le_refl 0
  | cons w vs ih =>
    have hrest := ih (fun x hx => h x (List.mem_cons_of_mem w hx)) w
    have hw := h w List.mem_cons_self
    show 0 ≤ (if v ≤ w then w - v else w) + counted (w :: vs)
    split <;> linarith

theorem le_add_counted (h : ∀ w ∈ vs, 0 ≤ w) (hv : 0 ≤ v) :
    ∀ x ∈ v :: vs, x ≤ v + counted (v :: vs) := by
  induction vs generalizing v with
  | nil =>
    intro x hx
    rw [List.mem_singleton.1 hx]
    exact le_add_of_nonneg_right (le_refl 0)
  | cons w vs ih =>
    have hvs : ∀ x ∈ vs, 0 ≤ x := fun x hx => h x (List.mem_cons_of_mem w hx)
    have hw := h w List.mem_cons_self
    have hcounted : w ≤ v + (if v ≤ w then w - v else w) := by
      split <;> linarith
    intro x hx
    show x ≤ v + ((if v ≤ w then w - v else w) + counted (w :: vs))
    cases List.mem_cons.1 hx with
    | inl hxv =>
      have hnonneg : 0 ≤ counted (v :: w :: vs) := counted_nonneg h v
      rw [hxv]
      exact le_add_of_nonneg_right hnonneg
    | inr hmem =>
      have hle := ih hvs hw x hmem
      linarith

theorem counted_eq (v : ℚ) (vs : List ℚ) :
    counted (v :: vs) = firstPeak v vs - v + countedSinceReset (v :: vs) := by
  induction vs generalizing v with
  | nil => simp [counted, firstPeak, countedSinceReset]
  | cons w vs ih =>
    rw [counted, firstPeak, countedSinceReset]
    split
    · rw [ih w]
      ring
    · ring

theorem firstPeak_mem (v : ℚ) (vs : List ℚ) : firstPeak v vs ∈ v :: vs := by
  induction vs generalizing v with
  | nil => exact List.mem_singleton_self v
  | cons w vs ih =>
    rw [firstPeak]
    split
    · exact List.mem_cons_of_mem v (ih w)
    · exact List.mem_cons_self

theorem le_firstPeak (v : ℚ) (vs : List ℚ) : v ≤ firstPeak v vs := by
  induction vs generalizing v with
  | nil => exact le_refl v
  | cons w vs ih =>
    rw [firstPeak]
    split
    · rename_i hle
      exact hle.trans (ih w)
    · exact le_refl v

/-- A reading is one of the climb to the first peak, or no higher than what was counted
since. -/
theorem le_firstPeak_or (h : ∀ w ∈ vs, 0 ≤ w) :
    ∀ x ∈ v :: vs, x ≤ firstPeak v vs ∨ x ≤ countedSinceReset (v :: vs) := by
  induction vs generalizing v with
  | nil =>
    intro x hx
    exact .inl (List.mem_singleton.1 hx).le
  | cons w vs ih =>
    have hvs : ∀ x ∈ vs, 0 ≤ x := fun x hx => h x (List.mem_cons_of_mem w hx)
    intro x hx
    rw [firstPeak, countedSinceReset]
    cases List.mem_cons.1 hx with
    | inl hxv =>
      left
      rw [hxv]
      exact le_firstPeak v (w :: vs)
    | inr hmem =>
      split
      · exact ih hvs x hmem
      · exact .inr (le_add_counted hvs (h w List.mem_cons_self) x hmem)

/-- **The rise of a counter with resets.**  The highest reading less the lowest is no more
than what was counted exactly when the first is above the lowest by no more than what was
counted since the first reset. -/
theorem spread_le_counted_iff {values : List ℚ} (h : ∀ v ∈ values, 0 ≤ v) :
    spread values ≤ counted values ↔
      values.headD 0 - values.min?.getD 0 ≤ countedSinceReset values := by
  cases values with
  | nil => simp [counted, countedSinceReset]
  | cons v vs =>
    obtain ⟨lo, hlo, hi, hhi, hall⟩ := exists_bounds (List.cons_ne_nil v vs)
    have hmin : (v :: vs).min? = some lo :=
      List.min?_eq_some_iff.2 ⟨hlo, fun x hx => (hall x hx).1⟩
    have hpeak : firstPeak v vs ≤ hi := (hall _ (firstPeak_mem v vs)).2
    have hclimb := le_firstPeak v vs
    have hlow := h lo hlo
    rw [spread_eq hlo hhi hall, counted_eq, hmin]
    show hi - lo ≤ _ ↔ v - lo ≤ _
    constructor
    · intro hle
      linarith
    · intro hle
      cases le_firstPeak_or (fun x hx => h x (List.mem_cons_of_mem v hx)) hi hhi with
      | inl hfirst => linarith
      | inr hsince => linarith

end Readings

/-! ## Series in a window -/

/-- What a series reads, in the order of its times. -/
def readingsOf (rows : List MetricRow) : List ℚ :=
  (orderBy (fun r : MetricRow => r.timestamp) rows).map MetricRow.value

def countedIn (rows : List MetricRow) : ℚ := sumBy series (fun g => counted (readingsOf g)) rows

/-- The series' first reading is above its lowest by no more than what it counted since its
first reset. -/
def Recovers (rows : List MetricRow) : Prop :=
  (readingsOf rows).headD 0 - (readingsOf rows).min?.getD 0 ≤ countedSinceReset (readingsOf rows)

section Series

variable {rows : List MetricRow}

theorem readingsOf_nonneg (h : ∀ r ∈ rows, 0 ≤ r.value) : ∀ v ∈ readingsOf rows, 0 ≤ v := by
  intro v hv
  obtain ⟨r, hr, rfl⟩ := List.mem_map.1 hv
  exact h r (mem_orderBy.1 hr)

theorem rise_le_counted_iff (h : ∀ r ∈ rows, 0 ≤ r.value) :
    rise rows ≤ counted (readingsOf rows) ↔ Recovers rows := by
  have hperm : (rows.map MetricRow.value).Perm (readingsOf rows) :=
    (orderBy_perm _ rows).symm.map _
  rw [rise_eq_spread, spread_perm hperm]
  exact spread_le_counted_iff (readingsOf_nonneg h)

theorem mem_of_mem_groupBy {g : List MetricRow} (hg : g ∈ groupBy series rows) :
    ∀ r ∈ g, r ∈ rows := by
  obtain ⟨k, -, rfl⟩ := List.mem_map.1 hg
  exact fun r hr => (List.mem_filter.1 hr).1

theorem sumBy_rise_le (h : ∀ r ∈ rows, 0 ≤ r.value)
    (hrecovers : ∀ g ∈ groupBy series rows, Recovers g) :
    sumBy series rise rows ≤ countedIn rows := by
  apply List.sum_le_sum
  intro g hg
  exact (rise_le_counted_iff fun r hr => h r (mem_of_mem_groupBy hg r hr)).2 (hrecovers g hg)

theorem groupBy_filter {p : MetricRow → Bool} (hp : ∀ r s, series r = series s → p r = p s)
    {g : List MetricRow} (hg : g ∈ groupBy series (rows.filter p)) : g ∈ groupBy series rows := by
  obtain ⟨k, hk, rfl⟩ := List.mem_map.1 hg
  obtain ⟨r, hr, rfl⟩ := List.mem_map.1 (List.mem_dedup.1 hk)
  rw [List.mem_filter] at hr
  refine List.mem_map.2 ⟨series r, List.mem_dedup.2 (List.mem_map_of_mem hr.1), ?_⟩
  rw [List.filter_filter]
  apply List.filter_congr
  intro s _
  rw [eq_comm, Bool.and_eq_left_iff_imp, decide_eq_true_iff]
  intro hs
  rw [hp s r hs]
  exact hr.2

end Series

/-! ## What a check is given -/

/-- `increase` and `rate`. -/
def isCounter (aggregation : String) : Prop := aggregation = "increase" ∨ aggregation = "rate"

section Check

variable {F : Type} (cfg : EnvironmentConfig) (engine : Engine F) (traces : List Span)
  (reduce : String → List MetricRow → ℚ) (table : List MetricRow) (metricName : String)
  (q : MetricCheck)

/-- The table of some of the series. -/
def ofSeries (keep : String × String × AttrMap × AttrMap → Bool) : List MetricRow :=
  table.filter fun r => keep (series r)

/-- Whichever of the series there are, no value a check is given is above what they counted,
by the second for a rate: not the value over all of them, and not that of a group. -/
structure NeverOver : Prop where
  value : ∀ aggregation keep, isCounter aggregation →
    (metricAggregate cfg engine traces reduce (ofSeries table keep) metricName aggregation q).1 ≤
      perSecondValue aggregation q
        (countedIn (checkRows cfg engine traces (ofSeries table keep) metricName q))
  grouped : ∀ aggregation keep splitKey, isCounter aggregation →
    ∀ g ∈ metricAggregateGrouped cfg engine traces reduce (ofSeries table keep) metricName
      aggregation splitKey q, g.value ≤ perSecondValue aggregation q
        (countedIn ((checkRows cfg engine traces (ofSeries table keep) metricName q).filter
          fun r => splitLabel splitKey r = g.label))

variable {cfg engine traces reduce table metricName q}

theorem perSecondValue_mono (aggregation : String) (q : MetricCheck) {v w : ℚ} (h : v ≤ w) :
    perSecondValue aggregation q v ≤ perSecondValue aggregation q w :=
  not_lt.1 fun hlt => absurd h (not_le.2 ((perSecondValue_lt_iff aggregation q w v).1 hlt))

theorem checkRows_ofSeries (keep : String × String × AttrMap × AttrMap → Bool) :
    checkRows cfg engine traces (ofSeries table keep) metricName q =
      (checkRows cfg engine traces table metricName q).filter fun r => keep (series r) :=
  List.filter_comm _ _ table

theorem NeverOver.recovers (h : NeverOver cfg engine traces reduce table metricName q)
    (hcounter : ∀ r ∈ checkRows cfg engine traces table metricName q, 0 ≤ r.value)
    {g : List MetricRow}
    (hg : g ∈ groupBy series (checkRows cfg engine traces table metricName q)) : Recovers g := by
  have hrows : ∀ r ∈ g, 0 ≤ r.value := fun r hr => hcounter r (mem_of_mem_groupBy hg r hr)
  obtain ⟨k, -, rfl⟩ := List.mem_map.1 hg
  have hone : ∀ r ∈ (checkRows cfg engine traces table metricName q).filter
      fun r => series r = k, series r = k := fun r hr => of_decide_eq_true (List.mem_filter.1 hr).2
  have hle := h.value "increase" (fun s => s = k) (.inl rfl)
  rw [metricAggregate_counter (.inl rfl), checkRows_ofSeries] at hle
  change sumBy series rise _ ≤ countedIn _ at hle
  rw [countedIn, sumBy_of_one_key rise_nil hone, sumBy_of_one_key rfl hone] at hle
  exact (rise_le_counted_iff hrows).1 hle

/-- **When a counter's increase is what it counted at most.**  Whichever of the series there
are, a check's increase and rate are no more than was counted, over all of them and in each
group, exactly when each series recovers; and the groups' values sum to the value over all of
them, when there are no more than the cap. -/
theorem neverOver_iff
    (hcounter : ∀ r ∈ checkRows cfg engine traces table metricName q, 0 ≤ r.value) :
    (NeverOver cfg engine traces reduce table metricName q ↔
      ∀ g ∈ groupBy series (checkRows cfg engine traces table metricName q), Recovers g) ∧
    ∀ aggregation splitKey, isCounter aggregation →
      (allGroups cfg engine traces reduce table metricName aggregation splitKey q).length ≤
        metricGroupCap →
      ((metricAggregateGrouped cfg engine traces reduce table metricName aggregation splitKey
        q).map MetricGroupAggregate.value).sum =
          (metricAggregate cfg engine traces reduce table metricName aggregation q).1 := by
  refine ⟨⟨fun h g hg => h.recovers hcounter hg, fun hall => ?_⟩,
    fun _ _ hagg hcap => sum_metricAggregateGrouped hagg hcap⟩
  have hle {p : MetricRow → Bool} (hp : ∀ r s, series r = series s → p r = p s) :
      sumBy series rise ((checkRows cfg engine traces table metricName q).filter p) ≤
        countedIn ((checkRows cfg engine traces table metricName q).filter p) := by
    apply sumBy_rise_le
    · intro r hr
      exact hcounter r (List.mem_filter.1 hr).1
    · intro g hg
      exact hall g (groupBy_filter hp hg)
  constructor
  · intro aggregation keep hagg
    rw [metricAggregate_counter hagg, checkRows_ofSeries]
    apply perSecondValue_mono
    apply hle
    intro r s hseries
    rw [hseries]
  · intro aggregation keep splitKey hagg g hg
    obtain ⟨g', hg', rfl⟩ := List.mem_map.1 hg
    have hmem := (List.mem_filter.1 (mem_orderBy.1 (List.mem_of_mem_take hg'))).1
    rw [perSecond_value, perSecond_label, (mem_splitGroups_counter hagg hmem).1,
      checkRows_ofSeries, List.filter_filter]
    apply perSecondValue_mono
    apply hle
    intro r s hseries
    rw [hseries, splitLabel_of_series_eq hseries]

end Check

/-! ### A restart -/

private def counterCfg : EnvironmentConfig := ⟨"", []⟩

private def counterDb : Engine Nat :=
  ⟨fun _ _ => false, fun _ => none, fun _ => none, fun _ _ _ => false⟩

private def noReduction (_ : String) (_ : List MetricRow) : ℚ := 0

private def request (time : Int) (value : ℚ) : MetricRow where
  timestamp := time
  startTimestamp := 0
  metricName := "http.requests"
  metricType := "sum"
  serviceName := "shop"
  serviceNamespace := ""
  value := value
  count := 0
  isMonotonic := true
  unit := ""
  resourceAttributes := []
  metricAttributes := []

private def lastMinutes : MetricCheck :=
  { attrs := [], start := 1, stop := 9, serviceIn := [], groups := [] }

theorem neverOver_busy :
    NeverOver counterCfg counterDb [] noReduction [request 2 3, request 3 7, request 4 0,
      request 5 5] "http.requests" lastMinutes := by
  have hcounter : ∀ r ∈ [request 2 3, request 3 7, request 4 0, request 5 5], 0 ≤ r.value := by
    decide +kernel
  apply (neverOver_iff fun r hr => hcounter r (List.mem_filter.1 hr).1).1.2
  unfold Recovers
  decide +kernel

theorem restart_over :
    ¬ (metricAggregate counterCfg counterDb [] noReduction
        [request 2 100, request 3 0, request 4 5] "http.requests" "increase" lastMinutes).1 ≤
      countedIn (checkRows counterCfg counterDb [] [request 2 100, request 3 0, request 4 5]
        "http.requests" lastMinutes) := by
  decide +kernel

end Sluicio.Store
