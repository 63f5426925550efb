import Mathlib.Algebra.GroupWithZero.Nat
import Mathlib.Algebra.Order.Ring.Rat
import Sluicio.Store.Messages

/-!
# Bucketed series

`ServiceStatsSeries` cuts a window into a fixed number of slots.  The database groups the
spans by intervals of a whole number of seconds, aligned to the epoch, and each group is
written to the slot its interval starts in, the last slot when it starts after that.
`IntegrationTrafficSeries` does the same with its counts, and adds where the other writes.

A window is in general not aligned and not a multiple of its slots, so there is an interval
more than there are slots.  `keepsAll_iff` says when two meet in one.
-/

namespace Sluicio.Store

open Lib

/-- `Unix`, of a time in nanoseconds. -/
def unix (t : Int) : Int := t / 1000000000

def slotCount (buckets : Int) : Nat := if buckets ≤ 0 then 24 else buckets.toNat

/-- `step`: the seconds of an interval. -/
def stepOf (totalSec : Int) (buckets : Nat) : Int :=
  if totalSec.tdiv buckets < 1 then 1 else totalSec.tdiv buckets

def alignedFrom (fromTime step : Int) : Int := unix fromTime - (unix fromTime).tmod step

/-- `toStartOfInterval(Timestamp, INTERVAL step SECOND)`, in seconds. -/
def startOfInterval (step t : Int) : Int := unix t / step * step

/-- `idx`. -/
def slotOf (aligned step : Int) (buckets : Nat) (bucket : Int) : Nat :=
  let idx := (bucket - aligned).tdiv step
  if idx < 0 then 0 else if (buckets : Int) ≤ idx then buckets - 1 else idx.toNat

theorem slotCount_pos (buckets : Int) : 0 < slotCount buckets := by
  unfold slotCount
  split <;> omega

theorem stepOf_pos (totalSec : Int) (buckets : Nat) : 0 < stepOf totalSec buckets := by
  unfold stepOf
  split <;> omega

theorem alignedFrom_eq (fromTime step : Int) :
    alignedFrom fromTime step = (unix fromTime).tdiv step * step := by
  have hsplit := Int.tmod_add_tdiv_mul (unix fromTime) step
  unfold alignedFrom
  omega

variable {step : Int} {buckets : Nat}

theorem slotOf_mul (hstep : 0 < step) (h : 0 < buckets) (a k : Int) :
    slotOf (a * step) step buckets (k * step) = min (k - a).toNat (buckets - 1) := by
  have hidx : (k * step - a * step).tdiv step = k - a := by
    rw [← Int.sub_mul, Int.mul_tdiv_cancel _ hstep.ne']
  unfold slotOf
  simp only [hidx]
  split
  · omega
  · split <;> omega

theorem slotOf_lt {aligned : Int} (h : 0 < buckets) (bucket : Int) :
    slotOf aligned step buckets bucket < buckets := by
  unfold slotOf
  simp only
  split
  · exact h
  · split <;> omega

/-- Two intervals meet in a slot when it is the only one, when both start at the first or
before it, or both at the last or after it. -/
theorem slotOf_eq_iff (hstep : 0 < step) (h : 0 < buckets) (a k l : Int) :
    slotOf (a * step) step buckets (k * step) = slotOf (a * step) step buckets (l * step) ↔
      k = l ∨ buckets = 1 ∨ (k ≤ a ∧ l ≤ a) ∨ (a + (buckets - 1) ≤ k ∧ a + (buckets - 1) ≤ l) := by
  rw [slotOf_mul hstep h, slotOf_mul hstep h]
  omega

structure StatsRow where
  bucket : Int
  traces : Nat
  errTraces : Nat
  p50 : ℚ
  p95 : ℚ

structure ServiceStatsSeriesResult where
  traces : List Nat
  errorRate : List ℚ
  p50Ms : List ℚ
  p95Ms : List ℚ

/-! ### Writing -/

section Write

variable {α : Type*}

theorem getElem?_foldl_set {ws : List (Nat × α)} {i : Nat} (h : i ∉ ws.map Prod.fst)
    (xs : List α) : (ws.foldl (fun xs w => xs.set w.1 w.2) xs)[i]? = xs[i]? := by
  induction ws generalizing xs with
  | nil => rfl
  | cons w ws ih =>
    rw [List.map_cons, List.mem_cons, not_or] at h
    rw [List.foldl_cons, ih h.2, List.getElem?_set_ne (Ne.symm h.1)]

theorem getElem?_foldl_set_of_mem {ws : List (Nat × α)} (h : (ws.map Prod.fst).Nodup)
    {w : Nat × α} (hw : w ∈ ws) {xs : List α} (hlt : w.1 < xs.length) :
    (ws.foldl (fun xs w => xs.set w.1 w.2) xs)[w.1]? = some w.2 := by
  induction ws generalizing xs with
  | nil => exact absurd hw List.not_mem_nil
  | cons v ws ih =>
    rw [List.map_cons, List.nodup_cons] at h
    rw [List.foldl_cons]
    cases List.mem_cons.1 hw with
    | inl heq =>
      subst heq
      rw [getElem?_foldl_set h.1, List.getElem?_set_self hlt]
    | inr hmem => exact ih h.2 hmem (by rwa [List.length_set])

end Write

def ServiceStatsSeriesResult.write (res : ServiceStatsSeriesResult) (idx : Nat)
    (row : StatsRow) : ServiceStatsSeriesResult where
  traces := res.traces.set idx row.traces
  errorRate :=
    if 0 < row.traces then res.errorRate.set idx (row.errTraces / row.traces) else res.errorRate
  p50Ms := res.p50Ms.set idx (row.p50 / 1000000)
  p95Ms := res.p95Ms.set idx (row.p95 / 1000000)

section Series

variable (seconds : Int → Int) (quantile : ℚ → List Nat → ℚ) (spans : List TraceSpan)
  (service : String) (fromTime toTime buckets : Int)

def windowSpans : List TraceSpan :=
  spans.filter fun s => s.serviceName = service && fromTime ≤ s.timestamp && s.timestamp ≤ toTime

/-- `uniqExact(TraceId)`. -/
def distinctTraces (group : List TraceSpan) : Nat := (group.map fun s => s.traceId).dedup.length

def statsRow (step : Int) (group : List TraceSpan) (bucket : Int) : StatsRow :=
  let rows := group.filter fun s => startOfInterval step s.timestamp = bucket
  { bucket
    traces := distinctTraces rows
    errTraces := distinctTraces (rows.filter TraceSpan.failed)
    p50 := quantile (1 / 2) (rows.map fun s => s.durationNs)
    p95 := quantile (19 / 20) (rows.map fun s => s.durationNs) }

/-- `GROUP BY bucket ORDER BY bucket ASC`. -/
def statsRows (step : Int) (group : List TraceSpan) : List StatsRow :=
  (orderBy id (group.map fun s => startOfInterval step s.timestamp).dedup).map
    (statsRow quantile step group)

/-- The seconds of an interval; `seconds` is the whole number of seconds Go makes of the length
of the window. -/
def intervalStep : Int := stepOf (seconds (toTime - fromTime)) (slotCount buckets)

def intervalSlot (bucket : Int) : Nat :=
  let step := intervalStep seconds fromTime toTime buckets
  slotOf (alignedFrom fromTime step) step (slotCount buckets) bucket

/-- What the loop writes, and where. -/
def statsWrites : List (Nat × StatsRow) :=
  if seconds (toTime - fromTime) ≤ 0 then []
  else
    (statsRows quantile (intervalStep seconds fromTime toTime buckets)
      (windowSpans spans service fromTime toTime)).map
        fun row => (intervalSlot seconds fromTime toTime buckets row.bucket, row)

def serviceStatsSeries : ServiceStatsSeriesResult :=
  let n := slotCount buckets
  (statsWrites seconds quantile spans service fromTime toTime buckets).foldl
    (fun res w => res.write w.1 w.2)
    { traces := List.replicate n 0, errorRate := List.replicate n 0,
      p50Ms := List.replicate n 0, p95Ms := List.replicate n 0 }

/-- The interval has a span of the service in the window. -/
def NonEmptyInterval (bucket : Int) : Prop :=
  ∃ s ∈ windowSpans spans service fromTime toTime,
    startOfInterval (intervalStep seconds fromTime toTime buckets) s.timestamp = bucket

/-- Each interval with spans is written to a slot, no two to the same, and its traces are
there in the end. -/
structure KeepsAll : Prop where
  written : ∀ bucket, NonEmptyInterval seconds spans service fromTime toTime buckets bucket →
    ∃ w ∈ statsWrites seconds quantile spans service fromTime toTime buckets, w.2.bucket = bucket
  kept : ∀ w ∈ statsWrites seconds quantile spans service fromTime toTime buckets,
    (serviceStatsSeries seconds quantile spans service fromTime toTime buckets).traces[w.1]? =
      some w.2.traces
  apart : ((statsWrites seconds quantile spans service fromTime toTime buckets).map Prod.fst).Nodup

/-- Two different intervals with spans share the only slot, or start both at the first slot or
before it, or both at the last slot or after it. -/
def IntervalsMeet : Prop :=
  let step := intervalStep seconds fromTime toTime buckets
  ∃ b c, NonEmptyInterval seconds spans service fromTime toTime buckets b ∧
    NonEmptyInterval seconds spans service fromTime toTime buckets c ∧ b ≠ c ∧
    (slotCount buckets = 1 ∨
      (b ≤ alignedFrom fromTime step ∧ c ≤ alignedFrom fromTime step) ∨
      (alignedFrom fromTime step + (slotCount buckets - 1) * step ≤ b ∧
        alignedFrom fromTime step + (slotCount buckets - 1) * step ≤ c))

end Series

section Keeps

variable {seconds : Int → Int} {quantile : ℚ → List Nat → ℚ} {spans : List TraceSpan}
  {service : String} {fromTime toTime buckets : Int}

theorem mem_statsRows {step : Int} {group : List TraceSpan} {row : StatsRow} :
    row ∈ statsRows quantile step group ↔
      (∃ s ∈ group, startOfInterval step s.timestamp = row.bucket) ∧
        row = statsRow quantile step group row.bucket := by
  unfold statsRows
  rw [List.mem_map]
  constructor
  · intro h
    obtain ⟨bucket, hbucket, rfl⟩ := h
    exact ⟨List.mem_map.1 (List.mem_dedup.1 (mem_orderBy.1 hbucket)), rfl⟩
  · intro h
    exact ⟨row.bucket, mem_orderBy.2 (List.mem_dedup.2 (List.mem_map.2 h.1)), h.2.symm⟩

theorem nodup_bucket_statsRows (step : Int) (group : List TraceSpan) :
    ((statsRows quantile step group).map StatsRow.bucket).Nodup := by
  have hbuckets : (statsRows quantile step group).map StatsRow.bucket =
      orderBy id (group.map fun s => startOfInterval step s.timestamp).dedup := by
    rw [statsRows, List.map_map]
    exact List.map_id _
  rw [hbuckets, (orderBy_perm _ _).nodup_iff]
  exact List.nodup_dedup _

theorem intervalSlot_lt (bucket : Int) :
    intervalSlot seconds fromTime toTime buckets bucket < slotCount buckets :=
  slotOf_lt (slotCount_pos buckets) bucket

theorem intervalSlot_eq_iff {s t : Int} :
    let step := intervalStep seconds fromTime toTime buckets
    let b := startOfInterval step s
    let c := startOfInterval step t
    intervalSlot seconds fromTime toTime buckets b =
        intervalSlot seconds fromTime toTime buckets c ↔
      b = c ∨ slotCount buckets = 1 ∨
        (b ≤ alignedFrom fromTime step ∧ c ≤ alignedFrom fromTime step) ∨
        (alignedFrom fromTime step + (slotCount buckets - 1) * step ≤ b ∧
          alignedFrom fromTime step + (slotCount buckets - 1) * step ≤ c) := by
  intro step b c
  have hstep : 0 < step := stepOf_pos _ _
  have hlast (a : Int) : a * step + (slotCount buckets - 1) * step =
      (a + (slotCount buckets - 1)) * step := (Int.add_mul _ _ _).symm
  show slotOf (alignedFrom fromTime step) step (slotCount buckets) (unix s / step * step) =
    slotOf (alignedFrom fromTime step) step (slotCount buckets) (unix t / step * step) ↔ _
  rw [alignedFrom_eq, slotOf_eq_iff hstep (slotCount_pos buckets), hlast]
  simp only [b, c, startOfInterval, Int.mul_le_mul_iff_of_pos_right hstep,
    Int.mul_eq_mul_right_iff hstep.ne']

theorem nodup_slots_iff (hsec : 0 < seconds (toTime - fromTime)) :
    ((statsWrites seconds quantile spans service fromTime toTime buckets).map Prod.fst).Nodup ↔
      ¬ IntervalsMeet seconds spans service fromTime toTime buckets := by
  let step := intervalStep seconds fromTime toTime buckets
  let group := windowSpans spans service fromTime toTime
  have hslots : (statsWrites seconds quantile spans service fromTime toTime buckets).map
      Prod.fst = ((statsRows quantile step group).map StatsRow.bucket).map
        (intervalSlot seconds fromTime toTime buckets) := by
    rw [statsWrites, if_neg (not_le.2 hsec), List.map_map, List.map_map]
    rfl
  have hmem (b : Int) : b ∈ (statsRows quantile step group).map StatsRow.bucket ↔
      NonEmptyInterval seconds spans service fromTime toTime buckets b := by
    rw [List.mem_map]
    constructor
    · intro h
      obtain ⟨row, hrow, rfl⟩ := h
      exact (mem_statsRows.1 hrow).1
    · intro h
      exact ⟨statsRow quantile step group b, mem_statsRows.2 ⟨h, rfl⟩, rfl⟩
  rw [hslots, List.nodup_map_iff_inj_on (nodup_bucket_statsRows step group)]
  constructor
  · intro h hmeet
    obtain ⟨b, c, hb, hc, hne, hends⟩ := hmeet
    apply hne (h b ((hmem b).2 hb) c ((hmem c).2 hc) _)
    obtain ⟨s, -, rfl⟩ := hb
    obtain ⟨t, -, rfl⟩ := hc
    exact intervalSlot_eq_iff.2 (.inr hends)
  · intro h b hb c hc hslot
    by_contra hne
    have hb := (hmem b).1 hb
    have hc := (hmem c).1 hc
    apply h
    refine ⟨b, c, hb, hc, hne, ?_⟩
    obtain ⟨s, -, rfl⟩ := hb
    obtain ⟨t, -, rfl⟩ := hc
    exact (intervalSlot_eq_iff.1 hslot).resolve_left hne

theorem statsWrites_lt {w : Nat × StatsRow}
    (hw : w ∈ statsWrites seconds quantile spans service fromTime toTime buckets) :
    w.1 < slotCount buckets := by
  unfold statsWrites at hw
  split at hw
  · exact absurd hw List.not_mem_nil
  · obtain ⟨row, -, rfl⟩ := List.mem_map.1 hw
    exact intervalSlot_lt row.bucket

theorem traces_foldl_write (ws : List (Nat × StatsRow)) (res : ServiceStatsSeriesResult) :
    (ws.foldl (fun res w => res.write w.1 w.2) res).traces =
      (ws.map fun w => (w.1, w.2.traces)).foldl (fun xs w => xs.set w.1 w.2) res.traces := by
  induction ws generalizing res with
  | nil => rfl
  | cons w ws ih => exact ih (res.write w.1 w.2)

theorem traces_kept (h : ((statsWrites seconds quantile spans service fromTime toTime buckets).map
      Prod.fst).Nodup) {w : Nat × StatsRow}
    (hw : w ∈ statsWrites seconds quantile spans service fromTime toTime buckets) :
    (serviceStatsSeries seconds quantile spans service fromTime toTime buckets).traces[w.1]? =
      some w.2.traces := by
  have hslots : (((statsWrites seconds quantile spans service fromTime toTime buckets).map
      fun w => (w.1, w.2.traces)).map Prod.fst).Nodup := by
    rwa [List.map_map]
  have hmem : (w.1, w.2.traces) ∈ (statsWrites seconds quantile spans service fromTime toTime
      buckets).map fun w => (w.1, w.2.traces) := List.mem_map.2 ⟨w, hw, rfl⟩
  unfold serviceStatsSeries
  rw [traces_foldl_write]
  apply getElem?_foldl_set_of_mem hslots hmem
  rw [List.length_replicate]
  exact statsWrites_lt hw

/-- **What the slots keep.**  Every slot is in range; and every interval of the window that
has a span is written to a slot of its own exactly when the window has a whole second or no
span, and no two intervals with spans meet at either end of it. -/
theorem keepsAll_iff (seconds : Int → Int) (quantile : ℚ → List Nat → ℚ)
    (spans : List TraceSpan) (service : String) (fromTime toTime buckets : Int) :
    (∀ w ∈ statsWrites seconds quantile spans service fromTime toTime buckets,
      w.1 < slotCount buckets) ∧
    (KeepsAll seconds quantile spans service fromTime toTime buckets ↔
      (0 < seconds (toTime - fromTime) ∨ windowSpans spans service fromTime toTime = []) ∧
        ¬ IntervalsMeet seconds spans service fromTime toTime buckets) := by
  constructor
  · intro w hw
    exact statsWrites_lt hw
  · by_cases hsec : 0 < seconds (toTime - fromTime)
    · have hwritten : ∀ b, NonEmptyInterval seconds spans service fromTime toTime buckets b →
          ∃ w ∈ statsWrites seconds quantile spans service fromTime toTime buckets,
            w.2.bucket = b := by
        intro b hb
        have hrow : statsRow quantile (intervalStep seconds fromTime toTime buckets)
            (windowSpans spans service fromTime toTime) b ∈ _ := mem_statsRows.2 ⟨hb, rfl⟩
        rw [statsWrites, if_neg (not_le.2 hsec)]
        exact ⟨_, List.mem_map_of_mem hrow, rfl⟩
      constructor
      · intro h
        exact ⟨.inl hsec, (nodup_slots_iff hsec).1 h.apart⟩
      · intro h
        have hapart : ((statsWrites seconds quantile spans service fromTime toTime buckets).map
            Prod.fst).Nodup := (nodup_slots_iff hsec).2 h.2
        exact ⟨hwritten, fun w hw => traces_kept hapart hw, hapart⟩
    · have hnone : statsWrites seconds quantile spans service fromTime toTime buckets = [] := by
        rw [statsWrites, if_pos (not_lt.1 hsec)]
      constructor
      · intro h
        have hempty : windowSpans spans service fromTime toTime = [] := by
          by_contra hne
          obtain ⟨s, hs⟩ := List.exists_mem_of_ne_nil _ hne
          obtain ⟨w, hw, -⟩ := h.written _ ⟨s, hs, rfl⟩
          rw [hnone] at hw
          exact List.not_mem_nil hw
        refine ⟨.inr hempty, ?_⟩
        intro hmeet
        obtain ⟨b, -, ⟨s, hs, -⟩, -⟩ := hmeet
        rw [hempty] at hs
        exact List.not_mem_nil hs
      · intro h
        have hempty := h.1.resolve_left hsec
        constructor
        · intro b hb
          obtain ⟨s, hs, -⟩ := hb
          rw [hempty] at hs
          exact absurd hs List.not_mem_nil
        · intro w hw
          rw [hnone] at hw
          exact absurd hw List.not_mem_nil
        · rw [hnone]
          exact List.nodup_nil

end Keeps

/-! ### An interval more than the slots -/

private def wholeSeconds (d : Int) : Int := d.tdiv 1000000000

private def noQuantile (_ : ℚ) (_ : List Nat) : ℚ := 0

private theorem epochRange {t : Int} (h : 0 ≤ t ∧ t < 10000000000) : -2 ^ 63 ≤ t ∧ t < 2 ^ 63 := by
  omega

private def checkout (second : Int) (h : 0 ≤ second ∧ second < 10) (traceId : String) :
    TraceSpan where
  timestamp := second * 1000000000
  traceId := traceId
  spanId := "s"
  parentSpanId := ""
  serviceName := "shop"
  spanName := "checkout"
  environment := ""
  resourceAttributes := []
  spanAttributes := []
  inRange := epochRange (by omega)

private def checkouts : List TraceSpan :=
  [checkout 3 (by decide) "t1", checkout 3 (by decide) "t2", checkout 5 (by decide) "t3"]

/-- From the first to the fifth second in two slots: the traces of the third second give way to
those of the fifth. -/
theorem not_keepsAll_checkouts :
    ¬ KeepsAll wholeSeconds noQuantile checkouts "shop" 1000000000 5000000000 2 := by
  intro h
  exact absurd h.apart (by decide +kernel)

end Sluicio.Store
