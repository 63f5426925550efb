import Sluicio.Messageviews.Plan
import Sluicio.Store.AttrLaws
import Sluicio.Store.ErrorDimensions

/-!
# Where an attribute is read

Four places read an attribute of a span: the matchers, the payload rows of a message search,
the promoted columns of its answer, and the breakdown of an integration's failing traces.
The span's own entry comes first and its resource's second, where the order matters at all: a
payload row is satisfied by either.

Three keys are columns to the matchers, and entries of the maps to the others.
-/

namespace Sluicio.Messageviews

open Store
open Tracecompletion (trimSpace)

variable {F : Type}

/-- The span's entry when it has one, even an empty one, and else its resource's. -/
def effectiveValue (key : String) (s : TraceSpan) : String :=
  if s.spanAttributes.contains key then s.spanAttributes.value key
  else s.resourceAttributes.value key

def columnKeys : List String := [serviceNameAttrKey, spanNameAttrKey, environmentAttrKey]

/-- The matcher `eq`. -/
def matcherEquals (cfg : EnvironmentConfig) (engine : Engine F) (key v : String)
    (s : TraceSpan) : Bool :=
  answers cfg engine { key, op := .eq, value := v } (.span s.toSpan)

/-- The payload row `equals`. -/
def payloadEquals (fs : TextFunctions) (key v : String) (s : TraceSpan) : Bool :=
  match payloadClause key .equals v with
  | .ok c => c.holds fs s
  | .error _ => false

/-- The bucket the breakdown by the attribute counts a failing span in. -/
def bucketOf (key : String) (s : TraceSpan) : String :=
  ErrorDimension.group { attributeKey := key } s

/-- The four places find the same value. -/
structure OneValue (cfg : EnvironmentConfig) (engine : Engine F) (fs : TextFunctions)
    (key v : String) (s : TraceSpan) : Prop where
  payload : matcherEquals cfg engine key v s = payloadEquals fs key v s
  promoted : matcherEquals cfg engine key v s = decide (promotedColumn [s] key = v)
  bucket : matcherEquals cfg engine key v s = decide (bucketOf key s = v)

section Readings

variable (cfg : EnvironmentConfig) (engine : Engine F) (fs : TextFunctions) (key : String)

theorem attrValue_span (v : String) (s : TraceSpan) :
    matcherEquals cfg engine key v s = decide (attrValue cfg key (.span s.toSpan) = v) := by
  rw [Bool.eq_iff_iff, decide_eq_true_iff]
  exact answers_comparison (by simp) (by simp)

variable {key}

theorem attrValue_eq_effectiveValue (hkey : key ∉ columnKeys) (s : TraceSpan) :
    attrValue cfg key (.span s.toSpan) = effectiveValue key s := by
  simp only [columnKeys, List.mem_cons, List.not_mem_nil, or_false, not_or] at hkey
  have hmetric : ¬ (key = metricNameAttrKey ∧ (Row.span s.toSpan).table = .metricAttributes) := by
    intro h
    cases h.2
  rw [attrValue, if_neg hkey.2.2, if_neg hmetric, if_neg fun h => hkey.2.1 h.1, if_neg hkey.1]
  show (s.spanAttributes.lookup key).getD _ = _
  unfold effectiveValue AttrMap.contains AttrMap.value
  cases s.spanAttributes.lookup key <;> rfl

theorem payloadEquals_iff (v : String) (s : TraceSpan) :
    payloadEquals fs key v s ↔
      s.spanAttributes.value key = v ∨ s.resourceAttributes.value key = v := by
  simp [payloadEquals, payloadClause, Clause.holds, TextFunctions.test]

theorem promotedColumn_eq (all : List TraceSpan) :
    promotedColumn all key = ((latest? (all.filter fun s =>
      s.spanAttributes.contains key || s.resourceAttributes.contains key)).map
        (effectiveValue key)).getD "" := by
  unfold promotedColumn
  cases latest? (all.filter fun s =>
    s.spanAttributes.contains key || s.resourceAttributes.contains key) <;> rfl

theorem promotedColumn_singleton (s : TraceSpan) :
    promotedColumn [s] key = effectiveValue key s := by
  rw [promotedColumn_eq, List.filter_cons, List.filter_nil]
  by_cases hcarries : (s.spanAttributes.contains key || s.resourceAttributes.contains key) = true
  · rw [if_pos hcarries]
    rfl
  rw [if_neg hcarries]
  rw [Bool.or_eq_true, not_or, Bool.not_eq_true, Bool.not_eq_true] at hcarries
  rw [effectiveValue, hcarries.1]
  exact (AttrMap.value_of_not_contains hcarries.2).symm

theorem bucketOf_eq {s : TraceSpan} (hempty : key ≠ "")
    (hentry : ¬ (s.spanAttributes.contains key ∧ s.spanAttributes.value key = "")) :
    bucketOf key s = effectiveValue key s := by
  show (if key ≠ "" then _ else _) = _
  rw [if_pos hempty, effectiveValue]
  by_cases hspan : s.spanAttributes.contains key = true
  · rw [if_pos hspan, if_pos fun h => hentry ⟨hspan, h⟩]
  · have hvalue := AttrMap.value_of_not_contains (Bool.not_eq_true _ ▸ hspan)
    rw [if_neg hspan, if_neg (not_not.2 hvalue)]

/-- The matcher and the payload row ask the same of the values that are not blank, unless
the resource has one besides the span's. -/
theorem matcher_eq_payload_iff (hkey : key ∉ columnKeys) (s : TraceSpan) :
    (∀ v, trimSpace v ≠ "" →
      matcherEquals cfg engine key v s = payloadEquals fs key v s) ↔
      s.spanAttributes.contains key = false ∨ trimSpace (s.resourceAttributes.value key) = "" ∨
        s.resourceAttributes.value key = s.spanAttributes.value key := by
  have hmatcher (v : String) : matcherEquals cfg engine key v s ↔ effectiveValue key s = v := by
    rw [attrValue_span, attrValue_eq_effectiveValue cfg hkey, decide_eq_true_iff]
  have hblank : trimSpace "" = "" := by decide
  constructor
  · intro h
    by_contra hnot
    rw [not_or, not_or, Bool.not_eq_false] at hnot
    have hsame := h _ hnot.2.1
    rw [Bool.eq_iff_iff, hmatcher, payloadEquals_iff, effectiveValue, if_pos hnot.1] at hsame
    exact hnot.2.2 (hsame.2 (.inr rfl)).symm
  · intro h v hv
    rw [Bool.eq_iff_iff, hmatcher, payloadEquals_iff, effectiveValue]
    cases h with
    | inl hspan =>
      have hvalue := AttrMap.value_of_not_contains hspan
      have hne : "" ≠ v := by
        rintro rfl
        exact hv hblank
      simp [hspan, hvalue, hne]
    | inr h =>
      by_cases hspan : s.spanAttributes.contains key = true
      · rw [if_pos hspan]
        cases h with
        | inl hres =>
          have hne : s.resourceAttributes.value key ≠ v := by
            rintro rfl
            exact hv hres
          simp [hne]
        | inr hsame => simp [hsame]
      · have hvalue := AttrMap.value_of_not_contains (Bool.not_eq_true _ ▸ hspan)
        have hne : "" ≠ v := by
          rintro rfl
          exact hv hblank
        simp [hspan, hvalue, hne]

/-- **What the four places read.**  Of a key that is no column, the matchers and the promoted
columns read the effective value, a payload row either map's, and the breakdown the effective
value of a span whose own entry is not an empty one; and the four agree on every value that
is not blank as long as the resource has none besides the span's. -/
theorem attribute_readings (hempty : key ≠ "") (hkey : key ∉ columnKeys) (s : TraceSpan) :
    (∀ v, matcherEquals cfg engine key v s = decide (effectiveValue key s = v)) ∧
      (∀ all, promotedColumn all key = ((latest? (all.filter fun s =>
        s.spanAttributes.contains key || s.resourceAttributes.contains key)).map
          (effectiveValue key)).getD "") ∧
      (∀ v, payloadEquals fs key v s ↔
        s.spanAttributes.value key = v ∨ s.resourceAttributes.value key = v) ∧
      (¬ (s.spanAttributes.contains key ∧ s.spanAttributes.value key = "") →
        bucketOf key s = effectiveValue key s) ∧
      ((∀ v, trimSpace v ≠ "" → OneValue cfg engine fs key v s) ↔
        s.spanAttributes.contains key = false ∨ trimSpace (s.resourceAttributes.value key) = "" ∨
          s.resourceAttributes.value key = s.spanAttributes.value key) := by
  have hmatcher (v : String) :
      matcherEquals cfg engine key v s = decide (effectiveValue key s = v) := by
    rw [attrValue_span, attrValue_eq_effectiveValue cfg hkey]
  refine ⟨hmatcher, promotedColumn_eq, fun v => payloadEquals_iff fs v s, bucketOf_eq hempty, ?_⟩
  constructor
  · intro h
    exact (matcher_eq_payload_iff cfg engine fs hkey s).1 fun v hv => (h v hv).payload
  · intro h v hv
    constructor
    · exact (matcher_eq_payload_iff cfg engine fs hkey s).2 h v hv
    · rw [hmatcher, promotedColumn_singleton]
    · rw [hmatcher]
      by_cases hentry : s.spanAttributes.contains key = true ∧ s.spanAttributes.value key = ""
      · -- the bucket is the resource's value, which is blank
        have hne : ¬ "" = v := by
          rintro rfl
          exact hv (by decide)
        have hres : trimSpace (s.resourceAttributes.value key) = "" := by
          rcases h with h | h | h
          · rw [hentry.1] at h
            cases h
          · exact h
          · rw [h, hentry.2]
            decide
        have hbucket : bucketOf key s = s.resourceAttributes.value key := by
          show (if key ≠ "" then _ else _) = _
          rw [if_pos hempty, if_neg (not_not.2 hentry.2)]
        rw [effectiveValue, if_pos hentry.1, hentry.2, hbucket, decide_eq_false hne,
          decide_eq_false]
        rintro rfl
        exact hv hres
      · rw [bucketOf_eq hempty hentry]

end Readings

/-! ### An attribute of both -/

private def noSetting : EnvironmentConfig := ⟨"", []⟩

private def textOnly : Engine Nat := ⟨fun _ _ => false, fun _ => none, fun _ => none,
  fun _ _ _ => false⟩

private def plainText : TextFunctions := ⟨fun _ _ => false, fun _ _ => false, id⟩

private def regional (own resource : String) : TraceSpan where
  timestamp := 5
  traceId := "t1"
  spanId := "s1"
  parentSpanId := ""
  serviceName := "orders"
  spanName := "place"
  environment := ""
  resourceAttributes := [("region", resource)]
  spanAttributes := [("region", own)]
  inRange := by decide

theorem attribute_readings_region :
    OneValue noSetting textOnly plainText "region" "eu" (regional "eu" "eu") :=
  ((attribute_readings noSetting textOnly plainText (by decide) (by decide)
    (regional "eu" "eu")).2.2.2.2).2 (.inr (.inr rfl)) "eu" (by decide +kernel)

/-- A span with its own region satisfies the payload row for its resource's, and no matcher
for it; and a span whose own region is empty is counted under its resource's. -/
theorem not_oneValue_region :
    ¬ OneValue noSetting textOnly plainText "region" "us" (regional "eu" "us") ∧
      ¬ OneValue noSetting textOnly plainText "region" "us" (regional "" "us") := by
  constructor
  · intro h
    exact absurd h.payload (by decide +kernel)
  · intro h
    exact absurd h.bucket (by decide +kernel)

end Sluicio.Messageviews
