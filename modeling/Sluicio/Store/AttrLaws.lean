import Sluicio.Store.Selection

/-!
# The laws of the attribute operators

`exists`, `not_exists` and the comparisons are rendered from different expressions:
a comparison reads the value a key addresses, the presence of a key is looked up on
its own.  `Coherent` collects the laws that tie them together on one row, each about
the clause `attrClauseIn` compiles for the row's table.

The operators other than `metric.name`'s keep them.  On a metric point the comparisons
of `metric.name` read the column and the two presence operators the attribute maps, so
a named point no attribute repeats the name of equals its name and does not have one.
-/

namespace Sluicio.Store

variable {F : Type}

/-- The row satisfies the predicate, compiled for the row's own table. -/
def answers (cfg : EnvironmentConfig) (engine : Engine F) (f : LogAttrFilter) (row : Row) :
    Bool :=
  let compiled := attrClauseIn cfg engine row.table f
  satisfies engine [] row (some (.cond compiled.1, compiled.2))

/-- The comparisons of a value as a number. -/
def AttrOp.isNumeric : AttrOp → Bool
  | .gt | .gte | .lt | .lte => true
  | _ => false

/-- The operators agree with each other on a key of a row. -/
structure Coherent (cfg : EnvironmentConfig) (engine : Engine F) (key : String) (row : Row) :
    Prop where
  /-- One of `exists` and `not_exists` holds, whatever value they are sent with. -/
  oneHolds : ∀ v w, answers cfg engine { key, op := .present, value := v } row ≠
    answers cfg engine { key, op := .absent, value := w } row
  eqPresent : ∀ v w, v ≠ "" → answers cfg engine { key, op := .eq, value := v } row →
    answers cfg engine { key, op := .present, value := w } row
  containsPresent : ∀ v w, v ≠ "" → answers cfg engine { key, op := .contains, value := v } row →
    answers cfg engine { key, op := .present, value := w } row
  numericPresent : ∀ op v w, op.isNumeric → answers cfg engine { key, op, value := v } row →
    answers cfg engine { key, op := .present, value := w } row
  neqComplement : ∀ v, answers cfg engine { key, op := .neq, value := v } row ≠
    answers cfg engine { key, op := .eq, value := v } row
  notContainsComplement : ∀ v, answers cfg engine { key, op := .notContains, value := v } row ≠
    answers cfg engine { key, op := .contains, value := v } row

/-- A named metric point is asked for its `metric.name`, and carries no attribute of that
name. -/
def UnrepeatedMetricName (key : String) (row : Row) : Prop :=
  key = metricNameAttrKey ∧ row.table = .metricAttributes ∧ row.column .metricName ≠ "" ∧
    row.attributes.contains key = false ∧ row.resourceAttributes.contains key = false

section Laws

variable {cfg : EnvironmentConfig} {engine : Engine F} {key : String} {row : Row}

theorem satisfies_attrClauseIn (traces : List Span) (f : LogAttrFilter) :
    satisfies engine traces row (some (.cond (attrClauseIn cfg engine row.table f).1,
      (attrClauseIn cfg engine row.table f).2)) ↔
      (attrCond cfg engine row.table f).eval engine row = .yes := by
  have hbind := bind_emit (Clause.cond (attrCond cfg engine row.table f))
  rw [attrClauseIn_eq]
  show satisfies engine traces row (some (Clause.cond (attrCond cfg engine row.table f)).emit) ↔ _
  rw [satisfies, hbind, Option.any_some, decide_eq_true_iff]
  rfl

theorem answers_iff (f : LogAttrFilter) :
    answers cfg engine f row ↔ (attrCond cfg engine row.table f).eval engine row = .yes :=
  satisfies_attrClauseIn [] f

variable {f : LogAttrFilter}

theorem answers_comparison (hpresent : f.op ≠ .present) (habsent : f.op ≠ .absent) :
    answers cfg engine f row ↔ f.Holds cfg engine row := by
  rw [answers_iff]
  apply attrCond_eval
  intro h
  cases h.2.2 with
  | inl h => exact hpresent h
  | inr h => exact habsent h

/-- What `exists` asks. -/
def Carries (cfg : EnvironmentConfig) (key : String) (row : Row) : Prop :=
  match presenceExpr cfg row.table key with
  | some e => e.eval row ≠ ""
  | none => row.attributes.contains key ∨ row.resourceAttributes.contains key

theorem answers_present (v : String) :
    answers cfg engine { key, op := .present, value := v } row ↔ Carries cfg key row := by
  have hmap : row.map row.table = row.attributes := by simp [Row.map]
  rw [answers_iff, Carries]
  unfold attrCond
  cases presenceExpr cfg row.table key with
  | some e => simp [Cond.eval]
  | none => simp [Cond.eval, hmap]

theorem answers_absent (v : String) :
    answers cfg engine { key, op := .absent, value := v } row ↔ ¬ Carries cfg key row := by
  have hmap : row.map row.table = row.attributes := by simp [Row.map]
  rw [answers_iff, Carries]
  unfold attrCond
  cases presenceExpr cfg row.table key with
  | some e => simp [Cond.eval]
  | none => simp [Cond.eval, hmap]

theorem AttrMap.lookup_of_not_contains {m : AttrMap} (h : m.contains key = false) :
    m.lookup key = none :=
  Option.isNone_iff_eq_none.1 (by simpa [AttrMap.contains] using h)

theorem AttrMap.value_of_not_contains {m : AttrMap} (h : m.contains key = false) :
    m.value key = "" := by
  rw [AttrMap.value, AttrMap.lookup_of_not_contains h]
  rfl

/-- A key that is not there reads as the empty text, unless it is the name of a metric
point. -/
theorem attrValue_of_not_carries (hkey : ¬ UnrepeatedMetricName key row)
    (h : ¬ Carries cfg key row) : attrValue cfg key row = "" := by
  by_cases hname : row.table = .metricAttributes ∧ key = metricNameAttrKey
  · have henv : key ≠ environmentAttrKey := by rw [hname.2]; decide
    have hsvc : key ≠ serviceNameAttrKey := by rw [hname.2]; decide
    have hspan : key ≠ spanNameAttrKey := by rw [hname.2]; decide
    have hlookup : ¬ (row.attributes.contains key ∨ row.resourceAttributes.contains key) := by
      rw [Carries, presenceExpr, if_neg henv, if_neg hsvc, if_neg fun h => hspan h.1] at h
      exact h
    rw [not_or, Bool.not_eq_true, Bool.not_eq_true] at hlookup
    have hcolumn : row.column .metricName = "" := by
      by_contra hne
      exact hkey ⟨hname.2, hname.1, hne, hlookup⟩
    rw [attrValue, if_neg henv, if_pos ⟨hname.2, hname.1⟩, hcolumn]
  · have hattr : ¬ HasAttr cfg key row := fun hhas => h ((hasAttr_iff cfg hname).1 hhas)
    unfold HasAttr at hattr
    split at hattr
    · exact of_not_not hattr
    rename_i hkeys
    rw [not_or, not_or, not_or] at hkeys
    rw [not_or, Bool.not_eq_true, Bool.not_eq_true] at hattr
    rw [attrValue, if_neg hkeys.1, if_neg hkeys.2.2.2, if_neg hkeys.2.2.1, if_neg hkeys.2.1,
      AttrMap.lookup_of_not_contains hattr.1]
    exact AttrMap.value_of_not_contains hattr.2

theorem UnrepeatedMetricName.value (h : UnrepeatedMetricName key row) :
    ¬ Carries cfg key row ∧ attrValue cfg key row ≠ "" := by
  have henv : key ≠ environmentAttrKey := by rw [h.1]; decide
  have hsvc : key ≠ serviceNameAttrKey := by rw [h.1]; decide
  have hspan : key ≠ spanNameAttrKey := by rw [h.1]; decide
  constructor
  · rw [Carries, presenceExpr, if_neg henv, if_neg hsvc, if_neg fun h => hspan h.1]
    simp [h.2.2.2.1, h.2.2.2.2]
  · rw [attrValue, if_neg henv, if_pos ⟨h.1, h.2.1⟩]
    exact h.2.2.1

theorem lower_infix_empty {v : String} (h : lower v <:+: lower "") : v = "" := by
  have hnil : lower v = [] := List.infix_nil.1 h
  rw [lower, List.map_eq_nil_iff] at hnil
  exact String.toList_eq_nil_iff.1 hnil

theorem Compares.value_ne {op : NumOp} (hempty : engine.toFloat64OrNull "" = none)
    (h : Compares cfg engine op f row) : attrValue cfg f.key row ≠ "" := by
  obtain ⟨x, n, hx, _⟩ := h
  intro hvalue
  rw [hvalue, hempty] at hx
  cases hx

theorem value_ne_of_numeric (hempty : engine.toFloat64OrNull "" = none) (hop : f.op.isNumeric)
    (h : f.Holds cfg engine row) : attrValue cfg f.key row ≠ "" := by
  unfold LogAttrFilter.Holds at h
  cases hf : f.op with
  | gt => exact Compares.value_ne hempty (show Compares cfg engine .gt f row by simpa [hf] using h)
  | gte =>
    exact Compares.value_ne hempty (show Compares cfg engine .gte f row by simpa [hf] using h)
  | lt => exact Compares.value_ne hempty (show Compares cfg engine .lt f row by simpa [hf] using h)
  | lte =>
    exact Compares.value_ne hempty (show Compares cfg engine .lte f row by simpa [hf] using h)
  | _ => simp [AttrOp.isNumeric, hf] at hop

/-- **The laws hold of every key but an unrepeated metric name.**  The two comparisons
complement each other, and a comparison that holds found a value, on every row of every
table; that what has a value is there fails for the name of a metric point that no
attribute repeats. -/
theorem coherent_iff (hempty : engine.toFloat64OrNull "" = none) :
    Coherent cfg engine key row ↔ ¬ UnrepeatedMetricName key row := by
  have heq (v : String) : answers cfg engine { key, op := .eq, value := v } row ↔
      attrValue cfg key row = v := answers_comparison (by simp) (by simp)
  have hneq (v : String) : answers cfg engine { key, op := .neq, value := v } row ↔
      attrValue cfg key row ≠ v := answers_comparison (by simp) (by simp)
  have hcontains (v : String) : answers cfg engine { key, op := .contains, value := v } row ↔
      lower v <:+: lower (attrValue cfg key row) := answers_comparison (by simp) (by simp)
  have hnotContains (v : String) :
      answers cfg engine { key, op := .notContains, value := v } row ↔
        ¬ lower v <:+: lower (attrValue cfg key row) := answers_comparison (by simp) (by simp)
  constructor
  · intro h hname
    have hvalue : ¬ Carries cfg key row ∧ attrValue cfg key row ≠ "" := hname.value
    exact hvalue.1 ((answers_present "").1 (h.eqPresent _ "" hvalue.2 ((heq _).2 rfl)))
  · intro hname
    have hcarries : attrValue cfg key row ≠ "" → Carries cfg key row := by
      intro hvalue
      by_contra hnot
      exact hvalue (attrValue_of_not_carries hname hnot)
    constructor
    · intro v w h
      have hpresent : answers cfg engine { key, op := .present, value := v } row ↔
          Carries cfg key row := answers_present v
      exact iff_not_self (hpresent.symm.trans ((Bool.eq_iff_iff.1 h).trans (answers_absent w)))
    · intro v w hv h
      exact (answers_present w).2 (hcarries (((heq v).1 h).symm ▸ hv))
    · intro v w hv h
      apply (answers_present w).2 (hcarries _)
      intro hvalue
      have hin := (hcontains v).1 h
      rw [hvalue] at hin
      exact hv (lower_infix_empty hin)
    · intro op v w hop h
      have hholds : LogAttrFilter.Holds cfg engine { key, op, value := v } row := by
        apply (answers_comparison _ _).1 h
        · intro hpresent
          rw [show op = .present from hpresent] at hop
          cases hop
        · intro habsent
          rw [show op = .absent from habsent] at hop
          cases hop
      exact (answers_present w).2
        (hcarries (value_ne_of_numeric (f := { key, op, value := v }) hempty hop hholds))
    · intro v h
      exact iff_not_self ((heq v).symm.trans ((Bool.eq_iff_iff.1 h.symm).trans (hneq v)))
    · intro v h
      exact iff_not_self
        ((hcontains v).symm.trans ((Bool.eq_iff_iff.1 h.symm).trans (hnotContains v)))

end Laws

/-! ### A metric's name -/

private def numeral (s : String) : Option Nat :=
  if s.toList ≠ [] ∧ s.toList.all Char.isDigit then
    some (s.toList.foldl (fun n c => 10 * n + (c.toNat - '0'.toNat)) 0)
  else none

private def numerals : Engine Nat where
  regex _ _ := false
  parseFloat := numeral
  toFloat64OrNull := numeral
  compare op x n :=
    match op with
    | .gt => n < x
    | .gte => n ≤ x
    | .lt => x < n
    | .lte => x ≤ n

private def asStored : EnvironmentConfig := ⟨"", []⟩

private def messagesReady : MetricPoint :=
  ⟨"broker", "rabbitmq.queue.messages.ready", "", [("host.name", "mq-1")], [("queue", "orders")]⟩

theorem coherent_queue : Coherent asStored numerals "queue" (.metric messagesReady) :=
  (coherent_iff (by decide +kernel)).2 fun h => absurd h.1 (by decide)

/-- The point equals its own name under `metric.name`, and does not have one. -/
theorem not_coherent_metricName :
    ¬ Coherent asStored numerals metricNameAttrKey (.metric messagesReady) := by
  intro h
  have hpresent := h.eqPresent "rabbitmq.queue.messages.ready" "" (by decide) (by decide +kernel)
  exact absurd hpresent (by decide +kernel)

end Sluicio.Store
