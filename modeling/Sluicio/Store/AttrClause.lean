import Sluicio.Store.Binding

/-!
# Attribute predicates

`attrClauseIn` renders one attribute predicate against the table of a signal.  Most
keys name an entry of the row's own attributes or of its resource's; `service.name`,
`span.name` and `metric.name` address a column, and `sluicio.environment` the row's
canonical environment.  `LogAttrFilter.Holds` says what a predicate asks of a row, and
`attrClauseIn_holds` that the condition rendered for the row's table asks just that.
-/

namespace Sluicio.Store

open Cond

inductive AttrOp where
  | eq | neq | contains | notContains | startsWith | endsWith | regex
  | present | absent
  | gt | gte | lt | lte
  | unknown (op : String)
  deriving DecidableEq

/-- One attribute predicate.  The flags are a property of the group it is in. -/
structure LogAttrFilter where
  key : String
  op : AttrOp
  value : String
  descendants : Bool := false
  requireAllGroups : Bool := false
  member : Option Int := none
  source : Bool := false
  deriving DecidableEq

open LogAttrFilter

def serviceNameAttrKey : String := "service.name"

def spanNameAttrKey : String := "span.name"

def metricNameAttrKey : String := "metric.name"

def environmentAttrKey : String := "sluicio.environment"

/-- `attrKeyRe`: the keys the callers let through. -/
def attrKeyRe (key : String) : Bool :=
  match key.toList with
  | [] => false
  | c :: cs =>
    c.isAlphanum && cs.length ≤ 127 && cs.all fun c => c.isAlphanum || c ∈ ['.', '_', ':', '/', '-']

variable {F : Type}

/-- The expression a key's comparisons read. -/
def attrExpr (cfg : EnvironmentConfig) (primaryMap : PrimaryMap) (key : String) : Expr :=
  if key = environmentAttrKey then .environment cfg
  else if key = metricNameAttrKey ∧ primaryMap = .metricAttributes then .column .metricName
  else if key = spanNameAttrKey ∧ primaryMap = .spanAttributes then .column .spanName
  else if key = serviceNameAttrKey then .column .serviceName
  else .attr primaryMap key

/-- The expression `exists` and `not_exists` ask to be empty or not, for the keys that
address one; for any other key they look it up in the maps. -/
def presenceExpr (cfg : EnvironmentConfig) (primaryMap : PrimaryMap) (key : String) :
    Option Expr :=
  if key = environmentAttrKey then some (.environment cfg)
  else if key = serviceNameAttrKey then some (.column .serviceName)
  else if key = spanNameAttrKey ∧ primaryMap = .spanAttributes then some (.column .spanName)
  else none

/-- `attrClauseIn`: one predicate's SQL and its arguments. -/
def attrClauseIn (cfg : EnvironmentConfig) (engine : Engine F) (primaryMap : PrimaryMap)
    (f : LogAttrFilter) : Cond Unit × List (Arg F) :=
  let eff := attrExpr cfg primaryMap f.key
  let compare (op : NumOp) : Cond Unit × List (Arg F) :=
    match engine.parseFloat f.value with
    | none => (.never, [])
    | some n => (.number op eff (), [.number n])
  match f.op with
  | .eq => (.text .eq eff (), [.text f.value])
  | .neq => (.text .neq eff (), [.text f.value])
  | .contains => (.text .contains eff (), [.text f.value])
  | .notContains => (.text .notContains eff (), [.text f.value])
  | .startsWith => (.text .startsWith eff (), [.text f.value])
  | .endsWith => (.text .endsWith eff (), [.text f.value])
  | .regex => (.text .regex eff (), [.text f.value])
  | .present =>
    match presenceExpr cfg primaryMap f.key with
    | some e => (.nonEmpty e, [])
    | none => (.present primaryMap f.key, [])
  | .absent =>
    match presenceExpr cfg primaryMap f.key with
    | some e => (.isEmpty e, [])
    | none => (.absent primaryMap f.key, [])
  | .gt => compare .gt
  | .gte => compare .gte
  | .lt => compare .lt
  | .lte => compare .lte
  | .unknown _ => (.never, [])

/-! ## What a predicate asks -/

def attrValue (cfg : EnvironmentConfig) (key : String) (row : Row) : String :=
  if key = environmentAttrKey then environmentOf cfg row
  else if key = metricNameAttrKey ∧ row.table = .metricAttributes then row.column .metricName
  else if key = spanNameAttrKey ∧ row.table = .spanAttributes then row.column .spanName
  else if key = serviceNameAttrKey then row.serviceName
  else (row.attributes.lookup key).getD (row.resourceAttributes.value key)

def HasAttr (cfg : EnvironmentConfig) (key : String) (row : Row) : Prop :=
  if key = environmentAttrKey ∨ key = serviceNameAttrKey ∨
      (key = spanNameAttrKey ∧ row.table = .spanAttributes) ∨
      (key = metricNameAttrKey ∧ row.table = .metricAttributes) then
    attrValue cfg key row ≠ ""
  else row.attributes.contains key ∨ row.resourceAttributes.contains key

/-- The attribute's value compares so with the predicate's, both read as numbers. -/
def Compares (cfg : EnvironmentConfig) (engine : Engine F) (op : NumOp) (f : LogAttrFilter)
    (row : Row) : Prop :=
  ∃ x n, engine.toFloat64OrNull (attrValue cfg f.key row) = some x ∧
    engine.parseFloat f.value = some n ∧ engine.compare op x n

/-- What a predicate asks of a row.  Text is compared without regard to ASCII case,
except by `eq`, `neq` and a regular expression. -/
def LogAttrFilter.Holds (cfg : EnvironmentConfig) (engine : Engine F) (f : LogAttrFilter)
    (row : Row) : Prop :=
  match f.op with
  | .eq => attrValue cfg f.key row = f.value
  | .neq => attrValue cfg f.key row ≠ f.value
  | .contains => lower f.value <:+: lower (attrValue cfg f.key row)
  | .notContains => ¬ lower f.value <:+: lower (attrValue cfg f.key row)
  | .startsWith => lower f.value <+: lower (attrValue cfg f.key row)
  | .endsWith => lower f.value <:+ lower (attrValue cfg f.key row)
  | .regex => engine.regex (attrValue cfg f.key row) f.value
  | .present => HasAttr cfg f.key row
  | .absent => ¬ HasAttr cfg f.key row
  | .gt => Compares cfg engine .gt f row
  | .gte => Compares cfg engine .gte f row
  | .lt => Compares cfg engine .lt f row
  | .lte => Compares cfg engine .lte f row
  | .unknown _ => False

/-- The predicate asks whether a metric point has a `metric.name`. -/
def LogAttrFilter.AsksForMetricName (f : LogAttrFilter) (primaryMap : PrimaryMap) : Prop :=
  primaryMap = .metricAttributes ∧ f.key = metricNameAttrKey ∧ (f.op = .present ∨ f.op = .absent)

/-! ## The rendered condition asks it -/

section Rendered

variable (cfg : EnvironmentConfig) (engine : Engine F)

/-- The condition `attrClauseIn` renders, its argument in place. -/
def attrCond (primaryMap : PrimaryMap) (f : LogAttrFilter) : Cond (Arg F) :=
  let eff := attrExpr cfg primaryMap f.key
  let compare (op : NumOp) : Cond (Arg F) :=
    match engine.parseFloat f.value with
    | none => .never
    | some n => .number op eff (.number n)
  match f.op with
  | .eq => .text .eq eff (.text f.value)
  | .neq => .text .neq eff (.text f.value)
  | .contains => .text .contains eff (.text f.value)
  | .notContains => .text .notContains eff (.text f.value)
  | .startsWith => .text .startsWith eff (.text f.value)
  | .endsWith => .text .endsWith eff (.text f.value)
  | .regex => .text .regex eff (.text f.value)
  | .present =>
    match presenceExpr cfg primaryMap f.key with
    | some e => .nonEmpty e
    | none => .present primaryMap f.key
  | .absent =>
    match presenceExpr cfg primaryMap f.key with
    | some e => .isEmpty e
    | none => .absent primaryMap f.key
  | .gt => compare .gt
  | .gte => compare .gte
  | .lt => compare .lt
  | .lte => compare .lte
  | .unknown _ => .never

@[simp] theorem holes_nonEmpty (e : Expr) :
    (Clause.cond (.nonEmpty e : Cond (Arg F))).holes = [] := by
  cases e <;> rfl

@[simp] theorem holes_isEmpty (e : Expr) :
    (Clause.cond (.isEmpty e : Cond (Arg F))).holes = [] := by
  cases e <;> rfl

@[simp] theorem holes_text (op : TextOp) (e : Expr) (v : Arg F) :
    (Clause.cond (.text op e v)).holes = [v] := by
  cases op <;> rfl

/-- `attrClauseIn` returns that condition's text and its argument. -/
theorem attrClauseIn_eq (primaryMap : PrimaryMap) (f : LogAttrFilter) :
    attrClauseIn cfg engine primaryMap f =
      ((attrCond cfg engine primaryMap f).erase,
        (Clause.cond (attrCond cfg engine primaryMap f)).holes) := by
  unfold attrClauseIn attrCond
  cases hop : f.op with
  | present =>
    cases presenceExpr cfg primaryMap f.key with
    | some e => simp [erase]
    | none => rfl
  | absent =>
    cases presenceExpr cfg primaryMap f.key with
    | some e => simp [erase]
    | none => rfl
  | gt => cases engine.parseFloat f.value <;> rfl
  | gte => cases engine.parseFloat f.value <;> rfl
  | lt => cases engine.parseFloat f.value <;> rfl
  | lte => cases engine.parseFloat f.value <;> rfl
  | unknown op => rfl
  | _ => simp [erase]

theorem attrExpr_eval (key : String) (row : Row) :
    (attrExpr cfg row.table key).eval row = attrValue cfg key row := by
  unfold attrExpr attrValue
  by_cases henv : key = environmentAttrKey
  · simp only [if_pos henv]
    rfl
  simp only [if_neg henv]
  by_cases hmetric : key = metricNameAttrKey ∧ row.table = .metricAttributes
  · simp only [if_pos hmetric]
    rfl
  simp only [if_neg hmetric]
  by_cases hspan : key = spanNameAttrKey ∧ row.table = .spanAttributes
  · simp only [if_pos hspan]
    rfl
  simp only [if_neg hspan]
  by_cases hsvc : key = serviceNameAttrKey
  · simp only [if_pos hsvc]
    rfl
  simp only [if_neg hsvc]
  show (if (row.map row.table).contains key then (row.map row.table).value key
    else row.resourceAttributes.value key) = _
  have hmap : row.map row.table = row.attributes := by simp [Row.map]
  rw [hmap, AttrMap.contains, AttrMap.value]
  cases row.attributes.lookup key <;> rfl

theorem compare_eval (op : NumOp) (f : LogAttrFilter) (row : Row) :
    Cond.eval engine (match engine.parseFloat f.value with
      | none => .never
      | some n => .number op (attrExpr cfg row.table f.key) (.number n)) row = .yes ↔
      Compares cfg engine op f row := by
  unfold Compares
  cases hn : engine.parseFloat f.value with
  | none => simp [Cond.eval]
  | some n =>
    simp only [Cond.eval, attrExpr_eval]
    cases hx : engine.toFloat64OrNull (attrValue cfg f.key row) with
    | none => simp
    | some x => simp

variable {key : String} {primaryMap : PrimaryMap}

/-- Asking whether an attribute is there, by `exists`'s own expressions. -/
theorem hasAttr_iff {row : Row}
    (hname : ¬ (row.table = .metricAttributes ∧ key = metricNameAttrKey)) :
    HasAttr cfg key row ↔
      match presenceExpr cfg row.table key with
      | some e => e.eval row ≠ ""
      | none => row.attributes.contains key ∨ row.resourceAttributes.contains key := by
  have hvalue := attrExpr_eval cfg key row
  unfold HasAttr presenceExpr
  by_cases henv : key = environmentAttrKey
  · rw [if_pos henv, if_pos (.inl henv), ← hvalue, attrExpr, if_pos henv]
  rw [if_neg henv]
  by_cases hsvc : key = serviceNameAttrKey
  · rw [if_pos hsvc, if_pos (.inr (.inl hsvc)), ← hvalue, hsvc]
    rfl
  rw [if_neg hsvc]
  by_cases hspan : key = spanNameAttrKey ∧ row.table = .spanAttributes
  · rw [if_pos hspan, if_pos (.inr (.inr (.inl hspan))), ← hvalue, hspan.1, hspan.2]
    rfl
  · have hmetric : ¬ (key = metricNameAttrKey ∧ row.table = .metricAttributes) :=
      fun h => hname ⟨h.2, h.1⟩
    rw [if_neg hspan, if_neg (by simp [henv, hsvc, hspan, hmetric])]

variable {f : LogAttrFilter}

theorem attrCond_eval {row : Row} (hname : ¬ f.AsksForMetricName row.table) :
    (attrCond cfg engine row.table f).eval engine row = .yes ↔ f.Holds cfg engine row := by
  have hvalue := attrExpr_eval cfg f.key row
  have hmap : row.map row.table = row.attributes := by simp [Row.map]
  unfold LogAttrFilter.AsksForMetricName at hname
  unfold attrCond LogAttrFilter.Holds
  cases hop : f.op with
  | present =>
    have hattr : HasAttr cfg f.key row ↔ _ := hasAttr_iff cfg fun h => hname ⟨h.1, h.2, .inl hop⟩
    simp only [hattr]
    cases presenceExpr cfg row.table f.key with
    | some e => simp [Cond.eval]
    | none => simp [Cond.eval, hmap]
  | absent =>
    have hattr : HasAttr cfg f.key row ↔ _ := hasAttr_iff cfg fun h => hname ⟨h.1, h.2, .inr hop⟩
    simp only [hattr]
    cases presenceExpr cfg row.table f.key with
    | some e => simp [Cond.eval]
    | none => simp [Cond.eval, hmap]
  | gt => exact compare_eval cfg engine .gt f row
  | gte => exact compare_eval cfg engine .gte f row
  | lt => exact compare_eval cfg engine .lt f row
  | lte => exact compare_eval cfg engine .lte f row
  | unknown op => simp [Cond.eval]
  | _ => simp [Cond.eval, TextOp.eval, hvalue]

/-! ### It reads columns of the table, and writes no question mark -/

theorem attrExpr_isIn (primaryMap : PrimaryMap) (key : String) :
    (attrExpr cfg primaryMap key).isIn primaryMap := by
  unfold attrExpr
  split
  · rfl
  split
  · rename_i h
    simp [Expr.isIn, Column.isIn, h.2]
  split
  · rename_i h
    simp [Expr.isIn, Column.isIn, h.2]
  · split <;> simp [Expr.isIn, Column.isIn]

theorem presenceExpr_isIn {e : Expr} (h : presenceExpr cfg primaryMap key = some e) :
    e.isIn primaryMap := by
  unfold presenceExpr at h
  split at h
  · cases h
    rfl
  split at h
  · cases h
    rfl
  split at h
  · rename_i hspan
    cases h
    simp [Expr.isIn, Column.isIn, hspan.2]
  · cases h

theorem attrCond_runsOn (primaryMap : PrimaryMap) (f : LogAttrFilter) :
    (attrCond cfg engine primaryMap f).runsOn primaryMap := by
  have heff := attrExpr_isIn cfg primaryMap f.key
  have hnumber (op : NumOp) :
      runsOn primaryMap (match engine.parseFloat f.value with
        | none => never
        | some n => number op (attrExpr cfg primaryMap f.key) (Arg.number n)) := by
    cases engine.parseFloat f.value with
    | none => rfl
    | some n => exact heff
  unfold attrCond
  cases f.op with
  | present =>
    cases he : presenceExpr cfg primaryMap f.key with
    | some e => exact presenceExpr_isIn cfg he
    | none => simp [runsOn]
  | absent =>
    cases he : presenceExpr cfg primaryMap f.key with
    | some e => exact presenceExpr_isIn cfg he
    | none => simp [runsOn]
  | gt => exact hnumber .gt
  | gte => exact hnumber .gte
  | lt => exact hnumber .lt
  | lte => exact hnumber .lte
  | unknown op => rfl
  | _ => exact heff

/-- The names a key and the environment's setting write into a clause. -/
structure CleanNames (key : String) : Prop where
  key : '?' ∉ key.toList
  environment : '?' ∉ (environmentExpr cfg).toList

theorem attrKeyRe_clean (h : attrKeyRe key) : '?' ∉ key.toList := by
  intro hmem
  unfold attrKeyRe at h
  cases hkey : key.toList with
  | nil =>
    rw [hkey] at hmem
    exact List.not_mem_nil hmem
  | cons c cs =>
    rw [hkey] at h hmem
    simp only [Bool.and_eq_true, decide_eq_true_eq, List.all_eq_true, Bool.or_eq_true] at h
    cases hmem with
    | head => exact absurd h.1.1 (by decide)
    | tail _ hmem => exact absurd (h.2 '?' hmem) (by decide)

variable {cfg}

theorem PrimaryMap.text_clean (m : PrimaryMap) : '?' ∉ m.text.toList := by
  cases m <;> decide

theorem attribute_text_mark (m : PrimaryMap) (key : String) :
    '?' ∈ (Expr.attr m key).text.toList ↔ '?' ∈ key.toList := by
  have hm := m.text_clean
  unfold Expr.text
  simp [hm]

def writtenName (cfg : EnvironmentConfig) (key : String) : String :=
  if key = environmentAttrKey then environmentExpr cfg else key

theorem attrExpr_text_mark (primaryMap : PrimaryMap) (key : String) :
    '?' ∈ (attrExpr cfg primaryMap key).text.toList ↔ '?' ∈ (writtenName cfg key).toList := by
  unfold attrExpr writtenName
  by_cases henv : key = environmentAttrKey
  · rw [if_pos henv, if_pos henv]
    rfl
  rw [if_neg henv, if_neg henv]
  -- the keys of columns are names without a question mark
  by_cases hmetric : key = metricNameAttrKey ∧ primaryMap = .metricAttributes
  · rw [if_pos hmetric, hmetric.1]
    decide
  rw [if_neg hmetric]
  by_cases hspan : key = spanNameAttrKey ∧ primaryMap = .spanAttributes
  · rw [if_pos hspan, hspan.1]
    decide
  rw [if_neg hspan]
  by_cases hservice : key = serviceNameAttrKey
  · rw [if_pos hservice, hservice]
    decide
  rw [if_neg hservice]
  exact attribute_text_mark primaryMap key

theorem presenceExpr_text_mark {e : Expr} (he : presenceExpr cfg primaryMap key = some e) :
    '?' ∈ e.text.toList ↔ '?' ∈ (writtenName cfg key).toList := by
  unfold presenceExpr at he
  unfold writtenName
  by_cases henv : key = environmentAttrKey
  · rw [if_pos henv] at he ⊢
    cases he
    rfl
  rw [if_neg henv] at he ⊢
  by_cases hservice : key = serviceNameAttrKey
  · rw [if_pos hservice] at he
    cases he
    rw [hservice]
    decide
  rw [if_neg hservice] at he
  by_cases hspan : key = spanNameAttrKey ∧ primaryMap = .spanAttributes
  · rw [if_pos hspan] at he
    cases he
    rw [hspan.1]
    decide
  rw [if_neg hspan] at he
  cases he

theorem writtenName_of_presenceExpr (he : presenceExpr cfg primaryMap key = none) :
    writtenName cfg key = key := by
  unfold presenceExpr at he
  by_cases henv : key = environmentAttrKey
  · rw [if_pos henv] at he
    cases he
  · exact if_neg henv

theorem Cond.clean_text (op : TextOp) (e : Expr) (v : Arg F) :
    (Cond.text op e v).Clean ↔ '?' ∉ e.text.toList := by
  unfold Cond.Clean
  cases op <;> simp [tokens, Token.Clean]

theorem Cond.clean_number (op : NumOp) (e : Expr) (v : Arg F) :
    (number op e v).Clean ↔ '?' ∉ e.text.toList := by
  have hop : '?' ∉ op.text.toList := by cases op <;> decide
  unfold Cond.Clean
  simp [tokens, Token.Clean, hop]

theorem Cond.clean_nonEmpty (e : Expr) :
    (nonEmpty e : Cond (Arg F)).Clean ↔ '?' ∉ e.text.toList := by
  unfold Cond.Clean
  cases e with
  | column c =>
    show (∀ t ∈ (nonEmpty (.column c) : Cond (Arg F)).tokens, t.Clean) ↔ '?' ∉ c.text.toList
    simp [tokens, Token.Clean]
  | attr m key => simp [tokens, Token.Clean]
  | environment c => simp [tokens, Token.Clean]

theorem Cond.clean_isEmpty (e : Expr) : (isEmpty e : Cond (Arg F)).Clean ↔ '?' ∉ e.text.toList := by
  unfold Cond.Clean
  cases e with
  | column c =>
    show (∀ t ∈ (isEmpty (.column c) : Cond (Arg F)).tokens, t.Clean) ↔ '?' ∉ c.text.toList
    simp [tokens, Token.Clean]
  | attr m key => simp [tokens, Token.Clean]
  | environment c => simp [tokens, Token.Clean]

theorem Cond.clean_present (m : PrimaryMap) (key : String) :
    (present m key : Cond (Arg F)).Clean ↔ '?' ∉ key.toList := by
  have hm := m.text_clean
  unfold Cond.Clean
  simp [tokens, Token.Clean, hm]

theorem Cond.clean_absent (m : PrimaryMap) (key : String) :
    (absent m key : Cond (Arg F)).Clean ↔ '?' ∉ key.toList := by
  have hm := m.text_clean
  unfold Cond.Clean
  simp [tokens, Token.Clean, hm]

theorem Cond.clean_never : (never : Cond (Arg F)).Clean := by
  intro t ht
  obtain rfl := List.mem_singleton.1 ht
  simp [Token.Clean]

/-- The operator is known, and what it compares with a number is one. -/
def LogAttrFilter.asked (engine : Engine F) (f : LogAttrFilter) : Bool :=
  match f.op with
  | .gt | .gte | .lt | .lte => (engine.parseFloat f.value).isSome
  | .unknown _ => false
  | _ => true

/-- The predicate writes a question mark of its own into the text. -/
def LogAttrFilter.WritesMark (cfg : EnvironmentConfig) (engine : Engine F) (f : LogAttrFilter) :
    Prop :=
  f.asked engine ∧ '?' ∈ (writtenName cfg f.key).toList

/-- A rendered predicate writes no question mark besides its placeholders, unless its name has
one. -/
theorem attrCond_clean_iff :
    (attrCond cfg engine primaryMap f).Clean ↔ ¬ f.WritesMark cfg engine := by
  have hexpr := not_congr (@attrExpr_text_mark cfg primaryMap f.key)
  have hname : f.asked engine →
      ('?' ∉ (writtenName cfg f.key).toList ↔ ¬ f.WritesMark cfg engine) :=
    fun hasked => not_congr (and_iff_right hasked).symm
  have hnumber (op : NumOp) (hop : f.asked engine = (engine.parseFloat f.value).isSome) :
      Cond.Clean (match engine.parseFloat f.value with
        | none => never
        | some n => number op (attrExpr cfg primaryMap f.key) (Arg.number n)) ↔
      ¬ f.WritesMark cfg engine := by
    cases hn : engine.parseFloat f.value with
    | none =>
      refine iff_of_true clean_never fun h => ?_
      have hasked := h.1
      rw [hop, hn] at hasked
      cases hasked
    | some n =>
      rw [hn] at hop
      exact (clean_number op _ _).trans (hexpr.trans (hname hop))
  have htext (op : TextOp) (v : Arg F) (hop : f.asked engine) :
      (Cond.text op (attrExpr cfg primaryMap f.key) v).Clean ↔ ¬ f.WritesMark cfg engine :=
    (clean_text op _ v).trans (hexpr.trans (hname hop))
  unfold attrCond
  cases hop : f.op with
  | present =>
    have hasked : f.asked engine := by rw [asked, hop]
    rw [← hname hasked]
    cases he : presenceExpr cfg primaryMap f.key with
    | some e => exact (clean_nonEmpty e).trans (not_congr (presenceExpr_text_mark he))
    | none =>
      rw [writtenName_of_presenceExpr he]
      exact clean_present primaryMap f.key
  | absent =>
    have hasked : f.asked engine := by rw [asked, hop]
    rw [← hname hasked]
    cases he : presenceExpr cfg primaryMap f.key with
    | some e => exact (clean_isEmpty e).trans (not_congr (presenceExpr_text_mark he))
    | none =>
      rw [writtenName_of_presenceExpr he]
      exact clean_absent primaryMap f.key
  | gt => exact hnumber .gt (by rw [asked, hop])
  | gte => exact hnumber .gte (by rw [asked, hop])
  | lt => exact hnumber .lt (by rw [asked, hop])
  | lte => exact hnumber .lte (by rw [asked, hop])
  | unknown op =>
    refine iff_of_true clean_never fun h => ?_
    have hasked := h.1
    rw [asked, hop] at hasked
    cases hasked
  | _ => exact htext _ _ (by rw [asked, hop])

theorem CleanNames.not_writesMark (h : CleanNames cfg f.key) : ¬ f.WritesMark cfg engine := by
  rintro ⟨_, hmark⟩
  unfold writtenName at hmark
  split at hmark
  · exact h.environment hmark
  · exact h.key hmark

end Rendered

end Sluicio.Store
