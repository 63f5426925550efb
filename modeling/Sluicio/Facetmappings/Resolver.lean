import Sluicio.Demand.Config
import Sluicio.Lib.Fragment

/-!
# Facet mappings

A mapping classifies the spans of a service that do not say themselves which `io.kind` and
`io.role` they have.  `buildResolver` compiles a service's mappings into two SQL expressions
with positional arguments; `effective` is what they are for.
-/

namespace Sluicio.Facetmappings

open Demand (Mapping MappingOperator)
open Lib Fragment

inductive Value where
  | str (s : String)
  | time (t : Int)
  | bool (b : Bool)
  | map (entries : List (String × String))
  | null
  deriving DecidableEq

/-- What a filter reads of a row of `traces`. -/
structure Span where
  serviceName : String
  timestamp : Int
  spanKind : String
  spanAttributes : List (String × String)
  resourceAttributes : List (String × String)

/-- `m[key]`: empty when the map has no such key. -/
def entry (entries : List (String × String)) (key : String) : String :=
  (entries.lookup key).getD ""

/-- `position(s, t) > 0`. -/
def occurs (t : List Char) : List Char → Bool
  | [] => t.isEmpty
  | c :: cs => t.isPrefixOf (c :: cs) || occurs t cs

/-! ### Functions of SQL

`none` is an expression that is not well typed. -/

def index : List Value → Option Value
  | [.map entries, .str key] => some (.str (entry entries key))
  | _ => none

def equal : List Value → Option Value
  | [.str s, .str t] => some (.bool (s = t))
  | _ => none

/-- A function of two texts that answers yes or no. -/
def asks (f : String → String → Bool) : List Value → Option Value
  | [.str s, .str t] => some (.bool (f s t))
  | _ => none

def notEqual : List Value → Option Value := asks fun s t => s ≠ t

def nullIf : List Value → Option Value
  | [a, b] => some (if a = b then .null else a)
  | _ => none

def coalesce (vs : List Value) : Value := (vs.find? (· ≠ .null)).getD .null

def mapContains : List Value → Option Value
  | [.map entries, .str key] => some (.bool (entries.lookup key).isSome)
  | _ => none

/-- `k IN (…)`. -/
def isIn : List Value → Option Value
  | .str k :: vs => some (.bool (vs.contains (.str k)))
  | _ => none

def truth : Value → Option Bool
  | .bool b => some b
  | _ => none

/-- `… AND …`. -/
def allOf (vs : List Value) : Option Value := (vs.mapM truth).map fun bs => .bool (bs.all id)

/-- `… OR …`. -/
def anyOf (vs : List Value) : Option Value := (vs.mapM truth).map fun bs => .bool (bs.any id)

/-- The arms of a `CASE`, each its condition and its value, with `''` for no match. -/
def caseOf : List Value → Option Value
  | [] => some (.str "")
  | .bool true :: v :: _ => some v
  | .bool false :: _ :: rest => caseOf rest
  | _ => none

/-! ### The language of the fragments -/

inductive Column where
  | spanKind | spanAttributes | resourceAttributes

def Column.name : Column → String
  | .spanKind => "SpanKind"
  | .spanAttributes => "SpanAttributes"
  | .resourceAttributes => "ResourceAttributes"

def Column.value (s : Span) : Column → Value
  | .spanKind => .str s.spanKind
  | .spanAttributes => .map s.spanAttributes
  | .resourceAttributes => .map s.resourceAttributes

inductive Function where
  | startsWith | endsWith | coalesce | nullIf | mapContains

def Function.name : Function → String
  | .startsWith => "startsWith"
  | .endsWith => "endsWith"
  | .coalesce => "coalesce"
  | .nullIf => "nullIf"
  | .mapContains => "mapContains"

def Function.apply : Function → List Value → Option Value
  | .startsWith => asks fun s t => t.toList.isPrefixOf s.toList
  | .endsWith => asks fun s t => t.toList.isSuffixOf s.toList
  | .coalesce => fun vs => some (Facetmappings.coalesce vs)
  | .nullIf => Facetmappings.nullIf
  | .mapContains => Facetmappings.mapContains

inductive Operator where
  | column (c : Column)
  /-- a text in quotes, without a quote or a backslash in it -/
  | literal (s : String)
  | call (f : Function)
  /-- `m[key]` -/
  | index
  | equal
  | notEqual
  /-- `position(…, …) > 0` -/
  | position
  /-- `1=0` -/
  | never
  | case
  | isIn
  | and
  | or
  | parens

/-- The pieces of a `CASE` with `n` conditions and values. -/
def casePieces (opening : String) : Nat → List String
  | n + 2 => opening :: " THEN " :: casePieces " WHEN " n
  | _ => [" ELSE '' END"]

/-- How an operator is written around `n` operands. -/
def Operator.pieces : Operator → Nat → List String
  | column c, _ => [c.name]
  | literal s, _ => ["'" ++ s ++ "'"]
  | call f, n => listPieces (f.name ++ "(") ", " ")" n
  | index, _ => ["", "[", "]"]
  | equal, _ => ["", " = ", ""]
  | notEqual, _ => ["", " != ", ""]
  | position, _ => ["position(", ", ", ") > 0"]
  | never, _ => ["1=0"]
  | case, n => casePieces "CASE WHEN " n
  | isIn, n => "" :: listPieces " IN (" "," ")" (n - 1)
  | and, n => listPieces "" " AND " "" n
  | or, n => listPieces "" " OR " "" n
  | parens, _ => ["(", ")"]

/-- The value of an operator on a row. -/
def Operator.value : Operator → Span → List Value → Option Value
  | column c, s, [] => some (c.value s)
  | literal t, _, [] => some (.str t)
  | call f, _, vs => f.apply vs
  | index, _, vs => Facetmappings.index vs
  | equal, _, vs => Facetmappings.equal vs
  | notEqual, _, vs => Facetmappings.notEqual vs
  | position, _, vs => asks (fun s t => occurs t.toList s.toList) vs
  | never, _, [] => some (.bool false)
  | case, _, vs => caseOf vs
  | isIn, _, vs => Facetmappings.isIn vs
  | and, _, vs => allOf vs
  | or, _, vs => anyOf vs
  | parens, _, [v] => some v
  | _, _, _ => none

def clickhouse : Language Operator Value Span := ⟨Operator.pieces, Operator.value⟩

/-! ## Compilation -/

/-- A piece of SQL on the rows of `traces`. -/
abbrev Sql := Fragment Operator

/-- A piece of SQL and its arguments. -/
abbrev Part := Sql × List Value

structure Resolver where
  kindExpr : Sql
  kindArgs : List Value := []
  roleExpr : Sql
  roleArgs : List Value := []

def column (c : Column) : Sql := node (.column c) []

def literal (s : String) : Sql := node (.literal s) []

/-- `SpanAttributes['…']`. -/
def rawExpr (key : String) : Sql := node .index [column .spanAttributes, literal key]

def identityResolver : Resolver where
  kindExpr := rawExpr "io.kind"
  roleExpr := rawExpr "io.role"

def attrExpr (m : Mapping) : Sql :=
  match m.attributeSource with
  | .resource => node .index [column .resourceAttributes, hole]
  | _ => node .index [column .spanAttributes, hole]

/-- One mapping's WHEN condition, and the arguments of its placeholders. -/
def conditionSQL (m : Mapping) : Part :=
  match m.matchOperator with
  | .equals => (node .equal [attrExpr m, hole], [.str m.attributeKey, .str m.matchValue])
  | .startsWith =>
    (node (.call .startsWith) [attrExpr m, hole], [.str m.attributeKey, .str m.matchValue])
  | .endsWith =>
    (node (.call .endsWith) [attrExpr m, hole], [.str m.attributeKey, .str m.matchValue])
  | .contains => (node .position [attrExpr m, hole], [.str m.attributeKey, .str m.matchValue])
  | .exists => (node .notEqual [attrExpr m, literal ""], [.str m.attributeKey])
  -- an operator that is not known fails closed
  | .other _ => (node .never [], [])

/-- The arms of a `CASE`, joined. -/
def whens (mappings : List Mapping) : Sql :=
  node .case (mappings.flatMap fun m => [(conditionSQL m).1, hole])

/-- The span's own value, or what the `CASE` answers. -/
def effectiveExpr (key : String) (mappings : List Mapping) : Sql :=
  node (.call .coalesce) [node (.call .nullIf) [rawExpr key, literal ""], whens mappings]

def buildResolver (mappings : List Mapping) : Resolver :=
  if mappings = [] then identityResolver
  else
    { kindExpr := effectiveExpr "io.kind" mappings
      kindArgs := mappings.flatMap fun m => (conditionSQL m).2 ++ [.str m.setIOKind]
      roleExpr := effectiveExpr "io.role" mappings
      roleArgs := mappings.flatMap fun m => (conditionSQL m).2 ++ [.str m.setIORole] }

def attributeOf (m : Mapping) (s : Span) : String :=
  match m.attributeSource with
  | .resource => entry s.resourceAttributes m.attributeKey
  | _ => entry s.spanAttributes m.attributeKey

/-- What an operator asks of an attribute's value. -/
def Accepts (value actual : String) : MappingOperator → Prop
  | .equals => actual = value
  | .startsWith => value.toList <+: actual.toList
  | .endsWith => value.toList <:+ actual.toList
  | .contains => value.toList <:+: actual.toList
  | .exists => actual ≠ ""
  | .other _ => False

instance (value actual : String) : (op : MappingOperator) → Decidable (Accepts value actual op)
  | .equals => inferInstanceAs (Decidable (_ = _))
  | .startsWith => inferInstanceAs (Decidable (_ <+: _))
  | .endsWith => inferInstanceAs (Decidable (_ <:+ _))
  | .contains => inferInstanceAs (Decidable (_ <:+: _))
  | .exists => inferInstanceAs (Decidable (_ ≠ _))
  | .other _ => inferInstanceAs (Decidable False)

def Meets (m : Mapping) (s : Span) : Prop := Accepts m.matchValue (attributeOf m s) m.matchOperator

instance (m : Mapping) (s : Span) : Decidable (Meets m s) :=
  inferInstanceAs (Decidable (Accepts ..))

def effective (mappings : List Mapping) (set : Mapping → String) (own : String) (s : Span) :
    String :=
  if own ≠ "" then own
  else ((mappings.find? fun m => Meets m s).map set).getD ""

def effectiveKind (mappings : List Mapping) (s : Span) : String :=
  effective mappings Mapping.setIOKind (entry s.spanAttributes "io.kind") s

def effectiveRole (mappings : List Mapping) (s : Span) : String :=
  effective mappings Mapping.setIORole (entry s.spanAttributes "io.role") s

/-! ## Each expression has its meaning -/

theorem occurs_iff {t text : List Char} : occurs t text ↔ t <:+: text := by
  induction text with
  | nil => simp [occurs]
  | cons c cs ih => simp [occurs, List.infix_cons_iff, ih]

/-! Every operator is written without a placeholder of its own. -/

theorem casePieces_plain {opening : String} (hopening : '?' ∉ opening.toList) (k : Nat) :
    (∀ p ∈ casePieces opening (2 * k), '?' ∉ p.toList) ∧
      (casePieces opening (2 * k)).length = 2 * k + 1 := by
  induction k generalizing opening with
  | zero =>
    have helse : ∀ p ∈ [" ELSE '' END"], '?' ∉ p.toList := by decide
    exact ⟨helse, rfl⟩
  | succ k ih =>
    have hwhen : '?' ∉ " WHEN ".toList := by decide
    obtain ⟨hplain, hlength⟩ := ih hwhen
    rw [show 2 * (k + 1) = 2 * k + 2 by omega, casePieces]
    refine ⟨?_, by simp [hlength]⟩
    rw [List.forall_mem_cons, List.forall_mem_cons]
    exact ⟨hopening, by decide, hplain⟩

theorem plain_case (k : Nat) : Plain clickhouse .case (2 * k) :=
  ⟨(casePieces_plain (by decide) k).1, (casePieces_plain (by decide) k).2⟩

theorem plain_call (f : Function) (n : Nat) : Plain clickhouse (.call f) n where
  pieces _ hp := listPieces_plain (by cases f <;> decide) (by decide) (by decide) hp
  length := length_listPieces _ _ _ n

variable {op : Operator} {key : String}

theorem plain_joined {sep : String} (hop : ∀ n, clickhouse.pieces op n = listPieces "" sep "" n)
    (hsep : '?' ∉ sep.toList) (n : Nat) : Plain clickhouse op n where
  pieces p hp := listPieces_plain (by decide) hsep (by decide) (hop n ▸ hp)
  length := (congrArg List.length (hop n)).trans (length_listPieces _ _ _ n)

theorem plain_isIn (n : Nat) : Plain clickhouse .isIn (n + 1) where
  pieces := by
    show ∀ p ∈ "" :: listPieces " IN (" "," ")" n, '?' ∉ p.toList
    rw [List.forall_mem_cons]
    exact ⟨by decide, fun p hp => listPieces_plain (by decide) (by decide) (by decide) hp⟩
  length := congrArg (· + 1) (length_listPieces " IN (" "," ")" n)

theorem plain_binary (hop : op = .index ∨ op = .equal ∨ op = .notEqual ∨
    op = .position) : Plain clickhouse op 2 := by
  rcases hop with rfl | rfl | rfl | rfl <;> exact ⟨by decide, rfl⟩

theorem answers_column (c : Column) : (column c).Answers clickhouse [] c.value :=
  answers_leaf ⟨by cases c <;> decide, rfl⟩ fun _ => rfl

theorem answers_literal {s : String} (hs : '?' ∉ ("'" ++ s ++ "'").toList) :
    (literal s).Answers clickhouse [] fun _ => .str s :=
  answers_leaf ⟨List.forall_mem_singleton.2 hs, rfl⟩ fun _ => rfl

theorem answers_attrExpr (m : Mapping) :
    (attrExpr m).Answers clickhouse [.str m.attributeKey] fun s => .str (attributeOf m s) := by
  have hkey : Answers clickhouse hole [.str m.attributeKey] fun _ => .str m.attributeKey :=
    answers_hole _
  have hplain : Plain clickhouse .index 2 := plain_binary (.inl rfl)
  unfold attrExpr attributeOf
  cases m.attributeSource with
  | span => exact answers_pair (answers_column .spanAttributes) hkey hplain fun _ => rfl
  | resource => exact answers_pair (answers_column .resourceAttributes) hkey hplain fun _ => rfl
  | other name => exact answers_pair (answers_column .spanAttributes) hkey hplain fun _ => rfl

theorem answers_conditionSQL (m : Mapping) :
    (conditionSQL m).1.Answers clickhouse (conditionSQL m).2 fun s => .bool (Meets m s) := by
  have hattr := answers_attrExpr m
  have hvalue : Answers clickhouse hole [.str m.matchValue] fun _ => .str m.matchValue :=
    answers_hole _
  have hmeets (s : Span) : Meets m s ↔
      Accepts m.matchValue (attributeOf m s) m.matchOperator := Iff.rfl
  unfold conditionSQL
  simp only [hmeets]
  cases m.matchOperator with
  | equals => exact answers_pair hattr hvalue (plain_binary (by simp)) fun _ => rfl
  | startsWith =>
    refine answers_pair hattr hvalue (plain_call _ 2) fun s => ?_
    simp [clickhouse, Operator.value, Function.apply, asks, Accepts,
      ← List.isPrefixOf_iff_prefix]
  | endsWith =>
    refine answers_pair hattr hvalue (plain_call _ 2) fun s => ?_
    simp [clickhouse, Operator.value, Function.apply, asks, Accepts,
      ← List.isSuffixOf_iff_suffix]
  | contains =>
    refine answers_pair hattr hvalue (plain_binary (by simp)) fun s => ?_
    simp [clickhouse, Operator.value, asks, Accepts, ← occurs_iff]
  | «exists» =>
    have hempty := answers_literal (s := "") (by decide)
    refine answers_pair hattr hempty (plain_binary (by simp)) fun s => ?_
    by_cases hattr : attributeOf m s = "" <;>
      simp [clickhouse, Operator.value, notEqual, asks, Accepts, hattr]
  | other name => exact answers_leaf ⟨by decide, rfl⟩ fun _ => rfl

/-- The condition of a mapping and the value it sets. -/
def armBounds (set : Mapping → String) (m : Mapping) : List (Bound Operator Value Span) :=
  [⟨(conditionSQL m).1, (conditionSQL m).2, fun s => .bool (Meets m s)⟩,
    ⟨hole, [.str (set m)], fun _ => .str (set m)⟩]

theorem caseOf_arms (mappings : List Mapping) (set : Mapping → String) (s : Span) :
    caseOf ((mappings.flatMap (armBounds set)).map fun b => b.value s) =
      some (.str (((mappings.find? fun m => Meets m s).map set).getD "")) := by
  induction mappings with
  | nil => rfl
  | cons m mappings ih =>
    by_cases hmeets : Meets m s
    · simp [armBounds, caseOf, hmeets]
    · simpa [armBounds, caseOf, hmeets] using ih

/-- The `CASE` answers what the first mapping sets whose condition the span meets. -/
theorem answers_whens (mappings : List Mapping) (set : Mapping → String) :
    (whens mappings).Answers clickhouse
      (mappings.flatMap fun m => (conditionSQL m).2 ++ [.str (set m)])
      fun s => .str (((mappings.find? fun m => Meets m s).map set).getD "") := by
  have hsound : ∀ b ∈ mappings.flatMap (armBounds set), b.Sound clickhouse := by
    intro b hb
    obtain ⟨m, -, hb⟩ := List.mem_flatMap.1 hb
    rcases List.mem_pair.1 hb with rfl | rfl
    · exact answers_conditionSQL m
    · exact answers_hole _
  have hlength : (mappings.flatMap (armBounds set)).length = 2 * mappings.length := by
    simp [List.length_flatMap, armBounds, Nat.mul_comm]
  have hplain : Plain clickhouse .case (mappings.flatMap (armBounds set)).length :=
    hlength ▸ plain_case mappings.length
  have hvalue (s : Span) : clickhouse.value .case s _ = some (.str _) :=
    caseOf_arms mappings set s
  have hnode := answers_node hsound hplain hvalue
  simpa [whens, List.map_flatMap, List.flatMap_assoc, armBounds] using hnode

theorem answers_rawExpr (hkey : '?' ∉ ("'" ++ key ++ "'").toList) :
    (rawExpr key).Answers clickhouse [] fun s => .str (entry s.spanAttributes key) :=
  answers_pair (answers_column .spanAttributes) (answers_literal hkey) (plain_binary (.inl rfl))
    fun _ => rfl

/-- The expression of a key has the effective value, whichever the key and what the
mappings set. -/
theorem answers_effectiveExpr (mappings : List Mapping) (set : Mapping → String)
    (hkey : '?' ∉ ("'" ++ key ++ "'").toList) :
    (effectiveExpr key mappings).Answers clickhouse
      (mappings.flatMap fun m => (conditionSQL m).2 ++ [.str (set m)])
      fun s => .str (effective mappings set (entry s.spanAttributes key) s) := by
  have hempty := answers_literal (s := "") (by decide)
  have hown := answers_pair (answers_rawExpr hkey) hempty (plain_call .nullIf 2) fun _ => rfl
  refine answers_pair hown (answers_whens mappings set) (plain_call .coalesce 2) fun s => ?_
  show some (coalesce _) = _
  unfold effective coalesce
  by_cases hown : entry s.spanAttributes key = ""
  · simp [hown]
  · simp [hown]

theorem effective_nil (set : Mapping → String) (own : String) (s : Span) :
    effective [] set own s = own := by
  by_cases hown : own = "" <;> simp [effective, hown]

theorem answers_kindExpr (mappings : List Mapping) :
    (buildResolver mappings).kindExpr.Answers clickhouse (buildResolver mappings).kindArgs
      fun s => .str (effectiveKind mappings s) := by
  by_cases hne : mappings = []
  · subst hne
    simp only [effectiveKind, effective_nil]
    exact answers_rawExpr (by decide)
  · rw [buildResolver, if_neg hne]
    exact answers_effectiveExpr mappings Mapping.setIOKind (by decide)

theorem answers_roleExpr (mappings : List Mapping) :
    (buildResolver mappings).roleExpr.Answers clickhouse (buildResolver mappings).roleArgs
      fun s => .str (effectiveRole mappings s) := by
  by_cases hne : mappings = []
  · subst hne
    simp only [effectiveRole, effective_nil]
    exact answers_rawExpr (by decide)
  · rw [buildResolver, if_neg hne]
    exact answers_effectiveExpr mappings Mapping.setIORole (by decide)

end Sluicio.Facetmappings
