import Mathlib.Data.Finset.SDiff
import Mathlib.Data.Finset.Filter

/-!
# Boolean-expression policies

The AND/OR/NOT tree an access policy carries and the set of names it accepts.
The evaluator is total and fails closed: an unknown operator, a `not` without
exactly one child, or a leaf it does not know accepts nothing.
-/

namespace Sluicio.Identity

/-- One node of a policy expression: an operator when `op` is set, else a leaf.
A leaf whose `attr` is `""` matches the name itself. -/
inductive PolicyExpr where
  | node (op : String) (children : List PolicyExpr)
      (attr matchOp value : String) (values : List String)

def PolicyExpr.leaf (attr matchOp value : String) (values : List String := []) :
    PolicyExpr :=
  .node "" [] attr matchOp value values

/-- What the evaluator looks names and attributes up in.  `attrs name key` is the
resource attribute `key` of service `name`; `compile` is `regexp.Compile`. -/
structure ExprEnv where
  names : List String
  attrs : String → String → Option String
  compile : String → Option (String → Bool)

/-- `matchLeaf`: one leaf's operator on one subject; `none` is an absent
attribute. -/
def matchLeaf (compile : String → Option (String → Bool)) (matchOp value : String)
    (values : List String) (subject : Option String) : Bool :=
  if matchOp = "exists" then subject.isSome
  else if matchOp = "not_exists" then subject.isNone
  else if matchOp = "not_equals" then
    match subject with
    | none => true
    | some s => s != value
  else
    match subject with
    | none => false
    | some s =>
      if matchOp = "equals" then s == value
      else if matchOp = "prefix" then value.toList.isPrefixOf s.toList
      else if matchOp = "suffix" then value.toList.isSuffixOf s.toList
      else if matchOp = "contains" then decide (value.toList <:+: s.toList)
      else if matchOp = "regex" then
        match compile value with
        | some re => re s
        | none => false
      else if matchOp = "in" then s ∈ values
      else false

/-- `evalLeaf`: the names of the universe a leaf accepts. -/
def evalLeaf (env : ExprEnv) (attr matchOp value : String) (values : List String) :
    Finset String :=
  if matchOp = "regex" ∧ env.compile value = none then ∅
  else
    env.names.toFinset.filter fun name =>
      matchLeaf env.compile matchOp value values
        (if attr = "" then some name else env.attrs name attr)

mutual

/-- `evalExpr`: the names a tree accepts. -/
def evalExpr (env : ExprEnv) : PolicyExpr → Finset String
  | .node op children attr matchOp value values =>
    if op = "" then evalLeaf env attr matchOp value values
    else if op.toLower = "and" then evalAnd env children
    else if op.toLower = "or" then evalOr env children
    else if op.toLower = "not" then evalNot env children
    else ∅

def evalAnd (env : ExprEnv) : List PolicyExpr → Finset String
  | [] => ∅
  | [e] => evalExpr env e
  | e :: es => evalExpr env e ∩ evalAnd env es

def evalOr (env : ExprEnv) : List PolicyExpr → Finset String
  | [] => ∅
  | e :: es => evalExpr env e ∪ evalOr env es

def evalNot (env : ExprEnv) : List PolicyExpr → Finset String
  | [e] => env.names.toFinset \ evalExpr env e
  | _ => ∅

end

/-! ## Nothing outside the universe -/

theorem evalLeaf_subset (env : ExprEnv) (attr matchOp value : String) (values : List String) :
    evalLeaf env attr matchOp value values ⊆ env.names.toFinset := by
  unfold evalLeaf
  split
  · exact Finset.empty_subset _
  · exact Finset.filter_subset _ _

mutual

/-- **A tree accepts only names of the universe it is evaluated over**, whatever
its shape: a malformed tree loses access and a complement stays inside the
organization's own names. -/
theorem evalExpr_subset (env : ExprEnv) : (e : PolicyExpr) → evalExpr env e ⊆ env.names.toFinset
  | .node op children attr matchOp value values => by
    unfold evalExpr
    split_ifs
    · exact evalLeaf_subset env attr matchOp value values
    · exact evalAnd_subset env children
    · exact evalOr_subset env children
    · exact evalNot_subset env children
    · exact Finset.empty_subset _

theorem evalAnd_subset (env : ExprEnv) :
    (es : List PolicyExpr) → evalAnd env es ⊆ env.names.toFinset
  | [] => by simp [evalAnd]
  | [e] => by simpa [evalAnd] using evalExpr_subset env e
  | e :: _ :: _ => by
    rw [evalAnd.eq_3 _ _ _ (by simp)]
    exact Finset.inter_subset_left.trans (evalExpr_subset env e)

theorem evalOr_subset (env : ExprEnv) : (es : List PolicyExpr) → evalOr env es ⊆ env.names.toFinset
  | [] => by simp [evalOr]
  | e :: es => by
    simpa [evalOr] using Finset.union_subset (evalExpr_subset env e) (evalOr_subset env es)

theorem evalNot_subset (env : ExprEnv) :
    (es : List PolicyExpr) → evalNot env es ⊆ env.names.toFinset
  | [] => by simp [evalNot]
  | [_] => by simp [evalNot, Finset.sdiff_subset]
  | _ :: _ :: _ => by simp [evalNot]

end

end Sluicio.Identity
