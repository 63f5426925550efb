import Sluicio.Identity.Expr
import Sluicio.Lib.Fallible
import Mathlib.Data.Fintype.EquivFin

/-!
# What a policy expression means

`ValidateExpr` checks a tree before it is stored, and the evaluator takes any tree.  A tree is
read pointwise: it is true of a service or it is not, with the connectives of propositional
logic over conditions on the service's name and attributes.  On a tree that was accepted the
evaluator picks out the services of the universe the tree is true of.  A rejected tree has
parts without a meaning; the evaluator reads them as false, wherever they stand.
-/

namespace Sluicio.Identity

open Lib

def exprMaxDepth : Nat := 24
def exprMaxNodes : Nat := 256

inductive ExprError where
  | noTree
  | tooDeep
  | tooLarge
  | noChild (op : String)
  | notExactlyOne
  | unknownOperator (op : String)
  | leafFieldsSet
  | leafWithChildren
  | noValue (matchOp : String)
  | invalidRegex
  | noValues
  | onTheName (matchOp : String)
  | takesNoValue (matchOp : String)
  | noMatch
  | unknownMatch (matchOp : String)
  deriving DecidableEq

def validateOperator (op : String) (children : List PolicyExpr) : Except ExprError Unit :=
  match op.toLower with
  | "and" | "or" => if children = [] then .error (.noChild op.toLower) else .ok ()
  | "not" => if children.length ≠ 1 then .error .notExactlyOne else .ok ()
  | _ => .error (.unknownOperator op)

/-- The check on the condition of a leaf. -/
def validateLeaf (compile : String → Option (String → Bool)) (attr matchOp value : String)
    (values : List String) : Except ExprError Unit :=
  match matchOp with
  | "equals" | "not_equals" | "prefix" | "suffix" | "contains" =>
    if value = "" then .error (.noValue matchOp) else .ok ()
  | "regex" =>
    if value = "" then .error (.noValue matchOp)
    else if compile value = none then .error .invalidRegex
    else .ok ()
  | "in" => if values = [] then .error .noValues else .ok ()
  | "exists" | "not_exists" =>
    if attr = "" then .error (.onTheName matchOp)
    else if value ≠ "" ∨ values ≠ [] then .error (.takesNoValue matchOp)
    else .ok ()
  | "" => .error .noMatch
  | _ => .error (.unknownMatch matchOp)

mutual

/-- `validateExprNode`; it answers the number of nodes it has counted. -/
def validateExprNode (compile : String → Option (String → Bool)) (depth count : Nat) :
    PolicyExpr → Except ExprError Nat
  | .node op children attr matchOp value values =>
    if exprMaxDepth < depth then .error .tooDeep
    else if exprMaxNodes < count + 1 then .error .tooLarge
    else if op ≠ "" then do
      validateOperator op children
      if matchOp ≠ "" ∨ attr ≠ "" ∨ value ≠ "" ∨ values ≠ [] then .error .leafFieldsSet
      else validateChildren compile (depth + 1) (count + 1) children
    else if children ≠ [] then .error .leafWithChildren
    else do
      validateLeaf compile attr matchOp value values
      return count + 1

def validateChildren (compile : String → Option (String → Bool)) (depth count : Nat) :
    List PolicyExpr → Except ExprError Nat
  | [] => .ok count
  | e :: es => do
    let count ← validateExprNode compile depth count e
    validateChildren compile depth count es

end

def validateExpr (compile : String → Option (String → Bool)) (root : Option PolicyExpr) :
    Except ExprError Unit :=
  match root with
  | none => .error .noTree
  | some e => do
    let _ ← validateExprNode compile 1 0 e
    return ()

/-! ## The meaning of a tree -/

/-- What a condition can ask of a service. -/
structure Subject where
  name : String
  attrs : String → Option String

/-- The text a leaf is about, if the service has the attribute. -/
def Subject.value (s : Subject) (attr : String) : Option String :=
  if attr = "" then some s.name else s.attrs attr

/-- A service of the universe. -/
def ExprEnv.subject (env : ExprEnv) (name : String) : Subject := ⟨name, env.attrs name⟩

section Meaning

variable (compile : String → Option (String → Bool)) (s : Subject)

/-- The condition of a leaf.  An attribute that is absent differs from every value, and no
other comparison is true of it. -/
def LeafHolds (attr matchOp value : String) (values : List String) : Prop :=
  match matchOp with
  | "equals" => s.value attr = some value
  | "not_equals" => s.value attr ≠ some value
  | "prefix" => ∃ v, s.value attr = some v ∧ value.toList <+: v.toList
  | "suffix" => ∃ v, s.value attr = some v ∧ value.toList <:+ v.toList
  | "contains" => ∃ v, s.value attr = some v ∧ value.toList <:+: v.toList
  | "regex" => ∃ v re, s.value attr = some v ∧ compile value = some re ∧ re v
  | "in" => ∃ v ∈ values, s.value attr = some v
  | "exists" => s.value attr ≠ none
  | "not_exists" => s.value attr = none
  | _ => False

mutual

/-- The tree is true of the service. -/
def PolicyExpr.Holds : PolicyExpr → Prop
  | .node op children attr matchOp value values =>
    if op = "" then LeafHolds compile s attr matchOp value values
    else if op.toLower = "and" then AllHold children
    else if op.toLower = "or" then SomeHolds children
    else if op.toLower = "not" then ¬ SomeHolds children
    else False

def AllHold : List PolicyExpr → Prop
  | [] => True
  | e :: es => e.Holds ∧ AllHold es

def SomeHolds : List PolicyExpr → Prop
  | [] => False
  | e :: es => e.Holds ∨ SomeHolds es

end

mutual

/-- The tree is true of the service, each part that has no meaning read as false: an operator
that is not known, a conjunction of nothing, a negation of anything but one tree. -/
def PolicyExpr.Grants : PolicyExpr → Prop
  | .node op children attr matchOp value values =>
    if op = "" then LeafHolds compile s attr matchOp value values
    else if op.toLower = "and" then children ≠ [] ∧ AllGrant children
    else if op.toLower = "or" then SomeGrants children
    else if op.toLower = "not" then children.length = 1 ∧ ¬ SomeGrants children
    else False

def AllGrant : List PolicyExpr → Prop
  | [] => True
  | e :: es => e.Grants ∧ AllGrant es

def SomeGrants : List PolicyExpr → Prop
  | [] => False
  | e :: es => e.Grants ∨ SomeGrants es

end

variable {compile s} {es : List PolicyExpr}

theorem allGrant_iff : AllGrant compile s es ↔ ∀ e ∈ es, e.Grants compile s := by
  induction es with
  | nil => simp [AllGrant]
  | cons e es ih => simp [AllGrant, ih]

theorem someGrants_iff : SomeGrants compile s es ↔ ∃ e ∈ es, e.Grants compile s := by
  induction es with
  | nil => simp [SomeGrants]
  | cons e es ih => simp [SomeGrants, ih]

end Meaning

/-! ## The evaluator decides it -/

section Evaluator

variable {env : ExprEnv} {n : String} {values : List String} {matchOp value attr : String}

theorem matchLeaf_iff :
    matchLeaf env.compile matchOp value values ((env.subject n).value attr) ↔
      LeafHolds env.compile (env.subject n) attr matchOp value values := by
  unfold LeafHolds
  cases hsubject : (env.subject n).value attr with
  | none => split <;> simp_all [matchLeaf]
  | some v =>
    split
    · simp [matchLeaf]
    · simp [matchLeaf]
    · simp [matchLeaf, List.isPrefixOf_iff_prefix]
    · simp [matchLeaf]
    · simp [matchLeaf]
    · cases hcompile : env.compile value <;> simp [matchLeaf, hcompile]
    · simp [matchLeaf]
    · simp [matchLeaf]
    · simp [matchLeaf]
    · simp_all [matchLeaf]

theorem mem_evalLeaf_iff :
    n ∈ evalLeaf env attr matchOp value values ↔
      n ∈ env.names ∧ LeafHolds env.compile (env.subject n) attr matchOp value values := by
  rw [← matchLeaf_iff]
  unfold evalLeaf
  split
  · next hregex =>
    -- a pattern that does not compile matches nothing
    simp [matchLeaf, hregex.1, hregex.2]
    cases (env.subject n).value attr <;> simp
  · rw [Finset.mem_filter, List.mem_toFinset]
    rfl

mutual

/-- **The evaluator decides the tree pointwise**, whatever its shape. -/
theorem mem_evalExpr_iff : (e : PolicyExpr) →
    (n ∈ evalExpr env e ↔ n ∈ env.names ∧ e.Grants env.compile (env.subject n))
  | .node op children attr matchOp value values => by
    unfold evalExpr PolicyExpr.Grants
    split_ifs
    · exact mem_evalLeaf_iff
    · exact mem_evalAnd_iff children
    · exact mem_evalOr_iff children
    · exact mem_evalNot_iff children
    · simp

theorem mem_evalAnd_iff : (es : List PolicyExpr) →
    (n ∈ evalAnd env es ↔ n ∈ env.names ∧ es ≠ [] ∧ AllGrant env.compile (env.subject n) es)
  | [] => by simp [evalAnd]
  | [e] => by simp [evalAnd, AllGrant, mem_evalExpr_iff e]
  | e :: e' :: es => by
    rw [evalAnd.eq_3 _ _ _ (by simp), Finset.mem_inter, mem_evalExpr_iff e,
      mem_evalAnd_iff (e' :: es), AllGrant.eq_2 _ _ e]
    simp only [ne_eq, reduceCtorEq, not_false_eq_true, true_and]
    tauto

theorem mem_evalOr_iff : (es : List PolicyExpr) →
    (n ∈ evalOr env es ↔ n ∈ env.names ∧ SomeGrants env.compile (env.subject n) es)
  | [] => by simp [evalOr, SomeGrants]
  | e :: es => by
    rw [evalOr, SomeGrants, Finset.mem_union, mem_evalExpr_iff e, mem_evalOr_iff es, and_or_left]

theorem mem_evalNot_iff : (es : List PolicyExpr) →
    (n ∈ evalNot env es ↔
      n ∈ env.names ∧ es.length = 1 ∧ ¬ SomeGrants env.compile (env.subject n) es)
  | [] => by simp [evalNot]
  | [e] => by
    simp only [evalNot, Finset.mem_sdiff, List.mem_toFinset, mem_evalExpr_iff e, SomeGrants,
      List.length_singleton, true_and, or_false, not_and]
    tauto
  | _ :: _ :: _ => by simp [evalNot]

end

end Evaluator

section Accepted

variable {compile : String → Option (String → Bool)} {s : Subject}

mutual

theorem grants_iff_holds : (e : PolicyExpr) → {depth count total : Nat} →
    validateExprNode compile depth count e = .ok total → (e.Grants compile s ↔ e.Holds compile s)
  | .node op children attr matchOp value values, depth, count, total, h => by
    unfold validateExprNode at h
    unfold PolicyExpr.Grants PolicyExpr.Holds
    split at h
    · cases h
    split at h
    · cases h
    split at h
    · next hop =>
      obtain ⟨_, hoperator, h⟩ := bind_eq_ok.1 h
      split at h
      · cases h
      have hall := allGrant_iff_allHold children h
      have hsome := someGrants_iff_someHolds children h
      rw [if_neg hop, if_neg hop, hall, hsome]
      unfold validateOperator at hoperator
      split at hoperator
      · next hand =>
        have hchildren : children ≠ [] := by
          rintro rfl
          cases hoperator
        simp [hand, hchildren]
      · next hor => simp [hor]
      · next hnot =>
        have hone : children.length = 1 := by
          by_contra hlength
          rw [if_pos hlength] at hoperator
          cases hoperator
        simp [hnot, hone]
      · cases hoperator
    · next hleaf =>
      rw [if_pos (not_not.1 hleaf), if_pos (not_not.1 hleaf)]

theorem allGrant_iff_allHold : (es : List PolicyExpr) → {depth count total : Nat} →
    validateChildren compile depth count es = .ok total →
      (AllGrant compile s es ↔ AllHold compile s es)
  | [], _, _, _, _ => by simp [AllGrant, AllHold]
  | e :: es, _, _, _, h => by
    obtain ⟨_, hfirst, hrest⟩ := bind_eq_ok.1 h
    rw [AllGrant, AllHold, grants_iff_holds e hfirst, allGrant_iff_allHold es hrest]

theorem someGrants_iff_someHolds : (es : List PolicyExpr) → {depth count total : Nat} →
    validateChildren compile depth count es = .ok total →
      (SomeGrants compile s es ↔ SomeHolds compile s es)
  | [], _, _, _, _ => by simp [SomeGrants, SomeHolds]
  | e :: es, _, _, _, h => by
    obtain ⟨_, hfirst, hrest⟩ := bind_eq_ok.1 h
    rw [SomeGrants, SomeHolds, grants_iff_holds e hfirst, someGrants_iff_someHolds es hrest]

end

/-- **An accepted tree is read as it is meant.** -/
theorem grants_iff_holds_of_validateExpr {e : PolicyExpr}
    (h : validateExpr compile (some e) = .ok ()) : e.Grants compile s ↔ e.Holds compile s := by
  obtain ⟨_, hnodes, _⟩ := bind_eq_ok.1 h
  exact grants_iff_holds e hnodes

end Accepted

/-! ## The laws of the connectives -/

namespace PolicyExpr

/-- A node of an operator, with nothing of a leaf. -/
def operator (op : String) (children : List PolicyExpr) : PolicyExpr :=
  .node op children "" "" "" []

def and (es : List PolicyExpr) : PolicyExpr := operator "and" es
def or (es : List PolicyExpr) : PolicyExpr := operator "or" es
def not (e : PolicyExpr) : PolicyExpr := operator "not" [e]

section Connectives

variable {compile : String → Option (String → Bool)} {s : Subject}

theorem toLower_operators :
    "and".toLower = "and" ∧ "or".toLower = "or" ∧ "not".toLower = "not" := by
  decide +kernel

theorem grants_and {es : List PolicyExpr} :
    (and es).Grants compile s ↔ es ≠ [] ∧ ∀ e ∈ es, e.Grants compile s := by
  simp [and, operator, Grants, toLower_operators, allGrant_iff]

theorem grants_or {es : List PolicyExpr} :
    (or es).Grants compile s ↔ ∃ e ∈ es, e.Grants compile s := by
  simp [or, operator, Grants, toLower_operators, someGrants_iff]

theorem grants_not {e : PolicyExpr} : (not e).Grants compile s ↔ ¬ e.Grants compile s := by
  simp [not, operator, Grants, toLower_operators, SomeGrants]

end Connectives

end PolicyExpr

section Laws

open PolicyExpr (and or not grants_and grants_or grants_not)

variable (env : ExprEnv)

theorem evalExpr_not_not (e : PolicyExpr) : evalExpr env (not (not e)) = evalExpr env e := by
  ext n
  rw [mem_evalExpr_iff, mem_evalExpr_iff, grants_not, grants_not, not_not]

theorem evalExpr_not_and {es : List PolicyExpr} (hes : es ≠ []) :
    evalExpr env (not (and es)) = evalExpr env (or (es.map not)) := by
  ext n
  rw [mem_evalExpr_iff, mem_evalExpr_iff, grants_not, grants_and, grants_or]
  simp [hes, grants_not]

theorem evalExpr_not_or {es : List PolicyExpr} (hes : es ≠ []) :
    evalExpr env (not (or es)) = evalExpr env (and (es.map not)) := by
  ext n
  rw [mem_evalExpr_iff, mem_evalExpr_iff, grants_not, grants_or, grants_and]
  simp [hes, grants_not]

/-- **The evaluator agrees with the pointwise semantics.**  The names an accepted tree grants
are those of the universe that it is true of; they obey the laws of the connectives. -/
theorem evalExpr_pointwise (e : PolicyExpr) (h : validateExpr env.compile (some e) = .ok ()) :
    (∀ n, n ∈ evalExpr env e ↔ n ∈ env.names ∧ e.Holds env.compile (env.subject n)) ∧
    evalExpr env e ⊆ env.names.toFinset ∧
    evalExpr env (not (not e)) = evalExpr env e ∧
    ∀ es : List PolicyExpr, es ≠ [] →
      evalExpr env (not (and es)) = evalExpr env (or (es.map not)) ∧
      evalExpr env (not (or es)) = evalExpr env (and (es.map not)) := by
  refine ⟨fun n => ?_, evalExpr_subset env e, evalExpr_not_not env e, fun es hes => ?_⟩
  · rw [mem_evalExpr_iff, grants_iff_holds_of_validateExpr h]
  · exact ⟨evalExpr_not_and env hes, evalExpr_not_or env hes⟩

end Laws

private def abcTeams : PolicyExpr :=
  .and [.leaf "" "prefix" "ABC",
    .or [.leaf "team" "equals" "orders", .leaf "team" "equals" "payments"],
    .not (.leaf "env" "equals" "sandbox")]

private def abcServices : ExprEnv where
  names := ["ABC-api", "ABC-worker", "billing"]
  attrs := fun name key =>
    if key = "team" then (if name = "billing" then none else some "orders")
    else if name = "ABC-worker" then some "sandbox"
    else none
  compile := fun _ => none

theorem evalExpr_pointwise_abcTeams :
    "ABC-api" ∈ evalExpr abcServices abcTeams ∧
      abcTeams.Holds abcServices.compile (abcServices.subject "ABC-api") := by
  have hin : "ABC-api" ∈ evalExpr abcServices abcTeams := by decide +kernel
  have hpointwise := evalExpr_pointwise abcServices abcTeams (by decide +kernel)
  exact ⟨hin, ((hpointwise.1 "ABC-api").1 hin).2⟩

/-- `evalExpr` of a policy's column, which may hold no tree. -/
def evalRoot (env : ExprEnv) : Option PolicyExpr → Finset String
  | none => ∅
  | some e => evalExpr env e

/-- What `ValidateExpr` rejects grants nothing, over any universe. -/
def FailsClosed (compile : String → Option (String → Bool)) (root : Option PolicyExpr) : Prop :=
  ∀ err, validateExpr compile root = .error err →
    ∀ names attrs, evalRoot ⟨names, attrs, compile⟩ root = ∅

/-! ## Trees that are settled by their shape -/

section Settled

variable (compile : String → Option (String → Bool))

/-- The condition of the leaf is true of every service (`true`), or of none, whatever is set. -/
def LeafSettled (b : Bool) (attr matchOp value : String) (values : List String) : Prop :=
  match matchOp with
  | "equals" | "not_equals" => False
  | "prefix" | "suffix" | "contains" => b = true ∧ attr = "" ∧ value = ""
  | "regex" => match compile value with
    | none => b = false
    | some re => if b then attr = "" ∧ ∀ v, re v else ∀ v, re v = false
  | "in" => b = false ∧ values = []
  | "exists" => b = true ∧ attr = ""
  | "not_exists" => b = false ∧ attr = ""
  | _ => b = false

mutual

/-- Whatever the other leaves find, the tree is true of every service (`true`), or of none. -/
def PolicyExpr.Settled (b : Bool) : PolicyExpr → Prop
  | .node op children attr matchOp value values =>
    if op = "" then LeafSettled compile b attr matchOp value values
    else if op.toLower = "and" then
      if b then children ≠ [] ∧ AllSettled true children
      else children = [] ∨ SomeSettled false children
    else if op.toLower = "or" then
      if b then SomeSettled true children else AllSettled false children
    else if op.toLower = "not" then
      if b then children.length = 1 ∧ AllSettled false children
      else children.length ≠ 1 ∨ SomeSettled true children
    else b = false

def AllSettled (b : Bool) : List PolicyExpr → Prop
  | [] => True
  | e :: es => e.Settled b ∧ AllSettled b es

def SomeSettled (b : Bool) : List PolicyExpr → Prop
  | [] => False
  | e :: es => e.Settled b ∨ SomeSettled b es

end

/-- The second tree is the first but for the attributes that its free leaves ask about, those
which some service meets and some does not. -/
inductive PolicyExpr.Readdressed : PolicyExpr → PolicyExpr → Prop
  | leaf (children : List PolicyExpr) (attr attr' matchOp value : String) (values : List String)
      (h : attr' = attr ∨ attr' ≠ "" ∧ ∀ b, ¬ LeafSettled compile b attr matchOp value values) :
      Readdressed (.node "" children attr matchOp value values)
        (.node "" children attr' matchOp value values)
  | operator (op : String) (hop : op ≠ "") (children : List PolicyExpr)
      (f : PolicyExpr → PolicyExpr) (h : ∀ e ∈ children, Readdressed e (f e))
      (attr matchOp value : String) (values : List String) :
      Readdressed (.node op children attr matchOp value values)
        (.node op (children.map f) attr matchOp value values)

variable {compile} {b : Bool}

theorem PolicyExpr.ind {P : PolicyExpr → Prop}
    (node : ∀ op children attr matchOp value values, (∀ e ∈ children, P e) →
      P (.node op children attr matchOp value values)) (e : PolicyExpr) : P e :=
  @PolicyExpr.rec P (fun es => ∀ e ∈ es, P e) node (fun _ he => absurd he List.not_mem_nil)
    (fun _ _ he hes => List.forall_mem_cons.2 ⟨he, hes⟩) e

variable {es : List PolicyExpr}

theorem allSettled_iff : AllSettled compile b es ↔ ∀ e ∈ es, e.Settled compile b := by
  induction es with
  | nil => simp [AllSettled]
  | cons e es ih => simp [AllSettled, ih]

theorem someSettled_iff : SomeSettled compile b es ↔ ∃ e ∈ es, e.Settled compile b := by
  induction es with
  | nil => simp [SomeSettled]
  | cons e es ih => simp [SomeSettled, ih]

/-- What the children of an operator have to be for the node to be true (`b`), or false: all of
them `D`, or one. -/
def Decides (b : Bool) (op : String) (children : List PolicyExpr) (D : PolicyExpr → Prop) : Prop :=
  if op.toLower = "and" then
    if b then children ≠ [] ∧ ∀ e ∈ children, D e else children = [] ∨ ∃ e ∈ children, D e
  else if op.toLower = "or" then
    if b then ∃ e ∈ children, D e else ∀ e ∈ children, D e
  else if op.toLower = "not" then
    if b then children.length = 1 ∧ ∀ e ∈ children, D e
    else children.length ≠ 1 ∨ ∃ e ∈ children, D e
  else b = false

/-- Which way the children have to be decided for the node to be `b`. -/
def needed (b : Bool) (op : String) : Bool :=
  if op.toLower = "not" then !b else b

section Decides

variable {op : String} {children : List PolicyExpr} {D D' : PolicyExpr → Prop}

theorem Decides.mono (h : Decides b op children D) (hD : ∀ e ∈ children, D e → D' e) :
    Decides b op children D' := by
  unfold Decides at *
  grind

theorem decides_not : ¬ Decides (!b) op children D ↔ Decides b op children fun e => ¬ D e := by
  unfold Decides
  cases b <;> grind

theorem decides_map {f : PolicyExpr → PolicyExpr} :
    Decides b op (children.map f) D ↔ Decides b op children fun e => D (f e) := by
  simp [Decides]

variable (hop : op ≠ "") {attr matchOp value : String} {values : List String}
include hop

theorem settled_operator :
    PolicyExpr.Settled compile b (.node op children attr matchOp value values) ↔
      Decides b op children fun e => e.Settled compile (needed b op) := by
  rw [PolicyExpr.Settled, if_neg hop]
  unfold Decides needed
  simp only [allSettled_iff, someSettled_iff]
  cases b <;> grind

theorem grants_operator {s : Subject} :
    (PolicyExpr.Grants compile s (.node op children attr matchOp value values) ↔ b) ↔
      Decides b op children fun e => (e.Grants compile s ↔ needed b op) := by
  rw [PolicyExpr.Grants, if_neg hop]
  unfold Decides needed
  simp only [allGrant_iff, someGrants_iff]
  cases b <;> grind

end Decides

variable {e : PolicyExpr} {values : List String} {matchOp attr' value attr : String}

theorem LeafSettled.holds_iff (h : LeafSettled compile b attr matchOp value values) (s : Subject) :
    LeafHolds compile s attr matchOp value values ↔ b := by
  unfold LeafSettled at h
  unfold LeafHolds
  split at h
  · cases h
  · cases h
  all_goals try simp [h, Subject.value]
  split at h
  · next hcompile => simp [h, hcompile]
  · cases b <;> simp_all

/-- No other condition is settled: it is true of some service and false of another. -/
theorem leafSettled_iff : LeafSettled compile b attr matchOp value values ↔
    ∀ s, LeafHolds compile s attr matchOp value values ↔ b := by
  refine ⟨LeafSettled.holds_iff, fun h => ?_⟩
  -- the service whose every text is `v`, and the one that has none
  have hset (v : String) := h ⟨v, fun _ => some v⟩
  have habsent := h ⟨"", fun _ => none⟩
  clear h
  have hlonger : value ++ "x" ≠ value := fun heq => by simpa using congrArg String.length heq
  obtain ⟨v, hv⟩ := Infinite.exists_notMem_finset values.toFinset
  unfold LeafHolds at hset habsent
  unfold LeafSettled
  have hvalue := hset value
  have hempty := hset ""
  split <;> simp only [Subject.value, ite_self, ne_eq, Option.some.injEq] at *
  · exact hlonger ((hset _).2 (hvalue.1 trivial))
  · exact hvalue.2 ((hset _).1 hlonger) trivial
  iterate 3
    clear hset
    by_cases hattr : attr = "" <;> simp_all
  · cases hcompile : compile value with
    | none => simpa [hcompile] using hempty
    | some re => by_cases hattr : attr = "" <;> cases b <;> simp_all
  · have hfresh := hset v
    cases values with
    | nil => simpa using hfresh
    | cons w ws =>
      have hw := hset w
      clear hset
      simp_all
  iterate 2
    by_cases hattr : attr = "" <;> simp_all
  · simpa using hempty

/-- A settled tree is true of every service, or of none. -/
theorem PolicyExpr.Settled.grants_iff (h : e.Settled compile b) (s : Subject) :
    e.Grants compile s ↔ b := by
  induction e using PolicyExpr.ind generalizing b with
  | node op children attr matchOp value values ih =>
    by_cases hop : op = ""
    · subst hop
      rw [Settled, if_pos rfl] at h
      simpa [Grants] using h.holds_iff s
    rw [grants_operator hop]
    exact ((settled_operator hop).1 h).mono fun e he hset => ih e he hset

/-! ### A service that every free leaf can be pointed at -/

/-- The attributes are named after their values: `=v` is `v`, and no other is set. -/
def star : Subject where
  name := ""
  attrs key := match key.toList with
    | '=' :: v => some (String.ofList v)
    | _ => none

/-- The attribute that has this value. -/
def starKey : Option String → String
  | some v => "=" ++ v
  | none => "-"

theorem starKey_ne (o : Option String) : starKey o ≠ "" := by
  cases o with
  | none => decide
  | some v =>
    intro h
    have hlist := congrArg String.toList h
    simp [starKey] at hlist

theorem star_value (o : Option String) : star.value (starKey o) = o := by
  rw [Subject.value, if_neg (starKey_ne o)]
  cases o with
  | none => rfl
  | some v => simp [star, starKey]

theorem leafHolds_congr {s s' : Subject} (h : s.value attr = s'.value attr') :
    LeafHolds compile s attr matchOp value values ↔
      LeafHolds compile s' attr' matchOp value values := by
  unfold LeafHolds
  rw [h]

/-- What is not settled the other way can be made true of the one service, or false. -/
theorem PolicyExpr.exists_readdressed (e : PolicyExpr) (b : Bool) :
    ∃ e', e.Readdressed compile e' ∧
      (¬ e.Settled compile (!b) → (e'.Grants compile star ↔ b)) := by
  induction e using PolicyExpr.ind generalizing b with
  | node op children attr matchOp value values ih =>
    by_cases hop : op = ""
    · subst hop
      by_cases hsettled : LeafSettled compile b attr matchOp value values
      · exact ⟨_, .leaf _ _ _ _ _ _ (.inl rfl), fun _ => by
          simpa [Grants] using hsettled.holds_iff star⟩
      by_cases hother : LeafSettled compile (!b) attr matchOp value values
      · exact ⟨_, .leaf _ _ _ _ _ _ (.inl rfl), fun h => absurd (by simpa [Settled]) h⟩
      have hs : ∃ s, LeafHolds compile s attr matchOp value values ↔ b := by
        by_contra hno
        refine hother (leafSettled_iff.2 fun s => ?_)
        have hs := not_exists.1 hno s
        cases b <;> simp_all
      obtain ⟨s, hs⟩ := hs
      refine ⟨_, .leaf children attr (starKey (s.value attr)) _ _ _
        (.inr ⟨starKey_ne _, fun b' => ?_⟩), fun _ => ?_⟩
      · rcases Bool.eq_or_eq_not b' b with rfl | rfl
        · exact hsettled
        · exact hother
      · simpa [Grants, leafHolds_congr (star_value _)] using hs
    choose! f hf using fun e he => ih e he (needed b op)
    refine ⟨_, .operator op hop children f (fun e he => (hf e he).1) _ _ _ _, fun h => ?_⟩
    rw [grants_operator hop, decides_map]
    rw [settled_operator hop, decides_not] at h
    refine h.mono fun e he hset => (hf e he).2 fun hother => hset ?_
    cases b <;> simpa [needed] using hother

theorem validateLeaf_readdressed (hattr : attr' ≠ "")
    (hfree : ∀ b, ¬ LeafSettled compile b attr matchOp value values) :
    validateLeaf compile attr' matchOp value values =
      validateLeaf compile attr matchOp value values := by
  have hname (hop : matchOp = "exists" ∨ matchOp = "not_exists") : attr ≠ "" := by
    rintro rfl
    rcases hop with rfl | rfl
    · exact hfree true ⟨rfl, rfl⟩
    · exact hfree false ⟨rfl, rfl⟩
  unfold validateLeaf
  split <;> simp_all

theorem validateChildren_map {f : PolicyExpr → PolicyExpr} (h : ∀ e ∈ es, ∀ depth count,
      validateExprNode compile depth count (f e) = validateExprNode compile depth count e)
    (depth count : Nat) :
    validateChildren compile depth count (es.map f) = validateChildren compile depth count es := by
  induction es generalizing count with
  | nil => rfl
  | cons e es ih =>
    obtain ⟨he, hes⟩ := List.forall_mem_cons.1 h
    simp only [List.map_cons, validateChildren, he, ih hes]

/-- `ValidateExpr` does not see which attribute a free leaf asks about. -/
theorem PolicyExpr.Readdressed.validateExprNode_eq {e' : PolicyExpr}
    (h : e.Readdressed compile e') : ∀ depth count,
      validateExprNode compile depth count e' = validateExprNode compile depth count e := by
  induction h with
  | leaf children attr attr' matchOp value values h =>
    intro depth count
    rcases h with rfl | ⟨hattr, hfree⟩
    · rfl
    · simp only [validateExprNode, validateLeaf_readdressed hattr hfree, ne_eq, not_true,
        if_false]
  | operator op hop children f h attr matchOp value values ih =>
    intro depth count
    simp only [validateExprNode, validateChildren_map ih, validateOperator, ne_eq,
      List.map_eq_nil_iff, List.length_map]

/-- **When a policy fails closed**: it is accepted, or its shape settles that it is true of no
service.  That is all that the shape can say: of any other tree there is one with the same shape
and the same conditions, on other attributes, which is rejected as well and grants a service. -/
theorem failsClosed_of_settled (compile : String → Option (String → Bool))
    (root : Option PolicyExpr) :
    (validateExpr compile root = .ok () ∨ (∀ e ∈ root, e.Settled compile false) →
      FailsClosed compile root) ∧
    ∀ e ∈ root, validateExpr compile root ≠ .ok () → ¬ e.Settled compile false →
      ∃ e', e.Readdressed compile e' ∧ ¬ FailsClosed compile (some e') := by
  constructor
  · rintro (hvalid | hsettled) err herr names attrs
    · cases hvalid.symm.trans herr
    · cases root with
      | none => rfl
      | some e =>
        refine Finset.eq_empty_of_forall_notMem fun n hn => ?_
        have hgrants := ((mem_evalExpr_iff e).1 hn).2
        exact Bool.false_ne_true (((hsettled e rfl).grants_iff _).1 hgrants)
  · intro e he hinvalid hunsettled
    obtain rfl := Option.mem_def.1 he
    obtain ⟨e', hsame, hgrants⟩ := e.exists_readdressed true
    refine ⟨e', hsame, fun hcloses => ?_⟩
    have hcheck : validateExpr compile (some e') = validateExpr compile (some e) := by
      rw [validateExpr, validateExpr, hsame.validateExprNode_eq]
    cases hvalid : validateExpr compile (some e') with
    | ok u => exact hinvalid (hcheck ▸ hvalid)
    | error err =>
      have hempty := hcloses err hvalid [star.name] fun _ => star.attrs
      have hin : star.name ∈ evalExpr ⟨[star.name], fun _ => star.attrs, compile⟩ e' :=
        (mem_evalExpr_iff e').2 ⟨List.mem_singleton_self _, (hgrants hunsettled).2 rfl⟩
      rw [show evalExpr _ e' = ∅ from hempty] at hin
      cases hin

end Settled

/-- A negation of a node that is not known is rejected, and grants every service. -/
theorem not_unknown_grants_all :
    ¬ FailsClosed (fun _ => none) (some (.not (.operator "xor" []))) := by
  intro h
  have hempty := h (.unknownOperator "xor") (by decide +kernel) ["orders"] fun _ _ => none
  revert hempty
  decide +kernel

end Sluicio.Identity
