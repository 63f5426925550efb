import Mathlib.Data.Finset.Union
import Sluicio.Catalog
import Sluicio.Identity.Expr

/-!
# Group access policies

A policy grants services and integrations; a principal's policies are composed
into one `EffectiveAccess`, which is then materialised into a set of service
names.  The file also gives the meaning of a single policy (`GrantsService`,
`GrantsIntegration`) and shows that composing and materialising a list is the
union of what its policies grant: there are no deny rules, and order does not
matter.
-/

namespace Sluicio.Identity

open Lib

inductive PolicyKind where
  | service | integration | attributes | compound | allOrg | system | expression
  deriving DecidableEq

inductive Signal where
  | traces | logs | metrics | messages
  deriving DecidableEq

/-- `AllSignals`, in display order. -/
def allSignals : List Signal := [.traces, .logs, .metrics, .messages]

@[simp] theorem mem_allSignals (sig : Signal) : sig ∈ allSignals := by
  cases sig <;> decide

/-- A row of `group_access_policies`.  An empty `signals` means every signal. -/
structure AccessPolicy where
  id : UUID
  groupID : UUID
  kind : PolicyKind
  targetServiceName : Option String := none
  targetIntegrationID : Option UUID := none
  targetSystemKind : Option String := none
  targetSystemID : Option UUID := none
  attributeMatch : List (String × String) := []
  conditions : Option PolicyExpr := none
  signals : List Signal := []
  grantServices : Bool := false

inductive Role where
  | admin | editor | viewer | unknown
  deriving DecidableEq

/-- `CanWrite`: everything except viewer (and an unknown role). -/
def Role.canWrite (r : Role) : Bool := r = .admin || r = .editor

def Role.canAdmin (r : Role) : Bool := r = .admin

/-- `MemberRef`: the principal whose group memberships are resolved. -/
inductive MemberRef where
  | user (id : UUID)
  | serviceAccount (id : UUID)
  deriving DecidableEq

/-- A row of `group_members`. -/
structure GroupMember where
  groupID : UUID
  member : MemberRef
  role : Role

/-- A policy and the role its group gives the member. -/
structure UserPolicy where
  policy : AccessPolicy
  groupRole : Role

inductive ShareKind where
  | integration | system
  deriving DecidableEq

inductive Grantee where
  | user (id : UUID)
  | group (id : UUID)

/-- A row of `resource_shares`. -/
structure ResourceShare where
  resourceKind : ShareKind
  resourceID : UUID
  grantee : Grantee
  grantServices : Bool

/-- A row of `service_resource_attributes`. -/
structure ResourceAttribute where
  serviceName : String
  key : String
  value : String

inductive StoreQuery where
  | listPoliciesForMember
  | servicesMatchingAttributes (pairs : List (String × String))
  | allServiceAttributes
  | sharedResourcesForUser

/-- One organization's identity tables, policies newest first, and the catalog
the resolver is wired to. -/
structure Store where
  policies : List AccessPolicy
  policyKey : (policies.map AccessPolicy.id).Nodup
  members : List GroupMember
  shares : List ResourceShare
  attributes : List ResourceAttribute
  catalog : Catalog
  compile : String → Option (String → Bool)
  faults : StoreQuery → Option String := fun _ => none

/-- The rows `ListPoliciesForMember` joins. -/
def Store.memberPolicies (s : Store) (ref : MemberRef) : List UserPolicy :=
  s.policies.flatMap fun p =>
    (s.members.filter fun gm => gm.member = ref && gm.groupID = p.groupID).map
      fun gm => ⟨p, gm.role⟩

open Store

def Store.listPoliciesForMember (s : Store) (ref : MemberRef) : Except String (List UserPolicy) :=
  wrapErr "identity: list user policies: "
    (readRows s.faults .listPoliciesForMember (s.memberPolicies ref))

/-- The services with the attribute `key = value`. -/
def Store.withAttribute (s : Store) (kv : String × String) : Finset String :=
  ((s.attributes.filter fun a => a.key = kv.1 && a.value = kv.2).map
    ResourceAttribute.serviceName).toFinset

/-- The rows of `ServicesMatchingAttributes`: one `INTERSECT` per pair, nothing
for an empty match. -/
def Store.matching (s : Store) : List (String × String) → Finset String
  | [] => ∅
  | [kv] => s.withAttribute kv
  | kv :: kvs => s.withAttribute kv ∩ s.matching kvs

/-- `ServicesMatchingAttributes`.  An empty match runs no query. -/
def Store.servicesMatchingAttributes (s : Store) (pairs : List (String × String)) :
    Except String (Finset String) :=
  if pairs = [] then .ok ∅
  else wrapErr "identity: services matching attrs: "
    (readRows s.faults (.servicesMatchingAttributes pairs) (s.matching pairs))

/-- The attribute map: the last row read for a service and key wins. -/
def Store.serviceAttribute (s : Store) (name key : String) : Option String :=
  (s.attributes.reverse.find? fun a => a.serviceName = name && a.key = key).map
    ResourceAttribute.value

def Store.allServiceAttributes (s : Store) : Except String (String → String → Option String) :=
  wrapErr "identity: all service attributes: "
    (readRows s.faults .allServiceAttributes s.serviceAttribute)

def Store.groupsOf (s : Store) (userID : UUID) : List UUID :=
  (s.members.filter fun gm => gm.member = .user userID).map GroupMember.groupID

/-- `sharesGranteeCond`: the share reaches the user directly or through a
group. -/
def Store.shareReaches (s : Store) (userID : UUID) (sh : ResourceShare) : Bool :=
  match sh.grantee with
  | .user id => id = userID
  | .group id => id ∈ s.groupsOf userID

/-- The rows of `SharedResourcesForUser`: one per resource, with the widest of
the shares that reach the user. -/
def Store.sharedResources (s : Store) (userID : UUID) : List (ShareKind × UUID × Bool) :=
  let reaching := s.shares.filter (s.shareReaches userID)
  (reaching.map fun sh => (sh.resourceKind, sh.resourceID)).dedup.map fun r =>
    (r.1, r.2, reaching.any fun sh =>
      sh.resourceKind = r.1 && sh.resourceID = r.2 && sh.grantServices)

def Store.sharedResourcesForUser (s : Store) (userID : UUID) :
    Except String (List (ShareKind × UUID × Bool)) :=
  wrapErr "identity: shared resources: "
    (readRows s.faults .sharedResourcesForUser (s.sharedResources userID))

/-! ## Composition -/

structure CompoundPredicate where
  services : List String
  attributeMatch : List (String × String)

/-- What a list of policies composes to before it is materialised. -/
structure EffectiveAccess where
  allOrg : Bool := false
  services : Finset String := ∅
  integrations : Finset UUID := ∅
  attributePredicates : List (List (String × String)) := []
  compoundPredicates : List CompoundPredicate := []
  expressions : List PolicyExpr := []

/-- Add what one policy contributes. -/
def EffectiveAccess.merge (a b : EffectiveAccess) : EffectiveAccess where
  allOrg := a.allOrg || b.allOrg
  services := a.services ∪ b.services
  integrations := a.integrations ∪ b.integrations
  attributePredicates := a.attributePredicates ++ b.attributePredicates
  compoundPredicates := a.compoundPredicates ++ b.compoundPredicates
  expressions := a.expressions ++ b.expressions

open EffectiveAccess

def EffectiveAccess.hasNoAccess (e : EffectiveAccess) : Bool :=
  !e.allOrg && decide (e.services = ∅) && decide (e.integrations = ∅) &&
    e.attributePredicates.isEmpty && e.compoundPredicates.isEmpty &&
    e.expressions.isEmpty

/-- `matchEntities`: the entities whose NAME the tree accepts.  Names carry no
attributes. -/
def Store.matchEntities (s : Store) (expr : PolicyExpr)
    (list : Except String (List NamedEntity)) : Except String (List NamedEntity) := do
  let all ← list
  let accepted := evalExpr ⟨all.map NamedEntity.name, fun _ _ => none, s.compile⟩ expr
  return all.filter fun e => e.name ∈ accepted

/-- What one `kind=system` policy adds to the composition. -/
def Store.composeSystem (s : Store) (p : AccessPolicy) :
    Except String EffectiveAccess :=
  let kind := p.targetSystemKind.getD ""
  match p.conditions with
  | some expr => do
      let matched ← wrapErr "match systems: " (s.matchEntities expr s.catalog.listSystems)
      let svcs ← collect (fun e => wrapErr "expand system: "
        (s.catalog.systemExpander kind (some e.id))) matched
      return { services := svcs.toFinset }
  | none => do
      let svcs ← wrapErr "expand system: " (s.catalog.systemExpander kind p.targetSystemID)
      return { services := svcs.toFinset }

/-- The member services of an integration, when the policy grants them too. -/
def Store.grantedServices (s : Store) (p : AccessPolicy) (id : UUID) :
    Except String (List String) :=
  if p.grantServices then
    wrapErr "expand integration: " (s.catalog.integrationExpander id)
  else .ok []

/-- What one `kind=integration` policy adds: the integration as itself, by id or
by name pattern, and its services only when the policy says so. -/
def Store.composeIntegration (s : Store) (p : AccessPolicy) :
    Except String EffectiveAccess :=
  match p.targetIntegrationID, p.conditions with
  | none, some expr => do
      let matched ← wrapErr "match integrations: " (s.matchEntities expr s.catalog.listIntegrations)
      let svcs ← collect (fun e => s.grantedServices p e.id) matched
      return { integrations := (matched.map NamedEntity.id).toFinset,
               services := svcs.toFinset }
  | some id, _ => do
      let svcs ← s.grantedServices p id
      return { integrations := {id}, services := svcs.toFinset }
  | none, none => .ok {}

/-- What one `kind=compound` policy adds. -/
def Store.composeCompound (s : Store) (p : AccessPolicy) :
    Except String EffectiveAccess :=
  match p.targetServiceName, p.targetIntegrationID with
  | some name, _ =>
    .ok { compoundPredicates := [⟨[name], p.attributeMatch⟩] }
  | none, some id => do
      let svcs ← wrapErr "expand integration: " (s.catalog.integrationExpander id)
      return { compoundPredicates := [⟨svcs, p.attributeMatch⟩] }
  | none, none => .ok { compoundPredicates := [⟨[], p.attributeMatch⟩] }

/-- What one policy adds to the composition: one iteration of the loop in
`composeAccess`. -/
def Store.composePolicy (s : Store) (p : AccessPolicy) :
    Except String EffectiveAccess :=
  match p.kind with
  | .allOrg => .ok { allOrg := true }
  | .service => .ok { services := p.targetServiceName.toList.toFinset }
  | .system => s.composeSystem p
  | .integration => s.composeIntegration p
  | .attributes => .ok { attributePredicates := [p.attributeMatch] }
  | .compound => s.composeCompound p
  | .expression => .ok { expressions := p.conditions.toList }

/-- The loop of `composeAccess` from the access composed so far. -/
def Store.composeFrom (s : Store) (out : EffectiveAccess) :
    List AccessPolicy → Except String EffectiveAccess
  | [] => .ok out
  | p :: ps =>
    if p.kind = .allOrg then .ok { out with allOrg := true }
    else do
      let added ← s.composePolicy p
      s.composeFrom (out.merge added) ps

/-- `composeAccess`.  An all-org policy stops the loop: the wildcard wins. -/
def Store.composeAccess (s : Store) (policies : List AccessPolicy) :
    Except String EffectiveAccess :=
  s.composeFrom {} policies

/-! ## Materialisation -/

/-- The names accepted by the expression policies, evaluated over the org's own
service universe. -/
def Store.materializeExpressions (s : Store) (exprs : List PolicyExpr) :
    Except String (Finset String) :=
  if exprs = [] then .ok ∅
  else do
    let allNames ← wrapErr "resolve service universe: " s.catalog.serviceUniverse
    let attrs ← wrapErr "load service attributes: " s.allServiceAttributes
    return (exprs.map (evalExpr ⟨allNames, attrs, s.compile⟩)).foldr (· ∪ ·) ∅

/-- The services of the attribute policies. -/
def Store.materializeAttributes (s : Store) :
    List (List (String × String)) → Except String (Finset String)
  | [] => .ok ∅
  | pairs :: rest => do
      let names ← s.servicesMatchingAttributes pairs
      let others ← s.materializeAttributes rest
      return names ∪ others

/-- The services of the compound policies: in the target and with the
attributes. -/
def Store.materializeCompounds (s : Store) : List CompoundPredicate → Except String (Finset String)
  | [] => .ok ∅
  | cp :: rest =>
    if cp.services = [] then s.materializeCompounds rest
    else do
      let matchSet ← s.servicesMatchingAttributes cp.attributeMatch
      let others ← s.materializeCompounds rest
      return cp.services.toFinset ∩ matchSet ∪ others

/-- `materializeAccess`: the concrete service set, or the wildcard. -/
def Store.materializeAccess (s : Store) (access : EffectiveAccess) :
    Except String (Finset String × Bool) :=
  if access.allOrg then .ok (∅, true)
  else if access.hasNoAccess then .ok (∅, false)
  else do
    let exprs ← s.materializeExpressions access.expressions
    let attrs ← s.materializeAttributes access.attributePredicates
    let compounds ← s.materializeCompounds access.compoundPredicates
    return (access.services ∪ exprs ∪ attrs ∪ compounds, false)

/-! ## What a list of policies grants -/

/-- What expression policies are evaluated against. -/
def Store.exprEnv (s : Store) : ExprEnv :=
  ⟨s.catalog.services.map Service.serviceName, s.serviceAttribute, s.compile⟩

/-- The composed access contains service `n`, the wildcard apart. -/
def EffectiveAccess.Reaches (s : Store) (a : EffectiveAccess) (n : String) : Prop :=
  n ∈ a.services ∨
  (∃ e ∈ a.expressions, n ∈ evalExpr s.exprEnv e) ∨
  (∃ pairs ∈ a.attributePredicates, n ∈ s.matching pairs) ∨
  (∃ cp ∈ a.compoundPredicates, n ∈ cp.services ∧ n ∈ s.matching cp.attributeMatch)

/-- Policy `p` grants service `n`. -/
def Store.GrantsService (s : Store) (p : AccessPolicy) (n : String) : Prop :=
  ∃ a, s.composePolicy p = .ok a ∧ a.Reaches s n

/-- Policy `p` grants integration `id` directly. -/
def Store.GrantsIntegration (s : Store) (p : AccessPolicy) (id : UUID) : Prop :=
  ∃ a, s.composePolicy p = .ok a ∧ id ∈ a.integrations

private theorem or_interchange (a b c d a' b' c' d' : Prop) :
    ((a ∨ a') ∨ (b ∨ b') ∨ (c ∨ c') ∨ (d ∨ d')) ↔ (a ∨ b ∨ c ∨ d) ∨ (a' ∨ b' ∨ c' ∨ d') := by
  simp only [or_assoc, or_left_comm]

theorem EffectiveAccess.merge_reaches (s : Store) (a b : EffectiveAccess)
    (n : String) : (a.merge b).Reaches s n ↔ a.Reaches s n ∨ b.Reaches s n := by
  simp only [EffectiveAccess.Reaches, merge, Finset.mem_union,
    List.mem_append, or_and_right, exists_or]
  exact or_interchange _ _ _ _ _ _ _ _

variable {s : Store} {names : Finset String} {p : AccessPolicy} {value key : String}
  {ps : List AccessPolicy} {a : EffectiveAccess}

theorem not_reaches_of_hasNoAccess (h : a.hasNoAccess) (n : String) : ¬ a.Reaches s n := by
  simp only [hasNoAccess, Bool.and_eq_true, decide_eq_true_eq,
    List.isEmpty_iff] at h
  obtain ⟨⟨⟨⟨⟨_, hs⟩, _⟩, ha⟩, hc⟩, he⟩ := h
  simp [EffectiveAccess.Reaches, hs, ha, hc, he]

/-! ### Materialising one composition -/

theorem servicesMatchingAttributes_eq_ok {pairs : List (String × String)}
    (h : s.servicesMatchingAttributes pairs = .ok names) : names = s.matching pairs := by
  unfold servicesMatchingAttributes at h
  split at h
  · next hp =>
    subst hp
    simpa [matching, eq_comm] using h
  · simp only [wrapErr_eq_ok, readRows_eq_ok] at h
    exact h.2.symm

theorem materializeExpressions_eq_ok {exprs : List PolicyExpr}
    (h : s.materializeExpressions exprs = .ok names) (n : String) :
    n ∈ names ↔ ∃ e ∈ exprs, n ∈ evalExpr s.exprEnv e := by
  unfold materializeExpressions at h
  split at h
  · next he =>
    subst he
    obtain rfl : ∅ = names := by simpa using h
    simp
  · simp only [Catalog.serviceUniverse, Catalog.allServices,
      allServiceAttributes, bind_eq_ok, wrapErr_eq_ok, readRows_eq_ok,
      pure_eq_ok] at h
    obtain ⟨_, ⟨_, ⟨_, rfl⟩, rfl⟩, _, ⟨_, rfl⟩, rfl⟩ := h
    change n ∈ List.foldr (· ∪ ·) ∅ (exprs.map (evalExpr s.exprEnv)) ↔ _
    induction exprs with
    | nil => simp
    | cons e es ih =>
      by_cases hes : es = []
      · subst hes
        simp
      · simp [ih hes]

theorem materializeAttributes_eq_ok {predicates : List (List (String × String))}
    (h : s.materializeAttributes predicates = .ok names) (n : String) :
    n ∈ names ↔ ∃ pairs ∈ predicates, n ∈ s.matching pairs := by
  induction predicates generalizing names with
  | nil =>
    obtain rfl : ∅ = names := by simpa [materializeAttributes] using h
    simp
  | cons pairs rest ih =>
    simp only [materializeAttributes, bind_eq_ok, pure_eq_ok] at h
    obtain ⟨here, hhere, others, hothers, rfl⟩ := h
    rw [servicesMatchingAttributes_eq_ok hhere]
    simp [ih hothers]

theorem materializeCompounds_eq_ok {cps : List CompoundPredicate}
    (h : s.materializeCompounds cps = .ok names) (n : String) :
    n ∈ names ↔ ∃ cp ∈ cps, n ∈ cp.services ∧ n ∈ s.matching cp.attributeMatch := by
  induction cps generalizing names with
  | nil =>
    obtain rfl : ∅ = names := by simpa [materializeCompounds] using h
    simp
  | cons cp rest ih =>
    unfold materializeCompounds at h
    split at h
    · next hempty => simp [ih h, hempty]
    · simp only [bind_eq_ok, pure_eq_ok] at h
      obtain ⟨matchSet, hmatch, others, hothers, rfl⟩ := h
      rw [servicesMatchingAttributes_eq_ok hmatch]
      simp [ih hothers]

theorem materializeAccess_eq_ok {wildcard : Bool}
    (h : s.materializeAccess a = .ok (names, wildcard)) :
    wildcard = a.allOrg ∧ (a.allOrg = false → ∀ n, n ∈ names ↔ a.Reaches s n) := by
  unfold materializeAccess at h
  split at h
  · next hall =>
    obtain ⟨rfl, rfl⟩ : ∅ = names ∧ true = wildcard := by simpa using h
    simp [hall]
  · next hall =>
    have hfalse : a.allOrg = false := by simpa using hall
    split at h
    · next hno =>
      obtain ⟨rfl, rfl⟩ : ∅ = names ∧ false = wildcard := by simpa using h
      exact ⟨hfalse.symm, fun _ n => by
        simp [not_reaches_of_hasNoAccess hno n]⟩
    · simp only [bind_eq_ok, pure_eq_ok, Prod.mk.injEq] at h
      obtain ⟨exprs, hexprs, attrs, hattrs, compounds, hcompounds, rfl, rfl⟩ := h
      refine ⟨hfalse.symm, fun _ n => ?_⟩
      simp only [Finset.mem_union, materializeExpressions_eq_ok hexprs,
        materializeAttributes_eq_ok hattrs, materializeCompounds_eq_ok hcompounds,
        EffectiveAccess.Reaches, or_assoc]

/-! ### Composing a list -/

theorem composePolicy_allOrg (h : s.composePolicy p = .ok a) :
    a.allOrg = decide (p.kind = .allOrg) := by
  unfold composePolicy at h
  cases hk : p.kind <;> simp only [hk] at h
  case service | attributes | allOrg | expression =>
    cases h
    rfl
  case system =>
    unfold composeSystem at h
    cases hc : p.conditions <;> simp only [hc, bind_eq_ok, pure_eq_ok] at h
    · obtain ⟨_, _, rfl⟩ := h
      rfl
    · obtain ⟨_, _, _, _, rfl⟩ := h
      rfl
  case integration =>
    unfold composeIntegration at h
    split at h
    · simp only [bind_eq_ok, pure_eq_ok] at h
      obtain ⟨_, _, _, _, rfl⟩ := h
      rfl
    · simp only [bind_eq_ok, pure_eq_ok] at h
      obtain ⟨_, _, rfl⟩ := h
      rfl
    · cases h
      rfl
  case compound =>
    unfold composeCompound at h
    split at h
    · cases h
      rfl
    · simp only [bind_eq_ok, pure_eq_ok] at h
      obtain ⟨_, _, rfl⟩ := h
      rfl
    · cases h
      rfl

def HasAllOrg (ps : List AccessPolicy) : Prop := ∃ p ∈ ps, p.kind = .allOrg

theorem composeFrom_eq_ok {out acc : EffectiveAccess} (h : s.composeFrom out ps = .ok acc)
    (hout : out.allOrg = false) :
    (acc.allOrg ↔ HasAllOrg ps) ∧
    (¬ HasAllOrg ps →
      (∀ n, acc.Reaches s n ↔ out.Reaches s n ∨ ∃ p ∈ ps, s.GrantsService p n) ∧
      (∀ id, id ∈ acc.integrations ↔
        id ∈ out.integrations ∨ ∃ p ∈ ps, s.GrantsIntegration p id)) := by
  induction ps generalizing out with
  | nil =>
    obtain rfl : out = acc := by simpa [composeFrom] using h
    simp [HasAllOrg, hout]
  | cons p ps ih =>
    unfold composeFrom at h
    split at h
    · next hk =>
      obtain rfl : { out with allOrg := true } = acc := by simpa using h
      have hall : HasAllOrg (p :: ps) := ⟨p, by simp, hk⟩
      exact ⟨by simp [hall], fun hno => absurd hall hno⟩
    · next hk =>
      simp only [bind_eq_ok] at h
      obtain ⟨added, hadded, h⟩ := h
      have haddedAll : added.allOrg = false := by
        rw [composePolicy_allOrg hadded]
        simpa using hk
      have hmerge : (out.merge added).allOrg = false := by
        simp [merge, hout, haddedAll]
      obtain ⟨hwild, hunion⟩ := ih h hmerge
      have hall : HasAllOrg (p :: ps) ↔ HasAllOrg ps := by
        simp [HasAllOrg, hk]
      have hservice : ∀ n, s.GrantsService p n ↔ added.Reaches s n := fun n => by
        simp [Store.GrantsService, hadded]
      have hinteg : ∀ id, s.GrantsIntegration p id ↔ id ∈ added.integrations :=
        fun id => by simp [Store.GrantsIntegration, hadded]
      rw [hall]
      refine ⟨hwild, fun hno => ⟨fun n => ?_, fun id => ?_⟩⟩
      · rw [(hunion hno).1 n, merge_reaches]
        simp [hservice, or_assoc]
      · rw [(hunion hno).2 id]
        simp [hinteg, merge, or_assoc]

/-- **Composition is a union of allows.**  The wildcard comes from an all-org
policy and from nothing else; without one, the composed access holds exactly the
services and the integrations that single policies of the list grant. -/
theorem composeAccess_eq_ok {acc : EffectiveAccess} (h : s.composeAccess ps = .ok acc) :
    (acc.allOrg ↔ HasAllOrg ps) ∧
    (¬ HasAllOrg ps →
      (∀ n, acc.Reaches s n ↔ ∃ p ∈ ps, s.GrantsService p n) ∧
      (∀ id, id ∈ acc.integrations ↔ ∃ p ∈ ps, s.GrantsIntegration p id)) := by
  have hempty : ∀ n, ¬ ({} : EffectiveAccess).Reaches s n :=
    not_reaches_of_hasNoAccess (by simp [hasNoAccess])
  obtain ⟨hwild, hunion⟩ := composeFrom_eq_ok h rfl
  refine ⟨hwild, fun hno => ⟨fun n => ?_, fun id => ?_⟩⟩
  · simpa [hempty n] using (hunion hno).1 n
  · simpa using (hunion hno).2 id

/-- Compose a list of policies and materialise the result. -/
def Store.materialize (s : Store) (ps : List AccessPolicy) :
    Except String (Finset String × Bool) := do
  let access ← s.composeAccess ps
  s.materializeAccess access

theorem materialize_eq_ok {wildcard : Bool} (h : s.materialize ps = .ok (names, wildcard)) :
    (wildcard ↔ HasAllOrg ps) ∧
    (wildcard = false → ∀ n, n ∈ names ↔ ∃ p ∈ ps, s.GrantsService p n) := by
  simp only [materialize, bind_eq_ok] at h
  obtain ⟨acc, hacc, hmat⟩ := h
  obtain ⟨hwild, hunion⟩ := composeAccess_eq_ok hacc
  obtain ⟨rfl, hset⟩ := materializeAccess_eq_ok hmat
  refine ⟨hwild, fun hfalse n => ?_⟩
  have hno : ¬ HasAllOrg ps := by
    rw [← hwild]
    simp [hfalse]
  rw [hset hfalse n, (hunion hno).1 n]

/-! ## One pair, asked in two ways

An attributes policy asks the table for the services with a pair; an expression leaf
asks the map, which keeps one value for a service and key. -/

/-- The row is the last one read for its service and key. -/
def Store.LastRow (s : Store) (a : ResourceAttribute) : Prop :=
  ∃ before after, s.attributes = before ++ a :: after ∧
    ∀ b ∈ after, ¬ (b.serviceName = a.serviceName ∧ b.key = a.key)

theorem Store.serviceAttribute_eq_some {name : String} :
    s.serviceAttribute name key = some value ↔ s.LastRow ⟨name, key, value⟩ := by
  unfold serviceAttribute Store.LastRow
  rw [Option.map_eq_some_iff]
  simp only [List.find?_eq_some_iff_append, Bool.and_eq_true, decide_eq_true_eq,
    Bool.not_eq_true', Bool.and_eq_false_imp, decide_eq_false_iff_not, not_and]
  constructor
  · rintro ⟨a, ⟨⟨rfl, rfl⟩, later, earlier, hrows, hlater⟩, rfl⟩
    refine ⟨earlier.reverse, later.reverse, ?_, fun b hb => hlater b (List.mem_reverse.1 hb)⟩
    have hrev := congrArg List.reverse hrows
    simpa using hrev
  · rintro ⟨before, after, hrows, hafter⟩
    refine ⟨⟨name, key, value⟩, ⟨⟨rfl, rfl⟩, after.reverse, before.reverse, ?_, ?_⟩, rfl⟩
    · simp [hrows]
    · exact fun b hb => hafter b (List.mem_reverse.1 hb)

/-- Every service with the pair is in the catalog, and the pair is what the map keeps for
it. -/
def Store.KeepsPair (s : Store) (key value : String) : Prop :=
  ∀ a ∈ s.attributes, a.key = key → a.value = value →
    a.serviceName ∈ s.catalog.services.map Service.serviceName ∧ s.LastRow a

/-- An attr-equals leaf grants the services of the catalog for which the map keeps the
value. -/
theorem grantsService_attrLeaf (hkind : p.kind = .expression)
    (hconds : p.conditions = some (.leaf key "equals" value)) (hkey : key ≠ "") (n : String) :
    s.GrantsService p n ↔ n ∈ s.catalog.services.map Service.serviceName ∧
      s.LastRow ⟨n, key, value⟩ := by
  have hcompose : s.composePolicy p = .ok { expressions := [.leaf key "equals" value] } := by
    simp [composePolicy, hkind, hconds]
  have hmatch : ∀ subject : Option String,
      matchLeaf s.compile "equals" value [] subject ↔ subject = some value := by
    intro subject
    cases subject <;> simp [matchLeaf]
  unfold Store.GrantsService
  rw [hcompose, ← serviceAttribute_eq_some]
  simp [EffectiveAccess.Reaches, PolicyExpr.leaf, evalExpr, evalLeaf, exprEnv, hkey, hmatch]

theorem Store.mem_matching_pair {n : String} :
    n ∈ s.matching [(key, value)] ↔ ⟨n, key, value⟩ ∈ s.attributes := by
  simp only [matching, withAttribute, List.mem_toFinset, List.mem_map,
    List.mem_filter, Bool.and_eq_true, decide_eq_true_eq]
  constructor
  · rintro ⟨⟨name, k, v⟩, ⟨ha, rfl, rfl⟩, rfl⟩
    exact ha
  · exact fun ha => ⟨_, ⟨ha, rfl, rfl⟩, rfl⟩

theorem grantsService_attributes (hkind : p.kind = .attributes)
    (hmatch : p.attributeMatch = [(key, value)]) (n : String) :
    s.GrantsService p n ↔ ⟨n, key, value⟩ ∈ s.attributes := by
  have hcompose : s.composePolicy p = .ok { attributePredicates := [[(key, value)]] } := by
    simp [composePolicy, hkind, hmatch]
  unfold Store.GrantsService
  rw [hcompose, ← mem_matching_pair]
  simp [EffectiveAccess.Reaches]

theorem Store.LastRow.mem {a : ResourceAttribute} (h : s.LastRow a) : a ∈ s.attributes := by
  obtain ⟨before, after, hrows, _⟩ := h
  rw [hrows]
  exact List.mem_append_right _ List.mem_cons_self

/-- **The two policies grant the same services exactly when the map keeps the pair**: when
each service that has a row with it is in the catalog, and no later row gives the service
another value for the key. -/
theorem attrLeaf_grants_attributes_iff (s : Store) (leaf older : AccessPolicy)
    (key value : String) (hkey : key ≠ "") (hleaf : leaf.kind = .expression)
    (hconds : leaf.conditions = some (.leaf key "equals" value))
    (holder : older.kind = .attributes) (hmatch : older.attributeMatch = [(key, value)])
    (byLeaf byOlder : Finset String) (hbyLeaf : s.materialize [leaf] = .ok (byLeaf, false))
    (hbyOlder : s.materialize [older] = .ok (byOlder, false)) :
    byLeaf = byOlder ↔ s.KeepsPair key value := by
  have hin : ∀ n, n ∈ byLeaf ↔ n ∈ s.catalog.services.map Service.serviceName ∧
      s.LastRow ⟨n, key, value⟩ := by
    intro n
    rw [(materialize_eq_ok hbyLeaf).2 rfl n, ← grantsService_attrLeaf hleaf hconds hkey n]
    simp
  have hin' : ∀ n, n ∈ byOlder ↔ ⟨n, key, value⟩ ∈ s.attributes := by
    intro n
    rw [(materialize_eq_ok hbyOlder).2 rfl n, ← grantsService_attributes holder hmatch n]
    simp
  constructor
  · rintro rfl
    rintro ⟨n, k, v⟩ ha rfl rfl
    exact (hin n).1 ((hin' n).2 ha)
  · intro hkeeps
    ext n
    rw [hin, hin']
    constructor
    · exact fun h => h.2.mem
    · exact fun h => hkeeps _ h rfl rfl

private def teamStore (attributes : List ResourceAttribute) : Store where
  policies := []
  policyKey := by simp
  members := []
  shares := []
  attributes := attributes
  catalog :=
    { services := [⟨"api", false, "", none⟩], serviceKey := by simp, systems := []
      integrations := [], matched := fun _ => [], attached := fun _ => [] }
  compile := fun _ => none

private def teamLeaf : AccessPolicy :=
  { id := 1, groupID := 1, kind := .expression
    conditions := some (.leaf "team" "equals" "red") }

private def teamAttributes : AccessPolicy :=
  { id := 2, groupID := 1, kind := .attributes, attributeMatch := [("team", "red")] }

theorem attrLeaf_grants_attributes_example :
    ({"api"} : Finset String) = {"api"} ↔
      (teamStore [⟨"api", "team", "red"⟩]).KeepsPair "team" "red" :=
  attrLeaf_grants_attributes_iff (teamStore [⟨"api", "team", "red"⟩]) teamLeaf
    teamAttributes "team" "red" (by decide) rfl rfl rfl rfl {"api"} {"api"}
    (by decide +kernel) (by decide +kernel)

/-- A service with two values for one key is granted by the attributes policy of each, and
by the leaf of the one read last. -/
theorem attrLeaf_misses_earlier_value :
    (teamStore [⟨"api", "team", "red"⟩, ⟨"api", "team", "blue"⟩]).materialize
        [teamAttributes] = .ok ({"api"}, false) ∧
      (teamStore [⟨"api", "team", "red"⟩, ⟨"api", "team", "blue"⟩]).materialize
        [teamLeaf] = .ok (∅, false) := by
  decide +kernel

end Sluicio.Identity
