import Sluicio.Identity.Access
import Sluicio.Identity.ExprSemantics

/-!
# One store, two states of the integrations

The policies and shares of an organization stay, and its integrations change.  What a member is
granted in the one state and not in the other is a service of an integration whose services or
names have changed, or such an integration itself.  A policy may name its integrations by a
pattern, so a new name may be one that the pattern accepts.

The stores here answer every query: a lookup that fails is a matter of the moment and not of
the integrations.
-/

namespace Sluicio.Identity

open Lib Store

/-- No query of the store, or of its catalog, fails. -/
structure Store.Answers (s : Store) : Prop where
  store : ∀ q, s.faults q = none
  catalog : ∀ q, s.catalog.faults q = none

/-- A query that does not fail reads its rows. -/
theorem readRows_of_answers {κ ρ : Type} {faults : κ → Option String}
    (h : ∀ q, faults q = none) (q : κ) (rows : ρ) : readRows faults q rows = .ok rows := by
  unfold readRows
  rw [h q]

section Answers

variable {s : Store} (h : s.Answers)

include h

theorem Store.Answers.listPoliciesForMember (ref : MemberRef) :
    s.listPoliciesForMember ref = .ok (s.memberPolicies ref) := by
  unfold Store.listPoliciesForMember
  rw [readRows_of_answers h.store]
  rfl

theorem Store.Answers.integrationExpander (id : UUID) :
    s.catalog.integrationExpander id = .ok (s.catalog.matched id) := by
  unfold Catalog.integrationExpander Catalog.allServices
  rw [readRows_of_answers h.catalog, readRows_of_answers h.catalog]
  rfl

theorem Store.Answers.integrationServices (id : UUID) :
    s.catalog.integrationServices id = .ok (s.catalog.attached id) := by
  unfold Catalog.integrationServices
  rw [readRows_of_answers h.catalog]
  rfl

theorem Store.Answers.serviceUniverse :
    s.catalog.serviceUniverse = .ok (s.catalog.services.map Service.serviceName) := by
  unfold Catalog.serviceUniverse Catalog.allServices
  rw [readRows_of_answers h.catalog]
  rfl

theorem Store.Answers.systemExpander (kind : String) (id : Option UUID) :
    ∃ names, s.catalog.systemExpander kind id = .ok names := by
  cases id with
  | some id =>
    rw [Catalog.systemExpander_some, Catalog.systemMemberNames, readRows_of_answers h.catalog]
    exact ⟨_, rfl⟩
  | none =>
    unfold Catalog.systemExpander Catalog.allServices
    rw [readRows_of_answers h.catalog]
    exact ⟨_, rfl⟩

theorem Store.Answers.grantedServices (p : AccessPolicy) (id : UUID) :
    s.grantedServices p id = .ok (if p.grantServices then s.catalog.matched id else []) := by
  unfold Store.grantedServices
  rw [h.integrationExpander]
  split <;> rfl

/-- The entities whose name the expression picks out, over the names of all of them. -/
def Store.accepted (s : Store) (expr : PolicyExpr) (entities : List NamedEntity) :
    List NamedEntity :=
  entities.filter fun e =>
    e.name ∈ evalExpr ⟨entities.map NamedEntity.name, fun _ _ => none, s.compile⟩ expr

theorem Store.Answers.matchEntities (expr : PolicyExpr) :
    s.matchEntities expr s.catalog.listIntegrations =
      .ok (s.accepted expr s.catalog.integrations) := by
  unfold Store.matchEntities Catalog.listIntegrations
  rw [readRows_of_answers h.catalog]
  rfl

theorem Store.Answers.composeIntegration (p : AccessPolicy) :
    ∃ a, s.composeIntegration p = .ok a := by
  unfold Store.composeIntegration
  split
  · next expr _ _ =>
    obtain ⟨svcs, hsvcs⟩ : ∃ svcs, collect (fun e : NamedEntity => s.grantedServices p e.id)
        (s.accepted expr s.catalog.integrations) = .ok svcs :=
      collect_ok fun e _ => ⟨_, h.grantedServices p e.id⟩
    rw [h.matchEntities]
    simp only [wrapErr, bind, Except.bind, hsvcs]
    exact ⟨_, rfl⟩
  · rw [h.grantedServices]
    exact ⟨_, rfl⟩
  · exact ⟨_, rfl⟩

/-- Whatever the kind of a policy, its access is composed. -/
theorem Store.Answers.composePolicy (p : AccessPolicy) : ∃ a, s.composePolicy p = .ok a := by
  unfold Store.composePolicy
  cases p.kind with
  | allOrg => exact ⟨_, rfl⟩
  | service => exact ⟨_, rfl⟩
  | attributes => exact ⟨_, rfl⟩
  | expression => exact ⟨_, rfl⟩
  | integration => exact h.composeIntegration p
  | compound =>
    dsimp only
    unfold composeCompound
    split
    · exact ⟨_, rfl⟩
    · rw [h.integrationExpander]
      exact ⟨_, rfl⟩
    · exact ⟨_, rfl⟩
  | system =>
    dsimp only
    unfold composeSystem
    dsimp only
    split
    · next expr _ =>
      have hlist : s.catalog.listSystems = .ok s.catalog.systems :=
        readRows_of_answers h.catalog _ _
      obtain ⟨svcs, hsvcs⟩ : ∃ svcs, collect (fun e : NamedEntity => wrapErr "expand system: "
          (s.catalog.systemExpander (p.targetSystemKind.getD "") (some e.id)))
          (s.accepted expr s.catalog.systems) = .ok svcs :=
        collect_ok fun e _ => by
          obtain ⟨names, hnames⟩ := h.systemExpander (p.targetSystemKind.getD "") (some e.id)
          rw [hnames]
          exact ⟨_, rfl⟩
      have hmatch : s.matchEntities expr s.catalog.listSystems =
          .ok (s.accepted expr s.catalog.systems) := by
        unfold Store.matchEntities
        rw [hlist]
        rfl
      rw [hmatch]
      simp only [wrapErr, bind, Except.bind] at hsvcs ⊢
      rw [hsvcs]
      exact ⟨_, rfl⟩
    · obtain ⟨names, hnames⟩ :=
        h.systemExpander (p.targetSystemKind.getD "") p.targetSystemID
      rw [hnames]
      exact ⟨_, rfl⟩

theorem Store.Answers.composeFrom (out : EffectiveAccess) (ps : List AccessPolicy) :
    ∃ a, s.composeFrom out ps = .ok a := by
  induction ps generalizing out with
  | nil => exact ⟨_, rfl⟩
  | cons p ps ih =>
    unfold Store.composeFrom
    split
    · exact ⟨_, rfl⟩
    · obtain ⟨added, hadded⟩ := h.composePolicy p
      rw [hadded]
      exact ih (out.merge added)

theorem Store.Answers.servicesMatchingAttributes (pairs : List (String × String)) :
    ∃ names, s.servicesMatchingAttributes pairs = .ok names := by
  unfold Store.servicesMatchingAttributes
  split
  · exact ⟨_, rfl⟩
  · rw [readRows_of_answers h.store]
    exact ⟨_, rfl⟩

theorem Store.Answers.materializeExpressions (exprs : List PolicyExpr) :
    ∃ names, s.materializeExpressions exprs = .ok names := by
  unfold Store.materializeExpressions
  split
  · exact ⟨_, rfl⟩
  · unfold allServiceAttributes
    rw [h.serviceUniverse, readRows_of_answers h.store]
    exact ⟨_, rfl⟩

theorem Store.Answers.materializeAttributes (predicates : List (List (String × String))) :
    ∃ names, s.materializeAttributes predicates = .ok names := by
  induction predicates with
  | nil => exact ⟨_, rfl⟩
  | cons pairs rest ih =>
    obtain ⟨names, hnames⟩ := h.servicesMatchingAttributes pairs
    obtain ⟨others, hothers⟩ := ih
    unfold Store.materializeAttributes
    rw [hnames, hothers]
    exact ⟨_, rfl⟩

theorem Store.Answers.materializeCompounds (cps : List CompoundPredicate) :
    ∃ names, s.materializeCompounds cps = .ok names := by
  induction cps with
  | nil => exact ⟨_, rfl⟩
  | cons cp rest ih =>
    obtain ⟨matchSet, hmatch⟩ := h.servicesMatchingAttributes cp.attributeMatch
    obtain ⟨others, hothers⟩ := ih
    unfold Store.materializeCompounds
    split
    · exact ⟨others, hothers⟩
    · rw [hmatch, hothers]
      exact ⟨_, rfl⟩

theorem Store.Answers.materializeAccess (access : EffectiveAccess) :
    ∃ r, s.materializeAccess access = .ok r := by
  obtain ⟨exprs, hexprs⟩ := h.materializeExpressions access.expressions
  obtain ⟨attrs, hattrs⟩ := h.materializeAttributes access.attributePredicates
  obtain ⟨compounds, hcompounds⟩ := h.materializeCompounds access.compoundPredicates
  unfold Store.materializeAccess
  rw [hexprs, hattrs, hcompounds]
  split
  · exact ⟨_, rfl⟩
  · split
    · exact ⟨_, rfl⟩
    · exact ⟨_, rfl⟩

theorem Store.Answers.materialize (ps : List AccessPolicy) : ∃ r, s.materialize ps = .ok r := by
  obtain ⟨access, haccess⟩ := h.composeFrom {} ps
  unfold Store.materialize Store.composeAccess
  rw [haccess]
  exact h.materializeAccess access

omit h in
theorem memoized_ok {α : Type} (memo : Memo α) (key : MemoKey) {compute : Except String α}
    (hcompute : ∃ r, compute = .ok r) : ∃ r, memoized memo key compute = .ok r := by
  obtain ⟨r, rfl⟩ := hcompute
  unfold memoized
  split
  · exact ⟨_, rfl⟩
  · exact ⟨_, rfl⟩

theorem Store.Answers.signalLoop (ups : List UserPolicy) (st : SignalLoop)
    (sigs : List Signal) : ∃ st', s.signalLoop ups st sigs = .ok st' := by
  induction sigs generalizing st with
  | nil => exact ⟨_, rfl⟩
  | cons sig sigs ih =>
    have hcomposed : ∃ ids, s.composedIntegrations (signalPolicies ups sig) = .ok ids := by
      obtain ⟨access, haccess⟩ := h.composeFrom {} (signalPolicies ups sig)
      unfold composedIntegrations composeAccess
      rw [haccess]
      exact ⟨_, rfl⟩
    obtain ⟨integs, hintegs⟩ :=
      memoized_ok st.composed (memoKey false (signalPolicies ups sig)) hcomposed
    obtain ⟨r, hr⟩ := memoized_ok st.memo (memoKey false (signalPolicies ups sig))
      (h.materialize (signalPolicies ups sig))
    unfold Store.signalLoop Store.signalStep Store.integrationsMemo Store.materializeMemo
    rw [hintegs, hr]
    exact ih _

theorem Store.Answers.expandShare (r : ShareKind × UUID × Bool) :
    ∃ names, s.expandShare r = .ok names := by
  unfold Store.expandShare
  split
  · split
    · rw [h.integrationExpander]
      exact ⟨_, rfl⟩
    · exact ⟨_, rfl⟩
  · next id _ =>
    obtain ⟨names, hnames⟩ := h.systemExpander "" (some id)
    rw [hnames]
    exact ⟨_, rfl⟩

theorem Store.Answers.sharesOf (ref : MemberRef) : ∃ shared, s.sharesOf ref = .ok shared := by
  cases ref with
  | serviceAccount id => exact ⟨_, rfl⟩
  | user id =>
    obtain ⟨names, hnames⟩ := collect_ok fun (r : ShareKind × UUID × Bool)
      (_ : r ∈ s.sharedResources id) => h.expandShare r
    have hshares : s.sharedResourcesForUser id = .ok (s.sharedResources id) := by
      unfold sharedResourcesForUser
      rw [readRows_of_answers h.store]
      rfl
    show ∃ shared, s.expandShares id = .ok shared
    unfold expandShares
    rw [hshares]
    simp only [bind, Except.bind, hnames]
    exact ⟨_, rfl⟩

/-- **A store that answers resolves every member.** -/
theorem Store.Answers.resolveAccessSetsMember (ref : MemberRef) :
    ∃ sets, s.resolveAccessSetsMember ref = .ok sets := by
  obtain ⟨⟨vis, memo⟩, hvis⟩ := memoized_ok []
    (memoKey false ((s.memberPolicies ref).map UserPolicy.policy))
    (h.materialize ((s.memberPolicies ref).map UserPolicy.policy))
  obtain ⟨⟨man, memo'⟩, hman⟩ := memoized_ok memo
    (memoKey true (managedPolicies (s.memberPolicies ref)))
    (h.materialize (managedPolicies (s.memberPolicies ref)))
  obtain ⟨st, hst⟩ := h.signalLoop (s.memberPolicies ref) { memo := memo' } allSignals
  obtain ⟨shared, hshared⟩ := h.sharesOf ref
  unfold Store.resolveAccessSetsMember Store.materializeMemo
  rw [h.listPoliciesForMember]
  simp only [bind, Except.bind, hvis, hman, hst, hshared]
  split
  · exact ⟨_, rfl⟩
  · exact ⟨_, rfl⟩

end Answers

/-! ## What a policy grants of the integrations -/

/-- What a store reads of the integrations. -/
structure IntegrationView where
  entities : List NamedEntity
  matched : UUID → List String
  attached : UUID → List String

/-- The store with these integrations in its catalog, and every query answered. -/
def Store.over (s : Store) (v : IntegrationView) : Store :=
  { s with
    faults := fun _ => none
    catalog :=
      { s.catalog with
        integrations := v.entities
        matched := v.matched
        attached := v.attached
        faults := fun _ => none } }

/-- The pattern of a policy is true of an integration of this name. -/
def Store.AcceptsName (s : Store) (expr : PolicyExpr) (name : String) : Prop :=
  expr.Grants s.compile ⟨name, fun _ => none⟩

/-- The policy is about the integration, by its id or by a pattern that accepts its name. -/
def Store.NamesIntegration (s : Store) (v : IntegrationView) (p : AccessPolicy) (id : UUID) :
    Prop :=
  p.targetIntegrationID = some id ∨
    p.targetIntegrationID = none ∧ ∃ expr, p.conditions = some expr ∧
      ∃ name, ⟨id, name⟩ ∈ v.entities ∧ s.AcceptsName expr name

section Over

variable {s : Store} {v v' : IntegrationView} {p : AccessPolicy} {n : String} {id : UUID}

theorem Store.answers_over (s : Store) (v : IntegrationView) : (s.over v).Answers :=
  ⟨fun _ => rfl, fun _ => rfl⟩

theorem Store.matching_over (s : Store) (v : IntegrationView)
    (pairs : List (String × String)) : (s.over v).matching pairs = s.matching pairs := by
  induction pairs with
  | nil => rfl
  | cons kv kvs ih =>
    cases kvs with
    | nil => rfl
    | cons kv' kvs =>
      show (s.over v).withAttribute kv ∩ (s.over v).matching (kv' :: kvs) = _
      rw [ih]
      rfl

theorem EffectiveAccess.reaches_over (a : EffectiveAccess) :
    a.Reaches (s.over v) n ↔ a.Reaches s n := by
  have henv : (s.over v).exprEnv = s.exprEnv := rfl
  unfold EffectiveAccess.Reaches
  simp only [s.matching_over v, henv]

theorem mem_accepted {expr : PolicyExpr} {entities : List NamedEntity} {e : NamedEntity} :
    e ∈ s.accepted expr entities ↔ e ∈ entities ∧ s.AcceptsName expr e.name := by
  unfold accepted Store.AcceptsName
  rw [List.mem_filter, decide_eq_true_eq, mem_evalExpr_iff]
  constructor
  · exact fun h => ⟨h.1, h.2.2⟩
  · exact fun h => ⟨h.1, List.mem_map_of_mem h.1, h.2⟩

theorem composeIntegration_over {a : EffectiveAccess}
    (h : (s.over v).composeIntegration p = .ok a) :
    (∀ id, id ∈ a.integrations ↔ s.NamesIntegration v p id) ∧
      ∀ n, a.Reaches s n ↔ p.grantServices ∧
        ∃ id, s.NamesIntegration v p id ∧ n ∈ v.matched id := by
  have hgranted : ∀ id, (s.over v).grantedServices p id =
      .ok (if p.grantServices then v.matched id else []) :=
    (s.answers_over v).grantedServices p
  unfold composeIntegration at h
  unfold Store.NamesIntegration
  split at h
  · next expr htarget hconditions =>
    have hmatch : (s.over v).matchEntities expr (s.over v).catalog.listIntegrations =
        .ok (s.accepted expr v.entities) := (s.answers_over v).matchEntities expr
    simp only [bind_eq_ok, wrapErr_eq_ok, pure_eq_ok, hmatch, Except.ok.injEq] at h
    obtain ⟨_, rfl, svcs, hsvcs, rfl⟩ := h
    have hids : ∀ id, (∃ e ∈ s.accepted expr v.entities, e.id = id) ↔
        ∃ name, (⟨id, name⟩ : NamedEntity) ∈ v.entities ∧ s.AcceptsName expr name := by
      intro id
      simp only [mem_accepted]
      constructor
      · rintro ⟨e, he, rfl⟩
        exact ⟨e.name, he⟩
      · rintro ⟨name, hname⟩
        exact ⟨_, hname, rfl⟩
    rw [htarget, hconditions]
    simp only [reduceCtorEq, false_or, true_and, Option.some.injEq, exists_eq_left']
    constructor
    · intro id
      rw [List.mem_toFinset, List.mem_map]
      exact hids id
    · intro n
      simp only [EffectiveAccess.Reaches, List.mem_toFinset, mem_of_collect_eq_ok hsvcs, hgranted,
        Except.ok.injEq, exists_eq_left', List.not_mem_nil, false_and, exists_false, or_false]
      constructor
      · rintro ⟨e, he, hn⟩
        cases hflag : p.grantServices with
        | false => simp [hflag] at hn
        | true => exact ⟨rfl, e.id, (hids e.id).1 ⟨e, he, rfl⟩, by simpa [hflag] using hn⟩
      · rintro ⟨hflag, id, hid, hn⟩
        obtain ⟨e, he, rfl⟩ := (hids id).2 hid
        exact ⟨e, he, by simpa [hflag] using hn⟩
  · next target htarget =>
    simp only [bind_eq_ok, pure_eq_ok, hgranted, Except.ok.injEq] at h
    obtain ⟨_, rfl, rfl⟩ := h
    rw [htarget]
    simp only [Option.some.injEq, reduceCtorEq, false_and, or_false]
    constructor
    · intro id
      rw [Finset.mem_singleton, eq_comm]
    · intro n
      simp only [EffectiveAccess.Reaches, List.mem_toFinset, List.not_mem_nil, false_and,
        exists_false, or_false, exists_eq_left']
      cases p.grantServices <;> simp
  · next htarget hconditions =>
    obtain rfl : ({} : EffectiveAccess) = a := by simpa using h
    rw [htarget, hconditions]
    simp [EffectiveAccess.Reaches]

/-- What composing the policy grants of the integrations, read off the view. -/
theorem grantsIntegration_over :
    (s.over v).GrantsIntegration p id ↔ p.kind = .integration ∧ s.NamesIntegration v p id := by
  unfold Store.GrantsIntegration composePolicy
  cases hkind : p.kind with
  | integration =>
    obtain ⟨a, ha⟩ := (s.answers_over v).composeIntegration p
    simp only [ha, Except.ok.injEq, exists_eq_left', true_and]
    exact (composeIntegration_over ha).1 id
  | allOrg => simp
  | service => simp
  | attributes => simp
  | expression => simp
  | compound =>
    simp only [reduceCtorEq, false_and, iff_false]
    rintro ⟨a, ha, hid⟩
    unfold composeCompound at ha
    split at ha
    · cases ha
      exact absurd hid (Finset.notMem_empty id)
    · simp only [bind_eq_ok, pure_eq_ok] at ha
      obtain ⟨_, _, rfl⟩ := ha
      exact absurd hid (Finset.notMem_empty id)
    · cases ha
      exact absurd hid (Finset.notMem_empty id)
  | system =>
    simp only [reduceCtorEq, false_and, iff_false]
    rintro ⟨a, ha, hid⟩
    unfold composeSystem at ha
    dsimp only at ha
    split at ha
    · simp only [bind_eq_ok, pure_eq_ok] at ha
      obtain ⟨_, _, _, _, rfl⟩ := ha
      exact absurd hid (Finset.notMem_empty id)
    · simp only [bind_eq_ok, pure_eq_ok] at ha
      obtain ⟨_, _, rfl⟩ := ha
      exact absurd hid (Finset.notMem_empty id)

/-- Whatever integration has service `n` now had it before, under a name that it had. -/
def IntegrationView.KeepsService (v v' : IntegrationView) (n : String) : Prop :=
  ∀ id, n ∈ v'.matched id → n ∈ v.matched id ∧
    ∀ name, (⟨id, name⟩ : NamedEntity) ∈ v'.entities → ⟨id, name⟩ ∈ v.entities

/-- The integration is there under a name that every policy which accepts its name now
accepts. -/
def Store.KeepsName (s : Store) (v v' : IntegrationView) (id : UUID) : Prop :=
  ∀ name, (⟨id, name⟩ : NamedEntity) ∈ v'.entities →
    ∃ old, (⟨id, old⟩ : NamedEntity) ∈ v.entities ∧
      ∀ q ∈ s.policies, ∀ expr, q.kind = .integration → q.targetIntegrationID = none →
        q.conditions = some expr → s.AcceptsName expr name → s.AcceptsName expr old

/-- A service that keeps its integrations is granted by no policy that did not grant it before. -/
theorem grantsService_of_over (hkeep : v.KeepsService v' n)
    (h : (s.over v').GrantsService p n) : (s.over v).GrantsService p n := by
  obtain ⟨a, ha, hreach⟩ := h
  rw [EffectiveAccess.reaches_over] at hreach
  have hsame : ∀ b, (s.over v).composePolicy p = .ok b → b.Reaches s n →
      (s.over v).GrantsService p n := fun b hb hreach =>
    ⟨b, hb, (EffectiveAccess.reaches_over b).2 hreach⟩
  unfold composePolicy at ha hsame
  cases hkind : p.kind with
  | integration =>
    rw [hkind] at ha hsame
    obtain ⟨b, hb⟩ := (s.answers_over v).composeIntegration p
    refine hsame b hb (((composeIntegration_over hb).2 n).2 ?_)
    obtain ⟨hflag, id, hid, hn⟩ := ((composeIntegration_over ha).2 n).1 hreach
    obtain ⟨hold, hnames⟩ := hkeep id hn
    refine ⟨hflag, id, ?_, hold⟩
    rcases hid with htarget | ⟨hnone, expr, hconditions, name, hentity, haccepts⟩
    · exact .inl htarget
    · exact .inr ⟨hnone, expr, hconditions, name, hnames name hentity, haccepts⟩
  | compound =>
    rw [hkind] at ha hsame
    dsimp only at ha hsame
    unfold composeCompound at ha hsame
    cases hservice : p.targetServiceName with
    | some name =>
      simp only [hservice] at ha hsame
      exact hsame a ha hreach
    | none =>
      cases htarget : p.targetIntegrationID with
      | none =>
        simp only [hservice, htarget] at ha hsame
        exact hsame a ha hreach
      | some id =>
        simp only [hservice, htarget, (s.answers_over v').integrationExpander,
          (s.answers_over v).integrationExpander] at ha hsame
        obtain rfl := Except.ok.inj ha
        refine hsame _ rfl ?_
        simp only [EffectiveAccess.Reaches, Finset.notMem_empty, List.not_mem_nil, false_and,
          exists_false, false_or, List.mem_singleton, exists_eq_left] at hreach ⊢
        exact ⟨(hkeep id hreach.1).1, hreach.2⟩
  | allOrg =>
    rw [hkind] at ha hsame
    exact hsame a ha hreach
  | service =>
    rw [hkind] at ha hsame
    exact hsame a ha hreach
  | attributes =>
    rw [hkind] at ha hsame
    exact hsame a ha hreach
  | expression =>
    rw [hkind] at ha hsame
    exact hsame a ha hreach
  | system =>
    rw [hkind] at ha hsame
    exact hsame a ha hreach

/-! ## What a member is granted -/

variable {ref : MemberRef}

theorem sharesService_of_over (hkeep : v.KeepsService v' n) (h : (s.over v').SharesService ref n) :
    (s.over v).SharesService ref n := by
  obtain ⟨shared', hshared', hn⟩ := h
  obtain ⟨shared, hshared⟩ := (s.answers_over v).sharesOf ref
  refine ⟨shared, hshared, ?_⟩
  cases ref with
  | serviceAccount id =>
    obtain rfl : ({} : SharedReach) = shared' := by simpa [sharesOf] using hshared'
    exact absurd hn (Finset.notMem_empty n)
  | user id =>
    obtain ⟨sh, hsh, hreach, hgrants⟩ := (expandShares_services hshared' n).1 hn
    refine (expandShares_services hshared n).2 ⟨sh, hsh, hreach, ?_⟩
    unfold Store.ShareGrants at hgrants ⊢
    obtain ⟨names, hn, hgrants⟩ := hgrants
    cases hkind : sh.resourceKind with
    | system =>
      rw [hkind] at hgrants
      exact ⟨names, hn, hgrants⟩
    | integration =>
      rw [hkind] at hgrants
      dsimp only at hgrants
      rw [(s.answers_over v').integrationExpander] at hgrants
      obtain rfl := Except.ok.inj hgrants.2
      exact ⟨_, (hkeep sh.resourceID hn).1, hgrants.1,
        (s.answers_over v).integrationExpander sh.resourceID⟩

theorem sharesIntegration_of_over (h : (s.over v').SharesIntegration ref id) :
    (s.over v).SharesIntegration ref id := by
  obtain ⟨shared', hshared', hid⟩ := h
  obtain ⟨shared, hshared⟩ := (s.answers_over v).sharesOf ref
  refine ⟨shared, hshared, ?_⟩
  cases ref with
  | serviceAccount _ =>
    obtain rfl : ({} : SharedReach) = shared' := by simpa [sharesOf] using hshared'
    exact absurd hid (Finset.notMem_empty id)
  | user userID =>
    have hintegrations : ∀ (w : IntegrationView) (r : SharedReach),
        (s.over w).expandShares userID = .ok r → r.integrations =
          (((s.sharedResources userID).filter fun x => x.1 = .integration).map
            fun x => x.2.1).toFinset := by
      intro w r hr
      simp only [expandShares, sharedResourcesForUser, bind_eq_ok, wrapErr_eq_ok,
        readRows_eq_ok, pure_eq_ok] at hr
      obtain ⟨_, ⟨_, rfl⟩, _, _, rfl⟩ := hr
      rfl
    rw [hintegrations v shared hshared, ← hintegrations v' shared' hshared']
    exact hid

section Members

variable {ref : MemberRef} {sets sets' : AccessSets}

/-- Signal by signal, a member sees no service that it did not see before. -/
theorem seesFor_of_over (hkeep : v.KeepsService v' n)
    (hsets' : (s.over v').resolveAccessSetsMember ref = .ok sets')
    (hsets : (s.over v).resolveAccessSetsMember ref = .ok sets) {sig : Signal}
    (h : sets'.SeesFor sig n) : sets.SeesFor sig n := by
  rw [(resolveAccessSetsMember_eq_ok hsets').seesFor_iff] at h
  rw [(resolveAccessSetsMember_eq_ok hsets).seesFor_iff]
  rcases h with hall | ⟨q, hq, hgrants⟩ | hshares
  · exact .inl hall
  · exact .inr (.inl ⟨q, hq, grantsService_of_over hkeep hgrants⟩)
  · exact .inr (.inr (sharesService_of_over hkeep hshares))

/-- Nor is an integration that keeps its name, or one that the same policies accept. -/
theorem grantsIntegration_of_over (hkeep : s.KeepsName v v' id) (hp : p ∈ s.policies)
    (h : (s.over v').GrantsIntegration p id) : (s.over v).GrantsIntegration p id := by
  rw [grantsIntegration_over] at h ⊢
  obtain ⟨hkind, htarget | ⟨hnone, expr, hconditions, name, hentity, haccepts⟩⟩ := h
  · exact ⟨hkind, .inl htarget⟩
  · obtain ⟨old, hold, hpolicies⟩ := hkeep name hentity
    exact ⟨hkind, .inr ⟨hnone, expr, hconditions, old, hold,
      hpolicies p hp expr hkind hnone hconditions haccepts⟩⟩

end Members

/-- The integration is granted by one of the policies, or shared with the member. -/
def Store.GrantedTo (s : Store) (ref : MemberRef) (ps : List AccessPolicy) (id : UUID) : Prop :=
  (∃ q ∈ ps, s.GrantsIntegration q id) ∨ s.SharesIntegration ref id

theorem grantedTo_of_over (hkeep : s.KeepsName v v' id) {ps : List AccessPolicy} (hps : s.Holds ps)
    (h : (s.over v').GrantedTo ref ps id) : (s.over v).GrantedTo ref ps id := by
  rcases h with ⟨q, hq, hgrants⟩ | hshares
  · exact .inl ⟨q, hq, grantsIntegration_of_over hkeep (hps q hq) hgrants⟩
  · exact .inr (sharesIntegration_of_over hshares)

end Over

end Sluicio.Identity
