import Mathlib.Data.Fintype.Basic
import Sluicio.Identity.Policies

/-!
# Access sets

`ResolveAccessSetsMember` resolves a principal's policies into the visible and
the managed set, and into one visible set per telemetry signal, sharing
evaluations through a memo.  The specification theorem of this file removes the
memo: every set of the result is a plain materialisation of a list of policies,
plus the principal's shares.
-/

namespace Sluicio.Identity

open Lib Store UserPolicy

/-- `AccessSets`.  A signal the resolver did not fill has no entry in the source's
maps; here it has the empty set. -/
structure AccessSets where
  visible : Finset String := ∅
  visibleAll : Bool := false
  managed : Finset String := ∅
  managedAll : Bool := false
  visibleBySignal : Signal → Finset String := fun _ => ∅
  signalAll : Signal → Bool := fun _ => false
  integrationsBySignal : Signal → Finset UUID := fun _ => ∅

def AccessSets.integrationsFor (a : AccessSets) (sig : Signal) : Finset UUID :=
  a.integrationsBySignal sig

/-- `VisibleFor`: the visible set for one signal, and whether it is the
wildcard. -/
def AccessSets.visibleFor (a : AccessSets) (sig : Signal) : Finset String × Bool :=
  if a.visibleAll || a.signalAll sig then (∅, true)
  else (a.visibleBySignal sig, false)

/-- `sharedReach`: what shares add to a user's access. -/
structure SharedReach where
  services : Finset String := ∅
  integrations : Finset UUID := ∅

/-- What one shared resource adds. -/
def Store.expandShare (s : Store) (r : ShareKind × UUID × Bool) : Except String (List String) :=
  match r with
  | (.integration, id, grantServices) =>
    if grantServices then
      wrapErr "expand shared integration: " (s.catalog.integrationExpander id)
    else .ok []
  | (.system, id, _) =>
    wrapErr "expand shared system: " (s.catalog.systemExpander "" (some id))

def Store.expandShares (s : Store) (userID : UUID) : Except String SharedReach := do
  let shares ← s.sharedResourcesForUser userID
  let names ← collect s.expandShare shares
  return { services := names.toFinset,
           integrations := ((shares.filter fun r => r.1 = .integration).map
             fun r => r.2.1).toFinset }

def Store.sharesOf (s : Store) : MemberRef → Except String SharedReach
  | .user id => s.expandShares id
  | .serviceAccount _ => .ok {}

/-! ## The resolver -/

/-- `policyCoversSignal`. -/
def AccessPolicy.coversSignal (p : AccessPolicy) (sig : Signal) : Bool :=
  p.signals.isEmpty || p.signals.contains sig

/-- The policies of the managed tier: carried by a group the member can write in,
and not narrowed to some signals. -/
def managedPolicies (ups : List UserPolicy) : List AccessPolicy :=
  (ups.filter fun up => up.groupRole.canWrite && up.policy.signals.isEmpty).map policy

def signalPolicies (ups : List UserPolicy) (sig : Signal) : List AccessPolicy :=
  (ups.filter fun up => up.policy.coversSignal sig).map policy

/-- The memo key of a policy list: the source concatenates the ids, after
`managed:` for the managed tier. -/
structure MemoKey where
  managed : Bool
  ids : List UUID
  deriving DecidableEq

def memoKey (managed : Bool) (ps : List AccessPolicy) : MemoKey :=
  ⟨managed, ps.map AccessPolicy.id⟩

abbrev Memo (α : Type) := List (MemoKey × α)

def memoized {α : Type} (memo : Memo α) (key : MemoKey) (compute : Except String α) :
    Except String (α × Memo α) :=
  match memo.lookup key with
  | some r => .ok (r, memo)
  | none => do
      let r ← compute
      return (r, (key, r) :: memo)

/-- `materialize` of the source: one evaluation per distinct policy list. -/
def Store.materializeMemo (s : Store) (memo : Memo (Finset String × Bool))
    (managed : Bool) (ps : List AccessPolicy) :
    Except String ((Finset String × Bool) × Memo (Finset String × Bool)) :=
  memoized memo (memoKey managed ps) (s.materialize ps)

def Store.composedIntegrations (s : Store) (ps : List AccessPolicy) :
    Except String (Finset UUID) := do
  let access ← s.composeAccess ps
  return access.integrations

/-- `integrationsOf` of the source. -/
def Store.integrationsMemo (s : Store) (memo : Memo (Finset UUID))
    (ps : List AccessPolicy) : Except String (Finset UUID × Memo (Finset UUID)) :=
  memoized memo (memoKey false ps) (s.composedIntegrations ps)

/-- The state of the loop over `AllSignals`. -/
structure SignalLoop where
  memo : Memo (Finset String × Bool)
  composed : Memo (Finset UUID) := []
  visibleBySignal : Signal → Finset String := fun _ => ∅
  signalAll : Signal → Bool := fun _ => false
  integrationsBySignal : Signal → Finset UUID := fun _ => ∅

/-- The body of the loop over `AllSignals`. -/
def Store.signalStep (s : Store) (ups : List UserPolicy) (st : SignalLoop)
    (sig : Signal) : Except String SignalLoop := do
  let (integs, composed) ← s.integrationsMemo st.composed (signalPolicies ups sig)
  let (r, memo) ← s.materializeMemo st.memo false (signalPolicies ups sig)
  return {
    memo := memo
    composed := composed
    integrationsBySignal := Function.update st.integrationsBySignal sig integs
    signalAll := Function.update st.signalAll sig r.2
    visibleBySignal :=
      if r.2 then st.visibleBySignal else Function.update st.visibleBySignal sig r.1 }

def Store.signalLoop (s : Store) (ups : List UserPolicy) :
    SignalLoop → List Signal → Except String SignalLoop
  | st, [] => .ok st
  | st, sig :: sigs => do
      let st ← s.signalStep ups st sig
      s.signalLoop ups st sigs

def Store.resolveAccessSetsMember (s : Store) (ref : MemberRef) :
    Except String AccessSets := do
  let ups ← s.listPoliciesForMember ref
  let (vis, memo) ← s.materializeMemo [] false (ups.map policy)
  let (man, memo) ← s.materializeMemo memo true (managedPolicies ups)
  if vis.2 then
    return { visible := vis.1, visibleAll := true, managed := man.1,
             managedAll := man.2 }
  else do
    let st ← s.signalLoop ups { memo := memo } allSignals
    let shared ← s.sharesOf ref
    return {
      visible := vis.1 ∪ shared.services
      visibleAll := false
      managed := man.1
      managedAll := man.2
      signalAll := st.signalAll
      visibleBySignal := fun sig =>
        if st.signalAll sig then st.visibleBySignal sig
        else st.visibleBySignal sig ∪ shared.services
      integrationsBySignal := fun sig =>
        st.integrationsBySignal sig ∪ shared.integrations }

def Store.resolveEffectiveAccessMember (s : Store) (ref : MemberRef) :
    Except String EffectiveAccess := do
  let ups ← s.listPoliciesForMember ref
  s.composeAccess (ups.map policy)

/-- `ResolveVisibleServiceSetMember`: the visible set and the wildcard, resolved
without the per-signal sets. -/
def Store.resolveVisibleServiceSetMember (s : Store) (ref : MemberRef) :
    Except String (Finset String × Bool) := do
  let access ← s.resolveEffectiveAccessMember ref
  let (names, wildcard) ← s.materializeAccess access
  if wildcard then return (names, true)
  else do
    let shared ← s.sharesOf ref
    return (names ∪ shared.services, false)

def Store.resolveVisibleIntegrationsMember (s : Store) (ref : MemberRef) :
    Except String (Finset UUID × Bool) := do
  let access ← s.resolveEffectiveAccessMember ref
  if access.allOrg then return (∅, true)
  else do
    let shared ← s.sharesOf ref
    return (access.integrations ∪ shared.integrations, false)

def Store.Holds (s : Store) (ps : List AccessPolicy) : Prop := ∀ p ∈ ps, p ∈ s.policies

variable {ups : List UserPolicy} {s : Store} {ps : List AccessPolicy}

theorem Store.Holds.eq_of_ids {qs : List AccessPolicy} (hps : s.Holds ps) (hqs : s.Holds qs)
    (h : ps.map AccessPolicy.id = qs.map AccessPolicy.id) : ps = qs := by
  induction ps generalizing qs with
  | nil => exact (List.map_eq_nil_iff.1 h.symm).symm
  | cons p ps ih =>
    cases qs with
    | nil => simp at h
    | cons q qs =>
      obtain ⟨hid, hids⟩ : p.id = q.id ∧
          ps.map AccessPolicy.id = qs.map AccessPolicy.id := by simpa using h
      have hpq : p = q :=
        eq_of_key_eq s.policyKey (hps p (by simp)) (hqs q (by simp)) hid
      have hrest := ih (fun r hr => hps r (by simp [hr]))
        (fun r hr => hqs r (by simp [hr])) hids
      rw [hpq, hrest]

/-- Every remembered answer is the answer for each policy list of its key. -/
def MemoSound {α : Type} (s : Store) (compute : List AccessPolicy → Except String α)
    (memo : Memo α) : Prop :=
  ∀ managed ps r, s.Holds ps → memo.lookup (memoKey managed ps) = some r → compute ps = .ok r

variable {sig : Signal} {managed : Bool} {userID : UUID} {st' st : SignalLoop}

theorem memoized_eq_ok {α : Type} {compute : List AccessPolicy → Except String α}
    {memo memo' : Memo α} {r : α} (hsound : MemoSound s compute memo) (hps : s.Holds ps)
    (h : memoized memo (memoKey managed ps) (compute ps) = .ok (r, memo')) :
    compute ps = .ok r ∧ MemoSound s compute memo' := by
  unfold memoized at h
  cases hlookup : memo.lookup (memoKey managed ps) with
  | some r' =>
    simp only [hlookup, Except.ok.injEq, Prod.mk.injEq] at h
    obtain ⟨rfl, rfl⟩ := h
    exact ⟨hsound managed ps r' hps hlookup, hsound⟩
  | none =>
    simp only [hlookup, bind_eq_ok, pure_eq_ok, Prod.mk.injEq] at h
    obtain ⟨r', hr', rfl, rfl⟩ := h
    refine ⟨hr', fun managed' qs r'' hqs hq => ?_⟩
    rw [List.lookup_cons] at hq
    split at hq
    · next hkey =>
      have hids : qs.map AccessPolicy.id = ps.map AccessPolicy.id := by
        have := eq_of_beq hkey
        simp only [memoKey, MemoKey.mk.injEq] at this
        exact this.2
      obtain rfl : r' = r'' := by simpa using hq
      rw [hqs.eq_of_ids hps hids]
      exact hr'
    · exact hsound managed' qs r'' hqs hq

theorem memoSound_nil {α : Type} (s : Store)
    (compute : List AccessPolicy → Except String α) : MemoSound s compute [] := by
  intro managed ps r _ h
  simp at h

theorem materializeMemo_eq_ok {memo memo' : Memo (Finset String × Bool)} {r : Finset String × Bool}
    (hsound : MemoSound s s.materialize memo) (hps : s.Holds ps)
    (h : s.materializeMemo memo managed ps = .ok (r, memo')) :
    s.materialize ps = .ok r ∧ MemoSound s s.materialize memo' :=
  memoized_eq_ok hsound hps h

/-- The loop's state holds the answers for `sig`. -/
def SignalLoop.Answers (s : Store) (ups : List UserPolicy) (st : SignalLoop)
    (sig : Signal) : Prop :=
  ∃ names wildcard, s.materialize (signalPolicies ups sig) = .ok (names, wildcard) ∧
    st.signalAll sig = wildcard ∧
    (wildcard = false → st.visibleBySignal sig = names) ∧
    s.composedIntegrations (signalPolicies ups sig) = .ok (st.integrationsBySignal sig)

structure SignalLoop.Sound (s : Store) (st : SignalLoop) : Prop where
  memo : MemoSound s s.materialize st.memo
  composed : MemoSound s s.composedIntegrations st.composed

theorem signalStep_eq_ok (hsound : st.Sound s) (hups : s.Holds (signalPolicies ups sig))
    (h : s.signalStep ups st sig = .ok st') :
    st'.Sound s ∧ st'.Answers s ups sig ∧
      ∀ sig', st.Answers s ups sig' → st'.Answers s ups sig' := by
  simp only [signalStep, bind_eq_ok, pure_eq_ok] at h
  obtain ⟨⟨integs, composed⟩, hintegs, ⟨⟨names, wildcard⟩, memo⟩, hnames, rfl⟩ := h
  obtain ⟨hi, hcomposed⟩ := memoized_eq_ok hsound.composed hups hintegs
  obtain ⟨hm, hmemo⟩ := materializeMemo_eq_ok hsound.memo hups hnames
  have hhere : SignalLoop.Answers s ups
      { memo := memo, composed := composed,
        integrationsBySignal := Function.update st.integrationsBySignal sig integs,
        signalAll := Function.update st.signalAll sig wildcard,
        visibleBySignal :=
          if wildcard then st.visibleBySignal
          else Function.update st.visibleBySignal sig names } sig := by
    refine ⟨names, wildcard, hm, by simp, fun hw => by simp [hw], by simpa using hi⟩
  refine ⟨⟨hmemo, hcomposed⟩, hhere, fun sig' hsig' => ?_⟩
  by_cases hs : sig' = sig
  · subst hs
    exact hhere
  obtain ⟨names', wildcard', hm', hall, hvis, hint⟩ := hsig'
  refine ⟨names', wildcard', hm', ?_, fun hw => ?_, ?_⟩
  · simpa [Function.update_of_ne hs] using hall
  · rw [← hvis hw]
    cases wildcard <;> simp [Function.update_of_ne hs]
  · simpa [Function.update_of_ne hs] using hint

theorem signalLoop_eq_ok {sigs : List Signal} (hsound : st.Sound s)
    (hups : ∀ sig, s.Holds (signalPolicies ups sig)) (h : s.signalLoop ups st sigs = .ok st') :
    ∀ sig, st.Answers s ups sig ∨ sig ∈ sigs → st'.Answers s ups sig := by
  induction sigs generalizing st with
  | nil =>
    obtain rfl : st = st' := by simpa [signalLoop] using h
    simp
  | cons sig sigs ih =>
    simp only [signalLoop, bind_eq_ok] at h
    obtain ⟨mid, hmid, h⟩ := h
    obtain ⟨hsound', hhere, hkeep⟩ := signalStep_eq_ok hsound (hups sig) hmid
    intro sig' hsig'
    refine ih hsound' h sig' ?_
    rcases hsig' with hold | hmem
    · exact Or.inl (hkeep sig' hold)
    · rcases List.mem_cons.1 hmem with rfl | hrest
      · exact Or.inl hhere
      · exact Or.inr hrest

/-! ## What the resolver answers -/

/-- Some share gives the principal service `n`. -/
def Store.SharesService (s : Store) (ref : MemberRef) (n : String) : Prop :=
  ∃ shared, s.sharesOf ref = .ok shared ∧ n ∈ shared.services

/-- Some share gives the principal integration `id`. -/
def Store.SharesIntegration (s : Store) (ref : MemberRef) (id : UUID) : Prop :=
  ∃ shared, s.sharesOf ref = .ok shared ∧ id ∈ shared.integrations

/-- Service `n` is readable: through the wildcard or in the visible set. -/
def AccessSets.Sees (a : AccessSets) (n : String) : Prop :=
  a.visibleAll ∨ n ∈ a.visible

/-- Service `n` is manageable. -/
def AccessSets.Manages (a : AccessSets) (n : String) : Prop :=
  a.managedAll ∨ n ∈ a.managed

/-- Service `n` is readable for one signal. -/
def AccessSets.SeesFor (a : AccessSets) (sig : Signal) (n : String) : Prop :=
  (a.visibleFor sig).2 ∨ n ∈ (a.visibleFor sig).1

theorem holds_memberPolicies (s : Store) (ref : MemberRef) :
    s.Holds ((s.memberPolicies ref).map policy) := by
  intro p hp
  simp only [memberPolicies, List.mem_map, List.mem_flatMap] at hp
  obtain ⟨_, ⟨q, hq, _, _, rfl⟩, rfl⟩ := hp
  exact hq

theorem holds_managedPolicies (s : Store) (ref : MemberRef) :
    s.Holds (managedPolicies (s.memberPolicies ref)) := fun p hp => by
  obtain ⟨up, hup, rfl⟩ := List.mem_map.1 hp
  exact holds_memberPolicies s ref _ (List.mem_map_of_mem (List.mem_filter.1 hup).1)

theorem holds_signalPolicies (s : Store) (ref : MemberRef) (sig : Signal) :
    s.Holds (signalPolicies (s.memberPolicies ref) sig) := fun p hp => by
  obtain ⟨up, hup, rfl⟩ := List.mem_map.1 hp
  exact holds_memberPolicies s ref _ (List.mem_map_of_mem (List.mem_filter.1 hup).1)

theorem HasAllOrg.of_signalPolicies (h : HasAllOrg (signalPolicies ups sig)) :
    HasAllOrg (ups.map policy) := by
  obtain ⟨p, hp, hk⟩ := h
  obtain ⟨up, hup, rfl⟩ := List.mem_map.1 hp
  exact ⟨up.policy, List.mem_map_of_mem (List.mem_filter.1 hup).1, hk⟩

/-- The answers of a successful resolution, in terms of single policies. -/
structure Resolved (s : Store) (ref : MemberRef) (sets : AccessSets) : Prop where
  shared : sets.visibleAll = false → ∃ shared, s.sharesOf ref = .ok shared
  visibleAll : sets.visibleAll ↔ HasAllOrg ((s.memberPolicies ref).map policy)
  managedAll : sets.managedAll ↔ HasAllOrg (managedPolicies (s.memberPolicies ref))
  managed : sets.managedAll = false → ∀ n, n ∈ sets.managed ↔
    ∃ p ∈ managedPolicies (s.memberPolicies ref), s.GrantsService p n
  signalAll : sets.visibleAll = false → ∀ sig, sets.signalAll sig = false
  visible : sets.visibleAll = false → ∀ n, n ∈ sets.visible ↔
    (∃ p ∈ (s.memberPolicies ref).map policy, s.GrantsService p n) ∨
      s.SharesService ref n
  visibleBySignal : sets.visibleAll = false → ∀ sig n,
    n ∈ sets.visibleBySignal sig ↔
      (∃ p ∈ signalPolicies (s.memberPolicies ref) sig, s.GrantsService p n) ∨ s.SharesService ref n
  integrationsBySignal : sets.visibleAll = false → ∀ sig id,
    id ∈ sets.integrationsBySignal sig ↔
      (∃ p ∈ signalPolicies (s.memberPolicies ref) sig, s.GrantsIntegration p id) ∨
        s.SharesIntegration ref id

variable {ref : MemberRef} {sets : AccessSets}

/-- **The resolver's specification.**  Memo, per-signal loop and copies removed:
every set of the result is a union of what single policies and shares grant. -/
theorem resolveAccessSetsMember_eq_ok (h : s.resolveAccessSetsMember ref = .ok sets) :
    Resolved s ref sets := by
  simp only [resolveAccessSetsMember, listPoliciesForMember, bind_eq_ok,
    wrapErr_eq_ok, readRows_eq_ok] at h
  obtain ⟨_, ⟨_, rfl⟩, ⟨⟨visible, visibleAll⟩, memo₁⟩, hvis, ⟨⟨managed, managedAll⟩, memo₂⟩,
    hman, h⟩ := h
  obtain ⟨hvis, hsound₁⟩ := materializeMemo_eq_ok (memoSound_nil s s.materialize)
    (holds_memberPolicies s ref) hvis
  obtain ⟨hman, hsound₂⟩ := materializeMemo_eq_ok hsound₁ (holds_managedPolicies s ref) hman
  obtain ⟨hvisAll, hvisSet⟩ := materialize_eq_ok hvis
  obtain ⟨hmanAll, hmanSet⟩ := materialize_eq_ok hman
  cases visibleAll with
  | true =>
    obtain rfl := pure_eq_ok.1 h
    exact {
      shared := fun hfalse => by cases hfalse
      visibleAll := hvisAll
      managedAll := hmanAll
      managed := hmanSet
      signalAll := fun hfalse => by cases hfalse
      visible := fun hfalse => by cases hfalse
      visibleBySignal := fun hfalse => by cases hfalse
      integrationsBySignal := fun hfalse => by cases hfalse }
  | false =>
    simp only [Bool.false_eq_true, if_false, bind_eq_ok, pure_eq_ok] at h
    obtain ⟨st, hst, shared, hshared, rfl⟩ := h
    have hnone : ¬ HasAllOrg ((s.memberPolicies ref).map policy) := by
      rw [← hvisAll]
      simp
    have hanswers : ∀ sig, st.Answers s (s.memberPolicies ref) sig := fun sig =>
      signalLoop_eq_ok ⟨hsound₂, memoSound_nil s _⟩ (holds_signalPolicies s ref) hst
        sig (Or.inr (mem_allSignals sig))
    have hsignal : ∀ sig, st.signalAll sig = false := fun sig => by
      obtain ⟨names, wildcard, hm, hall, _⟩ := hanswers sig
      rw [hall, Bool.eq_false_iff]
      exact fun hw => hnone ((materialize_eq_ok hm).1.1 hw).of_signalPolicies
    have hservice : ∀ n, s.SharesService ref n ↔ n ∈ shared.services := fun n => by
      simp [Store.SharesService, hshared]
    have hinteg : ∀ id, s.SharesIntegration ref id ↔ id ∈ shared.integrations :=
      fun id => by simp [Store.SharesIntegration, hshared]
    refine {
      shared := fun _ => ⟨shared, hshared⟩
      visibleAll := hvisAll
      managedAll := hmanAll
      managed := hmanSet
      signalAll := fun _ => hsignal
      visible := fun _ n => ?_
      visibleBySignal := fun _ sig n => ?_
      integrationsBySignal := fun _ sig id => ?_ }
    · rw [hservice, Finset.mem_union, hvisSet rfl]
    · obtain ⟨names, wildcard, hm, hall, hset, _⟩ := hanswers sig
      rw [hsignal sig] at hall
      subst hall
      simp only [hsignal sig, Bool.false_eq_true, if_false, Finset.mem_union,
        hset rfl, (materialize_eq_ok hm).2 rfl, hservice]
    · obtain ⟨names, wildcard, hm, hall, _, hint⟩ := hanswers sig
      simp only [composedIntegrations, bind_eq_ok, pure_eq_ok] at hint
      obtain ⟨acc, hacc, hacc'⟩ := hint
      have hunion := ((composeAccess_eq_ok hacc).2
        (fun hsig => hnone hsig.of_signalPolicies)).2 id
      rw [Finset.mem_union, hinteg, ← hacc', hunion]

theorem Resolved.sees_iff (h : Resolved s ref sets) (n : String) :
    sets.Sees n ↔ HasAllOrg ((s.memberPolicies ref).map policy) ∨
      (∃ p ∈ (s.memberPolicies ref).map policy, s.GrantsService p n) ∨
      s.SharesService ref n := by
  rw [AccessSets.Sees, ← h.visibleAll]
  cases hall : sets.visibleAll with
  | true => simp
  | false => simp only [h.visible hall n]

theorem Resolved.manages_iff (h : Resolved s ref sets) (n : String) :
    sets.Manages n ↔ HasAllOrg (managedPolicies (s.memberPolicies ref)) ∨
      ∃ p ∈ managedPolicies (s.memberPolicies ref), s.GrantsService p n := by
  rw [AccessSets.Manages, ← h.managedAll]
  cases hall : sets.managedAll with
  | true => simp
  | false => simp only [h.managed hall n]

theorem Resolved.visibleFor_wildcard (h : Resolved s ref sets) (sig : Signal) :
    (sets.visibleFor sig).2 ↔ HasAllOrg ((s.memberPolicies ref).map policy) := by
  rw [← h.visibleAll, AccessSets.visibleFor]
  cases hall : sets.visibleAll with
  | true => simp
  | false => simp [h.signalAll hall sig]

theorem Resolved.seesFor_iff (h : Resolved s ref sets) (sig : Signal) (n : String) :
    sets.SeesFor sig n ↔ HasAllOrg ((s.memberPolicies ref).map policy) ∨
      (∃ p ∈ signalPolicies (s.memberPolicies ref) sig, s.GrantsService p n) ∨
      s.SharesService ref n := by
  rw [AccessSets.SeesFor, h.visibleFor_wildcard, ← h.visibleAll]
  cases hall : sets.visibleAll with
  | true => simp
  | false =>
    simp [AccessSets.visibleFor, hall, h.signalAll hall sig, h.visibleBySignal hall sig n]

theorem Resolved.managed_visible (h : Resolved s ref sets) (n : String) (hn : sets.Manages n) :
    sets.Sees n := by
  have hsub : ∀ q ∈ managedPolicies (s.memberPolicies ref),
      q ∈ (s.memberPolicies ref).map policy := fun q hq => by
    obtain ⟨up, hup, rfl⟩ := List.mem_map.1 hq
    exact List.mem_map_of_mem (List.mem_filter.1 hup).1
  rw [h.sees_iff]
  rcases (h.manages_iff n).1 hn with ⟨q, hq, hk⟩ | ⟨q, hq, hg⟩
  · exact Or.inl ⟨q, hsub q hq, hk⟩
  · exact Or.inr (Or.inl ⟨q, hsub q hq, hg⟩)

theorem Resolved.signal_visible (h : Resolved s ref sets) (sig : Signal) (n : String)
    (hn : sets.SeesFor sig n) : sets.Sees n := by
  rw [h.sees_iff]
  rcases (h.seesFor_iff sig n).1 hn with hw | ⟨q, hq, hg⟩ | hs
  · exact Or.inl hw
  · obtain ⟨up, hup, rfl⟩ := List.mem_map.1 hq
    exact Or.inr (Or.inl ⟨_, List.mem_map_of_mem (List.mem_filter.1 hup).1, hg⟩)
  · exact Or.inr (Or.inr hs)

/-! ## The narrower resolvers -/

/-- **The two resolvers agree.**  Whenever the access sets resolve, the
single-set resolver returns their visible tier, wildcard included. -/
theorem resolveVisibleServiceSetMember_eq (h : s.resolveAccessSetsMember ref = .ok sets) :
    s.resolveVisibleServiceSetMember ref = .ok (sets.visible, sets.visibleAll) := by
  simp only [resolveAccessSetsMember, bind_eq_ok] at h
  obtain ⟨ups, hups, ⟨⟨visible, visibleAll⟩, memo₁⟩, hvis, ⟨man, memo₂⟩, _, h⟩ := h
  obtain rfl : s.memberPolicies ref = ups := by
    exact (readRows_eq_ok.1 (wrapErr_eq_ok.1 hups)).2
  have hvis := (materializeMemo_eq_ok (memoSound_nil s s.materialize)
    (holds_memberPolicies s ref) hvis).1
  have hset : s.resolveEffectiveAccessMember ref >>= s.materializeAccess =
      .ok (visible, visibleAll) := by
    rw [resolveEffectiveAccessMember, hups]
    exact hvis
  cases visibleAll with
  | true =>
    obtain rfl := pure_eq_ok.1 h
    rw [resolveVisibleServiceSetMember, ← bind_assoc, hset]
    rfl
  | false =>
    simp only [Bool.false_eq_true, if_false, bind_eq_ok, pure_eq_ok] at h
    obtain ⟨st, _, shared, hshared, rfl⟩ := h
    rw [resolveVisibleServiceSetMember, ← bind_assoc, hset]
    simp only [bind, Except.bind, Bool.false_eq_true, if_false, hshared]
    rfl

theorem resolveVisibleIntegrationsMember_ok (h : s.resolveAccessSetsMember ref = .ok sets) :
    ∃ r, s.resolveVisibleIntegrationsMember ref = .ok r := by
  have hset := resolveVisibleServiceSetMember_eq h
  simp only [resolveVisibleServiceSetMember, bind_eq_ok] at hset
  obtain ⟨acc, hacc, ⟨names, wildcard⟩, hmat, hset⟩ := hset
  obtain ⟨rfl, _⟩ := materializeAccess_eq_ok hmat
  rw [resolveVisibleIntegrationsMember, hacc]
  cases hall : acc.allOrg with
  | true => exact ⟨(∅, true), by simp [bind, Except.bind, pure, Except.pure, hall]⟩
  | false =>
    simp only [hall, Bool.false_eq_true, if_false, bind_eq_ok] at hset
    obtain ⟨shared, hshared, _⟩ := hset
    exact ⟨(acc.integrations ∪ shared.integrations, false), by
      simp [bind, Except.bind, pure, Except.pure, hall, hshared]⟩

theorem resolveVisibleIntegrationsMember_eq_ok {ids : Finset UUID} {wildcard : Bool}
    (h : s.resolveVisibleIntegrationsMember ref = .ok (ids, wildcard)) :
    (wildcard ↔ HasAllOrg ((s.memberPolicies ref).map policy)) ∧
    (wildcard = false → ∀ id, id ∈ ids ↔
      (∃ p ∈ (s.memberPolicies ref).map policy, s.GrantsIntegration p id) ∨
        s.SharesIntegration ref id) := by
  simp only [resolveVisibleIntegrationsMember, resolveEffectiveAccessMember,
    listPoliciesForMember, bind_eq_ok, wrapErr_eq_ok, readRows_eq_ok] at h
  obtain ⟨acc, ⟨_, ⟨_, rfl⟩, hacc⟩, h⟩ := h
  obtain ⟨hwild, hunion⟩ := composeAccess_eq_ok hacc
  cases hall : acc.allOrg with
  | true =>
    simp only [hall, if_true, pure_eq_ok, Prod.mk.injEq] at h
    obtain ⟨rfl, rfl⟩ := h
    rw [hall] at hwild
    exact ⟨hwild, fun hfalse => by cases hfalse⟩
  | false =>
    simp only [hall, Bool.false_eq_true, if_false, bind_eq_ok, pure_eq_ok, Prod.mk.injEq] at h
    obtain ⟨shared, hshared, rfl, rfl⟩ := h
    rw [hall] at hwild
    refine ⟨hwild, fun _ id => ?_⟩
    have hno : ¬ HasAllOrg ((s.memberPolicies ref).map policy) := by
      rw [← hwild]
      simp
    rw [Finset.mem_union, (hunion hno).2 id]
    simp [Store.SharesIntegration, hshared]

/-! ## Adding a policy or a share -/

/-- `s'` is `s` with policies and shares added, anywhere in the tables. -/
structure Store.Extends (s s' : Store) : Prop where
  members : s'.members = s.members
  attributes : s'.attributes = s.attributes
  catalog : s'.catalog = s.catalog
  compile : s'.compile = s.compile
  policies : s.policies ⊆ s'.policies
  shares : s.shares ⊆ s'.shares

/-- Share `sh` by itself gives service `n`. -/
def Store.ShareGrants (s : Store) (sh : ResourceShare) (n : String) : Prop :=
  ∃ xs, n ∈ xs ∧
    match sh.resourceKind with
    | .integration => sh.grantServices ∧
        s.catalog.integrationExpander sh.resourceID = .ok xs
    | .system => s.catalog.systemMemberNames sh.resourceID = .ok xs

theorem mem_sharedResources {k : ShareKind} {id : UUID} {flag : Bool} :
    (k, id, flag) ∈ s.sharedResources userID ↔
      (∃ sh ∈ s.shares, s.shareReaches userID sh ∧ sh.resourceKind = k ∧
        sh.resourceID = id) ∧
      (flag ↔ ∃ sh ∈ s.shares, s.shareReaches userID sh ∧
        sh.resourceKind = k ∧ sh.resourceID = id ∧ sh.grantServices) := by
  simp only [sharedResources, List.mem_map, List.mem_dedup, List.mem_filter,
    Prod.exists, Prod.mk.injEq]
  constructor
  · rintro ⟨k', id', ⟨sh, ⟨hsh, hreach⟩, rfl, rfl⟩, rfl, rfl, rfl⟩
    refine ⟨⟨sh, hsh, hreach, rfl, rfl⟩, ?_⟩
    simp [and_assoc]
  · rintro ⟨⟨sh, hsh, hreach, rfl, rfl⟩, hflag⟩
    refine ⟨_, _, ⟨sh, ⟨hsh, hreach⟩, rfl, rfl⟩, rfl, rfl, ?_⟩
    rw [Bool.eq_iff_iff, hflag]
    simp [and_assoc]

/-- The services a user's shares give are what the single shares give, although
the query first merges the shares of one resource. -/
theorem expandShares_services {shared : SharedReach} (h : s.expandShares userID = .ok shared)
    (n : String) :
    n ∈ shared.services ↔
      ∃ sh ∈ s.shares, s.shareReaches userID sh ∧ s.ShareGrants sh n := by
  simp only [expandShares, sharedResourcesForUser, bind_eq_ok,
    wrapErr_eq_ok, readRows_eq_ok, pure_eq_ok] at h
  obtain ⟨_, ⟨_, rfl⟩, names, hnames, rfl⟩ := h
  rw [List.mem_toFinset, mem_of_collect_eq_ok hnames]
  constructor
  · rintro ⟨⟨k, id, flag⟩, hr, xs, hxs, hn⟩
    obtain ⟨⟨sh, hsh, hreach, rfl, rfl⟩, hflag⟩ := mem_sharedResources.1 hr
    cases hk : sh.resourceKind with
    | system =>
      simp only [hk, expandShare, wrapErr_eq_ok, Catalog.systemExpander_some] at hxs
      exact ⟨sh, hsh, hreach, xs, hn, by simpa [hk] using hxs⟩
    | integration =>
      cases flag with
      | false =>
        obtain rfl : [] = xs := by simpa [hk, expandShare] using hxs
        simp at hn
      | true =>
        obtain ⟨sh', hsh', hreach', hkind, hid, hgrant⟩ := hflag.1 rfl
        simp only [hk, expandShare, if_true, wrapErr_eq_ok] at hxs
        refine ⟨sh', hsh', hreach', xs, hn, ?_⟩
        rw [hkind, hk]
        exact ⟨hgrant, by rw [hid]; exact hxs⟩
  · rintro ⟨sh, hsh, hreach, xs, hn, hxs⟩
    cases hk : sh.resourceKind with
    | system =>
      -- Whatever the merged flag is, a shared system expands to its members.
      obtain ⟨flag, hflag⟩ : ∃ flag, (sh.resourceKind, sh.resourceID, flag) ∈
          s.sharedResources userID := by
        by_cases hg : ∃ sh' ∈ s.shares, s.shareReaches userID sh' = true ∧
            sh'.resourceKind = sh.resourceKind ∧ sh'.resourceID = sh.resourceID ∧
            sh'.grantServices
        · exact ⟨true, mem_sharedResources.2 ⟨⟨sh, hsh, hreach, rfl, rfl⟩, by simp [hg]⟩⟩
        · exact ⟨false, mem_sharedResources.2 ⟨⟨sh, hsh, hreach, rfl, rfl⟩, by simp [hg]⟩⟩
      refine ⟨_, hflag, xs, ?_, hn⟩
      simp only [hk] at hxs
      simpa [hk, expandShare] using hxs
    | integration =>
      simp only [hk] at hxs
      refine ⟨(sh.resourceKind, sh.resourceID, true), mem_sharedResources.2
        ⟨⟨sh, hsh, hreach, rfl, rfl⟩, ?_⟩, xs, ?_, hn⟩
      · exact ⟨fun _ => ⟨sh, hsh, hreach, rfl, rfl, hxs.1⟩, fun _ => rfl⟩
      · simpa [hk, expandShare] using hxs.2

section Monotone

variable {s s' : Store} (hext : s.Extends s')

include hext

theorem Store.Extends.composePolicy (p : AccessPolicy) :
    s'.composePolicy p = s.composePolicy p := by
  unfold Store.composePolicy Store.composeSystem Store.composeIntegration
    composeCompound matchEntities grantedServices
  rw [hext.catalog, hext.compile]

theorem Store.Extends.grantsService (p : AccessPolicy) (n : String) :
    s'.GrantsService p n ↔ s.GrantsService p n := by
  have hmatch : s'.matching = s.matching := by
    funext pairs
    induction pairs with
    | nil => rfl
    | cons kv kvs ih =>
      cases kvs with
      | nil => simp [matching, withAttribute, hext.attributes]
      | cons kv' kvs =>
        simp only [matching, withAttribute, hext.attributes] at ih ⊢
        rw [ih]
  have henv : s'.exprEnv = s.exprEnv := by
    simp only [exprEnv, hext.catalog, hext.compile, ExprEnv.mk.injEq, true_and, and_true]
    funext name key
    simp [serviceAttribute, hext.attributes]
  simp only [Store.GrantsService, hext.composePolicy, EffectiveAccess.Reaches, hmatch, henv]

theorem Store.Extends.memberPolicies (ref : MemberRef) :
    s.memberPolicies ref ⊆ s'.memberPolicies ref := by
  intro up hup
  simp only [Store.memberPolicies, List.mem_flatMap] at hup ⊢
  obtain ⟨p, hp, hgm⟩ := hup
  exact ⟨p, hext.policies hp, by rwa [hext.members]⟩

theorem Store.Extends.sharesService {ref : MemberRef} {n : String} (h : s.SharesService ref n)
    (hok : ∃ shared, s'.sharesOf ref = .ok shared) : s'.SharesService ref n := by
  obtain ⟨shared, hshared, hn⟩ := h
  obtain ⟨shared', hshared'⟩ := hok
  cases ref with
  | serviceAccount id =>
    obtain rfl : ({} : SharedReach) = shared := by simpa [sharesOf] using hshared
    simp at hn
  | user id =>
    obtain ⟨sh, hsh, hreach, hgrants⟩ := (expandShares_services hshared n).1 hn
    refine ⟨shared', hshared', (expandShares_services hshared' n).2 ⟨sh, hext.shares hsh, ?_, ?_⟩⟩
    · unfold shareReaches groupsOf at hreach ⊢
      rwa [hext.members]
    · unfold Store.ShareGrants at hgrants ⊢
      rwa [hext.catalog]

/-- **Access is monotone.**  Adding policies or shares takes no service out of
the visible tier, the managed tier, or any signal's visible set. -/
theorem Store.Extends.access_mono {ref : MemberRef} {sets sets' : AccessSets}
    (h : Resolved s ref sets) (h' : Resolved s' ref sets') :
    (∀ n, sets.Sees n → sets'.Sees n) ∧ (∀ n, sets.Manages n → sets'.Manages n) ∧
    (∀ sig n, sets.SeesFor sig n → sets'.SeesFor sig n) := by
  have hall : ∀ p ∈ (s.memberPolicies ref).map policy,
      p ∈ (s'.memberPolicies ref).map policy := fun p hp =>
    List.map_subset _ (hext.memberPolicies ref) hp
  have hman : ∀ p ∈ managedPolicies (s.memberPolicies ref),
      p ∈ managedPolicies (s'.memberPolicies ref) := fun p hp =>
    List.map_subset _ (List.filter_subset _ (hext.memberPolicies ref)) hp
  have hsig : ∀ sig, ∀ p ∈ signalPolicies (s.memberPolicies ref) sig,
      p ∈ signalPolicies (s'.memberPolicies ref) sig := fun sig p hp =>
    List.map_subset _ (List.filter_subset _ (hext.memberPolicies ref)) hp
  have hwild : HasAllOrg ((s.memberPolicies ref).map policy) →
      HasAllOrg ((s'.memberPolicies ref).map policy) :=
    fun ⟨p, hp, hk⟩ => ⟨p, hall p hp, hk⟩
  have hshares : ∀ n, s.SharesService ref n →
      HasAllOrg ((s'.memberPolicies ref).map policy) ∨
        s'.SharesService ref n := fun n hn => by
    cases hw : sets'.visibleAll with
    | true => exact Or.inl (h'.visibleAll.1 hw)
    | false => exact Or.inr (hext.sharesService hn (h'.shared hw))
  refine ⟨fun n => ?_, fun n => ?_, fun sig n => ?_⟩
  · rw [h.sees_iff, h'.sees_iff]
    rintro (hw | ⟨p, hp, hg⟩ | hn)
    · exact Or.inl (hwild hw)
    · exact Or.inr (Or.inl ⟨p, hall p hp, (hext.grantsService p n).2 hg⟩)
    · exact (hshares n hn).imp id Or.inr
  · rw [h.manages_iff, h'.manages_iff]
    rintro (⟨p, hp, hk⟩ | ⟨p, hp, hg⟩)
    · exact Or.inl ⟨p, hman p hp, hk⟩
    · exact Or.inr ⟨p, hman p hp, (hext.grantsService p n).2 hg⟩
  · rw [h.seesFor_iff, h'.seesFor_iff]
    rintro (hw | ⟨p, hp, hg⟩ | hn)
    · exact Or.inl (hwild hw)
    · exact Or.inr (Or.inl ⟨p, hsig sig p hp, (hext.grantsService p n).2 hg⟩)
    · exact (hshares n hn).imp id Or.inr

end Monotone

end Sluicio.Identity
