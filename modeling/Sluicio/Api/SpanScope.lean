import Mathlib.Data.Finset.Sort
import Mathlib.Order.Lattice.Nat
import Sluicio.Identity.Access

/-!
# What a caller may read

The handlers' view of the access sets: whose memberships a request resolves, the
service filter of one signal, the integrations granted directly, and the span
scope that combines the two.  Each helper fails open: a failed lookup imposes no
filter.
-/

namespace Sluicio.Api

open Lib
open Identity

inductive PrincipalKind where
  | user | serviceAccount
  deriving DecidableEq

inductive ServiceAccountScope where
  | orgWide | scoped
  deriving DecidableEq

/-- `identity.Principal`.  `baseRole` is the role before a token's scope cap,
`none` when no cap is in play. -/
structure Principal where
  kind : PrincipalKind
  userID : Option UUID := none
  serviceAccountID : Option UUID := none
  saScope : ServiceAccountScope := .scoped
  role : Role
  baseRole : Option Role := none
  deriving DecidableEq

/-- `ReadRole`: reads follow the uncapped role. -/
def Principal.readRole (p : Principal) : Role := p.baseRole.getD p.role

def Principal.scopeCapped (p : Principal) : Bool :=
  match p.baseRole with
  | some base => base ≠ p.role
  | none => false

/-- The parts of `Handlers` the access helpers use.  `integrationGroups` renders
an integration's own span matchers; `forbidOrgWideServiceAccounts` is the cell
setting, false when it is unset or unreadable. -/
structure Handlers where
  identity : Store
  forbidOrgWideServiceAccounts : Bool := false
  rbacAdvanced : Bool := true
  integrationGroups : UUID → String := fun _ => ""

/-- `visibilityMember`: the member whose policies decide what the principal
sees; `none` when the principal is unrestricted. -/
def Handlers.visibilityMember (h : Handlers) (p : Principal) : Option MemberRef :=
  if p.readRole.canAdmin then none
  else
    match p.kind, p.serviceAccountID with
    | .serviceAccount, some id =>
      if p.saScope = .orgWide ∧ !h.forbidOrgWideServiceAccounts then none
      else some (.serviceAccount id)
    | _, _ => p.userID.map MemberRef.user

/-- `signalServiceFilter`; `none` is "no filter". -/
def Handlers.signalServiceFilter (h : Handlers) (p : Principal) (sig : Signal) :
    Option (Finset String) :=
  match h.visibilityMember p with
  | none => none
  | some ref =>
    match h.identity.resolveAccessSetsMember ref with
    | .error _ => none
    | .ok sets =>
      match sets.visibleFor sig with
      | (_, true) => none
      | (set, false) => some set

/-- `grantedIntegrations`; `none` is "unrestricted".  A policy's signals are not
looked at. -/
def Handlers.grantedIntegrations (h : Handlers) (p : Principal) : Option (Finset UUID) :=
  match h.visibilityMember p with
  | none => none
  | some ref =>
    match h.identity.resolveVisibleIntegrationsMember ref with
    | .error _ => none
    | .ok (_, true) => none
    | .ok (set, false) => some set

/-- `grantedIntegrationsForSignal`.  It only ever adds reach, so a failed lookup
adds none. -/
def Handlers.grantedIntegrationsForSignal (h : Handlers) (p : Principal)
    (sig : Signal) : Option (Finset UUID) :=
  match h.visibilityMember p with
  | none => none
  | some ref =>
    match h.identity.resolveAccessSetsMember ref with
    | .error _ => some ∅
    | .ok sets =>
      if (sets.visibleFor sig).2 then none else some (sets.integrationsFor sig)

/-! ## The span scope -/

/-- One disjunct of the access predicate. -/
inductive SpanDisjunct where
  | services (names : Finset String)
  | slice (integrationID : UUID) (members : List String) (matchers : String)

structure SpanScope where
  unrestricted : Bool := false
  empty : Bool := false
  serviceIn : Finset String := ∅
  clause : List SpanDisjunct := []

def SpanDisjunct.named : SpanDisjunct → Finset String
  | .services names => names
  | .slice _ members _ => members.toFinset

/-- The disjunct of one granted integration; an integration without members has
none. -/
def Handlers.spanSlice (h : Handlers) (id : UUID) : Except String (List SpanDisjunct) := do
  let members ← h.identity.catalog.integrationServices id
  return if members = [] then [] else [.slice id members (h.integrationGroups id)]

def Handlers.visibleSpanScope (h : Handlers) (p : Principal) (sig : Signal) :
    SpanScope :=
  match h.signalServiceFilter p sig with
  | none => { unrestricted := true }
  | some allowed =>
    match h.grantedIntegrations p with
    | none => { unrestricted := true }
    | some granted =>
      match collect h.spanSlice (granted.sort (· ≤ ·)) with
      | .error _ => { unrestricted := true }
      | .ok slices =>
        let parts := (if allowed = ∅ then [] else [.services allowed]) ++ slices
        if parts = [] then { empty := true }
        else { clause := parts,
               serviceIn := (parts.map SpanDisjunct.named).foldr (· ∪ ·) ∅ }

/-! ## Signal narrowing -/

section SignalNarrowing

variable (h : Handlers) (ref : MemberRef) (sig : Signal)

/-- The member's policies that cover the signal. -/
def Handlers.covering : List AccessPolicy :=
  signalPolicies (h.identity.memberPolicies ref) sig

/-- All of the member's policies. -/
def Handlers.allPolicies : List AccessPolicy :=
  (h.identity.memberPolicies ref).map UserPolicy.policy

/-- A covering policy, or a direct share, makes service `n` readable. -/
def Handlers.EntitledService (n : String) : Prop :=
  HasAllOrg (h.covering ref sig) ∨
  (∃ q ∈ h.covering ref sig, h.identity.GrantsService q n) ∨
  h.identity.SharesService ref n

/-- A covering policy, or a direct share, makes integration `id` readable. -/
def Handlers.EntitledIntegration (id : UUID) : Prop :=
  HasAllOrg (h.covering ref sig) ∨
  (∃ q ∈ h.covering ref sig, h.identity.GrantsIntegration q id) ∨
  h.identity.SharesIntegration ref id

def Handlers.EntitledDisjunct : SpanDisjunct → Prop
  | .services names => ∀ n ∈ names, h.EntitledService ref sig n
  | .slice id _ _ => h.EntitledIntegration ref sig id

/-- Everything the three helpers make readable for the signal is granted by the
policies covering it, or shared. -/
structure Handlers.SignalSound (p : Principal) (sets : AccessSets) : Prop where
  wildcard : (sets.visibleFor sig).2 → HasAllOrg (h.covering ref sig)
  services : ∀ n ∈ (sets.visibleFor sig).1, h.EntitledService ref sig n
  integrationsAll : h.grantedIntegrationsForSignal p sig = none → HasAllOrg (h.covering ref sig)
  integrations : ∀ ids, h.grantedIntegrationsForSignal p sig = some ids →
    ∀ id ∈ ids, h.EntitledIntegration ref sig id
  spansAll : (h.visibleSpanScope p sig).unrestricted → HasAllOrg (h.covering ref sig)
  spans : ∀ d ∈ (h.visibleSpanScope p sig).clause, h.EntitledDisjunct ref sig d

/-- The narrowed policies leave nothing behind: an all-org policy among them is
matched by an all-org policy covering the signal; and, without one, every
integration with member services that any policy grants is also granted by a
policy covering the signal, or shared. -/
def Handlers.NarrowingIsCovered : Prop :=
  (HasAllOrg (h.allPolicies ref) → HasAllOrg (h.covering ref sig)) ∧
  (¬ HasAllOrg (h.allPolicies ref) → ∀ id,
    (∃ q ∈ h.allPolicies ref, h.identity.GrantsIntegration q id) →
    h.identity.catalog.attached id ≠ [] → h.EntitledIntegration ref sig id)

end SignalNarrowing

theorem spanSlice_eq_ok {h : Handlers} {id : UUID} {ds : List SpanDisjunct}
    (hds : h.spanSlice id = .ok ds) (d : SpanDisjunct) :
    d ∈ ds ↔ h.identity.catalog.attached id ≠ [] ∧
      d = .slice id (h.identity.catalog.attached id) (h.integrationGroups id) := by
  simp only [Handlers.spanSlice, Catalog.integrationServices, bind_eq_ok, wrapErr_eq_ok,
    readRows_eq_ok, pure_eq_ok] at hds
  obtain ⟨_, ⟨_, rfl⟩, rfl⟩ := hds
  by_cases hempty : h.identity.catalog.attached id = [] <;> simp [hempty]

theorem mem_spanClause {h : Handlers} {ids : List UUID} {slices : List SpanDisjunct}
    (hslices : collect h.spanSlice ids = .ok slices) (d : SpanDisjunct) :
    d ∈ slices ↔ ∃ id ∈ ids, h.identity.catalog.attached id ≠ [] ∧
      d = .slice id (h.identity.catalog.attached id) (h.integrationGroups id) := by
  rw [mem_of_collect_eq_ok hslices]
  refine exists_congr fun id => and_congr_right fun hid => ?_
  obtain ⟨ds, hds⟩ := collect_call_ok hslices hid
  simp [hds, spanSlice_eq_ok hds]

theorem mem_ite_services {allowed : Finset String} {d : SpanDisjunct} :
    d ∈ (if allowed = ∅ then [] else [SpanDisjunct.services allowed]) ↔
      allowed ≠ ∅ ∧ d = .services allowed := by
  by_cases h : allowed = ∅ <;> simp [h]

/-- Without an all-org policy the span scope is restricted, and its predicate has
the signal's services and one slice for each integration the member was granted,
whatever the granting policy's signals. -/
theorem mem_visibleSpanScope {h : Handlers} {p : Principal} {ref : MemberRef}
    (sig : Signal) {sets : AccessSets} (hp : h.visibilityMember p = some ref)
    (hsets : h.identity.resolveAccessSetsMember ref = .ok sets)
    (hup : ∀ id, h.identity.catalog.faults (.integrationServices id) = none)
    (hno : ¬ HasAllOrg (h.allPolicies ref)) :
    (h.visibleSpanScope p sig).unrestricted = false ∧
    ∀ d, d ∈ (h.visibleSpanScope p sig).clause ↔
      (sets.visibleBySignal sig ≠ ∅ ∧ d = .services (sets.visibleBySignal sig)) ∨
      ∃ id, ((∃ q ∈ h.allPolicies ref, h.identity.GrantsIntegration q id) ∨
          h.identity.SharesIntegration ref id) ∧
        h.identity.catalog.attached id ≠ [] ∧
        d = .slice id (h.identity.catalog.attached id) (h.integrationGroups id) := by
  have hres := resolveAccessSetsMember_eq_ok hsets
  have hall : sets.visibleAll = false := by
    rw [Bool.eq_false_iff]
    exact fun hw => hno (hres.visibleAll.1 hw)
  have hfilter : h.signalServiceFilter p sig = some (sets.visibleBySignal sig) := by
    simp [Handlers.signalServiceFilter, hp, hsets, AccessSets.visibleFor, hall,
      hres.signalAll hall sig]
  obtain ⟨⟨ids, wildcard⟩, hids⟩ := resolveVisibleIntegrationsMember_ok hsets
  obtain ⟨hwild, hmem⟩ := resolveVisibleIntegrationsMember_eq_ok hids
  obtain rfl : wildcard = false := by
    rw [Bool.eq_false_iff]
    exact fun hw => hno (hwild.1 hw)
  have hgranted : h.grantedIntegrations p = some ids := by
    simp [Handlers.grantedIntegrations, hp, hids]
  obtain ⟨slices, hslices⟩ : ∃ slices, collect h.spanSlice (ids.sort (· ≤ ·)) = .ok slices := by
    refine collect_ok fun id _ => ?_
    simp [Handlers.spanSlice, Catalog.integrationServices, readRows, hup id, wrapErr,
      bind, Except.bind, pure, Except.pure]
  have hparts : ∀ d, d ∈ (if sets.visibleBySignal sig = ∅ then []
        else [SpanDisjunct.services (sets.visibleBySignal sig)]) ++ slices ↔
      (sets.visibleBySignal sig ≠ ∅ ∧ d = .services (sets.visibleBySignal sig)) ∨
      ∃ id, ((∃ q ∈ h.allPolicies ref, h.identity.GrantsIntegration q id) ∨
          h.identity.SharesIntegration ref id) ∧
        h.identity.catalog.attached id ≠ [] ∧
        d = .slice id (h.identity.catalog.attached id) (h.integrationGroups id) := by
    intro d
    rw [List.mem_append, mem_ite_services, mem_spanClause hslices]
    simp only [Finset.mem_sort, hmem rfl, Handlers.allPolicies]
  simp only [Handlers.visibleSpanScope, hfilter, hgranted, hslices]
  generalize (if sets.visibleBySignal sig = ∅ then []
    else [SpanDisjunct.services (sets.visibleBySignal sig)]) ++ slices = parts
    at hparts ⊢
  by_cases hempty : parts = []
  · rw [if_pos hempty]
    refine ⟨rfl, fun d => ?_⟩
    rw [← hparts d, hempty]
  · rw [if_neg hempty]
    exact ⟨rfl, hparts⟩

/-- **When signal narrowing is sound.**  For a restricted principal, what the
access sets, the signal's integration grants and the span scope make readable
for a signal stays within the policies covering that signal, and the shares,
exactly when the policies narrowed to other signals add no wildcard and no
integration of their own. -/
theorem signalNarrowing_sound_iff (h : Handlers) (p : Principal) (ref : MemberRef)
    (sig : Signal) (sets : AccessSets) (hp : h.visibilityMember p = some ref)
    (hsets : h.identity.resolveAccessSetsMember ref = .ok sets)
    (hup : ∀ id, h.identity.catalog.faults (.integrationServices id) = none) :
    h.SignalSound ref sig p sets ↔ h.NarrowingIsCovered ref sig := by
  have hres := resolveAccessSetsMember_eq_ok hsets
  constructor
  · intro hsound
    refine ⟨fun hall => hsound.wildcard ((hres.visibleFor_wildcard sig).2 hall), ?_⟩
    intro hno id hgrant hattached
    have hslice := (mem_visibleSpanScope sig hp hsets hup hno).2
      (.slice id (h.identity.catalog.attached id) (h.integrationGroups id))
    exact hsound.spans _ (hslice.2 (Or.inr ⟨id, Or.inl hgrant, hattached, rfl⟩))
  · rintro ⟨hwild, hinteg⟩
    by_cases hall : HasAllOrg (h.allPolicies ref)
    · -- A covering all-org policy entitles the member to everything.
      have hcov := hwild hall
      exact {
        wildcard := fun _ => hcov
        services := fun _ _ => Or.inl hcov
        integrationsAll := fun _ => hcov
        integrations := fun _ _ _ _ => Or.inl hcov
        spansAll := fun _ => hcov
        spans := fun d _ => by
          cases d with
          | services names => exact fun _ _ => Or.inl hcov
          | slice id members matchers => exact Or.inl hcov }
    · have hvis : sets.visibleAll = false := by
        rw [Bool.eq_false_iff]
        exact fun hw => hall (hres.visibleAll.1 hw)
      have hwildcard : (sets.visibleFor sig).2 = false := by
        rw [Bool.eq_false_iff]
        exact fun hw => hall ((hres.visibleFor_wildcard sig).1 hw)
      have hservice : ∀ n ∈ sets.visibleBySignal sig, h.EntitledService ref sig n :=
        fun n hn => Or.inr ((hres.visibleBySignal hvis sig n).1 hn)
      have hsome : h.grantedIntegrationsForSignal p sig = some (sets.integrationsBySignal sig) := by
        simp [Handlers.grantedIntegrationsForSignal, hp, hsets, hwildcard,
          AccessSets.integrationsFor]
      obtain ⟨hrestricted, hclause⟩ :=
        mem_visibleSpanScope sig hp hsets hup hall
      refine {
        wildcard := fun hw => by simp [hwildcard] at hw
        services := fun n hn => hservice n ?_
        integrationsAll := fun hnone => by simp [hsome] at hnone
        integrations := fun ids hids id hid => ?_
        spansAll := fun hw => by simp [hrestricted] at hw
        spans := fun d hd => ?_ }
      · simpa [AccessSets.visibleFor, hvis, hres.signalAll hvis sig] using hn
      · obtain rfl : sets.integrationsBySignal sig = ids := by
          simpa [hsome] using hids
        exact Or.inr ((hres.integrationsBySignal hvis sig id).1 hid)
      · rcases (hclause d).1 hd with ⟨_, rfl⟩ | ⟨id, hgrant | hshare, hattached, rfl⟩
        · exact hservice
        · exact hinteg hall id hgrant hattached
        · exact Or.inr (Or.inr hshare)

/-! A viewer whose only policy is narrowed to messages: an all-org policy in one
organization, the policy of a single integration in the other. -/

private def viewer : Principal := { kind := .user, userID := some 1, role := .viewer }

private def flowCatalog : Catalog where
  services := [⟨"orders", false, "", none⟩]
  serviceKey := by decide
  systems := []
  integrations := [⟨7, "order-flow"⟩]
  matched := fun _ => ["orders"]
  attached := fun _ => ["orders"]

private def messagesOnly (kind : PolicyKind) (integrationID : Option UUID) : Handlers where
  identity := {
    policies := [{ id := 1, groupID := 1, kind := kind,
                   targetIntegrationID := integrationID, signals := [.messages] }]
    policyKey := List.nodup_singleton _
    members := [⟨1, .user 1, .viewer⟩]
    shares := []
    attributes := []
    catalog := flowCatalog
    compile := fun _ => none }

private theorem messagesOnly_wildcard :
    (messagesOnly .allOrg none).identity.resolveAccessSetsMember (.user 1) =
      .ok { visibleAll := true } := rfl

theorem signalNarrowing_sound_example :
    (messagesOnly .allOrg none).SignalSound (.user 1) .logs viewer { visibleAll := true } ↔
      (messagesOnly .allOrg none).NarrowingIsCovered (.user 1) .logs :=
  signalNarrowing_sound_iff _ _ _ _ _ rfl messagesOnly_wildcard fun _ => rfl

/-- The all-org policy narrowed to messages opens every log; the integration
policy narrowed to messages opens the integration's spans. -/
theorem signalNarrowing_leaks :
    ((messagesOnly .allOrg none).signalServiceFilter viewer .logs = none ∧
      (messagesOnly .allOrg none).covering (.user 1) .logs = [] ∧
      ¬ (messagesOnly .allOrg none).SignalSound (.user 1) .logs viewer { visibleAll := true }) ∧
    (.slice 7 ["orders"] "" ∈
        ((messagesOnly .integration (some 7)).visibleSpanScope viewer .traces).clause ∧
      ¬ (messagesOnly .integration (some 7)).EntitledIntegration (.user 1) .traces 7) := by
  refine ⟨⟨rfl, rfl, fun hsound => ?_⟩, ?_, ?_⟩
  · obtain ⟨q, hq, _⟩ := hsound.wildcard rfl
    have hnil : (messagesOnly .allOrg none).covering (.user 1) .logs = [] := rfl
    simp [hnil] at hq
  · have hno : ¬ HasAllOrg ((messagesOnly .integration (some 7)).allPolicies (.user 1)) := by
      rintro ⟨q, hq, hk⟩
      have hone : (messagesOnly .integration (some 7)).allPolicies (.user 1) =
          (messagesOnly .integration (some 7)).identity.policies := rfl
      rw [hone] at hq
      obtain rfl := List.mem_singleton.1 hq
      cases hk
    exact ((mem_visibleSpanScope .traces rfl rfl (fun _ => rfl) hno).2 _).2 (Or.inr
      ⟨7, Or.inl ⟨_, List.mem_singleton_self _, _, rfl, by decide⟩, by decide, rfl⟩)
  · have hnil : (messagesOnly .integration (some 7)).covering (.user 1) .traces = [] := rfl
    have hshares : (messagesOnly .integration (some 7)).identity.sharesOf (.user 1) = .ok {} := rfl
    simp [Handlers.EntitledIntegration, HasAllOrg, hnil, Store.SharesIntegration, hshares]

end Sluicio.Api
