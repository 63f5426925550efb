import Sluicio.Api.SpanScope

/-!
# What a caller may manage

`managedServiceFilter` and the checks on top of it, and the laws of the two
access tiers: adding policies or shares takes nothing away, managed is within
visible, a signal's set is within visible, the two visible resolvers agree, and
signal-narrowed policies do not reach the manage checks.
-/

namespace Sluicio.Api

open Lib Handlers
open Identity

/-- The principal is a service account, and so takes that branch of the manage
helpers. -/
def Principal.isServiceAccount (p : Principal) : Bool :=
  p.kind = .serviceAccount && p.serviceAccountID.isSome

/-- `managedServiceFilter`; `none` is "unrestricted". -/
def Handlers.managedServiceFilter (h : Handlers) (p : Principal) : Option (Finset String) :=
  if p.isServiceAccount then
    match h.visibilityMember p with
    | none => none
    | some ref =>
      match h.identity.resolveVisibleServiceSetMember ref with
      | .error _ => some ∅
      | .ok (_, true) => none
      | .ok (set, false) => some set
  else
    match p.userID with
    | none => none
    | some userID =>
      if p.role.canWrite then none
      else if p.scopeCapped then some ∅
      else if !h.rbacAdvanced then some ∅
      else
        match h.identity.resolveAccessSetsMember (.user userID) with
        | .error _ => some ∅
        | .ok sets => if sets.managedAll then none else some sets.managed

def Handlers.canManageService (h : Handlers) (p : Principal) (serviceName : String) :
    Bool :=
  match h.managedServiceFilter p with
  | none => true
  | some managed => serviceName ∈ managed

def Handlers.canManageAllServices (h : Handlers) (p : Principal) (names : List String) : Bool :=
  match h.managedServiceFilter p with
  | none => true
  | some managed => names.all fun n => n ∈ managed

/-! ## Whose policies decide -/

/-- The member whose policies decide the principal's manage checks; `none` when
the principal's role alone decides them. -/
def Handlers.manageMember (h : Handlers) (p : Principal) : Option MemberRef :=
  if p.isServiceAccount then h.visibilityMember p
  else if p.role.canWrite || p.scopeCapped || !h.rbacAdvanced then none
  else p.userID.map MemberRef.user

/-- The member's policies that are not narrowed to some signals. -/
def Handlers.fullPolicies (h : Handlers) (ref : MemberRef) : List AccessPolicy :=
  (h.allPolicies ref).filter fun q => q.signals.isEmpty

/-- The un-narrowed policies alone grant service `n`. -/
def Handlers.FullGrants (h : Handlers) (ref : MemberRef) (n : String) : Prop :=
  HasAllOrg (h.fullPolicies ref) ∨ ∃ q ∈ h.fullPolicies ref, h.identity.GrantsService q n

/-- Everything the manage checks admit for the principal, the unrestricted answer
included, is granted by policies that are not narrowed to some signals. -/
structure Handlers.ManageSound (h : Handlers) (p : Principal) (ref : MemberRef) :
    Prop where
  unrestricted : h.managedServiceFilter p = none → HasAllOrg (h.fullPolicies ref)
  admitted : ∀ n, h.canManageService p n → h.FullGrants ref n

def Handlers.NarrowedAddNothing (h : Handlers) (ref : MemberRef) : Prop :=
  (HasAllOrg (h.allPolicies ref) → HasAllOrg (h.fullPolicies ref)) ∧
  (¬ HasAllOrg (h.allPolicies ref) → ∀ n,
    (∃ q ∈ h.allPolicies ref, h.identity.GrantsService q n) → h.FullGrants ref n)

structure AccessLaws (h : Handlers) (p : Principal) (ref : MemberRef)
    (sets : AccessSets) : Prop where
  /-- Adding policies or shares removes nothing. -/
  monotone : ∀ s' sets', h.identity.Extends s' →
    s'.resolveAccessSetsMember ref = .ok sets' →
    (∀ n, sets.Sees n → sets'.Sees n) ∧ (∀ n, sets.Manages n → sets'.Manages n) ∧
    (∀ sig n, sets.SeesFor sig n → sets'.SeesFor sig n)
  managed_visible : ∀ n, sets.Manages n → sets.Sees n
  signal_visible : ∀ sig n, sets.SeesFor sig n → sets.Sees n
  resolvers_agree : h.identity.resolveVisibleServiceSetMember ref =
    .ok (sets.visible, sets.visibleAll)
  manage_sound : h.manageMember p = some ref → h.ManageSound p ref

theorem managedPolicies_subset_full (h : Handlers) (ref : MemberRef) :
    managedPolicies (h.identity.memberPolicies ref) ⊆ h.fullPolicies ref := by
  intro q hq
  obtain ⟨up, hup, rfl⟩ := List.mem_map.1 hq
  obtain ⟨hmem, hkeep⟩ := List.mem_filter.1 hup
  simp only [Bool.and_eq_true] at hkeep
  exact List.mem_filter.2 ⟨List.mem_map_of_mem hmem, hkeep.2⟩

variable {p : Principal} {h : Handlers} {sets : AccessSets} {ref : MemberRef}

/-- For a user the manage checks read the managed tier, which narrowed policies
do not enter. -/
theorem manageSound_user (hp : p.isServiceAccount = false)
    (hsets : h.identity.resolveAccessSetsMember ref = .ok sets)
    (hmember : h.manageMember p = some ref) : h.ManageSound p ref := by
  have hres := resolveAccessSetsMember_eq_ok hsets
  have hfilter : h.managedServiceFilter p =
      if sets.managedAll then none else some sets.managed := by
    simp only [manageMember, hp, Bool.false_eq_true, if_false] at hmember
    split at hmember
    · cases hmember
    · next hrole =>
      simp only [Bool.or_eq_true, not_or, Bool.not_eq_true, Bool.not_eq_false'] at hrole
      obtain ⟨⟨hwrite, hcapped⟩, hentitled⟩ := hrole
      obtain ⟨userID, huser, rfl⟩ := Option.map_eq_some_iff.1 hmember
      simp [managedServiceFilter, hp, huser, hwrite, hcapped, hentitled, hsets]
  refine ⟨fun hnone => ?_, fun n hn => ?_⟩
  · obtain ⟨q, hq, hk⟩ := hres.managedAll.1 (by simpa [hfilter] using hnone)
    exact ⟨q, managedPolicies_subset_full h _ hq, hk⟩
  · have hmanages : sets.Manages n := by
      cases hall : sets.managedAll with
      | true => exact Or.inl hall
      | false =>
        exact Or.inr (by simpa [canManageService, hfilter, hall] using hn)
    rcases (hres.manages_iff n).1 hmanages with ⟨q, hq, hk⟩ | ⟨q, hq, hg⟩
    · exact Or.inl ⟨q, managedPolicies_subset_full h _ hq, hk⟩
    · exact Or.inr ⟨q, managedPolicies_subset_full h _ hq, hg⟩

/-- For a service account the manage checks read the visible tier, which all
policies enter. -/
theorem manageSound_serviceAccount_iff {id : UUID} (hp : p.isServiceAccount)
    (hsets : h.identity.resolveAccessSetsMember (.serviceAccount id) = .ok sets)
    (hmember : h.manageMember p = some (.serviceAccount id)) :
    h.ManageSound p (.serviceAccount id) ↔ h.NarrowedAddNothing (.serviceAccount id) := by
  have hres := resolveAccessSetsMember_eq_ok hsets
  have hvis : h.visibilityMember p = some (.serviceAccount id) := by
    simpa [manageMember, hp] using hmember
  have hfilter : h.managedServiceFilter p =
      if sets.visibleAll then none else some sets.visible := by
    simp only [managedServiceFilter, hp, hvis,
      resolveVisibleServiceSetMember_eq hsets, if_true]
    cases sets.visibleAll <;> rfl
  have hnoShares : ∀ n, ¬ h.identity.SharesService (.serviceAccount id) n := by
    rintro n ⟨shared, hshared, hn⟩
    obtain rfl : ({} : SharedReach) = shared := by simpa [Store.sharesOf] using hshared
    simp at hn
  have hchecks : ∀ n, h.canManageService p n ↔
      HasAllOrg (h.allPolicies (.serviceAccount id)) ∨
        ∃ q ∈ h.allPolicies (.serviceAccount id), h.identity.GrantsService q n := by
    intro n
    have hsees := hres.sees_iff n
    simp only [hnoShares n, or_false] at hsees
    rw [allPolicies, ← hsees, AccessSets.Sees]
    simp only [canManageService, hfilter]
    cases sets.visibleAll <;> simp
  constructor
  · intro hsound
    refine ⟨fun hall => hsound.unrestricted ?_, fun _ n hgrant => ?_⟩
    · rw [hfilter, if_pos (hres.visibleAll.2 hall)]
    · exact hsound.admitted n ((hchecks n).2 (Or.inr hgrant))
  · rintro ⟨hwild, hservice⟩
    refine ⟨fun hnone => hwild (hres.visibleAll.1 (by simpa [hfilter] using hnone)), fun n hn => ?_⟩
    by_cases hall : HasAllOrg (h.allPolicies (.serviceAccount id))
    · exact Or.inl (hwild hall)
    · exact hservice hall n (((hchecks n).1 hn).resolve_left hall)

theorem manageMember_serviceAccount (hp : p.isServiceAccount)
    (hmember : h.manageMember p = some ref) : ∃ id, ref = .serviceAccount id := by
  simp only [Principal.isServiceAccount, Bool.and_eq_true, decide_eq_true_eq,
    Option.isSome_iff_exists] at hp
  obtain ⟨hkind, id, hid⟩ := hp
  simp only [manageMember, Principal.isServiceAccount, hkind, hid,
    visibilityMember] at hmember
  split_ifs at hmember <;> simp_all
  exact ⟨id, hmember.symm⟩

/-- **When the access laws hold.**  Monotonicity, managed within visible, a
signal's set within visible and the agreement of the two resolvers hold always.
The manage checks ignore signal-narrowed policies for every user, and for a
scoped service account exactly when its narrowed policies grant nothing that its
other policies do not. -/
theorem accessLaws_iff (h : Handlers) (p : Principal) (ref : MemberRef)
    (sets : AccessSets) (hsets : h.identity.resolveAccessSetsMember ref = .ok sets) :
    AccessLaws h p ref sets ↔
      (h.manageMember p = some ref → p.isServiceAccount → h.NarrowedAddNothing ref) := by
  have hres := resolveAccessSetsMember_eq_ok hsets
  constructor
  · intro hlaws hmember hp
    obtain ⟨id, rfl⟩ := manageMember_serviceAccount hp hmember
    exact (manageSound_serviceAccount_iff hp hsets hmember).1 (hlaws.manage_sound hmember)
  · intro hcond
    exact {
      monotone := fun s' sets' hext hsets' =>
        hext.access_mono hres (resolveAccessSetsMember_eq_ok hsets')
      managed_visible := hres.managed_visible
      signal_visible := hres.signal_visible
      resolvers_agree := resolveVisibleServiceSetMember_eq hsets
      manage_sound := fun hmember => by
        cases hp : p.isServiceAccount with
        | false => exact manageSound_user hp hsets hmember
        | true =>
          obtain ⟨id, rfl⟩ := manageMember_serviceAccount hp hmember
          exact (manageSound_serviceAccount_iff hp hsets hmember).2 (hcond hmember hp) }

/-! A scoped service account with the editor role and one all-org policy narrowed
to logs. -/

private def logsBot : Principal :=
  { kind := .serviceAccount, serviceAccountID := some 4, role := .editor }

private def ordersCatalog : Catalog where
  services := [⟨"orders", false, "", none⟩]
  serviceKey := List.nodup_singleton _
  systems := []
  integrations := []
  matched := fun _ => []
  attached := fun _ => []

private def logsOnly : Handlers where
  identity := {
    policies := [{ id := 1, groupID := 1, kind := .allOrg, signals := [.logs] }]
    policyKey := List.nodup_singleton _
    members := [⟨1, .serviceAccount 4, .editor⟩]
    shares := []
    attributes := []
    catalog := ordersCatalog
    compile := fun _ => none }

private theorem logsOnly_sets :
    logsOnly.identity.resolveAccessSetsMember (.serviceAccount 4) =
      .ok { visibleAll := true } := rfl

theorem accessLaws_example :
    AccessLaws logsOnly logsBot (.serviceAccount 4) { visibleAll := true } ↔
      (logsOnly.manageMember logsBot = some (.serviceAccount 4) →
        logsBot.isServiceAccount →
        logsOnly.NarrowedAddNothing (.serviceAccount 4)) :=
  accessLaws_iff _ _ _ _ logsOnly_sets

theorem narrowedPolicy_grants_manage :
    logsOnly.manageMember logsBot = some (.serviceAccount 4) ∧
    logsOnly.canManageService logsBot "orders" ∧
    logsOnly.fullPolicies (.serviceAccount 4) = [] ∧
    ¬ AccessLaws logsOnly logsBot (.serviceAccount 4) { visibleAll := true } := by
  have hnil : logsOnly.fullPolicies (.serviceAccount 4) = [] := rfl
  refine ⟨rfl, rfl, hnil, fun hlaws => ?_⟩
  obtain ⟨q, hq, _⟩ := (hlaws.manage_sound rfl).unrestricted rfl
  simp [hnil] at hq

end Sluicio.Api
