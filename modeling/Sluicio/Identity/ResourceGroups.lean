import Sluicio.Identity.Access
import Sluicio.Lib.Ordered

/-!
# The groups of a resource

Which groups may see a service, an integration or a system is read off the policies that name
just the resource, and saved by deleting these and inserting one for each group.  A policy may
say more than its group: the signals it covers and, on an integration, whether it grants the
services.  What is inserted covers every signal, so that saving the groups that were read is a
no-op only where the policies said no more.
-/

namespace Sluicio.Identity

open Lib

/-- What groups are attached to. -/
inductive Resource where
  | service (name : String)
  | integration (id : UUID)
  | system (id : UUID)

/-- The condition of the list's query, and of the delete's. -/
def Resource.names (r : Resource) (p : AccessPolicy) : Bool :=
  match r with
  | .service name => p.kind = .service && p.targetServiceName = some name
  | .integration id => p.kind = .integration && p.targetIntegrationID = some id
  | .system id => p.kind = .system && p.targetSystemID = some id

/-- The row that is inserted for a group.  Only the one of an integration names
`grant_services`; the others have the default. -/
def Resource.row (r : Resource) (grantServices : Bool) (id groupID : UUID) : AccessPolicy :=
  match r with
  | .service name =>
    { id := id, groupID := groupID, kind := .service, targetServiceName := some name }
  | .integration target =>
    { id := id, groupID := groupID, kind := .integration, targetIntegrationID := some target
      grantServices := grantServices }
  | .system target =>
    { id := id, groupID := groupID, kind := .system, targetSystemID := some target }

/-- The groups of the organization, and their places by lower-cased name. -/
structure Groups where
  ids : List UUID
  place : UUID → Nat

inductive GroupsError where
  | notFound
  | database

section Groups

variable (g : Groups) (s : Store) (newID : Nat → UUID)

/-- The policies that the list reads, and the delete removes. -/
def Groups.selects (r : Resource) (p : AccessPolicy) : Bool := p.groupID ∈ g.ids && r.names p

/-- `ListServiceGroups`, `ListGroupsForIntegration`, `ListGroupsForSystem`. -/
def Store.listResourceGroups (r : Resource) : List UUID :=
  orderBy g.place ((s.policies.filter (g.selects r)).map AccessPolicy.groupID)

/-- The policies after the delete and the inserts, newest first. -/
def Store.replacedPolicies (r : Resource) (grantServices : Bool) (groupIDs : List UUID) :
    List AccessPolicy :=
  (groupIDs.zipIdx.map fun x => r.row grantServices (newID x.2) x.1).reverse ++
    s.policies.filter fun p => !g.selects r p

/-- The transaction, for groups that have passed the check.  The ids are those that
`gen_random_uuid` gives; an insert fails on one that is taken. -/
def Store.replaceGroups (r : Resource) (grantServices : Bool) (groupIDs : List UUID) :
    Except GroupsError Store :=
  if hkey : ((s.replacedPolicies g newID r grantServices groupIDs).map AccessPolicy.id).Nodup then
    .ok { s with
      policies := s.replacedPolicies g newID r grantServices groupIDs
      policyKey := hkey }
  else .error .database

/-- `setResourceGroups`: every group is one of the organization. -/
def Store.setResourceGroups (r : Resource) (grantServices : Bool) (groupIDs : List UUID) :
    Except GroupsError Store :=
  if groupIDs.all fun gid => gid ∈ g.ids then
    s.replaceGroups g newID r grantServices groupIDs
  else .error .notFound

/-- `SetServiceGroups`, which does not look the groups up. -/
def Store.setServiceGroups (name : String) (groupIDs : List UUID) : Except GroupsError Store :=
  s.replaceGroups g newID (.service name) false groupIDs

def Store.setIntegrationGroups (id : UUID) (grantServices : Bool) (groupIDs : List UUID) :
    Except GroupsError Store :=
  s.setResourceGroups g newID (.integration id) grantServices groupIDs

def Store.setSystemGroups (id : UUID) (groupIDs : List UUID) : Except GroupsError Store :=
  s.setResourceGroups g newID (.system id) false groupIDs

/-- The groups that are read are saved again. -/
def Store.resave (r : Resource) (grantServices : Bool) : Except GroupsError Store :=
  match r with
  | .service name => s.setServiceGroups g newID name (s.listResourceGroups g r)
  | .integration id =>
    s.setIntegrationGroups g newID id grantServices (s.listResourceGroups g r)
  | .system id => s.setSystemGroups g newID id (s.listResourceGroups g r)

end Groups

section Resave

variable {g : Groups} {s s' : Store} {newID : Nat → UUID} {r : Resource} {grantServices : Bool}

theorem replaceGroups_eq_ok {groupIDs : List UUID}
    (h : s.replaceGroups g newID r grantServices groupIDs = .ok s') :
    ∃ hkey, s' = { s with
      policies := s.replacedPolicies g newID r grantServices groupIDs
      policyKey := hkey } := by
  unfold Store.replaceGroups at h
  split at h
  · next hkey =>
    cases h
    exact ⟨hkey, rfl⟩
  · cases h

theorem setResourceGroups_eq_ok {groupIDs : List UUID}
    (h : s.setResourceGroups g newID r grantServices groupIDs = .ok s') :
    s.replaceGroups g newID r grantServices groupIDs = .ok s' := by
  unfold Store.setResourceGroups at h
  split at h
  · exact h
  · cases h

/-- The flag that is written: of an integration the one that is given. -/
def Resource.flag (r : Resource) (grantServices : Bool) : Bool :=
  match r with
  | .integration _ => grantServices
  | .service _ | .system _ => false

theorem resave_eq_ok (h : s.resave g newID r grantServices = .ok s') :
    ∃ hkey, s' = { s with
      policies :=
        s.replacedPolicies g newID r (r.flag grantServices) (s.listResourceGroups g r)
      policyKey := hkey } := by
  cases r with
  | service name => exact replaceGroups_eq_ok h
  | integration id => exact replaceGroups_eq_ok (setResourceGroups_eq_ok h)
  | system id => exact replaceGroups_eq_ok (setResourceGroups_eq_ok h)

end Resave

/-! ## Policies that say the same -/

/-- The constraint `chk_policy_shape`: which columns a policy of each kind has. -/
def AccessPolicy.Shaped (p : AccessPolicy) : Prop :=
  match p.kind with
  | .service =>
    p.targetServiceName ≠ none ∧ p.targetIntegrationID = none ∧ p.attributeMatch = [] ∧
      p.targetSystemKind = none ∧ p.targetSystemID = none ∧ p.conditions = none
  | .integration =>
    p.targetServiceName = none ∧ p.attributeMatch = [] ∧ p.targetSystemKind = none ∧
      p.targetSystemID = none ∧ (p.targetIntegrationID ≠ none ∧ p.conditions = none ∨
        p.targetIntegrationID = none ∧ p.conditions ≠ none)
  | .attributes =>
    p.targetServiceName = none ∧ p.targetIntegrationID = none ∧ p.attributeMatch ≠ [] ∧
      p.targetSystemKind = none ∧ p.targetSystemID = none ∧ p.conditions = none
  | .compound =>
    (p.targetServiceName ≠ none ∨ p.targetIntegrationID ≠ none) ∧ p.attributeMatch ≠ [] ∧
      p.targetSystemKind = none ∧ p.targetSystemID = none ∧ p.conditions = none
  | .allOrg =>
    p.targetServiceName = none ∧ p.targetIntegrationID = none ∧ p.attributeMatch = [] ∧
      p.targetSystemKind = none ∧ p.targetSystemID = none ∧ p.conditions = none
  | .system =>
    p.targetServiceName = none ∧ p.targetIntegrationID = none ∧ p.attributeMatch = [] ∧
      (p.conditions = none ∨ p.targetSystemID = none) ∧
      ¬ (p.targetSystemKind ≠ none ∧ p.targetSystemID ≠ none)
  | .expression =>
    p.targetServiceName = none ∧ p.targetIntegrationID = none ∧ p.attributeMatch = [] ∧
      p.targetSystemKind = none ∧ p.targetSystemID = none ∧ p.conditions ≠ none

/-- Two policies of one group that grant the same, for the same signals. -/
structure AccessPolicy.Same (p p' : AccessPolicy) : Prop where
  groupID : p'.groupID = p.groupID
  kind : p'.kind = p.kind
  signals : p'.signals = p.signals
  compose : ∀ s : Store, s.composePolicy p' = s.composePolicy p

theorem AccessPolicy.Same.refl (p : AccessPolicy) : p.Same p :=
  ⟨rfl, rfl, rfl, fun _ => rfl⟩

/-- The list says all of the policy: it covers every signal, and on an integration it grants
the services as the saved ones do. -/
def Resource.describes (r : Resource) (grantServices : Bool) (p : AccessPolicy) : Prop :=
  p.signals = [] ∧
    match r with
    | .integration _ => p.grantServices = grantServices
    | .service _ | .system _ => True

section Describes

variable {r : Resource} {grantServices : Bool} {p : AccessPolicy}

theorem Resource.row_same (hshape : p.Shaped) (hnames : r.names p)
    (hdescribed : r.describes grantServices p) (id : UUID) :
    p.Same (r.row (r.flag grantServices) id p.groupID) := by
  obtain ⟨hsignals, hgrant⟩ := hdescribed
  cases r with
  | service name =>
    simp only [names, Bool.and_eq_true, decide_eq_true_eq] at hnames
    constructor
    · rfl
    · exact hnames.1.symm
    · exact hsignals.symm
    · intro s
      simp only [Store.composePolicy, Resource.row, hnames.1, hnames.2]
  | integration target =>
    simp only [names, Bool.and_eq_true, decide_eq_true_eq] at hnames
    simp only [AccessPolicy.Shaped, hnames.1, hnames.2] at hshape
    have hconditions : p.conditions = none := by simpa using hshape.2.2.2.2
    have hgrant' : p.grantServices = grantServices := hgrant
    constructor
    · rfl
    · exact hnames.1.symm
    · exact hsignals.symm
    · intro s
      simp only [Store.composePolicy, Store.composeIntegration, Store.grantedServices,
        Resource.row, Resource.flag, hnames.1, hnames.2, hgrant', hconditions]
      rfl
  | system target =>
    simp only [names, Bool.and_eq_true, decide_eq_true_eq] at hnames
    simp only [AccessPolicy.Shaped, hnames.1, hnames.2] at hshape
    have hconditions : p.conditions = none := by simpa using hshape.2.2.2.1
    have hkind : p.targetSystemKind = none := by simpa using hshape.2.2.2.2
    constructor
    · rfl
    · exact hnames.1.symm
    · exact hsignals.symm
    · intro s
      simp only [Store.composePolicy, Store.composeSystem, Resource.row, hnames.1, hnames.2,
        hconditions, hkind]

theorem Resource.describes_row (id groupID : UUID) :
    r.describes grantServices (r.row (r.flag grantServices) id groupID) := by
  cases r with
  | service name => exact ⟨rfl, trivial⟩
  | integration target => exact ⟨rfl, rfl⟩
  | system target => exact ⟨rfl, trivial⟩

end Describes

/-! ## Stores that say the same -/

/-- The two resolutions give the same access. -/
structure AccessSets.Agree (a b : AccessSets) : Prop where
  visibleAll : a.visibleAll = b.visibleAll
  sees : ∀ n, a.Sees n ↔ b.Sees n
  manages : ∀ n, a.Manages n ↔ b.Manages n
  seesFor : ∀ sig n, a.SeesFor sig n ↔ b.SeesFor sig n
  integrations : a.visibleAll = false → ∀ sig id,
    id ∈ a.integrationsFor sig ↔ id ∈ b.integrationsFor sig

abbrev Store.withPolicies (s : Store) (ps : List AccessPolicy)
    (hkey : (ps.map AccessPolicy.id).Nodup) : Store :=
  { s with policies := ps, policyKey := hkey }

structure SamePolicies (ps ps' : List AccessPolicy) : Prop where
  kept : ∀ p ∈ ps, ∃ p' ∈ ps', p.Same p'
  found : ∀ p' ∈ ps', ∃ p ∈ ps, p.Same p'

section Agree

variable {s : Store} {ps : List AccessPolicy}

theorem mem_memberPolicies {ref : MemberRef} {up : UserPolicy} :
    up ∈ s.memberPolicies ref ↔ up.policy ∈ s.policies ∧
      ⟨up.policy.groupID, ref, up.groupRole⟩ ∈ s.members := by
  simp only [Store.memberPolicies, List.mem_flatMap, List.mem_map, List.mem_filter,
    Bool.and_eq_true, decide_eq_true_eq]
  constructor
  · intro h
    obtain ⟨p, hp, gm, ⟨hgm, href, hgroup⟩, rfl⟩ := h
    refine ⟨hp, ?_⟩
    rw [← href, ← hgroup]
    exact hgm
  · intro h
    exact ⟨up.policy, h.1, _, ⟨h.2, rfl, rfl⟩, rfl⟩

/-- What a property sees of a policy that says the same it sees of the other. -/
structure Invariant (Q : AccessPolicy → Role → Prop) : Prop where
  iff : ∀ p p' role, p.Same p' → (Q p role ↔ Q p' role)

theorem exists_memberPolicies_iff (hkey : (ps.map AccessPolicy.id).Nodup)
    (hsame : SamePolicies s.policies ps) {Q : AccessPolicy → Role → Prop} (hQ : Invariant Q)
    (ref : MemberRef) :
    (∃ up ∈ s.memberPolicies ref, Q up.policy up.groupRole) ↔
      ∃ up ∈ (s.withPolicies ps hkey).memberPolicies ref, Q up.policy up.groupRole := by
  simp only [mem_memberPolicies]
  constructor
  · intro h
    obtain ⟨up, ⟨hp, hmember⟩, hQp⟩ := h
    obtain ⟨p', hp', hsame'⟩ := hsame.kept _ hp
    refine ⟨⟨p', up.groupRole⟩, ⟨hp', ?_⟩, (hQ.iff _ _ _ hsame').1 hQp⟩
    show ⟨p'.groupID, ref, up.groupRole⟩ ∈ s.members
    rw [hsame'.groupID]
    exact hmember
  · intro h
    obtain ⟨up, ⟨hp', hmember⟩, hQp⟩ := h
    obtain ⟨p, hp, hsame'⟩ := hsame.found _ hp'
    refine ⟨⟨p, up.groupRole⟩, ⟨hp, ?_⟩, (hQ.iff _ _ _ hsame').2 hQp⟩
    show ⟨p.groupID, ref, up.groupRole⟩ ∈ s.members
    rw [← hsame'.groupID]
    exact hmember

theorem exists_filtered (ups : List UserPolicy) (f : UserPolicy → Bool) (Q : AccessPolicy → Prop) :
    (∃ p ∈ (ups.filter f).map UserPolicy.policy, Q p) ↔ ∃ up ∈ ups, f up ∧ Q up.policy := by
  constructor
  · intro h
    obtain ⟨p, hp, hQ⟩ := h
    obtain ⟨up, hup, rfl⟩ := List.mem_map.1 hp
    exact ⟨up, (List.mem_filter.1 hup).1, (List.mem_filter.1 hup).2, hQ⟩
  · intro h
    obtain ⟨up, hup, hf, hQ⟩ := h
    exact ⟨up.policy, List.mem_map_of_mem (List.mem_filter.2 ⟨hup, hf⟩), hQ⟩

/-- What the policies of a filtered list say is the same of both stores, if the filter looks at
the signals and the role, and the question at what the policies say. -/
theorem exists_filtered_iff (hkey : (ps.map AccessPolicy.id).Nodup)
    (hsame : SamePolicies s.policies ps) {f : UserPolicy → Bool} {Q : AccessPolicy → Prop}
    (hf : ∀ p p' role, p.Same p' → f ⟨p, role⟩ = f ⟨p', role⟩)
    (hQ : ∀ p p', p.Same p' → (Q p ↔ Q p')) (ref : MemberRef) :
    (∃ p ∈ ((s.memberPolicies ref).filter f).map UserPolicy.policy, Q p) ↔
      ∃ p ∈ (((s.withPolicies ps hkey).memberPolicies
        ref).filter f).map UserPolicy.policy, Q p := by
  have hinv : Invariant fun p role => f ⟨p, role⟩ ∧ Q p := by
    constructor
    intro p p' role hpp'
    rw [hf p p' role hpp', hQ p p' hpp']
  rw [exists_filtered, exists_filtered]
  exact exists_memberPolicies_iff hkey hsame hinv ref

section Stores

variable (hkey : (ps.map AccessPolicy.id).Nodup) (hsame : SamePolicies s.policies ps)
  (ref : MemberRef)

include hsame

variable {Q : AccessPolicy → Prop}

theorem exists_policy_iff (hQ : ∀ p p', p.Same p' → (Q p ↔ Q p')) :
    (∃ p ∈ (s.memberPolicies ref).map UserPolicy.policy, Q p) ↔
      ∃ p ∈ ((s.withPolicies ps hkey).memberPolicies ref).map UserPolicy.policy, Q p := by
  have hinv : Invariant fun p _ => Q p := ⟨fun p p' _ hpp' => hQ p p' hpp'⟩
  simp only [List.mem_map, exists_exists_and_eq_and]
  exact exists_memberPolicies_iff hkey hsame hinv ref

theorem exists_managed_iff (hQ : ∀ p p', p.Same p' → (Q p ↔ Q p')) :
    (∃ p ∈ managedPolicies (s.memberPolicies ref), Q p) ↔
      ∃ p ∈ managedPolicies ((s.withPolicies ps hkey).memberPolicies ref), Q p := by
  apply exists_filtered_iff hkey hsame ?_ hQ
  intro p p' role hpp'
  show (role.canWrite && p.signals.isEmpty) = (role.canWrite && p'.signals.isEmpty)
  rw [hpp'.signals]

theorem exists_signal_iff (sig : Signal) (hQ : ∀ p p', p.Same p' → (Q p ↔ Q p')) :
    (∃ p ∈ signalPolicies (s.memberPolicies ref) sig, Q p) ↔
      ∃ p ∈ signalPolicies ((s.withPolicies ps hkey).memberPolicies ref) sig, Q p := by
  apply exists_filtered_iff hkey hsame ?_ hQ
  intro p p' role hpp'
  show p.coversSignal sig = p'.coversSignal sig
  unfold AccessPolicy.coversSignal
  rw [hpp'.signals]

theorem agree_of_samePolicies {sets sets' : AccessSets}
    (h : s.resolveAccessSetsMember ref = .ok sets)
    (h' : (s.withPolicies ps hkey).resolveAccessSetsMember ref = .ok sets') : sets.Agree sets' := by
  have hres := resolveAccessSetsMember_eq_ok h
  have hres' := resolveAccessSetsMember_eq_ok h'
  -- what a policy grants does not depend on which policies there are
  let s₀ : Store := { s with policies := [], policyKey := List.nodup_nil }
  have hext : s₀.Extends s :=
    ⟨rfl, rfl, rfl, rfl, List.nil_subset _, List.Subset.refl _⟩
  have hext' : s₀.Extends (s.withPolicies ps hkey) :=
    ⟨rfl, rfl, rfl, rfl, List.nil_subset _, List.Subset.refl _⟩
  have hservice : ∀ p n, (s.withPolicies ps hkey).GrantsService p n ↔ s.GrantsService p n := by
    intro p n
    rw [hext'.grantsService, ← hext.grantsService]
  have hservice' : ∀ n p p', p.Same p' → (s.GrantsService p n ↔ s.GrantsService p' n) := by
    intro n p p' hpp'
    unfold Store.GrantsService
    rw [hpp'.compose]
  have hinteg : ∀ id p p', p.Same p' → (s.GrantsIntegration p id ↔ s.GrantsIntegration p' id) := by
    intro id p p' hpp'
    unfold Store.GrantsIntegration
    rw [hpp'.compose]
  have hkind : ∀ p p' : AccessPolicy, p.Same p' → (p.kind = .allOrg ↔ p'.kind = .allOrg) := by
    intro p p' hpp'
    rw [hpp'.kind]
  have hwild := exists_policy_iff hkey hsame ref hkind
  have hall : sets.visibleAll = sets'.visibleAll := by
    rw [Bool.eq_iff_iff, hres.visibleAll, hres'.visibleAll]
    exact hwild
  constructor
  · exact hall
  · intro n
    rw [hres.sees_iff, hres'.sees_iff]
    simp only [hservice]
    unfold HasAllOrg
    rw [hwild, exists_policy_iff hkey hsame ref (hservice' n)]
    rfl
  · intro n
    rw [hres.manages_iff, hres'.manages_iff]
    simp only [hservice]
    unfold HasAllOrg
    rw [exists_managed_iff hkey hsame ref hkind, exists_managed_iff hkey hsame ref (hservice' n)]
  · intro sig n
    rw [hres.seesFor_iff, hres'.seesFor_iff]
    simp only [hservice]
    unfold HasAllOrg
    rw [hwild, exists_signal_iff hkey hsame ref sig (hservice' n)]
    rfl
  · intro hfalse sig id
    have hfalse' : sets'.visibleAll = false := by
      rw [← hall]
      exact hfalse
    rw [AccessSets.integrationsFor, AccessSets.integrationsFor,
      hres.integrationsBySignal hfalse, hres'.integrationsBySignal hfalse',
      exists_signal_iff hkey hsame ref sig (hinteg id)]
    rfl

end Stores

end Agree

/-! ## Saving the groups that were read -/

section NoOp

variable {g : Groups} {s s' : Store} {newID : Nat → UUID} {r : Resource} {grantServices : Bool}

theorem mem_listResourceGroups {gid : UUID} :
    gid ∈ s.listResourceGroups g r ↔ ∃ p ∈ s.policies, g.selects r p ∧ p.groupID = gid := by
  simp only [Store.listResourceGroups, mem_orderBy, List.mem_map, List.mem_filter, and_assoc]

theorem mem_replacedPolicies {groupIDs : List UUID} {p : AccessPolicy} :
    p ∈ s.replacedPolicies g newID r grantServices groupIDs ↔
      (∃ gid i, (gid, i) ∈ groupIDs.zipIdx ∧ p = r.row grantServices (newID i) gid) ∨
        p ∈ s.policies ∧ g.selects r p = false := by
  unfold Store.replacedPolicies
  rw [List.mem_append, List.mem_reverse, List.mem_map, List.mem_filter, Bool.not_eq_true']
  apply or_congr_left
  constructor
  · intro h
    obtain ⟨x, hx, hrow⟩ := h
    exact ⟨x.1, x.2, hx, hrow.symm⟩
  · intro h
    obtain ⟨gid, i, hx, hrow⟩ := h
    exact ⟨(gid, i), hx, hrow.symm⟩

theorem samePolicies_replaced (hshape : ∀ p ∈ s.policies, p.Shaped)
    (hdescribed : ∀ p ∈ s.policies, g.selects r p → r.describes grantServices p) :
    SamePolicies s.policies
      (s.replacedPolicies g newID r (r.flag grantServices) (s.listResourceGroups g r)) := by
  have hrow : ∀ p ∈ s.policies, g.selects r p → ∀ i,
      p.Same (r.row (r.flag grantServices) (newID i) p.groupID) := by
    intro p hp hselects i
    have hnames : r.names p := (Bool.and_eq_true_iff.1 hselects).2
    exact Resource.row_same (hshape p hp) hnames (hdescribed p hp hselects) (newID i)
  constructor
  · intro p hp
    cases hselects : g.selects r p with
    | true =>
      have hgid : p.groupID ∈ s.listResourceGroups g r :=
        mem_listResourceGroups.2 ⟨p, hp, hselects, rfl⟩
      obtain ⟨i, hi, hget⟩ := List.getElem_of_mem hgid
      have hindexed : (p.groupID, i) ∈ (s.listResourceGroups g r).zipIdx := by
        rw [List.mk_mem_zipIdx_iff_getElem?, List.getElem?_eq_getElem hi, hget]
      exact ⟨_, mem_replacedPolicies.2 (.inl ⟨_, i, hindexed, rfl⟩), hrow p hp hselects i⟩
    | false => exact ⟨p, mem_replacedPolicies.2 (.inr ⟨hp, hselects⟩), .refl p⟩
  · intro p' hp'
    cases mem_replacedPolicies.1 hp' with
    | inl hnew =>
      obtain ⟨gid, i, hindexed, rfl⟩ := hnew
      have hgid := List.fst_mem_of_mem_zipIdx hindexed
      obtain ⟨p, hp, hselects, rfl⟩ := mem_listResourceGroups.1 hgid
      exact ⟨p, hp, hrow p hp hselects i⟩
    | inr hkept => exact ⟨p', hkept.1, .refl p'⟩

/-- Saving is a no-op: every member's access stays, and every policy that does not stay is one
that the list says all of. -/
structure NoOp (g : Groups) (s s' : Store) (r : Resource) (grantServices : Bool) : Prop where
  access : ∀ ref sets sets', s.resolveAccessSetsMember ref = .ok sets →
    s'.resolveAccessSetsMember ref = .ok sets' → sets.Agree sets'
  untouched : ∀ p ∈ s.policies, p ∈ s'.policies ∨ g.selects r p ∧ r.describes grantServices p

/-- **Saving the groups that were read is a no-op just where the policies say no more than their
groups**: each of them covers every signal and, on an integration, grants the services as the
saved ones do. -/
theorem resave_noOp_iff (hshape : ∀ p ∈ s.policies, p.Shaped)
    (h : s.resave g newID r grantServices = .ok s') :
    NoOp g s s' r grantServices ↔
      ∀ p ∈ s.policies, g.selects r p → r.describes grantServices p := by
  obtain ⟨hkey, rfl⟩ := resave_eq_ok h
  constructor
  · intro hnoop p hp hselects
    cases hnoop.untouched p hp with
    | inl hstays =>
      cases mem_replacedPolicies.1 hstays with
      | inl hnew =>
        obtain ⟨gid, i, _, rfl⟩ := hnew
        exact Resource.describes_row _ _
      | inr hkept =>
        rw [hselects] at hkept
        cases hkept.2
    | inr hdescribed => exact hdescribed.2
  · intro hdescribed
    constructor
    · intro ref sets sets' hsets hsets'
      exact agree_of_samePolicies hkey (samePolicies_replaced hshape hdescribed) ref hsets hsets'
    · intro p hp
      cases hselects : g.selects r p with
      | true => exact .inr ⟨rfl, hdescribed p hp hselects⟩
      | false => exact .inl (mem_replacedPolicies.2 (.inr ⟨hp, hselects⟩))

end NoOp

/-! ### A policy for one service -/

private def checkout (signals : List Signal) : Store where
  policies :=
    [{ id := 1, groupID := 2, kind := .service, targetServiceName := some "checkout"
       signals := signals }]
  policyKey := List.nodup_singleton _
  members := [⟨2, .user 9, .viewer⟩]
  shares := []
  attributes := []
  catalog :=
    { services := [], serviceKey := List.nodup_nil, systems := [], integrations := []
      matched := fun _ => [], attached := fun _ => [] }
  compile := fun _ => none

private def support : Groups where
  ids := [2]
  place := id

private theorem checkout_shaped (signals : List Signal) :
    ∀ p ∈ (checkout signals).policies, p.Shaped := by
  intro p hp
  rw [List.mem_singleton.1 hp]
  exact ⟨nofun, rfl, rfl, rfl, rfl, rfl⟩

/-- A policy for every signal says no more than its group. -/
theorem resave_plain_noOp : ∃ s',
    (checkout []).resave support (fun i => i + 10) (.service "checkout") false = .ok s' ∧
      NoOp support (checkout []) s' (.service "checkout") false := by
  have hok : ((checkout []).resave support (fun i => i + 10) (.service "checkout") false).isOk =
      true := by decide +kernel
  cases hsaved : (checkout []).resave support (fun i => i + 10) (.service "checkout") false with
  | error e =>
    rw [hsaved] at hok
    cases hok
  | ok s' =>
    refine ⟨s', rfl, (resave_noOp_iff (checkout_shaped []) hsaved).2 ?_⟩
    intro p hp _
    rw [List.mem_singleton.1 hp]
    exact ⟨rfl, trivial⟩

private def logsRead (s : Store) : Option (Finset String × Bool) :=
  (s.resolveAccessSetsMember (.user 9)).toOption.map fun sets => sets.visibleFor .logs

private theorem resolved_of_logsRead {s : Store} {r : Finset String × Bool}
    (h : logsRead s = some r) : ∃ sets, s.resolveAccessSetsMember (.user 9) = .ok sets ∧
      sets.visibleFor .logs = r := by
  unfold logsRead at h
  cases hsets : s.resolveAccessSetsMember (.user 9) with
  | error e =>
    rw [hsets] at h
    cases h
  | ok sets =>
    rw [hsets] at h
    exact ⟨sets, rfl, Option.some.inj h⟩

/-- A policy for the traces only becomes one for every signal: the logs of checkout can be read
once its groups have been saved as they were. -/
theorem resave_drops_signals : ∃ s',
    (checkout [.traces]).resave support (fun i => i + 10) (.service "checkout") false = .ok s' ∧
      ¬ NoOp support (checkout [.traces]) s' (.service "checkout") false := by
  have hbefore : logsRead (checkout [.traces]) = some (∅, false) := by decide +kernel
  have hafter : (((checkout [.traces]).resave support (fun i => i + 10) (.service "checkout")
      false).toOption.bind logsRead) = some ({"checkout"}, false) := by decide +kernel
  cases hsaved : (checkout [.traces]).resave support (fun i => i + 10) (.service "checkout")
      false with
  | error e =>
    rw [hsaved] at hafter
    cases hafter
  | ok s' =>
    refine ⟨s', rfl, ?_⟩
    intro hnoop
    rw [hsaved] at hafter
    obtain ⟨sets, hsets, hlogs⟩ := resolved_of_logsRead hbefore
    obtain ⟨sets', hsets', hlogs'⟩ := resolved_of_logsRead hafter
    have hagree := (hnoop.access _ _ _ hsets hsets').seesFor .logs "checkout"
    unfold AccessSets.SeesFor at hagree
    rw [hlogs, hlogs'] at hagree
    exact absurd (hagree.2 (.inr (Finset.mem_singleton_self _))) (by decide)

end Sluicio.Identity
