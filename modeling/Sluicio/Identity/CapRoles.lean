import Sluicio.Identity.Access
import Sluicio.Identity.Roles

/-!
# Capped group roles

What the resolvers make of a member whose role in every group is capped: the visible set does
not look at the roles, and the managed one only at whether a role may write.
-/

namespace Sluicio.Identity

open Lib

/-- A capped role may write just when it and the cap both may. -/
theorem Role.canWrite_cap {r cap : Role} (hcap : cap.isValid) :
    (r.cap cap).canWrite = (r.canWrite && cap.canWrite) := by
  cases r <;> cases cap <;> first | rfl | cases hcap

theorem Role.canAdmin_cap {r cap : Role} (hcap : cap.isValid) :
    (r.cap cap).canAdmin = (r.canAdmin && cap.canAdmin) := by
  cases r <;> cases cap <;> first | rfl | cases hcap

/-- The membership row of `ref` with its group role capped; the rows of others stay. -/
def GroupMember.capRole (ref : MemberRef) (cap : Role) (gm : GroupMember) : GroupMember :=
  if gm.member = ref then { gm with role := gm.role.cap cap } else gm

@[simp] theorem GroupMember.capRole_member (ref : MemberRef) (cap : Role) (gm : GroupMember) :
    (gm.capRole ref cap).member = gm.member := by
  unfold capRole
  split <;> rfl

@[simp] theorem GroupMember.capRole_groupID (ref : MemberRef) (cap : Role) (gm : GroupMember) :
    (gm.capRole ref cap).groupID = gm.groupID := by
  unfold capRole
  split <;> rfl

namespace Store

variable (s : Store) (ref : MemberRef) (cap : Role)

/-- The store in which `ref` has no group role above the cap. -/
def capRoles : Store := { s with members := s.members.map (GroupMember.capRole ref cap) }

@[simp] theorem capRoles_faults : (s.capRoles ref cap).faults = s.faults := rfl

/-- The policies listed for the member are the same ones, each with its role capped. -/
theorem memberPolicies_capRoles :
    (s.capRoles ref cap).memberPolicies ref =
      (s.memberPolicies ref).map fun up => { up with groupRole := up.groupRole.cap cap } := by
  simp only [memberPolicies, capRoles, List.map_flatMap, List.map_map, List.filter_map]
  refine List.flatMap_congr fun p _ => ?_
  have hsame : ((fun gm : GroupMember =>
      decide (gm.member = ref) && decide (gm.groupID = p.groupID)) ∘ GroupMember.capRole ref cap) =
      fun gm => decide (gm.member = ref) && decide (gm.groupID = p.groupID) := by
    funext gm
    simp
  rw [hsame]
  refine List.map_congr_left fun gm hgm => ?_
  have hmember : gm.member = ref := by
    have hboth := (List.mem_filter.1 hgm).2
    simp only [Bool.and_eq_true, decide_eq_true_eq] at hboth
    exact hboth.1
  simp [GroupMember.capRole, hmember]

theorem policies_capRoles :
    ((s.capRoles ref cap).memberPolicies ref).map UserPolicy.policy =
      (s.memberPolicies ref).map UserPolicy.policy := by
  rw [memberPolicies_capRoles, List.map_map]
  rfl

/-- Under a cap that may not write, no policy is left that manages anything. -/
theorem managedPolicies_capRoles (hcap : cap.isValid) :
    managedPolicies ((s.capRoles ref cap).memberPolicies ref) =
      if cap.canWrite then managedPolicies (s.memberPolicies ref) else [] := by
  rw [memberPolicies_capRoles]
  simp only [managedPolicies, List.filter_map, List.map_map, Function.comp_def,
    Role.canWrite_cap hcap]
  cases cap.canWrite <;> simp

theorem signalPolicies_capRoles (sig : Signal) :
    signalPolicies ((s.capRoles ref cap).memberPolicies ref) sig =
      signalPolicies (s.memberPolicies ref) sig := by
  rw [memberPolicies_capRoles]
  simp only [signalPolicies, List.filter_map, List.map_map, Function.comp_def]

/-! What does not look at the memberships. -/

theorem composePolicy_capRoles (p : AccessPolicy) :
    (s.capRoles ref cap).composePolicy p = s.composePolicy p := rfl

theorem composeAccess_capRoles (ps : List AccessPolicy) :
    (s.capRoles ref cap).composeAccess ps = s.composeAccess ps := by
  have hfrom : ∀ out, (s.capRoles ref cap).composeFrom out ps = s.composeFrom out ps := by
    induction ps with
    | nil => exact fun _ => rfl
    | cons p ps ih =>
      intro out
      simp only [composeFrom, composePolicy_capRoles, ih]
  exact hfrom {}

theorem servicesMatchingAttributes_capRoles (pairs : List (String × String)) :
    (s.capRoles ref cap).servicesMatchingAttributes pairs = s.servicesMatchingAttributes pairs := by
  have hmatching : (s.capRoles ref cap).matching pairs = s.matching pairs := by
    induction pairs with
    | nil => rfl
    | cons kv kvs ih =>
      cases kvs with
      | nil => rfl
      | cons kv' kvs =>
        simp only [matching] at ih ⊢
        rw [ih]
        rfl
  unfold servicesMatchingAttributes
  rw [hmatching]
  rfl

theorem materializeAccess_capRoles (access : EffectiveAccess) :
    (s.capRoles ref cap).materializeAccess access = s.materializeAccess access := by
  have hattrs : ∀ pairs, (s.capRoles ref cap).materializeAttributes pairs =
      s.materializeAttributes pairs := by
    intro pairs
    induction pairs with
    | nil => rfl
    | cons kv rest ih =>
      simp only [materializeAttributes, servicesMatchingAttributes_capRoles, ih]
  have hcompounds : ∀ cps, (s.capRoles ref cap).materializeCompounds cps =
      s.materializeCompounds cps := by
    intro cps
    induction cps with
    | nil => rfl
    | cons cp rest ih =>
      simp only [materializeCompounds, servicesMatchingAttributes_capRoles, ih]
  unfold materializeAccess
  rw [hattrs, hcompounds]
  rfl

theorem materialize_capRoles (ps : List AccessPolicy) :
    (s.capRoles ref cap).materialize ps = s.materialize ps := by
  unfold materialize
  rw [composeAccess_capRoles]
  simp only [materializeAccess_capRoles]

theorem composedIntegrations_capRoles (ps : List AccessPolicy) :
    (s.capRoles ref cap).composedIntegrations ps = s.composedIntegrations ps := by
  unfold composedIntegrations
  rw [composeAccess_capRoles]

theorem groupsOf_capRoles (userID : UUID) :
    (s.capRoles ref cap).groupsOf userID = s.groupsOf userID := by
  simp only [groupsOf, capRoles, List.filter_map, List.map_map]
  have hsame : ((fun gm : GroupMember => decide (gm.member = .user userID)) ∘
      GroupMember.capRole ref cap) = fun gm => decide (gm.member = .user userID) := by
    funext gm
    simp
  rw [hsame]
  refine List.map_congr_left fun gm _ => ?_
  simp

theorem sharesOf_capRoles (m : MemberRef) : (s.capRoles ref cap).sharesOf m = s.sharesOf m := by
  cases m with
  | serviceAccount id => rfl
  | user id =>
    have hreach : (s.capRoles ref cap).shareReaches id = s.shareReaches id := by
      funext sh
      unfold shareReaches
      rw [groupsOf_capRoles]
    have hshared : (s.capRoles ref cap).sharedResourcesForUser id =
        s.sharedResourcesForUser id := by
      unfold sharedResourcesForUser sharedResources
      rw [hreach]
      rfl
    simp only [sharesOf, expandShares]
    rw [hshared]
    rfl

/-! ## The resolvers -/

theorem listPoliciesForMember_eq (m : MemberRef) :
    s.listPoliciesForMember m =
      (wrapErr "identity: list user policies: "
        (readRows s.faults .listPoliciesForMember ())).map fun _ => s.memberPolicies m := by
  unfold listPoliciesForMember readRows
  cases s.faults .listPoliciesForMember <;> rfl

/-- **The visible set does not look at the roles.** -/
theorem resolveVisibleServiceSetMember_capRoles :
    (s.capRoles ref cap).resolveVisibleServiceSetMember ref =
      s.resolveVisibleServiceSetMember ref := by
  have heffective : (s.capRoles ref cap).resolveEffectiveAccessMember ref =
      s.resolveEffectiveAccessMember ref := by
    unfold resolveEffectiveAccessMember
    rw [listPoliciesForMember_eq, listPoliciesForMember_eq, capRoles_faults]
    cases wrapErr "identity: list user policies: "
        (readRows s.faults .listPoliciesForMember ()) with
    | error e => rfl
    | ok u =>
      show (s.capRoles ref cap).composeAccess _ = s.composeAccess _
      rw [policies_capRoles, composeAccess_capRoles]
  unfold resolveVisibleServiceSetMember
  rw [heffective]
  simp only [materializeAccess_capRoles, sharesOf_capRoles]

theorem signalLoop_capRoles (st : SignalLoop) (sigs : List Signal) :
    (s.capRoles ref cap).signalLoop ((s.capRoles ref cap).memberPolicies ref) st sigs =
      s.signalLoop (s.memberPolicies ref) st sigs := by
  have hstep : ∀ st sig, (s.capRoles ref cap).signalStep
      ((s.capRoles ref cap).memberPolicies ref) st sig =
        s.signalStep (s.memberPolicies ref) st sig := by
    intro st sig
    simp only [signalStep, integrationsMemo, materializeMemo, signalPolicies_capRoles,
      composedIntegrations_capRoles, materialize_capRoles]
  induction sigs generalizing st with
  | nil => rfl
  | cons sig sigs ih => simp only [signalLoop, hstep, ih]

/-- **A cap that may write changes nothing the resolver answers.** -/
theorem resolveAccessSetsMember_capRoles (hcap : cap.isValid) (hwrite : cap.canWrite) :
    (s.capRoles ref cap).resolveAccessSetsMember ref = s.resolveAccessSetsMember ref := by
  unfold resolveAccessSetsMember
  rw [listPoliciesForMember_eq, listPoliciesForMember_eq, capRoles_faults]
  cases wrapErr "identity: list user policies: " (readRows s.faults .listPoliciesForMember ()) with
  | error e => simp only [Except.map, bind, Except.bind]
  | ok u =>
    simp only [Except.map, bind, Except.bind, policies_capRoles,
      managedPolicies_capRoles s ref cap hcap, hwrite, if_true, materializeMemo,
      materialize_capRoles, signalLoop_capRoles, sharesOf_capRoles]

/-- **A cap that may not write leaves nothing to manage.** -/
theorem not_manages_capRoles (hcap : cap.isValid) (hwrite : cap.canWrite = false)
    {sets : AccessSets} (h : (s.capRoles ref cap).resolveAccessSetsMember ref = .ok sets)
    (n : String) : ¬ sets.Manages n := by
  have hresolved := resolveAccessSetsMember_eq_ok h
  rw [hresolved.manages_iff, managedPolicies_capRoles s ref cap hcap, hwrite]
  simp [HasAllOrg]

end Store

end Sluicio.Identity
