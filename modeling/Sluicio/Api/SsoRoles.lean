import Sluicio.Api.Sso

/-!
# Sign-in through an identity provider: the roles of a login

At every login the groups of the token are mapped to the user's role in the organization and to
the memberships in the groups that the provider's mappings refer to.  The mapped role starts
from the provider's default and only rises; and a re-sync that fails does not fail the login.
-/

namespace Sluicio.Identity

open Lib

def IsHighest (roles : List Role) (r : Role) : Prop :=
  r ∈ roles ∧ ∀ r' ∈ roles, r'.rank ≤ r.rank

theorem IsHighest.unique {roles : List Role} {r r' : Role} (h : IsHighest roles r)
    (h' : IsHighest roles r') : r = r' :=
  Role.rank_injective (le_antisymm (h'.2 r h.1) (h.2 r' h'.1))

theorem isHighest_foldl (d : Role) (roles : List Role) :
    IsHighest (d :: roles)
      (roles.foldl (fun role r => if role.rank < r.rank then r else role) d) := by
  induction roles generalizing d with
  | nil => exact ⟨by simp, by simp⟩
  | cons r roles ih =>
    have hboth : d.rank ≤ (if d.rank < r.rank then r else d).rank ∧
        r.rank ≤ (if d.rank < r.rank then r else d).rank := by
      split <;> omega
    rw [List.foldl_cons]
    obtain ⟨hmem, hall⟩ := ih (if d.rank < r.rank then r else d)
    have hstart := hall _ List.mem_cons_self
    constructor
    · rcases List.mem_cons.mp hmem with heq | hmem
      · rw [heq]
        split <;> simp
      · simp [hmem]
    · intro r' hr'
      simp only [List.mem_cons] at hr'
      rcases hr' with rfl | rfl | hr'
      · exact hboth.1.trans hstart
      · exact hboth.2.trans hstart
      · exact hall r' (List.mem_cons_of_mem _ hr')

theorem foldl_bestRole (c : Role) (roles : List Role) :
    roles.foldl SsoStore.bestRole (some c) =
      some (roles.foldl (fun role r => if role.rank < r.rank then r else role) c) := by
  induction roles generalizing c with
  | nil => rfl
  | cons r roles ih =>
    rw [List.foldl_cons, List.foldl_cons, ← ih]
    apply congrArg (fun cur => roles.foldl SsoStore.bestRole cur)
    rw [SsoStore.bestRole]
    split <;> rfl

namespace SsoStore

variable (s : SsoStore)

def matchedMappings (p : AuthProvider) (claimGroups : List String) : List ClaimMapping :=
  (s.listClaimMappings p.id).filter fun m => m.claimValue ∈ claimGroups

/-- The org roles that matched mappings state. -/
def statedRoles (p : AuthProvider) (claimGroups : List String) : List Role :=
  (s.matchedMappings p claimGroups).filterMap ClaimMapping.orgRole

/-- The roles in a group that matched mappings give. -/
def groupRoles (p : AuthProvider) (claimGroups : List String) (gid : UUID) : List Role :=
  ((s.matchedMappings p claimGroups).filter fun m => m.groupID = some gid).map
    fun m => validRole m.groupRole

def isOrgRow (userID orgID : UUID) (m : OrgMember) : Bool :=
  m.userID = userID && m.orgID = orgID

/-- The user's role in the organization, `none` for a user who is not a member. -/
def orgRole (userID orgID : UUID) : Option Role :=
  (s.orgMembers.find? (isOrgRow userID orgID)).map OrgMember.role

/-- The user's roles are what the provider says: the highest role that a matched mapping
states, or the default when none does; and in every group that a mapping refers to the highest
role of the mappings that matched, or no membership. -/
structure RolesFollow (p : AuthProvider) (userID : UUID) (claimGroups : List String) : Prop where
  org : ∃ r, s.orgRole userID p.orgID = some r ∧
    (s.statedRoles p claimGroups = [] → r = validRole p.defaultRole) ∧
    (s.statedRoles p claimGroups ≠ [] → IsHighest (s.statedRoles p claimGroups) r)
  groups : ∀ gid ∈ managedGroups (s.listClaimMappings p.id),
    match s.groupRole userID gid with
    | none => s.groupRoles p claimGroups gid = []
    | some r => IsHighest (s.groupRoles p claimGroups gid) r

/-- No matched mapping states a role, or one states a role that the default does not outrank. -/
def DefaultYields (p : AuthProvider) (claimGroups : List String) : Prop :=
  s.statedRoles p claimGroups = [] ∨
    ∃ r ∈ s.statedRoles p claimGroups, (validRole p.defaultRole).rank ≤ r.rank

/-! ## What the re-sync writes -/

variable {s}

theorem isHighest_resolvedRole (p : AuthProvider) (claimGroups : List String) :
    IsHighest (validRole p.defaultRole :: s.statedRoles p claimGroups)
      (resolvedRole p (s.matchedMappings p claimGroups)) := by
  have hfold : resolvedRole p (s.matchedMappings p claimGroups) =
      (s.statedRoles p claimGroups).foldl (fun role r => if role.rank < r.rank then r else role)
        (validRole p.defaultRole) := by
    rw [statedRoles, List.foldl_filterMap]
    apply congrArg fun f => (s.matchedMappings p claimGroups).foldl f (validRole p.defaultRole)
    funext role m
    cases m.orgRole <;> rfl
  rw [hfold]
  exact isHighest_foldl _ _

theorem resolvedRole_follows_iff (p : AuthProvider) (claimGroups : List String) :
    ((s.statedRoles p claimGroups = [] →
        resolvedRole p (s.matchedMappings p claimGroups) = validRole p.defaultRole) ∧
      (s.statedRoles p claimGroups ≠ [] →
        IsHighest (s.statedRoles p claimGroups)
          (resolvedRole p (s.matchedMappings p claimGroups)))) ↔
      s.DefaultYields p claimGroups := by
  have hhighest := isHighest_resolvedRole (s := s) p claimGroups
  generalize resolvedRole p (s.matchedMappings p claimGroups) = r at *
  generalize hstated : s.statedRoles p claimGroups = stated at *
  unfold DefaultYields
  rw [hstated]
  constructor
  · rintro ⟨-, hsome⟩
    by_cases hnone : stated = []
    · exact .inl hnone
    · exact .inr ⟨r, (hsome hnone).1, hhighest.2 _ List.mem_cons_self⟩
  · intro hyields
    constructor
    · rintro rfl
      exact List.mem_singleton.mp hhighest.1
    · intro hsome
      obtain ⟨r', hr', hle⟩ := hyields.resolve_left hsome
      have hall : ∀ r'' ∈ stated, r''.rank ≤ r.rank := fun r'' hr'' =>
        hhighest.2 r'' (List.mem_cons_of_mem _ hr'')
      refine ⟨?_, hall⟩
      rcases List.mem_cons.mp hhighest.1 with heq | hmem
      · -- the default, of the rank of a stated role, is that role
        have hsame : r = r' := by
          apply Role.rank_injective
          apply le_antisymm _ (hall r' hr')
          rw [heq]
          exact hle
        rw [hsame]
        exact hr'
      · exact hmem

/-- The role that is mapped in a group is the highest, `none` when no mapping matched. -/
theorem matchedGroup_follows (p : AuthProvider) (claimGroups : List String) (gid : UUID) :
    match matchedGroup (s.matchedMappings p claimGroups) gid with
    | none => s.groupRoles p claimGroups gid = []
    | some r => IsHighest (s.groupRoles p claimGroups gid) r := by
  have hfold : matchedGroup (s.matchedMappings p claimGroups) gid =
      (s.groupRoles p claimGroups gid).foldl bestRole none := by
    rw [groupRoles, List.foldl_map]
    rfl
  rw [hfold]
  cases s.groupRoles p claimGroups gid with
  | nil => rfl
  | cons r roles =>
    have hstart : (r :: roles).foldl bestRole none = roles.foldl bestRole (some r) := rfl
    rw [hstart, foldl_bestRole]
    exact isHighest_foldl r roles

theorem orgRole_applyClaimMappings (p : AuthProvider) (userID : UUID)
    (claimGroups : List String) (user org : UUID) :
    (s.applyClaimMappings p userID claimGroups).orgRole user org =
      if user = userID ∧ org = p.orgID then
        some (resolvedRole p (s.matchedMappings p claimGroups))
      else s.orgRole user org := by
  have hrows : (s.applyClaimMappings p userID claimGroups).orgMembers =
      upsert (isOrgRow userID p.orgID)
        (fun m => { m with role := resolvedRole p (s.matchedMappings p claimGroups) })
        ⟨userID, p.orgID, resolvedRole p (s.matchedMappings p claimGroups)⟩ s.orgMembers := rfl
  rw [orgRole, hrows]
  by_cases hself : user = userID ∧ org = p.orgID
  · obtain ⟨rfl, rfl⟩ := hself
    rw [if_pos ⟨rfl, rfl⟩, find?_upsert_self]
    · cases s.orgMembers.find? (isOrgRow user p.orgID) with
      | none => rfl
      | some m => rfl
    · intro m hm
      exact hm
    · simp [isOrgRow]
  · have hother : ∀ m, isOrgRow userID p.orgID m → isOrgRow user org m = false := by
      intro m hm
      rw [Bool.eq_false_iff]
      intro hsame
      simp only [isOrgRow, Bool.and_eq_true, decide_eq_true_eq] at hm hsame
      exact hself ⟨hsame.1.symm.trans hm.1, hsame.2.symm.trans hm.2⟩
    rw [if_neg hself, orgRole, find?_upsert_other]
    · intro m hm
      exact ⟨hother m hm, hother _ hm⟩
    · exact hother _ (by simp [isOrgRow])

theorem rolesFollow_applyClaimMappings (s : SsoStore) (p : AuthProvider) (userID : UUID)
    (claimGroups : List String) :
    (s.applyClaimMappings p userID claimGroups).RolesFollow p userID claimGroups ↔
      s.DefaultYields p claimGroups := by
  rw [← resolvedRole_follows_iff]
  have horg := orgRole_applyClaimMappings (s := s) p userID claimGroups userID p.orgID
  rw [if_pos ⟨rfl, rfl⟩] at horg
  constructor
  · intro h
    obtain ⟨r, hr, hfollow⟩ := h.org
    rw [horg] at hr
    rw [Option.some.inj hr]
    exact hfollow
  · intro h
    constructor
    · exact ⟨_, horg, h⟩
    · intro gid hgid
      rw [groupRole_applyClaimMappings, if_pos ⟨rfl, hgid⟩]
      exact matchedGroup_follows p claimGroups gid

theorem applyClaimMappings_of_follow {p : AuthProvider} {userID : UUID}
    {claimGroups : List String} (h : s.RolesFollow p userID claimGroups)
    (hyields : s.DefaultYields p claimGroups) (user : UUID) :
    (∀ org, (s.applyClaimMappings p userID claimGroups).orgRole user org = s.orgRole user org) ∧
      ∀ gid, (s.applyClaimMappings p userID claimGroups).groupRole user gid =
        s.groupRole user gid := by
  constructor
  · intro org
    rw [orgRole_applyClaimMappings]
    split
    · rename_i hself
      obtain ⟨rfl, rfl⟩ := hself
      obtain ⟨r, hr, hnone, hsome⟩ := h.org
      obtain ⟨hnone', hsome'⟩ := (resolvedRole_follows_iff p claimGroups).mpr hyields
      rw [hr]
      by_cases hstated : s.statedRoles p claimGroups = []
      · rw [hnone hstated, hnone' hstated]
      · rw [(hsome hstated).unique (hsome' hstated)]
    · rfl
  · intro gid
    rw [groupRole_applyClaimMappings]
    split
    · rename_i hself
      obtain ⟨rfl, hgid⟩ := hself
      have hgroup := h.groups gid hgid
      have hmatched := matchedGroup_follows (s := s) p claimGroups gid
      show matchedGroup (s.matchedMappings p claimGroups) gid = _
      cases hrole : s.groupRole user gid with
      | none =>
        rw [hrole] at hgroup
        cases hmatch : matchedGroup (s.matchedMappings p claimGroups) gid with
        | none => rfl
        | some r =>
          rw [hmatch] at hmatched
          have hnil : s.groupRoles p claimGroups gid = [] := hgroup
          rw [hnil] at hmatched
          cases hmatched.1
      | some r =>
        rw [hrole] at hgroup
        cases hmatch : matchedGroup (s.matchedMappings p claimGroups) gid with
        | none =>
          rw [hmatch] at hmatched
          have hnil : s.groupRoles p claimGroups gid = [] := hmatched
          rw [hnil] at hgroup
          cases hgroup.1
        | some r' =>
          rw [hmatch] at hmatched
          rw [IsHighest.unique hgroup hmatched]
    · rfl

end SsoStore

end Sluicio.Identity

namespace Sluicio.Api

open Identity

/-! ## A login -/

/-- What a login leaves of the roles of its user: they follow the provider, those in groups that
it does not refer to are as before, and to re-sync once more changes nothing. -/
structure LoginFollows (s s' : SsoStore) (p : AuthProvider) (userID : UUID)
    (claimGroups : List String) : Prop where
  roles : s'.RolesFollow p userID claimGroups
  others : ∀ gid ∉ SsoStore.managedGroups (s.listClaimMappings p.id),
    s'.groupRole userID gid = s.groupRole userID gid
  repeated : ∀ user,
    (∀ org, (s'.applyClaimMappings p userID claimGroups).orgRole user org = s'.orgRole user org) ∧
    ∀ gid, (s'.applyClaimMappings p userID claimGroups).groupRole user gid = s'.groupRole user gid

theorem loginFollows_resync (s : SsoStore) (p : AuthProvider) (userID : UUID)
    (claimGroups : List String) (failed : Bool) :
    LoginFollows s (if failed then s else s.applyClaimMappings p userID claimGroups) p userID
        claimGroups ↔
      s.DefaultYields p claimGroups ∧ (failed → s.RolesFollow p userID claimGroups) := by
  cases failed with
  | true =>
    simp only [if_true, true_implies]
    constructor
    · intro h
      refine ⟨?_, h.roles⟩
      rw [← SsoStore.rolesFollow_applyClaimMappings s p userID claimGroups]
      obtain ⟨horg, hgroups⟩ := h.repeated userID
      constructor
      · rw [horg]
        exact h.roles.org
      · intro gid hgid
        rw [hgroups]
        exact h.roles.groups gid hgid
    · rintro ⟨hyields, hroles⟩
      exact ⟨hroles, fun _ _ => rfl, SsoStore.applyClaimMappings_of_follow hroles hyields⟩
  | false =>
    simp only [Bool.false_eq_true, if_false, false_implies, and_true]
    constructor
    · intro h
      exact (SsoStore.rolesFollow_applyClaimMappings s p userID claimGroups).mp h.roles
    · intro hyields
      have hroles := (SsoStore.rolesFollow_applyClaimMappings s p userID claimGroups).mpr hyields
      refine ⟨hroles, ?_, SsoStore.applyClaimMappings_of_follow hroles hyields⟩
      intro gid hgid
      rw [SsoStore.groupRole_applyClaimMappings, if_neg fun h => hgid h.2]

/-- **When the roles of a login follow the provider.**  For every state of the tables, every
callback that ends in a session and every outcome of its re-sync. -/
theorem loginFollows_iff {entitled : Bool} {s s' : SsoStore} {c : Callback} {st : SSOLoginState}
    {p : AuthProvider} {tok : IDToken} {sess : Session} {redirectTo : String}
    (hlogin : acceptedLogin entitled s c = some (st, p, tok))
    (hsession : ssoCallback entitled s c = (s', .signedIn sess redirectTo)) :
    LoginFollows s s' p sess.userID (stringsFromClaims tok.claims p.claimGroups) ↔
      s.DefaultYields p (stringsFromClaims tok.claims p.claimGroups) ∧
        (c.faults .applyClaimMappings →
          s.RolesFollow p sess.userID (stringsFromClaims tok.claims p.claimGroups)) := by
  rcases ssoCallback_cases entitled s c with
    ⟨st', p', tok', states, hlogin', hcallback⟩ | ⟨hnone, -, -⟩
  · obtain ⟨rfl, rfl, rfl⟩ := acceptedLogin_unique hlogin hlogin'
    rw [hcallback] at hsession
    have hanswer := congrArg Prod.snd hsession
    obtain ⟨-, -, s₂, hres, -⟩ := signIn_session_iff.mp hanswer
    obtain ⟨users, subjects, sessions, htables⟩ :=
      @signIn_tables { s with loginStates := states } c st p tok sess.userID s₂ hres
    have hstate : s' = _ := (congrArg Prod.fst hsession).symm.trans htables
    rw [hstate, ← loginFollows_resync]
    -- the other tables do not tell the roles of a user
    cases c.faults .applyClaimMappings with
    | true =>
      constructor
      · intro h
        exact ⟨⟨h.roles.org, h.roles.groups⟩, h.others, h.repeated⟩
      · intro h
        exact ⟨⟨h.roles.org, h.roles.groups⟩, h.others, h.repeated⟩
    | false =>
      constructor
      · intro h
        exact ⟨⟨h.roles.org, h.roles.groups⟩, h.others, h.repeated⟩
      · intro h
        exact ⟨⟨h.roles.org, h.roles.groups⟩, h.others, h.repeated⟩
  · rw [hnone] at hlogin
    cases hlogin

/-- A provider with the default editor, that maps the group of the staff to viewer and to the
group 11; a member of the staff who was an admin. -/
private def staffStore : SsoStore where
  lower := id
  providers := [{ id := 20, orgID := 2, defaultRole := .editor }]
  mappings := [⟨20, "staff", some .viewer, some 11, .viewer⟩]
  subjects := [⟨20, "ann", 7⟩]
  users := [⟨7, "ann@acme.example", "Ann"⟩]
  orgMembers := [⟨7, 2, .admin⟩]
  groups := [⟨11, 2⟩]
  loginStates := [⟨"st", 20, "n", "/", 600⟩]

private def staffProvider : AuthProvider := { id := 20, orgID := 2, defaultRole := .editor }

private def staffToken : IDToken where
  subject := "ann"
  nonce := "n"
  claims := [("groups", .list [some "staff"])]

private def staffLogin : Callback where
  state := "st"
  idToken := .ok staffToken
  now := 60
  userID := 8
  sessionID := "s1"

theorem loginFollows_iff_staff :
    LoginFollows staffStore (ssoCallback true staffStore staffLogin).1 staffProvider 7 ["staff"] ↔
      staffStore.DefaultYields staffProvider ["staff"] ∧
        (staffLogin.faults .applyClaimMappings →
          staffStore.RolesFollow staffProvider 7 ["staff"]) :=
  @loginFollows_iff true staffStore _ staffLogin ⟨"st", 20, "n", "/", 600⟩ staffProvider
    staffToken ⟨"s1", 7⟩ "/" (by decide +kernel) (by rfl)

theorem staffLogin_above_mapping :
    (ssoCallback true staffStore staffLogin).2 = .signedIn ⟨"s1", 7⟩ "/" ∧
      staffStore.statedRoles staffProvider ["staff"] = [.viewer] ∧
      (ssoCallback true staffStore staffLogin).1.orgRole 7 2 = some .editor ∧
      ¬LoginFollows staffStore (ssoCallback true staffStore staffLogin).1 staffProvider 7
        ["staff"] := by
  have hstated : (ssoCallback true staffStore staffLogin).1.statedRoles staffProvider ["staff"] =
      [.viewer] := by decide +kernel
  have hrole : (ssoCallback true staffStore staffLogin).1.orgRole 7 2 = some .editor := by
    decide +kernel
  refine ⟨by decide +kernel, by decide +kernel, hrole, ?_⟩
  intro h
  obtain ⟨r, hr, -, hsome⟩ := h.roles.org
  rw [hstated] at hsome
  have hviewer : r = .viewer := List.mem_singleton.mp (hsome (by simp)).1
  rw [hviewer] at hr
  exact absurd (hrole.symm.trans hr) (by decide)

end Sluicio.Api
