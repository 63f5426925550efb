import Sluicio.Identity.Roles
import Sluicio.Tracecompletion.Types

/-!
# Sign-in through an identity provider: the tables

The providers and their claim mappings, the links between external subjects and users, the
login states, and the re-sync of a user's roles from the groups claim at each login.
-/

namespace Sluicio.Identity

open Lib
open Tracecompletion (trimSpace)

/-- A row of `auth_providers`. -/
structure AuthProvider where
  id : UUID
  orgID : UUID
  claimEmail : String := "email"
  claimName : String := "name"
  claimSub : String := "sub"
  claimGroups : String := "groups"
  defaultRole : Role := .viewer
  jitProvisioning : Bool := false
  enabled : Bool := true
  deriving DecidableEq

/-- A row of `auth_provider_claim_mappings`. -/
structure ClaimMapping where
  providerID : UUID
  claimValue : String
  orgRole : Option Role := none
  groupID : Option UUID := none
  groupRole : Role := .viewer

/-- A row of `oidc_subjects`. -/
structure OidcSubject where
  providerID : UUID
  externalSub : String
  userID : UUID

/-- The columns of `users` that a login reads and writes. -/
structure User where
  id : UUID
  email : String
  name : String := ""

/-- A row of `org_members`. -/
structure OrgMember where
  userID : UUID
  orgID : UUID
  role : Role
  deriving DecidableEq

/-- A row of `groups`. -/
structure Group where
  id : UUID
  orgID : UUID

/-- A row of `sso_login_states`. -/
structure SSOLoginState where
  state : String
  providerID : UUID
  nonce : String
  redirectTo : String := "/"
  expiresAt : Nat
  deriving DecidableEq

/-- A row of `sessions`. -/
structure Session where
  id : String
  userID : UUID
  deriving DecidableEq

/-- The tables a login reads and writes, and the database's `lower`. -/
structure SsoStore where
  lower : String → String := String.toLower
  providers : List AuthProvider := []
  mappings : List ClaimMapping := []
  subjects : List OidcSubject := []
  users : List User := []
  orgMembers : List OrgMember := []
  groups : List Group := []
  groupMembers : List GroupMember := []
  loginStates : List SSOLoginState := []
  sessions : List Session := []

namespace SsoStore

variable (s : SsoStore)

/-- `GetAuthProvider`: within one organization. -/
def getAuthProvider (orgID id : UUID) : Option AuthProvider :=
  s.providers.find? fun p => p.id = id && p.orgID = orgID

/-- `GetAuthProviderByID`: of any organization. -/
def getAuthProviderByID (id : UUID) : Option AuthProvider :=
  s.providers.find? fun p => p.id = id

def listClaimMappings (providerID : UUID) : List ClaimMapping :=
  s.mappings.filter fun m => m.providerID = providerID

def findUserBySubject (providerID : UUID) (sub : String) : Option UUID :=
  (s.subjects.find? fun r => r.providerID = providerID && r.externalSub = sub).map
    OidcSubject.userID

/-- `GetUserByEmail`: over every user of the cell. -/
def getUserByEmail (email : String) : Option User :=
  s.users.find? fun u => s.lower u.email = s.lower email

/-- The organization a group belongs to. -/
def groupOrg (groupID : UUID) : Option UUID :=
  (s.groups.find? fun g => g.id = groupID).map Group.orgID

/-- The user's role in a group, `none` for a user who is not in it. -/
def groupRole (userID groupID : UUID) : Option Role :=
  (s.groupMembers.find? fun m => m.member = .user userID && m.groupID = groupID).map
    GroupMember.role

def IsMember (userID orgID : UUID) : Prop :=
  ∃ m ∈ s.orgMembers, m.userID = userID ∧ m.orgID = orgID

instance (userID orgID : UUID) : Decidable (s.IsMember userID orgID) := by
  unfold IsMember
  infer_instance

/-- `CreateClaimMapping`.  The table has no check that ties the group to the provider's
organization; it refuses a role that is none of the three and a group that does not exist. -/
def createClaimMapping (m : ClaimMapping) : Option SsoStore :=
  let m := if m.groupRole.isValid then m else { m with groupRole := .viewer }
  if m.orgRole = some .unknown then none
  else
    match m.groupID with
    | some gid => if s.groupOrg gid = none then none
        else some { s with mappings := s.mappings ++ [m] }
    | none => some { s with mappings := s.mappings ++ [m] }

def consumeSSOLoginState (state : String) (now : Nat) : Option (SSOLoginState × SsoStore) :=
  match s.loginStates.find? fun st => st.state = state && now < st.expiresAt with
  | none => none
  | some st =>
    some (st, { s with loginStates := s.loginStates.filter fun st => st.state ≠ state })

/-- `CreateUser`; the id is drawn by the database, and an address that is taken refused. -/
def createUser (id : UUID) (email name : String) : Option (User × SsoStore) :=
  let email := trimSpace email
  let name := trimSpace name
  if email = "" then none
  else if s.users.any fun u => u.id = id || s.lower u.email = s.lower email then none
  else
    let u : User := { id := id, email := email, name := name }
    some (u, { s with users := s.users ++ [u] })

/-- `LinkSubject`; a subject that is linked already keeps its user. -/
def linkSubject (providerID : UUID) (sub : String) (userID : UUID) : SsoStore :=
  if s.subjects.any fun r => r.providerID = providerID && r.externalSub = sub then s
  else { s with subjects := s.subjects ++ [⟨providerID, sub, userID⟩] }

def createSession (id : String) (userID : UUID) : SsoStore :=
  { s with sessions := s.sessions ++ [⟨id, userID⟩] }

/-! ## The re-sync at login -/

def validRole (r : Role) : Role := if r.isValid then r else .viewer

/-- The better of a role so far and another; the first stays when they are equal. -/
def bestRole (cur : Option Role) (r : Role) : Option Role :=
  match cur with
  | none => some r
  | some c => if c.rank < r.rank then some r else some c

/-- The org role that the matched mappings give: the highest of theirs and the default. -/
def resolvedRole (p : AuthProvider) (matched : List ClaimMapping) : Role :=
  matched.foldl (fun role m =>
    match m.orgRole with
    | some r => if role.rank < r.rank then r else role
    | none => role) (validRole p.defaultRole)

/-- The groups that the provider's mappings refer to. -/
def managedGroups (mappings : List ClaimMapping) : List UUID :=
  (mappings.filterMap ClaimMapping.groupID).dedup

/-- The role that the matched mappings give in a group, `none` when none does. -/
def matchedGroup (matched : List ClaimMapping) (gid : UUID) : Option Role :=
  (matched.filter fun m => m.groupID = some gid).foldl
    (fun cur m => bestRole cur (validRole m.groupRole)) none

def upsertOrgMember (userID orgID : UUID) (role : Role) : SsoStore :=
  { s with
    orgMembers := upsert (fun m => m.userID = userID && m.orgID = orgID)
      (fun m => { m with role := role }) ⟨userID, orgID, role⟩ s.orgMembers }

def isRow (userID gid : UUID) (m : GroupMember) : Bool :=
  m.member = .user userID && m.groupID = gid

/-- The user's row of one managed group: added, given the matched role, or removed. -/
def syncGroup (userID : UUID) (members : List GroupMember) (gid : UUID) (role : Option Role) :
    List GroupMember :=
  match role with
  | some r =>
    upsert (isRow userID gid) (fun m => { m with role := r }) ⟨gid, .user userID, r⟩ members
  | none => members.filter fun m => !isRow userID gid m

/-- `ApplyClaimMappings`: one transaction. -/
def applyClaimMappings (p : AuthProvider) (userID : UUID) (claimGroups : List String) :
    SsoStore :=
  let mappings := s.listClaimMappings p.id
  let matched := mappings.filter fun m => m.claimValue ∈ claimGroups
  let s := s.upsertOrgMember userID p.orgID (resolvedRole p matched)
  { s with
    groupMembers := (managedGroups mappings).foldl
      (fun members gid => syncGroup userID members gid (matchedGroup matched gid))
      s.groupMembers }

/-! ## What the re-sync leaves -/

def roleIn (members : List GroupMember) (userID gid : UUID) : Option Role :=
  (members.find? (isRow userID gid)).map GroupMember.role

theorem isRow_apart {userID gid user gid' : UUID} (hne : ¬ (user = userID ∧ gid' = gid))
    (m : GroupMember) (hm : isRow userID gid m) : isRow user gid' m = false := by
  rw [Bool.eq_false_iff]
  intro hsame
  simp only [isRow, Bool.and_eq_true, decide_eq_true_eq] at hm hsame
  have huser := hsame.1.symm.trans hm.1
  exact hne ⟨by simpa using huser, hsame.2.symm.trans hm.2⟩

theorem roleIn_syncGroup_self (members : List GroupMember) (userID gid : UUID)
    (role : Option Role) : roleIn (syncGroup userID members gid role) userID gid = role := by
  cases role with
  | none =>
    have hgone : (members.filter fun m => !isRow userID gid m).find? (isRow userID gid) = none := by
      rw [List.find?_eq_none]
      intro m hm
      simpa using (List.mem_filter.1 hm).2
    simp [roleIn, syncGroup, hgone]
  | some r =>
    have hfind : (syncGroup userID members gid (some r)).find? (isRow userID gid) = _ :=
      find?_upsert_self (fun m hm => by simpa [isRow] using hm) (by simp [isRow]) members
    unfold roleIn
    rw [hfind]
    cases members.find? (isRow userID gid) <;> rfl

theorem roleIn_syncGroup_other {userID gid user gid' : UUID}
    (hne : ¬ (user = userID ∧ gid' = gid)) (members : List GroupMember) (role : Option Role) :
    roleIn (syncGroup userID members gid role) user gid' = roleIn members user gid' := by
  have hapart := isRow_apart hne
  unfold roleIn
  congr 1
  cases role with
  | none =>
    refine find?_filter_other (fun m hm => ?_) members
    rw [Bool.eq_false_iff]
    intro hrow
    rw [hapart m hrow] at hm
    cases hm
  | some r =>
    refine find?_upsert_other (fun m hm => ⟨hapart m hm, ?_⟩) ?_ members
    · exact hapart _ (by simpa [isRow] using hm)
    · exact hapart _ (by simp [isRow])

/-- After all the managed groups of the user are synced, those have the role that was matched
for them, and every other membership is as it was. -/
theorem roleIn_foldl_syncGroup (userID : UUID) (role : UUID → Option Role) (gids : List UUID)
    (members : List GroupMember) (user gid : UUID) :
    roleIn (gids.foldl (fun members gid => syncGroup userID members gid (role gid)) members)
        user gid =
      if user = userID ∧ gid ∈ gids then role gid else roleIn members user gid := by
  induction gids generalizing members with
  | nil => simp
  | cons g gids ih =>
    rw [List.foldl_cons, ih]
    by_cases hself : user = userID ∧ gid = g
    · obtain ⟨rfl, rfl⟩ := hself
      by_cases hmem : gid ∈ gids
      · simp [hmem]
      · simp [hmem, roleIn_syncGroup_self]
    rw [roleIn_syncGroup_other hself]
    by_cases huser : user = userID
    · have hne : gid ≠ g := fun h => hself ⟨huser, h⟩
      simp [hne]
    · simp [huser]

/-- **What a re-sync does to the memberships in groups.**  The user gets, in each group the
provider's mappings refer to, the role that was matched for it; every other membership, of
this user and of others, is as it was. -/
theorem groupRole_applyClaimMappings (p : AuthProvider) (userID : UUID)
    (claimGroups : List String) (user gid : UUID) :
    (s.applyClaimMappings p userID claimGroups).groupRole user gid =
      if user = userID ∧ gid ∈ managedGroups (s.listClaimMappings p.id) then
        matchedGroup ((s.listClaimMappings p.id).filter fun m => m.claimValue ∈ claimGroups) gid
      else s.groupRole user gid :=
  roleIn_foldl_syncGroup userID _ _ _ user gid

end SsoStore

end Sluicio.Identity
