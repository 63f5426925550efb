import Sluicio.Api.SpanScope
import Sluicio.Identity.Sso

/-!
# Who is calling

A session or a token resolves to a principal with the role of one membership; a token may cap
that role.  The gates `RequireRole`, `RequireWriteAnywhere` and `RequireOperator` then decide
on the principal.
-/

namespace Sluicio.Api

open Identity

/-- `identity.Principal`, with what the gates read of it besides.  The organization is `none`
for a user without memberships. -/
structure AuthPrincipal extends Principal where
  orgID : Option UUID := none
  isOperator : Bool := false
  isDemo : Bool := false
  deriving DecidableEq

/-- The columns of `users` that become part of the principal. -/
structure UserRow where
  id : UUID
  isOperator : Bool := false
  isDemo : Bool := false

/-- A row of `org_members` with its organization. -/
structure Membership where
  userID : UUID
  orgID : UUID
  slug : String
  role : Role
  joinedAt : Nat

/-- A row of `service_accounts`. -/
structure ServiceAccountRow where
  id : UUID
  orgID : UUID
  role : Role
  scope : ServiceAccountScope := .scoped

/-- A row of `api_tokens`; `scopeRole` is empty for a token without a cap. -/
structure ApiToken where
  owner : MemberRef
  name : String
  scopeRole : String
  expiresAt : Option Nat := none
  deriving DecidableEq

/-- The tables that the middleware reads, `memberships` in the order of the organizations'
names; `managed` is the mode of the instance, and `uuidString` the text of an id. -/
structure AuthStore where
  users : List UserRow := []
  memberships : List Membership := []
  serviceAccounts : List ServiceAccountRow := []
  groups : List Group := []
  groupMembers : List GroupMember := []
  managed : Bool := false
  uuidString : UUID → String := toString

namespace AuthStore

variable (a : AuthStore)

def listMemberships (userID : UUID) : List Membership :=
  a.memberships.filter fun m => m.userID = userID

/-- `DefaultMembership`: the one joined first, and the first of those. -/
def defaultMembership (ms : List Membership) : Option Membership :=
  ms.foldl (fun cur m =>
    match cur with
    | none => some m
    | some d => if m.joinedAt < d.joinedAt then some m else some d) none

/-- The organization and role that a request of the user is made in, `none` for a request that
asks for an organization the user is not in. -/
def activeMembership (userID : UUID) (active : String) : Option (Option Membership) :=
  match a.listMemberships userID with
  | [] => some none
  | m :: ms =>
    if active = "" then some (defaultMembership (m :: ms))
    else
      match (m :: ms).find? fun m => m.slug = active || a.uuidString m.orgID = active with
      | some m => some (some m)
      | none => none

/-- The principal of a user in one membership, with a role that `cap` puts a ceiling on. -/
def userPrincipal (user : UserRow) (m : Option Membership) (cap : Role) : AuthPrincipal :=
  { kind := .user
    userID := some user.id
    orgID := m.map Membership.orgID
    role := match m with
      | some m => m.role.cap cap
      | none => .unknown
    baseRole := m.map Membership.role
    isOperator := user.isOperator
    isDemo := user.isDemo }

/-- `Resolve` for a session of the user. -/
def principalFromSession (userID : UUID) (active : String) : Option AuthPrincipal :=
  match a.users.find? fun u => u.id = userID with
  | none => none
  | some user =>
    match a.activeMembership userID active with
    | none => none
    | some m => some (userPrincipal user m .unknown)

def principalFromToken (tok : ApiToken) (active : String) : Option AuthPrincipal :=
  match tok.owner with
  | .user userID =>
    match a.users.find? fun u => u.id = userID with
    | none => none
    | some user =>
      match a.activeMembership userID active with
      | none => none
      | some m => some (userPrincipal user m (Role.ofString tok.scopeRole))
  | .serviceAccount id =>
    match a.serviceAccounts.find? fun sa => sa.id = id with
    | none => none
    | some sa => some
      { kind := .serviceAccount
        serviceAccountID := some sa.id
        saScope := sa.scope
        orgID := some sa.orgID
        role := sa.role.cap (Role.ofString tok.scopeRole)
        baseRole := some sa.role }

/-- The user's role in some group of the organization passes `need`. -/
def groupRoleAny (userID orgID : UUID) (need : Role → Bool) : Bool :=
  a.groupMembers.any fun gm => gm.member = .user userID && need gm.role &&
    a.groups.any fun g => g.id = gm.groupID && g.orgID = orgID

def canUserWriteAnywhere (userID orgID : UUID) : Bool :=
  (a.memberships.any fun m => m.userID = userID && m.orgID = orgID && m.role.canWrite) ||
    a.groupRoleAny userID orgID Role.canWrite

def requireRole (need : Role → Bool) (p : AuthPrincipal) : Bool := need p.role

def requireWriteAnywhere (p : AuthPrincipal) : Bool :=
  if p.role.canWrite then true
  else if p.kind = .serviceAccount then false
  else
    match p.userID with
    | none => false
    | some userID =>
      if p.scopeCapped then false
      else
        match p.orgID with
        | none => false
        | some orgID => a.canUserWriteAnywhere userID orgID

def requireOperator (p : AuthPrincipal) : Bool :=
  !a.managed && p.isOperator && !p.scopeCapped

/-! ## What a token resolves to -/

theorem userPrincipal_rank_le (user : UserRow) (m : Option Membership) {cap : Role}
    (hcap : cap.isValid) : (userPrincipal user m cap).role.rank ≤ cap.rank := by
  cases m with
  | none => simp [userPrincipal, Role.rank]
  | some m => exact Role.rank_cap_le_cap hcap

variable {tok : ApiToken} {m : Membership} {p : AuthPrincipal} {userID : UUID}

theorem foldl_joinedAt_mem {ms : List Membership} {cur : Option Membership}
    (h : ms.foldl (fun cur m =>
      match cur with
      | none => some m
      | some d => if m.joinedAt < d.joinedAt then some m else some d) cur = some m) :
    m ∈ ms ∨ cur = some m := by
  induction ms generalizing cur with
  | nil => exact Or.inr h
  | cons m' ms ih =>
    rcases ih h with hmem | hcur
    · exact Or.inl (List.mem_cons_of_mem _ hmem)
    cases cur with
    | none => exact Or.inl (by simp_all)
    | some d =>
      by_cases hlt : m'.joinedAt < d.joinedAt
      · exact Or.inl (by simp_all)
      · exact Or.inr (by simpa [hlt] using hcur)

variable {active : String}

theorem activeMembership_mem (h : a.activeMembership userID active = some (some m)) :
    m ∈ a.memberships ∧ m.userID = userID := by
  have hlist : ∀ m, m ∈ a.listMemberships userID → m ∈ a.memberships ∧ m.userID = userID :=
    fun m hm => ⟨(List.mem_filter.1 hm).1, by simpa using (List.mem_filter.1 hm).2⟩
  unfold activeMembership at h
  split at h
  · cases h
  · next m' ms hms =>
    rw [hms] at hlist
    split at h
    · rcases foldl_joinedAt_mem (Option.some.inj h) with hmem | hnone
      · exact hlist m hmem
      · cases hnone
    split at h
    · next found hfind =>
      obtain rfl := Option.some.inj (Option.some.inj h)
      exact hlist _ (List.mem_of_find?_eq_some hfind)
    · cases h

theorem principalFromToken_user (howner : tok.owner = .user userID)
    (h : a.principalFromToken tok active = some p) : p.kind = .user ∧ p.userID = some userID := by
  simp only [principalFromToken, howner] at h
  split at h
  · cases h
  · next user huser =>
    have hid : user.id = userID := by simpa using List.find?_some huser
    split at h
    · cases h
    · obtain rfl := Option.some.inj h
      simp [userPrincipal, hid]

theorem principalFromToken_rank_le (hcap : (Role.ofString tok.scopeRole).isValid)
    (h : a.principalFromToken tok active = some p) :
    p.role.rank ≤ (Role.ofString tok.scopeRole).rank := by
  unfold principalFromToken at h
  split at h
  · split at h
    · cases h
    · split at h
      · cases h
      · obtain rfl := Option.some.inj h
        exact userPrincipal_rank_le _ _ hcap
  split at h
  · cases h
  · obtain rfl := Option.some.inj h
    exact Role.rank_cap_le_cap hcap

end AuthStore

end Sluicio.Api
