import Sluicio.Identity.Sso

/-!
# Sign-in through an identity provider: the callback

`ssoCallback` consumes the login state, takes the ID token that the exchange gave, finds or
creates the user, links the subject, re-syncs the roles and starts a session.  The provider
belongs to one organization, while users, subjects and groups are tables of the whole cell;
the claims of a token are whatever the provider says.
-/

namespace Sluicio.Api

open Identity SsoStore
open Tracecompletion (trimSpace)

/-- A value of a claim.  An item of a list that is not a string is `none`. -/
inductive ClaimValue where
  | text (s : String)
  | list (items : List (Option String))
  | flag (b : Bool)
  | other
  deriving DecidableEq

/-- What is read of a verified ID token. -/
structure IDToken where
  subject : String
  nonce : String
  claims : List (String × ClaimValue) := []
  deriving DecidableEq

def strFromClaims (claims : List (String × ClaimValue)) (key : String) : String :=
  if key = "" then ""
  else
    match claims.lookup key with
    | some (.text s) => s
    | _ => ""

def stringsFromClaims (claims : List (String × ClaimValue)) (key : String) : List String :=
  if key = "" then []
  else
    match claims.lookup key with
    | some (.list items) => items.filterMap id
    | some (.text s) => if s = "" then [] else [s]
    | _ => []

/-- The subject of the login. -/
def IDToken.sub (tok : IDToken) (p : AuthProvider) : String :=
  if tok.subject = "" then strFromClaims tok.claims p.claimSub else tok.subject

/-- The address of the login. -/
def IDToken.email (tok : IDToken) (p : AuthProvider) : String :=
  trimSpace (strFromClaims tok.claims p.claimEmail)

/-- The provider asserts that the address is verified. -/
def IDToken.EmailVerified (tok : IDToken) : Prop :=
  tok.claims.lookup "email_verified" = some (.flag true)

/-! ## The callback -/

inductive SsoStatement where
  | consumeSSOLoginState | getAuthProviderByID | findUserBySubject | getUserByEmail
  | createUser | linkSubject | applyClaimMappings | createSession

/-- A request to the callback: its query, what discovery, exchange and verification of the ID
token gave, the ids drawn for a user and for a session, and the statements that fail. -/
structure Callback where
  error : String := ""
  state : String
  idToken : Except String IDToken
  now : Nat
  userID : UUID
  sessionID : String
  faults : SsoStatement → Bool := fun _ => false

inductive SsoAnswer where
  | notFound
  | failed (message : String)
  | signedIn (session : Session) (redirectTo : String)
  deriving DecidableEq

/-- The user linked to the subject, as `resolveSSOUser` finds it: a lookup that fails finds
none. -/
def bySubject (s : SsoStore) (c : Callback) (p : AuthProvider) (sub : String) : Option UUID :=
  if sub = "" ∨ c.faults .findUserBySubject = true then none
  else s.findUserBySubject p.id sub

/-- The user with the address, as `resolveSSOUser` finds it.  Neither the user's organizations
nor `email_verified` is looked at. -/
def byEmail (s : SsoStore) (c : Callback) (email : String) : Option User :=
  if email = "" ∨ c.faults .getUserByEmail = true then none
  else s.getUserByEmail email

def resolveSSOUser (s : SsoStore) (c : Callback) (p : AuthProvider)
    (sub email name : String) : Except String (UUID × SsoStore) :=
  match bySubject s c p sub with
  | some uid => .ok (uid, s)
  | none =>
    match byEmail s c email with
    | some u => .ok (u.id, s)
    | none =>
      if !p.jitProvisioning then
        .error "no Sluicio account is provisioned for you — ask an admin"
      else if email = "" then
        .error "the identity provider returned no email, so an account can't be created"
      else
        match if c.faults .createUser then none else s.createUser c.userID email name with
        | none => .error "account provisioning failed"
        | some (u, s) => .ok (u.id, s)

def verifiedLogin (s : SsoStore) (c : Callback) (st : SSOLoginState) :
    Except String (AuthProvider × IDToken) :=
  match if c.faults .getAuthProviderByID then none else s.getAuthProviderByID st.providerID with
  | none => .error "unknown or disabled provider"
  | some p =>
    if !p.enabled then .error "unknown or disabled provider"
    else
      match c.idToken with
      | .error msg => .error msg
      | .ok tok => if tok.nonce ≠ st.nonce then .error "nonce mismatch" else .ok (p, tok)

/-- The callback from the token on.  A failure to link the subject or to re-sync the roles is
logged, and the login goes on. -/
def signIn (s : SsoStore) (c : Callback) (st : SSOLoginState) (p : AuthProvider)
    (tok : IDToken) : SsoStore × SsoAnswer :=
  let name := strFromClaims tok.claims p.claimName
  match resolveSSOUser s c p (tok.sub p) (tok.email p) name with
  | .error msg => (s, .failed msg)
  | .ok (userID, s) =>
    let s := if c.faults .linkSubject then s else s.linkSubject p.id (tok.sub p) userID
    let s := if c.faults .applyClaimMappings then s
      else s.applyClaimMappings p userID (stringsFromClaims tok.claims p.claimGroups)
    if c.faults .createSession then (s, .failed "could not start session")
    else (s.createSession c.sessionID userID, .signedIn ⟨c.sessionID, userID⟩ st.redirectTo)

def consumed (entitled : Bool) (s : SsoStore) (c : Callback) :
    Except SsoAnswer (SSOLoginState × SsoStore) :=
  if !entitled then .error .notFound
  else if c.error ≠ "" then .error (.failed ("provider error: " ++ c.error))
  else
    match if c.faults .consumeSSOLoginState then none
        else s.consumeSSOLoginState c.state c.now with
    | none => .error (.failed "login session expired or invalid — please try again")
    | some r => .ok r

def ssoCallback (entitled : Bool) (s : SsoStore) (c : Callback) : SsoStore × SsoAnswer :=
  match consumed entitled s c with
  | .error a => (s, a)
  | .ok (st, s) =>
    match verifiedLogin s c st with
    | .error msg => (s, .failed msg)
    | .ok (p, tok) => signIn s c st p tok

/-! ## The mappings -/

structure ClaimMappingBody where
  claimValue : String
  orgRole : String := ""
  groupID : Option String := none
  groupRole : String := ""

/-- `createClaimMapping` by an admin of `orgID`, for the provider with the id of the path. -/
def createClaimMapping (parseUUID : String → Option UUID) (s : SsoStore) (orgID id : UUID)
    (b : ClaimMappingBody) : Except String SsoStore :=
  match s.getAuthProvider orgID id with
  | none => .error "provider not found"
  | some p =>
    if trimSpace b.claimValue = "" then .error "claim_value is required"
    else
      let orgRole := if b.orgRole = "" then none else some (Role.ofString b.orgRole)
      let m : ClaimMapping :=
        { providerID := p.id, claimValue := trimSpace b.claimValue, orgRole := orgRole,
          groupRole := Role.ofString b.groupRole }
      let save (m : ClaimMapping) : Except String SsoStore :=
        if m.orgRole = none ∧ m.groupID = none then
          .error "set an org_role and/or a group_id"
        else
          match s.createClaimMapping m with
          | none => .error "save failed"
          | some s => .ok s
      match b.groupID with
      | none => save m
      | some "" => save m
      | some text =>
        match parseUUID text with
        | none => .error "invalid group_id"
        | some gid => save { m with groupID := some gid }

/-! ## Staying inside the tenant -/

section Tenant

variable (entitled : Bool) (s : SsoStore) (c : Callback)

/-- The login that the callback goes on with: the provider and its token. -/
def acceptedLogin : Option (SSOLoginState × AuthProvider × IDToken) :=
  match consumed entitled s c with
  | .error _ => none
  | .ok (st, s) =>
    match verifiedLogin s c st with
    | .error _ => none
    | .ok (p, tok) => some (st, p, tok)

def Linked (p : AuthProvider) (sub : String) (userID : UUID) : Prop :=
  ⟨p.id, sub, userID⟩ ∈ s.subjects

/-- The user is not in the first table and is in the second. -/
def CreatedBetween (s s' : SsoStore) (userID : UUID) : Prop :=
  (∀ u ∈ s.users, u.id ≠ userID) ∧ ∃ u ∈ s'.users, u.id = userID

/-- The callback stays inside the tenant of the provider: a session is for a user who was
linked to the subject, or is created by the login, or is a member whose address the provider
asserts as verified; and memberships change in the organization's groups only. -/
structure StaysInTenant : Prop where
  session : ∀ sess redirectTo, (ssoCallback entitled s c).2 = .signedIn sess redirectTo →
    ∃ st p tok, acceptedLogin entitled s c = some (st, p, tok) ∧
      (Linked s p (tok.sub p) sess.userID ∨
        CreatedBetween s (ssoCallback entitled s c).1 sess.userID ∨
        (s.IsMember sess.userID p.orgID ∧ tok.EmailVerified))
  groups : ∀ user gid,
    (ssoCallback entitled s c).1.groupRole user gid ≠ s.groupRole user gid →
    ∃ st p tok, acceptedLogin entitled s c = some (st, p, tok) ∧ s.groupOrg gid = some p.orgID

/-- A user found by the address alone is a member whose address is verified (or has the
subject already, which a failed lookup missed); and the user's role in every group of another
organization that the provider's mappings refer to is what the token's groups map to. -/
structure Tenanted : Prop where
  email : ∀ st p tok, acceptedLogin entitled s c = some (st, p, tok) →
    c.faults .createSession = false → bySubject s c p (tok.sub p) = none →
    ∀ u, byEmail s c (tok.email p) = some u →
      Linked s p (tok.sub p) u.id ∨ (s.IsMember u.id p.orgID ∧ tok.EmailVerified)
  mappings : ∀ st p tok, acceptedLogin entitled s c = some (st, p, tok) →
    c.faults .applyClaimMappings = false →
    ∀ userID s', resolveSSOUser s c p (tok.sub p) (tok.email p)
        (strFromClaims tok.claims p.claimName) = .ok (userID, s') →
    ∀ gid ∈ managedGroups (s.listClaimMappings p.id), s.groupOrg gid ≠ some p.orgID →
      s.groupRole userID gid = matchedGroup
        ((s.listClaimMappings p.id).filter fun m =>
          m.claimValue ∈ stringsFromClaims tok.claims p.claimGroups) gid

end Tenant

section Lemmas

variable {entitled : Bool} {s s' : SsoStore} {c : Callback} {st : SSOLoginState}
  {p : AuthProvider} {tok : IDToken} {sub email name : String} {userID : UUID}

theorem consumed_eq_ok (h : consumed entitled s c = .ok (st, s')) :
    ∃ states, s' = { s with loginStates := states } := by
  unfold consumed at h
  split_ifs at h with hent herr
  split at h
  · cases h
  · next r hpop =>
    simp only [Except.ok.injEq] at h
    subst h
    unfold consumeSSOLoginState at hpop
    split at hpop
    · cases hpop
    · next st' hfind =>
      simp only [Option.some.injEq, Prod.mk.injEq] at hpop
      exact ⟨_, hpop.2.symm⟩

variable {sess : Session} {redirectTo : String}

theorem consumed_ne_signedIn : consumed entitled s c ≠ .error (.signedIn sess redirectTo) := by
  unfold consumed
  split_ifs
  · simp
  · simp
  · simp
  · split <;> simp

theorem resolveSSOUser_loginStates (states : List SSOLoginState) :
    resolveSSOUser { s with loginStates := states } c p sub email name =
      (resolveSSOUser s c p sub email name).map
        fun r => (r.1, { r.2 with loginStates := states }) := by
  have hsubject : bySubject { s with loginStates := states } c p sub = bySubject s c p sub := rfl
  have hemail : byEmail { s with loginStates := states } c email = byEmail s c email := rfl
  have hcreate : createUser { s with loginStates := states } c.userID email name =
      (s.createUser c.userID email name).map
        fun r => (r.1, { r.2 with loginStates := states }) := by
    simp only [createUser]
    split_ifs <;> rfl
  simp only [resolveSSOUser, hsubject, hemail, hcreate]
  cases bySubject s c p sub with
  | some uid => rfl
  | none =>
    cases byEmail s c email with
    | some u => rfl
    | none =>
      simp only
      split_ifs
      · rfl
      · rfl
      · rfl
      · cases s.createUser c.userID email name <;> rfl

theorem resolveSSOUser_eq_ok (h : resolveSSOUser s c p sub email name = .ok (userID, s')) :
    (bySubject s c p sub = some userID ∧ s' = s) ∨
    (bySubject s c p sub = none ∧ (∃ u, byEmail s c email = some u ∧ u.id = userID) ∧ s' = s) ∨
    (bySubject s c p sub = none ∧ byEmail s c email = none ∧
      ∃ u : User, u.id = userID ∧ (∀ v ∈ s.users, v.id ≠ userID) ∧
        s' = { s with users := s.users ++ [u] }) := by
  unfold resolveSSOUser at h
  cases hsub : bySubject s c p sub with
  | some uid =>
    simp only [hsub, Except.ok.injEq, Prod.mk.injEq] at h
    exact Or.inl ⟨by rw [h.1], h.2.symm⟩
  | none =>
    simp only [hsub] at h
    cases hemail : byEmail s c email with
    | some u =>
      simp only [hemail, Except.ok.injEq, Prod.mk.injEq] at h
      exact Or.inr (Or.inl ⟨rfl, ⟨u, rfl, h.1⟩, h.2.symm⟩)
    | none =>
      simp only [hemail] at h
      split_ifs at h with hjit hempty hfault
      cases hcreate : s.createUser c.userID email name with
      | none => simp [hcreate] at h
      | some created =>
        obtain ⟨u, s₁⟩ := created
        simp only [hcreate, Except.ok.injEq, Prod.mk.injEq] at h
        obtain ⟨rfl, rfl⟩ := h
        simp only [createUser] at hcreate
        split_ifs at hcreate with hblank htaken
        simp only [Option.some.injEq, Prod.mk.injEq] at hcreate
        obtain ⟨rfl, rfl⟩ := hcreate
        refine Or.inr (Or.inr ⟨rfl, rfl, _, rfl, ?_, rfl⟩)
        intro v hv heq
        refine htaken (List.any_eq_true.2 ⟨v, hv, ?_⟩)
        simp [heq]

theorem linked_of_bySubject (h : bySubject s c p sub = some userID) : Linked s p sub userID := by
  unfold bySubject findUserBySubject at h
  split_ifs at h
  obtain ⟨r, hr, rfl⟩ := Option.map_eq_some_iff.1 h
  have hmem := List.mem_of_find?_eq_some hr
  have hkey := List.find?_some hr
  simp only [Bool.and_eq_true, decide_eq_true_eq] at hkey
  obtain ⟨rid, rsub, ruser⟩ := r
  obtain ⟨rfl, rfl⟩ := hkey
  exact hmem

theorem mem_users_of_byEmail {u : User} (h : byEmail s c email = some u) : u ∈ s.users := by
  unfold byEmail getUserByEmail at h
  split_ifs at h
  exact List.mem_of_find?_eq_some h

theorem linkSubject_eq (s : SsoStore) (providerID : UUID) (sub : String) (userID : UUID) :
    ∃ subjects, s.linkSubject providerID sub userID = { s with subjects := subjects } := by
  unfold linkSubject
  split
  · exact ⟨s.subjects, rfl⟩
  · exact ⟨_, rfl⟩

theorem signIn_session_iff :
    (signIn s c st p tok).2 = .signedIn sess redirectTo ↔
      c.faults .createSession = false ∧ st.redirectTo = redirectTo ∧ ∃ s',
        resolveSSOUser s c p (tok.sub p) (tok.email p)
          (strFromClaims tok.claims p.claimName) = .ok (sess.userID, s') ∧
        sess.id = c.sessionID := by
  simp only [signIn]
  cases hres : resolveSSOUser s c p (tok.sub p) (tok.email p)
      (strFromClaims tok.claims p.claimName) with
  | error msg => simp
  | ok r =>
    obtain ⟨uid, s₂⟩ := r
    obtain ⟨id, user⟩ := sess
    cases hfault : c.faults .createSession
    · simp only [Bool.false_eq_true, if_false, SsoAnswer.signedIn.injEq, Session.mk.injEq,
        Except.ok.injEq, Prod.mk.injEq, true_and]
      constructor
      · rintro ⟨⟨rfl, rfl⟩, rfl⟩
        exact ⟨rfl, s₂, ⟨rfl, rfl⟩, rfl⟩
      · rintro ⟨rfl, s', ⟨rfl, rfl⟩, rfl⟩
        exact ⟨⟨rfl, rfl⟩, rfl⟩
    · simp

variable {s₂ : SsoStore}

theorem signIn_users (hres : resolveSSOUser s c p (tok.sub p) (tok.email p)
      (strFromClaims tok.claims p.claimName) = .ok (userID, s₂)) :
    (signIn s c st p tok).1.users = s₂.users := by
  obtain ⟨subjects, hlink⟩ := linkSubject_eq s₂ p.id (tok.sub p) userID
  simp only [signIn, hres, hlink]
  split_ifs <;> rfl

theorem signIn_tables (hres : resolveSSOUser s c p (tok.sub p) (tok.email p)
      (strFromClaims tok.claims p.claimName) = .ok (userID, s₂)) :
    ∃ users subjects sessions, (signIn s c st p tok).1 =
      { (if c.faults .applyClaimMappings then s
          else s.applyClaimMappings p userID (stringsFromClaims tok.claims p.claimGroups)) with
        users := users, subjects := subjects, sessions := sessions } := by
  have hsame : ∃ users subjects, (if c.faults .linkSubject then s₂
      else s₂.linkSubject p.id (tok.sub p) userID) =
        { s with users := users, subjects := subjects } := by
    obtain ⟨subjects, hlink⟩ := linkSubject_eq s₂ p.id (tok.sub p) userID
    have hrows : ∃ users, s₂ = { s with users := users } := by
      rcases resolveSSOUser_eq_ok hres with ⟨_, rfl⟩ | ⟨_, _, rfl⟩ | ⟨_, _, u, _, _, rfl⟩
      · exact ⟨s₂.users, rfl⟩
      · exact ⟨s₂.users, rfl⟩
      · exact ⟨_, rfl⟩
    obtain ⟨users, rfl⟩ := hrows
    split
    · exact ⟨users, s.subjects, rfl⟩
    · exact ⟨users, subjects, hlink⟩
  obtain ⟨users, subjects, hlinked⟩ := hsame
  simp only [signIn, hres, hlinked]
  cases c.faults .applyClaimMappings with
  | true =>
    simp only [if_true]
    split
    · exact ⟨users, subjects, s.sessions, rfl⟩
    · exact ⟨users, subjects, _, rfl⟩
  | false =>
    simp only [Bool.false_eq_true, if_false]
    split
    · exact ⟨users, subjects, s.sessions, rfl⟩
    · exact ⟨users, subjects, _, rfl⟩

/-- What the login leaves of the memberships in groups: those of its own user, in the groups
the mappings refer to, are as the token's groups map, and the others as they were. -/
theorem signIn_groupRole (hres : resolveSSOUser s c p (tok.sub p) (tok.email p)
      (strFromClaims tok.claims p.claimName) = .ok (userID, s₂)) (user gid : UUID) :
    (signIn s c st p tok).1.groupRole user gid =
      if c.faults .applyClaimMappings = false ∧ user = userID ∧
          gid ∈ managedGroups (s.listClaimMappings p.id) then
        matchedGroup ((s.listClaimMappings p.id).filter fun m =>
          m.claimValue ∈ stringsFromClaims tok.claims p.claimGroups) gid
      else s.groupRole user gid := by
  obtain ⟨users, subjects, sessions, htables⟩ := @signIn_tables s c st p tok userID s₂ hres
  rw [htables]
  cases c.faults .applyClaimMappings with
  | true => rfl
  | false =>
    have happlied := groupRole_applyClaimMappings s p userID
      (stringsFromClaims tok.claims p.claimGroups) user gid
    simp only [Bool.false_eq_true, if_false, true_and]
    exact happlied

theorem ssoCallback_cases (entitled : Bool) (s : SsoStore) (c : Callback) :
    (∃ st p tok states, acceptedLogin entitled s c = some (st, p, tok) ∧
      ssoCallback entitled s c = signIn { s with loginStates := states } c st p tok) ∨
    (acceptedLogin entitled s c = none ∧
      (∀ sess redirectTo, (ssoCallback entitled s c).2 ≠ .signedIn sess redirectTo) ∧
      ∃ states, (ssoCallback entitled s c).1 = { s with loginStates := states }) := by
  cases hconsumed : consumed entitled s c with
  | error a =>
    right
    refine ⟨by simp [acceptedLogin, hconsumed], ?_, s.loginStates, by simp [ssoCallback, hconsumed]⟩
    intro sess redirectTo
    simp only [ssoCallback, hconsumed]
    rintro rfl
    exact consumed_ne_signedIn hconsumed
  | ok r =>
    obtain ⟨st, s₁⟩ := r
    obtain ⟨states, rfl⟩ := consumed_eq_ok hconsumed
    cases hverified : verifiedLogin { s with loginStates := states } c st with
    | error msg =>
      right
      exact ⟨by simp [acceptedLogin, hconsumed, hverified],
        by simp [ssoCallback, hconsumed, hverified],
        states, by simp [ssoCallback, hconsumed, hverified]⟩
    | ok login =>
      obtain ⟨p, tok⟩ := login
      left
      exact ⟨st, p, tok, states, by simp [acceptedLogin, hconsumed, hverified],
        by simp [ssoCallback, hconsumed, hverified]⟩

theorem resolveSSOUser_of_loginStates {states : List SSOLoginState}
    (h : resolveSSOUser { s with loginStates := states } c p sub email name = .ok (userID, s₂)) :
    ∃ s', resolveSSOUser s c p sub email name = .ok (userID, s') := by
  rw [resolveSSOUser_loginStates] at h
  cases hplain : resolveSSOUser s c p sub email name with
  | error msg => simp [hplain, Except.map] at h
  | ok r =>
    obtain ⟨uid, s'⟩ := r
    simp only [hplain, Except.map, Except.ok.injEq, Prod.mk.injEq] at h
    exact ⟨s', by rw [h.1]⟩

end Lemmas

/-! ## When a login stays inside -/

section Accepted

variable {entitled : Bool} {s : SsoStore} {c : Callback} {st : SSOLoginState}
  {p : AuthProvider} {tok : IDToken} {states : List SSOLoginState}

theorem acceptedLogin_unique (h : acceptedLogin entitled s c = some (st, p, tok))
    {st' : SSOLoginState} {p' : AuthProvider} {tok' : IDToken}
    (h' : acceptedLogin entitled s c = some (st', p', tok')) : st = st' ∧ p = p' ∧ tok = tok' := by
  simpa [h] using h'

/-- A login that stays inside meets the condition: the user with the address is signed in, and
every managed group is written. -/
theorem StaysInTenant.tenanted (hlogin : acceptedLogin entitled s c = some (st, p, tok))
    (hcallback : ssoCallback entitled s c = signIn { s with loginStates := states } c st p tok)
    (h : StaysInTenant entitled s c) : Tenanted entitled s c := by
  constructor
  · intro st' p' tok' hlogin' hstarts hsub u hu
    obtain ⟨rfl, rfl, rfl⟩ := acceptedLogin_unique hlogin hlogin'
    have hres : resolveSSOUser s c p (tok.sub p) (tok.email p)
        (strFromClaims tok.claims p.claimName) = .ok (u.id, s) := by
      simp [resolveSSOUser, hsub, hu]
    have hsession : (ssoCallback entitled s c).2 = .signedIn ⟨c.sessionID, u.id⟩ st.redirectTo := by
      rw [hcallback, signIn_session_iff]
      refine ⟨hstarts, rfl, { s with loginStates := states }, ?_, rfl⟩
      rw [resolveSSOUser_loginStates, hres]
      rfl
    obtain ⟨st', p', tok', hlogin'', hwho⟩ := h.session _ _ hsession
    obtain ⟨rfl, rfl, rfl⟩ := acceptedLogin_unique hlogin hlogin''
    rcases hwho with hlinked | ⟨hnew, _⟩ | hmember
    · exact Or.inl hlinked
    · exact absurd rfl (hnew u (mem_users_of_byEmail hu))
    · exact Or.inr hmember
  · intro st' p' tok' hlogin' hsynced userID s' hres gid hgid hforeign
    obtain ⟨rfl, rfl, rfl⟩ := acceptedLogin_unique hlogin hlogin'
    by_contra hchanged
    have hres' : resolveSSOUser { s with loginStates := states } c p (tok.sub p) (tok.email p)
        (strFromClaims tok.claims p.claimName) =
          .ok (userID, { s' with loginStates := states }) := by
      rw [resolveSSOUser_loginStates, hres]
      rfl
    have hrole := @signIn_groupRole _ c st p tok userID _ hres' userID gid
    rw [if_pos ⟨hsynced, rfl, hgid⟩] at hrole
    have hwrites : (ssoCallback entitled s c).1.groupRole userID gid ≠ s.groupRole userID gid := by
      rw [hcallback, hrole]
      exact fun heq => hchanged heq.symm
    obtain ⟨st', p', tok', hlogin'', horg⟩ := h.groups _ _ hwrites
    obtain ⟨rfl, rfl, rfl⟩ := acceptedLogin_unique hlogin hlogin''
    exact hforeign horg

theorem Tenanted.staysInTenant (hlogin : acceptedLogin entitled s c = some (st, p, tok))
    (hcallback : ssoCallback entitled s c = signIn { s with loginStates := states } c st p tok)
    (h : Tenanted entitled s c) : StaysInTenant entitled s c := by
  constructor
  · intro sess redirectTo hsession
    refine ⟨st, p, tok, hlogin, ?_⟩
    rw [hcallback] at hsession ⊢
    obtain ⟨hstarts, _, s', hres, _⟩ := signIn_session_iff.1 hsession
    rcases resolveSSOUser_eq_ok hres with
      ⟨hsub, _⟩ | ⟨hsub, ⟨u, hu, huser⟩, _⟩ | ⟨_, _, u, huser, hnew, hs'⟩
    · exact Or.inl (linked_of_bySubject hsub)
    · rw [← huser]
      rcases h.email st p tok hlogin hstarts hsub u hu with hlinked | hmember
      · exact Or.inl hlinked
      · exact Or.inr (Or.inr hmember)
    · refine Or.inr (Or.inl ⟨hnew, u, ?_, huser⟩)
      rw [signIn_users hres, hs']
      simp
  · intro user gid hchanged
    refine ⟨st, p, tok, hlogin, ?_⟩
    by_contra hforeign
    apply hchanged
    rw [hcallback]
    cases hres : resolveSSOUser { s with loginStates := states } c p (tok.sub p)
        (tok.email p) (strFromClaims tok.claims p.claimName) with
    | error msg =>
      simp only [signIn, hres]
      rfl
    | ok r =>
      obtain ⟨userID, s₂⟩ := r
      rw [signIn_groupRole hres]
      split
      · next hsync =>
        obtain ⟨hsynced, rfl, hgid⟩ := hsync
        obtain ⟨s', hs'⟩ := resolveSSOUser_of_loginStates hres
        exact (h.mappings st p tok hlogin hsynced user s' hs' gid hgid hforeign).symm
      · rfl

end Accepted

/-- **When a sign-in stays inside its tenant.**  For every state of the tables, every callback
and whatever the provider's token claims. -/
theorem staysInTenant_iff (entitled : Bool) (s : SsoStore) (c : Callback) :
    StaysInTenant entitled s c ↔ Tenanted entitled s c := by
  rcases ssoCallback_cases entitled s c with
    ⟨st, p, tok, states, hlogin, hcallback⟩ | ⟨hnone, hanswer, states, hstate⟩
  · exact ⟨fun h => h.tenanted hlogin hcallback, fun h => h.staysInTenant hlogin hcallback⟩
  constructor
  · intro _
    refine ⟨fun st p tok h => ?_, fun st p tok h => ?_⟩
    · simp [hnone] at h
    · simp [hnone] at h
  · intro _
    refine ⟨fun sess redirectTo h => absurd h (hanswer sess redirectTo), fun user gid h => ?_⟩
    rw [hstate] at h
    exact absurd rfl h

/-! Two organizations.  The second one's provider asserts an address of the first one's admin,
and its admin has mapped a claim to a group of the first. -/

private def twoOrgs : SsoStore where
  lower := id
  providers := [{ id := 20, orgID := 2 }]
  users := [⟨7, "ceo@acme.example", "CEO"⟩]
  orgMembers := [⟨7, 1, .admin⟩]
  groups := [⟨11, 1⟩]
  loginStates := [⟨"st", 20, "n", "/", 600⟩]

private def forgedLogin : Callback where
  state := "st"
  idToken := .ok
    { subject := "mallory", nonce := "n",
      claims := [("email", .text "ceo@acme.example"), ("groups", .list [some "all"])] }
  now := 60
  userID := 8
  sessionID := "s1"

private def onlyEleven (text : String) : Option UUID := if text = "eleven" then some 11 else none

private def mapped : SsoStore :=
  { twoOrgs with mappings := [⟨20, "all", none, some 11, .admin⟩] }

/-- The mapping to the other organization's group is accepted, and the login signs in as the
other organization's admin and writes that group. -/
theorem forgedLogin_leaves_tenant :
    createClaimMapping onlyEleven twoOrgs 2 20
      { claimValue := "all", groupID := some "eleven", groupRole := "admin" } = .ok mapped ∧
    (ssoCallback true mapped forgedLogin).2 = .signedIn ⟨"s1", 7⟩ "/" ∧
    (ssoCallback true mapped forgedLogin).1.groupRole 7 11 = some .admin ∧
    ¬ StaysInTenant true mapped forgedLogin := by
  refine ⟨rfl, by decide +kernel, by decide +kernel, fun h => ?_⟩
  obtain ⟨st, p, tok, hlogin, hwho⟩ := h.session ⟨"s1", 7⟩ "/" (by decide +kernel)
  have hprovider : p.orgID = 2 := by
    have haccepted : (acceptedLogin true mapped forgedLogin).map (fun r => r.2.1.orgID) =
        some 2 := by
      decide +kernel
    simpa [hlogin] using haccepted
  rcases hwho with hlinked | ⟨hnew, _⟩ | ⟨hmember, _⟩
  · simp [Linked, mapped, twoOrgs] at hlinked
  · exact hnew ⟨7, "ceo@acme.example", "CEO"⟩ (by simp [mapped, twoOrgs]) rfl
  · rw [hprovider] at hmember
    revert hmember
    decide +kernel

end Sluicio.Api
