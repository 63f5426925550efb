import Sluicio.Api.Manage
import Sluicio.Api.Middleware
import Sluicio.Identity.CapRoles
import Sluicio.Lib.Run

/-!
# The cap of a token

A token may carry a role that caps its owner's.  The gates recognise a capped principal by its
two roles being different, and the requests that create tokens ask who the caller is rather
than what the caller may do.  What a token is let do, and what tokens it creates, is compared
with an owner whose roles are lowered to the cap.
-/

namespace Sluicio.Api

open Identity Lib Role AuthStore Principal
open Tracecompletion (trimSpace)

/-- The gates of the write requests; `manage` is asked about the services that a resource
spans. -/
inductive Gate where
  | canWrite
  | canAdmin
  | writeAnywhere
  | operator
  | manage (names : List String)

/-- The tables of the moment a request is made in. -/
structure Env where
  auth : AuthStore
  handlers : Handlers

def Env.admits (e : Env) (p : AuthPrincipal) : Gate → Bool
  | .canWrite => requireRole canWrite p
  | .canAdmin => requireRole canAdmin p
  | .writeAnywhere => e.auth.requireWriteAnywhere p
  | .operator => e.auth.requireOperator p
  | .manage names => e.handlers.canManageAllServices p.toPrincipal names

/-- The tables, with the roles of one member lowered to at most `r`. -/
def AuthStore.capRoles (a : AuthStore) (ref : MemberRef) (r : Role) : AuthStore :=
  { a with
    memberships := a.memberships.map fun m =>
      if .user m.userID = ref then { m with role := m.role.cap r } else m
    groupMembers := a.groupMembers.map (GroupMember.capRole ref r) }

def Env.capRoles (e : Env) (ref : MemberRef) (r : Role) : Env where
  auth := e.auth.capRoles ref r
  handlers := { e.handlers with identity := e.handlers.identity.capRoles ref r }

/-- The principal without a cap, its role lowered to at most `r`. -/
def AuthPrincipal.lowered (p : AuthPrincipal) (r : Role) : AuthPrincipal :=
  { p with
    role := p.readRole.cap r
    baseRole := p.baseRole.map fun base => base.cap r }

def ApiToken.cap (tok : ApiToken) : Role :=
  if (ofString tok.scopeRole).isValid then ofString tok.scopeRole else .admin

/-! ## Creating tokens -/

def createToken (p : AuthPrincipal) (name scopeRole : String) : Option ApiToken :=
  if p.isDemo then none
  else
    match p.userID with
    | none => none
    | some userID =>
      let name := trimSpace name
      let scope := trimSpace scopeRole
      if name = "" then none
      else if scope ≠ "" ∧ !(ofString scope).isValid then none
      else some { owner := .user userID, name := name, scopeRole := scope }

/-- `createServiceAccountToken`, behind the gate for admins. -/
def createServiceAccountToken (a : AuthStore) (p : AuthPrincipal) (id : UUID)
    (name scopeRole : String) : Option ApiToken :=
  if !requireRole canAdmin p then none
  else
    match a.serviceAccounts.find? fun sa => sa.id = id with
    | none => none
    | some sa =>
      if some sa.orgID ≠ p.orgID then none
      else
        let name := trimSpace name
        let scope := trimSpace scopeRole
        if name = "" then none
        else if scope ≠ "" ∧ !(ofString scope).isValid then none
        else some { owner := .serviceAccount id, name := name, scopeRole := scope }

/-- Consent with a token, and the redemption of the code. -/
def createOauthToken (p : AuthPrincipal) : Option ApiToken :=
  p.userID.map fun userID =>
    { owner := .user userID, name := "MCP (OAuth connector)", scopeRole := "viewer" }

/-- A request made with a token, in the tables of that moment. -/
inductive TokenRequest where
  | write (g : Gate)
  | createToken (name scopeRole : String)
  | createServiceAccountToken (id : UUID) (name scopeRole : String)
  | oauth

structure TokenAction where
  env : Env
  token : ApiToken
  active : String := ""
  request : TokenRequest

def TokenAction.principal (a : TokenAction) (held : List ApiToken) : Option AuthPrincipal :=
  if a.token ∈ held then a.env.auth.principalFromToken a.token a.active else none

def TokenRequest.created (e : Env) (p : AuthPrincipal) : TokenRequest → Option ApiToken
  | .write _ => none
  | .createToken name scopeRole => Api.createToken p name scopeRole
  | .createServiceAccountToken id name scopeRole =>
    Api.createServiceAccountToken e.auth p id name scopeRole
  | .oauth => createOauthToken p

def holdTokens (held : List ApiToken) (a : TokenAction) : List ApiToken :=
  match (a.principal held).bind fun p => a.request.created a.env p with
  | none => held
  | some tok => tok :: held

/-- The request is within the cap: a gate admits it only if it admits the lowered owner, and
every token held then has a cap of at most `r`. -/
structure WithinCap (r : Role) (held : List ApiToken) (a : TokenAction) : Prop where
  gate : ∀ g, a.request = .write g → ∀ p, a.principal held = some p →
    a.env.admits p g →
    (a.env.capRoles a.token.owner r).admits (p.lowered r) g
  tokens : ∀ tok ∈ holdTokens held a, tok.cap.rank ≤ r.rank

/-- What the gate must not be asked.  Under a cap that may not write, of an owner whose own
role is no higher (so that the cap does not show), the owner's groups must give no right to
write, or none to manage all of the services; and under a cap below admin, of a service account
that is an admin, the services must be among those the account sees. -/
def CapShows (e : Env) (p : AuthPrincipal) (r : Role) : Gate → Prop
  | .writeAnywhere => r.canWrite = false → p.kind = .user → p.scopeCapped = false →
      ∀ userID orgID, p.userID = some userID → p.orgID = some orgID →
        e.auth.canUserWriteAnywhere userID orgID = false
  | .manage names =>
    (r.canWrite = false → p.isServiceAccount = false → p.scopeCapped = false →
      e.handlers.rbacAdvanced → names ≠ [] → ∀ userID sets, p.userID = some userID →
        e.handlers.identity.resolveAccessSetsMember (.user userID) = .ok sets →
        ∃ n ∈ names, ¬ sets.Manages n) ∧
    (∀ id, p.kind = .serviceAccount → p.serviceAccountID = some id →
      p.readRole.canAdmin → r.canAdmin = false → names ≠ [] →
      (p.saScope = .orgWide ∧ e.handlers.forbidOrgWideServiceAccounts = false) ∨
      ∃ set wildcard, e.handlers.identity.resolveVisibleServiceSetMember (.serviceAccount id) =
        .ok (set, wildcard) ∧ (wildcard ∨ ∀ n ∈ names, n ∈ set))
  | _ => True

/-- The scope that a token is asked for is at most `r`. -/
def ScopeWithin (r : Role) (scope : String) : Prop :=
  (scope = "" → r = .admin) ∧
  ((ofString scope).isValid → (ofString scope).rank ≤ r.rank)

/-- A gate is asked only where the cap shows, and a user's token is asked only for tokens with a
scope of at most `r`. -/
def CapRespected (r : Role) (held : List ApiToken) (a : TokenAction) : Prop :=
  ∀ p, a.principal held = some p →
    match a.request with
    | .write g => CapShows a.env p r g
    | .createToken name scopeRole => p.isDemo = false → p.userID.isSome →
        trimSpace name ≠ "" → ScopeWithin r (trimSpace scopeRole)
    | _ => True

/-! ## Principals of tokens -/

section Lemmas

variable {e : Env} {p : AuthPrincipal} {r : Role} {tok : ApiToken} {active : String}

theorem ApiToken.cap_isValid (tok : ApiToken) : tok.cap.isValid := by
  unfold cap
  split
  · next h => exact h
  · rfl

theorem cap_scopeRole (tok : ApiToken) (role : Role) :
    role.cap (ofString tok.scopeRole) = role.cap tok.cap := by
  unfold ApiToken.cap
  split
  · rfl
  · next hnot =>
    rw [cap_admin]
    simp [Role.cap, hnot]

theorem scopeCapped_eq_false_iff (p : Principal) : p.scopeCapped = false ↔ p.readRole = p.role := by
  unfold scopeCapped readRole
  cases p.baseRole <;> simp

structure OfToken (tok : ApiToken) (p : AuthPrincipal) : Prop where
  role : p.role = p.readRole.cap tok.cap
  user : ∀ userID, tok.owner = .user userID →
    p.kind = .user ∧ p.userID = some userID ∧ p.serviceAccountID = none
  serviceAccount : ∀ id, tok.owner = .serviceAccount id →
    p.kind = .serviceAccount ∧ p.serviceAccountID = some id ∧ p.userID = none

variable {base c : Role} {a : AuthStore} {name : String} {new : ApiToken} {userID : UUID}
  {q : Principal}

theorem ofToken (h : a.principalFromToken tok active = some p) : OfToken tok p := by
  unfold principalFromToken at h
  split at h
  · next userID howner =>
    split at h
    · cases h
    · next user huser =>
      have hid : user.id = userID := by simpa using List.find?_some huser
      split at h
      · cases h
      · next m _ =>
        obtain rfl := Option.some.inj h
        refine { role := ?_, user := fun u hu => ?_, serviceAccount := fun id hid => ?_ }
        · cases m with
          | none => simp [userPrincipal, readRole, Role.cap, Role.rank]
          | some m => exact cap_scopeRole tok m.role
        · rw [howner] at hu
          obtain rfl := MemberRef.user.inj hu
          simp [userPrincipal, hid]
        · rw [howner] at hid
          cases hid
  · next id howner =>
    split at h
    · cases h
    · next sa hsa =>
      have hid : sa.id = id := by simpa using List.find?_some hsa
      obtain rfl := Option.some.inj h
      refine { role := cap_scopeRole tok sa.role, user := fun u hu => ?_,
               serviceAccount := fun i hi => ?_ }
      · rw [howner] at hu
        cases hu
      · rw [howner] at hi
        obtain rfl := MemberRef.serviceAccount.inj hi
        simp [hid]

theorem canWrite_cap_mono {r : Role} (hc : c.isValid) (hr : r.isValid) (hle : c.rank ≤ r.rank)
    (h : (base.cap c).canWrite) : (base.cap r).canWrite := by
  rw [canWrite_cap hc, Bool.and_eq_true] at h
  rw [canWrite_cap hr, Bool.and_eq_true]
  have hc2 := (canWrite_iff c).1 h.2
  exact ⟨h.1, (canWrite_iff r).2 (by omega)⟩

theorem canAdmin_cap_mono {r : Role} (hc : c.isValid) (hr : r.isValid) (hle : c.rank ≤ r.rank)
    (h : (base.cap c).canAdmin) : (base.cap r).canAdmin := by
  rw [canAdmin_cap hc, Bool.and_eq_true] at h
  rw [canAdmin_cap hr, Bool.and_eq_true]
  have hc3 := (canAdmin_iff c).1 h.2
  exact ⟨h.1, (canAdmin_iff r).2 (by omega)⟩

@[simp] theorem lowered_role (p : AuthPrincipal) (r : Role) :
    (p.lowered r).role = p.readRole.cap r := rfl

theorem lowered_readRole (p : AuthPrincipal) (r : Role) :
    (p.lowered r).readRole = p.readRole.cap r := by
  cases hbase : p.baseRole with
  | none => simp [readRole, AuthPrincipal.lowered, hbase]
  | some base => simp [readRole, AuthPrincipal.lowered, hbase]

theorem lowered_scopeCapped (p : AuthPrincipal) (r : Role) : (p.lowered r).scopeCapped = false := by
  rw [scopeCapped_eq_false_iff, lowered_readRole, lowered_role]

theorem any_and_const {α : Type} (l : List α) (q : α → Bool) (b : Bool) :
    (l.any fun x => q x && b) = (l.any q && b) := by
  cases b <;> simp

theorem canUserWriteAnywhere_capRoles (a : AuthStore) (hr : r.isValid) (userID orgID : UUID) :
    (a.capRoles (.user userID) r).canUserWriteAnywhere userID orgID =
      (a.canUserWriteAnywhere userID orgID && r.canWrite) := by
  have hmembers : ((a.capRoles (.user userID) r).memberships.any fun m =>
      m.userID = userID && m.orgID = orgID && m.role.canWrite) =
      ((a.memberships.any fun m => m.userID = userID && m.orgID = orgID && m.role.canWrite) &&
        r.canWrite) := by
    rw [← any_and_const, capRoles, List.any_map]
    congr 1
    funext m
    by_cases hm : m.userID = userID
    · simp [hm, canWrite_cap hr, Bool.and_assoc]
    · simp [hm]
  have hgroups : (a.capRoles (.user userID) r).groupRoleAny userID orgID canWrite =
      (a.groupRoleAny userID orgID canWrite && r.canWrite) := by
    rw [groupRoleAny, groupRoleAny, ← any_and_const, capRoles,
      List.any_map]
    congr 1
    funext gm
    by_cases hm : gm.member = .user userID
    · simp only [Function.comp_apply, GroupMember.capRole_member, GroupMember.capRole_groupID,
        hm, decide_true, Bool.true_and]
      simp only [GroupMember.capRole, hm, if_true, canWrite_cap hr]
      cases gm.role.canWrite <;> cases r.canWrite <;> simp
    · simp [hm]
  unfold canUserWriteAnywhere
  rw [hmembers, hgroups, Bool.and_or_distrib_right]

/-! ## Gate by gate -/

theorem OfToken.canWrite_lowered (h : OfToken tok p) (hr : r.isValid) (hle : tok.cap.rank ≤ r.rank)
    (hwrite : p.role.canWrite) : (p.lowered r).role.canWrite := by
  rw [h.role] at hwrite
  exact canWrite_cap_mono tok.cap_isValid hr hle hwrite

theorem OfToken.canAdmin_lowered (h : OfToken tok p) (hr : r.isValid) (hle : tok.cap.rank ≤ r.rank)
    (hadmin : p.role.canAdmin) : (p.lowered r).role.canAdmin := by
  rw [h.role] at hadmin
  exact canAdmin_cap_mono tok.cap_isValid hr hle hadmin

theorem OfToken.not_canWrite (h : OfToken tok p) (hle : tok.cap.rank ≤ r.rank)
    (hr : r.canWrite = false) : p.role.canWrite = false := by
  rw [h.role, canWrite_cap tok.cap_isValid]
  have hcap : tok.cap.canWrite = false := by
    rw [Bool.eq_false_iff] at hr ⊢
    intro hwrite
    have hrank := (canWrite_iff _).1 hwrite
    exact hr ((canWrite_iff r).2 (by omega))
  rw [hcap, Bool.and_false]

theorem lowered_not_canWrite (p : AuthPrincipal) (hr : r.isValid)
    (hwrite : r.canWrite = false) : (p.lowered r).role.canWrite = false := by
  rw [lowered_role, canWrite_cap hr, hwrite, Bool.and_false]

theorem requireWriteAnywhere_user (a : AuthStore) (hkind : p.kind = .user)
    (hrole : p.role.canWrite = false) :
    a.requireWriteAnywhere p ↔ p.scopeCapped = false ∧
      ∃ userID orgID, p.userID = some userID ∧ p.orgID = some orgID ∧
        a.canUserWriteAnywhere userID orgID := by
  unfold requireWriteAnywhere
  cases huser : p.userID with
  | none => simp [hkind, hrole]
  | some userID =>
    cases horg : p.orgID with
    | none => simp [hkind, hrole]
    | some orgID => simp [hkind, hrole]

theorem writeAnywhere_lowered_iff (h : OfToken tok p) (hr : r.isValid)
    (hle : tok.cap.rank ≤ r.rank) :
    (e.admits p .writeAnywhere →
      (e.capRoles tok.owner r).admits (p.lowered r) .writeAnywhere) ↔
      CapShows e p r .writeAnywhere := by
  simp only [Env.admits]
  by_cases hrole : p.role.canWrite = true
  · have hlowered : (e.capRoles tok.owner r).auth.requireWriteAnywhere (p.lowered r) := by
      unfold requireWriteAnywhere
      rw [if_pos (h.canWrite_lowered hr hle hrole)]
    refine iff_of_true (fun _ => hlowered) fun hwrite => ?_
    rw [h.not_canWrite hle hwrite] at hrole
    cases hrole
  have hrole' : p.role.canWrite = false := by simpa using hrole
  cases howner : tok.owner with
  | serviceAccount id =>
    obtain ⟨hkind, _, _⟩ := h.serviceAccount id howner
    refine iff_of_true (fun hadmits => ?_) fun _ huser => ?_
    · simp [requireWriteAnywhere, hrole', hkind] at hadmits
    · rw [hkind] at huser
      cases huser
  | user userID =>
    obtain ⟨hkind, huser, _⟩ := h.user userID howner
    rw [requireWriteAnywhere_user e.auth hkind hrole']
    cases hwrite : r.canWrite with
    | true =>
      refine iff_of_true ?_ (fun hnot => by rw [hwrite] at hnot; cases hnot)
      rintro ⟨hcapped, u, orgID, hu, horg, hany⟩
      have hsame : p.readRole = p.role := (scopeCapped_eq_false_iff p.toPrincipal).1 hcapped
      have hlowrole : (p.lowered r).role.canWrite = false := by
        rw [lowered_role, hsame, canWrite_cap hr, hrole', Bool.false_and]
      have hlowkind : (p.lowered r).kind = .user := hkind
      rw [requireWriteAnywhere_user _ hlowkind hlowrole]
      obtain rfl : userID = u := Option.some.inj (huser.symm.trans hu)
      refine ⟨lowered_scopeCapped p r, userID, orgID, hu, horg, ?_⟩
      show (e.auth.capRoles (.user userID) r).canUserWriteAnywhere userID orgID = true
      rw [canUserWriteAnywhere_capRoles _ hr, hany, hwrite]
      rfl
    | false =>
      have hrefused : (e.capRoles (.user userID) r).auth.requireWriteAnywhere (p.lowered r) ≠
          true := by
        have hlowkind : (p.lowered r).kind = .user := hkind
        rw [Ne, requireWriteAnywhere_user _ hlowkind (lowered_not_canWrite p hr hwrite)]
        rintro ⟨_, u, orgID, hu, _, hany⟩
        obtain rfl : userID = u := Option.some.inj (huser.symm.trans hu)
        change (e.auth.capRoles (.user userID) r).canUserWriteAnywhere userID orgID = true at hany
        rw [canUserWriteAnywhere_capRoles _ hr, hwrite, Bool.and_false] at hany
        cases hany
      constructor
      · intro hadmits _ _ hcapped u orgID hu horg
        rw [Bool.eq_false_iff]
        intro hany
        exact hrefused (hadmits ⟨hcapped, u, orgID, hu, horg, hany⟩)
      · rintro hshows ⟨hcapped, u, orgID, hu, horg, hany⟩
        rw [hshows hwrite hkind hcapped u orgID hu horg] at hany
        cases hany

/-! ### The manage checks -/

theorem manages_all_iff (sets : AccessSets) (names : List String) :
    (∀ n ∈ names, sets.Manages n) ↔ sets.managedAll ∨ ∀ n ∈ names, n ∈ sets.managed := by
  unfold AccessSets.Manages
  cases sets.managedAll <;> simp

theorem canManageAllServices_user (h : Handlers) (hkind : q.kind = .user)
    (huser : q.userID = some userID) (names : List String) :
    h.canManageAllServices q names ↔ names = [] ∨ q.role.canWrite ∨
      (q.scopeCapped = false ∧ h.rbacAdvanced ∧
        ∃ sets, h.identity.resolveAccessSetsMember (.user userID) = .ok sets ∧
          ∀ n ∈ names, sets.Manages n) := by
  have hnot : q.isServiceAccount = false := by simp [isServiceAccount, hkind]
  have hempty : (names.all fun n => decide (n ∈ (∅ : Finset String))) = true ↔ names = [] := by
    cases names <;> simp
  unfold Handlers.canManageAllServices Handlers.managedServiceFilter
  simp only [hnot, huser, Bool.false_eq_true, if_false]
  by_cases hwrite : q.role.canWrite = true
  · simp [hwrite]
  by_cases hcapped : q.scopeCapped = true
  · simp only [hwrite, hcapped, if_true, if_false, hempty, Bool.true_eq_false, false_and, or_false,
      Bool.false_eq_true]
  by_cases hrbac : h.rbacAdvanced = true
  · simp only [hwrite, hcapped, hrbac, Bool.not_true, Bool.false_eq_true, if_false, false_or,
      true_and]
    cases hres : h.identity.resolveAccessSetsMember (.user userID) with
    | error msg => simp [List.eq_nil_iff_forall_not_mem]
    | ok sets =>
      simp only [Except.ok.injEq, exists_eq_left', manages_all_iff]
      cases hall : sets.managedAll with
      | true => simp
      | false =>
        have hnil : names = [] → ∀ n ∈ names, n ∈ sets.managed := by
          rintro rfl
          simp
        simp only [Bool.false_eq_true, if_false, false_or, List.all_eq_true, decide_eq_true_eq]
        exact ⟨Or.inr, fun hor => hor.elim hnil id⟩
  · have hrbac' : h.rbacAdvanced = false := by simpa using hrbac
    simp [hwrite, hcapped, hrbac', List.eq_nil_iff_forall_not_mem]

variable {held : List ApiToken} {id : UUID}

theorem canManageAllServices_serviceAccount (h : Handlers) (hkind : q.kind = .serviceAccount)
    (hid : q.serviceAccountID = some id) (names : List String) :
    h.canManageAllServices q names ↔ names = [] ∨ q.readRole.canAdmin ∨
      (q.saScope = .orgWide ∧ h.forbidOrgWideServiceAccounts = false) ∨
      ∃ set wildcard, h.identity.resolveVisibleServiceSetMember (.serviceAccount id) =
        .ok (set, wildcard) ∧ (wildcard ∨ ∀ n ∈ names, n ∈ set) := by
  have his : q.isServiceAccount := by simp [isServiceAccount, hkind, hid]
  unfold Handlers.canManageAllServices Handlers.managedServiceFilter Handlers.visibilityMember
  simp only [his, if_true, hkind, hid]
  by_cases hadmin : q.readRole.canAdmin = true
  · simp [hadmin]
  by_cases hwide : q.saScope = .orgWide ∧ (!h.forbidOrgWideServiceAccounts) = true
  · have hwide' : q.saScope = .orgWide ∧ h.forbidOrgWideServiceAccounts = false := by
      simpa using hwide
    rw [if_neg hadmin, if_pos hwide]
    exact iff_of_true rfl (Or.inr (Or.inr (Or.inl hwide')))
  have hwide' : ¬ (q.saScope = .orgWide ∧ h.forbidOrgWideServiceAccounts = false) := by
    simpa using hwide
  simp only [hadmin, hwide, hwide', Bool.false_eq_true, if_false, false_or]
  cases hres : h.identity.resolveVisibleServiceSetMember (.serviceAccount id) with
  | error msg => simp [List.eq_nil_iff_forall_not_mem]
  | ok answer =>
    obtain ⟨set, wildcard⟩ := answer
    cases wildcard with
    | true => simp
    | false =>
      have hnil : names = [] → ∀ n ∈ names, n ∈ set := by
        rintro rfl
        simp
      simp only [List.all_eq_true, decide_eq_true_eq, Except.ok.injEq, Prod.mk.injEq]
      constructor
      · exact fun hall => Or.inr ⟨set, false, ⟨rfl, rfl⟩, Or.inr hall⟩
      · rintro (hnone | ⟨_, _, ⟨rfl, rfl⟩, hfalse | hall⟩)
        · exact hnil hnone
        · cases hfalse
        · exact hall

theorem manage_lowered_user_iff (h : OfToken tok p) (hr : r.isValid) (hle : tok.cap.rank ≤ r.rank)
    (howner : tok.owner = .user userID) (names : List String) :
    (e.admits p (.manage names) →
      (e.capRoles (.user userID) r).admits (p.lowered r) (.manage names)) ↔
      CapShows e p r (.manage names) := by
  simp only [Env.admits, CapShows]
  obtain ⟨hkind, huser, hnosa⟩ := h.user userID howner
  have hnot : p.isServiceAccount = false := by simp [isServiceAccount, hkind]
  have hlowkind : (p.lowered r).kind = .user := hkind
  have hlowuser : (p.lowered r).userID = some userID := huser
  rw [canManageAllServices_user e.handlers hkind huser,
    canManageAllServices_user (e.capRoles (.user userID) r).handlers hlowkind hlowuser]
  constructor
  · intro hadmits
    refine ⟨fun hwrite _ hcapped hrbac hne u sets hu hres => ?_, fun id hsa => ?_⟩
    · obtain rfl : userID = u := Option.some.inj (huser.symm.trans hu)
      by_contra hnone
      have hall : ∀ n ∈ names, sets.Manages n := by
        intro n hn
        by_contra hn'
        exact hnone ⟨n, hn, hn'⟩
      rcases hadmits (Or.inr (Or.inr ⟨hcapped, hrbac, sets, hres, hall⟩)) with
        hnil | hrole | ⟨_, _, sets', hres', hall'⟩
      · exact hne hnil
      · rw [lowered_not_canWrite p hr hwrite] at hrole
        cases hrole
      · obtain ⟨n, hn⟩ := List.exists_mem_of_ne_nil names hne
        exact Store.not_manages_capRoles _ _ _ hr hwrite hres' n (hall' n hn)
    · rw [hkind] at hsa
      cases hsa
  · rintro ⟨hshows, _⟩ (hnil | hrole | ⟨hcapped, hrbac, sets, hres, hall⟩)
    · exact Or.inl hnil
    · exact Or.inr (Or.inl (h.canWrite_lowered hr hle hrole))
    · cases hwrite : r.canWrite with
      | true =>
        refine Or.inr (Or.inr ⟨lowered_scopeCapped p r, hrbac, sets, ?_, hall⟩)
        exact (Store.resolveAccessSetsMember_capRoles _ _ _ hr hwrite).trans hres
      | false =>
        by_cases hne : names = []
        · exact Or.inl hne
        · obtain ⟨n, hn, hnot'⟩ := hshows hwrite hnot hcapped hrbac hne userID sets huser hres
          exact absurd (hall n hn) hnot'

theorem manage_lowered_serviceAccount_iff (h : OfToken tok p) (hr : r.isValid)
    (howner : tok.owner = .serviceAccount id) (names : List String) :
    (e.admits p (.manage names) →
      (e.capRoles (.serviceAccount id) r).admits (p.lowered r) (.manage names)) ↔
      CapShows e p r (.manage names) := by
  simp only [Env.admits, CapShows]
  obtain ⟨hkind, hid, hnouser⟩ := h.serviceAccount id howner
  have his : p.isServiceAccount := by simp [isServiceAccount, hkind, hid]
  have hlowkind : (p.lowered r).kind = .serviceAccount := hkind
  have hlowid : (p.lowered r).serviceAccountID = some id := hid
  have hvisible :
      (e.capRoles (.serviceAccount id) r).handlers.identity.resolveVisibleServiceSetMember
          (.serviceAccount id) =
        e.handlers.identity.resolveVisibleServiceSetMember (.serviceAccount id) :=
    Store.resolveVisibleServiceSetMember_capRoles _ _ _
  rw [canManageAllServices_serviceAccount e.handlers hkind hid,
    canManageAllServices_serviceAccount (e.capRoles (.serviceAccount id) r).handlers
      hlowkind hlowid, lowered_readRole, canAdmin_cap hr, hvisible]
  constructor
  · intro hadmits
    refine ⟨fun _ hnot => ?_, fun i _ hi hadmin hr' hne => ?_⟩
    · rw [his] at hnot
      cases hnot
    · obtain rfl : id = i := Option.some.inj (hid.symm.trans hi)
      rcases hadmits (Or.inr (Or.inl hadmin)) with hnil | hboth | hwide | hset
      · exact absurd hnil hne
      · rw [hr', Bool.and_false] at hboth
        cases hboth
      · exact Or.inl hwide
      · exact Or.inr hset
  · rintro ⟨_, hshows⟩ (hnil | hadmin | hwide | hset)
    · exact Or.inl hnil
    · cases hr' : r.canAdmin with
      | true => exact Or.inr (Or.inl (by rw [hadmin, Bool.and_true]))
      | false =>
        by_cases hne : names = []
        · exact Or.inl hne
        · exact Or.inr (Or.inr (hshows id hkind hid hadmin hr' hne))
    · exact Or.inr (Or.inr (Or.inl hwide))
    · exact Or.inr (Or.inr (Or.inr hset))

theorem manage_lowered_iff (h : OfToken tok p) (hr : r.isValid)
    (hle : tok.cap.rank ≤ r.rank) (names : List String) :
    (e.admits p (.manage names) →
      (e.capRoles tok.owner r).admits (p.lowered r) (.manage names)) ↔
      CapShows e p r (.manage names) := by
  cases howner : tok.owner with
  | user userID => exact manage_lowered_user_iff h hr hle howner names
  | serviceAccount id => exact manage_lowered_serviceAccount_iff h hr howner names

theorem gate_lowered_iff (h : OfToken tok p) (hr : r.isValid)
    (hle : tok.cap.rank ≤ r.rank) (g : Gate) :
    (e.admits p g → (e.capRoles tok.owner r).admits (p.lowered r) g) ↔
      CapShows e p r g := by
  cases g with
  | canWrite => exact iff_of_true (h.canWrite_lowered hr hle) trivial
  | canAdmin => exact iff_of_true (h.canAdmin_lowered hr hle) trivial
  | writeAnywhere => exact writeAnywhere_lowered_iff h hr hle
  | operator =>
    refine iff_of_true (fun hadmits => ?_) trivial
    simp only [Env.admits, requireOperator, Bool.and_eq_true] at hadmits ⊢
    exact ⟨hadmits.1, by rw [lowered_scopeCapped]; rfl⟩
  | manage names => exact manage_lowered_iff h hr hle names

theorem cap_of_scope {owner : MemberRef} {scope : String}
    (hvalid : scope = "" ∨ (ofString scope).isValid) :
    (ApiToken.cap { owner := owner, name := name, scopeRole := scope }).rank ≤ r.rank ↔
      ScopeWithin r scope := by
  unfold ApiToken.cap ScopeWithin
  rcases hvalid with rfl | hvalid
  · have hnone : (ofString "").isValid = false := rfl
    simp only [hnone, Bool.false_eq_true, if_false, true_implies, false_implies, and_true]
    cases r <;> decide
  · have hne : scope ≠ "" := by
      rintro rfl
      cases hvalid
    simp [hvalid, hne]

theorem createToken_cap_iff (p : AuthPrincipal) (name scopeRole : String) :
    (∀ tok, createToken p name scopeRole = some tok → tok.cap.rank ≤ r.rank) ↔
      (p.isDemo = false → p.userID.isSome → trimSpace name ≠ "" →
        ScopeWithin r (trimSpace scopeRole)) := by
  unfold createToken
  by_cases hdemo : p.isDemo = true
  · simp [hdemo]
  have hdemo' : p.isDemo = false := by simpa using hdemo
  cases huser : p.userID with
  | none => simp [hdemo']
  | some userID =>
    by_cases hname : trimSpace name = ""
    · simp [hdemo', hname]
    by_cases hscope : trimSpace scopeRole ≠ "" ∧ (!(ofString (trimSpace scopeRole)).isValid)
       
    · refine iff_of_true ?_ fun _ _ _ => ⟨fun h => absurd h hscope.1, fun h => ?_⟩
      · simp [hdemo', hname, hscope]
      · simp [h] at hscope
    have hvalid : trimSpace scopeRole = "" ∨
        (ofString (trimSpace scopeRole)).isValid := by
      by_contra hboth
      rw [not_or] at hboth
      exact hscope ⟨hboth.1, by simpa using hboth.2⟩
    simp only [hdemo', hname, hscope, Bool.false_eq_true, if_false, Option.some.injEq,
      forall_eq', Option.isSome_some, true_implies, ne_eq, not_false_eq_true]
    exact cap_of_scope hvalid

theorem createServiceAccountToken_cap {scopeRole : String} (h : OfToken tok p)
    (hle : tok.cap.rank ≤ r.rank)
    (hnew : createServiceAccountToken a p id name scopeRole = some new) :
    new.cap.rank ≤ r.rank := by
  have hadmin : p.role.canAdmin := by
    unfold createServiceAccountToken requireRole at hnew
    by_contra hnot
    simp [hnot] at hnew
  rw [h.role, canAdmin_cap tok.cap_isValid, Bool.and_eq_true] at hadmin
  have hthree := (canAdmin_iff _).1 hadmin.2
  have hmax : new.cap.rank ≤ 3 := by cases new.cap <;> decide
  omega

theorem createOauthToken_cap (hr : r.isValid) (hnew : createOauthToken p = some new) :
    new.cap.rank ≤ r.rank := by
  unfold createOauthToken at hnew
  obtain ⟨userID, _, rfl⟩ := Option.map_eq_some_iff.1 hnew
  have hviewer :
      ApiToken.cap ⟨.user userID, "MCP (OAuth connector)", "viewer", none⟩ = .viewer := rfl
  rw [hviewer]
  cases r <;> first | decide | cases hr

/-! ## Requests and runs -/

/-- Every token that is held has a cap of at most `r`. -/
def CapsHeld (r : Role) (held : List ApiToken) : Prop := ∀ tok ∈ held, tok.cap.rank ≤ r.rank

theorem principal_eq_some {a : TokenAction} (h : a.principal held = some p) :
    a.token ∈ held ∧ a.env.auth.principalFromToken a.token a.active = some p := by
  unfold TokenAction.principal at h
  split at h
  · next hmem => exact ⟨hmem, h⟩
  · cases h

theorem capsHeld_holdTokens_iff (hheld : CapsHeld r held) (a : TokenAction) :
    CapsHeld r (holdTokens held a) ↔
      ∀ p, a.principal held = some p → ∀ new, a.request.created a.env p = some new →
        new.cap.rank ≤ r.rank := by
  unfold holdTokens
  cases hp : a.principal held with
  | none => exact iff_of_true hheld (by simp)
  | some p =>
    simp only [Option.bind_some, Option.some.injEq, forall_eq']
    cases hnew : a.request.created a.env p with
    | none => exact iff_of_true hheld (by simp)
    | some new =>
      simp only [CapsHeld, List.forall_mem_cons, Option.some.injEq, forall_eq']
      exact and_iff_left hheld

theorem withinCap_iff (hr : r.isValid) (hheld : CapsHeld r held) (a : TokenAction) :
    WithinCap r held a ↔ CapRespected r held a := by
  have hcreated : (∀ tok ∈ holdTokens held a, tok.cap.rank ≤ r.rank) ↔ _ :=
    capsHeld_holdTokens_iff hheld a
  have hsplit : WithinCap r held a ↔ ∀ p, a.principal held = some p →
      (∀ g, a.request = .write g → a.env.admits p g →
        (a.env.capRoles a.token.owner r).admits (p.lowered r) g) ∧
      ∀ new, a.request.created a.env p = some new → new.cap.rank ≤ r.rank := by
    constructor
    · exact fun h p hp => ⟨fun g hg => h.gate g hg p hp, hcreated.1 h.tokens p hp⟩
    · exact fun h => ⟨fun g hg p hp => (h p hp).1 g hg, hcreated.2 fun p hp => (h p hp).2⟩
  rw [hsplit]
  refine forall_congr' fun p => forall_congr' fun hp => ?_
  obtain ⟨hmem, hresolved⟩ := principal_eq_some hp
  have htok : OfToken a.token p := ofToken hresolved
  have hle : a.token.cap.rank ≤ r.rank := hheld _ hmem
  cases a.request with
  | write g =>
    simp only [TokenRequest.write.injEq, forall_eq', TokenRequest.created, reduceCtorEq,
      false_implies, implies_true, and_true]
    exact gate_lowered_iff htok hr hle g
  | createToken name scopeRole =>
    simp only [reduceCtorEq, false_implies, implies_true, true_and, TokenRequest.created]
    exact createToken_cap_iff p name scopeRole
  | createServiceAccountToken id name scopeRole =>
    refine iff_of_true ⟨by simp, fun new hnew => ?_⟩ trivial
    exact createServiceAccountToken_cap htok hle hnew
  | oauth => exact iff_of_true ⟨by simp, fun new hnew => createOauthToken_cap hr hnew⟩ trivial

end Lemmas

/-- **When the cap of a token is a ceiling.**  For every token and every run of requests with it
and with the tokens obtained through it, whatever the tables are at each request. -/
theorem withinCap_run_iff (tok : ApiToken) (as : List TokenAction) :
    StepsMeet holdTokens (WithinCap tok.cap) [tok] as ↔
      StepsMeet holdTokens (CapRespected tok.cap) [tok] as := by
  have hstart : CapsHeld tok.cap [tok] := by
    intro t ht
    rw [List.mem_singleton.1 ht]
  exact stepsMeet_congr (I := CapsHeld tok.cap)
    (fun held a hheld => withinCap_iff tok.cap_isValid hheld a)
    (fun held a _ h => h.tokens) hstart

/-! A viewer token of a user who is a viewer of the organization and an editor in one group, and
one of a service account that is an admin. -/

private def viewerToken : ApiToken where
  owner := .user 7
  name := "ci"
  scopeRole := "viewer"

private def botToken : ApiToken where
  owner := .serviceAccount 4
  name := "ci"
  scopeRole := "viewer"

private def oneGroup : Env where
  auth :=
    { users := [{ id := 7 }]
      memberships := [⟨7, 1, "acme", .viewer, 0⟩]
      serviceAccounts := [{ id := 4, orgID := 1, role := .admin }]
      groups := [⟨11, 1⟩]
      groupMembers := [⟨11, .user 7, .editor⟩] }
  handlers :=
    { identity :=
        { policies := []
          policyKey := List.nodup_nil
          members := [⟨11, .user 7, .editor⟩]
          shares := []
          attributes := []
          catalog :=
            { services := [], serviceKey := List.nodup_nil, systems := [], integrations := []
              matched := fun _ => [], attached := fun _ => [] }
          compile := fun _ => none } }

/-- The viewer token may write, and it creates a token without a cap; the service account's
viewer token manages a service it does not even see. -/
theorem cap_not_ceiling :
    ¬ StepsMeet holdTokens (WithinCap viewerToken.cap) [viewerToken]
      [{ env := oneGroup, token := viewerToken, request := .write .writeAnywhere }] ∧
    ¬ StepsMeet holdTokens (WithinCap viewerToken.cap) [viewerToken]
      [{ env := oneGroup, token := viewerToken, request := .createToken "all" "" }] ∧
    ¬ StepsMeet holdTokens (WithinCap botToken.cap) [botToken]
      [{ env := oneGroup, token := botToken, request := .write (.manage ["orders"]) }] := by
  refine ⟨fun h => ?_, fun h => ?_, fun h => ?_⟩
  · have hgate := h.1.gate .writeAnywhere rfl _ rfl (by decide +kernel)
    revert hgate
    decide +kernel
  · have htokens := h.1.tokens
    revert htokens
    decide +kernel
  · have hgate := h.1.gate (.manage ["orders"]) rfl _ rfl (by decide +kernel)
    revert hgate
    decide +kernel

end Sluicio.Api
