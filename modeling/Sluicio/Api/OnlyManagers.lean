import Sluicio.Api.WriteRoutes

/-!
# Only managers write

A principal may write a resource by its role, or as an editor, through its groups, of every
service that the resource spans.  Which of the changes that the routes let through keep to that
is decided by what their wrappers ask: about the resource in the path, about the role, about
neither.
-/

namespace Sluicio.Api.WriteRoutes

open Lib Identity Integrations AuthStore
open Catalog.Systems (Db)
open Tracecompletion (trimSpace)

def memberOf (p : AuthPrincipal) : Option MemberRef :=
  match p.kind with
  | .user => p.userID.map MemberRef.user
  | .serviceAccount => p.serviceAccountID.map MemberRef.serviceAccount

section Rights

variable (s : Site) (p : AuthPrincipal)

/-- A session or a token of the tables resolves to the principal, in the organization of the
request. -/
structure Authenticated : Prop where
  org : ∀ orgID, p.orgID = some orgID → orgID = s.orgID
  resolved : (∃ userID active, s.auth.principalFromSession userID active = some p) ∨
    ∃ tok active, s.auth.principalFromToken tok active = some p

def span : Resource → List String
  | .integration id => s.handlers.identity.catalog.matched id
  | .system id => members s.tables.db id
  | .service name => [name]

def Foreign : Resource → Prop
  | .integration id => ∃ i ∈ s.tables.integrations, i.id = id ∧ i.organizationID ≠ s.orgID
  | _ => False

/-- The managed set of the principal has the service. -/
def Manages (name : String) : Prop :=
  ∃ ref sets, memberOf p = some ref ∧
    s.handlers.identity.resolveAccessSetsMember ref = .ok sets ∧ sets.Manages name

def EditsSomewhere : Prop :=
  ∃ ref, memberOf p = some ref ∧
    ∃ gm ∈ s.handlers.identity.members, gm.member = ref ∧ gm.role.canWrite

/-- The principal has write capability over the resource. -/
def HasCapability (res : Resource) : Prop :=
  ¬ Foreign s res ∧
    (p.role.canWrite ∨
      (s.handlers.rbacAdvanced ∧ p.scopeCapped = false ∧ ∀ n ∈ span s res, Manages s p n))

/-- What the principal may write: a viewer who is editor in no group may write nothing. -/
def MayWrite (res : Resource) : Prop :=
  HasCapability s p res ∧ (p.role = .viewer → EditsSomewhere s p)

/-- The request changes nothing that the principal has no capability over, and nothing at all
for a viewer who is editor in no group. -/
structure OnlyManagersWrite (req : WriteRequest) : Prop where
  managers : ∀ res, ¬ s.tables.Same (serve s p req) res → HasCapability s p res
  viewers : p.role = .viewer → ¬ EditsSomewhere s p → ∀ res, s.tables.Same (serve s p req) res

/-- The wrappers do not ask whether the principal may write the resource: it belongs to another
organization, which none of them looks at; or else it is not the one in the path, there is none
in the path, nothing is asked, or the check ignores the role (of a service account, or over a
resource that spans no service). -/
def Wrapper.Unasked (req : WriteRequest) (res : Resource) (w : Wrapper) : Prop :=
  Foreign s res ∨
    match w with
    | .writeAnywhere | .manageIntegration | .requireAdmin => False
    | .manageSystem => ∃ other, res = .system other ∧ req.id ≠ some other
    | .writeService =>
      p.isServiceAccount ∨ req.name = "" ∨ res ≠ .service req.name
    | .shareEE => p.isServiceAccount ∨ span s res = []
    | .gateServiceRoute => True

/-- The request is let through, and changes the resource, without the wrappers having asked
about it. -/
def Overlooked (req : WriteRequest) (res : Resource) : Prop :=
  ∃ route, req.route = some route ∧ route.wrapper.admits s p req ∧
    ¬ s.tables.Same (route.handler s p req) res ∧ route.wrapper.Unasked s p req res

end Rights

/-! ## Same -/

@[simp] theorem Tables.Same.refl (t : Tables) (res : Resource) : t.Same t res := by
  cases res <;> simp [Tables.Same]

variable {res r : Resource} {id : UUID}

theorem Tables.Same.trans {t t' t'' : Tables} (h : t.Same t' res) (h' : t'.Same t'' res) :
    t.Same t'' res := by
  cases res with
  | integration id =>
    exact ⟨h'.1.trans h.1, h'.2.1.trans h.2.1, fun a => (h'.2.2 a).trans (h.2.2 a)⟩
  | system id => exact ⟨h'.1.trans h.1, h'.2.1.trans h.2.1, fun a => (h'.2.2 a).trans (h.2.2 a)⟩
  | service name => exact ⟨h'.1.trans h.1, fun a => (h'.2 a).trans (h.2 a)⟩

theorem same_edit (t : Tables) (hne : r ≠ res) (e : Edit) (req : WriteRequest) :
    t.Same (t.edit res e req) r := by
  cases r <;> simp [Tables.Same, Tables.edit, hne]

theorem same_setMatchers (t : Tables) (hne : r ≠ .integration id) (ms : List (UUID × Matcher)) :
    t.Same (t.setMatchers id ms) r := by
  cases r with
  | integration id' =>
    have hid : id' ≠ id := fun h => hne (by rw [h])
    simp [Tables.Same, Tables.setMatchers, hid]
  | system id' => simp [Tables.Same, Tables.setMatchers]
  | service name => simp [Tables.Same, Tables.setMatchers]

theorem find?_service_updateWhere {svcs : List Service} {q : Service → Bool}
    {f : Service → Service} (hname : ∀ svc, (f svc).serviceName = svc.serviceName) {n : String}
    (hq : ∀ svc ∈ svcs, svc.serviceName = n → q svc = false) :
    (updateWhere q f svcs).find? (fun svc => svc.serviceName = n) =
      svcs.find? fun svc => svc.serviceName = n := by
  rw [find?_updateWhere hname]
  cases hfind : svcs.find? fun svc => svc.serviceName = n with
  | none => rfl
  | some svc =>
    have hmem := List.mem_of_find?_eq_some hfind
    have heq : svc.serviceName = n := by simpa using List.find?_some hfind
    simp [hq svc hmem heq]

theorem mem_members {db : Db} {svc : Service} (hsvc : svc ∈ db.services)
    (hid : svc.systemID = some id) : svc.serviceName ∈ members db id :=
  List.mem_map_of_mem (List.mem_filter.2 ⟨hsvc, by simpa using hid⟩)

/-! ## What the handlers reach -/

def AtIntegration (req : WriteRequest) (res : Resource) : Prop :=
  ∃ id, req.id = some id ∧ res = .integration id

/-- The system in the path, or one of its members. -/
def AtSystem (s : Site) (req : WriteRequest) (res : Resource) : Prop :=
  ∃ id, req.id = some id ∧ (res = .system id ∨ ∃ n ∈ members s.tables.db id, res = .service n)

/-- Where the wrappers ask for the right to write anywhere or to manage what is in the path:
what a handler under them may change. -/
def Wrapper.Reach (s : Site) (p : AuthPrincipal) (req : WriteRequest) (res : Resource) :
    Wrapper → Prop
  | .writeAnywhere => span s res = []
  | .manageIntegration => AtIntegration req res ∨ span s res = []
  | .manageSystem => AtSystem s req res ∨
      (∃ n, res = .service n ∧ s.handlers.canManageService p.toPrincipal n) ∨
      ∃ other, res = .system other ∧ req.id ≠ some other
  | .shareEE => (∃ id, res = .integration id ∧ s.handlers.canManageIntegration p.toPrincipal id) ∨
      ∃ id, res = .system id ∧ canManageSystem s p id
  | _ => True

def Route.Within (route : Route) : Prop :=
  ∀ s p req res, ¬ s.tables.Same (route.handler s p req) res → route.wrapper.Reach s p req res

section Reach

variable {s : Site} {p : AuthPrincipal} {req : WriteRequest} {res : Resource} {e : Edit} {id : UUID}

theorem atIntegration_of_path {t : Tables} (hid : req.id = some id)
    (hsame : res ≠ .integration id → s.tables.Same t res) (h : ¬ s.tables.Same t res) :
    AtIntegration req res := by
  by_contra hne
  exact h (hsame fun heq => hne ⟨id, hid, heq⟩)

theorem changed_onIntegration (h : ¬ s.tables.Same (onIntegration e s p req) res) :
    AtIntegration req res := by
  unfold onIntegration at h
  split at h
  · exact absurd (Tables.Same.refl _ _) h
  · next id hid =>
    split at h
    · exact absurd (Tables.Same.refl _ _) h
    · exact atIntegration_of_path hid (fun hne => same_edit _ hne e req) h

theorem changed_putIntegrationMetadata
    (h : ¬ s.tables.Same (putIntegrationMetadata s p req) res) : AtIntegration req res := by
  unfold putIntegrationMetadata at h
  split at h
  · exact absurd (Tables.Same.refl _ _) h
  · next id hid =>
    split at h
    · exact absurd (Tables.Same.refl _ _) h
    · exact atIntegration_of_path hid (fun hne => same_edit _ hne _ req) h

theorem changed_onMatchers {next : WriteRequest → List (UUID × Matcher) → List (UUID × Matcher)}
    (h : ¬ s.tables.Same (onMatchers next s p req) res) : AtIntegration req res := by
  unfold onMatchers at h
  split at h
  · exact absurd (Tables.Same.refl _ _) h
  · next id hid =>
    split at h
    · exact absurd (Tables.Same.refl _ _) h
    · exact atIntegration_of_path hid (fun hne => same_setMatchers _ hne _) h

theorem changed_addMatcher (h : ¬ s.tables.Same (addMatcher s p req) res) :
    AtIntegration req res := by
  unfold addMatcher at h
  split at h
  · exact absurd (Tables.Same.refl _ _) h
  · exact changed_onMatchers h

theorem changed_replaceMatchers (h : ¬ s.tables.Same (replaceMatchers s p req) res) :
    AtIntegration req res := by
  unfold replaceMatchers at h
  split at h
  · exact absurd (Tables.Same.refl _ _) h
  · exact changed_onMatchers h

theorem changed_updateIntegration (h : ¬ s.tables.Same (updateIntegration s p req) res) :
    AtIntegration req res := by
  unfold updateIntegration at h
  split at h
  · exact absurd (Tables.Same.refl _ _) h
  · next id hid =>
    split at h
    · exact absurd (Tables.Same.refl _ _) h
    refine atIntegration_of_path hid (fun hne => ?_) h
    cases res with
    | integration id' =>
      have hother : id' ≠ id := fun heq => hne (by rw [heq])
      refine ⟨find?_updateWhere_other ?_ _, rfl, fun _ => rfl⟩
      intro i hi
      have hi' : i.id = id := by simpa using hi
      simp [hi', hother.symm]
    | system id' => exact ⟨rfl, rfl, fun _ => rfl⟩
    | service name => exact ⟨rfl, fun _ => rfl⟩

theorem changed_deleteIntegration (h : ¬ s.tables.Same (deleteIntegration s p req) res) :
    AtIntegration req res := by
  unfold deleteIntegration at h
  split at h
  · exact absurd (Tables.Same.refl _ _) h
  · next id hid =>
    split at h
    · exact absurd (Tables.Same.refl _ _) h
    refine atIntegration_of_path hid (fun hne => ?_) h
    cases res with
    | integration id' =>
      have hother : id' ≠ id := fun heq => hne (by rw [heq])
      refine ⟨?_, by simp [Tables.setMatchers, hother], fun a => by simp [hother]⟩
      have hsame := find?_filter_other
        (p := fun i : Integration => decide (i.id = id))
        (q := fun i : Integration => decide (i.id = id'))
        (fun i hi => by simp_all) s.tables.integrations
      simpa using hsame
    | system id' => exact ⟨rfl, rfl, fun a => by simp⟩
    | service name => exact ⟨rfl, fun a => by simp⟩

theorem span_newIntegration (hnew : s.tables.integrations.any (fun i => i.id = id) = false) :
    span s (.integration id) = [] := by
  refine s.unmatched id fun i hi hid => ?_
  rw [List.any_eq_false] at hnew
  exact absurd (by simpa using hid) (hnew i hi)

theorem changed_createIntegration (h : ¬ s.tables.Same (createIntegration s p req) res) :
    span s res = [] := by
  unfold createIntegration at h
  split at h
  · exact absurd (Tables.Same.refl _ _) h
  · next hguard =>
    simp only [Bool.or_eq_true, not_or, Bool.not_eq_true] at hguard
    by_cases hres : res = .integration req.newID
    · rw [hres]
      exact span_newIntegration hguard.2
    refine absurd ?_ h
    have hsame := same_setMatchers s.tables hres req.matchers
    cases res with
    | integration id =>
      have hother : req.newID ≠ id := fun heq => hres (by rw [heq])
      refine ⟨?_, hsame.2.1, hsame.2.2⟩
      simp [hother]
    | system id => exact hsame
    | service name => exact hsame

theorem changed_cloneIntegration (h : ¬ s.tables.Same (cloneIntegration s p req) res) :
    span s res = [] := by
  unfold cloneIntegration at h
  split at h
  · exact absurd (Tables.Same.refl _ _) h
  · next src hsrc =>
    split at h
    · exact absurd (Tables.Same.refl _ _) h
    · next hguard =>
      simp only [Bool.or_eq_true, not_or, Bool.not_eq_true] at hguard
      by_cases hres : res = .integration req.newID
      · rw [hres]
        exact span_newIntegration hguard.2
      refine absurd ?_ h
      have hsame := same_setMatchers s.tables hres (s.tables.matchers src)
      cases res with
      | integration id =>
        have hother : req.newID ≠ id := fun heq => hres (by rw [heq])
        refine ⟨?_, hsame.2.1, fun a => by simp [hother.symm]⟩
        simp [hother]
      | system id => exact ⟨rfl, rfl, fun a => by simp⟩
      | service name => exact ⟨rfl, fun a => by simp⟩

theorem changed_onSystem (h : ¬ s.tables.Same (onSystem e s p req) res) :
    ∃ id, req.id = some id ∧ res = .system id := by
  unfold onSystem at h
  split at h
  · exact absurd (Tables.Same.refl _ _) h
  · next id hid =>
    split at h
    · exact absurd (Tables.Same.refl _ _) h
    · by_contra hne
      exact h (same_edit _ (fun heq => hne ⟨id, hid, heq⟩) e req)

theorem changed_putSystemMetadata (h : ¬ s.tables.Same (putSystemMetadata s p req) res) :
    AtSystem s req res := by
  unfold putSystemMetadata at h
  split at h
  · obtain ⟨id, hid, hres⟩ := changed_onSystem h
    exact ⟨id, hid, Or.inl hres⟩
  · exact absurd (Tables.Same.refl _ _) h

theorem members_newSystem (hnew : id ∉ s.tables.db.systems.map (·.id)) :
    members s.tables.db id = [] := by
  rw [members, List.map_eq_nil_iff, List.filter_eq_nil_iff]
  intro svc hsvc hid
  exact hnew (s.tables.db.references svc hsvc id (by simpa using hid))

theorem changed_createSystem (h : ¬ s.tables.Same (createSystem s p req) res) :
    span s res = [] := by
  unfold createSystem at h
  split at h
  · exact absurd (Tables.Same.refl _ _) h
  split at h
  · exact absurd (Tables.Same.refl _ _) h
  · next db hinsert =>
    unfold Db.insert at hinsert
    split at hinsert
    · next hnew =>
      obtain rfl := Option.some.inj hinsert
      by_cases hres : res = .system req.newID
      · rw [hres]
        exact members_newSystem hnew.1
      refine absurd ?_ h
      cases res with
      | integration id => exact ⟨rfl, rfl, fun _ => rfl⟩
      | system id =>
        have hother : req.newID ≠ id := fun heq => hres (by rw [heq])
        refine ⟨?_, rfl, fun _ => rfl⟩
        simp [hother]
      | service name => exact ⟨rfl, fun _ => rfl⟩
    · cases hinsert

/-- A handler that changes the database and the rows of one system, and of no service outside
the system. -/
theorem atSystem_of_services {db : Db} {rows : Resource → Attached → List Row}
    (hid : req.id = some id) (hservices : ∀ n, n ∉ members s.tables.db id →
      db.services.find? (fun svc => svc.serviceName = n) =
        s.tables.db.services.find? fun svc => svc.serviceName = n)
    (hrows : ∀ r, r ≠ .system id → ∀ a, rows r a = s.tables.rows r a)
    (h : ¬ s.tables.Same { s.tables with db := db, rows := rows } res) :
    AtSystem s req res ∨ ∃ other, res = .system other ∧ req.id ≠ some other := by
  cases res with
  | integration id' => exact absurd ⟨rfl, rfl, fun a => hrows _ (by simp) a⟩ h
  | system id' =>
    by_cases hsame : id' = id
    · exact Or.inl ⟨id, hid, Or.inl (by rw [hsame])⟩
    · refine Or.inr ⟨id', rfl, fun heq => hsame ?_⟩
      rw [hid] at heq
      exact (Option.some.inj heq).symm
  | service n =>
    by_cases hn : n ∈ members s.tables.db id
    · exact Or.inl ⟨id, hid, Or.inr ⟨n, hn, rfl⟩⟩
    · exact absurd ⟨hservices n hn, fun a => hrows _ (by simp) a⟩ h

theorem find?_outside {q : Service → Bool} {f : Service → Service}
    (hname : ∀ svc, (f svc).serviceName = svc.serviceName)
    (hq : ∀ svc, q svc → svc.systemID = some id) {n : String} (hn : n ∉ members s.tables.db id) :
    (updateWhere q f s.tables.db.services).find? (fun svc => svc.serviceName = n) =
      s.tables.db.services.find? fun svc => svc.serviceName = n := by
  refine find?_service_updateWhere hname fun svc hsvc hsame => ?_
  rw [Bool.eq_false_iff]
  intro hsel
  exact hn (hsame ▸ mem_members hsvc (hq svc hsel))

theorem changed_updateSystem (h : ¬ s.tables.Same (updateSystem s p req) res) :
    AtSystem s req res ∨ ∃ other, res = .system other ∧ req.id ≠ some other := by
  unfold updateSystem at h
  split at h
  · exact absurd (Tables.Same.refl _ _) h
  · next id hid =>
    split at h
    · exact absurd (Tables.Same.refl _ _) h
    split at h
    · exact absurd (Tables.Same.refl _ _) h
    · next db hretype =>
      have hservices : db.services = s.tables.db.services := by
        unfold Db.retype at hretype
        split at hretype
        · obtain rfl := Option.some.inj hretype
          rfl
        · cases hretype
      refine atSystem_of_services hid (fun n hn => ?_) (fun _ _ _ => rfl) h
      simp only [Db.resync, hservices]
      refine find?_outside ?_ ?_ hn
      · exact fun _ => rfl
      · exact fun svc hsel => by simpa using hsel

theorem changed_deleteSystem (h : ¬ s.tables.Same (deleteSystem s p req) res) :
    AtSystem s req res ∨ ∃ other, res = .system other ∧ req.id ≠ some other := by
  unfold deleteSystem at h
  split at h
  · exact absurd (Tables.Same.refl _ _) h
  · next id hid =>
    split at h
    · exact absurd (Tables.Same.refl _ _) h
    refine atSystem_of_services hid (fun n hn => ?_) (fun r hr a => by simp [hr]) h
    refine find?_outside ?_ ?_ hn
    · exact fun _ => rfl
    · exact fun svc hsel => by simpa using hsel

theorem changed_detachSystemService (h : ¬ s.tables.Same (detachSystemService s p req) res) :
    AtSystem s req res ∨ ∃ other, res = .system other ∧ req.id ≠ some other := by
  unfold detachSystemService at h
  split at h
  · exact absurd (Tables.Same.refl _ _) h
  · next id hid =>
    refine atSystem_of_services hid (fun n hn => ?_) (fun _ _ _ => rfl) h
    refine find?_outside ?_ ?_ hn
    · exact fun _ => rfl
    · intro svc hsel
      simp only [Bool.and_eq_true, decide_eq_true_eq] at hsel
      exact hsel.2

theorem changed_attachSystemService (h : ¬ s.tables.Same (attachSystemService s p req) res) :
    AtSystem s req res ∨
      (∃ n, res = .service n ∧ s.handlers.canManageService p.toPrincipal n) ∨
      ∃ other, res = .system other ∧ req.id ≠ some other := by
  unfold attachSystemService at h
  split at h
  · exact absurd (Tables.Same.refl _ _) h
  · next id hid =>
    simp only at h
    split at h
    · exact absurd (Tables.Same.refl _ _) h
    · next hguard =>
      simp only [Bool.or_eq_true, not_or, Bool.not_eq_true, Bool.not_eq_false'] at hguard
      split at h
      · exact absurd (Tables.Same.refl _ _) h
      · next sys hfind =>
        cases res with
        | integration id' => exact absurd ⟨rfl, rfl, fun _ => rfl⟩ h
        | system id' =>
          by_cases hsame : id' = id
          · exact Or.inl ⟨id, hid, Or.inl (by rw [hsame])⟩
          · refine Or.inr (Or.inr ⟨id', rfl, fun heq => hsame ?_⟩)
            rw [hid] at heq
            exact (Option.some.inj heq).symm
        | service n =>
          by_cases hn : n = trimSpace req.serviceName
          · exact Or.inr (Or.inl ⟨n, rfl, by rw [hn]; exact hguard.1.2⟩)
          refine absurd ⟨?_, fun _ => rfl⟩ h
          unfold Db.flag
          split
          · refine find?_service_updateWhere ?_ ?_
            · exact fun _ => rfl
            · exact fun svc _ hsvc => by simpa [hsvc] using hn
          · rfl

theorem same_editServices {t : Tables} {r : Resource} {e : Edit} {names : List String}
    (hr : ∀ n ∈ names, r ≠ .service n) :
    t.Same (names.foldl (fun t m => t.edit (.service m) e req) t) r := by
  induction names generalizing t with
  | nil => exact Tables.Same.refl t r
  | cons n names ih =>
    have hhead := same_edit t (hr n List.mem_cons_self) e req
    exact hhead.trans (ih fun m hm => hr m (List.mem_cons_of_mem n hm))

theorem changed_applySystemTemplateAll
    (h : ¬ s.tables.Same (applySystemTemplateAll s p req) res) : AtSystem s req res := by
  unfold applySystemTemplateAll at h
  split at h
  · exact absurd (Tables.Same.refl _ _) h
  · next id hid =>
    split at h
    · exact absurd (Tables.Same.refl _ _) h
    · by_contra hne
      refine h (same_editServices fun n hn heq => hne ?_)
      exact ⟨id, hid, Or.inr ⟨n, (List.mem_filter.1 hn).1, heq⟩⟩

theorem changed_onIntegrationShare (h : ¬ s.tables.Same (onIntegrationShare e s p req) res) :
    ∃ id, res = .integration id ∧ s.handlers.canManageIntegration p.toPrincipal id := by
  unfold onIntegrationShare at h
  split at h
  · next hmanage =>
    obtain ⟨id, hid, hres⟩ := changed_onIntegration h
    rw [hid] at hmanage
    exact ⟨id, hres, hmanage⟩
  · exact absurd (Tables.Same.refl _ _) h

theorem changed_onSystemShare (h : ¬ s.tables.Same (onSystemShare e s p req) res) :
    ∃ id, res = .system id ∧ canManageSystem s p id := by
  unfold onSystemShare at h
  split at h
  · next hmanage =>
    obtain ⟨id, hid, hres⟩ := changed_onSystem h
    rw [hid] at hmanage
    exact ⟨id, hres, hmanage⟩
  · exact absurd (Tables.Same.refl _ _) h

end Reach

/-! ## Route by route -/

theorem integrationRoutes_within : ∀ route ∈ integrationRoutes, route.Within := by
  simp only [integrationRoutes, List.forall_mem_cons]
  exact ⟨fun _ p _ _ h => changed_createIntegration (p := p) h,
    fun _ p _ _ h => Or.inr (changed_cloneIntegration (p := p) h),
    fun _ p _ _ h => Or.inl (changed_updateIntegration (p := p) h),
    fun _ p _ _ h => Or.inl (changed_deleteIntegration (p := p) h),
    fun _ p _ _ h => Or.inl (changed_addMatcher (p := p) h),
    fun _ p _ _ h => Or.inl (changed_replaceMatchers (p := p) h),
    fun _ p _ _ h => Or.inl (changed_onMatchers (p := p) h),
    fun _ p _ _ h => Or.inl (changed_onMatchers (p := p) h),
    fun _ p _ _ h => Or.inl (changed_onIntegration (p := p) h),
    fun _ p _ _ h => Or.inl (changed_onIntegration (p := p) h),
    fun _ p _ _ h => Or.inl (changed_onIntegration (p := p) h),
    fun _ p _ _ h => Or.inl (changed_onIntegration (p := p) h),
    fun _ p _ _ h => Or.inl (changed_putIntegrationMetadata (p := p) h),
    fun _ p _ _ h => Or.inl (changed_onIntegration (p := p) h),
    fun _ _ _ _ _ => trivial, fun _ _ _ _ _ => trivial, fun _ _ _ _ _ => trivial,
    fun _ _ _ _ _ => trivial, fun _ _ _ _ _ => trivial, fun _ _ _ _ _ => trivial,
    fun _ _ _ _ _ => trivial, fun _ _ _ _ _ => trivial,
    fun _ p _ _ h => Or.inl (changed_onIntegrationShare (p := p) h),
    fun _ p _ _ h => Or.inl (changed_onIntegrationShare (p := p) h), by simp⟩

theorem systemRoutes_within : ∀ route ∈ systemRoutes, route.Within := by
  simp only [systemRoutes, List.forall_mem_cons]
  exact ⟨fun _ p _ _ h => changed_createSystem (p := p) h,
    fun _ p _ _ h => (changed_updateSystem (p := p) h).imp_right Or.inr,
    fun _ p _ _ h => (changed_deleteSystem (p := p) h).imp_right Or.inr,
    fun _ p _ _ h => changed_attachSystemService (p := p) h,
    fun _ p _ _ h => (changed_detachSystemService (p := p) h).imp_right Or.inr,
    fun _ p _ _ h => Or.inl (changed_putSystemMetadata (p := p) h),
    fun _ p _ _ h => Or.inl (changed_applySystemTemplateAll (p := p) h),
    fun _ _ _ _ _ => trivial, fun _ _ _ _ _ => trivial,
    fun _ p _ _ h => Or.inr (changed_onSystemShare (p := p) h),
    fun _ p _ _ h => Or.inr (changed_onSystemShare (p := p) h), by simp⟩

theorem serviceRoutes_within : ∀ route ∈ serviceRoutes, route.Within := by
  have hwrapper : ∀ route ∈ serviceRoutes, route.wrapper = .writeService ∨
      route.wrapper = .gateServiceRoute ∨ route.wrapper = .requireAdmin := by
    simp [serviceRoutes]
  intro route hroute s p req res _
  rcases hwrapper route hroute with h | h | h <;> rw [h] <;> trivial

theorem mount_within {route : Route} (h : route ∈ mount) : route.Within := by
  rcases List.mem_append.1 h with h | h
  · rcases List.mem_append.1 h with h | h
    · exact integrationRoutes_within route h
    · exact systemRoutes_within route h
  · exact serviceRoutes_within route h

/-! ## What the checks give -/

section Checks

variable {s : Site} {p : AuthPrincipal} {req : WriteRequest} {res : Resource} {w : Wrapper}

/-- A principal that is not a service account is a user, with the role of a membership. -/
structure UserOf (s : Site) (p : AuthPrincipal) (userID : UUID) : Prop where
  kind : p.kind = .user
  userID_eq : p.userID = some userID
  membership : ∀ orgID, p.orgID = some orgID → ∃ m ∈ s.auth.memberships,
    m.userID = userID ∧ m.orgID = orgID ∧ p.baseRole = some m.role

theorem userOf_userPrincipal {user : UserRow} {m : Option Membership} {active : String}
    (hm : s.auth.activeMembership user.id active = some m) (cap : Role) :
    UserOf s (userPrincipal user m cap) user.id where
  kind := rfl
  userID_eq := rfl
  membership := by
    intro orgID horg
    cases m with
    | none => cases horg
    | some m =>
      obtain ⟨hmem, huser⟩ := activeMembership_mem s.auth hm
      exact ⟨m, hmem, huser, Option.some.inj horg, rfl⟩

theorem userOf_of_not_serviceAccount (hp : Authenticated s p)
    (hsa : p.isServiceAccount = false) : ∃ userID, UserOf s p userID := by
  rcases hp.resolved with ⟨userID, active, h⟩ | ⟨tok, active, h⟩
  · unfold principalFromSession at h
    split at h
    · cases h
    · next user huser =>
      have hid : user.id = userID := by simpa using List.find?_some huser
      subst hid
      split at h
      · cases h
      · next m hm =>
        obtain rfl := Option.some.inj h
        exact ⟨user.id, userOf_userPrincipal hm .unknown⟩
  · unfold principalFromToken at h
    split at h
    · next userID _ =>
      split at h
      · cases h
      · next user huser =>
        have hid : user.id = userID := by simpa using List.find?_some huser
        subst hid
        split at h
        · cases h
        · next m hm =>
          obtain rfl := Option.some.inj h
          exact ⟨user.id, userOf_userPrincipal hm _⟩
    · split at h
      · cases h
      · obtain rfl := Option.some.inj h
        simp [Principal.isServiceAccount] at hsa

theorem editsSomewhere_of_manages {n : String} (h : Manages s p n) : EditsSomewhere s p := by
  obtain ⟨ref, sets, href, hsets, hn⟩ := h
  have hres := resolveAccessSetsMember_eq_ok hsets
  have hpolicy : ∃ q, q ∈ managedPolicies (s.handlers.identity.memberPolicies ref) := by
    rcases (hres.manages_iff n).1 hn with ⟨q, hq, _⟩ | ⟨q, hq, _⟩ <;> exact ⟨q, hq⟩
  obtain ⟨q, hq⟩ := hpolicy
  obtain ⟨up, hup, _⟩ := List.mem_map.1 hq
  obtain ⟨hup, hkeep⟩ := List.mem_filter.1 hup
  rw [Bool.and_eq_true] at hkeep
  obtain ⟨q', _, hup⟩ := List.mem_flatMap.1 hup
  obtain ⟨gm, hgm, rfl⟩ := List.mem_map.1 hup
  obtain ⟨hgm, hsel⟩ := List.mem_filter.1 hgm
  rw [Bool.and_eq_true, decide_eq_true_eq] at hsel
  exact ⟨ref, href, gm, hgm, hsel.1, hkeep.1⟩

/-- What `canManageService` admits of a user: the role, or the managed set. -/
theorem canManageService_user {n : String} {userID : UUID} (hu : UserOf s p userID)
    (hsa : p.isServiceAccount = false) (h : s.handlers.canManageService p.toPrincipal n) :
    p.role.canWrite ∨
      (s.handlers.rbacAdvanced ∧ p.scopeCapped = false ∧ Manages s p n) := by
  by_cases hrole : p.role.canWrite = true
  · exact Or.inl hrole
  refine Or.inr ?_
  have hmember : memberOf p = some (.user userID) := by
    simp [memberOf, hu.kind, hu.userID_eq]
  simp only [Handlers.canManageService, Handlers.managedServiceFilter, hsa, hu.userID_eq,
    Bool.false_eq_true, if_false, hrole] at h
  by_cases hcapped : p.scopeCapped = true
  · simp [hcapped] at h
  by_cases hrbac : s.handlers.rbacAdvanced = true
  · simp only [hcapped, hrbac, Bool.not_true, Bool.false_eq_true, if_false] at h
    refine ⟨hrbac, by simpa using hcapped, ?_⟩
    cases hsets : s.handlers.identity.resolveAccessSetsMember (.user userID) with
    | error msg => simp [hsets] at h
    | ok sets =>
      refine ⟨.user userID, sets, hmember, hsets, ?_⟩
      cases hall : sets.managedAll with
      | true => exact Or.inl hall
      | false => exact Or.inr (by simpa [hsets, hall] using h)
  · simp [hcapped, hrbac] at h

theorem canManageIntegration_span {id : UUID} (h : s.handlers.canManageIntegration p.toPrincipal id) :
    ∀ n ∈ span s (.integration id), s.handlers.canManageService p.toPrincipal n := by
  intro n hn
  cases hmanaged : s.handlers.managedServiceFilter p.toPrincipal with
  | none => simp only [Handlers.canManageService, hmanaged]
  | some managed =>
    simp only [Handlers.canManageIntegration, hmanaged] at h
    simp only [Handlers.canManageService, hmanaged]
    split at h
    · cases h
    · next names hnames =>
      simp only [Catalog.integrationExpander, bind_eq_ok, readRows_eq_ok] at hnames
      obtain ⟨_, _, _, rfl⟩ := hnames
      simpa using List.all_eq_true.1 h n hn

theorem canManageSystem_span {id : UUID} (h : canManageSystem s p id) :
    ∀ n ∈ members s.tables.db id, s.handlers.canManageService p.toPrincipal n := by
  intro n hn
  cases hmanaged : s.handlers.managedServiceFilter p.toPrincipal with
  | none => simp only [Handlers.canManageService, hmanaged]
  | some managed =>
    simp only [canManageSystem, hmanaged] at h
    simp only [Handlers.canManageService, hmanaged]
    split at h
    · cases h
    · next names hnames =>
      simp only [Catalog.systemMemberNames, wrapErr_eq_ok, readRows_eq_ok, s.services_eq] at hnames
      obtain ⟨_, rfl⟩ := hnames
      simpa using List.all_eq_true.1 h n hn

/-- Who passes `writeAnywhere`: a writer, or an uncapped user who is an editor in some group. -/
theorem writeAnywhere_admits (hp : Authenticated s p) (h : s.handlers.writeAnywhere s.auth p) :
    p.role.canWrite ∨ (s.handlers.rbacAdvanced ∧ p.scopeCapped = false ∧
      p.isServiceAccount = false ∧ EditsSomewhere s p) := by
  by_cases hrole : p.role.canWrite = true
  · exact Or.inl hrole
  refine Or.inr ?_
  have hrole' : p.role.canWrite = false := by simpa using hrole
  unfold Handlers.writeAnywhere at h
  split at h
  · next hrbac =>
    have hkind : p.kind = .user := by
      by_contra hkind
      have hsa : p.kind = .serviceAccount := by
        cases hk : p.kind with
        | user => exact absurd hk hkind
        | serviceAccount => rfl
      simp [requireWriteAnywhere, hrole', hsa] at h
    have hsa : p.isServiceAccount = false := by simp [Principal.isServiceAccount, hkind]
    obtain ⟨userID, hu⟩ := userOf_of_not_serviceAccount hp hsa
    obtain ⟨hcapped, userID', orgID, huser, horg, hany⟩ :=
      (requireWriteAnywhere_user s.auth hkind hrole').1 h
    obtain rfl : userID = userID' := Option.some.inj (hu.userID_eq.symm.trans huser)
    refine ⟨hrbac, hcapped, hsa, .user userID, by simp [memberOf, hkind, huser], ?_⟩
    rw [canUserWriteAnywhere, Bool.or_eq_true, List.any_eq_true] at hany
    rcases hany with ⟨m', hm', hsel⟩ | hgroup
    · -- the membership that may write is the one that the principal's role is of
      simp only [Bool.and_eq_true, decide_eq_true_eq] at hsel
      obtain ⟨m, hm, hmu, hmo, hbase⟩ := hu.membership orgID horg
      have hone : m = m' := eq_of_key_eq s.membershipKey hm hm' (by
        rw [hmu, hmo, hsel.1.1, hsel.1.2])
      have hread : p.readRole = p.role := (scopeCapped_eq_false_iff p.toPrincipal).1 hcapped
      have hsame : p.role = m.role := by
        rw [← hread]
        simp [Principal.readRole, hbase]
      rw [hsame, hone, hsel.2] at hrole'
      cases hrole'
    · rw [groupRoleAny, List.any_eq_true] at hgroup
      obtain ⟨gm, hgm, hsel⟩ := hgroup
      simp only [Bool.and_eq_true, decide_eq_true_eq, List.any_eq_true] at hsel
      obtain ⟨⟨hmem, hwrite⟩, g, hg, hgid, hgorg⟩ := hsel
      have hhere : g.orgID = s.orgID := hgorg.trans (hp.org orgID horg)
      exact ⟨gm, (s.groups_eq gm).2 ⟨hgm, g, hg, hgid, hhere⟩, hmem, hwrite⟩
  · rw [requireRole, hrole'] at h
    cases h

/-! ## Wrapper by wrapper -/

theorem mayWrite_of_role (hrole : p.role.canWrite) (hhere : ¬ Foreign s res) :
    MayWrite s p res := by
  refine ⟨⟨hhere, Or.inl hrole⟩, fun hviewer => ?_⟩
  rw [hviewer] at hrole
  cases hrole

/-- Behind `writeAnywhere`, managing what the resource spans is enough. -/
theorem mayWrite_of_writeAnywhere (hp : Authenticated s p)
    (hwrite : s.handlers.writeAnywhere s.auth p) (hhere : ¬ Foreign s res)
    (hspan : ∀ n ∈ span s res, s.handlers.canManageService p.toPrincipal n) : MayWrite s p res := by
  rcases writeAnywhere_admits hp hwrite with hrole | ⟨hrbac, hcapped, hsa, hedits⟩
  · exact mayWrite_of_role hrole hhere
  · by_cases hrole : p.role.canWrite = true
    · exact mayWrite_of_role hrole hhere
    obtain ⟨userID, hu⟩ := userOf_of_not_serviceAccount hp hsa
    refine ⟨⟨hhere, Or.inr ⟨hrbac, hcapped, fun n hn => ?_⟩⟩, fun _ => hedits⟩
    exact ((canManageService_user hu hsa (hspan n hn)).resolve_left hrole).2.2

/-- Without `writeAnywhere`, managing what the resource spans is enough for a user, if it spans
something. -/
theorem mayWrite_of_span (hp : Authenticated s p) (hsa : p.isServiceAccount = false)
    (hhere : ¬ Foreign s res) (hne : span s res ≠ [])
    (hspan : ∀ n ∈ span s res, s.handlers.canManageService p.toPrincipal n) : MayWrite s p res := by
  by_cases hrole : p.role.canWrite = true
  · exact mayWrite_of_role hrole hhere
  obtain ⟨userID, hu⟩ := userOf_of_not_serviceAccount hp hsa
  have hmanages := fun n hn =>
    (canManageService_user hu hsa (hspan n hn)).resolve_left hrole
  obtain ⟨n, hn⟩ := List.exists_mem_of_ne_nil _ hne
  obtain ⟨hrbac, hcapped, hfirst⟩ := hmanages n hn
  exact ⟨⟨hhere, Or.inr ⟨hrbac, hcapped, fun m hm => (hmanages m hm).2.2⟩⟩,
    fun _ => editsSomewhere_of_manages hfirst⟩

theorem mayWrite_of_asked (hp : Authenticated s p) (hadmits : w.admits s p req)
    (hreach : w.Reach s p req res) (hasked : ¬ w.Unasked s p req res) : MayWrite s p res := by
  obtain ⟨hhere, hasked⟩ := not_or.1 hasked
  cases w with
  | writeAnywhere =>
    have hspan : span s res = [] := hreach
    exact mayWrite_of_writeAnywhere hp hadmits hhere (by simp [hspan])
  | manageIntegration =>
    simp only [Wrapper.admits, Bool.and_eq_true] at hadmits
    refine mayWrite_of_writeAnywhere hp hadmits.1 hhere ?_
    rcases hreach with ⟨id, hid, rfl⟩ | hspan
    · have hmanage := hadmits.2
      rw [requireManageIntegration, hid] at hmanage
      exact canManageIntegration_span hmanage
    · simp [hspan]
  | manageSystem =>
    simp only [Wrapper.admits, Bool.and_eq_true] at hadmits
    refine mayWrite_of_writeAnywhere hp hadmits.1 hhere ?_
    rcases hreach with ⟨id, hid, hres⟩ | ⟨n, rfl, hmanage⟩ | ⟨other, hres, hother⟩
    · have hmanage := hadmits.2
      rw [requireManageSystem, hid] at hmanage
      have hmembers := canManageSystem_span hmanage
      rcases hres with rfl | ⟨n, hn, rfl⟩
      · exact hmembers
      · intro m hm
        rw [List.mem_singleton.1 hm]
        exact hmembers n hn
    · intro m hm
      rw [List.mem_singleton.1 hm]
      exact hmanage
    · exact absurd ⟨other, hres, hother⟩ hasked
  | requireAdmin =>
    have hadmin : p.role.canAdmin := hadmits
    refine mayWrite_of_role ?_ hhere
    rw [Role.canWrite_iff]
    exact le_trans (by decide) ((Role.canAdmin_iff _).1 hadmin)
  | shareEE =>
    simp only [not_or, Bool.not_eq_true] at hasked
    refine mayWrite_of_span hp hasked.1 hhere hasked.2 ?_
    rcases hreach with ⟨id, rfl, hmanage⟩ | ⟨id, rfl, hmanage⟩
    · exact canManageIntegration_span hmanage
    · exact canManageSystem_span hmanage
  | writeService =>
    simp only [not_or, Bool.not_eq_true, not_not] at hasked
    obtain ⟨hsa, hname, rfl⟩ := hasked
    simp only [Wrapper.admits, requireManageService, hname, Bool.and_eq_true, decide_false,
      Bool.false_or] at hadmits
    refine mayWrite_of_span hp hsa hhere (by simp [span]) fun m hm => ?_
    rw [List.mem_singleton.1 hm]
    exact hadmits.2
  | gateServiceRoute => exact absurd trivial hasked

end Checks

private def acme : AuthStore where
  users := [{ id := 7 }, { id := 8 }]
  memberships := [⟨7, 1, "acme", .viewer, 0⟩, ⟨8, 1, "acme", .editor, 0⟩]
  serviceAccounts := [{ id := 4, orgID := 1, role := .viewer, scope := .orgWide }]
  groups := [⟨11, 1⟩]
  groupMembers := [⟨11, .user 7, .viewer⟩]

private theorem acme_references : ∀ svc ∈ [(⟨"orders", false, "", none⟩ : Service)],
    ∀ id, svc.systemID = some id →
      id ∈ ([] : List Catalog.Systems.System).map Catalog.Systems.System.id := by
  intro svc hsvc id hid
  rw [List.mem_singleton.1 hsvc] at hid
  cases hid

private theorem acme_serviceKey :
    ([(⟨"orders", false, "", none⟩ : Service)].map Service.serviceName).Nodup :=
  List.nodup_singleton _

private def acmeTables : Tables where
  db :=
    { services := [⟨"orders", false, "", none⟩]
      systems := []
      serviceKey := acme_serviceKey
      systemKey := List.nodup_nil
      nameKey := List.nodup_nil
      references := acme_references }
  integrations := [⟨30, 1, "invoices"⟩, ⟨31, 2, "payroll"⟩]
  rows := fun r a =>
    if r = .service "orders" ∧ a = .healthChecks then
      [{ key := 50, name := "queue depth", pushed := true }]
    else []

private def acmeSite : Site where
  auth := acme
  handlers :=
    { identity :=
        { policies := [{ id := 1, groupID := 11, kind := .allOrg, signals := [] }]
          policyKey := List.nodup_singleton _
          members := [⟨11, .user 7, .viewer⟩]
          shares := []
          attributes := []
          catalog :=
            { services := [⟨"orders", false, "", none⟩]
              serviceKey := acme_serviceKey
              systems := []
              integrations := [⟨30, "invoices"⟩]
              matched := fun _ => []
              attached := fun _ => [] }
          compile := fun _ => none } }
  orgID := 1
  tables := acmeTables
  services_eq := rfl
  integrationKey := by decide
  unmatched := fun _ _ => rfl
  membershipKey := by decide
  groups_eq := fun gm => by
    constructor
    · intro hgm
      rw [List.mem_singleton.1 hgm]
      exact ⟨List.mem_cons_self, ⟨11, 1⟩, List.mem_cons_self, rfl, rfl⟩
    · exact fun hgm => hgm.1

private def acmeViewer : AuthPrincipal :=
  userPrincipal { id := 7 } (some ⟨7, 1, "acme", .viewer, 0⟩) .unknown

private def acmeEditor : AuthPrincipal :=
  userPrincipal { id := 8 } (some ⟨8, 1, "acme", .editor, 0⟩) .unknown

private def acmeBot : AuthPrincipal :=
  { kind := .serviceAccount
    serviceAccountID := some 4
    saScope := .orgWide
    orgID := some 1
    role := .viewer
    baseRole := some .viewer }

private theorem acmeViewer_authenticated : Authenticated acmeSite acmeViewer where
  org := fun _ h => (Option.some.inj h).symm
  resolved := Or.inl ⟨7, "", by decide +kernel⟩

private theorem acmeEditor_authenticated : Authenticated acmeSite acmeEditor where
  org := fun _ h => (Option.some.inj h).symm
  resolved := Or.inl ⟨8, "", by decide +kernel⟩

private theorem acmeBot_authenticated : Authenticated acmeSite acmeBot where
  org := fun _ h => (Option.some.inj h).symm
  resolved := Or.inr ⟨⟨.serviceAccount 4, "ci", "", none⟩, "", by decide +kernel⟩

end Sluicio.Api.WriteRoutes
