import Mathlib.Data.String.Basic
import Sluicio.Integrations.Resolver
import Sluicio.Lib.Ordered

/-!
# The catalog reconciler

One pass discovers the services in the telemetry, adds them to the catalog, and rewrites the
services stored for the integrations from their matchers.  It reads the matchers joined with
their integrations, so it comes to an integration only through a matcher.
-/

namespace Sluicio.Catalog.Reconciler

open Lib
open Integrations (Matcher Integration MatcherWithIntegration allMatchersWithIntegration)

/-- A service seen in the telemetry, or a row of `services`. -/
structure Discovery where
  serviceName : String
  serviceNamespace : String
  firstSeen : Int
  lastSeen : Int

/-- A row of `integration_services`. -/
structure Member where
  integrationID : UUID
  organizationID : UUID
  serviceName : String
  matchedAt : Int
  deriving DecidableEq

/-- What the reconciler reads and writes; `services` are one organization's. -/
structure Tables where
  services : List Discovery
  integrations : List Integration
  matchers : List MatcherWithIntegration
  members : List Member

/-- The `DO UPDATE` of `UpsertServices`. -/
def merged (new old : Discovery) : Discovery where
  serviceName := old.serviceName
  serviceNamespace :=
    if new.serviceNamespace = "" then old.serviceNamespace else new.serviceNamespace
  firstSeen := min old.firstSeen new.firstSeen
  lastSeen := max old.lastSeen new.lastSeen

/-- One statement of `UpsertServices`. -/
def upsertService (services : List Discovery) (d : Discovery) : List Discovery :=
  if d.serviceName ∈ services.map Discovery.serviceName then
    updateWhere (fun row => row.serviceName = d.serviceName) (merged d) services
  else services ++ [d]

open Discovery

def upsertServices (services : List Discovery) (found : List Discovery) : List Discovery :=
  found.foldl upsertService services

/-- The names that `AllServices` returns. -/
def serviceNames (services : List Discovery) : List String :=
  (orderBy serviceName services).map serviceName

section Projection

variable (compile : String → Option (String → Bool))

def projectMatchers (matchers : List Matcher) (services : List String) : List String :=
  if matchers.filter Matcher.isServiceMatcher = [] then []
  else
    services.filter fun name =>
      (matchers.filter Matcher.isServiceMatcher).any fun m => m.matchService compile name

/-- The matchers that the pass has for an integration: `byInteg[id]`. -/
def matchersOf (t : Tables) (org id : UUID) : List Matcher :=
  ((allMatchersWithIntegration t.matchers org).filter fun mi => mi.integration.id = id).map
    MatcherWithIntegration.matcher

/-- The integrations that the pass comes to: the keys of `byInteg`. -/
def reached (t : Tables) (org : UUID) : List UUID :=
  ((allMatchersWithIntegration t.matchers org).map fun mi => mi.integration.id).eraseDups

/-- `ReplaceIntegrationServices`: every row of the integration is deleted, and a row inserted
for each name. -/
def replaceIntegrationServices (members : List Member) (id org : UUID) (now : Int)
    (next : List String) : List Member :=
  members.filter (fun m => m.integrationID ≠ id) ++
    next.eraseDups.map fun name => ⟨id, org, name, now⟩

/-- What a pass meets: what it discovers, and which statements fail. -/
structure Pass where
  now : Int
  discovered : Except String (List Discovery)
  upsertFails : Option String := none
  allServicesFails : Option String := none
  allMatchersFails : Option String := none
  rewriteFails : UUID → Bool := fun _ => false

/-- The loop over `byInteg`; a rewrite that fails is passed over. -/
def rewriteMembers (t : Tables) (org : UUID) (p : Pass) (ids : List UUID) : List Member :=
  ids.foldl
    (fun members id =>
      if p.rewriteFails id then members
      else
        replaceIntegrationServices members id org p.now
          (projectMatchers compile (matchersOf t org id) (serviceNames t.services)))
    t.members

/-- `RunOnce`: the tables it leaves, and whether it returns no error. -/
def runOnce (org : UUID) (p : Pass) (t : Tables) : Tables × Bool :=
  match p.discovered with
  | .error _ => (t, false)
  | .ok found =>
    match p.upsertFails with
    | some _ => (t, false)
    | none =>
      let upserted := { t with services := upsertServices t.services found }
      match p.allServicesFails, p.allMatchersFails with
      | none, none =>
        ({ upserted with
            members := rewriteMembers compile upserted org p (reached upserted org) }, true)
      | _, _ => (upserted, false)

end Projection

/-! ## What one rewrite stores -/

/-- The service is stored for the integration. -/
def Stored (members : List Member) (id : UUID) (name : String) : Prop :=
  ∃ m ∈ members, m.integrationID = id ∧ m.serviceName = name

instance (members : List Member) (id : UUID) (name : String) : Decidable (Stored members id name) :=
  inferInstanceAs (Decidable (∃ m ∈ members, _))

theorem stored_replaceIntegrationServices (members : List Member) (id org : UUID) (now : Int)
    (next : List String) (id' : UUID) (name : String) :
    Stored (replaceIntegrationServices members id org now next) id' name ↔
      if id' = id then name ∈ next else Stored members id' name := by
  unfold Stored replaceIntegrationServices
  by_cases hid : id' = id
  · subst hid
    rw [if_pos rfl]
    constructor
    · intro h
      obtain ⟨m, hm, hmid, rfl⟩ := h
      rcases List.mem_append.1 hm with hold | hnew
      · have hother : m.integrationID ≠ id' := by simpa using (List.mem_filter.1 hold).2
        exact absurd hmid hother
      · obtain ⟨n, hn, rfl⟩ := List.mem_map.1 hnew
        exact List.mem_eraseDups.1 hn
    · intro hname
      have hrow : (⟨id', org, name, now⟩ : Member) ∈
          next.eraseDups.map fun n => (⟨id', org, n, now⟩ : Member) :=
        List.mem_map.2 ⟨name, List.mem_eraseDups.2 hname, rfl⟩
      exact ⟨_, List.mem_append_right _ hrow, rfl, rfl⟩
  · rw [if_neg hid]
    constructor
    · intro h
      obtain ⟨m, hm, rfl, rfl⟩ := h
      rcases List.mem_append.1 hm with hold | hnew
      · exact ⟨m, (List.mem_filter.1 hold).1, rfl, rfl⟩
      · obtain ⟨n, hn, rfl⟩ := List.mem_map.1 hnew
        exact absurd rfl hid
    · intro h
      obtain ⟨m, hm, rfl, rfl⟩ := h
      have hkept : m ∈ members.filter fun m => m.integrationID ≠ id :=
        List.mem_filter.2 ⟨hm, by simpa using hid⟩
      exact ⟨m, List.mem_append_left _ hkept, rfl, rfl⟩

section Projection

variable {compile : String → Option (String → Bool)}

/-- The loop stores for every integration it comes to what its matchers select, unless its
rewrite fails. -/
theorem stored_rewriteMembers (t : Tables) (org : UUID) (p : Pass) (ids : List UUID)
    (id : UUID) (name : String) :
    Stored (rewriteMembers compile t org p ids) id name ↔
      if id ∈ ids ∧ p.rewriteFails id = false then
        name ∈ projectMatchers compile (matchersOf t org id) (serviceNames t.services)
      else Stored t.members id name := by
  unfold rewriteMembers
  induction ids using List.reverseRecOn with
  | nil => simp
  | append_singleton ids last ih =>
    rw [List.foldl_append, List.foldl_cons, List.foldl_nil]
    by_cases hfails : p.rewriteFails last = true
    · rw [if_pos hfails, ih]
      by_cases hid : id = last
      · subst hid
        simp [hfails]
      · simp [hid]
    rw [if_neg hfails, stored_replaceIntegrationServices]
    have hsucceeds : p.rewriteFails last = false := by simpa using hfails
    by_cases hid : id = last
    · subst hid
      simp [hsucceeds]
    · rw [if_neg hid, ih]
      simp [hid]

variable {t : Tables} {p : Pass} {org : UUID}

theorem mem_reached {id : UUID} :
    id ∈ reached t org ↔
      ∃ mi ∈ t.matchers, mi.integration.organizationID = org ∧ mi.integration.id = id := by
  unfold reached allMatchersWithIntegration
  rw [List.mem_eraseDups, List.mem_map]
  constructor
  · intro h
    obtain ⟨mi, hmi, hid⟩ := h
    have hkept := List.mem_filter.1 hmi
    exact ⟨mi, hkept.1, by simpa using hkept.2, hid⟩
  · intro h
    obtain ⟨mi, hmi, horg, hid⟩ := h
    exact ⟨mi, List.mem_filter.2 ⟨hmi, by simpa using horg⟩, hid⟩

/-! ## What a pass leaves -/

theorem runOnce_ok (h : (runOnce compile org p t).2) :
    ∃ found, p.discovered = .ok found ∧
      (runOnce compile org p t).1 =
        { t with
          services := upsertServices t.services found
          members :=
            rewriteMembers compile { t with services := upsertServices t.services found } org p
              (reached t org) } := by
  unfold runOnce at h ⊢
  cases hfound : p.discovered with
  | error e =>
    rw [hfound] at h
    exact nomatch h
  | ok found =>
    refine ⟨found, rfl, ?_⟩
    rw [hfound] at h
    cases hupsert : p.upsertFails with
    | some e =>
      rw [hupsert] at h
      exact nomatch h
    | none =>
      rw [hupsert] at h
      cases hservices : p.allServicesFails with
      | some e =>
        rw [hservices] at h
        exact nomatch h
      | none =>
        cases hmatchers : p.allMatchersFails with
        | some e =>
          rw [hservices, hmatchers] at h
          exact nomatch h
        | none => rfl

theorem map_serviceName_upsertServices {services found : List Discovery}
    (h : ∀ d ∈ found, d.serviceName ∈ services.map serviceName) :
    (upsertServices services found).map serviceName =
      services.map serviceName := by
  unfold upsertServices
  induction found generalizing services with
  | nil => rfl
  | cons d found ih =>
    have hnames : (upsertService services d).map serviceName =
        services.map serviceName := by
      rw [upsertService, if_pos (h d List.mem_cons_self)]
      exact @map_updateWhere _ _ _ (merged d) serviceName (fun _ => rfl) services
    rw [List.foldl_cons, ih, hnames]
    intro d' hd'
    rw [hnames]
    exact h d' (List.mem_cons_of_mem _ hd')

theorem serviceNames_congr {services services' : List Discovery}
    (h : services.map serviceName = services'.map serviceName) :
    serviceNames services = serviceNames services' := by
  have hnames : ∀ rows : List Discovery,
      serviceNames rows = orderBy id (rows.map serviceName) :=
    fun rows =>
      @map_orderBy _ _ _ _ serviceName id serviceName (fun _ => rfl) rows
  rw [hnames, hnames, h]

/-- The integrations that have a matcher, and whose rewrite does not fail, store what their
matchers select. -/
theorem stored_runOnce (h : (runOnce compile org p t).2) (id : UUID) (name : String) :
    Stored (runOnce compile org p t).1.members id name ↔
      if id ∈ reached t org ∧ p.rewriteFails id = false then
        name ∈ projectMatchers compile (matchersOf t org id)
          (serviceNames (runOnce compile org p t).1.services)
      else Stored t.members id name := by
  obtain ⟨found, -, hleft⟩ := runOnce_ok h
  rw [hleft]
  exact stored_rewriteMembers _ org p (reached t org) id name

theorem matchers_runOnce (h : (runOnce compile org p t).2) :
    (runOnce compile org p t).1.matchers = t.matchers := by
  obtain ⟨found, -, hleft⟩ := runOnce_ok h
  rw [hleft]

theorem serviceNames_runOnce (h : (runOnce compile org p t).2)
    (hknown : ∀ found, p.discovered = .ok found →
      ∀ d ∈ found, d.serviceName ∈ t.services.map serviceName) :
    serviceNames (runOnce compile org p t).1.services = serviceNames t.services := by
  obtain ⟨found, hfound, hleft⟩ := runOnce_ok h
  rw [hleft]
  exact serviceNames_congr (map_serviceName_upsertServices (hknown found hfound))

/-- **The reconciler converges for the integrations that have a matcher.**  After a pass without
an error, each of them whose rewrite succeeded stores exactly what its matchers select; a second
pass that discovers nothing new leaves the services stored for every integration as they were. -/
theorem stored_iff_projectMatchers {org : UUID} {p : Pass} {t : Tables}
    (h : (runOnce compile org p t).2) :
    (∀ mi ∈ t.matchers, mi.integration.organizationID = org →
      p.rewriteFails mi.integration.id = false →
      ∀ name, Stored (runOnce compile org p t).1.members mi.integration.id name ↔
        name ∈ projectMatchers compile
          (matchersOf (runOnce compile org p t).1 org mi.integration.id)
          (serviceNames (runOnce compile org p t).1.services)) ∧
      ∀ again : Pass,
        (runOnce compile org again (runOnce compile org p t).1).2 →
        (∀ found, again.discovered = .ok found → ∀ d ∈ found,
          d.serviceName ∈ (runOnce compile org p t).1.services.map serviceName) →
        ∀ id, p.rewriteFails id = false → ∀ name,
          Stored (runOnce compile org again (runOnce compile org p t).1).1.members id name ↔
            Stored (runOnce compile org p t).1.members id name := by
  have hmatchers := matchers_runOnce h
  have hsame : ∀ id, matchersOf (runOnce compile org p t).1 org id = matchersOf t org id := by
    intro id
    unfold matchersOf
    rw [hmatchers]
  constructor
  · intro mi hmi horg hsucceeds name
    have hreached : mi.integration.id ∈ reached t org := mem_reached.2 ⟨mi, hmi, horg, rfl⟩
    rw [stored_runOnce h, if_pos ⟨hreached, hsucceeds⟩, hsame]
  · intro again hagain hknown id hsucceeds name
    have hreached : id ∈ reached (runOnce compile org p t).1 org ↔ id ∈ reached t org := by
      unfold reached
      rw [hmatchers]
    rw [stored_runOnce hagain, serviceNames_runOnce hagain hknown, hsame]
    by_cases hcome : id ∈ reached t org ∧ again.rewriteFails id = false
    · -- Both passes rewrite the integration, over the same names.
      rw [if_pos ⟨hreached.2 hcome.1, hcome.2⟩, stored_runOnce h, if_pos ⟨hcome.1, hsucceeds⟩]
    · rw [if_neg fun hc => hcome ⟨hreached.1 hc.1, hc.2⟩]

end Projection

private def billingIntegration : Integration := ⟨10, 1, "billing"⟩

private def oneMatcher : Tables where
  services := [⟨"orders", "", 0, 50⟩]
  integrations := [billingIntegration]
  matchers := [⟨⟨"service.name", .equals, "orders"⟩, billingIntegration⟩]
  members := []

private def noMatcher : Tables :=
  { oneMatcher with matchers := [], members := [⟨10, 1, "orders", 60⟩] }

private def passAt (now : Int) : Pass := { now := now, discovered := .ok [⟨"orders", "", 0, 50⟩] }

theorem stored_iff_projectMatchers_oneMatcher :
    (runOnce (fun _ => none) 1 (passAt 60) oneMatcher).2 ∧
      ∀ name, Stored (runOnce (fun _ => none) 1 (passAt 60) oneMatcher).1.members 10 name ↔
        name ∈ projectMatchers (fun _ => none)
          (matchersOf (runOnce (fun _ => none) 1 (passAt 60) oneMatcher).1 1 10)
          (serviceNames (runOnce (fun _ => none) 1 (passAt 60) oneMatcher).1.services) := by
  have hok : (runOnce (fun _ => none) 1 (passAt 60) oneMatcher).2 := by decide
  exact ⟨hok, (stored_iff_projectMatchers hok).1
    ⟨⟨"service.name", .equals, "orders"⟩, billingIntegration⟩ List.mem_cons_self rfl rfl⟩

/-- The services of an integration that has lost its last matcher stay stored, and a second pass
with nothing changed writes the rows of an integration again. -/
theorem members_kept_and_rewritten :
    ((runOnce (fun _ => none) 1 (passAt 60) noMatcher).2 ∧
      ∃ i ∈ noMatcher.integrations,
        Stored (runOnce (fun _ => none) 1 (passAt 60) noMatcher).1.members i.id "orders" ∧
        projectMatchers (fun _ => none)
          (matchersOf (runOnce (fun _ => none) 1 (passAt 60) noMatcher).1 1 i.id)
          (serviceNames (runOnce (fun _ => none) 1 (passAt 60) noMatcher).1.services) = []) ∧
      (runOnce (fun _ => none) 1 (passAt 60) oneMatcher).1.members = [⟨10, 1, "orders", 60⟩] ∧
      (runOnce (fun _ => none) 1 (passAt 90)
        (runOnce (fun _ => none) 1 (passAt 60) oneMatcher).1).1.members =
        [⟨10, 1, "orders", 90⟩] := by
  decide

end Sluicio.Catalog.Reconciler
