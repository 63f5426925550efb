import Sluicio.Identity.Policies

/-!
# System-targeted policies

A `kind=system` policy may state a system id, a system kind and a name pattern.
This file says which services belong to a system that satisfies all three, and
compares that with what `composeAccess` grants.
-/

namespace Sluicio.Identity

open Lib

def Store.acceptedSystems (s : Store) (expr : PolicyExpr) : List NamedEntity :=
  s.catalog.systems.filter fun e =>
    e.name ∈ evalExpr ⟨s.catalog.systems.map NamedEntity.name, fun _ _ => none, s.compile⟩ expr

def AccessPolicy.IdAndKind (p : AccessPolicy) (svc : Service) : Prop :=
  (∀ id, p.targetSystemID = some id → svc.systemID = some id) ∧
  (∀ kind, p.targetSystemKind = some kind → kind = "" ∨ svc.systemKind = kind)

/-- The service is a system's, and that system satisfies everything the policy
states: the id, the kind and the name pattern. -/
def Store.SatisfiesSystemPolicy (s : Store) (p : AccessPolicy) (svc : Service) :
    Prop :=
  (svc.isSystem ∨ svc.systemID ≠ none) ∧ p.IdAndKind svc ∧
  (∀ expr, p.conditions = some expr → ∃ e ∈ s.acceptedSystems expr, svc.systemID = some e.id)

/-- Every service the policy's most specific field reaches also has the id and
the kind the policy states: with a pattern, the members of every accepted
system; else, with an id, that system's members. -/
def Store.FieldsAgree (s : Store) (p : AccessPolicy) : Prop :=
  match p.conditions with
  | some expr => ∀ e ∈ s.acceptedSystems expr, ∀ svc ∈ s.catalog.services,
      svc.systemID = some e.id → p.IdAndKind svc
  | none => ∀ svc ∈ s.catalog.services,
      p.targetSystemID ≠ none → svc.systemID = p.targetSystemID → p.IdAndKind svc

/-- `is_system` is kept in sync with membership in a system. -/
def Store.FlagsInSync (s : Store) : Prop :=
  ∀ svc ∈ s.catalog.services, svc.systemID ≠ none → svc.isSystem

variable {p : AccessPolicy} {s : Store}

theorem matchEntities_eq_ok {expr : PolicyExpr} {matched : List NamedEntity}
    (h : s.matchEntities expr s.catalog.listSystems = .ok matched) :
    matched = s.acceptedSystems expr := by
  simp only [Store.matchEntities, Catalog.listSystems, bind_eq_ok, readRows_eq_ok, pure_eq_ok] at h
  obtain ⟨_, ⟨_, rfl⟩, rfl⟩ := h
  rfl

/-- What a system policy grants, field by field as the code resolves it: a
pattern decides alone, else an id decides alone, else the kind filters. -/
theorem composeSystem_eq_ok {a : EffectiveAccess} (h : s.composeSystem p = .ok a) (n : String) :
    n ∈ a.services ↔ ∃ svc ∈ s.catalog.services, svc.serviceName = n ∧
      match p.conditions, p.targetSystemID with
      | some expr, _ => ∃ e ∈ s.acceptedSystems expr, svc.systemID = some e.id
      | none, some id => svc.systemID = some id
      | none, none => svc.isSystem ∧
          (p.targetSystemKind.getD "" = "" ∨ svc.systemKind = p.targetSystemKind.getD "") := by
  unfold Store.composeSystem at h
  cases hc : p.conditions with
  | some expr =>
    simp only [hc, bind_eq_ok, wrapErr_eq_ok, pure_eq_ok] at h
    obtain ⟨matched, hmatched, svcs, hsvcs, rfl⟩ := h
    obtain rfl := matchEntities_eq_ok hmatched
    simp only [List.mem_toFinset, mem_of_collect_eq_ok hsvcs, wrapErr_eq_ok,
      Catalog.systemExpander_some]
    constructor
    · rintro ⟨e, he, xs, hxs, hn⟩
      obtain ⟨svc, hsvc, hid, hname⟩ :=
        (Catalog.systemMemberNames_eq_ok hxs n).1 hn
      exact ⟨svc, hsvc, hname, e, he, hid⟩
    · rintro ⟨svc, hsvc, hname, e, he, hid⟩
      obtain ⟨xs, hxs⟩ := collect_call_ok hsvcs he
      have hxs' : s.catalog.systemMemberNames e.id = .ok xs := by simpa using hxs
      exact ⟨e, he, xs, hxs', (Catalog.systemMemberNames_eq_ok hxs' n).2 ⟨svc, hsvc, hid, hname⟩⟩
  | none =>
    simp only [hc, bind_eq_ok, wrapErr_eq_ok, pure_eq_ok] at h
    obtain ⟨svcs, hsvcs, rfl⟩ := h
    cases hid : p.targetSystemID with
    | some id =>
      rw [hid, Catalog.systemExpander_some] at hsvcs
      simp only [List.mem_toFinset, Catalog.systemMemberNames_eq_ok hsvcs n]
      refine exists_congr fun svc => and_congr_right fun _ => and_comm
    | none =>
      rw [hid] at hsvcs
      simp only [List.mem_toFinset, Catalog.systemExpander_none_eq_ok hsvcs n]
      refine exists_congr fun svc => and_congr_right fun _ => ?_
      tauto

theorem composeAccess_singleton {acc : EffectiveAccess} (hk : p.kind = .system)
    (h : s.composeAccess [p] = .ok acc) :
    ∃ a, s.composeSystem p = .ok a ∧ acc.services = a.services := by
  simp only [Store.composeAccess, Store.composeFrom, hk, reduceCtorEq, if_false,
    bind_eq_ok, Store.composePolicy, Except.ok.injEq] at h
  obtain ⟨a, ha, rfl⟩ := h
  exact ⟨a, ha, by simp [EffectiveAccess.merge]⟩

/-- **When a system policy grants the intersection of what it states.**  The
services it grants all belong to systems satisfying the id, the kind and the
pattern together exactly when the fields the resolver drops agree with the one
it uses.  What satisfies all of them is always granted. -/
theorem systemPolicy_grants_intersection_iff (s : Store) (p : AccessPolicy) (acc : EffectiveAccess)
    (hk : p.kind = .system) (h : s.composeAccess [p] = .ok acc) :
    ((∀ n ∈ acc.services, ∃ svc ∈ s.catalog.services,
        svc.serviceName = n ∧ s.SatisfiesSystemPolicy p svc) ↔ s.FieldsAgree p) ∧
    (s.FlagsInSync → ∀ svc ∈ s.catalog.services,
      s.SatisfiesSystemPolicy p svc → svc.serviceName ∈ acc.services) := by
  obtain ⟨a, ha, hacc⟩ := composeAccess_singleton hk h
  have hgrants := composeSystem_eq_ok ha
  rw [hacc]
  have hunique : ∀ svc ∈ s.catalog.services, ∀ svc' ∈ s.catalog.services,
      svc'.serviceName = svc.serviceName → svc' = svc := fun svc hsvc svc' hsvc' =>
    eq_of_key_eq s.catalog.serviceKey hsvc' hsvc
  refine ⟨⟨fun hall => ?_, fun hagree n hn => ?_⟩, fun hsync svc hsvc hsat => ?_⟩
  · -- A granted member satisfies every field, whichever field granted it.
    have hmember : ∀ svc ∈ s.catalog.services, svc.serviceName ∈ a.services → p.IdAndKind svc := by
      intro svc hsvc hin
      obtain ⟨svc', hsvc', hname, _, hik, _⟩ := hall _ hin
      rwa [hunique svc hsvc svc' hsvc' hname] at hik
    unfold Store.FieldsAgree
    cases hc : p.conditions with
    | some expr =>
      intro e he svc hsvc hid
      refine hmember svc hsvc ((hgrants _).2 ⟨svc, hsvc, rfl, ?_⟩)
      simp only [hc]
      exact ⟨e, he, hid⟩
    | none =>
      intro svc hsvc hsome hid
      obtain ⟨id, hid'⟩ := Option.ne_none_iff_exists'.1 hsome
      refine hmember svc hsvc ((hgrants _).2 ⟨svc, hsvc, rfl, ?_⟩)
      simp only [hc, hid']
      rw [hid, hid']
  · obtain ⟨svc, hsvc, hname, hreach⟩ := (hgrants n).1 hn
    refine ⟨svc, hsvc, hname, ?_⟩
    unfold Store.FieldsAgree at hagree
    cases hc : p.conditions with
    | some expr =>
      simp only [hc] at hreach hagree
      obtain ⟨e, he, hid⟩ := hreach
      refine ⟨Or.inr (by simp [hid]), hagree e he svc hsvc hid, ?_⟩
      intro expr' hexpr'
      obtain rfl : expr = expr' := by simpa [hc] using hexpr'
      exact ⟨e, he, hid⟩
    | none =>
      have hpattern : ∀ expr, p.conditions = some expr →
          ∃ e ∈ s.acceptedSystems expr, svc.systemID = some e.id := by simp [hc]
      cases hid : p.targetSystemID with
      | some id =>
        simp only [hc, hid] at hreach hagree
        exact ⟨Or.inr (by simp [hreach]), hagree svc hsvc (by simp) hreach, hpattern⟩
      | none =>
        simp only [hc, hid] at hreach
        refine ⟨Or.inl hreach.1, ⟨by simp [hid], fun kind hkind => ?_⟩, hpattern⟩
        simpa [hkind] using hreach.2
  · obtain ⟨hsystem, ⟨hid, hkind⟩, hpattern⟩ := hsat
    refine (hgrants _).2 ⟨svc, hsvc, rfl, ?_⟩
    cases hc : p.conditions with
    | some expr => exact hpattern expr hc
    | none =>
      cases ht : p.targetSystemID with
      | some id => exact hid id ht
      | none =>
        refine ⟨hsystem.elim (fun hflag => hflag) (hsync svc hsvc), ?_⟩
        cases hk' : p.targetSystemKind with
        | none => simp
        | some kind => simpa using hkind kind hk'

/-! A policy for kafka systems named `prod-*`, in an org that also runs a
database system under that prefix. -/

private def prodCatalog : Catalog where
  services := [⟨"broker", true, "kafka", some 3⟩, ⟨"pg", true, "postgres", some 4⟩]
  serviceKey := by decide
  systems := [⟨3, "prod-kafka"⟩, ⟨4, "prod-db"⟩]
  integrations := []
  matched := fun _ => []
  attached := fun _ => []

private def prodKafka : AccessPolicy :=
  { id := 1, groupID := 1, kind := .system, targetSystemKind := some "kafka",
    conditions := some (.leaf "" "prefix" "prod-") }

private def prodStore : Store where
  policies := [prodKafka]
  policyKey := by decide
  members := []
  shares := []
  attributes := []
  catalog := prodCatalog
  compile := fun _ => none

private theorem compose_prodKafka :
    prodStore.composeAccess [prodKafka] = .ok { services := {"broker", "pg"} } := by
  rfl

theorem systemPolicy_grants_intersection_example :
    (∀ n ∈ ({"broker", "pg"} : Finset String), ∃ svc ∈ prodStore.catalog.services,
        svc.serviceName = n ∧ prodStore.SatisfiesSystemPolicy prodKafka svc) ↔
      prodStore.FieldsAgree prodKafka :=
  (systemPolicy_grants_intersection_iff prodStore prodKafka _ rfl compose_prodKafka).1

/-- The pattern alone decides: the policy grants the postgres service, which is
in no kafka system. -/
theorem systemPolicy_drops_kind :
    ∃ acc, prodStore.composeAccess [prodKafka] = .ok acc ∧ "pg" ∈ acc.services ∧
      ¬ ∃ svc ∈ prodStore.catalog.services,
        svc.serviceName = "pg" ∧ prodStore.SatisfiesSystemPolicy prodKafka svc := by
  refine ⟨_, compose_prodKafka, by decide, ?_⟩
  rintro ⟨svc, hsvc, hname, _, ⟨_, hkind⟩, _⟩
  have hkafka := hkind "kafka" rfl
  simp only [prodStore, prodCatalog, List.mem_cons, List.not_mem_nil, or_false] at hsvc
  rcases hsvc with rfl | rfl
  · simp at hname
  · simp at hkafka

end Sluicio.Identity
