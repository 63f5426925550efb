import Sluicio.Integrations.Groups

/-!
# Who is a member of an integration

The services of an integration are those that one of its matchers on the service's name
accepts.  Both readings of the matchers, by integration and by service, go through the flat
list of them: the groups that the matchers on attributes form in the telemetry queries play no
part, so that a group with several matchers on the name admits what any of them accepts.
-/

namespace Sluicio.Integrations

open Lib

structure MatcherTable where
  rows : List (Integration × List GroupedMatcher)
  integrationKey : (rows.map fun row => row.1.id).Nodup

def MatcherTable.joined (t : MatcherTable) : List MatcherWithIntegration :=
  t.rows.flatMap fun row => row.2.map fun m => ⟨m.toMatcher, row.1⟩

section Membership

variable (compile : String → Option (String → Bool))

/-- `IntegrationsFor`, on rows that were loaded just now. -/
def integrationsFor (t : MatcherTable) (orgID : UUID) (serviceName : String) :
    List Integration :=
  classify compile serviceName [] (allMatchersWithIntegration t.joined orgID)

def servicesForIntegration (matchers : List GroupedMatcher) (candidates : List String) :
    List String :=
  candidates.filter fun name =>
    matchers.any fun m => m.isServiceMatcher && m.matchService compile name

def AnyAccepts (matchers : List GroupedMatcher) (name : String) : Prop :=
  ∃ m ∈ matchers, m.isServiceMatcher ∧ m.matchService compile name

/-- The disjunctive normal form: in some group every matcher on the name accepts the
service. -/
def GroupAccepts (matchers : List GroupedMatcher) (name : String) : Prop :=
  ∃ g ∈ matchers.map GroupedMatcher.matchGroup, ∀ m ∈ matchers, m.matchGroup = g →
    m.isServiceMatcher → m.matchService compile name

def OneServiceEach (matchers : List GroupedMatcher) : Prop :=
  ∀ g ∈ matchers.map GroupedMatcher.matchGroup, ∃ m,
    (matchers.filter fun m => m.matchGroup = g && m.isServiceMatcher) = [m]

variable {compile} {i : Integration}

theorem mem_classify_iff {serviceName : String} {rows : List MatcherWithIntegration}
    (hid : ∀ mi ∈ rows, mi.integration.id = i.id → mi.integration = i) (seen : List UUID) :
    i ∈ classify compile serviceName seen rows ↔
      i.id ∉ seen ∧ ∃ mi ∈ rows, mi.integration = i ∧ mi.matcher.isServiceMatcher ∧
        mi.matcher.matchService compile serviceName := by
  induction rows generalizing seen with
  | nil => simp [classify]
  | cons mi rest ih =>
    have hrest := ih fun mi' hmi' => hid mi' (List.mem_cons_of_mem _ hmi')
    unfold classify
    split
    · next hseen =>
      rw [hrest]
      refine and_congr_right fun hnew => ?_
      have hother : mi.integration ≠ i := by
        rintro rfl
        exact hnew hseen
      simp [hother]
    split
    · next hnew haccepts =>
      rw [Bool.and_eq_true] at haccepts
      rw [List.mem_cons, hrest, List.mem_cons]
      by_cases hsame : mi.integration = i
      · subst hsame
        simp only [true_or, true_iff]
        exact ⟨hnew, mi, List.mem_cons_self, rfl, haccepts.1, haccepts.2⟩
      have hother : i.id ≠ mi.integration.id := fun heq =>
        hsame (hid mi List.mem_cons_self heq.symm)
      have hsame' : i ≠ mi.integration := fun heq => hsame heq.symm
      simp [hother, hsame, hsame']
    · next hnew hrejects =>
      rw [hrest]
      refine and_congr_right fun _ => ?_
      rw [Bool.and_eq_true] at hrejects
      constructor
      · rintro ⟨mi', hmi', hall⟩
        exact ⟨mi', List.mem_cons_of_mem _ hmi', hall⟩
      · rintro ⟨mi', hmi', hall⟩
        rcases List.mem_cons.1 hmi' with rfl | hmi'
        · exact absurd hall.2 hrejects
        · exact ⟨mi', hmi', hall⟩

variable {matchers : List GroupedMatcher} {name : String} {t : MatcherTable}

theorem mem_servicesForIntegration {candidates : List String} :
    name ∈ servicesForIntegration compile matchers candidates ↔
      name ∈ candidates ∧ AnyAccepts compile matchers name := by
  simp [servicesForIntegration, AnyAccepts]

theorem MatcherTable.mem_joined (hi : (i, matchers) ∈ t.rows) {mi : MatcherWithIntegration} :
    mi ∈ t.joined ∧ mi.integration.id = i.id ↔
      mi.integration = i ∧ ∃ m ∈ matchers, m.toMatcher = mi.matcher := by
  constructor
  · rintro ⟨hmi, hid⟩
    obtain ⟨row, hrow, hmi⟩ := List.mem_flatMap.1 hmi
    obtain ⟨m, hm, rfl⟩ := List.mem_map.1 hmi
    obtain rfl : row = (i, matchers) := eq_of_key_eq t.integrationKey hrow hi hid
    exact ⟨rfl, m, hm, rfl⟩
  · rintro ⟨rfl, m, hm, hmatcher⟩
    refine ⟨List.mem_flatMap.2 ⟨_, hi, List.mem_map.2 ⟨m, hm, ?_⟩⟩, rfl⟩
    rw [hmatcher]

theorem mem_integrationsFor (hi : (i, matchers) ∈ t.rows) :
    i ∈ integrationsFor compile t i.organizationID name ↔ AnyAccepts compile matchers name := by
  have hkey : ∀ mi ∈ allMatchersWithIntegration t.joined i.organizationID,
      mi.integration.id = i.id → mi.integration = i := fun mi hmi hid =>
    ((t.mem_joined hi).1 ⟨(List.mem_filter.1 hmi).1, hid⟩).1
  rw [integrationsFor, mem_classify_iff hkey]
  simp only [List.not_mem_nil, not_false_eq_true, true_and]
  constructor
  · rintro ⟨mi, hmi, rfl, haccepts⟩
    obtain ⟨_, m, hm, hmatcher⟩ := (t.mem_joined hi).1 ⟨(List.mem_filter.1 hmi).1, rfl⟩
    rw [← hmatcher] at haccepts
    exact ⟨m, hm, haccepts⟩
  · rintro ⟨m, hm, haccepts⟩
    have hjoined : (⟨m.toMatcher, i⟩ : MatcherWithIntegration) ∈ t.joined :=
      ((t.mem_joined hi).2 ⟨rfl, m, hm, rfl⟩).1
    exact ⟨_, List.mem_filter.2 ⟨hjoined, by simp⟩, rfl, haccepts⟩

/-- With one matcher on the name in each group, any of them accepts where all of some group's
do. -/
theorem anyAccepts_iff_groupAccepts (hone : OneServiceEach matchers) (name : String) :
    AnyAccepts compile matchers name ↔ GroupAccepts compile matchers name := by
  constructor
  · rintro ⟨m, hm, hservice, haccepts⟩
    refine ⟨m.matchGroup, List.mem_map_of_mem hm, fun m' hm' hgroup hservice' => ?_⟩
    obtain ⟨only, honly⟩ := hone m.matchGroup (List.mem_map_of_mem hm)
    have hmem : ∀ x ∈ matchers, x.matchGroup = m.matchGroup → x.isServiceMatcher →
        x = only := by
      intro x hx hxg hxs
      have hin : x ∈ matchers.filter fun y => y.matchGroup = m.matchGroup && y.isServiceMatcher :=
        List.mem_filter.2 ⟨hx, by simp [hxg, hxs]⟩
      rw [honly] at hin
      exact List.mem_singleton.1 hin
    rw [hmem m' hm' hgroup hservice', ← hmem m hm rfl hservice]
    exact haccepts
  · rintro ⟨g, hg, hall⟩
    obtain ⟨only, honly⟩ := hone g hg
    have hin : only ∈ matchers.filter fun y => y.matchGroup = g && y.isServiceMatcher := by
      rw [honly]
      exact List.mem_singleton_self _
    obtain ⟨hmem, hkind⟩ := List.mem_filter.1 hin
    simp only [Bool.and_eq_true, decide_eq_true_eq] at hkind
    exact ⟨only, hmem, hkind.2, hall only hmem hkind.1 hkind.2⟩

end Membership

/-- **Members are what some matcher on the name accepts**, whatever group it is in: for a
service asked about and for a list of candidates.  Where each group has one such matcher,
that is the disjunctive normal form. -/
theorem listed_iff_anyAccepts (compile : String → Option (String → Bool)) (t : MatcherTable)
    {i : Integration} {matchers : List GroupedMatcher} (hi : (i, matchers) ∈ t.rows)
    (candidates : List String) (name : String) :
    (name ∈ servicesForIntegration compile matchers candidates ↔
      name ∈ candidates ∧ AnyAccepts compile matchers name) ∧
    (i ∈ integrationsFor compile t i.organizationID name ↔ AnyAccepts compile matchers name) ∧
    (OneServiceEach matchers →
      (AnyAccepts compile matchers name ↔ GroupAccepts compile matchers name)) :=
  ⟨mem_servicesForIntegration, mem_integrationsFor hi,
    fun hone => anyAccepts_iff_groupAccepts hone name⟩

private def payments : List GroupedMatcher :=
  [{ attr := "service.name", operator := .startsWith, value := "pay" },
    { attr := "service.name", operator := .notEquals, value := "pay-legacy" }]

private def paymentsTable : MatcherTable where
  rows := [(⟨10, 1, "payments"⟩, payments)]
  integrationKey := List.nodup_singleton _

theorem listed_payments :
    "orders" ∈ servicesForIntegration (fun _ => none) payments ["orders", "pay-api"] :=
  ((listed_iff_anyAccepts (fun _ => none) paymentsTable (List.mem_singleton_self _)
    ["orders", "pay-api"] "orders").1).2
      ⟨List.mem_cons_self, payments[1], by decide, by decide, by decide⟩

theorem negated_admits_rejected :
    ¬ ∀ (compile : String → Option (String → Bool)) (matchers : List GroupedMatcher)
      (candidates : List String) (name : String),
      name ∈ servicesForIntegration compile matchers candidates ↔
        name ∈ candidates ∧ GroupAccepts compile matchers name := by
  intro h
  have hlisted : "orders" ∈ servicesForIntegration (fun _ => none) payments ["orders"] := by
    decide
  obtain ⟨_, g, hg, hall⟩ := (h _ _ _ _).1 hlisted
  have hzero : g = 0 := by
    have : payments.map GroupedMatcher.matchGroup = [0, 0] := by decide
    rw [this] at hg
    simpa using hg
  have haccepts := hall payments[0] (by decide) (by rw [hzero]; rfl) (by decide)
  revert haccepts
  decide

end Sluicio.Integrations
