import Sluicio.Api.IntegrationWrites

/-!
# Removing a service from an integration

`RemoveServiceMatchers` deletes the equalities with the service's name.  It asks neither for the
attribute of a matcher nor for the group that the matcher is in: an equality on another attribute
goes as well, and what is left of a group that loses one of several matchers asks for less than
the group did.
-/

namespace Sluicio.Api.ServiceRemoval

open Identity
open Store (Row Span Engine EnvironmentConfig LogAttrFilter boundPart boundGate gated
  memberGroups attrGroupsClause)
open Integrations (GroupedMatcher RuleMatch servicesForIntegration ByMembers
  attrGroupsFromMatchers integrationGroups integrationGroups_fromMatchers taggedFilter matched
  matched_iff narrowedGroup withEnvironments_eq_map)
open Api.IntegrationWrites (ties)

/-- `RemoveServiceMatchers`: the matchers that stay, and how many were removed. -/
def removeServiceMatchers (name : String) (ms : List GroupedMatcher) : List GroupedMatcher × Nat :=
  (ms.filter fun m => !ties name m, ms.countP (ties name))

/-- The matchers that `RemoveServiceMatchers` leaves. -/
abbrev removed (name : String) (ms : List GroupedMatcher) : List GroupedMatcher :=
  (removeServiceMatchers name ms).1

theorem mem_removed {name : String} {ms : List GroupedMatcher} {m : GroupedMatcher} :
    m ∈ removed name ms ↔ m ∈ ms ∧ ties name m = false := by
  show m ∈ ms.filter (fun m => !ties name m) ↔ _
  rw [List.mem_filter, Bool.not_eq_true']

section Members

variable (compile : String → Option (String → Bool)) (ms : List GroupedMatcher)
  (names : List String) (name : String)

/-- The row is of a member, and not of the service `name`. -/
def OfOtherMember (row : Row) : Prop :=
  row.serviceName ∈ servicesForIntegration compile ms names ∧ row.serviceName ≠ name

end Members

/-- What a query of the integration reads: the spans of the store, the window and the
environments that it asks for. -/
structure Query where
  traces : List Span
  start : Int
  stop : Int
  environments : List String

/-- The filters of the matchers in group `n`. -/
def groupOf (ms : List GroupedMatcher) (mode : RuleMatch) (n : Int) : List LogAttrFilter :=
  (ms.filter fun m => m.matchGroup = n).map (taggedFilter mode)

section Predicate

variable {F : Type} (cfg : EnvironmentConfig) (engine : Engine F)

/-- The group selects the row, by its filters or below one of its anchors. -/
def Reaches (q : Query) (row : Row) (g : List LogAttrFilter) : Prop :=
  (boundPart cfg engine row.table q.start q.stop (narrowedGroup q.environments g)).eval engine
    q.traces (.row row) = .yes

def RowPredicate (ms : List GroupedMatcher) (mode : RuleMatch) (q : Query) (row : Row) : Prop :=
  ∃ m ∈ ms, Reaches cfg engine q row (groupOf ms mode m.matchGroup)

instance (q : Query) (row : Row) (g : List LogAttrFilter) :
    Decidable (Reaches cfg engine q row g) :=
  inferInstanceAs (Decidable (_ = _))

instance (ms : List GroupedMatcher) (mode : RuleMatch) (q : Query) (row : Row) :
    Decidable (RowPredicate cfg engine ms mode q row) :=
  inferInstanceAs (Decidable (∃ m ∈ ms, _))

variable {cfg engine} {ms : List GroupedMatcher} {mode : RuleMatch}

theorem mem_integrationGroups (hms : ms ≠ []) {envs : List String} {g : List LogAttrFilter} :
    g ∈ integrationGroups ms mode envs ↔
      ∃ m ∈ ms, narrowedGroup envs (groupOf ms mode m.matchGroup) = g := by
  have hgroups : ∀ g, g ∈ attrGroupsFromMatchers ms mode ↔
      ∃ m ∈ ms, groupOf ms mode m.matchGroup = g := by
    simp [attrGroupsFromMatchers, Integrations.groupOrder, groupOf, List.mem_eraseDups]
  have hne : attrGroupsFromMatchers ms mode ≠ [] := by
    obtain ⟨m, hm⟩ := List.exists_mem_of_ne_nil ms hms
    exact List.ne_nil_of_mem ((hgroups _).2 ⟨m, hm, rfl⟩)
  rw [integrationGroups, withEnvironments_eq_map hne, List.mem_map]
  simp only [hgroups, exists_exists_and_eq_and]

/-- A query with the clause of the integration's groups reads the rows of the predicate, as far
as the gate lets it. -/
theorem matched_iff_rowPredicate (hms : ms ≠ []) {q : Query} {row : Row} :
    matched engine q.traces row (attrGroupsClause cfg engine row.table
        (integrationGroups ms mode q.environments) q.start q.stop) ↔
      RowPredicate cfg engine ms mode q row ∧
        let members := memberGroups (integrationGroups ms mode q.environments)
        (gated row.table q.start q.stop members →
          (boundGate cfg engine row.table q.start q.stop members).eval engine q.traces
            (.row row) = .yes) := by
  have hfrom := integrationGroups_fromMatchers ms mode q.environments
  have hgroup : ∀ m ∈ ms, narrowedGroup q.environments (groupOf ms mode m.matchGroup) ∈
      integrationGroups ms mode q.environments :=
    fun m hm => (mem_integrationGroups hms).2 ⟨m, hm, rfl⟩
  have hmatch : ¬ Store.NothingToMatch (integrationGroups ms mode q.environments) := by
    obtain ⟨m, hm⟩ := List.exists_mem_of_ne_nil ms hms
    exact fun hnil => hfrom.nonempty _ (hgroup m hm) (hnil _ (hgroup m hm))
  have hsource : (integrationGroups ms mode q.environments).filter Store.isSourceGroup = [] :=
    List.filter_eq_nil_iff.2 hfrom.noSource
  have hparts : (∃ x ∈ memberGroups (integrationGroups ms mode q.environments),
      (boundPart cfg engine row.table q.start q.stop x.1).eval engine q.traces (.row row) = .yes) ↔
      RowPredicate cfg engine ms mode q row := by
    rw [hfrom.memberGroups_eq]
    constructor
    · rintro ⟨x, hx, hyes⟩
      obtain ⟨m, hm, heq⟩ := (mem_integrationGroups hms).1 (List.fst_mem_of_mem_zipIdx hx)
      rw [← heq] at hyes
      exact ⟨m, hm, hyes⟩
    · rintro ⟨m, hm, hyes⟩
      obtain ⟨k, hk⟩ := List.mem_iff_getElem?.1 (hgroup m hm)
      exact ⟨(_, k), List.mk_mem_zipIdx_iff_getElem?.2 hk, hyes⟩
  simp only [matched_iff, hmatch, hsource, ByMembers, hparts, false_or, List.not_mem_nil,
    false_and, exists_false, or_false]

end Predicate

section Groups

variable (name : String) (ms : List GroupedMatcher) (mode : RuleMatch)

/-- The filters of group `n` without the equalities with the name. -/
def restOf (n : Int) : List LogAttrFilter :=
  ((ms.filter fun m => m.matchGroup = n).filter fun m => !ties name m).map (taggedFilter mode)

/-- Group `n` has an equality with the name, and something else. -/
def Thinned (n : Int) : Prop :=
  (∃ m ∈ ms, m.matchGroup = n ∧ ties name m) ∧
    ∃ m ∈ ms, m.matchGroup = n ∧ ties name m = false

instance (n : Int) : Decidable (Thinned name ms n) :=
  inferInstanceAs (Decidable (_ ∧ _))

variable {name ms mode}

theorem groupOf_removed (n : Int) : groupOf (removed name ms) mode n = restOf name ms mode n := by
  show ((ms.filter fun m => !ties name m).filter fun m => m.matchGroup = n).map _ = _
  rw [restOf, List.filter_filter, List.filter_filter]
  apply congrArg
  apply List.filter_congr
  intro m _
  rw [Bool.and_comm]

theorem restOf_of_not_thinned {m : GroupedMatcher} (hm : m ∈ removed name ms)
    (h : ¬ Thinned name ms m.matchGroup) :
    restOf name ms mode m.matchGroup = groupOf ms mode m.matchGroup := by
  have hkept := mem_removed.1 hm
  have hfree : ∀ m' ∈ ms.filter (fun m' => m'.matchGroup = m.matchGroup),
      (!ties name m') := by
    intro m' hm'
    obtain ⟨hmem, hgroup⟩ := List.mem_filter.1 hm'
    cases hties : ties name m' with
    | false => rfl
    | true =>
      exfalso
      apply h
      exact ⟨⟨m', hmem, of_decide_eq_true hgroup, hties⟩, ⟨m, hkept.1, rfl, hkept.2⟩⟩
  rw [restOf, groupOf, List.filter_eq_self.2 hfree]

end Groups

/-! ## What a removal changes -/

section Removal

variable {F : Type} (cfg : EnvironmentConfig) (engine : Engine F)
  (compile : String → Option (String → Bool)) (names : List String)
  (ms : List GroupedMatcher) (mode : RuleMatch) (name : String)

/-- Removing the service leaves the other members no wider, and the matchers on attributes as
they are; no equality with a service's name admits the service any longer. -/
structure RemovalSound : Prop where
  noWider : ∀ q row, OfOtherMember compile ms names name row →
    RowPredicate cfg engine (removed name ms) mode q row → RowPredicate cfg engine ms mode q row
  attributesStay : (removed name ms).filter (fun m => !m.isServiceMatcher) =
    ms.filter fun m => !m.isServiceMatcher
  notAdmitted : ∀ m ∈ removed name ms, m.isServiceMatcher → m.operator = .equals →
    m.matchService compile name = false

/-- The equalities with the name are on the service, and of the rows of the other members what
is left of a thinned group selects none that no group selected. -/
structure Harmless : Prop where
  onService : ∀ m ∈ ms, ties name m → m.isServiceMatcher
  covered : ∀ n, Thinned name ms n → ∀ q row, OfOtherMember compile ms names name row →
    Reaches cfg engine q row (restOf name ms mode n) → RowPredicate cfg engine ms mode q row

variable {cfg engine compile names ms mode name}

/-- After a removal a row is selected by a group that stays as it was, or by what is left of a
thinned one. -/
theorem rowPredicate_removed {q : Query} {row : Row} :
    RowPredicate cfg engine (removed name ms) mode q row ↔
      ∃ m ∈ removed name ms, Reaches cfg engine q row (restOf name ms mode m.matchGroup) := by
  unfold RowPredicate
  simp only [groupOf_removed]

theorem attributesStay_iff :
    (removed name ms).filter (fun m => !m.isServiceMatcher) =
        ms.filter (fun m => !m.isServiceMatcher) ↔
      ∀ m ∈ ms, ties name m → m.isServiceMatcher := by
  have hfilter : (removed name ms).filter (fun m => !m.isServiceMatcher) =
      (ms.filter fun m => !m.isServiceMatcher).filter fun m => !ties name m := by
    show (ms.filter fun m => !ties name m).filter _ = _
    rw [List.filter_filter, List.filter_filter]
    apply List.filter_congr
    intro m _
    rw [Bool.and_comm]
  rw [hfilter, List.filter_eq_self]
  constructor
  · intro h m hm hties
    cases hservice : m.isServiceMatcher with
    | true => rfl
    | false =>
      have hattr : m ∈ ms.filter fun m => !m.isServiceMatcher :=
        List.mem_filter.2 ⟨hm, by rw [hservice]; rfl⟩
      have hfree := h m hattr
      rw [hties] at hfree
      cases hfree
  · intro h m hm
    obtain ⟨hmem, hattr⟩ := List.mem_filter.1 hm
    cases hties : ties name m with
    | false => rfl
    | true =>
      rw [h m hmem hties] at hattr
      cases hattr

theorem not_admitted_of_removed {m : GroupedMatcher} (hm : m ∈ removed name ms)
    (hequals : m.operator = .equals) : m.matchService compile name = false := by
  have hfree := (mem_removed.1 hm).2
  simp only [ties, hequals, decide_true, Bool.true_and, decide_eq_false_iff_not] at hfree
  simp only [Integrations.Matcher.matchService, hequals, decide_eq_false_iff_not]
  exact fun h => hfree h.symm

/-- **A removal is sound just where it is harmless**: no equality of another attribute has the
name for its value, and what is left of each group that loses some of its matchers is covered,
for the other members, by the groups as they were. -/
theorem removalSound_iff :
    RemovalSound cfg engine compile names ms mode name ↔
      Harmless cfg engine compile names ms mode name := by
  constructor
  · intro h
    constructor
    · exact attributesStay_iff.1 h.attributesStay
    · intro n hthinned q row hrow hrest
      obtain ⟨m, hm, hgroup, hkept⟩ := hthinned.2
      apply h.noWider q row hrow
      apply rowPredicate_removed.2
      refine ⟨m, mem_removed.2 ⟨hm, hkept⟩, ?_⟩
      rw [hgroup]
      exact hrest
  · intro h
    constructor
    · intro q row hrow hafter
      obtain ⟨m, hm, hrest⟩ := rowPredicate_removed.1 hafter
      by_cases hthinned : Thinned name ms m.matchGroup
      · exact h.covered _ hthinned q row hrow hrest
      · rw [restOf_of_not_thinned hm hthinned] at hrest
        exact ⟨m, (mem_removed.1 hm).1, hrest⟩
    · exact attributesStay_iff.2 h.onService
    · intro m hm _ hequals
      exact not_admitted_of_removed hm hequals

end Removal

/-! ### A peer of the same name -/

private def plainEngine : Engine Nat where
  regex _ _ := false
  parseFloat _ := none
  toFloat64OrNull _ := none
  compare _ _ _ := false

private def noEnvironment : EnvironmentConfig := ⟨"", []⟩

private def ordersAndItsCalls : List GroupedMatcher :=
  [{ attr := "service.name", operator := .equals, value := "orders", matchGroup := 0 },
   { attr := "service.name", operator := .equals, value := "billing", matchGroup := 1 },
   { attr := "peer.service", operator := .equals, value := "orders", matchGroup := 1 }]

private def invoice : Span := ⟨5, "t", "1", "", "billing", "invoice", "", [], []⟩

/-- Removing orders deletes the condition on the peer, and all of billing is selected. -/
theorem orders_removal_widens_billing :
    ¬ RemovalSound noEnvironment plainEngine (fun _ => none) ["orders", "billing"]
      ordersAndItsCalls .any "orders" := by
  intro h
  have hbefore : ¬ RowPredicate noEnvironment plainEngine ordersAndItsCalls .any
      ⟨[invoice], 1, 9, []⟩ (.span invoice) := by decide +kernel
  apply hbefore
  apply h.noWider ⟨[invoice], 1, 9, []⟩ (.span invoice) ⟨by decide +kernel, by decide⟩
  decide +kernel

end Sluicio.Api.ServiceRemoval
