import Sluicio.Api.SpanScope
import Sluicio.Integrations.Groups

/-!
# Reading one trace through an integration

Message search reads the spans of a granted integration through its slice: the spans of the
member services that its matchers select over the window of the search.  Opening one trace
asks whether the trace has a span in the slice, and asks it without a window.  Without a
window the matchers compile to the union of their groups: the members are not required
together, and a span below an anchor is not selected.
-/

namespace Sluicio.Api

open Store (Span LogAttrFilter Compiled GroupHolds AllRequired AtOrBelowAnchor
  MatchesRule MemberHolds EveryMemberInTrace Selects memberGroups memberId)
open Integrations (GroupedMatcher RuleMatch FromMatchers)

variable {F : Type}

/-- What a request reads of the telemetry: the spans of its organization and environments,
and the matchers of the integrations. -/
structure Telemetry (F : Type) where
  cfg : Store.EnvironmentConfig
  engine : Store.Engine F
  traces : List Span
  matchers : UUID → List GroupedMatcher
  ruleMatch : UUID → RuleMatch
  environments : List String := []

namespace Telemetry

def integrationGroups (t : Telemetry F) (id : UUID) : List (List LogAttrFilter) :=
  Integrations.integrationGroups (t.matchers id) (t.ruleMatch id) t.environments

/-- `SpanAttrGroupsClause` of the integration's groups. -/
def spanClause (t : Telemetry F) (id : UUID) (start stop : Int) : Compiled F :=
  Store.attrGroupsClause t.cfg t.engine .spanAttributes (t.integrationGroups id) start stop

def holds (t : Telemetry F) (clause : Compiled F) (s : Span) : Bool :=
  clause.isNone || Store.satisfies t.engine t.traces (.span s) clause

def traceMatches (t : Telemetry F) (traceID : String) (services : List String)
    (clause : Compiled F) : Bool :=
  !(traceID = "" || services.isEmpty) &&
    t.traces.any fun s =>
      s.traceId = traceID && s.serviceName ∈ services && t.holds clause s

end Telemetry

/-- The loop's body of `traceReachedByIntegration`: the members that the integration adds. -/
def Handlers.reachedThrough (h : Handlers) (t : Telemetry F) (traceID : String) (id : UUID) :
    Finset String :=
  match h.identity.catalog.integrationServices id with
  | .error _ => ∅
  | .ok members =>
    if t.traceMatches traceID members (t.spanClause id 0 0) then members.toFinset else ∅

def Handlers.traceReachedByIntegration (h : Handlers) (p : Principal) (t : Telemetry F)
    (traceID : String) : Finset String × Bool :=
  match h.grantedIntegrations p with
  | none => (∅, false)
  | some granted =>
    (granted.biUnion (h.reachedThrough t traceID), granted.biUnion (h.reachedThrough t traceID) ≠ ∅)

/-- What a disjunct of the span scope says of a span, over a window. -/
def SpanDisjunct.admits (t : Telemetry F) (start stop : Int) : SpanDisjunct → Span → Bool
  | .services names, s => s.serviceName ∈ names
  | .slice id members _, s =>
    s.serviceName ∈ members && t.holds (t.spanClause id start stop) s

/-- The integration's disjunct of the span scope, over the window, matches a span of the
trace. -/
def Handlers.SliceMatches (h : Handlers) (t : Telemetry F) (id : UUID) (traceID : String)
    (start stop : Int) : Prop :=
  ∃ ds, h.spanSlice id = .ok ds ∧ ∃ d ∈ ds, ∃ s ∈ t.traces, s.traceId = traceID ∧
    d.admits t start stop s

/-! ## The two questions -/

/-- The member services, as far as the lookup finds them. -/
def Handlers.memberServices (h : Handlers) (id : UUID) : List String :=
  match h.identity.catalog.integrationServices id with
  | .error _ => []
  | .ok members => members

def Telemetry.MembersPresent (t : Telemetry F) (id : UUID) (traceID : String) : Prop :=
  AllRequired (t.integrationGroups id) →
    ∀ x ∈ memberGroups (t.integrationGroups id), ∃ y ∈ memberGroups (t.integrationGroups id),
      memberId y = memberId x ∧ ∃ s ∈ t.traces, s.traceId = traceID ∧
        GroupHolds t.cfg t.engine y.1 (.span s)

def Telemetry.OnMembers (t : Telemetry F) (members : List String) (traceID : String)
    (P : Span → Prop) : Prop :=
  ∃ s ∈ t.traces, s.traceId = traceID ∧ s.serviceName ∈ members ∧ P s

/-- The span is at or below an anchor of a group with descendants. -/
def Telemetry.Anchored (t : Telemetry F) (id : UUID) (s : Span) : Prop :=
  ∃ x ∈ memberGroups (t.integrationGroups id), x.1.any LogAttrFilter.descendants ∧
    AtOrBelowAnchor t.cfg t.engine t.traces x.1 (.span s)

/-- What an integration and a trace have to be for the two questions to have one answer.
If a span on a member service matches a rule, every required member is in the trace; and
if, with all of them there, a span on a member service is below an anchor, one of them
matches a rule itself. -/
structure Telemetry.WholeInReach (t : Telemetry F) (members : List String) (id : UUID)
    (traceID : String) : Prop where
  present : t.OnMembers members traceID
      (MatchesRule t.cfg t.engine (t.integrationGroups id)) → t.MembersPresent id traceID
  anchored : t.MembersPresent id traceID → t.OnMembers members traceID (t.Anchored id) →
    t.OnMembers members traceID (MatchesRule t.cfg t.engine (t.integrationGroups id))

theorem nothingToMatch_iff {groups : List (List LogAttrFilter)} (h : FromMatchers groups) :
    Store.NothingToMatch groups ↔ groups = [] := by
  constructor
  · intro hnothing
    rw [List.eq_nil_iff_forall_not_mem]
    exact fun g hg => h.nonempty g hg (hnothing g hg)
  · rintro rfl g hg
    cases hg

section Answers

variable {h : Handlers} {t : Telemetry F} {id : UUID} {traceID : String}

theorem Telemetry.fromMatchers (t : Telemetry F) (id : UUID) :
    FromMatchers (t.integrationGroups id) :=
  Integrations.integrationGroups_fromMatchers (t.matchers id) (t.ruleMatch id) t.environments

theorem holds_noWindow (s : Span) : t.holds (t.spanClause id 0 0) s ↔
    t.integrationGroups id = [] ∨ MatchesRule t.cfg t.engine (t.integrationGroups id) s := by
  have hnothing := nothingToMatch_iff (t.fromMatchers id)
  obtain ⟨hnone, hsome⟩ := @Store.attrGroupsClause_noWindow F t.cfg t.engine t.traces
    (t.integrationGroups id) s
  rw [Telemetry.holds, Bool.or_eq_true, Option.isNone_iff_eq_none, Telemetry.spanClause, hnone,
    hnothing]
  rw [hnothing] at hsome
  by_cases hgroups : t.integrationGroups id = []
  · simp [hgroups]
  · simp only [hgroups, false_or]
    exact hsome hgroups

variable {s : Span} {members : List String}

theorem everyMember_iff (htrace : s.traceId = traceID) :
    (AllRequired (t.integrationGroups id) →
      EveryMemberInTrace t.cfg t.engine t.traces (t.integrationGroups id) (.span s)) ↔
      t.MembersPresent id traceID := by
  have hrow : ∀ s' : Span, (Store.Row.span s).trace.map Prod.fst = some s'.traceId ↔
      s'.traceId = traceID := by
    intro s'
    show some s.traceId = some s'.traceId ↔ _
    rw [Option.some.injEq, htrace, eq_comm]
  simp only [EveryMemberInTrace, Telemetry.MembersPresent, hrow]

theorem selects_iff (htrace : s.traceId = traceID) :
    Selects t.cfg t.engine t.traces (t.integrationGroups id) (.span s) ↔
      (MatchesRule t.cfg t.engine (t.integrationGroups id) s ∨ t.Anchored id s) ∧
        t.MembersPresent id traceID := by
  have hsource : ¬ ∃ g ∈ t.integrationGroups id, Store.isSourceGroup g ∧
      GroupHolds t.cfg t.engine g (.span s) := by
    rintro ⟨g, hg, hsrc, _⟩
    exact (t.fromMatchers id).noSource g hg hsrc
  have hmember : (∃ x ∈ memberGroups (t.integrationGroups id),
      MemberHolds t.cfg t.engine t.traces x.1 (.span s)) ↔
      MatchesRule t.cfg t.engine (t.integrationGroups id) s ∨ t.Anchored id s := by
    simp only [MatchesRule, hsource, or_false, Telemetry.Anchored, MemberHolds, and_or_left,
      exists_or]
  have hspans : (Store.Row.span s).table.hasTrace := rfl
  simp only [Selects, hsource, or_false, hmember, hspans, true_imp_iff, everyMember_iff htrace]

/-- Over a window that holds the trace, a span satisfies the clause when the matchers select
it, if there are any. -/
theorem holds_window {start stop : Int} (hstart : start ≠ 0) (hstop : stop ≠ 0)
    (hinside : ∀ s ∈ t.traces, s.traceId = traceID → start ≤ s.timestamp ∧ s.timestamp ≤ stop)
    (hs : s ∈ t.traces) (htrace : s.traceId = traceID) :
    t.holds (t.spanClause id start stop) s ↔ t.integrationGroups id = [] ∨
      (MatchesRule t.cfg t.engine (t.integrationGroups id) s ∨ t.Anchored id s) ∧
        t.MembersPresent id traceID := by
  have hnothing := nothingToMatch_iff (t.fromMatchers id)
  have hname : ∀ g ∈ t.integrationGroups id, ∀ f ∈ g,
      ¬ f.AsksForMetricName (Store.Row.span s).table := by
    intro g _ f _ hasks
    exact Store.PrimaryMap.noConfusion hasks.1
  have htraceInside : Store.TraceInside t.traces (.span s) start stop := by
    intro s' hs' hsame
    have hid : s.traceId = s'.traceId := Option.some.inj hsame
    exact hinside s' hs' (hid.symm.trans htrace)
  have hrow : ∀ s', Store.Row.span s = .span s' → s' ∈ t.traces := by
    intro s' hsame
    cases hsame
    exact hs
  have hnone : t.spanClause id start stop = none ↔ t.integrationGroups id = [] := by
    rw [Telemetry.spanClause, Store.attrGroupsClause_eq, Option.map_eq_none_iff,
      Store.boundGroups_eq_none, hnothing]
  rw [Telemetry.holds, Bool.or_eq_true, Option.isNone_iff_eq_none, hnone]
  by_cases hgroups : t.integrationGroups id = []
  · simp [hgroups]
  simp only [hgroups, false_or]
  have hselects := @Store.satisfies_attrGroupsClause F t.cfg t.engine t.traces (.span s)
    (t.integrationGroups id) start stop hstart hstop hname (t.fromMatchers id).membersApart
    htraceInside hrow (fun hnot => hgroups (hnothing.1 hnot))
  exact hselects.trans (selects_iff htrace)

theorem reachedThrough_iff (htrace : traceID ≠ "") :
    h.reachedThrough t traceID id ≠ ∅ ↔ t.OnMembers (h.memberServices id) traceID fun s =>
      t.integrationGroups id = [] ∨ MatchesRule t.cfg t.engine (t.integrationGroups id) s := by
  unfold Handlers.reachedThrough Handlers.memberServices
  cases h.identity.catalog.integrationServices id with
  | error err => simp [Telemetry.OnMembers]
  | ok members =>
    have hmatches : t.traceMatches traceID members (t.spanClause id 0 0) ↔
        t.OnMembers members traceID fun s => t.integrationGroups id = [] ∨
          MatchesRule t.cfg t.engine (t.integrationGroups id) s := by
      cases members with
      | nil => simp [Telemetry.traceMatches, Telemetry.OnMembers]
      | cons m ms =>
        simp only [Telemetry.traceMatches, htrace, decide_false, List.isEmpty_cons, Bool.or_false,
          Bool.not_false, Bool.true_and, List.any_eq_true, Bool.and_eq_true, decide_eq_true_eq,
          holds_noWindow, Telemetry.OnMembers, and_assoc]
    by_cases hreached : t.traceMatches traceID members (t.spanClause id 0 0) = true
    · have hsome := hmatches.1 hreached
      obtain ⟨s, _, _, hservice, _⟩ := hmatches.1 hreached
      have hne : members.toFinset ≠ ∅ :=
        Finset.ne_empty_of_mem (List.mem_toFinset.2 hservice)
      simp only [hreached, if_true]
      exact ⟨fun _ => hsome, fun _ => hne⟩
    · simp only [hreached, Bool.false_eq_true, if_false]
      exact ⟨fun hne => absurd rfl hne, fun hsome => absurd (hmatches.2 hsome) hreached⟩

theorem sliceMatches_iff {start stop : Int} (hstart : start ≠ 0) (hstop : stop ≠ 0)
    (hinside : ∀ s ∈ t.traces, s.traceId = traceID → start ≤ s.timestamp ∧ s.timestamp ≤ stop) :
    h.SliceMatches t id traceID start stop ↔
      t.OnMembers (h.memberServices id) traceID fun s => t.integrationGroups id = [] ∨
        (MatchesRule t.cfg t.engine (t.integrationGroups id) s ∨ t.Anchored id s) ∧
          t.MembersPresent id traceID := by
  unfold Handlers.SliceMatches Handlers.spanSlice Handlers.memberServices
  cases h.identity.catalog.integrationServices id with
  | error err =>
    constructor
    · rintro ⟨ds, hds, _⟩
      cases hds
    · rintro ⟨s, _, _, hservice, _⟩
      cases hservice
  | ok members =>
    constructor
    · rintro ⟨ds, hds, d, hd, s, hs, htrace, hadmits⟩
      cases hds
      split at hd
      · cases hd
      rw [List.mem_singleton.1 hd] at hadmits
      simp only [SpanDisjunct.admits, Bool.and_eq_true, decide_eq_true_eq] at hadmits
      have hholds := (holds_window hstart hstop hinside hs htrace).1 hadmits.2
      exact ⟨s, hs, htrace, hadmits.1, hholds⟩
    · rintro ⟨s, hs, htrace, hservice, hholds⟩
      have hne : members ≠ [] := List.ne_nil_of_mem hservice
      refine ⟨_, rfl, .slice id members (h.integrationGroups id), ?_, s, hs, htrace, ?_⟩
      · rw [if_neg hne]
        exact List.mem_singleton_self _
      · simp only [SpanDisjunct.admits, Bool.and_eq_true, decide_eq_true_eq]
        exact ⟨hservice, (holds_window hstart hstop hinside hs htrace).2 hholds⟩

theorem onMembers_or {P Q : Span → Prop} :
    t.OnMembers members traceID (fun s => P s ∨ Q s) ↔
      t.OnMembers members traceID P ∨ t.OnMembers members traceID Q := by
  simp only [Telemetry.OnMembers, and_or_left, exists_or]

theorem onMembers_and {P : Span → Prop} {q : Prop} :
    t.OnMembers members traceID (fun s => P s ∧ q) ↔ t.OnMembers members traceID P ∧ q := by
  constructor
  · rintro ⟨s, hs, htrace, hservice, hP, hq⟩
    exact ⟨⟨s, hs, htrace, hservice, hP⟩, hq⟩
  · rintro ⟨⟨s, hs, htrace, hservice, hP⟩, hq⟩
    exact ⟨s, hs, htrace, hservice, hP, hq⟩

theorem wholeInReach_of_noGroups (hgroups : t.integrationGroups id = []) :
    t.WholeInReach members id traceID := by
  have hmembers : memberGroups (t.integrationGroups id) = [] := by
    rw [hgroups]
    rfl
  constructor
  · intro _ _ x hx
    rw [hmembers] at hx
    cases hx
  · rintro _ ⟨s, _, _, _, x, hx, _⟩
    rw [hmembers] at hx
    cases hx

end Answers

theorem traceReachedByIntegration_iff {h : Handlers} {p : Principal} {t : Telemetry F}
    {traceID : String} {granted : Finset UUID} (hgranted : h.grantedIntegrations p = some granted) :
    (h.traceReachedByIntegration p t traceID).2 ↔
      ∃ id ∈ granted, h.reachedThrough t traceID id ≠ ∅ := by
  simp [Handlers.traceReachedByIntegration, hgranted, ← Finset.nonempty_iff_ne_empty,
    Finset.biUnion_nonempty]

/-- **When opening a trace agrees with searching for it.**  For every granted integration and
every trace: the integration reaches the trace exactly when its slice, over a window that
holds the trace, has a span of it, if and only if the integration has the whole of the trace
in its reach. -/
theorem traceReach_agrees_iff (h : Handlers) (p : Principal) (t : Telemetry F)
    (granted : Finset UUID) (traceID : String) (start stop : Int)
    (hgranted : h.grantedIntegrations p = some granted) (htrace : traceID ≠ "")
    (hstart : start ≠ 0) (hstop : stop ≠ 0)
    (hinside : ∀ s ∈ t.traces, s.traceId = traceID → start ≤ s.timestamp ∧ s.timestamp ≤ stop) :
    ((h.traceReachedByIntegration p t traceID).2 ↔
      ∃ id ∈ granted, h.reachedThrough t traceID id ≠ ∅) ∧
    ∀ id ∈ granted,
      ((h.reachedThrough t traceID id ≠ ∅ ↔ h.SliceMatches t id traceID start stop) ↔
        t.WholeInReach (h.memberServices id) id traceID) := by
  refine ⟨traceReachedByIntegration_iff hgranted, ?_⟩
  intro id _
  rw [reachedThrough_iff htrace, sliceMatches_iff hstart hstop hinside]
  by_cases hgroups : t.integrationGroups id = []
  · have hwhole : t.WholeInReach (h.memberServices id) id traceID :=
      wholeInReach_of_noGroups hgroups
    simp only [hgroups, true_or, hwhole]
  simp only [hgroups, false_or, onMembers_and, onMembers_or]
  constructor
  · intro hagree
    exact ⟨fun hrule => (hagree.1 hrule).2,
      fun hpresent hanchored => hagree.2 ⟨Or.inr hanchored, hpresent⟩⟩
  · rintro ⟨hpresent, hanchored⟩
    constructor
    · exact fun hrule => ⟨Or.inl hrule, hpresent hrule⟩
    · rintro ⟨hrule | hbelow, hall⟩
      · exact hrule
      · exact hanchored hall hbelow

/-! An order flow over a gateway and billing, granted to one reader. -/

private def reader : Principal := { kind := .user, userID := some 1, role := .viewer }

private def flowHandlers (members : List String) : Handlers where
  identity := {
    policies := [{ id := 1, groupID := 1, kind := .integration,
                   targetIntegrationID := some 7, signals := [] }]
    policyKey := List.nodup_singleton _
    members := [⟨1, .user 1, .viewer⟩]
    shares := []
    attributes := []
    catalog := {
      services := []
      serviceKey := List.nodup_nil
      systems := []
      integrations := [⟨7, "order-flow"⟩]
      matched := fun _ => members
      attached := fun _ => members }
    compile := fun _ => none }

private def textOnly : Store.Engine Nat where
  regex _ _ := false
  parseFloat _ := none
  toFloat64OrNull _ := none
  compare _ _ _ := false

private def received : Span :=
  ⟨5, "t", "1", "", "gateway", "receive", "", [], [("order", "7")]⟩

private def charged : Span := ⟨6, "t", "2", "1", "billing", "charge", "", [], []⟩

private def bothServices : List GroupedMatcher :=
  [{ attr := "service.name", operator := .equals, value := "gateway", matchGroup := 0 },
   { attr := "service.name", operator := .equals, value := "billing", matchGroup := 1 }]

private def belowOrders : List GroupedMatcher :=
  [{ attr := "order", operator := .keyExists, value := "", includeDescendants := true }]

private def flowTelemetry (traces : List Span) (matchers : List GroupedMatcher)
    (mode : RuleMatch) : Telemetry Nat where
  cfg := ⟨"", []⟩
  engine := textOnly
  traces := traces
  matchers := fun _ => matchers
  ruleMatch := fun _ => mode

/-- Both services in one trace, under either rule, are reached and found alike. -/
theorem traceReach_agrees_union :
    ((flowHandlers ["gateway", "billing"]).traceReachedByIntegration reader
        (flowTelemetry [received, charged] bothServices .any) "t").2 ∧
      (flowHandlers ["gateway", "billing"]).SliceMatches
        (flowTelemetry [received, charged] bothServices .any) 7 "t" 1 9 := by
  obtain ⟨hreached, hagree⟩ := traceReach_agrees_iff (flowHandlers ["gateway", "billing"]) reader
    (flowTelemetry [received, charged] bothServices .any) {7} "t" 1 9 rfl (by decide)
    (by decide) (by decide) (by decide)
  have hmem : "gateway" ∈ (flowHandlers ["gateway", "billing"]).reachedThrough
      (flowTelemetry [received, charged] bothServices .any) "t" 7 := by decide +kernel
  have hne := Finset.ne_empty_of_mem hmem
  have hgroups : ∀ x ∈ memberGroups
      ((flowTelemetry [received, charged] bothServices .any).integrationGroups 7),
      x.1.any LogAttrFilter.requireAllGroups = false ∧
        x.1.any LogAttrFilter.descendants = false := by decide +kernel
  refine ⟨hreached.2 ⟨7, Finset.mem_singleton_self 7, hne⟩, ?_⟩
  refine ((hagree 7 (Finset.mem_singleton_self 7)).2 ⟨?_, ?_⟩).1 hne
  · rintro _ ⟨⟨x, hx, hrequired⟩, _⟩
    rw [(hgroups x hx).1] at hrequired
    cases hrequired
  · rintro _ ⟨s, _, _, _, x, hx, hdescendants, _⟩
    rw [(hgroups x hx).2] at hdescendants
    cases hdescendants

/-- With both services required, a trace of the gateway alone is admitted although the slice
has no span of it; and a trace whose billing span lies below an order of the gateway is not
admitted although the slice of billing has it. -/
theorem traceReach_disagrees :
    ("gateway" ∈ (flowHandlers ["gateway", "billing"]).reachedThrough
        (flowTelemetry [received] bothServices .all) "t" 7 ∧
      ¬ (flowHandlers ["gateway", "billing"]).SliceMatches
        (flowTelemetry [received] bothServices .all) 7 "t" 1 9) ∧
    ((flowHandlers ["billing"]).reachedThrough
        (flowTelemetry [received, charged] belowOrders .any) "t" 7 = ∅ ∧
      (flowHandlers ["billing"]).SliceMatches
        (flowTelemetry [received, charged] belowOrders .any) 7 "t" 1 9) := by
  refine ⟨⟨by decide +kernel, ?_⟩, by decide +kernel, ?_⟩
  · rintro ⟨ds, hds, d, hd, s, hs, _, hadmits⟩
    cases hds
    cases List.mem_singleton.1 hd
    cases List.mem_singleton.1 hs
    revert hadmits
    decide +kernel
  · exact ⟨_, rfl, _, List.mem_singleton_self _, charged, by decide, rfl, by decide +kernel⟩

end Sluicio.Api
