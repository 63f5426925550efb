import Sluicio.Api.TraceReach
import Sluicio.Identity.Catalogs
import Sluicio.Integrations.Slices

/-!
# Rows read through an integration

A principal that was granted an integration reads the spans of its members that its matchers
select, the traces that have such a span, and, naming the integration, its slice of the metrics
and of the logs: its members' and its sources'.  Everyone else reads of an integration what
their services let them, and so nothing that they do not read as rows of a service.  The pages
that return counts are left out.
-/

namespace Sluicio.Api

open Identity Handlers
open Store (Row Span)
open Integrations (Scope Selected Source SourceSignal resolveSources sliceScope
  withEnvironments attrGroupsFromMatchers)
open Tracecompletion (trimSpace)

variable {F : Type}

def noIntegrationLabel : String := "(no integration)"

def sourceSignal : Signal → Option SourceSignal
  | .metrics => some .metrics
  | .logs => some .logs
  | .traces | .messages => none

def signalsOf : Row → List Signal
  | .span _ => [.traces, .messages]
  | .log _ => [.logs]
  | .metric _ => [.metrics]

/-- What a request reads, with the sources of the integrations. -/
structure SourcedTelemetry (F : Type) extends Telemetry F where
  sources : UUID → List Source

/-- `SystemMemberNames`, as far as the lookup finds them. -/
def Handlers.systemMembers (h : Handlers) (id : UUID) : List String :=
  match h.identity.catalog.systemMemberNames id with
  | .error _ => []
  | .ok names => names

def Handlers.integrationSignalScope (h : Handlers) (t : SourcedTelemetry F) (id : UUID)
    (members : List String) (sig : Signal) : Scope :=
  let groups := attrGroupsFromMatchers (t.matchers id) (t.ruleMatch id)
  match sourceSignal sig with
  | some signal =>
    sliceScope members groups (resolveSources h.systemMembers signal (t.sources id)) signal
      t.environments
  | none => (members, withEnvironments groups t.environments)

/-- `integrationSliceScope`, for the integration that the request names; `none` where the grant
does not apply. -/
def Handlers.integrationSliceScope (h : Handlers) (p : Principal) (t : SourcedTelemetry F)
    (id : UUID) (sig : Signal) : Option Scope :=
  match h.grantedIntegrationsForSignal p sig with
  | none => none
  | some granted =>
    if id ∉ granted then none
    else
      match h.identity.catalog.integrationServices id with
      | .error _ => some ([], [])
      | .ok members =>
        if members = [] then some ([], []) else some (h.integrationSignalScope t id members sig)

/-- The name can be asked for: `?integration=` with it reaches the integrations. -/
def Askable (name : String) : Prop :=
  (∃ param, trimSpace param = name) ∧ name ≠ "" ∧ name ≠ noIntegrationLabel

section Reads

variable (h : Handlers) (p : Principal) (t : SourcedTelemetry F) (start stop : Int)

def Handlers.ReadsService (row : Row) : Prop :=
  ∃ sig ∈ signalsOf row, ∀ set, h.signalServiceFilter p sig = some set → row.serviceName ∈ set

/-- The principal reads the row through an integration, over a window.  Of several integrations
with one name a request may find any: the list is ordered by the name alone. -/
inductive Handlers.ReadsThrough : Row → Prop where
  | slice {row : Row} {sig : Signal} {id : UUID} {name : String} {scope : Scope}
      (hsig : sig ∈ signalsOf row) (hsource : (sourceSignal sig).isSome)
      (hname : ⟨id, name⟩ ∈ h.identity.catalog.integrations) (hask : Askable name)
      (hscope : h.integrationSliceScope p t id sig = some scope)
      (hrow : Selected t.cfg t.engine t.traces start stop scope row) : ReadsThrough row
  | spans {s : Span} {sig : Signal} {id : UUID} {members : List String} {matchers : String}
      (hsig : sig ∈ signalsOf (.span s))
      (hslice : .slice id members matchers ∈ (h.visibleSpanScope p sig).clause)
      (hspan : (SpanDisjunct.slice id members matchers).admits t.toTelemetry start stop s =
        true) : ReadsThrough (.span s)
  | trace {s : Span}
      (hreached : s.serviceName ∈
        (h.traceReachedByIntegration p t.toTelemetry s.traceId).1) : ReadsThrough (.span s)

end Reads

/-! ## Who is granted an integration -/

def Handlers.over (h : Handlers) (v : IntegrationView) : Handlers :=
  { h with identity := h.identity.over v }

section Granted

variable {h : Handlers} {v v' : IntegrationView} {p : Principal} {sig : Signal} {id : UUID}

/-- The principal is restricted to what its policies and shares grant. -/
def Handlers.RestrictedTo (h : Handlers) (p : Principal) (ref : MemberRef) : Prop :=
  h.visibilityMember p = some ref ∧
    ¬ HasAllOrg ((h.identity.memberPolicies ref).map UserPolicy.policy)

theorem Handlers.RestrictedTo.resolved {ref : MemberRef} (hp : h.RestrictedTo p ref)
    (v : IntegrationView) (sig : Signal) : ∃ sets,
      (h.identity.over v).resolveAccessSetsMember ref = .ok sets ∧ sets.visibleAll = false ∧
        sets.signalAll sig = false := by
  obtain ⟨sets, hsets⟩ := (h.identity.answers_over v).resolveAccessSetsMember ref
  have hres := resolveAccessSetsMember_eq_ok hsets
  have hall : sets.visibleAll = false := by
    rw [Bool.eq_false_iff]
    exact fun hw => hp.2 (hres.visibleAll.1 hw)
  exact ⟨sets, hsets, hall, hres.signalAll hall sig⟩

theorem restrictedTo_of_filter {set : Finset String}
    (hset : (h.over v).signalServiceFilter p sig = some set) : ∃ ref, h.RestrictedTo p ref := by
  unfold signalServiceFilter at hset
  have hmember : (h.over v).visibilityMember p = h.visibilityMember p := rfl
  rw [hmember] at hset
  cases href : h.visibilityMember p with
  | none =>
    rw [href] at hset
    cases hset
  | some ref =>
    refine ⟨ref, href, fun hall => ?_⟩
    obtain ⟨sets, hsets⟩ := (h.identity.answers_over v).resolveAccessSetsMember ref
    have hwild := ((resolveAccessSetsMember_eq_ok hsets).visibleFor_wildcard sig).2 hall
    have hresolve : (h.over v).identity.resolveAccessSetsMember ref = .ok sets := hsets
    simp only [href, hresolve] at hset
    split at hset
    · cases hset
    · next hnot => rw [hnot] at hwild; cases hwild

theorem mem_grantedIntegrationsForSignal_over :
    (∃ granted, (h.over v).grantedIntegrationsForSignal p sig = some granted ∧ id ∈ granted) ↔
      ∃ ref, h.RestrictedTo p ref ∧ (h.identity.over v).GrantedTo ref (h.covering ref sig) id := by
  have hmember : (h.over v).visibilityMember p = h.visibilityMember p := rfl
  unfold grantedIntegrationsForSignal
  rw [hmember]
  constructor
  · rintro ⟨granted, hgranted, hid⟩
    cases href : h.visibilityMember p with
    | none =>
      rw [href] at hgranted
      cases hgranted
    | some ref =>
      obtain ⟨sets, hsets⟩ := (h.identity.answers_over v).resolveAccessSetsMember ref
      have hres := resolveAccessSetsMember_eq_ok hsets
      have hresolve : (h.over v).identity.resolveAccessSetsMember ref = .ok sets := hsets
      simp only [href, hresolve] at hgranted
      split at hgranted
      · cases hgranted
      · next hnot =>
        have hno : ¬ HasAllOrg (h.allPolicies ref) := fun hall =>
          hnot ((hres.visibleFor_wildcard sig).2 hall)
        have hall : sets.visibleAll = false := by
          rw [Bool.eq_false_iff]
          exact fun hw => hno (hres.visibleAll.1 hw)
        obtain rfl := Option.some.inj hgranted
        exact ⟨ref, ⟨href, hno⟩, (hres.integrationsBySignal hall sig id).1 hid⟩
  · rintro ⟨ref, hp, hid⟩
    obtain ⟨sets, hsets, hall, hsig⟩ := hp.resolved v sig
    have hresolve : (h.over v).identity.resolveAccessSetsMember ref = .ok sets := hsets
    have hres := resolveAccessSetsMember_eq_ok hsets
    refine ⟨sets.integrationsBySignal sig, ?_, (hres.integrationsBySignal hall sig id).2 hid⟩
    simp [hp.1, hresolve, AccessSets.visibleFor, AccessSets.integrationsFor, hall, hsig]

theorem mem_grantedIntegrations_over :
    (∃ granted, (h.over v).grantedIntegrations p = some granted ∧ id ∈ granted) ↔
      ∃ ref, h.RestrictedTo p ref ∧ (h.identity.over v).GrantedTo ref (h.allPolicies ref) id := by
  have hmember : (h.over v).visibilityMember p = h.visibilityMember p := rfl
  unfold grantedIntegrations
  rw [hmember]
  constructor
  · rintro ⟨granted, hgranted, hid⟩
    cases href : h.visibilityMember p with
    | none =>
      rw [href] at hgranted
      cases hgranted
    | some ref =>
      rw [href] at hgranted
      dsimp only at hgranted
      split at hgranted
      · cases hgranted
      · cases hgranted
      · next set hset =>
        obtain ⟨hwild, hmem⟩ := resolveVisibleIntegrationsMember_eq_ok hset
        obtain rfl := Option.some.inj hgranted
        refine ⟨ref, ⟨href, fun hall => ?_⟩, (hmem rfl id).1 hid⟩
        cases hwild.2 hall
  · rintro ⟨ref, hp, hid⟩
    obtain ⟨sets, hsets, _, _⟩ := hp.resolved v .logs
    obtain ⟨⟨set, wildcard⟩, hset⟩ := resolveVisibleIntegrationsMember_ok hsets
    obtain ⟨hwild, hmem⟩ := resolveVisibleIntegrationsMember_eq_ok hset
    obtain rfl : wildcard = false := by
      rw [Bool.eq_false_iff]
      exact fun hw => hp.2 (hwild.1 hw)
    have hresolve : (h.over v).identity.resolveVisibleIntegrationsMember ref =
        .ok (set, false) := hset
    refine ⟨set, ?_, (hmem rfl id).2 hid⟩
    simp only [hp.1, hresolve]

theorem slice_mem_visibleSpanScope_over {members : List String} {matchers : String} :
    .slice id members matchers ∈ ((h.over v).visibleSpanScope p sig).clause ↔
      (∃ ref, h.RestrictedTo p ref ∧ (h.identity.over v).GrantedTo ref (h.allPolicies ref) id) ∧
      v.attached id ≠ [] ∧ members = v.attached id ∧ matchers = h.integrationGroups id := by
  have hscope : ∀ ref, h.RestrictedTo p ref →
      (.slice id members matchers ∈ ((h.over v).visibleSpanScope p sig).clause ↔
        (h.identity.over v).GrantedTo ref (h.allPolicies ref) id ∧
        v.attached id ≠ [] ∧ members = v.attached id ∧ matchers = h.integrationGroups id) := by
    intro ref hp
    obtain ⟨sets, hsets, _, _⟩ := hp.resolved v sig
    have hmember : (h.over v).visibilityMember p = some ref := hp.1
    have hno : ¬ HasAllOrg ((h.over v).allPolicies ref) := hp.2
    rw [(mem_visibleSpanScope sig hmember hsets (fun _ => rfl) hno).2]
    constructor
    · rintro (⟨_, hservices⟩ | ⟨id', hgranted, hattached, hslice⟩)
      · cases hservices
      · cases hslice
        exact ⟨hgranted, hattached, rfl, rfl⟩
    · rintro ⟨hgranted, hattached, rfl, rfl⟩
      exact .inr ⟨id, hgranted, hattached, rfl⟩
  constructor
  · intro hmem
    obtain ⟨ref, hp⟩ : ∃ ref, h.RestrictedTo p ref := by
      cases hset : (h.over v).signalServiceFilter p sig with
      | none => simp [visibleSpanScope, hset] at hmem
      | some set => exact restrictedTo_of_filter hset
    obtain ⟨hgranted, hrest⟩ := (hscope ref hp).1 hmem
    exact ⟨⟨ref, hp, hgranted⟩, hrest⟩
  · rintro ⟨⟨ref, hp, hgranted⟩, hrest⟩
    exact (hscope ref hp).2 ⟨hgranted, hrest⟩

end Granted

/-! ## Two states of the integrations -/

structure SourcedTelemetry.SameRows (t t' : SourcedTelemetry F) : Prop where
  cfg : t'.cfg = t.cfg
  engine : t'.engine = t.engine
  traces : t'.traces = t.traces
  environments : t'.environments = t.environments

/-- Whoever finds the integration by its name now could find it. -/
def KeepsAskable (v v' : IntegrationView) (id : UUID) : Prop :=
  ∀ name', (⟨id, name'⟩ : NamedEntity) ∈ v'.entities → Askable name' →
    ∀ name, (⟨id, name⟩ : NamedEntity) ∈ v.entities → Askable name

structure Handlers.ShowsNoMore (h : Handlers) (v v' : IntegrationView)
    (t t' : SourcedTelemetry F) (row : Row) : Prop where
  rows : t.SameRows t'
  service : v.KeepsService v' row.serviceName
  spans : ∀ id, row.serviceName ∈ v'.attached id →
    v'.attached id = v.attached id ∧ t'.integrationGroups id = t.integrationGroups id ∧
      h.identity.KeepsName v v' id
  slices : ∀ id sig signal start stop, sig ∈ signalsOf row → sourceSignal sig = some signal →
    v'.attached id ≠ [] →
    Selected t'.cfg t'.engine t'.traces start stop
      ((h.over v').integrationSignalScope t' id (v'.attached id) sig) row →
    (v.attached id ≠ [] ∧
      Selected t.cfg t.engine t.traces start stop
        ((h.over v).integrationSignalScope t id (v.attached id) sig) row) ∧
      h.identity.KeepsName v v' id ∧ KeepsAskable v v' id

section TwoStates

variable {h : Handlers} {v v' : IntegrationView} {t t' : SourcedTelemetry F} {row : Row}
  {p : Principal}

theorem signalServiceFilter_over {ref : MemberRef} (hp : h.RestrictedTo p ref)
    (v : IntegrationView) (sig : Signal) : ∃ sets,
      (h.identity.over v).resolveAccessSetsMember ref = .ok sets ∧
        (h.over v).signalServiceFilter p sig = some (sets.visibleBySignal sig) ∧
        ∀ n, sets.SeesFor sig n ↔ n ∈ sets.visibleBySignal sig := by
  obtain ⟨sets, hsets, hall, hsig⟩ := hp.resolved v sig
  have hresolve : (h.over v).identity.resolveAccessSetsMember ref = .ok sets := hsets
  have hmember : (h.over v).visibilityMember p = some ref := hp.1
  refine ⟨sets, hsets, ?_, fun n => ?_⟩
  · simp [signalServiceFilter, hmember, hresolve, AccessSets.visibleFor, hall, hsig]
  · simp [AccessSets.SeesFor, AccessSets.visibleFor, hall, hsig]

theorem readsService_of_over (hkeep : v.KeepsService v' row.serviceName)
    (hreads : (h.over v').ReadsService p row) : (h.over v).ReadsService p row := by
  obtain ⟨sig, hsig, hfilter⟩ := hreads
  refine ⟨sig, hsig, fun set hset => ?_⟩
  obtain ⟨ref, hp⟩ := restrictedTo_of_filter hset
  obtain ⟨sets', hsets', hset', hsees'⟩ := signalServiceFilter_over hp v' sig
  obtain ⟨sets, hsets, hset₀, hsees⟩ := signalServiceFilter_over hp v sig
  rw [hset] at hset₀
  obtain rfl := Option.some.inj hset₀
  have hnow : sets'.SeesFor sig row.serviceName := (hsees' _).2 (hfilter _ hset')
  exact (hsees _).1 (seesFor_of_over hkeep hsets' hsets hnow)

theorem holds_covering (ref : MemberRef) (sig : Signal) :
    h.identity.Holds (h.covering ref sig) := by
  intro q hq
  obtain ⟨up, hup, rfl⟩ := List.mem_map.1 hq
  exact holds_memberPolicies h.identity ref _ (List.mem_map_of_mem (List.mem_filter.1 hup).1)

variable {start stop : Int} {sig : Signal} {id : UUID}

theorem grantedIntegrations_of_over (hkeep : h.identity.KeepsName v v' id)
    (hgranted : ∃ granted, (h.over v').grantedIntegrations p = some granted ∧ id ∈ granted) :
    ∃ granted, (h.over v).grantedIntegrations p = some granted ∧ id ∈ granted := by
  rw [mem_grantedIntegrations_over] at hgranted ⊢
  obtain ⟨ref, hp, hid⟩ := hgranted
  exact ⟨ref, hp, grantedTo_of_over hkeep (holds_memberPolicies h.identity ref) hid⟩

theorem grantedIntegrationsForSignal_of_over (hkeep : h.identity.KeepsName v v' id)
    (hgranted : ∃ granted, (h.over v').grantedIntegrationsForSignal p sig = some granted ∧
      id ∈ granted) :
    ∃ granted, (h.over v).grantedIntegrationsForSignal p sig = some granted ∧ id ∈ granted := by
  rw [mem_grantedIntegrationsForSignal_over] at hgranted ⊢
  obtain ⟨ref, hp, hid⟩ := hgranted
  exact ⟨ref, hp, grantedTo_of_over hkeep (holds_covering ref sig) hid⟩

theorem integrationSliceScope_over :
    (∃ scope, (h.over v).integrationSliceScope p t id sig = some scope ∧
      Selected t.cfg t.engine t.traces start stop scope row) ↔
    (∃ granted, (h.over v).grantedIntegrationsForSignal p sig = some granted ∧ id ∈ granted) ∧
      v.attached id ≠ [] ∧
      Selected t.cfg t.engine t.traces start stop
        ((h.over v).integrationSignalScope t id (v.attached id) sig) row := by
  have hmembers : (h.over v).identity.catalog.integrationServices id = .ok (v.attached id) :=
    (h.identity.answers_over v).integrationServices id
  unfold integrationSliceScope
  rw [hmembers]
  cases hgranted : (h.over v).grantedIntegrationsForSignal p sig with
  | none => simp
  | some granted =>
    by_cases hid : id ∈ granted
    · by_cases hattached : v.attached id = []
      · simp [hid, hattached, Selected]
      · simp [hid, hattached]
    · simp [hid]

theorem reachedThrough_over (hsame : t.SameRows t') (hattached : v'.attached id = v.attached id)
    (hgroups : t'.integrationGroups id = t.integrationGroups id) (traceID : String) :
    (h.over v').reachedThrough t'.toTelemetry traceID id =
      (h.over v).reachedThrough t.toTelemetry traceID id := by
  have hmembers : ∀ w : IntegrationView,
      (h.over w).identity.catalog.integrationServices id = .ok (w.attached id) :=
    fun w => (h.identity.answers_over w).integrationServices id
  unfold reachedThrough Telemetry.traceMatches Telemetry.spanClause Telemetry.holds
  rw [hmembers, hmembers, hattached, hgroups, hsame.cfg, hsame.engine, hsame.traces]

variable {name traceID : String} {s : Span}

theorem mem_attached_of_reachedThrough
    (hin : name ∈ (h.over v).reachedThrough t.toTelemetry traceID id) : name ∈ v.attached id := by
  have hmembers : (h.over v).identity.catalog.integrationServices id = .ok (v.attached id) :=
    (h.identity.answers_over v).integrationServices id
  unfold reachedThrough at hin
  rw [hmembers] at hin
  dsimp only at hin
  split at hin
  · exact List.mem_toFinset.1 hin
  · exact absurd hin (Finset.notMem_empty _)

theorem mem_traceReachedByIntegration :
    name ∈ (h.traceReachedByIntegration p t.toTelemetry traceID).1 ↔
      ∃ id, (∃ granted, h.grantedIntegrations p = some granted ∧ id ∈ granted) ∧
        name ∈ h.reachedThrough t.toTelemetry traceID id := by
  unfold traceReachedByIntegration
  cases hgranted : h.grantedIntegrations p with
  | none => simp
  | some granted => simp [Finset.mem_biUnion]

theorem traceReached_of_over (hno : h.ShowsNoMore v v' t t' (.span s)) (hreached : s.serviceName ∈
      ((h.over v').traceReachedByIntegration p t'.toTelemetry s.traceId).1) :
    s.serviceName ∈ ((h.over v).traceReachedByIntegration p t.toTelemetry s.traceId).1 := by
  rw [mem_traceReachedByIntegration] at hreached ⊢
  obtain ⟨id, hgranted, hin⟩ := hreached
  obtain ⟨hsame, hgroups, hkeep⟩ := hno.spans id (mem_attached_of_reachedThrough hin)
  rw [reachedThrough_over hno.rows hsame hgroups] at hin
  exact ⟨id, grantedIntegrations_of_over hkeep hgranted, hin⟩

theorem spanSlice_of_over {members : List String} {matchers : String}
    (hno : h.ShowsNoMore v v' t t' (.span s))
    (hslice : .slice id members matchers ∈ ((h.over v').visibleSpanScope p sig).clause)
    (hspan : (SpanDisjunct.slice id members matchers).admits t'.toTelemetry start stop s) :
    ∃ members matchers, .slice id members matchers ∈ ((h.over v).visibleSpanScope p sig).clause ∧
      (SpanDisjunct.slice id members matchers).admits t.toTelemetry start stop s := by
  obtain ⟨hgranted, hattached, rfl, rfl⟩ := slice_mem_visibleSpanScope_over.1 hslice
  have hmember : s.serviceName ∈ v'.attached id := by
    simp only [SpanDisjunct.admits, Bool.and_eq_true, decide_eq_true_eq] at hspan
    exact hspan.1
  obtain ⟨hsame, hgroups, hkeep⟩ := hno.spans id hmember
  refine ⟨v'.attached id, h.integrationGroups id, ?_, ?_⟩
  · refine slice_mem_visibleSpanScope_over.2 ⟨?_, ?_, hsame, rfl⟩
    · obtain ⟨ref, hp, hid⟩ := hgranted
      exact ⟨ref, hp, grantedTo_of_over hkeep (holds_memberPolicies h.identity ref) hid⟩
    · rw [← hsame]
      exact hattached
  · rw [← hspan]
    simp only [SpanDisjunct.admits, Telemetry.spanClause, Telemetry.holds]
    rw [hgroups, hno.rows.cfg, hno.rows.engine, hno.rows.traces]

/-- **A state of the integrations that shows no more is one in which nobody reads more.** -/
theorem readsThrough_of_over (hno : h.ShowsNoMore v v' t t' row)
    (hreads : (h.over v').ReadsThrough p t' start stop row) :
    (h.over v).ReadsThrough p t start stop row := by
  cases hreads with
  | slice hsig hsource hname hask hscope hrow =>
    next sig id name scope =>
    obtain ⟨signal, hsignal⟩ := Option.isSome_iff_exists.1 hsource
    obtain ⟨hgranted, hattached, hselected⟩ :=
      integrationSliceScope_over.1 ⟨scope, hscope, hrow⟩
    obtain ⟨hslice, hkeep, haskable⟩ :=
      hno.slices id sig signal start stop hsig hsignal hattached hselected
    obtain ⟨old, hold, _⟩ := hkeep name hname
    obtain ⟨scope₀, hscope₀, hrow₀⟩ := integrationSliceScope_over.2
      ⟨grantedIntegrationsForSignal_of_over hkeep hgranted, hslice⟩
    exact .slice hsig hsource hold (haskable name hname hask old hold) hscope₀ hrow₀
  | spans hsig hslice hspan =>
    obtain ⟨members, matchers, hslice₀, hspan₀⟩ := spanSlice_of_over hno hslice hspan
    exact .spans hsig hslice₀ hspan₀
  | trace hreached => exact .trace (traceReached_of_over hno hreached)

end TwoStates

end Sluicio.Api
