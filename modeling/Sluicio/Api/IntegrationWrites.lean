import Sluicio.Api.IntegrationReads
import Sluicio.Api.WriteRoutes
import Sluicio.Catalog.Reconciler
import Sluicio.Integrations.Membership

/-!
# Requests that change what an integration covers

The requests that change an integration's name, its matchers and how they combine, and its
sources.  The routes ask whether the caller manages every service that the matchers select now,
and the handlers that take matchers whether the caller manages what those select.  After every
request but one for the sources, or for a clone, the reconciler stores the members again.
-/

namespace Sluicio.Api.IntegrationWrites

open Identity Lib Integrations
open Store (Row Engine EnvironmentConfig)
open Integrations (Matcher GroupedMatcher RuleMatch Source acceptSources
  servicesForIntegration)
open Catalog.Reconciler (projectMatchers)
open Tracecompletion (trimSpace)

/-- A row of `integrations`, with its rows of the tables that belong to it. -/
structure IntegrationRow where
  id : UUID
  name : String
  ruleMatch : RuleMatch := .any
  matchers : List (UUID × GroupedMatcher) := []
  sources : List Source := []
  services : List String := []
  deriving DecidableEq

/-- The integrations of one organization. -/
@[ext] structure State where
  rows : List IntegrationRow
  rowKey : (rows.map IntegrationRow.id).Nodup

def State.integration (s : State) (id : UUID) : Option IntegrationRow :=
  s.rows.find? fun r => r.id = id

/-- `UPDATE integrations … WHERE id = …`, and the same of the tables that belong to the row. -/
def State.put (s : State) (row : IntegrationRow) : State where
  rows := updateWhere (fun r => r.id = row.id) (fun r => { row with id := r.id }) s.rows
  rowKey := nodup_updateWhere (fun _ => rfl) s.rowKey

/-- An `INSERT` of a row with an id of its own. -/
def State.insert (s : State) (row : IntegrationRow) : State :=
  if hnew : row.id ∈ s.rows.map IntegrationRow.id then s
  else ⟨row :: s.rows, List.nodup_cons.2 ⟨hnew, s.rowKey⟩⟩

/-- What stays while the integrations change: the policies, the shares, the catalog of services
and systems, and the telemetry. -/
structure Cell (F : Type) where
  auth : AuthStore := {}
  base : Handlers
  cfg : EnvironmentConfig
  engine : Engine F
  traces : List Store.Span
  parseFloat : String → Bool

section Reads

variable {F : Type} (c : Cell F)

def Cell.names : List String := c.base.identity.catalog.services.map Service.serviceName

def Cell.systemMembers (id : UUID) : List String :=
  (c.base.identity.catalog.services.filter fun svc => svc.systemID = some id).map
    Service.serviceName

def Cell.select (ms : List (UUID × GroupedMatcher)) : List String :=
  servicesForIntegration c.base.identity.compile (ms.map Prod.snd) c.names

/-- What the policy resolver reads of the integrations. -/
def Cell.view (s : State) : IntegrationView where
  entities := s.rows.map fun r => ⟨r.id, r.name⟩
  matched := fun id => ((s.integration id).map fun r => c.select r.matchers).getD []
  attached := fun id => ((s.integration id).map IntegrationRow.services).getD []

def Cell.handlers (s : State) : Handlers := c.base.over (c.view s)

/-- What a request for the environments `envs` reads. -/
def Cell.telemetry (s : State) (envs : List String) : SourcedTelemetry F where
  cfg := c.cfg
  engine := c.engine
  traces := c.traces
  matchers := fun id => ((s.integration id).map fun r => r.matchers.map Prod.snd).getD []
  ruleMatch := fun id => ((s.integration id).map IntegrationRow.ruleMatch).getD .any
  environments := envs
  sources := fun id => ((s.integration id).map IntegrationRow.sources).getD []

def Cell.CanRead (s : State) (p : Principal) (row : Row) : Prop :=
  (c.handlers s).ReadsService p row ∨
    ∃ envs start stop, (c.handlers s).ReadsThrough p (c.telemetry s envs) start stop row

end Reads

/-! ## Requests -/

/-- A matcher of a request; one without an attribute is on the service's name. -/
def named (m : GroupedMatcher) : GroupedMatcher :=
  if m.attr = "" then { m with attr := "service.name" } else m

/-- A request to a route of one integration, with a body that decodes. -/
inductive Edit where
  | updateIntegration (name : String) (ruleMatch : Option RuleMatch)
  | addMatcher (id : UUID) (m : GroupedMatcher)
  | replaceMatchers (ms : List (UUID × GroupedMatcher)) (ruleMatch : Option RuleMatch)
  | removeMatcher (id : UUID)
  | removeServiceFromIntegration (name : String)
  | putIntegrationSources (sources : List Source)

/-- A request of the editor, or a pass of the reconciler on its own.  A slug that is taken, or
a licence's limit, refuses a new integration before any of this, and is no request here. -/
inductive Request where
  | createIntegration (id : UUID) (name : String) (ruleMatch : RuleMatch)
    (ms : List (UUID × GroupedMatcher))
  | cloneIntegration (src id : UUID) (name : String) (copy : UUID → UUID)
  | edit (id : UUID) (e : Edit)
  | pass

section Handlers

variable {F : Type} (c : Cell F) (h : Handlers) (p : Principal)

/-- The matchers of a request pass: the editor contains them, and each is valid. -/
def acceptMatchers (ms : List (UUID × GroupedMatcher)) : Bool :=
  h.matcherContainmentOK p (ms.map fun m => m.2.toMatcher) &&
    ms.all fun m => (m.2.validate h.identity.compile).isOk

def readMatchers (ms : List (UUID × GroupedMatcher)) : List (UUID × GroupedMatcher) :=
  ms.map fun m => (m.1, named m.2)

def createIntegration (id : UUID) (name : String) (ruleMatch : RuleMatch)
    (ms : List (UUID × GroupedMatcher)) : Option IntegrationRow :=
  if trimSpace name = "" ∨ acceptMatchers h p (readMatchers ms) = false then none
  else
    some { id := id, name := trimSpace name, ruleMatch := ruleMatch, matchers := readMatchers ms }

/-- `cloneIntegration`.  The stored services are not copied, and neither are the sources; the
policies of the groups are copied for an admin only. -/
def cloneIntegration (id : UUID) (name : String) (copy : UUID → UUID) (src : IntegrationRow) :
    Option IntegrationRow :=
  if trimSpace name = "" ∨
      h.matcherContainmentOK p (src.matchers.map fun m => m.2.toMatcher) = false then none
  else
    some
      { id := id, name := trimSpace name, ruleMatch := src.ruleMatch
        matchers := src.matchers.map fun m => (copy m.1, m.2) }

def updateIntegration (name : String) (ruleMatch : Option RuleMatch) (r : IntegrationRow) :
    Option IntegrationRow :=
  if trimSpace name = "" then none
  else some { r with name := trimSpace name, ruleMatch := ruleMatch.getD r.ruleMatch }

def addMatcher (id : UUID) (m : GroupedMatcher) (r : IntegrationRow) : Option IntegrationRow :=
  if acceptMatchers h p (readMatchers [(id, m)]) then
    some { r with matchers := r.matchers ++ readMatchers [(id, m)] }
  else none

def replaceMatchers (ms : List (UUID × GroupedMatcher)) (ruleMatch : Option RuleMatch)
    (r : IntegrationRow) : Option IntegrationRow :=
  if acceptMatchers h p (readMatchers ms) then
    some { r with matchers := readMatchers ms, ruleMatch := ruleMatch.getD r.ruleMatch }
  else none

def removeMatcher (id : UUID) (r : IntegrationRow) : Option IntegrationRow :=
  if r.matchers.any fun m => m.1 = id then
    some { r with matchers := r.matchers.filter fun m => m.1 ≠ id }
  else none

def ties (name : String) (m : GroupedMatcher) : Bool :=
  m.operator = .equals && m.value = name

def removeServiceFromIntegration (name : String) (r : IntegrationRow) : Option IntegrationRow :=
  if name ≠ "" ∧ r.matchers.any (fun m => ties name m.2) then
    some { r with matchers := r.matchers.filter fun m => !ties name m.2 }
  else none

def Cell.systemsExist (sources : List Source) : Bool :=
  sources.all fun s =>
    match s.origin with
    | .service _ => true
    | .system id => c.base.identity.catalog.systems.any fun sys => sys.id = id

def Cell.putIntegrationSources (sources : List Source) (r : IntegrationRow) :
    Option IntegrationRow :=
  if c.systemsExist sources then
    match acceptSources c.base.identity.compile c.parseFloat sources with
    | .error _ => none
    | .ok stored => some { r with sources := stored }
  else none

/-- The row that a request leaves; `none` when it is refused, or changes nothing. -/
def Cell.edited (r : IntegrationRow) : Edit → Option IntegrationRow
  | .updateIntegration name ruleMatch => IntegrationWrites.updateIntegration name ruleMatch r
  | .addMatcher id m => IntegrationWrites.addMatcher h p id m r
  | .replaceMatchers ms ruleMatch => IntegrationWrites.replaceMatchers h p ms ruleMatch r
  | .removeMatcher id => IntegrationWrites.removeMatcher id r
  | .removeServiceFromIntegration name =>
    IntegrationWrites.removeServiceFromIntegration name r
  | .putIntegrationSources sources => c.putIntegrationSources sources r

/-- The reconciler runs after the request. -/
def Edit.reconciles : Edit → Bool
  | .putIntegrationSources _ => false
  | _ => true

end Handlers

section Steps

variable {F : Type} (c : Cell F)

/-- What a pass of the reconciler makes of a row: it comes to it only through a matcher. -/
def Cell.reconciled (r : IntegrationRow) : IntegrationRow :=
  if r.matchers = [] then r
  else
    { r with
      services :=
        projectMatchers c.base.identity.compile (r.matchers.map fun m => m.2.toMatcher) c.names }

theorem Cell.reconciled_id (r : IntegrationRow) : (c.reconciled r).id = r.id := by
  unfold Cell.reconciled
  split <;> rfl

theorem Cell.reconciled_key {rows : List IntegrationRow} (h : (rows.map IntegrationRow.id).Nodup) :
    ((rows.map c.reconciled).map IntegrationRow.id).Nodup := by
  have hids : (rows.map c.reconciled).map IntegrationRow.id = rows.map IntegrationRow.id := by
    rw [List.map_map]
    exact List.map_congr_left fun r _ => c.reconciled_id r
  rw [hids]
  exact h

/-- A pass of the reconciler over a catalog that stays. -/
def Cell.reconcile (s : State) : State where
  rows := s.rows.map c.reconciled
  rowKey := c.reconciled_key s.rowKey

def Cell.step (caller : AuthPrincipal) (s : State) : Request → State
  | .pass => c.reconcile s
  | .createIntegration id name ruleMatch ms =>
    if (c.handlers s).writeAnywhere c.auth caller then
      match IntegrationWrites.createIntegration (c.handlers s) caller.toPrincipal id name ruleMatch
          ms with
      | none => s
      | some row => c.reconcile (s.insert row)
    else s
  | .cloneIntegration src id name copy =>
    if (c.handlers s).writeAnywhere c.auth caller &&
        (c.handlers s).canManageIntegration caller.toPrincipal src then
      match (s.integration src).bind
          (IntegrationWrites.cloneIntegration (c.handlers s) caller.toPrincipal id name copy) with
      | none => s
      | some row => s.insert row
    else s
  | .edit id e =>
    if (c.handlers s).writeAnywhere c.auth caller &&
        (c.handlers s).canManageIntegration caller.toPrincipal id then
      match (s.integration id).bind fun r =>
          c.edited (c.handlers s) caller.toPrincipal r e with
      | none => s
      | some row => if e.reconciles then c.reconcile (s.put row) else s.put row
    else s

end Steps

/-! ## Lookups -/

section Lookups

variable {F : Type} {c : Cell F} {s : State} {id : UUID} {r : IntegrationRow}

theorem integration_eq_some : s.integration id = some r ↔ r ∈ s.rows ∧ r.id = id :=
  find?_key_eq_some s.rowKey

theorem view_matched (hr : s.integration id = some r) :
    (c.view s).matched id = c.select r.matchers := by
  show ((s.integration id).map fun r => c.select r.matchers).getD [] = _
  rw [hr]
  rfl

theorem view_attached (hr : s.integration id = some r) : (c.view s).attached id = r.services := by
  show ((s.integration id).map IntegrationRow.services).getD [] = _
  rw [hr]
  rfl

theorem integration_of_attached (h : (c.view s).attached id ≠ []) :
    ∃ r, s.integration id = some r := by
  cases hr : s.integration id with
  | some r => exact ⟨r, rfl⟩
  | none =>
    refine absurd ?_ h
    show ((s.integration id).map IntegrationRow.services).getD [] = []
    rw [hr]
    rfl

theorem integration_of_matched {n : String} (h : n ∈ (c.view s).matched id) :
    ∃ r, s.integration id = some r := by
  cases hr : s.integration id with
  | some r => exact ⟨r, rfl⟩
  | none =>
    have hnone : (c.view s).matched id = [] := by
      show ((s.integration id).map fun r => c.select r.matchers).getD [] = []
      rw [hr]
      rfl
    rw [hnone] at h
    cases h

theorem mem_entities (hr : s.integration id = some r) {name : String} :
    (⟨id, name⟩ : NamedEntity) ∈ (c.view s).entities ↔ name = r.name := by
  have hrow := integration_eq_some.1 hr
  show (⟨id, name⟩ : NamedEntity) ∈ s.rows.map (fun r => (⟨r.id, r.name⟩ : NamedEntity)) ↔ _
  rw [List.mem_map]
  constructor
  · rintro ⟨r', hr', heq⟩
    injection heq with hid hname
    have hsame : r' = r := eq_of_key_eq s.rowKey hr' hrow.1 (hid.trans hrow.2.symm)
    rw [← hname, hsame]
  · rintro rfl
    exact ⟨r, hrow.1, by rw [hrow.2]⟩

theorem integrationGroups_eq (hr : s.integration id = some r) (envs : List String) :
    (c.telemetry s envs).integrationGroups id =
      integrationGroups (r.matchers.map Prod.snd) r.ruleMatch envs := by
  show integrationGroups
      (((s.integration id).map fun r => r.matchers.map Prod.snd).getD [])
      (((s.integration id).map IntegrationRow.ruleMatch).getD .any) envs = _
  rw [hr]
  rfl

end Lookups

/-! ## What a pass stores -/

section Reconciled

variable {F : Type} {c : Cell F} {r : IntegrationRow}

theorem projectMatchers_eq_select (ms : List (UUID × GroupedMatcher)) :
    projectMatchers c.base.identity.compile (ms.map fun m => m.2.toMatcher) c.names =
      c.select ms := by
  unfold projectMatchers Cell.select servicesForIntegration
  have hany : ∀ name, ((ms.map fun m => m.2.toMatcher).filter Matcher.isServiceMatcher).any
      (fun m => m.matchService c.base.identity.compile name) =
      (ms.map Prod.snd).any fun m =>
        m.isServiceMatcher && m.matchService c.base.identity.compile name := by
    intro name
    rw [List.any_filter, List.any_map, List.any_map]
    rfl
  split
  · next hnone =>
    rw [eq_comm, List.filter_eq_nil_iff]
    intro name _
    rw [← hany, hnone]
    simp
  · exact List.filter_congr fun name _ => hany name

@[simp] theorem reconciled_name (r : IntegrationRow) : (c.reconciled r).name = r.name := by
  unfold Cell.reconciled
  split <;> rfl

@[simp] theorem reconciled_matchers (r : IntegrationRow) :
    (c.reconciled r).matchers = r.matchers := by
  unfold Cell.reconciled
  split <;> rfl

@[simp] theorem reconciled_ruleMatch (r : IntegrationRow) :
    (c.reconciled r).ruleMatch = r.ruleMatch := by
  unfold Cell.reconciled
  split <;> rfl

@[simp] theorem reconciled_sources (r : IntegrationRow) : (c.reconciled r).sources = r.sources := by
  unfold Cell.reconciled
  split <;> rfl

theorem reconciled_services (r : IntegrationRow) :
    (c.reconciled r).services = if r.matchers = [] then r.services else c.select r.matchers := by
  unfold Cell.reconciled
  split
  · rfl
  · exact projectMatchers_eq_select r.matchers

theorem reconciled_eq_iff :
    c.reconciled r = r ↔ (r.matchers ≠ [] → r.services = c.select r.matchers) := by
  constructor
  · intro h hne
    rw [← h, reconciled_services, if_neg (by simpa using hne), h]
  · intro h
    by_cases hne : r.matchers = []
    · exact if_pos hne
    · unfold Cell.reconciled
      rw [if_neg hne, projectMatchers_eq_select, ← h hne]

theorem reconciled_reconciled (r : IntegrationRow) :
    c.reconciled (c.reconciled r) = c.reconciled r := by
  rw [reconciled_eq_iff]
  intro hne
  rw [reconciled_matchers] at hne
  rw [reconciled_services, if_neg hne, reconciled_matchers]

theorem select_filter {ms : List (UUID × GroupedMatcher)} (q : UUID × GroupedMatcher → Bool)
    {n : String} (hn : n ∈ c.select (ms.filter q)) : n ∈ c.select ms := by
  obtain ⟨hname, m, hm, hmatch⟩ := mem_servicesForIntegration.1 hn
  obtain ⟨row, hrow, rfl⟩ := List.mem_map.1 hm
  exact mem_servicesForIntegration.2
    ⟨hname, row.2, List.mem_map_of_mem (List.mem_filter.1 hrow).1, hmatch⟩

theorem select_copies (copy : UUID → UUID) (ms : List (UUID × GroupedMatcher)) :
    c.select (ms.map fun m => (copy m.1, m.2)) = c.select ms := by
  unfold Cell.select
  rw [List.map_map]
  rfl

theorem select_append {ms ms' : List (UUID × GroupedMatcher)} {n : String}
    (hn : n ∈ c.select (ms ++ ms')) : n ∈ c.select ms ∨ n ∈ c.select ms' := by
  obtain ⟨hname, m, hm, hmatch⟩ := mem_servicesForIntegration.1 hn
  rw [List.map_append, List.mem_append] at hm
  rcases hm with hleft | hright
  · exact .inl (mem_servicesForIntegration.2 ⟨hname, m, hleft, hmatch⟩)
  · exact .inr (mem_servicesForIntegration.2 ⟨hname, m, hright, hmatch⟩)

end Reconciled

end Sluicio.Api.IntegrationWrites
