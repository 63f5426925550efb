import Mathlib.Data.List.Dedup
import Sluicio.Alerting.Types

/-!
# Maintenance windows

Which windows are active, which rules a window covers, and the two places that
ask: the threshold engine, through `covers` on the full rule, and the
trace-completion evaluator, through a synthetic rule that carries an
integration id and nothing else.
-/

namespace Sluicio.Alerting

open Lib

inductive ScopeKind where
  | allOrg | entities | group
  | other (kind : String)
  deriving DecidableEq

/-- `maintenance.WindowScope`, the `scope` column of a window. -/
structure WindowScope where
  kind : ScopeKind
  integrationIDs : List UUID := []
  systemIDs : List UUID := []
  serviceNames : List String := []
  serviceNamesExpanded : List String := []
  groupID : Option UUID := none

/-- A row of `maintenance_windows`; `scope` is `none` when the column does not
parse. -/
structure WindowRow where
  id : UUID
  startsAt : Time
  endsAt : Time
  scope : Option WindowScope

/-- The engine's read model of an active window. -/
structure MaintenanceWindow where
  id : UUID
  scopeKind : ScopeKind
  integrationIDs : List UUID
  serviceNames : List String
  groupID : Option UUID
  deriving DecidableEq

/-- The members of the chosen systems, each system resolved by itself. -/
def expandSystems (c : Catalog) (systemIDs : List UUID) : Except String (List String) :=
  collect (fun id =>
    wrapErr "resolving system members: " (c.systemExpander "" (some id))) systemIDs

/-- `normalizeWindowScope`: check a scope and keep the fields its kind uses. -/
def normalizeWindowScope (c : Catalog) (scope : WindowScope) :
    Except String WindowScope :=
  match scope.kind with
  | .allOrg => .ok { kind := .allOrg }
  | .group =>
    match scope.groupID with
    | none => .error "scope.group_id is required for a team window"
    | some g => .ok { kind := .group, groupID := some g }
  | .entities =>
    if scope.integrationIDs = [] ∧ scope.systemIDs = [] ∧ scope.serviceNames = [] then
      .error "an entities scope needs at least one integration, system, or service"
    else do
      let names ← expandSystems c scope.systemIDs
      return { scope with
        serviceNamesExpanded := names.dedup.mergeSort, groupID := none }
  | .other _ => .error "scope.kind must be all_org, entities, or group"

/-- One stored scope in the engine's read model.  The system ids are not read:
the snapshot in `serviceNamesExpanded` stands for them. -/
def loadWindow (id : UUID) (scope : WindowScope) : MaintenanceWindow where
  id := id
  scopeKind := scope.kind
  integrationIDs := scope.integrationIDs
  serviceNames := scope.serviceNames ++ scope.serviceNamesExpanded
  groupID := scope.groupID

/-- `ActiveMaintenanceWindows`.  A window whose scope does not parse is skipped
(fail toward delivery). -/
def activeMaintenanceWindows (rows : List WindowRow) (now : Time) :
    List MaintenanceWindow :=
  (rows.filter fun w => w.startsAt ≤ now && now < w.endsAt).filterMap fun w =>
    w.scope.map (loadWindow w.id)

/-! ## Coverage -/

/-- `Covers`: this window silences the given rule. -/
def MaintenanceWindow.covers (w : MaintenanceWindow) (rule : AlertRule) : Bool :=
  match w.scopeKind with
  | .allOrg => true
  | .group => w.groupID.isSome && rule.groupID.isSome && w.groupID == rule.groupID
  | .entities =>
    (match rule.integrationID with
      | some i => i ∈ w.integrationIDs
      | none => false) ||
    (rule.serviceName != "" && rule.serviceName ∈ w.serviceNames)
  | .other _ => false

def coveringWindow (wins : List MaintenanceWindow) (rule : AlertRule) : Option UUID :=
  (wins.find? fun w => w.covers rule).map MaintenanceWindow.id

/-- The rule `SuppressingWindowForIntegration` asks about. -/
def integrationRule (integrationID : UUID) : AlertRule :=
  { id := 0, integrationID := some integrationID, spec := .traceCompletion }

def suppressingWindowForIntegration (rows : List WindowRow) (now : Time)
    (integrationID : UUID) : Option UUID :=
  coveringWindow (activeMaintenanceWindows rows now) (integrationRule integrationID)

/-- The window silences the rule through the rule's team or its bound service:
the two bindings the trace-completion path does not hand to `covers`. -/
def MaintenanceWindow.CoversByTeamOrService (w : MaintenanceWindow) (rule : AlertRule) : Prop :=
  (w.scopeKind = .group ∧ w.groupID ≠ none ∧ w.groupID = rule.groupID) ∨
    (w.scopeKind = .entities ∧ rule.serviceName ≠ "" ∧ rule.serviceName ∈ w.serviceNames)

/-- The window silences everything, or lists the integration. -/
def MaintenanceWindow.CoversIntegration (w : MaintenanceWindow) (integrationID : UUID) : Prop :=
  w.scopeKind = .allOrg ∨ (w.scopeKind = .entities ∧ integrationID ∈ w.integrationIDs)

theorem MaintenanceWindow.covers_iff (w : MaintenanceWindow) (rule : AlertRule) :
    w.covers rule ↔
      w.scopeKind = .allOrg ∨
      (w.scopeKind = .entities ∧ ∃ i, rule.integrationID = some i ∧ i ∈ w.integrationIDs) ∨
      w.CoversByTeamOrService rule := by
  unfold MaintenanceWindow.covers MaintenanceWindow.CoversByTeamOrService
  cases hk : w.scopeKind with
  | allOrg => simp
  | other k => simp
  | group =>
    cases hw : w.groupID <;> cases hr : rule.groupID <;> simp
  | entities =>
    cases hi : rule.integrationID <;> simp

variable {rule : AlertRule} {integrationID : UUID}

/-- For a rule of an integration, `covers` splits into what the integration alone
decides and what its team or service adds. -/
theorem MaintenanceWindow.covers_iff_of_integration (w : MaintenanceWindow)
    (hi : rule.integrationID = some integrationID) :
    w.covers rule ↔ w.CoversIntegration integrationID ∨ w.CoversByTeamOrService rule := by
  rw [w.covers_iff, MaintenanceWindow.CoversIntegration, or_assoc]
  simp [hi]

theorem MaintenanceWindow.covers_integrationRule (w : MaintenanceWindow) (integrationID : UUID) :
    w.covers (integrationRule integrationID) ↔ w.CoversIntegration integrationID := by
  have hi : (integrationRule integrationID).integrationID = some integrationID := rfl
  rw [w.covers_iff_of_integration hi]
  simp [MaintenanceWindow.CoversByTeamOrService, integrationRule]

theorem coveringWindow_isSome (wins : List MaintenanceWindow) (rule : AlertRule) :
    (coveringWindow wins rule).isSome ↔ ∃ w ∈ wins, w.covers rule := by
  simp [coveringWindow, List.find?_isSome]

theorem suppressingWindow_isSome (rows : List WindowRow) (now : Time) (integrationID : UUID) :
    (suppressingWindowForIntegration rows now integrationID).isSome ↔
      ∃ w ∈ activeMaintenanceWindows rows now, w.CoversIntegration integrationID := by
  rw [suppressingWindowForIntegration, coveringWindow_isSome]
  simp only [MaintenanceWindow.covers_integrationRule]

/-! ## The two checks compared -/

/-- What a stored entities scope covers: listed integrations, named services,
and services that were members of a chosen system when the scope was written. -/
theorem loadWindow_covers_iff {c : Catalog} {scope stored : WindowScope}
    (hkind : scope.kind = .entities) (hstored : normalizeWindowScope c scope = .ok stored)
    (id : UUID) (rule : AlertRule) :
    (loadWindow id stored).covers rule ↔
      (∃ i, rule.integrationID = some i ∧ i ∈ scope.integrationIDs) ∨
      (rule.serviceName ≠ "" ∧
        (rule.serviceName ∈ scope.serviceNames ∨
          ∃ sys ∈ scope.systemIDs, ∃ s ∈ c.services,
            s.systemID = some sys ∧ s.serviceName = rule.serviceName)) := by
  simp only [normalizeWindowScope, hkind] at hstored
  split at hstored
  · cases hstored
  simp only [bind_eq_ok, pure_eq_ok] at hstored
  obtain ⟨names, hnames, rfl⟩ := hstored
  have hmem : rule.serviceName ∈ names ↔ ∃ sys ∈ scope.systemIDs,
      ∃ s ∈ c.services, s.systemID = some sys ∧ s.serviceName = rule.serviceName := by
    rw [mem_of_collect_eq_ok hnames]
    refine exists_congr fun sys => and_congr_right fun hsys => ?_
    obtain ⟨xs, hxs⟩ := collect_call_ok hnames hsys
    have hxs' : c.systemMemberNames sys = .ok xs := by simpa using hxs
    simp [hxs', Catalog.systemMemberNames_eq_ok hxs' rule.serviceName]
  rw [MaintenanceWindow.covers_iff]
  simp [loadWindow, MaintenanceWindow.CoversByTeamOrService, hmem]

/-- The trace-completion path finds a window just when one covers the full rule. -/
def ChecksAgree (rows : List WindowRow) (now : Time) (integrationID : UUID) (rule : AlertRule) :
    Prop :=
  (suppressingWindowForIntegration rows now integrationID).isSome ↔
    ∃ w ∈ activeMaintenanceWindows rows now, w.covers rule

/-- For one rule and one table: a window may reach the rule through its team or its service only
where one reaches it through the integration as well. -/
theorem checksAgree_iff {rows : List WindowRow} {now : Time}
    (hrule : rule.integrationID = some integrationID) :
    ChecksAgree rows now integrationID rule ↔
      ((∃ w ∈ activeMaintenanceWindows rows now, w.CoversByTeamOrService rule) →
        ∃ w ∈ activeMaintenanceWindows rows now, w.CoversIntegration integrationID) := by
  have hcovers : (∃ w ∈ activeMaintenanceWindows rows now, w.covers rule) ↔
      (∃ w ∈ activeMaintenanceWindows rows now, w.CoversIntegration integrationID) ∨
      (∃ w ∈ activeMaintenanceWindows rows now, w.CoversByTeamOrService rule) := by
    simp only [MaintenanceWindow.covers_iff_of_integration _ hrule, and_or_left, exists_or]
  rw [ChecksAgree, suppressingWindow_isSome, hcovers]
  constructor
  · intro h hteam
    exact h.2 (Or.inr hteam)
  · intro h
    exact ⟨Or.inl, fun hor => hor.elim (fun hI => hI) h⟩

/-- The windows the table has when it has one, with this scope. -/
theorem active_singleton (scope : WindowScope) :
    activeMaintenanceWindows [⟨0, 0, 1, some scope⟩] 0 = [loadWindow 0 scope] := rfl

/-- A rule whose checks agree under every table has no team and no service: a window of its team
or of its service alone would part them. -/
theorem checksAgree_always_iff (hrule : rule.integrationID = some integrationID) :
    (∀ rows now, ChecksAgree rows now integrationID rule) ↔
      rule.groupID = none ∧ rule.serviceName = "" := by
  constructor
  · intro h
    have hapart (scope : WindowScope) (hall : scope.kind ≠ .allOrg)
        (hlist : scope.integrationIDs = []) :
        ¬ (loadWindow 0 scope).CoversByTeamOrService rule := by
      intro hteam
      have hagree := (checksAgree_iff hrule).1 (h [⟨0, 0, 1, some scope⟩] 0)
      rw [active_singleton] at hagree
      obtain ⟨w, hw, hcovers⟩ := hagree ⟨_, List.mem_singleton_self _, hteam⟩
      rw [List.mem_singleton.1 hw] at hcovers
      rcases hcovers with hkind | ⟨-, hmem⟩
      · exact hall hkind
      · rw [show (loadWindow 0 scope).integrationIDs = [] from hlist] at hmem
        exact absurd hmem List.not_mem_nil
    constructor
    · by_contra hteam
      exact hapart { kind := .group, groupID := rule.groupID } nofun rfl (.inl ⟨rfl, hteam, rfl⟩)
    · by_contra hname
      exact hapart { kind := .entities, serviceNames := [rule.serviceName] } nofun rfl
        (.inr ⟨rfl, hname, List.mem_cons_self⟩)
  · rintro ⟨hteam, hname⟩ rows now
    refine (checksAgree_iff hrule).2 ?_
    rintro ⟨w, -, ⟨-, hset, hgroup⟩ | ⟨-, hne, -⟩⟩
    · exact absurd (hgroup.trans hteam) hset
    · exact absurd hname hne

/-- The window reaches some rule through a team or a service. -/
def MaintenanceWindow.HasTeamOrService (w : MaintenanceWindow) : Prop :=
  (w.scopeKind = .group ∧ w.groupID ≠ none) ∨
    (w.scopeKind = .entities ∧ ∃ name ∈ w.serviceNames, name ≠ "")

/-- A table under which the checks of every rule of an integration agree covers the integration
itself, or has neither a team nor a service in an active window. -/
theorem checksAgree_all_iff (rows : List WindowRow) (now : Time) (integrationID : UUID) :
    (∀ rule, rule.integrationID = some integrationID →
        ChecksAgree rows now integrationID rule) ↔
      (∃ w ∈ activeMaintenanceWindows rows now, w.CoversIntegration integrationID) ∨
        ∀ w ∈ activeMaintenanceWindows rows now, ¬ w.HasTeamOrService := by
  constructor
  · intro h
    by_contra hno
    rw [not_or, not_forall₂] at hno
    obtain ⟨hnone, w, hw, hhas⟩ := hno
    have hreach : ∃ rule : AlertRule, rule.integrationID = some integrationID ∧
        w.CoversByTeamOrService rule := by
      rcases not_not.1 hhas with ⟨hkind, hteam⟩ | ⟨hkind, name, hname, hne⟩
      · exact ⟨{ integrationRule integrationID with groupID := w.groupID }, rfl,
          .inl ⟨hkind, hteam, rfl⟩⟩
      · exact ⟨{ integrationRule integrationID with serviceName := name }, rfl,
          .inr ⟨hkind, hne, hname⟩⟩
    obtain ⟨rule, hrule, hteam⟩ := hreach
    exact hnone ((checksAgree_iff hrule).1 (h rule hrule) ⟨w, hw, hteam⟩)
  · rintro (hcovers | hno) rule hrule
    · exact (checksAgree_iff hrule).2 fun _ => hcovers
    · refine (checksAgree_iff hrule).2 ?_
      rintro ⟨w, hw, ⟨hkind, hset, -⟩ | ⟨hkind, hne, hmem⟩⟩
      · exact absurd (.inl ⟨hkind, hset⟩) (hno w hw)
      · exact absurd (.inr ⟨hkind, _, hmem, hne⟩) (hno w hw)

/-- The API stores `stored` for an entities scope that names the system. -/
structure NamesSystem (c : Catalog) (systemID : UUID) (scope stored : WindowScope) : Prop where
  kind : scope.kind = .entities
  stored : normalizeWindowScope c scope = .ok stored
  names : systemID ∈ scope.systemIDs

/-- A check that every window naming the system covers is one on a service of the system. -/
theorem covered_by_system_iff (c : Catalog) (systemID : UUID) (check : AlertRule) :
    (∀ scope stored id, NamesSystem c systemID scope stored →
        (loadWindow id stored).covers check) ↔
      ∀ names, c.systemMemberNames systemID = .ok names →
        check.serviceName ≠ "" ∧ check.serviceName ∈ names := by
  constructor
  · intro h names hnames
    have hexpand : expandSystems c [systemID] = .ok names := by
      simp [expandSystems, collect, Catalog.systemExpander, hnames, wrapErr, bind, Except.bind]
    have hstored : normalizeWindowScope c { kind := .entities, systemIDs := [systemID] } =
        .ok { kind := .entities, systemIDs := [systemID],
              serviceNamesExpanded := names.dedup.mergeSort } := by
      simp [normalizeWindowScope, hexpand, bind, Except.bind, pure, Except.pure]
    have hcovers := h _ _ 0 ⟨rfl, hstored, List.mem_singleton_self _⟩
    rcases (loadWindow_covers_iff rfl hstored 0 check).1 hcovers with
      ⟨i, -, hi⟩ | ⟨hne, hmem | ⟨sys, hsys, hservice⟩⟩
    · exact absurd hi List.not_mem_nil
    · exact absurd hmem List.not_mem_nil
    · rw [List.mem_singleton.1 hsys] at hservice
      exact ⟨hne, (c.systemMemberNames_eq_ok hnames _).2 hservice⟩
  · intro h scope stored id hs
    obtain ⟨hkind, hstored, hmem⟩ := hs
    have hread : ∃ names, c.systemMemberNames systemID = .ok names := by
      simp only [normalizeWindowScope, hkind] at hstored
      split at hstored
      · cases hstored
      simp only [bind_eq_ok] at hstored
      obtain ⟨names, hnames, -⟩ := hstored
      obtain ⟨xs, hxs⟩ := collect_call_ok hnames hmem
      exact ⟨xs, by simpa using hxs⟩
    obtain ⟨names, hnames⟩ := hread
    obtain ⟨hne, hname⟩ := h names hnames
    exact (loadWindow_covers_iff hkind hstored id check).2
      (.inr ⟨hne, .inr ⟨systemID, hmem, (c.systemMemberNames_eq_ok hnames _).1 hname⟩⟩)

/-- **When the two maintenance checks agree.**  For a rule of an integration they agree whatever
the windows just when the rule has neither a team nor a service; under given windows they agree
for every rule just when a window covers the integration itself or none has a team or a
service.  The windows that name a system cover a check just when it is on a service that is a
member of the system, and no such window covers every check bound to the system. -/
theorem maintenanceChecks_agree_iff (c : Catalog) (integrationID systemID : UUID) :
    (∀ rule, rule.integrationID = some integrationID →
      ((∀ rows now, ChecksAgree rows now integrationID rule) ↔
        rule.groupID = none ∧ rule.serviceName = "")) ∧
    (∀ rows now,
      (∀ rule, rule.integrationID = some integrationID →
          ChecksAgree rows now integrationID rule) ↔
        (∃ w ∈ activeMaintenanceWindows rows now, w.CoversIntegration integrationID) ∨
          ∀ w ∈ activeMaintenanceWindows rows now, ¬ w.HasTeamOrService) ∧
    (∀ check,
      (∀ scope stored id, NamesSystem c systemID scope stored →
          (loadWindow id stored).covers check) ↔
        ∀ names, c.systemMemberNames systemID = .ok names →
          check.serviceName ≠ "" ∧ check.serviceName ∈ names) ∧
    ∀ scope stored id, NamesSystem c systemID scope stored →
      ∃ check : AlertRule, check.systemID = some systemID ∧
        (loadWindow id stored).covers check = false := by
  refine ⟨fun rule hrule => checksAgree_always_iff hrule,
    fun rows now => checksAgree_all_iff rows now integrationID,
    covered_by_system_iff c systemID, fun scope stored id hs => ?_⟩
  refine ⟨{ id := 0, systemID := some systemID, spec := .traceCompletion }, rfl, ?_⟩
  rw [Bool.eq_false_iff]
  intro hcovers
  rcases (loadWindow_covers_iff hs.kind hs.stored id _).1 hcovers with ⟨i, hi, -⟩ | ⟨hne, -⟩
  · cases hi
  · exact hne rfl

/-! A team window, a system window, and the checks they are about. -/

private def teamRule : AlertRule :=
  { id := 1, integrationID := some 7, groupID := some 5, spec := .traceCompletion }

private def teamWindows : List WindowRow :=
  [{ id := 9, startsAt := 0, endsAt := 100,
     scope := some { kind := .group, groupID := some 5 } }]

private def kafkaCatalog : Catalog where
  services := [⟨"broker", true, "kafka", some 3⟩]
  serviceKey := by decide
  systems := [⟨3, "kafka"⟩]
  integrations := []
  matched := fun _ => []
  attached := fun _ => []

private def systemScope : WindowScope := { kind := .entities, systemIDs := [3] }

private def storedScope : WindowScope :=
  { kind := .entities, systemIDs := [3], serviceNamesExpanded := ["broker"] }

private def systemRule : AlertRule :=
  { id := 2, systemID := some 3, spec := .metric ⟨.gt, 0, false, ""⟩ }

private theorem normalize_systemScope :
    normalizeWindowScope kafkaCatalog systemScope = .ok storedScope := by
  simp [normalizeWindowScope, systemScope, storedScope, expandSystems, collect,
    Catalog.systemExpander, Catalog.systemMemberNames, readRows, wrapErr, kafkaCatalog,
    bind, Except.bind, pure, Except.pure, List.dedup, List.pwFilter]

/-- The team window silences a rule of integration 7 and the trace-completion
path does not see it; the system window does not silence a check bound to the
system it names. -/
theorem maintenanceChecks_disagree :
    (∃ w ∈ activeMaintenanceWindows teamWindows 50, w.covers teamRule) ∧
    suppressingWindowForIntegration teamWindows 50 7 = none ∧
    normalizeWindowScope kafkaCatalog systemScope = .ok storedScope ∧
    systemRule.systemID = some 3 ∧ 3 ∈ systemScope.systemIDs ∧
    (loadWindow 4 storedScope).covers systemRule = false := by
  refine ⟨by decide, by decide, normalize_systemScope, rfl, by decide, by decide⟩

end Sluicio.Alerting
