import Sluicio.Api.AlertRules
import Sluicio.Api.Manage
import Sluicio.Lib.Run

/-!
# Who may write an alert rule

The create, update and delete handlers of alert rules, with the checks they make on the
caller before they call the store.  A caller with a restricted managed set may write a rule
that is bound to what the set covers.  Create checks the binding it is about to store and
delete the one that is stored; update checks the new one only.
-/

namespace Sluicio.Api

open Lib
open Alerting (Time)
open Alerting.Store
open Database

/-- Who sent a request, against the policies and the catalog of that moment. -/
structure Caller where
  handlers : Handlers
  principal : Principal
  orgID : UUID
  groupsFault : Bool := false

/-- A refused request: the status and the error text. -/
structure Refusal where
  status : Nat
  error : String

namespace Caller

variable (c : Caller)

/-- `managedServiceFilter`; `none` is "unrestricted". -/
def managed : Option (Finset String) := c.handlers.managedServiceFilter c.principal

def canManageIntegration (integrationID : UUID) : Bool :=
  match c.managed with
  | none => true
  | some managed =>
    match c.handlers.identity.catalog.integrationExpander integrationID with
    | .error _ => false
    | .ok members => members.all fun m => m ∈ managed

def canManageSystem (systemID : UUID) : Bool :=
  match c.managed with
  | none => true
  | some managed =>
    match c.handlers.identity.catalog.systemMemberNames systemID with
    | .error _ => false
    | .ok members => members.all fun m => m ∈ managed

def requireManageAlertTarget (serviceName : String) (integrationID systemID : Option UUID) :
    Except Refusal Unit :=
  if c.managed = none then .ok ()
  else
    match systemID, integrationID with
    | some id, _ =>
      if c.canManageSystem id then .ok ()
      else .error ⟨403, "this rule's system spans services outside your managed scope"⟩
    | none, some id =>
      if c.canManageIntegration id then .ok ()
      else .error ⟨403, "this rule's integration spans services outside your managed scope"⟩
    | none, none =>
      if serviceName = "" then
        .error ⟨403, "org-wide rules require an org-wide editor role"⟩
      else if c.handlers.canManageService c.principal serviceName then .ok ()
      else .error ⟨403, "this rule's service is outside your managed scope"⟩

/-- `alertVisibleGroups`; `none` is "no filter", a failed lookup among them. -/
def alertVisibleGroups : Option (List UUID) :=
  match c.handlers.visibilityMember c.principal with
  | none => none
  | some ref =>
    if c.groupsFault then none
    else
      some ((c.handlers.identity.members.filter fun gm => gm.member = ref).map fun gm => gm.groupID)

def canSeeAlertGroup (groupID : Option UUID) : Bool :=
  match c.alertVisibleGroups, groupID with
  | none, _ => true
  | _, none => true
  | some visible, some id => id ∈ visible

end Caller

/-! ## The handlers -/

/-- The row is not there. -/
def ruleNotFound : Refusal := ⟨404, "rule not found"⟩

/-- The answer to a failed store call. -/
def storeRefusal (msg : String) : StoreError → Refusal
  | .notFound => ruleNotFound
  | .database => ⟨500, msg⟩

/-- Refuse unless the check passes. -/
def require (ok : Bool) (refusal : Refusal) : Except Refusal Unit :=
  if ok then .ok () else .error refusal

section Handlers

variable (p : Parsers) (constraints : Constraints) (c : Caller)

def createAlertRule (db : Database) (newID : UUID) (now : Time) (req : AlertRuleRequest) :
    Except Refusal Database := do
  -- the id is the nil one: the database gives the rule its own
  let rule ← (buildRule p c.orgID 0 req).mapError fun e => ⟨400, e⟩
  require (c.canSeeAlertGroup rule.groupID)
    ⟨403, "you can only assign an alert to a team you belong to"⟩
  c.requireManageAlertTarget rule.serviceName rule.integrationID rule.systemID
  (createRule constraints db newID now rule).mapError (storeRefusal "create failed")

def updateTeams (db : Database) (id : UUID) (rule : AlertRule) : Except Refusal Unit :=
  if c.alertVisibleGroups = none then .ok ()
  else do
    let existing ← (db.getRule c.orgID id).mapError (storeRefusal "update failed")
    require (c.canSeeAlertGroup existing.groupID) ruleNotFound
    require (c.canSeeAlertGroup rule.groupID)
      ⟨403, "you can only assign an alert to a team you belong to"⟩

def updateAlertRule (db : Database) (id : UUID) (now : Time) (req : AlertRuleRequest) :
    Except Refusal Database := do
  let rule ← (buildRule p c.orgID id req).mapError fun e => ⟨400, e⟩
  c.requireManageAlertTarget rule.serviceName rule.integrationID rule.systemID
  updateTeams c db id rule
  (updateRule constraints db c.orgID now rule).mapError (storeRefusal "update failed")

/-- The checks of a delete on the rule that is there: its team, and its binding. -/
def deleteTeams (db : Database) (id : UUID) : Except Refusal Unit :=
  if c.alertVisibleGroups = none then .ok ()
  else do
    let existing ← (db.getRule c.orgID id).mapError (storeRefusal "delete failed")
    require (c.canSeeAlertGroup existing.groupID) ruleNotFound

def deleteTarget (db : Database) (id : UUID) : Except Refusal Unit :=
  if c.managed = none then .ok ()
  else do
    let existing ← (db.getRule c.orgID id).mapError (storeRefusal "delete failed")
    c.requireManageAlertTarget existing.serviceName existing.integrationID existing.systemID

def deleteAlertRule (db : Database) (id : UUID) : Except Refusal Database := do
  deleteTeams c db id
  deleteTarget c db id
  (deleteRule db c.orgID id).mapError (storeRefusal "delete failed")

end Handlers

/-- A request on the alert rules. -/
inductive RuleRequest where
  | create (newID : UUID) (body : AlertRuleRequest)
  | update (id : UUID) (body : AlertRuleRequest)
  | delete (id : UUID)

/-- A request with its caller and its time. -/
structure RuleCall where
  caller : Caller
  now : Time
  request : RuleRequest

/-- The answer to a request: the database it leaves, or a refusal. -/
def handle (p : Parsers) (constraints : Constraints) (db : Database) (call : RuleCall) :
    Except Refusal Database :=
  match call.request with
  | .create newID body => createAlertRule p constraints call.caller db newID call.now body
  | .update id body => updateAlertRule p constraints call.caller db id call.now body
  | .delete id => deleteAlertRule call.caller db id

/-- A refused request leaves the database alone. -/
def ruleStep (p : Parsers) (constraints : Constraints) (db : Database) (call : RuleCall) :
    Database :=
  match handle p constraints db call with
  | .ok db' => db'
  | .error _ => db

/-! ## What a caller manages -/

namespace Caller

variable (c : Caller)

/-- Each of the services is in the managed set. -/
def Covers (members : List String) : Prop :=
  ∀ managed, c.managed = some managed → ∀ n ∈ members, n ∈ managed

/-- The caller manages what a rule is bound to: the system, else the integration, else the
service.  What is bound to nothing is for callers without a restriction. -/
def Manages (serviceName : String) (integrationID systemID : Option UUID) : Prop :=
  c.managed = none ∨
    match systemID, integrationID with
    | some id, _ => ∃ members,
        c.handlers.identity.catalog.systemMemberNames id = .ok members ∧ c.Covers members
    | none, some id => ∃ members,
        c.handlers.identity.catalog.integrationExpander id = .ok members ∧ c.Covers members
    | none, none => serviceName ≠ "" ∧ c.Covers [serviceName]

def ManagesRow (row : Row) : Prop :=
  c.Manages (coalesce row.serviceName) row.integrationID row.systemID

theorem canManageSystem_iff (id : UUID) (hm : c.managed ≠ none) :
    c.canManageSystem id ↔ ∃ members,
      c.handlers.identity.catalog.systemMemberNames id = .ok members ∧ c.Covers members := by
  unfold canManageSystem Covers
  cases hmanaged : c.managed with
  | none => exact absurd hmanaged hm
  | some managed =>
    cases c.handlers.identity.catalog.systemMemberNames id <;> simp

theorem canManageIntegration_iff (id : UUID) (hm : c.managed ≠ none) :
    c.canManageIntegration id ↔ ∃ members,
      c.handlers.identity.catalog.integrationExpander id = .ok members ∧ c.Covers members := by
  unfold canManageIntegration Covers
  cases hmanaged : c.managed with
  | none => exact absurd hmanaged hm
  | some managed =>
    cases c.handlers.identity.catalog.integrationExpander id <;> simp

theorem canManageService_iff (name : String) :
    c.handlers.canManageService c.principal name ↔ c.Covers [name] := by
  unfold Handlers.canManageService Covers managed
  cases c.handlers.managedServiceFilter c.principal <;> simp

theorem requireManageAlertTarget_eq_ok (serviceName : String)
    (integrationID systemID : Option UUID) :
    c.requireManageAlertTarget serviceName integrationID systemID = .ok () ↔
      c.Manages serviceName integrationID systemID := by
  unfold requireManageAlertTarget Manages
  by_cases hm : c.managed = none
  · simp [hm]
  rw [if_neg hm]
  simp only [hm, false_or]
  cases systemID with
  | some id =>
    simp only [← c.canManageSystem_iff id hm]
    by_cases h : c.canManageSystem id = true <;> simp [h]
  | none =>
    cases integrationID with
    | some id =>
      simp only [← c.canManageIntegration_iff id hm]
      by_cases h : c.canManageIntegration id = true <;> simp [h]
    | none =>
      simp only [← c.canManageService_iff serviceName]
      by_cases hname : serviceName = ""
      · simp [hname]
      · by_cases h : c.handlers.canManageService c.principal serviceName = true <;>
          simp [h, hname]

end Caller

/-- The request changed the row, or the channels of its rule. -/
def Touched (db db' : Database) (row : Row) : Prop :=
  ¬ (row ∈ db.rules ∧ row ∈ db'.rules ∧ db'.channelIDsFor row.id = db.channelIDsFor row.id)

/-- Each row that was changed was bound to what the caller manages, and so is each row
that came of it. -/
structure InsideScope (c : Caller) (db db' : Database) : Prop where
  before : ∀ row ∈ db.rules, Touched db db' row → c.ManagesRow row
  after : ∀ row ∈ db'.rules, Touched db db' row → c.ManagesRow row

theorem InsideScope.refl (c : Caller) (db : Database) : InsideScope c db db := by
  constructor
  · intro row hrow htouched
    exact absurd ⟨hrow, hrow, rfl⟩ htouched
  · intro row hrow htouched
    exact absurd ⟨hrow, hrow, rfl⟩ htouched

variable {db db' : Database} {now : Time} {id : UUID} {constraints : Constraints}
  {req : AlertRuleRequest} {p : Parsers} {c : Caller} {rule : AlertRule} {row : Row} {newID : UUID}

theorem createAlertRule_eq_ok (h : createAlertRule p constraints c db newID now req = .ok db') :
    ∃ rule, c.Manages rule.serviceName rule.integrationID rule.systemID ∧
      createRule constraints db newID now rule = .ok db' := by
  simp only [createAlertRule, bind_eq_ok, mapError_eq_ok] at h
  obtain ⟨rule, _, _, _, _, htarget, hcreate⟩ := h
  exact ⟨rule, (c.requireManageAlertTarget_eq_ok _ _ _).1 htarget, hcreate⟩

theorem updateAlertRule_eq_ok (h : updateAlertRule p constraints c db id now req = .ok db') :
    ∃ rule, rule.id = id ∧ c.Manages rule.serviceName rule.integrationID rule.systemID ∧
      updateRule constraints db c.orgID now rule = .ok db' := by
  simp only [updateAlertRule, bind_eq_ok, mapError_eq_ok] at h
  obtain ⟨rule, hbuilt, _, htarget, _, _, hupdate⟩ := h
  exact ⟨rule, (buildRule_storable hbuilt).2.id,
    (c.requireManageAlertTarget_eq_ok _ _ _).1 htarget, hupdate⟩

theorem deleteAlertRule_eq_ok (h : deleteAlertRule c db id = .ok db') :
    ∃ row, db.row? c.orgID id = some row ∧ c.ManagesRow row ∧
      deleteRule db c.orgID id = .ok db' := by
  simp only [deleteAlertRule, bind_eq_ok, mapError_eq_ok] at h
  obtain ⟨_, _, _, htarget, hdelete⟩ := h
  obtain ⟨row, hrow, _⟩ := deleteRule_eq_ok hdelete
  refine ⟨row, hrow, ?_, hdelete⟩
  unfold deleteTarget at htarget
  split_ifs at htarget with hm
  · exact Or.inl hm
  · simp only [bind_eq_ok, mapError_eq_ok, getRule_of_row? hrow] at htarget
    obtain ⟨existing, hexisting, htarget⟩ := htarget
    cases hexisting
    have hmanages := (c.requireManageAlertTarget_eq_ok _ _ _).1 htarget
    have hservice := congrArg AlertRule.serviceName (scanRule_noSpec row)
    have hintegration := congrArg AlertRule.integrationID (scanRule_noSpec row)
    have hsystem := congrArg AlertRule.systemID (scanRule_noSpec row)
    show c.Manages (scanColumns row).serviceName (scanColumns row).integrationID
      (scanColumns row).systemID
    rw [← hservice, ← hintegration, ← hsystem]
    exact hmanages

/-! ## One request -/

theorem createRule_insideScope
    (hmanages : c.Manages rule.serviceName rule.integrationID rule.systemID)
    (h : createRule constraints db newID now rule = .ok db') : InsideScope c db db' := by
  obtain ⟨hfree, hrules, hroutes⟩ := createRule_eq_ok h
  have hold : ∀ row ∈ db.rules, ¬ Touched db db' row := by
    intro row hrow htouched
    have hne : row.id ≠ newID := by
      intro heq
      exact hfree (heq ▸ List.mem_map_of_mem hrow)
    have hchannels : db'.channelIDsFor row.id = db.channelIDsFor row.id := by
      rw [channelIDsFor, hroutes, channels_replacedRoutes, if_neg hne]
      rfl
    exact htouched ⟨hrow, hrules ▸ List.mem_append_left _ hrow, hchannels⟩
  constructor
  · intro row hrow htouched
    exact absurd htouched (hold row hrow)
  · intro row hrow htouched
    rw [hrules, List.mem_append, List.mem_singleton] at hrow
    rcases hrow with hrow | rfl
    · exact absurd htouched (hold row hrow)
    · simpa [Caller.ManagesRow, insertedRow] using hmanages

theorem updateRule_untouched {orgID : UUID} (h : updateRule constraints db orgID now rule = .ok db')
    (hrow : row ∈ db.rules ∨ row ∈ db'.rules) (hne : row.id ≠ rule.id) : ¬ Touched db db' row := by
  obtain ⟨_, _, _, hroutes⟩ := updateRule_eq_ok h
  have hrows := (updateRule_keeps h).1 row hne
  have hchannels : db'.channelIDsFor row.id = db.channelIDsFor row.id := by
    rw [channelIDsFor, hroutes, channels_replacedRoutes, if_neg hne]
    rfl
  intro htouched
  rcases hrow with hrow | hrow
  · exact htouched ⟨hrow, hrows.2 hrow, hchannels⟩
  · exact htouched ⟨hrows.1 hrow, hrow, hchannels⟩

/-- An update whose new binding the caller manages is inside the scope when the caller
managed the old one. -/
theorem updateRule_insideScope
    (hmanages : c.Manages rule.serviceName rule.integrationID rule.systemID)
    (hbefore : ∀ row, db.row? c.orgID rule.id = some row → c.ManagesRow row)
    (h : updateRule constraints db c.orgID now rule = .ok db') : InsideScope c db db' := by
  obtain ⟨row₀, hrow₀, _, _⟩ := updateRule_eq_ok h
  obtain ⟨hmem₀, _, hid₀⟩ := row?_eq_some.1 hrow₀
  obtain ⟨hmem', _, hid'⟩ := row?_eq_some.1 (row?_updateRule h hrow₀)
  constructor
  · intro row hrow htouched
    by_cases hid : row.id = rule.id
    · have hsame := eq_of_key_eq db.ruleKey hrow hmem₀ (hid.trans hid₀.symm)
      rw [hsame]
      exact hbefore row₀ hrow₀
    · exact absurd htouched (updateRule_untouched h (Or.inl hrow) hid)
  · intro row hrow htouched
    by_cases hid : row.id = rule.id
    · have hsame := eq_of_key_eq db'.ruleKey hrow hmem' (hid.trans hid'.symm)
      rw [hsame]
      simpa [Caller.ManagesRow, Row.updated] using hmanages
    · exact absurd htouched (updateRule_untouched h (Or.inr hrow) hid)

theorem deleteRule_insideScope {row₀ : Row} (hrow₀ : db.row? c.orgID id = some row₀)
    (hmanages : c.ManagesRow row₀) (h : deleteRule db c.orgID id = .ok db') :
    InsideScope c db db' := by
  obtain ⟨_, _, hrules, hroutes⟩ := deleteRule_eq_ok h
  obtain ⟨hmem₀, horg₀, hid₀⟩ := row?_eq_some.1 hrow₀
  have hkept : ∀ row ∈ db.rules, row.id ≠ id → ¬ Touched db db' row := by
    intro row hrow hne htouched
    have hrow' : row ∈ db'.rules := by
      rw [hrules, List.mem_filter]
      exact ⟨hrow, by simp [hne]⟩
    have hchannels : db'.channelIDsFor row.id = db.channelIDsFor row.id := by
      have hsame : ∀ rt : Route, (rt.alertRuleID = row.id && !rt.alertRuleID = id) =
          decide (rt.alertRuleID = row.id) := by
        intro rt
        by_cases heq : rt.alertRuleID = row.id
        · simp [heq, hne]
        · simp [heq]
      simp [channelIDsFor, hroutes, List.filter_filter, hsame]
    exact htouched ⟨hrow, hrow', hchannels⟩
  constructor
  · intro row hrow htouched
    by_cases hid : row.id = id
    · have hsame := eq_of_key_eq db.ruleKey hrow hmem₀ (hid.trans hid₀.symm)
      rw [hsame]
      exact hmanages
    · exact absurd htouched (hkept row hrow hid)
  · intro row hrow htouched
    rw [hrules, List.mem_filter] at hrow
    obtain ⟨hrow, hnot⟩ := hrow
    have hne : row.id ≠ id := by
      intro hid
      have hsame := eq_of_key_eq db.ruleKey hrow hmem₀ (hid.trans hid₀.symm)
      simp [hsame, horg₀, hid₀] at hnot
    exact absurd htouched (hkept row hrow hne)

/-- The condition on one request: an update names a rule that is bound, before it, to what
the caller manages. -/
def NamesManagedRule (db : Database) (call : RuleCall) : Prop :=
  match call.request with
  | .update id _ => ∀ row, db.row? call.caller.orgID id = some row → call.caller.ManagesRow row
  | _ => True

theorem ruleStep_insideScope {call : RuleCall} (hcond : NamesManagedRule db call) :
    InsideScope call.caller db (ruleStep p constraints db call) := by
  obtain ⟨c, now, request⟩ := call
  unfold ruleStep
  cases hres : handle p constraints db ⟨c, now, request⟩ with
  | error refusal => exact InsideScope.refl c db
  | ok db' =>
    cases request with
    | create newID body =>
      obtain ⟨rule, hmanages, hcreate⟩ := createAlertRule_eq_ok hres
      exact createRule_insideScope hmanages hcreate
    | update id body =>
      obtain ⟨rule, rfl, hmanages, hupdate⟩ := updateAlertRule_eq_ok hres
      exact updateRule_insideScope hmanages hcond hupdate
    | delete id =>
      obtain ⟨row, hrow, hmanages, hdelete⟩ := deleteAlertRule_eq_ok hres
      exact deleteRule_insideScope hrow hmanages hdelete

/-- For a single update the condition is exact: one that changes the row it names is
inside the scope only if the caller managed what the row was bound to. -/
theorem managed_of_insideScope (h : updateAlertRule p constraints c db id now req = .ok db')
    (hrow : db.row? c.orgID id = some row) (hnow : row.updatedAt ≠ now)
    (hinside : InsideScope c db db') : c.ManagesRow row := by
  obtain ⟨rule, rfl, _, hupdate⟩ := updateAlertRule_eq_ok h
  obtain ⟨hmem, _, hid⟩ := row?_eq_some.1 hrow
  obtain ⟨hmem', _, hid'⟩ := row?_eq_some.1 (row?_updateRule hupdate hrow)
  refine hinside.before row hmem ?_
  rintro ⟨_, hkept, _⟩
  have hsame := eq_of_key_eq db'.ruleKey hkept hmem' (hid.trans hid'.symm)
  exact hnow (congrArg Row.updatedAt hsame)

/-- **When rule writes stay inside the managed scope.**  In every sequence of requests in
which each update names a rule that its caller manages, every request changes rows that
are, before and after, bound to what its caller manages. -/
theorem ruleWrites_insideScope (p : Parsers) (constraints : Constraints) (db : Database)
    (calls : List RuleCall) (h : StepsMeet (ruleStep p constraints) NamesManagedRule db calls) :
    ∀ pre call post, calls = pre ++ call :: post →
      InsideScope call.caller (run (ruleStep p constraints) db pre)
        (ruleStep p constraints (run (ruleStep p constraints) db pre) call) := by
  intro pre call post heq
  rw [heq, stepsMeet_append, stepsMeet_cons] at h
  exact ruleStep_insideScope h.2.1

/-! A group editor who manages the service "mine", and a rule of no team on "theirs". -/

private def twoServices : Catalog where
  services := [⟨"mine", false, "", none⟩, ⟨"theirs", false, "", none⟩]
  serviceKey := by decide
  systems := []
  integrations := []
  matched := fun _ => []
  attached := fun _ => []

private def groupEditor : Caller where
  handlers := {
    identity := {
      policies := [{ id := 1, groupID := 1, kind := .service,
                     targetServiceName := some "mine" }]
      policyKey := List.nodup_singleton _
      members := [⟨1, .user 5, .editor⟩]
      shares := []
      attributes := []
      catalog := twoServices
      compile := fun _ => none } }
  principal := { kind := .user, userID := some 5, role := .viewer }
  orgID := 1

private def noTemplates : Parsers where
  parseUUID := fun _ => none
  parseDuration := fun _ => none
  validateTemplate := fun _ => none
  validateLiquid := fun _ => none

private def unconstrained : Constraints where
  admitsRule := fun _ => true
  admitsRoute := fun _ => true

private def errorsOnMine : AlertRuleRequest where
  name := "errors"
  signal := "log"
  serviceName := "mine"
  logSpec := some { minSeverity := 17, threshold := 1, windowSeconds := 300 }

private def serviceRule (serviceName : String) : Database where
  rules := [{ id := 7, organizationID := 1, serviceName := some serviceName,
              name := "errors", signal := .log, ruleSpec := .object [], createdAt := 10,
              updatedAt := 10 }]
  routes := []
  ruleKey := List.nodup_singleton _
  routeKey := List.nodup_nil

private theorem groupEditor_managed : groupEditor.managed = some {"mine"} := by rfl

private theorem groupEditor_manages_iff (serviceName : String) :
    groupEditor.Manages serviceName none none ↔ serviceName = "mine" := by
  constructor
  · rintro (hnone | ⟨_, hcovers⟩)
    · rw [groupEditor_managed] at hnone
      cases hnone
    · have hmem := hcovers {"mine"} groupEditor_managed serviceName (by simp)
      simpa using hmem
  · rintro rfl
    right
    refine ⟨by decide, ?_⟩
    intro managed hmanaged n hn
    rw [groupEditor_managed] at hmanaged
    cases hmanaged
    simpa using hn

private def rebind : RuleCall where
  caller := groupEditor
  now := 20
  request := .update 7 errorsOnMine

theorem ruleWrites_insideScope_ownRule :
    InsideScope groupEditor (serviceRule "mine")
      (ruleStep noTemplates unconstrained (serviceRule "mine") rebind) := by
  have hcond : NamesManagedRule (serviceRule "mine") rebind := by
    intro row hrow
    obtain ⟨hmem, _, _⟩ := row?_eq_some.1 hrow
    rw [serviceRule, List.mem_singleton] at hmem
    subst hmem
    exact (groupEditor_manages_iff "mine").2 rfl
  exact ruleWrites_insideScope noTemplates unconstrained (serviceRule "mine") [rebind]
    ⟨hcond, trivial⟩ [] rebind [] rfl

/-- The rule of "theirs" is now the caller's own, on "mine". -/
theorem others_rule_rebound :
    (∃ db', handle noTemplates unconstrained (serviceRule "theirs") rebind = .ok db' ∧
      ∃ read, db'.getRule 1 7 = .ok read ∧ read.serviceName = "mine") ∧
    ¬ groupEditor.Manages "theirs" none none ∧
    ¬ InsideScope groupEditor (serviceRule "theirs")
      (ruleStep noTemplates unconstrained (serviceRule "theirs") rebind) := by
  have hnot : ¬ groupEditor.Manages "theirs" none none := by
    rw [groupEditor_manages_iff]
    decide
  obtain ⟨db', hdb'⟩ : ∃ db',
      handle noTemplates unconstrained (serviceRule "theirs") rebind = .ok db' := ⟨_, rfl⟩
  have hstep : ruleStep noTemplates unconstrained (serviceRule "theirs") rebind = db' := by
    rw [ruleStep, hdb']
  refine ⟨⟨_, rfl, _, rfl, rfl⟩, hnot, ?_⟩
  intro hinside
  rw [hstep] at hinside
  exact hnot (managed_of_insideScope (c := groupEditor) hdb' rfl (by decide) hinside)

end Sluicio.Api
