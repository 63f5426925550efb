import Sluicio.Api.CapturedChecks

/-!
# Applying a template

`createTemplateChecks` makes a rule of each check whose name the service does not have yet.  The
checks that were captured from rules make one rule each, and applying them again makes none;
whether the new rule watches what the old one did depends on what the capture leaves out.
-/

namespace Sluicio.Api.Templates

open Alerting (Time Duration minute)
open Alerting.Store Database SystemCheck
open Lib

/-- What an application has done so far. -/
structure Applied where
  db : Database
  created : Nat := 0
  updated : Nat := 0
  skipped : Nat := 0

def existingByName (existing : List AlertRule) (service name : String) : Option AlertRule :=
  (existing.filter fun e => e.serviceName = service && e.name = name).getLast?

section Application

variable (c : Constraints) (orgID : UUID) (service : String) (channels : List UUID)
  (stamp : Nat → UUID × Time) (existing : List AlertRule)

/-- One check; the stamp has the id a new row gets and the time of the statement. -/
def applyCheck (stamp : UUID × Time) (check : SystemCheck) (st : Applied) :
    Except StoreError Applied :=
  match existingByName existing service check.name with
  | some ex =>
    if channels = [] then .ok { st with skipped := st.skipped + 1 }
    else
      (updateRule c st.db orgID stamp.2 { ex with channelIDs := channels }).map fun db =>
        { st with db := db, updated := st.updated + 1 }
  | none =>
    match check.rule orgID service channels with
    | none => .error .database
    | some r =>
      (createRule c st.db stamp.1 stamp.2 r).map fun db =>
        { st with db := db, created := st.created + 1 }

/-- The checks in order, up to the first that fails. -/
def applyChecks : List SystemCheck → Nat → Applied → Applied × Option StoreError
  | [], _, st => (st, none)
  | check :: checks, i, st =>
    match applyCheck c orgID service channels existing (stamp i) check st with
    | .error e => (st, some e)
    | .ok st => applyChecks checks (i + 1) st

/-- `createTemplateChecks`.  The existing rules are listed once, at the start; a listing that
fails is none. -/
def createTemplateChecks (listed : Option (List AlertRule)) (db : Database)
    (checks : List SystemCheck) : Applied × Option StoreError :=
  applyChecks c orgID service channels stamp (listed.getD []) checks 0 { db := db }

end Application

/-- The checks of a template that was made of rules and stored, as they are applied. -/
def capturedChecks (rules : List AlertRule) : List SystemCheck :=
  (scanChecks (marshalChecks (rules.filterMap alertRuleToCustomCheck))).map customCheckToSystemCheck

def rulesOf (db : Database) (orgID : UUID) (service : String) : List AlertRule :=
  (db.listRules orgID).filter fun r => r.serviceName = service

section Lists

variable {α β : Type*} {R : α → β → Prop} {xs : List α} {ys : List β}

theorem exists_left_of_mem (h : List.Forall₂ R xs ys) {y : β} (hy : y ∈ ys) : ∃ x ∈ xs, R x y := by
  induction h with
  | nil => exact absurd hy List.not_mem_nil
  | @cons x y' xs ys hxy _ ih =>
    cases List.mem_cons.1 hy with
    | inl heq => exact ⟨x, List.mem_cons_self, heq ▸ hxy⟩
    | inr hrest =>
      obtain ⟨x', hx', hrel⟩ := ih hrest
      exact ⟨x', List.mem_cons_of_mem _ hx', hrel⟩

theorem exists_right_of_mem (h : List.Forall₂ R xs ys) {x : α} (hx : x ∈ xs) : ∃ y ∈ ys, R x y := by
  have hflip : List.Forall₂ (flip R) ys xs := List.Forall₂.flip h
  exact exists_left_of_mem hflip hx

theorem forall₂_iff_forall {P : α → Prop} (h : List.Forall₂ (fun x y => R x y ↔ P x) xs ys) :
    List.Forall₂ R xs ys ↔ ∀ x ∈ xs, P x := by
  induction h with
  | nil => simp
  | cons hxy _ ih => rw [List.forall₂_cons, List.forall_mem_cons, hxy, ih]

end Lists

variable {c : Constraints} {orgID : UUID} {service : String} {channels : List UUID}
  {stamp : Nat → UUID × Time} {existing : List AlertRule}

theorem SystemCheck.spec_kinded (check : SystemCheck) : check.spec.Kinded := by
  unfold SystemCheck.spec
  split <;> first | exact trivial | exact rfl

variable {check : SystemCheck} {r : AlertRule} {checks : List SystemCheck}

theorem SystemCheck.rule_eq_some (h : check.rule orgID service channels = some r) :
    ∃ severity scope,
      r = (check.fields orgID service channels severity scope).withSpec check.spec := by
  unfold SystemCheck.rule at h
  split at h
  · cases h
    exact ⟨_, _, rfl⟩
  · cases h

theorem withSpec_fields (r : AlertRule) (s : Spec) :
    (r.withSpec s).organizationID = r.organizationID ∧
      (r.withSpec s).serviceName = r.serviceName ∧ (r.withSpec s).name = r.name ∧
      (r.withSpec s).channelIDs = r.channelIDs ∧ (r.withSpec s).source = r.source ∧
      (r.withSpec s).resolveMode = r.resolveMode ∧
      (r.withSpec s).environments = r.environments ∧
      (r.withSpec s).environmentMode = r.environmentMode := by
  cases s <;> exact ⟨rfl, rfl, rfl, rfl, rfl, rfl, rfl, rfl⟩

theorem SystemCheck.rule_storable (h : check.rule orgID service channels = some r) :
    r.Storable := by
  obtain ⟨severity, scope, rfl⟩ := rule_eq_some h
  obtain ⟨-, -, -, -, hsource, hresolve, henvs, hmode⟩ :=
    withSpec_fields (check.fields orgID service channels severity scope) check.spec
  refine ⟨⟨_, _, check.spec_kinded, rfl⟩, ?_, ?_, ?_⟩
  · unfold ruleSource
    rw [hsource]
    rfl
  · unfold resolveModeOf
    rw [hresolve]
    rfl
  · unfold environmentsOf
    rw [hmode, henvs]
    rfl

def MadeFrom (orgID : UUID) (service : String) (channels : List UUID) (check : SystemCheck)
    (row : Row) : Prop :=
  ∃ r id now, check.rule orgID service channels = some r ∧ row = insertedRow r id now

variable {st' st : Applied} {rules : List AlertRule} {s : Spec} {db' db : Database}
  {rows : List Row} {i : Nat}

theorem kind_marshal (hs : s.Kinded) (htrace : s.signal = .trace) :
    (stringField (member s.marshal "kind")).getD "" ∈ ruleKinds := by
  cases s with
  | metric s => cases htrace
  | log s => cases htrace
  | traceError s =>
    have hkind : s.kind = traceErrorSpecKind := hs
    simp [Spec.marshal, TraceErrorRuleSpec.marshal, hkind, ruleKinds]
  | traceLatency s =>
    have hkind : s.kind = traceLatencySpecKind := hs
    simp [Spec.marshal, TraceLatencyRuleSpec.marshal, hkind, ruleKinds]
  | traceVolume s =>
    have hkind : s.kind = traceVolumeSpecKind := hs
    simp [Spec.marshal, TraceVolumeRuleSpec.marshal, hkind, ruleKinds]
  | traceAttribute s =>
    have hkind : s.kind = traceAttributeSpecKind := hs
    simp [Spec.marshal, TraceAttributeRuleSpec.marshal, hkind, ruleKinds]

theorem ruleSpecJSON_withSpec (r : AlertRule) (s : Spec) :
    ruleSpecJSON (r.withSpec s) = s.marshal ∧ (r.withSpec s).signal = s.signal := by
  cases s <;> exact ⟨rfl, rfl⟩

variable {mark : UUID × Time} {ex b : AlertRule} {row : Row}

theorem MadeFrom.listed (h : MadeFrom orgID service channels check row) :
    row.organizationID = orgID ∧ (scanRule row).serviceName = service ∧
      (scanRule row).name = check.name ∧
      (row.signal ≠ .trace ∨
        (stringField (member row.ruleSpec "kind")).getD "" ∈ ruleKinds) := by
  obtain ⟨r, id, now, hrule, rfl⟩ := h
  obtain ⟨severity, scope, rfl⟩ := rule_eq_some hrule
  obtain ⟨hjson, hsignal⟩ := ruleSpecJSON_withSpec
    (check.fields orgID service channels severity scope) check.spec
  obtain ⟨horg, hservice, hname, -⟩ :=
    withSpec_fields (check.fields orgID service channels severity scope) check.spec
  refine ⟨horg, ?_, ?_, ?_⟩
  · rw [scanRule_insertedRow (rule_storable hrule)]
    exact hservice
  · rw [scanRule_insertedRow (rule_storable hrule)]
    exact hname
  · show (AlertRule.withSpec _ _).signal ≠ .trace ∨
      (stringField (member (ruleSpecJSON _) "kind")).getD "" ∈ _
    rw [hjson, hsignal]
    by_cases htrace : check.spec.signal = .trace
    · exact .inr (kind_marshal check.spec_kinded htrace)
    · exact .inl htrace

/-! ## The first application -/

theorem applyCheck_created (hnone : existingByName existing service check.name = none)
    (h : applyCheck c orgID service channels existing mark check st = .ok st') :
    ∃ r, check.rule orgID service channels = some r ∧
      createRule c st.db mark.1 mark.2 r = .ok st'.db ∧
      st'.created = st.created + 1 := by
  unfold applyCheck at h
  rw [hnone] at h
  cases hrule : check.rule orgID service channels with
  | none =>
    rw [hrule] at h
    cases h
  | some r =>
    simp only [hrule] at h
    cases hcreate : createRule c st.db mark.1 mark.2 r with
    | error e =>
      rw [hcreate] at h
      cases h
    | ok db =>
      rw [hcreate] at h
      cases h
      exact ⟨r, rfl, hcreate, rfl⟩

def RoutesAre (db : Database) (channels : List UUID) (id : UUID) : Prop :=
  ∀ ch, Route.mk id ch ∈ db.routes ↔ ch ∈ channels

/-- The rows the first application adds: one of each check, in order, each with the channels that
were given.  The routes of the rows before stay. -/
theorem applyChecks_created
    (hnone : ∀ check ∈ checks, existingByName existing service check.name = none)
    (h : applyChecks c orgID service channels stamp existing checks i st = (st', none)) :
    ∃ rows, List.Forall₂ (MadeFrom orgID service channels) checks rows ∧
      st'.db.rules = st.db.rules ++ rows ∧ st'.created = st.created + checks.length ∧
      (∀ row ∈ rows, RoutesAre st'.db channels row.id) ∧
      ∀ rt : Route, rt.alertRuleID ∈ st.db.rules.map Row.id →
        (rt ∈ st'.db.routes ↔ rt ∈ st.db.routes) := by
  induction checks generalizing i st with
  | nil =>
    cases h
    exact ⟨[], .nil, (List.append_nil _).symm, rfl, by simp, fun _ _ => Iff.rfl⟩
  | cons check checks ih =>
    rw [List.forall_mem_cons] at hnone
    unfold applyChecks at h
    cases hfirst : applyCheck c orgID service channels existing (stamp i) check st with
    | error e =>
      rw [hfirst] at h
      cases h
    | ok mid =>
      simp only [hfirst] at h
      obtain ⟨r, hrule, hcreate, hcount⟩ := applyCheck_created hnone.1 hfirst
      obtain ⟨hfresh, hrules, hroutes⟩ := createRule_eq_ok hcreate
      obtain ⟨rows, hmade, hmore, hcounts, hnew, hold⟩ := ih hnone.2 h
      have hchannels : r.channelIDs = channels := by
        obtain ⟨severity, scope, rfl⟩ := rule_eq_some hrule
        exact (withSpec_fields _ _).2.2.2.1
      have hid : (insertedRow r (stamp i).1 (stamp i).2).id = (stamp i).1 := rfl
      refine ⟨insertedRow r (stamp i).1 (stamp i).2 :: rows,
        .cons ⟨r, _, _, hrule, rfl⟩ hmade, ?_, ?_, ?_, ?_⟩
      · rw [hmore, hrules, List.append_assoc, List.singleton_append]
      · rw [hcounts, hcount, List.length_cons]
        omega
      · rw [List.forall_mem_cons]
        refine ⟨fun ch => ?_, hnew⟩
        rw [hold _ (by rw [hrules]; simp), hid, hroutes, hchannels]
        simp [replacedRoutes, mem_dedupe]
      · intro rt hrt
        have hne : rt.alertRuleID ≠ (stamp i).1 := fun heq => hfresh (heq ▸ hrt)
        rw [hold rt (by rw [hrules, List.map_append]; exact List.mem_append_left _ hrt), hroutes,
          mem_replacedRoutes_other hne]

/-- The statements of an application go through: the ids are new, and the tables take the rows. -/
structure Admits (c : Constraints) (orgID : UUID) (service : String) (channels : List UUID)
    (stamp : Nat → UUID × Time) (db : Database) (checks : List SystemCheck) : Prop where
  fresh : ∀ i, (stamp i).1 ∉ db.rules.map Row.id
  distinct : Function.Injective fun i => (stamp i).1
  rows : ∀ check ∈ checks, ∀ i r, check.rule orgID service channels = some r →
    c.admitsRule (insertedRow r (stamp i).1 (stamp i).2)
  routes : ∀ i, ∀ ch ∈ channels, c.admitsRoute ⟨(stamp i).1, ch⟩

theorem applyChecks_succeeds
    (hnone : ∀ check ∈ checks, existingByName existing service check.name = none)
    (hrule : ∀ check ∈ checks, ∃ r, check.rule orgID service channels = some r)
    (hrows : ∀ check ∈ checks, ∀ i r, check.rule orgID service channels = some r →
      c.admitsRule (insertedRow r (stamp i).1 (stamp i).2))
    (hroutes : ∀ i, ∀ ch ∈ channels, c.admitsRoute ⟨(stamp i).1, ch⟩)
    (hdistinct : Function.Injective fun i => (stamp i).1)
    (hfresh : ∀ j, i ≤ j → (stamp j).1 ∉ st.db.rules.map Row.id) :
    ∃ st', applyChecks c orgID service channels stamp existing checks i st = (st', none) := by
  induction checks generalizing i st with
  | nil => exact ⟨st, rfl⟩
  | cons check checks ih =>
    rw [List.forall_mem_cons] at hnone hrule hrows
    obtain ⟨r, hr⟩ := hrule.1
    have hchannels : r.channelIDs = channels := by
      obtain ⟨severity, scope, rfl⟩ := rule_eq_some hr
      exact (withSpec_fields _ _).2.2.2.1
    have hadmit : (c.admitsRule (insertedRow r (stamp i).1 (stamp i).2) &&
        (dedupe r.channelIDs).all fun ch => c.admitsRoute ⟨(stamp i).1, ch⟩) := by
      rw [hrows.1 i r hr, Bool.true_and, List.all_eq_true, hchannels]
      exact fun ch hch => hroutes i ch (mem_dedupe.1 hch)
    obtain ⟨db, hcreate⟩ : ∃ db,
        createRule c st.db (stamp i).1 (stamp i).2 r = .ok db := by
      unfold createRule
      rw [dif_neg (hfresh i le_rfl), if_pos hadmit]
      exact ⟨_, rfl⟩
    have hfirst : applyCheck c orgID service channels existing (stamp i) check st =
        .ok { st with db := db, created := st.created + 1 } := by
      unfold applyCheck
      simp only [hnone.1, hr, hcreate, Except.map]
    unfold applyChecks
    rw [hfirst]
    refine ih hnone.2 hrule.2 hrows.2 fun j hj => ?_
    -- the row that was added has the id of this check
    obtain ⟨-, hadded, -⟩ := createRule_eq_ok hcreate
    have hother : (stamp j).1 ≠ (stamp i).1 := fun heq => by
      have hsame : j = i := hdistinct heq
      omega
    rw [hadded, List.map_append, List.mem_append, not_or]
    exact ⟨hfresh j (by omega), fun hmem => hother (List.mem_singleton.1 hmem)⟩

theorem rulesOf_created (hempty : rulesOf db orgID service = [])
    (hrules : db'.rules = db.rules ++ rows)
    (hmade : List.Forall₂ (MadeFrom orgID service channels) checks rows) :
    rulesOf db' orgID service = rows.map scanRule := by
  have hlisted : ∀ row ∈ rows, (row.organizationID = orgID && (row.signal ≠ .trace ||
      (stringField (member row.ruleSpec "kind")).getD "" ∈ ruleKinds)) ∧
      (scanRule row).serviceName = service := by
    intro row hrow
    obtain ⟨check, -, hcheck⟩ := exists_left_of_mem hmade hrow
    obtain ⟨horg, hservice, -, hkind⟩ := hcheck.listed
    refine ⟨?_, hservice⟩
    simpa [horg] using hkind
  unfold rulesOf listRules at hempty ⊢
  rw [hrules, List.filter_append, List.map_append, List.filter_append, hempty, List.nil_append,
    List.filter_eq_self.2 fun row hrow => (hlisted row hrow).1, List.filter_eq_self]
  intro r hr
  obtain ⟨row, hrow, rfl⟩ := List.mem_map.1 hr
  exact decide_eq_true (hlisted row hrow).2

/-! ## Applying again -/

/-- A row without the time of its last change. -/
def untimed (row : Row) : Row := { row with updatedAt := 0 }

/-- The tables are the same but for the times of the last changes. -/
def SameTables (db db' : Database) : Prop :=
  db.rules.map untimed = db'.rules.map untimed ∧ ∀ rt : Route, rt ∈ db.routes ↔ rt ∈ db'.routes

theorem updated_insertedRow (h : r.Storable) (id : UUID) (now now' : Time) (channels : List UUID) :
    (insertedRow r id now).updated { scanRule (insertedRow r id now) with channelIDs := channels }
        now' =
      { insertedRow r id now with updatedAt := now' } := by
  rw [scanRule_insertedRow h]
  rfl

theorem untimed_updated (row : Row) (ex : AlertRule) (now : Time) :
    untimed (row.updated ex now) = (untimed row).updated ex 0 := rfl

/-- **An update of a rule to what it is changes nothing**, when its routes are the channels. -/
theorem SameTables.update {next : Database} (h : SameTables db db') {listed : Row} {now : Time}
    (hlisted : listed ∈ db'.rules) (hid : ex.id = listed.id)
    (hsame : untimed (listed.updated ex now) = untimed listed)
    (hroutes : RoutesAre db' ex.channelIDs listed.id)
    (hupdate : updateRule c db orgID now ex = .ok next) : SameTables next db' := by
  obtain ⟨-, -, hrules, hnext⟩ := updateRule_eq_ok hupdate
  rw [hid] at hrules hnext
  constructor
  · rw [hrules, ← h.1]
    unfold updateWhere
    rw [List.map_map]
    refine List.map_congr_left fun row hmem => ?_
    show untimed (if _ then _ else row) = untimed row
    split
    · rename_i hhit
      simp only [Bool.and_eq_true, decide_eq_true_eq] at hhit
      -- the row is the one that was listed, but for its time
      have hrow : untimed row = untimed listed := by
        have hin : untimed row ∈ db'.rules.map untimed := h.1 ▸ List.mem_map_of_mem hmem
        obtain ⟨old, hold, heq⟩ := List.mem_map.1 hin
        have hkey : old.id = listed.id := (congrArg Row.id heq).trans hhit.2
        rw [← heq, eq_of_key_eq db'.ruleKey hold hlisted hkey]
      rw [untimed_updated, hrow, ← untimed_updated listed ex now, hsame]
    · rfl
  · intro rt
    rw [hnext]
    by_cases heq : rt.alertRuleID = listed.id
    · obtain ⟨ruleID, ch⟩ := rt
      cases heq
      rw [hroutes ch]
      simp [replacedRoutes, mem_dedupe]
    · rw [mem_replacedRoutes_other heq, h.2]

theorem SameTables.applyCheck (h : SameTables st.db db')
    (hfound : existingByName existing service check.name = some ex) {listed : Row}
    (hlisted : listed ∈ db'.rules) (hex : ex = scanRule listed) {made : SystemCheck}
    (hmade : MadeFrom orgID service channels made listed)
    (hroutes : RoutesAre db' channels listed.id)
    (happly : Templates.applyCheck c orgID service channels existing mark check st = .ok st') :
    SameTables st'.db db' ∧ st'.created = st.created ∧ (channels = [] → st'.db = st.db) := by
  unfold Templates.applyCheck at happly
  simp only [hfound] at happly
  by_cases hnone : channels = []
  · rw [if_pos hnone] at happly
    cases happly
    exact ⟨h, rfl, fun _ => rfl⟩
  rw [if_neg hnone] at happly
  cases hupdate : updateRule c st.db orgID mark.2 { ex with channelIDs := channels } with
  | error e =>
    rw [hupdate] at happly
    cases happly
  | ok next =>
    rw [hupdate] at happly
    cases happly
    refine ⟨?_, rfl, fun hempty => absurd hempty hnone⟩
    obtain ⟨r, id, created, hrule, rfl⟩ := hmade
    have hstorable := rule_storable hrule
    refine h.update hlisted ?_ ?_ hroutes hupdate
    · rw [hex, scanRule_insertedRow hstorable]
      rfl
    · rw [hex, updated_insertedRow hstorable]
      rfl

theorem SameTables.applyChecks (h : SameTables st.db db')
    (hfound : ∀ check ∈ checks, ∃ ex listed made,
      existingByName existing service check.name = some ex ∧ listed ∈ db'.rules ∧
        ex = scanRule listed ∧ MadeFrom orgID service channels made listed ∧
        RoutesAre db' channels listed.id) :
    SameTables (Templates.applyChecks c orgID service channels stamp existing checks i st).1.db
        db' ∧
      (Templates.applyChecks c orgID service channels stamp existing checks i st).1.created =
        st.created ∧
      (channels = [] →
        (Templates.applyChecks c orgID service channels stamp existing checks i st).1.db = st.db ∧
        (Templates.applyChecks c orgID service channels stamp existing checks i st).2 = none) := by
  induction checks generalizing i st with
  | nil => exact ⟨h, rfl, fun _ => ⟨rfl, rfl⟩⟩
  | cons check checks ih =>
    rw [List.forall_mem_cons] at hfound
    obtain ⟨⟨ex, listed, made, hex, hlisted, hscan, hmade, hroutes⟩, hrest⟩ := hfound
    unfold Templates.applyChecks
    cases hfirst : Templates.applyCheck c orgID service channels existing (stamp i) check st with
    | error e =>
      refine ⟨h, rfl, fun hnone => ?_⟩
      unfold Templates.applyCheck at hfirst
      simp only [hex] at hfirst
      rw [if_pos hnone] at hfirst
      cases hfirst
    | ok mid =>
      obtain ⟨hmid, hcount, hleft⟩ := h.applyCheck hex hlisted hscan hmade hroutes hfirst
      obtain ⟨hlast, hcounts, hnothing⟩ := ih hmid hrest
      refine ⟨hlast, hcounts.trans hcount, fun hnone => ?_⟩
      obtain ⟨hdb, herr⟩ := hnothing hnone
      exact ⟨hdb.trans (hleft hnone), herr⟩

/-! ## What comes back -/

structure ComesBack (parse : String → Option Duration) (service : String) (r r' : AlertRule) :
    Prop where
  name : r'.name = r.name
  firing : SameFiring parse { r with serviceName := service } r'
  checkScope : r'.checkScope = r.checkScope
  severity : r'.severity = r.severity

/-- The rules of which the capture leaves nothing out that matters. -/
structure KeptRule (parse : String → Option Duration) (r : AlertRule) : Prop where
  checkScope : r.checkScope = none
  integration : r.integrationID = none
  spec : ∀ s, r.spec? = some s → Kept parse s

structure OnService (p : Parsers) (orgID : UUID) (r : AlertRule) : Prop where
  built : WasBuilt p orgID r
  telemetry : r.source = .telemetry
  service : r.serviceName ≠ ""

variable {p : Parsers} {parse : String → Option Duration}

theorem scanRule_withSpec (h : (b.withSpec s).Storable) (id : UUID) (now : Time) :
    scanRule (insertedRow (b.withSpec s) id now) =
      { b with id := id, channelIDs := [], evalSeconds := 60, createdAt := now,
               updatedAt := now }.withSpec s := by
  rw [scanRule_insertedRow h]
  cases s <;> rfl

theorem withSpec_service (b : AlertRule) (s : Spec) (service : String) :
    { b.withSpec s with serviceName := service } =
      { b with serviceName := service }.withSpec s := by
  cases s <;> rfl

/-- The fields of a rule that `ComesBack` and `KeptRule` look at, beside the spec. -/
theorem withSpec_binding (b : AlertRule) (s : Spec) :
    (b.withSpec s).name = b.name ∧ (b.withSpec s).checkScope = b.checkScope ∧
      (b.withSpec s).severity = b.severity ∧ (b.withSpec s).integrationID = b.integrationID := by
  cases s <;> exact ⟨rfl, rfl, rfl, rfl⟩

theorem comesBack_withSpec_iff (hparse : parse "5m" = some (5 * minute)) (hservice : service ≠ "")
    {b' : AlertRule} (hs : Accepted s) (hsource : b.source = .telemetry)
    (hsystem : b.systemID = none) (hsource' : b'.source = .telemetry)
    (hbound : b'.scope = ⟨service, none, none⟩) (hname : b'.name = b.name)
    (hscope : b'.checkScope = none) (hseverity : b'.severity = b.severity) :
    ComesBack parse service (b.withSpec s) (b'.withSpec (reapplied s)) ↔
      KeptRule parse (b.withSpec s) := by
  obtain ⟨hnameOf, hscopeOf, hseverityOf, hintegration⟩ := withSpec_binding b s
  obtain ⟨hnameOf', hscopeOf', hseverityOf', -⟩ := withSpec_binding b' (reapplied s)
  have hfiring := sameFiring_reapplied_iff (b := { b with serviceName := service }) hparse hs
    hsource hsource' hservice hsystem hbound
  rw [← withSpec_service] at hfiring
  constructor
  · intro h
    obtain ⟨hnone, hkept⟩ := hfiring.1 h.firing
    constructor
    · exact h.checkScope.symm.trans (hscopeOf'.trans hscope)
    · exact hintegration.trans hnone
    · intro s' hs'
      rw [AlertRule.spec?_withSpec] at hs'
      cases hs'
      exact hkept
  · intro h
    have hkept : Kept parse s := h.spec s (AlertRule.spec?_withSpec b s)
    constructor
    · rw [hnameOf', hname, hnameOf]
    · exact hfiring.2 ⟨hintegration.symm.trans h.integration, hkept⟩
    · rw [hscopeOf', hscope, h.checkScope]
    · rw [hseverityOf', hseverity, hseverityOf]

/-- **Which rule comes back**, of one that was captured and applied. -/
theorem comesBack_iff (hparse : p.parseDuration "5m" = some (5 * minute)) (hservice : service ≠ "")
    (hr : OnService p orgID r) {check : Check} (hcheck : alertRuleToCustomCheck r = some check)
    (hmade : MadeFrom orgID service channels (customCheckToSystemCheck check) row) :
    ComesBack p.parseDuration service r (scanRule row) ↔ KeptRule p.parseDuration r := by
  obtain ⟨b, s, rfl, hs, hsystem⟩ := hr.built.spec hr.telemetry hr.service
  obtain ⟨captured, hcaptured, hname, hrule⟩ := captured_rule b s orgID service channels
  have hsame : captured = check := Option.some.inj (hcaptured.symm.trans hcheck)
  rw [hsame] at hname hrule
  obtain ⟨made, id, now, hmade, rfl⟩ := hmade
  cases Option.some.inj (hrule.symm.trans hmade)
  rw [scanRule_withSpec (rule_storable hrule)]
  have hsource : b.source = .telemetry := (withSpec_source b s).symm.trans hr.telemetry
  exact comesBack_withSpec_iff hparse hservice hs hsource hsystem rfl rfl hname rfl rfl

theorem captured_of_onService (hr : OnService p orgID r) (service : String) (channels : List UUID) :
    ∃ check made, alertRuleToCustomCheck r = some check ∧
      (customCheckToSystemCheck check).rule orgID service channels = some made := by
  obtain ⟨b, s, rfl, -, -⟩ := hr.built.spec hr.telemetry hr.service
  obtain ⟨check, hcheck, -, hrule⟩ := captured_rule b s orgID service channels
  exact ⟨check, _, hcheck, hrule⟩

theorem capturedChecks_cons {check : Check} (hcheck : alertRuleToCustomCheck r = some check)
    (rules : List AlertRule) :
    capturedChecks (r :: rules) = customCheckToSystemCheck check :: capturedChecks rules := by
  simp [capturedChecks, hcheck]

theorem forall₂_comesBack_iff (hparse : p.parseDuration "5m" = some (5 * minute))
    (hservice : service ≠ "") (hrules : ∀ r ∈ rules, OnService p orgID r)
    (hmade : List.Forall₂ (MadeFrom orgID service channels) (capturedChecks rules) rows) :
    List.Forall₂ (fun r r' => ComesBack p.parseDuration service r r' ↔
      KeptRule p.parseDuration r) rules (rows.map scanRule) := by
  induction rules generalizing rows with
  | nil =>
    cases hmade
    exact .nil
  | cons r rules ih =>
    rw [List.forall_mem_cons] at hrules
    obtain ⟨check, -, hcheck, -⟩ := captured_of_onService hrules.1 service channels
    rw [capturedChecks_cons hcheck] at hmade
    cases hmade with
    | cons hfirst hrest =>
      exact .cons (comesBack_iff hparse hservice hrules.1 hcheck hfirst) (ih hrules.2 hrest)

theorem exists_rule_of_captured (hrules : ∀ r ∈ rules, OnService p orgID r)
    (hcheck : check ∈ capturedChecks rules) : ∃ r, check.rule orgID service channels = some r := by
  unfold capturedChecks at hcheck
  rw [scanChecks_marshalChecks, List.mem_map] at hcheck
  obtain ⟨stored, hstored, rfl⟩ := hcheck
  obtain ⟨r, hr, hstored⟩ := List.mem_filterMap.1 hstored
  obtain ⟨check, made, hcheck, hmade⟩ := captured_of_onService (hrules r hr) service channels
  cases Option.some.inj (hcheck.symm.trans hstored)
  exact ⟨made, hmade⟩

theorem length_capturedChecks (hrules : ∀ r ∈ rules, OnService p orgID r) :
    (capturedChecks rules).length = rules.length := by
  induction rules with
  | nil => rfl
  | cons r rules ih =>
    rw [List.forall_mem_cons] at hrules
    obtain ⟨check, -, hcheck, -⟩ := captured_of_onService hrules.1 "" []
    rw [capturedChecks_cons hcheck, List.length_cons, List.length_cons, ih hrules.2]

/-! ## The whole -/

theorem existingByName_eq_none (hempty : rulesOf db orgID service = []) (name : String) :
    existingByName (db.listRules orgID) service name = none := by
  unfold existingByName
  have hnone : (db.listRules orgID).filter (fun e => e.serviceName = service && e.name = name) =
      [] := by
    rw [List.filter_eq_nil_iff]
    intro e he hboth
    have hservice : e.serviceName = service := by
      simp only [Bool.and_eq_true, decide_eq_true_eq] at hboth
      exact hboth.1
    have hin : e ∈ rulesOf db orgID service := List.mem_filter.2 ⟨he, decide_eq_true hservice⟩
    rw [hempty] at hin
    exact List.not_mem_nil hin
  rw [hnone]
  rfl

theorem existingByName_eq_some (hr : r ∈ rulesOf db orgID service) :
    ∃ ex ∈ rulesOf db orgID service,
      existingByName (db.listRules orgID) service r.name = some ex := by
  obtain ⟨hlisted, hservice⟩ := List.mem_filter.1 hr
  have hin : r ∈ (db.listRules orgID).filter fun e => e.serviceName = service && e.name = r.name :=
    List.mem_filter.2 ⟨hlisted, by simpa using hservice⟩
  have hne := List.ne_nil_of_mem hin
  refine ⟨_, ?_, List.getLast?_eq_some_getLast hne⟩
  obtain ⟨hlast, hboth⟩ := List.mem_filter.1 (List.getLast_mem hne)
  simp only [Bool.and_eq_true] at hboth
  exact List.mem_filter.2 ⟨hlast, hboth.1⟩

/-- What an application left, of a template that was made of `rules`: one rule for each, and
nothing more to do. -/
structure Reproduced (p : Parsers) (c : Constraints) (orgID : UUID) (service : String)
    (channels : List UUID) (rules : List AlertRule) (st : Applied) : Prop where
  count : st.created = rules.length
  back : List.Forall₂ (ComesBack p.parseDuration service) rules (rulesOf st.db orgID service)
  again : ∀ (marks : Nat → UUID × Time) (next : Applied × Option StoreError),
    createTemplateChecks c orgID service channels marks (some (st.db.listRules orgID)) st.db
      (capturedChecks rules) = next →
    next.1.created = 0 ∧ SameTables next.1.db st.db ∧
      (channels = [] → next.1.db = st.db ∧ next.2 = none)

theorem createTemplateChecks_again
    (hmade : List.Forall₂ (MadeFrom orgID service channels) checks rows)
    (hlisted : rulesOf db orgID service = rows.map scanRule) (hrows : ∀ row ∈ rows, row ∈ db.rules)
    (hroutes : ∀ row ∈ rows, RoutesAre db channels row.id) {marks : Nat → UUID × Time}
    {next : Applied × Option StoreError}
    (hnext : createTemplateChecks c orgID service channels marks (some (db.listRules orgID)) db
      checks = next) :
    next.1.created = 0 ∧ SameTables next.1.db db ∧
      (channels = [] → next.1.db = db ∧ next.2 = none) := by
  have hfound : ∀ check ∈ checks, ∃ ex listed made,
      existingByName (db.listRules orgID) service check.name = some ex ∧ listed ∈ db.rules ∧
        ex = scanRule listed ∧ MadeFrom orgID service channels made listed ∧
        RoutesAre db channels listed.id := by
    intro check hcheck
    obtain ⟨row, hrow, hmadeRow⟩ := exists_right_of_mem hmade hcheck
    have hin : scanRule row ∈ rulesOf db orgID service := hlisted ▸ List.mem_map_of_mem hrow
    obtain ⟨ex, hex, hname⟩ := existingByName_eq_some hin
    rw [hmadeRow.listed.2.2.1] at hname
    rw [hlisted] at hex
    obtain ⟨listed, hlistedRow, rfl⟩ := List.mem_map.1 hex
    obtain ⟨made, -, hmadeListed⟩ := exists_left_of_mem hmade hlistedRow
    exact ⟨_, listed, made, hname, hrows listed hlistedRow, rfl, hmadeListed,
      hroutes listed hlistedRow⟩
  have hstart : SameTables (Applied.mk db 0 0 0).db db := ⟨rfl, fun _ => Iff.rfl⟩
  have happlied : SameTables next.1.db db ∧ next.1.created = 0 ∧
      (channels = [] → next.1.db = db ∧ next.2 = none) := by
    rw [← hnext]
    exact hstart.applyChecks hfound
  exact ⟨happlied.2.1, happlied.1, happlied.2.2⟩

/-- **When applying a template reproduces the rules it was made of.**  The application goes
through when the tables take the rows; it leaves one rule for each that was captured, and a
second one nothing to do.  The rules watch for what the captured ones did exactly when each of
these is one that the capture leaves nothing out of. -/
theorem createTemplateChecks_reproduces_iff (p : Parsers) (c : Constraints) (orgID : UUID)
    (service : String) (channels : List UUID) (stamp : Nat → UUID × Time) (db : Database)
    (rules : List AlertRule) (hparse : p.parseDuration "5m" = some (5 * minute))
    (hservice : service ≠ "") (hrules : ∀ r ∈ rules, OnService p orgID r)
    (hempty : rulesOf db orgID service = []) :
    (Admits c orgID service channels stamp db (capturedChecks rules) →
      ∃ st, createTemplateChecks c orgID service channels stamp (some (db.listRules orgID)) db
        (capturedChecks rules) = (st, none)) ∧
    ∀ st, createTemplateChecks c orgID service channels stamp (some (db.listRules orgID)) db
        (capturedChecks rules) = (st, none) →
      (Reproduced p c orgID service channels rules st ↔
        ∀ r ∈ rules, KeptRule p.parseDuration r) := by
  have hnone (check : SystemCheck) :
      existingByName (db.listRules orgID) service check.name = none :=
    existingByName_eq_none hempty check.name
  constructor
  · intro hadmits
    exact applyChecks_succeeds (fun check _ => hnone check)
      (fun check hcheck => exists_rule_of_captured hrules hcheck) hadmits.rows hadmits.routes
      hadmits.distinct fun j _ => hadmits.fresh j
  · intro st happlied
    obtain ⟨rows, hmade, hadded, hcount, hroutes, -⟩ :=
      applyChecks_created (fun check _ => hnone check) happlied
    have hlisted := rulesOf_created hempty hadded hmade
    have hback := forall₂_iff_forall (forall₂_comesBack_iff hparse hservice hrules hmade)
    constructor
    · intro h
      exact hback.1 (hlisted ▸ h.back)
    · intro hkept
      refine ⟨?_, hlisted ▸ hback.2 hkept, fun marks next hnext => ?_⟩
      · rw [hcount, length_capturedChecks hrules]
        exact Nat.zero_add _
      · have hrows (row : Row) (hrow : row ∈ rows) : row ∈ st.db.rules := by
          rw [hadded]
          exact List.mem_append_right _ hrow
        exact createTemplateChecks_again hmade hlisted hrows hroutes hnext

/-! A check that wants the error logs of a service, and one that wants its heartbeats. -/

private def plainParsers : Parsers where
  parseUUID := fun _ => none
  parseDuration := fun s => if s = "5m" then some (5 * minute) else none
  validateTemplate := fun _ => none
  validateLiquid := fun _ => none

private def openTables : Constraints where
  admitsRule := fun _ => true
  admitsRoute := fun _ => true

private def emptyTables : Database where
  rules := []
  routes := []
  ruleKey := List.nodup_nil
  routeKey := List.nodup_nil

private def logRequest (comparison : String) : AlertRuleRequest where
  name := "logs"
  serviceName := "orders"
  signal := "log"
  logSpec := some { threshold := 1, windowSeconds := 300, comparison := comparison }

private def logRule (comparison : String) : AlertRule where
  id := 7
  organizationID := 1
  serviceName := "orders"
  name := "logs"
  signal := .log
  severity := .warning
  enabled := true
  resolveMode := .manual
  logSpec := some { threshold := 1, windowSeconds := 300, comparison := comparison }

private theorem logRequest_atLeast :
    buildRule plainParsers 1 7 (logRequest "at_least") = .ok (logRule "at_least") := by rfl

private theorem logRequest_fewer :
    buildRule plainParsers 1 7 (logRequest "fewer_than") = .ok (logRule "fewer_than") := by rfl

private def failuresRequest : AlertRuleRequest where
  name := "failures"
  serviceName := "orders"
  signal := "trace"
  traceErrorSpec := some { threshold := 3, windowSeconds := 300 }

private def failuresRule : AlertRule where
  id := 8
  organizationID := 1
  serviceName := "orders"
  name := "failures"
  signal := .trace
  severity := .warning
  enabled := true
  resolveMode := .manual
  traceErrorSpec := some { kind := traceErrorSpecKind, threshold := 3, windowSeconds := 300 }

private theorem failuresRequest_rule :
    buildRule plainParsers 1 8 failuresRequest = .ok failuresRule := by rfl

private def stamps (i : Nat) : UUID × Time := (i, 20)

theorem createTemplateChecks_reproduces_two :
    ∃ st, createTemplateChecks openTables 1 "billing" [5] stamps (some (emptyTables.listRules 1))
        emptyTables (capturedChecks [logRule "at_least", failuresRule]) = (st, none) ∧
      Reproduced plainParsers openTables 1 "billing" [5] [logRule "at_least", failuresRule] st := by
  have hon : ∀ r ∈ [logRule "at_least", failuresRule], OnService plainParsers 1 r := by
    rw [List.forall_mem_cons, List.forall_mem_singleton]
    exact ⟨⟨⟨7, _, _, logRequest_atLeast, rfl⟩, rfl, by decide⟩,
      ⟨8, _, _, failuresRequest_rule, rfl⟩, rfl, by decide⟩
  have hempty : rulesOf emptyTables 1 "billing" = [] := rfl
  obtain ⟨hruns, hiff⟩ := createTemplateChecks_reproduces_iff plainParsers openTables 1 "billing"
    [5] stamps emptyTables [logRule "at_least", failuresRule] rfl (by decide) hon hempty
  have hadmits : Admits openTables 1 "billing" [5] stamps emptyTables
      (capturedChecks [logRule "at_least", failuresRule]) :=
    ⟨fun _ => List.not_mem_nil, fun _ _ heq => heq, fun _ _ _ _ _ => rfl, fun _ _ _ => rfl⟩
  obtain ⟨st, hst⟩ := hruns hadmits
  refine ⟨st, hst, (hiff st hst).2 ?_⟩
  rw [List.forall_mem_cons, List.forall_mem_singleton]
  refine ⟨⟨rfl, rfl, fun s hs => ?_⟩, rfl, rfl, fun s hs => ?_⟩
  · cases hs
    exact ⟨rfl, by decide, by decide⟩
  · cases hs
    exact fun _ => windowDuration_default

/-- A check that fires when too few logs arrive comes back as one that fires when one does. -/
theorem createTemplateChecks_turns_heartbeats :
    OnService plainParsers 1 (logRule "fewer_than") ∧
    rulesOf emptyTables 1 "billing" = [] ∧
    ∃ st r, createTemplateChecks openTables 1 "billing" [] stamps (some (emptyTables.listRules 1))
        emptyTables (capturedChecks [logRule "fewer_than"]) = (st, none) ∧
      rulesOf st.db 1 "billing" = [r] ∧
      (logRule "fewer_than").fires plainParsers.parseDuration
        { Answers.silent with countLogs := fun _ => some 0 } none = some true ∧
      r.fires plainParsers.parseDuration
        { Answers.silent with countLogs := fun _ => some 0 } none = some false ∧
      ¬ Reproduced plainParsers openTables 1 "billing" [] [logRule "fewer_than"] st := by
  refine ⟨⟨⟨7, _, _, logRequest_fewer, rfl⟩, rfl, by decide⟩, rfl, _, _, rfl, rfl, rfl, rfl, ?_⟩
  intro h
  cases h.back with
  | cons hback _ =>
    have hsame := hback.firing { Answers.silent with countLogs := fun _ => some 0 } none
    cases Option.some.inj hsame

end Sluicio.Api.Templates
