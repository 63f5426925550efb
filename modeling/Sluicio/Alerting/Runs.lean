import Sluicio.Lib.Run
import Sluicio.Alerting.Renotify

/-!
# Runs of the alert engine

One action is one call of the engine's loops for one rule (and one environment of
it), one tick, one call of the API, or a change of the world the engine reads.
-/

namespace Sluicio.Alerting

open Lib State

/-- What the engine, its sweeps, an operator or the clock does next, with the statements that
fail. -/
inductive Action where
  | evaluate (fault : Fault) (tel : Telemetry) (ruleID : UUID) (env : Option String)
  /-- `retireLegacyInstance`, before a rule's per-environment evaluations -/
  | retireLegacy (ruleID : UUID)
  | renotify (faults : UUID → Fault) (insts : List FiringUnackedInstance)
  | fireDelayed (fault : Fault) (ruleID : UUID) (fingerprint : String)
  /-- trace completion finds the missing span -/
  | resolveStageFiring (ruleID : UUID) (fingerprint : String)
  | acknowledge (instanceID : UUID)
  | resolveManual (instanceID : UUID)
  | clearErrors (service : String)
  | advance (d : Nat)
  | setWindows (windows : List WindowRow)
  /-- a notification profile or a route changes -/
  | setResolver (resolver : Option Resolver)
  | setEnvironments (environments : UUID → Option (List String))
  | pushReading (ruleID : UUID) (value : Rat)
  | createRule (rule : AlertRule)
  | updateRule (rule : AlertRule)

def State.retireLegacyInstance (s : State) (ruleID : UUID) : State :=
  match s.activeInstance ruleID (fingerprintFor none) with
  | none => s
  | some active => s.resolveInstance active.id

/-- `rule_spec->>'kind' = 'trace_error'`. -/
def RuleSpec.isTraceError : RuleSpec → Bool
  | .traceError _ => true
  | _ => false

/-- `ResolveErrorTraceInstancesForService`. -/
def State.clearErrors (s : State) (service : String) : State :=
  { s with
    instances := updateWhere (fun i => i.state = .firing && s.world.rules.any fun r =>
        r.id = i.alertRuleID && r.serviceName = service && r.spec.isTraceError)
      (fun i => i.closedAt s.world.now) s.instances }

/-- What a row of the signal reads of a written spec.  `UpdateRule` does not write the signal,
and the specs of two signals share only `threshold`; a spec without one of the four kinds makes
a trace row trace completion's. -/
def RuleSpec.readAs (written : RuleSpec) : Signal → RuleSpec
  | .metric =>
    match written with
    | .metric spec => .metric spec
    | .log ⟨threshold, _⟩ | .traceError ⟨threshold, _⟩ | .traceVolume ⟨threshold⟩
    | .traceAttribute ⟨threshold, _⟩ => .metric ⟨.other, threshold, false, ""⟩
    | .traceLatency _ | .traceCompletion => .metric ⟨.other, 0, false, ""⟩
  | .log =>
    match written with
    | .log spec => .log spec
    | .metric spec =>
      -- a number that is no `int` is not read
      if spec.threshold.den = 1 ∧ wrap64 spec.threshold.num = spec.threshold.num then
        .log ⟨spec.threshold.num, .atLeast⟩
      else .log ⟨0, .atLeast⟩
    | .traceError ⟨threshold, _⟩ | .traceVolume ⟨threshold⟩
    | .traceAttribute ⟨threshold, _⟩ => .log ⟨threshold, .atLeast⟩
    | .traceLatency _ | .traceCompletion => .log ⟨0, .atLeast⟩
  | .trace => if written.signal = .trace then written else .traceCompletion

/-- The row after the edit; `ruleSource` keeps the source of a metric rule only. -/
def AlertRule.writtenTo (rule row : AlertRule) : AlertRule :=
  { rule with
    spec := rule.spec.readAs row.spec.signal
    source := if rule.spec.signal = .metric then rule.source else .telemetry }

/-- The row an edit meets.  Trace completion's own `Update` looks at the kind too. -/
def AlertRule.edits (rule row : AlertRule) : Bool :=
  row.id = rule.id && (rule.spec ≠ .traceCompletion || row.spec = .traceCompletion)

def World.updateRule (w : World) (rule : AlertRule) : World :=
  { w with rules := updateWhere rule.edits rule.writtenTo w.rules }

def State.withWorld (s : State) (f : World → World) : State := { s with world := f s.world }

/-- A rule that is off or gone has no turn, and the sweeps take rows from their own query only. -/
def State.step (s : State) : Action → State
  | .evaluate fault tel ruleID env =>
    match s.world.rule? ruleID with
    | some rule => if rule.enabled then s.evaluate fault tel env rule else s
    | none => s
  | .retireLegacy ruleID => s.retireLegacyInstance ruleID
  | .renotify faults insts =>
    if insts.Perm s.firingUnackedInstances then s.renotifyOnce faults insts else s
  | .fireDelayed fault ruleID fingerprint =>
    match s.world.rule? ruleID with
    | some rule =>
      match rule.integrationID with
      | some integrationID =>
        if rule.enabled && rule.spec = .traceCompletion then
          s.fireDelayed fault rule integrationID fingerprint
        else s
      | none => s
    | none => s
  | .resolveStageFiring ruleID fingerprint => s.resolveStageFiring ruleID fingerprint
  | .acknowledge instanceID => s.acknowledgeInstance instanceID
  | .resolveManual instanceID => s.resolveInstanceManual instanceID
  | .clearErrors service => s.clearErrors service
  | .advance d => s.withWorld fun w => { w with now := w.now + d }
  | .setWindows windows => s.withWorld fun w => { w with windows := windows }
  | .setResolver resolver => s.withWorld fun w => { w with resolver := resolver }
  | .setEnvironments environments =>
    s.withWorld fun w => { w with environments := w.environments.map fun _ => environments }
  | .pushReading ruleID value => s.recordReading ruleID (some value)
  | .createRule rule =>
    s.withWorld fun w =>
      if (w.rule? rule.id).isSome then w else { w with rules := w.rules ++ [rule] }
  | .updateRule rule => s.withWorld fun w => w.updateRule rule

/-! ## What one action does

Every action but a change of the world is made of a few writes: rows are updated,
jobs are appended, an instance is opened.  The lemmas below say which. -/

/-- What no write to an instance's row undoes. -/
structure SameInstance (i i' : AlertInstance) : Prop where
  id : i'.id = i.id
  alertRuleID : i'.alertRuleID = i.alertRuleID
  fingerprint : i'.fingerprint = i.fingerprint
  startedAt : i'.startedAt = i.startedAt
  firing : i'.state = .firing → i.state = .firing
  unacked : i'.handledAt = none → i.handledAt = none
  unstamped : i'.suppressedBy = none → i.suppressedBy = none

theorem SameInstance.refl (i : AlertInstance) : SameInstance i i :=
  ⟨rfl, rfl, rfl, rfl, fun h => h, fun h => h, fun h => h⟩

variable {ruleID : UUID} {s : State} {i : AlertInstance} {fingerprint : String}

theorem SameInstance.trans {j k : AlertInstance} (h : SameInstance i j) (h' : SameInstance j k) :
    SameInstance i k where
  id := h'.id.trans h.id
  alertRuleID := h'.alertRuleID.trans h.alertRuleID
  fingerprint := h'.fingerprint.trans h.fingerprint
  startedAt := h'.startedAt.trans h.startedAt
  firing := fun hf => h.firing (h'.firing hf)
  unacked := fun hu => h.unacked (h'.unacked hu)
  unstamped := fun hs => h.unstamped (h'.unstamped hs)

section SameInstance

variable (i : AlertInstance) (now : Time)

theorem sameInstance_touched : SameInstance i { i with lastEvaluatedAt := now } :=
  ⟨rfl, rfl, rfl, rfl, fun h => h, fun h => h, fun h => h⟩

theorem sameInstance_refreshed (env : Option String) :
    SameInstance i { i with lastEvaluatedAt := now, environment := env } :=
  ⟨rfl, rfl, rfl, rfl, fun h => h, fun h => h, fun h => h⟩

theorem sameInstance_resolved : SameInstance i
    { i with state := .resolved, endedAt := some now, lastEvaluatedAt := now } :=
  ⟨rfl, rfl, rfl, rfl, fun h => (nomatch h), fun h => h, fun h => h⟩

theorem sameInstance_stamped (w : UUID) : SameInstance i { i with suppressedBy := some w } :=
  ⟨rfl, rfl, rfl, rfl, fun h => h, fun h => h, fun h => (nomatch h)⟩

theorem sameInstance_notified : SameInstance i { i with lastNotifiedAt := some now } :=
  ⟨rfl, rfl, rfl, rfl, fun h => h, fun h => h, fun h => h⟩

theorem sameInstance_acknowledged : SameInstance i { i with handledAt := some now } :=
  ⟨rfl, rfl, rfl, rfl, fun h => h, fun h => (nomatch h), fun h => h⟩

theorem sameInstance_closed : SameInstance i (i.closedAt now) := by
  refine ⟨rfl, rfl, rfl, rfl, fun h => (nomatch h), fun h => ?_, fun h => h⟩
  cases hh : i.handledAt with
  | none => rfl
  | some t => simp [AlertInstance.closedAt, hh] at h

end SameInstance

variable {id : UUID} {is : List AlertInstance} {rule : AlertRule}

theorem mem_of_latestStarted (h : latestStarted is = some i) : i ∈ is := by
  induction is with
  | nil => cases h
  | cons j js ih =>
    unfold latestStarted at h
    split at h
    · obtain rfl : j = i := Option.some.inj h
      exact List.mem_cons_self
    · next k hk =>
      split at h
      · obtain rfl : k = i := Option.some.inj h
        exact List.mem_cons_of_mem j (ih hk)
      · obtain rfl : j = i := Option.some.inj h
        exact List.mem_cons_self

theorem latestStarted_eq_none (h : latestStarted is = none) : is = [] := by
  cases is with
  | nil => rfl
  | cons j js =>
    unfold latestStarted at h
    split at h
    · cases h
    · split at h <;> cases h

theorem State.mem_firingFor : i ∈ s.firingFor ruleID fingerprint ↔
      i ∈ s.instances ∧ i.alertRuleID = ruleID ∧ i.fingerprint = fingerprint ∧
        i.state = .firing := by
  simp [firingFor, and_assoc]

theorem State.mem_of_activeInstance (h : s.activeInstance ruleID fingerprint = some i) :
    i ∈ s.instances ∧ i.alertRuleID = ruleID ∧ i.fingerprint = fingerprint ∧ i.state = .firing :=
  mem_firingFor.1 (mem_of_latestStarted h)

theorem State.activeInstance_eq_none (h : s.activeInstance ruleID fingerprint = none)
    (hi : i ∈ s.instances) (hrule : i.alertRuleID = ruleID) (hfp : i.fingerprint = fingerprint) :
    i.state ≠ .firing := by
  intro hfiring
  have hmem : i ∈ s.firingFor ruleID fingerprint :=
    mem_firingFor.2 ⟨hi, hrule, hfp, hfiring⟩
  rw [latestStarted_eq_none h] at hmem
  exact List.not_mem_nil hmem

theorem fingerprintFor_injective : Function.Injective fingerprintFor := by
  intro env env' h
  have hchars := congrArg String.toList h
  cases env <;> cases env' <;> simp [fingerprintFor, String.toList_append] at hchars ⊢
  exact String.toList_inj.1 hchars

theorem metric_of_refresh {tel : Telemetry} {env : Option String} {latest : Option Rat}
    {v : Verdict} (h : verdict tel env latest rule = some v) (hconfirm : v.confirm = .refresh) :
    rule.spec.signal = .metric := by
  unfold verdict at h
  cases hspec : rule.spec with
  | metric spec => rfl
  | log spec =>
    simp only [hspec, evaluateLogRule] at h
    split at h <;> grind
  | traceError spec =>
    simp only [hspec, evaluateTraceErrorRule] at h
    split at h <;> grind
  | traceLatency spec =>
    simp only [hspec, evaluateTraceLatencyRule] at h
    split at h <;> grind
  | traceVolume spec =>
    simp only [hspec, evaluateTraceVolumeRule] at h
    split at h <;> grind
  | traceAttribute spec =>
    simp only [hspec, evaluateTraceAttributeRule] at h
    split at h <;> grind
  | traceCompletion =>
    simp only [hspec] at h
    cases h

/-- The outcomes of `resolveOrHold`. -/
theorem State.resolveOrHold_cases (s : State) (fault : Fault) (env : Option String)
    (active : AlertInstance) (rule : AlertRule) :
    (rule.resolveMode = .manual ∧ active.handledAt = none ∧
      s.resolveOrHold fault env active rule = s.touchInstance active.id) ∨
    (active.handledAt = none ∧ active.suppressedBy = none ∧
      s.resolveOrHold fault env active rule =
        (s.resolveInstance active.id).enqueue fault env active.id rule) ∨
    (¬ (active.handledAt = none ∧ active.suppressedBy = none) ∧
      s.resolveOrHold fault env active rule = s.resolveInstance active.id) := by
  unfold resolveOrHold
  by_cases hhold : rule.resolveMode = .manual ∧ active.handledAt = none
  · exact .inl ⟨hhold.1, hhold.2, if_pos hhold⟩
  rw [if_neg hhold]
  by_cases hloud : active.handledAt = none ∧ active.suppressedBy = none
  · exact .inr (.inl ⟨hloud.1, hloud.2, if_pos hloud⟩)
  · exact .inr (.inr ⟨hloud, if_neg hloud⟩)

/-- The state in which a new instance's first notification is decided. -/
def State.opened (s : State) (env : Option String) (rule : AlertRule) : State :=
  (s.openInstance rule.id (fingerprintFor env) env).2.refreshWindows

theorem State.opened_mwCache (s : State) (env : Option String) (rule : AlertRule) :
    (s.opened env rule).mwCache = s.refreshWindows.mwCache := by
  simp only [opened, refreshWindows, openInstance]
  cases s.mwFetched with
  | none => rfl
  | some t => by_cases hstale : (s.world.now : Int) - t > mwCacheTTL <;> simp [hstale]

theorem State.openFiring_cases (s : State) (fault : Fault) (env : Option String)
    (rule : AlertRule) :
    (∃ w, coveringWindow (s.opened env rule).mwCache rule = some w ∧
      s.openFiring fault env rule = (s.opened env rule).markInstanceSuppressed s.nextID w) ∨
    (coveringWindow (s.opened env rule).mwCache rule = none ∧
      s.world.coalesces env rule ∧
      s.openFiring fault env rule = s.opened env rule) ∨
    (coveringWindow (s.opened env rule).mwCache rule = none ∧
      s.world.coalesces env rule = false ∧
      s.openFiring fault env rule = (s.opened env rule).page fault env s.nextID rule) := by
  have hopen : s.openFiring fault env rule =
      match coveringWindow (s.opened env rule).mwCache rule with
      | some w => (s.opened env rule).markInstanceSuppressed s.nextID w
      | none =>
        if s.world.coalesces env rule then s.opened env rule
        else (s.opened env rule).page fault env s.nextID rule :=
    enqueueFiring_eq _ fault env s.nextID rule
  rw [hopen]
  cases hcover : coveringWindow (s.opened env rule).mwCache rule with
  | some w => exact .inl ⟨w, rfl, rfl⟩
  | none =>
    right
    cases hfold : s.world.coalesces env rule
    · exact .inr ⟨rfl, rfl, by simp⟩
    · exact .inl ⟨rfl, rfl, by simp⟩

/-- The outcomes of `fireDelayed`: confirmed, stamped, or notified to the rule's own
channels, if it has any. -/
theorem State.fireDelayed_cases (s : State) (fault : Fault) (rule : AlertRule)
    (integrationID : UUID) (fingerprint : String) :
    (∃ active, s.activeInstance rule.id fingerprint = some active ∧
      s.fireDelayed fault rule integrationID fingerprint = s.touchInstance active.id) ∨
    (∃ w, s.activeInstance rule.id fingerprint = none ∧
      suppressingWindowForIntegration s.world.windows s.world.now integrationID = some w ∧
      s.fireDelayed fault rule integrationID fingerprint =
        (s.openInstance rule.id fingerprint none).2.markInstanceSuppressed s.nextID w) ∨
    (s.activeInstance rule.id fingerprint = none ∧
      suppressingWindowForIntegration s.world.windows s.world.now integrationID = none ∧
      s.fireDelayed fault rule integrationID fingerprint =
        ((s.openInstance rule.id fingerprint none).2.enqueueJobs fault s.nextID
          rule.channelIDs 0).2) := by
  unfold fireDelayed
  cases hactive : s.activeInstance rule.id fingerprint with
  | some active => exact .inl ⟨active, rfl, rfl⟩
  | none =>
    right
    cases hsup : suppressingWindowForIntegration s.world.windows s.world.now integrationID with
    | some w =>
      refine .inl ⟨w, rfl, rfl, ?_⟩
      simp only [openInstance, hsup]
    | none =>
      refine .inr ⟨rfl, rfl, ?_⟩
      simp only [openInstance, hsup]
      split
      · next hnil =>
        rw [hnil, enqueueJobs_nil]
      · rfl

theorem State.drive_cases (s : State) (fault : Fault) (env : Option String)
    (rule : AlertRule) (v : Verdict) :
    s.drive fault env rule v = s ∨
    (v.breached ∧ s.activeInstance rule.id (fingerprintFor env) = none ∧
      s.drive fault env rule v = s.openFiring fault env rule) ∨
    (∃ active, s.activeInstance rule.id (fingerprintFor env) = some active ∧
      ((v.confirm = .touch ∧ s.drive fault env rule v = s.touchInstance active.id) ∨
        (v.confirm = .refresh ∧ s.drive fault env rule v = s.refreshInstance active.id env) ∨
        (v.breached = false ∧
          s.drive fault env rule v = s.resolveOrHold fault env active rule))) := by
  unfold drive
  cases hb : v.breached <;> cases ha : s.activeInstance rule.id (fingerprintFor env) with
  | none => simp
  | some active => cases hc : v.confirm <;> simp

section Step

variable (s : State)

theorem State.step_evaluate_cases (fault : Fault) (tel : Telemetry) (ruleID : UUID)
    (env : Option String) :
    s.step (.evaluate fault tel ruleID env) = s ∨
    ∃ rule, s.world.rule? ruleID = some rule ∧ rule.enabled ∧
      s.step (.evaluate fault tel ruleID env) = s.evaluate fault tel env rule := by
  simp only [State.step]
  cases hrule : s.world.rule? ruleID with
  | none => exact .inl rfl
  | some rule =>
    by_cases henabled : rule.enabled = true
    · exact .inr ⟨rule, rfl, henabled, if_pos henabled⟩
    · exact .inl (if_neg henabled)

theorem State.step_renotify_cases (faults : UUID → Fault) (insts : List FiringUnackedInstance) :
    s.step (.renotify faults insts) = s ∨
    (insts.Perm s.firingUnackedInstances ∧
      s.step (.renotify faults insts) = s.renotifyOnce faults insts) := by
  simp only [State.step]
  by_cases hperm : insts.Perm s.firingUnackedInstances
  · exact .inr ⟨hperm, if_pos hperm⟩
  · exact .inl (if_neg hperm)

theorem State.retireLegacyInstance_cases (ruleID : UUID) :
    s.retireLegacyInstance ruleID = s ∨
    ∃ active, s.activeInstance ruleID "all" = some active ∧
      s.retireLegacyInstance ruleID = s.resolveInstance active.id := by
  unfold retireLegacyInstance fingerprintFor
  cases hactive : s.activeInstance ruleID "all" with
  | none => exact .inl rfl
  | some active => exact .inr ⟨active, rfl, rfl⟩

theorem State.resolveStageFiring_cases (ruleID : UUID) (fingerprint : String) :
    s.resolveStageFiring ruleID fingerprint = s ∨
    ∃ active, s.activeInstance ruleID fingerprint = some active ∧
      s.resolveStageFiring ruleID fingerprint = s.resolveInstance active.id := by
  unfold resolveStageFiring
  cases hactive : s.activeInstance ruleID fingerprint with
  | none => exact .inl rfl
  | some active => exact .inr ⟨active, rfl, rfl⟩

/-- What trace completion does: nothing, or `fireDelayed` for an enabled rule bound
to an integration. -/
theorem State.step_fireDelayed_cases (fault : Fault) (ruleID : UUID) (fingerprint : String) :
    s.step (.fireDelayed fault ruleID fingerprint) = s ∨
    ∃ rule integrationID, s.world.rule? ruleID = some rule ∧ rule.enabled ∧
      rule.spec = .traceCompletion ∧ rule.integrationID = some integrationID ∧
      s.step (.fireDelayed fault ruleID fingerprint) =
        s.fireDelayed fault rule integrationID fingerprint := by
  simp only [State.step]
  cases hrule : s.world.rule? ruleID with
  | none => exact .inl rfl
  | some rule =>
    cases hinteg : rule.integrationID with
    | none => exact .inl (by simp only [hinteg])
    | some integrationID =>
      by_cases hlisted : (rule.enabled && rule.spec = .traceCompletion) = true
      · right
        have hboth : rule.enabled ∧ rule.spec = .traceCompletion := by
          simpa using hlisted
        exact ⟨rule, integrationID, rfl, hboth.1, hboth.2, hinteg,
          by simp only [hinteg, if_pos hlisted]⟩
      · exact .inl (by simp only [hinteg, if_neg hlisted])

end Step

theorem State.recordReading_eq (s : State) (ruleID : UUID) (value : Option Rat) :
    ∃ readings, s.recordReading ruleID value = { s with readings := readings } := by
  cases value
  · exact ⟨s.readings, rfl⟩
  · exact ⟨_, rfl⟩

/-! ## The world -/

section World

variable (s : State)

theorem State.page_world (fault : Fault) (env : Option String) (instanceID : UUID)
    (rule : AlertRule) : (s.page fault env instanceID rule).world = s.world := by
  unfold State.page
  dsimp only
  split <;> exact s.enqueueJobs_world _ _ _ _

theorem State.openFiring_world (fault : Fault) (env : Option String) (rule : AlertRule) :
    (s.openFiring fault env rule).world = s.world := by
  have hopened : (s.opened env rule).world = s.world := refreshWindows_world _
  rcases s.openFiring_cases fault env rule with ⟨w, _, heq⟩ | ⟨_, _, heq⟩ | ⟨_, _, heq⟩
  · rw [heq]
    exact hopened
  · rwa [heq]
  · rw [heq, page_world]
    exact hopened

theorem State.drive_world (fault : Fault) (env : Option String) (rule : AlertRule)
    (v : Verdict) : (s.drive fault env rule v).world = s.world := by
  rcases s.drive_cases fault env rule v with heq | ⟨_, _, heq⟩ |
    ⟨active, _, ⟨_, heq⟩ | ⟨_, heq⟩ | ⟨_, heq⟩⟩
  · rw [heq]
  · rw [heq]
    exact s.openFiring_world fault env rule
  · rw [heq]
    rfl
  · rw [heq]
    rfl
  · rw [heq]
    rcases s.resolveOrHold_cases fault env active rule with
      ⟨_, _, heq'⟩ | ⟨_, _, heq'⟩ | ⟨_, heq'⟩
    · rw [heq']
      rfl
    · rw [heq']
      exact enqueueJobs_world _ _ _ _ _
    · rw [heq']
      rfl

theorem State.evaluate_world (fault : Fault) (tel : Telemetry) (env : Option String)
    (rule : AlertRule) : (s.evaluate fault tel env rule).world = s.world := by
  unfold evaluate
  split
  · rfl
  · next v _ =>
    obtain ⟨_, heq⟩ := s.recordReading_eq rule.id v.reading
    rw [heq]
    exact drive_world _ fault env rule v

theorem State.fireDelayed_world (fault : Fault) (rule : AlertRule) (integrationID : UUID)
    (fingerprint : String) :
    (s.fireDelayed fault rule integrationID fingerprint).world = s.world := by
  rcases s.fireDelayed_cases fault rule integrationID fingerprint with
    ⟨active, _, heq⟩ | ⟨w, _, _, heq⟩ | ⟨_, _, heq⟩
  · rw [heq]
    rfl
  · rw [heq]
    rfl
  · rw [heq]
    exact enqueueJobs_world _ _ _ _ _

theorem State.renotifyOnce_world (faults : UUID → Fault) (insts : List FiringUnackedInstance) :
    (s.renotifyOnce faults insts).world = s.world := by
  refine renotifyOnce_invariant (P := fun t => t.world = s.world) rfl
    s.refreshWindows_world fun t op _ ht => ?_
  cases op with
  | suppress instanceID windowID => exact ht
  | renotify it => exact (t.page_world _ _ _ _).trans ht

theorem State.now_le_step (a : Action) : s.world.now ≤ (s.step a).world.now := by
  cases a with
  | evaluate fault tel ruleID env =>
    rcases s.step_evaluate_cases fault tel ruleID env with heq | ⟨rule, _, _, heq⟩
    · rw [heq]
    · rw [heq, evaluate_world]
  | fireDelayed fault ruleID fingerprint =>
    rcases s.step_fireDelayed_cases fault ruleID fingerprint with
      heq | ⟨rule, integrationID, _, _, _, _, heq⟩
    · rw [heq]
    · rw [heq, fireDelayed_world]
  | renotify faults insts =>
    rcases s.step_renotify_cases faults insts with heq | ⟨_, heq⟩
    · rw [heq]
    · rw [heq, renotifyOnce_world]
  | retireLegacy ruleID =>
    show _ ≤ (s.retireLegacyInstance ruleID).world.now
    rcases s.retireLegacyInstance_cases ruleID with heq | ⟨active, _, heq⟩ <;> rw [heq]
    exact Nat.le_refl _
  | resolveStageFiring ruleID fingerprint =>
    show _ ≤ (s.resolveStageFiring ruleID fingerprint).world.now
    rcases s.resolveStageFiring_cases ruleID fingerprint with heq | ⟨active, _, heq⟩ <;> rw [heq]
    exact Nat.le_refl _
  | advance d => exact Nat.le_add_right _ _
  | createRule rule =>
    unfold State.step withWorld
    dsimp only
    split <;> exact Nat.le_refl _
  | acknowledge _ | resolveManual _ | clearErrors _ | setWindows _ | setResolver _
  | setEnvironments _ | pushReading _ _ | updateRule _ => exact Nat.le_refl _

end World

theorem World.mem_of_rule? {w : World} (h : w.rule? id = some rule) :
    rule ∈ w.rules ∧ rule.id = id :=
  ⟨List.mem_of_find?_eq_some h, by simpa using List.find?_some h⟩

/-! ## Ids -/

/-- Instance ids are used once, the next one is unused, and jobs are about known
instances. -/
structure State.Keyed (s : State) : Prop where
  ids : (s.instances.map (·.id)).Nodup
  fresh : ∀ i ∈ s.instances, i.id < s.nextID
  jobs : ∀ j ∈ s.jobs, j.alertInstanceID < s.nextID

theorem State.keyed_init (w : World) : State.Keyed { world := w } where
  ids := List.nodup_nil
  fresh := by simp
  jobs := by simp

section Keyed

variable {s : State}

theorem State.Keyed.updateInstances (h : s.Keyed) {p : AlertInstance → Bool}
    {f : AlertInstance → AlertInstance} (hf : ∀ i, (f i).id = i.id) :
    State.Keyed { s with instances := updateWhere p f s.instances } where
  ids := by
    rw [map_updateWhere hf]
    exact h.ids
  fresh := by
    intro i hi
    obtain ⟨i₀, hi₀, ⟨_, rfl⟩ | ⟨_, rfl⟩⟩ := mem_updateWhere.1 hi
    · rw [hf]
      exact h.fresh i₀ hi₀
    · exact h.fresh i hi₀
  jobs := h.jobs

theorem State.Keyed.enqueueJobs (h : s.Keyed) (fault : Fault) (instanceID : UUID)
    (channelIDs : List UUID) (window : Duration) :
    (s.enqueueJobs fault instanceID channelIDs window).2.Keyed := by
  have hle := s.nextID_le_enqueueJobs fault instanceID channelIDs window
  refine ⟨by simpa using h.ids, fun i hi => ?_, fun j hj => ?_⟩
  · exact Nat.lt_of_lt_of_le (h.fresh i (by simpa using hi)) hle
  · rcases mem_jobs_enqueueJobs hj with hold | ⟨i, hi, hid, hinst, _⟩
    · exact Nat.lt_of_lt_of_le (h.jobs j hold) hle
    · have hlt : j.alertInstanceID < s.nextID := by
        rw [hinst, ← hid]
        exact h.fresh i hi
      exact Nat.lt_of_lt_of_le hlt hle

theorem State.Keyed.openInstance (h : s.Keyed) (ruleID : UUID) (fingerprint : String)
    (env : Option String) : (s.openInstance ruleID fingerprint env).2.Keyed where
  ids := by
    simp only [State.openInstance, List.map_append, List.map_cons, List.map_nil]
    refine List.Nodup.append h.ids (List.nodup_singleton _) ?_
    intro id hid hnew
    obtain ⟨i, hi, rfl⟩ := List.mem_map.1 hid
    exact Nat.ne_of_lt (h.fresh i hi) (List.mem_singleton.1 hnew)
  fresh := by
    intro i hi
    rcases List.mem_append.1 hi with hold | hnew
    · exact Nat.lt_succ_of_lt (h.fresh i hold)
    · obtain rfl := List.mem_singleton.1 hnew
      exact Nat.lt_succ_self _
  jobs := fun j hj => Nat.lt_succ_of_lt (h.jobs j hj)

theorem State.Keyed.congr (h : s.Keyed) {t : State} (hinst : t.instances = s.instances)
    (hjobs : t.jobs = s.jobs) (hnext : t.nextID = s.nextID) : t.Keyed :=
  ⟨by rw [hinst]; exact h.ids, by rw [hinst, hnext]; exact h.fresh,
    by rw [hjobs, hnext]; exact h.jobs⟩

theorem State.Keyed.row_openInstance (h : s.Keyed) {ruleID : UUID} {fingerprint : String}
    {env : Option String} {i : AlertInstance}
    (hi : i ∈ (s.openInstance ruleID fingerprint env).2.instances) (hid : i.id = s.nextID) :
    i.alertRuleID = ruleID ∧ i.environment = env ∧ i.state = .firing := by
  rcases List.mem_append.1 hi with hold | hnew
  · exact absurd hid (Nat.ne_of_lt (h.fresh i hold))
  · obtain rfl := List.mem_singleton.1 hnew
    exact ⟨rfl, rfl, rfl⟩

theorem State.Keyed.row_opened (h : s.Keyed) {env : Option String} {rule : AlertRule}
    {i : AlertInstance} (hi : i ∈ (s.opened env rule).instances) (hid : i.id = s.nextID) :
    i.alertRuleID = rule.id ∧ i.environment = env := by
  rw [opened, refreshWindows_instances] at hi
  obtain ⟨hruleID, henv, _⟩ := h.row_openInstance hi hid
  exact ⟨hruleID, henv⟩

theorem State.refreshInstance_eq (h : s.Keyed) {i : AlertInstance} (hi : i ∈ s.instances) :
    s.refreshInstance i.id i.environment = s.touchInstance i.id := by
  unfold refreshInstance touchInstance updateInstance updateWhere
  have hrows : ∀ i' ∈ s.instances,
      (if (i'.id = i.id && true) = true then
        { i' with lastEvaluatedAt := s.world.now, environment := i.environment } else i') =
      if (i'.id = i.id && true) = true then
        { i' with lastEvaluatedAt := s.world.now } else i' := by
    intro i' hi'
    by_cases hid : i'.id = i.id
    · rw [eq_of_key_eq h.ids hi' hi hid]
    · simp [hid]
  rw [List.map_congr_left hrows]

end Keyed

theorem State.stamped_markInstanceSuppressed {windowID : UUID}
    (hi : i ∈ (s.markInstanceSuppressed id windowID).instances) (hid : i.id = id) :
    i.suppressedBy ≠ none := by
  obtain ⟨i₀, _, ⟨_, rfl⟩ | ⟨hp, rfl⟩⟩ := mem_updateWhere.1 hi
  · simp
  · intro hstamp
    simp [hid, hstamp] at hp

theorem State.mem_opened (s : State) (env : Option String) (rule : AlertRule) :
    ∃ i ∈ (s.opened env rule).instances, i.id = s.nextID ∧ i.state = .firing := by
  rw [opened, refreshWindows_instances]
  exact ⟨_, List.mem_append_right _ List.mem_cons_self, rfl, rfl⟩

end Sluicio.Alerting
