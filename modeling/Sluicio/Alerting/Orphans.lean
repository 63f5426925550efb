import Sluicio.Alerting.Environments
import Sluicio.Alerting.Sound

/-!
# No firing instance is orphaned

A firing instance is closed by a turn of its rule that looks at its fingerprint.  The
fingerprints are fixed when instances are opened, and which ones a turn looks at
follows from columns an edit can change.
-/

namespace Sluicio.Alerting

open Lib State

/-- Every firing row of `t` was one of `s`, or is the new row of `s` for the rule and the
fingerprint, of which no row was firing. -/
def OpensAtMost (s t : State) (ruleID : UUID) (fingerprint : String) : Prop :=
  ∀ i' ∈ t.instances, i'.state = .firing →
    (∃ i ∈ s.instances, i.state = .firing ∧ i'.id = i.id ∧ i'.alertRuleID = i.alertRuleID ∧
      i'.fingerprint = i.fingerprint) ∨
    (i'.id = s.nextID ∧ i'.alertRuleID = ruleID ∧ i'.fingerprint = fingerprint ∧
      s.activeInstance ruleID fingerprint = none)

/-- Every firing row of `t` was one of `s`. -/
def OpensNone (s t : State) : Prop :=
  ∀ i' ∈ t.instances, i'.state = .firing →
    ∃ i ∈ s.instances, i.state = .firing ∧ i'.id = i.id ∧ i'.alertRuleID = i.alertRuleID ∧
      i'.fingerprint = i.fingerprint

/-- Every row of `s` is still in `t`, evaluated no earlier than it was. -/
structure RowsKept (s t : State) : Prop where
  world : t.world = s.world
  rows : ∀ i ∈ s.instances, ∃ i' ∈ t.instances, SameInstance i i' ∧
    (i'.lastEvaluatedAt = i.lastEvaluatedAt ∨ i'.lastEvaluatedAt = s.world.now)

/-- The instance is resolved, or has been evaluated at this moment. -/
def State.Looked (s : State) (id : UUID) : Prop :=
  ∃ i ∈ s.instances, i.id = id ∧ (i.state = .resolved ∨ i.lastEvaluatedAt = s.world.now)

section Rows

variable {s t u : State} {id : UUID}

theorem OpensNone.atMost (h : OpensNone s t) (ruleID : UUID) (fingerprint : String) :
    OpensAtMost s t ruleID fingerprint :=
  fun i hi hfiring => .inl (h i hi hfiring)

theorem OpensNone.refl (s : State) : OpensNone s s :=
  fun i hi hfiring => ⟨i, hi, hfiring, rfl, rfl, rfl⟩

theorem OpensNone.of_instances (h : t.instances = s.instances) : OpensNone s t := by
  intro i hi hfiring
  rw [h] at hi
  exact ⟨i, hi, hfiring, rfl, rfl, rfl⟩

variable {i : AlertInstance} {ruleID : UUID} {fingerprint : String}

theorem OpensAtMost.trans_none (h : OpensAtMost s t ruleID fingerprint) (h' : OpensNone t u) :
    OpensAtMost s u ruleID fingerprint := by
  intro i'' hi'' hfiring
  obtain ⟨i', hi', hfiring', hid, hrule, hfp⟩ := h' i'' hi'' hfiring
  rcases h i' hi' hfiring' with ⟨i, hi, hf, hid', hrule', hfp'⟩ | ⟨hid', hrule', hfp', hnone⟩
  · exact .inl ⟨i, hi, hf, hid.trans hid', hrule.trans hrule', hfp.trans hfp'⟩
  · exact .inr ⟨hid.trans hid', hrule.trans hrule', hfp.trans hfp', hnone⟩

variable {tel : Telemetry} {p : AlertInstance → Bool} {env : Option String}
  {f : AlertInstance → AlertInstance} {rule : AlertRule}

theorem opensNone_updateInstances (hf : ∀ i, SameInstance i (f i)) :
    OpensNone s { s with instances := updateWhere p f s.instances } := by
  intro i hi hfiring
  obtain ⟨i₀, hi₀, ⟨_, rfl⟩ | ⟨_, rfl⟩⟩ := mem_updateWhere.1 hi
  · exact ⟨i₀, hi₀, (hf i₀).firing hfiring, (hf i₀).id, (hf i₀).alertRuleID,
      (hf i₀).fingerprint⟩
  · exact ⟨i, hi₀, hfiring, rfl, rfl, rfl⟩

theorem opensNone_tick (h : TickFrame s t) : OpensNone s t := by
  intro i' hi' hfiring
  obtain ⟨i, hi, hsame⟩ := h.old hi'
  exact ⟨i, hi, hsame.state.symm.trans hfiring, hsame.id, hsame.alertRuleID, hsame.fingerprint⟩

theorem opensNone_resolveOrHold (fault : Fault) (env : Option String) (active : AlertInstance)
    (rule : AlertRule) : OpensNone s (s.resolveOrHold fault env active rule) := by
  have hresolved : OpensNone s (s.resolveInstance active.id) :=
    opensNone_updateInstances fun i => sameInstance_resolved i _
  rcases s.resolveOrHold_cases fault env active rule with
    ⟨_, _, heq⟩ | ⟨_, _, heq⟩ | ⟨_, heq⟩
  · rw [heq]
    exact opensNone_updateInstances fun i => sameInstance_touched i _
  · rw [heq]
    intro i hi hfiring
    unfold enqueue at hi
    rw [enqueueJobs_instances] at hi
    exact hresolved i hi hfiring
  · rwa [heq]

theorem opensAtMost_openInstance (hnone : s.activeInstance ruleID fingerprint = none) :
    OpensAtMost s (s.openInstance ruleID fingerprint env).2 ruleID fingerprint := by
  intro i hi hfiring
  rcases List.mem_append.1 hi with hold | hnew
  · exact .inl ⟨i, hold, hfiring, rfl, rfl, rfl⟩
  · obtain rfl := List.mem_singleton.1 hnew
    exact .inr ⟨rfl, rfl, rfl, hnone⟩

theorem opensAtMost_openFiring (fault : Fault) (env : Option String) (rule : AlertRule)
    (hnone : s.activeInstance rule.id (fingerprintFor env) = none) :
    OpensAtMost s (s.openFiring fault env rule) rule.id (fingerprintFor env) := by
  have hopened : OpensAtMost s (s.opened env rule) rule.id (fingerprintFor env) :=
    OpensAtMost.trans_none (opensAtMost_openInstance hnone)
      (.of_instances (refreshWindows_instances _))
  rcases s.openFiring_cases fault env rule with ⟨w, _, heq⟩ | ⟨_, _, heq⟩ | ⟨_, _, heq⟩
  · rw [heq]
    exact hopened.trans_none (opensNone_updateInstances fun i => sameInstance_stamped i _)
  · rwa [heq]
  · rw [heq]
    exact hopened.trans_none (opensNone_tick (tickFrame_page _ _ _ _ _))

theorem opensAtMost_evaluate (fault : Fault) (tel : Telemetry) (env : Option String)
    (rule : AlertRule) :
    OpensAtMost s (s.evaluate fault tel env rule) rule.id (fingerprintFor env) := by
  unfold evaluate
  split
  · exact (OpensNone.refl s).atMost _ _
  · next v _ =>
    obtain ⟨readings, heq⟩ := s.recordReading_eq rule.id v.reading
    rw [heq]
    -- readings are a column of their own, so what is said about the state with the new
    -- reading is said about `s`
    show OpensAtMost { s with readings := readings } _ _ _
    rcases drive_cases { s with readings := readings } fault env rule v with
      heq | ⟨_, hnone, heq⟩ | ⟨active, _, ⟨_, heq⟩ | ⟨_, heq⟩ | ⟨_, heq⟩⟩
    · rw [heq]
      exact (OpensNone.refl _).atMost _ _
    · rw [heq]
      exact opensAtMost_openFiring fault env rule hnone
    · rw [heq]
      exact (opensNone_updateInstances fun i => sameInstance_touched i _).atMost _ _
    · rw [heq]
      exact (opensNone_updateInstances fun i => sameInstance_refreshed i _ env).atMost _ _
    · rw [heq]
      exact (opensNone_resolveOrHold fault env active rule).atMost _ _

theorem opensNone_retireLegacy (ruleID : UUID) : OpensNone s (s.retireLegacyInstance ruleID) := by
  rcases s.retireLegacyInstance_cases ruleID with heq | ⟨active, _, heq⟩
  · rw [heq]
    exact OpensNone.refl s
  · rw [heq]
    exact opensNone_updateInstances fun i => sameInstance_resolved i _

/-! ## What a step keeps -/

theorem RowsKept.of_instances (hworld : t.world = s.world)
    (h : t.instances = s.instances) : RowsKept s t where
  world := hworld
  rows := by
    intro i hi
    rw [h]
    exact ⟨i, hi, SameInstance.refl i, .inl rfl⟩

theorem RowsKept.trans (h : RowsKept s t) (h' : RowsKept t u) : RowsKept s u where
  world := h'.world.trans h.world
  rows := by
    intro i hi
    obtain ⟨i', hi', hsame, hlast⟩ := h.rows i hi
    obtain ⟨i'', hi'', hsame', hlast'⟩ := h'.rows i' hi'
    rw [h.world] at hlast'
    refine ⟨i'', hi'', hsame.trans hsame', ?_⟩
    rcases hlast' with hkept | hnow
    · rw [hkept]
      exact hlast
    · exact .inr hnow

theorem RowsKept.append (h : RowsKept s t) (rows : List AlertInstance)
    (hu : u.instances = t.instances ++ rows) (hworld : u.world = t.world) : RowsKept s u := by
  refine h.trans ⟨hworld, fun i hi => ⟨i, ?_, SameInstance.refl i, .inl rfl⟩⟩
  rw [hu]
  exact List.mem_append_left _ hi

theorem rowsKept_updateInstances (hf : ∀ i, SameInstance i (f i))
    (hlast : ∀ i, (f i).lastEvaluatedAt = i.lastEvaluatedAt ∨ (f i).lastEvaluatedAt = s.world.now) :
    RowsKept s { s with instances := updateWhere p f s.instances } where
  world := rfl
  rows := by
    intro i hi
    cases hp : p i
    · exact ⟨i, mem_updateWhere_of_not hi hp, SameInstance.refl i, .inl rfl⟩
    · exact ⟨f i, mem_updateWhere_of hi hp, hf i, hlast i⟩

theorem rowsKept_page (fault : Fault) (env : Option String) (instanceID : UUID)
    (rule : AlertRule) : RowsKept s (s.page fault env instanceID rule) := by
  have hjobs : RowsKept s (s.enqueueJobs fault instanceID (s.world.channelsFor env rule)
      s.world.deliveryWindow).2 :=
    .of_instances (enqueueJobs_world _ _ _ _ _) (enqueueJobs_instances _ _ _ _ _)
  unfold State.page
  dsimp only
  split
  · exact hjobs.trans (rowsKept_updateInstances (fun i => sameInstance_notified i _)
      fun _ => .inl rfl)
  · exact hjobs

theorem rowsKept_openFiring (fault : Fault) (env : Option String) (rule : AlertRule) :
    RowsKept s (s.openFiring fault env rule) := by
  have hopened : RowsKept s (s.opened env rule) :=
    (RowsKept.of_instances rfl rfl).append _ (refreshWindows_instances _)
      (refreshWindows_world _)
  rcases s.openFiring_cases fault env rule with ⟨w, _, heq⟩ | ⟨_, _, heq⟩ | ⟨_, _, heq⟩
  · rw [heq]
    exact hopened.trans (rowsKept_updateInstances (fun i => sameInstance_stamped i _)
      fun _ => .inl rfl)
  · rwa [heq]
  · rw [heq]
    exact hopened.trans (rowsKept_page _ _ _ _)

theorem rowsKept_touchInstance (id : UUID) : RowsKept s (s.touchInstance id) :=
  rowsKept_updateInstances (fun i => sameInstance_touched i _) fun _ => .inr rfl

theorem rowsKept_resolveInstance (id : UUID) : RowsKept s (s.resolveInstance id) :=
  rowsKept_updateInstances (fun i => sameInstance_resolved i _) fun _ => .inr rfl

theorem rowsKept_resolveOrHold (fault : Fault) (env : Option String) (active : AlertInstance)
    (rule : AlertRule) : RowsKept s (s.resolveOrHold fault env active rule) := by
  rcases s.resolveOrHold_cases fault env active rule with
    ⟨_, _, heq⟩ | ⟨_, _, heq⟩ | ⟨_, heq⟩
  · rw [heq]
    exact rowsKept_touchInstance active.id
  · rw [heq]
    exact (rowsKept_resolveInstance active.id).trans
      (.of_instances (enqueueJobs_world _ _ _ _ _) (enqueueJobs_instances _ _ _ _ _))
  · rw [heq]
    exact rowsKept_resolveInstance active.id

theorem rowsKept_evaluate (fault : Fault) (tel : Telemetry) (env : Option String)
    (rule : AlertRule) : RowsKept s (s.evaluate fault tel env rule) := by
  unfold evaluate
  split
  · exact .of_instances rfl rfl
  · next v _ =>
    obtain ⟨readings, heq⟩ := s.recordReading_eq rule.id v.reading
    rw [heq]
    refine RowsKept.trans (t := { s with readings := readings }) (.of_instances rfl rfl) ?_
    rcases drive_cases { s with readings := readings } fault env rule v with
      heq | ⟨_, _, heq⟩ | ⟨active, _, ⟨_, heq⟩ | ⟨_, heq⟩ | ⟨_, heq⟩⟩
    · rw [heq]
      exact .of_instances rfl rfl
    · rw [heq]
      exact rowsKept_openFiring fault env rule
    · rw [heq]
      exact rowsKept_touchInstance active.id
    · rw [heq]
      exact rowsKept_updateInstances (fun i => sameInstance_refreshed i _ env) fun _ => .inr rfl
    · rw [heq]
      exact rowsKept_resolveOrHold fault env active rule

theorem rowsKept_retireLegacy (ruleID : UUID) : RowsKept s (s.retireLegacyInstance ruleID) := by
  rcases s.retireLegacyInstance_cases ruleID with heq | ⟨active, _, heq⟩
  · rw [heq]
    exact .of_instances rfl rfl
  · rw [heq]
    exact rowsKept_resolveInstance active.id

theorem rowsKept_evaluateEach (faults : Option String → Fault) (tel : Telemetry) (rule : AlertRule)
    (envs : List String) : RowsKept s (s.evaluateEach faults tel rule envs) := by
  unfold evaluateEach
  induction envs generalizing s with
  | nil => exact .of_instances rfl rfl
  | cons env envs ih => exact (rowsKept_evaluate _ _ _ _).trans ih

theorem State.Looked.kept (h : s.Looked id) (hkept : RowsKept s t) : t.Looked id := by
  obtain ⟨i, hi, hid, hlooked⟩ := h
  obtain ⟨i', hi', hsame, hlast⟩ := hkept.rows i hi
  refine ⟨i', hi', hsame.id.trans hid, ?_⟩
  rw [hkept.world]
  rcases hlooked with hresolved | hnow
  · left
    cases hstate : i'.state with
    | resolved => rfl
    | firing => simp [hsame.firing hstate] at hresolved
  · right
    rcases hlast with hold | hnow'
    · exact hold.trans hnow
    · exact hnow'

/-! ## What an evaluation looks at -/

variable {active : AlertInstance}

theorem State.looked_touchInstance (hi : active ∈ s.instances) :
    (s.touchInstance active.id).Looked active.id :=
  ⟨_, mem_updateWhere_of hi (by simp), rfl, .inr rfl⟩

theorem State.looked_resolveInstance (hi : active ∈ s.instances) :
    (s.resolveInstance active.id).Looked active.id :=
  ⟨_, mem_updateWhere_of hi (by simp), rfl, .inl rfl⟩

theorem State.looked_resolveOrHold (hi : active ∈ s.instances) (fault : Fault) (env : Option String)
    (rule : AlertRule) : (s.resolveOrHold fault env active rule).Looked active.id := by
  rcases s.resolveOrHold_cases fault env active rule with
    ⟨_, _, heq⟩ | ⟨_, _, heq⟩ | ⟨_, heq⟩
  · rw [heq]
    exact looked_touchInstance hi
  · rw [heq]
    exact (looked_resolveInstance hi).kept
      (.of_instances (enqueueJobs_world _ _ _ _ _) (enqueueJobs_instances _ _ _ _ _))
  · rw [heq]
    exact looked_resolveInstance hi

theorem State.looked_evaluate {fault : Fault}
    (hverdict : (verdict tel env (s.readings rule.id) rule).isSome)
    (hactive : s.activeInstance rule.id (fingerprintFor env) = some active) :
    (s.evaluate fault tel env rule).Looked active.id := by
  have hi := (mem_of_activeInstance hactive).1
  obtain ⟨v, hv⟩ := Option.isSome_iff_exists.1 hverdict
  unfold evaluate
  rw [hv]
  dsimp only
  obtain ⟨readings, heq⟩ := s.recordReading_eq rule.id v.reading
  rw [heq]
  have hactive' : activeInstance { s with readings := readings } rule.id
      (fingerprintFor env) = some active := hactive
  unfold drive
  rw [hactive']
  cases v.breached with
  | false =>
    exact looked_resolveOrHold (s := { s with readings := readings }) hi fault env rule
  | true =>
    cases v.confirm with
    | touch => exact looked_touchInstance (s := { s with readings := readings }) hi
    | refresh => exact ⟨_, mem_updateWhere_of hi (by simp), rfl, .inr rfl⟩

/-- At most one instance is firing for a rule and a fingerprint. -/
def State.OneFiring (s : State) : Prop :=
  ∀ i ∈ s.instances, ∀ j ∈ s.instances, i.state = .firing → j.state = .firing →
    i.alertRuleID = j.alertRuleID → i.fingerprint = j.fingerprint → i.id = j.id

theorem State.OneFiring.activeInstance (h : s.OneFiring) (hi : i ∈ s.instances)
    (hfiring : i.state = .firing) :
    ∃ active, s.activeInstance i.alertRuleID i.fingerprint = some active ∧ active.id = i.id := by
  cases hactive : s.activeInstance i.alertRuleID i.fingerprint with
  | none => exact absurd hfiring (activeInstance_eq_none hactive hi rfl rfl)
  | some active =>
    obtain ⟨hmem, hrule, hfp, hstate⟩ := mem_of_activeInstance hactive
    exact ⟨active, rfl, h active hmem i hi hstate hfiring hrule hfp⟩

theorem State.OneFiring.opensNone (h : s.OneFiring) (hnone : OpensNone s t) : t.OneFiring := by
  intro i hi j hj hfi hfj hrule hfp
  obtain ⟨i₀, hi₀, hfi₀, hid, hr, hf⟩ := hnone i hi hfi
  obtain ⟨j₀, hj₀, hfj₀, hid', hr', hf'⟩ := hnone j hj hfj
  rw [hid, hid']
  refine h i₀ hi₀ j₀ hj₀ hfi₀ hfj₀ ?_ ?_
  · rw [← hr, ← hr', hrule]
  · rw [← hf, ← hf', hfp]

theorem State.OneFiring.opensAtMost (h : s.OneFiring)
    (hopens : OpensAtMost s t ruleID fingerprint) : t.OneFiring := by
  intro i hi j hj hfi hfj hrule hfp
  rcases hopens i hi hfi with ⟨i₀, hi₀, hfi₀, hid, hr, hf⟩ | ⟨hid, hr, hf, hnone⟩
  · rcases hopens j hj hfj with ⟨j₀, hj₀, hfj₀, hid', hr', hf'⟩ | ⟨hid', hr', hf', hnone⟩
    · rw [hid, hid']
      refine h i₀ hi₀ j₀ hj₀ hfi₀ hfj₀ ?_ ?_
      · rw [← hr, ← hr', hrule]
      · rw [← hf, ← hf', hfp]
    · refine absurd hfi₀ (activeInstance_eq_none hnone hi₀ ?_ ?_)
      · rw [← hr, hrule, hr']
      · rw [← hf, hfp, hf']
  · rcases hopens j hj hfj with ⟨j₀, hj₀, hfj₀, hid', hr', hf'⟩ | ⟨hid', hr', hf', _⟩
    · refine absurd hfj₀ (activeInstance_eq_none hnone hj₀ ?_ ?_)
      · rw [← hr', ← hrule, hr]
      · rw [← hf', ← hfp, hf]
    · rw [hid, hid']

theorem RowsKept.firing_or_looked (h : RowsKept s t) (hi : i ∈ s.instances) :
    (∃ i' ∈ t.instances, SameInstance i i' ∧ i'.state = .firing) ∨ t.Looked i.id := by
  obtain ⟨i', hi', hsame, _⟩ := h.rows i hi
  cases hstate : i'.state with
  | firing => exact .inl ⟨i', hi', hsame, hstate⟩
  | resolved => exact .inr ⟨i', hi', hsame.id, .inl hstate⟩

theorem State.looked_evaluateEach (h : s.OneFiring) {faults : Option String → Fault}
    {envs : List String} {env : String}
    (hverdict : ∀ env latest, (verdict tel env latest rule).isSome) (hi : i ∈ s.instances)
    (hfiring : i.state = .firing) (hrule : i.alertRuleID = rule.id)
    (hfp : i.fingerprint = fingerprintFor (some env)) (henv : env ∈ envs) :
    (s.evaluateEach faults tel rule envs).Looked i.id := by
  unfold evaluateEach
  induction envs generalizing s i with
  | nil => cases henv
  | cons e es ih =>
    have hkept := rowsKept_evaluate (s := s) (faults (some e)) tel (some e) rule
    have hrest := rowsKept_evaluateEach (s := s.evaluate (faults (some e)) tel (some e) rule)
      faults tel rule es
    by_cases he : env = e
    · subst he
      obtain ⟨active, hactive, hid⟩ := h.activeInstance hi hfiring
      rw [hrule, hfp] at hactive
      rw [← hid]
      exact (looked_evaluate (hverdict _ _) hactive).kept hrest
    rcases hkept.firing_or_looked hi with ⟨i', hi', hsame, hfiring'⟩ | hlooked
    · rw [← hsame.id]
      refine ih (h.opensAtMost (opensAtMost_evaluate _ _ _ _)) hi' hfiring' ?_ ?_ ?_
      · rw [hsame.alertRuleID, hrule]
      · rw [hsame.fingerprint, hfp]
      · exact (List.mem_cons.1 henv).resolve_left he
    · exact hlooked.kept hrest

end Rows

/-! ## Turns and edits -/

/-- A part of a turn.  Nor is it an action that trace completion gives an instance the
fingerprint of a check: its own begin with a trace id. -/
def Action.insideTurn : Action → Bool
  | .evaluate .. | .retireLegacy _ => true
  | .fireDelayed _ _ fingerprint =>
    fingerprint = fingerprintFor none || (fingerprintEnvironment fingerprint).isSome
  | _ => false

/-- A rule is evaluated over its environments in one turn, as the loops do. -/
inductive TendAction where
  | evaluateListed (faults : Option String → Fault) (tel : Telemetry) (ruleID : UUID)
  | act (a : Action)

def State.tend (s : State) : TendAction → State
  | .evaluateListed faults tel ruleID =>
    match s.world.rule? ruleID with
    | some rule => if rule.enabled then s.evaluateListed faults tel rule else s
    | none => s
  | .act a => if a.insideTurn then s else s.step a

/-- The rule's turns look at the fingerprint, whenever its environments resolve.  The
sweep of trace completion lists every firing instance of an enabled rule and looks for the
trace it names, and a manual check waits for an operator. -/
def World.Tends (w : World) (rule : AlertRule) (fingerprint : String) : Prop :=
  rule.resolveMode = .manual ∨
  (rule.enabled ∧
    if rule.spec = .traceCompletion then ∀ env, fingerprint ≠ fingerprintFor env
    else fingerprint = fingerprintFor none ∨
      (rule.isPushed = false ∧ rule.integrationID.isSome ∧
        w.environments.isSome ∧ ∃ env, fingerprint = fingerprintFor (some env)))

/-- An edit leaves no firing instance of its rule with a fingerprint that the turns of the
rule, as its loops then read it, do not look at; the stages of a trace-completion rule are
overwritten by trace completion only. -/
def KeepsTended (s : State) : TendAction → Prop
  | .act (.updateRule rule) => ∀ i ∈ s.instances, i.state = .firing →
      ∀ row, s.world.rule? i.alertRuleID = some row → rule.edits row →
        s.world.Tends (rule.writtenTo row) i.fingerprint ∧
        (rule.resolveMode = .auto → row.spec = .traceCompletion → rule.spec = .traceCompletion)
  | _ => True

/-- Every evaluation of a turn reaches a verdict. -/
def State.Answered (s : State) (tel : Telemetry) (rule : AlertRule) : Prop :=
  ∀ env latest, (rule.isPushed → latest = s.readings rule.id) →
    (verdict tel env latest rule).isSome

/-- The instance waits for an operator, or for the next successful turn of its rule. -/
def State.Expected (s : State) (i : AlertInstance) : Prop :=
  ∃ rule, s.world.rule? i.alertRuleID = some rule ∧
    (rule.resolveMode = .manual ∨
      (rule.enabled ∧
        ((rule.spec = .traceCompletion ∧ ∀ env, i.fingerprint ≠ fingerprintFor env) ∨
        ∀ fingerprints, s.visitedFingerprints rule = some fingerprints →
          i.fingerprint ∈ fingerprints ∧ ∀ faults tel, s.Answered tel rule →
            (s.evaluateListed faults tel rule).Looked i.id)))

/-- No firing instance is orphaned, and there is one for a rule and a fingerprint. -/
def State.NoOrphans (s : State) : Prop :=
  (∀ i ∈ s.instances, i.state = .firing → s.Expected i) ∧
  ∀ i ∈ s.instances, ∀ j ∈ s.instances, i.state = .firing → j.state = .firing →
    i.alertRuleID = j.alertRuleID → i.fingerprint = j.fingerprint → i = j

structure State.Tended (s : State) : Prop where
  sound : s.Sound
  oneFiring : s.OneFiring
  tends : ∀ i ∈ s.instances, i.state = .firing →
    ∃ rule, s.world.rule? i.alertRuleID = some rule ∧ s.world.Tends rule i.fingerprint

section Tended

variable {s t : State}

theorem State.Tended.opensNone (h : s.Tended) (hsound : t.Sound) (hworld : t.world = s.world)
    (hnone : OpensNone s t) : t.Tended where
  sound := hsound
  oneFiring := h.oneFiring.opensNone hnone
  tends := by
    intro i' hi' hfiring
    obtain ⟨i, hi, hf, _, hrule, hfp⟩ := hnone i' hi' hfiring
    rw [hrule, hfp, hworld]
    exact h.tends i hi hf

variable {tel : Telemetry} {fingerprints : List String} {fingerprint : String}

theorem State.Tended.opensAtMost (h : s.Tended) (hsound : t.Sound) (hworld : t.world = s.world)
    {rule : AlertRule} (hopens : OpensAtMost s t rule.id fingerprint)
    (hrule : s.world.rule? rule.id = some rule) (htends : s.world.Tends rule fingerprint) :
    t.Tended where
  sound := hsound
  oneFiring := h.oneFiring.opensAtMost hopens
  tends := by
    intro i' hi' hfiring
    rw [hworld]
    rcases hopens i' hi' hfiring with ⟨i, hi, hf, _, hr, hfp⟩ | ⟨_, hr, hfp, _⟩
    · rw [hr, hfp]
      exact h.tends i hi hf
    · rw [hr, hfp]
      exact ⟨rule, hrule, htends⟩

theorem State.Tended.withWorld (h : s.Tended) (hsound : t.Sound) (hinst : t.instances = s.instances)
    (hrules : ∀ i ∈ s.instances, i.state = .firing → ∀ rule,
      s.world.rule? i.alertRuleID = some rule → s.world.Tends rule i.fingerprint →
      ∃ rule', t.world.rule? i.alertRuleID = some rule' ∧
        t.world.Tends rule' i.fingerprint) : t.Tended where
  sound := hsound
  oneFiring := h.oneFiring.opensNone (.of_instances hinst)
  tends := by
    rw [hinst]
    intro i hi hfiring
    obtain ⟨rule, hrule, htends⟩ := h.tends i hi hfiring
    exact hrules i hi hfiring rule hrule htends

variable {rule : AlertRule} {i : AlertInstance}

theorem State.Tended.evaluate (h : s.Tended) (fault : Fault) (tel : Telemetry) {env : Option String}
    (hrule : s.world.rule? rule.id = some rule) (htends : s.world.Tends rule (fingerprintFor env)) :
    (s.evaluate fault tel env rule).Tended :=
  h.opensAtMost (h.sound.evaluate fault tel env hrule) (s.evaluate_world fault tel env rule)
    (opensAtMost_evaluate fault tel env rule) hrule htends

theorem State.Tended.evaluateEach (h : s.Tended) (faults : Option String → Fault)
    (tel : Telemetry) (hrule : s.world.rule? rule.id = some rule)
    (htends : ∀ env, s.world.Tends rule (fingerprintFor (some env))) (envs : List String) :
    (s.evaluateEach faults tel rule envs).Tended := by
  unfold State.evaluateEach
  induction envs generalizing s with
  | nil => exact h
  | cons env envs ih =>
    have hworld := s.evaluate_world (faults (some env)) tel (some env) rule
    refine ih (h.evaluate _ tel hrule (htends env)) ?_ ?_
    · rw [hworld]
      exact hrule
    · rw [hworld]
      exact htends

theorem State.retireLegacy_world (s : State) (ruleID : UUID) :
    (s.retireLegacyInstance ruleID).world = s.world :=
  (rowsKept_retireLegacy ruleID).world

theorem State.Tended.evaluateListed (h : s.Tended) (faults : Option String → Fault)
    (tel : Telemetry) (hrule : s.world.rule? rule.id = some rule) (henabled : rule.enabled) :
    (s.evaluateListed faults tel rule).Tended := by
  unfold State.evaluateListed
  split
  · exact h
  next hspec =>
  have hall : s.world.Tends rule (fingerprintFor none) :=
    .inr ⟨henabled, by rw [if_neg hspec]; exact .inl rfl⟩
  split
  · exact h.evaluate _ tel hrule hall
  · next hpushed =>
    unfold perEnvironment
    split
    · next integrationID lister hinteg hlister =>
      split
      · exact h
      · exact h.evaluate _ tel hrule hall
      · next envs _ =>
        have hretired : (s.retireLegacyInstance rule.id).Tended :=
          h.opensNone (h.sound.step (.retireLegacy rule.id)) (s.retireLegacy_world rule.id)
            (opensNone_retireLegacy rule.id)
        refine hretired.evaluateEach faults tel ?_ (fun env => ?_) envs
        · rw [s.retireLegacy_world]
          exact hrule
        · rw [s.retireLegacy_world]
          refine .inr ⟨henabled, ?_⟩
          rw [if_neg hspec]
          refine .inr ⟨?_, ?_, ?_, env, rfl⟩
          · simpa using hpushed
          · simp [hinteg]
          · simp [hlister]
    · exact h.evaluate _ tel hrule hall

theorem World.Tends.congr {w w' : World} (h : w.Tends rule fingerprint)
    (henv : w'.environments.isSome = w.environments.isSome) : w'.Tends rule fingerprint := by
  unfold World.Tends at h ⊢
  rwa [henv]

theorem State.Tended.sameRules (h : s.Tended) (hsound : t.Sound)
    (hinst : t.instances = s.instances) (hrules : t.world.rules = s.world.rules)
    (henv : t.world.environments.isSome = s.world.environments.isSome) : t.Tended := by
  refine h.withWorld hsound hinst fun i _ _ rule hrule htends => ⟨rule, ?_, htends.congr henv⟩
  unfold World.rule?
  rw [hrules]
  exact hrule

theorem State.Tended.fireDelayed (h : s.Tended) (fault : Fault) (integrationID : UUID)
    (fingerprint : String) (hrule : s.world.rule? rule.id = some rule) (henabled : rule.enabled)
    (hspec : rule.spec = .traceCompletion) (htrace : ∀ env, fingerprint ≠ fingerprintFor env) :
    (s.fireDelayed fault rule integrationID fingerprint).Tended := by
  have htends : s.world.Tends rule fingerprint := .inr ⟨henabled, by rwa [if_pos hspec]⟩
  have hsound : (s.fireDelayed fault rule integrationID fingerprint).Sound :=
    h.sound.fireDelayed hrule hspec
  have hworld := s.fireDelayed_world fault rule integrationID fingerprint
  rcases s.fireDelayed_cases fault rule integrationID fingerprint with
    ⟨active, _, heq⟩ | ⟨w, hnone, _, heq⟩ | ⟨hnone, _, heq⟩
  · rw [heq] at hsound hworld ⊢
    exact h.opensNone hsound hworld (opensNone_updateInstances fun i => sameInstance_touched i _)
  · have hopened : OpensAtMost s (s.openInstance rule.id fingerprint none).2 rule.id
        fingerprint := opensAtMost_openInstance hnone
    rw [heq] at hsound hworld ⊢
    exact h.opensAtMost hsound hworld
      (hopened.trans_none (opensNone_updateInstances fun i => sameInstance_stamped i _))
      hrule htends
  · have hopened : OpensAtMost s (s.openInstance rule.id fingerprint none).2 rule.id
        fingerprint := opensAtMost_openInstance hnone
    rw [heq] at hsound hworld ⊢
    exact h.opensAtMost hsound hworld
      (hopened.trans_none (.of_instances (enqueueJobs_instances _ _ _ _ _)))
      hrule htends

/-- **Step lemma.** -/
theorem State.Tended.tend (h : s.Tended) {a : TendAction} (ha : KeepsTended s a) :
    (s.tend a).Tended := by
  cases a with
  | evaluateListed faults tel ruleID =>
    unfold State.tend
    dsimp only
    split
    · next rule hrule =>
      split
      · next henabled =>
        refine h.evaluateListed faults tel ?_ henabled
        rwa [(World.mem_of_rule? hrule).2]
      · exact h
    · exact h
  | act a =>
    by_cases hinside : a.insideTurn = true
    · have htend : s.tend (.act a) = s := if_pos hinside
      rwa [htend]
    have htend : s.tend (.act a) = s.step a := if_neg hinside
    have hsound := h.sound.step a
    rw [htend]
    cases a with
    | evaluate | retireLegacy => exact absurd rfl hinside
    | renotify faults insts =>
      rcases s.step_renotify_cases faults insts with heq | ⟨_, heq⟩
      · rwa [heq]
      · rw [heq] at hsound ⊢
        exact h.opensNone hsound (s.renotifyOnce_world faults insts)
          (opensNone_tick (tickFrame_renotifyOnce s faults insts))
    | fireDelayed fault ruleID fingerprint =>
      rcases s.step_fireDelayed_cases fault ruleID fingerprint with
        heq | ⟨rule, integrationID, hrule, henabled, hspec, _, heq⟩
      · rwa [heq]
      · rw [heq]
        refine h.fireDelayed fault integrationID fingerprint ?_ henabled hspec fun env heq => ?_
        · rwa [(World.mem_of_rule? hrule).2]
        · subst heq
          cases env <;> simp [Action.insideTurn] at hinside
    | resolveStageFiring ruleID fingerprint =>
      have heq : s.step (.resolveStageFiring ruleID fingerprint) =
          s.resolveStageFiring ruleID fingerprint := rfl
      rw [heq] at hsound ⊢
      rcases s.resolveStageFiring_cases ruleID fingerprint with heq | ⟨active, _, heq⟩
      · rwa [heq]
      · rw [heq] at hsound ⊢
        exact h.opensNone hsound rfl
          (opensNone_updateInstances fun i => sameInstance_resolved i _)
    | acknowledge instanceID =>
      exact h.opensNone hsound rfl
        (opensNone_updateInstances fun i => sameInstance_acknowledged i _)
    | resolveManual instanceID =>
      exact h.opensNone hsound rfl
        (opensNone_updateInstances fun i => sameInstance_closed i _)
    | clearErrors service =>
      exact h.opensNone hsound rfl
        (opensNone_updateInstances fun i => sameInstance_closed i _)
    | advance | setWindows | setResolver => exact h.sameRules hsound rfl rfl rfl
    | pushReading ruleID value => exact h.sameRules hsound rfl rfl rfl
    | setEnvironments environments =>
      refine h.sameRules hsound rfl rfl ?_
      simp [State.step, State.withWorld]
    | createRule rule =>
      refine h.withWorld hsound rfl fun i _ _ r hr htends =>
        ⟨r, rule?_createRule hr rule, htends.congr ?_⟩
      unfold State.step State.withWorld
      dsimp only
      split <;> rfl
    | updateRule rule =>
      refine h.withWorld hsound rfl fun i hi hfiring r hr htends => ?_
      obtain ⟨r', hr', _, rfl | ⟨hedits, rfl⟩⟩ := World.rule?_updateRule hr rule
      · exact ⟨r', hr', htends⟩
      · exact ⟨_, hr', (ha i hi hfiring r hr hedits).1⟩

/-! ## What a turn visits -/

theorem State.mem_environmentsFor_of_firing (hi : i ∈ s.instances) (hfiring : i.state = .firing)
    (hrule : i.alertRuleID = rule.id) {env : String}
    (hfp : i.fingerprint = fingerprintFor (some env)) {lister : UUID → Option (List String)}
    {integrationID : UUID} {envs : List String} {perEnv : Bool}
    (h : s.environmentsFor lister integrationID rule = some (envs, perEnv)) :
    perEnv ∧ env ∈ envs := by
  have hopen := mem_firingEnvironments hi hfiring hfp
  rw [hrule] at hopen
  exact mem_environmentsFor h hopen

theorem State.mem_visitedFingerprints (hi : i ∈ s.instances) (hfiring : i.state = .firing)
    (hrule : i.alertRuleID = rule.id) (hspec : rule.spec ≠ .traceCompletion)
    (hfp : i.fingerprint = fingerprintFor none ∨
      (rule.isPushed = false ∧ rule.integrationID.isSome ∧
        s.world.environments.isSome ∧ ∃ env, i.fingerprint = fingerprintFor (some env)))
    (h : s.visitedFingerprints rule = some fingerprints) : i.fingerprint ∈ fingerprints := by
  unfold visitedFingerprints at h
  rw [if_neg hspec] at h
  rcases hfp with hall | ⟨hpushed, hinteg, hlister, env, henv⟩
  · rw [hall]
    split at h
    · obtain rfl := Option.some.inj h
      simp
    split at h
    · obtain ⟨⟨envs, perEnv⟩, _, rfl⟩ := Option.map_eq_some_iff.1 h
      cases perEnv <;> simp
    · obtain rfl := Option.some.inj h
      simp
  · obtain ⟨integrationID, hinteg⟩ := Option.isSome_iff_exists.1 hinteg
    obtain ⟨lister, hlister⟩ := Option.isSome_iff_exists.1 hlister
    rw [if_neg (by simp [hpushed]), hinteg, hlister] at h
    obtain ⟨⟨envs, perEnv⟩, hfor, rfl⟩ := Option.map_eq_some_iff.1 h
    obtain ⟨rfl, hmem⟩ := mem_environmentsFor_of_firing hi hfiring hrule henv hfor
    rw [henv]
    exact List.mem_cons_of_mem _ (List.mem_map_of_mem hmem)

theorem State.looked_evaluate_all (h : s.OneFiring) (hi : i ∈ s.instances)
    (hfiring : i.state = .firing) (hrule : i.alertRuleID = rule.id)
    (hfp : i.fingerprint = fingerprintFor none) (fault : Fault) (hverdict : s.Answered tel rule) :
    (s.evaluate fault tel none rule).Looked i.id := by
  obtain ⟨active, hactive, hid⟩ := h.activeInstance hi hfiring
  rw [hrule, hfp] at hactive
  rw [← hid]
  exact looked_evaluate (hverdict none _ fun _ => rfl) hactive

theorem State.looked_retireLegacy (h : s.OneFiring) (hi : i ∈ s.instances)
    (hfiring : i.state = .firing) {ruleID : UUID} (hrule : i.alertRuleID = ruleID)
    (hfp : i.fingerprint = fingerprintFor none) : (s.retireLegacyInstance ruleID).Looked i.id := by
  obtain ⟨active, hactive, hid⟩ := h.activeInstance hi hfiring
  rw [hrule, hfp] at hactive
  unfold retireLegacyInstance
  rw [hactive, ← hid]
  exact looked_resolveInstance (mem_of_activeInstance hactive).1

theorem State.looked_evaluateListed (h : s.OneFiring) (hi : i ∈ s.instances)
    (hfiring : i.state = .firing) (hrule : i.alertRuleID = rule.id)
    (hspec : rule.spec ≠ .traceCompletion) (hfp : i.fingerprint = fingerprintFor none ∨
      (rule.isPushed = false ∧ rule.integrationID.isSome ∧
        s.world.environments.isSome ∧ ∃ env, i.fingerprint = fingerprintFor (some env)))
    (hvisited : s.visitedFingerprints rule = some fingerprints) (faults : Option String → Fault)
    (hverdict : s.Answered tel rule) : (s.evaluateListed faults tel rule).Looked i.id := by
  have hwhole : i.fingerprint = fingerprintFor none →
      (s.evaluate (faults none) tel none rule).Looked i.id :=
    fun hall => looked_evaluate_all h hi hfiring hrule hall _ hverdict
  unfold evaluateListed
  rw [if_neg hspec]
  by_cases hpushed : rule.isPushed = true
  · rw [if_pos hpushed]
    rcases hfp with hall | ⟨hnot, _⟩
    · exact hwhole hall
    · simp [hpushed] at hnot
  unfold visitedFingerprints at hvisited
  rw [if_neg hspec, if_neg hpushed] at hvisited
  rw [if_neg hpushed]
  unfold perEnvironment
  split
  · next integrationID lister hinteg hlister =>
    rw [hinteg, hlister] at hvisited
    cases hfor : s.environmentsFor lister integrationID rule with
    | none => simp [hfor] at hvisited
    | some found =>
      obtain ⟨envs, perEnv⟩ := found
      cases perEnv with
      | false =>
        rcases hfp with hall | ⟨_, _, _, env, henv⟩
        · exact hwhole hall
        · have hper := mem_environmentsFor_of_firing hi hfiring hrule henv hfor
          exact absurd hper.1 Bool.false_ne_true
      | true =>
        have hkept := rowsKept_retireLegacy (s := s) rule.id
        have hrest := rowsKept_evaluateEach (s := s.retireLegacyInstance rule.id)
          faults tel rule envs
        rcases hfp with hall | ⟨_, _, _, env, henv⟩
        · exact (looked_retireLegacy h hi hfiring hrule hall).kept hrest
        have hmem := mem_environmentsFor_of_firing hi hfiring hrule henv hfor
        rcases hkept.firing_or_looked hi with ⟨i', hi', hsame, hfiring'⟩ | hlooked
        · rw [← hsame.id]
          refine looked_evaluateEach
            (h.opensNone (opensNone_retireLegacy rule.id))
            (fun env latest => hverdict env latest fun hp => absurd hp hpushed)
            hi' hfiring' ?_ ?_ hmem.2
          · rw [hsame.alertRuleID, hrule]
          · rw [hsame.fingerprint, henv]
        · exact hlooked.kept hrest
  · next hnone =>
    rcases hfp with hall | ⟨_, hinteg, hlister, _⟩
    · exact hwhole hall
    · obtain ⟨integrationID, hinteg⟩ := Option.isSome_iff_exists.1 hinteg
      obtain ⟨lister, hlister⟩ := Option.isSome_iff_exists.1 hlister
      exact absurd hlister (hnone integrationID lister hinteg)

theorem State.Tended.noOrphans (h : s.Tended) : s.NoOrphans := by
  constructor
  · intro i hi hfiring
    obtain ⟨rule, hrule, htends⟩ := h.tends i hi hfiring
    have hid : i.alertRuleID = rule.id := (World.mem_of_rule? hrule).2.symm
    refine ⟨rule, hrule, ?_⟩
    rcases htends with hmanual | ⟨henabled, hfp⟩
    · exact .inl hmanual
    refine .inr ⟨henabled, ?_⟩
    by_cases hspec : rule.spec = .traceCompletion
    · rw [if_pos hspec] at hfp
      exact .inl ⟨hspec, hfp⟩
    rw [if_neg hspec] at hfp
    refine .inr fun fingerprints hvisited => ⟨?_, fun faults tel hverdict => ?_⟩
    · exact mem_visitedFingerprints hi hfiring hid hspec hfp hvisited
    · exact looked_evaluateListed h.oneFiring hi hfiring hid hspec hfp hvisited
        faults hverdict
  · intro i hi j hj hfi hfj hrule hfp
    exact eq_of_key_eq h.sound.keyed.ids hi hj (h.oneFiring i hi j hj hfi hfj hrule hfp)

end Tended

/-- **No instance is orphaned.**  In every run of turns and of everything else that
happens to rules and instances, as long as no edit takes a rule away from the
fingerprint of one of its firing instances. -/
theorem noOrphans_of_keepsTended (w : World) (as : List TendAction)
    (hrun : StepsMeet State.tend KeepsTended { world := w } as) :
    (run State.tend { world := w } as).NoOrphans := by
  have hinit : State.Tended { world := w } :=
    ⟨sound_init w, by simp [State.OneFiring], by simp⟩
  have hend : (run State.tend { world := w } as).Tended :=
    hrun.invariant (fun _ _ h ha => h.tend ha) hinit
  exact hend.noOrphans

/-! A metric check of integration 7, which sends from `prod`. -/

private def depthRule : AlertRule :=
  { id := 1, integrationID := some 7, spec := .metric ⟨.gt, 0, false, ""⟩ }

private def depthWorld : World :=
  { now := 1000, rules := [depthRule], windows := [], resolver := none
    environments := some fun _ => some ["prod"], isProduction := fun _ => false }

/-- The check is restricted to another environment while `prod` is firing, and a log spec
is written over it. -/
private def restrictedRun : List TendAction :=
  [.evaluateListed (fun _ => none) (.metricOnly 1) 1,
    .act (.setEnvironments fun _ => some []),
    .act (.updateRule { depthRule with
      environmentMode := .only, environments := ["dev"], spec := .log ⟨3, .atLeast⟩ })]

theorem noOrphans_example : (run State.tend { world := depthWorld } restrictedRun).NoOrphans := by
  refine noOrphans_of_keepsTended depthWorld restrictedRun ⟨trivial, trivial, ?_, trivial⟩
  intro i hi hfiring row hrow _
  have hrules : (run State.tend { world := depthWorld } (restrictedRun.take 2)).world.rules =
      [depthRule] := by decide +kernel
  obtain rfl : row = depthRule := List.mem_singleton.1 (hrules ▸ (World.mem_of_rule? hrow).1)
  refine ⟨.inr ⟨rfl, .inr ⟨rfl, rfl, by decide +kernel, "prod", ?_⟩⟩, fun _ hspec => by cases hspec⟩
  clear hrow
  revert i
  decide +kernel

private def edited (rule : AlertRule) : State :=
  run State.tend { world := depthWorld } [.evaluateListed (fun _ => none) (.metricOnly 1) 1,
    .act (.updateRule rule)]

private def unboundRule : AlertRule :=
  { depthRule with integrationID := none, serviceName := "queue" }

private def disabledRule : AlertRule := { depthRule with enabled := false }

/-- A check that is moved from its integration to a service looks at the instance of its
whole scope only, and one that is switched off at none. -/
theorem edited_check_orphans :
    ¬ (edited unboundRule).NoOrphans ∧ ¬ (edited disabledRule).NoOrphans := by
  constructor
  · intro h
    have hrow : ∃ i ∈ (edited unboundRule).instances, i.state = .firing ∧
        i.fingerprint = "env:prod" ∧
        (edited unboundRule).world.rule? i.alertRuleID = some unboundRule := by
      decide +kernel
    obtain ⟨i, hi, hfiring, hfp, hrule⟩ := hrow
    obtain ⟨rule, hrule', hexpected⟩ := h.1 i hi hfiring
    obtain rfl := Option.some.inj (hrule.symm.trans hrule')
    rcases hexpected with hmanual | ⟨_, hspec | hvisited⟩
    · cases hmanual
    · cases hspec.1
    · have hmem := (hvisited ["all"] rfl).1
      rw [hfp] at hmem
      revert hmem
      decide
  · intro h
    have hrow : ∃ i ∈ (edited disabledRule).instances, i.state = .firing ∧
        (edited disabledRule).world.rule? i.alertRuleID = some disabledRule := by
      decide +kernel
    obtain ⟨i, hi, hfiring, hrule⟩ := hrow
    obtain ⟨rule, hrule', hexpected⟩ := h.1 i hi hfiring
    obtain rfl := Option.some.inj (hrule.symm.trans hrule')
    rcases hexpected with hmanual | ⟨henabled, _⟩
    · cases hmanual
    · cases henabled

end Sluicio.Alerting
