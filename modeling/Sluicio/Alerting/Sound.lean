import Sluicio.Alerting.Runs

/-!
# What holds in every run

Ids are used once, every instance has its rule, and the row of a metric check is
labelled with the environment its fingerprint names.  No action breaks this, whatever
fails, so it holds in every state a run reaches.
-/

namespace Sluicio.Alerting

open Lib

@[simp] theorem RuleSpec.signal_readAs (written : RuleSpec) (signal : Signal) :
    (written.readAs signal).signal = signal := by
  cases signal with
  | metric => cases written <;> rfl
  | log =>
    cases written with
    | metric =>
      dsimp only [RuleSpec.readAs]
      split <;> rfl
    | _ => rfl
  | trace =>
    dsimp only [RuleSpec.readAs]
    split
    · assumption
    · rfl

variable {r : AlertRule} {id : UUID}

/-- An edit leaves every rule in place, with its signal: it is as it was, or the row as written.
-/
theorem World.rule?_updateRule {w : World} (h : w.rule? id = some r) (rule : AlertRule) :
    ∃ r', (w.updateRule rule).rule? id = some r' ∧ r'.spec.signal = r.spec.signal ∧
      (r' = r ∨ rule.edits r ∧ r' = rule.writtenTo r) := by
  unfold World.rule? World.updateRule updateWhere
  rw [List.find?_map]
  have hsame : (fun r : AlertRule => decide (r.id = id)) ∘ (fun r =>
      if rule.edits r then rule.writtenTo r else r) = fun r => decide (r.id = id) := by
    funext r
    rw [Function.comp_apply]
    split
    · next hp =>
      simp only [AlertRule.edits, Bool.and_eq_true, decide_eq_true_eq] at hp
      rw [AlertRule.writtenTo, hp.1]
    · rfl
  rw [hsame, show w.rules.find? (fun r => decide (r.id = id)) = some r from h]
  refine ⟨_, rfl, ?_⟩
  dsimp only
  split
  · next hp => exact ⟨rule.spec.signal_readAs _, .inr ⟨hp, rfl⟩⟩
  · exact ⟨rfl, .inl rfl⟩

theorem World.rule?_createRule {w : World} (h : w.rule? id = some r) (rule : AlertRule) :
    ({ w with rules := w.rules ++ [rule] } : World).rule? id = some r := by
  unfold World.rule?
  rw [List.find?_append, show w.rules.find? (fun r => decide (r.id = id)) = some r from h]
  rfl

theorem State.rule?_createRule {s : State} (h : s.world.rule? id = some r) (rule : AlertRule) :
    (s.step (.createRule rule)).world.rule? id = some r := by
  unfold State.step withWorld
  dsimp only
  split
  · exact h
  · exact World.rule?_createRule h rule

/-- The invariant: ids are used once, every instance belongs to a rule that is still there, and
one of a metric rule is labelled with the environment that its fingerprint names. -/
structure State.Sound (s : State) : Prop where
  keyed : s.Keyed
  ruled : ∀ i ∈ s.instances, ∃ rule, s.world.rule? i.alertRuleID = some rule ∧
    (rule.spec.signal = .metric → i.fingerprint = fingerprintFor i.environment)

theorem State.sound_init (w : World) : State.Sound { world := w } :=
  ⟨keyed_init w, by simp⟩

section Sound

variable {s : State} {fingerprint : String} {t : State}

/-- The world may change as long as each rule stays and keeps its signal. -/
theorem State.Sound.withWorld (h : s.Sound) (hinst : t.instances = s.instances)
    (hjobs : t.jobs = s.jobs) (hnext : t.nextID = s.nextID)
    (hrules : ∀ id rule, s.world.rule? id = some rule →
      ∃ rule', t.world.rule? id = some rule' ∧ rule'.spec.signal = rule.spec.signal) :
    t.Sound where
  keyed := h.keyed.congr hinst hjobs hnext
  ruled := by
    rw [hinst]
    intro i hi
    obtain ⟨rule, hrule, hlabel⟩ := h.ruled i hi
    obtain ⟨rule', hrule', hsignal⟩ := hrules _ rule hrule
    exact ⟨rule', hrule', by rwa [hsignal]⟩

theorem State.Sound.congr (h : s.Sound) (hinst : t.instances = s.instances)
    (hjobs : t.jobs = s.jobs) (hnext : t.nextID = s.nextID)
    (hrules : t.world.rules = s.world.rules) : t.Sound := by
  refine h.withWorld hinst hjobs hnext fun id rule hrule => ⟨rule, ?_, rfl⟩
  unfold World.rule?
  rw [hrules]
  exact hrule

/-- A write to some rows that keeps what makes them the same instances. -/
theorem State.Sound.updateInstances (h : s.Sound) {p : AlertInstance → Bool}
    {f : AlertInstance → AlertInstance} (hf : ∀ i, SameInstance i (f i))
    (henv : ∀ i, (f i).environment = i.environment) :
    State.Sound { s with instances := updateWhere p f s.instances } where
  keyed := h.keyed.updateInstances fun i => (hf i).id
  ruled := by
    intro i hi
    obtain ⟨i₀, hi₀, ⟨_, rfl⟩ | ⟨_, rfl⟩⟩ := mem_updateWhere.1 hi
    · rw [(hf i₀).alertRuleID, (hf i₀).fingerprint, henv]
      exact h.ruled i₀ hi₀
    · exact h.ruled i hi₀

theorem State.Sound.enqueueJobs (h : s.Sound) (fault : Fault) (instanceID : UUID)
    (channelIDs : List UUID) (window : Duration) :
    (s.enqueueJobs fault instanceID channelIDs window).2.Sound where
  keyed := h.keyed.enqueueJobs fault instanceID channelIDs window
  ruled := by
    rw [enqueueJobs_instances, enqueueJobs_world]
    exact h.ruled

variable {env : Option String} {fault : Fault}

/-- A row opened for a rule that is there, labelled as its fingerprint says. -/
theorem State.Sound.openInstance (h : s.Sound) {rule : AlertRule}
    (hrule : s.world.rule? rule.id = some rule)
    (hlabel : rule.spec.signal = .metric → fingerprint = fingerprintFor env) :
    (s.openInstance rule.id fingerprint env).2.Sound where
  keyed := h.keyed.openInstance _ _ _
  ruled := by
    intro i hi
    rcases List.mem_append.1 hi with hold | hnew
    · exact h.ruled i hold
    · obtain rfl := List.mem_singleton.1 hnew
      exact ⟨rule, hrule, hlabel⟩

theorem State.Sound.refreshWindows (h : s.Sound) : s.refreshWindows.Sound :=
  h.congr s.refreshWindows_instances s.refreshWindows_jobs s.refreshWindows_nextID
    (by rw [s.refreshWindows_world])

theorem State.Sound.touchInstance (h : s.Sound) (instanceID : UUID) :
    (s.touchInstance instanceID).Sound :=
  h.updateInstances (fun i => sameInstance_touched i _) fun _ => rfl

theorem State.Sound.resolveInstance (h : s.Sound) (instanceID : UUID) :
    (s.resolveInstance instanceID).Sound :=
  h.updateInstances (fun i => sameInstance_resolved i _) fun _ => rfl

theorem State.Sound.markInstanceSuppressed (h : s.Sound) (instanceID windowID : UUID) :
    (s.markInstanceSuppressed instanceID windowID).Sound :=
  h.updateInstances (fun i => sameInstance_stamped i _) fun _ => rfl

theorem State.Sound.page (h : s.Sound) (fault : Fault) (env : Option String)
    (instanceID : UUID) (rule : AlertRule) : (s.page fault env instanceID rule).Sound := by
  have hjobs := h.enqueueJobs fault instanceID (s.world.channelsFor env rule) s.world.deliveryWindow
  unfold State.page
  dsimp only
  split
  · exact hjobs.updateInstances (fun i => sameInstance_notified i _) fun _ => rfl
  · exact hjobs

theorem State.Sound.recordReading (h : s.Sound) (ruleID : UUID) (value : Option Rat) :
    (s.recordReading ruleID value).Sound := by
  obtain ⟨_, heq⟩ := s.recordReading_eq ruleID value
  rw [heq]
  exact h.congr rfl rfl rfl rfl

variable {rule : AlertRule}

theorem State.Sound.openFiring (h : s.Sound) (hrule : s.world.rule? rule.id = some rule) :
    (s.openFiring fault env rule).Sound := by
  have hopened : (s.opened env rule).Sound :=
    (h.openInstance hrule fun _ => rfl).refreshWindows
  rcases s.openFiring_cases fault env rule with ⟨w, _, heq⟩ | ⟨_, _, heq⟩ | ⟨_, _, heq⟩
  · rw [heq]
    exact hopened.markInstanceSuppressed s.nextID w
  · rwa [heq]
  · rw [heq]
    exact hopened.page fault env s.nextID rule

/-- A sound row already has the label that `RefreshInstance` writes, so refreshing it is touching
it. -/
theorem State.Sound.refreshInstance_eq (h : s.Sound) {active : AlertInstance}
    (hrule : s.world.rule? rule.id = some rule) (hmetric : rule.spec.signal = .metric)
    (hactive : s.activeInstance rule.id (fingerprintFor env) = some active) :
    s.refreshInstance active.id env = s.touchInstance active.id := by
  obtain ⟨hi, hruleID, hfp, _⟩ := mem_of_activeInstance hactive
  obtain ⟨rule', hrule', hlabel⟩ := h.ruled active hi
  rw [hruleID, hrule] at hrule'
  obtain rfl : rule = rule' := Option.some.inj hrule'
  have henv : active.environment = env :=
    fingerprintFor_injective ((hlabel hmetric).symm.trans hfp)
  rw [← henv]
  exact State.refreshInstance_eq h.keyed hi

theorem State.Sound.resolveOrHold (h : s.Sound) (fault : Fault) (env : Option String)
    (active : AlertInstance) (rule : AlertRule) :
    (s.resolveOrHold fault env active rule).Sound := by
  rcases s.resolveOrHold_cases fault env active rule with
    ⟨_, _, heq⟩ | ⟨_, _, heq⟩ | ⟨_, heq⟩
  · rw [heq]
    exact h.touchInstance active.id
  · rw [heq]
    exact (h.resolveInstance active.id).enqueueJobs _ _ _ _
  · rw [heq]
    exact h.resolveInstance active.id

/-- What a verdict leads to: opening, confirming or resolving. -/
theorem State.Sound.drive (h : s.Sound) {v : Verdict} (hrule : s.world.rule? rule.id = some rule)
    (hmetric : v.confirm = .refresh → rule.spec.signal = .metric) :
    (s.drive fault env rule v).Sound := by
  rcases s.drive_cases fault env rule v with heq | ⟨_, _, heq⟩ |
    ⟨active, hactive, ⟨_, heq⟩ | ⟨hconfirm, heq⟩ | ⟨_, heq⟩⟩
  · rwa [heq]
  · rw [heq]
    exact h.openFiring hrule
  · rw [heq]
    exact h.touchInstance active.id
  · rw [heq, h.refreshInstance_eq hrule (hmetric hconfirm) hactive]
    exact h.touchInstance active.id
  · rw [heq]
    exact h.resolveOrHold fault env active rule

theorem State.Sound.evaluate (h : s.Sound) (fault : Fault) (tel : Telemetry) (env : Option String)
    (hrule : s.world.rule? rule.id = some rule) : (s.evaluate fault tel env rule).Sound := by
  unfold State.evaluate
  split
  · exact h
  · next v hv =>
    have hread := h.recordReading rule.id v.reading
    obtain ⟨_, heq⟩ := s.recordReading_eq rule.id v.reading
    rw [heq] at hread ⊢
    exact hread.drive hrule (metric_of_refresh hv)

theorem State.Sound.fireDelayed (h : s.Sound) {integrationID : UUID}
    (hrule : s.world.rule? rule.id = some rule) (hspec : rule.spec = .traceCompletion) :
    (s.fireDelayed fault rule integrationID fingerprint).Sound := by
  have hopened : (s.openInstance rule.id fingerprint none).2.Sound :=
    h.openInstance hrule fun hmetric => by simp [hspec, RuleSpec.signal] at hmetric
  rcases s.fireDelayed_cases fault rule integrationID fingerprint with
    ⟨active, _, heq⟩ | ⟨w, _, _, heq⟩ | ⟨_, _, heq⟩
  · rw [heq]
    exact h.touchInstance active.id
  · rw [heq]
    exact hopened.markInstanceSuppressed s.nextID w
  · rw [heq]
    exact hopened.enqueueJobs fault s.nextID rule.channelIDs 0

theorem State.Sound.renotifyOnce (h : s.Sound) (faults : UUID → Fault)
    (insts : List FiringUnackedInstance) : (s.renotifyOnce faults insts).Sound := by
  refine renotifyOnce_invariant h h.refreshWindows fun t op _ ht => ?_
  cases op with
  | suppress instanceID windowID => exact ht.markInstanceSuppressed instanceID windowID
  | renotify it => exact ht.page _ _ _ _

/-- **Step lemma.** -/
theorem State.Sound.step (h : s.Sound) (a : Action) : (s.step a).Sound := by
  cases a with
  | evaluate fault tel ruleID env =>
    rcases s.step_evaluate_cases fault tel ruleID env with heq | ⟨rule, hrule, _, heq⟩
    · rwa [heq]
    · rw [heq]
      exact h.evaluate fault tel env (by rwa [(World.mem_of_rule? hrule).2])
  | fireDelayed fault ruleID fingerprint =>
    rcases s.step_fireDelayed_cases fault ruleID fingerprint with
      heq | ⟨rule, integrationID, hrule, _, hspec, _, heq⟩
    · rwa [heq]
    · rw [heq]
      exact h.fireDelayed (by rwa [(World.mem_of_rule? hrule).2]) hspec
  | renotify faults insts =>
    rcases s.step_renotify_cases faults insts with heq | ⟨_, heq⟩
    · rwa [heq]
    · rw [heq]
      exact h.renotifyOnce faults insts
  | retireLegacy ruleID =>
    show (s.retireLegacyInstance ruleID).Sound
    rcases s.retireLegacyInstance_cases ruleID with heq | ⟨active, _, heq⟩
    · rwa [heq]
    · rw [heq]
      exact h.resolveInstance active.id
  | resolveStageFiring ruleID fingerprint =>
    show (s.resolveStageFiring ruleID fingerprint).Sound
    rcases s.resolveStageFiring_cases ruleID fingerprint with heq | ⟨active, _, heq⟩
    · rwa [heq]
    · rw [heq]
      exact h.resolveInstance active.id
  | acknowledge instanceID =>
    exact h.updateInstances (fun i => sameInstance_acknowledged i _) fun _ => rfl
  | resolveManual instanceID =>
    exact h.updateInstances (fun i => sameInstance_closed i _) fun _ => rfl
  | clearErrors service =>
    exact h.updateInstances (fun i => sameInstance_closed i _) fun _ => rfl
  | pushReading ruleID value => exact h.recordReading ruleID (some value)
  | updateRule rule =>
    refine h.withWorld rfl rfl rfl fun id r hr => ?_
    obtain ⟨r', hr', hsignal, _⟩ := World.rule?_updateRule hr rule
    exact ⟨r', hr', hsignal⟩
  | createRule rule =>
    exact h.withWorld rfl rfl rfl fun id r hr => ⟨r, rule?_createRule hr rule, rfl⟩
  | advance _ | setWindows _ | setResolver _ | setEnvironments _ =>
    exact h.congr rfl rfl rfl rfl

end Sound

end Sluicio.Alerting
