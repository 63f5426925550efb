import Sluicio.Alerting.Sound

/-!
# When silence fires

A metric rule may ask to fire when its metric stops reporting.  What arms it is the latest
reading of the rule, which an evaluation that measured something leaves behind.
-/

namespace Sluicio.Alerting

open Lib State

section Readings

variable (s : State)

theorem State.enqueueJobs_readings (fault : Fault) (instanceID : UUID)
    (channelIDs : List UUID) (window : Duration) :
    (s.enqueueJobs fault instanceID channelIDs window).2.readings = s.readings := by
  unfold enqueueJobs
  dsimp only
  split <;> rfl

theorem State.refreshWindows_readings : s.refreshWindows.readings = s.readings := by
  obtain ⟨_, _, h⟩ := s.refreshWindows_eq
  rw [h]

theorem State.page_readings (fault : Fault) (env : Option String) (instanceID : UUID)
    (rule : AlertRule) : (s.page fault env instanceID rule).readings = s.readings := by
  unfold State.page
  dsimp only
  split <;> exact s.enqueueJobs_readings _ _ _ _

theorem State.openFiring_readings (fault : Fault) (env : Option String) (rule : AlertRule) :
    (s.openFiring fault env rule).readings = s.readings := by
  have hopened : (s.opened env rule).readings = s.readings := refreshWindows_readings _
  rcases s.openFiring_cases fault env rule with ⟨w, _, heq⟩ | ⟨_, _, heq⟩ | ⟨_, _, heq⟩
  · rw [heq]
    exact hopened
  · rwa [heq]
  · rw [heq, page_readings]
    exact hopened

theorem State.drive_readings (fault : Fault) (env : Option String) (rule : AlertRule)
    (v : Verdict) : (s.drive fault env rule v).readings = s.readings := by
  rcases s.drive_cases fault env rule v with heq | ⟨_, _, heq⟩ |
    ⟨active, _, ⟨_, heq⟩ | ⟨_, heq⟩ | ⟨_, heq⟩⟩
  · rw [heq]
  · rw [heq]
    exact s.openFiring_readings fault env rule
  · rw [heq]
    rfl
  · rw [heq]
    rfl
  · rw [heq]
    rcases s.resolveOrHold_cases fault env active rule with
      ⟨_, _, heq'⟩ | ⟨_, _, heq'⟩ | ⟨_, heq'⟩
    · rw [heq']
      rfl
    · rw [heq']
      exact enqueueJobs_readings _ _ _ _ _
    · rw [heq']
      rfl

theorem State.fireDelayed_readings (fault : Fault) (rule : AlertRule) (integrationID : UUID)
    (fingerprint : String) :
    (s.fireDelayed fault rule integrationID fingerprint).readings = s.readings := by
  rcases s.fireDelayed_cases fault rule integrationID fingerprint with
    ⟨active, _, heq⟩ | ⟨w, _, _, heq⟩ | ⟨_, _, heq⟩
  · rw [heq]
    rfl
  · rw [heq]
    rfl
  · rw [heq]
    exact enqueueJobs_readings _ _ _ _ _

theorem State.renotifyOnce_readings (faults : UUID → Fault) (insts : List FiringUnackedInstance) :
    (s.renotifyOnce faults insts).readings = s.readings := by
  apply renotifyOnce_invariant (P := fun t => t.readings = s.readings) rfl
    s.refreshWindows_readings
  intro t op _ ht
  cases op with
  | suppress instanceID windowID => exact ht
  | renotify it => exact (t.page_readings _ _ _ _).trans ht

theorem State.evaluate_readings (fault : Fault) (tel : Telemetry) (env : Option String)
    (rule : AlertRule) :
    (s.evaluate fault tel env rule).readings =
      (s.recordReading rule.id
        ((verdict tel env (s.readings rule.id) rule).bind Verdict.reading)).readings := by
  unfold evaluate
  cases verdict tel env (s.readings rule.id) rule with
  | none => rfl
  | some v => exact drive_readings _ fault env rule v

end Readings

variable {as : List Action} {s₀ : State} {ruleID : UUID}

theorem State.isSome_recordReading {s : State} {id : UUID} {value : Option Rat} :
    ((s.recordReading ruleID value).readings id).isSome ↔
      (s.readings id).isSome ∨ (id = ruleID ∧ value.isSome) := by
  cases value with
  | none => simp [recordReading]
  | some value =>
    by_cases hid : id = ruleID
    · simp [recordReading, hid]
    · simp [recordReading, hid]

/-! ## What an evaluation measures -/

/-- How many samples an evaluation of a metric rule sees; none when its query fails. -/
def samplesSeen (tel : Telemetry) (env : Option String) (rule : AlertRule)
    (spec : MetricRuleSpec) : Option Nat :=
  if spec.splitBy = "" then (tel.metricAggregate rule env).map Prod.snd
  else (tel.metricAggregateGrouped rule env).map fun groups => (groups.map Prod.snd).sum

def AlertRule.Queries (rule : AlertRule) (spec : MetricRuleSpec) : Prop :=
  rule.spec = .metric spec ∧ rule.source ≠ .pushed

/-- The evaluations of the rule keep what they measure: it is not split, or shown on the page
of its service. -/
def AlertRule.Keeps (rule : AlertRule) (spec : MetricRuleSpec) : Prop :=
  spec.splitBy = "" ∨ rule.displayOnService

theorem isSome_worstGroup (groups : List (Rat × Nat)) :
    (worstGroup groups).isSome ↔ 0 < (groups.map Prod.snd).sum := by
  induction groups with
  | nil => simp [worstGroup]
  | cons g groups ih =>
    obtain ⟨value, samples⟩ := g
    rw [List.map_cons, List.sum_cons]
    unfold worstGroup
    cases hworst : worstGroup groups with
    | none =>
      rw [hworst] at ih
      have hrest : (groups.map Prod.snd).sum = 0 := by simpa using ih
      rw [hrest]
      by_cases hpos : samples > 0
      · simp [hpos]
      · simp [hpos]
    | some worst =>
      rw [hworst] at ih
      have hrest : 0 < (groups.map Prod.snd).sum := ih.1 rfl
      have hsome : (if samples > 0 ∧ value > worst then some value
          else some worst).isSome := by
        split <;> rfl
      constructor
      · intro _
        omega
      · intro _
        exact hsome

/-- A verdict on a metric keeps a reading when it measured something and the rule keeps it;
on silence it fires when there is a reading already. -/
structure Verdict.Measures (v : Verdict) (latest : Option Rat) (rule : AlertRule)
    (spec : MetricRuleSpec) (samples : Nat) : Prop where
  kept : v.reading.isSome ↔ 0 < samples ∧ rule.Keeps spec
  silent : samples = 0 → spec.fireOnNoData → v.breached = latest.isSome

variable {tel : Telemetry} {env : Option String} {latest : Option Rat} {rule : AlertRule}
  {spec : MetricRuleSpec} {P : State → Action → Prop} {samples : Nat}

theorem measures_evaluateRule (hplain : spec.splitBy = "") {value : Rat}
    (h : tel.metricAggregate rule env = some (value, samples)) :
    ∃ v, evaluateRule tel env latest rule spec = some v ∧ v.Measures latest rule spec samples := by
  unfold evaluateRule
  rw [h]
  refine ⟨_, rfl, ?_, ?_⟩
  · by_cases hpos : samples > 0
    · simp [hpos, AlertRule.Keeps, hplain]
    · simp [hpos]
  · intro hzero hfires
    subst hzero
    cases latest with
    | none => simp [decideMetric, MetricOutcome.firing]
    | some reading => simp [decideMetric, MetricOutcome.firing, hfires]

theorem measures_evaluateSplitRule (hsplit : spec.splitBy ≠ "") {groups : List (Rat × Nat)}
    (h : tel.metricAggregateGrouped rule env = some groups) :
    ∃ v, evaluateSplitRule tel env latest rule spec = some v ∧
      v.Measures latest rule spec (groups.map Prod.snd).sum := by
  unfold evaluateSplitRule
  rw [h]
  refine ⟨_, rfl, ?_, ?_⟩
  · cases hshown : rule.displayOnService with
    | true =>
      have hworst := isSome_worstGroup groups
      simp [hworst, AlertRule.Keeps, hshown]
    | false => simp [AlertRule.Keeps, hshown, hsplit]
  · intro hzero hfires
    have hnone : ∀ g ∈ groups, g.2 = 0 := by
      intro g hg
      exact List.sum_eq_zero_iff_forall_eq_nat.1 hzero g.2 (List.mem_map_of_mem hg)
    have hbreaching : (groups.any fun g =>
        g.2 > 0 && evaluateBreach spec.operator g.1 spec.threshold) = false := by
      rw [List.any_eq_false]
      intro g hg
      simp [hnone g hg]
    simp only [hbreaching, hzero, hfires, Bool.false_or, decide_true, Bool.true_and]

theorem measures_verdict (latest : Option Rat) (hrule : rule.Queries spec)
    (h : samplesSeen tel env rule spec = some samples) :
    ∃ v, verdict tel env latest rule = some v ∧ v.Measures latest rule spec samples := by
  unfold verdict
  simp only [hrule.1, if_neg hrule.2]
  unfold samplesSeen at h
  split
  · next hplain =>
    rw [if_pos hplain] at h
    obtain ⟨⟨value, _⟩, haggregate, rfl⟩ := Option.map_eq_some_iff.1 h
    exact measures_evaluateRule hplain haggregate
  · next hsplit =>
    rw [if_neg hsplit] at h
    obtain ⟨groups, hgroups, rfl⟩ := Option.map_eq_some_iff.1 h
    exact measures_evaluateSplitRule hsplit hgroups

theorem verdict_of_failed (hrule : rule.Queries spec) (h : samplesSeen tel env rule spec = none) :
    verdict tel env latest rule = none := by
  unfold verdict
  simp only [hrule.1, if_neg hrule.2]
  unfold samplesSeen at h
  split
  · next hplain =>
    rw [if_pos hplain] at h
    unfold evaluateRule
    rw [Option.map_eq_none_iff.1 h]
  · next hsplit =>
    rw [if_neg hsplit] at h
    unfold evaluateSplitRule
    rw [Option.map_eq_none_iff.1 h]

theorem queries_of_reading (h : ((verdict tel env latest rule).bind Verdict.reading).isSome) :
    ∃ spec, rule.Queries spec := by
  unfold verdict at h
  split at h
  · next spec hspec =>
    split at h
    · unfold evaluatePushedRule at h
      split at h <;> cases h
    · next hsource => exact ⟨spec, hspec, hsource⟩
  · unfold evaluateLogRule at h
    dsimp only at h
    split at h <;> cases h
  · unfold evaluateTraceErrorRule at h
    split at h
    · dsimp only at h
      split at h <;> cases h
    · cases h
  · unfold evaluateTraceAttributeRule at h
    split at h
    · dsimp only at h
      split at h <;> cases h
    · cases h
  · unfold evaluateTraceLatencyRule at h
    split at h
    · split at h <;> cases h
    · cases h
  · unfold evaluateTraceVolumeRule at h
    split at h
    · split at h
      · cases h
      · split at h <;> cases h
    · cases h
  · cases h

/-! ## Along a run -/

/-- The step is an evaluation of the rule that sees a sample. -/
def Saw (ruleID : UUID) (s : State) : Action → Prop
  | .evaluate _ tel id env => id = ruleID ∧
      ∃ rule spec samples, s.world.rule? id = some rule ∧ rule.enabled ∧ rule.Queries spec ∧
        samplesSeen tel env rule spec = some samples ∧ 0 < samples
  | _ => False

/-- The step is one that keeps what it measures. -/
def Kept (ruleID : UUID) (s : State) : Action → Prop
  | .evaluate _ tel id env => id = ruleID ∧
      ∃ rule spec samples, s.world.rule? id = some rule ∧ rule.enabled ∧ rule.Queries spec ∧
        samplesSeen tel env rule spec = some samples ∧ 0 < samples ∧ rule.Keeps spec
  | _ => False

def Unpushed (ruleID : UUID) (_ : State) : Action → Prop
  | .pushReading id _ => id ≠ ruleID
  | _ => True

/-- Some step of the run was such a step, in the state it was taken in. -/
def Happened (P : State → Action → Prop) (s₀ : State) (as : List Action) : Prop :=
  ∃ before a after, as = before ++ a :: after ∧ P (run State.step s₀ before) a

theorem Happened.append {bs : List Action} (h : Happened P s₀ as) : Happened P s₀ (as ++ bs) := by
  obtain ⟨before, a, after, rfl, ha⟩ := h
  exact ⟨before, a, after ++ bs, by simp, ha⟩

theorem Happened.last {a : Action} (h : P (run State.step s₀ as) a) : Happened P s₀ (as ++ [a]) :=
  ⟨as, a, [], rfl, h⟩

section Step

variable {s : State} {ruleID : UUID}

theorem State.step_readings {a : Action} (h : ∀ fault tel id env, a ≠ .evaluate fault tel id env)
    (hpush : ∀ id value, a ≠ .pushReading id value) : (s.step a).readings = s.readings := by
  cases a with
  | evaluate fault tel id env => exact absurd rfl (h fault tel id env)
  | pushReading id value => exact absurd rfl (hpush id value)
  | fireDelayed fault id fingerprint =>
    rcases s.step_fireDelayed_cases fault id fingerprint with
      heq | ⟨rule, integrationID, _, _, _, _, heq⟩
    · rw [heq]
    · rw [heq, fireDelayed_readings]
  | renotify faults insts =>
    rcases s.step_renotify_cases faults insts with heq | ⟨_, heq⟩
    · rw [heq]
    · rw [heq, renotifyOnce_readings]
  | retireLegacy id =>
    show (s.retireLegacyInstance id).readings = s.readings
    rcases s.retireLegacyInstance_cases id with heq | ⟨active, _, heq⟩
    · rw [heq]
    · rw [heq]
      rfl
  | resolveStageFiring id fingerprint =>
    show (s.resolveStageFiring id fingerprint).readings = s.readings
    rcases s.resolveStageFiring_cases id fingerprint with heq | ⟨active, _, heq⟩
    · rw [heq]
    · rw [heq]
      rfl
  | createRule rule =>
    unfold State.step withWorld
    dsimp only
  | acknowledge _ | resolveManual _ | clearErrors _ | setWindows _ | setResolver _
  | setEnvironments _ | updateRule _ | advance _ => rfl

theorem State.step_evaluate_readings {fault : Fault} {tel : Telemetry} {id : UUID}
    {env : Option String} {rule : AlertRule} (hrule : s.world.rule? id = some rule)
    (henabled : rule.enabled) :
    ((s.step (.evaluate fault tel id env)).readings ruleID).isSome ↔
      (s.readings ruleID).isSome ∨
        (ruleID = id ∧ ((verdict tel env (s.readings id) rule).bind Verdict.reading).isSome) := by
  have hstep : s.step (.evaluate fault tel id env) = s.evaluate fault tel env rule := by
    simp only [State.step, hrule]
    exact if_pos henabled
  have hid : rule.id = id := (World.mem_of_rule? hrule).2
  rw [hstep, evaluate_readings, hid, isSome_recordReading]

/-- **A step that leaves a reading** had one before or is an evaluation that sees a sample. -/
theorem saw_of_reading {a : Action} (hpush : Unpushed ruleID s a)
    (h : ((s.step a).readings ruleID).isSome) : (s.readings ruleID).isSome ∨ Saw ruleID s a := by
  cases a with
  | evaluate fault tel id env =>
    rcases s.step_evaluate_cases fault tel id env with heq | ⟨rule, hrule, henabled, _⟩
    · rw [heq] at h
      exact .inl h
    rcases (step_evaluate_readings hrule henabled).1 h with hold | ⟨hid, hreading⟩
    · exact .inl hold
    right
    obtain ⟨spec, hqueries⟩ := queries_of_reading hreading
    cases hsamples : samplesSeen tel env rule spec with
    | none =>
      rw [verdict_of_failed hqueries hsamples] at hreading
      cases hreading
    | some samples =>
      obtain ⟨v, hv, hmeasures⟩ := measures_verdict (s.readings id) hqueries hsamples
      rw [hv] at hreading
      exact ⟨hid.symm, rule, spec, samples, hrule, henabled, hqueries, hsamples,
        (hmeasures.kept.1 hreading).1⟩
  | pushReading id value =>
    left
    have hrecorded : ((s.recordReading id (some value)).readings ruleID).isSome := h
    rcases isSome_recordReading.1 hrecorded with hold | ⟨hid, _⟩
    · exact hold
    · exact absurd hid.symm hpush
  | _ =>
    left
    rw [step_readings (by intros; simp) (by intros; simp)] at h
    exact h

theorem reading_step (a : Action) (h : (s.readings ruleID).isSome) :
    ((s.step a).readings ruleID).isSome := by
  cases a with
  | evaluate fault tel id env =>
    rcases s.step_evaluate_cases fault tel id env with heq | ⟨rule, hrule, henabled, _⟩
    · rw [heq]
      exact h
    · exact (step_evaluate_readings hrule henabled).2 (.inl h)
  | pushReading id value =>
    show ((s.recordReading id (some value)).readings ruleID).isSome
    exact isSome_recordReading.2 (.inl h)
  | _ =>
    rw [step_readings (by intros; simp) (by intros; simp)]
    exact h

theorem reading_of_kept {a : Action} (h : Kept ruleID s a) :
    ((s.step a).readings ruleID).isSome := by
  cases a with
  | evaluate fault tel id env =>
    obtain ⟨rfl, rule, spec, samples, hrule, henabled, hqueries, hsamples, hpos, hkeeps⟩ := h
    obtain ⟨v, hv, hmeasures⟩ := measures_verdict (s.readings id) hqueries hsamples
    apply (step_evaluate_readings hrule henabled).2
    right
    rw [hv]
    exact ⟨rfl, hmeasures.kept.2 ⟨hpos, hkeeps⟩⟩
  | _ => cases h

end Step

theorem saw_of_run_reading (hrun : StepsMeet State.step (Unpushed ruleID) s₀ as)
    (hfresh : s₀.readings ruleID = none) (h : ((run State.step s₀ as).readings ruleID).isSome) :
    Happened (Saw ruleID) s₀ as := by
  revert h
  apply StepsMeet.invariant_history
    (I := fun as s => (s.readings ruleID).isSome → Happened (Saw ruleID) s₀ as) ?_ hrun
  · intro h
    rw [hfresh] at h
    cases h
  · intro pre a ih hpush h
    rcases saw_of_reading hpush h with hold | hsaw
    · exact (ih hold).append
    · exact Happened.last hsaw

theorem reading_of_run_kept (h : Happened (Kept ruleID) s₀ as) :
    ((run State.step s₀ as).readings ruleID).isSome := by
  obtain ⟨before, a, after, rfl, hkept⟩ := h
  rw [run_append, run_cons]
  exact run_invariant (I := fun s : State => (s.readings ruleID).isSome = true)
    (fun _ a h => reading_step a h) after (reading_of_kept hkept)

/-- **No-data arming.**  Of a metric rule that fires on no data, an evaluation that sees no
sample fires once some evaluation of the rule has kept what it measured, and does not before
any evaluation of the rule, in whatever environment, has seen a sample. -/
theorem silence_fires_once_armed (s₀ : State) (as : List Action) (rule : AlertRule)
    (spec : MetricRuleSpec) (hfresh : s₀.readings rule.id = none)
    (hrun : StepsMeet State.step (Unpushed rule.id) s₀ as) (tel : Telemetry)
    (env : Option String) (hqueries : rule.Queries spec) (hfires : spec.fireOnNoData)
    (hsilent : samplesSeen tel env rule spec = some 0) :
    ∃ v, verdict tel env ((run State.step s₀ as).readings rule.id) rule = some v ∧
      (Happened (Kept rule.id) s₀ as → v.breached) ∧
      (v.breached → Happened (Saw rule.id) s₀ as) := by
  obtain ⟨v, hv, hmeasures⟩ := measures_verdict
    ((run State.step s₀ as).readings rule.id) hqueries hsilent
  have harmed := hmeasures.silent rfl hfires
  refine ⟨v, hv, ?_, ?_⟩
  · intro hkept
    rw [harmed]
    exact reading_of_run_kept hkept
  · intro hbreached
    rw [harmed] at hbreached
    exact saw_of_run_reading hrun hfresh hbreached

/-! A probe of integration 7 that reports from production and never from test. -/

private def probe : AlertRule :=
  { id := 1, integrationID := some 7, spec := .metric ⟨.lt, 1, true, ""⟩ }

private def probed : State :=
  { world := ⟨0, [probe], [], none, none, fun _ => false, 6 * hour⟩ }

private def silence : Telemetry :=
  { Telemetry.metricOnly 0 with metricAggregate := fun _ _ => some (0, 0) }

private def productionReports : List Action :=
  [.evaluate none (.metricOnly 1) 1 (some "production")]

theorem probe_fires_once_armed :
    ∃ v, verdict silence (some "production")
        ((run State.step probed productionReports).readings 1) probe = some v ∧
      (Happened (Kept 1) probed productionReports → v.breached) ∧
      (v.breached → Happened (Saw 1) probed productionReports) :=
  silence_fires_once_armed probed productionReports probe ⟨.lt, 1, true, ""⟩ rfl
    ⟨trivial, trivial⟩ silence (some "production") ⟨rfl, by decide⟩ rfl (by decide +kernel)

/-- Test has never reported, and its first silent evaluation fires. -/
theorem test_fires_unseen :
    (∀ fault tel, .evaluate fault tel 1 (some "test") ∉ productionReports) ∧
      samplesSeen silence (some "test") probe ⟨.lt, 1, true, ""⟩ = some 0 ∧
      (verdict silence (some "test") ((run State.step probed productionReports).readings 1)
        probe).map Verdict.breached = some true := by
  refine ⟨?_, by decide +kernel, by decide +kernel⟩
  intro fault tel hmem
  injection List.mem_singleton.1 hmem with _ _ _ henv
  injection henv with henv
  exact absurd henv (by decide)

end Sluicio.Alerting
