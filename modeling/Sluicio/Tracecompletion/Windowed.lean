import Sluicio.Tracecompletion.Evaluator

/-!
# The scan and the whole history

The scan that opens an instance reads the spans in the lookback window and of the
integration's services; the sweep that resolves it reads every recorded span.  An instance
is opened once for a trace and a stage as long as the two agree.
-/

namespace Sluicio.Tracecompletion

open Lib Alerting State

variable {stage now : Int} {a : TraceAgg} {spans : List Span} {c : TraceClassification}
  {spec' : RuleSpec} {traceID : String}

/-- The loop of `classify` stops at a stage it has not seen. -/
theorem classifyFrom_stage {i : Nat} {prevTs : Int} {stages : List (EffectiveStage × Bool × Int)}
    (h : classifyFrom a now i prevTs stages = some c) :
    c.traceID = a.traceID ∧ ∃ j st seenAt, stages[j]? = some (st, false, seenAt) ∧
      c.delayedStage = i + j + 1 := by
  induction stages generalizing i prevTs with
  | nil => cases h
  | cons x rest ih =>
    obtain ⟨st, seen, seenAt⟩ := x
    rw [classifyFrom] at h
    split at h
    · obtain ⟨htrace, j, st', seenAt', hj, hstage⟩ := ih h
      exact ⟨htrace, j + 1, st', seenAt', hj, by omega⟩
    · next hseen =>
      obtain rfl := Option.some.inj h
      refine ⟨rfl, 0, st, seenAt, ?_, rfl⟩
      simpa using hseen

/-- **A trace is delayed at a stage that the scan has not seen**, and without its final
stage. -/
theorem unseen_of_delayed {spec : RuleSpec} (h : (classify spec a now).state = .delayed) :
    (classify spec a now).traceID = a.traceID ∧ a.hasStage.getLast? ≠ some true ∧
      ∃ j st, spec.effectiveStages[j]? = some st ∧ a.hasStage[j]? = some false ∧
        (classify spec a now).delayedStage = j + 1 := by
  unfold classify at h ⊢
  dsimp only at h ⊢
  split at h
  · cases h
  · next hne =>
    rw [if_neg hne]
    split at h
    · cases h
    · next hlast =>
      rw [if_neg hlast]
      cases hloop : classifyFrom a now 0 (stageBaseline spec a)
          (spec.effectiveStages.zip (a.hasStage.zip a.stageAt)) with
      | none =>
        rw [hloop] at h
        cases h
      | some c =>
        obtain ⟨htrace, j, st, seenAt, hj, hstage⟩ := classifyFrom_stage hloop
        obtain ⟨hst, hrest⟩ := List.getElem?_zip_eq_some.1 hj
        refine ⟨htrace, ?_, j, st, hst, (List.getElem?_zip_eq_some.1 hrest).1, ?_⟩
        · intro htrue
          rw [htrue] at hlast
          exact hlast rfl
        · rw [Option.getD_some, hstage]
          omega

def State.windowStart (s : State) (rule : Rule) : Int :=
  s.alerts.world.now - rule.spec.lookbackSeconds * second

/-- Of a trace that the scan returns without its final stage, every stage with a recorded
span has one in the window and of the integration's services. -/
def State.SeesRecorded (s : State) (rule : Rule) : Prop :=
  ∀ a ∈ scanTraces rule.spec (s.services rule.integrationID) (s.windowStart rule)
      s.alerts.world.now s.spans,
    a.hasStage.getLast? ≠ some true →
    ∀ st ∈ rule.spec.effectiveStages, ∀ sp ∈ s.spans, sp.traceID = a.traceID →
      sp.spanName ∈ st.spanNames →
      ∃ sp' ∈ scanned (s.services rule.integrationID) (s.windowStart rule)
          s.alerts.world.now s.spans,
        sp'.traceID = a.traceID ∧ sp'.spanName ∈ st.spanNames

/-- No trace the evaluation finds delayed at a stage has a recorded span of that stage. -/
def State.Truthful (s : State) (rule : Rule) : Prop :=
  ∀ c ∈ s.delayed rule, ¬ Reached rule.spec s.spans c.traceID.text c.delayedStage

theorem TraceID.text_inj {t t' : TraceID} (h : t.text = t'.text) : t = t' := by
  cases t
  cases t'
  cases h
  rfl

variable {rule : Rule} {s : State}

theorem State.SeesRecorded.truthful (h : s.SeesRecorded rule) : s.Truthful rule := by
  intro c hc hreached
  unfold delayed at hc
  split at hc
  · cases hc
  obtain ⟨hmem, hdelayed⟩ := List.mem_filter.1 hc
  obtain ⟨a, ha, rfl⟩ := List.mem_map.1 hmem
  obtain ⟨htrace, hlast, j, st, hst, hunseen, hstage⟩ :=
    unseen_of_delayed (of_decide_eq_true hdelayed)
  obtain ⟨k, st', hst', hk, sp, hsp, hspan, hname⟩ := hreached
  have hj : k = j := by omega
  rw [hj, hst] at hst'
  obtain rfl := Option.some.inj hst'
  rw [htrace] at hspan
  obtain ⟨sp', hsp', htrace', hname'⟩ :=
    h a ha hlast st (List.mem_of_getElem? hst) sp hsp (TraceID.text_inj hspan) hname
  -- the scan aggregates that span, so it has seen the stage
  obtain ⟨t, _, rfl⟩ := List.mem_map.1 (List.mem_filter.1 ha).1
  have hseen : hasSpan st.spanNames (ofTrace t (scanned (s.services rule.integrationID)
      (s.windowStart rule) s.alerts.world.now s.spans)) :=
    hasSpan_eq_true.2 ⟨sp', List.mem_filter.2 ⟨hsp', decide_eq_true htrace'⟩, hname'⟩
  simp only [aggregate, List.getElem?_map, hst, Option.map_some, Option.some.injEq] at hunseen
  exact absurd (hseen.symm.trans hunseen) (by decide)

theorem State.delayedStage_pos (hc : c ∈ s.delayed rule) : 0 < c.delayedStage := by
  unfold delayed at hc
  split at hc
  · cases hc
  obtain ⟨hmem, hdelayed⟩ := List.mem_filter.1 hc
  obtain ⟨a, _, rfl⟩ := List.mem_map.1 hmem
  obtain ⟨_, _, j, _, _, _, hstage⟩ := unseen_of_delayed (of_decide_eq_true hdelayed)
  rw [hstage]
  exact Nat.succ_pos j

/-! ## Opened once -/

def State.stagesOf (s : State) (ruleID : UUID) : List EffectiveStage :=
  (s.specs ruleID).normalize.effectiveStages

/-- There is one instance at most for a trace and a stage of the rule, firing or
resolved. -/
def State.OpenedOnce (s : State) (ruleID : UUID) : Prop :=
  ∀ i ∈ s.alerts.instances, ∀ j ∈ s.alerts.instances, i.alertRuleID = ruleID →
    j.alertRuleID = ruleID → i.fingerprint = j.fingerprint → i = j

/-- Nobody resolves an instance of the rule by hand, and no edit changes its stages. -/
def Undisturbed (ruleID : UUID) (s : State) : Action → Prop
  | .resolveManual instanceID =>
    ∀ i ∈ s.alerts.instances, i.id = instanceID → i.alertRuleID ≠ ruleID
  | .updateRule rule spec =>
    rule.id = ruleID → spec.normalize.effectiveStages = s.stagesOf ruleID
  | _ => True

def SeesHistory (ruleID : UUID) (s : State) : Action → Prop
  | .evaluateRule k _ _ =>
    ∀ rule, s.rules[k]? = some rule → rule.alertRule.id = ruleID → s.SeesRecorded rule
  | _ => True

/-- What the rule's evaluation opens has no recorded span of its stage. -/
def OpensTruthfully (ruleID : UUID) (s : State) : Action → Prop
  | .evaluateRule k _ _ =>
    ∀ rule, s.rules[k]? = some rule → rule.alertRule.id = ruleID → s.Truthful rule
  | _ => True

/-- The two conditions on a step. -/
def KeepsHistory (ruleID : UUID) (s : State) (a : Action) : Prop :=
  Undisturbed ruleID s a ∧ SeesHistory ruleID s a

theorem SeesHistory.opensTruthfully {ruleID : UUID} {a : Action} (h : SeesHistory ruleID s a) :
    OpensTruthfully ruleID s a := by
  cases a with
  | evaluateRule k faults fireFails => exact fun rule hrule hid => (h rule hrule hid).truthful
  | _ => trivial

theorem Reached.mono {spec : RuleSpec} {spans' : List Span} (h : Reached spec spans traceID stage)
    (hspans : spans ⊆ spans') : Reached spec spans' traceID stage := by
  obtain ⟨k, st, hst, hk, sp, hsp, hspan⟩ := h
  exact ⟨k, st, hst, hk, sp, hspans hsp, hspan⟩

theorem Reached.congr {spec : RuleSpec} (h : Reached spec spans traceID stage)
    (hstages : spec.effectiveStages = spec'.effectiveStages) :
    Reached spec' spans traceID stage := by
  unfold Reached at h ⊢
  rwa [hstages] at h

theorem stalledStage_congr {spec : RuleSpec}
    (hstages : spec.effectiveStages = spec'.effectiveStages) (fp : String) :
    stalledStage spec fp = stalledStage spec' fp := by
  unfold stalledStage
  rw [hstages]

theorem stalledStage_stage (spec : RuleSpec) (t : TraceID) {k : Nat} (hk : 0 < k) :
    stalledStage spec (stageFingerprint t k) = k := by
  unfold stalledStage openFiring OpenFiring.sweptStage
  rw [parseFingerprint_stage]
  refine if_neg ?_
  dsimp only
  omega

/-- A span of the stage that the fingerprint stands for has been recorded. -/
def State.Evidence (s : State) (ruleID : UUID) (fp : String) : Prop :=
  Reached (s.specs ruleID).normalize s.spans (parseFingerprint fp).1
    (stalledStage (s.specs ruleID).normalize fp)

structure State.Once (s : State) (ruleID : UUID) : Prop where
  sound : s.Sound
  once : s.OpenedOnce ruleID
  closed : ∀ i ∈ s.alerts.instances, i.alertRuleID = ruleID → i.state = .resolved →
    s.Evidence ruleID i.fingerprint
  stages : ∀ rule ∈ s.rules, rule.alertRule.id = ruleID →
    rule.spec.effectiveStages = s.stagesOf ruleID
  loaded : ∀ rule ∈ s.rules, rule.alertRule.id = ruleID →
    (s.alerts.world.rule? ruleID).isSome
  known : ∀ i ∈ s.alerts.instances, i.alertRuleID = ruleID →
    (s.alerts.world.rule? ruleID).isSome

structure SameRow (i i' : AlertInstance) : Prop where
  id : i'.id = i.id
  alertRuleID : i'.alertRuleID = i.alertRuleID
  fingerprint : i'.fingerprint = i.fingerprint
  state : i'.state = i.state

/-- The rows after `fireDelayed`: those there were, and a new one where none was firing. -/
theorem mem_fireDelayed {t : Alerting.State} {fault : Fault} {rule : AlertRule}
    {integrationID : UUID} {fp : String} {i' : AlertInstance}
    (h : i' ∈ (t.fireDelayed fault rule integrationID fp).instances) :
    (∃ i ∈ t.instances, SameRow i i') ∨
      (i'.id = t.nextID ∧ i'.alertRuleID = rule.id ∧ i'.fingerprint = fp ∧
        i'.state = .firing ∧ t.activeInstance rule.id fp = none) := by
  have hopened : t.activeInstance rule.id fp = none →
      ∀ j ∈ (t.openInstance rule.id fp none).2.instances,
      (∃ i ∈ t.instances, SameRow i j) ∨
        (j.id = t.nextID ∧ j.alertRuleID = rule.id ∧ j.fingerprint = fp ∧
          j.state = .firing ∧ t.activeInstance rule.id fp = none) := by
    intro hnone j hj
    rcases List.mem_append.1 hj with hold | hnew
    · exact .inl ⟨j, hold, rfl, rfl, rfl, rfl⟩
    · obtain rfl := List.mem_singleton.1 hnew
      exact .inr ⟨rfl, rfl, rfl, rfl, hnone⟩
  rcases t.fireDelayed_cases fault rule integrationID fp with
    ⟨active, _, heq⟩ | ⟨w, hnone, _, heq⟩ | ⟨hnone, _, heq⟩
  · rw [heq] at h
    obtain ⟨i, hi, ⟨_, rfl⟩ | ⟨_, rfl⟩⟩ := mem_updateWhere.1 h
    · exact .inl ⟨i, hi, rfl, rfl, rfl, rfl⟩
    · exact .inl ⟨i', hi, rfl, rfl, rfl, rfl⟩
  · rw [heq] at h
    obtain ⟨j, hj, ⟨_, rfl⟩ | ⟨_, rfl⟩⟩ := mem_updateWhere.1 h
    · rcases hopened hnone j hj with ⟨i, hi, hsame⟩ | hnew
      · exact .inl ⟨i, hi, hsame.id, hsame.alertRuleID, hsame.fingerprint, hsame.state⟩
      · exact .inr hnew
    · exact hopened hnone i' hj
  · rw [heq, enqueueJobs_instances] at h
    exact hopened hnone i' h

section Once

variable {s : State} {ruleID : UUID}

theorem State.Once.rows (h : s.Once ruleID) {alerts : Alerting.State}
    (hsound : State.Sound { s with alerts := alerts })
    (hrule : (s.alerts.world.rule? ruleID).isSome →
      (alerts.world.rule? ruleID).isSome)
    (hrows : ∀ i' ∈ alerts.instances, i'.alertRuleID = ruleID →
      ∃ i ∈ s.alerts.instances, SameRow i i') :
    State.Once { s with alerts := alerts } ruleID where
  sound := hsound
  once := by
    intro i' hi' j' hj' hi hj hfp
    obtain ⟨i, hmi, hsi⟩ := hrows i' hi' hi
    obtain ⟨j, hmj, hsj⟩ := hrows j' hj' hj
    refine eq_of_key_eq hsound.keyed.ids hi' hj' ?_
    have hsame : i = j := by
      refine h.once i hmi j hmj ?_ ?_ ?_
      · rw [← hsi.alertRuleID, hi]
      · rw [← hsj.alertRuleID, hj]
      · rw [← hsi.fingerprint, ← hsj.fingerprint, hfp]
    rw [hsi.id, hsj.id, hsame]
  closed := by
    intro i' hi' hi hstate
    obtain ⟨i, hmi, hsi⟩ := hrows i' hi' hi
    have hclosed := h.closed i hmi (hsi.alertRuleID ▸ hi) (hsi.state ▸ hstate)
    rwa [← hsi.fingerprint] at hclosed
  stages := h.stages
  loaded := fun rule hr hid => hrule (h.loaded rule hr hid)
  known := by
    intro i' hi' hi
    obtain ⟨i, hmi, hsi⟩ := hrows i' hi' hi
    exact hrule (h.known i hmi (hsi.alertRuleID ▸ hi))

/-- **A delayed trace opens no second instance**: a resolved one would be evidence. -/
theorem State.Once.fireDelayed (h : s.Once ruleID) {rule : Rule} (fault : Fault)
    {c : TraceClassification} (hpos : 0 < c.delayedStage)
    (hrule : rule.alertRule.id = ruleID → (s.alerts.world.rule? ruleID).isSome)
    (hnot : rule.alertRule.id = ruleID →
      ¬ Reached (s.specs ruleID).normalize s.spans c.traceID.text c.delayedStage) :
    State.Once
      { s with
        alerts := s.alerts.fireDelayed fault rule.alertRule rule.integrationID
          (stageFingerprint c.traceID c.delayedStage) } ruleID := by
  have hnamed : NamesTrace (stageFingerprint c.traceID c.delayedStage) :=
    ⟨c.traceID, .inr ⟨_, rfl⟩⟩
  have hsound := h.sound.fireDelayed fault rule.alertRule rule.integrationID hnamed
  have hworld := s.alerts.fireDelayed_world fault rule.alertRule rule.integrationID
    (stageFingerprint c.traceID c.delayedStage)
  by_cases hother : rule.alertRule.id = ruleID
  · -- no row of this fingerprint is there already
    have hfresh : s.alerts.activeInstance rule.alertRule.id
        (stageFingerprint c.traceID c.delayedStage) = none → ∀ i ∈ s.alerts.instances,
        i.alertRuleID = ruleID → i.fingerprint ≠ stageFingerprint c.traceID c.delayedStage := by
      intro hnone i hi hid hfp
      have hresolved : i.state = .resolved := by
        cases hstate : i.state with
        | resolved => rfl
        | firing =>
          exact absurd hstate (activeInstance_eq_none hnone hi (hid.trans hother.symm) hfp)
      have hevidence := h.closed i hi hid hresolved
      unfold State.Evidence at hevidence
      rw [hfp, parseFingerprint_stage, stalledStage_stage _ _ hpos] at hevidence
      exact hnot hother hevidence
    exact
      { sound := hsound
        once := by
          intro i' hi' j' hj' hi hj hfp
          refine eq_of_key_eq hsound.keyed.ids hi' hj' ?_
          rcases mem_fireDelayed hi' with ⟨i, hmi, hsi⟩ | ⟨hidi, _, hfpi, _, hnone⟩
          · rcases mem_fireDelayed hj' with ⟨j, hmj, hsj⟩ | ⟨_, _, hfpj, _, hnone⟩
            · have hsame : i = j := by
                refine h.once i hmi j hmj ?_ ?_ ?_
                · rw [← hsi.alertRuleID, hi]
                · rw [← hsj.alertRuleID, hj]
                · rw [← hsi.fingerprint, ← hsj.fingerprint, hfp]
              rw [hsi.id, hsj.id, hsame]
            · refine absurd ?_ (hfresh hnone i hmi (hsi.alertRuleID ▸ hi))
              rw [← hsi.fingerprint, hfp, hfpj]
          · rcases mem_fireDelayed hj' with ⟨j, hmj, hsj⟩ | ⟨hidj, _, _, _, _⟩
            · refine absurd ?_ (hfresh hnone j hmj (hsj.alertRuleID ▸ hj))
              rw [← hsj.fingerprint, ← hfp, hfpi]
            · rw [hidi, hidj]
        closed := by
          intro i' hi' hi hstate
          rcases mem_fireDelayed hi' with ⟨i, hmi, hsi⟩ | ⟨_, _, _, hfiring, _⟩
          · have hclosed := h.closed i hmi (hsi.alertRuleID ▸ hi) (hsi.state ▸ hstate)
            rwa [← hsi.fingerprint] at hclosed
          · rw [hfiring] at hstate
            cases hstate
        stages := h.stages
        loaded := by
          intro r hr hid
          rw [hworld]
          exact h.loaded r hr hid
        known := by
          intro _ _ _
          rw [hworld]
          exact hrule hother }
  · refine h.rows hsound (fun hsome => by rwa [hworld]) fun i' hi' hid => ?_
    rcases mem_fireDelayed hi' with hold | ⟨_, hr, _, _, _⟩
    · exact hold
    · exact absurd (hr.symm.trans hid) hother

theorem State.Once.evaluateRule (h : s.Once ruleID) (faults : String → Fault)
    (fireFails : String → Bool) {rule : Rule}
    (hrule : rule ∈ s.rules) (htruthful : rule.alertRule.id = ruleID → s.Truthful rule) :
    (s.evaluateRule faults fireFails rule).Once ruleID := by
  have hstages := h.stages rule hrule
  have hloaded := h.loaded rule hrule
  have hdelayed : ∀ c ∈ (s.delayed rule).filter fun c =>
      !fireFails (stageFingerprint c.traceID c.delayedStage),
      0 < c.delayedStage ∧ (rule.alertRule.id = ruleID →
        ¬ Reached (s.specs ruleID).normalize s.spans c.traceID.text c.delayedStage) := by
    intro c hc
    replace hc := List.mem_of_mem_filter hc
    refine ⟨delayedStage_pos hc, fun hid hreached => ?_⟩
    exact htruthful hid c hc (hreached.congr (hstages hid).symm)
  unfold State.evaluateRule
  dsimp only
  generalize (s.delayed rule).filter _ = delayed at hdelayed
  clear htruthful hstages hrule
  induction delayed generalizing s with
  | nil => exact h
  | cons c rest ih =>
    have hc := hdelayed c List.mem_cons_self
    have hnext := h.fireDelayed (faults (stageFingerprint c.traceID c.delayedStage))
      hc.1 hloaded hc.2
    refine ih hnext (fun hid => ?_) fun c' hc' => hdelayed c' (List.mem_cons_of_mem _ hc')
    show ((s.alerts.fireDelayed _ _ _ _).world.rule? ruleID).isSome = true
    rw [fireDelayed_world]
    exact hloaded hid

theorem resolveAll_world (t : Alerting.State) (id : UUID) (fps : List String) :
    (resolveAll t id fps).world = t.world := by
  unfold resolveAll
  induction fps generalizing t with
  | nil => rfl
  | cons fp fps ih =>
    rw [List.foldl_cons, ih, resolveStageFiring_world]

theorem State.Once.sweepRule (h : s.Once ruleID) (closedFails : Nat → Bool)
    (resolveFails : String → Bool) {rule : Rule} (hrule : rule ∈ s.rules) :
    (s.sweepRule closedFails resolveFails rule).Once ruleID := by
  have hsound := h.sound.sweepRule closedFails resolveFails rule
  have hinst := instances_resolveAll h.sound.keyed h.sound.oneFiring rule.alertRule.id
    (s.dueFingerprints closedFails resolveFails rule)
  have hworld := resolveAll_world s.alerts rule.alertRule.id
    (s.dueFingerprints closedFails resolveFails rule)
  rw [s.sweepRule_eq] at hsound ⊢
  have hrows : ∀ i' ∈ (resolveAll s.alerts rule.alertRule.id
      (s.dueFingerprints closedFails resolveFails rule)).instances,
      ∃ i ∈ s.alerts.instances, i'.id = i.id ∧ i'.alertRuleID = i.alertRuleID ∧
        i'.fingerprint = i.fingerprint ∧ (i'.state = i.state ∨
          (i.alertRuleID = rule.alertRule.id ∧
            i.fingerprint ∈ s.dueFingerprints closedFails resolveFails rule)) := by
    rw [hinst]
    intro i' hi'
    obtain ⟨i, hi, rfl⟩ := List.mem_map.1 hi'
    refine ⟨i, hi, ?_⟩
    unfold resolvedIf
    split
    · next hdue => exact ⟨rfl, rfl, rfl, .inr ⟨hdue.1, hdue.2.2⟩⟩
    · exact ⟨rfl, rfl, rfl, .inl rfl⟩
  exact
    { sound := hsound
      once := by
        intro i' hi' j' hj' hi hj hfp
        obtain ⟨i, hmi, hidi, hri, hfi, _⟩ := hrows i' hi'
        obtain ⟨j, hmj, hidj, hrj, hfj, _⟩ := hrows j' hj'
        refine eq_of_key_eq hsound.keyed.ids hi' hj' ?_
        have hsame : i = j := h.once i hmi j hmj (hri ▸ hi) (hrj ▸ hj) (by rw [← hfi, ← hfj, hfp])
        rw [hidi, hidj, hsame]
      closed := by
        intro i' hi' hid hstate
        obtain ⟨i, hi, _, hr, hfp, hkept | ⟨hown, hdue⟩⟩ := hrows i' hi'
        · rw [hfp]
          exact h.closed i hi (hr ▸ hid) (hkept ▸ hstate)
        · rw [hfp]
          have hstages := h.stages rule hrule (hown.symm.trans (hr ▸ hid))
          have hreached := reached_of_due hdue
          rw [stalledStage_congr hstages] at hreached
          exact hreached.congr hstages
      stages := h.stages
      loaded := by
        intro r hr hid
        rw [hworld]
        exact h.loaded r hr hid
      known := by
        intro i' hi' hid
        obtain ⟨i, hi, _, hr, _⟩ := hrows i' hi'
        rw [hworld]
        exact h.known i hi (hr ▸ hid) }

theorem State.Once.spec (h : s.Once ruleID) {alerts : Alerting.State} {id : UUID} {spec : RuleSpec}
    (hinst : alerts.instances = s.alerts.instances) (hjobs : alerts.jobs = s.alerts.jobs)
    (hnext : alerts.nextID = s.alerts.nextID) (hrule : (s.alerts.world.rule? ruleID).isSome →
      (alerts.world.rule? ruleID).isSome)
    (hkeeps : id = ruleID → (s.alerts.world.rule? ruleID).isSome →
      spec.normalize.effectiveStages = s.stagesOf ruleID) :
    (setSpec { s with alerts := alerts } id spec).Once ruleID := by
  have hstages : (s.alerts.world.rule? ruleID).isSome →
      (setSpec { s with alerts := alerts } id spec).stagesOf ruleID = s.stagesOf ruleID := by
    intro hsome
    unfold stagesOf setSpec
    dsimp only
    split
    · next hid => exact hkeeps hid.symm hsome
    · rfl
  exact
    { sound := h.sound.congr hinst hjobs hnext
      once := by
        intro i hi j hj
        rw [show (setSpec { s with alerts := alerts } id spec).alerts.instances =
          s.alerts.instances from hinst] at hi hj
        exact h.once i hi j hj
      closed := by
        intro i hi hid hstate
        rw [show (setSpec { s with alerts := alerts } id spec).alerts.instances =
          s.alerts.instances from hinst] at hi
        have hclosed := h.closed i hi hid hstate
        have hsame := (hstages (h.known i hi hid)).symm
        unfold State.Evidence at hclosed ⊢
        rw [stalledStage_congr hsame] at hclosed
        exact hclosed.congr hsame
      stages := by
        intro rule hr hid
        rw [hstages (h.loaded rule hr hid)]
        exact h.stages rule hr hid
      loaded := fun rule hr hid => hrule (h.loaded rule hr hid)
      known := by
        intro i hi hid
        rw [show (setSpec { s with alerts := alerts } id spec).alerts.instances =
          s.alerts.instances from hinst] at hi
        exact hrule (h.known i hi hid) }

/-- **Step lemma.** -/
theorem State.Once.step (h : s.Once ruleID) {a : Action} (hquiet : Undisturbed ruleID s a)
    (hsees : OpensTruthfully ruleID s a) : (s.step a).Once ruleID := by
  cases a with
  | arrive spans =>
    exact
      { sound := h.sound.congr rfl rfl rfl
        once := h.once
        closed := fun i hi hid hstate =>
          (h.closed i hi hid hstate).mono (List.subset_append_left _ _)
        stages := h.stages
        loaded := h.loaded
        known := h.known }
  | advance d =>
    exact h.rows (h.sound.congr rfl rfl rfl) id fun i hi _ => ⟨i, hi, rfl, rfl, rfl, rfl⟩
  | setWindows windows =>
    exact h.rows (h.sound.congr rfl rfl rfl) id fun i hi _ => ⟨i, hi, rfl, rfl, rfl, rfl⟩
  | setServices integrationID names =>
    exact
      { sound := h.sound.congr rfl rfl rfl
        once := h.once, closed := h.closed, stages := h.stages, loaded := h.loaded
        known := h.known }
  | createRule rule spec =>
    simp only [State.step]
    split
    · exact h
    · next hnew =>
      simp only [Bool.or_eq_true, not_or, Bool.not_eq_true] at hnew
      refine h.spec rfl rfl rfl (fun hsome => ?_) fun hid hsome => ?_
      · obtain ⟨r, hr⟩ := Option.isSome_iff_exists.1 hsome
        rw [rule?_createRule hr rule]
        rfl
      · rw [hid, hsome] at hnew
        exact absurd hnew.2 (by decide)
  | updateRule rule spec =>
    simp only [State.step]
    split
    · exact h
    refine h.spec rfl rfl rfl (fun hsome => ?_) fun hid _ => hquiet hid
    obtain ⟨r, hr⟩ := Option.isSome_iff_exists.1 hsome
    obtain ⟨r', hr', _⟩ := World.rule?_updateRule hr rule
    show ((s.alerts.world.updateRule rule).rule? ruleID).isSome = true
    rw [hr']
    rfl
  | handleFiring instanceID =>
    refine h.rows (updateInstances_sound (fun i => sameInstance_acknowledged i _) h.sound) id
      fun i' hi' _ => ?_
    obtain ⟨i, hi, ⟨_, rfl⟩ | ⟨_, rfl⟩⟩ := mem_updateWhere.1 hi'
    · exact ⟨i, hi, rfl, rfl, rfl, rfl⟩
    · exact ⟨i', hi, rfl, rfl, rfl, rfl⟩
  | resolveManual instanceID =>
    refine h.rows (updateInstances_sound (fun i => sameInstance_closed i _) h.sound) id
      fun i' hi' hid => ?_
    obtain ⟨i, hi, ⟨hp, rfl⟩ | ⟨_, rfl⟩⟩ := mem_updateWhere.1 hi'
    · have hclosed : i.id = instanceID := by
        simp only [Bool.and_eq_true, decide_eq_true_eq] at hp
        exact hp.1
      exact absurd hid (hquiet i hi hclosed)
    · exact ⟨i', hi, rfl, rfl, rfl, rfl⟩
  | load =>
    have hlisted : ∀ rule ∈ s.enabledForEval, rule.spec = (s.specs rule.alertRule.id).normalize ∧
        rule.alertRule ∈ s.alerts.world.rules := by
      intro rule hr
      obtain ⟨r, hmem, hr⟩ := List.mem_filterMap.1 hr
      split at hr
      · obtain ⟨i, _, rfl⟩ := Option.map_eq_some_iff.1 hr
        exact ⟨rfl, hmem⟩
      · cases hr
    exact
      { sound := h.sound.congr rfl rfl rfl
        once := h.once
        closed := h.closed
        stages := by
          intro rule hr hid
          rw [(hlisted rule hr).1, hid]
          rfl
        loaded := by
          intro rule hr hid
          exact List.find?_isSome.2 ⟨_, (hlisted rule hr).2, decide_eq_true hid⟩
        known := h.known }
  | evaluateRule k faults fireFails =>
    simp only [State.step]
    split
    · next rule hr =>
      exact h.evaluateRule faults fireFails (List.mem_of_getElem? hr) (hsees rule hr)
    · exact h
  | sweepRule k closedFails resolveFails =>
    simp only [State.step]
    split
    · next rule hr => exact h.sweepRule closedFails resolveFails (List.mem_of_getElem? hr)
    · exact h

end Once

theorem State.once_init (w : World) (specs : UUID → RuleSpec) (services : UUID → List String)
    (ruleID : UUID) :
    State.Once { alerts := { world := w }, specs := specs, services := services } ruleID where
  sound := sound_init w specs services
  once := fun _ hi => (nomatch hi)
  closed := fun _ hi => (nomatch hi)
  stages := fun _ hr => (nomatch hr)
  loaded := fun _ hr => (nomatch hr)
  known := fun _ hi => (nomatch hi)

/-- **Sticky firings.**  In every run in which nobody resolves an instance of the rule by
hand, its stages stay, and its scan sees every recorded stage of the traces it has to
judge: whatever an evaluation finds delayed has no recorded span of the stage, and there
is one instance at most for a trace and a stage. -/
theorem opened_once_of_keepsHistory (w : World) (specs : UUID → RuleSpec)
    (services : UUID → List String) (ruleID : UUID) (as : List Action)
    (hrun : StepsMeet State.step (KeepsHistory ruleID)
      { alerts := { world := w }, specs := specs, services := services } as) :
    StepsMeet State.step (OpensTruthfully ruleID)
        { alerts := { world := w }, specs := specs, services := services } as ∧
      (run State.step { alerts := { world := w }, specs := specs, services := services }
        as).OpenedOnce ruleID := by
  have hend := hrun.invariant (I := fun s => s.Once ruleID)
    (fun s a h ha => h.step ha.1 ha.2.opensTruthfully) (once_init w specs services ruleID)
  exact ⟨hrun.imp fun s a ha => ha.2.opensTruthfully, hend.once⟩

private def packing : RuleSpec :=
  { startSpanName := "start", stages := [⟨["packed"], 60⟩], lookbackSeconds := 600 }

private def packingRule : AlertRule :=
  { id := 1, integrationID := some 7, spec := .traceCompletion }

private def quietWorld : World := ⟨0, [], [], none, none, fun _ => false, 6 * hour⟩

private def noRules : State :=
  { alerts := { world := quietWorld }, specs := fun _ => packing, services := fun _ => [] }

private def parcel : TraceID := ⟨"cd34", by decide +kernel⟩

private def parcelRun (packedBy : List String) : List Action :=
  [.createRule packingRule packing, .setServices 7 ["api"], .advance 1000000000000,
    .arrive (⟨parcel, "start", "api", 1000 * second⟩ ::
      packedBy.map fun service => ⟨parcel, "packed", service, 1001 * second⟩),
    .advance 100000000000, .load, .evaluateRule 0 (fun _ => none) fun _ => false,
    .sweepRule 0 (fun _ => false) fun _ => false, .load,
    .evaluateRule 0 (fun _ => none) fun _ => false]

private theorem seesRecorded_of_unrecorded
    (h : ∀ st ∈ rule.spec.effectiveStages, ∀ sp ∈ s.spans, sp.spanName ∉ st.spanNames) :
    s.SeesRecorded rule :=
  fun _ _ _ st hst sp hsp _ hname => absurd hname (h st hst sp hsp)

theorem opened_once_example :
    StepsMeet State.step (OpensTruthfully 1) noRules (parcelRun []) ∧
      (run State.step noRules (parcelRun [])).OpenedOnce 1 := by
  refine opened_once_of_keepsHistory quietWorld (fun _ => packing) (fun _ => []) 1
    (parcelRun []) ⟨⟨trivial, trivial⟩, ⟨trivial, trivial⟩, ⟨trivial, trivial⟩,
      ⟨trivial, trivial⟩, ⟨trivial, trivial⟩, ⟨trivial, trivial⟩, ⟨trivial, ?_⟩,
      ⟨trivial, trivial⟩, ⟨trivial, trivial⟩, ⟨trivial, ?_⟩, trivial⟩
  · intro rule hrule _
    obtain rfl := Option.some.inj hrule
    exact seesRecorded_of_unrecorded (by decide +kernel)
  · intro rule hrule _
    obtain rfl := Option.some.inj hrule
    exact seesRecorded_of_unrecorded (by decide +kernel)

/-- `packed` is recorded by a service outside the integration: each tick opens an instance
and the sweep resolves it. -/
theorem reopened_each_tick :
    ¬ StepsMeet State.step (OpensTruthfully 1) noRules (parcelRun ["worker"]) ∧
      ¬ (run State.step noRules (parcelRun ["worker"])).OpenedOnce 1 := by
  constructor
  · rintro ⟨_, _, _, _, _, _, hopens, _⟩
    have hrule : (run State.step noRules ((parcelRun ["worker"]).take 6)).rules[0]? =
        some ⟨packingRule, 7, packing.normalize⟩ := by decide +kernel
    have hdelayed : ∃ c ∈ (run State.step noRules ((parcelRun ["worker"]).take 6)).delayed
        ⟨packingRule, 7, packing.normalize⟩, c.traceID = parcel ∧ c.delayedStage = 1 := by
      decide +kernel
    obtain ⟨c, hc, htrace, hstage⟩ := hdelayed
    refine hopens _ hrule rfl c hc ?_
    rw [htrace, hstage]
    exact ⟨0, ⟨["packed"], 60⟩, by decide +kernel, by decide,
      ⟨parcel, "packed", "worker", 1001 * second⟩, by decide +kernel, rfl, by decide⟩
  · unfold State.OpenedOnce
    decide +kernel

end Sluicio.Tracecompletion
