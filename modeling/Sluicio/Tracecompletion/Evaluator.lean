import Mathlib.Data.List.TakeWhile
import Sluicio.Alerting.Orphans
import Sluicio.Tracecompletion.Classify

/-!
# The trace-completion evaluator

`EvaluateOnce` loads the enabled rules, opens an instance for every trace that is delayed
at a stage, and then sweeps: an open firing is resolved when a span of its stage has been
recorded, however old and by whichever service.  The turns of single rules interleave here
with arriving spans, edits and operators.
-/

namespace Sluicio.Tracecompletion

open Lib Alerting

def stageFingerprint (traceID : TraceID) (stage : Nat) : String :=
  traceID.text ++ "#" ++ toString stage

/-- The value of decimal digits; `strconv.Atoi` fails on an empty or another string. -/
def natOfDigits (cs : List Char) : Option Nat :=
  if cs ≠ [] ∧ cs.all Char.isDigit then some (Nat.ofDigitChars 10 cs 0) else none

/-- `strconv.Atoi`; no stage number is out of its range. -/
def atoi : List Char → Option Int
  | '-' :: cs => (natOfDigits cs).map fun n => -(n : Int)
  | '+' :: cs => (natOfDigits cs).map fun n => (n : Int)
  | cs => (natOfDigits cs).map fun n => (n : Int)

/-- `parseFingerprint`: the trace and the stage, 0 for a fingerprint that names none. -/
def parseFingerprint (fp : String) : String × Int :=
  let tail := fp.toList.reverse.takeWhile (· ≠ '#')
  match fp.toList.reverse.dropWhile (· ≠ '#') with
  | [] => (fp, 0)
  | _ :: front =>
    match atoi tail.reverse with
    | some n => (String.ofList front.reverse, n)
    | none => (fp, 0)

/-- `split_part(fingerprint, '#', 1)`. -/
def splitPart (fp : String) : String := String.ofList (fp.toList.takeWhile (· ≠ '#'))

/-- A rule as `EnabledForEval` returns it. -/
structure Rule where
  alertRule : AlertRule
  integrationID : UUID
  spec : RuleSpec
  deriving DecidableEq

/-- The alert store with the instances of completion rules, the `rule_spec` of each rule,
the catalog's services of each integration, the recorded spans, and the rules the current
`EvaluateOnce` works on. -/
structure State where
  alerts : Alerting.State
  specs : UUID → RuleSpec
  services : UUID → List String
  spans : List Span := []
  rules : List Rule := []

open State

def State.enabledForEval (s : State) : List Rule :=
  s.alerts.world.rules.filterMap fun r =>
    if r.enabled && r.spec = .traceCompletion then
      r.integrationID.map fun i => ⟨r, i, (s.specs r.id).normalize⟩
    else none

/-- The traces `evaluateRule` finds delayed; none when the rule is invalid or its
integration has no services. -/
def State.delayed (s : State) (rule : Rule) : List TraceClassification :=
  if rule.spec.validate.isSome || s.services rule.integrationID = [] then []
  else
    let now : Int := s.alerts.world.now
    scanDelayed rule.spec (s.services rule.integrationID) now
      (now - rule.spec.lookbackSeconds * second) now s.spans

/-- `evaluateRule`; for a trace whose row is not read, touched or opened (`fireFails`), nothing
is written, and the next trace is taken. -/
def State.evaluateRule (s : State) (faults : String → Fault) (fireFails : String → Bool)
    (rule : Rule) : State :=
  let fp (c : TraceClassification) := stageFingerprint c.traceID c.delayedStage
  { s with
    alerts := ((s.delayed rule).filter fun c => !fireFails (fp c)).foldl (fun t c =>
      t.fireDelayed (faults (fp c)) rule.alertRule rule.integrationID (fp c)) s.alerts }

/-! ## The sweep -/

structure OpenFiring where
  fingerprint : String
  traceID : String
  stage : Int

def openFiring (fp : String) : OpenFiring :=
  ⟨fp, (parseFingerprint fp).1, (parseFingerprint fp).2⟩

def openFirings (alerts : Alerting.State) (ruleID : UUID) : List OpenFiring :=
  (alerts.instances.filter fun i => i.alertRuleID = ruleID && i.state = .firing).map
    fun i => openFiring i.fingerprint

/-- The stage a firing stalled at: one that names none stands for the final stage. -/
def OpenFiring.sweptStage (of : OpenFiring) (stages : Nat) : Int :=
  if of.stage = 0 then stages else of.stage

/-- `findClosedTraces`: of these traces, the ones with a span of one of the names. -/
def findClosedTraces (spanNames traceIDs : List String) (spans : List Span) : List String :=
  (spans.filter fun sp => sp.traceID.text ∈ traceIDs && sp.spanName ∈ spanNames).map
    fun sp => sp.traceID.text

def dueFirings (spans : List Span) (resolveFails : String → Bool) (firings : List OpenFiring)
    (st : EffectiveStage) : List OpenFiring :=
  let closed := findClosedTraces st.spanNames (firings.map OpenFiring.traceID) spans
  firings.filter fun of => of.traceID ∈ closed && !resolveFails of.fingerprint

/-- One rule of `sweepStaleFirings`, stage by stage; the lookup of a stage may fail, and so
may each resolve. -/
def State.sweepRule (s : State) (closedFails : Nat → Bool) (resolveFails : String → Bool)
    (rule : Rule) : State :=
  let stages := rule.spec.effectiveStages
  let firings := openFirings s.alerts rule.alertRule.id
  { s with
    alerts := stages.zipIdx.foldl (fun t (st, i) =>
      if closedFails (i + 1) then t
      else
        (dueFirings s.spans resolveFails
          (firings.filter fun of => of.sweptStage stages.length = i + 1) st).foldl
          (fun t of => t.resolveStageFiring rule.alertRule.id of.fingerprint) t) s.alerts }

/-- The traces `OpenDelayedTraceCounts` counts for an integration. -/
def State.openDelayedTraceIDs (s : State) (integrationID : UUID) : List String :=
  ((s.alerts.instances.filter fun i => i.state = .firing && i.handledAt.isNone &&
    s.alerts.world.rules.any fun r =>
      r.id = i.alertRuleID && r.integrationID = some integrationID &&
        r.spec = .traceCompletion).map fun i => splitPart i.fingerprint).dedup

inductive Action where
  | arrive (spans : List Span)
  | advance (d : Nat)
  | setWindows (windows : List WindowRow)
  | setServices (integrationID : UUID) (names : List String)
  | createRule (rule : AlertRule) (spec : RuleSpec)
  | updateRule (rule : AlertRule) (spec : RuleSpec)
  | handleFiring (instanceID : UUID)
  | resolveManual (instanceID : UUID)
  | load
  /-- it evaluates rule `k` -/
  | evaluateRule (k : Nat) (faults : String → Fault) (fireFails : String → Bool)
  /-- it sweeps rule `k` -/
  | sweepRule (k : Nat) (closedFails : Nat → Bool) (resolveFails : String → Bool)

def State.setSpec (s : State) (ruleID : UUID) (spec : RuleSpec) : State :=
  { s with specs := fun id => if id = ruleID then spec else s.specs id }

def State.step (s : State) : Action → State
  | .arrive spans => { s with spans := s.spans ++ spans }
  | .advance d => { s with alerts := s.alerts.step (.advance d) }
  | .setWindows windows => { s with alerts := s.alerts.step (.setWindows windows) }
  | .setServices integrationID names =>
    { s with services := fun id => if id = integrationID then names else s.services id }
  | .createRule rule spec =>
    if spec.validate.isSome || rule.spec ≠ .traceCompletion ||
        (s.alerts.world.rule? rule.id).isSome then s
    else { s with alerts := s.alerts.step (.createRule rule) }.setSpec rule.id spec
  | .updateRule rule spec =>
    if spec.validate.isSome || rule.spec ≠ .traceCompletion ||
        !(s.alerts.world.rule? rule.id).any (·.spec = .traceCompletion) then s
    else { s with alerts := s.alerts.step (.updateRule rule) }.setSpec rule.id spec
  | .handleFiring instanceID => { s with alerts := s.alerts.step (.acknowledge instanceID) }
  | .resolveManual instanceID => { s with alerts := s.alerts.step (.resolveManual instanceID) }
  | .load => { s with rules := s.enabledForEval }
  | .evaluateRule k faults fireFails =>
    match s.rules[k]? with
    | some rule => s.evaluateRule faults fireFails rule
    | none => s
  | .sweepRule k closedFails resolveFails =>
    match s.rules[k]? with
    | some rule => s.sweepRule closedFails resolveFails rule
    | none => s

/-! ## Reading a fingerprint back -/

theorem TraceID.not_hash (t : TraceID) : '#' ∉ t.text.toList := by
  intro hmem
  have hhex := List.all_eq_true.1 t.hex _ hmem
  exact absurd hhex (by decide)

theorem toList_toString (n : Nat) : (toString n).toList = Nat.toDigits 10 n := by
  simp [toString, Nat.repr]

theorem isDigit_of_mem_toString {n : Nat} {c : Char} (h : c ∈ (toString n).toList) : c.isDigit := by
  rw [toList_toString] at h
  exact Nat.isDigit_of_mem_toDigits (by decide) (by decide) h

theorem natOfDigits_toString (n : Nat) : natOfDigits (toString n).toList = some n := by
  have hdigits : (toString n).toList.all Char.isDigit :=
    List.all_eq_true.2 fun c hc => isDigit_of_mem_toString hc
  have hne : (toString n).toList ≠ [] := by
    rw [toList_toString]
    exact List.ne_nil_of_length_pos Nat.length_toDigits_pos
  unfold natOfDigits
  rw [if_pos ⟨hne, hdigits⟩, toList_toString, Nat.ofDigitChars_toDigits (by decide) (by decide)]

theorem atoi_toString (n : Nat) : atoi (toString n).toList = some (n : Int) := by
  have hdigits := fun c => isDigit_of_mem_toString (n := n) (c := c)
  have hvalue := natOfDigits_toString n
  unfold atoi
  split
  · next cs heq =>
    have hminus := hdigits '-' (heq ▸ List.mem_cons_self)
    exact absurd hminus (by decide)
  · next cs heq =>
    have hplus := hdigits '+' (heq ▸ List.mem_cons_self)
    exact absurd hplus (by decide)
  · rw [hvalue]
    rfl

/-- **A fingerprint names its trace and its stage.** -/
theorem parseFingerprint_stage (t : TraceID) (k : Nat) :
    parseFingerprint (stageFingerprint t k) = (t.text, (k : Int)) := by
  have hchars : (stageFingerprint t k).toList.reverse =
      (toString k).toList.reverse ++ '#' :: t.text.toList.reverse := by
    simp [stageFingerprint, String.toList_append]
  have hdigits : ∀ c ∈ (toString k).toList.reverse, (decide (c ≠ '#')) = true := by
    intro c hc
    have hdigit := isDigit_of_mem_toString (List.mem_reverse.1 hc)
    by_contra hhash
    have heq : c = '#' := by simpa using hhash
    rw [heq] at hdigit
    exact absurd hdigit (by decide)
  have hatoi := atoi_toString k
  rw [toList_toString] at hatoi
  unfold parseFingerprint
  rw [hchars, List.takeWhile_append_of_pos hdigits, List.dropWhile_append_of_pos hdigits]
  simp [hatoi]

theorem parseFingerprint_bare (t : TraceID) : parseFingerprint t.text = (t.text, 0) := by
  have hnone : t.text.toList.reverse.dropWhile (· ≠ '#') = [] := by
    rw [List.dropWhile_eq_nil_iff]
    intro c hc
    have hne : c ≠ '#' := fun h => t.not_hash (h ▸ List.mem_reverse.1 hc)
    simpa using hne
  unfold parseFingerprint
  rw [hnone]

theorem splitPart_stage (t : TraceID) (k : Nat) : splitPart (stageFingerprint t k) = t.text := by
  have hchars : (stageFingerprint t k).toList = t.text.toList ++ '#' :: (toString k).toList := by
    simp [stageFingerprint, String.toList_append]
  have htext : ∀ c ∈ t.text.toList, (decide (c ≠ '#')) = true := by
    intro c hc
    have hne : c ≠ '#' := fun h => t.not_hash (h ▸ hc)
    simpa using hne
  unfold splitPart
  rw [hchars, List.takeWhile_append_of_pos htext]
  simp

theorem splitPart_bare (t : TraceID) : splitPart t.text = t.text := by
  have htext : t.text.toList.takeWhile (· ≠ '#') = t.text.toList := by
    rw [List.takeWhile_eq_self_iff]
    intro c hc
    have hne : c ≠ '#' := fun h => t.not_hash (h ▸ hc)
    simpa using hne
  unfold splitPart
  rw [htext, String.ofList_toList]

/-- The fingerprint names a trace, alone or with a stage. -/
def NamesTrace (fp : String) : Prop :=
  ∃ t : TraceID, fp = t.text ∨ ∃ k, fp = stageFingerprint t k

/-- Ids are used once, one instance at most fires for a rule and a fingerprint, and every
fingerprint names a trace. -/
structure State.Sound (s : State) : Prop where
  keyed : s.alerts.Keyed
  oneFiring : s.alerts.OneFiring
  named : ∀ i ∈ s.alerts.instances, NamesTrace i.fingerprint

variable {stages : List (EffectiveStage × Bool × Int)} {fp : String} {i : AlertInstance}
  {prevTs : Int} {spec : RuleSpec} {rule : Rule}

theorem splitPart_eq (h : NamesTrace fp) : splitPart fp = (parseFingerprint fp).1 := by
  obtain ⟨t, rfl | ⟨k, rfl⟩⟩ := h
  · rw [splitPart_bare, parseFingerprint_bare]
  · rw [splitPart_stage, parseFingerprint_stage]

section Alerts

variable {t : Alerting.State}

theorem updateInstances_sound {p : AlertInstance → Bool} {f : AlertInstance → AlertInstance}
    (hf : ∀ i, SameInstance i (f i)) {s : State} (h : s.Sound) :
    State.Sound { s with alerts :=
      { s.alerts with instances := updateWhere p f s.alerts.instances } } where
  keyed := h.keyed.updateInstances fun i => (hf i).id
  oneFiring := h.oneFiring.opensNone (opensNone_updateInstances hf)
  named := by
    intro i hi
    obtain ⟨i₀, hi₀, ⟨_, rfl⟩ | ⟨_, rfl⟩⟩ := mem_updateWhere.1 hi
    · rw [(hf i₀).fingerprint]
      exact h.named i₀ hi₀
    · exact h.named i hi₀

theorem State.Sound.congr {s s' : State} (h : s.Sound)
    (hinst : s'.alerts.instances = s.alerts.instances) (hjobs : s'.alerts.jobs = s.alerts.jobs)
    (hnext : s'.alerts.nextID = s.alerts.nextID) : s'.Sound where
  keyed := h.keyed.congr hinst hjobs hnext
  oneFiring := h.oneFiring.opensNone (.of_instances hinst)
  named := by
    rw [hinst]
    exact h.named

theorem State.Sound.fireDelayed {s : State} (h : s.Sound) (fault : Fault) (rule : AlertRule)
    (integrationID : UUID) {fp : String} (hfp : NamesTrace fp) :
    State.Sound { s with alerts := s.alerts.fireDelayed fault rule integrationID fp } := by
  rcases s.alerts.fireDelayed_cases fault rule integrationID fp with
    ⟨active, _, heq⟩ | ⟨w, hnone, _, heq⟩ | ⟨hnone, _, heq⟩
  · rw [heq]
    exact updateInstances_sound (fun i => sameInstance_touched i _) h
  all_goals
    have hopened : State.Sound { s with alerts := (s.alerts.openInstance rule.id fp none).2 } :=
      { keyed := h.keyed.openInstance rule.id fp none
        oneFiring := h.oneFiring.opensAtMost (opensAtMost_openInstance hnone)
        named := by
          intro i hi
          rcases List.mem_append.1 hi with hold | hnew
          · exact h.named i hold
          · rw [List.mem_singleton.1 hnew]
            exact hfp }
    rw [heq]
  · exact updateInstances_sound (fun i => sameInstance_stamped i _) hopened
  · exact
      { keyed := hopened.keyed.enqueueJobs fault _ _ _
        oneFiring := hopened.oneFiring.opensNone
          (.of_instances (enqueueJobs_instances _ _ _ _ _))
        named := by
          rw [enqueueJobs_instances]
          exact hopened.named }

theorem State.Sound.evaluateRule {s : State} (h : s.Sound) (faults : String → Fault)
    (fireFails : String → Bool) (rule : Rule) : (s.evaluateRule faults fireFails rule).Sound := by
  unfold State.evaluateRule
  dsimp only
  generalize (s.delayed rule).filter _ = delayed
  induction delayed generalizing s with
  | nil => exact h
  | cons c rest ih =>
    exact ih (h.fireDelayed (faults (stageFingerprint c.traceID c.delayedStage))
      rule.alertRule rule.integrationID ⟨c.traceID, .inr ⟨c.delayedStage, rfl⟩⟩)

/-! ## What the sweep resolves -/

/-- `resolveStageFiring` for each of the fingerprints. -/
def resolveAll (t : Alerting.State) (ruleID : UUID) (fps : List String) : Alerting.State :=
  fps.foldl (fun t fp => t.resolveStageFiring ruleID fp) t

/-- The row after a sweep that resolves these fingerprints. -/
def resolvedIf (now : Time) (ruleID : UUID) (fps : List String) (i : AlertInstance) :
    AlertInstance :=
  if i.alertRuleID = ruleID ∧ i.state = .firing ∧ i.fingerprint ∈ fps then
    { i with state := .resolved, endedAt := some now, lastEvaluatedAt := now }
  else i

theorem instances_resolveStageFiring (hkeyed : t.Keyed) (hone : t.OneFiring) (ruleID : UUID)
    (fp : String) :
    (t.resolveStageFiring ruleID fp).instances =
      t.instances.map (resolvedIf t.world.now ruleID [fp]) := by
  unfold resolveStageFiring
  cases hactive : t.activeInstance ruleID fp with
  | none =>
    have hsame : ∀ i ∈ t.instances, resolvedIf t.world.now ruleID [fp] i = i := by
      intro i hi
      refine if_neg ?_
      rintro ⟨hrule, hfiring, hfp⟩
      exact activeInstance_eq_none hactive hi hrule (List.mem_singleton.1 hfp) hfiring
    rw [List.map_congr_left hsame, List.map_id']
  | some active =>
    obtain ⟨hmem, hrule, hfp, hstate⟩ := mem_of_activeInstance hactive
    refine List.map_congr_left fun i hi => ?_
    have hiff : (decide (i.id = active.id) && true) = true ↔
        i.alertRuleID = ruleID ∧ i.state = .firing ∧ i.fingerprint ∈ [fp] := by
      simp only [Bool.and_true, decide_eq_true_eq, List.mem_singleton]
      constructor
      · intro hid
        rw [eq_of_key_eq hkeyed.ids hi hmem hid]
        exact ⟨hrule, hstate, hfp⟩
      · rintro ⟨hr, hs, hf⟩
        exact hone i hi active hmem hs hstate (hr.trans hrule.symm) (hf.trans hfp.symm)
    unfold resolvedIf
    by_cases h : i.alertRuleID = ruleID ∧ i.state = .firing ∧ i.fingerprint ∈ [fp]
    · rw [if_pos (hiff.2 h), if_pos h]
    · rw [if_neg (fun hid => h (hiff.1 hid)), if_neg h]

theorem resolveStageFiring_world (t : Alerting.State) (ruleID : UUID) (fp : String) :
    (t.resolveStageFiring ruleID fp).world = t.world := by
  rcases t.resolveStageFiring_cases ruleID fp with heq | ⟨active, _, heq⟩
  · rw [heq]
  · rw [heq]
    rfl

theorem resolvedIf_cons (now : Time) (ruleID : UUID) (fp : String) (fps : List String)
    (i : AlertInstance) :
    resolvedIf now ruleID fps (resolvedIf now ruleID [fp] i) =
      resolvedIf now ruleID (fp :: fps) i := by
  unfold resolvedIf
  by_cases hrow : i.alertRuleID = ruleID ∧ i.state = .firing ∧ i.fingerprint = fp
  · simp [hrow]
  have hskip : ¬ (i.alertRuleID = ruleID ∧ i.state = .firing ∧ i.fingerprint ∈ [fp]) := by
    simpa using hrow
  rw [if_neg hskip]
  refine if_congr ?_ rfl rfl
  constructor
  · rintro ⟨hr, hs, hmem⟩
    exact ⟨hr, hs, List.mem_cons_of_mem _ hmem⟩
  · rintro ⟨hr, hs, hmem⟩
    exact ⟨hr, hs, (List.mem_cons.1 hmem).resolve_left fun hfp => hrow ⟨hr, hs, hfp⟩⟩

/-- **A sweep resolves the firing instances of its fingerprints and no other.** -/
theorem instances_resolveAll (hkeyed : t.Keyed) (hone : t.OneFiring) (ruleID : UUID)
    (fps : List String) :
    (resolveAll t ruleID fps).instances = t.instances.map (resolvedIf t.world.now ruleID fps) := by
  induction fps generalizing t with
  | nil =>
    have hsame : ∀ i ∈ t.instances, resolvedIf t.world.now ruleID [] i = i := by
      intro i _
      exact if_neg fun h => (nomatch h.2.2)
    rw [List.map_congr_left hsame, List.map_id']
    rfl
  | cons fp fps ih =>
    have hnone : OpensNone t (t.resolveStageFiring ruleID fp) := by
      rcases t.resolveStageFiring_cases ruleID fp with heq | ⟨active, _, heq⟩
      · rw [heq]
        exact OpensNone.refl t
      · rw [heq]
        exact opensNone_updateInstances fun i => sameInstance_resolved i _
    have hkeyed' : (t.resolveStageFiring ruleID fp).Keyed := by
      rcases t.resolveStageFiring_cases ruleID fp with heq | ⟨active, _, heq⟩
      · rwa [heq]
      · rw [heq]
        exact hkeyed.updateInstances fun _ => rfl
    have hrest := ih hkeyed' (hone.opensNone hnone)
    show (resolveAll (t.resolveStageFiring ruleID fp) ruleID fps).instances = _
    rw [hrest, instances_resolveStageFiring hkeyed hone, resolveStageFiring_world, List.map_map]
    exact List.map_congr_left fun i _ => resolvedIf_cons _ _ _ _ i

end Alerts

/-- The fingerprints a sweep resolves, stage by stage. -/
def State.dueFingerprints (s : State) (closedFails : Nat → Bool)
    (resolveFails : String → Bool) (rule : Rule) : List String :=
  rule.spec.effectiveStages.zipIdx.flatMap fun (st, i) =>
    if closedFails (i + 1) then []
    else
      (dueFirings s.spans resolveFails
        ((openFirings s.alerts rule.alertRule.id).filter fun of =>
          of.sweptStage rule.spec.effectiveStages.length = i + 1) st).map
        OpenFiring.fingerprint

theorem State.sweepRule_eq (s : State) (closedFails : Nat → Bool)
    (resolveFails : String → Bool) (rule : Rule) :
    s.sweepRule closedFails resolveFails rule =
      { s with
        alerts := resolveAll s.alerts rule.alertRule.id
          (s.dueFingerprints closedFails resolveFails rule) } := by
  have hstep : ∀ (t : Alerting.State) (b : EffectiveStage × Nat),
      (if closedFails (b.2 + 1) then t
        else (dueFirings s.spans resolveFails
          ((openFirings s.alerts rule.alertRule.id).filter fun of =>
            of.sweptStage rule.spec.effectiveStages.length = b.2 + 1) b.1).foldl
          (fun t of => t.resolveStageFiring rule.alertRule.id of.fingerprint) t) =
      (if closedFails (b.2 + 1) then []
        else (dueFirings s.spans resolveFails
          ((openFirings s.alerts rule.alertRule.id).filter fun of =>
            of.sweptStage rule.spec.effectiveStages.length = b.2 + 1) b.1).map
          OpenFiring.fingerprint).foldl
        (fun t fp => t.resolveStageFiring rule.alertRule.id fp) t := by
    intro t b
    split
    · rfl
    · rw [List.foldl_map]
  unfold sweepRule dueFingerprints resolveAll
  rw [List.foldl_flatMap]
  simp only [hstep]

def Reached (spec : RuleSpec) (spans : List Span) (traceID : String) (stage : Int) : Prop :=
  ∃ (k : Nat) (st : EffectiveStage), spec.effectiveStages[k]? = some st ∧ stage = k + 1 ∧
    ∃ sp ∈ spans, sp.traceID.text = traceID ∧ sp.spanName ∈ st.spanNames

/-- The stage that a fingerprint stands for under a rule. -/
def stalledStage (spec : RuleSpec) (fp : String) : Int :=
  (openFiring fp).sweptStage spec.effectiveStages.length

theorem mem_openFirings {alerts : Alerting.State} {ruleID : UUID} {of : OpenFiring} :
    of ∈ openFirings alerts ruleID ↔ ∃ i ∈ alerts.instances, i.alertRuleID = ruleID ∧
      i.state = .firing ∧ of = openFiring i.fingerprint := by
  simp only [openFirings, List.mem_map, List.mem_filter, Bool.and_eq_true, decide_eq_true_eq]
  constructor
  · rintro ⟨i, ⟨hi, hrule, hfiring⟩, rfl⟩
    exact ⟨i, hi, hrule, hfiring, rfl⟩
  · rintro ⟨i, hi, hrule, hfiring, rfl⟩
    exact ⟨i, ⟨hi, hrule, hfiring⟩, rfl⟩

variable {services : List String} {since now until_ : Int} {spans : List Span}

theorem mem_findClosedTraces {spanNames traceIDs : List String} {traceID : String} :
    traceID ∈ findClosedTraces spanNames traceIDs spans ↔ traceID ∈ traceIDs ∧
      ∃ sp ∈ spans, sp.traceID.text = traceID ∧ sp.spanName ∈ spanNames := by
  simp only [findClosedTraces, List.mem_map, List.mem_filter, Bool.and_eq_true, decide_eq_true_eq]
  constructor
  · rintro ⟨sp, ⟨hsp, hmem, hname⟩, rfl⟩
    exact ⟨hmem, sp, hsp, rfl, hname⟩
  · rintro ⟨hmem, sp, hsp, rfl, hname⟩
    exact ⟨sp, ⟨hsp, hmem, hname⟩, rfl⟩

variable {s : State} {a : TraceAgg}

/-- **The sweep resolves on evidence only**, whichever calls fail: the firing's stage is one
of the rule's, and a span of it has been recorded. -/
theorem State.reached_of_due {closedFails : Nat → Bool} {resolveFails : String → Bool}
    (h : fp ∈ s.dueFingerprints closedFails resolveFails rule) :
    Reached rule.spec s.spans (parseFingerprint fp).1 (stalledStage rule.spec fp) := by
  simp only [dueFingerprints, List.mem_flatMap] at h
  obtain ⟨⟨st, k⟩, hst, hdue⟩ := h
  split at hdue
  · cases hdue
  obtain ⟨of, hof, rfl⟩ := List.mem_map.1 hdue
  obtain ⟨hlisted, hclosed⟩ := List.mem_filter.1 hof
  obtain ⟨hopen, hstage⟩ := List.mem_filter.1 hlisted
  obtain ⟨i, _, _, _, rfl⟩ := mem_openFirings.1 hopen
  simp only [Bool.and_eq_true, decide_eq_true_eq] at hclosed
  exact ⟨k, st, List.mem_zipIdx_iff_getElem?.1 hst, of_decide_eq_true hstage,
    (mem_findClosedTraces.1 hclosed.1).2⟩

theorem State.mem_dueFingerprints (s : State) (rule : Rule) (hi : i ∈ s.alerts.instances)
    (hrule : i.alertRuleID = rule.alertRule.id) (hfiring : i.state = .firing) :
    i.fingerprint ∈ s.dueFingerprints (fun _ => false) (fun _ => false) rule ↔
      Reached rule.spec s.spans (parseFingerprint i.fingerprint).1
        (stalledStage rule.spec i.fingerprint) := by
  refine ⟨reached_of_due, ?_⟩
  rintro ⟨k, st, hst, hstage, hspan⟩
  have hopen : openFiring i.fingerprint ∈ (openFirings s.alerts rule.alertRule.id).filter
      fun of => of.sweptStage rule.spec.effectiveStages.length = (k : Int) + 1 :=
    List.mem_filter.2 ⟨mem_openFirings.2 ⟨i, hi, hrule, hfiring, rfl⟩, decide_eq_true hstage⟩
  have hclosed := mem_findClosedTraces.2
    ⟨List.mem_map_of_mem (f := OpenFiring.traceID) hopen, hspan⟩
  refine List.mem_flatMap.2 ⟨(st, k), List.mem_zipIdx_iff_getElem?.2 hst, ?_⟩
  refine List.mem_map.2 ⟨openFiring i.fingerprint, List.mem_filter.2 ⟨hopen, ?_⟩, rfl⟩
  simpa using hclosed

theorem State.Sound.sweepRule (h : s.Sound) (closedFails : Nat → Bool)
    (resolveFails : String → Bool) (rule : Rule) :
    (s.sweepRule closedFails resolveFails rule).Sound := by
  rw [s.sweepRule_eq]
  generalize s.dueFingerprints closedFails resolveFails rule = fps
  unfold resolveAll
  induction fps generalizing s with
  | nil => exact h
  | cons fp fps ih =>
    refine ih (s := { s with alerts := s.alerts.resolveStageFiring rule.alertRule.id fp }) ?_
    rcases s.alerts.resolveStageFiring_cases rule.alertRule.id fp with heq | ⟨active, _, heq⟩
    · rw [heq]
      exact h
    · rw [heq]
      exact updateInstances_sound (fun i => sameInstance_resolved i _) h

/-- **Step lemma.** -/
theorem State.Sound.step (h : s.Sound) (a : Action) : (s.step a).Sound := by
  cases a with
  | arrive | advance | setWindows | setServices | load => exact h.congr rfl rfl rfl
  | createRule rule spec =>
    simp only [State.step]
    split
    · exact h
    · exact h.congr rfl rfl rfl
  | updateRule rule spec =>
    simp only [State.step]
    split
    · exact h
    · exact h.congr rfl rfl rfl
  | handleFiring instanceID =>
    exact updateInstances_sound (fun i => sameInstance_acknowledged i _) h
  | resolveManual instanceID =>
    exact updateInstances_sound (fun i => sameInstance_closed i _) h
  | evaluateRule k faults fireFails =>
    simp only [State.step]
    split
    · exact h.evaluateRule faults fireFails _
    · exact h
  | sweepRule k closedFails resolveFails =>
    simp only [State.step]
    split
    · exact h.sweepRule closedFails resolveFails _
    · exact h

theorem State.Sound.run (h : s.Sound) (as : List Action) : (run State.step s as).Sound := by
  induction as generalizing s with
  | nil => exact h
  | cons a as ih => exact ih (h.step a)

/-! ## A completed trace -/

theorem hasSpan_eq_true {names : List String} {rows : List Span} :
    hasSpan names rows ↔ ∃ sp ∈ rows, sp.spanName ∈ names := by
  simp [hasSpan]

theorem reached_of_hasStage {spans' : List Span}
    (ha : a ∈ scanTraces spec services since until_ spans) (hspans : spans ⊆ spans') {k : Nat}
    (hk : a.hasStage[k]? = some true) : Reached spec spans' a.traceID.text (k + 1) := by
  obtain ⟨t, _, rfl⟩ := List.mem_map.1 (List.mem_filter.1 ha).1
  simp only [aggregate, List.getElem?_map, Option.map_eq_some_iff] at hk
  obtain ⟨st, hst, hseen⟩ := hk
  obtain ⟨sp, hsp, hname⟩ := hasSpan_eq_true.1 hseen
  obtain ⟨hrow, htrace⟩ := List.mem_filter.1 hsp
  refine ⟨k, st, hst, rfl, sp, hspans (List.mem_filter.1 hrow).1, ?_, hname⟩
  rw [of_decide_eq_true htrace]
  rfl

/-- What the loop of `classify` returns is not completed. -/
theorem classifyFrom_ne_completed {i : Nat} {c : TraceClassification}
    (h : classifyFrom a now i prevTs stages = some c) : c.state ≠ .completed := by
  induction stages generalizing i prevTs with
  | nil => cases h
  | cons x rest ih =>
    obtain ⟨st, seen, seenAt⟩ := x
    rw [classifyFrom] at h
    split at h
    · exact ih h
    · obtain rfl := Option.some.inj h
      dsimp only
      split <;> simp

theorem seen_of_classifyFrom_none {i : Nat} (h : classifyFrom a now i prevTs stages = none) :
    ∀ x ∈ stages, x.2.1 := by
  induction stages generalizing i prevTs with
  | nil => exact fun _ hx => (nomatch hx)
  | cons x rest ih =>
    obtain ⟨st, seen, seenAt⟩ := x
    rw [classifyFrom] at h
    split at h
    · next hseen =>
      intro y hy
      rcases List.mem_cons.1 hy with rfl | hrest
      · exact hseen
      · exact ih h y hrest
    · cases h

/-- **A trace is completed by its final stage.** -/
theorem hasStage_getLast_of_completed (ha : a ∈ scanTraces spec services since until_ spans)
    (hdone : (classify spec a now).state = .completed) : a.hasStage.getLast? = some true := by
  obtain ⟨t, _, rfl⟩ := List.mem_map.1 (List.mem_filter.1 ha).1
  generalize hagg : aggregate spec t (ofTrace t (scanned services since until_ spans)) = a at hdone
  have hseen : a.hasStage.length = spec.effectiveStages.length := by
    rw [← hagg]
    simp [aggregate]
  have hat : a.stageAt.length = spec.effectiveStages.length := by
    rw [← hagg]
    simp [aggregate]
  unfold classify at hdone
  dsimp only at hdone
  split at hdone
  · cases hdone
  · next hne =>
    cases hb : a.hasStage.getLast? with
    | none =>
      rw [List.getLast?_eq_none_iff] at hb
      rw [hb] at hseen
      exact absurd (List.length_eq_zero_iff.1 hseen.symm) hne
    | some b =>
    cases b with
    | true => rfl
    | false =>
      rw [hb] at hdone
      simp only [Option.getD_some, Bool.false_eq_true, if_false] at hdone
      cases hloop : classifyFrom a now 0 (stageBaseline spec a)
          (spec.effectiveStages.zip (a.hasStage.zip a.stageAt)) with
      | some c =>
        rw [hloop] at hdone
        exact absurd hdone (classifyFrom_ne_completed hloop)
      | none =>
        have hall := seen_of_classifyFrom_none hloop
        -- what was seen of each stage, read off the zip
        have hmap : (spec.effectiveStages.zip (a.hasStage.zip a.stageAt)).map
            (fun x => x.2.1) = a.hasStage := by
          rw [show (fun x : EffectiveStage × Bool × Int => x.2.1) =
              Prod.fst ∘ Prod.snd from rfl, ← List.map_map,
            List.map_snd_zip (by simp [hseen, hat]), List.map_fst_zip (by omega)]
        have hmem : false ∈ a.hasStage := List.mem_of_getLast? hb
        rw [← hmap] at hmem
        obtain ⟨x, hx, hfalse⟩ := List.mem_map.1 hmem
        rw [hall x hx] at hfalse
        cases hfalse

/-! ## Closing what was opened -/

def State.Resolved (s : State) (instanceID : UUID) : Prop :=
  ∃ i ∈ s.alerts.instances, i.id = instanceID ∧ i.state = .resolved

/-- A sweep of the rule leaves open, of one trace, the firings whose stage has no recorded
span or is not the rule's any more. -/
structure State.ClosesReached (s : State) (rule : Rule) (a : TraceAgg) : Prop where
  final : Reached rule.spec s.spans a.traceID.text rule.spec.effectiveStages.length
  seen : ∀ k : Nat, a.hasStage[k]? = some true → Reached rule.spec s.spans a.traceID.text (k + 1)
  resolves : ∀ i ∈ s.alerts.instances, i.alertRuleID = rule.alertRule.id → i.state = .firing →
    (parseFingerprint i.fingerprint).1 = a.traceID.text →
    ((s.sweepRule (fun _ => false) (fun _ => false) rule).Resolved i.id ↔
      Reached rule.spec s.spans a.traceID.text (stalledStage rule.spec i.fingerprint))
  counts : ∀ integrationID, a.traceID.text ∈
      (s.sweepRule (fun _ => false) (fun _ => false) rule).openDelayedTraceIDs integrationID →
    ∃ i ∈ s.alerts.instances, i.state = .firing ∧ i.handledAt = none ∧
      (parseFingerprint i.fingerprint).1 = a.traceID.text ∧
      (i.alertRuleID = rule.alertRule.id →
        ¬ Reached rule.spec s.spans a.traceID.text (stalledStage rule.spec i.fingerprint))

theorem State.Sound.resolved_sweepRule (h : s.Sound) (rule : Rule) (hi : i ∈ s.alerts.instances)
    (hrule : i.alertRuleID = rule.alertRule.id) (hfiring : i.state = .firing) :
    (s.sweepRule (fun _ => false) (fun _ => false) rule).Resolved i.id ↔
      i.fingerprint ∈ s.dueFingerprints (fun _ => false) (fun _ => false) rule := by
  have hrows : (s.sweepRule (fun _ => false) (fun _ => false) rule).alerts.instances =
      s.alerts.instances.map (resolvedIf s.alerts.world.now rule.alertRule.id
        (s.dueFingerprints (fun _ => false) (fun _ => false) rule)) := by
    rw [s.sweepRule_eq]
    exact instances_resolveAll h.keyed h.oneFiring _ _
  unfold State.Resolved
  rw [hrows]
  constructor
  · rintro ⟨i', hi', hid, hstate⟩
    obtain ⟨i₀, hi₀, rfl⟩ := List.mem_map.1 hi'
    by_contra hnot
    unfold resolvedIf at hid hstate
    split at hstate
    · next hdue =>
      rw [if_pos hdue] at hid
      obtain rfl := eq_of_key_eq h.keyed.ids hi₀ hi hid
      exact hnot hdue.2.2
    · next hdue =>
      rw [if_neg hdue] at hid
      obtain rfl := eq_of_key_eq h.keyed.ids hi₀ hi hid
      rw [hfiring] at hstate
      cases hstate
  · intro hdue
    refine ⟨_, List.mem_map_of_mem hi, ?_, ?_⟩
    · rw [resolvedIf, if_pos ⟨hrule, hfiring, hdue⟩]
    · rw [resolvedIf, if_pos ⟨hrule, hfiring, hdue⟩]

theorem State.Sound.closesReached (h : s.Sound) (hspans : spans ⊆ s.spans)
    (ha : a ∈ scanTraces rule.spec services since until_ spans)
    (hdone : (classify rule.spec a now).state = .completed) : s.ClosesReached rule a := by
  have hseen : ∀ k : Nat, a.hasStage[k]? = some true →
      Reached rule.spec s.spans a.traceID.text (k + 1) :=
    fun k hk => reached_of_hasStage ha hspans hk
  exact
    { seen := hseen
      final := by
        have hlast := hasStage_getLast_of_completed ha hdone
        have hlen : a.hasStage.length = rule.spec.effectiveStages.length := by
          obtain ⟨t, _, rfl⟩ := List.mem_map.1 (List.mem_filter.1 ha).1
          simp [aggregate]
        have hpos : 0 < a.hasStage.length :=
          List.length_pos_of_mem (List.mem_of_getLast? hlast)
        rw [List.getLast?_eq_getElem?] at hlast
        have hreached := hseen _ hlast
        rwa [show ((a.hasStage.length - 1 : Nat) : Int) + 1 =
          (rule.spec.effectiveStages.length : Int) by omega] at hreached
      resolves := by
        intro i hi hrule hfiring htrace
        rw [h.resolved_sweepRule rule hi hrule hfiring, s.mem_dueFingerprints rule hi hrule hfiring,
          htrace]
      counts := by
        intro integrationID hcount
        simp only [openDelayedTraceIDs, List.mem_dedup, List.mem_map, List.mem_filter,
          Bool.and_eq_true, decide_eq_true_eq] at hcount
        obtain ⟨i', ⟨hi', ⟨hfiring, hunhandled⟩, _⟩, htrace⟩ := hcount
        rw [s.sweepRule_eq] at hi'
        rw [instances_resolveAll h.keyed h.oneFiring] at hi'
        obtain ⟨i, hi, rfl⟩ := List.mem_map.1 hi'
        unfold resolvedIf at hfiring hunhandled htrace
        split at hfiring
        · cases hfiring
        · next hnot =>
          rw [if_neg hnot] at hunhandled htrace
          rw [splitPart_eq (h.named i hi)] at htrace
          refine ⟨i, hi, hfiring, by simpa using hunhandled, htrace, fun hrule hreached => ?_⟩
          rw [← htrace] at hreached
          exact hnot ⟨hrule, hfiring, (s.mem_dueFingerprints rule hi hrule hfiring).2 hreached⟩ }

/-- **Completed traces close on evidence.**  In every state a run reaches, of a trace that a
scan of the spans so far has found completed, a sweep resolves exactly the firings whose
stage has a recorded span, the final stage's among them, and the trace is counted as
delayed only for another firing. -/
theorem sweep_closes_reached (s₀ : State) (h₀ : s₀.Sound) (as : List Action) (rule : Rule)
    (services : List String) (since until_ now : Int) (spans : List Span)
    (hspans : spans ⊆ (run State.step s₀ as).spans) (a : TraceAgg)
    (ha : a ∈ scanTraces rule.spec services since until_ spans)
    (hdone : (classify rule.spec a now).state = .completed) :
    (run State.step s₀ as).ClosesReached rule a :=
  (h₀.run as).closesReached hspans ha hdone

theorem State.sound_init (w : World) (specs : UUID → RuleSpec) (services : UUID → List String) :
    State.Sound { alerts := { world := w }, specs := specs, services := services } where
  keyed := keyed_init w
  oneFiring := fun _ hi => (nomatch hi)
  named := fun _ hi => (nomatch hi)

/-- **What is counted as delayed.**  In every state a run reaches, the ids listed for an
integration are those of the traces for which an instance of one of its rules is firing
and unhandled, at whatever stage. -/
theorem mem_openDelayedTraceIDs (w : World) (specs : UUID → RuleSpec)
    (services : UUID → List String) (as : List Action) (integrationID : UUID) (id : String) :
    let s := run State.step { alerts := { world := w }, specs := specs, services := services } as
    id ∈ s.openDelayedTraceIDs integrationID ↔
      ∃ t : TraceID, t.text = id ∧ ∃ i ∈ s.alerts.instances,
        (i.fingerprint = t.text ∨ ∃ k, i.fingerprint = stageFingerprint t k) ∧
        i.state = .firing ∧ i.handledAt = none ∧ ∃ r ∈ s.alerts.world.rules,
          r.id = i.alertRuleID ∧ r.integrationID = some integrationID ∧
            r.spec = .traceCompletion := by
  intro s
  have hsound : s.Sound := (sound_init w specs services).run as
  simp only [openDelayedTraceIDs, List.mem_dedup, List.mem_map, List.mem_filter,
    Bool.and_eq_true, decide_eq_true_eq, Option.isNone_iff_eq_none, List.any_eq_true]
  constructor
  · rintro ⟨i, ⟨hi, ⟨hfiring, hunhandled⟩, r, hr, ⟨hid, hint⟩, hspec⟩, rfl⟩
    obtain ⟨t, hfp⟩ := hsound.named i hi
    refine ⟨t, ?_, i, hi, hfp, hfiring, hunhandled, r, hr, hid, hint, hspec⟩
    obtain hfp | ⟨k, hfp⟩ := hfp
    · rw [hfp, splitPart_bare]
    · rw [hfp, splitPart_stage]
  · rintro ⟨t, rfl, i, hi, hfp, hfiring, hunhandled, r, hr, hid, hint, hspec⟩
    refine ⟨i, ⟨hi, ⟨hfiring, hunhandled⟩, r, hr, ⟨hid, hint⟩, hspec⟩, ?_⟩
    obtain hfp | ⟨k, hfp⟩ := hfp
    · rw [hfp, splitPart_bare]
    · rw [hfp, splitPart_stage]

private def pipeline : RuleSpec :=
  { startSpanName := "start", stages := [⟨["packed"], 60⟩, ⟨["shipped"], 60⟩]
    lookbackSeconds := 600 }

private def completionRule : AlertRule :=
  { id := 1, integrationID := some 7, spec := .traceCompletion }

private def emptyStore : State :=
  { alerts := { world := ⟨0, [], [], none, none, fun _ => false, 6 * hour⟩ }
    specs := fun _ => pipeline, services := fun _ => [] }

private def order : TraceID := ⟨"ab12", by decide +kernel⟩

private def orderSpan (name : String) (at_ : Int) : Span := ⟨order, name, "api", at_ * second⟩

/-- The order starts, is not packed for 100 s, and is found delayed at its first stage. -/
private def delayedOrder : List Action :=
  [.createRule completionRule pipeline, .setServices 7 ["api"], .advance 1000000000000,
    .arrive [orderSpan "start" 1000], .advance 100000000000, .load,
    .evaluateRule 0 (fun _ => none) fun _ => false]

private def orderRule (spec : RuleSpec) : Rule := ⟨completionRule, 7, spec.normalize⟩

private def packedAndShipped : List Action :=
  delayedOrder ++ [.arrive [orderSpan "packed" 1100, orderSpan "shipped" 1100]]

theorem sweep_closes_example :
    (run State.step emptyStore packedAndShipped).ClosesReached (orderRule pipeline)
      (aggregate pipeline.normalize order
        [orderSpan "start" 1000, orderSpan "packed" 1100, orderSpan "shipped" 1100]) :=
  sweep_closes_reached emptyStore (sound_init _ _ _) packedAndShipped (orderRule pipeline)
    ["api"] 0 (1100 * second) (1100 * second)
    [orderSpan "start" 1000, orderSpan "packed" 1100, orderSpan "shipped" 1100]
    (by decide +kernel) _ (by decide +kernel) (by decide +kernel)

/-- The rule is loaded, its scan finds the trace completed, and after the sweep it is
counted as delayed. -/
private def CountedThoughCompleted (s : State) (rule : Rule) : Prop :=
  rule ∈ s.rules ∧
  ∃ a ∈ scanTraces rule.spec (s.services 7) 0 s.alerts.world.now s.spans,
    (classify rule.spec a s.alerts.world.now).state = .completed ∧
    a.traceID.text ∈ (s.sweepRule (fun _ => false) (fun _ => false) rule).openDelayedTraceIDs 7

private def skipsStage : State :=
  run State.step emptyStore (delayedOrder ++ [.arrive [orderSpan "shipped" 1100], .load])

private def shorter : RuleSpec :=
  { pipeline with stages := [⟨["packed"], 60⟩] }

/-- It is packed, found delayed at the second stage, and the rule loses that stage. -/
private def losesStage : State :=
  run State.step emptyStore
    (delayedOrder ++ [.arrive [orderSpan "packed" 1100],
      .sweepRule 0 (fun _ => false) fun _ => false, .advance 100000000000, .load,
      .evaluateRule 0 (fun _ => none) fun _ => false, .updateRule completionRule shorter, .load])

/-- A firing for a stage that was skipped, or that the rule has lost, outlives the
trace's completion. -/
theorem completed_still_counted :
    CountedThoughCompleted skipsStage (orderRule pipeline) ∧
      CountedThoughCompleted losesStage (orderRule shorter) := by
  unfold CountedThoughCompleted
  constructor
  · decide +kernel
  · decide +kernel

end Sluicio.Tracecompletion
