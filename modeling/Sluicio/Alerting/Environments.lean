import Sluicio.Alerting.Tick

/-!
# Checks per environment

A loop gives each enabled rule its turn.  A pushed rule is evaluated over its whole
scope; any other one that is bound to an integration once for each environment of the
integration, after the instance of the whole scope has been retired.
-/

namespace Sluicio.Alerting

open Lib

def productionToken : String := "@production"

/-- The environment a fingerprint names: `substring(fingerprint from 5)` of one that
starts with `env:`. -/
def fingerprintEnvironment (fingerprint : String) : Option String :=
  match fingerprint.toList with
  | 'e' :: 'n' :: 'v' :: ':' :: env => some (String.ofList env)
  | _ => none

def State.firingEnvironments (s : State) (ruleID : UUID) : List String :=
  ((s.instances.filter fun i => i.alertRuleID = ruleID && i.state = .firing).filterMap
    fun i => fingerprintEnvironment i.fingerprint).dedup

/-- `environmentsFor`: the environments, and whether the rule is evaluated per
environment at all; `none` when the lister fails. -/
def State.environmentsFor (s : State) (lister : UUID → Option (List String))
    (integrationID : UUID) (rule : AlertRule) : Option (List String × Bool) :=
  let firing := s.firingEnvironments rule.id
  match rule.environmentMode with
  | .only =>
    let listed := rule.environments.filter (· ≠ productionToken)
    if productionToken ∈ rule.environments then
      match lister integrationID with
      | none => none
      | some known =>
        some ((firing ++ listed ++ known.filter s.world.isProduction).dedup.mergeSort, true)
    else some ((firing ++ listed).dedup.mergeSort, true)
  | .each =>
    match lister integrationID with
    | none => none
    | some known =>
      let set := (firing ++ known).dedup
      -- nothing but "(no environment)", and nothing open
      if firing = [] ∧ (set = [] ∨ set = [""]) then some ([], false)
      else some (set.mergeSort, true)

/-! ## A rule's turn -/

/-- `source = 'pushed'`, which only metric rules store. -/
def AlertRule.isPushed (rule : AlertRule) : Bool :=
  rule.spec.signal = .metric && rule.source = .pushed

/-- The evaluations of one rule over a list of environments. -/
def State.evaluateEach (s : State) (faults : Option String → Fault) (tel : Telemetry)
    (rule : AlertRule) (envs : List String) : State :=
  envs.foldl (fun s env => s.evaluate (faults (some env)) tel (some env) rule) s

def State.perEnvironment (s : State) (faults : Option String → Fault) (tel : Telemetry)
    (rule : AlertRule) : State :=
  match rule.integrationID, s.world.environments with
  | some integrationID, some lister =>
    match s.environmentsFor lister integrationID rule with
    | none => s
    | some (_, false) => s.evaluate (faults none) tel none rule
    | some (envs, true) => (s.retireLegacyInstance rule.id).evaluateEach faults tel rule envs
  | _, _ => s.evaluate (faults none) tel none rule

/-- The turn of an enabled rule in the loop that lists it. -/
def State.evaluateListed (s : State) (faults : Option String → Fault) (tel : Telemetry)
    (rule : AlertRule) : State :=
  if rule.spec = .traceCompletion then s
  else if rule.isPushed then s.evaluate (faults none) tel none rule
  else s.perEnvironment faults tel rule

/-- The fingerprints a turn of the rule looks at; `none` when its environments do not
resolve. -/
def State.visitedFingerprints (s : State) (rule : AlertRule) : Option (List String) :=
  if rule.spec = .traceCompletion then some []
  else if rule.isPushed then some [fingerprintFor none]
  else
    match rule.integrationID, s.world.environments with
    | some integrationID, some lister =>
      (s.environmentsFor lister integrationID rule).map fun
        | (_, false) => [fingerprintFor none]
        | (envs, true) => fingerprintFor none :: envs.map fun env => fingerprintFor (some env)
    | _, _ => some [fingerprintFor none]

@[simp] theorem fingerprintEnvironment_some (env : String) :
    fingerprintEnvironment (fingerprintFor (some env)) = some env := by
  simp [fingerprintEnvironment, fingerprintFor, String.toList_append, String.ofList_toList]

theorem State.mem_firingEnvironments {s : State} {i : AlertInstance} {env : String}
    (hi : i ∈ s.instances) (hfiring : i.state = .firing)
    (hfp : i.fingerprint = fingerprintFor (some env)) :
    env ∈ s.firingEnvironments i.alertRuleID := by
  refine List.mem_dedup.2 (List.mem_filterMap.2 ⟨i, ?_, ?_⟩)
  · simp [hi, hfiring]
  · rw [hfp, fingerprintEnvironment_some]

theorem State.mem_environmentsFor {s : State} {lister : UUID → Option (List String)}
    {integrationID : UUID} {rule : AlertRule} {envs : List String} {perEnv : Bool}
    (h : s.environmentsFor lister integrationID rule = some (envs, perEnv)) {env : String}
    (henv : env ∈ s.firingEnvironments rule.id) : perEnv ∧ env ∈ envs := by
  unfold State.environmentsFor at h
  dsimp only at h
  split at h
  · split at h
    · split at h
      · cases h
      · obtain ⟨rfl, rfl⟩ := Prod.mk.inj (Option.some.inj h)
        simp [henv]
    · obtain ⟨rfl, rfl⟩ := Prod.mk.inj (Option.some.inj h)
      simp [henv]
  · split at h
    · cases h
    · split at h
      · next hnone =>
        rw [hnone.1] at henv
        cases henv
      · obtain ⟨rfl, rfl⟩ := Prod.mk.inj (Option.some.inj h)
        simp [henv]

end Sluicio.Alerting
