import Sluicio.Alerting.Orphans

/-!
# The instances as a record

The rows of `alert_instances` are the history of what fired: they are opened, closed and
stamped, and as long as its rule is there nothing takes a row away or opens a closed one
again.  Here that is told of every run, whatever its statements fail at and whoever edits the
rules in between.
-/

namespace Sluicio.Alerting

open Lib

/-- `i'` is the row `i`, later. -/
structure Later (i i' : AlertInstance) : Prop where
  id : i'.id = i.id
  alertRuleID : i'.alertRuleID = i.alertRuleID
  fingerprint : i'.fingerprint = i.fingerprint
  startedAt : i'.startedAt = i.startedAt
  firing : i'.state = .firing → i.state = .firing
  unacked : i'.handledAt = none → i.handledAt = none

/-- Every row of `s` is in `t`, and if no two firing rows of `s` agreed on rule and
fingerprint, no two of `t` do. -/
structure Carried (s t : State) : Prop where
  rows : ∀ i ∈ s.instances, ∃ i' ∈ t.instances, Later i i'
  one : s.OneFiring → t.OneFiring

variable {s t u : State} {ruleID : UUID} {i' i : AlertInstance} {fingerprint : String}

theorem SameInstance.later (h : SameInstance i i') : Later i i' :=
  ⟨h.id, h.alertRuleID, h.fingerprint, h.startedAt, h.firing, h.unacked⟩

theorem SameRow.later (h : SameRow i i') : Later i i' :=
  ⟨h.id, h.alertRuleID, h.fingerprint, h.startedAt, fun hf => h.state ▸ hf,
    fun hu => h.handledAt ▸ hu⟩

theorem Later.trans {j k : AlertInstance} (h : Later i j) (h' : Later j k) : Later i k where
  id := h'.id.trans h.id
  alertRuleID := h'.alertRuleID.trans h.alertRuleID
  fingerprint := h'.fingerprint.trans h.fingerprint
  startedAt := h'.startedAt.trans h.startedAt
  firing := fun hf => h.firing (h'.firing hf)
  unacked := fun hu => h.unacked (h'.unacked hu)

theorem Carried.of_instances (h : t.instances = s.instances) : Carried s t where
  rows i hi := ⟨i, h ▸ hi, (SameInstance.refl i).later⟩
  one hone := hone.opensNone (.of_instances h)

theorem Carried.trans (h : Carried s t) (h' : Carried t u) : Carried s u where
  rows := by
    intro i hi
    obtain ⟨j, hj, hij⟩ := h.rows i hi
    obtain ⟨k, hk, hjk⟩ := h'.rows j hj
    exact ⟨k, hk, hij.trans hjk⟩
  one := fun hone => h'.one (h.one hone)

theorem carried_of_kept (hkept : RowsKept s t) (hopens : OpensAtMost s t ruleID fingerprint) :
    Carried s t where
  rows := by
    intro i hi
    obtain ⟨i', hi', hsame, -⟩ := hkept.rows i hi
    exact ⟨i', hi', hsame.later⟩
  one := fun hone => hone.opensAtMost hopens

theorem carried_updateInstances {p : AlertInstance → Bool} {f : AlertInstance → AlertInstance}
    (hf : ∀ i, SameInstance i (f i)) :
    Carried s { s with instances := updateWhere p f s.instances } where
  rows := by
    intro i hi
    cases hp : p i with
    | false => exact ⟨i, mem_updateWhere_of_not hi hp, (SameInstance.refl i).later⟩
    | true => exact ⟨f i, mem_updateWhere_of hi hp, (hf i).later⟩
  one := fun hone => hone.opensNone (opensNone_updateInstances hf)

theorem carried_openInstance {env : Option String}
    (hnone : s.activeInstance ruleID fingerprint = none) :
    Carried s (s.openInstance ruleID fingerprint env).2 where
  rows i hi := ⟨i, List.mem_append_left _ hi, (SameInstance.refl i).later⟩
  one hone := hone.opensAtMost (opensAtMost_openInstance hnone)

theorem carried_fireDelayed (fault : Fault) (rule : AlertRule) (integrationID : UUID)
    (fingerprint : String) : Carried s (s.fireDelayed fault rule integrationID fingerprint) := by
  rcases s.fireDelayed_cases fault rule integrationID fingerprint with
    ⟨active, _, heq⟩ | ⟨w, hnone, _, heq⟩ | ⟨hnone, _, heq⟩
  · rw [heq]
    exact carried_updateInstances fun i => sameInstance_touched i _
  · rw [heq]
    exact (carried_openInstance hnone).trans
      (carried_updateInstances fun i => sameInstance_stamped i _)
  · rw [heq]
    exact (carried_openInstance hnone).trans (.of_instances (State.enqueueJobs_instances _ _ _ _ _))

/-- **Step lemma.** -/
theorem carried_step (a : Action) : Carried s (s.step a) := by
  cases a with
  | evaluate fault tel ruleID env =>
    rcases s.step_evaluate_cases fault tel ruleID env with heq | ⟨rule, _, _, heq⟩
    · exact .of_instances (by rw [heq])
    · rw [heq]
      exact carried_of_kept (rowsKept_evaluate fault tel env rule)
        (opensAtMost_evaluate fault tel env rule)
  | fireDelayed fault ruleID fingerprint =>
    rcases s.step_fireDelayed_cases fault ruleID fingerprint with
      heq | ⟨rule, integrationID, _, _, _, _, heq⟩
    · exact .of_instances (by rw [heq])
    · rw [heq]
      exact carried_fireDelayed fault rule integrationID fingerprint
  | renotify faults insts =>
    rcases s.step_renotify_cases faults insts with heq | ⟨_, heq⟩
    · exact .of_instances (by rw [heq])
    · have hframe := tickFrame_renotifyOnce s faults insts
      rw [heq]
      refine ⟨fun i hi => ?_, fun hone => hone.opensNone (opensNone_tick hframe)⟩
      obtain ⟨i', hi', hsame⟩ := hframe.kept hi
      exact ⟨i', hi', hsame.later⟩
  | retireLegacy ruleID =>
    exact carried_of_kept (rowsKept_retireLegacy ruleID)
      ((opensNone_retireLegacy ruleID).atMost ruleID "")
  | resolveStageFiring ruleID fingerprint =>
    show Carried s (s.resolveStageFiring ruleID fingerprint)
    rcases s.resolveStageFiring_cases ruleID fingerprint with heq | ⟨active, _, heq⟩
    · exact .of_instances (by rw [heq])
    · rw [heq]
      exact carried_updateInstances fun i => sameInstance_resolved i _
  | acknowledge instanceID => exact carried_updateInstances fun i => sameInstance_acknowledged i _
  | resolveManual instanceID => exact carried_updateInstances fun i => sameInstance_closed i _
  | clearErrors service => exact carried_updateInstances fun i => sameInstance_closed i _
  | pushReading _ _ | advance _ | setWindows _ | setResolver _ | setEnvironments _
  | createRule _ | updateRule _ => exact .of_instances rfl

/-- **The record stands.**  In every run from an empty table each row that was once written is
still there, with its rule, its fingerprint and the time it was opened; a row that was closed
is not firing again, one that was acknowledged stays so; ids are used once; and no rule has two
rows firing for a fingerprint. -/
theorem record_stands (w : World) (pre as : List Action) :
    (∀ i ∈ (run State.step { world := w } pre).instances,
      ∃ i' ∈ (run State.step { world := w } (pre ++ as)).instances, Later i i') ∧
    ((run State.step { world := w } (pre ++ as)).instances.map (·.id)).Nodup ∧
    (run State.step { world := w } (pre ++ as)).OneFiring := by
  have hcarried (s : State) (as : List Action) : Carried s (run State.step s as) := by
    induction as generalizing s with
    | nil => exact .of_instances rfl
    | cons a as ih => exact (carried_step a).trans (ih (s.step a))
  have hsound : (run State.step { world := w } (pre ++ as)).Sound :=
    run_invariant (I := State.Sound) (fun _ a hs => hs.step a) _ (State.sound_init w)
  refine ⟨?_, hsound.keyed.ids, (hcarried _ _).one fun i hi => absurd hi List.not_mem_nil⟩
  rw [run_append]
  exact (hcarried _ as).rows

end Sluicio.Alerting
