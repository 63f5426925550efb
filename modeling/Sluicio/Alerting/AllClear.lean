import Sluicio.Alerting.Tick

/-!
# The all-clear

A recovery is announced for every instance that resolves by itself, unless the
instance was acknowledged or is stamped as muted.  What an announcement says about
earlier pages is an invariant of runs: an unstamped firing instance has been paged,
or was opened by an evaluation whose page would have gone nowhere.
-/

namespace Sluicio.Alerting

open Lib State

/-- What holds of firing instances: no recovery has been announced, and the
unstamped ones have been paged or satisfy `quiet`. -/
structure Told (quiet : UUID → Prop) (s : State) : Prop where
  keyed : s.Keyed
  silent : ∀ i ∈ s.instances, i.state = .firing → ¬ s.Notified i.id .resolved
  told : ∀ i ∈ s.instances, i.state = .firing → i.suppressedBy = none →
    s.Notified i.id .firing ∨ quiet i.id

section Told

variable {quiet : UUID → Prop} {s : State}

theorem Told.congr (h : Told quiet s) {t : State} (hinst : t.instances = s.instances)
    (hjobs : t.jobs = s.jobs) (hnext : t.nextID = s.nextID) : Told quiet t where
  keyed := h.keyed.congr hinst hjobs hnext
  silent := by
    rw [hinst]
    unfold State.Notified
    rw [hjobs]
    exact h.silent
  told := by
    rw [hinst]
    unfold State.Notified
    rw [hjobs]
    exact h.told

theorem Told.updateInstances (h : Told quiet s) {p : AlertInstance → Bool}
    {f : AlertInstance → AlertInstance} (hf : ∀ i, SameInstance i (f i)) :
    Told quiet { s with instances := updateWhere p f s.instances } where
  keyed := h.keyed.updateInstances fun i => (hf i).id
  silent := by
    intro i hi hfiring
    obtain ⟨i₀, hi₀, ⟨_, rfl⟩ | ⟨_, rfl⟩⟩ := mem_updateWhere.1 hi
    · rw [(hf i₀).id]
      exact h.silent i₀ hi₀ ((hf i₀).firing hfiring)
    · exact h.silent i hi₀ hfiring
  told := by
    intro i hi hfiring hstamp
    obtain ⟨i₀, hi₀, ⟨_, rfl⟩ | ⟨_, rfl⟩⟩ := mem_updateWhere.1 hi
    · rw [(hf i₀).id]
      exact h.told i₀ hi₀ ((hf i₀).firing hfiring) ((hf i₀).unstamped hstamp)
    · exact h.told i hi₀ hfiring hstamp

theorem Told.enqueueJobs (h : Told quiet s) (fault : Fault) (instanceID : UUID)
    (channelIDs : List UUID) (window : Duration) :
    Told quiet (s.enqueueJobs fault instanceID channelIDs window).2 where
  keyed := h.keyed.enqueueJobs fault instanceID channelIDs window
  silent := by
    intro i hi hfiring ⟨j, hj, hid, hstate⟩
    rw [enqueueJobs_instances] at hi
    rcases mem_jobs_enqueueJobs hj with hold | ⟨i', hi', hid', hinst, hfor, _⟩
    · exact h.silent i hi hfiring ⟨j, hold, hid, hstate⟩
    · -- the new job is for the state the instance is in, and it is firing
      have hsame : i' = i :=
        eq_of_key_eq h.keyed.ids hi' hi (hid'.trans (hinst.symm.trans hid))
      rw [hfor, hsame, hfiring] at hstate
      cases hstate
  told := by
    intro i hi hfiring hstamp
    rw [enqueueJobs_instances] at hi
    rcases h.told i hi hfiring hstamp with hpaged | hquiet
    · exact .inl (hpaged.enqueueJobs fault instanceID channelIDs window)
    · exact .inr hquiet

theorem Told.page (h : Told quiet s) (fault : Fault) (env : Option String) (instanceID : UUID)
    (rule : AlertRule) : Told quiet (s.page fault env instanceID rule) := by
  have hjobs := h.enqueueJobs fault instanceID (s.world.channelsFor env rule) s.world.deliveryWindow
  unfold State.page
  dsimp only
  split
  · exact hjobs.updateInstances fun i => sameInstance_notified i _
  · exact hjobs

theorem Told.refreshWindows (h : Told quiet s) : Told quiet s.refreshWindows :=
  h.congr s.refreshWindows_instances s.refreshWindows_jobs s.refreshWindows_nextID

theorem Told.markInstanceSuppressed (h : Told quiet s) (instanceID windowID : UUID) :
    Told quiet (s.markInstanceSuppressed instanceID windowID) :=
  h.updateInstances fun i => sameInstance_stamped i windowID

theorem Told.resolveInstance (h : Told quiet s) (instanceID : UUID) :
    Told quiet (s.resolveInstance instanceID) :=
  h.updateInstances fun i => sameInstance_resolved i s.world.now

theorem Told.touchInstance (h : Told quiet s) (instanceID : UUID) :
    Told quiet (s.touchInstance instanceID) :=
  h.updateInstances fun i => sameInstance_touched i s.world.now

theorem Told.renotifyOnce (h : Told quiet s) (faults : UUID → Fault)
    (insts : List FiringUnackedInstance) : Told quiet (s.renotifyOnce faults insts) := by
  refine renotifyOnce_invariant h h.refreshWindows fun t op _ ht => ?_
  cases op with
  | suppress instanceID windowID => exact ht.markInstanceSuppressed instanceID windowID
  | renotify it => exact ht.page _ _ _ _

theorem Told.resolveOrHold (h : Told quiet s) (fault : Fault) (env : Option String)
    (active : AlertInstance) (rule : AlertRule) :
    Told quiet (s.resolveOrHold fault env active rule) := by
  rcases s.resolveOrHold_cases fault env active rule with
    ⟨_, _, heq⟩ | ⟨_, _, heq⟩ | ⟨_, heq⟩
  · rw [heq]
    exact h.touchInstance active.id
  · rw [heq]
    exact (h.resolveInstance active.id).enqueueJobs _ _ _ _
  · rw [heq]
    exact h.resolveInstance active.id

theorem Told.opened (h : Told quiet s) (env : Option String) (rule : AlertRule) :
    Told (fun id => quiet id ∨ id = s.nextID) (s.opened env rule) := by
  have hopen : Told (fun id => quiet id ∨ id = s.nextID)
      (s.openInstance rule.id (fingerprintFor env) env).2 := by
    refine ⟨h.keyed.openInstance _ _ _, fun i hi hfiring => ?_, fun i hi hfiring hstamp => ?_⟩
    · rcases List.mem_append.1 hi with hold | hnew
      · exact h.silent i hold hfiring
      · obtain rfl := List.mem_singleton.1 hnew
        rintro ⟨j, hj, hid, _⟩
        exact absurd hid (Nat.ne_of_lt (h.keyed.jobs j hj))
    · rcases List.mem_append.1 hi with hold | hnew
      · exact (h.told i hold hfiring hstamp).imp_right .inl
      · obtain rfl := List.mem_singleton.1 hnew
        exact .inr (.inr rfl)
  exact hopen.refreshWindows

theorem Told.settle {n : UUID} (h : Told (fun id => quiet id ∨ id = n) s)
    (hn : ∀ i ∈ s.instances, i.id = n → i.suppressedBy = none →
      s.Notified n .firing ∨ quiet n) : Told quiet s := by
  refine ⟨h.keyed, h.silent, fun i hi hfiring hstamp => ?_⟩
  rcases h.told i hi hfiring hstamp with hpaged | hquiet | hid
  · exact .inl hpaged
  · exact .inr hquiet
  · rw [hid]
    exact hn i hi hid hstamp

theorem State.mem_openFiring (s : State) (fault : Fault) (env : Option String)
    (rule : AlertRule) : ∃ i ∈ (s.openFiring fault env rule).instances, i.id = s.nextID := by
  obtain ⟨i, hi, hid, _⟩ := s.mem_opened env rule
  have hkept : ∀ {p : AlertInstance → Bool} {f : AlertInstance → AlertInstance},
      (∀ i, (f i).id = i.id) →
        ∃ i' ∈ updateWhere p f (s.opened env rule).instances, i'.id = s.nextID := by
    intro p f hf
    cases hp : p i
    · exact ⟨i, mem_updateWhere_of_not hi hp, hid⟩
    · exact ⟨f i, mem_updateWhere_of hi hp, (hf i).trans hid⟩
  rcases s.openFiring_cases fault env rule with ⟨w, _, heq⟩ | ⟨_, _, heq⟩ | ⟨_, _, heq⟩
  · rw [heq]
    exact hkept fun _ => rfl
  · rw [heq]
    exact ⟨i, hi, hid⟩
  · rw [heq]
    unfold State.page
    dsimp only
    split
    · simp only [markInstanceNotified, updateInstance,
        enqueueJobs_instances]
      exact hkept fun _ => rfl
    · rw [enqueueJobs_instances]
      exact ⟨i, hi, hid⟩

/-- The rule's firing pages go nowhere by themselves: they are folded into the
integration's stream, or routed to no channel. -/
def World.Unpaged (w : World) (env : Option String) (rule : AlertRule) : Prop :=
  w.coalesces env rule ∨ w.channelsFor env rule = []

variable {env : Option String} {rule : AlertRule}

theorem Told.openFiring (h : Told quiet s) (hquiet : s.world.Unpaged env rule → quiet s.nextID) :
    Told quiet (s.openFiring none env rule) := by
  have hopened := h.opened env rule
  have hworld : (s.opened env rule).world = s.world := refreshWindows_world _
  rcases s.openFiring_cases none env rule with ⟨w, _, heq⟩ | ⟨_, hc, heq⟩ | ⟨_, _, heq⟩
  · rw [heq]
    refine (hopened.markInstanceSuppressed s.nextID w).settle fun i hi hid hstamp => ?_
    exact absurd hstamp (stamped_markInstanceSuppressed hi hid)
  · rw [heq]
    exact hopened.settle fun _ _ _ _ => .inr (hquiet (.inl hc))
  · rw [heq]
    refine (hopened.page none env s.nextID rule).settle fun _ _ _ _ => ?_
    by_cases hchans : s.world.channelsFor env rule = []
    · exact .inr (hquiet (.inr hchans))
    left
    obtain ⟨i, hi, hid, hfiring⟩ := s.mem_opened env rule
    have hins : insertedChannels none ((s.opened env rule).world.channelsFor env rule) ≠ [] := by
      rw [hworld]
      exact insertedChannels_none hchans
    have hpaged := notified_page hi hopened.keyed.ids hins
    rwa [hid, hfiring] at hpaged

theorem Told.drive (h : Told quiet s) (v : Verdict) (hquiet : s.world.Unpaged env rule →
      (∃ i ∈ (s.drive none env rule v).instances, i.id = s.nextID) → quiet s.nextID) :
    Told quiet (s.drive none env rule v) := by
  rcases s.drive_cases none env rule v with heq | ⟨_, _, heq⟩ |
    ⟨active, _, ⟨_, heq⟩ | ⟨_, heq⟩ | ⟨_, heq⟩⟩
  · rwa [heq]
  · rw [heq] at hquiet ⊢
    exact h.openFiring fun hunpaged => hquiet hunpaged (s.mem_openFiring none env rule)
  · rw [heq]
    exact h.touchInstance active.id
  · rw [heq]
    exact h.updateInstances fun i => sameInstance_refreshed i s.world.now env
  · rw [heq]
    exact h.resolveOrHold none env active rule

theorem Told.recordReading (h : Told quiet s) (ruleID : UUID) (value : Option Rat) :
    Told quiet (s.recordReading ruleID value) := by
  obtain ⟨_, heq⟩ := s.recordReading_eq ruleID value
  rw [heq]
  exact h.congr rfl rfl rfl

theorem Told.evaluate (h : Told quiet s) {tel : Telemetry} (hquiet : s.world.Unpaged env rule →
      (∃ i ∈ (s.evaluate none tel env rule).instances, i.id = s.nextID) → quiet s.nextID) :
    Told quiet (s.evaluate none tel env rule) := by
  unfold State.evaluate at hquiet ⊢
  split
  · exact h
  · next v hv =>
    have hread := h.recordReading rule.id v.reading
    simp only [hv] at hquiet
    obtain ⟨_, heq⟩ := s.recordReading_eq rule.id v.reading
    rw [heq] at hquiet hread ⊢
    exact hread.drive v hquiet

theorem Told.mono {quiet' : UUID → Prop} (h : Told quiet s)
    (hmono : ∀ id, quiet id → quiet' id) : Told quiet' s :=
  ⟨h.keyed, h.silent, fun i hi hf hs => (h.told i hi hf hs).imp_right (hmono i.id)⟩

end Told

/-! ## Runs of threshold checks -/

/-- The actions of an engine without trace completion, with every store call
succeeding. -/
def ThresholdAction : Action → Prop
  | .evaluate fault _ _ _ => fault = none
  | .renotify faults _ => ∀ id, faults id = none
  | .fireDelayed _ _ _ | .resolveStageFiring _ _ => False
  | _ => True

/-- Instance `id` was opened by an evaluation whose page would have gone nowhere. -/
def OpenedUnpaged (s₀ : State) (as : List Action) (id : UUID) : Prop :=
  ∃ pre fault tel ruleID env rule post,
    as = pre ++ .evaluate fault tel ruleID env :: post ∧
    (run State.step s₀ pre).nextID = id ∧
    (run State.step s₀ pre).world.rule? ruleID = some rule ∧
    (run State.step s₀ pre).world.Unpaged env rule ∧
    ∃ i ∈ ((run State.step s₀ pre).step (.evaluate fault tel ruleID env)).instances, i.id = id

variable {as : List Action} {s s₀ : State}

theorem OpenedUnpaged.append {id : UUID} (h : OpenedUnpaged s₀ as id) (bs : List Action) :
    OpenedUnpaged s₀ (as ++ bs) id := by
  obtain ⟨pre, fault, tel, ruleID, env, rule, post, rfl, hrest⟩ := h
  exact ⟨pre, fault, tel, ruleID, env, rule, post ++ bs, by simp, hrest⟩

/-- **Step lemma.** -/
theorem Told.step {pre : List Action} {a : Action}
    (h : Told (OpenedUnpaged s₀ pre) (run State.step s₀ pre)) (ha : ThresholdAction a) :
    Told (OpenedUnpaged s₀ (pre ++ [a])) ((run State.step s₀ pre).step a) := by
  have h' := h.mono fun _ hid => OpenedUnpaged.append hid [a]
  cases a with
  | evaluate fault tel ruleID env =>
    obtain rfl : fault = none := ha
    rcases step_evaluate_cases _ none tel ruleID env with
      heq | ⟨rule, hrule, _, heq⟩
    · rw [heq]
      exact h'
    · rw [heq]
      refine h'.evaluate fun hunpaged hopened => ?_
      rw [← heq] at hopened
      exact ⟨pre, none, tel, ruleID, env, rule, [], rfl, rfl, hrule, hunpaged, hopened⟩
  | retireLegacy ruleID =>
    show Told _ ((run State.step s₀ pre).retireLegacyInstance ruleID)
    rcases retireLegacyInstance_cases _ ruleID with heq | ⟨active, _, heq⟩
    · rwa [heq]
    · rw [heq]
      exact h'.resolveInstance active.id
  | renotify faults insts =>
    rcases step_renotify_cases _ faults insts with heq | ⟨_, heq⟩
    · rwa [heq]
    · rw [heq]
      exact h'.renotifyOnce faults insts
  | acknowledge instanceID =>
    exact h'.updateInstances fun i => sameInstance_acknowledged i _
  | resolveManual instanceID => exact h'.updateInstances fun i => sameInstance_closed i _
  | clearErrors service => exact h'.updateInstances fun i => sameInstance_closed i _
  | pushReading ruleID value => exact h'.recordReading ruleID (some value)
  | advance _ | setWindows _ | setResolver _ | setEnvironments _ | createRule _
  | updateRule _ => exact h'.congr rfl rfl rfl
  | fireDelayed _ _ _ | resolveStageFiring _ _ => exact ha.elim

/-- The evaluation finds the instance's condition cleared, nobody has acknowledged
it, and its rule resolves by itself. -/
def State.AutoResolves (s : State) (tel : Telemetry) (ruleID : UUID) (env : Option String)
    (rule : AlertRule) (i : AlertInstance) : Prop :=
  s.world.rule? ruleID = some rule ∧ rule.enabled ∧ rule.resolveMode = .auto ∧
    (verdict tel env (s.readings rule.id) rule).any (fun v => !v.breached) ∧
    s.activeInstance rule.id (fingerprintFor env) = some i ∧ i.handledAt = none

instance (s : State) (tel : Telemetry) (ruleID : UUID) (env : Option String)
    (rule : AlertRule) (i : AlertInstance) :
    Decidable (s.AutoResolves tel ruleID env rule i) :=
  inferInstanceAs (Decidable (_ ∧ _))

variable {i : AlertInstance}

theorem State.AutoResolves.step_eq {tel : Telemetry} {ruleID : UUID} {env : Option String}
    {rule : AlertRule} (h : s.AutoResolves tel ruleID env rule i) (fault : Fault) :
    ∃ readings, s.step (.evaluate fault tel ruleID env) =
      if i.suppressedBy = none then
        ({ s with readings := readings }.resolveInstance i.id).enqueue fault env i.id rule
      else { s with readings := readings }.resolveInstance i.id := by
  obtain ⟨hrule, henabled, hmode, hclear, hactive, hunacked⟩ := h
  obtain ⟨v, hv, hbreached⟩ := Option.any_eq_true _ _ |>.1 hclear
  obtain ⟨readings, hread⟩ := s.recordReading_eq rule.id v.reading
  refine ⟨readings, ?_⟩
  have hdrive : s.step (.evaluate fault tel ruleID env) =
      ({ s with readings := readings } : State).drive fault env rule v := by
    simp only [State.step, hrule, henabled, if_true, evaluate, hv, hread]
  have hcleared : v.breached = false := by simpa using hbreached
  have hactive' : ({ s with readings := readings } : State).activeInstance rule.id
      (fingerprintFor env) = some i := hactive
  rw [hdrive]
  unfold drive resolveOrHold
  rw [hcleared, hactive']
  simp [hmode, hunacked]

theorem State.mem_resolveInstance (s : State) (hi : i ∈ s.instances) :
    ∃ i' ∈ (s.resolveInstance i.id).instances, i'.id = i.id ∧ i'.state = .resolved :=
  ⟨_, mem_updateWhere_of hi (by simp), rfl, rfl⟩

/-- The recovery of a row that is in the table is announced when it is routed
somewhere. -/
theorem State.notified_resolve (hkeyed : s.Keyed) (hi : i ∈ s.instances)
    (hsilent : ¬ s.Notified i.id .resolved) (env : Option String) (rule : AlertRule) :
    ((s.resolveInstance i.id).enqueue none env i.id rule).Notified i.id .resolved ↔
      s.world.channelsFor env rule ≠ [] := by
  constructor
  · intro ⟨j, hj, hjob⟩ hchans
    have hnone : insertedChannels none (s.world.channelsFor env rule) = [] := by
      rw [hchans]
      rfl
    have hjobs := (s.resolveInstance i.id).enqueueJobs_jobs_of_nil i.id s.world.deliveryWindow hnone
    exact hsilent ⟨j, hjobs ▸ hj, hjob⟩
  · intro hchans
    obtain ⟨i', hi', hid, hresolved⟩ := s.mem_resolveInstance hi
    have hids : ((s.resolveInstance i.id).instances.map (·.id)).Nodup :=
      (hkeyed.updateInstances fun i => (sameInstance_resolved i s.world.now).id).ids
    have hjob := exists_job_enqueueJobs s.world.deliveryWindow hi' hids
      (insertedChannels_none hchans)
    rwa [hid, hresolved] at hjob

/-- The one thing no promise is made about: an instance that is stamped as muted and
was paged all the same. -/
def State.PagedAfterMute (s : State) (i : AlertInstance) : Prop :=
  i.suppressedBy ≠ none ∧ s.Notified i.id .firing

theorem told_run (w : World)
    (h : StepsMeet State.step (fun _ a => ThresholdAction a) { world := w } as) :
    Told (OpenedUnpaged { world := w } as) (run State.step { world := w } as) :=
  h.invariant_history (I := fun as s => Told (OpenedUnpaged { world := w } as) s)
    (fun _ _ hold ha => hold.step ha)
    ⟨keyed_init w, by simp, by simp⟩

/-- **The all-clear.**  An auto-resolved instance that was not paged after it had
been muted is announced exactly when its rule is routed somewhere and it had been
paged, or is unstamped and was opened with its page going nowhere. -/
theorem resolved_notified_iff (w : World) (pre : List Action) (tel : Telemetry)
    (ruleID : UUID) (env : Option String) (rule : AlertRule) (i : AlertInstance)
    (hrun : StepsMeet State.step (fun _ a => ThresholdAction a) { world := w } pre)
    (hres : (run State.step { world := w } pre).AutoResolves tel ruleID env rule i)
    (hmute : ¬ (run State.step { world := w } pre).PagedAfterMute i) :
    (run State.step { world := w } (pre ++ [.evaluate none tel ruleID env])).Notified i.id
        .resolved ↔
      (run State.step { world := w } pre).world.channelsFor env rule ≠ [] ∧
        ((run State.step { world := w } pre).Notified i.id .firing ∨
          (i.suppressedBy = none ∧ OpenedUnpaged { world := w } pre i.id)) := by
  have htold := told_run w hrun
  rw [run_append, run_cons, run_nil]
  generalize run State.step { world := w } pre = s at *
  obtain ⟨hi, _, _, hfiring⟩ := mem_of_activeInstance hres.2.2.2.2.1
  have hsilent := htold.silent i hi hfiring
  obtain ⟨readings, hstep⟩ := hres.step_eq none
  rw [hstep]
  by_cases hstamp : i.suppressedBy = none
  · rw [if_pos hstamp]
    have hpaged := htold.told i hi hfiring hstamp
    have hkeyed : State.Keyed { s with readings := readings } := htold.keyed.congr rfl rfl rfl
    rw [notified_resolve hkeyed hi hsilent]
    have htold' := hpaged.imp_right fun hopened =>
      show i.suppressedBy = none ∧ OpenedUnpaged { world := w } pre i.id from ⟨hstamp, hopened⟩
    exact (and_iff_left htold').symm
  · rw [if_neg hstamp]
    have hunpaged : ¬ s.Notified i.id .firing := fun hp => hmute ⟨hstamp, hp⟩
    constructor
    · exact fun hnotified => absurd hnotified hsilent
    · rintro ⟨_, hpaged | ⟨hnone, _⟩⟩
      · exact absurd hpaged hunpaged
      · exact absurd hnone hstamp

/-! Two checks of one integration whose profile folds them into one stream: the first
to fire is paged for both, and the second recovers. -/

private def latencyRule : AlertRule :=
  { id := 1, integrationID := some 7, channelIDs := [5], spec := .metric ⟨.gt, 0, false, ""⟩ }

private def errorRule : AlertRule := { latencyRule with id := 2 }

private def foldingWorld : World :=
  { now := 1000, rules := [latencyRule, errorRule], windows := []
    resolver := some {
      resolve := fun _ explicit _ _ => some explicit
      resolveBehavior := fun _ _ _ => some (some .perIntegration, 0) }
    environments := none, isProduction := fun _ => false }

private def firingRow (id ruleID : UUID) : FiringUnackedInstance :=
  { instanceID := id, ruleID := ruleID, environment := none, startedAt := 1000,
    lastNotifiedAt := none, suppressedBy := none }

private def foldedRun : List Action :=
  [.evaluate none (.metricOnly 1) 1 none, .evaluate none (.metricOnly 1) 2 none,
    .renotify (fun _ => none) [firingRow 0 1, firingRow 1 2]]

private def foldedInstance : AlertInstance :=
  { id := 1, alertRuleID := 2, state := .firing, fingerprint := "all",
    environment := none, startedAt := 1000, lastEvaluatedAt := 1000 }

private theorem foldedRun_meets : StepsMeet State.step (fun _ a => ThresholdAction a)
    { world := foldingWorld } foldedRun :=
  ⟨rfl, rfl, fun _ => rfl, trivial⟩

theorem resolved_notified_example :
    (run State.step { world := foldingWorld }
        (foldedRun ++ [.evaluate none (.metricOnly 0) 2 none])).Notified 1 .resolved ↔
      (run State.step { world := foldingWorld } foldedRun).world.channelsFor none errorRule ≠ [] ∧
        ((run State.step { world := foldingWorld } foldedRun).Notified 1 .firing ∨
          (foldedInstance.suppressedBy = none ∧
            OpenedUnpaged { world := foldingWorld } foldedRun 1)) :=
  resolved_notified_iff foldingWorld foldedRun (.metricOnly 0) 2 none errorRule foldedInstance
    foldedRun_meets (by decide +kernel) fun h => h.1 rfl

private def routedLater : List Action :=
  [.setResolver (some {
      resolve := fun _ _ _ _ => some []
      resolveBehavior := fun _ _ _ => some (some .perCheck, 0) }),
    .evaluate none (.metricOnly 1) 1 none,
    .setResolver none]

/-- The folded check, and the check that was routed too late, are announced to have
recovered, and neither was paged. -/
theorem resolved_without_page :
    (StepsMeet State.step (fun _ a => ThresholdAction a) { world := foldingWorld }
        (foldedRun ++ [.evaluate none (.metricOnly 0) 2 none]) ∧
      (run State.step { world := foldingWorld } foldedRun).AutoResolves (.metricOnly 0) 2 none
        errorRule foldedInstance ∧
      (run State.step { world := foldingWorld }
        (foldedRun ++ [.evaluate none (.metricOnly 0) 2 none])).Notified 1 .resolved ∧
      ¬ (run State.step { world := foldingWorld } foldedRun).Notified 1 .firing) ∧
    (StepsMeet State.step (fun _ a => ThresholdAction a) { world := foldingWorld }
        (routedLater ++ [.evaluate none (.metricOnly 0) 1 none]) ∧
      (run State.step { world := foldingWorld } routedLater).AutoResolves (.metricOnly 0) 1 none
        latencyRule { foldedInstance with
          id := 0, alertRuleID := 1, lastNotifiedAt := some 1000 } ∧
      (run State.step { world := foldingWorld }
        (routedLater ++ [.evaluate none (.metricOnly 0) 1 none])).Notified 0 .resolved ∧
      ¬ (run State.step { world := foldingWorld } routedLater).Notified 0 .firing) := by
  refine ⟨⟨⟨rfl, rfl, fun _ => rfl, rfl, trivial⟩, ?_, ?_, ?_⟩,
    ⟨trivial, rfl, trivial, rfl, trivial⟩, ?_, ?_, ?_⟩ <;> decide +kernel

end Sluicio.Alerting
