import Sluicio.Alerting.Sound
import Sluicio.Alerting.Streams

/-!
# The first page

An instance can miss the page of its opening: a window mutes it, its profile folds it
into a stream, or the enqueue call fails.  The tick tells these apart by the
watermark, the stamp and the profile it reads at that moment.  The invariant is that
an instance which is neither paged nor stamped is folded now, so that the stream's
representative speaks for it.
-/

namespace Sluicio.Alerting

open Lib State

/-- Firing, unacknowledged, and neither stamped nor paged. -/
def State.Waiting (s : State) (i : AlertInstance) : Prop :=
  i.FiringUnacked ∧ i.suppressedBy = none ∧ ¬ s.Notified i.id .firing

/-- An uncovered instance that speaks is routed to some channel, or was paged before. -/
def State.RoutesFirstPages (s : State) : Prop :=
  ∀ i ∈ s.instances, i.FiringUnacked → s.Speaks i →
    ∀ rule, s.world.rule? i.alertRuleID = some rule →
      coveringWindow s.refreshWindows.mwCache rule = none →
      s.world.channelsFor i.environment rule ≠ [] ∨ s.Notified i.id .firing

/-- Every waiting row but the excepted one is folded into a stream, and a watermark is
set by a page only. -/
structure Accounted (excepted : Option UUID) (s : State) : Prop where
  sound : s.Sound
  marked : ∀ i ∈ s.instances, i.lastNotifiedAt ≠ none → s.Notified i.id .firing
  folded : ∀ i ∈ s.instances, some i.id ≠ excepted → s.Waiting i → (s.streamOf i).isSome

section Accounted

variable {excepted : Option UUID} {s : State}

theorem accounted_init (w : World) : Accounted none { world := w } :=
  ⟨sound_init w, by simp, by simp⟩

variable {fingerprint : String} {t : State}

theorem Accounted.withWorld (h : Accounted excepted s) (hinst : t.instances = s.instances)
    (hjobs : t.jobs = s.jobs) (hnext : t.nextID = s.nextID)
    (hrules : ∀ id rule, s.world.rule? id = some rule →
      ∃ rule', t.world.rule? id = some rule' ∧ rule'.spec.signal = rule.spec.signal)
    (hfold : ∀ i ∈ s.instances, some i.id ≠ excepted → s.Waiting i → (t.streamOf i).isSome) :
    Accounted excepted t where
  sound := h.sound.withWorld hinst hjobs hnext hrules
  marked := by
    unfold State.Notified
    rw [hinst, hjobs]
    exact h.marked
  folded := by
    unfold State.Waiting State.Notified
    rw [hinst, hjobs]
    exact hfold

theorem Accounted.congr (h : Accounted excepted s) (hinst : t.instances = s.instances)
    (hjobs : t.jobs = s.jobs) (hnext : t.nextID = s.nextID) (hrules : t.world.rules = s.world.rules)
    (hresolver : t.world.resolver = s.world.resolver) : Accounted excepted t := by
  have hrule : ∀ id, t.world.rule? id = s.world.rule? id := by
    intro id
    rw [World.rule?, hrules]
    rfl
  have hc : ∀ env rule, t.world.coalesces env rule = s.world.coalesces env rule := by
    intro env rule
    unfold World.coalesces World.behavior
    rw [hresolver]
  refine h.withWorld hinst hjobs hnext (fun id rule h' => ⟨rule, ?_, rfl⟩) fun i hi hne hw => ?_
  · rw [hrule, h']
  · unfold streamOf
    simp only [hrule, hc]
    exact h.folded i hi hne hw

theorem Accounted.updateInstances (h : Accounted excepted s) {p : AlertInstance → Bool}
    {f : AlertInstance → AlertInstance} (hf : ∀ i, SameInstance i (f i))
    (henv : ∀ i, (f i).environment = i.environment)
    (hmark : ∀ i, (f i).lastNotifiedAt = i.lastNotifiedAt) :
    Accounted excepted { s with instances := updateWhere p f s.instances } where
  sound := h.sound.updateInstances hf henv
  marked := by
    intro i hi hmarked
    obtain ⟨i₀, hi₀, ⟨_, rfl⟩ | ⟨_, rfl⟩⟩ := mem_updateWhere.1 hi
    · rw [hmark] at hmarked
      rw [(hf i₀).id]
      exact h.marked i₀ hi₀ hmarked
    · exact h.marked i hi₀ hmarked
  folded := by
    intro i hi hne ⟨hfiring, hstamp, hunpaged⟩
    obtain ⟨i₀, hi₀, ⟨_, rfl⟩ | ⟨_, rfl⟩⟩ := mem_updateWhere.1 hi
    · rw [(hf i₀).id] at hne hunpaged
      have hfiring₀ : i₀.FiringUnacked :=
        ⟨(hf i₀).firing hfiring.1, (hf i₀).unacked hfiring.2⟩
      have hold := h.folded i₀ hi₀ hne ⟨hfiring₀, (hf i₀).unstamped hstamp, hunpaged⟩
      unfold streamOf at hold ⊢
      simpa only [(hf i₀).alertRuleID, henv, hfiring, hfiring₀] using hold
    · exact h.folded i hi₀ hne ⟨hfiring, hstamp, hunpaged⟩

theorem Accounted.enqueueJobs (h : Accounted excepted s) (fault : Fault)
    (instanceID : UUID) (channelIDs : List UUID) (window : Duration) :
    Accounted excepted (s.enqueueJobs fault instanceID channelIDs window).2 where
  sound := h.sound.enqueueJobs fault instanceID channelIDs window
  marked := by
    rw [enqueueJobs_instances]
    exact fun i hi hmarked => (h.marked i hi hmarked).enqueueJobs _ _ _ _
  folded := by
    unfold streamOf
    rw [enqueueJobs_instances, enqueueJobs_world]
    intro i hi hne ⟨hfiring, hstamp, hunpaged⟩
    exact h.folded i hi hne ⟨hfiring, hstamp, fun hold => hunpaged (hold.enqueueJobs _ _ _ _)⟩

theorem Accounted.markInstanceNotified (h : Accounted excepted s) {instanceID : UUID}
    (hpaged : s.Notified instanceID .firing) :
    Accounted excepted (s.markInstanceNotified instanceID) where
  sound := h.sound.updateInstances (fun i => sameInstance_notified i _) fun _ => rfl
  marked := by
    intro i hi hmarked
    obtain ⟨i₀, hi₀, ⟨hp, rfl⟩ | ⟨_, rfl⟩⟩ := mem_updateWhere.1 hi
    · have hid : i₀.id = instanceID := by simpa using hp
      show s.Notified i₀.id .firing
      rwa [hid]
    · exact h.marked i hi₀ hmarked
  folded := by
    intro i hi hne hwaiting
    obtain ⟨i₀, hi₀, ⟨_, rfl⟩ | ⟨_, rfl⟩⟩ := mem_updateWhere.1 hi
    · exact h.folded i₀ hi₀ hne hwaiting
    · exact h.folded i hi₀ hne hwaiting

theorem Accounted.page (h : Accounted excepted s) (fault : Fault) (env : Option String)
    (rule : AlertRule) {i : AlertInstance} (hi : i ∈ s.instances) (hfiring : i.state = .firing)
    (hrouted : s.world.channelsFor env rule ≠ [] ∨ s.Notified i.id .firing) :
    Accounted excepted (s.page fault env i.id rule) := by
  have hjobs := h.enqueueJobs fault i.id (s.world.channelsFor env rule) s.world.deliveryWindow
  unfold State.page
  dsimp only
  split
  · next hok =>
    refine hjobs.markInstanceNotified ?_
    rcases hrouted with hchans | hpaged
    · have hins := insertedChannels_of_ok hok hchans
      have hjob := exists_job_enqueueJobs s.world.deliveryWindow hi h.sound.keyed.ids hins
      rwa [hfiring] at hjob
    · exact hpaged.enqueueJobs _ _ _ _
  · exact hjobs

theorem Accounted.refreshWindows (h : Accounted excepted s) :
    Accounted excepted s.refreshWindows := by
  have hworld := s.refreshWindows_world
  exact h.congr s.refreshWindows_instances s.refreshWindows_jobs s.refreshWindows_nextID
    (by rw [hworld]) (by rw [hworld])

theorem Accounted.markInstanceSuppressed (h : Accounted excepted s) (instanceID windowID : UUID) :
    Accounted excepted (s.markInstanceSuppressed instanceID windowID) :=
  h.updateInstances (fun i => sameInstance_stamped i windowID) (fun _ => rfl) fun _ => rfl

theorem Accounted.resolveInstance (h : Accounted excepted s) (instanceID : UUID) :
    Accounted excepted (s.resolveInstance instanceID) :=
  h.updateInstances (fun i => sameInstance_resolved i _) (fun _ => rfl) fun _ => rfl

theorem Accounted.touchInstance (h : Accounted excepted s) (instanceID : UUID) :
    Accounted excepted (s.touchInstance instanceID) :=
  h.updateInstances (fun i => sameInstance_touched i _) (fun _ => rfl) fun _ => rfl

/-! ### A tick -/

theorem Accounted.renotifyOnce (h : Accounted none s) {faults : UUID → Fault}
    {insts : List FiringUnackedInstance} (hinsts : insts.Perm s.firingUnackedInstances)
    (hrouted : s.RoutesFirstPages) : Accounted none (s.renotifyOnce faults insts) := by
  have hkept : Accounted none (s.renotifyOnce faults insts) ∧
      TickFrame s (s.renotifyOnce faults insts) := by
    refine renotifyOnce_invariant (P := fun t => Accounted none t ∧ TickFrame s t)
      ⟨h, TickFrame.refl s⟩ ⟨h.refreshWindows, tickFrame_refreshWindows s⟩
      fun t op hop ⟨ht, hframe⟩ => ⟨?_, hframe.trans (tickFrame_applyRenotify t faults op)⟩
    cases op with
    | suppress instanceID windowID => exact ht.markInstanceSuppressed instanceID windowID
    | renotify it =>
      obtain ⟨i, hi, hfiring, hspeaks, rule, hrule, hcover, rfl, _⟩ :=
        speaks_of_plan hinsts hop
      obtain ⟨i', hi', hsame⟩ := hframe.kept hi
      have hfiring' : i'.state = .firing := hsame.state.trans hfiring.1
      have hpage := ht.page (faults i.id) i.environment rule hi' hfiring' (by
        rw [hframe.world, hsame.id]
        exact (hrouted i hi hfiring hspeaks rule hrule hcover).imp_right
          fun hold => hold.mono hframe.jobs)
      rwa [hsame.id] at hpage
  exact hkept.1

/-! ### An opening -/

variable {rule : AlertRule} {env : Option String} {fault : Fault}

theorem Accounted.openInstance (h : Accounted none s) (hrule : s.world.rule? rule.id = some rule)
    (hlabel : rule.spec.signal = .metric → fingerprint = fingerprintFor env) :
    Accounted (some s.nextID) (s.openInstance rule.id fingerprint env).2 where
  sound := h.sound.openInstance hrule hlabel
  marked := by
    intro i hi hmarked
    rcases List.mem_append.1 hi with hold | hnew
    · exact h.marked i hold hmarked
    · obtain rfl := List.mem_singleton.1 hnew
      exact absurd rfl hmarked
  folded := by
    intro i hi hne hwaiting
    rcases List.mem_append.1 hi with hold | hnew
    · exact h.folded i hold (by simp) hwaiting
    · obtain rfl := List.mem_singleton.1 hnew
      exact absurd rfl hne

theorem Accounted.settle {n : UUID} (h : Accounted (some n) s)
    (hn : ∀ i ∈ s.instances, i.id = n → s.Waiting i → (s.streamOf i).isSome) :
    Accounted none s := by
  refine ⟨h.sound, h.marked, fun i hi _ hwaiting => ?_⟩
  by_cases hid : i.id = n
  · exact hn i hi hid hwaiting
  · exact h.folded i hi (by simpa using hid) hwaiting

theorem Accounted.openFiring (h : Accounted none s) (hrule : s.world.rule? rule.id = some rule)
    (hins : coveringWindow s.refreshWindows.mwCache rule = none →
      s.world.coalesces env rule = false →
      insertedChannels fault (s.world.channelsFor env rule) ≠ []) :
    Accounted none (s.openFiring fault env rule) := by
  have hopened : Accounted (some s.nextID) (s.opened env rule) :=
    (h.openInstance hrule fun _ => rfl).refreshWindows
  have hworld : (s.opened env rule).world = s.world := refreshWindows_world _
  rcases s.openFiring_cases fault env rule with
    ⟨w, _, heq⟩ | ⟨_, hc, heq⟩ | ⟨hcover, hc, heq⟩
  · rw [heq]
    refine (hopened.markInstanceSuppressed s.nextID w).settle fun i hi hid hwaiting => ?_
    exact absurd hwaiting.2.1 (stamped_markInstanceSuppressed hi hid)
  · rw [heq]
    refine hopened.settle fun i hi hid hwaiting => ?_
    obtain ⟨hruleID, henv⟩ := h.sound.keyed.row_opened hi hid
    refine isSome_streamOf rule hwaiting.1 ?_ ?_
    · rw [hworld, hruleID, hrule]
    · rw [hworld, henv, hc]
  · rw [heq]
    rw [opened_mwCache] at hcover
    have hins := hins hcover hc
    rw [← hworld] at hins
    obtain ⟨i, hi, hid, hfiring⟩ := s.mem_opened env rule
    have hpaged := notified_page hi hopened.sound.keyed.ids hins
    have hpage := hopened.page fault env rule hi hfiring (.inl (channels_ne_nil_of_inserted hins))
    rw [hfiring] at hpaged
    rw [hid] at hpage hpaged
    exact hpage.settle fun i' _ hid' hwaiting => absurd (hid' ▸ hpaged) hwaiting.2.2

theorem Accounted.drive (h : Accounted none s) {v : Verdict}
    (hrule : s.world.rule? rule.id = some rule)
    (hmetric : v.confirm = .refresh → rule.spec.signal = .metric)
    (hins : v.breached → s.activeInstance rule.id (fingerprintFor env) = none →
      coveringWindow s.refreshWindows.mwCache rule = none →
      s.world.coalesces env rule = false →
      insertedChannels fault (s.world.channelsFor env rule) ≠ []) :
    Accounted none (s.drive fault env rule v) := by
  rcases s.drive_cases fault env rule v with heq | ⟨hb, hnone, heq⟩ |
    ⟨active, hactive, ⟨_, heq⟩ | ⟨hconfirm, heq⟩ | ⟨_, heq⟩⟩
  · rwa [heq]
  · rw [heq]
    exact h.openFiring hrule (hins hb hnone)
  · rw [heq]
    exact h.touchInstance active.id
  · rw [heq, h.sound.refreshInstance_eq hrule (hmetric hconfirm) hactive]
    exact h.touchInstance active.id
  · rw [heq]
    rcases s.resolveOrHold_cases fault env active rule with
      ⟨_, _, heq'⟩ | ⟨_, _, heq'⟩ | ⟨_, heq'⟩
    · rw [heq']
      exact h.touchInstance active.id
    · rw [heq']
      exact (h.resolveInstance active.id).enqueueJobs _ _ _ _
    · rw [heq']
      exact h.resolveInstance active.id

theorem Accounted.fireDelayed (h : Accounted none s) {integrationID : UUID}
    (hrule : s.world.rule? rule.id = some rule) (hspec : rule.spec = .traceCompletion)
    (hins : s.activeInstance rule.id fingerprint = none →
      suppressingWindowForIntegration s.world.windows s.world.now integrationID = none →
      s.world.coalesces none rule = false →
      insertedChannels fault rule.channelIDs ≠ []) :
    Accounted none (s.fireDelayed fault rule integrationID fingerprint) := by
  have hopened : Accounted (some s.nextID) (s.openInstance rule.id fingerprint none).2 :=
    h.openInstance hrule fun hmetric => by simp [hspec, RuleSpec.signal] at hmetric
  rcases s.fireDelayed_cases fault rule integrationID fingerprint with
    ⟨active, _, heq⟩ | ⟨w, _, _, heq⟩ | ⟨hnone, hsup, heq⟩
  · rw [heq]
    exact h.touchInstance active.id
  · rw [heq]
    refine (hopened.markInstanceSuppressed s.nextID w).settle fun i hi hid hwaiting => ?_
    exact absurd hwaiting.2.1 (stamped_markInstanceSuppressed hi hid)
  · rw [heq]
    refine (hopened.enqueueJobs fault s.nextID rule.channelIDs 0).settle fun i hi hid hwaiting => ?_
    rw [enqueueJobs_instances] at hi
    obtain ⟨hruleID, henv, hfiring⟩ := h.sound.keyed.row_openInstance hi hid
    cases hc : s.world.coalesces none rule
    · have hjob := exists_job_enqueueJobs 0 hi hopened.sound.keyed.ids (hins hnone hsup hc)
      rw [hfiring, hid] at hjob
      exact absurd (hid ▸ hjob) hwaiting.2.2
    · refine isSome_streamOf rule hwaiting.1 ?_ ?_
      · rw [enqueueJobs_world, hruleID]
        exact hrule
      · rw [enqueueJobs_world, henv]
        exact hc

end Accounted

/-- The evaluation finds its rule breached and no instance of it firing. -/
def State.Opens (s : State) (tel : Telemetry) (env : Option String) (rule : AlertRule) :
    Prop :=
  (verdict tel env (s.readings rule.id) rule).any (·.breached) ∧
    s.activeInstance rule.id (fingerprintFor env) = none

/-- `t` folds every waiting row. -/
def State.FoldsWaiting (s t : State) : Prop :=
  ∀ i ∈ s.instances, s.Waiting i → (t.streamOf i).isSome

/-- The page of an opening that no window mutes and no profile folds inserts a job; a
tick routes the first page of an instance to some channel; a change of profiles or of
a rule leaves the waiting instances folded. -/
def KeepsFirstPage (s : State) : Action → Prop
  | .evaluate fault tel ruleID env =>
    ∀ rule, s.world.rule? ruleID = some rule → rule.enabled → s.Opens tel env rule →
      coveringWindow s.refreshWindows.mwCache rule = none →
      s.world.coalesces env rule = false →
      insertedChannels fault (s.world.channelsFor env rule) ≠ []
  | .fireDelayed fault ruleID fingerprint =>
    ∀ rule integrationID, s.world.rule? ruleID = some rule → rule.enabled →
      rule.integrationID = some integrationID →
      s.activeInstance rule.id fingerprint = none →
      suppressingWindowForIntegration s.world.windows s.world.now integrationID = none →
      s.world.coalesces none rule = false →
      insertedChannels fault rule.channelIDs ≠ []
  | .renotify _ _ => s.RoutesFirstPages
  | .setResolver resolver => s.FoldsWaiting (s.step (.setResolver resolver))
  | .updateRule rule => s.FoldsWaiting (s.step (.updateRule rule))
  | _ => True

theorem Accounted.createRule {s : State} (h : Accounted none s) (rule : AlertRule) :
    Accounted none (s.step (.createRule rule)) := by
  unfold State.step State.withWorld
  dsimp only
  split
  · exact h
  refine h.withWorld rfl rfl rfl
    (fun id r hr => ⟨r, World.rule?_createRule hr rule, rfl⟩) fun i hi hne hwaiting => ?_
  obtain ⟨k, hk⟩ := Option.isSome_iff_exists.1 (h.folded i hi hne hwaiting)
  obtain ⟨hfiring, r, hr, hc, _⟩ := streamOf_eq_some.1 hk
  exact isSome_streamOf r hfiring (World.rule?_createRule hr rule) hc

/-- **Step lemma.** -/
theorem Accounted.step {s : State} {a : Action} (h : Accounted none s)
    (ha : KeepsFirstPage s a) : Accounted none (s.step a) := by
  cases a with
  | evaluate fault tel ruleID env =>
    rcases s.step_evaluate_cases fault tel ruleID env with heq | ⟨rule, hrule, henabled, heq⟩
    · rwa [heq]
    rw [heq]
    unfold evaluate
    split
    · exact h
    · next v hv =>
      obtain ⟨readings, hread⟩ := s.recordReading_eq rule.id v.reading
      have hrule' : s.world.rule? rule.id = some rule := by
        rwa [(World.mem_of_rule? hrule).2]
      have hrecorded : Accounted none { s with readings := readings } :=
        h.congr rfl rfl rfl rfl rfl
      rw [hread]
      refine hrecorded.drive hrule' (metric_of_refresh hv)
        fun hb hnone hcover hc => ha rule hrule henabled ⟨?_, hnone⟩ ?_ hc
      · rw [hv]
        exact hb
      · rwa [mwCache_refreshWindows_readings] at hcover
  | fireDelayed fault ruleID fingerprint =>
    rcases s.step_fireDelayed_cases fault ruleID fingerprint with
      heq | ⟨rule, integrationID, hrule, henabled, hspec, hinteg, heq⟩
    · rwa [heq]
    · rw [heq]
      have hrule' : s.world.rule? rule.id = some rule := by
        rwa [(World.mem_of_rule? hrule).2]
      exact h.fireDelayed hrule' hspec (ha rule integrationID hrule henabled hinteg)
  | renotify faults insts =>
    rcases s.step_renotify_cases faults insts with heq | ⟨hperm, heq⟩
    · rwa [heq]
    · rw [heq]
      exact h.renotifyOnce hperm ha
  | retireLegacy ruleID =>
    show Accounted none (s.retireLegacyInstance ruleID)
    rcases s.retireLegacyInstance_cases ruleID with heq | ⟨active, _, heq⟩
    · rwa [heq]
    · rw [heq]
      exact h.resolveInstance active.id
  | resolveStageFiring ruleID fingerprint =>
    show Accounted none (s.resolveStageFiring ruleID fingerprint)
    rcases s.resolveStageFiring_cases ruleID fingerprint with heq | ⟨active, _, heq⟩
    · rwa [heq]
    · rw [heq]
      exact h.resolveInstance active.id
  | acknowledge instanceID =>
    exact h.updateInstances (fun i => sameInstance_acknowledged i _) (fun _ => rfl) fun _ => rfl
  | resolveManual instanceID =>
    exact h.updateInstances (fun i => sameInstance_closed i _) (fun _ => rfl) fun _ => rfl
  | clearErrors service =>
    exact h.updateInstances (fun i => sameInstance_closed i _) (fun _ => rfl) fun _ => rfl
  | setResolver resolver =>
    exact h.withWorld rfl rfl rfl (fun id r hr => ⟨r, hr, rfl⟩)
      fun i hi _ hwaiting => ha i hi hwaiting
  | updateRule rule =>
    refine h.withWorld rfl rfl rfl (fun id r hr => ?_) fun i hi _ hwaiting => ha i hi hwaiting
    obtain ⟨r', hr', hsignal, _⟩ := World.rule?_updateRule hr rule
    exact ⟨r', hr', hsignal⟩
  | createRule rule => exact h.createRule rule
  | pushReading _ _ | advance _ | setWindows _ | setEnvironments _ =>
    exact h.congr rfl rfl rfl rfl rfl

/-! ## After a tick -/

/-- Every firing, unacknowledged instance whose rule is routed somewhere and covered by
no active window has been paged, or is in a stream whose representative has been. -/
def State.FirstPaged (s : State) : Prop :=
  ∀ i ∈ s.instances, i.FiringUnacked → ∀ rule, s.world.rule? i.alertRuleID = some rule →
    s.world.channelsFor i.environment rule ≠ [] →
    (∀ w ∈ activeMaintenanceWindows s.world.windows s.world.now, w.covers rule = false) →
    s.Notified i.id .firing ∨
      ∃ k, s.streamOf i = some k ∧ ∃ rep ∈ s.instances, s.Represents rep k ∧
        s.Notified rep.id .firing

/-- The tick's cache of windows is current; a stream of which some check is uncovered
has an uncovered representative; and the first page of a stream is routed somewhere. -/
structure State.TickReaches (s : State) : Prop where
  current : s.refreshWindows.mwCache = activeMaintenanceWindows s.world.windows s.world.now
  unmuted : ∀ k, ∀ i ∈ s.instances, s.streamOf i = some k →
    ∀ rep ∈ s.instances, s.Represents rep k →
    ∀ rule, s.world.rule? i.alertRuleID = some rule →
      coveringWindow s.refreshWindows.mwCache rule = none →
    ∀ rule', s.world.rule? rep.alertRuleID = some rule' →
      coveringWindow s.refreshWindows.mwCache rule' = none
  routed : ∀ k, ∀ rep ∈ s.instances, s.Represents rep k →
    ∀ rule, s.world.rule? rep.alertRuleID = some rule →
      coveringWindow s.refreshWindows.mwCache rule = none →
      s.world.channelsFor rep.environment rule ≠ [] ∨ s.Notified rep.id .firing

theorem coveringWindow_eq_none {wins : List MaintenanceWindow} {rule : AlertRule}
    (h : ∀ w ∈ wins, w.covers rule = false) : coveringWindow wins rule = none := by
  unfold coveringWindow
  rw [Option.map_eq_none_iff, List.find?_eq_none]
  intro w hw
  simp [h w hw]

section Tick

variable {s : State} {faults : UUID → Fault} {insts : List FiringUnackedInstance} {rule : AlertRule}
  {i : AlertInstance}

/-- The tick pages an instance of its own stream that it is due to page for the first
time. -/
theorem Accounted.perCheck_paged (h : Accounted none s) (hfaults : ∀ id, faults id = none)
    (hinsts : insts.Perm s.firingUnackedInstances) (hi : i ∈ s.instances)
    (hfiring : i.FiringUnacked) (hrule : s.world.rule? i.alertRuleID = some rule)
    (hc : s.world.coalesces i.environment rule = false)
    (hchans : s.world.channelsFor i.environment rule ≠ [])
    (hcover : coveringWindow s.refreshWindows.mwCache rule = none) :
    (s.renotifyOnce faults insts).Notified i.id .firing := by
  have hjobs := (tickFrame_renotifyOnce s faults insts).jobs
  by_cases hpaged : s.Notified i.id .firing
  · exact hpaged.mono hjobs
  have hmark : i.lastNotifiedAt = none := by
    by_contra hmarked
    exact hpaged (h.marked i hi hmarked)
  have hstamp : i.suppressedBy ≠ none := by
    intro hunstamped
    obtain ⟨k, hk⟩ := Option.isSome_iff_exists.1
      (h.folded i hi (by simp) ⟨hfiring, hunstamped, hpaged⟩)
    obtain ⟨_, rule', hrule', hc', _⟩ := streamOf_eq_some.1 hk
    obtain rfl : rule = rule' := Option.some.inj (hrule.symm.trans hrule')
    rw [hc] at hc'
    cases hc'
  have hmem : s.world.renotifyItem i.toFiringUnacked rule ∈ s.world.renotifyItems insts :=
    (mem_renotifyItems hinsts).2 ⟨i, hi, hfiring, rule, hrule, rfl⟩
  have hplan : .renotify (s.world.renotifyItem i.toFiringUnacked rule) ∈
      s.renotifyPlan insts := by
    refine List.mem_append_left _ (List.mem_flatMap.2 ⟨_, List.mem_filter.2 ⟨hmem, ?_⟩, ?_⟩)
    · rw [show (s.world.renotifyItem i.toFiringUnacked rule).coalesced = false from hc]
      rfl
    · have hrule'' : (s.world.renotifyItem i.toFiringUnacked rule).rule = rule := rfl
      unfold perCheckOps
      rw [hrule'', hcover]
      simp [World.renotifyItem, AlertInstance.toFiringUnacked, hmark, hstamp]
  have hins : insertedChannels (faults i.id) (s.world.channelsFor i.environment rule) ≠ [] := by
    rw [hfaults]
    exact insertedChannels_none hchans
  have hnotified := notified_renotifyOnce h.sound.keyed hplan hi rfl hins
  rwa [hfiring.1] at hnotified

theorem Accounted.stream_paged (h : Accounted none s) (hfaults : ∀ id, faults id = none)
    (hinsts : insts.Perm s.firingUnackedInstances) (htick : s.TickReaches) (hi : i ∈ s.instances)
    {k : Option UUID × String} (hk : s.streamOf i = some k)
    (hrule : s.world.rule? i.alertRuleID = some rule)
    (hcover : coveringWindow s.refreshWindows.mwCache rule = none) :
    ∃ rep ∈ s.instances, s.Represents rep k ∧
      (s.renotifyOnce faults insts).Notified rep.id .firing := by
  have hjobs := (tickFrame_renotifyOnce s faults insts).jobs
  obtain ⟨rep, hrep, hrepresents, ruleR, hruleR, hpage⟩ :=
    exists_representative hinsts hi hk
  refine ⟨rep, hrep, hrepresents, ?_⟩
  by_cases hpaged : s.Notified rep.id .firing
  · exact hpaged.mono hjobs
  have hmark : rep.lastNotifiedAt = none := by
    by_contra hmarked
    exact hpaged (h.marked rep hrep hmarked)
  have hcoverR := htick.unmuted k i hi hk rep hrep hrepresents rule hrule hcover ruleR hruleR
  have hplan := hpage hcoverR (by rw [hmark]; rfl)
  obtain ⟨hfiringR, _⟩ := streamOf_eq_some.1 hrepresents.1
  have hrouted := htick.routed k rep hrep hrepresents ruleR hruleR hcoverR
  have hins : insertedChannels (faults rep.id)
      (s.world.channelsFor rep.environment ruleR) ≠ [] := by
    rw [hfaults]
    exact insertedChannels_none (hrouted.resolve_right hpaged)
  have hnotified := notified_renotifyOnce h.sound.keyed hplan hrep rfl hins
  rwa [hfiringR.1] at hnotified

/-- **No lost first page.**  After any run that keeps first pages, a tick that reaches
its streams and whose calls succeed leaves every instance paged or represented. -/
theorem firstPaged_of_keepsFirstPage (w : World) (as : List Action) (faults : UUID → Fault)
    (insts : List FiringUnackedInstance)
    (hrun : StepsMeet State.step KeepsFirstPage { world := w } as)
    (hfaults : ∀ id, faults id = none)
    (hinsts : insts.Perm (run State.step { world := w } as).firingUnackedInstances)
    (htick : (run State.step { world := w } as).TickReaches) :
    (run State.step { world := w } (as ++ [.renotify faults insts])).FirstPaged := by
  have h : Accounted none (run State.step { world := w } as) :=
    hrun.invariant (fun _ _ hs ha => hs.step ha) (accounted_init w)
  rw [run_append, run_cons, run_nil]
  generalize run State.step { world := w } as = s at *
  have hframe := tickFrame_renotifyOnce s faults insts
  rw [show s.step (.renotify faults insts) = s.renotifyOnce faults insts from if_pos hinsts]
  intro i' hi' hfiring' rule hrule hchans huncovered
  obtain ⟨i, hi, hsame⟩ := hframe.old hi'
  rw [hframe.world] at hrule hchans huncovered
  rw [hsame.alertRuleID] at hrule
  rw [hsame.environment] at hchans
  have hfiring : i.FiringUnacked := hsame.firingUnacked.1 hfiring'
  have hcover : coveringWindow s.refreshWindows.mwCache rule = none := by
    rw [htick.current]
    exact coveringWindow_eq_none huncovered
  cases hc : s.world.coalesces i.environment rule
  · left
    rw [hsame.id]
    exact h.perCheck_paged hfaults hinsts hi hfiring hrule hc hchans hcover
  · right
    have hk := streamOf_eq_some.2 ⟨hfiring, rule, hrule, hc, rfl⟩
    obtain ⟨rep, hrep, hrepresents, hpaged⟩ :=
      h.stream_paged hfaults hinsts htick hi hk hrule hcover
    obtain ⟨rep', hrep', hsame'⟩ := hframe.kept hrep
    refine ⟨_, (hframe.streamOf hsame).trans hk, rep', hrep',
      hframe.represents hrepresents hsame', ?_⟩
    rwa [hsame'.id]

end Tick

/-! A check outside the integration opens while a window covers everything; when the
window is over, a check of integration 7 opens and is folded. -/

private def soloRule : AlertRule :=
  { id := 1, channelIDs := [5], spec := .metric ⟨.gt, 0, false, ""⟩ }

private def streamRule : AlertRule := { soloRule with id := 2, integrationID := some 7 }

private def mutedWorld : World :=
  { now := 1000, rules := [soloRule, streamRule]
    windows := [{ id := 9, startsAt := 0, endsAt := 2000, scope := some { kind := .allOrg } }]
    resolver := some {
      resolve := fun _ _ _ _ => some [5]
      resolveBehavior := fun _ _ _ => some (some .perIntegration, 0) }
    environments := none, isProduction := fun _ => false }

private def mutedThenFolded : List Action :=
  [.evaluate none (.metricOnly 1) 1 none, .advance 20000000000,
    .evaluate none (.metricOnly 1) 2 none]

private def mutedRow : FiringUnackedInstance :=
  { instanceID := 0, ruleID := 1, environment := none, startedAt := 1000,
    lastNotifiedAt := none, suppressedBy := some 9 }

private def foldedRow : FiringUnackedInstance :=
  { instanceID := 1, ruleID := 2, environment := none, startedAt := 20000001000,
    lastNotifiedAt := none, suppressedBy := none }

theorem firstPaged_example :
    (run State.step { world := mutedWorld }
      (mutedThenFolded ++ [.renotify (fun _ => none) [foldedRow, mutedRow]])).FirstPaged := by
  have hinserts : insertedChannels none [5] ≠ [] := by decide
  have hcache : (run State.step { world := mutedWorld }
      mutedThenFolded).refreshWindows.mwCache = [] := by decide +kernel
  refine firstPaged_of_keepsFirstPage mutedWorld mutedThenFolded (fun _ => none)
    [foldedRow, mutedRow]
    ⟨fun _ _ _ _ _ _ => hinserts, trivial, fun _ _ _ _ _ _ => hinserts, trivial⟩
    (fun _ => rfl) (by decide +kernel) ⟨by decide +kernel, ?_, ?_⟩
  · intro _ _ _ _ _ _ _ _ _ _ rule' _
    rw [hcache]
    rfl
  · exact fun _ _ _ _ _ _ _ => .inl (List.cons_ne_nil 5 [])

/-- The enqueue call of an opening fails before its first insert, and the tick after it,
whose calls succeed, leaves the instance unpaged. -/
theorem firstPage_lost :
    ¬ (run State.step { world := { mutedWorld with windows := [] } }
      [.evaluate (some 0) (.metricOnly 1) 1 none,
        .renotify (fun _ => none) [{ mutedRow with suppressedBy := none }]]).FirstPaged := by
  intro h
  have hrow := h { id := 0, alertRuleID := 1, state := .firing, fingerprint := "all",
                   environment := none, startedAt := 1000, lastEvaluatedAt := 1000 }
    (by decide +kernel) (by decide) soloRule (by decide +kernel) (by decide +kernel)
    (by decide +kernel)
  rcases hrow with hpaged | ⟨k, hk, _⟩
  · revert hpaged
    decide +kernel
  · obtain ⟨_, rule, hrule, hc, _⟩ := streamOf_eq_some.1 hk
    obtain rfl : soloRule = rule := Option.some.inj (Eq.trans (by decide +kernel) hrule)
    revert hc
    decide +kernel

end Sluicio.Alerting
