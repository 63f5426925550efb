import Sluicio.Alerting.Sound
import Sluicio.Alerting.Streams

/-!
# One page for a stream

A stream has no row of its own: when it was last paged is written on whichever
instance represented it then.  A run is watched together with the pages the stream
has had, and the invariant ties each page to the watermark of the instance it was
for.
-/

namespace Sluicio.Alerting

open Lib World State

/-! ## Pages -/

/-- One firing page of a stream: whose, and when. -/
structure Page where
  instanceID : UUID
  sentAt : Time

/-- The firing pages that the step from `s` to `t` enqueued for the stream. -/
def State.newPages (k : Option UUID × String) (s t : State) : List Page :=
  (((t.jobs.drop s.jobs.length).filter fun j =>
      j.forState = .firing && t.instances.any fun i =>
        i.id = j.alertInstanceID && t.streamOf i = some k).map
    NotificationJob.alertInstanceID).dedup.map fun id => ⟨id, s.world.now⟩

/-- The engine, and the pages the stream has had so far. -/
structure Watched where
  state : State
  pages : List Page := []

/-- The pages of a step join those the stream `k` has had. -/
def Watched.step (k : Option UUID × String) (x : Watched) (a : Action) : Watched where
  state := x.state.step a
  pages := x.pages ++ x.state.newPages k (x.state.step a)

/-- The interval of `n` minutes lies between the two pages; with no interval a stream
is paged once. -/
def Apart (n : Nat) (p q : Page) : Prop :=
  0 < n ∧ (p.sentAt : Int) + n * minute ≤ q.sentAt

/-- Another page now would come too early after this one. -/
def Page.Recent (n : Nat) (now : Time) (p : Page) : Prop :=
  n = 0 ∨ (now : Int) < p.sentAt + n * minute

instance (n : Nat) (p q : Page) : Decidable (Apart n p q) :=
  inferInstanceAs (Decidable (_ ∧ _))

instance (n : Nat) (now : Time) (p : Page) : Decidable (p.Recent n now) :=
  inferInstanceAs (Decidable (_ ∨ _))

variable {s : State} {k : Option UUID × String} {p : Page} {n : Nat} {t : State} {i : AlertInstance}
  {a : Action} {now : Time} {q : Page} {x : Watched}

theorem apart_of_not_recent (h : ¬ p.Recent n now) (hq : q.sentAt = now) : Apart n p q := by
  rw [Page.Recent, ← hq, not_or, Int.not_lt] at h
  exact ⟨Nat.pos_of_ne_zero h.1, h.2⟩

theorem State.mem_newPages :
    p ∈ s.newPages k t ↔ p.sentAt = s.world.now ∧
      ∃ j ∈ t.jobs.drop s.jobs.length, j.alertInstanceID = p.instanceID ∧
        j.forState = .firing ∧ ∃ i ∈ t.instances, i.id = p.instanceID ∧ t.streamOf i = some k := by
  unfold newPages
  simp only [List.mem_map, List.mem_dedup, List.mem_filter, Bool.and_eq_true,
    decide_eq_true_eq, List.any_eq_true]
  constructor
  · rintro ⟨_, ⟨j, ⟨hj, hfiring, i, hi, hid, hk⟩, rfl⟩, rfl⟩
    exact ⟨rfl, j, hj, rfl, hfiring, i, hi, hid, hk⟩
  · rintro ⟨hsent, j, hj, hid, hfiring, i, hi, hiid, hk⟩
    exact ⟨p.instanceID, ⟨j, ⟨hj, hfiring, i, hi, hiid.trans hid.symm, hk⟩, hid⟩, by rw [← hsent]⟩

theorem State.nodup_newPages (k : Option UUID × String) (s t : State) : (s.newPages k t).Nodup :=
  List.Nodup.map (fun _ _ h => (Page.mk.inj h).1) (List.nodup_dedup _)

theorem State.newPages_eq_nil
    (h : ∀ j ∈ t.jobs.drop s.jobs.length, j.forState = .firing → ∀ i ∈ t.instances,
      i.id = j.alertInstanceID → t.streamOf i ≠ some k) : s.newPages k t = [] := by
  refine List.eq_nil_iff_forall_not_mem.2 fun p hp => ?_
  obtain ⟨_, j, hj, hid, hfiring, i, hi, hiid, hk⟩ := mem_newPages.1 hp
  exact h j hj hfiring i hi (hiid.trans hid.symm) hk

theorem wrap64_of_small {x : Int} (h₀ : 0 ≤ x) (h : x < 2 ^ 63) : wrap64 x = x := by
  unfold wrap64
  exact Int.bmod_eq_of_le (by omega) (by omega)

/-- Within the range of `time.Duration` a due stream was last paged an interval ago. -/
theorem apart_of_due (hn : n ≤ 153722867) {m : Time} (hdue : due now (some m) n) (hp : p.sentAt ≤ m)
    (hq : q.sentAt = now) : Apart n p q := by
  unfold due at hdue
  dsimp only at hdue
  split at hdue
  · cases hdue
  · next hpos =>
    have hn' : 0 < n := by omega
    have hminute : minute = 60000000000 := by decide
    have hwrap : wrap64 (wrap64 n * minute) = n * 60000000000 := by
      rw [wrap64_of_small (x := n) (by omega) (by omega), hminute]
      exact wrap64_of_small (by omega) (by omega)
    have hle := of_decide_eq_true hdue
    rw [hwrap] at hle
    refine ⟨hn', ?_⟩
    rw [hq, hminute]
    unfold timeSub at hle
    unfold Time Duration at *
    omega

/-! ## Membership -/

/-- A firing, unacknowledged row of a check of the stream's integration, labelled with
the stream's environment. -/
def State.Joins (s : State) (k : Option UUID × String) (i : AlertInstance) : Prop :=
  i.FiringUnacked ∧ ∃ rule, s.world.rule? i.alertRuleID = some rule ∧
    rule.integrationID = k.1 ∧ i.environment.getD "" = k.2

/-- Every check of the integration groups per integration in this environment, with
interval `n`. -/
def State.Grouped (s : State) (k : Option UUID × String) (n : Nat) : Prop :=
  ∀ rule ∈ s.world.rules, rule.integrationID = k.1 → ∀ env : Option String,
    env.getD "" = k.2 → s.world.behavior env rule = (.perIntegration, (n : Int))

theorem State.joins_of_streamOf (h : s.streamOf i = some k) : s.Joins k i := by
  obtain ⟨hfiring, rule, hrule, _, rfl⟩ := streamOf_eq_some.1 h
  exact ⟨hfiring, rule, hrule, rfl, rfl⟩

theorem State.Grouped.coalesces (h : s.Grouped k n) (hk : k.1.isSome) {env : Option String}
    {rule : AlertRule} (hrule : rule ∈ s.world.rules) (hinteg : rule.integrationID = k.1)
    (henv : env.getD "" = k.2) : s.world.coalesces env rule := by
  unfold World.coalesces
  rw [h rule hrule hinteg env henv, hinteg, hk]
  rfl

theorem State.Grouped.streamOf (h : s.Grouped k n) (hk : k.1.isSome) (hi : s.Joins k i) :
    s.streamOf i = some k := by
  obtain ⟨hfiring, rule, hrule, hinteg, henv⟩ := hi
  have hc := h.coalesces hk (mem_of_rule? hrule).1 hinteg henv
  refine streamOf_eq_some.2 ⟨hfiring, rule, hrule, hc, ?_⟩
  rw [hinteg, henv]

/-! ## Steps that page no stream -/

/-- The step pages the stream of `k` not at all, keeps every row, and brings no row with
a watermark into the stream. -/
structure QuietStep (k : Option UUID × String) (s t : State) : Prop where
  kept : ∀ i ∈ s.instances, ∃ i' ∈ t.instances, i'.id = i.id ∧
    (i'.lastNotifiedAt = i.lastNotifiedAt ∨ i'.lastNotifiedAt = some s.world.now)
  joined : ∀ i' ∈ t.instances, t.Joins k i' → i'.lastNotifiedAt ≠ none →
    ∃ i ∈ s.instances, s.Joins k i ∧ i.lastNotifiedAt ≠ none
  jobs : ∃ new, t.jobs = s.jobs ++ new ∧ ∀ j ∈ new, j.forState = .firing →
    ∀ i ∈ t.instances, i.id = j.alertInstanceID → ¬ t.Joins k i

section QuietStep

variable {k : Option UUID × String} {s t u : State}

theorem quiet_of_tables (hinst : t.instances = s.instances) (hjobs : t.jobs = s.jobs)
    (hjoin : ∀ i ∈ s.instances, t.Joins k i → s.Joins k i) : QuietStep k s t where
  kept := by
    rw [hinst]
    exact fun i hi => ⟨i, hi, rfl, .inl rfl⟩
  joined := by
    rw [hinst]
    exact fun i hi hj hm => ⟨i, hi, hjoin i hi hj, hm⟩
  jobs := ⟨[], by simp [hjobs], by simp⟩

theorem quiet_of_rules (hinst : t.instances = s.instances) (hjobs : t.jobs = s.jobs)
    (hrules : t.world.rules = s.world.rules) : QuietStep k s t := by
  refine quiet_of_tables hinst hjobs fun i _ ⟨hfiring, rule, hrule, hkey⟩ => ?_
  unfold rule? at hrule
  rw [hrules] at hrule
  exact ⟨hfiring, rule, hrule, hkey⟩

theorem QuietStep.refl (k : Option UUID × String) (s : State) : QuietStep k s s :=
  quiet_of_rules rfl rfl rfl

theorem QuietStep.after (h : QuietStep k s t) (hjobs : t.jobs = s.jobs)
    (hnow : t.world.now = s.world.now) (h' : QuietStep k t u) : QuietStep k s u where
  kept := by
    intro i hi
    obtain ⟨i', hi', hid, hmark⟩ := h.kept i hi
    obtain ⟨i'', hi'', hid', hmark'⟩ := h'.kept i' hi'
    refine ⟨i'', hi'', hid'.trans hid, ?_⟩
    rw [hnow] at hmark'
    rcases hmark' with heq | heq
    · rwa [heq]
    · exact .inr heq
  joined := by
    intro i hi hj hm
    obtain ⟨i', hi', hj', hm'⟩ := h'.joined i hi hj hm
    exact h.joined i' hi' hj' hm'
  jobs := by
    rw [← hjobs]
    exact h'.jobs

theorem quiet_updateInstances {p : AlertInstance → Bool} {f : AlertInstance → AlertInstance}
    (hf : ∀ i, SameInstance i (f i)) (henv : ∀ i, (f i).environment = i.environment)
    (hmark : ∀ i, (f i).lastNotifiedAt = i.lastNotifiedAt) :
    QuietStep k s { s with instances := updateWhere p f s.instances } where
  kept := by
    intro i hi
    cases hp : p i
    · exact ⟨i, mem_updateWhere_of_not hi hp, rfl, .inl rfl⟩
    · exact ⟨f i, mem_updateWhere_of hi hp, (hf i).id, .inl (hmark i)⟩
  joined := by
    intro i hi ⟨hfiring, rule, hrule, hinteg, hlabel⟩ hm
    obtain ⟨i₀, hi₀, ⟨_, rfl⟩ | ⟨_, rfl⟩⟩ := mem_updateWhere.1 hi
    · rw [(hf i₀).alertRuleID] at hrule
      rw [henv] at hlabel
      rw [hmark] at hm
      have hfiring₀ : i₀.FiringUnacked :=
        ⟨(hf i₀).firing hfiring.1, (hf i₀).unacked hfiring.2⟩
      exact ⟨i₀, hi₀, ⟨hfiring₀, rule, hrule, hinteg, hlabel⟩, hm⟩
    · exact ⟨i, hi₀, ⟨hfiring, rule, hrule, hinteg, hlabel⟩, hm⟩
  jobs := ⟨[], by simp, by simp⟩

theorem quiet_openInstance (ruleID : UUID) (fingerprint : String) (env : Option String) :
    QuietStep k s (s.openInstance ruleID fingerprint env).2 where
  kept := fun i hi => ⟨i, List.mem_append_left _ hi, rfl, .inl rfl⟩
  joined := by
    intro i hi hj hm
    rcases List.mem_append.1 hi with hold | hnew
    · exact ⟨i, hold, hj, hm⟩
    · obtain rfl := List.mem_singleton.1 hnew
      exact absurd rfl hm
  jobs := ⟨[], by simp [openInstance], by simp⟩

variable {env : Option String} {fault : Fault}

theorem quiet_enqueueJobs {instanceID : UUID} {channelIDs : List UUID} {window : Duration}
    (hout : insertedChannels fault channelIDs ≠ [] →
      ∀ i ∈ s.instances, i.id = instanceID → ¬ s.Joins k i) :
    QuietStep k s (s.enqueueJobs fault instanceID channelIDs window).2 where
  kept := by
    rw [enqueueJobs_instances]
    exact fun i hi => ⟨i, hi, rfl, .inl rfl⟩
  joined := by
    unfold State.Joins
    rw [enqueueJobs_instances, enqueueJobs_world]
    exact fun i hi hj hm => ⟨i, hi, hj, hm⟩
  jobs := by
    refine ⟨_, enqueueJobs_jobs _ _ _ _ _, fun j hj _ i hi hid => ?_⟩
    obtain ⟨hins, _, _, _, hjid, _⟩ := mem_appendedJobs hj
    unfold State.Joins
    rw [enqueueJobs_world]
    rw [enqueueJobs_instances] at hi
    exact hout hins i hi (hid.trans hjid)

theorem quiet_page {instanceID : UUID} {rule : AlertRule}
    (hout : ∀ i ∈ s.instances, i.id = instanceID → ¬ s.Joins k i) :
    QuietStep k s (s.page fault env instanceID rule) where
  kept := by
    intro i hi
    obtain ⟨i', hi', hsame, hmark⟩ := (tickFrame_page s fault env instanceID rule).marks i hi
    exact ⟨i', hi', hsame.id, hmark⟩
  joined := by
    have hworld := (tickFrame_page s fault env instanceID rule).world
    intro i hi hj hm
    unfold State.Joins at hj
    rw [hworld] at hj
    by_cases hwhole : InsertsAll fault (s.world.channelsFor env rule)
    · rw [page_of_insertsAll hwhole] at hi
      obtain ⟨i₀, hi₀, ⟨hp, rfl⟩ | ⟨_, rfl⟩⟩ := mem_updateWhere.1 hi
      · rw [enqueueJobs_instances] at hi₀
        exact absurd hj (hout i₀ hi₀ (by simpa using hp))
      · rw [enqueueJobs_instances] at hi₀
        exact ⟨i, hi₀, hj, hm⟩
    · rw [page_of_not_insertsAll hwhole, enqueueJobs_instances] at hi
      exact ⟨i, hi, hj, hm⟩
  jobs := by
    refine ⟨_, page_jobs s fault env instanceID rule, fun j hj _ i' hi' hid hj' => ?_⟩
    have hframe := tickFrame_page s fault env instanceID rule
    obtain ⟨_, _, _, _, hjid, _⟩ := mem_appendedJobs hj
    obtain ⟨i, hi, hsame⟩ := hframe.old hi'
    refine hout i hi (hsame.id.symm.trans (hid.trans hjid)) ?_
    obtain ⟨hfiring, hkey⟩ := hj'
    rw [hframe.world, hsame.alertRuleID, hsame.environment] at hkey
    exact ⟨hsame.firingUnacked.1 hfiring, hkey⟩

theorem quiet_resolveOrHold (fault : Fault) (env : Option String) (active : AlertInstance)
    (rule : AlertRule) : QuietStep k s (s.resolveOrHold fault env active rule) := by
  have hresolved : QuietStep k s (s.resolveInstance active.id) :=
    quiet_updateInstances (fun i => sameInstance_resolved i _) (fun _ => rfl) fun _ => rfl
  rcases s.resolveOrHold_cases fault env active rule with
    ⟨_, _, heq⟩ | ⟨_, _, heq⟩ | ⟨_, heq⟩
  · rw [heq]
    exact quiet_updateInstances (fun i => sameInstance_touched i _) (fun _ => rfl) fun _ => rfl
  · rw [heq]
    refine hresolved.after rfl rfl (quiet_enqueueJobs fun _ i hi hid hj => ?_)
    obtain ⟨i₀, _, ⟨_, rfl⟩ | ⟨hp, rfl⟩⟩ := mem_updateWhere.1 hi
    · cases hj.1.1
    · simp [hid] at hp
  · rwa [heq]

theorem quiet_opened (env : Option String) (rule : AlertRule) : QuietStep k s (s.opened env rule) :=
  (quiet_openInstance rule.id (fingerprintFor env) env).after rfl rfl
    (quiet_of_rules (refreshWindows_instances _) (refreshWindows_jobs _)
      (congrArg rules (refreshWindows_world _)))

variable {rule : AlertRule}

theorem quiet_openFiring {n : Nat} (hsound : s.Sound) (hgrouped : s.Grouped k n) (hk : k.1.isSome)
    (hrule : s.world.rule? rule.id = some rule) : QuietStep k s (s.openFiring fault env rule) := by
  have hopened : QuietStep k s (s.opened env rule) := quiet_opened env rule
  have hworld : (s.opened env rule).world = s.world := refreshWindows_world _
  have hjobs : (s.opened env rule).jobs = s.jobs := refreshWindows_jobs _
  have hnow : (s.opened env rule).world.now = s.world.now := by rw [hworld]
  rcases s.openFiring_cases fault env rule with ⟨w, _, heq⟩ | ⟨_, _, heq⟩ | ⟨_, hc, heq⟩
  · rw [heq]
    exact hopened.after hjobs hnow
      (quiet_updateInstances (fun i => sameInstance_stamped i _) (fun _ => rfl) fun _ => rfl)
  · rwa [heq]
  · rw [heq]
    refine hopened.after hjobs hnow (quiet_page fun i hi hid ⟨_, rule', hrule', hinteg, henv⟩ => ?_)
    obtain ⟨hruleID, hlabel⟩ := hsound.keyed.row_opened hi hid
    rw [hworld, hruleID, hrule] at hrule'
    obtain rfl : rule = rule' := Option.some.inj hrule'
    rw [hlabel] at henv
    rw [hgrouped.coalesces hk (mem_of_rule? hrule).1 hinteg henv] at hc
    cases hc

theorem quiet_drive {n : Nat} (hsound : s.Sound) (hgrouped : s.Grouped k n) (hk : k.1.isSome)
    {v : Verdict} (hrule : s.world.rule? rule.id = some rule)
    (hmetric : v.confirm = .refresh → rule.spec.signal = .metric) :
    QuietStep k s (s.drive fault env rule v) := by
  have htouched : ∀ id, QuietStep k s (s.touchInstance id) := fun id =>
    quiet_updateInstances (fun i => sameInstance_touched i _) (fun _ => rfl) fun _ => rfl
  rcases s.drive_cases fault env rule v with heq | ⟨_, _, heq⟩ |
    ⟨active, hactive, ⟨_, heq⟩ | ⟨hconfirm, heq⟩ | ⟨_, heq⟩⟩
  · rw [heq]
    exact QuietStep.refl k s
  · rw [heq]
    exact quiet_openFiring hsound hgrouped hk hrule
  · rw [heq]
    exact htouched active.id
  · rw [heq, hsound.refreshInstance_eq hrule (hmetric hconfirm) hactive]
    exact htouched active.id
  · rw [heq]
    exact quiet_resolveOrHold fault env active rule

theorem quiet_evaluate {n : Nat} (hsound : s.Sound) (hgrouped : s.Grouped k n)
    (hk : k.1.isSome) (fault : Fault) (tel : Telemetry) (env : Option String)
    (hrule : s.world.rule? rule.id = some rule) :
    QuietStep k s (s.evaluate fault tel env rule) := by
  unfold evaluate
  split
  · exact QuietStep.refl k s
  · next v hv =>
    obtain ⟨readings, heq⟩ := s.recordReading_eq rule.id v.reading
    have hsound' : State.Sound { s with readings := readings } :=
      hsound.congr rfl rfl rfl rfl
    have hread : QuietStep k s { s with readings := readings } := quiet_of_rules rfl rfl rfl
    rw [heq]
    exact hread.after rfl rfl (quiet_drive hsound' hgrouped hk hrule (metric_of_refresh hv))

theorem quiet_fireDelayed (hsound : s.Sound) {integrationID : UUID} {fingerprint : String}
    (hrule : s.world.rule? rule.id = some rule)
    (hins : s.activeInstance rule.id fingerprint = none →
      suppressingWindowForIntegration s.world.windows s.world.now integrationID = none →
      k = (rule.integrationID, "") → insertedChannels fault rule.channelIDs = []) :
    QuietStep k s (s.fireDelayed fault rule integrationID fingerprint) := by
  have hopened : QuietStep k s (s.openInstance rule.id fingerprint none).2 :=
    quiet_openInstance rule.id fingerprint none
  rcases s.fireDelayed_cases fault rule integrationID fingerprint with
    ⟨active, _, heq⟩ | ⟨w, _, _, heq⟩ | ⟨hnone, hsup, heq⟩
  · rw [heq]
    exact quiet_updateInstances (fun i => sameInstance_touched i _) (fun _ => rfl) fun _ => rfl
  · rw [heq]
    exact hopened.after rfl rfl
      (quiet_updateInstances (fun i => sameInstance_stamped i _) (fun _ => rfl) fun _ => rfl)
  · rw [heq]
    refine hopened.after rfl rfl
      (quiet_enqueueJobs fun hne i hi hid ⟨_, rule', hrule', hinteg, henv⟩ => ?_)
    obtain ⟨hruleID, hlabel, _⟩ := hsound.keyed.row_openInstance hi hid
    rw [hruleID] at hrule'
    obtain rfl : rule = rule' := Option.some.inj (hrule.symm.trans hrule')
    rw [hlabel] at henv
    exact hne (hins hnone hsup (Prod.ext hinteg.symm henv.symm))

end QuietStep

/-- While an earlier page is recent a tick finds the instance it was for to represent the
stream; the stream's page is enqueued whole or not at all, to some channel; no delayed
trace of the integration is paged directly; no check is moved into the integration. -/
def KeepsRepresentative (k : Option UUID × String) (n : Nat) (x : Watched) : Action → Prop
  | .renotify faults _ =>
    ∀ rep ∈ x.state.instances, x.state.Represents rep k →
      (∀ p ∈ x.pages, p.Recent n x.state.world.now → rep.id = p.instanceID) ∧
      ∀ rule, x.state.world.rule? rep.alertRuleID = some rule →
        x.state.world.channelsFor rep.environment rule ≠ [] ∧
        (insertedChannels (faults rep.id) (x.state.world.channelsFor rep.environment rule) = [] ∨
          InsertsAll (faults rep.id) (x.state.world.channelsFor rep.environment rule))
  | .fireDelayed fault ruleID fingerprint =>
    ∀ rule integrationID, x.state.world.rule? ruleID = some rule → rule.enabled →
      rule.integrationID = some integrationID →
      x.state.activeInstance rule.id fingerprint = none →
      suppressingWindowForIntegration x.state.world.windows x.state.world.now
        integrationID = none →
      k = (rule.integrationID, "") → insertedChannels fault rule.channelIDs = []
  | .updateRule rule =>
    rule.integrationID = k.1 →
      ∃ old, x.state.world.rule? rule.id = some old ∧ old.integrationID = k.1
  | _ => True

theorem quiet_step (hsound : x.state.Sound) (hgrouped : x.state.Grouped k n) (hk : k.1.isSome)
    (ha : KeepsRepresentative k n x a) (htick : ∀ faults insts, a ≠ .renotify faults insts) :
    QuietStep k x.state (x.state.step a) := by
  cases a with
  | evaluate fault tel ruleID env =>
    rcases x.state.step_evaluate_cases fault tel ruleID env with
      heq | ⟨rule, hrule, _, heq⟩
    · rw [heq]
      exact QuietStep.refl k x.state
    · rw [heq]
      exact quiet_evaluate hsound hgrouped hk fault tel env
        (by rwa [(mem_of_rule? hrule).2])
  | fireDelayed fault ruleID fingerprint =>
    rcases x.state.step_fireDelayed_cases fault ruleID fingerprint with
      heq | ⟨rule, integrationID, hrule, henabled, _, hinteg, heq⟩
    · rw [heq]
      exact QuietStep.refl k x.state
    · rw [heq]
      exact quiet_fireDelayed hsound (by rwa [(mem_of_rule? hrule).2])
        (ha rule integrationID hrule henabled hinteg)
  | renotify faults insts => exact absurd rfl (htick faults insts)
  | retireLegacy ruleID =>
    show QuietStep k x.state (x.state.retireLegacyInstance ruleID)
    rcases x.state.retireLegacyInstance_cases ruleID with heq | ⟨active, _, heq⟩
    · rw [heq]
      exact QuietStep.refl k x.state
    · rw [heq]
      exact quiet_updateInstances (fun i => sameInstance_resolved i _) (fun _ => rfl) fun _ => rfl
  | resolveStageFiring ruleID fingerprint =>
    show QuietStep k x.state (x.state.resolveStageFiring ruleID fingerprint)
    rcases x.state.resolveStageFiring_cases ruleID fingerprint with heq | ⟨active, _, heq⟩
    · rw [heq]
      exact QuietStep.refl k x.state
    · rw [heq]
      exact quiet_updateInstances (fun i => sameInstance_resolved i _) (fun _ => rfl) fun _ => rfl
  | acknowledge instanceID =>
    exact quiet_updateInstances (fun i => sameInstance_acknowledged i _) (fun _ => rfl)
      fun _ => rfl
  | resolveManual instanceID =>
    exact quiet_updateInstances (fun i => sameInstance_closed i _) (fun _ => rfl) fun _ => rfl
  | clearErrors service =>
    exact quiet_updateInstances (fun i => sameInstance_closed i _) (fun _ => rfl) fun _ => rfl
  | updateRule rule =>
    refine quiet_of_tables rfl rfl fun i hi ⟨hfiring, r', hr', hinteg, henv⟩ => ?_
    obtain ⟨r, hr, _⟩ := hsound.ruled i hi
    obtain ⟨r'', hr'', _, hcase⟩ := rule?_updateRule hr rule
    obtain rfl : r'' = r' := Option.some.inj (hr''.symm.trans hr')
    refine ⟨hfiring, r, hr, ?_, henv⟩
    rcases hcase with rfl | ⟨_, rfl⟩
    · exact hinteg
    · obtain ⟨old, hold, holdInteg⟩ := ha hinteg
      rw [show rule.id = i.alertRuleID from (mem_of_rule? hr'').2, hr] at hold
      rw [Option.some.inj hold]
      exact holdInteg
  | createRule rule =>
    refine quiet_of_tables rfl rfl fun i hi ⟨hfiring, r', hr', hkey⟩ => ?_
    obtain ⟨r, hr, _⟩ := hsound.ruled i hi
    have hsame := State.rule?_createRule hr rule
    obtain rfl : r = r' := Option.some.inj (hsame.symm.trans hr')
    exact ⟨hfiring, r, hr, hkey⟩
  | pushReading _ _ | advance _ | setWindows _ | setResolver _ | setEnvironments _ =>
    exact quiet_of_rules rfl rfl rfl

/-- Pages are apart; each is no newer than the watermark of the instance it was for; and
a stream that was never paged has no watermark. -/
structure Coalesced (k : Option UUID × String) (n : Nat) (x : Watched) : Prop where
  sound : x.state.Sound
  spaced : x.pages.Pairwise (Apart n)
  marked : ∀ p ∈ x.pages, p.sentAt ≤ x.state.world.now ∧ ∃ i ∈ x.state.instances,
    i.id = p.instanceID ∧ ∃ m, i.lastNotifiedAt = some m ∧ p.sentAt ≤ m
  unpaged : x.pages = [] → ∀ i ∈ x.state.instances, x.state.Joins k i → i.lastNotifiedAt = none

theorem Coalesced.quiet (h : Coalesced k n x) (hquiet : QuietStep k x.state (x.state.step a))
    (hnow : x.state.world.now ≤ (x.state.step a).world.now) : Coalesced k n (x.step k a) := by
  have hnone : x.state.newPages k (x.state.step a) = [] := by
    obtain ⟨new, hjobs, hnew⟩ := hquiet.jobs
    refine newPages_eq_nil fun j hj hfiring i hi hid hk => ?_
    rw [hjobs, List.drop_left] at hj
    exact hnew j hj hfiring i hi hid (joins_of_streamOf hk)
  have hpages : (x.step k a).pages = x.pages := by
    simp only [Watched.step, hnone, List.append_nil]
  refine ⟨h.sound.step a, by rw [hpages]; exact h.spaced, fun p hp => ?_, fun hnil i hi hj => ?_⟩
  · rw [hpages] at hp
    obtain ⟨hle, i, hi, hid, m, hm, hpm⟩ := h.marked p hp
    obtain ⟨i', hi', hid', hmark⟩ := hquiet.kept i hi
    refine ⟨Nat.le_trans hle hnow, i', hi', hid'.trans hid, ?_⟩
    rcases hmark with heq | heq
    · exact ⟨m, heq.trans hm, hpm⟩
    · exact ⟨_, heq, hle⟩
  · rw [hpages] at hnil
    by_contra hm
    obtain ⟨i₀, hi₀, hj₀, hm₀⟩ := hquiet.joined i hi hj hm
    exact hm₀ (h.unpaged hnil i₀ hi₀ hj₀)

section Tick

variable {k : Option UUID × String} {n : Nat} {x : Watched} {faults : UUID → Fault}
  {insts : List FiringUnackedInstance}

theorem State.newPages_tick {s : State} (hsound : s.Sound)
    (hinsts : insts.Perm s.firingUnackedInstances) {p : Page}
    (hp : p ∈ s.newPages k (s.renotifyOnce faults insts)) :
    p.sentAt = s.world.now ∧ ∃ rep ∈ s.instances, rep.id = p.instanceID ∧
      s.Represents rep k ∧ ∃ rule, s.world.rule? rep.alertRuleID = some rule ∧
        .renotify (s.world.renotifyItem rep.toFiringUnacked rule) ∈ s.renotifyPlan insts ∧
        due s.world.now rep.lastNotifiedAt (s.world.behavior rep.environment rule).2 ∧
        insertedChannels (faults rep.id) (s.world.channelsFor rep.environment rule) ≠ [] := by
  have hframe := tickFrame_renotifyOnce s faults insts
  obtain ⟨hsent, j, hj, hjid, _, i', hi', hid', hk⟩ := mem_newPages.1 hp
  obtain ⟨it, hplan, hitid, hins⟩ := sends_of_appended hj
  obtain ⟨i, hi, hfiring, hspeaks, rule, hrule, _, rfl, hdue⟩ :=
    speaks_of_plan hinsts hplan
  obtain ⟨i₀, hi₀, hsame⟩ := hframe.old hi'
  have hid : i.id = p.instanceID := hitid.trans hjid
  have heq : i₀ = i :=
    eq_of_key_eq hsound.keyed.ids hi₀ hi (hsame.id.symm.trans (hid'.trans hid.symm))
  rw [hframe.streamOf hsame, heq] at hk
  obtain ⟨_, rule', hrule', hc, _⟩ := streamOf_eq_some.1 hk
  obtain rfl : rule = rule' := Option.some.inj (hrule.symm.trans hrule')
  rw [← hitid] at hins
  exact ⟨hsent, i, hi, hid, hspeaks k hk, rule, hrule, hplan, hdue hc, hins⟩

theorem State.newPages_tick_unique {s : State} (hsound : s.Sound)
    (hinsts : insts.Perm s.firingUnackedInstances) {p q : Page}
    (hp : p ∈ s.newPages k (s.renotifyOnce faults insts))
    (hq : q ∈ s.newPages k (s.renotifyOnce faults insts)) : p = q := by
  obtain ⟨hsentP, i, hi, hidP, hrepP, rule, hrule, hplanP, _⟩ :=
    newPages_tick hsound hinsts hp
  obtain ⟨hsentQ, j, hj, hidQ, hrepQ, ruleQ, hruleQ, hplanQ, _⟩ :=
    newPages_tick hsound hinsts hq
  obtain ⟨_, hcP, hkP⟩ := (mem_stream_iff hinsts).2 ⟨i, hi, hrepP.1, rule, hrule, rfl⟩
  obtain ⟨_, hcQ, hkQ⟩ := (mem_stream_iff hinsts).2 ⟨j, hj, hrepQ.1, ruleQ, hruleQ, rfl⟩
  have heq := eq_of_same_stream hplanP hplanQ hcP hcQ (hkP.trans hkQ.symm)
  have hid : i.id = j.id := congrArg (fun it : RenotifyItem => it.inst.instanceID) heq
  cases p
  cases q
  simp only [Page.mk.injEq]
  exact ⟨hidP.symm.trans (hid.trans hidQ), hsentP.trans hsentQ.symm⟩

variable {rep : AlertInstance} {rule : AlertRule}

theorem State.Grouped.interval {s : State} (h : s.Grouped k n) (hk : s.streamOf rep = some k)
    (hrule : s.world.rule? rep.alertRuleID = some rule) :
    (s.world.behavior rep.environment rule).2 = n := by
  obtain ⟨_, rule', hrule', hinteg, henv⟩ := joins_of_streamOf hk
  obtain rfl : rule = rule' := Option.some.inj (hrule.symm.trans hrule')
  rw [h rule (mem_of_rule? hrule).1 hinteg rep.environment henv]

theorem State.mem_newPages_of_plan {s : State} (hsound : s.Sound) (hrep : rep ∈ s.instances)
    (hk : s.streamOf rep = some k)
    (hplan : .renotify (s.world.renotifyItem rep.toFiringUnacked rule) ∈ s.renotifyPlan insts)
    (hins : insertedChannels (faults rep.id) (s.world.channelsFor rep.environment rule) ≠ []) :
    ⟨rep.id, s.world.now⟩ ∈ s.newPages k (s.renotifyOnce faults insts) := by
  have hframe := tickFrame_renotifyOnce s faults insts
  obtain ⟨j, hj, hid, hstate⟩ := appended_renotifyOnce hsound.keyed hplan hrep rfl hins
  obtain ⟨rep', hrep', hsame⟩ := hframe.kept hrep
  obtain ⟨hfiring, _⟩ := streamOf_eq_some.1 hk
  exact mem_newPages.2 ⟨rfl, j, hj, hid, hstate.trans hfiring.1, rep', hrep', hsame.id,
    (hframe.streamOf hsame).trans hk⟩

theorem inserted_of_insertsAll {fault : Fault} {channelIDs : List UUID}
    (h : InsertsAll fault channelIDs) (hchans : channelIDs ≠ []) :
    insertedChannels fault channelIDs ≠ [] := by
  intro hnone
  rw [InsertsAll, hnone] at h
  exact insertedChannels_none hchans (List.eq_nil_of_length_eq_zero h.symm)

theorem Coalesced.tick (h : Coalesced k n x) (hn : n ≤ 153722867) (hgrouped : x.state.Grouped k n)
    (hk : k.1.isSome) (hinsts : insts.Perm x.state.firingUnackedInstances)
    (ha : KeepsRepresentative k n x (.renotify faults insts)) :
    Coalesced k n (x.step k (.renotify faults insts)) := by
  have hstep : x.state.step (.renotify faults insts) = x.state.renotifyOnce faults insts :=
    if_pos hinsts
  have hframe := tickFrame_renotifyOnce x.state faults insts
  have hnow : (x.state.renotifyOnce faults insts).world.now = x.state.world.now := by
    rw [hframe.world]
  refine ⟨h.sound.step (.renotify faults insts), ?_, ?_, ?_⟩
  · -- the earlier pages that are recent are those of the due representative
    refine List.pairwise_append.2 ⟨h.spaced, ?_, fun p hp q hq => ?_⟩
    · rw [hstep]
      refine (nodup_newPages _ _ _).pairwise_of_forall_ne fun p hp q hq hne => ?_
      exact absurd (newPages_tick_unique h.sound hinsts hp hq) hne
    · rw [hstep] at hq
      obtain ⟨hsent, rep, hrep, _, hrepresents, rule, hrule, _, hdue, _⟩ :=
        newPages_tick h.sound hinsts hq
      by_cases hrecent : p.Recent n x.state.world.now
      · have hid := (ha rep hrep hrepresents).1 p hp hrecent
        obtain ⟨_, i, hi, hidP, m, hm, hpm⟩ := h.marked p hp
        obtain rfl : i = rep := eq_of_key_eq h.sound.keyed.ids hi hrep (hidP.trans hid.symm)
        rw [hm, hgrouped.interval hrepresents.1 hrule] at hdue
        exact apart_of_due hn hdue hpm hsent
      · exact apart_of_not_recent hrecent hsent
  · intro p hp
    show p.sentAt ≤ (x.state.step _).world.now ∧ ∃ i ∈ (x.state.step _).instances, _
    rw [hstep, hnow]
    rcases List.mem_append.1 hp with hold | hnew
    · obtain ⟨hle, i, hi, hid, m, hm, hpm⟩ := h.marked p hold
      obtain ⟨i', hi', hsame, hmark⟩ := hframe.marks i hi
      refine ⟨hle, i', hi', hsame.id.trans hid, ?_⟩
      rcases hmark with heq | heq
      · exact ⟨m, heq.trans hm, hpm⟩
      · exact ⟨_, heq, hle⟩
    · rw [hstep] at hnew
      obtain ⟨hsent, rep, hrep, hid, hrepresents, rule, hrule, hplan, _, hins⟩ :=
        newPages_tick h.sound hinsts hnew
      have hwhole := (((ha rep hrep hrepresents).2 rule hrule).2).resolve_left hins
      obtain ⟨i', hi', hsame, hmark⟩ := watermark_renotifyOnce hplan hrep rfl hwhole
      exact ⟨Nat.le_of_eq hsent, i', hi', hsame.id.trans hid, _, hmark, Nat.le_of_eq hsent⟩
  · intro hnil i' hi' hj'
    have hnil := List.append_eq_nil_iff.1 hnil
    have hi'' : i' ∈ (x.state.renotifyOnce faults insts).instances := by rwa [← hstep]
    have hj : ∀ i, SameRow i i' → x.state.Joins k i := by
      intro i hsame
      have hj'' : (x.state.renotifyOnce faults insts).Joins k i' := by rwa [← hstep]
      obtain ⟨hfiring, hkey⟩ := hj''
      rw [hframe.world, hsame.alertRuleID, hsame.environment] at hkey
      exact ⟨hsame.firingUnacked.1 hfiring, hkey⟩
    by_contra hm
    obtain ⟨i, hi, hsame, hold | ⟨it, hplan, hitid, hwhole⟩⟩ := marks_of_marked hi'' hm
    · exact hold (h.unpaged hnil.1 i hi (hj i hsame))
    -- the watermark was set by a page, and the page is a new one of the stream
    obtain ⟨i₁, hi₁, _, hspeaks, rule, hrule, _, rfl, _⟩ := speaks_of_plan hinsts hplan
    obtain rfl : i₁ = i := eq_of_key_eq h.sound.keyed.ids hi₁ hi hitid
    have hik := hgrouped.streamOf hk (hj i₁ hsame)
    have hchans := ((ha i₁ hi (hspeaks k hik)).2 rule hrule).1
    have hpage := mem_newPages_of_plan h.sound hi hik hplan
      (inserted_of_insertsAll hwhole hchans)
    rw [← hstep, hnil.2] at hpage
    cases hpage

/-- **Step lemma.** -/
theorem Coalesced.step {a : Action} (h : Coalesced k n x) (hn : n ≤ 153722867)
    (hgrouped : x.state.Grouped k n) (hk : k.1.isSome)
    (ha : KeepsRepresentative k n x a) : Coalesced k n (x.step k a) := by
  have hnow := x.state.now_le_step a
  by_cases htick : ∃ faults insts, a = .renotify faults insts
  · obtain ⟨faults, insts, rfl⟩ := htick
    rcases x.state.step_renotify_cases faults insts with heq | ⟨hinsts, _⟩
    · exact h.quiet (by rw [heq]; exact QuietStep.refl k x.state) hnow
    · exact h.tick hn hgrouped hk hinsts ha
  · have hother : ∀ faults insts, a ≠ .renotify faults insts :=
      fun faults insts heq => htick ⟨faults, insts, heq⟩
    exact h.quiet (quiet_step h.sound hgrouped hk ha hother) hnow

/-- The tick finds the stream not empty and no window over its integration, and its calls
succeed. -/
structure ReachingTick (k : Option UUID × String) (s : State) (faults : UUID → Fault)
    (insts : List FiringUnackedInstance) : Prop where
  lists : insts.Perm s.firingUnackedInstances
  calls : ∀ id, faults id = none
  live : ∃ i ∈ s.instances, s.streamOf i = some k
  uncovered : ∀ rule ∈ s.world.rules, rule.integrationID = k.1 →
    coveringWindow s.refreshWindows.mwCache rule = none

theorem Coalesced.paged (h : Coalesced k n x) (htick : ReachingTick k x.state faults insts)
    (ha : KeepsRepresentative k n x (.renotify faults insts)) :
    (x.step k (.renotify faults insts)).pages ≠ [] := by
  intro hnil
  obtain ⟨hold, hnew⟩ := List.append_eq_nil_iff.1 hnil
  obtain ⟨i, hi, hik⟩ := htick.live
  obtain ⟨rep, hrep, hrepresents, rule, hrule, hpage⟩ :=
    exists_representative htick.lists hi hik
  have hjoins := joins_of_streamOf hrepresents.1
  obtain ⟨_, rule', hrule', hinteg, _⟩ := hjoins
  obtain rfl : rule = rule' := Option.some.inj (hrule.symm.trans hrule')
  have hcover := htick.uncovered rule (mem_of_rule? hrule).1 hinteg
  have hmark := h.unpaged hold rep hrep (joins_of_streamOf hrepresents.1)
  have hplan := hpage hcover (by rw [hmark]; rfl)
  have hins : insertedChannels (faults rep.id)
      (x.state.world.channelsFor rep.environment rule) ≠ [] := by
    rw [htick.calls]
    exact insertedChannels_none ((ha rep hrep hrepresents).2 rule hrule).1
  have hmem := mem_newPages_of_plan h.sound hrep hrepresents.1 hplan hins
  have hstep : x.state.step (.renotify faults insts) = x.state.renotifyOnce faults insts :=
    if_pos htick.lists
  rw [← hstep, hnew] at hmem
  cases hmem

end Tick

theorem pages_run (k : Option UUID × String) (x : Watched) (as : List Action) :
    x.pages <+: (run (Watched.step k) x as).pages := by
  induction as generalizing x with
  | nil => exact List.prefix_rfl
  | cons a as ih => exact (List.prefix_append _ _).trans (ih (x.step k a))

theorem State.sound_run (w : World) (as : List Action) : (run State.step { world := w } as).Sound :=
  run_invariant (I := State.Sound) (fun _ a hs => hs.step a) as (sound_init w)

/-- The run `as` after `pre`, watched. -/
def watch (k : Option UUID × String) (w : World) (pre as : List Action) : Watched :=
  run (Watched.step k) { state := run State.step { world := w } pre } as

/-- **One page for a stream.**  From the moment a stream begins, in every run that keeps
its representative its pages are `n` minutes apart; with `n = 0` a tick that reaches it
leaves it with exactly one. -/
theorem pages_apart_of_keepsRepresentative (w : World) (pre as : List Action)
    (integrationID : UUID) (env : String) (n : Nat) (hn : n ≤ 153722867)
    (hstart : ∀ i ∈ (run State.step { world := w } pre).instances,
      ¬ (run State.step { world := w } pre).Joins (some integrationID, env) i)
    (hrun : StepsMeet (Watched.step (some integrationID, env))
      (fun x a => x.state.Grouped (some integrationID, env) n ∧
        KeepsRepresentative (some integrationID, env) n x a)
      { state := run State.step { world := w } pre } as) :
    (watch (some integrationID, env) w pre as).pages.Pairwise (Apart n) ∧
      (n = 0 → (∃ before faults insts after,
          as = before ++ .renotify faults insts :: after ∧
          ReachingTick (some integrationID, env)
            (watch (some integrationID, env) w pre before).state faults insts) →
        ∃ p, (watch (some integrationID, env) w pre as).pages = [p]) := by
  have hinit : Coalesced (some integrationID, env) n
      { state := run State.step { world := w } pre } :=
    ⟨sound_run w pre, List.Pairwise.nil, by simp, fun _ i hi hj => absurd hj (hstart i hi)⟩
  have hstep : ∀ x a, Coalesced (some integrationID, env) n x →
      (x.state.Grouped (some integrationID, env) n ∧
        KeepsRepresentative (some integrationID, env) n x a) →
      Coalesced (some integrationID, env) n (x.step (some integrationID, env) a) :=
    fun x a hx ha => hx.step hn ha.1 rfl ha.2
  have hend : Coalesced (some integrationID, env) n (watch (some integrationID, env) w pre as) :=
    hrun.invariant hstep hinit
  refine ⟨hend.spaced, ?_⟩
  rintro rfl ⟨before, faults, insts, after, rfl, htick⟩
  rw [stepsMeet_append] at hrun
  have hbefore : Coalesced (some integrationID, env) 0
      (watch (some integrationID, env) w pre before) := hrun.1.invariant hstep hinit
  have hpaged := hbefore.paged htick hrun.2.1.2
  have hprefix := pages_run (some integrationID, env)
    ((watch (some integrationID, env) w pre before).step (some integrationID, env)
      (.renotify faults insts)) after
  have hspaced := hend.spaced
  rw [watch, run_append, run_cons] at hspaced ⊢
  match hpages : (run (Watched.step (some integrationID, env))
      ((watch (some integrationID, env) w pre before).step (some integrationID, env)
        (.renotify faults insts)) after).pages with
  | [] =>
    rw [hpages] at hprefix
    exact absurd (List.prefix_nil.1 hprefix) hpaged
  | [p] => exact ⟨p, rfl⟩
  | p :: q :: rest =>
    have hspaced' := hpages ▸ hspaced
    have hapart := (List.pairwise_cons.1 hspaced').1 q List.mem_cons_self
    exact absurd hapart.1 (Nat.lt_irrefl 0)

/-! Two checks of integration 7, with an interval of an hour. -/

private def queueRule : AlertRule :=
  { id := 1, integrationID := some 7, spec := .metric ⟨.gt, 0, false, ""⟩ }

private def lagRule : AlertRule := { queueRule with id := 2 }

private def hourlyWorld : World :=
  { now := 1000, rules := [queueRule, lagRule], windows := []
    resolver := some {
      resolve := fun _ _ _ _ => some [5]
      resolveBehavior := fun _ _ _ => some (some .perIntegration, 60) }
    environments := none, isProduction := fun _ => false }

private def queueRow (lastNotifiedAt : Option Time) : FiringUnackedInstance :=
  { instanceID := 0, ruleID := 1, environment := none, startedAt := 1000,
    lastNotifiedAt := lastNotifiedAt, suppressedBy := none }

private def lagRow : FiringUnackedInstance :=
  { instanceID := 1, ruleID := 2, environment := none, startedAt := 1000,
    lastNotifiedAt := none, suppressedBy := none }

private def hourlyRun : List Action :=
  [.evaluate none (.metricOnly 1) 1 none, .renotify (fun _ => none) [queueRow none],
    .advance 3600000000000, .renotify (fun _ => none) [queueRow (some 1000)]]

private theorem hourlyWorld_grouped (hresolver : s.world.resolver = hourlyWorld.resolver) :
    s.Grouped (some 7, "") 60 := by
  intro rule _ _ env _
  unfold behavior
  rw [hresolver]
  rfl

theorem pages_apart_example :
    (watch (some 7, "") hourlyWorld [] hourlyRun).pages.Pairwise (Apart 60) := by
  refine (pages_apart_of_keepsRepresentative hourlyWorld [] hourlyRun 7 "" 60 (by decide)
    (by simp) ⟨⟨hourlyWorld_grouped rfl, trivial⟩, ⟨hourlyWorld_grouped rfl, ?_⟩,
      ⟨hourlyWorld_grouped rfl, trivial⟩, ⟨hourlyWorld_grouped rfl, ?_⟩, trivial⟩).1
  · refine fun rep hrep hrepresents => ⟨?_, fun _ _ => ⟨List.cons_ne_nil _ _, .inr rfl⟩⟩
    revert rep
    decide +kernel
  · refine fun rep hrep hrepresents => ⟨?_, fun _ _ => ⟨List.cons_ne_nil _ _, .inr rfl⟩⟩
    revert rep
    decide +kernel

private def handoverRun : List Action :=
  [.evaluate none (.metricOnly 1) 1 none, .evaluate none (.metricOnly 1) 2 none,
    .renotify (fun _ => none) [queueRow none, lagRow],
    .evaluate none (.metricOnly 0) 1 none, .renotify (fun _ => none) [lagRow]]

/-- From its first opening on the stream is never empty and no window is defined, and yet
the next tick, at the same moment, pages it again. -/
theorem handover_pages_again :
    StepsMeet (Watched.step (some 7, "")) (fun x _ => x.state.Grouped (some 7, "") 60 ∧
        (x.state.instances = [] ∨ ∃ i ∈ x.state.instances, x.state.streamOf i = some (some 7, "")))
      { state := { world := hourlyWorld } } handoverRun ∧
    ¬ (watch (some 7, "") hourlyWorld [] handoverRun).pages.Pairwise (Apart 60) := by
  refine ⟨⟨⟨hourlyWorld_grouped rfl, ?_⟩, ⟨hourlyWorld_grouped rfl, ?_⟩,
    ⟨hourlyWorld_grouped rfl, ?_⟩, ⟨hourlyWorld_grouped rfl, ?_⟩,
    ⟨hourlyWorld_grouped rfl, ?_⟩, trivial⟩, ?_⟩ <;> decide +kernel

end Sluicio.Alerting
