import Sluicio.Alerting.AllClear
import Sluicio.Alerting.Environments

/-!
# PagerDuty incidents

A channel of kind `pagerduty` turns every job into an event: a page triggers the
incident of its dedup key, a recovery resolves it.  The key is the id of the rule,
while the engine opens an instance for every environment of the rule, so what one
instance triggered another one resolves.
-/

namespace Sluicio.Alerting

open Lib State

/-- `dedup_key`. -/
inductive DedupKey where
  | ruleID (id : UUID)
  /-- bytes, cut after 255 of them -/
  | body (bytes : List UInt8)
  deriving DecidableEq

/-- `event_action` with its `dedup_key`. -/
inductive PagerDutyEvent where
  | trigger (key : DedupKey)
  | resolve (key : DedupKey)

/-- The key of a message: its `rule_id` label, which is shorter than the cut, or else
its body. -/
def dedupKey (ruleID : Option UUID) (body : List UInt8) : DedupKey :=
  match ruleID with
  | some id => .ruleID id
  | none => .body (body.take 255)

/-- `pagerdutyNotifier.Send`. -/
def pagerdutySend (state : InstanceState) (ruleID : Option UUID) (body : List UInt8) :
    PagerDutyEvent :=
  match state with
  | .firing => .trigger (dedupKey ruleID body)
  | .resolved => .resolve (dedupKey ruleID body)

/-- The `rule_id` label: every evaluator of a threshold check writes it, trace
completion, whose fingerprints are of another shape, does not. -/
def AlertInstance.ruleIDLabel (i : AlertInstance) : Option UUID :=
  if i.fingerprint = fingerprintFor none ∨ (fingerprintEnvironment i.fingerprint).isSome then
    some i.alertRuleID
  else none

/-! ## Incidents -/

def receive (incidents : List DedupKey) : PagerDutyEvent → List DedupKey
  | .trigger key => key :: incidents
  | .resolve key => incidents.filter (· ≠ key)

def openIncidents (events : List PagerDutyEvent) : List DedupKey :=
  events.foldl receive []

/-- The `pagerduty` channels by their routing key, and the body of a job's message. -/
structure PagerDutyConfig where
  routingKey : UUID → Option String
  body : NotificationJob → AlertInstance → List UInt8

/-- The jobs whose events go to one routing key, in the order they were enqueued. -/
def State.jobsTo (s : State) (pd : PagerDutyConfig) (key : String) : List NotificationJob :=
  s.jobs.filter fun j => pd.routingKey j.channelID = some key

def State.eventOf (s : State) (pd : PagerDutyConfig) (j : NotificationJob) :
    Option PagerDutyEvent :=
  (s.instances.find? fun i => i.id = j.alertInstanceID).map fun i =>
    pagerdutySend j.forState i.ruleIDLabel (pd.body j i)

/-- However many of the events have been delivered, the incident of a check's instance
is open if the instance is firing and one of them triggered it. -/
def State.IncidentsFollow (s : State) (pd : PagerDutyConfig) : Prop :=
  ∀ key delivered, delivered <+: s.jobsTo pd key →
    ∀ i ∈ s.instances, i.state = .firing → ∀ id, i.ruleIDLabel = some id →
      (∃ j ∈ delivered, j.alertInstanceID = i.id ∧ j.forState = .firing) →
        .ruleID id ∈ openIncidents (delivered.filterMap (s.eventOf pd))

theorem openIncidents_concat (events : List PagerDutyEvent) (e : PagerDutyEvent) :
    openIncidents (events ++ [e]) = receive (openIncidents events) e := by
  unfold openIncidents
  rw [List.foldl_append]
  rfl

theorem mem_openIncidents_of_trigger {key : DedupKey} (before : List PagerDutyEvent)
    {after : List PagerDutyEvent} (h : .resolve key ∉ after) :
    key ∈ openIncidents (before ++ .trigger key :: after) := by
  induction after using List.reverseRecOn with
  | nil =>
    rw [openIncidents_concat]
    exact List.mem_cons_self
  | append_singleton after e ih =>
    have hafter : .resolve key ∉ after := fun hmem => h (List.mem_append_left _ hmem)
    have hlast : e ≠ .resolve key := fun heq => h (by simp [heq])
    have hopen := ih hafter
    rw [← List.cons_append, ← List.append_assoc, openIncidents_concat]
    cases e with
    | trigger key' => exact List.mem_cons_of_mem _ hopen
    | resolve key' =>
      refine List.mem_filter.2 ⟨hopen, ?_⟩
      have hne : key ≠ key' := fun heq => hlast (by rw [heq])
      simpa using hne

theorem not_mem_openIncidents_resolve (events : List PagerDutyEvent) (key : DedupKey) :
    key ∉ openIncidents (events ++ [.resolve key]) := by
  rw [openIncidents_concat]
  simp [receive]

/-! ## Which job closes which incident -/

/-- `j` triggered a firing instance of the rule whose recovery `k` announces. -/
def State.Closes (s : State) (j k : NotificationJob) : Prop :=
  ∃ i ∈ s.instances, ∃ i' ∈ s.instances, i.state = .firing ∧
    (∃ id, i.ruleIDLabel = some id ∧ i'.ruleIDLabel = some id) ∧
    j.alertInstanceID = i.id ∧ j.forState = .firing ∧
    k.alertInstanceID = i'.id ∧ k.forState = .resolved

/-- No job closes the incident of an instance that is still firing. -/
def State.Calm (s : State) (pd : PagerDutyConfig) : Prop :=
  ∀ key, (s.jobsTo pd key).Pairwise fun j k => ¬ s.Closes j k

variable {pd : PagerDutyConfig} {j k : NotificationJob} {s : State} {i : AlertInstance}

theorem State.eventOf_eq (hkeyed : s.Keyed) (hi : i ∈ s.instances)
    (hid : j.alertInstanceID = i.id) :
    s.eventOf pd j = some (pagerdutySend j.forState i.ruleIDLabel (pd.body j i)) := by
  have hfind : s.instances.find? (fun i' => i'.id = j.alertInstanceID) = some i :=
    (find?_key_eq_some hkeyed.ids).2 ⟨hi, hid.symm⟩
  unfold eventOf
  rw [hfind]
  rfl

theorem State.resolve_of_eventOf {id : UUID} (h : s.eventOf pd k = some (.resolve (.ruleID id))) :
    ∃ i ∈ s.instances, k.alertInstanceID = i.id ∧ k.forState = .resolved ∧
      i.ruleIDLabel = some id := by
  obtain ⟨i, hfind, hsend⟩ := Option.map_eq_some_iff.1 h
  have hid : i.id = k.alertInstanceID := by simpa using List.find?_some hfind
  refine ⟨i, List.mem_of_find?_eq_some hfind, hid.symm, ?_⟩
  unfold pagerdutySend dedupKey at hsend
  cases hstate : k.forState <;> cases hlabel : i.ruleIDLabel <;> simp [hstate, hlabel] at hsend ⊢
  exact hsend

theorem State.incidentsFollow_iff_calm (hkeyed : s.Keyed) : s.IncidentsFollow pd ↔ s.Calm pd := by
  constructor
  · intro hfollow key
    rw [List.pairwise_iff_forall_sublist]
    intro j k hsub ⟨i, hi, i', hi', hfiring, ⟨id, hlabel, hlabel'⟩, hj, hjfor, hk, hkfor⟩
    -- deliver everything up to the recovery
    obtain ⟨before, after, hsplit, hjmem⟩ : ∃ before after,
        s.jobsTo pd key = before ++ k :: after ∧ j ∈ before := by
      obtain ⟨front, back, hfb, hfront, hback⟩ := List.append_sublist_iff.1
        (show ([j] ++ [k]).Sublist (s.jobsTo pd key) from hsub)
      obtain ⟨mid, after, rfl⟩ := List.append_of_mem (List.singleton_sublist.1 hback)
      exact ⟨front ++ mid, after, by rw [hfb, List.append_assoc],
        List.mem_append_left _ (List.singleton_sublist.1 hfront)⟩
    have hopen := hfollow key (before ++ [k]) ⟨after, by rw [hsplit]; simp⟩ i hi hfiring id
      hlabel ⟨j, List.mem_append_left _ hjmem, hj, hjfor⟩
    have hevent : s.eventOf pd k = some (.resolve (.ruleID id)) := by
      rw [eventOf_eq hkeyed hi' hk, hkfor, hlabel']
      rfl
    rw [List.filterMap_append, List.filterMap_cons, hevent] at hopen
    exact not_mem_openIncidents_resolve _ _ hopen
  · intro hcalm key delivered hprefix i hi hfiring id hlabel ⟨j, hj, hjid, hjfor⟩
    obtain ⟨before, after, rfl⟩ := List.append_of_mem hj
    have hevent : s.eventOf pd j = some (.trigger (.ruleID id)) := by
      rw [eventOf_eq hkeyed hi hjid, hjfor, hlabel]
      rfl
    rw [List.filterMap_append, List.filterMap_cons, hevent]
    refine mem_openIncidents_of_trigger _ fun hresolve => ?_
    obtain ⟨k, hk, hkevent⟩ := List.mem_filterMap.1 hresolve
    obtain ⟨i', hi', hkid, hkfor, hlabel'⟩ := resolve_of_eventOf hkevent
    have hpairs : (before ++ j :: after).Pairwise fun j k => ¬ s.Closes j k :=
      (hcalm key).sublist hprefix.sublist
    have hlater := (List.pairwise_cons.1 (List.pairwise_append.1 hpairs).2.1).1 k hk
    exact hlater ⟨i, hi, i', hi', hfiring, ⟨id, hlabel, hlabel'⟩, hjid, hjfor, hkid, hkfor⟩

/-! ## What keeps them apart -/

variable {env : Option String} {i' : AlertInstance}

theorem SameInstance.ruleIDLabel (h : SameInstance i i') : i'.ruleIDLabel = i.ruleIDLabel := by
  unfold AlertInstance.ruleIDLabel
  rw [h.fingerprint, h.alertRuleID]

theorem State.Closes.of_updateInstances {p : AlertInstance → Bool}
    {f : AlertInstance → AlertInstance} (hf : ∀ i, SameInstance i (f i))
    (h : State.Closes { s with instances := updateWhere p f s.instances } j k) : s.Closes j k := by
  have hrow : ∀ i ∈ updateWhere p f s.instances, ∃ i₀ ∈ s.instances, SameInstance i₀ i := by
    intro i hi
    obtain ⟨i₀, hi₀, ⟨_, rfl⟩ | ⟨_, rfl⟩⟩ := mem_updateWhere.1 hi
    · exact ⟨i₀, hi₀, hf i₀⟩
    · exact ⟨i, hi₀, SameInstance.refl i⟩
  obtain ⟨i, hi, i', hi', hfiring, ⟨id, hlabel, hlabel'⟩, hj, hjfor, hk, hkfor⟩ := h
  obtain ⟨i₀, hi₀, hsame⟩ := hrow i hi
  obtain ⟨i₀', hi₀', hsame'⟩ := hrow i' hi'
  rw [hsame.ruleIDLabel] at hlabel
  rw [hsame'.ruleIDLabel] at hlabel'
  rw [hsame.id] at hj
  rw [hsame'.id] at hk
  exact ⟨i₀, hi₀, i₀', hi₀', hsame.firing hfiring, ⟨id, hlabel, hlabel'⟩, hj, hjfor, hk, hkfor⟩

theorem State.calm_append {t : State} (pd : PagerDutyConfig) {new : List NotificationJob}
    (hinst : t.instances = s.instances) (hjobs : t.jobs = s.jobs ++ new) (st : InstanceState)
    (hnew : ∀ k ∈ new, k.forState = st) :
    t.Calm pd ↔ s.Calm pd ∧ ∀ key, ∀ j ∈ s.jobsTo pd key, ∀ k ∈ new,
      pd.routingKey k.channelID = some key → ¬ s.Closes j k := by
  have hcloses : t.Closes = s.Closes := by
    unfold State.Closes
    rw [hinst]
  have hall : t.Calm pd ↔ ∀ key, (s.jobsTo pd key).Pairwise (fun j k => ¬ s.Closes j k) ∧
      ∀ j ∈ s.jobsTo pd key, ∀ k ∈ new, pd.routingKey k.channelID = some key → ¬ s.Closes j k := by
    refine forall_congr' fun key => ?_
    have hsplit : t.jobsTo pd key = s.jobsTo pd key ++
        new.filter fun k => pd.routingKey k.channelID = some key := by
      unfold jobsTo
      rw [hjobs, List.filter_append]
    -- two jobs of one call are for one transition
    have hboth : (new.filter fun k => pd.routingKey k.channelID = some key).Pairwise
        fun j k => ¬ s.Closes j k := by
      refine List.pairwise_of_forall_mem_list fun j hj k hk hclose => ?_
      obtain ⟨_, _, _, _, _, _, _, hjfor, _, hkfor⟩ := hclose
      have hsame := (hnew j (List.mem_of_mem_filter hj)).trans
        (hnew k (List.mem_of_mem_filter hk)).symm
      rw [hjfor, hkfor] at hsame
      cases hsame
    rw [hsplit, hcloses, List.pairwise_append]
    simp only [hboth, true_and, List.mem_filter, decide_eq_true_eq, and_imp]
  rw [hall, forall_and]
  rfl

/-- What holds in every state of a run whose recoveries close nothing else. -/
structure State.Followed (s : State) (pd : PagerDutyConfig) : Prop where
  keyed : s.Keyed
  calm : s.Calm pd

section Followed

variable {s : State} {pd : PagerDutyConfig}

theorem State.followed_init (w : World) (pd : PagerDutyConfig) : State.Followed { world := w } pd :=
  ⟨keyed_init w, fun _ => List.Pairwise.nil⟩

theorem State.Followed.congr (h : s.Followed pd) {t : State} (hinst : t.instances = s.instances)
    (hjobs : t.jobs = s.jobs) (hnext : t.nextID = s.nextID) : t.Followed pd := by
  refine ⟨h.keyed.congr hinst hjobs hnext, ?_⟩
  have happend : t.jobs = s.jobs ++ [] := by rw [hjobs, List.append_nil]
  refine (calm_append pd hinst happend .firing ?_).2 ⟨h.calm, ?_⟩ <;> simp

theorem State.Followed.updateInstances (h : s.Followed pd) {p : AlertInstance → Bool}
    {f : AlertInstance → AlertInstance} (hf : ∀ i, SameInstance i (f i)) :
    State.Followed { s with instances := updateWhere p f s.instances } pd :=
  ⟨h.keyed.updateInstances fun i => (hf i).id, fun key => (h.calm key).imp
    fun hopen hclose => hopen (hclose.of_updateInstances hf)⟩

theorem State.Followed.openInstance (h : s.Followed pd) (ruleID : UUID) (fingerprint : String)
    (env : Option String) : (s.openInstance ruleID fingerprint env).2.Followed pd := by
  refine ⟨h.keyed.openInstance ruleID fingerprint env, fun key => ?_⟩
  refine (h.calm key).imp_of_mem fun {j k} hj hk hopen hclose => hopen ?_
  obtain ⟨i, hi, i', hi', hrest⟩ := hclose
  -- no job is about the new row
  have hold : ∀ {i : AlertInstance} {j : NotificationJob}, j ∈ s.jobsTo pd key →
      j.alertInstanceID = i.id → i ∈ (s.openInstance ruleID fingerprint env).2.instances →
      i ∈ s.instances := by
    intro i j hj hid hmem
    rcases List.mem_append.1 hmem with hmem | hnew
    · exact hmem
    · have hlt := h.keyed.jobs j (List.mem_of_mem_filter hj)
      rw [hid, List.mem_singleton.1 hnew] at hlt
      exact absurd hlt (Nat.lt_irrefl _)
  exact ⟨i, hold hj hrest.2.2.1 hi, i', hold hk hrest.2.2.2.2.1 hi', hrest⟩

variable {instanceID : UUID} {fault : Fault}

theorem State.Followed.enqueueJobs (h : s.Followed pd) {channelIDs : List UUID} {window : Duration}
    (hfiring : ∀ i ∈ s.instances, i.id = instanceID → i.state = .firing) :
    (s.enqueueJobs fault instanceID channelIDs window).2.Followed pd := by
  refine ⟨h.keyed.enqueueJobs fault instanceID channelIDs window, ?_⟩
  have hnew : ∀ k ∈ s.appendedJobs fault instanceID channelIDs window, k.forState = .firing := by
    intro k hk
    obtain ⟨_, i, hi, hid, _, hfor, _⟩ := mem_appendedJobs hk
    rw [hfor]
    exact hfiring i hi hid
  refine (calm_append pd (s.enqueueJobs_instances fault instanceID channelIDs window)
    (s.enqueueJobs_jobs fault instanceID channelIDs window) .firing hnew).2 ⟨h.calm, ?_⟩
  intro key j _ k hk _ hclose
  obtain ⟨_, _, _, _, _, _, _, _, _, hkfor⟩ := hclose
  rw [hnew k hk] at hkfor
  cases hkfor

theorem State.Followed.page (h : s.Followed pd) {env : Option String} {rule : AlertRule}
    (hfiring : ∀ i ∈ s.instances, i.id = instanceID → i.state = .firing) :
    (s.page fault env instanceID rule).Followed pd := by
  have hjobs : (s.enqueueJobs fault instanceID (s.world.channelsFor env rule)
      s.world.deliveryWindow).2.Followed pd := h.enqueueJobs hfiring
  unfold State.page
  dsimp only
  split
  · exact hjobs.updateInstances fun i => sameInstance_notified i _
  · exact hjobs

theorem State.Followed.refreshWindows (h : s.Followed pd) : s.refreshWindows.Followed pd :=
  h.congr s.refreshWindows_instances s.refreshWindows_jobs s.refreshWindows_nextID

theorem State.Followed.resolveInstance (h : s.Followed pd) (instanceID : UUID) :
    (s.resolveInstance instanceID).Followed pd :=
  h.updateInstances fun i => sameInstance_resolved i s.world.now

theorem State.Followed.touchInstance (h : s.Followed pd) (instanceID : UUID) :
    (s.touchInstance instanceID).Followed pd :=
  h.updateInstances fun i => sameInstance_touched i s.world.now

theorem State.Followed.markInstanceSuppressed (h : s.Followed pd) (instanceID windowID : UUID) :
    (s.markInstanceSuppressed instanceID windowID).Followed pd :=
  h.updateInstances fun i => sameInstance_stamped i windowID

theorem State.Followed.recordReading (h : s.Followed pd) (ruleID : UUID)
    (value : Option Rat) : (s.recordReading ruleID value).Followed pd := by
  obtain ⟨_, heq⟩ := s.recordReading_eq ruleID value
  rw [heq]
  exact h.congr rfl rfl rfl

theorem State.Followed.openFiring (h : s.Followed pd) (fault : Fault) (env : Option String)
    (rule : AlertRule) : (s.openFiring fault env rule).Followed pd := by
  have hopened : (s.opened env rule).Followed pd :=
    (h.openInstance rule.id (fingerprintFor env) env).refreshWindows
  rcases s.openFiring_cases fault env rule with ⟨w, _, heq⟩ | ⟨_, _, heq⟩ | ⟨_, _, heq⟩
  · rw [heq]
    exact hopened.markInstanceSuppressed s.nextID w
  · rwa [heq]
  · rw [heq]
    refine hopened.page fun i hi hid => ?_
    rw [opened, refreshWindows_instances] at hi
    exact (h.keyed.row_openInstance hi hid).2.2

theorem State.Followed.fireDelayed (h : s.Followed pd) (fault : Fault) (rule : AlertRule)
    (integrationID : UUID) (fingerprint : String) :
    (s.fireDelayed fault rule integrationID fingerprint).Followed pd := by
  have hopened := h.openInstance rule.id fingerprint none
  rcases s.fireDelayed_cases fault rule integrationID fingerprint with
    ⟨active, _, heq⟩ | ⟨w, _, _, heq⟩ | ⟨_, _, heq⟩
  · rw [heq]
    exact h.touchInstance active.id
  · rw [heq]
    exact hopened.markInstanceSuppressed s.nextID w
  · rw [heq]
    exact hopened.enqueueJobs fun i hi hid => (h.keyed.row_openInstance hi hid).2.2

theorem State.Followed.renotifyOnce (h : s.Followed pd) (faults : UUID → Fault)
    {insts : List FiringUnackedInstance} (hinsts : insts.Perm s.firingUnackedInstances) :
    (s.renotifyOnce faults insts).Followed pd := by
  have hall : TickFrame s (s.renotifyOnce faults insts) ∧
      (s.renotifyOnce faults insts).Followed pd := by
    refine renotifyOnce_invariant (P := fun t => TickFrame s t ∧ t.Followed pd)
      ⟨TickFrame.refl s, h⟩ ⟨tickFrame_refreshWindows s, h.refreshWindows⟩ ?_
    intro t op hop ⟨hframe, ht⟩
    refine ⟨hframe.trans (tickFrame_applyRenotify t faults op), ?_⟩
    cases op with
    | suppress instanceID windowID => exact ht.markInstanceSuppressed instanceID windowID
    | renotify it =>
      -- the tick leaves the instances it pages firing
      refine ht.page fun i' hi' hid' => ?_
      obtain ⟨i, hi, hfiring, rule, _, hit⟩ :=
        (mem_renotifyItems hinsts).1 (paged_of_mem_renotifyOps hop).1
      obtain ⟨i₀, hi₀, hsame⟩ := hframe.old hi'
      have hid : i₀.id = i.id := by
        rw [← hsame.id, hid', hit]
        rfl
      rw [hsame.state, eq_of_key_eq h.keyed.ids hi₀ hi hid]
      exact hfiring.1
  exact hall.2

end Followed

/-! ## The recovery of one instance -/

def State.Announces (s : State) (tel : Telemetry) (ruleID : UUID) (env : Option String)
    (rule : AlertRule) (i : AlertInstance) : Prop :=
  s.AutoResolves tel ruleID env rule i ∧ i.suppressedBy = none

/-- No other firing instance of the same rule was triggered on the routing key. -/
def State.OnlyIncident (s : State) (pd : PagerDutyConfig) (key : String)
    (i : AlertInstance) : Prop :=
  ∀ i' ∈ s.instances, i'.id ≠ i.id → i'.state = .firing →
    i'.ruleIDLabel = some i.alertRuleID →
      ∀ j ∈ s.jobsTo pd key, j.alertInstanceID = i'.id → j.forState ≠ .firing

/-- A recovery is announced on those routing keys only where no other firing instance of
the rule was triggered. -/
def State.ClosesOwn (s : State) (pd : PagerDutyConfig) : Action → Prop
  | .evaluate fault tel ruleID env =>
    ∀ rule i, s.Announces tel ruleID env rule i →
      ∀ ch ∈ insertedChannels fault (s.world.channelsFor env rule),
        ∀ key, pd.routingKey ch = some key → s.OnlyIncident pd key i
  | _ => True

theorem ruleIDLabel_of_fingerprint (h : i.fingerprint = fingerprintFor env) :
    i.ruleIDLabel = some i.alertRuleID := by
  unfold AlertInstance.ruleIDLabel
  rw [h]
  cases env with
  | none => simp
  | some env => simp

theorem newJobs_map_channelID (now : Time) (nextID instanceID : UUID)
    (forState : InstanceState) (channelIDs : List UUID) (window : Duration) :
    (newJobs now nextID instanceID forState channelIDs window).map (·.channelID) =
      channelIDs := by
  refine List.ext_getElem (by simp [newJobs]) fun k _ _ => ?_
  simp [newJobs]

theorem State.appendedJobs_map_channelID (hkeyed : s.Keyed) (hi : i ∈ s.instances) (fault : Fault)
    (channelIDs : List UUID) (window : Duration) :
    (s.appendedJobs fault i.id channelIDs window).map (·.channelID) =
      insertedChannels fault channelIDs := by
  have hfind : s.instances.find? (fun i' => i'.id = i.id) = some i :=
    (find?_key_eq_some hkeyed.ids).2 ⟨hi, rfl⟩
  unfold appendedJobs
  rw [hfind]
  exact newJobs_map_channelID _ _ _ _ _ _

theorem State.closes_resolveInstance (hkeyed : s.Keyed) (hi : i ∈ s.instances)
    (hlabel : i.ruleIDLabel = some i.alertRuleID) (hk : k.alertInstanceID = i.id)
    (hkfor : k.forState = .resolved) :
    (s.resolveInstance i.id).Closes j k ↔
      ∃ i' ∈ s.instances, i'.id ≠ i.id ∧ i'.state = .firing ∧
        i'.ruleIDLabel = some i.alertRuleID ∧
        j.alertInstanceID = i'.id ∧ j.forState = .firing := by
  constructor
  · rintro ⟨i₁, hi₁, i₂, hi₂, hfiring, ⟨id, hlabel₁, hlabel₂⟩, hj, hjfor, hk', _⟩
    obtain ⟨i₀, hi₀, ⟨_, rfl⟩ | ⟨hp, rfl⟩⟩ := mem_updateWhere.1 hi₁
    · cases hfiring
    have hother : i₁.id ≠ i.id := by simpa using hp
    -- the row the recovery is about carries the rule's id
    have hsame : i₂.ruleIDLabel = i.ruleIDLabel := by
      obtain ⟨i₃, hi₃, ⟨_, rfl⟩ | ⟨_, rfl⟩⟩ := mem_updateWhere.1 hi₂
      · have hid : i₃.id = i.id := hk'.symm.trans hk
        rw [eq_of_key_eq hkeyed.ids hi₃ hi hid]
        exact (sameInstance_resolved i s.world.now).ruleIDLabel
      · have hid : i₂.id = i.id := hk'.symm.trans hk
        rw [eq_of_key_eq hkeyed.ids hi₃ hi hid]
    rw [hsame, hlabel] at hlabel₂
    rw [← hlabel₂] at hlabel₁
    exact ⟨i₁, hi₀, hother, hfiring, hlabel₁, hj, hjfor⟩
  · rintro ⟨i', hi', hother, hfiring, hlabel', hj, hjfor⟩
    have hrow := mem_updateWhere_of (p := fun i' => i'.id = i.id && true)
      (f := fun i' => { i' with state := .resolved, endedAt := some s.world.now,
                                lastEvaluatedAt := s.world.now }) hi (by simp)
    have hkept : i' ∈ (s.resolveInstance i.id).instances :=
      mem_updateWhere_of_not hi' (by simpa using hother)
    refine ⟨i', hkept, _, hrow, hfiring, ⟨i.alertRuleID, hlabel', ?_⟩, hj, hjfor, hk, hkfor⟩
    rw [(sameInstance_resolved i s.world.now).ruleIDLabel]
    exact hlabel

section Evaluate

variable {s : State} {pd : PagerDutyConfig} {tel : Telemetry} {ruleID : UUID} {env : Option String}

theorem State.Announces.calm_iff {rule : AlertRule} {i : AlertInstance} (h : s.Followed pd)
    (ha : s.Announces tel ruleID env rule i) (fault : Fault) :
    (s.step (.evaluate fault tel ruleID env)).Keyed ∧
      ((s.step (.evaluate fault tel ruleID env)).Calm pd ↔
        ∀ ch ∈ insertedChannels fault (s.world.channelsFor env rule),
          ∀ key, pd.routingKey ch = some key → s.OnlyIncident pd key i) := by
  obtain ⟨hres, hunstamped⟩ := ha
  obtain ⟨hi, _, hfp, _⟩ := mem_of_activeInstance hres.2.2.2.2.1
  obtain ⟨readings, hstep⟩ := hres.step_eq fault
  rw [if_pos hunstamped] at hstep
  rw [hstep]
  have hread : State.Followed { s with readings := readings } pd := h.congr rfl rfl rfl
  have hresolved := hread.resolveInstance i.id
  refine ⟨hresolved.keyed.enqueueJobs _ _ _ _, ?_⟩
  obtain ⟨row, hrow, hrowid, _⟩ := mem_resolveInstance { s with readings := readings } hi
  have hchannels := appendedJobs_map_channelID hresolved.keyed hrow fault
    (s.world.channelsFor env rule) s.world.deliveryWindow
  rw [hrowid] at hchannels
  generalize hnew : appendedJobs (resolveInstance { s with readings := readings } i.id)
    fault i.id (s.world.channelsFor env rule) s.world.deliveryWindow = new at hchannels
  -- the appended jobs announce the recovery of `i`
  have hjobs : ∀ k ∈ new, k.alertInstanceID = i.id ∧ k.forState = .resolved := by
    intro k hk
    rw [← hnew] at hk
    obtain ⟨_, i', hi', hid, hkid, hkfor, _⟩ := mem_appendedJobs hk
    refine ⟨hkid, hkfor.trans ?_⟩
    obtain ⟨i₀, _, ⟨_, rfl⟩ | ⟨hp, rfl⟩⟩ := mem_updateWhere.1 hi'
    · rfl
    · simp [hid] at hp
  have hcloses : ∀ j, ∀ k ∈ new,
      (resolveInstance { s with readings := readings } i.id).Closes j k ↔
        ∃ i' ∈ s.instances, i'.id ≠ i.id ∧ i'.state = .firing ∧
          i'.ruleIDLabel = some i.alertRuleID ∧
          j.alertInstanceID = i'.id ∧ j.forState = .firing := fun j k hk =>
    closes_resolveInstance hread.keyed hi (ruleIDLabel_of_fingerprint hfp)
      (hjobs k hk).1 (hjobs k hk).2
  have happend := calm_append pd
    (enqueueJobs_instances _ fault i.id (s.world.channelsFor env rule) s.world.deliveryWindow)
    ((enqueueJobs_jobs (resolveInstance { s with readings := readings } i.id)
      fault i.id (s.world.channelsFor env rule) s.world.deliveryWindow).trans (by rw [hnew]))
    .resolved fun k hk => (hjobs k hk).2
  refine happend.trans ⟨fun ⟨_, hopen⟩ ch hch key hkey i' hi' hother hfiring hlabel j hj hjid
    hjfor => ?_, fun honly => ⟨hresolved.calm, fun key j hj k hk hkey hclose => ?_⟩⟩
  · rw [← hchannels] at hch
    obtain ⟨k, hk, rfl⟩ := List.mem_map.1 hch
    exact hopen key j hj k hk hkey
      ((hcloses j k hk).2 ⟨i', hi', hother, hfiring, hlabel, hjid, hjfor⟩)
  · have hch : k.channelID ∈ insertedChannels fault (s.world.channelsFor env rule) := by
      rw [← hchannels]
      exact List.mem_map_of_mem hk
    obtain ⟨i', hi', hother, hfiring, hlabel, hjid, hjfor⟩ := (hcloses j k hk).1 hclose
    exact honly k.channelID hch key hkey i' hi' hother hfiring hlabel j hj hjid hjfor

theorem State.Followed.resolveOrHold (h : s.Followed pd) (fault : Fault) {active : AlertInstance}
    {rule : AlertRule} (hsilent : ¬ (rule.resolveMode = .auto ∧ active.handledAt = none ∧
      active.suppressedBy = none)) : (s.resolveOrHold fault env active rule).Followed pd := by
  unfold State.resolveOrHold
  by_cases hhold : rule.resolveMode = .manual ∧ active.handledAt = none
  · rw [if_pos hhold]
    exact h.touchInstance active.id
  rw [if_neg hhold]
  by_cases hloud : active.handledAt = none ∧ active.suppressedBy = none
  · have hauto : rule.resolveMode = .auto := by
      cases hmode : rule.resolveMode with
      | auto => rfl
      | manual => exact absurd ⟨hmode, hloud.1⟩ hhold
    exact absurd ⟨hauto, hloud⟩ hsilent
  · rw [if_neg hloud]
    exact h.resolveInstance active.id

theorem State.Followed.step_quiet (h : s.Followed pd)
    (hquiet : ∀ rule i, ¬ s.Announces tel ruleID env rule i) (fault : Fault) :
    (s.step (.evaluate fault tel ruleID env)).Followed pd := by
  rcases s.step_evaluate_cases fault tel ruleID env with heq | ⟨rule, hrule, henabled, heq⟩
  · rwa [heq]
  rw [heq]
  unfold evaluate
  cases hv : verdict tel env (s.readings rule.id) rule with
  | none => exact h
  | some v =>
    dsimp only
    have hread := h.recordReading rule.id v.reading
    obtain ⟨readings, hreadings⟩ := s.recordReading_eq rule.id v.reading
    rw [hreadings] at hread ⊢
    rcases drive_cases { s with readings := readings } fault env rule v with
      heq | ⟨_, _, heq⟩ | ⟨active, hactive, ⟨_, heq⟩ | ⟨_, heq⟩ | ⟨hclear, heq⟩⟩
    · rwa [heq]
    · rw [heq]
      exact hread.openFiring fault env rule
    · rw [heq]
      exact hread.touchInstance active.id
    · rw [heq]
      exact hread.updateInstances fun i => sameInstance_refreshed i _ env
    · rw [heq]
      refine hread.resolveOrHold fault fun ⟨hauto, hunacked, hunstamped⟩ => ?_
      have hverdict : (verdict tel env (s.readings rule.id) rule).any
          (fun v => !v.breached) := by
        rw [hv]
        simp [hclear]
      exact hquiet rule active ⟨⟨hrule, henabled, hauto, hverdict, hactive, hunacked⟩, hunstamped⟩

end Evaluate

theorem State.Announces.eq {tel : Telemetry} {ruleID : UUID} {rule rule' : AlertRule}
    (h : s.Announces tel ruleID env rule i) (h' : s.Announces tel ruleID env rule' i') :
    rule = rule' ∧ i = i' := by
  have hrule : rule = rule' := Option.some.inj (h.1.1.symm.trans h'.1.1)
  subst hrule
  exact ⟨rfl, Option.some.inj (h.1.2.2.2.2.1.symm.trans h'.1.2.2.2.2.1)⟩

/-- **Step lemma.** -/
theorem State.Followed.step_iff (h : s.Followed pd) (a : Action) :
    (s.step a).Keyed ∧ ((s.step a).Calm pd ↔ s.ClosesOwn pd a) := by
  have hkept : ∀ {t : State}, t.Followed pd → t.Keyed ∧ (t.Calm pd ↔ True) := fun ht =>
    ⟨ht.keyed, iff_true_intro ht.calm⟩
  cases a with
  | evaluate fault tel ruleID env =>
    by_cases haloud : ∃ rule i, s.Announces tel ruleID env rule i
    · obtain ⟨rule, i, ha⟩ := haloud
      obtain ⟨hkeyed, hcalm⟩ := ha.calm_iff h fault
      refine ⟨hkeyed, hcalm.trans ⟨fun hown rule' i' ha' => ?_, fun hown => hown rule i ha⟩⟩
      obtain ⟨rfl, rfl⟩ := ha.eq ha'
      exact hown
    have hquiet : ∀ rule i, ¬ s.Announces tel ruleID env rule i := fun rule i ha =>
      haloud ⟨rule, i, ha⟩
    have hstep := h.step_quiet hquiet fault
    exact ⟨hstep.keyed, iff_of_true hstep.calm fun rule i ha => absurd ha (hquiet rule i)⟩
  | retireLegacy ruleID =>
    refine hkept (t := s.retireLegacyInstance ruleID) ?_
    rcases s.retireLegacyInstance_cases ruleID with heq | ⟨active, _, heq⟩
    · rwa [heq]
    · rw [heq]
      exact h.resolveInstance active.id
  | renotify faults insts =>
    refine hkept ?_
    rcases s.step_renotify_cases faults insts with heq | ⟨hinsts, heq⟩
    · rwa [heq]
    · rw [heq]
      exact h.renotifyOnce faults hinsts
  | fireDelayed fault ruleID fingerprint =>
    refine hkept ?_
    rcases s.step_fireDelayed_cases fault ruleID fingerprint with
      heq | ⟨rule, integrationID, _, _, _, _, heq⟩
    · rwa [heq]
    · rw [heq]
      exact h.fireDelayed fault rule integrationID fingerprint
  | resolveStageFiring ruleID fingerprint =>
    refine hkept (t := s.resolveStageFiring ruleID fingerprint) ?_
    rcases s.resolveStageFiring_cases ruleID fingerprint with heq | ⟨active, _, heq⟩
    · rwa [heq]
    · rw [heq]
      exact h.resolveInstance active.id
  | acknowledge instanceID =>
    exact hkept (h.updateInstances fun i => sameInstance_acknowledged i _)
  | resolveManual instanceID => exact hkept (h.updateInstances fun i => sameInstance_closed i _)
  | clearErrors service => exact hkept (h.updateInstances fun i => sameInstance_closed i _)
  | pushReading ruleID value => exact hkept (h.recordReading ruleID (some value))
  | advance _ | setWindows _ | setResolver _ | setEnvironments _ | createRule _
  | updateRule _ => exact hkept (h.congr rfl rfl rfl)

theorem State.keyed_run (w : World) (as : List Action) :
    (run State.step { world := w } as).Keyed := by
  let unused : PagerDutyConfig := { routingKey := fun _ => none, body := fun _ _ => [] }
  have hown : ∀ s a, State.ClosesOwn s unused a := by
    intro s a
    cases a with
    | evaluate fault tel ruleID env => exact fun _ _ _ _ _ _ hkey => nomatch hkey
    | _ => trivial
  have hfollowed : (run State.step { world := w } as).Followed unused := by
    induction as using List.reverseRecOn with
    | nil => exact followed_init w unused
    | append_singleton as a ih =>
      rw [run_append]
      have hstep := ih.step_iff a
      exact ⟨hstep.1, hstep.2.2 (hown _ a)⟩
  exact hfollowed.keyed

/-- **Incidents follow the instances** through a run exactly when every recovery its
evaluations announce closes the incident of no other firing instance. -/
theorem incidentsFollow_iff (pd : PagerDutyConfig) (w : World) (as : List Action) :
    (∀ pre, pre <+: as → (run State.step { world := w } pre).IncidentsFollow pd) ↔
      StepsMeet State.step (fun s a => s.ClosesOwn pd a) { world := w } as := by
  have hfollow : ∀ pre, (run State.step { world := w } pre).IncidentsFollow pd ↔
      (run State.step { world := w } pre).Followed pd := by
    intro pre
    have hkeyed := keyed_run w pre
    rw [incidentsFollow_iff_calm hkeyed]
    exact ⟨fun hcalm => ⟨hkeyed, hcalm⟩, State.Followed.calm⟩
  simp only [hfollow]
  refine stepsMeet_iff_invariant (I := fun s : State => s.Followed pd) (fun s a h => ?_)
    (followed_init w pd)
  obtain ⟨hkeyed, hcalm⟩ := h.step_iff a
  exact ⟨fun hnext => hcalm.1 hnext.calm, fun hown => ⟨hkeyed, hcalm.2 hown⟩⟩

/-! A check that runs per environment: it fires for two of them, and the first one
recovers. -/

private def pagedRule : AlertRule :=
  { id := 1, integrationID := some 7, channelIDs := [5], spec := .metric ⟨.gt, 0, false, ""⟩ }

private def pagedWorld : World :=
  { now := 1000, rules := [pagedRule], windows := [], resolver := none
    environments := some fun _ => some ["prod", "test"], isProduction := fun _ => false }

private def onePagerDuty : PagerDutyConfig :=
  { routingKey := fun ch => if ch = 5 then some "R1" else none, body := fun _ _ => [] }

private def bothFire : List Action :=
  [.evaluate none (.metricOnly 1) 1 (some "prod"), .evaluate none (.metricOnly 1) 1 (some "test"),
    .evaluate none (.metricOnly 0) 1 (some "test")]

/-- The check is still firing in `prod`, and its incident is closed. -/
theorem incident_closed_while_firing :
    ¬ (run State.step { world := pagedWorld } bothFire).IncidentsFollow onePagerDuty := by
  intro hfollow
  have hopen := hfollow "R1" ((run State.step { world := pagedWorld } bothFire).jobsTo
    onePagerDuty "R1") List.prefix_rfl
  revert hopen
  decide +kernel

end Sluicio.Alerting
