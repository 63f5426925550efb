import Sluicio.Alerting.Maintenance

/-!
# The alert engine's state and its notification decisions

The state is split in two.  `World` is what a tick only reads: the clock, the
rules, the maintenance windows, the routing resolver and the environments.  The
rest is what ticks write: instances, delivery jobs, readings and the engine's
cache of active windows.

Of the store's calls only the insertion of jobs is allowed to fail, and it may
fail at any of the inserts of one call.
-/

namespace Sluicio.Alerting

open Lib

inductive Grouping where
  | perCheck | perIntegration
  deriving DecidableEq

/-- `ChannelResolver` together with `BehaviorResolver`.  The first argument is
the environment the call is about; `none` as a result is an error, and `none` as
a grouping is the empty string. -/
structure Resolver where
  resolve : Option String → List UUID → Option UUID → Option UUID → Option (List UUID)
  resolveBehavior : Option String → Option UUID → Option UUID → Option (Option Grouping × Int)

/-- What a tick reads and does not write.  `environments` is the wired
`EnvironmentLister` (`none` when unset), whose calls may fail. -/
structure World where
  now : Time
  rules : List AlertRule
  windows : List WindowRow
  resolver : Option Resolver
  environments : Option (UUID → Option (List String))
  isProduction : String → Bool
  deliveryWindow : Duration := 6 * hour

structure State where
  world : World
  instances : List AlertInstance := []
  jobs : List NotificationJob := []
  readings : UUID → Option Rat := fun _ => none
  mwCache : List MaintenanceWindow := []
  mwFetched : Option Time := none
  nextID : UUID := 0

/-- `GetRule`. -/
def World.rule? (w : World) (id : UUID) : Option AlertRule :=
  w.rules.find? fun r => r.id = id

/-! ## Instances -/

/-- `legacyFingerprint` or `EnvironmentFingerprint`: the instance of a check for
the environment an evaluation is about. -/
def fingerprintFor : Option String → String
  | none => "all"
  | some env => "env:" ++ env

open State

def State.firingFor (s : State) (ruleID : UUID) (fingerprint : String) :
    List AlertInstance :=
  s.instances.filter fun i =>
    i.alertRuleID = ruleID && i.fingerprint = fingerprint && i.state = .firing

/-- `ORDER BY started_at DESC LIMIT 1`. -/
def latestStarted : List AlertInstance → Option AlertInstance
  | [] => none
  | i :: is =>
    match latestStarted is with
    | none => some i
    | some j => if i.startedAt < j.startedAt then some j else some i

/-- `ActiveInstanceByFingerprint`. -/
def State.activeInstance (s : State) (ruleID : UUID) (fingerprint : String) :
    Option AlertInstance :=
  latestStarted (s.firingFor ruleID fingerprint)

/-- `OpenInstance`: the new row's id and the state with it. -/
def State.openInstance (s : State) (ruleID : UUID) (fingerprint : String)
    (environment : Option String) : UUID × State :=
  (s.nextID,
    { s with
      instances := s.instances ++ [{
        id := s.nextID, alertRuleID := ruleID, state := .firing,
        fingerprint := fingerprint, environment := environment,
        startedAt := s.world.now, lastEvaluatedAt := s.world.now }]
      nextID := s.nextID + 1 })

/-- `UPDATE alert_instances SET f WHERE id = $1 AND p`. -/
def State.updateInstance (s : State) (id : UUID) (p : AlertInstance → Bool)
    (f : AlertInstance → AlertInstance) : State :=
  { s with instances := updateWhere (fun i => i.id = id && p i) f s.instances }

def State.touchInstance (s : State) (id : UUID) : State :=
  s.updateInstance id (fun _ => true) fun i => { i with lastEvaluatedAt := s.world.now }

/-- `RefreshInstance`: the labels are rewritten, the environment label among
them. -/
def State.refreshInstance (s : State) (id : UUID) (environment : Option String) : State :=
  s.updateInstance id (fun _ => true) fun i =>
    { i with lastEvaluatedAt := s.world.now, environment := environment }

def State.resolveInstance (s : State) (id : UUID) : State :=
  s.updateInstance id (fun _ => true) fun i =>
    { i with state := .resolved, endedAt := some s.world.now,
             lastEvaluatedAt := s.world.now }

/-- `MarkInstanceSuppressed`: the first writer wins. -/
def State.markInstanceSuppressed (s : State) (id windowID : UUID) : State :=
  s.updateInstance id (fun i => i.suppressedBy.isNone) fun i =>
    { i with suppressedBy := some windowID }

def State.markInstanceNotified (s : State) (id : UUID) : State :=
  s.updateInstance id (fun _ => true) fun i =>
    { i with lastNotifiedAt := some s.world.now }

def State.acknowledgeInstance (s : State) (id : UUID) : State :=
  s.updateInstance id (fun i => i.state = .firing && i.handledAt.isNone) fun i =>
    { i with handledAt := some s.world.now }

/-- The row of an instance an operator closes by hand. -/
def AlertInstance.closedAt (i : AlertInstance) (now : Time) : AlertInstance :=
  { i with state := .resolved, endedAt := some now, lastEvaluatedAt := now,
           handledAt := i.handledAt.or (some now) }

def State.resolveInstanceManual (s : State) (id : UUID) : State :=
  s.updateInstance id (fun i => i.state = .firing) fun i => i.closedAt s.world.now

/-- How many of the inserts of one `EnqueueJobs` call succeed before one fails;
`none` when none fails. -/
abbrev Fault := Option Nat

def insertedChannels (fault : Fault) (channelIDs : List UUID) : List UUID :=
  match fault with
  | none => channelIDs.eraseDups
  | some k => channelIDs.eraseDups.take k

/-- `EnqueueJobs`: whether it succeeded, and the state with the jobs it inserted.
The transition is read from the instance, and an unknown instance gets none. -/
def State.enqueueJobs (s : State) (fault : Fault) (instanceID : UUID)
    (channelIDs : List UUID) (window : Duration) : Bool × State :=
  let inserted := insertedChannels fault channelIDs
  (inserted.length = channelIDs.eraseDups.length,
    match s.instances.find? fun i => i.id = instanceID with
    | none => s
    | some i =>
      { s with jobs := s.jobs ++ newJobs s.world.now s.nextID i.id i.state inserted window
               nextID := s.nextID + inserted.length })

def mwCacheTTL : Duration := 15 * second

/-- The cache of active windows, reloaded when it is older than its TTL. -/
def State.refreshWindows (s : State) : State :=
  match s.mwFetched with
  | some t =>
    if (s.world.now : Int) - t > mwCacheTTL then
      { s with mwCache := activeMaintenanceWindows s.world.windows s.world.now
               mwFetched := some s.world.now }
    else s
  | none =>
    { s with mwCache := activeMaintenanceWindows s.world.windows s.world.now
             mwFetched := some s.world.now }

/-- `suppressedBy`: the cached window that covers the rule, and the state with
the cache refreshed. -/
def State.suppressedBy (s : State) (rule : AlertRule) : Option UUID × State :=
  (coveringWindow s.refreshWindows.mwCache rule, s.refreshWindows)

/-- `behavior`: grouping and re-notify interval in minutes.  Without a resolver,
or when it fails, delivery is per check and never recurs. -/
def World.behavior (w : World) (env : Option String) (rule : AlertRule) : Grouping × Int :=
  match w.resolver with
  | none => (.perCheck, 0)
  | some r =>
    match r.resolveBehavior env rule.integrationID rule.groupID with
    | none => (.perCheck, 0)
    | some (grouping, renotify) =>
      (grouping.getD .perCheck, if renotify < 0 then 0 else renotify)

/-- `channelsFor`: the routed channels, or the rule's own when routing fails. -/
def World.channelsFor (w : World) (env : Option String) (rule : AlertRule) : List UUID :=
  match w.resolver with
  | none => rule.channelIDs
  | some r =>
    (r.resolve env rule.channelIDs rule.integrationID rule.groupID).getD rule.channelIDs

/-- The rule's firing notifications are folded into its integration's stream. -/
def World.coalesces (w : World) (env : Option String) (rule : AlertRule) : Bool :=
  (w.behavior env rule).1 = .perIntegration && rule.integrationID.isSome

/-- `enqueue`: the notification of a resolution, always per instance. -/
def State.enqueue (s : State) (fault : Fault) (env : Option String)
    (instanceID : UUID) (rule : AlertRule) : State :=
  (s.enqueueJobs fault instanceID (s.world.channelsFor env rule) s.world.deliveryWindow).2

/-- `resolveOrHold`: a manual-resolve instance nobody has acknowledged is held;
any other is resolved, and the recovery announced unless it was acknowledged or
muted at birth. -/
def State.resolveOrHold (s : State) (fault : Fault) (env : Option String)
    (active : AlertInstance) (rule : AlertRule) : State :=
  if rule.resolveMode = .manual ∧ active.handledAt = none then
    s.touchInstance active.id
  else if active.handledAt = none ∧ active.suppressedBy = none then
    (s.resolveInstance active.id).enqueue fault env active.id rule
  else s.resolveInstance active.id

/-- Enqueue a page for an instance and stamp its watermark when that worked:
`renotifyInstance`, and the last part of `enqueueFiring`. -/
def State.page (s : State) (fault : Fault) (env : Option String) (instanceID : UUID)
    (rule : AlertRule) : State :=
  let (ok, s) := s.enqueueJobs fault instanceID (s.world.channelsFor env rule)
    s.world.deliveryWindow
  if ok then s.markInstanceNotified instanceID else s

/-- `enqueueFiring`: muted by a window, folded into the integration's stream, or
paged. -/
def State.enqueueFiring (s : State) (fault : Fault) (env : Option String)
    (instanceID : UUID) (rule : AlertRule) : State :=
  match s.suppressedBy rule with
  | (some w, s) => s.markInstanceSuppressed instanceID w
  | (none, s) =>
    if s.world.coalesces env rule then s else s.page fault env instanceID rule

def State.renotifyInstance (s : State) (fault : Fault) (env : Option String)
    (instanceID : UUID) (rule : AlertRule) : State :=
  s.page fault env instanceID rule

/-! ## Frames -/

section Frames

variable (s : State)

theorem State.refreshWindows_eq :
    ∃ cache fetched, s.refreshWindows = { s with mwCache := cache, mwFetched := fetched } := by
  unfold refreshWindows
  split
  · split
    · exact ⟨_, _, rfl⟩
    · exact ⟨s.mwCache, s.mwFetched, rfl⟩
  · exact ⟨_, _, rfl⟩

@[simp] theorem State.refreshWindows_world : s.refreshWindows.world = s.world := by
  obtain ⟨_, _, h⟩ := s.refreshWindows_eq
  rw [h]

@[simp] theorem State.refreshWindows_instances : s.refreshWindows.instances = s.instances := by
  obtain ⟨_, _, h⟩ := s.refreshWindows_eq
  rw [h]

@[simp] theorem State.refreshWindows_jobs : s.refreshWindows.jobs = s.jobs := by
  obtain ⟨_, _, h⟩ := s.refreshWindows_eq
  rw [h]

@[simp] theorem State.refreshWindows_nextID : s.refreshWindows.nextID = s.nextID := by
  obtain ⟨_, _, h⟩ := s.refreshWindows_eq
  rw [h]

theorem State.mwCache_refreshWindows_readings (readings : UUID → Option Rat) :
    ({ s with readings := readings } : State).refreshWindows.mwCache =
      s.refreshWindows.mwCache := by
  unfold refreshWindows
  cases s.mwFetched with
  | none => rfl
  | some t => by_cases hstale : (s.world.now : Int) - t > mwCacheTTL <;> simp [hstale]

@[simp] theorem State.enqueueJobs_world (fault : Fault) (instanceID : UUID) (channelIDs : List UUID)
    (window : Duration) : (s.enqueueJobs fault instanceID channelIDs window).2.world = s.world := by
  unfold enqueueJobs
  dsimp only
  split <;> rfl

@[simp] theorem State.enqueueJobs_instances (fault : Fault) (instanceID : UUID)
    (channelIDs : List UUID) (window : Duration) :
    (s.enqueueJobs fault instanceID channelIDs window).2.instances = s.instances := by
  unfold enqueueJobs
  dsimp only
  split <;> rfl

theorem State.nextID_le_enqueueJobs (fault : Fault) (instanceID : UUID)
    (channelIDs : List UUID) (window : Duration) :
    s.nextID ≤ (s.enqueueJobs fault instanceID channelIDs window).2.nextID := by
  unfold enqueueJobs
  dsimp only
  split
  · exact Nat.le_refl _
  · exact Nat.le_add_right _ _

end Frames

theorem State.enqueueFiring_eq (s : State) (fault : Fault) (env : Option String)
    (instanceID : UUID) (rule : AlertRule) :
    s.enqueueFiring fault env instanceID rule =
      match coveringWindow s.refreshWindows.mwCache rule with
      | some w => s.refreshWindows.markInstanceSuppressed instanceID w
      | none =>
        if s.world.coalesces env rule then s.refreshWindows
        else s.refreshWindows.page fault env instanceID rule := by
  unfold enqueueFiring suppressedBy
  cases coveringWindow s.refreshWindows.mwCache rule <;> simp

/-- The rows an enqueue call appends. -/
def State.appendedJobs (s : State) (fault : Fault) (instanceID : UUID)
    (channelIDs : List UUID) (window : Duration) : List NotificationJob :=
  match s.instances.find? fun i => i.id = instanceID with
  | none => []
  | some i =>
    newJobs s.world.now s.nextID i.id i.state (insertedChannels fault channelIDs) window

theorem State.enqueueJobs_jobs (s : State) (fault : Fault) (instanceID : UUID)
    (channelIDs : List UUID) (window : Duration) :
    (s.enqueueJobs fault instanceID channelIDs window).2.jobs =
      s.jobs ++ s.appendedJobs fault instanceID channelIDs window := by
  unfold enqueueJobs appendedJobs
  dsimp only
  split <;> simp

variable {fault : Fault} {channelIDs : List UUID} {instanceID : UUID} {s : State}
  {window : Duration} {j : NotificationJob} {i : AlertInstance}

theorem State.mem_appendedJobs (h : j ∈ s.appendedJobs fault instanceID channelIDs window) :
    insertedChannels fault channelIDs ≠ [] ∧
      ∃ i ∈ s.instances, i.id = instanceID ∧ j.alertInstanceID = instanceID ∧
        j.forState = i.state ∧ j.createdAt = s.world.now := by
  unfold appendedJobs at h
  split at h
  · cases h
  · next i hfind =>
    have hid : i.id = instanceID := by simpa using List.find?_some hfind
    obtain ⟨_, _, hinst, hchannel, hstate, _, _, hcreated, _⟩ := mem_newJobs h
    exact ⟨List.ne_nil_of_mem hchannel, i, List.mem_of_find?_eq_some hfind, hid,
      hinst.trans hid, hstate, hcreated⟩

theorem State.exists_appendedJob (window : Duration) (hi : i ∈ s.instances)
    (hids : (s.instances.map (·.id)).Nodup) (hins : insertedChannels fault channelIDs ≠ []) :
    ∃ j ∈ s.appendedJobs fault i.id channelIDs window,
      j.alertInstanceID = i.id ∧ j.forState = i.state := by
  have hfind : s.instances.find? (fun i' => i'.id = i.id) = some i :=
    (find?_key_eq_some hids).2 ⟨hi, rfl⟩
  simp only [appendedJobs, hfind]
  have hlen : newJobs s.world.now s.nextID i.id i.state
      (insertedChannels fault channelIDs) window ≠ [] := by
    simpa [newJobs] using hins
  obtain ⟨j, hj⟩ := List.exists_mem_of_ne_nil _ hlen
  obtain ⟨_, _, hinst, _, hstate, _⟩ := mem_newJobs hj
  exact ⟨j, hj, hinst, hstate⟩

theorem State.mem_jobs_enqueueJobs
    (h : j ∈ (s.enqueueJobs fault instanceID channelIDs window).2.jobs) :
    j ∈ s.jobs ∨ ∃ i ∈ s.instances, i.id = instanceID ∧ j.alertInstanceID = instanceID ∧
      j.forState = i.state ∧ j.createdAt = s.world.now := by
  rw [enqueueJobs_jobs] at h
  exact (List.mem_append.1 h).imp_right fun hnew => (mem_appendedJobs hnew).2

theorem State.exists_job_enqueueJobs (window : Duration) (hi : i ∈ s.instances)
    (hids : (s.instances.map (·.id)).Nodup) (hins : insertedChannels fault channelIDs ≠ []) :
    ∃ j ∈ (s.enqueueJobs fault i.id channelIDs window).2.jobs,
      j.alertInstanceID = i.id ∧ j.forState = i.state := by
  obtain ⟨j, hj, hjob⟩ := exists_appendedJob window hi hids hins
  rw [enqueueJobs_jobs]
  exact ⟨j, List.mem_append_right _ hj, hjob⟩

theorem State.enqueueJobs_jobs_of_nil (s : State) (instanceID : UUID) (window : Duration)
    (hins : insertedChannels fault channelIDs = []) :
    (s.enqueueJobs fault instanceID channelIDs window).2.jobs = s.jobs := by
  simp only [enqueueJobs, hins]
  split <;> simp [newJobs]

theorem State.enqueueJobs_nil (s : State) (fault : Fault) (instanceID : UUID)
    (window : Duration) : (s.enqueueJobs fault instanceID [] window).2 = s := by
  have hnone : insertedChannels fault [] = [] := by cases fault <;> simp [insertedChannels]
  simp only [enqueueJobs, hnone]
  split <;> simp [newJobs]

theorem insertedChannels_none (h : channelIDs ≠ []) : insertedChannels none channelIDs ≠ [] := by
  obtain ⟨ch, hch⟩ := List.exists_mem_of_ne_nil _ h
  exact List.ne_nil_of_mem (List.mem_eraseDups.2 hch)

theorem channels_ne_nil_of_inserted (h : insertedChannels fault channelIDs ≠ []) :
    channelIDs ≠ [] := by
  rintro rfl
  exact h (by cases fault <;> simp [insertedChannels])

theorem insertedChannels_of_ok (hok : (s.enqueueJobs fault instanceID channelIDs window).1)
    (hchans : channelIDs ≠ []) : insertedChannels fault channelIDs ≠ [] := by
  have hall : (insertedChannels fault channelIDs).length = channelIDs.eraseDups.length := by
    simpa [enqueueJobs] using hok
  intro hnone
  rw [hnone] at hall
  exact insertedChannels_none hchans (List.eq_nil_of_length_eq_zero hall.symm)

end Sluicio.Alerting
