import Sluicio.Lib.Run
import Sluicio.Alerting.Types

/-!
# The delivery loop

Any number of workers share one table of jobs.  A worker claims a batch, which
marks its rows running, and then delivers the batch one job after the other,
recording each outcome by the job's id alone.  A sweep gives jobs that have been
running for longer than `stuckAfter` back to the queue.
-/

namespace Sluicio.Alerting

open Lib

def claimLimit : Nat := 20
def maxBackoff : Duration := 15 * minute
def stuckAfter : Duration := 5 * minute

/-- What the claim query reads of a job, with the state the instance was in at
that moment. -/
structure DeliveryJob where
  jobID : UUID
  attempts : Nat
  state : InstanceState
  instanceState : InstanceState
  expiresAt : Time

/-- One delivery worker: the jobs it has claimed and not reached, and the one it
is delivering with the time it started. -/
structure Worker where
  claimedAt : Time := 0
  batch : List DeliveryJob := []
  current : Option (DeliveryJob × Time) := none

/-- The jobs a worker has claimed and not recorded an outcome for. -/
def Worker.held (w : Worker) : List DeliveryJob :=
  (w.current.map Prod.fst).toList ++ w.batch

/-- The jobs table, the states of the instances the jobs are about, and the
workers, of which all but finitely many are idle. -/
structure Outbox where
  now : Time
  jobs : List NotificationJob := []
  instanceState : UUID → InstanceState := fun _ => .firing
  workers : Nat → Worker := fun _ => {}
  nextID : UUID := 0

def Outbox.setWorker (s : Outbox) (w : Nat) (worker : Worker) : Outbox :=
  { s with workers := fun w' => if w' = w then worker else s.workers w' }

/-- `UPDATE notification_jobs SET f WHERE p`. -/
def Outbox.updateJobs (s : Outbox) (p : NotificationJob → Bool)
    (f : NotificationJob → NotificationJob) : Outbox :=
  { s with jobs := updateWhere p f s.jobs }

def Outbox.enqueueJobs (s : Outbox) (instanceID : UUID) (channelIDs : List UUID)
    (window : Duration) : Outbox :=
  { s with
    jobs := s.jobs ++ newJobs s.now s.nextID instanceID (s.instanceState instanceID)
      channelIDs.eraseDups window
    nextID := s.nextID + channelIDs.eraseDups.length }

def Outbox.job? (s : Outbox) (id : UUID) : Option NotificationJob :=
  s.jobs.find? fun j => j.id = id

/-- The claim query may return these rows: due jobs in the order of their next
attempt, at most `claimLimit` of them.  Rows locked by another transaction are
skipped and ties may come in any order, so the answer is not determined. -/
def Outbox.ClaimAnswer (s : Outbox) (picked : List UUID) : Prop :=
  picked.length ≤ claimLimit ∧ picked.Nodup ∧
    (∀ j ∈ picked.filterMap s.job?, j.state = .pending ∧ j.nextAttemptAt ≤ s.now) ∧
    (picked.filterMap s.job?).Pairwise fun j j' => j.nextAttemptAt ≤ j'.nextAttemptAt

instance (s : Outbox) (picked : List UUID) : Decidable (s.ClaimAnswer picked) :=
  inferInstanceAs (Decidable (_ ∧ _ ∧ _ ∧ _))

/-- The columns of one claimed row. -/
def Outbox.deliveryJob (s : Outbox) (j : NotificationJob) : DeliveryJob :=
  { jobID := j.id, attempts := j.attempts, state := j.forState,
    instanceState := s.instanceState j.alertInstanceID, expiresAt := j.expiresAt }

/-- `ClaimDueJobs`, by worker `w`. -/
def Outbox.claimDueJobs (s : Outbox) (w : Nat) (picked : List UUID) : Outbox :=
  (s.updateJobs (fun j => j.id ∈ picked) fun j =>
      { j with state := .running, updatedAt := s.now }).setWorker w
    { claimedAt := s.now, batch := (picked.filterMap s.job?).map s.deliveryJob }

def Outbox.markJobSucceeded (s : Outbox) (id : UUID) : Outbox :=
  s.updateJobs (fun j => j.id = id) fun j =>
    { j with state := .succeeded, attempts := j.attempts + 1, updatedAt := s.now }

def Outbox.markJobFailed (s : Outbox) (id : UUID) (attempts : Nat) (giveUp : Bool)
    (backoff : Duration) : Outbox :=
  if giveUp then
    s.updateJobs (fun j => j.id = id) fun j =>
      { j with state := .failed, attempts := attempts + 1, updatedAt := s.now }
  else
    s.updateJobs (fun j => j.id = id) fun j =>
      { j with state := .pending, attempts := attempts + 1,
               nextAttemptAt := (s.now + backoff).toNat, updatedAt := s.now }

def Outbox.markJobDropped (s : Outbox) (id : UUID) : Outbox :=
  s.updateJobs (fun j => j.id = id) fun j =>
    { j with state := .dropped, updatedAt := s.now }

/-- The rows a reclaim takes: running, and not touched for `stuckAfter`. -/
def Outbox.stuck (s : Outbox) (j : NotificationJob) : Bool :=
  j.state = .running && (j.updatedAt : Int) < s.now - stuckAfter

def Outbox.reclaimStuckJobs (s : Outbox) : Outbox :=
  s.updateJobs s.stuck fun j =>
    { j with state := .pending, attempts := j.attempts + 1, nextAttemptAt := s.now,
             updatedAt := s.now }

/-! ## The worker's loop -/

def staleFiring (job : DeliveryJob) : Bool :=
  job.state = .firing && job.instanceState = .resolved

/-- `retryPlan`: the wait before the next attempt, and whether to give up. -/
def retryPlan (attempts : Nat) (expiresAt now : Time) (maxBackoff : Duration) : Duration × Bool :=
  let backoff := wrap64 (2 ^ attempts * (30 * second))
  let backoff := if maxBackoff < backoff ∨ backoff ≤ 0 then maxBackoff else backoff
  -- the zero time: a job queued before the column existed
  if expiresAt = 0 then (backoff, false)
  else (backoff, (expiresAt : Int) < now + backoff)

/-- The worker reaches the next job of its batch: it drops it when its alert has
resolved, and starts delivering it otherwise.  `recorded` says whether the
update of the row went through. -/
def Outbox.takeNext (s : Outbox) (w : Nat) (recorded : Bool) : Outbox :=
  let worker := s.workers w
  match worker.current, worker.batch with
  | none, job :: rest =>
    if staleFiring job then
      (if recorded then s.markJobDropped job.jobID else s).setWorker w
        { worker with batch := rest }
    else s.setWorker w { worker with batch := rest, current := some (job, s.now) }
  | _, _ => s

def Outbox.recordOutcome (s : Outbox) (job : DeliveryJob) (delivered : Bool) : Outbox :=
  if delivered then s.markJobSucceeded job.jobID
  else
    let (backoff, giveUp) := retryPlan job.attempts job.expiresAt s.now maxBackoff
    s.markJobFailed job.jobID job.attempts giveUp backoff

/-- The current delivery ends. -/
def Outbox.finish (s : Outbox) (w : Nat) (delivered recorded : Bool) : Outbox :=
  let worker := s.workers w
  match worker.current with
  | none => s
  | some (job, _) =>
    (if recorded then s.recordOutcome job delivered else s).setWorker w
      { worker with current := none }

/-- What the engine and the delivery workers do to the outbox. -/
inductive DeliveryAction where
  /-- the engine queues a notification -/
  | enqueue (instanceID : UUID) (channelIDs : List UUID) (window : Duration)
  | resolve (instanceID : UUID)
  | advance (d : Nat)
  | claim (w : Nat) (picked : List UUID)
  | takeNext (w : Nat) (recorded : Bool)
  | finish (w : Nat) (delivered recorded : Bool)
  | reclaim
  /-- the worker's process dies -/
  | die (w : Nat)

/-- A worker claims only between batches, and gets one of the answers the query
can give; any other claim is no step of the loop. -/
def Outbox.Claims (s : Outbox) (w : Nat) (picked : List UUID) : Prop :=
  (s.workers w).held = [] ∧ s.ClaimAnswer picked

instance (s : Outbox) (w : Nat) (picked : List UUID) : Decidable (s.Claims w picked) :=
  inferInstanceAs (Decidable (_ ∧ _))

def Outbox.step (s : Outbox) : DeliveryAction → Outbox
  | .enqueue instanceID channelIDs window => s.enqueueJobs instanceID channelIDs window
  | .resolve instanceID =>
    { s with instanceState := fun i =>
        if i = instanceID then .resolved else s.instanceState i }
  | .advance d => { s with now := s.now + d }
  | .claim w picked => if s.Claims w picked then s.claimDueJobs w picked else s
  | .takeNext w recorded => s.takeNext w recorded
  | .finish w delivered recorded => s.finish w delivered recorded
  | .reclaim => s.reclaimStuckJobs
  | .die w => s.setWorker w { s.workers w with batch := [], current := none }

/-- The job that a worker sets out to deliver at this step. -/
def Outbox.starts (s : Outbox) : DeliveryAction → Option DeliveryJob
  | .takeNext w _ =>
    match (s.workers w).current, (s.workers w).batch with
    | none, job :: _ => if staleFiring job then none else some job
    | _, _ => none
  | _ => none

/-- Worker `w` is delivering job `id`. -/
def Outbox.Delivering (s : Outbox) (w : Nat) (id : UUID) : Prop :=
  ((s.workers w).current.map fun c => c.1.jobID) = some id

instance (s : Outbox) (w : Nat) (id : UUID) : Decidable (s.Delivering w id) :=
  inferInstanceAs (Decidable (_ = _))

/-! ## Rows and workers, step by step -/

@[simp] theorem Outbox.setWorker_self (s : Outbox) (w : Nat) (x : Worker) :
    (s.setWorker w x).workers w = x := if_pos rfl

theorem Outbox.setWorker_of_ne (s : Outbox) {w w' : Nat} (x : Worker) (h : w' ≠ w) :
    (s.setWorker w x).workers w' = s.workers w' := if_neg h

/-- Every id in the table is used once, and the next one is unused. -/
structure Outbox.Keyed (s : Outbox) : Prop where
  ids : (s.jobs.map (·.id)).Nodup
  fresh : ∀ j ∈ s.jobs, j.id < s.nextID

theorem Outbox.keyed_init (now : Time) : Outbox.Keyed { now := now } where
  ids := List.nodup_nil
  fresh := by simp

section Keyed

variable {s : Outbox}

theorem Outbox.Keyed.job?_eq_some (h : s.Keyed) {id : UUID} {j : NotificationJob} :
    s.job? id = some j ↔ j ∈ s.jobs ∧ j.id = id :=
  find?_key_eq_some h.ids

theorem Outbox.Keyed.updateJobs (h : s.Keyed) {p : NotificationJob → Bool}
    {f : NotificationJob → NotificationJob} (hf : ∀ j, (f j).id = j.id) :
    (s.updateJobs p f).Keyed where
  ids := by
    rw [show (s.updateJobs p f).jobs.map (·.id) = s.jobs.map (·.id) from map_updateWhere hf s.jobs]
    exact h.ids
  fresh := by
    intro j hj
    obtain ⟨j₀, hj₀, ⟨_, rfl⟩ | ⟨_, rfl⟩⟩ := mem_updateWhere.1 hj
    · rw [hf]
      exact h.fresh j₀ hj₀
    · exact h.fresh j hj₀

theorem Outbox.Keyed.setWorker (h : s.Keyed) (w : Nat) (x : Worker) :
    (s.setWorker w x).Keyed := ⟨h.ids, h.fresh⟩

theorem Outbox.Keyed.enqueueJobs (h : s.Keyed) (instanceID : UUID)
    (channelIDs : List UUID) (window : Duration) :
    (s.enqueueJobs instanceID channelIDs window).Keyed where
  ids := by
    have hnew := newJobs_map_id s.now s.nextID instanceID (s.instanceState instanceID)
      channelIDs.eraseDups window
    simp only [Outbox.enqueueJobs, List.map_append, hnew, List.nodup_append]
    refine ⟨h.ids, List.nodup_range', ?_⟩
    intro id hid id' hid'
    obtain ⟨j, hj, rfl⟩ := List.mem_map.1 hid
    have hge := (List.mem_range'_1.1 hid').1
    exact Nat.ne_of_lt (Nat.lt_of_lt_of_le (h.fresh j hj) hge)
  fresh := by
    intro j hj
    simp only [Outbox.enqueueJobs, List.mem_append] at hj ⊢
    rcases hj with hj | hj
    · exact Nat.lt_add_right _ (h.fresh j hj)
    · exact (mem_newJobs hj).2.1

end Keyed

/-- Recording an outcome rewrites the one row of the job: it is closed, or it is
pending again for the time the retry plan says. -/
theorem Outbox.recordOutcome_eq (s : Outbox) (job : DeliveryJob) (delivered : Bool) :
    ∃ f : NotificationJob → NotificationJob,
      s.recordOutcome job delivered = s.updateJobs (fun j => j.id = job.jobID) f ∧
      ∀ j, (f j).id = j.id ∧ (f j).createdAt = j.createdAt ∧
        (f j).expiresAt = j.expiresAt ∧
        ((f j).state = .succeeded ∨ (f j).state = .failed ∨
          ((f j).state = .pending ∧
            (retryPlan job.attempts job.expiresAt s.now maxBackoff).2 = false ∧
            (f j).nextAttemptAt = (s.now +
              (retryPlan job.attempts job.expiresAt s.now maxBackoff).1).toNat)) := by
  unfold recordOutcome markJobSucceeded markJobFailed
  split
  · refine ⟨_, rfl, fun j => ?_⟩
    exact ⟨rfl, rfl, rfl, .inl rfl⟩
  dsimp only
  split
  · refine ⟨_, rfl, fun j => ?_⟩
    exact ⟨rfl, rfl, rfl, .inr (.inl rfl)⟩
  · next hgive =>
    refine ⟨_, rfl, fun j => ?_⟩
    exact ⟨rfl, rfl, rfl, .inr (.inr ⟨rfl, by simpa using hgive, rfl⟩)⟩

/-- The worker reaches the next job: nothing to do, a stale job is dropped, or a
delivery starts. -/
theorem Outbox.takeNext_cases (s : Outbox) (w : Nat) (recorded : Bool) :
    s.takeNext w recorded = s ∨
    ∃ job rest, (s.workers w).current = none ∧ (s.workers w).batch = job :: rest ∧
      ((staleFiring job ∧ s.takeNext w recorded =
          (if recorded then s.markJobDropped job.jobID else s).setWorker w
            { s.workers w with batch := rest }) ∨
        (staleFiring job = false ∧ s.takeNext w recorded =
          s.setWorker w { s.workers w with batch := rest, current := some (job, s.now) })) := by
  unfold takeNext
  dsimp only
  split
  · next job rest hcur hbatch =>
    refine .inr ⟨job, rest, hcur, hbatch, ?_⟩
    cases hstale : staleFiring job
    · exact .inr ⟨rfl, by simp⟩
    · exact .inl ⟨rfl, by simp⟩
  · exact .inl rfl

theorem Outbox.finish_cases (s : Outbox) (w : Nat) (delivered recorded : Bool) :
    s.finish w delivered recorded = s ∨
    ∃ job t, (s.workers w).current = some (job, t) ∧
      s.finish w delivered recorded =
        (if recorded then s.recordOutcome job delivered else s).setWorker w
          { s.workers w with current := none } := by
  unfold finish
  dsimp only
  split
  · exact .inl rfl
  · next job t hcur => exact .inr ⟨job, t, hcur, rfl⟩

theorem Outbox.batch_of_starts {s : Outbox} {a : DeliveryAction} {d : DeliveryJob}
    (hs : s.starts a = some d) : ∃ w, d ∈ (s.workers w).batch := by
  unfold starts at hs
  split at hs
  · next w _ =>
    split at hs
    · next job _ _ hbatch =>
      split at hs
      · cases hs
      · obtain rfl : job = d := Option.some.inj hs
        exact ⟨w, by simp [hbatch]⟩
    · cases hs
  · cases hs

end Sluicio.Alerting
