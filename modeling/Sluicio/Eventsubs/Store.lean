import Sluicio.Catalog
import Sluicio.Lib.Ordered
import Mathlib.Algebra.Group.Int.Defs

/-!
# The queue of event deliveries

The table `event_jobs` and the statements on it.  A job is claimed by setting it to running,
which only the mark of its attempt leaves: to done, to failed, or back to pending with a later
`next_attempt_at`.  Done and failed jobs are pruned once they are old.

Times and durations are in seconds.
-/

namespace Sluicio.Eventsubs

open Lib

inductive JobState where
  | pending | running | done | failed
  deriving DecidableEq

/-- `Job`: what the worker reads of a job. -/
structure Job where
  id : UUID
  subscriptionID : UUID
  eventID : String
  eventType : String
  subject : String
  occurredAt : Int
  payload : String
  attempts : Nat
  deriving DecidableEq

/-- A row of `event_jobs`. -/
structure EventJob extends Job where
  state : JobState
  nextAttemptAt : Int
  lastError : List UInt8
  deriving DecidableEq

def maxAttempts : Nat := 5

/-- The jobs a worker claims at a time. -/
def claimLimit : Nat := 50

/-- `Enqueue`: the columns the statement does not name have their defaults. -/
def enqueue (now : Int) (j : Job) (jobs : List EventJob) : List EventJob :=
  jobs ++ [{ j with attempts := 0, state := .pending, nextAttemptAt := now, lastError := [] }]

/-- The rows `ClaimDue` selects. -/
def dueJobs (now : Int) (limit : Nat) (jobs : List EventJob) : List EventJob :=
  (orderBy EventJob.nextAttemptAt
    (jobs.filter fun j => j.state = .pending && j.nextAttemptAt ≤ now)).take limit

/-- A row once it is claimed, where its id is one of those. -/
def running (ids : List UUID) (j : EventJob) : EventJob :=
  if ids.contains j.id then { j with state := .running } else j

/-- `ClaimDue`: the jobs claimed, and the table once the claim is committed. -/
def claimDue (now : Int) (limit : Nat) (jobs : List EventJob) : List Job × List EventJob :=
  let due := dueJobs now limit jobs
  (due.map EventJob.toJob, jobs.map (running (due.map fun j => j.id)))

def backoff (attempt : Nat) : Int := 2 ^ attempt * 15

def marked (now : Int) (attempt : Nat) (sendErr : Option String) (j : EventJob) : EventJob :=
  match sendErr with
  | none => { j with state := .done, attempts := attempt, lastError := [] }
  | some msg =>
    let msg := msg.toUTF8.toList.take 500
    if maxAttempts ≤ attempt then
      { j with state := .failed, attempts := attempt, lastError := msg }
    else
      { j with
        state := .pending
        attempts := attempt
        lastError := msg
        nextAttemptAt := now + backoff attempt }

def markResult (now : Int) (jobID : UUID) (attempt : Nat) (sendErr : Option String)
    (jobs : List EventJob) : List EventJob :=
  updateWhere (fun j => j.id = jobID) (marked now attempt sendErr) jobs

def EventJob.finished (j : EventJob) : Bool := j.state = .done || j.state = .failed

def pruneFinished (now olderThan : Int) (jobs : List EventJob) : List EventJob :=
  jobs.filter fun j => !(j.finished && j.occurredAt < now - olderThan)

/-! ## One job -/

def find (jobs : List EventJob) (id : UUID) : Option EventJob := jobs.find? fun j => j.id = id

/-- No two rows are of one job. -/
def Keyed (jobs : List EventJob) : Prop := (jobs.map fun j => j.id).Nodup

section Find

variable {jobs : List EventJob} {id : UUID} {j : EventJob}

theorem find_eq_some (h : Keyed jobs) : find jobs id = some j ↔ j ∈ jobs ∧ j.id = id :=
  find?_key_eq_some h

theorem find_eq_none : find jobs id = none ↔ ∀ j ∈ jobs, j.id ≠ id := by
  simp [find]

theorem id_of_find (h : find jobs id = some j) : j.id = id := by
  simpa using List.find?_some h

theorem mem_of_find (h : find jobs id = some j) : j ∈ jobs := List.mem_of_find?_eq_some h

@[simp] theorem running_id (ids : List UUID) (j : EventJob) : (running ids j).id = j.id := by
  unfold running
  split <;> rfl

@[simp] theorem marked_id (now : Int) (attempt : Nat) (sendErr : Option String) (j : EventJob) :
    (marked now attempt sendErr j).id = j.id := by
  unfold marked
  split
  · rfl
  · dsimp only
    split <;> rfl

theorem find_enqueue (now : Int) (new : Job) (jobs : List EventJob) (id : UUID) :
    find (enqueue now new jobs) id =
      (find jobs id).or (if new.id = id then
        some { new with attempts := 0, state := .pending, nextAttemptAt := now, lastError := [] }
        else none) := by
  rw [find, enqueue, List.find?_append, find]
  by_cases hid : new.id = id <;> simp [hid]

theorem find_claimDue (now : Int) (limit : Nat) (jobs : List EventJob) (id : UUID) :
    find (claimDue now limit jobs).2 id =
      (find jobs id).map (running ((dueJobs now limit jobs).map fun j => j.id)) := by
  simp only [find, claimDue, List.find?_map, Function.comp_def, running_id]

theorem find_markResult (now : Int) (jobID : UUID) (attempt : Nat) (sendErr : Option String)
    (jobs : List EventJob) (id : UUID) :
    find (markResult now jobID attempt sendErr jobs) id =
      (find jobs id).map fun j => if j.id = jobID then marked now attempt sendErr j else j := by
  have hkeep : ∀ j, (fun j : EventJob => j.id) (marked now attempt sendErr j) =
      (fun j : EventJob => j.id) j := marked_id now attempt sendErr
  simpa [find, markResult] using
    find?_updateWhere (p := fun j : EventJob => decide (j.id = jobID)) hkeep jobs id

theorem find_pruneFinished (h : Keyed jobs) (now olderThan : Int) (id : UUID) :
    find (pruneFinished now olderThan jobs) id =
      (find jobs id).filter fun j => !(j.finished && j.occurredAt < now - olderThan) :=
  find?_filter_key h id

theorem keyed_enqueue (h : Keyed jobs) (now : Int) {new : Job} (hnew : ∀ j ∈ jobs, j.id ≠ new.id) :
    Keyed (enqueue now new jobs) := by
  simp only [Keyed, enqueue, List.map_append, List.map_cons, List.map_nil]
  refine List.nodup_append.2 ⟨h, List.nodup_singleton _, fun id hid id' hid' => ?_⟩
  obtain ⟨j, hj, rfl⟩ := List.mem_map.1 hid
  rw [List.mem_singleton.1 hid']
  exact hnew j hj

theorem keyed_claimDue (h : Keyed jobs) (now : Int) (limit : Nat) :
    Keyed (claimDue now limit jobs).2 := by
  simpa only [Keyed, claimDue, List.map_map, Function.comp_def, running_id] using h

theorem keyed_markResult (h : Keyed jobs) (now : Int) (jobID : UUID) (attempt : Nat)
    (sendErr : Option String) : Keyed (markResult now jobID attempt sendErr jobs) :=
  nodup_updateWhere (marked_id now attempt sendErr) h

theorem keyed_pruneFinished (h : Keyed jobs) (now olderThan : Int) :
    Keyed (pruneFinished now olderThan jobs) :=
  h.sublist (List.filter_sublist.map _)

end Find

section Claim

variable {now : Int} {limit : Nat} {jobs : List EventJob} {j : EventJob}

theorem mem_dueJobs (h : j ∈ dueJobs now limit jobs) :
    j ∈ jobs ∧ j.state = .pending ∧ j.nextAttemptAt ≤ now := by
  have hmem := mem_orderBy.1 (List.mem_of_mem_take h)
  simpa using List.mem_filter.1 hmem

theorem nodup_dueJobs (h : Keyed jobs) : ((dueJobs now limit jobs).map fun j => j.id).Nodup := by
  have hperm := (orderBy_perm EventJob.nextAttemptAt
    (jobs.filter fun j => j.state = .pending && j.nextAttemptAt ≤ now)).map fun j => j.id
  have hfilter : ((jobs.filter fun j => j.state = .pending && j.nextAttemptAt ≤ now).map
      fun j => j.id).Nodup := h.sublist (List.filter_sublist.map _)
  exact (hperm.nodup_iff.2 hfilter).sublist ((List.take_sublist limit _).map _)

theorem exists_due_before (hlimit : 0 < limit) (hj : j ∈ jobs) (hpending : j.state = .pending)
    (hdue : j.nextAttemptAt ≤ now) (hnot : j ∉ dueJobs now limit jobs) :
    ∃ first ∈ dueJobs now limit jobs, first.nextAttemptAt ≤ j.nextAttemptAt := by
  let sorted := orderBy EventJob.nextAttemptAt
    (jobs.filter fun j => j.state = .pending && j.nextAttemptAt ≤ now)
  have hsorted : sorted.Pairwise fun a b => a.nextAttemptAt ≤ b.nextAttemptAt :=
    pairwise_orderBy _ _
  have hmem : j ∈ sorted := mem_orderBy.2 (List.mem_filter.2 ⟨hj, by simp [hpending, hdue]⟩)
  rw [← List.take_append_drop limit sorted] at hmem hsorted
  have hdrop : j ∈ sorted.drop limit := (List.mem_append.1 hmem).resolve_left hnot
  have hlength : limit < sorted.length := by
    by_contra hle
    rw [List.drop_eq_nil_of_le (by omega)] at hdrop
    exact List.not_mem_nil hdrop
  obtain ⟨first, hfirst⟩ : ∃ first, first ∈ sorted.take limit := by
    refine List.exists_mem_of_length_pos ?_
    rw [List.length_take]
    omega
  exact ⟨first, hfirst, (List.pairwise_append.1 hsorted).2.2 first hfirst j hdrop⟩

end Claim

end Sluicio.Eventsubs
