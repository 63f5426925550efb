import Sluicio.Eventsubs.Store

/-!
# The event worker

A sweep claims the jobs that are due, delivers each and marks what came of it, and prunes the
finished jobs once an hour.  The process can stop between any two statements, and a statement
can fail, or be carried out and reported as failed.

A run is about many jobs, and a step about few.  `State.view` is what a state says of one job,
and `step_view` all that a step can do to it.
-/

namespace Sluicio.Eventsubs

open Lib

/-- Where the worker is in a sweep. -/
inductive Phase where
  | idle
  | sweeping (jobs : List Job)
  | posting (job : Job) (jobs : List Job)
  deriving DecidableEq

/-- The jobs that the worker has claimed and not marked. -/
def Phase.held : Phase → List Job
  | .idle => []
  | .sweeping jobs => jobs
  | .posting job jobs => job :: jobs

/-- The job whose delivery is under way. -/
def Phase.posted : Phase → Option UUID
  | .posting job _ => some job.id
  | _ => none

/-- The table, the clock and the worker; and, of every job, whether it was ever enqueued and
how often a delivery of it was begun. -/
structure State where
  jobs : List EventJob
  now : Int
  phase : Phase
  lastPrune : Option Int
  issued : List UUID
  attempted : List UUID
  deriving DecidableEq

open Phase

def State.init (now : Int) : State := ⟨[], now, .idle, none, [], []⟩

/-- What becomes of a statement: it is carried out, it fails, or it is carried out and the
worker is told that it failed. -/
inductive Fault where
  | none | failed | unacknowledged
  deriving DecidableEq

/-- What can happen next.  A job's id was never used before. -/
inductive Action where
  | enqueue (j : Job)
  | wait (seconds : Nat)
  | claim (fault : Fault)
  | post
  | settle (sendErr : Option String) (fault : Fault)
  | finish (fault : Fault)
  | die

/-- `if w.Retention <= 0 { w.Retention = 72 * time.Hour }`. -/
def retentionOf (retention : Int) : Int := if retention ≤ 0 then 72 * 3600 else retention

/-- `time.Since(w.lastPrune) > time.Hour`. -/
def State.pruneDue (s : State) : Bool :=
  match s.lastPrune with
  | none => true
  | some at' => 3600 < s.now - at'

/-- One step, where it can be taken. -/
def step (retention : Int) (s : State) : Action → Option State
  | .enqueue j =>
    if j.id ∈ s.issued then none
    else some { s with jobs := enqueue s.now j s.jobs, issued := j.id :: s.issued }
  | .wait seconds => some { s with now := s.now + seconds }
  | .claim fault =>
    match s.phase, fault with
    | .idle, .none =>
      let (jobs, table) := claimDue s.now claimLimit s.jobs
      some { s with jobs := table, phase := .sweeping jobs }
    | .idle, .failed => some s
    | .idle, .unacknowledged =>
      some { s with jobs := (claimDue s.now claimLimit s.jobs).2 }
    | _, _ => none
  | .post =>
    match s.phase with
    | .sweeping (job :: jobs) =>
      some { s with phase := .posting job jobs, attempted := job.id :: s.attempted }
    | _ => none
  | .settle sendErr fault =>
    match s.phase with
    | .posting job jobs =>
      let table :=
        if fault = .failed then s.jobs
        else markResult s.now job.id (job.attempts + 1) sendErr s.jobs
      some { s with jobs := table, phase := .sweeping jobs }
    | _ => none
  | .finish fault =>
    match s.phase with
    | .sweeping [] =>
      if s.pruneDue then
        let table :=
          if fault = .failed then s.jobs
          else pruneFinished s.now (retentionOf retention) s.jobs
        some { s with jobs := table, lastPrune := some s.now, phase := .idle }
      else some { s with phase := .idle }
    | _ => none
  | .die => some { s with phase := .idle, lastPrune := none }

/-- The jobs a step leaves running with nobody to mark them: those whose mark fails, those the
worker holds when it dies, and those of a claim it takes for failed. -/
def State.loses (s : State) : Action → List UUID
  | .claim .unacknowledged => (claimDue s.now claimLimit s.jobs).1.map Job.id
  | .settle _ .failed => s.phase.posted.toList
  | .die => s.phase.held.map Job.id
  | _ => []

/-! ## One job -/

/-- What a state says of one job. -/
structure View where
  row : Option EventJob
  held : Option Job
  posted : Bool
  issued : Bool
  attempts : Nat

def State.view (s : State) (id : UUID) : View where
  row := find s.jobs id
  held := s.phase.held.find? fun j => j.id = id
  posted := s.phase.posted = some id
  issued := s.issued.contains id
  attempts := s.attempted.count id

inductive JobStep (now : Int) : View → View → Bool → Prop where
  | still (v : View) : JobStep now v v false
  | enqueued (r : EventJob) (n : Nat) (hstate : r.state = .pending) (hattempts : r.attempts = 0) :
    JobStep now ⟨none, none, false, false, n⟩ ⟨some r, none, false, true, n⟩ false
  | claimed (r : EventJob) (i : Bool) (n : Nat) (hstate : r.state = .pending) :
    JobStep now ⟨some r, none, false, i, n⟩
      ⟨some { r with state := .running }, some r.toJob, false, i, n⟩ false
  | claimedUnseen (r : EventJob) (i : Bool) (n : Nat) (hstate : r.state = .pending) :
    JobStep now ⟨some r, none, false, i, n⟩
      ⟨some { r with state := .running }, none, false, i, n⟩ true
  | posted (r : EventJob) (j : Job) (i : Bool) (n : Nat) :
    JobStep now ⟨some r, some j, false, i, n⟩ ⟨some r, some j, true, i, n + 1⟩ false
  | marked (r : EventJob) (j : Job) (i : Bool) (n : Nat) (sendErr : Option String) :
    JobStep now ⟨some r, some j, true, i, n⟩
      ⟨some (marked now (j.attempts + 1) sendErr r), none, false, i, n⟩ false
  | dropped (r : EventJob) (j : Job) (p i : Bool) (n : Nat) :
    JobStep now ⟨some r, some j, p, i, n⟩ ⟨some r, none, false, i, n⟩ true
  | pruned (r : EventJob) (i : Bool) (n : Nat) (hfinished : r.finished) :
    JobStep now ⟨some r, none, false, i, n⟩ ⟨none, none, false, i, n⟩ false

/-- A job the worker holds has a running row; a pending one has attempts left, as many as were
not begun; and one that was never enqueued has no row. -/
structure View.Ok (v : View) : Prop where
  held : ∀ j, v.held = some j → ∃ r, v.row = some r ∧ r.state = .running ∧
    r.attempts = j.attempts ∧ j.attempts < maxAttempts ∧
      v.attempts ≤ j.attempts + (if v.posted then 1 else 0)
  pending : ∀ r, v.row = some r → r.state = .pending →
    r.attempts < maxAttempts ∧ v.attempts ≤ r.attempts
  posted : v.held = none → v.posted = false
  unissued : v.issued = false → v.row = none ∧ v.held = none ∧ v.attempts = 0
  bounded : v.attempts ≤ maxAttempts

theorem marked_pending {now : Int} {attempt : Nat} {sendErr : Option String} {r : EventJob}
    (h : (marked now attempt sendErr r).state = .pending) :
    (marked now attempt sendErr r).attempts = attempt ∧ attempt < maxAttempts := by
  unfold marked at h ⊢
  cases sendErr with
  | none => nomatch h
  | some msg =>
    by_cases hlast : maxAttempts ≤ attempt
    · simp [hlast] at h
    · simp only [if_neg hlast, true_and]
      omega

theorem JobStep.ok {now : Int} {v v' : View} {lost : Bool} (h : JobStep now v v' lost)
    (hv : v.Ok) : v'.Ok := by
  obtain ⟨hheld, hpending, hposted, hunissued, hbounded⟩ := hv
  cases h with
  | still => exact ⟨hheld, hpending, hposted, hunissued, hbounded⟩
  | enqueued r n hstate hattempts =>
    have hn : n = 0 := (hunissued rfl).2.2
    refine ⟨by simp, fun r' hr' _ => ?_, fun _ => rfl, by simp, hbounded⟩
    cases hr'
    subst hn
    simp [hattempts, maxAttempts]
  | claimed r i n hstate =>
    obtain ⟨hleft, hbegun⟩ := hpending r rfl hstate
    refine ⟨fun j hj => ?_, by simp, by simp, fun hi => ?_, hbounded⟩
    · cases hj
      exact ⟨_, rfl, rfl, rfl, hleft, hbegun⟩
    · nomatch (hunissued hi).1
  | claimedUnseen r i n hstate =>
    exact ⟨by simp, by simp, fun _ => rfl, fun hi => (nomatch (hunissued hi).1), hbounded⟩
  | posted r j i n =>
    obtain ⟨r', hr', hstate, hsame, hleft, hbegun⟩ := hheld j rfl
    cases hr'
    have hbegun : n ≤ j.attempts := by simpa using hbegun
    refine ⟨fun j' hj' => ?_, fun r' hr' hp => ?_, by simp, fun hi => ?_, ?_⟩
    · cases hj'
      exact ⟨r, rfl, hstate, hsame, hleft, by simpa using hbegun⟩
    · cases hr'
      nomatch hstate.symm.trans hp
    · nomatch (hunissued hi).1
    · simp only
      omega
  | marked r j i n sendErr =>
    obtain ⟨r', hr', hstate, hsame, hleft, hbegun⟩ := hheld j rfl
    have hbegun : n ≤ j.attempts + 1 := by simpa using hbegun
    refine ⟨by simp, fun r' hr' hp => ?_, fun _ => rfl, fun hi => ?_, hbounded⟩
    · cases hr'
      obtain ⟨hattempts, hmore⟩ := marked_pending hp
      rw [hattempts]
      exact ⟨hmore, hbegun⟩
    · nomatch (hunissued hi).1
  | dropped r j p i n =>
    obtain ⟨r', hr', hstate, -⟩ := hheld j rfl
    cases hr'
    refine ⟨by simp, fun r' hr' hp => ?_, fun _ => rfl, fun hi => ?_, hbounded⟩
    · cases hr'
      nomatch hstate.symm.trans hp
    · nomatch (hunissued hi).1
  | pruned r i n hfinished =>
    exact ⟨by simp, by simp, fun _ => rfl, fun hi => (nomatch (hunissued hi).1), hbounded⟩

/-- A state's jobs, seen one at a time. -/
structure State.Sound (s : State) : Prop where
  keyed : Keyed s.jobs
  once : (s.phase.held.map Job.id).Nodup
  ok : ∀ id, (s.view id).Ok

theorem State.sound_init (now : Int) : (State.init now).Sound where
  keyed := List.nodup_nil
  once := List.nodup_nil
  ok id := by
    refine ⟨?_, ?_, ?_, ?_, ?_⟩ <;> simp [view, init, Phase.held, posted, find]

theorem find?_id_eq_some {jobs : List Job} {id : UUID} {j : Job}
    (h : jobs.find? (fun j => j.id = id) = some j) : j ∈ jobs ∧ j.id = id :=
  ⟨List.mem_of_find?_eq_some h, by simpa using List.find?_some h⟩

theorem find?_id_eq_none {jobs : List Job} {id : UUID} (h : id ∉ jobs.map Job.id) :
    jobs.find? (fun j => j.id = id) = none := by
  rw [List.find?_eq_none]
  intro j hj heq
  exact h (List.mem_map.2 ⟨j, hj, of_decide_eq_true heq⟩)

section Steps

variable {s : State} {retention : Int}

theorem running_of_find (h : Keyed s.jobs) {id : UUID} {r : EventJob}
    (hr : find s.jobs id = some r) :
    (r ∈ dueJobs s.now claimLimit s.jobs ∧ r.state = .pending ∧
      running ((dueJobs s.now claimLimit s.jobs).map fun j => j.id) r =
        { r with state := .running } ∧
      ((claimDue s.now claimLimit s.jobs).1.find? fun j => j.id = id) = some r.toJob) ∨
    (r ∉ dueJobs s.now claimLimit s.jobs ∧
      running ((dueJobs s.now claimLimit s.jobs).map fun j => j.id) r = r ∧
      ((claimDue s.now claimLimit s.jobs).1.find? fun j => j.id = id) = none ∧
      id ∉ (claimDue s.now claimLimit s.jobs).1.map Job.id) := by
  obtain ⟨hmem, hid⟩ := (find_eq_some h).1 hr
  have hids : ((claimDue s.now claimLimit s.jobs).1.map Job.id) =
      (dueJobs s.now claimLimit s.jobs).map fun j => j.id := by
    simp [claimDue]
  have hiff : id ∈ (dueJobs s.now claimLimit s.jobs).map (fun j => j.id) ↔
      r ∈ dueJobs s.now claimLimit s.jobs := by
    constructor
    · intro hin
      obtain ⟨r', hr', hid'⟩ := List.mem_map.1 hin
      have hsame : r' = r :=
        eq_of_key_eq h (mem_dueJobs hr').1 hmem (hid'.trans hid.symm)
      exact hsame ▸ hr'
    · exact fun hin => List.mem_map.2 ⟨r, hin, hid⟩
  by_cases hdue : r ∈ dueJobs s.now claimLimit s.jobs
  · refine .inl ⟨hdue, (mem_dueJobs hdue).2.1, ?_, ?_⟩
    · rw [running, if_pos (by rw [hid]; simpa using hiff.2 hdue)]
    · have hnodup : (((claimDue s.now claimLimit s.jobs).1).map Job.id).Nodup :=
        hids ▸ nodup_dueJobs h
      exact (find?_key_eq_some hnodup).2 ⟨List.mem_map_of_mem hdue, hid⟩
  have hnot : id ∉ (dueJobs s.now claimLimit s.jobs).map fun j => j.id :=
    fun hin => hdue (hiff.1 hin)
  refine .inr ⟨hdue, ?_, find?_id_eq_none (hids ▸ hnot), hids ▸ hnot⟩
  rw [running, if_neg (by rw [hid]; simpa using hnot)]

theorem claimDue_of_find_eq_none {id : UUID} (hr : find s.jobs id = none) :
    ((claimDue s.now claimLimit s.jobs).1.find? fun j => j.id = id) = none ∧
      id ∉ (claimDue s.now claimLimit s.jobs).1.map Job.id := by
  have hnot : id ∉ (claimDue s.now claimLimit s.jobs).1.map Job.id := by
    intro hin
    obtain ⟨j, hj, hid⟩ := List.mem_map.1 hin
    obtain ⟨r, hdue, rfl⟩ := List.mem_map.1 hj
    exact find_eq_none.1 hr r (mem_dueJobs hdue).1 hid
  exact ⟨find?_id_eq_none hnot, hnot⟩

theorem view_of_idle (h : s.phase = .idle) (id : UUID) :
    s.view id = ⟨find s.jobs id, none, false, s.issued.contains id, s.attempted.count id⟩ := by
  simp [State.view, h, Phase.held, posted]

theorem JobStep.of_eq {now : Int} {v v' : View} {lost : Bool} (h : v' = v) (hlost : lost = false) :
    JobStep now v v' lost := by
  subst h hlost
  exact .still v'

theorem enqueue_view (hs : s.Sound) {new : Job} (hnew : new.id ∉ s.issued) (id : UUID) :
    JobStep s.now (s.view id)
      (State.view { s with jobs := enqueue s.now new s.jobs, issued := new.id :: s.issued } id)
      false := by
  by_cases hid : new.id = id
  · obtain ⟨hrow, hheld, -⟩ := (hs.ok id).unissued (by simpa [State.view, ← hid] using hnew)
    have hposted := (hs.ok id).posted hheld
    have hissued : (s.view id).issued = false := by simpa [State.view, ← hid] using hnew
    have hbefore : s.view id = ⟨(s.view id).row, (s.view id).held, (s.view id).posted,
      (s.view id).issued, s.attempted.count id⟩ := rfl
    rw [hrow, hheld, hposted, hissued] at hbefore
    rw [hbefore]
    simp only [State.view] at hrow hheld hposted ⊢
    rw [find_enqueue, hrow, hheld, hposted]
    simp only [hid, if_true, Option.none_or, List.contains_cons, BEq.rfl, Bool.true_or]
    exact .enqueued _ _ rfl rfl
  · refine .of_eq ?_ rfl
    simp [State.view, find_enqueue, hid, Ne.symm hid]

theorem claim_view (hs : s.Sound) (hphase : s.phase = .idle) (id : UUID) :
    JobStep s.now (s.view id)
        (State.view { s with
          jobs := (claimDue s.now claimLimit s.jobs).2
          phase := .sweeping (claimDue s.now claimLimit s.jobs).1 } id) false ∧
      JobStep s.now (s.view id)
        (State.view { s with jobs := (claimDue s.now claimLimit s.jobs).2 } id)
        (decide (id ∈ (claimDue s.now claimLimit s.jobs).1.map Job.id)) := by
  simp only [view_of_idle hphase]
  simp only [State.view, Phase.held, posted, find_claimDue, hphase, List.find?_nil,
    reduceCtorEq, decide_false]
  cases hr : find s.jobs id with
  | none =>
    obtain ⟨hheld, hnot⟩ := claimDue_of_find_eq_none hr
    rw [hheld, decide_eq_false hnot]
    exact ⟨.still _, .still _⟩
  | some r =>
    rw [Option.map_some]
    rcases running_of_find hs.keyed hr with ⟨-, hpending, hrunning, hheld⟩ | ⟨-, hsame, hheld, hnot⟩
    · have hmem : id ∈ (claimDue s.now claimLimit s.jobs).1.map Job.id := by
        obtain ⟨hin, hid⟩ := find?_id_eq_some hheld
        exact List.mem_map.2 ⟨_, hin, hid⟩
      rw [hrunning, hheld, decide_eq_true hmem]
      exact ⟨.claimed r _ _ hpending, .claimedUnseen r _ _ hpending⟩
    · rw [hsame, hheld, decide_eq_false hnot]
      exact ⟨.still _, .still _⟩

variable {s' : State} {jobs : List Job} {job : Job} {a : Action}

theorem post_view (hs : s.Sound) (hphase : s.phase = .sweeping (job :: jobs)) (id : UUID) :
    JobStep s.now (s.view id)
      (State.view { s with
        phase := .posting job jobs
        attempted := job.id :: s.attempted } id) false := by
  by_cases hid : job.id = id
  · have hheld : (s.view id).held = some job := by simp [State.view, hphase, Phase.held, hid]
    obtain ⟨r, hr, -⟩ := (hs.ok id).held job hheld
    have hbefore : s.view id =
        ⟨some r, some job, false, s.issued.contains id, s.attempted.count id⟩ := by
      rw [← hr, ← hheld]
      simp [State.view, hphase, posted]
    have hrow : find s.jobs id = some r := hr
    rw [hbefore]
    simp only [State.view, Phase.held, posted, hrow, hid, List.find?_cons, decide_true,
      List.count_cons, BEq.rfl, if_true]
    exact .posted r job _ _
  · refine .of_eq ?_ rfl
    simp [State.view, hphase, Phase.held, posted, hid]

theorem view_of_posting (hs : s.Sound) (hphase : s.phase = .posting job jobs) :
    (∃ r, find s.jobs job.id = some r ∧ s.view job.id =
      ⟨some r, some job, true, s.issued.contains job.id, s.attempted.count job.id⟩) ∧
    jobs.find? (fun j => j.id = job.id) = none := by
  have hheld : (s.view job.id).held = some job := by simp [State.view, hphase, Phase.held]
  obtain ⟨r, hr, -⟩ := (hs.ok job.id).held job hheld
  refine ⟨⟨r, hr, ?_⟩, find?_id_eq_none ?_⟩
  · rw [← hr, ← hheld]
    simp [State.view, hphase, posted]
  · have honce := hs.once
    rw [hphase, Phase.held, List.map_cons, List.nodup_cons] at honce
    exact honce.1

theorem settle_view (hs : s.Sound) (hphase : s.phase = .posting job jobs) (sendErr : Option String)
    (id : UUID) :
    JobStep s.now (s.view id)
        (State.view { s with
          jobs := markResult s.now job.id (job.attempts + 1) sendErr s.jobs
          phase := .sweeping jobs } id) false ∧
      JobStep s.now (s.view id) (State.view { s with phase := .sweeping jobs } id)
        (decide (id ∈ s.phase.posted.toList)) := by
  by_cases hid : job.id = id
  · subst hid
    obtain ⟨⟨r, hrow, hview⟩, hnone⟩ := view_of_posting hs hphase
    have hlost : job.id ∈ s.phase.posted.toList := by simp [hphase, posted]
    rw [hview, decide_eq_true hlost]
    simp only [State.view, find_markResult, hrow, Phase.held, posted, hnone, Option.map_some,
      id_of_find hrow, if_true, reduceCtorEq, decide_false]
    exact ⟨.marked r job _ _ sendErr, .dropped r job true _ _⟩
  · have hlost : id ∉ s.phase.posted.toList := by simp [hphase, posted, Ne.symm hid]
    rw [decide_eq_false hlost]
    have hrow : (find s.jobs id).map (fun j =>
        if j.id = job.id then marked s.now (job.attempts + 1) sendErr j else j) =
          find s.jobs id := by
      cases hr : find s.jobs id with
      | none => rfl
      | some r => rw [Option.map_some, if_neg (id_of_find hr ▸ Ne.symm hid)]
    refine ⟨.of_eq ?_ rfl, .of_eq ?_ rfl⟩ <;>
      simp [State.view, hphase, find_markResult, hrow, Phase.held, posted, hid]

theorem prune_view (hs : s.Sound) (hphase : s.phase = .sweeping []) (at' : Option Int) (id : UUID) :
    JobStep s.now (s.view id)
      (State.view { s with
        jobs := pruneFinished s.now (retentionOf retention) s.jobs
        lastPrune := at'
        phase := .idle } id) false := by
  simp only [State.view, hphase, Phase.held, posted, find_pruneFinished hs.keyed,
    List.find?_nil, reduceCtorEq, decide_false]
  cases hr : find s.jobs id with
  | none => exact .still _
  | some r =>
    rw [Option.filter_some]
    split
    · exact .still _
    next hgone =>
      refine .pruned r _ _ ?_
      simp only [Bool.not_eq_true', Bool.not_eq_false] at hgone
      exact (Bool.and_eq_true _ _ ▸ hgone).1

theorem die_view (hs : s.Sound) (id : UUID) :
    JobStep s.now (s.view id) (State.view { s with phase := .idle, lastPrune := none } id)
      (decide (id ∈ s.phase.held.map Job.id)) := by
  cases hheld : s.phase.held.find? fun j => j.id = id with
  | none =>
    have hnot : id ∉ s.phase.held.map Job.id := by
      intro hin
      obtain ⟨j, hj, hid⟩ := List.mem_map.1 hin
      simpa [hid] using List.find?_eq_none.1 hheld j hj
    have hposted : (s.view id).posted = false := (hs.ok id).posted hheld
    refine .of_eq ?_ (decide_eq_false hnot)
    simp only [State.view] at hposted ⊢
    rw [hheld, hposted]
    simp [Phase.held, posted]
  | some j =>
    obtain ⟨hmem, hid⟩ := find?_id_eq_some hheld
    obtain ⟨r, hr, -⟩ := (hs.ok id).held j hheld
    have hrow : find s.jobs id = some r := hr
    have hbefore : s.view id = ⟨some r, some j, (s.view id).posted, s.issued.contains id,
        s.attempted.count id⟩ := by
      rw [← hr, ← hheld]
      rfl
    rw [hbefore, decide_eq_true (List.mem_map.2 ⟨j, hmem, hid⟩)]
    simp only [State.view, hrow, Phase.held, posted, List.find?_nil, reduceCtorEq,
      decide_false]
    exact .dropped r j _ _ _

theorem step_view (hs : s.Sound) (h : step retention s a = some s') (id : UUID) :
    JobStep s.now (s.view id) (s'.view id) (decide (id ∈ s.loses a)) := by
  have hnone : decide (id ∈ ([] : List UUID)) = false := by simp
  cases a with
  | enqueue new =>
    simp only [step] at h
    split at h
    · cases h
    next hnew =>
      cases h
      exact hnone ▸ enqueue_view hs hnew id
  | wait seconds =>
    cases h
    exact .of_eq rfl hnone
  | claim fault =>
    simp only [step] at h
    split at h
    next hphase =>
      cases h
      exact hnone ▸ (claim_view hs hphase id).1
    next hphase =>
      cases h
      exact .of_eq rfl hnone
    next hphase =>
      cases h
      exact (claim_view hs hphase id).2
    · cases h
  | post =>
    simp only [step] at h
    split at h
    next job jobs hphase =>
      cases h
      exact hnone ▸ post_view hs hphase id
    · cases h
  | settle sendErr fault =>
    simp only [step] at h
    split at h
    next job jobs hphase =>
      cases h
      cases fault
      · exact hnone ▸ (settle_view hs hphase sendErr id).1
      · exact (settle_view hs hphase sendErr id).2
      · exact hnone ▸ (settle_view hs hphase sendErr id).1
    · cases h
  | finish fault =>
    have hidle (at' : Option Int) (hphase : s.phase = .sweeping []) :
        State.view { s with lastPrune := at', phase := .idle } id = s.view id := by
      simp [State.view, hphase, Phase.held, posted]
    simp only [step] at h
    split at h
    next hphase =>
      split at h
      · cases h
        cases fault
        · exact hnone ▸ prune_view hs hphase _ id
        · exact .of_eq (hidle _ hphase) hnone
        · exact hnone ▸ prune_view hs hphase _ id
      · cases h
        exact .of_eq (hidle _ hphase) hnone
    · cases h
  | die =>
    cases h
    exact die_view hs id

theorem step_sound (hs : s.Sound) (h : step retention s a = some s') : s'.Sound := by
  have hok : ∀ id, (s'.view id).Ok := fun id => (step_view hs h id).ok (hs.ok id)
  cases a with
  | enqueue new =>
    simp only [step] at h
    split at h
    · cases h
    next hnew =>
      cases h
      refine ⟨keyed_enqueue hs.keyed s.now fun j hj hid => ?_, hs.once, hok⟩
      have hrow := ((hs.ok new.id).unissued (by simpa [State.view] using hnew)).1
      exact find_eq_none.1 hrow j hj hid
  | wait seconds =>
    cases h
    exact ⟨hs.keyed, hs.once, hok⟩
  | claim fault =>
    have hkeyed := keyed_claimDue hs.keyed s.now claimLimit
    simp only [step] at h
    split at h
    · cases h
      refine ⟨hkeyed, ?_, hok⟩
      simp only [Phase.held, claimDue, List.map_map]
      exact nodup_dueJobs hs.keyed
    · cases h
      exact hs
    · cases h
      exact ⟨hkeyed, hs.once, hok⟩
    · cases h
  | post =>
    simp only [step] at h
    split at h
    next job jobs hphase =>
      cases h
      exact ⟨hs.keyed, by simpa [hphase, Phase.held] using hs.once, hok⟩
    · cases h
  | settle sendErr fault =>
    simp only [step] at h
    split at h
    next job jobs hphase =>
      cases h
      have honce := hs.once
      rw [hphase, Phase.held, List.map_cons, List.nodup_cons] at honce
      refine ⟨?_, honce.2, hok⟩
      split
      · exact hs.keyed
      · exact keyed_markResult hs.keyed _ _ _ _
    · cases h
  | finish fault =>
    simp only [step] at h
    split at h
    next hphase =>
      split at h
      · cases h
        refine ⟨?_, List.nodup_nil, hok⟩
        split
        · exact hs.keyed
        · exact keyed_pruneFinished hs.keyed _ _
      · cases h
        exact ⟨hs.keyed, List.nodup_nil, hok⟩
    · cases h
  | die =>
    cases h
    exact ⟨hs.keyed, List.nodup_nil, hok⟩

theorem step_now (h : step retention s a = some s') : s.now ≤ s'.now := by
  cases a with
  | wait seconds =>
    cases h
    exact Int.le_add_of_nonneg_right (Int.natCast_nonneg seconds)
  | _ =>
    simp only [step] at h
    repeat' split at h
    all_goals cases h
    all_goals exact Int.le_refl _

end Steps

end Sluicio.Eventsubs
