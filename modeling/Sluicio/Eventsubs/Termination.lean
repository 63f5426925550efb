import Mathlib.Tactic.Positivity
import Sluicio.Eventsubs.Worker
import Sluicio.Lib.Eventually

/-!
# Event jobs come to an end

In a run in which time goes on and the worker keeps ticking, a job is claimed once it has its
turn, its attempt is marked, and after five attempts at the most it is done or failed; then it
grows old and is pruned.  It is so for every job but those that are lost: a job that is running
and that no worker holds stays so.
-/

namespace Sluicio.Eventsubs

open Lib

/-- An infinite run in which the worker keeps ticking: time goes on without bound, and again and
again a claim is carried out, and a prune is due and carried out. -/
structure WorkerRun (retention : Int) where
  state : Nat → State
  action : Nat → Action
  start : Int
  init : state 0 = .init start
  steps : ∀ n, step retention (state n) (action n) = some (state (n + 1))
  clock : ∀ t : Int, ∃ n, t < (state n).now
  claims : Recurs fun n => action n = .claim .none
  prunes : Recurs fun n => action n = .finish .none ∧ (state n).pruneDue

/-! ## What a step leaves of a job -/

namespace JobStep

variable {now : Int} {v v' : View} {lost : Bool} {row : EventJob}

theorem issued (h : JobStep now v v' lost) (hv : v.issued) : v'.issued := by
  cases h with
  | enqueued => rfl
  | _ => exact hv

theorem pending (h : JobStep now v v' false) (hok : v.Ok) (hrow : v.row = some row)
    (hpending : row.state = .pending) :
    (∃ j, v'.held = some j ∧ j.attempts = row.attempts) ∨ v'.row = some row := by
  have hnot : ∀ j, v.held ≠ some j := by
    intro j hj
    obtain ⟨r, hr, hrunning, -⟩ := hok.held j hj
    cases hrow.symm.trans hr
    nomatch hpending.symm.trans hrunning
  cases h with
  | still => exact .inr hrow
  | enqueued => nomatch hrow
  | claimed r i n _ =>
    cases hrow
    exact .inl ⟨_, rfl, rfl⟩
  | posted r j i n => exact absurd rfl (hnot j)
  | marked r j i n e => exact absurd rfl (hnot j)
  | pruned r i n hfinished =>
    cases hrow
    simp [EventJob.finished, hpending] at hfinished

/-- A job the worker holds that is not lost is marked: as finished, or as pending with one
attempt more. -/
theorem held (h : JobStep now v v' false) {j : Job} (hj : v.held = some j) :
    (∃ r, v'.row = some r ∧
      (r.finished ∨ r.state = .pending ∧ r.attempts = j.attempts + 1)) ∨
    v'.held = some j := by
  cases h with
  | still => exact .inr hj
  | enqueued => nomatch hj
  | claimed => nomatch hj
  | posted r j' i n => exact .inr hj
  | marked r j' i n e =>
    cases hj
    refine .inl ⟨_, rfl, ?_⟩
    by_cases hpending : (Eventsubs.marked now (j.attempts + 1) e r).state = .pending
    · exact .inr ⟨hpending, (marked_pending hpending).1⟩
    left
    unfold Eventsubs.marked at hpending ⊢
    cases e with
    | none => rfl
    | some msg =>
      by_cases hlast : maxAttempts ≤ j.attempts + 1
      · simp [hlast, EventJob.finished]
      · simp [hlast] at hpending
  | pruned => nomatch hj

theorem finished (h : JobStep now v v' lost) (hok : v.Ok) (hrow : v.row = some row)
    (hfinished : row.finished) : v'.row = none ∨ v'.row = some row := by
  have hstate : row.state ≠ .pending ∧ row.state ≠ .running := by
    cases hstate : row.state <;> simp [EventJob.finished, hstate] at hfinished ⊢
  have hnot : ∀ j, v.held ≠ some j := by
    intro j hj
    obtain ⟨r, hr, hrunning, -⟩ := hok.held j hj
    cases hrow.symm.trans hr
    exact hstate.2 hrunning
  cases h with
  | still => exact .inr hrow
  | enqueued => nomatch hrow
  | claimed r i n hpending =>
    cases hrow
    exact absurd hpending hstate.1
  | claimedUnseen r i n hpending =>
    cases hrow
    exact absurd hpending hstate.1
  | posted r j i n => exact absurd rfl (hnot j)
  | marked r j i n e => exact absurd rfl (hnot j)
  | dropped r j p i n => exact absurd rfl (hnot j)
  | pruned => exact .inl rfl

theorem gone (h : JobStep now v v' lost) (hissued : v.issued) (hrow : v.row = none) :
    v'.row = none := by
  cases h with
  | still => exact hrow
  | enqueued => nomatch hissued
  | pruned => rfl
  | _ => nomatch hrow

theorem stuck (h : JobStep now v v' lost) (hheld : v.held = none) (hrow : v.row = some row)
    (hrunning : row.state = .running) : v'.held = none ∧ v'.row = some row := by
  cases h with
  | still => exact ⟨hheld, hrow⟩
  | enqueued => nomatch hrow
  | claimed r i n hpending =>
    cases hrow
    nomatch hrunning.symm.trans hpending
  | claimedUnseen r i n hpending =>
    cases hrow
    nomatch hrunning.symm.trans hpending
  | posted => nomatch hheld
  | marked => nomatch hheld
  | dropped => nomatch hheld
  | pruned r i n hfinished =>
    cases hrow
    simp [EventJob.finished, hrunning] at hfinished

theorem of_lost (h : JobStep now v v' true) (hok : v.Ok) :
    (∃ r, v.row = some r ∧ r.finished = false) ∧
      v'.held = none ∧ ∃ r, v'.row = some r ∧ r.state = .running := by
  cases h with
  | claimedUnseen r i n hpending =>
    exact ⟨⟨r, rfl, by simp [EventJob.finished, hpending]⟩, rfl, _, rfl, rfl⟩
  | dropped r j p i n =>
    obtain ⟨r', hr', hrunning, -⟩ := hok.held j rfl
    cases hr'
    exact ⟨⟨r, rfl, by simp [EventJob.finished, hrunning]⟩, rfl, r, rfl, hrunning⟩

end JobStep

/-! ## The queue before a job -/

/-- The pending jobs whose turn comes at `t` or before. -/
def behind (t : Int) (jobs : List EventJob) : Nat :=
  jobs.countP fun j => j.state = .pending && j.nextAttemptAt ≤ t

theorem running_behind {t : Int} {ids : List UUID} {j : EventJob}
    (h : ((running ids j).state = .pending && (running ids j).nextAttemptAt ≤ t)) :
    (j.state = .pending && j.nextAttemptAt ≤ t) := by
  unfold running at h
  split at h
  · simp at h
  · exact h

section Queue

variable {s s' : State} {retention t : Int} {a : Action}

/-- Once `t` is past, no job gets its turn at `t` or before. -/
theorem step_behind (h : step retention s a = some s') (ht : t < s.now) :
    behind t s'.jobs ≤ behind t s.jobs := by
  have hclaim : behind t (claimDue s.now claimLimit s.jobs).2 ≤ behind t s.jobs :=
    countP_map_le fun j _ hj => running_behind hj
  cases a with
  | enqueue new =>
    simp only [step] at h
    split at h
    · cases h
    · cases h
      simp [behind, enqueue, ht]
  | wait seconds =>
    cases h
    exact Nat.le_refl _
  | claim fault =>
    simp only [step] at h
    split at h
    · cases h
      exact hclaim
    · cases h
      exact Nat.le_refl _
    · cases h
      exact hclaim
    · cases h
  | post =>
    simp only [step] at h
    split at h
    · cases h
      exact Nat.le_refl _
    · cases h
  | settle sendErr fault =>
    simp only [step] at h
    split at h
    next job jobs hphase =>
      cases h
      split
      · exact Nat.le_refl _
      refine countP_map_le fun j _ hj => ?_
      by_cases hid : j.id = job.id
      · -- A job marked pending has its turn later than now.
        simp only [hid, decide_true, if_true] at hj
        obtain ⟨hpending, hturn⟩ := Bool.and_eq_true_iff.1 hj
        have hbackoff : 0 ≤ backoff (job.attempts + 1) := by
          unfold backoff
          positivity
        unfold marked at hpending hturn
        cases sendErr with
        | none => simp at hpending
        | some msg =>
          by_cases hlast : maxAttempts ≤ job.attempts + 1
          · simp [hlast] at hpending
          · simp only [if_neg hlast, decide_eq_true_eq] at hturn
            omega
      · simpa [hid] using hj
    · cases h
  | finish fault =>
    simp only [step] at h
    split at h
    · split at h
      · cases h
        split
        · exact Nat.le_refl _
        · exact List.Sublist.countP_le List.filter_sublist
      · cases h
        exact Nat.le_refl _
    · cases h
  | die =>
    cases h
    exact Nat.le_refl _

theorem claim_cases (h : step retention s (.claim .none) = some s') :
    s.phase = .idle ∧ s' = { s with
      jobs := (claimDue s.now claimLimit s.jobs).2
      phase := .sweeping (claimDue s.now claimLimit s.jobs).1 } := by
  cases hphase : s.phase with
  | idle =>
    simp only [step, hphase, Option.some.injEq] at h
    exact ⟨rfl, h.symm⟩
  | _ => simp [step, hphase] at h

theorem finish_cases (h : step retention s (.finish .none) = some s') (hdue : s.pruneDue) :
    s'.jobs = pruneFinished s.now (retentionOf retention) s.jobs := by
  simp only [step, hdue, if_true, reduceCtorEq, if_false] at h
  split at h
  · cases h
    rfl
  · cases h

theorem claim_behind (h : step retention s (.claim .none) = some s') {row : EventJob}
    (hmem : row ∈ s.jobs) (hpending : row.state = .pending) (hdue : row.nextAttemptAt ≤ s.now)
    (hnot : row ∉ dueJobs s.now claimLimit s.jobs) :
    behind row.nextAttemptAt s'.jobs < behind row.nextAttemptAt s.jobs := by
  obtain ⟨first, hfirst, hle⟩ := exists_due_before (by decide) hmem hpending hdue hnot
  obtain ⟨hin, hfirstPending, -⟩ := mem_dueJobs hfirst
  rw [(claim_cases h).2]
  refine countP_map_lt (fun j _ hj => running_behind hj) hin (by simp [hfirstPending, hle]) ?_
  have hid : ((dueJobs s.now claimLimit s.jobs).map fun j => j.id).contains first.id := by
    simpa using ⟨first, hfirst, rfl⟩
  rw [running, if_pos hid]
  simp

end Queue

/-! ## One job over a run -/

namespace WorkerRun

variable {retention : Int} (r : WorkerRun retention)

theorem sound (n : Nat) : (r.state n).Sound := by
  induction n with
  | zero => exact r.init ▸ State.sound_init r.start
  | succ n ih => exact step_sound ih (r.steps n)

variable {m n : Nat} {row : EventJob}

theorem now_mono (h : n ≤ m) : (r.state n).now ≤ (r.state m).now := by
  induction h with
  | refl => exact Int.le_refl _
  | step _ ih => exact Int.le_trans ih (step_now (r.steps _))

/-- The job is lost at no step. -/
def NeverLost (id : UUID) : Prop := ∀ n, id ∉ (r.state n).loses (r.action n)

theorem jobStep (n : Nat) (id : UUID) :
    JobStep (r.state n).now ((r.state n).view id) ((r.state (n + 1)).view id)
      (decide (id ∈ (r.state n).loses (r.action n))) :=
  step_view (r.sound n) (r.steps n) id

/-- What lasts until `Q` lasts past any time, or `Q` comes. -/
theorem leadsTo_later {P Q : Nat → Prop} (hkeep : ∀ n, P n → Q (n + 1) ∨ P (n + 1)) (t : Int) :
    LeadsTo P fun n => Q n ∨ P n ∧ t < (r.state n).now := by
  intro n hn
  obtain ⟨k, hk⟩ := r.clock t
  have hnow : t < (r.state (max n k)).now := Int.lt_of_lt_of_le hk (r.now_mono (by omega))
  have hμ : ∀ n, P n → Q (n + 1) ∨ P (n + 1) ∧ 0 ≤ 0 := fun n hn =>
    (hkeep n hn).imp_right fun h => ⟨h, Nat.le_refl 0⟩
  rcases holds_until (μ := fun _ => 0) hμ hn (Nat.le_max_left n k) with ⟨m, hnm, hq⟩ | ⟨hp, -⟩
  · exact ⟨m, hnm, .inl hq⟩
  · exact ⟨max n k, by omega, .inr ⟨hp, hnow⟩⟩

variable {r} {id : UUID}

theorem NeverLost.jobStep (h : r.NeverLost id) (n : Nat) :
    JobStep (r.state n).now ((r.state n).view id) ((r.state (n + 1)).view id) false := by
  rw [← decide_eq_false (h n)]
  exact r.jobStep n id

theorem claimed_of_pending (h : r.NeverLost id) (hpending : row.state = .pending) :
    LeadsTo (fun n => find (r.state n).jobs id = some row)
      fun n => ∃ j, ((r.state n).view id).held = some j ∧ j.attempts = row.attempts := by
  have hkeep : ∀ n, find (r.state n).jobs id = some row →
      (∃ j, ((r.state (n + 1)).view id).held = some j ∧ j.attempts = row.attempts) ∨
        find (r.state (n + 1)).jobs id = some row := fun n hrow =>
    (h.jobStep n).pending ((r.sound n).ok id) hrow hpending
  refine (r.leadsTo_later hkeep row.nextAttemptAt).trans_or ?_
  refine leadsTo_of_measure (fun n => behind row.nextAttemptAt (r.state n).jobs) ?_ r.claims ?_
  · rintro n ⟨hrow, hturn⟩
    have hlater := Int.lt_of_lt_of_le hturn (step_now (r.steps n))
    exact (hkeep n hrow).imp_right fun hrow' =>
      ⟨⟨hrow', hlater⟩, step_behind (r.steps n) hturn⟩
  · rintro n ⟨hrow, hturn⟩ hclaim
    have hlater := Int.lt_of_lt_of_le hturn (step_now (r.steps n))
    have hstep := hclaim ▸ r.steps n
    refine (hkeep n hrow).imp_right fun hrow' => ⟨⟨hrow', hlater⟩, ?_⟩
    refine claim_behind hstep (mem_of_find hrow) hpending (Int.le_of_lt hturn) fun hdue => ?_
    -- A row the claim takes is running.
    rw [(claim_cases hstep).2, find_claimDue, hrow, Option.map_some] at hrow'
    have hin : ((dueJobs (r.state n).now claimLimit (r.state n).jobs).map fun j => j.id).contains
        row.id := by simpa using ⟨row, hdue, rfl⟩
    rw [running, if_pos hin] at hrow'
    have hrunning := congrArg (Option.map EventJob.state) hrow'
    simp [hpending] at hrunning

theorem marked_of_held (h : r.NeverLost id) (attempts : Nat) :
    LeadsTo (fun n => ∃ j, ((r.state n).view id).held = some j ∧ j.attempts = attempts)
      fun n => ∃ row, find (r.state n).jobs id = some row ∧
        (row.finished ∨ row.state = .pending ∧ row.attempts = attempts + 1) := by
  refine leadsTo_of_keeps ?_ r.claims ?_
  · rintro n ⟨j, hj, rfl⟩
    exact ((h.jobStep n).held hj).imp_right fun hj' => ⟨j, hj', rfl⟩
  · rintro n ⟨j, hj, -⟩ hclaim
    have hidle := (claim_cases (hclaim ▸ r.steps n)).1
    rw [view_of_idle hidle] at hj
    nomatch hj

theorem finished_of_pending (h : r.NeverLost id) :
    LeadsTo (fun n => ∃ row, find (r.state n).jobs id = some row ∧ row.state = .pending)
      fun n => ∃ row, find (r.state n).jobs id = some row ∧ row.finished := by
  rintro n ⟨row, hrow, hpending⟩
  generalize hleft : maxAttempts - row.attempts = left
  induction left generalizing n row with
  | zero =>
    have := (((r.sound n).ok id).pending row hrow hpending).1
    omega
  | succ left ih =>
    obtain ⟨m, hnm, row', hrow', hmarked⟩ :=
      ((claimed_of_pending h hpending).trans (marked_of_held h row.attempts)) n hrow
    rcases hmarked with hfinished | ⟨hpending', hattempts⟩
    · exact ⟨m, hnm, row', hrow', hfinished⟩
    · obtain ⟨k, hmk, hk⟩ := ih m row' hrow' hpending' (by omega)
      exact ⟨k, Nat.le_trans hnm hmk, hk⟩

theorem removed_of_finished (hfinished : row.finished) :
    LeadsTo (fun n => find (r.state n).jobs id = some row)
      fun n => find (r.state n).jobs id = none := by
  have hkeep : ∀ n, find (r.state n).jobs id = some row →
      find (r.state (n + 1)).jobs id = none ∨ find (r.state (n + 1)).jobs id = some row :=
    fun n hrow => (r.jobStep n id).finished ((r.sound n).ok id) hrow hfinished
  refine (r.leadsTo_later hkeep (row.occurredAt + retentionOf retention)).trans_or ?_
  refine leadsTo_of_keeps ?_ r.prunes ?_
  · rintro n ⟨hrow, hold⟩
    exact (hkeep n hrow).imp_right fun hrow' =>
      ⟨hrow', Int.lt_of_lt_of_le hold (step_now (r.steps n))⟩
  · rintro n ⟨hrow, hold⟩ ⟨hfinish, hdue⟩
    rw [finish_cases (hfinish ▸ r.steps n) hdue, find_pruneFinished (r.sound n).keyed, hrow]
    simpa [hfinished] using hold

theorem pending_of_enqueue {j : Job} (h : r.action n = .enqueue j) :
    ∃ row, find (r.state (n + 1)).jobs j.id = some row ∧ row.state = .pending := by
  have hstep := h ▸ r.steps n
  simp only [step] at hstep
  split at hstep
  · cases hstep
  next hnew =>
    have hrow := (((r.sound n).ok j.id).unissued (by simpa [State.view] using hnew)).1
    have hrow : find (r.state n).jobs j.id = none := hrow
    rw [← Option.some.inj hstep, find_enqueue, hrow]
    exact ⟨_, by rw [if_pos rfl, Option.none_or], rfl⟩

theorem running_of_lost (hlost : id ∈ (r.state m).loses (r.action m)) {k : Nat} (hk : m < k) :
    ∃ row, find (r.state k).jobs id = some row ∧ row.state = .running := by
  have hstep := r.jobStep m id
  rw [decide_eq_true hlost] at hstep
  obtain ⟨-, hheld, row, hrow, hrunning⟩ := hstep.of_lost ((r.sound m).ok id)
  have hfrom : ((r.state k).view id).held = none ∧ ((r.state k).view id).row = some row :=
    holds_from (P := fun n => ((r.state n).view id).held = none ∧
        ((r.state n).view id).row = some row)
      (fun n hn => (r.jobStep n id).stuck hn.1 hn.2 hrunning) ⟨hheld, hrow⟩ hk
  exact ⟨row, hfrom.2, hrunning⟩

theorem finished_from {k : Nat} (hrow : find (r.state m).jobs id = some row)
    (hfinished : row.finished) (hk : m ≤ k) :
    find (r.state k).jobs id = none ∨ find (r.state k).jobs id = some row := by
  have hissued : ((r.state m).view id).issued := by
    by_contra hnot
    have := (((r.sound m).ok id).unissued (Bool.eq_false_iff.2 hnot)).1
    nomatch this.symm.trans hrow
  have hfrom := holds_from (P := fun n => ((r.state n).view id).issued ∧
      (find (r.state n).jobs id = none ∨ find (r.state n).jobs id = some row))
    (fun n hn => ⟨(r.jobStep n id).issued hn.1, hn.2.elim
      (fun hnone => .inl ((r.jobStep n id).gone hn.1 hnone))
      fun hsome => (r.jobStep n id).finished ((r.sound n).ok id) hsome hfinished⟩)
    ⟨hissued, .inr hrow⟩ hk
  exact hfrom.2

/-- The job, enqueued at step `n`, comes to an end: it is attempted five times at the most, is
done or failed, and is then removed. -/
structure Ends (r : WorkerRun retention) (n : Nat) (id : UUID) : Prop where
  attempts : ∀ m, (r.state m).attempted.count id ≤ maxAttempts
  finishes : ∃ m, n ≤ m ∧
    (∃ row, find (r.state m).jobs id = some row ∧ row.finished) ∧
      ∃ k, m ≤ k ∧ find (r.state k).jobs id = none

theorem attempts_le (m : Nat) (id : UUID) : (r.state m).attempted.count id ≤ maxAttempts :=
  ((r.sound m).ok id).bounded

theorem not_lost_of_ends (h : r.Ends n id) : r.NeverLost id := by
  obtain ⟨m, -, ⟨row, hrow, hfinished⟩, -⟩ := h.finishes
  intro l hlost
  by_cases hlm : l < m
  · obtain ⟨row', hrow', hrunning⟩ := running_of_lost hlost hlm
    cases hrow.symm.trans hrow'
    simp [EventJob.finished, hrunning] at hfinished
  have hstep := r.jobStep l id
  rw [decide_eq_true hlost] at hstep
  obtain ⟨⟨row', hrow', hnot⟩, -⟩ := hstep.of_lost ((r.sound l).ok id)
  have hrow' : find (r.state l).jobs id = some row' := hrow'
  rcases finished_from hrow hfinished (Nat.not_lt.1 hlm) with hgone | hsame
  · nomatch hgone.symm.trans hrow'
  · cases hsame.symm.trans hrow'
    nomatch hfinished.symm.trans hnot

/-- While the worker keeps ticking, a job comes to an end exactly when no step loses it: no mark
of it fails, the worker does not die while it holds it, and no claim that takes it is carried
out and reported as failed. -/
theorem ends_iff {n : Nat} {j : Job} (h : r.action n = .enqueue j) :
    r.Ends n j.id ↔ r.NeverLost j.id := by
  refine ⟨not_lost_of_ends, fun hnever => ⟨fun m => attempts_le m j.id, ?_⟩⟩
  obtain ⟨m, hnm, row, hrow, hfinished⟩ :=
    finished_of_pending hnever (n + 1) (pending_of_enqueue h)
  obtain ⟨k, hmk, hgone⟩ := removed_of_finished hfinished m hrow
  exact ⟨m, by omega, ⟨row, hrow, hfinished⟩, k, hmk, hgone⟩

end WorkerRun

private def order : Job := ⟨1, 7, "evt-1", "com.sluicio.alert.fired", "billing", 0, "{}", 0⟩

private def orderRow : EventJob :=
  { order with state := .running, nextAttemptAt := 0, lastError := [] }

private def left (now lastPrune : Int) (phase : Phase) : State :=
  ⟨[orderRow], now, phase, some lastPrune, [1], [1]⟩

private def lostAction : Nat → Action
  | 0 => .enqueue order
  | 1 => .claim .none
  | 2 => .post
  | 3 => .settle none .failed
  | 4 => .finish .none
  | n + 5 =>
    match n % 3 with
    | 0 => .wait 7200
    | 1 => .claim .none
    | _ => .finish .none

private def lostState : Nat → State
  | 0 => .init 0
  | 1 => ⟨[{ orderRow with state := .pending }], 0, .idle, none, [1], []⟩
  | 2 => ⟨[orderRow], 0, .sweeping [order], none, [1], []⟩
  | 3 => ⟨[orderRow], 0, .posting order [], none, [1], [1]⟩
  | 4 => ⟨[orderRow], 0, .sweeping [], none, [1], [1]⟩
  | n + 5 =>
    match n % 3 with
    | 0 => left (7200 * (n / 3 : Nat)) (7200 * (n / 3 : Nat)) .idle
    | 1 => left (7200 * (n / 3 : Nat) + 7200) (7200 * (n / 3 : Nat)) .idle
    | _ => left (7200 * (n / 3 : Nat) + 7200) (7200 * (n / 3 : Nat)) (.sweeping [])

private theorem left_wait (k : Int) :
    step 0 (left (7200 * k) (7200 * k) .idle) (.wait 7200) =
      some (left (7200 * k + 7200) (7200 * k) .idle) := rfl

private theorem left_claim (k : Int) :
    step 0 (left (7200 * k + 7200) (7200 * k) .idle) (.claim .none) =
      some (left (7200 * k + 7200) (7200 * k) (.sweeping [])) := rfl

private theorem left_pruneDue (k : Int) (phase : Phase) :
    (left (7200 * k + 7200) (7200 * k) phase).pruneDue := by
  have hhour : (3600 : Int) < 7200 * k + 7200 - 7200 * k := by omega
  exact decide_eq_true hhour

private theorem left_finish (k : Int) :
    step 0 (left (7200 * k + 7200) (7200 * k) (.sweeping [])) (.finish .none) =
      some (left (7200 * (k + 1)) (7200 * (k + 1)) .idle) := by
  have hnow : (7200 * (k + 1) : Int) = 7200 * k + 7200 := by omega
  have hdue := left_pruneDue k (.sweeping [])
  simp only [left] at hdue
  simp only [hnow, step, left, hdue, if_true]
  rfl

private def lostRun : WorkerRun 0 where
  state := lostState
  action := lostAction
  start := 0
  init := rfl
  steps := by
    intro n
    match n with
    | 0 | 1 | 2 | 3 | 4 => decide +kernel
    | n + 5 =>
      have hmod : n % 3 = 0 ∨ n % 3 = 1 ∨ n % 3 = 2 := by omega
      rcases hmod with h | h | h
      · have hnext : (n + 1) % 3 = 1 ∧ (n + 1) / 3 = n / 3 := by omega
        simp only [lostState, lostAction, h, hnext.1, hnext.2]
        exact left_wait _
      · have hnext : (n + 1) % 3 = 2 ∧ (n + 1) / 3 = n / 3 := by omega
        simp only [lostState, lostAction, h, hnext.1, hnext.2]
        exact left_claim _
      · have hnext : (n + 1) % 3 = 0 ∧ (n + 1) / 3 = n / 3 + 1 := by omega
        simp only [lostState, lostAction, h, hnext.1, hnext.2]
        exact left_finish _
  clock := by
    intro t
    refine ⟨3 * (t.toNat + 1) + 5, ?_⟩
    have h : 3 * (t.toNat + 1) % 3 = 0 ∧ 3 * (t.toNat + 1) / 3 = t.toNat + 1 := by omega
    simp only [lostState, h.1, h.2, left]
    omega
  claims := by
    intro n
    refine ⟨3 * n + 1 + 5, by omega, ?_⟩
    have h : (3 * n + 1) % 3 = 1 := by omega
    simp only [lostAction, h]
  prunes := by
    intro n
    refine ⟨3 * n + 2 + 5, by omega, ?_⟩
    have h : (3 * n + 2) % 3 = 2 := by omega
    simp only [lostAction, lostState, h]
    exact ⟨trivial, left_pruneDue _ _⟩

theorem not_ends_lostRun : ¬ lostRun.Ends 0 order.id := by
  rw [WorkerRun.ends_iff rfl]
  exact fun hnever => hnever 3 (by decide)

/-- A job whose delivery succeeds and whose mark fails is running ever after. -/
theorem unmarked_job_stays :
    ¬ ∀ (retention : Int) (r : WorkerRun retention) (n : Nat) (j : Job),
      r.action n = .enqueue j → r.Ends n j.id := by
  intro h
  have hnever := WorkerRun.not_lost_of_ends (h 0 lostRun 0 order rfl)
  exact hnever 3 (by decide)

end Sluicio.Eventsubs
