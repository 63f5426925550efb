import Mathlib.Data.Int.ConditionallyCompleteOrder
import Sluicio.Alerting.Delivery
import Mathlib.Tactic.IntervalCases
import Mathlib.Tactic.Ring

/-!
# Deliveries and the window of a job

A job's window is read in one place, where a failed delivery is rescheduled.  A
rescheduled job is due within its window, and at least `retryDelay` after the
attempt that failed, which bounds how often it is claimed.  A claim, a sweep and
the wait inside a batch read no window, so that no delivery starts late is a
condition on time: no window closes on a job that is waiting.
-/

namespace Sluicio.Alerting

open Lib Outbox

/-- The first wait of a retry plan, thirty seconds. -/
def retryDelay : Nat := 30000000000

/-- `time.Duration(1<<attempts) * 30 * time.Second`: the shift and each product wrap. -/
def retryWait (attempts : Nat) : Duration :=
  wrap64 (wrap64 (wrap64 (2 ^ attempts) * 30) * second)

theorem retryWait_eq (attempts : Nat) :
    retryWait attempts = wrap64 (2 ^ attempts * (30 * second)) := by
  unfold retryWait wrap64
  rw [Int.bmod_mul_bmod, mul_assoc, Int.bmod_mul_bmod]

theorem retryPlan_wait (attempts : Nat) (expiresAt now : Time) :
    (retryPlan attempts expiresAt now maxBackoff).1 =
      if maxBackoff < retryWait attempts ∨ retryWait attempts ≤ 0 then maxBackoff
      else retryWait attempts := by
  rw [retryWait_eq]
  by_cases h0 : expiresAt = 0 <;> simp only [retryPlan, h0, if_true, if_false]

variable {a : DeliveryAction} {s : Outbox} {attempts : Nat} {j : NotificationJob}

/-- From the thirtieth doubling on the wait is a multiple of `2 ^ 40`, and so is what is left
of it. -/
theorem two_pow_dvd_retryWait (h : 30 ≤ attempts) : (2 ^ 40 : Int) ∣ retryWait attempts := by
  obtain ⟨k, rfl⟩ : ∃ k, attempts = 30 + k := ⟨attempts - 30, by omega⟩
  rw [retryWait_eq, wrap64, Int.bmod_eq_self_sub_mul_bdiv]
  refine Int.dvd_sub ?_ (Dvd.dvd.mul_right (by decide) _)
  rw [pow_add, show (30 * second : Int) = 2 ^ 10 * 29296875 by decide]
  exact ⟨2 ^ k * 29296875, by ring⟩

/-- Five doublings pass the longest wait, and what wraps after that never comes back below
it. -/
theorem retryWait_capped (h : 5 ≤ attempts) :
    maxBackoff < retryWait attempts ∨ retryWait attempts ≤ 0 := by
  by_cases hsmall : attempts < 30
  · interval_cases attempts <;> decide
  by_cases hpos : retryWait attempts ≤ 0
  · exact .inr hpos
  left
  have hle := Int.le_of_dvd (Int.not_le.1 hpos) (two_pow_dvd_retryWait (Nat.not_lt.1 hsmall))
  have hmax : (maxBackoff : Int) < 2 ^ 40 := by decide +kernel
  exact hmax.trans_le hle

theorem retryPlan_backoff (attempts : Nat) (expiresAt now : Time) :
    (retryPlan attempts expiresAt now maxBackoff).1 =
      min (30 * second * 2 ^ attempts) maxBackoff := by
  rw [retryPlan_wait]
  by_cases hsmall : attempts < 5
  · interval_cases attempts <;> decide
  have hfive : 5 ≤ attempts := Nat.not_lt.1 hsmall
  have hpow : (2 ^ 5 : Int) ≤ 2 ^ attempts := pow_le_pow_right₀ (by decide) hfive
  have hmax : maxBackoff ≤ 30 * second * 2 ^ 5 := by decide
  rw [if_pos (retryWait_capped hfive), min_eq_right]
  exact hmax.trans (Int.mul_le_mul_of_nonneg_left hpow (by decide))

/-- **The wait of a retry.** It doubles from thirty seconds up to the longest one, so it is
positive and never shrinks, whatever the shift wraps to. -/
theorem retryPlan_doubles (attempts : Nat) (expiresAt now : Time) :
    (retryPlan attempts expiresAt now maxBackoff).1 = min (30 * second * 2 ^ attempts) maxBackoff ∧
      0 < (retryPlan attempts expiresAt now maxBackoff).1 ∧
      Monotone fun n => (retryPlan n expiresAt now maxBackoff).1 := by
  have hmono {n m : Nat} (h : n ≤ m) : 30 * second * 2 ^ n ≤ 30 * second * 2 ^ m :=
    Int.mul_le_mul_of_nonneg_left (pow_le_pow_right₀ (by decide) h) (by decide)
  refine ⟨retryPlan_backoff attempts expiresAt now, ?_, ?_⟩
  · rw [retryPlan_backoff]
    have hfirst : 0 < 30 * second * 2 ^ 0 := by decide
    exact lt_min (hfirst.trans_le (hmono (Nat.zero_le attempts))) (by decide)
  · intro n m hnm
    simp only [retryPlan_backoff]
    exact min_le_min_right maxBackoff (hmono hnm)

theorem retryDelay_le_backoff (attempts : Nat) (expiresAt now : Time) :
    (retryDelay : Int) ≤ (retryPlan attempts expiresAt now maxBackoff).1 := by
  rw [retryPlan_backoff]
  have hone : (1 : Int) ≤ 2 ^ attempts := one_le_pow₀ (by decide)
  have hfirst : (retryDelay : Int) = 30 * second * 1 := by decide
  refine le_min ?_ (by decide +kernel)
  rw [hfirst]
  exact Int.mul_le_mul_of_nonneg_left hone (by decide)

theorem retryPlan_within {expiresAt now : Time} (h0 : 0 < expiresAt)
    (h : (retryPlan attempts expiresAt now maxBackoff).2 = false) :
    now + (retryPlan attempts expiresAt now maxBackoff).1 ≤ (expiresAt : Int) := by
  unfold retryPlan at h ⊢
  dsimp only at h ⊢
  rw [if_neg (Nat.ne_of_gt h0)] at h ⊢
  simpa using h

/-! ## What one step does to a row -/

/-- The action claims job `id`. -/
def Outbox.claims (s : Outbox) (id : UUID) : DeliveryAction → Bool
  | .claim w picked => s.Claims w picked && id ∈ picked && (s.job? id).isSome
  | _ => false

/-- The action records the outcome of a delivery of job `id`. -/
def Outbox.Records (s : Outbox) (id : UUID) : DeliveryAction → Prop
  | .finish w _ true => s.Delivering w id
  | _ => False

/-- The columns no delivery writes. -/
def SameJob (j j' : NotificationJob) : Prop :=
  j'.id = j.id ∧ j'.createdAt = j.createdAt ∧ j'.expiresAt = j.expiresAt

def JobState.Terminal : JobState → Prop
  | .succeeded | .failed | .dropped => True
  | .pending | .running => False

inductive RowStep (s : Outbox) (a : DeliveryAction) (j : NotificationJob) :
    NotificationJob → Prop
  | kept : s.claims j.id a = false → ¬ s.Records j.id a → RowStep s a j j
  | claimed : s.claims j.id a → j.state = .pending → j.nextAttemptAt ≤ s.now →
      RowStep s a j { j with state := .running, updatedAt := s.now }
  | closed {j'} : s.claims j.id a = false → SameJob j j' → j'.state.Terminal →
      RowStep s a j j'
  | retried {j'} : s.claims j.id a = false → SameJob j j' → j'.state = .pending →
      s.now + retryDelay ≤ j'.nextAttemptAt → j'.nextAttemptAt ≤ j.expiresAt →
      RowStep s a j j'
  | reclaimed : a = .reclaim → s.stuck j →
      RowStep s a j { j with state := .pending, attempts := j.attempts + 1,
                             nextAttemptAt := s.now, updatedAt := s.now }

variable {j' : NotificationJob}

theorem RowStep.sameJob (h : RowStep s a j j') : SameJob j j' := by
  cases h with
  | kept _ _ => exact ⟨rfl, rfl, rfl⟩
  | claimed _ _ _ => exact ⟨rfl, rfl, rfl⟩
  | closed _ hsame _ => exact hsame
  | retried _ hsame _ _ _ => exact hsame
  | reclaimed _ _ => exact ⟨rfl, rfl, rfl⟩

/-- Every held job has its row, with the window the claim read, and every window
is a real one. -/
structure Outbox.Tracked (s : Outbox) : Prop where
  keyed : s.Keyed
  held : ∀ w, ∀ d ∈ (s.workers w).held, ∃ j ∈ s.jobs, j.id = d.jobID ∧ j.expiresAt = d.expiresAt
  windowed : ∀ j ∈ s.jobs, 0 < j.expiresAt

theorem Outbox.tracked_init (now : Time) : Outbox.Tracked { now := now } where
  keyed := keyed_init now
  held := by simp [Worker.held]
  windowed := by simp

section Rows

variable {s : Outbox}

theorem Outbox.Tracked.setWorker (h : s.Tracked) {w : Nat} {x : Worker}
    (hsub : x.held ⊆ (s.workers w).held) : (s.setWorker w x).Tracked where
  keyed := h.keyed.setWorker w x
  held := by
    intro w' d hd
    by_cases hw : w' = w
    · subst hw
      rw [s.setWorker_self] at hd
      exact h.held w' d (hsub hd)
    · rw [s.setWorker_of_ne x hw] at hd
      exact h.held w' d hd
  windowed := h.windowed

theorem Outbox.Tracked.updateJobs (h : s.Tracked) {p : NotificationJob → Bool}
    {f : NotificationJob → NotificationJob} (hf : ∀ j, SameJob j (f j)) :
    (s.updateJobs p f).Tracked where
  keyed := h.keyed.updateJobs fun j => (hf j).1
  held := by
    intro w d hd
    obtain ⟨j, hj, hid, hexp⟩ := h.held w d hd
    cases hpj : p j
    · exact ⟨j, mem_updateWhere_of_not hj hpj, hid, hexp⟩
    · exact ⟨f j, mem_updateWhere_of hj hpj, (hf j).1.trans hid, (hf j).2.2.trans hexp⟩
  windowed := by
    intro j hj
    obtain ⟨j₀, hj₀, ⟨_, rfl⟩ | ⟨_, rfl⟩⟩ := mem_updateWhere.1 hj
    · rw [(hf j₀).2.2]
      exact h.windowed j₀ hj₀
    · exact h.windowed j hj₀

theorem Outbox.Tracked.enqueueJobs (h : s.Tracked) (instanceID : UUID)
    (channelIDs : List UUID) (window : Duration) :
    (s.enqueueJobs instanceID channelIDs window).Tracked where
  keyed := h.keyed.enqueueJobs instanceID channelIDs window
  held := by
    intro w d hd
    obtain ⟨j, hj, hrow⟩ := h.held w d hd
    exact ⟨j, List.mem_append_left _ hj, hrow⟩
  windowed := by
    intro j hj
    rcases List.mem_append.1 hj with hj | hj
    · exact h.windowed j hj
    · have hnew := (mem_newJobs hj).2.2.2.2.2.2.2.2.2
      exact Nat.lt_of_le_of_lt (Nat.zero_le _) hnew

theorem Outbox.Tracked.claimDueJobs (h : s.Tracked) (w : Nat) (picked : List UUID) :
    (s.claimDueJobs w picked).Tracked := by
  have hrows : (s.updateJobs (fun j => j.id ∈ picked) fun j =>
      { j with state := .running, updatedAt := s.now }).Tracked :=
    h.updateJobs fun _ => ⟨rfl, rfl, rfl⟩
  refine ⟨hrows.keyed.setWorker w _, ?_, hrows.windowed⟩
  intro w' d hd
  by_cases hw : w' = w
  · subst hw
    obtain ⟨j, hj, rfl⟩ : ∃ j ∈ picked.filterMap s.job?, s.deliveryJob j = d := by
      simpa [Outbox.claimDueJobs, Worker.held] using hd
    obtain ⟨id, hmem, hsome⟩ := List.mem_filterMap.1 hj
    obtain ⟨hrow, rfl⟩ := h.keyed.job?_eq_some.1 hsome
    exact ⟨_, mem_updateWhere_of hrow (by simpa using hmem), rfl, rfl⟩
  · rw [Outbox.claimDueJobs, Outbox.setWorker_of_ne _ _ hw] at hd
    exact hrows.held w' d hd

theorem Outbox.Tracked.takeNext (h : s.Tracked) (w : Nat) (recorded : Bool) :
    (s.takeNext w recorded).Tracked := by
  rcases s.takeNext_cases w recorded with heq | ⟨job, rest, hcur, hbatch, hcase⟩
  · rwa [heq]
  rcases hcase with ⟨_, heq⟩ | ⟨_, heq⟩
  · rw [heq]
    have hlet : (s.setWorker w { s.workers w with batch := rest }).Tracked :=
      h.setWorker (by simp [Worker.held, hcur, hbatch])
    cases recorded
    · exact hlet
    · exact hlet.updateJobs fun _ => ⟨rfl, rfl, rfl⟩
  · rw [heq]
    exact h.setWorker (by simp [Worker.held, hcur, hbatch])

theorem Outbox.Tracked.finish (h : s.Tracked) (w : Nat) (delivered recorded : Bool) :
    (s.finish w delivered recorded).Tracked := by
  rcases s.finish_cases w delivered recorded with heq | ⟨job, t, hcur, heq⟩
  · rwa [heq]
  rw [heq]
  have hlet : (s.setWorker w { s.workers w with current := none }).Tracked :=
    h.setWorker (by simp [Worker.held])
  cases recorded
  · exact hlet
  · obtain ⟨f, hrec, hf⟩ := s.recordOutcome_eq job delivered
    simp only [if_true, hrec]
    exact hlet.updateJobs fun j => ⟨(hf j).1, (hf j).2.1, (hf j).2.2.1⟩

theorem Outbox.Tracked.step (h : s.Tracked) (a : DeliveryAction) : (s.step a).Tracked := by
  cases a with
  | enqueue instanceID channelIDs window => exact h.enqueueJobs instanceID channelIDs window
  | resolve instanceID => exact ⟨⟨h.keyed.ids, h.keyed.fresh⟩, h.held, h.windowed⟩
  | advance d => exact ⟨⟨h.keyed.ids, h.keyed.fresh⟩, h.held, h.windowed⟩
  | claim w picked =>
    by_cases hc : s.Claims w picked
    · simpa only [Outbox.step, if_pos hc] using h.claimDueJobs w picked
    · simpa only [Outbox.step, if_neg hc] using h
  | takeNext w recorded => exact h.takeNext w recorded
  | finish w delivered recorded => exact h.finish w delivered recorded
  | reclaim => exact h.updateJobs fun _ => ⟨rfl, rfl, rfl⟩
  | die w => exact h.setWorker (by simp [Worker.held])

theorem Outbox.Tracked.expiresAt_of_held (h : s.Tracked) {w : Nat} {d : DeliveryJob}
    (hd : d ∈ (s.workers w).held) {j : NotificationJob} (hj : j ∈ s.jobs)
    (hid : j.id = d.jobID) : j.expiresAt = d.expiresAt := by
  obtain ⟨j', hj', hid', hexp⟩ := h.held w d hd
  rwa [eq_of_key_eq h.keyed.ids hj hj' (hid.trans hid'.symm)]

/-- A row that was just queued. -/
def Outbox.Queues (s : Outbox) (j : NotificationJob) : Prop :=
  s.nextID ≤ j.id ∧ j.state = .pending ∧ j.createdAt = s.now ∧
    j.nextAttemptAt = s.now ∧ s.now < j.expiresAt

theorem Outbox.Tracked.rowStep_finish (h : s.Tracked) {w : Nat} {delivered recorded : Bool}
    {j' : NotificationJob} (hj' : j' ∈ (s.finish w delivered recorded).jobs) :
    ∃ j ∈ s.jobs, RowStep s (.finish w delivered recorded) j j' := by
  rcases s.finish_cases w delivered recorded with heq | ⟨job, t, hcur, heq⟩
  · refine ⟨j', by rwa [heq] at hj', .kept rfl fun hrec => ?_⟩
    cases recorded
    · exact hrec
    · -- nothing is in delivery, or the row would have been written
      obtain ⟨c, hcur, _⟩ := Option.map_eq_some_iff.1 hrec
      have hnone := congrArg (fun s => (Outbox.workers s w).current) heq
      simp [Outbox.finish, hcur] at hnone
  · rw [heq] at hj'
    cases recorded
    · exact ⟨j', hj', .kept rfl id⟩
    · obtain ⟨f, hrec, hf⟩ := s.recordOutcome_eq job delivered
      simp only [if_true, hrec] at hj'
      obtain ⟨j, hj, ⟨hid, rfl⟩ | ⟨hid, rfl⟩⟩ := mem_updateWhere.1 hj'
      · have hsame : SameJob j (f j) := ⟨(hf j).1, (hf j).2.1, (hf j).2.2.1⟩
        have hexp : j.expiresAt = job.expiresAt :=
          h.expiresAt_of_held (w := w) (by simp [Worker.held, hcur]) hj (by simpa using hid)
        refine ⟨j, hj, ?_⟩
        rcases (hf j).2.2.2 with hs | hs | ⟨hs, hplan, hnext⟩
        · exact .closed rfl hsame (by rw [hs]; trivial)
        · exact .closed rfl hsame (by rw [hs]; trivial)
        · have hdelay := retryDelay_le_backoff job.attempts job.expiresAt s.now
          have hwithin := retryPlan_within (hexp ▸ h.windowed j hj) hplan
          refine .retried rfl hsame hs ?_ ?_
          · have hnow := Int.natCast_nonneg s.now
            rw [hnext, Int.le_toNat (by omega)]
            push_cast
            omega
          · rw [hnext, Int.toNat_le, hexp]
            exact hwithin
      · refine ⟨j', hj, .kept rfl fun hrec => ?_⟩
        have : job.jobID = j'.id := by
          simpa [Outbox.Records, Outbox.Delivering, hcur] using hrec
        simp [this] at hid

/-- **Inversion.**  Every row after a step is a row before it that one of the
store's calls may have written, or one that was just queued. -/
theorem Outbox.Tracked.rowStep (h : s.Tracked) {a : DeliveryAction} {j' : NotificationJob}
    (hj' : j' ∈ (s.step a).jobs) : (∃ j ∈ s.jobs, RowStep s a j j') ∨ s.Queues j' := by
  cases a with
  | enqueue instanceID channelIDs window =>
    rcases List.mem_append.1 hj' with hj | hj
    · exact .inl ⟨j', hj, .kept rfl id⟩
    · obtain ⟨hid, _, _, _, _, hst, hnext, hcreated, _, hexp⟩ := mem_newJobs hj
      exact .inr ⟨hid, hst, hcreated, hnext, hexp⟩
  | resolve instanceID => exact .inl ⟨j', hj', .kept rfl id⟩
  | advance d => exact .inl ⟨j', hj', .kept rfl id⟩
  | claim w picked =>
    left
    by_cases hc : s.Claims w picked
    · simp only [Outbox.step, if_pos hc] at hj'
      obtain ⟨j, hj, ⟨hid, rfl⟩ | ⟨hid, rfl⟩⟩ := mem_updateWhere.1 hj'
      · have hmem : j.id ∈ picked := by simpa using hid
        have hrow : s.job? j.id = some j := h.keyed.job?_eq_some.2 ⟨hj, rfl⟩
        have hdue := hc.2.2.2.1 j (List.mem_filterMap.2 ⟨j.id, hmem, hrow⟩)
        refine ⟨j, hj, .claimed ?_ hdue.1 hdue.2⟩
        simp [claims, hc, hmem, hrow]
      · refine ⟨j', hj, .kept ?_ id⟩
        have hmem : j'.id ∉ picked := by simpa using hid
        simp [claims, hmem]
    · simp only [Outbox.step, if_neg hc] at hj'
      exact ⟨j', hj', .kept (by simp [claims, hc]) id⟩
  | takeNext w recorded =>
    left
    rcases s.takeNext_cases w recorded with heq | ⟨job, rest, hcur, hbatch, hcase⟩
    · exact ⟨j', by rwa [Outbox.step, heq] at hj', .kept rfl id⟩
    rcases hcase with ⟨_, heq⟩ | ⟨_, heq⟩
    · rw [Outbox.step, heq] at hj'
      cases recorded
      · exact ⟨j', hj', .kept rfl id⟩
      · obtain ⟨j, hj, ⟨hid, rfl⟩ | ⟨hid, rfl⟩⟩ := mem_updateWhere.1 hj'
        · exact ⟨j, hj, .closed rfl ⟨rfl, rfl, rfl⟩ trivial⟩
        · exact ⟨j', hj, .kept rfl id⟩
    · rw [Outbox.step, heq] at hj'
      exact ⟨j', hj', .kept rfl id⟩
  | finish w delivered recorded => exact .inl (h.rowStep_finish hj')
  | reclaim =>
    left
    obtain ⟨j, hj, ⟨hstuck, rfl⟩ | ⟨hstuck, rfl⟩⟩ := mem_updateWhere.1 hj'
    · exact ⟨j, hj, .reclaimed rfl hstuck⟩
    · exact ⟨j', hj, .kept rfl id⟩
  | die w => exact .inl ⟨j', hj', .kept rfl id⟩

end Rows

/-! ## Waiting jobs -/

/-- Some worker has the job in its batch and has not reached it. -/
def Outbox.Queued (s : Outbox) (id : UUID) : Prop :=
  ∃ w, ∃ d ∈ (s.workers w).batch, d.jobID = id

/-- A job waits while it is pending, while its worker has not reached it, and
while it is running and nobody delivers it. -/
def Outbox.Waiting (s : Outbox) (j : NotificationJob) : Prop :=
  j.state = .pending ∨ s.Queued j.id ∨ (j.state = .running ∧ ∀ w, ¬ s.Delivering w j.id)

/-- No window closes on a waiting job, nor before a delivery that is interrupted:
its worker dies, its outcome is lost, or a sweep takes it. -/
def KeepsWindow (s : Outbox) : DeliveryAction → Prop
  | .advance d => ∀ j ∈ s.jobs, s.Waiting j → s.now + d ≤ j.expiresAt
  | .finish w _ false => ∀ j ∈ s.jobs, s.Delivering w j.id → s.now ≤ j.expiresAt
  | .die w => ∀ j ∈ s.jobs, s.Delivering w j.id → s.now ≤ j.expiresAt
  | .reclaim => ∀ j ∈ s.jobs, s.stuck j → s.now ≤ j.expiresAt
  | _ => True

/-- No waiting job has expired. -/
structure Outbox.InWindow (s : Outbox) : Prop where
  tracked : s.Tracked
  waiting : ∀ j ∈ s.jobs, s.Waiting j → s.now ≤ j.expiresAt

section Waiting

variable {s : Outbox}

theorem Outbox.now_takeNext (s : Outbox) (w : Nat) (recorded : Bool) :
    (s.takeNext w recorded).now = s.now := by
  rcases s.takeNext_cases w recorded with heq | ⟨job, rest, _, _, ⟨_, heq⟩ | ⟨_, heq⟩⟩
  · rw [heq]
  · rw [heq]
    cases recorded <;> rfl
  · rw [heq]
    rfl

theorem Outbox.now_finish (s : Outbox) (w : Nat) (delivered recorded : Bool) :
    (s.finish w delivered recorded).now = s.now := by
  rcases s.finish_cases w delivered recorded with heq | ⟨job, t, _, heq⟩
  · rw [heq]
  rw [heq]
  cases recorded
  · rfl
  · obtain ⟨f, hrec, _⟩ := s.recordOutcome_eq job delivered
    simp only [if_true, hrec]
    rfl

variable {a : DeliveryAction}

/-- Only `advance` moves the clock. -/
theorem Outbox.now_step (ha : ∀ d, a ≠ .advance d) : (s.step a).now = s.now := by
  cases a with
  | advance d => exact absurd rfl (ha d)
  | claim w picked =>
    unfold Outbox.step
    dsimp only
    split <;> rfl
  | takeNext w recorded => exact s.now_takeNext w recorded
  | finish w delivered recorded => exact s.now_finish w delivered recorded
  | enqueue _ _ _ => rfl
  | resolve _ => rfl
  | reclaim => rfl
  | die _ => rfl

theorem Outbox.now_le_step (s : Outbox) (a : DeliveryAction) : s.now ≤ (s.step a).now := by
  by_cases ha : ∃ d, a = .advance d
  · obtain ⟨d, rfl⟩ := ha
    exact Nat.le_add_right _ d
  · rw [s.now_step fun d hd => ha ⟨d, hd⟩]

theorem Outbox.queued_setWorker {w : Nat} {x : Worker} {id : UUID}
    (hsub : x.batch ⊆ (s.workers w).batch) (h : (s.setWorker w x).Queued id) : s.Queued id := by
  obtain ⟨w', d, hd, hid⟩ := h
  by_cases hw : w' = w
  · subst hw
    rw [s.setWorker_self] at hd
    exact ⟨w', d, hsub hd, hid⟩
  · rw [s.setWorker_of_ne x hw] at hd
    exact ⟨w', d, hd, hid⟩

theorem Outbox.queued_step {id : UUID} (h : (s.step a).Queued id) (hk : s.Keyed) :
    s.Queued id ∨ s.claims id a := by
  cases a with
  | claim w picked =>
    by_cases hc : s.Claims w picked
    · rw [Outbox.step, if_pos hc] at h
      obtain ⟨w', d, hd, rfl⟩ := h
      by_cases hw : w' = w
      · subst hw
        right
        obtain ⟨j, hj, rfl⟩ : ∃ j ∈ picked.filterMap s.job?, s.deliveryJob j = d := by
          simpa [claimDueJobs] using hd
        obtain ⟨id, hmem, hsome⟩ := List.mem_filterMap.1 hj
        obtain ⟨_, rfl⟩ := hk.job?_eq_some.1 hsome
        simp [claims, hc, deliveryJob, hmem, hsome]
      · rw [claimDueJobs, setWorker_of_ne _ _ hw] at hd
        exact .inl ⟨w', d, hd, rfl⟩
    · exact .inl (by rwa [Outbox.step, if_neg hc] at h)
  | takeNext w recorded =>
    left
    rcases s.takeNext_cases w recorded with heq | ⟨job, rest, hcur, hbatch, hcase⟩
    · rwa [Outbox.step, heq] at h
    · rcases hcase with ⟨_, heq⟩ | ⟨_, heq⟩
      · rw [Outbox.step, heq] at h
        cases recorded <;> exact queued_setWorker (by simp [hbatch]) h
      · rw [Outbox.step, heq] at h
        exact queued_setWorker (by simp [hbatch]) h
  | finish w delivered recorded =>
    left
    rcases s.finish_cases w delivered recorded with heq | ⟨job, t, _, heq⟩
    · rwa [Outbox.step, heq] at h
    rw [Outbox.step, heq] at h
    cases recorded
    · exact queued_setWorker (by simp) h
    · obtain ⟨f, hrec, _⟩ := s.recordOutcome_eq job delivered
      simp only [if_true, hrec] at h
      exact queued_setWorker (by simp) h
  | die w => exact .inl (queued_setWorker (by simp) h)
  | enqueue _ _ _ => exact .inl h
  | resolve _ => exact .inl h
  | advance _ => exact .inl h
  | reclaim => exact .inl h

theorem Outbox.delivering_step {w : Nat} {id : UUID} (h : s.Delivering w id) :
    (s.step a).Delivering w id ∨ (∃ delivered recorded, a = .finish w delivered recorded) ∨
      a = .die w := by
  obtain ⟨c, hcur, hid⟩ := Option.map_eq_some_iff.1 h
  have hkeep : ∀ (t : Outbox) (w' : Nat) (x : Worker), t.workers = s.workers →
      w ≠ w' → (t.setWorker w' x).Delivering w id := by
    intro t w' x ht hne
    rw [Outbox.Delivering, t.setWorker_of_ne x hne, ht]
    exact h
  cases a with
  | claim w' picked =>
    left
    by_cases hc : s.Claims w' picked
    · rw [Outbox.step, if_pos hc]
      refine hkeep _ w' _ rfl ?_
      rintro rfl
      simp [Outbox.Claims, Worker.held, hcur] at hc
    · rwa [Outbox.step, if_neg hc]
  | takeNext w' recorded =>
    left
    rcases s.takeNext_cases w' recorded with heq | ⟨job, rest, hidle, _, hcase⟩
    · rwa [Outbox.step, heq]
    have hne : w ≠ w' := by
      rintro rfl
      simp [hcur] at hidle
    rcases hcase with ⟨_, heq⟩ | ⟨_, heq⟩
    · rw [Outbox.step, heq]
      cases recorded <;> exact hkeep _ w' _ rfl hne
    · rw [Outbox.step, heq]
      exact hkeep _ w' _ rfl hne
  | finish w' delivered recorded =>
    by_cases hne : w = w'
    · subst hne
      exact .inr (.inl ⟨delivered, recorded, rfl⟩)
    left
    rcases s.finish_cases w' delivered recorded with heq | ⟨job, t, _, heq⟩
    · rwa [Outbox.step, heq]
    rw [Outbox.step, heq]
    cases recorded
    · exact hkeep _ w' _ rfl hne
    · obtain ⟨f, hrec, _⟩ := s.recordOutcome_eq job delivered
      simp only [if_true, hrec]
      exact hkeep _ w' _ rfl hne
  | die w' =>
    by_cases hne : w = w'
    · exact .inr (.inr (by rw [hne]))
    · exact .inl (hkeep s w' _ rfl hne)
  | enqueue _ _ _ => exact .inl h
  | resolve _ => exact .inl h
  | advance _ => exact .inl h
  | reclaim => exact .inl h

theorem Outbox.InWindow.kept (h : s.InWindow) (ha : KeepsWindow s a) {j : NotificationJob}
    (hj : j ∈ s.jobs) (hclaims : s.claims j.id a = false) (hrec : ¬ s.Records j.id a)
    (hw : (s.step a).Waiting j) : s.now ≤ j.expiresAt := by
  rcases hw with hpending | hqueued | ⟨hrun, hnone⟩
  · exact h.waiting j hj (.inl hpending)
  · rcases queued_step hqueued h.tracked.keyed with hq | hc
    · exact h.waiting j hj (.inr (.inl hq))
    · simp [hc] at hclaims
  · by_cases hdel : ∃ w, s.Delivering w j.id
    · obtain ⟨w, hdel⟩ := hdel
      rcases delivering_step (a := a) hdel with hstill | ⟨delivered, recorded, rfl⟩ | rfl
      · exact absurd hstill (hnone w)
      · cases recorded
        · exact ha j hj hdel
        · exact absurd hdel hrec
      · exact ha j hj hdel
    · exact h.waiting j hj (.inr (.inr ⟨hrun, fun w hw => hdel ⟨w, hw⟩⟩))

/-- **Step lemma.** -/
theorem Outbox.InWindow.step (h : s.InWindow) (ha : KeepsWindow s a) : (s.step a).InWindow := by
  refine ⟨h.tracked.step a, fun j' hj' hw => ?_⟩
  by_cases hadv : ∃ d, a = .advance d
  · obtain ⟨d, rfl⟩ := hadv
    exact ha j' hj' hw
  rw [now_step fun d hd => hadv ⟨d, hd⟩]
  rcases h.tracked.rowStep hj' with ⟨j, hj, hrow⟩ | hnew
  · have hid := hrow.sameJob
    rw [hid.2.2]
    cases hrow with
    | kept hclaims hrec => exact h.kept ha hj hclaims hrec hw
    | claimed _ hpending _ => exact h.waiting j hj (.inl hpending)
    | closed hclaims _ hterm =>
      rcases hw with hpending | hqueued | ⟨hrun, _⟩
      · simp [hpending, JobState.Terminal] at hterm
      · rw [hid.1] at hqueued
        rcases queued_step hqueued h.tracked.keyed with hq | hc
        · exact h.waiting j hj (.inr (.inl hq))
        · simp [hc] at hclaims
      · simp [hrun, JobState.Terminal] at hterm
    | retried _ _ _ hlate hdue => exact (Nat.le_add_right _ _).trans (hlate.trans hdue)
    | reclaimed ha' hstuck =>
      subst ha'
      exact ha j hj hstuck
  · exact Nat.le_of_lt hnew.2.2.2.2

end Waiting

/-! ## Claims are spaced -/

/-- What `n` claims of a job have cost of its window. -/
structure Spaced (now : Time) (n : Nat) (j : NotificationJob) : Prop where
  past : j.createdAt + retryDelay * n ≤ now + retryDelay
  pending : j.state = .pending → j.createdAt + retryDelay * n ≤ j.nextAttemptAt
  running : j.state = .running → j.createdAt + retryDelay * n ≤ j.updatedAt + retryDelay
  window : n ≠ 0 → j.createdAt + retryDelay * n ≤ j.expiresAt + retryDelay

theorem Spaced.later {now now' : Time} {n : Nat} (h : Spaced now n j) (hnow : now ≤ now') :
    Spaced now' n j :=
  { h with past := h.past.trans (Nat.add_le_add_right hnow _) }

theorem Spaced.rowStep {n : Nat} (h : Spaced s.now n j) (hstep : RowStep s a j j')
    (hwindow : j.state = .pending → s.now ≤ j.expiresAt) :
    Spaced s.now (n + if s.claims j.id a then 1 else 0) j' := by
  cases hstep with
  | kept hclaims _ => simpa [hclaims] using h
  | claimed hclaims hpending hdue =>
    have hspent := (h.pending hpending).trans hdue
    have hin := hspent.trans (hwindow hpending)
    simp only [hclaims, if_true]
    refine ⟨?_, by simp, fun _ => ?_, fun _ => ?_⟩ <;> simp only [Nat.mul_succ] <;> grind
  | closed hclaims hsame hterm =>
    obtain ⟨_, hcreated, hexp⟩ := hsame
    simp only [hclaims, Bool.false_eq_true, if_false, Nat.add_zero]
    refine ⟨by rw [hcreated]; exact h.past, fun hp => ?_, fun hr => ?_,
      by rw [hcreated, hexp]; exact h.window⟩
    · simp [hp, JobState.Terminal] at hterm
    · simp [hr, JobState.Terminal] at hterm
  | retried hclaims hsame hp hlate _ =>
    obtain ⟨_, hcreated, hexp⟩ := hsame
    simp only [hclaims, Bool.false_eq_true, if_false, Nat.add_zero]
    refine ⟨by rw [hcreated]; exact h.past, fun _ => ?_, fun hr => ?_,
      by rw [hcreated, hexp]; exact h.window⟩
    · rw [hcreated]
      exact h.past.trans hlate
    · simp [hp] at hr
  | reclaimed ha hstuck =>
    subst ha
    simp only [stuck, Bool.and_eq_true, decide_eq_true_eq] at hstuck
    have hspent := h.running hstuck.1
    have hlong : (retryDelay : Int) ≤ stuckAfter := by decide +kernel
    have hnow : j.createdAt + retryDelay * n ≤ s.now := by grind
    exact ⟨h.past, fun _ => hnow, by simp, h.window⟩

theorem Spaced.queued (h : s.Queues j) : Spaced s.now 0 j := by
  obtain ⟨_, hpending, hcreated, hnext, _⟩ := h
  exact {
    past := by simp [hcreated]
    pending := fun _ => by simp [hcreated, hnext]
    running := fun hr => by simp [hpending] at hr
    window := fun hn => absurd rfl hn }

/-- The claims of job `id` in a run. -/
def claimsOf (s₀ : Outbox) (as : List DeliveryAction) (id : UUID) : Nat :=
  countSteps Outbox.step (fun s a => s.claims id a) s₀ as

theorem claimsOf_concat (s₀ : Outbox) (as : List DeliveryAction) (a : DeliveryAction)
    (id : UUID) : claimsOf s₀ (as ++ [a]) id =
      claimsOf s₀ as id + if (run Outbox.step s₀ as).claims id a then 1 else 0 :=
  countSteps_concat _ _ _ _ _

theorem Outbox.Keyed.claims_unborn (h : s.Keyed) {id : UUID} (hid : s.nextID ≤ id)
    (a : DeliveryAction) : s.claims id a = false := by
  have hnone : s.job? id = none := by
    refine List.find?_eq_none.2 fun j hj => ?_
    simpa using Nat.ne_of_lt (Nat.lt_of_lt_of_le (h.fresh j hj) hid)
  cases a <;> simp [claims, hnone]

theorem Outbox.nextID_le_step (s : Outbox) (a : DeliveryAction) : s.nextID ≤ (s.step a).nextID := by
  cases a with
  | enqueue _ _ _ => exact Nat.le_add_right _ _
  | claim w picked =>
    unfold Outbox.step
    dsimp only
    split <;> exact Nat.le_refl _
  | takeNext w recorded =>
    rcases s.takeNext_cases w recorded with heq | ⟨job, rest, _, _, ⟨_, heq⟩ | ⟨_, heq⟩⟩
    · rw [Outbox.step, heq]
    · rw [Outbox.step, heq]
      cases recorded <;> exact Nat.le_refl _
    · rw [Outbox.step, heq]
      exact Nat.le_refl _
  | finish w delivered recorded =>
    rcases s.finish_cases w delivered recorded with heq | ⟨job, t, _, heq⟩
    · rw [Outbox.step, heq]
    rw [Outbox.step, heq]
    cases recorded
    · exact Nat.le_refl _
    · obtain ⟨f, hrec, _⟩ := s.recordOutcome_eq job delivered
      simp only [if_true, hrec]
      exact Nat.le_refl _
  | resolve _ => exact Nat.le_refl _
  | advance _ => exact Nat.le_refl _
  | reclaim => exact Nat.le_refl _
  | die _ => exact Nat.le_refl _

/-- The state after a run whose windows never closed on a waiting job. -/
structure RunInWindow (s₀ : Outbox) (as : List DeliveryAction) (s : Outbox) : Prop where
  inWindow : s.InWindow
  unborn : ∀ id, s.nextID ≤ id → claimsOf s₀ as id = 0
  spaced : ∀ j ∈ s.jobs, Spaced s.now (claimsOf s₀ as j.id) j

/-- **Run lemma.** -/
theorem runInWindow (now : Time) {as : List DeliveryAction}
    (h : StepsMeet Outbox.step KeepsWindow { now := now } as) :
    RunInWindow { now := now } as (run Outbox.step { now := now } as) := by
  refine h.invariant_history (I := RunInWindow { now := now }) ?_ ?_
  · intro pre a hI ha
    have hkeyed := hI.inWindow.tracked.keyed
    refine ⟨hI.inWindow.step ha, fun id hid => ?_, fun j' hj' => ?_⟩
    · have hold := (nextID_le_step _ a).trans hid
      rw [claimsOf_concat, hI.unborn id hold, hkeyed.claims_unborn hold]
      rfl
    · refine Spaced.later ?_ (now_le_step _ a)
      rw [claimsOf_concat]
      rcases hI.inWindow.tracked.rowStep hj' with ⟨j, hj, hrow⟩ | hnew
      · rw [hrow.sameJob.1]
        exact (hI.spaced j hj).rowStep hrow fun hpending =>
          hI.inWindow.waiting j hj (.inl hpending)
      · rw [hI.unborn j'.id hnew.1, hkeyed.claims_unborn hnew.1]
        exact Spaced.queued hnew
  · exact ⟨⟨tracked_init now, by simp⟩, fun _ _ => rfl, by simp⟩

/-- What a run owes to the windows of its jobs: no delivery starts late, a job is
claimed boundedly often, and once its window has passed it is closed, or in a last
delivery whose outcome closes it. -/
structure DeliveredInWindow (s₀ : Outbox) (as : List DeliveryAction) : Prop where
  inTime : ∀ pre a post, as = pre ++ a :: post → ∀ d,
    (run Outbox.step s₀ pre).starts a = some d →
    ∀ j ∈ (run Outbox.step s₀ pre).jobs, j.id = d.jobID → (run Outbox.step s₀ pre).now ≤ j.expiresAt
  bounded : ∀ j ∈ (run Outbox.step s₀ as).jobs,
    claimsOf s₀ as j.id ≤ (j.expiresAt - j.createdAt) / retryDelay + 1
  closed : ∀ j ∈ (run Outbox.step s₀ as).jobs,
    j.expiresAt < (run Outbox.step s₀ as).now → j.state.Terminal ∨
      ∃ w, (run Outbox.step s₀ as).Delivering w j.id ∧ ∀ delivered,
        ∀ j' ∈ ((run Outbox.step s₀ as).finish w delivered true).jobs,
          j'.id = j.id → j'.state.Terminal

theorem Outbox.InWindow.starts (h : s.InWindow) {d : DeliveryJob} (hs : s.starts a = some d)
    (hj : j ∈ s.jobs) (hid : j.id = d.jobID) : s.now ≤ j.expiresAt := by
  obtain ⟨w, hw⟩ := batch_of_starts hs
  exact h.waiting j hj (.inr (.inl ⟨w, d, hw, hid.symm⟩))

theorem Outbox.InWindow.finish_closes (h : s.InWindow) {w : Nat} (hj : j ∈ s.jobs)
    (hdel : s.Delivering w j.id) (hlate : j.expiresAt < s.now) {delivered : Bool}
    (hj' : j' ∈ (s.finish w delivered true).jobs) (hid : j'.id = j.id) : j'.state.Terminal := by
  obtain ⟨j₀, hj₀, hrow⟩ := h.tracked.rowStep_finish hj'
  obtain rfl : j₀ = j := eq_of_key_eq h.tracked.keyed.ids hj₀ hj (hrow.sameJob.1.symm.trans hid)
  cases hrow with
  | kept _ hrec => exact absurd hdel hrec
  | claimed hclaims _ _ => cases hclaims
  | closed _ _ hterm => exact hterm
  | retried _ _ _ hafter hdue =>
    have hnow := (Nat.le_add_right s.now retryDelay).trans (hafter.trans hdue)
    exact absurd hlate (Nat.not_lt.2 hnow)
  | reclaimed ha _ => cases ha

theorem Outbox.InWindow.expired (h : s.InWindow) (hj : j ∈ s.jobs) (hlate : j.expiresAt < s.now) :
    j.state.Terminal ∨ ∃ w, s.Delivering w j.id := by
  have hnot : ¬ s.Waiting j := fun hw => Nat.not_lt.2 (h.waiting j hj hw) hlate
  cases hs : j.state with
  | pending => exact absurd (.inl hs) hnot
  | running =>
    right
    by_contra hnone
    exact hnot (.inr (.inr ⟨hs, fun w hw => hnone ⟨w, hw⟩⟩))
  | succeeded => exact .inl trivial
  | failed => exact .inl trivial
  | dropped => exact .inl trivial

/-- **Deliveries respect the window.**  In every run, crashes included, in which
no window closes on a waiting job or before an interrupted delivery is given back,
no delivery starts after its job has expired, and every job is closed after
boundedly many claims. -/
theorem deliveredInWindow_of_keepsWindow (now : Time) (as : List DeliveryAction)
    (h : StepsMeet Outbox.step KeepsWindow { now := now } as) :
    DeliveredInWindow { now := now } as where
  inTime := by
    rintro pre a post rfl d hd j hj hid
    have hpre := runInWindow now ((stepsMeet_append _ _ _ _ _).1 h).1
    exact hpre.inWindow.starts hd hj hid
  bounded := by
    intro j hj
    have hspaced := ((runInWindow now h).spaced j hj).window
    generalize claimsOf { now := now } as j.id = n at hspaced ⊢
    cases n with
    | zero => exact Nat.zero_le _
    | succ n =>
      have hcost := hspaced (Nat.succ_ne_zero n)
      rw [Nat.mul_succ, ← Nat.add_assoc] at hcost
      have hspent := Nat.le_of_add_le_add_right hcost
      have hroom : n * retryDelay ≤ j.expiresAt - j.createdAt :=
        Nat.le_sub_of_add_le (by rwa [Nat.add_comm, Nat.mul_comm])
      have hdelay : 0 < retryDelay := by decide +kernel
      exact Nat.add_le_add_right ((Nat.le_div_iff_mul_le hdelay).2 hroom) 1
  closed := by
    intro j hj hlate
    have hrun := (runInWindow now h).inWindow
    rcases hrun.expired hj hlate with hterm | ⟨w, hdel⟩
    · exact .inl hterm
    · exact .inr ⟨w, hdel, fun _ j' hj' hid => hrun.finish_closes hj hdel hlate hj' hid⟩

/-- A failed attempt, a worker that dies during the second one, and a third that
works. -/
def recoveredRun : List DeliveryAction :=
  [.enqueue 1 [1] (6 * hour), .claim 0 [0], .takeNext 0 true, .finish 0 false true,
    .advance 30000000000, .claim 0 [0], .takeNext 0 true, .die 0, .advance 360000000000,
    .reclaim, .claim 1 [0], .takeNext 1 true, .finish 1 true true]

private theorem keepsWindow_advance {d : Nat} (h : ∀ j ∈ s.jobs, s.now + d ≤ j.expiresAt) :
    KeepsWindow s (.advance d) :=
  fun j hj _ => h j hj

theorem deliveredInWindow_example : DeliveredInWindow { now := 0 } recoveredRun := by
  refine deliveredInWindow_of_keepsWindow 0 recoveredRun ⟨trivial, trivial, trivial,
    trivial, keepsWindow_advance (by decide +kernel), trivial, trivial, ?_,
    keepsWindow_advance (by decide +kernel), ?_, trivial, trivial, trivial, trivial⟩
  · intro j hj _
    revert j hj
    decide +kernel
  · intro j hj _
    revert j hj
    decide +kernel

/-- The worker dies during the first attempt and the service stays down for seven
hours: the reclaimed job is delivered an hour after its window closed. -/
def crashedRun : List DeliveryAction :=
  [.enqueue 1 [1] (6 * hour), .claim 0 [0], .takeNext 0 true, .die 0,
    .advance 25200000000000, .reclaim, .claim 1 [0]]

theorem crashedRun_delivered_late :
    ¬ DeliveredInWindow { now := 0 } (crashedRun ++ [.takeNext 1 true]) := by
  intro h
  have hlate := h.inTime crashedRun (.takeNext 1 true) [] rfl
  revert hlate
  decide +kernel

end Sluicio.Alerting
