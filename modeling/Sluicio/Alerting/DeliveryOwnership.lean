import Sluicio.Alerting.Delivery

/-!
# One owner for each delivery job

A job that a worker holds is running since that worker's claim, or a sweep has
given it back, which takes `stuckAfter`.  So a claim can take a held job only from
a worker whose batch is older than that, and as long as none does, only its owner
records an outcome for a job.
-/

namespace Sluicio.Alerting

open Lib Outbox

/-- The row of a job that a worker claimed at `claimedAt` and still holds. -/
def Outbox.HeldRow (s : Outbox) (claimedAt : Time) (j : NotificationJob) : Prop :=
  (j.state = .running ∧ j.updatedAt = claimedAt) ∨
    (j.state = .pending ∧ claimedAt + stuckAfter < s.now)

/-- Every held job has such a row, and no job is held twice. -/
structure Outbox.Owned (s : Outbox) : Prop where
  keyed : s.Keyed
  row : ∀ w, ∀ d ∈ (s.workers w).held, ∃ j ∈ s.jobs,
    j.id = d.jobID ∧ s.HeldRow (s.workers w).claimedAt j
  once : ∀ w, ((s.workers w).held.map DeliveryJob.jobID).Nodup
  apart : ∀ w w', w ≠ w' → ∀ d ∈ (s.workers w).held, ∀ d' ∈ (s.workers w').held, d.jobID ≠ d'.jobID

theorem Outbox.owned_init (now : Time) : Outbox.Owned { now := now } where
  keyed := keyed_init now
  row := by simp [Worker.held]
  once := by simp [Worker.held]
  apart := by simp [Worker.held]

section Frames

variable {s : Outbox}

theorem Outbox.Owned.setWorker (h : s.Owned) {w : Nat} {x : Worker}
    (hsub : x.held.Sublist (s.workers w).held)
    (hat : x.claimedAt = (s.workers w).claimedAt) : (s.setWorker w x).Owned := by
  have hheld : ∀ w', ((s.setWorker w x).workers w').held.Sublist (s.workers w').held := by
    intro w'
    by_cases hw : w' = w
    · subst hw
      simpa using hsub
    · rw [s.setWorker_of_ne x hw]
  have hclaimed : ∀ w', ((s.setWorker w x).workers w').claimedAt = (s.workers w').claimedAt := by
    intro w'
    by_cases hw : w' = w
    · subst hw
      simpa using hat
    · rw [s.setWorker_of_ne x hw]
  exact {
    keyed := h.keyed.setWorker w x
    row := fun w' d hd => by
      rw [hclaimed]
      exact h.row w' d ((hheld w').subset hd)
    once := fun w' => ((hheld w').map _).nodup (h.once w')
    apart := fun w' w'' hne d hd d' hd' =>
      h.apart w' w'' hne d ((hheld w').subset hd) d' ((hheld w'').subset hd') }

variable {f : NotificationJob → NotificationJob}

theorem Outbox.Owned.updateJobs (h : s.Owned) {p : NotificationJob → Bool}
    (hf : ∀ j, (f j).id = j.id) (hp : ∀ w, ∀ d ∈ (s.workers w).held, ∀ j ∈ s.jobs, j.id = d.jobID →
      s.HeldRow (s.workers w).claimedAt j → p j →
      s.HeldRow (s.workers w).claimedAt (f j)) :
    (s.updateJobs p f).Owned where
  keyed := h.keyed.updateJobs hf
  row := by
    intro w d hd
    obtain ⟨j, hj, hid, hrow⟩ := h.row w d hd
    cases hpj : p j
    · exact ⟨j, mem_updateWhere_of_not hj hpj, hid, hrow⟩
    · exact ⟨f j, mem_updateWhere_of hj hpj, (hf j).trans hid,
        hp w d hd j hj hid hrow hpj⟩
  once := h.once
  apart := h.apart

theorem Outbox.Owned.updateJob (h : s.Owned) {id : UUID} (hf : ∀ j, (f j).id = j.id)
    (hid : ∀ w, ∀ d ∈ (s.workers w).held, d.jobID ≠ id) :
    (s.updateJobs (fun j => j.id = id) f).Owned :=
  h.updateJobs hf fun w d hd j _ hj _ hpj =>
    absurd (hj.symm.trans (by simpa using hpj)) (hid w d hd)

theorem Outbox.Owned.not_held (h : s.Owned) (w : Nat) (x : Worker) (job : DeliveryJob)
    (hheld : (s.workers w).held = job :: x.held) :
    ∀ w', ∀ d ∈ ((s.setWorker w x).workers w').held, d.jobID ≠ job.jobID := by
  intro w' d hd
  have hjob : job ∈ (s.workers w).held := by simp [hheld]
  by_cases hw : w' = w
  · subst hw
    have honce := h.once w'
    rw [hheld, List.map_cons, List.nodup_cons] at honce
    rw [s.setWorker_self] at hd
    intro heq
    exact honce.1 (heq ▸ List.mem_map_of_mem hd)
  · rw [s.setWorker_of_ne x hw] at hd
    exact h.apart w' w hw d hd job hjob

end Frames

/-- No claim takes a job that another worker claimed longer than `stuckAfter` ago
and still holds. -/
def ClaimsNoHeldJob (s : Outbox) : DeliveryAction → Prop
  | .claim _ picked => ∀ w, ∀ d ∈ (s.workers w).held, d.jobID ∈ picked →
      (s.now : Int) ≤ (s.workers w).claimedAt + stuckAfter
  | _ => True

section Steps

variable {s : Outbox}

theorem Outbox.Owned.enqueueJobs (h : s.Owned) (instanceID : UUID)
    (channelIDs : List UUID) (window : Duration) :
    (s.enqueueJobs instanceID channelIDs window).Owned where
  keyed := h.keyed.enqueueJobs instanceID channelIDs window
  row := by
    intro w d hd
    obtain ⟨j, hj, hrow⟩ := h.row w d hd
    exact ⟨j, List.mem_append_left _ hj, hrow⟩
  once := h.once
  apart := h.apart

variable {w : Nat} {picked : List UUID}

/-- The query returns no job that a worker has held for at most `stuckAfter`, and
so, by the condition, none that a worker holds at all. -/
theorem Outbox.Owned.picked_not_held (h : s.Owned) {w₀ : Nat} (hans : s.ClaimAnswer picked)
    (hfree : ClaimsNoHeldJob s (.claim w₀ picked)) {d : DeliveryJob} (hd : d ∈ (s.workers w).held) :
    d.jobID ∉ picked := by
  intro hmem
  obtain ⟨j, hj, hid, hrow⟩ := h.row w d hd
  have hpick : j ∈ picked.filterMap s.job? :=
    List.mem_filterMap.2 ⟨d.jobID, hmem, h.keyed.job?_eq_some.2 ⟨hj, hid⟩⟩
  have hpending := (hans.2.2.1 j hpick).1
  rcases hrow with ⟨hrun, _⟩ | ⟨_, hold⟩
  · simp [hrun] at hpending
  · exact absurd hold (Int.not_lt.2 (hfree w d hd hmem))

theorem Outbox.Keyed.map_jobID_batch (h : s.Keyed) (picked : List UUID) :
    (((picked.filterMap s.job?).map s.deliveryJob).map DeliveryJob.jobID).Sublist picked := by
  induction picked with
  | nil => simp
  | cons id rest ih =>
    cases hj : s.job? id with
    | none =>
      rw [List.filterMap_cons_none hj]
      exact ih.cons _
    | some j =>
      have hid : j.id = id := (h.job?_eq_some.1 hj).2
      rw [List.filterMap_cons_some hj]
      simpa [deliveryJob, hid] using ih

theorem Outbox.Owned.claimDueJobs (h : s.Owned) (hans : s.ClaimAnswer picked)
    (hfree : ClaimsNoHeldJob s (.claim w picked)) : (s.claimDueJobs w picked).Owned := by
  have hbatch := h.keyed.map_jobID_batch picked
  have hrows : (s.updateJobs (fun j => j.id ∈ picked) fun j =>
      { j with state := .running, updatedAt := s.now }).Owned := by
    refine h.updateJobs (fun _ => rfl) fun w' d hd j _ hid _ hpj => ?_
    have hmem : d.jobID ∈ picked := by simpa [hid] using hpj
    exact absurd hmem (h.picked_not_held hans hfree hd)
  have hheld : ((s.claimDueJobs w picked).workers w).held =
      (picked.filterMap s.job?).map s.deliveryJob := by
    simp [Outbox.claimDueJobs, Worker.held]
  have hother : ∀ w', w' ≠ w → (s.claimDueJobs w picked).workers w' = s.workers w' := fun w' hw =>
    Outbox.setWorker_of_ne _ _ hw
  have hpicked : ∀ d ∈ ((s.claimDueJobs w picked).workers w).held, d.jobID ∈ picked := by
    intro d hd
    rw [hheld] at hd
    exact hbatch.subset (List.mem_map_of_mem hd)
  refine ⟨hrows.keyed.setWorker w _, ?_, ?_, ?_⟩
  · intro w' d hd
    by_cases hw : w' = w
    · subst hw
      have hmem := hpicked d hd
      rw [hheld] at hd
      obtain ⟨j, hj, rfl⟩ := List.mem_map.1 hd
      obtain ⟨id, _, hsome⟩ := List.mem_filterMap.1 hj
      have hrow := (h.keyed.job?_eq_some.1 hsome).1
      refine ⟨{ j with state := .running, updatedAt := s.now }, ?_, rfl, .inl ⟨rfl, ?_⟩⟩
      · exact mem_updateWhere_of hrow (by simpa [deliveryJob] using hmem)
      · simp [Outbox.claimDueJobs]
    · rw [hother w' hw] at hd ⊢
      exact hrows.row w' d hd
  · intro w'
    by_cases hw : w' = w
    · subst hw
      rw [hheld]
      exact hbatch.nodup hans.2.1
    · rw [hother w' hw]
      exact h.once w'
  · intro w₁ w₂ hne d hd d' hd' heq
    by_cases hw₁ : w₁ = w
    · subst hw₁
      rw [hother w₂ hne.symm] at hd'
      exact h.picked_not_held hans hfree hd' (heq ▸ hpicked d hd)
    rw [hother w₁ hw₁] at hd
    by_cases hw₂ : w₂ = w
    · subst hw₂
      exact h.picked_not_held hans hfree hd (heq ▸ hpicked d' hd')
    · rw [hother w₂ hw₂] at hd'
      exact h.apart w₁ w₂ hne d hd d' hd' heq

theorem Outbox.Owned.takeNext (h : s.Owned) (w : Nat) (recorded : Bool) :
    (s.takeNext w recorded).Owned := by
  rcases s.takeNext_cases w recorded with heq | ⟨job, rest, hcur, hbatch, hcase⟩
  · rwa [heq]
  have hheld : (s.workers w).held = job :: rest := by simp [Worker.held, hcur, hbatch]
  rcases hcase with ⟨_, heq⟩ | ⟨_, heq⟩
  · rw [heq]
    have hlet : (s.setWorker w { s.workers w with batch := rest }).Owned :=
      h.setWorker (by simp [Worker.held, hcur, hbatch]) rfl
    cases recorded
    · exact hlet
    · have hfree := h.not_held w { s.workers w with batch := rest } job
        (by simp [Worker.held, hcur, hbatch])
      exact hlet.updateJob (fun _ => rfl) hfree
  · rw [heq]
    exact h.setWorker (by simp [Worker.held, hcur, hbatch]) rfl

theorem Outbox.Owned.finish (h : s.Owned) (w : Nat) (delivered recorded : Bool) :
    (s.finish w delivered recorded).Owned := by
  rcases s.finish_cases w delivered recorded with heq | ⟨job, t, hcur, heq⟩
  · rwa [heq]
  rw [heq]
  have hlet : (s.setWorker w { s.workers w with current := none }).Owned :=
    h.setWorker (by simp [Worker.held, hcur]) rfl
  cases recorded
  · exact hlet
  · have hfree := h.not_held w { s.workers w with current := none } job
      (by simp [Worker.held, hcur])
    obtain ⟨f, hrec, hf⟩ := s.recordOutcome_eq job delivered
    simp only [if_true, hrec]
    exact hlet.updateJob (fun j => (hf j).1) hfree

/-- A sweep gives back only jobs claimed longer than `stuckAfter` ago. -/
theorem Outbox.Owned.reclaimStuckJobs (h : s.Owned) : s.reclaimStuckJobs.Owned := by
  refine h.updateJobs (by simp) fun w d hd j hj hid hrow hpj => ?_
  simp only [stuck, Bool.and_eq_true, decide_eq_true_eq] at hpj
  rcases hrow with ⟨_, hat⟩ | ⟨hpending, _⟩
  · right
    rw [hat] at hpj
    exact ⟨rfl, Int.add_lt_of_lt_sub_right hpj.2⟩
  · simp [hpending] at hpj

theorem Outbox.Owned.advance (h : s.Owned) (d : Nat) :
    Outbox.Owned { s with now := s.now + d } where
  keyed := ⟨h.keyed.ids, h.keyed.fresh⟩
  row := by
    intro w job hjob
    obtain ⟨j, hj, hid, hrow⟩ := h.row w job hjob
    refine ⟨j, hj, hid, ?_⟩
    rcases hrow with hrun | ⟨hpending, hold⟩
    · exact .inl hrun
    · exact .inr ⟨hpending, Int.lt_of_lt_of_le hold (Int.ofNat_le.2 (Nat.le_add_right _ d))⟩
  once := h.once
  apart := h.apart

/-- **Step lemma.** -/
theorem Outbox.Owned.step (h : s.Owned) {a : DeliveryAction} (ha : ClaimsNoHeldJob s a) :
    (s.step a).Owned := by
  cases a with
  | enqueue instanceID channelIDs window => exact h.enqueueJobs instanceID channelIDs window
  | resolve instanceID => exact ⟨⟨h.keyed.ids, h.keyed.fresh⟩, h.row, h.once, h.apart⟩
  | advance d => exact h.advance d
  | claim w picked =>
    by_cases hc : s.Claims w picked
    · simpa only [Outbox.step, if_pos hc] using h.claimDueJobs hc.2 ha
    · simpa only [Outbox.step, if_neg hc] using h
  | takeNext w recorded => exact h.takeNext w recorded
  | finish w delivered recorded => exact h.finish w delivered recorded
  | reclaim => exact h.reclaimStuckJobs
  | die w => exact h.setWorker (by simp [Worker.held]) rfl

end Steps

/-! ## What ownership gives -/

def Outbox.jobState (s : Outbox) (id : UUID) : Option JobState :=
  (s.job? id).map (·.state)

/-- No two workers deliver one job. -/
def Outbox.Exclusive (s : Outbox) : Prop :=
  ∀ w w' id, s.Delivering w id → s.Delivering w' id → w = w'

section Consequences

variable {s : Outbox}

theorem Outbox.Owned.exclusive (h : s.Owned) : s.Exclusive := by
  intro w w' id hw hw'
  obtain ⟨c, hcur, rfl⟩ := Option.map_eq_some_iff.1 hw
  obtain ⟨c', hcur', hid⟩ := Option.map_eq_some_iff.1 hw'
  by_contra hne
  exact h.apart w w' hne c.1 (by simp [Worker.held, hcur]) c'.1
    (by simp [Worker.held, hcur']) hid.symm

theorem Outbox.Owned.jobState_of_held (h : s.Owned) {w : Nat} {d : DeliveryJob}
    (hd : d ∈ (s.workers w).held) : s.jobState d.jobID ≠ some .succeeded := by
  obtain ⟨j, hj, hid, hrow⟩ := h.row w d hd
  rw [jobState, h.keyed.job?_eq_some.2 ⟨hj, hid⟩]
  rcases hrow with ⟨hrun, _⟩ | ⟨hpending, _⟩
  · simp [hrun]
  · simp [hpending]

@[simp] theorem Outbox.jobState_setWorker (s : Outbox) (w : Nat) (x : Worker)
    (id : UUID) : (s.setWorker w x).jobState id = s.jobState id := rfl

variable {f : NotificationJob → NotificationJob} {id : UUID}

theorem Outbox.jobState_updateJobs {p : NotificationJob → Bool} (hf : ∀ j, (f j).id = j.id)
    (hp : ∀ j, s.job? id = some j → p j = false) :
    (s.updateJobs p f).jobState id = s.jobState id := by
  unfold jobState Outbox.job? updateJobs
  rw [find?_updateWhere hf]
  cases hj : s.jobs.find? fun j => j.id = id with
  | none => rfl
  | some j => simp [hp j hj]

theorem Outbox.jobState_updateJob (hf : ∀ j, (f j).id = j.id) {id' : UUID} (hne : id ≠ id') :
    (s.updateJobs (fun j => j.id = id') f).jobState id = s.jobState id := by
  refine jobState_updateJobs hf fun j hj => ?_
  have hid : j.id = id := by simpa using List.find?_some hj
  simpa [hid] using hne

theorem Outbox.jobState_enqueueJobs (instanceID : UUID) (channelIDs : List UUID) (window : Duration)
    {st : JobState} (hs : s.jobState id = some st) :
    (s.enqueueJobs instanceID channelIDs window).jobState id = some st := by
  unfold jobState Outbox.job? at hs ⊢
  obtain ⟨j, hj, rfl⟩ := Option.map_eq_some_iff.1 hs
  simp [enqueueJobs, List.find?_append, hj]

/-- **A success is final**: only the owner of a job writes its row, and a job
that succeeded has none. -/
theorem Outbox.Owned.succeeded_step (h : s.Owned) (hs : s.jobState id = some .succeeded)
    (a : DeliveryAction) : (s.step a).jobState id = some .succeeded := by
  have hfree : ∀ w, ∀ d ∈ (s.workers w).held, id ≠ d.jobID := by
    rintro w d hd rfl
    exact h.jobState_of_held hd hs
  have hstate : ∀ j, s.job? id = some j → j.state = .succeeded := by
    intro j hj
    simpa [jobState, hj] using hs
  cases a with
  | enqueue instanceID channelIDs window =>
    exact jobState_enqueueJobs instanceID channelIDs window hs
  | resolve instanceID => exact hs
  | advance d => exact hs
  | claim w picked =>
    by_cases hc : s.Claims w picked
    · rw [← hs, Outbox.step, if_pos hc, Outbox.claimDueJobs, Outbox.jobState_setWorker]
      refine jobState_updateJobs (by simp) fun j hj => ?_
      have hid : j.id = id := by simpa using List.find?_some hj
      have hnot : id ∉ picked := fun hmem => by
        have := (hc.2.2.2.1 j (List.mem_filterMap.2 ⟨id, hmem, hj⟩)).1
        simp [hstate j hj] at this
      simpa [hid] using hnot
    · simpa only [Outbox.step, if_neg hc] using hs
  | takeNext w recorded =>
    rcases s.takeNext_cases w recorded with heq | ⟨job, rest, hcur, hbatch, hcase⟩
    · rwa [Outbox.step, heq]
    have hne := hfree w job (by simp [Worker.held, hbatch])
    rcases hcase with ⟨_, heq⟩ | ⟨_, heq⟩
    · rw [Outbox.step, heq, jobState_setWorker]
      cases recorded
      · exact hs
      · rw [← hs]
        exact jobState_updateJob (by simp) hne
    · rw [Outbox.step, heq]
      exact hs
  | finish w delivered recorded =>
    rcases s.finish_cases w delivered recorded with heq | ⟨job, t, hcur, heq⟩
    · rwa [Outbox.step, heq]
    have hne := hfree w job (by simp [Worker.held, hcur])
    rw [Outbox.step, heq, jobState_setWorker]
    cases recorded
    · exact hs
    · obtain ⟨f, hrec, hf⟩ := s.recordOutcome_eq job delivered
      simp only [if_true, hrec]
      rw [← hs]
      exact jobState_updateJob (fun j => (hf j).1) hne
  | reclaim =>
    rw [← hs, Outbox.step, Outbox.reclaimStuckJobs]
    refine jobState_updateJobs (by simp) fun j hj => ?_
    simp [stuck, hstate j hj]
  | die w => exact hs

end Consequences

/-- What the lifecycle of a job owes in every state of a run: one worker at a
time, and a job that succeeded stays so and is not delivered again. -/
structure DeliveredOnce (s₀ : Outbox) (as : List DeliveryAction) : Prop where
  exclusive : ∀ pre post, as = pre ++ post → (run Outbox.step s₀ pre).Exclusive
  settled : ∀ pre mid post, as = pre ++ mid ++ post → ∀ id,
    (run Outbox.step s₀ pre).jobState id = some .succeeded →
    (run Outbox.step s₀ (pre ++ mid)).jobState id = some .succeeded
  notAgain : ∀ pre mid a post, as = pre ++ mid ++ a :: post → ∀ id d,
    (run Outbox.step s₀ pre).jobState id = some .succeeded →
    (run Outbox.step s₀ (pre ++ mid)).starts a = some d → d.jobID ≠ id

/-- **Run lemma.** -/
theorem Outbox.Owned.run {s : Outbox} {as : List DeliveryAction} (h : s.Owned)
    (has : StepsMeet Outbox.step ClaimsNoHeldJob s as) : (run Outbox.step s as).Owned :=
  has.invariant (I := Outbox.Owned) (fun _ _ hs ha => hs.step ha) h

theorem Outbox.Owned.succeeded_run {s : Outbox} {as : List DeliveryAction}
    (h : s.Owned) (has : StepsMeet Outbox.step ClaimsNoHeldJob s as) {id : UUID}
    (hs : s.jobState id = some .succeeded) :
    (Lib.run Outbox.step s as).jobState id = some .succeeded := by
  have hboth := has.invariant
    (I := fun s => s.Owned ∧ s.jobState id = some .succeeded)
    (fun s a hI ha => ⟨hI.1.step ha, hI.1.succeeded_step hI.2 a⟩) ⟨h, hs⟩
  exact hboth.2

/-- **No double delivery.**  In every run of any number of workers in which no
claim takes a job from a worker that has held it for longer than `stuckAfter`, no
job is delivered by two workers at once, and a job that succeeded stays so and is
not delivered again. -/
theorem deliveredOnce_of_claimsNoHeldJob (now : Time) (as : List DeliveryAction)
    (h : StepsMeet Outbox.step ClaimsNoHeldJob { now := now } as) :
    DeliveredOnce { now := now } as where
  exclusive := by
    rintro pre post rfl
    exact ((owned_init now).run ((stepsMeet_append _ _ _ _ _).1 h).1).exclusive
  settled := by
    rintro pre mid post rfl id hs
    have hpre := (stepsMeet_append _ _ _ _ _).1 ((stepsMeet_append _ _ _ _ _).1 h).1
    rw [run_append]
    exact ((owned_init now).run hpre.1).succeeded_run hpre.2 hs
  notAgain := by
    rintro pre mid a post rfl id d hs hd rfl
    have hpre := ((stepsMeet_append _ _ _ _ _).1 h).1
    have hparts := (stepsMeet_append _ _ _ _ _).1 hpre
    have hstill := ((owned_init now).run hparts.1).succeeded_run hparts.2 hs
    rw [← run_append] at hstill
    obtain ⟨w, hw⟩ := batch_of_starts hd
    exact ((owned_init now).run hpre).jobState_of_held (List.mem_append_right _ hw) hstill

/-- Two workers, the second claiming while the first delivers. -/
def promptRun : List DeliveryAction :=
  [.enqueue 1 [1, 2] (6 * hour), .claim 0 [0], .takeNext 0 true, .advance 20000000000,
    .reclaim, .claim 1 [1], .takeNext 1 true, .finish 0 true true, .finish 1 true true]

theorem deliveredOnce_example : DeliveredOnce { now := 0 } promptRun := by
  refine deliveredOnce_of_claimsNoHeldJob 0 promptRun
    ⟨trivial, ?_, trivial, trivial, trivial, ?_, trivial, trivial, trivial, trivial⟩
  · intro w d hd
    cases hd
  · intro w d hd
    match w with
    | 0 => exact fun _ => by decide
    | _ + 1 => cases hd

/-! ## A long batch -/

/-- Every delivery that ends took less than `stuckAfter`, and no worker dies. -/
def briefDeliveries (s : Outbox) : DeliveryAction → Bool
  | .finish w _ _ =>
    match (s.workers w).current with
    | none => true
    | some (_, t) => (s.now : Int) < t + stuckAfter
  | .die _ => false
  | _ => true

private def sixteen : List UUID := List.range 16

/-- Sixteen messages to a mail host that takes twenty seconds for each: the last
delivery begins five minutes after the claim, a sweep gives it back, and a second
worker claims and delivers it too. -/
def longBatch : List DeliveryAction :=
  [.enqueue 1 sixteen (6 * hour), .claim 0 sixteen] ++
    (List.replicate 15 [.takeNext 0 true, .advance 20000000000, .finish 0 true true]).flatten ++
    [.takeNext 0 true, .advance 1000000000, .reclaim, .claim 1 [15], .takeNext 1 true]

/-- The first worker records a success, and the second, after it, a failure. -/
def longBatchEnds : List DeliveryAction :=
  [.advance 19000000000, .finish 0 true true, .finish 1 false true]

theorem longBatch_delivered_twice :
    StepsMeet Outbox.step (fun s a => briefDeliveries s a = true) { now := 0 }
      (longBatch ++ longBatchEnds) ∧
    ¬ DeliveredOnce { now := 0 } (longBatch ++ longBatchEnds) := by
  refine ⟨by decide +kernel, fun h => ?_⟩
  have hone := h.exclusive longBatch longBatchEnds rfl 0 1 15
  exact absurd (hone (by decide +kernel) (by decide +kernel)) (by decide)

end Sluicio.Alerting
