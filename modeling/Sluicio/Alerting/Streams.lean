import Sluicio.Alerting.Tick

/-!
# Streams of rows

The tick groups items into per-integration streams.  Here the streams are those of the
rows themselves, so that what a tick does can be said about instances.
-/

namespace Sluicio.Alerting

open Lib State

/-- The per-integration stream a row is folded into, if it is firing and unacknowledged
and its profile folds it. -/
def State.streamOf (s : State) (i : AlertInstance) : Option (Option UUID × String) :=
  match s.world.rule? i.alertRuleID with
  | some rule =>
    if i.FiringUnacked ∧ s.world.coalesces i.environment rule = true then
      some (rule.integrationID, i.environment.getD "")
    else none
  | none => none

variable {k : Option UUID × String} {s : State} {i : AlertInstance}
  {insts : List FiringUnackedInstance}

theorem State.streamOf_eq_some :
    s.streamOf i = some k ↔ i.FiringUnacked ∧ ∃ rule,
      s.world.rule? i.alertRuleID = some rule ∧
      s.world.coalesces i.environment rule ∧
      k = (rule.integrationID, i.environment.getD "") := by
  unfold streamOf
  cases s.world.rule? i.alertRuleID with
  | none => simp
  | some rule =>
    dsimp only
    constructor
    · intro hk
      split at hk
      · next hfolded => exact ⟨hfolded.1, rule, rfl, hfolded.2, (Option.some.inj hk).symm⟩
      · cases hk
    · rintro ⟨hfiring, rule', hrule', hc, rfl⟩
      obtain rfl : rule = rule' := Option.some.inj hrule'
      rw [if_pos ⟨hfiring, hc⟩]

theorem State.isSome_streamOf (rule : AlertRule) (hfiring : i.FiringUnacked)
    (hrule : s.world.rule? i.alertRuleID = some rule) (hc : s.world.coalesces i.environment rule) :
    (s.streamOf i).isSome :=
  Option.isSome_iff_exists.2 ⟨_, streamOf_eq_some.2 ⟨hfiring, rule, hrule, hc, rfl⟩⟩

/-- The row speaks for the stream: it is in it, and started first. -/
def State.Represents (s : State) (rep : AlertInstance) (k : Option UUID × String) : Prop :=
  s.streamOf rep = some k ∧ ∀ i ∈ s.instances, s.streamOf i = some k → rep.startedAt ≤ i.startedAt

instance (s : State) (rep : AlertInstance) (k : Option UUID × String) :
    Decidable (s.Represents rep k) :=
  inferInstanceAs (Decidable (_ ∧ ∀ i ∈ s.instances, _))

/-- The row is paged for itself, or for the stream it represents. -/
def State.Speaks (s : State) (i : AlertInstance) : Prop :=
  ∀ k, s.streamOf i = some k → s.Represents i k

theorem TickFrame.streamOf {t : State} (h : TickFrame s t) {i' : AlertInstance}
    (hsame : SameRow i i') : t.streamOf i' = s.streamOf i := by
  unfold State.streamOf
  simp only [h.world, hsame.alertRuleID, hsame.environment, hsame.firingUnacked]

theorem TickFrame.represents {t : State} (h : TickFrame s t) {rep rep' : AlertInstance}
    (hrep : s.Represents rep k) (hsame : SameRow rep rep') : t.Represents rep' k := by
  refine ⟨(h.streamOf hsame).trans hrep.1, fun i' hi' hk => ?_⟩
  obtain ⟨i, hi, hsame'⟩ := h.old hi'
  rw [hsame.startedAt, hsame'.startedAt]
  exact hrep.2 i hi ((h.streamOf hsame').symm.trans hk)

theorem State.mem_stream_iff (hinsts : insts.Perm s.firingUnackedInstances) {it : RenotifyItem} :
    (it ∈ s.world.renotifyItems insts ∧ it.coalesced ∧ it.stream = k) ↔
      ∃ i ∈ s.instances, s.streamOf i = some k ∧ ∃ rule,
        s.world.rule? i.alertRuleID = some rule ∧
        it = s.world.renotifyItem i.toFiringUnacked rule := by
  rw [mem_renotifyItems hinsts]
  constructor
  · rintro ⟨⟨i, hi, hfiring, rule, hrule, rfl⟩, hc, rfl⟩
    exact ⟨i, hi, streamOf_eq_some.2 ⟨hfiring, rule, hrule, hc, rfl⟩, rule, hrule, rfl⟩
  · rintro ⟨i, hi, hstream, rule, hrule, rfl⟩
    obtain ⟨hfiring, rule', hrule', hc, rfl⟩ := streamOf_eq_some.1 hstream
    obtain rfl : rule = rule' := Option.some.inj (hrule.symm.trans hrule')
    exact ⟨⟨i, hi, hfiring, rule, hrule, rfl⟩, hc, rfl⟩

/-- The instance of a tick's page speaks, no window of the cache covers it, and if it is
folded its stream is due. -/
theorem State.speaks_of_plan (hinsts : insts.Perm s.firingUnackedInstances) {it : RenotifyItem}
    (h : .renotify it ∈ s.renotifyPlan insts) :
    ∃ i ∈ s.instances, i.FiringUnacked ∧ s.Speaks i ∧ ∃ rule,
      s.world.rule? i.alertRuleID = some rule ∧
      coveringWindow s.refreshWindows.mwCache rule = none ∧
      it = s.world.renotifyItem i.toFiringUnacked rule ∧
      (s.world.coalesces i.environment rule →
        due s.world.now i.lastNotifiedAt (s.world.behavior i.environment rule).2) := by
  obtain ⟨hit, hcover, hfirst⟩ := paged_of_mem_renotifyOps h
  obtain ⟨i, hi, hfiring, rule, hrule, rfl⟩ := (mem_renotifyItems hinsts).1 hit
  refine ⟨i, hi, hfiring, fun k hk => ⟨hk, fun j hj hjk => ?_⟩, rule, hrule, hcover, rfl,
    fun hc => (hfirst hc).1⟩
  obtain ⟨_, hcoal, hkey⟩ := (mem_stream_iff hinsts).2 ⟨i, hi, hk, rule, hrule, rfl⟩
  obtain ⟨_, ruleJ, hruleJ, _⟩ := streamOf_eq_some.1 hjk
  obtain ⟨hjt, hjc, hjkey⟩ := (mem_stream_iff hinsts).2 ⟨j, hj, hjk, ruleJ, hruleJ, rfl⟩
  exact (hfirst hcoal).2 _ hjt hjc (hjkey.trans hkey.symm)

/-- A stream that is not empty has a representative, and the tick pages it if it is
uncovered and due. -/
theorem State.exists_representative (hinsts : insts.Perm s.firingUnackedInstances)
    (hi : i ∈ s.instances) (hk : s.streamOf i = some k) :
    ∃ rep ∈ s.instances, s.Represents rep k ∧ ∃ rule,
      s.world.rule? rep.alertRuleID = some rule ∧
      (coveringWindow s.refreshWindows.mwCache rule = none →
        due s.world.now rep.lastNotifiedAt (s.world.behavior rep.environment rule).2 →
        .renotify (s.world.renotifyItem rep.toFiringUnacked rule) ∈ s.renotifyPlan insts) := by
  obtain ⟨_, ruleI, hruleI, _⟩ := streamOf_eq_some.1 hk
  obtain ⟨hit, hcoal, hstream⟩ :=
    (mem_stream_iff hinsts).2 ⟨i, hi, hk, ruleI, hruleI, rfl⟩
  obtain ⟨it₀, its, hmem, hops⟩ :=
    exists_stream (coveringWindow s.refreshWindows.mwCache) s.world.now hit hcoal
  rw [hstream] at hmem
  obtain ⟨rep, hrep, hrepk, rule, hrule, heq⟩ :=
    (mem_stream_iff hinsts).1 ((hmem _).1 (representative_mem it₀ its))
  have hfirst : ∀ j ∈ s.instances, s.streamOf j = some k → rep.startedAt ≤ j.startedAt := by
    intro j hj hjk
    obtain ⟨_, ruleJ, hruleJ, _⟩ := streamOf_eq_some.1 hjk
    have hle := representative_le it₀ its _
      ((hmem _).2 ((mem_stream_iff hinsts).2 ⟨j, hj, hjk, ruleJ, hruleJ, rfl⟩))
    rwa [heq] at hle
  refine ⟨rep, hrep, ⟨hrepk, hfirst⟩, rule, hrule, fun hcover hdue => hops _ ?_⟩
  have huncovered : coveringWindow s.refreshWindows.mwCache
      (representative it₀ its).rule = none := by
    rw [heq]
    exact hcover
  have hdue' : due s.world.now (representative it₀ its).inst.lastNotifiedAt
      (representative it₀ its).renotify := by
    rw [heq]
    exact hdue
  rw [streamOps_of_uncovered huncovered, if_pos hdue', heq]
  exact List.mem_singleton_self _

end Sluicio.Alerting
