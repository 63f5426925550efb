import Mathlib.Logic.Basic

/-!
# What an infinite run comes to

Predicates over the steps of an infinite run.  `LeadsTo P Q` says that a step at which `P`
holds is followed, or is itself, one at which `Q` does.

A run makes progress by steps that are taken again and again.  The rules here turn what one
step keeps and what such a step brings about into what the run comes to: `leadsTo_of_keeps`
when one of them is enough, `leadsTo_of_measure` when each of them lowers a measure.
-/

namespace Sluicio.Lib

variable {P Q R : Nat → Prop}

/-- After every step at which `P` holds there is one at which `Q` does. -/
def LeadsTo (P Q : Nat → Prop) : Prop := ∀ n, P n → ∃ m, n ≤ m ∧ Q m

/-- It is the case again and again. -/
def Recurs (P : Nat → Prop) : Prop := ∀ n, ∃ m, n ≤ m ∧ P m

theorem LeadsTo.trans (h : LeadsTo P Q) (h' : LeadsTo Q R) : LeadsTo P R := by
  intro n hn
  obtain ⟨m, hnm, hm⟩ := h n hn
  obtain ⟨k, hmk, hk⟩ := h' m hm
  exact ⟨k, Nat.le_trans hnm hmk, hk⟩

theorem LeadsTo.trans_or (h : LeadsTo P fun n => R n ∨ Q n) (h' : LeadsTo Q R) : LeadsTo P R :=
  h.trans fun n hn => hn.elim (fun hr => ⟨n, Nat.le_refl n, hr⟩) (h' n)

variable {m n : Nat} {fires : Nat → Prop}

theorem holds_from (hkeep : ∀ n, P n → P (n + 1)) (hn : P n) (hnm : n ≤ m) : P m := by
  induction hnm with
  | refl => exact hn
  | step _ ih => exact hkeep _ ih

/-- What every step keeps or trades for `Q` holds until `Q` does, and its measure does not
go up. -/
theorem holds_until {μ : Nat → Nat} (hkeep : ∀ n, P n → Q (n + 1) ∨ P (n + 1) ∧ μ (n + 1) ≤ μ n)
    (hn : P n) (hnm : n ≤ m) : (∃ k, n ≤ k ∧ Q k) ∨ P m ∧ μ m ≤ μ n := by
  induction hnm with
  | refl => exact .inr ⟨hn, Nat.le_refl _⟩
  | @step m hnm ih =>
    rcases ih with hq | ⟨hm, hμ⟩
    · exact .inl hq
    · rcases hkeep m hm with hq | ⟨hnext, hle⟩
      · exact .inl ⟨m + 1, Nat.le_succ_of_le hnm, hq⟩
      · exact .inr ⟨hnext, Nat.le_trans hle hμ⟩

/-- **The measure rule.**  No step takes `P` away or raises its measure except for `Q`, and a
step that recurs lowers it. -/
theorem leadsTo_of_measure (μ : Nat → Nat)
    (hkeep : ∀ n, P n → Q (n + 1) ∨ P (n + 1) ∧ μ (n + 1) ≤ μ n) (hfair : Recurs fires)
    (hfires : ∀ n, P n → fires n → Q (n + 1) ∨ P (n + 1) ∧ μ (n + 1) < μ n) : LeadsTo P Q := by
  intro n hn
  generalize hbound : μ n = bound
  induction bound using Nat.strongRecOn generalizing n with
  | ind bound ih =>
    obtain ⟨m, hnm, hfire⟩ := hfair n
    rcases holds_until hkeep hn hnm with hq | ⟨hm, hμ⟩
    · exact hq
    · rcases hfires m hm hfire with hq | ⟨hnext, hlt⟩
      · exact ⟨m + 1, by omega, hq⟩
      · obtain ⟨k, hk, hq⟩ := ih (μ (m + 1)) (by omega) (m + 1) hnext rfl
        exact ⟨k, by omega, hq⟩

/-- The rule without a measure: a step that recurs brings `Q` about. -/
theorem leadsTo_of_keeps (hkeep : ∀ n, P n → Q (n + 1) ∨ P (n + 1)) (hfair : Recurs fires)
    (hfires : ∀ n, P n → fires n → Q (n + 1)) : LeadsTo P Q := by
  refine leadsTo_of_measure (fun _ => 0) (fun n hn => ?_) hfair fun n hn hfire =>
    .inl (hfires n hn hfire)
  exact (hkeep n hn).imp_right fun hnext => ⟨hnext, Nat.le_refl _⟩

end Sluicio.Lib
