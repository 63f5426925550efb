import Mathlib.Data.List.Induction

/-!
# Runs of a deterministic step function

A transition system here is a state type, an action type and a total step
function.  A run is a list of actions.  `StepsMeet` says that every action of a
run meets a condition in the state it is taken in, so that a condition on the
inputs of single steps can be carried as one hypothesis about a whole run.

The two induction rules are the ones a development uses: an invariant preserved
by every conditioned step holds at the end of the run, and it holds at every
state the run passes through.
-/

namespace Sluicio.Lib

variable {σ α : Type*}

/-- The state reached by taking `as` in order from `s`. -/
def run (step : σ → α → σ) (s : σ) (as : List α) : σ :=
  as.foldl step s

@[simp] theorem run_nil (step : σ → α → σ) (s : σ) : run step s [] = s := rfl

@[simp] theorem run_cons (step : σ → α → σ) (s : σ) (a : α) (as : List α) :
    run step s (a :: as) = run step (step s a) as := rfl

theorem run_append (step : σ → α → σ) (s : σ) (as bs : List α) :
    run step s (as ++ bs) = run step (run step s as) bs :=
  List.foldl_append

/-- Every action of the run meets `cond` in the state it is taken in. -/
def StepsMeet (step : σ → α → σ) (cond : σ → α → Prop) : σ → List α → Prop
  | _, [] => True
  | s, a :: as => cond s a ∧ StepsMeet step cond (step s a) as

instance StepsMeet.decidable {step : σ → α → σ} {cond : σ → α → Prop}
    [∀ s a, Decidable (cond s a)] : ∀ s as, Decidable (StepsMeet step cond s as)
  | _, [] => isTrue trivial
  | s, a :: as =>
    have : Decidable (StepsMeet step cond (step s a) as) := StepsMeet.decidable _ as
    inferInstanceAs (Decidable (cond s a ∧ StepsMeet step cond (step s a) as))

@[simp] theorem stepsMeet_nil (step : σ → α → σ) (cond : σ → α → Prop) (s : σ) :
    StepsMeet step cond s [] := trivial

@[simp] theorem stepsMeet_cons (step : σ → α → σ) (cond : σ → α → Prop)
    (s : σ) (a : α) (as : List α) :
    StepsMeet step cond s (a :: as) ↔ cond s a ∧ StepsMeet step cond (step s a) as := Iff.rfl

theorem stepsMeet_append (step : σ → α → σ) (cond : σ → α → Prop) (s : σ) (as bs : List α) :
    StepsMeet step cond s (as ++ bs) ↔
      StepsMeet step cond s as ∧ StepsMeet step cond (run step s as) bs := by
  induction as generalizing s with
  | nil => simp
  | cons a as ih => simp [ih, and_assoc]

variable {step : σ → α → σ} {cond cond' : σ → α → Prop} {I : σ → Prop} {s : σ} {as : List α}

theorem StepsMeet.imp (h : ∀ s a, cond s a → cond' s a) (hrun : StepsMeet step cond s as) :
    StepsMeet step cond' s as := by
  induction as generalizing s with
  | nil => trivial
  | cons a as ih => exact ⟨h s a hrun.1, ih hrun.2⟩

/-- **The invariant rule.**  What holds at the start and is preserved by every
step that meets the condition holds at the end of every conditioned run. -/
theorem StepsMeet.invariant (hstep : ∀ s a, I s → cond s a → I (step s a))
    (h : StepsMeet step cond s as) (hs : I s) : I (run step s as) := by
  induction as generalizing s with
  | nil => exact hs
  | cons a as ih => exact ih h.2 (hstep s a hs h.1)

theorem run_invariant (hstep : ∀ s a, I s → I (step s a)) (as : List α) (hs : I s) :
    I (run step s as) := by
  induction as generalizing s with
  | nil => exact hs
  | cons a as ih => exact ih (hstep s a hs)

/-- The invariant rule for steps: what the invariant and the condition say of a step holds of
every step of the run. -/
theorem StepsMeet.imp_of_invariant (hstep : ∀ s a, I s → cond s a → I (step s a))
    (himp : ∀ s a, I s → cond s a → cond' s a) (h : StepsMeet step cond s as) (hs : I s) :
    StepsMeet step cond' s as := by
  induction as generalizing s with
  | nil => trivial
  | cons a as ih => exact ⟨himp s a hs h.1, ih h.2 (hstep s a hs h.1)⟩

/-- Two conditions that agree where an invariant holds are met by the same runs, when the steps
that meet the first one keep the invariant. -/
theorem stepsMeet_congr (hiff : ∀ s a, I s → (cond s a ↔ cond' s a))
    (hkeep : ∀ s a, I s → cond s a → I (step s a)) (hs : I s) :
    StepsMeet step cond s as ↔ StepsMeet step cond' s as := by
  induction as generalizing s with
  | nil => exact Iff.rfl
  | cons a as ih =>
    simp only [stepsMeet_cons]
    rw [← hiff s a hs]
    exact and_congr_right fun h => ih (hkeep s a hs h)

/-- The exact invariant rule: when a step keeps the invariant just when it meets the condition,
the invariant holds in every state of a run just when every step of it meets the condition. -/
theorem stepsMeet_iff_invariant (hstep : ∀ s a, I s → (I (step s a) ↔ cond s a)) (hs : I s) :
    (∀ pre, pre <+: as → I (run step s pre)) ↔ StepsMeet step cond s as := by
  induction as generalizing s with
  | nil =>
    constructor
    · exact fun _ => trivial
    · intro _ pre hpre
      rw [List.prefix_nil.1 hpre]
      exact hs
  | cons a as ih =>
    constructor
    · intro hall
      have hfirst : I (step s a) := hall [a] ⟨as, rfl⟩
      refine ⟨(hstep s a hs).1 hfirst, (ih hfirst).1 fun pre hpre => ?_⟩
      exact hall (a :: pre) (List.cons_prefix_cons.2 ⟨rfl, hpre⟩)
    · intro hmeet pre hpre
      have hfirst := (hstep s a hs).2 hmeet.1
      cases pre with
      | nil => exact hs
      | cons b pre =>
        obtain ⟨rfl, hrest⟩ := List.cons_prefix_cons.1 hpre
        exact (ih hfirst).2 hmeet.2 pre hrest

/-- The exact rule for a run: when a step of the kind `cond` keeps `P` just when it meets
`cond'`, a run of such steps ends in `P` just when it starts there and every step meets
`cond'`. -/
theorem StepsMeet.run_iff {P : σ → Prop} (hstep : ∀ s a, I s → cond s a → I (step s a))
    (hiff : ∀ s a, I s → cond s a → (P (step s a) ↔ P s ∧ cond' s a)) (h : StepsMeet step cond s as)
    (hs : I s) : P (run step s as) ↔ P s ∧ StepsMeet step cond' s as := by
  induction as generalizing s with
  | nil => simp
  | cons a as ih =>
    rw [run_cons, ih h.2 (hstep s a hs h.1), hiff s a hs h.1, stepsMeet_cons, and_assoc]

/-- The invariant rule with a history: the invariant may also speak about the
actions taken so far. -/
theorem StepsMeet.invariant_history {s₀ : σ} {I : List α → σ → Prop}
    (hstep : ∀ pre a, I pre (run step s₀ pre) → cond (run step s₀ pre) a →
      I (pre ++ [a]) (step (run step s₀ pre) a)) (h : StepsMeet step cond s₀ as) (h₀ : I [] s₀) :
    I as (run step s₀ as) := by
  induction as using List.reverseRecOn with
  | nil => exact h₀
  | append_singleton as a ih =>
    rw [stepsMeet_append] at h
    have := hstep as a (ih h.1) h.2.1
    rwa [run_append]

/-- How many actions of the run meet `p` in the state they are taken in. -/
def countSteps (step : σ → α → σ) (p : σ → α → Bool) : σ → List α → Nat
  | _, [] => 0
  | s, a :: as => (if p s a then 1 else 0) + countSteps step p (step s a) as

theorem countSteps_append (step : σ → α → σ) (p : σ → α → Bool) (s : σ) (as bs : List α) :
    countSteps step p s (as ++ bs) =
      countSteps step p s as + countSteps step p (run step s as) bs := by
  induction as generalizing s with
  | nil => simp [countSteps]
  | cons a as ih => simp [countSteps, ih, Nat.add_assoc]

theorem countSteps_concat (step : σ → α → σ) (p : σ → α → Bool) (s : σ) (as : List α) (a : α) :
    countSteps step p s (as ++ [a]) =
      countSteps step p s as + if p (run step s as) a then 1 else 0 := by
  simp [countSteps_append, countSteps]

end Sluicio.Lib
