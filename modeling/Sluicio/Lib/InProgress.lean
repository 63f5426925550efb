import Sluicio.Lib.Rows

/-!
# Requests in progress

Requests run statement by statement, and between two statements of one the others run theirs.
Each request has a number of its own and a stage, the point it has come to.  `put` moves a
request on, `drop` ends it, and what holds of the stages of all requests is kept when it holds
of the new stage.
-/

namespace Sluicio.Lib

/-- The requests in progress, by their numbers. -/
structure InProgress (σ : Type*) where
  calls : List (Nat × σ)
  nodup : (calls.map Prod.fst).Nodup

namespace InProgress

variable {σ : Type*}

instance : EmptyCollection (InProgress σ) := ⟨⟨[], List.nodup_nil⟩⟩

def stage? (p : InProgress σ) (n : Nat) : Option σ := p.calls.lookup n

/-- The request ends. -/
def drop (p : InProgress σ) (n : Nat) : InProgress σ where
  calls := p.calls.filter fun c => c.1 ≠ n
  nodup := p.nodup.sublist (List.filter_sublist.map Prod.fst)

theorem drop_fst_notMem (p : InProgress σ) (n : Nat) : n ∉ (p.drop n).calls.map Prod.fst := by
  intro h
  obtain ⟨c, hc, rfl⟩ := List.mem_map.1 h
  exact absurd rfl (of_decide_eq_true (List.mem_filter.1 hc).2)

/-- The request comes to a stage. -/
def put (p : InProgress σ) (n : Nat) (st : σ) : InProgress σ where
  calls := (n, st) :: (p.drop n).calls
  nodup := List.nodup_cons.2 ⟨p.drop_fst_notMem n, (p.drop n).nodup⟩

variable {p : InProgress σ} {P : σ → Prop} {st : σ} {n : Nat}

theorem stage?_eq_some : p.stage? n = some st ↔ (n, st) ∈ p.calls :=
  lookup_eq_some_of_nodup p.nodup

variable {R : σ → σ → Prop} {c : Nat × σ}

theorem mem_drop : c ∈ (p.drop n).calls ↔ c ∈ p.calls ∧ c.1 ≠ n := by
  simp [drop]

theorem mem_put : c ∈ (p.put n st).calls ↔ c = (n, st) ∨ (c ∈ p.calls ∧ c.1 ≠ n) := by
  rw [← mem_drop]
  exact List.mem_cons

/-- Every request is at a stage of this kind. -/
def All (p : InProgress σ) (P : σ → Prop) : Prop := ∀ c ∈ p.calls, P c.2

instance (p : InProgress σ) (P : σ → Prop) [DecidablePred P] : Decidable (p.All P) :=
  inferInstanceAs (Decidable (∀ c ∈ p.calls, P c.2))

theorem All.of_stage? (h : p.All P) (hst : p.stage? n = some st) : P st :=
  h (n, st) (stage?_eq_some.1 hst)

theorem All.drop (h : p.All P) (n : Nat) : (p.drop n).All P :=
  fun c hc => h c (mem_drop.1 hc).1

theorem All.put (h : p.All P) (n : Nat) (hst : P st) : (p.put n st).All P := by
  intro c hc
  cases mem_put.1 hc with
  | inl heq => exact heq ▸ hst
  | inr hold => exact h c hold.1

theorem All.imp {Q : σ → Prop} (h : p.All P) (himp : ∀ st, P st → Q st) : p.All Q :=
  fun c hc => himp c.2 (h c hc)

theorem all_empty (P : σ → Prop) : (∅ : InProgress σ).All P := fun _ hc => nomatch hc

/-! ## What two requests do not share -/

/-- The stages of two different requests are related. -/
def Apart (p : InProgress σ) (R : σ → σ → Prop) : Prop :=
  ∀ c ∈ p.calls, ∀ d ∈ p.calls, c.1 ≠ d.1 → R c.2 d.2

theorem apart_empty (R : σ → σ → Prop) : (∅ : InProgress σ).Apart R := fun _ hc => nomatch hc

theorem Apart.drop (h : p.Apart R) (n : Nat) : (p.drop n).Apart R :=
  fun c hc d hd => h c (mem_drop.1 hc).1 d (mem_drop.1 hd).1

theorem Apart.put (h : p.Apart R) (hnew : ∀ c ∈ p.calls, c.1 ≠ n → R st c.2 ∧ R c.2 st) :
    (p.put n st).Apart R := by
  intro c hc d hd hne
  cases mem_put.1 hc with
  | inl hcn =>
    subst hcn
    cases mem_put.1 hd with
    | inl hdn => exact absurd (congrArg Prod.fst hdn).symm hne
    | inr hd => exact (hnew d hd.1 hd.2).1
  | inr hc =>
    cases mem_put.1 hd with
    | inl hdn =>
      subst hdn
      exact (hnew c hc.1 hc.2).2
    | inr hd => exact h c hc.1 d hd.1 hne

end InProgress

end Sluicio.Lib
