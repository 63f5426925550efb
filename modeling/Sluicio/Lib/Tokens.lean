import Mathlib.Data.List.Basic

/-!
# Tokens

The tokens of a text are its maximal runs of characters of a class, and `IsToken` says where
one stands: between two characters out of the class, or at an end of the text.
-/

namespace Sluicio.Lib

variable {α β : Type*} {p : α → Bool} {cs t : List α}

/-- The maximal runs of elements of the class. -/
def tokens (p : α → Bool) (cs : List α) : List (List α) :=
  (cs.splitOnP fun c => !p c).filter fun t => !t.isEmpty

/-- A run of elements of the class, with none next to it. -/
structure IsToken (p : α → Bool) (cs t : List α) : Prop where
  nonempty : t ≠ []
  inClass : ∀ c ∈ t, p c
  alone : ∃ before after, cs = before ++ t ++ after ∧
    (∀ c ∈ before.getLast?, p c = false) ∧ ∀ c ∈ after.head?, p c = false

theorem exists_first_run (p : α → Bool) (cs : List α) :
    (∀ c ∈ cs, p c) ∨
      ∃ run c rest, cs = run ++ c :: rest ∧ (∀ c ∈ run, p c) ∧ p c = false := by
  induction cs with
  | nil => exact .inl fun c hc => absurd hc List.not_mem_nil
  | cons x xs ih =>
    cases hx : p x with
    | false => exact .inr ⟨[], x, xs, rfl, fun c hc => absurd hc List.not_mem_nil, hx⟩
    | true =>
      cases ih with
      | inl hall => exact .inl (List.forall_mem_cons.2 ⟨hx, hall⟩)
      | inr h =>
        obtain ⟨run, c, rest, rfl, hrun, hc⟩ := h
        exact .inr ⟨x :: run, c, rest, rfl, List.forall_mem_cons.2 ⟨hx, hrun⟩, hc⟩

theorem IsToken.cons_after {run rest : List α} {c : α} (hc : p c = false)
    (h : IsToken p rest t) : IsToken p (run ++ c :: rest) t := by
  obtain ⟨before, after, hrest, hbefore, hafter⟩ := h.alone
  refine ⟨h.nonempty, h.inClass, run ++ c :: before, after, by simp [hrest], ?_, hafter⟩
  intro d hd
  rw [List.getLast?_append_of_ne_nil _ (List.cons_ne_nil c before)] at hd
  cases before with
  | nil =>
    obtain rfl : c = d := by simpa using hd
    exact hc
  | cons b before =>
    rw [List.getLast?_cons_cons] at hd
    exact hbefore d hd

/-- **The tokens are the runs that stand alone.** -/
theorem mem_tokens : t ∈ tokens p cs ↔ IsToken p cs t := by
  have hclass {run : List α} (hrun : ∀ c ∈ run, p c) :
      ∀ c ∈ run, (!p c) = false := fun c hc => by rw [hrun c hc, Bool.not_true]
  unfold tokens
  rw [List.mem_filter]
  constructor
  · intro h
    obtain ⟨ht, hne⟩ := h
    have hnonempty : t ≠ [] := by
      intro hnil
      simp [hnil] at hne
    induction hlen : cs.length using Nat.strongRecOn generalizing cs with
    | ind n ih =>
      cases exists_first_run p cs with
      | inl hall =>
        rw [List.splitOnP_eq_singleton (hclass hall), List.mem_singleton] at ht
        subst ht
        exact ⟨hnonempty, hall, [], [], by simp, by simp, by simp⟩
      | inr hsplit =>
        obtain ⟨run, c, rest, rfl, hrun, hc⟩ := hsplit
        rw [List.splitOnP_append_cons_of_forall_mem (hclass hrun) c
          (by rw [hc, Bool.not_false]), List.mem_cons] at ht
        cases ht with
        | inl ht =>
          subst ht
          refine ⟨hnonempty, hrun, [], c :: rest, by simp, by simp, ?_⟩
          intro d hd
          obtain rfl : c = d := by simpa using hd
          exact hc
        | inr ht =>
          have hlt : rest.length < n := by
            rw [← hlen, List.length_append, List.length_cons]
            omega
          exact (ih _ hlt ht rfl).cons_after hc
  · intro h
    obtain ⟨hnonempty, hin, before, after, rfl, hbefore, hafter⟩ := h
    refine ⟨?_, by simpa using hnonempty⟩
    have hlater : t ∈ (t ++ after).splitOnP fun c => !p c := by
      cases after with
      | nil =>
        rw [List.append_nil, List.splitOnP_eq_singleton (hclass hin)]
        exact List.mem_singleton_self t
      | cons c after =>
        rw [List.splitOnP_append_cons_of_forall_mem (hclass hin) c
          (by rw [hafter c rfl, Bool.not_false])]
        exact List.mem_cons_self
    cases List.eq_nil_or_concat before with
    | inl hnil =>
      subst hnil
      exact hlater
    | inr hconcat =>
      obtain ⟨before, c, rfl⟩ := hconcat
      have hc : p c = false := hbefore c (by simp)
      rw [List.append_assoc, List.concat_append,
        List.splitOnP_append_cons _ _ (by rw [hc, Bool.not_false])]
      exact List.mem_append_right _ hlater

end Sluicio.Lib
