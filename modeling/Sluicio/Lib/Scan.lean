import Mathlib.Data.List.Basic

/-!
# Leftmost matches

The matches of a pattern in a text, as a search for all of them reports them: from the left, and
each after the end of the one before.  `Scans` says what a text is made of, and `scan` reads it
off.
-/

namespace Sluicio.Lib

variable {α β : Type*}

/-- A part of a text: an element that no match takes, or a match. -/
inductive Piece (α β : Type*) where
  | plain (a : α)
  | hit (b : β)

/-- What matches at the front of a text, and how many elements it takes after the first. -/
abbrev Matcher (α β : Type*) := List α → Option (β × Nat)

/-- The match of a part, if it is one. -/
def Piece.hit? : Piece α β → Option β
  | plain _ => none
  | hit b => some b

/-- The parts of a text whose first `n` elements belong to the match before. -/
def scan (m : Matcher α β) : Nat → List α → List (Piece α β)
  | _, [] => []
  | n + 1, _ :: as => scan m n as
  | 0, a :: as =>
    match m (a :: as) with
    | some (b, n) => .hit b :: scan m n as
    | none => .plain a :: scan m 0 as

/-- The text is made of these parts. -/
inductive Scans (m : Matcher α β) : List α → List (Piece α β) → Prop where
  | nil : Scans m [] []
  | plain {a : α} {as : List α} {ps : List (Piece α β)} (hnone : m (a :: as) = none)
      (hrest : Scans m as ps) : Scans m (a :: as) (.plain a :: ps)
  | hit {a : α} {w as : List α} {b : β} {ps : List (Piece α β)}
      (hsome : m (a :: (w ++ as)) = some (b, w.length)) (hrest : Scans m as ps) :
      Scans m (a :: (w ++ as)) (.hit b :: ps)

variable {m : Matcher α β} {as : List α} {ps : List (Piece α β)}

theorem scan_eq_scan_drop (m : Matcher α β) (n : Nat) (as : List α) :
    scan m n as = scan m 0 (as.drop n) := by
  induction as generalizing n with
  | nil =>
    rw [List.drop_nil]
    cases n <;> rfl
  | cons a as ih =>
    cases n with
    | zero => rfl
    | succ n => exact ih n

theorem scan_of_none {a : α} (h : m (a :: as) = none) :
    scan m 0 (a :: as) = .plain a :: scan m 0 as := by
  rw [scan, h]

theorem scan_of_some {a : α} {b : β} {n : Nat} (h : m (a :: as) = some (b, n)) :
    scan m 0 (a :: as) = .hit b :: scan m 0 (as.drop n) := by
  rw [scan, h, ← scan_eq_scan_drop]

theorem scans_scan (hfits : ∀ as b n, m as = some (b, n) → n < as.length) (as : List α) :
    Scans m as (scan m 0 as) := by
  -- the rest after a match is shorter, so the induction is on a bound of the length
  suffices h : ∀ k, ∀ as : List α, as.length ≤ k → Scans m as (scan m 0 as) from
    h as.length as (Nat.le_refl _)
  intro k
  induction k with
  | zero =>
    intro as hk
    obtain rfl : as = [] := List.eq_nil_of_length_eq_zero (by omega)
    exact .nil
  | succ k ih =>
    intro as hk
    cases as with
    | nil => exact .nil
    | cons a as =>
      rw [List.length_cons] at hk
      cases hm : m (a :: as) with
      | none =>
        rw [scan_of_none hm]
        exact .plain hm (ih as (by omega))
      | some hit =>
        obtain ⟨b, n⟩ := hit
        have hn := hfits _ _ _ hm
        rw [List.length_cons] at hn
        have htake : (as.take n).length = n := by
          rw [List.length_take]
          omega
        have hrest : Scans m (as.drop n) (scan m 0 (as.drop n)) := by
          apply ih
          rw [List.length_drop]
          omega
        have hparts : Scans m (a :: (as.take n ++ as.drop n)) (.hit b :: scan m 0 (as.drop n)) := by
          apply Scans.hit _ hrest
          rw [List.take_append_drop, htake, hm]
        rw [List.take_append_drop] at hparts
        rw [scan_of_some hm]
        exact hparts

theorem Scans.matches_of_hit (h : Scans m as ps) {b : β} (hb : Piece.hit b ∈ ps) :
    ∃ pre suf n, as = pre ++ suf ∧ m suf = some (b, n) := by
  induction h with
  | nil => exact absurd hb List.not_mem_nil
  | @plain a as ps hnone hrest ih =>
    rw [List.mem_cons] at hb
    cases hb with
    | inl heq => cases heq
    | inr hmem =>
      obtain ⟨pre, suf, n, rfl, hm⟩ := ih hmem
      exact ⟨a :: pre, suf, n, rfl, hm⟩
  | @hit a w as c ps hsome hrest ih =>
    rw [List.mem_cons] at hb
    cases hb with
    | inl heq =>
      cases heq
      exact ⟨[], _, _, rfl, hsome⟩
    | inr hmem =>
      obtain ⟨pre, suf, n, rfl, hm⟩ := ih hmem
      refine ⟨a :: (w ++ pre), suf, n, ?_, hm⟩
      rw [List.cons_append, List.append_assoc]

end Sluicio.Lib
