import Mathlib.Algebra.Order.Field.Basic
import Mathlib.Data.List.Pairwise
import Mathlib.Tactic.Linarith
import Mathlib.Tactic.Ring

/-!
# Token buckets

A bucket fills at a steady rate up to a ceiling, and every call that is let through takes one
token.  Whatever the calls and their times, a stretch of time lets through no more than the
ceiling and what flows in during the stretch.
-/

namespace Sluicio.Lib

variable {K : Type*} [Field K] [LinearOrder K]

/-- The tokens of a bucket as of an instant. -/
structure Bucket (K : Type*) where
  level : K
  stamp : K

namespace Bucket

variable {rate burst : K} {b : Bucket K} {t u : K}

/-- The tokens at a later instant. -/
def available (rate burst : K) (b : Bucket K) (t : K) : K :=
  min burst (b.level + rate * (t - b.stamp))

/-- A call: whether a token is taken, and what is left. -/
def take (rate burst : K) (b : Bucket K) (t : K) : Bool × Bucket K :=
  if 1 ≤ b.available rate burst t then (true, ⟨b.available rate burst t - 1, t⟩)
  else (false, ⟨b.available rate burst t, t⟩)

/-- The calls of a run, each with whether it is let through. -/
def decisions (rate burst : K) : Bucket K → List K → List (K × Bool)
  | _, [] => []
  | b, t :: ts => (t, (b.take rate burst t).1) :: decisions rate burst (b.take rate burst t).2 ts

/-- Between empty and full, at an instant that is over. -/
structure Sound (burst now : K) (b : Bucket K) : Prop where
  nonneg : 0 ≤ b.level
  le_burst : b.level ≤ burst
  stamp_le : b.stamp ≤ now

/-- The calls that are let through from `lo` to `hi`. -/
def granted (lo hi : K) (ds : List (K × Bool)) : Nat :=
  ds.countP fun d => lo ≤ d.1 && d.1 ≤ hi && d.2

theorem available_le : b.available rate burst t ≤ burst := min_le_left _ _

theorem available_self (h : b.level ≤ burst) : b.available rate burst b.stamp = b.level := by
  simp [available, h]

theorem take_of_le (h : 1 ≤ b.available rate burst t) :
    b.take rate burst t = (true, ⟨b.available rate burst t - 1, t⟩) := if_pos h

theorem take_of_lt (h : b.available rate burst t < 1) :
    b.take rate burst t = (false, ⟨b.available rate burst t, t⟩) := if_neg (not_le.mpr h)

theorem Sound.later (h : b.Sound burst t) (htu : t ≤ u) : b.Sound burst u :=
  ⟨h.nonneg, h.le_burst, h.stamp_le.trans htu⟩

variable {hi lo : K} {ts : List K}

theorem granted_early (h : t < lo) :
    granted lo hi (decisions rate burst b (t :: ts)) =
      granted lo hi (decisions rate burst (b.take rate burst t).2 ts) := by
  simp [granted, decisions, not_le.mpr h]

theorem granted_late (h : ∀ u ∈ ts, hi < u) : granted lo hi (decisions rate burst b ts) = 0 := by
  induction ts generalizing b with
  | nil => rfl
  | cons u ts ih =>
    have hu : ¬u ≤ hi := not_le.mpr (h u (by simp))
    have hrest := ih (b := (b.take rate burst u).2) fun v hv => h v (by simp [hv])
    unfold granted at hrest
    simp [granted, decisions, hu, hrest]

theorem granted_cons_le :
    granted lo hi (decisions rate burst b (t :: ts)) ≤
      granted lo hi (decisions rate burst (b.take rate burst t).2 ts) +
        (if (b.take rate burst t).1 then 1 else 0) := by
  simp only [granted, decisions, List.countP_cons]
  cases (b.take rate burst t).1 with
  | false => simp
  | true => split <;> simp

variable [IsStrictOrderedRing K]

theorem available_nonneg (hrate : 0 ≤ rate) (hburst : 0 ≤ burst) (h : b.Sound burst t) :
    0 ≤ b.available rate burst t := by
  have hflow : 0 ≤ rate * (t - b.stamp) := mul_nonneg hrate (sub_nonneg.mpr h.stamp_le)
  have hlevel := h.nonneg
  apply le_min hburst
  linarith

theorem available_le_add (htu : t ≤ u) (hrate : 0 ≤ rate) :
    b.available rate burst u ≤ b.available rate burst t + rate * (u - t) := by
  have hflow : 0 ≤ rate * (u - t) := mul_nonneg hrate (sub_nonneg.mpr htu)
  have hsplit : rate * (u - b.stamp) = rate * (t - b.stamp) + rate * (u - t) := by ring
  unfold available
  rcases le_total burst (b.level + rate * (t - b.stamp)) with hfull | hfull
  · rw [min_eq_left hfull]
    exact (min_le_left _ _).trans (by linarith)
  · rw [min_eq_right hfull]
    exact (min_le_right _ _).trans (by linarith)

theorem Sound.take (hrate : 0 ≤ rate) (hburst : 0 ≤ burst) (h : b.Sound burst t) :
    (b.take rate burst t).2.Sound burst t := by
  have hle : b.available rate burst t ≤ burst := available_le
  have hnonneg := available_nonneg hrate hburst h
  by_cases hone : 1 ≤ b.available rate burst t
  · rw [take_of_le hone]
    exact ⟨sub_nonneg.mpr hone, (sub_le_self _ zero_le_one).trans hle, le_rfl⟩
  · rw [take_of_lt (not_le.mp hone)]
    exact ⟨hnonneg, hle, le_rfl⟩

theorem available_take (h : b.Sound burst t) (hrate : 0 ≤ rate) (hburst : 0 ≤ burst) :
    (b.take rate burst t).2.available rate burst t +
        (if (b.take rate burst t).1 then 1 else 0) = b.available rate burst t := by
  have hlevel : (b.take rate burst t).2.available rate burst (b.take rate burst t).2.stamp =
      (b.take rate burst t).2.level := available_self (h.take hrate hburst).le_burst
  by_cases hone : 1 ≤ b.available rate burst t
  · rw [take_of_le hone] at hlevel ⊢
    show available rate burst _ t + 1 = _
    rw [hlevel]
    ring
  rw [take_of_lt (not_le.mp hone)] at hlevel ⊢
  show available rate burst _ t + 0 = _
  rw [hlevel]
  ring

theorem granted_le_available (hrate : 0 ≤ rate) (hburst : 0 ≤ burst) (hsound : b.Sound burst t)
    (hhi : t ≤ hi) (hlater : ∀ u ∈ ts, t ≤ u) (hsorted : ts.Pairwise (· ≤ ·)) :
    (granted lo hi (decisions rate burst b ts) : K) ≤
      b.available rate burst t + rate * (hi - t) := by
  have hlevel := available_nonneg hrate hburst hsound
  have hflow : 0 ≤ rate * (hi - t) := mul_nonneg hrate (sub_nonneg.mpr hhi)
  induction ts generalizing b t with
  | nil => simpa [granted, decisions] using add_nonneg hlevel hflow
  | cons u ts ih =>
    have htu : t ≤ u := hlater u (by simp)
    have hnext := List.pairwise_cons.mp hsorted
    rcases lt_or_ge hi u with hlate | hin
    · rw [granted_late, Nat.cast_zero]
      · exact add_nonneg hlevel hflow
      · intro v hv
        rcases List.mem_cons.mp hv with rfl | hv
        · exact hlate
        · exact hlate.trans_le (hnext.1 v hv)
    · have hsu := hsound.later htu
      have hafter : (b.take rate burst u).2.Sound burst u := hsu.take hrate hburst
      have hrest : (granted lo hi (decisions rate burst (b.take rate burst u).2 ts) : K) ≤
          (b.take rate burst u).2.available rate burst u + rate * (hi - u) :=
        ih hafter hin hnext.1 hnext.2 (available_nonneg hrate hburst hafter)
          (mul_nonneg hrate (sub_nonneg.mpr hin))
      have hcall : (granted lo hi (decisions rate burst b (u :: ts)) : K) ≤
          (granted lo hi (decisions rate burst (b.take rate burst u).2 ts) : K) +
            (if (b.take rate burst u).1 then 1 else 0) := by
        have hcount : granted lo hi (decisions rate burst b (u :: ts)) ≤
            granted lo hi (decisions rate burst (b.take rate burst u).2 ts) +
              (if (b.take rate burst u).1 then 1 else 0) := granted_cons_le
        exact_mod_cast hcount
      calc (granted lo hi (decisions rate burst b (u :: ts)) : K)
          ≤ (b.take rate burst u).2.available rate burst u + rate * (hi - u) +
              (if (b.take rate burst u).1 then 1 else 0) := hcall.trans (by linarith)
        _ = b.available rate burst u + rate * (hi - u) := by
            rw [← available_take hsu hrate hburst]
            ring
        _ ≤ b.available rate burst t + rate * (u - t) + rate * (hi - u) := by
            have hgain : b.available rate burst u ≤
                b.available rate burst t + rate * (u - t) := available_le_add htu hrate
            linarith
        _ = b.available rate burst t + rate * (hi - t) := by ring

/-- **A stretch of time lets through at most the ceiling and what flows in during it.** -/
theorem granted_le (hrate : 0 ≤ rate) (hburst : 0 ≤ burst) (hlohi : lo ≤ hi)
    (hsound : b.Sound burst t) (hlater : ∀ u ∈ ts, t ≤ u) (hsorted : ts.Pairwise (· ≤ ·)) :
    (granted lo hi (decisions rate burst b ts) : K) ≤ burst + rate * (hi - lo) := by
  have hflow : 0 ≤ rate * (hi - lo) := mul_nonneg hrate (sub_nonneg.mpr hlohi)
  induction ts generalizing b t with
  | nil => simpa [granted, decisions] using add_nonneg hburst hflow
  | cons u ts ih =>
    have htu : t ≤ u := hlater u (by simp)
    have hnext := List.pairwise_cons.mp hsorted
    rcases lt_or_ge u lo with hearly | hin
    · rw [granted_early hearly]
      exact ih ((hsound.later htu).take hrate hburst) hnext.1 hnext.2
    rcases lt_or_ge hi u with hlate | huhi
    · rw [granted_late, Nat.cast_zero]
      · exact add_nonneg hburst hflow
      · intro v hv
        rcases List.mem_cons.mp hv with rfl | hv
        · exact hlate
        · exact hlate.trans_le (hnext.1 v hv)
    · -- the first call of the stretch finds a full bucket at most
      have hwindow : (granted lo hi (decisions rate burst b (u :: ts)) : K) ≤
          b.available rate burst u + rate * (hi - u) :=
        granted_le_available hrate hburst (hsound.later htu) huhi (by simpa using hnext.1)
          hsorted
      have hfull : b.available rate burst u ≤ burst := available_le
      have hlate : rate * (hi - u) ≤ rate * (hi - lo) :=
        mul_le_mul_of_nonneg_left (by linarith) hrate
      linarith

end Bucket

end Sluicio.Lib
