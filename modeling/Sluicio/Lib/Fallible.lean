import Mathlib.Data.List.Basic

/-!
# Fallible computations

Inversion lemmas for `Except`, and reads that may fail.  A store is a value that
holds rows, together with a map `faults` that says which of its queries fail and
with which error; `readRows` is one query.
-/

namespace Sluicio.Lib

universe u

variable {ε κ ρ : Type*} {α β : Type u} {out : List α} {x : Except ε α}

theorem bind_eq_ok {f : α → Except ε β} {b : β} :
    (x >>= f) = .ok b ↔ ∃ a, x = .ok a ∧ f a = .ok b := by
  cases x with
  | error e => simp [bind, Except.bind]
  | ok a => simp [bind, Except.bind]

variable {a : α} {rs : List ρ} {f : ρ → Except ε (List α)}

@[simp] theorem pure_eq_ok {b : α} : (pure a : Except ε α) = .ok b ↔ a = b := by
  simp [pure, Except.pure]

theorem mapError_eq_ok {ε' : Type*} {f : ε → ε'} : x.mapError f = .ok a ↔ x = .ok a := by
  cases x <;> simp [Except.mapError]

/-- Run query `q` for `rows`, failing when the store's fault map says so. -/
def readRows (faults : κ → Option ε) (q : κ) (rows : α) : Except ε α :=
  match faults q with
  | some e => .error e
  | none => .ok rows

@[simp] theorem readRows_eq_ok {faults : κ → Option ε} {q : κ} {rows rows' : α} :
    readRows faults q rows = .ok rows' ↔ faults q = none ∧ rows = rows' := by
  unfold readRows
  cases faults q <;> simp

/-- Prefix the error of a failed call, as `fmt.Errorf("…: %w", err)` does. -/
def wrapErr (msg : String) (x : Except String α) : Except String α :=
  match x with
  | .error e => .error (msg ++ e)
  | .ok a => .ok a

@[simp] theorem wrapErr_eq_ok {msg : String} {x : Except String α} :
    wrapErr msg x = .ok a ↔ x = .ok a := by
  cases x <;> simp [wrapErr]

/-- Collect the results of a fallible call over a list, stopping at the first
error. -/
def collect (f : ρ → Except ε (List α)) : List ρ → Except ε (List α)
  | [] => .ok []
  | r :: rs => do
      let xs ← f r
      let ys ← collect f rs
      return xs ++ ys

/-- **Collecting is a union.**  A successful collection holds exactly what the
single calls returned. -/
theorem mem_of_collect_eq_ok (h : collect f rs = .ok out) (a : α) :
    a ∈ out ↔ ∃ r ∈ rs, ∃ xs, f r = .ok xs ∧ a ∈ xs := by
  induction rs generalizing out with
  | nil =>
    obtain rfl : [] = out := by simpa [collect] using h
    simp
  | cons r rs ih =>
    simp only [collect, bind_eq_ok, pure_eq_ok] at h
    obtain ⟨xs, hxs, ys, hys, rfl⟩ := h
    simp [ih hys, hxs]

theorem collect_call_ok (h : collect f rs = .ok out) {r : ρ} (hr : r ∈ rs) :
    ∃ xs, f r = .ok xs := by
  induction rs generalizing out with
  | nil => cases hr
  | cons r' rs ih =>
    simp only [collect, bind_eq_ok, pure_eq_ok] at h
    obtain ⟨xs, hxs, ys, hys, rfl⟩ := h
    rcases List.mem_cons.1 hr with rfl | hr
    · exact ⟨xs, hxs⟩
    · exact ih hys hr

theorem collect_ok (h : ∀ r ∈ rs, ∃ xs, f r = .ok xs) : ∃ out, collect f rs = .ok out := by
  induction rs with
  | nil => exact ⟨[], rfl⟩
  | cons r rs ih =>
    obtain ⟨xs, hxs⟩ := h r (by simp)
    obtain ⟨ys, hys⟩ := ih fun r' hr' => h r' (by simp [hr'])
    exact ⟨xs ++ ys, by simp [collect, hxs, hys, bind, Except.bind, pure, Except.pure]⟩

end Sluicio.Lib
