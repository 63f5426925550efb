import Mathlib.Data.List.Range

/-!
# Work in batches

A long list is worked on in batches of one size, and the results are collected by key.  Cutting
the list changes nothing of what is collected, and with distinct keys each entry keeps its own
result.
-/

namespace Sluicio.Lib

variable {α β κ : Type*}

/-- The batches of `n` entries, the last one with what is left. -/
def batches (n : Nat) (xs : List α) : List (List α) :=
  (List.range ((xs.length + n - 1) / n)).map fun i => (xs.drop (i * n)).take n

theorem flatten_batches_range (n k : Nat) (xs : List α) :
    ((List.range k).map fun i => (xs.drop (i * n)).take n).flatten = xs.take (k * n) := by
  induction k with
  | zero => simp
  | succ k ih =>
    rw [List.range_succ, List.map_append, List.flatten_append, ih]
    show xs.take (k * n) ++ [(xs.drop (k * n)).take n].flatten = _
    rw [List.flatten_singleton, ← List.take_add, Nat.succ_mul]

theorem flatten_batches {n : Nat} (hn : 0 < n) (xs : List α) : (batches n xs).flatten = xs := by
  unfold batches
  rw [flatten_batches_range]
  apply List.take_of_length_le
  have hdiv := Nat.div_add_mod (xs.length + n - 1) n
  have hmod := Nat.mod_lt (xs.length + n - 1) hn
  rw [Nat.mul_comm] at hdiv
  omega

/-! ## Collecting -/

section Collect

variable [DecidableEq κ] (key : α → κ) (result : α → β)

/-- The results by key, a later one in the place of an earlier one. -/
def collectByKey (out : κ → Option β) (xs : List α) : κ → Option β :=
  xs.foldl (fun out x => Function.update out (key x) (some (result x))) out

variable {key result}

theorem collectByKey_of_notMem {k : κ} {xs : List α} (h : k ∉ xs.map key) (out : κ → Option β) :
    collectByKey key result out xs k = out k := by
  induction xs generalizing out with
  | nil => rfl
  | cons x xs ih =>
    rw [List.map_cons, List.mem_cons, not_or] at h
    show collectByKey key result (Function.update out (key x) (some (result x))) xs k = _
    rw [ih h.2, Function.update_of_ne h.1]

theorem collectByKey_of_mem {x : α} {xs : List α} (hkeys : (xs.map key).Nodup) (hx : x ∈ xs)
    (out : κ → Option β) : collectByKey key result out xs (key x) = some (result x) := by
  induction xs generalizing out with
  | nil => cases hx
  | cons y xs ih =>
    rw [List.map_cons, List.nodup_cons] at hkeys
    show collectByKey key result (Function.update out (key y) (some (result y))) xs (key x) = _
    cases hx with
    | head => rw [collectByKey_of_notMem hkeys.1, Function.update_self]
    | tail _ hx => exact ih hkeys.2 hx _

theorem foldl_collectByKey (bs : List (List α)) (out : κ → Option β) :
    bs.foldl (collectByKey key result) out = collectByKey key result out bs.flatten := by
  induction bs generalizing out with
  | nil => rfl
  | cons b bs ih =>
    rw [List.foldl_cons, ih, List.flatten_cons]
    unfold collectByKey
    rw [List.foldl_append]

end Collect

end Sluicio.Lib
