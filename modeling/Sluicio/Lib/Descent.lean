import Mathlib.Data.List.Perm.Subperm

/-!
# Level-by-level descent in a graph given by its edges

A graph is a list of edges `(child, parent)`.  `descend edges n anchors` starts
from the anchors and adds one level of children `n` times, keeping the newest
level as the frontier.  `Trail edges vs a c` is a way down from `a` to `c` that
enters the nodes `vs`, the last one first.
-/

namespace Sluicio.Lib

variable {ν : Type*}

/-- `c` is reached from `a` by entering the nodes `vs`, the last one first. -/
inductive Trail (edges : List (ν × ν)) : List ν → ν → ν → Prop where
  | here (a : ν) : Trail edges [] a a
  | down {vs : List ν} {a b c : ν} (above : Trail edges vs a b)
      (edge : (c, b) ∈ edges) : Trail edges (c :: vs) a c

/-- `c` is `a` or below it, at most `n` edges down. -/
def Below (edges : List (ν × ν)) (n : Nat) (a c : ν) : Prop :=
  ∃ vs : List ν, vs.length ≤ n ∧ Trail edges vs a c

variable {n : Nat} {c a : ν} {vs : List ν} {edges : List (ν × ν)}

theorem Below.mono {m : Nat} (h : Below edges n a c) (hnm : n ≤ m) : Below edges m a c := by
  obtain ⟨vs, hlen, trail⟩ := h
  exact ⟨vs, Nat.le_trans hlen hnm, trail⟩

theorem Below.here (edges : List (ν × ν)) (n : Nat) (a : ν) : Below edges n a a :=
  ⟨[], Nat.zero_le n, .here a⟩

theorem Trail.subset (h : Trail edges vs a c) : vs ⊆ edges.map Prod.fst := by
  induction h with
  | here a => exact List.nil_subset _
  | down above edge ih =>
    exact List.cons_subset.2 ⟨List.mem_map.2 ⟨_, edge, rfl⟩, ih⟩

/-- A trail that enters `v` can be cut off where it first does. -/
theorem Trail.cut {v : ν} (h : Trail edges vs a c) (hv : v ∈ vs) :
    ∃ ws, (v :: ws) <:+ vs ∧ Trail edges (v :: ws) a v := by
  induction h with
  | here a => exact absurd hv List.not_mem_nil
  | @down vs a b c above edge ih =>
    by_cases hvc : v = c
    · subst hvc
      exact ⟨vs, List.suffix_refl _, .down above edge⟩
    · have hmem : v ∈ vs := by simpa [hvc] using hv
      obtain ⟨ws, hsuffix, htrail⟩ := ih hmem
      exact ⟨ws, hsuffix.trans (List.suffix_cons c vs), htrail⟩

theorem Trail.prune (h : Trail edges vs a c) :
    ∃ ws, ws.Nodup ∧ ws.length ≤ vs.length ∧ Trail edges ws a c := by
  induction h with
  | here a => exact ⟨[], List.nodup_nil, Nat.le_refl _, .here a⟩
  | @down vs a b c above edge ih =>
    obtain ⟨ws, hnodup, hlen, htrail⟩ := ih
    by_cases hc : c ∈ ws
    · obtain ⟨us, hsuffix, hcut⟩ := htrail.cut hc
      have hle := hsuffix.length_le
      exact ⟨c :: us, hnodup.sublist hsuffix.sublist,
        by simp only [List.length_cons] at hle ⊢; omega, hcut⟩
    · exact ⟨c :: ws, List.nodup_cons.2 ⟨hc, hnodup⟩,
        by simp only [List.length_cons]; omega, .down htrail edge⟩

/-- `c` is `a` or a descendant of it: the closure of the edges. -/
def Descends (edges : List (ν × ν)) : ν → ν → Prop :=
  Relation.ReflTransGen fun b c => (c, b) ∈ edges

theorem Trail.descends (h : Trail edges vs a c) : Descends edges a c := by
  induction h with
  | here a => exact .refl
  | down above edge ih => exact ih.tail edge

theorem Descends.trail {edges : List (ν × ν)} {a c : ν} (h : Descends edges a c) :
    ∃ vs, Trail edges vs a c := by
  induction h with
  | refl => exact ⟨[], .here a⟩
  | tail above edge ih =>
    obtain ⟨vs, trail⟩ := ih
    exact ⟨_, trail.down edge⟩

/-- The graph is nested at most `n` deep: nothing is more than `n` edges below what it
descends from. -/
def NestedWithin (edges : List (ν × ν)) (n : Nat) : Prop :=
  ∀ a c, Descends edges a c → Below edges n a c

theorem NestedWithin.below_iff (h : NestedWithin edges n) :
    Below edges n a c ↔ Descends edges a c := by
  constructor
  · intro hbelow
    obtain ⟨vs, _, trail⟩ := hbelow
    exact trail.descends
  · exact h a c

theorem Below.min_edges (h : Below edges n a c) : Below edges (min edges.length n) a c := by
  obtain ⟨vs, hlen, trail⟩ := h
  obtain ⟨ws, hnodup, hshort, pruned⟩ := trail.prune
  have hfew : ws.length ≤ edges.length := by
    have := (hnodup.subperm pruned.subset).length_le
    rwa [List.length_map] at this
  exact ⟨ws, by omega, pruned⟩

theorem nestedWithin_length (edges : List (ν × ν)) : NestedWithin edges edges.length := by
  intro a c h
  obtain ⟨vs, trail⟩ := h.trail
  have hbelow : Below edges vs.length a c := ⟨vs, Nat.le_refl _, trail⟩
  exact hbelow.min_edges.mono (Nat.min_le_left _ _)

section Descend

variable [DecidableEq ν]

def children (edges : List (ν × ν)) (frontier : List ν) : List ν :=
  (edges.filter fun e => e.2 ∈ frontier).map Prod.fst

/-- One level: the nodes seen so far and the newest of them. -/
def grow (edges : List (ν × ν)) (acc : List ν × List ν) : List ν × List ν :=
  (acc.1 ++ children edges acc.2, children edges acc.2)

/-- `n` levels from the anchors: everything seen, and the newest level. -/
def levels (edges : List (ν × ν)) (n : Nat) (anchors : List ν) : List ν × List ν :=
  (List.range n).foldl (fun acc _ => grow edges acc) (anchors, anchors)

/-- Everything at most `n` levels below the anchors. -/
def descend (edges : List (ν × ν)) (n : Nat) (anchors : List ν) : List ν :=
  (levels edges n anchors).1

theorem mem_children {edges : List (ν × ν)} {frontier : List ν} {c : ν} :
    c ∈ children edges frontier ↔ ∃ b ∈ frontier, (c, b) ∈ edges := by
  simp only [children, List.mem_map, List.mem_filter, decide_eq_true_eq, Prod.exists,
    exists_and_right, exists_eq_right]
  exact exists_congr fun b => and_comm

theorem levels_succ (edges : List (ν × ν)) (n : Nat) (anchors : List ν) :
    levels edges (n + 1) anchors = grow edges (levels edges n anchors) := by
  simp [levels, List.range_succ]

variable {anchors : List ν}

/-- The newest level after `n` steps is what `n` edges lead to. -/
theorem mem_frontier {edges : List (ν × ν)} {n : Nat} {c : ν} :
    c ∈ (levels edges n anchors).2 ↔
      ∃ a ∈ anchors, ∃ vs : List ν, vs.length = n ∧ Trail edges vs a c := by
  induction n generalizing c with
  | zero =>
    constructor
    · intro hc
      exact ⟨c, hc, [], rfl, .here c⟩
    · intro ⟨a, ha, vs, hlen, trail⟩
      obtain rfl : vs = [] := List.length_eq_zero_iff.1 hlen
      cases trail with
      | here => exact ha
  | succ n ih =>
    rw [levels_succ]
    show c ∈ children edges (levels edges n anchors).2 ↔ _
    rw [mem_children]
    constructor
    · intro ⟨b, hb, edge⟩
      obtain ⟨a, ha, vs, hlen, trail⟩ := ih.1 hb
      exact ⟨a, ha, c :: vs, by simp [hlen], .down trail edge⟩
    · intro ⟨a, ha, vs, hlen, trail⟩
      cases trail with
      | here => simp at hlen
      | down above edge =>
        exact ⟨_, ih.2 ⟨a, ha, _, by simpa using hlen, above⟩, edge⟩

/-- The descent visits exactly what is at most `n` edges below an anchor. -/
theorem mem_descend {edges : List (ν × ν)} {n : Nat} {c : ν} :
    c ∈ descend edges n anchors ↔ ∃ a ∈ anchors, Below edges n a c := by
  induction n with
  | zero =>
    constructor
    · intro hc
      exact ⟨c, hc, .here edges 0 c⟩
    · intro ⟨a, ha, vs, hlen, trail⟩
      obtain rfl : vs = [] := List.length_eq_zero_iff.1 (by omega)
      cases trail with
      | here => exact ha
  | succ n ih =>
    have hsplit : c ∈ descend edges (n + 1) anchors ↔
        c ∈ descend edges n anchors ∨ c ∈ (levels edges (n + 1) anchors).2 := by
      simp only [descend, levels_succ, grow, List.mem_append]
    rw [hsplit, ih, mem_frontier]
    constructor
    · rintro (⟨a, ha, hbelow⟩ | ⟨a, ha, vs, hlen, trail⟩)
      · exact ⟨a, ha, hbelow.mono (Nat.le_succ n)⟩
      · exact ⟨a, ha, vs, by omega, trail⟩
    · intro ⟨a, ha, vs, hlen, trail⟩
      by_cases hlast : vs.length = n + 1
      · exact .inr ⟨a, ha, vs, hlast, trail⟩
      · exact .inl ⟨a, ha, vs, by omega, trail⟩

theorem mem_descend_min {edges : List (ν × ν)} {cap : Nat} {c : ν} :
    c ∈ descend edges (min edges.length cap) anchors ↔ ∃ a ∈ anchors, Below edges cap a c := by
  rw [mem_descend]
  constructor
  · intro ⟨a, ha, hbelow⟩
    exact ⟨a, ha, hbelow.mono (Nat.min_le_right _ _)⟩
  · intro ⟨a, ha, hbelow⟩
    exact ⟨a, ha, hbelow.min_edges⟩

end Descend

end Sluicio.Lib
