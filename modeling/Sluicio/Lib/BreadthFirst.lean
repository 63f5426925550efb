import Mathlib.Data.List.Nodup

/-!
# Bounded breadth-first walks

A walk that explores a graph level by level from one vertex, and stops at a depth or at a
number of vertices.  The graph is not at hand: a frontier is turned into what it offers, the
vertices next to it and whatever else is recorded on the way.

`Explored` is what holds between two levels.  The depths it finds are distances also when the
walk is cut short: a vertex is left out only once no more may be noted, and nothing is noted
after that.
-/

namespace Sluicio.Lib

variable {α ε : Type*}

/-- A way of so many steps. -/
inductive Steps (Adj : α → α → Prop) (o : α) : Nat → α → Prop where
  | refl : Steps Adj o 0 o
  | step {n : Nat} {x y : α} : Steps Adj o n x → Adj x y → Steps Adj o (n + 1) y

/-- No way is shorter. -/
structure Distance (Adj : α → α → Prop) (o : α) (n : Nat) (x : α) : Prop where
  steps : Steps Adj o n x
  least : ∀ m, Steps Adj o m x → n ≤ m

variable {Adj : α → α → Prop} {o x y : α} {k n : Nat}

theorem Distance.origin (Adj : α → α → Prop) (o : α) : Distance Adj o 0 o :=
  ⟨.refl, fun m _ => Nat.zero_le m⟩

theorem Distance.unique (h : Distance Adj o k x) (h' : Distance Adj o n x) : k = n :=
  Nat.le_antisymm (h.least n h'.steps) (h'.least k h.steps)

theorem Distance.eq_origin (h : Distance Adj o 0 x) : x = o := by
  cases h.steps
  rfl

theorem Steps.exists_distance (h : Steps Adj o n x) : ∃ k ≤ n, Distance Adj o k x := by
  induction n using Nat.strongRecOn with
  | ind n ih =>
    by_cases hleast : ∃ m < n, Steps Adj o m x
    · obtain ⟨m, hm, hsteps⟩ := hleast
      obtain ⟨k, hk, hdistance⟩ := ih m hm hsteps
      exact ⟨k, by omega, hdistance⟩
    refine ⟨n, Nat.le_refl n, h, ?_⟩
    intro m hm
    apply Nat.le_of_not_lt
    intro hlt
    exact hleast ⟨m, hlt, hm⟩

theorem Distance.next (h : Distance Adj o k x) (hxy : Adj x y) : ∃ n ≤ k + 1, Distance Adj o n y :=
  (h.steps.step hxy).exists_distance

theorem Distance.exists_pred (h : Distance Adj o (k + 1) y) :
    ∃ x, Adj x y ∧ Distance Adj o k x := by
  obtain ⟨hsteps, hleast⟩ := h
  cases hsteps with
  | @step _ x _ hx hxy =>
    refine ⟨x, hxy, hx, ?_⟩
    intro m hm
    have hlong := hleast (m + 1) (hm.step hxy)
    omega

theorem Distance.exists_of_le (h : Distance Adj o k x) (hn : n ≤ k) : ∃ y, Distance Adj o n y := by
  induction k generalizing x with
  | zero =>
    obtain rfl : n = 0 := by omega
    exact ⟨x, h⟩
  | succ k ih =>
    by_cases hlast : n = k + 1
    · exact ⟨x, hlast ▸ h⟩
    · obtain ⟨y, -, hy⟩ := h.exists_pred
      exact ih hy (by omega)

section Walk

variable [DecidableEq α]

/-- What is noted while one frontier is explored. -/
structure Level (α : Type*) where
  depths : List (α × Nat)
  next : List α
  full : Bool

/-- A vertex that is offered: it is known, there is no room, or it is noted. -/
def Level.note (cap d : Nat) (level : Level α) (x : α) : Level α :=
  if x ∈ level.depths.map Prod.fst then level
  else if cap ≤ level.depths.length then { level with full := true }
  else { level with depths := level.depths ++ [(x, d)], next := level.next ++ [x] }

/-- Where a walk is: the depths it knows, the vertices to explore, what it recorded, and which
bound stopped it. -/
structure Walk (α ε : Type*) where
  depths : List (α × Nat)
  frontier : List α
  edges : List ε
  full : Bool
  deep : Bool

/-- One level.  On the last, a next frontier is one that the depth bound leaves unexplored. -/
def Walk.level (cap d : Nat) (last : Bool) (offer : List α → List ε × List α)
    (w : Walk α ε) : Walk α ε :=
  let offered := offer w.frontier
  let noted := offered.2.foldl (Level.note cap d) ⟨w.depths, [], w.full⟩
  { depths := noted.depths
    frontier := noted.next
    edges := w.edges ++ offered.1
    full := noted.full
    deep := w.deep || (last && !noted.next.isEmpty) }

/-- The levels that are left, from level `d` on. -/
def Walk.run (cap : Nat) (offer : List α → List ε × List α) : Nat → Nat → Walk α ε → Walk α ε
  | 0, _, w => w
  | left + 1, d, w =>
    if w.frontier.isEmpty then w
    else run cap offer left (d + 1) (w.level cap d (left == 0) offer)

def breadthFirst (cap depth : Nat) (offer : List α → List ε × List α) (o : α) : Walk α ε :=
  Walk.run cap offer depth 1 ⟨[(o, 0)], [o], [], false, false⟩

end Walk

/-! ## One level -/

/-- What holds after some of the vertices offered. -/
structure Noted (cap d : Nat) (depths : List (α × Nat)) (full : Bool) (offered : List α)
    (reached : Level α) : Prop where
  depths : reached.depths = depths ++ reached.next.map fun x => (x, d)
  nodup : (reached.depths.map Prod.fst).Nodup
  small : reached.depths.length ≤ cap
  next : ∀ x ∈ reached.next, x ∈ offered
  full : reached.full ↔ full ∨ ∃ x ∈ offered, x ∉ reached.depths.map Prod.fst
  atCap : reached.full → reached.depths.length = cap

variable {cap d : Nat} {depths : List (α × Nat)} {full : Bool} {offered : List α}
  {reached : Level α}

theorem Noted.start (hnodup : (depths.map Prod.fst).Nodup) (hsmall : depths.length ≤ cap)
    (hcap : full → depths.length = cap) : Noted cap d depths full [] ⟨depths, [], full⟩ := by
  refine ⟨(List.append_nil _).symm, hnodup, hsmall, ?_, ?_, hcap⟩
  · intro x hx
    exact absurd hx List.not_mem_nil
  · constructor
    · exact .inl
    · intro hfull
      cases hfull with
      | inl hfull => exact hfull
      | inr hleft =>
        obtain ⟨x, hx, -⟩ := hleft
        exact absurd hx List.not_mem_nil

theorem Noted.known (h : Noted cap d depths full offered reached)
    (hknown : x ∈ reached.depths.map Prod.fst) :
    Noted cap d depths full (offered ++ [x]) reached := by
  refine ⟨h.depths, h.nodup, h.small, ?_, ?_, h.atCap⟩
  · intro y hy
    exact List.mem_append_left _ (h.next y hy)
  · rw [h.full]
    apply or_congr_right
    constructor
    · intro hleft
      obtain ⟨y, hy, hnew⟩ := hleft
      exact ⟨y, List.mem_append_left _ hy, hnew⟩
    · intro hleft
      obtain ⟨y, hy, hnew⟩ := hleft
      cases List.mem_append.1 hy with
      | inl hy => exact ⟨y, hy, hnew⟩
      | inr hy =>
        rw [List.mem_singleton.1 hy] at hnew
        exact absurd hknown hnew

theorem Noted.noRoom (h : Noted cap d depths full offered reached)
    (hnew : x ∉ reached.depths.map Prod.fst) (hcap : cap ≤ reached.depths.length) :
    Noted cap d depths full (offered ++ [x]) { reached with full := true } := by
  refine ⟨h.depths, h.nodup, h.small, ?_, ?_, ?_⟩
  · intro y hy
    exact List.mem_append_left _ (h.next y hy)
  · constructor
    · intro _
      exact .inr ⟨x, List.mem_append_right _ (List.mem_singleton_self x), hnew⟩
    · intro _
      rfl
  · intro _
    exact Nat.le_antisymm h.small hcap

theorem Noted.room (h : Noted cap d depths full offered reached)
    (hnew : x ∉ reached.depths.map Prod.fst) (hroom : reached.depths.length < cap) :
    Noted cap d depths full (offered ++ [x])
      { reached with depths := reached.depths ++ [(x, d)], next := reached.next ++ [x] } := by
  have hfull : reached.full = false := by
    rw [← Bool.not_eq_true]
    intro hfull
    have hcap := h.atCap hfull
    omega
  have hnone := h.full
  rw [hfull] at hnone
  constructor
  · show reached.depths ++ [(x, d)] = depths ++ (reached.next ++ [x]).map fun x => (x, d)
    rw [h.depths, List.map_append, List.append_assoc]
    rfl
  · show ((reached.depths ++ [(x, d)]).map Prod.fst).Nodup
    rw [List.map_append, List.nodup_append']
    exact ⟨h.nodup, List.nodup_singleton x, List.disjoint_singleton.2 hnew⟩
  · show (reached.depths ++ [(x, d)]).length ≤ cap
    rw [List.length_append, List.length_singleton]
    omega
  · intro y hy
    cases List.mem_append.1 hy with
    | inl hy => exact List.mem_append_left _ (h.next y hy)
    | inr hy => exact List.mem_append_right _ hy
  · show reached.full = true ↔ full = true ∨
      ∃ y ∈ offered ++ [x], y ∉ (reached.depths ++ [(x, d)]).map Prod.fst
    rw [hfull, hnone, List.map_append]
    apply or_congr_right
    constructor
    · intro hleft
      exact absurd (hnone.2 (.inr hleft)) Bool.false_ne_true
    · intro hleft
      obtain ⟨y, hy, hout⟩ := hleft
      cases List.mem_append.1 hy with
      | inl hy => exact ⟨y, hy, fun hmem => hout (List.mem_append_left _ hmem)⟩
      | inr hy => exact absurd (List.mem_append_right _ hy) hout
  · intro htrue
    change reached.full = true at htrue
    rw [hfull] at htrue
    cases htrue

theorem Noted.note [DecidableEq α] (h : Noted cap d depths full offered reached) (x : α) :
    Noted cap d depths full (offered ++ [x]) (reached.note cap d x) := by
  unfold Level.note
  by_cases hknown : x ∈ reached.depths.map Prod.fst
  · rw [if_pos hknown]
    exact h.known hknown
  rw [if_neg hknown]
  by_cases hcap : cap ≤ reached.depths.length
  · rw [if_pos hcap]
    exact h.noRoom hknown hcap
  · rw [if_neg hcap]
    exact h.room hknown (Nat.lt_of_not_le hcap)

theorem Noted.foldl [DecidableEq α] (h : Noted cap d depths full offered reached) (xs : List α) :
    Noted cap d depths full (offered ++ xs) (xs.foldl (Level.note cap d) reached) := by
  induction xs generalizing offered reached with
  | nil =>
    rw [List.append_nil]
    exact h
  | cons x xs ih =>
    have hnext := ih (h.note x)
    rw [List.append_assoc] at hnext
    exact hnext

/-! ## The levels -/

/-- What a frontier offers: the vertices next to it, and what is recorded at its own. -/
structure Offers (offer : List α → List ε × List α) (Adj : α → α → Prop)
    (At : α → ε → Prop) : Prop where
  ids : ∀ frontier y, y ∈ (offer frontier).2 ↔ ∃ x ∈ frontier, Adj x y
  edges : ∀ frontier e, e ∈ (offer frontier).1 ↔ ∃ x ∈ frontier, At x e

/-- What holds after so many levels. -/
structure Explored (Adj : α → α → Prop) (At : α → ε → Prop) (o : α) (cap d : Nat)
    (w : Walk α ε) : Prop where
  nodup : (w.depths.map Prod.fst).Nodup
  small : w.depths.length ≤ cap
  atCap : w.full → w.depths.length = cap
  sound : ∀ x k, (x, k) ∈ w.depths → Distance Adj o k x ∧ k ≤ d
  frontier : ∀ x, x ∈ w.frontier ↔ (x, d) ∈ w.depths
  complete : w.full = false → ∀ x k, Distance Adj o k x → k ≤ d → (x, k) ∈ w.depths
  leftOut : w.full → ∃ x k, Distance Adj o k x ∧ k ≤ d ∧ x ∉ w.depths.map Prod.fst
  nearer : ∀ x k, (x, k) ∈ w.depths → ∀ y n, Distance Adj o n y → n < k → (y, n) ∈ w.depths
  edges : ∀ e, e ∈ w.edges ↔ ∃ x k, (x, k) ∈ w.depths ∧ k < d ∧ At x e

variable {At : α → ε → Prop} {offer : List α → List ε × List α} {w : Walk α ε}

theorem mem_depths_fst {depths : List (α × Nat)} (h : x ∈ depths.map Prod.fst) :
    ∃ k, (x, k) ∈ depths := by
  obtain ⟨⟨y, k⟩, hmem, rfl⟩ := List.mem_map.1 h
  exact ⟨k, hmem⟩

theorem Noted.mem_depths (h : Noted cap d depths full offered reached) :
    (x, k) ∈ reached.depths ↔ (x, k) ∈ depths ∨ (x ∈ reached.next ∧ k = d) := by
  rw [h.depths, List.mem_append]
  apply or_congr_right
  rw [List.mem_map]
  constructor
  · intro hx
    obtain ⟨y, hy, heq⟩ := hx
    cases heq
    exact ⟨hy, rfl⟩
  · intro hx
    exact ⟨x, hx.1, by rw [hx.2]⟩

theorem Noted.unknown_of_next (h : Noted cap d depths full offered reached)
    (hx : x ∈ reached.next) : x ∉ depths.map Prod.fst := by
  have hnodup := h.nodup
  rw [h.depths, List.map_append, List.map_map, List.nodup_append'] at hnodup
  intro hknown
  exact hnodup.2.2 hknown (List.mem_map.2 ⟨x, hx, rfl⟩)

theorem Noted.next_eq_nil (h : Noted cap d depths full offered reached)
    (hcap : depths.length = cap) : reached.next = [] := by
  have hlength := congrArg List.length h.depths
  rw [List.length_append, List.length_map] at hlength
  have hsmall := h.small
  apply List.eq_nil_of_length_eq_zero
  omega

section OneLevel

variable {reached : Level α}
  (hoffer : Offers offer Adj At) (h : Explored Adj At o cap d w)
  (hnoted : Noted cap (d + 1) w.depths w.full (offer w.frontier).2 reached)

include hoffer h

theorem Explored.pred_of_offered (hy : y ∈ (offer w.frontier).2) :
    ∃ x, Adj x y ∧ Distance Adj o d x := by
  obtain ⟨x, hx, hxy⟩ := (hoffer.ids _ y).1 hy
  exact ⟨x, hxy, (h.sound x d ((h.frontier x).1 hx)).1⟩

include hnoted

/-- A vertex is new to the level only when nothing was left out before it, so that every nearer
one is known. -/
theorem Explored.distance_next (hx : x ∈ reached.next) :
    w.full = false ∧ Distance Adj o (d + 1) x := by
  have hroom : w.full = false := by
    rw [← Bool.not_eq_true]
    intro hfull
    rw [hnoted.next_eq_nil (h.atCap hfull)] at hx
    exact absurd hx List.not_mem_nil
  refine ⟨hroom, ?_⟩
  obtain ⟨y, hyx, hy⟩ := h.pred_of_offered hoffer (hnoted.next x hx)
  obtain ⟨k, hk, hdistance⟩ := hy.next hyx
  by_cases hnear : k ≤ d
  · have hknown := h.complete hroom x k hdistance hnear
    exact absurd (List.mem_map_of_mem hknown) (hnoted.unknown_of_next hx)
  · obtain rfl : k = d + 1 := by omega
    exact hdistance

theorem Explored.sound_next (hx : (x, k) ∈ reached.depths) : Distance Adj o k x ∧ k ≤ d + 1 := by
  cases hnoted.mem_depths.1 hx with
  | inl hold =>
    obtain ⟨hdistance, hk⟩ := h.sound x k hold
    exact ⟨hdistance, by omega⟩
  | inr hnext =>
    rw [hnext.2]
    exact ⟨(h.distance_next hoffer hnoted hnext.1).2, Nat.le_refl _⟩

theorem Explored.complete_next (hfull : reached.full = false) (hx : Distance Adj o k x)
    (hk : k ≤ d + 1) : (x, k) ∈ reached.depths := by
  have hnone := hnoted.full
  rw [hfull] at hnone
  have hold : w.full = false := by
    rw [← Bool.not_eq_true]
    intro htrue
    exact absurd (hnone.2 (.inl htrue)) Bool.false_ne_true
  by_cases hnear : k ≤ d
  · exact hnoted.mem_depths.2 (.inl (h.complete hold x k hx hnear))
  obtain rfl : k = d + 1 := by omega
  obtain ⟨y, hyx, hy⟩ := hx.exists_pred
  have hfrontier := (h.frontier y).2 (h.complete hold y d hy (Nat.le_refl d))
  have hknown : x ∈ reached.depths.map Prod.fst := by
    by_contra hunknown
    exact absurd (hnone.2 (.inr ⟨x, (hoffer.ids _ x).2 ⟨y, hfrontier, hyx⟩, hunknown⟩))
      Bool.false_ne_true
  obtain ⟨n, hn⟩ := mem_depths_fst hknown
  rw [hx.unique (h.sound_next hoffer hnoted hn).1]
  exact hn

theorem Explored.leftOut_next (hfull : reached.full) :
    ∃ x k, Distance Adj o k x ∧ k ≤ d + 1 ∧ x ∉ reached.depths.map Prod.fst := by
  cases hnoted.full.1 hfull with
  | inl hold =>
    -- there was no room, so what was left out still is
    obtain ⟨x, k, hdistance, hk, hout⟩ := h.leftOut hold
    refine ⟨x, k, hdistance, by omega, ?_⟩
    rw [hnoted.depths, hnoted.next_eq_nil (h.atCap hold), List.map_nil, List.append_nil]
    exact hout
  | inr hleft =>
    obtain ⟨x, hx, hout⟩ := hleft
    obtain ⟨y, hyx, hy⟩ := h.pred_of_offered hoffer hx
    obtain ⟨k, hk, hdistance⟩ := hy.next hyx
    exact ⟨x, k, hdistance, hk, hout⟩

theorem Explored.mem_edges_next {e : ε} : e ∈ w.edges ++ (offer w.frontier).1 ↔
    ∃ x k, (x, k) ∈ reached.depths ∧ k < d + 1 ∧ At x e := by
  rw [List.mem_append, h.edges, hoffer.edges]
  constructor
  · intro he
    cases he with
    | inl hbefore =>
      obtain ⟨x, k, hx, hk, hat⟩ := hbefore
      exact ⟨x, k, hnoted.mem_depths.2 (.inl hx), by omega, hat⟩
    | inr hnow =>
      obtain ⟨x, hx, hat⟩ := hnow
      exact ⟨x, d, hnoted.mem_depths.2 (.inl ((h.frontier x).1 hx)), by omega, hat⟩
  · intro he
    obtain ⟨x, k, hx, hk, hat⟩ := he
    have hold : (x, k) ∈ w.depths := by
      cases hnoted.mem_depths.1 hx with
      | inl hold => exact hold
      | inr hnext => omega
    by_cases hlast : k = d
    · subst hlast
      exact .inr ⟨x, (h.frontier x).2 hold, hat⟩
    · exact .inl ⟨x, k, hold, by omega, hat⟩

end OneLevel

section Walk

variable [DecidableEq α]

/-- **One level.** -/
theorem Explored.level (hoffer : Offers offer Adj At) (h : Explored Adj At o cap d w)
    (last : Bool) : Explored Adj At o cap (d + 1) (w.level cap (d + 1) last offer) := by
  have hnoted := (Noted.start (d := d + 1) h.nodup h.small h.atCap).foldl (offer w.frontier).2
  rw [List.nil_append] at hnoted
  unfold Walk.level
  dsimp only
  constructor
  · exact hnoted.nodup
  · exact hnoted.small
  · exact hnoted.atCap
  · intro x k hx
    exact h.sound_next hoffer hnoted hx
  · intro x
    rw [hnoted.mem_depths]
    constructor
    · intro hx
      exact .inr ⟨hx, rfl⟩
    · intro hx
      cases hx with
      | inl hold =>
        have hk := (h.sound x (d + 1) hold).2
        omega
      | inr hnext => exact hnext.1
  · intro hfull x k hx hk
    exact h.complete_next hoffer hnoted hfull hx hk
  · intro hfull
    exact h.leftOut_next hoffer hnoted hfull
  · intro x k hx y n hy hn
    cases hnoted.mem_depths.1 hx with
    | inl hold => exact hnoted.mem_depths.2 (.inl (h.nearer x k hold y n hy hn))
    | inr hnext =>
      have hroom := (h.distance_next hoffer hnoted hnext.1).1
      exact hnoted.mem_depths.2 (.inl (h.complete hroom y n hy (by omega)))
  · intro e
    exact h.mem_edges_next hoffer hnoted

theorem Explored.stop (hoffer : Offers offer Adj At) (h : Explored Adj At o cap d w)
    (hdone : w.frontier = []) (left : Nat) : Explored Adj At o cap (d + left) w := by
  have hids : (offer []).2 = [] := by
    apply List.eq_nil_iff_forall_not_mem.2
    intro y hy
    obtain ⟨x, hx, -⟩ := (hoffer.ids [] y).1 hy
    exact absurd hx List.not_mem_nil
  have hedges : (offer []).1 = [] := by
    apply List.eq_nil_iff_forall_not_mem.2
    intro e he
    obtain ⟨x, hx, -⟩ := (hoffer.edges [] e).1 he
    exact absurd hx List.not_mem_nil
  induction left with
  | zero => exact h
  | succ left ih =>
    have hnext := ih.level hoffer false
    unfold Walk.level at hnext
    dsimp only at hnext
    rw [hdone, hids, hedges, List.append_nil, Bool.false_and, Bool.or_false] at hnext
    cases w
    subst hdone
    exact hnext

/-- **The levels that are left.**  The walk stops at the depth bound when it still has a
frontier. -/
theorem Explored.run (hoffer : Offers offer Adj At) (left : Nat) (h : Explored Adj At o cap d w) :
    Explored Adj At o cap (d + left) (Walk.run cap offer left (d + 1) w) ∧
      ((Walk.run cap offer left (d + 1) w).deep ↔ w.deep ∨
        0 < left ∧ (Walk.run cap offer left (d + 1) w).frontier ≠ []) := by
  induction left generalizing d w with
  | zero => exact ⟨h, by simp [Walk.run]⟩
  | succ left ih =>
    rw [Walk.run]
    by_cases hdone : w.frontier = []
    · rw [hdone, List.isEmpty_nil, if_pos rfl]
      exact ⟨h.stop hoffer hdone _, by simp [hdone]⟩
    rw [if_neg (by simpa using hdone)]
    obtain ⟨hexplored, hdeep⟩ := ih (h.level hoffer (left == 0))
    refine ⟨?_, ?_⟩
    · rw [show d + (left + 1) = d + 1 + left by omega]
      exact hexplored
    · rw [hdeep]
      cases left with
      | zero => simp [Walk.run, Walk.level]
      | succ left => simp [Walk.level]

/-- **A bounded walk.**  It stops at its depth when a vertex is that far. -/
theorem breadthFirst_spec (hoffer : Offers offer Adj At) (hcap : 0 < cap) {depth : Nat}
    (hdepth : 0 < depth) (o : α) :
    Explored Adj At o cap depth (breadthFirst cap depth offer o) ∧
      ((breadthFirst cap depth offer o).deep ↔
        ∃ x, (x, depth) ∈ (breadthFirst cap depth offer o).depths) := by
  have hstart : Explored Adj At o cap 0 (⟨[(o, 0)], [o], [], false, false⟩ : Walk α ε) := by
    constructor
    · exact List.nodup_singleton o
    · exact hcap
    · intro hfull
      cases hfull
    · intro x k hx
      obtain ⟨rfl, rfl⟩ := Prod.mk.inj (List.mem_singleton.1 hx)
      exact ⟨Distance.origin Adj x, Nat.le_refl 0⟩
    · intro x
      simp
    · intro _ x k hdistance hk
      obtain rfl : k = 0 := by omega
      rw [hdistance.eq_origin]
      exact List.mem_singleton_self _
    · intro hfull
      cases hfull
    · intro x k hx y n hy hn
      obtain ⟨rfl, rfl⟩ := Prod.mk.inj (List.mem_singleton.1 hx)
      omega
    · intro e
      constructor
      · intro he
        exact absurd he List.not_mem_nil
      · intro he
        obtain ⟨x, k, -, hk, -⟩ := he
        omega
  obtain ⟨hexplored, hdeep⟩ := hstart.run hoffer depth
  rw [Nat.zero_add] at hexplored
  refine ⟨hexplored, hdeep.trans ?_⟩
  have hfrontier : (breadthFirst cap depth offer o).frontier ≠ [] ↔
      ∃ x, (x, depth) ∈ (breadthFirst cap depth offer o).depths := by
    constructor
    · intro hne
      obtain ⟨x, hx⟩ := List.exists_mem_of_ne_nil _ hne
      exact ⟨x, (hexplored.frontier x).1 hx⟩
    · intro hx
      obtain ⟨x, hx⟩ := hx
      exact List.ne_nil_of_mem ((hexplored.frontier x).2 hx)
  rw [← hfrontier]
  simp [breadthFirst, hdepth]

end Walk

/-! ## What is found -/

theorem Explored.origin (h : Explored Adj At o cap d w) (hcap : 0 < cap) : (o, 0) ∈ w.depths := by
  cases hfull : w.full with
  | false => exact h.complete hfull o 0 (Distance.origin Adj o) (Nat.zero_le d)
  | true =>
    have hlength := h.atCap hfull
    cases hdepths : w.depths with
    | nil =>
      rw [hdepths, List.length_nil] at hlength
      omega
    | cons seen rest =>
      obtain ⟨x, k⟩ := seen
      have hx : (x, k) ∈ w.depths := hdepths ▸ List.mem_cons_self
      rw [← hdepths]
      cases k with
      | zero =>
        rw [← (h.sound x 0 hx).1.eq_origin]
        exact hx
      | succ k => exact h.nearer x (k + 1) hx o 0 (Distance.origin Adj o) (by omega)

theorem Explored.not_mem_of_wide (h : Explored Adj At o cap d w) {near : List α}
    (hnodup : near.Nodup) (hnear : ∀ y ∈ near, ∃ n < k, Distance Adj o n y)
    (hwide : cap < near.length) : (x, k) ∉ w.depths := by
  intro hx
  have hsub : near ⊆ w.depths.map Prod.fst := by
    intro y hy
    obtain ⟨n, hn, hdistance⟩ := hnear y hy
    exact List.mem_map_of_mem (h.nearer x k hx y n hdistance hn)
  have hle := hnodup.length_le_of_subset hsub
  rw [List.length_map] at hle
  have hsmall := h.small
  omega

theorem Explored.full_iff (h : Explored Adj At o cap d w) :
    w.full ↔ ∃ x k, Distance Adj o k x ∧ k ≤ d ∧ x ∉ w.depths.map Prod.fst := by
  constructor
  · exact h.leftOut
  · intro hout
    obtain ⟨x, k, hdistance, hk, hout⟩ := hout
    by_contra hfull
    rw [Bool.not_eq_true] at hfull
    exact hout (List.mem_map_of_mem (h.complete hfull x k hdistance hk))

theorem Explored.mem_of_shallow (h : Explored Adj At o cap d w) (hfull : w.full = false)
    (hlast : ∀ x, (x, d) ∉ w.depths) (hx : Distance Adj o k x) : (x, k) ∈ w.depths ∧ k < d := by
  have hnear : k < d := by
    by_contra hfar
    obtain ⟨y, hy⟩ := hx.exists_of_le (Nat.le_of_not_lt hfar)
    exact hlast y (h.complete hfull y d hy (Nat.le_refl d))
  exact ⟨h.complete hfull x k hx (Nat.le_of_lt hnear), hnear⟩

end Sluicio.Lib
