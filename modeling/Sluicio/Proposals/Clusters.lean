import Mathlib.Algebra.BigOperators.Group.List.Basic
import Mathlib.Algebra.Order.Field.Rat
import Mathlib.Data.String.Basic
import Mathlib.Data.UInt
import Sluicio.Lib.Ordered
import Sluicio.Lib.UnionFind

/-!
# Groups of services that look like one integration

`findClusters` joins the services of the call graph that do most of their work together, and
proposes the components of a size worth proposing.  Joining, crediting traffic and collecting
the members all run over one union-find, whose pointers each `find` shortens.

`IsCluster` says what a proposal is without the union-find: a component of the strong calls,
the traffic of those inside it, and the services outside it that its weak calls touch.
-/

namespace Sluicio.Proposals

open Lib

/-- One observed service-to-service call. -/
structure Edge where
  source : String
  target : String
  traces : UInt64

/-- A proposed grouping of services. -/
structure Cluster where
  services : List String
  sharedServices : List String
  internalTraces : UInt64
  deriving DecidableEq

/-- What is worth proposing. -/
structure ClusterOptions where
  minEdgeTraces : UInt64
  minServices : Int
  minOverlap : ℚ
  maxServices : Int

def minOverlap : ℚ := 3 / 5

def defaultClusterOptions : ClusterOptions := ⟨5, 2, minOverlap, 12⟩

/-- The first lines of `FindClusters`: what is not set takes its default. -/
def ClusterOptions.withDefaults (opt : ClusterOptions) : ClusterOptions :=
  { opt with
    minServices := if opt.minServices ≤ 0 then 2 else opt.minServices
    minOverlap := if opt.minOverlap ≤ 0 then Proposals.minOverlap else opt.minOverlap }

/-- An order in which a map is read: each key once. -/
structure RangeOrder where
  visit : List String → List String
  perm : ∀ keys, (visit keys).Perm keys

section Joining

variable (unassigned : List String) (serviceTraces : String → UInt64) (opt : ClusterOptions)

/-- The traffic of the busier end of a call. -/
def busier (e : Edge) : UInt64 :=
  if serviceTraces e.source < serviceTraces e.target then serviceTraces e.target
  else serviceTraces e.source

/-- The call is a small share of its busier end's work. -/
def Dominated (e : Edge) : Prop :=
  0 < busier serviceTraces e ∧
    (e.traces.toNat : ℚ) / (busier serviceTraces e).toNat < opt.minOverlap

instance (e : Edge) : Decidable (Dominated serviceTraces opt e) :=
  inferInstanceAs (Decidable (_ ∧ _))

/-- What the loop over the edges keeps. -/
structure Joining where
  parent : String → String
  kept : List Edge
  weak : List Edge
  shared : List String

/-- One iteration of the loop over the edges. -/
def Joining.add (st : Joining) (e : Edge) : Joining :=
  if e.source = e.target then st
  else if e.source ∉ unassigned ∨ e.target ∉ unassigned then st
  else if e.traces < opt.minEdgeTraces then st
  else if Dominated serviceTraces opt e then
    { st with shared := e.target :: e.source :: st.shared, weak := st.weak ++ [e] }
  else
    { st with
      parent := union unassigned.length st.parent e.source e.target
      kept := st.kept ++ [e] }

/-- The loop over the edges.  The pointers are only asked about candidates. -/
def joinEdges (edges : List Edge) : Joining :=
  edges.foldl (Joining.add unassigned serviceTraces opt) ⟨id, [], [], []⟩

end Joining

/-- The shared services that touch a cluster. -/
def adjacent (joined : Joining) (members : List String) : List String :=
  (joined.weak.flatMap fun e =>
    (if e.source ∈ members ∧ e.target ∉ members ∧ e.target ∈ joined.shared then [e.target]
      else []) ++
    (if e.target ∈ members ∧ e.source ∉ members ∧ e.source ∈ joined.shared then [e.source]
      else [])).dedup

/-- What the loop over the groups does with one. -/
def clusterOf (opt : ClusterOptions) (joined : Joining) (members : List String)
    (traffic : UInt64) : Option Cluster :=
  if (members.length : Int) < opt.minServices then none
  else if 0 < opt.maxServices ∧ opt.maxServices < members.length then none
  else
    some { services := orderBy id members
           sharedServices := orderBy id (adjacent joined members)
           internalTraces := traffic }

/-- Busiest first, then by the first service. -/
def Cluster.rank (c : Cluster) : Natᵒᵈ ×ₗ String :=
  toLex (OrderDual.toDual c.internalTraces.toNat, c.services.headD "")

/-- The three loops after the one over the edges.  The groups are a map, and come in any
order. -/
def collect (range : RangeOrder) (unassigned : List String) (opt : ClusterOptions)
    (joined : Joining) : List Cluster :=
  let members := findAll unassigned.length id joined.parent unassigned
  let traffic := findAll unassigned.length Edge.source members.2 joined.kept
  (range.visit (members.1.map Prod.fst).dedup).filterMap fun root =>
    clusterOf opt joined (ofRoot members.1 root) ((ofRoot traffic.1 root).map Edge.traces).sum

def findClusters (range : RangeOrder) (unassigned : List String) (edges : List Edge)
    (serviceTraces : String → UInt64) (opt : ClusterOptions) : List Cluster :=
  let opt := opt.withDefaults
  orderBy Cluster.rank (collect range unassigned opt (joinEdges unassigned serviceTraces opt edges))

def oversizedClusters (range : RangeOrder) (unassigned : List String) (edges : List Edge)
    (serviceTraces : String → UInt64) (opt : ClusterOptions) : List Cluster :=
  let wide := { opt with maxServices := 0 }
  (findClusters range unassigned edges serviceTraces wide).filter fun c =>
    0 < opt.maxServices ∧ opt.maxServices < c.services.length

/-! ## What a proposal is -/

section Spec

variable (unassigned : List String) (edges : List Edge) (serviceTraces : String → UInt64)
  (opt : ClusterOptions)

/-- A call between two candidates, with enough traffic to count. -/
def Observed (e : Edge) : Prop :=
  e.source ≠ e.target ∧ e.source ∈ unassigned ∧ e.target ∈ unassigned ∧
    ¬ e.traces < opt.minEdgeTraces

instance (e : Edge) : Decidable (Observed unassigned opt e) :=
  inferInstanceAs (Decidable (_ ∧ _))

/-- A call that makes its two ends one flow. -/
def Strong (e : Edge) : Prop := Observed unassigned opt e ∧ ¬ Dominated serviceTraces opt e

instance (e : Edge) : Decidable (Strong unassigned serviceTraces opt e) :=
  inferInstanceAs (Decidable (_ ∧ _))

/-- A call from or to a service that calls everybody. -/
def Weak (e : Edge) : Prop := Observed unassigned opt e ∧ Dominated serviceTraces opt e

instance (e : Edge) : Decidable (Weak unassigned serviceTraces opt e) :=
  inferInstanceAs (Decidable (_ ∧ _))

/-- One service calls the other, and they are one flow. -/
def Linked (s t : String) : Prop :=
  ∃ e ∈ edges, Strong unassigned serviceTraces opt e ∧ e.source = s ∧ e.target = t

/-- A path of strong calls joins two services. -/
def Connected : String → String → Prop :=
  Relation.EqvGen (Linked unassigned edges serviceTraces opt)

/-- A strong call with both ends among the services. -/
def Inside (services : List String) (e : Edge) : Prop :=
  Strong unassigned serviceTraces opt e ∧ e.source ∈ services ∧ e.target ∈ services

instance (services : List String) (e : Edge) :
    Decidable (Inside unassigned serviceTraces opt services e) :=
  inferInstanceAs (Decidable (_ ∧ _))

/-- A component of the strong calls that is of a size worth proposing. -/
structure IsCluster (c : Cluster) : Prop where
  component : ∃ s ∈ unassigned, ∀ t,
    t ∈ c.services ↔ Connected unassigned edges serviceTraces opt.withDefaults s t
  sorted : c.services.Pairwise (· < ·)
  minServices : opt.withDefaults.minServices ≤ c.services.length
  maxServices : 0 < opt.maxServices → c.services.length ≤ opt.maxServices
  internalTraces : c.internalTraces.toNat =
    ((edges.filter fun e => Inside unassigned serviceTraces opt.withDefaults c.services e).map
      fun e => e.traces.toNat).sum % 2 ^ 64
  sharedServices : ∀ t, t ∈ c.sharedServices ↔ t ∉ c.services ∧
    ∃ e ∈ edges, Weak unassigned serviceTraces opt.withDefaults e ∧
      (e.source ∈ c.services ∧ e.target = t ∨ e.target ∈ c.services ∧ e.source = t)
  sharedSorted : c.sharedServices.Pairwise (· < ·)

end Spec

variable {unassigned : List String} {edges edges' : List Edge} {serviceTraces : String → UInt64}
  {opt : ClusterOptions} {e : Edge} {s t : String} {c d : Cluster}

theorem withDefaults_minServices_pos (opt : ClusterOptions) : 0 < opt.withDefaults.minServices := by
  unfold ClusterOptions.withDefaults
  dsimp only
  split <;> omega

theorem Connected.mem_iff (h : Connected unassigned edges serviceTraces opt s t) :
    s ∈ unassigned ↔ t ∈ unassigned := by
  unfold Connected at h
  induction h with
  | rel s t hst =>
    obtain ⟨e, -, hstrong, hs, ht⟩ := hst
    subst hs ht
    exact ⟨fun _ => hstrong.1.2.2.1, fun _ => hstrong.1.2.1⟩
  | refl _ => exact Iff.rfl
  | symm _ _ _ ih => exact ih.symm
  | trans _ _ _ _ _ ih ih' => exact ih.trans ih'

theorem IsCluster.component_of_mem (h : IsCluster unassigned edges serviceTraces opt c)
    (hs : s ∈ c.services) :
    s ∈ unassigned ∧ ∀ t, t ∈ c.services ↔
      Connected unassigned edges serviceTraces opt.withDefaults s t := by
  obtain ⟨r, hr, hall⟩ := h.component
  have hrs := (hall s).1 hs
  constructor
  · exact hrs.mem_iff.1 hr
  · intro t
    rw [hall t]
    exact ⟨fun hrt => (hrs.symm _ _).trans _ _ _ hrt, fun hst => hrs.trans _ _ _ hst⟩

theorem IsCluster.services_ne_nil (h : IsCluster unassigned edges serviceTraces opt c) :
    c.services ≠ [] := by
  intro hnil
  have hpos := withDefaults_minServices_pos opt
  have hmin := h.minServices
  rw [hnil, List.length_nil] at hmin
  omega

theorem eq_of_sorted {l l' : List String} (h : l.Pairwise (· < ·)) (h' : l'.Pairwise (· < ·))
    (hmem : ∀ s, s ∈ l ↔ s ∈ l') : l = l' :=
  eq_of_pairwise_lt (κ := String) h h' hmem

/-- **No service is in two proposals.** -/
theorem IsCluster.eq_of_mem (hc : IsCluster unassigned edges serviceTraces opt c)
    (hd : IsCluster unassigned edges serviceTraces opt d) (hsc : s ∈ c.services)
    (hsd : s ∈ d.services) : c = d := by
  have hservices : c.services = d.services := by
    apply eq_of_sorted hc.sorted hd.sorted
    intro t
    rw [(hc.component_of_mem hsc).2 t, (hd.component_of_mem hsd).2 t]
  have hshared : c.sharedServices = d.sharedServices := by
    apply eq_of_sorted hc.sharedSorted hd.sharedSorted
    intro t
    rw [hc.sharedServices t, hd.sharedServices t, hservices]
  have htraces : c.internalTraces = d.internalTraces := by
    apply UInt64.toNat_inj.1
    rw [hc.internalTraces, hd.internalTraces, hservices]
  calc c = ⟨c.services, c.sharedServices, c.internalTraces⟩ := rfl
    _ = d := by rw [hservices, hshared, htraces]

theorem IsCluster.head_mem (h : IsCluster unassigned edges serviceTraces opt c) :
    c.services.headD "" ∈ c.services := by
  cases hservices : c.services with
  | nil => exact absurd hservices h.services_ne_nil
  | cons s rest => exact List.mem_cons_self

theorem IsCluster.eq_of_rank (hc : IsCluster unassigned edges serviceTraces opt c)
    (hd : IsCluster unassigned edges serviceTraces opt d) (hrank : c.rank = d.rank) : c = d := by
  have hhead : c.services.headD "" = d.services.headD "" :=
    congrArg (fun r => (ofLex r).2) hrank
  exact hc.eq_of_mem hd hc.head_mem (hhead ▸ hd.head_mem)

/-! ## The loop over the edges -/

theorem Joining.add_cases (unassigned : List String) (serviceTraces : String → UInt64)
    (opt : ClusterOptions) (st : Joining) (e : Edge) :
    (¬ Strong unassigned serviceTraces opt e ∧ ¬ Weak unassigned serviceTraces opt e ∧
      st.add unassigned serviceTraces opt e = st) ∨
    (¬ Strong unassigned serviceTraces opt e ∧ Weak unassigned serviceTraces opt e ∧
      st.add unassigned serviceTraces opt e =
        { st with shared := e.target :: e.source :: st.shared, weak := st.weak ++ [e] }) ∨
    (Strong unassigned serviceTraces opt e ∧ ¬ Weak unassigned serviceTraces opt e ∧
      st.add unassigned serviceTraces opt e =
        { st with
          parent := union unassigned.length st.parent e.source e.target
          kept := st.kept ++ [e] }) := by
  unfold Joining.add Strong Weak Observed
  by_cases hloop : e.source = e.target
  · exact .inl ⟨fun h => h.1.1 hloop, fun h => h.1.1 hloop, if_pos hloop⟩
  rw [if_neg hloop]
  by_cases hcandidate : e.source ∉ unassigned ∨ e.target ∉ unassigned
  · have hnot : ¬ (e.source ∈ unassigned ∧ e.target ∈ unassigned) := by tauto
    exact .inl ⟨fun h => hnot ⟨h.1.2.1, h.1.2.2.1⟩, fun h => hnot ⟨h.1.2.1, h.1.2.2.1⟩,
      if_pos hcandidate⟩
  rw [if_neg hcandidate]
  by_cases hfew : e.traces < opt.minEdgeTraces
  · exact .inl ⟨fun h => h.1.2.2.2 hfew, fun h => h.1.2.2.2 hfew, if_pos hfew⟩
  rw [if_neg hfew]
  have hobserved : e.source ≠ e.target ∧ e.source ∈ unassigned ∧ e.target ∈ unassigned ∧
      ¬ e.traces < opt.minEdgeTraces := by tauto
  by_cases hdominated : Dominated serviceTraces opt e
  · exact .inr (.inl ⟨fun h => h.2 hdominated, ⟨hobserved, hdominated⟩, if_pos hdominated⟩)
  · exact .inr (.inr ⟨⟨hobserved, hdominated⟩, fun h => hdominated h.2, if_neg hdominated⟩)

section Loop

variable (unassigned edges serviceTraces opt)

/-- What holds after the loop has run over some edges. -/
structure Joining.Sound (st : Joining) : Prop where
  parent : Represents unassigned st.parent (Linked unassigned edges serviceTraces opt)
  kept : st.kept = edges.filter fun e => Strong unassigned serviceTraces opt e
  weak : st.weak = edges.filter fun e => Weak unassigned serviceTraces opt e
  shared : ∀ t, t ∈ st.shared ↔
    ∃ e ∈ edges, Weak unassigned serviceTraces opt e ∧ (e.source = t ∨ e.target = t)

end Loop

theorem Joining.Sound.add {st : Joining}
    (h : st.Sound unassigned edges serviceTraces opt) (e : Edge) :
    (st.add unassigned serviceTraces opt e).Sound unassigned (edges ++ [e]) serviceTraces opt := by
  have hold {P : Edge → Prop} (hP : ¬ P e) : (∃ x ∈ edges ++ [e], P x) ↔ ∃ x ∈ edges, P x := by
    simp only [List.mem_append, List.mem_singleton, or_and_right, exists_or, exists_eq_left]
    exact or_iff_left hP
  have hskip {q : Edge → Bool} (hq : q e = false) : (edges ++ [e]).filter q = edges.filter q := by
    simp [List.filter_append, hq]
  have htake {q : Edge → Bool} (hq : q e) :
      (edges ++ [e]).filter q = edges.filter q ++ [e] := by
    simp [List.filter_append, hq]
  have hlinked (hstrong : ¬ Strong unassigned serviceTraces opt e) :
      Linked unassigned (edges ++ [e]) serviceTraces opt =
        Linked unassigned edges serviceTraces opt := by
    funext s t
    exact propext (hold fun hP => hstrong hP.1)
  obtain ⟨hstrong, hweak, hst⟩ | ⟨hstrong, hweak, hst⟩ | ⟨hstrong, hweak, hst⟩ :=
    Joining.add_cases unassigned serviceTraces opt st e
  · rw [hst]
    constructor
    · rw [hlinked hstrong]
      exact h.parent
    · rw [hskip (decide_eq_false hstrong)]
      exact h.kept
    · rw [hskip (decide_eq_false hweak)]
      exact h.weak
    · intro t
      rw [hold fun hP => hweak hP.1]
      exact h.shared t
  · rw [hst]
    constructor
    · rw [hlinked hstrong]
      exact h.parent
    · rw [hskip (decide_eq_false hstrong)]
      exact h.kept
    · rw [htake (decide_eq_true hweak)]
      exact congrArg (· ++ [e]) h.weak
    · intro t
      have hends : t = e.target ∨ t = e.source ∨ t ∈ st.shared ↔
          t ∈ st.shared ∨ (e.source = t ∨ e.target = t) := by
        rw [eq_comm (a := t), eq_comm (a := t)]
        tauto
      rw [List.mem_cons, List.mem_cons, hends, h.shared t]
      simp only [List.mem_append, List.mem_singleton, or_and_right, exists_or, exists_eq_left,
        hweak, true_and]
  · rw [hst]
    constructor
    · have hnext : Linked unassigned (edges ++ [e]) serviceTraces opt = fun s t =>
          Linked unassigned edges serviceTraces opt s t ∨ (s = e.source ∧ t = e.target) := by
        funext s t
        simp only [Linked, List.mem_append, List.mem_singleton, or_and_right, exists_or,
          exists_eq_left, hstrong, true_and]
        rw [eq_comm (a := s), eq_comm (a := t)]
      rw [hnext]
      exact h.parent.union hstrong.1.2.1 hstrong.1.2.2.1
    · rw [htake (decide_eq_true hstrong)]
      exact congrArg (· ++ [e]) h.kept
    · rw [hskip (decide_eq_false hweak)]
      exact h.weak
    · intro t
      rw [hold fun hP => hweak hP.1]
      exact h.shared t

/-- **The loop.** -/
theorem joinEdges_sound (unassigned : List String) (edges : List Edge)
    (serviceTraces : String → UInt64) (opt : ClusterOptions) :
    (joinEdges unassigned serviceTraces opt edges).Sound unassigned edges serviceTraces opt := by
  induction edges using List.reverseRecOn with
  | nil =>
    constructor
    · have hnone : Linked unassigned [] serviceTraces opt = fun _ _ => False := by
        funext s t
        exact propext ⟨fun h => List.not_mem_nil h.choose_spec.1, False.elim⟩
      rw [hnone]
      exact represents_id unassigned
    · rfl
    · rfl
    · intro t
      constructor
      · intro h
        exact absurd h List.not_mem_nil
      · intro h
        exact absurd h.choose_spec.1 List.not_mem_nil
  | append_singleton edges e ih =>
    unfold joinEdges at ih ⊢
    rw [List.foldl_append]
    exact ih.add e

/-! ## One component -/

theorem mem_adjacent {joined : Joining} {members : List String} :
    t ∈ adjacent joined members ↔ t ∉ members ∧ t ∈ joined.shared ∧
      ∃ e ∈ joined.weak, e.source ∈ members ∧ e.target = t ∨ e.target ∈ members ∧ e.source = t := by
  unfold adjacent
  have hite {P : Prop} [Decidable P] {x : String} : t ∈ (if P then [x] else []) ↔ P ∧ t = x := by
    split <;> simp [*]
  simp only [List.mem_dedup, List.mem_flatMap, List.mem_append, hite]
  constructor
  · intro h
    obtain ⟨e, he, h | h⟩ := h
    · obtain ⟨⟨hs, ht, hshared⟩, rfl⟩ := h
      exact ⟨ht, hshared, e, he, .inl ⟨hs, rfl⟩⟩
    · obtain ⟨⟨ht, hs, hshared⟩, rfl⟩ := h
      exact ⟨hs, hshared, e, he, .inr ⟨ht, rfl⟩⟩
  · intro h
    obtain ⟨hmem, hshared, e, he, h | h⟩ := h
    · obtain ⟨hs, rfl⟩ := h
      exact ⟨e, he, .inl ⟨⟨hs, hmem, hshared⟩, rfl⟩⟩
    · obtain ⟨ht, rfl⟩ := h
      exact ⟨e, he, .inr ⟨⟨ht, hmem, hshared⟩, rfl⟩⟩

theorem toNat_sum (words : List UInt64) :
    words.sum.toNat = (words.map UInt64.toNat).sum % 2 ^ 64 := by
  induction words with
  | nil => rfl
  | cons w words ih =>
    rw [List.sum_cons, UInt64.toNat_add, ih, List.map_cons, List.sum_cons, Nat.add_mod_mod]

theorem pairwise_lt_of_nodup {names : List String} (hnodup : names.Nodup) :
    (orderBy id names).Pairwise (· < ·) :=
  pairwise_lt_orderBy hnodup fun _ _ _ _ heq => heq

section Component

variable {joined : Joining} {p : String → String} {members : List String} {traffic : UInt64}
  {root : String}

theorem Joining.Sound.mem_iff_connected (hjoined : joined.Sound unassigned edges serviceTraces opt)
    (hmembers : ∀ t, t ∈ members ↔ t ∈ unassigned ∧ RootOf joined.parent t root) (hs : s ∈ members)
    (t : String) : t ∈ members ↔ Connected unassigned edges serviceTraces opt s t := by
  obtain ⟨hsu, hroot⟩ := (hmembers s).1 hs
  rw [hmembers t]
  constructor
  · intro ht
    exact (hjoined.parent.joined s t).1 ⟨root, hroot, ht.2⟩
  · intro hst
    obtain ⟨r, hr, htr⟩ := (hjoined.parent.joined s t).2 hst
    rw [hr.unique hroot] at htr
    exact ⟨hst.mem_iff.1 hsu, htr⟩

theorem Joining.Sound.filter_kept (hjoined : joined.Sound unassigned edges serviceTraces opt)
    (members : List String) :
    (joined.kept.filter fun e => e.source ∈ members ∧ e.target ∈ members) =
      edges.filter fun e => Inside unassigned serviceTraces opt members e := by
  rw [hjoined.kept, List.filter_filter]
  apply List.filter_congr
  intro e _
  rw [Bool.eq_iff_iff]
  simp only [Bool.and_eq_true, decide_eq_true_eq]
  exact and_comm

theorem Joining.Sound.mem_adjacent_iff (hjoined : joined.Sound unassigned edges serviceTraces opt) :
    t ∈ adjacent joined members ↔ t ∉ members ∧
      ∃ e ∈ edges, Weak unassigned serviceTraces opt e ∧
        (e.source ∈ members ∧ e.target = t ∨ e.target ∈ members ∧ e.source = t) := by
  rw [mem_adjacent, hjoined.shared, hjoined.weak]
  simp only [List.mem_filter, decide_eq_true_eq]
  constructor
  · intro h
    obtain ⟨ht, -, e, ⟨he, hweak⟩, hends⟩ := h
    exact ⟨ht, e, he, hweak, hends⟩
  · intro h
    obtain ⟨ht, e, he, hweak, hends⟩ := h
    refine ⟨ht, ⟨e, he, hweak, ?_⟩, e, ⟨he, hweak⟩, hends⟩
    exact hends.elim (fun h => .inr h.2) fun h => .inl h.2

theorem isCluster_of_members
    (hjoined : joined.Sound unassigned edges serviceTraces opt.withDefaults)
    (hnodup : members.Nodup)
    (hmembers : ∀ t, t ∈ members ↔ t ∈ unassigned ∧ RootOf joined.parent t root)
    (htraffic : traffic.toNat = ((joined.kept.filter fun e =>
      e.source ∈ members ∧ e.target ∈ members).map fun e => e.traces.toNat).sum % 2 ^ 64)
    (hs : s ∈ members) (hmin : opt.withDefaults.minServices ≤ members.length)
    (hmax : 0 < opt.maxServices → members.length ≤ opt.maxServices) :
    IsCluster unassigned edges serviceTraces opt
      ⟨orderBy id members, orderBy id (adjacent joined members), traffic⟩ := by
  have hmem (t : String) : t ∈ orderBy id members ↔ t ∈ members := mem_orderBy
  constructor
  · refine ⟨s, ((hmembers s).1 hs).1, fun t => ?_⟩
    rw [hmem t, hjoined.mem_iff_connected hmembers hs t]
  · exact pairwise_lt_of_nodup hnodup
  · rw [(orderBy_perm id members).length_eq]
    exact hmin
  · rw [(orderBy_perm id members).length_eq]
    exact hmax
  · have hsorted : (edges.filter fun e =>
        Inside unassigned serviceTraces opt.withDefaults (orderBy id members) e) =
          edges.filter fun e => Inside unassigned serviceTraces opt.withDefaults members e :=
      List.filter_congr fun e _ =>
        decide_eq_decide.2 (and_congr Iff.rfl (and_congr (hmem _) (hmem _)))
    rw [hsorted, htraffic, hjoined.filter_kept]
  · intro t
    show t ∈ orderBy id (adjacent joined members) ↔ t ∉ orderBy id members ∧ ∃ e ∈ edges, _
    rw [mem_orderBy, hjoined.mem_adjacent_iff, hmem t]
    simp only [hmem]
  · exact pairwise_lt_of_nodup (List.nodup_dedup _)

/-- **One group.**  The services of one root, with the traffic of the calls of that root, are
proposed as the cluster of each of them, when there is one. -/
theorem clusterOf_eq_some (hjoined : joined.Sound unassigned edges serviceTraces opt.withDefaults)
    (hnodup : members.Nodup)
    (hmembers : ∀ t, t ∈ members ↔ t ∈ unassigned ∧ RootOf joined.parent t root)
    (htraffic : traffic.toNat = ((joined.kept.filter fun e =>
      e.source ∈ members ∧ e.target ∈ members).map fun e => e.traces.toNat).sum % 2 ^ 64)
    (hs : s ∈ members) :
    clusterOf opt.withDefaults joined members traffic = some c ↔
      IsCluster unassigned edges serviceTraces opt c ∧ s ∈ c.services := by
  have hcluster := isCluster_of_members hjoined hnodup hmembers htraffic hs
  unfold clusterOf
  constructor
  · intro h
    split at h
    · cases h
    split at h
    · cases h
    rename_i hmin hmax
    obtain rfl := Option.some.inj h
    refine ⟨hcluster (not_lt.1 hmin) fun hpos => not_lt.1 fun hlt => hmax ⟨hpos, hlt⟩, ?_⟩
    exact mem_orderBy.2 hs
  · intro h
    have hsame (t : String) : t ∈ c.services ↔ t ∈ members := by
      rw [(h.1.component_of_mem h.2).2 t, hjoined.mem_iff_connected hmembers hs t]
    have hlength : c.services.length = members.length :=
      ((List.perm_ext_iff_of_nodup (h.1.sorted.imp fun hlt => ne_of_lt hlt) hnodup).2
        hsame).length_eq
    have hmin := h.1.minServices
    have hmax := h.1.maxServices
    rw [hlength] at hmin hmax
    rw [if_neg (not_lt.2 hmin), if_neg fun hbig => not_lt.2 (hmax hbig.1) hbig.2]
    exact congrArg some ((hcluster hmin hmax).eq_of_mem h.1 (mem_orderBy.2 hs) h.2)

end Component

/-! ## All of them -/

section Collect

variable {joined : Joining} {root : String}

/-- **The groups that are collected.**  The traffic is credited after the last call was joined,
so each call counts for the component that both its ends are in. -/
theorem clusterOf_root_eq_some
    (hjoined : joined.Sound unassigned edges serviceTraces opt.withDefaults)
    (hnodup : unassigned.Nodup) {members : List (String × String) × (String → String)}
    (hmembers : members = findAll unassigned.length id joined.parent unassigned)
    {traffic : List (String × Edge) × (String → String)}
    (htraffic : traffic = findAll unassigned.length Edge.source members.2 joined.kept)
    (hs : s ∈ ofRoot members.1 root) :
    clusterOf opt.withDefaults joined (ofRoot members.1 root)
        ((ofRoot traffic.1 root).map Edge.traces).sum = some c ↔
      IsCluster unassigned edges serviceTraces opt c ∧ s ∈ c.services := by
  obtain ⟨hsnd, hroots, hforest, hsame⟩ :=
    hjoined.parent.toForest.findAll id fun t ht => ht
  have hends : ∀ e ∈ joined.kept, Strong unassigned serviceTraces opt.withDefaults e ∧
      Connected unassigned edges serviceTraces opt.withDefaults e.source e.target := by
    intro e he
    rw [hjoined.kept, List.mem_filter, decide_eq_true_eq] at he
    exact ⟨he.2, .rel _ _ ⟨e, he.1, he.2, rfl, rfl⟩⟩
  obtain ⟨hsnd', hroots', -, -⟩ :=
    hforest.findAll Edge.source fun e he => (hends e he).1.1.2.1
  rw [← hmembers] at hsnd hroots hsame hsnd' hroots'
  rw [← htraffic] at hsnd' hroots'
  have hmem (t : String) :
      t ∈ ofRoot members.1 root ↔ t ∈ unassigned ∧ RootOf joined.parent t root := by
    rw [mem_ofRoot hroots, hsnd]
    rfl
  refine clusterOf_eq_some hjoined ?_ hmem ?_ hs
  · exact (hsnd ▸ ofRoot_sublist members.1 root).nodup hnodup
  · rw [ofRoot_eq_filter hroots' fun e =>
      e.source ∈ ofRoot members.1 root ∧ e.target ∈ ofRoot members.1 root, hsnd', toNat_sum,
      List.map_map]
    · rfl
    · intro e he
      rw [hsnd'] at he
      obtain ⟨hstrong, hconnected⟩ := hends e he
      obtain ⟨r, hsource, htarget⟩ := (hjoined.parent.joined _ _).2 hconnected
      rw [decide_eq_true_eq, hmem, hmem, hsame]
      constructor
      · intro h
        exact h.1.2
      · intro h
        rw [hsource.unique h] at htarget
        exact ⟨⟨hstrong.1.2.1, h⟩, hstrong.1.2.2.1, htarget⟩

theorem clusterOf_nil {opt : ClusterOptions} {traffic : UInt64} (h : 0 < opt.minServices) :
    clusterOf opt joined [] traffic = none := by
  rw [clusterOf, if_pos]
  simpa using h

theorem collect_spec (hjoined : joined.Sound unassigned edges serviceTraces opt.withDefaults)
    (hnodup : unassigned.Nodup) (range : RangeOrder) :
    (collect range unassigned opt.withDefaults joined).Nodup ∧
      ∀ c, c ∈ collect range unassigned opt.withDefaults joined ↔
        IsCluster unassigned edges serviceTraces opt c := by
  obtain ⟨hsnd, hroots, -, -⟩ :=
    hjoined.parent.toForest.findAll id fun t ht => ht
  have hpos := withDefaults_minServices_pos opt
  have hgroup {s root : String} {c : Cluster}
      (hs : s ∈ ofRoot (findAll unassigned.length id joined.parent unassigned).1 root) :=
    clusterOf_root_eq_some (c := c) hjoined hnodup rfl rfl hs
  have hsome {root : String} {c : Cluster} (h : clusterOf opt.withDefaults joined
      (ofRoot (findAll unassigned.length id joined.parent unassigned).1 root)
      ((ofRoot (findAll unassigned.length Edge.source
        (findAll unassigned.length id joined.parent unassigned).2 joined.kept).1 root).map
          Edge.traces).sum = some c) :
      IsCluster unassigned edges serviceTraces opt c ∧
        ∃ s ∈ c.services, s ∈ unassigned ∧ RootOf joined.parent s root := by
    cases hmembers : ofRoot (findAll unassigned.length id joined.parent unassigned).1 root with
    | nil =>
      rw [hmembers, clusterOf_nil hpos] at h
      cases h
    | cons s rest =>
      have hs : s ∈ ofRoot (findAll unassigned.length id joined.parent unassigned).1 root :=
        hmembers ▸ List.mem_cons_self
      have hcluster := (hgroup hs).1 h
      rw [mem_ofRoot hroots, hsnd] at hs
      exact ⟨hcluster.1, s, hcluster.2, hs⟩
  unfold collect
  constructor
  · apply List.Nodup.filterMap
    · intro root root' c hc hc'
      obtain ⟨hcluster, s, hs, -, hroot⟩ := hsome hc
      obtain ⟨-, s', hs', -, hroot'⟩ := hsome hc'
      have hconnected := ((hcluster.component_of_mem hs).2 s').1 hs'
      obtain ⟨r, hr, hr'⟩ := (hjoined.parent.joined s s').2 hconnected
      rw [← hr.unique hroot, ← hr'.unique hroot']
    · exact (range.perm _).nodup_iff.2 (List.nodup_dedup _)
  · intro c
    rw [List.mem_filterMap]
    constructor
    · intro h
      obtain ⟨root, -, hc⟩ := h
      exact (hsome hc).1
    · intro h
      have hs := h.head_mem
      have hsu := (h.component_of_mem hs).1
      rw [← hsnd, List.mem_map] at hsu
      obtain ⟨f, hf, hfs⟩ := hsu
      refine ⟨f.1, ?_, ?_⟩
      · rw [(range.perm _).mem_iff, List.mem_dedup]
        exact List.mem_map_of_mem hf
      · refine (hgroup ?_).2 ⟨h, hs⟩
        rw [mem_ofRoot hroots, ← hfs]
        exact ⟨List.mem_map_of_mem hf, hroots f hf⟩

end Collect

theorem findClusters_spec (hnodup : unassigned.Nodup) (range : RangeOrder) (edges : List Edge)
    (serviceTraces : String → UInt64) (opt : ClusterOptions) :
    (∀ c, c ∈ findClusters range unassigned edges serviceTraces opt ↔
      IsCluster unassigned edges serviceTraces opt c) ∧
    (findClusters range unassigned edges serviceTraces opt).Pairwise
      fun c d => c.rank < d.rank := by
  obtain ⟨hcollected, hmem⟩ := collect_spec
    (joinEdges_sound unassigned edges serviceTraces opt.withDefaults) hnodup range
  constructor
  · intro c
    rw [findClusters, mem_orderBy, hmem c]
  · apply pairwise_lt_orderBy hcollected
    intro c hc d hd
    exact ((hmem c).1 hc).eq_of_rank ((hmem d).1 hd)

end Sluicio.Proposals
