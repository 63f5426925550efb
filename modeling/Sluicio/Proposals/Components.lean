import Sluicio.Proposals.Clusters

/-!
# Proposed groups are the components

The clusters found are told by what they are, so nothing of how they were found is left in the
answer: the order of the services and the calls, the end that told of a call, the order a map
is read in.
-/

namespace Sluicio.Proposals

open Lib

variable {unassigned : List String} {edges edges' : List Edge} {serviceTraces : String → UInt64}
  {opt : ClusterOptions} {e : Edge} {s t : String} {c d : Cluster}

/-- The call as its other end would have told it. -/
def Edge.reversed (e : Edge) : Edge := { e with source := e.target, target := e.source }

/-- The same calls in another order, some the other way round. -/
def SameCalls (edges edges' : List Edge) : Prop :=
  ∃ turned, List.Forall₂ (fun e f => f = e ∨ f = e.reversed) edges turned ∧ turned.Perm edges'

theorem busier_reversed (serviceTraces : String → UInt64) (e : Edge) :
    busier serviceTraces e.reversed = busier serviceTraces e := by
  unfold busier Edge.reversed
  dsimp only
  rw [← UInt64.toNat_inj]
  split <;> split <;> simp only [UInt64.lt_iff_toNat_lt] at * <;> omega

theorem observed_reversed : Observed unassigned opt e.reversed ↔ Observed unassigned opt e := by
  unfold Observed Edge.reversed
  dsimp only
  rw [ne_comm]
  tauto

theorem dominated_reversed :
    Dominated serviceTraces opt e.reversed ↔ Dominated serviceTraces opt e := by
  unfold Dominated
  rw [busier_reversed]
  rfl

theorem strong_reversed :
    Strong unassigned serviceTraces opt e.reversed ↔ Strong unassigned serviceTraces opt e :=
  and_congr observed_reversed (not_congr dominated_reversed)

theorem weak_reversed :
    Weak unassigned serviceTraces opt e.reversed ↔ Weak unassigned serviceTraces opt e :=
  and_congr observed_reversed dominated_reversed

/-- What does not ask which way a call went does not tell the two apart. -/
structure Alike (edges edges' : List Edge) : Prop where
  exists_iff {P : Edge → Prop} (hP : ∀ e : Edge, P e.reversed ↔ P e) :
    (∃ e ∈ edges, P e) ↔ ∃ e ∈ edges', P e
  sum_eq {q : Edge → Bool} (hq : ∀ e : Edge, q e.reversed = q e) :
    ((edges.filter q).map fun e => e.traces.toNat).sum =
      ((edges'.filter q).map fun e => e.traces.toNat).sum

theorem Alike.symm (h : Alike edges edges') : Alike edges' edges where
  exists_iff hP := (h.exists_iff hP).symm
  sum_eq hq := (h.sum_eq hq).symm

theorem SameCalls.alike (h : SameCalls edges edges') : Alike edges edges' := by
  obtain ⟨turned, hturned, hperm⟩ := h
  constructor
  · intro P hP
    have hexists : (∃ e ∈ edges, P e) ↔ ∃ e ∈ turned, P e := by
      clear hperm
      induction hturned with
      | nil => exact Iff.rfl
      | cons hef _ ih =>
        rw [List.exists_mem_cons_iff, List.exists_mem_cons_iff, ih]
        cases hef with
        | inl heq => rw [heq]
        | inr heq => rw [heq, hP]
    rw [hexists]
    simp only [hperm.mem_iff]
  · intro q hq
    have hsum : ((edges.filter q).map fun e => e.traces.toNat).sum =
        ((turned.filter q).map fun e => e.traces.toNat).sum := by
      clear hperm
      induction hturned with
      | nil => rfl
      | @cons e f _ _ hef _ ih =>
        have hsame : q f = q e ∧ f.traces = e.traces := by
          cases hef with
          | inl heq => exact ⟨heq ▸ rfl, heq ▸ rfl⟩
          | inr heq => exact ⟨heq ▸ hq e, heq ▸ rfl⟩
        rw [List.filter_cons, List.filter_cons, hsame.1]
        split
        · rw [List.map_cons, List.map_cons, List.sum_cons, List.sum_cons, ih, hsame.2]
        · exact ih
    rw [hsum]
    exact ((hperm.filter q).map _).sum_eq

section Told

variable {unassigned' : List String} (hmem : ∀ t, t ∈ unassigned ↔ t ∈ unassigned')

include hmem

theorem observed_congr : Observed unassigned opt e ↔ Observed unassigned' opt e := by
  unfold Observed
  rw [hmem, hmem]

theorem strong_congr :
    Strong unassigned serviceTraces opt e ↔ Strong unassigned' serviceTraces opt e :=
  and_congr_left fun _ => observed_congr hmem

theorem Connected.of_alike (hedges : Alike edges edges')
    (h : Connected unassigned edges serviceTraces opt s t) :
    Connected unassigned' edges' serviceTraces opt s t := by
  unfold Connected at h
  induction h with
  | rel s t hst =>
    obtain ⟨e, he, hstrong, hsource, htarget⟩ := hst
    -- the call may have been told from the other end
    have hturned : ∃ e ∈ edges', Strong unassigned serviceTraces opt e ∧
        (e.source = s ∧ e.target = t ∨ e.source = t ∧ e.target = s) := by
      rw [← hedges.exists_iff]
      · exact ⟨e, he, hstrong, .inl ⟨hsource, htarget⟩⟩
      · intro e
        rw [strong_reversed]
        apply and_congr_right
        intro _
        show e.target = s ∧ e.source = t ∨ e.target = t ∧ e.source = s ↔ _
        tauto
    obtain ⟨f, hf, hstrong', hends | hends⟩ := hturned
    · exact .rel s t ⟨f, hf, (strong_congr hmem).1 hstrong', hends.1, hends.2⟩
    · exact .symm t s (.rel t s ⟨f, hf, (strong_congr hmem).1 hstrong', hends.1, hends.2⟩)
  | refl s => exact .refl s
  | symm s t _ ih => exact .symm s t ih
  | trans s t u _ _ ih ih' => exact .trans s t u ih ih'

theorem IsCluster.of_alike (hedges : Alike edges edges')
    (h : IsCluster unassigned edges serviceTraces opt c) :
    IsCluster unassigned' edges' serviceTraces opt c := by
  have hback (t : String) : t ∈ unassigned' ↔ t ∈ unassigned := (hmem t).symm
  constructor
  · obtain ⟨s, hs, hall⟩ := h.component
    refine ⟨s, (hmem s).1 hs, fun t => ?_⟩
    rw [hall t]
    exact ⟨Connected.of_alike hmem hedges, Connected.of_alike hback hedges.symm⟩
  · exact h.sorted
  · exact h.minServices
  · exact h.maxServices
  · rw [h.internalTraces, hedges.sum_eq]
    · congr 3
      apply List.filter_congr
      intro e _
      exact decide_eq_decide.2 (and_congr_left fun _ => strong_congr hmem)
    · intro e
      apply decide_eq_decide.2
      show Strong _ _ _ e.reversed ∧ e.target ∈ c.services ∧ e.source ∈ c.services ↔ _
      rw [strong_reversed, and_comm (a := e.target ∈ c.services)]
      rfl
  · intro t
    rw [h.sharedServices t]
    apply and_congr_right
    intro _
    rw [hedges.exists_iff]
    · have hweak (e : Edge) : Weak unassigned serviceTraces opt.withDefaults e ↔
          Weak unassigned' serviceTraces opt.withDefaults e :=
        and_congr_left fun _ => observed_congr hmem
      simp only [hweak]
    · intro e
      rw [weak_reversed]
      apply and_congr_right
      intro _
      exact or_comm
  · exact h.sharedSorted

end Told

/-! ## The cap -/

theorem isCluster_iff_uncapped {uncapped : Int} (h : uncapped ≤ 0) :
    IsCluster unassigned edges serviceTraces opt c ↔
      IsCluster unassigned edges serviceTraces { opt with maxServices := uncapped } c ∧
        (0 < opt.maxServices → c.services.length ≤ opt.maxServices) := by
  constructor
  · intro hc
    refine ⟨⟨hc.component, hc.sorted, hc.minServices, fun hpos => ?_, hc.internalTraces,
      hc.sharedServices, hc.sharedSorted⟩, hc.maxServices⟩
    exact absurd hpos (not_lt.2 h)
  · intro hc
    exact ⟨hc.1.component, hc.1.sorted, hc.1.minServices, hc.2, hc.1.internalTraces,
      hc.1.sharedServices, hc.1.sharedSorted⟩

theorem mem_oversizedClusters (hnodup : unassigned.Nodup) (range : RangeOrder) {uncapped : Int}
    (h : uncapped ≤ 0) :
    c ∈ oversizedClusters range unassigned edges serviceTraces opt ↔
      IsCluster unassigned edges serviceTraces { opt with maxServices := uncapped } c ∧
        0 < opt.maxServices ∧ opt.maxServices < c.services.length := by
  unfold oversizedClusters
  rw [List.mem_filter, decide_eq_true_eq, (findClusters_spec hnodup range _ _ _).1 c,
    isCluster_iff_uncapped h]
  exact and_congr_left fun _ => and_iff_left fun hpos => absurd hpos (lt_irrefl 0)

theorem nodup_of_rank {clusters : List Cluster}
    (h : clusters.Pairwise fun c d => c.rank < d.rank) : clusters.Nodup := by
  apply h.imp
  intro c d hlt heq
  rw [heq] at hlt
  exact lt_irrefl _ hlt

/-- **`findClusters` computes components.**  It proposes each cluster once; neither the order
of the services and the calls nor the end that told of a call matters; and what is found
without a cap is what is found and what is oversized, apart. -/
theorem findClusters_components (hnodup : unassigned.Nodup) (range : RangeOrder)
    (edges : List Edge) (serviceTraces : String → UInt64) (opt : ClusterOptions) :
    (∀ c, c ∈ findClusters range unassigned edges serviceTraces opt ↔
      IsCluster unassigned edges serviceTraces opt c) ∧
    (findClusters range unassigned edges serviceTraces opt).Pairwise (fun c d => c.rank < d.rank) ∧
    (∀ range' unassigned' edges', unassigned.Perm unassigned' → SameCalls edges edges' →
      findClusters range' unassigned' edges' serviceTraces opt =
        findClusters range unassigned edges serviceTraces opt) ∧
    (∀ range' range'' (uncapped : Int), uncapped ≤ 0 →
      (findClusters range' unassigned edges serviceTraces { opt with maxServices := uncapped }).Perm
        (findClusters range unassigned edges serviceTraces opt ++
          oversizedClusters range'' unassigned edges serviceTraces opt)) ∧
    ∀ range', ∀ c ∈ findClusters range unassigned edges serviceTraces opt,
      ∀ d ∈ oversizedClusters range' unassigned edges serviceTraces opt,
        ∀ s ∈ c.services, s ∉ d.services := by
  obtain ⟨hmem, hranked⟩ := findClusters_spec hnodup range edges serviceTraces opt
  have hdisjoint (range' : RangeOrder) :
      ∀ c ∈ findClusters range unassigned edges serviceTraces opt,
        ∀ d ∈ oversizedClusters range' unassigned edges serviceTraces opt,
          ∀ s ∈ c.services, s ∉ d.services := by
    intro c hc d hd s hsc hsd
    obtain ⟨hcluster, hsmall⟩ := (isCluster_iff_uncapped le_rfl).1 ((hmem c).1 hc)
    obtain ⟨hcluster', hpos, hlarge⟩ := (mem_oversizedClusters hnodup range' le_rfl).1 hd
    rw [hcluster.eq_of_mem hcluster' hsc hsd] at hsmall
    exact not_lt.2 (hsmall hpos) hlarge
  refine ⟨hmem, hranked, ?_, ?_, hdisjoint⟩
  · intro range' unassigned' edges' hperm hcalls
    obtain ⟨hmem', hranked'⟩ :=
      findClusters_spec (hperm.nodup_iff.1 hnodup) range' edges' serviceTraces opt
    apply eq_of_pairwise_lt hranked' hranked
    intro c
    rw [hmem' c, hmem c]
    exact ⟨IsCluster.of_alike (fun t => hperm.mem_iff.symm) hcalls.alike.symm,
      IsCluster.of_alike (fun t => hperm.mem_iff) hcalls.alike⟩
  · intro range' range'' uncapped hcap
    obtain ⟨hmem', hranked'⟩ := findClusters_spec hnodup range' edges serviceTraces
      { opt with maxServices := uncapped }
    apply (List.perm_ext_iff_of_nodup (nodup_of_rank hranked') _).2
    · intro c
      have hcapped : IsCluster unassigned edges serviceTraces opt c ↔ _ :=
        isCluster_iff_uncapped hcap
      rw [List.mem_append, hmem' c, hmem c, mem_oversizedClusters hnodup range'' hcap, hcapped,
        ← and_or_left]
      apply (and_iff_left _).symm
      by_cases hbig : 0 < opt.maxServices ∧ opt.maxServices < c.services.length
      · exact .inr hbig
      · exact .inl fun hpos => not_lt.1 fun hlt => hbig ⟨hpos, hlt⟩
    · apply List.nodup_append'.2
      refine ⟨nodup_of_rank hranked, (nodup_of_rank ?_), ?_⟩
      · exact (findClusters_spec hnodup range'' edges serviceTraces _).2.filter _
      · intro c hc hc'
        have hhead := ((hmem c).1 hc).head_mem
        exact hdisjoint range'' c hc c hc' _ hhead hhead

/-! ### A gateway -/

private def gatewayCalls : List Edge :=
  [⟨"orders", "billing", 10⟩, ⟨"gateway", "orders", 10⟩, ⟨"gateway", "carrier", 6⟩]

private def gatewayTraces (service : String) : UInt64 :=
  if service = "gateway" then 20 else 10

private def asMade : RangeOrder := ⟨id, fun keys => List.Perm.refl keys⟩

/-- A gateway that takes half of its traffic to a flow is named beside it. -/
theorem isCluster_behind_gateway :
    IsCluster ["orders", "gateway", "billing", "carrier"] gatewayCalls gatewayTraces
      defaultClusterOptions ⟨["billing", "orders"], ["gateway"], 10⟩ :=
  ((findClusters_components (by decide) asMade gatewayCalls gatewayTraces
    defaultClusterOptions).1 _).1 (by decide +kernel)

end Sluicio.Proposals
