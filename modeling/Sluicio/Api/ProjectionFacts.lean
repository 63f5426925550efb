import Sluicio.Api.TraceProjection
import Sluicio.Lib.Rows

/-!
# A projection states facts

`Facts` says what the nodes, the counts and the edges of a projection must be, in terms of the
spans of the trace and the edges of the graph.  A projection states them, in whatever order the
spans and the edges come, when no member that was not reached follows two that got equally far,
and when no two hops are written alike.
-/

namespace Sluicio.Api.Projection

open Lib SpanRow
open Proposals (RangeOrder)

section Facts

variable (members : List String) (edges : List FlowEdge) (rows : List SpanRow)

/-- When a span ends, its duration being a number without a sign. -/
def endsAt (r : SpanRow) : Int := r.timestamp + r.durationNs.toNat

def HasSpan (m : String) : Prop := ∃ r ∈ rows, r.serviceName = m

/-- `u` is a member with spans, and an edge leads from it to `m`. -/
def Upstream (m u : String) : Prop :=
  (∃ e ∈ edges, e.source = u ∧ e.target = m) ∧ u ∈ members ∧ HasSpan rows u

/-- Of the members before `m` that have spans, `u` is one whose last span ended latest. -/
def Furthest (m u : String) : Prop :=
  Upstream members edges rows m u ∧ ∃ r ∈ rows, r.serviceName = u ∧
    ∀ u', Upstream members edges rows m u' → ∀ r' ∈ rows, r'.serviceName = u' → endsAt r' ≤ endsAt r

/-- A span of `c` has its parent on `p`. -/
def Crosses (p c : String) : Prop :=
  ∃ child ∈ rows, ∃ parent ∈ rows, child.parentSpanID ≠ "" ∧
    child.parentSpanID = parent.spanID ∧ parent.serviceName = p ∧ child.serviceName = c

/-- A node that says of its service what is so. -/
structure NodeFacts (n : TraceNodeState) : Prop where
  failed : n.state = .failed ↔ ∃ r ∈ rows, r.serviceName = n.serviceName ∧ isErrorSpan r
  reached : n.state = .reached ↔ HasSpan rows n.serviceName ∧
    ∀ r ∈ rows, r.serviceName = n.serviceName → ¬ isErrorSpan r
  next : n.state = .next ↔
    ¬ HasSpan rows n.serviceName ∧ ∃ u, Upstream members edges rows n.serviceName u
  notReached : n.state = .notReached ↔
    ¬ HasSpan rows n.serviceName ∧ ¬ ∃ u, Upstream members edges rows n.serviceName u
  after : n.state = .next → Furthest members edges rows n.serviceName n.afterService
  spanCount : n.spanCount = (spansOf rows n.serviceName).length

structure Facts (out : TraceProjection) : Prop where
  names : out.nodes.map TraceNodeState.serviceName = members
  nodes : ∀ n ∈ out.nodes, NodeFacts members edges rows n
  total : (out.nodes.map TraceNodeState.spanCount).sum + out.spansOutsideIntegration = rows.length
  traversed : ∀ p ∈ members, ∀ c ∈ members, p ≠ c →
    (edgeKey p c ∈ out.traversedEdges ↔ Crosses rows p c)
  hops : ∀ k ∈ out.traversedEdges, ∃ p ∈ members, ∃ c ∈ members, p ≠ c ∧ k = edgeKey p c

/-- The projection says what is so, and says it whatever the order of the spans, of the edges
and in which its maps are read. -/
def StatesFacts : Prop :=
  ∀ range traceID,
    Facts members edges rows (projectTraceOntoFlow range traceID members edges rows) ∧
    ∀ range' edges' rows', edges'.Perm edges → rows'.Perm rows →
      projectTraceOntoFlow range' traceID members edges' rows' =
        projectTraceOntoFlow range traceID members edges rows

/-- No member without a span follows two that got equally far. -/
def NoTie : Prop :=
  ∀ m ∈ members, ¬ HasSpan rows m → ∀ u u', Furthest members edges rows m u →
    Furthest members edges rows m u' → u = u'

/-- No hop of the trace is written as one that it did not take. -/
def KeysApart : Prop :=
  ∀ p ∈ members, ∀ c ∈ members, ∀ p' ∈ members, ∀ c' ∈ members, p ≠ c → p' ≠ c' →
    edgeKey p c = edgeKey p' c' → Crosses rows p c → Crosses rows p' c'

end Facts

variable {members : List String} {edges edges' : List FlowEdge} {rows rows' : List SpanRow}
  {m u : String}

/-! ## What was seen -/

@[simp] theorem nodeOf_serviceName (byService : String → Option Agg)
    (upstream : String → Option String) (m : String) :
    (nodeOf byService upstream m).serviceName = m := by
  unfold nodeOf
  split
  · rfl
  · split <;> rfl

theorem spanEnd_eq {r : SpanRow} (h : r.durationNs.toNat < 2 ^ 63) : spanEnd r = endsAt r := by
  have hread : r.durationNs.toInt64.toInt = r.durationNs.toNat := by
    refine BitVec.toInt_eq_toNat_of_lt ?_
    show 2 * r.durationNs.toNat < 2 ^ 64
    omega
  rw [spanEnd, endsAt, hread]

theorem seen_eq_some {a : Agg} (h : (scan members rows).byService m = some a) :
    m ∈ members ∧ a.Describes (spansOf rows m) := by
  rw [scan_byService] at h
  split at h
  · next hm => exact ⟨hm, describes_aggOf h⟩
  · cases h

theorem spansOf_eq_nil : spansOf rows m = [] ↔ ¬ HasSpan rows m := by
  simp [spansOf, HasSpan, List.filter_eq_nil_iff]

theorem seen_eq_none (hm : m ∈ members) :
    (scan members rows).byService m = none ↔ ¬ HasSpan rows m := by
  rw [scan_byService, if_pos hm, aggOf_eq_none, spansOf_eq_nil]

theorem exists_seen (hm : m ∈ members) (h : HasSpan rows m) :
    ∃ a, (scan members rows).byService m = some a := by
  cases hseen : (scan members rows).byService m with
  | none => exact absurd h ((seen_eq_none hm).1 hseen)
  | some a => exact ⟨a, rfl⟩

/-- The edges that a member without a span is entered by are those from the members before it
that have spans. -/
theorem upstream_iff (hm : m ∈ members) (hspan : ¬ HasSpan rows m) :
    Upstream members edges rows m u ↔
      ∃ e ∈ edges, e.source = u ∧ ∃ a, Enters (scan members rows).byService m e a := by
  constructor
  · intro h
    obtain ⟨⟨e, he, rfl, htarget⟩, hmember, hhas⟩ := h
    obtain ⟨a, ha⟩ := exists_seen hmember hhas
    exact ⟨e, he, rfl, a, htarget, (seen_eq_none hm).2 hspan, ha⟩
  · intro h
    obtain ⟨e, he, rfl, a, htarget, _, ha⟩ := h
    obtain ⟨hmember, hdescribes⟩ := seen_eq_some ha
    obtain ⟨r, hr, _⟩ := hdescribes.first_mem
    exact ⟨⟨e, he, rfl, htarget⟩, hmember, r, mem_spansOf.1 hr⟩

/-- What the pass over the edges names is a member that got furthest, and it names any of
them. -/
theorem named_iff_furthest (hdur : ∀ r ∈ rows, r.durationNs.toNat < 2 ^ 63) (hm : m ∈ members)
    (hspan : ¬ HasSpan rows m) :
    Named (scan members rows).byService edges m (some u) ↔ Furthest members edges rows m u := by
  have hlast {e : FlowEdge} {a : Agg} (ha : Enters (scan members rows).byService m e a) :
      a.Describes (spansOf rows e.source) := (seen_eq_some ha.2.2).2
  constructor
  · intro h
    obtain ⟨e, he, rfl, a, ha, hmax⟩ := h
    refine ⟨(upstream_iff hm hspan).2 ⟨e, he, rfl, a, ha⟩, ?_⟩
    obtain ⟨r, hr, hend⟩ := (hlast ha).last_mem
    obtain ⟨hrow, hservice⟩ := mem_spansOf.1 hr
    refine ⟨r, hrow, hservice, fun u' hu' r' hr' hservice' => ?_⟩
    obtain ⟨e', he', rfl, a', ha'⟩ := (upstream_iff hm hspan).1 hu'
    calc
      endsAt r' = spanEnd r' := (spanEnd_eq (hdur r' hr')).symm
      _ ≤ a'.last := (hlast ha').le_last r' (mem_spansOf.2 ⟨hr', hservice'⟩)
      _ ≤ a.last := hmax e' he' a' ha'
      _ = endsAt r := by rw [← hend, spanEnd_eq (hdur r hrow)]
  · intro h
    obtain ⟨hup, r, hr, hservice, hmax⟩ := h
    obtain ⟨e, he, rfl, a, ha⟩ := (upstream_iff hm hspan).1 hup
    refine ⟨e, he, rfl, a, ha, fun e' he' a' ha' => ?_⟩
    obtain ⟨r', hr', hend'⟩ := (hlast ha').last_mem
    obtain ⟨hrow', hservice'⟩ := mem_spansOf.1 hr'
    calc
      a'.last = endsAt r' := by rw [← hend', spanEnd_eq (hdur r' hrow')]
      _ ≤ endsAt r :=
        hmax e'.source ((upstream_iff hm hspan).2 ⟨e', he', rfl, a', ha'⟩) r' hrow' hservice'
      _ = spanEnd r := (spanEnd_eq (hdur r hr)).symm
      _ ≤ a.last := (hlast ha).le_last r (mem_spansOf.2 ⟨hr, hservice⟩)

theorem upstreams_cases (edges : List FlowEdge)
    (hdur : ∀ r ∈ rows, r.durationNs.toNat < 2 ^ 63) (hm : m ∈ members) (hspan : ¬ HasSpan rows m) :
    (upstreams (scan members rows).byService edges m = none ∧
        ¬ ∃ u, Upstream members edges rows m u) ∨
      ∃ u, upstreams (scan members rows).byService edges m = some u ∧
        Furthest members edges rows m u := by
  have hnamed := upstreams_named (scan members rows).byService edges m
  cases hup : upstreams (scan members rows).byService edges m with
  | none =>
    rw [hup] at hnamed
    refine .inl ⟨rfl, fun h => ?_⟩
    obtain ⟨u, hu⟩ := h
    obtain ⟨e, he, _, a, ha⟩ := (upstream_iff hm hspan).1 hu
    exact hnamed e he a ha
  | some u =>
    rw [hup] at hnamed
    exact .inr ⟨u, rfl, (named_iff_furthest hdur hm hspan).1 hnamed⟩

theorem nodeOf_cases (edges : List FlowEdge)
    (hdur : ∀ r ∈ rows, r.durationNs.toNat < 2 ^ 63) (hm : m ∈ members) :
    let n := nodeOf (scan members rows).byService (upstreams (scan members rows).byService edges) m
    (HasSpan rows m ∧ n.spanCount = (spansOf rows m).length ∧
        ((n.state = .failed ∧ ∃ r ∈ rows, r.serviceName = m ∧ isErrorSpan r) ∨
          (n.state = .reached ∧ ∀ r ∈ rows, r.serviceName = m → ¬ isErrorSpan r))) ∨
      (¬ HasSpan rows m ∧ n.spanCount = 0 ∧
        ((n.state = .notReached ∧ ¬ ∃ u, Upstream members edges rows m u) ∨
          (n.state = .next ∧ Furthest members edges rows m n.afterService))) := by
  intro n
  cases hseen : (scan members rows).byService m with
  | some a =>
    obtain ⟨_, hdescribes⟩ := seen_eq_some hseen
    obtain ⟨r, hr, _⟩ := hdescribes.first_mem
    refine .inl ⟨⟨r, mem_spansOf.1 hr⟩, ?_, ?_⟩
    · simp only [n, nodeOf, hseen]
      exact hdescribes.count
    · have herrors : 0 < a.errors ↔ ∃ r ∈ rows, r.serviceName = m ∧ isErrorSpan r := by
        rw [hdescribes.errors, List.countP_pos_iff]
        simp only [mem_spansOf, and_assoc]
      by_cases hfailed : 0 < a.errors
      · refine .inl ⟨?_, herrors.1 hfailed⟩
        simp only [n, nodeOf, hseen, if_pos hfailed]
      · refine .inr ⟨?_, fun r hr hservice herr => ?_⟩
        · simp only [n, nodeOf, hseen, if_neg hfailed]
        · exact hfailed (herrors.2 ⟨r, hr, hservice, herr⟩)
  | none =>
    have hspan := (seen_eq_none hm).1 hseen
    refine .inr ⟨hspan, ?_, ?_⟩
    · simp only [n, nodeOf, hseen]
      split <;> rfl
    · obtain ⟨hup, hnone⟩ | ⟨u, hup, hfurthest⟩ := upstreams_cases edges hdur hm hspan
      · refine .inl ⟨?_, hnone⟩
        simp only [n, nodeOf, hseen, hup]
      · refine .inr ⟨?_, ?_⟩
        · simp only [n, nodeOf, hseen, hup]
        · simpa only [n, nodeOf, hseen, hup] using hfurthest

theorem nodeOf_facts (edges : List FlowEdge)
    (hdur : ∀ r ∈ rows, r.durationNs.toNat < 2 ^ 63) (hm : m ∈ members) :
    NodeFacts members edges rows (nodeOf (scan members rows).byService
      (upstreams (scan members rows).byService edges) m) := by
  have hcases := nodeOf_cases edges hdur hm
  dsimp only at hcases
  obtain ⟨hspan, hcount, ⟨hstate, herr⟩ | ⟨hstate, hok⟩⟩ |
    ⟨hspan, hcount, ⟨hstate, hnone⟩ | ⟨hstate, hfurthest⟩⟩ := hcases
  · constructor <;> simp only [hstate, nodeOf_serviceName, reduceCtorEq, false_iff, true_iff]
    · exact herr
    · intro h
      obtain ⟨r, hr, hservice, hfailed⟩ := herr
      exact h.2 r hr hservice hfailed
    · exact fun h => h.1 hspan
    · exact fun h => h.1 hspan
    · exact False.elim
    · exact hcount
  · constructor <;> simp only [hstate, nodeOf_serviceName, reduceCtorEq, false_iff, true_iff]
    · intro h
      obtain ⟨r, hr, hservice, hfailed⟩ := h
      exact hok r hr hservice hfailed
    · exact ⟨hspan, hok⟩
    · exact fun h => h.1 hspan
    · exact fun h => h.1 hspan
    · exact False.elim
    · exact hcount
  · have hempty := congrArg List.length (spansOf_eq_nil.2 hspan)
    constructor <;> simp only [hstate, nodeOf_serviceName, reduceCtorEq, false_iff, true_iff]
    · exact fun h => hspan ⟨_, h.choose_spec.1, h.choose_spec.2.1⟩
    · exact fun h => hspan h.1
    · exact fun h => hnone h.2
    · exact ⟨hspan, hnone⟩
    · exact False.elim
    · rw [hcount, hempty]
      rfl
  · have hempty := congrArg List.length (spansOf_eq_nil.2 hspan)
    constructor <;> simp only [hstate, nodeOf_serviceName, reduceCtorEq, false_iff, true_iff]
    · exact fun h => hspan ⟨_, h.choose_spec.1, h.choose_spec.2.1⟩
    · exact fun h => hspan h.1
    · exact ⟨hspan, _, hfurthest.1⟩
    · exact fun h => h.2 ⟨_, hfurthest.1⟩
    · exact fun _ => hfurthest
    · rw [hcount, hempty]
      rfl

/-! ## The hops -/

theorem hop_eq_some {spanService : String → String} {r : SpanRow} {k : String} :
    hop spanService r = some k ↔ spanService r.spanID ≠ "" ∧ r.parentSpanID ≠ "" ∧
      spanService r.parentSpanID ≠ "" ∧ spanService r.parentSpanID ≠ spanService r.spanID ∧
      edgeKey (spanService r.parentSpanID) (spanService r.spanID) = k := by
  unfold hop
  dsimp only
  split
  · next h => simp only [reduceCtorEq, false_iff]; tauto
  · next h =>
    split
    · next h' => simp only [reduceCtorEq, false_iff]; tauto
    · next h' => simp only [Option.some.injEq]; tauto

theorem spanService_eq (hnames : ∀ m ∈ members, m ≠ "") (hids : (rows.map spanID).Nodup)
    {id : String} : (scan members rows).spanService id = m ∧ m ≠ "" ↔
      m ∈ members ∧ ∃ r ∈ rows, r.spanID = id ∧ r.serviceName = m := by
  constructor
  · intro h
    obtain ⟨rfl, hne⟩ := h
    by_cases hrow : ∃ r ∈ rows, r.spanID = id
    · obtain ⟨r, hr, rfl⟩ := hrow
      have hservice : (scan members rows).spanService r.spanID = _ := scan_spanService hids hr
      by_cases hmember : r.serviceName ∈ members
      · rw [if_pos hmember] at hservice
        rw [hservice]
        exact ⟨hmember, r, hr, rfl, rfl⟩
      · rw [if_neg hmember] at hservice
        exact absurd hservice hne
    · have hnone : ∀ r ∈ rows, r.spanID ≠ id := fun r hr heq => hrow ⟨r, hr, heq⟩
      exact absurd (scan_spanService_of_ne hnone) hne
  · intro h
    obtain ⟨hmember, r, hr, rfl, rfl⟩ := h
    rw [scan_spanService hids hr, if_pos hmember]
    exact ⟨rfl, hnames _ hmember⟩

theorem mem_hops (hnames : ∀ m ∈ members, m ≠ "") (hids : (rows.map spanID).Nodup)
    {k : String} : k ∈ rows.filterMap (hop (scan members rows).spanService) ↔
      ∃ p ∈ members, ∃ c ∈ members, p ≠ c ∧ edgeKey p c = k ∧ Crosses rows p c := by
  simp only [List.mem_filterMap, hop_eq_some]
  constructor
  · intro h
    obtain ⟨child, hchild, hc, hroot, hp, hne, rfl⟩ := h
    obtain ⟨hpm, parent, hparent, hid, hpname⟩ := (spanService_eq hnames hids).1 ⟨rfl, hp⟩
    obtain ⟨hcm, child', hchild', hid', hcname⟩ := (spanService_eq hnames hids).1 ⟨rfl, hc⟩
    exact ⟨_, hpm, _, hcm, hne, rfl, child, hchild, parent, hparent, hroot, hid.symm, hpname,
      (congrArg serviceName (eq_of_key_eq hids hchild hchild' hid'.symm)).trans hcname⟩
  · intro h
    obtain ⟨p, hp, c, hc, hne, rfl, child, hchild, parent, hparent, hroot, hid, rfl, rfl⟩ := h
    have hchildOn := (spanService_eq hnames hids).2 ⟨hc, child, hchild, rfl, rfl⟩
    have hparentOn := (spanService_eq hnames hids).2 ⟨hp, parent, hparent, rfl, rfl⟩
    refine ⟨child, hchild, ?_⟩
    rw [hid, hchildOn.1, hparentOn.1]
    exact ⟨hchildOn.2, hid ▸ hroot, hparentOn.2, hne, rfl⟩

theorem countP_members_cons (hm : m ∉ members) (rows : List SpanRow) :
    rows.countP (fun r => r.serviceName ∈ m :: members) =
      (spansOf rows m).length + rows.countP fun r => r.serviceName ∈ members := by
  rw [spansOf, ← List.countP_eq_length_filter]
  induction rows with
  | nil => rfl
  | cons r rows ih =>
    rw [List.countP_cons, List.countP_cons, List.countP_cons, ih]
    by_cases hname : r.serviceName = m
    · have hnot : r.serviceName ∉ members := hname ▸ hm
      simp only [hname ▸ hnot, hname, List.mem_cons_self, decide_true, decide_false, if_true,
        Bool.false_eq_true, if_false]
      omega
    · simp only [hname, List.mem_cons, false_or, decide_false, Bool.false_eq_true, if_false]
      omega

theorem sum_spansOf (hmembers : members.Nodup) (rows : List SpanRow) :
    (members.map fun m => (spansOf rows m).length).sum =
      rows.countP fun r => r.serviceName ∈ members := by
  induction members with
  | nil => simp
  | cons m members ih =>
    rw [List.nodup_cons] at hmembers
    rw [List.map_cons, List.sum_cons, ih hmembers.2, countP_members_cons hmembers.1]

theorem mem_traversedEdges (hnames : ∀ m ∈ members, m ≠ "")
    (hids : (rows.map spanID).Nodup) {range : RangeOrder} {traceID k : String} :
    k ∈ (projectTraceOntoFlow range traceID members edges rows).traversedEdges ↔
      ∃ p ∈ members, ∃ c ∈ members, p ≠ c ∧ edgeKey p c = k ∧ Crosses rows p c := by
  rw [← mem_hops hnames hids]
  show k ∈ orderBy id (range.visit _) ↔ _
  rw [mem_orderBy, (range.perm _).mem_iff, List.mem_dedup]

theorem projection_facts (hmembers : members.Nodup) (hnames : ∀ m ∈ members, m ≠ "")
    (hids : (rows.map spanID).Nodup) (hdur : ∀ r ∈ rows, r.durationNs.toNat < 2 ^ 63)
    (hkeys : KeysApart members rows) (range : RangeOrder) (traceID : String) :
    Facts members edges rows (projectTraceOntoFlow range traceID members edges rows) where
  names := by
    show (members.map _).map _ = members
    rw [List.map_map]
    exact (List.map_congr_left fun m _ => nodeOf_serviceName _ _ m).trans (List.map_id _)
  nodes := by
    intro n hn
    obtain ⟨m, hm, rfl⟩ := List.mem_map.1 hn
    exact nodeOf_facts edges hdur hm
  total := by
    show ((members.map _).map _).sum + (scan members rows).outside = _
    have hcounts : (members.map (nodeOf (scan members rows).byService
        (upstreams (scan members rows).byService edges))).map TraceNodeState.spanCount =
        members.map fun m => (spansOf rows m).length := by
      rw [List.map_map]
      refine List.map_congr_left fun m hm => ?_
      have hcount := (nodeOf_facts edges hdur hm).spanCount
      rwa [nodeOf_serviceName] at hcount
    rw [hcounts, sum_spansOf hmembers, scan_outside]
    simpa using (List.length_eq_countP_add_countP (fun r => r.serviceName ∈ members)
      (l := rows)).symm
  traversed := by
    intro p hp c hc hne
    rw [mem_traversedEdges hnames hids]
    constructor
    · intro h
      obtain ⟨p', hp', c', hc', hne', hkey, hcross⟩ := h
      exact hkeys p' hp' c' hc' p hp c hc hne' hne hkey hcross
    · intro h
      exact ⟨p, hp, c, hc, hne, rfl, h⟩
  hops := by
    intro k hk
    obtain ⟨p, hp, c, hc, hne, hkey, _⟩ := (mem_traversedEdges hnames hids).1 hk
    exact ⟨p, hp, c, hc, hne, hkey.symm⟩

/-! ## The order of the spans and of the edges -/

theorem scan_byService_perm (h : rows'.Perm rows) :
    (scan members rows').byService = (scan members rows).byService := by
  funext m
  have hspans : (spansOf rows' m).Perm (spansOf rows m) := h.filter _
  rw [scan_byService, scan_byService, aggOf_perm hspans]

theorem scan_spanService_perm (hids : (rows.map spanID).Nodup) (h : rows'.Perm rows) :
    (scan members rows').spanService = (scan members rows).spanService := by
  have hids' : (rows'.map spanID).Nodup := (h.map _).nodup_iff.2 hids
  funext id
  by_cases hrow : ∃ r ∈ rows, r.spanID = id
  · obtain ⟨r, hr, rfl⟩ := hrow
    rw [scan_spanService hids hr, scan_spanService hids' (h.mem_iff.2 hr)]
  · have hnone : ∀ r ∈ rows, r.spanID ≠ id := fun r hr heq => hrow ⟨r, hr, heq⟩
    rw [scan_spanService_of_ne hnone, scan_spanService_of_ne fun r hr => hnone r (h.mem_iff.1 hr)]

theorem Named.perm {seen : String → Option Agg} {named : Option String} (h : edges'.Perm edges)
    (hnamed : Named seen edges' m named) : Named seen edges m named := by
  cases named with
  | none => exact fun e he => hnamed e (h.mem_iff.2 he)
  | some u =>
    obtain ⟨e, he, hsource, a, ha, hmax⟩ := hnamed
    exact ⟨e, h.mem_iff.1 he, hsource, a, ha, fun e' he' => hmax e' (h.mem_iff.2 he')⟩

theorem nodeOf_perm (hdur : ∀ r ∈ rows, r.durationNs.toNat < 2 ^ 63)
    (htie : NoTie members edges rows) (hm : m ∈ members) (h : edges'.Perm edges) :
    nodeOf (scan members rows).byService (upstreams (scan members rows).byService edges') m =
      nodeOf (scan members rows).byService (upstreams (scan members rows).byService edges) m := by
  cases hseen : (scan members rows).byService m with
  | some a => simp only [nodeOf, hseen]
  | none =>
    have hspan := (seen_eq_none hm).1 hseen
    have hnamed := upstreams_named (scan members rows).byService edges m
    have hnamed' := (upstreams_named (scan members rows).byService edges' m).perm h
    have hsame : upstreams (scan members rows).byService edges' m =
        upstreams (scan members rows).byService edges m := by
      cases hup : upstreams (scan members rows).byService edges m with
      | none =>
        rw [hup] at hnamed
        cases hup' : upstreams (scan members rows).byService edges' m with
        | none => rfl
        | some u =>
          rw [hup'] at hnamed'
          obtain ⟨e, he, _, a, ha, _⟩ := hnamed'
          exact absurd ha (hnamed e he a)
      | some u =>
        rw [hup] at hnamed
        cases hup' : upstreams (scan members rows).byService edges' m with
        | none =>
          rw [hup'] at hnamed'
          obtain ⟨e, he, _, a, ha, _⟩ := hnamed
          exact absurd ha (hnamed' e he a)
        | some u' =>
          rw [hup'] at hnamed'
          rw [htie m hm hspan u' u ((named_iff_furthest hdur hm hspan).1 hnamed')
            ((named_iff_furthest hdur hm hspan).1 hnamed)]
    simp only [nodeOf, hseen, hsame]

theorem projection_perm (hids : (rows.map spanID).Nodup)
    (hdur : ∀ r ∈ rows, r.durationNs.toNat < 2 ^ 63) (htie : NoTie members edges rows)
    (range range' : RangeOrder) (traceID : String) (hedges : edges'.Perm edges)
    (hrows : rows'.Perm rows) :
    projectTraceOntoFlow range' traceID members edges' rows' =
      projectTraceOntoFlow range traceID members edges rows := by
  have hnodes : members.map (nodeOf (scan members rows).byService
        (upstreams (scan members rows).byService edges')) =
      members.map (nodeOf (scan members rows).byService
        (upstreams (scan members rows).byService edges)) :=
    List.map_congr_left fun m hm => nodeOf_perm hdur htie hm hedges
  have houtside : (scan members rows').outside = (scan members rows).outside := by
    rw [scan_outside, scan_outside, hrows.countP_eq]
  have hvisit (names : List String) : (range'.visit names).Perm (range.visit names) :=
    (range'.perm names).trans (range.perm names).symm
  have hedges : orderBy id
        (range'.visit (rows'.filterMap (hop (scan members rows).spanService)).dedup) =
      orderBy id (range.visit (rows.filterMap (hop (scan members rows).spanService)).dedup) := by
    refine (orderBy_eq_iff_perm Function.injective_id).2 ?_
    exact ((range'.perm _).trans (hrows.filterMap _).dedup).trans (range.perm _).symm
  simp only [projectTraceOntoFlow, scan_byService_perm hrows, scan_spanService_perm hids hrows,
    hnodes, houtside, hedges, boundsOf_perm (hvisit _)]

theorem exists_order_named (hdur : ∀ r ∈ rows, r.durationNs.toNat < 2 ^ 63) (hm : m ∈ members)
    (hspan : ¬ HasSpan rows m) (hu : Furthest members edges rows m u) :
    ∃ edges', edges'.Perm edges ∧
      (nodeOf (scan members rows).byService
        (upstreams (scan members rows).byService edges') m).afterService = u := by
  obtain ⟨e, he, rfl, a, ha, hmax⟩ := (named_iff_furthest hdur hm hspan).2 hu
  have hperm : (e :: edges.erase e).Perm edges := (List.perm_cons_erase he).symm
  refine ⟨e :: edges.erase e, hperm, ?_⟩
  have hrest : NoneFurther (scan members rows).byService (edges.erase e) m a.last :=
    fun e' he' => hmax e' (List.mem_of_mem_erase he')
  have hfirst := upstreams_first ha hrest
  simp only [nodeOf, (seen_eq_none hm).2 hspan, hfirst]

def asListed : RangeOrder := ⟨id, fun keys => List.Perm.refl keys⟩

/-- **A projection states facts** just when no member that was not reached follows two that got
equally far, and no hop is written as one that was not taken. -/
theorem statesFacts_iff (hmembers : members.Nodup) (hnames : ∀ m ∈ members, m ≠ "")
    (hids : (rows.map spanID).Nodup) (hdur : ∀ r ∈ rows, r.durationNs.toNat < 2 ^ 63) :
    StatesFacts members edges rows ↔ NoTie members edges rows ∧ KeysApart members rows := by
  constructor
  · intro h
    constructor
    · intro m hm hspan u u' hu hu'
      have hnode {edges' : List FlowEdge} (hperm : edges'.Perm edges) :
          nodeOf (scan members rows).byService (upstreams (scan members rows).byService edges') m =
            nodeOf (scan members rows).byService
              (upstreams (scan members rows).byService edges) m := by
        have hsame := (h asListed "").2 asListed edges' rows hperm (List.Perm.refl rows)
        exact List.map_inj_left.1 (congrArg TraceProjection.nodes hsame) m hm
      obtain ⟨edges₁, hperm₁, hname₁⟩ := exists_order_named hdur hm hspan hu
      obtain ⟨edges₂, hperm₂, hname₂⟩ := exists_order_named hdur hm hspan hu'
      rw [← hname₁, ← hname₂, hnode hperm₁, hnode hperm₂]
    · intro p hp c hc p' hp' c' hc' hne hne' hkey hcross
      have hfacts := (h asListed "").1
      have hmem := (hfacts.traversed p hp c hc hne).2 hcross
      rw [hkey] at hmem
      exact (hfacts.traversed p' hp' c' hc' hne').1 hmem
  · intro h range traceID
    refine ⟨projection_facts hmembers hnames hids hdur h.2 range traceID, ?_⟩
    intro range' edges' rows' hedges hrows
    exact projection_perm hids hdur h.1 range range' traceID hedges hrows

/-! ### Two upstreams that end together -/

private def joined : List String := ["early", "late", "target"]

private def joins : List FlowEdge := [⟨"early", "target"⟩, ⟨"late", "target"⟩]

private def together : List SpanRow :=
  [⟨"a", "", "early", 0, 10, "Ok"⟩, ⟨"b", "", "late", 4, 6, "Ok"⟩]

/-- The last spans of the two end at once, and the one whose edge comes first is named. -/
theorem tie_not_statesFacts :
    joined.Nodup ∧ (∀ m ∈ joined, m ≠ "") ∧ (together.map spanID).Nodup ∧
      (∀ r ∈ together, r.durationNs.toNat < 2 ^ 63) ∧ ¬ StatesFacts joined joins together := by
  refine ⟨by decide, by decide, by decide, by decide, fun h => ?_⟩
  have hswap : joins.reverse.Perm joins := List.reverse_perm joins
  have hsame := (h asListed "t").2 asListed joins.reverse together hswap (List.Perm.refl _)
  have hnodes : (projectTraceOntoFlow asListed "t" joined joins.reverse together).nodes ≠
      (projectTraceOntoFlow asListed "t" joined joins together).nodes := by decide +kernel
  exact hnodes (congrArg TraceProjection.nodes hsame)

private def inTurn : List SpanRow :=
  [⟨"a", "", "early", 0, 10, "Ok"⟩, ⟨"b", "a", "late", 4, 6, "Ok"⟩]

/-- One upstream each, so no order is told. -/
theorem statesFacts_linear : StatesFacts joined [⟨"early", "late"⟩, ⟨"late", "target"⟩] inTurn := by
  refine (statesFacts_iff (by decide) (by decide) (by decide) (by decide)).2 ⟨?_, ?_⟩
  · rintro m - - u u' ⟨⟨⟨e, he, rfl, rfl⟩, -⟩, -⟩ ⟨⟨⟨e', he', rfl, htarget⟩, -⟩, -⟩
    revert e e'
    decide
  · intro p hp c hc p' hp' c' hc' _ _ hkey hcross
    have hkeys : ∀ p ∈ joined, ∀ c ∈ joined, ∀ p' ∈ joined, ∀ c' ∈ joined,
        edgeKey p c = edgeKey p' c' → p = p' ∧ c = c' := by decide +kernel
    obtain ⟨rfl, rfl⟩ := hkeys p hp c hc p' hp' c' hc' hkey
    exact hcross

end Sluicio.Api.Projection
