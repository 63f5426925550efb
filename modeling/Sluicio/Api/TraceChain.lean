import Sluicio.Api.SpanScope
import Sluicio.Lib.BreadthFirst
import Sluicio.Store.Links
import Sluicio.Tracecompletion.Normalize

/-!
# The hand-off chain around a message

`traceChain` walks the hand-offs breadth first from one message, forwards and backwards, and
shows what the caller may see of what it reached.  Two bounds stop the walk, each of which is
reported: `TruncatedDepth` and `TruncatedNodes`.
-/

namespace Sluicio.Api

open Lib
open Identity
open Store (LinkedSpan IncomingLink TraceHead HandOff)
open Tracecompletion (trimSpace)

def maxChainDepth : Nat := 8

def maxChainNodes : Nat := 40

/-- `ChainEdge`: the first ran first and handed to the second. -/
structure ChainEdge where
  fromTrace : String
  into : String
  deriving DecidableEq

structure ChainNode where
  traceID : String
  serviceName : String
  spanName : String
  startedAt : Int
  spanCount : Nat
  hasError : Bool
  depth : Nat

structure TraceChainResponse where
  origin : String
  nodes : List ChainNode
  edges : List ChainEdge
  hidden : Nat
  truncatedDepth : Bool
  truncatedNodes : Bool

inductive ChainAnswer where
  | refused (status : Nat) (message : String)
  | ok (response : TraceChainResponse)

/-- The same rows in another order, with their links in another order. -/
def SameLinks (rows rows' : List (String × List String)) : Prop :=
  ∃ mid, rows.Perm mid ∧ List.Forall₂ (fun r r' => r.1 = r'.1 ∧ r.2.Perm r'.2) mid rows'

/-- The store as the handler sees it: a query fails, or answers with its rows in some order. -/
structure LinkReads (spans : List LinkedSpan) where
  linksFrom : List String → Option (List (String × List String))
  tracesLinkingTo : List String → Option (List IncomingLink)
  traceHeads : List String → Option (List TraceHead)
  linksFrom_rows : ∀ ids rows, linksFrom ids = some rows →
    SameLinks rows (Store.linksFrom spans ids)
  tracesLinkingTo_rows : ∀ ids rows, tracesLinkingTo ids = some rows →
    rows.Perm (Store.tracesLinkingTo spans ids)
  traceHeads_rows : ∀ ids rows, traceHeads ids = some rows → rows.Perm (Store.traceHeads spans ids)

open LinkReads

section Handler

variable {spans : List LinkedSpan} (reads : LinkReads spans)

/-- What one frontier is given: the edges to remember and the ids to note, a step back and then
a step forward.  A query that fails is logged and gives nothing, and `note` passes over a blank
id. -/
def chainStep (frontier : List String) : List ChainEdge × List String :=
  let back := (reads.linksFrom frontier).getD []
  let fwd := (reads.tracesLinkingTo frontier).getD []
  (back.flatMap (fun row => row.2.map fun pred => ⟨pred, row.1⟩) ++
      fwd.map fun link => ⟨link.linksTo, link.traceId⟩,
    (back.flatMap (fun row => row.2) ++ fwd.map IncomingLink.traceId).filter fun id => id ≠ "")

/-- The loop of `traceChain`. -/
def chainWalk (origin : String) : Walk String ChainEdge :=
  breadthFirst maxChainNodes maxChainDepth (chainStep reads) origin

/-- `hasFilter && !anyVisible(…)`, the other way round. -/
def headVisible (allowed : Option (Finset String)) (hd : TraceHead) : Bool :=
  match allowed with
  | none => true
  | some names => hd.services.any fun service => service ∈ names

def chainNode (depthSeen : List (String × Nat)) (hd : TraceHead) : ChainNode :=
  { traceID := hd.traceId
    serviceName := hd.serviceName
    spanName := hd.spanName
    startedAt := hd.startedAt
    spanCount := hd.spanCount
    hasError := hd.hasError
    depth := ((depthSeen.find? fun seen => seen.1 = hd.traceId).map Prod.snd).getD 0 }

/-- `traceChain`.  The edges are a set, and come in any order. -/
def traceChain (h : Handlers) (p : Principal) (toLower : String → String) (traceId : String) :
    ChainAnswer :=
  let origin := toLower (trimSpace traceId)
  if origin = "" then .refused 400 "trace id is required"
  else
    let walk := chainWalk reads origin
    match reads.traceHeads (walk.depths.map Prod.fst) with
    | none => .refused 500 "query failed"
    | some heads =>
      let allowed := h.signalServiceFilter p .traces
      let shown := heads.filter (headVisible allowed)
      let visible := shown.map TraceHead.traceId
      if origin ∉ visible then .refused 404 "no spans found for this trace"
      else
        .ok { origin := origin
              nodes := shown.map (chainNode walk.depths)
              edges := walk.edges.dedup.filter fun e => e.fromTrace ∈ visible ∧ e.into ∈ visible
              hidden := (heads.filter fun hd => !headVisible allowed hd).length
              truncatedDepth := walk.deep
              truncatedNodes := walk.full }

end Handler

/-! ## The graph -/

section Graph

variable (spans : List LinkedSpan)

/-- A step of the walk: a hand-off either way, to a trace with an id. -/
def Adjacent (s t : String) : Prop := t ≠ "" ∧ (HandOff spans s t ∨ HandOff spans t s)

/-- The hand-offs a trace takes part in. -/
def PartOf (t : String) (e : ChainEdge) : Prop :=
  HandOff spans e.fromTrace e.into ∧ (e.into = t ∨ e.fromTrace = t)

/-- The trace has spans, some of which the caller may see. -/
def Shown (h : Handlers) (p : Principal) (t : String) : Prop :=
  ∃ s ∈ spans, s.traceId = t ∧
    ∀ names, h.signalServiceFilter p .traces = some names → s.serviceName ∈ names

end Graph

variable {spans : List LinkedSpan} {reads : LinkReads spans}

/-- No query of the walk fails. -/
def LinkReads.Answers (reads : LinkReads spans) : Prop :=
  ∀ ids, (reads.linksFrom ids).isSome ∧ (reads.tracesLinkingTo ids).isSome

theorem SameLinks.mem_iff {rows rows' : List (String × List String)} (h : SameLinks rows rows')
    (t p : String) :
    (∃ row ∈ rows, row.1 = t ∧ p ∈ row.2) ↔ ∃ row ∈ rows', row.1 = t ∧ p ∈ row.2 := by
  obtain ⟨mid, hperm, hrows⟩ := h
  have hmid : (∃ row ∈ mid, row.1 = t ∧ p ∈ row.2) ↔ ∃ row ∈ rows', row.1 = t ∧ p ∈ row.2 := by
    clear hperm
    induction hrows with
    | nil => exact Iff.rfl
    | cons hrow _ ih =>
      rw [List.exists_mem_cons_iff, List.exists_mem_cons_iff, ih, hrow.1, hrow.2.mem_iff]
  rw [← hmid]
  simp only [hperm.mem_iff]

variable {frontier : List String} {p t : String} {n : Nat}

theorem mem_back (h : reads.Answers) :
    (∃ row ∈ (reads.linksFrom frontier).getD [], row.1 = t ∧ p ∈ row.2) ↔
      t ∈ frontier ∧ HandOff spans p t := by
  obtain ⟨rows, hrows⟩ := Option.isSome_iff_exists.1 (h frontier).1
  rw [hrows, Option.getD_some, (reads.linksFrom_rows frontier rows hrows).mem_iff]
  exact Store.mem_linksFrom

theorem mem_fwd (h : reads.Answers) :
    (∃ link ∈ (reads.tracesLinkingTo frontier).getD [], link.linksTo = p ∧ link.traceId = t) ↔
      p ∈ frontier ∧ HandOff spans p t := by
  obtain ⟨rows, hrows⟩ := Option.isSome_iff_exists.1 (h frontier).2
  rw [hrows, Option.getD_some]
  simp only [(reads.tracesLinkingTo_rows frontier rows hrows).mem_iff]
  exact Store.mem_tracesLinkingTo

theorem mem_chainStep_ids (h : reads.Answers) {y : String} :
    y ∈ (chainStep reads frontier).2 ↔ ∃ x ∈ frontier, Adjacent spans x y := by
  show y ∈ List.filter _ (_ ++ _) ↔ _
  rw [List.mem_filter, decide_eq_true_eq, List.mem_append, List.mem_flatMap, List.mem_map]
  constructor
  · intro hy
    obtain ⟨hoffered, hne⟩ := hy
    cases hoffered with
    | inl hrow =>
      obtain ⟨row, hrow, hy⟩ := hrow
      obtain ⟨hx, hhand⟩ := (mem_back h).1 ⟨row, hrow, rfl, hy⟩
      exact ⟨row.1, hx, hne, .inr hhand⟩
    | inr hlink =>
      obtain ⟨link, hlink, rfl⟩ := hlink
      obtain ⟨hx, hhand⟩ := (mem_fwd h).1 ⟨link, hlink, rfl, rfl⟩
      exact ⟨link.linksTo, hx, hne, .inl hhand⟩
  · intro hy
    obtain ⟨x, hx, hne, hhand⟩ := hy
    refine ⟨?_, hne⟩
    cases hhand with
    | inl hforward =>
      obtain ⟨link, hlink, -, hid⟩ := (mem_fwd h).2 ⟨hx, hforward⟩
      exact .inr ⟨link, hlink, hid⟩
    | inr hbackward =>
      obtain ⟨row, hrow, -, hy⟩ := (mem_back h).2 ⟨hx, hbackward⟩
      exact .inl ⟨row, hrow, hy⟩

theorem mem_chainStep_edges (h : reads.Answers) {e : ChainEdge} :
    e ∈ (chainStep reads frontier).1 ↔ ∃ x ∈ frontier, PartOf spans x e := by
  show e ∈ _ ++ _ ↔ _
  rw [List.mem_append, List.mem_flatMap, List.mem_map]
  constructor
  · intro he
    cases he with
    | inl hrow =>
      obtain ⟨row, hrow, he⟩ := hrow
      obtain ⟨pred, hpred, rfl⟩ := List.mem_map.1 he
      obtain ⟨hx, hhand⟩ := (mem_back h).1 ⟨row, hrow, rfl, hpred⟩
      exact ⟨row.1, hx, hhand, .inl rfl⟩
    | inr hlink =>
      obtain ⟨link, hlink, rfl⟩ := hlink
      obtain ⟨hx, hhand⟩ := (mem_fwd h).1 ⟨link, hlink, rfl, rfl⟩
      exact ⟨link.linksTo, hx, hhand, .inr rfl⟩
  · intro he
    obtain ⟨x, hx, hhand, hend⟩ := he
    cases hend with
    | inl hinto =>
      subst hinto
      obtain ⟨row, hrow, hid, hpred⟩ := (mem_back h).2 ⟨hx, hhand⟩
      exact .inl ⟨row, hrow, List.mem_map.2 ⟨e.fromTrace, hpred, by rw [hid]⟩⟩
    | inr hfrom =>
      subst hfrom
      obtain ⟨link, hlink, hto, hid⟩ := (mem_fwd h).2 ⟨hx, hhand⟩
      exact .inr ⟨link, hlink, by rw [hto, hid]⟩

/-- **One frontier.** -/
theorem chainStep_offers (h : reads.Answers) :
    Offers (chainStep reads) (Adjacent spans) (PartOf spans) where
  ids _ _ := mem_chainStep_ids h
  edges _ _ := mem_chainStep_edges h

/-- **The whole walk.** -/
theorem chainWalk_spec (h : reads.Answers) (origin : String) :
    Explored (Adjacent spans) (PartOf spans) origin maxChainNodes maxChainDepth
        (chainWalk reads origin) ∧
      ((chainWalk reads origin).deep ↔
        ∃ t, (t, maxChainDepth) ∈ (chainWalk reads origin).depths) :=
  breadthFirst_spec (chainStep_offers h) (by decide) (by decide) origin

/-! ## What is answered -/

section Answer

variable {h : Handlers} {p : Principal} {toLower : String → String} {traceId : String}
  {out : TraceChainResponse}

/-- The trace is among the nodes. -/
def TraceChainResponse.HasNode (out : TraceChainResponse) (t : String) : Prop :=
  ∃ n ∈ out.nodes, n.traceID = t

/-- The walk looked at the trace. -/
def Walked (reads : LinkReads spans) (origin t : String) : Prop :=
  t ∈ (chainWalk reads origin).depths.map Prod.fst

theorem exists_shown_head_iff {ids : List String} {heads : List TraceHead}
    (hheads : reads.traceHeads ids = some heads) {t : String} :
    (∃ hd ∈ heads.filter (headVisible (h.signalServiceFilter p .traces)), hd.traceId = t) ↔
      t ∈ ids ∧ Shown spans h p t := by
  have hperm := reads.traceHeads_rows ids heads hheads
  have hids (t : String) : (∃ hd ∈ heads, hd.traceId = t) ↔
      t ∈ ids ∧ ∃ s ∈ spans, s.traceId = t := by
    simp only [hperm.mem_iff]
    rw [← List.mem_map, Store.map_traceId_traceHeads]
    simp only [List.mem_dedup, List.mem_map, List.mem_filter, decide_eq_true_eq]
    constructor
    · intro hs
      obtain ⟨s, ⟨hs, hmem⟩, rfl⟩ := hs
      exact ⟨hmem, s, hs, rfl⟩
    · intro hs
      obtain ⟨hmem, s, hs, rfl⟩ := hs
      exact ⟨s, ⟨hs, hmem⟩, rfl⟩
  have hvisible {hd : TraceHead} (hmem : hd ∈ heads) :
      headVisible (h.signalServiceFilter p .traces) hd ↔ Shown spans h p hd.traceId := by
    have hservices {service : String} : service ∈ hd.services ↔
        ∃ s ∈ spans, s.traceId = hd.traceId ∧ s.serviceName = service :=
      Store.mem_services_of_mem_traceHeads (hperm.mem_iff.1 hmem)
    unfold headVisible Shown
    cases h.signalServiceFilter p .traces with
    | none =>
      obtain ⟨-, s, hs, hid⟩ := (hids hd.traceId).1 ⟨hd, hmem, rfl⟩
      exact ⟨fun _ => ⟨s, hs, hid, fun names hnames => by cases hnames⟩, fun _ => rfl⟩
    | some names =>
      rw [List.any_eq_true]
      constructor
      · intro hany
        obtain ⟨service, hservice, hallowed⟩ := hany
        obtain ⟨s, hs, hid, rfl⟩ := hservices.1 hservice
        refine ⟨s, hs, hid, ?_⟩
        intro names' hnames
        cases hnames
        exact of_decide_eq_true hallowed
      · intro hshown
        obtain ⟨s, hs, hid, hallowed⟩ := hshown
        exact ⟨s.serviceName, hservices.2 ⟨s, hs, hid, rfl⟩, decide_eq_true (hallowed names rfl)⟩
  constructor
  · intro hhd
    obtain ⟨hd, hmem, rfl⟩ := hhd
    rw [List.mem_filter] at hmem
    exact ⟨((hids hd.traceId).1 ⟨hd, hmem.1, rfl⟩).1, (hvisible hmem.1).1 hmem.2⟩
  · intro ht
    obtain ⟨s, hs, hid, -⟩ := ht.2
    obtain ⟨hd, hhd, rfl⟩ := (hids t).2 ⟨ht.1, s, hs, hid⟩
    exact ⟨hd, List.mem_filter.2 ⟨hhd, (hvisible hhd).2 ht.2⟩, rfl⟩

theorem traceChain_ok (hok : traceChain reads h p toLower traceId = .ok out) :
    ∃ heads, reads.traceHeads ((chainWalk reads out.origin).depths.map Prod.fst) = some heads ∧
      out.origin = toLower (trimSpace traceId) ∧
      out.nodes = (heads.filter (headVisible (h.signalServiceFilter p .traces))).map
        (chainNode (chainWalk reads out.origin).depths) ∧
      (∀ e, e ∈ out.edges ↔ e ∈ (chainWalk reads out.origin).edges ∧
        out.HasNode e.fromTrace ∧ out.HasNode e.into) ∧
      out.truncatedDepth = (chainWalk reads out.origin).deep ∧
      out.truncatedNodes = (chainWalk reads out.origin).full := by
  unfold traceChain at hok
  dsimp only at hok
  split at hok
  · cases hok
  split at hok
  · cases hok
  rename_i heads hheads
  split at hok
  · cases hok
  cases hok
  refine ⟨heads, hheads, rfl, rfl, ?_, rfl, rfl⟩
  intro e
  have hnode (t : String) : t ∈ (heads.filter
      (headVisible (h.signalServiceFilter p .traces))).map TraceHead.traceId ↔
        ∃ n ∈ (heads.filter (headVisible (h.signalServiceFilter p .traces))).map
          (chainNode (chainWalk reads (toLower (trimSpace traceId))).depths), n.traceID = t := by
    simp only [List.mem_map, exists_exists_and_eq_and]
    rfl
  rw [List.mem_filter, List.mem_dedup, decide_eq_true_eq, hnode, hnode]
  rfl

theorem depth_mem_depths {depthSeen : List (String × Nat)} {hd : TraceHead}
    (hmem : hd.traceId ∈ depthSeen.map Prod.fst) :
    (hd.traceId, (chainNode depthSeen hd).depth) ∈ depthSeen := by
  show (hd.traceId, ((depthSeen.find? fun seen => seen.1 = hd.traceId).map Prod.snd).getD 0) ∈ _
  cases hfind : depthSeen.find? fun seen => seen.1 = hd.traceId with
  | none =>
    rw [List.find?_eq_none] at hfind
    obtain ⟨seen, hseen, heq⟩ := List.mem_map.1 hmem
    exact absurd (decide_eq_true heq) (hfind seen hseen)
  | some seen =>
    have hid : seen.1 = hd.traceId := by simpa using List.find?_some hfind
    rw [← hid]
    exact List.mem_of_find?_eq_some hfind

theorem hasNode_iff (hok : traceChain reads h p toLower traceId = .ok out) (t : String) :
    out.HasNode t ↔ Walked reads out.origin t ∧ Shown spans h p t := by
  obtain ⟨heads, hheads, -, hnodes, -⟩ := traceChain_ok hok
  rw [Walked, ← exists_shown_head_iff hheads]
  unfold TraceChainResponse.HasNode
  rw [hnodes]
  simp only [List.mem_map, exists_exists_and_eq_and]
  rfl

theorem nodup_nodes (hok : traceChain reads h p toLower traceId = .ok out) :
    (out.nodes.map ChainNode.traceID).Nodup := by
  obtain ⟨heads, hheads, -, hnodes, -⟩ := traceChain_ok hok
  have hmap : out.nodes.map ChainNode.traceID = (heads.filter
      (headVisible (h.signalServiceFilter p .traces))).map TraceHead.traceId := by
    rw [hnodes, List.map_map]
    rfl
  rw [hmap]
  apply (List.filter_sublist.map _).nodup
  rw [((reads.traceHeads_rows _ heads hheads).map _).nodup_iff, Store.map_traceId_traceHeads]
  exact List.nodup_dedup _

theorem distance_node (hanswers : reads.Answers)
    (hok : traceChain reads h p toLower traceId = .ok out) {n : ChainNode} (hn : n ∈ out.nodes) :
    Distance (Adjacent spans) out.origin n.depth n.traceID := by
  obtain ⟨heads, hheads, -, hnodes, -⟩ := traceChain_ok hok
  rw [hnodes] at hn
  obtain ⟨hd, hhd, rfl⟩ := List.mem_map.1 hn
  have hread := (reads.traceHeads_rows _ heads hheads).mem_iff.1 (List.mem_filter.1 hhd).1
  have hmap := List.mem_map_of_mem (f := TraceHead.traceId) hread
  rw [Store.map_traceId_traceHeads] at hmap
  obtain ⟨s, hs, heq⟩ := List.mem_map.1 (List.mem_dedup.1 hmap)
  have hwalked : hd.traceId ∈ (chainWalk reads out.origin).depths.map Prod.fst := by
    rw [← heq]
    exact of_decide_eq_true (List.mem_filter.1 hs).2
  exact ((chainWalk_spec hanswers out.origin).1.sound _ _ (depth_mem_depths hwalked)).1

theorem handOff_of_mem_edges (hanswers : reads.Answers)
    (hok : traceChain reads h p toLower traceId = .ok out) {e : ChainEdge} (he : e ∈ out.edges) :
    HandOff spans e.fromTrace e.into ∧ out.HasNode e.fromTrace ∧ out.HasNode e.into := by
  obtain ⟨-, -, -, -, hedges, -⟩ := traceChain_ok hok
  obtain ⟨hrecorded, hends⟩ := (hedges e).1 he
  obtain ⟨t, k, -, -, hpart⟩ := ((chainWalk_spec hanswers out.origin).1.edges e).1 hrecorded
  exact ⟨hpart.1, hends⟩

/-- With neither bound reported, the walk has found each connected trace before its last
level. -/
theorem mem_depths_of_unbounded (hanswers : reads.Answers)
    (hok : traceChain reads h p toLower traceId = .ok out) (hshallow : out.truncatedDepth = false)
    (hroom : out.truncatedNodes = false) {t : String} {k : Nat}
    (ht : Distance (Adjacent spans) out.origin k t) :
    (t, k) ∈ (chainWalk reads out.origin).depths ∧ k < maxChainDepth := by
  obtain ⟨-, -, -, -, -, hdepth, hfull⟩ := traceChain_ok hok
  obtain ⟨hexplored, hdeep⟩ := chainWalk_spec hanswers out.origin
  rw [hdepth, ← Bool.not_eq_true, hdeep] at hshallow
  rw [hfull] at hroom
  exact hexplored.mem_of_shallow hroom (fun t ht => hshallow ⟨t, ht⟩) ht

/-- **What the chain shows.**  The nodes are the walked traces that may be shown, at their
distances; with neither bound reported they are all that are connected, and the edges all
hand-offs between them.  The node bound is reported when a trace within the depth bound is left
out; the depth bound only with a trace that far, and else when there is one farther. -/
theorem traceChain_exact (hanswers : reads.Answers)
    (hok : traceChain reads h p toLower traceId = .ok out) :
    (∀ n ∈ out.nodes, Distance (Adjacent spans) out.origin n.depth n.traceID) ∧
    (out.nodes.map ChainNode.traceID).Nodup ∧
    (∀ t, out.HasNode t ↔ Walked reads out.origin t ∧ Shown spans h p t) ∧
    (∀ e ∈ out.edges, HandOff spans e.fromTrace e.into ∧
      out.HasNode e.fromTrace ∧ out.HasNode e.into) ∧
    (out.truncatedDepth = false → out.truncatedNodes = false →
      (∀ t, out.HasNode t ↔ (∃ k, Distance (Adjacent spans) out.origin k t) ∧ Shown spans h p t) ∧
      ∀ e, e ∈ out.edges ↔ HandOff spans e.fromTrace e.into ∧
        out.HasNode e.fromTrace ∧ out.HasNode e.into) ∧
    (out.truncatedNodes ↔ ∃ t k, Distance (Adjacent spans) out.origin k t ∧
      k ≤ maxChainDepth ∧ ¬ Walked reads out.origin t) ∧
    (out.truncatedDepth → ∃ t, Distance (Adjacent spans) out.origin maxChainDepth t) ∧
    (out.truncatedNodes = false →
      (∃ t k, Distance (Adjacent spans) out.origin k t ∧ maxChainDepth < k) →
        out.truncatedDepth) := by
  obtain ⟨-, -, -, -, hedges, hdepth, hfull⟩ := traceChain_ok hok
  obtain ⟨hexplored, hdeep⟩ := chainWalk_spec hanswers out.origin
  refine ⟨fun n hn => distance_node hanswers hok hn, nodup_nodes hok, hasNode_iff hok,
    fun e he => handOff_of_mem_edges hanswers hok he, ?_, ?_, ?_, ?_⟩
  · intro hshallow hroom
    have hwalked (t : String) : Walked reads out.origin t ↔
        ∃ k, Distance (Adjacent spans) out.origin k t := by
      constructor
      · intro ht
        obtain ⟨k, hk⟩ := mem_depths_fst ht
        exact ⟨k, (hexplored.sound t k hk).1⟩
      · intro ht
        obtain ⟨k, hk⟩ := ht
        exact List.mem_map_of_mem (mem_depths_of_unbounded hanswers hok hshallow hroom hk).1
    refine ⟨fun t => (hasNode_iff hok t).trans (and_congr_left fun _ => hwalked t), ?_⟩
    intro e
    constructor
    · intro he
      exact handOff_of_mem_edges hanswers hok he
    · intro he
      obtain ⟨k, hk⟩ := (hwalked _).1 ((hasNode_iff hok _).1 he.2.1).1
      obtain ⟨hseen, hnear⟩ := mem_depths_of_unbounded hanswers hok hshallow hroom hk
      have hrecorded := (hexplored.edges e).2 ⟨e.fromTrace, k, hseen, hnear, he.1, .inr rfl⟩
      exact (hedges e).2 ⟨hrecorded, he.2⟩
  · rw [hfull]
    exact hexplored.full_iff
  · rw [hdepth, hdeep]
    intro ht
    obtain ⟨t, ht⟩ := ht
    exact ⟨t, (hexplored.sound t _ ht).1⟩
  · intro hroom hfar
    obtain ⟨t, k, ht, hk⟩ := hfar
    obtain ⟨u, hu⟩ := ht.exists_of_le (Nat.le_of_lt hk)
    rw [hfull] at hroom
    rw [hdepth, hdeep]
    exact ⟨u, hexplored.complete hroom u _ hu (Nat.le_refl _)⟩

theorem exists_traceChain_ok (hanswers : reads.Answers)
    (hheads : ∀ ids, (reads.traceHeads ids).isSome) {origin : String}
    (horigin : toLower (trimSpace traceId) = origin) (hne : origin ≠ "")
    (hshown : Shown spans h p origin) :
    ∃ out, traceChain reads h p toLower traceId = .ok out ∧ out.origin = origin := by
  obtain ⟨heads, hread⟩ := Option.isSome_iff_exists.1
    (hheads ((chainWalk reads origin).depths.map Prod.fst))
  have hwalked : origin ∈ (chainWalk reads origin).depths.map Prod.fst := by
    exact List.mem_map_of_mem ((chainWalk_spec hanswers origin).1.origin (by decide))
  have hvisible := (exists_shown_head_iff hread).2 ⟨hwalked, hshown⟩
  unfold traceChain
  rw [horigin]
  dsimp only
  rw [if_neg hne, hread]
  dsimp only
  rw [if_neg (not_not.2 (List.mem_map.2 hvisible))]
  exact ⟨_, rfl, rfl⟩

end Answer

/-! ### A wide chain -/

theorem SameLinks.refl (rows : List (String × List String)) : SameLinks rows rows :=
  ⟨rows, List.Perm.refl rows, List.forall₂_same.2 fun _ _ => ⟨rfl, List.Perm.refl _⟩⟩

/-- A store that never fails, its rows in the order of the table. -/
def LinkReads.direct (spans : List LinkedSpan) : LinkReads spans where
  linksFrom ids := some (Store.linksFrom spans ids)
  tracesLinkingTo ids := some (Store.tracesLinkingTo spans ids)
  traceHeads ids := some (Store.traceHeads spans ids)
  linksFrom_rows _ _ h := Option.some.inj h ▸ SameLinks.refl _
  tracesLinkingTo_rows _ _ h := Option.some.inj h ▸ List.Perm.refl _
  traceHeads_rows _ _ h := Option.some.inj h ▸ List.Perm.refl _

theorem LinkReads.answers_direct (spans : List LinkedSpan) :
    (direct spans).Answers := fun _ => ⟨rfl, rfl⟩

private def consumerId (i : Nat) : String := String.ofList (List.replicate (i + 1) 'a')

private def hopId (j : Nat) : String := String.ofList (List.replicate (j + 1) 'b')

private def spanOf (traceId : String) (links : List (String × String)) : LinkedSpan where
  traceId := traceId
  spanId := "s"
  serviceName := "orders"
  spanName := "handle"
  timestamp := 5
  links := links

/-- Forty messages come of the first, and one more whose own chain is nine hops long. -/
private def wideTable : List LinkedSpan :=
  spanOf (hopId 0) [] ::
    ((List.range 40).map (fun i => spanOf (consumerId i) [(hopId 0, "s")]) ++
      (List.range 9).map fun j => spanOf (hopId (j + 1)) [(hopId j, "s")])

private def admin : Principal := { kind := .user, userID := some 1, role := .admin }

private def anyCell : Handlers where
  identity := {
    policies := []
    policyKey := List.nodup_nil
    members := []
    shares := []
    attributes := []
    catalog := { services := [], serviceKey := by decide, systems := [], integrations := [],
                 matched := fun _ => [], attached := fun _ => [] }
    compile := fun _ => none }

private theorem shown_wideTable {s : LinkedSpan} (hs : s ∈ wideTable) :
    Shown wideTable anyCell admin s.traceId := by
  refine ⟨s, hs, rfl, ?_⟩
  intro names hnames
  have hnone : anyCell.signalServiceFilter admin .traces = none := rfl
  rw [hnone] at hnames
  cases hnames

private theorem handOff_wideTable {s : String} (h : HandOff wideTable s t) :
    (∃ i < 40, s = hopId 0 ∧ t = consumerId i) ∨ ∃ j < 9, s = hopId j ∧ t = hopId (j + 1) := by
  obtain ⟨span, hspan, rfl, hlink⟩ := h
  cases List.mem_cons.1 hspan with
  | inl hfirst =>
    rw [hfirst] at hlink
    exact absurd hlink List.not_mem_nil
  | inr hrest =>
    cases List.mem_append.1 hrest with
    | inl hconsumer =>
      obtain ⟨i, hi, rfl⟩ := List.mem_map.1 hconsumer
      exact .inl ⟨i, List.mem_range.1 hi, List.mem_singleton.1 hlink, rfl⟩
    | inr hhop =>
      obtain ⟨j, hj, rfl⟩ := List.mem_map.1 hhop
      exact .inr ⟨j, List.mem_range.1 hj, List.mem_singleton.1 hlink, rfl⟩

private def place (t : String) : Nat :=
  match t.toList with
  | 'a' :: _ => 1
  | cs => cs.length - 1

private theorem place_consumerId (i : Nat) : place (consumerId i) = 1 := by
  unfold place consumerId
  rw [String.toList_ofList, List.replicate_succ]
  rfl

private theorem place_hopId (j : Nat) : place (hopId j) = j := by
  unfold place hopId
  rw [String.toList_ofList, List.replicate_succ]
  simp

private theorem place_le_of_steps (h : Steps (Adjacent wideTable) (hopId 0) n t) : place t ≤ n := by
  induction h with
  | refl =>
    rw [place_hopId]
  | @step n s t _ hst ih =>
    have hplace {s t : String} (h : HandOff wideTable s t) : place t = place s + 1 := by
      cases handOff_wideTable h with
      | inl hconsumer =>
        obtain ⟨i, -, rfl, rfl⟩ := hconsumer
        rw [place_hopId, place_consumerId]
      | inr hhop =>
        obtain ⟨j, -, rfl, rfl⟩ := hhop
        rw [place_hopId, place_hopId]
    cases hst.2 with
    | inl hforward =>
      have heq := hplace hforward
      omega
    | inr hbackward =>
      have heq := hplace hbackward
      omega

private theorem id_ne_blank {c : Char} : String.ofList (List.replicate (n + 1) c) ≠ "" := by
  intro heq
  have hlist := congrArg String.toList heq
  rw [String.toList_ofList] at hlist
  cases hlist

private theorem steps_hopId {j : Nat} (hj : j ≤ 9) :
    Steps (Adjacent wideTable) (hopId 0) j (hopId j) := by
  induction j with
  | zero => exact .refl
  | succ j ih =>
    apply (ih (by omega)).step
    refine ⟨id_ne_blank, .inl ⟨spanOf (hopId (j + 1)) [(hopId j, "s")], ?_, rfl, ?_⟩⟩
    · apply List.mem_cons_of_mem
      apply List.mem_append_right
      exact List.mem_map.2 ⟨j, List.mem_range.2 (by omega), rfl⟩
    · exact List.mem_singleton_self _

private theorem adjacent_consumerId {i : Nat} (hi : i < 40) :
    Adjacent wideTable (hopId 0) (consumerId i) := by
  refine ⟨id_ne_blank, .inl ⟨spanOf (consumerId i) [(hopId 0, "s")], ?_, rfl, ?_⟩⟩
  · apply List.mem_cons_of_mem
    apply List.mem_append_left
    exact List.mem_map.2 ⟨i, List.mem_range.2 hi, rfl⟩
  · exact List.mem_singleton_self _

private theorem nodup_near : (hopId 0 :: (List.range 40).map consumerId).Nodup := by
  apply List.nodup_cons.2
  constructor
  · intro hmem
    obtain ⟨i, -, heq⟩ := List.mem_map.1 hmem
    have hlist := congrArg (fun t => t.toList.head?) heq
    simp [consumerId, hopId, List.replicate_succ] at hlist
  · apply List.Nodup.map _ List.nodup_range
    intro i j hij
    have hlength := congrArg List.length (String.ofList_injective hij)
    rw [List.length_replicate, List.length_replicate] at hlength
    omega

private theorem exists_wide_chain :
    ∃ out, traceChain (direct wideTable) anyCell admin String.toLower "b" = .ok out ∧
      out.origin = hopId 0 := by
  have hstart : String.toLower (trimSpace "b") = hopId 0 := by decide +kernel
  exact exists_traceChain_ok (answers_direct wideTable) (fun _ => rfl) hstart id_ne_blank
    (shown_wideTable List.mem_cons_self)

theorem wide_chain_exact :
    ∃ out, traceChain (direct wideTable) anyCell admin String.toLower "b" = .ok out ∧
      ∀ t, out.HasNode t ↔
        Walked (direct wideTable) out.origin t ∧ Shown wideTable anyCell admin t := by
  obtain ⟨out, hok, -⟩ := exists_wide_chain
  exact ⟨out, hok, (traceChain_exact (answers_direct wideTable) hok).2.2.1⟩

/-- A trace is nine hops away, and the walk ran out of room before it got there: the depth
bound is not reported. -/
theorem wide_chain_not_deep :
    ∃ out, traceChain (direct wideTable) anyCell admin String.toLower "b" = .ok out ∧
      (∃ t k, Distance (Adjacent wideTable) out.origin k t ∧ maxChainDepth < k) ∧
      out.truncatedDepth = false := by
  have hanswers := answers_direct wideTable
  obtain ⟨out, hok, horigin⟩ := exists_wide_chain
  refine ⟨out, hok, ⟨hopId 9, 9, ?_, by decide⟩, ?_⟩
  · rw [horigin]
    refine ⟨steps_hopId (Nat.le_refl 9), ?_⟩
    intro m hm
    have hplace := place_le_of_steps hm
    rwa [place_hopId] at hplace
  · obtain ⟨-, -, -, -, -, hdepth, -⟩ := traceChain_ok hok
    obtain ⟨hexplored, hdeep⟩ := chainWalk_spec hanswers out.origin
    rw [hdepth, ← Bool.not_eq_true]
    apply mt hdeep.1
    intro hlast
    obtain ⟨t, ht⟩ := hlast
    refine hexplored.not_mem_of_wide nodup_near ?_ (by decide) ht
    intro t ht
    rw [horigin]
    cases List.mem_cons.1 ht with
    | inl hfirst =>
      rw [hfirst]
      exact ⟨0, by decide, Distance.origin _ _⟩
    | inr hconsumer =>
      obtain ⟨i, hi, rfl⟩ := List.mem_map.1 hconsumer
      obtain ⟨k, hk, hdistance⟩ :=
        (Distance.origin _ _).next (adjacent_consumerId (List.mem_range.1 hi))
      exact ⟨k, lt_of_le_of_lt hk (by decide), hdistance⟩

end Sluicio.Api
