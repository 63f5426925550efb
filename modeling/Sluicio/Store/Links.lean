import Mathlib.Data.String.Basic
import Sluicio.Lib.Grouped
import Sluicio.Lib.Ordered

/-!
# Links between traces

A link is recorded on the span that was caused, and points back at its cause.  The trace of
the span therefore reads its own predecessors off its spans, and its successors are searched
for: `linksFrom` is a step back and `tracesLinkingTo` a step forward.
-/

namespace Sluicio.Store

open Lib

/-- A row of the `traces` table with the columns the hand-offs read.  A link is the trace and
the span it points at; the two columns that hold it are of one length. -/
structure LinkedSpan where
  traceId : String
  spanId : String
  serviceName : String
  spanName : String
  timestamp : Int
  statusCode : String := ""
  links : List (String × String) := []

open LinkedSpan

def LinkedSpan.linkTraceIds (s : LinkedSpan) : List String := s.links.map Prod.fst

def HandOff (spans : List LinkedSpan) (first second : String) : Prop :=
  ∃ s ∈ spans, s.traceId = second ∧ first ∈ s.linkTraceIds

/-! ## The queries -/

/-- `LinksFrom`: per trace, the distinct traces its spans link to. -/
def linksFrom (spans : List LinkedSpan) (ids : List String) : List (String × List String) :=
  let linking := spans.filter fun s => s.traceId ∈ ids ∧ s.links ≠ []
  (linking.map traceId).dedup.map fun id =>
    (id, ((linking.filter fun s => s.traceId = id).flatMap linkTraceIds).dedup)

/-- `IncomingLink`: a trace that links to one of the traces asked about. -/
structure IncomingLink where
  traceId : String
  linksTo : String
  linksToSpan : String
  deriving DecidableEq

/-- `TracesLinkingTo`, without a lower bound on the time. -/
def tracesLinkingTo (spans : List LinkedSpan) (ids : List String) : List IncomingLink :=
  (spans.flatMap fun s => (s.links.filter fun link => link.1 ∈ ids).map fun link =>
    { traceId := s.traceId, linksTo := link.1, linksToSpan := link.2 }).dedup

/-- `TraceHead`: another trace in one line. -/
structure TraceHead where
  traceId : String
  serviceName : String
  spanName : String
  startedAt : Int
  spanCount : Nat
  hasError : Bool
  services : List String

/-- The row of one trace, of the span that started it and the others. -/
def headOf (first : LinkedSpan) (group : List LinkedSpan) : TraceHead :=
  { traceId := first.traceId
    serviceName := first.serviceName
    spanName := first.spanName
    startedAt := first.timestamp
    spanCount := group.length
    hasError := group.any fun s => s.statusCode = "Error"
    services := (group.map serviceName).dedup }

/-- `argMin(…, (Timestamp, SpanId))` -/
def LinkedSpan.place (s : LinkedSpan) : Int ×ₗ String := toLex (s.timestamp, s.spanId)

def traceHeads (spans : List LinkedSpan) (ids : List String) : List TraceHead :=
  (groupBy traceId (spans.filter fun s => s.traceId ∈ ids)).filterMap fun group =>
    (orderBy place group).head?.map fun first => headOf first group

variable {spans : List LinkedSpan} {ids : List String} {t p : String}

theorem mem_linksFrom :
    (∃ row ∈ linksFrom spans ids, row.1 = t ∧ p ∈ row.2) ↔ t ∈ ids ∧ HandOff spans p t := by
  unfold linksFrom HandOff
  simp only [List.mem_map, List.mem_dedup, List.mem_filter, decide_eq_true_eq]
  constructor
  · intro h
    obtain ⟨row, ⟨id, ⟨s, ⟨-, hids, -⟩, rfl⟩, rfl⟩, rfl, hp⟩ := h
    simp only [List.mem_dedup, List.mem_flatMap, List.mem_filter, decide_eq_true_eq] at hp
    obtain ⟨s', ⟨⟨hs', -, -⟩, hsame⟩, hlink⟩ := hp
    exact ⟨hids, s', hs', hsame, hlink⟩
  · intro h
    obtain ⟨hids, s, hs, rfl, hp⟩ := h
    have hlinks : s.links ≠ [] := by
      intro hnil
      rw [linkTraceIds, hnil] at hp
      exact absurd hp List.not_mem_nil
    refine ⟨_, ⟨s.traceId, ⟨s, ⟨hs, hids, hlinks⟩, rfl⟩, rfl⟩, rfl, ?_⟩
    simp only [List.mem_dedup, List.mem_flatMap, List.mem_filter, decide_eq_true_eq]
    exact ⟨s, ⟨⟨hs, hids, hlinks⟩, rfl⟩, hp⟩

theorem mem_tracesLinkingTo :
    (∃ l ∈ tracesLinkingTo spans ids, l.linksTo = p ∧ l.traceId = t) ↔
      p ∈ ids ∧ HandOff spans p t := by
  unfold tracesLinkingTo HandOff linkTraceIds
  simp only [List.mem_dedup, List.mem_flatMap, List.mem_map, List.mem_filter, decide_eq_true_eq]
  constructor
  · intro h
    obtain ⟨l, ⟨s, hs, link, ⟨hlink, hids⟩, rfl⟩, rfl, rfl⟩ := h
    exact ⟨hids, s, hs, rfl, link, hlink, rfl⟩
  · intro h
    obtain ⟨hids, s, hs, rfl, link, hlink, rfl⟩ := h
    exact ⟨_, ⟨s, hs, link, ⟨hlink, hids⟩, rfl⟩, rfl, rfl⟩

theorem map_traceId_traceHeads : (traceHeads spans ids).map TraceHead.traceId =
    ((spans.filter fun s => s.traceId ∈ ids).map traceId).dedup := by
  unfold traceHeads groupBy
  rw [List.filterMap_map, List.map_filterMap]
  generalize (spans.filter fun s => s.traceId ∈ ids) = rows
  have hid : ∀ id ∈ (rows.map traceId).dedup,
      Option.map TraceHead.traceId
        ((orderBy place (rows.filter fun s => s.traceId = id)).head?.map fun first =>
          headOf first (rows.filter fun s => s.traceId = id)) = some id := by
    intro id hmem
    obtain ⟨s, hs, rfl⟩ := List.mem_map.1 (List.mem_dedup.1 hmem)
    cases hfirst :
        (orderBy place (rows.filter fun r => r.traceId = s.traceId)).head? with
    | none =>
      rw [List.head?_eq_none_iff] at hfirst
      have hrow : s ∈ orderBy place (rows.filter fun r => r.traceId = s.traceId) :=
        mem_orderBy.2 (List.mem_filter.2 ⟨hs, decide_eq_true rfl⟩)
      rw [hfirst] at hrow
      exact absurd hrow List.not_mem_nil
    | some first =>
      have hrow := mem_orderBy.1 (List.mem_of_head? hfirst)
      exact congrArg some (of_decide_eq_true (List.mem_filter.1 hrow).2)
  exact (List.filterMap_congr hid).trans List.filterMap_some

theorem mem_services_of_mem_traceHeads {hd : TraceHead} (h : hd ∈ traceHeads spans ids)
    {service : String} : service ∈ hd.services ↔
      ∃ s ∈ spans, s.traceId = hd.traceId ∧ s.serviceName = service := by
  obtain ⟨group, hgroup, hhead⟩ := List.mem_filterMap.1 h
  obtain ⟨id, hid, rfl⟩ := List.mem_map.1 hgroup
  obtain ⟨first, hfirst, rfl⟩ := Option.map_eq_some_iff.1 hhead
  have hfirst := mem_orderBy.1 (List.mem_of_head? hfirst)
  simp only [List.mem_filter, decide_eq_true_eq] at hfirst
  obtain ⟨s, hs, hsid⟩ := List.mem_map.1 (List.mem_dedup.1 hid)
  have hids := of_decide_eq_true (List.mem_filter.1 hs).2
  rw [hsid] at hids
  show service ∈ (List.map _ _).dedup ↔ ∃ s ∈ spans, s.traceId = first.traceId ∧ _
  rw [List.mem_dedup, List.mem_map, hfirst.2]
  simp only [List.mem_filter, decide_eq_true_eq]
  constructor
  · intro hs
    obtain ⟨s, ⟨⟨hs, -⟩, hsame⟩, hservice⟩ := hs
    exact ⟨s, hs, hsame, hservice⟩
  · intro hs
    obtain ⟨s, hs, hsame, hservice⟩ := hs
    exact ⟨s, ⟨⟨hs, hsame ▸ hids⟩, hsame⟩, hservice⟩

end Sluicio.Store
