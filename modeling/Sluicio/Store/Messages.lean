import Mathlib.Algebra.Group.Int.Defs
import Mathlib.Data.List.Dedup
import Mathlib.Data.String.Basic
import Sluicio.Lib.Keyset
import Sluicio.Store.Clause

/-!
# Searching messages

A message is a trace, and a search picks the traces with a span that satisfies its conditions.
`buildMessagesSearchSQL` reads them in two passes: the candidates are ordered by the first span
that satisfies the search, filtered by their status and by the cursor, and cut off at the limit;
what is shown of them is read from the survivors.
-/

namespace Sluicio.Store

open Lib OrderDual

/-- A row of the `traces` table with the columns a message search reads. -/
structure TraceSpan extends Span where
  statusCode : String := ""
  statusMessage : String := ""
  durationNs : Nat := 0
  exceptionType : String := ""
  exceptionMessage : String := ""
  /-- the time is a `DateTime64(9)`, nanoseconds in 64 bits -/
  inRange : -2 ^ 63 ≤ timestamp ∧ timestamp < 2 ^ 63
  deriving DecidableEq

/-- `StatusCode = 'Error'`. -/
def TraceSpan.failed (s : TraceSpan) : Bool := s.statusCode = "Error"

def exceptionTypeAttr : String := "exception.type"
def exceptionMessageAttr : String := "exception.message"

def TraceSpan.exceptionTypeExpr (s : TraceSpan) : String :=
  if s.exceptionType ≠ "" then s.exceptionType else s.spanAttributes.value exceptionTypeAttr

def TraceSpan.exceptionMessageExpr (s : TraceSpan) : String :=
  if s.exceptionType ≠ "" then s.exceptionMessage
  else s.spanAttributes.value exceptionMessageAttr

/-- The order of `argMax`: the time, and the span id where times are equal. -/
def TraceSpan.place (s : TraceSpan) : Int ×ₗ String := toLex (s.timestamp, s.spanId)

def latest? (group : List TraceSpan) : Option TraceSpan :=
  (orderBy TraceSpan.place group).getLast?

def earliest? (group : List TraceSpan) : Option TraceSpan :=
  (orderBy (fun s : TraceSpan => s.timestamp) group).head?

structure MessageCursor where
  firstMatchNano : Int
  traceID : String

/-- `MessagesSearchParams`.  A clause stands for what it says of a span of the table. -/
structure MessagesSearchParams where
  fromTime : Int
  toTime : Int
  limit : Nat
  serviceFilter : List String := []
  onlyFailed : Bool := false
  statusOK : Bool := false
  clauses : List (TraceSpan → Bool) := []
  before : Option MessageCursor := none
  promotedKeys : List String := []
  excludeClauses : List (TraceSpan → Bool) := []

namespace MessagesSearchParams

variable (p : MessagesSearchParams) (traces : List TraceSpan)

/-- The scope: the window and the services. -/
def inScope (s : TraceSpan) : Bool :=
  p.fromTime ≤ s.timestamp && s.timestamp ≤ p.toTime &&
    (p.serviceFilter.isEmpty || s.serviceName ∈ p.serviceFilter)

/-- `where`: the scope and the rows' conditions. -/
def holds (s : TraceSpan) : Bool := p.inScope s && p.clauses.all fun c => c s

/-- The anti-join: some span of the trace in the scope satisfies a negated row. -/
def excluded (traceID : String) : Bool :=
  traces.any fun s => s.traceId = traceID && p.inScope s && p.excludeClauses.any fun c => c s

/-- `candidateWhere`. -/
def steps : List TraceSpan := traces.filter fun s => p.holds s && !p.excluded traces s.traceId

end MessagesSearchParams

/-! ## The candidates -/

structure Candidate where
  traceID : String
  firstMatch : Int
  hasError : Bool

/-- `GROUP BY TraceId`: the row of one trace. -/
def candidate (steps : List TraceSpan) (traceID : String) : Candidate :=
  let group := steps.filter fun s => s.traceId = traceID
  { traceID := traceID
    firstMatch := (group.map fun s => s.timestamp).min?.getD 0
    hasError := group.any TraceSpan.failed }

/-- The sort key, which the cursor is a value of. -/
def Candidate.key (c : Candidate) : Int ×ₗ String := toLex (c.firstMatch, c.traceID)

def MessageCursor.key (b : MessageCursor) : Int ×ₗ String := toLex (b.firstMatchNano, b.traceID)

section Candidates

variable (traces : List TraceSpan) (p : MessagesSearchParams)

def statusHaving (c : Candidate) : Bool :=
  if p.onlyFailed then c.hasError else if p.statusOK then !c.hasError else true

def cursorHaving (c : Candidate) : Bool :=
  match p.before with
  | none => true
  | some b => c.firstMatch < b.firstMatchNano ||
      (c.firstMatch = b.firstMatchNano && c.traceID < b.traceID)

def groups : List Candidate :=
  ((p.steps traces).map fun s => s.traceId).dedup.map (candidate (p.steps traces))

def candidates : List Candidate :=
  (orderBy (fun c => toDual c.key)
    ((groups traces p).filter fun c => statusHaving p c && cursorHaving p c)).take p.limit

end Candidates

/-- `SearchTraceRow`; the duration is in nanoseconds, of which milliseconds are shown. -/
structure SearchTraceRow where
  traceID : String
  traceStart : Int
  duration : Int
  hasError : Bool
  totalSpans : Nat
  serviceCount : Nat
  matchedService : String
  matchedSpanName : String
  matchedResourceAttrs : AttrMap
  matchedSpanAttrs : AttrMap
  matchedSpanIDs : List String
  exceptionType : String
  exceptionMessage : String
  firstMatch : Int
  promoted : List String

/-- `matchedSpanIDsExpr`. -/
def matchedSpanIDs (hasPredicate : Bool) (matched : List TraceSpan) : List String :=
  if hasPredicate then
    (((orderBy (fun s : TraceSpan => s.timestamp) (matched.take 1000)).map fun s =>
      s.spanId).eraseDups).take 50
  else []

/-- `promotedColumnSQL`: the value of a key on the last span that carries it. -/
def promotedColumn (all : List TraceSpan) (key : String) : String :=
  match latest? (all.filter fun s =>
    s.spanAttributes.contains key || s.resourceAttributes.contains key) with
  | none => ""
  | some s =>
    if s.spanAttributes.contains key then s.spanAttributes.value key
    else s.resourceAttributes.value key

section Rows

variable (traces : List TraceSpan) (p : MessagesSearchParams)

/-- A candidate joined with its row of `matching` and its row of `summary`. -/
def joined (c : Candidate) : Option SearchTraceRow :=
  let all := traces.filter fun s => s.traceId = c.traceID
  let matched := all.filter p.holds
  let exception := earliest? (matched.filter fun s => s.failed && s.exceptionTypeExpr ≠ "")
  (latest? matched).map fun last =>
    { traceID := c.traceID
      traceStart := c.firstMatch
      duration := (all.map fun s => s.timestamp + (s.durationNs : Int)).max?.getD 0 -
        (all.map fun s => s.timestamp).min?.getD 0
      hasError := c.hasError
      totalSpans := all.length
      serviceCount := (all.map fun s => s.serviceName).dedup.length
      matchedService := last.serviceName
      matchedSpanName := last.spanName
      matchedResourceAttrs := last.resourceAttributes
      matchedSpanAttrs := last.spanAttributes
      matchedSpanIDs := matchedSpanIDs (!p.clauses.isEmpty) matched
      exceptionType := (exception.map TraceSpan.exceptionTypeExpr).getD ""
      exceptionMessage := (exception.map TraceSpan.exceptionMessageExpr).getD ""
      firstMatch := c.firstMatch
      promoted := p.promotedKeys.map (promotedColumn all) }

def SearchTraceRow.candidate (r : SearchTraceRow) : Candidate :=
  { traceID := r.traceID, firstMatch := r.firstMatch, hasError := r.hasError }

/-- `SearchMessages`: the joined rows, in the order of the candidates. -/
def searchMessages : List SearchTraceRow :=
  orderBy (fun r => toDual r.candidate.key)
    ((candidates traces p).filterMap (joined traces p))

end Rows

/-! ## A search is a page -/

/-- The messages that match, without the cursor and the limit. -/
def messages (traces : List TraceSpan) (p : MessagesSearchParams) : List Candidate :=
  (groups traces p).filter (statusHaving p)

section Page

variable {traces : List TraceSpan} {p : MessagesSearchParams} {c : Candidate}

theorem mem_messages :
    c ∈ messages traces p ↔
      (∃ s ∈ p.steps traces, s.traceId = c.traceID) ∧ c = candidate (p.steps traces) c.traceID ∧
        statusHaving p c := by
  rw [messages, List.mem_filter, groups, List.mem_map]
  constructor
  · intro h
    obtain ⟨⟨id, hid, heq⟩, hstatus⟩ := h
    obtain rfl : id = c.traceID := congrArg Candidate.traceID heq
    exact ⟨List.mem_map.mp (List.mem_dedup.mp hid), heq.symm, hstatus⟩
  · intro h
    obtain ⟨hstep, heq, hstatus⟩ := h
    exact ⟨⟨c.traceID, List.mem_dedup.mpr (List.mem_map.mpr hstep), heq.symm⟩, hstatus⟩

theorem nodup_traceID_messages : ((messages traces p).map Candidate.traceID).Nodup := by
  have hgroups : (groups traces p).map Candidate.traceID =
      ((p.steps traces).map fun s => s.traceId).dedup := by
    rw [groups, List.map_map]
    exact List.map_id _
  have hnodup : ((groups traces p).map Candidate.traceID).Nodup := by
    rw [hgroups]
    exact List.nodup_dedup _
  exact hnodup.sublist (List.filter_sublist.map _)

theorem nodup_key_messages : ((messages traces p).map Candidate.key).Nodup := by
  have hname : ((messages traces p).map Candidate.traceID).Nodup := nodup_traceID_messages
  have hsnd : (messages traces p).map Candidate.traceID =
      ((messages traces p).map Candidate.key).map fun k => (ofLex k).2 := by
    rw [List.map_map]
    rfl
  rw [hsnd] at hname
  exact List.Nodup.of_map _ hname

theorem cursorHaving_eq :
    cursorHaving p c = comesAfter Candidate.key (p.before.map MessageCursor.key) c := by
  unfold cursorHaving comesAfter
  cases p.before with
  | none => rfl
  | some b =>
    simp [Candidate.key, MessageCursor.key, Prod.Lex.toLex_lt_toLex, Bool.decide_or,
      Bool.decide_and]

theorem candidates_eq_keysetPage :
    candidates traces p =
      keysetPage Candidate.key p.limit (p.before.map MessageCursor.key) (messages traces p) := by
  have hfilter : (groups traces p).filter (fun c => statusHaving p c && cursorHaving p c) =
      (messages traces p).filter (comesAfter Candidate.key (p.before.map MessageCursor.key)) := by
    rw [messages, List.filter_filter]
    congr 1
    funext c
    rw [cursorHaving_eq, Bool.and_comm]
  unfold candidates keysetPage keysetRows
  rw [hfilter]

theorem exists_joined (hc : c ∈ messages traces p) :
    ∃ r, joined traces p c = some r ∧ r.candidate = c := by
  obtain ⟨⟨s, hs, hid⟩, -, -⟩ := mem_messages.mp hc
  have hmatched : s ∈ (traces.filter fun s => s.traceId = c.traceID).filter p.holds := by
    simp only [MessagesSearchParams.steps, List.mem_filter, Bool.and_eq_true] at hs
    simp [List.mem_filter, hs, hid]
  have hsome :
      (latest? ((traces.filter fun s => s.traceId = c.traceID).filter p.holds)).isSome := by
    unfold latest?
    rw [List.getLast?_isSome]
    exact List.ne_nil_of_mem (mem_orderBy.mpr hmatched)
  obtain ⟨last, hlast⟩ := Option.isSome_iff_exists.mp hsome
  exact ⟨_, by rw [joined, hlast]; rfl, rfl⟩

theorem filterMap_joined {cs : List Candidate} (h : ∀ c ∈ cs, c ∈ messages traces p) :
    (cs.filterMap (joined traces p)).map SearchTraceRow.candidate = cs := by
  induction cs with
  | nil => rfl
  | cons c cs ih =>
    obtain ⟨r, hr, hcand⟩ := exists_joined (h c List.mem_cons_self)
    rw [List.filterMap_cons_some hr, List.map_cons, hcand,
      ih fun c hc => h c (List.mem_cons_of_mem _ hc)]

theorem searchMessages_candidates :
    (searchMessages traces p).map SearchTraceRow.candidate = candidates traces p := by
  have hmem : ∀ c ∈ candidates traces p, c ∈ messages traces p := by
    intro c hc
    rw [candidates_eq_keysetPage] at hc
    exact (mem_of_mem_keysetPage hc).1
  have hsorted : (candidates traces p).Pairwise fun a b =>
      toDual a.key ≤ toDual b.key :=
    (pairwise_orderBy _ _).sublist (List.take_sublist _ _)
  calc
    (searchMessages traces p).map SearchTraceRow.candidate =
        orderBy (fun c => toDual c.key)
          (((candidates traces p).filterMap (joined traces p)).map SearchTraceRow.candidate) :=
      @map_orderBy _ _ _ _ (fun r : SearchTraceRow => toDual r.candidate.key)
        (fun c : Candidate => toDual c.key) SearchTraceRow.candidate (fun _ => rfl) _
    _ = orderBy (fun c => toDual c.key) (candidates traces p) := by
      rw [filterMap_joined hmem]
    _ = candidates traces p := hsorted.insertionSort_eq

theorem firstMatch_spec (hc : c ∈ messages traces p) :
    (∃ s ∈ p.steps traces, s.traceId = c.traceID ∧ s.timestamp = c.firstMatch) ∧
      ∀ s ∈ p.steps traces, s.traceId = c.traceID → c.firstMatch ≤ s.timestamp := by
  obtain ⟨⟨s₀, hs₀, hid₀⟩, heq, -⟩ := mem_messages.mp hc
  let times := ((p.steps traces).filter fun s => s.traceId = c.traceID).map fun s => s.timestamp
  have hmem : ∀ s ∈ p.steps traces, s.traceId = c.traceID → s.timestamp ∈ times := by
    intro s hs hid
    exact List.mem_map.mpr ⟨s, List.mem_filter.mpr ⟨hs, by simpa using hid⟩, rfl⟩
  have hne : times ≠ [] := List.ne_nil_of_mem (hmem s₀ hs₀ hid₀)
  obtain ⟨first, hfirst⟩ := Option.isSome_iff_exists.mp (List.isSome_min?_of_ne_nil hne)
  have hmatch : c.firstMatch = first := by
    rw [heq]
    show times.min?.getD 0 = first
    rw [hfirst, Option.getD_some]
  obtain ⟨hin, hmin⟩ := List.min?_eq_some_iff.mp hfirst
  rw [hmatch]
  constructor
  · obtain ⟨s, hs, htime⟩ := List.mem_map.mp hin
    rw [List.mem_filter, decide_eq_true_eq] at hs
    exact ⟨s, hs.1, hs.2, htime⟩
  · intro s hs hid
    exact hmin _ (hmem s hs hid)

theorem comesAfter_iff (hc : c ∈ messages traces p) (k : Int ×ₗ String) :
    comesAfter Candidate.key (some k) c ↔
      ∃ s ∈ p.steps traces, s.traceId = c.traceID ∧ toLex (s.timestamp, s.traceId) < k := by
  obtain ⟨⟨first, hfirst, hid, htime⟩, hmin⟩ := firstMatch_spec hc
  rw [comesAfter, decide_eq_true_eq, Candidate.key]
  constructor
  · intro hlt
    refine ⟨first, hfirst, hid, ?_⟩
    rw [htime, hid]
    exact hlt
  · intro h
    obtain ⟨s, hs, hid', hlt⟩ := h
    have hle := hmin s hs hid'
    refine lt_of_le_of_lt ?_ hlt
    rw [hid', Prod.Lex.toLex_le_toLex]
    by_cases heq : c.firstMatch = s.timestamp
    · exact .inr ⟨heq, le_rfl⟩
    · exact .inl (by omega)

end Page

end Sluicio.Store
