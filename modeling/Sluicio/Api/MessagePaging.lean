import Sluicio.Api.MessageSearch
import Sluicio.Tracecompletion.Normalize

/-!
# Paging through the messages

A page ends with a cursor, the first match and the trace id of its last row, and the next call
sends it back with the same body.  A body with a relative range is resolved against the clock
at every call.  When the window has moved past a message's first matching span, its first match
is a later one; a message that was still to come can so be put before the cursor, and no page
ever has it.
-/

namespace Sluicio.Api.MessageSearch

open Lib
open Identity (parseInt_toString toList_toString_negSucc toList_toString_ofNat)
open Store (TraceSpan MessagesSearchParams MessageCursor SearchTraceRow Candidate)
open Tracecompletion (isSpace_of_isDigit trimSpace trimSpace_of_no_space)

theorem toString_int_chars (n : Int) :
    (toString n).toList ≠ [] ∧ ∀ c ∈ (toString n).toList, Tracecompletion.isSpace c = false := by
  have hdigit : ∀ m, ∀ c ∈ Nat.toDigits 10 m, Tracecompletion.isSpace c = false := by
    intro m c hc
    exact isSpace_of_isDigit (Nat.isDigit_of_mem_toDigits (by decide) (by decide) hc)
  cases n with
  | ofNat m =>
    rw [toList_toString_ofNat]
    exact ⟨Nat.toDigits_ne_nil, hdigit m⟩
  | negSucc m =>
    rw [toList_toString_negSucc, List.forall_mem_cons]
    exact ⟨List.cons_ne_nil _ _, by decide, hdigit (m + 1)⟩

/-- The cursor that ends a page is read back by the next call, if the trace id is one that
trimming leaves. -/
theorem parseMessageCursor_toString {n : Int} (h : -2 ^ 63 ≤ n ∧ n < 2 ^ 63) {id : String}
    (htrim : trimSpace id = id) (hid : id ≠ "") :
    parseMessageCursor (some { ts := toString n, id := id }) =
      some { firstMatchNano := n, traceID := id } := by
  obtain ⟨hne, hspace⟩ := toString_int_chars n
  have hts : toString n ≠ "" := by
    intro hempty
    rw [hempty] at hne
    exact hne rfl
  simp only [parseMessageCursor, trimSpace_of_no_space hspace, htrim]
  rw [if_neg (not_or.mpr ⟨hts, hid⟩), parseInt_toString h]

/-! ## Calls -/

/-- One call: the cursor it sends, and the time of the clock. -/
structure Call where
  cursor : Option SearchCursor
  now : Int

section Calls

variable (h : Handlers) (req : SearchRequest)

/-- The query of a search at a time, unless it ends before. -/
def paramsAt (now : Int) : Option MessagesSearchParams :=
  match h.prepare now req with
  | .query _ _ params => some params
  | _ => none

/-- The spans that satisfy the search at a time. -/
def stepsAt (now : Int) : List TraceSpan :=
  match paramsAt h req now with
  | none => []
  | some params => params.steps h.traces

/-- The messages that match at a time. -/
def messagesAt (now : Int) : List Candidate :=
  match paramsAt h req now with
  | none => []
  | some params => Store.messages h.traces params

def MatchesAt (now : Int) (m : String) : Prop := ∃ c ∈ messagesAt h req now, c.traceID = m

instance (now : Int) (m : String) : Decidable (MatchesAt h req now m) :=
  inferInstanceAs (Decidable (∃ c ∈ messagesAt h req now, c.traceID = m))

/-- Calls with one body, each with the cursor of the answer before it, until there is none. -/
inductive Paged : List Call → List SearchResponse → Prop
  | last {c : Call} {r : SearchResponse}
      (hreply : h.searchMessages c.now { req with cursor := c.cursor } = .answered r)
      (hend : r.nextCursor = none) : Paged [c] [r]
  | more {c : Call} {now : Int} {r : SearchResponse} {next : SearchCursor} {calls : List Call}
      {rs : List SearchResponse}
      (hreply : h.searchMessages c.now { req with cursor := c.cursor } = .answered r)
      (hnext : r.nextCursor = some next) (hrun : Paged (⟨some next, now⟩ :: calls) rs) :
      Paged (c :: ⟨some next, now⟩ :: calls) (r :: rs)

def allResults (rs : List SearchResponse) : List SearchTraceRow :=
  rs.flatMap fun r => r.results.map TraceSearchResult.row

/-- Some matching span of the message comes after the cursor. -/
def HasStepAfter (now : Int) (cursor : Option SearchCursor) (m : String) : Prop :=
  match parseMessageCursor cursor with
  | none => True
  | some b => ∃ s ∈ stepsAt h req now, s.traceId = m ∧ toLex (s.timestamp, s.traceId) < b.key

/-- From one call to the next the message is not carried over the cursor: it has a matching
span after it in the one window if it has in the other. -/
def KeepsSide (m : String) (before after : Call) : Prop :=
  HasStepAfter h req before.now after.cursor m ↔ HasStepAfter h req after.now after.cursor m

def TrimmedIDs : Prop := ∀ s ∈ h.traces, trimSpace s.traceId = s.traceId ∧ s.traceId ≠ ""

instance : Decidable (TrimmedIDs h) :=
  inferInstanceAs (Decidable (∀ s ∈ h.traces, trimSpace s.traceId = s.traceId ∧ s.traceId ≠ ""))

end Calls

def Prepared.withCursor (b : Option MessageCursor) : Prepared → Prepared
  | .query window columns params => .query window columns { params with before := b }
  | p => p

section Cursor

variable {h : Handlers} {req : SearchRequest} {now : Int} {plan : Messageviews.Plan}
  {window : TimeRange}

theorem finish_cursor (n : Narrowed) (cursor : Option SearchCursor) :
    h.finish plan window n { req with cursor := cursor } =
      (h.finish plan window n req).withCursor (parseMessageCursor cursor) := by
  simp only [Handlers.finish]
  by_cases hempty : (h.scope window).empty = true
  · rw [if_pos hempty, if_pos hempty]
    rfl
  · rw [if_neg hempty, if_neg hempty]
    cases intersectServiceIn n.services (h.scope window) <;> rfl

variable {p : MessagesSearchParams} {columns : List Integrations.MessageColumn} {w : TimeRange}
  {early : Prepared}

theorem narrow_ne_query {filters : List Messageviews.Filter} {viewID : String}
    (hearly : h.narrow plan window filters viewID = .error early) : early ≠ .query w columns p := by
  rw [narrow_eq] at hearly
  split at hearly
  · cases hearly
    exact nofun
  · obtain rfl | ⟨columns, rfl⟩ := narrow_nil_error hearly
    · exact nofun
    · exact nofun

theorem withCursor_of_ne_query (hne : ∀ w columns p, early ≠ .query w columns p)
    (b : Option MessageCursor) : early.withCursor b = early := by
  cases early with
  | query w columns p => exact absurd rfl (hne w columns p)
  | refused | failed | empty => rfl

theorem prepare_cursor (cursor : Option SearchCursor) :
    h.prepare now { req with cursor := cursor } =
      (h.prepare now req).withCursor (parseMessageCursor cursor) := by
  unfold Handlers.prepare
  cases Messageviews.validateAll req.filters with
  | error e => rfl
  | ok u =>
    cases Messageviews.buildPlan h.toLower req.filters with
    | error e => rfl
    | ok plan =>
      show h.withPlan plan (resolveRange h now req) { req with cursor := cursor } =
        (h.withPlan plan (resolveRange h now req) req).withCursor (parseMessageCursor cursor)
      unfold Handlers.withPlan
      cases hnarrow : h.narrow plan (resolveRange h now req) req.filters req.viewID with
      | error early =>
        exact (withCursor_of_ne_query (fun _ _ _ => narrow_ne_query hnarrow) _).symm
      | ok n => exact finish_cursor n cursor

theorem finish_limit {n : Narrowed} (hq : h.finish plan window n req = .query w columns p) :
    p.limit = req.pageLimit := by
  simp only [Handlers.finish] at hq
  by_cases hempty : (h.scope window).empty = true
  · rw [if_pos hempty] at hq
    cases hq
  rw [if_neg hempty] at hq
  cases hservices : intersectServiceIn n.services (h.scope window) with
  | none =>
    rw [hservices] at hq
    cases hq
  | some services =>
    rw [hservices] at hq
    cases hq
    rfl

theorem prepare_limit (hp : h.prepare now req = .query window columns p) :
    p.limit = req.pageLimit := by
  unfold Handlers.prepare at hp
  cases hvalid : Messageviews.validateAll req.filters with
  | error e =>
    rw [hvalid] at hp
    cases hp
  | ok u =>
    rw [hvalid] at hp
    cases hplan : Messageviews.buildPlan h.toLower req.filters with
    | error e =>
      rw [hplan] at hp
      cases hp
    | ok plan =>
      rw [hplan] at hp
      simp only [Handlers.withPlan] at hp
      cases hnarrow : h.narrow plan (resolveRange h now req) req.filters req.viewID with
      | error early =>
        rw [hnarrow] at hp
        exact absurd hp (narrow_ne_query hnarrow)
      | ok n =>
        rw [hnarrow] at hp
        exact finish_limit hp

theorem pageLimit_pos : 0 < req.pageLimit := by
  unfold SearchRequest.pageLimit
  split_ifs with hlimit
  · decide
  · omega

end Cursor

/-! ## Calls are keyset pages -/

/-- A cursor of the request as a value of the sort key. -/
def cursorKey (cursor : Option SearchCursor) : Option (Int ×ₗ String) :=
  (parseMessageCursor cursor).map MessageCursor.key

section Pages

variable {h : Handlers} {req : SearchRequest} {now : Int} {cursor : Option SearchCursor}
  {r : SearchResponse}

theorem answered_page (hreply : h.searchMessages now { req with cursor := cursor } = .answered r) :
    (r.results.map TraceSearchResult.row).map SearchTraceRow.candidate =
        keysetPage Candidate.key req.pageLimit (cursorKey cursor) (messagesAt h req now) ∧
      r.nextCursor = nextMessageCursor (r.results.map TraceSearchResult.row) req.pageLimit := by
  unfold Handlers.searchMessages at hreply
  rw [prepare_cursor] at hreply
  unfold messagesAt paramsAt
  cases hp : h.prepare now req with
  | refused why =>
    rw [hp] at hreply
    cases hreply
  | failed =>
    rw [hp] at hreply
    cases hreply
  | empty w columns =>
    rw [hp] at hreply
    cases hreply
    constructor
    · exact List.take_nil.symm
    · simp [nextMessageCursor, pageLimit_pos]
  | query w columns p =>
    rw [hp] at hreply
    simp only [Prepared.withCursor, Handlers.reply, readRows] at hreply
    cases hfault : h.faults .searchMessages with
    | some e =>
      rw [hfault] at hreply
      cases hreply
    | none =>
      rw [hfault] at hreply
      cases hreply
      simp only [List.map_map]
      have hrows : ∀ rows : List SearchTraceRow,
          rows.map (TraceSearchResult.row ∘ searchResult columns) = rows := by
        intro rows
        exact List.map_id rows
      constructor
      · rw [← List.map_map, hrows, Store.searchMessages_candidates,
          Store.candidates_eq_keysetPage]
        show keysetPage Candidate.key p.limit (cursorKey cursor) (Store.messages h.traces p) = _
        rw [prepare_limit hp]
      · rw [hrows]
        show nextMessageCursor _ p.limit = _
        rw [prepare_limit hp]

theorem exists_step_of_mem_messagesAt {c : Candidate} (hc : c ∈ messagesAt h req now) :
    (∃ s ∈ stepsAt h req now, s.traceId = c.traceID ∧ s.timestamp = c.firstMatch) ∧
      ∀ k, comesAfter Candidate.key (some k) c = true ↔
        ∃ s ∈ stepsAt h req now, s.traceId = c.traceID ∧ toLex (s.timestamp, s.traceId) < k := by
  unfold messagesAt at hc
  unfold stepsAt
  cases hp : paramsAt h req now with
  | none =>
    rw [hp] at hc
    cases hc
  | some p =>
    rw [hp] at hc
    exact ⟨(Store.firstMatch_spec hc).1, Store.comesAfter_iff hc⟩

theorem mem_traces_of_mem_stepsAt {s : TraceSpan} (hs : s ∈ stepsAt h req now) : s ∈ h.traces := by
  unfold stepsAt at hs
  cases hp : paramsAt h req now with
  | none =>
    rw [hp] at hs
    cases hs
  | some p =>
    rw [hp] at hs
    exact List.mem_of_mem_filter hs

theorem short_of_nextCursor_none
    (hreply : h.searchMessages now { req with cursor := cursor } = .answered r)
    (hend : r.nextCursor = none) :
    (keysetPage Candidate.key req.pageLimit (cursorKey cursor) (messagesAt h req now)).length <
      req.pageLimit := by
  obtain ⟨hpage, hnext⟩ := answered_page hreply
  rw [← hpage, List.length_map]
  rw [hnext, nextMessageCursor] at hend
  by_contra hfull
  have hcond : ¬(req.pageLimit = 0 ∨
      (r.results.map TraceSearchResult.row).length < req.pageLimit) := by
    have hpos : 0 < req.pageLimit := pageLimit_pos
    omega
  rw [if_neg hcond, Option.map_eq_none_iff, List.getLast?_eq_none_iff] at hend
  rw [hend] at hfull
  exact hfull pageLimit_pos

theorem last_of_nextCursor (hids : TrimmedIDs h) {next : SearchCursor}
    (hreply : h.searchMessages now { req with cursor := cursor } = .answered r)
    (hnext : r.nextCursor = some next) :
    ∃ last, (keysetPage Candidate.key req.pageLimit (cursorKey cursor)
        (messagesAt h req now)).getLast? = some last ∧
      cursorKey (some next) = some last.key := by
  obtain ⟨hpage, hcursor⟩ := answered_page hreply
  rw [hcursor, nextMessageCursor] at hnext
  split at hnext
  · cases hnext
  obtain ⟨row, hrow, hmade⟩ := Option.map_eq_some_iff.mp hnext
  have hlast : (keysetPage Candidate.key req.pageLimit (cursorKey cursor)
      (messagesAt h req now)).getLast? = some row.candidate := by
    rw [← hpage, List.getLast?_map, hrow]
    rfl
  have hmem := (mem_of_mem_keysetPage (List.mem_of_getLast? hlast)).1
  obtain ⟨s, hs, hid, htime⟩ := (exists_step_of_mem_messagesAt hmem).1
  obtain ⟨htrim, hne⟩ := hids s (mem_traces_of_mem_stepsAt hs)
  have hrange := s.inRange
  rw [hid] at htrim hne
  rw [htime] at hrange
  refine ⟨row.candidate, hlast, ?_⟩
  rw [← hmade, cursorKey]
  show (parseMessageCursor (some { ts := toString row.candidate.firstMatch
                                   id := row.candidate.traceID })).map MessageCursor.key = _
  rw [parseMessageCursor_toString hrange htrim hne]
  rfl

end Pages

section Runs

variable {h : Handlers} {req : SearchRequest} {calls : List Call} {rs : List SearchResponse}

def keysetCall (h : Handlers) (req : SearchRequest) (c : Call) :
    Option (Int ×ₗ String) × List Candidate :=
  (cursorKey c.cursor, messagesAt h req c.now)

theorem Paged.keysetRun (hrun : Paged h req calls rs) (hids : TrimmedIDs h) :
    KeysetRun Candidate.key req.pageLimit (calls.map (keysetCall h req)) ∧
      (allResults rs).map SearchTraceRow.candidate =
        keysetResult Candidate.key req.pageLimit (calls.map (keysetCall h req)) := by
  induction hrun with
  | @last c r hreply hend =>
    constructor
    · exact KeysetRun.last (short_of_nextCursor_none hreply hend)
    · simp only [allResults, keysetResult, List.flatMap_cons, List.flatMap_nil, List.append_nil,
        List.map_cons, List.map_nil]
      exact (answered_page hreply).1
  | @more c now r next calls rs hreply hnext hrun ih =>
    obtain ⟨last, hlast, hkey⟩ := last_of_nextCursor hids hreply hnext
    obtain ⟨hkeyset, hresult⟩ := ih
    constructor
    · simp only [List.map_cons, keysetCall, hkey] at hkeyset ⊢
      exact KeysetRun.more hlast hkeyset
    · rw [List.map_cons, keysetResult, List.flatMap_cons, allResults, List.flatMap_cons,
        List.map_append, (answered_page hreply).1]
      exact congrArg _ hresult

theorem nodup_messagesAt (now : Int) :
    ((messagesAt h req now).map Candidate.key).Nodup ∧
      ((messagesAt h req now).map Candidate.traceID).Nodup := by
  unfold messagesAt
  cases paramsAt h req now with
  | none => exact ⟨List.nodup_nil, List.nodup_nil⟩
  | some p => exact ⟨Store.nodup_key_messages, Store.nodup_traceID_messages⟩

theorem comesAfter_cursorKey_iff (cursor : Option SearchCursor) {now : Int} {c : Candidate}
    (hc : c ∈ messagesAt h req now) :
    comesAfter Candidate.key (cursorKey cursor) c = true ↔
      HasStepAfter h req now cursor c.traceID := by
  unfold HasStepAfter cursorKey
  cases parseMessageCursor cursor with
  | none => exact iff_of_true rfl trivial
  | some b => exact (exists_step_of_mem_messagesAt hc).2 b.key

variable {m : String} {after before : Call}

theorem KeepsSide.staysBeside (hside : KeepsSide h req m before after) :
    StaysBeside Candidate.key Candidate.traceID m (keysetCall h req before)
      (keysetCall h req after) := by
  intro c hc c' hc' hm hm'
  have hbefore := comesAfter_cursorKey_iff after.cursor hc
  have hafter := comesAfter_cursorKey_iff after.cursor hc'
  rw [hm] at hbefore
  rw [hm'] at hafter
  exact hbefore.trans (Iff.trans hside hafter.symm)

/-- **When paging is exact.**  The pages are in order, the latest first match first.  A message
that matches in the window of every call is on one of them, and on no other, if between two
calls it is never carried over the cursor. -/
theorem paging_exact (hrun : Paged h req calls rs)
    (hfirst : ∀ c ∈ calls.head?, c.cursor = none) (hids : TrimmedIDs h)
    (hsides : ∀ m, (∀ c ∈ calls, MatchesAt h req c.now m) → calls.IsChain (KeepsSide h req m)) :
    (∀ m, (∀ c ∈ calls, MatchesAt h req c.now m) →
        ((allResults rs).map SearchTraceRow.traceID).count m = 1) ∧
      (allResults rs).Pairwise fun a b =>
        toLex (b.firstMatch, b.traceID) < toLex (a.firstMatch, a.traceID) := by
  obtain ⟨hkeyset, hresult⟩ := hrun.keysetRun hids
  have hkeys : ∀ k ∈ calls.map (keysetCall h req), (k.2.map Candidate.key).Nodup := by
    intro k hk
    obtain ⟨c, -, rfl⟩ := List.mem_map.mp hk
    exact (nodup_messagesAt c.now).1
  constructor
  · intro m hm
    have hcount : ((keysetResult Candidate.key req.pageLimit
        (calls.map (keysetCall h req))).map Candidate.traceID).count m = 1 := by
      apply hkeyset.count_eq_one _ hkeys
      · intro k hk
        obtain ⟨c, -, rfl⟩ := List.mem_map.mp hk
        exact (nodup_messagesAt c.now).2
      · intro k hk
        obtain ⟨c, hc, rfl⟩ := List.mem_map.mp hk
        exact hm c hc
      · exact List.isChain_map_of_isChain _ (fun _ _ hside => hside.staysBeside) (hsides m hm)
      · intro k hk
        rw [List.head?_map, Option.mem_map] at hk
        obtain ⟨c, hc, rfl⟩ := hk
        show cursorKey c.cursor = none
        rw [hfirst c hc]
        rfl
    rw [← hresult, List.map_map] at hcount
    exact hcount
  · have hpairwise := (hkeyset.pairwise hkeys).1
    rw [← hresult, List.pairwise_map] at hpairwise
    exact hpairwise

theorem keepsSide_of_steps (hsteps : stepsAt h req before.now = stepsAt h req after.now) :
    KeepsSide h req m before after := by
  unfold KeepsSide HasStepAfter
  rw [hsteps]

end Runs

/-! ## A window that moves -/

private theorem secondInRange (n : Fin 2000) :
    -2 ^ 63 ≤ (n.val : Int) * 10 ^ 9 ∧ (n.val : Int) * 10 ^ 9 < 2 ^ 63 := by
  omega

private def spanAt (trace id : String) (n : Fin 2000) : TraceSpan where
  timestamp := (n.val : Int) * 10 ^ 9
  traceId := trace
  spanId := id
  parentSpanId := ""
  serviceName := "checkout"
  spanName := "order"
  environment := "prod"
  resourceAttributes := []
  spanAttributes := []
  inRange := secondInRange n

private def orderHandlers : Handlers where
  traces := [spanAt "a" "1" 500, spanAt "b" "2" 101, spanAt "b" "3" 600]
  texts := {
    position := fun _ _ => false
    isMatch := fun _ _ => false
    lower := fun s => s }
  readers := {
    parseDuration := fun s => if s = "15m" then some (900 * 10 ^ 9) else none
    scanDays := fun _ => none
    parseTime := fun _ _ => none }
  equalFold := fun s t => s = t
  integrations := []
  servicesForIntegration := fun _ _ => .ok []
  integrationClause := fun _ _ => none
  viewColumns := fun _ => none
  scope := fun _ => { unrestricted := true }

private def lastQuarter : SearchRequest where
  range := "15m"
  limit := 1

private def pageAt (now : Int) (cursor : Option SearchCursor) : SearchResponse :=
  match orderHandlers.searchMessages now { lastQuarter with cursor := cursor } with
  | .answered r => r
  | _ => { window := ⟨0, 0⟩, messageColumns := [] }

private theorem searchMessages_pageAt (now : Int) (cursor : Option SearchCursor)
    (h : (match orderHandlers.searchMessages now { lastQuarter with cursor := cursor } with
      | .answered _ => true
      | _ => false) = true) :
    orderHandlers.searchMessages now { lastQuarter with cursor := cursor } =
      .answered (pageAt now cursor) := by
  unfold pageAt
  cases hreply : orderHandlers.searchMessages now { lastQuarter with cursor := cursor } with
  | refused why =>
    rw [hreply] at h
    cases h
  | failed =>
    rw [hreply] at h
    cases h
  | answered r => rfl

private def afterA : SearchCursor := { ts := "500000000000", id := "a" }

private def afterB : SearchCursor := { ts := "101000000000", id := "b" }

private def keptCalls : List Call :=
  [⟨none, 1000 * 10 ^ 9⟩, ⟨some afterA, 1001 * 10 ^ 9⟩, ⟨some afterB, 1001 * 10 ^ 9⟩]

private def keptPages : List SearchResponse := keptCalls.map fun c => pageAt c.now c.cursor

private theorem keptPages_paged : Paged orderHandlers lastQuarter keptCalls keptPages :=
  .more (searchMessages_pageAt _ _ (by decide +kernel)) (by decide +kernel)
    (.more (searchMessages_pageAt _ _ (by decide +kernel)) (by decide +kernel)
      (.last (searchMessages_pageAt _ _ (by decide +kernel)) (by decide +kernel)))

theorem kept_message_paged :
    (∀ m ∈ ["a", "b"], ((allResults keptPages).map SearchTraceRow.traceID).count m = 1) ∧
      (allResults keptPages).Pairwise fun a b =>
        toLex (b.firstMatch, b.traceID) < toLex (a.firstMatch, a.traceID) := by
  have hexact := paging_exact keptPages_paged (by decide) (by decide +kernel) fun m _ =>
    .cons_cons (keepsSide_of_steps (by decide +kernel))
      (.cons_cons (keepsSide_of_steps (by decide +kernel)) (.singleton _))
  constructor
  · intro m hm
    apply hexact.1
    revert m
    decide +kernel
  · exact hexact.2

private def movedCalls : List Call := [⟨none, 1000 * 10 ^ 9⟩, ⟨some afterA, 1010 * 10 ^ 9⟩]

private def movedPages : List SearchResponse := movedCalls.map fun c => pageAt c.now c.cursor

private theorem movedPages_paged : Paged orderHandlers lastQuarter movedCalls movedPages :=
  .more (searchMessages_pageAt _ _ (by decide +kernel)) (by decide +kernel)
    (.last (searchMessages_pageAt _ _ (by decide +kernel)) (by decide +kernel))

/-- The second message matches in both windows, and is on no page. -/
theorem moved_message_lost :
    Paged orderHandlers lastQuarter movedCalls movedPages ∧
      (∀ c ∈ movedCalls.head?, c.cursor = none) ∧
      (movedCalls.map Call.now).Pairwise (· ≤ ·) ∧
      (∀ c ∈ movedCalls, MatchesAt orderHandlers lastQuarter c.now "b") ∧
      ((allResults movedPages).map SearchTraceRow.traceID).count "b" = 0 :=
  ⟨movedPages_paged, by decide, by decide, by decide +kernel, by decide +kernel⟩

end Sluicio.Api.MessageSearch
