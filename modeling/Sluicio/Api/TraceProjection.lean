import Sluicio.Proposals.Clusters

/-!
# One trace laid over a flow

`ProjectTraceOntoFlow` passes over the spans of a trace twice and over the edges of the graph
once.  The first pass keeps, for each member service, how many spans it has, how many of them
failed and the time they cover, and for each span the service it is on.  The second reads the
parent links.  The pass over the edges names, for a member without a span, the member before it
that got furthest.
-/

namespace Sluicio.Api.Projection

open Lib
open Proposals (RangeOrder)

/-- `FlowEdge`: a hop of the aggregate graph. -/
structure FlowEdge where
  source : String
  target : String
  deriving DecidableEq

/-- `SpanRow`, with the columns the projection reads. -/
structure SpanRow where
  spanID : String
  parentSpanID : String
  serviceName : String
  timestamp : Int
  durationNs : UInt64
  statusCode : String

inductive NodeState where
  | reached | failed | next | notReached
  deriving DecidableEq

structure TraceNodeState where
  serviceName : String
  state : NodeState
  spanCount : Nat := 0
  firstSeen : Option Int := none
  lastSeen : Option Int := none
  errorCount : Nat := 0
  afterService : String := ""
  deriving DecidableEq

structure TraceProjection where
  traceID : String
  nodes : List TraceNodeState
  traversedEdges : List String
  lastReached : String
  spansOutsideIntegration : Nat
  started : Option Int
  ended : Option Int

/-- `spanEnd`; the duration is read as a signed number. -/
def spanEnd (r : SpanRow) : Int := r.timestamp + r.durationNs.toInt64.toInt

def isErrorSpan (r : SpanRow) : Bool :=
  r.statusCode ∈ ["STATUS_CODE_ERROR", "Error", "ERROR", "2"]

structure Agg where
  count : Nat
  errors : Nat
  first : Int
  last : Int

/-- A service's first span starts its aggregate, still empty. -/
def Agg.start (r : SpanRow) : Agg := ⟨0, 0, r.timestamp, spanEnd r⟩

def Agg.see (a : Agg) (r : SpanRow) : Agg :=
  { count := a.count + 1
    errors := if isErrorSpan r then a.errors + 1 else a.errors
    first := if r.timestamp < a.first then r.timestamp else a.first
    last := if a.last < spanEnd r then spanEnd r else a.last }

/-- What the pass over the spans has gathered. -/
structure Scan where
  byService : String → Option Agg := fun _ => none
  spanService : String → String := fun _ => ""
  outside : Nat := 0

def Scan.add (members : List String) (st : Scan) (r : SpanRow) : Scan :=
  if r.serviceName ∈ members then
    { st with
      spanService := Function.update st.spanService r.spanID r.serviceName
      byService := Function.update st.byService r.serviceName
        (some (((st.byService r.serviceName).getD (Agg.start r)).see r)) }
  else { st with outside := st.outside + 1 }

def scan (members : List String) (rows : List SpanRow) : Scan :=
  rows.foldl (Scan.add members) {}

def edgeKey (parent child : String) : String := parent ++ "|" ++ child

/-- The edge a span was entered by, if it is one between two members. -/
def hop (spanService : String → String) (r : SpanRow) : Option String :=
  let child := spanService r.spanID
  if child = "" ∨ r.parentSpanID = "" then none
  else
    let parent := spanService r.parentSpanID
    if parent = "" ∨ parent = child then none else some (edgeKey parent child)

/-- An edge into a member without a span names where it comes from, unless the one named so
far got as far. -/
def follow (byService : String → Option Agg) (upstream : String → Option String) (e : FlowEdge) :
    String → Option String :=
  match byService e.target, byService e.source with
  | none, some a =>
    -- only a service with spans is ever named
    if ((upstream e.target).bind byService).all fun cur => cur.last < a.last then
      Function.update upstream e.target (some e.source)
    else upstream
  | _, _ => upstream

def upstreams (byService : String → Option Agg) (edges : List FlowEdge) : String → Option String :=
  edges.foldl (follow byService) fun _ => none

def nodeOf (byService : String → Option Agg) (upstream : String → Option String) (m : String) :
    TraceNodeState :=
  match byService m with
  | some a =>
    { serviceName := m
      state := if 0 < a.errors then .failed else .reached
      spanCount := a.count
      errorCount := a.errors
      firstSeen := some a.first
      lastSeen := some a.last }
  | none =>
    match upstream m with
    | some up => { serviceName := m, state := .next, afterService := up }
    | none => { serviceName := m, state := .notReached }

structure Bounds where
  started : Option Int := none
  ended : Option Int := none
  lastReached : String := ""

def Bounds.extend (b : Bounds) (name : String) (a : Agg) : Bounds :=
  let started := if b.started.all (a.first < ·) then some a.first else b.started
  if b.ended.all (· < a.last) then ⟨started, some a.last, name⟩
  else if b.ended = some a.last ∧ name < b.lastReached then ⟨started, b.ended, name⟩
  else ⟨started, b.ended, b.lastReached⟩

/-- The services of a map, in the order it is read in, each with its aggregate. -/
def boundsOf (byService : String → Option Agg) (names : List String) : Bounds :=
  names.foldl (fun b name => (byService name).elim b (b.extend name)) {}

def projectTraceOntoFlow (range : RangeOrder) (traceID : String) (members : List String)
    (edges : List FlowEdge) (rows : List SpanRow) : TraceProjection :=
  let st := scan members rows
  let traversed := (rows.filterMap (hop st.spanService)).dedup
  let upstream := upstreams st.byService edges
  -- only a member has an entry
  let bounds := boundsOf st.byService
    (range.visit (members.dedup.filter fun m => (st.byService m).isSome))
  { traceID := traceID
    nodes := members.map (nodeOf st.byService upstream)
    traversedEdges := orderBy id (range.visit traversed)
    lastReached := bounds.lastReached
    spansOutsideIntegration := st.outside
    started := bounds.started
    ended := bounds.ended }

/-! ## What an aggregate says -/

/-- An aggregate of a service's spans. -/
structure Agg.Describes (a : Agg) (rs : List SpanRow) : Prop where
  count : a.count = rs.length
  errors : a.errors = rs.countP isErrorSpan
  first_mem : ∃ r ∈ rs, r.timestamp = a.first
  first_le : ∀ r ∈ rs, a.first ≤ r.timestamp
  last_mem : ∃ r ∈ rs, spanEnd r = a.last
  le_last : ∀ r ∈ rs, spanEnd r ≤ a.last

/-- The aggregate of a service's spans, when it has any. -/
def aggOf : List SpanRow → Option Agg
  | [] => none
  | r :: rs => some ((r :: rs).foldl Agg.see (Agg.start r))

theorem aggOf_concat (rs : List SpanRow) (r : SpanRow) :
    aggOf (rs ++ [r]) = some (((aggOf rs).getD (Agg.start r)).see r) := by
  cases rs with
  | nil => rfl
  | cons r₀ rs => simp [aggOf, List.foldl_append]

variable {a : Agg} {rs : List SpanRow} {es : List (String × Agg)}

@[simp] theorem aggOf_eq_none : aggOf rs = none ↔ rs = [] := by
  cases rs <;> simp [aggOf]

theorem Agg.describes_start (r : SpanRow) : ((Agg.start r).see r).Describes [r] where
  count := rfl
  errors := by simp only [Agg.start, Agg.see, List.countP_singleton]
  first_mem := ⟨r, List.mem_singleton_self r, by simp [Agg.start, Agg.see]⟩
  first_le := by
    intro r' hr'
    rw [List.mem_singleton.1 hr']
    simp [Agg.start, Agg.see]
  last_mem := ⟨r, List.mem_singleton_self r, by simp [Agg.start, Agg.see]⟩
  le_last := by
    intro r' hr'
    rw [List.mem_singleton.1 hr']
    simp [Agg.start, Agg.see]

theorem Agg.Describes.see (h : a.Describes rs) (r : SpanRow) :
    (a.see r).Describes (rs ++ [r]) where
  count := by simp [Agg.see, h.count]
  errors := by
    rw [List.countP_append, List.countP_singleton, ← h.errors, Agg.see]
    dsimp only
    split <;> rfl
  first_mem := by
    by_cases hlt : r.timestamp < a.first
    · exact ⟨r, by simp, by simp [Agg.see, hlt]⟩
    · obtain ⟨r₀, hr₀, hfirst⟩ := h.first_mem
      exact ⟨r₀, by simp [hr₀], by simp [Agg.see, hlt, hfirst]⟩
  first_le := by
    intro r' hr'
    have hle : (a.see r).first ≤ a.first ∧ (a.see r).first ≤ r.timestamp := by
      simp only [Agg.see]
      split <;> omega
    rcases List.mem_append.1 hr' with hold | hnew
    · exact hle.1.trans (h.first_le r' hold)
    · rw [List.mem_singleton.1 hnew]
      exact hle.2
  last_mem := by
    by_cases hlt : a.last < spanEnd r
    · exact ⟨r, by simp, by simp [Agg.see, hlt]⟩
    · obtain ⟨r₀, hr₀, hlast⟩ := h.last_mem
      exact ⟨r₀, by simp [hr₀], by simp [Agg.see, hlt, hlast]⟩
  le_last := by
    intro r' hr'
    have hle : a.last ≤ (a.see r).last ∧ spanEnd r ≤ (a.see r).last := by
      simp only [Agg.see]
      split <;> omega
    rcases List.mem_append.1 hr' with hold | hnew
    · exact (h.le_last r' hold).trans hle.1
    · rw [List.mem_singleton.1 hnew]
      exact hle.2

theorem describes_aggOf (h : aggOf rs = some a) : a.Describes rs := by
  induction rs using List.reverseRecOn generalizing a with
  | nil => cases h
  | append_singleton rs r ih =>
    rw [aggOf_concat] at h
    obtain rfl := Option.some.inj h
    cases hrs : aggOf rs with
    | none =>
      obtain rfl := aggOf_eq_none.1 hrs
      exact Agg.describes_start r
    | some a => exact (ih hrs).see r

variable {e late : String × Agg} {rs' : List SpanRow} {r : SpanRow}

theorem Agg.Describes.eq_of_perm {b : Agg} (ha : a.Describes rs) (hb : b.Describes rs')
    (hperm : rs.Perm rs') : a = b := by
  have hfirst : a.first = b.first := by
    obtain ⟨r, hr, hra⟩ := ha.first_mem
    obtain ⟨r', hr', hrb⟩ := hb.first_mem
    have hle := hb.first_le r (hperm.mem_iff.1 hr)
    have hge := ha.first_le r' (hperm.mem_iff.2 hr')
    omega
  have hlast : a.last = b.last := by
    obtain ⟨r, hr, hra⟩ := ha.last_mem
    obtain ⟨r', hr', hrb⟩ := hb.last_mem
    have hle := hb.le_last r (hperm.mem_iff.1 hr)
    have hge := ha.le_last r' (hperm.mem_iff.2 hr')
    omega
  have hcount : a.count = b.count := by rw [ha.count, hb.count, hperm.length_eq]
  have herrors : a.errors = b.errors := by rw [ha.errors, hb.errors, hperm.countP_eq]
  cases a
  cases b
  simp_all

theorem aggOf_perm (h : rs.Perm rs') : aggOf rs = aggOf rs' := by
  cases ha : aggOf rs with
  | none =>
    obtain rfl := aggOf_eq_none.1 ha
    rw [List.nil_perm.1 h]
    rfl
  | some a =>
    cases hb : aggOf rs' with
    | none =>
      obtain rfl := aggOf_eq_none.1 hb
      rw [List.perm_nil.1 h] at ha
      cases ha
    | some b => rw [(describes_aggOf ha).eq_of_perm (describes_aggOf hb) h]

/-! ## What the pass over the spans leaves -/

variable {members : List String} {edges : List FlowEdge} {rows : List SpanRow}

def spansOf (rows : List SpanRow) (m : String) : List SpanRow :=
  rows.filter fun r => r.serviceName = m

theorem mem_spansOf {m : String} : r ∈ spansOf rows m ↔ r ∈ rows ∧ r.serviceName = m := by
  simp [spansOf]

theorem scan_concat (members : List String) (rows : List SpanRow) (r : SpanRow) :
    scan members (rows ++ [r]) = (scan members rows).add members r := by
  simp [scan, List.foldl_append]

theorem scan_byService (members : List String) (rows : List SpanRow) (m : String) :
    (scan members rows).byService m = if m ∈ members then aggOf (spansOf rows m) else none := by
  induction rows using List.reverseRecOn with
  | nil => simp [scan, spansOf, aggOf]
  | append_singleton rows r ih =>
    have hspans : spansOf (rows ++ [r]) m =
        if r.serviceName = m then spansOf rows m ++ [r] else spansOf rows m := by
      by_cases hm : r.serviceName = m <;> simp [spansOf, List.filter_append, hm]
    rw [scan_concat, Scan.add, hspans]
    by_cases hm : r.serviceName = m
    · subst hm
      rw [if_pos rfl, aggOf_concat]
      by_cases hmem : r.serviceName ∈ members
      · rw [if_pos hmem] at ih
        rw [if_pos hmem, if_pos hmem]
        show Function.update _ _ _ _ = _
        rw [Function.update_self, ih]
      · rw [if_neg hmem] at ih
        rw [if_neg hmem, if_neg hmem]
        exact ih
    · rw [if_neg hm, ← ih]
      split
      · exact Function.update_of_ne (Ne.symm hm) _ _
      · rfl

theorem scan_spanService_of_ne {members : List String} {rows : List SpanRow} {id : String}
    (h : ∀ r ∈ rows, r.spanID ≠ id) : (scan members rows).spanService id = "" := by
  induction rows using List.reverseRecOn with
  | nil => rfl
  | append_singleton rows r ih =>
    have hrows := ih fun r' hr' => h r' (by simp [hr'])
    rw [scan_concat, Scan.add]
    split
    · exact (Function.update_of_ne (Ne.symm (h r (by simp))) _ _).trans hrows
    · exact hrows

theorem scan_spanService (hids : (rows.map SpanRow.spanID).Nodup) (hr : r ∈ rows) :
    (scan members rows).spanService r.spanID =
      if r.serviceName ∈ members then r.serviceName else "" := by
  induction rows using List.reverseRecOn with
  | nil => cases hr
  | append_singleton rows last ih =>
    rw [List.map_append, List.map_singleton, List.nodup_append_comm, List.singleton_append,
      List.nodup_cons] at hids
    rw [scan_concat, Scan.add]
    rcases List.mem_append.1 hr with hold | hnew
    · have hne : r.spanID ≠ last.spanID := by
        intro heq
        exact hids.1 (heq ▸ List.mem_map_of_mem hold)
      rw [← ih hids.2 hold]
      split
      · exact Function.update_of_ne hne _ _
      · rfl
    · obtain rfl := List.mem_singleton.1 hnew
      split
      · exact Function.update_self _ _ _
      · refine scan_spanService_of_ne fun r' hr' heq => ?_
        exact hids.1 (heq ▸ List.mem_map_of_mem hr')

theorem scan_outside (members : List String) (rows : List SpanRow) :
    (scan members rows).outside = rows.countP fun r => r.serviceName ∉ members := by
  induction rows using List.reverseRecOn with
  | nil => rfl
  | append_singleton rows r ih =>
    rw [scan_concat, Scan.add, List.countP_append, List.countP_singleton, ← ih]
    by_cases hmem : r.serviceName ∈ members <;> simp [hmem]

/-! ## What the pass over the edges leaves -/

section Upstreams

variable {seen : String → Option Agg} {upstream : String → Option String} {m u : String}

/-- The edge enters `m`, which has no span, from a service with the aggregate `a`. -/
def Enters (seen : String → Option Agg) (m : String) (e : FlowEdge) (a : Agg) : Prop :=
  e.target = m ∧ seen m = none ∧ seen e.source = some a

variable {e : FlowEdge}

theorem follow_of_enters {a : Agg} (h : Enters seen m e a) :
    follow seen upstream e m =
      if ((upstream m).bind seen).all fun cur => cur.last < a.last then some e.source
      else upstream m := by
  obtain ⟨rfl, htarget, hsource⟩ := h
  simp only [follow, htarget, hsource]
  split
  · exact Function.update_self _ _ _
  · rfl

theorem follow_of_not (h : ∀ a, ¬ Enters seen m e a) : follow seen upstream e m = upstream m := by
  cases htarget : seen e.target with
  | some b => simp only [follow, htarget]
  | none =>
    cases hsource : seen e.source with
    | none => simp only [follow, htarget, hsource]
    | some a =>
      have hne : m ≠ e.target := by
        intro heq
        exact h a ⟨heq.symm, heq ▸ htarget, hsource⟩
      simp only [follow, htarget, hsource]
      split
      · exact Function.update_of_ne hne _ _
      · rfl

/-- No edge into `m` comes from a service that got further. -/
def NoneFurther (seen : String → Option Agg) (edges : List FlowEdge) (m : String) (n : Int) :
    Prop :=
  ∀ e ∈ edges, ∀ a, Enters seen m e a → a.last ≤ n

theorem NoneFurther.concat {n : Int} (h : NoneFurther seen edges m n)
    (he : ∀ a, Enters seen m e a → a.last ≤ n) : NoneFurther seen (edges ++ [e]) m n := by
  intro e' he'
  rcases List.mem_append.1 he' with hbefore | hnew
  · exact h e' hbefore
  · obtain rfl := List.mem_singleton.1 hnew
    exact he

/-- What is named for `m`: nothing when no edge enters it, and else a service that an edge
comes from and that none of the others got further than. -/
def Named (seen : String → Option Agg) (edges : List FlowEdge) (m : String) : Option String → Prop
  | none => ∀ e ∈ edges, ∀ a, ¬ Enters seen m e a
  | some u => ∃ e ∈ edges, e.source = u ∧ ∃ a, Enters seen m e a ∧ NoneFurther seen edges m a.last

/-- **Step lemma.** -/
theorem Named.follow (h : Named seen edges m (upstream m)) :
    Named seen (edges ++ [e]) m (follow seen upstream e m) := by
  by_cases henters : ∃ a, Enters seen m e a
  · obtain ⟨a, ha⟩ := henters
    have hlast : ∀ a', Enters seen m e a' → a'.last ≤ a.last := by
      intro a' ha'
      have hsame := ha.2.2.symm.trans ha'.2.2
      rw [Option.some.inj hsame]
    rw [follow_of_enters ha]
    cases hold : upstream m with
    | none =>
      rw [hold] at h
      have hnone : NoneFurther seen edges m a.last := fun e' he' a' ha' =>
        absurd ha' (h e' he' a')
      exact ⟨e, by simp, rfl, a, ha, hnone.concat hlast⟩
    | some cur =>
      rw [hold] at h
      obtain ⟨e₀, he₀, rfl, a₀, ha₀, hmax⟩ := h
      rw [Option.bind_some, ha₀.2.2, Option.all_some]
      by_cases hlt : a₀.last < a.last
      · have hbehind : NoneFurther seen edges m a.last := fun e' he' a' ha' =>
          (hmax e' he' a' ha').trans hlt.le
        rw [if_pos (decide_eq_true hlt)]
        exact ⟨e, by simp, rfl, a, ha, hbehind.concat hlast⟩
      have hahead : ∀ a', Enters seen m e a' → a'.last ≤ a₀.last := fun a' ha' =>
        (hlast a' ha').trans (not_lt.1 hlt)
      rw [if_neg (by simpa using hlt)]
      exact ⟨e₀, by simp [he₀], rfl, a₀, ha₀, hmax.concat hahead⟩
  · have hnot := not_exists.1 henters
    rw [follow_of_not hnot]
    cases hold : upstream m with
    | none =>
      rw [hold] at h
      intro e' he'
      rcases List.mem_append.1 he' with hbefore | hnew
      · exact h e' hbefore
      · obtain rfl := List.mem_singleton.1 hnew
        exact hnot
    | some cur =>
      rw [hold] at h
      obtain ⟨e₀, he₀, hsource, a₀, ha₀, hmax⟩ := h
      exact ⟨e₀, by simp [he₀], hsource, a₀, ha₀, hmax.concat fun a' ha' => absurd ha' (hnot a')⟩

theorem upstreams_named (seen : String → Option Agg) (edges : List FlowEdge) (m : String) :
    Named seen edges m (upstreams seen edges m) := by
  induction edges using List.reverseRecOn with
  | nil => exact fun e he => absurd he List.not_mem_nil
  | append_singleton edges e ih =>
    have hstep : upstreams seen (edges ++ [e]) = follow seen (upstreams seen edges) e := by
      simp [upstreams, List.foldl_append]
    rw [hstep]
    exact ih.follow

theorem upstreams_first {a : Agg} (he : Enters seen m e a)
    (hmax : NoneFurther seen edges m a.last) : upstreams seen (e :: edges) m = some e.source := by
  have hkept : ∀ upstream : String → Option String, upstream m = some e.source →
      edges.foldl (follow seen) upstream m = some e.source := by
    induction edges with
    | nil => exact fun _ h => h
    | cons e' edges ih =>
      intro upstream h
      refine ih (fun e'' he'' => hmax e'' (List.mem_cons_of_mem _ he'')) _ ?_
      by_cases henters : ∃ a', Enters seen m e' a'
      · obtain ⟨a', ha'⟩ := henters
        have hle := hmax e' List.mem_cons_self a' ha'
        rw [follow_of_enters ha', h, Option.bind_some, he.2.2, Option.all_some,
          if_neg (by simpa using hle)]
      · rw [follow_of_not (not_exists.1 henters), h]
  refine hkept _ ?_
  rw [follow_of_enters he]
  rfl

end Upstreams

/-! ## What the pass over the services leaves -/

/-- The entry has ended last of these, and is the first by name of those that did. -/
def Latest (es : List (String × Agg)) (late : String × Agg) : Prop :=
  ∀ e ∈ es, e.2.last ≤ late.2.last ∧ (e.2.last = late.2.last → late.1 ≤ e.1)

theorem Latest.concat (h : Latest es late)
    (he : e.2.last ≤ late.2.last ∧ (e.2.last = late.2.last → late.1 ≤ e.1)) :
    Latest (es ++ [e]) late := by
  intro e' he'
  rcases List.mem_append.1 he' with hbefore | hnew
  · exact h e' hbefore
  · rw [List.mem_singleton.1 hnew]
    exact he

theorem Latest.eq {es' : List (String × Agg)} {e' : String × Agg} (h : Latest es e)
    (h' : Latest es' e') (he : e ∈ es) (he' : e' ∈ es') (hperm : es.Perm es') :
    e.1 = e'.1 ∧ e.2.last = e'.2.last := by
  have hle := h e' (hperm.mem_iff.2 he')
  have hge := h' e (hperm.mem_iff.1 he)
  have hlast : e.2.last = e'.2.last := by omega
  exact ⟨le_antisymm (hle.2 hlast.symm) (hge.2 hlast), hlast⟩

theorem Latest.extend (hlate : late ∈ es) (h : Latest es late) (started : Option Int)
    (name : String) (a : Agg) :
    ∃ late' ∈ es ++ [(name, a)], Latest (es ++ [(name, a)]) late' ∧
      ((⟨started, some late.2.last, late.1⟩ : Bounds).extend name a).ended = some late'.2.last ∧
      ((⟨started, some late.2.last, late.1⟩ : Bounds).extend name a).lastReached = late'.1 := by
  have hself : Latest [(name, a)] (name, a) := by
    intro e he
    rw [List.mem_singleton.1 he]
    exact ⟨le_refl _, fun _ => le_refl _⟩
  simp only [Bounds.extend, Option.all_some, Option.some.injEq, decide_eq_true_eq]
  by_cases hlt : late.2.last < a.last
  · refine ⟨(name, a), by simp, ?_, by rw [if_pos hlt], by rw [if_pos hlt]⟩
    refine Latest.concat (fun e he => ?_) (hself _ (List.mem_singleton_self _))
    have hbehind := (h e he).1.trans_lt hlt
    exact ⟨hbehind.le, fun heq => absurd heq hbehind.ne⟩
  by_cases htie : late.2.last = a.last ∧ name < late.1
  · rw [if_neg hlt, if_pos htie]
    refine ⟨(name, a), by simp, ?_, by rw [htie.1], rfl⟩
    refine Latest.concat (fun e he => ?_) (hself _ (List.mem_singleton_self _))
    have hold := h e he
    rw [htie.1] at hold
    exact ⟨hold.1, fun heq => htie.2.le.trans (hold.2 heq)⟩
  · rw [if_neg hlt, if_neg htie]
    refine ⟨late, by simp [hlate], h.concat ⟨not_lt.1 hlt, fun heq => ?_⟩, rfl, rfl⟩
    exact not_lt.1 fun hname => htie ⟨heq.symm, hname⟩

/-- The bounds of services with their aggregates. -/
def Bounds.Of (b : Bounds) (es : List (String × Agg)) : Prop :=
  (es = [] ∧ b = {}) ∨
    ∃ early ∈ es, ∃ late ∈ es, b = ⟨some early.2.first, some late.2.last, late.1⟩ ∧
      (∀ e ∈ es, early.2.first ≤ e.2.first) ∧ Latest es late

/-- **Step lemma.** -/
theorem Bounds.Of.extend {b : Bounds} (h : b.Of es) (name : String) (a : Agg) :
    (b.extend name a).Of (es ++ [(name, a)]) := by
  obtain ⟨rfl, rfl⟩ | ⟨early, hearly, late, hlate, rfl, hfirst, hlast⟩ := h
  · refine .inr ⟨(name, a), by simp, (name, a), by simp, rfl, fun e he => ?_, fun e he => ?_⟩
    · obtain rfl : e = (name, a) := by simpa using he
      exact le_refl _
    · obtain rfl : e = (name, a) := by simpa using he
      exact ⟨le_refl _, fun _ => le_refl _⟩
  · obtain ⟨late', hlate', hlast', hended, hreached⟩ :=
      hlast.extend hlate (some early.2.first) name a
    have hstarted : ∃ early' ∈ es ++ [(name, a)],
        ((⟨some early.2.first, some late.2.last, late.1⟩ : Bounds).extend name a).started =
          some early'.2.first ∧ early'.2.first ≤ early.2.first ∧ early'.2.first ≤ a.first := by
      have hpart : ((⟨some early.2.first, some late.2.last, late.1⟩ : Bounds).extend name
          a).started = if a.first < early.2.first then some a.first else some early.2.first := by
        simp only [Bounds.extend, Option.all_some, decide_eq_true_eq]
        split
        · rfl
        · split <;> rfl
      rw [hpart]
      by_cases hlt : a.first < early.2.first
      · exact ⟨(name, a), by simp, by simp [hlt], hlt.le, le_refl _⟩
      · exact ⟨early, by simp [hearly], by simp [hlt], le_refl _, not_lt.1 hlt⟩
    obtain ⟨early', hearly', hstarted, hold, hnew⟩ := hstarted
    refine .inr ⟨early', hearly', late', hlate', ?_, fun e he => ?_, hlast'⟩
    · rw [← hstarted, ← hended, ← hreached]
    · rcases List.mem_append.1 he with hbefore | hlast
      · exact hold.trans (hfirst e hbefore)
      · rw [List.mem_singleton.1 hlast]
        exact hnew

def entries (seen : String → Option Agg) (names : List String) : List (String × Agg) :=
  names.filterMap fun name => (seen name).map fun a => (name, a)

theorem boundsOf_entries (seen : String → Option Agg) (names : List String) :
    (boundsOf seen names).Of (entries seen names) := by
  induction names using List.reverseRecOn with
  | nil => exact .inl ⟨rfl, rfl⟩
  | append_singleton names name ih =>
    have hstep : boundsOf seen (names ++ [name]) =
        (seen name).elim (boundsOf seen names) ((boundsOf seen names).extend name) := by
      simp [boundsOf, List.foldl_append]
    have hentries : entries seen (names ++ [name]) =
        entries seen names ++ ((seen name).map fun a => (name, a)).toList := by
      unfold entries
      rw [List.filterMap_append]
      cases h : seen name <;> simp [h]
    rw [hstep, hentries]
    cases seen name with
    | none => simpa using ih
    | some a => exact ih.extend name a

theorem boundsOf_perm {seen : String → Option Agg} {names names' : List String}
    (h : names.Perm names') : boundsOf seen names = boundsOf seen names' := by
  have hperm : (entries seen names).Perm (entries seen names') := h.filterMap _
  obtain ⟨hnil, hb⟩ | ⟨early, hearly, late, hlate, hb, hfirst, hlast⟩ :=
    boundsOf_entries seen names
  · obtain ⟨_, hb'⟩ | ⟨early', hearly', _⟩ := boundsOf_entries seen names'
    · rw [hb, hb']
    · rw [hnil, List.nil_perm] at hperm
      rw [hperm] at hearly'
      cases hearly'
  · obtain ⟨hnil', _⟩ | ⟨early', hearly', late', hlate', hb', hfirst', hlast'⟩ :=
      boundsOf_entries seen names'
    · rw [hnil', List.perm_nil] at hperm
      rw [hperm] at hearly
      cases hearly
    · have hsame := hlast.eq hlast' hlate hlate' hperm
      have hle := hfirst early' (hperm.mem_iff.2 hearly')
      have hge := hfirst' early (hperm.mem_iff.1 hearly)
      rw [hb, hb', hsame.1, hsame.2, le_antisymm hle hge]

end Sluicio.Api.Projection
