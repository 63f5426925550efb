import Mathlib.Data.List.Dedup
import Sluicio.Store.BoundGroups

/-!
# What the attribute groups select

`Selects` says which rows a list of attribute groups stands for, in terms of the rows
and the spans alone.  `attrGroupsClause_selects` says that the compiled clause, with its
arguments bound, selects just those, and that its text has as many placeholders as
arguments.

A row is at or below an anchor when the parent links of its trace lead from one to the
other in at most `subtreeDepthCap` steps.  A metric point has no trace, so the gate is
not asked of it.
-/

namespace Sluicio.Store

open Lib Clause LogAttrFilter

variable {F : Type}

def GroupHolds (cfg : EnvironmentConfig) (engine : Engine F) (g : List LogAttrFilter)
    (row : Row) : Prop :=
  ∀ f ∈ g, f.Holds cfg engine row

/-- The `(SpanId, ParentSpanId)` links of a trace. -/
def traceLinks (traces : List Span) (traceId : String) : List (String × String) :=
  (traces.filter fun s => s.traceId = traceId).map fun s => (s.spanId, s.parentSpanId)

def AtOrBelowAnchor (cfg : EnvironmentConfig) (engine : Engine F) (traces : List Span)
    (g : List LogAttrFilter) (row : Row) : Prop :=
  ∃ traceId spanId, row.trace = some (traceId, spanId) ∧
    ∃ a ∈ traces, a.traceId = traceId ∧ GroupHolds cfg engine g (.span a) ∧
      Below (traceLinks traces traceId) subtreeDepthCap a.spanId spanId

/-- A member's group selects the row. -/
def MemberHolds (cfg : EnvironmentConfig) (engine : Engine F) (traces : List Span)
    (g : List LogAttrFilter) (row : Row) : Prop :=
  GroupHolds cfg engine g row ∨
    (g.any descendants ∧ AtOrBelowAnchor cfg engine traces g row)

/-- The member a group belongs to: the one a filter names, or the group's own. -/
inductive MemberId where
  | named (m : Int)
  | own (index : Nat)
  deriving DecidableEq

/-- The member of a numbered group. -/
def memberId (x : List LogAttrFilter × Nat) : MemberId :=
  match x.1.findSome? member with
  | some m => .named m
  | none => .own x.2

/-- All the members are required, and there are at least two. -/
def AllRequired (groups : List (List LogAttrFilter)) : Prop :=
  (∃ x ∈ memberGroups groups, x.1.any requireAllGroups) ∧
    ∃ x ∈ memberGroups groups, ∃ y ∈ memberGroups groups, memberId x ≠ memberId y

def EveryMemberInTrace (cfg : EnvironmentConfig) (engine : Engine F) (traces : List Span)
    (groups : List (List LogAttrFilter)) (row : Row) : Prop :=
  ∀ x ∈ memberGroups groups, ∃ y ∈ memberGroups groups, memberId y = memberId x ∧
    ∃ s ∈ traces, row.trace.map Prod.fst = some s.traceId ∧ GroupHolds cfg engine y.1 (.span s)

/-- The rows a list of groups selects: those a member's group selects whose trace holds
every member, when all are required and the row is one that has a trace, and those a
source holds of. -/
def Selects (cfg : EnvironmentConfig) (engine : Engine F) (traces : List Span)
    (groups : List (List LogAttrFilter)) (row : Row) : Prop :=
  ((∃ x ∈ memberGroups groups, MemberHolds cfg engine traces x.1 row) ∧
      (row.table.hasTrace → AllRequired groups → EveryMemberInTrace cfg engine traces groups row)) ∨
    ∃ g ∈ groups, isSourceGroup g ∧ GroupHolds cfg engine g row

section Bound

variable {cfg : EnvironmentConfig} {engine : Engine F}

/-! ## What the bound clause selects -/

section Meaning

variable {traces : List Span} {row : Row} {start stop : Int}

def TraceInside (traces : List Span) (row : Row) (start stop : Int) : Prop :=
  ∀ s ∈ traces, row.trace.map Prod.fst = some s.traceId → start ≤ s.timestamp ∧ s.timestamp ≤ stop

variable {groups : List (List LogAttrFilter)} {g : List LogAttrFilter}

theorem boundGroup_eval (hname : ∀ f ∈ g, ¬ f.AsksForMetricName row.table) :
    (boundGroup cfg engine row.table g).eval engine traces (.row row) = .yes ↔
      GroupHolds cfg engine g row := by
  rw [boundGroup, eval_all, List.forall_mem_map]
  unfold GroupHolds
  constructor
  · intro h f hf
    exact (attrCond_eval cfg engine (hname f hf)).1 (h f hf)
  · intro h f hf
    exact (attrCond_eval cfg engine (hname f hf)).2 (h f hf)

theorem boundOnSpans_eval (primaryMap : PrimaryMap) (g : List LogAttrFilter) (s : Span) :
    (boundOnSpans cfg engine primaryMap g).eval engine traces (.row (.span s)) = .yes ↔
      GroupHolds cfg engine g (.span s) := by
  have hname : ∀ f ∈ g, ¬ f.AsksForMetricName (Row.span s).table := by
    intro f _ h
    exact PrimaryMap.noConfusion h.1
  have hgroup : (boundGroup cfg engine .spanAttributes g).eval engine traces
      (.row (.span s)) = .yes ↔ GroupHolds cfg engine g (.span s) := boundGroup_eval hname
  unfold boundOnSpans
  split
  · exact hgroup
  · rw [eval_any]
    simp only [List.mem_singleton, exists_eq_left]
    exact hgroup

def spansInWindow (traces : List Span) (start stop : Int) : List Span :=
  traces.filter fun s => start ≤ s.timestamp && s.timestamp ≤ stop

theorem spansInWindow_trace {traceId spanId : String} (hrow : row.trace = some (traceId, spanId))
    (hinside : TraceInside traces row start stop) :
    ((spansInWindow traces start stop).filter fun s => s.traceId = traceId) =
      traces.filter fun s => s.traceId = traceId := by
  unfold spansInWindow
  rw [List.filter_filter]
  refine List.filter_congr fun s hs => ?_
  by_cases htrace : s.traceId = traceId
  · have hwithin := hinside s hs (by rw [hrow, htrace]; rfl)
    simp [htrace, hwithin.1, hwithin.2]
  · simp [htrace]

theorem mem_spansInWindow {traceId spanId : String} (hrow : row.trace = some (traceId, spanId))
    (hinside : TraceInside traces row start stop) {s : Span} (htrace : s.traceId = traceId) :
    s ∈ spansInWindow traces start stop ↔ s ∈ traces := by
  have hmem : s ∈ (spansInWindow traces start stop).filter (fun s => s.traceId = traceId) ↔
      s ∈ traces.filter fun s => s.traceId = traceId := by
    rw [spansInWindow_trace hrow hinside]
  simpa [htrace] using hmem

/-! ## The subtree of a trace -/

/-- The fold of `subtreeClause` over the `(SpanId, ParentSpanId)` rows of a trace, each span
once. -/
def subtreeSpans (edges : List (String × String)) (anchors : List String) : List String :=
  (descend edges (min edges.length subtreeDepthCap) anchors).dedup

/-- **The fold is the descendant closure.** It gathers the anchors and what descends from
them, whatever rows repeat, go round in a circle or name a parent that is not there. -/
theorem mem_subtreeSpans {edges : List (String × String)}
    (hdepth : NestedWithin edges subtreeDepthCap) (anchors : List String) (spanId : String) :
    spanId ∈ subtreeSpans edges anchors ↔ ∃ a ∈ anchors, Descends edges a spanId := by
  rw [subtreeSpans, List.mem_dedup, mem_descend_min]
  exact exists_congr fun a => and_congr_right fun _ => hdepth.below_iff

theorem mem_subtreeSpans_cycle :
    "c" ∈ subtreeSpans [("b", "a"), ("b", "a"), ("c", "b"), ("a", "c"), ("d", "lost")] ["a"] ↔
      ∃ a ∈ ["a"], Descends [("b", "a"), ("b", "a"), ("c", "b"), ("a", "c"), ("d", "lost")] a "c" :=
  mem_subtreeSpans (fun a c h => (nestedWithin_length _ a c h).mono (by decide)) ["a"] "c"

variable {c : Clause (Arg F)} {ms : List (List LogAttrFilter × Nat)} {inside : Span → Bool}

theorem inSubtree_eq {anchor inside' anchor' : Span → Bool} {traceId spanId : String} :
    inSubtree traces inside anchor inside' anchor' traceId spanId =
      decide (spanId ∈ subtreeSpans
        ((gathered traces inside inside' anchor' traceId).map fun s => (s.spanId, s.parentSpanId))
        (((gathered traces inside inside' anchor' traceId).filter anchor).map Span.spanId)) := by
  simp only [inSubtree, subtreeSpans, List.mem_dedup]

theorem inSubtree_iff {anchor : Span → Bool} {traceId spanId : String} :
    inSubtree traces inside anchor inside anchor traceId spanId ↔
      ∃ a ∈ traces.filter inside, a.traceId = traceId ∧ anchor a ∧
        Below (traceLinks (traces.filter inside) traceId) subtreeDepthCap a.spanId spanId := by
  have hgroup {a : Span} (ha : a ∈ traces.filter inside) (hid : a.traceId = traceId)
      (hanchor : anchor a) : gathered traces inside inside anchor traceId =
        (traces.filter inside).filter fun s => s.traceId = traceId := by
    obtain ⟨hmem, hinside⟩ := List.mem_filter.1 ha
    unfold gathered
    rw [List.filter_filter]
    refine List.filter_congr fun s _ => ?_
    by_cases htrace : s.traceId = traceId
    · have hholding : s.traceId ∈
          (traces.filter fun s => inside s && anchor s).map Span.traceId := by
        refine List.mem_map.2 ⟨a, List.mem_filter.2 ⟨hmem, ?_⟩, hid.trans htrace.symm⟩
        rw [hinside, hanchor]
        rfl
      rw [decide_eq_true hholding, decide_eq_true htrace, Bool.and_true, Bool.and_true,
        Bool.true_and]
    · simp [htrace]
  have hsub {a : Span} (h : a ∈ gathered traces inside inside anchor traceId) :
      a ∈ traces.filter inside ∧ a.traceId = traceId := by
    obtain ⟨hmem, hkept⟩ := List.mem_filter.1 h
    simp only [Bool.and_eq_true, decide_eq_true_eq] at hkept
    exact ⟨List.mem_filter.2 ⟨hmem, hkept.1.1⟩, hkept.2⟩
  rw [inSubtree_eq, decide_eq_true_eq, subtreeSpans, List.mem_dedup, mem_descend_min]
  simp only [List.mem_map]
  constructor
  · rintro ⟨_, ⟨a, ha, rfl⟩, hbelow⟩
    obtain ⟨hmem, hanchor⟩ := List.mem_filter.1 ha
    have ha := hsub hmem
    rw [hgroup ha.1 ha.2 hanchor] at hbelow
    exact ⟨a, ha.1, ha.2, hanchor, hbelow⟩
  · rintro ⟨a, ha, hid, hanchor, hbelow⟩
    rw [hgroup ha hid hanchor]
    refine ⟨a.spanId, ⟨a, List.mem_filter.2 ⟨List.mem_filter.2 ⟨ha, ?_⟩, hanchor⟩, rfl⟩, hbelow⟩
    exact decide_eq_true hid

theorem boundSubtree_window (primaryMap : PrimaryMap) (g : List LogAttrFilter) :
    (boundSubtree cfg engine primaryMap start stop g).eval engine traces (.row row) = .yes ↔
      AtOrBelowAnchor cfg engine (spansInWindow traces start stop) g row := by
  rw [boundSubtree, Clause.eval, Truth.ofBool_eq_yes]
  unfold AtOrBelowAnchor
  cases hrow : row.trace with
  | none => simp
  | some id =>
    obtain ⟨traceId, spanId⟩ := id
    have hfound := @inSubtree_iff traces (within (F := F) (.time start) (.time stop))
      (fun s => (boundOnSpans cfg engine primaryMap g).eval engine traces (.row (.span s)) = .yes)
      traceId spanId
    simp only [decide_eq_true_eq, boundOnSpans_eval] at hfound
    simp only [hfound]
    constructor
    · intro h
      exact ⟨traceId, spanId, rfl, h⟩
    · rintro ⟨_, _, hid, h⟩
      cases hid
      exact h

theorem boundSubtree_eval (primaryMap : PrimaryMap) (hinside : TraceInside traces row start stop) :
    (boundSubtree cfg engine primaryMap start stop g).eval engine traces (.row row) = .yes ↔
      AtOrBelowAnchor cfg engine traces g row := by
  rw [boundSubtree_window]
  unfold AtOrBelowAnchor
  refine exists_congr fun traceId => exists_congr fun spanId => and_congr_right fun hrow => ?_
  have hlinks : traceLinks (spansInWindow traces start stop) traceId =
      traceLinks traces traceId := by
    unfold traceLinks
    rw [spansInWindow_trace hrow hinside]
  rw [hlinks]
  exact exists_congr fun a => and_congr_left fun h => mem_spansInWindow hrow hinside h.1

theorem alternatives_eval {alts : List (Clause (Arg F))} {scope : Scope} :
    (alternatives alts).eval engine traces scope = .yes ↔
      ∃ alt ∈ alts, alt.eval engine traces scope = .yes := by
  match alts with
  | [] => exact eval_any
  | [alt] => simp [alternatives]
  | alt :: alt' :: alts => exact eval_any

theorem boundHaving_eval (primaryMap : PrimaryMap) (ms : List (List LogAttrFilter × Nat))
    (member : Int) (spans : List Span) :
    (boundHaving cfg engine primaryMap ms member).eval engine traces (.group spans) = .yes ↔
      ∃ x ∈ ms, groupMemberOf x.1 x.2 = member ∧
        ∃ s ∈ spans, GroupHolds cfg engine x.1 (.span s) := by
  rw [boundHaving, alternatives_eval]
  simp only [List.mem_map, List.mem_filter, decide_eq_true_eq]
  constructor
  · rintro ⟨_, ⟨x, ⟨hx, hmember⟩, rfl⟩, hcount⟩
    obtain ⟨s, hs, hholds⟩ := eval_countIf.1 hcount
    exact ⟨x, hx, hmember, s, hs, (boundOnSpans_eval primaryMap x.1 s).1 hholds⟩
  · rintro ⟨x, hx, hmember, s, hs, hholds⟩
    refine ⟨_, ⟨x, ⟨hx, hmember⟩, rfl⟩, eval_countIf.2 ⟨s, hs, ?_⟩⟩
    exact (boundOnSpans_eval primaryMap x.1 s).2 hholds

theorem boundGate_window (primaryMap : PrimaryMap) (hne : ms ≠ []) {traceId spanId : String}
    (hrow : row.trace = some (traceId, spanId)) :
    (boundGate cfg engine primaryMap start stop ms).eval engine traces (.row row) = .yes ↔
      ∀ x ∈ ms, ∃ y ∈ ms, groupMemberOf y.1 y.2 = groupMemberOf x.1 x.2 ∧
        ∃ s ∈ spansInWindow traces start stop, s.traceId = traceId ∧
          GroupHolds cfg engine y.1 (.span s) := by
  have hmem {s : Span} : s ∈ (traces.filter fun s =>
      within (F := F) (.time start) (.time stop) s &&
        ((Clause.any (ms.map fun x => boundOnSpans cfg engine primaryMap x.1)).eval engine traces
          (.row (.span s)) = .yes) && (s.traceId = traceId)) ↔
      s ∈ spansInWindow traces start stop ∧ s.traceId = traceId ∧
        ∃ x ∈ ms, GroupHolds cfg engine x.1 (.span s) := by
    unfold spansInWindow
    rw [List.mem_filter, List.mem_filter]
    simp only [within, Bool.and_eq_true, decide_eq_true_eq, eval_any, List.mem_map,
      exists_exists_and_eq_and, boundOnSpans_eval]
    constructor
    · intro h
      exact ⟨⟨h.1, h.2.1.1⟩, h.2.2, h.2.1.2⟩
    · intro h
      exact ⟨h.1.1, ⟨h.1.2, h.2.2⟩, h.2.1⟩
  rw [boundGate, Clause.eval, Truth.ofBool_eq_yes, hrow]
  show (!(traces.filter _).isEmpty && decide (Truth.all _ = .yes)) = true ↔ _
  rw [Bool.and_eq_true, decide_eq_true_eq, evalList_eq, Truth.all_eq_yes]
  simp only [List.forall_mem_map, boundHaving_eval, memberOrder, List.mem_eraseDups, hmem]
  constructor
  · intro h x hx
    obtain ⟨y, hy, hmember, s, ⟨hs, htrace, _⟩, hholds⟩ := h.2 x hx
    exact ⟨y, hy, hmember, s, hs, htrace, hholds⟩
  · intro h
    have hall : ∀ x ∈ ms, ∃ y ∈ ms, groupMemberOf y.1 y.2 = groupMemberOf x.1 x.2 ∧
        ∃ s, (s ∈ spansInWindow traces start stop ∧ s.traceId = traceId ∧
          ∃ x ∈ ms, GroupHolds cfg engine x.1 (.span s)) ∧
          GroupHolds cfg engine y.1 (.span s) := by
      intro x hx
      obtain ⟨y, hy, hmember, s, hs, htrace, hholds⟩ := h x hx
      exact ⟨y, hy, hmember, s, ⟨hs, htrace, y, hy, hholds⟩, hholds⟩
    refine ⟨?_, hall⟩
    obtain ⟨x, hx⟩ := List.exists_mem_of_ne_nil ms hne
    obtain ⟨_, _, _, s, hs, _⟩ := hall x hx
    rw [Bool.not_eq_true', ← Bool.not_eq_true, List.isEmpty_iff]
    intro hempty
    have := hmem.2 hs
    rw [hempty] at this
    exact List.not_mem_nil this

theorem boundGate_eval (primaryMap : PrimaryMap) (hne : ms ≠ []) {traceId spanId : String}
    (hrow : row.trace = some (traceId, spanId)) (hinside : TraceInside traces row start stop) :
    (boundGate cfg engine primaryMap start stop ms).eval engine traces (.row row) = .yes ↔
      ∀ x ∈ ms, ∃ y ∈ ms, groupMemberOf y.1 y.2 = groupMemberOf x.1 x.2 ∧
        ∃ s ∈ traces, s.traceId = traceId ∧ GroupHolds cfg engine y.1 (.span s) := by
  have hspan (g : List LogAttrFilter) :
      (∃ s ∈ spansInWindow traces start stop, s.traceId = traceId ∧
          GroupHolds cfg engine g (.span s)) ↔
        ∃ s ∈ traces, s.traceId = traceId ∧ GroupHolds cfg engine g (.span s) :=
    exists_congr fun s => and_congr_left fun h => mem_spansInWindow hrow hinside h.1
  rw [boundGate_window primaryMap hne hrow]
  simp only [hspan]

theorem boundPart_eval (hstart : start ≠ 0) (hstop : stop ≠ 0)
    (hname : ∀ f ∈ g, ¬ f.AsksForMetricName row.table) (hinside : TraceInside traces row start stop)
    (hrow : ∀ s, row = .span s → s ∈ traces) :
    (boundPart cfg engine row.table start stop g).eval engine traces (.row row) = .yes ↔
      MemberHolds cfg engine traces g row := by
  have hgroup : (boundGroup cfg engine row.table g).eval engine traces (.row row) = .yes ↔
      GroupHolds cfg engine g row := boundGroup_eval hname
  have hsubtree : (boundSubtree cfg engine row.table start stop g).eval engine traces
      (.row row) = .yes ↔ AtOrBelowAnchor cfg engine traces g row :=
    boundSubtree_eval row.table hinside
  unfold boundPart MemberHolds
  by_cases hwidened : widened row.table start stop g
  · have hdesc : g.any descendants := by
      by_contra h
      simp [widened, h] at hwidened
    rw [if_pos hwidened]
    by_cases hspan : row.table = .spanAttributes
    · rw [if_pos hspan, hsubtree]
      refine ⟨fun h => .inr ⟨hdesc, h⟩, fun h => ?_⟩
      cases h with
      | inl hholds =>
        cases row with
        | span s =>
          exact ⟨s.traceId, s.spanId, rfl, s, hrow s rfl, rfl, hholds, .here _ _ _⟩
        | log l => cases hspan
        | metric m => cases hspan
      | inr h => exact h.2
    · rw [if_neg hspan, eval_any]
      simp only [List.mem_cons, List.not_mem_nil, or_false, exists_eq_or_imp, exists_eq_left,
        hgroup, hsubtree, hdesc, true_and]
  · rw [if_neg hwidened, hgroup]
    refine ⟨.inl, fun h => h.elim id fun hwide => ?_⟩
    have hdesc := hwide.1
    -- the window is given, so the part is the plain group only on a table without traces
    have hmetric : row.table = .metricAttributes := by
      by_contra h
      simp [widened, hdesc, isZero, hstart, hstop, h] at hwidened
    obtain ⟨traceId, spanId, htrace, _⟩ := hwide.2
    cases row with
    | span s => cases hmetric
    | log l => cases hmetric
    | metric m => cases htrace

theorem two_le_length_eraseDups {l : List Int} :
    2 ≤ l.eraseDups.length ↔ ∃ a ∈ l, ∃ b ∈ l, a ≠ b := by
  cases l with
  | nil => simp
  | cons a l =>
    rw [List.eraseDups_cons, List.length_cons]
    have hrest : 1 ≤ (l.filter fun b => !b == a).eraseDups.length ↔ ∃ b ∈ l, b ≠ a := by
      rw [Nat.one_le_iff_ne_zero, Ne, List.length_eq_zero_iff, List.eq_nil_iff_forall_not_mem]
      simp [List.mem_eraseDups]
    constructor
    · intro h
      obtain ⟨b, hb, hne⟩ := hrest.1 (by omega)
      exact ⟨b, List.mem_cons_of_mem _ hb, a, List.mem_cons_self, hne⟩
    · intro ⟨x, hx, y, hy, hne⟩
      have hother : ∃ b ∈ l, b ≠ a := by
        by_cases hxa : x = a
        · refine ⟨y, ?_, fun hya => hne (hxa.trans hya.symm)⟩
          have hya : y ≠ a := fun hya => hne (hxa.trans hya.symm)
          simpa [hya] using hy
        · exact ⟨x, by simpa [hxa] using hx, hxa⟩
      have := hrest.2 hother
      omega

/-- No group's own number is the number of a member another group names. -/
def MembersApart (groups : List (List LogAttrFilter)) : Prop :=
  ∀ x ∈ memberGroups groups, ∀ y ∈ memberGroups groups,
    y.1.findSome? member = none →
      x.1.findSome? member ≠ some (-1 - (y.2 : Int))

theorem groupMemberOf_eq_iff (h : MembersApart groups) {x y : List LogAttrFilter × Nat}
    (hx : x ∈ memberGroups groups) (hy : y ∈ memberGroups groups) :
    groupMemberOf x.1 x.2 = groupMemberOf y.1 y.2 ↔ memberId x = memberId y := by
  unfold groupMemberOf memberId
  cases hxm : x.1.findSome? member with
  | none =>
    cases hym : y.1.findSome? member with
    | none =>
      simp only [MemberId.own.injEq]
      omega
    | some m =>
      have hne := h y hy x hx hxm
      rw [hym, Ne, Option.some.injEq] at hne
      simp only [reduceCtorEq, iff_false]
      omega
  | some m =>
    cases hym : y.1.findSome? member with
    | none =>
      have hne := h x hx y hy hym
      rw [hxm, Ne, Option.some.injEq] at hne
      simp only [reduceCtorEq, iff_false]
      omega
    | some m' => simp only [MemberId.named.injEq]

theorem gated_iff {primaryMap : PrimaryMap} (hstart : start ≠ 0) (hstop : stop ≠ 0)
    (h : MembersApart groups) :
    gated primaryMap start stop (memberGroups groups) ↔
      primaryMap.hasTrace ∧ AllRequired groups := by
  have htwo : 2 ≤ (memberOrder (memberGroups groups)).length ↔
      ∃ x ∈ memberGroups groups, ∃ y ∈ memberGroups groups, memberId x ≠ memberId y := by
    rw [memberOrder, two_le_length_eraseDups]
    simp only [List.mem_map, exists_exists_and_eq_and]
    constructor
    · rintro ⟨x, hx, y, hy, hne⟩
      exact ⟨x, hx, y, hy, fun heq => hne ((groupMemberOf_eq_iff h hx hy).2 heq)⟩
    · rintro ⟨x, hx, y, hy, hne⟩
      exact ⟨x, hx, y, hy, fun heq => hne ((groupMemberOf_eq_iff h hx hy).1 heq)⟩
  have htrace : primaryMap.hasTrace ↔ primaryMap ≠ .metricAttributes := by
    cases primaryMap <;> simp [PrimaryMap.hasTrace]
  unfold gated AllRequired
  rw [htrace, ← htwo]
  simp only [isZero, hstart, hstop, decide_false, Bool.or_false, Bool.not_or, Bool.not_not,
    Bool.and_eq_true, List.any_eq_true, Bool.not_eq_true', decide_eq_false_iff_not, Nat.not_lt]
  constructor
  · intro h
    exact ⟨h.2, h.1.1, h.1.2⟩
  · intro h
    exact ⟨⟨h.2.1, h.2.2⟩, h.1⟩

theorem boundMembers_eval (hstart : start ≠ 0) (hstop : stop ≠ 0)
    (hname : ∀ g ∈ groups, ∀ f ∈ g, ¬ f.AsksForMetricName row.table) (hapart : MembersApart groups)
    (hinside : TraceInside traces row start stop) (hrow : ∀ s, row = .span s → s ∈ traces)
    (hc : boundMembers cfg engine row.table start stop (memberGroups groups) = some c) :
    c.eval engine traces (.row row) = .yes ↔
      (∃ x ∈ memberGroups groups, MemberHolds cfg engine traces x.1 row) ∧
        (row.table.hasTrace → AllRequired groups →
          EveryMemberInTrace cfg engine traces groups row) := by
  have hgated : gated row.table start stop (memberGroups groups) ↔
      row.table.hasTrace ∧ AllRequired groups := gated_iff hstart hstop hapart
  have hunion : (Clause.any ((memberGroups groups).map fun x =>
      boundPart cfg engine row.table start stop x.1)).eval engine traces (.row row) = .yes ↔
      ∃ x ∈ memberGroups groups, MemberHolds cfg engine traces x.1 row := by
    rw [eval_any]
    simp only [List.mem_map, exists_exists_and_eq_and]
    refine exists_congr fun x => and_congr_right fun hx => ?_
    exact boundPart_eval hstart hstop (hname x.1 (memberGroups_fst_ne hx).2.2) hinside hrow
  unfold boundMembers at hc
  by_cases hempty : (memberGroups groups).isEmpty
  · simp [hempty] at hc
  have hne : memberGroups groups ≠ [] := by simpa using hempty
  simp only [hempty, Bool.false_eq_true, if_false] at hc
  by_cases hasked : gated row.table start stop (memberGroups groups)
  · rw [if_pos hasked] at hc
    cases hc
    obtain ⟨htable, hrequired⟩ := hgated.1 hasked
    have hgate : (boundGate cfg engine row.table start stop (memberGroups groups)).eval engine
        traces (.row row) = .yes ↔ EveryMemberInTrace cfg engine traces groups row := by
      cases htrace : row.trace with
      | none =>
        cases row with
        | span s => cases htrace
        | log l => cases htrace
        | metric m => cases htable
      | some id =>
        rw [boundGate_eval row.table hne htrace hinside]
        unfold EveryMemberInTrace
        refine forall_congr' fun x => imp_congr_right fun hx =>
          exists_congr fun y => and_congr_right fun hy => ?_
        rw [groupMemberOf_eq_iff hapart hy hx, htrace]
        refine and_congr_right fun _ => exists_congr fun s => and_congr_right fun _ => ?_
        rw [Option.map_some, Option.some.injEq, eq_comm]
    rw [eval_all]
    simp only [List.mem_cons, List.not_mem_nil, or_false, forall_eq_or_imp, forall_eq]
    rw [hunion, hgate]
    exact and_congr_right fun _ => ⟨fun h _ _ => h, fun h => h htable hrequired⟩
  · rw [if_neg hasked] at hc
    cases hc
    rw [hunion]
    refine ⟨fun h => ⟨h, fun htable hrequired => ?_⟩, fun h => h.1⟩
    exact absurd (hgated.2 ⟨htable, hrequired⟩) hasked

theorem boundGroups_eval (hstart : start ≠ 0) (hstop : stop ≠ 0)
    (hname : ∀ g ∈ groups, ∀ f ∈ g, ¬ f.AsksForMetricName row.table) (hapart : MembersApart groups)
    (hinside : TraceInside traces row start stop) (hrow : ∀ s, row = .span s → s ∈ traces)
    (hc : boundGroups cfg engine row.table groups start stop = some c) :
    c.eval engine traces (.row row) = .yes ↔ Selects cfg engine traces groups row := by
  have hmembers {c : Clause (Arg F)}
      (hc : boundMembers cfg engine row.table start stop (memberGroups groups) = some c) :=
    boundMembers_eval hstart hstop hname hapart hinside hrow hc
  have hsource : (∃ c ∈ (groups.filter isSourceGroup).map (boundGroup cfg engine row.table),
      c.eval engine traces (.row row) = .yes) ↔
      ∃ g ∈ groups, isSourceGroup g ∧ GroupHolds cfg engine g row := by
    simp only [List.mem_map, List.mem_filter, exists_exists_and_eq_and]
    simp only [and_assoc]
    refine exists_congr fun g => and_congr_right fun hg => and_congr_right fun _ => ?_
    exact boundGroup_eval (hname g hg)
  have hnone : boundMembers cfg engine row.table start stop (memberGroups groups) = none →
      ¬ ∃ x ∈ memberGroups groups, MemberHolds cfg engine traces x.1 row := by
    unfold boundMembers
    by_cases hempty : (memberGroups groups).isEmpty
    · intro _ ⟨x, hx, _⟩
      rw [List.isEmpty_iff] at hempty
      rw [hempty] at hx
      exact List.not_mem_nil hx
    · intro h
      simp only [hempty, Bool.false_eq_true, if_false] at h
      split at h <;> cases h
  unfold boundGroups at hc
  unfold Selects
  by_cases hempty : ((groups.filter isSourceGroup).map (boundGroup cfg engine row.table)).isEmpty
  · simp only [hempty, if_true] at hc
    rw [hmembers hc]
    have hno : ¬ ∃ g ∈ groups, isSourceGroup g ∧ GroupHolds cfg engine g row := by
      rw [← hsource, List.isEmpty_iff.1 hempty]
      simp
    simp only [hno, or_false]
  simp only [hempty, Bool.false_eq_true, if_false] at hc
  cases hm : boundMembers cfg engine row.table start stop (memberGroups groups) with
  | none =>
    rw [hm] at hc
    cases hc
    have hno := hnone hm
    rw [eval_any, hsource]
    simp only [hno, false_and, false_or]
  | some clause =>
    rw [hm] at hc
    cases hc
    rw [eval_any]
    simp only [List.mem_cons, exists_eq_or_imp]
    rw [hmembers hm, hsource]

end Meaning

/-! ## The compiled clause -/

/-- The text has one `?` for each argument. -/
def balanced : Compiled F → Bool
  | none => true
  | some (sql, args) => sql.render.toList.count '?' = args.length

/-- The clause with its arguments bound, when they are as many as its placeholders. -/
def bind : Compiled F → Option (Clause (Arg F))
  | none => none
  | some (sql, args) =>
    match sql.fill args with
    | some (c, []) => some c
    | _ => none

def runsOn (table : PrimaryMap) (compiled : Compiled F) : Bool :=
  (bind compiled).any fun c => c.runsIn (.table table)

def satisfies (engine : Engine F) (traces : List Span) (row : Row) (compiled : Compiled F) :
    Bool :=
  (bind compiled).any fun c => c.eval engine traces (.row row) = .yes

theorem bind_emit (c : Clause (Arg F)) : bind (some c.emit) = some c := by
  have hfill := fill_emit c
  show (match c.emit.1.fill c.emit.2 with
    | some (c, []) => some c
    | _ => none) = some c
  rw [hfill]

/-- Where there is something to match, the compiled clause selects the rows the list of
groups stands for. -/
theorem satisfies_attrGroupsClause {traces : List Span} {row : Row}
    {groups : List (List LogAttrFilter)} {start stop : Int} (hstart : start ≠ 0) (hstop : stop ≠ 0)
    (hname : ∀ g ∈ groups, ∀ f ∈ g, ¬ f.AsksForMetricName row.table) (hapart : MembersApart groups)
    (hinside : TraceInside traces row start stop) (hrow : ∀ s, row = .span s → s ∈ traces)
    (hsome : ¬ NothingToMatch groups) :
    satisfies engine traces row (attrGroupsClause cfg engine row.table groups start stop) ↔
      Selects cfg engine traces groups row := by
  rw [attrGroupsClause_eq]
  cases hc : boundGroups cfg engine row.table groups start stop with
  | none => exact absurd (boundGroups_eq_none.1 hc) hsome
  | some c =>
    have heval := boundGroups_eval hstart hstop hname hapart hinside hrow hc
    rw [Option.map_some]
    simpa [satisfies, bind_emit] using heval

/-- The compiled clause has a placeholder for each argument, reads columns its table has,
and selects the rows the list of groups stands for. -/
theorem attrGroupsClause_selects (cfg : EnvironmentConfig) (engine : Engine F) {traces : List Span}
    {row : Row} {groups : List (List LogAttrFilter)} {start stop : Int} (hstart : start ≠ 0)
    (hstop : stop ≠ 0) (hkeys : ∀ g ∈ groups, ∀ f ∈ g, attrKeyRe f.key)
    (hcfg : '?' ∉ (environmentExpr cfg).toList)
    (hname : ∀ g ∈ groups, ∀ f ∈ g, ¬ f.AsksForMetricName row.table) (hapart : MembersApart groups)
    (hinside : TraceInside traces row start stop) (hrow : ∀ s, row = .span s → s ∈ traces) :
    balanced (attrGroupsClause cfg engine row.table groups start stop) ∧
      (attrGroupsClause cfg engine row.table groups start stop = none ↔ NothingToMatch groups) ∧
      (¬ NothingToMatch groups →
        runsOn row.table (attrGroupsClause cfg engine row.table groups start stop) ∧
        (satisfies engine traces row (attrGroupsClause cfg engine row.table groups start stop) ↔
          Selects cfg engine traces groups row)) := by
  have hnone : boundGroups cfg engine row.table groups start stop = none ↔
      NothingToMatch groups := boundGroups_eq_none
  have hclean : ∀ g ∈ groups, ∀ f ∈ g, ¬ f.WritesMark cfg engine :=
    fun g hg f hf => CleanNames.not_writesMark engine ⟨attrKeyRe_clean (hkeys g hg f hf), hcfg⟩
  have hselects : ¬ NothingToMatch groups →
      (satisfies engine traces row (attrGroupsClause cfg engine row.table groups start stop) ↔
        Selects cfg engine traces groups row) :=
    satisfies_attrGroupsClause hstart hstop hname hapart hinside hrow
  rw [attrGroupsClause_eq] at hselects ⊢
  cases hc : boundGroups cfg engine row.table groups start stop with
  | none =>
    have hnothing := hnone.1 hc
    exact ⟨rfl, by simp [hnothing], fun h => absurd hnothing h⟩
  | some c =>
    have hsome : ¬ NothingToMatch groups := by
      intro h
      rw [hnone.2 h] at hc
      cases hc
    have hcount : balanced (some c.emit) := by
      have := count_placeholders ((boundGroups_clean_iff hc).2 hclean)
      simpa [balanced] using this
    have hruns := boundGroups_runsIn hc
    have heval := hselects hsome
    rw [hc, Option.map_some] at heval
    rw [Option.map_some]
    refine ⟨hcount, by simp [hsome], fun _ => ⟨?_, heval⟩⟩
    simpa [runsOn, bind_emit] using hruns

/-! ## Without a window -/

def MatchesRule (cfg : EnvironmentConfig) (engine : Engine F)
    (groups : List (List LogAttrFilter)) (s : Span) : Prop :=
  (∃ x ∈ memberGroups groups, GroupHolds cfg engine x.1 (.span s)) ∨
    ∃ g ∈ groups, isSourceGroup g ∧ GroupHolds cfg engine g (.span s)

theorem boundGroup_eval_span {traces : List Span} (g : List LogAttrFilter) (s : Span) :
    (boundGroup cfg engine .spanAttributes g).eval engine traces (.row (.span s)) = .yes ↔
      GroupHolds cfg engine g (.span s) := by
  have hname : ∀ f ∈ g, ¬ f.AsksForMetricName (Row.span s).table := by
    intro f _ h
    exact PrimaryMap.noConfusion h.1
  exact boundGroup_eval hname

theorem boundMembers_noWindow (ms : List (List LogAttrFilter × Nat)) :
    boundMembers cfg engine .spanAttributes 0 0 ms =
      if ms.isEmpty then none
      else some (.any (ms.map fun x => boundGroup cfg engine .spanAttributes x.1)) := by
  have hgated : gated .spanAttributes 0 0 ms = false := by simp [gated, isZero]
  have hpart : ∀ g, boundPart cfg engine .spanAttributes 0 0 g =
      boundGroup cfg engine .spanAttributes g := by
    intro g
    simp [boundPart, widened, isZero]
  simp only [boundMembers, hgated, hpart, Bool.false_eq_true, if_false]

/-- Without a window the compiled clause drops the gate and the descendants: it selects the
spans that match a rule. -/
theorem attrGroupsClause_noWindow (traces : List Span) (groups : List (List LogAttrFilter))
    (s : Span) :
    (attrGroupsClause cfg engine .spanAttributes groups 0 0 = none ↔ NothingToMatch groups) ∧
    (¬ NothingToMatch groups →
      (satisfies engine traces (.span s) (attrGroupsClause cfg engine .spanAttributes groups 0 0)
        ↔ MatchesRule cfg engine groups s)) := by
  have hnone : boundGroups cfg engine .spanAttributes groups 0 0 = none ↔
      NothingToMatch groups := boundGroups_eq_none
  have hsource : (∃ c ∈ (groups.filter isSourceGroup).map (boundGroup cfg engine .spanAttributes),
      c.eval engine traces (.row (.span s)) = .yes) ↔
      ∃ g ∈ groups, isSourceGroup g ∧ GroupHolds cfg engine g (.span s) := by
    simp only [List.mem_map, List.mem_filter, exists_exists_and_eq_and, boundGroup_eval_span]
    simp only [and_assoc]
  have hmember : (∃ c ∈ (memberGroups groups).map fun x =>
        boundGroup cfg engine .spanAttributes x.1,
      c.eval engine traces (.row (.span s)) = .yes) ↔
      ∃ x ∈ memberGroups groups, GroupHolds cfg engine x.1 (.span s) := by
    simp only [List.mem_map, exists_exists_and_eq_and, boundGroup_eval_span]
  rw [attrGroupsClause_eq]
  refine ⟨by simp [hnone], ?_⟩
  intro hsome
  cases hc : boundGroups cfg engine .spanAttributes groups 0 0 with
  | none => exact absurd (hnone.1 hc) hsome
  | some c =>
    have heval : c.eval engine traces (.row (.span s)) = .yes ↔
        MatchesRule cfg engine groups s := by
      unfold boundGroups at hc
      simp only [boundMembers_noWindow] at hc
      unfold MatchesRule
      rw [← hsource, ← hmember]
      by_cases hsources : ((groups.filter isSourceGroup).map
          (boundGroup cfg engine .spanAttributes)).isEmpty
      · rw [if_pos hsources] at hc
        split at hc
        · cases hc
        · cases hc
          rw [eval_any, List.isEmpty_iff.1 hsources]
          simp
      rw [if_neg hsources] at hc
      by_cases hmembers : (memberGroups groups).isEmpty
      · rw [if_pos hmembers] at hc
        cases hc
        rw [eval_any, List.isEmpty_iff.1 hmembers]
        simp
      rw [if_neg hmembers] at hc
      cases hc
      rw [eval_any]
      simp only [List.mem_cons, exists_eq_or_imp, eval_any]
    rw [Option.map_some]
    simpa [satisfies, bind_emit] using heval

end Bound

/-! ### Two members in one trace -/

private def digit (s : String) : Option Nat :=
  match s.toList with
  | [c] => if c.isDigit then some (c.toNat - '0'.toNat) else none
  | _ => none

private def integers : Engine Nat where
  regex _ _ := false
  parseFloat := digit
  toFloat64OrNull := digit
  compare
    | .gt, x, n => n < x
    | .gte, x, n => n ≤ x
    | .lt, x, n => x < n
    | .lte, x, n => x ≤ n

private def noEnvironment : EnvironmentConfig := ⟨"", []⟩

private def gateway : Span :=
  ⟨5, "t", "1", "", "gateway", "GET", "", [], [("order", "7")]⟩

private def billing : Span := ⟨6, "t", "2", "1", "billing", "charge", "", [], []⟩

private def bothMembers : List (List LogAttrFilter) :=
  [[{ key := "service.name", op := .eq, value := "gateway", requireAllGroups := true,
      member := some 0, descendants := true },
    { key := "order", op := .gt, value := "3", requireAllGroups := true, member := some 0 }],
   [{ key := "service.name", op := .eq, value := "billing", requireAllGroups := true,
      member := some 1 }]]

instance (f : LogAttrFilter) (primaryMap : PrimaryMap) :
    Decidable (f.AsksForMetricName primaryMap) :=
  inferInstanceAs (Decidable (_ ∧ _ ∧ (_ ∨ _)))

instance (traces : List Span) (row : Row) (start stop : Int) :
    Decidable (TraceInside traces row start stop) :=
  inferInstanceAs (Decidable (∀ s ∈ traces, _ → _))

instance (groups : List (List LogAttrFilter)) : Decidable (MembersApart groups) :=
  inferInstanceAs (Decidable (∀ x ∈ memberGroups groups, ∀ y ∈ memberGroups groups, _ → _))

instance (groups : List (List LogAttrFilter)) : Decidable (NothingToMatch groups) :=
  inferInstanceAs (Decidable (∀ g ∈ groups, _))

theorem attrGroupsClause_selects_example :
    balanced (attrGroupsClause noEnvironment integers .spanAttributes bothMembers 1 9) ∧
      Selects noEnvironment integers [gateway, billing] bothMembers (.span billing) := by
  have hrow : ∀ s, Row.span billing = .span s → s ∈ [gateway, billing] := by
    intro s hs
    cases hs
    decide
  have h := @attrGroupsClause_selects Nat noEnvironment integers [gateway, billing]
    (.span billing) bothMembers 1 9 (by decide) (by decide) (by decide +kernel)
    (by decide +kernel) (by decide) (by decide) (by decide) hrow
  exact ⟨h.1, (h.2.2 (by decide)).2.1 (by decide +kernel)⟩

private def queueDepth : MetricPoint := ⟨"gateway", "queue.depth", "", [], [("order", "7")]⟩

/-- Of a metric point, which has no trace, the gate is not asked, so it is selected although
no span of a trace of its own satisfies either member. -/
theorem metric_without_trace_selected :
    ¬ (satisfies integers [] (.metric queueDepth)
        (attrGroupsClause noEnvironment integers .metricAttributes bothMembers 1 9) ↔
      ((∃ x ∈ memberGroups bothMembers,
          MemberHolds noEnvironment integers [] x.1 (.metric queueDepth)) ∧
        (AllRequired bothMembers →
          EveryMemberInTrace noEnvironment integers [] bothMembers (.metric queueDepth))) ∨
      ∃ g ∈ bothMembers, isSourceGroup g ∧
        GroupHolds noEnvironment integers g (.metric queueDepth)) := by
  intro h
  have hselected : satisfies integers [] (.metric queueDepth)
      (attrGroupsClause noEnvironment integers .metricAttributes bothMembers 1 9) := by
    decide +kernel
  have hrequired : AllRequired bothMembers := by
    refine ⟨⟨_, List.mem_cons_self, rfl⟩, _, List.mem_cons_self, _,
      List.mem_cons_of_mem _ List.mem_cons_self, by decide⟩
  cases h.1 hselected with
  | inl hmembers =>
    obtain ⟨_, _, _, s, hs, _⟩ := hmembers.2 hrequired _ List.mem_cons_self
    exact List.not_mem_nil hs
  | inr hsource =>
    obtain ⟨g, hg, hsrc, _⟩ := hsource
    have hnone : ∀ g ∈ bothMembers, ¬ isSourceGroup g := by decide
    exact hnone g hg hsrc

end Sluicio.Store
