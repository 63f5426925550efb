import Sluicio.Integrations.Slices
import Sluicio.Lib.Wildcard

/-!
# Members and sources in one read

`WithSources` joins the members' groups, pinned to the members, and the groups of the
sources.  The rows of a source are those of its services that meet its conditions and, for
metrics, are named by one of its globs.
-/

namespace Sluicio.Integrations

open Store (LogAttrFilter Row Span Engine EnvironmentConfig PrimaryMap isSourceGroup
  groupMemberOf memberGroups memberOrder gated widened attrCond attrGroupsClause boundPart
  boundSubtree boundGate GroupHolds AtOrBelowAnchor spansInWindow traceLinks subtreeDepthCap)
open Tracecompletion (trimSpace)

variable {F : Type}

/-- The engine gives the patterns of literals and runs their meaning. -/
def ReadsPatterns (engine : Engine F) : Prop := Lib.ReadsPatterns isMeta engine.regex

def globAtom (c : Char) : Lib.Atom := if c = '*' then .run else .lit c

theorem globMatches_eq (glob name : List Char) :
    globMatches glob name = Lib.atomsMatch (glob.map globAtom) name := by
  induction glob generalizing name with
  | nil => rfl
  | cons c glob ih =>
    by_cases hstar : c = '*'
    · subst hstar
      show name.tails.any (globMatches glob) = name.tails.any (Lib.atomsMatch (glob.map globAtom))
      exact congrArg _ (funext ih)
    have hlit : globAtom c = .lit c := if_neg hstar
    rw [List.map_cons, hlit]
    cases name with
    | nil =>
      rw [globMatches]
      · rfl
      · exact hstar
    | cons d name =>
      rw [globMatches]
      · rw [ih]
        rfl
      · exact hstar

/-- A character as `quoteMeta` writes it. -/
abbrev quoted (c : Char) : List Char := (Lib.Atom.lit c).text isMeta

theorem toList_quoteMeta_eq (s : String) :
    (quoteMeta s).toList = Lib.atomsText isMeta (s.toList.map .lit) := by
  rw [toList_quoteMeta]
  unfold Lib.atomsText
  rw [List.flatMap_map]
  rfl

theorem quoted_head (cs rest : List Char) : cs.flatMap quoted ≠ '*' :: rest := by
  cases cs with
  | nil => exact (List.cons_ne_nil _ _).symm
  | cons c cs =>
    show (if isMeta c then ['\\', c] else [c]) ++ cs.flatMap quoted ≠ _
    by_cases hc : isMeta c
    · rw [if_pos hc]
      intro h
      exact absurd (List.cons.inj h).1 (by decide)
    rw [if_neg hc]
    intro h
    obtain rfl : c = '*' := (List.cons.inj h).1
    exact hc (by decide)

theorem starRuns_cons {c : Char} {cs : List Char} (h : ∀ rest, c = '\\' → cs ≠ '*' :: rest) :
    starRuns (c :: cs) = c :: starRuns cs := by
  rw [starRuns]
  intro rest hslash hrest
  exact h rest hslash hrest

theorem starRuns_quoted (glob : List Char) :
    starRuns (glob.flatMap quoted) = Lib.atomsText isMeta (glob.map globAtom) := by
  induction glob with
  | nil => rfl
  | cons c glob ih =>
    by_cases hstar : c = '*'
    · subst hstar
      show '.' :: '*' :: starRuns (glob.flatMap quoted) = _
      rw [ih]
      rfl
    have hlit : globAtom c = .lit c := if_neg hstar
    have hafter : starRuns (c :: glob.flatMap quoted) =
        c :: Lib.atomsText isMeta (glob.map globAtom) := by
      rw [starRuns_cons fun rest _ => quoted_head glob rest, ih]
    have htext : Lib.atomsText isMeta ((c :: glob).map globAtom) =
        quoted c ++ Lib.atomsText isMeta (glob.map globAtom) := by
      rw [List.map_cons, hlit]
      rfl
    rw [htext]
    show starRuns ((if isMeta c then ['\\', c] else [c]) ++ glob.flatMap quoted) =
      (if isMeta c then ['\\', c] else [c]) ++ _
    by_cases hc : isMeta c
    · rw [if_pos hc]
      show starRuns ('\\' :: c :: glob.flatMap quoted) = '\\' :: c :: _
      rw [starRuns_cons fun rest _ h => hstar (List.cons.inj h).1, hafter]
      rfl
    · rw [if_neg hc]
      exact hafter

theorem anyOf_eq (svcs : List String) :
    (anyOf svcs).value = Lib.patternText isMeta (svcs.map fun s => s.toList.map .lit) :=
  Lib.patternText_eq isMeta toList_quoteMeta_eq svcs

theorem globsToRegex_eq (globs : List String) :
    globsToRegex globs =
      Lib.patternText isMeta (globs.map fun g => (trimSpace g).toList.map globAtom) := by
  refine Lib.patternText_eq isMeta (fun g => ?_) globs
  rw [String.toList_ofList, toList_quoteMeta]
  exact starRuns_quoted (trimSpace g).toList

section Patterns

variable {engine : Engine F}

theorem namesExactly_of_readsPatterns (h : ReadsPatterns engine) : NamesExactly engine := by
  intro svcs hsvcs name
  have hne : (svcs.map fun s => s.toList.map Lib.Atom.lit) ≠ [] := by simpa using hsvcs
  rw [anyOf_eq, h _ hne]
  simp only [List.mem_map, exists_exists_and_eq_and, Lib.atomsMatch_lits, String.toList_inj,
    exists_eq_right']

theorem regex_globsToRegex (h : ReadsPatterns engine) {globs : List String} (hglobs : globs ≠ [])
    (name : String) : engine.regex name (globsToRegex globs) ↔
      ∃ g ∈ globs, globMatches (trimSpace g).toList name.toList := by
  have hne : (globs.map fun g => (trimSpace g).toList.map globAtom) ≠ [] := by simpa using hglobs
  rw [globsToRegex_eq, h _ hne]
  simp only [List.mem_map, exists_exists_and_eq_and, globMatches_eq]

end Patterns

/-! ## What a source accepts -/

def SourceSignal.table : SourceSignal → PrimaryMap
  | .metrics => .metricAttributes
  | .logs => .logAttributes

/-- The row is of one of the source's services, meets its conditions and, if it is a metric
point, has a name that one of the source's globs matches, when there are any. -/
structure ResolvedSource.Accepts (cfg : EnvironmentConfig) (engine : Engine F)
    (signal : SourceSignal) (source : ResolvedSource) (row : Row) : Prop where
  ofService : row.serviceName ∈ source.services
  conditions : ∀ c ∈ source.conditions,
    (attrCond cfg engine row.table (sourceConditionFilter c)).eval engine row = .yes
  metricName : signal = .metrics → source.metricNames ≠ [] →
    ∃ g ∈ source.metricNames,
      globMatches (trimSpace g).toList (row.column .metricName).toList

section Sources

variable {cfg : EnvironmentConfig} {engine : Engine F} {signal : SourceSignal} {row : Row}

theorem meets_asSource (g : List LogAttrFilter) :
    Meets cfg engine (g.map fun f => { f with source := true }) row ↔ Meets cfg engine g row := by
  unfold Meets
  rw [List.forall_mem_map]
  rfl

theorem meets_metricNameFilters (hreads : ReadsPatterns engine) (htable : row.table = signal.table)
    (source : ResolvedSource) :
    Meets cfg engine (metricNameFilters signal source) row ↔
      (signal = .metrics → source.metricNames ≠ [] →
        ∃ g ∈ source.metricNames,
          globMatches (trimSpace g).toList (row.column .metricName).toList) := by
  unfold metricNameFilters
  by_cases hasked : signal = .metrics ∧ source.metricNames ≠ []
  · have hmetric : row.table = .metricAttributes := by
      rw [htable, hasked.1]
      rfl
    have hvalue : Store.attrValue cfg Store.metricNameAttrKey row = row.column .metricName := by
      unfold Store.attrValue
      rw [if_neg (by decide), if_pos ⟨rfl, hmetric⟩]
    rw [if_pos hasked, meets_singleton, Store.attrCond_eval cfg engine]
    · show engine.regex (Store.attrValue cfg Store.metricNameAttrKey row)
        (globsToRegex source.metricNames) ↔ _
      rw [hvalue, regex_globsToRegex hreads hasked.2]
      exact ⟨fun h _ _ => h, fun h => h hasked.1 hasked.2⟩
    · rintro ⟨_, _, hop | hop⟩
      · cases hop
      · cases hop
  · rw [if_neg hasked]
    exact iff_of_true (fun f hf => absurd hf List.not_mem_nil)
      fun hmetrics hnames => absurd ⟨hmetrics, hnames⟩ hasked

theorem meets_sourceGroup (hreads : ReadsPatterns engine) (htable : row.table = signal.table)
    {source : ResolvedSource} (hservices : source.services ≠ []) :
    Meets cfg engine (sourceGroup signal source) row ↔ source.Accepts cfg engine signal row := by
  have hcons : anyOf source.services :: source.conditions.map sourceConditionFilter ++
      metricNameFilters signal source =
      [anyOf source.services] ++ (source.conditions.map sourceConditionFilter ++
        metricNameFilters signal source) := rfl
  unfold sourceGroup
  rw [meets_asSource, hcons, meets_append, meets_append, meets_singleton,
    anyOf_yes (namesExactly_of_readsPatterns hreads) hservices rfl rfl rfl,
    meets_metricNameFilters hreads htable]
  constructor
  · intro h
    refine ⟨h.1, fun c hc => ?_, h.2.2⟩
    exact h.2.1 _ (List.mem_map_of_mem hc)
  · intro h
    refine ⟨h.ofService, fun f hf => ?_, h.metricName⟩
    obtain ⟨c, hc, rfl⟩ := List.mem_map.1 hf
    exact h.conditions c hc

end Sources

/-! ## What the members' groups accept, by the spans that count -/

def BelowCounted (cfg : EnvironmentConfig) (engine : Engine F) (spans : List Span)
    (counts : Span → Prop) (g : List LogAttrFilter) (row : Row) : Prop :=
  ∃ traceId spanId, row.trace = some (traceId, spanId) ∧
    ∃ a ∈ spans, a.traceId = traceId ∧ counts a ∧ Meets cfg engine g (.span a) ∧
      Lib.Below (traceLinks spans traceId) subtreeDepthCap a.spanId spanId

def EveryMemberCounted (cfg : EnvironmentConfig) (engine : Engine F) (spans : List Span)
    (counts : Span → Prop) (ms : List (List LogAttrFilter × Nat)) (row : Row) : Prop :=
  ∃ traceId spanId, row.trace = some (traceId, spanId) ∧
    ∀ x ∈ ms, ∃ y ∈ ms, groupMemberOf y.1 y.2 = groupMemberOf x.1 x.2 ∧
      ∃ s ∈ spans, s.traceId = traceId ∧ counts s ∧ Meets cfg engine y.1 (.span s)

/-- Some group has the row, by its own filters where these are asked of it or below a span that
counts, and the trace has every member where they are all required. -/
def AcceptedBy (cfg : EnvironmentConfig) (engine : Engine F) (traces : List Span)
    (start stop : Int) (own : Prop) (counts : Span → Prop)
    (ms : List (List LogAttrFilter × Nat)) (row : Row) : Prop :=
  (∃ x ∈ ms, own ∧ Meets cfg engine x.1 row ∨
      widened row.table start stop x.1 ∧
        BelowCounted cfg engine (spansInWindow traces start stop) counts x.1 row) ∧
    (gated row.table start stop ms →
      EveryMemberCounted cfg engine (spansInWindow traces start stop) counts ms row)

section Accepted

variable {cfg : EnvironmentConfig} {engine : Engine F} {traces : List Span} {start stop : Int}
  {own own' : Prop} {counts counts' : Span → Prop} {ms : List (List LogAttrFilter × Nat)}
  {row : Row}

theorem AcceptedBy.mono (hown : own → own') (hcounts : ∀ s, counts s → counts' s)
    (h : AcceptedBy cfg engine traces start stop own counts ms row) :
    AcceptedBy cfg engine traces start stop own' counts' ms row := by
  constructor
  · obtain ⟨x, hx, hrow | ⟨hwidened, traceId, spanId, hrow, a, ha, hid, hcount, hbelow⟩⟩ := h.1
    · exact ⟨x, hx, .inl ⟨hown hrow.1, hrow.2⟩⟩
    · exact ⟨x, hx, .inr ⟨hwidened, traceId, spanId, hrow, a, ha, hid, hcounts a hcount, hbelow⟩⟩
  · intro hgated
    obtain ⟨traceId, spanId, hrow, hall⟩ := h.2 hgated
    refine ⟨traceId, spanId, hrow, fun x hx => ?_⟩
    obtain ⟨y, hy, hsame, s, hs, hid, hcount, hmeets⟩ := hall x hx
    exact ⟨y, hy, hsame, s, hs, hid, hcounts s hcount, hmeets⟩

theorem meets_span {g : List LogAttrFilter} {s : Span} :
    Meets cfg engine g (.span s) ↔ GroupHolds cfg engine g (.span s) := by
  have hmeets := @boundOnSpans_yes F cfg engine g [] s .spanAttributes
  exact hmeets.symm.trans (Store.boundOnSpans_eval .spanAttributes g s)

theorem atOrBelowAnchor_iff {spans : List Span} {g : List LogAttrFilter} :
    AtOrBelowAnchor cfg engine spans g row ↔
      BelowCounted cfg engine spans (fun _ => True) g row := by
  unfold AtOrBelowAnchor BelowCounted
  simp only [meets_span, true_and]

theorem boundPart_iff (htable : row.table ≠ .spanAttributes) (g : List LogAttrFilter) :
    (boundPart cfg engine row.table start stop g).eval engine traces (.row row) = .yes ↔
      Meets cfg engine g row ∨ widened row.table start stop g ∧
        BelowCounted cfg engine (spansInWindow traces start stop) (fun _ => True) g row := by
  have hbelow : (boundSubtree cfg engine row.table start stop g).eval engine traces
      (.row row) = .yes ↔
      BelowCounted cfg engine (spansInWindow traces start stop) (fun _ => True) g row :=
    (Store.boundSubtree_window row.table g).trans atOrBelowAnchor_iff
  unfold boundPart
  by_cases hwidened : widened row.table start stop g = true
  · rw [if_pos hwidened, if_neg htable, Store.Clause.eval_any]
    simp only [List.mem_cons, List.not_mem_nil, or_false, exists_eq_or_imp, exists_eq_left,
      boundGroup_yes, hbelow, hwidened, true_and]
  · rw [if_neg hwidened, boundGroup_yes]
    exact (or_iff_left fun h => hwidened h.1).symm

theorem boundGate_iff (hgated : gated row.table start stop ms) :
    (boundGate cfg engine row.table start stop ms).eval engine traces (.row row) = .yes ↔
      EveryMemberCounted cfg engine (spansInWindow traces start stop) (fun _ => True) ms row := by
  have hne : ms ≠ [] := by
    rintro rfl
    simp [gated] at hgated
  unfold EveryMemberCounted
  cases hrow : row.trace with
  | none =>
    rw [boundGate, Store.Clause.eval, Store.Truth.ofBool_eq_yes, hrow]
    simp
  | some id =>
    obtain ⟨traceId, spanId⟩ := id
    rw [Store.boundGate_window row.table hne hrow]
    simp only [meets_span, true_and]
    constructor
    · intro h
      exact ⟨traceId, spanId, rfl, h⟩
    · rintro ⟨_, _, hid, h⟩
      cases hid
      exact h

theorem byMembers_iff (htable : row.table ≠ .spanAttributes) :
    ByMembers cfg engine traces ms start stop row ↔
      AcceptedBy cfg engine traces start stop True (fun _ => True) ms row := by
  unfold ByMembers AcceptedBy
  refine and_congr (exists_congr fun x => and_congr_right fun _ => ?_)
    (imp_congr_right fun hgated => boundGate_iff hgated)
  rw [boundPart_iff htable, true_and]

end Accepted

/-! ## The pinned groups -/

section Pinned

variable {cfg : EnvironmentConfig} {engine : Engine F} {traces : List Span} {start stop : Int}
  {members : List String} {groups : List (List LogAttrFilter)} {row : Row}

theorem any_requireAllGroups_pinned (g : List LogAttrFilter) :
    (pinned members g).any LogAttrFilter.requireAllGroups =
      g.any LogAttrFilter.requireAllGroups := by
  cases g with
  | nil => rfl
  | cons f fs =>
    show ((f :: fs) ++ [{ anyOf members with
      requireAllGroups := f.requireAllGroups, member := f.member }]).any _ = _
    rw [List.any_append, List.any_cons]
    cases f.requireAllGroups <;> simp

theorem groupMemberOf_pinned (g : List LogAttrFilter) (index : Nat) :
    groupMemberOf (pinned members g) index = groupMemberOf g index := by
  have hmember : (pinned members g).findSome? LogAttrFilter.member =
      g.findSome? LogAttrFilter.member := by
    cases g with
    | nil => rfl
    | cons f fs =>
      show ((f :: fs) ++ [{ anyOf members with
        requireAllGroups := f.requireAllGroups, member := f.member }]).findSome? _ = _
      rw [List.findSome?_append]
      cases hf : f.member with
      | some m => simp [hf]
      | none => simp [hf]
  unfold groupMemberOf
  rw [hmember]

/-- A numbered group, pinned. -/
def pin (members : List String) (x : List LogAttrFilter × Nat) : List LogAttrFilter × Nat :=
  (pinned members x.1, x.2)

theorem widened_pinned (table : PrimaryMap) (g : List LogAttrFilter) :
    widened table start stop (pinned members g) = widened table start stop g := by
  unfold widened
  rw [any_descendants_pinned]

theorem gated_pinned (table : PrimaryMap) (ms : List (List LogAttrFilter × Nat)) :
    gated table start stop (ms.map (pin members)) = gated table start stop ms := by
  have horder : memberOrder (ms.map (pin members)) = memberOrder ms := by
    unfold memberOrder
    rw [List.map_map]
    refine congrArg List.eraseDups (List.map_congr_left fun x _ => ?_)
    exact groupMemberOf_pinned x.1 x.2
  have hany : (ms.map (pin members)).any (fun x => x.1.any LogAttrFilter.requireAllGroups) =
      ms.any fun x => x.1.any LogAttrFilter.requireAllGroups := by
    rw [List.any_map]
    exact congrArg ms.any (funext fun x => any_requireAllGroups_pinned x.1)
  unfold gated
  rw [horder, hany]

theorem acceptedBy_pinned (hnames : NamesExactly engine) (hmembers : members ≠ [])
    (ms : List (List LogAttrFilter × Nat)) :
    AcceptedBy cfg engine traces start stop True (fun _ => True) (ms.map (pin members)) row ↔
      AcceptedBy cfg engine traces start stop (row.serviceName ∈ members)
        (fun s => s.serviceName ∈ members) ms row := by
  have hspan (g : List LogAttrFilter) (s : Span) :
      Meets cfg engine (pinned members g) (.span s) ↔
        s.serviceName ∈ members ∧ Meets cfg engine g (.span s) :=
    (meets_pinned hnames hmembers g).trans and_comm
  have hbelow (spans : List Span) (g : List LogAttrFilter) :
      BelowCounted cfg engine spans (fun _ => True) (pinned members g) row ↔
        BelowCounted cfg engine spans (fun s => s.serviceName ∈ members) g row := by
    unfold BelowCounted
    simp only [hspan, true_and, and_assoc]
  have hmember (spans : List Span) :
      EveryMemberCounted cfg engine spans (fun _ => True) (ms.map (pin members)) row ↔
        EveryMemberCounted cfg engine spans (fun s => s.serviceName ∈ members) ms row := by
    unfold EveryMemberCounted
    simp only [List.mem_map, exists_exists_and_eq_and, forall_exists_index, and_imp,
      forall_apply_eq_imp_iff₂]
    simp only [pin, hspan, groupMemberOf_pinned, true_and]
  unfold AcceptedBy
  rw [gated_pinned, hmember]
  refine and_congr_left' ?_
  simp only [List.mem_map, exists_exists_and_eq_and]
  refine exists_congr fun x => and_congr_right fun _ => ?_
  unfold pin
  rw [widened_pinned, hbelow, true_and, meets_pinned hnames hmembers, and_comm]

def OfMatchers (groups : List (List LogAttrFilter)) : Prop :=
  ∀ g ∈ groups, g ≠ [] ∧ isSourceGroup g = false

instance (groups : List (List LogAttrFilter)) : Decidable (OfMatchers groups) :=
  inferInstanceAs (Decidable (∀ g ∈ groups, _ ∧ _))

theorem OfMatchers.memberGroups_eq (h : OfMatchers groups) :
    memberGroups groups = groups.zipIdx := by
  have hall : (groups.filter fun g => !isSourceGroup g) = groups := by
    rw [List.filter_eq_self]
    intro g hg
    rw [(h g hg).2]
    rfl
  unfold memberGroups
  rw [hall, List.filter_eq_self]
  intro x hx
  have hne := (h x.1 (List.fst_mem_of_mem_zipIdx hx)).1
  simpa using hne

theorem OfMatchers.pinned (h : OfMatchers groups) : OfMatchers (groups.map (pinned members)) := by
  intro g hg
  obtain ⟨g₀, hg₀, rfl⟩ := List.mem_map.1 hg
  constructor
  · cases g₀ with
    | nil => exact absurd rfl (h _ hg₀).1
    | cons f fs => exact List.cons_ne_nil _ _
  · rw [isSourceGroup_pinned]
    exact (h g₀ hg₀).2

/-- Beside sources the members' predicate accepts a member's rows by the groups' own filters,
and counts members' spans. -/
theorem byPinned_iff (hnames : NamesExactly engine) (hgroups : OfMatchers groups)
    (htable : row.table ≠ .spanAttributes) :
    ByPinned cfg engine traces members groups [] start stop row ↔
      groups = [] ∧ row.serviceName ∈ members ∨
        AcceptedBy cfg engine traces start stop (row.serviceName ∈ members)
          (fun s => s.serviceName ∈ members) groups.zipIdx row := by
  have hid : narrowedGroup [] = id := funext fun g => if_pos rfl
  unfold ByPinned
  rw [hid, List.map_id]
  unfold pinnedGroups
  by_cases hmembers : members = []
  · -- without members there are no groups, and no span counts
    subst hmembers
    rw [if_pos rfl]
    constructor
    · rintro ⟨⟨x, hx, _⟩, _⟩
      cases hx
    · rintro (⟨_, hmem⟩ | ⟨⟨x, _, ⟨hmem, _⟩ | ⟨_, _, _, _, a, _, _, hmem, _⟩⟩, _⟩)
      · cases hmem
      · cases hmem
      · cases hmem
  · rw [if_neg hmembers]
    by_cases hnone : groups = []
    · subst hnone
      rw [if_pos rfl, byMembers_single (List.cons_ne_nil _ _) rfl rfl, meets_singleton,
        anyOf_yes hnames hmembers rfl rfl rfl]
      constructor
      · exact fun hmem => .inl ⟨rfl, hmem⟩
      · rintro (⟨_, hmem⟩ | ⟨⟨x, hx, _⟩, _⟩)
        · exact hmem
        · cases hx
    · have hzip : (groups.map (Integrations.pinned members)).zipIdx =
          groups.zipIdx.map (pin members) := List.zipIdx_map
      rw [if_neg hnone, hgroups.pinned.memberGroups_eq, hzip, byMembers_iff htable,
        acceptedBy_pinned hnames hmembers]
      exact (or_iff_right fun h => hnone h.1).symm

end Pinned

/-! ## The two halves -/

section Halves

variable (cfg : EnvironmentConfig) (engine : Engine F) (traces : List Span) (start stop : Int)
  (members : List String) (groups : List (List LogAttrFilter)) (sources : List ResolvedSource)
  (signal : SourceSignal) (row : Row)

def ByMemberGroups : Prop :=
  row.serviceName ∈ members ∧
    matched engine traces row (attrGroupsClause cfg engine row.table groups start stop)

def BySomeSource : Prop := ∃ source ∈ sources, source.Accepts cfg engine signal row

/-- No other service's spans decide for the row: what the members' groups accept of a member they
accept by members' spans, and nothing of a source's service is below a member's anchor.  Without
sources, and for a row that a source accepts, nothing is asked. -/
def HalvesApart : Prop :=
  sources = [] ∨ BySomeSource cfg engine sources signal row ∨
    if row.serviceName ∈ members then
      AcceptedBy cfg engine traces start stop True (fun _ => True) groups.zipIdx row →
        AcceptedBy cfg engine traces start stop True (fun s => s.serviceName ∈ members)
          groups.zipIdx row
    else
      (∃ source ∈ sources, row.serviceName ∈ source.services) →
        ¬ AcceptedBy cfg engine traces start stop False (fun s => s.serviceName ∈ members)
          groups.zipIdx row

end Halves

section Selects

variable {cfg : EnvironmentConfig} {engine : Engine F} {traces : List Span} {start stop : Int}
  {members : List String} {groups : List (List LogAttrFilter)} {sources : List ResolvedSource}
  {signal : SourceSignal} {row : Row}

theorem SourceSignal.table_ne (signal : SourceSignal) : signal.table ≠ .spanAttributes := by
  cases signal
  · exact fun h => PrimaryMap.noConfusion h
  · exact fun h => PrimaryMap.noConfusion h

theorem matched_groups_iff (hgroups : OfMatchers groups) (htable : row.table ≠ .spanAttributes) :
    matched engine traces row (attrGroupsClause cfg engine row.table groups start stop) ↔
      groups = [] ∨
        AcceptedBy cfg engine traces start stop True (fun _ => True) groups.zipIdx row := by
  have hnothing : Store.NothingToMatch groups ↔ groups = [] := by
    constructor
    · intro hnothing
      rw [List.eq_nil_iff_forall_not_mem]
      exact fun g hg => (hgroups g hg).1 (hnothing g hg)
    · rintro rfl
      exact fun g hg => absurd hg List.not_mem_nil
  have hsource : ¬ ∃ g ∈ groups.filter isSourceGroup, Meets cfg engine g row := by
    rintro ⟨g, hg, _⟩
    obtain ⟨hmem, hsource⟩ := List.mem_filter.1 hg
    rw [(hgroups g hmem).2] at hsource
    cases hsource
  rw [matched_iff, hnothing, hgroups.memberGroups_eq, byMembers_iff htable, or_iff_left hsource]

/-- What a read beside sources selects: what a source accepts, or of the services that are read
what the pinned groups accept. -/
theorem selected_withSources_iff (hreads : ReadsPatterns engine) (hgroups : OfMatchers groups)
    (hservices : ∀ source ∈ sources, source.services ≠ []) (htable : row.table = signal.table)
    (hsources : sources ≠ []) :
    Selected cfg engine traces start stop (withSources members groups sources signal) row ↔
      BySomeSource cfg engine sources signal row ∨
        (row.serviceName ∈ members ∨ ∃ source ∈ sources, row.serviceName ∈ source.services) ∧
          (groups = [] ∧ row.serviceName ∈ members ∨
            AcceptedBy cfg engine traces start stop (row.serviceName ∈ members)
              (fun s => s.serviceName ∈ members) groups.zipIdx row) := by
  have hnames : NamesExactly engine := namesExactly_of_readsPatterns hreads
  have hspans : row.table ≠ .spanAttributes := by
    rw [htable]
    exact signal.table_ne
  have hscope : withSources members groups sources signal =
      sliceScope members groups sources signal [] := rfl
  have hbySource : BySource cfg engine sources signal [] row ↔
      BySomeSource cfg engine sources signal row := by
    unfold BySource BySomeSource
    refine exists_congr fun source => and_congr_right fun hmem => ?_
    rw [meets_sourceGroup hreads htable (hservices source hmem)]
    exact and_iff_left (inEnvironments_nil row)
  rw [hscope, selected_iff (fun g hg => by rw [(hgroups g hg).2]; decide) hsources, hbySource,
    byPinned_iff hnames hgroups hspans]
  constructor
  · rintro ⟨hservice, hmember | hsource⟩
    · exact .inr ⟨hservice, hmember⟩
    · exact .inl hsource
  · rintro (hsource | ⟨hservice, hmember⟩)
    · obtain ⟨source, hmem, haccepts⟩ := id hsource
      exact ⟨.inr ⟨source, hmem, haccepts.ofService⟩, .inr hsource⟩
    · exact ⟨hservice, .inl hmember⟩

theorem selected_member_iff (hreads : ReadsPatterns engine) (hgroups : OfMatchers groups)
    (hservices : ∀ source ∈ sources, source.services ≠ []) (htable : row.table = signal.table)
    (hsources : sources ≠ []) (hnone : ¬ BySomeSource cfg engine sources signal row)
    (hmember : row.serviceName ∈ members) :
    Selected cfg engine traces start stop (withSources members groups sources signal) row ↔
      groups = [] ∨
        AcceptedBy cfg engine traces start stop True (fun s => s.serviceName ∈ members)
          groups.zipIdx row := by
  rw [selected_withSources_iff hreads hgroups hservices htable hsources, or_iff_right hnone,
    and_iff_right (.inl hmember), and_iff_left hmember]
  simp only [hmember]

theorem selected_other_iff (hreads : ReadsPatterns engine) (hgroups : OfMatchers groups)
    (hservices : ∀ source ∈ sources, source.services ≠ []) (htable : row.table = signal.table)
    (hsources : sources ≠ []) (hnone : ¬ BySomeSource cfg engine sources signal row)
    (hother : row.serviceName ∉ members) :
    Selected cfg engine traces start stop (withSources members groups sources signal) row ↔
      (∃ source ∈ sources, row.serviceName ∈ source.services) ∧
        AcceptedBy cfg engine traces start stop False (fun s => s.serviceName ∈ members)
          groups.zipIdx row := by
  rw [selected_withSources_iff hreads hgroups hservices htable hsources, or_iff_right hnone,
    or_iff_right hother, or_iff_right fun h => hother h.2]
  simp only [hother]

/-- **The rows that a read of members and sources selects are those of the two halves just where
the halves are apart.** -/
theorem withSources_selects_iff (hreads : ReadsPatterns engine) (hgroups : OfMatchers groups)
    (hservices : ∀ source ∈ sources, source.services ≠ []) (htable : row.table = signal.table) :
    (Selected cfg engine traces start stop (withSources members groups sources signal) row ↔
        ByMemberGroups cfg engine traces start stop members groups row ∨
          BySomeSource cfg engine sources signal row) ↔
      HalvesApart cfg engine traces start stop members groups sources signal row := by
  unfold HalvesApart
  by_cases hsources : sources = []
  · subst hsources
    have hnone : ¬ BySomeSource cfg engine [] signal row := by
      rintro ⟨source, hmem, _⟩
      cases hmem
    refine iff_of_true ?_ (.inl rfl)
    rw [or_iff_left hnone]
    exact Iff.rfl
  by_cases hsome : BySomeSource cfg engine sources signal row
  · refine iff_of_true ?_ (.inr (.inl hsome))
    rw [selected_withSources_iff hreads hgroups hservices htable hsources]
    exact iff_of_true (.inl hsome) (.inr hsome)
  rw [or_iff_right hsources, or_iff_right hsome, or_iff_left hsome]
  by_cases hmember : row.serviceName ∈ members
  · have hspans : row.table ≠ .spanAttributes := by
      rw [htable]
      exact signal.table_ne
    have hcounted : AcceptedBy cfg engine traces start stop True (fun s => s.serviceName ∈ members)
        groups.zipIdx row →
        AcceptedBy cfg engine traces start stop True (fun _ => True) groups.zipIdx row :=
      AcceptedBy.mono id fun _ _ => trivial
    rw [if_pos hmember, selected_member_iff hreads hgroups hservices htable hsources hsome hmember]
    unfold ByMemberGroups
    rw [and_iff_right hmember, matched_groups_iff hgroups hspans]
    constructor
    · intro h haccepted
      rcases h.2 (.inr haccepted) with rfl | hcounts
      · obtain ⟨x, hx, _⟩ := haccepted.1
        cases hx
      · exact hcounts
    · intro h
      exact or_congr_right ⟨hcounted, h⟩
  · rw [if_neg hmember,
      selected_other_iff hreads hgroups hservices htable hsources hsome hmember]
    have hnot : ¬ ByMemberGroups cfg engine traces start stop members groups row :=
      fun h => hmember h.1
    rw [iff_false_intro hnot, iff_false, not_and]

end Selects

/-! ### A broker's log below an order -/

private def alternativesOnly : Engine Nat where
  regex := Lib.matchesPattern
  parseFloat _ := none
  toFloat64OrNull _ := none
  compare _ _ _ := false

private theorem alternativesOnly_reads : ReadsPatterns alternativesOnly :=
  Lib.readsPatterns_matchesPattern ⟨by decide, by decide, by decide⟩

private def plainEnvironments : EnvironmentConfig := ⟨"", []⟩

private def ordersFlow : List (List LogAttrFilter) :=
  [[{ key := "flow", op := .eq, value := "x", descendants := true }]]

private def brokerQueue : ResolvedSource :=
  ⟨["broker"], [⟨"queue", .text .equals, "orders"⟩], []⟩

private def order : Span := ⟨5, "t", "1", "", "orders-api", "POST", "", [("flow", "x")], []⟩

private def publish : Span := ⟨6, "t", "2", "1", "broker", "publish", "", [], []⟩

private def invoicesLog : Store.LogRecord :=
  ⟨"t", "2", "broker", "", [], [("queue", "invoices")]⟩

private def queueGauge : Store.MetricPoint := ⟨"broker", "queue.depth", "", [], []⟩

theorem withSources_selects_iff_metric :
    (Selected plainEnvironments alternativesOnly [order, publish] 1 9
        (withSources ["orders-api"] ordersFlow [⟨["broker"], [], ["queue.*"]⟩] .metrics)
        (.metric queueGauge) ↔
      ByMemberGroups plainEnvironments alternativesOnly [order, publish] 1 9 ["orders-api"]
          ordersFlow (.metric queueGauge) ∨
        BySomeSource plainEnvironments alternativesOnly [⟨["broker"], [], ["queue.*"]⟩] .metrics
          (.metric queueGauge)) ↔
      HalvesApart plainEnvironments alternativesOnly [order, publish] 1 9 ["orders-api"] ordersFlow
        [⟨["broker"], [], ["queue.*"]⟩] .metrics (.metric queueGauge) :=
  withSources_selects_iff alternativesOnly_reads (by decide) (by decide) rfl

/-- The broker's log about another queue is selected for the order above it, although the broker
is no member and the source asks for the queue of the orders. -/
theorem brokers_log_selected_below_order :
    ¬ (Selected plainEnvironments alternativesOnly [order, publish] 1 9
        (withSources ["orders-api"] ordersFlow [brokerQueue] .logs) (.log invoicesLog) ↔
      ByMemberGroups plainEnvironments alternativesOnly [order, publish] 1 9 ["orders-api"]
          ordersFlow (.log invoicesLog) ∨
        BySomeSource plainEnvironments alternativesOnly [brokerQueue] .logs
          (.log invoicesLog)) := by
  intro h
  have hselected : Selected plainEnvironments alternativesOnly [order, publish] 1 9
      (withSources ["orders-api"] ordersFlow [brokerQueue] .logs) (.log invoicesLog) := by
    constructor
    · decide +kernel
    · decide +kernel
  rcases h.1 hselected with ⟨hmember, _⟩ | ⟨source, hmem, haccepts⟩
  · exact absurd hmember (by decide)
  · obtain rfl := List.mem_singleton.1 hmem
    have hqueue := haccepts.conditions _ List.mem_cons_self
    exact absurd hqueue (by decide +kernel)

end Sluicio.Integrations
