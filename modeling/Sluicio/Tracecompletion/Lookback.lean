import Sluicio.Tracecompletion.Windowed

/-!
# How far back the scan has to look

The clock of a hop starts when the hop before it is done, so the time at which a hop is
overdue is a sum over the hops before it.  The lookback of a rule is bounded by its longest
timeout alone.
-/

namespace Sluicio.Tracecompletion

open Alerting

/-- The first time a span of the kind occurs. -/
def firstOf (p : Span → Bool) (rows : List Span) : Int :=
  minTime ((rows.filter p).map Span.timestamp)

theorem minTime_eq {t : Int} {ts : List Int} (hmem : t ∈ ts) (hle : ∀ u ∈ ts, t ≤ u) :
    minTime ts = t := by
  have hmin : ts.min? = some t := List.min?_eq_some_iff.2 ⟨hmem, hle⟩
  cases ts with
  | nil => cases hmem
  | cons u us => exact Option.some.inj hmin

theorem minTime_le {t : Int} {ts : List Int} (h : t ∈ ts) : minTime ts ≤ t ∧ minTime ts ∈ ts := by
  cases ts with
  | nil => cases h
  | cons u us =>
    have hmin : (u :: us).min? = some (minTime (u :: us)) := rfl
    obtain ⟨hmem, hle⟩ := List.min?_eq_some_iff.1 hmin
    exact ⟨hle t h, hmem⟩

variable {p : Span → Bool} {rows : List Span}

theorem firstOf_le {sp : Span} (hsp : sp ∈ rows) (hp : p sp) : firstOf p rows ≤ sp.timestamp :=
  (minTime_le (List.mem_map_of_mem (List.mem_filter.2 ⟨hsp, hp⟩))).1

theorem exists_firstOf (h : rows.any p) : ∃ sp ∈ rows, p sp ∧ sp.timestamp = firstOf p rows := by
  obtain ⟨sp, hsp, hp⟩ := List.any_eq_true.1 h
  have hmem := (minTime_le (List.mem_map_of_mem (f := Span.timestamp)
    (List.mem_filter.2 ⟨hsp, hp⟩))).2
  obtain ⟨sp', hsp', htime⟩ := List.mem_map.1 hmem
  exact ⟨sp', (List.mem_filter.1 hsp').1, (List.mem_filter.1 hsp').2, htime⟩

def EffectiveStage.named (st : EffectiveStage) (sp : Span) : Bool := sp.spanName ∈ st.spanNames

/-- The span starts the first clock: the start span of a gated rule, else any span. -/
def RuleSpec.opens (spec : RuleSpec) (sp : Span) : Bool :=
  !spec.gated || sp.spanName = spec.startSpanName

def RuleSpec.reads (spec : RuleSpec) (sp : Span) : Bool :=
  spec.opens sp || spec.effectiveStages.any fun st => st.named sp

/-- The spans of a trace that the scan can reach: those of the integration's services. -/
def traceRows (services : List String) (traceID : TraceID) (spans : List Span) : List Span :=
  (ofTrace traceID spans).filter fun sp => sp.serviceName ∈ services

/-- The time from which the clock of the hop after `earlier` runs. -/
def hopClock (rows : List Span) : Int → List EffectiveStage → Int
  | clock, [] => clock
  | _, st :: rest => hopClock rows (firstOf st.named rows) rest

/-- Each of the hops is done, no later than its timeout after its clock started. -/
def InTime (rows : List Span) : Int → List EffectiveStage → Prop
  | _, [] => True
  | clock, st :: rest =>
    rows.any st.named ∧ firstOf st.named rows ≤ clock + st.timeoutSeconds * second ∧
      InTime rows (firstOf st.named rows) rest

instance decidableInTime (rows : List Span) :
    ∀ (clock : Int) (stages : List EffectiveStage), Decidable (InTime rows clock stages)
  | _, [] => isTrue trivial
  | clock, st :: rest =>
    have := decidableInTime rows (firstOf st.named rows) rest
    inferInstanceAs (Decidable (rows.any st.named ∧
      firstOf st.named rows ≤ clock + st.timeoutSeconds * second ∧
        InTime rows (firstOf st.named rows) rest))

/-- The time by which the hop after `earlier` has to be done. -/
def deadline (spec : RuleSpec) (rows : List Span) (earlier : List EffectiveStage)
    (hop : EffectiveStage) : Int :=
  hopClock rows (firstOf spec.opens rows) earlier + hop.timeoutSeconds * second

/-- A trace walks the earlier hops in time, and the next is not done by its deadline. -/
structure Overdue (spec : RuleSpec) (rows : List Span) (earlier : List EffectiveStage)
    (hop : EffectiveStage) : Prop where
  opened : rows.any spec.opens
  inTime : InTime rows (firstOf spec.opens rows) earlier
  late : ∀ sp ∈ rows, hop.named sp → deadline spec rows earlier hop < sp.timestamp

/-- The first time at which the hop can be seen to be overdue: its deadline, once the spans
of the earlier hops are there. -/
def breachAt (spec : RuleSpec) (rows : List Span) (earlier : List EffectiveStage)
    (hop : EffectiveStage) : Int :=
  (firstOf spec.opens rows :: earlier.map fun st => firstOf st.named rows).foldl max
    (deadline spec rows earlier hop)

/-- The trace is inside the window of an evaluation: so are all of its spans that the rule
reads. -/
def Inside (spec : RuleSpec) (rows : List Span) (now : Int) : Prop :=
  now - spec.lookbackSeconds * second ≤ firstOf spec.reads rows

/-- The evaluation at `now` reports the trace delayed at a stage. -/
def ReportedAt (spec : RuleSpec) (services : List String) (spans : List Span)
    (traceID : TraceID) (stage : Nat) (now : Int) : Prop :=
  ∃ c ∈ scanDelayed spec services now (now - spec.lookbackSeconds * second) now spans,
    c.traceID = traceID ∧ c.delayedStage = stage

/-- When the hop can first be seen to be overdue, it is: its clock runs, neither its span nor
one of the final stage is there, and the lookback still reaches the trace's first span. -/
structure TimeToBreach (spec : RuleSpec) (rows : List Span) (earlier : List EffectiveStage)
    (hop : EffectiveStage) : Prop where
  running : clockSet (hopClock rows (firstOf spec.opens rows) earlier)
  undone : ∀ sp ∈ rows, hop.named sp → breachAt spec rows earlier hop < sp.timestamp
  unfinished : ∀ st ∈ spec.effectiveStages.getLast?, ∀ sp ∈ rows, st.named sp →
    breachAt spec rows earlier hop < sp.timestamp
  inWindow : breachAt spec rows earlier hop ≤
    firstOf spec.reads rows + spec.lookbackSeconds * second

/-! ## Delayed at a hop -/

/-- The loop of `classify` ends delayed at the stage. -/
def DelayedAt (stage : Nat) (c : Option TraceClassification) : Prop :=
  ∃ c', c = some c' ∧ c'.state = .delayed ∧ c'.delayedStage = stage

theorem delayedAt_getD {stage : Nat} {c : Option TraceClassification}
    {default : TraceClassification} (hdefault : default.state ≠ .delayed) :
    ((c.getD default).state = .delayed ∧ (c.getD default).delayedStage = stage) ↔
      DelayedAt stage c := by
  cases c with
  | none => simp [DelayedAt, hdefault]
  | some c => simp [DelayedAt]

/-- What the loop is given of a stage. -/
def seenOf (rows : List Span) (st : EffectiveStage) : EffectiveStage × Bool × Int :=
  (st, rows.any st.named, firstOf st.named rows)

theorem zip_seen (spec : RuleSpec) (traceID : TraceID) (rows : List Span) :
    spec.effectiveStages.zip ((aggregate spec traceID rows).hasStage.zip
        (aggregate spec traceID rows).stageAt) =
      spec.effectiveStages.map (seenOf rows) := by
  show spec.effectiveStages.zip ((spec.effectiveStages.map _).zip (spec.effectiveStages.map _)) = _
  rw [List.zip_map', ← List.map_prod_left_eq_zip]
  rfl

/-- The loop ends delayed at a hop when it has seen the hops before it and not the hop, and
the hop's clock has run out. -/
theorem delayedAt_classifyFrom (a : TraceAgg) (now : Int) (rows : List Span)
    (earlier later : List EffectiveStage) (hop : EffectiveStage) (i : Nat) (clock : Int) :
    DelayedAt (i + earlier.length + 1)
        (classifyFrom a now i clock ((earlier ++ hop :: later).map (seenOf rows))) ↔
      (∀ st ∈ earlier, rows.any st.named) ∧ rows.any hop.named = false ∧
        clockSet (hopClock rows clock earlier) ∧
        hopClock rows clock earlier ≤ now - hop.timeoutSeconds * second := by
  induction earlier generalizing i clock with
  | nil =>
    simp only [List.nil_append, List.map_cons, seenOf, classifyFrom, hopClock,
      List.length_nil, Nat.add_zero]
    cases hseen : rows.any hop.named with
    | true =>
      -- the loop goes on, and stops at a later stage if it stops
      rw [if_pos rfl]
      constructor
      · intro h
        obtain ⟨c, hc, _, hstage⟩ := h
        obtain ⟨_, j, _, _, _, hj⟩ := classifyFrom_stage hc
        omega
      · intro h
        exact absurd h.2.1 (by decide)
    | false =>
      rw [if_neg (by decide)]
      constructor
      · intro h
        obtain ⟨c, hc, hstate, _⟩ := h
        obtain rfl := Option.some.inj hc
        dsimp only at hstate
        split at hstate
        · next hrun =>
          have hrun := Bool.and_eq_true_iff.1 hrun
          exact ⟨fun st hst => absurd hst List.not_mem_nil, rfl, hrun.1,
            of_decide_eq_true hrun.2⟩
        · cases hstate
      · intro h
        refine ⟨_, rfl, if_pos ?_, rfl⟩
        rw [h.2.2.1, Bool.true_and]
        exact decide_eq_true h.2.2.2
  | cons st rest ih =>
    rw [List.cons_append, List.map_cons, List.forall_mem_cons, List.length_cons]
    show DelayedAt _ (if rows.any st.named then _ else _) ↔ _
    cases hseen : rows.any st.named with
    | true =>
      rw [if_pos rfl, show i + (rest.length + 1) + 1 = i + 1 + rest.length + 1 by omega,
        ih (i + 1) (firstOf st.named rows), hopClock, eq_self_iff_true, true_and]
    | false =>
      rw [if_neg (by decide)]
      constructor
      · intro h
        obtain ⟨c, hc, _, hstage⟩ := h
        obtain rfl := Option.some.inj hc
        dsimp only at hstage
        omega
      · intro h
        exact absurd h.1.1 (by decide)

variable {spec : RuleSpec}

theorem opens_of_gated (h : spec.gated) :
    spec.opens = fun sp => decide (sp.spanName ∈ [spec.startSpanName]) := by
  funext sp
  simp [RuleSpec.opens, h]

theorem opens_of_ungated (h : spec.gated = false) : spec.opens = fun _ => true := by
  funext sp
  simp [RuleSpec.opens, h]

theorem stageBaseline_aggregate (spec : RuleSpec) (traceID : TraceID) (rows : List Span) :
    stageBaseline spec (aggregate spec traceID rows) = firstOf spec.opens rows := by
  cases hgated : spec.gated with
  | true => simp [stageBaseline, aggregate, hgated, firstOf, timesOf, opens_of_gated]
  | false => simp [stageBaseline, aggregate, hgated, firstOf, opens_of_ungated]

theorem getLast?_hasStage (spec : RuleSpec) (traceID : TraceID) (rows : List Span) :
    ((aggregate spec traceID rows).hasStage.getLast?.getD false) ↔
      ∃ st ∈ spec.effectiveStages.getLast?, rows.any st.named := by
  show (((spec.effectiveStages.map _).getLast?).getD false = true) ↔ _
  rw [List.getLast?_map]
  cases spec.effectiveStages.getLast? with
  | none => simp
  | some st => simp [EffectiveStage.named, hasSpan]

/-- **When a scanned trace is delayed at a hop**: the scan has seen the hops before it, but
neither the hop nor the final stage, and the hop's clock has run out. -/
theorem classify_aggregate {traceID : TraceID} {rows : List Span} {now : Int}
    {earlier later : List EffectiveStage} {hop : EffectiveStage}
    (hstages : spec.effectiveStages = earlier ++ hop :: later) :
    (classify spec (aggregate spec traceID rows) now).state = .delayed ∧
        (classify spec (aggregate spec traceID rows) now).delayedStage = earlier.length + 1 ↔
      (∀ st ∈ earlier, rows.any st.named) ∧ rows.any hop.named = false ∧
        (∀ st ∈ spec.effectiveStages.getLast?, rows.any st.named = false) ∧
        clockSet (hopClock rows (firstOf spec.opens rows) earlier) ∧
        hopClock rows (firstOf spec.opens rows) earlier ≤ now - hop.timeoutSeconds * second := by
  have hne : spec.effectiveStages ≠ [] := by
    rw [hstages]
    simp
  have hloop := delayedAt_classifyFrom (aggregate spec traceID rows) now rows earlier later hop 0
    (firstOf spec.opens rows)
  rw [← hstages, ← zip_seen spec traceID, Nat.zero_add] at hloop
  unfold classify
  dsimp only
  rw [if_neg hne, stageBaseline_aggregate]
  by_cases hlast : (aggregate spec traceID rows).hasStage.getLast?.getD false = true
  · rw [if_pos hlast]
    obtain ⟨st, hst, hseen⟩ := (getLast?_hasStage spec traceID rows).1 hlast
    constructor
    · intro h
      cases h.1
    · intro h
      exact absurd (hseen.symm.trans (h.2.2.1 st hst)) (by decide)
  · rw [if_neg hlast]
    have hunseen : ∀ st ∈ spec.effectiveStages.getLast?, rows.any st.named = false := by
      intro st hst
      rw [← Bool.not_eq_true]
      intro hseen
      exact hlast ((getLast?_hasStage spec traceID rows).2 ⟨st, hst, hseen⟩)
    rw [delayedAt_getD, hloop]
    · constructor
      · intro h
        exact ⟨h.1, h.2.1, hunseen, h.2.2⟩
      · intro h
        exact ⟨h.1, h.2.1, h.2.2.2⟩
    · intro h
      cases h

/-! ## The window -/

section Window

variable {spec : RuleSpec} {services : List String} {spans : List Span} {traceID : TraceID}
  {now : Int}

def windowed (since now : Int) (rows : List Span) : List Span :=
  rows.filter fun sp => since ≤ sp.timestamp && sp.timestamp ≤ now

theorem ofTrace_scanned (since : Int) :
    ofTrace traceID (scanned services since now spans) =
      windowed since now (traceRows services traceID spans) := by
  unfold windowed ofTrace scanned traceRows ofTrace
  rw [List.filter_filter, List.filter_filter, List.filter_filter]
  apply List.filter_congr
  intro sp _
  rw [Bool.and_comm, Bool.and_assoc, Bool.and_assoc]

theorem any_opens_iff {rows : List Span} :
    rows.any spec.opens ↔
      rows ≠ [] ∧ (!spec.gated || (aggregate spec traceID rows).hasStart) := by
  cases hgated : spec.gated with
  | true =>
    simp only [opens_of_gated hgated, aggregate, hasSpan, hgated, Bool.not_true,
      Bool.false_or, Bool.true_and]
    constructor
    · intro h
      refine ⟨?_, h⟩
      intro hnil
      rw [hnil] at h
      cases h
    · intro h
      exact h.2
  | false =>
    cases rows with
    | nil => simp
    | cons sp rest => simp [opens_of_ungated hgated]

theorem mem_scanTraces {since : Int} {a : TraceAgg} :
    a ∈ scanTraces spec services since now spans ↔
      (ofTrace a.traceID (scanned services since now spans)).any spec.opens ∧
        a = aggregate spec a.traceID (ofTrace a.traceID (scanned services since now spans)) := by
  unfold scanTraces
  rw [List.mem_filter, List.mem_map]
  constructor
  · intro h
    obtain ⟨⟨t, ht, rfl⟩, hgate⟩ := h
    obtain ⟨sp, hsp, hspan⟩ := List.mem_map.1 (List.mem_dedup.1 ht)
    have hmem : sp ∈ ofTrace t (scanned services since now spans) :=
      List.mem_filter.2 ⟨hsp, decide_eq_true hspan⟩
    exact ⟨any_opens_iff.2 ⟨List.ne_nil_of_mem hmem, hgate⟩, rfl⟩
  · intro h
    obtain ⟨hopens, ha⟩ := h
    obtain ⟨sp, hsp, _⟩ := List.any_eq_true.1 hopens
    obtain ⟨hrow, hspan⟩ := List.mem_filter.1 hsp
    have ht : a.traceID ∈ ((scanned services since now spans).map Span.traceID).dedup :=
      List.mem_dedup.2 (List.mem_map.2 ⟨sp, hrow, of_decide_eq_true hspan⟩)
    refine ⟨⟨a.traceID, ht, ha.symm⟩, ?_⟩
    rw [ha]
    exact (any_opens_iff.1 hopens).2

theorem classify_traceID (spec : RuleSpec) (a : TraceAgg) (now : Int) :
    (classify spec a now).traceID = a.traceID := by
  unfold classify
  dsimp only
  split
  · rfl
  split
  · rfl
  cases hloop : classifyFrom a now 0 (stageBaseline spec a)
      (spec.effectiveStages.zip (a.hasStage.zip a.stageAt)) with
  | none => rfl
  | some c => exact (classifyFrom_stage hloop).1

theorem reportedAt_iff {stage : Nat} {rows : List Span} (hrows : rows = ofTrace traceID
      (scanned services (now - spec.lookbackSeconds * second) now spans)) :
    ReportedAt spec services spans traceID stage now ↔
      rows.any spec.opens ∧ (classify spec (aggregate spec traceID rows) now).state = .delayed ∧
        (classify spec (aggregate spec traceID rows) now).delayedStage = stage := by
  unfold ReportedAt scanDelayed
  constructor
  · intro h
    obtain ⟨c, hc, htrace, hstage⟩ := h
    obtain ⟨hmem, hdelayed⟩ := List.mem_filter.1 hc
    obtain ⟨a, ha, rfl⟩ := List.mem_map.1 hmem
    rw [classify_traceID] at htrace
    obtain ⟨hopens, ha⟩ := mem_scanTraces.1 ha
    rw [htrace, ← hrows] at hopens ha
    rw [← ha]
    exact ⟨hopens, of_decide_eq_true hdelayed, hstage⟩
  · intro h
    have ha : aggregate spec traceID rows ∈
        scanTraces spec services (now - spec.lookbackSeconds * second) now spans := by
      rw [mem_scanTraces]
      show (ofTrace traceID _).any spec.opens = true ∧
        aggregate spec traceID rows = aggregate spec traceID (ofTrace traceID _)
      rw [← hrows]
      exact ⟨h.1, rfl⟩
    refine ⟨classify spec (aggregate spec traceID rows) now,
      List.mem_filter.2 ⟨List.mem_map_of_mem ha, decide_eq_true h.2.1⟩, ?_, h.2.2⟩
    rw [classify_traceID]
    rfl

end Window

/-! ## While the trace is inside -/

section Inside

variable {spec : RuleSpec} {rows : List Span} {since now : Int} {p : Span → Bool}

theorem mem_windowed {sp : Span} :
    sp ∈ windowed since now rows ↔ sp ∈ rows ∧ since ≤ sp.timestamp ∧ sp.timestamp ≤ now := by
  simp [windowed, List.mem_filter]

theorem any_windowed (hin : since ≤ firstOf spec.reads rows) (hp : ∀ sp, p sp → spec.reads sp) :
    (windowed since now rows).any p ↔ ∃ sp ∈ rows, p sp ∧ sp.timestamp ≤ now := by
  rw [List.any_eq_true]
  constructor
  · intro h
    obtain ⟨sp, hsp, hpsp⟩ := h
    exact ⟨sp, (mem_windowed.1 hsp).1, hpsp, (mem_windowed.1 hsp).2.2⟩
  · intro h
    obtain ⟨sp, hsp, hpsp, harrived⟩ := h
    have hfirst := firstOf_le hsp (hp sp hpsp)
    exact ⟨sp, mem_windowed.2 ⟨hsp, by omega, harrived⟩, hpsp⟩

theorem any_windowed_iff_le (hin : since ≤ firstOf spec.reads rows)
    (hp : ∀ sp, p sp → spec.reads sp) (hany : rows.any p) :
    (windowed since now rows).any p ↔ firstOf p rows ≤ now := by
  rw [any_windowed hin hp]
  constructor
  · intro h
    obtain ⟨sp, hsp, hpsp, harrived⟩ := h
    have hfirst := firstOf_le hsp hpsp
    omega
  · intro h
    obtain ⟨sp, hsp, hpsp, htime⟩ := exists_firstOf hany
    exact ⟨sp, hsp, hpsp, by omega⟩

theorem firstOf_windowed (hin : since ≤ firstOf spec.reads rows) (hp : ∀ sp, p sp → spec.reads sp)
    (hany : (windowed since now rows).any p) :
    firstOf p (windowed since now rows) = firstOf p rows := by
  obtain ⟨sp, hsp, hpsp⟩ := List.any_eq_true.1 hany
  have hrows : rows.any p := List.any_eq_true.2 ⟨sp, (mem_windowed.1 hsp).1, hpsp⟩
  have hle := (any_windowed_iff_le hin hp hrows).1 hany
  obtain ⟨first, hfirst, hpfirst, htime⟩ := exists_firstOf hrows
  have hreads := firstOf_le hfirst (hp first hpfirst)
  apply minTime_eq
  · rw [← htime]
    have hmem : first ∈ windowed since now rows :=
      mem_windowed.2 ⟨hfirst, by omega, by omega⟩
    exact List.mem_map_of_mem (List.mem_filter.2 ⟨hmem, hpfirst⟩)
  · intro t ht
    obtain ⟨sp', hsp', rfl⟩ := List.mem_map.1 ht
    obtain ⟨hmem, hpsp'⟩ := List.mem_filter.1 hsp'
    exact firstOf_le (mem_windowed.1 hmem).1 hpsp'

theorem reads_of_opens (sp : Span) (h : spec.opens sp) : spec.reads sp := by
  rw [RuleSpec.reads, h]
  rfl

theorem reads_of_named {st : EffectiveStage} (hst : st ∈ spec.effectiveStages) (sp : Span)
    (h : st.named sp) : spec.reads sp := by
  rw [RuleSpec.reads, List.any_eq_true.2 ⟨st, hst, h⟩, Bool.or_true]

theorem any_windowed_eq_false (hin : since ≤ firstOf spec.reads rows)
    (hp : ∀ sp, p sp → spec.reads sp) :
    (windowed since now rows).any p = false ↔ ∀ sp ∈ rows, p sp → now < sp.timestamp := by
  rw [← Bool.not_eq_true, any_windowed hin hp]
  constructor
  · intro h sp hsp hpsp
    by_contra harrived
    exact h ⟨sp, hsp, hpsp, by omega⟩
  · intro h harrived
    obtain ⟨sp, hsp, hpsp, hle⟩ := harrived
    have hlate := h sp hsp hpsp
    omega

variable {clock : Int} {stages : List EffectiveStage}

theorem hopClock_congr {rows rows' : List Span}
    (h : ∀ st ∈ stages, firstOf st.named rows = firstOf st.named rows') :
    hopClock rows clock stages = hopClock rows' clock stages := by
  induction stages generalizing clock with
  | nil => rfl
  | cons st rest ih =>
    rw [hopClock, hopClock, h st List.mem_cons_self]
    exact ih fun st' hst' => h st' (List.mem_cons_of_mem _ hst')

theorem any_of_inTime (h : InTime rows clock stages) : ∀ st ∈ stages, rows.any st.named := by
  induction stages generalizing clock with
  | nil =>
    intro st hst
    cases hst
  | cons st rest ih =>
    intro st' hst'
    rcases List.mem_cons.1 hst' with rfl | hrest
    · exact h.1
    · exact ih h.2.2 st' hrest

theorem foldl_max_le {t now : Int} {ts : List Int} :
    ts.foldl max t ≤ now ↔ t ≤ now ∧ ∀ u ∈ ts, u ≤ now := by
  induction ts generalizing t with
  | nil => simp
  | cons u us ih =>
    rw [List.foldl_cons, ih, List.forall_mem_cons, max_le_iff, and_assoc]

/-- An evaluation can see the hop overdue when its deadline is past and the spans that open
the trace and end the earlier hops are there. -/
theorem breachAt_le {earlier : List EffectiveStage} {hop : EffectiveStage} :
    breachAt spec rows earlier hop ≤ now ↔
      deadline spec rows earlier hop ≤ now ∧ firstOf spec.opens rows ≤ now ∧
        ∀ st ∈ earlier, firstOf st.named rows ≤ now := by
  rw [breachAt, foldl_max_le, List.forall_mem_cons, List.forall_mem_map]

end Inside

/-! ## Lookback sufficiency -/

section Sufficiency

variable {spec : RuleSpec} {services : List String} {spans : List Span} {traceID : TraceID}
  {now : Int} {earlier later : List EffectiveStage} {hop : EffectiveStage}

/-- While the trace is inside the window, an evaluation reports the hop when it can see it
overdue and neither the hop nor the final stage has arrived. -/
theorem reportedAt_iff_of_inside (hstages : spec.effectiveStages = earlier ++ hop :: later)
    (hover : Overdue spec (traceRows services traceID spans) earlier hop)
    (hin : Inside spec (traceRows services traceID spans) now) :
    ReportedAt spec services spans traceID (earlier.length + 1) now ↔
      breachAt spec (traceRows services traceID spans) earlier hop ≤ now ∧
        clockSet (hopClock (traceRows services traceID spans)
          (firstOf spec.opens (traceRows services traceID spans)) earlier) ∧
        (∀ sp ∈ traceRows services traceID spans, hop.named sp → now < sp.timestamp) ∧
        ∀ st ∈ spec.effectiveStages.getLast?, ∀ sp ∈ traceRows services traceID spans,
          st.named sp → now < sp.timestamp := by
  rw [reportedAt_iff (ofTrace_scanned _).symm, classify_aggregate hstages, breachAt_le]
  unfold Inside at hin
  generalize traceRows services traceID spans = rows at hover hin ⊢
  generalize now - spec.lookbackSeconds * second = since at hin ⊢
  have hmem : ∀ st ∈ earlier, st ∈ spec.effectiveStages := by
    intro st hst
    rw [hstages]
    exact List.mem_append_left _ hst
  have hhop : hop ∈ spec.effectiveStages := by
    rw [hstages]
    exact List.mem_append_right _ List.mem_cons_self
  have hopens : (windowed since now rows).any spec.opens ↔ firstOf spec.opens rows ≤ now :=
    any_windowed_iff_le hin reads_of_opens hover.opened
  have hearlier : ∀ st ∈ earlier,
      ((windowed since now rows).any st.named ↔ firstOf st.named rows ≤ now) := by
    intro st hst
    exact any_windowed_iff_le hin (reads_of_named (hmem st hst)) (any_of_inTime hover.inTime st hst)
  have hclock : firstOf spec.opens rows ≤ now → (∀ st ∈ earlier, firstOf st.named rows ≤ now) →
      hopClock (windowed since now rows) (firstOf spec.opens (windowed since now rows)) earlier =
        hopClock rows (firstOf spec.opens rows) earlier := by
    intro hopened hdone
    rw [firstOf_windowed hin reads_of_opens (hopens.2 hopened)]
    apply hopClock_congr
    intro st hst
    exact firstOf_windowed hin (reads_of_named (hmem st hst)) ((hearlier st hst).2 (hdone st hst))
  have hlast : ∀ st ∈ spec.effectiveStages.getLast?, st ∈ spec.effectiveStages := by
    intro st hst
    exact List.mem_of_getLast? hst
  constructor
  · intro h
    obtain ⟨hopened, hdone, hundone, hunfinished, hrunning, hpast⟩ := h
    have hopened := hopens.1 hopened
    have hdone : ∀ st ∈ earlier, firstOf st.named rows ≤ now := by
      intro st hst
      exact (hearlier st hst).1 (hdone st hst)
    rw [hclock hopened hdone] at hrunning hpast
    refine ⟨⟨?_, hopened, hdone⟩, hrunning, ?_, ?_⟩
    · unfold deadline
      omega
    · exact (any_windowed_eq_false hin (reads_of_named hhop)).1 hundone
    · intro st hst
      exact (any_windowed_eq_false hin (reads_of_named (hlast st hst))).1 (hunfinished st hst)
  · intro h
    obtain ⟨⟨hpast, hopened, hdone⟩, hrunning, hundone, hunfinished⟩ := h
    unfold deadline at hpast
    rw [hclock hopened hdone]
    refine ⟨hopens.2 hopened, ?_, ?_, ?_, hrunning, by omega⟩
    · intro st hst
      exact (hearlier st hst).2 (hdone st hst)
    · exact (any_windowed_eq_false hin (reads_of_named hhop)).2 hundone
    · intro st hst
      exact (any_windowed_eq_false hin (reads_of_named (hlast st hst))).2 (hunfinished st hst)

/-- **Lookback sufficiency.**  Of a trace that walks the earlier hops in time and not the
next, an evaluation reports the hop, with the trace inside its window, exactly when the hop
has time to breach: when it can first be seen to be overdue, neither its span nor one of the
final stage is there, and the trace's first span is no further back than the lookback. -/
theorem overdue_hop_reported_iff (spec : RuleSpec) (services : List String) (spans : List Span)
    (traceID : TraceID) (earlier later : List EffectiveStage) (hop : EffectiveStage)
    (hstages : spec.effectiveStages = earlier ++ hop :: later)
    (hover : Overdue spec (traceRows services traceID spans) earlier hop) :
    (∃ now, Inside spec (traceRows services traceID spans) now ∧
        ReportedAt spec services spans traceID (earlier.length + 1) now) ↔
      TimeToBreach spec (traceRows services traceID spans) earlier hop := by
  constructor
  · intro h
    obtain ⟨now, hin, hreported⟩ := h
    obtain ⟨hbreach, hrunning, hundone, hunfinished⟩ :=
      (reportedAt_iff_of_inside hstages hover hin).1 hreported
    constructor
    · exact hrunning
    · intro sp hsp hnamed
      have harrives := hundone sp hsp hnamed
      omega
    · intro st hst sp hsp hnamed
      have harrives := hunfinished st hst sp hsp hnamed
      omega
    · unfold Inside at hin
      omega
  · intro h
    have hin : Inside spec (traceRows services traceID spans)
        (breachAt spec (traceRows services traceID spans) earlier hop) := by
      have hwindow := h.inWindow
      unfold Inside
      omega
    refine ⟨_, hin, (reportedAt_iff_of_inside hstages hover hin).2 ?_⟩
    exact ⟨le_refl _, h.running, h.undone, h.unfinished⟩

end Sufficiency

/-! An order is picked and packed just in time and never shipped. -/

private def shipping (lookback : Int) : RuleSpec :=
  { startSpanName := "placed", lookbackSeconds := lookback
    stages := [⟨["picked"], 60⟩, ⟨["packed"], 60⟩, ⟨["shipped"], 60⟩] }

private def shirts : TraceID := ⟨"4bf92f35", by decide +kernel⟩

private def orderSpans : List Span :=
  [⟨shirts, "placed", "shop", 1000 * second⟩, ⟨shirts, "picked", "shop", 1060 * second⟩,
    ⟨shirts, "packed", "shop", 1120 * second⟩]

private def toPacked : List EffectiveStage := [⟨["picked"], 60⟩, ⟨["packed"], 60⟩]

private def shipped : EffectiveStage := ⟨["shipped"], 60⟩

private theorem shipping_overdue :
    Overdue (shipping 120) (traceRows ["shop"] shirts orderSpans) toPacked shipped where
  opened := by decide +kernel
  inTime := by decide +kernel
  late := by decide +kernel

private theorem longShipping_overdue :
    Overdue (shipping 180) (traceRows ["shop"] shirts orderSpans) toPacked shipped where
  opened := by decide +kernel
  inTime := by decide +kernel
  late := by decide +kernel

theorem shipped_reported_iff :
    (∃ now, Inside (shipping 180) (traceRows ["shop"] shirts orderSpans) now ∧
        ReportedAt (shipping 180) ["shop"] orderSpans shirts 3 now) ↔
      TimeToBreach (shipping 180) (traceRows ["shop"] shirts orderSpans) toPacked shipped :=
  overdue_hop_reported_iff (shipping 180) ["shop"] orderSpans shirts toPacked [] shipped
    (by decide +kernel) longShipping_overdue

/-- The rule is accepted with a lookback of twice its longest timeout, and no evaluation
reports the order that is never shipped: it leaves the window 60 seconds too early. -/
theorem shipped_never_reported :
    (shipping 120).validate = none ∧
      (shipping 120).effectiveStages = toPacked ++ shipped :: [] ∧
      Overdue (shipping 120) (traceRows ["shop"] shirts orderSpans) toPacked shipped ∧
      ∀ now, ¬ ReportedAt (shipping 120) ["shop"] orderSpans shirts 3 now := by
  have hstages : (shipping 120).effectiveStages = toPacked ++ shipped :: [] := by decide +kernel
  refine ⟨by decide +kernel, hstages, shipping_overdue, ?_⟩
  intro now hreported
  have hrows : traceRows ["shop"] shirts orderSpans = orderSpans := by decide +kernel
  rw [reportedAt_iff (ofTrace_scanned _).symm, show 3 = toPacked.length + 1 from rfl,
    classify_aggregate hstages, hrows] at hreported
  obtain ⟨hopened, hdone, _, _, _, hpast⟩ := hreported
  obtain ⟨placed, hplaced, hopens⟩ := List.any_eq_true.1 hopened
  obtain ⟨packed, hpacked, hnamed, hfirst⟩ :=
    exists_firstOf (hdone ⟨["packed"], 60⟩ (by decide))
  have hplacedAt : ∀ sp ∈ orderSpans, (shipping 120).opens sp → sp.timestamp = 1000 * second := by
    decide +kernel
  have hpackedAt : ∀ sp ∈ orderSpans, EffectiveStage.named ⟨["packed"], 60⟩ sp →
      sp.timestamp = 1120 * second := by
    decide +kernel
  have hopenedAt := hplacedAt placed (mem_windowed.1 hplaced).1 hopens
  have hinside : now - 120 * second ≤ placed.timestamp := (mem_windowed.1 hplaced).2.1
  have hdoneAt := hpackedAt packed (mem_windowed.1 hpacked).1 hnamed
  have hoverdue : packed.timestamp ≤ now - 60 * second := by
    rw [hfirst]
    exact hpast
  have hsecond : (0 : Int) < second := by decide
  omega

end Sluicio.Tracecompletion
