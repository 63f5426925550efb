import Mathlib.Data.Finset.Card
import Sluicio.Store.SliceStatement

/-!
# The traffic of many slices

`SliceTraceStats` reads the slices of a list in batches, one statement each, and returns a row of
statistics by the slices' keys.  What a key is given is what its slice would be given alone.  A
slice's open errors are counted by traces: a span in error counts unless the watermark of its
service, cleared inside the window, is not before it.
-/

namespace Sluicio.Store

variable {F : Type}

/-- A row of the `traces` table, with its status. -/
structure TraceRow where
  span : Span
  statusCode : String

/-- `StatusCode = 'Error'`. -/
def TraceRow.isError (r : TraceRow) : Bool := r.statusCode = "Error"

structure SliceStat where
  traces : Nat := 0
  errorTraces : Nat := 0
  openErrorTraces : Nat := 0
  lastErrorAt : Int := 0
  lastErrorService : String := ""
  sampleTraceID : String := ""

/-- A row of the result: `k`, `env` when the query splits by environment, and the columns of the
statistics. -/
structure ResultRow where
  key : String
  env : Option String
  stat : SliceStat

/-! ## The statement's meaning -/

/-- `… = ?`. -/
def Arg.isText (a : Arg F) (s : String) : Bool :=
  match a with
  | .text t => s = t
  | _ => false

/-- `Timestamp <= ?`. -/
def Arg.notBefore (a : Arg F) (t : Int) : Bool :=
  match a with
  | .time w => t ≤ w
  | _ => false

/-- `uniqExact(TraceId)`. -/
def uniqExactTraces (rows : List TraceRow) : Nat :=
  (rows.map fun r => r.span.traceId).toFinset.card

def openError (exclusions : List (Arg F × Arg F)) (r : TraceRow) : Bool :=
  r.isError && exclusions.all fun x =>
    !(x.1.isText r.span.serviceName && x.2.notBefore r.span.timestamp)

namespace Branch

def selects (engine : Engine F) (spans : List Span) (b : Branch (Arg F)) (r : TraceRow) : Bool :=
  within b.start b.stop r.span && (b.services.any fun a => a.isText r.span.serviceName) &&
    (!b.errorsOnly || r.isError) &&
    b.clause.all fun c => c.eval engine spans (.row (.span r.span)) = .yes

/-- The SELECT of the branch, over the rows of a group.  `argMax` says which of the rows with the
newest time the database keeps. -/
def stat (argMax : List TraceRow → Option TraceRow) (b : Branch (Arg F)) (rows : List TraceRow) :
    SliceStat where
  traces := if b.errorsOnly then 0 else uniqExactTraces rows
  errorTraces := uniqExactTraces (rows.filter TraceRow.isError)
  openErrorTraces := uniqExactTraces (rows.filter (openError b.counted))
  lastErrorAt := (((rows.filter (openError b.newestAt)).map fun r => r.span.timestamp).max?).getD 0
  lastErrorService :=
    ((argMax (rows.filter (openError b.newestService))).map fun r => r.span.serviceName).getD ""
  sampleTraceID :=
    ((argMax (rows.filter (openError b.sample))).map fun r => r.span.traceId).getD ""

def rows (engine : Engine F) (argMax : List TraceRow → Option TraceRow) (table : List TraceRow)
    (b : Branch (Arg F)) : List ResultRow :=
  let selected := table.filter (b.selects engine (table.map TraceRow.span))
  let key := match b.key with
    | .text k => k
    | _ => ""
  match b.env with
  | none => [⟨key, none, b.stat argMax selected⟩]
  | some cfg =>
    (selected.map fun r => environmentOf cfg (.span r.span)).dedup.map fun env =>
      ⟨key, some env,
        b.stat argMax (selected.filter fun r => environmentOf cfg (.span r.span) = env)⟩

end Branch

inductive QueryError where
  | arguments
  | scan

/-- `conn.Query`: the driver takes a text with a placeholder for each argument. -/
def Statement.run (engine : Engine F) (argMax : List TraceRow → Option TraceRow)
    (table : List TraceRow) (st : Statement F) : Except QueryError (List ResultRow) :=
  if st.balanced then
    match st.bind with
    | some bs => .ok (bs.flatMap (Branch.rows engine argMax table))
    | none => .error .arguments
  else .error .arguments

/-- The result, by the slices' keys. -/
abbrev SliceStats := String → Option SliceStat

/-- Callers read an absent key as zero. -/
def SliceStats.get (stats : SliceStats) (key : String) : SliceStat := (stats key).getD {}

/-- Without an open error there is none to point at. -/
def SliceStat.pointing (st : SliceStat) : SliceStat :=
  if st.openErrorTraces = 0 then
    { st with lastErrorAt := 0, lastErrorService := "", sampleTraceID := "" }
  else st

/-- The scan of a row: a row with an environment has a column too many. -/
def scanRow (out : SliceStats) (row : ResultRow) : Except QueryError SliceStats :=
  match row.env with
  | some _ => .error .scan
  | none => .ok (Function.update out row.key (some row.stat.pointing))

def sliceBatchSize : Nat := 64

section Read

variable (cfg : EnvironmentConfig) (engine : Engine F)
  (argMax : List TraceRow → Option TraceRow) (table : List TraceRow) (q : SliceQuery)

/-- The body of the loop of `SliceTraceStats`. -/
def readBatch (out : SliceStats) (batch : List IntegrationSlice) : Except QueryError SliceStats :=
  let st := sliceTraceStatsSQL cfg engine q batch
  if st.branches.isEmpty then .ok out
  else do
    let rows ← st.run engine argMax table
    rows.foldlM scanRow out

def sliceTraceStats (slices : List IntegrationSlice) : Except QueryError SliceStats :=
  (Lib.batches sliceBatchSize slices).foldlM (readBatch cfg engine argMax table q) fun _ => none

end Read

/-! ## What a key is given -/

section Given

variable (cfg : EnvironmentConfig) (engine : Engine F)
  (argMax : List TraceRow → Option TraceRow) (table : List TraceRow) (q : SliceQuery)

def branchStat (sl : IntegrationSlice) : SliceStat :=
  ((boundBranch cfg engine q sl).stat argMax (table.filter
    ((boundBranch cfg engine q sl).selects engine (table.map TraceRow.span)))).pointing

def readSlices (slices : List IntegrationSlice) : List IntegrationSlice :=
  slices.filter fun sl => sl.services ≠ []

variable {cfg engine argMax table q} {slices : List IntegrationSlice} {sl : IntegrationSlice}

theorem mem_readSlices : sl ∈ readSlices slices ↔ sl ∈ slices ∧ sl.services ≠ [] := by
  unfold readSlices
  rw [List.mem_filter, decide_eq_true_eq]

theorem rows_boundBranch (henv : q.byEnvironment = false) (sl : IntegrationSlice) :
    ∃ st, (boundBranch cfg engine q sl).rows engine argMax table = [⟨sl.key, none, st⟩] ∧
      st.pointing = branchStat cfg engine argMax table q sl := by
  have hnone : (boundBranch cfg engine q sl).env = none := by
    unfold boundBranch
    rw [henv]
    rfl
  refine ⟨_, ?_, rfl⟩
  unfold Branch.rows
  dsimp only
  rw [hnone]
  rfl

theorem foldlM_scanRow (henv : q.byEnvironment = false) (slices : List IntegrationSlice)
    (out : SliceStats) :
    ((boundBranches cfg engine q slices).flatMap (Branch.rows engine argMax table)).foldlM
        scanRow out =
      .ok (Lib.collectByKey IntegrationSlice.key (branchStat cfg engine argMax table q) out
        (readSlices slices)) := by
  unfold boundBranches
  show List.foldlM scanRow out (((readSlices slices).map (boundBranch cfg engine q)).flatMap _) = _
  induction readSlices slices generalizing out with
  | nil => rfl
  | cons sl rest ih =>
    obtain ⟨st, hrows, hpointing⟩ := @rows_boundBranch F cfg engine argMax table q henv sl
    rw [List.map_cons, List.flatMap_cons, hrows]
    show List.foldlM scanRow (Function.update out sl.key (some st.pointing))
      ((rest.map (boundBranch cfg engine q)).flatMap (Branch.rows engine argMax table)) = _
    rw [ih, hpointing]
    rfl

theorem readBatch_eq (henv : q.byEnvironment = false) (batch : List IntegrationSlice)
    (out : SliceStats) :
    readBatch cfg engine argMax table q out batch =
      if (sliceTraceStatsSQL cfg engine q batch).balanced then
        .ok (Lib.collectByKey IntegrationSlice.key (branchStat cfg engine argMax table q) out
          (readSlices batch))
      else .error .arguments := by
  unfold readBatch
  dsimp only
  by_cases hnone : readSlices batch = []
  · -- no slice has services: there is no statement, and its empty text is balanced
    have hstatement : sliceTraceStatsSQL cfg engine q batch = ⟨[], []⟩ := by
      have hbranches : boundBranches cfg engine q batch = [] := by
        show (readSlices batch).map _ = []
        rw [hnone]
        rfl
      rw [sliceTraceStatsSQL_eq, hbranches]
      rfl
    have hempty : (⟨[], []⟩ : Statement F).balanced := rfl
    rw [hstatement, hnone, hempty]
    rfl
  · have hbranches : (sliceTraceStatsSQL cfg engine q batch).branches.isEmpty = false := by
      rw [sliceTraceStatsSQL_eq]
      show (((readSlices batch).map (boundBranch cfg engine q)).map Branch.erase).isEmpty = false
      simpa using hnone
    rw [hbranches]
    unfold Statement.run
    by_cases hbalanced : (sliceTraceStatsSQL cfg engine q batch).balanced
    · rw [if_pos hbalanced, if_pos hbalanced, bind_sliceTraceStatsSQL]
      exact foldlM_scanRow henv batch out
    · rw [if_neg hbalanced, if_neg hbalanced]
      rfl

/-- Every statement of a batch has a placeholder for each argument. -/
def AllBalanced (cfg : EnvironmentConfig) (engine : Engine F) (q : SliceQuery)
    (slices : List IntegrationSlice) : Prop :=
  ∀ batch ∈ Lib.batches sliceBatchSize slices,
    (sliceTraceStatsSQL cfg engine q batch).balanced

theorem mem_batches_iff :
    (∃ batch ∈ Lib.batches sliceBatchSize slices, sl ∈ batch) ↔ sl ∈ slices := by
  rw [← List.mem_flatten, Lib.flatten_batches (by decide)]

theorem allBalanced_iff (henv : q.byEnvironment = false) (slices : List IntegrationSlice) :
    AllBalanced cfg engine q slices ↔ ∀ sl ∈ slices, sl.services ≠ [] → sl.Unmarked cfg engine := by
  unfold AllBalanced
  constructor
  · intro h sl hsl
    obtain ⟨batch, hbatch, hmem⟩ := mem_batches_iff.2 hsl
    exact (balanced_sliceTraceStatsSQL henv batch).1 (h batch hbatch) sl hmem
  · intro h batch hbatch
    refine (balanced_sliceTraceStatsSQL henv batch).2 fun sl hsl => h sl ?_
    exact mem_batches_iff.1 ⟨batch, hbatch, hsl⟩

theorem sliceTraceStats_eq (henv : q.byEnvironment = false)
    (hbalanced : AllBalanced cfg engine q slices) :
    sliceTraceStats cfg engine argMax table q slices =
      .ok (Lib.collectByKey IntegrationSlice.key (branchStat cfg engine argMax table q)
        (fun _ => none) (readSlices slices)) := by
  have hloop (batches : List (List IntegrationSlice)) (out : SliceStats)
      (h : ∀ batch ∈ batches, (sliceTraceStatsSQL cfg engine q batch).balanced) :
      batches.foldlM (readBatch cfg engine argMax table q) out =
        .ok ((batches.map readSlices).foldl
          (Lib.collectByKey IntegrationSlice.key (branchStat cfg engine argMax table q)) out) := by
    induction batches generalizing out with
    | nil => rfl
    | cons batch batches ih =>
      have hbatch := @readBatch_eq F cfg engine argMax table q henv batch out
      rw [List.forall_mem_cons] at h
      rw [if_pos h.1] at hbatch
      rw [List.foldlM_cons, hbatch]
      exact ih _ h.2
  have hflatten : ((Lib.batches sliceBatchSize slices).map readSlices).flatten =
      readSlices slices := by
    unfold readSlices
    rw [← List.filter_flatten, Lib.flatten_batches (by decide)]
  unfold sliceTraceStats
  rw [hloop _ _ hbalanced, Lib.foldl_collectByKey, hflatten]

theorem get_collectByKey (hkeys : (slices.map IntegrationSlice.key).Nodup) (hsl : sl ∈ slices) :
    SliceStats.get (Lib.collectByKey IntegrationSlice.key (branchStat cfg engine argMax table q)
        (fun _ => none) (readSlices slices)) sl.key =
      if sl.services = [] then {} else branchStat cfg engine argMax table q sl := by
  have hread : ((readSlices slices).map IntegrationSlice.key).Nodup :=
    hkeys.sublist ((List.filter_sublist).map _)
  unfold SliceStats.get
  by_cases hservices : sl.services = []
  · have hnot : sl.key ∉ (readSlices slices).map IntegrationSlice.key := by
      intro hmem
      obtain ⟨other, hother, hkey⟩ := List.mem_map.1 hmem
      obtain ⟨hin, hne⟩ := mem_readSlices.1 hother
      -- distinct keys: the slice with the key is this one
      obtain rfl := List.inj_on_of_nodup_map hkeys hin hsl hkey
      exact hne hservices
    rw [if_pos hservices, Lib.collectByKey_of_notMem hnot]
    rfl
  · rw [if_neg hservices, Lib.collectByKey_of_mem hread (mem_readSlices.2 ⟨hsl, hservices⟩)]
    rfl

end Given

/-! ## Open errors -/

section Open

variable (cfg : EnvironmentConfig) (engine : Engine F) (table : List TraceRow) (q : SliceQuery)

/-- The slice has the row: a span of one of its services, in the window, that its groups accept. -/
def IntegrationSlice.selects (sl : IntegrationSlice) (r : TraceRow) : Bool :=
  let compiled := attrGroupsClause cfg engine .spanAttributes sl.groups q.start q.stop
  (q.start ≤ r.span.timestamp && r.span.timestamp ≤ q.stop) &&
    (r.span.serviceName ∈ sl.services) &&
    (compiled.isNone || satisfies engine (table.map TraceRow.span) (.span r.span) compiled)

def SliceQuery.newer (r : TraceRow) : Bool :=
  match q.ackedUntil r.span.serviceName with
  | none => true
  | some w => w < r.span.timestamp

/-- The traces of the slice with an error newer than the watermark of the service that emitted
it. -/
def openErrorTraces (sl : IntegrationSlice) : Nat :=
  uniqExactTraces (table.filter fun r =>
    sl.selects cfg engine table q r && (r.isError && q.newer r))

/-- The row is not at or before a watermark that is inside the window. -/
def SliceQuery.counts (r : TraceRow) : Bool :=
  match q.ackedUntil r.span.serviceName with
  | none => true
  | some w => !(q.start < w && r.span.timestamp ≤ w)

/-- The row, and the watermark of its service, are at the window's start. -/
def SliceQuery.AtClearedStart (r : TraceRow) : Prop :=
  q.ackedUntil r.span.serviceName = some q.start ∧ r.span.timestamp = q.start

/-- The trace of an error at the window's start that is cleared there has a newer one. -/
def IntegrationSlice.NoneClearedAtStart (sl : IntegrationSlice) : Prop :=
  ∀ r ∈ table, sl.selects cfg engine table q r → r.isError → q.AtClearedStart r →
    ∃ r' ∈ table, sl.selects cfg engine table q r' ∧ r'.isError ∧
      q.newer r' ∧ r'.span.traceId = r.span.traceId

variable {cfg engine table q}

theorem clause_all_eq (sl : IntegrationSlice) (spans : List Span) (s : Span) :
    ((boundGroups cfg engine .spanAttributes sl.groups q.start q.stop).all fun c =>
        c.eval engine spans (.row (.span s)) = .yes) =
      ((attrGroupsClause cfg engine .spanAttributes sl.groups q.start q.stop).isNone ||
        satisfies engine spans (.span s)
          (attrGroupsClause cfg engine .spanAttributes sl.groups q.start q.stop)) := by
  rw [attrGroupsClause_eq]
  cases boundGroups cfg engine .spanAttributes sl.groups q.start q.stop with
  | none => rfl
  | some c =>
    unfold satisfies
    rw [Option.map_some, bind_emit]
    rfl

theorem selects_boundBranch (sl : IntegrationSlice) (r : TraceRow) :
    (boundBranch cfg engine q sl).selects engine (table.map TraceRow.span) r =
      (sl.selects cfg engine table q r && (!q.errorsOnly || r.isError)) := by
  have hservice : ((sl.services.map Arg.text).any fun a : Arg F =>
      a.isText r.span.serviceName) = decide (r.span.serviceName ∈ sl.services) := by
    rw [Bool.eq_iff_iff, List.any_map, List.any_eq_true, decide_eq_true_eq]
    simp [Arg.isText]
  unfold IntegrationSlice.selects
  dsimp only
  rw [← clause_all_eq]
  show ((decide (q.start ≤ r.span.timestamp) && decide (r.span.timestamp ≤ q.stop)) &&
    ((sl.services.map Arg.text).any fun a : Arg F => a.isText r.span.serviceName) &&
    (!q.errorsOnly || r.isError) && _) = _
  rw [hservice, Bool.and_right_comm]
  rfl

variable {argMax : List TraceRow → Option TraceRow} {services : List String} {sl : IntegrationSlice}

theorem mem_clearedServices {n : String} :
    n ∈ clearedServices q services ↔ n ∈ services ∧ ∃ w, q.ackedUntil n = some w ∧ q.start < w := by
  unfold clearedServices
  rw [Lib.mem_orderBy, List.mem_filter, Option.any_eq_true]
  simp

variable {r : TraceRow}

theorem openError_exclusions (hservice : r.span.serviceName ∈ services) :
    openError (F := F) (exclusions q services) r = (r.isError && q.counts r) := by
  have hall : ((exclusions (F := F) q services).all fun x =>
      !(x.1.isText r.span.serviceName && x.2.notBefore r.span.timestamp)) ↔
      q.counts r := by
    unfold exclusions
    rw [List.all_map, List.all_eq_true]
    constructor
    · intro h
      unfold SliceQuery.counts
      cases hw : q.ackedUntil r.span.serviceName with
      | none => rfl
      | some w =>
        by_cases hstart : q.start < w
        · have hnot := h r.span.serviceName (mem_clearedServices.2 ⟨hservice, w, hw, hstart⟩)
          simpa [Arg.isText, Arg.notBefore, hw, hstart] using hnot
        · simp [hstart]
    · intro hcounts n hn
      obtain ⟨_, w, hw, hstart⟩ := mem_clearedServices.1 hn
      by_cases hname : r.span.serviceName = n
      · subst hname
        unfold SliceQuery.counts at hcounts
        rw [hw] at hcounts
        simpa [Arg.isText, Arg.notBefore, hw, hstart] using hcounts
      · simp [Arg.isText, hname]
  unfold openError
  rw [Bool.eq_iff_iff, Bool.and_eq_true, Bool.and_eq_true, hall]

theorem selects_service (h : sl.selects cfg engine table q r) :
    r.span.serviceName ∈ sl.services := by
  unfold IntegrationSlice.selects at h
  simp only [Bool.and_eq_true, decide_eq_true_eq] at h
  exact h.1.2

theorem selects_start (h : sl.selects cfg engine table q r) : q.start ≤ r.span.timestamp := by
  unfold IntegrationSlice.selects at h
  simp only [Bool.and_eq_true, decide_eq_true_eq] at h
  exact h.1.1.1

theorem counts_iff (hstart : q.start ≤ r.span.timestamp) :
    q.counts r ↔ q.newer r ∨ q.AtClearedStart r := by
  unfold SliceQuery.counts SliceQuery.newer SliceQuery.AtClearedStart
  cases hw : q.ackedUntil r.span.serviceName with
  | none => simp
  | some w =>
    simp only [Bool.not_eq_true', Bool.and_eq_false_iff, decide_eq_false_iff_not,
      decide_eq_true_eq, Option.some.injEq]
    omega

theorem openErrorTraces_branchStat (sl : IntegrationSlice) :
    (branchStat cfg engine argMax table q sl).openErrorTraces =
      uniqExactTraces (table.filter fun r =>
        sl.selects cfg engine table q r && (r.isError && q.counts r)) := by
  have hpointing (st : SliceStat) : st.pointing.openErrorTraces = st.openErrorTraces := by
    unfold SliceStat.pointing
    split <;> rfl
  unfold branchStat
  rw [hpointing]
  show uniqExactTraces (List.filter (openError (exclusions q sl.services)) _) = _
  rw [List.filter_filter]
  refine congrArg uniqExactTraces (List.filter_congr fun r _ => ?_)
  rw [selects_boundBranch]
  cases hselects : sl.selects cfg engine table q r with
  | false => simp
  | true =>
    rw [openError_exclusions (selects_service hselects)]
    cases r.isError <;> simp

/-- Two conditions, one implied by the other, have as many traces just when the traces of the
weaker have a row of the stronger. -/
theorem uniqExactTraces_eq_iff {p p' : TraceRow → Bool} (h : ∀ r, p r → p' r) :
    uniqExactTraces (table.filter p') = uniqExactTraces (table.filter p) ↔
      ∀ r ∈ table, p' r → ∃ r' ∈ table, p r' ∧ r'.span.traceId = r.span.traceId := by
  have hmem (p : TraceRow → Bool) (id : String) :
      id ∈ ((table.filter p).map fun r => r.span.traceId).toFinset ↔
        ∃ r ∈ table, p r ∧ r.span.traceId = id := by
    rw [List.mem_toFinset, List.mem_map]
    simp only [List.mem_filter, and_assoc]
  have hsub : ((table.filter p).map fun r => r.span.traceId).toFinset ⊆
      ((table.filter p').map fun r => r.span.traceId).toFinset := by
    intro id hid
    obtain ⟨r, hr, hp, htrace⟩ := (hmem p id).1 hid
    exact (hmem p' id).2 ⟨r, hr, h r hp, htrace⟩
  unfold uniqExactTraces
  constructor
  · intro hcard r hr hp
    have heq := Finset.eq_of_subset_of_card_le hsub hcard.le
    refine (hmem p r.span.traceId).1 ?_
    rw [heq]
    exact (hmem p' r.span.traceId).2 ⟨r, hr, hp, rfl⟩
  · intro hall
    refine congrArg Finset.card (Finset.Subset.antisymm (fun id hid => ?_) hsub)
    obtain ⟨r, hr, hp, rfl⟩ := (hmem p' id).1 hid
    exact (hmem p r.span.traceId).2 (hall r hr hp)

/-- The branch counts the slice's open errors just when none is cleared at the window's start
alone. -/
theorem openErrorTraces_eq_iff (sl : IntegrationSlice) :
    (branchStat cfg engine argMax table q sl).openErrorTraces =
        openErrorTraces cfg engine table q sl ↔
      sl.NoneClearedAtStart cfg engine table q := by
  have hnewer : ∀ r, (sl.selects cfg engine table q r && (r.isError && q.newer r)) →
      (sl.selects cfg engine table q r && (r.isError && q.counts r)) := by
    intro r hr
    simp only [Bool.and_eq_true] at hr ⊢
    exact ⟨hr.1, hr.2.1, (counts_iff (selects_start hr.1)).2 (.inl hr.2.2)⟩
  rw [openErrorTraces_branchStat]
  unfold openErrorTraces
  rw [uniqExactTraces_eq_iff hnewer]
  unfold IntegrationSlice.NoneClearedAtStart
  refine forall₂_congr fun r hr => ?_
  simp only [Bool.and_eq_true]
  constructor
  · intro h hselects herror hcleared
    obtain ⟨r', hr', ⟨hselects', herror', hnew⟩, htrace⟩ :=
      h ⟨hselects, herror, (counts_iff (selects_start hselects)).2 (.inr hcleared)⟩
    exact ⟨r', hr', hselects', herror', hnew, htrace⟩
  · rintro h ⟨hselects, herror, hcounts⟩
    cases (counts_iff (selects_start hselects)).1 hcounts with
    | inl hnew => exact ⟨r, hr, ⟨hselects, herror, hnew⟩, rfl⟩
    | inr hcleared =>
      obtain ⟨r', hr', hselects', herror', hnew, htrace⟩ := h hselects herror hcleared
      exact ⟨r', hr', ⟨hselects', herror', hnew⟩, htrace⟩

end Open

/-! ## Transparent batches -/

section Transparent

variable (cfg : EnvironmentConfig) (engine : Engine F)
  (argMax : List TraceRow → Option TraceRow) (table : List TraceRow) (q : SliceQuery)

/-- Every statement's arguments are bound to the placeholders of its text one by one; the slices
are read, each is given what it is given alone, and its open errors are those newer than the
watermark of their service. -/
structure Transparent (slices : List IntegrationSlice) : Prop where
  balanced : AllBalanced cfg engine q slices
  bound : ∀ batch ∈ Lib.batches sliceBatchSize slices,
    (sliceTraceStatsSQL cfg engine q batch).bind = some (boundBranches cfg engine q batch)
  given : ∃ stats, sliceTraceStats cfg engine argMax table q slices = .ok stats ∧
    ∀ sl ∈ slices,
      (∃ own, sliceTraceStats cfg engine argMax table q [sl] = .ok own ∧
        stats.get sl.key = own.get sl.key) ∧
      (stats.get sl.key).openErrorTraces = openErrorTraces cfg engine table q sl

variable {cfg engine argMax table q} {sl : IntegrationSlice}

theorem openErrorTraces_noServices (hservices : sl.services = []) :
    openErrorTraces cfg engine table q sl = 0 := by
  have hnone : (table.filter fun r =>
      sl.selects cfg engine table q r && (r.isError && q.newer r)) = [] := by
    rw [List.filter_eq_nil_iff]
    intro r _ hr
    rw [Bool.and_eq_true] at hr
    have hservice := selects_service hr.1
    rw [hservices] at hservice
    cases hservice
  unfold openErrorTraces
  rw [hnone]
  rfl

theorem noneClearedAtStart_noServices (hservices : sl.services = []) :
    sl.NoneClearedAtStart cfg engine table q := by
  intro r _ hselects
  have hservice := selects_service hselects
  rw [hservices] at hservice
  cases hservice

theorem get_openErrorTraces_iff {slices : List IntegrationSlice}
    (hkeys : (slices.map IntegrationSlice.key).Nodup) (hsl : sl ∈ slices) :
    (SliceStats.get (Lib.collectByKey IntegrationSlice.key
        (branchStat cfg engine argMax table q) (fun _ => none) (readSlices slices))
          sl.key).openErrorTraces = openErrorTraces cfg engine table q sl ↔
      sl.NoneClearedAtStart cfg engine table q := by
  rw [get_collectByKey hkeys hsl]
  by_cases hservices : sl.services = []
  · rw [if_pos hservices, openErrorTraces_noServices hservices]
    exact iff_of_true rfl (noneClearedAtStart_noServices hservices)
  · rw [if_neg hservices]
    exact openErrorTraces_eq_iff sl

end Transparent

/-! ### An error at the window's start -/

private def textOnly : Engine Nat where
  regex _ _ := false
  parseFloat _ := none
  toFloat64OrNull _ := none
  compare _ _ _ := false

private def ownEnvironments : EnvironmentConfig := ⟨"", []⟩

private def dag (key id : String) : IntegrationSlice :=
  ⟨key, ["airflow"], [[{ key := "dag", op := .eq, value := id }]]⟩

/-- The window from 5 to 9; the errors of the scheduler are cleared until 5. -/
private def clearedAtStart : SliceQuery where
  start := 5
  stop := 9
  ackedUntil n := if n = "airflow" then some 5 else none

private def failedRun : TraceRow :=
  ⟨⟨5, "t", "1", "", "airflow", "run", "", [], [("dag", "gl")]⟩, "Error"⟩

end Sluicio.Store
