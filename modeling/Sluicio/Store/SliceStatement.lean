import Mathlib.Data.String.Basic
import Sluicio.Lib.Batches
import Sluicio.Lib.Ordered
import Sluicio.Store.Selection

/-!
# The statement of a batch of slices

`sliceTraceStatsSQL` writes one `SELECT` for each slice of a batch and joins them with
`UNION ALL`.  The condition on open errors stands four times in a `SELECT`, and its arguments
are collected as often.  A `Branch` is one `SELECT`, its placeholders labelled; `boundBranch` is
the one a slice stands for, and the statement's text and arguments are those of the bound
branches.
-/

namespace Sluicio.Store

variable {α F : Type}

structure IntegrationSlice where
  key : String
  services : List String
  groups : List (List LogAttrFilter)

/-- `SliceQuery`; `start` and `stop` are its `From` and `To`. -/
structure SliceQuery where
  start : Int
  stop : Int
  ackedUntil : String → Option Int
  errorsOnly : Bool := false
  byEnvironment : Bool := false

/-! ## One SELECT -/

/-- One branch of the statement, its placeholders labelled by `α`.  The four copies of the
condition on open errors each have their own: a service and its watermark for every exclusion. -/
structure Branch (α : Type) where
  key : α
  env : Option EnvironmentConfig
  errorsOnly : Bool
  counted : List (α × α)
  newestAt : List (α × α)
  newestService : List (α × α)
  sample : List (α × α)
  start : α
  stop : α
  services : List α
  clause : Option (Clause α)

/-- The text of the condition on open errors. -/
def openTokens (exclusions : List (α × α)) : List (Token α) :=
  .sql "(StatusCode = 'Error'" ::
    (exclusions.flatMap fun x =>
      [.sql " AND NOT (ServiceName = ", .hole x.1, .sql " AND Timestamp <= ", .hole x.2,
        .sql ")"]) ++ [.sql ")"]

/-- `strings.Join` of placeholders. -/
def placeholderTokens : List α → List (Token α)
  | [] => []
  | a :: as => .hole a :: (if as.isEmpty then [] else .sql "," :: placeholderTokens as)

namespace Branch

def envSelect (b : Branch α) : String :=
  match b.env with
  | none => ""
  | some cfg => "\n\t\t       " ++ environmentExpr cfg ++ " AS env,"

def groupBy (b : Branch α) : String :=
  match b.env with
  | none => ""
  | some _ => "\n\t\tGROUP BY env"

/-- The column `traces`. -/
def traces (b : Branch α) : String :=
  if b.errorsOnly then "toUInt64(0)" else "toUInt64(uniqExact(TraceId))"

/-- The condition on the status in the WHERE. -/
def statusTest (b : Branch α) : String := if b.errorsOnly then " AND StatusCode = 'Error'" else ""

/-- The condition of the groups in the WHERE. -/
def clauseTokens : Option (Clause α) → List (Token α)
  | none => []
  | some c => .sql " AND " :: c.tokens

def tokens (b : Branch α) : List (Token α) :=
  [[.sql "\n\t\tSELECT toString(", .hole b.key, .sql ") AS k,", .sql b.envSelect,
      .sql "\n\t\t       ", .sql b.traces, .sql " AS traces,\n\t\t       ",
      .sql "toUInt64(uniqExactIf(TraceId, StatusCode = 'Error')) AS errored,\n\t\t       ",
      .sql "toUInt64(uniqExactIf(TraceId, "],
    openTokens b.counted,
    [.sql ")) AS open_errored,\n\t\t       maxIf(Timestamp, "],
    openTokens b.newestAt,
    [.sql ") AS last_error_at,\n\t\t       argMaxIf(ServiceName, Timestamp, "],
    openTokens b.newestService,
    [.sql ") AS last_error_service,\n\t\t       argMaxIf(TraceId, Timestamp, "],
    openTokens b.sample,
    [.sql ") AS sample\n\t\tFROM traces\n\t\tWHERE Timestamp >= ", .hole b.start,
      .sql " AND Timestamp <= ", .hole b.stop, .sql " AND ServiceName IN ("],
    placeholderTokens b.services, [.sql ")", .sql b.statusTest], clauseTokens b.clause,
    [.sql b.groupBy]].flatten

/-- The placeholders' labels, in the order of the text. -/
def holes (b : Branch α) : List α := b.tokens.filterMap Token.label?

/-- The branch with its arguments taken out. -/
def erase (b : Branch α) : Branch Unit where
  key := ()
  env := b.env
  errorsOnly := b.errorsOnly
  counted := b.counted.map fun _ => ((), ())
  newestAt := b.newestAt.map fun _ => ((), ())
  newestService := b.newestService.map fun _ => ((), ())
  sample := b.sample.map fun _ => ((), ())
  start := ()
  stop := ()
  services := b.services.map fun _ => ()
  clause := b.clause.map Clause.erase

end Branch

/-- Bind two arguments to each exclusion. -/
def fillPairs : List (Unit × Unit) → List α → Option (List (α × α) × List α)
  | [], vs => some ([], vs)
  | _ :: xs, v :: w :: vs => do
    let (pairs, vs) ← fillPairs xs vs
    pure ((v, w) :: pairs, vs)
  | _ :: _, _ => none

/-- Bind an argument to each placeholder of a list. -/
def fillEach : List Unit → List α → Option (List α × List α)
  | [], vs => some ([], vs)
  | _ :: xs, v :: vs => do
    let (each, vs) ← fillEach xs vs
    pure (v :: each, vs)
  | _ :: _, [] => none

def fillClause : Option (Clause Unit) → List α → Option (Option (Clause α) × List α)
  | none, vs => some (none, vs)
  | some c, vs => do
    let (c, vs) ← c.fill vs
    pure (some c, vs)

/-- Positional binding: the placeholders take the arguments in the order of the text. -/
def Branch.fill (b : Branch Unit) : List α → Option (Branch α × List α)
  | [] => none
  | key :: vs => do
    let (counted, vs) ← fillPairs b.counted vs
    let (newestAt, vs) ← fillPairs b.newestAt vs
    let (newestService, vs) ← fillPairs b.newestService vs
    let (sample, vs) ← fillPairs b.sample vs
    match vs with
    | start :: stop :: vs => do
      let (services, vs) ← fillEach b.services vs
      let (clause, vs) ← fillClause b.clause vs
      pure (⟨key, b.env, b.errorsOnly, counted, newestAt, newestService, sample, start, stop,
        services, clause⟩, vs)
    | _ => none

def fillBranches : List (Branch Unit) → List α → Option (List (Branch α) × List α)
  | [], vs => some ([], vs)
  | b :: bs, vs => do
    let (b, vs) ← b.fill vs
    let (bs, vs) ← fillBranches bs vs
    pure (b :: bs, vs)

/-- The text of the statement: the branches, joined by `UNION ALL`. -/
def statementTokens : List (Branch α) → List (Token α)
  | [] => []
  | b :: bs =>
    b.tokens ++ (if bs.isEmpty then [] else .sql "\n\t\tUNION ALL" :: statementTokens bs)

/-- A text and its arguments. -/
structure Statement (F : Type) where
  branches : List (Branch Unit)
  args : List (Arg F)

namespace Statement

def text (st : Statement F) : String :=
  String.join ((statementTokens st.branches).map Token.text)

/-- There are as many placeholders in the text as arguments. -/
def balanced (st : Statement F) : Bool := st.text.toList.count '?' = st.args.length

/-- The branches with their arguments bound, when none is left. -/
def bind (st : Statement F) : Option (List (Branch (Arg F))) :=
  match fillBranches st.branches st.args with
  | some (bs, []) => some bs
  | _ => none

end Statement

section Build

variable (cfg : EnvironmentConfig) (engine : Engine F) (q : SliceQuery)

/-- The services whose watermark is rendered, ordered. -/
def clearedServices (services : List String) : List String :=
  Lib.orderBy id (services.filter fun n => (q.ackedUntil n).any fun w => q.start < w)

/-- `openErrorCondition`: the exclusions of the text, and the arguments. -/
def openErrorCondition (services : List String) : List (Unit × Unit) × List (Arg F) :=
  ((clearedServices q services).map fun _ => ((), ()),
    (clearedServices q services).flatMap fun n =>
      [.text n, .time ((q.ackedUntil n).getD 0)])

/-- The body of the loop of `sliceTraceStatsSQL`. -/
def addBranch (st : Statement F) (sl : IntegrationSlice) : Statement F :=
  if sl.services = [] then st
  else
    let opened := openErrorCondition (F := F) q sl.services
    let attr := attrGroupsClause cfg engine .spanAttributes sl.groups q.start q.stop
    { branches := st.branches ++
        [{ key := (), env := if q.byEnvironment then some cfg else none,
           errorsOnly := q.errorsOnly, counted := opened.1, newestAt := opened.1,
           newestService := opened.1, sample := opened.1, start := (), stop := (),
           services := sl.services.map fun _ => (), clause := attr.map Prod.fst }]
      args := st.args ++ [.text sl.key] ++
        (List.replicate 4 opened.2).flatten ++ [.time q.start, .time q.stop] ++
        sl.services.map .text ++ (attr.map Prod.snd).getD [] }

def sliceTraceStatsSQL (slices : List IntegrationSlice) : Statement F :=
  slices.foldl (addBranch cfg engine q) ⟨[], []⟩

/-- The exclusions of the slice's open errors. -/
def exclusions (services : List String) : List (Arg F × Arg F) :=
  (clearedServices q services).map fun n => (.text n, .time ((q.ackedUntil n).getD 0))

def boundBranch (sl : IntegrationSlice) : Branch (Arg F) where
  key := .text sl.key
  env := if q.byEnvironment then some cfg else none
  errorsOnly := q.errorsOnly
  counted := exclusions q sl.services
  newestAt := exclusions q sl.services
  newestService := exclusions q sl.services
  sample := exclusions q sl.services
  start := .time q.start
  stop := .time q.stop
  services := sl.services.map .text
  clause := boundGroups cfg engine .spanAttributes sl.groups q.start q.stop

end Build

/-! ## Placeholders in the order of the text -/

def pairArgs (exclusions : List (α × α)) : List α := exclusions.flatMap fun x => [x.1, x.2]

theorem filterMap_openTokens (exclusions : List (α × α)) :
    (openTokens exclusions).filterMap Token.label? = pairArgs exclusions := by
  have hbody : (exclusions.flatMap fun x =>
      [Token.sql " AND NOT (ServiceName = ", .hole x.1, .sql " AND Timestamp <= ", .hole x.2,
        .sql ")"]).filterMap Token.label? = pairArgs exclusions := by
    rw [List.filterMap_flatMap]
    rfl
  unfold openTokens
  rw [List.filterMap_append, filterMap_label_sql, hbody, filterMap_label_sql]
  exact List.append_nil _

theorem filterMap_placeholderTokens (as : List α) :
    (placeholderTokens as).filterMap Token.label? = as := by
  induction as with
  | nil => rfl
  | cons a as ih =>
    rw [placeholderTokens, filterMap_label_hole]
    cases as with
    | nil => rfl
    | cons b as =>
      show a :: (Token.sql "," :: placeholderTokens (b :: as)).filterMap Token.label? = _
      rw [filterMap_label_sql, ih]

/-- The arguments of the condition of the groups. -/
def clauseArgs : Option (Clause α) → List α
  | none => []
  | some c => c.holes

theorem filterMap_clauseTokens (c : Option (Clause α)) :
    (Branch.clauseTokens c).filterMap Token.label? = clauseArgs c := by
  cases c with
  | none => rfl
  | some c => rfl

theorem Branch.holes_eq (b : Branch α) :
    b.holes = b.key :: (pairArgs b.counted ++ (pairArgs b.newestAt ++
      (pairArgs b.newestService ++ (pairArgs b.sample ++
        (b.start :: b.stop :: (b.services ++ clauseArgs b.clause)))))) := by
  unfold holes tokens
  simp only [List.flatten_cons, List.flatten_nil, List.filterMap_append, List.cons_append,
    List.nil_append, filterMap_label_sql, filterMap_label_hole, filterMap_openTokens,
    filterMap_placeholderTokens, filterMap_clauseTokens, List.filterMap_nil, List.append_nil]

theorem filterMap_statementTokens (bs : List (Branch α)) :
    (statementTokens bs).filterMap Token.label? = bs.flatMap Branch.holes := by
  induction bs with
  | nil => rfl
  | cons b bs ih =>
    rw [statementTokens, List.filterMap_append, List.flatMap_cons]
    cases bs with
    | nil => rfl
    | cons next bs =>
      show b.holes ++ (Token.sql "\n\t\tUNION ALL" ::
        statementTokens (next :: bs)).filterMap Token.label? = _
      rw [filterMap_label_sql, ih]

/-! ### Positional binding -/

theorem fillPairs_erase (xs : List (α × α)) (rest : List α) :
    fillPairs (xs.map fun _ => ((), ())) (pairArgs xs ++ rest) = some (xs, rest) := by
  induction xs with
  | nil => rfl
  | cons x xs ih =>
    show (fillPairs (xs.map fun _ => ((), ())) (pairArgs xs ++ rest) >>= fun filled =>
      pure ((x.1, x.2) :: filled.1, filled.2)) = _
    rw [ih]
    rfl

theorem fillEach_erase (as rest : List α) :
    fillEach (as.map fun _ => ()) (as ++ rest) = some (as, rest) := by
  induction as with
  | nil => rfl
  | cons a as ih =>
    show (fillEach (as.map fun _ => ()) (as ++ rest) >>= fun filled =>
      pure (a :: filled.1, filled.2)) = _
    rw [ih]
    rfl

theorem fillClause_erase (c : Option (Clause α)) (rest : List α) :
    fillClause (c.map Clause.erase) (clauseArgs c ++ rest) = some (c, rest) := by
  cases c with
  | none => rfl
  | some c =>
    show (c.erase.fill (c.holes ++ rest) >>= fun filled => pure (some filled.1, filled.2)) = _
    rw [Clause.fill_erase]
    rfl

theorem Branch.fill_erase (b : Branch α) (rest : List α) :
    b.erase.fill (b.holes ++ rest) = some (b, rest) := by
  rw [b.holes_eq]
  simp only [List.cons_append, List.append_assoc, Branch.fill, Branch.erase, fillPairs_erase,
    fillEach_erase, fillClause_erase, Option.bind_eq_bind, Option.bind_some]
  rfl

theorem fillBranches_erase (bs : List (Branch α)) (rest : List α) :
    fillBranches (bs.map Branch.erase) (bs.flatMap Branch.holes ++ rest) = some (bs, rest) := by
  induction bs with
  | nil => rfl
  | cons b bs ih =>
    rw [List.map_cons, List.flatMap_cons, List.append_assoc]
    show (b.erase.fill (b.holes ++ (bs.flatMap Branch.holes ++ rest)) >>= fun filled =>
      fillBranches (bs.map Branch.erase) filled.2 >>= fun others =>
        pure (filled.1 :: others.1, others.2)) = _
    rw [b.fill_erase]
    show (fillBranches (bs.map Branch.erase) (bs.flatMap Branch.holes ++ rest) >>= fun others =>
      pure (b :: others.1, others.2)) = _
    rw [ih]
    rfl

/-! ### Question marks -/

theorem Token.clean_hole (a : α) : (Token.hole a).Clean ↔ True := Iff.rfl

theorem Token.clean_sql (s : String) : (Token.sql s : Token α).Clean ↔ '?' ∉ s.toList := Iff.rfl

theorem text_openTokens (xs : List (α × α)) :
    (openTokens (xs.map fun _ => ((), ()))).map Token.text = (openTokens xs).map Token.text := by
  unfold openTokens
  simp only [List.map_append, List.map_cons, List.map_flatMap, List.flatMap_map]
  rfl

theorem text_placeholderTokens (as : List α) :
    (placeholderTokens (as.map fun _ => ())).map Token.text =
      (placeholderTokens as).map Token.text := by
  induction as with
  | nil => rfl
  | cons a as ih =>
    cases as with
    | nil => rfl
    | cons b as =>
      show "?" :: "," :: (placeholderTokens ((b :: as).map fun _ => ())).map Token.text = _
      rw [ih]
      rfl

theorem text_clauseTokens (c : Option (Clause α)) :
    (Branch.clauseTokens (c.map Clause.erase)).map Token.text =
      (Branch.clauseTokens c).map Token.text := by
  cases c with
  | none => rfl
  | some c =>
    show " AND " :: c.erase.tokens.map Token.text = " AND " :: c.tokens.map Token.text
    rw [Clause.text_erase]

theorem Branch.text_erase (b : Branch α) :
    b.erase.tokens.map Token.text = b.tokens.map Token.text := by
  unfold tokens
  simp only [List.flatten_cons, List.flatten_nil, List.map_append, List.map_cons, List.map_nil,
    Branch.erase, text_openTokens, text_placeholderTokens, text_clauseTokens]
  rfl

theorem text_statementTokens (bs : List (Branch α)) :
    (statementTokens (bs.map Branch.erase)).map Token.text =
      (statementTokens bs).map Token.text := by
  induction bs with
  | nil => rfl
  | cons b bs ih =>
    rw [List.map_cons, statementTokens, statementTokens, List.map_append, List.map_append,
      b.text_erase]
    cases bs with
    | nil => rfl
    | cons next bs =>
      show _ ++ _ :: (statementTokens ((next :: bs).map Branch.erase)).map Token.text = _
      rw [ih]
      rfl

theorem openTokens_clean (xs : List (α × α)) : ∀ t ∈ openTokens xs, t.Clean := by
  intro t ht
  unfold openTokens at ht
  simp only [List.mem_append, List.mem_cons, List.mem_flatMap, List.not_mem_nil, or_false] at ht
  rcases ht with (rfl | ⟨x, _, rfl | rfl | rfl | rfl | rfl⟩) | rfl
  · simp [Token.Clean]
  · simp [Token.Clean]
  · trivial
  · simp [Token.Clean]
  · trivial
  · simp [Token.Clean]
  · simp [Token.Clean]

theorem placeholderTokens_clean (as : List α) : ∀ t ∈ placeholderTokens as, t.Clean := by
  induction as with
  | nil => exact fun t ht => absurd ht List.not_mem_nil
  | cons a as ih =>
    intro t ht
    rw [placeholderTokens] at ht
    cases ht with
    | head => trivial
    | tail _ ht =>
      cases as with
      | nil => cases ht
      | cons b as =>
        cases ht with
        | head => simp [Token.Clean]
        | tail _ ht => exact ih t ht

theorem clauseTokens_clean_iff (c : Option (Clause α)) :
    (∀ t ∈ Branch.clauseTokens c, t.Clean) ↔ ∀ clause ∈ c, clause.Clean := by
  cases c with
  | none => exact iff_of_true (fun t ht => absurd ht List.not_mem_nil) fun _ h => by cases h
  | some c =>
    constructor
    · rintro h _ ⟨⟩
      exact Clause.clean_of_tokens fun t ht => h t (List.mem_cons_of_mem _ ht)
    · intro h t ht
      cases ht with
      | head => simp [Token.Clean]
      | tail _ ht => exact Clause.clean_tokens (h c rfl) t ht

/-- Of a branch that does not split by environment only the groups' condition can write a question
mark of its own. -/
theorem Branch.clean_iff {b : Branch α} (henv : b.env = none) :
    (∀ t ∈ b.tokens, t.Clean) ↔ ∀ clause ∈ b.clause, clause.Clean := by
  have hselect : Token.Clean (Token.sql b.envSelect : Token α) := by
    unfold envSelect
    rw [henv]
    simp [Token.Clean]
  have hgroup : Token.Clean (Token.sql b.groupBy : Token α) := by
    unfold groupBy
    rw [henv]
    simp [Token.Clean]
  have htraces : Token.Clean (Token.sql b.traces : Token α) := by
    unfold traces
    split <;> simp [Token.Clean]
  have hstatus : Token.Clean (Token.sql b.statusTest : Token α) := by
    unfold statusTest
    split <;> simp [Token.Clean]
  have hopen (xs : List (α × α)) : (∀ t ∈ openTokens xs, t.Clean) ↔ True :=
    iff_true_intro (openTokens_clean xs)
  have hservices : (∀ t ∈ placeholderTokens b.services, t.Clean) ↔ True :=
    iff_true_intro (placeholderTokens_clean b.services)
  rw [← clauseTokens_clean_iff]
  unfold tokens
  simp only [List.flatten_cons, List.flatten_nil, List.forall_mem_append, List.forall_mem_cons,
    hselect, hgroup, htraces, hstatus, hopen, hservices, Token.clean_hole, Token.clean_sql,
    true_and]
  simp

theorem statementTokens_clean_iff (bs : List (Branch α)) :
    (∀ t ∈ statementTokens bs, t.Clean) ↔ ∀ b ∈ bs, ∀ t ∈ b.tokens, t.Clean := by
  induction bs with
  | nil => exact iff_of_true (fun t ht => absurd ht List.not_mem_nil) (List.forall_mem_nil _)
  | cons b bs ih =>
    rw [statementTokens, List.forall_mem_append, List.forall_mem_cons]
    refine and_congr_right fun _ => ?_
    cases bs with
    | nil => exact iff_of_true (List.forall_mem_nil _) (List.forall_mem_nil _)
    | cons next bs =>
      show (∀ t ∈ Token.sql "\n\t\tUNION ALL" :: statementTokens (next :: bs), t.Clean) ↔ _
      rw [List.forall_mem_cons, ih]
      exact and_iff_right (by simp [Token.Clean])

/-! ## The statement of a batch -/

section Batch

variable {cfg : EnvironmentConfig} {engine : Engine F} {q : SliceQuery}

def boundBranches (cfg : EnvironmentConfig) (engine : Engine F) (q : SliceQuery)
    (slices : List IntegrationSlice) : List (Branch (Arg F)) :=
  (slices.filter fun sl => sl.services ≠ []).map (boundBranch cfg engine q)

theorem openErrorCondition_eq (services : List String) :
    openErrorCondition (F := F) q services =
      ((exclusions (F := F) q services).map fun _ => ((), ()),
        pairArgs (exclusions q services)) := by
  unfold openErrorCondition exclusions pairArgs
  simp only [List.map_map, List.flatMap_map]

theorem addBranch_eq (st : Statement F) {sl : IntegrationSlice} (hservices : sl.services ≠ []) :
    addBranch cfg engine q st sl =
      ⟨st.branches ++ [(boundBranch cfg engine q sl).erase],
        st.args ++ (boundBranch cfg engine q sl).holes⟩ := by
  have hclause : ((attrGroupsClause cfg engine .spanAttributes sl.groups q.start q.stop).map
      Prod.fst, ((attrGroupsClause cfg engine .spanAttributes sl.groups q.start q.stop).map
      Prod.snd).getD []) =
      ((boundBranch cfg engine q sl).clause.map Clause.erase,
        clauseArgs (boundBranch cfg engine q sl).clause) := by
    rw [attrGroupsClause_eq]
    show (_, _) = ((boundGroups cfg engine .spanAttributes sl.groups q.start q.stop).map _,
      clauseArgs (boundGroups cfg engine .spanAttributes sl.groups q.start q.stop))
    cases boundGroups cfg engine .spanAttributes sl.groups q.start q.stop with
    | none => rfl
    | some c => rfl
  obtain ⟨herase, hargs⟩ := Prod.mk.inj hclause
  unfold addBranch
  rw [if_neg hservices, Branch.holes_eq]
  dsimp only
  rw [openErrorCondition_eq, herase, hargs]
  simp only [Branch.erase, boundBranch, List.replicate, List.flatten_cons, List.flatten_nil,
    List.map_map, List.append_assoc, List.cons_append, List.nil_append, List.append_nil]

theorem sliceTraceStatsSQL_eq (slices : List IntegrationSlice) :
    sliceTraceStatsSQL cfg engine q slices =
      ⟨(boundBranches cfg engine q slices).map Branch.erase,
        (boundBranches cfg engine q slices).flatMap Branch.holes⟩ := by
  have hloop (slices : List IntegrationSlice) (st : Statement F) :
      slices.foldl (addBranch cfg engine q) st =
        ⟨st.branches ++ (boundBranches cfg engine q slices).map Branch.erase,
          st.args ++ (boundBranches cfg engine q slices).flatMap Branch.holes⟩ := by
    induction slices generalizing st with
    | nil =>
      show st = ⟨st.branches ++ [], st.args ++ []⟩
      rw [List.append_nil, List.append_nil]
    | cons sl slices ih =>
      rw [List.foldl_cons, ih]
      by_cases hservices : sl.services = []
      · have hskip : boundBranches cfg engine q (sl :: slices) =
            boundBranches cfg engine q slices := by
          simp [boundBranches, hservices]
        rw [hskip, addBranch, if_pos hservices]
      have hcons : boundBranches cfg engine q (sl :: slices) =
          boundBranch cfg engine q sl :: boundBranches cfg engine q slices := by
        simp [boundBranches, hservices]
      rw [hcons, addBranch_eq st hservices, List.map_cons, List.flatMap_cons,
        List.append_assoc, List.append_assoc]
      rfl
  exact (hloop slices ⟨[], []⟩).trans rfl

theorem bind_sliceTraceStatsSQL (slices : List IntegrationSlice) :
    (sliceTraceStatsSQL cfg engine q slices).bind = some (boundBranches cfg engine q slices) := by
  have hfill := fillBranches_erase (boundBranches cfg engine q slices) []
  rw [List.append_nil] at hfill
  rw [sliceTraceStatsSQL_eq]
  unfold Statement.bind
  dsimp only
  rw [hfill]

/-- No filter of the slice writes a question mark of its own. -/
def IntegrationSlice.Unmarked (cfg : EnvironmentConfig) (engine : Engine F)
    (sl : IntegrationSlice) : Prop :=
  ∀ g ∈ sl.groups, ∀ f ∈ g, ¬ f.WritesMark cfg engine

theorem boundBranch_clean_iff (henv : q.byEnvironment = false) (sl : IntegrationSlice) :
    (∀ t ∈ (boundBranch cfg engine q sl).tokens, t.Clean) ↔ sl.Unmarked cfg engine := by
  have hnone : (boundBranch cfg engine q sl).env = none := by
    unfold boundBranch
    rw [henv]
    rfl
  rw [Branch.clean_iff hnone]
  show (∀ clause ∈ boundGroups cfg engine .spanAttributes sl.groups q.start q.stop,
    clause.Clean) ↔ _
  cases hc : boundGroups cfg engine .spanAttributes sl.groups q.start q.stop with
  | none =>
    refine iff_of_true (fun _ h => by cases h) fun g hg f hf => ?_
    rw [boundGroups_eq_none.1 hc g hg] at hf
    cases hf
  | some c =>
    have hclean : c.Clean ↔ sl.Unmarked cfg engine := boundGroups_clean_iff hc
    rw [← hclean]
    exact ⟨fun h => h c rfl, fun h _ hsome => by cases hsome; exact h⟩

theorem balanced_sliceTraceStatsSQL (henv : q.byEnvironment = false)
    (slices : List IntegrationSlice) :
    (sliceTraceStatsSQL cfg engine q slices).balanced ↔
      ∀ sl ∈ slices, sl.services ≠ [] → sl.Unmarked cfg engine := by
  have hcount := @count_placeholders_iff _ (statementTokens (boundBranches cfg engine q slices))
  rw [statementTokens_clean_iff, filterMap_statementTokens, ← text_statementTokens] at hcount
  unfold Statement.balanced Statement.text
  rw [sliceTraceStatsSQL_eq, decide_eq_true_eq, hcount]
  unfold boundBranches
  rw [List.forall_mem_map]
  constructor
  · intro h sl hsl hservices
    refine (boundBranch_clean_iff henv sl).1 (h sl (List.mem_filter.2 ⟨hsl, ?_⟩))
    exact decide_eq_true hservices
  · intro h sl hsl
    obtain ⟨hmem, hservices⟩ := List.mem_filter.1 hsl
    exact (boundBranch_clean_iff henv sl).2 (h sl hmem (of_decide_eq_true hservices))

end Batch

end Sluicio.Store
