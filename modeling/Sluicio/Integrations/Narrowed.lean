import Sluicio.Integrations.Groups

/-!
# Groups narrowed to environments

`WithEnvironments` adds to every group of a list a filter for the environments of a
request.  The filter carries the group's tags, so the narrowed groups have the members of
the list.  What the clause of a list of groups selects is put together here from its parts:
a group's own filters, the lookups below its anchors and the gate.
-/

namespace Sluicio.Integrations

open Store (LogAttrFilter AttrOp Row Span Engine EnvironmentConfig Clause Compiled
  PrimaryMap isSourceGroup groupMemberOf memberGroups memberOrder gated widened attrCond
  attrGroupsClause boundGroup boundOnSpans boundPart boundSubtree boundGate boundGroups
  environmentOf satisfies NothingToMatch)
open Store LogAttrFilter

variable {F : Type}

def environmentPattern (envs : List String) : String :=
  "^(?:" ++ "|".intercalate (envs.map quoteMeta) ++ ")$"

/-- The operator and the value of the filter for these environments. -/
def environmentTest (envs : List String) : AttrOp × String :=
  match envs with
  | [env] => (.eq, env)
  | envs => (.regex, environmentPattern envs)

def addedFilter (envs : List String) (g : List LogAttrFilter) : LogAttrFilter :=
  environmentFilter (environmentTest envs).1 (environmentTest envs).2 g

def groupsToNarrow (groups : List (List LogAttrFilter)) : List (List LogAttrFilter) :=
  if groups = [] then [[]] else groups

/-- The groups of the members among them, numbered. -/
def membersToNarrow (groups : List (List LogAttrFilter)) : List (List LogAttrFilter × Nat) :=
  ((groupsToNarrow groups).filter fun g => !isSourceGroup g).zipIdx

variable {envs : List String}

theorem withEnvironments_eq (henvs : envs ≠ []) (groups : List (List LogAttrFilter)) :
    withEnvironments groups envs =
      (groupsToNarrow groups).map fun g => g ++ [addedFilter envs g] := by
  have hnarrowed : withEnvironments groups envs =
      narrowed (environmentTest envs).1 (environmentTest envs).2 groups := by
    match envs with
    | [] => exact absurd rfl henvs
    | [env] => rfl
    | env :: env' :: envs => rfl
  rw [hnarrowed]
  unfold narrowed groupsToNarrow
  split <;> rfl

theorem isSourceGroup_narrowed (envs : List String) (g : List LogAttrFilter) :
    isSourceGroup (g ++ [addedFilter envs g]) = isSourceGroup g := by
  have hadded : (addedFilter envs g).source = false := by cases g <;> rfl
  simp [isSourceGroup, hadded]

theorem any_requireAllGroups_narrowed (envs : List String) (g : List LogAttrFilter) :
    (g ++ [addedFilter envs g]).any requireAllGroups =
      g.any requireAllGroups := by
  cases g with
  | nil => rfl
  | cons f g =>
    have hadded : (addedFilter envs (f :: g)).requireAllGroups = f.requireAllGroups := rfl
    simp only [List.any_append, List.any_cons, List.any_nil, hadded]
    cases f.requireAllGroups <;> simp

theorem any_descendants_narrowed (envs : List String) (g : List LogAttrFilter) :
    (g ++ [addedFilter envs g]).any descendants =
      g.any descendants := by
  have hadded : (addedFilter envs g).descendants = false := by cases g <;> rfl
  simp [hadded]

theorem groupMemberOf_narrowed (envs : List String) (g : List LogAttrFilter) (index : Nat) :
    groupMemberOf (g ++ [addedFilter envs g]) index = groupMemberOf g index := by
  have hmember : (g ++ [addedFilter envs g]).findSome? member =
      g.findSome? member := by
    cases g with
    | nil => rfl
    | cons f g =>
      have hadded : (addedFilter envs (f :: g)).member = f.member := rfl
      cases hf : f.member with
      | some m => simp [hf]
      | none => simp [List.findSome?_append, hf, hadded]
  unfold groupMemberOf
  rw [hmember]

theorem memberGroups_withEnvironments (henvs : envs ≠ []) (groups : List (List LogAttrFilter)) :
    memberGroups (withEnvironments groups envs) =
      (membersToNarrow groups).map fun x => (x.1 ++ [addedFilter envs x.1], x.2) := by
  have hfilter : (withEnvironments groups envs).filter (fun g => !isSourceGroup g) =
      ((groupsToNarrow groups).filter fun g => !isSourceGroup g).map
        fun g => g ++ [addedFilter envs g] := by
    rw [withEnvironments_eq henvs, List.filter_map]
    refine congrArg (List.map _) (List.filter_congr fun g _ => ?_)
    simp only [Function.comp_apply, isSourceGroup_narrowed]
  rw [memberGroups, hfilter, List.zipIdx_map, List.filter_eq_self.2]
  · rfl
  · intro x hx
    obtain ⟨y, _, rfl⟩ := List.mem_map.1 hx
    simp

theorem sourceGroups_withEnvironments (henvs : envs ≠ []) (groups : List (List LogAttrFilter)) :
    (withEnvironments groups envs).filter isSourceGroup =
      (groups.filter isSourceGroup).map fun g => g ++ [addedFilter envs g] := by
  have hsources : (groupsToNarrow groups).filter isSourceGroup = groups.filter isSourceGroup := by
    unfold groupsToNarrow
    split
    · next hnil =>
      rw [hnil]
      rfl
    · rfl
  rw [withEnvironments_eq henvs, List.filter_map, ← hsources]
  refine congrArg (List.map _) (List.filter_congr fun g _ => ?_)
  simp only [Function.comp_apply, isSourceGroup_narrowed]

theorem gated_narrowed (envs : List String) (table : PrimaryMap) (start stop : Int)
    (ms : List (List LogAttrFilter × Nat)) :
    gated table start stop (ms.map fun x => (x.1 ++ [addedFilter envs x.1], x.2)) =
      gated table start stop ms := by
  have horder : memberOrder (ms.map fun x => (x.1 ++ [addedFilter envs x.1], x.2)) =
      memberOrder ms := by
    unfold memberOrder
    rw [List.map_map]
    simp only [Function.comp_def, groupMemberOf_narrowed]
  have hany : (ms.map fun x => (x.1 ++ [addedFilter envs x.1], x.2)).any
      (fun x => x.1.any requireAllGroups) =
      ms.any fun x => x.1.any requireAllGroups := by
    rw [List.any_map]
    simp only [Function.comp_def, any_requireAllGroups_narrowed]
  unfold gated
  rw [horder, hany]

theorem widened_narrowed (envs : List String) (table : PrimaryMap) (start stop : Int)
    (g : List LogAttrFilter) :
    widened table start stop (g ++ [addedFilter envs g]) = widened table start stop g := by
  unfold widened
  rw [any_descendants_narrowed]

section Meaning

variable (cfg : EnvironmentConfig) (engine : Engine F)

def Meets (g : List LogAttrFilter) (row : Row) : Prop :=
  ∀ f ∈ g, (attrCond cfg engine row.table f).eval engine row = .yes

/-- The pattern matches the environments' names and nothing else. -/
def MatchesNames (envs : List String) : Prop :=
  2 ≤ envs.length → ∀ s, engine.regex s (environmentPattern envs) ↔ s ∈ envs

variable {cfg engine} {g : List LogAttrFilter} {table : PrimaryMap} {row : Row} {traces : List Span}
  {ms : List (List LogAttrFilter × Nat)}

theorem boundGroup_yes :
    (boundGroup cfg engine row.table g).eval engine traces (.row row) = .yes ↔
      Meets cfg engine g row := by
  rw [boundGroup, Clause.eval_all, List.forall_mem_map]
  rfl

theorem boundOnSpans_yes {s : Span} (table : PrimaryMap) :
    (boundOnSpans cfg engine table g).eval engine traces (.row (.span s)) = .yes ↔
      Meets cfg engine g (.span s) := by
  have hspan : (boundGroup cfg engine (Row.span s).table g).eval engine traces
      (.row (.span s)) = .yes ↔ Meets cfg engine g (.span s) := boundGroup_yes
  unfold boundOnSpans
  split
  · exact hspan
  · rw [Clause.eval_any]
    simp only [List.mem_singleton, exists_eq_left]
    exact hspan

theorem addedFilter_yes {envs : List String} (henvs : envs ≠ [])
    (hnames : MatchesNames engine envs) (g : List LogAttrFilter) (row : Row) :
    (attrCond cfg engine row.table (addedFilter envs g)).eval engine row = .yes ↔
      environmentOf cfg row ∈ envs := by
  have hkey : (addedFilter envs g).key = environmentAttrKey := by cases g <;> rfl
  have hop : (addedFilter envs g).op = (environmentTest envs).1 := by cases g <;> rfl
  have hvalue : (addedFilter envs g).value = (environmentTest envs).2 := by cases g <;> rfl
  have hexpr : attrExpr cfg row.table environmentAttrKey = .environment cfg :=
    if_pos rfl
  unfold attrCond
  dsimp only
  rw [hkey, hop, hvalue, hexpr]
  match envs, henvs, hnames with
  | [env], _, _ =>
    show Store.Truth.ofBool (decide (environmentOf cfg row = env)) = .yes ↔ _
    simp
  | env :: env' :: envs, _, hnames =>
    have hmatch := hnames (by simp) (environmentOf cfg row)
    show Store.Truth.ofBool (engine.regex (environmentOf cfg row)
      (environmentPattern (env :: env' :: envs))) = .yes ↔ _
    rw [Store.Truth.ofBool_eq_yes]
    exact hmatch

theorem meets_narrowed {envs : List String} (henvs : envs ≠ [])
    (hnames : MatchesNames engine envs) :
    Meets cfg engine (g ++ [addedFilter envs g]) row ↔
      Meets cfg engine g row ∧ environmentOf cfg row ∈ envs := by
  unfold Meets
  rw [← addedFilter_yes henvs hnames g row]
  simp only [List.mem_append, List.mem_singleton, or_imp, forall_and, forall_eq]

/-! ## What a part of the union selects -/

variable {traces : List Span} {row : Row} {start stop : Int}

theorem anchor_of_boundSubtree
    (h : (boundSubtree cfg engine table start stop g).eval engine traces (.row row) = .yes) :
    start ≤ stop ∧ ∃ a ∈ traces, Meets cfg engine g (.span a) := by
  rw [boundSubtree, Clause.eval, Store.Truth.ofBool_eq_yes] at h
  cases hrow : row.trace with
  | none => simp [hrow] at h
  | some id =>
    rw [hrow] at h
    dsimp only at h
    simp only [inSubtree, decide_eq_true_eq, Lib.mem_descend_min, List.mem_map,
      List.mem_filter] at h
    obtain ⟨_, ⟨a, ⟨hgathered, hanchor⟩, _⟩, _⟩ := h
    obtain ⟨ha, hinside⟩ := List.mem_filter.1 hgathered
    have hwithin : start ≤ a.timestamp ∧ a.timestamp ≤ stop := by
      simp only [Bool.and_eq_true, decide_eq_true_eq] at hinside
      simpa [within] using hinside.1.1
    exact ⟨Int.le_trans hwithin.1 hwithin.2, a, ha, (boundOnSpans_yes table).1 hanchor⟩

/-- The part is a lookup and nothing else. -/
def LookupOnly (table : PrimaryMap) (start stop : Int) (g : List LogAttrFilter) : Prop :=
  widened table start stop g ∧ table = .spanAttributes

theorem boundPart_cases
    (h : (boundPart cfg engine row.table start stop g).eval engine traces (.row row) = .yes) :
    (Meets cfg engine g row ∧ ¬ LookupOnly row.table start stop g) ∨
      (widened row.table start stop g ∧ start ≤ stop ∧
        ∃ a ∈ traces, Meets cfg engine g (.span a)) := by
  unfold boundPart at h
  split at h
  · next hwidened =>
    split at h
    · exact .inr ⟨hwidened, anchor_of_boundSubtree h⟩
    · next htable =>
      rw [Clause.eval_any] at h
      obtain ⟨part, hpart, heval⟩ := h
      rcases List.mem_cons.1 hpart with rfl | hpart
      · exact .inl ⟨boundGroup_yes.1 heval, fun hlookup => htable hlookup.2⟩
      · rw [List.mem_singleton.1 hpart] at heval
        exact .inr ⟨hwidened, anchor_of_boundSubtree heval⟩
  · next hplain => exact .inl ⟨boundGroup_yes.1 h, fun hlookup => hplain hlookup.1⟩

theorem boundPart_of_meets (h : Meets cfg engine g row)
    (hplain : ¬ LookupOnly row.table start stop g) :
    (boundPart cfg engine row.table start stop g).eval engine traces (.row row) = .yes := by
  unfold boundPart
  split
  · next hwidened =>
    rw [if_neg fun htable => hplain ⟨hwidened, htable⟩, Clause.eval_any]
    exact ⟨_, List.mem_cons_self, boundGroup_yes.2 h⟩
  · exact boundGroup_yes.2 h

theorem spans_of_boundGate
    (h : (boundGate cfg engine table start stop ms).eval engine traces (.row row) = .yes) :
    ∀ x ∈ ms, ∃ y ∈ ms, groupMemberOf y.1 y.2 = groupMemberOf x.1 x.2 ∧
      ∃ s ∈ traces, Meets cfg engine y.1 (.span s) := by
  rw [boundGate, Clause.eval, Store.Truth.ofBool_eq_yes] at h
  cases hrow : row.trace with
  | none => simp [hrow] at h
  | some id =>
    rw [hrow] at h
    dsimp only at h
    rw [Bool.and_eq_true, decide_eq_true_eq, Clause.evalList_eq, Store.Truth.all_eq_yes] at h
    intro x hx
    have hmember : groupMemberOf x.1 x.2 ∈ memberOrder ms :=
      List.mem_eraseDups.2 (List.mem_map_of_mem hx)
    have hhaving := h.2 _ (List.mem_map_of_mem (List.mem_map_of_mem hmember))
    rw [boundHaving, alternatives_eval] at hhaving
    obtain ⟨alt, halt, hcount⟩ := hhaving
    obtain ⟨y, hy, rfl⟩ := List.mem_map.1 halt
    obtain ⟨hy, hsame⟩ := List.mem_filter.1 hy
    obtain ⟨s, hs, hmeets⟩ := Clause.eval_countIf.1 hcount
    exact ⟨y, hy, by simpa using hsame, s, (List.mem_filter.1 hs).1,
      (boundOnSpans_yes table).1 hmeets⟩

/-! ## What the clause selects -/

/-- The rows a query with the clause reads: with no clause, every row. -/
def matched (engine : Engine F) (traces : List Span) (row : Row) (compiled : Compiled F) :
    Bool :=
  compiled.isNone || satisfies engine traces row compiled

def ByMembers (cfg : EnvironmentConfig) (engine : Engine F) (traces : List Span)
    (ms : List (List LogAttrFilter × Nat)) (start stop : Int) (row : Row) : Prop :=
  (∃ x ∈ ms, (boundPart cfg engine row.table start stop x.1).eval engine traces (.row row) = .yes) ∧
    (gated row.table start stop ms →
      (boundGate cfg engine row.table start stop ms).eval engine traces (.row row) = .yes)

theorem boundMembers_yes :
    (∃ c, boundMembers cfg engine row.table start stop ms = some c ∧
        c.eval engine traces (.row row) = .yes) ↔
      ByMembers cfg engine traces ms start stop row := by
  unfold boundMembers ByMembers
  split
  · next hempty =>
    rw [List.isEmpty_iff] at hempty
    simp [hempty]
  · dsimp only
    have hunion : (Clause.any (ms.map fun x => boundPart cfg engine row.table start stop x.1)).eval
        engine traces (.row row) = .yes ↔
        ∃ x ∈ ms, (boundPart cfg engine row.table start stop x.1).eval engine traces
          (.row row) = .yes := by
      rw [Clause.eval_any]
      simp only [List.mem_map, exists_exists_and_eq_and]
    split
    · next hgated =>
      simp only [Option.some.injEq, exists_eq_left', Clause.eval_all, List.mem_cons,
        List.not_mem_nil, or_false, forall_eq_or_imp, forall_eq, hunion, hgated, true_imp_iff]
    · next hgated =>
      simp only [Option.some.injEq, exists_eq_left', hunion, hgated, Bool.false_eq_true,
        false_imp_iff, and_true]

theorem matched_iff (groups : List (List LogAttrFilter)) :
    matched engine traces row (attrGroupsClause cfg engine row.table groups start stop) ↔
      NothingToMatch groups ∨ ByMembers cfg engine traces (memberGroups groups) start stop row ∨
        ∃ g ∈ groups.filter isSourceGroup, Meets cfg engine g row := by
  have hsome : matched engine traces row
      (attrGroupsClause cfg engine row.table groups start stop) ↔
      boundGroups cfg engine row.table groups start stop = none ∨
        ∃ c, boundGroups cfg engine row.table groups start stop = some c ∧
          c.eval engine traces (.row row) = .yes := by
    rw [attrGroupsClause_eq]
    cases boundGroups cfg engine row.table groups start stop with
    | none => simp [matched]
    | some c => simp [matched, satisfies, bind_emit]
  have hsources : (∃ c ∈ (groups.filter isSourceGroup).map (boundGroup cfg engine row.table),
      c.eval engine traces (.row row) = .yes) ↔
      ∃ g ∈ groups.filter isSourceGroup, Meets cfg engine g row := by
    simp only [List.mem_map, exists_exists_and_eq_and, boundGroup_yes]
  rw [hsome, boundGroups_eq_none, ← boundMembers_yes, ← hsources]
  refine or_congr_right ?_
  unfold boundGroups
  dsimp only
  by_cases hempty : ((groups.filter isSourceGroup).map (boundGroup cfg engine row.table)).isEmpty
  · rw [if_pos hempty, List.isEmpty_iff.1 hempty]
    simp
  rw [if_neg hempty]
  cases boundMembers cfg engine row.table start stop (memberGroups groups) with
  | none => simp only [Option.some.injEq, exists_eq_left', Clause.eval_any, reduceCtorEq,
      false_and, exists_false, false_or]
  | some clause => simp only [Option.some.injEq, exists_eq_left', Clause.eval_any,
      List.mem_cons, exists_eq_or_imp]

end Meaning

end Sluicio.Integrations
