import Sluicio.Facetmappings.Resolver

/-!
# The spans a widget considers

A `SpanFilter` is rendered as a fragment of a WHERE clause with positional arguments, with
the resolver's expressions in the place of `io.kind` and `io.role`.
-/

namespace Sluicio.Servicetypes

open Demand (Mapping)
open Facetmappings
open Lib Fragment

structure SpanAttrEqual where
  key : String
  value : String

structure SpanFilter where
  spanKinds : List String := []
  hasSpanAttrAny : List String := []
  attrEquals : List SpanAttrEqual := []

def kindsPart (kinds : List String) : Part :=
  (node .isIn (column .spanKind :: kinds.map fun _ => hole), kinds.map .str)

def presentPart (keys : List String) : Part :=
  (node .parens
      [node .or (keys.map fun _ => node (.call .mapContains) [column .spanAttributes, hole])],
    keys.map .str)

def equalsPart (resolver : Resolver) (e : SpanAttrEqual) : Part :=
  match e.key with
  | "io.kind" =>
    (node .equal [node .parens [resolver.kindExpr], hole], resolver.kindArgs ++ [.str e.value])
  | "io.role" =>
    (node .equal [node .parens [resolver.roleExpr], hole], resolver.roleArgs ++ [.str e.value])
  | _ =>
    (node .equal [node .index [column .spanAttributes, hole], hole],
      [.str e.key, .str e.value])

def SpanFilter.parts (f : SpanFilter) (resolver : Resolver) : List Part :=
  (if f.spanKinds = [] then [] else [kindsPart f.spanKinds]) ++
  (if f.hasSpanAttrAny = [] then [] else [presentPart f.hasSpanAttrAny]) ++
  f.attrEquals.map (equalsPart resolver)

/-- `SpanFilter.SQL`: the fragment, empty when the filter is, and its arguments. -/
def SpanFilter.sql (f : SpanFilter) (resolver : Resolver) : Part :=
  (node .and ((f.parts resolver).map Prod.fst), (f.parts resolver).flatMap Prod.snd)

def valueOf (mappings : List Mapping) (s : Facetmappings.Span) (key : String) : String :=
  match key with
  | "io.kind" => effectiveKind mappings s
  | "io.role" => effectiveRole mappings s
  | _ => entry s.spanAttributes key

structure SpanFilter.Satisfied (f : SpanFilter) (mappings : List Mapping)
    (s : Facetmappings.Span) : Prop where
  kinds : f.spanKinds ≠ [] → s.spanKind ∈ f.spanKinds
  present : f.hasSpanAttrAny ≠ [] → ∃ k ∈ f.hasSpanAttrAny, (s.spanAttributes.lookup k).isSome
  equals : ∀ e ∈ f.attrEquals, valueOf mappings s e.key = e.value

def Asks (part : Part) (holds : Facetmappings.Span → Bool) : Prop :=
  part.1.Answers clickhouse part.2 fun s => .bool (holds s)

theorem asks_kindsPart (kinds : List String) :
    Asks (kindsPart kinds) fun s => kinds.contains s.spanKind := by
  let bounds : List (Bound Operator Value Facetmappings.Span) :=
    ⟨column .spanKind, [], Column.spanKind.value⟩ ::
      kinds.map fun k => ⟨hole, [.str k], fun _ => .str k⟩
  have hsound : ∀ b ∈ bounds, b.Sound clickhouse := by
    simp only [bounds, List.forall_mem_cons, List.forall_mem_map]
    exact ⟨answers_column .spanKind, fun k _ => answers_hole _⟩
  have hplain : Plain clickhouse .isIn bounds.length := by
    simpa [bounds] using plain_isIn kinds.length
  have hvalue (s : Facetmappings.Span) :
      clickhouse.value .isIn s (bounds.map fun b => b.value s) =
        some (.bool (kinds.contains s.spanKind)) := by
    simp [bounds, clickhouse, Operator.value, Column.value, isIn, Function.comp_def]
  have hnode := answers_node hsound hplain hvalue
  have hargs : bounds.flatMap Bound.args = kinds.map .str := flatMap_args kinds fun _ => rfl
  rw [hargs] at hnode
  simpa [bounds, Asks, kindsPart, Function.comp_def] using hnode

theorem mapM_truth {α : Type} (xs : List α) (holds : α → Bool) :
    (xs.map fun x => Value.bool (holds x)).mapM truth = some (xs.map holds) := by
  induction xs with
  | nil => rfl
  | cons x xs ih => simp [truth, ih]

theorem asks_presentPart (keys : List String) :
    Asks (presentPart keys) fun s => keys.any fun k => (s.spanAttributes.lookup k).isSome := by
  let part : Sql := node (.call .mapContains) [column .spanAttributes, hole]
  let bounds : List (Bound Operator Value Facetmappings.Span) :=
    keys.map fun k => ⟨part, [.str k], fun s => .bool (s.spanAttributes.lookup k).isSome⟩
  have hsound : ∀ b ∈ bounds, b.Sound clickhouse := by
    simp only [bounds, List.forall_mem_map]
    intro k _
    exact answers_pair (answers_column .spanAttributes) (answers_hole (Value.str k))
      (plain_call .mapContains 2) fun _ => rfl
  have hvalue (s : Facetmappings.Span) :
      clickhouse.value .or s (bounds.map fun b => b.value s) =
        some (.bool (keys.any fun k => (s.spanAttributes.lookup k).isSome)) := by
    simp only [bounds, clickhouse, Operator.value, anyOf, List.map_map, Function.comp_def,
      mapM_truth, Option.map_some, List.any_map, id]
  have hor := answers_node hsound (plain_joined (fun _ => rfl) (by decide) _) hvalue
  have hparens : Plain clickhouse .parens 1 := ⟨by decide, rfl⟩
  have hnode := answers_one hor hparens fun _ => rfl
  have hargs : bounds.flatMap Bound.args = keys.map .str := flatMap_args keys fun _ => rfl
  rw [hargs] at hnode
  simpa [bounds, part, Asks, presentPart, Function.comp_def] using hnode

theorem asks_equalsPart (mappings : List Mapping) (e : SpanAttrEqual) :
    Asks (equalsPart (buildResolver mappings) e) fun s => valueOf mappings s e.key = e.value := by
  have hvalue : Answers clickhouse hole [.str e.value] fun _ => .str e.value := answers_hole _
  have hequal : Plain clickhouse .equal 2 := plain_binary (by simp)
  have hparens : Plain clickhouse .parens 1 := ⟨by decide, rfl⟩
  unfold Asks equalsPart valueOf
  split
  · have hkind := answers_one (answers_kindExpr mappings) hparens fun _ => rfl
    exact answers_pair hkind hvalue hequal fun _ => rfl
  · have hrole := answers_one (answers_roleExpr mappings) hparens fun _ => rfl
    exact answers_pair hrole hvalue hequal fun _ => rfl
  · have hkey : Answers clickhouse hole [.str e.key] fun _ => .str e.key := answers_hole _
    have hindex : Answers clickhouse (node .index [column .spanAttributes, hole]) [.str e.key]
        fun s => .str (entry s.spanAttributes e.key) :=
      answers_pair (answers_column .spanAttributes) hkey (plain_binary (.inl rfl)) fun _ => rfl
    exact answers_pair hindex hvalue hequal fun _ => rfl

/-! ## Filters -/

def SpanFilter.properties (f : SpanFilter) (mappings : List Mapping) :
    List (Part × (Facetmappings.Span → Bool)) :=
  (if f.spanKinds = [] then []
    else [(kindsPart f.spanKinds,
      fun s : Facetmappings.Span => f.spanKinds.contains s.spanKind)]) ++
  (if f.hasSpanAttrAny = [] then []
    else [(presentPart f.hasSpanAttrAny,
      fun s : Facetmappings.Span =>
        f.hasSpanAttrAny.any fun k => (s.spanAttributes.lookup k).isSome)]) ++
  f.attrEquals.map fun e =>
    (equalsPart (buildResolver mappings) e, fun s => decide (valueOf mappings s e.key = e.value))

theorem SpanFilter.asks_properties (f : SpanFilter) (mappings : List Mapping) :
    ∀ p ∈ f.properties mappings, Asks p.1 p.2 := by
  intro p hp
  simp only [properties, List.mem_append, List.mem_map] at hp
  rcases hp with (hp | hp) | ⟨e, -, rfl⟩
  · split at hp
    · exact absurd hp List.not_mem_nil
    · rw [List.mem_singleton.1 hp]
      exact asks_kindsPart f.spanKinds
  · split at hp
    · exact absurd hp List.not_mem_nil
    · rw [List.mem_singleton.1 hp]
      exact asks_presentPart f.hasSpanAttrAny
  · exact asks_equalsPart mappings e

theorem SpanFilter.parts_eq (f : SpanFilter) (mappings : List Mapping) :
    f.parts (buildResolver mappings) = (f.properties mappings).map Prod.fst := by
  unfold parts properties
  rw [List.map_append, List.map_append, List.map_map]
  congr 1
  congr 1
  · split <;> rfl
  · split <;> rfl

theorem SpanFilter.asks_sql (f : SpanFilter) (mappings : List Mapping) :
    Asks (f.sql (buildResolver mappings)) fun s => (f.properties mappings).all fun p => p.2 s := by
  let bounds : List (Bound Operator Value Facetmappings.Span) :=
    (f.properties mappings).map fun p => ⟨p.1.1, p.1.2, fun s => .bool (p.2 s)⟩
  have hsound : ∀ b ∈ bounds, b.Sound clickhouse := by
    simp only [bounds, List.forall_mem_map]
    exact f.asks_properties mappings
  have hvalue (s : Facetmappings.Span) :
      clickhouse.value .and s (bounds.map fun b => b.value s) =
        some (.bool ((f.properties mappings).all fun p => p.2 s)) := by
    simp only [bounds, clickhouse, Operator.value, allOf, List.map_map, Function.comp_def,
      mapM_truth, Option.map_some, List.all_map, id]
  have hnode := answers_node hsound (plain_joined (fun _ => rfl) (by decide) _) hvalue
  simpa [bounds, Asks, SpanFilter.sql, f.parts_eq, Function.comp_def, List.flatMap_map] using hnode

theorem SpanFilter.satisfied_iff (f : SpanFilter) (mappings : List Mapping)
    (s : Facetmappings.Span) :
    f.Satisfied mappings s ↔ ((f.properties mappings).all fun p => p.2 s) := by
  have hkinds : ((if f.spanKinds = [] then [] else [(kindsPart f.spanKinds,
      fun s : Facetmappings.Span => f.spanKinds.contains s.spanKind)]).all fun p => p.2 s) ↔
      (f.spanKinds ≠ [] → s.spanKind ∈ f.spanKinds) := by
    split <;> simp_all
  have hpresent : ((if f.hasSpanAttrAny = [] then [] else [(presentPart f.hasSpanAttrAny,
      fun s : Facetmappings.Span =>
        f.hasSpanAttrAny.any fun k => (s.spanAttributes.lookup k).isSome)]).all
          fun p => p.2 s) ↔
      (f.hasSpanAttrAny ≠ [] → ∃ k ∈ f.hasSpanAttrAny, (s.spanAttributes.lookup k).isSome) := by
    split <;> simp_all
  rw [properties, List.all_append, List.all_append, Bool.and_eq_true,
    Bool.and_eq_true, hkinds, hpresent]
  simp only [List.all_map, List.all_eq_true, Function.comp_apply, decide_eq_true_eq]
  exact ⟨fun h => ⟨⟨h.kinds, h.present⟩, h.equals⟩, fun h => ⟨h.1.1, h.1.2, h.2⟩⟩

/-- **Facet mappings compile to their meaning**: the fragment a filter is rendered as has as
many `?` as arguments, and with the arguments bound from left to right it holds of exactly
the spans that satisfy every constraint of the filter. -/
theorem sql_means (mappings : List Mapping) (f : SpanFilter) (s : Facetmappings.Span) :
    ((f.sql (buildResolver mappings)).1.text clickhouse).toList.count '?' =
        (f.sql (buildResolver mappings)).2.length ∧
      ∃ b, (f.sql (buildResolver mappings)).1.read clickhouse s
            (f.sql (buildResolver mappings)).2 = some (.bool b, []) ∧
        (b ↔ f.Satisfied mappings s) := by
  have hasks := f.asks_sql mappings
  have hread := hasks.read s []
  rw [List.append_nil] at hread
  exact ⟨hasks.holes, _, hread, (f.satisfied_iff mappings s).symm⟩

private def queueMapping : Mapping :=
  { id := 1, serviceName := "orders", attributeSource := .resource, attributeKey := "mq"
    matchOperator := .exists, setIOKind := "queue", setIORole := "input" }

example : (SpanFilter.sql { spanKinds := ["Server", "Client"], attrEquals := [⟨"io.kind", "queue"⟩] }
    (buildResolver [queueMapping])).1.text clickhouse =
      "SpanKind IN (?,?) AND (coalesce(nullIf(SpanAttributes['io.kind'], ''), " ++
        "CASE WHEN ResourceAttributes[?] != '' THEN ? ELSE '' END)) = ?" := by
  decide +kernel

end Sluicio.Servicetypes
