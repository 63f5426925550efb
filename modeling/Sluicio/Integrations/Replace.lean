import Sluicio.Integrations.Sources
import Sluicio.Lib.Replace

/-!
# Saving a whole collection

Four stores replace a collection of their owner in one transaction, delete and then insert.
`ReplaceMatchers` locks the integration first.  `ReplaceSources` has no unique key,
`replaceValues` has one and `ReplaceForService` overwrites on it; these three lock nothing.
-/

namespace Sluicio.Integrations

open Lib Lib.Replace

/-- `integration_matchers`, of one integration. -/
def matchersTable : Table GroupedMatcher Unit where
  key := fun _ => ()
  onConflict := .insert
  locks := true

/-- `integration_sources`, of one integration: the sources with their positions. -/
def sourcesTable : Table (Source × Nat) Unit where
  key := fun _ => ()
  onConflict := .insert
  locks := false

/-- `integration_metadata`, `service_metadata_extras` or `system_metadata`, of one owner: a
value for a field. -/
def valuesTable : Table (UUID × String) UUID where
  key := Prod.fst
  onConflict := .fail
  locks := false

inductive OverrideAction where
  | include | exclude
  deriving DecidableEq

/-- `service_facet_overrides`, of one service: an action for a facet. -/
def overridesTable : Table (String × OverrideAction) String where
  key := Prod.fst
  onConflict := .update
  locks := false

/-- The four of them. -/
inductive Collection where
  | matchers | sources | values | overrides

def Collection.Row : Collection → Type
  | .matchers => GroupedMatcher
  | .sources => Source × Nat
  | .values => UUID × String
  | .overrides => String × OverrideAction

def Collection.Key : Collection → Type
  | .matchers | .sources => Unit
  | .values => UUID
  | .overrides => String

instance : (c : Collection) → DecidableEq c.Key
  | .matchers => inferInstanceAs (DecidableEq Unit)
  | .sources => inferInstanceAs (DecidableEq Unit)
  | .values => inferInstanceAs (DecidableEq UUID)
  | .overrides => inferInstanceAs (DecidableEq String)

def Collection.table : (c : Collection) → Table c.Row c.Key
  | .matchers => matchersTable
  | .sources => sourcesTable
  | .values => valuesTable
  | .overrides => overridesTable

/-- What the steps of a run have to meet: nothing where the owner is locked. -/
def Collection.Meets : (c : Collection) → Replace.State c.Row → Replace.Action c.Row → Prop
  | .matchers => fun _ _ => True
  | .sources => SawAll
  | .values => SawAll
  | .overrides => SawAll

/-! ## What is stored -/

/-- Replace means replace, in every run whose steps all meet a condition; and whatever the run,
only a commit changes what is stored. -/
structure Replaces {α κ : Type} [DecidableEq κ] (t : Table α κ)
    (cond : Replace.State α → Replace.Action α → Prop) : Prop where
  stored : ∀ initial as, StepsMeet (step t) cond (start initial) as →
    Replaced t initial (run (step t) (start initial) as)
  failed : ∀ s a, (step t s a).committed = s.committed → (step t s a).rows = s.rows

section

variable {α κ : Type} [DecidableEq κ] {t : Table α κ}

theorem replaces_of_locks (hlocks : t.locks) : Replaces t fun _ _ => True where
  stored initial as _ := replaced_of_locks hlocks initial as
  failed _ a h := rows_step a h

theorem replaces_of_sawAll (t : Table α κ) : Replaces t SawAll where
  stored _ _ h := replaced_of_sawAll h
  failed _ a h := rows_step a h

end

/-- **Replace means replace.**  With its lock, `ReplaceMatchers` leaves what one of the
transactions asked for in every run.  The other three do in every run in which no transaction
commits over a row that its `DELETE` did not see and that it has not overwritten.  Whatever the
run, only a commit changes what is stored. -/
theorem replaces (c : Collection) (initial : List c.Row) (as : List (Replace.Action c.Row))
    (h : StepsMeet (step c.table) c.Meets (start initial) as) :
    Replaced c.table initial (run (step c.table) (start initial) as) ∧
      ∀ s a, (step c.table s a).committed = s.committed → (step c.table s a).rows = s.rows := by
  have hreplaces : Replaces c.table c.Meets := by
    cases c with
    | matchers => exact replaces_of_locks rfl
    | sources => exact replaces_of_sawAll sourcesTable
    | values => exact replaces_of_sawAll valuesTable
    | overrides => exact replaces_of_sawAll overridesTable
  exact ⟨hreplaces.stored initial as h, hreplaces.failed⟩

def NoneFails {α : Type} (_ : Replace.State α) : Replace.Action α → Prop
  | .next _ ok => ok
  | .begin _ _ => True

instance {α : Type} (s : Replace.State α) : DecidablePred (NoneFails s) := fun a => by
  cases a <;> unfold NoneFails <;> infer_instance

/-! Two transactions that each save one row, of a broker's logs and of its metrics, of two
fields, and of two facets. -/

private def brokerLogs : Source := { signal := .logs, origin := .service "broker" }

private def brokerMetrics : Source := { signal := .metrics, origin := .service "broker" }

private def statements {α : Type} (call : Nat) : List (Replace.Action α) :=
  List.replicate 5 (.next call true)

private def oneAfterTheOther {α : Type} (x y : α) : List (Replace.Action α) :=
  .begin 1 [x] :: .begin 2 [y] :: statements 1 ++ statements 2

private def inTurn {α : Type} (x y : α) : List (Replace.Action α) :=
  [.begin 1 [x], .begin 2 [y]] ++ (List.replicate 5 [.next 1 true, .next 2 true]).flatten

theorem replaced_oneAfterTheOther :
    Replaced sourcesTable [] (run (step sourcesTable) (start [])
      (oneAfterTheOther (brokerLogs, 0) (brokerMetrics, 0))) :=
  have hmeet : StepsMeet (step sourcesTable) SawAll (start [])
      (oneAfterTheOther (brokerLogs, 0) (brokerMetrics, 0)) := by decide +kernel
  (replaces .sources [] _ hmeet).1

/-- Both succeed, and what is stored is neither's: both rows are there. -/
theorem not_replaces :
    ¬ Replaces sourcesTable NoneFails ∧ ¬ Replaces valuesTable NoneFails ∧
    ¬ Replaces overridesTable NoneFails := by
  refine ⟨fun h => ?_, fun h => ?_, fun h => ?_⟩
  · have hone := (h.stored [] (inTurn (brokerLogs, 0) (brokerMetrics, 0))
      (by decide +kernel)).one
    revert hone
    decide +kernel
  · have hone := (h.stored [] (inTurn (1, "ada") (2, "broker")) (by decide +kernel)).one
    revert hone
    decide +kernel
  · have hone := (h.stored [] (inTurn ("queues", .include) ("topics", .exclude))
      (by decide +kernel)).one
    revert hone
    decide +kernel

end Sluicio.Integrations
