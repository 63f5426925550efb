import Sluicio.Catalog
import Sluicio.Lib.Encoding
import Sluicio.Lib.Sql

/-!
# The filter on the telemetry tables

Every read of `traces`, `logs` and `metrics` goes through the server's setting
`additional_table_filters`: a map from a table to a condition on its rows.  The setting is
one text.  The condition, which has literals of its own, stands in it as a literal.

`readFilters` reads the setting the way the server does: the map and its literals first,
and then each condition as SQL.  What `WithTableFilter` writes is read as the conditions it
was given (`readFilters_tableFilters`).
-/

namespace Sluicio.Clickhouse

open Lib
open Lib.Sql (Expr WrittenAs)

/-- `uuid.String`. -/
def uuidText (id : UUID) : Bytes := ascii (String.ofList (groupedHex id))

/-- What a context carries of a request: the organization of its principal, and the setting
its queries are run with. -/
structure Context where
  orgID : Option UUID
  additionalTableFilters : Option Bytes

def orgFilteredTables : List Bytes := [ascii "traces", ascii "logs", ascii "metrics"]

/-- The organization's condition and the caller's, of those that are given. -/
def conditions (org extra : Bytes) : List Bytes :=
  (if org ≠ [] then [ascii "OrganizationId = " ++ literal quotesDoubled org] else []) ++
    if extra ≠ [] then [ascii "(" ++ extra ++ ascii ")"] else []

/-- The condition under the name of each table. -/
def tableFilters (inner : Bytes) : Bytes :=
  ascii "\x7b" ++
    ((ascii ",").intercalate (orgFilteredTables.map fun t =>
      ascii "'" ++ t ++ ascii "':" ++ literal doubled inner)) ++
    ascii "\x7d"

/-- `WithTableFilter`.  The setting of the context is replaced, not added to. -/
def withTableFilter (ctx : Context) (org extra : Bytes) : Context :=
  if conditions org extra = [] then ctx
  else
    ⟨ctx.orgID, some (tableFilters ((ascii " AND ").intercalate (conditions org extra)))⟩

def withOrgFilter (ctx : Context) (org : Bytes) : Context := withTableFilter ctx org []

/-! ## Reading it -/

/-- The conditions of a setting, with the table each is for. -/
def readFilters (setting : Bytes) : Option (List (Bytes × Expr)) :=
  (readMap setting).bind fun entries =>
    entries.mapM fun entry => (Sql.parse entry.2).map fun e => (entry.1, e)

/-- A row of a telemetry table, as the conditions see it. -/
structure TelemetryRow where
  organizationId : Bytes
  environment : Bytes
  resourceAttributes : Bytes → Bytes

def TelemetryRow.columns (row : TelemetryRow) : Sql.Row := fun name =>
  if name = ascii "OrganizationId" then some (.str row.organizationId)
  else if name = ascii "Environment" then some (.str row.environment)
  else if name = ascii "ResourceAttributes" then some (.map row.resourceAttributes)
  else none

/-- The setting is a condition on the telemetry tables and on no others, and the rows it
leaves are those that meet `p`. -/
def Filters (setting : Option Bytes) (p : TelemetryRow → Prop) : Prop :=
  ∃ text e, setting = some text ∧ readFilters text = some (orgFilteredTables.map (·, e)) ∧
    ∀ row : TelemetryRow, ∃ b, e.eval row.columns = some (.bool b) ∧ (b ↔ p row)

theorem soundAt_of_mem_orgFilteredTables {t : Bytes} (ht : t ∈ orgFilteredTables) :
    ∀ b ∈ t, b ≠ quote ∧ b ≠ backslash := by
  have hall : orgFilteredTables.all (·.all fun b => b ≠ quote ∧ b ≠ backslash) := by decide
  intro b hb
  simpa using List.all_eq_true.1 (List.all_eq_true.1 hall t ht) b hb

theorem literal_plain {t : Bytes} (ht : ∀ b ∈ t, b ≠ quote ∧ b ≠ backslash) :
    literal doubled t = quote :: (t ++ [quote]) := by
  have hwritten : written doubled t = t := by
    induction t with
    | nil => rfl
    | cons b t ih =>
      have hb := ht b List.mem_cons_self
      have hrest := ih fun c hc => ht c (List.mem_cons_of_mem b hc)
      rw [written, List.flatMap_cons, doubled, if_neg hb.2, if_neg hb.1]
      simpa [written] using hrest
  rw [literal, hwritten]

theorem readMap_tableFilters (inner : Bytes) :
    readMap (tableFilters inner) = some (orgFilteredTables.map (·, inner)) := by
  have hentry : ∀ t ∈ orgFilteredTables, SpellsEntry
      (ascii "'" ++ t ++ ascii "':" ++ literal doubled inner) (t, inner) := by
    intro t ht
    have hplain := soundAt_of_mem_orgFilteredTables ht
    have hspells : SpellsEntry (literal doubled t ++ colon :: literal doubled inner) (t, inner) :=
      spellsEntry_literals (fun b _ => soundAt_doubled b) fun b _ => soundAt_doubled b
    have htext : ascii "'" ++ t ++ ascii "':" ++ literal doubled inner =
        literal doubled t ++ colon :: literal doubled inner := by
      simp [literal_plain hplain, ascii, quote, colon]
    rw [htext]
    exact hspells
  have hentries : List.Forall₂ SpellsEntry
      (orgFilteredTables.map fun t => ascii "'" ++ t ++ ascii "':" ++ literal doubled inner)
      (orgFilteredTables.map (·, inner)) := by
    rw [List.forall₂_map_left_iff, List.forall₂_map_right_iff, List.forall₂_same]
    exact hentry
  have hread := readMap_spelled hentries (by simp [orgFilteredTables])
  have hcomma : ascii "," = [comma] := by decide
  have hopen : ascii "\x7b" = [openBrace] := by decide
  have hclose : ascii "\x7d" = [closeBrace] := by decide
  rw [tableFilters, hcomma, hopen, hclose]
  simpa using hread

theorem readFilters_tableFilters {inner : Bytes} {e : Expr} (h : WrittenAs inner e) :
    readFilters (tableFilters inner) = some (orgFilteredTables.map (·, e)) := by
  simp [readFilters, readMap_tableFilters, h.parse_eq, orgFilteredTables]

end Sluicio.Clickhouse
