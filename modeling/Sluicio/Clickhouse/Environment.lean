import Sluicio.Clickhouse.Orgfilter
import Sluicio.Lib.Ordered

/-!
# The environments a request reads

`?env=` names environments, and every read of the request is narrowed to them: beside the
condition on the organization the setting carries a condition on the row's environment.
The names come from the request and the key and the aliases from an operator's setting, so
each of them may be any text.

The setting that is written is read as those two conditions and nothing else, whatever the
texts are.
-/

namespace Sluicio.Clickhouse

open Lib Sql
open Lib.Sql (Expr WrittenAs ComparedAs commaJoined)

/-- `EnvironmentConfig`, with the bytes of its texts. -/
structure EnvironmentConfig where
  key : Bytes
  aliases : List (Bytes × Bytes)

/-- `c.Aliases[k]`. -/
def EnvironmentConfig.alias (c : EnvironmentConfig) (k : Bytes) : Bytes :=
  (c.aliases.lookup k).getD []

/-- The aliases' keys, sorted. -/
def EnvironmentConfig.froms (c : EnvironmentConfig) : List Bytes :=
  sliceStable (fun a b => decide (a < b)) (c.aliases.map Prod.fst)

def sqlString (s : Bytes) : Bytes := literal backslashed s

/-- The column or the attribute the environment is read from. -/
def rawExpr (c : EnvironmentConfig) : Bytes :=
  if c.key ≠ [] then ascii "ResourceAttributes[" ++ sqlString c.key ++ ascii "]"
  else ascii "Environment"

def environmentExpr (c : EnvironmentConfig) : Bytes :=
  if c.aliases = [] then rawExpr c
  else
    ascii "transform(lower(" ++ rawExpr c ++ ascii "), [" ++
      (ascii ", ").intercalate (c.froms.map sqlString) ++ ascii "], [" ++
      (ascii ", ").intercalate (c.froms.map fun k => sqlString (c.alias k)) ++ ascii "], " ++
      rawExpr c ++ ascii ")"

def environmentPredicate (c : EnvironmentConfig) (envs : List Bytes) : Bytes :=
  ascii "(" ++ environmentExpr c ++ ascii ") IN (" ++
    (ascii ", ").intercalate (envs.map (literal backslashed)) ++ ascii ")"

def noEnvironment : Bytes := []

def noEnvironmentParam : Bytes := ascii "(none)"

def allEnvironmentsParam : Bytes := ascii "*"

/-- The values of `env`, unless one of them asks for all environments. -/
def namedEnvironments : List Bytes → Option (List Bytes)
  | [] => some []
  | raw :: rest =>
    if raw = [] ∨ raw = allEnvironmentsParam then none
    else (namedEnvironments rest).map
      ((if raw = noEnvironmentParam then noEnvironment else raw) :: ·)

/-- `parseEnvironmentParam`, of the query's values of `env`. -/
def parseEnvironmentParam (env : List Bytes) : Option (List Bytes) :=
  (namedEnvironments env).bind fun envs =>
    if (envs.take 20).length > 0 then some (envs.take 20) else none

/-- `WithPrincipal`, of a principal in the organization.  Zero is no organization. -/
def withPrincipal (ctx : Context) (org : UUID) : Context :=
  if org ≠ 0 then withOrgFilter { ctx with orgID := some org } (uuidText org)
  else { ctx with orgID := some org }

/-- The organization of the context's principal, or no text. -/
def orgOf (ctx : Context) : Bytes :=
  match ctx.orgID with
  | some org => if org ≠ 0 then uuidText org else []
  | none => []

/-- `WithEnvironmentParam`, up to the context the request goes on with. -/
def withEnvironmentParam (c : EnvironmentConfig) (ctx : Context) (env : List Bytes) : Context :=
  match parseEnvironmentParam env with
  | some envs => withTableFilter ctx (orgOf ctx) (environmentPredicate c envs)
  | none => ctx

/-- The value the environment is read from. -/
def rawEnvironment (c : EnvironmentConfig) (row : TelemetryRow) : Bytes :=
  if c.key ≠ [] then row.resourceAttributes c.key else row.environment

/-- The row's environment: its value, or the name its value is an alias of. -/
def canonicalEnvironment (c : EnvironmentConfig) (row : TelemetryRow) : Bytes :=
  (c.aliases.lookup (lower (rawEnvironment c row))).getD (rawEnvironment c row)

def InOrg (org : UUID) (row : TelemetryRow) : Prop := row.organizationId = uuidText org

def InEnvironments (c : EnvironmentConfig) (envs : List Bytes) (row : TelemetryRow) : Prop :=
  canonicalEnvironment c row ∈ envs

/-! ## The conditions as expressions -/

def orgTerm (org : UUID) : Expr := .eq (.column (ascii "OrganizationId")) (.str (uuidText org))

def rawTerm (c : EnvironmentConfig) : Expr :=
  if c.key ≠ [] then .index (.column (ascii "ResourceAttributes")) (.str c.key)
  else .column (ascii "Environment")

def environmentTerm (c : EnvironmentConfig) : Expr :=
  if c.aliases = [] then rawTerm c
  else .call (ascii "transform") [.call (ascii "lower") [rawTerm c], .array (c.froms.map .str),
    .array (c.froms.map fun k => .str (c.alias k)), rawTerm c]

def environmentsTerm (c : EnvironmentConfig) (envs : List Bytes) : Expr :=
  .isIn (environmentTerm c) (envs.map .str)

section Texts

variable (c : EnvironmentConfig)

theorem writtenAs_sqlString (s : Bytes) : WrittenAs (sqlString s) (.str s) :=
  writtenAs_str fun b _ => soundAt_backslashed b

/-- Any texts, each written by `sqlString`. -/
theorem writtenAs_sqlStrings (ss : List Bytes) :
    List.Forall₂ WrittenAs (ss.map sqlString) (ss.map .str) := by
  rw [List.forall₂_map_left_iff, List.forall₂_map_right_iff, List.forall₂_same]
  exact fun s _ => writtenAs_sqlString s

theorem writtenAs_rawExpr : WrittenAs (rawExpr c) (rawTerm c) := by
  by_cases hkey : c.key ≠ []
  · have hopen : ascii "ResourceAttributes[" = ascii "ResourceAttributes" ++ [openBracket] := by
      decide
    have hclose : ascii "]" = [closeBracket] := by decide
    have hentry := writtenAs_index (w := ascii "ResourceAttributes") (by decide)
      (writtenAs_sqlString c.key)
    rw [rawExpr, rawTerm, if_pos hkey, if_pos hkey, hopen, hclose]
    simpa using hentry
  · rw [rawExpr, rawTerm, if_neg hkey, if_neg hkey]
    exact writtenAs_column (by decide)

theorem commaJoined_eq (texts : List Bytes) :
    (ascii ", ").intercalate texts = commaJoined texts := by
  have hsep : ascii ", " = [comma, 32] := by decide
  rw [hsep, commaJoined]

theorem froms_ne_nil (h : c.aliases ≠ []) : c.froms ≠ [] := by
  obtain ⟨entry, hentry⟩ := List.exists_mem_of_ne_nil _ h
  have hmem : entry.1 ∈ c.froms := mem_sliceStable.2 (List.mem_map_of_mem hentry)
  exact List.ne_nil_of_mem hmem

theorem writtenAs_environmentExpr : WrittenAs (environmentExpr c) (environmentTerm c) := by
  by_cases haliases : c.aliases = []
  · rw [environmentExpr, environmentTerm, if_pos haliases, if_pos haliases]
    exact writtenAs_rawExpr c
  have hne := froms_ne_nil c haliases
  have hraw := writtenAs_rawExpr c
  have hlower := writtenAs_call (w := ascii "lower") (by decide) (.cons hraw .nil)
    (List.cons_ne_nil _ _)
  have hfroms := writtenAs_array (writtenAs_sqlStrings c.froms) (by simpa using hne)
  have htos := writtenAs_array (writtenAs_sqlStrings (c.froms.map c.alias))
    (by simpa using hne)
  have hcall := writtenAs_call (w := ascii "transform") (by decide)
    (.cons hlower (.cons hfroms (.cons htos (.cons hraw .nil)))) (List.cons_ne_nil _ _)
  have htext : environmentExpr c = ascii "transform" ++ openParen ::
      (commaJoined [ascii "lower" ++ openParen :: (commaJoined [rawExpr c] ++
          [closeParen]),
        openBracket :: (commaJoined (c.froms.map sqlString) ++ [closeBracket]),
        openBracket :: (commaJoined ((c.froms.map c.alias).map sqlString) ++
          [closeBracket]),
        rawExpr c] ++ [closeParen]) := by
    have hopen : ascii "transform(lower(" =
        ascii "transform" ++ openParen :: (ascii "lower" ++ [openParen]) := by decide
    have hfirst : ascii "), [" = [closeParen, comma, 32, openBracket] := by decide
    have hsecond : ascii "], [" = [closeBracket, comma, 32, openBracket] := by decide
    have hthird : ascii "], " = [closeBracket, comma, 32] := by decide
    have hclose : ascii ")" = [closeParen] := by decide
    rw [environmentExpr, if_neg haliases, hopen, hfirst, hsecond, hthird, hclose]
    simp [commaJoined_cons, commaJoined_eq, List.map_map, Function.comp_def]
  have hterm : environmentTerm c = .call (ascii "transform") [.call (ascii "lower") [rawTerm c],
      .array (c.froms.map .str), .array ((c.froms.map c.alias).map .str), rawTerm c] := by
    rw [environmentTerm, if_neg haliases, List.map_map]
    rfl
  rw [htext, hterm]
  exact hcall

theorem writtenAs_environmentPredicate {envs : List Bytes} (hne : envs ≠ []) :
    WrittenAs (environmentPredicate c envs) (environmentsTerm c envs) := by
  have hin := writtenAs_isIn (writtenAs_environmentExpr c) (writtenAs_sqlStrings envs)
    (by simpa using hne)
  have htext : environmentPredicate c envs = openParen :: (environmentExpr c ++
      closeParen :: 32 :: (inKeyword ++ 32 :: openParen ::
        (commaJoined (envs.map sqlString) ++ [closeParen]))) := by
    have hopen : ascii "(" = [openParen] := by decide
    have hin : ascii ") IN (" = closeParen :: 32 :: (inKeyword ++ [32, openParen]) := by
      decide
    have hclose : ascii ")" = [closeParen] := by decide
    have hwritten : envs.map (literal backslashed) = envs.map sqlString := rfl
    rw [environmentPredicate, hopen, hin, hclose, commaJoined_eq, hwritten]
    simp
  rw [htext]
  exact hin

theorem eval_orgTerm (org : UUID) (row : TelemetryRow) :
    (orgTerm org).eval row.columns = some (.bool (row.organizationId = uuidText org)) := by
  simp [orgTerm, Expr.eval, TelemetryRow.columns]

theorem eval_rawTerm (row : TelemetryRow) :
    (rawTerm c).eval row.columns = some (.str (rawEnvironment c row)) := by
  have hothers : ascii "ResourceAttributes" ≠ ascii "OrganizationId" ∧
      ascii "ResourceAttributes" ≠ ascii "Environment" ∧
      ascii "Environment" ≠ ascii "OrganizationId" := by decide
  obtain ⟨hmap, hmap', hcolumn⟩ := hothers
  by_cases hkey : c.key ≠ []
  · rw [rawTerm, rawEnvironment, if_pos hkey, if_pos hkey]
    simp [Expr.eval, TelemetryRow.columns, hmap, hmap']
  · rw [rawTerm, rawEnvironment, if_neg hkey, if_neg hkey]
    simp [Expr.eval, TelemetryRow.columns, hcolumn]

theorem alias_or (x raw : Bytes) :
    (if x ∈ c.froms then c.alias x else raw) = (c.aliases.lookup x).getD raw := by
  have hmem : x ∈ c.froms ↔ c.aliases.lookup x ≠ none := by
    rw [EnvironmentConfig.froms, mem_sliceStable, ne_eq, List.lookup_eq_none_iff]
    simp
  by_cases hx : x ∈ c.froms
  · obtain ⟨v, hv⟩ := Option.ne_none_iff_exists'.1 (hmem.1 hx)
    rw [if_pos hx, EnvironmentConfig.alias, hv]
    rfl
  have hnone : c.aliases.lookup x = none := by
    by_contra hne
    exact hx (hmem.2 hne)
  rw [if_neg hx, hnone]
  rfl

theorem eval_environmentTerm (row : TelemetryRow) :
    (environmentTerm c).eval row.columns = some (.str (canonicalEnvironment c row)) := by
  have hraw := eval_rawTerm c row
  by_cases haliases : c.aliases = []
  · rw [environmentTerm, if_pos haliases, hraw, canonicalEnvironment, haliases]
    rfl
  have hfroms := evalAll_literals row.columns c.froms
  have htos := evalAll_literals row.columns (c.froms.map c.alias)
  have hlower : ascii "transform" ≠ ascii "lower" := by decide
  rw [environmentTerm, if_neg haliases, canonicalEnvironment, ← alias_or]
  simp only [List.map_map, Function.comp_def] at htos
  simp [Expr.eval, evalAll, hraw, hfroms, htos, Sql.apply, hlower, transform_map]

theorem eval_environmentsTerm (envs : List Bytes) (row : TelemetryRow) :
    (environmentsTerm c envs).eval row.columns =
      some (.bool (envs.contains (canonicalEnvironment c row))) := by
  simp [environmentsTerm, Expr.eval, eval_environmentTerm, evalAll_literals]

end Texts

/-! ## The setting -/

section Setting

variable (c : EnvironmentConfig) (ctx : Context) (org : UUID)

theorem uuidText_plain {b : UInt8} (hb : b ∈ uuidText org) : b ≠ backslash := by
  have hall : "-0123456789abcdef".toList.all fun ch => UInt8.ofNat ch.toNat ≠ backslash := by decide
  rw [uuidText, ascii, String.toList_ofList] at hb
  obtain ⟨ch, hch, rfl⟩ := List.mem_map.1 hb
  simpa using List.all_eq_true.1 hall ch (mem_groupedHex hch)

theorem uuidText_ne_nil : uuidText org ≠ [] := by
  simp [uuidText, ascii, groupedHex]

theorem comparedAs_org :
    ComparedAs (ascii "OrganizationId = " ++ literal quotesDoubled (uuidText org))
      (orgTerm org) := by
  have hcompared := comparedAs_eq (w := ascii "OrganizationId") (by decide)
    fun b hb => soundAt_quotesDoubled (uuidText_plain org (b := b) hb)
  have htext : ascii "OrganizationId = " =
      ascii "OrganizationId" ++ [32, equals, 32] := by decide
  rw [htext, orgTerm]
  simpa using hcompared

theorem environmentPredicate_ne_nil (envs : List Bytes) : environmentPredicate c envs ≠ [] := by
  simp [environmentPredicate, ascii]

theorem filters_tableFilters {inner : Bytes} {e : Expr} {p : TelemetryRow → Prop}
    (hinner : WrittenAs inner e)
    (heval : ∀ row : TelemetryRow, ∃ b, e.eval row.columns = some (.bool b) ∧ (b ↔ p row)) :
    Filters (some (tableFilters inner)) p :=
  ⟨_, e, rfl, readFilters_tableFilters hinner, heval⟩

theorem filters_withOrgFilter :
    Filters (withOrgFilter ctx (uuidText org)).additionalTableFilters (InOrg org) := by
  have hconds : conditions (uuidText org) [] =
      [ascii "OrganizationId = " ++ literal quotesDoubled (uuidText org)] := by
    simp [conditions, uuidText_ne_nil]
  rw [withOrgFilter, withTableFilter, hconds, if_neg (List.cons_ne_nil _ _),
    List.intercalate_singleton]
  apply filters_tableFilters (comparedAs_org org).writtenAs
  intro row
  exact ⟨_, eval_orgTerm org row, by simp [InOrg]⟩

theorem filters_both {envs : List Bytes} (hne : envs ≠ []) :
    Filters
      (withTableFilter ctx (uuidText org) (environmentPredicate c envs)).additionalTableFilters
      fun row => InOrg org row ∧ InEnvironments c envs row := by
  have hconds : conditions (uuidText org) (environmentPredicate c envs) =
      [ascii "OrganizationId = " ++ literal quotesDoubled (uuidText org),
        ascii "(" ++ environmentPredicate c envs ++ ascii ")"] := by
    simp [conditions, uuidText_ne_nil, environmentPredicate_ne_nil]
  have hand := writtenAs_and (comparedAs_org org)
    (comparedAs_paren (writtenAs_environmentPredicate c hne))
  have htext : (ascii " AND ").intercalate
      [ascii "OrganizationId = " ++ literal quotesDoubled (uuidText org),
        ascii "(" ++ environmentPredicate c envs ++ ascii ")"] =
      ascii "OrganizationId = " ++ literal quotesDoubled (uuidText org) ++ 32 ::
        (andKeyword ++ 32 :: openParen :: (environmentPredicate c envs ++
          [closeParen])) := by
    have hsep : ascii " AND " = 32 :: (andKeyword ++ [32]) := by decide
    have hopen : ascii "(" = [openParen] := by decide
    have hclose : ascii ")" = [closeParen] := by decide
    rw [List.intercalate_cons_cons, List.intercalate_singleton, hsep, hopen, hclose]
    simp
  rw [withTableFilter, hconds, if_neg (List.cons_ne_nil _ _), htext]
  apply filters_tableFilters hand
  intro row
  refine ⟨decide (row.organizationId = uuidText org) &&
    envs.contains (canonicalEnvironment c row), ?_, ?_⟩
  · simp [Expr.eval, eval_orgTerm, eval_environmentsTerm]
  · simp [InOrg, InEnvironments]

theorem filters_environments {envs : List Bytes} (hne : envs ≠ []) :
    Filters (withTableFilter ctx [] (environmentPredicate c envs)).additionalTableFilters
      (InEnvironments c envs) := by
  have hconds : conditions [] (environmentPredicate c envs) =
      [ascii "(" ++ environmentPredicate c envs ++ ascii ")"] := by
    simp [conditions, environmentPredicate_ne_nil]
  have hparen := comparedAs_paren (writtenAs_environmentPredicate c hne)
  have hopen : ascii "(" = [openParen] := by decide
  have hclose : ascii ")" = [closeParen] := by decide
  rw [withTableFilter, hconds, if_neg (List.cons_ne_nil _ _), List.intercalate_singleton,
    hopen, hclose]
  apply filters_tableFilters hparen.writtenAs
  intro row
  exact ⟨_, eval_environmentsTerm c envs row, by simp [InEnvironments]⟩

theorem ne_nil_of_parseEnvironmentParam {env envs : List Bytes}
    (h : parseEnvironmentParam env = some envs) : envs ≠ [] := by
  obtain ⟨named, _, htake⟩ := Option.bind_eq_some_iff.1 h
  split at htake
  next hpos =>
    cases htake
    exact List.ne_nil_of_length_pos hpos
  next => cases htake

theorem filters_request (horg : org ≠ 0) (env : List Bytes) :
    Filters (withEnvironmentParam c (withPrincipal ctx org) env).additionalTableFilters
      fun row => InOrg org row ∧ ∀ es ∈ parseEnvironmentParam env, InEnvironments c es row := by
  have hprincipal : withPrincipal ctx org =
      withOrgFilter { ctx with orgID := some org } (uuidText org) := if_pos horg
  have horgOf : orgOf (withPrincipal ctx org) = uuidText org := by
    rw [hprincipal, withOrgFilter, withTableFilter]
    split <;> simp [orgOf, horg]
  cases hparse : parseEnvironmentParam env with
  | none =>
    have hctx : withEnvironmentParam c (withPrincipal ctx org) env = withPrincipal ctx org := by
      simp [withEnvironmentParam, hparse]
    rw [hctx, hprincipal]
    simpa using filters_withOrgFilter { ctx with orgID := some org } org
  | some es =>
    have hctx : withEnvironmentParam c (withPrincipal ctx org) env =
        withTableFilter (withPrincipal ctx org) (uuidText org) (environmentPredicate c es) := by
      simp [withEnvironmentParam, hparse, horgOf]
    rw [hctx]
    simpa using filters_both c (withPrincipal ctx org) org (ne_nil_of_parseEnvironmentParam hparse)

/-- The setting that is written for an organization is read as a condition on the three
telemetry tables that holds of its rows alone, and of those in the environments alone where
environments are given, whatever the texts of the environments, the key and the aliases are. -/
theorem tableFilter_inescapable (env envs : List Bytes) :
    Filters (withOrgFilter ctx (uuidText org)).additionalTableFilters (InOrg org) ∧
    (envs ≠ [] →
      Filters
        (withTableFilter ctx (uuidText org) (environmentPredicate c envs)).additionalTableFilters
        (fun row => InOrg org row ∧ InEnvironments c envs row) ∧
      Filters (withTableFilter ctx [] (environmentPredicate c envs)).additionalTableFilters
        (InEnvironments c envs)) ∧
    (org ≠ 0 →
      Filters (withEnvironmentParam c (withPrincipal ctx org) env).additionalTableFilters
        fun row => InOrg org row ∧ ∀ es ∈ parseEnvironmentParam env, InEnvironments c es row) := by
  refine ⟨filters_withOrgFilter ctx org, ?_, fun horg => filters_request c ctx org horg env⟩
  intro hne
  exact ⟨filters_both c ctx org hne, filters_environments c ctx hne⟩

end Setting

private def quotedConfig : EnvironmentConfig :=
  ⟨ascii "env'\\", [(ascii "prd'", ascii "prod\\")]⟩

theorem tableFilter_inescapable_quoted :
    Filters (withTableFilter ⟨none, none⟩ (uuidText 7)
        (environmentPredicate quotedConfig [ascii "\\', '') OR (1 = 1"])).additionalTableFilters
      (fun row => InOrg 7 row ∧ InEnvironments quotedConfig [ascii "\\', '') OR (1 = 1"] row) ∧
    Filters (withEnvironmentParam quotedConfig (withPrincipal ⟨none, none⟩ 7)
        [ascii "(none)", ascii "it's"]).additionalTableFilters
      (fun row => InOrg 7 row ∧
        ∀ es ∈ parseEnvironmentParam [ascii "(none)", ascii "it's"],
          InEnvironments quotedConfig es row) := by
  have hquoted := tableFilter_inescapable quotedConfig ⟨none, none⟩ 7
    [ascii "(none)", ascii "it's"] [ascii "\\', '') OR (1 = 1"]
  exact ⟨(hquoted.2.1 (by decide)).1, hquoted.2.2 (by decide)⟩

end Sluicio.Clickhouse
