import Sluicio.Clickhouse.Environment

/-!
# The environment's name, in Go and in SQL

The aliases of the setting are compared case insensitively.  `SetEnvironmentConfig` lowers
their keys, `CanonicalEnvironment` looks a value up by its lower case, and the expression of
`EnvironmentExpr` by what `lower` makes of it.  `strings.ToLower` lowers every letter and
`lower` those of ASCII: a value is canonical alike in both unless an alias is for a lower case
that only the first one reaches.
-/

namespace Sluicio.Clickhouse

open Lib Sql
open Lib.Sql (WrittenAs)

/-- `strings.ToLower` and `strings.TrimSpace`, on the bytes of a text. -/
structure Strings where
  toLower : Bytes → Bytes
  trimSpace : Bytes → Bytes

/-- What `strings.ToLower` does: a lower case is its own, the two cases of an ASCII letter have
one, and of ASCII nothing but the letters is changed. -/
structure Strings.Lowers (g : Strings) : Prop where
  toLower_toLower : ∀ s, g.toLower (g.toLower s) = g.toLower s
  toLower_lower : ∀ s, g.toLower (lower s) = g.toLower s
  toLower_ascii : ∀ s : Bytes, (∀ b ∈ s, b < 128) → g.toLower s = lower s

variable (g : Strings)

/-- One round of the loop of `SetEnvironmentConfig`. -/
def installAlias (aliases : List (Bytes × Bytes)) (entry : Bytes × Bytes) : List (Bytes × Bytes) :=
  let k := g.toLower (g.trimSpace entry.1)
  let v := g.trimSpace entry.2
  if k ≠ [] ∧ v ≠ [] then upsert (fun e => e.1 = k) (fun _ => (k, v)) (k, v) aliases
  else aliases

/-- `SetEnvironmentConfig`: the setting that is installed.  The aliases that are given come in
the order in which the loop meets them. -/
def setEnvironmentConfig (c : EnvironmentConfig) : EnvironmentConfig where
  key := g.trimSpace c.key
  aliases := c.aliases.foldl (installAlias g) []

/-- `CanonicalEnvironment`, under the setting that is installed. -/
def EnvironmentConfig.canonical (c : EnvironmentConfig) (v : Bytes) : Bytes :=
  (c.aliases.lookup (g.toLower v)).getD v

/-! ## The two lookups -/

section Lookups

variable {g} {c : EnvironmentConfig}

theorem mem_installAlias {aliases : List (Bytes × Bytes)} {entry e : Bytes × Bytes}
    (he : e ∈ installAlias g aliases entry) :
    e ∈ aliases ∨ e.1 = g.toLower (g.trimSpace entry.1) := by
  rw [installAlias] at he
  split_ifs at he
  · rw [upsert] at he
    split_ifs at he
    · obtain ⟨old, hold, ⟨-, rfl⟩ | ⟨-, rfl⟩⟩ := mem_updateWhere.1 he
      · exact .inr rfl
      · exact .inl hold
    · rcases List.mem_append.1 he with hold | hnew
      · exact .inl hold
      · exact .inr (congrArg Prod.fst (List.mem_singleton.1 hnew))
  · exact .inl he

theorem toLower_key (hg : g.Lowers) {e : Bytes × Bytes}
    (he : e ∈ (setEnvironmentConfig g c).aliases) : g.toLower e.1 = e.1 := by
  have hrun : ∀ (entries aliases : List (Bytes × Bytes)),
      (∀ e ∈ aliases, g.toLower e.1 = e.1) →
        ∀ e ∈ entries.foldl (installAlias g) aliases, g.toLower e.1 = e.1 := by
    intro entries
    induction entries with
    | nil => exact fun _ h => h
    | cons entry entries ih =>
      intro aliases h
      apply ih
      intro e he
      rcases mem_installAlias he with hold | hnew
      · exact h e hold
      · rw [hnew]
        exact hg.toLower_toLower _
  exact hrun c.aliases [] (List.forall_mem_nil _) e he

/-- **A value that reaches an alias in SQL reaches the same one in Go**: what `lower` makes of it
is a key then, so there is nothing left to lower. -/
theorem toLower_eq_of_lookup (hg : g.Lowers) {v name : Bytes}
    (hname : (setEnvironmentConfig g c).aliases.lookup (lower v) = some name) :
    g.toLower v = lower v := by
  obtain ⟨before, after, hentries, -⟩ := List.lookup_eq_some_iff.1 hname
  have hmem : (lower v, name) ∈ (setEnvironmentConfig g c).aliases := by
    rw [hentries]
    exact List.mem_append_right _ List.mem_cons_self
  have hkey : g.toLower (lower v) = lower v := toLower_key hg hmem
  calc g.toLower v = g.toLower (lower v) := (hg.toLower_lower v).symm
    _ = lower v := hkey

theorem canonical_eq_iff (hg : g.Lowers) (row : TelemetryRow) :
    (setEnvironmentConfig g c).canonical g (rawEnvironment (setEnvironmentConfig g c) row) =
        canonicalEnvironment (setEnvironmentConfig g c) row ↔
      g.toLower (rawEnvironment (setEnvironmentConfig g c) row) =
          lower (rawEnvironment (setEnvironmentConfig g c) row) ∨
        ∀ name, (setEnvironmentConfig g c).aliases.lookup
            (g.toLower (rawEnvironment (setEnvironmentConfig g c) row)) = some name →
          name = rawEnvironment (setEnvironmentConfig g c) row := by
  generalize hv : rawEnvironment (setEnvironmentConfig g c) row = v
  rw [EnvironmentConfig.canonical, canonicalEnvironment, hv]
  by_cases hsame : g.toLower v = lower v
  · rw [hsame]
    exact iff_of_true rfl (.inl rfl)
  have hnone : (setEnvironmentConfig g c).aliases.lookup (lower v) = none := by
    rw [Option.eq_none_iff_forall_ne_some]
    intro name hname
    exact hsame (toLower_eq_of_lookup hg hname)
  rw [hnone, Option.getD_none, or_iff_right hsame]
  cases hto : (setEnvironmentConfig g c).aliases.lookup (g.toLower v) with
  | none => simp
  | some name => simp

end Lookups

/-- The text of the expression is read as one, and on the row that has the value of
`CanonicalEnvironment`. -/
def Canonicalises (c : EnvironmentConfig) (row : TelemetryRow) : Prop :=
  WrittenAs (environmentExpr c) (environmentTerm c) ∧
    (environmentTerm c).eval row.columns = some (.str (c.canonical g (rawEnvironment c row)))

/-- **Go and SQL agree** on a value that `lower` makes lower case, and on one whose lower case is
no alias of another name. -/
theorem canonicalises_iff {g : Strings} (hg : g.Lowers) (c : EnvironmentConfig)
    (row : TelemetryRow) :
    Canonicalises g (setEnvironmentConfig g c) row ↔
      g.toLower (rawEnvironment (setEnvironmentConfig g c) row) =
          lower (rawEnvironment (setEnvironmentConfig g c) row) ∨
        ∀ name, (setEnvironmentConfig g c).aliases.lookup
            (g.toLower (rawEnvironment (setEnvironmentConfig g c) row)) = some name →
          name = rawEnvironment (setEnvironmentConfig g c) row := by
  rw [← canonical_eq_iff hg, Canonicalises, eval_environmentTerm]
  constructor
  · intro h
    injection h.2 with hvalue
    injection hvalue with htext
    exact htext.symm
  · intro h
    rw [h]
    exact ⟨writtenAs_environmentExpr _, rfl⟩

private def latinByte (b : UInt8) : UInt8 :=
  if 128 ≤ b ∧ b ≤ 158 ∧ b ≠ 151 then b + 32 else lowerByte b

private def latin : Strings where
  toLower s := s.map latinByte
  trimSpace s := s

private theorem forall_byte {p : UInt8 → Prop} (h : ∀ n : Fin 256, p (UInt8.ofNat n)) (b : UInt8) :
    p b := by
  have hb := h ⟨b.toNat, b.toNat_lt⟩
  rwa [UInt8.ofNat_toNat] at hb

private theorem latinByte_spec (b : UInt8) :
    latinByte (latinByte b) = latinByte b ∧ latinByte (lowerByte b) = latinByte b ∧
      (b < 128 → latinByte b = lowerByte b) :=
  forall_byte (p := fun b => latinByte (latinByte b) = latinByte b ∧
    latinByte (lowerByte b) = latinByte b ∧ (b < 128 → latinByte b = lowerByte b))
    (by decide +kernel) b

private theorem latin_lowers : latin.Lowers where
  toLower_toLower s := by
    show (s.map latinByte).map latinByte = s.map latinByte
    rw [List.map_map]
    exact List.map_congr_left fun b _ => (latinByte_spec b).1
  toLower_lower s := by
    show (s.map lowerByte).map latinByte = s.map latinByte
    rw [List.map_map]
    exact List.map_congr_left fun b _ => (latinByte_spec b).2.1
  toLower_ascii s h := List.map_congr_left fun b hb => (latinByte_spec b).2.2 (h b hb)

private def prod : EnvironmentConfig where
  key := []
  aliases := [([112, 114, 195, 182, 100], ascii "production")]

private def rowIn (environment : Bytes) : TelemetryRow where
  organizationId := []
  environment := environment
  resourceAttributes := fun _ => []

theorem canonicalises_iff_lower :
    Canonicalises latin (setEnvironmentConfig latin prod) (rowIn [112, 114, 195, 182, 100]) :=
  (canonicalises_iff latin_lowers prod _).2 (.inl (by decide))

/-- **`PRÖD`** is `production` in Go, and itself in SQL. -/
theorem upper_umlaut_disagrees :
    latin.Lowers ∧
      ¬ Canonicalises latin (setEnvironmentConfig latin prod) (rowIn [80, 82, 195, 150, 68]) := by
  refine ⟨latin_lowers, ?_⟩
  intro h
  have hvalue := h.2
  rw [eval_environmentTerm] at hvalue
  injection hvalue with hstr
  injection hstr with htext
  exact absurd htext (by decide)

end Sluicio.Clickhouse
