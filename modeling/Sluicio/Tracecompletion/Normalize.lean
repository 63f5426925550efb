import Mathlib.Data.List.DropRight
import Sluicio.Tracecompletion.Types

/-!
# What normalizing a rule keeps

Every path decodes a rule through `Normalize`, so the rule it makes has to mean what the
stored one does, and a rule that went through it once has to come out as it is.
-/

namespace Sluicio.Tracecompletion

open Stage

/-- What `trimSpace` does to the characters. -/
def trimmed (cs : List Char) : List Char := (cs.dropWhile isSpace).rdropWhile isSpace

theorem trimSpace_eq (s : String) : trimSpace s = String.ofList (trimmed s.toList) := rfl

theorem trimmed_trimmed (cs : List Char) : trimmed (trimmed cs) = trimmed cs := by
  have hstart : (trimmed cs).dropWhile isSpace = trimmed cs := by
    rw [List.dropWhile_eq_self_iff]
    intro hpos hspace
    -- the first character left is the first one that the left trim kept
    have htrim : trimmed cs <+: cs.dropWhile isSpace := List.rdropWhile_prefix isSpace _
    have hlen : 0 < (cs.dropWhile isSpace).length :=
      lt_of_lt_of_le hpos htrim.length_le
    have hkept := List.dropWhile_eq_self_iff.1 (List.dropWhile_idempotent (p := isSpace) (l := cs))
    rw [htrim.getElem hpos] at hspace
    exact hkept hlen hspace
  show ((trimmed cs).dropWhile isSpace).rdropWhile isSpace = trimmed cs
  rw [hstart]
  exact List.rdropWhile_idempotent isSpace (cs.dropWhile isSpace)

theorem trimSpace_trimSpace (s : String) : trimSpace (trimSpace s) = trimSpace s := by
  rw [trimSpace_eq (trimSpace s), trimSpace_eq s, String.toList_ofList, trimmed_trimmed]

theorem trimSpace_of_no_space {s : String} (h : ∀ c ∈ s.toList, isSpace c = false) :
    trimSpace s = s := by
  have hstart : s.toList.dropWhile isSpace = s.toList := by
    rw [List.dropWhile_eq_self_iff]
    intro hpos
    simp [h _ (List.getElem_mem hpos)]
  have hstop : s.toList.rdropWhile isSpace = s.toList := by
    rw [List.rdropWhile_eq_self_iff]
    intro hne
    simp [h _ (List.getLast_mem hne)]
  rw [trimSpace_eq, trimmed, hstart, hstop, String.ofList_toList]

theorem isSpace_of_isDigit {c : Char} (h : c.isDigit) : isSpace c = false := by
  simp only [Char.isDigit, Bool.and_eq_true, decide_eq_true_eq, UInt32.le_iff_toNat_le] at h
  obtain ⟨hlo, hhi⟩ : 48 ≤ c.toNat ∧ c.toNat ≤ 57 := h
  simp only [isSpace, Bool.or_eq_false_iff, Bool.and_eq_false_iff, decide_eq_false_iff_not]
  omega

theorem trimSpace_of_mem_trimNonEmpty {names : List String} {name : String}
    (h : name ∈ trimNonEmpty names) : trimSpace name = name ∧ name ≠ "" := by
  obtain ⟨htrim, hne⟩ := List.mem_filter.1 h
  obtain ⟨raw, _, rfl⟩ := List.mem_map.1 htrim
  exact ⟨trimSpace_trimSpace raw, of_decide_eq_true hne⟩

theorem trimNonEmpty_trimNonEmpty (names : List String) :
    trimNonEmpty (trimNonEmpty names) = trimNonEmpty names := by
  have htrim : (trimNonEmpty names).map trimSpace = trimNonEmpty names := by
    rw [List.map_congr_left fun name hname => (trimSpace_of_mem_trimNonEmpty hname).1, List.map_id']
  show ((trimNonEmpty names).map trimSpace).filter (· ≠ "") = trimNonEmpty names
  rw [htrim, List.filter_eq_self]
  intro name hname
  exact decide_eq_true (trimSpace_of_mem_trimNonEmpty hname).2

def Stage.trimNames (st : Stage) : Stage := { st with spanNames := trimNonEmpty st.spanNames }

@[simp] theorem Stage.trimNames_trimNames (st : Stage) : st.trimNames.trimNames = st.trimNames := by
  unfold trimNames
  rw [trimNonEmpty_trimNonEmpty]

namespace RuleSpec

/-- The stages, the flat list of closing span names folded into one. -/
def foldedStages (s : RuleSpec) : List Stage :=
  if s.stages = [] ∧ s.closingSpanNames ≠ [] then [⟨s.closingSpanNames, s.timeoutSeconds⟩]
  else s.stages

/-- `Normalize` up to the lookback. -/
def mirrored (s : RuleSpec) : RuleSpec :=
  { s with
    kind := if s.kind = "" then "trace_completion" else s.kind
    startSpanName := trimSpace s.startSpanName
    stages := s.foldedStages.map trimNames
    closingSpanNames :=
      ((s.foldedStages.map trimNames).getLast?.map spanNames).getD s.closingSpanNames }

/-- The lookback that `Normalize` leaves. -/
def filledLookback (s : RuleSpec) : Int :=
  if s.lookbackSeconds = 0 ∧ 0 < s.mirrored.maxStageTimeout then 4 * s.mirrored.maxStageTimeout
  else s.lookbackSeconds

theorem normalize_eq (s : RuleSpec) :
    s.normalize = { s.mirrored with lookbackSeconds := s.filledLookback } := by
  show (if s.lookbackSeconds = 0 ∧ 0 < s.mirrored.maxStageTimeout then
      { s.mirrored with lookbackSeconds := 4 * s.mirrored.maxStageTimeout }
    else s.mirrored) = _
  unfold filledLookback
  split <;> rfl

theorem effectiveStages_normalize_eq (s : RuleSpec) :
    s.normalize.effectiveStages = s.mirrored.effectiveStages := by
  rw [normalize_eq]
  rfl

def finalStageNames (s : RuleSpec) : List String :=
  (s.effectiveStages.getLast?.map EffectiveStage.spanNames).getD []

/-! ## Idempotence -/

variable {s : RuleSpec}

theorem closing_of_stages_eq_nil (h : s.mirrored.stages = []) :
    s.mirrored.closingSpanNames = [] := by
  have hfolded : s.foldedStages = [] := List.map_eq_nil_iff.1 h
  have hclosing : s.closingSpanNames = [] := by
    by_contra hne
    unfold foldedStages at hfolded
    split at hfolded
    · cases hfolded
    · next hlegacy => exact hlegacy ⟨hfolded, hne⟩
  show ((s.foldedStages.map trimNames).getLast?.map spanNames).getD
    s.closingSpanNames = []
  rw [hfolded, hclosing]
  rfl

theorem foldedStages_mirrored (s : RuleSpec) : s.mirrored.foldedStages = s.mirrored.stages := by
  apply if_neg
  intro h
  exact h.2 (closing_of_stages_eq_nil h.1)

theorem mirrored_mirrored (s : RuleSpec) : s.mirrored.mirrored = s.mirrored := by
  have hkind : s.mirrored.kind ≠ "" := by
    show (if s.kind = "" then "trace_completion" else s.kind) ≠ ""
    split
    · decide
    · assumption
  have hstages : s.mirrored.foldedStages.map trimNames = s.mirrored.stages := by
    rw [foldedStages_mirrored]
    show (s.foldedStages.map trimNames).map trimNames = s.foldedStages.map _
    rw [List.map_map]
    apply List.map_congr_left
    intro st _
    exact st.trimNames_trimNames
  have hclosing : (s.mirrored.stages.getLast?.map spanNames).getD
      s.mirrored.closingSpanNames = s.mirrored.closingSpanNames := by
    show _ = (s.mirrored.stages.getLast?.map spanNames).getD s.closingSpanNames
    cases hlast : s.mirrored.stages.getLast? with
    | some st => rfl
    | none =>
      show s.mirrored.closingSpanNames = s.closingSpanNames
      show (s.mirrored.stages.getLast?.map spanNames).getD s.closingSpanNames = _
      rw [hlast]
      rfl
  have hstart : trimSpace s.mirrored.startSpanName = s.mirrored.startSpanName :=
    trimSpace_trimSpace s.startSpanName
  show ({ s.mirrored with
    kind := if s.mirrored.kind = "" then "trace_completion" else s.mirrored.kind
    startSpanName := trimSpace s.mirrored.startSpanName
    stages := s.mirrored.foldedStages.map trimNames
    closingSpanNames :=
      ((s.mirrored.foldedStages.map trimNames).getLast?.map spanNames).getD
        s.mirrored.closingSpanNames } : RuleSpec) = s.mirrored
  rw [if_neg hkind, hstart, hstages, hclosing]

/-- **Normalizing twice is normalizing once.** -/
theorem normalize_normalize (s : RuleSpec) : s.normalize.normalize = s.normalize := by
  have hmirrored : s.normalize.mirrored = s.normalize := by
    rw [normalize_eq]
    exact congrArg (fun r : RuleSpec => { r with lookbackSeconds := s.filledLookback })
      s.mirrored_mirrored
  have hlookback : s.normalize.filledLookback = s.normalize.lookbackSeconds := by
    apply if_neg
    rw [hmirrored]
    intro h
    have hmax : s.normalize.maxStageTimeout = s.mirrored.maxStageTimeout := by
      rw [normalize_eq]
      rfl
    rw [hmax, normalize_eq] at h
    have hzero : s.filledLookback = 0 := h.1
    unfold filledLookback at hzero
    split at hzero
    · omega
    · next hset => exact hset ⟨hzero, h.2⟩
  rw [normalize_eq s.normalize, hmirrored, hlookback]

theorem effectiveStage_trimNames (s : RuleSpec) (st : Stage) :
    s.effectiveStage st.trimNames = s.effectiveStage st := by
  unfold effectiveStage trimNames
  dsimp only
  rw [trimNonEmpty_trimNonEmpty]

theorem effectiveStages_normalize (s : RuleSpec) :
    s.normalize.effectiveStages = s.foldedStages.filterMap s.effectiveStage := by
  have hstages : s.mirrored.stagesOrLegacy = s.mirrored.stages := by
    apply if_neg
    intro h
    exact h.2 (closing_of_stages_eq_nil h.1)
  rw [effectiveStages_normalize_eq, effectiveStages, hstages]
  show (s.foldedStages.map trimNames).filterMap s.effectiveStage = _
  rw [List.filterMap_map]
  apply List.filterMap_congr
  intro st _
  exact s.effectiveStage_trimNames st

/-- A rule without stages has one legacy timeout, or none of its names counts. -/
def OneTimeout (s : RuleSpec) : Prop :=
  s.stages = [] → trimNonEmpty s.closingSpanNames ≠ [] → 0 < s.defaultTimeoutSeconds →
    0 < s.timeoutSeconds → s.defaultTimeoutSeconds = s.timeoutSeconds

theorem effectiveStage_folded (hstages : s.stages = []) (h : s.OneTimeout) :
    s.effectiveStage ⟨s.closingSpanNames, s.timeoutSeconds⟩ =
      s.effectiveStage ⟨s.closingSpanNames, 0⟩ := by
  unfold effectiveStage
  dsimp only
  split
  · rfl
  · next hnames =>
    have htimeout : (if s.timeoutSeconds ≤ 0 then s.defaultTimeout else s.timeoutSeconds) =
        s.defaultTimeout := by
      unfold defaultTimeout
      have hone := h hstages hnames
      split_ifs
      · rfl
      · rfl
      · exact (hone (by omega) (by omega)).symm
      · rfl
    rw [htimeout, if_pos (le_refl 0)]

theorem effectiveStages_normalize_of_oneTimeout (h : s.OneTimeout) :
    s.normalize.effectiveStages = s.effectiveStages := by
  rw [effectiveStages_normalize, effectiveStages]
  unfold foldedStages stagesOrLegacy
  by_cases hlegacy : s.stages = [] ∧ s.closingSpanNames ≠ []
  · rw [if_pos hlegacy, if_pos hlegacy, List.filterMap_cons, List.filterMap_cons,
      effectiveStage_folded hlegacy.1 h]
  · rw [if_neg hlegacy, if_neg hlegacy]

/-! ## The mirrored names -/

theorem closing_normalize {st : Stage} (h : s.normalize.stages.getLast? = some st) :
    s.normalize.closingSpanNames = st.spanNames := by
  rw [normalize_eq] at h ⊢
  have hlast : (s.foldedStages.map trimNames).getLast? = some st := h
  show ((s.foldedStages.map trimNames).getLast?.map spanNames).getD _ = st.spanNames
  rw [hlast]
  rfl

theorem finalStageNames_normalize {st : Stage} (h : s.normalize.stages.getLast? = some st)
    (hnames : st.spanNames ≠ []) : s.normalize.finalStageNames = st.spanNames := by
  have hlast : (s.foldedStages.map trimNames).getLast? = some st := by
    rw [normalize_eq] at h
    exact h
  rw [List.getLast?_map] at hlast
  obtain ⟨raw, hraw, rfl⟩ := Option.map_eq_some_iff.1 hlast
  obtain ⟨before, hsplit⟩ := List.getLast?_eq_some_iff.1 hraw
  have hcounts : s.effectiveStage raw = some {
      spanNames := trimNonEmpty raw.spanNames
      timeoutSeconds :=
        if raw.timeoutSeconds ≤ 0 then s.defaultTimeout else raw.timeoutSeconds } :=
    if_neg hnames
  rw [finalStageNames, effectiveStages_normalize, hsplit, List.filterMap_append,
    List.filterMap_cons, hcounts, List.filterMap_nil, List.getLast?_concat]
  rfl

/-- **What normalizing keeps.**  Unless a rule without stages has a default and a legacy
timeout that differ, its stages count as before; normalizing again changes nothing; the closing
span names are those of the last stage, and the evaluator's final names when one of them is
usable; the legacy timeout stays as it was. -/
theorem normalize_keeps (s : RuleSpec) :
    (s.OneTimeout → s.normalize.effectiveStages = s.effectiveStages) ∧
      s.normalize.normalize = s.normalize ∧
      (∀ st ∈ s.normalize.stages.getLast?,
        s.normalize.closingSpanNames = st.spanNames ∧
          (st.spanNames ≠ [] → s.normalize.finalStageNames = st.spanNames)) ∧
      s.normalize.timeoutSeconds = s.timeoutSeconds := by
  refine ⟨effectiveStages_normalize_of_oneTimeout, s.normalize_normalize, ?_, ?_⟩
  · intro st hst
    exact ⟨closing_normalize hst, finalStageNames_normalize hst⟩
  · rw [normalize_eq]
    rfl

private def klart : RuleSpec := { stages := [⟨["Klart"], 60⟩], lookbackSeconds := 240 }

theorem timeout_not_mirrored :
    klart.normalize.effectiveStages.getLast? = some ⟨["Klart"], 60⟩ ∧
      klart.normalize.closingSpanNames = ["Klart"] ∧ klart.normalize.timeoutSeconds = 0 ∧
      ¬ ∀ s : RuleSpec, s.normalize.effectiveStages = s.effectiveStages ∧
        s.normalize.normalize = s.normalize ∧
        ∀ es ∈ s.normalize.effectiveStages.getLast?,
          s.normalize.closingSpanNames = es.spanNames ∧
            s.normalize.timeoutSeconds = es.timeoutSeconds := by
  have hlast : klart.normalize.effectiveStages.getLast? = some ⟨["Klart"], 60⟩ := by
    decide +kernel
  have htimeout : klart.normalize.timeoutSeconds = 0 := by decide +kernel
  refine ⟨hlast, by decide +kernel, htimeout, ?_⟩
  intro h
  have hmirrored := ((h klart).2.2 _ hlast).2
  rw [htimeout] at hmirrored
  cases hmirrored

end RuleSpec

end Sluicio.Tracecompletion
