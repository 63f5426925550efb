import Mathlib.Data.String.Basic

/-!
# Trace-completion rules

A rule describes an ordered pipeline that a trace is expected to walk.  Rules written
before there were stages have a flat list of closing span names instead, which is a
pipeline of one stage.
-/

namespace Sluicio.Tracecompletion

def isSpace (c : Char) : Bool :=
  let n := c.toNat
  (9 ≤ n && n ≤ 13) || n = 0x20 || n = 0x85 || n = 0xA0 || n = 0x1680 ||
    (0x2000 ≤ n && n ≤ 0x200A) || n = 0x2028 || n = 0x2029 || n = 0x202F || n = 0x205F ||
    n = 0x3000

def trimSpace (s : String) : String :=
  String.ofList (((s.toList.dropWhile isSpace).reverse.dropWhile isSpace).reverse)

def trimNonEmpty (names : List String) : List String :=
  (names.map trimSpace).filter (· ≠ "")

/-! ## Rules -/

structure Stage where
  spanNames : List String
  /-- 0 falls back to the rule's default -/
  timeoutSeconds : Int := 0
  deriving DecidableEq

structure RuleSpec where
  kind : String := "trace_completion"
  /-- gates the rule; empty means ungated -/
  startSpanName : String := ""
  stages : List Stage := []
  defaultTimeoutSeconds : Int := 0
  /-- the flat list of rules without stages -/
  closingSpanNames : List String := []
  timeoutSeconds : Int := 0
  lookbackSeconds : Int
  deriving DecidableEq

structure EffectiveStage where
  spanNames : List String
  timeoutSeconds : Int
  deriving DecidableEq

namespace RuleSpec

def defaultTimeout (s : RuleSpec) : Int :=
  if 0 < s.defaultTimeoutSeconds then s.defaultTimeoutSeconds else s.timeoutSeconds

def stagesOrLegacy (s : RuleSpec) : List Stage :=
  if s.stages = [] ∧ s.closingSpanNames ≠ [] then [⟨s.closingSpanNames, 0⟩] else s.stages

/-- A stage with its timeout resolved; none without a usable span name. -/
def effectiveStage (s : RuleSpec) (st : Stage) : Option EffectiveStage :=
  if trimNonEmpty st.spanNames = [] then none
  else
    some {
      spanNames := trimNonEmpty st.spanNames
      timeoutSeconds :=
        if st.timeoutSeconds ≤ 0 then s.defaultTimeout else st.timeoutSeconds }

def effectiveStages (s : RuleSpec) : List EffectiveStage :=
  s.stagesOrLegacy.filterMap s.effectiveStage

def gated (s : RuleSpec) : Bool := trimSpace s.startSpanName ≠ ""

def maxStageTimeout (s : RuleSpec) : Int :=
  s.effectiveStages.foldl (fun m es => max m es.timeoutSeconds) 0

def normalize (s : RuleSpec) : RuleSpec :=
  let s := { s with
    kind := if s.kind = "" then "trace_completion" else s.kind
    startSpanName := trimSpace s.startSpanName
    stages :=
      (if s.stages = [] ∧ s.closingSpanNames ≠ [] then
        [{ spanNames := s.closingSpanNames, timeoutSeconds := s.timeoutSeconds : Stage }]
       else s.stages).map fun st : Stage => { st with spanNames := trimNonEmpty st.spanNames } }
  let s := { s with
    closingSpanNames := (s.stages.getLast?.map Stage.spanNames).getD s.closingSpanNames }
  if s.lookbackSeconds = 0 ∧ 0 < s.maxStageTimeout then
    { s with lookbackSeconds := 4 * s.maxStageTimeout }
  else s

inductive SpecError where
  | kind
  | noStage
  | noSpanName (stage : Nat)
  | timeout (stage : Nat)
  | lookbackShort | lookbackLong

/-- The checks of the loop of `Validate` on one stage. -/
def validateStage (es : EffectiveStage) (stage : Nat) : Option SpecError :=
  if es.spanNames = [] then some (.noSpanName stage)
  else if es.timeoutSeconds < 1 ∨ 86400 < es.timeoutSeconds then some (.timeout stage)
  else none

def validate (s : RuleSpec) : Option SpecError :=
  if s.kind ≠ "" ∧ s.kind ≠ "trace_completion" then some .kind
  else if s.effectiveStages = [] then some .noStage
  else
    (s.effectiveStages.mapIdx fun i es => validateStage es (i + 1)).findSome? id <|>
    if s.lookbackSeconds < 2 * s.maxStageTimeout then some .lookbackShort
    else if 7 * 86400 < s.lookbackSeconds then some .lookbackLong
    else none

end RuleSpec

end Sluicio.Tracecompletion
