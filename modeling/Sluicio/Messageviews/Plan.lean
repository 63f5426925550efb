import Sluicio.Messageviews.Search
import Sluicio.Store.Messages

/-!
# The plan of a search

`Build` makes of the rows what the store is asked: the conditions, what they say of a span, and
beside them the status and the time.  A muted row is passed over, so that the plan is that of
the rows without it.
-/

namespace Sluicio.Messageviews

open Lib
open Store (TraceSpan)
open Tracecompletion (trimSpace)

/-- `strings.TrimPrefix(v, "last ")`. -/
def trimLast (v : String) : String :=
  if "last ".toList.isPrefixOf v.toList then String.ofList (v.toList.drop 5) else v

section Hints

variable (toLower : String → String)

def parseTimePreset (v : String) : String :=
  match trimLast (toLower (trimSpace v)) with
  | "15 minutes" | "15m" => "15m"
  | "1 hour" | "1h" => "1h"
  | "24 hours" | "24h" | "1 day" | "1d" => "24h"
  | "7 days" | "7d" | "1 week" => "168h"
  | _ => ""

def normStatus (v : String) : String :=
  let cs := (toLower (trimSpace v)).toList
  if "any".toList.isPrefixOf cs then "any"
  else if "err".toList.isPrefixOf cs then "err"
  else if "ok".toList.isPrefixOf cs then "ok"
  else if "warn".toList <:+: cs then "warn-or-err"
  else ""

/-- What `Build` gathers beside the conditions. -/
structure Hints where
  onlyFailed : Bool := false
  statusOK : Bool := false
  timePreset : String := ""

/-- What one row says of the status and of the time. -/
def addHint (out : Hints) (f : Filter) : Hints :=
  if f.optional then out
  else
    match f.field with
    | .time => { out with timePreset := parseTimePreset toLower f.value }
    | .status =>
      match normStatus toLower f.value with
      | "err" | "warn-or-err" => { out with onlyFailed := true }
      | "ok" => { out with statusOK := true }
      | _ => out
    | _ => out

/-- `SQL` with all its fields. -/
structure Plan extends SQL, Hints

/-- `Build` with all it answers. -/
def buildPlan (filters : List Filter) : Except BuildError Plan := do
  let sql ← build filters
  return { sql, filters.foldl (addHint toLower) {} with }

end Hints

structure TextFunctions where
  /-- `positionCaseInsensitive(value, part) > 0` -/
  position : String → String → Bool
  /-- `match(value, pattern)` -/
  isMatch : String → String → Bool
  lower : String → String

def TextFunctions.test (fs : TextFunctions) (op : Operator) (values : List String)
    (value : String) : Bool :=
  match op with
  | .contains => values.any fun v => fs.position value v
  | .matches => values.any fun v => fs.isMatch value v
  | _ => value ∈ values

/-- What a condition says of a span. -/
def Clause.holds (fs : TextFunctions) (c : Clause) (s : TraceSpan) : Bool :=
  match c with
  | .traceID part id => if part then fs.position s.traceId id else fs.lower s.traceId = id
  | .spanID part id => if part then fs.position s.spanId id else fs.lower s.spanId = id
  | .payload key .exists _ => s.spanAttributes.contains key || s.resourceAttributes.contains key
  | .payload key op values =>
    fs.test op values (s.spanAttributes.value key) ||
      fs.test op values (s.resourceAttributes.value key)
  | .errorType op values =>
    fs.test op values s.statusMessage || fs.test op values s.exceptionType ||
      fs.test op values (s.spanAttributes.value exceptionTypeKey)
  | .always => true

/-! ## Muted rows -/

/-- The rows that are not muted. -/
def unmuted (filters : List Filter) : List Filter := filters.filter fun f => !f.optional

section Muted

variable {toLower : String → String} {filters : List Filter}

theorem mem_unmuted {f : Filter} : f ∈ unmuted filters ↔ f ∈ filters ∧ f.optional = false := by
  rw [unmuted, List.mem_filter, Bool.not_eq_true']

theorem addFilter_of_muted {f : Filter} (h : f.optional) (out : SQL) :
    addFilter out f = .ok out := by
  rw [addFilter, if_pos h]

theorem build_unmuted : build (unmuted filters) = build filters := by
  suffices hgen : ∀ out, (unmuted filters).foldlM addFilter out = filters.foldlM addFilter out
    from hgen {}
  induction filters with
  | nil => exact fun _ => rfl
  | cons f fs ih =>
    intro out
    rw [List.foldlM_cons, unmuted, List.filter_cons]
    by_cases hmuted : f.optional = true
    · rw [addFilter_of_muted hmuted, if_neg (by simp [hmuted])]
      exact ih out
    rw [if_pos (by simp [hmuted]), List.foldlM_cons]
    cases addFilter out f with
    | error e => rfl
    | ok mid => exact ih mid

theorem hints_unmuted :
    (unmuted filters).foldl (addHint toLower) {} = filters.foldl (addHint toLower) {} := by
  suffices hgen : ∀ out, (unmuted filters).foldl (addHint toLower) out =
      filters.foldl (addHint toLower) out from hgen {}
  induction filters with
  | nil => exact fun _ => rfl
  | cons f fs ih =>
    intro out
    rw [List.foldl_cons, unmuted, List.filter_cons]
    by_cases hmuted : f.optional = true
    · have hsame : addHint toLower out f = out := by rw [addHint, if_pos hmuted]
      rw [hsame, if_neg (by simp [hmuted])]
      exact ih out
    · rw [if_pos (by simp [hmuted]), List.foldl_cons]
      exact ih _

/-- `Build` passes the muted rows over. -/
theorem buildPlan_unmuted : buildPlan toLower (unmuted filters) = buildPlan toLower filters := by
  unfold buildPlan
  rw [build_unmuted, hints_unmuted]

theorem validateAll_eq_ok : validateAll filters = .ok () ↔ ∀ f ∈ filters, f.validate = .ok () := by
  unfold validateAll
  induction filters with
  | nil => simp [pure_eq_ok]
  | cons f fs ih =>
    show (f.validate >>= fun _ => fs.forM Filter.validate) = .ok () ↔ _
    rw [bind_eq_ok, List.forall_mem_cons, ← ih]
    constructor
    · intro h
      obtain ⟨u, hf, hfs⟩ := h
      exact ⟨hf, hfs⟩
    · intro h
      exact ⟨(), h.1, h.2⟩

end Muted

end Sluicio.Messageviews
