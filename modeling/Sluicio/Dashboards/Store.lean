import Mathlib.Data.List.Pairwise
import Sluicio.Tracecompletion.Types

/-!
# Dashboards: the rows

A dashboard belongs to an organization and, with `groupID`, to one of its teams.  Of each
organization and owner one dashboard is the default, a flag on its row.
-/

namespace Sluicio.Dashboards

open Tracecompletion (trimSpace)

abbrev UUID := Nat

/-! ## Requests -/

inductive WidgetType where
  | trafficSparkline | errorCount | latencyP95

/-- A card's widget by its name; an empty name is the default. -/
def WidgetType.parse (name : String) : Option WidgetType :=
  match name with
  | "" | "traffic_sparkline" => some .trafficSparkline
  | "error_count" => some .errorCount
  | "latency_p95" => some .latencyP95
  | _ => none

structure IncludeRule where
  kind : String
  key : String := ""
  value : String

/-- The columns of a dashboard that a request sets. -/
structure Settings where
  name : String
  isDefault : Bool
  autoIncludeAll : Bool
  defaultWidgetType : WidgetType
  position : Int
  environments : List String
  includeRule : Option IncludeRule

/-- `CreateRequest` and `UpdateRequest`, without the items. -/
structure DashboardRequest where
  name : String
  isDefault : Bool := false
  autoIncludeAll : Bool := false
  defaultWidgetType : String := ""
  position : Int := 0
  environments : List String := []
  includeRule : Option IncludeRule := none
  groupID : Option UUID := none

/-- A `validationError`, its text. -/
abbrev ValidationError := String

/-- `IncludeRule.Validate`, and the rule it leaves. -/
def IncludeRule.validate (r : IncludeRule) : Except ValidationError IncludeRule := do
  let r := { r with key := trimSpace r.key, value := trimSpace r.value }
  let r ←
    if r.kind = "metadata" then
      if r.key = "" ∨ r.value = "" then .error "a metadata rule needs a field and a value"
      else pure r
    else if r.kind = "tag" then
      if r.value = "" then .error "a tag rule needs a tag" else pure { r with key := "" }
    else .error "includeRule.kind must be \"metadata\" or \"tag\""
  if 200 < r.key.utf8ByteSize ∨ 200 < r.value.utf8ByteSize then
    .error "includeRule values must be 200 characters or fewer"
  else pure r

def cleanEnvironments (environments : List String) : Except ValidationError (List String) :=
  let trimmed := environments.map trimSpace
  if 20 < environments.length then .error "at most 20 environments per dashboard"
  else if trimmed.any fun e => 128 < e.utf8ByteSize then
    .error "environment name must be 128 characters or fewer"
  else .ok trimmed.eraseDups

/-- `Validate`, and the columns that are written. -/
def DashboardRequest.validate (r : DashboardRequest) : Except ValidationError Settings := do
  if trimSpace r.name = "" then .error "name is required"
  if 200 < r.name.utf8ByteSize then .error "name must be 200 characters or fewer"
  let widget ←
    match WidgetType.parse r.defaultWidgetType with
    | some w => pure w
    | none => .error ("unknown defaultWidgetType \"" ++ r.defaultWidgetType ++ "\"")
  let environments ← cleanEnvironments r.environments
  let includeRule ← r.includeRule.mapM IncludeRule.validate
  return {
    name := r.name
    isDefault := r.isDefault
    autoIncludeAll := r.autoIncludeAll
    defaultWidgetType := widget
    position := r.position
    environments := environments
    includeRule := includeRule }

/-- A row of `dashboards`. -/
structure Dashboard extends Settings where
  id : UUID
  organizationID : UUID
  ownerUserID : Option UUID := none
  groupID : Option UUID := none
  updatedAt : Nat := 0

/-- Two rows are of one organization and owner. -/
def Dashboard.SameOwner (d d' : Dashboard) : Prop :=
  d.organizationID = d'.organizationID ∧ d.ownerUserID = d'.ownerUserID

instance (d d' : Dashboard) : Decidable (d.SameOwner d') :=
  inferInstanceAs (Decidable (_ ∧ _))

/-- At most one dashboard of each organization and owner is the default. -/
def OneDefault (rows : List Dashboard) : Prop :=
  rows.Pairwise fun d d' => d.isDefault = true → d'.isDefault = true → ¬ d.SameOwner d'

instance (rows : List Dashboard) : Decidable (OneDefault rows) := by
  unfold OneDefault
  infer_instance

/-- The `WHERE` of `clearDefaults`.  The owner is the one the handlers pass, which is none. -/
def Dashboard.clearedBy (orgID : UUID) (keep : Option UUID) (d : Dashboard) : Bool :=
  d.organizationID = orgID && d.ownerUserID = none && some d.id ≠ keep && d.isDefault

/-- Its `SET`. -/
def Dashboard.clear (now : Nat) (d : Dashboard) : Dashboard :=
  { d with isDefault := false, updatedAt := now }

/-- The `UPDATE` of `Update`. -/
def Dashboard.update (now : Nat) (settings : Settings) (d : Dashboard) : Dashboard :=
  { d with toSettings := settings, updatedAt := now }

end Sluicio.Dashboards
