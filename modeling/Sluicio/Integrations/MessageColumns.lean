import Sluicio.Tracecompletion.Types

/-!
# The columns and the filter fields of a message list

An integration, and a saved view in its place, chooses the columns of its message list:
built-in facts of a row and span attributes that are promoted into columns.  An integration
also names the fields a search on it may filter by.  A column reads the telemetry, a filter
field only allows a search to.
-/

namespace Sluicio.Integrations

open Tracecompletion (isSpace trimSpace)

def fields (cs : List Char) : List (List Char) := (cs.splitOnP isSpace).filter (· ≠ [])

/-- `HumanizeKey`.  Only an ASCII first letter is put in upper case here; the length of the
heading, which is all that is checked of it, does not depend on that. -/
def humanizeKey (key : String) : String :=
  let s := (trimSpace key).toList
  let parts := s.splitOn '.'
  let s := if 3 ≤ parts.length then ['.'].intercalate (parts.drop 1) else s
  let words := fields (s.map fun c => if c ∈ ['.', '_', '-'] then ' ' else c)
  match [' '].intercalate words with
  | [] => trimSpace key
  | c :: cs => String.ofList (c.toUpper :: cs)

/-! ## Columns -/

def columnKindAttribute : String := "attribute"
def columnKindBuiltin : String := "builtin"

def maxMessageColumns : Nat := 5

/-- `MaxMessageColumnLabel`, in characters. -/
def maxMessageColumnLabel : Nat := 40

/-- `MessageColumn`; an empty kind reads as an attribute. -/
structure MessageColumn where
  kind : String := ""
  key : String
  label : String := ""

def MessageColumn.isAttribute (c : MessageColumn) : Bool := c.kind ≠ columnKindBuiltin

def builtinLabels : List (String × String) :=
  [("msg_id", "msg id"), ("service", "service"), ("step", "step"), ("duration", "duration")]

def defaultMessageColumns : List MessageColumn :=
  builtinLabels.map fun (key, label) => { kind := columnKindBuiltin, key := key, label := label }

def messageColumnKeys (cols : List MessageColumn) : List String :=
  (cols.filter MessageColumn.isAttribute).map MessageColumn.key

/-- `ErrInvalidMessageColumns`, by its cause. -/
inductive ColumnError where
  | keyRequired
  | unknownKind (kind : String)
  | unknownBuiltin (key : String)
  | labelTooLong (label : String)
  | tooManyAttributes

/-- The kind, the trimmed key and the label of one entry, or what is wrong with it. -/
def columnOf (c : MessageColumn) : Except ColumnError MessageColumn :=
  let key := trimSpace c.key
  let labelled (kind label : String) : MessageColumn :=
    { kind := kind, key := key,
      label := if trimSpace c.label = "" then label else trimSpace c.label }
  if key = "" then .error .keyRequired
  else if c.kind = columnKindBuiltin then
    match builtinLabels.lookup key with
    | none => .error (.unknownBuiltin key)
    | some label => .ok (labelled columnKindBuiltin label)
  else if c.kind ≠ "" ∧ c.kind ≠ columnKindAttribute then .error (.unknownKind c.kind)
  else .ok (labelled columnKindAttribute (humanizeKey key))

/-- The loop of `NormalizeMessageColumns`: the first of each kind and key is kept. -/
def normalizeInto : List MessageColumn → List MessageColumn →
    Except ColumnError (List MessageColumn)
  | out, [] => .ok out
  | out, c :: rest => do
    let col ← columnOf c
    if ∃ o ∈ out, o.kind = col.kind ∧ o.key = col.key then normalizeInto out rest
    else if maxMessageColumnLabel < col.label.length then .error (.labelTooLong col.label)
    else normalizeInto (out ++ [col]) rest

def normalizeMessageColumns (cols : List MessageColumn) :
    Except ColumnError (List MessageColumn) := do
  let out ← normalizeInto [] cols
  if maxMessageColumns < (out.filter MessageColumn.isAttribute).length then
    .error .tooManyAttributes
  else .ok out

/-- `MessageFilter`, without the label that only the picker shows. -/
structure MessageFilter where
  kind : String := ""
  key : String

def MessageFilter.isBuiltin (f : MessageFilter) : Bool := f.kind = columnKindBuiltin

def maxMessageFilters : Nat := 20

/-- The keys of `builtinFilterLabels`. -/
def builtinFilterKeys : List String := ["status", "service", "errorType", "traceId", "spanId"]

inductive FilterFieldError where
  | unknownKind (kind : String)
  | unknownStandard (key : String)
  | tooMany

/-- The loop of `NormalizeMessageFilters`: the first entry of each key is kept. -/
def normalizeFiltersInto : List MessageFilter → List MessageFilter →
    Except FilterFieldError (List MessageFilter)
  | out, [] => .ok out
  | out, f :: rest =>
    let key := trimSpace f.key
    let kind := if trimSpace f.kind = "" then columnKindAttribute else trimSpace f.kind
    if key = "" ∨ ∃ o ∈ out, o.key = key then normalizeFiltersInto out rest
    else if kind ≠ columnKindAttribute ∧ kind ≠ columnKindBuiltin then
      .error (.unknownKind kind)
    else if kind = columnKindBuiltin ∧ key ∉ builtinFilterKeys then .error (.unknownStandard key)
    else normalizeFiltersInto (out ++ [{ kind := kind, key := key }]) rest

def normalizeMessageFilters (filters : List MessageFilter) :
    Except FilterFieldError (List MessageFilter) := do
  let out ← normalizeFiltersInto [] filters
  if maxMessageFilters < out.length then .error .tooMany else .ok out

/-- `kindAllowed`: no entry of a kind allows every key of it. -/
def kindAllowed (ofKind : List MessageFilter) (key : String) : Bool :=
  ofKind.isEmpty || ofKind.any fun f => f.key = trimSpace key

def messageFilterAllowed (filters : List MessageFilter) (key : String) : Bool :=
  kindAllowed (filters.filter fun f => !f.isBuiltin) key

def builtinFilterAllowed (filters : List MessageFilter) (key : String) : Bool :=
  kindAllowed (filters.filter MessageFilter.isBuiltin) key

end Sluicio.Integrations
