import Sluicio.Integrations.MessageColumns
import Sluicio.Lib.Fallible

/-!
# Searching messages

`Build` turns the filter rows of a search, which a saved view stores, into conditions on the
spans.  Only two kinds of rows read an attribute: a payload row the one it names, and a row
on the error type `exception.type`.  The rows on the time and on the status name nothing of
a span's attributes, and are left out with what `Build` makes of them.
-/

namespace Sluicio.Messageviews

open Lib
open Tracecompletion (trimSpace)

inductive Field where
  | payload | time | integration | status | service | errorType | traceID | spanID
  | other (name : String)
  deriving DecidableEq

def Field.text : Field → String
  | .payload => "payload"
  | .time => "time"
  | .integration => "integration"
  | .status => "status"
  | .service => "service"
  | .errorType => "errorType"
  | .traceID => "traceId"
  | .spanID => "spanId"
  | .other name => name

inductive Operator where
  | equals | contains | is | isIn | matches
  | notEquals | notContains | exists | notExists
  | other (name : String)
  deriving DecidableEq

def Operator.negated : Operator → Bool
  | .notEquals | .notContains | .notExists => true
  | _ => false

def Operator.valueless : Operator → Bool
  | .exists | .notExists => true
  | _ => false

def Operator.positiveForm : Operator → Operator
  | .notEquals => .equals
  | .notContains => .contains
  | .notExists => .exists
  | op => op

/-- `Filter`, without what only the editor reads. -/
structure Filter where
  field : Field
  fieldPath : String := ""
  op : Operator
  value : String := ""
  optional : Bool := false
  includeDescendants : Bool := false

inductive FilterError where
  | unknownField (name : String)
  | unknownOperator (name : String)
  | payloadOnly (op : Operator) (field : Field)
  | valueTooLong
  | fieldPathTooLong

def Filter.validate (f : Filter) : Except FilterError Unit :=
  match f.field, f.op with
  | .other name, _ => .error (.unknownField name)
  | _, .other name => .error (.unknownOperator name)
  | field, op =>
    if op.valueless ∧ field ≠ .payload then .error (.payloadOnly op field)
    else if 256 < f.value.utf8ByteSize then .error .valueTooLong
    else if 128 < f.fieldPath.utf8ByteSize then .error .fieldPathTooLong
    else .ok ()

/-- `ValidateAll`, without the number of the row. -/
def validateAll (fs : List Filter) : Except FilterError Unit := fs.forM Filter.validate

def safeAttributeKey (k : String) : Bool :=
  k ≠ "" && k.toList.all fun c => c.isAlphanum || c ∈ ['_', '.', '-']

def splitList (v : String) : List String :=
  ((v.toList.splitOn ',').map fun p => trimSpace (String.ofList p)).filter (· ≠ "")

/-- `strings.EqualFold` with `"any"`, whose letters have no case but the ASCII ones. -/
def isAny (v : String) : Bool := v.toList.map Char.toLower = "any".toList

/-! ## `Build` -/

/-- A condition on a span, with the values it binds. -/
inductive Clause where
  | traceID (part : Bool) (id : String)
  | spanID (part : Bool) (id : String)
  | payload (key : String) (op : Operator) (values : List String)
  | errorType (op : Operator) (values : List String)
  | always

def exceptionTypeKey : String := "exception.type"

/-- The attributes a condition reads. -/
def Clause.keys : Clause → List String
  | .payload key _ _ => [key]
  | .errorType _ _ => [exceptionTypeKey]
  | _ => []

structure SQL where
  clauses : List Clause := []
  /-- the positive forms of the negated rows -/
  excludeClauses : List Clause := []
  serviceNameLiterals : List String := []
  integrationName : String := ""
  descendants : Bool := false

/-- The attributes a search reads to find its messages. -/
def SQL.keys (q : SQL) : List String := (q.clauses ++ q.excludeClauses).flatMap Clause.keys

inductive BuildError where
  | invalidFieldPath (path : String)
  | unsupported (op : Operator) (field : Field)

def payloadClause (key : String) (op : Operator) (value : String) : Except BuildError Clause :=
  match op with
  | .equals | .is | .contains | .matches => .ok (.payload key op [value])
  | .exists => .ok (.payload key op [])
  | .isIn =>
    match splitList value with
    | [] => .ok .always
    | vals => .ok (.payload key op vals)
  | op => .error (.unsupported op .payload)

def errorTypeClause (op : Operator) (value : String) : Except BuildError (List Clause) :=
  match op with
  | .equals | .is | .contains | .matches => .ok [.errorType op [value]]
  | .isIn =>
    match splitList value with
    | [] => .ok []
    | vals => .ok [.errorType op vals]
  | op => .error (.unsupported op .errorType)

/-- What one row adds to the search. -/
def addFilter (out : SQL) (f : Filter) : Except BuildError SQL :=
  if f.optional then .ok out
  else
    match f.field with
    | .service =>
      match splitList f.value with
      | [] => .ok out
      | [v] =>
        if isAny v then .ok out
        else .ok { out with serviceNameLiterals := out.serviceNameLiterals ++ [v] }
      | vals => .ok { out with serviceNameLiterals := out.serviceNameLiterals ++ vals }
    | .integration =>
      let v := trimSpace f.value
      if v = "" ∨ isAny v then .ok out else .ok { out with integrationName := v }
    | .traceID =>
      let v := (trimSpace f.value).toLower
      if v = "" then .ok out
      else .ok { out with clauses := out.clauses ++ [.traceID (f.op = .contains) v] }
    | .spanID =>
      let v := (trimSpace f.value).toLower
      if v = "" then .ok out
      else .ok { out with clauses := out.clauses ++ [.spanID (f.op = .contains) v] }
    | .errorType =>
      if trimSpace f.value = "" then .ok out
      else do
        let cs ← errorTypeClause f.op f.value
        return { out with clauses := out.clauses ++ cs }
    | .payload =>
      -- a row without a key, or with a key and no value, is not finished
      if trimSpace f.fieldPath = "" then .ok out
      else if !f.op.valueless ∧ trimSpace f.value = "" then .ok out
      else if !safeAttributeKey f.fieldPath then .error (.invalidFieldPath f.fieldPath)
      else do
        let c ← payloadClause f.fieldPath f.op.positiveForm f.value
        if f.op.negated then return { out with excludeClauses := out.excludeClauses ++ [c] }
        else
          return { out with clauses := out.clauses ++ [c],
                            descendants := out.descendants || f.includeDescendants }
    | _ => .ok out

def build (filters : List Filter) : Except BuildError SQL := filters.foldlM addFilter {}

/-! ## What a search reads -/

/-- The row makes the search read the attribute. -/
def Filter.Names (f : Filter) (key : String) : Prop :=
  (f.field = .payload ∧ f.fieldPath = key ∧ key ≠ "") ∨
    (f.field = .errorType ∧ key = exceptionTypeKey)

variable {k : String} {out' : SQL} {op : Operator} {value : String}

theorem mem_keys_payloadClause {key : String} {c : Clause} (h : payloadClause key op value = .ok c)
    (hk : k ∈ c.keys) : k = key := by
  cases op with
  | isIn =>
    simp only [payloadClause] at h
    split at h
    · cases h
      cases hk
    · cases h
      simpa [Clause.keys] using hk
  | equals | is | contains | «matches» | «exists» =>
    cases h
    simpa [Clause.keys] using hk
  | _ => cases h

theorem mem_keys_errorTypeClause {cs : List Clause} (h : errorTypeClause op value = .ok cs)
    (hk : k ∈ cs.flatMap Clause.keys) : k = exceptionTypeKey := by
  cases op with
  | isIn =>
    simp only [errorTypeClause] at h
    split at h
    · cases h
      cases hk
    · cases h
      simpa [Clause.keys] using hk
  | equals | is | contains | «matches» =>
    cases h
    simpa [Clause.keys] using hk
  | _ => cases h

theorem mem_keys_of_append (out : SQL) (cs es : List Clause) (hk : k ∈ out'.keys)
    (hcs : out'.clauses = out.clauses ++ cs)
    (hes : out'.excludeClauses = out.excludeClauses ++ es) :
    k ∈ out.keys ∨ k ∈ (cs ++ es).flatMap Clause.keys := by
  simp only [SQL.keys, hcs, hes, List.flatMap_append, List.mem_append] at hk ⊢
  tauto

theorem mem_keys_addFilter {out : SQL} {f : Filter} (h : addFilter out f = .ok out')
    (hk : k ∈ out'.keys) : k ∈ out.keys ∨ f.Names k := by
  have hsame : out'.clauses = out.clauses → out'.excludeClauses = out.excludeClauses →
      k ∈ out.keys ∨ f.Names k := by
    intro hc he
    rw [SQL.keys, hc, he] at hk
    exact .inl hk
  unfold addFilter at h
  split at h
  · cases h
    exact .inl hk
  split at h
  · -- a service
    split at h
    · cases h
      exact .inl hk
    · split at h <;> cases h <;> exact hsame rfl rfl
    · cases h
      exact hsame rfl rfl
  · -- an integration
    simp only at h
    split at h <;> cases h <;> exact hsame rfl rfl
  · -- a trace id
    simp only at h
    split at h
    · cases h
      exact .inl hk
    cases h
    rcases mem_keys_of_append out [_] [] hk rfl (List.append_nil _).symm with hold | hnew
    · exact .inl hold
    · cases hnew
  · -- a span id
    simp only at h
    split at h
    · cases h
      exact .inl hk
    cases h
    rcases mem_keys_of_append out [_] [] hk rfl (List.append_nil _).symm with hold | hnew
    · exact .inl hold
    · cases hnew
  · -- an error type
    rename_i hfield
    split at h
    · cases h
      exact .inl hk
    obtain ⟨cs, hcs, hout⟩ := bind_eq_ok.1 h
    cases hout
    rcases mem_keys_of_append out cs [] hk rfl (List.append_nil _).symm with hold | hnew
    · exact .inl hold
    · rw [List.append_nil] at hnew
      exact .inr (.inr ⟨hfield, mem_keys_errorTypeClause hcs hnew⟩)
  · -- a payload attribute
    rename_i hfield
    split at h
    · cases h
      exact .inl hk
    split at h
    · cases h
      exact .inl hk
    split at h
    · cases h
    rename_i hpath _ _
    obtain ⟨c, hc, hout⟩ := bind_eq_ok.1 h
    have hnew : k ∈ [c].flatMap Clause.keys → f.Names k := by
      intro hkc
      obtain rfl := mem_keys_payloadClause hc (by simpa using hkc)
      refine .inl ⟨hfield, rfl, fun hempty => hpath ?_⟩
      rw [hempty]
      rfl
    split at hout
    · cases hout
      exact (mem_keys_of_append out [] [c] hk (List.append_nil _).symm rfl).imp_right hnew
    · cases hout
      exact (mem_keys_of_append out [c] [] hk rfl (List.append_nil _).symm).imp_right hnew
  · cases h
    exact .inl hk

/-- **What a search reads.**  Every attribute a search reads to find its messages is named by
one of its rows. -/
theorem mem_keys_build {filters : List Filter} {plan : SQL} (h : build filters = .ok plan)
    (hk : k ∈ plan.keys) : ∃ f ∈ filters, f.Names k := by
  suffices hgen : ∀ out, filters.foldlM addFilter out = .ok plan →
      k ∈ out.keys ∨ ∃ f ∈ filters, f.Names k by
    rcases hgen {} h with hnil | hnamed
    · cases hnil
    · exact hnamed
  clear h
  induction filters with
  | nil =>
    intro out h
    cases h
    exact .inl hk
  | cons f fs ih =>
    intro out h
    rw [List.foldlM_cons] at h
    obtain ⟨mid, hmid, hrest⟩ := bind_eq_ok.1 h
    rcases ih mid hrest with hkeys | ⟨g, hg, hnames⟩
    · rcases mem_keys_addFilter hmid hkeys with hold | hf
      · exact .inl hold
      · exact .inr ⟨f, List.mem_cons_self, hf⟩
    · exact .inr ⟨g, List.mem_cons_of_mem _ hg, hnames⟩

end Sluicio.Messageviews
