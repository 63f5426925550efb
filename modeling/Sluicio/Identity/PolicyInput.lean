import Mathlib.Data.Finset.Card
import Sluicio.Alerting.Store.Specs
import Sluicio.Identity.ExprSemantics
import Sluicio.Identity.ResourceGroups
import Sluicio.Tracecompletion.Types

/-!
# Creating a policy

A policy is created from a payload of texts, which is checked and reduced to the columns of the
row.  A payload whose row the group holds already is refused; `policyMatchesInput` is the test.
It goes through the columns one by one, and does not come to `grant_services`: a policy that
grants an integration alone passes for one that grants its services as well.
-/

namespace Sluicio.Identity

open Lib Tracecompletion PolicyExpr
open Alerting.Store (Value omitEmpty lookup_omitEmpty)

def PolicyKind.text : PolicyKind → String
  | .service => "service"
  | .integration => "integration"
  | .attributes => "attributes"
  | .compound => "compound"
  | .allOrg => "all_org"
  | .system => "system"
  | .expression => "expression"

def allPolicyKinds : List PolicyKind :=
  [.service, .integration, .attributes, .compound, .allOrg, .system, .expression]

def Signal.text : Signal → String
  | .traces => "traces"
  | .logs => "logs"
  | .metrics => "metrics"
  | .messages => "messages"

/-! ## Expressions as JSON -/

/-- An expression marshalled: an `omitempty` field is left out. -/
def PolicyExpr.marshal : PolicyExpr → Value
  | .node op children attr matchOp value values =>
    .object (omitEmpty "op" (op = "") (.string op) ++
      omitEmpty "children" children.isEmpty (.array (marshalChildren children)) ++
      omitEmpty "attr" (attr = "") (.string attr) ++
      omitEmpty "match" (matchOp = "") (.string matchOp) ++
      omitEmpty "value" (value = "") (.string value) ++
      omitEmpty "values" values.isEmpty (.array (values.map .string)))
where
  marshalChildren : List PolicyExpr → List Value
    | [] => []
    | e :: es => e.marshal :: marshalChildren es

theorem eq_of_omitted {α β : Type} {f : α → β} {empty x y : α} [Decidable (x = empty)]
    [Decidable (y = empty)] (hf : f x = f y → x = y)
    (h : (if x = empty then none else some (f x)) = if y = empty then none else some (f y)) :
    x = y := by
  by_cases hx : x = empty
  · by_cases hy : y = empty
    · rw [hx, hy]
    · simp [hx, hy] at h
  by_cases hy : y = empty
  · simp [hx, hy] at h
  · rw [if_neg hx, if_neg hy] at h
    exact hf (Option.some.inj h)

theorem array_strings_inj {values values' : List String}
    (h : (Audit.Json.array (values.map .string) : Value) = .array (values'.map .string)) :
    values = values' := by
  have hinj : Function.Injective (Audit.Json.string : String → Value) := fun _ _ h => by
    simpa using h
  exact List.map_injective_iff.mpr hinj (Audit.Json.array.inj h)

mutual

theorem PolicyExpr.marshal_inj : ∀ {e e' : PolicyExpr}, e.marshal = e'.marshal → e = e'
  | .node op children attr matchOp value values,
    .node op' children' attr' matchOp' value' values', h => by
    have hmember := fun key => congrArg (Alerting.Store.member · key) h
    have hop := hmember "op"
    have hchildren := hmember "children"
    have hattr := hmember "attr"
    have hmatch := hmember "match"
    have hvalue := hmember "value"
    have hvalues := hmember "values"
    simp [marshal, List.lookup_append, lookup_omitEmpty] at hop hchildren hattr
    simp [marshal, List.lookup_append, lookup_omitEmpty] at hmatch hvalue hvalues
    have hsame : children = children' :=
      eq_of_omitted (f := fun es => Audit.Json.array (marshal.marshalChildren es))
        (fun h => marshalChildren_inj (Audit.Json.array.inj h)) hchildren
    have hvalues : values = values' :=
      eq_of_omitted (f := fun vs => Audit.Json.array (vs.map .string)) array_strings_inj hvalues
    rw [eq_of_omitted (by simp) hop, eq_of_omitted (by simp) hattr,
      eq_of_omitted (by simp) hmatch, eq_of_omitted (by simp) hvalue, hvalues, hsame]

theorem marshalChildren_inj : ∀ {es es' : List PolicyExpr},
    marshal.marshalChildren es = marshal.marshalChildren es' → es = es'
  | [], [], _ => rfl
  | [], _ :: _, h => by simp [marshal.marshalChildren] at h
  | _ :: _, [], h => by simp [marshal.marshalChildren] at h
  | e :: es, e' :: es', h => by
    simp only [marshal.marshalChildren, List.cons.injEq] at h
    rw [PolicyExpr.marshal_inj h.1, marshalChildren_inj h.2]

end

theorem marshal_eq_iff {e e' : PolicyExpr} : e.marshal = e'.marshal ↔ e = e' :=
  ⟨marshal_inj, fun h => by rw [h]⟩

theorem node_eq_iff {op attr matchOp value op' attr' matchOp' value' : String}
    {children children' : List PolicyExpr} {values values' : List String} :
    (children = children' ∧ op = op' ∧ attr = attr' ∧ matchOp = matchOp' ∧ value = value' ∧
      values = values') ↔
      PolicyExpr.node op children attr matchOp value values =
        .node op' children' attr' matchOp' value' values' := by
  rw [PolicyExpr.node.injEq]
  exact and_left_comm

mutual

def PolicyExpr.decEq : (e e' : PolicyExpr) → Decidable (e = e')
  | .node _ children _ _ _ _, .node _ children' _ _ _ _ =>
    have := decEqChildren children children'
    decidable_of_iff _ node_eq_iff

def decEqChildren : (es es' : List PolicyExpr) → Decidable (es = es')
  | [], [] => isTrue rfl
  | [], _ :: _ => isFalse (List.cons_ne_nil _ _).symm
  | _ :: _, [] => isFalse (List.cons_ne_nil _ _)
  | e :: es, e' :: es' =>
    have := e.decEq e'
    have := decEqChildren es es'
    decidable_of_iff _ List.cons_eq_cons.symm

end

instance : DecidableEq PolicyExpr := decEq

instance (e e' : PolicyExpr) : Decidable (e.marshal = e'.marshal) :=
  decidable_of_iff _ marshal_eq_iff.symm

def exprJSONEqual : Option PolicyExpr → Option PolicyExpr → Bool
  | none, none => true
  | some a, some b => a.marshal = b.marshal
  | _, _ => false

theorem exprJSONEqual_iff {a b : Option PolicyExpr} : exprJSONEqual a b ↔ a = b := by
  cases a with
  | none => cases b <;> simp [exprJSONEqual]
  | some e =>
    cases b with
    | none => simp [exprJSONEqual]
    | some e' => simp [exprJSONEqual, marshal_eq_iff]

/-! ## The payload -/

/-- `AccessPolicyInput`, the payload. -/
structure AccessPolicyInput where
  kind : String
  targetServiceName : String := ""
  targetIntegrationID : String := ""
  targetSystemKind : String := ""
  targetSystemID : String := ""
  attributeMatch : List (String × String) := []
  conditions : Option PolicyExpr := none
  signals : List String := []
  grantServices : Bool := false

/-- Signals without a repetition. -/
abbrev SignalSet := { signals : List Signal // signals.Nodup }

def SignalSet.empty : SignalSet := ⟨[], List.nodup_nil⟩

/-- The payload after the check. -/
structure PolicyInput where
  kind : PolicyKind
  targetServiceName : String
  targetIntegrationID : String
  targetSystemKind : String
  targetSystemID : String
  attributeMatch : List (String × String)
  conditions : Option PolicyExpr
  signals : SignalSet
  grantServices : Bool

inductive PolicyError where
  | invalid (text : String)
  | unknownSignal (signal : String)
  | invalidKind (kind : String)
  | expr (e : ExprError)
  | attrLeaf (attr : String)
  | invalidIntegrationID
  | invalidSystemID
  | policyExists
  | database

/-- What the check takes from elsewhere. -/
structure PolicyTexts where
  toLower : String → String := String.toLower
  parseUUID : String → Option UUID
  compile : String → Option (String → Bool)

mutual

def forbidAttrLeaves : PolicyExpr → Except PolicyError Unit
  | .node op children attr _ _ _ =>
    if op ≠ "" then forbidAttrLeavesAll children
    else if attr ≠ "" then .error (.attrLeaf attr)
    else .ok ()

def forbidAttrLeavesAll : List PolicyExpr → Except PolicyError Unit
  | [] => .ok ()
  | e :: es => do
    forbidAttrLeaves e
    forbidAttrLeavesAll es

end

section Validate

variable (t : PolicyTexts)

def validateConditions (root : Option PolicyExpr) : Except PolicyError Unit :=
  (validateExpr t.compile root).mapError .expr

def validateNameOnlyExpr (root : PolicyExpr) : Except PolicyError Unit := do
  validateConditions t (some root)
  forbidAttrLeaves root

def validatePattern : Option PolicyExpr → Except PolicyError Unit
  | none => .ok ()
  | some root => validateNameOnlyExpr t root

/-- The loop over the signals. -/
def readSignals (out : SignalSet) : List String → Except PolicyError SignalSet
  | [] => .ok out
  | text :: texts =>
    match allSignals.find? fun sig => sig.text = t.toLower (trimSpace text) with
    | none => .error (.unknownSignal (t.toLower (trimSpace text)))
    | some sig =>
      if h : sig ∈ out.1 then readSignals out texts
      else readSignals ⟨out.1.concat sig, out.2.concat h⟩ texts

/-- All four signals are none. -/
def SignalSet.normalized (signals : SignalSet) : SignalSet :=
  if signals.1.length = allSignals.length then .empty else signals

def checkSystemTargets (kind systemKind systemID : String) : Except PolicyError Unit :=
  if kind ≠ PolicyKind.system.text ∧ systemKind ≠ "" then
    .error (.invalid "target_system_kind only applies to a system policy")
  else if kind ≠ PolicyKind.system.text ∧ systemID ≠ "" then
    .error (.invalid "target_system_id only applies to a system policy")
  else if systemKind ≠ "" ∧ systemID ≠ "" then
    .error (.invalid "system policy takes target_system_kind OR target_system_id, not both")
  else .ok ()

def checkShape (v : PolicyInput) : Except PolicyError Unit :=
  match v.kind with
  | .service =>
    if v.targetServiceName = "" then
      .error (.invalid "service policy requires target_service_name")
    else if v.targetIntegrationID ≠ "" ∨ v.attributeMatch ≠ [] then
      .error (.invalid "service policy must not set integration/attributes")
    else .ok ()
  | .integration =>
    if v.targetIntegrationID = "" ∧ v.conditions = none then
      .error (.invalid "integration policy requires target_integration_id or conditions")
    else if v.targetIntegrationID ≠ "" ∧ v.conditions ≠ none then
      .error (.invalid "integration policy takes target_integration_id or conditions, not both")
    else if v.targetServiceName ≠ "" ∨ v.attributeMatch ≠ [] then
      .error (.invalid "integration policy must not set service/attributes")
    else validatePattern t v.conditions
  | .attributes =>
    if v.attributeMatch = [] then
      .error (.invalid "attributes policy requires at least one attribute_match kv")
    else if v.targetServiceName ≠ "" ∨ v.targetIntegrationID ≠ "" then
      .error (.invalid "attributes policy must not set service/integration")
    else .ok ()
  | .compound =>
    if v.targetServiceName = "" ∧ v.targetIntegrationID = "" then
      .error (.invalid "compound policy requires target_service_name or target_integration_id")
    else if v.attributeMatch = [] then
      .error (.invalid "compound policy requires attribute_match")
    else .ok ()
  | .allOrg =>
    if v.targetServiceName ≠ "" ∨ v.targetIntegrationID ≠ "" ∨ v.attributeMatch ≠ [] then
      .error (.invalid "all_org policy must not set targets/attributes")
    else .ok ()
  | .system =>
    if v.targetServiceName ≠ "" ∨ v.targetIntegrationID ≠ "" ∨ v.attributeMatch ≠ [] then
      .error (.invalid "system policy must not set service/integration/attributes")
    else validatePattern t v.conditions
  | .expression =>
    if v.targetServiceName ≠ "" ∨ v.targetIntegrationID ≠ "" ∨ v.attributeMatch ≠ [] then
      .error (.invalid "expression policy must not set service/integration/attributes")
    else validateConditions t v.conditions

/-- `validatePolicyInput`, which normalizes the payload in place. -/
def validatePolicyInput (payload : AccessPolicyInput) : Except PolicyError PolicyInput := do
  let signals ← readSignals t .empty payload.signals
  let systemKind := t.toLower (trimSpace payload.targetSystemKind)
  let systemID := trimSpace payload.targetSystemID
  checkSystemTargets payload.kind systemKind systemID
  match allPolicyKinds.find? fun kind => kind.text = payload.kind with
  | none => .error (.invalidKind payload.kind)
  | some kind =>
    let v : PolicyInput := {
      kind := kind
      targetServiceName := trimSpace payload.targetServiceName
      targetIntegrationID := trimSpace payload.targetIntegrationID
      targetSystemKind := systemKind
      targetSystemID := systemID
      attributeMatch := payload.attributeMatch
      conditions := payload.conditions
      signals := signals.normalized
      grantServices := payload.grantServices }
    checkShape t v
    return v

end Validate

/-- The column values that a row is written from; `none` is NULL. -/
structure PolicyArgs where
  integrationID : Option UUID
  systemID : Option UUID
  service : Option String
  systemKind : Option String
  attributeMatch : List (String × String)
  conditions : Option PolicyExpr
  signals : Option (List Signal)

def nonEmpty (text : String) : Option String := if text = "" then none else some text

def parseTarget (t : PolicyTexts) (e : PolicyError) (text : String) :
    Except PolicyError (Option UUID) :=
  if text = "" then .ok none
  else
    match t.parseUUID text with
    | none => .error e
    | some id => .ok (some id)

/-- `buildPolicyArgs`, with the payload as it has normalized it. -/
def buildPolicyArgs (t : PolicyTexts) (payload : AccessPolicyInput) :
    Except PolicyError (PolicyInput × PolicyArgs) := do
  let v ← validatePolicyInput t payload
  let integrationID ← parseTarget t .invalidIntegrationID v.targetIntegrationID
  let systemID ← parseTarget t .invalidSystemID v.targetSystemID
  return (v, {
    integrationID := integrationID
    systemID := systemID
    service := nonEmpty v.targetServiceName
    systemKind := nonEmpty v.targetSystemKind
    attributeMatch := v.attributeMatch
    conditions := v.conditions
    signals := if v.signals.1 = [] then none else some v.signals.1 })

/-- The row that is inserted, as it is scanned. -/
def policyRow (groupID id : UUID) (v : PolicyInput) (a : PolicyArgs) : AccessPolicy where
  id := id
  groupID := groupID
  kind := v.kind
  targetServiceName := a.service
  targetIntegrationID := a.integrationID
  targetSystemKind := a.systemKind
  targetSystemID := a.systemID
  attributeMatch := a.attributeMatch
  conditions := a.conditions
  signals := a.signals.getD []
  grantServices := v.grantServices

instance : DecidablePred AccessPolicy.Shaped
  | ⟨_, _, .service, _, _, _, _, _, _, _, _⟩ =>
    inferInstanceAs (Decidable (_ ∧ _ ∧ _ ∧ _ ∧ _ ∧ _))
  | ⟨_, _, .integration, _, _, _, _, _, _, _, _⟩ =>
    inferInstanceAs (Decidable (_ ∧ _ ∧ _ ∧ _ ∧ (_ ∧ _ ∨ _ ∧ _)))
  | ⟨_, _, .attributes, _, _, _, _, _, _, _, _⟩ =>
    inferInstanceAs (Decidable (_ ∧ _ ∧ _ ∧ _ ∧ _ ∧ _))
  | ⟨_, _, .compound, _, _, _, _, _, _, _, _⟩ =>
    inferInstanceAs (Decidable ((_ ∨ _) ∧ _ ∧ _ ∧ _ ∧ _))
  | ⟨_, _, .allOrg, _, _, _, _, _, _, _, _⟩ =>
    inferInstanceAs (Decidable (_ ∧ _ ∧ _ ∧ _ ∧ _ ∧ _))
  | ⟨_, _, .system, _, _, _, _, _, _, _, _⟩ =>
    inferInstanceAs (Decidable (_ ∧ _ ∧ _ ∧ (_ ∨ _) ∧ ¬(_ ∧ _)))
  | ⟨_, _, .expression, _, _, _, _, _, _, _, _⟩ =>
    inferInstanceAs (Decidable (_ ∧ _ ∧ _ ∧ _ ∧ _ ∧ _))

/-! ## `policyMatchesInput` -/

def strDeref (text : Option String) : String := text.getD ""

def mapKeys (m : List (String × String)) : Finset String := (m.map Prod.fst).toFinset

/-- `maps.Equal`. -/
def mapsEqual (m m' : List (String × String)) : Bool :=
  (mapKeys m).card = (mapKeys m').card &&
    (m.map Prod.fst).all fun key => m.lookup key = m'.lookup key

theorem mem_mapKeys {m : List (String × String)} {key : String} :
    key ∈ mapKeys m ↔ m.lookup key ≠ none := by
  rw [mapKeys, List.mem_toFinset, Ne, List.lookup_eq_none_iff]
  simp only [List.mem_map, bne_iff_ne, ne_eq, not_forall, not_not, exists_prop]
  constructor
  · intro ⟨kv, hkv, hkey⟩
    exact ⟨kv, hkv, hkey.symm⟩
  · intro ⟨kv, hkv, hkey⟩
    exact ⟨kv, hkv, hkey.symm⟩

theorem mapsEqual_iff {m m' : List (String × String)} :
    mapsEqual m m' ↔ ∀ key, m.lookup key = m'.lookup key := by
  simp only [mapsEqual, Bool.and_eq_true, decide_eq_true_eq, List.all_eq_true]
  constructor
  · intro ⟨hcard, hall⟩ key
    have hagree : ∀ k ∈ mapKeys m, m.lookup k = m'.lookup k := fun k hk =>
      hall k (List.mem_toFinset.mp hk)
    have hsub : mapKeys m ⊆ mapKeys m' := by
      intro k hk
      rw [mem_mapKeys, ← hagree k hk]
      exact mem_mapKeys.mp hk
    have hkeys : mapKeys m = mapKeys m' := Finset.eq_of_subset_of_card_le hsub (by omega)
    by_cases hkey : key ∈ mapKeys m
    · exact hagree key hkey
    · have hkey' : key ∉ mapKeys m' := hkeys ▸ hkey
      rw [mem_mapKeys, not_not] at hkey hkey'
      rw [hkey, hkey']
  · intro hlookup
    have hkeys : mapKeys m = mapKeys m' := by
      ext key
      rw [mem_mapKeys, mem_mapKeys, hlookup key]
    exact ⟨by rw [hkeys], fun key _ => hlookup key⟩

def signalSetEqual (a b : List Signal) : Bool := a.length = b.length && b.all (· ∈ a)

theorem signalSetEqual_iff {a : List Signal} (b : SignalSet) :
    signalSetEqual a b.1 ↔ a.Perm b.1 := by
  simp only [signalSetEqual, Bool.and_eq_true, decide_eq_true_eq, List.all_eq_true]
  constructor
  · intro ⟨hlength, hall⟩
    have hsub : List.Subperm b.1 a := List.subperm_of_subset b.2 hall
    exact (hsub.perm_of_length_le (by omega)).symm
  · intro hperm
    exact ⟨hperm.length_eq, fun sig hsig => hperm.mem_iff.mpr hsig⟩

def policyMatchesInput (p : AccessPolicy) (v : PolicyInput)
    (integrationID systemID : Option UUID) : Bool :=
  p.kind = v.kind &&
    strDeref p.targetServiceName = v.targetServiceName &&
    p.targetIntegrationID = integrationID &&
    strDeref p.targetSystemKind = v.targetSystemKind &&
    p.targetSystemID = systemID &&
    mapsEqual p.attributeMatch v.attributeMatch &&
    exprJSONEqual p.conditions v.conditions &&
    signalSetEqual p.signals v.signals.1

section Create

variable (s : Store) (t : PolicyTexts) (groupID : UUID)

/-- `ListPoliciesForGroup`; the policies are newest first. -/
def Store.listPoliciesForGroup : List AccessPolicy :=
  s.policies.filter fun p => p.groupID = groupID

def Store.duplicateExists (v : PolicyInput) (a : PolicyArgs) : Bool :=
  (s.listPoliciesForGroup groupID).any fun p =>
    policyMatchesInput p v a.integrationID a.systemID

/-- The insert, under the constraint on the columns and the primary key. -/
def Store.insertPolicy (p : AccessPolicy) : Except PolicyError (Store × AccessPolicy) :=
  if p.Shaped then
    if h : p.id ∉ s.policies.map AccessPolicy.id then
      .ok ({ s with
        policies := p :: s.policies
        policyKey := List.nodup_cons.mpr ⟨h, s.policyKey⟩ }, p)
    else .error .database
  else .error .database

def Store.createPolicy (id : UUID) (payload : AccessPolicyInput) :
    Except PolicyError (Store × AccessPolicy) := do
  let x ← buildPolicyArgs t payload
  if s.duplicateExists groupID x.1 x.2 then .error .policyExists
  else s.insertPolicy (policyRow groupID id x.1 x.2)

end Create

/-! ## What the test decides -/

/-- The columns that access is resolved from are the same; a map is its lookups, and the
signals have no order. -/
structure AccessPolicy.SameColumns (p row : AccessPolicy) : Prop where
  groupID : p.groupID = row.groupID
  kind : p.kind = row.kind
  targetServiceName : p.targetServiceName = row.targetServiceName
  targetIntegrationID : p.targetIntegrationID = row.targetIntegrationID
  targetSystemKind : p.targetSystemKind = row.targetSystemKind
  targetSystemID : p.targetSystemID = row.targetSystemID
  attributeMatch : ∀ key, p.attributeMatch.lookup key = row.attributeMatch.lookup key
  conditions : p.conditions = row.conditions
  signals : p.signals.Perm row.signals
  grantServices : p.grantServices = row.grantServices

/-- The policy has the targets, the conditions and the signals of the payload; a text that is
empty passes for one that is absent. -/
structure AccessPolicy.Targets (p : AccessPolicy) (v : PolicyInput) (a : PolicyArgs) : Prop where
  kind : p.kind = v.kind
  targetServiceName : strDeref p.targetServiceName = v.targetServiceName
  targetIntegrationID : p.targetIntegrationID = a.integrationID
  targetSystemKind : strDeref p.targetSystemKind = v.targetSystemKind
  targetSystemID : p.targetSystemID = a.systemID
  attributeMatch : ∀ key, p.attributeMatch.lookup key = v.attributeMatch.lookup key
  conditions : p.conditions = v.conditions
  signals : p.signals.Perm v.signals.1

section Exact

variable {s : Store} {t : PolicyTexts} {groupID : UUID} {payload : AccessPolicyInput}
  {p : AccessPolicy} {v : PolicyInput} {a : PolicyArgs}

theorem policyMatchesInput_iff :
    policyMatchesInput p v a.integrationID a.systemID ↔ p.Targets v a := by
  simp only [policyMatchesInput, Bool.and_eq_true, decide_eq_true_eq, mapsEqual_iff,
    exprJSONEqual_iff, signalSetEqual_iff]
  constructor
  · intro ⟨⟨⟨⟨⟨⟨⟨hkind, hname⟩, hintegration⟩, hsystemKind⟩, hsystem⟩, hattrs⟩, hcond⟩, hsigs⟩
    exact ⟨hkind, hname, hintegration, hsystemKind, hsystem, hattrs, hcond, hsigs⟩
  · intro h
    exact ⟨⟨⟨⟨⟨⟨⟨h.kind, h.targetServiceName⟩, h.targetIntegrationID⟩, h.targetSystemKind⟩,
      h.targetSystemID⟩, h.attributeMatch⟩, h.conditions⟩, h.signals⟩

theorem eq_nonEmpty_iff {column : Option String} {text : String} :
    column = nonEmpty text ↔ strDeref column = text ∧ column ≠ some "" := by
  unfold nonEmpty strDeref
  cases column with
  | none =>
    by_cases h : text = ""
    · simp [h]
    · simp [h, Ne.symm h]
  | some c =>
    by_cases h : text = ""
    · simp [h]
    simp only [h, if_false, Option.some.injEq, Option.getD_some, ne_eq]
    constructor
    · intro hc
      exact ⟨hc, by rw [hc]; exact h⟩
    · intro hc
      exact hc.1

theorem buildPolicyArgs_eq_ok (h : buildPolicyArgs t payload = .ok (v, a)) :
    a.service = nonEmpty v.targetServiceName ∧ a.systemKind = nonEmpty v.targetSystemKind ∧
      a.attributeMatch = v.attributeMatch ∧ a.conditions = v.conditions ∧
      a.signals.getD [] = v.signals.1 := by
  simp only [buildPolicyArgs, bind_eq_ok, pure_eq_ok, Prod.mk.injEq] at h
  obtain ⟨w, -, integrationID, -, systemID, -, rfl, rfl⟩ := h
  refine ⟨rfl, rfl, rfl, rfl, ?_⟩
  by_cases hnil : w.signals.1 = []
  · simp [hnil]
  · simp [hnil]

/-- The row has the policy's columns if the policy has the payload's targets, is written as the
row is, and grants services as the payload does. -/
theorem sameColumns_iff (hargs : buildPolicyArgs t payload = .ok (v, a))
    (hgroup : p.groupID = groupID) (id : UUID) :
    p.SameColumns (policyRow groupID id v a) ↔ p.Targets v a ∧
      p.grantServices = v.grantServices ∧ p.targetServiceName ≠ some "" ∧
        p.targetSystemKind ≠ some "" := by
  obtain ⟨hservice, hsystemKind, hattrs, hcond, hsigs⟩ := buildPolicyArgs_eq_ok hargs
  constructor
  · intro h
    have hname := eq_nonEmpty_iff.mp (h.targetServiceName.trans hservice)
    have hkind := eq_nonEmpty_iff.mp (h.targetSystemKind.trans hsystemKind)
    refine ⟨?_, h.grantServices, hname.2, hkind.2⟩
    exact {
      kind := h.kind
      targetServiceName := hname.1
      targetIntegrationID := h.targetIntegrationID
      targetSystemKind := hkind.1
      targetSystemID := h.targetSystemID
      attributeMatch := hattrs ▸ h.attributeMatch
      conditions := h.conditions.trans hcond
      signals := hsigs ▸ h.signals }
  · intro ⟨h, hgrant, hname, hkind⟩
    exact {
      groupID := hgroup
      kind := h.kind
      targetServiceName :=
        (eq_nonEmpty_iff.mpr ⟨h.targetServiceName, hname⟩).trans hservice.symm
      targetIntegrationID := h.targetIntegrationID
      targetSystemKind := (eq_nonEmpty_iff.mpr ⟨h.targetSystemKind, hkind⟩).trans hsystemKind.symm
      targetSystemID := h.targetSystemID
      attributeMatch := fun key =>
        (h.attributeMatch key).trans (congrArg (List.lookup key) hattrs.symm)
      conditions := h.conditions.trans hcond.symm
      signals := h.signals.trans (.of_eq hsigs.symm)
      grantServices := hgrant }

theorem mem_listPoliciesForGroup :
    p ∈ s.listPoliciesForGroup groupID ↔ p ∈ s.policies ∧ p.groupID = groupID := by
  simp [Store.listPoliciesForGroup]

/-- **When the test is exact.**  A policy of the group passes for the payload just where it is
the row that would be stored, if and only if, having the payload's targets, it grants services
as the payload does and has no empty text for an absent one. -/
theorem policyMatchesInput_exact_iff (hargs : buildPolicyArgs t payload = .ok (v, a))
    (hp : p ∈ s.listPoliciesForGroup groupID) (id : UUID) :
    (policyMatchesInput p v a.integrationID a.systemID ↔
        p.SameColumns (policyRow groupID id v a)) ↔
      (p.Targets v a → p.grantServices = v.grantServices ∧ p.targetServiceName ≠ some "" ∧
        p.targetSystemKind ≠ some "") := by
  rw [policyMatchesInput_iff, sameColumns_iff hargs (mem_listPoliciesForGroup.mp hp).2 id]
  constructor
  · intro hexact htargets
    exact (hexact.mp htargets).2
  · intro hcond
    constructor
    · intro htargets
      exact ⟨htargets, hcond htargets⟩
    · intro hsame
      exact hsame.1

end Exact

private def invoicing : AccessPolicy where
  id := 1
  groupID := 4
  kind := .integration
  targetIntegrationID := some 7

private def invoicingStore : Store where
  policies := [invoicing]
  policyKey := List.nodup_singleton 1
  members := []
  shares := []
  attributes := []
  catalog :=
    { services := [], serviceKey := List.nodup_nil, systems := [], integrations := []
      matched := fun _ => [], attached := fun _ => [] }
  compile := fun _ => none

private def invoicingTexts : PolicyTexts where
  parseUUID := fun text => if text = "invoicing" then some 7 else none
  compile := fun _ => none

private def invoicingPayload (grantServices : Bool) : AccessPolicyInput where
  kind := "integration"
  targetIntegrationID := "invoicing"
  grantServices := grantServices

private theorem invoicing_mem : invoicing ∈ invoicingStore.listPoliciesForGroup 4 :=
  mem_listPoliciesForGroup.mpr ⟨List.mem_singleton.mpr rfl, rfl⟩

private theorem invoicingPayload_ok (grantServices : Bool) :
    ∃ v a, buildPolicyArgs invoicingTexts (invoicingPayload grantServices) = .ok (v, a) ∧
      invoicing.Targets v a ∧ v.grantServices = grantServices := by
  have hok : (match buildPolicyArgs invoicingTexts (invoicingPayload grantServices) with
      | .ok x => policyMatchesInput invoicing x.1 x.2.integrationID x.2.systemID &&
          (x.1.grantServices = grantServices)
      | .error _ => false) = true := by
    cases grantServices <;> decide +kernel
  cases h : buildPolicyArgs invoicingTexts (invoicingPayload grantServices) with
  | error e =>
    rw [h] at hok
    cases hok
  | ok x =>
    rw [h] at hok
    simp only [Bool.and_eq_true, decide_eq_true_eq] at hok
    exact ⟨x.1, x.2, rfl, policyMatchesInput_iff.mp hok.1, hok.2⟩

/-- A payload that grants no more than the stored policy. -/
theorem plain_payload_exact :
    ∃ v a, buildPolicyArgs invoicingTexts (invoicingPayload false) = .ok (v, a) ∧
      (policyMatchesInput invoicing v a.integrationID a.systemID ↔
        invoicing.SameColumns (policyRow 4 9 v a)) := by
  obtain ⟨v, a, hargs, -, hgrant⟩ := invoicingPayload_ok false
  refine ⟨v, a, hargs, ?_⟩
  refine (policyMatchesInput_exact_iff (s := invoicingStore) hargs invoicing_mem 9).mpr ?_
  intro _
  exact ⟨hgrant.symm, by decide, by decide⟩

/-- The policy on the integration alone is stored, one that grants its services as well is
asked for.  It passes for present, and is refused. -/
theorem granting_payload_refused :
    ∃ v a, buildPolicyArgs invoicingTexts (invoicingPayload true) = .ok (v, a) ∧
      invoicing ∈ invoicingStore.listPoliciesForGroup 4 ∧
      ¬(policyMatchesInput invoicing v a.integrationID a.systemID ↔
        invoicing.SameColumns (policyRow 4 9 v a)) ∧
      invoicingStore.createPolicy invoicingTexts 4 9 (invoicingPayload true) =
        .error .policyExists := by
  obtain ⟨v, a, hargs, htargets, hgrant⟩ := invoicingPayload_ok true
  refine ⟨v, a, hargs, invoicing_mem, ?_, ?_⟩
  · intro hexact
    have hsame := (hexact.mp (policyMatchesInput_iff.mpr htargets)).grantServices
    have hfalse : false := hsame.trans hgrant
    cases hfalse
  · have hdup : invoicingStore.duplicateExists 4 v a := by
      unfold Store.duplicateExists
      rw [List.any_eq_true]
      exact ⟨invoicing, invoicing_mem, policyMatchesInput_iff.mpr htargets⟩
    unfold Store.createPolicy
    rw [hargs]
    exact if_pos hdup

end Sluicio.Identity
