import Mathlib.Data.String.Basic
import Sluicio.Alerting.Store.Specs
import Sluicio.Lib.Ordered

/-!
# The context of a notification

The data object that a notification template reads: what is marshalled of it, the bindings that
a renderer resolves paths against, and the palette of the paths it has.  Marshalling and the
palette both come from one description of the fields, as the source reflects both from the tags
of its structs.
-/

namespace Sluicio.Alerting

open Audit (Json)
open Lib

/-- `map[string]any` -/
abbrev Members (N : Type) := List (String × Json N)

/-! ## Facts -/

structure AlertFacts where
  state : String
  severity : String
  summary : String
  startedAt : String := ""
  link : String := ""
  stateEmoji : String := ""
  environment : String := ""

structure RuleFacts where
  name : String := ""
  description : String := ""
  signal : String := ""
  kind : String := ""
  runbook : String := ""

structure CheckFacts where
  name : String := ""
  metric : String := ""
  value : String := ""
  threshold : String := ""
  window : String := ""

structure ServiceFacts where
  name : String
  status : String := ""
  errorCount : Int
  metadata : List (String × String) := []

structure IntegrationFacts where
  name : String
  slug : String := ""
  status : String := ""
  services : List String := []
  metadata : List (String × String) := []

structure ExceptionFacts where
  type : String
  message : String := ""
  service : String := ""
  traceId : String := ""
  stacktrace : String := ""

structure OrgFacts where
  company : String := ""
  environment : String := ""
  product : String

structure AlertContext where
  alert : AlertFacts
  rule : RuleFacts
  check : Option CheckFacts := none
  service : Option ServiceFacts := none
  integration : Option IntegrationFacts := none
  exception : Option ExceptionFacts := none
  org : OrgFacts
  sentAt : String

structure EmailParts where
  subject : String
  text : String
  html : String

/-- The field of a struct, by its type. -/
inductive Leaf (γ : Type) where
  | string (get : γ → String)
  | int (get : γ → Int)
  | slice (get : γ → List String)
  | map (get : γ → List (String × String))

/-- A field with its `json` tag. -/
structure StructField (γ : Type) where
  tag : String
  omitEmpty : Bool
  leaf : Leaf γ

/-- A field of the context, which is a struct, a pointer to one or a text. -/
inductive ContextField where
  | leaf (f : StructField AlertContext)
  | block {β : Type} (tag : String) (get : AlertContext → Option β) (fields : List (StructField β))

def AlertFacts.fields : List (StructField AlertFacts) :=
  [⟨"state", false, .string state⟩, ⟨"severity", false, .string severity⟩,
    ⟨"summary", false, .string summary⟩, ⟨"started_at", true, .string startedAt⟩,
    ⟨"link", true, .string link⟩, ⟨"state_emoji", true, .string stateEmoji⟩,
    ⟨"environment", true, .string environment⟩]

def RuleFacts.fields : List (StructField RuleFacts) :=
  [⟨"name", true, .string name⟩, ⟨"description", true, .string description⟩,
    ⟨"signal", true, .string signal⟩, ⟨"kind", true, .string kind⟩,
    ⟨"runbook", true, .string runbook⟩]

def CheckFacts.fields : List (StructField CheckFacts) :=
  [⟨"name", true, .string name⟩, ⟨"metric", true, .string metric⟩,
    ⟨"value", true, .string value⟩, ⟨"threshold", true, .string threshold⟩,
    ⟨"window", true, .string window⟩]

def ServiceFacts.fields : List (StructField ServiceFacts) :=
  [⟨"name", false, .string name⟩, ⟨"status", true, .string status⟩,
    ⟨"error_count", false, .int errorCount⟩, ⟨"metadata", true, .map metadata⟩]

def IntegrationFacts.fields : List (StructField IntegrationFacts) :=
  [⟨"name", false, .string name⟩, ⟨"slug", true, .string slug⟩,
    ⟨"status", true, .string status⟩, ⟨"services", true, .slice services⟩,
    ⟨"metadata", true, .map metadata⟩]

def ExceptionFacts.fields : List (StructField ExceptionFacts) :=
  [⟨"type", false, .string type⟩, ⟨"message", true, .string message⟩,
    ⟨"service", true, .string service⟩, ⟨"trace_id", true, .string traceId⟩,
    ⟨"stacktrace", true, .string stacktrace⟩]

def OrgFacts.fields : List (StructField OrgFacts) :=
  [⟨"company", true, .string company⟩, ⟨"environment", true, .string environment⟩,
    ⟨"product", false, .string product⟩]

def AlertContext.fields : List ContextField :=
  [.block "alert" (fun c => some c.alert) AlertFacts.fields,
    .block "rule" (fun c => some c.rule) RuleFacts.fields,
    .block "check" check CheckFacts.fields,
    .block "service" service ServiceFacts.fields,
    .block "integration" integration IntegrationFacts.fields,
    .block "exception" exception ExceptionFacts.fields,
    .block "org" (fun c => some c.org) OrgFacts.fields,
    .leaf ⟨"sent_at", false, .string sentAt⟩]

/-! ## Marshalling -/

variable {N β : Type} (ofInt : Int → N)

namespace Leaf

/-- What `omitempty` leaves out. -/
def isEmpty : Leaf β → β → Bool
  | string get, b => get b == ""
  | int get, b => get b == 0
  | slice get, b => (get b).isEmpty
  | map get, b => (get b).isEmpty

/-- The value that is marshalled. -/
def json : Leaf β → β → Json N
  | string get, b => .string (get b)
  | int get, b => .number (ofInt (get b))
  | slice get, b => .array ((get b).map .string)
  | map get, b => .object ((get b).map fun kv => (kv.1, .string kv.2))

def isMap : Leaf β → Bool
  | map _ => true
  | _ => false

end Leaf

/-- Is the field left out? -/
def StructField.omitted (f : StructField β) (b : β) : Bool := f.omitEmpty && f.leaf.isEmpty b

def StructField.marshal (f : StructField β) (b : β) : Option (String × Json N) :=
  if f.omitted b then none else some (f.tag, f.leaf.json ofInt b)

def marshalStruct (fields : List (StructField β)) (b : β) : Members N :=
  fields.filterMap fun f => f.marshal ofInt b

namespace ContextField

def tag : ContextField → String
  | leaf f => f.tag
  | block tag _ _ => tag

/-- A nil pointer is left out. -/
def marshal (c : AlertContext) : ContextField → Option (String × Json N)
  | leaf f => f.marshal ofInt c
  | block tag get fields => (get c).map fun b => (tag, .object (marshalStruct ofInt fields b))

end ContextField

/-- The context, written and read back: an `int` comes back as a number of its own kind. -/
def AlertContext.marshal (c : AlertContext) : Members N :=
  fields.filterMap fun f => f.marshal ofInt c

/-- `m[k] = v` -/
def setMember (k : String) (v : Json N) (m : Members N) : Members N :=
  (k, v) :: m.filter fun e => e.1 != k

def metaPairs (metadata : List (String × String)) : Json N :=
  .array ((orderBy Prod.fst metadata).map fun kv =>
    .object [("key", .string kv.1), ("value", .string kv.2)])

def putMetadata (tag : String) (metadata : Option (List (String × String))) (m : Members N) :
    Members N :=
  match metadata, m.lookup tag with
  | some pairs, some (.object block) =>
    setMember tag (.object (setMember "metadata" (metaPairs pairs) block)) m
  | _, _ => m

/-- The `include` map. -/
def includeMembers (content : Store.NotificationContent) : Members N :=
  [("service", .bool content.service), ("integration", .bool content.integration),
    ("service_metadata", .bool content.serviceMetadata),
    ("integration_metadata", .bool content.integrationMetadata), ("check", .bool content.check)]

def AlertContext.bindings (c : AlertContext) (content : Store.NotificationContent) : Members N :=
  setMember "include" (.object (includeMembers content)) <|
    putMetadata "integration" (c.integration.map (·.metadata)) <|
      putMetadata "service" (c.service.map (·.metadata)) (c.marshal ofInt)

def EmailParts.bindings (e : EmailParts) : Members N :=
  [("subject", .string e.subject), ("text", .string e.text), ("html", .string e.html)]

def scopeWebhook : String := "webhook"

/-- A palette entry, without its texts. -/
structure TemplateVariable where
  path : String
  type : String
  scope : String := ""

def Leaf.entry (path : String) : Leaf β → TemplateVariable
  | string _ => ⟨path, "string", ""⟩
  | int _ => ⟨path, "number", ""⟩
  | slice _ => ⟨path, "list", ""⟩
  | map _ => ⟨path ++ ".<key>", "string", ""⟩

def walkStruct (fields : List ContextField) : List TemplateVariable :=
  fields.flatMap fun
    | .leaf f => [f.leaf.entry f.tag]
    | .block tag _ fields => fields.map fun f => f.leaf.entry (tag ++ "." ++ f.tag)

def includePaths : List String :=
  ["include.check", "include.integration", "include.integration_metadata", "include.service",
    "include.service_metadata"]

def webhookEmailPaths : List (String × String) :=
  [("email.subject", "string"), ("email.text", "string"), ("email.html", "string")]

/-- `TemplateContextSchema`, in the order of its sources. -/
def templateContextSchema : List TemplateVariable :=
  walkStruct AlertContext.fields ++ includePaths.map (fun p => ⟨p, "boolean", ""⟩) ++
    webhookEmailPaths.map fun p => ⟨p.1, p.2, scopeWebhook⟩

def knownTemplatePaths : List String := templateContextSchema.map (·.path)

variable {ofInt}

theorem lookup_setMember (k k' : String) (v : Json N) (m : Members N) :
    (setMember k v m).lookup k' = if k' = k then some v else m.lookup k' := by
  unfold setMember
  rw [List.lookup_cons]
  by_cases hk : k' = k
  · rw [if_pos hk, beq_iff_eq.2 hk]
  rw [if_neg hk, beq_false_of_ne hk]
  dsimp only
  induction m with
  | nil => rfl
  | cons e m ih =>
    rw [List.filter_cons]
    by_cases he : e.1 = k
    · have hne : (k' == e.1) = false := beq_false_of_ne (he ▸ hk)
      rw [bne_eq_false_iff_eq.2 he, if_neg Bool.false_ne_true, ih, List.lookup_cons, hne]
    · rw [bne_iff_ne.2 he, if_pos rfl, List.lookup_cons, List.lookup_cons, ih]

theorem lookup_marshalStruct {fields : List (StructField β)} (hnodup : (fields.map (·.tag)).Nodup)
    {f : StructField β} (hf : f ∈ fields) (b : β) :
    (marshalStruct ofInt fields b).lookup f.tag =
      if f.omitted b then none else some (f.leaf.json ofInt b) := by
  unfold marshalStruct
  rw [lookup_filterMap_of_nodup _ hnodup hf]
  · unfold StructField.marshal
    split <;> rfl
  · intro g e he
    unfold StructField.marshal at he
    split at he
    · cases he
    · cases he
      rfl

theorem ContextField.marshal_fst {f : ContextField} {c : AlertContext} {e : String × Json N}
    (he : f.marshal ofInt c = some e) : e.1 = f.tag := by
  cases f with
  | leaf f =>
    change StructField.marshal ofInt f c = some e at he
    unfold StructField.marshal at he
    split at he
    · cases he
    · cases he
      rfl
  | block tag get fields =>
    obtain ⟨b, _, rfl⟩ := Option.map_eq_some_iff.1 he
    rfl

theorem lookup_marshal {f : ContextField} (hf : f ∈ AlertContext.fields) (c : AlertContext) :
    (c.marshal ofInt).lookup f.tag = (f.marshal ofInt c).map Prod.snd := by
  have hnodup : (AlertContext.fields.map ContextField.tag).Nodup := by decide
  exact lookup_filterMap_of_nodup (fun _ _ => ContextField.marshal_fst) hnodup hf

end Sluicio.Alerting
