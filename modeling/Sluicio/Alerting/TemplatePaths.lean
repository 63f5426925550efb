import Sluicio.Alerting.WebhookBody

/-!
# The paths of the palette

What a variable of the palette stands for in a context, and what its path is resolved to in the
bindings that a webhook body is rendered with.
-/

namespace Sluicio.Alerting

open Audit (Json)
open Lib AlertContext
open Tracecompletion (trimSpace)

/-- A variable of the palette, with its value in a context; the placeholder of its path stands
for a key. -/
structure Variable (N : Type) where
  stem : String
  keyed : Bool := false
  type : String
  scope : String := ""
  value : AlertContext → Store.NotificationContent → EmailParts → String → Json N

namespace Variable

variable {N : Type}

def entry (v : Variable N) : TemplateVariable :=
  ⟨if v.keyed then v.stem ++ ".<key>" else v.stem, v.type, v.scope⟩

/-- The path with a key for its placeholder. -/
def instantiate (v : Variable N) (key : String) : String :=
  if v.keyed then v.stem ++ "." ++ key else v.stem

end Variable

variable {N β : Type} (ofInt : Int → N)

def Leaf.value : Leaf β → β → String → Json N
  | map get, b, key =>
    match (get b).lookup key with
    | some s => .string s
    | none => .null
  | leaf, b, _ => leaf.json ofInt b

/-- What is left out has no value. -/
def StructField.value (f : StructField β) (b : β) (key : String) : Json N :=
  if f.omitted b then .null else f.leaf.value ofInt b key

def StructField.toVariable (stem : String) (get : AlertContext → Option β) (f : StructField β) :
    Variable N where
  stem := stem
  keyed := f.leaf.isMap
  type := (f.leaf.entry stem).type
  value c _ _ key :=
    match get c with
    | some b => f.value ofInt b key
    | none => .null

def ContextField.variables : ContextField → List (Variable N)
  | leaf f => [f.toVariable ofInt f.tag some]
  | block tag get fields => fields.map fun f => f.toVariable ofInt (tag ++ "." ++ f.tag) get

def includeVariable (key : String) (get : Store.NotificationContent → Bool) : Variable N where
  stem := "include." ++ key
  type := "boolean"
  value _ content _ _ := .bool (get content)

def includeVariables : List (Variable N) :=
  [includeVariable "check" (·.check), includeVariable "integration" (·.integration),
    includeVariable "integration_metadata" (·.integrationMetadata),
    includeVariable "service" (·.service),
    includeVariable "service_metadata" (·.serviceMetadata)]

def emailVariable (key : String) (get : EmailParts → String) : Variable N where
  stem := "email." ++ key
  type := "string"
  scope := scopeWebhook
  value _ _ email _ := .string (get email)

def emailVariables : List (Variable N) :=
  [emailVariable "subject" (·.subject), emailVariable "text" (·.text),
    emailVariable "html" (·.html)]

def palette : List (Variable N) :=
  fields.flatMap (·.variables ofInt) ++ includeVariables ++ emailVariables

theorem palette_entries : (palette ofInt).map Variable.entry = templateContextSchema := by
  rfl

/-- The tags of a struct are different, have no dot, and only a map's is "metadata". -/
def wellTagged (fields : List (StructField β)) : Bool :=
  decide (fields.map (·.tag)).Nodup &&
    fields.all fun f => !f.tag.toList.contains '.' && (f.leaf.isMap || f.tag != "metadata")

def ContextField.wellTagged : ContextField → Bool
  | leaf f =>
    !f.tag.toList.contains '.' && !f.leaf.isMap &&
      !(["email", "include", "service", "integration"].contains f.tag)
  | block tag _ fields =>
    !tag.toList.contains '.' && !(["email", "include"].contains tag) && Alerting.wellTagged fields

theorem fields_wellTagged : ∀ f ∈ fields, f.wellTagged := by
  decide +kernel

/-! ## Paths -/

section

variable {ofInt} {m : Members N} {t l : String}

theorem splitOn_dot_of_not_mem {cs : List Char} (h : '.' ∉ cs) : cs.splitOn '.' = [cs] := by
  apply List.splitOnP_eq_singleton
  intro c hc
  exact beq_false_of_ne fun heq => h (heq ▸ hc)

theorem lookupPath_of_not_mem (ht : '.' ∉ t.toList) :
    lookupPath m t = walkPath (.object m) [t] := by
  unfold lookupPath
  rw [splitOn_dot_of_not_mem ht, List.map_singleton, String.ofList_toList]

theorem lookupPath_dot (ht : '.' ∉ t.toList) (hl : '.' ∉ l.toList) :
    lookupPath m (t ++ "." ++ l) = walkPath (.object m) [t, l] := by
  have hsplit : (t ++ "." ++ l).toList.splitOn '.' = [t.toList, l.toList] := by
    have hdot : ".".toList = ['.'] := rfl
    rw [String.toList_append, String.toList_append, hdot, List.append_assoc, List.singleton_append]
    unfold List.splitOn
    rw [List.splitOnP_append_cons_of_forall_mem]
    · have hlast := splitOn_dot_of_not_mem hl
      unfold List.splitOn at hlast
      rw [hlast]
    · intro c hc
      exact beq_false_of_ne fun heq => ht (heq ▸ hc)
    · rfl
  unfold lookupPath
  rw [hsplit, List.map_cons, List.map_singleton, String.ofList_toList, String.ofList_toList]

theorem walkPath_object (m : Members N) (t : String) (segs : List String) :
    walkPath (.object m) (t :: segs) =
      match m.lookup t with
      | some v => walkPath v segs
      | none => .null := rfl

theorem walkPath_congr {m m' : Members N} (h : m.lookup t = m'.lookup t) (segs : List String) :
    walkPath (.object m) (t :: segs) = walkPath (.object m') (t :: segs) := by
  rw [walkPath_object, walkPath_object, h]

theorem walkPath_setMember_of_ne {k : String} (h : t ≠ k) (v : Json N) (segs : List String) :
    walkPath (.object (setMember k v m)) (t :: segs) = walkPath (.object m) (t :: segs) := by
  apply walkPath_congr
  rw [lookup_setMember, if_neg h]

theorem walkPath_putMetadata {tag : String} (h : l ≠ "metadata")
    (metadata : Option (List (String × String))) :
    walkPath (.object (putMetadata tag metadata m)) [t, l] = walkPath (.object m) [t, l] := by
  unfold putMetadata
  split
  · rename_i pairs block hpairs hblock
    by_cases ht : t = tag
    · rw [walkPath_object, walkPath_object, lookup_setMember, if_pos ht, ht, hblock]
      exact walkPath_setMember_of_ne h _ []
    · exact walkPath_setMember_of_ne ht _ [l]
  · rfl

theorem lookup_putMetadata_of_ne {tag : String} (h : t ≠ tag)
    (metadata : Option (List (String × String))) :
    (putMetadata tag metadata m).lookup t = m.lookup t := by
  unfold putMetadata
  split
  · rw [lookup_setMember, if_neg h]
  · rfl

end

/-! ## What a path is resolved to -/

section

variable {ofInt} {m : Members N} {t l : String} {e : Encoding N} {c : AlertContext}
  {content : Store.NotificationContent} {email : EmailParts} {tmpl : String}

theorem walkPath_bindings (ht : t ≠ "include") (hl : l ≠ "metadata") :
    walkPath (.object (c.bindings ofInt content)) [t, l] =
      walkPath (.object (c.marshal ofInt)) [t, l] := by
  unfold bindings
  rw [walkPath_setMember_of_ne ht, walkPath_putMetadata hl, walkPath_putMetadata hl]

theorem walkPath_webhookBindings (ht : t ≠ "email") (segs : List String) :
    walkPath (.object (webhookBindings e tmpl c content email)) (t :: segs) =
      walkPath (.object (c.bindings e.ofInt content)) (t :: segs) := by
  unfold webhookBindings
  split
  · exact walkPath_setMember_of_ne ht _ segs
  · rfl

variable {f : StructField β} {key : String}

theorem StructField.value_of_not_isMap (h : f.leaf.isMap = false) (b : β) (key : String) :
    f.value ofInt b key = if f.omitted b then .null else f.leaf.json ofInt b := by
  have hleaf : f.leaf.value ofInt b key = f.leaf.json ofInt b := by
    cases hf : f.leaf with
    | string get => rfl
    | int get => rfl
    | slice get => rfl
    | map get =>
      rw [hf] at h
      cases h
  unfold StructField.value
  rw [hleaf]

/-- **A field of a block.** -/
theorem walkPath_block {get : AlertContext → Option β} {fields : List (StructField β)}
    (hblock : ContextField.block t get fields ∈ AlertContext.fields)
    (hnodup : (fields.map (·.tag)).Nodup) (hf : f ∈ fields) (hplain : f.leaf.isMap = false)
    (key : String) :
    walkPath (.object (c.marshal ofInt)) [t, f.tag] =
      match get c with
      | some b => f.value ofInt b key
      | none => .null := by
  have hlookup : (c.marshal ofInt).lookup t =
      (get c).map fun b => .object (marshalStruct ofInt fields b) := by
    have h : (c.marshal ofInt).lookup t =
        ((get c).map fun b => (t, Json.object (marshalStruct ofInt fields b))).map Prod.snd :=
      lookup_marshal hblock c
    rw [h, Option.map_map]
    rfl
  rw [walkPath_object, hlookup]
  cases get c with
  | none => rfl
  | some b =>
    show walkPath (.object (marshalStruct ofInt fields b)) [f.tag] = f.value ofInt b key
    rw [walkPath_object, lookup_marshalStruct hnodup hf, StructField.value_of_not_isMap hplain]
    cases f.omitted b <;> rfl

theorem walkPath_leaf {f : StructField AlertContext} (hleaf : ContextField.leaf f ∈ fields)
    (hplain : f.leaf.isMap = false) (key : String) :
    walkPath (.object (c.marshal ofInt)) [f.tag] = f.value ofInt c key := by
  have hlookup : (c.marshal ofInt).lookup f.tag = (f.marshal ofInt c).map Prod.snd :=
    lookup_marshal hleaf c
  rw [walkPath_object, hlookup, StructField.value_of_not_isMap hplain]
  unfold StructField.marshal
  cases f.omitted c <;> rfl

variable {v : Variable N}

theorem lookupPath_field {f : ContextField} (hf : f ∈ fields)
    (hv : v ∈ f.variables e.ofInt) (hplain : v.keyed = false) (key : String) :
    lookupPath (webhookBindings e tmpl c content email) v.stem = v.value c content email key := by
  have htags := fields_wellTagged f hf
  cases f with
  | leaf f =>
    obtain rfl := List.mem_singleton.1 hv
    simp only [ContextField.wellTagged, Bool.and_eq_true, Bool.not_eq_true',
      List.contains_eq_mem, decide_eq_false_iff_not, List.mem_cons, not_or] at htags
    obtain ⟨⟨hdot, hmap⟩, hemail, hinclude, hservice, hintegration, _⟩ := htags
    show lookupPath _ f.tag = f.value e.ofInt c key
    rw [lookupPath_of_not_mem hdot, walkPath_webhookBindings hemail, ← walkPath_leaf hf hmap]
    apply walkPath_congr
    unfold bindings
    rw [lookup_setMember, if_neg hinclude, lookup_putMetadata_of_ne hintegration,
      lookup_putMetadata_of_ne hservice]
  | block t get fields =>
    obtain ⟨g, hg, rfl⟩ := List.mem_map.1 hv
    simp only [ContextField.wellTagged, Alerting.wellTagged, Bool.and_eq_true, Bool.not_eq_true',
      List.contains_eq_mem, decide_eq_false_iff_not, decide_eq_true_eq, List.mem_cons, not_or,
      List.all_eq_true, Bool.or_eq_true, bne_iff_ne] at htags
    obtain ⟨⟨hdot, hemail, hinclude, _⟩, hnodup, hleaves⟩ := htags
    obtain ⟨hleafdot, hname⟩ := hleaves g hg
    have hmap : g.leaf.isMap = false := hplain
    have hmeta : g.tag ≠ "metadata" := by
      cases hname with
      | inl h =>
        rw [hmap] at h
        cases h
      | inr h => exact h
    show lookupPath _ (t ++ "." ++ g.tag) = _
    rw [lookupPath_dot hdot hleafdot, walkPath_webhookBindings hemail,
      walkPath_bindings hinclude hmeta, walkPath_block hf hnodup hg hmap key]
    rfl

theorem lookupPath_include {get : Store.NotificationContent → Bool} (hdot : '.' ∉ key.toList)
    (hmember : ((includeMembers content : Members N).lookup key) = some (.bool (get content))) :
    lookupPath (webhookBindings e tmpl c content email) (includeVariable (N := N) key get).stem =
      .bool (get content) := by
  have hinclude : '.' ∉ "include".toList := by decide
  have hstem : (includeVariable (N := N) key get).stem = "include" ++ "." ++ key := rfl
  rw [hstem, lookupPath_dot hinclude hdot, walkPath_webhookBindings (by decide)]
  unfold bindings
  rw [walkPath_object, lookup_setMember, if_pos rfl]
  dsimp only
  rw [walkPath_object, hmember]
  rfl

theorem lookup_bindings_email : (c.bindings ofInt content).lookup "email" = none := by
  have hmarshal : (c.marshal ofInt).lookup "email" = none := by
    rw [List.lookup_eq_none_iff]
    intro entry hentry
    obtain ⟨f, hf, he⟩ := List.mem_filterMap.1 hentry
    rw [ContextField.marshal_fst he, bne_iff_ne]
    have htags : ∀ f ∈ fields, "email" ≠ f.tag := by decide
    exact htags f hf
  unfold bindings
  rw [lookup_setMember, if_neg (by decide), lookup_putMetadata_of_ne (by decide),
    lookup_putMetadata_of_ne (by decide), hmarshal]

theorem lookupPath_email {get : EmailParts → String} (hdot : '.' ∉ key.toList)
    (hmember : ((email.bindings : Members N).lookup key) = some (.string (get email))) :
    lookupPath (webhookBindings e tmpl c content email) (emailVariable (N := N) key get).stem =
      if templateReferencesEmail (trimSpace tmpl) then .string (get email) else .null := by
  have hemail : '.' ∉ "email".toList := by decide
  have hstem : (emailVariable (N := N) key get).stem = "email" ++ "." ++ key := rfl
  rw [hstem, lookupPath_dot hemail hdot]
  unfold webhookBindings
  split
  · rw [walkPath_object, lookup_setMember, if_pos rfl]
    dsimp only
    rw [walkPath_object, hmember]
    rfl
  · rw [walkPath_object, lookup_bindings_email]

theorem palette_cases (hv : v ∈ palette ofInt) :
    (v.scope = "" ∧ ((∃ f ∈ fields, v ∈ f.variables ofInt) ∨ v ∈ includeVariables)) ∨
      (v.scope = scopeWebhook ∧ v ∈ emailVariables) := by
  unfold palette at hv
  rw [List.mem_append, List.mem_append] at hv
  obtain (hfield | hinclude) | hemail := hv
  · obtain ⟨f, hf, hvf⟩ := List.mem_flatMap.1 hfield
    refine .inl ⟨?_, .inl ⟨f, hf, hvf⟩⟩
    cases f with
    | leaf f =>
      rw [List.mem_singleton.1 hvf]
      rfl
    | block t get fields =>
      obtain ⟨g, _, rfl⟩ := List.mem_map.1 hvf
      rfl
  · refine .inl ⟨?_, .inr hinclude⟩
    unfold includeVariables at hinclude
    simp only [List.mem_cons, List.not_mem_nil, or_false] at hinclude
    obtain rfl | rfl | rfl | rfl | rfl := hinclude
    all_goals rfl
  · refine .inr ⟨?_, hemail⟩
    unfold emailVariables at hemail
    simp only [List.mem_cons, List.not_mem_nil, or_false] at hemail
    obtain rfl | rfl | rfl := hemail
    all_goals rfl

/-- **What the path of a variable is resolved to.** -/
theorem lookupPath_variable (hv : v ∈ palette e.ofInt) (hplain : v.keyed = false) (key : String) :
    lookupPath (webhookBindings e tmpl c content email) v.stem =
      if v.scope = scopeWebhook ∧ templateReferencesEmail (trimSpace tmpl) = false then .null
      else v.value c content email key := by
  cases palette_cases hv with
  | inl hcontext =>
    have hscope :
        ¬ (v.scope = scopeWebhook ∧ templateReferencesEmail (trimSpace tmpl) = false) := by
      intro hboth
      rw [hcontext.1] at hboth
      exact absurd hboth.1 (by decide)
    rw [if_neg hscope]
    cases hcontext.2 with
    | inl hfield =>
      obtain ⟨f, hf, hvf⟩ := hfield
      exact lookupPath_field hf hvf hplain key
    | inr hinclude =>
      unfold includeVariables at hinclude
      simp only [List.mem_cons, List.not_mem_nil, or_false] at hinclude
      obtain rfl | rfl | rfl | rfl | rfl := hinclude
      all_goals exact lookupPath_include (by decide) rfl
  | inr hemail =>
    have hrendered {key' : String} {get : EmailParts → String} (hdot : '.' ∉ key'.toList)
        (hmember : ((email.bindings : Members N).lookup key') = some (.string (get email))) :
        lookupPath (webhookBindings e tmpl c content email) (emailVariable (N := N) key' get).stem =
          if scopeWebhook = scopeWebhook ∧ templateReferencesEmail (trimSpace tmpl) = false
            then .null else .string (get email) := by
      rw [lookupPath_email hdot hmember]
      cases templateReferencesEmail (trimSpace tmpl) <;> rfl
    have hmem := hemail.2
    unfold emailVariables at hmem
    simp only [List.mem_cons, List.not_mem_nil, or_false] at hmem
    obtain rfl | rfl | rfl := hmem
    all_goals exact hrendered (by decide) rfl

theorem value_of_scopeWebhook (hv : v ∈ palette ofInt) (hscope : v.scope = scopeWebhook)
    (key : String) : v.value c content email key ≠ .null := by
  cases palette_cases hv with
  | inl hcontext =>
    rw [hcontext.1] at hscope
    exact absurd hscope (by decide)
  | inr hemail =>
    have hmem := hemail.2
    unfold emailVariables at hmem
    simp only [List.mem_cons, List.not_mem_nil, or_false] at hmem
    obtain rfl | rfl | rfl := hmem
    all_goals
      intro h
      cases h

end

theorem path_mem_known {ofInt : Int → N} {v : Variable N} (hv : v ∈ palette ofInt) :
    v.entry.path ∈ knownTemplatePaths := by
  unfold knownTemplatePaths
  rw [← palette_entries ofInt, List.map_map]
  exact List.mem_map.2 ⟨v, hv, rfl⟩

/-- Every stem is spelled as the pattern has a path, with one dot at most, and with one before a
placeholder. -/
theorem stem_spelled {ofInt : Int → N} {v : Variable N} (hv : v ∈ palette ofInt) :
    isPath v.stem.toList ∧ v.stem.toList.count '.' ≤ 1 ∧
      (v.keyed → v.stem.toList.count '.' = 1) := by
  -- the stems do not depend on the numbers
  have hstems : (palette ofInt).map (fun v => (v.stem, v.keyed)) =
      (palette fun _ => ()).map fun v => (v.stem, v.keyed) := rfl
  have hall : ∀ p ∈ (palette fun _ => ()).map fun v => (v.stem, v.keyed),
      isPath p.1.toList = true ∧ p.1.toList.count '.' ≤ 1 ∧
        (p.2 = true → p.1.toList.count '.' = 1) := by
    decide +kernel
  apply hall (v.stem, v.keyed)
  rw [← hstems]
  exact List.mem_map.2 ⟨v, hv, rfl⟩

theorem dots_of_known {p : String} (hp : p ∈ knownTemplatePaths) :
    '<' ∈ p.toList ∨ p.toList.count '.' ≤ 1 := by
  unfold knownTemplatePaths at hp
  rw [← palette_entries fun _ => (), List.map_map] at hp
  obtain ⟨v, hv, rfl⟩ := List.mem_map.1 hp
  show '<' ∈ v.entry.path.toList ∨ v.entry.path.toList.count '.' ≤ 1
  unfold Variable.entry
  dsimp only
  split
  · have hplaceholder : '<' ∈ ".<key>".toList := by decide
    rw [String.toList_append]
    exact .inl (List.mem_append_right _ hplaceholder)
  · exact .inr (stem_spelled hv).2.1

end Sluicio.Alerting
