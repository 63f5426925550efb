import Sluicio.Alerting.TemplatePaths

/-!
# Webhook bodies, from the template to the payload

A rendered body is the document of its template in which each reference has been replaced once,
and a template that is accepted renders.  The path of a variable is accepted, and renders its
value, unless it has a placeholder or the text of the template hides that it asks for the email.
-/

namespace Sluicio.Alerting

open Audit (Json)
open Lib
open Tracecompletion (trimSpace)

variable {N : Type}

/-- A part of a text as it is rendered. -/
def renderPiece (e : Encoding N) (b : Members N) : Piece Char RefMatch → List Char
  | .plain c => [c]
  | .hit m => (stringify e (lookupPath b (refPath m))).toList

mutual

/-- The document, rendered: a text that is one reference has the value's own type, and any other
text stays one. -/
inductive Rendered (e : Encoding N) (b : Members N) : Json N → Json N → Prop where
  | null : Rendered e b .null .null
  | bool (t : Bool) : Rendered e b (.bool t) (.bool t)
  | number (n : N) : Rendered e b (.number n) (.number n)
  | array {vs ws : List (Json N)} (h : RenderedValues e b vs ws) :
      Rendered e b (.array vs) (.array ws)
  | object {ms ns : Members N} (h : RenderedMembers e b ms ns) :
      Rendered e b (.object ms) (.object ns)
  | reference {s : String} {m : RefMatch} (hs : Scans refPattern s.toList [.hit m]) :
      Rendered e b (.string s) (lookupPath b (refPath m))
  | text {s : String} {ps : List (Piece Char RefMatch)} (hs : Scans refPattern s.toList ps)
      (hmore : ∀ m, ps ≠ [.hit m]) :
      Rendered e b (.string s) (.string (.ofList (ps.flatMap (renderPiece e b))))

/-- Arrays keep their length. -/
inductive RenderedValues (e : Encoding N) (b : Members N) : List (Json N) → List (Json N) → Prop
  where
  | nil : RenderedValues e b [] []
  | cons {v w : Json N} {vs ws : List (Json N)} (hv : Rendered e b v w)
      (hvs : RenderedValues e b vs ws) : RenderedValues e b (v :: vs) (w :: ws)

/-- Objects keep their keys. -/
inductive RenderedMembers (e : Encoding N) (b : Members N) : Members N → Members N → Prop where
  | nil : RenderedMembers e b [] []
  | cons {k : String} {v w : Json N} {ms ns : Members N} (hv : Rendered e b v w)
      (hms : RenderedMembers e b ms ns) : RenderedMembers e b ((k, v) :: ms) ((k, w) :: ns)

end

variable {e : Encoding N} {b : Members N} {s : String} {m : RefMatch}

theorem text_of_scans_hit {cs : List Char} (h : Scans refPattern cs [.hit m]) : m.text = cs := by
  cases h with
  | @hit a w rest _ _ hsome hrest =>
    cases hrest
    obtain ⟨tail, heq, hlength, _⟩ := refPattern_eq_some.1 hsome
    have htail : tail = [] := by
      apply List.eq_nil_of_length_eq_zero
      have hlengths := congrArg List.length heq
      simp only [List.length_cons, List.length_append, List.length_nil] at hlengths
      omega
    rw [heq, htail, List.append_nil]

theorem hit_of_findStringSubmatch (h : findStringSubmatch s = some m) :
    .hit m ∈ scan refPattern 0 s.toList := by
  obtain ⟨p, hp, hm⟩ := List.mem_filterMap.1 (List.mem_of_mem_head? (Option.mem_def.2 h))
  cases p with
  | plain c => cases hm
  | hit m' =>
    obtain rfl : m' = m := Option.some.inj hm
    exact hp

theorem replaceAllStringFunc_eq (e : Encoding N) (b : Members N) (s : String) :
    replaceAllStringFunc s (replaceMatch e b) =
      .ofList ((scan refPattern 0 s.toList).flatMap (renderPiece e b)) := by
  unfold replaceAllStringFunc
  apply congrArg String.ofList
  apply List.flatMap_congr
  intro p hp
  cases p with
  | plain c => rfl
  | hit m =>
    obtain ⟨rest, hspells⟩ := spells_of_hit hp
    dsimp only
    unfold replaceMatch
    rw [findStringSubmatch_text hspells]
    rfl

/-- **A text of the template.** -/
theorem rendered_substituteString (e : Encoding N) (b : Members N) (s : String) :
    Rendered e b (.string s) (substituteString e b s) := by
  have hscan := scans_scan refPattern_fits s.toList
  unfold substituteString
  rw [replaceAllStringFunc_eq]
  dsimp only
  -- in a text that is not one reference, the first match is not the whole of it
  have htext (hmore : ∀ m, scan refPattern 0 s.toList ≠ [.hit m]) := Rendered.text (e := e) (b := b)
    hscan hmore
  split
  · rename_i m hfound
    obtain ⟨rest, hspells⟩ := spells_of_hit (hit_of_findStringSubmatch hfound)
    split
    · rename_i hwhole
      have hone := scan_reference hspells.alone
      rw [List.append_nil, hwhole] at hone
      rw [hone] at hscan
      exact .reference hscan
    rename_i hpart
    apply htext
    intro m' hone
    rw [hone] at hscan
    have hsame : m' = m := by
      unfold findStringSubmatch findAllStringSubmatch at hfound
      rw [hone] at hfound
      exact Option.some.inj hfound
    rw [← hsame] at hpart
    exact hpart (text_of_scans_hit hscan)
  · rename_i hnone
    apply htext
    intro m hone
    unfold findStringSubmatch findAllStringSubmatch at hnone
    rw [hone] at hnone
    cases hnone

mutual

/-- **The document.** -/
theorem rendered_substitute (e : Encoding N) (b : Members N) :
    ∀ v : Json N, Rendered e b v (substitute e b v)
  | .null => .null
  | .bool t => .bool t
  | .number n => .number n
  | .string s => rendered_substituteString e b s
  | .array vs => .array (rendered_substituteValues e b vs)
  | .object ms => .object (rendered_substituteMembers e b ms)

theorem rendered_substituteValues (e : Encoding N) (b : Members N) :
    ∀ vs : List (Json N), RenderedValues e b vs (substituteValues e b vs)
  | [] => .nil
  | v :: vs => .cons (rendered_substitute e b v) (rendered_substituteValues e b vs)

theorem rendered_substituteMembers (e : Encoding N) (b : Members N) :
    ∀ ms : Members N, RenderedMembers e b ms (substituteMembers e b ms)
  | [] => .nil
  | (_, v) :: ms => .cons (rendered_substitute e b v) (rendered_substituteMembers e b ms)

end

/-! ## What is accepted -/

/-- The text of a template, with its document. -/
structure IsTemplate (e : Encoding N) (tmpl : String) (ms : Members N) : Prop where
  nonempty : trimSpace tmpl ≠ ""
  fits : tmpl.utf8ByteSize ≤ maxWebhookTemplateBytes
  parsed : e.unmarshal (trimSpace tmpl) = .ok (.object ms)

variable {tmpl : String}

/-- **A template is accepted when each path it refers to is known.** -/
theorem validateWebhookTemplate_eq_ok {found : List String} :
    validateWebhookTemplate e tmpl = .ok found ↔
      ∃ ms, IsTemplate e tmpl ms ∧ (∀ p ∈ referencedPaths (.object ms), p ∈ knownTemplatePaths) ∧
        found = uniqueStrings (referencedPaths (.object ms)) := by
  constructor
  · intro h
    unfold validateWebhookTemplate at h
    split at h
    · cases h
    rename_i hnonempty
    split at h
    · cases h
    rename_i hfits
    split at h
    · cases h
    · rename_i ms hparsed
      dsimp only at h
      split at h
      · cases h
      rename_i hbad
      refine ⟨ms, ⟨hnonempty, Nat.le_of_not_lt hfits, hparsed⟩, ?_, (Except.ok.inj h).symm⟩
      intro p hp
      have hnone := not_not.1 hbad
      rw [List.filter_eq_nil_iff] at hnone
      have hknown := hnone p hp
      rw [decide_eq_true_eq, not_not] at hknown
      exact hknown
    · cases h
  · rintro ⟨ms, htmpl, hknown, rfl⟩
    have hbad : (referencedPaths (.object ms)).filter (fun p => p ∉ knownTemplatePaths) = [] := by
      rw [List.filter_eq_nil_iff]
      intro p hp
      rw [decide_eq_true_eq, not_not]
      exact hknown p hp
    unfold validateWebhookTemplate
    rw [if_neg htmpl.nonempty, if_neg (Nat.not_lt.2 htmpl.fits), htmpl.parsed]
    dsimp only
    rw [hbad, if_neg (not_not.2 rfl)]

theorem renderWebhookTemplate_eq {ms : Members N} (h : IsTemplate e tmpl ms) (b : Members N) :
    renderWebhookTemplate e tmpl b = some (substituteMembers e b ms) := by
  unfold renderWebhookTemplate
  rw [h.parsed]

/-! ## References to the palette -/

/-- A reference to a path: with braces where it is spelled as one. -/
inductive Refers (p : String) : String → Prop where
  | bare : Refers p ("$" ++ p)
  | braced (hpath : isPath p.toList) : Refers p ("$\x7b" ++ p ++ "\x7d")

variable {p ref field : String}

theorem toList_bare (p : String) : ("$" ++ p).toList = '$' :: p.toList := by
  have hdollar : "$".toList = ['$'] := rfl
  rw [String.toList_append, hdollar, List.singleton_append]

theorem toList_braced (p : String) :
    ("$\x7b" ++ p ++ "\x7d").toList = '$' :: '{' :: (p.toList ++ ['}']) := by
  have hopen : "$\x7b".toList = ['$', '{'] := rfl
  have hclose : "\x7d".toList = ['}'] := rfl
  rw [String.toList_append, String.toList_append, hopen, hclose, List.append_assoc]
  rfl

theorem Refers.spells (h : Refers p ref) (hpath : isPath p.toList) :
    ∃ m : RefMatch, m.text = ref.toList ∧ m.path = p.toList ∧ Spells m [] := by
  cases h with
  | bare =>
    refine ⟨⟨'$' :: p.toList, p.toList⟩, (toList_bare p).symm, rfl, .bare hpath ?_⟩
    intro c hc
    cases hc
  | braced _ => exact ⟨⟨_, p.toList⟩, (toList_braced p).symm, rfl, .braced hpath⟩

theorem isPath_append {path more : List Char} (hpath : isPath path)
    (hmore : ∀ c ∈ more, isPathChar c) : isPath (path ++ more) := by
  cases path with
  | nil => cases hpath
  | cons c cs =>
    rw [isPath, Bool.and_eq_true] at hpath
    rw [List.cons_append, isPath, Bool.and_eq_true, List.all_append, Bool.and_eq_true]
    exact ⟨hpath.1, hpath.2, List.all_eq_true.2 hmore⟩

theorem Refers.spells_below {stem key : String} (h : Refers (stem ++ "." ++ key) ref)
    (hstem : isPath stem.toList) :
    ∃ (m : RefMatch) (rest : List Char) (below : List Char), ref.toList = m.text ++ rest ∧
      Spells m rest ∧ m.path = stem.toList ++ '.' :: below := by
  have hpath : (stem ++ "." ++ key).toList = stem.toList ++ '.' :: key.toList := by
    have hdot : ".".toList = ['.'] := rfl
    rw [String.toList_append, String.toList_append, hdot, List.append_assoc, List.singleton_append]
  cases h with
  | bare =>
    -- the path is read as far as the key is spelled as one
    have hread : isPath (stem.toList ++ '.' :: key.toList.takeWhile isPathChar) := by
      apply isPath_append hstem
      intro c hc
      rw [List.mem_cons] at hc
      cases hc with
      | inl hdot =>
        rw [hdot]
        rfl
      | inr hkey => exact List.mem_takeWhile_imp hkey
    refine ⟨⟨_, _⟩, key.toList.dropWhile isPathChar, _, ?_, .bare hread ?_, rfl⟩
    · rw [toList_bare, hpath, List.cons_append, List.append_assoc, List.cons_append,
        List.takeWhile_append_dropWhile]
    · intro d hd
      have hnot := List.head?_dropWhile_not isPathChar key.toList
      rw [Option.mem_def.1 hd] at hnot
      exact hnot
  | braced hwhole =>
    refine ⟨⟨_, _⟩, [], key.toList, ?_, .braced hwhole, hpath⟩
    rw [toList_braced, List.append_nil]

theorem refPath_notMem_known {rest stem below : List Char} (hspells : Spells m rest)
    (hstem : stem.count '.' = 1) (hpath : m.path = stem ++ '.' :: below) :
    refPath m ∉ knownTemplatePaths := by
  intro hknown
  have h := dots_of_known hknown
  unfold refPath at h
  rw [String.toList_ofList] at h
  cases h with
  | inl hangle =>
    have hchar := all_isPathChar_of_isPath hspells.isPath '<' hangle
    cases hchar
  | inr hdots =>
    rw [hpath, List.count_append, List.count_cons_self, hstem] at hdots
    omega

theorem findAllStringSubmatch_eq {rest : List Char} (hspells : Spells m rest)
    (hs : s.toList = m.text ++ rest) :
    findAllStringSubmatch s = m :: (scan refPattern 0 rest).filterMap Piece.hit? := by
  unfold findAllStringSubmatch
  rw [hs, scan_reference hspells]
  rfl

theorem referencedPaths_singleton (field s : String) :
    referencedPaths (.object [(field, .string s)] : Json N) =
      (findAllStringSubmatch s).map refPath := by
  show List.flatMap _ [s] = _
  rw [List.flatMap_singleton]

theorem substituteString_of_spells (e : Encoding N) (b : Members N) (hspells : Spells m [])
    (hs : m.text = s.toList) : substituteString e b s = lookupPath b (refPath m) := by
  have hfind : findStringSubmatch s = some m := by
    unfold findStringSubmatch
    rw [findAllStringSubmatch_eq hspells (by rw [hs, List.append_nil])]
    rfl
  unfold substituteString
  rw [hfind]
  dsimp only
  rw [if_pos hs]

/-- **The path of a variable, in a template of its own.** -/
theorem variable_iff {v : Variable N} (hv : v ∈ palette e.ofInt) (key : String)
    (href : Refers (v.instantiate key) ref) (htmpl : IsTemplate e tmpl [(field, .string ref)])
    (c : AlertContext) (content : Store.NotificationContent) (email : EmailParts) :
    ((∃ found, validateWebhookTemplate e tmpl = .ok found) ∧
        ∃ out, renderWebhookTemplate e tmpl (webhookBindings e tmpl c content email) = some out ∧
          out.lookup field = some (v.value c content email key)) ↔
      v.keyed = false ∧
        (v.scope = scopeWebhook → templateReferencesEmail (trimSpace tmpl)) := by
  obtain ⟨hstem, _, hdots⟩ := stem_spelled hv
  cases hkeyed : v.keyed with
  | true =>
    rw [Variable.instantiate, if_pos hkeyed] at href
    obtain ⟨m, rest, below, hs, hspells, hpath⟩ := href.spells_below hstem
    constructor
    · rintro ⟨⟨found, haccepted⟩, _⟩
      obtain ⟨ms, hms, hknown, _⟩ := validateWebhookTemplate_eq_ok.1 haccepted
      have hsame : Json.object ms = .object [(field, .string ref)] :=
        Except.ok.inj (hms.parsed.symm.trans htmpl.parsed)
      rw [hsame, referencedPaths_singleton, findAllStringSubmatch_eq hspells hs] at hknown
      exact absurd (hknown _ (List.mem_map_of_mem List.mem_cons_self))
        (refPath_notMem_known hspells (hdots hkeyed) hpath)
    · rintro ⟨h, _⟩
      cases h
  | false =>
    rw [Variable.instantiate, hkeyed, if_neg Bool.false_ne_true] at href
    obtain ⟨m, htext, hpath, hspells⟩ := href.spells hstem
    have hrefPath : refPath m = v.stem := by
      rw [refPath, hpath, String.ofList_toList]
    have haccepted : ∃ found, validateWebhookTemplate e tmpl = .ok found := by
      refine ⟨_, validateWebhookTemplate_eq_ok.2 ⟨_, htmpl, ?_, rfl⟩⟩
      have hfound := findAllStringSubmatch_eq hspells (by rw [htext, List.append_nil])
      rw [referencedPaths_singleton, hfound]
      intro p hp
      obtain rfl : p = refPath m := List.mem_singleton.1 hp
      have hknown := path_mem_known hv
      rw [Variable.entry, hkeyed, if_neg Bool.false_ne_true] at hknown
      rw [hrefPath]
      exact hknown
    have hrendered : renderWebhookTemplate e tmpl (webhookBindings e tmpl c content email) =
        some [(field, lookupPath (webhookBindings e tmpl c content email) v.stem)] := by
      rw [renderWebhookTemplate_eq htmpl, ← hrefPath,
        ← substituteString_of_spells e _ hspells htext]
      rfl
    rw [hrendered, lookupPath_variable hv hkeyed key]
    constructor
    · rintro ⟨_, out, hout, hlookup⟩
      refine ⟨rfl, ?_⟩
      intro hscope
      by_contra hraw
      rw [if_pos ⟨hscope, Bool.eq_false_iff.2 hraw⟩] at hout
      rw [← Option.some.inj hout, List.lookup_cons_self] at hlookup
      exact value_of_scopeWebhook hv hscope key (Option.some.inj hlookup).symm
    · rintro ⟨_, hraw⟩
      refine ⟨haccepted, _, rfl, ?_⟩
      rw [List.lookup_cons_self, if_neg]
      intro hboth
      rw [hraw hboth.1] at hboth
      exact Bool.noConfusion hboth.2

/-- **Webhook body templates.**  What is accepted renders to its document, with each reference
replaced once; and the path of a variable is accepted and renders the variable's value just when
it has no placeholder and, for the email, the text of the template shows that it asks for it. -/
theorem webhook_templates (e : Encoding N) :
    (∀ tmpl found, validateWebhookTemplate e tmpl = .ok found → ∀ b : Members N,
      ∃ ms out, e.unmarshal (trimSpace tmpl) = .ok (.object ms) ∧
        renderWebhookTemplate e tmpl b = some out ∧ Rendered e b (.object ms) (.object out)) ∧
    ∀ v ∈ palette e.ofInt, ∀ key ref, Refers (v.instantiate key) ref → ∀ field tmpl,
      IsTemplate e tmpl [(field, .string ref)] → ∀ c content email,
        ((∃ found, validateWebhookTemplate e tmpl = .ok found) ∧
            ∃ out, renderWebhookTemplate e tmpl (webhookBindings e tmpl c content email) =
                some out ∧ out.lookup field = some (v.value c content email key)) ↔
          v.keyed = false ∧
            (v.scope = scopeWebhook → templateReferencesEmail (trimSpace tmpl)) := by
  constructor
  · intro tmpl found haccepted b
    obtain ⟨ms, htmpl, _, _⟩ := validateWebhookTemplate_eq_ok.1 haccepted
    exact ⟨ms, _, htmpl.parsed, renderWebhookTemplate_eq htmpl b,
      .object (rendered_substituteMembers e b ms)⟩
  · intro v hv key ref href field tmpl htmpl c content email
    exact variable_iff hv key href htmpl c content email

/-! ### A field of the metadata -/

private def stateBody : String := "\x7b\"state\":\"$alert.state\"\x7d"

private def teamBody : String := "\x7b\"team\":\"$service.metadata.team\"\x7d"

private def twoBodies : Encoding Int where
  unmarshal t :=
    if t = stateBody then .ok (.object [("state", .string "$alert.state")])
    else if t = teamBody then .ok (.object [("team", .string "$service.metadata.team")])
    else .error "unexpected end of JSON input"
  marshal _ := none
  formatFloat n := toString n
  ofInt := id

private def firingContext : AlertContext where
  alert := ⟨"firing", "critical", "checkout is failing", "", "", "", ""⟩
  rule := {}
  service := some { name := "checkout", errorCount := 3, metadata := [("team", "payments")] }
  org := { product := "Sluicio" }
  sentAt := "2026-01-05T10:00:00Z"

private def stateVariable : Variable Int :=
  StructField.toVariable id ("alert" ++ "." ++ "state") (fun c => some c.alert)
    ⟨"state", false, .string (·.state)⟩

/-- A path without a placeholder renders the context's value. -/
theorem state_rendered :
    (renderWebhookTemplate twoBodies stateBody
      (webhookBindings twoBodies stateBody firingContext {} ⟨"", "", ""⟩)).bind
        (fun out => out.lookup "state") = some (.string "firing") := by
  have hv : stateVariable ∈ palette twoBodies.ofInt := List.Mem.head _
  have htmpl : IsTemplate twoBodies stateBody [("state", .string ("$" ++ "alert.state"))] := by
    refine ⟨by decide +kernel, by decide +kernel, ?_⟩
    have htrim : trimSpace stateBody = stateBody := by decide +kernel
    rw [htrim]
    rfl
  have h := ((webhook_templates twoBodies).2 stateVariable hv "" _ .bare "state" stateBody htmpl
    firingContext {} ⟨"", "", ""⟩).2 ⟨rfl, fun hscope => absurd hscope (by decide)⟩
  obtain ⟨_, out, hout, hlookup⟩ := h
  rw [hout]
  exact hlookup

theorem metadata_path_refused :
    (∃ v ∈ palette twoBodies.ofInt, v.entry.path = "service.metadata.<key>" ∧
      v.instantiate "team" = "service.metadata.team") ∧
    (validateWebhookTemplate twoBodies teamBody).toOption = none := by
  constructor <;> decide +kernel

end Sluicio.Alerting
