import Sluicio.Alerting.AlertContext
import Sluicio.Lib.Scan
import Sluicio.Tracecompletion.Normalize

/-!
# Webhook body templates

A template is a JSON document in which the strings may refer to variables.  It is checked when
it is saved, against the paths of the palette, and rendered when an alert is delivered, against
the bindings of its context.

`encoding/json` and the formatting of a float are parameters.
-/

namespace Sluicio.Alerting

open Audit (Json)
open Lib
open Tracecompletion (trimSpace)

/-- What a template needs of the standard library. -/
structure Encoding (N : Type) where
  unmarshal : String → Except String (Json N)
  marshal : Json N → Option String
  /-- `strconv.FormatFloat`, with the digits that are needed -/
  formatFloat : N → String
  /-- the number that an `int` is read back as -/
  ofInt : Int → N

/-- `[a-zA-Z_]` -/
def isPathStart (c : Char) : Bool := c.isAlpha || c = '_'

/-- `[\w.]` -/
def isPathChar (c : Char) : Bool := c.isAlphanum || c = '_' || c = '.'

/-- `[a-zA-Z_][\w.]*`, with what follows it. -/
def pathAt : List Char → Option (List Char × List Char)
  | [] => none
  | c :: cs =>
    if isPathStart c then some (c :: cs.takeWhile isPathChar, cs.dropWhile isPathChar) else none

/-- A match of `refPattern`: `m[0]`, and the group of it that is not empty. -/
structure RefMatch where
  text : List Char
  path : List Char

/-- `{path}` -/
def bracedAt (cs : List Char) : Option (List Char) :=
  if cs.head? = some '{' then
    match pathAt cs.tail with
    | some (path, rest) => if rest.head? = some '}' then some path else none
    | none => none
  else none

/-- `refPattern`, at the front of a text. -/
def refPattern : Matcher Char RefMatch
  | [] => none
  | c :: cs =>
    if c = '$' then
      match bracedAt cs with
      | some path => some (⟨'$' :: '{' :: (path ++ ['}']), path⟩, path.length + 2)
      | none =>
        match pathAt cs with
        | some (path, _) => some (⟨'$' :: path, path⟩, path.length)
        | none => none
    else none

def findAllStringSubmatch (s : String) : List RefMatch :=
  (scan refPattern 0 s.toList).filterMap Piece.hit?

def findStringSubmatch (s : String) : Option RefMatch := (findAllStringSubmatch s).head?

def replaceAllStringFunc (s : String) (f : String → String) : String :=
  .ofList <| (scan refPattern 0 s.toList).flatMap fun
    | .plain c => [c]
    | .hit m => (f (.ofList m.text)).toList

def refPath (m : RefMatch) : String := .ofList m.path

def templateReferencesEmail (tmpl : String) : Bool :=
  (findAllStringSubmatch tmpl).any fun m =>
    refPath m == "email" || "email.".toList.isPrefixOf m.path

section

variable {N : Type}

mutual

def walkTemplateStrings : Json N → List String
  | .object ms => walkMembers ms
  | .array vs => walkValues vs
  | .string s => [s]
  | .null | .bool _ | .number _ => []

def walkValues : List (Json N) → List String
  | [] => []
  | v :: vs => walkTemplateStrings v ++ walkValues vs

def walkMembers : Members N → List String
  | [] => []
  | (_, v) :: ms => walkTemplateStrings v ++ walkMembers ms

end

def maxWebhookTemplateBytes : Nat := 32 * 1024

def uniqueStrings (ss : List String) : List String := ss.eraseDups

def referencedPaths (doc : Json N) : List String :=
  (walkTemplateStrings doc).flatMap fun s => (findAllStringSubmatch s).map refPath

/-- `ValidateWebhookTemplate`: the paths it found, with the error if there is one. -/
def validateWebhookTemplate (e : Encoding N) (tmpl : String) :
    Except (List String × String) (List String) :=
  if trimSpace tmpl = "" then .error ([], "body template is empty")
  else if maxWebhookTemplateBytes < tmpl.utf8ByteSize then
    .error ([], "body template is over " ++ toString (maxWebhookTemplateBytes / 1024) ++ " KB")
  else
    match e.unmarshal (trimSpace tmpl) with
    | .error err => .error ([], "body template must be valid JSON: " ++ err)
    | .ok (.object ms) =>
      let found := referencedPaths (.object ms)
      let bad := found.filter fun p => p ∉ knownTemplatePaths
      if bad ≠ [] then
        .error (found, "unknown variable " ++ ", ".intercalate (uniqueStrings bad) ++
          " — see the variable list beside the editor")
      else .ok (uniqueStrings found)
    | .ok _ => .error ([], "body template must be a JSON object at the top level")

/-! ## Rendering -/

def walkPath : Json N → List String → Json N
  | v, [] => v
  | .object ms, seg :: segs =>
    match ms.lookup seg with
    | some v => walkPath v segs
    | none => .null
  | _, _ :: _ => .null

def lookupPath (b : Members N) (path : String) : Json N :=
  walkPath (.object b) ((path.toList.splitOn '.').map String.ofList)

def stringify (e : Encoding N) : Json N → String
  | .null => ""
  | .string s => s
  | .bool t => if t then "true" else "false"
  | .number n => e.formatFloat n
  | v => (e.marshal v).getD ""

/-- A match, as `substituteString` replaces it. -/
def replaceMatch (e : Encoding N) (b : Members N) (found : String) : String :=
  match findStringSubmatch found with
  | some m => stringify e (lookupPath b (refPath m))
  | none => ""

def substituteString (e : Encoding N) (b : Members N) (s : String) : Json N :=
  let text := replaceAllStringFunc s (replaceMatch e b)
  match findStringSubmatch s with
  | some m => if m.text = s.toList then lookupPath b (refPath m) else .string text
  | none => .string text

mutual

def substitute (e : Encoding N) (b : Members N) : Json N → Json N
  | .object ms => .object (substituteMembers e b ms)
  | .array vs => .array (substituteValues e b vs)
  | .string s => substituteString e b s
  | .null => .null
  | .bool t => .bool t
  | .number n => .number n

def substituteValues (e : Encoding N) (b : Members N) : List (Json N) → List (Json N)
  | [] => []
  | v :: vs => substitute e b v :: substituteValues e b vs

def substituteMembers (e : Encoding N) (b : Members N) : Members N → Members N
  | [] => []
  | (k, v) :: ms => (k, substitute e b v) :: substituteMembers e b ms

end

/-- `RenderWebhookTemplate`: a document that is `null` is a nil map. -/
def renderWebhookTemplate (e : Encoding N) (tmpl : String) (b : Members N) : Option (Members N) :=
  match e.unmarshal (trimSpace tmpl) with
  | .ok (.object ms) => some (substituteMembers e b ms)
  | .ok .null => some []
  | _ => none

/-- The bindings of a delivery and of a preview: the email is rendered for a template that asks
for it. -/
def webhookBindings (e : Encoding N) (tmpl : String) (c : AlertContext)
    (content : Store.NotificationContent) (email : EmailParts) : Members N :=
  if templateReferencesEmail (trimSpace tmpl) then
    setMember "email" (.object email.bindings) (c.bindings e.ofInt content)
  else c.bindings e.ofInt content

end

/-! ## What is read as a reference -/

def isPath : List Char → Bool
  | [] => false
  | c :: cs => isPathStart c && cs.all isPathChar

/-- The match stands before this text: a path without braces is as long as it can be. -/
inductive Spells : RefMatch → List Char → Prop where
  | braced {path rest : List Char} (hpath : isPath path) :
      Spells ⟨'$' :: '{' :: (path ++ ['}']), path⟩ rest
  | bare {path rest : List Char} (hpath : isPath path)
      (hend : ∀ c ∈ rest.head?, isPathChar c = false) : Spells ⟨'$' :: path, path⟩ rest

theorem isPathChar_of_isPathStart {c : Char} (h : isPathStart c) : isPathChar c := by
  have hclass : c.isAlphanum = (c.isAlpha || c.isDigit) := rfl
  unfold isPathStart at h
  unfold isPathChar
  rw [hclass]
  rw [Bool.or_eq_true] at h
  cases h with
  | inl halpha => rw [halpha, Bool.true_or, Bool.true_or, Bool.true_or]
  | inr hunderscore => rw [hunderscore, Bool.or_true, Bool.true_or]

variable {path rest cs : List Char}

theorem all_isPathChar_of_isPath (h : isPath path) : ∀ c ∈ path, isPathChar c := by
  cases path with
  | nil => cases h
  | cons c cs =>
    rw [isPath, Bool.and_eq_true, List.all_eq_true] at h
    intro d hd
    rw [List.mem_cons] at hd
    cases hd with
    | inl heq =>
      rw [heq]
      exact isPathChar_of_isPathStart h.1
    | inr hmem => exact h.2 d hmem

theorem pathAt_eq_some :
    pathAt cs = some (path, rest) ↔
      isPath path ∧ cs = path ++ rest ∧ ∀ c ∈ rest.head?, isPathChar c = false := by
  constructor
  · intro h
    cases cs with
    | nil => cases h
    | cons c cs =>
      rw [pathAt] at h
      split at h
      · rename_i hstart
        cases h
        refine ⟨?_, ?_, ?_⟩
        · rw [isPath, hstart, Bool.true_and, List.all_eq_true]
          intro d hd
          exact List.mem_takeWhile_imp hd
        · rw [List.cons_append, List.takeWhile_append_dropWhile]
        · intro d hd
          have hnot := List.head?_dropWhile_not isPathChar cs
          rw [Option.mem_def.1 hd] at hnot
          exact hnot
      · cases h
  · rintro ⟨hpath, rfl, hend⟩
    cases path with
    | nil => cases hpath
    | cons c w =>
      rw [isPath, Bool.and_eq_true, List.all_eq_true] at hpath
      have htake : rest.takeWhile isPathChar = [] := by
        cases rest with
        | nil => rfl
        | cons d rest => rw [List.takeWhile_cons, hend d rfl, if_neg Bool.false_ne_true]
      have hdrop : rest.dropWhile isPathChar = rest := by
        cases rest with
        | nil => rfl
        | cons d rest => rw [List.dropWhile_cons, hend d rfl, if_neg Bool.false_ne_true]
      rw [List.cons_append, pathAt, if_pos hpath.1, List.takeWhile_append_of_pos hpath.2, htake,
        List.dropWhile_append_of_pos hpath.2, hdrop, List.append_nil]

theorem bracedAt_eq_some :
    bracedAt cs = some path ↔ isPath path ∧ ∃ rest, cs = '{' :: (path ++ '}' :: rest) := by
  constructor
  · intro h
    unfold bracedAt at h
    split at h
    · rename_i hopen
      split at h
      · rename_i p rest hat
        split at h
        · rename_i hclose
          obtain rfl : p = path := Option.some.inj h
          obtain ⟨hpath, htail, _⟩ := pathAt_eq_some.1 hat
          refine ⟨hpath, rest.tail, ?_⟩
          rw [← List.eq_cons_of_mem_head? hclose, ← htail]
          exact List.eq_cons_of_mem_head? hopen
        · cases h
      · cases h
    · cases h
  · rintro ⟨hpath, rest, rfl⟩
    have hat : pathAt (path ++ '}' :: rest) = some (path, '}' :: rest) := by
      refine pathAt_eq_some.2 ⟨hpath, rfl, ?_⟩
      intro c hc
      cases hc
      rfl
    unfold bracedAt
    rw [List.head?_cons, if_pos rfl, List.tail_cons, hat]
    dsimp only
    rw [List.head?_cons, if_pos rfl]

variable {m : RefMatch}

/-- **What the pattern matches.** -/
theorem refPattern_eq_some {n : Nat} :
    refPattern cs = some (m, n) ↔
      ∃ rest, cs = m.text ++ rest ∧ m.text.length = n + 1 ∧ Spells m rest := by
  constructor
  · intro h
    cases cs with
    | nil => cases h
    | cons c cs =>
      rw [refPattern] at h
      split at h
      · rename_i hdollar
        split at h
        · rename_i path hbraced
          cases h
          obtain ⟨hpath, rest, rfl⟩ := bracedAt_eq_some.1 hbraced
          refine ⟨rest, ?_, ?_, .braced hpath⟩
          · rw [hdollar]
            show _ = '$' :: '{' :: (path ++ ['}'] ++ rest)
            rw [List.append_assoc, List.singleton_append]
          · show (path ++ ['}']).length + 1 + 1 = _
            rw [List.length_append, List.length_singleton]
        · split at h
          · rename_i path rest hat
            cases h
            obtain ⟨hpath, rfl, hend⟩ := pathAt_eq_some.1 hat
            refine ⟨rest, ?_, rfl, .bare hpath hend⟩
            rw [hdollar]
            rfl
          · cases h
      · cases h
  · rintro ⟨rest, rfl, hlength, hspells⟩
    cases hspells with
    | @braced path rest hpath =>
      obtain rfl : n = path.length + 2 := by
        change (path ++ ['}']).length + 1 + 1 = n + 1 at hlength
        rw [List.length_append, List.length_singleton] at hlength
        omega
      show refPattern ('$' :: ('{' :: (path ++ ['}'] ++ rest))) = _
      have hbraced : bracedAt ('{' :: (path ++ ['}'] ++ rest)) = some path := by
        refine bracedAt_eq_some.2 ⟨hpath, rest, ?_⟩
        rw [List.append_assoc, List.singleton_append]
      rw [refPattern, if_pos rfl, hbraced]
    | @bare path rest hpath hend =>
      obtain rfl : n = path.length := by
        change path.length + 1 = n + 1 at hlength
        omega
      have hbraced : bracedAt (path ++ rest) = none := by
        rw [Option.eq_none_iff_forall_ne_some]
        intro p hp
        obtain ⟨_, tail, heq⟩ := bracedAt_eq_some.1 hp
        cases path with
        | nil => cases hpath
        | cons c w =>
          obtain rfl : c = '{' := (List.cons.inj heq).1
          cases hpath
      show refPattern ('$' :: (path ++ rest)) = _
      rw [refPattern, if_pos rfl, hbraced, pathAt_eq_some.2 ⟨hpath, rfl, hend⟩]

theorem refPattern_fits (cs : List Char) (m : RefMatch) (n : Nat)
    (h : refPattern cs = some (m, n)) : n < cs.length := by
  obtain ⟨rest, rfl, hlength, _⟩ := refPattern_eq_some.1 h
  rw [List.length_append]
  omega

theorem Spells.alone (h : Spells m rest) : Spells m [] := by
  cases h with
  | braced hpath => exact .braced hpath
  | bare hpath _ =>
    apply Spells.bare hpath
    intro c hc
    cases hc

theorem Spells.isPath {rest : List Char} (h : Spells m rest) : isPath m.path := by
  cases h with
  | braced hpath => exact hpath
  | bare hpath _ => exact hpath

theorem Spells.text_ne_nil (h : Spells m rest) : m.text ≠ [] := by
  cases h with
  | braced _ => exact List.cons_ne_nil _ _
  | bare _ _ => exact List.cons_ne_nil _ _

theorem scan_reference (h : Spells m rest) :
    scan refPattern 0 (m.text ++ rest) = .hit m :: scan refPattern 0 rest := by
  cases htext : m.text with
  | nil => exact absurd htext h.text_ne_nil
  | cons c w =>
    have hsome : refPattern (c :: (w ++ rest)) = some (m, w.length) := by
      refine refPattern_eq_some.2 ⟨rest, ?_, ?_, h⟩
      · rw [htext, List.cons_append]
      · rw [htext, List.length_cons]
    rw [List.cons_append, scan_of_some hsome, List.drop_left]

theorem findStringSubmatch_text (h : Spells m rest) :
    findStringSubmatch (.ofList m.text) = some m := by
  have hscan := scan_reference h.alone
  rw [List.append_nil] at hscan
  unfold findStringSubmatch findAllStringSubmatch
  rw [String.toList_ofList, hscan]
  rfl

theorem spells_of_hit {s : String} (h : Piece.hit m ∈ scan refPattern 0 s.toList) :
    ∃ rest, Spells m rest := by
  obtain ⟨_, suf, n, _, hm⟩ := (scans_scan refPattern_fits s.toList).matches_of_hit h
  obtain ⟨rest, _, _, hspells⟩ := refPattern_eq_some.1 hm
  exact ⟨rest, hspells⟩

end Sluicio.Alerting
