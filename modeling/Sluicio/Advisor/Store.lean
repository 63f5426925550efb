import Sluicio.Lib.Rows

/-!
# Advisor suggestions: the table

A finding is computed anew by every run; what is kept of it is one row for each fingerprint,
with the decision that somebody took.  An upsert refreshes the row of a finding, and opens a
dismissed one again only when the weight has outgrown the dismissal.
-/

namespace Sluicio.Advisor

open Lib

abbrev UUID := Nat

/-- The evaluator that produces a finding. -/
inductive Class where
  | t1 | t2 | t3 | t4 | t5 | t6
  | f1 | f2 | f3 | f4 | f5
  deriving DecidableEq

/-- `telemetryClasses` and `alertingClasses`. -/
def telemetryClasses : List Class := [.t1, .t2, .t3, .t4, .t5, .t6]
def alertingClasses : List Class := [.f1, .f2, .f3, .f4, .f5]

theorem mem_alertingClasses_iff (c : Class) : c ∈ alertingClasses ↔ c ∉ telemetryClasses := by
  cases c <;> decide

/-- The identity of a finding.  Its text begins with the class, which is the column `class`. -/
structure Fingerprint where
  cls : Class
  subject : String
  deriving DecidableEq

/-- The display of a finding and its facts, which every run refreshes. -/
structure Facts where
  title : String := ""
  loss : String := ""
  snippet : String := ""
  snippetTarget : String := ""
  snippetUnavailable : String := ""
  evidence : String := "{}"

/-- What an evaluator produces. -/
structure Finding where
  fingerprint : Fingerprint
  scopeKind : String := ""
  scopeID : String := ""
  facts : Facts := {}
  weight : Int

inductive SuggestionState where
  | «open» | accepted | verified | dismissed
  deriving DecidableEq

/-- A row of `advisor_suggestions`. -/
structure Suggestion where
  id : UUID
  fingerprint : Fingerprint
  scopeKind : String
  scopeID : String
  facts : Facts
  weight : Int
  state : SuggestionState := .open
  decidedBy : Option UUID := none
  decidedAt : Option Nat := none
  decisionNote : String := ""
  dismissedFacts : Option String := none
  firstSeenAt : Nat
  lastSeenAt : Nat

def reopenFactor : Int := 2

def Suggestion.Outgrown (r : Suggestion) (f : Finding) : Prop :=
  max r.weight 1 * reopenFactor ≤ f.weight

instance (r : Suggestion) (f : Finding) : Decidable (r.Outgrown f) :=
  inferInstanceAs (Decidable (_ ≤ _))

/-- The `DO UPDATE` of `Upsert`. -/
def Suggestion.refresh (r : Suggestion) (now : Nat) (f : Finding) : Suggestion :=
  { r with
    facts := f.facts
    weight := if r.state = .dismissed ∧ ¬ r.Outgrown f then r.weight else f.weight
    lastSeenAt := now
    state := if r.state = .dismissed ∧ r.Outgrown f then .open else r.state
    dismissedFacts := if r.state = .dismissed ∧ r.Outgrown f then none else r.dismissedFacts }

/-- The `VALUES` of `Upsert`. -/
def Finding.row (f : Finding) (id : UUID) (now : Nat) : Suggestion :=
  { id := id
    fingerprint := f.fingerprint
    scopeKind := f.scopeKind
    scopeID := f.scopeID
    facts := f.facts
    weight := f.weight
    firstSeenAt := now
    lastSeenAt := now }

/-- A row as `Decide` writes it. -/
def Suggestion.decided (r : Suggestion) (now : Nat) (userID : Option UUID)
    (state : SuggestionState) (note : String) : Suggestion :=
  { r with
    state := state
    decidedBy := userID
    decidedAt := some now
    decisionNote := note
    dismissedFacts := if state = .dismissed then some r.facts.evidence else r.dismissedFacts }

/-- A row as `MarkVerified` writes it. -/
def Suggestion.verified (r : Suggestion) : Suggestion := { r with state := .verified }

/-- The suggestions of an organization, one for a fingerprint. -/
structure Suggestions where
  rows : List Suggestion
  nextID : UUID
  nodup : (rows.map Suggestion.fingerprint).Nodup

namespace Suggestions

instance : EmptyCollection Suggestions := ⟨⟨[], 0, List.nodup_nil⟩⟩

def upsert (t : Suggestions) (now : Nat) (f : Finding) : Suggestions where
  rows := Lib.upsert (fun r => r.fingerprint = f.fingerprint) (fun r => r.refresh now f)
    (f.row t.nextID now) t.rows
  nextID := t.nextID + 1
  nodup := nodup_upsert (fun _ => rfl) rfl t.nodup

def closeMissing (t : Suggestions) (classes : List Class) (keep : List Fingerprint) :
    Suggestions where
  rows := t.rows.filter fun r =>
    ¬ (r.state = .open ∧ r.fingerprint.cls ∈ classes ∧ r.fingerprint ∉ keep)
  nextID := t.nextID
  nodup := t.nodup.sublist (List.filter_sublist.map _)

def decide (t : Suggestions) (now : Nat) (id : UUID) (userID : Option UUID)
    (state : SuggestionState) (note : String) : Suggestions where
  rows := updateWhere (fun r => (state = .accepted ∨ state = .dismissed) ∧ r.id = id)
    (fun r => r.decided now userID state note) t.rows
  nextID := t.nextID
  nodup := nodup_updateWhere (fun _ => rfl) t.nodup

def markVerified (t : Suggestions) (stillFound : List Fingerprint) : Suggestions where
  rows := updateWhere (fun r => r.state = .accepted ∧ r.fingerprint ∉ stillFound)
    Suggestion.verified t.rows
  nextID := t.nextID
  nodup := nodup_updateWhere (fun _ => rfl) t.nodup

/-! ## What each statement does to the row of a fingerprint -/

def look (t : Suggestions) (fp : Fingerprint) : Option Suggestion :=
  t.rows.find? fun r => r.fingerprint = fp

theorem fingerprint_of_look {t : Suggestions} {fp : Fingerprint} {r : Suggestion}
    (h : t.look fp = some r) : r.fingerprint = fp := by
  simpa using List.find?_some h

theorem look_upsert_self (t : Suggestions) (now : Nat) (f : Finding) :
    (t.upsert now f).look f.fingerprint =
      some (((t.look f.fingerprint).map fun r => r.refresh now f).getD (f.row t.nextID now)) := by
  refine find?_upsert_self (fun r hr => ?_) ?_ t.rows
  · exact hr
  · exact decide_eq_true rfl

theorem look_upsert_other (t : Suggestions) (now : Nat) {f : Finding} {fp : Fingerprint}
    (hne : f.fingerprint ≠ fp) : (t.upsert now f).look fp = t.look fp := by
  refine find?_upsert_other (fun r hr => ?_) ?_ t.rows
  · have hr : r.fingerprint = f.fingerprint := of_decide_eq_true hr
    have hother : ¬ r.fingerprint = fp := fun h => hne (hr.symm.trans h)
    exact ⟨decide_eq_false hother, decide_eq_false hother⟩
  · exact decide_eq_false hne

theorem look_closeMissing (t : Suggestions) (classes : List Class) (keep : List Fingerprint)
    (fp : Fingerprint) :
    (t.closeMissing classes keep).look fp =
      (t.look fp).filter fun r => ¬ (r.state = .open ∧ r.fingerprint.cls ∈ classes ∧
        r.fingerprint ∉ keep) :=
  find?_filter_key t.nodup fp

theorem look_markVerified (t : Suggestions) (stillFound : List Fingerprint) (fp : Fingerprint) :
    (t.markVerified stillFound).look fp =
      (t.look fp).map fun r =>
        if r.state = .accepted ∧ r.fingerprint ∉ stillFound then r.verified else r := by
  have hkey : ∀ r : Suggestion, r.verified.fingerprint = r.fingerprint := fun _ => rfl
  unfold look markVerified
  rw [find?_updateWhere hkey]
  simp only [decide_eq_true_eq]

theorem look_decide (t : Suggestions) (now : Nat) (id : UUID) (userID : Option UUID)
    (state : SuggestionState) (note : String) (fp : Fingerprint) :
    (t.decide now id userID state note).look fp =
      (t.look fp).map fun r =>
        if (state = .accepted ∨ state = .dismissed) ∧ r.id = id then
          r.decided now userID state note
        else r := by
  have hkey : ∀ r : Suggestion, (r.decided now userID state note).fingerprint = r.fingerprint :=
    fun _ => rfl
  unfold look decide
  rw [find?_updateWhere hkey]
  simp only [decide_eq_true_eq]

end Suggestions

end Sluicio.Advisor
