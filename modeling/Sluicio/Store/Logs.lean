import Mathlib.Data.String.Basic
import Sluicio.Lib.Tokens
import Sluicio.Store.AttrLaws

/-!
# Searching logs

`logPredicates` builds the conditions the log search and the volume histogram share.  A text
is searched for in the bodies, whatever its case.  One without a space, a tab or a newline is
also asked for as a token, which an index answers before any body is read.

`LogQueryParams.Wants` says what the fields of a search ask for, and `Selects` what the
conditions select.  Besides the text they are the same.
-/

namespace Sluicio.Store

open Lib

variable {F : Type}

/-- A row of the `logs` table with the columns a log search reads. -/
structure LogRow extends LogRecord where
  timestamp : Int
  severityNumber : Int
  body : String

/-- `LogQueryParams`, without the limit and the cursor. -/
structure LogQueryParams where
  service : String := ""
  serviceIn : List String := []
  fromTime : Int
  toTime : Int
  minSeverity : Int := 0
  bodyContains : String := ""
  traceID : String := ""
  attrs : List LogAttrFilter := []
  attrGroups : List (List LogAttrFilter) := []

/-- `hasTokenCaseInsensitive(body, text)`: the text is one of the body's maximal runs of
alphanumeric characters. -/
def hasTokenCaseInsensitive (body text : String) : Bool :=
  (tokens Char.isAlphanum body.toList).any fun run => run.map Char.toLower = lower text

/-- `positionCaseInsensitive(body, text) > 0`. -/
def occursIn (body text : String) : Bool := lower text <:+: lower body

/-- One condition of the WHERE, its arguments in place. -/
inductive LogPredicate (F : Type) where
  | notBefore (t : Int)
  | notAfter (t : Int)
  | service (name : String)
  | serviceIn (names : List String)
  | minSeverity (n : Int)
  | tokenAndPosition (text : String)
  | position (text : String)
  | traceID (id : String)
  | compiled (clause : Clause Unit × List (Arg F))

section Predicates

variable (cfg : EnvironmentConfig) (engine : Engine F) (p : LogQueryParams)

/-- `strings.ContainsAny(text, " \t\n")`. -/
def hasSpace (text : String) : Bool :=
  text.toList.any fun c => c = ' ' || c = '\t' || c = '\n'

/-- What `logPredicates` makes of the text. -/
def bodyPredicates : List (LogPredicate F) :=
  if p.bodyContains ≠ "" then
    if !hasSpace p.bodyContains then [.tokenAndPosition p.bodyContains]
    else [.position p.bodyContains]
  else []

def logPredicates : List (LogPredicate F) :=
  [.notBefore p.fromTime, .notAfter p.toTime] ++
    (if p.service ≠ "" then [.service p.service] else []) ++
    (if p.serviceIn ≠ [] then [.serviceIn p.serviceIn] else []) ++
    (if 0 < p.minSeverity then [.minSeverity p.minSeverity] else []) ++
    bodyPredicates p ++
    (if p.traceID ≠ "" then [.traceID p.traceID] else []) ++
    (p.attrs.map fun f =>
      let clause := attrClauseIn cfg engine .logAttributes f
      .compiled (.cond clause.1, clause.2)) ++
    ((attrGroupsClause cfg engine .logAttributes p.attrGroups p.fromTime
      p.toTime).toList.map .compiled)

/-- What a condition says of a row. -/
def LogPredicate.holds (traces : List Span) (r : LogRow) : LogPredicate F → Bool
  | .notBefore t => t ≤ r.timestamp
  | .notAfter t => r.timestamp ≤ t
  | .service name => r.serviceName = name
  | .serviceIn names => r.serviceName ∈ names
  | .minSeverity n => n ≤ r.severityNumber
  | .tokenAndPosition text => hasTokenCaseInsensitive r.body text && occursIn r.body text
  | .position text => occursIn r.body text
  | .traceID id => r.traceId = id
  | .compiled clause => satisfies engine traces (.log r.toLogRecord) (some clause)

/-- The row is one the search finds. -/
def LogQueryParams.selects (traces : List Span) (r : LogRow) : Bool :=
  (logPredicates cfg engine p).all fun c => c.holds engine traces r

/-- The row is one the search asks for: in the window, of the service and of one of the
services, no milder than the floor, of the trace, with the attributes, and with the text in
its body, where they are asked for. -/
structure LogQueryParams.Wants (traces : List Span) (r : LogRow) : Prop where
  window : p.fromTime ≤ r.timestamp ∧ r.timestamp ≤ p.toTime
  service : p.service = "" ∨ r.serviceName = p.service
  serviceIn : p.serviceIn = [] ∨ r.serviceName ∈ p.serviceIn
  minSeverity : p.minSeverity ≤ 0 ∨ p.minSeverity ≤ r.severityNumber
  body : p.bodyContains = "" ∨ occursIn r.body p.bodyContains
  traceID : p.traceID = "" ∨ r.traceId = p.traceID
  attrs : ∀ f ∈ p.attrs, answers cfg engine f (.log r.toLogRecord)
  attrGroups : ∀ clause, attrGroupsClause cfg engine .logAttributes p.attrGroups p.fromTime
    p.toTime = some clause → satisfies engine traces (.log r.toLogRecord) (some clause)

end Predicates

/-! ## Tokens -/

section Tokens

variable {text body : String}

theorem isAlphanum_toLower (c : Char) : c.toLower.isAlphanum = c.isAlphanum := by
  unfold Char.toLower
  split
  · rename_i hupper
    have hletter : c.isUpper := decide_eq_true hupper
    have hclass (d : Char) : d.isAlphanum =
        ((d.isUpper || (decide (d.val ≥ 97) && decide (d.val ≤ 122))) || d.isDigit) := rfl
    have halphanum : c.isAlphanum := by
      rw [hclass, hletter, Bool.true_or, Bool.true_or]
    rw [halphanum]
    simp only [ge_iff_le, UInt32.le_iff_toNat_le] at hupper
    have hA : 'A'.val.toNat = 65 := rfl
    have hZ : 'Z'.val.toNat = 90 := rfl
    have hval : c.toNat = c.val.toNat := rfl
    rw [hclass]
    simp [UInt32.le_iff_toNat_le, UInt32.toNat_add]
    omega
  · rfl

/-- The text occurs in the body with no alphanumeric character next to it. -/
def StandsAlone (text body : String) : Prop :=
  ∃ before run after, body.toList = before ++ run ++ after ∧ run.map Char.toLower = lower text ∧
    (∀ c ∈ before.getLast?, c.isAlphanum = false) ∧ ∀ c ∈ after.head?, c.isAlphanum = false

theorem hasTokenCaseInsensitive_iff (hne : text ≠ "") :
    hasTokenCaseInsensitive body text ↔
      (∀ c ∈ text.toList, c.isAlphanum) ∧ StandsAlone text body := by
  have hclass {run : List Char} (hrun : run.map Char.toLower = lower text) :
      (∀ c ∈ run, c.isAlphanum) ↔ ∀ c ∈ text.toList, c.isAlphanum := by
    have hmap (cs : List Char) : (∀ c ∈ cs, c.isAlphanum) ↔
        ∀ c ∈ cs.map Char.toLower, c.isAlphanum := by
      rw [List.forall_mem_map]
      simp only [isAlphanum_toLower]
    exact (hmap run).trans (hrun ▸ (hmap text.toList).symm)
  unfold hasTokenCaseInsensitive
  rw [List.any_eq_true]
  constructor
  · intro h
    obtain ⟨run, hmem, hrun⟩ := h
    have htoken := mem_tokens.1 hmem
    have hsame := of_decide_eq_true hrun
    obtain ⟨before, after, hbody, hbefore, hafter⟩ := htoken.alone
    exact ⟨(hclass hsame).1 htoken.inClass, before, run, after, hbody, hsame, hbefore, hafter⟩
  · intro h
    obtain ⟨hin, before, run, after, hbody, hrun, hbefore, hafter⟩ := h
    have hnonempty : run ≠ [] := by
      intro hnil
      rw [hnil] at hrun
      exact hne (String.toList_eq_nil_iff.1 (List.map_eq_nil_iff.1 hrun.symm))
    exact ⟨run, mem_tokens.2 ⟨hnonempty, (hclass hrun).2 hin, before, after, hbody, hbefore,
      hafter⟩, decide_eq_true hrun⟩

end Tokens

/-! ## What the conditions select -/

section Selects

variable {cfg : EnvironmentConfig} {engine : Engine F} {traces : List Span}
  {p : LogQueryParams} {r : LogRow}

theorem all_guarded {c : Prop} [Decidable c] {x : LogPredicate F} :
    ((if c then [x] else []).all fun c => c.holds engine traces r) = true ↔
      ¬ c ∨ x.holds engine traces r := by
  by_cases hc : c <;> simp [hc]

theorem selects_iff : p.selects cfg engine traces r ↔
    LogQueryParams.Wants cfg engine { p with bodyContains := "" } traces r ∧
      (bodyPredicates p).all fun c => (c : LogPredicate F).holds engine traces r := by
  have hattrs : ((p.attrs.map fun f =>
      let clause := attrClauseIn cfg engine .logAttributes f
      LogPredicate.compiled (.cond clause.1, clause.2)).all fun c => c.holds engine traces r) ↔
        ∀ f ∈ p.attrs, answers cfg engine f (.log r.toLogRecord) := by
    rw [List.all_map, List.all_eq_true]
    have hone (f : LogAttrFilter) : answers cfg engine f (.log r.toLogRecord) ↔
        satisfies engine traces (.log r.toLogRecord)
          (some (.cond (attrClauseIn cfg engine .logAttributes f).1,
            (attrClauseIn cfg engine .logAttributes f).2)) :=
      (answers_iff f).trans (satisfies_attrClauseIn traces f).symm
    simp only [hone]
    rfl
  have hgroups : (((attrGroupsClause cfg engine .logAttributes p.attrGroups p.fromTime
      p.toTime).toList.map LogPredicate.compiled).all fun c => c.holds engine traces r) ↔
        ∀ clause, attrGroupsClause cfg engine .logAttributes p.attrGroups p.fromTime p.toTime =
          some clause → satisfies engine traces (.log r.toLogRecord) (some clause) := by
    rw [List.all_map, List.all_eq_true]
    simp only [Option.mem_toList]
    rfl
  unfold LogQueryParams.selects logPredicates
  simp only [List.all_append, Bool.and_eq_true, hattrs, hgroups, all_guarded]
  constructor
  · intro h
    obtain ⟨⟨⟨⟨⟨⟨⟨hwindow, hservice⟩, hin⟩, hseverity⟩, hbody⟩, htrace⟩, hattrs⟩, hgroups⟩ := h
    rw [List.all_cons, List.all_cons, List.all_nil, Bool.and_true, Bool.and_eq_true] at hwindow
    refine ⟨?_, hbody⟩
    exact {
      window := ⟨of_decide_eq_true hwindow.1, of_decide_eq_true hwindow.2⟩
      service := hservice.imp not_not.1 of_decide_eq_true
      serviceIn := hin.imp not_not.1 of_decide_eq_true
      minSeverity := hseverity.imp not_lt.1 of_decide_eq_true
      body := .inl rfl
      traceID := htrace.imp not_not.1 of_decide_eq_true
      attrs := hattrs
      attrGroups := hgroups }
  · intro h
    obtain ⟨h, hbody⟩ := h
    refine ⟨⟨⟨⟨⟨⟨⟨?_, ?_⟩, ?_⟩, ?_⟩, hbody⟩, ?_⟩, h.attrs⟩, h.attrGroups⟩
    · rw [List.all_cons, List.all_cons, List.all_nil, Bool.and_true, Bool.and_eq_true]
      exact ⟨decide_eq_true h.window.1, decide_eq_true h.window.2⟩
    · exact h.service.imp not_not.2 decide_eq_true
    · exact h.serviceIn.imp not_not.2 decide_eq_true
    · exact h.minSeverity.imp not_lt.2 decide_eq_true
    · exact h.traceID.imp not_not.2 decide_eq_true

theorem wants_iff : p.Wants cfg engine traces r ↔
    LogQueryParams.Wants cfg engine { p with bodyContains := "" } traces r ∧
      (p.bodyContains = "" ∨ occursIn r.body p.bodyContains) :=
  ⟨fun h => ⟨{ h with body := .inl rfl }, h.body⟩, fun h => { h.1 with body := h.2 }⟩

theorem bodyPredicates_iff (hspace : hasSpace p.bodyContains = false) :
    ((bodyPredicates p).all fun c => (c : LogPredicate F).holds engine traces r) ↔
      p.bodyContains = "" ∨
        (hasTokenCaseInsensitive r.body p.bodyContains ∧ occursIn r.body p.bodyContains) := by
  unfold bodyPredicates
  by_cases hempty : p.bodyContains = ""
  · simp [hempty]
  · rw [if_pos hempty, hspace]
    simp [LogPredicate.holds, hempty]

/-- **The indexed search and the plain one.**  For a text without a space they agree on a row
when another field of the search leaves it out, when there is no text or the body does not
have it, and else when the text is alphanumeric and stands alone somewhere in the body. -/
theorem selects_iff_wants_iff (hspace : hasSpace p.bodyContains = false) :
    (p.selects cfg engine traces r ↔ p.Wants cfg engine traces r) ↔
      ¬ LogQueryParams.Wants cfg engine { p with bodyContains := "" } traces r ∨
        p.bodyContains = "" ∨ ¬ occursIn r.body p.bodyContains ∨
        ((∀ c ∈ p.bodyContains.toList, c.isAlphanum) ∧
          StandsAlone p.bodyContains r.body) := by
  rw [selects_iff, bodyPredicates_iff hspace, wants_iff (p := p)]
  by_cases hempty : p.bodyContains = ""
  · simp [hempty]
  · rw [← hasTokenCaseInsensitive_iff hempty]
    tauto

end Selects

/-! ### Part of a word -/

private def search (text : String) : LogQueryParams :=
  { fromTime := 0, toTime := 9, bodyContains := text }

private def anyEnvironment : EnvironmentConfig := ⟨"", []⟩

private def noNumbers : Engine Nat :=
  ⟨fun _ _ => false, fun _ => none, fun _ => none, fun _ _ _ => false⟩

private def logged (body : String) : LogRow where
  traceId := "t1"
  spanId := "s1"
  serviceName := "orders"
  environment := ""
  resourceAttributes := []
  logAttributes := []
  timestamp := 5
  severityNumber := 17
  body := body

theorem selects_word : (search "Timeout").selects anyEnvironment noNumbers [] (logged "db timeout")
    ↔ (search "Timeout").Wants anyEnvironment noNumbers [] (logged "db timeout") := by
  have hbefore : "db ".toList.getLast? = some ' ' := by decide +kernel
  refine (selects_iff_wants_iff (by decide)).2 (.inr (.inr (.inr
    ⟨List.all_eq_true.1 (by decide +kernel), "db ".toList, "timeout".toList, [],
      by decide +kernel, by decide +kernel, ?_, ?_⟩)))
  · intro c hc
    rw [hbefore] at hc
    cases hc
    rfl
  · intro c hc
    cases hc

theorem not_selects_part_of_word :
    (search "time").Wants anyEnvironment noNumbers [] (logged "db timeout") ∧
      (search "time").selects anyEnvironment noNumbers [] (logged "db timeout") = false := by
  constructor
  · constructor <;> decide
  · decide +kernel

end Sluicio.Store
