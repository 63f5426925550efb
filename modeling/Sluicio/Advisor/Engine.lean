import Sluicio.Advisor.Store
import Sluicio.Lib.Run

/-!
# Advisor runs

`RunOrg` evaluates the telemetry classes and then the alerting classes.  What an evaluation
finds is upserted, and the open suggestions of its classes that it does not find are deleted;
an evaluation that fails is passed over.  At the end the accepted suggestions that the run has
not found are marked verified, of whatever class they are.
-/

namespace Sluicio.Advisor

open Lib

structure Findings (classes : List Class) where
  list : List Finding
  classes_of_mem : ∀ f ∈ list, f.fingerprint.cls ∈ classes

/-- How far the statements of a `reconcile` go. -/
structure Writes where
  upserts : Nat
  /-- `CloseMissing` succeeds -/
  close : Bool

def fingerprints (found : List Finding) : List Fingerprint := found.map Finding.fingerprint

namespace Suggestions

def upsertAll (t : Suggestions) (now : Nat) (found : List Finding) : Suggestions :=
  found.foldl (fun t f => t.upsert now f) t

/-- `reconcile`, and whether it returns without an error. -/
def reconcile (t : Suggestions) (now : Nat) (classes : List Class) (found : List Finding)
    (w : Writes) : Suggestions × Bool :=
  let t := t.upsertAll now (found.take w.upserts)
  if w.upserts < found.length then (t, false)
  else if w.close then (t.closeMissing classes (fingerprints found), true)
  else (t, false)

end Suggestions

/-- What `LoadDemand` reads. -/
inductive Ledger where
  | unavailable
  | young
  | mature
  deriving DecidableEq

/-- A run, and how what it depends on turns out. -/
structure Run where
  now : Nat
  clickhouse : Bool
  ledger : Ledger
  /-- what the telemetry evaluators find, when every supply query succeeds -/
  telemetry : Option (Findings telemetryClasses)
  sampled : Bool
  telemetryWrites : Writes
  alerting : Option (Findings alertingClasses)
  alertingWrites : Writes
  /-- `MarkVerified` succeeds -/
  verifies : Bool

/-- `LoadDemand`: without a connection there is no demand. -/
def loadDemand (r : Run) : Ledger := if r.clickhouse then r.ledger else .young

/-- What `EvaluateTelemetry` returns to `RunOrg`, when that calls it. -/
def telemetryFound (r : Run) : Option (List Finding) :=
  if !r.clickhouse then none
  else if loadDemand r = .mature then r.telemetry.map Findings.list
  else some []

/-- What `EvaluateFatigue` returns. -/
def alertingFound (r : Run) : Option (List Finding) :=
  if loadDemand r = .mature then r.alerting.map Findings.list else some []

/-- One of the two halves of `RunOrg`; an evaluation that failed leaves everything as it is. -/
def Suggestions.reconcileFound (t : Suggestions) (now : Nat) (classes : List Class)
    (found : Option (List Finding)) (w : Writes) : Suggestions × Bool :=
  match found with
  | none => (t, true)
  | some found => t.reconcile now classes found w

def runOrg (t : Suggestions) (r : Run) : Suggestions :=
  if loadDemand r = .unavailable then t
  else
    let tele := telemetryFound r
    match t.reconcileFound r.now telemetryClasses tele r.telemetryWrites with
    | (t, false) => t
    | (t, true) =>
      let fat := alertingFound r
      match t.reconcileFound r.now alertingClasses fat r.alertingWrites with
      | (t, false) => t
      | (t, true) =>
        if r.verifies then t.markVerified (fingerprints (tele.getD [] ++ fat.getD [])) else t

structure State where
  suggestions : Suggestions := ∅
  /-- the weight each suggestion had when it was last dismissed -/
  dismissedAt : Fingerprint → Int := fun _ => 0

/-- The advisor runs for an organization, or someone decides on a suggestion. -/
inductive Action where
  | runOrg (r : Run)
  | decide (now : Nat) (id : UUID) (userID : Option UUID) (state : SuggestionState)
      (note : String)

/-- The weights at dismissal, after a decision. -/
def State.dismissals (s : State) (id : UUID) (state : SuggestionState) (fp : Fingerprint) : Int :=
  match s.suggestions.look fp with
  | some r => if state = .dismissed ∧ r.id = id then r.weight else s.dismissedAt fp
  | none => s.dismissedAt fp

def step (s : State) : Action → State
  | .runOrg r => { s with suggestions := runOrg s.suggestions r }
  | .decide now id userID state note =>
    { suggestions := s.suggestions.decide now id userID state note
      dismissedAt := s.dismissals id state }

/-! ## What a run is for -/

/-- The telemetry half of the run ends without an error. -/
def telemetryOK (r : Run) : Bool :=
  (telemetryFound r).all fun found =>
    found.length ≤ r.telemetryWrites.upserts && r.telemetryWrites.close

/-- The alerting half of the run, if it comes to it, ends without an error. -/
def alertingOK (r : Run) : Bool :=
  (alertingFound r).all fun found =>
    found.length ≤ r.alertingWrites.upserts && r.alertingWrites.close

def produced (r : Run) (c : Class) : List Finding :=
  if loadDemand r = .unavailable then []
  else if c ∈ telemetryClasses then (telemetryFound r).getD []
  else if telemetryOK r then (alertingFound r).getD []
  else []

/-- The run has carried the evaluation of a class out: the ledger is old enough, and everything
that the evaluation asked for could be read. -/
def Evaluated (r : Run) (c : Class) : Prop :=
  loadDemand r = .mature ∧
    if c ∈ telemetryClasses then r.telemetry.isSome ∧ (c = .t6 → r.sampled)
    else telemetryOK r ∧ r.alerting.isSome

instance (r : Run) (c : Class) : Decidable (Evaluated r c) := by
  unfold Evaluated
  infer_instance

/-- Every statement of the half that a class belongs to has succeeded. -/
def Reconciled (r : Run) (c : Class) : Bool :=
  if c ∈ telemetryClasses then telemetryOK r else alertingOK r

/-- The run comes to its `MarkVerified`, and that succeeds. -/
def Verifies (r : Run) : Prop :=
  loadDemand r ≠ .unavailable ∧ telemetryOK r ∧ alertingOK r ∧ r.verifies

instance (r : Run) : Decidable (Verifies r) := inferInstanceAs (Decidable (_ ∧ _))

def Finds (found : List Finding) (fp : Fingerprint) : Prop := fp ∈ fingerprints found

instance (found : List Finding) (fp : Fingerprint) : Decidable (Finds found fp) :=
  inferInstanceAs (Decidable (_ ∈ _))

def Suggestion.OutgrownBy (r : Suggestion) (found : List Finding) : Prop :=
  ∃ f ∈ found, f.fingerprint = r.fingerprint ∧ r.Outgrown f

instance (r : Suggestion) (found : List Finding) : Decidable (r.OutgrownBy found) :=
  inferInstanceAs (Decidable (∃ f ∈ found, _))

/-- A decision covers what is found again: it is accepted or verified, or dismissed and not
outgrown. -/
def Suggestion.Covers (r : Suggestion) (found : List Finding) : Prop :=
  r.state = .accepted ∨ r.state = .verified ∨ (r.state = .dismissed ∧ ¬ r.OutgrownBy found)

def Suggestions.IsOpen (t : Suggestions) (fp : Fingerprint) : Prop :=
  ∃ x, t.look fp = some x ∧ x.state = .open

structure Disposable (s : State) (r : Run) (t : Suggestions) : Prop where
  decided : ∀ fp x, s.suggestions.look fp = some x → x.state = .accepted ∨ x.state = .verified →
    ∃ x', t.look fp = some x' ∧ x'.id = x.id ∧ (x'.state = .accepted ∨ x'.state = .verified)
  /-- a dismissed one stays so, unless it was found with twice the weight it had then -/
  dismissed : ∀ fp x, s.suggestions.look fp = some x → x.state = .dismissed →
    ∃ x', t.look fp = some x' ∧ x'.id = x.id ∧
      (x'.state = .dismissed ∨ x'.state = .open ∧
        ∃ f ∈ produced r fp.cls, f.fingerprint = fp ∧ 2 * s.dismissedAt fp ≤ f.weight)
  verified : ∀ fp x x', s.suggestions.look fp = some x → x.state = .accepted →
    t.look fp = some x' → x'.state = .verified → Evaluated r fp.cls ∧ ¬ Finds (produced r fp.cls) fp
  /-- after an evaluation the open ones are those found that no decision covers -/
  opened : ∀ fp, Evaluated r fp.cls → Reconciled r fp.cls →
    (t.IsOpen fp ↔ Finds (produced r fp.cls) fp ∧
      ∀ x, s.suggestions.look fp = some x → ¬ x.Covers (produced r fp.cls))

def StepDisposable (s : State) : Action → Prop
  | .runOrg r => Disposable s r (runOrg s.suggestions r)
  | .decide .. => True

/-- When the run marks anything verified, every accepted suggestion that it has not found is of
a class that it has evaluated. -/
def VerifiesEvaluated (s : State) (r : Run) : Prop :=
  Verifies r → ∀ x ∈ s.suggestions.rows, x.state = .accepted →
    ¬ Finds (produced r x.fingerprint.cls) x.fingerprint → Evaluated r x.fingerprint.cls

def StepVerifiesEvaluated (s : State) : Action → Prop
  | .runOrg r => VerifiesEvaluated s r
  | .decide .. => True

/-! ## What an upsert makes of a row -/

/-- What upserting findings makes of a row that is there. -/
structure Suggestion.Refreshed (found : List Finding) (r r' : Suggestion) : Prop where
  id : r'.id = r.id
  state : r'.state = if r.state = .dismissed ∧ r.OutgrownBy found then .open else r.state
  weight : r'.state = .dismissed → r'.weight = r.weight

section Rows

variable {found : List Finding} {r r' : Suggestion} {f : Finding} {now : Nat}

theorem outgrownBy_cons :
    r.OutgrownBy (f :: found) ↔
      f.fingerprint = r.fingerprint ∧ r.Outgrown f ∨ r.OutgrownBy found := by
  simp [Suggestion.OutgrownBy]

theorem Suggestion.Refreshed.cons_other (hne : f.fingerprint ≠ r.fingerprint)
    (h : r.Refreshed found r') : r.Refreshed (f :: found) r' where
  id := h.id
  state := by
    have hsame : r.OutgrownBy (f :: found) ↔ r.OutgrownBy found := by
      rw [outgrownBy_cons]
      exact or_iff_right fun hf => hne hf.1
    simp only [hsame, h.state]
  weight := h.weight

theorem Suggestion.Refreshed.cons (heq : f.fingerprint = r.fingerprint)
    (h : (r.refresh now f).Refreshed found r') : r.Refreshed (f :: found) r' := by
  have hstate := h.state
  by_cases hd : r.state = .dismissed
  · by_cases hout : r.Outgrown f
    · -- it is open from here on
      have hopen : (r.refresh now f).state = .open := if_pos ⟨hd, hout⟩
      have hby : r.OutgrownBy (f :: found) := outgrownBy_cons.2 (Or.inl ⟨heq, hout⟩)
      have hr' : r'.state = .open := by simpa [hopen] using hstate
      refine ⟨h.id, ?_, fun hdis => ?_⟩
      · rw [hr', if_pos ⟨hd, hby⟩]
      · rw [hr'] at hdis
        nomatch hdis
    · -- neither the state nor the weight has changed
      have hkept : (r.refresh now f).state = .dismissed := by
        rw [← hd]
        exact if_neg fun hc => hout hc.2
      have hweight : (r.refresh now f).weight = r.weight := if_pos ⟨hd, hout⟩
      have hby : (r.refresh now f).OutgrownBy found ↔ r.OutgrownBy (f :: found) := by
        rw [outgrownBy_cons, or_iff_right fun hf => hout hf.2]
        simp only [Suggestion.OutgrownBy, Suggestion.Outgrown, hweight]
        exact Iff.rfl
      refine ⟨h.id, ?_, fun hdis => (h.weight hdis).trans hweight⟩
      simp only [hstate, hkept, hby, hd]
  · have hkept : (r.refresh now f).state = r.state := if_neg fun hc => hd hc.1
    have hr' : r'.state = r.state := by
      rw [hstate, hkept, if_neg fun hc => hd hc.1]
    refine ⟨h.id, ?_, fun hdis => absurd (hr'.symm.trans hdis) hd⟩
    rw [hr', if_neg fun hc => hd hc.1]

end Rows

section Reconcile

variable {t : Suggestions} {found : List Finding} {fp : Fingerprint} {now : Nat}
  {classes : List Class} {w : Writes}

theorem refreshed_upsertAll (now : Nat) (found : List Finding) {r : Suggestion}
    (h : t.look fp = some r) :
    ∃ r', (t.upsertAll now found).look fp = some r' ∧ r.Refreshed found r' := by
  induction found generalizing t r with
  | nil => exact ⟨r, h, rfl, by simp [Suggestion.OutgrownBy], fun _ => rfl⟩
  | cons f found ih =>
    have hfp := Suggestions.fingerprint_of_look h
    by_cases heq : f.fingerprint = fp
    · have hlook : (t.upsert now f).look fp = some (r.refresh now f) := by
        subst heq
        rw [Suggestions.look_upsert_self, h]
        rfl
      have ⟨r', hr', href⟩ := ih hlook
      exact ⟨r', hr', href.cons (heq.trans hfp.symm)⟩
    have hlook : (t.upsert now f).look fp = some r := by
      rw [Suggestions.look_upsert_other t now heq, h]
    have ⟨r', hr', href⟩ := ih hlook
    exact ⟨r', hr', href.cons_other fun hc => heq (hc.trans hfp)⟩

theorem look_upsertAll_other (h : ¬ Finds found fp) :
    (t.upsertAll now found).look fp = t.look fp := by
  induction found generalizing t with
  | nil => rfl
  | cons f found ih =>
    have ⟨hf, hfound⟩ := not_or.1 fun hc => h (List.mem_cons.2 hc)
    have hstep := ih (t := t.upsert now f) hfound
    exact hstep.trans (Suggestions.look_upsert_other t now fun hc => hf hc.symm)

theorem open_upsertAll (now : Nat) (hnone : t.look fp = none) (h : Finds found fp) :
    (t.upsertAll now found).IsOpen fp := by
  induction found generalizing t with
  | nil => nomatch h
  | cons f found ih =>
    by_cases heq : f.fingerprint = fp
    · have hlook : (t.upsert now f).look fp = some (f.row t.nextID now) := by
        subst heq
        rw [Suggestions.look_upsert_self, hnone]
        rfl
      have ⟨r', hr', href⟩ := refreshed_upsertAll now found hlook
      refine ⟨r', hr', ?_⟩
      rw [href.state, if_neg fun hc => nomatch hc.1]
      rfl
    · have hlook : (t.upsert now f).look fp = none := by
        rw [Suggestions.look_upsert_other t now heq, hnone]
      cases List.mem_cons.1 h with
      | inl hc => exact absurd hc.symm heq
      | inr hmem => exact ih hlook hmem

/-! ## What a reconciliation makes of a row -/

/-- What a half of a run does to the row of a fingerprint: what was decided is kept, up to a
dismissal that is outgrown, and nothing is dismissed. -/
structure Settled (found : List Finding) (fp : Fingerprint) (o o' : Option Suggestion) : Prop where
  kept : ∀ r, o = some r → r.state ≠ .open → ∃ r', o' = some r' ∧ r'.id = r.id ∧
    (r'.state = r.state ∨ r.state = .dismissed ∧ r'.state = .open ∧
      ∃ f ∈ found, f.fingerprint = fp ∧ r.Outgrown f)
  dismissed : ∀ r', o' = some r' → r'.state = .dismissed →
    ∃ r, o = some r ∧ r.state = .dismissed ∧ r'.weight = r.weight

theorem Settled.refl (found : List Finding) (fp : Fingerprint) (o : Option Suggestion) :
    Settled found fp o o where
  kept r hr _ := ⟨r, hr, rfl, Or.inl rfl⟩
  dismissed r' hr' hd := ⟨r', hr', hd, rfl⟩

theorem Settled.mono {found' : List Finding} {o o' : Option Suggestion}
    (h : Settled found fp o o') (hsub : found ⊆ found') : Settled found' fp o o' where
  kept r hr hopen := by
    have ⟨r', hr', hid, hstate⟩ := h.kept r hr hopen
    refine ⟨r', hr', hid, hstate.imp_right fun hout => ?_⟩
    have ⟨f, hf, hgrown⟩ := hout.2.2
    exact ⟨hout.1, hout.2.1, f, hsub hf, hgrown⟩
  dismissed := h.dismissed

theorem settled_upsertAll : Settled found fp (t.look fp) ((t.upsertAll now found).look fp) where
  kept r hr _ := by
    have ⟨r', hr', href⟩ := refreshed_upsertAll now found hr
    have hfp := Suggestions.fingerprint_of_look hr
    have hstate := href.state
    refine ⟨r', hr', href.id, ?_⟩
    split_ifs at hstate with hout
    · have ⟨f, hf, heq, hgrown⟩ := hout.2
      exact Or.inr ⟨hout.1, hstate, f, hf, heq.trans hfp, hgrown⟩
    · exact Or.inl hstate
  dismissed r' hr' hd := by
    cases ho : t.look fp with
    | none =>
      by_cases hfinds : Finds found fp
      · have ⟨x, hx, hopen⟩ := open_upsertAll now ho hfinds
        rw [hr'] at hx
        cases hx
        rw [hopen] at hd
        nomatch hd
      · rw [look_upsertAll_other hfinds, ho] at hr'
        nomatch hr'
    | some r =>
      have ⟨x, hx, href⟩ := refreshed_upsertAll now found ho
      rw [hr'] at hx
      cases hx
      have hstate := href.state
      split_ifs at hstate with hout
      · rw [hstate] at hd
        nomatch hd
      · exact ⟨r, rfl, hstate.symm.trans hd, href.weight hd⟩

theorem Settled.closeMissing {o : Option Suggestion} (h : Settled found fp o (t.look fp)) :
    Settled found fp o ((t.closeMissing classes (fingerprints found)).look fp) := by
  rw [Suggestions.look_closeMissing]
  constructor
  · intro r hr hopen
    have ⟨r', hr', hid, hstate⟩ := h.kept r hr hopen
    refine ⟨r', ?_, hid, hstate⟩
    rw [hr', Option.filter_some, if_pos]
    refine decide_eq_true fun hc => ?_
    cases hstate with
    | inl heq => exact hopen (heq ▸ hc.1)
    | inr hout =>
      have ⟨f, hf, heq, _⟩ := hout.2.2
      refine hc.2.2 (List.mem_map.2 ⟨f, hf, ?_⟩)
      rw [heq, Suggestions.fingerprint_of_look hr']
  · intro r' hr' hd
    exact h.dismissed r' (Option.filter_eq_some_iff.1 hr').1 hd

theorem settled_reconcile :
    Settled found fp (t.look fp) ((t.reconcile now classes found w).1.look fp) := by
  unfold Suggestions.reconcile
  split_ifs with hpart hclose
  · exact settled_upsertAll.mono (List.take_subset _ _)
  · rw [List.take_of_length_le (Nat.le_of_not_lt hpart)]
    exact settled_upsertAll.closeMissing
  · exact settled_upsertAll.mono (List.take_subset _ _)

theorem look_reconcile_other (hfp : fp.cls ∉ classes)
    (hfound : ∀ f ∈ found, f.fingerprint.cls ∈ classes) :
    (t.reconcile now classes found w).1.look fp = t.look fp := by
  have hnot : ∀ n, ¬ Finds (found.take n) fp := by
    intro n hmem
    obtain ⟨f, hf, rfl⟩ := List.mem_map.1 hmem
    exact hfp (hfound f (List.mem_of_mem_take hf))
  have hlook : (t.upsertAll now (found.take w.upserts)).look fp = t.look fp :=
    look_upsertAll_other (hnot _)
  unfold Suggestions.reconcile
  split_ifs with hpart hclose
  · exact hlook
  · rw [Suggestions.look_closeMissing, hlook]
    cases ho : t.look fp with
    | none => rfl
    | some r =>
      rw [Option.filter_some, if_pos]
      refine decide_eq_true fun hc => hfp ?_
      rw [← Suggestions.fingerprint_of_look ho]
      exact hc.2.1
  · exact hlook

theorem isOpen_reconcile (hfp : fp.cls ∈ classes) (hok : found.length ≤ w.upserts ∧ w.close) :
    (t.reconcile now classes found w).1.IsOpen fp ↔
      Finds found fp ∧ ∀ x, t.look fp = some x → ¬ x.Covers found := by
  have hlook : (t.reconcile now classes found w).1.look fp =
      ((t.upsertAll now found).look fp).filter fun r =>
        ¬ (r.state = .open ∧ r.fingerprint.cls ∈ classes ∧ r.fingerprint ∉ fingerprints found) := by
    rw [Suggestions.reconcile, if_neg (Nat.not_lt.2 hok.1), if_pos hok.2,
      List.take_of_length_le hok.1, Suggestions.look_closeMissing]
  unfold Suggestions.IsOpen
  rw [hlook]
  by_cases hfinds : Finds found fp
  · -- found: it stays, open when it is new or when nothing covers it
    have hstay : ∀ x, (((t.upsertAll now found).look fp).filter fun r =>
        ¬ (r.state = .open ∧ r.fingerprint.cls ∈ classes ∧ r.fingerprint ∉ fingerprints found))
          = some x ↔ (t.upsertAll now found).look fp = some x := by
      intro x
      rw [Option.filter_eq_some_iff]
      refine and_iff_left_of_imp fun hx => decide_eq_true fun hc => hc.2.2 ?_
      rw [Suggestions.fingerprint_of_look hx]
      exact hfinds
    simp only [hstay]
    cases ho : t.look fp with
    | none =>
      have hopen := open_upsertAll now ho hfinds
      exact iff_of_true hopen ⟨hfinds, fun _ hx => nomatch hx⟩
    | some r =>
      have ⟨r', hr', href⟩ := refreshed_upsertAll now found ho
      have hopen : (∃ x, (t.upsertAll now found).look fp = some x ∧ x.state = .open) ↔
          r'.state = .open := by
        simp [hr']
      rw [hopen, href.state]
      simp only [Option.some.injEq, forall_eq', hfinds, true_and, Suggestion.Covers]
      cases hstate : r.state <;> simp
  · -- not found: an open one goes
    refine iff_of_false ?_ fun h => hfinds h.1
    intro ⟨x, hx, hopen⟩
    have ⟨hlk, hkeep⟩ := Option.filter_eq_some_iff.1 hx
    have hxfp := Suggestions.fingerprint_of_look hlk
    refine of_decide_eq_true hkeep ⟨hopen, ?_, ?_⟩
    · rw [hxfp]
      exact hfp
    · rw [hxfp]
      exact hfinds

end Reconcile

/-! ## What a run makes of a row -/

section Runs

variable {t : Suggestions} {r : Run} {fp : Fingerprint} {now : Nat} {classes : List Class}
  {found : Option (List Finding)} {w : Writes}

theorem classes_of_telemetryFound :
    ∀ f ∈ (telemetryFound r).getD [], f.fingerprint.cls ∈ telemetryClasses := by
  intro f hf
  unfold telemetryFound at hf
  split_ifs at hf
  · nomatch hf
  · cases htele : r.telemetry with
    | none =>
      rw [htele] at hf
      nomatch hf
    | some tele =>
      rw [htele] at hf
      exact tele.classes_of_mem f hf
  · nomatch hf

theorem classes_of_alertingFound :
    ∀ f ∈ (alertingFound r).getD [], f.fingerprint.cls ∈ alertingClasses := by
  intro f hf
  unfold alertingFound at hf
  split_ifs at hf
  · cases hfat : r.alerting with
    | none =>
      rw [hfat] at hf
      nomatch hf
    | some fat =>
      rw [hfat] at hf
      exact fat.classes_of_mem f hf
  · nomatch hf

theorem reconcileFound_ok :
    (t.reconcileFound now classes found w).2 =
      found.all fun found => found.length ≤ w.upserts && w.close := by
  cases found with
  | none => rfl
  | some found =>
    simp only [Suggestions.reconcileFound, Suggestions.reconcile, Option.all_some]
    split_ifs with hpart hclose
    · simp [Nat.not_le.2 hpart]
    · simp [Nat.le_of_not_lt hpart, hclose]
    · simp [hclose]

theorem settled_reconcileFound :
    Settled (found.getD []) fp (t.look fp) ((t.reconcileFound now classes found w).1.look fp) := by
  cases found with
  | none => exact Settled.refl _ _ _
  | some found => exact settled_reconcile

theorem look_reconcileFound_other (hfp : fp.cls ∉ classes)
    (hfound : ∀ f ∈ found.getD [], f.fingerprint.cls ∈ classes) :
    (t.reconcileFound now classes found w).1.look fp = t.look fp := by
  cases found with
  | none => rfl
  | some found => exact look_reconcile_other hfp hfound

/-- The table after the telemetry half, and after the alerting half. -/
def afterTelemetry (t : Suggestions) (r : Run) : Suggestions :=
  (t.reconcileFound r.now telemetryClasses (telemetryFound r) r.telemetryWrites).1

def afterAlerting (t : Suggestions) (r : Run) : Suggestions :=
  ((afterTelemetry t r).reconcileFound r.now alertingClasses (alertingFound r) r.alertingWrites).1

/-- The table when the run comes to its `MarkVerified`, or ends before. -/
def reconciled (t : Suggestions) (r : Run) : Suggestions :=
  if loadDemand r = .unavailable then t
  else if telemetryOK r then afterAlerting t r
  else afterTelemetry t r

def allFound (r : Run) : List Finding :=
  (telemetryFound r).getD [] ++ (alertingFound r).getD []

theorem runOrg_eq (t : Suggestions) (r : Run) :
    runOrg t r = if Verifies r then (reconciled t r).markVerified (fingerprints (allFound r))
      else reconciled t r := by
  have hT : (t.reconcileFound r.now telemetryClasses (telemetryFound r) r.telemetryWrites) =
      (afterTelemetry t r, telemetryOK r) := Prod.ext rfl reconcileFound_ok
  have hF : ((afterTelemetry t r).reconcileFound r.now alertingClasses (alertingFound r)
      r.alertingWrites) = (afterAlerting t r, alertingOK r) := Prod.ext rfl reconcileFound_ok
  unfold runOrg reconciled Verifies
  by_cases hload : loadDemand r = .unavailable
  · simp [hload]
  simp only [hload, hT, if_false, ne_eq, not_false_eq_true, true_and]
  cases hTok : telemetryOK r with
  | false => simp
  | true =>
    simp only [hF, if_true, true_and]
    cases hFok : alertingOK r with
    | false => simp
    | true => simp [allFound]

theorem finds_allFound (hload : loadDemand r ≠ .unavailable) (hok : telemetryOK r) :
    fp ∈ fingerprints (allFound r) ↔ Finds (produced r fp.cls) fp := by
  have happ : fp ∈ fingerprints (allFound r) ↔
      Finds ((telemetryFound r).getD []) fp ∨ Finds ((alertingFound r).getD []) fp := by
    simp [Finds, fingerprints, allFound]
  rw [happ, produced, if_neg hload]
  by_cases hc : fp.cls ∈ telemetryClasses
  · rw [if_pos hc]
    refine or_iff_left fun hmem => ?_
    obtain ⟨f, hf, rfl⟩ := List.mem_map.1 hmem
    exact (mem_alertingClasses_iff _).1 (classes_of_alertingFound f hf) hc
  rw [if_neg hc, if_pos hok]
  refine or_iff_right fun hmem => ?_
  obtain ⟨f, hf, rfl⟩ := List.mem_map.1 hmem
  exact hc (classes_of_telemetryFound f hf)

theorem settled_reconciled :
    Settled (produced r fp.cls) fp (t.look fp) ((reconciled t r).look fp) := by
  unfold reconciled produced
  split_ifs with hload hc hok hok
  · exact Settled.refl _ _ _
  · -- the alerting half leaves the row as the telemetry half has left it
    have hother : (afterAlerting t r).look fp = (afterTelemetry t r).look fp :=
      look_reconcileFound_other (fun ha => (mem_alertingClasses_iff _).1 ha hc)
        classes_of_alertingFound
    rw [hother]
    exact settled_reconcileFound
  · exact settled_reconcileFound
  all_goals
    have hother : (afterTelemetry t r).look fp = t.look fp :=
      look_reconcileFound_other hc classes_of_telemetryFound
    rw [← hother]
  · exact settled_reconcileFound
  · exact Settled.refl _ _ _

theorem isOpen_reconciled (heval : Evaluated r fp.cls) (hrec : Reconciled r fp.cls) :
    (reconciled t r).IsOpen fp ↔ Finds (produced r fp.cls) fp ∧
      ∀ x, t.look fp = some x → ¬ x.Covers (produced r fp.cls) := by
  have hmature := heval.1
  have hload : loadDemand r ≠ .unavailable := by
    rw [hmature]
    decide
  have hch : r.clickhouse := by
    cases hch : r.clickhouse with
    | true => rfl
    | false => simp [loadDemand, hch] at hmature
  unfold reconciled produced
  rw [if_neg hload, if_neg hload]
  by_cases hc : fp.cls ∈ telemetryClasses
  · have hbody := heval.2
    rw [if_pos hc] at hbody ⊢
    have ⟨tele, htele⟩ := Option.isSome_iff_exists.1 hbody.1
    have hfound : telemetryFound r = some tele.list := by
      simp [telemetryFound, hch, hmature, htele]
    have hok : telemetryOK r := by simpa [Reconciled, hc] using hrec
    have hwrites : tele.list.length ≤ r.telemetryWrites.upserts ∧
        r.telemetryWrites.close := by
      simpa [telemetryOK, hfound] using hok
    have hother : (afterAlerting t r).look fp = (afterTelemetry t r).look fp :=
      look_reconcileFound_other (fun ha => (mem_alertingClasses_iff _).1 ha hc)
        classes_of_alertingFound
    rw [if_pos hok, hfound, Suggestions.IsOpen, hother, afterTelemetry, hfound]
    exact isOpen_reconcile hc hwrites
  · have hbody := heval.2
    rw [if_neg hc] at hbody ⊢
    have hok := hbody.1
    have ⟨fat, hfat⟩ := Option.isSome_iff_exists.1 hbody.2
    have hfound : alertingFound r = some fat.list := by
      simp [alertingFound, hmature, hfat]
    have hwrites : fat.list.length ≤ r.alertingWrites.upserts ∧ r.alertingWrites.close := by
      simpa [Reconciled, hc, alertingOK, hfound] using hrec
    have hother : (afterTelemetry t r).look fp = t.look fp :=
      look_reconcileFound_other hc classes_of_telemetryFound
    rw [if_pos hok, if_pos hok, hfound, afterAlerting, hfound, ← hother]
    exact isOpen_reconcile ((mem_alertingClasses_iff _).2 hc) hwrites

theorem look_runOrg (t : Suggestions) (r : Run) (fp : Fingerprint) :
    (runOrg t r).look fp = ((reconciled t r).look fp).map fun x =>
      if Verifies r ∧ x.state = .accepted ∧ ¬ Finds (produced r fp.cls) fp then x.verified
      else x := by
  rw [runOrg_eq]
  by_cases hv : Verifies r
  · rw [if_pos hv, Suggestions.look_markVerified]
    cases ho : (reconciled t r).look fp with
    | none => rfl
    | some x =>
      have hfp := Suggestions.fingerprint_of_look ho
      have hfinds : fp ∈ fingerprints (allFound r) ↔ Finds (produced r fp.cls) fp :=
        finds_allFound hv.1 hv.2.1
      simp only [Option.map_some, hfp, hfinds, hv, true_and]
  · simp [hv]

theorem isOpen_runOrg : (runOrg t r).IsOpen fp ↔ (reconciled t r).IsOpen fp := by
  unfold Suggestions.IsOpen
  rw [look_runOrg]
  cases ho : (reconciled t r).look fp with
  | none => simp
  | some x =>
    simp only [Option.map_some, Option.some.injEq, exists_eq_left']
    split_ifs with hcond
    · refine iff_of_false (fun h => nomatch h) fun h => ?_
      rw [h] at hcond
      nomatch hcond.2.1
    · exact Iff.rfl

end Runs

/-! ## Sequences of runs and decisions -/

/-- A dismissed row keeps the weight it had when it was dismissed. -/
def Recorded (s : State) : Prop :=
  ∀ fp x, s.suggestions.look fp = some x → x.state = .dismissed → x.weight = s.dismissedAt fp

variable {s : State}

theorem Recorded.runOrg (h : Recorded s) (r : Run) :
    Recorded { s with suggestions := runOrg s.suggestions r } := by
  intro fp x' hx' hd
  have hrow := look_runOrg s.suggestions r fp
  rw [hx'] at hrow
  obtain ⟨y, hy, rfl⟩ := Option.map_eq_some_iff.1 hrow.symm
  split_ifs at hd ⊢ with hcond
  · nomatch hd
  · have ⟨x, hx, hxd, hweight⟩ := settled_reconciled.dismissed y hy hd
    rw [hweight]
    exact h fp x hx hxd

theorem Recorded.decide (h : Recorded s) (now : Nat) (id : UUID) (userID : Option UUID)
    (state : SuggestionState) (note : String) :
    Recorded (step s (.decide now id userID state note)) := by
  intro fp x' hx' hd
  simp only [step, Suggestions.look_decide] at hx'
  have ⟨x, hx, hrow⟩ := Option.map_eq_some_iff.1 hx'
  have hdismissals : s.dismissals id state fp =
      if state = .dismissed ∧ x.id = id then x.weight else s.dismissedAt fp := by
    simp only [State.dismissals, hx]
  show x'.weight = s.dismissals id state fp
  rw [hdismissals]
  split_ifs at hrow with hcond
  · subst hrow
    rw [if_pos ⟨hd, hcond.2⟩]
    rfl
  · subst hrow
    rw [if_neg fun hc => hcond ⟨Or.inr hc.1, hc.2⟩]
    exact h fp x hx hd

theorem recorded_start : Recorded {} := fun _ _ hx => nomatch hx

theorem reconciled_of_decided (r : Run) {fp : Fingerprint} {x : Suggestion}
    (hx : s.suggestions.look fp = some x) (hstate : x.state = .accepted ∨ x.state = .verified) :
    ∃ y, (reconciled s.suggestions r).look fp = some y ∧ y.id = x.id ∧ y.state = x.state := by
  have hne : x.state ≠ .open := by
    intro hopen
    rw [hopen] at hstate
    simp at hstate
  have ⟨y, hy, hid, hkept⟩ := (settled_reconciled (r := r)).kept x hx hne
  refine ⟨y, hy, hid, hkept.resolve_right fun hout => ?_⟩
  rw [hout.1] at hstate
  simp at hstate

theorem disposable_iff (h : Recorded s) (r : Run) :
    Disposable s r (runOrg s.suggestions r) ↔ VerifiesEvaluated s r := by
  constructor
  · intro hdisp hv x hmem hacc hnot
    have hx : s.suggestions.look x.fingerprint = some x :=
      (find?_key_eq_some s.suggestions.nodup).2 ⟨hmem, rfl⟩
    have ⟨y, hy, _, hstate⟩ := reconciled_of_decided r hx (Or.inl hacc)
    have hrow := look_runOrg s.suggestions r x.fingerprint
    rw [hy, Option.map_some, if_pos ⟨hv, hstate.trans hacc, hnot⟩] at hrow
    exact (hdisp.verified _ x _ hx hacc hrow rfl).1
  · intro hcond
    constructor
    · intro fp x hx hstate
      have ⟨y, hy, hid, hkept⟩ := reconciled_of_decided r hx hstate
      rw [look_runOrg, hy, Option.map_some]
      refine ⟨_, rfl, ?_⟩
      split_ifs
      · exact ⟨hid, Or.inr rfl⟩
      · rw [hkept]
        exact ⟨hid, hstate⟩
    · intro fp x hx hd
      have hne : x.state ≠ .open := by
        rw [hd]
        decide
      have ⟨y, hy, hid, hkept⟩ := (settled_reconciled (r := r)).kept x hx hne
      have hyne : y.state ≠ .accepted := by
        cases hkept with
        | inl hsame =>
          rw [hsame, hd]
          decide
        | inr hout =>
          rw [hout.2.1]
          decide
      rw [look_runOrg, hy, Option.map_some, if_neg fun hc => hyne hc.2.1]
      refine ⟨y, rfl, hid, ?_⟩
      cases hkept with
      | inl hsame => exact Or.inl (hsame.trans hd)
      | inr hout =>
        have ⟨f, hf, heq, hgrown⟩ := hout.2.2
        have hweight := h fp x hx hd
        refine Or.inr ⟨hout.2.1, f, hf, heq, ?_⟩
        unfold Suggestion.Outgrown reopenFactor at hgrown
        omega
    · intro fp x x' hx hacc hx' hverified
      have ⟨y, hy, _, hstate⟩ := reconciled_of_decided r hx (Or.inl hacc)
      rw [look_runOrg, hy, Option.map_some, Option.some.injEq] at hx'
      split_ifs at hx' with hc
      · have hfp := Suggestions.fingerprint_of_look hx
        have hmem : x ∈ s.suggestions.rows := List.mem_of_find?_eq_some hx
        refine ⟨?_, hc.2.2⟩
        rw [← hfp]
        refine hcond hc.1 x hmem hacc ?_
        rw [hfp]
        exact hc.2.2
      · rw [← hx', hstate, hacc] at hverified
        nomatch hverified
    · intro fp heval hrec
      rw [isOpen_runOrg]
      exact isOpen_reconciled heval hrec

/-- **Findings are disposable and decisions are not just in the sequences whose runs have
evaluated what they mark verified**: a run that gets to its verification pass with an accepted
suggestion that it has not found must have carried the evaluation of its class out. -/
theorem disposable_iff_verifiesEvaluated (as : List Action) :
    StepsMeet step StepDisposable {} as ↔ StepsMeet step StepVerifiesEvaluated {} as := by
  refine stepsMeet_congr (I := Recorded) (fun s a hs => ?_) (fun s a hs _ => ?_) recorded_start
  · cases a with
    | runOrg r => exact disposable_iff hs r
    | decide now id userID state note => exact Iff.rfl
  · cases a with
    | runOrg r => exact hs.runOrg r
    | decide now id userID state note => exact hs.decide now id userID state note

/-! A metric that nobody reads. -/

private def unread : Fingerprint := ⟨.t1, "metric|queue.depth"⟩

private def allWrites : Writes := { upserts := 10, close := true }

private def finding : Run where
  now := 100
  clickhouse := true
  ledger := .mature
  telemetry := some ⟨[{ fingerprint := unread, weight := 5000 }], by decide⟩
  sampled := true
  telemetryWrites := allWrites
  alerting := some ⟨[], by decide⟩
  alertingWrites := allWrites
  verifies := true

private def accepted : List Action := [.runOrg finding, .decide 150 0 (some 7) .accepted ""]

private theorem not_disposable_of {r : Run}
    (haccepted : (s.suggestions.look unread).any fun x => x.state = .accepted)
    (hverified : ((runOrg s.suggestions r).look unread).any fun x => x.state = .verified)
    (hnot : ¬ Evaluated r .t1) : ¬ Disposable s r (runOrg s.suggestions r) := by
  intro h
  have ⟨x, hx, hacc⟩ := (Option.any_eq_true _ _).1 haccepted
  have ⟨x', hx', hver⟩ := (Option.any_eq_true _ _).1 hverified
  exact hnot (h.verified unread x x' hx (of_decide_eq_true hacc) hx' (of_decide_eq_true hver)).1

/-- The accepted suggestion is marked verified by a run whose supply query fails, by one whose
ledger is too young, and by one that has no connection. -/
theorem not_disposable :
    ¬ StepsMeet step StepDisposable {} (accepted ++ [.runOrg { finding with telemetry := none }]) ∧
    ¬ StepsMeet step StepDisposable {} (accepted ++ [.runOrg { finding with ledger := .young }]) ∧
    ¬ StepsMeet step StepDisposable {}
      (accepted ++ [.runOrg { finding with clickhouse := false }]) := by
  refine ⟨fun h => ?_, fun h => ?_, fun h => ?_⟩ <;>
    exact not_disposable_of (by decide +kernel) (by decide +kernel) (by decide +kernel) h.2.2.1

end Sluicio.Advisor
