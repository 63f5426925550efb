import Sluicio.Audit.Chain
import Sluicio.Lib.Run

/-!
# Recording, pruning and verifying at the same time

A call of `Record` stamps its time when it comes in and takes its organisation's lock
later; `Prune` first lists the organisations that have old entries and then prunes them
one by one; `Verify` reads the anchor and the rows in two queries.  Everything else may
happen in between.

Pruning goes by time and the chain by id, so the times of an organisation's rows have to
be in the order of their ids where a cutoff falls.
-/

namespace Sluicio.Audit

open Lib HashChain

variable (p : Platform)

/-- The tables, the calls in flight, and what the calls of `Verify` reported. -/
structure State where
  tables : Tables p
  /-- Calls of `Record` that have their time and wait for the lock. -/
  recording : List (Entry p × Int)
  /-- Calls of `Prune`: the cutoff and the organisations still to prune. -/
  pruning : List (Int × List UUID)
  /-- Calls of `Verify` that have read the anchor: the organisation and the seed. -/
  verifying : List (UUID × String)
  reports : List (UUID × VerifyResult)

inductive Action where
  /-- `Record` is called, and its clock shows the time. -/
  | stamp (e : Entry p) (now : Int)
  | append (i : Nat)
  /-- `Prune` is called and lists the organisations. -/
  | listOrgs (cutoff : Int)
  /-- The next transaction of the `Prune` in this place. -/
  | pruneOrg (i : Nat)
  /-- `Verify` is called and reads the anchor. -/
  | readAnchor (orgID : UUID)
  /-- The `Verify` in this place reads the rows and walks them. -/
  | readRows (i : Nat)

variable {p}

def step (s : State p) : Action p → State p
  | .stamp e now => { s with recording := s.recording ++ [(e, now)] }
  | .append i =>
    match s.recording[i]? with
    | some (e, now) =>
      { s with tables := s.tables.record e now, recording := s.recording.eraseIdx i }
    | none => s
  | .listOrgs cutoff =>
    let orgs := ((s.tables.auditLog.filter (·.occurredAt < cutoff)).map (·.organizationID)).dedup
    { s with pruning := s.pruning ++ [(cutoff, orgs)] }
  | .pruneOrg i =>
    match s.pruning[i]? with
    | some (cutoff, org :: orgs) =>
      { s with
        tables := s.tables.pruneOrg org cutoff
        pruning := s.pruning.set i (cutoff, orgs) }
    | _ => s
  | .readAnchor orgID => { s with verifying := s.verifying ++ [(orgID, s.tables.seed orgID)] }
  | .readRows i =>
    match s.verifying[i]? with
    | some (orgID, prev) =>
      { s with
        verifying := s.verifying.eraseIdx i
        reports := s.reports ++
          [(orgID, verifyRows p orgID prev .intact (s.tables.orgRows orgID))] }
    | none => s

/-- A log from before the chain: no row has a hash, and nothing is in flight. -/
structure State.Fresh (s : State p) : Prop where
  unhashed : ∀ r ∈ s.tables.auditLog, r.entryHash = ""
  unpruned : ∀ org, s.tables.anchor org = none
  unverified : s.reports = []

/-! ## When nothing goes wrong -/

/-- Of the rows of an organisation a cutoff takes the oldest ids: before a hashed row that
goes, none stays. -/
def OldestFirst (rows : List (Row p)) (cutoff : Int) : Prop :=
  rows.Pairwise fun a b => b.entryHash ≠ "" → b.occurredAt < cutoff → a.occurredAt < cutoff

/-- The metadata of a recorded entry comes back out of JSONB, a cutoff takes the oldest ids,
and between the two reads of `Verify` the anchor stays what it was, unless the walk does
not start at a hashed row. -/
def Undisturbed (s : State p) : Action p → Prop
  | .append i => ∀ call ∈ s.recording[i]?, SurvivesJSONB p call.1.metadata
  | .pruneOrg i => ∀ call ∈ s.pruning[i]?, ∀ org ∈ call.2.head?,
      OldestFirst (s.tables.orgRows org) call.1
  | .readRows i => ∀ call ∈ s.verifying[i]?, call.2 = s.tables.seed call.1 ∨
      ∀ r ∈ (s.tables.orgRows call.1).head?, r.entryHash = ""
  | _ => True

instance [DecidableEq p.Float] (metadata : List (String × Json p.Float)) :
    Decidable (SurvivesJSONB p metadata) :=
  inferInstanceAs (Decidable (∀ x ∈ Json.memberNumbers metadata,
    p.parseFloat (p.numeric x) = some x))

instance (rows : List (Row p)) (cutoff : Int) : Decidable (OldestFirst rows cutoff) :=
  inferInstanceAs (Decidable (rows.Pairwise fun a b =>
    b.entryHash ≠ "" → b.occurredAt < cutoff → a.occurredAt < cutoff))

instance Undisturbed.decidable [DecidableEq p.Float] (s : State p) :
    ∀ a : Action p, Decidable (Undisturbed s a)
  | .append i => inferInstanceAs (Decidable (∀ call ∈ s.recording[i]?,
      SurvivesJSONB p call.1.metadata))
  | .pruneOrg i => inferInstanceAs (Decidable (∀ call ∈ s.pruning[i]?, ∀ org ∈ call.2.head?,
      OldestFirst (s.tables.orgRows org) call.1))
  | .readRows i => inferInstanceAs (Decidable (∀ call ∈ s.verifying[i]?,
      call.2 = s.tables.seed call.1 ∨ ∀ r ∈ (s.tables.orgRows call.1).head?, r.entryHash = ""))
  | .stamp _ _ | .listOrgs _ | .readAnchor _ => isTrue trivial

/-- Hashed rows come behind the others, and the rows are linked from the anchor. -/
structure Intact (t : Tables p) (org : UUID) : Prop where
  legacyFirst : (t.orgRows org).Pairwise fun a b => a.entryHash ≠ "" → b.entryHash ≠ ""
  linked : (chain p org).Linked (t.seed org) (t.orgRows org)

variable {cutoff : Int} {rows : List (Row p)} {org : UUID}

theorem intact_record {t : Tables p} {e : Entry p} {now : Int} (hmeta : SurvivesJSONB p e.metadata)
    (h : Intact t org) : Intact (t.record e now) org := by
  by_cases horg : e.orgID = org
  · subst horg
    have hhash : ∀ id prev, (e.row p id prev now).entryHash ≠ "" := by
      intro id prev
      exact chainHash_ne_empty p _
    constructor
    · rw [t.record_orgRows, List.pairwise_append]
      refine ⟨h.legacyFirst, List.pairwise_singleton _ _, ?_⟩
      intro a _ b hb _
      rw [List.mem_singleton.mp hb]
      exact hhash _ _
    · rw [t.record_orgRows, t.record_seed, linked_append]
      refine ⟨h.linked, ?_, trivial⟩
      -- the row was hashed over the canonical metadata, and that is what the walk derives
      have hcontent : ∀ id prev,
          (e.row p id prev now).content p e.orgID = e.content p prev now := by
        intro id prev
        show Content.mk _ _ _ _ _ _ _ _ (canonicalPayload p (storedPayload p e.metadata)) _ _ = _
        rw [canonicalPayload_storedPayload p hmeta]
        rfl
      refine Or.inr ⟨rfl, ?_⟩
      show chainHash p ((e.row p _ _ now).content p e.orgID) = _
      rw [hcontent]
      rfl
  · constructor
    · rw [t.record_orgRows_of_ne e now horg]
      exact h.legacyFirst
    · rw [t.record_orgRows_of_ne e now horg, t.record_seed]
      exact h.linked

private theorem exists_last {α : Type} (q : α → Bool) {l : List α} (h : l.filter q ≠ []) :
    ∃ pre x post, l = pre ++ x :: post ∧ q x ∧ ∀ y ∈ post, ¬ q y := by
  induction l using List.reverseRecOn with
  | nil => exact absurd rfl h
  | append_singleton l y ih =>
    by_cases hy : q y
    · exact ⟨l, y, [], rfl, hy, by simp⟩
    have hl : l.filter q ≠ [] := by simpa [hy] using h
    obtain ⟨pre, x, post, hsplit, hx, hpost⟩ := ih hl
    refine ⟨pre, x, post ++ [y], by simp [hsplit], hx, ?_⟩
    intro z hz
    rcases List.mem_append.mp hz with hz | hz
    · exact hpost z hz
    · rw [List.mem_singleton.mp hz]
      exact hy

theorem keep_all (h : rows.filter (·.occurredAt < cutoff) = []) :
    rows.filter (¬ ·.occurredAt < cutoff) = rows := by
  rw [List.filter_eq_nil_iff] at h
  rw [List.filter_eq_self]
  simpa using h

/-- Where some rows go, the newest of them leaves its hash, the rows behind it stay, and if
it is hashed none before it does. -/
theorem prune_split (org : UUID) (h : rows.filter (·.occurredAt < cutoff) ≠ [])
    (hold : OldestFirst rows cutoff) :
    ∃ pre d post, rows = pre ++ d :: post ∧
      (∀ seed, (chain p org).tip seed (rows.filter (·.occurredAt < cutoff)) = d.entryHash) ∧
      rows.filter (¬ ·.occurredAt < cutoff) = pre.filter (¬ ·.occurredAt < cutoff) ++ post ∧
      (d.entryHash ≠ "" → pre.filter (¬ ·.occurredAt < cutoff) = []) := by
  obtain ⟨pre, d, post, rfl, hd, hpost⟩ := exists_last (fun r : Row p => r.occurredAt < cutoff) h
  have hdold : d.occurredAt < cutoff := by simpa using hd
  have hpostold : post.filter (·.occurredAt < cutoff) = [] := by
    rw [List.filter_eq_nil_iff]
    simpa using hpost
  refine ⟨pre, d, post, rfl, ?_, ?_, ?_⟩
  · intro seed
    rw [List.filter_append, List.filter_cons, if_pos hd, hpostold, tip_concat]
    rfl
  · rw [List.filter_append, List.filter_cons_of_neg (by simpa using hdold), keep_all hpostold]
  · intro hdhash
    rw [List.filter_eq_nil_iff]
    intro r hr
    have hrold := (List.pairwise_append.mp hold).2.2 r hr d List.mem_cons_self hdhash hdold
    simpa using hrold

theorem linked_prune {seed : String}
    (hlegacy : rows.Pairwise fun a b => a.entryHash ≠ "" → b.entryHash ≠ "")
    (hlinked : (chain p org).Linked seed rows) (hold : OldestFirst rows cutoff) :
    (chain p org).Linked ((chain p org).tip seed (rows.filter (·.occurredAt < cutoff)))
      (rows.filter (¬ ·.occurredAt < cutoff)) := by
  by_cases hnone : rows.filter (·.occurredAt < cutoff) = []
  · rw [hnone, keep_all hnone]
    exact hlinked
  obtain ⟨pre, d, post, hsplit, htip, hkept, hgone⟩ := prune_split org hnone hold
  rw [htip, hkept]
  rw [hsplit, linked_append] at hlinked
  have htail : (chain p org).Linked d.entryHash post := hlinked.2.2
  by_cases hdhash : d.entryHash = ""
  · -- nothing before an unhashed row is hashed, and the walk starts again behind it
    have hblank : ∀ r ∈ pre.filter (¬ ·.occurredAt < cutoff), r.entryHash = "" := by
      intro r hr
      by_contra hne
      rw [hsplit] at hlegacy
      exact (List.pairwise_append.mp hlegacy).2.2 r (List.mem_filter.mp hr).1 d
        List.mem_cons_self hne hdhash
    rw [linked_append]
    refine ⟨linked_of_blank _ hblank, ?_⟩
    by_cases hempty : pre.filter (¬ ·.occurredAt < cutoff) = []
    · rw [hempty]
      exact htail
    · rw [tip_of_blank _ hblank hempty]
      rw [hdhash] at htail
      exact htail
  · rw [hgone hdhash]
    exact htail

theorem intact_pruneOrg {t : Tables p} (hold : OldestFirst (t.orgRows org) cutoff) {o : UUID}
    (h : Intact t o) : Intact (t.pruneOrg org cutoff) o := by
  by_cases ho : o = org
  · subst ho
    constructor
    · rw [t.pruneOrg_orgRows, if_pos rfl]
      exact h.legacyFirst.filter _
    · rw [t.pruneOrg_orgRows, if_pos rfl, t.pruneOrg_seed]
      exact linked_prune h.legacyFirst h.linked hold
  constructor
  · rw [t.pruneOrg_orgRows, if_neg ho]
    exact h.legacyFirst
  · rw [t.pruneOrg_orgRows, if_neg ho, t.pruneOrg_seed_of_ne org cutoff ho]
    exact h.linked

/-- What the run keeps: every organisation's chain is intact, and so is every report. -/
def State.Sound (s : State p) : Prop :=
  (∀ org, Intact s.tables org) ∧ ∀ rep ∈ s.reports, rep.2.ok

theorem State.Fresh.sound {s : State p} (h : s.Fresh) : s.Sound := by
  have hblank : ∀ org, ∀ r ∈ s.tables.orgRows org, r.entryHash = "" := by
    intro org r hr
    exact h.unhashed r (List.mem_of_mem_filter hr)
  constructor
  · intro org
    constructor
    · apply List.Pairwise.imp_of_mem _ (List.pairwise_of_forall fun _ _ => trivial)
      intro a b ha _ _ hne
      exact absurd (hblank org a ha) hne
    · exact linked_of_blank _ (hblank org)
  · intro rep hrep
    rw [h.unverified] at hrep
    exact absurd hrep List.not_mem_nil

theorem sound_step {s : State p} {a : Action p} (h : s.Sound) (ha : Undisturbed s a) :
    (step s a).Sound := by
  cases a with
  | stamp e now => exact h
  | listOrgs cutoff => exact h
  | readAnchor orgID => exact h
  | append i =>
    rw [step]
    split
    next e now hcall =>
      have hmeta : SurvivesJSONB p e.metadata := ha (e, now) hcall
      exact ⟨fun org => intact_record hmeta (h.1 org), h.2⟩
    next => exact h
  | pruneOrg i =>
    rw [step]
    split
    next cutoff org orgs hcall =>
      have hold : OldestFirst (s.tables.orgRows org) cutoff :=
        ha (cutoff, org :: orgs) hcall org rfl
      exact ⟨fun o => intact_pruneOrg hold (h.1 o), h.2⟩
    next => exact h
  | readRows i =>
    rw [step]
    split
    next orgID prev hcall =>
      have hlinked : (chain p orgID).Linked prev (s.tables.orgRows orgID) := by
        rcases ha (orgID, prev) hcall with hseed | hhead
        · have hprev : prev = s.tables.seed orgID := hseed
          rw [hprev]
          exact (h.1 orgID).linked
        · exact linked_of_head_blank _ hhead (h.1 orgID).linked
      refine ⟨h.1, ?_⟩
      intro rep hrep
      rcases List.mem_append.mp hrep with hrep | hrep
      · exact h.2 rep hrep
      · rw [List.mem_singleton.mp hrep]
        exact (verifyRows_ok p orgID prev .intact _).mpr ⟨rfl, hlinked⟩
    next => exact h

/-- In a run in which the metadata survive, cutoffs take the oldest ids and no pruning comes
between the reads of a `Verify`, every `Verify` reports the chain intact. -/
theorem verify_reports_intact (s : State p) (hs : s.Fresh) (as : List (Action p))
    (hrun : StepsMeet step Undisturbed s as) : ∀ rep ∈ (run step s as).reports, rep.2.ok :=
  (hrun.invariant (fun _ _ h ha => sound_step h ha) hs.sound).2

/-! ## Examples -/

private def plainPlatform : Platform where
  Float := Int
  Numeric := Int
  formatFloat n := (toString n).toList
  numeric := id
  parseFloat := some
  sha256 text := [UInt8.ofNat (text.foldl (fun n c => (31 * n + c.toNat) % 251) 7)]
  sha256_ne_nil _ := List.cons_ne_nil _ _

private instance : DecidableEq plainPlatform.Float := inferInstanceAs (DecidableEq Int)

private def emptyLog : State plainPlatform := ⟨⟨[], fun _ => none, 1⟩, [], [], [], []⟩

private theorem emptyLog_fresh : emptyLog.Fresh :=
  ⟨fun _ hr => absurd hr List.not_mem_nil, fun _ => rfl, rfl⟩

private def login : Entry plainPlatform :=
  { orgID := 7, actorUserID := some 3, actorName := "Ada", actorEmail := "ada@example.org",
    action := "auth.login", targetType := "user", targetID := "3", metadata := [],
    ip := "10.0.0.1" }

/-- Two logins, the first of which is pruned before the chain is verified. -/
theorem verify_reports_intact_logins :
    List.Forall (fun rep => rep.2.ok = true) (run step emptyLog [.stamp login 5,
      .stamp login 10, .append 0, .append 0, .listOrgs 7, .pruneOrg 0, .readAnchor 7,
      .readRows 0]).reports :=
  List.forall_iff_forall_mem.mpr
    (verify_reports_intact emptyLog emptyLog_fresh _ (by decide +kernel))

/-- The call that came in first gets the lock last.  Its row is the newest by id and the
oldest by time; pruning takes it alone and makes it the anchor, and the row that stays does
not link to it. -/
theorem late_record_breaks_chain : emptyLog.Fresh ∧
    (run step emptyLog [.stamp login 5, .stamp login 10, .append 1, .append 0,
      .listOrgs 7, .pruneOrg 0, .readAnchor 7, .readRows 0]).reports =
        [(7, ⟨false, 0, 0, 1, "chain link mismatch"⟩)] :=
  ⟨emptyLog_fresh, by decide +kernel⟩

/-- Pruning between the two reads of `Verify` breaks the walk too. -/
example : (run step emptyLog [.stamp login 5, .stamp login 10, .append 0, .append 0,
    .readAnchor 7, .listOrgs 7, .pruneOrg 0, .readRows 0]).reports =
      [(7, ⟨false, 0, 0, 2, "chain link mismatch"⟩)] := by decide +kernel

end Sluicio.Audit
