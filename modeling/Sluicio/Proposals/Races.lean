import Sluicio.Lib.Run
import Sluicio.Proposals.Decisions

/-!
# Races between decisions

The guard on the state of a proposal stands in `Decide`, behind the write of the rule; the
drift check stands before the read that is written back; and no statement compares the
expiry with the clock but the sweep's.  In a run in which no such race is lost the decisions
are what they should be.
-/

namespace Sluicio.Proposals

open Lib Handler
open Alerting (Duration Time)
open Alerting.Store
open Tracecompletion (trimSpace)

/-- An approval of the proposal has written its rule and has yet to call `Decide`. -/
def Handler.awaits (h : Handler) (id : UUID) : Bool :=
  match h with
  | .deciding rq p => rq.decision = .approved && p.id = id
  | _ => false

def State.awaiting (s : State) (id : UUID) : Bool := s.handlers.any (·.awaits id)

/-- The changes of a proposal have been written just when it is approved, once no approval of
it is under way, and none is approved late. -/
structure Decided (s : State) : Prop where
  applied_iff : ∀ p ∈ s.world.inbox.rows, s.awaiting p.id = false →
    (p.id ∈ s.world.written ↔ p.state = .approved)
  inTime : ∀ p ∈ s.world.inbox.rows, p.state = .approved →
    ∃ t, p.decidedAt = some t ∧ t ≤ p.expiresAt

/-- Between two readings of a rule, a field reads otherwise only when a change names it and
the old value is the one the proposal was drafted on. -/
structure EditsKept (parseDuration : String → Option Duration) (changes : List Change)
    (before after : Reading) : Prop where
  fields : ∀ f, setting parseDuration after.rule f = setting parseDuration before.rule f ∨
    ∃ ch ∈ changes, ch.field = f ∧
      ∃ v, snapshot before.rule f = some v ∧ jsonEqual ch.before v
  rest : after.rest = before.rest

/-- The write of an approval that was not forced keeps what was edited since the proposal was
drafted. -/
def KeepsEdits (cell : Cell) (s : State) : Action → Prop
  | .proceed i fresh => ∀ rq p r, s.handlers[i]? = some (.edited rq p r) → rq.force = false →
    ∀ before, reading s.world.db rq.orgID p.targetID = some before →
    ∀ after, reading (step cell s (.proceed i fresh)).world.db rq.orgID p.targetID =
      some after → EditsKept cell.parseDuration p.changes before after
  | _ => True

/-! ## When nothing interferes -/

/-- An approval, not forced, of a proposal on the rule is between its drift check and its
write. -/
def Handler.midway (h : Handler) (orgID targetID : UUID) : Bool :=
  match h with
  | .checked rq p | .read rq p _ | .edited rq p _ =>
    !rq.force && rq.orgID = orgID && p.targetID = targetID
  | _ => false

/-- A write of the rules leaves what an approval has checked, or read, as it was, if the rule
is still there. -/
def Handler.Spared (h : Handler) (db db' : Database) : Prop :=
  match h with
  | .checked rq p => rq.force = false → ∀ row, db'.row? rq.orgID p.targetID = some row →
    checkDrift p.changes (snapshot (scanRule row)) = []
  | .read rq p row => rq.force = false → ∀ row', db'.row? rq.orgID p.targetID = some row' →
    row' = row
  | .edited rq p _ => rq.force = false → ∀ row, db'.row? rq.orgID p.targetID = some row →
    db.row? rq.orgID p.targetID = some row ∧
      db'.channelIDsFor p.targetID = db.channelIDsFor p.targetID
  | _ => True

/-- The next statement of a handler meets no other that it races with.  An approval writes
while its proposal is open or already approved, while no other approval is midway on the
rule, and over a row that rewriting keeps; a proposal is closed otherwise than by its
approval when no approval of it has written; an approval is recorded before the expiry, by a
user. -/
def Handler.Unraced (h : Handler) (cell : Cell) (s : State) (i : Nat) : Prop :=
  match h with
  | .drafted d => ∀ p ∈ s.world.inbox.rows, Inbox.competes d p →
    s.awaiting p.id = false
  | .edited rq p _ =>
    (∀ q ∈ s.world.inbox.rows, q.id = p.id → q.state = .pending ∨ q.state = .approved) ∧
    (∀ j h, j ≠ i → s.handlers[j]? = some h → h.midway rq.orgID p.targetID = false) ∧
    (rq.force = false → ∀ x, reading s.world.db rq.orgID p.targetID = some x → Kept x)
  | .deciding rq p => ∀ q ∈ s.world.inbox.rows, q.id = p.id → q.pending →
    (rq.decision = .approved → cell.users rq.decidedBy ∧ s.world.now ≤ p.expiresAt) ∧
    (rq.decision = .rejected → s.awaiting p.id = false)
  | _ => True

/-- No race is lost in this step. -/
def Undisturbed (cell : Cell) (s : State) : Action → Prop
  | .edit db => ∀ h ∈ s.handlers, h.Spared s.world.db db
  | .sweep => ∀ p ∈ s.world.inbox.rows, Inbox.due s.world.now p →
    s.awaiting p.id = false
  | .proceed i _ => ∀ h, s.handlers[i]? = some h → h.Unraced cell s i
  | _ => True

/-- Before the first proposal. -/
structure State.Initial (s : State) : Prop where
  handlers : s.handlers = []
  rows : s.world.inbox.rows = []
  written : s.world.written = []

/-! ## What a handler knows -/

/-- The row of the proposal that a handler has loaded. -/
def Known (w : World) (rq : Request) (p : Proposal) : Prop :=
  p.orgID = rq.orgID ∧ ∃ q ∈ w.inbox.rows, Inbox.SameProposal p q

/-- Only an approval reads and writes the rule. -/
def Approving (w : World) (rq : Request) (p : Proposal) : Prop :=
  rq.decision = .approved ∧ Known w rq p

/-- What holds of a handler in every state. -/
def Handler.Sound (h : Handler) (cell : Cell) (w : World) : Prop :=
  match h with
  | .loaded rq p => Approving w rq p
  | .checked rq p => Approving w rq p ∧
    (rq.force = false → ∀ row, w.db.row? rq.orgID p.targetID = some row →
      checkDrift p.changes (snapshot (scanRule row)) = [])
  | .read rq p row => Approving w rq p ∧ row.id = p.targetID ∧
    (rq.force = false → checkDrift p.changes (snapshot (scanRule row)) = [] ∧
      ∀ row', w.db.row? rq.orgID p.targetID = some row' → row' = row)
  | .edited rq p r => Approving w rq p ∧ r.id = p.targetID ∧
    (rq.force = false → ∀ row, w.db.row? rq.orgID p.targetID = some row →
      checkDrift p.changes (snapshot (scanRule row)) = [] ∧
      editAll cell.parseDuration
        { scanRule row with channelIDs := w.db.channelIDsFor p.targetID } p.changes = .ok r)
  | .deciding rq p => Known w rq p ∧ (rq.decision = .approved → p.id ∈ w.written)
  | _ => True

/-- A world that goes on from another. -/
structure World.Extends (w w' : World) : Prop where
  rows : ∀ q ∈ w.inbox.rows, ∃ q' ∈ w'.inbox.rows, Inbox.SameProposal q q'
  written : ∀ id ∈ w.written, id ∈ w'.written

variable {rq : Request} {p : Proposal} {w w' : World}

theorem Inbox.SameProposal.trans {q r : Proposal} (h : Inbox.SameProposal p q)
    (h' : Inbox.SameProposal q r) : Inbox.SameProposal p r :=
  ⟨h'.draft.trans h.draft, h'.id.trans h.id, h'.expiresAt.trans h.expiresAt⟩

theorem Known.mono (hw : w.Extends w') (h : Known w rq p) : Known w' rq p := by
  obtain ⟨horg, q, hq, hsame⟩ := h
  obtain ⟨q', hq', hsame'⟩ := hw.rows q hq
  exact ⟨horg, q', hq', hsame.trans hsame'⟩

theorem Approving.mono (hw : w.Extends w') (h : Approving w rq p) : Approving w' rq p :=
  ⟨h.1, h.2.mono hw⟩

theorem Handler.Sound.mono {cell : Cell} (hw : w.Extends w') {h : Handler}
    (hdb : w'.db = w.db ∨ h.Spared w.db w'.db) (hs : h.Sound cell w) : h.Sound cell w' := by
  cases h with
  | drafted d => trivial
  | loaded rq p => exact Approving.mono hw hs
  | checked rq p =>
    have hknown := Approving.mono hw hs.1
    rcases hdb with hdb | hspared
    · refine ⟨hknown, ?_⟩
      rw [hdb]
      exact hs.2
    · exact ⟨hknown, hspared⟩
  | read rq p row =>
    obtain ⟨hknown, hid, hread⟩ := hs
    refine ⟨hknown.mono hw, hid, fun hforce => ⟨(hread hforce).1, ?_⟩⟩
    rcases hdb with hdb | hspared
    · rw [hdb]
      exact (hread hforce).2
    · exact hspared hforce
  | edited rq p r =>
    obtain ⟨hknown, hid, hedit⟩ := hs
    refine ⟨hknown.mono hw, hid, ?_⟩
    rcases hdb with hdb | hspared
    · rw [hdb]
      exact hedit
    · intro hforce row hrow
      obtain ⟨hrow', hchannels⟩ := hspared hforce row hrow
      rw [hchannels]
      exact hedit hforce row hrow'
  | deciding rq p =>
    exact ⟨Known.mono hw hs.1, fun happroved => hw.written _ (hs.2 happroved)⟩
  | answered a => trivial

theorem Handler.Sound.spared {cell : Cell} {db' : Database} {h : Handler} (hs : h.Sound cell w)
    (hsame : ∀ orgID id, h.midway orgID id → ∀ row, db'.row? orgID id = some row →
      w.db.row? orgID id = some row ∧ db'.channelIDsFor id = w.db.channelIDsFor id) :
    h.Spared w.db db' := by
  cases h with
  | drafted d => trivial
  | loaded rq p => trivial
  | checked rq p =>
    intro hforce row hrow
    have hmidway : (checked rq p).midway rq.orgID p.targetID := by
      simp [midway, hforce]
    exact hs.2 hforce row (hsame _ _ hmidway row hrow).1
  | read rq p row =>
    intro hforce row' hrow
    have hmidway : (Handler.read rq p row).midway rq.orgID p.targetID := by
      simp [midway, hforce]
    exact (hs.2.2 hforce).2 row' (hsame _ _ hmidway row' hrow).1
  | edited rq p r =>
    intro hforce row hrow
    have hmidway : (edited rq p r).midway rq.orgID p.targetID := by
      simp [midway, hforce]
    exact hsame _ _ hmidway row hrow
  | deciding rq p => trivial
  | answered a => trivial

/-! ## One statement -/

section Statement

variable {cell : Cell} {fresh : UUID} {w : World} {h : Handler}

theorem World.Extends.refl (w : World) : w.Extends w :=
  ⟨fun q hq => ⟨q, hq, Inbox.SameProposal.refl q⟩, fun _ hid => hid⟩

theorem advance_extends (cell : Cell) (fresh : UUID) (w : World) (h : Handler) :
    w.Extends (advance cell fresh w h).1 := by
  cases h with
  | drafted d =>
    simp only [advance]
    split
    · exact World.Extends.refl w
    · next inbox hcreate =>
      refine ⟨?_, fun _ hid => hid⟩
      intro q hq
      obtain ⟨q', hq', hsame⟩ := Inbox.mem_supersede d w.now hq
      have hrows := (Inbox.create_eq_some hcreate).2
      exact ⟨q', by simp [hrows, hq'], hsame⟩
  | loaded rq p =>
    simp only [advance]
    split
    · exact World.Extends.refl w
    · split_ifs <;> exact World.Extends.refl w
  | checked rq p =>
    simp only [advance]
    split <;> exact World.Extends.refl w
  | read rq p row =>
    simp only [advance]
    split <;> exact World.Extends.refl w
  | edited rq p r =>
    simp only [advance]
    split
    · exact World.Extends.refl w
    · exact ⟨fun q hq => ⟨q, hq, Inbox.SameProposal.refl q⟩,
        fun _ hid => List.mem_cons_of_mem _ hid⟩
  | deciding rq p =>
    simp only [advance]
    split
    · exact World.Extends.refl w
    · exact World.Extends.refl w
    · next inbox hdecide => exact ⟨fun q hq => Inbox.mem_decide hdecide hq, fun _ hid => hid⟩
  | answered a => exact World.Extends.refl w

theorem advance_sound (hs : h.Sound cell w) :
    (advance cell fresh w h).2.Sound cell (advance cell fresh w h).1 := by
  cases h with
  | drafted d =>
    simp only [advance]
    split <;> trivial
  | loaded rq p =>
    simp only [advance]
    split
    · trivial
    · next row hrow =>
      split_ifs with hdrift
      · trivial
      · refine ⟨hs, ?_⟩
        intro hforce row' hrow'
        have heq : row = row' := by simpa [hrow] using hrow'
        have hnot : ¬ checkDrift p.changes (snapshot (scanRule row)) ≠ [] :=
          fun hne => hdrift ⟨hne, hforce⟩
        rw [← heq]
        simpa using hnot
  | checked rq p =>
    simp only [advance]
    split
    · trivial
    · next row hrow =>
      obtain ⟨_, _, hid⟩ := Database.row?_eq_some.1 hrow
      refine ⟨hs.1, hid, fun hforce => ⟨hs.2 hforce row hrow, ?_⟩⟩
      intro row' hrow'
      simpa [hrow, eq_comm] using hrow'
  | read rq p row =>
    obtain ⟨hknown, hid, hread⟩ := hs
    simp only [advance]
    split
    · trivial
    · next r hedit =>
      have hrid : r.id = p.targetID := by
        have hsame := congrArg AlertRule.id (retuned_of_editAll hedit)
        have hcolumn := congrArg AlertRule.id (scanRule_noSpec row)
        exact hsame.trans (hcolumn.trans hid)
      refine ⟨hknown, hrid, ?_⟩
      intro hforce row' hrow'
      obtain ⟨hdrift, hunique⟩ := hread hforce
      rw [hunique row' hrow']
      exact ⟨hdrift, hedit⟩
  | edited rq p r =>
    obtain ⟨⟨_, hknown⟩, _, _⟩ := hs
    simp only [advance]
    split
    · trivial
    · exact ⟨hknown, fun _ => List.mem_cons_self⟩
  | deciding rq p =>
    simp only [advance]
    split <;> trivial
  | answered a => trivial

theorem advance_spares {other : Handler} (hs : h.Sound cell w) (ho : other.Sound cell w)
    (hmidway : ∀ rq p r, h = .edited rq p r → other.midway rq.orgID p.targetID = false) :
    (advance cell fresh w h).1.db = w.db ∨ other.Spared w.db (advance cell fresh w h).1.db := by
  cases h with
  | drafted d =>
    left
    simp only [advance]
    split <;> rfl
  | loaded rq p =>
    left
    simp only [advance]
    split
    · rfl
    · split_ifs <;> rfl
  | checked rq p =>
    left
    simp only [advance]
    split <;> rfl
  | read rq p row =>
    left
    simp only [advance]
    split <;> rfl
  | edited rq p r =>
    have hnot := hmidway rq p r rfl
    obtain ⟨_, hid, _⟩ := hs
    simp only [advance]
    split
    · exact Or.inl rfl
    · next db' hupdate =>
      right
      apply ho.spared
      intro orgID id hmid row hrow
      refine Database.row?_updateRule_other hupdate ?_ hrow
      rintro ⟨rfl, rfl⟩
      rw [hid, hnot] at hmid
      cases hmid
  | deciding rq p =>
    left
    simp only [advance]
    split <;> rfl
  | answered a => exact Or.inl rfl

end Statement

/-! ## What the states of the proposals say -/

/-- What the table says about the writes of the approvals, with `awaiting` those that have
yet to be recorded. -/
structure Settled (w : World) (awaiting : UUID → Bool) : Prop where
  filed : ∀ id ∈ w.written, ∃ q ∈ w.inbox.rows, q.id = id
  applied : ∀ q ∈ w.inbox.rows, q.id ∈ w.written →
    q.state = .approved ∨ q.state = .pending ∧ awaiting q.id
  approved : ∀ q ∈ w.inbox.rows, q.state = .approved → q.id ∈ w.written ∧
    ∃ t, q.decidedAt = some t ∧ t ≤ q.expiresAt

namespace Settled

variable {w : World} {awaiting awaiting' : UUID → Bool}

theorem weaken (hs : Settled w awaiting)
    (hmore : ∀ id, awaiting id → awaiting' id) : Settled w awaiting' where
  filed := hs.filed
  applied q hq hid := (hs.applied q hq hid).imp_right fun h => ⟨h.1, hmore _ h.2⟩
  approved := hs.approved

theorem drop (hs : Settled w awaiting) {id : UUID}
    (hclosed : ∀ q ∈ w.inbox.rows, q.id = id → q.pending = false)
    (hmore : ∀ id', id' ≠ id → awaiting id' → awaiting' id') :
    Settled w awaiting' where
  filed := hs.filed
  applied q hq hid := by
    rcases hs.applied q hq hid with happroved | ⟨hpending, hawaits⟩
    · exact Or.inl happroved
    · have hne : q.id ≠ id := by
        intro heq
        have hnot := hclosed q hq heq
        simp [Proposal.pending, hpending] at hnot
      exact Or.inr ⟨hpending, hmore q.id hne hawaits⟩
  approved := hs.approved

theorem close (hs : Settled w awaiting) (hit : Proposal → Bool) {f : Proposal → Proposal}
    (hf : ∀ q, (f q).id = q.id) {state : ProposalState} (hstate : ∀ q, (f q).state = state)
    (hne : state ≠ .approved) (hpending : ∀ q, hit q → q.pending)
    (hfree : ∀ q ∈ w.inbox.rows, hit q → awaiting q.id = false) :
    Settled { w with inbox := w.inbox.update hit f hf } awaiting where
  filed id hid := by
    obtain ⟨q, hq, rfl⟩ := hs.filed id hid
    cases hhit : hit q with
    | true => exact ⟨f q, mem_updateWhere_of hq hhit, hf q⟩
    | false => exact ⟨q, mem_updateWhere_of_not hq hhit, rfl⟩
  applied q hq hid := by
    obtain ⟨q₀, hq₀, ⟨hhit, rfl⟩ | ⟨_, rfl⟩⟩ := mem_updateWhere.1 hq
    · exfalso
      have hpend : q₀.state = .pending := by simpa [Proposal.pending] using hpending q₀ hhit
      rw [hf] at hid
      rcases hs.applied q₀ hq₀ hid with happroved | ⟨_, hawaits⟩
      · rw [hpend] at happroved
        cases happroved
      · rw [hfree q₀ hq₀ hhit] at hawaits
        cases hawaits
    · exact hs.applied q hq₀ hid
  approved q hq happroved := by
    obtain ⟨q₀, hq₀, ⟨_, rfl⟩ | ⟨_, rfl⟩⟩ := mem_updateWhere.1 hq
    · rw [hstate] at happroved
      exact absurd happroved hne
    · exact hs.approved q hq₀ happroved

theorem file (hs : Settled w awaiting) {t' : Inbox} {q : Proposal}
    (hrows : t'.rows = w.inbox.rows ++ [q]) (hfresh : ∀ q' ∈ w.inbox.rows, q'.id ≠ q.id)
    (hpending : q.state = .pending) : Settled { w with inbox := t' } awaiting where
  filed id hid := by
    obtain ⟨q', hq', hid'⟩ := hs.filed id hid
    exact ⟨q', by simp [hrows, hq'], hid'⟩
  applied q' hq' hid := by
    simp only [hrows, List.mem_append, List.mem_singleton] at hq'
    rcases hq' with hq' | rfl
    · exact hs.applied q' hq' hid
    · obtain ⟨q₀, hq₀, hid₀⟩ := hs.filed _ hid
      exact absurd hid₀ (hfresh q₀ hq₀)
  approved q' hq' happroved := by
    simp only [hrows, List.mem_append, List.mem_singleton] at hq'
    rcases hq' with hq' | rfl
    · exact hs.approved q' hq' happroved
    · rw [hpending] at happroved
      cases happroved

theorem write (hs : Settled w awaiting) {id : UUID} {db : Database}
    (hfiled : ∃ q ∈ w.inbox.rows, q.id = id)
    (hopen : ∀ q ∈ w.inbox.rows, q.id = id → q.state = .pending ∨ q.state = .approved)
    (hid : awaiting' id) (hmore : ∀ id, awaiting id → awaiting' id) :
    Settled { w with db := db, written := id :: w.written } awaiting' where
  filed id' hid' := by
    rcases List.mem_cons.1 hid' with rfl | hid'
    · exact hfiled
    · exact hs.filed id' hid'
  applied q hq hid' := by
    by_cases heq : q.id = id
    · rcases hopen q hq heq with hpending | happroved
      · exact Or.inr ⟨hpending, by rw [heq, hid]⟩
      · exact Or.inl happroved
    · have hold : q.id ∈ w.written := (List.mem_cons.1 hid').resolve_left heq
      exact (hs.weaken hmore).applied q hq hold
  approved q hq happroved := by
    obtain ⟨hid', htime⟩ := hs.approved q hq happroved
    exact ⟨List.mem_cons_of_mem _ hid', htime⟩

theorem record (hs : Settled w awaiting) {orgID id decidedBy : UUID} {note : String}
    (hwritten : id ∈ w.written) (hinTime : ∀ q ∈ w.inbox.rows, q.id = id → w.now ≤ q.expiresAt)
    (hmore : ∀ id', id' ≠ id → awaiting id' → awaiting' id')
    (hrow : ∀ q ∈ w.inbox.rows, q.id = id → q.orgID = orgID) :
    Settled { w with
      inbox := w.inbox.update (fun p => p.orgID = orgID && p.id = id && p.pending)
        (Inbox.decided decidedBy .approved note w.now) (fun _ => rfl) } awaiting' where
  filed id' hid' := by
    obtain ⟨q, hq, rfl⟩ := hs.filed id' hid'
    obtain ⟨q', hq', hsame⟩ := Inbox.mem_update_of_mem
      (p := fun p => p.orgID = orgID && p.id = id && p.pending)
      (Inbox.decided_same decidedBy .approved note w.now) hq
    exact ⟨q', hq', hsame.id⟩
  applied q hq hid' := by
    obtain ⟨q₀, hq₀, ⟨_, rfl⟩ | ⟨hmiss, rfl⟩⟩ := mem_updateWhere.1 hq
    · exact Or.inl rfl
    by_cases heq : q.id = id
    · -- the row was not pending any more
      have hnot : q.pending = false := by simpa [hrow q hq₀ heq, heq] using hmiss
      rcases hs.applied q hq₀ hid' with happroved | ⟨hpending, _⟩
      · exact Or.inl happroved
      · simp [Proposal.pending, hpending] at hnot
    · exact (hs.applied q hq₀ hid').imp_right fun h => ⟨h.1, hmore q.id heq h.2⟩
  approved q hq happroved := by
    obtain ⟨q₀, hq₀, ⟨hhit, rfl⟩ | ⟨_, rfl⟩⟩ := mem_updateWhere.1 hq
    · simp only [Bool.and_eq_true, decide_eq_true_eq] at hhit
      have hid : q₀.id = id := hhit.1.2
      exact ⟨hid ▸ hwritten, w.now, rfl, hinTime q₀ hq₀ hid⟩
    · exact hs.approved q hq₀ happroved

end Settled

section Handlers

variable {handlers : List Handler} {i : Nat} {h h' : Handler} {id : UUID}

theorem forall_mem_set {P : Handler → Prop} (hnew : P h')
    (hold : ∀ j g, j ≠ i → handlers[j]? = some g → P g) : ∀ g ∈ handlers.set i h', P g := by
  intro g hg
  obtain ⟨j, hj⟩ := List.mem_iff_getElem?.1 hg
  by_cases hij : i = j
  · subst hij
    rw [List.getElem?_set_self'] at hj
    cases hget : handlers[i]? with
    | none => simp [hget] at hj
    | some h₀ =>
      have heq : h' = g := by simpa [hget] using hj
      exact heq ▸ hnew
  · rw [List.getElem?_set_ne hij] at hj
    exact hold j g (Ne.symm hij) hj

theorem mem_set_self (hi : handlers[i]? = some h) : h' ∈ handlers.set i h' := by
  have hlt : i < handlers.length := (List.getElem?_eq_some_iff.1 hi).1
  exact List.mem_iff_getElem?.2 ⟨i, by simp [hlt]⟩

theorem awaits_set_self (hi : handlers[i]? = some h) (hawaits : h'.awaits id) :
    (handlers.set i h').any (·.awaits id) :=
  List.any_eq_true.2 ⟨h', mem_set_self hi, hawaits⟩

theorem awaits_set_other (hi : handlers[i]? = some h) (hnot : h.awaits id = false)
    (hawaits : handlers.any (·.awaits id)) : (handlers.set i h').any (·.awaits id) := by
  obtain ⟨g, hg, hgid⟩ := List.any_eq_true.1 hawaits
  obtain ⟨j, hj⟩ := List.mem_iff_getElem?.1 hg
  have hij : i ≠ j := by
    rintro rfl
    have heq : h = g := by simpa [hi] using hj
    rw [heq, hgid] at hnot
    cases hnot
  have hmem : g ∈ handlers.set i h' :=
    List.mem_iff_getElem?.2 ⟨j, by rw [List.getElem?_set_ne hij]; exact hj⟩
  exact List.any_eq_true.2 ⟨g, hmem, hgid⟩

end Handlers

/-- What holds in every state of a run. -/
structure Inv (cell : Cell) (s : State) : Prop where
  sound : ∀ h ∈ s.handlers, h.Sound cell s.world
  settled : Settled s.world s.awaiting

theorem inv_initial (cell : Cell) {s : State} (h : s.Initial) : Inv cell s where
  sound g hg := by simp [h.handlers] at hg
  settled := {
    filed := fun id hid => by simp [h.written] at hid
    applied := fun q hq _ => by simp [h.rows] at hq
    approved := fun q hq _ => by simp [h.rows] at hq }

theorem Known.rows (h : Known w rq p) :
    (∃ q ∈ w.inbox.rows, q.id = p.id) ∧ ∀ q ∈ w.inbox.rows, q.id = p.id →
      q.orgID = rq.orgID ∧ q.expiresAt = p.expiresAt := by
  obtain ⟨horg, q₀, hq₀, hsame⟩ := h
  refine ⟨⟨q₀, hq₀, hsame.id⟩, ?_⟩
  intro q hq hid
  have heq : q = q₀ := eq_of_key_eq w.inbox.key hq hq₀ (hid.trans hsame.id.symm)
  subst heq
  exact ⟨(congrArg Draft.orgID hsame.draft).trans horg, hsame.expiresAt⟩

section Step

variable {cell : Cell} {s : State} {fresh : UUID} {i : Nat}

theorem settled_drafted {d : Draft} (hs : Settled s.world s.awaiting)
    (hcond : (drafted d).Unraced cell s i) :
    Settled (advance cell fresh s.world (.drafted d)).1 s.awaiting := by
  simp only [advance]
  split
  · exact hs
  · next inbox hcreate =>
    obtain ⟨hfresh, hrows⟩ := Inbox.create_eq_some hcreate
    have hclosed := hs.close (Inbox.competes d)
      (fun q => (Inbox.closed_same .superseded s.world.now q).id) (fun _ => rfl) (by decide)
      (fun q hq => by
        simp only [Inbox.competes, Bool.and_eq_true] at hq
        exact hq.2)
      hcond
    have hfresh' : ∀ q ∈ (s.world.inbox.supersede d s.world.now).rows, q.id ≠ fresh := by
      intro q hq
      obtain ⟨q₀, hq₀, ⟨_, rfl⟩ | ⟨_, rfl⟩⟩ := mem_updateWhere.1 hq
      · exact hfresh q₀ hq₀
      · exact hfresh q hq₀
    exact hclosed.file hrows hfresh' rfl

theorem settled_rejected {rq : Request} {p : Proposal} (hs : Settled s.world s.awaiting)
    (hdecision : rq.decision = .rejected) (hcond : (deciding rq p).Unraced cell s i) :
    Settled (advance cell fresh s.world (.deciding rq p)).1 s.awaiting := by
  simp only [advance, hdecision]
  split
  · exact hs
  · exact hs
  · next inbox hdecide =>
    obtain ⟨p', _, _, _, rfl⟩ := Inbox.decide_eq_ok hdecide
    exact hs.close
      (fun p' => p'.orgID = rq.orgID && p'.id = p.id && p'.pending)
      (fun q => (Inbox.decided_same rq.decidedBy .rejected (trimSpace rq.note) s.world.now q).id)
      (fun _ => rfl) (by decide)
      (fun q hq => by
        simp only [Bool.and_eq_true] at hq
        exact hq.2)
      (fun q hq hhit => by
        simp only [Bool.and_eq_true, decide_eq_true_eq] at hhit
        rw [hhit.1.2]
        exact (hcond q hq hhit.1.2 hhit.2).2 hdecision)

theorem settled_approved {rq : Request} {p : Proposal} (hs : Settled s.world s.awaiting)
    (hsound : (deciding rq p).Sound cell s.world) (hdecision : rq.decision = .approved)
    (hcond : (deciding rq p).Unraced cell s i) {awaits : UUID → Bool}
    (hmore : ∀ id, id ≠ p.id → s.awaiting id → awaits id) :
    Settled (advance cell fresh s.world (.deciding rq p)).1 awaits := by
  obtain ⟨hknown, hwritten⟩ := hsound
  obtain ⟨⟨q, hq, hqid⟩, hrow⟩ := hknown.rows
  obtain ⟨hqorg, hqexpires⟩ := hrow q hq hqid
  have hget : s.world.inbox.get rq.orgID p.id = some q := by
    rw [← hqorg, ← hqid]
    exact Inbox.get_of_mem hq
  simp only [advance, hdecision]
  cases hpending : q.pending with
  | false =>
    have hlost : s.world.inbox.decide cell.users rq.orgID p.id rq.decidedBy .approved
        (trimSpace rq.note) s.world.now = .error .notPending := by
      simp [Inbox.decide, hget, hpending]
    rw [hlost]
    apply hs.drop
    · intro q' hq' hid'
      rw [eq_of_key_eq s.world.inbox.key hq' hq (hid'.trans hqid.symm)]
      exact hpending
    · exact hmore
  | true =>
    obtain ⟨huser, htime⟩ := (hcond q hq hqid hpending).1 hdecision
    have hwon : s.world.inbox.decide cell.users rq.orgID p.id rq.decidedBy .approved
        (trimSpace rq.note) s.world.now = .ok (s.world.inbox.update
          (fun p' => p'.orgID = rq.orgID && p'.id = p.id && p'.pending)
          (Inbox.decided rq.decidedBy .approved (trimSpace rq.note) s.world.now)
          fun _ => rfl) := by
      simp [Inbox.decide, hget, hpending, huser]
    rw [hwon]
    refine hs.record (hwritten hdecision) ?_ hmore ?_
    · intro q' hq' hid'
      rw [(hrow q' hq' hid').2]
      exact htime
    · exact fun q' hq' hid' => (hrow q' hq' hid').1

theorem settled_advance {h : Handler} (hinv : Inv cell s) (hi : s.handlers[i]? = some h)
    (hcond : h.Unraced cell s i) :
    Settled (advance cell fresh s.world h).1
      (State.awaiting ⟨(advance cell fresh s.world h).1,
        s.handlers.set i (advance cell fresh s.world h).2⟩) := by
  have hs := hinv.settled
  have hsound := hinv.sound h (List.mem_iff_getElem?.2 ⟨i, hi⟩)
  have hkeep : (∀ id, h.awaits id = false) → ∀ h' id, s.awaiting id →
      (s.handlers.set i h').any (·.awaits id) :=
    fun hnot h' id haw => awaits_set_other hi (hnot id) haw
  cases h with
  | drafted d => exact (settled_drafted hs hcond).weaken (hkeep (fun _ => rfl) _)
  | loaded rq p =>
    have hmore := hkeep fun _ => rfl
    simp only [advance]
    split
    · exact hs.weaken (hmore _)
    · split_ifs <;> exact hs.weaken (hmore _)
  | checked rq p =>
    have hmore := hkeep fun _ => rfl
    simp only [advance]
    split <;> exact hs.weaken (hmore _)
  | read rq p row =>
    have hmore := hkeep fun _ => rfl
    simp only [advance]
    split <;> exact hs.weaken (hmore _)
  | edited rq p r =>
    have hmore := hkeep fun _ => rfl
    simp only [advance]
    split
    · exact hs.weaken (hmore _)
    · next db' hupdate =>
      obtain ⟨⟨happroved, hknown⟩, _, _⟩ := hsound
      apply hs.write hknown.rows.1 hcond.1
      · exact awaits_set_self hi (by simp [awaits, happroved])
      · exact hmore _
  | deciding rq p =>
    cases hdecision : rq.decision with
    | rejected =>
      have hmore := hkeep fun id => by simp [awaits, hdecision]
      exact (settled_rejected hs hdecision hcond).weaken (hmore _)
    | approved =>
      -- nobody awaits another proposal through this handler
      apply settled_approved hs hsound hdecision hcond
      intro id hne haw
      exact awaits_set_other hi (by simp [awaits, Ne.symm hne]) haw
  | answered a => exact hs.weaken (hkeep (fun _ => rfl) _)

theorem load_sound (w : World) (rq : Request) : (load w.inbox rq).Sound cell w := by
  unfold load
  split
  · trivial
  · next p hget =>
    obtain ⟨hp, horg, _⟩ := Inbox.get_eq_some hget
    have hknown : Known w rq p := ⟨horg, p, hp, Inbox.SameProposal.refl p⟩
    split_ifs
    · trivial
    · cases hdecision : rq.decision with
      | approved => exact ⟨hdecision, hknown⟩
      | rejected => exact ⟨hknown, fun happroved => by rw [hdecision] at happroved; cases happroved⟩

theorem propose_sound (s : State) (orgID : UUID) (body : ProposalBody) (w : World) :
    (propose s orgID body).Sound cell w := by
  unfold propose
  split <;> trivial

theorem Inv.append (hinv : Inv cell s) {h : Handler} (hs : h.Sound cell s.world) :
    Inv cell { s with handlers := s.handlers ++ [h] } where
  sound g hg := by
    rcases List.mem_append.1 hg with hg | hg
    · exact hinv.sound g hg
    · rw [List.mem_singleton.1 hg]
      exact hs
  settled := hinv.settled.weaken fun id haw => by
    show (s.handlers ++ [h]).any (·.awaits id) = true
    rw [List.any_append, show s.handlers.any (·.awaits id) = true from haw]
    rfl

theorem inv_step (a : Action) (hinv : Inv cell s) (hcond : Undisturbed cell s a) :
    Inv cell (step cell s a) := by
  cases a with
  | wait d =>
    have hextends : s.world.Extends { s.world with now := s.world.now + d } :=
      ⟨(World.Extends.refl s.world).rows, fun _ hid => hid⟩
    exact {
      sound := fun h hh => (hinv.sound h hh).mono hextends (Or.inl rfl)
      settled := ⟨hinv.settled.filed, hinv.settled.applied, hinv.settled.approved⟩ }
  | edit db =>
    have hextends : s.world.Extends { s.world with db := db } :=
      ⟨(World.Extends.refl s.world).rows, fun _ hid => hid⟩
    exact {
      sound := fun h hh => (hinv.sound h hh).mono hextends (Or.inr (hcond h hh))
      settled := ⟨hinv.settled.filed, hinv.settled.applied, hinv.settled.approved⟩ }
  | sweep =>
    have hextends : s.world.Extends { s.world with inbox := s.world.inbox.expireDue s.world.now } :=
      ⟨fun q hq => Inbox.mem_expireDue s.world.now hq, fun _ hid => hid⟩
    have hsettled := hinv.settled.close (Inbox.due s.world.now)
      (fun q => (Inbox.closed_same .expired s.world.now q).id) (fun _ => rfl) (by decide)
      (fun q hq => by
        simp only [Inbox.due, Bool.and_eq_true] at hq
        exact hq.1)
      hcond
    exact {
      sound := fun h hh => (hinv.sound h hh).mono hextends (Or.inl rfl)
      settled := hsettled }
  | propose orgID body => exact hinv.append (propose_sound s orgID body s.world)
  | receive rq => exact hinv.append (load_sound s.world rq)
  | proceed i fresh =>
    simp only [step]
    cases hi : s.handlers[i]? with
    | none => exact hinv
    | some h =>
      have hs := hinv.sound h (List.mem_iff_getElem?.2 ⟨i, hi⟩)
      have hunraced := hcond h hi
      constructor
      · refine forall_mem_set (advance_sound hs) ?_
        intro j g hj hg
        have hgs := hinv.sound g (List.mem_iff_getElem?.2 ⟨j, hg⟩)
        refine hgs.mono (advance_extends cell fresh s.world h) (advance_spares hs hgs ?_)
        rintro rq p r rfl
        exact hunraced.2.1 j g hj hg
      · exact settled_advance hinv hi hunraced

/-- The write of an approval, as the whole of `apply`. -/
theorem apply_of_edited {rq : Request} {p : Proposal} {r : AlertRule} {row : Row} {db' : Database}
    (hs : (Handler.edited rq p r).Sound cell s.world) (hforce : rq.force = false)
    (hrow : s.world.db.row? rq.orgID p.targetID = some row)
    (hupdate : Database.updateRule cell.constraints s.world.db rq.orgID s.world.now r = .ok db') :
    apply cell.parseDuration cell.constraints s.world.db rq.orgID p.targetID s.world.now
      p.changes = .ok db' := by
  obtain ⟨_, _, hedit⟩ := hs
  unfold apply
  rw [Database.getRule_of_row? hrow]
  simp only [bind_eq_ok, mapError_eq_ok]
  exact ⟨_, rfl, r, (hedit hforce row hrow).2, hupdate⟩

/-- What `apply` writes over a rule without drift, and that rewriting keeps. -/
theorem editsKept_of_apply {parseDuration : String → Option Duration} {c : Constraints}
    {db db' : Database} {orgID id : UUID} {now : Time} {changes : List Change}
    {row : Row} (happly : apply parseDuration c db orgID id now changes = .ok db')
    (hrow : db.row? orgID id = some row)
    (hdrift : checkDrift changes (snapshot (scanRule row)) = [])
    (hkept : Kept (readRow row (db.channelIDsFor id))) {after : Reading}
    (hafter : reading db' orgID id = some after) :
    EditsKept parseDuration changes (readRow row (db.channelIDsFor id)) after := by
  obtain ⟨row', r', hrow', hedit, hread⟩ := apply_eq_ok happly
  rw [hrow] at hrow'
  cases hrow'
  rw [hread] at hafter
  cases hafter
  have hretuned := retuned_of_editAll hedit
  refine ⟨?_, (rest_iff_kept hretuned now).2 hkept⟩
  intro f
  by_cases hnamed : ∃ ch ∈ changes, ch.field = f
  · obtain ⟨ch, hch, hfield⟩ := hnamed
    obtain ⟨v, hv, hequal⟩ := checkDrift_eq_nil hdrift hch
    refine Or.inr ⟨ch, hch, hfield, v, ?_, hequal⟩
    rw [← hv, hfield]
    cases f <;> rfl
  left
  by_cases hreach : Reached (readRow row (db.channelIDsFor id)) f
  · obtain ⟨hb, ha⟩ := @setting_reached parseDuration _ _ _ hretuned now f hreach
    have hnone : ∀ ch ∈ changes, ch.field ≠ f :=
      fun ch hch hfield => hnamed ⟨ch, hch, hfield⟩
    rw [ha, hb]
    exact (edited_of_editAll hedit f).1 hnone
  · exact setting_unreached hretuned now hreach

theorem keepsEdits_step (a : Action) (hinv : Inv cell s) (hcond : Undisturbed cell s a) :
    KeepsEdits cell s a := by
  cases a with
  | wait d => trivial
  | edit db => trivial
  | sweep => trivial
  | propose orgID body => trivial
  | receive rq => trivial
  | proceed i fresh =>
    intro rq p r hi hforce before hbefore after hafter
    have hs := hinv.sound _ (List.mem_iff_getElem?.2 ⟨i, hi⟩)
    have hkept := (hcond _ hi).2.2 hforce before hbefore
    simp only [step, hi, advance] at hafter
    split at hafter
    · -- the write has failed
      rw [hbefore] at hafter
      cases hafter
      exact ⟨fun f => Or.inl rfl, rfl⟩
    · next db' hupdate =>
      cases hrow : s.world.db.row? rq.orgID p.targetID with
      | none => simp [reading, hrow] at hbefore
      | some row =>
        have hread : readRow row (s.world.db.channelIDsFor p.targetID) = before := by
          simpa [reading, hrow] using hbefore
        rw [← hread] at hkept ⊢
        have hdrift := (hs.2.2 hforce row hrow).1
        exact editsKept_of_apply (apply_of_edited hs hforce hrow hupdate) hrow hdrift hkept hafter

theorem decided_of_inv (hinv : Inv cell s) : Decided s where
  applied_iff q hq hnot := by
    constructor
    · intro hid
      rcases hinv.settled.applied q hq hid with happroved | ⟨_, hawaits⟩
      · exact happroved
      · rw [hnot] at hawaits
        cases hawaits
    · exact fun happroved => (hinv.settled.approved q hq happroved).1
  inTime q hq happroved := (hinv.settled.approved q hq happroved).2

end Step

/-- **Decisions that race with nothing.**  In every run in which no statement disturbs a
decision, the changes of a proposal are written just when it ends up approved, none is
approved after its expiry, and no approval overwrites an edit it was not forced over. -/
theorem undisturbed_decisions (cell : Cell) (s : State) (as : List Action)
    (hs : s.Initial) (h : StepsMeet (step cell) (Undisturbed cell) s as) :
    Decided (run (step cell) s as) ∧ StepsMeet (step cell) (KeepsEdits cell) s as := by
  have hstep : ∀ s a, Inv cell s → Undisturbed cell s a → Inv cell (step cell s a) :=
    fun s a => inv_step a
  have hkeeps : ∀ s a, Inv cell s → Undisturbed cell s a → KeepsEdits cell s a :=
    fun s a => keepsEdits_step a
  exact ⟨decided_of_inv (h.invariant hstep (inv_initial cell hs)),
    h.imp_of_invariant hstep hkeeps (inv_initial cell hs)⟩

/-! A check on a queue, and a proposal to raise its threshold. -/

private def oneUser : Cell where
  parseDuration := fun s => if s = "5m" then some (5 * Alerting.minute) else none
  constraints := { admitsRule := fun _ => true, admitsRoute := fun _ => true }
  users := fun id => id = 5

private def queueRow (threshold : Rat) : Row where
  id := 7
  organizationID := 1
  name := "queue"
  signal := .metric
  ruleSpec := MetricRuleSpec.marshal
    { metricName := "queue.depth", aggregation := "last", operator := "gt",
      threshold := threshold, forWindow := "5m" }
  createdAt := 10
  updatedAt := 10

private def queueOnly (threshold : Rat) : Database where
  rules := [queueRow threshold]
  routes := []
  ruleKey := List.nodup_singleton _
  routeKey := List.nodup_nil

private def beforeProposals : State where
  world := { now := 20, db := queueOnly 100, inbox := ⟨[], List.nodup_nil⟩, written := [] }
  handlers := []

private def raiseThreshold : Action :=
  .propose 1 ⟨"alert_rule", some 7, [("threshold", .number 200)], "the queue is long at night"⟩

private def decision (d : Decision) : Action := .receive ⟨1, 9, some 5, d, false, ""⟩

private def approvedAtOnce : List Action :=
  [raiseThreshold, .proceed 0 9, decision .approved, .proceed 1 0, .proceed 1 0, .proceed 1 0,
    .proceed 1 0, .proceed 1 0]

/-- A second reviewer rejects between the write and its record. -/
private def rejectedMeanwhile : List Action :=
  [raiseThreshold, .proceed 0 9, decision .approved, decision .rejected, .proceed 1 0,
    .proceed 1 0, .proceed 1 0, .proceed 1 0, .proceed 2 0, .proceed 1 0]

/-- Approved after fifteen days, before the sweep comes round. -/
private def approvedLate : List Action :=
  [raiseThreshold, .proceed 0 9, .wait (15 * 24 * Alerting.hour).toNat, decision .approved,
    .proceed 1 0, .proceed 1 0, .proceed 1 0, .proceed 1 0, .proceed 1 0]

/-- The threshold is edited by hand behind the drift check. -/
private def editedMeanwhile : List Action :=
  [raiseThreshold, .proceed 0 9, decision .approved, .proceed 1 0, .edit (queueOnly 150),
    .proceed 1 0, .proceed 1 0]

theorem undisturbed_decisions_atOnce :
    Decided (run (step oneUser) beforeProposals approvedAtOnce) ∧
      StepsMeet (step oneUser) (KeepsEdits oneUser) beforeProposals approvedAtOnce ∧
      (run (step oneUser) beforeProposals approvedAtOnce).world.written = [9] := by
  have hruns : StepsMeet (step oneUser) (Undisturbed oneUser) beforeProposals
      approvedAtOnce := by
    refine ⟨trivial, ?_, trivial, ?_, ?_, ?_, ?_, ?_, trivial⟩
    all_goals
      intro h hi
      cases Option.some.inj hi
    · intro p hp
      cases hp
    · trivial
    · trivial
    · trivial
    · refine ⟨?_, ?_, ?_⟩
      · intro q hq _
        left
        rw [List.mem_singleton.1 hq]
        rfl
      · intro j h hj hh
        match j with
        | 0 => cases Option.some.inj hh; rfl
        | 1 => exact absurd rfl hj
        | j + 2 => cases hh
      · intro _ x hx
        cases Option.some.inj hx
        exact ⟨rfl, rfl, rfl, by intro htrace; cases htrace⟩
    · intro q hq _ _
      refine ⟨fun _ => ⟨rfl, ?_⟩, by intro hrejected; cases hrejected⟩
      decide
  obtain ⟨hdecided, hkeeps⟩ := undisturbed_decisions oneUser beforeProposals approvedAtOnce
    ⟨rfl, rfl, rfl⟩ hruns
  exact ⟨hdecided, hkeeps, rfl⟩

/-- The changes of a rejected proposal are applied, a proposal is approved after its expiry,
and an approval that was not forced overwrites a threshold edited since. -/
theorem decisions_race :
    ¬ Decided (run (step oneUser) beforeProposals rejectedMeanwhile) ∧
    ¬ Decided (run (step oneUser) beforeProposals approvedLate) ∧
    ¬ KeepsEdits oneUser (run (step oneUser) beforeProposals editedMeanwhile) (.proceed 1 0) := by
  refine ⟨?_, ?_, ?_⟩
  · intro hdecided
    have hiff := hdecided.applied_iff _ (List.mem_singleton.2 rfl) rfl
    have happroved := hiff.1 (List.mem_singleton.2 rfl)
    cases happroved
  · intro hdecided
    obtain ⟨t, ht, hle⟩ := hdecided.inTime _ (List.mem_singleton.2 rfl) rfl
    cases ht
    revert hle
    decide
  · intro hkeeps
    have hkept := hkeeps _ _ _ rfl rfl _ rfl _ rfl
    rcases hkept.fields .threshold with hsame | ⟨ch, hch, _, v, hv, hequal⟩
    · revert hsame
      decide
    · rw [List.mem_singleton.1 hch] at hequal
      cases Option.some.inj hv
      revert hequal
      decide

/-! ## Closed for good -/

namespace Inbox

/-- The proposals are still there, the closed ones as they were. -/
def KeepsClosed (t t' : Inbox) : Prop :=
  ∀ p ∈ t.rows, ∃ q ∈ t'.rows, SameProposal p q ∧ (p.pending = false → q = p)

theorem KeepsClosed.refl (t : Inbox) : t.KeepsClosed t :=
  fun p hp => ⟨p, hp, .refl p, fun _ => rfl⟩

variable {now : Time} {id : UUID} {t' t : Inbox}

theorem KeepsClosed.trans {t'' : Inbox} (h : t.KeepsClosed t') (h' : t'.KeepsClosed t'') :
    t.KeepsClosed t'' := by
  intro p hp
  obtain ⟨q, hq, hsame, hkept⟩ := h p hp
  obtain ⟨r, hr, hsame', hkept'⟩ := h' q hq
  refine ⟨r, hr, hsame.trans hsame', fun hclosed => ?_⟩
  have hqp := hkept hclosed
  exact (hkept' (hqp ▸ hclosed)).trans hqp

theorem keepsClosed_update (t : Inbox) {hit : Proposal → Bool} {f : Proposal → Proposal}
    (hf : ∀ q, SameProposal q (f q)) (hopen : ∀ q, hit q → q.pending) :
    t.KeepsClosed (t.update hit f fun q => (hf q).id) := by
  intro q hq
  cases hhit : hit q with
  | true =>
    refine ⟨f q, mem_updateWhere_of hq hhit, hf q, fun hclosed => ?_⟩
    rw [hopen q hhit] at hclosed
    cases hclosed
  | false => exact ⟨q, mem_updateWhere_of_not hq hhit, .refl q, fun _ => rfl⟩

theorem keepsClosed_create {d : Draft} {ttl : Duration} (h : t.create d id now ttl = some t') :
    t.KeepsClosed t' := by
  have hclosed : t.KeepsClosed (t.supersede d now) :=
    t.keepsClosed_update (closed_same .superseded now) fun q hq => by
      simp only [competes, Bool.and_eq_true] at hq
      exact hq.2
  intro p hp
  obtain ⟨q, hq, hkept⟩ := hclosed p hp
  exact ⟨q, by simp [(create_eq_some h).2, hq], hkept⟩

theorem keepsClosed_decide {users : UUID → Bool} {orgID decidedBy : UUID} {d : Decision}
    {note : String} (h : t.decide users orgID id decidedBy d note now = .ok t') :
    t.KeepsClosed t' := by
  obtain ⟨_, _, _, _, rfl⟩ := decide_eq_ok h
  refine t.keepsClosed_update (decided_same decidedBy d note now) fun q hq => ?_
  simp only [Bool.and_eq_true] at hq
  exact hq.2

theorem keepsClosed_expireDue (t : Inbox) (now : Time) : t.KeepsClosed (t.expireDue now) := by
  refine t.keepsClosed_update (closed_same .expired now) fun q hq => ?_
  simp only [due, Bool.and_eq_true] at hq
  exact hq.1

end Inbox

theorem keepsClosed_advance (cell : Cell) (fresh : UUID) (w : World) (h : Handler) :
    w.inbox.KeepsClosed (advance cell fresh w h).1.inbox := by
  have hsame {w' : World} (heq : w'.inbox = w.inbox) : w.inbox.KeepsClosed w'.inbox := by
    rw [heq]
    exact Inbox.KeepsClosed.refl _
  cases h with
  | drafted d =>
    simp only [advance]
    split
    · exact hsame rfl
    · next hcreate => exact Inbox.keepsClosed_create hcreate
  | deciding rq p =>
    simp only [advance]
    split
    · exact hsame rfl
    · exact hsame rfl
    · next hdecide => exact Inbox.keepsClosed_decide hdecide
  | loaded _ _ | checked _ _ | read _ _ _ | edited _ _ _ | answered _ =>
    refine hsame ?_
    simp only [advance]
    repeat' split
    all_goals rfl

theorem keepsClosed_step (cell : Cell) (s : State) (a : Action) :
    s.world.inbox.KeepsClosed (step cell s a).world.inbox := by
  cases a with
  | sweep => exact s.world.inbox.keepsClosed_expireDue s.world.now
  | proceed i fresh =>
    simp only [step]
    split
    · exact Inbox.KeepsClosed.refl _
    · exact keepsClosed_advance cell fresh s.world _
  | wait _ | edit _ | propose _ _ | receive _ => exact Inbox.KeepsClosed.refl _

/-- **A decision stands.**  In every run, whichever races its handlers lose, no proposal goes
away, and one that is approved, rejected, expired or superseded is never decided again. -/
theorem decision_stands (cell : Cell) (s : State) (as : List Action) :
    s.world.inbox.KeepsClosed (run (step cell) s as).world.inbox := by
  induction as generalizing s with
  | nil => exact Inbox.KeepsClosed.refl _
  | cons a as ih => exact (keepsClosed_step cell s a).trans (ih (step cell s a))

end Sluicio.Proposals
