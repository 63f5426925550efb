import Sluicio.Proposals.Tuning

/-!
# The proposals table

A proposal is filed against one alert rule, with the values its fields had then, and waits
for a decision, for its expiry or for a newer proposal on the same rule.  Every statement
here is guarded on the row being pending.
-/

namespace Sluicio.Proposals

open Lib
open Alerting (Duration Time hour)
open Alerting.Store

inductive ProposalState where
  | pending | approved | rejected | expired | superseded
  deriving DecidableEq

/-- The `state` that `Decide` is called with; it refuses any other. -/
inductive Decision where
  | approved | rejected
  deriving DecidableEq

def Decision.state : Decision → ProposalState
  | .approved => .approved
  | .rejected => .rejected

/-- What `createProposal` hands to `Create`; the target is an alert rule. -/
structure Draft where
  orgID : UUID
  targetID : UUID
  targetLabel : String
  changes : List Change
  rationale : String

structure Proposal extends Draft where
  id : UUID
  state : ProposalState := .pending
  decidedBy : Option UUID := none
  decidedAt : Option Time := none
  decisionNote : String := ""
  expiresAt : Time
  createdAt : Time
  updatedAt : Time

def Proposal.pending (p : Proposal) : Bool := p.state = .pending

def defaultTTL : Duration := 14 * 24 * hour

/-- The table. -/
structure Inbox where
  rows : List Proposal
  key : (rows.map Proposal.id).Nodup

/-- `UPDATE proposals SET … WHERE …`, for an update that leaves the key alone. -/
def Inbox.update (t : Inbox) (p : Proposal → Bool) (f : Proposal → Proposal)
    (hf : ∀ q, (f q).id = q.id) : Inbox where
  rows := updateWhere p f t.rows
  key := by
    rw [map_updateWhere hf]
    exact t.key

namespace Inbox

def get (t : Inbox) (orgID id : UUID) : Option Proposal :=
  t.rows.find? fun p => p.orgID = orgID && p.id = id

/-- The row `Create` inserts. -/
def filed (d : Draft) (id : UUID) (now : Time) (ttl : Duration) : Proposal where
  toDraft := d
  id := id
  expiresAt := (now + (if ttl ≤ 0 then defaultTTL else ttl)).toNat
  createdAt := now
  updatedAt := now

def competes (d : Draft) (p : Proposal) : Bool :=
  p.orgID = d.orgID && p.targetID = d.targetID && p.pending

/-- `SET state = …, updated_at = now()`. -/
def closed (state : ProposalState) (now : Time) (p : Proposal) : Proposal :=
  { p with state := state, updatedAt := now }

/-- The first statement of `Create`. -/
def supersede (t : Inbox) (d : Draft) (now : Time) : Inbox :=
  t.update (competes d) (closed .superseded now) fun _ => rfl

/-- `Create`, one transaction.  The id is one that `gen_random_uuid` gives; on one that is
taken the transaction is rolled back. -/
def create (t : Inbox) (d : Draft) (id : UUID) (now : Time) (ttl : Duration) :
    Option Inbox :=
  if hfree : id ∈ (t.supersede d now).rows.map Proposal.id then none
  else some {
    rows := (t.supersede d now).rows ++ [filed d id now ttl]
    key := by
      rw [List.map_append]
      refine (t.supersede d now).key.append (List.nodup_singleton _) ?_
      intro x hx hx'
      rw [List.mem_singleton.1 hx'] at hx
      exact hfree hx }

inductive DecideError where
  | notFound
  | notPending
  | database

/-- The `SET` clause of `Decide`. -/
def decided (decidedBy : UUID) (d : Decision) (note : String) (now : Time)
    (p : Proposal) : Proposal :=
  { p with
    state := d.state
    decidedBy := some decidedBy
    decidedAt := some now
    decisionNote := note
    updatedAt := now }

/-- `Decide`.  `decided_by` references the users, and the update of a pending row fails on
anyone else. -/
def decide (users : UUID → Bool) (t : Inbox) (orgID id decidedBy : UUID) (d : Decision)
    (note : String) (now : Time) : Except DecideError Inbox :=
  match t.get orgID id with
  | none => .error .notFound
  | some p =>
    if !p.pending then .error .notPending
    else if !users decidedBy then .error .database
    else .ok (t.update (fun p => p.orgID = orgID && p.id = id && p.pending)
      (decided decidedBy d note now) fun _ => rfl)

/-- What `ExpireDue` finds. -/
def due (now : Time) (p : Proposal) : Bool := p.pending && p.expiresAt < now

def expireDue (t : Inbox) (now : Time) : Inbox :=
  t.update (due now) (closed .expired now) fun _ => rfl

/-! ## What the statements do to a row -/

variable {orgID id : UUID} {q : Proposal} {now : Time} {t' t : Inbox} {p : Proposal}
  {decidedBy : UUID} {note : String} {d : Decision} {users : UUID → Bool}

theorem get_eq_some (h : t.get orgID id = some p) : p ∈ t.rows ∧ p.orgID = orgID ∧ p.id = id := by
  have hkeys := List.find?_some h
  simp only [Bool.and_eq_true, decide_eq_true_eq] at hkeys
  exact ⟨List.mem_of_find?_eq_some h, hkeys⟩

theorem get_of_mem (h : p ∈ t.rows) : t.get p.orgID p.id = some p := by
  cases hfind : t.get p.orgID p.id with
  | none =>
    have hnot := List.find?_eq_none.1 hfind p h
    simp at hnot
  | some q =>
    obtain ⟨hq, _, hid⟩ := get_eq_some hfind
    rw [eq_of_key_eq t.key hq h hid]

/-- What no statement changes in a row. -/
structure SameProposal (p q : Proposal) : Prop where
  draft : q.toDraft = p.toDraft
  id : q.id = p.id
  expiresAt : q.expiresAt = p.expiresAt

theorem SameProposal.refl (p : Proposal) : SameProposal p p := ⟨rfl, rfl, rfl⟩

theorem closed_same (state : ProposalState) (now : Time) (q : Proposal) :
    SameProposal q (closed state now q) := ⟨rfl, rfl, rfl⟩

theorem decided_same (decidedBy : UUID) (d : Decision) (note : String) (now : Time)
    (q : Proposal) : SameProposal q (decided decidedBy d note now q) := ⟨rfl, rfl, rfl⟩

theorem mem_update_of_mem {rows : List Proposal} {p : Proposal → Bool} {f : Proposal → Proposal}
    (hsame : ∀ q, SameProposal q (f q)) (hq : q ∈ rows) :
    ∃ q' ∈ updateWhere p f rows, SameProposal q q' := by
  cases hp : p q with
  | true => exact ⟨f q, mem_updateWhere_of hq hp, hsame q⟩
  | false => exact ⟨q, mem_updateWhere_of_not hq hp, SameProposal.refl q⟩

theorem mem_supersede (d : Draft) (now : Time) (hq : q ∈ t.rows) :
    ∃ q' ∈ (t.supersede d now).rows, SameProposal q q' := by
  exact mem_update_of_mem (closed_same .superseded now) hq

theorem mem_expireDue (now : Time) (hq : q ∈ t.rows) :
    ∃ q' ∈ (t.expireDue now).rows, SameProposal q q' := by
  exact mem_update_of_mem (closed_same .expired now) hq

theorem create_eq_some {d : Draft} {ttl : Duration} (h : t.create d id now ttl = some t') :
    (∀ q ∈ t.rows, q.id ≠ id) ∧ t'.rows = (t.supersede d now).rows ++ [filed d id now ttl] := by
  unfold create at h
  split at h
  · cases h
  · next hfree =>
    cases h
    refine ⟨?_, rfl⟩
    intro q hq hid
    obtain ⟨q', hq', hsame⟩ := mem_supersede d now hq
    exact hfree (List.mem_map.2 ⟨q', hq', hsame.id.trans hid⟩)

/-- What a successful `Decide` did. -/
theorem decide_eq_ok (h : t.decide users orgID id decidedBy d note now = .ok t') :
    ∃ p, t.get orgID id = some p ∧ p.pending ∧ users decidedBy ∧
      t' = t.update (fun p => p.orgID = orgID && p.id = id && p.pending)
        (decided decidedBy d note now) fun _ => rfl := by
  unfold decide at h
  split at h
  · cases h
  · next p hget =>
    split_ifs at h with hpending husers
    cases h
    exact ⟨p, hget, by simpa using hpending, by simpa using husers, rfl⟩

theorem mem_decide (h : t.decide users orgID id decidedBy d note now = .ok t') (hq : q ∈ t.rows) :
    ∃ q' ∈ t'.rows, SameProposal q q' := by
  obtain ⟨_, _, _, _, hupdate⟩ := decide_eq_ok h
  rw [hupdate]
  exact mem_update_of_mem (decided_same decidedBy d note now) hq

end Inbox

end Sluicio.Proposals
