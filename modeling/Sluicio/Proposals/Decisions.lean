import Sluicio.Proposals.Store

/-!
# Deciding a proposal

The handlers that file and decide proposals, one database statement at a time, among the
expiry sweep and whatever else writes the rules.  An approval loads the proposal, compares
the rule with what the proposal recorded, reads the rule once more, writes it, and only then
sets the state of the proposal.
-/

namespace Sluicio.Proposals

open Lib
open Alerting (Severity Duration Time)
open Alerting.Store
open Tracecompletion (trimSpace)

mutual

/-- `jsonEqual`: the texts of the two values are the same. -/
def jsonEqual : Value → Value → Bool
  | .null, .null => true
  | .bool a, .bool b => a == b
  | .number a, .number b => a == b
  | .string a, .string b => a == b
  | .array as, .array bs => valuesEqual as bs
  | .object as, .object bs => membersEqual as bs
  | _, _ => false

def valuesEqual : List Value → List Value → Bool
  | [], [] => true
  | a :: as, b :: bs => jsonEqual a b && valuesEqual as bs
  | _, _ => false

def membersEqual : List (String × Value) → List (String × Value) → Bool
  | [], [] => true
  | (k, a) :: as, (l, b) :: bs => k == l && jsonEqual a b && membersEqual as bs
  | _, _ => false

end

def severityText : Severity → String
  | .info => "info"
  | .warning => "warning"
  | .critical => "critical"

/-- `snapshot` of an alert rule, without its name. -/
def snapshot (r : AlertRule) : Tunable → Option Value
  | .threshold => some (.number r.spec.threshold)
  | .severity => some (.string (severityText r.severity))
  | .forWindow => some (.string r.spec.forWindow)
  | .enabled => some (.bool r.enabled)

def drifted (current : Tunable → Option Value) (ch : Change) : Bool :=
  match current ch.field with
  | none => true
  | some v => !jsonEqual ch.before v

def checkDrift (changes : List Change) (current : Tunable → Option Value) : List Tunable :=
  (changes.filter (drifted current)).map Change.field

theorem checkDrift_eq_nil {changes : List Change} {current : Tunable → Option Value}
    (h : checkDrift changes current = []) {ch : Change} (hch : ch ∈ changes) :
    ∃ v, current ch.field = some v ∧ jsonEqual ch.before v := by
  have hnot : drifted current ch = false := by
    have hnone := List.filter_eq_nil_iff.1 (List.map_eq_nil_iff.1 h) ch hch
    simpa using hnone
  unfold drifted at hnot
  split at hnot
  · cases hnot
  · next v hv => exact ⟨v, hv, by simpa using hnot⟩

/-! ## Requests -/

/-- `proposalBody`, decoded: each change is a field and the value it should have; the target
id is missing when it does not parse. -/
structure ProposalBody where
  targetKind : String
  targetID : Option UUID
  changes : List (String × Value)
  rationale : String

/-- A decision on a proposal: who sends it, and the decoded `decisionBody`. -/
structure Request where
  orgID : UUID
  proposalID : UUID
  /-- a service account has none -/
  userID : Option UUID
  decision : Decision
  force : Bool
  note : String

inductive Answer where
  | refused (status : Nat) (error : String)
  | drifted (fields : List Tunable)
  | couldNotApply (err : ApplyError)
  | created
  | decided

/-- `alertRuleTunables`, by name. -/
def tunable? : String → Option Tunable
  | "threshold" => some .threshold
  | "severity" => some .severity
  | "for_window" => some .forWindow
  | "enabled" => some .enabled
  | _ => none

/-- The loop of `createProposal` over the fields. -/
def readFields (targetKind : String) :
    List (String × Value) → Except Answer (List (Tunable × Value))
  | [] => .ok []
  | (field, after) :: rest =>
    match tunable? field with
    | none =>
      .error (.refused 400 ("field is not proposable on " ++ targetKind ++ ": " ++ field))
    | some f => do
      let fields ← readFields targetKind rest
      return (f, after) :: fields

/-- The changes that are filed: `before` is what the snapshot has. -/
def withBefore (current : Tunable → Option Value) (fields : List (Tunable × Value)) :
    List Change :=
  fields.map fun c => ⟨c.1, (current c.1).getD .null, c.2⟩

/-- The `state` column. -/
def ProposalState.text : ProposalState → String
  | .pending => "pending"
  | .approved => "approved"
  | .rejected => "rejected"
  | .expired => "expired"
  | .superseded => "superseded"

/-! ## Handlers -/

/-- A handler, by what its next database statement is. -/
inductive Handler where
  /-- `createProposal` has its snapshot; `Create` is next -/
  | drafted (d : Draft)
  | loaded (rq : Request) (p : Proposal)
  | checked (rq : Request) (p : Proposal)
  | read (rq : Request) (p : Proposal) (row : Row)
  | edited (rq : Request) (p : Proposal) (r : AlertRule)
  /-- `Decide` is next -/
  | deciding (rq : Request) (p : Proposal)
  | answered (a : Answer)

/-- What the cell has besides the two stores. -/
structure Cell where
  parseDuration : String → Option Duration
  constraints : Constraints
  /-- the ids of the users table -/
  users : UUID → Bool

/-- What the handlers share: the clock, the rules and the proposals, and, for the proofs, the
proposals whose changes have been written. -/
structure World where
  now : Time
  db : Database
  inbox : Inbox
  written : List UUID

structure State where
  world : World
  handlers : List Handler

/-- `uuid.Nil`. -/
def uuidNil : UUID := 0

/-- `decidedBy` of `decideProposal`. -/
def Request.decidedBy (rq : Request) : UUID := rq.userID.getD uuidNil

/-- `createProposal` up to its snapshot. -/
def draft (db : Database) (orgID : UUID) (body : ProposalBody) : Except Answer Draft :=
  if body.targetKind ≠ "alert_rule" then
    .error (.refused 400 ("unsupported target_kind: " ++ body.targetKind))
  else if trimSpace body.rationale = "" then
    .error (.refused 400
      "rationale is required — a proposal without a reason cannot be reviewed")
  else if body.changes = [] then .error (.refused 400 "at least one change is required")
  else
    match readFields body.targetKind body.changes, body.targetID with
    | .error a, _ => .error a
    | .ok _, none => .error (.refused 400 "target_id is required")
    | .ok fields, some targetID =>
      match db.row? orgID targetID with
      | none => .error (.refused 404 "target not found")
      | some row => .ok {
          orgID := orgID
          targetID := targetID
          targetLabel := row.name
          changes := withBefore (snapshot (scanRule row)) fields
          rationale := trimSpace body.rationale }

/-- `decideProposal` up to its first statement, `Get`. -/
def load (t : Inbox) (rq : Request) : Handler :=
  match t.get rq.orgID rq.proposalID with
  | none => .answered (.refused 404 "not found")
  | some p =>
    if !p.pending then
      .answered (.refused 409 ("this proposal is already " ++ p.state.text))
    else
      match rq.decision with
      | .approved => .loaded rq p
      | .rejected => .deciding rq p

/-- The next statement of a handler, and what the handler does with its result.  `fresh` is
the id that an insert gets. -/
def advance (cell : Cell) (fresh : UUID) (w : World) : Handler → World × Handler
  | .drafted d =>
    match w.inbox.create d fresh w.now defaultTTL with
    | none => (w, .answered (.refused 500 "save failed"))
    | some inbox => ({ w with inbox := inbox }, .answered .created)
  | .loaded rq p =>
    match w.db.row? rq.orgID p.targetID with
    | none => (w, .answered (.refused 409 "the target no longer exists"))
    | some row =>
      if checkDrift p.changes (snapshot (scanRule row)) ≠ [] ∧ rq.force = false then
        (w, .answered (.drifted (checkDrift p.changes (snapshot (scanRule row)))))
      else (w, .checked rq p)
  | .checked rq p =>
    match w.db.row? rq.orgID p.targetID with
    | none => (w, .answered (.couldNotApply (.store .notFound)))
    | some row => (w, .read rq p row)
  | .read rq p row =>
    match editAll cell.parseDuration
        { scanRule row with channelIDs := w.db.channelIDsFor p.targetID } p.changes with
    | .error err => (w, .answered (.couldNotApply err))
    | .ok r => (w, .edited rq p r)
  | .edited rq p r =>
    match Database.updateRule cell.constraints w.db rq.orgID w.now r with
    | .error err => (w, .answered (.couldNotApply (.store err)))
    | .ok db => ({ w with db := db, written := p.id :: w.written }, .deciding rq p)
  | .deciding rq p =>
    match w.inbox.decide cell.users rq.orgID p.id rq.decidedBy rq.decision
        (trimSpace rq.note) w.now with
    | .error .notPending =>
      (w, .answered (.refused 409 "another reviewer decided this proposal first"))
    | .error _ => (w, .answered (.refused 500 "save failed"))
    | .ok inbox => ({ w with inbox := inbox }, .answered .decided)
  | .answered a => (w, .answered a)

/-- What can happen next. -/
inductive Action where
  | wait (d : Nat)
  /-- any other statement that writes the rules: the rule editor, an import, a deletion -/
  | edit (db : Database)
  /-- `ExpireDue` -/
  | sweep
  | propose (orgID : UUID) (body : ProposalBody)
  | receive (rq : Request)
  | proceed (i : Nat) (fresh : UUID)

def propose (s : State) (orgID : UUID) (body : ProposalBody) : Handler :=
  match draft s.world.db orgID body with
  | .error a => .answered a
  | .ok d => .drafted d

def step (cell : Cell) (s : State) : Action → State
  | .wait d => { s with world := { s.world with now := s.world.now + d } }
  | .edit db => { s with world := { s.world with db := db } }
  | .sweep =>
    { s with world := { s.world with inbox := s.world.inbox.expireDue s.world.now } }
  | .propose orgID body => { s with handlers := s.handlers ++ [propose s orgID body] }
  | .receive rq => { s with handlers := s.handlers ++ [load s.world.inbox rq] }
  | .proceed i fresh =>
    match s.handlers[i]? with
    | none => s
    | some h =>
      { world := (advance cell fresh s.world h).1
        handlers := s.handlers.set i (advance cell fresh s.world h).2 }

end Sluicio.Proposals
