import Sluicio.Dashboards.Store
import Sluicio.Identity.Policies
import Sluicio.Lib.InProgress
import Sluicio.Lib.Run

/-!
# Dashboard writes, statement by statement

A request checks that its caller manages the dashboard, and then writes in a read-committed
transaction: when the dashboard is to be the default, `clearDefaults` first takes the flag from
the others of the organization.  Rows that a transaction has written are locked until it ends,
and nobody sees them before.  Managing goes by the dashboard's team, clearing does not.
-/

namespace Sluicio.Api.Dashboards

open Sluicio.Dashboards Sluicio.Lib
open Sluicio.Identity (Role)

/-- `dashboardAccessCtx`: what a request knows of its caller's roles. -/
structure Access where
  orgWrite : Bool
  scopeCapped : Bool := false
  roles : List (UUID × Role) := []

def canSeeTeamScoped (groupID : Option UUID) (a : Access) : Bool :=
  match groupID with
  | none => true
  | some g => a.orgWrite || (a.roles.lookup g).isSome

def canManageTeamScoped (groupID : Option UUID) (a : Access) : Bool :=
  if a.orgWrite then true
  else
    match groupID with
    | none => false
    | some g => !a.scopeCapped && (a.roles.lookup g).any Role.canWrite

structure Caller where
  orgID : UUID
  access : Access

/-- The caller may manage a dashboard of this organization and team. -/
def Caller.Manages (c : Caller) (scope : UUID × Option UUID) : Prop :=
  scope.1 = c.orgID ∧ canManageTeamScoped scope.2 c.access

instance (c : Caller) (scope : UUID × Option UUID) : Decidable (c.Manages scope) :=
  inferInstanceAs (Decidable (_ ∧ _))

def scopeOf (d : Dashboard) : UUID × Option UUID := (d.organizationID, d.groupID)

/-! ## Requests -/

inductive Request where
  | createDashboard (c : Caller) (req : DashboardRequest)
  | updateDashboard (c : Caller) (id : UUID) (req : DashboardRequest)
  | deleteDashboard (c : Caller) (id : UUID)

/-- What a transaction of `Create` or `Update` is asked for; `Create` has no row to keep. -/
structure Write where
  caller : Caller
  keep : Option UUID
  groupID : Option UUID := none
  settings : Settings

/-- What a transaction has written: the rows it has cleared, and its own. -/
structure Tx where
  cleared : List Dashboard := []
  row : Option Dashboard := none

def Tx.written (tx : Tx) : List Dashboard := tx.cleared ++ tx.row.toList

def Tx.ids (tx : Tx) : List UUID := tx.written.map Dashboard.id

inductive Stage where
  | checked (w : Write)
  /-- in `clearDefaults`, with the rows that are left of those it saw -/
  | clearing (w : Write) (tx : Tx) (rest : List UUID)
  | writing (w : Write) (tx : Tx)
  | items (w : Write) (tx : Tx)
  | committing (w : Write) (tx : Tx)
  | deleting (c : Caller) (id : UUID)

/-- The rows that nobody else can write. -/
def Stage.held : Stage → List UUID
  | .clearing _ tx _ | .writing _ tx | .items _ tx | .committing _ tx => tx.ids
  | .checked _ | .deleting _ _ => []

structure State where
  rows : List Dashboard
  nextID : Nat
  now : Nat := 0
  calls : InProgress Stage := ∅
  changes : List (Caller × Dashboard) := []

inductive Action where
  | begin (call : Nat) (r : Request)
  /-- the next statement of a request, or the next row of its `clearDefaults`: it goes through,
  unless it has to wait, or fails and ends the request -/
  | next (call : Nat) (ok : Bool)
  | tick

section Steps

-- `groupOrg` gives the organization of each team
variable (groupOrg : UUID → Option UUID) (s : State)

def State.put (call : Nat) (st : Stage) : State := { s with calls := s.calls.put call st }

/-- The request ends; a transaction that is open is rolled back. -/
def State.done (call : Nat) : State := { s with calls := s.calls.drop call }

/-- Another request's transaction has written the row. -/
def State.HeldByOther (call : Nat) (id : UUID) : Prop :=
  ∃ c ∈ s.calls.calls, c.1 ≠ call ∧ id ∈ c.2.held

instance (call : Nat) (id : UUID) : Decidable (s.HeldByOther call id) := by
  unfold State.HeldByOther
  infer_instance

/-- The checks of `createDashboard`. -/
def mayCreate (c : Caller) (groupID : Option UUID) : Bool :=
  (c.access.orgWrite ||
    match groupID with
    | none => false
    | some g => !c.access.scopeCapped && (c.access.roles.lookup g).any Role.canWrite) &&
  match groupID with
  | none => true
  | some g => groupOrg g = some c.orgID

def State.requireManageDashboard (c : Caller) (id : UUID) : Option Dashboard :=
  match s.rows.find? fun d => d.organizationID = c.orgID ∧ d.id = id with
  | none => none
  | some d =>
    if canSeeTeamScoped d.groupID c.access && canManageTeamScoped d.groupID c.access then some d
    else none

/-- A request up to its transaction. -/
def begin (call : Nat) : Request → State
  | .createDashboard c req =>
    if mayCreate groupOrg c req.groupID then
      match req.validate with
      | .error _ => s
      | .ok settings =>
        s.put call (.checked
          { caller := c, keep := none, groupID := req.groupID, settings := settings })
    else s
  | .updateDashboard c id req =>
    match s.requireManageDashboard c id with
    | none => s
    | some _ =>
      match req.validate with
      | .error _ => s
      -- the team is immutable, and that of the request ignored
      | .ok settings => s.put call (.checked { caller := c, keep := some id, settings := settings })
  | .deleteDashboard c id =>
    match s.requireManageDashboard c id with
    | none => s
    | some _ => s.put call (.deleting c id)

/-- The next row of `clearDefaults`, if it is still one of those it clears. -/
def clearRow (call : Nat) (w : Write) (tx : Tx) (id : UUID) (rest : List UUID) : State :=
  if s.HeldByOther call id then s
  else
    match s.rows.find? fun d => d.id = id ∧ d.clearedBy w.caller.orgID w.keep with
    | none => s.put call (.clearing w tx rest)
    | some d => s.put call (.clearing w { tx with cleared := d.clear s.now :: tx.cleared } rest)

/-- The `INSERT` of `Create`, or the `UPDATE` of `Update`. -/
def writeRow (call : Nat) (w : Write) (tx : Tx) : State :=
  match w.keep with
  | none =>
    let d : Dashboard := {
      toSettings := w.settings
      id := s.nextID
      organizationID := w.caller.orgID
      groupID := w.groupID
      updatedAt := s.now }
    { s with nextID := s.nextID + 1 }.put call (.items w { tx with row := some d })
  | some id =>
    if s.HeldByOther call id then s
    else
      match s.rows.find? fun d => d.organizationID = w.caller.orgID ∧ d.id = id with
      | none => s.done call
      | some d =>
        s.put call (.items w { tx with row := some (d.update s.now w.settings) })

def commit (call : Nat) (c : Caller) (tx : Tx) : State :=
  { s with
    rows := s.rows.filter (fun d => d.id ∉ tx.ids) ++ tx.written
    calls := s.calls.drop call
    changes := (s.rows.filter fun d => d.id ∈ tx.ids).map (fun d => (c, d)) ++ s.changes }

/-- `Delete`. -/
def deleteRow (call : Nat) (c : Caller) (id : UUID) : State :=
  if s.HeldByOther call id then s
  else
    let deleted (d : Dashboard) : Bool := d.organizationID = c.orgID && d.id = id
    { s with
      rows := s.rows.filter fun d => !deleted d
      calls := s.calls.drop call
      changes := (s.rows.filter deleted).map (fun d => (c, d)) ++ s.changes }

def next (call : Nat) : Stage → State
  | .checked w =>
    if w.settings.isDefault then
      s.put call (.clearing w {} ((s.rows.filter fun d =>
        d.clearedBy w.caller.orgID w.keep).map Dashboard.id))
    else s.put call (.writing w {})
  | .clearing w tx [] => s.put call (.writing w tx)
  | .clearing w tx (id :: rest) => clearRow s call w tx id rest
  | .writing w tx => writeRow s call w tx
  | .items w tx => s.put call (.committing w tx)
  | .committing w tx => commit s call w.caller tx
  | .deleting c id => deleteRow s call c id

def step (s : State) : Action → State
  | .begin call r =>
    -- every request has a number of its own
    if (s.calls.stage? call).isSome then s else begin groupOrg s call r
  | .next call ok =>
    match s.calls.stage? call with
    | none => s
    | some st => if ok then next s call st else s.done call
  | .tick => { s with now := s.now + 1 }

end Steps

/-! ## Writes stay in their scope -/

/-- The table before the requests. -/
structure Table where
  rows : List Dashboard
  ids : (rows.map Dashboard.id).Nodup
  one : OneDefault rows

def nextID (rows : List Dashboard) : Nat := rows.foldr (fun d n => max (d.id + 1) n) 0

def Table.start (t : Table) : State := { rows := t.rows, nextID := nextID t.rows }

/-- One default, and no dashboard changed by who may not manage it. -/
structure InScope (s : State) : Prop where
  one : OneDefault s.rows
  managed : ∀ x ∈ s.changes, x.1.Manages (scopeOf x.2)

/-- A clearing update takes the flag only from dashboards that the caller may manage; and when
a transaction commits a default, every other default of the organization and owner is one that
its clearing update has reached. -/
def Undisturbed (s : State) : Stage → Prop
  | .clearing w _ (id :: _) => ∀ d ∈ s.rows, d.id = id → d.clearedBy w.caller.orgID w.keep →
      w.caller.Manages (scopeOf d)
  | .committing _ tx => ∀ r ∈ tx.row, r.isDefault → ∀ d ∈ s.rows, d.isDefault →
      d.SameOwner r → d.id ∈ tx.ids
  | _ => True

instance (s : State) : DecidablePred (Undisturbed s) := fun st => by
  match st with
  | .checked _ | .clearing _ _ [] | .writing _ _ | .items _ _ | .deleting _ _ =>
    exact isTrue trivial
  | .clearing _ _ (_ :: _) | .committing _ _ =>
    unfold Undisturbed
    infer_instance

def StepUndisturbed (s : State) : Action → Prop
  | .next call true => ∀ st ∈ s.calls.stage? call, Undisturbed s st
  | _ => True

instance (s : State) : DecidablePred (StepUndisturbed s) := fun a => by
  match a with
  | .begin _ _ | .next _ false | .tick => exact isTrue trivial
  | .next call true =>
    unfold StepUndisturbed
    infer_instance

/-! ## Scopes are fixed -/

/-- The caller may write what the transaction is asked for. -/
def Write.Allowed (scope : UUID → UUID × Option UUID) (n : Nat) (w : Write) : Prop :=
  match w.keep with
  | none => w.caller.Manages (w.caller.orgID, w.groupID)
  | some id => id < n ∧ w.caller.Manages (scope id)

/-- The caller may write what the transaction has written; what it has cleared is no default. -/
structure Tx.InScope (scope : UUID → UUID × Option UUID) (n : Nat) (c : Caller) (tx : Tx) :
    Prop where
  written : ∀ d ∈ tx.written, d.id < n ∧ scope d.id = scopeOf d ∧ c.Manages (scopeOf d)
  cleared : ∀ d ∈ tx.cleared, d.isDefault = false

def Stage.InScope (scope : UUID → UUID × Option UUID) (n : Nat) : Stage → Prop
  | .checked w => w.Allowed scope n
  | .clearing w tx _ | .writing w tx => w.Allowed scope n ∧ tx.InScope scope n w.caller
  | .items w tx | .committing w tx => tx.InScope scope n w.caller
  | .deleting c id => id < n ∧ c.Manages (scope id)

/-- What holds between two statements: a dashboard keeps its organization and team, so that who
was allowed to write it still is. -/
structure Scoped (scope : UUID → UUID × Option UUID) (s : State) : Prop where
  rows : ∀ d ∈ s.rows, d.id < s.nextID ∧ scope d.id = scopeOf d
  stages : s.calls.All (Stage.InScope scope s.nextID)

section Lemmas

variable {groupOrg : UUID → Option UUID} {scope : UUID → UUID × Option UUID} {s : State}
  {call : Nat} {st : Stage} {w : Write} {tx : Tx} {c : Caller}

theorem manages_of_mayCreate {groupID : Option UUID} (h : mayCreate groupOrg c groupID) :
    c.Manages (c.orgID, groupID) := by
  refine ⟨rfl, ?_⟩
  unfold mayCreate at h
  unfold canManageTeamScoped
  rw [Bool.and_eq_true] at h
  cases hw : c.access.orgWrite with
  | true => rfl
  | false =>
    rw [hw, Bool.false_or] at h
    cases groupID with
    | none => exact absurd h.1 Bool.false_ne_true
    | some g => exact h.1

/-- Who passes `requireManageDashboard` manages the dashboard. -/
theorem manages_of_require {id : UUID} {d : Dashboard}
    (h : s.requireManageDashboard c id = some d) :
    d ∈ s.rows ∧ d.id = id ∧ c.Manages (scopeOf d) := by
  unfold State.requireManageDashboard at h
  split at h
  · cases h
  · next d' hfind =>
    have hmem := List.mem_of_find?_eq_some hfind
    have hp := List.find?_some hfind
    simp only [decide_eq_true_eq] at hp
    split at h
    · next hmay =>
      obtain rfl := Option.some.inj h
      rw [Bool.and_eq_true] at hmay
      exact ⟨hmem, hp.2, hp.1, hmay.2⟩
    · cases h

theorem Stage.InScope.mono {scope' : UUID → UUID × Option UUID} {n n' : Nat} (hle : n ≤ n')
    (hsame : ∀ i < n, scope' i = scope i) (h : st.InScope scope n) : st.InScope scope' n' := by
  have hwrite (w : Write) (hw : w.Allowed scope n) : w.Allowed scope' n' := by
    unfold Write.Allowed at hw ⊢
    cases hk : w.keep with
    | none =>
      rw [hk] at hw
      exact hw
    | some id =>
      simp only [hk] at hw ⊢
      exact ⟨Nat.lt_of_lt_of_le hw.1 hle, by rw [hsame id hw.1]; exact hw.2⟩
  have htx (c : Caller) (tx : Tx) (ht : tx.InScope scope n c) : tx.InScope scope' n' c :=
    { written := fun d hd => by
        have ⟨hlt, heq, hm⟩ := ht.written d hd
        exact ⟨Nat.lt_of_lt_of_le hlt hle, (hsame d.id hlt).trans heq, hm⟩
      cleared := ht.cleared }
  cases st with
  | checked w => exact hwrite w h
  | clearing w tx rest => exact ⟨hwrite w h.1, htx _ tx h.2⟩
  | writing w tx => exact ⟨hwrite w h.1, htx _ tx h.2⟩
  | items w tx => exact htx _ tx h
  | committing w tx => exact htx _ tx h
  | deleting c id =>
    exact ⟨Nat.lt_of_lt_of_le h.1 hle, by rw [hsame id h.1]; exact h.2⟩

theorem Scoped.put (h : Scoped scope s) (call : Nat) (hst : st.InScope scope s.nextID) :
    Scoped scope (s.put call st) where
  rows := h.rows
  stages := h.stages.put call hst

theorem Scoped.done (h : Scoped scope s) (call : Nat) : Scoped scope (s.done call) where
  rows := h.rows
  stages := h.stages.drop call

theorem Scoped.begin (h : Scoped scope s) (call : Nat) (r : Request) :
    Scoped scope (begin groupOrg s call r) := by
  -- who manages the row of an id manages its scope
  have hscope {c : Caller} {id : UUID} {d : Dashboard}
      (hreq : s.requireManageDashboard c id = some d) : id < s.nextID ∧ c.Manages (scope id) := by
    have ⟨hmem, hid, hm⟩ := manages_of_require hreq
    have ⟨hlt, heq⟩ := h.rows d hmem
    rw [hid] at hlt heq
    exact ⟨hlt, heq ▸ hm⟩
  cases r with
  | createDashboard c req =>
    simp only [Dashboards.begin]
    split
    · next hmay =>
      split
      · exact h
      · exact h.put call (manages_of_mayCreate hmay)
    · exact h
  | updateDashboard c id req =>
    simp only [Dashboards.begin]
    split
    · exact h
    · next hreq =>
      split
      · exact h
      · exact h.put call (hscope hreq)
  | deleteDashboard c id =>
    simp only [Dashboards.begin]
    split
    · exact h
    · next hreq => exact h.put call (hscope hreq)

theorem Scoped.clearRow (h : Scoped scope s) {id : UUID} {rest : List UUID}
    (hst : (Stage.clearing w tx (id :: rest)).InScope scope s.nextID)
    (hcond : Undisturbed s (.clearing w tx (id :: rest))) :
    Scoped scope (clearRow s call w tx id rest) := by
  unfold Dashboards.clearRow
  split
  · exact h
  split
  · exact h.put call hst
  · next d hfind =>
    have hmem := List.mem_of_find?_eq_some hfind
    have hp := List.find?_some hfind
    simp only [decide_eq_true_eq] at hp
    have ⟨hlt, heq⟩ := h.rows d hmem
    refine h.put call ⟨hst.1, { written := fun x hx => ?_, cleared := fun x hx => ?_ }⟩
    · cases List.mem_cons.1 hx with
      | inl hnew =>
        rw [hnew]
        exact ⟨hlt, heq, hcond d hmem hp.1 hp.2⟩
      | inr hold => exact hst.2.written x hold
    · cases List.mem_cons.1 hx with
      | inl hnew =>
        rw [hnew]
        rfl
      | inr hold => exact hst.2.cleared x hold

theorem Tx.InScope.row {n : Nat} {d : Dashboard} (h : tx.InScope scope n c) (hlt : d.id < n)
    (heq : scope d.id = scopeOf d) (hm : c.Manages (scopeOf d)) :
    Tx.InScope scope n c { tx with row := some d } where
  written x hx := by
    cases List.mem_append.1 hx with
    | inl hold => exact h.written x (List.mem_append_left _ hold)
    | inr hnew =>
      rw [List.mem_singleton.1 hnew]
      exact ⟨hlt, heq, hm⟩
  cleared := h.cleared

theorem Scoped.writeRow (h : Scoped scope s) (hst : (Stage.writing w tx).InScope scope s.nextID) :
    ∃ scope', Scoped scope' (writeRow s call w tx) := by
  have ⟨hallowed, htx⟩ := hst
  unfold Write.Allowed at hallowed
  unfold Dashboards.writeRow
  cases hk : w.keep with
  | none =>
    simp only [hk] at hallowed ⊢
    refine ⟨Function.update scope s.nextID (w.caller.orgID, w.groupID), ?_⟩
    have hsame : ∀ i < s.nextID,
        Function.update scope s.nextID (w.caller.orgID, w.groupID) i = scope i :=
      fun i hi => Function.update_of_ne (Nat.ne_of_lt hi) _ _
    have hnew : Scoped (Function.update scope s.nextID (w.caller.orgID, w.groupID))
        { s with nextID := s.nextID + 1 } :=
      { rows := fun d hd =>
          ⟨Nat.lt_succ_of_lt (h.rows d hd).1, (hsame d.id (h.rows d hd).1).trans (h.rows d hd).2⟩
        stages := h.stages.imp fun st hst => hst.mono (Nat.le_succ _) hsame }
    have htx' : (Stage.items w tx).InScope
        (Function.update scope s.nextID (w.caller.orgID, w.groupID)) (s.nextID + 1) :=
      @Stage.InScope.mono _ (.items w tx) _ _ _ (Nat.le_succ _) hsame htx
    refine hnew.put call (Tx.InScope.row htx' (Nat.lt_succ_self _) ?_ hallowed)
    exact Function.update_self _ _ _
  | some id =>
    simp only [hk] at hallowed ⊢
    refine ⟨scope, ?_⟩
    split
    · exact h
    split
    · exact h.done call
    · next d hfind =>
      have hp := List.find?_some hfind
      simp only [decide_eq_true_eq] at hp
      have ⟨hlt, heq⟩ := h.rows d (List.mem_of_find?_eq_some hfind)
      refine h.put call (htx.row hlt heq ?_)
      have hm := hallowed.2
      rw [← hp.2, heq] at hm
      exact hm

theorem Scoped.commit (h : Scoped scope s)
    (htx : tx.InScope scope s.nextID c) : Scoped scope (commit s call c tx) where
  rows d hd := by
    cases List.mem_append.1 hd with
    | inl hold => exact h.rows d (List.mem_filter.1 hold).1
    | inr hnew => exact ⟨(htx.written d hnew).1, (htx.written d hnew).2.1⟩
  stages := h.stages.drop call

theorem Scoped.deleteRow (h : Scoped scope s) (id : UUID) :
    Scoped scope (deleteRow s call c id) := by
  unfold Dashboards.deleteRow
  split
  · exact h
  · exact {
      rows := fun d hd => h.rows d (List.mem_filter.1 hd).1
      stages := h.stages.drop call }

theorem Scoped.next (h : Scoped scope s) (hstage : s.calls.stage? call = some st)
    (hcond : Undisturbed s st) : ∃ scope', Scoped scope' (next s call st) := by
  have hst := h.stages.of_stage? hstage
  cases st with
  | checked w =>
    have hnone (c : Caller) : Tx.InScope scope s.nextID c {} :=
      { written := fun _ hd => (nomatch hd), cleared := fun _ hd => (nomatch hd) }
    refine ⟨scope, ?_⟩
    simp only [Dashboards.next]
    split
    · exact h.put call ⟨hst, hnone _⟩
    · exact h.put call ⟨hst, hnone _⟩
  | clearing w tx rest =>
    cases rest with
    | nil => exact ⟨scope, h.put call hst⟩
    | cons id rest => exact ⟨scope, h.clearRow hst hcond⟩
  | writing w tx => exact h.writeRow hst
  | items w tx => exact ⟨scope, h.put call hst⟩
  | committing w tx => exact ⟨scope, h.commit hst⟩
  | deleting c id => exact ⟨scope, h.deleteRow id⟩

theorem Scoped.step (h : Scoped scope s) {a : Action} (hcond : StepUndisturbed s a) :
    ∃ scope', Scoped scope' (step groupOrg s a) := by
  cases a with
  | begin call r =>
    refine ⟨scope, ?_⟩
    simp only [Dashboards.step]
    split
    · exact h
    · exact h.begin call r
  | next call ok =>
    simp only [Dashboards.step]
    cases hstage : s.calls.stage? call with
    | none => exact ⟨scope, h⟩
    | some st =>
      cases ok with
      | true => exact h.next hstage (hcond st hstage)
      | false => exact ⟨scope, h.done call⟩
  | tick => exact ⟨scope, { rows := h.rows, stages := h.stages }⟩

/-! ## One default, and no others touched -/

theorem InScope.commit (h : InScope s) (hs : Scoped scope s)
    (htx : tx.InScope scope s.nextID c) (hcond : Undisturbed s (.committing w tx)) :
    InScope (commit s call c tx) where
  one := by
    -- a default that it has written is its own row
    have hown : ∀ d ∈ tx.written, d.isDefault → d ∈ tx.row := by
      intro d hd hdef
      cases List.mem_append.1 hd with
      | inl hcleared => exact absurd (hdef.symm.trans (htx.cleared d hcleared)) (by decide)
      | inr hrow => exact Option.mem_toList.1 hrow
    refine List.pairwise_append.2 ⟨h.one.sublist List.filter_sublist, ?_, ?_⟩
    · refine List.pairwise_append.2 ⟨?_, ?_, ?_⟩
      · refine List.Pairwise.imp_of_mem (R := fun _ _ => True) (fun hd _ _ hdef => ?_)
          (List.pairwise_of_forall fun _ _ => trivial)
        exact absurd (hdef.symm.trans (htx.cleared _ hd)) (by decide)
      · cases tx.row with
        | none => exact List.Pairwise.nil
        | some r => exact List.pairwise_singleton _ r
      · intro d hd d' _ hdef
        exact absurd (hdef.symm.trans (htx.cleared d hd)) (by decide)
    · intro d hd d' hd' hdef hdef' hsame
      have ⟨hmem, hkept⟩ := List.mem_filter.1 hd
      have hin := hcond d' (hown d' hd' hdef') hdef' d hmem hdef hsame
      exact of_decide_eq_true hkept hin
  managed x hx := by
    cases List.mem_append.1 hx with
    | inl hnew =>
      obtain ⟨d, hd, rfl⟩ := List.mem_map.1 hnew
      have ⟨hmem, hin⟩ := List.mem_filter.1 hd
      -- the row it has written of this id is of the same organization and team
      obtain ⟨d', hd', hid⟩ := List.mem_map.1 (of_decide_eq_true hin)
      have ⟨_, heq, hm⟩ := htx.written d' hd'
      have hscope : scopeOf d = scopeOf d' := by
        rw [← (hs.rows d hmem).2, ← heq, hid]
      change c.Manages (scopeOf d)
      rw [hscope]
      exact hm
    | inr hold => exact h.managed x hold

theorem InScope.deleteRow (h : InScope s) (hs : Scoped scope s) {id : UUID}
    (hst : (Stage.deleting c id).InScope scope s.nextID) : InScope (deleteRow s call c id) := by
  unfold Dashboards.deleteRow
  split
  · exact h
  refine { one := h.one.sublist List.filter_sublist, managed := fun x hx => ?_ }
  cases List.mem_append.1 hx with
  | inl hnew =>
    obtain ⟨d, hd, rfl⟩ := List.mem_map.1 hnew
    have ⟨hmem, hdel⟩ := List.mem_filter.1 hd
    rw [Bool.and_eq_true] at hdel
    change c.Manages (scopeOf d)
    rw [← (hs.rows d hmem).2, of_decide_eq_true hdel.2]
    exact hst.2
  | inr hold => exact h.managed x hold

theorem InScope.next (h : InScope s) (hs : Scoped scope s) (hstage : s.calls.stage? call = some st)
    (hcond : Undisturbed s st) : InScope (next s call st) := by
  have hput (st' : Stage) : InScope (s.put call st') := { one := h.one, managed := h.managed }
  cases st with
  | checked w =>
    simp only [Dashboards.next]
    split
    · exact hput _
    · exact hput _
  | clearing w tx rest =>
    cases rest with
    | nil => exact hput _
    | cons id rest =>
      simp only [Dashboards.next, Dashboards.clearRow]
      split
      · exact h
      · split
        · exact hput _
        · exact hput _
  | writing w tx =>
    simp only [Dashboards.next, Dashboards.writeRow]
    split
    · exact { one := h.one, managed := h.managed }
    split
    · exact h
    · split
      · exact { one := h.one, managed := h.managed }
      · exact hput _
  | items w tx => exact hput _
  | committing w tx => exact h.commit hs (hs.stages.of_stage? hstage) hcond
  | deleting c id => exact h.deleteRow hs (hs.stages.of_stage? hstage)

theorem InScope.step (h : InScope s) (hs : Scoped scope s) {a : Action}
    (hcond : StepUndisturbed s a) : InScope (step groupOrg s a) := by
  cases a with
  | begin call r =>
    simp only [Dashboards.step]
    split
    · exact h
    cases r with
    | createDashboard c req =>
      simp only [Dashboards.begin]
      split
      · split
        · exact h
        · exact { one := h.one, managed := h.managed }
      · exact h
    | updateDashboard c id req =>
      simp only [Dashboards.begin]
      split
      · exact h
      · split
        · exact h
        · exact { one := h.one, managed := h.managed }
    | deleteDashboard c id =>
      simp only [Dashboards.begin]
      split
      · exact h
      · exact { one := h.one, managed := h.managed }
  | next call ok =>
    simp only [Dashboards.step]
    cases hstage : s.calls.stage? call with
    | none => exact h
    | some st =>
      cases ok with
      | true => exact h.next hs hstage (hcond st hstage)
      | false => exact { one := h.one, managed := h.managed }
  | tick => exact { one := h.one, managed := h.managed }

end Lemmas

theorem lt_nextID {rows : List Dashboard} {d : Dashboard} (h : d ∈ rows) : d.id < nextID rows := by
  induction rows with
  | nil => cases h
  | cons r rows ih =>
    change d.id < max (r.id + 1) (nextID rows)
    cases List.mem_cons.1 h with
    | inl heq =>
      rw [heq]
      exact Nat.lt_of_lt_of_le (Nat.lt_succ_self r.id) (Nat.le_max_left _ _)
    | inr hold => exact Nat.lt_of_lt_of_le (ih hold) (Nat.le_max_right _ _)

theorem Table.scoped_start (t : Table) :
    Scoped (fun id => ((t.rows.find? fun d => d.id = id).map scopeOf).getD (0, none)) t.start where
  rows d hd := by
    refine ⟨lt_nextID hd, ?_⟩
    have hfind : t.rows.find? (fun d' => d'.id = d.id) = some d :=
      (find?_key_eq_some t.ids).2 ⟨hd, rfl⟩
    simp only [hfind]
    rfl
  stages := InProgress.all_empty _

/-- **Dashboard writes stay in their scope** in every run in which no clearing update reaches a
dashboard that its caller may not manage, and no transaction commits a default beside one that
its clearing update has not reached. -/
theorem inScope_of_undisturbed {groupOrg : UUID → Option UUID} {t : Table} {as : List Action}
    (h : StepsMeet (step groupOrg) StepUndisturbed t.start as) :
    InScope (run (step groupOrg) t.start as) := by
  have hboth : (∃ scope, Scoped scope (run (step groupOrg) t.start as)) ∧
      InScope (run (step groupOrg) t.start as) :=
    h.invariant (I := fun s => (∃ scope, Scoped scope s) ∧ InScope s)
      (fun s a hs hcond => by
        have ⟨⟨scope, hscoped⟩, hin⟩ := hs
        exact ⟨hscoped.step hcond, hin.step hscoped hcond⟩)
      ⟨⟨_, t.scoped_start⟩, { one := t.one, managed := fun _ hx => nomatch hx }⟩
  exact hboth.2

/-! The dashboard that a fresh cell has, and one of team 5. -/

private def allIntegrations : Dashboard where
  name := "All integrations"
  isDefault := true
  autoIncludeAll := true
  defaultWidgetType := .trafficSparkline
  position := 0
  environments := []
  includeRule := none
  id := 0
  organizationID := 1

private def payments : Dashboard :=
  { allIntegrations with name := "Payments", isDefault := false, id := 1, groupID := some 5 }

private def fresh : Table where
  rows := [allIntegrations, payments]
  ids := by decide
  one := by decide

private def orgEditor : Caller := { orgID := 1, access := { orgWrite := true } }

private def teamEditor : Caller :=
  { orgID := 1, access := { orgWrite := false, roles := [(5, .editor)] } }

private def makeDefault (name : String) : DashboardRequest := { name := name, isDefault := true }

private def whole (call : Nat) (r : Request) (n : Nat) : List Action :=
  .begin call r :: List.replicate n (.next call true)

theorem inScope_orgEditor :
    InScope (run (step fun _ => some 1) fresh.start
      (whole 1 (.updateDashboard orgEditor 1 (makeDefault "Payments")) 6 ++
        whole 2 (.createDashboard orgEditor (makeDefault "Orders")) 6)) :=
  inScope_of_undisturbed (by decide +kernel)

/-- A team's editor takes the flag from the organization's default; and of two requests whose
clearing updates pass each other both leave a default. -/
theorem not_inScope :
    ¬ InScope (run (step fun _ => some 1) fresh.start
      (whole 1 (.updateDashboard teamEditor 1 (makeDefault "Payments")) 6)) ∧
    ¬ InScope (run (step fun _ => some 1) fresh.start
      ([.begin 1 (.createDashboard orgEditor (makeDefault "Orders")),
        .begin 2 (.createDashboard orgEditor (makeDefault "Invoices"))] ++
        (List.replicate 6 [.next 1 true, .next 2 true]).flatten ++
        List.replicate 4 (.next 2 true))) := by
  constructor
  · intro h
    have hmanaged := h.managed
    revert hmanaged
    decide +kernel
  · intro h
    have hone := h.one
    revert hone
    decide +kernel

end Sluicio.Api.Dashboards
