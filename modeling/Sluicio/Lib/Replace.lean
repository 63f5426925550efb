import Sluicio.Lib.InProgress
import Sluicio.Lib.Run

/-!
# Replacing a collection in a transaction

A transaction replaces a collection of rows: it deletes what is there and inserts what it was
asked for.  Transactions run statement by statement under read committed.  A `DELETE` takes
the rows that were committed when it started, one after the other; it waits for a row that
another transaction has written, and skips one that is gone by then.  An `INSERT` into a table
with a unique key waits for a row of that key which another transaction has written, and then
fails, or overwrites the row.  What a transaction writes is seen by nobody before its commit.

A table may have its writers lock the owner first; then they run one after the other.
-/

namespace Sluicio.Lib.Replace

open InProgress

/-- What an `INSERT` does about a row of the same key: nothing, as there is no unique key; it
fails; or it overwrites the row. -/
inductive OnConflict where
  | insert | fail | update
  deriving DecidableEq

/-- A table, and whether who replaces the rows of an owner locks the owner first. -/
structure Table (α κ : Type*) where
  key : α → κ
  onConflict : OnConflict
  locks : Bool

structure Row (α : Type*) where
  id : Nat
  data : α
  deriving DecidableEq

/-- What a transaction was asked for, saw when its `DELETE` started, and has written. -/
structure Tx (α : Type*) where
  asked : List α
  snapshot : List Nat
  deleted : List Nat := []
  written : List (Row α) := []
  deriving DecidableEq

def Tx.held {α : Type*} (tx : Tx α) : List Nat := tx.deleted ++ tx.written.map Row.id

inductive Stage (α : Type*) where
  | begun (asked : List α)
  /-- the owner was found, and is locked if the table locks -/
  | ready (asked : List α)
  | deleting (tx : Tx α) (rest : List Nat)
  | inserting (tx : Tx α) (todo : List α)
  deriving DecidableEq

def Stage.tx? {α : Type*} : Stage α → Option (Tx α)
  | .begun _ | .ready _ => none
  | .deleting tx _ | .inserting tx _ => some tx

/-- The rows that nobody else can write. -/
def Stage.held {α : Type*} (st : Stage α) : List Nat := (st.tx?.map Tx.held).getD []

def Stage.written {α : Type*} (st : Stage α) : List (Row α) := (st.tx?.map Tx.written).getD []

def Stage.snapshot {α : Type*} (st : Stage α) : List Nat := (st.tx?.map Tx.snapshot).getD []

/-- The rows that the `DELETE` has not come to. -/
def Stage.rest {α : Type*} : Stage α → List Nat
  | .deleting _ rest => rest
  | _ => []

/-- The transaction has the owner's lock, on a table that locks. -/
def Stage.hasLock {α : Type*} : Stage α → Bool
  | .begun _ => false
  | _ => true

structure State (α : Type*) where
  rows : List (Row α)
  nextID : Nat
  calls : InProgress (Stage α) := ∅
  /-- what the transactions were asked for that have committed, the last one first -/
  committed : List (List α) := []
  failed : Nat := 0

inductive Action (α : Type*) where
  | begin (call : Nat) (asked : List α)
  /-- the next statement of a transaction, or the next row of its `DELETE`: it goes through,
  unless it has to wait, or fails -/
  | next (call : Nat) (ok : Bool)

section Steps

variable {α κ : Type*} [DecidableEq κ] (t : Table α κ) (s : State α)

def State.put (call : Nat) (st : Stage α) : State α := { s with calls := s.calls.put call st }

/-- The transaction is rolled back. -/
def State.rollback (call : Nat) : State α :=
  { s with calls := s.calls.drop call, failed := s.failed + 1 }

def State.commit (call : Nat) (tx : Tx α) : State α :=
  { s with
    rows := s.rows.filter (fun r => r.id ∉ tx.held) ++ tx.written
    calls := s.calls.drop call
    committed := tx.asked :: s.committed }

/-- Another transaction has written the row. -/
def State.HeldByOther (call id : Nat) : Prop :=
  ∃ c ∈ s.calls.calls, c.1 ≠ call ∧ id ∈ c.2.held

/-- Another transaction has written a row of this key. -/
def State.KeyHeldByOther (call : Nat) (k : κ) : Prop :=
  ∃ c ∈ s.calls.calls, c.1 ≠ call ∧ ∃ r ∈ c.2.written, t.key r.data = k

instance (call id : Nat) : Decidable (s.HeldByOther call id) := by
  unfold State.HeldByOther
  infer_instance

instance (call : Nat) (k : κ) : Decidable (s.KeyHeldByOther t call k) := by
  unfold State.KeyHeldByOther
  infer_instance

/-- The transaction's rows, with one of this id more. -/
def Tx.insert (tx : Tx α) (id : Nat) (x : α) : Tx α :=
  { tx with written := tx.written ++ [⟨id, x⟩] }

/-- The transaction's row of the key is overwritten. -/
def Tx.overwrite (tx : Tx α) (x : α) : Tx α :=
  { tx with
    written := updateWhere (fun r => t.key r.data = t.key x) (fun r => { r with data := x })
      tx.written }

def State.insertNew (call : Nat) (tx : Tx α) (x : α) (todo : List α) : State α :=
  { s with
    nextID := s.nextID + 1
    calls := s.calls.put call (.inserting (tx.insert s.nextID x) todo) }

/-- One `INSERT`. -/
def insert (call : Nat) (tx : Tx α) (x : α) (todo : List α) : State α :=
  if t.onConflict = .insert then s.insertNew call tx x todo
  else if tx.written.any fun r => t.key r.data = t.key x then
    if t.onConflict = .fail then s.rollback call
    else s.put call (.inserting (tx.overwrite t x) todo)
  else if s.KeyHeldByOther t call (t.key x) then s
  else
    match s.rows.find? fun r => t.key r.data = t.key x ∧ r.id ∉ tx.deleted with
    | none => s.insertNew call tx x todo
    | some r =>
      if s.HeldByOther call r.id then s
      else if t.onConflict = .fail then s.rollback call
      else s.put call (.inserting (tx.insert r.id x) todo)

/-- The next row of the `DELETE`. -/
def deleteRow (call : Nat) (tx : Tx α) (id : Nat) (rest : List Nat) : State α :=
  if s.HeldByOther call id then s
  else if id ∈ s.rows.map Row.id then
    s.put call (.deleting { tx with deleted := id :: tx.deleted } rest)
  else s.put call (.deleting tx rest)

def next (call : Nat) : Stage α → State α
  | .begun asked =>
    -- only one transaction has the lock
    if t.locks && s.calls.calls.any fun c => c.2.hasLock then s else s.put call (.ready asked)
  | .ready asked =>
    let seen := s.rows.map Row.id
    s.put call (.deleting { asked := asked, snapshot := seen } seen)
  | .deleting tx [] => s.put call (.inserting tx tx.asked)
  | .deleting tx (id :: rest) => deleteRow s call tx id rest
  | .inserting tx (x :: todo) => insert t s call tx x todo
  | .inserting tx [] => s.commit call tx

def step (s : State α) : Action α → State α
  | .begin call asked =>
    -- every transaction has a number of its own
    if (s.calls.stage? call).isSome then s else s.put call (.begun asked)
  | .next call ok =>
    match s.calls.stage? call with
    | none => s
    | some st => if ok then next t s call st else s.rollback call

end Steps

/-! ## What a replacement is for -/

section Spec

variable {α κ : Type*} [DecidableEq κ] (t : Table α κ)

/-- The rows that one transaction alone leaves: with an overwriting `INSERT` the last of each
key. -/
def Table.resolve (asked : List α) : List α :=
  match t.onConflict with
  | .update =>
    asked.foldl (fun kept x => upsert (fun y => t.key y = t.key x) (fun _ => x) x kept) []
  | _ => asked

/-- What is stored is what one of the transactions that have committed asked for, and what was
there when none has. -/
structure Replaced (initial : List α) (s : State α) : Prop where
  none : s.committed = [] → s.rows.map Row.data = initial
  one : s.committed ≠ [] → ∃ asked ∈ s.committed, (s.rows.map Row.data).Perm (t.resolve asked)

/-- A transaction commits when every row of the collection is one that was there when its
`DELETE` started, or one that it has overwritten: nobody has committed another one since. -/
def SawAll (s : State α) : Action α → Prop
  | .next call true => ∀ st ∈ s.calls.stage? call, ∀ tx ∈ st.tx?, st = .inserting tx [] →
      ∀ r ∈ s.rows, r.id ∈ tx.snapshot ∨ r.id ∈ tx.written.map Row.id
  | _ => True

instance [DecidableEq α] (s : State α) : DecidablePred (SawAll s) := fun a => by
  match a with
  | .begin _ _ => exact isTrue trivial
  | .next _ false => exact isTrue trivial
  | .next call true =>
    unfold SawAll
    infer_instance

/-- The collection before the transactions, its rows numbered. -/
def start (initial : List α) : State α where
  rows := initial.zipIdx.map fun p => ⟨p.2, p.1⟩
  nextID := initial.length

end Spec

/-! ## What a transaction writes -/

section Lemmas

variable {α κ : Type*} [DecidableEq κ] {t : Table α κ} {s : State α} {call : Nat} {tx : Tx α}
  {x : α} {todo : List α}

@[simp] theorem held_insert (id : Nat) : (tx.insert id x).held = tx.held ++ [id] := by
  simp [Tx.held, Tx.insert]

@[simp] theorem held_overwrite : (tx.overwrite t x).held = tx.held := by
  simp only [Tx.held, Tx.overwrite]
  rw [map_updateWhere (f := fun r : Row α => { r with data := x }) (fun _ => rfl)]

theorem resolve_nil : t.resolve [] = [] := by
  unfold Table.resolve
  split <;> rfl

theorem written_insert {asked : List α} (h : tx.written.map Row.data = t.resolve asked)
    (hnew : t.onConflict = .insert ∨
      (tx.written.any fun r => t.key r.data = t.key x) = false) (id : Nat) :
    (tx.insert id x).written.map Row.data = t.resolve (asked ++ [x]) := by
  have hwritten : (tx.insert id x).written.map Row.data = t.resolve asked ++ [x] := by
    rw [← h]
    simp [Tx.insert]
  rw [hwritten]
  unfold Table.resolve at h ⊢
  cases hc : t.onConflict with
  | insert => rfl
  | fail => rfl
  | update =>
    simp only [hc] at h ⊢
    have hnone : ((asked.foldl (fun kept x => upsert (fun y => t.key y = t.key x) (fun _ => x) x
        kept) []).any fun y => t.key y = t.key x) = false := by
      rw [← h, List.any_map]
      simpa [hc] using hnew
    rw [List.foldl_append, List.foldl_cons, List.foldl_nil, upsert, hnone]
    rfl

theorem written_overwrite {asked : List α} (h : tx.written.map Row.data = t.resolve asked)
    (hc : t.onConflict = .update) (hold : (tx.written.any fun r => t.key r.data = t.key x)) :
    (tx.overwrite t x).written.map Row.data = t.resolve (asked ++ [x]) := by
  unfold Table.resolve at h ⊢
  simp only [hc] at h ⊢
  rw [List.foldl_append, List.foldl_cons, List.foldl_nil, ← h, upsert, List.any_map]
  rw [show (tx.written.any ((fun y => decide (t.key y = t.key x)) ∘ Row.data)) = true from hold]
  simp only [if_true, Tx.overwrite, updateWhere, List.map_map]
  refine List.map_congr_left fun r _ => ?_
  simp only [Function.comp_apply]
  split <;> rfl

/-- A step changes neither the rows nor what has committed, or it is the last statement of a
transaction. -/
theorem step_commits (t : Table α κ) (s : State α) (a : Action α) :
    ((step t s a).rows = s.rows ∧ (step t s a).committed = s.committed) ∨
    ∃ call tx, a = .next call true ∧ s.calls.stage? call = some (.inserting tx []) ∧
      step t s a = s.commit call tx := by
  cases a with
  | begin call asked =>
    left
    simp only [step]
    split <;> exact ⟨rfl, rfl⟩
  | next call ok =>
    simp only [step]
    cases hstage : s.calls.stage? call with
    | none => exact Or.inl ⟨rfl, rfl⟩
    | some st =>
      cases ok with
      | false => exact Or.inl ⟨rfl, rfl⟩
      | true =>
        simp only [if_true]
        cases st with
        | begun asked =>
          left
          simp only [next]
          split <;> exact ⟨rfl, rfl⟩
        | ready asked => exact Or.inl ⟨rfl, rfl⟩
        | deleting tx rest =>
          left
          cases rest with
          | nil => exact ⟨rfl, rfl⟩
          | cons id rest =>
            simp only [next, deleteRow]
            split_ifs <;> exact ⟨rfl, rfl⟩
        | inserting tx todo =>
          cases todo with
          | nil => exact Or.inr ⟨call, tx, rfl, hstage, rfl⟩
          | cons x todo =>
            left
            simp only [next, insert]
            split
            · exact ⟨rfl, rfl⟩
            split
            · split <;> exact ⟨rfl, rfl⟩
            split
            · exact ⟨rfl, rfl⟩
            split
            · exact ⟨rfl, rfl⟩
            · split
              · exact ⟨rfl, rfl⟩
              · split <;> exact ⟨rfl, rfl⟩

theorem rows_step (a : Action α) (h : (step t s a).committed = s.committed) :
    (step t s a).rows = s.rows := by
  cases step_commits t s a with
  | inl hsame => exact hsame.1
  | inr hcommit =>
    have ⟨call, tx, _, _, heq⟩ := hcommit
    rw [heq] at h
    exact absurd h (List.cons_ne_self _ _)

end Lemmas

/-! ## The rows between two statements -/

def Stage.Written {α κ : Type*} [DecidableEq κ] (t : Table α κ) : Stage α → Prop
  | .deleting tx _ => tx.written = []
  | .inserting tx todo =>
    ∃ done, tx.asked = done ++ todo ∧ tx.written.map Row.data = t.resolve done
  | _ => True

/-- What holds between two statements: no row is written by two transactions; the rows that a
`DELETE` saw and that are still there are written by it or to come; and a row that is not
committed yet was seen by none. -/
structure Inv {α κ : Type*} [DecidableEq κ] (t : Table α κ) (s : State α) : Prop where
  rows_lt : ∀ r ∈ s.rows, r.id < s.nextID
  stage_lt : s.calls.All fun st => ∀ id, id ∈ st.held ∨ id ∈ st.snapshot → id < s.nextID
  apart : s.calls.Apart fun st st' => ∀ id ∈ st.held, id ∉ st'.held
  hidden : ∀ c ∈ s.calls.calls, ∀ r ∈ c.2.written, r.id ∉ s.rows.map Row.id →
    s.calls.All fun st => r.id ∉ st.snapshot
  seen : s.calls.All fun st => ∀ r ∈ s.rows, r.id ∈ st.snapshot → r.id ∈ st.rest ∨ r.id ∈ st.held
  written : s.calls.All (Stage.Written t)

section Invariant

variable {α κ : Type*} [DecidableEq κ] {t : Table α κ} {s : State α} {call : Nat} {tx : Tx α}
  {st : Stage α}

theorem mem_held_of_written {r : Row α} (h : r ∈ st.written) : r.id ∈ st.held := by
  cases st with
  | begun asked => cases h
  | ready asked => cases h
  | deleting tx rest => exact List.mem_append_right _ (List.mem_map_of_mem h)
  | inserting tx todo => exact List.mem_append_right _ (List.mem_map_of_mem h)

theorem Inv.rollback (h : Inv t s) (call : Nat) : Inv t (s.rollback call) where
  rows_lt := h.rows_lt
  stage_lt := h.stage_lt.drop call
  apart := h.apart.drop call
  hidden c hc r hr hnot := (h.hidden c (mem_drop.1 hc).1 r hr hnot).drop call
  seen := h.seen.drop call
  written := h.written.drop call

theorem Inv.put (h : Inv t s) (call : Nat)
    (hlt : ∀ id, id ∈ st.held ∨ id ∈ st.snapshot → id < s.nextID)
    (hapart : ∀ c ∈ s.calls.calls, c.1 ≠ call → ∀ id ∈ st.held, id ∉ c.2.held)
    (hmine : ∀ r ∈ st.written, r.id ∉ s.rows.map Row.id →
      r.id ∉ st.snapshot ∧ s.calls.All fun st' => r.id ∉ st'.snapshot)
    (htheirs : ∀ c ∈ s.calls.calls, ∀ r ∈ c.2.written, r.id ∉ s.rows.map Row.id →
      r.id ∉ st.snapshot)
    (hseen : ∀ r ∈ s.rows, r.id ∈ st.snapshot → r.id ∈ st.rest ∨ r.id ∈ st.held)
    (hwritten : st.Written t) : Inv t (s.put call st) where
  rows_lt := h.rows_lt
  stage_lt := h.stage_lt.put call hlt
  apart := h.apart.put fun c hc hne => by
    refine ⟨hapart c hc hne, fun id hid hin => ?_⟩
    exact hapart c hc hne id hin hid
  hidden c hc r hr hnot := by
    cases mem_put.1 hc with
    | inl heq =>
      rw [heq] at hr
      exact (hmine r hr hnot).2.put call (hmine r hr hnot).1
    | inr hold => exact (h.hidden c hold.1 r hr hnot).put call (htheirs c hold.1 r hr hnot)
  seen := h.seen.put call hseen
  written := h.written.put call hwritten

variable {st' : Stage α}

theorem Inv.putSame (h : Inv t s) (hstage : s.calls.stage? call = some st)
    (hheld : st'.held = st.held) (hsnapshot : st'.snapshot = st.snapshot)
    (hids : ∀ r ∈ st'.written, ∃ r₀ ∈ st.written, r₀.id = r.id)
    (hseen : ∀ r ∈ s.rows, r.id ∈ st.snapshot → r.id ∈ st'.rest ∨ r.id ∈ st.held)
    (hwritten : st'.Written t) : Inv t (s.put call st') := by
  have hmem := stage?_eq_some.1 hstage
  refine h.put call ?_ ?_ ?_ ?_ ?_ hwritten
  · rw [hheld, hsnapshot]
    exact h.stage_lt.of_stage? hstage
  · intro c hc hne
    rw [hheld]
    exact h.apart _ hmem c hc (Ne.symm hne)
  · intro r hr hnot
    have ⟨r₀, hr₀, hid⟩ := hids r hr
    rw [← hid] at hnot ⊢
    have hnone := h.hidden _ hmem r₀ hr₀ hnot
    rw [hsnapshot]
    exact ⟨hnone.of_stage? hstage, hnone⟩
  · intro c hc r hr hnot
    rw [hsnapshot]
    exact (h.hidden c hc r hr hnot).of_stage? hstage
  · rw [hheld, hsnapshot]
    exact hseen

theorem Inv.putMore {id : Nat} (h : Inv t s) (hstage : s.calls.stage? call = some st)
    (hlt : id < s.nextID) (hfree : ∀ c ∈ s.calls.calls, c.1 ≠ call → id ∉ c.2.held)
    (hheld : ∀ i, i ∈ st'.held ↔ i = id ∨ i ∈ st.held) (hsnapshot : st'.snapshot = st.snapshot)
    (hids : ∀ r ∈ st'.written, r ∈ st.written ∨
      (r.id = id ∧ (id ∈ s.rows.map Row.id ∨ s.calls.All fun d => id ∉ d.snapshot)))
    (hseen : ∀ r ∈ s.rows, r.id ∈ st.snapshot → r.id ∈ st'.rest ∨ r.id ∈ st'.held)
    (hwritten : st'.Written t) : Inv t (s.put call st') := by
  have hmem := stage?_eq_some.1 hstage
  refine h.put call ?_ ?_ ?_ ?_ ?_ hwritten
  · intro i hi
    rw [hheld, hsnapshot] at hi
    rcases hi with (rfl | hold) | hsnap
    · exact hlt
    · exact h.stage_lt.of_stage? hstage i (Or.inl hold)
    · exact h.stage_lt.of_stage? hstage i (Or.inr hsnap)
  · intro c hc hne i hi
    cases (hheld i).1 hi with
    | inl heq => exact heq ▸ hfree c hc hne
    | inr hold => exact h.apart _ hmem c hc (Ne.symm hne) i hold
  · intro r hr hnot
    rw [hsnapshot]
    cases hids r hr with
    | inl hold =>
      have hnone := h.hidden _ hmem r hold hnot
      exact ⟨hnone.of_stage? hstage, hnone⟩
    | inr hnew =>
      have ⟨hid, hwhere⟩ := hnew
      cases hwhere with
      | inl hthere => exact absurd (hid ▸ hthere) hnot
      | inr hnone =>
        rw [hid]
        exact ⟨hnone.of_stage? hstage, hnone⟩
  · intro c hc r hr hnot
    rw [hsnapshot]
    exact (h.hidden c hc r hr hnot).of_stage? hstage
  · rw [hsnapshot]
    exact hseen

theorem Inv.deleteRow (h : Inv t s) {id : Nat} {rest : List Nat}
    (hstage : s.calls.stage? call = some (.deleting tx (id :: rest))) :
    Inv t (deleteRow s call tx id rest) := by
  have hwritten : tx.written = [] := h.written.of_stage? hstage
  have hseen := h.seen.of_stage? hstage
  unfold Replace.deleteRow
  split_ifs with hother hthere
  · exact h
  · have hlt : id < s.nextID := by
      obtain ⟨r, hr, rfl⟩ := List.mem_map.1 hthere
      exact h.rows_lt r hr
    refine h.putMore hstage hlt (fun c hc hne hin => hother ⟨c, hc, hne, hin⟩) (fun i => ?_) rfl
      (fun r hr => Or.inl hr) (fun r hr hsnap => ?_) hwritten
    · exact List.mem_cons
    · cases hseen r hr hsnap with
      | inl hrest =>
        cases List.mem_cons.1 hrest with
        | inl heq => exact Or.inr (heq ▸ List.mem_cons_self)
        | inr hlater => exact Or.inl hlater
      | inr hheld => exact Or.inr (List.mem_cons_of_mem _ hheld)
  · refine h.putSame hstage rfl rfl (fun r hr => ⟨r, hr, rfl⟩) (fun r hr hsnap => ?_) hwritten
    cases hseen r hr hsnap with
    | inl hrest =>
      cases List.mem_cons.1 hrest with
      | inl heq => exact absurd (heq ▸ List.mem_map_of_mem hr) hthere
      | inr hlater => exact Or.inl hlater
    | inr hheld => exact Or.inr hheld

theorem Inv.insertNew (h : Inv t s) {x : α} {todo done : List α}
    (hstage : s.calls.stage? call = some (.inserting tx (x :: todo)))
    (hasked : tx.asked = done ++ x :: todo)
    (hdata : (tx.insert s.nextID x).written.map Row.data = t.resolve (done ++ [x])) :
    Inv t (s.insertNew call tx x todo) := by
  have hseen := h.seen.of_stage? hstage
  -- the next number is nobody's
  have hmore : Inv t { s with nextID := s.nextID + 1 } :=
    { rows_lt := fun r hr => Nat.lt_succ_of_lt (h.rows_lt r hr)
      stage_lt := h.stage_lt.imp fun st hst id hid => Nat.lt_succ_of_lt (hst id hid)
      apart := h.apart
      hidden := h.hidden
      seen := h.seen
      written := h.written }
  have hunseen : s.calls.All fun d => s.nextID ∉ d.snapshot :=
    h.stage_lt.imp fun st hst hin => Nat.lt_irrefl _ (hst _ (Or.inr hin))
  refine hmore.putMore hstage (Nat.lt_succ_self s.nextID) (fun c hc _ hin => ?_) (fun i => ?_) rfl
    (fun r hr => ?_) (fun r hr hsnap => ?_) ⟨done ++ [x], ?_, hdata⟩
  · exact Nat.lt_irrefl _ (h.stage_lt c hc _ (Or.inl hin))
  · rw [show (Stage.inserting (tx.insert s.nextID x) todo).held = tx.held ++ [s.nextID] from
      held_insert _, List.mem_append, List.mem_singleton]
    exact or_comm
  · cases List.mem_append.1 hr with
    | inl hold => exact Or.inl hold
    | inr hnew =>
      rw [List.mem_singleton.1 hnew]
      exact Or.inr ⟨rfl, Or.inr hunseen⟩
  · cases hseen r hr hsnap with
    | inl hrest => cases hrest
    | inr hheld =>
      refine Or.inr ?_
      rw [show (Stage.inserting (tx.insert s.nextID x) todo).held = tx.held ++ [s.nextID] from
        held_insert _]
      exact List.mem_append_left _ hheld
  · change tx.asked = done ++ [x] ++ todo
    rw [hasked, List.append_assoc, List.singleton_append]

theorem Inv.insert (h : Inv t s) {x : α} {todo : List α}
    (hstage : s.calls.stage? call = some (.inserting tx (x :: todo))) :
    Inv t (insert t s call tx x todo) := by
  have ⟨done, hasked, hdata⟩ := h.written.of_stage? hstage
  have hseen := h.seen.of_stage? hstage
  have hasked' : tx.asked = done ++ [x] ++ todo := by
    rw [hasked, List.append_assoc, List.singleton_append]
  unfold Replace.insert
  split
  · next hc => exact h.insertNew hstage hasked (written_insert hdata (Or.inl hc) _)
  · split
    · next hmine =>
      split
      · exact h.rollback call
      · next hinsert hfail =>
        have hupdate : t.onConflict = .update := by
          cases hc : t.onConflict with
          | insert => exact absurd hc hinsert
          | fail => exact absurd hc hfail
          | update => rfl
        refine h.putSame hstage held_overwrite rfl (fun r hr => ?_) hseen
          ⟨done ++ [x], hasked', written_overwrite hdata hupdate hmine⟩
        obtain ⟨r₀, hr₀, ⟨_, heq⟩ | ⟨_, heq⟩⟩ := mem_updateWhere.1 hr
        · exact ⟨r₀, hr₀, by rw [heq]⟩
        · exact ⟨r₀, hr₀, by rw [heq]⟩
    · next hmine =>
      have hnone : (tx.written.any fun r => t.key r.data = t.key x) = false := by
        rw [Bool.eq_false_iff]
        exact hmine
      split
      · exact h
      split
      · exact h.insertNew hstage hasked (written_insert hdata (Or.inr hnone) _)
      · next r hfind =>
        split
        · exact h
        · next hother =>
          split
          · exact h.rollback call
          have hmem : r ∈ s.rows := List.mem_of_find?_eq_some hfind
          have hheld : (Stage.inserting (tx.insert r.id x) todo).held = tx.held ++ [r.id] :=
            held_insert _
          refine h.putMore hstage (h.rows_lt r hmem)
            (fun c hc hne hin => hother ⟨c, hc, hne, hin⟩) (fun i => ?_) rfl (fun r' hr' => ?_)
            (fun r' hr' hsnap => ?_)
            ⟨done ++ [x], hasked', written_insert hdata (Or.inr hnone) _⟩
          · rw [hheld, List.mem_append, List.mem_singleton]
            exact or_comm
          · cases List.mem_append.1 hr' with
            | inl hold => exact Or.inl hold
            | inr hnew =>
              rw [List.mem_singleton.1 hnew]
              exact Or.inr ⟨rfl, Or.inl (List.mem_map_of_mem hmem)⟩
          · cases hseen r' hr' hsnap with
            | inl hrest => cases hrest
            | inr hold =>
              rw [hheld]
              exact Or.inr (List.mem_append_left _ hold)

theorem Inv.commit (h : Inv t s) (hstage : s.calls.stage? call = some (.inserting tx [])) :
    Inv t (s.commit call tx) := by
  have hmem := stage?_eq_some.1 hstage
  have hheld : ∀ i, i ∈ tx.held → i < s.nextID := fun i hi =>
    h.stage_lt.of_stage? hstage i (Or.inl hi)
  refine {
    rows_lt := fun r hr => ?_
    stage_lt := h.stage_lt.drop call
    apart := h.apart.drop call
    hidden := fun c hc r hr hnot => ?_
    seen := fun c hc r hr hsnap => ?_
    written := h.written.drop call }
  · cases List.mem_append.1 hr with
    | inl hold => exact h.rows_lt r (List.mem_filter.1 hold).1
    | inr hnew => exact hheld _ (List.mem_append_right _ (List.mem_map_of_mem hnew))
  · have ⟨hold, hne⟩ := mem_drop.1 hc
    refine (h.hidden c hold r hr fun hin => hnot ?_).drop call
    -- it is still there: the transaction that commits does not hold it
    obtain ⟨r₀, hr₀, hid⟩ := List.mem_map.1 hin
    have hfree : r₀.id ∉ tx.held := by
      rw [hid]
      exact fun hin => h.apart _ hmem c hold (Ne.symm hne) r.id hin (mem_held_of_written hr)
    have hkept : r₀ ∈ s.rows.filter fun r => r.id ∉ tx.held :=
      List.mem_filter.2 ⟨hr₀, by simpa using hfree⟩
    exact hid ▸ List.mem_map_of_mem (List.mem_append_left _ hkept)
  · have ⟨hold, _⟩ := mem_drop.1 hc
    cases List.mem_append.1 hr with
    | inl hkept => exact h.seen c hold r (List.mem_filter.1 hkept).1 hsnap
    | inr hnew =>
      -- a row that it has written was there before, or nobody has seen it
      by_cases hin : r.id ∈ s.rows.map Row.id
      · obtain ⟨r₀, hr₀, hid⟩ := List.mem_map.1 hin
        rw [← hid] at hsnap ⊢
        exact h.seen c hold r₀ hr₀ hsnap
      · exact absurd hsnap (h.hidden _ hmem r hnew hin c hold)

theorem Inv.next (h : Inv t s) (hstage : s.calls.stage? call = some st) :
    Inv t (next t s call st) := by
  cases st with
  | begun asked =>
    simp only [Replace.next]
    split
    · exact h
    · exact h.putSame hstage rfl rfl (fun _ hr => nomatch hr) (fun _ _ hin => nomatch hin) trivial
  | ready asked =>
    refine h.put call (fun id hid => ?_) (fun _ _ _ _ hid => nomatch hid) (fun _ hr => nomatch hr)
      (fun _ _ _ _ hnot => hnot) (fun r hr _ => Or.inl (List.mem_map_of_mem hr)) rfl
    cases hid with
    | inl hheld => cases hheld
    | inr hseen =>
      obtain ⟨r, hr, rfl⟩ := List.mem_map.1 hseen
      exact h.rows_lt r hr
  | deleting tx rest =>
    cases rest with
    | nil =>
      have hwritten : tx.written = [] := h.written.of_stage? hstage
      refine h.putSame hstage rfl rfl (fun r hr => ⟨r, hr, rfl⟩) (h.seen.of_stage? hstage)
        ⟨[], rfl, ?_⟩
      rw [hwritten, resolve_nil]
      rfl
    | cons id rest => exact h.deleteRow hstage
  | inserting tx todo =>
    cases todo with
    | nil => exact h.commit hstage
    | cons x todo => exact h.insert hstage

theorem Inv.step (h : Inv t s) (a : Action α) : Inv t (step t s a) := by
  cases a with
  | begin call asked =>
    simp only [Replace.step]
    split
    · exact h
    refine h.put call (fun _ hid => ?_) (fun _ _ _ _ hid => nomatch hid)
      (fun _ hr => nomatch hr) (fun _ _ _ _ _ hin => nomatch hin) (fun _ _ hin => nomatch hin)
      trivial
    cases hid with
    | inl hheld => cases hheld
    | inr hseen => cases hseen
  | next call ok =>
    simp only [Replace.step]
    split
    · exact h
    · next hstage =>
      cases ok with
      | true => exact h.next hstage
      | false => exact h.rollback call

theorem inv_start (t : Table α κ) (initial : List α) : Inv t (start initial) where
  rows_lt r hr := by
    obtain ⟨⟨x, i⟩, hp, rfl⟩ := List.mem_map.1 hr
    have hlt := (List.mem_zipIdx hp).2.1
    simpa [start] using hlt
  stage_lt := all_empty _
  apart := apart_empty _
  hidden _ hc := nomatch hc
  seen := all_empty _
  written := all_empty _

theorem Inv.commit_rows (h : Inv t s) (hstage : s.calls.stage? call = some (.inserting tx []))
    (hsaw : ∀ r ∈ s.rows, r.id ∈ tx.snapshot ∨ r.id ∈ tx.written.map Row.id) :
    (s.commit call tx).rows.map Row.data = t.resolve tx.asked := by
  have hnone : s.rows.filter (fun r => r.id ∉ tx.held) = [] := by
    rw [List.filter_eq_nil_iff]
    intro r hr hnot
    refine of_decide_eq_true hnot ?_
    cases hsaw r hr with
    | inl hsnap =>
      cases h.seen.of_stage? hstage r hr hsnap with
      | inl hrest => cases hrest
      | inr hheld => exact hheld
    | inr hwritten => exact List.mem_append_right _ hwritten
  have ⟨done, hasked, hdata⟩ := h.written.of_stage? hstage
  rw [List.append_nil] at hasked
  rw [State.commit, hnone, List.nil_append, hdata, hasked]

theorem Replaced.step {initial : List α} (h : Replaced t initial s) (hinv : Inv t s)
    {a : Action α} (hsaw : SawAll s a) : Replaced t initial (step t s a) := by
  rcases step_commits t s a with ⟨hrows, hsame⟩ | ⟨call, tx, rfl, hstage, hcommit⟩
  · exact {
      none := fun hnil => by
        rw [hrows]
        exact h.none (hsame ▸ hnil)
      one := fun hne => by
        rw [hrows, hsame]
        exact h.one (hsame ▸ hne) }
  · have hdata := hinv.commit_rows hstage (hsaw _ hstage tx rfl rfl)
    rw [hcommit]
    exact {
      none := fun hnil => absurd hnil (List.cons_ne_nil _ _)
      one := fun _ => ⟨tx.asked, List.mem_cons_self, List.Perm.of_eq hdata⟩ }

theorem replaced_start (t : Table α κ) (initial : List α) : Replaced t initial (start initial) where
  none _ := by
    simp only [start, List.map_map]
    exact List.zipIdx_map_fst 0 initial
  one hne := absurd rfl hne

/-- **Replace means replace** in every run in which no transaction commits over a row that its
`DELETE` did not see and that it has not overwritten. -/
theorem replaced_of_sawAll {initial : List α} {as : List (Action α)}
    (h : StepsMeet (step t) SawAll (start initial) as) :
    Replaced t initial (run (step t) (start initial) as) := by
  have hboth : Inv t (run (step t) (start initial) as) ∧
      Replaced t initial (run (step t) (start initial) as) :=
    h.invariant (I := fun s => Inv t s ∧ Replaced t initial s)
      (fun _ a hs hsaw => ⟨hs.1.step a, hs.2.step hs.1 hsaw⟩)
      ⟨inv_start t initial, replaced_start t initial⟩
  exact hboth.2

/-! ## With a lock -/

/-- One transaction has the lock, and the rows are those that it saw. -/
structure Locked (s : State α) : Prop where
  sole : s.calls.Apart fun st st' => st.hasLock = true → st'.hasLock = false
  kept : s.calls.All fun st => ∀ tx ∈ st.tx?, ∀ r ∈ s.rows, r.id ∈ tx.snapshot

theorem Locked.put (h : Locked s) (hstage : s.calls.stage? call = some st) (hlock : st.hasLock)
    (hkept : ∀ tx ∈ st'.tx?, ∀ r ∈ s.rows, r.id ∈ tx.snapshot) : Locked (s.put call st') where
  sole := h.sole.put fun c hc hne => by
    have hother := h.sole _ (stage?_eq_some.1 hstage) c hc (Ne.symm hne) hlock
    exact ⟨fun _ => hother, fun hc' => absurd (hother.symm.trans hc') (by decide)⟩
  kept := h.kept.put call hkept

theorem Locked.rollback (h : Locked s) (call : Nat) : Locked (s.rollback call) where
  sole := h.sole.drop call
  kept := h.kept.drop call

theorem Locked.insert (h : Locked s) {x : α} {todo : List α}
    (hstage : s.calls.stage? call = some (.inserting tx (x :: todo))) :
    Locked (insert t s call tx x todo) := by
  have hkept : ∀ r ∈ s.rows, r.id ∈ tx.snapshot := h.kept.of_stage? hstage tx rfl
  have hput (tx' : Tx α) (hsnap : tx'.snapshot = tx.snapshot) :
      Locked (s.put call (.inserting tx' todo)) := by
    refine h.put hstage rfl fun tx₀ htx r hr => ?_
    rw [← Option.some.inj htx, hsnap]
    exact hkept r hr
  have hnew : Locked (s.insertNew call tx x todo) :=
    { sole := (hput (tx.insert s.nextID x) rfl).sole
      kept := (hput (tx.insert s.nextID x) rfl).kept }
  unfold Replace.insert
  split
  · exact hnew
  split
  · split
    · exact h.rollback call
    · exact hput _ rfl
  split
  · exact h
  split
  · exact hnew
  split
  · exact h
  · split
    · exact h.rollback call
    · exact hput _ rfl

theorem Locked.next (h : Locked s) (hlocks : t.locks)
    (hstage : s.calls.stage? call = some st) : Locked (next t s call st) := by
  cases st with
  | begun asked =>
    simp only [Replace.next]
    split
    · exact h
    · next hfree =>
      have hnobody : ∀ c ∈ s.calls.calls, c.2.hasLock = false := by
        intro c hc
        rw [Bool.eq_false_iff]
        intro hlock
        exact hfree (by rw [hlocks, List.any_eq_true.2 ⟨c, hc, hlock⟩]; rfl)
      exact {
        sole := h.sole.put fun c hc _ =>
          ⟨fun _ => hnobody c hc, fun hlock => absurd ((hnobody c hc).symm.trans hlock) (by decide)⟩
        kept := h.kept.put call (fun _ htx => nomatch htx) }
  | ready asked =>
    refine h.put hstage rfl fun tx htx r hr => ?_
    rw [← Option.some.inj htx]
    exact List.mem_map_of_mem hr
  | deleting tx rest =>
    have hkept : ∀ r ∈ s.rows, r.id ∈ tx.snapshot := h.kept.of_stage? hstage tx rfl
    have hput (st' : Stage α) (tx' : Tx α) (htx : st'.tx? = some tx')
        (hsnap : tx'.snapshot = tx.snapshot) : Locked (s.put call st') := by
      refine h.put hstage rfl fun tx₀ htx₀ r hr => ?_
      rw [← Option.some.inj (htx.symm.trans htx₀), hsnap]
      exact hkept r hr
    cases rest with
    | nil => exact hput _ tx rfl rfl
    | cons id rest =>
      simp only [Replace.next, Replace.deleteRow]
      split_ifs
      · exact h
      · exact hput _ _ rfl rfl
      · exact hput _ tx rfl rfl
  | inserting tx todo =>
    cases todo with
    | nil =>
      refine { sole := h.sole.drop call, kept := fun c hc tx' htx' => ?_ }
      -- nobody else has the lock, so nobody else has begun its `DELETE`
      have ⟨hold, hne⟩ := mem_drop.1 hc
      have hother := h.sole _ (stage?_eq_some.1 hstage) c hold (Ne.symm hne) rfl
      cases hc2 : c.2 with
      | begun asked =>
        rw [hc2] at htx'
        cases htx'
      | ready asked =>
        rw [hc2] at hother
        cases hother
      | deleting tx rest =>
        rw [hc2] at hother
        cases hother
      | inserting tx todo =>
        rw [hc2] at hother
        cases hother
    | cons x todo => exact h.insert hstage

theorem Locked.step (h : Locked s) (hlocks : t.locks) (a : Action α) : Locked (step t s a) := by
  cases a with
  | begin call asked =>
    simp only [Replace.step]
    split
    · exact h
    · exact {
        sole := h.sole.put fun _ _ _ => ⟨(fun hlock => nomatch hlock), fun _ => rfl⟩
        kept := h.kept.put call (fun _ htx => nomatch htx) }
  | next call ok =>
    simp only [Replace.step]
    split
    · exact h
    · next hstage =>
      cases ok with
      | true => exact h.next hlocks hstage
      | false => exact h.rollback call

theorem Locked.sawAll (h : Locked s) (a : Action α) : SawAll s a := by
  unfold SawAll
  split
  · intro st hst tx htx _ r hr
    exact Or.inl (h.kept.of_stage? hst tx htx r hr)
  · trivial

theorem locked_start (initial : List α) : Locked (start initial) where
  sole := apart_empty _
  kept := all_empty _

/-- **Replace means replace** on a table whose owner is locked first, in every run. -/
theorem replaced_of_locks (hlocks : t.locks) (initial : List α) (as : List (Action α)) :
    Replaced t initial (run (step t) (start initial) as) := by
  have hall : Locked (run (step t) (start initial) as) ∧
      Inv t (run (step t) (start initial) as) ∧
      Replaced t initial (run (step t) (start initial) as) :=
    run_invariant (I := fun s => Locked s ∧ Inv t s ∧ Replaced t initial s)
      (fun _ a hs => ⟨hs.1.step hlocks a, hs.2.1.step a, hs.2.2.step hs.2.1 (hs.1.sawAll a)⟩) as
      ⟨locked_start initial, inv_start t initial, replaced_start t initial⟩
  exact hall.2.2

end Invariant

end Sluicio.Lib.Replace
