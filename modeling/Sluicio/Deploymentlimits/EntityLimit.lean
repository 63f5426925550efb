import Mathlib.Data.Finset.Card
import Sluicio.Catalog
import Sluicio.Lib.Run

/-!
# The limit on monitored entities

Integrations and systems are capped together by a trigger that runs after each row an `INSERT`
creates.  It reads the limit, waits for an advisory lock that its transaction then keeps to the
end, and counts both tables.

Transactions are read committed: a statement, and each of those the trigger runs, sees what is
committed when it starts and what its own transaction wrote.  Their statements interleave in any
way.  A transaction that has created rows the trigger let through holds the lock, so nobody else
can, and until it ends only deletions can change what it counted.
-/

namespace Sluicio.Deploymentlimits

open Lib

inductive Table where
  | integrations | systems
  deriving DecidableEq

/-- A row, by its unique key: an organization and the slug of an integration, or the name of a
system. -/
structure Entity where
  table : Table
  orgID : UUID
  key : String
  deriving DecidableEq

/-- `(SELECT count(*) FROM integrations) + (SELECT count(*) FROM systems)` -/
def total (rows : Finset Entity) : Nat :=
  (rows.filter fun e => e.table = .integrations).card +
    (rows.filter fun e => e.table = .systems).card

abbrev TxID := Nat

/-- The rows of an `INSERT` that is being checked: those it names, and of these those it
created. -/
structure Statement where
  rows : List Entity
  created : List Entity
  deriving DecidableEq

/-- The next statement of `enforce_monitored_entity_limit`. -/
inductive Stage where
  | readLimit
  | takeLock (lim : Nat)
  | count (lim : Nat)
  deriving DecidableEq

/-- A transaction is between two statements, or the trigger runs for a row its last one created,
with so many others to come. -/
inductive Phase where
  | ready
  | firing (statement : Statement) (others : Nat) (stage : Stage)
  deriving DecidableEq

/-- An open transaction: what it wrote, and where it is. -/
structure Tx where
  inserted : Finset Entity := ∅
  deleted : Finset Entity := ∅
  phase : Phase := .ready

structure State where
  committed : Finset Entity
  /-- `deployment_limits.monitored_entity_limit` -/
  limit : Option Nat
  lock : Option TxID := none
  txs : TxID → Option Tx := fun _ => none
  begun : List TxID := []
  refused : List Statement := []

/-- What a statement of the transaction sees. -/
def State.view (s : State) (tx : Tx) : Finset Entity :=
  (s.committed \ tx.deleted) ∪ tx.inserted

/-- Another open transaction has created the row, or deleted it: who writes it waits. -/
def State.contended (s : State) (t : TxID) (e : Entity) : Bool :=
  s.begun.any fun t' => t' ≠ t && (s.txs t').any fun tx => e ∈ tx.inserted ∪ tx.deleted

def State.setTx (s : State) (t : TxID) (tx : Tx) : State :=
  { s with txs := Function.update s.txs t (some tx) }

/-- The end of a transaction, which releases the lock. -/
def State.close (s : State) (t : TxID) : State :=
  { s with
    txs := Function.update s.txs t none
    lock := if s.lock = some t then none else s.lock }

/-- The rows a statement creates, behind which the trigger runs for each. -/
def State.create (s : State) (t : TxID) (tx : Tx) (statement : Statement) : State :=
  match statement.created with
  | [] => s
  | _ :: others =>
    s.setTx t
      { tx with
        inserted := tx.inserted ∪ statement.created.toFinset
        phase := .firing statement others.length .readLimit }

/-- `INSERT`: a row that exists is a unique violation. -/
def State.insert (s : State) (t : TxID) (tx : Tx) (rows : List Entity) : State :=
  if rows.any (s.contended t) then s
  else if ¬ rows.Nodup ∨ ∃ e ∈ rows, e ∈ s.view tx then s.close t
  else s.create t tx ⟨rows, rows⟩

/-- `INSERT … ON CONFLICT DO UPDATE`: a row that exists is updated, which fires no trigger. -/
def State.upsert (s : State) (t : TxID) (tx : Tx) (e : Entity) : State :=
  if s.contended t e then s
  else s.create t tx ⟨[e], if e ∈ s.view tx then [] else [e]⟩

def State.delete (s : State) (t : TxID) (tx : Tx) (rows : List Entity) : State :=
  if rows.any (s.contended t) then s
  else
    s.setTx t
      { tx with
        inserted := tx.inserted \ rows.toFinset
        deleted := tx.deleted ∪ (s.committed ∩ rows.toFinset) }

/-- The trigger has let a row through: it runs for the next one, if there is any. -/
def Phase.next (statement : Statement) : Nat → Phase
  | 0 => .ready
  | others + 1 => .firing statement others .readLimit

/-- The next statement of `enforce_monitored_entity_limit`. -/
def State.enforce (s : State) (t : TxID) (tx : Tx) : State :=
  match tx.phase with
  | .ready => s
  | .firing statement others .readLimit =>
    match s.limit with
    | none => s.setTx t { tx with phase := .next statement others }
    | some lim => s.setTx t { tx with phase := .firing statement others (.takeLock lim) }
  | .firing statement others (.takeLock lim) =>
    if s.lock = none ∨ s.lock = some t then
      { s with lock := some t }.setTx t { tx with phase := .firing statement others (.count lim) }
    else s
  | .firing statement others (.count lim) =>
    if lim < total (s.view tx) then
      { s with refused := s.refused ++ [statement] }.close t
    else s.setTx t { tx with phase := .next statement others }

def State.commit (s : State) (t : TxID) (tx : Tx) : State :=
  { s with committed := s.view tx }.close t

inductive Action where
  | begin (t : TxID)
  | insert (t : TxID) (rows : List Entity)
  | upsert (t : TxID) (e : Entity)
  | delete (t : TxID) (rows : List Entity)
  | enforce (t : TxID)
  | commit (t : TxID)
  | rollback (t : TxID)
  | setMonitoredEntityLimit (limit : Nat)

/-- A transaction that is open, when it has no statement under way. -/
def State.idle? (s : State) (t : TxID) : Option Tx :=
  (s.txs t).filter fun tx => tx.phase = .ready

def step (s : State) : Action → State
  | .begin t =>
    if (s.txs t).isSome then s else { s with begun := t :: s.begun }.setTx t {}
  | .insert t rows => (s.idle? t).elim s fun tx => s.insert t tx rows
  | .upsert t e => (s.idle? t).elim s fun tx => s.upsert t tx e
  | .delete t rows => (s.idle? t).elim s fun tx => s.delete t tx rows
  | .enforce t => (s.txs t).elim s fun tx => s.enforce t tx
  | .commit t => (s.idle? t).elim s fun tx => s.commit t tx
  | .rollback t => if (s.txs t).isSome then s.close t else s
  | .setMonitoredEntityLimit limit =>
    -- zero clears the limit
    { s with limit := if 0 < limit then some limit else none }

/-- Everything but a change of the limit. -/
def KeepsLimit (_ : State) (a : Action) : Prop :=
  ∀ limit, a ≠ .setMonitoredEntityLimit limit

/-! ## What the limit means -/

/-- The limit has been set, and no transaction has created rows yet. -/
structure Starts (L : Nat) (s : State) : Prop where
  limit : s.limit = some L
  txs : ∀ t tx, s.txs t = some tx → tx.phase = .ready ∧ tx.inserted = ∅
  refused : s.refused = []

/-- A transaction has rows in place: created, and let through by the trigger. -/
def State.Placed (s : State) (t : TxID) : Prop :=
  ∃ tx, s.txs t = some tx ∧ tx.phase = .ready ∧ tx.inserted ≠ ∅

/-- No step brings the instance above its limit, the update of an existing row is never refused
and neither is a statement that creates nothing, and no two transactions have rows in place. -/
structure LimitHolds (L : Nat) (s : State) : Prop where
  capped : ∀ a, KeepsLimit s a → total (step s a).committed ≤ max (total s.committed) L
  upserts : ∀ t tx e, s.idle? t = some tx → e ∈ s.view tx → step s (.upsert t e) = s
  refusals : ∀ statement ∈ s.refused, statement.created ≠ []
  lastPlace : ∀ t t', s.Placed t → s.Placed t' → t = t'

theorem total_eq_card (rows : Finset Entity) : total rows = rows.card := by
  have hsystems : (rows.filter fun e => e.table = .systems) =
      rows.filter fun e => ¬ e.table = .integrations := by
    refine Finset.filter_congr fun e _ => ?_
    cases e.table <;> simp
  rw [total, hsystems, Finset.card_filter_add_card_filter_not]

theorem total_mono {rows rows' : Finset Entity} (h : rows ⊆ rows') : total rows ≤ total rows' := by
  rw [total_eq_card, total_eq_card]
  exact Finset.card_le_card h

variable {L : Nat} {s : State} {t t' : TxID} {tx tx' : Tx}

/-- What is so of an open transaction: it has rows in place only when it holds the lock and its
count is within the limit, and the trigger works with that limit, and with the lock once it
counts. -/
def TxInv (L : Nat) (s : State) (t : TxID) (tx : Tx) : Prop :=
  match tx.phase with
  | .ready => tx.inserted ≠ ∅ → s.lock = some t ∧ total (s.view tx) ≤ L
  | .firing statement _ stage =>
    statement.created ≠ [] ∧
      match stage with
      | .readLimit => True
      | .takeLock lim => lim = L
      | .count lim => lim = L ∧ s.lock = some t

structure Inv (L : Nat) (s : State) : Prop where
  limit : s.limit = some L
  txs : ∀ t tx, s.txs t = some tx → TxInv L s t tx
  refusals : ∀ statement ∈ s.refused, statement.created ≠ []

/-- What a transaction knows stays so while nothing is committed but deletions, and nobody takes
its lock. -/
theorem TxInv.frame {s' : State} (h : TxInv L s t tx) (hcommitted : s'.committed ⊆ s.committed)
    (hlock : s.lock = some t → s'.lock = some t) : TxInv L s' t tx := by
  unfold TxInv at h ⊢
  split at h
  · intro hinserted
    obtain ⟨hheld, htotal⟩ := h hinserted
    have hview : s'.view tx ⊆ s.view tx :=
      Finset.union_subset_union_left (Finset.sdiff_subset_sdiff hcommitted (Finset.Subset.refl _))
    exact ⟨hlock hheld, (total_mono hview).trans htotal⟩
  refine ⟨h.1, ?_⟩
  have hstage := h.2
  split at hstage
  · trivial
  · exact hstage
  · exact ⟨hstage.1, hlock hstage.2⟩

theorem TxInv.of_not_holder {s' : State} (h : TxInv L s t tx) (hlock : s.lock ≠ some t) :
    TxInv L s' t tx := by
  unfold TxInv at h ⊢
  split at h
  · exact fun hinserted => absurd (h hinserted).1 hlock
  refine ⟨h.1, ?_⟩
  have hstage := h.2
  split at hstage
  · trivial
  · exact hstage
  · exact absurd hstage.2 hlock

theorem TxInv.ready (h : TxInv L s t tx) (hready : tx.phase = .ready)
    (hinserted : tx.inserted ≠ ∅) : s.lock = some t ∧ total (s.view tx) ≤ L := by
  unfold TxInv at h
  rw [hready] at h
  exact h hinserted

/-! ## The steps keep it -/

theorem Inv.setTx (h : Inv L s) (htx : TxInv L s t tx) : Inv L (s.setTx t tx) where
  limit := h.limit
  txs := by
    intro t' tx' htx'
    refine TxInv.frame (s := s) ?_ (Finset.Subset.refl _) id
    by_cases ht : t' = t
    · subst ht
      obtain rfl : tx = tx' := by simpa [State.setTx] using htx'
      exact htx
    · exact h.txs t' tx' (by simpa [State.setTx, ht] using htx')
  refusals := h.refusals

theorem Inv.closeWith (h : Inv L s) (t : TxID) {rows : Finset Entity}
    (hrows : ∀ t' tx', t' ≠ t → TxInv L s t' tx' → TxInv L { s with committed := rows } t' tx') :
    Inv L ({ s with committed := rows }.close t) where
  limit := h.limit
  txs := by
    intro t' tx' htx'
    have hne : t' ≠ t := by
      rintro rfl
      simp [State.close] at htx'
    have hold : s.txs t' = some tx' := by simpa [State.close, hne] using htx'
    refine TxInv.frame (hrows t' tx' hne (h.txs t' tx' hold)) (Finset.Subset.refl _) ?_
    intro hlock
    have hother : s.lock ≠ some t := by
      intro heq
      exact hne (Option.some.inj (hlock.symm.trans heq))
    exact (if_neg hother).trans hlock
  refusals := h.refusals

theorem Inv.close (h : Inv L s) (t : TxID) : Inv L (s.close t) :=
  h.closeWith t fun _ _ _ htx => htx

theorem Inv.commit (h : Inv L s) (htx : TxInv L s t tx) (hready : tx.phase = .ready) :
    Inv L (s.commit t tx) := by
  refine h.closeWith t fun t' tx' hne htx' => ?_
  by_cases hinserted : tx.inserted = ∅
  · refine htx'.frame ?_ id
    show (s.committed \ tx.deleted) ∪ tx.inserted ⊆ s.committed
    rw [hinserted, Finset.union_empty]
    exact Finset.sdiff_subset
  · have hheld := (htx.ready hready hinserted).1
    refine htx'.of_not_holder fun heq => hne ?_
    exact Option.some.inj (heq.symm.trans hheld)

theorem Inv.create (h : Inv L s) (t : TxID) (tx : Tx) (statement : Statement) :
    Inv L (s.create t tx statement) := by
  unfold State.create
  split
  · exact h
  · next hcreated =>
    refine h.setTx ?_
    exact ⟨by simp [hcreated], trivial⟩

theorem Inv.delete (h : Inv L s) (htx : TxInv L s t tx) (hready : tx.phase = .ready)
    (rows : List Entity) : Inv L (s.delete t tx rows) := by
  unfold State.delete
  split
  · exact h
  refine h.setTx ?_
  unfold TxInv
  simp only [hready]
  intro hinserted
  have hbefore : tx.inserted ≠ ∅ := by
    intro hempty
    simp [hempty] at hinserted
  obtain ⟨hheld, htotal⟩ := htx.ready hready hbefore
  refine ⟨hheld, (total_mono ?_).trans htotal⟩
  exact Finset.union_subset_union
    (Finset.sdiff_subset_sdiff (Finset.Subset.refl _) Finset.subset_union_left)
    Finset.sdiff_subset

theorem TxInv.next (statement : Statement) (others : Nat) (hcreated : statement.created ≠ [])
    (hplaced : s.lock = some t ∧ total (s.view tx) ≤ L) :
    TxInv L s t { tx with phase := .next statement others } := by
  cases others with
  | zero => exact fun _ => hplaced
  | succ others => exact ⟨hcreated, trivial⟩

theorem Inv.enforce (h : Inv L s) (htx : TxInv L s t tx) : Inv L (s.enforce t tx) := by
  unfold State.enforce
  unfold TxInv at htx
  split at htx
  · next hphase => simpa only [hphase] using h
  · next statement others stage hphase =>
    obtain ⟨hcreated, hstage⟩ := htx
    simp only [hphase]
    cases stage with
    | readLimit =>
      simp only [h.limit]
      exact h.setTx ⟨hcreated, rfl⟩
    | takeLock lim =>
      dsimp only
      split
      · next hfree =>
        have hlock : ∀ t', s.lock = some t' → some t = some t' := by
          intro t' hheld
          rcases hfree with hnone | hown
          · rw [hnone] at hheld
            cases hheld
          · exact hown.symm.trans hheld
        have htaken : Inv L { s with lock := some t } :=
          { limit := h.limit
            txs := fun t' tx' htx' =>
              (h.txs t' tx' htx').frame (Finset.Subset.refl _) (hlock t')
            refusals := h.refusals }
        exact htaken.setTx ⟨hcreated, hstage, rfl⟩
      · exact h
    | count lim =>
      obtain ⟨rfl, hheld⟩ := hstage
      dsimp only
      split
      · refine Inv.close (s := { s with refused := s.refused ++ [statement] }) ?_ t
        exact
          { limit := h.limit
            txs := fun t' tx' htx' => (h.txs t' tx' htx').frame (Finset.Subset.refl _) id
            refusals := by
              intro statement' hmem
              rcases List.mem_append.1 hmem with hold | hnew
              · exact h.refusals statement' hold
              · rw [List.mem_singleton.1 hnew]
                exact hcreated }
      · next hwithin =>
        exact h.setTx (TxInv.next statement others hcreated ⟨hheld, not_lt.1 hwithin⟩)

theorem idle_eq_some : s.idle? t = some tx ↔ s.txs t = some tx ∧ tx.phase = .ready := by
  simp [State.idle?, Option.filter_eq_some_iff]

theorem Inv.elim_idle (h : Inv L s) {f : Tx → State}
    (hf : ∀ tx, TxInv L s t tx → tx.phase = .ready → Inv L (f tx)) :
    Inv L ((s.idle? t).elim s f) := by
  cases hidle : s.idle? t with
  | none => exact h
  | some tx =>
    obtain ⟨htx, hready⟩ := idle_eq_some.1 hidle
    exact hf tx (h.txs t tx htx) hready

/-- **Step lemma.** -/
theorem Inv.step (h : Inv L s) {a : Action} (hkeeps : KeepsLimit s a) : Inv L (step s a) := by
  cases a with
  | begin t =>
    simp only [Deploymentlimits.step]
    split
    · exact h
    refine Inv.setTx (s := { s with begun := t :: s.begun }) ?_ fun hempty => absurd rfl hempty
    exact
      { limit := h.limit
        txs := fun t' tx' htx' => (h.txs t' tx' htx').frame (Finset.Subset.refl _) id
        refusals := h.refusals }
  | insert t rows =>
    refine h.elim_idle fun tx _ _ => ?_
    unfold State.insert
    split
    · exact h
    · split
      · exact h.close t
      · exact h.create t tx _
  | upsert t e =>
    refine h.elim_idle fun tx _ _ => ?_
    unfold State.upsert
    split
    · exact h
    · exact h.create t tx _
  | delete t rows => exact h.elim_idle fun tx htx hready => h.delete htx hready rows
  | enforce t =>
    simp only [Deploymentlimits.step]
    cases htx : s.txs t with
    | none => exact h
    | some tx => exact h.enforce (h.txs t tx htx)
  | commit t => exact h.elim_idle fun tx htx hready => h.commit htx hready
  | rollback t =>
    simp only [Deploymentlimits.step]
    split
    · exact h.close t
    · exact h
  | setMonitoredEntityLimit limit => exact absurd rfl (hkeeps limit)

theorem Starts.inv (h : Starts L s) : Inv L s where
  limit := h.limit
  txs := by
    intro t tx htx
    obtain ⟨hready, hinserted⟩ := h.txs t tx htx
    unfold TxInv
    rw [hready]
    exact fun hne => absurd hinserted hne
  refusals := by
    intro statement hmem
    rw [h.refused] at hmem
    cases hmem

/-! ## The limit holds -/

theorem create_committed (s : State) (t : TxID) (tx : Tx) (statement : Statement) :
    (s.create t tx statement).committed = s.committed := by
  unfold State.create
  split <;> rfl

theorem enforce_committed (s : State) (t : TxID) (tx : Tx) :
    (s.enforce t tx).committed = s.committed := by
  unfold State.enforce
  split
  · rfl
  · split <;> rfl
  · split <;> rfl
  · split <;> rfl

theorem step_committed (s : State) (a : Action) : (step s a).committed = s.committed ∨
    ∃ t tx, a = .commit t ∧ s.txs t = some tx ∧ tx.phase = .ready ∧
      (step s a).committed = s.view tx := by
  have hidle {t : TxID} {f : Tx → State} (hf : ∀ tx, (f tx).committed = s.committed) :
      ((s.idle? t).elim s f).committed = s.committed := by
    cases s.idle? t with
    | none => rfl
    | some tx => exact hf tx
  cases a with
  | begin t =>
    left
    simp only [step]
    split <;> rfl
  | insert t rows =>
    refine .inl (hidle fun tx => ?_)
    unfold State.insert
    split
    · rfl
    · split
      · rfl
      · exact create_committed s t tx _
  | upsert t e =>
    refine .inl (hidle fun tx => ?_)
    unfold State.upsert
    split
    · rfl
    · exact create_committed s t tx _
  | delete t rows =>
    refine .inl (hidle fun tx => ?_)
    unfold State.delete
    split <;> rfl
  | enforce t =>
    left
    simp only [step]
    cases s.txs t with
    | none => rfl
    | some tx => exact enforce_committed s t tx
  | commit t =>
    cases hready : s.idle? t with
    | none => exact .inl (by simp [step, hready])
    | some tx =>
      obtain ⟨htx, hphase⟩ := idle_eq_some.1 hready
      exact .inr ⟨t, tx, rfl, htx, hphase, by simp [step, hready, State.commit, State.close]⟩
  | rollback t =>
    left
    simp only [step]
    split <;> rfl
  | setMonitoredEntityLimit limit => exact .inl rfl

theorem Inv.capped (h : Inv L s) (a : Action) :
    total (Deploymentlimits.step s a).committed ≤ max (total s.committed) L := by
  rcases step_committed s a with hsame | ⟨t, tx, _, htx, hready, hview⟩
  · rw [hsame]
    exact le_max_left _ _
  rw [hview]
  by_cases hinserted : tx.inserted = ∅
  · refine le_max_of_le_left (total_mono ?_)
    rw [State.view, hinserted, Finset.union_empty]
    exact Finset.sdiff_subset
  · exact le_max_of_le_right ((h.txs t tx htx).ready hready hinserted).2

theorem upsert_existing {e : Entity} (hidle : s.idle? t = some tx) (he : e ∈ s.view tx) :
    step s (.upsert t e) = s := by
  simp only [step, hidle, Option.elim_some, State.upsert, if_pos he, State.create, ite_self]

/-- **The limit holds.** However the statements of any transactions interleave, their triggers
and commits included, and whatever is deleted, while the limit is set and not changed. -/
theorem monitoredEntityLimit_holds {s₀ : State} (h₀ : Starts L s₀) {as : List Action}
    (has : StepsMeet step KeepsLimit s₀ as) : LimitHolds L (run step s₀ as) := by
  have h : Inv L (run step s₀ as) := has.invariant (fun s a hs ha => hs.step ha) h₀.inv
  refine ⟨fun a _ => h.capped a, fun t tx e => upsert_existing, h.refusals, ?_⟩
  intro t t' ht ht'
  obtain ⟨tx, htx, hready, hinserted⟩ := ht
  obtain ⟨tx', htx', hready', hinserted'⟩ := ht'
  have hheld := ((h.txs t tx htx).ready hready hinserted).1
  have hheld' := ((h.txs t' tx' htx').ready hready' hinserted').1
  exact Option.some.inj (hheld.symm.trans hheld')

/-! ### A race for the last place -/

private def nothing : State := { committed := ∅, limit := some 1 }

private def race : List Action :=
  [.begin 0, .begin 1, .insert 0 [⟨.integrations, 7, "orders"⟩], .upsert 1 ⟨.systems, 7, "rabbit"⟩,
    .enforce 0, .enforce 1, .enforce 1, .enforce 0, .enforce 1, .commit 1, .enforce 0, .enforce 0]

/-- The second to take the lock counts what the first committed, and is refused. -/
theorem monitoredEntityLimit_holds_race : LimitHolds 1 (run step nothing race) :=
  monitoredEntityLimit_holds
    { limit := rfl
      txs := fun t tx htx => absurd htx (by simp [nothing])
      refused := rfl }
    (by simp [race, KeepsLimit])

example : (run step nothing race).refused.length = 1 ∧
    (run step nothing race).committed = {⟨.systems, 7, "rabbit"⟩} := by
  decide +kernel

end Sluicio.Deploymentlimits
