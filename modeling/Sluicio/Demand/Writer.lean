import Sluicio.Catalog

/-!
# The demand ledger

The writer counts what is consumed in a buffer of buckets, and a flush appends the buffer to
the ledger.  The buffer is bounded: a bucket that is new when it is full is dropped and only
counted.  A recording that dropped nothing leaves every one of its buckets in the buffer.
-/

namespace Sluicio.Demand

open Lib

/-- The telemetry family a row is about. -/
inductive Signal where
  | trace | log | metric | alert
  deriving DecidableEq

/-- Who consumed it.  It also tells what the key is: a completion's is the name of a span. -/
inductive ConsumerKind where
  | human | rule | facet | matcher | dashboard | completion | template | view
  deriving DecidableEq

/-- `bucket`: the identity of a row of the ledger. -/
structure Bucket where
  day : Nat
  org : UUID
  signal : Signal
  service : String
  key : String
  kind : ConsumerKind
  deriving DecidableEq

abbrev Counts := List (Bucket × Nat)

/-- `Writer`, one that is connected to the database. -/
structure Writer where
  buf : Counts := []
  dropped : Nat := 0

def maxBuckets : Nat := 50000

def Writer.recordN (w : Writer) (b : Bucket) (n : Nat) : Writer :=
  if n = 0 ∨ b.org = 0 then w
  else if b ∈ w.buf.map Prod.fst then
    { w with buf := updateWhere (fun e => e.1 = b) (fun e => (e.1, e.2 + n)) w.buf }
  else if maxBuckets ≤ w.buf.length then { w with dropped := w.dropped + 1 }
  else { w with buf := w.buf ++ [(b, n)] }

def Writer.record (w : Writer) (b : Bucket) : Writer := w.recordN b 1

/-- Several calls of `Record`, one after the other. -/
def Writer.recordAll (w : Writer) (bs : List Bucket) : Writer := bs.foldl Writer.record w

/-- The writer and the ledger it writes. -/
structure Cell where
  writer : Writer := {}
  ledger : Counts := []

/-- `Flush`, and whether it succeeded.  `sent` says whether the database takes the batch. -/
def Cell.flush (c : Cell) (sent : Bool) : Cell × Bool :=
  if c.writer.buf = [] then ({ c with writer := {} }, true)
  else if sent then ({ writer := {}, ledger := c.ledger ++ c.writer.buf }, true)
  else ({ c with writer := {} }, false)

/-! ## What a recording leaves in the buffer -/

def Counts.Has (counts : Counts) (b : Bucket) : Prop := b ∈ counts.map Prod.fst

@[simp] theorem Counts.has_append (xs ys : Counts) (b : Bucket) :
    Counts.Has (xs ++ ys) b ↔ xs.Has b ∨ ys.Has b := by
  simp only [Counts.Has, List.map_append, List.mem_append]

theorem Writer.dropped_le_record (w : Writer) (b : Bucket) : w.dropped ≤ (w.record b).dropped := by
  unfold record recordN
  split
  · exact Nat.le_refl _
  split
  · exact Nat.le_refl _
  split
  · exact Nat.le_succ _
  · exact Nat.le_refl _

theorem Writer.dropped_le_recordAll (w : Writer) (bs : List Bucket) :
    w.dropped ≤ (w.recordAll bs).dropped := by
  induction bs generalizing w with
  | nil => exact Nat.le_refl _
  | cons b bs ih => exact Nat.le_trans (w.dropped_le_record b) (ih (w.record b))

theorem Writer.has_record {w : Writer} {b : Bucket} (horg : b.org ≠ 0)
    (hdropped : (w.record b).dropped = w.dropped) (b' : Bucket) :
    (w.record b).buf.Has b' ↔ w.buf.Has b' ∨ b' = b := by
  unfold record recordN at hdropped ⊢
  rw [if_neg (by simp [horg])] at hdropped ⊢
  split
  · rename_i hknown
    have hkeys : (updateWhere (fun e : Bucket × Nat => e.1 = b) (fun e => (e.1, e.2 + 1))
        w.buf).map Prod.fst = w.buf.map Prod.fst := by
      refine map_updateWhere ?_ _
      exact fun _ => rfl
    show b' ∈ List.map Prod.fst _ ↔ _
    rw [hkeys]
    constructor
    · exact .inl
    · rintro (hold | rfl)
      · exact hold
      · exact hknown
  · rename_i hnew
    rw [if_neg hnew] at hdropped
    split at hdropped
    · exact absurd hdropped (Nat.succ_ne_self _)
    · rename_i hroom
      rw [if_neg hroom]
      simp [Counts.Has]

/-- **Nothing dropped, everything counted.** -/
theorem Writer.has_recordAll {bs : List Bucket} (horg : ∀ b ∈ bs, b.org ≠ 0) {w : Writer}
    (hdropped : (w.recordAll bs).dropped = w.dropped) (b' : Bucket) :
    (w.recordAll bs).buf.Has b' ↔ w.buf.Has b' ∨ b' ∈ bs := by
  induction bs generalizing w with
  | nil => simp [recordAll]
  | cons b bs ih =>
    have hle := w.dropped_le_record b
    have hrest := (w.record b).dropped_le_recordAll bs
    have hlast : ((w.record b).recordAll bs).dropped = w.dropped := hdropped
    have hfirst : (w.record b).dropped = w.dropped := by omega
    have hih := ih (fun b hb => horg b (List.mem_cons_of_mem _ hb)) (hlast.trans hfirst.symm)
    show ((w.record b).recordAll bs).buf.Has b' ↔ _
    rw [hih, Writer.has_record (horg b List.mem_cons_self) hfirst, List.mem_cons, or_assoc]

theorem Cell.has_flush {c : Cell} {sent : Bool} (h : (c.flush sent).2) (b : Bucket) :
    (c.flush sent).1.ledger.Has b ↔ c.ledger.Has b ∨ c.writer.buf.Has b := by
  unfold flush at h ⊢
  split
  · rename_i hempty
    simp [hempty, Counts.Has]
  rename_i hfull
  rw [if_neg hfull] at h
  split
  · exact Counts.has_append _ _ _
  · rename_i hlost
    rw [if_neg hlost] at h
    cases h

end Sluicio.Demand
