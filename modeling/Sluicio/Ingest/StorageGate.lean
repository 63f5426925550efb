import Mathlib.Data.String.Basic
import Mathlib.Tactic.Linarith

/-!
# The storage limit

The gate measures the telemetry database every minute.  By default a full database loses its
oldest day, again and again, as long as a day before today is left; in pause mode nothing is
deleted.  Whether telemetry is refused is then decided from the usage last measured and from
whether it was refused before.

The database is everything that can happen to it between two statements: parts come and go,
the day changes, and any statement may fail.
-/

namespace Sluicio.Ingest

inductive StorageAction where
  | deleteOldest | pause

structure StorageLimit where
  bytes : Nat
  action : StorageAction

def resumeFraction : ℚ := 98 / 100

def StorageLimit.stopped (l : StorageLimit) (usage : Nat) (wasStopped : Bool) : Bool :=
  if l.bytes = 0 then false
  else if l.bytes ≤ usage then true
  else if wasStopped then l.bytes * resumeFraction ≤ usage
  else false

/-! ## The database -/

/-- An active part of a table: the partition it belongs to and its size. -/
structure Part where
  table : String
  partition : String
  bytes : Nat
  named : partition ≠ ""

/-- What the database holds, and the day it is there. -/
structure World where
  today : String
  parts : List Part

def telemetryTables : List String := ["traces", "logs", "metrics"]

namespace World

/-- `MeasureStorage`. -/
def usage (w : World) : Nat := (w.parts.map Part.bytes).sum

/-- The days before today of which telemetry is stored. -/
def earlierDays (w : World) : List String :=
  (w.parts.filter fun p => p.table ∈ telemetryTables ∧ p.partition < w.today).map Part.partition

/-- `SELECT min(partition_id) …`. -/
def oldestDay (w : World) : Option String := w.earlierDays.min?

/-- `ALTER TABLE … DROP PARTITION ID …`. -/
def drop (w : World) (table day : String) : World :=
  { w with parts := w.parts.filter fun p => ¬ (p.table = table ∧ p.partition = day) }

theorem oldestDay_lt {w : World} {day : String} (h : w.oldestDay = some day) : day < w.today := by
  have hmem : day ∈ w.earlierDays := List.min?_mem h
  obtain ⟨p, hp, rfl⟩ := List.mem_map.1 hmem
  have hcond := (List.mem_filter.1 hp).2
  exact (of_decide_eq_true hcond).2

theorem oldestDay_eq_none {w : World} : w.oldestDay = none ↔ w.earlierDays = [] :=
  List.min?_eq_none_iff

end World

/-- What happens before a statement runs, and whether it fails. -/
structure Statement where
  arrives : List Part → List Part
  day : String
  fails : Bool

/-- The statements of the gate, in the order it sends them. -/
abbrev Env := Nat → Statement

/-- One partition of a table that was dropped: on which day, and the usage it was for. -/
structure Deletion where
  table : String
  day : String
  today : String
  usage : Nat

/-- The database and what the gate has done to it so far. -/
structure Db where
  world : World
  sent : Nat := 0
  deletions : List Deletion := []
  days : Nat := 0
  faults : Nat := 0

namespace Db

/-- The world when the next statement runs.  The days go forward. -/
def advance (env : Env) (db : Db) : Db :=
  { db with
    world :=
      { today := max db.world.today (env db.sent).day
        parts := (env db.sent).arrives db.world.parts }
    sent := db.sent + 1
    faults := db.faults + if (env db.sent).fails then 1 else 0 }

def drop (db : Db) (table day : String) (usage : Nat) : Db :=
  { db with
    world := db.world.drop table day
    deletions := ⟨table, day, db.world.today, usage⟩ :: db.deletions }

def measureStorage (env : Env) (db : Db) : Db × Option Nat :=
  (db.advance env, if (env db.sent).fails then none else some (db.advance env).world.usage)

/-- The loop of `DeleteOldestDay` over the tables. -/
def dropDay (env : Env) (day : String) (usage : Nat) : List String → Db → Db × Bool
  | [], db => (db, true)
  | table :: tables, db =>
    if (env db.sent).fails then (db.advance env, false)
    else dropDay env day usage tables ((db.advance env).drop table day usage)

/-- What `DeleteOldestDay` returns. -/
inductive Deleted where
  | failed
  | noneLeft
  | day (day : String)

def isDay (day : String) : Bool := day.length = 8 && day.toList.all Char.isDigit

/-- `DeleteOldestDay`, called for the usage. -/
def deleteOldestDay (env : Env) (usage : Nat) (db : Db) : Db × Deleted :=
  if (env db.sent).fails then (db.advance env, .failed)
  else
    match (db.advance env).world.oldestDay with
    | none => (db.advance env, .noneLeft)
    | some day =>
      if isDay day then
        match dropDay env day usage telemetryTables (db.advance env) with
        | (db', true) => ({ db' with days := db'.days + 1 }, .day day)
        | (db', false) => (db', .failed)
      else ({ db.advance env with faults := (db.advance env).faults + 1 }, .failed)

end Db

/-! ## The gate -/

def maxDaysPerMeasure : Nat := 30

/-- `makeRoom`, with the days it may still delete. -/
def makeRoom (env : Env) (l : StorageLimit) : Nat → Db → Nat → Db × Nat
  | 0, db, bytes => (db, bytes)
  | k + 1, db, bytes =>
    if l.bytes ≤ bytes then
      match db.deleteOldestDay env bytes with
      | (db', .failed) => (db', bytes)
      | (db', .noneLeft) => (db', bytes)
      | (db', .day _) =>
        match db'.measureStorage env with
        | (db'', none) => (db'', bytes)
        | (db'', some after) => makeRoom env l k db'' after
    else (db, bytes)

/-- `StorageGate`, and the database it is in front of. -/
structure Gate where
  stopped : Bool := false
  usage : Nat := 0
  db : Db

def Gate.observe (g : Gate) (l : StorageLimit) (db : Db) (bytes : Nat) : Gate :=
  { stopped := l.stopped bytes g.stopped, usage := bytes, db := db }

def Gate.measure (env : Env) (l : StorageLimit) (g : Gate) : Gate :=
  match g.db.measureStorage env with
  | (db, none) => { g with db := db }
  | (db, some bytes) =>
    match l.action with
    | .pause => g.observe l db bytes
    | .deleteOldest =>
      g.observe l (makeRoom env l maxDaysPerMeasure db bytes).1
        (makeRoom env l maxDaysPerMeasure db bytes).2

/-- `Run`, for so many measurements: without a limit there are none. -/
def Gate.run (env : Env) (l : StorageLimit) (n : Nat) (g : Gate) : Gate :=
  if l.bytes = 0 then g else (Gate.measure env l)^[n] g

/-! ## What a statement does -/

/-- Every partition that was dropped was of a day before the day of the drop, and the usage
measured last was at the limit. -/
def OnlyForRoom (l : StorageLimit) (db : Db) : Prop :=
  ∀ d ∈ db.deletions, d.day < d.today ∧ l.bytes ≤ d.usage

namespace Db

variable {env : Env} {l : StorageLimit}

@[simp] theorem advance_deletions (db : Db) : (db.advance env).deletions = db.deletions := rfl

@[simp] theorem advance_days (db : Db) : (db.advance env).days = db.days := rfl

theorem advance_faults (db : Db) : (db.advance env).faults =
    db.faults + if (env db.sent).fails then 1 else 0 := rfl

theorem faults_le_advance (db : Db) : db.faults ≤ (db.advance env).faults :=
  Nat.le_add_right _ _

theorem today_le_advance (db : Db) : db.world.today ≤ (db.advance env).world.today :=
  le_max_left _ _

/-- The loop over the tables: what it drops is for room, a failure is counted, and no whole
day is. -/
theorem dropDay_spec {day : String} {usage : Nat} (hroom : l.bytes ≤ usage)
    (tables : List String) {db : Db} (hday : day < db.world.today) (hlog : OnlyForRoom l db) :
    OnlyForRoom l (dropDay env day usage tables db).1 ∧
      (dropDay env day usage tables db).1.days = db.days ∧
      db.faults ≤ (dropDay env day usage tables db).1.faults ∧
      ((dropDay env day usage tables db).2 = false →
        db.faults < (dropDay env day usage tables db).1.faults) := by
  induction tables generalizing db with
  | nil => exact ⟨hlog, rfl, le_refl _, fun h => nomatch h⟩
  | cons table tables ih =>
    unfold dropDay
    by_cases hfails : (env db.sent).fails = true
    · have hcount : (db.advance env).faults = db.faults + 1 := by
        rw [advance_faults, if_pos hfails]
      rw [if_pos hfails]
      refine ⟨hlog, rfl, faults_le_advance db, fun _ => ?_⟩
      show db.faults < (db.advance env).faults
      omega
    rw [if_neg hfails]
    have hlater : day < ((db.advance env).drop table day usage).world.today :=
      lt_of_lt_of_le hday (today_le_advance db)
    have hlog' : OnlyForRoom l ((db.advance env).drop table day usage) := by
      intro d hd
      rcases List.mem_cons.1 hd with rfl | hold
      · exact ⟨hlater, hroom⟩
      · exact hlog d hold
    have hrest := ih hlater hlog'
    have hle : db.faults ≤ ((db.advance env).drop table day usage).faults :=
      faults_le_advance db
    exact ⟨hrest.1, hrest.2.1, le_trans hle hrest.2.2.1,
      fun h => lt_of_le_of_lt hle (hrest.2.2.2 h)⟩

/-- What `DeleteOldestDay` leaves behind, by what it returns. -/
theorem deleteOldestDay_spec {usage : Nat} (hroom : l.bytes ≤ usage) {db : Db}
    (hlog : OnlyForRoom l db) :
    OnlyForRoom l (db.deleteOldestDay env usage).1 ∧
      db.faults ≤ (db.deleteOldestDay env usage).1.faults ∧
      match (db.deleteOldestDay env usage).2 with
      | .failed => db.faults < (db.deleteOldestDay env usage).1.faults
      | .noneLeft => (db.deleteOldestDay env usage).1.world.earlierDays = []
      | .day _ => (db.deleteOldestDay env usage).1.days = db.days + 1 := by
  unfold deleteOldestDay
  by_cases hfails : (env db.sent).fails = true
  · have hcount : (db.advance env).faults = db.faults + 1 := by
      rw [advance_faults, if_pos hfails]
    rw [if_pos hfails]
    exact ⟨hlog, faults_le_advance db, by simp only; omega⟩
  rw [if_neg hfails]
  cases hold : (db.advance env).world.oldestDay with
  | none => exact ⟨hlog, faults_le_advance db, World.oldestDay_eq_none.1 hold⟩
  | some day =>
    have hday := World.oldestDay_lt hold
    have hle := @faults_le_advance env db
    by_cases hdigits : isDay day = true
    · have hlog' : OnlyForRoom l (db.advance env) := hlog
      have hdrop := @dropDay_spec env l day usage hroom telemetryTables _ hday hlog'
      simp only [hdigits, if_true]
      cases hres : dropDay env day usage telemetryTables (db.advance env) with
      | mk db' ok =>
        rw [hres] at hdrop
        obtain ⟨hlog'', hdays, hfaults, hfailed⟩ := hdrop
        cases ok with
        | true =>
          refine ⟨hlog'', le_trans hle hfaults, ?_⟩
          show db'.days + 1 = db.days + 1
          exact congrArg (· + 1) hdays
        | false => exact ⟨hlog'', le_trans hle hfaults, lt_of_le_of_lt hle (hfailed rfl)⟩
    · simp only [hdigits, Bool.false_eq_true, if_false]
      refine ⟨hlog, ?_, ?_⟩
      · show db.faults ≤ (db.advance env).faults + 1
        omega
      · show db.faults < (db.advance env).faults + 1
        omega

end Db

/-- The deletions of one measurement: they make room, and they stop below the limit, with no
day left, or at the cap, unless a statement fails. -/
theorem makeRoom_spec {env : Env} {l : StorageLimit} (k : Nat) {db : Db} (bytes : Nat)
    (hlog : OnlyForRoom l db) :
    OnlyForRoom l (makeRoom env l k db bytes).1 ∧
      db.faults ≤ (makeRoom env l k db bytes).1.faults ∧
      ((makeRoom env l k db bytes).1.faults = db.faults →
        l.bytes ≤ (makeRoom env l k db bytes).2 →
        (makeRoom env l k db bytes).1.world.earlierDays = [] ∨
          (makeRoom env l k db bytes).1.days = db.days + k) := by
  induction k generalizing db bytes with
  | zero => exact ⟨hlog, le_refl _, fun _ _ => Or.inr rfl⟩
  | succ k ih =>
    unfold makeRoom
    by_cases hfull : l.bytes ≤ bytes
    · rw [if_pos hfull]
      have hdelete := @Db.deleteOldestDay_spec env l bytes hfull db hlog
      cases hres : db.deleteOldestDay env bytes with
      | mk db' deleted =>
        rw [hres] at hdelete
        obtain ⟨hlog', hfaults, hcase⟩ := hdelete
        cases deleted with
        | failed =>
          have hlt : db.faults < db'.faults := hcase
          exact ⟨hlog', hfaults, fun hsame => absurd hsame (by simp only; omega)⟩
        | noneLeft => exact ⟨hlog', hfaults, fun _ _ => Or.inl hcase⟩
        | day day =>
          have hdays : db'.days = db.days + 1 := hcase
          simp only [Db.measureStorage]
          by_cases hfails : (env db'.sent).fails = true
          · have hcount : (db'.advance env).faults = db'.faults + 1 := by
              rw [Db.advance_faults, if_pos hfails]
            have hgrows : db.faults < (db'.advance env).faults := by
              have hle : db.faults ≤ db'.faults := hfaults
              omega
            simp only [hfails, if_true]
            exact ⟨hlog', le_of_lt hgrows, fun hsame => absurd hsame (ne_of_gt hgrows)⟩
          · simp only [hfails, Bool.false_eq_true, if_false]
            have hrest := ih (db'.advance env).world.usage
              (show OnlyForRoom l (db'.advance env) from hlog')
            have hle : db.faults ≤ (db'.advance env).faults :=
              le_trans hfaults (Db.faults_le_advance db')
            refine ⟨hrest.1, le_trans hle hrest.2.1, ?_⟩
            intro hsame hstill
            have hquiet := le_antisymm (hsame.trans_le hle) hrest.2.1
            rcases hrest.2.2 hquiet hstill with hnone | hcap
            · exact Or.inl hnone
            · right
              rw [hcap, Db.advance_days, hdays]
              omega
    · rw [if_neg hfull]
      exact ⟨hlog, le_refl _, fun _ hstill => absurd hstill hfull⟩

/-- Every statement of the measurement succeeds. -/
def Gate.Quiet (env : Env) (l : StorageLimit) (g : Gate) : Prop :=
  (g.measure env l).db.faults = g.db.faults

/-- After the measurement telemetry is refused only if the database is still full, and no day
before today is left or as many were deleted as one measurement may. -/
def Gate.RefusesOnlyFull (l : StorageLimit) (before after : Gate) : Prop :=
  after.stopped → l.bytes ≤ after.usage ∧
    (after.db.world.earlierDays = [] ∨ after.db.days = before.db.days + maxDaysPerMeasure)

/-- Telemetry was refused before, and the usage measured last is between the resume threshold
and the limit. -/
def Gate.HeldStopped (l : StorageLimit) (before after : Gate) : Prop :=
  before.stopped ∧ l.bytes * resumeFraction ≤ after.usage ∧ after.usage < l.bytes

/-- A gate that pauses: it refuses from the limit on, and accepts again only below the resume
threshold. -/
structure Gate.Pauses (l : StorageLimit) (before after : Gate) : Prop where
  stops : l.bytes ≤ after.usage → after.stopped
  starts : before.stopped = false → after.stopped → l.bytes ≤ after.usage
  resumes : before.stopped → after.stopped = false →
    (after.usage : ℚ) < l.bytes * resumeFraction

theorem stopped_of_full {l : StorageLimit} (hl : l.bytes ≠ 0) {usage : Nat}
    (hfull : l.bytes ≤ usage) (was : Bool) : l.stopped usage was := by
  rw [StorageLimit.stopped, if_neg hl, if_pos hfull]

theorem stopped_of_room {l : StorageLimit} (hl : l.bytes ≠ 0) {usage : Nat}
    (hroom : usage < l.bytes) (was : Bool) :
    l.stopped usage was ↔ was ∧ l.bytes * resumeFraction ≤ usage := by
  rw [StorageLimit.stopped, if_neg hl, if_neg (Nat.not_le.2 hroom)]
  cases was <;> simp

theorem observe_pauses {l : StorageLimit} (hl : l.bytes ≠ 0) (g : Gate) (db : Db) (bytes : Nat) :
    g.Pauses l (g.observe l db bytes) where
  stops := fun hfull => stopped_of_full hl hfull g.stopped
  starts := by
    intro hwas hnow
    by_contra hroom
    have hheld := (stopped_of_room hl (Nat.not_le.1 hroom) g.stopped).1 hnow
    rw [hwas] at hheld
    cases hheld.1
  resumes := by
    intro hwas hnow
    have hnot : ¬ l.stopped bytes g.stopped := by
      intro hstopped
      have hfalse : l.stopped bytes g.stopped = false := hnow
      rw [hfalse] at hstopped
      cases hstopped
    have hroom : bytes < l.bytes := by
      by_contra hfull
      exact hnot (stopped_of_full hl (Nat.not_lt.1 hfull) g.stopped)
    by_contra hband
    exact hnot ((stopped_of_room hl hroom g.stopped).2 ⟨hwas, not_lt.1 hband⟩)

section Measure

variable {env : Env} {l : StorageLimit} {g : Gate}

theorem measure_onlyForRoom (hlog : OnlyForRoom l g.db) : OnlyForRoom l (g.measure env l).db := by
  unfold Gate.measure Db.measureStorage
  by_cases hfails : (env g.db.sent).fails = true
  · simp only [hfails, if_true]
    exact hlog
  simp only [hfails, Bool.false_eq_true, if_false]
  have hlog' : OnlyForRoom l (g.db.advance env) := hlog
  cases l.action with
  | pause => exact hlog'
  | deleteOldest => exact (makeRoom_spec _ _ hlog').1

theorem measure_pause (hl : l.bytes ≠ 0) (hpause : l.action = .pause) :
    (g.measure env l).db.deletions = g.db.deletions ∧
      (g.Quiet env l → g.Pauses l (g.measure env l)) := by
  unfold Gate.Quiet Gate.measure Db.measureStorage
  by_cases hfails : (env g.db.sent).fails = true
  · have hcount : (g.db.advance env).faults = g.db.faults + 1 := by
      rw [Db.advance_faults, if_pos hfails]
    simp only [hfails, if_true]
    exact ⟨rfl, fun hquiet => absurd hquiet (by omega)⟩
  · simp only [hfails, Bool.false_eq_true, if_false, hpause]
    exact ⟨rfl, fun _ => observe_pauses hl g _ _⟩

/-- By default telemetry is refused only when it has to be, if and only if it is not held
back between the two thresholds. -/
theorem measure_deleteOldest (hl : l.bytes ≠ 0) (hdelete : l.action = .deleteOldest)
    (hlog : OnlyForRoom l g.db) (hquiet : g.Quiet env l) :
    g.RefusesOnlyFull l (g.measure env l) ↔ ¬ g.HeldStopped l (g.measure env l) := by
  unfold Gate.Quiet Gate.measure Db.measureStorage at hquiet
  unfold Gate.measure Db.measureStorage
  by_cases hfails : (env g.db.sent).fails = true
  · have hcount : (g.db.advance env).faults = g.db.faults + 1 := by
      rw [Db.advance_faults, if_pos hfails]
    simp only [hfails, if_true] at hquiet
    omega
  simp only [hfails, Bool.false_eq_true, if_false, hdelete] at hquiet ⊢
  have hlog' : OnlyForRoom l (g.db.advance env) := hlog
  have hroom := @makeRoom_spec env l maxDaysPerMeasure _ (g.db.advance env).world.usage hlog'
  generalize makeRoom env l maxDaysPerMeasure (g.db.advance env)
    (g.db.advance env).world.usage = left at hroom hquiet ⊢
  obtain ⟨_, hfaults, hstill⟩ := hroom
  have hsame : left.1.faults = (g.db.advance env).faults :=
    le_antisymm (hquiet.trans_le (Db.faults_le_advance g.db)) hfaults
  constructor
  · intro hrefuses hheld
    have hstopped := (stopped_of_room hl hheld.2.2 g.stopped).2 ⟨hheld.1, hheld.2.1⟩
    have hfull := (hrefuses hstopped).1
    have hbelow := hheld.2.2
    omega
  · intro hnot hstopped
    by_cases hfull : l.bytes ≤ left.2
    · exact ⟨hfull, hstill hsame hfull⟩
    · have hbelow := Nat.not_le.1 hfull
      have hheld := (stopped_of_room hl hbelow g.stopped).1 hstopped
      exact absurd ⟨hheld.1, hheld.2, hbelow⟩ hnot

end Measure

/-- The gate after `n` measurements of a database, from the start of the process. -/
def gateAt (env : Env) (l : StorageLimit) (w : World) (n : Nat) : Gate :=
  Gate.run env l n { db := { world := w } }

theorem gateAt_succ {l : StorageLimit} (hl : l.bytes ≠ 0) (env : Env) (w : World) (n : Nat) :
    gateAt env l w (n + 1) = (gateAt env l w n).measure env l := by
  simp only [gateAt, Gate.run, hl, if_false]
  exact Function.iterate_succ_apply' _ _ _

theorem gateAt_onlyForRoom (env : Env) (l : StorageLimit) (w : World) (n : Nat) :
    OnlyForRoom l (gateAt env l w n).db := by
  by_cases hl : l.bytes = 0
  · have hstart : gateAt env l w n = { db := { world := w } } := by
      rw [gateAt, Gate.run, if_pos hl]
    intro d hd
    rw [hstart] at hd
    cases hd
  induction n with
  | zero =>
    have hstart : gateAt env l w 0 = { db := { world := w } } := by
      rw [gateAt, Gate.run, if_neg hl]
      rfl
    intro d hd
    rw [hstart] at hd
    cases hd
  | succ n ih =>
    rw [gateAt_succ hl]
    exact measure_onlyForRoom ih

theorem gateAt_pause {l : StorageLimit} (hl : l.bytes ≠ 0) (hpause : l.action = .pause)
    (env : Env) (w : World) (n : Nat) : (gateAt env l w n).db.deletions = [] := by
  induction n with
  | zero =>
    have hstart : gateAt env l w 0 = { db := { world := w } } := by
      rw [gateAt, Gate.run, if_neg hl]
      rfl
    rw [hstart]
  | succ n ih =>
    rw [gateAt_succ hl, (measure_pause hl hpause).1]
    exact ih

/-- **When the gate keeps the instance going.**  For every limit and everything that may
happen to the database: what is deleted is of days before the day it is, and only with the
usage at the limit; a pausing gate deletes nothing, refuses from the limit on and accepts
again only below the resume threshold; and a deleting gate refuses telemetry after a
measurement only when the database is full and no earlier day is left, or the cap reached, if
and only if it is not held back between the resume threshold and the limit. -/
theorem storageGate_iff (env : Env) (l : StorageLimit) (w : World) :
    (∀ n, OnlyForRoom l (gateAt env l w n).db) ∧
    (l.bytes = 0 → ∀ n, (gateAt env l w n).stopped = false) ∧
    (l.bytes ≠ 0 → l.action = .pause → ∀ n, (gateAt env l w n).db.deletions = [] ∧
      ((gateAt env l w n).Quiet env l → (gateAt env l w n).Pauses l (gateAt env l w (n + 1)))) ∧
    (l.bytes ≠ 0 → l.action = .deleteOldest → ∀ n, (gateAt env l w n).Quiet env l →
      ((gateAt env l w n).RefusesOnlyFull l (gateAt env l w (n + 1)) ↔
        ¬ (gateAt env l w n).HeldStopped l (gateAt env l w (n + 1)))) := by
  refine ⟨gateAt_onlyForRoom env l w, ?_, ?_, ?_⟩
  · intro hl n
    rw [gateAt, Gate.run, if_pos hl]
  · intro hl hpause n
    refine ⟨gateAt_pause hl hpause env w n, ?_⟩
    rw [gateAt_succ hl]
    exact (measure_pause hl hpause).2
  · intro hl hdelete n hquiet
    rw [gateAt_succ hl]
    exact measure_deleteOldest hl hdelete (gateAt_onlyForRoom env l w n) hquiet

/-! A database that is full of one day's telemetry, and the morning after. -/

private def spans (day : String) (bytes : Nat) (named : day ≠ "") : Part :=
  ⟨"traces", day, bytes, named⟩

private def overnight : Env
  | 0 => ⟨fun _ => [spans "20261102" 100 (by decide)], "20261102", false⟩
  | 1 => ⟨id, "20261102", false⟩
  | _ => ⟨fun _ => [spans "20261102" 90 (by decide), spans "20261103" 9 (by decide)],
      "20261103", false⟩

/-- The first measurement stops the gate, with one day only; by the second the usage has
fallen below the limit and there is an earlier day, and the gate still refuses. -/
theorem storageGate_stays_stopped :
    (gateAt overnight ⟨100, .deleteOldest⟩ ⟨"20261102", []⟩ 1).Quiet overnight
        ⟨100, .deleteOldest⟩ ∧
      ¬ (gateAt overnight ⟨100, .deleteOldest⟩ ⟨"20261102", []⟩ 1).RefusesOnlyFull
        ⟨100, .deleteOldest⟩ (gateAt overnight ⟨100, .deleteOldest⟩ ⟨"20261102", []⟩ 2) := by
  constructor
  · unfold Gate.Quiet
    decide +kernel
  · unfold Gate.RefusesOnlyFull
    decide +kernel

end Sluicio.Ingest
