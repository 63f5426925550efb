import Sluicio.Lib.Zone

/-!
# Recurring maintenance

A recurrence is a wall-clock time on some weekdays, or on the Nth weekday of the month,
in a named zone.  `Next` walks the local dates from one local midnight to the next and
collects the occurrences it meets.  Instants are nanoseconds since 1970, and the walk,
whose end depends on the zone, is given fuel.
-/

namespace Sluicio.Maintenance

open Lib

def nanos : Int := 1000000000

def unix (t : Int) : Int := t / nanos

inductive Frequency where
  | weekly | monthly
  | other

structure Recurrence where
  frequency : Frequency
  /-- for weekly: 0 is Sunday -/
  weekdays : List Int := []
  monthWeek : Int := 0
  monthWeekday : Int := 0
  startTime : String
  durationMinutes : Int
  timezone : String
  endsOn : String := ""

open Recurrence

structure Occurrence where
  startsAt : Int
  endsAt : Int
  deriving DecidableEq

/-- The value of decimal digits. -/
def digits (cs : List Char) : Option Int :=
  if cs.all Char.isDigit then
    some (cs.foldl (fun acc c => acc * 10 + (c.toNat - '0'.toNat : Nat)) 0)
  else none

def clockOf (hour minute : List Char) : Option (Int × Int) :=
  match digits hour, digits minute with
  | some h, some m => if h < 24 ∧ m < 60 then some (h, m) else none
  | _, _ => none

/-- `time.Parse("15:04", s)`: the hour may have one digit. -/
def parseClock (s : String) : Option (Int × Int) :=
  match s.toList with
  | [h, ':', m₁, m₂] => clockOf [h] [m₁, m₂]
  | [h₁, h₂, ':', m₁, m₂] => clockOf [h₁, h₂] [m₁, m₂]
  | _ => none

/-- `time.Parse("2006-01-02", s)`. -/
def parseDate (s : String) : Option Int :=
  match s.toList with
  | [y₁, y₂, y₃, y₄, '-', m₁, m₂, '-', d₁, d₂] =>
    match digits [y₁, y₂, y₃, y₄], digits [m₁, m₂], digits [d₁, d₂] with
    | some year, some month, some day =>
      if 1 ≤ month ∧ month ≤ 12 ∧ 1 ≤ day ∧ day ≤ daysIn month year then
        some (ofCivil year month day)
      else none
    | _, _, _ => none
  | _ => none

def Recurrence.clock (r : Recurrence) : Option (Int × Int) := parseClock r.startTime

inductive RecurrenceError where
  | noWeekday
  | weekdayRange (d : Int)
  | monthWeekRange | monthWeekdayRange
  | frequency
  | startTime
  | duration | tooLong
  | noTimezone
  | unknownTimezone (timezone : String)
  | endsOn

/-- `MaxWindowDuration`, in minutes. -/
def maxWindowMinutes : Int := 7 * 24 * 60

/-- What `Validate` checks of the fields a frequency uses. -/
def Recurrence.validateFrequency (r : Recurrence) : Option RecurrenceError :=
  match r.frequency with
  | .weekly =>
    if r.weekdays = [] then some .noWeekday
    else (r.weekdays.find? fun d => d < 0 || 6 < d).map .weekdayRange
  | .monthly =>
    if r.monthWeek ≠ -1 ∧ (r.monthWeek < 1 ∨ 4 < r.monthWeek) then some .monthWeekRange
    else if r.monthWeekday < 0 ∨ 6 < r.monthWeekday then some .monthWeekdayRange
    else none
  | .other => some .frequency

/-- `Validate`; `tzdata` is `time.LoadLocation`. -/
def Recurrence.validate (tzdata : String → Option Zone) (r : Recurrence) :
    Option RecurrenceError :=
  r.validateFrequency <|>
  (if r.clock = none then some .startTime
  else if r.durationMinutes ≤ 0 then some .duration
  else if maxWindowMinutes < r.durationMinutes then some .tooLong
  else if r.timezone = "" then some .noTimezone
  else if tzdata r.timezone = none then some (.unknownTimezone r.timezone)
  else if r.endsOn ≠ "" ∧ parseDate r.endsOn = none then some .endsOn
  else none)

/-! ## Occurrences -/

/-- `matches`. -/
def Recurrence.matchesDay (r : Recurrence) (d : Int) : Bool :=
  match r.frequency with
  | .weekly => r.weekdays.any (· = weekday d)
  | .monthly =>
    let (year, month, day) := civil d
    r.monthWeekday = weekday d &&
      if r.monthWeek = -1 then daysIn month year < day + 7
      else (day - 1) / 7 + 1 = r.monthWeek
  | .other => false

def Recurrence.duration (r : Recurrence) : Int := r.durationMinutes * 60 * nanos

/-- The start of the occurrence on a date. -/
def Recurrence.start (r : Recurrence) (z : Zone) (d : Int) : Int :=
  let (hour, minute) := r.clock.getD (0, 0)
  z.date d (hour * 3600 + minute * 60) * nanos

def Recurrence.occurrence (r : Recurrence) (z : Zone) (d : Int) : Occurrence :=
  ⟨r.start z d, r.start z d + r.duration⟩

/-- The last local date an occurrence may start on. -/
def Recurrence.lastDay (r : Recurrence) : Option Int :=
  if r.endsOn = "" then none else parseDate r.endsOn

/-- The date hosts an occurrence that has not ended by `after` and is not skipped. -/
def Recurrence.takes (r : Recurrence) (z : Zone) (after : Int) (skip : List Int) (d : Int) :
    Bool :=
  r.matchesDay d && after < r.start z d + r.duration &&
    !(skip.map unix).contains (unix (r.start z d))

def occurrenceHorizon : Int := 400 * 24 * 3600 * nanos

/-- The loop of `Next`, from the local midnight `day`; `none` when the fuel runs out. -/
def Recurrence.walk (r : Recurrence) (z : Zone) (after n : Int) (skip : List Int) :
    Nat → Int → List Occurrence → Option (List Occurrence)
  | 0, _, _ => none
  | fuel + 1, day, out =>
    if out.length < n ∧ day * nanos < after + occurrenceHorizon then
      if r.lastDay.any fun e => z.midnight e < day then some out
      else
        let d := z.localDay day
        r.walk z after n skip fuel (z.midnight (d + 1))
          (if r.takes z after skip d then out ++ [r.occurrence z d] else out)
    else some out

/-- The local date the walk starts on, far enough back to catch an occurrence still in
progress. -/
def Recurrence.firstDay (r : Recurrence) (z : Zone) (after : Int) : Int :=
  z.localDay (unix (after - r.duration))

def Recurrence.next (tzdata : String → Option Zone) (r : Recurrence) (fuel : Nat)
    (after n : Int) (skip : List Int) : Option (List Occurrence) :=
  if (r.validate tzdata).isSome ∨ n ≤ 0 then some []
  else
    match tzdata r.timezone with
    | none => some []
    | some z => r.walk z after n skip fuel (z.midnight (r.firstDay z after)) []

/-- The date hosts an occurrence `Next` may return. -/
def Recurrence.Hosts (r : Recurrence) (z : Zone) (after : Int) (skip : List Int) (d : Int) :
    Prop :=
  r.takes z after skip d ∧ ∀ e, r.lastDay = some e → d ≤ e

/-- The occurrences of the first `n` dates that host one, in increasing order. -/
def Recurrence.FirstOccurrences (r : Recurrence) (z : Zone) (after n : Int)
    (skip : List Int) (out : List Occurrence) : Prop :=
  ∃ days : List Int, out = days.map (r.occurrence z) ∧ days.Pairwise (· < ·) ∧
    (out.map Occurrence.startsAt).Pairwise (· < ·) ∧
    (∀ d ∈ days, r.Hosts z after skip d) ∧ days.length ≤ n.toNat ∧
    ∀ d, r.Hosts z after skip d → d ∈ days ∨
      (days.length = n.toNat ∧ ∀ d' ∈ days, d' < d ∧ r.start z d' < r.start z d)

/-- `Next` terminates and returns the first `n` occurrences. -/
def Recurrence.NextCorrect (tzdata : String → Option Zone) (r : Recurrence) (z : Zone)
    (after n : Int) (skip : List Int) : Prop :=
  ∃ fuel out, r.next tzdata fuel after n skip = some out ∧ r.FirstOccurrences z after n skip out

/-! ## The walk -/

/-- `k` dates from `d` on. -/
def daysFrom (d : Int) (k : Nat) : List Int := (List.range k).map fun j : Nat => d + j

/-- The dates among them that are taken. -/
def Recurrence.taken (r : Recurrence) (z : Zone) (after : Int) (skip : List Int) (d : Int)
    (k : Nat) : List Int :=
  (daysFrom d k).filter (r.takes z after skip)

/-- The walk passes a date: its local midnight falls on it, before the horizon and not
after the last date's. -/
structure Recurrence.Passes (r : Recurrence) (z : Zone) (after d : Int) : Prop where
  midnight : z.localDay (z.midnight d) = d
  horizon : z.midnight d * nanos < after + occurrenceHorizon
  last : ∀ e, r.lastDay = some e → d ≤ e ∧ z.midnight d ≤ z.midnight e

/-- The walk passes `k` dates from the first one on and stops, and the first `n`
occurrences are among them. -/
structure Recurrence.Walks (r : Recurrence) (z : Zone) (after n : Int) (skip : List Int)
    (k : Nat) : Prop where
  passes : ∀ j < k, r.Passes z after (r.firstDay z after + j) ∧
    ((r.taken z after skip (r.firstDay z after) j).length : Int) < n
  stops : n ≤ (r.taken z after skip (r.firstDay z after) k).length ∨
    after + occurrenceHorizon ≤ z.midnight (r.firstDay z after + k) * nanos ∨
    ∃ e, r.lastDay = some e ∧ z.midnight e < z.midnight (r.firstDay z after + k)
  complete : ∀ d, r.Hosts z after skip d →
    r.firstDay z after ≤ d ∧ (d < r.firstDay z after + k ∨
      n ≤ (r.taken z after skip (r.firstDay z after) k).length)
  increasing : ∀ d ∈ r.taken z after skip (r.firstDay z after) k, ∀ d', d < d' →
    r.Hosts z after skip d' → r.start z d < r.start z d'

/-- The walk passes `k + 1` dates, and then the next local midnight falls back on the last
of them. -/
structure Recurrence.FallsBack (r : Recurrence) (z : Zone) (after n : Int)
    (skip : List Int) (k : Nat) : Prop where
  passes : ∀ j ≤ k, r.Passes z after (r.firstDay z after + j)
  short : ((r.taken z after skip (r.firstDay z after) (k + 1)).length : Int) < n
  back : z.localDay (z.midnight (r.firstDay z after + k + 1)) = r.firstDay z after + k
  horizon : z.midnight (r.firstDay z after + k + 1) * nanos < after + occurrenceHorizon
  last : ∀ e, r.lastDay = some e → z.midnight (r.firstDay z after + k + 1) ≤ z.midnight e

/-! ## Dates in order -/

theorem mem_daysFrom {d : Int} {k : Nat} {x : Int} : x ∈ daysFrom d k ↔ d ≤ x ∧ x < d + k := by
  simp only [daysFrom, List.mem_map, List.mem_range]
  constructor
  · rintro ⟨j, hj, rfl⟩
    omega
  · intro h
    exact ⟨(x - d).toNat, by omega, by omega⟩

theorem daysFrom_succ (d : Int) (k : Nat) : daysFrom d (k + 1) = daysFrom d k ++ [d + k] := by
  simp [daysFrom, List.range_succ]

theorem daysFrom_pairwise (d : Int) (k : Nat) : (daysFrom d k).Pairwise (· < ·) := by
  induction k with
  | zero => exact List.Pairwise.nil
  | succ k ih =>
    rw [daysFrom_succ, List.pairwise_append]
    refine ⟨ih, List.pairwise_singleton _ _, fun x hx y hy => ?_⟩
    have hlt := (mem_daysFrom.1 hx).2
    obtain rfl := List.mem_singleton.1 hy
    exact hlt

section Walk

variable {r : Recurrence} {z : Zone} {after n : Int} {skip : List Int} {d day : Int} {fuel : Nat}
  {out res : List Occurrence} {k : Nat}

theorem Recurrence.mem_taken {x : Int} :
    x ∈ r.taken z after skip d k ↔ (d ≤ x ∧ x < d + k) ∧ r.takes z after skip x := by
  rw [taken, List.mem_filter, mem_daysFrom]

theorem Recurrence.taken_pairwise (d : Int) (k : Nat) :
    (r.taken z after skip d k).Pairwise (· < ·) :=
  (daysFrom_pairwise d k).filter _

theorem Recurrence.taken_succ (d : Int) (k : Nat) :
    r.taken z after skip d (k + 1) =
      if r.takes z after skip (d + k) then r.taken z after skip d k ++ [d + k]
      else r.taken z after skip d k := by
  unfold taken
  rw [daysFrom_succ, List.filter_append]
  split
  · next htakes => rw [List.filter_singleton, htakes]; rfl
  · next htakes => simp [htakes]

theorem Recurrence.length_taken_succ (r : Recurrence) (z : Zone) (after : Int)
    (skip : List Int) (d : Int) (k : Nat) :
    (r.taken z after skip d (k + 1)).length ≤ (r.taken z after skip d k).length + 1 := by
  rw [taken_succ]
  split <;> simp

/-! ## The loop -/

theorem Recurrence.walk_pass (h : r.Passes z after d) (hout : (out.length : Int) < n) (fuel : Nat) :
    r.walk z after n skip (fuel + 1) (z.midnight d) out =
      r.walk z after n skip fuel (z.midnight (d + 1))
        (if r.takes z after skip d then out ++ [r.occurrence z d] else out) := by
  have hlast : (r.lastDay.any fun e => z.midnight e < z.midnight d) = false := by
    cases hday : r.lastDay with
    | none => rfl
    | some e =>
      have hle := (h.last e hday).2
      simpa using hle
  rw [Recurrence.walk, if_pos ⟨hout, h.horizon⟩, hlast, h.midnight]
  rfl

/-- **The walk collects the dates it passes**, by induction on their number. -/
theorem Recurrence.walk_run
    (h : ∀ j < k, r.Passes z after (d + j) ∧ ((r.taken z after skip d j).length : Int) < n)
    (fuel : Nat) :
    r.walk z after n skip (fuel + k) (z.midnight d) [] =
      r.walk z after n skip fuel (z.midnight (d + k))
        ((r.taken z after skip d k).map (r.occurrence z)) := by
  induction k generalizing fuel with
  | zero => simp [taken, daysFrom]
  | succ k ih =>
    have hk := h k (Nat.lt_succ_self k)
    have hlen : ((((r.taken z after skip d k).map (r.occurrence z)).length : Nat) : Int) < n := by
      rw [List.length_map]
      exact hk.2
    have hprev := ih (fun j hj => h j (Nat.lt_succ_of_lt hj)) (fuel + 1)
    rw [show fuel + (k + 1) = fuel + 1 + k by omega, hprev, walk_pass hk.1 hlen]
    have hday : d + (k : Int) + 1 = d + ((k + 1 : Nat) : Int) := by omega
    rw [hday, taken_succ]
    split <;> simp

theorem Recurrence.walk_stop (h : n ≤ out.length ∨ after + occurrenceHorizon ≤ day * nanos ∨
      ∃ e, r.lastDay = some e ∧ z.midnight e < day) (fuel : Nat) :
    r.walk z after n skip (fuel + 1) day out = some out := by
  rw [Recurrence.walk]
  split
  · next hgo =>
    rcases h with hfull | hfar | ⟨e, hlast, hpast⟩
    · omega
    · omega
    · rw [hlast]
      simp [hpast]
  · rfl

theorem Recurrence.walk_more (h : r.walk z after n skip fuel day out = some res) (m : Nat) :
    r.walk z after n skip (fuel + m) day out = some res := by
  induction fuel generalizing day out with
  | zero => cases h
  | succ fuel ih =>
    rw [show fuel + 1 + m = fuel + m + 1 by omega]
    rw [Recurrence.walk] at h ⊢
    split at h
    · next hgo =>
      rw [if_pos hgo]
      split at h
      · next hlast => rwa [if_pos hlast]
      · next hlast =>
        rw [if_neg hlast]
        exact ih h
    · next hgo => rwa [if_neg hgo]

theorem Recurrence.prefix_walk (h : r.walk z after n skip fuel day out = some res) :
    out <+: res := by
  induction fuel generalizing day out with
  | zero => cases h
  | succ fuel ih =>
    rw [Recurrence.walk] at h
    split at h
    · split at h
      · obtain rfl := Option.some.inj h
        exact List.prefix_rfl
      · have hnext := ih h
        split at hnext
        · exact (List.prefix_append _ _).trans hnext
        · exact hnext
    · obtain rfl := Option.some.inj h
      exact List.prefix_rfl

theorem Recurrence.mem_walk (h : r.walk z after n skip fuel day out = some res) {occ : Occurrence}
    (hocc : occ ∈ res) : occ ∈ out ∨ ∃ d, r.takes z after skip d ∧ occ = r.occurrence z d := by
  induction fuel generalizing day out with
  | zero => cases h
  | succ fuel ih =>
    rw [Recurrence.walk] at h
    split at h
    · split at h
      · obtain rfl := Option.some.inj h
        exact .inl hocc
      · rcases ih h with hout | hnew
        · split at hout
          · next htakes =>
            rcases List.mem_append.1 hout with hold | hlast
            · exact .inl hold
            · exact .inr ⟨_, htakes, List.mem_singleton.1 hlast⟩
          · exact .inl hout
        · exact .inr hnew
    · obtain rfl := Option.some.inj h
      exact .inl hocc

theorem Recurrence.walk_back (hback : z.localDay (z.midnight (d + 1)) = d)
    (hfar : z.midnight (d + 1) * nanos < after + occurrenceHorizon)
    (hlast : ∀ e, r.lastDay = some e → z.midnight (d + 1) ≤ z.midnight e)
    (hout : (out.length : Int) < n) (fuel : Nat) :
    r.walk z after n skip (fuel + 1) (z.midnight (d + 1)) out =
      r.walk z after n skip fuel (z.midnight (d + 1))
        (if r.takes z after skip d then out ++ [r.occurrence z d] else out) := by
  have hnot : (r.lastDay.any fun e => z.midnight e < z.midnight (d + 1)) = false := by
    cases hday : r.lastDay with
    | none => rfl
    | some e =>
      have hle := hlast e hday
      simpa using hle
  rw [Recurrence.walk, if_pos ⟨hout, hfar⟩, hnot, hback]
  rfl

/-- **A midnight that falls back on an empty date is met again and again.** -/
theorem Recurrence.walk_stuck (hback : z.localDay (z.midnight (d + 1)) = d)
    (htakes : r.takes z after skip d = false)
    (hfar : z.midnight (d + 1) * nanos < after + occurrenceHorizon)
    (hlast : ∀ e, r.lastDay = some e → z.midnight (d + 1) ≤ z.midnight e)
    (hout : (out.length : Int) < n) (fuel : Nat) :
    r.walk z after n skip fuel (z.midnight (d + 1)) out = none := by
  induction fuel with
  | zero => rfl
  | succ fuel ih =>
    rw [walk_back hback hfar hlast hout, htakes]
    exact ih

/-- What the walk collects is what `Next` is for. -/
theorem Recurrence.Walks.firstOccurrences (h : r.Walks z after n skip k) (hn : 0 < n) :
    r.FirstOccurrences z after n skip
      ((r.taken z after skip (r.firstDay z after) k).map (r.occurrence z)) := by
  have hhosts : ∀ d ∈ r.taken z after skip (r.firstDay z after) k, r.Hosts z after skip d := by
    intro d hd
    obtain ⟨⟨hle, hlt⟩, htakes⟩ := mem_taken.1 hd
    have hpass := (h.passes (d - r.firstDay z after).toNat (by omega)).1
    rw [show r.firstDay z after + ((d - r.firstDay z after).toNat : Int) = d by omega] at hpass
    exact ⟨htakes, fun e he => (hpass.last e he).1⟩
  have hlen : ((r.taken z after skip (r.firstDay z after) k).length : Int) ≤ n := by
    cases k with
    | zero => simpa [taken, daysFrom] using Int.le_of_lt hn
    | succ k =>
      have hshort := (h.passes k (Nat.lt_succ_self k)).2
      have hstep := r.length_taken_succ z after skip (r.firstDay z after) k
      omega
  refine ⟨_, rfl, taken_pairwise _ _, ?_, hhosts, by omega, fun d hd => ?_⟩
  · rw [List.map_map, List.pairwise_map]
    refine (taken_pairwise _ _).imp_of_mem fun {d d'} hd hd' hlt => ?_
    exact h.increasing d hd d' hlt (hhosts d' hd')
  · obtain ⟨hfirst, hin⟩ := h.complete d hd
    by_cases hmem : d < r.firstDay z after + k
    · exact .inl (mem_taken.2 ⟨⟨hfirst, hmem⟩, hd.1⟩)
    have hfull := hin.resolve_left hmem
    refine .inr ⟨by omega, fun d' hd' => ?_⟩
    have hlt := (mem_taken.1 hd').1.2
    have hbefore : d' < d := by omega
    exact ⟨hbefore, h.increasing d' hd' d hbefore hd⟩

/-- In a zone whose offsets differ by less than what is left of the day at the recurrence's
time, a walk that is full has passed every date it needs. -/
theorem Recurrence.walks_of_full (spread : Int)
    (hspread : ∀ o ∈ z.offsets, ∀ o' ∈ z.offsets, o - o' ≤ spread) (hday : spread < secondsPerDay)
    (hclock : (r.clock.getD (0, 0)).1 * 3600 + (r.clock.getD (0, 0)).2 * 60 + spread <
      secondsPerDay) (hpasses : ∀ j < k, r.Passes z after (r.firstDay z after + j) ∧
      ((r.taken z after skip (r.firstDay z after) j).length : Int) < n)
    (hfull : n ≤ (r.taken z after skip (r.firstDay z after) k).length) :
    r.Walks z after n skip k where
  passes := hpasses
  stops := .inl hfull
  complete := by
    intro d hd
    refine ⟨Zone.localDay_le hspread hclock ?_, .inr hfull⟩
    have htakes := hd.1
    simp only [takes, Bool.and_eq_true, decide_eq_true_eq] at htakes
    have hend := htakes.1.2
    have hstart : r.start z d =
        z.date d ((r.clock.getD (0, 0)).1 * 3600 + (r.clock.getD (0, 0)).2 * 60) * nanos := rfl
    rw [hstart] at hend
    unfold unix nanos at *
    omega
  increasing := by
    intro d _ d' hlt _
    exact Int.mul_lt_mul_of_pos_right (Zone.date_lt hspread hday hlt _) (by decide)

theorem Recurrence.length_taken_le (r : Recurrence) (z : Zone) (after : Int) (skip : List Int)
    (d : Int) {j : Nat} (h : j ≤ k) :
    (r.taken z after skip d j).length ≤ (r.taken z after skip d k).length := by
  induction k, h using Nat.le_induction with
  | base => exact Nat.le_refl _
  | succ k _ ih =>
    refine Nat.le_trans ih ?_
    rw [taken_succ]
    split <;> simp

theorem Recurrence.FallsBack.walk_eq (h : r.FallsBack z after n skip k) (fuel : Nat) :
    r.walk z after n skip (fuel + (k + 1)) (z.midnight (r.firstDay z after)) [] =
      r.walk z after n skip fuel (z.midnight (r.firstDay z after + k + 1))
        ((r.taken z after skip (r.firstDay z after) (k + 1)).map (r.occurrence z)) := by
  have hday : r.firstDay z after + ((k + 1 : Nat) : Int) = r.firstDay z after + k + 1 := by
    omega
  rw [← hday]
  refine walk_run (fun j hj => ⟨h.passes j (Nat.lt_succ_iff.1 hj), ?_⟩) fuel
  have hle : (r.taken z after skip (r.firstDay z after) j).length ≤
      (r.taken z after skip (r.firstDay z after) (k + 1)).length :=
    r.length_taken_le z after skip (r.firstDay z after) (Nat.le_of_lt hj)
  have hshort := h.short
  omega

theorem Recurrence.FallsBack.length_lt (h : r.FallsBack z after n skip k) :
    ((((r.taken z after skip (r.firstDay z after) (k + 1)).map
      (r.occurrence z)).length : Nat) : Int) < n := by
  rw [List.length_map]
  exact h.short

/-- **A walk that falls back on an empty date never ends.** -/
theorem Recurrence.FallsBack.walk_eq_none (h : r.FallsBack z after n skip k)
    (htakes : r.takes z after skip (r.firstDay z after + k) = false) (fuel : Nat) :
    r.walk z after n skip fuel (z.midnight (r.firstDay z after)) [] = none := by
  cases hwalk : r.walk z after n skip fuel (z.midnight (r.firstDay z after)) [] with
  | none => rfl
  | some out =>
    have hmore := walk_more hwalk (k + 1)
    rw [h.walk_eq, walk_stuck h.back htakes h.horizon h.last h.length_lt] at hmore
    cases hmore

theorem Recurrence.FallsBack.not_firstOccurrences (h : r.FallsBack z after n skip k)
    (hwalk : r.walk z after n skip fuel (z.midnight (r.firstDay z after)) [] = some out) :
    ¬ r.FirstOccurrences z after n skip out := by
  cases htakes : r.takes z after skip (r.firstDay z after + k) with
  | false =>
    rw [h.walk_eq_none htakes] at hwalk
    cases hwalk
  | true =>
    cases fuel with
    | zero => cases hwalk
    | succ fuel =>
      have hmore := walk_more hwalk (k + 1)
      rw [h.walk_eq, walk_back h.back h.horizon h.last h.length_lt,
        if_pos htakes] at hmore
      have hkept := prefix_walk hmore
      rintro ⟨_, _, _, hstarts, _⟩
      -- the date was taken when the walk passed it, and is taken again
      have htwice := hstarts.sublist (hkept.sublist.map Occurrence.startsAt)
      rw [List.map_append, List.pairwise_append] at htwice
      have hmem : r.firstDay z after + k ∈ r.taken z after skip (r.firstDay z after) (k + 1) :=
        mem_taken.2 ⟨by omega, htakes⟩
      have hlt := htwice.2.2 _
        (List.mem_map_of_mem (List.mem_map_of_mem hmem)) _ List.mem_cons_self
      exact absurd hlt (Int.lt_irrefl _)

end Walk

variable {tzdata : String → Option Zone} {r : Recurrence}

theorem Recurrence.duration_le (h : r.validate tzdata = none) :
    r.duration ≤ maxWindowMinutes * 60 * nanos := by
  have hminutes : r.durationMinutes ≤ maxWindowMinutes := by
    unfold validate at h
    by_contra hlong
    grind
  unfold duration nanos
  omega

/-- What `Next` returns has not ended, is not skipped and lasts a window's length at
most. -/
theorem Recurrence.mem_next {fuel : Nat} {after n : Int} {skip : List Int} {out : List Occurrence}
    (h : r.next tzdata fuel after n skip = some out) {occ : Occurrence} (hocc : occ ∈ out) :
    after < occ.endsAt ∧ unix occ.startsAt ∉ skip.map unix ∧
      occ.endsAt ≤ occ.startsAt + maxWindowMinutes * 60 * nanos := by
  unfold Recurrence.next at h
  split at h
  · obtain rfl := Option.some.inj h
    cases hocc
  · next hvalid =>
    split at h
    · obtain rfl := Option.some.inj h
      cases hocc
    obtain ⟨d, htakes, rfl⟩ := (mem_walk h hocc).resolve_left (by simp)
    simp only [takes, Bool.and_eq_true, decide_eq_true_eq, Bool.not_eq_true',
      List.contains_eq_mem, decide_eq_false_iff_not] at htakes
    have hnone : r.validate tzdata = none := by
      cases hv : r.validate tzdata with
      | none => rfl
      | some e => simp [hv] at hvalid
    exact ⟨htakes.1.2, htakes.2, Int.add_le_add_left (duration_le hnone) _⟩

/-- **`Next` is right when its walk passes every date it needs**, and never when a local
midnight on its way falls back on the date before. -/
theorem nextCorrect_of_walks (tzdata : String → Option Zone) (r : Recurrence) (z : Zone)
    (hvalid : r.validate tzdata = none) (hz : tzdata r.timezone = some z) (after n : Int)
    (skip : List Int) :
    ((n ≤ 0 ∨ ∃ k, r.Walks z after n skip k) → r.NextCorrect tzdata z after n skip) ∧
      (0 < n → (∃ k, r.FallsBack z after n skip k) → ¬ r.NextCorrect tzdata z after n skip) := by
  have hnext : 0 < n → ∀ fuel, r.next tzdata fuel after n skip =
      r.walk z after n skip fuel (z.midnight (r.firstDay z after)) [] := by
    intro hn fuel
    unfold Recurrence.next
    rw [if_neg (by simp [hvalid]; omega), hz]
  constructor
  · intro h
    by_cases hn : 0 < n
    · obtain ⟨k, hk⟩ := h.resolve_left (by omega)
      have hstop := hk.stops
      have hlen : ((r.taken z after skip (r.firstDay z after) k).map (r.occurrence z)).length =
          (r.taken z after skip (r.firstDay z after) k).length := List.length_map _
      rw [← hlen] at hstop
      refine ⟨1 + k, _, ?_, hk.firstOccurrences hn⟩
      rw [hnext hn, walk_run hk.passes]
      exact walk_stop hstop 0
    · refine ⟨0, [], ?_, [], rfl, List.Pairwise.nil, List.Pairwise.nil, by simp, by simp, ?_⟩
      · unfold Recurrence.next
        rw [if_pos (.inr (by omega))]
      · intro d _
        refine .inr ⟨?_, by simp⟩
        simp only [List.length_nil]
        omega
  · rintro hn ⟨k, hk⟩ ⟨fuel, out, hout, hfirst⟩
    rw [hnext hn] at hout
    exact hk.not_firstOccurrences hout hfirst

private def sundays (timezone : String) : Recurrence :=
  { frequency := .weekly, weekdays := [0], startTime := "02:00", durationMinutes := 60
    timezone := timezone }

/-- Local clocks go from 02:00 to 03:00 on 29 March 2026. -/
private def berlin : Zone := ⟨3600, [(1774746000, 7200)]⟩

/-- Local clocks go from 24:00 on 5 September 2026 to 01:00. -/
private def santiago : Zone := ⟨-14400, [(1788667200, -10800)]⟩

private def zones (timezone : String) : Option Zone :=
  if timezone = "Europe/Berlin" then some berlin
  else if timezone = "America/Santiago" then some santiago
  else none

/-- From 20 March on, one of the first three Sundays is the one whose two o'clock is
missing. -/
private theorem sundays_walks :
    (sundays "Europe/Berlin").Walks berlin (1773964800 * nanos) 3 [] 17 := by
  have hdays : ∀ j : Nat, j < 17 →
      (berlin.localDay (berlin.midnight
          ((sundays "Europe/Berlin").firstDay berlin (1773964800 * nanos) + j)) =
        (sundays "Europe/Berlin").firstDay berlin (1773964800 * nanos) + j ∧
      berlin.midnight ((sundays "Europe/Berlin").firstDay berlin (1773964800 * nanos) + j) * nanos <
        1773964800 * nanos + occurrenceHorizon) ∧
      (((sundays "Europe/Berlin").taken berlin (1773964800 * nanos) []
        ((sundays "Europe/Berlin").firstDay berlin (1773964800 * nanos)) j).length : Int) < 3 := by
    decide +kernel
  refine walks_of_full 3600 (by decide) (by decide) (by decide +kernel)
    (fun j hj => ?_) (by decide +kernel)
  exact ⟨⟨(hdays j hj).1.1, (hdays j hj).1.2, fun e he => by cases he⟩, (hdays j hj).2⟩

theorem nextCorrect_example :
    (sundays "Europe/Berlin").NextCorrect zones berlin (1773964800 * nanos) 3 [] :=
  (nextCorrect_of_walks zones (sundays "Europe/Berlin") berlin (by decide +kernel) rfl _ 3 []).1
    (.inr ⟨17, sundays_walks⟩)

private theorem santiago_fallsBack :
    (sundays "America/Santiago").FallsBack santiago (1788220800 * nanos) 1 [] 5 where
  passes := by
    have hdays : ∀ j ≤ 5, santiago.localDay (santiago.midnight
        ((sundays "America/Santiago").firstDay santiago (1788220800 * nanos) + (j : Nat))) =
          (sundays "America/Santiago").firstDay santiago (1788220800 * nanos) + j ∧
        santiago.midnight
          ((sundays "America/Santiago").firstDay santiago (1788220800 * nanos) + j) * nanos <
          1788220800 * nanos + occurrenceHorizon := by
      decide +kernel
    intro j hj
    exact ⟨(hdays j hj).1, (hdays j hj).2, fun e he => (nomatch he)⟩
  short := by decide +kernel
  back := by decide +kernel
  horizon := by decide +kernel
  last := fun e he => (nomatch he)

/-- The walk never gets past the date before: `Next` does not return. -/
theorem santiago_never_returns :
    (∀ fuel, (sundays "America/Santiago").next zones fuel (1788220800 * nanos) 1 [] = none) ∧
      ¬ (sundays "America/Santiago").NextCorrect zones santiago (1788220800 * nanos) 1 [] := by
  have hnone : ∀ fuel,
      (sundays "America/Santiago").next zones fuel (1788220800 * nanos) 1 [] = none := by
    intro fuel
    unfold Recurrence.next
    rw [if_neg (by decide +kernel)]
    exact santiago_fallsBack.walk_eq_none (by decide +kernel) fuel
  refine ⟨hnone, ?_⟩
  rintro ⟨fuel, out, hout, _⟩
  rw [hnone] at hout
  cases hout

end Sluicio.Maintenance
