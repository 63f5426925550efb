import Mathlib.Algebra.Ring.Int.Defs
import Mathlib.Data.List.Basic

/-!
# Local time over a transition table

A local date is the number of days since 1970-01-01, and a zone is a table of offsets
and of the instants, in Unix seconds, at which they begin.  `Zone.date` is the documented
algorithm of `time.Date`: it first takes the local time for UTC to look an offset up, and
looks again when the result lies outside the span of that offset.  A local time that a
transition skips is so moved by the length of the gap, forwards or backwards.
-/

namespace Sluicio.Lib

def isLeap (year : Int) : Bool :=
  year % 4 = 0 && (year % 100 ≠ 0 || year % 400 = 0)

def daysIn (month : Int) (year : Int) : Int :=
  if month = 2 then (if isLeap year then 29 else 28)
  else if month ∈ [4, 6, 9, 11] then 30
  else 31

/-- The date of a year, month and day.  Years here begin in March, so that the leap day is
the last of its year. -/
def ofCivil (year month day : Int) : Int :=
  let y := if month ≤ 2 then year - 1 else year
  let yearDay := (153 * (if 2 < month then month - 3 else month + 9) + 2) / 5 + day - 1
  let eraDay := (y % 400) * 365 + (y % 400) / 4 - (y % 400) / 100 + yearDay
  (y / 400) * 146097 + eraDay - 719468

/-- Year, month and day of a date. -/
def civil (d : Int) : Int × Int × Int :=
  let z := d + 719468
  let eraDay := z % 146097
  let yearOfEra := (eraDay - eraDay / 1460 + eraDay / 36524 - eraDay / 146096) / 365
  let yearDay := eraDay - (365 * yearOfEra + yearOfEra / 4 - yearOfEra / 100)
  let m := (5 * yearDay + 2) / 153
  let month := if m < 10 then m + 3 else m - 9
  (yearOfEra + (z / 146097) * 400 + if month ≤ 2 then 1 else 0, month,
    yearDay - (153 * m + 2) / 5 + 1)

/-- 0 is Sunday. -/
def weekday (d : Int) : Int := (d + 4) % 7

example : (civil (ofCivil 2024 2 29), weekday (ofCivil 2024 2 29)) = ((2024, 2, 29), 4) := by
  decide

private theorem eraDay_split (e : Int) (h0 : 0 ≤ e) (h1 : e < 146097) :
    ∃ c q n d : Int, e = 36524 * c + 1461 * q + 365 * n + d ∧ 0 ≤ c ∧ c ≤ 3 ∧
      0 ≤ q ∧ q ≤ 24 ∧ 0 ≤ n ∧ n ≤ 3 ∧ 0 ≤ d ∧
      (d ≤ 364 ∨ (n = 3 ∧ d = 365 ∧ (c = 3 ∨ q ≤ 23))) := by
  by_cases hlast : e = 146096
  · exact ⟨3, 24, 3, 365, by omega⟩
  by_cases hleap : e % 36524 % 1461 = 1460
  · exact ⟨e / 36524, e % 36524 / 1461, 3, 365, by omega⟩
  · exact ⟨e / 36524, e % 36524 / 1461, e % 36524 % 1461 / 365, e % 36524 % 1461 % 365,
      by omega⟩

private theorem yearOfEra_split (e c q n d : Int) (he : e = 36524 * c + 1461 * q + 365 * n + d)
    (hc0 : 0 ≤ c) (hc : c ≤ 3) (hq0 : 0 ≤ q) (hq : q ≤ 24) (hn0 : 0 ≤ n) (hn : n ≤ 3) (hd0 : 0 ≤ d)
    (hd : d ≤ 364 ∨ (n = 3 ∧ d = 365 ∧ (c = 3 ∨ q ≤ 23))) :
    (e - e / 1460 + e / 36524 - e / 146096) / 365 = 100 * c + 4 * q + n := by
  have hcent : e / 36524 - e / 146096 = c := by
    by_cases hlast : e = 146096
    · omega
    · have h36524 : e / 36524 = c := by omega
      omega
  -- dividing by 1460 carries on the leap day, or where the skipped leap days bring it early
  have hcarry : ∃ k : Int, e / 1460 = 25 * c + q + k ∧ 0 ≤ d - k ∧ d - k < 365 := by
    by_cases h : 24 * c + q + 365 * n + d < 1460
    · exact ⟨0, by omega⟩
    · exact ⟨1, by omega⟩
  obtain ⟨k, hk, hk0, hk365⟩ := hcarry
  have hsum : e - e / 1460 + e / 36524 - e / 146096 = 365 * (100 * c + 4 * q + n) + (d - k) := by
    omega
  rw [hsum]
  omega

private theorem yearOfEra_spec (e : Int) (h0 : 0 ≤ e) (h1 : e < 146097) :
    ∃ y d : Int, (e - e / 1460 + e / 36524 - e / 146096) / 365 = y ∧
      0 ≤ y ∧ y < 400 ∧ e = 365 * y + y / 4 - y / 100 + d ∧ 0 ≤ d ∧ d ≤ 365 := by
  obtain ⟨c, q, n, d, he, hc0, hc, hq0, hq, hn0, hn, hd0, hd⟩ := eraDay_split e h0 h1
  have hy := yearOfEra_split e c q n d he hc0 hc hq0 hq hn0 hn hd0 hd
  have hy4 : (100 * c + 4 * q + n) / 4 = 25 * c + q := by omega
  have hy100 : (100 * c + 4 * q + n) / 100 = c := by omega
  refine ⟨100 * c + 4 * q + n, d, hy, by omega, by omega, ?_, hd0, by omega⟩
  rw [hy4, hy100, he]
  clear hy hy4 hy100 he
  omega

theorem ofCivil_civil (d : Int) : ofCivil (civil d).1 (civil d).2.1 (civil d).2.2 = d := by
  have h := yearOfEra_spec ((d + 719468) % 146097) (by omega) (by omega)
  obtain ⟨y, t, hy, hy0, hy400, he, ht0, ht⟩ := h
  unfold civil ofCivil
  simp only [hy]
  have hday : (d + 719468) % 146097 - (365 * y + y / 4 - y / 100) = t := by omega
  simp only [hday]
  generalize hm : (5 * t + 2) / 153 = m
  have hera : d + 719468 = (d + 719468) / 146097 * 146097 + (d + 719468) % 146097 := by omega
  generalize (d + 719468) / 146097 = era at *
  by_cases hm10 : m < 10
  · have hmonth : ¬ m + 3 ≤ 2 := by omega
    have hafter : 2 < m + 3 := by omega
    have hyear : (y + era * 400 + 0) / 400 = era ∧ (y + era * 400 + 0) % 400 = y := by omega
    simp only [hm10, hmonth, hafter, if_true, if_false]
    rw [hyear.1, hyear.2]
    omega
  have hmonth : m - 9 ≤ 2 := by omega
  have hbefore : ¬ 2 < m - 9 := by omega
  have hyear : (y + era * 400 + 1 - 1) / 400 = era ∧ (y + era * 400 + 1 - 1) % 400 = y := by
    omega
  simp only [hm10, hmonth, hbefore, if_true, if_false]
  rw [hyear.1, hyear.2]
  omega

theorem civil_bounds (d : Int) :
    1 ≤ (civil d).2.1 ∧ (civil d).2.1 ≤ 12 ∧ 1 ≤ (civil d).2.2 ∧ (civil d).2.2 ≤ 31 := by
  have h := yearOfEra_spec ((d + 719468) % 146097) (by omega) (by omega)
  obtain ⟨y, t, hy, hy0, hy400, he, ht0, ht⟩ := h
  unfold civil
  simp only [hy]
  have hday : (d + 719468) % 146097 - (365 * y + y / 4 - y / 100) = t := by omega
  simp only [hday]
  split <;> omega

/-! ## Zones -/

def secondsPerDay : Int := 86400

/-- The offset before the first transition, then each transition with its offset. -/
structure Zone where
  offset : Int
  transitions : List (Int × Int) := []

/-- One span of a zone: an offset, and from when until when it holds. -/
structure Span where
  offset : Int
  start : Option Int
  stop : Option Int

def lookupFrom (offset : Int) (start : Option Int) (unix : Int) : List (Int × Int) → Span
  | [] => ⟨offset, start, none⟩
  | (when_, next) :: rest =>
    if unix < when_ then ⟨offset, start, some when_⟩
    else lookupFrom next (some when_) unix rest

def Zone.lookup (z : Zone) (unix : Int) : Span := lookupFrom z.offset none unix z.transitions

/-- The instant lies in the span. -/
def Span.contains (s : Span) (unix : Int) : Bool :=
  s.start.all (· ≤ unix) && s.stop.all (unix < ·)

/-- `time.Date`: the Unix second of a local date and second of the day. -/
def Zone.date (z : Zone) (d : Int) (second : Int) : Int :=
  let unix := d * secondsPerDay + second
  let span := z.lookup unix
  if span.offset = 0 then unix
  else if span.contains (unix - span.offset) then unix - span.offset
  else unix - (z.lookup (unix - span.offset)).offset

/-- The local date of an instant. -/
def Zone.localDay (z : Zone) (unix : Int) : Int :=
  (unix + (z.lookup unix).offset) / secondsPerDay

/-- Local midnight of a date, or what `time.Date` makes of it. -/
def Zone.midnight (z : Zone) (d : Int) : Int := z.date d 0

def Zone.offsets (z : Zone) : List Int := z.offset :: z.transitions.map Prod.snd

theorem lookupFrom_mem (offset : Int) (start : Option Int) (unix : Int)
    (transitions : List (Int × Int)) :
    (lookupFrom offset start unix transitions).offset ∈
      offset :: transitions.map Prod.snd := by
  induction transitions generalizing offset start with
  | nil => exact List.mem_cons_self
  | cons t rest ih =>
    unfold lookupFrom
    split
    · exact List.mem_cons_self
    · exact List.mem_cons_of_mem _ (ih t.2 (some t.1))

theorem Zone.lookup_mem (z : Zone) (unix : Int) : (z.lookup unix).offset ∈ z.offsets :=
  lookupFrom_mem z.offset none unix z.transitions

theorem Zone.date_eq (z : Zone) (d : Int) (second : Int) :
    ∃ offset ∈ z.offsets, z.date d second = d * secondsPerDay + second - offset := by
  unfold Zone.date
  dsimp only
  split
  · next hzero =>
    refine ⟨_, z.lookup_mem (d * secondsPerDay + second), ?_⟩
    rw [hzero]
    omega
  · split
    · exact ⟨_, z.lookup_mem _, rfl⟩
    · exact ⟨_, z.lookup_mem _, rfl⟩

/-! ### Offsets that differ by less than a day -/

section Spread

variable {z : Zone} {spread : Int}
  (hspread : ∀ o ∈ z.offsets, ∀ o' ∈ z.offsets, o - o' ≤ spread)
include hspread

theorem Zone.date_lt (hday : spread < secondsPerDay) {d d' : Int} (h : d < d') (second : Int) :
    z.date d second < z.date d' second := by
  obtain ⟨o, ho, hd⟩ := z.date_eq d second
  obtain ⟨o', ho', hd'⟩ := z.date_eq d' second
  have hle := hspread o' ho' o ho
  rw [hd, hd']
  unfold secondsPerDay at *
  omega

/-- What is no later than a time of a date has no later date, unless the time is within the
spread of midnight. -/
theorem Zone.localDay_le {d second unix : Int} (hsecond : second + spread < secondsPerDay)
    (h : unix ≤ z.date d second) : z.localDay unix ≤ d := by
  obtain ⟨o, ho, hd⟩ := z.date_eq d second
  have hle := hspread _ (z.lookup_mem unix) o ho
  rw [hd] at h
  unfold Zone.localDay
  unfold secondsPerDay at *
  omega

end Spread

end Sluicio.Lib
