import Sluicio.Advisor.Store
import Sluicio.Advisor.Supply
import Sluicio.Alerting.Store.Rules

/-!
# The alert fatigue advisor

The firing history of a rule over the observation window is one row of aggregates: how often
it fired, whether any of its instances is open, how long the longest lasted.  F1 to F4 judge a
rule by that row, the first class that applies; F5 counts the minutes in which two rules both
start firing.  What a finding says to a reader is left out here, but for the numbers in it.
-/

namespace Sluicio.Advisor

open Lib
open Alerting (AlertInstance Duration Severity Signal second hour)
open Alerting.Store (Database Row)

/-- The tables that an evaluation reads, and the time at which it does. -/
structure History where
  database : Database
  instances : List AlertInstance
  now : Time

/-- The organization, the demand recorded for it and the window looked at. -/
structure FatigueInput where
  orgID : UUID
  demand : DemandSet
  start : Time
  stop : Time

def History.rules (h : History) (i : FatigueInput) : List Row :=
  h.database.rules.filter fun r => r.organizationID = i.orgID

def History.firings (h : History) (i : FatigueInput) (rule : UUID) : List AlertInstance :=
  h.instances.filter fun a =>
    a.alertRuleID = rule ∧ i.start ≤ a.startedAt ∧ a.startedAt < i.stop

/-- `COALESCE(i.ended_at, now()) - i.started_at`. -/
def History.up (h : History) (a : AlertInstance) : Duration :=
  ((a.endedAt.getD h.now : Nat) : Int) - a.startedAt

structure RuleStats where
  ruleID : UUID
  name : String
  severity : Severity
  enabled : Bool
  signal : Signal
  service : String
  firings : Nat
  handled : Nat
  openNow : Bool
  longestUp : Duration
  meanUp : Duration
  hasRoute : Bool
  firstFire : Time
  lastFire : Time

/-- `time.Duration(s) * time.Second`, of the seconds of an interval; `Duration` drops what is
less than a second. -/
def wholeSeconds (d : Duration) : Duration := d.tdiv second * second

/-- One row of `LoadRuleStats`.  A rule that has not fired is joined with a row of nulls, for
which `ended_at IS NULL` holds. -/
def ruleStats (h : History) (i : FatigueInput) (r : Row) : RuleStats :=
  let fired := h.firings i r.id
  let ups := fired.map h.up
  { ruleID := r.id
    name := r.name
    severity := r.severity
    enabled := r.enabled
    signal := r.signal
    service := r.serviceName.getD ""
    firings := fired.length
    handled := fired.countP fun a => a.handledAt.isSome
    openNow := fired.isEmpty || fired.any fun a => a.endedAt.isNone
    longestUp := wholeSeconds (ups.max?.getD 0)
    meanUp := wholeSeconds (ups.sum.tdiv ups.length)
    hasRoute := h.database.routes.any fun route => route.alertRuleID = r.id
    firstFire := (fired.map AlertInstance.startedAt).min?.getD 0
    lastFire := (fired.map AlertInstance.startedAt).max?.getD 0 }

def loadRuleStats (h : History) (i : FatigueInput) : List RuleStats :=
  (h.rules i).map (ruleStats h i)

/-! ## F1 to F4 -/

def minFiringsForFatigue : Nat := 10
def wallpaperDays : Int := 14
def minFlapCyclesPerDay : Nat := 4

/-- How long an instance fires to be wallpaper. -/
def wallpaper : Duration := wallpaperDays * (24 * hour)

def days (d : Duration) : Int := d.tdiv (24 * hour)

def idString (id : UUID) : String := String.ofList (groupedHex id)

/-- The fingerprint of a finding about one rule, and that of F5. -/
def ruleFingerprint (cls : Class) (rule : UUID) : Fingerprint := ⟨cls, "rule|" ++ idString rule⟩
def pairFingerprint (a b : UUID) : Fingerprint :=
  ⟨.f5, "rule-pair|" ++ idString a ++ "|" ++ idString b⟩

/-- A finding of the alerting evaluators, with the numbers of its evidence. -/
structure FatigueFinding where
  fingerprint : Fingerprint
  scopeKind : String
  scopeID : String
  weight : Int
  evidence : List (String × Int)

/-- Somebody acknowledged an instance, or followed a link of a notification. -/
def FatigueInput.Engaged (i : FatigueInput) (s : RuleStats) : Prop :=
  0 < s.handled ∨ i.demand.ConsumedSince "alert" "" (idString s.ruleID) i.start

instance (i : FatigueInput) (s : RuleStats) : Decidable (i.Engaged s) :=
  inferInstanceAs (Decidable (_ ∨ (_ ∧ _)))

/-- F2. -/
def RuleStats.Wallpaper (s : RuleStats) : Prop :=
  s.openNow ∧ wallpaper ≤ s.longestUp

/-- F3; the quotient by the days of the window, which count as one at least, is an exact one. -/
def FatigueInput.Flapper (i : FatigueInput) (s : RuleStats) : Prop :=
  minFiringsForFatigue ≤ s.firings ∧
    minFlapCyclesPerDay * max day (i.stop - i.start) ≤ s.firings * day ∧ s.meanUp < hour

/-- F1. -/
def FatigueInput.Ignored (i : FatigueInput) (s : RuleStats) : Prop :=
  minFiringsForFatigue ≤ s.firings ∧ ¬ i.Engaged s

/-- F4. -/
def RuleStats.Unrouted (s : RuleStats) : Prop :=
  s.enabled ∧ s.hasRoute = false ∧ minFiringsForFatigue ≤ s.firings

instance (s : RuleStats) : Decidable s.Wallpaper := inferInstanceAs (Decidable (_ ∧ _))
instance (i : FatigueInput) (s : RuleStats) : Decidable (i.Flapper s) :=
  inferInstanceAs (Decidable (_ ∧ _ ∧ _))
instance (i : FatigueInput) (s : RuleStats) : Decidable (i.Ignored s) :=
  inferInstanceAs (Decidable (_ ∧ _))
instance (s : RuleStats) : Decidable s.Unrouted := inferInstanceAs (Decidable (_ ∧ _ ∧ _))

/-- What F1 to F4 have in common. -/
def RuleStats.finding (s : RuleStats) (cls : Class) (weight : Int)
    (evidence : List (String × Int)) : FatigueFinding where
  fingerprint := ruleFingerprint cls s.ruleID
  scopeKind := "rule"
  scopeID := idString s.ruleID
  weight := weight
  evidence := evidence

def RuleStats.wallpaperFinding (s : RuleStats) : FatigueFinding :=
  s.finding .f2 (days s.longestUp) [("continuous_days", days s.longestUp),
    ("firings", s.firings), ("acknowledged", s.handled)]

/-- One round of the loop of `EvaluateFatigue`. -/
def FatigueInput.judge (i : FatigueInput) (s : RuleStats) : Option FatigueFinding :=
  if s.Wallpaper then some s.wallpaperFinding
  else if i.Flapper s then
    some (s.finding .f3 s.firings [("firings", s.firings), ("acknowledged", s.handled)])
  else if i.Ignored s then
    some (s.finding .f1 s.firings [("firings", s.firings), ("acknowledged", s.handled),
      ("deep_link_opens", 0)])
  else if s.Unrouted then
    some (s.finding .f4 s.firings [("firings", s.firings), ("channels", 0)])
  else none

def startMinute (a : AlertInstance) : Nat := a.startedAt / 60000000000

/-- `fires`: the minutes in which each rule started firing. -/
def fires (h : History) (i : FatigueInput) : List (UUID × Nat) :=
  ((h.instances.filter fun a =>
      (∃ r ∈ h.rules i, r.id = a.alertRuleID) ∧ i.start ≤ a.startedAt ∧ a.startedAt < i.stop).map
    fun a => (a.alertRuleID, startMinute a)).dedup

/-- The rows of the query of `evalDuplicateRules`: pairs of rules, and how many minutes they
share. -/
def sharedMinutes (h : History) (i : FatigueInput) : List ((UUID × UUID) × Nat) :=
  let joined := selfJoin (fires h i)
  (joined.dedup.map fun p => (p, joined.count p)).filter fun p => minFiringsForFatigue ≤ p.2

def smallerFirings (a b : RuleStats) : Nat := if b.firings < a.firings then b.firings else a.firings

/-- The finding for a pair of rules.  `duplicateOverlap` is 0.9, and the quotient of two counts
is less than that just when it is less than nine tenths. -/
def duplicateFinding (a b : RuleStats) (shared : Nat) : Option FatigueFinding :=
  if smallerFirings a b = 0 ∨ 10 * shared < 9 * smallerFirings a b then none
  else some
    { fingerprint := pairFingerprint a.ruleID b.ruleID
      scopeKind := "rule"
      scopeID := idString a.ruleID
      weight := shared
      evidence := [("shared_minutes", shared), ("a_firings", a.firings), ("b_firings", b.firings)] }

def evalDuplicateRules (h : History) (i : FatigueInput) (stats : List RuleStats) :
    List FatigueFinding :=
  let byID := stats.filter fun s => minFiringsForFatigue ≤ s.firings
  if byID.length < 2 then []
  else (sharedMinutes h i).filterMap fun p =>
    match byID.find? (fun s => s.ruleID = p.1.1), byID.find? (fun s => s.ruleID = p.1.2) with
    | some a, some b => duplicateFinding a b p.2
    | _, _ => none

/-- `EvaluateFatigue`, where every query succeeds. -/
def evaluateFatigue (h : History) (i : FatigueInput) : List FatigueFinding :=
  if i.demand.Mature i.start then
    let stats := loadRuleStats h i
    stats.filterMap i.judge ++ evalDuplicateRules h i stats
  else []

end Sluicio.Advisor
