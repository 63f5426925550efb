import Mathlib.Tactic.Linarith
import Mathlib.Data.List.Chain
import Sluicio.Catalog
import Sluicio.Lib.Run
import Sluicio.Store.Selection

/-!
# The state export

Every interval the exporter counts the messages of each integration over a window that ends
some way behind the clock, and posts the counts as deltas.  The next window starts where the
last one that was delivered ends; after a long outage it is one interval again.  What happens
between two ticks to the stored spans is arbitrary, and so is what a tick finds.
-/

namespace Sluicio.Stateexport

open Lib (run StepsMeet)
open Store (Span LogAttrFilter EnvironmentConfig Engine)

structure IntegrationSlice where
  key : UUID
  services : List String
  groups : List (List LogAttrFilter)

section Count

variable {F : Type} (cfg : EnvironmentConfig) (engine : Engine F)

/-- The span is of the slice: its service is one of them, and it meets the clause of the
groups, which is asked over the window. -/
def ofSlice (traces : List Span) (start stop : Int) (sl : IntegrationSlice) (s : Span) : Bool :=
  s.serviceName ∈ sl.services &&
    ((Store.attrGroupsClause cfg engine .spanAttributes sl.groups start stop).isNone ||
      Store.satisfies engine traces (.span s)
        (Store.attrGroupsClause cfg engine .spanAttributes sl.groups start stop))

/-- The spans that `sliceTraceStatsSQL` reads for a slice: the window has both its ends. -/
def sliceRows (traces : List Span) (start stop : Int) (sl : IntegrationSlice) : List Span :=
  traces.filter fun s =>
    start ≤ s.timestamp && s.timestamp ≤ stop && ofSlice cfg engine traces start stop sl s

structure Message where
  key : UUID
  traceId : String
  deriving DecidableEq

/-- A delta that the receiver has acknowledged: its window, and what it was counted from. -/
structure Delivery where
  start : Int
  stop : Int
  traces : List Span
  slices : List IntegrationSlice

/-- `uniqExact(TraceId)`, for each slice. -/
def Delivery.counted (d : Delivery) : List Message :=
  (d.slices.flatMap fun sl =>
    (sliceRows cfg engine d.traces d.start d.stop sl).map fun s => ⟨sl.key, s.traceId⟩).dedup

/-- A span in the window of a delta, of the slice as it was then. -/
def Delivery.Reads (d : Delivery) (sl : IntegrationSlice) (s : Span) : Prop :=
  d.start ≤ s.timestamp ∧ s.timestamp ≤ d.stop ∧
    ofSlice cfg engine d.traces d.start d.stop sl s

instance (d : Delivery) (sl : IntegrationSlice) (s : Span) : Decidable (d.Reads cfg engine sl s) :=
  inferInstanceAs (Decidable (_ ∧ _ ∧ _))

/-- A message of an integration is torn by the end of a delta: it has a span in the window of
that delta, and one in the window of a later delta that lies at the end or behind it. -/
def Torn (d later : Delivery) : Prop :=
  ∃ sl ∈ d.slices, ∃ sl' ∈ later.slices, sl.key = sl'.key ∧
    ∃ s ∈ d.traces, ∃ s' ∈ later.traces, s.traceId = s'.traceId ∧
      d.Reads cfg engine sl s ∧ later.Reads cfg engine sl' s' ∧ d.stop ≤ s'.timestamp

instance (d later : Delivery) : Decidable (Torn cfg engine d later) :=
  inferInstanceAs (Decidable (∃ sl ∈ d.slices, _))

end Count

/-! ## The exporter -/

/-- The configuration that `New` leaves. -/
structure Config where
  interval : Int
  lag : Int
  pos : 0 < interval

def minute : Int := 60 * 1000000000

/-- `New`: an interval or a lag that is not positive takes its default. -/
def newConfig (interval lag : Int) : Config where
  interval := if interval ≤ 0 then minute else interval
  lag := if lag ≤ 0 then minute else lag
  pos := by
    split
    · decide
    · omega

/-- The end of the window that a tick counts. -/
def Config.countTo (c : Config) (now : Int) : Int := now - c.lag

/-- Its start: one interval before on the first run or after a long outage. -/
def Config.countFrom (c : Config) (nextFrom : Option Int) (now : Int) : Int :=
  match nextFrom with
  | none => c.countTo now - c.interval
  | some t =>
    if 10 * c.interval < c.countTo now - t then c.countTo now - c.interval else t

/-- What a tick finds: whether the cell is licensed, the integrations and how many systems there
are, whether the count can be read, and whether the receiver acknowledges. -/
structure Tick where
  licensed : Bool := true
  integrations : Except String (List IntegrationSlice)
  systems : Except String Nat
  countFails : Bool := false
  acknowledged : Bool

/-- The exporter, the clock, the stored spans, and the deltas acknowledged so far, the latest
first. -/
structure Exporter where
  now : Int
  traces : List Span := []
  nextFrom : Option Int := none
  delivered : List Delivery := []

inductive Action where
  /-- the stored spans become these -/
  | traffic (traces : List Span)
  /-- `ExportOnce`, so much later -/
  | tick (elapsed : Nat) (t : Tick)

section Export

variable (c : Config)

/-- The delta that a tick posts. -/
def Exporter.delta (e : Exporter) (t : Tick) (slices : List IntegrationSlice) : Delivery where
  start := c.countFrom e.nextFrom e.now
  stop := c.countTo e.now
  traces := e.traces
  slices := if t.countFails then [] else slices

/-- `ExportOnce`, now. -/
def Exporter.exportOnce (e : Exporter) (t : Tick) : Exporter :=
  if t.licensed = false then e
  else if c.countTo e.now ≤ c.countFrom e.nextFrom e.now then e
  else
    match t.integrations, t.systems with
    | .ok slices, .ok systems =>
      if slices = [] ∧ systems = 0 then { e with nextFrom := some (c.countTo e.now) }
      else if t.acknowledged then
        { e with
          nextFrom := some (c.countTo e.now)
          delivered := e.delta c t slices :: e.delivered }
      else { e with nextFrom := some (c.countFrom e.nextFrom e.now) }
    | _, _ => e

def step (e : Exporter) : Action → Exporter
  | .traffic traces => { e with traces := traces }
  | .tick elapsed t => { e with now := e.now + elapsed }.exportOnce c t

/-! ## Deltas that tile time -/

variable {F : Type} (cfg : EnvironmentConfig) (engine : Engine F)

/-- The acknowledged windows go forward without overlap, each from the end of the one before
unless that is more than ten intervals before its own end; and no message is counted in two of
them. -/
structure Tiles (delivered : List Delivery) : Prop where
  proper : ∀ d ∈ delivered, d.start < d.stop
  increasing : delivered.Pairwise fun d earlier => earlier.stop ≤ d.start
  gapless : delivered.IsChain fun d earlier =>
    d.start = earlier.stop ∨ 10 * c.interval < d.stop - earlier.stop
  once : (delivered.flatMap (Delivery.counted cfg engine)).Nodup

/-- A tick that moves the window finds an integration or a system, once a delta was
acknowledged. -/
def KeepsWindow (e : Exporter) : Action → Prop
  | .traffic _ => True
  | .tick elapsed t =>
    t.licensed → c.countFrom e.nextFrom (e.now + elapsed) < c.countTo (e.now + elapsed) →
      t.integrations = .ok [] → t.systems = .ok 0 → e.delivered = []

/-- The ends of the deltas so far tear no message that the tick counts. -/
def Exporter.Untorn (e : Exporter) (t : Tick) : Prop :=
  t.licensed → c.countFrom e.nextFrom e.now < c.countTo e.now →
    ∀ slices systems, t.integrations = .ok slices → t.systems = .ok systems →
      t.acknowledged → ∀ d ∈ e.delivered, ¬ Torn cfg engine d (e.delta c t slices)

def KeepsMessages (e : Exporter) : Action → Prop
  | .traffic _ => True
  | .tick elapsed t => Exporter.Untorn c cfg engine { e with now := e.now + elapsed } t

/-- The windows so far go forward, and the next one starts at the end of the last of them, or at
a later time when more than ten intervals have gone by since. -/
structure Exporter.Forward (e : Exporter) : Prop where
  proper : ∀ d ∈ e.delivered, d.start < d.stop
  increasing : e.delivered.Pairwise fun d earlier => earlier.stop ≤ d.start
  gapless : e.delivered.IsChain fun d earlier =>
    d.start = earlier.stop ∨ 10 * c.interval < d.stop - earlier.stop
  after : ∀ d ∈ e.delivered, ∃ t, e.nextFrom = some t ∧ d.stop ≤ t
  resumes : ∀ d ∈ e.delivered.head?, e.nextFrom = some d.stop ∨
    10 * c.interval < c.countTo e.now - d.stop

def Exporter.Once (e : Exporter) : Prop :=
  (e.delivered.flatMap (Delivery.counted cfg engine)).Nodup

end Export

section Forward

variable {F : Type} {cfg : EnvironmentConfig} {engine : Engine F} {c : Config} {e : Exporter}

theorem Config.le_countFrom (c : Config) (t now : Int) : t ≤ c.countFrom (some t) now := by
  have hpos := c.pos
  simp only [Config.countFrom]
  split <;> omega

theorem Config.countFrom_eq (c : Config) (t now : Int) :
    c.countFrom (some t) now = t ∨ 10 * c.interval < c.countTo now - t := by
  simp only [Config.countFrom]
  split
  · next hgap => exact Or.inr hgap
  · exact Or.inl rfl

theorem Delivery.mem_counted {d : Delivery} {m : Message} :
    m ∈ d.counted cfg engine ↔
      ∃ sl ∈ d.slices, ∃ s ∈ d.traces, d.Reads cfg engine sl s ∧ ⟨sl.key, s.traceId⟩ = m := by
  simp only [counted, List.mem_dedup, List.mem_flatMap, List.mem_map, sliceRows, List.mem_filter,
    Reads, Bool.and_eq_true, decide_eq_true_eq, and_assoc]

/-- Of two windows in order, a span in the later one is at the end of the earlier one or behind
it, so that what both count is what that end tears. -/
theorem torn_iff {d later : Delivery} (horder : d.stop ≤ later.start) :
    Torn cfg engine d later ↔ ∃ m, m ∈ d.counted cfg engine ∧ m ∈ later.counted cfg engine := by
  constructor
  · rintro ⟨sl, hsl, sl', hsl', hkey, s, hs, s', hs', htrace, hreads, hreads', -⟩
    refine ⟨⟨sl.key, s.traceId⟩, Delivery.mem_counted.2 ⟨sl, hsl, s, hs, hreads, rfl⟩, ?_⟩
    rw [hkey, htrace]
    exact Delivery.mem_counted.2 ⟨sl', hsl', s', hs', hreads', rfl⟩
  · rintro ⟨m, hm, hm'⟩
    obtain ⟨sl, hsl, s, hs, hreads, rfl⟩ := Delivery.mem_counted.1 hm
    obtain ⟨sl', hsl', s', hs', hreads', hsame⟩ := Delivery.mem_counted.1 hm'
    have hkey : sl'.key = sl.key := congrArg Message.key hsame
    have htrace : s'.traceId = s.traceId := congrArg Message.traceId hsame
    have hbehind : d.stop ≤ s'.timestamp := Int.le_trans horder hreads'.1
    exact ⟨sl, hsl, sl', hsl', hkey.symm, s, hs, s', hs', htrace.symm, hreads, hreads', hbehind⟩

namespace Exporter.Forward

theorem wait (h : e.Forward c) (elapsed : Nat) :
    Exporter.Forward c { e with now := e.now + elapsed } := by
  refine { h with resumes := fun d hd => ?_ }
  rcases h.resumes d hd with hsame | hgap
  · exact Or.inl hsame
  right
  have hlater : c.countTo e.now ≤ c.countTo (e.now + elapsed) := by
    unfold Config.countTo
    omega
  show 10 * c.interval < c.countTo (e.now + elapsed) - d.stop
  omega

theorem stop_le_countFrom (h : e.Forward c) {d : Delivery} (hd : d ∈ e.delivered) :
    d.stop ≤ c.countFrom e.nextFrom e.now := by
  obtain ⟨t, ht, hle⟩ := h.after d hd
  rw [ht]
  exact Int.le_trans hle (c.le_countFrom t e.now)

theorem countFrom_resumes (h : e.Forward c) {d : Delivery} (hd : d ∈ e.delivered.head?) :
    c.countFrom e.nextFrom e.now = d.stop ∨ 10 * c.interval < c.countTo e.now - d.stop := by
  rcases h.resumes d hd with hsame | hgap
  · rw [hsame]
    exact c.countFrom_eq d.stop e.now
  · exact Or.inr hgap

theorem refused (h : e.Forward c) :
    Exporter.Forward c { e with nextFrom := some (c.countFrom e.nextFrom e.now) } := by
  refine { h with after := fun d hd => ⟨_, rfl, h.stop_le_countFrom hd⟩, resumes := fun d hd => ?_ }
  rcases h.countFrom_resumes hd with hsame | hgap
  · exact Or.inl (congrArg some hsame)
  · exact Or.inr hgap

theorem acknowledged (h : e.Forward c) (hproper : c.countFrom e.nextFrom e.now < c.countTo e.now)
    (t : Tick) (slices : List IntegrationSlice) :
    Exporter.Forward c
      { e with
        nextFrom := some (c.countTo e.now)
        delivered := e.delta c t slices :: e.delivered } := by
  constructor
  · intro d hd
    rcases List.mem_cons.1 hd with rfl | hold
    · exact hproper
    · exact h.proper d hold
  · exact List.pairwise_cons.2 ⟨fun d hd => h.stop_le_countFrom hd, h.increasing⟩
  · exact h.gapless.cons fun d hd => h.countFrom_resumes hd
  · intro d hd
    refine ⟨_, rfl, ?_⟩
    rcases List.mem_cons.1 hd with rfl | hold
    · exact Int.le_refl _
    · exact Int.le_trans (h.stop_le_countFrom hold) (Int.le_of_lt hproper)
  · intro d hd
    obtain rfl := Option.some.inj hd
    exact Or.inl rfl

end Exporter.Forward

/-- Counting a delta keeps every message counted once just when no end tears one of its. -/
theorem once_acknowledged (h : e.Forward c) (t : Tick) (slices : List IntegrationSlice)
    (nextFrom : Option Int) :
    Exporter.Once cfg engine
        { e with nextFrom := nextFrom, delivered := e.delta c t slices :: e.delivered } ↔
      e.Once cfg engine ∧ ∀ d ∈ e.delivered, ¬ Torn cfg engine d (e.delta c t slices) := by
  have htorn : (∀ d ∈ e.delivered, ¬ Torn cfg engine d (e.delta c t slices)) ↔
      ∀ d ∈ e.delivered, ∀ m ∈ d.counted cfg engine,
        m ∉ (e.delta c t slices).counted cfg engine := by
    refine forall₂_congr fun d hd => ?_
    rw [torn_iff (h.stop_le_countFrom hd), not_exists]
    exact forall_congr' fun m => not_and
  rw [htorn]
  unfold Exporter.Once
  rw [List.flatMap_cons, List.nodup_append']
  constructor
  · rintro ⟨-, hold, hdisjoint⟩
    refine ⟨hold, fun d hd m hm hnow => ?_⟩
    exact hdisjoint hnow (List.mem_flatMap.2 ⟨d, hd, hm⟩)
  · rintro ⟨hold, hno⟩
    refine ⟨List.nodup_dedup _, hold, fun m hnow hm => ?_⟩
    obtain ⟨d, hd, hcounted⟩ := List.mem_flatMap.1 hm
    exact hno d hd m hcounted hnow

/-- **One tick.** -/
theorem exportOnce_keeps (h : e.Forward c) {t : Tick}
    (ht : t.licensed → c.countFrom e.nextFrom e.now < c.countTo e.now →
      t.integrations = .ok [] → t.systems = .ok 0 → e.delivered = []) :
    (e.exportOnce c t).Forward c ∧
      ((e.exportOnce c t).Once cfg engine ↔ e.Once cfg engine ∧ e.Untorn c cfg engine t) := by
  have hidle (huntorn : e.Untorn c cfg engine t) :
      e.Once cfg engine ↔ e.Once cfg engine ∧ e.Untorn c cfg engine t :=
    (and_iff_left huntorn).symm
  unfold Exporter.exportOnce
  by_cases hlicensed : t.licensed = false
  · rw [if_pos hlicensed]
    exact ⟨h, hidle fun hyes => absurd (hlicensed.symm.trans hyes) Bool.false_ne_true⟩
  rw [if_neg hlicensed]
  have hlicensed' : t.licensed := by simpa using hlicensed
  by_cases hearly : c.countTo e.now ≤ c.countFrom e.nextFrom e.now
  · rw [if_pos hearly]
    exact ⟨h, hidle fun _ hproper => absurd hproper (Int.not_lt.2 hearly)⟩
  rw [if_neg hearly]
  have hproper : c.countFrom e.nextFrom e.now < c.countTo e.now := Int.not_le.1 hearly
  cases hslices : t.integrations with
  | error err =>
    exact ⟨h, hidle fun _ _ slices _ hok => absurd (hslices.symm.trans hok) nofun⟩
  | ok slices =>
    cases hsystems : t.systems with
    | error err =>
      exact ⟨h, hidle fun _ _ _ systems _ hok => absurd (hsystems.symm.trans hok) nofun⟩
    | ok systems =>
      simp only
      by_cases hnone : slices = [] ∧ systems = 0
      · rw [if_pos hnone]
        have hdelivered := ht hlicensed' hproper (hnone.1 ▸ hslices) (hnone.2 ▸ hsystems)
        have huntorn : e.Untorn c cfg engine t := by
          intro _ _ _ _ _ _ _ d hd
          rw [hdelivered] at hd
          exact absurd hd List.not_mem_nil
        refine ⟨{ h with after := ?_, resumes := ?_ }, hidle huntorn⟩
        · intro d hd
          rw [hdelivered] at hd
          exact absurd hd List.not_mem_nil
        · intro d hd
          rw [hdelivered] at hd
          exact absurd hd (Option.not_mem_none d)
      · rw [if_neg hnone]
        by_cases hack : t.acknowledged = true
        · rw [if_pos hack]
          refine ⟨h.acknowledged hproper t slices, (once_acknowledged h t slices _).trans ?_⟩
          refine and_congr_right fun _ => ⟨fun hno => ?_, fun huntorn => ?_⟩
          · intro _ _ slices' systems' hslices' _ _
            rw [← Except.ok.inj (hslices.symm.trans hslices')]
            exact hno
          · exact huntorn hlicensed' hproper slices systems hslices hsystems hack
        · rw [if_neg hack]
          exact ⟨h.refused, hidle fun _ _ _ _ _ _ hyes => absurd hyes hack⟩

/-- **One step.** -/
theorem step_keeps (cfg : EnvironmentConfig) (engine : Engine F) (e : Exporter) (a : Action)
    (h : e.Forward c) (ha : KeepsWindow c e a) :
    (step c e a).Forward c ∧
      ((step c e a).Once cfg engine ↔ e.Once cfg engine ∧ KeepsMessages c cfg engine e a) := by
  cases a with
  | traffic traces => exact ⟨{ h with }, (and_iff_left trivial).symm⟩
  | tick elapsed t => exact exportOnce_keeps (h.wait elapsed) ha

end Forward

private def textless : Engine Unit :=
  ⟨fun _ _ => false, fun _ => none, fun _ => none, fun _ _ _ => false⟩

private def noAliases : EnvironmentConfig := ⟨"", []⟩

private def stepAt (t : Int) : Span := ⟨t, "m1", "s1", "", "orders", "", "", [], []⟩

private def ordersTick : Tick :=
  { integrations := .ok [⟨1, ["orders"], []⟩], systems := .ok 0, acknowledged := true }

private def emptyTick : Tick :=
  { integrations := .ok [], systems := .ok 0, acknowledged := true }

private def exported (as : List Action) : List Delivery :=
  (run (step (newConfig 0 0)) { now := 10 * minute } as).delivered

end Sluicio.Stateexport
