import Sluicio.Catalog
import Sluicio.Lib.Run
import Sluicio.Maintenance.Recurrence

/-!
# Recurring series and their windows

A series' next occurrence is a window row that `materializeSchedule` creates.  The
handlers and the loop are taken apart into their statements, so that an edit, a
cancellation and several materialisations interleave in any order.  Which occurrence a
row was created for, and which occurrences were cancelled, the tables do not keep: the
model records them beside the rows.
-/

namespace Sluicio.Maintenance

open Lib

def maxWindowDuration : Int := maxWindowMinutes * 60 * nanos

/-- The age at which `EndWindow` forgets a skip: 30 days. -/
def skipAge : Int := 30 * 24 * 3600 * nanos

abbrev SeriesOccurrence := UUID × Int

structure Window where
  id : UUID
  startsAt : Int
  endsAt : Int
  scheduleID : Option UUID
  occurrence : Option SeriesOccurrence

structure Schedule where
  id : UUID
  recurrence : Recurrence
  skippedStarts : List Int

/-- How far a call of `materializeSchedule` has come. -/
inductive Phase where
  | loaded
  /-- the occurrences it has still to look up, planned at `now` -/
  | looking (now : Int) (occs : List Occurrence)
  /-- it found no row for the occurrence, and is about to create it -/
  | creating (occ : Occurrence)

/-- A call of `materializeSchedule`, with the series as it was loaded and the
occurrences that had been cancelled by then. -/
structure Materialization where
  schedule : Schedule
  cancelledBefore : List SeriesOccurrence
  phase : Phase

/-- A call of `EndWindow` that has read its window, and whether the window had not
started then. -/
structure Ending where
  window : Window
  upcoming : Bool

structure State where
  tzdata : String → Option Zone
  now : Int := 0
  schedules : List Schedule := []
  windows : List Window := []
  runs : List Materialization := []
  endings : List Ending := []
  cancelled : List SeriesOccurrence := []
  nextID : Nat := 0

/-- The unique index on `(schedule_id, starts_at)` has the pair in a row other than `id`. -/
def State.taken (s : State) (id : Option UUID) (scheduleID : UUID) (startsAt : Int) : Bool :=
  s.windows.any fun w => some w.id ≠ id && w.scheduleID = some scheduleID && w.startsAt = startsAt

def State.createWindow (s : State) (startsAt endsAt : Int) (scheduleID : Option UUID)
    (occurrence : Option SeriesOccurrence) : State :=
  { s with
    windows := s.windows ++ [⟨s.nextID, startsAt, endsAt, scheduleID, occurrence⟩]
    nextID := s.nextID + 1 }

/-- What `validateWindow` checks of the bounds. -/
def validBounds (startsAt endsAt : Int) : Bool :=
  startsAt < endsAt && endsAt - startsAt ≤ maxWindowDuration

/-- `UpdateWindow`, the write of `updateMaintenanceWindow`; the index may refuse it. -/
def State.updateWindow (s : State) (id : UUID) (startsAt endsAt : Int) : State :=
  if s.windows.any fun w => w.id = id && w.scheduleID.any fun scheduleID =>
      s.taken (some id) scheduleID startsAt then s
  else
    { s with
      windows := updateWhere (fun w => w.id = id)
        (fun w => { w with startsAt := startsAt, endsAt := endsAt }) s.windows }

/-- `EndWindow` records the start on the series, and forgets old ones. -/
def Schedule.skip (sc : Schedule) (now startsAt : Int) : Schedule :=
  { sc with
    skippedStarts := (sc.skippedStarts.filter fun t => now - skipAge < t) ++ [startsAt] }

/-- The write of `EndWindow`: a window that had not started when it was read is skipped
and deleted, another one ends now. -/
def State.endWindow (s : State) (e : Ending) : State :=
  if e.upcoming then
    { s with
      schedules := updateWhere (fun sc => some sc.id = e.window.scheduleID)
        (fun sc => sc.skip s.now e.window.startsAt) s.schedules
      windows := s.windows.filter fun w => w.id ≠ e.window.id
      cancelled := s.cancelled ++ e.window.occurrence.toList }
  else
    { s with
      windows := updateWhere (fun w => w.id = e.window.id)
        (fun w => { w with endsAt := s.now }) s.windows }

/-- `DeleteSchedule`: `ON DELETE SET NULL` keeps the rows. -/
def State.deleteSchedule (s : State) (id : UUID) : State :=
  { s with
    schedules := s.schedules.filter fun sc => sc.id ≠ id
    windows := updateWhere (fun w => w.scheduleID = some id)
      (fun w => { w with scheduleID := none }) s.windows }

def State.occurrenceWindow (s : State) (scheduleID : UUID) (startsAt : Int) : Option Window :=
  s.windows.find? fun w => w.scheduleID = some scheduleID && w.startsAt = startsAt

/-- One turn of the loop in `materializeSchedule`, up to the creation: `none` when the call
returns. -/
def State.look (s : State) (scheduleID : UUID) (now : Int) : List Occurrence → Option Phase
  | [] => none
  | occ :: rest =>
    match s.occurrenceWindow scheduleID occ.startsAt with
    | some existing => if now < existing.endsAt then none else some (.looking now rest)
    | none => some (.creating occ)

/-- The insert of `materializeSchedule`: refused when the row is there, or the series is
not. -/
def State.create (s : State) (scheduleID : UUID) (occ : Occurrence) : State :=
  if s.taken none scheduleID occ.startsAt || s.schedules.all fun sc => sc.id ≠ scheduleID then s
  else s.createWindow occ.startsAt occ.endsAt (some scheduleID) (some (scheduleID, occ.startsAt))

inductive Action where
  | createSchedule (recurrence : Recurrence)
  | updateSchedule (id : UUID) (recurrence : Recurrence)
  | deleteSchedule (id : UUID)
  /-- `createMaintenanceWindow`, not of a series -/
  | createWindow (startsAt endsAt : Int)
  /-- `updateMaintenanceWindow`; a start that is not given is now -/
  | updateWindow (id : UUID) (startsAt : Option Int) (endsAt : Int)
  /-- `DeleteWindowRow`, as an edit or a deletion of the series does for a window that
  has not started -/
  | deleteWindowRow (id : UUID)
  /-- `EndWindow` reads a window and the clock -/
  | readWindow (id : UUID)
  | endWindow (k : Nat)
  /-- `materializeSchedule` is called with a series just read or written -/
  | load (id : UUID)
  /-- run `k` calls `Next`; without enough fuel it has not returned -/
  | plan (k fuel : Nat)
  | look (k : Nat)
  | create (k : Nat) (scopeFails : Bool)
  | advance (d : Nat)

def State.step (s : State) : Action → State
  | .createSchedule recurrence =>
    { s with schedules := s.schedules ++ [⟨s.nextID, recurrence, []⟩], nextID := s.nextID + 1 }
  | .updateSchedule id recurrence =>
    { s with
      schedules := updateWhere (fun sc => sc.id = id)
        (fun sc => { sc with recurrence := recurrence }) s.schedules }
  | .deleteSchedule id => s.deleteSchedule id
  | .createWindow startsAt endsAt =>
    if validBounds startsAt endsAt then s.createWindow startsAt endsAt none none else s
  | .updateWindow id startsAt endsAt =>
    if validBounds (startsAt.getD s.now) endsAt then
      s.updateWindow id (startsAt.getD s.now) endsAt
    else s
  | .deleteWindowRow id => { s with windows := s.windows.filter fun w => w.id ≠ id }
  | .readWindow id =>
    match s.windows.find? fun w => w.id = id with
    | some w => { s with endings := s.endings ++ [⟨w, s.now < w.startsAt⟩] }
    | none => s
  | .endWindow k =>
    match s.endings[k]? with
    | some e => { s with endings := s.endings.eraseIdx k }.endWindow e
    | none => s
  | .load id =>
    match s.schedules.find? fun sc => sc.id = id with
    | some sc => { s with runs := s.runs ++ [⟨sc, s.cancelled, .loaded⟩] }
    | none => s
  | .plan k fuel =>
    match s.runs[k]? with
    | some ⟨sc, before, .loaded⟩ =>
      match sc.recurrence.next s.tzdata fuel s.now 8 sc.skippedStarts with
      | some occs => { s with runs := s.runs.set k ⟨sc, before, .looking s.now occs⟩ }
      | none => s
    | _ => s
  | .look k =>
    match s.runs[k]? with
    | some ⟨sc, before, .looking now occs⟩ =>
      match s.look sc.id now occs with
      | some phase => { s with runs := s.runs.set k ⟨sc, before, phase⟩ }
      | none => { s with runs := s.runs.eraseIdx k }
    | _ => s
  | .create k scopeFails =>
    match s.runs[k]? with
    | some ⟨sc, _, .creating occ⟩ =>
      if scopeFails then { s with runs := s.runs.eraseIdx k }
      else { s with runs := s.runs.eraseIdx k }.create sc.id occ
    | _ => s
  | .advance d => { s with now := s.now + d }

/-! ## One window an occurrence -/

def State.live (s : State) (w : Window) : Bool := s.now < w.endsAt

/-- Every occurrence has at most one live window. -/
def State.OneLive (s : State) : Prop :=
  ((s.windows.filter s.live).filterMap Window.occurrence).Nodup

/-- No occurrence that was cancelled has a window. -/
def State.NotRecreated (s : State) : Prop :=
  ∀ o ∈ s.cancelled, ∀ w ∈ s.windows, w.occurrence ≠ some o

/-- The occurrence a run is about to create. -/
def Materialization.next? (m : Materialization) : Option SeriesOccurrence :=
  match m.phase with
  | .creating occ => some (m.schedule.id, occ.startsAt)
  | _ => none

/-- A step neither moves an occurrence's window, nor cancels a window whose occurrence
has got another row meanwhile, nor creates an occurrence that was cancelled after its
series was loaded. -/
def KeepsOccurrences (s : State) : Action → Prop
  | .updateWindow id startsAt _ =>
    ∀ w ∈ s.windows, w.id = id → w.scheduleID = none ∨ startsAt.getD s.now = w.startsAt
  | .endWindow k =>
    ∀ e ∈ s.endings[k]?, e.upcoming → ∀ o ∈ e.window.occurrence,
      ∀ w ∈ s.windows, w.occurrence = some o → w.id = e.window.id
  | .create k _ =>
    ∀ m ∈ s.runs[k]?, ∀ o ∈ m.next?, o ∈ s.cancelled → o ∈ m.cancelledBefore
  | _ => True

instance KeepsOccurrences.decidable (s : State) : (a : Action) → Decidable (KeepsOccurrences s a)
  | .updateWindow id startsAt _ => inferInstanceAs (Decidable (∀ w ∈ s.windows, w.id = id →
      w.scheduleID = none ∨ startsAt.getD s.now = w.startsAt))
  | .endWindow k => inferInstanceAs (Decidable (∀ e ∈ s.endings[k]?, e.upcoming →
      ∀ o ∈ e.window.occurrence, ∀ w ∈ s.windows, w.occurrence = some o → w.id = e.window.id))
  | .create k _ => inferInstanceAs (Decidable (∀ m ∈ s.runs[k]?, ∀ o ∈ m.next?,
      o ∈ s.cancelled → o ∈ m.cancelledBefore))
  | .createSchedule _ | .updateSchedule _ _ | .deleteSchedule _ | .createWindow _ _
  | .deleteWindowRow _ | .readWindow _ | .load _ | .plan _ _ | .look _
  | .advance _ => isTrue trivial

/-! ## What holds of the tables -/

/-- The skip is still on the list, or the occurrence is past planning. -/
def Skipped (skippedStarts : List Int) (now start : Int) : Prop :=
  start ∈ skippedStarts ∨ start + skipAge ≤ now

variable {now start : Int}

theorem Skipped.later {skippedStarts : List Int} {now' : Int} (h : Skipped skippedStarts now start)
    (hnow : now ≤ now') : Skipped skippedStarts now' start := by
  rcases h with hmem | hage
  · exact .inl hmem
  · exact .inr (by omega)

theorem Skipped.skip {sc : Schedule} (h : Skipped sc.skippedStarts now start) (startsAt : Int) :
    Skipped (sc.skip now startsAt).skippedStarts now start := by
  rcases h with hmem | hage
  · by_cases hold : now - skipAge < start
    · exact .inl (List.mem_append_left _ (List.mem_filter.2 ⟨hmem, by simpa using hold⟩))
    · exact .inr (by omega)
  · exact .inr hage

theorem skipped_skip (sc : Schedule) (now startsAt : Int) :
    Skipped (sc.skip now startsAt).skippedStarts now startsAt :=
  .inl (List.mem_append_right _ List.mem_cons_self)

/-- **A skipped occurrence is not planned again.** -/
theorem Skipped.not_planned {tzdata : String → Option Zone} {sc : Schedule}
    (h : Skipped sc.skippedStarts now start) {fuel : Nat} {n : Int} {occs : List Occurrence}
    (hnext : sc.recurrence.next tzdata fuel now n sc.skippedStarts = some occs) {occ : Occurrence}
    (hocc : occ ∈ occs) : occ.startsAt ≠ start := by
  have hplanned := Recurrence.mem_next hnext hocc
  intro hstart
  rcases h with hmem | hage
  · exact hplanned.2.1 (List.mem_map_of_mem (hstart ▸ hmem))
  · have hends := hplanned.1
    have hlong := hplanned.2.2
    unfold skipAge nanos at hage
    unfold maxWindowMinutes nanos at hlong
    omega

/-- A row of a series stands for the occurrence it starts with; one whose series is gone
for an occurrence of that series. -/
structure RowSound (schedules : List Schedule) (nextID : Nat) (w : Window) : Prop where
  kept : ∀ id, w.scheduleID = some id → w.occurrence = some (id, w.startsAt)
  gone : w.scheduleID = none → ∀ o ∈ w.occurrence, ∀ sc ∈ schedules, sc.id ≠ o.1
  known : ∀ o ∈ w.occurrence, o.1 < nextID

/-- What a run will create was not cancelled when its series was loaded. -/
def RunSound (now : Int) (m : Materialization) : Prop :=
  match m.phase with
  | .loaded => ∀ o ∈ m.cancelledBefore, o.1 = m.schedule.id →
      Skipped m.schedule.skippedStarts now o.2
  | .looking _ occs => ∀ occ ∈ occs, (m.schedule.id, occ.startsAt) ∉ m.cancelledBefore
  | .creating occ => (m.schedule.id, occ.startsAt) ∉ m.cancelledBefore

structure State.Sound (s : State) : Prop where
  unique : (s.windows.filterMap Window.occurrence).Nodup
  schedules : ∀ sc ∈ s.schedules, sc.id < s.nextID
  rows : ∀ w ∈ s.windows, RowSound s.schedules s.nextID w
  endings : ∀ e ∈ s.endings, RowSound s.schedules s.nextID e.window
  known : ∀ o ∈ s.cancelled, o.1 < s.nextID
  noWindow : s.NotRecreated
  skipped : ∀ o ∈ s.cancelled, ∀ sc ∈ s.schedules, sc.id = o.1 → Skipped sc.skippedStarts s.now o.2
  runs : ∀ m ∈ s.runs, RunSound s.now m

theorem RowSound.mono {schedules schedules' : List Schedule} {nextID nextID' : Nat} {w : Window}
    (h : RowSound schedules nextID w) (hnext : nextID ≤ nextID')
    (hfresh : ∀ sc ∈ schedules', nextID ≤ sc.id ∨ ∃ sc₀ ∈ schedules, sc₀.id = sc.id) :
    RowSound schedules' nextID' w where
  kept := h.kept
  gone := by
    intro hnone o ho sc hsc heq
    rcases hfresh sc hsc with hnew | ⟨sc₀, hsc₀, hid⟩
    · exact absurd (h.known o ho) (Nat.not_lt.2 (heq ▸ hnew))
    · exact h.gone hnone o ho sc₀ hsc₀ (hid.trans heq)
  known := fun o ho => Nat.lt_of_lt_of_le (h.known o ho) hnext

theorem RunSound.later {now' : Int} {m : Materialization} (h : RunSound now m) (hnow : now ≤ now') :
    RunSound now' m := by
  obtain ⟨sc, before, phase⟩ := m
  cases phase with
  | loaded => exact fun o ho hid => Skipped.later (h o ho hid) hnow
  | looking at_ occs => exact h
  | creating occ => exact h

/-! ## One lemma for each kind of write -/

section Writes

variable {s : State}

theorem State.Sound.rewrite (h : s.Sound) {windows : List Window}
    (hocc : (windows.filterMap Window.occurrence).Sublist (s.windows.filterMap Window.occurrence))
    (hrows : ∀ w ∈ windows, RowSound s.schedules s.nextID w) :
    { s with windows := windows }.Sound :=
  { h with
    unique := h.unique.sublist hocc
    rows := hrows
    noWindow := by
      intro o ho w hw heq
      have hmem : o ∈ s.windows.filterMap Window.occurrence :=
        hocc.subset (List.mem_filterMap.2 ⟨w, hw, heq⟩)
      obtain ⟨w₀, hw₀, heq₀⟩ := List.mem_filterMap.1 hmem
      exact h.noWindow o ho w₀ hw₀ heq₀ }

variable {p : Window → Bool} {f : Window → Window} {startsAt : Int}

theorem filterMap_updateWhere (hf : ∀ w, (f w).occurrence = w.occurrence) (windows : List Window) :
    (updateWhere p f windows).filterMap Window.occurrence =
      windows.filterMap Window.occurrence := by
  have hmap := map_updateWhere hf windows (p := p)
  have hid := fun ws : List Window =>
    List.filterMap_map (l := ws) (f := Window.occurrence) (g := id)
  rw [← Function.id_comp Window.occurrence, ← hid, ← hid, hmap]

theorem State.Sound.update (h : s.Sound) (hf : ∀ w, (f w).occurrence = w.occurrence)
    (hrows : ∀ w ∈ s.windows, p w → RowSound s.schedules s.nextID w →
      RowSound s.schedules s.nextID (f w)) :
    { s with windows := updateWhere p f s.windows }.Sound := by
  refine h.rewrite (by rw [filterMap_updateWhere hf]) fun w hw => ?_
  obtain ⟨w₀, hw₀, ⟨hp, rfl⟩ | ⟨_, rfl⟩⟩ := mem_updateWhere.1 hw
  · exact hrows w₀ hw₀ hp (h.rows w₀ hw₀)
  · exact h.rows w hw₀

theorem State.Sound.delete (h : s.Sound) (p : Window → Bool) :
    { s with windows := s.windows.filter p }.Sound :=
  h.rewrite (List.filter_sublist.filterMap _) fun w hw => h.rows w (List.mem_filter.1 hw).1

theorem State.Sound.series (h : s.Sound) {schedules : List Schedule}
    (hsame : ∀ sc ∈ schedules, ∃ sc₀ ∈ s.schedules, sc₀.id = sc.id ∧ ∀ start,
      Skipped sc₀.skippedStarts s.now start → Skipped sc.skippedStarts s.now start) :
    { s with schedules := schedules }.Sound := by
  have hold : ∀ sc ∈ schedules, s.nextID ≤ sc.id ∨ ∃ sc₀ ∈ s.schedules, sc₀.id = sc.id := by
    intro sc hsc
    obtain ⟨sc₀, hsc₀, hid, _⟩ := hsame sc hsc
    exact .inr ⟨sc₀, hsc₀, hid⟩
  exact
    { h with
      schedules := by
        intro sc hsc
        obtain ⟨sc₀, hsc₀, hid, _⟩ := hsame sc hsc
        exact hid ▸ h.schedules sc₀ hsc₀
      rows := fun w hw => (h.rows w hw).mono (Nat.le_refl _) hold
      endings := fun e he => (h.endings e he).mono (Nat.le_refl _) hold
      skipped := by
        intro o ho sc hsc heq
        obtain ⟨sc₀, hsc₀, hid, hskip⟩ := hsame sc hsc
        exact hskip _ (h.skipped o ho sc₀ hsc₀ (hid.trans heq)) }

theorem State.Sound.createSchedule (h : s.Sound) (recurrence : Recurrence) :
    (s.step (.createSchedule recurrence)).Sound := by
  have hnext : s.nextID ≤ s.nextID + 1 := Nat.le_succ _
  have hfresh : ∀ sc ∈ s.schedules ++ [⟨s.nextID, recurrence, []⟩],
      s.nextID ≤ sc.id ∨ ∃ sc₀ ∈ s.schedules, sc₀.id = sc.id := by
    intro sc hsc
    rcases List.mem_append.1 hsc with hold | hnew
    · exact .inr ⟨sc, hold, rfl⟩
    · rw [List.mem_singleton.1 hnew]
      exact .inl (Nat.le_refl _)
  exact
    { h with
      schedules := by
        intro sc hsc
        rcases List.mem_append.1 hsc with hold | hnew
        · exact Nat.lt_succ_of_lt (h.schedules sc hold)
        · rw [List.mem_singleton.1 hnew]
          exact Nat.lt_succ_self _
      rows := fun w hw => (h.rows w hw).mono hnext hfresh
      endings := fun e he => (h.endings e he).mono hnext hfresh
      known := fun o ho => Nat.lt_succ_of_lt (h.known o ho)
      skipped := by
        intro o ho sc hsc heq
        rcases List.mem_append.1 hsc with hold | hnew
        · exact h.skipped o ho sc hold heq
        · rw [List.mem_singleton.1 hnew] at heq
          exact absurd (h.known o ho) (Nat.not_lt.2 (Nat.le_of_eq heq)) }

theorem State.Sound.deleteSchedule (h : s.Sound) (id : UUID) : (s.deleteSchedule id).Sound := by
  have hseries : { s with schedules := s.schedules.filter fun sc => sc.id ≠ id }.Sound :=
    h.series fun sc hsc => ⟨sc, (List.mem_filter.1 hsc).1, rfl, fun _ hskip => hskip⟩
  refine hseries.update (fun _ => rfl) fun w hw hp hrow => ?_
  have hid : w.scheduleID = some id := by simpa using hp
  exact
    { kept := fun _ hnone => (nomatch hnone)
      gone := by
        intro _ o ho sc hsc
        have hocc : w.occurrence = some (id, w.startsAt) := hrow.kept id hid
        obtain rfl : (id, w.startsAt) = o := Option.some.inj (hocc.symm.trans ho)
        simpa using (List.mem_filter.1 hsc).2
      known := hrow.known }

theorem State.Sound.createWindow (h : s.Sound) {endsAt : Int} {scheduleID : Option UUID}
    {occurrence : Option SeriesOccurrence}
    (hnew : ∀ o ∈ occurrence, o ∉ s.cancelled ∧ ∀ w ∈ s.windows, w.occurrence ≠ some o)
    (hrow : RowSound s.schedules s.nextID ⟨s.nextID, startsAt, endsAt, scheduleID, occurrence⟩) :
    (s.createWindow startsAt endsAt scheduleID occurrence).Sound := by
  have hnext : s.nextID ≤ s.nextID + 1 := Nat.le_succ _
  have hold : ∀ sc ∈ s.schedules, s.nextID ≤ sc.id ∨ ∃ sc₀ ∈ s.schedules, sc₀.id = sc.id :=
    fun sc hsc => .inr ⟨sc, hsc, rfl⟩
  exact
    { h with
      unique := by
        have hsplit : (s.createWindow startsAt endsAt scheduleID occurrence).windows.filterMap
            Window.occurrence = s.windows.filterMap Window.occurrence ++ occurrence.toList := by
          cases occurrence <;> simp [State.createWindow]
        rw [hsplit]
        cases occurrence with
        | none => simpa using h.unique
        | some o =>
          refine List.nodup_append.2 ⟨h.unique, List.nodup_singleton o, ?_⟩
          intro o' ho' o'' ho'' heq
          obtain ⟨w, hw, hwo⟩ := List.mem_filterMap.1 ho'
          have hlast : o'' = o := by simpa using ho''
          exact (hnew o rfl).2 w hw (by rw [hwo, heq, hlast])
      schedules := fun sc hsc => Nat.lt_succ_of_lt (h.schedules sc hsc)
      rows := by
        intro w hw
        rcases List.mem_append.1 hw with hkept | hlast
        · exact (h.rows w hkept).mono hnext hold
        · rw [List.mem_singleton.1 hlast]
          exact hrow.mono hnext hold
      endings := fun e he => (h.endings e he).mono hnext hold
      known := fun o ho => Nat.lt_succ_of_lt (h.known o ho)
      noWindow := by
        intro o ho w hw heq
        rcases List.mem_append.1 hw with hkept | hlast
        · exact h.noWindow o ho w hkept heq
        · rw [List.mem_singleton.1 hlast] at heq
          exact (hnew o heq).1 ho }

/-- The write of `UpdateWindow` keeps the start of a series' row. -/
theorem State.Sound.updateWindow (h : s.Sound) {id : UUID} (endsAt : Int)
    (hkeeps : ∀ w ∈ s.windows, w.id = id → w.scheduleID = none ∨ startsAt = w.startsAt) :
    (s.updateWindow id startsAt endsAt).Sound := by
  unfold State.updateWindow
  split
  · exact h
  refine h.update (fun _ => rfl) fun w hw hp hrow => ?_
  have hsame := hkeeps w hw (by simpa using hp)
  exact
    { kept := by
        intro id' hid
        have hstart : startsAt = w.startsAt :=
          hsame.resolve_left fun hnone => (nomatch hnone.symm.trans hid)
        rw [hstart]
        exact hrow.kept id' hid
      gone := hrow.gone
      known := hrow.known }

/-- The write of `EndWindow`: a window that had not started is deleted with its
occurrence skipped. -/
theorem State.Sound.endWindow (h : s.Sound) {e : Ending}
    (hrow : RowSound s.schedules s.nextID e.window)
    (hkeeps : e.upcoming → ∀ o ∈ e.window.occurrence,
      ∀ w ∈ s.windows, w.occurrence = some o → w.id = e.window.id) : (s.endWindow e).Sound := by
  unfold State.endWindow
  split
  · next hup =>
    have hdelete := h.delete fun w => w.id ≠ e.window.id
    have hsame : ∀ sc ∈ updateWhere (fun sc => some sc.id = e.window.scheduleID)
        (fun sc => sc.skip s.now e.window.startsAt) s.schedules,
        ∃ sc₀ ∈ s.schedules, sc₀.id = sc.id ∧ ∀ start,
          Skipped sc₀.skippedStarts s.now start → Skipped sc.skippedStarts s.now start := by
      intro sc hsc
      obtain ⟨sc₀, hsc₀, ⟨_, rfl⟩ | ⟨_, rfl⟩⟩ := mem_updateWhere.1 hsc
      · exact ⟨sc₀, hsc₀, rfl, fun _ hskip => hskip.skip _⟩
      · exact ⟨sc, hsc₀, rfl, fun _ hskip => hskip⟩
    have hskips := hdelete.series hsame
    exact
      { hskips with
        known := by
          intro o ho
          rcases List.mem_append.1 ho with hold | hnew
          · exact hskips.known o hold
          · exact hrow.known o (Option.mem_toList.1 hnew)
        noWindow := by
          intro o ho w hw heq
          rcases List.mem_append.1 ho with hold | hnew
          · exact hskips.noWindow o hold w hw heq
          · obtain ⟨hw₀, hne⟩ := List.mem_filter.1 hw
            have hid := hkeeps hup o (Option.mem_toList.1 hnew) w hw₀ heq
            simp [hid] at hne
        skipped := by
          intro o ho sc hsc heq
          rcases List.mem_append.1 ho with hold | hnew
          · exact hskips.skipped o hold sc hsc heq
          have hocc : e.window.occurrence = some o := Option.mem_toList.1 hnew
          obtain ⟨sc₀, hsc₀, hcases⟩ := mem_updateWhere.1 hsc
          cases hschedule : e.window.scheduleID with
          | none =>
            have hid : sc.id = sc₀.id := by
              rcases hcases with ⟨_, rfl⟩ | ⟨_, rfl⟩ <;> rfl
            exact absurd (hid.symm.trans heq) (hrow.gone hschedule o hocc sc₀ hsc₀)
          | some id =>
            obtain rfl : (id, e.window.startsAt) = o :=
              Option.some.inj ((hrow.kept id hschedule).symm.trans hocc)
            rcases hcases with ⟨_, rfl⟩ | ⟨hp, rfl⟩
            · exact skipped_skip sc₀ s.now e.window.startsAt
            · simp only at heq
              simp [hschedule, heq] at hp }
  · refine h.update (fun _ => rfl) fun w _ _ hw => ?_
    exact { kept := hw.kept, gone := hw.gone, known := hw.known }

/-- **A run creates no row for an occurrence that has one or was cancelled.** -/
theorem State.Sound.create (h : s.Sound) {scheduleID : UUID} {occ : Occurrence}
    (hnot : (scheduleID, occ.startsAt) ∉ s.cancelled) : (s.create scheduleID occ).Sound := by
  unfold State.create
  split
  · exact h
  · next hfree =>
    simp only [State.taken, Bool.or_eq_true, List.any_eq_true, List.all_eq_true, not_or,
      not_exists, not_and] at hfree
    obtain ⟨hindex, hseries⟩ := hfree
    obtain ⟨sc, hsc, hid⟩ : ∃ sc ∈ s.schedules, sc.id = scheduleID := by
      simpa using hseries
    refine h.createWindow ?_ ?_
    · intro o ho
      obtain rfl : (scheduleID, occ.startsAt) = o := Option.some.inj ho
      refine ⟨hnot, fun w hw heq => ?_⟩
      cases hschedule : w.scheduleID with
      | none => exact (h.rows w hw).gone hschedule _ heq sc hsc hid
      | some id =>
        have hkept := (h.rows w hw).kept id hschedule
        rw [heq] at hkept
        simp only [Option.some.injEq, Prod.mk.injEq] at hkept
        refine hindex w hw ?_
        simp [hschedule, hkept.1, hkept.2]
    · exact
        { kept := by
            intro id hsome
            rw [Option.some.inj hsome]
          gone := by
            intro hnone
            cases hnone
          known := by
            intro o ho
            obtain rfl : (scheduleID, occ.startsAt) = o := Option.some.inj ho
            exact hid ▸ h.schedules sc hsc }

theorem State.Sound.runsSet (h : s.Sound) {k : Nat} {m : Materialization}
    (hm : RunSound s.now m) : { s with runs := s.runs.set k m }.Sound :=
  { h with
    runs := by
      intro m' hm'
      rcases List.mem_or_eq_of_mem_set hm' with hold | rfl
      · exact h.runs m' hold
      · exact hm }

theorem State.Sound.runsErase (h : s.Sound) (k : Nat) :
    { s with runs := s.runs.eraseIdx k }.Sound :=
  { h with runs := fun m hm => h.runs m (List.mem_of_mem_eraseIdx hm) }

theorem State.look_sound {sc : Schedule} {before : List SeriesOccurrence} {at_ : Int}
    {occs : List Occurrence} (h : RunSound s.now ⟨sc, before, .looking at_ occs⟩) {phase : Phase}
    (hlook : s.look sc.id at_ occs = some phase) : RunSound s.now ⟨sc, before, phase⟩ := by
  have hplanned : ∀ occ ∈ occs, (sc.id, occ.startsAt) ∉ before := h
  cases occs with
  | nil => cases hlook
  | cons occ rest =>
    rw [State.look] at hlook
    split at hlook
    · split at hlook
      · cases hlook
      · obtain rfl := Option.some.inj hlook
        exact fun o ho => hplanned o (List.mem_cons_of_mem _ ho)
    · obtain rfl := Option.some.inj hlook
      exact hplanned occ List.mem_cons_self

/-- **Step lemma.** -/
theorem State.Sound.step (h : s.Sound) {a : Action} (hkeeps : KeepsOccurrences s a) :
    (s.step a).Sound := by
  cases a with
  | createSchedule recurrence => exact h.createSchedule recurrence
  | updateSchedule id recurrence =>
    refine h.series fun sc hsc => ?_
    obtain ⟨sc₀, hsc₀, ⟨_, rfl⟩ | ⟨_, rfl⟩⟩ := mem_updateWhere.1 hsc
    · exact ⟨sc₀, hsc₀, rfl, fun _ hskip => hskip⟩
    · exact ⟨sc, hsc₀, rfl, fun _ hskip => hskip⟩
  | deleteSchedule id => exact h.deleteSchedule id
  | createWindow startsAt endsAt =>
    simp only [State.step]
    split
    · refine h.createWindow (fun o ho => (nomatch ho)) ?_
      exact
        { kept := fun _ hsome => (nomatch hsome)
          gone := fun _ o ho => (nomatch ho)
          known := fun o ho => (nomatch ho) }
    · exact h
  | updateWindow id startsAt endsAt =>
    simp only [State.step]
    split
    · exact h.updateWindow endsAt hkeeps
    · exact h
  | deleteWindowRow id => exact h.delete _
  | readWindow id =>
    simp only [State.step]
    split
    · next w hfind =>
      exact
        { h with
          endings := by
            intro e he
            rcases List.mem_append.1 he with hold | hnew
            · exact h.endings e hold
            · rw [List.mem_singleton.1 hnew]
              exact h.rows w (List.mem_of_find?_eq_some hfind) }
    · exact h
  | endWindow k =>
    simp only [State.step]
    split
    · next e he =>
      have herase : { s with endings := s.endings.eraseIdx k }.Sound :=
        { h with endings := fun e' he' => h.endings e' (List.mem_of_mem_eraseIdx he') }
      exact herase.endWindow (h.endings e (List.mem_of_getElem? he)) (hkeeps e he)
    · exact h
  | load id =>
    simp only [State.step]
    split
    · next sc hfind =>
      have hsc := List.mem_of_find?_eq_some hfind
      exact
        { h with
          runs := by
            intro m hm
            rcases List.mem_append.1 hm with hold | hnew
            · exact h.runs m hold
            · rw [List.mem_singleton.1 hnew]
              exact fun o ho hid => h.skipped o ho sc hsc hid.symm }
    · exact h
  | plan k fuel =>
    simp only [State.step]
    split
    · next sc before hrun =>
      split
      · next occs hnext =>
        have hloaded : ∀ o ∈ before, o.1 = sc.id →
            Skipped sc.skippedStarts s.now o.2 := h.runs _ (List.mem_of_getElem? hrun)
        refine h.runsSet fun occ hocc hmem => ?_
        exact (hloaded _ hmem rfl).not_planned hnext hocc rfl
      · exact h
    · exact h
  | look k =>
    simp only [State.step]
    split
    · next sc before at_ occs hrun =>
      split
      · next phase hlook =>
        exact h.runsSet (State.look_sound (h.runs _ (List.mem_of_getElem? hrun)) hlook)
      · exact h.runsErase k
    · exact h
  | create k scopeFails =>
    simp only [State.step]
    split
    · next sc before occ hrun =>
      split
      · exact h.runsErase k
      refine (h.runsErase k).create fun hmem => ?_
      have hbefore := hkeeps _ hrun _ rfl hmem
      have hsound : (sc.id, occ.startsAt) ∉ before := h.runs _ (List.mem_of_getElem? hrun)
      exact hsound hbefore
    · exact h
  | advance d =>
    have hnow : s.now ≤ s.now + d := by omega
    exact
      { h with
        skipped := fun o ho sc hsc heq => (h.skipped o ho sc hsc heq).later hnow
        runs := fun m hm => (h.runs m hm).later hnow }

end Writes

theorem State.sound_init (tzdata : String → Option Zone) (now : Int) :
    State.Sound { tzdata := tzdata, now := now } where
  unique := List.nodup_nil
  schedules := fun _ h => (nomatch h)
  rows := fun _ h => (nomatch h)
  endings := fun _ h => (nomatch h)
  known := fun _ h => (nomatch h)
  noWindow := fun _ h => (nomatch h)
  skipped := fun _ h => (nomatch h)
  runs := fun _ h => (nomatch h)

/-- **One live window an occurrence, and none for a cancelled one.**  In every
interleaving in which no occurrence's window is moved, none is cancelled behind another
row of its occurrence, and no run creates what was cancelled since it loaded its
series. -/
theorem oneLive_of_keepsOccurrences (tzdata : String → Option Zone) (now : Int) (as : List Action)
    (hrun : StepsMeet State.step KeepsOccurrences { tzdata := tzdata, now := now } as) :
    (run State.step { tzdata := tzdata, now := now } as).OneLive ∧
      (run State.step { tzdata := tzdata, now := now } as).NotRecreated := by
  have hend : (run State.step { tzdata := tzdata, now := now } as).Sound :=
    hrun.invariant (fun _ _ h ha => h.step ha) (State.sound_init tzdata now)
  exact ⟨hend.unique.sublist (List.filter_sublist.filterMap _), hend.noWindow⟩

private def nightly : Recurrence :=
  { frequency := .weekly, weekdays := [0], startTime := "02:00", durationMinutes := 60
    timezone := "UTC" }

private def onlyUTC (timezone : String) : Option Zone :=
  if timezone = "UTC" then some ⟨0, []⟩ else none

/-- The series of `nightly` is created on Tuesday, 1 September 2026, and its first window
by the loop. -/
private def firstCreated : List Action :=
  [.createSchedule nightly, .load 0, .plan 0 100, .look 0, .create 0 false]

private def skippedOnce : List Action :=
  firstCreated ++ [.readWindow 1, .endWindow 0, .load 0, .plan 0 100, .look 0, .create 0 false]

theorem oneLive_example :
    (run State.step { tzdata := onlyUTC, now := 1788220800 * nanos } skippedOnce).OneLive ∧
      (run State.step { tzdata := onlyUTC, now := 1788220800 * nanos } skippedOnce).NotRecreated :=
  oneLive_of_keepsOccurrences onlyUTC (1788220800 * nanos) skippedOnce (by decide +kernel)

private def moved : State :=
  run State.step { tzdata := onlyUTC, now := 1788220800 * nanos }
    (firstCreated ++ [.updateWindow 1 (some (1788663600 * nanos)) (1788667200 * nanos),
      .load 0, .plan 0 100, .look 0, .create 0 false])

/-- It is moved and cancelled, and the loop runs again. -/
private def movedAndCancelled : State :=
  run State.step { tzdata := onlyUTC, now := 1788220800 * nanos }
    (firstCreated ++ [.updateWindow 1 (some (1788663600 * nanos)) (1788667200 * nanos),
      .readWindow 1, .endWindow 0, .load 0, .plan 0 100, .look 0, .create 0 false])

/-- A moved window does not stand for its occurrence any more: a second one is created
beside it, and the skip of a cancellation is recorded under the new start. -/
theorem moved_window_doubles : ¬ moved.OneLive ∧ ¬ movedAndCancelled.NotRecreated := by
  constructor
  · unfold State.OneLive
    decide +kernel
  · unfold State.NotRecreated
    decide +kernel

end Sluicio.Maintenance
