import Mathlib.Data.List.Dedup
import Mathlib.Order.Lattice
import Sluicio.Lib.Run

/-!
# The error notifier

A pass of the notifier reads, one after the other, when each service last had an error, until
when each service's errors are acknowledged, and when each service was last notified.  It
notifies the services that have an error after their acknowledgement and were not notified
after it, and stamps each with the time of the database.  Errors arrive and acknowledgements
are made between any two of these statements.  The times that they carry are their own: of the
span, of the request, of the pass, of the database.  All are counted from Go's zero time.
-/

namespace Sluicio.Errornotify

open Lib

/-- A span with `StatusCode = 'Error'`. -/
structure ErrorSpan where
  serviceName : String
  timestamp : Int

/-- What a pass reads of a service. -/
structure ServiceErrorStat where
  serviceName : String
  lastErrorAt : Int
  deriving DecidableEq

/-- `n.lookback`: thirty days, in nanoseconds. -/
def lookback : Int := 30 * 24 * 3600 * 1000000000

/-- `Timestamp >= ? AND Timestamp <= ?`. -/
def inWindow (now : Int) (e : ErrorSpan) : Bool := now - lookback ≤ e.timestamp && e.timestamp ≤ now

/-- `max(Timestamp)` of a service. -/
def lastErrorAt (errors : List ErrorSpan) (now : Int) (serviceName : String) : Int :=
  (((errors.filter (inWindow now)).filter fun e => e.serviceName = serviceName).map
    ErrorSpan.timestamp).max?.getD 0

/-- `ErrorTraceStatsByService`, over the lookback. -/
def errorTraceStatsByService (errors : List ErrorSpan) (now : Int) : List ServiceErrorStat :=
  ((errors.filter (inWindow now)).map ErrorSpan.serviceName).dedup.map fun name =>
    ⟨name, lastErrorAt errors now name⟩

open ServiceErrorStat

theorem nodup_errorTraceStatsByService (errors : List ErrorSpan) (now : Int) :
    ((errorTraceStatsByService errors now).map serviceName).Nodup := by
  have hnames : (errorTraceStatsByService errors now).map serviceName =
      ((errors.filter (inWindow now)).map ErrorSpan.serviceName).dedup := by
    unfold errorTraceStatsByService
    rw [List.map_map]
    exact List.map_id _
  rw [hnames]
  exact List.nodup_dedup _

theorem exists_errorTraceStat {errors : List ErrorSpan} {now : Int} {e : ErrorSpan}
    (he : e ∈ errors) (hwindow : inWindow now e) :
    ∃ st ∈ errorTraceStatsByService errors now,
      st.serviceName = e.serviceName ∧ e.timestamp ≤ st.lastErrorAt := by
  have hscanned : e ∈ errors.filter (inWindow now) := List.mem_filter.2 ⟨he, hwindow⟩
  have hname : e.serviceName ∈ ((errors.filter (inWindow now)).map ErrorSpan.serviceName).dedup :=
    List.mem_dedup.2 (List.mem_map_of_mem hscanned)
  refine ⟨_, List.mem_map_of_mem hname, rfl, ?_⟩
  show e.timestamp ≤ lastErrorAt errors now e.serviceName
  unfold lastErrorAt
  have htime : e.timestamp ∈ ((errors.filter (inWindow now)).filter fun e' =>
      e'.serviceName = e.serviceName).map ErrorSpan.timestamp :=
    List.mem_map_of_mem (List.mem_filter.2 ⟨hscanned, by simp⟩)
  cases hmax : (((errors.filter (inWindow now)).filter fun e' =>
      e'.serviceName = e.serviceName).map ErrorSpan.timestamp).max? with
  | none =>
    rw [List.max?_eq_none_iff.1 hmax] at htime
    cases htime
  | some last => exact (List.max?_eq_some_iff.1 hmax).2 _ htime

/-! ## Passes -/

/-- A row of `service_error_notifications`. -/
structure ErrorNotifyState where
  notifiedAt : Int
  lastErrorAt : Int

/-- What a pass has read, and the services it has still to look at.  The errors that were
stored when it read them, and the services acknowledged since, it does not keep: they are only
recorded. -/
structure Pass where
  now : Int
  errors : List ErrorSpan
  acks : String → Option Int := fun _ => none
  notified : String → Option ErrorNotifyState := fun _ => none
  todo : List ServiceErrorStat
  overtaken : List String := []

/-- How far the notifier is in its pass. -/
inductive Phase where
  | idle
  | scanned (p : Pass)
  | acksRead (p : Pass)
  | serving (p : Pass)
  | marking (p : Pass) (st : ServiceErrorStat)

/-- What happened to a service, latest first. -/
inductive Event where
  | acknowledged (serviceName : String)
  | sent (st : ServiceErrorStat)
  deriving DecidableEq

/-- The stored errors, the two tables, the notifier, and what has happened so far. -/
structure State where
  errors : List ErrorSpan := []
  acks : String → Option Int := fun _ => none
  notified : String → Option ErrorNotifyState := fun _ => none
  phase : Phase := .idle
  log : List Event := []

/-- What becomes of a notification: no channel to send it to, a send that fails, or a
delivery. -/
inductive Delivery where
  | unrouted | sendFails | sent
  deriving DecidableEq

inductive Action where
  | error (e : ErrorSpan)
  | acknowledge (serviceName : String) (acknowledgedUntil : Int)
  | scan (now : Int)
  | readAcks
  | readNotified
  | abort
  | serve (d : Delivery)
  /-- `MarkNotified`, when the database has this time -/
  | mark (now : Int)
  | markFails
  | finish

/-- `acks[name].AcknowledgedUntil`; the zero time if the service was never acknowledged. -/
def watermark (acks : String → Option Int) (name : String) : Int := (acks name).getD 0

def Pass.opens (p : Pass) (st : ServiceErrorStat) : Bool :=
  decide (watermark p.acks st.serviceName < st.lastErrorAt) &&
    match p.notified st.serviceName with
    | some n => decide (n.notifiedAt ≤ watermark p.acks st.serviceName)
    | none => true

/-- The pass, with one more service acknowledged since it began. -/
def Pass.overtake (p : Pass) (name : String) : Pass := { p with overtaken := name :: p.overtaken }

def Phase.overtake (name : String) : Phase → Phase
  | .idle => .idle
  | .scanned p => .scanned (p.overtake name)
  | .acksRead p => .acksRead (p.overtake name)
  | .serving p => .serving (p.overtake name)
  | .marking p st => .marking (p.overtake name) st

def step (s : State) : Action → State
  | .error e => { s with errors := e :: s.errors }
  | .acknowledge name acknowledgedUntil =>
    { s with acks := Function.update s.acks name (some acknowledgedUntil)
             phase := s.phase.overtake name
             log := .acknowledged name :: s.log }
  | .scan now =>
    match s.phase with
    | .idle =>
      { s with
        phase := .scanned ⟨now, s.errors, fun _ => none, fun _ => none,
          errorTraceStatsByService s.errors now, []⟩ }
    | _ => s
  | .readAcks =>
    match s.phase with
    | .scanned p => { s with phase := .acksRead { p with acks := s.acks } }
    | _ => s
  | .readNotified =>
    match s.phase with
    | .acksRead p => { s with phase := .serving { p with notified := s.notified } }
    | _ => s
  | .abort =>
    match s.phase with
    | .scanned _ | .acksRead _ => { s with phase := .idle }
    | _ => s
  | .serve d =>
    match s.phase with
    | .serving p =>
      match p.todo with
      | [] => s
      | st :: todo =>
        if p.opens st = true ∧ d = .sent then
          { s with phase := .marking { p with todo := todo } st, log := .sent st :: s.log }
        else { s with phase := .serving { p with todo := todo } }
    | _ => s
  | .mark now =>
    match s.phase with
    | .marking p st =>
      { s with phase := .serving p
               notified :=
                 Function.update s.notified st.serviceName (some ⟨now, st.lastErrorAt⟩) }
    | _ => s
  | .markFails =>
    match s.phase with
    | .marking p _ => { s with phase := .serving p }
    | _ => s
  | .finish =>
    match s.phase with
    | .serving p => if p.todo = [] then { s with phase := .idle } else s
    | _ => s

/-! ## One notification for what is open -/

def sentSince (name : String) : List Event → Nat
  | [] => 0
  | .acknowledged name' :: log => if name' = name then 0 else sentSince name log
  | .sent st :: log => sentSince name log + if st.serviceName = name then 1 else 0

namespace State

def watermark (s : State) (name : String) : Int := Errornotify.watermark s.acks name

/-- The service was notified for an error after its latest acknowledgement. -/
def Notified (s : State) (name : String) : Prop :=
  ∃ st, .sent st ∈ s.log ∧ st.serviceName = name ∧ s.watermark name < st.lastErrorAt

/-- At the end of a pass, each service that had an error newer than its acknowledgement when the
pass began has been notified for such an error; a service acknowledged during the pass is left
to the next. -/
def PassNotifies (s : State) : Prop :=
  ∀ p, s.phase = .serving p → p.todo = [] → ∀ e ∈ p.errors, e.serviceName ∉ p.overtaken →
    s.watermark e.serviceName < e.timestamp → s.Notified e.serviceName

end State

/-- A service's errors are not acknowledged past the error it was notified for, unless past the
stamp of the notification as well; a stamp after the acknowledgement is for an error after it,
and a notification sent since the acknowledgement is stamped after it; a pass has in its window
the errors that nobody was notified of; and notifications are sent and stamped. -/
def Timely (s : State) : Action → Prop
  | .acknowledge name acknowledgedUntil => ∀ n, s.notified name = some n →
      acknowledgedUntil < n.notifiedAt → acknowledgedUntil < n.lastErrorAt
  | .scan now => ∀ e ∈ s.errors, s.watermark e.serviceName < e.timestamp →
      inWindow now e ∨ s.Notified e.serviceName
  | .serve d => d = .sent
  | .mark now => ∀ p st, s.phase = .marking p st →
      (s.watermark st.serviceName < now → s.watermark st.serviceName < st.lastErrorAt) ∧
      (sentSince st.serviceName s.log ≠ 0 → s.watermark st.serviceName < now)
  | .markFails => ∀ p st, s.phase ≠ .marking p st
  | _ => True

theorem sentSince_acknowledged (name name' : String) (log : List Event) :
    sentSince name (.acknowledged name' :: log) = if name' = name then 0 else sentSince name log :=
  rfl

theorem sentSince_sent (name : String) (st : ServiceErrorStat) (log : List Event) :
    sentSince name (.sent st :: log) =
      sentSince name log + if st.serviceName = name then 1 else 0 := rfl

variable {name : String} {s : State}

theorem sentSince_sent_of_ne {st : ServiceErrorStat} (hne : st.serviceName ≠ name)
    (log : List Event) : sentSince name (.sent st :: log) = sentSince name log := by
  rw [sentSince_sent, if_neg hne, Nat.add_zero]

/-- What is left to look at: every service once, none of the overtaken ones notified since, and
every service that has an error newer than its acknowledgement and was not notified. -/
structure Pass.Sound (p : Pass) (s : State) : Prop where
  nodup : (p.todo.map serviceName).Nodup
  reset : ∀ st ∈ p.todo, st.serviceName ∈ p.overtaken → sentSince st.serviceName s.log = 0
  due : ∀ e ∈ p.errors, e.serviceName ∉ p.overtaken →
    s.watermark e.serviceName < e.timestamp → s.Notified e.serviceName ∨
      ∃ st ∈ p.todo, st.serviceName = e.serviceName ∧ e.timestamp ≤ st.lastErrorAt

/-- The acknowledgements that the pass has read are those of now, but for the overtaken. -/
def Pass.AcksAgree (p : Pass) (s : State) : Prop :=
  ∀ name, name ∉ p.overtaken → Errornotify.watermark p.acks name = s.watermark name

/-- What the pass has read of the services it comes to is what is stored. -/
def Pass.NotifiedAgree (p : Pass) (s : State) : Prop :=
  ∀ st ∈ p.todo, p.notified st.serviceName = s.notified st.serviceName

def Phase.Sound (s : State) : Phase → Prop
  | .idle => True
  | .scanned p => p.Sound s
  | .acksRead p => p.Sound s ∧ p.AcksAgree s
  | .serving p => p.Sound s ∧ p.AcksAgree s ∧ p.NotifiedAgree s
  | .marking p st => (p.Sound s ∧ p.AcksAgree s ∧ p.NotifiedAgree s) ∧
      st.serviceName ∉ p.todo.map serviceName ∧ .sent st ∈ s.log

structure State.Sound (s : State) : Prop where
  once : ∀ name, sentSince name s.log ≤ 1
  stamped : ∀ name, sentSince name s.log ≠ 0 →
    (∃ n, s.notified name = some n ∧ s.watermark name < n.notifiedAt) ∨
      ∃ p st, s.phase = .marking p st ∧ st.serviceName = name
  recorded : ∀ name n, s.notified name = some n → .sent ⟨name, n.lastErrorAt⟩ ∈ s.log
  justified : ∀ name n, s.notified name = some n → s.watermark name < n.notifiedAt →
    s.watermark name < n.lastErrorAt
  phase : s.phase.Sound s

theorem State.Sound.notified (h : s.Sound) {n : ErrorNotifyState} (hrow : s.notified name = some n)
    (hlater : s.watermark name < n.notifiedAt) : s.Notified name :=
  ⟨⟨name, n.lastErrorAt⟩, h.recorded name n hrow, rfl, h.justified name n hrow hlater⟩

theorem State.Notified.sent (h : s.Notified name) (st : ServiceErrorStat) (phase : Phase) :
    State.Notified { s with phase := phase, log := .sent st :: s.log } name := by
  obtain ⟨st', hsent, hname, hlater⟩ := h
  exact ⟨st', List.mem_cons_of_mem _ hsent, hname, hlater⟩

section Acknowledge

variable {s : State} {name : String} {acknowledgedUntil : Int}

theorem watermark_acknowledge_of_ne {name' : String} (hne : name' ≠ name) :
    (step s (.acknowledge name acknowledgedUntil)).watermark name' = s.watermark name' := by
  unfold State.watermark Errornotify.watermark
  simp only [step]
  rw [Function.update_of_ne hne]

theorem watermark_acknowledge :
    (step s (.acknowledge name acknowledgedUntil)).watermark name = acknowledgedUntil := by
  unfold State.watermark Errornotify.watermark
  simp only [step]
  rw [Function.update_self]
  rfl

theorem notified_acknowledge {name' : String} (hne : name' ≠ name) (h : s.Notified name') :
    (step s (.acknowledge name acknowledgedUntil)).Notified name' := by
  obtain ⟨st, hsent, hname, hlater⟩ := h
  refine ⟨st, List.mem_cons_of_mem _ hsent, hname, ?_⟩
  rw [watermark_acknowledge_of_ne hne]
  exact hlater

theorem Pass.Sound.overtake {p : Pass} (h : p.Sound s) :
    (p.overtake name).Sound (step s (.acknowledge name acknowledgedUntil)) := by
  constructor
  · exact h.nodup
  · intro st hst hover
    show sentSince st.serviceName (.acknowledged name :: s.log) = 0
    rw [sentSince_acknowledged]
    by_cases hname : name = st.serviceName
    · rw [if_pos hname]
    rw [if_neg hname]
    have hbefore : st.serviceName ∈ p.overtaken := by
      rcases List.mem_cons.1 hover with heq | hold
      · exact absurd heq.symm hname
      · exact hold
    exact h.reset st hst hbefore
  · intro e he hnot hnewer
    have hne : e.serviceName ≠ name := fun heq => hnot (heq ▸ List.mem_cons_self)
    rw [watermark_acknowledge_of_ne hne] at hnewer
    have hbefore : e.serviceName ∉ p.overtaken := fun hmem => hnot (List.mem_cons_of_mem _ hmem)
    rcases h.due e he hbefore hnewer with hdone | hleft
    · exact Or.inl (notified_acknowledge hne hdone)
    · exact Or.inr hleft

theorem Pass.AcksAgree.overtake {p : Pass} (h : p.AcksAgree s) :
    (p.overtake name).AcksAgree (step s (.acknowledge name acknowledgedUntil)) := by
  intro name' hnot
  have hne : name' ≠ name := fun heq => hnot (heq ▸ List.mem_cons_self)
  rw [watermark_acknowledge_of_ne hne]
  exact h name' fun hmem => hnot (List.mem_cons_of_mem _ hmem)

theorem State.Sound.acknowledge (h : s.Sound)
    (ht : Timely s (.acknowledge name acknowledgedUntil)) :
    (step s (.acknowledge name acknowledgedUntil)).Sound := by
  constructor
  · intro name'
    show sentSince name' (.acknowledged name :: s.log) ≤ 1
    rw [sentSince_acknowledged]
    split
    · omega
    · exact h.once name'
  · intro name' hsent
    have hne : name' ≠ name := by
      intro heq
      subst heq
      exact hsent (if_pos rfl)
    have hsent' : sentSince name' s.log ≠ 0 := by
      have hlog : sentSince name' (.acknowledged name :: s.log) ≠ 0 := hsent
      rwa [sentSince_acknowledged, if_neg hne.symm] at hlog
    rw [watermark_acknowledge_of_ne hne]
    rcases h.stamped name' hsent' with hrow | hmarking
    · exact Or.inl hrow
    · obtain ⟨p, st, hphase, hst⟩ := hmarking
      refine Or.inr ⟨p.overtake name, st, ?_, hst⟩
      show s.phase.overtake name = _
      rw [hphase]
      rfl
  · intro name' n hrow
    exact List.mem_cons_of_mem _ (h.recorded name' n hrow)
  · intro name' n hrow hlater
    by_cases hname : name' = name
    · subst hname
      rw [watermark_acknowledge] at hlater ⊢
      exact ht n hrow hlater
    · rw [watermark_acknowledge_of_ne hname] at hlater ⊢
      exact h.justified name' n hrow hlater
  · have hphase := h.phase
    show Phase.Sound _ (s.phase.overtake name)
    cases hp : s.phase with
    | idle => trivial
    | scanned p =>
      rw [hp] at hphase
      exact hphase.overtake
    | acksRead p =>
      rw [hp] at hphase
      exact ⟨hphase.1.overtake, hphase.2.overtake⟩
    | serving p =>
      rw [hp] at hphase
      exact ⟨hphase.1.overtake, hphase.2.1.overtake, hphase.2.2⟩
    | marking p st =>
      rw [hp] at hphase
      exact ⟨⟨hphase.1.1.overtake, hphase.1.2.1.overtake, hphase.1.2.2⟩, hphase.2.1,
        List.mem_cons_of_mem _ hphase.2.2⟩

end Acknowledge

/-- What is sound of a pass does not depend on the errors that have arrived since. -/
theorem Phase.Sound.congr {phase : Phase} (h : phase.Sound s) (errors : List ErrorSpan)
    (phase' : Phase) : phase.Sound { s with errors := errors, phase := phase' } := by
  have hpass : ∀ p : Pass, p.Sound s → p.Sound { s with errors := errors, phase := phase' } :=
    fun p hp => ⟨hp.nodup, hp.reset, hp.due⟩
  cases phase with
  | idle => trivial
  | scanned p => exact hpass p h
  | acksRead p => exact ⟨hpass p h.1, h.2⟩
  | serving p => exact ⟨hpass p h.1, h.2⟩
  | marking p st => exact ⟨⟨hpass p h.1.1, h.1.2⟩, h.2⟩

theorem State.Sound.proceed (h : s.Sound) {old phase : Phase} (hold : s.phase = old)
    (hnot : ∀ p st, old ≠ .marking p st) (hphase : phase.Sound s) :
    State.Sound { s with phase := phase } := by
  refine ⟨h.once, fun name hsent => ?_, h.recorded, h.justified, hphase.congr s.errors phase⟩
  rcases h.stamped name hsent with hrow | hmarking
  · exact Or.inl hrow
  · obtain ⟨p, st, hphase', -⟩ := hmarking
    exact absurd (hold.symm.trans hphase') (hnot p st)

section Serve

variable {s : State} {p : Pass} {st : ServiceErrorStat} {todo : List ServiceErrorStat}

/-- A service that the pass finds open has not been notified since its acknowledgement. -/
theorem State.Sound.sentSince_of_opens (h : s.Sound) (hphase : s.phase = .serving p)
    (htodo : p.todo = st :: todo) (hopens : p.opens st) : sentSince st.serviceName s.log = 0 := by
  have hsound := h.phase
  rw [hphase] at hsound
  obtain ⟨hpass, hacks, hread⟩ := hsound
  have hst : st ∈ p.todo := htodo ▸ List.mem_cons_self
  by_cases hover : st.serviceName ∈ p.overtaken
  · exact hpass.reset st hst hover
  by_contra hsent
  rcases h.stamped st.serviceName hsent with hrow | hmarking
  · obtain ⟨n, hn, hlater⟩ := hrow
    unfold Pass.opens at hopens
    rw [hread st hst, hn, hacks st.serviceName hover] at hopens
    simp only [Bool.and_eq_true, decide_eq_true_eq] at hopens
    omega
  · obtain ⟨p', st', hphase', -⟩ := hmarking
    rw [hphase] at hphase'
    cases hphase'

/-- A service that the pass finds closed and that has an error newer than its acknowledgement
was notified. -/
theorem State.Sound.notified_of_not_opens (h : s.Sound) (hphase : s.phase = .serving p)
    (hst : st ∈ p.todo) (hopens : p.opens st = false) (hover : st.serviceName ∉ p.overtaken)
    (hnewer : s.watermark st.serviceName < st.lastErrorAt) : s.Notified st.serviceName := by
  have hsound := h.phase
  rw [hphase] at hsound
  obtain ⟨-, hacks, hread⟩ := hsound
  unfold Pass.opens at hopens
  rw [hacks st.serviceName hover, decide_eq_true hnewer, hread st hst, Bool.true_and] at hopens
  cases hrow : s.notified st.serviceName with
  | none =>
    rw [hrow] at hopens
    cases hopens
  | some n =>
    rw [hrow] at hopens
    have hlater : s.watermark st.serviceName < n.notifiedAt := by simpa using hopens
    exact h.notified hrow hlater

theorem Pass.Sound.next {s' : State} (hpass : p.Sound s) (htodo : p.todo = st :: todo)
    (hsince : ∀ st' ∈ todo, sentSince st'.serviceName s'.log = sentSince st'.serviceName s.log)
    (hwatermark : ∀ name, s'.watermark name = s.watermark name)
    (hkept : ∀ name, s.Notified name → s'.Notified name)
    (hdone : st.serviceName ∉ p.overtaken → s.watermark st.serviceName < st.lastErrorAt →
      s'.Notified st.serviceName) : Pass.Sound { p with todo := todo } s' := by
  have hkeys := hpass.nodup
  rw [htodo] at hkeys
  refine ⟨(List.nodup_cons.1 hkeys).2, fun st' hst' hover => ?_, fun e he hnot hnewer => ?_⟩
  · rw [hsince st' hst']
    exact hpass.reset st' (htodo ▸ List.mem_cons_of_mem _ hst') hover
  · rw [hwatermark] at hnewer
    rcases hpass.due e he hnot hnewer with hbefore | hdue
    · exact Or.inl (hkept _ hbefore)
    obtain ⟨st', hst', hname, hle⟩ := hdue
    rw [htodo] at hst'
    rcases List.mem_cons.1 hst' with rfl | hrest
    · left
      rw [← hname] at hnot hnewer ⊢
      exact hdone hnot (lt_of_lt_of_le hnewer hle)
    · exact Or.inr ⟨st', hrest, hname, hle⟩

theorem State.Sound.serve (h : s.Sound) (hphase : s.phase = .serving p)
    (htodo : p.todo = st :: todo) : (Errornotify.step s (.serve .sent)).Sound := by
  have hsound := h.phase
  rw [hphase] at hsound
  obtain ⟨hpass, hacks, hread⟩ := hsound
  have hst : st ∈ p.todo := htodo ▸ List.mem_cons_self
  have hread' : Pass.NotifiedAgree { p with todo := todo } s :=
    fun st' hst' => hread st' (htodo ▸ List.mem_cons_of_mem _ hst')
  have hkeys := hpass.nodup
  rw [htodo] at hkeys
  have hfresh : st.serviceName ∉ todo.map serviceName :=
    (List.nodup_cons.1 hkeys).1
  simp only [step, hphase, htodo]
  by_cases hopens : p.opens st = true
  · rw [if_pos ⟨hopens, trivial⟩]
    have hnone := h.sentSince_of_opens hphase htodo hopens
    constructor
    · intro name
      show sentSince name (.sent st :: s.log) ≤ 1
      by_cases hname : st.serviceName = name
      · subst hname
        rw [sentSince_sent, hnone, if_pos rfl]
      · rw [sentSince_sent_of_ne hname]
        exact h.once name
    · intro name hsent
      by_cases hname : st.serviceName = name
      · exact Or.inr ⟨_, st, rfl, hname⟩
      have hsent' : sentSince name s.log ≠ 0 := by
        have hlog : sentSince name (.sent st :: s.log) ≠ 0 := hsent
        rwa [sentSince_sent_of_ne hname] at hlog
      rcases h.stamped name hsent' with hrow | hmarking
      · exact Or.inl hrow
      · obtain ⟨p', st', hphase', -⟩ := hmarking
        rw [hphase] at hphase'
        cases hphase'
    · intro name n hrow
      exact List.mem_cons_of_mem _ (h.recorded name n hrow)
    · exact h.justified
    · refine ⟨⟨hpass.next htodo (fun st' hst' => ?_) (fun _ => rfl) ?_ ?_, hacks, hread'⟩, hfresh,
        List.mem_cons_self⟩
      · have hne : st.serviceName ≠ st'.serviceName :=
          fun heq => hfresh (heq ▸ List.mem_map_of_mem hst')
        exact sentSince_sent_of_ne hne s.log
      · exact fun name hbefore => hbefore.sent st _
      · exact fun _ hnewer => ⟨st, List.mem_cons_self, rfl, hnewer⟩
  · rw [if_neg fun hboth => hopens hboth.1]
    have hclosed : p.opens st = false := by simpa using hopens
    have hnext := hpass.next htodo (fun _ _ => rfl) (fun _ => rfl) (fun _ hbefore => hbefore)
      (h.notified_of_not_opens hphase hst hclosed)
    exact h.proceed hphase nofun ⟨hnext, hacks, hread'⟩

theorem State.Sound.mark (h : s.Sound) {now : Int} (hphase : s.phase = .marking p st)
    (ht : Timely s (.mark now)) : (Errornotify.step s (.mark now)).Sound := by
  have hsound := h.phase
  rw [hphase] at hsound
  obtain ⟨⟨hpass, hacks, hread⟩, hfresh, hsent⟩ := hsound
  obtain ⟨hcovers, hstamps⟩ := ht p st hphase
  have hother : ∀ name, name ≠ st.serviceName →
      (Errornotify.step s (.mark now)).notified name = s.notified name := by
    intro name hne
    simp only [step, hphase]
    exact Function.update_of_ne hne _ _
  have hthis : (Errornotify.step s (.mark now)).notified st.serviceName =
      some ⟨now, st.lastErrorAt⟩ := by
    simp only [step, hphase]
    exact Function.update_self _ _ _
  simp only [step, hphase] at hother hthis ⊢
  constructor
  · exact h.once
  · intro name hsince
    left
    by_cases hname : name = st.serviceName
    · subst hname
      exact ⟨_, hthis, hstamps hsince⟩
    rcases h.stamped name hsince with hrow | hmarking
    · obtain ⟨n, hn, hlater⟩ := hrow
      exact ⟨n, (hother name hname).trans hn, hlater⟩
    · obtain ⟨p', st', hphase', hname'⟩ := hmarking
      rw [hphase] at hphase'
      cases hphase'
      exact absurd hname'.symm hname
  · intro name n hrow
    by_cases hname : name = st.serviceName
    · subst hname
      have hn := hthis.symm.trans hrow
      cases hn
      exact hsent
    · have hrow' : s.notified name = some n := (hother name hname).symm.trans hrow
      exact h.recorded name n hrow'
  · intro name n hrow hlater
    by_cases hname : name = st.serviceName
    · subst hname
      have hn := hthis.symm.trans hrow
      cases hn
      exact hcovers hlater
    · have hrow' : s.notified name = some n := (hother name hname).symm.trans hrow
      exact h.justified name n hrow' hlater
  · refine ⟨⟨hpass.nodup, hpass.reset, hpass.due⟩, hacks, fun st' hst' => ?_⟩
    have hne : st'.serviceName ≠ st.serviceName :=
      fun heq => hfresh (heq ▸ List.mem_map_of_mem hst')
    exact (hread st' hst').trans (hother st'.serviceName hne).symm

end Serve

theorem State.Sound.scan (h : s.Sound) {now : Int} (hidle : s.phase = .idle)
    (ht : Timely s (.scan now)) : (Errornotify.step s (.scan now)).Sound := by
  simp only [step, hidle]
  refine h.proceed hidle nofun ⟨nodup_errorTraceStatsByService _ _, ?_, ?_⟩
  · exact fun _ _ hover => nomatch hover
  · intro e he _ hnewer
    rcases ht e he hnewer with hwindow | hdone
    · exact Or.inr (exists_errorTraceStat he hwindow)
    · exact Or.inl hdone

/-- **One step.** -/
theorem State.Sound.step (s : State) (a : Action) (h : s.Sound) (ht : Timely s a) :
    (step s a).Sound := by
  have hphase := h.phase
  cases a with
  | error e =>
    exact ⟨h.once, h.stamped, h.recorded, h.justified, hphase.congr (e :: s.errors) s.phase⟩
  | acknowledge name acknowledgedUntil => exact h.acknowledge ht
  | scan now =>
    cases hp : s.phase with
    | idle => exact h.scan hp ht
    | _ => simpa only [Errornotify.step, hp] using h
  | readAcks =>
    cases hp : s.phase with
    | scanned p =>
      rw [hp] at hphase
      simp only [Errornotify.step, hp]
      exact h.proceed hp nofun ⟨⟨hphase.nodup, hphase.reset, hphase.due⟩, fun _ _ => rfl⟩
    | _ => simpa only [Errornotify.step, hp] using h
  | readNotified =>
    cases hp : s.phase with
    | acksRead p =>
      rw [hp] at hphase
      simp only [Errornotify.step, hp]
      exact h.proceed hp nofun
        ⟨⟨hphase.1.nodup, hphase.1.reset, hphase.1.due⟩, hphase.2, fun _ _ => rfl⟩
    | _ => simpa only [Errornotify.step, hp] using h
  | abort =>
    cases hp : s.phase with
    | scanned p | acksRead p =>
      simp only [Errornotify.step, hp]
      exact h.proceed hp nofun trivial
    | _ => simpa only [Errornotify.step, hp] using h
  | serve d =>
    have hd : d = .sent := ht
    subst hd
    cases hp : s.phase with
    | serving p =>
      cases htodo : p.todo with
      | nil => simpa only [Errornotify.step, hp, htodo] using h
      | cons st todo => exact h.serve hp htodo
    | _ => simpa only [Errornotify.step, hp] using h
  | mark now =>
    cases hp : s.phase with
    | marking p st => exact h.mark hp ht
    | _ => simpa only [Errornotify.step, hp] using h
  | markFails =>
    cases hp : s.phase with
    | marking p st => exact absurd hp (ht p st)
    | _ => simpa only [Errornotify.step, hp] using h
  | finish =>
    cases hp : s.phase with
    | serving p =>
      simp only [Errornotify.step, hp]
      split
      · exact h.proceed hp nofun trivial
      · exact h
    | _ => simpa only [Errornotify.step, hp] using h

/-- **A service with new errors is notified, and once.**  In a run in which the steps are
timely every pass has notified, at its end, the services that had an error newer than their
acknowledgement, and no service is notified twice between two acknowledgements. -/
theorem passNotifies_of_timely {as : List Action} (h : StepsMeet step Timely {} as) :
    (run step {} as).PassNotifies ∧ ∀ name, sentSince name (run step {} as).log ≤ 1 := by
  have hinit : State.Sound {} := by
    refine ⟨fun _ => ?_, fun _ hsent => ?_, fun _ _ hrow => ?_, fun _ _ hrow => ?_, trivial⟩
    · exact Nat.zero_le 1
    · exact absurd rfl hsent
    · cases hrow
    · cases hrow
  have hsound := h.invariant State.Sound.step hinit
  refine ⟨fun p hp htodo e he hnot hnewer => ?_, hsound.once⟩
  have hphase := hsound.phase
  rw [hp] at hphase
  rcases hphase.1.due e he hnot hnewer with hdone | hdue
  · exact hdone
  · obtain ⟨st, hst, -⟩ := hdue
    rw [htodo] at hst
    cases hst

private def firstError : List Action :=
  [.error ⟨"orders", 100⟩, .scan 101, .readAcks, .readNotified]

/-- Two passes, and between them an acknowledgement and the next error. -/
private def acknowledgedBetween : List Action :=
  firstError ++ [.serve .sent, .mark 102, .finish, .acknowledge "orders" 103,
    .error ⟨"orders", 120⟩, .scan 160, .readAcks, .readNotified, .serve .sent, .mark 162]

theorem passNotifies_acknowledgedBetween :
    (run step {} acknowledgedBetween).PassNotifies ∧
      ∀ name, sentSince name (run step {} acknowledgedBetween).log ≤ 1 := by
  apply passNotifies_of_timely
  refine ⟨trivial, fun e he _ => .inl ?_, trivial, trivial, rfl, fun p st hphase => ?_, trivial,
    fun n hn hlate => ?_, trivial, fun e he _ => .inl ?_, trivial, trivial, rfl,
    fun p st hphase => ?_, trivial⟩
  · rw [List.mem_singleton.1 he]
    decide
  · cases hphase
    exact ⟨fun _ => by decide, fun _ => by decide⟩
  · cases hn
    revert hlate
    decide
  · revert e
    decide
  · cases hphase
    exact ⟨fun _ => by decide, fun _ => by decide⟩

/-- The errors are acknowledged while a pass is about to notify of them. -/
private def acknowledgedMeanwhile : State :=
  run step {} (firstError ++ [.acknowledge "orders" 105, .serve .sent, .mark 110, .finish,
    .error ⟨"orders", 120⟩, .scan 160, .readAcks, .readNotified, .serve .sent])

/-- The stamp of a notification that an acknowledgement has overtaken keeps the next error
quiet. -/
theorem error_after_acknowledgement_missed : ¬ acknowledgedMeanwhile.PassNotifies := by
  intro h
  have hlog : acknowledgedMeanwhile.log = [.sent ⟨"orders", 100⟩, .acknowledged "orders"] := by
    decide +kernel
  have hwatermark : acknowledgedMeanwhile.watermark "orders" = 105 := by decide +kernel
  obtain ⟨st, hsent, -, hlater⟩ := h _ rfl rfl ⟨"orders", 120⟩ List.mem_cons_self
    (fun hmem => nomatch hmem) (by rw [hwatermark]; decide)
  rw [hlog] at hsent
  have hst : st = ⟨"orders", 100⟩ := by simpa using hsent
  rw [hst, hwatermark] at hlater
  exact absurd hlater (by decide)

end Sluicio.Errornotify
