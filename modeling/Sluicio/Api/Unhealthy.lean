import Sluicio.Alerting.Types
import Sluicio.Lib.Encoding
import Sluicio.Lib.Ordered

/-!
# The unhealthy feed

`buildUnhealthyView` files every failing check and every open error under the integrations
and systems it belongs to, and what belongs to none of them under "other".  A slice of a
shared service takes its errors from its own count and not from its member's.

What a problem is filed under is a list of places; the view is what filing all problems
leaves.
-/

namespace Sluicio.Api.Unhealthy

open Lib
open Alerting (Severity)

/-- `uuid.String`. -/
def uuidString (id : UUID) : String := String.ofList (groupedHex id)

theorem uuidString_injective {a b : UUID} (h : uuidString a = uuidString b) : a = b := by
  apply groupedHex_injective
  have htext := congrArg String.toList h
  simpa [uuidString] using htext

inductive TargetKind where
  | service | integration | system | global
  deriving DecidableEq

structure FailingCheck where
  ruleName : String
  severity : Severity
  startedAt : Int
  summary : String
  targetKind : TargetKind
  serviceName : String
  integrationID : Option UUID
  integrationName : String
  systemID : Option UUID
  /-- The check describes the service as a process, and so every slice of it. -/
  wholeService : Bool

structure IntegrationRef where
  id : String
  slug : String
  name : String

structure ServiceSummary where
  serviceName : String
  integrations : List IntegrationRef

structure OpenServiceError where
  serviceName : String
  errorTraces : Nat
  lastErrorAt : Int
  sampleTrace : String

structure System where
  id : UUID
  name : String
  typeKey : String
  members : List String

/-! ## What goes out -/

structure UnhealthyCheck where
  ruleName : String
  severity : Severity
  summary : String
  startedAt : Int
  onService : String

structure UnhealthyErrorService where
  serviceName : String
  errorTraces : Nat
  lastErrorAt : Int
  sampleTrace : String

inductive Status where
  | unhealthy | errors
  deriving DecidableEq

structure UnhealthyEntity where
  id : String
  name : String
  slug : String
  typeKey : String
  status : Status
  failingChecks : List UnhealthyCheck
  errorServices : List UnhealthyErrorService

structure Counts where
  integrationsUnhealthy : Nat
  integrationsErrors : Nat
  systemsUnhealthy : Nat
  systemsErrors : Nat

structure UnhealthyResponse where
  integrations : List UnhealthyEntity
  systems : List UnhealthyEntity
  otherChecks : List UnhealthyCheck
  otherErrors : List UnhealthyErrorService
  counts : Counts

/-- The arguments of `buildUnhealthyView`.  The summaries come from the catalog, which has
one row for each service; `slices` is a Go map, a slice with nothing open being `none`. -/
structure Input where
  checks : List FailingCheck
  summaries : List ServiceSummary
  openErrors : List OpenServiceError
  systems : List System
  slices : List (String × Option UnhealthyErrorService)
  oneSummary : (summaries.map (·.serviceName)).Nodup
  oneSlice : (slices.map Prod.fst).Nodup

/-! ## Filing -/

/-- One problem to show: a failing check or an open error. -/
inductive Problem where
  | check (c : UnhealthyCheck)
  | error (e : UnhealthyErrorService)

structure EntityAccum where
  id : String
  name : String
  slug : String
  typeKey : String
  checks : List UnhealthyCheck
  errors : List UnhealthyErrorService
  hasCheck : Bool

/-- An entity under which nothing is filed yet. -/
def EntityAccum.fresh (id name slug typeKey : String) : EntityAccum :=
  ⟨id, name, slug, typeKey, [], [], false⟩

def EntityAccum.add (a : EntityAccum) : Problem → EntityAccum
  | .check c => { a with checks := a.checks ++ [c], hasCheck := true }
  | .error e => { a with errors := a.errors ++ [e] }

/-- The display fields that a check-created accumulator could not know. -/
def EntityAccum.backfill (a ref : EntityAccum) : EntityAccum :=
  { a with
    name := if a.name = "" then ref.name else a.name
    slug := if a.slug = "" then ref.slug else a.slug
    typeKey := if a.typeKey = "" then ref.typeKey else a.typeKey }

/-- Where a problem is filed. -/
inductive Place where
  | bound (id name : String)
  | integration (ref : IntegrationRef)
  | system (sy : System)
  | other

/-- The accumulator of the entity that `ref` stands for, made when it is not there yet, with
the problem added. -/
def fileUnder (ref : EntityAccum) (fill : Bool) (pr : Problem) : List EntityAccum → List EntityAccum
  | [] => [ref.add pr]
  | a :: m =>
    if a.id = ref.id then (if fill then a.backfill ref else a).add pr :: m
    else a :: fileUnder ref fill pr m

structure View where
  integ : List EntityAccum
  sys : List EntityAccum
  otherChecks : List UnhealthyCheck
  otherErrors : List UnhealthyErrorService

def View.file (v : View) : Place × Problem → View
  | (.bound id name, pr) =>
    { v with integ := fileUnder (.fresh id name "" "") false pr v.integ }
  | (.integration ref, pr) =>
    { v with integ := fileUnder (.fresh ref.id ref.name ref.slug "") true pr v.integ }
  | (.system sy, pr) =>
    { v with sys := fileUnder (.fresh (uuidString sy.id) sy.name "" sy.typeKey) true pr v.sys }
  | (.other, .check c) => { v with otherChecks := v.otherChecks ++ [c] }
  | (.other, .error e) => { v with otherErrors := v.otherErrors ++ [e] }

namespace Input

variable (i : Input)

/-- `svcInts`: the integrations of a service, from its summary. -/
def svcInts (service : String) : List IntegrationRef :=
  i.summaries.foldl (fun refs s =>
    if s.serviceName = service ∧ s.integrations ≠ [] then s.integrations else refs) []

def refByID (id : String) : Option IntegrationRef :=
  (i.summaries.flatMap (·.integrations)).foldl
    (fun found ref => if ref.id = id then some ref else found) none

/-- `svcSystems`: a system once for each time it lists the service. -/
def svcSystems (service : String) : List System :=
  i.systems.flatMap fun sy => (sy.members.filter (· = service)).map fun _ => sy

def slice? (id : String) : Option (Option UnhealthyErrorService) := i.slices.lookup id

def isSlice (id : String) : Bool := (i.slice? id).isSome

def showCheck (c : FailingCheck) : UnhealthyCheck :=
  ⟨c.ruleName, c.severity, c.summary, c.startedAt, c.serviceName⟩

def showError (oe : OpenServiceError) : UnhealthyErrorService :=
  ⟨oe.serviceName, oe.errorTraces, oe.lastErrorAt, oe.sampleTrace⟩

/-- The entities a check on a service is filed under: to a slice only when it describes the
whole service, for which slice a span-level check fired it cannot say. -/
def checkHolders (c : FailingCheck) : List Place :=
  ((i.svcInts c.serviceName).filter fun ref => ¬ (i.isSlice ref.id ∧ ¬ c.wholeService)).map
    .integration ++ (i.svcSystems c.serviceName).map .system

def checkPlaces (c : FailingCheck) : List Place :=
  match c.targetKind with
  | .integration =>
    match c.integrationID with
    | some id => [.bound (uuidString id) c.integrationName]
    | none => []
  | .service => if i.checkHolders c = [] then [.other] else i.checkHolders c
  | _ => [.other]

/-- The entities a service's error is filed under; a slice is filed from its own errors, or
not at all. -/
def errorHolders (oe : OpenServiceError) : List Place :=
  ((i.svcInts oe.serviceName).filter fun ref => ¬ i.isSlice ref.id).map .integration ++
    (i.svcSystems oe.serviceName).map .system

def errorPlaces (oe : OpenServiceError) : List Place :=
  -- a slice with an error of its own counts as filed
  if i.errorHolders oe = [] ∧
      (i.svcInts oe.serviceName).all (fun ref => (i.slice? ref.id).join.isNone) then [.other]
  else i.errorHolders oe

def slicePlaces (entry : String × Option UnhealthyErrorService) : List (Place × Problem) :=
  match entry.2, i.refByID entry.1 with
  | some ue, some ref => [(.integration ref, .error ue)]
  | _, _ => []

/-- Everything that is filed, in turn: the checks, the open errors, the slices' own errors. -/
def filings : List (Place × Problem) :=
  (i.checks.flatMap fun c => (i.checkPlaces c).map fun pl => (pl, .check (showCheck c))) ++
  (i.openErrors.flatMap fun oe => (i.errorPlaces oe).map fun pl => (pl, .error (showError oe))) ++
  i.slices.flatMap i.slicePlaces

end Input

def sortChecks (cs : List UnhealthyCheck) : List UnhealthyCheck :=
  sliceStable (fun a b => a.startedAt > b.startedAt) cs

def sortErrorServices (es : List UnhealthyErrorService) : List UnhealthyErrorService :=
  sliceStable (fun a b => a.lastErrorAt > b.lastErrorAt) es

def statusRank : Status → Nat
  | .unhealthy => 2
  | .errors => 1

def finalizeEntities (m : List EntityAccum) : List UnhealthyEntity :=
  let out := m.map fun a =>
    { id := a.id, name := a.name, slug := a.slug, typeKey := a.typeKey
      status := if a.hasCheck then .unhealthy else .errors
      failingChecks := sortChecks a.checks
      errorServices := sortErrorServices a.errors : UnhealthyEntity }
  sliceStable (fun a b =>
    if statusRank a.status ≠ statusRank b.status then statusRank a.status > statusRank b.status
    else a.name < b.name) out

def countStatus (es : List UnhealthyEntity) (status : Status) : Nat :=
  es.countP (·.status = status)

def buildUnhealthyView (i : Input) : UnhealthyResponse :=
  let v := i.filings.foldl View.file ⟨[], [], [], []⟩
  let integrations := finalizeEntities v.integ
  let systems := finalizeEntities v.sys
  { integrations := integrations
    systems := systems
    otherChecks := sortChecks v.otherChecks
    otherErrors := sortErrorServices v.otherErrors
    counts :=
      { integrationsUnhealthy := countStatus integrations .unhealthy
        integrationsErrors := countStatus integrations .errors
        systemsUnhealthy := countStatus systems .unhealthy
        systemsErrors := countStatus systems .errors } }

/-! ## What the view shows -/

/-- The parts of the page: an integration's entry, a system's, the rest. -/
inductive Slot where
  | integration (id : String)
  | system (id : String)
  | other

def Place.slot : Place → Slot
  | .bound id _ => .integration id
  | .integration ref => .integration ref.id
  | .system sy => .system (uuidString sy.id)
  | .other => .other

def EntityAccum.Has (a : EntityAccum) : Problem → Prop
  | .check c => c ∈ a.checks
  | .error e => e ∈ a.errors

@[simp] theorem EntityAccum.add_id (a : EntityAccum) (pr : Problem) : (a.add pr).id = a.id := by
  cases pr <;> rfl

@[simp] theorem EntityAccum.backfill_id (a ref : EntityAccum) : (a.backfill ref).id = a.id := rfl

variable {q pr : Problem} {id : String} {v : View} {a : EntityAccum}

theorem EntityAccum.has_add : (a.add pr).Has q ↔ a.Has q ∨ q = pr := by
  cases pr <;> cases q <;> simp [add, Has]

variable {fill : Bool} {i : Input} {typeKey name slug : String} {ref : EntityAccum}
  {fs : List (Place × Problem)}

theorem EntityAccum.has_backfill : (a.backfill ref).Has q ↔ a.Has q := by
  cases q <;> exact Iff.rfl

theorem EntityAccum.not_has_fresh : ¬ (EntityAccum.fresh id name slug typeKey).Has q := by
  cases q <;> exact List.not_mem_nil

def Holds (m : List EntityAccum) (id : String) (q : Problem) : Prop :=
  ∃ a ∈ m, a.id = id ∧ a.Has q

variable {m : List EntityAccum} {slot : Slot}

theorem holds_cons : Holds (a :: m) id q ↔ (a.id = id ∧ a.Has q) ∨ Holds m id q := by
  simp [Holds]

theorem holds_fileUnder {id' : String} :
    Holds (fileUnder (.fresh id name slug typeKey) fill pr m) id' q ↔
      Holds m id' q ∨ (id' = id ∧ q = pr) := by
  induction m with
  | nil =>
    rw [fileUnder, holds_cons, EntityAccum.add_id, EntityAccum.has_add]
    have hfresh : ¬ (EntityAccum.fresh id name slug typeKey).Has q :=
      EntityAccum.not_has_fresh
    have hid : (EntityAccum.fresh id name slug typeKey).id = id := rfl
    simp [Holds, hfresh, hid, eq_comm]
  | cons a m ih =>
    rw [fileUnder]
    have hid : (EntityAccum.fresh id name slug typeKey).id = id := rfl
    rw [hid]
    by_cases ha : a.id = id
    · have hfilled : ∀ b : Bool,
          ((if b then a.backfill (.fresh id name slug typeKey) else a).add pr).id = a.id ∧
          (((if b then a.backfill (.fresh id name slug typeKey) else a).add pr).Has q ↔
            a.Has q ∨ q = pr) := by
        intro b
        cases b
        · exact ⟨EntityAccum.add_id a pr, EntityAccum.has_add⟩
        · refine ⟨EntityAccum.add_id _ pr, ?_⟩
          rw [if_pos rfl, EntityAccum.has_add, EntityAccum.has_backfill]
      rw [if_pos ha, holds_cons, holds_cons, (hfilled fill).1, (hfilled fill).2, ha]
      constructor
      · rintro (⟨hid', hq | hq⟩ | hm)
        · exact Or.inl (Or.inl ⟨hid', hq⟩)
        · exact Or.inr ⟨hid'.symm, hq⟩
        · exact Or.inl (Or.inr hm)
      · rintro ((⟨hid', hq⟩ | hm) | ⟨hid', hq⟩)
        · exact Or.inl ⟨hid', Or.inl hq⟩
        · exact Or.inr hm
        · exact Or.inl ⟨hid'.symm, Or.inr hq⟩
    · rw [if_neg ha, holds_cons, holds_cons, ih, or_assoc]

/-- Every entity has something filed under it. -/
def Explained (m : List EntityAccum) : Prop := ∀ a ∈ m, ∃ q, a.Has q

theorem explained_fileUnder (h : Explained m) : Explained (fileUnder ref fill pr m) := by
  induction m with
  | nil =>
    intro a ha
    rw [List.mem_singleton.mp ha]
    exact ⟨pr, EntityAccum.has_add.mpr (Or.inr rfl)⟩
  | cons b m ih =>
    have htail : Explained m := fun a ha => h a (List.mem_cons_of_mem b ha)
    rw [fileUnder]
    split
    · intro a ha
      rcases List.mem_cons.mp ha with rfl | ha
      · exact ⟨pr, EntityAccum.has_add.mpr (Or.inr rfl)⟩
      · exact htail a ha
    intro a ha
    rcases List.mem_cons.mp ha with rfl | ha
    · exact h a List.mem_cons_self
    · exact ih htail a ha

def View.Shows (v : View) : Slot → Problem → Prop
  | .integration id, q => Holds v.integ id q
  | .system id, q => Holds v.sys id q
  | .other, .check c => c ∈ v.otherChecks
  | .other, .error e => e ∈ v.otherErrors

theorem View.shows_file {f : Place × Problem} :
    (v.file f).Shows slot q ↔ v.Shows slot q ∨ (slot = f.1.slot ∧ q = f.2) := by
  obtain ⟨pl, pr⟩ := f
  cases pl with
  | bound id name =>
    cases slot <;> cases q <;> simp [View.file, View.Shows, Place.slot, holds_fileUnder]
  | integration ref =>
    cases slot <;> cases q <;> simp [View.file, View.Shows, Place.slot, holds_fileUnder]
  | system sy =>
    cases slot <;> cases q <;> simp [View.file, View.Shows, Place.slot, holds_fileUnder]
  | other => cases pr <;> cases slot <;> cases q <;> simp [View.file, View.Shows, Place.slot]

theorem View.shows_foldl :
    (fs.foldl View.file v).Shows slot q ↔ v.Shows slot q ∨ ∃ f ∈ fs, slot = f.1.slot ∧ q = f.2 := by
  induction fs generalizing v with
  | nil => simp
  | cons f fs ih => rw [List.foldl_cons, ih, View.shows_file]; simp [or_assoc]

theorem View.explained_foldl (h : Explained v.integ ∧ Explained v.sys) :
    Explained (fs.foldl View.file v).integ ∧ Explained (fs.foldl View.file v).sys := by
  induction fs generalizing v with
  | nil => exact h
  | cons f fs ih =>
    apply ih
    obtain ⟨pl, pr⟩ := f
    cases pl with
    | bound id name => exact ⟨explained_fileUnder h.1, h.2⟩
    | integration ref => exact ⟨explained_fileUnder h.1, h.2⟩
    | system sy => exact ⟨h.1, explained_fileUnder h.2⟩
    | other => cases pr <;> exact h

/-! ## What the response shows -/

def UnhealthyEntity.Has (e : UnhealthyEntity) : Problem → Prop
  | .check c => c ∈ e.failingChecks
  | .error ue => ue ∈ e.errorServices

/-- The problem appears on the page, in this part of it. -/
def UnhealthyResponse.Shows (r : UnhealthyResponse) : Slot → Problem → Prop
  | .integration id, q => ∃ e ∈ r.integrations, e.id = id ∧ e.Has q
  | .system id, q => ∃ e ∈ r.systems, e.id = id ∧ e.Has q
  | .other, .check c => c ∈ r.otherChecks
  | .other, .error e => e ∈ r.otherErrors

/-- The entity is on the page. -/
def UnhealthyResponse.Lists (r : UnhealthyResponse) : Slot → Prop
  | .integration id => ∃ e ∈ r.integrations, e.id = id
  | .system id => ∃ e ∈ r.systems, e.id = id
  | .other => False

theorem finalize_has : (∃ e ∈ finalizeEntities m, e.id = id ∧ e.Has q) ↔ Holds m id q := by
  cases q <;>
    simp [finalizeEntities, UnhealthyEntity.Has, Holds, EntityAccum.Has, sortChecks,
      sortErrorServices]

theorem finalize_lists (h : Explained m) :
    (∃ e ∈ finalizeEntities m, e.id = id) ↔ ∃ q, Holds m id q := by
  have hmem : (∃ e ∈ finalizeEntities m, e.id = id) ↔ ∃ a ∈ m, a.id = id := by
    simp [finalizeEntities]
  rw [hmem]
  constructor
  · rintro ⟨a, ha, hid⟩
    obtain ⟨q, hq⟩ := h a ha
    exact ⟨q, a, ha, hid, hq⟩
  · rintro ⟨q, a, ha, hid, -⟩
    exact ⟨a, ha, hid⟩

theorem response_shows :
    (buildUnhealthyView i).Shows slot q ↔ ∃ f ∈ i.filings, slot = f.1.slot ∧ q = f.2 := by
  have hempty : ¬ (View.mk [] [] [] []).Shows slot q := by
    cases slot <;> cases q <;> simp [View.Shows, Holds]
  have hview : (buildUnhealthyView i).Shows slot q ↔
      (i.filings.foldl View.file ⟨[], [], [], []⟩).Shows slot q := by
    cases slot with
    | integration id => exact finalize_has
    | system id => exact finalize_has
    | other => cases q <;> exact mem_sliceStable
  rw [hview, View.shows_foldl, or_iff_right hempty]

theorem response_lists (hslot : slot ≠ .other) :
    (buildUnhealthyView i).Lists slot ↔ ∃ f ∈ i.filings, slot = f.1.slot := by
  have hempty : Explained [] := fun _ h => absurd h List.not_mem_nil
  have hexp : Explained (i.filings.foldl View.file ⟨[], [], [], []⟩).integ ∧
      Explained (i.filings.foldl View.file ⟨[], [], [], []⟩).sys :=
    View.explained_foldl ⟨hempty, hempty⟩
  have hshows : (buildUnhealthyView i).Lists slot ↔ ∃ q, (buildUnhealthyView i).Shows slot q := by
    cases slot with
    | integration id =>
      refine (finalize_lists hexp.1).trans ?_
      exact exists_congr fun q => finalize_has.symm
    | system id =>
      refine (finalize_lists hexp.2).trans ?_
      exact exists_congr fun q => finalize_has.symm
    | other => exact absurd rfl hslot
  rw [hshows]
  constructor
  · rintro ⟨q, hq⟩
    obtain ⟨f, hf, hs, -⟩ := response_shows.mp hq
    exact ⟨f, hf, hs⟩
  · rintro ⟨f, hf, hs⟩
    exact ⟨f.2, response_shows.mpr ⟨f, hf, hs, rfl⟩⟩

/-! ## What belongs where -/

namespace Input

variable (i : Input)

def InIntegration (service : String) (ref : IntegrationRef) : Prop :=
  ∃ s ∈ i.summaries, s.serviceName = service ∧ ref ∈ s.integrations

def InSystem (service : String) (sy : System) : Prop :=
  sy ∈ i.systems ∧ service ∈ sy.members

/-- The id of an integration of some summary. -/
def Known (id : String) : Prop :=
  ∃ s ∈ i.summaries, ∃ ref ∈ s.integrations, ref.id = id

/-- A check belongs to what it is bound to; one on a service to the integrations and systems
of the service, to a slice only when it describes the whole service. -/
def CheckBelongs (c : FailingCheck) : Slot → Prop
  | .integration id =>
    (c.targetKind = .integration ∧ c.integrationID.map uuidString = some id) ∨
    (c.targetKind = .service ∧ (∃ ref, i.InIntegration c.serviceName ref ∧ ref.id = id) ∧
      (i.isSlice id → c.wholeService))
  | .system id =>
    (c.targetKind = .system ∧ c.systemID.map uuidString = some id) ∨
    (c.targetKind = .service ∧ ∃ sy, i.InSystem c.serviceName sy ∧ uuidString sy.id = id)
  | .other => False

/-- A service's error belongs to the integrations that hold the whole service and to its
systems. -/
def ErrorBelongs (oe : OpenServiceError) : Slot → Prop
  | .integration id =>
    (∃ ref, i.InIntegration oe.serviceName ref ∧ ref.id = id) ∧ ¬ i.isSlice id
  | .system id => ∃ sy, i.InSystem oe.serviceName sy ∧ uuidString sy.id = id
  | .other => False

/-- A slice's own open error belongs to it. -/
def SliceBelongs : Slot → Prop
  | .integration id => ∃ ue, (id, some ue) ∈ i.slices
  | _ => False

def Belongs (slot : Slot) : Prop :=
  (∃ c ∈ i.checks, i.CheckBelongs c slot) ∨ (∃ oe ∈ i.openErrors, i.ErrorBelongs oe slot) ∨
    i.SliceBelongs slot

/-! ### The maps -/

variable {id service : String} {slot : Slot}

private theorem foldl_svcInts {summaries : List ServiceSummary}
    (hone : (summaries.map (·.serviceName)).Nodup) (refs : List IntegrationRef)
    (hrefs : refs = [] ∨ service ∉ summaries.map (·.serviceName)) (ref : IntegrationRef) :
    ref ∈ summaries.foldl (fun refs s =>
        if s.serviceName = service ∧ s.integrations ≠ [] then s.integrations else refs) refs ↔
      ref ∈ refs ∨ ∃ s ∈ summaries, s.serviceName = service ∧ ref ∈ s.integrations := by
  induction summaries generalizing refs with
  | nil => simp
  | cons s summaries ih =>
    simp only [List.map_cons, List.nodup_cons] at hone
    rw [List.foldl_cons]
    by_cases hs : s.serviceName = service
    · have hempty : refs = [] := by
        rcases hrefs with h | h
        · exact h
        · exact absurd (by simp [hs]) h
      have hgone : service ∉ summaries.map (·.serviceName) := by rw [← hs]; exact hone.1
      have hnone : ¬ ∃ s ∈ summaries, s.serviceName = service ∧ ref ∈ s.integrations := by
        rintro ⟨s', hs', hname, -⟩
        exact hgone (List.mem_map.mpr ⟨s', hs', hname⟩)
      rw [ih hone.2 _ (Or.inr hgone)]
      by_cases hints : s.integrations = []
      · simp [hs, hints, hempty]
      · simp [hs, hints, hempty]
    · have hskip : ¬ (s.serviceName = service ∧ s.integrations ≠ []) := fun h => hs h.1
      have hrefs' : refs = [] ∨ service ∉ summaries.map (·.serviceName) := by
        rcases hrefs with h | h
        · exact Or.inl h
        · right
          intro hmem
          exact h (by simp [hmem])
      rw [if_neg hskip, ih hone.2 refs hrefs']
      simp [hs]

variable {c : FailingCheck} {ref : IntegrationRef} {oe : OpenServiceError}

theorem mem_svcInts : ref ∈ i.svcInts service ↔ i.InIntegration service ref := by
  rw [svcInts, foldl_svcInts i.oneSummary [] (Or.inl rfl)]
  simp [InIntegration]

private theorem foldl_refByID {refs : List IntegrationRef} {found : Option IntegrationRef}
    (hfound : ∀ ref ∈ found, ref.id = id) :
    (∀ ref ∈ refs.foldl (fun found ref => if ref.id = id then some ref else found) found,
        ref.id = id) ∧
      ((refs.foldl (fun found ref => if ref.id = id then some ref else found) found).isSome ↔
        found.isSome ∨ ∃ ref ∈ refs, ref.id = id) := by
  induction refs generalizing found with
  | nil => exact ⟨hfound, by simp⟩
  | cons r refs ih =>
    rw [List.foldl_cons]
    by_cases hr : r.id = id
    · rw [if_pos hr]
      have hsome : ∀ ref ∈ some r, ref.id = id := by simpa using hr
      have hrest := ih hsome
      exact ⟨hrest.1, by rw [hrest.2]; simp [hr]⟩
    · rw [if_neg hr]
      have hrest := ih hfound
      exact ⟨hrest.1, by rw [hrest.2]; simp [hr]⟩

theorem refByID_id (h : i.refByID id = some ref) : ref.id = id :=
  (foldl_refByID (by simp)).1 ref h

theorem refByID_isSome : (i.refByID id).isSome ↔ i.Known id := by
  rw [refByID, (foldl_refByID (by simp)).2]
  simp only [Option.isSome_none, Bool.false_eq_true, false_or, List.mem_flatMap, Known]
  constructor
  · rintro ⟨ref, ⟨s, hs, href⟩, hid⟩
    exact ⟨s, hs, ref, href, hid⟩
  · rintro ⟨s, hs, ref, href, hid⟩
    exact ⟨ref, ⟨s, hs, href⟩, hid⟩

theorem mem_svcSystems {sy : System} : sy ∈ i.svcSystems service ↔ i.InSystem service sy := by
  simp [svcSystems, InSystem]

theorem slice?_eq_some {entry : Option UnhealthyErrorService} :
    i.slice? id = some entry ↔ (id, entry) ∈ i.slices :=
  lookup_eq_some_of_nodup i.oneSlice

theorem known_of_inIntegration (h : i.InIntegration service ref) : i.Known ref.id := by
  obtain ⟨s, hs, -, href⟩ := h
  exact ⟨s, hs, ref, href, rfl⟩

/-! ### The places -/

theorem checkHolders_slot (hkind : c.targetKind = .service) :
    (∃ pl ∈ i.checkHolders c, slot = pl.slot) ↔ i.CheckBelongs c slot := by
  cases slot with
  | integration id =>
    simp only [checkHolders, List.mem_append, List.mem_map, List.mem_filter, mem_svcInts,
      CheckBelongs]
    constructor
    · rintro ⟨pl, ⟨ref, ⟨href, hwhole⟩, rfl⟩ | ⟨sy, -, rfl⟩, heq⟩
      · simp only [Place.slot, Slot.integration.injEq] at heq
        subst heq
        refine Or.inr ⟨hkind, ⟨ref, href, rfl⟩, ?_⟩
        intro hslice
        by_contra hnot
        simp [hslice, hnot] at hwhole
      · simp [Place.slot] at heq
    · rintro (⟨hno, -⟩ | ⟨-, ⟨ref, href, rfl⟩, hwhole⟩)
      · rw [hkind] at hno
        exact absurd hno (by decide)
      · refine ⟨.integration ref, Or.inl ⟨ref, ⟨href, ?_⟩, rfl⟩, rfl⟩
        rw [decide_eq_true_eq]
        rintro ⟨hslice, hnot⟩
        exact hnot (hwhole hslice)
  | system id =>
    simp only [checkHolders, List.mem_append, List.mem_map, mem_svcSystems, CheckBelongs]
    constructor
    · rintro ⟨pl, ⟨ref, -, rfl⟩ | ⟨sy, hsy, rfl⟩, heq⟩
      · simp [Place.slot] at heq
      · simp only [Place.slot, Slot.system.injEq] at heq
        exact Or.inr ⟨hkind, sy, hsy, heq.symm⟩
    · rintro (⟨hno, -⟩ | ⟨-, sy, hsy, rfl⟩)
      · rw [hkind] at hno
        exact absurd hno (by decide)
      · exact ⟨.system sy, Or.inr ⟨sy, hsy, rfl⟩, rfl⟩
  | other =>
    simp only [checkHolders, List.mem_append, List.mem_map, CheckBelongs, iff_false]
    rintro ⟨pl, ⟨ref, -, rfl⟩ | ⟨sy, -, rfl⟩, heq⟩
    · simp [Place.slot] at heq
    · simp [Place.slot] at heq

theorem checkPlaces_slot (hslot : slot ≠ .other) :
    (∃ pl ∈ i.checkPlaces c, slot = pl.slot) ↔ i.CheckBelongs c slot ∧ c.targetKind ≠ .system := by
  cases hkind : c.targetKind with
  | integration =>
    rw [checkPlaces, hkind]
    cases slot with
    | integration id =>
      cases hid : c.integrationID with
      | none => simp [CheckBelongs, hkind, hid]
      | some bound =>
        simp only [CheckBelongs, hkind, hid, Place.slot, List.mem_singleton,
          exists_eq_left, Slot.integration.injEq, Option.map_some, Option.some.injEq]
        constructor
        · intro h
          exact ⟨Or.inl ⟨trivial, h.symm⟩, by decide⟩
        · rintro ⟨⟨-, h⟩ | ⟨hno, -⟩, -⟩
          · exact h.symm
          · exact absurd hno (by decide)
    | system id => cases hid : c.integrationID <;> simp [CheckBelongs, hkind, Place.slot]
    | other => exact absurd rfl hslot
  | system =>
    rw [checkPlaces, hkind]
    simp [Place.slot, hslot]
  | global =>
    rw [checkPlaces, hkind]
    cases slot with
    | integration id => simp [CheckBelongs, hkind, Place.slot]
    | system id => simp [CheckBelongs, hkind, Place.slot]
    | other => exact absurd rfl hslot
  | service =>
    rw [← i.checkHolders_slot hkind, checkPlaces, hkind]
    dsimp only
    split
    next hnil => simp [hnil, Place.slot, hslot]
    next => simp

theorem checkPlaces_ne_nil :
    i.checkPlaces c ≠ [] ↔ ¬ (c.targetKind = .integration ∧ c.integrationID = none) := by
  rw [checkPlaces]
  cases hkind : c.targetKind with
  | integration => cases hid : c.integrationID <;> simp
  | service =>
    dsimp only
    split
    next => simp
    next hne => simpa using hne
  | system => simp
  | global => simp

theorem errorHolders_slot :
    (∃ pl ∈ i.errorHolders oe, slot = pl.slot) ↔ i.ErrorBelongs oe slot := by
  cases slot with
  | integration id =>
    simp only [errorHolders, List.mem_append, List.mem_map, List.mem_filter, mem_svcInts,
      ErrorBelongs]
    constructor
    · rintro ⟨pl, ⟨ref, ⟨href, hslice⟩, rfl⟩ | ⟨sy, -, rfl⟩, heq⟩
      · simp only [Place.slot, Slot.integration.injEq] at heq
        subst heq
        exact ⟨⟨ref, href, rfl⟩, by simpa using hslice⟩
      · simp [Place.slot] at heq
    · rintro ⟨⟨ref, href, rfl⟩, hslice⟩
      exact ⟨.integration ref, Or.inl ⟨ref, ⟨href, by simpa using hslice⟩, rfl⟩, rfl⟩
  | system id =>
    simp only [errorHolders, List.mem_append, List.mem_map, mem_svcSystems, ErrorBelongs]
    constructor
    · rintro ⟨pl, ⟨ref, -, rfl⟩ | ⟨sy, hsy, rfl⟩, heq⟩
      · simp [Place.slot] at heq
      · simp only [Place.slot, Slot.system.injEq] at heq
        exact ⟨sy, hsy, heq.symm⟩
    · rintro ⟨sy, hsy, rfl⟩
      exact ⟨.system sy, Or.inr ⟨sy, hsy, rfl⟩, rfl⟩
  | other =>
    simp only [errorHolders, List.mem_append, List.mem_map, ErrorBelongs, iff_false]
    rintro ⟨pl, ⟨ref, -, rfl⟩ | ⟨sy, -, rfl⟩, heq⟩
    · simp [Place.slot] at heq
    · simp [Place.slot] at heq

theorem errorPlaces_slot (hslot : slot ≠ .other) :
    (∃ pl ∈ i.errorPlaces oe, slot = pl.slot) ↔ i.ErrorBelongs oe slot := by
  rw [← errorHolders_slot, errorPlaces]
  split
  next hnil => simp [hnil.1, Place.slot, hslot]
  next => exact Iff.rfl

/-- An integration that holds the service as a slice has an open error of its own. -/
def Sliced (service : String) : Prop :=
  ∃ ref ue, i.InIntegration service ref ∧ (ref.id, some ue) ∈ i.slices

theorem all_slice?_isNone :
    ((i.svcInts service).all fun ref => (i.slice? ref.id).join.isNone) ↔ ¬ i.Sliced service := by
  rw [List.all_eq_true]
  constructor
  · rintro hall ⟨ref, ue, href, hentry⟩
    have hnone := hall ref (i.mem_svcInts.mpr href)
    rw [i.slice?_eq_some.mpr hentry] at hnone
    simp at hnone
  · intro hno ref href
    cases hentry : i.slice? ref.id with
    | none => rfl
    | some entry =>
      cases entry with
      | none => rfl
      | some ue =>
        exact absurd ⟨ref, ue, i.mem_svcInts.mp href, i.slice?_eq_some.mp hentry⟩ hno

/-- An error is filed somewhere unless it belongs nowhere and a slice of its service has an
error of its own. -/
theorem errorPlaces_ne_nil :
    i.errorPlaces oe ≠ [] ↔ (∃ slot, i.ErrorBelongs oe slot) ∨ ¬ i.Sliced oe.serviceName := by
  have hholders : i.errorHolders oe ≠ [] ↔ ∃ slot, i.ErrorBelongs oe slot := by
    constructor
    · intro hne
      obtain ⟨pl, hpl⟩ := List.exists_mem_of_ne_nil _ hne
      exact ⟨pl.slot, i.errorHolders_slot.mp ⟨pl, hpl, rfl⟩⟩
    · rintro ⟨slot, hslot⟩
      obtain ⟨pl, hpl, -⟩ := i.errorHolders_slot.mpr hslot
      exact List.ne_nil_of_mem hpl
  rw [← hholders, ← all_slice?_isNone, errorPlaces]
  split
  next h => simp [h.2]
  next h =>
    constructor
    · intro hne
      exact Or.inl hne
    · rintro (hne | hall)
      · exact hne
      · intro hnil
        exact h ⟨hnil, hall⟩

theorem mem_slicePlaces {entry : String × Option UnhealthyErrorService} {f : Place × Problem} :
    f ∈ i.slicePlaces entry ↔ ∃ ue ref, entry.2 = some ue ∧ i.refByID entry.1 = some ref ∧
      f = (.integration ref, .error ue) := by
  rw [slicePlaces]
  cases entry.2 with
  | none => simp
  | some ue => cases i.refByID entry.1 <;> simp

/-! ### What is filed -/

theorem mem_filings {f : Place × Problem} :
    f ∈ i.filings ↔
      (∃ c ∈ i.checks, f.1 ∈ i.checkPlaces c ∧ f.2 = .check (showCheck c)) ∨
      (∃ oe ∈ i.openErrors, f.1 ∈ i.errorPlaces oe ∧ f.2 = .error (showError oe)) ∨
      ∃ entry ∈ i.slices, f ∈ i.slicePlaces entry := by
  obtain ⟨pl, pr⟩ := f
  simp only [filings, List.mem_append, List.mem_flatMap, List.mem_map, Prod.mk.injEq, or_assoc]
  constructor
  · rintro (⟨c, hc, pl', hpl, rfl, rfl⟩ | ⟨oe, hoe, pl', hpl, rfl, rfl⟩ | hslice)
    · exact Or.inl ⟨c, hc, hpl, rfl⟩
    · exact Or.inr (Or.inl ⟨oe, hoe, hpl, rfl⟩)
    · exact Or.inr (Or.inr hslice)
  · rintro (⟨c, hc, hpl, rfl⟩ | ⟨oe, hoe, hpl, rfl⟩ | hslice)
    · exact Or.inl ⟨c, hc, pl, hpl, rfl, rfl⟩
    · exact Or.inr (Or.inl ⟨oe, hoe, pl, hpl, rfl, rfl⟩)
    · exact Or.inr (Or.inr hslice)

theorem shows_check {uc : UnhealthyCheck} :
    (buildUnhealthyView i).Shows slot (.check uc) ↔
      ∃ c ∈ i.checks, showCheck c = uc ∧ ∃ pl ∈ i.checkPlaces c, slot = pl.slot := by
  rw [response_shows]
  constructor
  · rintro ⟨f, hf, hslot, hq⟩
    rcases i.mem_filings.mp hf with ⟨c, hc, hpl, hpr⟩ | ⟨oe, -, -, hpr⟩ | ⟨entry, -, hslice⟩
    · rw [hpr] at hq
      exact ⟨c, hc, (Problem.check.inj hq).symm, f.1, hpl, hslot⟩
    · rw [hpr] at hq
      exact absurd hq (by simp)
    · obtain ⟨ue, ref, -, -, rfl⟩ := i.mem_slicePlaces.mp hslice
      exact absurd hq (by simp)
  · rintro ⟨c, hc, rfl, pl, hpl, hslot⟩
    exact ⟨(pl, .check (showCheck c)), i.mem_filings.mpr (Or.inl ⟨c, hc, hpl, rfl⟩), hslot, rfl⟩

theorem shows_error {ue : UnhealthyErrorService} :
    (buildUnhealthyView i).Shows slot (.error ue) ↔
      (∃ oe ∈ i.openErrors, showError oe = ue ∧ ∃ pl ∈ i.errorPlaces oe, slot = pl.slot) ∨
      ∃ id, (id, some ue) ∈ i.slices ∧ i.Known id ∧ slot = .integration id := by
  rw [response_shows]
  constructor
  · rintro ⟨f, hf, hslot, hq⟩
    rcases i.mem_filings.mp hf with ⟨c, -, -, hpr⟩ | ⟨oe, hoe, hpl, hpr⟩ | ⟨entry, hentry, hslice⟩
    · rw [hpr] at hq
      exact absurd hq (by simp)
    · rw [hpr] at hq
      exact Or.inl ⟨oe, hoe, (Problem.error.inj hq).symm, f.1, hpl, hslot⟩
    · obtain ⟨ue', ref, hue, href, rfl⟩ := i.mem_slicePlaces.mp hslice
      obtain ⟨id, open?⟩ := entry
      have hsame : ue = ue' := Problem.error.inj hq
      have hid : ref.id = id := i.refByID_id href
      refine Or.inr ⟨id, ?_, i.refByID_isSome.mp (by rw [href]; rfl), ?_⟩
      · rw [hsame, ← hue]
        exact hentry
      · rw [hslot, ← hid]
        rfl
  · rintro (⟨oe, hoe, rfl, pl, hpl, hslot⟩ | ⟨id, hentry, hknown, rfl⟩)
    · exact ⟨(pl, .error (showError oe)),
        i.mem_filings.mpr (Or.inr (Or.inl ⟨oe, hoe, hpl, rfl⟩)), hslot, rfl⟩
    · obtain ⟨ref, href⟩ := Option.isSome_iff_exists.mp (i.refByID_isSome.mpr hknown)
      refine ⟨(.integration ref, .error ue), i.mem_filings.mpr (Or.inr (Or.inr
        ⟨(id, some ue), hentry, i.mem_slicePlaces.mpr ⟨ue, ref, rfl, href, rfl⟩⟩)), ?_, rfl⟩
      show Slot.integration id = Slot.integration ref.id
      rw [i.refByID_id href]

/-- What is on the page: what a check not bound to a system, an open error, or the own error
of a known slice belongs to. -/
theorem lists_iff (hslot : slot ≠ .other) :
    (buildUnhealthyView i).Lists slot ↔
      (∃ c ∈ i.checks, i.CheckBelongs c slot ∧ c.targetKind ≠ .system) ∨
      (∃ oe ∈ i.openErrors, i.ErrorBelongs oe slot) ∨
      ∃ id ue, (id, some ue) ∈ i.slices ∧ i.Known id ∧ slot = .integration id := by
  rw [response_lists hslot]
  constructor
  · rintro ⟨f, hf, hs⟩
    rcases i.mem_filings.mp hf with ⟨c, hc, hpl, -⟩ | ⟨oe, hoe, hpl, -⟩ | ⟨entry, hentry, hslice⟩
    · exact Or.inl ⟨c, hc, (i.checkPlaces_slot hslot).mp ⟨f.1, hpl, hs⟩⟩
    · exact Or.inr (Or.inl ⟨oe, hoe, (i.errorPlaces_slot hslot).mp ⟨f.1, hpl, hs⟩⟩)
    · obtain ⟨ue, ref, hue, href, rfl⟩ := i.mem_slicePlaces.mp hslice
      obtain ⟨id, open?⟩ := entry
      have hid : ref.id = id := i.refByID_id href
      refine Or.inr (Or.inr ⟨id, ue, ?_, i.refByID_isSome.mp (by rw [href]; rfl), ?_⟩)
      · rw [← hue]
        exact hentry
      · rw [hs, ← hid]
        rfl
  · rintro (⟨c, hc, hbelongs⟩ | ⟨oe, hoe, hbelongs⟩ | ⟨id, ue, hentry, hknown, rfl⟩)
    · obtain ⟨pl, hpl, hs⟩ := (i.checkPlaces_slot hslot).mpr hbelongs
      exact ⟨(pl, .check (showCheck c)), i.mem_filings.mpr (Or.inl ⟨c, hc, hpl, rfl⟩), hs⟩
    · obtain ⟨pl, hpl, hs⟩ := (i.errorPlaces_slot hslot).mpr hbelongs
      exact ⟨(pl, .error (showError oe)),
        i.mem_filings.mpr (Or.inr (Or.inl ⟨oe, hoe, hpl, rfl⟩)), hs⟩
    · obtain ⟨f, hf, hs, -⟩ := response_shows.mp
        (i.shows_error.mpr (Or.inr ⟨id, hentry, hknown, rfl⟩))
      exact ⟨f, hf, hs⟩

/-! ## Nothing lost, nothing invented -/

/-- Every failing check and every open error is on the page as it is, a check bound to a system
under that system, and an entity is there exactly when something belongs to it. -/
structure Complete (r : UnhealthyResponse) : Prop where
  checks : ∀ c ∈ i.checks, ∃ slot, r.Shows slot (.check (showCheck c))
  errors : ∀ oe ∈ i.openErrors, ∃ slot, r.Shows slot (.error (showError oe))
  systemChecks : ∀ c ∈ i.checks, c.targetKind = .system → ∀ id, c.systemID = some id →
    r.Shows (.system (uuidString id)) (.check (showCheck c))
  listed : ∀ slot, slot ≠ .other → (r.Lists slot ↔ i.Belongs slot)

/-- When the view is complete. -/
structure Attributed : Prop where
  boundChecks : ∀ c ∈ i.checks, c.targetKind = .integration → c.integrationID = none →
    ∃ c' ∈ i.checks, showCheck c' = showCheck c ∧
      ¬ (c'.targetKind = .integration ∧ c'.integrationID = none)
  systemChecks : ∀ c ∈ i.checks, c.targetKind = .system → ∀ id, c.systemID = some id →
    ∃ c' ∈ i.checks, c'.targetKind = .service ∧ showCheck c' = showCheck c ∧
      ∃ sy, i.InSystem c'.serviceName sy ∧ sy.id = id
  /-- The error of a service that only slices hold, one of them with an error of its own, is
  itself the error of a slice: another one would take its place on the page. -/
  slicedErrors : ∀ oe ∈ i.openErrors, (∀ slot, ¬ i.ErrorBelongs oe slot) →
    i.Sliced oe.serviceName → ∃ id, (id, some (showError oe)) ∈ i.slices ∧ i.Known id
  /-- A slice with an error of its own is an integration of some summary, or one that a check
  is bound to. -/
  knownSlices : ∀ id ue, (id, some ue) ∈ i.slices → i.Known id ∨
    ∃ c ∈ i.checks, c.targetKind = .integration ∧ c.integrationID.map uuidString = some id

theorem Complete.attributed {i : Input} (h : i.Complete (buildUnhealthyView i)) : i.Attributed := by
  constructor
  · intro c hc hkind hid
    obtain ⟨slot, hshows⟩ := h.checks c hc
    obtain ⟨c', hc', hsame, pl, hpl, -⟩ := i.shows_check.mp hshows
    exact ⟨c', hc', hsame, i.checkPlaces_ne_nil.mp (List.ne_nil_of_mem hpl)⟩
  · intro c hc hkind id hid
    have hshows := h.systemChecks c hc hkind id hid
    obtain ⟨c', hc', hsame, hpl⟩ := i.shows_check.mp hshows
    obtain ⟨hbelongs, hno⟩ := (i.checkPlaces_slot (by simp)).mp hpl
    rcases hbelongs with ⟨hsys, -⟩ | ⟨hservice, sy, hsy, hsyid⟩
    · exact absurd hsys hno
    · exact ⟨c', hc', hservice, hsame, sy, hsy, uuidString_injective hsyid⟩
  · intro oe hoe hnowhere hsliced
    obtain ⟨slot, hshows⟩ := h.errors oe hoe
    rcases i.shows_error.mp hshows with ⟨oe', hoe', hsame, pl, hpl, -⟩ | ⟨id, hentry, hknown, -⟩
    · -- whatever the error is, it is filed by the name of its service
      exfalso
      have hservice : oe'.serviceName = oe.serviceName :=
        congrArg UnhealthyErrorService.serviceName hsame
      have hplaces : i.errorPlaces oe' = i.errorPlaces oe := by
        rw [errorPlaces, errorPlaces, errorHolders, errorHolders, hservice]
      rw [hplaces] at hpl
      rcases i.errorPlaces_ne_nil.mp (List.ne_nil_of_mem hpl) with ⟨slot', hslot'⟩ | hno
      · exact hnowhere slot' hslot'
      · exact hno hsliced
    · exact ⟨id, hentry, hknown⟩
  · intro id ue hentry
    have hbelongs : i.Belongs (.integration id) := Or.inr (Or.inr ⟨ue, hentry⟩)
    rcases (i.lists_iff (by simp)).mp ((h.listed _ (by simp)).mpr hbelongs) with
      ⟨c, hc, hcheck, -⟩ | ⟨oe, -, ⟨ref, href, hid⟩, -⟩ | ⟨id', ue', -, hknown, heq⟩
    · rcases hcheck with hbound | ⟨-, ⟨ref, href, hid⟩, -⟩
      · exact Or.inr ⟨c, hc, hbound⟩
      · exact Or.inl (hid ▸ i.known_of_inIntegration href)
    · exact Or.inl (hid ▸ i.known_of_inIntegration href)
    · rw [Slot.integration.inj heq]
      exact Or.inl hknown

namespace Attributed

variable {i : Input} (h : i.Attributed)
include h

theorem shows_systemCheck {c : FailingCheck} (hc : c ∈ i.checks) (hkind : c.targetKind = .system)
    {id : UUID} (hid : c.systemID = some id) :
    (buildUnhealthyView i).Shows (.system (uuidString id)) (.check (showCheck c)) := by
  obtain ⟨c', hc', hservice, hsame, sy, hsy, rfl⟩ := h.systemChecks c hc hkind id hid
  apply i.shows_check.mpr
  refine ⟨c', hc', hsame, (i.checkPlaces_slot (by simp)).mpr ⟨?_, ?_⟩⟩
  · exact Or.inr ⟨hservice, sy, hsy, rfl⟩
  · rw [hservice]
    decide

theorem exists_shows_check {c : FailingCheck} (hc : c ∈ i.checks) :
    ∃ slot, (buildUnhealthyView i).Shows slot (.check (showCheck c)) := by
  have hplaced : ∃ c' ∈ i.checks, showCheck c' = showCheck c ∧ i.checkPlaces c' ≠ [] := by
    by_cases hnone : c.targetKind = .integration ∧ c.integrationID = none
    · obtain ⟨c', hc', hsame, hno⟩ := h.boundChecks c hc hnone.1 hnone.2
      exact ⟨c', hc', hsame, i.checkPlaces_ne_nil.mpr hno⟩
    · exact ⟨c, hc, rfl, i.checkPlaces_ne_nil.mpr hnone⟩
  obtain ⟨c', hc', hsame, hne⟩ := hplaced
  obtain ⟨pl, hpl⟩ := List.exists_mem_of_ne_nil _ hne
  exact ⟨pl.slot, i.shows_check.mpr ⟨c', hc', hsame, pl, hpl, rfl⟩⟩

theorem exists_shows_error {oe : OpenServiceError} (hoe : oe ∈ i.openErrors) :
    ∃ slot, (buildUnhealthyView i).Shows slot (.error (showError oe)) := by
  by_cases hlost : (∀ slot, ¬ i.ErrorBelongs oe slot) ∧ i.Sliced oe.serviceName
  · obtain ⟨id, hentry, hknown⟩ := h.slicedErrors oe hoe hlost.1 hlost.2
    exact ⟨.integration id, i.shows_error.mpr (Or.inr ⟨id, hentry, hknown, rfl⟩)⟩
  have hne : i.errorPlaces oe ≠ [] := by
    rw [errorPlaces_ne_nil]
    by_contra hno
    rw [not_or, not_exists, not_not] at hno
    exact hlost hno
  obtain ⟨pl, hpl⟩ := List.exists_mem_of_ne_nil _ hne
  exact ⟨pl.slot, i.shows_error.mpr (Or.inl ⟨oe, hoe, rfl, pl, hpl, rfl⟩)⟩

theorem lists_of_systemCheck {c : FailingCheck} (hc : c ∈ i.checks)
    (hkind : c.targetKind = .system) {slot : Slot} (hslot : slot ≠ .other)
    (hcheck : i.CheckBelongs c slot) : (buildUnhealthyView i).Lists slot := by
  cases slot with
  | integration id =>
    rcases hcheck with ⟨hno, -⟩ | ⟨hno, -⟩
    · rw [hkind] at hno
      exact absurd hno (by decide)
    · rw [hkind] at hno
      exact absurd hno (by decide)
  | system id =>
    rcases hcheck with ⟨-, hid⟩ | ⟨hno, -⟩
    · obtain ⟨sid, hsid, rfl⟩ := Option.map_eq_some_iff.mp hid
      obtain ⟨e, he, heid, -⟩ := h.shows_systemCheck hc hkind hsid
      exact ⟨e, he, heid⟩
    · rw [hkind] at hno
      exact absurd hno (by decide)
  | other => exact absurd rfl hslot

theorem lists_iff_belongs {slot : Slot} (hslot : slot ≠ .other) :
    (buildUnhealthyView i).Lists slot ↔ i.Belongs slot := by
  constructor
  · intro hlists
    rcases (i.lists_iff hslot).mp hlists with
      ⟨c, hc, hcheck, -⟩ | herror | ⟨id, ue, hentry, -, rfl⟩
    · exact Or.inl ⟨c, hc, hcheck⟩
    · exact Or.inr (Or.inl herror)
    · exact Or.inr (Or.inr ⟨ue, hentry⟩)
  · rintro (⟨c, hc, hcheck⟩ | herror | hslice)
    · by_cases hkind : c.targetKind = .system
      · exact h.lists_of_systemCheck hc hkind hslot hcheck
      · exact (i.lists_iff hslot).mpr (Or.inl ⟨c, hc, hcheck, hkind⟩)
    · exact (i.lists_iff hslot).mpr (Or.inr (Or.inl herror))
    · cases slot with
      | integration id =>
        obtain ⟨ue, hentry⟩ := hslice
        rcases h.knownSlices id ue hentry with hknown | ⟨c, hc, hkind, hid⟩
        · exact (i.lists_iff hslot).mpr (Or.inr (Or.inr ⟨id, ue, hentry, hknown, rfl⟩))
        · refine (i.lists_iff hslot).mpr (Or.inl ⟨c, hc, Or.inl ⟨hkind, hid⟩, ?_⟩)
          rw [hkind]
          decide
      | system id => exact hslice.elim
      | other => exact absurd rfl hslot

end Attributed

/-- The feed loses nothing and invents nothing exactly when every problem can be attributed. -/
theorem complete_iff (i : Input) : i.Complete (buildUnhealthyView i) ↔ i.Attributed := by
  constructor
  · exact Complete.attributed
  · intro h
    constructor
    · exact fun c hc => h.exists_shows_check hc
    · exact fun oe hoe => h.exists_shows_error hoe
    · exact fun c hc hkind id hid => h.shows_systemCheck hc hkind hid
    · exact fun slot hslot => h.lists_iff_belongs hslot

end Input

private def brokerDown : FailingCheck :=
  { ruleName := "Broker down", severity := .critical, startedAt := 0, summary := "",
    targetKind := .system, serviceName := "", integrationID := none, integrationName := "",
    systemID := some 1, wholeService := true }

private def brokerInput : Input where
  checks := [brokerDown]
  summaries := []
  openErrors := []
  systems := [⟨1, "RabbitMQ", "rabbitmq", ["rmq-exporter"]⟩]
  slices := []
  oneSummary := List.nodup_nil
  oneSlice := List.nodup_nil

theorem system_check_filed_as_other :
    ¬ brokerInput.Complete (buildUnhealthyView brokerInput) ∧
      (buildUnhealthyView brokerInput).systems = [] := by
  have hsystems : (buildUnhealthyView brokerInput).systems = [] := by decide +kernel
  refine ⟨?_, hsystems⟩
  intro h
  obtain ⟨e, he, -⟩ := h.systemChecks brokerDown List.mem_cons_self rfl 1 rfl
  rw [hsystems] at he
  exact absurd he List.not_mem_nil

end Sluicio.Api.Unhealthy
