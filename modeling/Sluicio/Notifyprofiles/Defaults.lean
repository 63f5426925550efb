import Sluicio.Catalog
import Sluicio.Lib.Run

/-!
# The default notification profile

Each organization, and each of its groups, should have one default profile: an alert that no
more specific profile takes goes to it.  Becoming the default is a write of the profile's own
row and then an update that clears the others; the profile of the first boot is a count and
then an insert.  Neither pair is a transaction.
-/

namespace Sluicio.Notifyprofiles

open Lib

/-- Whose default a profile can be: a group's, or without a group the organization's. -/
structure Scope where
  organizationID : UUID
  groupID : Option UUID
  deriving DecidableEq

inductive Grouping where
  | perCheck | perIntegration

inductive EnvironmentMode where
  | any | only | except
  deriving DecidableEq

/-- A row of `notification_profiles`. -/
structure Profile where
  id : UUID
  organizationID : UUID
  groupID : Option UUID
  name : String
  grouping : Grouping := .perCheck
  renotifyMinutes : Int := 0
  isDefault : Bool
  environmentMode : EnvironmentMode := .any
  environments : List String := []

namespace Profile

def scope (p : Profile) : Scope := ⟨p.organizationID, p.groupID⟩

def environmentsOf (p : Profile) : List String :=
  if p.environmentMode = .any then [] else p.environments

/-- The columns that `Create` writes. -/
def inserted (p : Profile) : Profile := { p with environments := p.environmentsOf }

/-- The `SET` of `Update`: id, organization and group stay. -/
def edited (p old : Profile) : Profile :=
  { p.inserted with id := old.id, organizationID := old.organizationID, groupID := old.groupID }

/-- `is_default = FALSE`. -/
def cleared (p : Profile) : Profile := { p with isDefault := false }

/-- The row that `EnsureOrgDefault` inserts. -/
def orgDefault (id org : UUID) : Profile where
  id := id
  organizationID := org
  groupID := none
  name := "Default"
  isDefault := true

end Profile

/-- The table; ids are its primary key. -/
structure Table where
  rows : List Profile
  key : (rows.map Profile.id).Nodup

namespace Table

/-- `INSERT`; an id that is there is refused. -/
def insert (t : Table) (p : Profile) : Option Table :=
  if hnew : p.id ∈ t.rows.map Profile.id then none
  else some ⟨p :: t.rows, List.nodup_cons.2 ⟨hnew, t.key⟩⟩

/-- The row that an update or a deletion is about. -/
def row (t : Table) (org id : UUID) : Option Profile :=
  t.rows.find? fun p => p.organizationID = org && p.id = id

/-- The statement of `Update`. -/
def update (t : Table) (org : UUID) (p : Profile) : Table where
  rows := updateWhere (fun old => old.organizationID = org && old.id = p.id) p.edited t.rows
  key := nodup_updateWhere (fun _ => rfl) t.key

/-- The statement of `Delete`. -/
def delete (t : Table) (org id : UUID) : Table where
  rows := t.rows.filter fun p => ¬ (p.organizationID = org ∧ p.id = id)
  key := t.key.sublist (List.filter_sublist.map _)

def clearOtherDefaults (t : Table) (scope : Scope) (keep : UUID) : Table where
  rows := updateWhere (fun p => p.scope = scope && p.id != keep && p.isDefault)
    Profile.cleared t.rows
  key := nodup_updateWhere (fun _ => rfl) t.key

/-- `SELECT count(*) …` of the profiles without a group. -/
def countOrgWide (t : Table) (org : UUID) : Nat :=
  (t.rows.filter fun p => p.scope = ⟨org, none⟩).length

def defaults (t : Table) (scope : Scope) : List UUID :=
  (t.rows.filter fun p => p.scope = scope && p.isDefault).map Profile.id

end Table

/-! ## Calls -/

/-- A call that has a statement left: `Create` or `Update` of a default before the others are
cleared, `EnsureOrgDefault` before the insert. -/
inductive Call where
  | clearOtherDefaults (scope : Scope) (keep : UUID)
  | insertDefault (org : UUID)
  deriving DecidableEq

/-- The scopes in which a default was asked for, and those in which an update asked for none or
a profile was deleted, are only recorded. -/
structure State where
  table : Table
  calls : List Call := []
  asked : List Scope := []
  released : List Scope := []

inductive Action where
  | create (p : Profile)
  | update (org : UUID) (p : Profile)
  | delete (org id : UUID)
  /-- `EnsureOrgDefault`, its count -/
  | ensureOrgDefault (org : UUID)
  /-- the next statement of a call; an insert takes this id -/
  | proceed (call : Call) (id : UUID)

/-- The profile is the default by now, and the others are to be cleared. -/
def State.becomesDefault (s : State) (t : Table) (p : Profile) : State :=
  { s with table := t, calls := .clearOtherDefaults p.scope p.id :: s.calls,
           asked := p.scope :: s.asked }

def step (s : State) : Action → State
  | .create p =>
    match s.table.insert p.inserted with
    | none => s
    | some t => if p.isDefault then s.becomesDefault t p else { s with table := t }
  | .update org p =>
    match s.table.row org p.id with
    | none => s
    | some old =>
      if p.isDefault then s.becomesDefault (s.table.update org p) old
      else { s with table := s.table.update org p, released := old.scope :: s.released }
  | .delete org id =>
    match s.table.row org id with
    | none => s
    | some old => { s with table := s.table.delete org id, released := old.scope :: s.released }
  | .ensureOrgDefault org =>
    if 0 < s.table.countOrgWide org then s
    else { s with calls := .insertDefault org :: s.calls }
  | .proceed call id =>
    if call ∈ s.calls then
      match call with
      | .clearOtherDefaults scope keep =>
        { s with table := s.table.clearOtherDefaults scope keep, calls := s.calls.erase call }
      | .insertDefault org =>
        match s.table.insert (.orgDefault id org) with
        | none => s
        | some t =>
          { s with table := t, calls := s.calls.erase call, asked := ⟨org, none⟩ :: s.asked }
    else s

/-! ## What the statements do to the defaults -/

namespace Table

variable {t t' : Table} {p : Profile} {org : UUID} {scope : Scope}

theorem mem_defaults {id : UUID} :
    id ∈ t.defaults scope ↔ ∃ p ∈ t.rows, (p.scope = scope ∧ p.isDefault) ∧ p.id = id := by
  unfold defaults
  rw [List.mem_map]
  simp only [List.mem_filter, Bool.and_eq_true, decide_eq_true_eq, and_assoc]

theorem nodup_defaults (t : Table) (scope : Scope) : (t.defaults scope).Nodup :=
  t.key.sublist (List.filter_sublist.map _)

theorem row_eq_some {id : UUID} (h : t.row org id = some p) :
    p ∈ t.rows ∧ p.organizationID = org ∧ p.id = id := by
  have hmem := List.mem_of_find?_eq_some h
  have hcond := List.find?_some h
  simp only [Bool.and_eq_true, decide_eq_true_eq] at hcond
  exact ⟨hmem, hcond⟩

theorem mem_defaults_insert (h : t.insert p = some t') {id : UUID} :
    id ∈ t'.defaults scope ↔
      ((p.scope = scope ∧ p.isDefault) ∧ p.id = id) ∨ id ∈ t.defaults scope := by
  unfold insert at h
  split at h
  · cases h
  · cases h
    rw [mem_defaults, mem_defaults]
    simp only [List.mem_cons, exists_eq_or_imp]

theorem mem_defaults_clearOtherDefaults {scope' : Scope} {keep id : UUID} :
    id ∈ (t.clearOtherDefaults scope keep).defaults scope' ↔
      id ∈ t.defaults scope' ∧ (scope' = scope → id = keep) := by
  rw [mem_defaults, mem_defaults]
  constructor
  · intro h
    obtain ⟨p, hp, ⟨hscope, hdefault⟩, hid⟩ := h
    obtain ⟨old, hold, ⟨_, rfl⟩ | ⟨hkept, rfl⟩⟩ := mem_updateWhere.1 hp
    · exact absurd hdefault (by simp [Profile.cleared])
    · refine ⟨⟨p, hold, ⟨hscope, hdefault⟩, hid⟩, fun hsame => ?_⟩
      by_contra hne
      simp [hscope, hsame, hdefault, hid, hne] at hkept
  · intro h
    obtain ⟨⟨p, hp, ⟨hscope, hdefault⟩, hid⟩, hkeep⟩ := h
    refine ⟨p, mem_updateWhere_of_not hp ?_, ⟨hscope, hdefault⟩, hid⟩
    by_cases hsame : scope' = scope
    · simp [hid, hkeep hsame]
    · simp [hscope, hsame]

theorem mem_defaults_update {old : Profile} (h : t.row org p.id = some old) {id : UUID} :
    id ∈ (t.update org p).defaults scope ↔
      if id = p.id then old.scope = scope ∧ p.isDefault = true else id ∈ t.defaults scope := by
  obtain ⟨hrow, horg, hid⟩ := row_eq_some h
  have honly : ∀ q ∈ t.rows, q.id = p.id → q = old := fun q hq hqid =>
    eq_of_key_eq t.key hq hrow (hqid.trans hid.symm)
  rw [mem_defaults]
  constructor
  · intro hafter
    obtain ⟨q, hq, ⟨hscope, hdefault⟩, rfl⟩ := hafter
    obtain ⟨q₀, hq₀, ⟨hthis, rfl⟩ | ⟨hother, rfl⟩⟩ := mem_updateWhere.1 hq
    · simp only [Bool.and_eq_true, decide_eq_true_eq] at hthis
      have hsame := honly q₀ hq₀ hthis.2
      subst hsame
      have hedited : (p.edited q₀).id = p.id := hthis.2
      rw [if_pos hedited]
      exact ⟨hscope, hdefault⟩
    · have hne : q.id ≠ p.id := by
        intro heq
        have hsame := honly q hq₀ heq
        subst hsame
        simp [horg, hid] at hother
      rw [if_neg hne]
      exact mem_defaults.2 ⟨q, hq₀, ⟨hscope, hdefault⟩, rfl⟩
  · intro hbefore
    by_cases hthis : id = p.id
    · rw [if_pos hthis] at hbefore
      have hmem := mem_updateWhere_of (f := p.edited)
        (p := fun q : Profile => q.organizationID = org && q.id = p.id) hrow (by simp [horg, hid])
      exact ⟨_, hmem, hbefore, hid.trans hthis.symm⟩
    · rw [if_neg hthis] at hbefore
      obtain ⟨q, hq, hdefault, rfl⟩ := mem_defaults.1 hbefore
      exact ⟨q, mem_updateWhere_of_not hq (by simp [hthis]), hdefault, rfl⟩

theorem mem_defaults_delete {id id' : UUID} :
    id' ∈ (t.delete org id).defaults scope ↔
      id' ∈ t.defaults scope ∧ ¬ (scope.organizationID = org ∧ id' = id) := by
  rw [mem_defaults, mem_defaults]
  unfold delete
  constructor
  · intro h
    obtain ⟨p, hp, ⟨rfl, hdefault⟩, rfl⟩ := h
    have hkept := List.mem_filter.1 hp
    exact ⟨⟨p, hkept.1, ⟨rfl, hdefault⟩, rfl⟩, of_decide_eq_true hkept.2⟩
  · intro h
    obtain ⟨⟨p, hp, ⟨rfl, hdefault⟩, rfl⟩, hother⟩ := h
    exact ⟨p, List.mem_filter.2 ⟨hp, decide_eq_true hother⟩, ⟨rfl, hdefault⟩, rfl⟩

/-- Ids are unique, so that a scope with no two different defaults has at most one. -/
theorem length_defaults_le_one (h : ∀ id ∈ t.defaults scope, ∀ id' ∈ t.defaults scope, id = id') :
    (t.defaults scope).length ≤ 1 := by
  have hnodup := t.nodup_defaults scope
  cases hids : t.defaults scope with
  | nil => simp
  | cons a rest =>
    cases rest with
    | nil => simp
    | cons b rest =>
      rw [hids] at hnodup h
      have hsame : a = b := h a List.mem_cons_self b (List.mem_cons_of_mem _ List.mem_cons_self)
      exact absurd hsame fun heq => (List.nodup_cons.1 hnodup).1 (heq ▸ List.mem_cons_self)

end Table

/-! ## One default in each scope -/

/-- With no call in progress every scope has at most one default; and one, when a default was
asked for in it while no update asked for none and no profile was deleted. -/
def State.Settled (s : State) : Prop :=
  s.calls = [] → ∀ scope, (s.table.defaults scope).length ≤ 1 ∧
    (scope ∈ s.asked → scope ∉ s.released → (s.table.defaults scope).length = 1)

/-- The others are cleared only while the call's own profile is still a default, if there is one
at all that has to stay; and the first boot's profile is inserted only while the
organization has no default, or a call is about to clear the others. -/
def KeepsDefault (s : State) : Action → Prop
  | .proceed (.clearOtherDefaults scope keep) _ =>
    .clearOtherDefaults scope keep ∈ s.calls → scope ∉ s.released →
      s.table.defaults scope ≠ [] → keep ∈ s.table.defaults scope
  | .proceed (.insertDefault org) _ =>
    .insertDefault org ∈ s.calls → s.table.defaults ⟨org, none⟩ = [] ∨
      ∃ keep, .clearOtherDefaults ⟨org, none⟩ keep ∈ s.calls
  | _ => True

/-- Two defaults of a scope are there only while a call is about to clear the others. -/
structure State.Sound (s : State) : Prop where
  single : ∀ scope, (∃ keep, .clearOtherDefaults scope keep ∈ s.calls) ∨
    ∀ id ∈ s.table.defaults scope, ∀ id' ∈ s.table.defaults scope, id = id'
  kept : ∀ scope ∈ s.asked, scope ∉ s.released → ∃ id, id ∈ s.table.defaults scope

namespace State.Sound

variable {s : State}

theorem of_subset (h : s.Sound) {t : Table} {calls : List Call} {released : List Scope}
    (hcalls : ∀ scope keep, .clearOtherDefaults scope keep ∈ s.calls →
      .clearOtherDefaults scope keep ∈ calls) (hreleased : s.released ⊆ released)
    (hsubset : ∀ scope, ∀ id ∈ t.defaults scope, id ∈ s.table.defaults scope)
    (hstays : ∀ scope, scope ∉ released → ∀ id ∈ s.table.defaults scope, id ∈ t.defaults scope) :
    State.Sound { s with table := t, calls := calls, released := released } := by
  constructor
  · intro scope
    rcases h.single scope with hpending | hone
    · obtain ⟨keep, hkeep⟩ := hpending
      exact Or.inl ⟨keep, hcalls scope keep hkeep⟩
    · right
      intro id hid id' hid'
      exact hone id (hsubset scope id hid) id' (hsubset scope id' hid')
  · intro scope hasked hnot
    have hnot' : scope ∉ s.released := fun hmem => hnot (hreleased hmem)
    obtain ⟨id, hid⟩ := h.kept scope hasked hnot'
    exact ⟨id, hstays scope hnot id hid⟩

theorem becomesDefault (h : s.Sound) {t : Table} {p : Profile} (hthis : p.id ∈ t.defaults p.scope)
    (hother : ∀ scope, scope ≠ p.scope →
      ∀ id, id ∈ t.defaults scope ↔ id ∈ s.table.defaults scope) :
    (s.becomesDefault t p).Sound := by
  constructor
  · intro scope
    by_cases hscope : scope = p.scope
    · subst hscope
      exact Or.inl ⟨p.id, List.mem_cons_self⟩
    rcases h.single scope with hpending | hone
    · obtain ⟨keep, hkeep⟩ := hpending
      exact Or.inl ⟨keep, List.mem_cons_of_mem _ hkeep⟩
    · right
      intro id hid id' hid'
      exact hone id ((hother scope hscope id).1 hid) id' ((hother scope hscope id').1 hid')
  · intro scope hasked hnot
    by_cases hscope : scope = p.scope
    · subst hscope
      exact ⟨p.id, hthis⟩
    have hbefore : scope ∈ s.asked := by
      rcases List.mem_cons.1 hasked with heq | hold
      · exact absurd heq hscope
      · exact hold
    obtain ⟨id, hid⟩ := h.kept scope hbefore hnot
    exact ⟨id, (hother scope hscope id).2 hid⟩

theorem create (h : s.Sound) (p : Profile) : (step s (.create p)).Sound := by
  simp only [step]
  cases hinsert : s.table.insert p.inserted with
  | none => exact h
  | some t =>
    have hmem : ∀ scope id, id ∈ t.defaults scope ↔
        ((p.scope = scope ∧ p.isDefault) ∧ p.id = id) ∨ id ∈ s.table.defaults scope :=
      fun scope id => Table.mem_defaults_insert hinsert
    by_cases hdefault : p.isDefault = true
    · simp only [hdefault, if_true]
      refine h.becomesDefault ((hmem _ _).2 (Or.inl ⟨⟨rfl, hdefault⟩, rfl⟩)) ?_
      intro scope hscope id
      rw [hmem]
      constructor
      · intro hid
        rcases hid with hnew | hold
        · exact absurd hnew.1.1.symm hscope
        · exact hold
      · exact Or.inr
    · have hsame : ∀ scope id, id ∈ t.defaults scope ↔ id ∈ s.table.defaults scope := by
        intro scope id
        rw [hmem]
        simp [hdefault]
      simp only [hdefault, Bool.false_eq_true, if_false]
      exact h.of_subset (fun _ _ hcall => hcall) (fun _ hmem => hmem)
        (fun scope id => (hsame scope id).1) (fun scope _ id => (hsame scope id).2)

theorem update (h : s.Sound) (org : UUID) (p : Profile) : (step s (.update org p)).Sound := by
  simp only [step]
  cases hrow : s.table.row org p.id with
  | none => exact h
  | some old =>
    have hmem : ∀ scope id, id ∈ (s.table.update org p).defaults scope ↔
        if id = p.id then old.scope = scope ∧ p.isDefault = true
        else id ∈ s.table.defaults scope :=
      fun scope id => Table.mem_defaults_update hrow
    obtain ⟨hold, -, hid⟩ := Table.row_eq_some hrow
    -- The row was a default of no scope but its own.
    have honly : ∀ scope, scope ≠ old.scope → p.id ∉ s.table.defaults scope := by
      intro scope hscope hdefault
      obtain ⟨q, hq, ⟨rfl, _⟩, hqid⟩ := Table.mem_defaults.1 hdefault
      have hsame : q = old := eq_of_key_eq s.table.key hq hold (hqid.trans hid.symm)
      exact hscope (congrArg Profile.scope hsame)
    by_cases hdefault : p.isDefault = true
    · simp only [hdefault, if_true]
      refine h.becomesDefault ?_ ?_
      · rw [hmem, if_pos hid]
        exact ⟨rfl, hdefault⟩
      · intro scope hscope id
        rw [hmem]
        by_cases hthis : id = p.id
        · subst hthis
          rw [if_pos rfl]
          constructor
          · intro hnew
            exact absurd hnew.1.symm hscope
          · exact fun hbefore => absurd hbefore (honly scope hscope)
        · rw [if_neg hthis]
    · simp only [hdefault, Bool.false_eq_true, if_false]
      refine h.of_subset (fun _ _ hcall => hcall) (List.subset_cons_self _ _) ?_ ?_
      · intro scope id hafter
        rw [hmem] at hafter
        split at hafter
        · exact absurd hafter.2 hdefault
        · exact hafter
      · intro scope hnot id hbefore
        have hscope : scope ≠ old.scope := fun heq => hnot (heq ▸ List.mem_cons_self)
        rw [hmem]
        by_cases hthis : id = p.id
        · subst hthis
          exact absurd hbefore (honly scope hscope)
        · rw [if_neg hthis]
          exact hbefore

theorem delete (h : s.Sound) (org id : UUID) : (step s (.delete org id)).Sound := by
  simp only [step]
  cases hrow : s.table.row org id with
  | none => exact h
  | some old =>
    obtain ⟨hold, -, hid⟩ := Table.row_eq_some hrow
    refine h.of_subset (fun _ _ hcall => hcall) (List.subset_cons_self _ _) ?_ ?_
    · intro scope id' hafter
      exact (Table.mem_defaults_delete.1 hafter).1
    · intro scope hnot id' hbefore
      refine Table.mem_defaults_delete.2 ⟨hbefore, fun hthis => ?_⟩
      obtain ⟨q, hq, ⟨rfl, _⟩, hqid⟩ := Table.mem_defaults.1 hbefore
      have hsame : q = old :=
        eq_of_key_eq s.table.key hq hold ((hqid.trans hthis.2).trans hid.symm)
      exact hnot (hsame ▸ List.mem_cons_self)

theorem clearOtherDefaults (h : s.Sound) {scope : Scope} {keep id : UUID}
    (hkeeps : KeepsDefault s (.proceed (.clearOtherDefaults scope keep) id)) :
    (step s (.proceed (.clearOtherDefaults scope keep) id)).Sound := by
  simp only [step]
  by_cases hcall : Call.clearOtherDefaults scope keep ∈ s.calls
  · rw [if_pos hcall]
    constructor
    · intro scope'
      by_cases hscope : scope' = scope
      · right
        intro a ha b hb
        have hakeep := (Table.mem_defaults_clearOtherDefaults.1 ha).2 hscope
        have hbkeep := (Table.mem_defaults_clearOtherDefaults.1 hb).2 hscope
        rw [hakeep, hbkeep]
      rcases h.single scope' with hpending | hone
      · obtain ⟨keep', hkeep'⟩ := hpending
        have hne : Call.clearOtherDefaults scope' keep' ≠ .clearOtherDefaults scope keep := by
          intro heq
          cases heq
          exact hscope rfl
        exact Or.inl ⟨keep', (List.mem_erase_of_ne hne).2 hkeep'⟩
      · right
        intro a ha b hb
        exact hone a (Table.mem_defaults_clearOtherDefaults.1 ha).1 b
          (Table.mem_defaults_clearOtherDefaults.1 hb).1
    · intro scope' hasked hnot
      obtain ⟨a, ha⟩ := h.kept scope' hasked hnot
      by_cases hscope : scope' = scope
      · subst hscope
        have hstill := hkeeps hcall hnot (List.ne_nil_of_mem ha)
        exact ⟨keep, Table.mem_defaults_clearOtherDefaults.2 ⟨hstill, fun _ => rfl⟩⟩
      · exact ⟨a, Table.mem_defaults_clearOtherDefaults.2 ⟨ha, fun heq => absurd heq hscope⟩⟩
  · rw [if_neg hcall]
    exact h

theorem insertDefault (h : s.Sound) {org id : UUID}
    (hkeeps : KeepsDefault s (.proceed (.insertDefault org) id)) :
    (step s (.proceed (.insertDefault org) id)).Sound := by
  simp only [step]
  by_cases hcall : Call.insertDefault org ∈ s.calls
  · rw [if_pos hcall]
    cases hinsert : s.table.insert (.orgDefault id org) with
    | none => exact h
    | some t =>
      have hmem : ∀ scope a, a ∈ t.defaults scope ↔
          (((⟨org, none⟩ : Scope) = scope ∧ true) ∧ id = a) ∨ a ∈ s.table.defaults scope :=
        fun scope a => Table.mem_defaults_insert hinsert
      have hstays : ∀ scope keep, Call.clearOtherDefaults scope keep ∈ s.calls →
          .clearOtherDefaults scope keep ∈ s.calls.erase (.insertDefault org) := by
        intro scope keep hkeep
        exact (List.mem_erase_of_ne (by simp)).2 hkeep
      constructor
      · intro scope
        by_cases hscope : scope = ⟨org, none⟩
        · subst hscope
          rcases hkeeps hcall with hnone | hpending
          · right
            intro a ha b hb
            rw [hmem, hnone] at ha hb
            have haid : id = a := by simpa using ha
            have hbid : id = b := by simpa using hb
            rw [← haid, ← hbid]
          · obtain ⟨keep, hkeep⟩ := hpending
            exact Or.inl ⟨keep, hstays _ keep hkeep⟩
        · have hsame : ∀ a, a ∈ t.defaults scope → a ∈ s.table.defaults scope := by
            intro a ha
            rcases (hmem scope a).1 ha with hnew | hold
            · exact absurd hnew.1.1.symm hscope
            · exact hold
          rcases h.single scope with hpending | hone
          · obtain ⟨keep, hkeep⟩ := hpending
            exact Or.inl ⟨keep, hstays _ keep hkeep⟩
          · exact Or.inr fun a ha b hb => hone a (hsame a ha) b (hsame b hb)
      · intro scope hasked hnot
        rcases List.mem_cons.1 hasked with heq | hbefore
        · subst heq
          exact ⟨id, (hmem _ _).2 (Or.inl ⟨⟨rfl, rfl⟩, rfl⟩)⟩
        · obtain ⟨a, ha⟩ := h.kept scope hbefore hnot
          exact ⟨a, (hmem _ _).2 (Or.inr ha)⟩
  · rw [if_neg hcall]
    exact h

/-- **One step.** -/
theorem step (s : State) (a : Action) (h : s.Sound) (hkeeps : KeepsDefault s a) :
    (step s a).Sound := by
  cases a with
  | create p => exact h.create p
  | update org p => exact h.update org p
  | delete org id => exact h.delete org id
  | ensureOrgDefault org =>
    simp only [Notifyprofiles.step]
    split
    · exact h
    · exact h.of_subset (fun _ _ hcall => List.mem_cons_of_mem _ hcall) (fun _ hmem => hmem)
        (fun _ _ hid => hid) (fun _ _ _ hid => hid)
  | proceed call id =>
    cases call with
    | clearOtherDefaults scope keep => exact h.clearOtherDefaults hkeeps
    | insertDefault org => exact h.insertDefault hkeeps

theorem settled (h : s.Sound) : s.Settled := by
  intro hcalls scope
  have hone : (s.table.defaults scope).length ≤ 1 := by
    apply Table.length_defaults_le_one
    rcases h.single scope with hpending | hone
    · obtain ⟨keep, hkeep⟩ := hpending
      rw [hcalls] at hkeep
      cases hkeep
    · exact hone
  refine ⟨hone, fun hasked hnot => ?_⟩
  obtain ⟨id, hid⟩ := h.kept scope hasked hnot
  have hpos := List.length_pos_of_mem hid
  omega

end State.Sound

/-- **One default in each scope.**  From a table with at most one default in every scope, and
no call in progress. -/
theorem settled_of_keepsDefault {t : Table} (hone : ∀ scope, (t.defaults scope).length ≤ 1)
    {as : List Action} (h : StepsMeet step KeepsDefault { table := t } as) :
    (run step { table := t } as).Settled := by
  refine (h.invariant State.Sound.step ?_).settled
  constructor
  · intro scope
    right
    intro id hid id' hid'
    have hle := hone scope
    match hids : t.defaults scope with
    | [] =>
      rw [hids] at hid
      cases hid
    | [a] =>
      rw [hids] at hid hid'
      rw [List.mem_singleton.1 hid, List.mem_singleton.1 hid']
    | a :: b :: rest =>
      rw [hids] at hle
      simp at hle
  · intro scope hasked
    cases hasked

private def orgWide (id : UUID) : Profile :=
  { id := id, organizationID := 1, groupID := none, name := "On call", isDefault := true }

private def oneDefault : Table := ⟨[orgWide 10], List.nodup_singleton _⟩

private def noProfiles : Table := ⟨[], List.nodup_nil⟩

/-- A new default takes the place of the old one. -/
theorem settled_created :
    (run step { table := oneDefault }
      [.create (orgWide 11), .proceed (.clearOtherDefaults ⟨1, none⟩ 11) 0]).Settled := by
  refine settled_of_keepsDefault (fun scope => ?_) ⟨trivial, fun _ _ _ => by decide, trivial⟩
  calc (oneDefault.defaults scope).length
      = (oneDefault.rows.filter fun p => p.scope = scope && p.isDefault).length :=
        List.length_map _
    _ ≤ oneDefault.rows.length := List.length_filter_le _ _
    _ = 1 := rfl

/-- Two calls clear what the other has set, and nothing is left; a default created during the
first boot is joined by the boot's own. -/
theorem defaults_lost_and_doubled :
    ¬ (run step { table := oneDefault }
      [.create (orgWide 11), .update 1 (orgWide 10),
        .proceed (.clearOtherDefaults ⟨1, none⟩ 11) 0,
        .proceed (.clearOtherDefaults ⟨1, none⟩ 10) 0]).Settled ∧
    ¬ (run step { table := noProfiles }
      [.ensureOrgDefault 1, .create (orgWide 10),
        .proceed (.clearOtherDefaults ⟨1, none⟩ 10) 0,
        .proceed (.insertDefault 1) 11]).Settled := by
  constructor
  · intro h
    exact absurd ((h (by decide) ⟨1, none⟩).2 (by decide) (by decide)) (by decide)
  · intro h
    exact absurd (h (by decide) ⟨1, none⟩).1 (by decide)

end Sluicio.Notifyprofiles
