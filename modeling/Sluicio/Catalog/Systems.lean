import Sluicio.Catalog
import Sluicio.Lib.Ordered
import Sluicio.Lib.Run

/-!
# Systems and their members

A service that is a member of a system carries the type of the system a second time, as its
own `system_kind`, beside the flag `is_system`.  The store keeps the copies in step, but most
of its operations are several statements without a transaction: marking a service looks a
system up and then writes the service, attaching one reads the system's type and then writes
the service, and changing a system writes the system and then its members.
-/

namespace Sluicio.Catalog.Systems

open Lib

/-- A row of `systems`, of one organization. -/
structure System where
  id : UUID
  name : String
  typeKey : String
  createdAt : Nat

/-- The tables `services` and `systems` of one organization: service names, system ids and
system names are unique, and a service's `system_id` is the id of a system. -/
structure Db where
  services : List Service
  systems : List System
  serviceKey : (services.map Service.serviceName).Nodup
  systemKey : (systems.map System.id).Nodup
  nameKey : (systems.map System.name).Nodup
  references : ∀ svc ∈ services, ∀ id, svc.systemID = some id → id ∈ systems.map System.id

/-- `is_system = false, system_kind = '', system_id = NULL`. -/
def cleared (svc : Service) : Service :=
  { svc with isSystem := false, systemKind := "", systemID := none }

/-- `is_system = true, system_kind = $3, system_id = $4`. -/
def flagged (kind : String) (id : UUID) (svc : Service) : Service :=
  { svc with isSystem := true, systemKind := kind, systemID := some id }

namespace Db

/-- The row of a newly discovered service, as `UpsertServices` inserts it. -/
def discover (db : Db) (name : String) : Db :=
  if hnew : name ∈ db.services.map Service.serviceName then db
  else
    { db with
      services := ⟨name, false, "", none⟩ :: db.services
      serviceKey := List.nodup_cons.2 ⟨hnew, db.serviceKey⟩
      references := by
        intro svc hsvc id hid
        rcases List.mem_cons.1 hsvc with rfl | hold
        · cases hid
        · exact db.references svc hold id hid }

/-- An `UPDATE` of services that clears rows. -/
def clear (db : Db) (p : Service → Bool) : Db :=
  { db with
    services := updateWhere p cleared db.services
    serviceKey := nodup_updateWhere (fun _ => rfl) db.serviceKey
    references := by
      intro svc hsvc id hid
      obtain ⟨old, hold, ⟨_, rfl⟩ | ⟨_, rfl⟩⟩ := mem_updateWhere.1 hsvc
      · cases hid
      · exact db.references svc hold id hid }

/-- The `UPDATE` that makes a service a member; the system has to exist. -/
def flag (db : Db) (name kind : String) (id : UUID) : Db :=
  if hid : id ∈ db.systems.map System.id then
    { db with
      services := updateWhere (fun svc => svc.serviceName = name) (flagged kind id) db.services
      serviceKey := nodup_updateWhere (fun _ => rfl) db.serviceKey
      references := by
        intro svc hsvc id' hid'
        obtain ⟨old, hold, ⟨_, rfl⟩ | ⟨_, rfl⟩⟩ := mem_updateWhere.1 hsvc
        · cases hid'
          exact hid
        · exact db.references svc hold id' hid' }
  else db

/-- The second statement of `UpdateSystem`: the members get the new type. -/
def resync (db : Db) (id : UUID) (typeKey : String) : Db :=
  { db with
    services := updateWhere (fun svc => svc.systemID = some id)
      (fun svc => { svc with systemKind := typeKey }) db.services
    serviceKey := nodup_updateWhere (fun _ => rfl) db.serviceKey
    references := by
      intro svc hsvc id' hid'
      obtain ⟨old, hold, ⟨_, rfl⟩ | ⟨_, rfl⟩⟩ := mem_updateWhere.1 hsvc
      · exact db.references old hold id' hid'
      · exact db.references svc hold id' hid' }

/-- `INSERT INTO systems`; a name or an id that is there is refused. -/
def insert (db : Db) (sys : System) : Option Db :=
  if hnew : sys.id ∉ db.systems.map System.id ∧ sys.name ∉ db.systems.map System.name then
    some
      { db with
        systems := sys :: db.systems
        systemKey := List.nodup_cons.2 ⟨hnew.1, db.systemKey⟩
        nameKey := List.nodup_cons.2 ⟨hnew.2, db.nameKey⟩
        references := fun svc hsvc id hid =>
          List.mem_cons_of_mem _ (db.references svc hsvc id hid) }
  else none

def retypedRow (name typeKey : String) (sys : System) : System :=
  { sys with name := name, typeKey := typeKey }

/-- The first statement of `UpdateSystem`, when the system is there and the name is free. -/
def retype (db : Db) (id : UUID) (name typeKey : String) : Option Db :=
  if hfree : id ∈ db.systems.map System.id ∧
      ((updateWhere (fun sys => sys.id = id) (retypedRow name typeKey) db.systems).map
        System.name).Nodup then
    some
      { db with
        systems := updateWhere (fun sys => sys.id = id) (retypedRow name typeKey) db.systems
        systemKey := nodup_updateWhere (fun _ => rfl) db.systemKey
        nameKey := hfree.2
        references := by
          intro svc hsvc id' hid'
          have hsame := @map_updateWhere System UUID (fun sys => sys.id = id)
            (retypedRow name typeKey) System.id (fun _ => rfl) db.systems
          rw [hsame]
          exact db.references svc hsvc id' hid' }
  else none

/-- `DeleteSystem`: the members are detached and the row is deleted, in one transaction. -/
def delete (db : Db) (id : UUID) : Db where
  services := updateWhere (fun svc => svc.systemID = some id) cleared db.services
  systems := db.systems.filter fun sys => sys.id ≠ id
  serviceKey := nodup_updateWhere (fun _ => rfl) db.serviceKey
  systemKey := db.systemKey.sublist (List.filter_sublist.map _)
  nameKey := db.nameKey.sublist (List.filter_sublist.map _)
  references := by
    intro svc hsvc id' hid'
    obtain ⟨old, hold, ⟨_, rfl⟩ | ⟨hother, rfl⟩⟩ := mem_updateWhere.1 hsvc
    · cases hid'
    obtain ⟨sys, hsys, hsame⟩ := List.mem_map.1 (db.references svc hold id' hid')
    have hne : sys.id ≠ id := by
      intro heq
      rw [hid', ← hsame, heq] at hother
      simp at hother
    exact List.mem_map.2 ⟨sys, List.mem_filter.2 ⟨hsys, by simpa using hne⟩, hsame⟩

def systemOfType (db : Db) (typeKey : String) : Option System :=
  (orderBy System.createdAt (db.systems.filter fun sys => sys.typeKey = typeKey)).head?

end Db

/-- The name of the system that marking a service creates. -/
def defaultName (kind : String) : String := if kind = "" then "system" else kind

/-- A call that has statements left: `SetServiceSystem` before the insert of
`findOrCreateSystemByType`, `SetServiceSystem` or `AttachService` before the update of the
service, and `UpdateSystem` before the update of the members. -/
inductive Call where
  | insert (serviceName kind : String)
  | flag (serviceName kind : String) (systemID : UUID)
  | resync (systemID : UUID) (typeKey : String)

structure State where
  db : Db
  calls : List Call := []

inductive Action where
  | discover (serviceName : String)
  | unmark (serviceName : String)
  /-- `SetServiceSystem` with `isSystem` true, up to the lookup of a system -/
  | mark (serviceName kind : String)
  | attach (systemID : UUID) (serviceName : String)
  | detach (systemID : UUID) (serviceName : String)
  | create (sys : System)
  | update (systemID : UUID) (name typeKey : String)
  | delete (systemID : UUID)
  | proceed (call : Nat) (id : UUID) (now : Nat)
  | fail (call : Nat)

/-- The next statement of a call. -/
def proceed (s : State) (i : Nat) (id : UUID) (now : Nat) : State :=
  match s.calls[i]? with
  | none => s
  | some (.insert serviceName kind) =>
    match s.db.systems.find? fun sys => sys.name = defaultName kind with
    -- the conflict on the name: the row that has it is returned as it is
    | some sys => { s with calls := s.calls.set i (.flag serviceName kind sys.id) }
    | none =>
      match s.db.insert ⟨id, defaultName kind, kind, now⟩ with
      | some db => { db := db, calls := s.calls.set i (.flag serviceName kind id) }
      | none => { s with calls := s.calls.eraseIdx i }
  | some (.flag serviceName kind systemID) =>
    { db := s.db.flag serviceName kind systemID, calls := s.calls.eraseIdx i }
  | some (.resync systemID typeKey) =>
    { db := s.db.resync systemID typeKey, calls := s.calls.eraseIdx i }

def step (s : State) : Action → State
  | .discover name => { s with db := s.db.discover name }
  | .unmark name => { s with db := s.db.clear fun svc => svc.serviceName = name }
  | .mark name kind =>
    match s.db.systemOfType kind with
    | some sys => { s with calls := s.calls ++ [.flag name kind sys.id] }
    | none => { s with calls := s.calls ++ [.insert name kind] }
  | .attach id name =>
    match s.db.systems.find? fun sys => sys.id = id with
    | some sys => { s with calls := s.calls ++ [.flag name sys.typeKey id] }
    | none => s
  | .detach id name =>
    { s with db := s.db.clear fun svc => svc.serviceName = name && svc.systemID = some id }
  | .create sys =>
    match s.db.insert sys with
    | some db => { s with db := db }
    | none => s
  | .update id name typeKey =>
    match s.db.retype id name typeKey with
    | some db => { db := db, calls := s.calls ++ [.resync id typeKey] }
    | none => s
  | .delete id => { s with db := s.db.delete id }
  | .proceed i id now => proceed s i id now
  | .fail i => { s with calls := s.calls.eraseIdx i }

/-! ## Members in sync -/

/-- A service is flagged just when it is a member of a system, and its kind is the type of
that system. -/
def Db.InSync (db : Db) : Prop :=
  ∀ svc ∈ db.services, (svc.isSystem ↔ svc.systemID ≠ none) ∧
    ∀ sys ∈ db.systems, svc.systemID = some sys.id → svc.systemKind = sys.typeKey

def Call.WritesType (db : Db) : Call → Prop
  | .insert _ _ => True
  | .flag name kind id => ∀ sys ∈ db.systems, sys.id = id →
      (∃ svc ∈ db.services, svc.serviceName = name) → kind = sys.typeKey
  | .resync id typeKey => ∀ sys ∈ db.systems, sys.id = id →
      (∃ svc ∈ db.services, svc.systemID = some id) → typeKey = sys.typeKey

/-- The statement writes no kind that is not the type of the service's system, and a system
with members keeps its type. -/
def WritesType (s : State) : Action → Prop
  | .update id name typeKey => s.db.retype id name typeKey ≠ none →
      ∀ svc ∈ s.db.services, svc.systemID = some id → svc.systemKind = typeKey
  | .proceed i _ _ => ∀ call, s.calls[i]? = some call → call.WritesType s.db
  | _ => True

namespace Db

variable {db : Db} {id : UUID}

theorem InSync.discover (h : db.InSync) (name : String) : (db.discover name).InSync := by
  unfold Db.discover
  split
  · exact h
  intro svc hsvc
  rcases List.mem_cons.1 hsvc with rfl | hold
  · exact ⟨by simp, fun sys _ hid => nomatch hid⟩
  · exact h svc hold

theorem InSync.clear (h : db.InSync) (p : Service → Bool) : (db.clear p).InSync := by
  intro svc hsvc
  obtain ⟨old, hold, ⟨_, rfl⟩ | ⟨_, rfl⟩⟩ := mem_updateWhere.1 hsvc
  · exact ⟨by simp [cleared], fun sys _ hid => nomatch hid⟩
  · exact h svc hold

theorem InSync.delete (h : db.InSync) (id : UUID) : (db.delete id).InSync := by
  intro svc hsvc
  obtain ⟨old, hold, ⟨_, rfl⟩ | ⟨_, rfl⟩⟩ := mem_updateWhere.1 hsvc
  · exact ⟨by simp [cleared], fun sys _ hid => nomatch hid⟩
  · exact ⟨(h svc hold).1, fun sys hsys hid => (h svc hold).2 sys (List.mem_filter.1 hsys).1 hid⟩

variable {typeKey name : String} {db' : Db}

theorem InSync.insert (h : db.InSync) {sys : System} (hinsert : db.insert sys = some db') :
    db'.InSync := by
  unfold Db.insert at hinsert
  split at hinsert
  · next hnew =>
    cases hinsert
    intro svc hsvc
    refine ⟨(h svc hsvc).1, fun sys' hsys' hid => ?_⟩
    rcases List.mem_cons.1 hsys' with rfl | hold
    · exact absurd (db.references svc hsvc _ hid) hnew.1
    · exact (h svc hsvc).2 sys' hold hid
  · cases hinsert

theorem InSync.flag_iff (h : db.InSync) {kind : String} :
    (db.flag name kind id).InSync ↔ ∀ sys ∈ db.systems, sys.id = id →
      (∃ svc ∈ db.services, svc.serviceName = name) → kind = sys.typeKey := by
  unfold Db.flag
  split
  · next hthere =>
    constructor
    · rintro hafter sys hsys rfl ⟨svc, hsvc, hname⟩
      have hmem := mem_updateWhere_of (f := flagged kind sys.id)
        (p := fun svc : Service => svc.serviceName = name) hsvc (by simpa using hname)
      exact (hafter _ hmem).2 sys hsys rfl
    · intro hkind svc hsvc
      obtain ⟨old, hold, ⟨hname, rfl⟩ | ⟨_, rfl⟩⟩ := mem_updateWhere.1 hsvc
      · refine ⟨by simp [flagged], fun sys hsys hid => ?_⟩
        have hsame : sys.id = id := (Option.some.inj hid).symm
        exact hkind sys hsys hsame ⟨old, hold, by simpa using hname⟩
      · exact h svc hold
  · next hmissing =>
    constructor
    · intro _ sys hsys hid
      exact absurd (List.mem_map.2 ⟨sys, hsys, hid⟩) hmissing
    · exact fun _ => h

theorem InSync.resync_iff (h : db.InSync) :
    (db.resync id typeKey).InSync ↔ ∀ sys ∈ db.systems, sys.id = id →
      (∃ svc ∈ db.services, svc.systemID = some id) → typeKey = sys.typeKey := by
  constructor
  · rintro hafter sys hsys rfl ⟨svc, hsvc, hmember⟩
    have hmem := mem_updateWhere_of (f := fun svc : Service => { svc with systemKind := typeKey })
      (p := fun svc : Service => svc.systemID = some sys.id) hsvc (by simpa using hmember)
    exact (hafter _ hmem).2 sys hsys hmember
  · intro hkind svc hsvc
    obtain ⟨old, hold, ⟨hmember, rfl⟩ | ⟨_, rfl⟩⟩ := mem_updateWhere.1 hsvc
    · refine ⟨(h old hold).1, fun sys hsys hid => ?_⟩
      have hmember' : old.systemID = some id := by simpa using hmember
      have hsame : sys.id = id := by
        have hid' : old.systemID = some sys.id := hid
        rw [hmember'] at hid'
        exact (Option.some.inj hid').symm
      exact hkind sys hsys hsame ⟨old, hold, hmember'⟩
    · exact h svc hold

theorem InSync.retype_iff (h : db.InSync) (hretype : db.retype id name typeKey = some db') :
    db'.InSync ↔ ∀ svc ∈ db.services, svc.systemID = some id → svc.systemKind = typeKey := by
  unfold Db.retype at hretype
  split at hretype
  · next hfree =>
    cases hretype
    constructor
    · intro hafter svc hsvc hmember
      obtain ⟨sys, hsys, rfl⟩ := List.mem_map.1 hfree.1
      have hmem := mem_updateWhere_of (f := retypedRow name typeKey)
        (p := fun x : System => x.id = sys.id) hsys (by simp)
      exact (hafter svc hsvc).2 _ hmem hmember
    · intro hkind svc hsvc
      refine ⟨(h svc hsvc).1, fun sys hsys hid => ?_⟩
      obtain ⟨old, hold, ⟨hthis, rfl⟩ | ⟨_, rfl⟩⟩ := mem_updateWhere.1 hsys
      · have hsame : old.id = id := by simpa using hthis
        have hmember : svc.systemID = some old.id := hid
        exact hkind svc hsvc (hsame ▸ hmember)
      · exact (h svc hsvc).2 sys hold hid
  · cases hretype

end Db

theorem proceed_inSync_iff {s : State} (h : s.db.InSync) (i : Nat) (id : UUID) (now : Nat) :
    (proceed s i id now).db.InSync ↔ WritesType s (.proceed i id now) := by
  have honly : ∀ call, s.calls[i]? = some call →
      (WritesType s (.proceed i id now) ↔ call.WritesType s.db) := by
    intro call hcall
    constructor
    · exact fun hall => hall call hcall
    · intro hthis call' hcall'
      rw [hcall] at hcall'
      cases hcall'
      exact hthis
  unfold proceed
  split
  · next hnone =>
    refine ⟨fun _ call hcall => ?_, fun _ => h⟩
    rw [hnone] at hcall
    cases hcall
  · next name kind hcall =>
    rw [honly _ hcall]
    refine ⟨fun _ => trivial, fun _ => ?_⟩
    split
    · exact h
    · split
      · next db hinsert => exact h.insert hinsert
      · exact h
  · next name kind systemID hcall =>
    rw [honly _ hcall]
    exact h.flag_iff
  · next systemID typeKey hcall =>
    rw [honly _ hcall]
    exact h.resync_iff

theorem step_inSync_iff (s : State) (a : Action) (h : s.db.InSync) :
    (step s a).db.InSync ↔ WritesType s a := by
  have kept : ∀ {db : Db}, db.InSync → (db.InSync ↔ True) := fun hdb => iff_true_intro hdb
  cases a with
  | discover name => exact kept (h.discover name)
  | unmark name => exact kept (h.clear _)
  | mark name kind =>
    simp only [step]
    split <;> exact kept h
  | attach id name =>
    simp only [step]
    split <;> exact kept h
  | detach id name => exact kept (h.clear _)
  | create sys =>
    simp only [step]
    split
    · next db hinsert => exact kept (h.insert hinsert)
    · exact kept h
  | update id name typeKey =>
    simp only [step, WritesType]
    cases hretype : s.db.retype id name typeKey with
    | none => exact ⟨fun _ hne => absurd rfl hne, fun _ => h⟩
    | some db =>
      have hiff := h.retype_iff hretype
      exact ⟨fun hafter _ => hiff.1 hafter, fun hkind => hiff.2 (hkind (by simp))⟩
  | delete id => exact kept (h.delete id)
  | proceed i id now => exact proceed_inSync_iff h i id now
  | fail i => exact kept h

/-- **When the members stay in sync.**  From a catalog in sync and in any interleaving of the
statements of the six operations: every service row is in sync in every state, if and only if
every statement that writes a kind or a type writes what the system has, and its members with
it. -/
theorem systems_inSync_iff (db : Db) (h : db.InSync) (as : List Action) :
    (∀ pre, pre <+: as → (run step { db := db } pre).db.InSync) ↔
      StepsMeet step WritesType { db := db } as :=
  @stepsMeet_iff_invariant State Action step WritesType (fun s => s.db.InSync) { db := db } as
    step_inSync_iff h

/-! One discovered service, in a catalog without systems or with one of another type. -/

private def orderService : Service := ⟨"orders", false, "", none⟩

private theorem orderService_references (systems : List System) :
    ∀ svc ∈ [orderService], ∀ id, svc.systemID = some id → id ∈ systems.map System.id := by
  intro svc hsvc id hid
  rw [List.mem_singleton.1 hsvc] at hid
  cases hid

private def discovered (systems : List System) (ids : (systems.map System.id).Nodup)
    (names : (systems.map System.name).Nodup) : Db where
  services := [orderService]
  systems := systems
  serviceKey := List.nodup_singleton _
  systemKey := ids
  nameKey := names
  references := orderService_references systems

private theorem discovered_inSync {systems : List System} (ids : (systems.map System.id).Nodup)
    (names : (systems.map System.name).Nodup) : (discovered systems ids names).InSync := by
  intro svc hsvc
  rw [List.mem_singleton.1 hsvc]
  exact ⟨by decide, fun sys _ hid => nomatch hid⟩

instance (db : Db) : Decidable db.InSync := by
  unfold Db.InSync
  infer_instance

/-- Marking a service as a kind that has no system yet creates the system. -/
theorem systems_inSync_marked :
    (run step { db := discovered [] (by decide) (by decide) }
      [.mark "orders" "rabbitmq", .proceed 0 1 5, .proceed 0 0 0]).db.InSync := by
  refine (systems_inSync_iff (discovered [] (by decide) (by decide))
    (discovered_inSync (by decide) (by decide)) _).2 ?_ _ (List.prefix_refl _)
  refine ⟨trivial, fun call hcall => ?_, fun call hcall => ?_, trivial⟩
  · cases hcall
    trivial
  · cases hcall
    intro sys hsys _ _
    rw [List.mem_singleton.1 hsys]

/-- Marking a service as a kind whose name a system of another type has makes it a member of
that system; and a service is attached with the type its system had before. -/
theorem systems_out_of_sync :
    ¬ (run step { db := discovered [⟨1, "rabbitmq", "broker", 0⟩] (by decide) (by decide) }
      [.mark "orders" "rabbitmq", .proceed 0 9 1, .proceed 0 9 1]).db.InSync ∧
    ¬ (run step { db := discovered [⟨1, "rabbitmq", "broker", 0⟩] (by decide) (by decide) }
      [.attach 1 "orders", .update 1 "rabbitmq" "queue", .proceed 1 0 0,
        .proceed 0 0 0]).db.InSync := by
  constructor <;> decide +kernel

end Sluicio.Catalog.Systems
