import Sluicio.Lib.Fallible
import Sluicio.Lib.Rows

/-!
# The service catalog

What the policy resolver and the maintenance handlers read of an
organization's catalog: its services, its systems and its integrations, and the
expanders that turn a system or an integration into concrete service names.
Every read is one query, and any query may fail.
-/

namespace Sluicio

open Lib

abbrev UUID := Nat

/-- One row of the `services` table. -/
structure Service where
  serviceName : String
  isSystem : Bool
  systemKind : String
  systemID : Option UUID

/-- An integration or a system as the policy matcher sees it (`namedEntity`). -/
structure NamedEntity where
  id : UUID
  name : String

inductive CatalogQuery where
  | allServices
  | systemMemberNames (systemID : UUID)
  | listSystems
  | listIntegrations
  | servicesForIntegration (integrationID : UUID)
  | integrationServices (integrationID : UUID)

/-- An organization's catalog.  `matched` is what the integration resolver
returns for an integration over the catalog's services, `attached` the member
services the catalog has recorded for it. -/
structure Catalog where
  services : List Service
  serviceKey : (services.map Service.serviceName).Nodup
  systems : List NamedEntity
  integrations : List NamedEntity
  matched : UUID → List String
  attached : UUID → List String
  faults : CatalogQuery → Option String := fun _ => none

namespace Catalog

def allServices (c : Catalog) : Except String (List Service) :=
  readRows c.faults .allServices c.services

/-- `SystemMemberNames`: the services attached to one system. -/
def systemMemberNames (c : Catalog) (systemID : UUID) : Except String (List String) :=
  wrapErr "system member names: " (readRows c.faults (.systemMemberNames systemID)
    ((c.services.filter fun s => s.systemID = some systemID).map Service.serviceName))

def listSystems (c : Catalog) : Except String (List NamedEntity) :=
  readRows c.faults .listSystems c.systems

def listIntegrations (c : Catalog) : Except String (List NamedEntity) :=
  readRows c.faults .listIntegrations c.integrations

/-- `integrationExpander`: the services an integration's matchers resolve to. -/
def integrationExpander (c : Catalog) (integrationID : UUID) : Except String (List String) := do
  let _ ← c.allServices
  readRows c.faults (.servicesForIntegration integrationID) (c.matched integrationID)

def integrationServices (c : Catalog) (integrationID : UUID) : Except String (List String) :=
  wrapErr "integration services: "
    (readRows c.faults (.integrationServices integrationID) (c.attached integrationID))

/-- `serviceUniverse`: the names expressions are evaluated over. -/
def serviceUniverse (c : Catalog) : Except String (List String) := do
  let catalogRows ← c.allServices
  return catalogRows.map Service.serviceName

/-- `systemExpander`: one system entity wins when an id is given, and the kind
is then not looked at; else every flagged system of the kind (`""` = any). -/
def systemExpander (c : Catalog) (systemKind : String) (systemID : Option UUID) :
    Except String (List String) :=
  match systemID with
  | some id => c.systemMemberNames id
  | none => do
      let catalogRows ← c.allServices
      return (catalogRows.filter fun r =>
        r.isSystem && (systemKind == "" || r.systemKind == systemKind)).map Service.serviceName

variable {names : List String} {c : Catalog}

theorem systemMemberNames_eq_ok {id : UUID} (h : c.systemMemberNames id = .ok names) (n : String) :
    n ∈ names ↔ ∃ s ∈ c.services, s.systemID = some id ∧ s.serviceName = n := by
  simp only [systemMemberNames, wrapErr_eq_ok, readRows_eq_ok] at h
  obtain ⟨_, rfl⟩ := h
  simp [and_assoc]

theorem systemExpander_none_eq_ok {kind : String} (h : c.systemExpander kind none = .ok names)
    (n : String) :
    n ∈ names ↔ ∃ s ∈ c.services, s.isSystem ∧
      (kind = "" ∨ s.systemKind = kind) ∧ s.serviceName = n := by
  simp only [systemExpander, allServices, bind_eq_ok, readRows_eq_ok, pure_eq_ok] at h
  obtain ⟨_, ⟨_, rfl⟩, rfl⟩ := h
  simp [and_assoc]

@[simp] theorem systemExpander_some (c : Catalog) (kind : String) (id : UUID) :
    c.systemExpander kind (some id) = c.systemMemberNames id := rfl

end Catalog

end Sluicio
