import Sluicio.Api.ScopeCap
import Sluicio.Catalog.Systems
import Sluicio.Integrations.Resolver

/-!
# The routes that write integrations, systems and services

`Mount` puts each handler behind a chain of wrappers, which read the service or the resource
they ask about from the parameters of the path.  The handlers write the rows of the resource
that they take from the request.  The routes of the alert rules, which ask about the rule's
target in the handler, are modelled on their own.
-/

namespace Sluicio.Api

open Lib Identity Integrations

section Checks

variable (h : Handlers) (p : Principal)

def Handlers.canManageIntegration (id : UUID) : Bool :=
  match h.managedServiceFilter p with
  | none => true
  | some managed =>
    match h.identity.catalog.integrationExpander id with
    | .error _ => false
    | .ok names => names.all fun n => n ∈ managed

def Handlers.matcherContainmentOK (ms : List Matcher) : Bool :=
  match h.managedServiceFilter p with
  | none => true
  | some managed =>
    match h.identity.catalog.serviceUniverse with
    | .error _ => false
    | .ok names => ms.all fun m => m.isServiceMatcher &&
        if m.operator = .equals then m.value ∈ managed
        else names.all fun n => !m.matchService h.identity.compile n || n ∈ managed

def Handlers.writeAnywhere (a : AuthStore) (p : AuthPrincipal) : Bool :=
  if h.rbacAdvanced then a.requireWriteAnywhere p else AuthStore.requireRole Role.canWrite p

end Checks

namespace WriteRoutes

open Catalog.Systems (Db defaultName)
open Tracecompletion (trimSpace)

inductive Resource where
  | integration (id : UUID)
  | system (id : UUID)
  | service (name : String)
  deriving DecidableEq

/-- What is stored for a resource beside its own row; a column of the row is a table of at most
one row here. -/
inductive Attached where
  | badge | messageColumns | messageFilters | declaredEnvironments | notificationProfile
  | sources | tags | metadata | metadataExtras | groups | shares
  | completionRules | completionFirings | healthChecks | readings | openErrorTraces
  | facetMappings | facetOverrides | errorAck | schemas | collectorTarget
  deriving DecidableEq

structure Row where
  key : UUID
  name : String := ""
  value : String := ""
  pushed : Bool := false
  deriving DecidableEq

/-- What the routes write.  The integrations are those of all organizations; the services and
systems are those of one. -/
structure Tables where
  db : Db
  integrations : List Integration
  matchers : UUID → List (UUID × Matcher) := fun _ => []
  rows : Resource → Attached → List Row := fun _ _ => []

/-- The names of a system's members. -/
def members (db : Db) (id : UUID) : List String :=
  (db.services.filter fun svc => svc.systemID = some id).map Service.serviceName

def Tables.Same (t t' : Tables) : Resource → Prop
  | .integration id =>
    t'.integrations.find? (fun i => i.id = id) = t.integrations.find? (fun i => i.id = id) ∧
      t'.matchers id = t.matchers id ∧
      ∀ a, t'.rows (.integration id) a = t.rows (.integration id) a
  | .system id =>
    t'.db.systems.find? (fun sys => sys.id = id) = t.db.systems.find? (fun sys => sys.id = id) ∧
      members t'.db id = members t.db id ∧
      ∀ a, t'.rows (.system id) a = t.rows (.system id) a
  | .service name =>
    t'.db.services.find? (fun svc => svc.serviceName = name) =
        t.db.services.find? (fun svc => svc.serviceName = name) ∧
      ∀ a, t'.rows (.service name) a = t.rows (.service name) a

/-- The tables of the moment that a request of one organization is made in. -/
structure Site extends Env where
  orgID : UUID
  tables : Tables
  services_eq : handlers.identity.catalog.services = tables.db.services
  integrationKey : (tables.integrations.map Integration.id).Nodup
  unmatched : ∀ id, (∀ i ∈ tables.integrations, i.id = id → i.organizationID ≠ orgID) →
    handlers.identity.catalog.matched id = []
  membershipKey : (auth.memberships.map fun m => (m.userID, m.orgID)).Nodup
  groups_eq : ∀ gm, gm ∈ handlers.identity.members ↔
    gm ∈ auth.groupMembers ∧ ∃ g ∈ auth.groups, g.id = gm.groupID ∧ g.orgID = orgID

/-- A request to a route, with its path parameters and its body. -/
structure WriteRequest where
  pattern : String
  /-- `r.PathValue("name")`, empty where the pattern has none -/
  name : String := ""
  /-- `r.PathValue("id")`, when it parses -/
  id : Option UUID := none
  /-- the second id of the path, when it parses -/
  sub : Option UUID := none
  refused : Bool := false
  text : String := ""
  list : List Row := []
  matchers : List (UUID × Matcher) := []
  serviceName : String := ""
  isSystem : Bool := false
  kind : String := ""
  newID : UUID := 0
  now : Nat := 0

abbrev HandlerFunc := Site → AuthPrincipal → WriteRequest → Tables

/-! ## Checks -/

section Checks

variable (s : Site) (p : AuthPrincipal)

def canSeeService (name : String) : Bool :=
  match s.handlers.visibilityMember p.toPrincipal with
  | none => true
  | some ref =>
    match s.handlers.identity.resolveVisibleServiceSetMember ref with
    | .error _ => true
    | .ok (_, true) => true
    | .ok (set, false) => name ∈ set

def canSeeSystem (id : UUID) : Bool :=
  match s.handlers.visibilityMember p.toPrincipal with
  | none => true
  | some ref =>
    match s.handlers.identity.resolveVisibleServiceSetMember ref with
    | .error _ => false
    | .ok (_, true) => true
    | .ok (set, false) => (members s.tables.db id).any fun n => n ∈ set

def canManageSystem (id : UUID) : Bool :=
  match s.handlers.managedServiceFilter p.toPrincipal with
  | none => true
  | some managed =>
    match s.handlers.identity.catalog.systemMemberNames id with
    | .error _ => false
    | .ok names => names.all fun n => n ∈ managed

/-- `integrationInOrg`, and the `WHERE organization_id = …` of the integration's statements. -/
def integrationInOrg (id : UUID) : Bool :=
  s.tables.integrations.any fun i => i.id = id && i.organizationID = s.orgID

def systemInOrg (id : UUID) : Bool := s.tables.db.systems.any fun sys => sys.id = id

end Checks

inductive Wrapper where
  | writeAnywhere
  /-- `writeAnywhere` of `requireManageIntegration` -/
  | manageIntegration
  /-- `writeAnywhere` of `requireManageSystem` -/
  | manageSystem
  /-- `RequireRole(identity.Role.CanAdmin, …)` -/
  | requireAdmin
  | shareEE
  | writeService
  | gateServiceRoute

/-- `gateServiceRoute`: a request without a service name passes. -/
def gateServiceRoute (s : Site) (p : AuthPrincipal) (name : String) : Bool :=
  name = "" || canSeeService s p name

def requireManageService (s : Site) (p : AuthPrincipal) (name : String) : Bool :=
  name = "" || s.handlers.canManageService p.toPrincipal name

/-- `requireManageIntegration`: an id that does not parse is left to the handler. -/
def requireManageIntegration (s : Site) (p : AuthPrincipal) (id : Option UUID) : Bool :=
  id.all (s.handlers.canManageIntegration p.toPrincipal)

def requireManageSystem (s : Site) (p : AuthPrincipal) (id : Option UUID) : Bool :=
  id.all (canManageSystem s p)

def Wrapper.admits (s : Site) (p : AuthPrincipal) (req : WriteRequest) : Wrapper → Bool
  | .writeAnywhere => s.handlers.writeAnywhere s.auth p
  | .manageIntegration => s.handlers.writeAnywhere s.auth p && requireManageIntegration s p req.id
  | .manageSystem => s.handlers.writeAnywhere s.auth p && requireManageSystem s p req.id
  | .requireAdmin => AuthStore.requireRole Role.canAdmin p
  | .shareEE => s.handlers.rbacAdvanced
  | .writeService => WriteRoutes.gateServiceRoute s p req.name &&
      requireManageService s p req.name
  | .gateServiceRoute => WriteRoutes.gateServiceRoute s p req.name

/-- What a handler does to one table of a resource. -/
inductive Edit where
  /-- an `UPDATE` of a column, or an upsert of the one row -/
  | put (a : Attached)
  | clear (a : Attached)
  | replace (a : Attached)
  | insert (a : Attached)
  /-- an `INSERT … ON CONFLICT DO NOTHING` of the row with the second id of the path -/
  | attach (a : Attached)
  | update (a : Attached)
  | detach (a : Attached)
  /-- `createTemplateChecks`: a check that is there by name gets the channels, if any are given -/
  | applyChecks
  /-- the checks of a template, deleted by name -/
  | removeChecks

def Edit.table : Edit → Attached
  | .put a | .clear a | .replace a | .insert a | .attach a | .update a | .detach a => a
  | .applyChecks | .removeChecks => .healthChecks

def Edit.apply (req : WriteRequest) (rows : List Row) : Edit → List Row
  | .put _ => [{ key := 0, value := req.text }]
  | .clear _ => []
  | .replace _ => req.list
  | .insert _ => { key := req.newID, value := req.text } :: rows
  | .attach _ =>
    match req.sub with
    | none => rows
    | some k => if rows.any fun r => r.key = k then rows else { key := k } :: rows
  | .update _ =>
    updateWhere (fun r => some r.key = req.sub) (fun r => { r with value := req.text }) rows
  | .detach _ => rows.filter fun r => some r.key ≠ req.sub
  | .applyChecks =>
    (rows.map fun r =>
      if req.text ≠ "" ∧ r.name ∈ req.list.map Row.name then { r with value := req.text } else r) ++
    req.list.filter fun c => c.name ∉ rows.map Row.name
  | .removeChecks => rows.filter fun r => r.name ∉ req.list.map Row.name

def Tables.edit (t : Tables) (res : Resource) (e : Edit) (req : WriteRequest) : Tables :=
  { t with
    rows := fun r a =>
      if r = res ∧ a = e.table then e.apply req (t.rows r a) else t.rows r a }

def onIntegration (e : Edit) : HandlerFunc := fun s _ req =>
  match req.id with
  | none => s.tables
  | some id =>
    if req.refused || !integrationInOrg s id then s.tables
    else s.tables.edit (.integration id) e req

def onSystem (e : Edit) : HandlerFunc := fun s _ req =>
  match req.id with
  | none => s.tables
  | some id =>
    if req.refused || !systemInOrg s id then s.tables else s.tables.edit (.system id) e req

/-- A handler that edits the service with the name that `clean` makes of the one in the path. -/
def onService (clean : String → String) (e : Edit) : HandlerFunc := fun s _ req =>
  if req.refused || clean req.name = "" then s.tables
  else s.tables.edit (.service (clean req.name)) e req

/-- Such a handler that updates a row of the catalog. -/
def onCatalogService (clean : String → String) (e : Edit) : HandlerFunc := fun s p req =>
  if s.tables.db.services.any fun svc => svc.serviceName = clean req.name then
    onService clean e s p req
  else s.tables

/-! ## The integration handlers -/

/-- The tables with an integration's matchers replaced. -/
def Tables.setMatchers (t : Tables) (id : UUID) (ms : List (UUID × Matcher)) : Tables :=
  { t with matchers := fun i => if i = id then ms else t.matchers i }

/-- `createIntegration`; the text is the trimmed name. -/
def createIntegration : HandlerFunc := fun s p req =>
  if req.refused || !s.handlers.matcherContainmentOK p.toPrincipal (req.matchers.map Prod.snd) ||
      s.tables.integrations.any (fun i => i.id = req.newID) then s.tables
  else
    { s.tables.setMatchers req.newID req.matchers with
      integrations := ⟨req.newID, s.orgID, req.text⟩ :: s.tables.integrations }

/-- The tables that `Clone` copies, besides the matchers; `groupAccess` is of `PlanClone`. -/
def cloned (groupAccess : Bool) : Attached → Bool
  | .declaredEnvironments | .tags | .metadata | .healthChecks => true
  | .groups => groupAccess
  | _ => false

def cloneIntegration : HandlerFunc := fun s p req =>
  match req.id with
  | none => s.tables
  | some src =>
    if req.refused || !integrationInOrg s src ||
        !s.handlers.matcherContainmentOK p.toPrincipal ((s.tables.matchers src).map Prod.snd) ||
        s.tables.integrations.any (fun i => i.id = req.newID) then s.tables
    else
      { s.tables.setMatchers req.newID (s.tables.matchers src) with
        integrations := ⟨req.newID, s.orgID, req.text⟩ :: s.tables.integrations
        rows := fun r a =>
          if r = .integration req.newID then
            if cloned p.readRole.canAdmin a then s.tables.rows (.integration src) a else []
          else s.tables.rows r a }

def updateIntegration : HandlerFunc := fun s _ req =>
  match req.id with
  | none => s.tables
  | some id =>
    if req.refused || !integrationInOrg s id then s.tables
    else
      { s.tables with
        integrations :=
          updateWhere (fun i => i.id = id) (fun i => { i with name := req.text })
            s.tables.integrations }

/-- `deleteIntegration`, with what is bound to the integration. -/
def deleteIntegration : HandlerFunc := fun s _ req =>
  match req.id with
  | none => s.tables
  | some id =>
    if !integrationInOrg s id then s.tables
    else
      { s.tables.setMatchers id [] with
        integrations := s.tables.integrations.filter fun i => i.id ≠ id
        rows := fun r a => if r = .integration id then [] else s.tables.rows r a }

/-- A handler that changes the matchers of the integration in the path. -/
def onMatchers (next : WriteRequest → List (UUID × Matcher) → List (UUID × Matcher)) :
    HandlerFunc := fun s _ req =>
  match req.id with
  | none => s.tables
  | some id =>
    if req.refused || !integrationInOrg s id then s.tables
    else s.tables.setMatchers id (next req (s.tables.matchers id))

/-- `addMatcher`: the one matcher of the request. -/
def addMatcher : HandlerFunc := fun s p req =>
  if !s.handlers.matcherContainmentOK p.toPrincipal (req.matchers.map Prod.snd) then s.tables
  else onMatchers (fun req ms => ms ++ req.matchers) s p req

def replaceMatchers : HandlerFunc := fun s p req =>
  if !s.handlers.matcherContainmentOK p.toPrincipal (req.matchers.map Prod.snd) then s.tables
  else onMatchers (fun req _ => req.matchers) s p req

def removeMatcher : HandlerFunc :=
  onMatchers fun req ms => ms.filter fun m => some m.1 ≠ req.sub

def removeServiceFromIntegration : HandlerFunc :=
  onMatchers fun req ms =>
    ms.filter fun m => !(m.2.operator = .equals && m.2.value = req.name)

/-- `putIntegrationMetadata`.  No statement looks at the organization. -/
def putIntegrationMetadata : HandlerFunc := fun s _ req =>
  match req.id with
  | none => s.tables
  | some id =>
    if req.refused || !s.tables.integrations.any (fun i => i.id = id) then s.tables
    else s.tables.edit (.integration id) (.replace .metadata) req

def assignIntegrationProfile : HandlerFunc := onIntegration (.put .notificationProfile)
def putIntegrationSources : HandlerFunc := onIntegration (.replace .sources)
def attachIntegrationTag : HandlerFunc := onIntegration (.attach .tags)
def detachIntegrationTag : HandlerFunc := onIntegration (.detach .tags)
def handleCompletionFiring : HandlerFunc := onIntegration (.update .completionFirings)
def putIntegrationBadge : HandlerFunc := onIntegration (.put .badge)
def putIntegrationMessageColumns : HandlerFunc := onIntegration (.put .messageColumns)
def putIntegrationMessageFilters : HandlerFunc := onIntegration (.put .messageFilters)
def putDeclaredEnvironments : HandlerFunc := onIntegration (.put .declaredEnvironments)
def putIntegrationGroups : HandlerFunc := onIntegration (.replace .groups)

/-- `createTraceCompletionRule`.  It does not look the integration up; a rule on one of another
organization is a row of the caller's own, which nothing of that organization reads. -/
def createTraceCompletionRule : HandlerFunc := onIntegration (.insert .completionRules)

/-- `updateTraceCompletionRule` and `deleteTraceCompletionRule` take the rule by its own id. -/
def onCompletionRule (e : Edit) : HandlerFunc := fun s _ req =>
  if req.refused || req.id.isNone then s.tables
  else
    { s.tables with
      rows := fun r a =>
        match r with
        | .integration id =>
          if integrationInOrg s id && a = e.table then e.apply req (s.tables.rows r a)
          else s.tables.rows r a
        | _ => s.tables.rows r a }

def updateTraceCompletionRule : HandlerFunc := onCompletionRule (.update .completionRules)
def deleteTraceCompletionRule : HandlerFunc := onCompletionRule (.detach .completionRules)

/-- `createSystem`; the text is the name. -/
def createSystem : HandlerFunc := fun s _ req =>
  if req.refused || trimSpace req.text = "" then s.tables
  else
    match s.tables.db.insert ⟨req.newID, trimSpace req.text, req.kind, req.now⟩ with
    | none => s.tables
    | some db => { s.tables with db := db }

def updateSystem : HandlerFunc := fun s _ req =>
  match req.id with
  | none => s.tables
  | some id =>
    if req.refused || trimSpace req.text = "" then s.tables
    else
      match s.tables.db.retype id (trimSpace req.text) req.kind with
      | none => s.tables
      | some db => { s.tables with db := db.resync id req.kind }

/-- `deleteSystem`, with the checks and shares of the system. -/
def deleteSystem : HandlerFunc := fun s _ req =>
  match req.id with
  | none => s.tables
  | some id =>
    if !systemInOrg s id then s.tables
    else
      { s.tables with
        db := s.tables.db.delete id
        rows := fun r a => if r = .system id then [] else s.tables.rows r a }

def attachSystemService : HandlerFunc := fun s p req =>
  match req.id with
  | none => s.tables
  | some id =>
    let name := trimSpace req.serviceName
    if req.refused || name = "" || !s.handlers.canManageService p.toPrincipal name ||
        !canSeeService s p name then s.tables
    else
      match s.tables.db.systems.find? fun sys => sys.id = id with
      | none => s.tables
      | some sys => { s.tables with db := s.tables.db.flag name sys.typeKey id }

def detachSystemService : HandlerFunc := fun s _ req =>
  match req.id with
  | none => s.tables
  | some id =>
    { s.tables with
      db := s.tables.db.clear fun svc =>
        svc.serviceName = trimSpace req.name && svc.systemID = some id }

def putSystemMetadata : HandlerFunc := fun s p req =>
  if req.id.all (canSeeSystem s p) then onSystem (.replace .metadata) s p req else s.tables

/-- `applySystemTemplateAll`: the checks of the template of the system's type, on every member
that the caller sees. -/
def applySystemTemplateAll : HandlerFunc := fun s p req =>
  match req.id with
  | none => s.tables
  | some id =>
    if !systemInOrg s id || !canSeeSystem s p id then s.tables
    else
      ((members s.tables.db id).filter (canSeeService s p)).foldl
        (fun t m => t.edit (.service m) .applyChecks req) s.tables

def putSystemBadge : HandlerFunc := onSystem (.put .badge)
def putSystemGroups : HandlerFunc := onSystem (.replace .groups)

/-- `createShare` and `deleteShare` of an integration. -/
def onIntegrationShare (e : Edit) : HandlerFunc := fun s p req =>
  if req.id.all (s.handlers.canManageIntegration p.toPrincipal) then onIntegration e s p req else s.tables

def onSystemShare (e : Edit) : HandlerFunc := fun s p req =>
  if req.id.all (canManageSystem s p) then onSystem e s p req else s.tables

def setServiceSystem (db : Db) (name kind : String) (isSystem : Bool) (newID : UUID)
    (now : Nat) : Db :=
  if !isSystem then db.clear fun svc => svc.serviceName = name
  else
    match db.systemOfType kind with
    | some sys => db.flag name kind sys.id
    | none =>
      match db.systems.find? fun sys => sys.name = defaultName kind with
      | some sys => db.flag name kind sys.id
      | none =>
        match db.insert ⟨newID, defaultName kind, kind, now⟩ with
        | none => db
        | some db' => db'.flag name kind newID

def putServiceSystem : HandlerFunc := fun s _ req =>
  if req.refused || trimSpace req.name = "" then s.tables
  else
    { s.tables with
      db := setServiceSystem s.tables.db (trimSpace req.name) req.kind req.isSystem req.newID
        req.now }

def applySystemTemplate : HandlerFunc := fun s p req =>
  if s.tables.db.services.any fun svc => svc.serviceName = trimSpace req.name && svc.isSystem then
    onService trimSpace .applyChecks s p req
  else s.tables

/-- `deleteFacetMapping` takes the mapping by its own id. -/
def deleteFacetMapping : HandlerFunc := fun s _ req =>
  match req.id with
  | none => s.tables
  | some id =>
    { s.tables with
      rows := fun r a =>
        if a = .facetMappings then (s.tables.rows r a).filter fun m => m.key ≠ id
        else s.tables.rows r a }

/-- `clearServiceErrors`, which resolves the open failed-trace checks of the service too. -/
def clearServiceErrors : HandlerFunc := fun s _ req =>
  if req.name = "" then s.tables
  else
    (s.tables.edit (.service req.name) (.put .errorAck) req).edit (.service req.name)
      (.clear .openErrorTraces) req

/-- `pushHealthCheckValue`: the check has to be the service's, and pushed to. -/
def pushHealthCheckValue : HandlerFunc := fun s _ req =>
  match req.id with
  | none => s.tables
  | some id =>
    if req.refused || req.name = "" ||
        !(s.tables.rows (.service req.name) .healthChecks).any (fun r => r.key = id && r.pushed)
    then s.tables
    else
      { s.tables with
        rows := fun r a =>
          if r = .service req.name ∧ a = .readings then
            upsert (fun row => row.key = id) (fun row => { row with value := req.text })
              { key := id, value := req.text } (s.tables.rows r a)
          else s.tables.rows r a }

def putServiceBadge : HandlerFunc := onCatalogService id (.put .badge)
def patchServiceCollectorTarget : HandlerFunc := onCatalogService id (.put .collectorTarget)
def createFacetMapping : HandlerFunc := onService id (.insert .facetMappings)
def putFacetOverrides : HandlerFunc := onService trimSpace (.replace .facetOverrides)
def unclearServiceErrors : HandlerFunc := onService id (.clear .errorAck)
def putServiceMetadata : HandlerFunc := onService trimSpace (.put .metadata)
def putServiceMetadataExtras : HandlerFunc := onService trimSpace (.replace .metadataExtras)
def applyTemplate : HandlerFunc := onService trimSpace .applyChecks
def removeTemplate : HandlerFunc := onService trimSpace .removeChecks
def putServiceSchemas : HandlerFunc := onCatalogService trimSpace (.replace .schemas)
def attachServiceTag : HandlerFunc := onService trimSpace (.attach .tags)
def detachServiceTag : HandlerFunc := onService trimSpace (.detach .tags)
def putServiceGroupsHandler : HandlerFunc := onService trimSpace (.replace .groups)

/-! ## The routes -/

/-- A route, its wrappers and its handler. -/
structure Route where
  pattern : String
  wrapper : Wrapper
  handler : HandlerFunc

def integrationRoutes : List Route :=
  [⟨"POST /api/v1/integrations", .writeAnywhere, createIntegration⟩,
   ⟨"POST /api/v1/integrations/{id}/clone", .manageIntegration, cloneIntegration⟩,
   ⟨"PUT /api/v1/integrations/{id}", .manageIntegration, updateIntegration⟩,
   ⟨"DELETE /api/v1/integrations/{id}", .manageIntegration, deleteIntegration⟩,
   ⟨"POST /api/v1/integrations/{id}/matchers", .manageIntegration, addMatcher⟩,
   ⟨"PUT /api/v1/integrations/{id}/matchers", .manageIntegration, replaceMatchers⟩,
   ⟨"DELETE /api/v1/integrations/{id}/matchers/{matcherId}", .manageIntegration, removeMatcher⟩,
   ⟨"DELETE /api/v1/integrations/{id}/services/{name}", .manageIntegration,
     removeServiceFromIntegration⟩,
   ⟨"PUT /api/v1/integrations/{id}/notification-profile", .manageIntegration,
     assignIntegrationProfile⟩,
   ⟨"POST /api/v1/integrations/{id}/tags/{tagId}", .manageIntegration, attachIntegrationTag⟩,
   ⟨"DELETE /api/v1/integrations/{id}/tags/{tagId}", .manageIntegration, detachIntegrationTag⟩,
   ⟨"POST /api/v1/integrations/{id}/completion-firings/{iid}/handle", .manageIntegration,
     handleCompletionFiring⟩,
   ⟨"PUT /api/v1/integrations/{id}/metadata", .manageIntegration, putIntegrationMetadata⟩,
   ⟨"PUT /api/v1/integrations/{id}/sources", .manageIntegration, putIntegrationSources⟩,
   ⟨"PUT /api/v1/integrations/{id}/badge", .writeService, putIntegrationBadge⟩,
   ⟨"PUT /api/v1/integrations/{id}/message-columns", .writeService, putIntegrationMessageColumns⟩,
   ⟨"PUT /api/v1/integrations/{id}/message-filters", .writeService, putIntegrationMessageFilters⟩,
   ⟨"PUT /api/v1/integrations/{id}/declared-environments", .writeService, putDeclaredEnvironments⟩,
   ⟨"PUT /api/v1/integrations/{id}/groups", .requireAdmin, putIntegrationGroups⟩,
   ⟨"POST /api/v1/integrations/{id}/completion-rules", .requireAdmin, createTraceCompletionRule⟩,
   ⟨"PATCH /api/v1/integrations/{id}/completion-rules/{rid}", .requireAdmin,
     updateTraceCompletionRule⟩,
   ⟨"DELETE /api/v1/integrations/{id}/completion-rules/{rid}", .requireAdmin,
     deleteTraceCompletionRule⟩,
   ⟨"POST /api/v1/integrations/{id}/shares", .shareEE, onIntegrationShare (.insert .shares)⟩,
   ⟨"DELETE /api/v1/integrations/{id}/shares/{shareId}", .shareEE,
     onIntegrationShare (.detach .shares)⟩]

def systemRoutes : List Route :=
  [⟨"POST /api/v1/systems", .writeAnywhere, createSystem⟩,
   ⟨"PUT /api/v1/systems/{id}", .manageSystem, updateSystem⟩,
   ⟨"DELETE /api/v1/systems/{id}", .manageSystem, deleteSystem⟩,
   ⟨"POST /api/v1/systems/{id}/services", .manageSystem, attachSystemService⟩,
   ⟨"DELETE /api/v1/systems/{id}/services/{name}", .manageSystem, detachSystemService⟩,
   ⟨"PUT /api/v1/systems/{id}/metadata", .manageSystem, putSystemMetadata⟩,
   ⟨"POST /api/v1/systems/{id}/apply-template", .manageSystem, applySystemTemplateAll⟩,
   ⟨"PUT /api/v1/systems/{id}/badge", .writeService, putSystemBadge⟩,
   ⟨"PUT /api/v1/systems/{id}/groups", .requireAdmin, putSystemGroups⟩,
   ⟨"POST /api/v1/systems/{id}/shares", .shareEE, onSystemShare (.insert .shares)⟩,
   ⟨"DELETE /api/v1/systems/{id}/shares/{shareId}", .shareEE, onSystemShare (.detach .shares)⟩]

def serviceRoutes : List Route :=
  [⟨"PUT /api/v1/services/{name}/badge", .writeService, putServiceBadge⟩,
   ⟨"POST /api/v1/services/{name}/facet-mappings", .writeService, createFacetMapping⟩,
   ⟨"DELETE /api/v1/services/{name}/facet-mappings/{id}", .writeService, deleteFacetMapping⟩,
   ⟨"PUT /api/v1/services/{name}/facet-overrides", .writeService, putFacetOverrides⟩,
   ⟨"POST /api/v1/services/{name}/health-checks/{id}/value", .gateServiceRoute,
     pushHealthCheckValue⟩,
   ⟨"POST /api/v1/services/{name}/clear-errors", .writeService, clearServiceErrors⟩,
   ⟨"DELETE /api/v1/services/{name}/clear-errors", .writeService, unclearServiceErrors⟩,
   ⟨"PUT /api/v1/services/{name}/metadata", .writeService, putServiceMetadata⟩,
   ⟨"PUT /api/v1/services/{name}/metadata-extras", .writeService, putServiceMetadataExtras⟩,
   ⟨"PUT /api/v1/services/{name}/system", .writeService, putServiceSystem⟩,
   ⟨"POST /api/v1/services/{name}/system/apply-template", .writeService, applySystemTemplate⟩,
   ⟨"POST /api/v1/services/{name}/apply-template", .writeService, applyTemplate⟩,
   ⟨"POST /api/v1/services/{name}/remove-template", .writeService, removeTemplate⟩,
   ⟨"PUT /api/v1/services/{name}/schemas", .writeService, putServiceSchemas⟩,
   ⟨"POST /api/v1/services/{name}/tags/{tagId}", .writeService, attachServiceTag⟩,
   ⟨"DELETE /api/v1/services/{name}/tags/{tagId}", .writeService, detachServiceTag⟩,
   ⟨"PATCH /api/v1/services/{name}/collector-target", .requireAdmin, patchServiceCollectorTarget⟩,
   ⟨"PUT /api/v1/services/{name}/groups", .requireAdmin, putServiceGroupsHandler⟩]

def mount : List Route := integrationRoutes ++ systemRoutes ++ serviceRoutes

def WriteRequest.route (req : WriteRequest) : Option Route :=
  mount.find? fun route => route.pattern = req.pattern

def serve (s : Site) (p : AuthPrincipal) (req : WriteRequest) : Tables :=
  match req.route with
  | none => s.tables
  | some route =>
    if route.wrapper.admits s p req then route.handler s p req else s.tables

end WriteRoutes

end Sluicio.Api
