import Sluicio.Configtransfer.Tables
import Sluicio.Lib.Ordered

/-!
# Export

`exportBundle` reads an organisation into a bundle, section by section.  An id is
written as the natural key of the row it names, and left out when the organisation has
no such row.  `COALESCE(x, '')` is `x.getD ""`.

A query that names no order reads the table's own.
-/

namespace Sluicio.Configtransfer

open Lib

namespace OrgState

variable (st : OrgState)

def tagSlug (id : UUID) : Option String := (st.tags.find? (·.id = id)).map TagRow.slug

def fieldKey (id : UUID) : Option String := (st.metadataFields.find? (·.id = id)).map FieldRow.key

def groupSlug (id : UUID) : Option String := (st.groups.find? (·.id = id)).map GroupRow.slug

def integSlug (id : UUID) : Option String :=
  (st.integrations.find? (·.id = id)).map IntegrationRow.slug

def systemName (id : UUID) : Option String := (st.systems.find? (·.id = id)).map SystemRow.name

def channelName (id : UUID) : Option String := (st.channels.find? (·.id = id)).map ChannelRow.name

def profileName (id : UUID) : Option String := (st.profiles.find? (·.id = id)).map ProfileRow.name

end OrgState

def schemaNK (name version : String) : String :=
  if version = "" then name else name ++ "@" ++ version

def OrgState.schemaKey (st : OrgState) (id : UUID) : Option String :=
  (st.schemas.find? (·.id = id)).map fun s => schemaNK s.name s.version

/-- A JSON column under `COALESCE(…, 'null'::jsonb)::text`, kept unless it says `null`. -/
def notNull (column : Option RawMessage) : Option RawMessage := column.filter (· ≠ "null")

def metadataMap (fieldKey : UUID → Option String) (rows : List ValueRow) : StringMap :=
  rows.foldl (fun m r => match fieldKey r.fieldID with
    | some k => m.set k r.value
    | none => m) []

/-! ## Sections -/

variable (st : OrgState)

def exportTags : List Tag :=
  (orderBy TagRow.slug st.tags).map fun r => ⟨r.slug, r.name, r.color⟩

def exportField (r : FieldRow) : MetadataField where
  key := r.key
  label := r.label
  type := r.type
  options := notNull r.options
  description := r.description
  appliesToIntegration := r.appliesToIntegration
  appliesToService := r.appliesToService
  appliesToSystem := r.appliesToSystem
  required := r.required
  systemTypeKey := some r.systemTypeKey

def exportFields : List MetadataField :=
  (orderBy FieldRow.key st.metadataFields).map exportField

def exportSchemas : List Schema :=
  (orderBy (fun r => toLex (r.name, r.version)) st.schemas).map fun r =>
    ⟨r.name, r.version, r.kind, r.description, r.format, r.content⟩

def exportMap (r : MapRow) : MapDef where
  name := r.name
  version := r.version
  description := r.description
  format := r.format
  content := r.content
  fromSchema := r.fromSchemaID.bind st.schemaKey
  toSchema := r.toSchemaID.bind st.schemaKey

def exportMaps : List MapDef :=
  (orderBy (fun r => toLex (r.name, r.version)) st.maps).map (exportMap st)

def exportSystemType (r : SystemTypeRow) : SystemType where
  key := r.key
  label := r.label
  isSystem := r.isSystem
  detectPrefixes := notNull (some r.detectPrefixes)
  detectSpanAttrs := (notNull (some r.detectSpanAttrs)).filter (· ≠ "[]")
  checks := notNull (some r.checks)

def exportSystemTypes : List SystemType :=
  (orderBy SystemTypeRow.key st.systemTypes).map exportSystemType

def exportSystem (r : SystemRow) : System where
  name := r.name
  typeKey := r.typeKey
  description := r.description
  badgePublic := r.badgePublic
  metadata := metadataMap st.fieldKey r.metadata

def exportSystems : List System := (orderBy SystemRow.name st.systems).map (exportSystem st)

def exportFacets : List ServiceFacet :=
  (orderBy FacetRow.slug st.serviceFacets).map fun r => ⟨r.slug, r.name, r.description⟩

def exportMapping (r : MappingRow) : FacetMapping where
  serviceName := r.serviceName
  attributeSource := r.attributeSource
  attributeKey := r.attributeKey
  matchOperator := r.matchOperator
  matchValue := r.matchValue
  setIOKind := r.setIOKind
  setIORole := r.setIORole

def exportMappings : List FacetMapping :=
  (orderBy (fun r : MappingRow =>
    toLex (r.serviceName, toLex (r.attributeKey, r.matchValue))) st.facetMappings).map exportMapping

def exportOverrides : List FacetOverride :=
  (orderBy (fun r : OverrideRow => toLex (r.serviceName, r.facetSlug)) st.facetOverrides).map
    fun r => ⟨r.serviceName, r.facetSlug, r.action⟩

/-- `group_members gm JOIN users u ON u.id = gm.user_id`. -/
def exportMember (r : MemberRow) : Option GroupMember :=
  r.userID.bind fun uid => (st.users.find? (·.id = uid)).map fun u => ⟨u.email, r.role⟩

def exportGroup (r : GroupRow) : Group where
  slug := r.slug
  name := r.name
  description := r.description
  members := orderBy GroupMember.email (r.members.filterMap (exportMember st))

def exportGroups : List Group := (orderBy GroupRow.slug st.groups).map (exportGroup st)

/-- `channelSecretSafe`: the configuration keys that may travel, for a kind. -/
def channelSecretSafe (kind key : String) : Bool :=
  kind = "email" && (key = "to" || key = "addresses" || key = "cc")

/-- The members of a configuration that may travel. -/
def JsonObject.safe (kind : String) (o : JsonObject) : JsonObject where
  members := o.members.filter fun m => channelSecretSafe kind m.1
  sorted := o.sorted.filter _

/-- A configuration as the exporter reads it, an object or else none at all. -/
def Json.toObject : Json → JsonObject
  | .object o => o
  | .other _ => ⟨[], List.Pairwise.nil⟩

def exportChannel (r : ChannelRow) : Channel where
  name := r.name
  kind := r.kind
  config := some (.object (r.config.toObject.safe r.kind))
  needsCredentials :=
    (r.config.toObject.safe r.kind).members.length ≠ r.config.toObject.members.length

def exportChannels : List Channel := (orderBy ChannelRow.name st.channels).map exportChannel

/-- `NULLIF(mode, default)`. -/
def nullIf (mode dflt : String) : String := if mode = dflt then "" else mode

def exportProfile (r : ProfileRow) : Profile where
  name := r.name
  group := r.groupID.bind st.groupSlug
  grouping := r.grouping
  renotifyMinutes := r.renotifyMinutes
  isDefault := r.isDefault
  channels := orderBy id (r.channels.filterMap st.channelName)
  environmentMode := nullIf r.environmentMode "any"
  environments := r.environments

def exportProfiles : List Profile := (orderBy ProfileRow.name st.profiles).map (exportProfile st)

def exportMatcher (r : MatcherRow) : Matcher where
  attr := r.attr
  operator := r.operator
  value := r.value
  matchGroup := r.matchGroup
  includeDescendants := r.includeDescendants
  member := if r.member = r.matchGroup then none else some r.member

def exportSource (r : SourceRow) : Option IntegrationSource :=
  match r.origin with
  | .service name => some ⟨r.signal, "service", name, r.conditions, r.metricNames⟩
  | .system id => (st.systemName id).map fun n =>
    ⟨r.signal, "system", n, r.conditions, r.metricNames⟩

def exportIntegration (r : IntegrationRow) : Integration where
  slug := r.slug
  name := r.name
  description := r.description.getD ""
  badgePublic := r.badgePublic
  ruleMatch := r.ruleMatch
  profile := r.notificationProfileID.bind st.profileName
  matchers := (orderBy (fun m : MatcherRow => toLex (m.matchGroup, toLex (m.attr, m.value)))
    r.matchers).map exportMatcher
  tags := orderBy id (r.tags.filterMap st.tagSlug)
  metadata := metadataMap st.fieldKey r.metadata
  declaredEnvironments := r.declaredEnvironments
  sources := (orderBy SourceRow.position r.sources).filterMap (exportSource st)

def exportIntegrations : List Integration :=
  (orderBy IntegrationRow.slug st.integrations).map (exportIntegration st)

def exportPolicy (r : PolicyRow) : AccessPolicy where
  group := (st.groupSlug r.groupID).getD ""
  kind := r.kind
  targetServiceName := r.targetServiceName
  targetIntegration := r.targetIntegrationID.bind st.integSlug
  targetSystem := r.targetSystemID.bind st.systemName
  targetSystemKind := r.targetSystemKind
  attributeMatch := notNull (some r.attributeMatch)
  conditions := notNull r.conditions
  signals := r.signals.getD []

/-- The importer's pseudo natural key, as one text. -/
def AccessPolicy.key (p : AccessPolicy) : String :=
  "|".intercalate [p.group, p.kind, p.targetServiceName.getD "", p.targetIntegration.getD "",
    p.targetSystem.getD "", p.targetSystemKind.getD "", p.attributeMatch.getD "",
    p.conditions.getD ""]

/-- Of the policies with one key, the first; `seen` holds the keys so far. -/
def dedupe (seen : List String) : List AccessPolicy → List AccessPolicy
  | [] => []
  | p :: ps => if p.key ∈ seen then dedupe seen ps else p :: dedupe (p.key :: seen) ps

def exportPolicies : List AccessPolicy :=
  dedupe [] ((orderBy PolicyRow.kind st.accessPolicies).map (exportPolicy st))

def exportServiceRow (r : ServiceMetadataRow) : ServiceMetadata where
  serviceName := r.serviceName
  description := r.description
  owner := r.owner
  onCall := r.onCall
  team := r.team
  repository := r.repository
  runbookURL := r.runbookURL
  extras := []

/-- One row of the extras: written beside the service's own metadata, or as an entry of
its own when it has none. -/
def addExtra (metas : List ServiceMetadata) (e : ExtraRow) : List ServiceMetadata :=
  match st.fieldKey e.fieldID with
  | none => metas
  | some k =>
    if metas.any (·.serviceName = e.serviceName) then
      metas.map fun m =>
        if m.serviceName = e.serviceName then { m with extras := m.extras.set k e.value } else m
    else metas ++ [⟨e.serviceName, "", "", "", "", "", "", [(k, e.value)]⟩]

def exportServiceMetadata : List ServiceMetadata :=
  st.serviceExtras.foldl (addExtra st)
    ((orderBy ServiceMetadataRow.serviceName st.serviceMetadata).map exportServiceRow)

def exportServiceTags : List ServiceTag :=
  (orderBy ServiceTagRow.serviceName st.serviceTags).filterMap fun r =>
    (st.tagSlug r.tagID).map fun s => ⟨r.serviceName, s⟩

def exportServiceSchemas : List ServiceSchema :=
  (orderBy (fun r => toLex (r.serviceName, r.direction)) st.serviceSchemas).filterMap fun r =>
    (st.schemaKey r.schemaID).map fun k => ⟨r.serviceName, r.direction, k⟩

def exportView (r : ViewRow) : MessageView where
  name := r.name
  description := r.description.getD ""
  pinned := r.pinned
  group := r.groupID.bind st.groupSlug
  filters := notNull (some r.filters)
  scopeIntegration := r.scopeIntegrationID.bind st.integSlug
  scopeServiceID := r.scopeServiceID

/-- Team and organisation-wide views; a private one belongs to a person. -/
def exportMessageViews : List MessageView :=
  (orderBy ViewRow.name (st.messageViews.filter ViewRow.shared)).map (exportView st)

def exportTemplate (r : TemplateRow) : Template where
  name := r.name
  description := r.description
  source := r.source
  checks := notNull (some r.checks)

def exportTemplates : List Template :=
  (orderBy TemplateRow.name st.templates).map exportTemplate

def exportRule (r : RuleRow) : AlertRule where
  name := r.name
  description := r.description.getD ""
  signal := r.signal
  ruleSpec := notNull (some r.ruleSpec)
  severity := r.severity
  evaluationInterval := r.evaluationInterval
  enabled := r.enabled
  serviceName := r.serviceName
  integration := r.integrationID.bind st.integSlug
  group := r.groupID.bind st.groupSlug
  titleTemplate := r.titleTemplate.getD ""
  bodyTemplate := r.bodyTemplate.getD ""
  source := r.source
  displayOnService := r.displayOnService
  unit := r.unit.getD ""
  resolveMode := r.resolveMode
  notificationConfig := notNull r.notificationConfig
  channels := orderBy id (r.routes.filterMap st.channelName)
  environmentMode := nullIf r.environmentMode "each"
  environments := r.environments

def exportAlertRules : List AlertRule :=
  (orderBy (fun r => toLex (r.name, r.id)) st.alertRules).map (exportRule st)

def exportItem (r : ItemRow) : DashboardItem where
  widgetType := r.widgetType
  position := r.position
  entityKind := r.entityKind
  integration := r.integrationID.bind st.integSlug
  systemName := r.systemName

def exportDashboard (r : DashboardRow) : Dashboard where
  name := r.name
  isDefault := r.isDefault
  autoIncludeAll := r.autoIncludeAll
  defaultWidgetType := r.defaultWidgetType
  position := r.position
  group := r.groupID.bind st.groupSlug
  items := (orderBy ItemRow.position r.items).map (exportItem st)
  environments := r.environments
  includeRule := r.includeRule

def exportDashboards : List Dashboard :=
  (orderBy DashboardRow.name st.dashboards).map (exportDashboard st)

def exportCellSettings : List CellSetting :=
  (orderBy CellSettingRow.key st.cellSettings).map fun r => ⟨r.key, r.value, r.description⟩

/-! ## The bundle -/

def exportSections : Sections where
  tags := exportTags st
  metadataFields := exportFields st
  schemas := exportSchemas st
  maps := exportMaps st
  systemTypes := exportSystemTypes st
  systems := exportSystems st
  serviceFacets := exportFacets st
  facetMappings := exportMappings st
  facetOverrides := exportOverrides st
  groups := exportGroups st
  integrations := exportIntegrations st
  accessPolicies := exportPolicies st
  serviceMetadata := exportServiceMetadata st
  serviceTags := exportServiceTags st
  serviceSchemas := exportServiceSchemas st
  messageViews := exportMessageViews st
  templates := exportTemplates st
  channels := exportChannels st
  profiles := exportProfiles st
  alertRules := exportAlertRules st
  dashboards := exportDashboards st
  cellSettings := exportCellSettings st

/-- `Export`, at time `now`. -/
def exportBundle (appVersion : String) (now : Nat) : Bundle where
  formatVersion := formatVersion
  appVersion := appVersion
  exportedAt := now
  source := ⟨st.slug, st.name⟩
  sections := exportSections st

end Sluicio.Configtransfer
