import Sluicio.Catalog
import Sluicio.Configtransfer.Bundle

/-!
# The tables

The rows an organisation's configuration is kept in, with the columns that describe
it; `created_at`, `updated_at` and what the product counts at run time are left out.
The rows of a child table are a list in the row of their parent.  `OrgState` holds the
rows of one organisation, each table in the order the database holds it, together with
the tables of the whole cell that a transfer reads.
-/

namespace Sluicio.Configtransfer

structure TagRow where
  id : UUID
  slug : String
  name : String
  color : String
  deriving DecidableEq

structure FieldRow where
  id : UUID
  key : String
  label : String
  type : String
  options : Option RawMessage
  description : String
  appliesToIntegration : Bool
  appliesToService : Bool
  appliesToSystem : Bool
  required : Bool
  systemTypeKey : String
  deriving DecidableEq

structure SchemaRow where
  id : UUID
  name : String
  version : String
  kind : String
  description : String
  format : String
  content : String
  deriving DecidableEq

structure MapRow where
  id : UUID
  name : String
  version : String
  description : String
  format : String
  content : String
  fromSchemaID : Option UUID
  toSchemaID : Option UUID
  deriving DecidableEq

structure SystemTypeRow where
  id : UUID
  key : String
  label : String
  isSystem : Bool
  detectPrefixes : RawMessage
  detectSpanAttrs : RawMessage
  checks : RawMessage
  runbook : String
  deriving DecidableEq

/-- A row of `system_metadata`, `integration_metadata`: a field and its value. -/
structure ValueRow where
  fieldID : UUID
  value : String
  deriving DecidableEq

structure SystemRow where
  id : UUID
  name : String
  typeKey : String
  description : String
  badgePublic : Bool
  metadata : List ValueRow
  deriving DecidableEq

structure FacetRow where
  id : UUID
  slug : String
  name : String
  description : String
  deriving DecidableEq

structure MappingRow where
  id : UUID
  serviceName : String
  attributeSource : String
  attributeKey : String
  matchOperator : String
  matchValue : String
  setIOKind : String
  setIORole : String
  deriving DecidableEq

structure OverrideRow where
  id : UUID
  serviceName : String
  facetSlug : String
  action : String
  deriving DecidableEq

/-- A member of a group, a user or a service account. -/
structure MemberRow where
  userID : Option UUID
  serviceAccountID : Option UUID
  role : String
  deriving DecidableEq

structure GroupRow where
  id : UUID
  slug : String
  name : String
  description : String
  members : List MemberRow
  deriving DecidableEq

structure ChannelRow where
  id : UUID
  name : String
  kind : String
  config : Json
  deriving DecidableEq

structure ProfileRow where
  id : UUID
  groupID : Option UUID
  name : String
  grouping : String
  renotifyMinutes : Int
  isDefault : Bool
  environmentMode : String
  environments : List String
  channels : List UUID
  deriving DecidableEq

structure MatcherRow where
  attr : String
  operator : String
  value : String
  matchGroup : Int
  includeDescendants : Bool
  member : Int
  deriving DecidableEq

/-- `origin_kind` and `origin`: a service by name or a system by id. -/
inductive SourceOrigin where
  | service (name : String)
  | system (id : UUID)
  deriving DecidableEq

structure SourceRow where
  signal : String
  origin : SourceOrigin
  conditions : List SourceCondition
  metricNames : List String
  position : Int
  deriving DecidableEq

structure IntegrationRow where
  id : UUID
  slug : String
  name : String
  description : Option String
  badgePublic : Bool
  ruleMatch : String
  notificationProfileID : Option UUID
  declaredEnvironments : List String
  messageColumns : RawMessage
  messageFilters : RawMessage
  matchers : List MatcherRow
  tags : List UUID
  metadata : List ValueRow
  sources : List SourceRow
  deriving DecidableEq

structure PolicyRow where
  id : UUID
  groupID : UUID
  kind : String
  targetServiceName : Option String
  targetIntegrationID : Option UUID
  attributeMatch : RawMessage
  targetSystemKind : Option String
  conditions : Option RawMessage
  targetSystemID : Option UUID
  signals : Option (List String)
  grantServices : Bool
  deriving DecidableEq

structure ServiceMetadataRow where
  serviceName : String
  description : String
  owner : String
  onCall : String
  team : String
  repository : String
  runbookURL : String
  deriving DecidableEq

structure ExtraRow where
  serviceName : String
  fieldID : UUID
  value : String
  deriving DecidableEq

structure ServiceTagRow where
  serviceName : String
  tagID : UUID
  deriving DecidableEq

structure ServiceSchemaRow where
  serviceName : String
  direction : String
  schemaID : UUID
  deriving DecidableEq

structure ViewRow where
  id : UUID
  ownerUserID : Option UUID
  name : String
  description : Option String
  pinned : Bool
  shared : Bool
  filters : RawMessage
  messageColumns : Option RawMessage
  scopeIntegrationID : Option UUID
  scopeServiceID : Option String
  groupID : Option UUID
  deriving DecidableEq

structure TemplateRow where
  id : UUID
  name : String
  description : String
  source : String
  checks : RawMessage
  deriving DecidableEq

structure RuleRow where
  id : UUID
  integrationID : Option UUID
  name : String
  description : Option String
  signal : String
  ruleSpec : RawMessage
  severity : String
  evaluationInterval : String
  enabled : Bool
  serviceName : Option String
  groupID : Option UUID
  systemID : Option UUID
  titleTemplate : Option String
  bodyTemplate : Option String
  source : String
  displayOnService : Bool
  unit : Option String
  resolveMode : String
  notificationConfig : Option RawMessage
  environmentMode : String
  environments : List String
  checkScope : Option String
  runbook : String
  routes : List UUID
  deriving DecidableEq

structure ItemRow where
  integrationID : Option UUID
  widgetType : String
  position : Int
  entityKind : String
  systemName : Option String
  systemID : Option UUID
  deriving DecidableEq

structure DashboardRow where
  id : UUID
  ownerUserID : Option UUID
  name : String
  isDefault : Bool
  autoIncludeAll : Bool
  defaultWidgetType : String
  position : Int
  groupID : Option UUID
  environments : List String
  includeRule : Option RawMessage
  items : List ItemRow
  deriving DecidableEq

structure CellSettingRow where
  key : String
  value : Json
  description : String
  deriving DecidableEq

structure UserRow where
  id : UUID
  email : String
  deriving DecidableEq

/-- One organisation's rows, `services` the names its catalog knows and `orgMembers`
the users that belong to it; the users and the settings are those of the cell. -/
structure OrgState where
  slug : String
  name : String
  tags : List TagRow
  metadataFields : List FieldRow
  schemas : List SchemaRow
  maps : List MapRow
  systemTypes : List SystemTypeRow
  systems : List SystemRow
  serviceFacets : List FacetRow
  facetMappings : List MappingRow
  facetOverrides : List OverrideRow
  groups : List GroupRow
  channels : List ChannelRow
  profiles : List ProfileRow
  integrations : List IntegrationRow
  accessPolicies : List PolicyRow
  serviceMetadata : List ServiceMetadataRow
  serviceExtras : List ExtraRow
  serviceTags : List ServiceTagRow
  serviceSchemas : List ServiceSchemaRow
  messageViews : List ViewRow
  templates : List TemplateRow
  alertRules : List RuleRow
  dashboards : List DashboardRow
  services : List String
  orgMembers : List UUID
  users : List UserRow
  cellSettings : List CellSettingRow
  deriving DecidableEq

end Sluicio.Configtransfer
