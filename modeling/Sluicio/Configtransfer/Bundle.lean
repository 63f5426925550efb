import Mathlib.Data.List.Pairwise
import Mathlib.Data.String.Basic

/-!
# The bundle

A bundle carries an organisation's configuration as one document: a list of objects
for each section, which refer to each other by natural key and never by id.

A JSON value the transfer only passes on is its text, as `jsonb` prints it; a value it
looks into, a channel's configuration or a cell setting, is a `Json`.  A Go map of
strings is its entries in the order of their keys, in which it is marshalled.
-/

namespace Sluicio.Configtransfer

/-- A JSON object: its members in the order of their keys, each value by its text. -/
@[ext] structure JsonObject where
  members : List (String × String)
  sorted : members.Pairwise fun a b => a.1 < b.1
  deriving DecidableEq

/-- A JSON value, known by its text unless it is an object. -/
inductive Json where
  | object (o : JsonObject)
  | other (text : String)
  deriving DecidableEq

/-- The text of a value the transfer does not look into. -/
abbrev RawMessage := String

/-- `map[string]string`. -/
abbrev StringMap := List (String × String)

/-- `m[k] = v`. -/
def StringMap.set (k v : String) : StringMap → StringMap
  | [] => [(k, v)]
  | (k', v') :: m =>
    if k < k' then (k, v) :: (k', v') :: m
    else if k = k' then (k, v) :: m
    else (k', v') :: StringMap.set k v m

/-! ## Objects -/

structure Tag where
  slug : String
  name : String
  color : String
  deriving DecidableEq

structure MetadataField where
  key : String
  label : String
  type : String
  options : Option RawMessage
  description : String
  appliesToIntegration : Bool
  appliesToService : Bool
  appliesToSystem : Bool
  required : Bool
  systemTypeKey : Option String
  deriving DecidableEq

structure Schema where
  name : String
  version : String
  kind : String
  description : String
  format : String
  content : String
  deriving DecidableEq

structure MapDef where
  name : String
  version : String
  description : String
  format : String
  content : String
  fromSchema : Option String
  toSchema : Option String
  deriving DecidableEq

structure SystemType where
  key : String
  label : String
  isSystem : Bool
  detectPrefixes : Option RawMessage
  detectSpanAttrs : Option RawMessage
  checks : Option RawMessage
  deriving DecidableEq

structure System where
  name : String
  typeKey : String
  description : String
  badgePublic : Bool
  metadata : StringMap
  deriving DecidableEq

structure ServiceFacet where
  slug : String
  name : String
  description : String
  deriving DecidableEq

structure FacetMapping where
  serviceName : String
  attributeSource : String
  attributeKey : String
  matchOperator : String
  matchValue : String
  setIOKind : String
  setIORole : String
  deriving DecidableEq

structure FacetOverride where
  serviceName : String
  facetSlug : String
  action : String
  deriving DecidableEq

structure GroupMember where
  email : String
  role : String
  deriving DecidableEq

structure Group where
  slug : String
  name : String
  description : String
  members : List GroupMember
  deriving DecidableEq

structure Matcher where
  attr : String
  operator : String
  value : String
  matchGroup : Int
  includeDescendants : Bool
  member : Option Int
  deriving DecidableEq

structure SourceCondition where
  attr : String
  operator : String
  value : String
  deriving DecidableEq

structure IntegrationSource where
  signal : String
  originKind : String
  origin : String
  conditions : List SourceCondition
  metricNames : List String
  deriving DecidableEq

structure Integration where
  slug : String
  name : String
  description : String
  badgePublic : Bool
  ruleMatch : String
  profile : Option String
  matchers : List Matcher
  tags : List String
  metadata : StringMap
  declaredEnvironments : List String
  sources : List IntegrationSource
  deriving DecidableEq

structure AccessPolicy where
  group : String
  kind : String
  targetServiceName : Option String
  targetIntegration : Option String
  targetSystem : Option String
  targetSystemKind : Option String
  attributeMatch : Option RawMessage
  conditions : Option RawMessage
  signals : List String
  deriving DecidableEq

structure ServiceMetadata where
  serviceName : String
  description : String
  owner : String
  onCall : String
  team : String
  repository : String
  runbookURL : String
  extras : StringMap
  deriving DecidableEq

structure ServiceTag where
  serviceName : String
  tag : String
  deriving DecidableEq

structure ServiceSchema where
  serviceName : String
  direction : String
  schema : String
  deriving DecidableEq

structure MessageView where
  name : String
  description : String
  pinned : Bool
  group : Option String
  filters : Option RawMessage
  scopeIntegration : Option String
  scopeServiceID : Option String
  deriving DecidableEq

structure Template where
  name : String
  description : String
  source : String
  checks : Option RawMessage
  deriving DecidableEq

structure Channel where
  name : String
  kind : String
  config : Option Json
  needsCredentials : Bool
  deriving DecidableEq

structure Profile where
  name : String
  group : Option String
  grouping : String
  renotifyMinutes : Int
  isDefault : Bool
  channels : List String
  environmentMode : String
  environments : List String
  deriving DecidableEq

structure AlertRule where
  name : String
  description : String
  signal : String
  ruleSpec : Option RawMessage
  severity : String
  evaluationInterval : String
  enabled : Bool
  serviceName : Option String
  integration : Option String
  group : Option String
  titleTemplate : String
  bodyTemplate : String
  source : String
  displayOnService : Bool
  unit : String
  resolveMode : String
  notificationConfig : Option RawMessage
  channels : List String
  environmentMode : String
  environments : List String
  deriving DecidableEq

structure DashboardItem where
  widgetType : String
  position : Int
  entityKind : String
  integration : Option String
  systemName : Option String
  deriving DecidableEq

structure Dashboard where
  name : String
  isDefault : Bool
  autoIncludeAll : Bool
  defaultWidgetType : String
  position : Int
  group : Option String
  items : List DashboardItem
  environments : List String
  includeRule : Option RawMessage
  deriving DecidableEq

structure CellSetting where
  key : String
  value : Json
  description : String
  deriving DecidableEq

/-! ## The envelope -/

structure Sections where
  tags : List Tag
  metadataFields : List MetadataField
  schemas : List Schema
  maps : List MapDef
  systemTypes : List SystemType
  systems : List System
  serviceFacets : List ServiceFacet
  facetMappings : List FacetMapping
  facetOverrides : List FacetOverride
  groups : List Group
  integrations : List Integration
  accessPolicies : List AccessPolicy
  serviceMetadata : List ServiceMetadata
  serviceTags : List ServiceTag
  serviceSchemas : List ServiceSchema
  messageViews : List MessageView
  templates : List Template
  channels : List Channel
  profiles : List Profile
  alertRules : List AlertRule
  dashboards : List Dashboard
  cellSettings : List CellSetting
  deriving DecidableEq

structure Source where
  orgSlug : String
  orgName : String
  deriving DecidableEq

structure Bundle where
  formatVersion : Nat
  appVersion : String
  exportedAt : Nat
  source : Source
  sections : Sections
  deriving DecidableEq

def formatVersion : Nat := 1

end Sluicio.Configtransfer
