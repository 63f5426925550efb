import Sluicio.Alerting.Coalescing
import Sluicio.Alerting.StreamMuting
import Sluicio.Alerting.NoData
import Sluicio.Alerting.DeliveryOwnership
import Sluicio.Alerting.DeliveryWindow
import Sluicio.Alerting.FirstPage
import Sluicio.Identity.SystemPolicy
import Sluicio.Maintenance.Schedules
import Sluicio.Tracecompletion.Lookback
import Sluicio.Configtransfer.Secrets
import Sluicio.Audit.Tamper
import Sluicio.Api.Unhealthy
import Sluicio.Api.AlertWrites
import Sluicio.Proposals.Races
import Sluicio.Ingest.KeyStore
import Sluicio.Ingest.StorageGate
import Sluicio.Notifyprofiles.Defaults
import Sluicio.Errornotify.Notifier
import Sluicio.Stateexport.Exporter
import Sluicio.Alerting.PagerDuty
import Sluicio.Integrations.Environments
import Sluicio.Api.BackupCodes
import Sluicio.Api.Oauth
import Sluicio.Api.Members
import Sluicio.Store.Temporality
import Sluicio.Eventsubs.Termination
import Sluicio.Api.OnlyManagers
import Sluicio.Demand.Forgotten
import Sluicio.Api.PasswordReset
import Sluicio.Api.Bootstrap
import Sluicio.Integrations.Replace
import Sluicio.Advisor.Engine
import Sluicio.Api.Dashboards
import Sluicio.Advisor.Reach
import Sluicio.Api.ScopedEditors
import Sluicio.Api.ServiceRemoval
import Sluicio.Integrations.Clone
import Sluicio.Identity.PolicyInput
import Sluicio.Api.MutedRows
import Sluicio.Api.MessagePaging
import Sluicio.Messageviews.AttributeReadings
import Sluicio.Store.Logs
import Sluicio.Alerting.SplitRules
import Sluicio.Store.Resets
import Sluicio.Store.StatsSeries
import Sluicio.Proposals.Components
import Sluicio.Api.TraceChain
import Sluicio.Api.ChannelSecrets
import Sluicio.Alerting.WebhookTemplates
import Sluicio.Identity.Tokens
import Sluicio.Api.Ratelimit
import Sluicio.Ingest.Convert
import Sluicio.Api.SsoRoles
import Sluicio.Advisor.FatigueFacts
import Sluicio.Clickhouse.CanonicalEnvironment
import Sluicio.Alerting.EmailMessage
import Sluicio.Store.SliceStats
import Sluicio.Integrations.SourceSlices
import Sluicio.Proposals.DedupKey
import Sluicio.Api.ProjectionFacts
import Sluicio.Deploymentlimits.EntityLimit
import Sluicio.Servicetypes.SpanFilter
import Sluicio.Api.TemplateApply
import Sluicio.Alerting.Ledger
import Sluicio.License
