import MpvmApp.Lib.Runs
import MpvmApp.Lib.Table
import MpvmApp.Lib.Trail
import MpvmApp.Lib.Versioned
import MpvmApp.Sql.Text
import MpvmApp.Sql.Json
import MpvmApp.Findings.Schema
import MpvmApp.Remediation.Reconcile
import MpvmApp.Remediation.Repository
import MpvmApp.Remediation.Service
import MpvmApp.Remediation.Lifecycle
import MpvmApp.Remediation.Exceptions
import MpvmApp.Remediation.Dependents
import MpvmApp.Remediation.History
import MpvmApp.Remediation.Locking
import MpvmApp.Workflow.Rows
import MpvmApp.Workflow.Reconciliation
import MpvmApp.Workflow.Machine
import MpvmApp.Workflow.Waiting
import MpvmApp.Workflow.Threads
import MpvmApp.Workflow.Verification
import MpvmApp.Lib.Replica
import MpvmApp.Operations.Registry
import MpvmApp.Operations.Sources
import MpvmApp.Operations.System
import MpvmApp.Operations.Sync
import MpvmApp.Lib.GroupedView
import MpvmApp.Findings.Rollup
import MpvmApp.Findings.Statements
import MpvmApp.Findings.Exactness
import MpvmApp.Exports.Csv
import MpvmApp.Exports.AssetIds
import MpvmApp.Exports.Removal
import MpvmApp.AssetCard.Snapshot
import MpvmApp.AssetCard.Docker
import MpvmApp.AssetCard.Save
import MpvmApp.AssetCard.Completeness
import MpvmApp.Workflow.Campaigns
import MpvmApp.Workflow.Idempotency
import MpvmApp.Automations.Runbook
import MpvmApp.Automations.Execution
import MpvmApp.Automations.Cancellation
import MpvmApp.Automations.Resume
import MpvmApp.Automations.Progress
import MpvmApp.Automations.Restarts
import MpvmApp.Automations.Scheduler
import MpvmApp.Automations.Ticks
import MpvmApp.Automations.Advance
import MpvmApp.Scanner.Launch
import MpvmApp.Lib.Selection
import MpvmApp.Passports.Matching
import MpvmApp.Passports.Relink
import MpvmApp.Passports.Catalog
import MpvmApp.Passports.Links
import MpvmApp.Lib.Dict
import MpvmApp.Lib.Tally
import MpvmApp.Services.SnapshotCache
import MpvmApp.Services.SnapshotFreshness
import MpvmApp.AssetGroups.Groups
import MpvmApp.Lib.Forest
import MpvmApp.AssetGroups.Hierarchy
import MpvmApp.AssetGroups.Evaluation
import MpvmApp.AssetCard.Identity
import MpvmApp.AssetCard.BuildJobs
import MpvmApp.Services.ScanItems
import MpvmApp.Services.ScanWorkers
import MpvmApp.Services.ScanBuildFirst
import MpvmApp.Services.ScanRemovals
import MpvmApp.Services.ScanMonitor
import MpvmApp.Services.DockerGroups
import MpvmApp.Services.DockerSystem
import MpvmApp.Services.DockerInvariant
import MpvmApp.Services.DockerLinks
import MpvmApp.Services.DockerCleanup
import MpvmApp.Automations.Definitions
import MpvmApp.Automations.Publication
import MpvmApp.Automations.Deployment
import MpvmApp.Automations.Confirmation
import MpvmApp.Auth.Users
import MpvmApp.Auth.UserTransactions
import MpvmApp.Auth.Administrators
import MpvmApp.Auth.Sessions
import MpvmApp.Auth.Credentials
import MpvmApp.AssetCard.BuildCancellation
import MpvmApp.Remediation.Deadlines
import MpvmApp.Passports.DetailJobs
import MpvmApp.Passports.Recreation
import MpvmApp.Passports.Replacements
import MpvmApp.Passports.CatalogSync
import MpvmApp.Operations.Outcomes
import MpvmApp.Operations.Visibility
import MpvmApp.Lib.Sorted
import MpvmApp.Lib.GroupTotals
import MpvmApp.Findings.Analytics
import MpvmApp.Findings.ReadPaths
import MpvmApp.Findings.ReadPathEquality
import MpvmApp.Findings.SummaryEquality
import MpvmApp.Services.Recovery
import MpvmApp.Passports.ReplacementPlan
import MpvmApp.Passports.Absorption
import MpvmApp.Auth.Limiter
import MpvmApp.Auth.LoginAttempts
import MpvmApp.Auth.McpTokens
import MpvmApp.Auth.TokenConfinement
import MpvmApp.Scanner.Presets
import MpvmApp.Scanner.TeamStarts
import MpvmApp.Operations.Idempotency
import MpvmApp.Operations.IdempotencyLaws
import MpvmApp.Lib.Pages
import MpvmApp.Mpvm.AssetGrid
import MpvmApp.AssetCard.DockerPages
import MpvmApp.AssetCard.CollectionPages
import MpvmApp.AssetCard.Tree
import MpvmApp.AssetCard.TreeReach
import MpvmApp.Lib.Greedy
import MpvmApp.AssetCard.DockerMerge
import MpvmApp.Sql.Like
import MpvmApp.Remediation.RiskQueue
import MpvmApp.Lib.Numerals
import MpvmApp.Lib.IpAddress
import MpvmApp.Lib.IpNetwork
import MpvmApp.Lib.CharTables
import MpvmApp.Scanner.Targets
import MpvmApp.Scanner.Resolution
import MpvmApp.Findings.FixFilter
import MpvmApp.Compliance.Assets
import MpvmApp.Compliance.Dataset
import MpvmApp.Lib.FirstBy
import MpvmApp.Sql.Members
import MpvmApp.AssetCard.SnapshotDocs
import MpvmApp.Lib.Numbered
import MpvmApp.AssetCard.SnapshotTables
import MpvmApp.AssetCard.SnapshotRoundTrip
import MpvmApp.Scanner.TaskDocuments
import MpvmApp.Scanner.TaskPayloads
import MpvmApp.Passports.DetailWorker
import MpvmApp.Lib.Covering
import MpvmApp.Scanner.Precheck
import MpvmApp.Exports.Import
import MpvmApp.Lib.Loops
import MpvmApp.AssetCard.SearchRows
import MpvmApp.AssetCard.SearchBackfill
import MpvmApp.Lib.KeyedMerge
import MpvmApp.Mcp.HostSearch
import MpvmApp.Mcp.SearchCache
import MpvmApp.AssetCard.FieldQuery
import MpvmApp.AssetCard.FieldQueryMeaning
import MpvmApp.AssetCard.QueryEvidence
import MpvmApp.Lib.KeyedWrites
import MpvmApp.Passports.MatchTables
import MpvmApp.Passports.MatchTableRuns
import MpvmApp.Diagnostics.Redaction
import MpvmApp.Automations.Webhooks
