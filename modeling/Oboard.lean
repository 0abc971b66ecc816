import Oboard.Controller.AuthorizationLeaseCache
import Oboard.Controller.AuthorizationFuture
import Oboard.Controller.AssignmentFrame
import Oboard.Store.StagedAssignments
import Oboard.Controller.AccessChangeExclusion
import Oboard.Store.AuthorizationExplained
import Oboard.Store.ConfigurationSyncRecovery
import Oboard.Core.PortLedgerRuns
import Oboard.Core.DeployedListeners
import Oboard.Core.SubscriptionOrder
import Oboard.Core.RuntimeUsersProjection
import Oboard.Store.AcknowledgedReports
import Oboard.Core.AffectedServers
import Oboard.Store.ConfigurationScopeProof
import Oboard.Controller.ReconcilerTasks
import Oboard.Automation.ApprovalPolicies
import Oboard.Automation.ApplyOnce
import Oboard.Store.ConnectionAuditBaseline
import Oboard.Activity.Features
import Oboard.Activity.ExactTotals
import Oboard.Activity.RiskBounds
import Oboard.Audit.Debounce
import Oboard.Audit.DirtyQueues
import Oboard.Controller.PendingWork
import Oboard.Store.OperationEvidence
import Oboard.Store.RetirementEvidence
import Oboard.Store.NodeIncidents
import Oboard.Application.BoundaryProjection
import Oboard.Store.LeaseFastPath
import Oboard.Controller.PeriodKeys
import Oboard.Store.TimestampOrder
import Oboard.Store.PathDeletion
import Oboard.Store.EvaluationOrder
import Oboard.Core.Topology
import Oboard.Core.ProxyPathNames
import Oboard.Controller.ConnectivityBaseline
import Oboard.Core.PlanMembershipRules
