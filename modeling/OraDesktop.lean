import OraDesktop.LineFramer
import OraDesktop.LosslessBytes
import OraDesktop.Git.Status
import OraDesktop.Git.Worktrees
import OraDesktop.Effect.Convergence
import OraDesktop.Effect.Reconcile
import OraDesktop.Workflow.EmbeddedJson
import OraDesktop.Workflow.IntegerCondition
import OraDesktop.Workflow.RetryMarker
import OraDesktop.Workflow.SnapshotSwitch
import OraDesktop.Workflow.TemplateReferences
import OraDesktop.Workflow.Terminal
import OraDesktop.Workflow.VariableValue
import OraDesktop.Process.Cancellation
import OraDesktop.Process.Evidence
import OraDesktop.Node.Creation
import OraDesktop.Node.Fence
import OraDesktop.Session.Follow
import OraDesktop.Scheduled.Once
import OraDesktop.Scheduled.Execution
import OraDesktop.Marketplace.Rebuild
import OraDesktop.Marketplace.Scan
