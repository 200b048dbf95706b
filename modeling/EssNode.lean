import EssNode.Sss.Secrecy
import EssNode.Governance.Quorum
import EssNode.Governance.Store
import EssNode.Crdt.Counting
import EssNode.Crdt.Observed
import EssNode.Crdt.Dominance
import EssNode.Crdt.Convergence
import EssNode.Crdt.Merging
import EssNode.Crdt.Audit
import EssNode.Crdt.Persistence
import EssNode.Crdt.Registry
import EssNode.Crdt.Totals
import EssNode.Security.ReplayCache
import EssNode.Security.Rejection
import EssNode.Security.Bundle
import EssNode.Onboarding.RateLimit
import EssNode.Onion.Views
import EssNode.Storage.Failures
import EssNode.Storage.Erasure
import EssNode.Compute.Priority
import EssNode.Compute.Accounting
import EssNode.Node.AccessControl
import EssNode.Node.Typed
import EssNode.Node.VoteOrder
import EssNode.Node.OnboardKeys
import EssNode.Node.Activations
import EssNode.Node.Delivery
import EssNode.Node.Reputation
import EssNode.Ghost.SyncItems
import EssNode.Ghost.Isolation
import EssNode.ControlLoop
import EssNode.Framing
import EssNode.Rotation
import EssNode.Gateway
import EssNode.Onboarding.SerialNumber
import EssNode.Web
import EssNode.Ghost.Store
import EssNode.Bootstrap
import EssNode.Node.Dashboard
import EssNode.DashboardServer
