import Centinal26.Compute.Router
import Centinal26.Device.Answer
import Centinal26.Device.Cycle
import Centinal26.Federation.Registry
import Centinal26.Forecast.Baseline
import Centinal26.Hermes.Log
import Centinal26.Library.Cleaner
import Centinal26.Core.Dequeue
import Centinal26.Pipeline.Gated
import Centinal26.Pipeline.Leases
import Centinal26.Pipeline.Attempts
import Centinal26.Effects.Reoffer
import Centinal26.Effects.Recovery
import Centinal26.Effects.Abort
import Centinal26.Effects.Expiry
import Centinal26.Fleet.Leases
import Centinal26.Fleet.Terminal
import Centinal26.Fleet.Roles
import Centinal26.Fleet.EventLog
import Centinal26.Intelligence.Changes
import Centinal26.Intelligence.Due
import Centinal26.Advance.Idle
import Centinal26.Supervisor.Submit
import Centinal26.Watch.Mirror
import Centinal26.Evolution.MetaPolicy
import Centinal26.Factory.Promotion
import Centinal26.Interop.Routing
import Centinal26.Export.Crash
import Centinal26.Recovery.Atomic
import Centinal26.Evidence.Raises
import Centinal26.Review.Root
import Centinal26.Persistent.Heal
import Centinal26.Provider.Resume
import Centinal26.Callable.Legitimate
import Centinal26.Callable.Owned
import Centinal26.Clipboard.Autorun
import Centinal26.Miner.Complete
import Centinal26.Validation.Sound
import Centinal26.Validation.Verdict
import Centinal26.Wordbook.Evolution
import Centinal26.Skynet.Paired
import Centinal26.Fabric.Invoke
import Centinal26.Effects.Offered
import Centinal26.Pipeline.Verified
import Centinal26.Canonical.Rebuild
import Centinal26.Hermes.Approval
import Centinal26.Hermes.Bridge
import Centinal26.Automation.Modules
import Centinal26.Improvement.Controller
import Centinal26.Claims.Verdict
import Centinal26.Evolution.Plasticity
import Centinal26.Governance.Pointing
import Centinal26.Events.Verify
import Centinal26.Fleet.Selection
import Centinal26.Intelligence.Sweep
import Centinal26.Supervisor.Drain
import Centinal26.Claims.Gate
import Centinal26.Chat.Branch
import Centinal26.Continuity.Hostile
import Centinal26.Evolution.Paths
import Centinal26.Creative.Canon
import Centinal26.Takeout.Parts
import Centinal26.Migration.Proposal
