import Atoms.Recovery.Classifier.Committed
import Atoms.Recovery.Classifier.Restart
import Atoms.Library.Json
import Atoms.Chain.Append
import Atoms.Coordinator.Descriptors
import Atoms.Coordinator.Effects.Durable
import Atoms.Coordinator.Execute
import Atoms.Coordinator.Settle
import Atoms.Coordinator.Transitions
import Atoms.Store.Codec
import Atoms.Coordinator.Reconcile
import Atoms.Coordinator.Recover
import Atoms.Recovery.Classifier.Halted
import Atoms.Recovery.Classifier.SecondPass
import Atoms.Store.Coherence
import Atoms.Coordinator.Simulation
import Atoms.Chain.Append.Crashes
import Atoms.Chain.Pending
import Atoms.Chain.States
import Atoms.Coordinator.Commands
import Atoms.Coordinator.Registration
import Atoms.Chain.Frame
import Atoms.Coordinator.Lifecycle
import Atoms.Coordinator.Lifecycle.Claim
import Atoms.Coordinator.Lifecycle.Walk
import Atoms.Coordinator.Register
import Atoms.Coordinator.Register.Capture
import Atoms.Coordinator.Register.Completion
import Atoms.Coordinator.Register.Converges
import Atoms.Coordinator.Register.Crashes
import Atoms.Store.Bodies
import Atoms.Chain.Codec.Exact
import Atoms.Chain.Linear.Exact
import Atoms.Coordinator.Descriptors.Build
import Atoms.Coordinator.Descriptors.Closed
import Atoms.Coordinator.Drift
import Atoms.Coordinator.Drift.Expressible
import Atoms.Core.Canonical
import Atoms.Core.Canonical.Exact
import Atoms.Core.Compiler.Pairwise
import Atoms.Core.Compiler.Prefixes
import Atoms.Fs.Approval.Possible
import Atoms.Fs.Streaming
import Atoms.Fs.Volume
import Atoms.Fs.Volume.Rendered
import Atoms.Library.Matching
import Atoms.Recovery.Authorization.Exact
import Atoms.Recovery.Topology.Rooted
import Atoms.Coordinator.Lease
import Atoms.Coordinator.Preimage
import Atoms.Coordinator.Copy
import Atoms.Coordinator.Copy.Faithful
import Atoms.Coordinator.Copy.Durable
import Atoms.Coordinator.Serviceability.Runs
import Atoms.Coordinator.Copy.Again
import Atoms.Coordinator.Copy.Survives
