import PluginSdk.Lib.Ascii
import PluginSdk.Lib.Lts
import PluginSdk.Lib.Nesting
import PluginSdk.Lib.Parking
import PluginSdk.Lib.Pieces
import PluginSdk.Lib.Potential
import PluginSdk.Lib.Program
import PluginSdk.Lib.Refinement
import PluginSdk.Lib.Runs
import PluginSdk.Lib.Separated
import PluginSdk.Lib.Since
import PluginSdk.Lib.Table
import PluginSdk.Lib.Unwind
import PluginSdk.Protocol
import PluginSdk.Error
import PluginSdk.Value
import PluginSdk.Validation
import PluginSdk.WireDepth
import PluginSdk.Grammar
import PluginSdk.Sender
import PluginSdk.HostClient
import PluginSdk.Journey
import PluginSdk.Routing
import PluginSdk.Outbound
import PluginSdk.Cancellation
import PluginSdk.Artifact
import PluginSdk.CanonicalUuid
import PluginSdk.Host
import PluginSdk.HostLink
import PluginSdk.Jobs
import PluginSdk.Supervisor
import PluginSdk.Terminal
import PluginSdk.Serve
import PluginSdk.Process
import PluginSdk.Wakeup
import PluginSdk.JobTable
import PluginSdk.Replies
import PluginSdk.Queue
import PluginSdk.Standing
import PluginSdk.Window
import PluginSdk.Settlement
import PluginSdk.Shutdown
import PluginSdk.Lifetime
import PluginSdk.Acknowledgement
import PluginSdk.Calls
import PluginSdk.Session
import PluginSdk.Containment
import PluginSdk.Bracketing
import PluginSdk.Transfer
import PluginSdk.Checks
import PluginSdk.Account
import PluginSdk.Provenance
import PluginSdk.Origins
import PluginSdk.Answers
import PluginSdk.Handles
import PluginSdk.Handshake
import PluginSdk.Gate
import PluginSdk.ChunkPlan
import PluginSdk.Source
import PluginSdk.Stream
import PluginSdk.Storing
import PluginSdk.Stragglers
import PluginSdk.Atomicity
import PluginSdk.Liveness
import PluginSdk.Runtime
import PluginSdk.Conformance
import PluginSdk.Admission
import PluginSdk.Blame
import PluginSdk.Locking
import PluginSdk.Progress
import PluginSdk.ReplyOrder
import PluginSdk.Peer
import PluginSdk.Builder
import PluginSdk.Service
import PluginSdk.WellFormed
import PluginSdk.Decoding
