import Fproxy.Library.Runs
import Fproxy.Library.Simulation
import Fproxy.Library.Clock
import Fproxy.Library.Admission
import Fproxy.Library.Ledger
import Fproxy.Library.Scan
import Fproxy.Library.Text
import Fproxy.Library.Fallible
import Fproxy.Net
import Fproxy.Net.Parser
import Fproxy.DedupWindow
import Fproxy.DedupWindow.Go
import Fproxy.DedupWindow.Memory
import Fproxy.DedupWindow.InOrder
import Fproxy.Protocol
import Fproxy.Library.Buffer
import Fproxy.Protocol.Go
import Fproxy.Library.Framing
import Fproxy.Library.PartialWrites
import Fproxy.TcpFraming
import Fproxy.GoResponseReader
import Fproxy.GoFrameWriter
import Fproxy.Server.State
import Fproxy.Server.Machine
import Fproxy.Server.Receivers
import Fproxy.Server.TcpPaths
import Fproxy.Server.Objects
import Fproxy.Server.Forwarding
import Fproxy.Server.Provenance
import Fproxy.Server.DeadPaths
import Fproxy.ResponseFrames
import Fproxy.Config
import Fproxy.Config.Endpoint
import Fproxy.Config.Duration
import Fproxy.Config.Load
import Fproxy.Config.ServerAddress
import Fproxy.Config.Timeout
import Fproxy.Config.Running
import Fproxy.GoConfig.Endpoint
import Fproxy.GoConfig.Compatibility
import Fproxy.GoConfig.Load
import Fproxy.GoConfig.Override
import Fproxy.Client.State
import Fproxy.Client.Machine
import Fproxy.Client.Objects
import Fproxy.Client.Forwarding
import Fproxy.Client.Accounting
import Fproxy.Client.SessionIds
import Fproxy.Client.Sending
import Fproxy.Client.Receiving
import Fproxy.Network
import Fproxy.Client.ReaderCleanup
import Fproxy.Client.Activity
import Fproxy.Client.Mapping
import Fproxy.Client.Numbering
import Fproxy.ExactlyOnce
import Fproxy.Server.Handlers
import Fproxy.Server.Paths
import Fproxy.Server.PathOwners
import Fproxy.Server.Sequence
import Fproxy.Server.SingleFlight
import Fproxy.Server.FailedForward
import Fproxy.Server.Isolation
import Fproxy.Exchange
import Fproxy.Delivery
import Fproxy.GoServer.Machine
import Fproxy.GoServer.Shutdown
import Fproxy.GoClient.Responses
import Fproxy.GoClient.Forwarding
import Fproxy.GoClient.Connections
import Fproxy.GoClient.Shutdown
import Fproxy.MixedNetwork
import Fproxy.GoServer.Agreement
import Fproxy.Server.Locks
import Fproxy.Client.Locks
import Fproxy.GoServer.Locks
import Fproxy.GoClient.Locks
import Fproxy.GoFrameReader
import Fproxy.Library.Leases
import Fproxy.Server.Leases
import Fproxy.Client.Leases
import Fproxy.MultiPath
import Fproxy.Client.FanOut
import Fproxy.GoClient.FanOut
import Fproxy.GoConfig.Migration
import Fproxy.Server.Answers
