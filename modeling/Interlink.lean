import Interlink.Foundation.Utf8
import Interlink.Foundation.CharBoundary
import Interlink.Foundation.Checked
import Interlink.Foundation.Glob
import Interlink.Foundation.Transition
import Interlink.Foundation.Tasks
import Interlink.Foundation.Counters
import Interlink.Foundation.Admission
import Interlink.Foundation.Trace
import Interlink.Foundation.Ledger
import Interlink.Foundation.Fallible
import Interlink.Foundation.Feedback
import Interlink.Common.Error
import Interlink.Common.SegmentGlob
import Interlink.Common.SpiffeUri
import Interlink.Common.SliceSafety
import Interlink.Common.Identity
import Interlink.Common.IdentityUri
import Interlink.Common.Config
import Interlink.Policy.Engine
import Interlink.Policy.Concurrent
import Interlink.Discovery.Resolve
import Interlink.Discovery.SingleFlight
import Interlink.Discovery.Flights
import Interlink.Discovery.Waiters
import Interlink.Discovery.Dedup
import Interlink.Proxy.Tls
import Interlink.Proxy.Credentials
import Interlink.Identity.Authority
import Interlink.Proxy.Reload
import Interlink.Proxy.ReloadOrder
import Interlink.Proxy.ReloadSafety
import Interlink.Proxy.Mux
import Interlink.Proxy.OpenStream
import Interlink.Proxy.Shared
import Interlink.Metrics.Registry
import Interlink.Proxy.Outbound
import Interlink.Proxy.Construct
import Interlink.Proxy.OutboundMoves
import Interlink.Proxy.Inbound
import Interlink.Proxy.InboundMoves
import Interlink.Proxy.Locks
import Interlink.Proxy.Node
import Interlink.Proxy.Admission
import Interlink.Proxy.Pool
import Interlink.Proxy.Loads
import Interlink.Proxy.SingleHandshake
import Interlink.Proxy.StreamCap
import Interlink.Proxy.SoftCap
import Interlink.Proxy.Overload
import Interlink.Proxy.OutboundAuthorization
import Interlink.Proxy.InboundAuthorization
import Interlink.Proxy.Authorization
import Interlink.Proxy.Expiry
import Interlink.Proxy.HalfClose
import Interlink.Proxy.SelfConnect
import Interlink.Proxy.Shutdown
import Interlink.Proxy.Accounting
import Interlink.Proxy.ConnectionLimit
import Interlink.Proxy.Handshakes
import Interlink.Policy.Patterns
import Interlink.Main.Startup
import Interlink.Common.UriGrammar
import Interlink.Foundation.Selection
import Interlink.Protocol.Detect
import Interlink.Protocol.RequestLine
import Interlink.Proxy.SubjectNames
import Interlink.Foundation.Loop
import Interlink.Proxy.DriveClient
import Interlink.Proxy.RouteAlone
import Interlink.Common.ConfigLayers
import Interlink.Proxy.ByteCount
import Interlink.Common.SocketText
import Interlink.Proxy.UpstreamText
import Interlink.Proxy.DriverRefinement
import Interlink.Foundation.Draining
import Interlink.Proxy.OutboundDraining
import Interlink.Proxy.InboundDraining
import Interlink.Proxy.Draining
import Interlink.Discovery.Draining
import Interlink.Discovery.CacheHistory
import Interlink.Foundation.Pipe
import Interlink.Proxy.Endpoints
import Interlink.Proxy.Mesh
import Interlink.Foundation.Watch
import Interlink.Main.Process
import Interlink.Main.Shutdown
import Interlink.Foundation.Words
import Interlink.Admin.Server
import Interlink.Admin.Responses
import Interlink.Foundation.Base64
import Interlink.Identity.Bootstrap
import Interlink.Identity.Kubernetes
import Interlink.Proxy.Isolation
import Interlink.Main.Deployment
