import P2pMesh.Foundation.BigEndian
import P2pMesh.Foundation.Slice
import P2pMesh.Foundation.LeadingBits
import P2pMesh.Foundation.Int64Arith
import P2pMesh.Foundation.Transition
import P2pMesh.Foundation.Program
import P2pMesh.Foundation.Tally
import P2pMesh.Foundation.HistoryFilter
import P2pMesh.Foundation.Descent
import P2pMesh.Foundation.Utf8
import P2pMesh.Foundation.CaseMap
import P2pMesh.Foundation.JsonStrings
import P2pMesh.Foundation.Json
import P2pMesh.Foundation.Base64
import P2pMesh.Foundation.Base32
import P2pMesh.Foundation.ByteStream
import P2pMesh.Foundation.Parts
import P2pMesh.Foundation.NetAddr
import P2pMesh.Foundation.DnsMessage
import P2pMesh.Foundation.Sha256
import P2pMesh.Foundation.DoubleIndex
import P2pMesh.Foundation.KeyedTable
import P2pMesh.Foundation.LastWrite
import P2pMesh.Foundation.Memo
import P2pMesh.Foundation.TokenBucket
import P2pMesh.Foundation.Shortlist
import P2pMesh.Foundation.Splitter
import P2pMesh.Foundation.Sorting
import P2pMesh.Foundation.RingWalk
import P2pMesh.Types.NodeID
import P2pMesh.Types.Fingerprint
import P2pMesh.Types.Salt
import P2pMesh.Types.IPv4
import P2pMesh.Types.Addr
import P2pMesh.Identity.File
import P2pMesh.Config.Client
import P2pMesh.Config.Files
import P2pMesh.Tunnel.ReplayWindow
import P2pMesh.Tunnel.Basic
import P2pMesh.Tunnel.Mtu
import P2pMesh.Tunnel.Nonces
import P2pMesh.Tunnel.Replay
import P2pMesh.Tunnel.Forgery
import P2pMesh.Tunnel.Frames
import P2pMesh.Tunnel.Duplex
import P2pMesh.Tunnel.Datagrams
import P2pMesh.Tunnel.Stream
import P2pMesh.Tunnel.Manager
import P2pMesh.Crypto.Certificate
import P2pMesh.Crypto.DomainSeparation
import P2pMesh.Crypto.Chain
import P2pMesh.Crypto.CertAuth
import P2pMesh.Storage.PortRules
import P2pMesh.Storage.Nodes
import P2pMesh.Storage.Registration
import P2pMesh.Storage.Database
import P2pMesh.Storage.Ownership
import P2pMesh.Storage.Statements
import P2pMesh.PortControl.Controller
import P2pMesh.PortControl.Indexes
import P2pMesh.PortControl.References
import P2pMesh.PortControl.Restart
import P2pMesh.PortControl.Registered
import P2pMesh.PortControl.ServerPush
import P2pMesh.PortControl.Forward
import P2pMesh.PortControl.Scanner
import P2pMesh.PortControl.ScanHistory
import P2pMesh.PortControl.ScanRate
import P2pMesh.Room.Manager
import P2pMesh.Room.RoomID
import P2pMesh.Room.Members
import P2pMesh.Room.IPv4Allocator
import P2pMesh.Room.AddressCache
import P2pMesh.Relay.Hub
import P2pMesh.Routing.Router
import P2pMesh.Routing.Wiring
import P2pMesh.Dns.Name
import P2pMesh.Dns.Message
import P2pMesh.Dns.Echo
import P2pMesh.Dns.Resolver
import P2pMesh.Dht.Key
import P2pMesh.Dht.RoutingTable
import P2pMesh.Dht.Lookup
import P2pMesh.Dht.Recency
import P2pMesh.Dht.Arrival
import P2pMesh.Dht.Rounds
import P2pMesh.Stun.Client
import P2pMesh.Stun.Predict
import P2pMesh.Stun.Detect
import P2pMesh.HolePunch.Priority
import P2pMesh.HolePunch.Matrix
import P2pMesh.Protocol.Messages
import P2pMesh.Protocol.Framing
import P2pMesh.Bootstrap.Server
import P2pMesh.Bootstrap.Connection
import P2pMesh.Bootstrap.Handshake
import P2pMesh.Bootstrap.Reselect
import P2pMesh.Bootstrap.Shutdown
import P2pMesh.Server.Lifecycle
import P2pMesh.Server.Process
import P2pMesh.Api.Token
import P2pMesh.Api.Server
import P2pMesh.Api.Logout
import P2pMesh.Api.Sessions
import P2pMesh.Api.Secrets
import P2pMesh.Api.Management
