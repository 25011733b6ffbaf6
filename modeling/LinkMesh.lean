import LinkMesh.Basis.Machine
import LinkMesh.Basis.Locks
import LinkMesh.Client.Locks
import LinkMesh.Client.Crypto
import LinkMesh.Client.Peer
import LinkMesh.Client.Run
import LinkMesh.Basis.SeqMap
import LinkMesh.Client.Outbox
import LinkMesh.Client.Conn
import LinkMesh.Client.SendWindow
import LinkMesh.Client.Nonce
import LinkMesh.Client.Keys
import LinkMesh.Pair.World
import LinkMesh.Pair.Resync
import LinkMesh.Pair.Rekey
import LinkMesh.Pair.Epoch
import LinkMesh.Basis.NumberedLog
import LinkMesh.Client.Reorder
import LinkMesh.Pair.Delivery
import LinkMesh.Pair.Restart
import LinkMesh.Client.Unopened
import LinkMesh.Basis.KeyMap
import LinkMesh.Server.Routes
import LinkMesh.Basis.Base64
import LinkMesh.Basis.Display
import LinkMesh.Basis.Layout
import LinkMesh.Wire.Text
import LinkMesh.Mesh.Cert
import LinkMesh.Mesh.Registry
import LinkMesh.Server.State
import LinkMesh.Server.Sessions
import LinkMesh.Server.Auth
import LinkMesh.Mesh.Enrolment
import LinkMesh.Server.Join
import LinkMesh.Server.Signaling
import LinkMesh.Server.Lifecycle
import LinkMesh.Server.Replay
import LinkMesh.Basis.InOrder
import LinkMesh.Pair.Signaling
import LinkMesh.Wire.Auth
import LinkMesh.Wire.Signal
import LinkMesh.Server.Workers
import LinkMesh.Server.Sections
import LinkMesh.Server.AtMostOnce
import LinkMesh.Server.Revocation
import LinkMesh.Server.LiveRoutes
import LinkMesh.Server.RouteRuns
import LinkMesh.Mesh.Runs
import LinkMesh.Server.JoinRuns
import LinkMesh.Server.Query
import LinkMesh.Basis.IpAddr
import LinkMesh.Server.Addresses
import LinkMesh.Server.Relay
import LinkMesh.Server.RelayRuns
import LinkMesh.Basis.Lines
import LinkMesh.Mesh.Canonical
import LinkMesh.Mesh.Binding
import LinkMesh.Server.Site
import LinkMesh.Server.Preemption
import LinkMesh.Basis.SharedFile
import LinkMesh.Server.Invites
import LinkMesh.Server.MeshFile
import LinkMesh.Client.CrlVersion
import LinkMesh.Basis.TtlMap
import LinkMesh.Client.Names
import LinkMesh.Pair.Names
import LinkMesh.Wire.Packet
import LinkMesh.Client.Forward
import LinkMesh.Client.Tunnel
import LinkMesh.Client.Udp
import LinkMesh.Client.Batch
import LinkMesh.Client.Transport
import LinkMesh.Client.Manager
import LinkMesh.Basis.Record
import LinkMesh.Wire.Records
import LinkMesh.Wire.Bodies
import LinkMesh.Wire.RoundTrip
import LinkMesh.Mesh.WireForm
import LinkMesh.Server.AuthBounds
import LinkMesh.Basis.KeyedList
import LinkMesh.Server.Config
import LinkMesh.Basis.FixedWindow
import LinkMesh.Server.RateLimit
import LinkMesh.Server.Batcher
import LinkMesh.Mesh.Invites
import LinkMesh.Server.Reservations
import LinkMesh.Client.Learned
import LinkMesh.Server.Control
import LinkMesh.Server.ControlRuns
import LinkMesh.Server.KeyQuery
import LinkMesh.Client.Indexes
import LinkMesh.Client.SingleFlight
import LinkMesh.Server.Answers
import LinkMesh.Mesh.Fingerprint
import LinkMesh.Basis.Utf8
import LinkMesh.Basis.Lowercase
import LinkMesh.Client.Dns
import LinkMesh.Client.DnsAnswer
import LinkMesh.Server.LogLimiter
import LinkMesh.Basis.Shards
import LinkMesh.Server.Intake
import LinkMesh.Server.Introductions
import LinkMesh.Client.Config
import LinkMesh.Client.Commands
import LinkMesh.Pair.Enrolment
import LinkMesh.Client.Contacts
import LinkMesh.Client.Handlers
import LinkMesh.Pair.Fabric
import LinkMesh.Pair.Connections
import LinkMesh.Pair.Network
import LinkMesh.Pair.EndToEnd
import LinkMesh.Server.LogTail
