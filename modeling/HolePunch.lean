import HolePunch.Library.Transition
import HolePunch.Library.Futures
import HolePunch.Library.SendAll
import HolePunch.Library.LengthDelimited
import HolePunch.Library.Channel
import HolePunch.Library.TimeCache
import HolePunch.Library.Select
import HolePunch.Library.PollTrace
import HolePunch.Library.Sync
import HolePunch.PubKey
import HolePunch.Protocol
import HolePunch.ByteStream
import HolePunch.SourceStream
import HolePunch.ProtocolStream
import HolePunch.Flushing
import HolePunch.Stream
import HolePunch.Authenticator
import HolePunch.Verification
import HolePunch.Registry
import HolePunch.Registries.Remote
import HolePunch.LookupSession
import HolePunch.LookupTable
import HolePunch.Lookups
import HolePunch.Outstanding
import HolePunch.Connection
import HolePunch.Registrations
import HolePunch.Connect
import HolePunch.BuildConnection
import HolePunch.IncomingStream
import HolePunch.Wire
import HolePunch.WireBytes
import HolePunch.Relay
import HolePunch.RelayedBytes
import HolePunch.BuildSession
import HolePunch.BuildScript
import HolePunch.BuildAgreement
import HolePunch.BuildRuns
import HolePunch.Context
import HolePunch.Node
import HolePunch.Identity
import HolePunch.Authenticity
import HolePunch.Network
import HolePunch.Registries.ConnectionHandler
import HolePunch.HandlerSurvival
import HolePunch.Registries.Mdns
import HolePunch.Discovery
import HolePunch.Announcement
import HolePunch.EndOfStream
import HolePunch.Keys
import HolePunch.KeyMaps
import HolePunch.KeyTexts
import HolePunch.RequestQueue
import HolePunch.QueuedTimers
import HolePunch.ServiceNames
import HolePunch.ConnectAttempts
import HolePunch.RegistrySearch
import HolePunch.Registries.GetNextAddr
import HolePunch.AddressRounds
import HolePunch.StreamWakeups
import HolePunch.Wakeups
import HolePunch.PendingKeys
import HolePunch.Config
import HolePunch.ProtocolLink
import HolePunch.ContextTask
import HolePunch.ContextStreams
import HolePunch.Registries.Responder
import HolePunch.Startup
import HolePunch.Shutdown
import HolePunch.KeepAlive
import HolePunch.ConnectDeadlines
import HolePunch.Punching
import HolePunch.DiscoveryAnswers
import HolePunch.Dialling
import HolePunch.Accepting
import HolePunch.LookupCalls
import HolePunch.BuildProgress
import HolePunch.BuildEnds
