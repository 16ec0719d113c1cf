import HolePunch.Connect
import HolePunch.Context
import HolePunch.IncomingStream
import HolePunch.Registries.Remote

set_option autoImplicit false

/- One peer with everything that runs on it: its connections, the streams remote peers open on
them, the connections it makes itself, its registry providers and the calls of its user. All that
comes from outside (certificates, connection attempts, messages, timers, back-pressure) is in the
events, in any order. -/
namespace HolePunch

/-- For whom `ConnectWithStrategies` connects: the remote registry, or the mDNS registry on
behalf of one call of `create_connection_to_peer`. -/
inductive Purpose where
  | remoteRegistry
  | fulfillRequest (create : Nat)
  deriving DecidableEq, Repr

/-- One call of `create_connection_to_peer`. It has no stage left when it has resolved. -/
structure Create where
  peer : PeerIdentifier
  stage : Option CreateConnectionToPeer
  deriving DecidableEq, Repr

/-- A call that has resolved to a stream. `dialled` is the connection the stream was opened on
when that connection was made for this very call. -/
structure Resolved where
  peer : PeerIdentifier
  stream : Stream
  dialled : Option Nat
  deriving DecidableEq, Repr

structure Node where
  connections : Connections
  /-- The keys the authenticator has returned to `Connection::new`, one for each connection. -/
  keys : List PeerIdentifier
  /-- The streams passed to the context. -/
  context : List Stream
  /-- The streams opened on this side. -/
  streams : List Stream
  opening : List NewStreamFuture
  connects : List (Purpose × ConnectWithStrategies)
  outgoing : Option Remote.OutgoingStream
  /-- Answers of the providers to the requests of calls. -/
  results : List (Nat × RegistryProvider × RegistryResult)
  creates : List Create
  resolved : List Resolved
  remotes : List BuildConnectionToPeerRemote

namespace Node

/-- Where the user or the program takes the handle to open a stream from. -/
inductive Source where
  | context (index : Nat)
  | stream (index : Nat)
  | registry (peer : PeerIdentifier)
  deriving DecidableEq, Repr

inductive Event where
  | verify (handshake : Handshake)
  | accept (id : ConnectionId)
  | terminate (number : Nat)
  | incomingStream (number : Nat) (timeout : TimeoutPoll) (message : Poll (Option StreamHello))
  | remote (index : Nat) (message : Poll (Option BuildConnectionToPeerProtocol)) (sent : SendPoll)
      (interfaces : List IpAddr) (localAddr : SocketAddr)
  | newStream (source : Source)
  | pollNewStream (index : Nat) (opened flushed : Poll Unit)
  | connect (purpose : Purpose) (strategies : Nat) (addr : SocketAddr)
  | pollConnect (index : Nat) (timeout : TimeoutPoll) (transport : Poll ConnectionId)
      (opened flushed : Poll Unit)
  | findPeerRequest (create : Nat) (isCanceled : Bool) (sent : SendPoll)
  | registryMessage (message : RegistryProtocol)
  | disconnect
  | create (peer : PeerIdentifier)
  /-- `completion` is the provider future that is done: with no answer, or with one of the
  results delivered to this call. `attempt` is the connection attempt that is done. -/
  | pollCreate (index : Nat) (completion : Option (Nat × Option Nat))
      (attempt : Option (Nat × Poll ConnectionId)) (opened flushed : Poll Unit)
      (message : Poll (Option BuildConnectionToPeerProtocol)) (sent : SendPoll)
      (timeout : TimeoutPoll) (interfaces : List IpAddr) (localAddr : SocketAddr)

def init (localPeerIdentifier : PeerIdentifier) (authenticator : Authenticator)
    (registries : List RegistryProvider) : Node :=
  ⟨Connections.init localPeerIdentifier authenticator registries, [], [], [], [], [], none, [], [],
    [], []⟩

def localPeerIdentifier (s : Node) : PeerIdentifier := s.connections.localPeerIdentifier

def newConnection (s : Node) (id : ConnectionId) : Except Error Connection × Node :=
  let key := (s.connections.authenticator.incomingConPubKey id).1
  let result := s.connections.newConnection id
  (result.1, { s with connections := result.2, keys := s.keys ++ key.toList })

/-- `NewConnectionFuture::poll`. -/
def pollNewConnection (s : Node) (transport : Poll ConnectionId) : Poll Connection × Node :=
  match transport with
  | .notReady => (.notReady, s)
  | .error reason => (.error reason, s)
  | .ready id =>
      let result := s.newConnection id
      match result.1 with
      | .ok connection => (.ready connection, result.2)
      | .error reason => (.error reason, result.2)

def incomingStream (s : Node) (number : Nat) (timeout : TimeoutPoll)
    (message : Poll (Option StreamHello)) : Node :=
  match s.connections.connections[number]? with
  | none => s
  | some connection =>
      match (connection.incomingStream.poll timeout message).2 with
      | .passStream stream => { s with context := s.context ++ [stream] }
      | .buildConnectionToPeerRemote remote => { s with remotes := s.remotes ++ [remote] }
      | _ => s

def remote (s : Node) (index : Nat) (message : Poll (Option BuildConnectionToPeerProtocol))
    (sent : SendPoll) (interfaces : List IpAddr) (localAddr : SocketAddr) : Node :=
  match s.remotes[index]? with
  | none => s
  | some remote =>
      let result := remote.step message sent interfaces localAddr
      let s := { s with context := s.context ++ result.2.passed.toList }
      match result.1 with
      | .notReady => s
      | .transition next => { s with remotes := s.remotes.set index next }
      | _ => { s with remotes := s.remotes.eraseIdx index }

def source (s : Node) : Source → Option NewStreamHandle
  | .context index => (s.context[index]?).map Stream.newStreamHandle
  | .stream index => (s.streams[index]?).map Stream.newStreamHandle
  | .registry peer => s.connections.registry.peer peer

def newStream (s : Node) (from_ : Source) : Node :=
  match s.source from_ with
  | none => s
  | some handle => { s with opening := s.opening ++ [handle.newStream] }

def pollNewStream (s : Node) (index : Nat) (opened flushed : Poll Unit) : Node :=
  match s.opening[index]? with
  | none => s
  | some future =>
      match future.poll opened flushed with
      | .ok .notReady => s
      | .ok (.ready stream) =>
          { s with opening := s.opening.eraseIdx index, streams := s.streams ++ [stream] }
      | _ => { s with opening := s.opening.eraseIdx index }

/-- The hello of a connection made for the given purpose. -/
def helloFor (s : Node) : Purpose → StreamHello
  | .remoteRegistry => .registry
  | .fulfillRequest _ => .user s.localPeerIdentifier

/-- The mDNS registry connects only for a request it has received. -/
def wanted (s : Node) : Purpose → Bool
  | .remoteRegistry => true
  | .fulfillRequest create => create < s.creates.length

def connect (s : Node) (purpose : Purpose) (strategies : Nat) (addr : SocketAddr) : Node :=
  match s.wanted purpose, ConnectWithStrategies.new strategies addr (s.helloFor purpose) with
  | true, .ok machine => { s with connects := s.connects ++ [(purpose, machine)] }
  | _, _ => s

/-- A connection that has been made goes to whoever asked for it. -/
def connected (s : Node) (purpose : Purpose) (stream : Stream) : Node :=
  let s := { s with streams := s.streams ++ [stream] }
  match purpose with
  | .remoteRegistry => { s with outgoing := some (Remote.OutgoingStream.new stream) }
  | .fulfillRequest create =>
      { s with results := s.results ++ [(create, .mdnsRegistry, .found stream)] }

/-- The transport connection is polled only by the handler that waits for it, and only when the
timeout has not fired. -/
def pollConnect (s : Node) (index : Nat) (timeout : TimeoutPoll) (transport : Poll ConnectionId)
    (opened flushed : Poll Unit) : Node :=
  match s.connects[index]? with
  | none => s
  | some (purpose, machine) =>
      let polled :=
        if machine.connect = some .waitForConnection ∧ timeout = .notReady then
          s.pollNewConnection transport
        else (.notReady, s)
      let s := polled.2
      match machine.step ⟨timeout, polled.1, opened, flushed⟩ with
      | .notReady => s
      | .transition next => { s with connects := s.connects.set index (purpose, next) }
      | .ready stream =>
          { s with connects := s.connects.eraseIdx index }.connected purpose stream
      | _ => { s with connects := s.connects.eraseIdx index }

/-- The remote registry's answers reach the calls that asked. -/
def completedBy (s : Node) (effect : Remote.OutgoingStream.Effect) : Node :=
  { s with results := s.results ++
    effect.completed.map (fun done => (done.1, RegistryProvider.remoteRegistry, done.2)) }

def findPeerRequest (s : Node) (create : Nat) (isCanceled : Bool) (sent : SendPoll) : Node :=
  match s.outgoing, s.creates[create]? with
  | some outgoing, some call =>
      match outgoing.findPeerRequest call.peer create isCanceled sent with
      | (.transition next, effect) => { s with outgoing := some next }.completedBy effect
      | (_, effect) => { s with outgoing := none }.completedBy effect
  | _, _ => s

def registryMessage (s : Node) (message : RegistryProtocol) : Node :=
  match s.outgoing with
  | none => s
  | some outgoing =>
      let result := outgoing.message message
      { s with outgoing := some result.1 }.completedBy result.2

def create (s : Node) (peer : PeerIdentifier) : Node :=
  { s with creates := s.creates ++
    [⟨peer, some (CreateConnectionToPeer.new s.connections.registry peer)⟩] }

/-- The answer a provider future of a call completes with. -/
def providerAnswer (s : Node) (index : Nat) (stage : CreateConnectionToPeer)
    (completion : Option (Nat × Option Nat)) : Option (Nat × Except Unit RegistryResult) :=
  match completion, stage with
  | some (future, none), _ => some (future, .error ())
  | some (future, some delivered), .findPeer (.searchRemoteRegistries futures) =>
      match s.results[delivered]?, futures[future]? with
      | some (call, provider, result), some asked =>
          if call = index ∧ provider = asked then some (future, .ok result) else none
      | _, _ => none
  | _, _ => none

/-- The connection attempts are polled only while the machine waits for them and the timeout has
not fired. -/
def pollAttempt (s : Node) (stage : CreateConnectionToPeer) (timeout : TimeoutPoll)
    (attempt : Option (Nat × Poll ConnectionId)) :
    Option (Nat × Except Error Connection) × Node :=
  match stage, timeout, attempt with
  | .buildConnectionToPeer (.waitingForConnection newCons _ _ _ _), .notReady,
      some (index, transport) =>
      if index < newCons.length then
        let polled := s.pollNewConnection transport
        match polled.1 with
        | .notReady => (none, polled.2)
        | .ready connection => (some (index, .ok connection), polled.2)
        | .error reason => (some (index, .error reason), polled.2)
      else (none, s)
  | _, _, _ => (none, s)

/-- The connection that a stage has made for its call, when it opens its stream on one. -/
def dialled : CreateConnectionToPeer → Stream → Option Nat
  | .findPeer _, stream => some stream.stream.con
  | .newStream _, _ => none
  | .buildConnectionToPeer (.waitingForStream newStream _ _ _), _ => some newStream.newStream.con
  | .buildConnectionToPeer _, _ => none

def pollCreate (s : Node) (index : Nat) (completion : Option (Nat × Option Nat))
    (attempt : Option (Nat × Poll ConnectionId)) (opened flushed : Poll Unit)
    (message : Poll (Option BuildConnectionToPeerProtocol)) (sent : SendPoll)
    (timeout : TimeoutPoll) (interfaces : List IpAddr) (localAddr : SocketAddr) : Node :=
  match s.creates[index]? with
  | some ⟨peer, some stage⟩ =>
      let answer := s.providerAnswer index stage completion
      let polled := s.pollAttempt stage timeout attempt
      let s := polled.2
      let answers : BuildAnswers :=
        ⟨opened, flushed, message, sent, timeout, polled.1, interfaces, localAddr⟩
      match stage.step s.localPeerIdentifier peer answer answers with
      | .notReady => s
      | .transition next => { s with creates := s.creates.set index ⟨peer, some next⟩ }
      | .ready stream => { s with
          creates := s.creates.set index ⟨peer, none⟩
          streams := s.streams ++ [stream]
          resolved := s.resolved ++ [⟨peer, stream, dialled stage stream⟩] }
      | _ => { s with creates := s.creates.set index ⟨peer, none⟩ }
  | _ => s

def step (s : Node) : Event → Node
  | .verify handshake => { s with connections := s.connections.verify handshake }
  | .accept id => (s.newConnection id).2
  | .terminate number => { s with connections := s.connections.terminate number }
  | .incomingStream number timeout message => s.incomingStream number timeout message
  | .remote index message sent interfaces localAddr =>
      s.remote index message sent interfaces localAddr
  | .newStream from_ => s.newStream from_
  | .pollNewStream index opened flushed => s.pollNewStream index opened flushed
  | .connect purpose strategies addr => s.connect purpose strategies addr
  | .pollConnect index timeout transport opened flushed =>
      s.pollConnect index timeout transport opened flushed
  | .findPeerRequest create isCanceled sent => s.findPeerRequest create isCanceled sent
  | .registryMessage message => s.registryMessage message
  | .disconnect => { s with outgoing := none }
  | .create peer => s.create peer
  | .pollCreate index completion attempt opened flushed message sent timeout interfaces
      localAddr =>
      s.pollCreate index completion attempt opened flushed message sent timeout interfaces localAddr

end Node

end HolePunch
