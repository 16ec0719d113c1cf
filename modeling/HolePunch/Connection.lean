import HolePunch.Authenticator
import HolePunch.Registry

set_option autoImplicit false

/- Authenticated connections and their registration (`connection.rs`). -/
namespace HolePunch

structure Strategies.Connection where
  connectionId : ConnectionId
  con : Nat
  deriving DecidableEq, Repr

def Strategies.Connection.getNewStreamHandle (con : Strategies.Connection) :
    Strategies.NewStreamHandle := ⟨con.con⟩

def Strategies.Connection.newStream (con : Strategies.Connection) :
    Strategies.NewStreamFuture := ⟨con.con⟩

structure Connection where
  con : Strategies.Connection
  newStreamHandle : NewStreamHandle
  peerIdentifier : PeerIdentifier
  registrationToken : RegistrationToken
  deriving DecidableEq, Repr

namespace Connection

/-- Takes the key the authenticator stored for the connection and registers the peer under it. -/
def new (con : Strategies.Connection) (localPeerIdentifier : PeerIdentifier)
    (registry : Registry) (authenticator : Authenticator) :
    Except Error Connection × Registry × Authenticator :=
  match authenticator.incomingConPubKey con.connectionId with
  | (none, authenticator) =>
      (.error (.custom "Could not find public key for connection!"), registry, authenticator)
  | (some peerIdentifier, authenticator) =>
      let newStreamHandle :=
        NewStreamHandle.new peerIdentifier localPeerIdentifier con.getNewStreamHandle
      let (registrationToken, registry) := registry.registerPeer peerIdentifier newStreamHandle
      (.ok ⟨con, newStreamHandle, peerIdentifier, registrationToken⟩, registry, authenticator)

def newStreamWithHello (connection : Connection) (streamHello : StreamHello) : NewStreamFuture :=
  ⟨connection.con.newStream, connection.newStreamHandle, streamHello, connection.peerIdentifier⟩

end Connection

/-- What a peer's connections share, and the connections themselves in the order of their
creation. A connection is known by its place in the list. -/
structure Connections where
  localPeerIdentifier : PeerIdentifier
  registry : Registry
  authenticator : Authenticator
  connections : List Connection
  terminated : List Nat

namespace Connections

def init (localPeerIdentifier : PeerIdentifier) (authenticator : Authenticator)
    (registries : List RegistryProvider) : Connections :=
  ⟨localPeerIdentifier, ⟨fun _ => none, registries⟩, authenticator, [], []⟩

def verify (s : Connections) (handshake : Handshake) : Connections :=
  { s with authenticator := (s.authenticator.verify handshake).2 }

/-- `Connection::new` for a transport connection that has just been established. -/
def newConnection (s : Connections) (id : ConnectionId) : Except Error Connection × Connections :=
  match Connection.new ⟨id, s.connections.length⟩ s.localPeerIdentifier s.registry
    s.authenticator with
  | (.ok connection, registry, authenticator) =>
      (.ok connection, { s with
        registry := registry
        authenticator := authenticator
        connections := s.connections ++ [connection] })
  | (.error reason, registry, authenticator) =>
      (.error reason, { s with registry := registry, authenticator := authenticator })

/-- The transport connection ends or fails, and `Connection::poll` completes. A connection that
has completed is not polled again. -/
def terminate (s : Connections) (number : Nat) : Connections :=
  match s.connections[number]? with
  | none => s
  | some connection =>
      if number ∈ s.terminated then s
      else { s with
        registry := s.registry.unregisterPeer connection.peerIdentifier
          connection.registrationToken
        terminated := number :: s.terminated }

/-- The connection that `Connection::new` makes of an authenticated transport connection. -/
def created (s : Connections) (id : ConnectionId) (key : PeerIdentifier) : Connection where
  con := ⟨id, s.connections.length⟩
  newStreamHandle := NewStreamHandle.new key s.localPeerIdentifier ⟨s.connections.length⟩
  peerIdentifier := key
  registrationToken := s.registry.nextToken key

/-- The state after a transport connection without a stored key has been dropped. -/
def refused (s : Connections) (id : ConnectionId) : Connections :=
  { s with authenticator := (s.authenticator.incomingConPubKey id).2 }

/-- The state after a connection to `key` has been registered. -/
def opened (s : Connections) (id : ConnectionId) (key : PeerIdentifier) : Connections :=
  { s.refused id with
    registry := ⟨Function.update s.registry.connectedPeers key
      (some ((s.created id key).newStreamHandle, s.registry.nextToken key)),
      s.registry.registries⟩
    connections := s.connections ++ [s.created id key] }

/-- All that `Connection::new` can do. -/
theorem newConnection_cases (s : Connections) (id : ConnectionId) :
    (s.authenticator.incomingConPubKeys id = none ∧
      s.newConnection id =
        (.error (.custom "Could not find public key for connection!"), s.refused id)) ∨
    ∃ key, s.authenticator.incomingConPubKeys id = some key ∧
      s.newConnection id = (.ok (s.created id key), s.opened id key) := by
  cases stored : s.authenticator.incomingConPubKeys id with
  | none =>
      apply Or.inl
      simp only [newConnection, Connection.new, Authenticator.incomingConPubKey, stored, refused,
        true_and]
  | some key =>
      refine Or.inr ⟨key, rfl, ?_⟩
      simp only [newConnection, Connection.new, Authenticator.incomingConPubKey, stored,
        Registry.registerPeer_eq]
      rfl

@[simp] theorem opened_connections (s : Connections) (id : ConnectionId) (key : PeerIdentifier) :
    (s.opened id key).connections = s.connections ++ [s.created id key] := rfl

theorem opened_entry (s : Connections) (id : ConnectionId) (key : PeerIdentifier) :
    (s.opened id key).registry.connectedPeers key =
      some ((s.created id key).newStreamHandle, s.registry.nextToken key) :=
  Function.update_self _ _ _

theorem opened_other (s : Connections) (id : ConnectionId) {key other : PeerIdentifier}
    (apart : other ≠ key) :
    (s.opened id key).registry.connectedPeers other = s.registry.connectedPeers other :=
  Function.update_of_ne apart _ _

end Connections

end HolePunch
