import HolePunch.Library.Futures
import HolePunch.PubKey

set_option autoImplicit false

/- The messages peers exchange (`protocol.rs`) and the results of polling futures. -/
namespace HolePunch

inductive IpAddr where
  | v4 (addr : BitVec 32)
  | v6 (addr : BitVec 128)
  deriving DecidableEq, Repr

structure SocketAddr where
  ip : IpAddr
  port : UInt16
  deriving DecidableEq, Repr

/-- The first message sent by each `Stream` that defines its purpose. -/
inductive StreamHello where
  | user (peer : PeerIdentifier)
  | userProxy (peer : PeerIdentifier)
  | registry
  | buildConnectionToPeer (peer : PeerIdentifier)
  | proxyBuildConnectionToPeer (peer : PeerIdentifier)
  deriving DecidableEq, Repr

/-- The protocol of the streams that serve as registry providers. -/
inductive RegistryProtocol where
  | find (peer : PeerIdentifier)
  | notFound (peer : PeerIdentifier)
  | found (peer : PeerIdentifier)
  | ping
  | pong
  deriving DecidableEq, Repr

inductive BuildConnectionToPeerProtocol where
  | internetAddressInformation (addr : SocketAddr)
  | exchangeAddressInformation (addresses : List SocketAddr)
  | proxyConnection
  deriving DecidableEq, Repr

abbrev Poll := Futures.Poll Error

abbrev Handled := Futures.Handled Error

/-- What one poll of a `Timeout` can say: the future never becomes ready, it only fails. -/
inductive TimeoutPoll where
  | notReady
  | error
  deriving DecidableEq, Repr

/-- `start_send` followed by `poll_complete`: the sink takes the message, leaves it with the
caller, who drops it, or fails. -/
inductive SendPoll where
  | accepted
  | refused
  | error (reason : Error)
  deriving DecidableEq, Repr

def IpAddr.isLoopback : IpAddr → Bool
  | .v4 addr => addr.toNat / 2 ^ 24 == 127
  | .v6 addr => addr.toNat == 1

/-- The addresses of the local interfaces, with the port of the given local address. -/
def getInterfaceAddresses (interfaces : List IpAddr) (localAddr : SocketAddr) :
    List SocketAddr :=
  (interfaces.filter (fun ip => !ip.isLoopback)).map (fun ip => ⟨ip, localAddr.port⟩)

end HolePunch
