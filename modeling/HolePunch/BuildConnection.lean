import HolePunch.Connection

set_option autoImplicit false

/- Building a connection between two peers through a third one
(`build_connection_to_peer.rs`). -/
namespace HolePunch

/-- The initiating side, one constructor per waiting state. The timeout and the handle for new
connections are the environment's; `newCons` holds the addresses still being tried. -/
inductive BuildConnectionToPeer where
  | waitingForProxyStream (proxyStream : NewStreamFuture) (newStreamHandle : NewStreamHandle)
      (peerIdentifier localPeerIdentifier : PeerIdentifier)
  | waitingForInternetAddressInformation (proxyStream : Strategies.Stream)
      (newStreamHandle : NewStreamHandle) (peerIdentifier localPeerIdentifier : PeerIdentifier)
  | waitingForExchangeAddressInformation (proxyStream : Strategies.Stream)
      (newStreamHandle : NewStreamHandle) (peerIdentifier localPeerIdentifier : PeerIdentifier)
  | waitingForConnection (newCons : List SocketAddr) (proxyStream : Strategies.Stream)
      (newStreamHandle : NewStreamHandle) (peerIdentifier localPeerIdentifier : PeerIdentifier)
  | waitingForStream (newStream : NewStreamFuture) (proxyStream : Strategies.Stream)
      (newStreamHandle : NewStreamHandle) (peerIdentifier : PeerIdentifier)
  | proxyStream (proxyStream : Strategies.Stream) (newStreamHandle : NewStreamHandle)
      (peerIdentifier : PeerIdentifier)
  deriving DecidableEq, Repr

/-- What the futures the machine waits for answer when a handler polls them, and what it reads
of the local host. `attempt` names the connection attempt that is done, if any, with its
result. -/
structure BuildAnswers where
  opened : Poll Unit
  flushed : Poll Unit
  message : Poll (Option BuildConnectionToPeerProtocol)
  sent : SendPoll
  timeout : TimeoutPoll
  attempt : Option (Nat × Except Error Connection)
  interfaces : List IpAddr
  localAddr : SocketAddr

namespace BuildConnectionToPeer

def new (localPeerIdentifier peerIdentifier : PeerIdentifier)
    (newStreamHandle : NewStreamHandle) : BuildConnectionToPeer :=
  let proxyStream :=
    newStreamHandle.newStreamWithHello (.proxyBuildConnectionToPeer peerIdentifier)
  .waitingForProxyStream proxyStream newStreamHandle peerIdentifier localPeerIdentifier

/-- The result of a handler and the messages it has sent on the proxy stream. -/
abbrev Polled := Handled BuildConnectionToPeer Stream × List BuildConnectionToPeerProtocol

/-- Sends a message and goes on, unless the sink fails. -/
def sending (answers : BuildAnswers) (message : BuildConnectionToPeerProtocol)
    (next : Handled BuildConnectionToPeer Stream) : Polled :=
  match answers.sent with
  | .error reason => (.error reason, [])
  | .refused => (next, [])
  | .accepted => (next, [message])

def pollWaitingForProxyStream (proxyStream : NewStreamFuture) (newStreamHandle : NewStreamHandle)
    (peerIdentifier localPeerIdentifier : PeerIdentifier) (answers : BuildAnswers) : Polled :=
  match proxyStream.poll answers.opened answers.flushed with
  | .error message => (.panic message, [])
  | .ok .notReady => (.notReady, [])
  | .ok (.error reason) => (.error reason, [])
  | .ok (.ready stream) =>
      (.transition (.waitingForInternetAddressInformation stream.stream newStreamHandle
        peerIdentifier localPeerIdentifier), [])

def pollWaitingForInternetAddressInformation (proxyStream : Strategies.Stream)
    (newStreamHandle : NewStreamHandle) (peerIdentifier localPeerIdentifier : PeerIdentifier)
    (answers : BuildAnswers) : Polled :=
  match answers.message with
  | .notReady => (.notReady, [])
  | .error reason => (.error reason, [])
  | .ready none =>
      (.error (.custom "Stream closed while waiting for internet address information."), [])
  | .ready (some (.internetAddressInformation addr)) =>
      let addresses := getInterfaceAddresses answers.interfaces answers.localAddr ++ [addr]
      sending answers (.exchangeAddressInformation addresses)
        (.transition (.waitingForExchangeAddressInformation proxyStream newStreamHandle
          peerIdentifier localPeerIdentifier))
  | .ready (some _) =>
      (.error (.custom
        "Received illegal message while waiting for internet address information"), [])

def pollWaitingForExchangeAddressInformation (proxyStream : Strategies.Stream)
    (newStreamHandle : NewStreamHandle) (peerIdentifier localPeerIdentifier : PeerIdentifier)
    (answers : BuildAnswers) : Polled :=
  match answers.message with
  | .notReady => (.notReady, [])
  | .error reason => (.error reason, [])
  | .ready none =>
      (.error (.custom "Stream closed while waiting for exchange address information."), [])
  | .ready (some (.exchangeAddressInformation addresses)) =>
      (.transition (.waitingForConnection addresses proxyStream newStreamHandle peerIdentifier
        localPeerIdentifier), [])
  | .ready (some _) =>
      (.error (.custom
        "Received illegal message while waiting for exchange address information"), [])

def pollWaitingForConnection (newCons : List SocketAddr) (proxyStream : Strategies.Stream)
    (newStreamHandle : NewStreamHandle) (peerIdentifier localPeerIdentifier : PeerIdentifier)
    (answers : BuildAnswers) : Polled :=
  match answers.timeout with
  | .error => (.transition (.proxyStream proxyStream newStreamHandle peerIdentifier), [])
  | .notReady =>
      match (Futures.pollUnordered newCons answers.attempt).2 with
      | .ready (some newCon) =>
          let newStream := newCon.newStreamWithHello (.user localPeerIdentifier)
          (.transition (.waitingForStream newStream proxyStream newStreamHandle peerIdentifier), [])
      | .error _ => (.transition (.proxyStream proxyStream newStreamHandle peerIdentifier), [])
      | .ready none => (.transition (.proxyStream proxyStream newStreamHandle peerIdentifier), [])
      | .notReady => (.notReady, [])

def pollWaitingForStream (newStream : NewStreamFuture) (proxyStream : Strategies.Stream)
    (newStreamHandle : NewStreamHandle) (peerIdentifier : PeerIdentifier)
    (answers : BuildAnswers) : Polled :=
  match newStream.poll answers.opened answers.flushed with
  | .error message => (.panic message, [])
  | .ok (.ready stream) => (.ready stream, [])
  | .ok (.error _) => (.transition (.proxyStream proxyStream newStreamHandle peerIdentifier), [])
  | .ok .notReady => (.notReady, [])

def pollProxyStream (proxyStream : Strategies.Stream) (newStreamHandle : NewStreamHandle)
    (peerIdentifier : PeerIdentifier) (answers : BuildAnswers) : Polled :=
  sending answers .proxyConnection
    (.ready (Stream.new proxyStream peerIdentifier newStreamHandle true))

/-- One handler call. A poll of the future calls handlers until one is not ready. -/
def step (state : BuildConnectionToPeer) (answers : BuildAnswers) : Polled :=
  match state with
  | .waitingForProxyStream proxy handle peer localPeer =>
      pollWaitingForProxyStream proxy handle peer localPeer answers
  | .waitingForInternetAddressInformation proxy handle peer localPeer =>
      pollWaitingForInternetAddressInformation proxy handle peer localPeer answers
  | .waitingForExchangeAddressInformation proxy handle peer localPeer =>
      pollWaitingForExchangeAddressInformation proxy handle peer localPeer answers
  | .waitingForConnection newCons proxy handle peer localPeer =>
      pollWaitingForConnection newCons proxy handle peer localPeer answers
  | .waitingForStream newStream proxy handle peer =>
      pollWaitingForStream newStream proxy handle peer answers
  | .proxyStream proxy handle peer => pollProxyStream proxy handle peer answers

end BuildConnectionToPeer

/-- The side that is asked for a connection. -/
structure BuildConnectionToPeerRemote where
  stream : Option Strategies.Stream
  internetAddr : Option SocketAddr
  peerIdentifier : PeerIdentifier
  newStreamHandle : NewStreamHandle
  deriving DecidableEq, Repr

namespace BuildConnectionToPeerRemote

def new (stream : Strategies.Stream) (peerIdentifier : PeerIdentifier)
    (newStreamHandle : NewStreamHandle) : BuildConnectionToPeerRemote :=
  ⟨some stream, none, peerIdentifier, newStreamHandle⟩

/-- What one turn of the poll loop does besides moving on: the answers it sends, the addresses it
opens a port for, and the stream it passes to the context. -/
structure Effect where
  sent : List BuildConnectionToPeerProtocol := []
  poked : List SocketAddr := []
  passed : Option Stream := none
  deriving DecidableEq, Repr

/-- One turn of the poll loop, for the message the stream gives. A transition goes on polling. -/
def step (s : BuildConnectionToPeerRemote) (message : Poll (Option BuildConnectionToPeerProtocol))
    (sent : SendPoll) (interfaces : List IpAddr) (localAddr : SocketAddr) :
    Handled BuildConnectionToPeerRemote Unit × Effect :=
  match s.stream with
  | none => (.panic "Can not be polled twice!", {})
  | some stream =>
      match message with
      | .notReady => (.notReady, {})
      | .error reason => (.error reason, {})
      | .ready (some (.internetAddressInformation addr)) =>
          (.transition { s with internetAddr := some addr }, {})
      | .ready (some (.exchangeAddressInformation remoteAddresses)) =>
          match s.internetAddr with
          | none => (.panic "Internet address should already be set!", {})
          | some internetAddr =>
              let addresses := getInterfaceAddresses interfaces localAddr ++ [internetAddr]
              match sent with
              | .error reason => (.error reason, {})
              | .refused => (.transition s, { poked := remoteAddresses })
              | .accepted => (.transition s,
                  { sent := [.exchangeAddressInformation addresses], poked := remoteAddresses })
      | .ready (some .proxyConnection) =>
          (.ready (),
            { passed := some (Stream.new stream s.peerIdentifier s.newStreamHandle true) })
      | .ready none => (.ready (), {})

end BuildConnectionToPeerRemote

/-- The address of the other end, which the peer in the middle tells each of the two. -/
def prepareStreamForBuilding (peerAddr : SocketAddr) : BuildConnectionToPeerProtocol :=
  .internetAddressInformation peerAddr

end HolePunch
