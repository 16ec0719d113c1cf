import HolePunch.Protocol

set_option autoImplicit false

/- Streams, the handles that open new ones, and the identity each of them carries
(`stream.rs`). The transport's own objects are told apart by the connection they belong to;
`con` numbers the connections of one peer. The bytes a stream carries are modelled apart from
its identity. -/
namespace HolePunch

namespace Strategies

structure Stream where
  con : Nat
  deriving DecidableEq, Repr

structure NewStreamFuture where
  con : Nat
  deriving DecidableEq, Repr

structure NewStreamHandle where
  con : Nat
  deriving DecidableEq, Repr

/-- Opening a stream through a handle asks its own connection. -/
def NewStreamHandle.newStream (handle : NewStreamHandle) : NewStreamFuture := ⟨handle.con⟩

end Strategies

structure NewStreamHandle where
  peerIdentifier : PeerIdentifier
  localPeerIdentifier : PeerIdentifier
  newStreamHandle : Strategies.NewStreamHandle
  proxyStream : Bool
  deriving DecidableEq, Repr

structure NewStreamFuture where
  newStream : Strategies.NewStreamFuture
  newStreamHandle : NewStreamHandle
  streamHello : StreamHello
  peerIdentifier : PeerIdentifier
  deriving DecidableEq, Repr

structure Stream where
  stream : Strategies.Stream
  newStreamHandle : NewStreamHandle
  peerIdentifier : PeerIdentifier
  isProxyStream : Bool
  deriving DecidableEq, Repr

namespace NewStreamHandle

def new (peerIdentifier localPeerIdentifier : PeerIdentifier)
    (newStreamHandle : Strategies.NewStreamHandle) : NewStreamHandle :=
  ⟨peerIdentifier, localPeerIdentifier, newStreamHandle, false⟩

def setProxyStream (handle : NewStreamHandle) (proxy : Bool) (peerIdentifier : PeerIdentifier) :
    NewStreamHandle :=
  { handle with proxyStream := proxy, peerIdentifier := peerIdentifier }

def newStreamWithHello (handle : NewStreamHandle) (streamHello : StreamHello) : NewStreamFuture :=
  ⟨handle.newStreamHandle.newStream, handle, streamHello, handle.peerIdentifier⟩

def newStream (handle : NewStreamHandle) : NewStreamFuture :=
  let streamHello :=
    if handle.proxyStream then StreamHello.userProxy handle.peerIdentifier
    else StreamHello.user handle.localPeerIdentifier
  ⟨handle.newStreamHandle.newStream, handle, streamHello, handle.peerIdentifier⟩

end NewStreamHandle

namespace Stream

def new (stream : Strategies.Stream) (peerIdentifier : PeerIdentifier)
    (newStreamHandle : NewStreamHandle) (isProxyStream : Bool) : Stream where
  stream := stream
  newStreamHandle := newStreamHandle.setProxyStream isProxyStream peerIdentifier
  peerIdentifier := peerIdentifier
  isProxyStream := isProxyStream

def isP2p (stream : Stream) : Bool := !stream.isProxyStream

theorem isP2p_iff (stream : Stream) : stream.isP2p = true ↔ stream.isProxyStream = false := by
  simp only [isP2p, Bool.not_eq_true']

end Stream

namespace NewStreamFuture

/-- The identity and proxy flag that the hello implies for the opening side. -/
def identity (future : NewStreamFuture) : PeerIdentifier × Bool :=
  match future.streamHello with
  | .userProxy peer => (peer, true)
  | .proxyBuildConnectionToPeer peer => (peer, true)
  | _ => (future.peerIdentifier, false)

/-- The stream this future resolves to once the transport has opened one. -/
def stream (future : NewStreamFuture) : Stream :=
  Stream.new ⟨future.newStream.con⟩ future.identity.1 future.newStreamHandle future.identity.2

/-- One poll. `opened` is the transport's answer and `flushed` the result of `poll_complete` on
the fresh stream, which holds just the hello; `Except.error` is a panic of the task. -/
def poll (future : NewStreamFuture) (opened flushed : Poll Unit) : Except String (Poll Stream) :=
  match opened with
  | .notReady => .ok .notReady
  | .error reason => .ok (.error reason)
  | .ready () =>
      match flushed with
      | .error _ => .error "poll complete stream hello"
      | _ => .ok (.ready future.stream)

theorem poll_ready {future : NewStreamFuture} {opened flushed : Poll Unit} {result : Stream}
    (success : future.poll opened flushed = .ok (.ready result)) : result = future.stream := by
  unfold poll at success
  split at success
  · cases success
  · cases success
  · split at success
    · cases success
    · cases success
      rfl

theorem poll_error {future : NewStreamFuture} {opened flushed : Poll Unit} {reason : Error}
    (failed : future.poll opened flushed = .ok (.error reason)) : opened = .error reason := by
  unfold poll at failed
  split at failed
  · cases failed
  · cases failed
    rfl
  · split at failed <;> cases failed

end NewStreamFuture

end HolePunch
