import HolePunch.BuildConnection

set_option autoImplicit false

/- The streams a remote peer opens (`incoming_stream.rs`). -/
namespace HolePunch

structure IncomingStream where
  stream : Option Strategies.Stream
  peerIdentifier : PeerIdentifier
  newStreamHandle : NewStreamHandle
  deriving DecidableEq, Repr

namespace IncomingStream

def new (stream : Strategies.Stream) (peerIdentifier : PeerIdentifier)
    (newStreamHandle : NewStreamHandle) : IncomingStream :=
  ⟨some stream, peerIdentifier, newStreamHandle⟩

/-- What a hello makes the peer do. -/
inductive Effect where
  | nothing
  | passStream (stream : Stream)
  /-- `handle_proxy_stream` to the target with the given hello; `building` is set when both
  streams are first prepared for building a connection. -/
  | handleProxyStream (target : PeerIdentifier) (stream : Strategies.Stream)
      (helloMsg : StreamHello) (building : Bool)
  | registry (stream : Strategies.Stream)
  | buildConnectionToPeerRemote (remote : BuildConnectionToPeerRemote)
  deriving DecidableEq, Repr

def poll (s : IncomingStream) (timeout : TimeoutPoll) (message : Poll (Option StreamHello)) :
    Handled IncomingStream Unit × Effect :=
  match timeout with
  | .error => (.error (.custom "timeout at IncomingStream::poll()"), .nothing)
  | .notReady =>
      match s.stream with
      | none => (.panic "Can not be polled twice!", .nothing)
      | some stream =>
          match message with
          | .notReady => (.notReady, .nothing)
          | .error reason => (.error reason, .nothing)
          | .ready (some (.user peer)) =>
              let isProxyStream := decide (peer ≠ s.peerIdentifier)
              (.ready (), .passStream (Stream.new stream peer s.newStreamHandle isProxyStream))
          | .ready (some (.userProxy peer)) =>
              (.ready (), .handleProxyStream peer stream (.user s.peerIdentifier) false)
          | .ready (some .registry) => (.ready (), .registry stream)
          | .ready (some (.buildConnectionToPeer peer)) =>
              (.ready (), .buildConnectionToPeerRemote
                (BuildConnectionToPeerRemote.new stream peer s.newStreamHandle))
          | .ready (some (.proxyBuildConnectionToPeer peer)) =>
              (.ready (), .handleProxyStream peer stream
                (.buildConnectionToPeer s.peerIdentifier) true)
          | .ready none => (.ready (), .nothing)

/-- A proxied connection is built only for a hello that asks for it, and it is announced under the
identity of the connection. -/
theorem poll_proxyBuild {s : IncomingStream} {timeout : TimeoutPoll}
    {message : Poll (Option StreamHello)} {result : Handled IncomingStream Unit}
    {target : PeerIdentifier} {stream : Strategies.Stream} {helloMsg : StreamHello}
    (polled : s.poll timeout message = (result, .handleProxyStream target stream helloMsg true)) :
    message = .ready (some (.proxyBuildConnectionToPeer target)) ∧
      helloMsg = .buildConnectionToPeer s.peerIdentifier := by
  unfold poll at polled
  split at polled
  · cases polled
  · split at polled
    · cases polled
    · split at polled <;> cases polled
      exact ⟨rfl, rfl⟩

theorem poll_buildRemote {s : IncomingStream} {timeout : TimeoutPoll}
    {message : Poll (Option StreamHello)} {result : Handled IncomingStream Unit}
    {remote : BuildConnectionToPeerRemote}
    (polled : s.poll timeout message = (result, .buildConnectionToPeerRemote remote)) :
    ∃ stream peer, message = .ready (some (.buildConnectionToPeer peer)) ∧
      remote = BuildConnectionToPeerRemote.new stream peer s.newStreamHandle := by
  unfold poll at polled
  split at polled
  · cases polled
  · split at polled
    · cases polled
    · rename_i stream held
      split at polled <;> cases polled
      rename_i peer
      exact ⟨stream, peer, rfl, rfl⟩

theorem poll_notReady {s : IncomingStream} {timeout : TimeoutPoll}
    {message : Poll (Option StreamHello)} {effect : Effect}
    (polled : s.poll timeout message = (.notReady, effect)) : message = .notReady := by
  unfold poll at polled
  split at polled
  · cases polled
  · split at polled
    · cases polled
    · split at polled <;> cases polled
      rfl

/-- Something is done only for a hello that has come. -/
theorem poll_served {s : IncomingStream} {timeout : TimeoutPoll}
    {message : Poll (Option StreamHello)} {effect : Effect}
    (polled : s.poll timeout message = (.ready (), effect)) (serves : effect ≠ .nothing) :
    ∃ hello, message = .ready (some hello) := by
  unfold poll at polled
  split at polled
  · cases polled
  · split at polled
    · cases polled
    · split at polled <;> cases polled
      · exact ⟨_, rfl⟩
      · exact ⟨_, rfl⟩
      · exact ⟨_, rfl⟩
      · exact ⟨_, rfl⟩
      · exact ⟨_, rfl⟩
      · exact absurd rfl serves

end IncomingStream

/-- The stream the peer in the middle opens to the target, if it has a connection to it. -/
def handleProxyStream (registry : Registry) (target : PeerIdentifier) (helloMsg : StreamHello) :
    Option NewStreamFuture :=
  (registry.peer target).map (fun handle => handle.newStreamWithHello helloMsg)

/-- The streams the remote peer opens on a connection are handled with the connection's own
identity and handle. -/
def Connection.incomingStream (connection : Connection) : IncomingStream :=
  IncomingStream.new ⟨connection.con.con⟩ connection.peerIdentifier connection.newStreamHandle

end HolePunch
