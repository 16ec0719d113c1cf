import HolePunch.Registry

set_option autoImplicit false

/- The two ends of a registry stream (`registries/remote.rs`). -/
namespace HolePunch.Remote

/-- The sending half of the channel that carries the answer to one `find_peer`. -/
abbrev ResultSender := Nat

structure OutgoingStream where
  requests : PeerIdentifier → Option (List ResultSender)
  newStreamHandle : NewStreamHandle
  peerIdentifier : PeerIdentifier

namespace OutgoingStream

/-- The client takes over the stream it has opened, with its handle and its identity. -/
def new (stream : Stream) : OutgoingStream :=
  ⟨fun _ => none, stream.newStreamHandle, stream.peerIdentifier⟩

/-- What a step of the client does besides changing its table: the senders it completes and the
messages it sends. -/
structure Effect where
  completed : List (ResultSender × RegistryResult) := []
  sent : List RegistryProtocol := []

/-- One request of `poll_find_peer_request`. -/
def findPeerRequest (s : OutgoingStream) (peer : PeerIdentifier) (sender : ResultSender)
    (isCanceled : Bool) (send : SendPoll) : Handled OutgoingStream Unit × Effect :=
  if isCanceled then (.transition s, {})
  else if peer = s.peerIdentifier then
    (.transition s, { completed := [(sender, .foundWithHandle s.newStreamHandle)] })
  else match s.requests peer with
    | some senders =>
        (.transition { s with
          requests := Function.update s.requests peer (some (senders ++ [sender])) }, {})
    | none =>
        let s := { s with requests := Function.update s.requests peer (some [sender]) }
        match send with
        | .error reason => (.error reason, {})
        | .refused => (.transition s, {})
        | .accepted => (.transition s, { sent := [.find peer] })

/-- The answer of the server completes all requests for its peer. -/
def answered (s : OutgoingStream) (peer : PeerIdentifier) (result : RegistryResult) :
    OutgoingStream × Effect :=
  match s.requests peer with
  | none => (s, {})
  | some senders => ({ s with requests := Function.update s.requests peer none },
      { completed := senders.map (fun sender => (sender, result)) })

/-- One message of the server. The pong only moves the timer. -/
def message (s : OutgoingStream) : RegistryProtocol → OutgoingStream × Effect
  | .found peer => s.answered peer (.foundRemote s.newStreamHandle)
  | .notFound peer => s.answered peer .notFound
  | _ => (s, {})

end OutgoingStream

namespace IncomingStream

/-- The server's answer to one message of a client. -/
def answer (registry : Registry) : RegistryProtocol → Option RegistryProtocol
  | .find peer => some (if registry.hasPeer peer then .found peer else .notFound peer)
  | .ping => some .pong
  | _ => none

end IncomingStream

end HolePunch.Remote
