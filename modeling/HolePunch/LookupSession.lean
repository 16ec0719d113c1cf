import HolePunch.Registries.Remote
import HolePunch.Library.Transition

set_option autoImplicit false

/- Lookups of a remote registry: the client's stream and the server's, joined by two channels that
keep the order of the messages, with the requests that outlive a connection and what happened so
far. One event is one turn of a loop of either side. -/
namespace HolePunch.Remote

abbrev Requests := PeerIdentifier → Option (List ResultSender)

/-- The connection of the moment. The channels hold what is buffered or on its way. -/
structure Link where
  number : Nat
  client : OutgoingStream
  serverOpen : Bool
  toServer : List RegistryProtocol
  toClient : List RegistryProtocol

/-- A request is answered through the sender that is numbered by its place among all requests.
The lists after `link` are a record: who was asked for, which requests the connections have taken,
whom each connection led to, what was sent and evaluated on it and which senders it completed, and
the tables that were dropped with their connections. -/
structure LookupSession where
  findPeerRequest : List (PeerIdentifier × ResultSender)
  canceled : List ResultSender
  link : Option Link
  asked : List PeerIdentifier
  taken : List (PeerIdentifier × ResultSender)
  connected : List PeerIdentifier
  finds : List (Nat × PeerIdentifier)
  evaluated : List (Nat × PeerIdentifier × Bool)
  completed : List (Nat × ResultSender × RegistryResult)
  discarded : List Requests

namespace LookupSession

inductive Event where
  | request (peer : PeerIdentifier)
  | cancel (sender : ResultSender)
  | connect (stream : Stream)
  | takeRequest (send : SendPoll)
  | ping (send : SendPoll)
  | clientReads
  /-- `completes` tells whether `poll_complete` after the answer succeeds. -/
  | serverReads (registry : Registry) (send : SendPoll) (completes : Bool)
  | serverEnds
  /-- The stream of the client ends or fails, or no pong has come in time. -/
  | clientEnds

def init : LookupSession := ⟨[], [], none, [], [], [], [], [], [], []⟩

/-- The peers that messages ask for. -/
def asksFor : RegistryProtocol → Option PeerIdentifier
  | .find peer => some peer
  | _ => none

/-- The client goes on, after it has sent messages and completed senders. -/
def proceed (s : LookupSession) (link : Link) (effect : OutgoingStream.Effect) : LookupSession :=
  { s with
    link := some { link with toServer := link.toServer ++ effect.sent }
    finds := s.finds ++ (effect.sent.filterMap asksFor).map (fun peer => (link.number, peer))
    completed := s.completed ++ effect.completed.map (fun done => (link.number, done)) }

/-- The handler keeps the receiver of the requests and drops the rest of the connection. -/
def discard (s : LookupSession) (requests : Requests) : LookupSession :=
  { s with link := none, discarded := s.discarded ++ [requests] }

def takeRequest (s : LookupSession) (send : SendPoll) : LookupSession :=
  match s.link, s.findPeerRequest with
  | some link, (peer, sender) :: rest =>
      let s := { s with findPeerRequest := rest, taken := s.taken ++ [(peer, sender)] }
      match link.client.findPeerRequest peer sender (decide (sender ∈ s.canceled)) send with
      | (.transition client, effect) => s.proceed { link with client := client } effect
      -- the entry is inserted before the send that fails
      | _ => s.discard (Function.update link.client.requests peer (some [sender]))
  | _, _ => s

def clientReads (s : LookupSession) : LookupSession :=
  match s.link with
  | none => s
  | some link =>
      match link.toClient with
      | [] => s
      | message :: rest =>
          let answered := link.client.message message
          s.proceed { link with client := answered.1, toClient := rest } answered.2

/-- What the server has looked up for a message. -/
def lookup (registry : Registry) (number : Nat) :
    RegistryProtocol → List (Nat × PeerIdentifier × Bool)
  | .find peer => [(number, peer, registry.hasPeer peer)]
  | _ => []

/-- The server sends its answer, if there is one. It drops an answer that the sink refuses, and
ends when the sink fails. -/
def answer (link : Link) (answer : Option RegistryProtocol) (send : SendPoll)
    (completes : Bool) : Link :=
  match answer, send with
  | none, _ => link
  | some _, .error _ => { link with serverOpen := false }
  | some _, .refused => { link with serverOpen := completes }
  | some message, .accepted =>
      { link with toClient := link.toClient ++ [message], serverOpen := completes }

def serverReads (s : LookupSession) (registry : Registry) (send : SendPoll) (completes : Bool) :
    LookupSession :=
  match s.link with
  | none => s
  | some link =>
      match link.serverOpen, link.toServer with
      | true, message :: rest => { s with
          link := some (answer { link with toServer := rest }
            (IncomingStream.answer registry message) send completes)
          evaluated := s.evaluated ++ lookup registry link.number message }
      | _, _ => s

def ping (s : LookupSession) (send : SendPoll) : LookupSession :=
  match s.link, send with
  | none, _ => s
  | some link, .accepted => s.proceed link { sent := [.ping] }
  | some _, .refused => s
  | some link, .error _ => s.discard link.client.requests

def step (s : LookupSession) : Event → LookupSession
  | .request peer => { s with
      findPeerRequest := s.findPeerRequest ++ [(peer, s.asked.length)]
      asked := s.asked ++ [peer] }
  | .cancel sender => { s with canceled := sender :: s.canceled }
  | .connect stream =>
      match s.link with
      | some _ => s
      | none => { s with
          link := some ⟨s.connected.length, OutgoingStream.new stream, true, [], []⟩
          connected := s.connected ++ [stream.peerIdentifier] }
  | .takeRequest send => s.takeRequest send
  | .ping send => s.ping send
  | .clientReads => s.clientReads
  | .serverReads registry send completes => s.serverReads registry send completes
  | .serverEnds =>
      match s.link with
      | none => s
      | some link => { s with link := some { link with serverOpen := false } }
  | .clientEnds =>
      match s.link with
      | none => s
      | some link => s.discard link.client.requests

end LookupSession

/-- The questions and answers about a peer that are under way on a connection. -/
def Link.underWay (link : Link) (peer : PeerIdentifier) : Nat :=
  link.toServer.count (.find peer) + link.toClient.count (.found peer) +
    link.toClient.count (.notFound peer)

end HolePunch.Remote
