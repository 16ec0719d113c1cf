import HolePunch.Library.SendAll
import HolePunch.WireBytes

set_option autoImplicit false

/- A stream that is relayed: A opens it to the peer in the middle, which opens one to B and copies
between the two (`handle_proxy_stream` of `incoming_stream.rs`). -/
namespace HolePunch

open LengthDelimited (Bytes frame)

namespace Relay

/-- What does not change: the serialisation of the hellos, and the tasks that serve the incoming
streams of the peer in the middle and of B. -/
structure Setting where
  json : Json StreamHello
  middle : IncomingStream
  target : IncomingStream

inductive Direction where
  | toA
  | toB
  deriving DecidableEq, Repr

/-- Why the relay is over. `failed` is an error, a panic, or a hello that asks for nothing the peer
relays; `finished` names the direction whose stream has ended, with what `poll_complete` of its
sink has answered last. -/
inductive Cause where
  | failed
  | finished (direction : Direction) (completed : Poll Unit)
  deriving DecidableEq, Repr

/-- The task of the peer in the middle. The items are those buffered by the two `send_all`. -/
inductive Middle where
  | incoming
  | opening (future : NewStreamFuture)
  | relaying (toA toB : Option Bytes)
  | ended (cause : Cause)
  deriving DecidableEq, Repr

end Relay

/-- `up` is the stream between A and the peer in the middle, `down` the one between that peer and
B. `context` is the stream that B's context was given. -/
structure Relay where
  up : Wire
  down : Option Wire
  middle : Relay.Middle
  context : Option Stream
  deriving DecidableEq, Repr

namespace Relay

/-- The users of the two ends, the transport, and the tasks of the peer in the middle and of B take
their turns in any order. `fail` is an error of the transport or of the runtime in the middle. -/
inductive Event where
  | userA (act : Wire.Act)
  | userB (act : Wire.Act)
  | carryUp (count : Nat) (way : Wire.Way)
  | carryDown (count : Nat) (way : Wire.Way)
  | pollMiddle (timeout : TimeoutPoll) (room : Nat) (registry : Registry)
  | opened (flush : Poll Unit)
  | relay (direction : Direction) (answer : SendPoll) (flush : Poll Unit)
  | fail
  | pollTarget (timeout : TimeoutPoll) (room : Nat)

def start (up : Wire) : Relay := ⟨up, none, .incoming, none⟩

/-- The task is over, and drops both streams. -/
def finish (s : Relay) (cause : Cause) : Relay :=
  { s with up := s.up.closeFar, down := s.down.map Wire.closeNear, middle := .ended cause }

/-- A turn of polling the incoming stream. The peer looks up the target in its registry. -/
def pollMiddle (setting : Setting) (s : Relay) (timeout : TimeoutPoll) (room : Nat)
    (registry : Registry) : Relay :=
  match s.up.pollIncoming setting.json setting.middle timeout room with
  | (.nothing, up) =>
      if up.farClosed then { s with up := up }.finish .failed else { s with up := up }
  | (.handleProxyStream target _ helloMsg false, up) =>
      match handleProxyStream registry target helloMsg with
      | some future => { s with up := up, middle := .opening future }
      | none => { s with up := up }.finish .failed
  | (_, up) => { s with up := up }.finish .failed

/-- One turn of the `send_all` to B. The `close` of the sink is its `poll_complete`. -/
def copyToB (up down : Wire) (buffered : Option Bytes) (answer : SendPoll) (flush : Poll Unit) :
    SendAll.Turn Error × SendAll.State Bytes Wire Wire :=
  SendAll.turn Wire.pollFar (fun wire item => wire.sendNear item answer) flush flush
    ⟨buffered, up, down⟩

def copyToA (up down : Wire) (buffered : Option Bytes) (answer : SendPoll) (flush : Poll Unit) :
    SendAll.Turn Error × SendAll.State Bytes Wire Wire :=
  SendAll.turn Wire.pollNear (fun wire item => wire.sendFar item answer) flush flush
    ⟨buffered, down, up⟩

/-- `select`: the relay is over with the first direction that is done or fails. -/
def selected (s : Relay) (direction : Direction) (flush : Poll Unit) (turn : SendAll.Turn Error) :
    Relay :=
  match turn with
  | .again => s
  | .notReady => s
  | .ready => s.finish (.finished direction flush)
  | .error _ => s.finish .failed

def relay (s : Relay) (down : Wire) (toA toB : Option Bytes) (direction : Direction)
    (answer : SendPoll) (flush : Poll Unit) : Relay :=
  match direction with
  | .toB =>
      let copied := copyToB s.up down toB answer flush
      let next := { s with
        up := copied.2.stream, down := some copied.2.sink,
        middle := .relaying toA copied.2.buffered }
      next.selected .toB flush copied.1
  | .toA =>
      let copied := copyToA s.up down toA answer flush
      let next := { s with
        up := copied.2.sink, down := some copied.2.stream,
        middle := .relaying copied.2.buffered toB }
      next.selected .toA flush copied.1

def pollTarget (setting : Setting) (s : Relay) (down : Wire) (timeout : TimeoutPoll) (room : Nat) :
    Relay :=
  match down.pollIncoming setting.json setting.target timeout room with
  | (.passStream stream, down) => { s with down := some down, context := some stream }
  | (_, down) => { s with down := some down }

def step (setting : Setting) (s : Relay) : Event → Relay
  | .userA act => { s with up := s.up.actNear act }
  | .userB act =>
      match s.context with
      | some _ => { s with down := s.down.map (fun down => down.actFar act) }
      | none => s
  | .carryUp count way => { s with up := s.up.carry count way }
  | .carryDown count way => { s with down := s.down.map (fun down => down.carry count way) }
  | .pollMiddle timeout room registry =>
      match s.middle with
      | .incoming => pollMiddle setting s timeout room registry
      | _ => s
  | .opened flush =>
      match s.middle with
      | .opening future =>
          match Wire.new (setting.json.encode future.streamHello) flush with
          | .ok down => { s with down := some down, middle := .relaying none none }
          | .error _ => s.finish .failed
      | _ => s
  | .relay direction answer flush =>
      match s.middle, s.down with
      | .relaying toA toB, some down => s.relay down toA toB direction answer flush
      | _, _ => s
  | .fail =>
      match s.middle with
      | .ended _ => s
      | _ => s.finish .failed
  | .pollTarget timeout room =>
      match s.down with
      | some down => pollTarget setting s down timeout room
      | none => s

def writtenByA (s : Relay) : Bytes := s.up.nearWritten

def writtenByB (s : Relay) : Bytes := (s.down.map (fun down => down.far.sent)).getD []

def readableAtA (s : Relay) : Bytes := s.up.nearReadable

/-- Nothing can be read before B's context has the stream. -/
def readableAtB (s : Relay) : Bytes :=
  match s.context, s.down with
  | some _, some down => down.farReadable
  | _, _ => []

end Relay

end HolePunch
