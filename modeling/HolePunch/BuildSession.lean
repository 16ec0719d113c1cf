import HolePunch.IncomingStream
import HolePunch.Library.Channel
import HolePunch.Library.LengthDelimited
import HolePunch.Library.Transition

set_option autoImplicit false

/- One run of building a connection: the initiating peer, the peer in the middle that relays
between the two, and the peer that is asked, with what is under way between them. -/
namespace HolePunch

open LengthDelimited (Bytes)

/-- What goes over the streams: hellos and messages, then the data of the users, and the end. -/
inductive Packet where
  | hello (hello : StreamHello)
  | message (message : BuildConnectionToPeerProtocol)
  | data (bytes : Bytes)
  | closed
  deriving DecidableEq, Repr

def Packet.asHello : Packet → Poll (Option StreamHello)
  | .hello given => .ready (some given)
  | .closed => .ready none
  | _ => .error .json

def Packet.asMessage : Packet → Poll (Option BuildConnectionToPeerProtocol)
  | .message given => .ready (some given)
  | .closed => .ready none
  | _ => .error .json

inductive Initiator where
  | running (machine : BuildConnectionToPeer)
  | built (stream : Stream)
  | failed (reason : Error)
  | panicked (message : String)
  | dropped
  deriving DecidableEq, Repr

/-- The peer in the middle: its incoming stream, the stream it opens to the peer that is asked,
and the relay between the two. -/
inductive Middle where
  | incoming
  | opening (future : NewStreamFuture)
  | relaying
  | ended
  deriving DecidableEq, Repr

inductive Asked where
  | incoming
  | building (remote : BuildConnectionToPeerRemote)
  | passed
  | ended
  | panicked (message : String)
  deriving DecidableEq, Repr

/-- Who takes part. `initiating` is the connection to the initiating peer as the peer in the middle
has authenticated it, `middle` the connection to the peer in the middle at the peer that is
asked. -/
structure Setup where
  localPeerIdentifier : PeerIdentifier
  target : PeerIdentifier
  newStreamHandle : NewStreamHandle
  initiating : Connection
  initiatingAddr : SocketAddr
  middle : Connection
  askedAddr : SocketAddr

structure BuildSession where
  initiator : Initiator
  middle : Middle
  asked : Asked
  toMiddle : Channel Packet
  toInitiator : Channel Packet
  toAsked : Channel Packet
  fromAsked : Channel Packet
  /-- The streams that the asked peer has passed to its context. -/
  context : List Stream
  deriving DecidableEq, Repr

/-- The states whose handler reads the proxy stream. -/
def BuildConnectionToPeer.reads : BuildConnectionToPeer → Bool
  | .waitingForInternetAddressInformation _ _ _ _ => true
  | .waitingForExchangeAddressInformation _ _ _ _ => true
  | _ => false

/-- The hello that the stream sends when it has been opened. -/
def BuildConnectionToPeer.hello : BuildConnectionToPeer → List Packet
  | .waitingForProxyStream proxy _ _ _ => [.hello proxy.streamHello]
  | _ => []

/-- A machine that ends with another stream drops its proxy stream. -/
def BuildConnectionToPeer.closes : BuildConnectionToPeer → List Packet
  | .proxyStream _ _ _ => []
  | _ => [.closed]

namespace BuildSession

def init (setup : Setup) : BuildSession where
  initiator := .running (BuildConnectionToPeer.new setup.localPeerIdentifier setup.target
    setup.newStreamHandle)
  middle := .incoming
  asked := .incoming
  toMiddle := .empty
  toInitiator := .empty
  toAsked := .empty
  fromAsked := .empty
  context := []

inductive Event where
  /-- A handler of the initiator. The sink accepts all it sends, and what it reads is what has
  arrived; the other answers are free. -/
  | initiate (answers : BuildAnswers)
  | drop
  | middle (timeout : TimeoutPoll) (registry : Registry) (opened flushed : Poll Unit)
  | relayToAsked
  | relayToInitiator
  | endRelay
  | asked (timeout : TimeoutPoll) (interfaces : List IpAddr) (localAddr : SocketAddr)
  | endAsked
  /-- The users of the streams send data or end them. -/
  | initiatorUser (packet : Option Bytes)
  | askedUser (packet : Option Bytes)

def readMessage (channel : Channel Packet) : Poll (Option BuildConnectionToPeerProtocol) :=
  match channel.next with
  | none => .notReady
  | some packet => packet.asMessage

def readHello (channel : Channel Packet) : Poll (Option StreamHello) :=
  match channel.next with
  | none => .notReady
  | some packet => packet.asHello

def user : Option Bytes → Packet
  | some bytes => .data bytes
  | none => .closed

/-- What a handler of the initiator has led to, with the messages it has sent. -/
def proceed (s : BuildSession) (machine : BuildConnectionToPeer) :
    BuildConnectionToPeer.Polled → BuildSession
  | (.notReady, _) => s
  | (.transition next, sent) => { s with
      initiator := .running next
      toMiddle := s.toMiddle.sendAll (machine.hello ++ sent.map Packet.message) }
  | (.ready stream, sent) => { s with
      initiator := .built stream
      toMiddle := s.toMiddle.sendAll (sent.map Packet.message ++ machine.closes) }
  | (.error reason, _) =>
      { s with initiator := .failed reason, toMiddle := s.toMiddle.send .closed }
  | (.panic text, _) =>
      { s with initiator := .panicked text, toMiddle := s.toMiddle.send .closed }

def initiate (s : BuildSession) (answers : BuildAnswers) : BuildSession :=
  match s.initiator with
  | .running machine =>
      if machine.reads then
        { s with toInitiator := s.toInitiator.receive }.proceed machine (machine.step
          { answers with message := readMessage s.toInitiator, sent := .accepted })
      else s.proceed machine (machine.step { answers with sent := .accepted })
  | _ => s

def drop (s : BuildSession) : BuildSession :=
  match s.initiator with
  | .running _ => { s with initiator := .dropped, toMiddle := s.toMiddle.send .closed }
  | _ => s

/-- The end of the relay ends both of its streams. -/
def endRelay (s : BuildSession) : BuildSession :=
  match s.middle with
  | .relaying => { s with
      middle := .ended
      toAsked := s.toAsked.send .closed
      toInitiator := s.toInitiator.send .closed }
  | _ => s

/-- The stream of the initiator is dropped before there is one to the asked peer. -/
def refuse (s : BuildSession) : BuildSession :=
  { s with middle := .ended, toInitiator := s.toInitiator.send .closed }

/-- A peer has an incoming stream to handle only when one was opened to it. -/
def stepMiddle (setup : Setup) (s : BuildSession) (timeout : TimeoutPoll) (registry : Registry)
    (opened flushed : Poll Unit) : BuildSession :=
  match s.middle with
  | .incoming =>
      if s.toMiddle.history = [] then s
      else
        match setup.initiating.incomingStream.poll timeout (readHello s.toMiddle) with
        | (.notReady, _) => s
        | (_, .handleProxyStream target _ helloMsg true) =>
            match handleProxyStream registry target helloMsg with
            | some future => { s with middle := .opening future, toMiddle := s.toMiddle.receive }
            | none => s.refuse
        | _ => s.refuse
  | .opening future =>
      match future.poll opened flushed with
      | .ok .notReady => s
      | .ok (.ready _) => { s with
          middle := .relaying
          toAsked := s.toAsked.sendAll [.hello future.streamHello,
            .message (prepareStreamForBuilding setup.askedAddr)]
          toInitiator := s.toInitiator.send
            (.message (prepareStreamForBuilding setup.initiatingAddr)) }
      | _ => s.refuse
  | _ => s

def relayToAsked (s : BuildSession) : BuildSession :=
  match s.middle, s.toMiddle.next with
  | .relaying, some .closed => s.endRelay
  | .relaying, some packet =>
      { s with toMiddle := s.toMiddle.receive, toAsked := s.toAsked.send packet }
  | _, _ => s

def relayToInitiator (s : BuildSession) : BuildSession :=
  match s.middle, s.fromAsked.next with
  | .relaying, some .closed => s.endRelay
  | .relaying, some packet =>
      { s with fromAsked := s.fromAsked.receive, toInitiator := s.toInitiator.send packet }
  | _, _ => s

def endAsked (s : BuildSession) : BuildSession :=
  match s.asked with
  | .incoming => { s with asked := .ended, fromAsked := s.fromAsked.send .closed }
  | .building _ => { s with asked := .ended, fromAsked := s.fromAsked.send .closed }
  | _ => s

/-- What a turn of the asked peer's machine has led to. -/
def reply (s : BuildSession) :
    Handled BuildConnectionToPeerRemote Unit × BuildConnectionToPeerRemote.Effect → BuildSession
  | (.notReady, _) => s
  | (.transition next, effect) => { s with
      asked := .building next
      fromAsked := s.fromAsked.sendAll (effect.sent.map Packet.message) }
  | (.ready (), effect) =>
      match effect.passed with
      | some stream => { s with asked := .passed, context := s.context ++ [stream] }
      | none => s.endAsked
  | (.error _, _) => s.endAsked
  | (.panic text, _) => { s with asked := .panicked text }

def stepAsked (setup : Setup) (s : BuildSession) (timeout : TimeoutPoll) (interfaces : List IpAddr)
    (localAddr : SocketAddr) : BuildSession :=
  match s.asked with
  | .incoming =>
      if s.toAsked.history = [] then s
      else
        match setup.middle.incomingStream.poll timeout (readHello s.toAsked) with
        | (.notReady, _) => s
        | (_, .buildConnectionToPeerRemote remote) =>
            { s with asked := .building remote, toAsked := s.toAsked.receive }
        | _ => s.endAsked
  | .building remote =>
      { s with toAsked := s.toAsked.receive }.reply
        (remote.step (readMessage s.toAsked) .accepted interfaces localAddr)
  | _ => s

def initiatorUser (s : BuildSession) (packet : Option Bytes) : BuildSession :=
  match s.initiator with
  | .built stream =>
      if stream.isProxyStream then { s with toMiddle := s.toMiddle.send (user packet) } else s
  | _ => s

def askedUser (s : BuildSession) (packet : Option Bytes) : BuildSession :=
  match s.asked with
  | .passed => { s with fromAsked := s.fromAsked.send (user packet) }
  | _ => s

def step (setup : Setup) (s : BuildSession) : Event → BuildSession
  | .initiate answers => s.initiate answers
  | .drop => s.drop
  | .middle timeout registry opened flushed => s.stepMiddle setup timeout registry opened flushed
  | .relayToAsked => s.relayToAsked
  | .relayToInitiator => s.relayToInitiator
  | .endRelay => s.endRelay
  | .asked timeout interfaces localAddr => s.stepAsked setup timeout interfaces localAddr
  | .endAsked => s.endAsked
  | .initiatorUser packet => s.initiatorUser packet
  | .askedUser packet => s.askedUser packet

end BuildSession

end HolePunch
