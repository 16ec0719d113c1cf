import HolePunch.IncomingStream
import HolePunch.ProtocolStream

set_option autoImplicit false

/- One stream between the peer that opens it and the peer that accepts it, with the bytes that are
under way between them (`stream.rs`, `incoming_stream.rs`). The transport is reliable and keeps the
order of the bytes; how they are cut into chunks and when the chunks arrive is left open. -/
namespace HolePunch

open LengthDelimited (Bytes frame)

/-- The stream that `NewStreamFuture::poll` makes of a fresh one: the hello is sent and flushed,
and the protocol is switched back. `Except.error` is a panic of the task. -/
def openWithHello (hello : Bytes) (io : ByteStream) (answers : Framed.SinkAnswers) :
    Except String ByteStream :=
  match (Framed.new io).startSend hello answers with
  | (.error _, _) => .error "start sending stream hello"
  | (_, framed) =>
      match framed.pollComplete answers with
      | (.error _, _) => .error "poll complete stream hello"
      | (_, framed) => .ok framed.into

namespace ByteStream

/-- While the stream is polled, the chunks that have arrived are followed by nothing yet, or by the
end if the other side has ended. -/
def asking (s : ByteStream) (ended : Bool) : ByteStream :=
  if ended then s else { s with inner := s.inner ++ [none] }

def asked (s : ByteStream) : ByteStream := { s with inner := s.inner.filter Option.isSome }

/-- A chunk arrives. -/
def arrive (s : ByteStream) (chunk : Bytes) : ByteStream :=
  { s with inner := s.inner ++ [some chunk] }

end ByteStream

/-- A turn of the transport over the bytes that have arrived. -/
def Framed.asked (s : Framed) (ended : Bool) (room : Nat) : Turn × Framed :=
  let polled := { s with io := s.io.asking ended }.turn room
  (polled.1, { polled.2 with io := polled.2.io.asked })

/-- The end of a stream that the other peer has opened: the hello is awaited, or it has come. -/
inductive FarEnd where
  | incoming (framed : Framed)
  | passed (stream : ByteStream)
  deriving DecidableEq, Repr

namespace FarEnd

def sent : FarEnd → Bytes
  | .incoming framed => framed.io.sent
  | .passed stream => stream.sent

def arrive : FarEnd → Bytes → FarEnd
  | .incoming framed, chunk => .incoming { framed with io := framed.io.arrive chunk }
  | .passed stream, chunk => .passed (stream.arrive chunk)

end FarEnd

/-- `near` is the end of the peer that has opened the stream with `hello`. The bytes in `there` and
`back` are under way. A closed end is shut down or dropped. The last three fields keep what was
written to the near end after the hello, and what was read from each end. -/
structure Wire where
  hello : Bytes
  near : ByteStream
  far : FarEnd
  there : Bytes
  back : Bytes
  nearClosed : Bool
  farClosed : Bool
  nearWritten : Bytes
  nearRead : Bytes
  farRead : Bytes
  deriving DecidableEq, Repr

namespace Wire

/-- The stream is fresh, and its sink accepts the hello. -/
def new (hello : Bytes) (flush : Poll Unit) : Except String Wire :=
  match openWithHello hello (ByteStream.new []) ⟨.accepted, flush⟩ with
  | .error message => .error message
  | .ok near => .ok {
      hello := hello, near := near, far := .incoming (Framed.new (ByteStream.new [])),
      there := near.sent, back := [], nearClosed := false, farClosed := false,
      nearWritten := [], nearRead := [], farRead := [] }

/-- The far end sees the end after everything that was sent. -/
def nearEnded (s : Wire) : Bool := s.nearClosed && s.there.isEmpty

def farEnded (s : Wire) : Bool := s.farClosed && s.back.isEmpty

def closeNear (s : Wire) : Wire := { s with nearClosed := true }

def closeFar (s : Wire) : Wire := { s with farClosed := true }

/-- The next bytes arrive at the far end in one chunk. -/
def carryThere (s : Wire) (count : Nat) : Wire :=
  { s with there := s.there.drop count, far := s.far.arrive (s.there.take count) }

def carryBack (s : Wire) (count : Nat) : Wire :=
  { s with back := s.back.drop count, near := s.near.arrive (s.back.take count) }

/-- The ways that bytes are under way. -/
inductive Way where
  | there
  | back
  deriving DecidableEq, Repr

def carry (s : Wire) (count : Nat) : Way → Wire
  | .there => s.carryThere count
  | .back => s.carryBack count

def sendNear (s : Wire) (item : Bytes) (answer : SendPoll) : Poll Unit × Wire :=
  if s.nearClosed then (.error .io, s)
  else match s.near.startSend item answer with
    | (.ready (), near) => (.ready (), { s with
        near := near, there := s.there ++ item, nearWritten := s.nearWritten ++ item })
    | (result, near) => (result, { s with near := near })

/-- Before the hello has come, nobody has the stream. -/
def sendFar (s : Wire) (item : Bytes) (answer : SendPoll) : Poll Unit × Wire :=
  match s.far with
  | .incoming _ => (.notReady, s)
  | .passed stream =>
      if s.farClosed then (.error .io, s)
      else match stream.startSend item answer with
        | (.ready (), stream) => (.ready (), { s with
            far := .passed stream, back := s.back ++ item })
        | (result, stream) => (result, { s with far := .passed stream })

def callNear (s : Wire) (made : ByteStream.Call) : Wire :=
  let taken := (s.near.asking s.farEnded).call made
  { s with near := taken.2.asked, nearRead := s.nearRead ++ taken.1 }

def callFar (s : Wire) (made : ByteStream.Call) : Wire :=
  match s.far with
  | .incoming _ => s
  | .passed stream =>
      let taken := (stream.asking s.nearEnded).call made
      { s with far := .passed taken.2.asked, farRead := s.farRead ++ taken.1 }

def pollNear (s : Wire) : Poll (Option Bytes) × Wire :=
  ((s.near.asking s.farEnded).poll.1, s.callNear .poll)

def pollFar (s : Wire) : Poll (Option Bytes) × Wire :=
  match s.far with
  | .incoming _ => (.notReady, s)
  | .passed stream => ((stream.asking s.nearEnded).poll.1, s.callFar .poll)

/-- What the holder of one end of a stream does with it. -/
inductive Act where
  | send (buf : Bytes) (answer : SendPoll)
  | call (made : ByteStream.Call)
  | close
  deriving DecidableEq, Repr

def actNear (s : Wire) : Act → Wire
  | .send buf answer => (s.sendNear buf answer).2
  | .call made => s.callNear made
  | .close => s.closeNear

def actFar (s : Wire) : Act → Wire
  | .send buf answer => (s.sendFar buf answer).2
  | .call made => s.callFar made
  | .close => s.closeFar

/-- What a turn of the framed transport is to `IncomingStream::poll`, which goes on with the next
turn after `again`. A payload that is no hello is an error. -/
def message (json : Json StreamHello) : Framed.Turn → Poll (Option StreamHello)
  | .again => .notReady
  | .notReady => .notReady
  | .error => .error .io
  | .ready none => .ready none
  | .ready (some payload) =>
      match json.decode payload with
      | some hello => .ready (some hello)
      | none => .error .json

/-- One turn of polling the stream as an incoming one. A hello that is served takes the stream out
of the transport, and otherwise it is dropped with the task. -/
def pollIncoming (s : Wire) (json : Json StreamHello) (incoming : IncomingStream)
    (timeout : TimeoutPoll) (room : Nat) : IncomingStream.Effect × Wire :=
  match s.far with
  | .passed _ => (.nothing, s)
  | .incoming framed =>
      let asked := framed.asked s.nearEnded room
      match incoming.poll timeout (message json asked.1) with
      | (.notReady, effect) => (effect, { s with far := .incoming asked.2 })
      | (.ready (), .nothing) => (.nothing, s.closeFar)
      | (.ready (), effect) => (effect, { s with far := .passed asked.2.into })
      | (_, effect) => (effect, s.closeFar)

/-- What has been read at an end, and what can be read there. -/
def nearReadable (s : Wire) : Bytes := s.nearRead ++ s.near.pending

def farReadable (s : Wire) : Bytes :=
  match s.far with
  | .incoming _ => []
  | .passed stream => s.farRead ++ stream.pending

end Wire

end HolePunch
