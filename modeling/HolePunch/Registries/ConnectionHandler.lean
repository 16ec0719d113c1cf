import HolePunch.Connect
import HolePunch.Registries.Remote
import HolePunch.Library.Transition

set_option autoImplicit false

/- The task that keeps a remote registry connected (`registries/remote.rs`), with the arithmetic of
its timers. -/
namespace HolePunch.Remote

/-- Times are counted in nanoseconds. A `Duration` has its seconds in a `u64`, an `Instant` in an
`i64`. -/
def second : Nat := 10 ^ 9

def durationEnd : Nat := 2 ^ 64 * second

def instantEnd : Nat := 2 ^ 63 * second

structure Duration where
  nanos : Nat
  bounded : nanos < durationEnd
  deriving DecidableEq, Repr

/-- A reading of the clock. None comes so close to the last instant that the fixed timeouts of a
few seconds would not fit. -/
structure Now where
  nanos : Nat
  early : nanos + 10 * second < instantEnd
  deriving DecidableEq, Repr

theorem early_of_le_minute {seconds : Nat} (soon : seconds ≤ 60) :
    seconds * second + 10 * second < instantEnd := by
  simp only [second, instantEnd]
  omega

/-- `Instant + Duration`. -/
def addDuration (instant duration : Nat) : Except String Nat :=
  if instant + duration < instantEnd then .ok (instant + duration)
  else .error "overflow when adding duration to instant"

/-- `Duration * u32`. -/
def mulDuration (duration factor : Nat) : Except String Nat :=
  if duration * factor < durationEnd then .ok (duration * factor)
  else .error "overflow when multiplying duration by scalar"

/-- `tokio` has no interval of zero length. -/
def newInterval (duration : Nat) : Except String Nat :=
  if 0 < duration then .ok duration else .error "`duration` must be non-zero."

/-- What the handler was created with. A context without known remote peers has no remote
registry, and there is always a strategy. -/
structure ConnectionHandlerContext where
  resolvers : { given : Nat // 0 < given }
  strategies : { given : Nat // 0 < given }
  pingInterval : Duration
  waitBetweenResolve : Duration

/-- An `OutgoingStream` with its timers: the next tick of the ping interval and how long it waits
for a pong. -/
structure TimedStream where
  stream : OutgoingStream
  pingInterval : Nat
  pingDeadline : Nat
  pongTimeoutDuration : Nat

def TimedStream.new (stream : Stream) (pingInterval : Duration) (now : Now) :
    Except String TimedStream := do
  let pongTimeoutDuration ← mulDuration pingInterval.nanos 3
  let interval ← newInterval pingInterval.nanos
  let _ ← addDuration now.nanos pongTimeoutDuration
  return ⟨OutgoingStream.new stream, interval, now.nanos, pongTimeoutDuration⟩

inductive ConnectionHandler where
  | requestNextPeerAddr
  | connectToPeer (connect : ConnectWithStrategies)
  | handleConnection (connection : TimedStream)

/-- What `resolve_addrs` gives; at its end, whether the wait between two resolves is over. -/
inductive Resolving where
  | addr (addr : SocketAddr)
  | notReady
  | failed
  | ended (waited : Bool)
  deriving DecidableEq, Repr

/-- The pong timeout right after it has been reset. -/
inductive PongTimer where
  | running
  | elapsed
  | failed
  deriving DecidableEq, Repr

namespace ConnectionHandler

/-- `resolvers_to_stream`. -/
def resolversToStream (resolvers : Nat) : Except String Unit :=
  match resolvers with
  | 0 => .error "`resolvers` need to contain at least one element"
  | _ + 1 => .ok ()

/-- A resolve, and the wait until the next one. -/
def resolve (context : ConnectionHandlerContext) (now : Now) : Except String Unit := do
  resolversToStream context.resolvers.val
  let _ ← addDuration now.nanos context.waitBetweenResolve.nanos
  return ()

/-- A handler returns the state to go on with, or its error; the outer error is a panic. -/
abbrev Outcome := Except String (Except Error ConnectionHandler)

/-- `remote_registry_dropped`, before the rest of a handler. -/
def unlessDropped (dropped : Bool) (rest : Outcome) : Outcome :=
  if dropped then .ok (.error (.custom "Remote registry dropped")) else rest

/-- One turn of the loop of `GetNextAddr::poll` for the first state. -/
def pollRequestNextPeerAddr (context : ConnectionHandlerContext) (dropped : Bool)
    (answer : Resolving) (now : Now) : Outcome :=
  match answer with
  | .notReady => .ok (.ok .requestNextPeerAddr)
  | .failed => .ok (.ok .requestNextPeerAddr)
  | .ended false => .ok (.ok .requestNextPeerAddr)
  | .ended true =>
      match resolve context now with
      | .error message => .error message
      | .ok () => .ok (.ok .requestNextPeerAddr)
  | .addr addr =>
      unlessDropped dropped
        (match ConnectWithStrategies.new context.strategies.val addr .registry with
        | .error message => .error message
        | .ok connect => .ok (.ok (.connectToPeer connect)))

def pollConnectToPeer (context : ConnectionHandlerContext) (dropped : Bool)
    (connect : ConnectWithStrategies) (answers : ConnectAnswers) (now : Now) : Outcome :=
  unlessDropped dropped
    (match connect.step answers with
    | .panic message => .error message
    | .notReady => .ok (.ok (.connectToPeer connect))
    | .transition next => .ok (.ok (.connectToPeer next))
    | .error _ => .ok (.ok .requestNextPeerAddr)
    | .ready stream =>
        match TimedStream.new stream context.pingInterval now with
        | .error message => .error message
        | .ok connection => .ok (.ok (.handleConnection connection)))

end ConnectionHandler

/-- What one turn of a loop of `OutgoingStream::poll` finds. -/
inductive StreamTurn where
  | request (peer : PeerIdentifier) (sender : ResultSender) (isCanceled : Bool) (send : SendPoll)
  | ping (send : SendPoll)
  | message (message : RegistryProtocol) (now : Now) (timer : PongTimer)
  /-- Nothing more is ready. -/
  | notReady
  /-- The stream has ended, or it, the receiver or a timer has failed, or no pong came in time. -/
  | ends

namespace TimedStream

/-- `none` is the end of the future, with or without an error. -/
def turn (s : TimedStream) : StreamTurn → Except String (Option TimedStream)
  | .request peer sender isCanceled send =>
      match (s.stream.findPeerRequest peer sender isCanceled send).1 with
      | .transition stream => .ok (some { s with stream := stream })
      | _ => .ok none
  | .ping send => do
      let deadline ← addDuration s.pingDeadline s.pingInterval
      match send with
      | .error _ => return none
      | _ => return some { s with pingDeadline := deadline }
  | .message .pong now timer => do
      let _ ← addDuration now.nanos s.pongTimeoutDuration
      match timer with
      | .failed => return none
      | .elapsed => throw "OugoingStream pong timeout instantly elapsed!"
      | .running => return some s
  | .message given _ _ => .ok (some { s with stream := (s.stream.message given).1 })
  | .notReady => .ok (some s)
  | .ends => .ok none

end TimedStream

namespace ConnectionHandler

def pollHandleConnection (dropped : Bool) (connection : TimedStream) (turn : StreamTurn) :
    Outcome :=
  unlessDropped dropped
    (match connection.turn turn with
    | .error message => .error message
    | .ok (some next) => .ok (.ok (.handleConnection next))
    | .ok none => .ok (.ok .requestNextPeerAddr))

end ConnectionHandler

/-- The task of the handler. The receiver of the requests is dropped with it. -/
inductive HandlerTask where
  | running (handler : ConnectionHandler)
  | failed (reason : Error)
  | panicked (message : String)

/-- The task and whether the `RemoteRegistry` has been dropped. -/
structure HandlerRun where
  task : HandlerTask
  dropped : Bool

namespace HandlerRun

inductive Event where
  | resolve (answer : Resolving) (now : Now)
  | connect (answers : ConnectAnswers) (now : Now)
  | handle (turn : StreamTurn)
  | drop

def finish (s : HandlerRun) : ConnectionHandler.Outcome → HandlerRun
  | .error message => { s with task := .panicked message }
  | .ok (.error reason) => { s with task := .failed reason }
  | .ok (.ok handler) => { s with task := .running handler }

/-- `ConnectionHandler::new`, which starts the first resolve. -/
def start (context : ConnectionHandlerContext) (now : Now) : HandlerRun :=
  match ConnectionHandler.resolve context now with
  | .error message => ⟨.panicked message, false⟩
  | .ok () => ⟨.running .requestNextPeerAddr, false⟩

/-- An event is for the state it belongs to. -/
def step (context : ConnectionHandlerContext) (s : HandlerRun) (event : Event) : HandlerRun :=
  match s.task, event with
  | _, .drop => { s with dropped := true }
  | .running .requestNextPeerAddr, .resolve answer now =>
      s.finish (ConnectionHandler.pollRequestNextPeerAddr context s.dropped answer now)
  | .running (.connectToPeer connect), .connect answers now =>
      s.finish (ConnectionHandler.pollConnectToPeer context s.dropped connect answers now)
  | .running (.handleConnection connection), .handle turn =>
      s.finish (ConnectionHandler.pollHandleConnection s.dropped connection turn)
  | _, _ => s

/-- The send of `RemoteRegistry::find_peer`, which fails without a receiver. -/
def findPeer (s : HandlerRun) : Except String Unit :=
  match s.task with
  | .running _ => .ok ()
  | _ => .error "ConnectionHandler should never end!"

end HandlerRun

end HolePunch.Remote
