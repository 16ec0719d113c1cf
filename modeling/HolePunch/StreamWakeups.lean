import HolePunch.Library.PollTrace
import HolePunch.Registries.ConnectionHandler
import HolePunch.Registries.Mdns

set_option autoImplicit false

/- One call of `OutgoingStream::poll` (`registries/remote.rs`) with what its sources answer, and
which of them wake the task when it returns `NotReady`. -/
namespace HolePunch.Remote

open Futures (Answered Progress Wake)
open Mdns (SourceEnd)

/-- The sources of events that `OutgoingStream` polls. -/
inductive StreamSource where
  | findPeerRequest
  | pingInterval
  | pongTimeout
  | stream
  deriving DecidableEq, Repr

/-- A request as the receiver gives it, and what sending it on answers. -/
structure FindPeer where
  peer : PeerIdentifier
  sender : ResultSender
  isCanceled : Bool
  send : SendPoll

/-- A message of the server. For a pong, when it came and the timer after it has been reset. -/
structure Received where
  message : RegistryProtocol
  now : Now
  timer : PongTimer

/-- What the sources answer during one poll: the items that each yields and what ends them. A tick
of the interval comes with what sending the ping answers. -/
structure StreamAnswers where
  requests : List FindPeer
  findPeerRequest : SourceEnd
  pingInterval : Futures.Poll Unit (Option SendPoll)
  pongTimeout : Futures.Poll Unit Unit
  messages : List Received
  stream : SourceEnd

/-- A call in progress. -/
structure StreamPoll where
  stream : TimedStream
  last : Answered StreamSource

namespace StreamPoll

def polled (s : StreamPoll) (source : StreamSource) (answer : Wake) : StreamPoll :=
  { s with last := s.last.poll source answer }

/-- Handles what a source has yielded. -/
def turn (s : StreamPoll) (made : StreamTurn) : Progress StreamPoll :=
  match s.stream.turn made with
  | .error message => .panicked message
  | .ok none => .finished
  | .ok (some stream) => .goesOn { s with stream := stream }

def request (s : StreamPoll) (request : FindPeer) : Progress StreamPoll :=
  (s.polled .findPeerRequest .ready).turn
    (.request request.peer request.sender request.isCanceled request.send)

def pollFindPeerRequest (s : StreamPoll) (answers : StreamAnswers) : Progress StreamPoll := do
  let s ← answers.requests.foldlM request s
  match answers.findPeerRequest with
  | .notReady => return s.polled .findPeerRequest .notReady
  | .finished => return s.polled .findPeerRequest .ended
  | .error => .finished

/-- The interval is polled once, also when it ticks. -/
def pollPing (s : StreamPoll) (answers : StreamAnswers) : Progress StreamPoll :=
  match answers.pingInterval with
  | .ready (some send) => (s.polled .pingInterval .ready).turn (.ping send)
  | .ready none => .goesOn (s.polled .pingInterval .ended)
  | .notReady => .goesOn (s.polled .pingInterval .notReady)
  | .error _ => .finished

def pollPingAndPong (s : StreamPoll) (answers : StreamAnswers) : Progress StreamPoll := do
  let s ← s.pollPing answers
  match answers.pongTimeout with
  | .notReady => return s.polled .pongTimeout .notReady
  | .ready _ => .finished
  | .error _ => .finished

/-- A pong resets the timer and polls it again. -/
def message (s : StreamPoll) (received : Received) : Progress StreamPoll := do
  let s := s.polled .stream .ready
  let next ← s.turn (.message received.message received.now received.timer)
  match received.message with
  | .pong => return (next.polled .pongTimeout .renewed).polled .pongTimeout .notReady
  | _ => return next

end StreamPoll

/-- `OutgoingStream::poll`. It goes on when the call returns `NotReady`. -/
def TimedStream.poll (s : TimedStream) (answers : StreamAnswers) : Progress StreamPoll := do
  let s ← StreamPoll.pollFindPeerRequest ⟨s, Answered.unpolled⟩ answers
  let s ← s.pollPingAndPong answers
  let s ← answers.messages.foldlM StreamPoll.message s
  match answers.stream with
  | .notReady => return s.polled .stream .notReady
  | .finished => .finished
  | .error => .finished

namespace StreamPoll

variable {s next : StreamPoll}

@[simp] theorem polled_last_self (s : StreamPoll) (source : StreamSource) (answer : Wake) :
    (s.polled source answer).last source = some answer :=
  Answered.poll_self ..

theorem turn_last {made : StreamTurn} (turned : s.turn made = .goesOn next) :
    next.last = s.last := by
  unfold turn at turned
  split at turned
  · cases turned
  · cases turned
  · cases turned
    rfl

theorem pollFindPeerRequest_arranged {answers : StreamAnswers}
    (polled : s.pollFindPeerRequest answers = .goesOn next) :
    next.last.Arranged .findPeerRequest := by
  obtain ⟨drained, _, reached⟩ := Progress.bind_eq_goesOn_iff.mp polled
  cases rest : answers.findPeerRequest with
  | notReady =>
      rw [rest] at reached
      cases reached
      exact Or.inl (polled_last_self ..)
  | finished =>
      rw [rest] at reached
      cases reached
      exact Or.inr (polled_last_self ..)
  | error =>
      rw [rest] at reached
      cases reached

/-- What the single poll of the interval answers. An interval that fails ends the call. -/
def pingWake : Futures.Poll Unit (Option SendPoll) → Wake
  | .notReady => .notReady
  | .ready none => .ended
  | .ready (some _) => .ready
  | .error _ => .ended

theorem pollPing_last {answers : StreamAnswers} (polled : s.pollPing answers = .goesOn next) :
    next.last = s.last.poll .pingInterval (pingWake answers.pingInterval) := by
  unfold pollPing at polled
  split at polled
  · rename_i send ticks
    rw [turn_last polled, ticks]
    rfl
  · rename_i ends
    cases polled
    rw [ends]
    rfl
  · rename_i waits
    cases polled
    rw [waits]
    rfl
  · cases polled

theorem pollPingAndPong_last {answers : StreamAnswers}
    (polled : s.pollPingAndPong answers = .goesOn next) :
    next.last = (s.last.poll .pingInterval (pingWake answers.pingInterval)).poll .pongTimeout
      .notReady := by
  obtain ⟨pinged, first, reached⟩ := Progress.bind_eq_goesOn_iff.mp polled
  cases pong : answers.pongTimeout with
  | notReady =>
      rw [pong] at reached
      cases reached
      rw [StreamPoll.polled, pollPing_last first]
  | ready value =>
      rw [pong] at reached
      cases reached
  | error reason =>
      rw [pong] at reached
      cases reached

/-- A message is of the stream alone, except that a pong has the timer polled again. -/
theorem message_last {received : Received} (handled : s.message received = .goesOn next) :
    next.last = s.last.poll .stream .ready ∨
      next.last = ((s.last.poll .stream .ready).poll .pongTimeout .renewed).poll .pongTimeout
        .notReady := by
  obtain ⟨after, turned, reached⟩ := Progress.bind_eq_goesOn_iff.mp handled
  have last : after.last = s.last.poll .stream .ready := turn_last turned
  split at reached
  · cases reached
    right
    rw [← last]
    rfl
  · cases reached
    left
    exact last

/-- What the loop over the messages leaves as it was. -/
structure Settled (last : Answered StreamSource) (s : StreamPoll) : Prop where
  findPeerRequest : s.last .findPeerRequest = last .findPeerRequest
  pingInterval : s.last .pingInterval = last .pingInterval
  pongTimeout : s.last .pongTimeout = some .notReady

theorem Settled.message {last : Answered StreamSource} {received : Received}
    (settled : s.Settled last) (handled : s.message received = .goesOn next) :
    next.Settled last := by
  rcases message_last handled with same | renewed
  · refine ⟨?_, ?_, ?_⟩
    · rw [same]
      exact settled.findPeerRequest
    · rw [same]
      exact settled.pingInterval
    · rw [same]
      exact settled.pongTimeout
  · refine ⟨?_, ?_, ?_⟩
    · rw [renewed]
      exact settled.findPeerRequest
    · rw [renewed]
      exact settled.pingInterval
    · rw [renewed]
      exact Answered.poll_self ..

end StreamPoll

/-- All that a call has polled when it returns `NotReady`. -/
theorem TimedStream.poll_last {s : TimedStream} {answers : StreamAnswers} {polled : StreamPoll}
    (returned : s.poll answers = .goesOn polled) :
    polled.last.Arranged .findPeerRequest ∧
      polled.last .pingInterval = some (StreamPoll.pingWake answers.pingInterval) ∧
      polled.last .pongTimeout = some .notReady ∧ polled.last .stream = some .notReady := by
  obtain ⟨requested, first, returned⟩ := Progress.bind_eq_goesOn_iff.mp returned
  obtain ⟨pinged, second, returned⟩ := Progress.bind_eq_goesOn_iff.mp returned
  obtain ⟨drained, looped, returned⟩ := Progress.bind_eq_goesOn_iff.mp returned
  have arranged := StreamPoll.pollFindPeerRequest_arranged first
  have last := StreamPoll.pollPingAndPong_last second
  have start : pinged.Settled pinged.last := by
    refine ⟨rfl, rfl, ?_⟩
    rw [last]
    exact Answered.poll_self ..
  have settled : drained.Settled pinged.last :=
    Progress.foldlM_goesOn (StreamPoll.Settled pinged.last)
      (fun _ _ _ handled kept => kept.message handled) start looped
  cases rest : answers.stream with
  | notReady =>
      rw [rest] at returned
      cases returned
      refine ⟨?_, ?_, settled.pongTimeout, StreamPoll.polled_last_self ..⟩
      · have same : drained.last .findPeerRequest = requested.last .findPeerRequest := by
          rw [settled.findPeerRequest, last]
          rfl
        unfold Answered.Arranged
        change drained.last .findPeerRequest = _ ∨ drained.last .findPeerRequest = _
        rw [same]
        exact arranged
      · change drained.last .pingInterval = _
        rw [settled.pingInterval, last]
        rfl
  | finished =>
      rw [rest] at returned
      cases returned
  | error =>
      rw [rest] at returned
      cases returned

/-- The interval wakes the task exactly when it has not just ticked. -/
theorem TimedStream.arranged_iff {s : TimedStream} {answers : StreamAnswers}
    {polled : StreamPoll} (returned : s.poll answers = .goesOn polled) :
    (∀ source, polled.last.Arranged source) ↔
      ∀ send, answers.pingInterval ≠ .ready (some send) := by
  obtain ⟨requests, ping, pong, stream⟩ := TimedStream.poll_last returned
  constructor
  · intro all send ticks
    have arranged := all .pingInterval
    unfold Answered.Arranged at arranged
    rw [ping, ticks] at arranged
    rcases arranged with impossible | impossible
    · cases impossible
    · cases impossible
  · intro quiet source
    cases source with
    | findPeerRequest => exact requests
    | pingInterval =>
        unfold Answered.Arranged
        rw [ping]
        rcases interval : answers.pingInterval with _ | (_ | send) | _
        · exact Or.inl rfl
        · exact Or.inr rfl
        · exact absurd interval (quiet send)
        · exact Or.inr rfl
    | pongTimeout => exact Or.inl pong
    | stream => exact Or.inl stream

end HolePunch.Remote
