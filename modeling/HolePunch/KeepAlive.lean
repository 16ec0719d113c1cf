import HolePunch.HandlerSurvival
import HolePunch.StreamWakeups

set_option autoImplicit false

/- The connection to a remote registry against the clock: when it pings, and when it gives a silent
registry up (`registries/remote.rs`). -/
namespace HolePunch.Remote

open Futures (Progress)
open Mdns (SourceEnd)

/-- A stream with the deadline of its pong timeout. `inFlight` are the times of the pings that no
pong has followed yet, `ticks` counts the pings that were due. -/
structure KeptStream where
  stream : TimedStream
  pongDeadline : Nat
  now : Nat
  inFlight : List Nat
  ticks : Nat

/-- What one poll finds at its time, besides the timers. -/
structure KeptTurn where
  now : Now
  requests : List FindPeer
  findPeerRequest : SourceEnd
  ping : SendPoll
  messages : List RegistryProtocol
  stream : SourceEnd

namespace KeptStream

/-- `OutgoingStream::new`, which starts the interval and the timeout. -/
def new (stream : Stream) (pingInterval : Duration) (now : Now) : Except String KeptStream := do
  let timed ← TimedStream.new stream pingInterval now
  return ⟨timed, now.nanos + timed.pongTimeoutDuration, now.nanos, [], 0⟩

/-- The interval ticks at its deadline, and so does the timeout. A timeout that has just been reset
is not over. -/
def answers (s : KeptStream) (turn : KeptTurn) : StreamAnswers where
  requests := turn.requests
  findPeerRequest := turn.findPeerRequest
  pingInterval :=
    if s.stream.pingDeadline ≤ turn.now.nanos then .ready (some turn.ping) else .notReady
  pongTimeout := if s.pongDeadline ≤ turn.now.nanos then .ready () else .notReady
  messages := turn.messages.map (fun message => ⟨message, turn.now, .running⟩)
  stream := turn.stream

/-- The pings in flight after one has been sent, if it was due and accepted. -/
def pinged (s : KeptStream) (turn : KeptTurn) : List Nat :=
  if s.stream.pingDeadline ≤ turn.now.nanos ∧ turn.ping = .accepted then
    s.inFlight ++ [turn.now.nanos]
  else s.inFlight

/-- One poll. Each pong that is read answers the oldest ping in flight. -/
def poll (s : KeptStream) (turn : KeptTurn) : Progress KeptStream :=
  (s.stream.poll (s.answers turn)).map (fun polled => {
    stream := polled.stream
    pongDeadline :=
      if .pong ∈ turn.messages then turn.now.nanos + s.stream.pongTimeoutDuration
      else s.pongDeadline
    now := turn.now.nanos
    inFlight := (s.pinged turn).drop (turn.messages.count .pong)
    ticks := if s.stream.pingDeadline ≤ turn.now.nanos then s.ticks + 1 else s.ticks })

/-- Polls one after the other. -/
def run (s : KeptStream) (turns : List KeptTurn) : Progress KeptStream := turns.foldlM poll s

end KeptStream

namespace TimedStream

/-- The timers that are set when a stream is created, and the next tick. -/
structure Timers where
  pingInterval : Nat
  pongTimeoutDuration : Nat
  pingDeadline : Nat
  deriving DecidableEq

def timers (s : TimedStream) : Timers := ⟨s.pingInterval, s.pongTimeoutDuration, s.pingDeadline⟩

/-- The timers after a poll that found the given answer of the interval. -/
def Timers.after (timers : Timers) : Futures.Poll Unit (Option SendPoll) → Timers
  | .ready (some _) => { timers with pingDeadline := timers.pingDeadline + timers.pingInterval }
  | _ => timers

/-- A pong is handled if the timeout after it fits on the clock. -/
theorem turn_pong (s : TimedStream) (now : Now) :
    s.turn (.message .pong now .running) =
      if now.nanos + s.pongTimeoutDuration < instantEnd then .ok (some s)
      else .error "overflow when adding duration to instant" := by
  simp only [turn, addDuration]
  split <;> rfl

/-- A ping moves the interval on to its next tick. -/
theorem turn_ping (s : TimedStream) (send : SendPoll) :
    s.turn (.ping send) =
      if s.pingDeadline + s.pingInterval < instantEnd then
        match send with
        | .error _ => .ok none
        | _ => .ok (some { s with pingDeadline := s.pingDeadline + s.pingInterval })
      else .error "overflow when adding duration to instant" := by
  simp only [turn, addDuration]
  split
  · cases send <;> rfl
  · rfl

theorem turn_timers {s next : TimedStream} {made : StreamTurn}
    (turned : s.turn made = .ok (some next)) (other : ∀ send, made ≠ .ping send) :
    next.timers = s.timers := by
  cases made with
  | request peer sender isCanceled send =>
      simp only [turn] at turned
      split at turned
      · cases turned
        rfl
      · cases turned
  | ping send => exact absurd rfl (other send)
  | message given now timer =>
      cases given with
      | pong =>
          simp only [turn, addDuration] at turned
          split at turned
          · cases timer <;> cases turned
            rfl
          · cases turned
      | _ =>
          cases turned
          rfl
  | notReady =>
      cases turned
      rfl
  | ends => cases turned

end TimedStream

namespace StreamPoll

theorem turn_goesOn_iff {s next : StreamPoll} {made : StreamTurn} :
    s.turn made = .goesOn next ↔
      ∃ stream, s.stream.turn made = .ok (some stream) ∧ next = { s with stream := stream } := by
  unfold turn
  split
  · simp [*]
  · simp [*]
  · rename_i stream turned
    constructor
    · intro same
      cases same
      exact ⟨stream, turned, rfl⟩
    · rintro ⟨given, same, rfl⟩
      cases turned.symm.trans same
      rfl

/-- A request is handled unless it has to be sent on and that fails. -/
theorem request_exists (s : StreamPoll) {given : FindPeer}
    (sends : ∀ reason, given.send ≠ .error reason) : ∃ next, s.request given = .goesOn next := by
  have handled : ∃ stream, (s.stream.stream.findPeerRequest given.peer given.sender
      given.isCanceled given.send).1 = .transition stream := by
    unfold OutgoingStream.findPeerRequest
    split
    · exact ⟨_, rfl⟩
    · split
      · exact ⟨_, rfl⟩
      · split
        · exact ⟨_, rfl⟩
        · cases sent : given.send with
          | error reason => exact absurd sent (sends reason)
          | refused => exact ⟨_, rfl⟩
          | accepted => exact ⟨_, rfl⟩
  obtain ⟨stream, handled⟩ := handled
  refine ⟨_, turn_goesOn_iff.mpr ⟨{ s.stream with stream := stream }, ?_, rfl⟩⟩
  simp only [TimedStream.turn, polled, handled]

theorem request_timers {s next : StreamPoll} {given : FindPeer}
    (handled : s.request given = .goesOn next) : next.stream.timers = s.stream.timers := by
  obtain ⟨stream, turned, rfl⟩ := turn_goesOn_iff.mp handled
  exact TimedStream.turn_timers turned (fun send same => by cases same)

theorem message_timers {s next : StreamPoll} {received : Received}
    (handled : s.message received = .goesOn next) : next.stream.timers = s.stream.timers := by
  obtain ⟨after, turned, reached⟩ := Progress.bind_eq_goesOn_iff.mp handled
  obtain ⟨stream, made, rfl⟩ := turn_goesOn_iff.mp turned
  have same := TimedStream.turn_timers made (fun send same => by cases same)
  split at reached <;> cases reached <;> exact same

theorem message_exists (s : StreamPoll) {received : Received} (running : received.timer = .running)
    (fits : received.now.nanos + s.stream.pongTimeoutDuration < instantEnd) :
    ∃ next, s.message received = .goesOn next := by
  obtain ⟨message, now, timer⟩ := received
  cases running
  have turned : ∃ stream, s.stream.turn (.message message now .running) = .ok (some stream) := by
    cases message with
    | pong => exact ⟨s.stream, by rw [TimedStream.turn_pong, if_pos fits]⟩
    | _ => exact ⟨_, rfl⟩
  obtain ⟨stream, turned⟩ := turned
  have next : (s.polled .stream .ready).turn (.message message now .running) = .goesOn _ :=
    turn_goesOn_iff.mpr ⟨stream, turned, rfl⟩
  unfold StreamPoll.message
  simp only [next]
  cases message <;> exact ⟨_, rfl⟩

theorem pollPing_timers {s next : StreamPoll} {answers : StreamAnswers}
    (polled : s.pollPing answers = .goesOn next) :
    next.stream.timers = s.stream.timers.after answers.pingInterval := by
  unfold pollPing at polled
  split at polled
  · rename_i send ticks
    obtain ⟨stream, turned, rfl⟩ := turn_goesOn_iff.mp polled
    rw [ticks]
    change s.stream.turn (.ping send) = _ at turned
    rw [TimedStream.turn_ping] at turned
    split at turned
    · split at turned
      · cases turned
      · cases turned
        rfl
    · cases turned
  · rename_i ends
    cases polled
    rw [ends]
    rfl
  · rename_i waits
    cases polled
    rw [waits]
    rfl
  · cases polled

variable {answers : StreamAnswers}

theorem pollFindPeerRequest_exists (s : StreamPoll)
    (sends : ∀ request ∈ answers.requests, ∀ reason, request.send ≠ .error reason)
    (receives : answers.findPeerRequest ≠ .error) :
    ∃ next, s.pollFindPeerRequest answers = .goesOn next ∧
      next.stream.timers = s.stream.timers := by
  obtain ⟨taken, looped, same⟩ := Progress.foldlM_exists
    (fun reached : StreamPoll => reached.stream.timers = s.stream.timers)
    (fun reached given member kept => by
      obtain ⟨next, handled⟩ := request_exists reached (sends given member)
      exact ⟨next, handled, (request_timers handled).trans kept⟩) (rfl : s.stream.timers = _)
  unfold pollFindPeerRequest
  rw [looped]
  cases rest : answers.findPeerRequest with
  | notReady => exact ⟨_, rfl, same⟩
  | finished => exact ⟨_, rfl, same⟩
  | error => exact absurd rest receives

theorem pollPing_exists (s : StreamPoll)
    (interval : ∀ reason, answers.pingInterval ≠ .error reason)
    (ping : ∀ send, answers.pingInterval = .ready (some send) → (∀ reason, send ≠ .error reason) ∧
      s.stream.pingDeadline + s.stream.pingInterval < instantEnd) :
    ∃ next, s.pollPing answers = .goesOn next := by
  unfold pollPing
  split
  · rename_i send ticks
    obtain ⟨sends, fits⟩ := ping send ticks
    refine ⟨_, turn_goesOn_iff.mpr
      ⟨{ s.stream with pingDeadline := s.stream.pingDeadline + s.stream.pingInterval }, ?_, rfl⟩⟩
    change s.stream.turn (.ping send) = _
    rw [TimedStream.turn_ping, if_pos fits]
    cases send with
    | error reason => exact absurd rfl (sends reason)
    | refused => rfl
    | accepted => rfl
  · exact ⟨_, rfl⟩
  · exact ⟨_, rfl⟩
  · rename_i reason fails
    exact absurd fails (interval reason)

end StreamPoll

namespace TimedStream

/-- A poll that returns `NotReady` has found the timeout pending, and moves the interval only when
it ticks. -/
theorem poll_timers {s : TimedStream} {answers : StreamAnswers} {polled : StreamPoll}
    (returned : s.poll answers = .goesOn polled) :
    answers.pongTimeout = .notReady ∧
      polled.stream.timers = s.timers.after answers.pingInterval := by
  obtain ⟨requested, first, returned⟩ := Progress.bind_eq_goesOn_iff.mp returned
  obtain ⟨pinged, second, returned⟩ := Progress.bind_eq_goesOn_iff.mp returned
  obtain ⟨drained, looped, returned⟩ := Progress.bind_eq_goesOn_iff.mp returned
  have requestedSame : requested.stream.timers = s.timers := by
    obtain ⟨taken, all, reached⟩ := Progress.bind_eq_goesOn_iff.mp first
    have same : taken.stream.timers = s.timers :=
      Progress.foldlM_goesOn (fun reached : StreamPoll => reached.stream.timers = s.timers)
        (fun _ _ _ handled kept => (StreamPoll.request_timers handled).trans kept) rfl all
    split at reached
    · cases reached
      exact same
    · cases reached
      exact same
    · cases reached
  obtain ⟨ticked, third, pending⟩ := Progress.bind_eq_goesOn_iff.mp second
  have ticks : ticked.stream.timers = s.timers.after answers.pingInterval := by
    rw [StreamPoll.pollPing_timers third, requestedSame]
  have pingedSame : answers.pongTimeout = .notReady ∧
      pinged.stream.timers = ticked.stream.timers := by
    cases pong : answers.pongTimeout with
    | notReady =>
        rw [pong] at pending
        cases pending
        exact ⟨rfl, rfl⟩
    | ready value =>
        rw [pong] at pending
        cases pending
    | error reason =>
        rw [pong] at pending
        cases pending
  let kept : StreamPoll → Prop := fun reached => reached.stream.timers = pinged.stream.timers
  have drainedSame : drained.stream.timers = pinged.stream.timers :=
    Progress.foldlM_goesOn kept
      (fun _ _ _ handled same => (StreamPoll.message_timers handled).trans same) rfl looped
  refine ⟨pingedSame.1, ?_⟩
  split at returned
  · cases returned
    exact drainedSame.trans (pingedSame.2.trans ticks)
  · cases returned
  · cases returned

theorem new_ok {stream : Stream} {pingInterval : Duration} {now : Now} {timed : TimedStream}
    (created : new stream pingInterval now = .ok timed) : 0 < pingInterval.nanos ∧
      timed.pingInterval = pingInterval.nanos ∧ timed.pingDeadline = now.nanos ∧
      timed.pongTimeoutDuration = pingInterval.nanos * 3 := by
  obtain ⟨positive, product, sum⟩ :=
    (newTimedStream_iff stream pingInterval now).mp ⟨timed, created⟩
  simp only [new, mulDuration, newInterval, addDuration, if_pos product, if_pos positive, bind,
    Except.bind, if_pos sum] at created
  cases created
  exact ⟨positive, rfl, rfl, rfl⟩

/-- Nothing but the timeout ends the poll: no send or source fails, the stream goes on, and the
timers that are set fit on the clock. -/
structure Undisturbed (s : TimedStream) (answers : StreamAnswers) : Prop where
  requests : ∀ request ∈ answers.requests, ∀ reason, request.send ≠ .error reason
  findPeerRequest : answers.findPeerRequest ≠ .error
  interval : ∀ reason, answers.pingInterval ≠ .error reason
  ping : ∀ send, answers.pingInterval = .ready (some send) →
    (∀ reason, send ≠ .error reason) ∧ s.pingDeadline + s.pingInterval < instantEnd
  messages : ∀ received ∈ answers.messages, received.timer = .running ∧
    received.now.nanos + s.pongTimeoutDuration < instantEnd
  stream : answers.stream = .notReady

/-- A poll that nothing disturbs comes to the timeout. -/
theorem poll_until_timeout {s : TimedStream} {answers : StreamAnswers}
    (undisturbed : s.Undisturbed answers) : ∃ requested pinged : StreamPoll,
      StreamPoll.pollFindPeerRequest ⟨s, Futures.Answered.unpolled⟩ answers = .goesOn requested ∧
      requested.pollPing answers = .goesOn pinged ∧
      pinged.stream.pongTimeoutDuration = s.pongTimeoutDuration := by
  have ping := undisturbed.ping
  obtain ⟨requested, first, same⟩ := StreamPoll.pollFindPeerRequest_exists
    ⟨s, Futures.Answered.unpolled⟩ undisturbed.requests undisturbed.findPeerRequest
  have deadline : requested.stream.pingDeadline = s.pingDeadline :=
    congrArg Timers.pingDeadline same
  have interval : requested.stream.pingInterval = s.pingInterval :=
    congrArg Timers.pingInterval same
  rw [← deadline, ← interval] at ping
  obtain ⟨pinged, second⟩ := StreamPoll.pollPing_exists requested undisturbed.interval ping
  have ticked := StreamPoll.pollPing_timers second
  have duration := congrArg Timers.pongTimeoutDuration ticked
  rw [same] at duration
  refine ⟨requested, pinged, first, second, duration.trans ?_⟩
  unfold Timers.after
  split <;> rfl

theorem poll_of_elapsed {s : TimedStream} {answers : StreamAnswers}
    (undisturbed : s.Undisturbed answers) (elapsed : answers.pongTimeout = .ready ()) :
    s.poll answers = .finished := by
  obtain ⟨requested, pinged, first, second, _⟩ := poll_until_timeout undisturbed
  have ends : requested.pollPingAndPong answers = .finished := by
    unfold StreamPoll.pollPingAndPong
    rw [second, elapsed]
    rfl
  unfold poll
  rw [first]
  change (requested.pollPingAndPong answers >>= _) = _
  rw [ends]
  rfl

theorem poll_of_pending {s : TimedStream} {answers : StreamAnswers}
    (undisturbed : s.Undisturbed answers) (pending : answers.pongTimeout = .notReady) :
    ∃ polled, s.poll answers = .goesOn polled := by
  obtain ⟨requested, pinged, first, second, duration⟩ := poll_until_timeout undisturbed
  have goes : requested.pollPingAndPong answers =
      .goesOn (pinged.polled .pongTimeout .notReady) := by
    unfold StreamPoll.pollPingAndPong
    rw [second, pending]
    rfl
  let keeps : StreamPoll → Prop :=
    fun reached => reached.stream.pongTimeoutDuration = s.pongTimeoutDuration
  have handles : ∀ reached, ∀ received ∈ answers.messages, keeps reached →
      ∃ next, reached.message received = .goesOn next ∧ keeps next := by
    intro reached received member still
    obtain ⟨running, fits⟩ := undisturbed.messages received member
    rw [← show reached.stream.pongTimeoutDuration = s.pongTimeoutDuration from still] at fits
    obtain ⟨next, handled⟩ := reached.message_exists running fits
    have unchanged := congrArg Timers.pongTimeoutDuration (StreamPoll.message_timers handled)
    exact ⟨next, handled, unchanged.trans still⟩
  obtain ⟨drained, third, _⟩ := Progress.foldlM_exists keeps handles
    (show keeps (pinged.polled .pongTimeout .notReady) from duration)
  refine ⟨drained.polled .stream .notReady, ?_⟩
  unfold poll
  refine Progress.bind_eq_goesOn_iff.mpr ⟨requested, first, ?_⟩
  refine Progress.bind_eq_goesOn_iff.mpr ⟨_, goes, ?_⟩
  refine Progress.bind_eq_goesOn_iff.mpr ⟨drained, third, ?_⟩
  rw [undisturbed.stream]
  rfl

end TimedStream

namespace KeptStream

/-- Nothing on the stream or around it ends the connection, at a time that the timers can be set
from. -/
structure Quiet (pingInterval : Nat) (turn : KeptTurn) : Prop where
  requests : ∀ request ∈ turn.requests, ∀ reason, request.send ≠ .error reason
  findPeerRequest : turn.findPeerRequest ≠ .error
  ping : ∀ reason, turn.ping ≠ .error reason
  stream : turn.stream = .notReady
  fits : turn.now.nanos + pingInterval * 3 < instantEnd

/-- What holds of a stream that was created at `start`, as long as it is open. -/
structure Inv (start pingInterval : Nat) (s : KeptStream) : Prop where
  interval : s.stream.pingInterval = pingInterval
  duration : s.stream.pongTimeoutDuration = pingInterval * 3
  ticks : s.stream.pingDeadline = start + s.ticks * pingInterval
  soon : s.stream.pingDeadline ≤ s.now + pingInterval

theorem new_inv {stream : Stream} {pingInterval : Duration} {now : Now} {s : KeptStream}
    (created : new stream pingInterval now = .ok s) : s.Inv now.nanos pingInterval.nanos ∧
      s.pongDeadline = now.nanos + pingInterval.nanos * 3 ∧ s.now = now.nanos ∧ s.inFlight = [] ∧
      s.stream.pingDeadline = now.nanos ∧ 0 < pingInterval.nanos := by
  unfold new at created
  cases made : TimedStream.new stream pingInterval now with
  | error message =>
      rw [made] at created
      cases created
  | ok timed =>
      rw [made] at created
      cases created
      obtain ⟨positive, interval, deadline, duration⟩ := TimedStream.new_ok made
      refine ⟨⟨interval, duration, ?_, ?_⟩, ?_, rfl, rfl, deadline, positive⟩
      · rw [deadline, Nat.zero_mul]
        rfl
      · rw [deadline]
        exact Nat.le_add_right _ _
      · rw [duration]

/-- All that a poll after which the stream is open has done. -/
structure Polled (s : KeptStream) (turn : KeptTurn) (next : KeptStream) : Prop where
  early : turn.now.nanos < s.pongDeadline
  interval : next.stream.pingInterval = s.stream.pingInterval
  duration : next.stream.pongTimeoutDuration = s.stream.pongTimeoutDuration
  pingDeadline : next.stream.pingDeadline =
    if s.stream.pingDeadline ≤ turn.now.nanos then
      s.stream.pingDeadline + s.stream.pingInterval
    else s.stream.pingDeadline
  pongDeadline : next.pongDeadline =
    if .pong ∈ turn.messages then turn.now.nanos + s.stream.pongTimeoutDuration
    else s.pongDeadline
  now : next.now = turn.now.nanos
  inFlight : next.inFlight = (s.pinged turn).drop (turn.messages.count .pong)
  ticks : next.ticks =
    if s.stream.pingDeadline ≤ turn.now.nanos then s.ticks + 1 else s.ticks

theorem polled_of_goesOn {s next : KeptStream} {turn : KeptTurn}
    (goes : s.poll turn = .goesOn next) : s.Polled turn next := by
  unfold poll at goes
  cases returned : s.stream.poll (s.answers turn) with
  | finished =>
      rw [returned] at goes
      cases goes
  | panicked message =>
      rw [returned] at goes
      cases goes
  | goesOn polled =>
      rw [returned] at goes
      obtain ⟨pending, timers⟩ := TimedStream.poll_timers returned
      have early : turn.now.nanos < s.pongDeadline := by
        by_cases elapsed : s.pongDeadline ≤ turn.now.nanos
        · simp only [answers, if_pos elapsed] at pending
          cases pending
        · exact Nat.lt_of_not_le elapsed
      have ticked : polled.stream.timers =
          ⟨s.stream.pingInterval, s.stream.pongTimeoutDuration,
            if s.stream.pingDeadline ≤ turn.now.nanos then
              s.stream.pingDeadline + s.stream.pingInterval
            else s.stream.pingDeadline⟩ := by
        rw [timers]
        by_cases due : s.stream.pingDeadline ≤ turn.now.nanos
        · simp only [answers, if_pos due]
          rfl
        · simp only [answers, if_neg due]
          rfl
      cases goes
      exact ⟨early, congrArg TimedStream.Timers.pingInterval ticked,
        congrArg TimedStream.Timers.pongTimeoutDuration ticked,
        congrArg TimedStream.Timers.pingDeadline ticked, rfl, rfl, rfl, rfl⟩

theorem Quiet.undisturbed {start pingInterval : Nat} {s : KeptStream} {turn : KeptTurn}
    (quiet : Quiet pingInterval turn) (inv : s.Inv start pingInterval) :
    s.stream.Undisturbed (s.answers turn) where
  requests := quiet.requests
  findPeerRequest := quiet.findPeerRequest
  interval := by
    intro reason
    simp only [answers]
    split <;> exact fun same => (by cases same)
  ping := by
    intro send ticks
    simp only [answers] at ticks
    split at ticks
    · rename_i due
      cases ticks
      refine ⟨quiet.ping, ?_⟩
      have fits := quiet.fits
      rw [inv.interval]
      omega
    · cases ticks
  messages := by
    intro received member
    obtain ⟨message, _, rfl⟩ := List.mem_map.mp member
    refine ⟨rfl, ?_⟩
    rw [inv.duration]
    exact quiet.fits
  stream := quiet.stream

/-- A poll that nothing else ends ends exactly when the timeout is over. -/
theorem poll_of_quiet {start pingInterval : Nat} {s : KeptStream} {turn : KeptTurn}
    (inv : s.Inv start pingInterval) (quiet : Quiet pingInterval turn) :
    (s.pongDeadline ≤ turn.now.nanos ∧ s.poll turn = .finished) ∨
      (turn.now.nanos < s.pongDeadline ∧ ∃ next, s.poll turn = .goesOn next) := by
  have undisturbed := quiet.undisturbed inv
  by_cases elapsed : s.pongDeadline ≤ turn.now.nanos
  · refine Or.inl ⟨elapsed, ?_⟩
    have ends := TimedStream.poll_of_elapsed undisturbed (if_pos elapsed)
    rw [poll, ends]
    rfl
  · refine Or.inr ⟨Nat.lt_of_not_le elapsed, ?_⟩
    obtain ⟨polled, goes⟩ := TimedStream.poll_of_pending undisturbed (if_neg elapsed)
    rw [poll, goes]
    exact ⟨_, rfl⟩

theorem poll_inv {start pingInterval : Nat} {s next : KeptStream} {turn : KeptTurn}
    (inv : s.Inv start pingInterval) (later : s.now ≤ turn.now.nanos)
    (goes : s.poll turn = .goesOn next) : next.Inv start pingInterval := by
  have polled := polled_of_goesOn goes
  have ticks := inv.ticks
  have soon := inv.soon
  refine ⟨polled.interval.trans inv.interval, polled.duration.trans inv.duration, ?_, ?_⟩
  · rw [polled.pingDeadline, polled.ticks, inv.interval]
    split
    · rw [Nat.succ_mul]
      omega
    · exact ticks
  · rw [polled.pingDeadline, polled.now, inv.interval]
    split <;> omega

/-- When the last pong was read, or the stream was created. -/
def lastPong (start : Nat) (turns : List KeptTurn) : Nat :=
  turns.foldl (fun last turn => if .pong ∈ turn.messages then turn.now.nanos else last) start

/-- The polls happen one after the other, from the given time on. -/
def InOrder (start : Nat) (turns : List KeptTurn) : Prop :=
  (start :: turns.map (fun turn => turn.now.nanos)).IsChain (· ≤ ·)

theorem run_open {start pingInterval : Nat} {turns : List KeptTurn} {s last : KeptStream}
    (inv : s.Inv start pingInterval) (ordered : InOrder s.now turns)
    {read : Nat} (deadline : s.pongDeadline = read + pingInterval * 3)
    (open_ : s.run turns = .goesOn last) :
    last.Inv start pingInterval ∧ last.pongDeadline = lastPong read turns + pingInterval * 3 := by
  induction turns generalizing s read with
  | nil =>
      cases open_
      exact ⟨inv, deadline⟩
  | cons turn rest ih =>
      obtain ⟨next, goes, reached⟩ := Progress.bind_eq_goesOn_iff.mp open_
      have polled := polled_of_goesOn goes
      obtain ⟨first, others⟩ := List.isChain_cons_cons.mp ordered
      have following : InOrder next.now rest := by
        rw [polled.now]
        exact others
      refine ih (poll_inv inv first goes) following ?_ reached
      rw [polled.pongDeadline, inv.duration]
      by_cases pong : .pong ∈ turn.messages
      · simp only [if_pos pong]
      · simp only [if_neg pong]
        exact deadline

/-- A connection is given up exactly by the first poll three ping intervals after the last pong was
read, and in between it has pinged at most once an interval. -/
theorem finished_iff_silent {stream : Stream} {pingInterval : Duration} {now : Now} {s : KeptStream}
    (created : new stream pingInterval now = .ok s) {turns : List KeptTurn}
    (ordered : InOrder now.nanos turns) {last : KeptStream} (open_ : s.run turns = .goesOn last)
    {turn : KeptTurn} (quiet : Quiet pingInterval.nanos turn) :
    (last.poll turn = .finished ↔
      lastPong now.nanos turns + pingInterval.nanos * 3 ≤ turn.now.nanos) ∧
      now.nanos + last.ticks * pingInterval.nanos ≤ last.now + pingInterval.nanos := by
  obtain ⟨inv, deadline, time, _⟩ := new_inv created
  obtain ⟨kept, silent⟩ := run_open inv (time.symm ▸ ordered) deadline open_
  rw [← silent]
  refine ⟨?_, ?_⟩
  · rcases poll_of_quiet kept quiet with ⟨elapsed, ends⟩ | ⟨early, next, goes⟩
    · exact ⟨fun _ => elapsed, fun _ => ends⟩
    · constructor
      · intro ends
        cases ends.symm.trans goes
      · intro elapsed
        exact absurd elapsed (Nat.not_le_of_lt early)
  · have soon := kept.soon
    rw [kept.ticks] at soon
    exact soon

theorem five_seconds_lt_durationEnd : 5 * second < durationEnd := by
  simp only [second, durationEnd]
  omega

/-- How often the registry of the examples is pinged. -/
def fiveSeconds : Duration := ⟨5 * second, five_seconds_lt_durationEnd⟩

def registryStream : Stream :=
  Stream.new ⟨0⟩ (.ofByte 2) (NewStreamHandle.new (.ofByte 2) (.ofByte 1) ⟨0⟩) false

/-- A poll without requests that finds the given messages. -/
def pollAt (now : Now) (messages : List RegistryProtocol) : KeptTurn :=
  ⟨now, [], .notReady, .accepted, messages, .notReady⟩

theorem pollAt_quiet {pingInterval : Nat} {now : Now} (messages : List RegistryProtocol)
    (fits : now.nanos + pingInterval * 3 < instantEnd) :
    Quiet pingInterval (pollAt now messages) where
  requests := fun _ member => by cases member
  findPeerRequest := fun same => by cases same
  ping := fun _ same => by cases same
  stream := rfl
  fits := fits

/-- The stream as it is created at time zero. -/
def opened : KeptStream :=
  ⟨⟨OutgoingStream.new registryStream, 5 * second, 0, 5 * second * 3⟩, 0 + 5 * second * 3, 0, [], 0⟩

theorem opened_new : new registryStream fiveSeconds ⟨0, by decide⟩ = .ok opened := rfl

/-- A ping is sent at once and answered after a second. -/
def answeredPing : List KeptTurn :=
  [pollAt ⟨0 * second, early_of_le_minute (Nat.zero_le 60)⟩ [],
    pollAt ⟨1 * second, early_of_le_minute (Nat.le_add_right 1 59)⟩ [.pong]]

/-- Then the registry falls silent, and is given up fifteen seconds later. -/
theorem finished_after_silence : ∃ last, opened.run answeredPing = .goesOn last ∧
    last.poll (pollAt ⟨16 * second, by decide⟩ []) = .finished := by
  refine ⟨_, rfl, ?_⟩
  have ordered : InOrder 0 answeredPing := by simp [InOrder, answeredPing, pollAt]
  exact (finished_iff_silent opened_new ordered rfl (pollAt_quiet [] (by decide))).1.mpr (by decide)

/-- Every poll comes at most `gap` after the last one and has its ping accepted, and after it no
ping is unanswered for as long as `delay`. -/
def Responsive (pingInterval gap delay : Nat) : KeptStream → List KeptTurn → Prop
  | _, [] => True
  | s, turn :: rest => Quiet pingInterval turn ∧ turn.ping = .accepted ∧
      s.now ≤ turn.now.nanos ∧ turn.now.nanos ≤ s.now + gap ∧
      ∀ next, s.poll turn = .goesOn next →
        (∀ sent ∈ next.inFlight, turn.now.nanos < sent + delay) ∧
          Responsive pingInterval gap delay next rest

/-- How far the timeout is away: from the oldest ping in flight, or from the next ping. -/
def Covered (pingInterval gap delay : Nat) (s : KeptStream) : Prop :=
  match s.inFlight with
  | [] => s.stream.pingDeadline + pingInterval * 2 ≤ s.pongDeadline
  | sent :: _ => sent + pingInterval * 2 ≤ s.pongDeadline + gap ∧ s.now < sent + delay

structure Live (start pingInterval gap delay : Nat) (s : KeptStream) : Prop where
  inv : s.Inv start pingInterval
  ahead : s.now ≤ s.stream.pingDeadline
  past : ∀ sent ∈ s.inFlight, sent ≤ s.now
  covered : s.Covered pingInterval gap delay

section

variable {start pingInterval gap delay : Nat} {s next : KeptStream} {turn : KeptTurn}

theorem Live.early (live : s.Live start pingInterval gap delay) (positive : 0 < pingInterval)
    (bound : gap * 2 + delay ≤ pingInterval * 2)
    (prompt : turn.now.nanos ≤ s.now + gap) : turn.now.nanos < s.pongDeadline := by
  have ahead := live.ahead
  have covered := live.covered
  unfold Covered at covered
  split at covered <;> omega

/-- Where the oldest ping in flight after a poll comes from. -/
theorem Live.covers (live : s.Live start pingInterval gap delay)
    (prompt : turn.now.nanos ≤ s.now + gap) (accepted : turn.ping = .accepted)
    (goes : s.poll turn = .goesOn next) (sent : ∀ sent ∈ s.pinged turn, sent ≤ turn.now.nanos)
    (answered : ∀ sent ∈ next.inFlight, turn.now.nanos < sent + delay)
    (soon : next.stream.pingDeadline ≤ next.now + pingInterval) :
    next.Covered pingInterval gap delay := by
  have polled := polled_of_goesOn goes
  have ahead := live.ahead
  have covered := live.covered
  have time := polled.now
  have duration := live.inv.duration
  have deadline := polled.pongDeadline
  have inFlight := polled.inFlight
  by_cases pong : .pong ∈ turn.messages
  · rw [if_pos pong] at deadline
    unfold Covered
    split
    · omega
    · rename_i first rest found
      have member : first ∈ next.inFlight := found ▸ List.mem_cons_self
      have waiting := answered first member
      have before := sent first (List.mem_of_mem_drop (inFlight ▸ member))
      omega
  · rw [if_neg pong] at deadline
    rw [List.count_eq_zero_of_not_mem pong, List.drop_zero, pinged] at inFlight
    have moved := polled.pingDeadline
    unfold Covered at covered
    by_cases due : s.stream.pingDeadline ≤ turn.now.nanos
    · rw [if_pos ⟨due, accepted⟩] at inFlight
      cases waiting : s.inFlight with
      | nil =>
          rw [waiting] at covered inFlight
          have member : turn.now.nanos ∈ next.inFlight := by simp [inFlight]
          have young := answered turn.now.nanos member
          simp only [Covered, inFlight, List.nil_append]
          omega
      | cons first rest =>
          rw [waiting] at covered inFlight
          have member : first ∈ next.inFlight := by simp [inFlight]
          have young := answered first member
          simp only [Covered, inFlight, List.cons_append]
          omega
    · rw [if_neg (fun both => due both.1)] at inFlight
      rw [if_neg due] at moved
      cases waiting : s.inFlight with
      | nil =>
          rw [waiting] at covered inFlight
          simp only [Covered, inFlight]
          omega
      | cons first rest =>
          rw [waiting] at covered inFlight
          have member : first ∈ next.inFlight := by simp [inFlight]
          have young := answered first member
          simp only [Covered, inFlight]
          omega

theorem Live.poll (live : s.Live start pingInterval gap delay)
    (bound : gap * 2 + delay ≤ pingInterval * 2) (accepted : turn.ping = .accepted)
    (later : s.now ≤ turn.now.nanos) (prompt : turn.now.nanos ≤ s.now + gap)
    (goes : s.poll turn = .goesOn next)
    (answered : ∀ sent ∈ next.inFlight, turn.now.nanos < sent + delay) :
    next.Live start pingInterval gap delay := by
  have polled := polled_of_goesOn goes
  have inv := poll_inv live.inv later goes
  have ahead := live.ahead
  have soon := inv.soon
  have sent : ∀ sent ∈ s.pinged turn, sent ≤ turn.now.nanos := by
    intro sent member
    unfold pinged at member
    split at member
    · rcases List.mem_append.mp member with old | new
      · exact Nat.le_trans (live.past sent old) later
      · exact Nat.le_of_eq (List.mem_singleton.mp new)
    · exact Nat.le_trans (live.past sent member) later
  refine ⟨inv, ?_, ?_, ?_⟩
  · rw [polled.now, polled.pingDeadline, live.inv.interval]
    split <;> omega
  · intro time member
    rw [polled.inFlight] at member
    rw [polled.now]
    exact sent time (List.mem_of_mem_drop member)
  · exact live.covers prompt accepted goes sent answered soon

/-- As long as the registry answers its pings in time, no run of polls gives it up. -/
theorem run_of_responsive (positive : 0 < pingInterval)
    (bound : gap * 2 + delay ≤ pingInterval * 2) {turns : List KeptTurn}
    (live : s.Live start pingInterval gap delay)
    (responsive : Responsive pingInterval gap delay s turns) :
    ∃ last, s.run turns = .goesOn last := by
  induction turns generalizing s with
  | nil => exact ⟨s, rfl⟩
  | cons turn rest ih =>
      obtain ⟨quiet, accepted, later, prompt, follows⟩ := responsive
      have early := live.early positive bound prompt
      rcases poll_of_quiet live.inv quiet with ⟨elapsed, _⟩ | ⟨_, next, goes⟩
      · exact absurd elapsed (Nat.not_le_of_lt early)
      · obtain ⟨answered, others⟩ := follows next goes
        obtain ⟨last, reached⟩ :=
          ih (live.poll bound accepted later prompt goes answered) others
        exact ⟨last, Progress.bind_eq_goesOn_iff.mpr ⟨next, goes, reached⟩⟩

end

/-- A registry that answers is never given up: if every poll comes at most `gap` after the last one
and no ping stays unanswered for `delay`, where twice the gap and the delay fit into two ping
intervals, then the connection is open after any number of polls. -/
theorem responsive_stays_open {stream : Stream} {pingInterval : Duration} {now : Now}
    {s : KeptStream} (created : new stream pingInterval now = .ok s) {gap delay : Nat}
    (bound : gap * 2 + delay ≤ pingInterval.nanos * 2) {turns : List KeptTurn}
    (responsive : Responsive pingInterval.nanos gap delay s turns) :
    ∃ last, s.run turns = .goesOn last := by
  obtain ⟨inv, deadline, time, none, ping, positive⟩ := new_inv created
  refine run_of_responsive positive bound ⟨inv, ?_, ?_, ?_⟩ responsive
  · rw [time, ping]
  · intro sent member
    rw [none] at member
    cases member
  · unfold Covered
    rw [none, ping, deadline]
    omega

theorem answered_stays_open : ∃ last, opened.run answeredPing = .goesOn last := by
  have bound : 2 * second * 2 + 2 * second ≤ fiveSeconds.nanos * 2 := by decide
  refine responsive_stays_open opened_new bound ?_
  refine ⟨pollAt_quiet [] (by decide), rfl, by decide, by decide, ?_⟩
  intro next goes
  cases goes
  refine ⟨by decide, pollAt_quiet [.pong] (by decide), rfl, by decide, by decide, ?_⟩
  intro next goes
  cases goes
  exact ⟨by decide, trivial⟩

end KeptStream

end HolePunch.Remote
