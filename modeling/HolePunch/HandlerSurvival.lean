import HolePunch.Registries.ConnectionHandler

set_option autoImplicit false

/- When the task of a remote registry outlives everything that its connections go through. -/
namespace HolePunch

namespace ConnectWithStrategies

/-- The poll finds the stream of the attempt opened, and sends the hello on it. -/
def Opens (connect : ConnectWithStrategies) (answers : ConnectAnswers) : Prop :=
  (∃ wait, connect.connect = some (.waitForConnectStream wait)) ∧
    answers.timeout = .notReady ∧ answers.opened = .ready ()

def HelloFails (answers : ConnectAnswers) : Prop := ∃ reason, answers.flushed = .error reason

theorem step_of_opens {connect : ConnectWithStrategies} {answers : ConnectAnswers}
    (opens : connect.Opens answers) :
    (HelloFails answers ∧ connect.step answers = .panic "poll complete stream hello") ∨
    (¬ HelloFails answers ∧ connect.retrying = true ∧
      connect.step answers = .transition { connect with connect := none, retrying := false }) ∨
    (¬ HelloFails answers ∧ connect.retrying = false ∧
      ∃ stream, connect.step answers = .ready stream) := by
  obtain ⟨⟨wait, waiting⟩, timeout, opened⟩ := opens
  unfold HelloFails
  cases flushed : answers.flushed with
  | error reason =>
      refine Or.inl ⟨⟨reason, rfl⟩, ?_⟩
      simp [step, waiting, ConnectStateMachine.step, ConnectStateMachine.pollWaitForConnectStream,
        timeout, opened, flushed, NewStreamFuture.poll]
  | notReady | ready value =>
      have attempt :
          ConnectStateMachine.step (.waitForConnectStream wait) connect.helloMsg answers =
            .ready wait.stream := by
        simp [ConnectStateMachine.step, ConnectStateMachine.pollWaitForConnectStream, timeout,
          opened, flushed, NewStreamFuture.poll]
      cases again : connect.retrying with
      | true => exact Or.inr (Or.inl ⟨by simp, rfl, by simp [step, waiting, attempt, again]⟩)
      | false =>
          exact Or.inr (Or.inr ⟨by simp, rfl, wait.stream, by simp [step, waiting, attempt, again]⟩)

/-- Without the hello an attempt neither completes nor panics. -/
theorem attempt_of_not_opens {machine : ConnectStateMachine} (helloMsg : StreamHello)
    {answers : ConnectAnswers}
    (waits : ∀ wait, machine = .waitForConnectStream wait → answers.timeout = .notReady →
      answers.opened ≠ .ready ()) :
    (∀ message, machine.step helloMsg answers ≠ .panic message) ∧
      ∀ stream, machine.step helloMsg answers ≠ .ready stream := by
  cases machine with
  | initConnect =>
      simp [ConnectStateMachine.step, ConnectStateMachine.pollInitConnect]
  | waitForConnection =>
      simp only [ConnectStateMachine.step, ConnectStateMachine.pollWaitForConnection]
      cases answers.timeout with
      | error => simp
      | notReady => cases answers.connection <;> simp
  | waitForConnectStream wait =>
      simp only [ConnectStateMachine.step, ConnectStateMachine.pollWaitForConnectStream]
      cases timeout : answers.timeout with
      | error => simp
      | notReady =>
          have pending := waits wait rfl timeout
          cases opened : answers.opened with
          | ready value => exact absurd opened pending
          | notReady => simp [NewStreamFuture.poll]
          | error reason => simp [NewStreamFuture.poll]

theorem step_of_not_opens {connect : ConnectWithStrategies} {answers : ConnectAnswers}
    (waits : ¬ connect.Opens answers) :
    (∀ message, connect.step answers ≠ .panic message) ∧
      ∀ stream, connect.step answers ≠ .ready stream := by
  unfold step
  cases current : connect.connect with
  | none => simp
  | some machine =>
      have pending : ∀ wait, machine = .waitForConnectStream wait → answers.timeout = .notReady →
          answers.opened ≠ .ready () := by
        intro wait same timeout opened
        exact waits ⟨⟨wait, by rw [current, same]⟩, timeout, opened⟩
      obtain ⟨noPanic, noStream⟩ := attempt_of_not_opens connect.helloMsg pending
      cases attempt : machine.step connect.helloMsg answers with
      | panic message => exact absurd attempt (noPanic message)
      | ready stream => exact absurd attempt (noStream stream)
      | notReady => simp [attempt]
      | transition next => simp [attempt]
      | error reason =>
          simp only [attempt]
          split
          · simp
          · split <;> simp

end ConnectWithStrategies

namespace Remote

open ConnectWithStrategies (HelloFails)

/-- A ping interval that the timers of a connection made now can be set to. -/
def PingFits (pingInterval : Duration) (now : Now) : Prop :=
  0 < pingInterval.nanos ∧ pingInterval.nanos * 3 < durationEnd ∧
    now.nanos + pingInterval.nanos * 3 < instantEnd

theorem addDuration_eq (instant duration : Nat) :
    (instant + duration < instantEnd ∧ addDuration instant duration = .ok (instant + duration)) ∨
    (¬ instant + duration < instantEnd ∧
      addDuration instant duration = .error "overflow when adding duration to instant") := by
  by_cases fits : instant + duration < instantEnd
  · exact Or.inl ⟨fits, if_pos fits⟩
  · exact Or.inr ⟨fits, if_neg fits⟩

theorem newTimedStream_iff (stream : Stream) (pingInterval : Duration) (now : Now) :
    (∃ connection, TimedStream.new stream pingInterval now = .ok connection) ↔
      PingFits pingInterval now := by
  unfold TimedStream.new mulDuration newInterval PingFits
  by_cases product : pingInterval.nanos * 3 < durationEnd
  · by_cases positive : 0 < pingInterval.nanos
    · rcases addDuration_eq now.nanos (pingInterval.nanos * 3) with ⟨fits, sum⟩ | ⟨late, sum⟩
      · simp [product, positive, fits, sum, pure, Except.pure, bind, Except.bind]
      · simp [product, positive, late, sum, bind, Except.bind]
    · simp [product, positive, bind, Except.bind]
  · simp [product, bind, Except.bind]

namespace ConnectionHandler

/-- A handler goes on in one of the three states. -/
def Continues (outcome : Outcome) : Prop := ∃ handler, outcome = .ok (.ok handler)

theorem resolve_eq (context : ConnectionHandlerContext) (now : Now) :
    (now.nanos + context.waitBetweenResolve.nanos < instantEnd ∧
      resolve context now = .ok ()) ∨
    (¬ now.nanos + context.waitBetweenResolve.nanos < instantEnd ∧
      ∃ message, resolve context now = .error message) := by
  obtain ⟨⟨resolvers, given⟩, strategies, pingInterval, wait⟩ := context
  obtain ⟨before, rfl⟩ := Nat.exists_eq_add_of_lt given
  simp only [resolve, resolversToStream]
  rcases addDuration_eq now.nanos wait.nanos with ⟨fits, sum⟩ | ⟨late, sum⟩
  · exact Or.inl ⟨fits, by simp [sum, bind, Except.bind, pure, Except.pure]⟩
  · refine Or.inr ⟨late, "overflow when adding duration to instant", ?_⟩
    simp [sum, bind, Except.bind]

theorem pollRequestNextPeerAddr_continues_iff (context : ConnectionHandlerContext)
    (answer : Resolving) (now : Now) :
    Continues (pollRequestNextPeerAddr context false answer now) ↔
      (answer = .ended true → now.nanos + context.waitBetweenResolve.nanos < instantEnd) := by
  cases answer with
  | notReady => simp [pollRequestNextPeerAddr, Continues]
  | failed => simp [pollRequestNextPeerAddr, Continues]
  | addr addr =>
      simp [pollRequestNextPeerAddr, Continues, unlessDropped,
        ConnectWithStrategies.new_of_pos context.strategies.property]
  | ended waited =>
      cases waited with
      | false => simp [pollRequestNextPeerAddr, Continues]
      | true =>
          rcases resolve_eq context now with ⟨fits, resolved⟩ | ⟨late, message, failed⟩
          · simp [pollRequestNextPeerAddr, Continues, resolved, fits]
          · simp [pollRequestNextPeerAddr, Continues, failed, late]

theorem pollConnectToPeer_continues_iff (context : ConnectionHandlerContext)
    (connect : ConnectWithStrategies) (answers : ConnectAnswers) (now : Now) :
    Continues (pollConnectToPeer context false connect answers now) ↔
      (connect.Opens answers → ¬ HelloFails answers ∧
        (connect.retrying = false → PingFits context.pingInterval now)) := by
  by_cases opens : connect.Opens answers
  · simp only [opens, true_implies]
    rcases ConnectWithStrategies.step_of_opens opens with
      ⟨fails, stepped⟩ | ⟨sent, again, stepped⟩ | ⟨sent, first, stream, stepped⟩
    · simp [pollConnectToPeer, unlessDropped, stepped, Continues, fails]
    · simp [pollConnectToPeer, unlessDropped, stepped, Continues, sent, again]
    · have made := newTimedStream_iff stream context.pingInterval now
      simp only [sent, not_false_eq_true, true_and, first, true_implies]
      rw [← made]
      simp only [pollConnectToPeer, unlessDropped, stepped, Continues]
      cases TimedStream.new stream context.pingInterval now <;> simp
  · obtain ⟨noPanic, noStream⟩ := ConnectWithStrategies.step_of_not_opens opens
    simp only [opens, false_implies, iff_true]
    cases stepped : connect.step answers with
    | panic message => exact absurd stepped (noPanic message)
    | ready stream => exact absurd stepped (noStream stream)
    | notReady => simp [pollConnectToPeer, unlessDropped, stepped, Continues]
    | transition next => simp [pollConnectToPeer, unlessDropped, stepped, Continues]
    | error reason => simp [pollConnectToPeer, unlessDropped, stepped, Continues]

end ConnectionHandler

/-- The timers of a connection can take what this turn sets them to. -/
def TimedStream.Keeps (s : TimedStream) : StreamTurn → Prop
  | .ping _ => s.pingDeadline + s.pingInterval < instantEnd
  | .message .pong now timer =>
      now.nanos + s.pongTimeoutDuration < instantEnd ∧ timer ≠ .elapsed
  | _ => True

theorem TimedStream.turn_ok_iff (s : TimedStream) (turn : StreamTurn) :
    (∃ next, s.turn turn = .ok next) ↔ s.Keeps turn := by
  cases turn with
  | request peer sender isCanceled send =>
      simp only [TimedStream.turn, Keeps, iff_true]
      split <;> exact ⟨_, rfl⟩
  | notReady => simp [TimedStream.turn, Keeps]
  | ends => simp [TimedStream.turn, Keeps]
  | ping send =>
      rcases addDuration_eq s.pingDeadline s.pingInterval with ⟨fits, sum⟩ | ⟨late, sum⟩
      · cases send <;>
          simp [TimedStream.turn, Keeps, fits, sum, bind, Except.bind, pure, Except.pure]
      · simp [TimedStream.turn, Keeps, late, sum, bind, Except.bind]
  | message message now timer =>
      cases message with
      | pong =>
          rcases addDuration_eq now.nanos s.pongTimeoutDuration with ⟨fits, sum⟩ | ⟨late, sum⟩
          · cases timer <;>
              simp [TimedStream.turn, Keeps, fits, sum, bind, Except.bind, pure, Except.pure,
                throw, throwThe, MonadExceptOf.throw]
          · simp [TimedStream.turn, Keeps, late, sum, bind, Except.bind]
      | _ => simp [TimedStream.turn, Keeps]

theorem ConnectionHandler.pollHandleConnection_continues_iff (connection : TimedStream)
    (turn : StreamTurn) :
    Continues (pollHandleConnection false connection turn) ↔ connection.Keeps turn := by
  rw [← connection.turn_ok_iff]
  simp only [pollHandleConnection, unlessDropped, Continues]
  cases connection.turn turn with
  | error message => simp
  | ok next => cases next <;> simp

namespace HandlerRun

/-- As long as the registry is alive, the handler is in one of its three states, and looking for a
peer finds its receiver. -/
def Alive (s : HandlerRun) : Prop :=
  s.dropped = false → (∃ handler, s.task = .running handler) ∧ s.findPeer = .ok ()

/-- What a step must not meet: a hello that fails, a ping interval or a timeout that the timers
cannot be set to, and a pong timeout that has elapsed as soon as it is reset. -/
def Endures (context : ConnectionHandlerContext) (s : HandlerRun) (event : Event) : Prop :=
  s.dropped = false →
    match s.task, event with
    | .running .requestNextPeerAddr, .resolve answer now =>
        answer = .ended true → now.nanos + context.waitBetweenResolve.nanos < instantEnd
    | .running (.connectToPeer connect), .connect answers now =>
        connect.Opens answers → ¬ HelloFails answers ∧
          (connect.retrying = false → PingFits context.pingInterval now)
    | .running (.handleConnection connection), .handle turn => connection.Keeps turn
    | _, _ => True

theorem alive_of_running {s : HandlerRun} {handler : ConnectionHandler}
    (running : s.task = .running handler) : s.Alive := by
  intro _
  refine ⟨⟨handler, running⟩, ?_⟩
  rw [findPeer, running]

theorem finish_alive_iff {s : HandlerRun} (kept : s.dropped = false)
    (outcome : ConnectionHandler.Outcome) :
    (s.finish outcome).Alive ↔ ConnectionHandler.Continues outcome := by
  rcases outcome with message | reason | handler
  · simp [finish, Alive, kept, ConnectionHandler.Continues]
  · simp [finish, Alive, kept, ConnectionHandler.Continues]
  · simp only [ConnectionHandler.Continues, Except.ok.injEq, exists_eq', iff_true]
    exact alive_of_running rfl

theorem finish_dropped (s : HandlerRun) (outcome : ConnectionHandler.Outcome) :
    (s.finish outcome).dropped = s.dropped := by
  rcases outcome with message | reason | handler <;> rfl

theorem step_dropped (context : ConnectionHandlerContext) {s : HandlerRun}
    (gone : s.dropped = true) (event : Event) : (s.step context event).dropped = true := by
  unfold step
  split
  · rfl
  all_goals first | exact gone | exact (finish_dropped s _).trans gone

theorem step_alive_iff (context : ConnectionHandlerContext) (s : HandlerRun) (event : Event)
    (alive : s.Alive) : (s.step context event).Alive ↔ s.Endures context event := by
  cases kept : s.dropped with
  | true =>
      have gone := step_dropped context kept event
      simp [Alive, Endures, gone, kept]
  | false =>
      obtain ⟨⟨handler, running⟩, -⟩ := alive kept
      cases event with
      | drop => simp [step, Alive, Endures, running]
      | resolve answer now =>
          cases handler with
          | requestNextPeerAddr =>
              simp only [step, Endures, running, kept, true_implies]
              rw [finish_alive_iff kept]
              exact ConnectionHandler.pollRequestNextPeerAddr_continues_iff context answer now
          | _ =>
              simp only [step, Endures, running, implies_true, iff_true]
              exact alive
      | connect answers now =>
          cases handler with
          | connectToPeer connect =>
              simp only [step, Endures, running, kept, true_implies]
              rw [finish_alive_iff kept]
              exact ConnectionHandler.pollConnectToPeer_continues_iff context connect answers now
          | _ =>
              simp only [step, Endures, running, implies_true, iff_true]
              exact alive
      | handle turn =>
          cases handler with
          | handleConnection connection =>
              simp only [step, Endures, running, kept, true_implies]
              rw [finish_alive_iff kept]
              exact ConnectionHandler.pollHandleConnection_continues_iff connection turn
          | _ =>
              simp only [step, Endures, running, implies_true, iff_true]
              exact alive

/-- The handler stays alive over a whole run exactly when its first wait can be set and no step
meets what it does not endure. -/
theorem alive_iff_endures (context : ConnectionHandlerContext) (now : Now) (events : List Event) :
    Transition.Throughout (step context) Alive (start context now) events ↔
      now.nanos + context.waitBetweenResolve.nanos < instantEnd ∧
        Transition.Meets (step context) (Endures context) (start context now) events := by
  rcases ConnectionHandler.resolve_eq context now with ⟨fits, resolved⟩ | ⟨late, message, failed⟩
  · have begins : (start context now).Alive := by
      simp only [start, resolved]
      exact alive_of_running rfl
    simp only [fits, true_and]
    exact Transition.throughout_iff_meets (step_alive_iff context) begins events
  · simp only [late, false_and, iff_false]
    intro always
    have begins := always [] List.nil_prefix
    simp only [Transition.run, List.foldl_nil, start, failed] at begins
    obtain ⟨⟨handler, running⟩, -⟩ := begins rfl
    cases running

theorem zero_lt_durationEnd : 0 < durationEnd := by
  simp [durationEnd, second]

theorem two_seconds_lt_durationEnd : 2 * second < durationEnd := by
  simp [durationEnd, second]

theorem ten_seconds_lt_instantEnd : 0 + 10 * second < instantEnd := by
  simp [instantEnd, second]

/-- A configuration with a ping interval of zero. -/
def withoutInterval : ConnectionHandlerContext where
  resolvers := ⟨1, Nat.one_pos⟩
  strategies := ⟨1, Nat.one_pos⟩
  pingInterval := ⟨0, zero_lt_durationEnd⟩
  waitBetweenResolve := ⟨2 * second, two_seconds_lt_durationEnd⟩

def clock : Now := ⟨0, ten_seconds_lt_instantEnd⟩

/-- The first address is resolved and the connection to it is made. -/
def firstConnection : List Event :=
  let handle := NewStreamHandle.new (.ofByte 1) (.ofByte 2) ⟨0⟩
  let answers : ConnectAnswers :=
    ⟨.notReady, .ready ⟨⟨0, 0⟩, handle, .ofByte 1, 0⟩, .ready (), .ready ()⟩
  [.resolve (.addr ⟨.v4 1, 22222⟩) clock, .connect answers clock, .connect answers clock,
    .connect answers clock]

theorem withoutInterval_panics :
    ¬ ∀ (context : ConnectionHandlerContext) (now : Now) (events : List Event),
      Transition.Throughout (step context) Alive (start context now) events := by
  intro always
  have alive := always withoutInterval clock firstConnection firstConnection (List.prefix_refl _)
  have started : start withoutInterval clock = ⟨.running .requestNextPeerAddr, false⟩ := by
    simp [start, ConnectionHandler.resolve, withoutInterval, ConnectionHandler.resolversToStream,
      addDuration, clock, second, instantEnd, bind, Except.bind, pure, Except.pure]
  rw [started] at alive
  have panicked : Transition.run (step withoutInterval) ⟨.running .requestNextPeerAddr, false⟩
      firstConnection = ⟨.panicked "`duration` must be non-zero.", false⟩ := by
    rfl
  rw [panicked] at alive
  obtain ⟨⟨handler, running⟩, -⟩ := alive rfl
  cases running

end HandlerRun

end Remote

end HolePunch
