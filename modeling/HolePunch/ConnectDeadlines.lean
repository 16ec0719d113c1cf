import HolePunch.ConnectAttempts
import HolePunch.Registries.ConnectionHandler

set_option autoImplicit false

/- How long a connection to an address takes: the attempts against the clock (`connect.rs`,
`timeout.rs`). -/
namespace HolePunch

open Remote (second Now)
open Transition (Meets)

/-- Fires `duration` after it was created or last reset. -/
structure Timeout where
  deadline : Nat
  duration : Nat
  deriving DecidableEq, Repr

namespace Timeout

def new (duration : Nat) (now : Now) : Timeout := ⟨now.nanos + duration, duration⟩

def reset (s : Timeout) (now : Now) : Timeout := { s with deadline := now.nanos + s.duration }

def newReset (s : Timeout) (now : Now) : Timeout := s.reset now

/-- Never completes. A timer that fails counts as one that is over. -/
def poll (s : Timeout) (timerFails : Bool) (now : Now) : TimeoutPoll :=
  if timerFails ∨ s.deadline ≤ now.nanos then .error else .notReady

theorem poll_notReady {s : Timeout} {timerFails : Bool} {now : Now}
    (pending : s.poll timerFails now = .notReady) : now.nanos < s.deadline := by
  unfold poll at pending
  split at pending
  · cases pending
  · rename_i early
    omega

theorem poll_error {s : Timeout} {now : Now} (elapsed : s.poll false now = .error) :
    s.deadline ≤ now.nanos := by
  unfold poll at elapsed
  split at elapsed
  · rename_i late
    exact late.resolve_left Bool.false_ne_true
  · cases elapsed

end Timeout

/-- How long an attempt waits for its connection, and once more for its stream. -/
def connectTimeout : Nat := 4 * second

/-- A connection being made. An attempt has a timeout as soon as it is polled for the first time. -/
structure TimedTrying where
  trying : Trying
  timeout : Option Timeout
  now : Nat
  deriving Repr

/-- A handler is called at this time and finds these answers. -/
structure ConnectTurn where
  now : Now
  timerFails : Bool
  connection : Poll Connection
  opened : Poll Unit
  flushed : Poll Unit

/-- Neither the timer nor the connection nor the stream fails. -/
def ConnectTurn.Faultless (turn : ConnectTurn) : Prop :=
  turn.timerFails = false ∧ (∀ reason, turn.connection ≠ .error reason) ∧
    ∀ reason, turn.opened ≠ .error reason

namespace TimedTrying

def new (connect : ConnectWithStrategies) (now : Nat) : TimedTrying :=
  ⟨Trying.new connect, none, now⟩

def answers (s : TimedTrying) (turn : ConnectTurn) : ConnectAnswers where
  timeout := match s.timeout with
    | none => .notReady
    | some timeout => timeout.poll turn.timerFails turn.now
  connection := turn.connection
  opened := turn.opened
  flushed := turn.flushed

/-- The attempt that is being polled. -/
def attempt (s : TimedTrying) : Option ConnectStateMachine :=
  match s.trying.ended with
  | none => s.trying.connect.connect
  | some _ => none

/-- The strategies that are not tried yet. -/
def left (s : TimedTrying) : Nat := s.trying.connect.strategies

/-- The first handler of an attempt creates its timeout, the one that gets the connection resets
it. A new attempt has none yet. -/
def timeoutAfter (s : TimedTrying) (turn : ConnectTurn) : Option Timeout :=
  match s.attempt with
  | none => s.timeout
  | some machine =>
      match machine.step s.trying.connect.helloMsg (s.answers turn) with
      | .transition .waitForConnection => some (Timeout.new connectTimeout turn.now)
      | .transition _ => s.timeout.map (·.newReset turn.now)
      | .error _ => none
      | _ => s.timeout

def step (s : TimedTrying) (turn : ConnectTurn) : TimedTrying where
  trying := s.trying.step (s.answers turn)
  timeout := s.timeoutAfter turn
  now := turn.now.nanos

/-- When the task is due to be polled again. -/
def due (s : TimedTrying) : Nat :=
  match s.timeout with
  | none => s.now
  | some timeout => timeout.deadline

/-- The clock goes forward, and the task is polled at the latest so long after its timer. -/
def Punctual (latency : Nat) (s : TimedTrying) (turn : ConnectTurn) : Prop :=
  s.now ≤ turn.now.nanos ∧ (s.attempt ≠ none → turn.now.nanos ≤ s.due + latency)

/-- The poll that takes a strategy up does not itself last until the timeout of the attempt. -/
def Prompt (s : TimedTrying) (turn : ConnectTurn) : Prop :=
  s.trying.connect.retrying = true → ∀ timeout, s.timeout = some timeout →
    turn.now.nanos < timeout.deadline

/-- All that a call of the handler of an attempt can do. -/
inductive Moves (s : TimedTrying) (turn : ConnectTurn) (next : TimedTrying) : Prop
  | starts (before : s.attempt = some .initConnect) (after : next.attempt = some .waitForConnection)
      (left : next.left = s.left)
      (timeout : next.timeout = some (Timeout.new connectTimeout turn.now))
  | connects (wait : NewStreamFuture) (before : s.attempt = some .waitForConnection)
      (pending : (s.answers turn).timeout = .notReady)
      (after : next.attempt = some (.waitForConnectStream wait)) (left : next.left = s.left)
      (timeout : next.timeout = s.timeout.map (·.newReset turn.now))
  | waits (before : s.attempt ≠ some .initConnect) (pending : (s.answers turn).timeout = .notReady)
      (after : next.attempt = s.attempt) (left : next.left = s.left)
      (timeout : next.timeout = s.timeout)
  | fails (before : s.attempt ≠ some .initConnect)
      (elapsed : turn.Faultless → (s.answers turn).timeout = .error)
      (after : next.attempt = some .initConnect) (left : s.left = next.left + 1)
      (timeout : next.timeout = none)
  | givesUp (before : s.attempt ≠ some .initConnect)
      (elapsed : turn.Faultless → (s.answers turn).timeout = .error)
      (last : s.trying.connect.retrying = false → s.left = 0) (after : next.attempt = none)
  | ends (after : next.attempt = none)
      (noError : ∀ reason, next.trying.ended ≠ some (.error reason))

variable {s : TimedTrying} {turn : ConnectTurn} {machine : ConnectStateMachine}

/-- An attempt with a timeout fails with it, and otherwise only with what it waits for. -/
theorem machine_error {helloMsg : StreamHello} {reason : Error}
    (failed : machine.step helloMsg (s.answers turn) = .error reason) : machine ≠ .initConnect ∧
      (turn.Faultless → (s.answers turn).timeout = .error) := by
  cases machine with
  | initConnect => cases failed
  | waitForConnection =>
      refine ⟨(fun same => by cases same), fun faultless => ?_⟩
      simp only [ConnectStateMachine.step, ConnectStateMachine.pollWaitForConnection] at failed
      split at failed
      · assumption
      · split at failed
        · cases failed
        · rename_i connection
          exact absurd connection (faultless.2.1 _)
        · cases failed
  | waitForConnectStream wait =>
      refine ⟨(fun same => by cases same), fun faultless => ?_⟩
      simp only [ConnectStateMachine.step, ConnectStateMachine.pollWaitForConnectStream] at failed
      split at failed
      · assumption
      · split at failed
        · cases failed
        · cases failed
        · rename_i opened
          exact absurd (NewStreamFuture.poll_error opened) (faultless.2.2 _)
        · cases failed

theorem machine_notReady {helloMsg : StreamHello}
    (waits : machine.step helloMsg (s.answers turn) = .notReady) :
    machine ≠ .initConnect ∧ (s.answers turn).timeout = .notReady := by
  cases machine with
  | initConnect => cases waits
  | waitForConnection =>
      refine ⟨(fun same => by cases same), ?_⟩
      simp only [ConnectStateMachine.step, ConnectStateMachine.pollWaitForConnection] at waits
      split at waits
      · cases waits
      · assumption
  | waitForConnectStream wait =>
      refine ⟨(fun same => by cases same), ?_⟩
      simp only [ConnectStateMachine.step, ConnectStateMachine.pollWaitForConnectStream] at waits
      split at waits
      · cases waits
      · assumption

theorem machine_transition {helloMsg : StreamHello} {next : ConnectStateMachine}
    (moved : machine.step helloMsg (s.answers turn) = .transition next) :
    machine = .initConnect ∧ next = .waitForConnection ∨
    machine = .waitForConnection ∧ (s.answers turn).timeout = .notReady ∧
      ∃ wait, next = .waitForConnectStream wait := by
  cases machine with
  | initConnect =>
      cases moved
      exact Or.inl ⟨rfl, rfl⟩
  | waitForConnection =>
      simp only [ConnectStateMachine.step, ConnectStateMachine.pollWaitForConnection] at moved
      split at moved
      · cases moved
      · rename_i pending
        split at moved
        · cases moved
        · cases moved
        · cases moved
          exact Or.inr ⟨rfl, pending, _, rfl⟩
  | waitForConnectStream wait =>
      simp only [ConnectStateMachine.step, ConnectStateMachine.pollWaitForConnectStream] at moved
      split at moved
      · cases moved
      · split at moved <;> cases moved

theorem attempt_eq_some_iff :
    s.attempt = some machine ↔ s.trying.ended = none ∧ s.trying.connect.connect = some machine := by
  unfold attempt
  split
  · simp [*]
  · simp [*]

/-- A call that finds an attempt moves it, ends it, or takes up the next strategy. -/
theorem step_moves (turn : ConnectTurn) (current : s.attempt = some machine) :
    s.Moves turn (s.step turn) := by
  obtain ⟨trying, connect⟩ := attempt_eq_some_iff.mp current
  have tried := Trying.step_eq (s.answers turn) trying connect
  have timeout : (s.step turn).timeout = s.timeoutAfter turn := rfl
  simp only [timeoutAfter, current] at timeout
  cases result : machine.step s.trying.connect.helloMsg (s.answers turn) with
  | panic message =>
      simp only [result] at tried
      refine .ends ?_ ?_
      · simp [attempt, step, tried]
      · simp [step, tried]
  | transition next =>
      simp only [result] at tried timeout
      have after : (s.step turn).attempt = some next := by
        simp [attempt, step, tried, trying]
      have left : (s.step turn).left = s.left := by
        simp [TimedTrying.left, step, tried]
      rcases machine_transition result with ⟨rfl, rfl⟩ | ⟨rfl, pending, wait, rfl⟩
      · exact .starts current after left timeout
      · exact .connects wait current pending after left timeout
  | notReady =>
      simp only [result] at tried timeout
      obtain ⟨other, pending⟩ := machine_notReady result
      refine .waits ?_ pending ?_ ?_ timeout
      · rw [current]
        exact fun same => other (Option.some.inj same)
      · rw [current]
        simp [attempt, step, tried, trying, connect]
      · simp [left, step, tried]
  | ready stream =>
      simp only [result] at tried
      refine .ends ?_ ?_
      · simp only [attempt, step, tried]
        cases s.trying.connect.retrying <;> simp [trying]
      · simp only [step, tried]
        cases s.trying.connect.retrying <;> simp [trying]
  | error reason =>
      simp only [result] at tried timeout
      obtain ⟨other, elapsed⟩ := machine_error result
      have before : s.attempt ≠ some .initConnect := by
        rw [current]
        exact fun same => other (Option.some.inj same)
      cases again : s.trying.connect.retrying with
      | true =>
          refine .givesUp before elapsed (fun first => ?_) ?_
          · cases first.symm.trans again
          simp [attempt, step, tried, again]
      | false =>
          simp only [again, Bool.false_eq_true, ↓reduceIte] at tried
          cases more : s.trying.connect.strategies with
          | zero =>
              refine .givesUp before elapsed (fun _ => more) ?_
              simp [attempt, step, tried, more]
          | succ untried =>
              simp only [more] at tried
              refine .fails before elapsed ?_ ?_ timeout
              · simp [attempt, step, tried, trying]
              · simp [left, step, tried, more]

/-- What an attempt can still need: both its timeouts, the second alone, or nothing more. -/
def remaining (latency : Nat) : ConnectStateMachine → Nat
  | .initConnect => 2 * connectTimeout + 2 * latency
  | .waitForConnection => connectTimeout + latency
  | .waitForConnectStream _ => latency

/-- What an attempt still needs if nothing but its timeout ends it. -/
def ahead : ConnectStateMachine → Nat
  | .initConnect => connectTimeout
  | _ => 0

/-- How long one attempt can take at most. -/
def attemptTime (latency : Nat) : Nat := 2 * connectTimeout + 2 * latency

/-- Only an attempt that was not polled yet has no timeout, and a timeout is pending. -/
def Armed (s : TimedTrying) : Prop :=
  ∀ machine, s.attempt = some machine → match machine with
    | .initConnect => s.timeout = none
    | _ => ∃ timeout, s.timeout = some timeout ∧ timeout.duration = connectTimeout ∧
        s.now < timeout.deadline ∧ timeout.deadline ≤ s.now + connectTimeout

/-- The attempt that runs and those left are over by the given time. -/
def EndsBy (latency finish : Nat) (s : TimedTrying) : Prop :=
  ∀ machine, s.attempt = some machine →
    s.due + remaining latency machine + s.left * attemptTime latency ≤ finish

/-- The attempt that runs and those left last until the given time if nothing fails. -/
def LastsUntil (finish : Nat) (s : TimedTrying) : Prop :=
  (∀ reason, s.trying.ended = some (.error reason) → finish ≤ s.now) ∧
  ∀ machine, s.attempt = some machine →
    finish ≤ s.due + ahead machine + s.left * connectTimeout

theorem connectTimeout_pos : 0 < connectTimeout := by
  simp [connectTimeout, second]

theorem answers_timeout {timeout : Timeout} (given : s.timeout = some timeout) :
    (s.answers turn).timeout = timeout.poll turn.timerFails turn.now := by
  simp only [answers, given]

theorem due_eq {timeout : Timeout} (given : s.timeout = some timeout) :
    s.due = timeout.deadline := by
  simp only [due, given]

/-- The timeout of an attempt that has been polled. -/
theorem Armed.timeout (armed : s.Armed) (current : s.attempt = some machine)
    (polled : machine ≠ .initConnect) : ∃ timeout, s.timeout = some timeout ∧
      timeout.duration = connectTimeout ∧ s.now < timeout.deadline ∧
      timeout.deadline ≤ s.now + connectTimeout := by
  have given := armed machine current
  cases machine with
  | initConnect => exact absurd rfl polled
  | waitForConnection => exact given
  | waitForConnectStream wait => exact given

theorem step_of_no_attempt (turn : ConnectTurn) (elapsed : s.attempt = none) :
    (s.step turn).attempt = none ∧ (s.step turn).trying.ended = s.trying.ended := by
  have same : s.trying.step (s.answers turn) = s.trying := by
    cases ended : s.trying.ended with
    | some result => exact Trying.step_ended _ ended
    | none =>
        simp only [attempt, ended] at elapsed
        exact Trying.step_spent _ ended elapsed
  refine ⟨?_, congrArg Trying.ended same⟩
  simp only [attempt, step, same]
  exact elapsed

theorem step_armed (armed : s.Armed) (forward : s.now ≤ turn.now.nanos) :
    (s.step turn).Armed := by
  intro machine after
  cases before : s.attempt with
  | none =>
      rw [(step_of_no_attempt turn before).1] at after
      cases after
  | some current =>
      have positive := connectTimeout_pos
      have clock : (s.step turn).now = turn.now.nanos := rfl
      cases step_moves turn before with
      | starts _ next _ timeout =>
          cases next.symm.trans after
          refine ⟨_, timeout, rfl, ?_, ?_⟩
          · rw [clock]
            exact Nat.lt_add_of_pos_right positive
          · rw [clock]
            exact Nat.le_refl _
      | connects wait was _ next _ timeout =>
          cases next.symm.trans after
          obtain ⟨given, same, duration, _⟩ := armed.timeout was (fun same => by cases same)
          refine ⟨given.newReset turn.now, by rw [timeout, same]; rfl, duration, ?_, ?_⟩
          · rw [clock]
            change turn.now.nanos < turn.now.nanos + given.duration
            omega
          · rw [clock]
            change turn.now.nanos + given.duration ≤ turn.now.nanos + connectTimeout
            omega
      | waits other pending next _ timeout =>
          rw [next] at after
          have polled : machine ≠ .initConnect := fun same => other (by rw [after, same])
          obtain ⟨given, same, duration, _, set⟩ := armed.timeout after polled
          rw [answers_timeout same] at pending
          have early := Timeout.poll_notReady pending
          have still : given.deadline ≤ turn.now.nanos + connectTimeout := by omega
          rw [← clock] at early still
          rw [same] at timeout
          cases machine with
          | initConnect => exact absurd rfl polled
          | waitForConnection => exact ⟨given, timeout, duration, early, still⟩
          | waitForConnectStream wait => exact ⟨given, timeout, duration, early, still⟩
      | fails _ _ next _ timeout =>
          cases next.symm.trans after
          exact timeout
      | givesUp _ _ _ next => cases next.symm.trans after
      | ends next _ => cases next.symm.trans after

theorem latency_le_remaining (latency : Nat) (machine : ConnectStateMachine) :
    latency ≤ remaining latency machine := by
  cases machine with
  | initConnect =>
      change latency ≤ 2 * connectTimeout + 2 * latency
      omega
  | waitForConnection => exact Nat.le_add_left latency connectTimeout
  | waitForConnectStream wait => exact Nat.le_refl latency

/-- A call in time uses up no more than what an attempt had left. -/
theorem step_endsBy {latency finish : Nat} (armed : s.Armed)
    (punctual : s.Punctual latency turn) (ends : s.EndsBy latency finish) :
    (s.step turn).EndsBy latency finish := by
  intro machine after
  cases before : s.attempt with
  | none =>
      rw [(step_of_no_attempt turn before).1] at after
      cases after
  | some current =>
      have bound := ends current before
      have inTime := punctual.2 (by rw [before]; exact Option.some_ne_none current)
      cases step_moves turn before with
      | starts was next left timeout =>
          cases next.symm.trans after
          cases before.symm.trans was
          rw [left, due_eq timeout]
          change turn.now.nanos + connectTimeout + (connectTimeout + latency) + _ ≤ finish
          change s.due + (2 * connectTimeout + 2 * latency) + _ ≤ finish at bound
          omega
      | connects wait was pending next left timeout =>
          cases next.symm.trans after
          cases before.symm.trans was
          obtain ⟨given, same, duration, _⟩ := armed.timeout was (fun same => by cases same)
          rw [answers_timeout same] at pending
          have early := Timeout.poll_notReady pending
          rw [same] at timeout
          rw [left, due_eq timeout]
          rw [due_eq same] at bound
          change turn.now.nanos + given.duration + latency + _ ≤ finish
          change given.deadline + (connectTimeout + latency) + _ ≤ finish at bound
          omega
      | waits other pending next left timeout =>
          rw [next] at after
          cases before.symm.trans after
          obtain ⟨given, same, _⟩ := armed.timeout after (fun is => other (by rw [before, is]))
          rw [same] at timeout
          rw [left, due_eq timeout, ← due_eq same]
          exact bound
      | fails other elapsed next left timeout =>
          cases next.symm.trans after
          have clock : (s.step turn).due = turn.now.nanos := by
            simp only [due, timeout]
            rfl
          have more := latency_le_remaining latency current
          rw [clock]
          rw [left, Nat.succ_mul] at bound
          change turn.now.nanos + attemptTime latency + _ ≤ finish
          omega
      | givesUp _ _ _ next => cases next.symm.trans after
      | ends next _ => cases next.symm.trans after

theorem ahead_of_polled (polled : machine ≠ .initConnect) : ahead machine = 0 := by
  cases machine with
  | initConnect => exact absurd rfl polled
  | waitForConnection => rfl
  | waitForConnectStream wait => rfl

theorem lastsUntil_of_attempt {finish : Nat} (current : s.attempt = some machine)
    (bound : finish ≤ s.due + ahead machine + s.left * connectTimeout) : s.LastsUntil finish := by
  refine ⟨fun reason ended => ?_, fun other same => ?_⟩
  · rw [(attempt_eq_some_iff.mp current).1] at ended
    cases ended
  · cases current.symm.trans same
    exact bound

/-- An attempt that does not fail for another reason lasts until its timeout. -/
theorem step_lastsUntil {finish : Nat} (armed : s.Armed) (forward : s.now ≤ turn.now.nanos)
    (faultless : turn.Faultless) (prompt : s.Prompt turn) (lasts : s.LastsUntil finish) :
    (s.step turn).LastsUntil finish := by
  cases before : s.attempt with
  | none =>
      obtain ⟨elapsed, ended⟩ := step_of_no_attempt turn before
      refine ⟨fun reason error => ?_, fun machine after => ?_⟩
      · rw [ended] at error
        exact Nat.le_trans (lasts.1 reason error) forward
      · rw [elapsed] at after
        cases after
  | some current =>
      have bound := lasts.2 current before
      have late : current ≠ .initConnect → (s.answers turn).timeout = .error →
          finish ≤ turn.now.nanos + s.left * connectTimeout ∧
            s.trying.connect.retrying = false := by
        intro polled elapsed
        obtain ⟨given, same, _, _⟩ := armed.timeout before polled
        rw [answers_timeout same, faultless.1] at elapsed
        have deadline := Timeout.poll_error elapsed
        rw [due_eq same, ahead_of_polled polled] at bound
        refine ⟨by omega, ?_⟩
        cases again : s.trying.connect.retrying with
        | false => rfl
        | true => exact absurd (prompt again given same) (Nat.not_lt.mpr deadline)
      cases step_moves turn before with
      | starts was next left timeout =>
          cases before.symm.trans was
          refine lastsUntil_of_attempt next ?_
          change finish ≤ s.due + connectTimeout + _ at bound
          have start : s.due = s.now := by
            simp only [due, armed _ was]
          rw [left, due_eq timeout]
          change finish ≤ turn.now.nanos + connectTimeout + 0 + _
          omega
      | connects wait was _ next left timeout =>
          cases before.symm.trans was
          obtain ⟨given, same, duration, _, set⟩ := armed.timeout was (fun same => by cases same)
          refine lastsUntil_of_attempt next ?_
          rw [due_eq same] at bound
          rw [same] at timeout
          rw [left, due_eq timeout]
          change finish ≤ given.deadline + 0 + _ at bound
          change finish ≤ turn.now.nanos + given.duration + 0 + _
          omega
      | waits other _ next left timeout =>
          refine lastsUntil_of_attempt (next.trans before) ?_
          obtain ⟨given, same, _⟩ := armed.timeout before (fun is => other (by rw [before, is]))
          rw [same] at timeout
          rw [left, due_eq timeout, ← due_eq same]
          exact bound
      | fails other elapsed next left timeout =>
          obtain ⟨reached, _⟩ := late (fun is => other (by rw [before, is])) (elapsed faultless)
          refine lastsUntil_of_attempt next ?_
          have clock : (s.step turn).due = turn.now.nanos := by
            simp only [due, timeout]
            rfl
          rw [left, Nat.succ_mul] at reached
          rw [clock]
          change finish ≤ turn.now.nanos + connectTimeout + _
          omega
      | givesUp other elapsed last next =>
          obtain ⟨reached, first⟩ := late (fun is => other (by rw [before, is])) (elapsed faultless)
          refine ⟨fun _ _ => ?_, fun machine after => ?_⟩
          · rw [last first] at reached
            change finish ≤ turn.now.nanos
            omega
          · cases next.symm.trans after
      | ends next noError =>
          refine ⟨fun reason error => absurd error (noError reason), fun machine after => ?_⟩
          cases next.symm.trans after

/-- The invariant at the first poll. -/
theorem new_invariants (connect : ConnectWithStrategies) (start latency : Nat)
    (fresh : connect.connect = some .initConnect) : (new connect start).Armed ∧
      (new connect start).EndsBy latency
        (start + (connect.strategies + 1) * attemptTime latency) ∧
      (new connect start).LastsUntil (start + (connect.strategies + 1) * connectTimeout) := by
  have current : (new connect start).attempt = some .initConnect := fresh
  refine ⟨?_, ?_, lastsUntil_of_attempt current ?_⟩
  · intro machine same
    cases current.symm.trans same
    rfl
  · intro machine same
    cases current.symm.trans same
    rw [Nat.succ_mul]
    change start + attemptTime latency + connect.strategies * attemptTime latency ≤ _
    omega
  · rw [Nat.succ_mul]
    change _ ≤ start + connectTimeout + connect.strategies * connectTimeout
    omega

theorem now_le_of_endsBy {latency finish : Nat} (armed : s.Armed) (ends : s.EndsBy latency finish)
    (current : s.attempt = some machine) : s.now ≤ finish := by
  have bound := ends machine current
  by_cases fresh : machine = .initConnect
  · rw [fresh] at current
    have start : s.due = s.now := by
      simp only [due, armed _ current]
    omega
  · obtain ⟨given, same, _, pending, _⟩ := armed.timeout current fresh
    rw [due_eq same] at bound
    omega

end TimedTrying

/-- However the attempts go, a connection with the given strategies is being made for at most twice
the timeout and twice the latency for each of them. It fails before the timeout for each of them is
over only if a timer, a connection or a stream has failed. -/
theorem connecting_time {given : Nat} {addr : SocketAddr} {helloMsg : StreamHello}
    {connect : ConnectWithStrategies}
    (made : ConnectWithStrategies.new given addr helloMsg = .ok connect) (start latency : Nat)
    (turns : List ConnectTurn)
    (punctual : Meets TimedTrying.step (TimedTrying.Punctual latency)
      (TimedTrying.new connect start) turns) :
    let s := Transition.run TimedTrying.step (TimedTrying.new connect start) turns
    (s.trying.ended = none → s.trying.connect.connect ≠ none →
      s.now ≤ start + given * (2 * connectTimeout + 2 * latency)) ∧
    ((∀ turn ∈ turns, turn.Faultless) →
      Meets TimedTrying.step TimedTrying.Prompt (TimedTrying.new connect start) turns →
      ∀ reason, s.trying.ended = some (.error reason) →
        start + given * connectTimeout ≤ s.now) := by
  intro s
  cases given with
  | zero => cases made
  | succ left =>
      cases made
      obtain ⟨armed, ends, lasts⟩ := TimedTrying.new_invariants
        ⟨left, addr, helloMsg, some .initConnect, false⟩ start latency rfl
      constructor
      · intro trying unspent
        obtain ⟨machine, current⟩ := Option.ne_none_iff_exists'.mp unspent
        have reached := Transition.run_invariant_of_meets
          (fun s : TimedTrying => s.Armed ∧ s.EndsBy latency _)
          (fun _ _ inTime inv => ⟨TimedTrying.step_armed inv.1 inTime.1,
            TimedTrying.step_endsBy inv.1 inTime inv.2⟩) ⟨armed, ends⟩ punctual
        exact TimedTrying.now_le_of_endsBy reached.1 reached.2
          (TimedTrying.attempt_eq_some_iff.mpr ⟨trying, current⟩)
      · intro faultless prompt reason error
        have all := Transition.meets_and punctual (Transition.meets_and prompt
          (Transition.meets_of_forall (fun _ turn member => faultless turn member) _))
        have reached := Transition.run_invariant_of_meets
          (fun s : TimedTrying => s.Armed ∧ s.LastsUntil _)
          (fun _ _ met inv => ⟨TimedTrying.step_armed inv.1 met.1.1,
            TimedTrying.step_lastsUntil inv.1 met.1.1 met.2.2 met.2.1 inv.2⟩)
          ⟨armed, lasts⟩ all
        exact reached.2.1 reason error

/-- Two strategies and an address that does not answer, polled when a timer is over. -/
def silent : List ConnectTurn :=
  let turn (seconds : Fin 61) : ConnectTurn :=
    ⟨⟨seconds * second, Remote.early_of_le_minute (Nat.le_of_lt_succ seconds.isLt)⟩, false,
      .notReady, .notReady, .notReady⟩
  [turn 0, turn 0, turn 4, turn 4, turn 4, turn 8]

/-- The address is given up after eight seconds. -/
theorem connecting_time_silent :
    let s := Transition.run TimedTrying.step
      (TimedTrying.new ⟨1, ⟨.v4 1, 22222⟩, .user (.ofByte 1), some .initConnect, false⟩ 0) silent
    s.trying.ended = some (.error (.custom "No strategies left for connecting to: ")) ∧
      0 + 2 * connectTimeout ≤ s.now := by
  intro s
  have ended : s.trying.ended =
      some (.error (.custom "No strategies left for connecting to: ")) := by decide
  refine ⟨ended, (connecting_time rfl 0 0 silent ?_).2 ?_ ?_ _ ended⟩
  · refine ⟨⟨?_, ?_⟩, ⟨?_, ?_⟩, ⟨?_, ?_⟩, ⟨?_, ?_⟩, ⟨?_, ?_⟩, ⟨?_, ?_⟩, trivial⟩ <;> decide
  · intro turn member
    simp only [silent, List.mem_cons, List.not_mem_nil, or_false] at member
    rcases member with rfl | rfl | rfl | rfl | rfl | rfl <;> exact ⟨rfl, nofun, nofun⟩
  · refine ⟨nofun, nofun, nofun, nofun, ?_, nofun, trivial⟩
    rintro _ timeout ⟨⟩
    decide

end HolePunch
