import HolePunch.Connection

set_option autoImplicit false

/- Connecting to an address with the known strategies (`connect.rs`). -/
namespace HolePunch

/-- One attempt. The future of the pending transport connection is the environment's; `wait` is
the stream being opened on the connection it gave. -/
inductive ConnectStateMachine where
  | initConnect
  | waitForConnection
  | waitForConnectStream (wait : NewStreamFuture)
  deriving DecidableEq, Repr

/-- What the futures an attempt waits for answer when its handler polls them. -/
structure ConnectAnswers where
  timeout : TimeoutPoll
  connection : Poll Connection
  opened : Poll Unit
  flushed : Poll Unit

namespace ConnectStateMachine

def pollInitConnect : Handled ConnectStateMachine Stream :=
  .transition .waitForConnection

def pollWaitForConnection (helloMsg : StreamHello) (answers : ConnectAnswers) :
    Handled ConnectStateMachine Stream :=
  match answers.timeout with
  | .error => .error (.custom "Timeout")
  | .notReady =>
      match answers.connection with
      | .notReady => .notReady
      | .error reason => .error reason
      | .ready con => .transition (.waitForConnectStream (con.newStreamWithHello helloMsg))

def pollWaitForConnectStream (wait : NewStreamFuture) (answers : ConnectAnswers) :
    Handled ConnectStateMachine Stream :=
  match answers.timeout with
  | .error => .error (.custom "Timeout")
  | .notReady =>
      match wait.poll answers.opened answers.flushed with
      | .error message => .panic message
      | .ok .notReady => .notReady
      | .ok (.error reason) => .error reason
      | .ok (.ready stream) => .ready stream

def step (machine : ConnectStateMachine) (helloMsg : StreamHello) (answers : ConnectAnswers) :
    Handled ConnectStateMachine Stream :=
  match machine with
  | .initConnect => pollInitConnect
  | .waitForConnection => pollWaitForConnection helloMsg answers
  | .waitForConnectStream wait => pollWaitForConnectStream wait answers

/-- An attempt completes only with the stream it was opening. -/
theorem step_ready {machine : ConnectStateMachine} {helloMsg : StreamHello}
    {answers : ConnectAnswers} {stream : Stream}
    (done : machine.step helloMsg answers = .ready stream) :
    ∃ wait, machine = .waitForConnectStream wait ∧ stream = wait.stream := by
  cases machine with
  | initConnect => cases done
  | waitForConnection =>
      simp only [step, pollWaitForConnection] at done
      split at done
      · cases done
      · split at done <;> cases done
  | waitForConnectStream wait =>
      refine ⟨wait, rfl, ?_⟩
      simp only [step, pollWaitForConnectStream] at done
      split at done
      · cases done
      · split at done
        · cases done
        · cases done
        · cases done
        · rename_i opened
          cases done
          exact NewStreamFuture.poll_ready opened

/-- A stream is opened only on the connection that has just been made. -/
theorem step_transition {machine next : ConnectStateMachine} {helloMsg : StreamHello}
    {answers : ConnectAnswers} (moved : machine.step helloMsg answers = .transition next) :
    next = .waitForConnection ∨ ∃ con, answers.connection = .ready con ∧
      next = .waitForConnectStream (con.newStreamWithHello helloMsg) := by
  cases machine with
  | initConnect =>
      cases moved
      exact Or.inl rfl
  | waitForConnection =>
      simp only [step, pollWaitForConnection] at moved
      split at moved
      · cases moved
      · split at moved
        · cases moved
        · cases moved
        · rename_i con ready
          cases moved
          exact Or.inr ⟨con, ready, rfl⟩
  | waitForConnectStream wait =>
      simp only [step, pollWaitForConnectStream] at moved
      split at moved
      · cases moved
      · split at moved <;> cases moved

end ConnectStateMachine

/-- `strategies` counts the strategies not tried yet. A strategy taken up after the failure of
the previous one is polled once more within the same poll, and that poll ignores a stream the
attempt may give; `retrying` marks it. A spent machine has no attempt left to poll. -/
structure ConnectWithStrategies where
  strategies : Nat
  addr : SocketAddr
  helloMsg : StreamHello
  connect : Option ConnectStateMachine
  retrying : Bool
  deriving DecidableEq, Repr

namespace ConnectWithStrategies

/-- `strategies` is the number of strategies given, of which there is at least one. -/
def new (strategies : Nat) (addr : SocketAddr) (helloMsg : StreamHello) :
    Except String ConnectWithStrategies :=
  match strategies with
  | 0 => .error "At least one strategy should be given!"
  | left + 1 => .ok ⟨left, addr, helloMsg, some .initConnect, false⟩

theorem new_of_pos {strategies : Nat} (given : 0 < strategies) (addr : SocketAddr)
    (helloMsg : StreamHello) : new strategies addr helloMsg =
      .ok ⟨strategies - 1, addr, helloMsg, some .initConnect, false⟩ := by
  cases strategies with
  | zero => omega
  | succ left => rfl

/-- One handler call of the current attempt, and what the poll around it makes of the result. -/
def step (s : ConnectWithStrategies) (answers : ConnectAnswers) :
    Handled ConnectWithStrategies Stream :=
  match s.connect with
  | none => .notReady
  | some machine =>
      match machine.step s.helloMsg answers with
      | .panic message => .panic message
      | .transition next => .transition { s with connect := some next }
      | .notReady => .transition { s with retrying := false }
      | .ready stream =>
          if s.retrying then .transition { s with connect := none, retrying := false }
          else .ready stream
      | .error reason =>
          if s.retrying then .error reason
          else match s.strategies with
            | 0 => .error (.custom "No strategies left for connecting to: ")
            | left + 1 =>
                .transition { s with
                  strategies := left, connect := some .initConnect, retrying := true }

theorem step_ready {s : ConnectWithStrategies} {answers : ConnectAnswers} {stream : Stream}
    (done : s.step answers = .ready stream) :
    ∃ wait, s.connect = some (.waitForConnectStream wait) ∧ stream = wait.stream := by
  unfold step at done
  split at done
  · cases done
  · rename_i machine current
    split at done
    · cases done
    · cases done
    · cases done
    · rename_i given attempt
      split at done
      · cases done
      · cases done
        obtain ⟨wait, rfl, same⟩ := ConnectStateMachine.step_ready attempt
        exact ⟨wait, current, same⟩
    · split at done
      · cases done
      · split at done <;> cases done

theorem step_transition {s next : ConnectWithStrategies} {answers : ConnectAnswers}
    (moved : s.step answers = .transition next) :
    next.helloMsg = s.helloMsg ∧ ∀ wait, next.connect = some (.waitForConnectStream wait) →
      s.connect = some (.waitForConnectStream wait) ∨
      ∃ con, answers.connection = .ready con ∧ wait = con.newStreamWithHello s.helloMsg := by
  unfold step at moved
  split at moved
  · cases moved
  · rename_i machine current
    split at moved
    · cases moved
    · rename_i attempt
      cases moved
      refine ⟨rfl, ?_⟩
      intro wait waiting
      cases waiting
      rcases ConnectStateMachine.step_transition attempt with same | ⟨con, ready, same⟩
      · cases same
      · cases same
        exact Or.inr ⟨con, ready, rfl⟩
    · cases moved
      exact ⟨rfl, fun wait waiting => Or.inl waiting⟩
    · split at moved
      · cases moved
        exact ⟨rfl, fun wait waiting => by cases waiting⟩
      · cases moved
    · split at moved
      · cases moved
      · split at moved
        · cases moved
        · cases moved
          exact ⟨rfl, fun wait waiting => by cases waiting⟩

end ConnectWithStrategies

end HolePunch
