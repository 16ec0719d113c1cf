import HolePunch.Connect
import HolePunch.Library.Transition

set_option autoImplicit false

/- What becomes of the attempts of a connection to an address, one for each strategy in the order
in which the strategies are taken up. -/
namespace HolePunch

open Transition (Throughout Meets)

inductive ConnectEnd where
  | ok (stream : Stream)
  | error (reason : Error)
  | panic (message : String)
  deriving DecidableEq, Repr

/-- A connection being made, with how its attempts so far have ended. -/
structure Trying where
  connect : ConnectWithStrategies
  outcomes : List (Except Error Stream)
  ended : Option ConnectEnd
  deriving Repr

namespace Trying

def new (connect : ConnectWithStrategies) : Trying := ⟨connect, [], none⟩

/-- How the current attempt ends with this call of its handler, if it does. -/
def outcome (connect : ConnectWithStrategies) (answers : ConnectAnswers) :
    List (Except Error Stream) :=
  match connect.connect with
  | none => []
  | some machine =>
      match machine.step connect.helloMsg answers with
      | .ready stream => [.ok stream]
      | .error reason => [.error reason]
      | _ => []

def step (s : Trying) (answers : ConnectAnswers) : Trying :=
  match s.ended with
  | some _ => s
  | none =>
      let outcomes := s.outcomes ++ outcome s.connect answers
      match s.connect.step answers with
      | .notReady => { s with outcomes := outcomes }
      | .transition next => { s with connect := next, outcomes := outcomes }
      | .ready stream => { s with outcomes := outcomes, ended := some (.ok stream) }
      | .error reason => { s with outcomes := outcomes, ended := some (.error reason) }
      | .panic message => { s with outcomes := outcomes, ended := some (.panic message) }

/-- Every attempt so far has failed. -/
def AllFailed (s : Trying) : Prop := ∀ ended ∈ s.outcomes, ∃ reason, ended = .error reason

/-- All strategies are tried: the future gives the stream of the first attempt that gives one, it
fails when all strategies have been started and have failed and only then, no stream is lost, and
there is always an attempt to poll. -/
structure TriesAll (given : Nat) (s : Trying) : Prop where
  first : ∀ stream, s.ended = some (.ok stream) →
    ∃ reasons : List Error, s.outcomes = reasons.map .error ++ [.ok stream]
  last : (∃ reason, s.ended = some (.error reason)) ↔ s.outcomes.length = given ∧ s.AllFailed
  kept : ∀ stream, .ok stream ∈ s.outcomes → s.ended = some (.ok stream)
  polled : s.ended = none → s.connect.connect ≠ none

/-- A strategy that is taken up after a failure neither completes nor, unless it is the last one,
fails in the poll that takes it up. -/
def RetryPends (s : Trying) (answers : ConnectAnswers) : Prop :=
  s.ended = none → s.connect.retrying = true → ∀ machine, s.connect.connect = some machine →
    (∀ stream, machine.step s.connect.helloMsg answers ≠ .ready stream) ∧
    ∀ reason, machine.step s.connect.helloMsg answers = .error reason → s.connect.strategies = 0

/-- While an attempt runs, the earlier ones have failed and the strategies left are untried. -/
def Counted (given : Nat) (s : Trying) : Prop :=
  s.ended = none → s.connect.connect ≠ none →
    s.AllFailed ∧ s.outcomes.length + s.connect.strategies + 1 = given

section TriesAll

variable {given : Nat} {s : Trying}

theorem triesAll_of_undecided (current : s.ended = none → s.connect.connect ≠ none)
    (noStream : ∀ stream, s.ended ≠ some (.ok stream))
    (noError : ∀ reason, s.ended ≠ some (.error reason))
    (failed : s.AllFailed) (left : s.outcomes.length < given) : s.TriesAll given := by
  refine ⟨?_, ?_, ?_, current⟩
  · intro stream ended
    exact absurd ended (noStream stream)
  · constructor
    · rintro ⟨reason, ended⟩
      exact absurd ended (noError reason)
    · rintro ⟨all, _⟩
      omega
  · intro stream member
    obtain ⟨reason, impossible⟩ := failed _ member
    cases impossible

theorem triesAll_of_error {reason : Error} (ended : s.ended = some (.error reason))
    (failed : s.AllFailed) : s.TriesAll given ↔ s.outcomes.length = given := by
  constructor
  · intro tries
    exact (tries.last.mp ⟨reason, ended⟩).1
  · intro all
    refine ⟨?_, ⟨fun _ => ⟨all, failed⟩, fun _ => ⟨reason, ended⟩⟩, ?_, ?_⟩
    · intro stream given
      rw [ended] at given
      cases given
    · intro stream member
      obtain ⟨other, impossible⟩ := failed _ member
      cases impossible
    · intro trying
      rw [ended] at trying
      cases trying

theorem exists_reasons {outcomes : List (Except Error Stream)}
    (failed : ∀ ended ∈ outcomes, ∃ reason, ended = .error reason) :
    ∃ reasons : List Error, outcomes = reasons.map .error := by
  induction outcomes with
  | nil => exact ⟨[], rfl⟩
  | cons first rest ih =>
      obtain ⟨reason, rfl⟩ := failed first List.mem_cons_self
      obtain ⟨reasons, rfl⟩ := ih (fun ended member => failed ended (List.mem_cons_of_mem _ member))
      exact ⟨reason :: reasons, rfl⟩

theorem triesAll_of_ok {stream : Stream} {outcomes : List (Except Error Stream)}
    (ended : s.ended = some (.ok stream)) (last : s.outcomes = outcomes ++ [.ok stream])
    (failed : ∀ ended ∈ outcomes, ∃ reason, ended = .error reason) : s.TriesAll given := by
  have member : .ok stream ∈ s.outcomes := by
    rw [last]
    exact List.mem_append_right outcomes List.mem_cons_self
  refine ⟨?_, ?_, ?_, ?_⟩
  · intro other same
    rw [ended] at same
    cases same
    obtain ⟨reasons, rfl⟩ := exists_reasons failed
    exact ⟨reasons, last⟩
  · constructor
    · rintro ⟨reason, impossible⟩
      rw [ended] at impossible
      cases impossible
    · rintro ⟨_, allFailed⟩
      obtain ⟨reason, impossible⟩ := allFailed _ member
      cases impossible
  · intro other given
    rw [last] at given
    rcases List.mem_append.mp given with earlier | this
    · obtain ⟨reason, impossible⟩ := failed _ earlier
      cases impossible
    · cases List.mem_singleton.mp this
      exact ended
  · intro trying
    rw [ended] at trying
    cases trying

/-- A stream that is discarded is not what the future resolves to. -/
theorem not_triesAll_of_discarded {stream : Stream} (trying : s.ended = none)
    (member : .ok stream ∈ s.outcomes) : ¬ s.TriesAll given := by
  intro tries
  have ended := tries.kept stream member
  rw [trying] at ended
  cases ended

end TriesAll

/-- All that a call of the handler does, by how the attempt takes it. -/
theorem step_eq {s : Trying} {machine : ConnectStateMachine} (answers : ConnectAnswers)
    (trying : s.ended = none) (current : s.connect.connect = some machine) :
    s.step answers = match machine.step s.connect.helloMsg answers with
      | .panic message => { s with ended := some (.panic message) }
      | .transition next => { s with connect := { s.connect with connect := some next } }
      | .notReady => { s with connect := { s.connect with retrying := false } }
      | .ready stream =>
          if s.connect.retrying then { s with
            connect := { s.connect with connect := none, retrying := false }
            outcomes := s.outcomes ++ [.ok stream] }
          else { s with outcomes := s.outcomes ++ [.ok stream], ended := some (.ok stream) }
      | .error reason =>
          if s.connect.retrying then
            { s with outcomes := s.outcomes ++ [.error reason], ended := some (.error reason) }
          else match s.connect.strategies with
            | 0 => { s with
                outcomes := s.outcomes ++ [.error reason]
                ended := some (.error (.custom "No strategies left for connecting to: ")) }
            | left + 1 => { s with
                connect := { s.connect with
                  strategies := left, connect := some .initConnect, retrying := true }
                outcomes := s.outcomes ++ [.error reason] } := by
  simp only [step, trying, outcome, ConnectWithStrategies.step, current]
  cases machine.step s.connect.helloMsg answers with
  | panic message => simp
  | transition next => simp
  | notReady => simp
  | ready stream => cases s.connect.retrying <;> simp
  | error reason =>
      cases s.connect.retrying with
      | true => simp
      | false => cases s.connect.strategies <;> simp

theorem step_ended {s : Trying} {ended : ConnectEnd} (answers : ConnectAnswers)
    (resolved : s.ended = some ended) : s.step answers = s := by
  simp only [step, resolved]

theorem step_spent {s : Trying} (answers : ConnectAnswers) (trying : s.ended = none)
    (spent : s.connect.connect = none) : s.step answers = s := by
  obtain ⟨connect, outcomes, ended⟩ := s
  simp only at trying spent
  simp only [step, trying, outcome, ConnectWithStrategies.step, spent, List.append_nil]

theorem allFailed_append {s : Trying} (failed : s.AllFailed) (reason : Error) :
    ∀ ended ∈ s.outcomes ++ [.error reason], ∃ why, ended = .error why := by
  rw [List.forall_mem_append]
  exact ⟨failed, List.forall_mem_singleton.mpr ⟨reason, rfl⟩⟩

theorem step_counted {given : Nat} {s : Trying} (answers : ConnectAnswers)
    (counted : s.Counted given) : (s.step answers).Counted given := by
  cases trying : s.ended with
  | some ended =>
      rw [step_ended answers trying]
      exact counted
  | none =>
      cases current : s.connect.connect with
      | none =>
          rw [step_spent answers trying current]
          exact counted
      | some machine =>
          obtain ⟨failed, total⟩ := counted trying (by rw [current]; exact Option.some_ne_none _)
          rw [step_eq answers trying current]
          split
          · intro impossible
            cases impossible
          · exact fun _ _ => ⟨failed, total⟩
          · exact fun _ _ => ⟨failed, total⟩
          · split
            · exact fun _ spent => absurd rfl spent
            · intro impossible
              cases impossible
          · rename_i reason attempt
            split
            · intro impossible
              cases impossible
            · split
              · intro impossible
                cases impossible
              · rename_i left more
                refine fun _ _ => ⟨allFailed_append failed reason, ?_⟩
                rw [more] at total
                simp only [List.length_append, List.length_singleton]
                omega

section Steps

variable {given : Nat} {s : Trying} {machine : ConnectStateMachine} {answers : ConnectAnswers}

/-- The stream of a retry is discarded, that of any other attempt is given. -/
theorem step_triesAll_iff_of_ready (trying : s.ended = none)
    (current : s.connect.connect = some machine) (failed : s.AllFailed) {stream : Stream}
    (attempt : machine.step s.connect.helloMsg answers = .ready stream) :
    (s.step answers).TriesAll given ↔ s.connect.retrying = false := by
  rw [step_eq answers trying current, attempt]
  cases again : s.connect.retrying with
  | true =>
      refine iff_of_false ?_ Bool.noConfusion
      exact not_triesAll_of_discarded trying
        (List.mem_append_right s.outcomes List.mem_cons_self)
  | false =>
      refine iff_of_true ?_ rfl
      exact triesAll_of_ok rfl rfl failed

/-- The failure of a retry is final, that of any other attempt only when no strategy is left. -/
theorem step_triesAll_iff_of_error (trying : s.ended = none)
    (current : s.connect.connect = some machine) (failed : s.AllFailed)
    (total : s.outcomes.length + s.connect.strategies + 1 = given) {reason : Error}
    (attempt : machine.step s.connect.helloMsg answers = .error reason) :
    (s.step answers).TriesAll given ↔
      (s.connect.retrying = true → s.connect.strategies = 0) := by
  have allFailed := allFailed_append failed reason
  have length : (s.outcomes ++ [Except.error reason]).length = s.outcomes.length + 1 := by simp
  rw [step_eq answers trying current, attempt]
  cases again : s.connect.retrying with
  | true =>
      simp only [↓reduceIte, true_implies]
      refine (triesAll_of_error rfl ?_).trans ?_
      · exact allFailed
      · change (s.outcomes ++ [Except.error reason]).length = given ↔ _
        omega
  | false =>
      refine iff_of_true ?_ (by simp)
      cases more : s.connect.strategies with
      | zero =>
          simp only [Bool.false_eq_true, ↓reduceIte]
          refine (triesAll_of_error rfl ?_).mpr ?_
          · exact allFailed
          · change (s.outcomes ++ [Except.error reason]).length = given
            omega
      | succ untried =>
          simp only [Bool.false_eq_true, ↓reduceIte]
          refine triesAll_of_undecided ?_ ?_ ?_ ?_ ?_
          · exact fun _ => Option.some_ne_none _
          · simp [trying]
          · simp [trying]
          · exact allFailed
          · change (s.outcomes ++ [Except.error reason]).length < given
            omega

end Steps

/-- One call keeps the property exactly when it is not the retry that completes or fails. -/
theorem step_triesAll_iff {given : Nat} {s : Trying} (answers : ConnectAnswers)
    (counted : s.Counted given) (tries : s.TriesAll given) :
    (s.step answers).TriesAll given ↔ s.RetryPends answers := by
  cases trying : s.ended with
  | some ended =>
      rw [step_ended answers trying]
      refine iff_of_true tries ?_
      intro impossible
      rw [trying] at impossible
      cases impossible
  | none =>
      cases current : s.connect.connect with
      | none => exact absurd current (tries.polled trying)
      | some machine =>
          obtain ⟨failed, total⟩ := counted trying (tries.polled trying)
          have left : s.outcomes.length < given := by omega
          have pends : s.RetryPends answers ↔ (s.connect.retrying = true →
              (∀ stream, machine.step s.connect.helloMsg answers ≠ .ready stream) ∧
              ∀ reason, machine.step s.connect.helloMsg answers = .error reason →
                s.connect.strategies = 0) := by
            simp only [RetryPends, trying, current, true_implies, Option.some.injEq, forall_eq']
          rw [pends]
          cases attempt : machine.step s.connect.helloMsg answers with
          | panic message =>
              rw [step_eq answers trying current, attempt]
              refine iff_of_true ?_ (by simp)
              exact triesAll_of_undecided (by simp) (by simp) (by simp) failed left
          | transition next =>
              rw [step_eq answers trying current, attempt]
              refine iff_of_true ?_ (by simp)
              exact triesAll_of_undecided (by simp) (by simp [trying]) (by simp [trying])
                failed left
          | notReady =>
              rw [step_eq answers trying current, attempt]
              refine iff_of_true ?_ (by simp)
              exact triesAll_of_undecided (by simp [current]) (by simp [trying]) (by simp [trying])
                failed left
          | ready stream =>
              rw [step_triesAll_iff_of_ready trying current failed attempt]
              simp
          | error reason =>
              rw [step_triesAll_iff_of_error trying current failed total attempt]
              simp

end Trying

/-- All strategies are tried, in every state of a run, exactly when no strategy that is taken up
after a failure completes or fails in the poll that takes it up, unless the last one fails. -/
theorem triesAll_iff_retryPends {given : Nat} {addr : SocketAddr} {helloMsg : StreamHello}
    {connect : ConnectWithStrategies}
    (made : ConnectWithStrategies.new given addr helloMsg = .ok connect)
    (calls : List ConnectAnswers) :
    Throughout Trying.step (Trying.TriesAll given) (Trying.new connect) calls ↔
      Meets Trying.step Trying.RetryPends (Trying.new connect) calls := by
  cases given with
  | zero => cases made
  | succ left =>
      cases made
      have failed : (Trying.new ⟨left, addr, helloMsg, some .initConnect, false⟩).AllFailed := by
        intro ended member
        cases member
      have preserved : ∀ (s : Trying) answers, s.Counted (left + 1) →
          (s.step answers).Counted (left + 1) :=
        fun s answers counted => Trying.step_counted answers counted
      apply Transition.throughout_iff_meets_of preserved
      · intro s answers counted tries
        exact Trying.step_triesAll_iff answers counted tries
      · intro _ _
        refine ⟨failed, ?_⟩
        change 0 + left + 1 = left + 1
        omega
      · exact Trying.triesAll_of_undecided (fun _ => Option.some_ne_none _)
          (by simp [Trying.new]) (by simp [Trying.new]) failed (Nat.succ_pos left)

/-- A call in which the transport answers with this connection or error. -/
def answering (connection : Poll Connection) : ConnectAnswers :=
  ⟨.notReady, connection, .ready (), .ready ()⟩

/-- A connection to the peer `02`. -/
def connectionTwo : Connection :=
  ⟨⟨0, 0⟩, NewStreamHandle.new (.ofByte 2) (.ofByte 1) ⟨0⟩, .ofByte 2, 0⟩

/-- Two strategies, of which the second is still connecting when the poll that takes it up ends. -/
theorem triesAll_of_pending_retry :
    Throughout Trying.step (Trying.TriesAll 2)
      (Trying.new ⟨1, ⟨.v4 1, 22222⟩, .user (.ofByte 1), some .initConnect, false⟩)
      [answering .notReady, answering (.error .io), answering .notReady, answering .notReady] := by
  apply (triesAll_iff_retryPends rfl _).mpr
  refine ⟨?_, ?_, ?_, ?_, trivial⟩
  · intro _ impossible
    cases impossible
  · intro _ impossible
    cases impossible
  · rintro _ _ machine current
    cases current
    simp [ConnectStateMachine.step, ConnectStateMachine.pollInitConnect]
  · rintro _ _ machine current
    cases current
    simp [ConnectStateMachine.step, ConnectStateMachine.pollWaitForConnection, answering]

/-- The second of two strategies connects at once, within the poll in which the first one has
failed, and its stream is lost. -/
theorem immediate_retry_loses_stream :
    ¬ Throughout Trying.step (Trying.TriesAll 2)
      (Trying.new ⟨1, ⟨.v4 1, 22222⟩, .user (.ofByte 1), some .initConnect, false⟩)
      [answering .notReady, answering (.error .io), answering .notReady,
        answering (.ready connectionTwo), answering .notReady] := by
  intro always
  have tries := always _ (List.prefix_refl _)
  exact Trying.not_triesAll_of_discarded rfl List.mem_concat_self tries

end HolePunch
