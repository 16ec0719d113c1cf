import HolePunch.ProtocolStream

set_option autoImplicit false

/- What a stream reports about its writes, next to what its inner sink has answered. A run may use
the stream itself or a protocol stream on top of it. -/
namespace HolePunch.Flushing

open LengthDelimited (Bytes)

/-- The calls that reach the inner sink, with its answers, and the reports of the layers above:
`write`, `flush` and `shutdown` of the stream, `poll_complete` and `close` of the protocol stream.
The latter two keep what is left in the write buffer. -/
inductive Entry where
  | innerStartSend (answer : SendPoll)
  | innerPollComplete (answer : Poll Unit)
  | innerClose (answer : Poll Unit)
  | write (result : Poll Nat)
  | flush (result : Poll Unit)
  | shutdown (result : Poll Unit)
  | pollComplete (result : Poll Unit) (writeBuf : Bytes)
  | close (result : Poll Unit) (writeBuf : Bytes)

/-- A log has its newest entry first. -/
abbrev Log := List Entry

/-- The inner sink has completed since the last write that it accepted. -/
def Flushed : Log → Prop
  | [] => False
  | .innerPollComplete (.ready ()) :: _ => True
  | .innerStartSend .accepted :: _ => False
  | _ :: before => Flushed before

/-- The inner sink was closed. -/
def Closed (log : Log) : Prop := .innerClose (.ready ()) ∈ log

/-- The last answer of the inner sink was that it is not ready. -/
def Pending : Log → Prop
  | [] => False
  | .innerStartSend answer :: _ => answer = .refused
  | .innerPollComplete answer :: _ => answer = .notReady
  | .innerClose answer :: _ => answer = .notReady
  | _ :: before => Pending before

/-- Every report of success is backed by the inner sink, and no report hides that it is not
ready. -/
def Truthful : Log → Prop
  | [] => True
  | .write result :: before => (Pending before → result = .notReady) ∧ Truthful before
  | .flush result :: before =>
      (result = .ready () → Flushed before) ∧ (Pending before → result = .notReady) ∧
        Truthful before
  | .shutdown result :: before =>
      (result = .ready () → Closed before) ∧ (Pending before → result = .notReady) ∧
        Truthful before
  | .pollComplete result writeBuf :: before =>
      (result = .ready () → writeBuf = [] ∧ Flushed before) ∧
        (Pending before → result = .notReady) ∧ Truthful before
  | .close result writeBuf :: before =>
      (result = .ready () → writeBuf = [] ∧ Closed before) ∧
        (Pending before → result = .notReady) ∧ Truthful before
  | _ :: before => Truthful before

def logWrite (io : ByteStream) (buf : Bytes) (answer : SendPoll) : Log :=
  [.write (io.write buf answer).1, .innerStartSend answer]

def logFlush (answer : Poll Unit) : Log :=
  [.flush (ByteStream.flush answer), .innerPollComplete answer]

def logShutdown (answer : Poll Unit) : Log :=
  [.shutdown (ByteStream.shutdown answer), .innerClose answer]

/-- The calls of `poll_complete`: the write buffer first, if there is one, then the flush. -/
def logPollComplete (framed : Framed) (answers : Framed.SinkAnswers) : Log :=
  .pollComplete (framed.pollComplete answers).1 (framed.pollComplete answers).2.writeBuf ::
    if framed.writeBuf.isEmpty then logFlush answers.flush
    else if answers.write = .accepted then
      logFlush answers.flush ++ logWrite framed.io framed.writeBuf answers.write
    else logWrite framed.io framed.writeBuf answers.write

def logStartSend (framed : Framed) (answers : Framed.SinkAnswers) : Log :=
  if Framed.backpressureBoundary ≤ framed.writeBuf.length then logPollComplete framed answers
  else []

def logClose (framed : Framed) (answers : Framed.SinkAnswers) (closed : Poll Unit) : Log :=
  .close (framed.close answers closed).1 (framed.close answers closed).2.writeBuf ::
    if (framed.pollComplete answers).1 = .ready () then
      logShutdown closed ++ logPollComplete framed answers
    else logPollComplete framed answers

/-- A protocol stream and the log of its run. What uses the stream itself leaves the write buffer
alone. -/
structure State where
  framed : Framed
  log : Log

inductive Event where
  | write (buf : Bytes) (answer : SendPoll)
  | flush (answer : Poll Unit)
  | shutdown (answer : Poll Unit)
  | startSend (payload : Bytes) (answers : Framed.SinkAnswers)
  | pollComplete (answers : Framed.SinkAnswers)
  | close (answers : Framed.SinkAnswers) (closed : Poll Unit)

namespace State

def new (io : ByteStream) : State := ⟨Framed.new io, []⟩

def step (s : State) : Event → State
  | .write buf answer =>
      ⟨{ s.framed with io := (s.framed.io.write buf answer).2 },
        logWrite s.framed.io buf answer ++ s.log⟩
  | .flush answer => { s with log := logFlush answer ++ s.log }
  | .shutdown answer => { s with log := logShutdown answer ++ s.log }
  | .startSend payload answers =>
      ⟨(s.framed.startSend payload answers).2, logStartSend s.framed answers ++ s.log⟩
  | .pollComplete answers =>
      ⟨(s.framed.pollComplete answers).2, logPollComplete s.framed answers ++ s.log⟩
  | .close answers closed =>
      ⟨(s.framed.close answers closed).2, logClose s.framed answers closed ++ s.log⟩

end State

/-- A `poll_complete` flushes when there is nothing to write first, or the sink takes it. -/
def Reaches (framed : Framed) (answers : Framed.SinkAnswers) : Prop :=
  framed.writeBuf = [] ∨ answers.write = .accepted

/-- No flush and no shutdown of the step finds the inner sink not ready. -/
def KeepsUp (s : State) : Event → Prop
  | .write _ _ => True
  | .flush answer => answer ≠ .notReady
  | .shutdown answer => answer ≠ .notReady
  | .startSend _ answers => Framed.backpressureBoundary ≤ s.framed.writeBuf.length →
      Reaches s.framed answers → answers.flush ≠ .notReady
  | .pollComplete answers => Reaches s.framed answers → answers.flush ≠ .notReady
  | .close answers closed => Reaches s.framed answers →
      answers.flush ≠ .notReady ∧ (answers.flush = .ready () → closed ≠ .notReady)

theorem truthful_logWrite (io : ByteStream) (buf : Bytes) (answer : SendPoll) (log : Log) :
    Truthful (logWrite io buf answer ++ log) ↔ Truthful log := by
  cases answer <;> simp [logWrite, Truthful, Pending, ByteStream.write]

theorem truthful_logFlush (answer : Poll Unit) (log : Log) :
    Truthful (logFlush answer ++ log) ↔ answer ≠ .notReady ∧ Truthful log := by
  cases answer <;> simp [logFlush, Truthful, Pending, Flushed, ByteStream.flush]

theorem truthful_logShutdown (answer : Poll Unit) (log : Log) :
    Truthful (logShutdown answer ++ log) ↔ answer ≠ .notReady ∧ Truthful log := by
  cases answer <;> simp [logShutdown, Truthful, Pending, Closed, ByteStream.shutdown]

/-- A `poll_complete` that gets to the flush reports what the flush does, with nothing left to
write. -/
theorem pollComplete_of_reaches {framed : Framed} {answers : Framed.SinkAnswers}
    (reaches : Reaches framed answers) :
    (framed.pollComplete answers).1 = ByteStream.flush answers.flush ∧
      (framed.pollComplete answers).2.writeBuf = [] := by
  unfold Framed.pollComplete
  split
  · rename_i empty
    exact ⟨rfl, List.isEmpty_iff.mp empty⟩
  · rename_i filled
    rcases reaches with empty | accepted
    · exact absurd (List.isEmpty_iff.mpr empty) filled
    · rw [accepted]
      simp only [ByteStream.write, List.drop_length, and_self]

/-- Otherwise the write has been refused or has failed, and so it reports. -/
theorem pollComplete_of_not_reaches {framed : Framed} {answers : Framed.SinkAnswers}
    (stuck : ¬ Reaches framed answers) :
    logPollComplete framed answers =
      .pollComplete (framed.pollComplete answers).1 (framed.pollComplete answers).2.writeBuf ::
        logWrite framed.io framed.writeBuf answers.write ∧
    (framed.pollComplete answers).1 ≠ .ready () ∧
    (answers.write = .refused → (framed.pollComplete answers).1 = .notReady) := by
  have filled : ¬ framed.writeBuf.isEmpty = true :=
    fun empty => stuck (Or.inl (List.isEmpty_iff.mp empty))
  have refused : answers.write ≠ .accepted := fun accepted => stuck (Or.inr accepted)
  refine ⟨?_, ?_, ?_⟩
  · rw [logPollComplete, if_neg filled, if_neg refused]
  · unfold Framed.pollComplete
    rw [if_neg filled]
    cases answer : answers.write with
    | accepted => exact absurd answer refused
    | refused => simp [ByteStream.write]
    | error reason => simp [ByteStream.write]
  · intro answer
    unfold Framed.pollComplete
    rw [if_neg filled, answer]
    rfl

/-- What a `poll_complete` logs before its own report. -/
theorem logPollComplete_of_reaches {framed : Framed} {answers : Framed.SinkAnswers}
    (reaches : Reaches framed answers) (log : Log) :
    ∃ before, (Truthful before ↔ Truthful log) ∧ logPollComplete framed answers ++ log =
      .pollComplete (ByteStream.flush answers.flush) [] :: (logFlush answers.flush ++ before) := by
  obtain ⟨result, empty⟩ := pollComplete_of_reaches reaches
  unfold logPollComplete
  rw [result, empty]
  by_cases nothing : framed.writeBuf.isEmpty = true
  · rw [if_pos nothing]
    exact ⟨log, Iff.rfl, rfl⟩
  · have accepted : answers.write = .accepted := by
      rcases reaches with none | accepted
      · exact absurd (List.isEmpty_iff.mpr none) nothing
      · exact accepted
    rw [if_neg nothing, if_pos accepted]
    refine ⟨logWrite framed.io framed.writeBuf answers.write ++ log,
      truthful_logWrite _ _ _ log, ?_⟩
    simp only [List.cons_append, List.append_assoc]

theorem truthful_pollComplete_flush (answer : Poll Unit) (log : Log) :
    Truthful (.pollComplete (ByteStream.flush answer) [] :: (logFlush answer ++ log)) ↔
      answer ≠ .notReady ∧ Truthful log := by
  cases answer <;> simp [logFlush, Truthful, Pending, Flushed, ByteStream.flush]

theorem truthful_logPollComplete (framed : Framed) (answers : Framed.SinkAnswers) (log : Log) :
    Truthful (logPollComplete framed answers ++ log) ↔
      (Reaches framed answers → answers.flush ≠ .notReady) ∧ Truthful log := by
  by_cases reaches : Reaches framed answers
  · obtain ⟨before, same, logged⟩ := logPollComplete_of_reaches reaches log
    rw [logged, truthful_pollComplete_flush, same]
    simp only [reaches, true_implies]
  · obtain ⟨logged, unfinished, surfaces⟩ := pollComplete_of_not_reaches reaches
    rw [logged]
    simp only [reaches, false_implies, true_and, List.cons_append, Truthful]
    rw [truthful_logWrite]
    constructor
    · rintro ⟨_, _, before⟩
      exact before
    · intro before
      refine ⟨fun success => absurd success unfinished, ?_, before⟩
      intro pending
      exact surfaces pending

/-- After a `poll_complete` that did not succeed, `close` reports the same. -/
theorem close_of_unfinished {framed : Framed} {answers : Framed.SinkAnswers}
    (unfinished : (framed.pollComplete answers).1 ≠ .ready ()) (closed : Poll Unit) :
    framed.close answers closed = framed.pollComplete answers := by
  unfold Framed.close
  split
  · rename_i completed
    rw [completed] at unfinished
    exact absurd rfl unfinished
  · rename_i completed
    exact completed.symm
  · rename_i completed
    exact completed.symm

theorem close_of_completed {framed : Framed} {answers : Framed.SinkAnswers}
    (success : (framed.pollComplete answers).1 = .ready ()) (closed : Poll Unit) :
    framed.close answers closed =
      (ByteStream.shutdown closed, (framed.pollComplete answers).2) := by
  unfold Framed.close
  split
  · rename_i completed
    rw [completed]
  · rename_i completed
    rw [completed] at success
    cases success
  · rename_i completed
    rw [completed] at success
    cases success

/-- A `poll_complete` that did not succeed has not hidden that the sink is not ready. -/
theorem surfaces_of_unfinished {framed : Framed} {answers : Framed.SinkAnswers} {log : Log}
    (unfinished : (framed.pollComplete answers).1 ≠ .ready ())
    (pending : Pending (logPollComplete framed answers ++ log)) :
    (framed.pollComplete answers).1 = .notReady := by
  by_cases reaches : Reaches framed answers
  · obtain ⟨before, _, logged⟩ := logPollComplete_of_reaches reaches log
    rw [logged] at pending
    change answers.flush = .notReady at pending
    rw [(pollComplete_of_reaches reaches).1, pending] at unfinished
    exact absurd rfl unfinished
  · obtain ⟨logged, _, surfaces⟩ := pollComplete_of_not_reaches reaches
    rw [logged] at pending
    exact surfaces pending

theorem truthful_close_shutdown (closed : Poll Unit) (log : Log) :
    Truthful (.close (ByteStream.shutdown closed) [] :: (logShutdown closed ++ log)) ↔
      closed ≠ .notReady ∧ Truthful log := by
  cases closed <;> simp [logShutdown, Truthful, Pending, Closed, ByteStream.shutdown]

theorem truthful_logClose (framed : Framed) (answers : Framed.SinkAnswers) (closed : Poll Unit)
    (log : Log) :
    Truthful (logClose framed answers closed ++ log) ↔
      (Reaches framed answers → answers.flush ≠ .notReady ∧
        (answers.flush = .ready () → closed ≠ .notReady)) ∧ Truthful log := by
  have completes := truthful_logPollComplete framed answers log
  unfold logClose
  by_cases success : (framed.pollComplete answers).1 = .ready ()
  · have reaches : Reaches framed answers := by
      by_contra stuck
      exact (pollComplete_of_not_reaches stuck).2.1 success
    have written := (pollComplete_of_reaches reaches).2
    have flushed : answers.flush = .ready () ∨ answers.flush = .notReady := by
      rw [(pollComplete_of_reaches reaches).1] at success
      cases answer : answers.flush with
      | ready value => exact Or.inl rfl
      | notReady => exact Or.inr rfl
      | error reason =>
          rw [answer] at success
          cases success
    rw [close_of_completed success, if_pos success, written, List.cons_append,
      List.append_assoc, truthful_close_shutdown, completes]
    simp only [reaches, true_implies]
    rcases flushed with ready | notReady
    · simp [ready]
    · simp [notReady]
  · rw [close_of_unfinished success, if_neg success]
    simp only [List.cons_append, Truthful]
    rw [completes]
    constructor
    · rintro ⟨_, _, keepsUp, before⟩
      refine ⟨fun reaches => ⟨keepsUp reaches, fun ready => ?_⟩, before⟩
      rw [(pollComplete_of_reaches reaches).1, ready] at success
      exact absurd rfl success
    · rintro ⟨keepsUp, before⟩
      exact ⟨fun report => absurd report success, surfaces_of_unfinished success,
        fun reaches => (keepsUp reaches).1, before⟩

theorem step_truthful_iff (s : State) (event : Event) (truthful : Truthful s.log) :
    Truthful (s.step event).log ↔ KeepsUp s event := by
  cases event with
  | write buf answer =>
      simp only [State.step, KeepsUp, iff_true]
      exact (truthful_logWrite _ _ _ _).mpr truthful
  | flush answer =>
      simp only [State.step, KeepsUp, truthful_logFlush, truthful, and_true]
  | shutdown answer =>
      simp only [State.step, KeepsUp, truthful_logShutdown, truthful, and_true]
  | startSend payload answers =>
      simp only [State.step, KeepsUp, logStartSend]
      by_cases full : Framed.backpressureBoundary ≤ s.framed.writeBuf.length
      · rw [if_pos full, truthful_logPollComplete]
        simp only [full, true_implies, truthful, and_true]
      · rw [if_neg full]
        simp only [full, false_implies, iff_true]
        exact truthful
  | pollComplete answers =>
      simp only [State.step, KeepsUp, truthful_logPollComplete, truthful, and_true]
  | close answers closed =>
      simp only [State.step, KeepsUp, truthful_logClose, truthful, and_true]

/-- What a stream reports over a whole run is true exactly when no flush and no shutdown finds the
inner sink not ready. -/
theorem truthful_iff_keepsUp (io : ByteStream) (events : List Event) :
    Transition.Throughout State.step (fun s => Truthful s.log) (State.new io) events ↔
      Transition.Meets State.step KeepsUp (State.new io) events := by
  have nothing : Truthful (State.new io).log := trivial
  exact Transition.throughout_iff_meets step_truthful_iff nothing events

/-- The sink takes a byte, and has not sent it when the stream is flushed. -/
theorem pending_flush_succeeds :
    ByteStream.flush .notReady = .ready () ∧ ByteStream.shutdown .notReady = .ready () ∧
      ¬ Transition.Throughout State.step (fun s => Truthful s.log) (State.new (ByteStream.new []))
        [.write [1] .accepted, .flush .notReady] := by
  refine ⟨rfl, rfl, ?_⟩
  intro always
  have truthful := always [.write [1] .accepted, .flush .notReady] (List.prefix_refl _)
  have flushed := truthful.1 rfl
  exact flushed

end HolePunch.Flushing
