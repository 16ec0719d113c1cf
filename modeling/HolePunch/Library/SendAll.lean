import HolePunch.Library.Futures

set_option autoImplicit false

/- `send_all`: the future that forwards what a stream gives to a sink. The stream is polled, and
the sink takes an item or leaves it, through functions that the user supplies. -/
namespace SendAll

open Futures (Poll)

variable {ε α σ τ : Type}

/-- `buffered` is the item that the sink has left. -/
structure State (α σ τ : Type) where
  buffered : Option α
  stream : σ
  sink : τ
  deriving DecidableEq, Repr

/-- How one turn of the loop of `poll` ends. -/
inductive Turn (ε : Type) where
  | again
  | notReady
  | ready
  | error (reason : ε)
  deriving DecidableEq, Repr

/-- A sink that is not ready gives the item back. -/
def tryStartSend (startSend : τ → α → Poll ε Unit × τ) (s : State α σ τ) (item : α) :
    Turn ε × State α σ τ :=
  match startSend s.sink item with
  | (.ready (), sink) => (.again, { s with buffered := none, sink := sink })
  | (.notReady, sink) => (.notReady, { s with buffered := some item, sink := sink })
  | (.error reason, sink) => (.error reason, { s with buffered := none, sink := sink })

/-- `closed` and `completed` are what the sink answers to `close` and to `poll_complete`. -/
def turn (poll : σ → Poll ε (Option α) × σ) (startSend : τ → α → Poll ε Unit × τ)
    (closed completed : Poll ε Unit) (s : State α σ τ) : Turn ε × State α σ τ :=
  match s.buffered with
  | some item => tryStartSend startSend s item
  | none =>
      match poll s.stream with
      | (.error reason, stream) => (.error reason, { s with stream := stream })
      | (.ready (some item), stream) => tryStartSend startSend { s with stream := stream } item
      | (.ready none, stream) =>
          match closed with
          | .ready () => (.ready, { s with stream := stream })
          | .notReady => (.notReady, { s with stream := stream })
          | .error reason => (.error reason, { s with stream := stream })
      | (.notReady, stream) =>
          match completed with
          | .error reason => (.error reason, { s with stream := stream })
          | _ => (.notReady, { s with stream := stream })

variable (poll : σ → Poll ε (Option α) × σ) (startSend : τ → α → Poll ε Unit × τ)
  (closed completed : Poll ε Unit)

/-- All that can become of an item. -/
theorem tryStartSend_cases (s : State α σ τ) (item : α) :
    let offered := startSend s.sink item
    (offered.1 = .ready () ∧
      tryStartSend startSend s item = (.again, ⟨none, s.stream, offered.2⟩)) ∨
    (offered.1 = .notReady ∧
      tryStartSend startSend s item = (.notReady, ⟨some item, s.stream, offered.2⟩)) ∨
    (∃ reason, offered.1 = .error reason ∧
      tryStartSend startSend s item = (.error reason, ⟨none, s.stream, offered.2⟩)) := by
  intro offered
  unfold tryStartSend
  cases answer : startSend s.sink item with
  | mk result sink =>
      simp only [offered, answer]
      cases result with
      | ready => exact Or.inl ⟨rfl, rfl⟩
      | notReady => exact Or.inr (Or.inl ⟨rfl, rfl⟩)
      | error reason => exact Or.inr (Or.inr ⟨reason, rfl, rfl⟩)

/-- A turn sends an item, the one that is buffered or else the next of the stream, or it sends
nothing. -/
theorem turn_cases (s : State α σ τ) :
    let polled := poll s.stream
    let next := turn poll startSend closed completed s
    (∃ item, s.buffered = some item ∧ next = tryStartSend startSend s item) ∨
    (∃ item, s.buffered = none ∧ polled.1 = .ready (some item) ∧
      next = tryStartSend startSend { s with stream := polled.2 } item) ∨
    (s.buffered = none ∧ (∀ item, polled.1 ≠ .ready (some item)) ∧
      next.2 = ⟨none, polled.2, s.sink⟩ ∧
      (next.1 = .ready → polled.1 = .ready none ∧ closed = .ready ())) := by
  intro polled next
  obtain ⟨buffered, stream, sink⟩ := s
  simp only [next, turn]
  cases buffered with
  | some item => exact Or.inl ⟨item, rfl, rfl⟩
  | none =>
      refine Or.inr ?_
      cases answer : poll stream with
      | mk result after =>
          simp only [polled, answer]
          cases result with
          | error reason => exact Or.inr ⟨trivial, by simp, rfl, by simp⟩
          | notReady => cases completed <;> exact Or.inr ⟨trivial, by simp, rfl, by simp⟩
          | ready given =>
              cases given with
              | some item => exact Or.inl ⟨item, trivial, rfl, rfl⟩
              | none => cases closed <;> exact Or.inr ⟨trivial, by simp, rfl, by simp⟩

theorem tryStartSend_stream (s : State α σ τ) (item : α) :
    (tryStartSend startSend s item).2.stream = s.stream := by
  obtain ⟨-, sent⟩ | ⟨-, sent⟩ | ⟨reason, -, sent⟩ := tryStartSend_cases startSend s item <;>
    rw [sent]

theorem tryStartSend_sink (s : State α σ τ) (item : α) :
    (tryStartSend startSend s item).2.sink = (startSend s.sink item).2 := by
  obtain ⟨-, sent⟩ | ⟨-, sent⟩ | ⟨reason, -, sent⟩ := tryStartSend_cases startSend s item <;>
    rw [sent]

variable {poll startSend}

/-- What a poll keeps of the stream, a turn keeps. -/
theorem turn_stream (kept : σ → Prop) (polls : ∀ stream, kept stream → kept (poll stream).2)
    {s : State α σ τ} (holds : kept s.stream) :
    kept (turn poll startSend closed completed s).2.stream := by
  obtain ⟨item, -, turned⟩ | ⟨item, -, -, turned⟩ | ⟨-, -, turned, -⟩ :=
    turn_cases poll startSend closed completed s
  · rw [turned, tryStartSend_stream]
    exact holds
  · rw [turned, tryStartSend_stream]
    exact polls s.stream holds
  · rw [turned]
    exact polls s.stream holds

/-- What taking an item keeps of the sink, a turn keeps. -/
theorem turn_sink (kept : τ → Prop) (takes : ∀ sink item, kept sink → kept (startSend sink item).2)
    {s : State α σ τ} (holds : kept s.sink) :
    kept (turn poll startSend closed completed s).2.sink := by
  obtain ⟨item, -, turned⟩ | ⟨item, -, -, turned⟩ | ⟨-, -, turned, -⟩ :=
    turn_cases poll startSend closed completed s
  · rw [turned, tryStartSend_sink]
    exact takes s.sink item holds
  · rw [turned, tryStartSend_sink]
    exact takes s.sink item holds
  · rw [turned]
    exact holds

variable {β : Type}

/-- `taken` is what was taken from the stream, and `handed` what the sink has accepted. -/
structure Accounts (poll : σ → Poll ε (Option α) × σ) (startSend : τ → α → Poll ε Unit × τ)
    (content : α → List β) (taken : σ → List β) (handed : τ → List β) : Prop where
  given : ∀ stream item, (poll stream).1 = .ready (some item) →
    taken (poll stream).2 = taken stream ++ content item
  idle : ∀ stream, (∀ item, (poll stream).1 ≠ .ready (some item)) →
    taken (poll stream).2 = taken stream
  accepted : ∀ sink item, (startSend sink item).1 = .ready () →
    handed (startSend sink item).2 = handed sink ++ content item
  left : ∀ sink item, (startSend sink item).1 ≠ .ready () →
    handed (startSend sink item).2 = handed sink

def State.left (content : α → List β) (s : State α σ τ) : List β :=
  (s.buffered.map content).getD []

theorem State.left_id (s : State (List β) σ τ) : s.left id = s.buffered.getD [] := by
  rw [left, Option.map_id, id]

/-- Where the sink has everything but the given item, it lacks what is buffered after the item is
offered. An error loses the item. -/
theorem tryStartSend_accounts {content : α → List β} {taken : σ → List β} {handed : τ → List β}
    (accounts : Accounts poll startSend content taken handed) {s : State α σ τ} {item : α}
    (balance : taken s.stream = handed s.sink ++ content item) :
    let next := tryStartSend startSend s item
    handed next.2.sink <+: taken next.2.stream ∧ next.1 ≠ .ready ∧
      ((∀ reason, next.1 ≠ .error reason) →
        taken next.2.stream = handed next.2.sink ++ next.2.left content) := by
  intro next
  obtain ⟨answer, sent⟩ | ⟨answer, sent⟩ | ⟨reason, answer, sent⟩ :=
    tryStartSend_cases startSend s item
  · have handing := accounts.accepted s.sink item answer
    simp only [next, sent, handing, balance, State.left, Option.map_none, Option.getD_none,
      List.append_nil]
    exact ⟨List.prefix_refl _, by simp, fun _ => trivial⟩
  · have handing := accounts.left s.sink item (by simp [answer])
    simp only [next, sent, handing, balance, State.left, Option.map_some, Option.getD_some]
    exact ⟨List.prefix_append _ _, by simp, fun _ => trivial⟩
  · have handing := accounts.left s.sink item (by simp [answer])
    simp only [next, sent, handing, balance]
    exact ⟨List.prefix_append _ _, by simp, fun never => absurd rfl (never reason)⟩

/-- A turn keeps the sink and what is buffered together equal to what was taken, unless it fails.
When it is done, the sink has everything and has closed. -/
theorem turn_accounts {content : α → List β} {taken : σ → List β} {handed : τ → List β}
    (accounts : Accounts poll startSend content taken handed) {s : State α σ τ}
    (balance : taken s.stream = handed s.sink ++ s.left content) :
    let next := turn poll startSend closed completed s
    handed next.2.sink <+: taken next.2.stream ∧
      (next.1 = .ready → (poll s.stream).1 = .ready none ∧ closed = .ready () ∧
        taken s.stream = handed next.2.sink) ∧
      ((∀ reason, next.1 ≠ .error reason) →
        taken next.2.stream = handed next.2.sink ++ next.2.left content) := by
  intro next
  obtain ⟨item, held, turned⟩ | ⟨item, held, polled, turned⟩ | ⟨held, never, turned, done⟩ :=
    turn_cases poll startSend closed completed s
  · have whole : taken s.stream = handed s.sink ++ content item := by
      rw [balance, State.left, held, Option.map_some, Option.getD_some]
    obtain ⟨isPrefix, unready, kept⟩ := tryStartSend_accounts accounts whole
    rw [show next = _ from turned]
    exact ⟨isPrefix, fun ready => absurd ready unready, kept⟩
  · rw [State.left, held, Option.map_none, Option.getD_none, List.append_nil] at balance
    have whole : taken (poll s.stream).2 = handed s.sink ++ content item := by
      rw [accounts.given s.stream item polled, balance]
    obtain ⟨isPrefix, unready, kept⟩ :=
      tryStartSend_accounts (s := { s with stream := (poll s.stream).2 }) accounts whole
    rw [show next = _ from turned]
    exact ⟨isPrefix, fun ready => absurd ready unready, kept⟩
  · rw [State.left, held, Option.map_none, Option.getD_none, List.append_nil] at balance
    have same : taken next.2.stream = handed next.2.sink := by
      rw [show next.2 = _ from turned, accounts.idle s.stream never, balance]
    refine ⟨same ▸ List.prefix_refl _, ?_, ?_⟩
    · intro ready
      obtain ⟨ended, closes⟩ := done ready
      rw [show next.2 = _ from turned]
      exact ⟨ended, closes, balance⟩
    · intro _
      rw [same, show next.2 = _ from turned, State.left, Option.map_none, Option.getD_none,
        List.append_nil]

end SendAll
