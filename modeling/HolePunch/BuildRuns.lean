import HolePunch.BuildConnection
import HolePunch.Library.Transition

set_option autoImplicit false

/- Whole runs of the two machines that build a connection: when the initiating side falls back to
the proxy stream, and what messages the asked side survives. -/
namespace HolePunch

namespace BuildConnectionToPeer

/-- The race of the connection attempts of `WaitingForConnection`. An attempt is known by its place
in the list of addresses and completes on its own, whether or not it is polled; `left` is the state
the machine has gone to. -/
structure Race where
  outcomes : Nat → Option (Except Error Connection)
  timedOut : Bool
  left : Option BuildConnectionToPeer

inductive RaceEvent where
  | completes (attempt : Nat) (result : Except Error Connection)
  | timeoutFires
  /-- A poll of the machine. `reported` is the completed attempt that the set of attempts reports,
  if any; the answers to what this handler does not ask are free. -/
  | poll (reported : Option Nat) (others : BuildAnswers)

namespace Race

def start : Race := ⟨fun _ => none, false, none⟩

/-- The completed attempt that is reported, with its outcome. -/
def attempt (s : Race) (reported : Option Nat) : Option (Nat × Except Error Connection) :=
  reported.bind (fun index => (s.outcomes index).map (fun result => (index, result)))

theorem attempt_eq_some {s : Race} {reported : Option Nat} {index : Nat}
    {result : Except Error Connection} :
    s.attempt reported = some (index, result) ↔
      reported = some index ∧ s.outcomes index = some result := by
  cases reported with
  | none => simp [attempt]
  | some given =>
      simp only [attempt, Option.bind_some, Option.map_eq_some_iff, Prod.mk.injEq,
        Option.some.injEq]
      constructor
      · rintro ⟨outcome, found, rfl, rfl⟩
        exact ⟨rfl, found⟩
      · rintro ⟨rfl, found⟩
        exact ⟨result, found, rfl, rfl⟩

/-- What the timeout and the attempts answer to a poll. -/
def answers (s : Race) (reported : Option Nat) (others : BuildAnswers) : BuildAnswers :=
  { others with
    timeout := if s.timedOut then .error else .notReady
    attempt := s.attempt reported }

variable (addresses : List SocketAddr) (proxyStream : Strategies.Stream)
  (newStreamHandle : NewStreamHandle) (peerIdentifier localPeerIdentifier : PeerIdentifier)

def step (s : Race) : RaceEvent → Race
  | .completes index result =>
      if index < addresses.length ∧ s.outcomes index = none then
        { s with outcomes := Function.update s.outcomes index (some result) }
      else s
  | .timeoutFires => { s with timedOut := true }
  | .poll reported others =>
      match s.left with
      | some _ => s
      | none =>
          let waiting := waitingForConnection addresses proxyStream newStreamHandle peerIdentifier
            localPeerIdentifier
          match (waiting.step (s.answers reported others)).1 with
          | .transition next => { s with left := some next }
          | _ => s

/-- Every attempt has completed with an error. -/
def AllFailed (s : Race) : Prop :=
  ∀ index < addresses.length, ∃ reason, s.outcomes index = some (.error reason)

/-- The machine has gone to the proxy stream only after the timeout or without a connection. -/
def LastResort (s : Race) : Prop :=
  ∀ proxy handle peer, s.left = some (BuildConnectionToPeer.proxyStream proxy handle peer) →
    s.timedOut = true ∨ s.AllFailed addresses

/-- While the machine waits and the timeout has not fired, no failed attempt is reported as long as
another one is under way or has succeeded. -/
def Patient (s : Race) : RaceEvent → Prop
  | .poll reported _ =>
      s.left = none → s.timedOut = false → ∀ index, reported = some index →
        index < addresses.length → (∃ reason, s.outcomes index = some (.error reason)) →
          s.AllFailed addresses
  | _ => True

/-- What a poll of the waiting machine does: after the timeout it takes the proxy stream, and so it
does with nothing left to try; otherwise the attempt that is reported decides. -/
theorem poll_cases (s : Race) (reported : Option Nat) (others : BuildAnswers) :
    let polled := ((waitingForConnection addresses proxyStream newStreamHandle peerIdentifier
      localPeerIdentifier).step (s.answers reported others)).1
    (polled = .transition (.proxyStream proxyStream newStreamHandle peerIdentifier) ∧
      (s.timedOut = true ∨ addresses = [] ∨ ∃ index reason, reported = some index ∧
        index < addresses.length ∧ s.outcomes index = some (.error reason))) ∨
    ((polled = .notReady ∨ ∃ newStream, polled =
        .transition (.waitingForStream newStream proxyStream newStreamHandle peerIdentifier)) ∧
      s.timedOut = false ∧ ∀ index, reported = some index → index < addresses.length →
        ∀ reason, s.outcomes index ≠ some (.error reason)) := by
  intro polled
  cases fired : s.timedOut with
  | true =>
      refine Or.inl ⟨?_, Or.inl rfl⟩
      simp only [polled, BuildConnectionToPeer.step, pollWaitingForConnection, answers, fired,
        if_true]
  | false =>
      have decided : polled = (pollWaitingForConnection addresses proxyStream newStreamHandle
        peerIdentifier localPeerIdentifier (s.answers reported others)).1 := rfl
      simp only [pollWaitingForConnection, answers, fired, Bool.false_eq_true, if_false] at decided
      rcases Futures.pollUnordered_cases addresses (s.attempt reported) with
        ⟨polledAttempts, empty⟩ | ⟨index, connection, completed, inside, polledAttempts⟩ |
        ⟨index, reason, completed, inside, polledAttempts⟩ | ⟨polledAttempts, outside⟩
      · rw [polledAttempts] at decided
        exact Or.inl ⟨decided, Or.inr (Or.inl empty)⟩
      · rw [polledAttempts] at decided
        obtain ⟨rfl, outcome⟩ := attempt_eq_some.mp completed
        refine Or.inr ⟨Or.inr ⟨_, decided⟩, rfl, ?_⟩
        intro other same _ reason
        cases same
        simp [outcome]
      · rw [polledAttempts] at decided
        obtain ⟨rfl, outcome⟩ := attempt_eq_some.mp completed
        exact Or.inl ⟨decided, Or.inr (Or.inr ⟨index, reason, rfl, inside, outcome⟩)⟩
      · rw [polledAttempts] at decided
        refine Or.inr ⟨Or.inl decided, rfl, ?_⟩
        intro index same inside reason outcome
        have bound := outside index (.error reason) (attempt_eq_some.mpr ⟨same, outcome⟩)
        omega

theorem completes_allFailed {s : Race} (index : Nat) (result : Except Error Connection)
    (failed : s.AllFailed addresses) :
    (s.step addresses proxyStream newStreamHandle peerIdentifier localPeerIdentifier
      (.completes index result)).AllFailed addresses := by
  simp only [step]
  split
  · rename_i fresh
    obtain ⟨reason, outcome⟩ := failed index fresh.1
    rw [outcome] at fresh
    exact absurd fresh.2 (by simp)
  · exact failed

/-- The rule for a machine that has gone on, by what it has gone to. -/
theorem lastResort_of_left {s : Race} {next : BuildConnectionToPeer} (gone : s.left = some next)
    (direct : ∀ proxy handle peer, next ≠ .proxyStream proxy handle peer) :
    s.LastResort addresses := by
  intro proxy handle peer entered
  rw [gone] at entered
  cases entered
  exact absurd rfl (direct proxy handle peer)

/-- A poll keeps the rule exactly when it is not told of a failed attempt too early. -/
theorem poll_lastResort_iff {s : Race} (reported : Option Nat) (others : BuildAnswers)
    (holds : s.LastResort addresses) :
    (s.step addresses proxyStream newStreamHandle peerIdentifier localPeerIdentifier
      (.poll reported others)).LastResort addresses ↔
        s.Patient addresses (.poll reported others) := by
  cases gone : s.left with
  | some next =>
      simp only [step, Patient, gone, reduceCtorEq, false_implies, iff_true]
      exact holds
  | none =>
      rcases poll_cases addresses proxyStream newStreamHandle peerIdentifier localPeerIdentifier s
        reported others with ⟨polled, why⟩ | ⟨polled, running, noFailure⟩
      · simp only [step, gone, polled]
        constructor
        · intro rule _ running index _ _ _
          rcases rule proxyStream newStreamHandle peerIdentifier rfl with fired | failed
          · rw [running] at fired
            cases fired
          · exact failed
        · intro patient _ _ _ _
          rcases why with fired | empty | ⟨index, reason, told, inside, outcome⟩
          · exact Or.inl fired
          · subst empty
            exact Or.inr (fun index inside => absurd inside (Nat.not_lt_zero index))
          · by_cases fired : s.timedOut = true
            · exact Or.inl fired
            · have running : s.timedOut = false := Bool.eq_false_iff.mpr fired
              exact Or.inr (patient gone running index told inside ⟨reason, outcome⟩)
      · have patient : s.Patient addresses (.poll reported others) := by
          rintro _ _ index told inside ⟨reason, outcome⟩
          exact absurd outcome (noFailure index told inside reason)
        simp only [patient, iff_true]
        rcases polled with stays | ⟨newStream, direct⟩
        · simp only [step, gone, stays]
          exact holds
        · simp only [step, gone, direct]
          exact lastResort_of_left addresses rfl (fun _ _ _ entered => by cases entered)

theorem step_lastResort_iff (s : Race) (event : RaceEvent) (holds : s.LastResort addresses) :
    (s.step addresses proxyStream newStreamHandle peerIdentifier localPeerIdentifier
      event).LastResort addresses ↔ s.Patient addresses event := by
  cases event with
  | completes index result =>
      simp only [Patient, iff_true]
      intro proxy handle peer entered
      have before : s.left = some (.proxyStream proxy handle peer) := by
        simp only [step] at entered
        split at entered <;> exact entered
      rcases holds proxy handle peer before with fired | failed
      · apply Or.inl
        simp only [step]
        split <;> exact fired
      · exact Or.inr (completes_allFailed addresses proxyStream newStreamHandle peerIdentifier
          localPeerIdentifier index result failed)
  | timeoutFires =>
      simp only [Patient, iff_true]
      intro _ _ _ _
      exact Or.inl rfl
  | poll reported others =>
      exact poll_lastResort_iff addresses proxyStream newStreamHandle peerIdentifier
        localPeerIdentifier reported others holds

/-- The proxy stream is the last resort over a whole run exactly when no poll is told of a failed
attempt while another attempt is under way or has succeeded. -/
theorem lastResort_iff_patient (events : List RaceEvent) :
    Transition.Throughout
        (step addresses proxyStream newStreamHandle peerIdentifier localPeerIdentifier)
        (LastResort addresses) start events ↔
      Transition.Meets
        (step addresses proxyStream newStreamHandle peerIdentifier localPeerIdentifier)
        (Patient addresses) start events :=
  Transition.throughout_iff_meets
    (step_lastResort_iff addresses proxyStream newStreamHandle peerIdentifier localPeerIdentifier)
    (fun _ _ _ entered => by cases entered) events

/-- The first of two attempts fails and is reported after the second has succeeded. -/
def overtaken (connection : Connection) (others : BuildAnswers) : List RaceEvent :=
  [.completes 0 (.error (.custom "refused")), .completes 1 (.ok connection), .poll (some 0) others]

def twoAddresses : List SocketAddr := [⟨.v4 0x7f000001, 1⟩, ⟨.v4 0x7f000001, 2⟩]

theorem overtaken_takes_proxy :
    ¬ ∀ (addresses : List SocketAddr) (proxyStream : Strategies.Stream)
      (newStreamHandle : NewStreamHandle) (peerIdentifier localPeerIdentifier : PeerIdentifier)
      (events : List RaceEvent),
      Transition.Throughout
        (step addresses proxyStream newStreamHandle peerIdentifier localPeerIdentifier)
        (LastResort addresses) start events := by
  intro always
  have one : PeerIdentifier := .ofByte 1
  have handle : NewStreamHandle := NewStreamHandle.new one one ⟨0⟩
  let connection : Connection := ⟨⟨1, 0⟩, handle, one, 0⟩
  let others : BuildAnswers :=
    ⟨.ready (), .ready (), .notReady, .accepted, .notReady, none, [], ⟨.v4 0, 22222⟩⟩
  have rule := always twoAddresses ⟨0⟩ handle one one (overtaken connection others)
    (overtaken connection others) (List.prefix_refl _)
  rcases rule ⟨0⟩ handle one rfl with fired | failed
  · cases fired
  · obtain ⟨reason, outcome⟩ := failed 1 (by decide)
    change some (Except.ok connection) = _ at outcome
    cases outcome

end Race

end BuildConnectionToPeer

namespace BuildConnectionToPeerRemote

/-- What one turn of the poll loop is answered. -/
structure Turn where
  message : Poll (Option BuildConnectionToPeerProtocol)
  sent : SendPoll
  interfaces : List IpAddr
  localAddr : SocketAddr

/-- The task that polls the machine until it is done. -/
inductive Task where
  | polling (machine : BuildConnectionToPeerRemote)
  | finished
  | failed (reason : Error)
  | panicked (message : String)

def Task.step (task : Task) (turn : Turn) : Task :=
  match task with
  | .polling machine =>
      match (machine.step turn.message turn.sent turn.interfaces turn.localAddr).1 with
      | .notReady => .polling machine
      | .transition next => .polling next
      | .ready () => .finished
      | .error reason => .failed reason
      | .panic message => .panicked message
  | done => done

def Task.Survives (task : Task) : Prop := ∀ message, task ≠ .panicked message

/-- The messages that the stream gives before it ends or fails. -/
def received : List Turn → List BuildConnectionToPeerProtocol
  | [] => []
  | turn :: rest =>
      match turn.message with
      | .notReady => received rest
      | .ready (some message) => message :: received rest
      | .ready none => []
      | .error _ => []

/-- A turn of a machine that still has its stream. -/
theorem step_polling {machine : BuildConnectionToPeerRemote} {stream : Strategies.Stream}
    (held : machine.stream = some stream) (turn : Turn) :
    (Task.polling machine).step turn =
      match turn.message with
      | .notReady => .polling machine
      | .error reason => .failed reason
      | .ready none => .finished
      | .ready (some .proxyConnection) => .finished
      | .ready (some (.internetAddressInformation addr)) =>
          .polling { machine with internetAddr := some addr }
      | .ready (some (.exchangeAddressInformation _)) =>
          match machine.internetAddr, turn.sent with
          | none, _ => .panicked "Internet address should already be set!"
          | some _, .error reason => .failed reason
          | some _, _ => .polling machine := by
  obtain ⟨message, sent, interfaces, localAddr⟩ := turn
  simp only [Task.step, BuildConnectionToPeerRemote.step, held]
  rcases message with _ | (_ | (_ | _ | _)) | _
  all_goals try rfl
  cases machine.internetAddr with
  | none => rfl
  | some addr => cases sent <;> rfl

/-- The machine has its stream, and knows its address from the peer in the middle. -/
def Task.Informed : Task → Prop
  | .polling machine => (∃ stream, machine.stream = some stream) ∧
      ∃ addr, machine.internetAddr = some addr
  | .finished => True
  | .failed _ => True
  | .panicked _ => False

theorem step_informed (task : Task) (turn : Turn) (informed : task.Informed) :
    (task.step turn).Informed := by
  cases task with
  | finished => exact trivial
  | failed reason => exact trivial
  | panicked message => exact informed
  | polling machine =>
      obtain ⟨⟨stream, held⟩, addr, known⟩ := informed
      have waiting : (Task.polling machine).Informed := ⟨⟨stream, held⟩, addr, known⟩
      rw [step_polling held, known]
      split
      · exact waiting
      · exact trivial
      · exact trivial
      · exact trivial
      · rename_i told _
        exact ⟨⟨stream, held⟩, told, rfl⟩
      · split
        · rename_i unknown
          cases unknown
        · exact trivial
        · exact waiting

theorem survives_of_informed {task : Task} (informed : task.Informed) : task.Survives := by
  intro message panicked
  rw [panicked] at informed
  exact informed

/-- A machine that does not know its address yet survives exactly the message sequences that do
not start with an exchange. -/
theorem run_survives_iff {machine : BuildConnectionToPeerRemote} {stream : Strategies.Stream}
    (held : machine.stream = some stream) (unknown : machine.internetAddr = none)
    (turns : List Turn) :
    (Transition.run Task.step (.polling machine) turns).Survives ↔
      ∀ addresses rest, received turns ≠ .exchangeAddressInformation addresses :: rest := by
  induction turns with
  | nil =>
      constructor
      · intro _ addresses rest same
        cases same
      · intro _ message panicked
        cases panicked
  | cons turn later ih =>
      have first := step_polling held turn
      rw [unknown] at first
      simp only [Transition.run, List.foldl_cons, received]
      change (Transition.run Task.step _ later).Survives ↔ _
      cases read : turn.message with
      | notReady =>
          rw [first, read]
          exact ih
      | error reason =>
          simp only [first, read]
          rw [Transition.run_fixed (fun _ => rfl)]
          simp [Task.Survives]
      | ready given =>
          cases given with
          | none =>
              simp only [first, read]
              rw [Transition.run_fixed (fun _ => rfl)]
              simp [Task.Survives]
          | some message =>
              cases message with
              | internetAddressInformation addr =>
                  simp only [first, read]
                  have told : Task.Informed
                      (.polling { machine with internetAddr := some addr }) :=
                    ⟨⟨stream, held⟩, addr, rfl⟩
                  have informed := Transition.run_invariant Task.Informed step_informed told later
                  simp [survives_of_informed informed]
              | exchangeAddressInformation addresses =>
                  simp only [first, read]
                  rw [Transition.run_fixed (fun _ => rfl)]
                  simp [Task.Survives]
              | proxyConnection =>
                  simp only [first, read]
                  rw [Transition.run_fixed (fun _ => rfl)]
                  simp [Task.Survives]

/-- Whatever the peer sends after the hello, the machine that is started for it panics exactly when
the first message is an exchange of addresses. -/
theorem survives_iff_first_not_exchange (stream : Strategies.Stream)
    (peerIdentifier : PeerIdentifier) (newStreamHandle : NewStreamHandle) (turns : List Turn) :
    (Transition.run Task.step (.polling (new stream peerIdentifier newStreamHandle))
      turns).Survives ↔
      ∀ addresses rest, received turns ≠ .exchangeAddressInformation addresses :: rest :=
  run_survives_iff rfl rfl turns

/-- An exchange is the first message, before the peer in the middle has told any address. -/
def exchangeFirst : Turn :=
  ⟨.ready (some (.exchangeAddressInformation [])), .accepted, [], ⟨.v4 0, 22222⟩⟩

theorem exchangeFirst_panics :
    ¬ ∀ (stream : Strategies.Stream) (peerIdentifier : PeerIdentifier)
      (newStreamHandle : NewStreamHandle) (turns : List Turn),
      (Transition.run Task.step (.polling (new stream peerIdentifier newStreamHandle))
        turns).Survives := by
  intro always
  have one : PeerIdentifier := .ofByte 1
  exact always ⟨0⟩ one (NewStreamHandle.new one one ⟨0⟩) [exchangeFirst]
    "Internet address should already be set!" rfl

end BuildConnectionToPeerRemote

end HolePunch
