import Mathlib.Data.List.Chain
import HolePunch.Library.Sync
import HolePunch.Registries.Mdns

set_option autoImplicit false

/- The task that keeps a peer registered in local DNS (`registries/mdns.rs`), with the clock that
its retries are timed by. -/
namespace HolePunch.Mdns

/-- Seconds to wait before retrying the registration. -/
def waitBeforeRetry : Nat := 5

/-- In the second state the service is registered, with what the responder was created for, until
the state is left. -/
inductive MdnsResponder where
  | registerResponder
  | pollResponder (service : MdnsResponderContext)
  | waitForRetry (deadline : Nat)
  | readyState
  deriving DecidableEq, Repr

/-- A registration that was tried. `cut` says that the wait before it ended with a timer that
failed. -/
structure Attempt where
  time : Nat
  cut : Bool
  deriving DecidableEq, Repr

/-- `shutdown` joins the task with its `MdnsRegistry`. -/
structure ResponderRun where
  machine : MdnsResponder
  shutdown : Sync.Oneshot Unit
  now : Nat
  cut : Bool
  attempts : List Attempt
  deriving DecidableEq, Repr

namespace ResponderRun

/-- What one handler finds, some time after the last one: whether a responder can be created, what
polling its task gives, and whether the timer fails. -/
structure Turn where
  elapsed : Nat
  create : Bool
  task : Poll Unit
  timerFails : Bool
  deriving DecidableEq, Repr

inductive Event where
  | turn (found : Turn)
  /-- The registry is dropped, and its end of the signal with it. -/
  | dropRegistry
  deriving DecidableEq, Repr

def start (now : Nat) : ResponderRun :=
  ⟨.registerResponder, Sync.Oneshot.channel, now, false, []⟩

/-- `WaitForRetry(Delay::new(Instant::now() + context.wait_before_retry))`. -/
def retry (s : ResponderRun) : ResponderRun :=
  { s with machine := .waitForRetry (s.now + waitBeforeRetry) }

def pollRegisterResponder (context : MdnsResponderContext) (s : ResponderRun) (create : Bool) :
    ResponderRun :=
  let s : ResponderRun := { s with attempts := s.attempts ++ [⟨s.now, s.cut⟩], cut := false }
  if create then { s with machine := .pollResponder context } else s.retry

def pollPollResponder (s : ResponderRun) (task : Poll Unit) : ResponderRun :=
  if task.settled then s.retry else s

def pollWaitForRetry (s : ResponderRun) (deadline : Nat) (timerFails : Bool) : ResponderRun :=
  if timerFails then { s with machine := .registerResponder, cut := true }
  else if deadline ≤ s.now then { s with machine := .registerResponder }
  else s

/-- Each handler looks at the shutdown signal first. -/
def turn (context : MdnsResponderContext) (s : ResponderRun) (found : Turn) : ResponderRun :=
  let isShutdown := s.shutdown.poll
  let s := { s with now := s.now + found.elapsed, shutdown := isShutdown.2 }
  match s.machine with
  | .readyState => s
  | machine =>
      if isShutdown.1.settled then { s with machine := .readyState }
      else match machine with
        | .registerResponder => s.pollRegisterResponder context found.create
        | .pollResponder _ => s.pollPollResponder found.task
        | .waitForRetry deadline => s.pollWaitForRetry deadline found.timerFails
        | .readyState => s

def step (context : MdnsResponderContext) (s : ResponderRun) : Event → ResponderRun
  | .turn found => s.turn context found
  | .dropRegistry => { s with shutdown := s.shutdown.dropSender }

/-- Two attempts are as far apart as the wait, unless its timer failed. -/
def Spaced (before after : Attempt) : Prop :=
  after.cut = true ∨ before.time + waitBeforeRetry ≤ after.time

/-- All that a handler can do. -/
theorem turn_cases (context : MdnsResponderContext) (s : ResponderRun) (found : Turn) :
    let next := { s with now := s.now + found.elapsed, shutdown := s.shutdown.poll.2 }
    (s.machine = .readyState ∧ s.turn context found = next) ∨
    (s.machine ≠ .readyState ∧ s.shutdown.complete = true ∧
      s.turn context found = { next with machine := .readyState }) ∨
    (s.machine = .registerResponder ∧ s.shutdown.complete = false ∧
      s.turn context found = next.pollRegisterResponder context found.create) ∨
    (∃ service, s.machine = .pollResponder service ∧ s.shutdown.complete = false ∧
      s.turn context found = next.pollPollResponder found.task) ∨
    (∃ deadline, s.machine = .waitForRetry deadline ∧ s.shutdown.complete = false ∧
      s.turn context found = next.pollWaitForRetry deadline found.timerFails) := by
  intro next
  unfold turn
  simp only [Sync.Oneshot.poll_settled]
  cases machine : s.machine with
  | readyState => exact Or.inl ⟨rfl, by simp only [machine, next]⟩
  | registerResponder =>
      cases complete : s.shutdown.complete <;> simp [machine, next]
  | pollResponder service =>
      cases complete : s.shutdown.complete <;> simp [machine, next]
  | waitForRetry deadline =>
      cases complete : s.shutdown.complete <;> simp [machine, next]

theorem turn_shutdown (context : MdnsResponderContext) (s : ResponderRun) (found : Turn) :
    (s.turn context found).shutdown.complete = s.shutdown.complete := by
  have same := s.shutdown.poll_complete
  rcases s.turn_cases context found with ⟨_, turned⟩ | ⟨_, _, turned⟩ | ⟨_, _, turned⟩ |
    ⟨_, _, _, turned⟩ | ⟨_, _, _, turned⟩ <;> rw [turned]
  · exact same
  · exact same
  · cases found.create <;> exact same
  · unfold pollPollResponder
    split <;> exact same
  · unfold pollWaitForRetry
    split
    · exact same
    · split <;> exact same

structure Inv (context : MdnsResponderContext) (s : ResponderRun) : Prop where
  alive : s.shutdown.complete = false → s.machine ≠ .readyState
  service : ∀ service, s.machine = .pollResponder service → service = context
  spaced : s.attempts.IsChain Spaced
  past : ∀ last ∈ s.attempts.getLast?, last.time ≤ s.now
  waited : s.machine = .registerResponder →
    s.cut = true ∨ ∀ last ∈ s.attempts.getLast?, last.time + waitBeforeRetry ≤ s.now
  wait : ∀ deadline, s.machine = .waitForRetry deadline → deadline ≤ s.now + waitBeforeRetry ∧
    ∀ last ∈ s.attempts.getLast?, last.time + waitBeforeRetry ≤ deadline

section

variable {context : MdnsResponderContext} {s : ResponderRun}

theorem start_inv (context : MdnsResponderContext) (now : Nat) : (start now).Inv context where
  alive := fun _ same => by cases same
  service := fun _ same => by cases same
  spaced := List.IsChain.nil
  past := fun _ member => by cases member
  waited := fun _ => Or.inr (fun _ member => by cases member)
  wait := fun _ same => by cases same

/-- Time passes, and the signal has been looked at. -/
theorem Inv.later (inv : s.Inv context) (elapsed : Nat) :
    Inv context { s with now := s.now + elapsed, shutdown := s.shutdown.poll.2 } where
  alive := fun complete => inv.alive (s.shutdown.poll_complete.symm.trans complete)
  service := inv.service
  spaced := inv.spaced
  past := fun last member => Nat.le_add_right_of_le (inv.past last member)
  waited := fun registering => (inv.waited registering).imp_right
    (fun all last member => Nat.le_add_right_of_le (all last member))
  wait := by
    intro deadline waiting
    obtain ⟨soon, after⟩ := inv.wait deadline waiting
    refine ⟨?_, after⟩
    dsimp only
    omega

theorem retry_inv (spaced : s.attempts.IsChain Spaced)
    (past : ∀ last ∈ s.attempts.getLast?, last.time ≤ s.now) : s.retry.Inv context where
  alive := fun _ same => by cases same
  service := fun _ same => by cases same
  spaced := spaced
  past := past
  waited := fun same => by cases same
  wait := by
    intro deadline same
    cases same
    exact ⟨Nat.le_refl _, fun last member => Nat.add_le_add_right (past last member) _⟩

theorem pollRegisterResponder_inv (inv : s.Inv context)
    (registering : s.machine = .registerResponder) (create : Bool) :
    (s.pollRegisterResponder context create).Inv context := by
  let attempt : Attempt := ⟨s.now, s.cut⟩
  have spaced : (s.attempts ++ [attempt]).IsChain Spaced := by
    refine List.isChain_append.mpr ⟨inv.spaced, List.IsChain.singleton _, ?_⟩
    intro before last after same
    cases same
    exact (inv.waited registering).imp_right (fun all => all before last)
  have past : ∀ last ∈ (s.attempts ++ [attempt]).getLast?, last.time ≤ s.now := by
    intro last member
    rw [List.getLast?_concat] at member
    cases member
    exact Nat.le_refl _
  unfold pollRegisterResponder
  cases create with
  | false => exact retry_inv spaced past
  | true =>
      exact {
        alive := fun _ same => by cases same
        service := fun service same => by cases same; rfl
        spaced := spaced
        past := past
        waited := fun same => by cases same
        wait := fun deadline same => by cases same }

theorem pollPollResponder_inv (inv : s.Inv context) (task : Poll Unit) :
    (s.pollPollResponder task).Inv context := by
  unfold pollPollResponder
  split
  · exact retry_inv inv.spaced inv.past
  · exact inv

theorem pollWaitForRetry_inv (inv : s.Inv context) {deadline : Nat}
    (waiting : s.machine = .waitForRetry deadline) (timerFails : Bool) :
    (s.pollWaitForRetry deadline timerFails).Inv context := by
  obtain ⟨_, after⟩ := inv.wait deadline waiting
  have registers : ∀ cut, (cut = true ∨ deadline ≤ s.now) →
      Inv context { s with machine := .registerResponder, cut := cut } := by
    intro cut due
    exact {
      alive := fun _ same => by cases same
      service := fun _ same => by cases same
      spaced := inv.spaced
      past := inv.past
      waited := fun _ => due.imp_right (fun elapsed last member =>
        Nat.le_trans (after last member) elapsed)
      wait := fun _ same => by cases same }
  unfold pollWaitForRetry
  split
  · exact registers true (Or.inl rfl)
  · split
    · rename_i elapsed
      exact registers s.cut (Or.inr elapsed)
    · exact inv

theorem step_inv (inv : s.Inv context) (event : Event) : (s.step context event).Inv context := by
  cases event with
  | dropRegistry => exact { inv with alive := fun complete => by cases complete }
  | turn found =>
      have later := inv.later found.elapsed
      show (s.turn context found).Inv context
      rcases s.turn_cases context found with ⟨done, same⟩ | ⟨_, complete, same⟩ |
        ⟨registering, _, same⟩ | ⟨service, _, _, same⟩ | ⟨deadline, waiting, _, same⟩
      · rw [same]
        exact later
      · rw [same]
        exact {
          alive := fun running =>
            absurd (s.shutdown.poll_complete.symm.trans running) (by simp [complete])
          service := fun _ same => by cases same
          spaced := later.spaced
          past := later.past
          waited := fun same => by cases same
          wait := fun _ same => by cases same }
      · rw [same]
        exact pollRegisterResponder_inv later registering found.create
      · rw [same]
        exact pollPollResponder_inv later found.task
      · rw [same]
        exact pollWaitForRetry_inv later waiting found.timerFails

/-- Once the wait is over, two turns register the service again, if a responder can be created. -/
theorem recovers (inv : s.Inv context) (alive : s.shutdown.complete = false) {elapsed : Nat}
    (waited : waitBeforeRetry ≤ elapsed) :
    ((s.turn context ⟨elapsed, true, .notReady, false⟩).turn context
      ⟨0, true, .notReady, false⟩).machine = .pollResponder context := by
  have pending : s.shutdown.poll = (.notReady, s.shutdown) := by
    rw [Sync.Oneshot.poll, alive]
    rfl
  cases machine : s.machine with
  | registerResponder =>
      simp [turn, machine, pending, Futures.Poll.settled, pollRegisterResponder, pollPollResponder]
  | pollResponder service =>
      have same := inv.service service machine
      simp [turn, machine, pending, Futures.Poll.settled, pollPollResponder, same]
  | waitForRetry deadline =>
      have due : deadline ≤ s.now + elapsed :=
        Nat.le_trans (inv.wait deadline machine).1 (Nat.add_le_add_left waited _)
      simp [turn, machine, pending, Futures.Poll.settled, pollWaitForRetry, due,
        pollRegisterResponder]
  | readyState => exact absurd machine (inv.alive alive)

/-- After the registry is gone, the next turn ends the task and unregisters the service. -/
theorem turn_of_dropped (dropped : s.shutdown.complete = true) (found : Turn) :
    (s.turn context found).machine = .readyState ∧
      (s.turn context found).attempts = s.attempts := by
  rcases s.turn_cases context found with ⟨done, same⟩ | ⟨_, _, same⟩ | ⟨_, alive, _⟩ |
    ⟨_, _, alive, _⟩ | ⟨_, _, alive, _⟩
  · rw [same]
    exact ⟨done, rfl⟩
  · rw [same]
    exact ⟨rfl, rfl⟩
  · cases alive.symm.trans dropped
  · cases alive.symm.trans dropped
  · cases alive.symm.trans dropped

end

/-- Whatever fails, the task never ends before its registry is dropped; it keeps at most one
service registered, the one it was created for; it tries no registration sooner than the wait
after the last one, unless the timer of the wait fails; and it is always two turns away from being
registered once the wait is over. When the registry is dropped, the next turn ends it. -/
theorem run_keeps_registering (context : MdnsResponderContext) (now : Nat) (events : List Event) :
    let s := Transition.run (step context) (start now) events
    (s.shutdown.complete = false → s.machine ≠ .readyState) ∧
      (∀ service, s.machine = .pollResponder service → service = context) ∧
      s.attempts.IsChain Spaced ∧
      (s.shutdown.complete = false → ∀ elapsed, waitBeforeRetry ≤ elapsed →
        ((s.turn context ⟨elapsed, true, .notReady, false⟩).turn context
          ⟨0, true, .notReady, false⟩).machine = .pollResponder context) ∧
      (s.shutdown.complete = true → ∀ found, (s.turn context found).machine = .readyState ∧
        (s.turn context found).attempts = s.attempts) := by
  intro s
  have inv : s.Inv context := Transition.run_invariant (Inv context)
    (fun _ event inv => step_inv inv event) (start_inv context now) events
  exact ⟨inv.alive, inv.service, inv.spaced, fun alive _ waited => recovers inv alive waited,
    turn_of_dropped⟩

/-- Without a network no responder can be created; when there is one again, its task fails. -/
def interrupted : List Event :=
  [.turn ⟨0, false, .notReady, false⟩, .turn ⟨3, true, .notReady, false⟩,
    .turn ⟨2, true, .notReady, false⟩, .turn ⟨0, true, .notReady, false⟩,
    .turn ⟨1, true, .error (.custom "network"), false⟩]

theorem run_keeps_registering_interrupted :
    let context : MdnsResponderContext := ⟨"id".toList, "_service".toList, 80⟩
    let s := Transition.run (step context) (start 0) interrupted
    s.machine = .waitForRetry 11 ∧ s.attempts = [⟨0, false⟩, ⟨5, false⟩] ∧
      ((s.turn context ⟨5, true, .notReady, false⟩).turn context
        ⟨0, true, .notReady, false⟩).machine = .pollResponder context := by
  intro context s
  obtain ⟨_, _, _, again, _⟩ := run_keeps_registering context 0 interrupted
  exact ⟨by decide, by decide, again (by decide) 5 (by decide)⟩

end ResponderRun

end HolePunch.Mdns
