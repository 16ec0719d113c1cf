import HolePunch.RequestQueue
import HolePunch.StreamWakeups

set_option autoImplicit false

/- One call of `Discovery::poll` (`registries/mdns.rs`) with its timers as sources of their own, and
which sources wake the two tasks when their polls return `NotReady`. -/
namespace HolePunch.Mdns

open Futures (Answered Progress Wake)
open Remote (ResultSender)
open Transition (Meets)

variable {cache : Cache}

/-- The sources of events that `Discovery` polls. A timer is known by its number. -/
inductive DiscoverySource where
  | discovery
  | requestRecv
  | timer (number : Nat)
  deriving DecidableEq, Repr

/-- A call in progress. The timers of the set are numbered, those that it pushes with the numbers
from `pushed` on. -/
structure DiscoveryPoll (cache : Cache) where
  discovery : Discovery cache
  numbers : List Nat
  pushed : Nat
  last : Answered DiscoverySource

namespace DiscoveryPoll

def start (s : Discovery cache) : DiscoveryPoll cache :=
  ⟨s, List.range s.queuedRequestsTimeouts.length, s.queuedRequestsTimeouts.length,
    Answered.unpolled⟩

def polled (s : DiscoveryPoll cache) (source : DiscoverySource) (answer : Wake) :
    DiscoveryPoll cache :=
  { s with last := s.last.poll source answer }

/-- One response of `poll_results`. -/
def response (now : Nat) (s : DiscoveryPoll cache) (res : Response) :
    Progress (DiscoveryPoll cache) := do
  let s := s.polled .discovery .ready
  let discovery ← Progress.ofExcept (s.discovery.handleResponse now res)
  return { s with discovery := discovery }

/-- One timer that completes leaves the set. -/
def timeout (now : Nat) (s : DiscoveryPoll cache) (completion : Nat × Except Unit Unit) :
    DiscoveryPoll cache :=
  let discovery := s.discovery.handleTimeout now completion
  if discovery.queuedRequestsTimeouts.length < s.discovery.queuedRequestsTimeouts.length then
    { s with
      discovery := discovery
      numbers := s.numbers.eraseIdx completion.1
      last := s.last.pollAll (s.numbers[completion.1]?.toList.map .timer) .ready }
  else { s with discovery := discovery }

/-- The loop ends with a poll of the set in which none of its timers is ready. -/
def pollQueuedRequestsTimeouts (answers : Answers) (s : DiscoveryPoll cache) :
    DiscoveryPoll cache :=
  let s := answers.timeouts.foldl (timeout answers.now) s
  { s with last := s.last.pollAll (s.numbers.map .timer) .notReady }

/-- One request. A timer that is pushed is not polled. -/
def request (now : Nat) (s : DiscoveryPoll cache) (made : ResultSender × PeerIdentifier) :
    Progress (DiscoveryPoll cache) := do
  let s := s.polled .requestRecv .ready
  let discovery ← Progress.ofExcept (s.discovery.handleRequest now made)
  if s.discovery.queuedRequestsTimeouts.length < discovery.queuedRequestsTimeouts.length then
    return { s.polled (.timer s.pushed) .renewed with
      discovery := discovery
      numbers := s.numbers ++ [s.pushed]
      pushed := s.pushed + 1 }
  else return { s with discovery := discovery }

/-- The timers of the set have numbers. -/
def Numbered (s : DiscoveryPoll cache) : Prop :=
  s.numbers.length = s.discovery.queuedRequestsTimeouts.length

/-- All sources that the task depends on, the timers of the set included, wake it. -/
structure Woken (s : DiscoveryPoll cache) : Prop where
  numbered : s.Numbered
  discovery : s.last .discovery = some .notReady
  requestRecv : s.last .requestRecv = some .notReady
  timers : ∀ number ∈ s.numbers, s.last (.timer number) = some .notReady

end DiscoveryPoll

/-- `Discovery::poll` with what its sources answered. It goes on when the call returns
`NotReady`. -/
def Discovery.pollSources (s : Discovery cache) (answers : Answers) :
    Progress (DiscoveryPoll cache) := do
  let s ← answers.responses.foldlM (DiscoveryPoll.response answers.now) (DiscoveryPoll.start s)
  match answers.discovery with
  | .finished => .finished
  | .error => .finished
  | .notReady => do
      let s := (s.polled .discovery .notReady).pollQueuedRequestsTimeouts answers
      let s ← answers.requests.foldlM (DiscoveryPoll.request answers.now) s
      match answers.requestRecv with
      | .finished => .finished
      | .error => .finished
      | .notReady => return s.polled .requestRecv .notReady

/-- What a poll amounts to for the task. -/
def Task.progress : Task cache → Progress (Discovery cache)
  | .running s => .goesOn s
  | .failed => .finished
  | .panicked message => .panicked message

/-- The event does not queue a request. -/
def Task.QueuesNothing (task : Task cache) (event : QueueEvent) : Prop :=
  ∀ s, task = .running s → ∀ peer, ¬ event.Queues s peer

namespace DiscoveryPoll

@[simp] theorem polled_last_self (s : DiscoveryPoll cache) (source : DiscoverySource)
    (answer : Wake) : (s.polled source answer).last source = some answer :=
  Answered.poll_self ..

theorem response_discovery (now : Nat) (s : DiscoveryPoll cache) (res : Response) :
    (s.response now res).map discovery =
      Progress.ofExcept (s.discovery.handleResponse now res) := by
  change Progress.map discovery (Progress.ofExcept (s.discovery.handleResponse now res) >>= _) = _
  cases s.discovery.handleResponse now res <;> rfl

theorem timeout_discovery (now : Nat) (s : DiscoveryPoll cache)
    (completion : Nat × Except Unit Unit) :
    (s.timeout now completion).discovery = s.discovery.handleTimeout now completion := by
  unfold timeout
  dsimp only
  split <;> rfl

theorem request_discovery (now : Nat) (s : DiscoveryPoll cache)
    (made : ResultSender × PeerIdentifier) :
    (s.request now made).map discovery =
      Progress.ofExcept (s.discovery.handleRequest now made) := by
  change Progress.map discovery (Progress.ofExcept (s.discovery.handleRequest now made) >>= _) = _
  cases s.discovery.handleRequest now made with
  | error message => rfl
  | ok next =>
      change Progress.map discovery (if _ then _ else _) = _
      split <;> rfl

theorem foldl_timeout_discovery (now : Nat) (completions : List (Nat × Except Unit Unit))
    (s : DiscoveryPoll cache) :
    (completions.foldl (timeout now) s).discovery =
      completions.foldl (Discovery.handleTimeout now) s.discovery := by
  induction completions generalizing s with
  | nil => rfl
  | cons completion rest ih =>
      rw [List.foldl_cons, List.foldl_cons, ih, timeout_discovery]

theorem pollQueuedRequestsTimeouts_discovery (answers : Answers) (s : DiscoveryPoll cache) :
    (s.pollQueuedRequestsTimeouts answers).discovery =
      answers.timeouts.foldl (Discovery.handleTimeout answers.now) s.discovery :=
  foldl_timeout_discovery answers.now answers.timeouts s

end DiscoveryPoll

/-- A request that is queued adds a timer. -/
theorem Discovery.longer_of_queues {s next : Discovery cache} {now : Nat}
    {made : ResultSender × PeerIdentifier} {peer : PeerIdentifier}
    (queues : QueueEvent.Queues s (.request now made) peer)
    (served : s.handleRequest now made = .ok next) :
    next.queuedRequestsTimeouts.length = s.queuedRequestsTimeouts.length + 1 := by
  have made' : made.2 = peer := by
    obtain ⟨_, _, same, _⟩ := queues
    cases same
    rfl
  subst made'
  obtain ⟨knownPeers, queued⟩ := Discovery.handleRequest_of_queues queues
  rw [served] at queued
  cases queued
  rw [List.length_append, List.length_singleton]

/-- Recording the answers changes nothing about the poll. -/
theorem Discovery.pollSources_progress (s : Discovery cache) (answers : Answers) :
    (s.pollSources answers).map DiscoveryPoll.discovery = (s.poll answers).progress := by
  unfold pollSources poll
  rcases Progress.map_eq_ofExcept (Progress.map_foldlM DiscoveryPoll.discovery
      (DiscoveryPoll.response_discovery answers.now) answers.responses (DiscoveryPoll.start s)) with
    ⟨found, drained, responses⟩ | ⟨message, drained, responses⟩
  · rw [drained]
    change answers.responses.foldlM (handleResponse answers.now) s = .ok found.discovery
      at responses
    rw [responses]
    cases answers.discovery with
    | finished => rfl
    | error => rfl
    | notReady =>
        have loop := Progress.map_foldlM DiscoveryPoll.discovery
          (DiscoveryPoll.request_discovery answers.now) answers.requests
          ((found.polled .discovery .notReady).pollQueuedRequestsTimeouts answers)
        rw [DiscoveryPoll.pollQueuedRequestsTimeouts_discovery] at loop
        change _ = Progress.ofExcept (answers.requests.foldlM (handleRequest answers.now)
          (answers.timeouts.foldl (handleTimeout answers.now) found.discovery)) at loop
        dsimp only [bind, Progress.bind]
        rcases Progress.map_eq_ofExcept loop with
          ⟨served, looped, requests⟩ | ⟨message, looped, requests⟩
        · rw [looped, requests]
          cases answers.requestRecv <;> rfl
        · rw [looped, requests]
          rfl
  · rw [drained]
    change answers.responses.foldlM (handleResponse answers.now) s = .error message at responses
    rw [responses]
    rfl

namespace DiscoveryPoll

theorem start_numbered (s : Discovery cache) : (start s).Numbered := List.length_range

theorem response_numbered {now : Nat} {s next : DiscoveryPoll cache} {res : Response}
    (handled : s.response now res = .goesOn next) (numbered : s.Numbered) : next.Numbered := by
  obtain ⟨discovery, responded, reached⟩ := Progress.bind_eq_goesOn_iff.mp handled
  have effect := Discovery.handleResponse_effect (Progress.ofExcept_eq_goesOn_iff.mp responded)
  have same : discovery.queuedRequestsTimeouts = s.discovery.queuedRequestsTimeouts := by
    cases effect with
    | unchanged queue timers => exact timers
    | answered accepted waiting spawned queue timers => exact timers
  cases reached
  unfold Numbered
  rw [same]
  exact numbered

theorem responses_handled {now : Nat} {s : Discovery cache} {responses : List Response}
    {found : DiscoveryPoll cache}
    (drained : responses.foldlM (response now) (start s) = .goesOn found) :
    responses.foldlM (Discovery.handleResponse now) s = .ok found.discovery ∧
      found.Numbered := by
  constructor
  · have seen := Progress.map_foldlM discovery (response_discovery now) responses (start s)
    rw [drained] at seen
    exact Progress.ofExcept_eq_goesOn_iff.mp seen.symm
  · exact Progress.foldlM_goesOn Numbered
      (fun _ _ _ handled kept => response_numbered handled kept) (start_numbered s) drained

/-- A timer that completes leaves the set with its number, and only its answer is recorded. -/
theorem timeout_frame (now : Nat) (s : DiscoveryPoll cache) (completion : Nat × Except Unit Unit)
    (numbered : s.Numbered) : (s.timeout now completion).Numbered ∧
      (s.timeout now completion).last .discovery = s.last .discovery := by
  have effect := s.discovery.handleTimeout_effect now completion
  unfold timeout
  dsimp only
  split
  · rename_i shorter
    refine ⟨?_, ?_⟩
    · have erased : (s.discovery.handleTimeout now completion).queuedRequestsTimeouts =
          s.discovery.queuedRequestsTimeouts.eraseIdx completion.1 := by
        cases effect with
        | unchanged queue timers =>
            rw [timers] at shorter
            exact absurd shorter (Nat.lt_irrefl _)
        | fired pending queue timers => exact timers
        | failed pending queue timers => exact timers
      unfold Numbered at numbered ⊢
      rw [erased, List.length_eraseIdx, List.length_eraseIdx, numbered]
    · apply Answered.pollAll_of_not_mem
      simp
  · rename_i kept
    refine ⟨?_, rfl⟩
    have same : (s.discovery.handleTimeout now completion).queuedRequestsTimeouts.length =
        s.discovery.queuedRequestsTimeouts.length := by
      cases effect with
      | unchanged queue timers => rw [timers]
      | fired pending queue timers =>
          have within := (List.getElem?_eq_some_iff.mp pending).1
          rw [timers, List.length_eraseIdx_of_lt within] at kept
          omega
      | failed pending queue timers =>
          have within := (List.getElem?_eq_some_iff.mp pending).1
          rw [timers, List.length_eraseIdx_of_lt within] at kept
          omega
    unfold Numbered
    rw [same]
    exact numbered

/-- When the loop over the timers ends, all that are left in the set wake the task. -/
theorem pollQueuedRequestsTimeouts_woken (answers : Answers) {s : DiscoveryPoll cache}
    (numbered : s.Numbered) : (s.pollQueuedRequestsTimeouts answers).Numbered ∧
      (s.pollQueuedRequestsTimeouts answers).last .discovery = s.last .discovery ∧
      ∀ number ∈ (s.pollQueuedRequestsTimeouts answers).numbers,
        (s.pollQueuedRequestsTimeouts answers).last (.timer number) = some .notReady := by
  obtain ⟨numbered, same⟩ := Transition.run_invariant
    (fun reached : DiscoveryPoll cache => reached.Numbered ∧
      reached.last .discovery = s.last .discovery)
    (fun reached completion kept => ⟨(timeout_frame answers.now reached completion kept.1).1,
      (timeout_frame answers.now reached completion kept.1).2.trans kept.2⟩)
    ⟨numbered, rfl⟩ answers.timeouts
  refine ⟨numbered, ?_, ?_⟩
  · refine (Answered.pollAll_of_not_mem _ _ ?_).trans same
    simp
  · intro number member
    exact Answered.pollAll_of_mem _ _ (List.mem_map_of_mem member)

/-- All that a request does to the timers and their answers. -/
theorem request_cases {now : Nat} {s next : DiscoveryPoll cache}
    {made : ResultSender × PeerIdentifier} (handled : s.request now made = .goesOn next)
    (numbered : s.Numbered) : next.Numbered ∧
      ((Task.QueuesNothing (.running s.discovery) (.request now made) ∧
          next.numbers = s.numbers ∧ next.last = s.last.poll .requestRecv .ready) ∨
        (¬ Task.QueuesNothing (.running s.discovery) (.request now made) ∧
          next.numbers = s.numbers ++ [s.pushed] ∧
          next.last = (s.last.poll .requestRecv .ready).poll (.timer s.pushed) .renewed)) := by
  obtain ⟨discovery, served, reached⟩ := Progress.bind_eq_goesOn_iff.mp handled
  have served : s.discovery.handleRequest now made = .ok discovery :=
    Progress.ofExcept_eq_goesOn_iff.mp served
  cases Discovery.handleRequest_effect served with
  | unchanged queue timers =>
      have same : discovery.queuedRequestsTimeouts.length =
          s.discovery.queuedRequestsTimeouts.length := by rw [timers]
      split at reached
      · rename_i longer
        exact absurd (same ▸ longer) (Nat.lt_irrefl _)
      · cases reached
        refine ⟨numbered.trans same.symm, Or.inl ⟨?_, rfl, rfl⟩⟩
        intro before running peer queues
        cases running
        have longer := Discovery.longer_of_queues queues served
        omega
  | queued queues queue timers =>
      have longer : discovery.queuedRequestsTimeouts.length =
          s.discovery.queuedRequestsTimeouts.length + 1 := by
        rw [timers, List.length_append, List.length_singleton]
      split at reached
      · cases reached
        refine ⟨?_, Or.inr ⟨?_, rfl, rfl⟩⟩
        · change (s.numbers ++ [s.pushed]).length = discovery.queuedRequestsTimeouts.length
          rw [longer, List.length_append, numbered]
          rfl
        · intro nothing
          exact nothing _ rfl _ queues
      · rename_i kept
        change ¬ s.discovery.queuedRequestsTimeouts.length < _ at kept
        omega

theorem request_handle {now : Nat} {s next : DiscoveryPoll cache}
    {made : ResultSender × PeerIdentifier} (handled : s.request now made = .goesOn next) :
    Task.handle (.running s.discovery) (.request now made) = .running next.discovery := by
  have seen := request_discovery now s made
  rw [handled] at seen
  have served : s.discovery.handleRequest now made = .ok next.discovery :=
    Progress.ofExcept_eq_goesOn_iff.mp seen.symm
  simp only [Task.handle, Discovery.handle, served]

/-- A timer that was pushed stays in the set and is not polled in this call. -/
def Unpolled (s : DiscoveryPoll cache) : Prop :=
  ∃ number ∈ s.numbers, s.last (.timer number) = some .renewed

section Requests

variable {now : Nat} {s last : DiscoveryPoll cache}
  {requests : List (ResultSender × PeerIdentifier)}

theorem request_unpolled {next : DiscoveryPoll cache} {made : ResultSender × PeerIdentifier}
    (handled : s.request now made = .goesOn next) (numbered : s.Numbered)
    (unpolled : s.Unpolled) : next.Unpolled := by
  obtain ⟨number, member, renewed⟩ := unpolled
  obtain ⟨-, ⟨-, numbers, answers⟩ | ⟨-, numbers, answers⟩⟩ := request_cases handled numbered
  · refine ⟨number, numbers ▸ member, ?_⟩
    rw [answers]
    exact renewed
  · refine ⟨number, ?_, ?_⟩
    · rw [numbers]
      exact List.mem_append_left _ member
    · rw [answers]
      by_cases same : number = s.pushed
      · rw [same]
        exact Answered.poll_self ..
      · rw [Answered.poll_of_ne _ _ (by simpa using same)]
        exact renewed

theorem requests_kept (looped : requests.foldlM (request now) s = .goesOn last)
    (numbered : s.Numbered) :
    last.Numbered ∧ last.last .discovery = s.last .discovery ∧ (s.Unpolled → last.Unpolled) := by
  refine Progress.foldlM_goesOn (fun reached => reached.Numbered ∧
    reached.last .discovery = s.last .discovery ∧ (s.Unpolled → reached.Unpolled)) ?_
    ⟨numbered, rfl, id⟩ looped
  intro before next made handled kept
  obtain ⟨numbered, same, unpolled⟩ := kept
  obtain ⟨next_numbered, effect⟩ := request_cases handled numbered
  refine ⟨next_numbered, ?_, fun first => request_unpolled handled numbered (unpolled first)⟩
  rcases effect with ⟨-, -, answers⟩ | ⟨-, -, answers⟩
  · rw [answers]
    exact same
  · rw [answers]
    exact same

theorem requests_quiet (looped : requests.foldlM (request now) s = .goesOn last)
    (numbered : s.Numbered)
    (quiet : Meets Task.handle Task.QueuesNothing (.running s.discovery)
      (requests.map (.request now))) :
    last.numbers = s.numbers ∧ ∀ number, last.last (.timer number) = s.last (.timer number) := by
  induction requests generalizing s with
  | nil =>
      cases looped
      exact ⟨rfl, fun _ => rfl⟩
  | cons made rest ih =>
      rw [List.foldlM_cons, Progress.bind_eq_goesOn_iff] at looped
      obtain ⟨next, handled, looped⟩ := looped
      obtain ⟨nothing, later⟩ := quiet
      rw [request_handle handled] at later
      obtain ⟨next_numbered, ⟨-, numbers, answers⟩ | ⟨queues, -⟩⟩ := request_cases handled numbered
      · obtain ⟨same, kept⟩ := ih looped next_numbered later
        refine ⟨same.trans numbers, ?_⟩
        intro number
        rw [kept number, answers]
        rfl
      · exact absurd nothing queues

theorem requests_unpolled (looped : requests.foldlM (request now) s = .goesOn last)
    (numbered : s.Numbered)
    (queues : ¬ Meets Task.handle Task.QueuesNothing (.running s.discovery)
      (requests.map (.request now))) : last.Unpolled := by
  induction requests generalizing s with
  | nil => exact absurd trivial queues
  | cons made rest ih =>
      rw [List.foldlM_cons, Progress.bind_eq_goesOn_iff] at looped
      obtain ⟨next, handled, looped⟩ := looped
      obtain ⟨next_numbered, ⟨nothing, -⟩ | ⟨-, numbers, answers⟩⟩ :=
        request_cases handled numbered
      · refine ih looped next_numbered (fun later => queues ⟨nothing, ?_⟩)
        rw [request_handle handled]
        exact later
      · refine (requests_kept looped next_numbered).2.2 ⟨s.pushed, ?_, ?_⟩
        · rw [numbers]
          exact List.mem_append_right _ List.mem_cons_self
        · rw [answers]
          exact Answered.poll_self ..

/-- From a state in which the other sources wake the task. -/
theorem requests_woken_iff (looped : requests.foldlM (request now) s = .goesOn last)
    (numbered : s.Numbered) (first : s.last .discovery = some .notReady)
    (timers : ∀ number ∈ s.numbers, s.last (.timer number) = some .notReady) :
    (last.polled .requestRecv .notReady).Woken ↔
      Meets Task.handle Task.QueuesNothing (.running s.discovery)
        (requests.map (.request now)) := by
  obtain ⟨last_numbered, same, -⟩ := requests_kept looped numbered
  constructor
  · intro woken
    by_contra queues
    obtain ⟨number, member, renewed⟩ := requests_unpolled looped numbered queues
    have notReady : last.last (.timer number) = some .notReady := woken.timers number member
    rw [renewed] at notReady
    cases notReady
  · intro quiet
    obtain ⟨numbers, kept⟩ := requests_quiet looped numbered quiet
    refine ⟨last_numbered, same.trans first, polled_last_self .., ?_⟩
    intro number member
    change number ∈ last.numbers at member
    rw [numbers] at member
    exact (kept number).trans (timers number member)

end Requests

end DiscoveryPoll

theorem Task.queuesNothing_of_ne (task : Task cache) {event : QueueEvent}
    (other : ∀ now made, event ≠ .request now made) : task.QueuesNothing event := by
  intro s _ peer queues
  obtain ⟨now, sender, made, _⟩ := queues
  exact other now (sender, peer) made

/-- Of the events of a poll only its requests can queue anything. -/
theorem Task.queuesNothing_iff {s found : Discovery cache} {answers : Answers}
    (responses : answers.responses.foldlM (Discovery.handleResponse answers.now) s = .ok found) :
    Meets Task.handle Task.QueuesNothing (.running s) answers.events ↔
      Meets Task.handle Task.QueuesNothing
        (.running (answers.timeouts.foldl (Discovery.handleTimeout answers.now) found))
        (answers.requests.map (.request answers.now)) := by
  have noRequest : ∀ task : Task cache, ∀ event ∈
      answers.responses.map (QueueEvent.response answers.now), task.QueuesNothing event := by
    intro task event member
    obtain ⟨res, _, rfl⟩ := List.mem_map.mp member
    exact task.queuesNothing_of_ne (fun _ _ => QueueEvent.noConfusion)
  have noTimeout : ∀ task : Task cache, ∀ event ∈
      answers.timeouts.map (QueueEvent.timeout answers.now), task.QueuesNothing event := by
    intro task event member
    obtain ⟨completion, _, rfl⟩ := List.mem_map.mp member
    exact task.queuesNothing_of_ne (fun _ _ => QueueEvent.noConfusion)
  rw [Answers.events, Transition.meets_append, Transition.meets_append,
    Task.run_handle_of_foldlM (fun _ _ => rfl) responses, Task.run_handle_timeouts]
  constructor
  · rintro ⟨_, _, requests⟩
    exact requests
  · intro requests
    exact ⟨Transition.meets_of_forall noRequest _, Transition.meets_of_forall noTimeout _, requests⟩

/-- The pushed timers are the only sources that do not wake the task. -/
theorem Discovery.woken_iff {s : Discovery cache} {answers : Answers}
    {polled : DiscoveryPoll cache} (returned : s.pollSources answers = .goesOn polled) :
    polled.Woken ↔ Meets Task.handle Task.QueuesNothing (.running s) answers.events := by
  obtain ⟨found, drained, returned⟩ := Progress.bind_eq_goesOn_iff.mp returned
  obtain ⟨responses, numbered⟩ := DiscoveryPoll.responses_handled drained
  cases discovery : answers.discovery with
  | finished =>
      rw [discovery] at returned
      cases returned
  | error =>
      rw [discovery] at returned
      cases returned
  | notReady =>
      rw [discovery] at returned
      obtain ⟨served, looped, returned⟩ := Progress.bind_eq_goesOn_iff.mp returned
      obtain ⟨numbered, first, timers⟩ :=
        DiscoveryPoll.pollQueuedRequestsTimeouts_woken (s := found.polled .discovery .notReady)
          answers numbered
      rw [Task.queuesNothing_iff responses]
      have woken := DiscoveryPoll.requests_woken_iff looped numbered first timers
      rw [DiscoveryPoll.pollQueuedRequestsTimeouts_discovery] at woken
      cases requestRecv : answers.requestRecv with
      | finished =>
          rw [requestRecv] at returned
          cases returned
      | error =>
          rw [requestRecv] at returned
          cases returned
      | notReady =>
          rw [requestRecv] at returned
          cases returned
          exact woken

end HolePunch.Mdns

namespace HolePunch

open Mdns (Answers Cache Discovery Task)
open Remote (StreamAnswers TimedStream)
open Transition (Meets)

/-- When a poll returns `NotReady`, every source that the task still depends on wakes it exactly
when, for an outgoing stream, the ping interval has not ticked in this call and, for the
discovery, no request has been queued in it. -/
theorem woken_iff_no_tick_or_queued {cache : Cache} (s : TimedStream)
    (streamAnswers : StreamAnswers) (discovery : Discovery cache) (answers : Answers) :
    (∀ polled, s.poll streamAnswers = .goesOn polled →
      ((∀ source, polled.last.Arranged source) ↔
        ∀ send, streamAnswers.pingInterval ≠ .ready (some send))) ∧
    ∀ polled, discovery.pollSources answers = .goesOn polled →
      (polled.Woken ↔
        Meets Task.handle Task.QueuesNothing (.running discovery) answers.events) := by
  refine ⟨?_, ?_⟩
  · intro polled returned
    exact TimedStream.arranged_iff returned
  · intro polled returned
    exact Discovery.woken_iff returned

/-- A stream to the peer `01` that pings every five seconds. -/
def pingingStream : TimedStream :=
  ⟨⟨fun _ => none, NewStreamHandle.new (.ofByte 1) (.ofByte 2) ⟨0⟩, .ofByte 1⟩,
    5 * Remote.second, 0, 15 * Remote.second⟩

/-- The interval ticks, and nothing else happens. -/
def tick : StreamAnswers :=
  ⟨[], .notReady, .ready (some .accepted), .notReady, [], .notReady⟩

/-- A request for the peer `02` arrives, and nothing else happens. -/
def firstRequest : Answers := ⟨0, [], .notReady, [], [(0, .ofByte 2)], .notReady⟩

theorem tick_and_pushed_timer_do_not_wake :
    (∃ polled, pingingStream.poll tick = .goesOn polled ∧
      ¬ polled.last.Arranged .pingInterval) ∧
    ∃ polled, Mdns.lan.pollSources firstRequest = .goesOn polled ∧
      polled.discovery.queuedRequestsTimeouts = [⟨10, .ofByte 2⟩] ∧ polled.numbers = [0] ∧
      polled.last (.timer 0) ≠ some .notReady := by
  refine ⟨⟨_, rfl, ?_⟩, ⟨_, rfl, rfl, rfl, ?_⟩⟩
  · rintro (impossible | impossible)
    · cases impossible
    · cases impossible
  · intro impossible
    cases impossible

end HolePunch
