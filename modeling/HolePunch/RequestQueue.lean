import HolePunch.Discovery
import Mathlib.Data.List.Perm.Subperm

set_option autoImplicit false

/- The queue of requests of the mDNS discovery task and the timers that bound it, over all runs of
the task taken event by event. -/
namespace HolePunch.Mdns

open Remote (ResultSender)
open Transition (Throughout Meets)

/-- What the loops of `poll` handle one at a time. -/
inductive QueueEvent where
  | response (now : Nat) (res : Response)
  | timeout (now : Nat) (completion : Nat × Except Unit Unit)
  | request (now : Nat) (request : ResultSender × PeerIdentifier)

variable {cache : Cache}

def Discovery.handle (s : Discovery cache) : QueueEvent → Except String (Discovery cache)
  | .response now res => s.handleResponse now res
  | .timeout now completion => .ok (s.handleTimeout now completion)
  | .request now request => s.handleRequest now request

def Task.handle (task : Task cache) (event : QueueEvent) : Task cache :=
  match task with
  | .running s =>
      match s.handle event with
      | .ok s => .running s
      | .error message => .panicked message
  | .failed => .failed
  | .panicked message => .panicked message

/-- The events of one poll, in their order. -/
def Answers.events (answers : Answers) : List QueueEvent :=
  answers.responses.map (.response answers.now) ++
    (answers.timeouts.map (.timeout answers.now) ++ answers.requests.map (.request answers.now))

/-- The poll in which only this event happens. -/
def QueueEvent.alone : QueueEvent → Answers
  | .response now res => ⟨now, [res], .notReady, [], [], .notReady⟩
  | .timeout now completion => ⟨now, [], .notReady, [completion], [], .notReady⟩
  | .request now made => ⟨now, [], .notReady, [], [made], .notReady⟩

namespace Task

/-- A loop that handles items one at a time is a run of their events. -/
theorem run_handle_of_foldlM {ι : Type} {event : ι → QueueEvent}
    {handler : Discovery cache → ι → Except String (Discovery cache)}
    (handles : ∀ s item, s.handle (event item) = handler s item) {s last : Discovery cache}
    {items : List ι} (looped : items.foldlM handler s = .ok last) :
    Transition.run handle (.running s) (items.map event) = .running last := by
  induction items generalizing s with
  | nil =>
      cases looped
      rfl
  | cons item rest ih =>
      rw [List.foldlM_cons] at looped
      cases handled : handler s item with
      | error message =>
          rw [handled] at looped
          cases looped
      | ok next =>
          rw [handled] at looped
          have first : handle (.running s) (event item) = .running next := by
            simp only [handle, handles, handled]
          change Transition.run handle (handle (.running s) (event item)) _ = _
          rw [first]
          exact ih looped

theorem run_handle_timeouts (now : Nat) (s : Discovery cache)
    (completions : List (Nat × Except Unit Unit)) :
    Transition.run handle (.running s) (completions.map (.timeout now)) =
      .running (completions.foldl (Discovery.handleTimeout now) s) := by
  induction completions generalizing s with
  | nil => rfl
  | cons completion rest ih => exact ih (s.handleTimeout now completion)

/-- A poll after which the task still runs is the run of its events. -/
theorem run_handle_of_poll {s last : Discovery cache} {answers : Answers}
    (polled : s.poll answers = .running last) :
    Transition.run handle (.running s) answers.events = .running last := by
  unfold Discovery.poll at polled
  split at polled
  · cases polled
  · rename_i found responses
    split at polled
    · cases polled
    · cases polled
    · simp only at polled
      split at polled
      · cases polled
      · rename_i served requests
        split at polled
        · cases polled
        · cases polled
        · cases polled
          rw [Answers.events, Transition.run_append, Transition.run_append,
            run_handle_of_foldlM (fun _ _ => rfl) responses, run_handle_timeouts,
            run_handle_of_foldlM (fun _ _ => rfl) requests]

theorem step_alone (s : Discovery cache) (event : QueueEvent) :
    step (.running s) event.alone = handle (.running s) event := by
  cases event with
  | response now res =>
      simp only [step, handle, QueueEvent.alone, Discovery.poll, Discovery.handle,
        List.foldlM_cons, List.foldlM_nil, List.foldl_nil, pure, Except.pure]
      cases s.handleResponse now res <;> rfl
  | timeout now completion => rfl
  | request now request =>
      simp only [step, handle, QueueEvent.alone, Discovery.poll, Discovery.handle,
        List.foldlM_cons, List.foldlM_nil, List.foldl_nil, pure, Except.pure]
      cases s.handleRequest now request <;> rfl

/-- A task that has ended is never polled again. -/
theorem run_ended {task : Task cache} (ended : ∀ s, task ≠ .running s) (polls : List Answers) :
    Transition.run step task polls = task := by
  apply Transition.run_fixed
  intro answers
  cases task with
  | running s => exact absurd rfl (ended s)
  | failed => rfl
  | panicked message => rfl

/-- The states of a running task are the same whether it is taken poll by poll or event by
event. -/
theorem reached_by_polls_iff_events (start : Task cache) (s : Discovery cache) :
    (∃ polls, Transition.run step start polls = .running s) ↔
      ∃ events, Transition.run handle start events = .running s := by
  constructor
  · rintro ⟨polls, reached⟩
    refine ⟨polls.flatMap Answers.events, ?_⟩
    induction polls generalizing start with
    | nil => exact reached
    | cons answers rest ih =>
        change Transition.run step (start.step answers) rest = .running s at reached
        by_cases runs : ∃ next, start.step answers = .running next
        · obtain ⟨next, stepped⟩ := runs
          cases start with
          | running first =>
              rw [List.flatMap_cons, Transition.run_append, run_handle_of_poll stepped, ← stepped]
              exact ih _ reached
          | failed => cases stepped
          | panicked message => cases stepped
        · rw [run_ended (fun next stepped => runs ⟨next, stepped⟩) rest] at reached
          exact absurd ⟨s, reached⟩ runs
  · rintro ⟨events, reached⟩
    refine ⟨events.map QueueEvent.alone, ?_⟩
    induction events generalizing start with
    | nil => exact reached
    | cons event rest ih =>
        change Transition.run step (start.step event.alone) (rest.map QueueEvent.alone) = _
        cases start with
        | running first =>
            rw [step_alone]
            exact ih _ reached
        | failed => exact ih _ reached
        | panicked message => exact ih _ reached

end Task

/-- The event queues a request for the peer. -/
def QueueEvent.Queues (s : Discovery cache) (event : QueueEvent) (peer : PeerIdentifier) : Prop :=
  ∃ now sender, event = .request now (sender, peer) ∧
    (cache.get now peer.padded s.knownPeers).1 = none ∧ s.queuedRequests peer = none ∧
    s.queuedRequestsTimeouts.length < maxQueuedRequests

/-- All that an event does to the queue and its timers. -/
inductive QueueEffect (s next : Discovery cache) : QueueEvent → Prop
  | unchanged {event : QueueEvent} (queue : next.queuedRequests = s.queuedRequests)
      (timers : next.queuedRequestsTimeouts = s.queuedRequestsTimeouts) : QueueEffect s next event
  | answered {now : Nat} {res : Response} {r : DiscoveryResult} {sender : ResultSender}
      (accepted : DiscoveryResult.tryFrom res s.serviceName = some r)
      (waiting : s.queuedRequests r.peer = some sender)
      (spawned : ∃ select, next.spawned = s.spawned ++ [(sender, select)])
      (queue : next.queuedRequests = Function.update s.queuedRequests r.peer none)
      (timers : next.queuedRequestsTimeouts = s.queuedRequestsTimeouts) :
      QueueEffect s next (.response now res)
  | fired {now index : Nat} {timeout : Timeout}
      (pending : s.queuedRequestsTimeouts[index]? = some timeout)
      (queue : next.queuedRequests = Function.update s.queuedRequests timeout.peer none)
      (timers : next.queuedRequestsTimeouts = s.queuedRequestsTimeouts.eraseIdx index) :
      QueueEffect s next (.timeout now (index, .ok ()))
  | failed {now index : Nat} {timeout : Timeout}
      (pending : s.queuedRequestsTimeouts[index]? = some timeout)
      (queue : next.queuedRequests = s.queuedRequests)
      (timers : next.queuedRequestsTimeouts = s.queuedRequestsTimeouts.eraseIdx index) :
      QueueEffect s next (.timeout now (index, .error ()))
  | queued {now : Nat} {sender : ResultSender} {peer : PeerIdentifier}
      (queues : QueueEvent.Queues s (.request now (sender, peer)) peer)
      (queue : next.queuedRequests = Function.update s.queuedRequests peer (some sender))
      (timers : next.queuedRequestsTimeouts =
        s.queuedRequestsTimeouts ++ [⟨now + queuedRequestTimeout, peer⟩]) :
      QueueEffect s next (.request now (sender, peer))

namespace Discovery

/-- A request that is queued gets a timer of its own. -/
theorem handleRequest_of_queues {s : Discovery cache} {now : Nat} {sender : ResultSender}
    {peer : PeerIdentifier} (queues : QueueEvent.Queues s (.request now (sender, peer)) peer) :
    ∃ knownPeers, s.handleRequest now (sender, peer) = .ok { s with
      knownPeers := knownPeers
      queuedRequests := Function.update s.queuedRequests peer (some sender)
      queuedRequestsTimeouts :=
        s.queuedRequestsTimeouts ++ [⟨now + queuedRequestTimeout, peer⟩] } := by
  obtain ⟨_, _, same, missing, vacant, room⟩ := queues
  cases same
  unfold handleRequest
  split
  · rename_i result knownPeers found
    rw [found] at missing
    cases missing
  · rename_i knownPeers _
    refine ⟨knownPeers, ?_⟩
    simp only [vacant, if_neg (Nat.not_le.mpr room)]

theorem fulfillRequest_queue {s next : Discovery cache} {sender : ResultSender}
    {result : DiscoveryResult} (fulfilled : s.fulfillRequest sender result = .ok next) :
    next.queuedRequests = s.queuedRequests ∧
      next.queuedRequestsTimeouts = s.queuedRequestsTimeouts ∧
      ∃ select, next.spawned = s.spawned ++ [(sender, select)] := by
  by_cases located : result.addrs = []
  · obtain ⟨message, panic⟩ := s.fulfillRequest_panic sender located
    rw [panic] at fulfilled
    cases fulfilled
  · obtain ⟨select, spawned⟩ := s.fulfillRequest_ok sender located
    rw [spawned] at fulfilled
    cases fulfilled
    exact ⟨rfl, rfl, select, rfl⟩

theorem handleResponse_effect {s next : Discovery cache} {now : Nat} {res : Response}
    (handled : s.handleResponse now res = .ok next) : QueueEffect s next (.response now res) := by
  unfold handleResponse at handled
  split at handled
  · cases handled
    exact .unchanged rfl rfl
  · rename_i r accepted
    split at handled
    · cases handled
      exact .unchanged rfl rfl
    · unfold answerQueued at handled
      split at handled
      · rename_i request waiting
        cases fulfilled : fulfillRequest
            { s with queuedRequests := Function.update s.queuedRequests r.peer none } request r with
        | error message =>
            rw [fulfilled] at handled
            cases handled
        | ok answered =>
            rw [fulfilled] at handled
            cases handled
            obtain ⟨queue, timers, spawned⟩ := fulfillRequest_queue fulfilled
            exact .answered accepted waiting spawned queue timers
      · cases handled
        exact .unchanged rfl rfl

theorem handleTimeout_effect (s : Discovery cache) (now : Nat)
    (completion : Nat × Except Unit Unit) :
    QueueEffect s (s.handleTimeout now completion) (.timeout now completion) := by
  obtain ⟨index, result⟩ := completion
  unfold handleTimeout
  split
  · exact .unchanged rfl rfl
  · rename_i timeout _ pending fires
    simp only at pending fires
    subst fires
    split
    · exact .fired pending rfl rfl
    · exact .unchanged rfl rfl
  · rename_i timeout _ pending fails
    simp only at pending fails
    subst fails
    exact .failed pending rfl rfl

theorem handleRequest_effect {s next : Discovery cache} {now : Nat}
    {request : ResultSender × PeerIdentifier} (handled : s.handleRequest now request = .ok next) :
    QueueEffect s next (.request now request) := by
  obtain ⟨sender, peer⟩ := request
  unfold handleRequest at handled
  split at handled
  · obtain ⟨queue, timers, _⟩ := fulfillRequest_queue handled
    exact .unchanged queue timers
  · rename_i knownPeers missing
    simp only at handled
    split at handled
    · cases handled
      exact .unchanged rfl rfl
    · rename_i vacant
      split at handled
      · cases handled
        exact .unchanged rfl rfl
      · rename_i room
        cases handled
        refine .queued ⟨now, sender, rfl, congrArg Prod.fst missing, vacant, ?_⟩ rfl rfl
        exact Nat.lt_of_not_le room

theorem handle_effect {s next : Discovery cache} {event : QueueEvent}
    (handled : s.handle event = .ok next) : QueueEffect s next event := by
  cases event with
  | response now res => exact handleResponse_effect handled
  | timeout now completion =>
      cases handled
      exact s.handleTimeout_effect now completion
  | request now request => exact handleRequest_effect handled

/-- Every queued request has a timer, and neither timers nor requests exceed the limit. -/
structure QueueBounded (s : Discovery cache) : Prop where
  timed : ∀ peer, s.queuedRequests peer ≠ none →
    ∃ timeout ∈ s.queuedRequestsTimeouts, timeout.peer = peer
  timers : s.queuedRequestsTimeouts.length ≤ maxQueuedRequests
  requests : ∀ peers : List PeerIdentifier, peers.Nodup →
    (∀ peer ∈ peers, s.queuedRequests peer ≠ none) → peers.length ≤ maxQueuedRequests

/-- The limit on the timers is one on the requests, as each request has a timer. -/
theorem queueBounded_of_timed {s : Discovery cache}
    (timed : ∀ peer, s.queuedRequests peer ≠ none →
      ∃ timeout ∈ s.queuedRequestsTimeouts, timeout.peer = peer)
    (timers : s.queuedRequestsTimeouts.length ≤ maxQueuedRequests) : s.QueueBounded := by
  refine ⟨timed, timers, ?_⟩
  intro peers distinct queued
  have covered : peers ⊆ s.queuedRequestsTimeouts.map Timeout.peer := by
    intro peer member
    obtain ⟨timeout, pending, same⟩ := timed peer (queued peer member)
    exact List.mem_map.mpr ⟨timeout, pending, same⟩
  calc peers.length ≤ (s.queuedRequestsTimeouts.map Timeout.peer).length :=
        (List.subperm_of_subset distinct covered).length_le
    _ = s.queuedRequestsTimeouts.length := List.length_map ..
    _ ≤ maxQueuedRequests := timers

/-- Only a request other than the one for this peer is left in the queue. -/
theorem queued_of_update {queue : PeerIdentifier → Option ResultSender}
    {removed peer : PeerIdentifier} (still : Function.update queue removed none peer ≠ none) :
    peer ≠ removed ∧ queue peer ≠ none := by
  by_cases same : peer = removed
  · subst same
    rw [Function.update_self] at still
    exact absurd rfl still
  · rw [Function.update_of_ne same] at still
    exact ⟨same, still⟩

/-- Of the timers only the one that is taken out is lost. -/
theorem mem_eraseIdx_of_peer_ne {timers : List Timeout} {index : Nat} {taken timeout : Timeout}
    (pending : timers[index]? = some taken) (member : timeout ∈ timers)
    (other : timeout.peer ≠ taken.peer) : timeout ∈ timers.eraseIdx index := by
  obtain ⟨place, found⟩ := List.mem_iff_getElem?.mp member
  have apart : place ≠ index := by
    rintro rfl
    rw [pending] at found
    cases found
    exact other rfl
  exact List.mem_eraseIdx_iff_getElem?.mpr ⟨place, apart, found⟩

/-- Only a timer that fails can leave a request without a timer. -/
theorem QueueBounded.effect {s next : Discovery cache} {event : QueueEvent}
    (bounded : s.QueueBounded) (effect : QueueEffect s next event)
    (noFailure : ∀ now index, event ≠ .timeout now (index, .error ())) : next.QueueBounded := by
  cases effect with
  | unchanged queue timers =>
      apply queueBounded_of_timed
      · rw [queue, timers]
        exact bounded.timed
      · rw [timers]
        exact bounded.timers
  | answered accepted waiting spawned queue timers =>
      apply queueBounded_of_timed
      · intro peer still
        rw [queue] at still
        rw [timers]
        exact bounded.timed peer (queued_of_update still).2
      · rw [timers]
        exact bounded.timers
  | fired pending queue timers =>
      apply queueBounded_of_timed
      · intro peer still
        rw [queue] at still
        obtain ⟨other, waiting⟩ := queued_of_update still
        obtain ⟨timeout, member, same⟩ := bounded.timed peer waiting
        subst same
        refine ⟨timeout, ?_, rfl⟩
        rw [timers]
        exact mem_eraseIdx_of_peer_ne pending member other
      · rw [timers]
        exact Nat.le_trans (List.length_eraseIdx_le ..) bounded.timers
  | failed pending queue timers => exact absurd rfl (noFailure _ _)
  | queued queues queue timers =>
      rename_i now sender peer
      obtain ⟨_, _, same, _, _, room⟩ := queues
      cases same
      apply queueBounded_of_timed
      · intro waiting still
        rw [timers]
        by_cases new : waiting = peer
        · exact ⟨_, List.mem_append_right _ List.mem_cons_self, new.symm⟩
        · rw [queue, Function.update_of_ne new] at still
          obtain ⟨timeout, member, same⟩ := bounded.timed waiting still
          exact ⟨timeout, List.mem_append_left _ member, same⟩
      · rw [timers, List.length_append, List.length_singleton]
        exact room

/-- If a timer fails, it is not the only one of a peer whose request is queued. -/
def SparesLastTimer (s : Discovery cache) : QueueEvent → Prop
  | .timeout _ (index, .error _) => ∀ timeout, s.queuedRequestsTimeouts[index]? = some timeout →
      s.queuedRequests timeout.peer ≠ none →
        ∃ other ∈ s.queuedRequestsTimeouts.eraseIdx index, other.peer = timeout.peer
  | _ => True

theorem queueBounded_failed_iff {s : Discovery cache} (bounded : s.QueueBounded) (now index : Nat) :
    (s.handleTimeout now (index, .error ())).QueueBounded ↔
      s.SparesLastTimer (.timeout now (index, .error ())) := by
  cases pending : s.queuedRequestsTimeouts[index]? with
  | none => simp [handleTimeout, SparesLastTimer, pending, bounded]
  | some taken =>
      have handled : s.handleTimeout now (index, .error ()) =
          { s with queuedRequestsTimeouts := s.queuedRequestsTimeouts.eraseIdx index } := by
        simp only [handleTimeout, pending]
      rw [handled]
      constructor
      · intro kept timeout found waiting
        exact kept.timed timeout.peer waiting
      · intro spared
        apply queueBounded_of_timed
        · intro peer waiting
          by_cases same : peer = taken.peer
          · subst same
            exact spared taken pending waiting
          · obtain ⟨timeout, member, rfl⟩ := bounded.timed peer waiting
            exact ⟨timeout, mem_eraseIdx_of_peer_ne pending member same, rfl⟩
        · exact Nat.le_trans (List.length_eraseIdx_le ..) bounded.timers

end Discovery

namespace Task

/-- A task that has ended holds no queue. -/
def QueueBounded : Task cache → Prop
  | .running s => s.QueueBounded
  | .failed => True
  | .panicked _ => True

def SparesLastTimer : Task cache → QueueEvent → Prop
  | .running s, event => s.SparesLastTimer event
  | .failed, _ => True
  | .panicked _, _ => True

theorem handle_queueBounded_of_ok {s : Discovery cache} (bounded : s.QueueBounded)
    {event : QueueEvent} (noFailure : ∀ now index, event ≠ .timeout now (index, .error ())) :
    (handle (.running s) event).QueueBounded := by
  unfold handle
  simp only
  split
  · rename_i next handled
    exact bounded.effect (Discovery.handle_effect handled) noFailure
  · trivial

theorem handle_queueBounded_iff {task : Task cache} (event : QueueEvent)
    (bounded : task.QueueBounded) :
    (task.handle event).QueueBounded ↔ task.SparesLastTimer event := by
  cases task with
  | failed => exact Iff.rfl
  | panicked message => exact Iff.rfl
  | running s =>
      cases event with
      | response now res =>
          exact iff_of_true (handle_queueBounded_of_ok bounded (by simp)) trivial
      | request now request =>
          exact iff_of_true (handle_queueBounded_of_ok bounded (by simp)) trivial
      | timeout now completion =>
          obtain ⟨index, result⟩ := completion
          cases result with
          | ok fired => exact iff_of_true (handle_queueBounded_of_ok bounded (by simp)) trivial
          | error reason => exact Discovery.queueBounded_failed_iff bounded now index

end Task

/-- The queue is bounded and has its timers throughout a run exactly when no timer fails while it
is the only one of a peer whose request is queued. -/
theorem queue_bounded_iff_spares_last_timer (cache : Cache) (serviceName : List Char)
    (owner : PeerIdentifier) (strategies : { given : Nat // 0 < given })
    (events : List QueueEvent) :
    Throughout Task.handle Task.QueueBounded
        (.running (Discovery.new cache serviceName owner strategies)) events ↔
      Meets Task.handle Task.SparesLastTimer
        (.running (Discovery.new cache serviceName owner strategies)) events := by
  apply Transition.throughout_iff_meets
  · intro task event bounded
    exact Task.handle_queueBounded_iff event bounded
  · apply Discovery.queueBounded_of_timed
    · intro peer waiting
      exact absurd rfl waiting
    · exact Nat.zero_le _

/-- The timer of a request for the peer `02` fails, and the request stays without one. -/
theorem failed_timer_strands_request :
    ¬ Throughout Task.handle Task.QueueBounded (.running lan)
      [.request 0 (0, .ofByte 2), .timeout 1 (0, .error ())] := by
  intro always
  have bounded : Task.QueueBounded (Transition.run Task.handle (.running lan)
      [.request 0 (0, .ofByte 2), .timeout 1 (0, .error ())]) := always _ (List.prefix_refl _)
  obtain ⟨timeout, member, _⟩ := Discovery.QueueBounded.timed bounded (.ofByte 2) (by decide)
  cases member

end HolePunch.Mdns
