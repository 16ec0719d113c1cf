import HolePunch.RequestQueue

set_option autoImplicit false

/- By which timer a queued mDNS request is dropped. A timer carries only the peer it was made for,
so the history tells the timers apart: each is numbered when it is pushed. -/
namespace HolePunch.Mdns

open Remote (ResultSender)
open Transition (Meets)

/-- A task and the numbers of its timers: of those pending, in their order, and of the one that was
pushed together with each queued request. -/
structure Traced (cache : Cache) where
  task : Task cache
  numbers : List Nat
  ownTimer : PeerIdentifier → Option Nat
  pushed : Nat

namespace Traced

variable {cache : Cache}

def new (s : Discovery cache) : Traced cache := ⟨.running s, [], fun _ => none, 0⟩

/-- What an event has done to the timers and the queue is read off the states around it. -/
def observe (s : Traced cache) (before after : Discovery cache) (event : QueueEvent) :
    Traced cache where
  task := .running after
  numbers :=
    if before.queuedRequestsTimeouts.length < after.queuedRequestsTimeouts.length then
      s.numbers ++ [s.pushed]
    else if after.queuedRequestsTimeouts.length < before.queuedRequestsTimeouts.length then
      match event with
      | .timeout _ completion => s.numbers.eraseIdx completion.1
      | _ => s.numbers
    else s.numbers
  ownTimer peer :=
    if after.queuedRequests peer = none then none
    else if before.queuedRequests peer = none then some s.pushed
    else s.ownTimer peer
  pushed :=
    if before.queuedRequestsTimeouts.length < after.queuedRequestsTimeouts.length then s.pushed + 1
    else s.pushed

def step (s : Traced cache) (event : QueueEvent) : Traced cache :=
  match s.task, s.task.handle event with
  | .running before, .running after => s.observe before after event
  | _, next => { s with task := next }

/-- A request that the event takes from the queue is answered with a result for its peer, or it is
its own timer that has fired. -/
def DropsOwn (s : Traced cache) (event : QueueEvent) : Prop :=
  ∀ before after : Discovery cache, s.task = .running before →
    s.task.handle event = .running after → ∀ peer sender,
    before.queuedRequests peer = some sender → after.queuedRequests peer = none →
      (∃ now res result select, event = .response now res ∧
        DiscoveryResult.tryFrom res before.serviceName = some result ∧ result.peer = peer ∧
        after.spawned = before.spawned ++ [(sender, select)]) ∨
      ∃ now index number, event = .timeout now (index, .ok ()) ∧
        s.numbers[index]? = some number ∧ s.ownTimer peer = some number

/-- A request is queued only when no timer for its peer is pending. -/
def QueuesFresh (s : Traced cache) (event : QueueEvent) : Prop :=
  ∀ now : Discovery cache, s.task = .running now → ∀ peer, event.Queues now peer →
    ∀ timeout ∈ now.queuedRequestsTimeouts, timeout.peer ≠ peer

/-- The pending timers are numbered, and those of a queued request are its own. -/
structure Inv (s : Traced cache) : Prop where
  aligned : ∀ now, s.task = .running now →
    s.numbers.length = now.queuedRequestsTimeouts.length
  fresh : ∀ number ∈ s.numbers, number < s.pushed
  own : ∀ now, s.task = .running now → ∀ (index : Nat) (timeout : Timeout) (number : Nat),
    now.queuedRequestsTimeouts[index]? = some timeout → s.numbers[index]? = some number →
      now.queuedRequests timeout.peer ≠ none → s.ownTimer timeout.peer = some number

theorem inv_new (s : Discovery cache) (noTimers : s.queuedRequestsTimeouts = []) :
    (new s).Inv := by
  refine ⟨?_, ?_, ?_⟩
  · rintro now running
    cases running
    rw [noTimers]
    rfl
  · intro number member
    cases member
  · intro now running index timeout number pending
    cases running
    rw [noTimers] at pending
    cases pending

/-- A timer that fires for a queued request of its peer is the request's own. -/
theorem Inv.own_of_fired {s : Traced cache} (inv : s.Inv) {now : Discovery cache}
    (running : s.task = .running now) {index : Nat} {timeout : Timeout}
    (pending : now.queuedRequestsTimeouts[index]? = some timeout)
    (queued : now.queuedRequests timeout.peer ≠ none) :
    ∃ number, s.numbers[index]? = some number ∧ s.ownTimer timeout.peer = some number := by
  have within : index < s.numbers.length := by
    rw [inv.aligned now running]
    exact (List.getElem?_eq_some_iff.mp pending).1
  refine ⟨s.numbers[index], List.getElem?_eq_getElem within, ?_⟩
  exact inv.own now running index timeout _ pending (List.getElem?_eq_getElem within) queued

theorem Inv.dropsOwn {s : Traced cache} (inv : s.Inv) (event : QueueEvent) : s.DropsOwn event := by
  intro before after running handled peer sender queued gone
  rw [running] at handled
  simp only [Task.handle] at handled
  cases result : before.handle event with
  | error message =>
      rw [result] at handled
      cases handled
  | ok next =>
      rw [result] at handled
      cases handled
      cases Discovery.handle_effect result with
      | unchanged queue timers =>
          rw [queue, queued] at gone
          cases gone
      | answered accepted waiting spawned queue timers =>
          rename_i now res r answeredSender
          left
          by_cases same : peer = r.peer
          · subst same
            rw [waiting] at queued
            cases queued
            obtain ⟨select, spawned⟩ := spawned
            exact ⟨now, res, r, select, rfl, accepted, rfl, spawned⟩
          · rw [queue, Function.update_of_ne same, queued] at gone
            cases gone
      | fired pending queue timers =>
          rename_i now index timeout
          right
          by_cases same : peer = timeout.peer
          · subst same
            obtain ⟨number, numbered, own⟩ :=
              inv.own_of_fired running pending (by rw [queued]; exact Option.some_ne_none _)
            exact ⟨now, index, number, rfl, numbered, own⟩
          · rw [queue, Function.update_of_ne same, queued] at gone
            cases gone
      | failed pending queue timers =>
          rw [queue, queued] at gone
          cases gone
      | queued queues queue timers =>
          rename_i now newSender newPeer
          by_cases same : peer = newPeer
          · subst same
            rw [queue, Function.update_self] at gone
            cases gone
          · rw [queue, Function.update_of_ne same, queued] at gone
            cases gone

theorem step_of_ok {s : Traced cache} {before after : Discovery cache} {event : QueueEvent}
    (running : s.task = .running before) (handled : before.handle event = .ok after) :
    s.step event = s.observe before after event := by
  have next : s.task.handle event = .running after := by
    rw [running]
    simp only [Task.handle, handled]
  unfold step
  rw [next, running]

/-- A timer that is pushed takes the next number. -/
theorem observe_of_pushed {s : Traced cache} {before after : Discovery cache} (event : QueueEvent)
    {timeout : Timeout}
    (timers : after.queuedRequestsTimeouts = before.queuedRequestsTimeouts ++ [timeout]) :
    (s.observe before after event).numbers = s.numbers ++ [s.pushed] ∧
      (s.observe before after event).pushed = s.pushed + 1 := by
  have longer : before.queuedRequestsTimeouts.length < after.queuedRequestsTimeouts.length := by
    rw [timers, List.length_append, List.length_singleton]
    omega
  simp only [observe, longer, ↓reduceIte, and_self]

/-- The timers of a task whose queue and timers are left as they are. -/
theorem observe_inv_of_timers {s : Traced cache} (inv : s.Inv) {before after : Discovery cache}
    (running : s.task = .running before) (event : QueueEvent)
    (kept : ∀ peer, after.queuedRequests peer ≠ none → before.queuedRequests peer ≠ none)
    (timers : after.queuedRequestsTimeouts = before.queuedRequestsTimeouts) :
    (s.observe before after event).Inv := by
  have numbers : (s.observe before after event).numbers = s.numbers := by
    simp only [observe, timers, Nat.lt_irrefl, ↓reduceIte]
  have pushed : (s.observe before after event).pushed = s.pushed := by
    simp only [observe, timers, Nat.lt_irrefl, ↓reduceIte]
  refine ⟨?_, ?_, ?_⟩
  · intro now same
    cases same
    rw [numbers, timers]
    exact inv.aligned before running
  · rw [numbers, pushed]
    exact inv.fresh
  · intro now same index timeout number pending numbered queued
    cases same
    rw [numbers] at numbered
    rw [timers] at pending
    simp only [observe, queued, kept _ queued, ↓reduceIte]
    exact inv.own before running index timeout number pending numbered (kept _ queued)

/-- A timer that is taken out takes its number with it. -/
theorem observe_inv_of_erased {s : Traced cache} (inv : s.Inv) {before after : Discovery cache}
    (running : s.task = .running before) {now index : Nat} {result : Except Unit Unit}
    {taken : Timeout} (found : before.queuedRequestsTimeouts[index]? = some taken)
    (kept : ∀ peer, after.queuedRequests peer ≠ none → before.queuedRequests peer ≠ none)
    (timers : after.queuedRequestsTimeouts = before.queuedRequestsTimeouts.eraseIdx index) :
    (s.observe before after (.timeout now (index, result))).Inv := by
  have within : index < before.queuedRequestsTimeouts.length :=
    (List.getElem?_eq_some_iff.mp found).1
  have shorter : after.queuedRequestsTimeouts.length < before.queuedRequestsTimeouts.length := by
    rw [timers, List.length_eraseIdx_of_lt within]
    omega
  have numbers : (s.observe before after (.timeout now (index, result))).numbers =
      s.numbers.eraseIdx index := by
    simp only [observe, Nat.lt_asymm shorter, shorter, ↓reduceIte]
  have pushed : (s.observe before after (.timeout now (index, result))).pushed = s.pushed := by
    simp only [observe, Nat.lt_asymm shorter, ↓reduceIte]
  refine ⟨?_, ?_, ?_⟩
  · intro last same
    cases same
    rw [numbers, timers, List.length_eraseIdx, List.length_eraseIdx, inv.aligned before running]
  · rw [numbers, pushed]
    intro number member
    exact inv.fresh number (List.mem_of_mem_eraseIdx member)
  · intro last same place timeout number pending numbered queued
    cases same
    rw [numbers, List.getElem?_eraseIdx] at numbered
    rw [timers, List.getElem?_eraseIdx] at pending
    simp only [observe, queued, kept _ queued, ↓reduceIte]
    split at numbered
    · rename_i earlier
      rw [if_pos earlier] at pending
      exact inv.own before running place timeout number pending numbered (kept _ queued)
    · rename_i later
      rw [if_neg later] at pending
      exact inv.own before running (place + 1) timeout number pending numbered (kept _ queued)

/-- A request that is queued when no timer for its peer is pending. -/
theorem observe_inv_of_queued {s : Traced cache} (inv : s.Inv) {before after : Discovery cache}
    (running : s.task = .running before) {event : QueueEvent} {sender : ResultSender}
    {peer : PeerIdentifier} {deadline : Nat} (vacant : before.queuedRequests peer = none)
    (none : ∀ timeout ∈ before.queuedRequestsTimeouts, timeout.peer ≠ peer)
    (queue : after.queuedRequests = Function.update before.queuedRequests peer (some sender))
    (timers : after.queuedRequestsTimeouts =
      before.queuedRequestsTimeouts ++ [⟨deadline, peer⟩]) :
    (s.observe before after event).Inv := by
  obtain ⟨numbers, pushed⟩ := observe_of_pushed event timers
  refine ⟨?_, ?_, ?_⟩
  · intro last same
    cases same
    rw [numbers, timers, List.length_append, List.length_append, inv.aligned before running]
    rfl
  · rw [numbers, pushed]
    intro number member
    rcases List.mem_append.mp member with old | new
    · have earlier := inv.fresh number old
      omega
    · rw [List.mem_singleton.mp new]
      omega
  · intro last same place timeout number pending numbered queued
    cases same
    rw [numbers] at numbered
    rw [timers] at pending
    by_cases old : place < before.queuedRequestsTimeouts.length
    · rw [List.getElem?_append_left old] at pending
      rw [List.getElem?_append_left (by rw [inv.aligned before running]; exact old)] at numbered
      have other : timeout.peer ≠ peer := none timeout (List.mem_of_getElem? pending)
      have waiting : before.queuedRequests timeout.peer ≠ .none := by
        rw [queue, Function.update_of_ne other] at queued
        exact queued
      simp only [observe, queued, waiting, ↓reduceIte]
      exact inv.own before running place timeout number pending numbered waiting
    · rw [List.getElem?_append_right (Nat.le_of_not_lt old)] at pending
      rw [List.getElem?_append_right (by rw [inv.aligned before running]; omega),
        inv.aligned before running] at numbered
      obtain ⟨last, rfl⟩ := List.mem_singleton.mp (List.mem_of_getElem? pending)
      have new : number = s.pushed := List.mem_singleton.mp (List.mem_of_getElem? numbered)
      simp only [observe, queued, vacant, new, ↓reduceIte]

theorem Inv.observe {s : Traced cache} (inv : s.Inv) {before after : Discovery cache}
    (running : s.task = .running before) {event : QueueEvent}
    (effect : QueueEffect before after event) (fresh : s.QueuesFresh event) :
    (s.observe before after event).Inv := by
  cases effect with
  | unchanged queue timers =>
      exact observe_inv_of_timers inv running _ (fun peer queued => by rwa [← queue]) timers
  | answered accepted waiting spawned queue timers =>
      refine observe_inv_of_timers inv running _ (fun peer queued => ?_) timers
      rw [queue] at queued
      exact (Discovery.queued_of_update queued).2
  | fired pending queue timers =>
      refine observe_inv_of_erased inv running pending (fun peer queued => ?_) timers
      rw [queue] at queued
      exact (Discovery.queued_of_update queued).2
  | failed pending queue timers =>
      exact observe_inv_of_erased inv running pending (fun peer queued => by rwa [← queue]) timers
  | queued queues queue timers =>
      have none := fresh before running _ queues
      obtain ⟨_, _, _, _, vacant, _⟩ := queues
      exact observe_inv_of_queued inv running vacant none queue timers

/-- A task that has ended has no timers. -/
theorem Inv.ended {s : Traced cache} (inv : s.Inv) {next : Task cache}
    (ended : ∀ now, next ≠ .running now) : Inv { s with task := next } :=
  ⟨fun now running => absurd running (ended now), inv.fresh,
    fun now running => absurd running (ended now)⟩

theorem Inv.step {s : Traced cache} (inv : s.Inv) {event : QueueEvent}
    (fresh : s.QueuesFresh event) : (s.step event).Inv := by
  cases running : s.task with
  | running before =>
      cases handled : before.handle event with
      | ok after =>
          rw [step_of_ok running handled]
          exact inv.observe running (Discovery.handle_effect handled) fresh
      | error message =>
          have panics : s.step event = { s with task := .panicked message } := by
            simp only [Traced.step, Task.handle, running, handled]
          rw [panics]
          exact inv.ended (fun now impossible => by cases impossible)
  | failed =>
      have same : s.step event = { s with task := .failed } := by
        simp only [Traced.step, Task.handle, running]
      rw [same]
      exact inv.ended (fun now impossible => by cases impossible)
  | panicked message =>
      have same : s.step event = { s with task := .panicked message } := by
        simp only [Traced.step, Task.handle, running]
      rw [same]
      exact inv.ended (fun now impossible => by cases impossible)

/-- When a request is queued while an earlier timer for its peer is pending, that timer drops it
once it fires. -/
theorem not_dropsOwn_of_stale {s : Traced cache} (inv : s.Inv) {before : Discovery cache}
    (running : s.task = .running before) {event : QueueEvent} {peer : PeerIdentifier}
    (queues : event.Queues before peer) {index : Nat} {timeout : Timeout}
    (pending : before.queuedRequestsTimeouts[index]? = some timeout)
    (stale : timeout.peer = peer) :
    ¬ (s.step event).DropsOwn (.timeout timeout.deadline (index, .ok ())) := by
  intro drops
  obtain ⟨now, sender, rfl, missing, vacant, room⟩ := queues
  obtain ⟨knownPeers, handled⟩ :=
    Discovery.handleRequest_of_queues ⟨now, sender, rfl, missing, vacant, room⟩
  have within : index < before.queuedRequestsTimeouts.length :=
    (List.getElem?_eq_some_iff.mp pending).1
  generalize queuedState : Discovery.mk before.serviceName before.localPeerIdentifier knownPeers
    before.strategies _ _ before.spawned = after at handled
  have stepped : s.step (.request now (sender, peer)) =
      s.observe before after (.request now (sender, peer)) := step_of_ok running handled
  have timers : after.queuedRequestsTimeouts =
      before.queuedRequestsTimeouts ++ [⟨now + queuedRequestTimeout, peer⟩] := by
    rw [← queuedState]
  have queue : after.queuedRequests peer = some sender := by
    rw [← queuedState]
    exact Function.update_self ..
  have still : after.queuedRequestsTimeouts[index]? = some timeout := by
    rw [timers, List.getElem?_append_left within]
    exact pending
  have fires : after.handleTimeout timeout.deadline (index, .ok ()) = { after with
      queuedRequests := Function.update after.queuedRequests timeout.peer none
      queuedRequestsTimeouts := after.queuedRequestsTimeouts.eraseIdx index } := by
    simp only [Discovery.handleTimeout, still, Nat.le_refl, ↓reduceIte]
  have numbers : (s.observe before after (.request now (sender, peer))).numbers =
      s.numbers ++ [s.pushed] := (observe_of_pushed _ timers).1
  have own : (s.observe before after (.request now (sender, peer))).ownTimer peer =
      some s.pushed := by
    simp only [observe, queue, vacant, ↓reduceIte, reduceCtorEq]
  rw [stepped] at drops
  have dropped := drops after _ rfl rfl peer sender queue (by
    rw [fires, stale]
    exact Function.update_self ..)
  rcases dropped with ⟨_, _, _, _, impossible, _⟩ | ⟨_, _, number, same, numbered, owned⟩
  · cases impossible
  · cases same
    rw [numbers, List.getElem?_append_left (by rw [inv.aligned before running]; exact within)]
      at numbered
    rw [own] at owned
    cases owned
    exact Nat.lt_irrefl _ (inv.fresh _ (List.mem_of_getElem? numbered))

/-- The events of timers alone. -/
def completions (timers : List (Nat × Nat × Except Unit Unit)) : List QueueEvent :=
  timers.map (fun timer => .timeout timer.1 timer.2)

theorem queuesFresh_timeout (s : Traced cache) (now : Nat) (completion : Nat × Except Unit Unit) :
    s.QueuesFresh (.timeout now completion) := by
  rintro _ _ peer ⟨_, _, impossible, _⟩
  cases impossible

theorem meets_completions (s : Traced cache) (timers : List (Nat × Nat × Except Unit Unit)) :
    Meets step QueuesFresh s (completions timers) := by
  apply Transition.meets_of_forall
  intro t event member
  obtain ⟨timer, _, rfl⟩ := List.mem_map.mp member
  exact t.queuesFresh_timeout timer.1 timer.2

theorem Inv.meets_dropsOwn {s : Traced cache} (inv : s.Inv) {events : List QueueEvent}
    (fresh : Meets Traced.step QueuesFresh s events) : Meets Traced.step DropsOwn s events := by
  have kept : ∀ (t : Traced cache) event, t.Inv → t.QueuesFresh event →
      t.DropsOwn event ∧ (t.step event).Inv :=
    fun t event known queued => ⟨known.dropsOwn event, known.step queued⟩
  exact Transition.meets_of_meets kept inv fresh

/-- From any state of the invariant, no timer that completes at any point of a run drops a request
that is not its own exactly when requests are queued only for peers without a pending timer. -/
theorem Inv.meets_iff {s : Traced cache} (inv : s.Inv) (events : List QueueEvent) :
    (∀ before, before <+: events →
        ∀ timers, Meets Traced.step DropsOwn s (before ++ completions timers)) ↔
      Meets Traced.step QueuesFresh s events := by
  constructor
  · intro safe
    induction events generalizing s with
    | nil => trivial
    | cons event rest ih =>
        have fresh : s.QueuesFresh event := by
          intro before running peer queues timeout member stale
          obtain ⟨index, pending⟩ := List.mem_iff_getElem?.mp member
          have next := safe [event] (List.prefix_append [event] rest)
            [(timeout.deadline, index, .ok ())]
          exact not_dropsOwn_of_stale inv running queues pending stale next.2.1
        refine ⟨fresh, ih (inv.step fresh) ?_⟩
        intro before isPrefix timers
        exact (safe (event :: before) (List.cons_prefix_cons.mpr ⟨rfl, isPrefix⟩) timers).2
  · rintro fresh before ⟨rest, rfl⟩ timers
    apply inv.meets_dropsOwn
    rw [Transition.meets_append] at fresh ⊢
    exact ⟨fresh.1, meets_completions _ timers⟩

end Traced

/-- A queued request is dropped only by an answer for its peer or by its own timer, at every point
of a run and whatever timers complete next, exactly when requests are queued only for peers without
a pending timer. -/
theorem dropped_by_own_timer_iff_queued_fresh (cache : Cache) (serviceName : List Char)
    (owner : PeerIdentifier) (strategies : { given : Nat // 0 < given })
    (events : List QueueEvent) :
    (∀ before, before <+: events → ∀ timers, Meets Traced.step Traced.DropsOwn
        (Traced.new (Discovery.new cache serviceName owner strategies))
        (before ++ Traced.completions timers)) ↔
      Meets Traced.step Traced.QueuesFresh
        (Traced.new (Discovery.new cache serviceName owner strategies)) events :=
  (Traced.inv_new (Discovery.new cache serviceName owner strategies) rfl).meets_iff events

/-- A peer of the service `hp`, with its port and address. -/
def announced (byte : UInt8) : Response :=
  [(MdnsResponderContext.create (serviceType "hp".toList) (.ofByte byte) 22222).pointer,
    ⟨"_hp.local".toList, .srv 22222⟩, ⟨"_hp.local".toList, .a 1⟩]

/-- The peer `02` is requested and found, twenty others found after it take its place in the cache,
and it is requested again. -/
def evictedRequest : List QueueEvent :=
  [.request 0 (0, .ofByte 2), .response 1 (announced 2)] ++
    (List.range 20).map (fun i => .response 2 (announced (UInt8.ofNat (i + 3)))) ++
    [.request 3 (1, .ofByte 2)]

/-- The timer of the first request for the peer `02` fires after its ten seconds and drops the
second request, which has waited for seven. -/
theorem stale_timer_drops_new_request :
    ¬ Meets Traced.step Traced.DropsOwn (Traced.new lan)
      (evictedRequest ++ [.timeout 10 (0, .ok ())]) := by
  rw [Transition.meets_append]
  rintro ⟨_, drops, _⟩
  have stale : (match (Transition.run Traced.step (Traced.new lan) evictedRequest).task with
      | .running before => (before.queuedRequests (.ofByte 2) = some 1 : Bool) &&
          ((before.handleTimeout 10 (0, .ok ())).queuedRequests (.ofByte 2) = none : Bool)
      | _ => false) = true := by
    decide +kernel
  have numbers : (Transition.run Traced.step (Traced.new lan) evictedRequest).numbers[0]? ≠
      (Transition.run Traced.step (Traced.new lan) evictedRequest).ownTimer (.ofByte 2) := by
    decide +kernel
  generalize Transition.run Traced.step (Traced.new lan) evictedRequest = traced at *
  cases running : traced.task with
  | running before =>
      rw [running] at stale
      simp only [Bool.and_eq_true, decide_eq_true_eq] at stale
      have fires : traced.task.handle (.timeout 10 (0, .ok ())) =
          .running (before.handleTimeout 10 (0, .ok ())) := by
        rw [running]
        rfl
      rcases drops before _ running fires (.ofByte 2) 1 stale.1 stale.2 with
        ⟨_, _, _, _, impossible, _⟩ | ⟨_, _, number, same, numbered, owned⟩
      · cases impossible
      · cases same
        exact numbers (numbered.trans owned.symm)
  | failed =>
      rw [running] at stale
      cases stale
  | panicked message =>
      rw [running] at stale
      cases stale

end HolePunch.Mdns
