import HolePunch.QueuedTimers
import Mathlib.Data.List.Induction

set_option autoImplicit false

/- Where the answers of the mDNS discovery task come from: which addresses are dialled for a
request, and that no request is answered twice (`registries/mdns.rs`). -/
namespace HolePunch.Mdns

open Remote (ResultSender)

variable {cache : Cache}

namespace Discovery

/-- The connections that `fulfill_request` makes: one to each address, with all strategies. -/
def attempts (s : Discovery cache) (r : DiscoveryResult) : List ConnectWithStrategies :=
  r.addrs.map (fun addr =>
    ⟨s.strategies.val - 1, addr, .user s.localPeerIdentifier, some .initConnect, false⟩)

/-- What no event changes. -/
structure SameTask (s next : Discovery cache) : Prop where
  serviceName : next.serviceName = s.serviceName
  localPeerIdentifier : next.localPeerIdentifier = s.localPeerIdentifier
  strategies : next.strategies = s.strategies

theorem SameTask.refl (s : Discovery cache) : SameTask s s := ⟨rfl, rfl, rfl⟩

theorem SameTask.trans {s next last : Discovery cache} (first : SameTask s next)
    (second : SameTask next last) : SameTask s last :=
  ⟨second.serviceName.trans first.serviceName,
    second.localPeerIdentifier.trans first.localPeerIdentifier,
    second.strategies.trans first.strategies⟩

theorem SameTask.attempts {s next : Discovery cache} (same : SameTask s next)
    (r : DiscoveryResult) : next.attempts r = s.attempts r := by
  simp only [Discovery.attempts, same.localPeerIdentifier, same.strategies]

theorem fulfillRequest_eq_ok {s next : Discovery cache} {sender : ResultSender}
    {r : DiscoveryResult} (fulfilled : s.fulfillRequest sender r = .ok next) :
    next = { s with spawned := s.spawned ++ [(sender, s.attempts r)] } := by
  by_cases located : r.addrs = []
  · obtain ⟨message, panic⟩ := s.fulfillRequest_panic sender located
    rw [panic] at fulfilled
    cases fulfilled
  · rw [fulfillRequest_eq, Futures.selectOk_of_ne_nil (mt List.map_eq_nil_iff.mp located)]
      at fulfilled
    cases fulfilled
    rfl

/-- The response brings this result of another peer. -/
def Brings (s : Discovery cache) (res : Response) (r : DiscoveryResult) : Prop :=
  DiscoveryResult.tryFrom res s.serviceName = some r ∧ r.peer ≠ s.localPeerIdentifier

/-- All that an event does to the requests. -/
inductive Serves (s next : Discovery cache) : QueueEvent → Prop
  | nothing {event : QueueEvent} (spawned : next.spawned = s.spawned)
      (queue : ∀ peer sender, next.queuedRequests peer = some sender →
        s.queuedRequests peer = some sender) : Serves s next event
  | queues {now : Nat} {sender : ResultSender} {peer : PeerIdentifier}
      (spawned : next.spawned = s.spawned)
      (queue : next.queuedRequests = Function.update s.queuedRequests peer (some sender)) :
      Serves s next (.request now (sender, peer))
  | finds {now : Nat} {res : Response} {r : DiscoveryResult} {sender : ResultSender}
      (brings : s.Brings res r) (waiting : s.queuedRequests r.peer = some sender)
      (spawned : next.spawned = s.spawned ++ [(sender, s.attempts r)])
      (queue : next.queuedRequests = Function.update s.queuedRequests r.peer none) :
      Serves s next (.response now res)
  | knows {now : Nat} {sender : ResultSender} {peer : PeerIdentifier} {r : DiscoveryResult}
      (stored : cache.stored s.knownPeers peer.padded r)
      (spawned : next.spawned = s.spawned ++ [(sender, s.attempts r)])
      (queue : next.queuedRequests = s.queuedRequests) : Serves s next (.request now (sender, peer))

/-- All that an event adds to the known peers. -/
def Learns (s next : Discovery cache) (event : QueueEvent) : Prop :=
  ∀ key r, cache.stored next.knownPeers key r →
    cache.stored s.knownPeers key r ∨
      ∃ now res, event = .response now res ∧ s.Brings res r ∧ key = r.peer.padded

theorem handleResponse_serves {s next : Discovery cache} {now : Nat} {res : Response}
    (handled : s.handleResponse now res = .ok next) :
    Serves s next (.response now res) ∧ Learns s next (.response now res) ∧ SameTask s next := by
  unfold handleResponse at handled
  split at handled
  · cases handled
    exact ⟨.nothing rfl (fun _ _ same => same), fun _ _ stored => Or.inl stored, .refl s⟩
  · rename_i r accepted
    split at handled
    · cases handled
      exact ⟨.nothing rfl (fun _ _ same => same), fun _ _ stored => Or.inl stored, .refl s⟩
    · rename_i other
      have brings : s.Brings res r := ⟨accepted, other⟩
      have learns : Learns s
          { s with knownPeers := cache.insert now r.peer.padded r s.knownPeers }
          (.response now res) := by
        intro key found stored
        rcases cache.stored_insert stored with ⟨rfl, rfl⟩ | before
        · exact Or.inr ⟨now, res, rfl, brings, rfl⟩
        · exact Or.inl before
      unfold answerQueued at handled
      split at handled
      · rename_i request waiting
        cases fulfilled : fulfillRequest
            { s with queuedRequests := Function.update s.queuedRequests r.peer none } request r with
        | error message =>
            rw [fulfilled] at handled
            cases handled
        | ok answered =>
            rw [fulfilled] at handled
            cases handled
            cases fulfillRequest_eq_ok fulfilled
            exact ⟨.finds brings waiting rfl rfl, learns, ⟨rfl, rfl, rfl⟩⟩
      · cases handled
        exact ⟨.nothing rfl (fun _ _ same => same), learns, ⟨rfl, rfl, rfl⟩⟩

theorem handleTimeout_serves (s : Discovery cache) (now : Nat)
    (completion : Nat × Except Unit Unit) :
    Serves s (s.handleTimeout now completion) (.timeout now completion) ∧
      Learns s (s.handleTimeout now completion) (.timeout now completion) ∧
      SameTask s (s.handleTimeout now completion) := by
  have unchanged : Serves s s (.timeout now completion) ∧
      Learns s s (.timeout now completion) ∧ SameTask s s :=
    ⟨.nothing rfl (fun _ _ same => same), fun _ _ stored => Or.inl stored, .refl s⟩
  unfold handleTimeout
  split
  · exact unchanged
  · rename_i timeout _ _ _
    split
    · refine ⟨.nothing rfl ?_, fun _ _ stored => Or.inl stored, ⟨rfl, rfl, rfl⟩⟩
      intro peer sender waiting
      simp only [Function.update_apply] at waiting
      split at waiting
      · cases waiting
      · exact waiting
    · exact unchanged
  · exact ⟨.nothing rfl (fun _ _ same => same), fun _ _ stored => Or.inl stored, ⟨rfl, rfl, rfl⟩⟩

theorem handleRequest_serves {s next : Discovery cache} {now : Nat}
    {request : ResultSender × PeerIdentifier} (handled : s.handleRequest now request = .ok next) :
    Serves s next (.request now request) ∧ Learns s next (.request now request) ∧
      SameTask s next := by
  obtain ⟨sender, peer⟩ := request
  have learns : Learns s { s with knownPeers := (cache.get now peer.padded s.knownPeers).2 }
      (.request now (sender, peer)) := fun _ _ stored => Or.inl (cache.stored_get stored)
  unfold handleRequest at handled
  split at handled
  · rename_i r knownPeers found
    rw [found] at learns
    have stored : cache.stored s.knownPeers peer.padded r :=
      cache.get_stored (congrArg Prod.fst found)
    cases fulfillRequest_eq_ok handled
    exact ⟨.knows stored rfl rfl, learns, ⟨rfl, rfl, rfl⟩⟩
  · rename_i knownPeers missing
    rw [missing] at learns
    simp only at handled
    split at handled
    · cases handled
      exact ⟨.nothing rfl (fun _ _ same => same), learns, ⟨rfl, rfl, rfl⟩⟩
    · split at handled
      · cases handled
        exact ⟨.nothing rfl (fun _ _ same => same), learns, ⟨rfl, rfl, rfl⟩⟩
      · cases handled
        exact ⟨.queues rfl rfl, learns, ⟨rfl, rfl, rfl⟩⟩

theorem handle_serves {s next : Discovery cache} {event : QueueEvent}
    (handled : s.handle event = .ok next) :
    Serves s next event ∧ Learns s next event ∧ SameTask s next := by
  cases event with
  | response now res => exact handleResponse_serves handled
  | timeout now completion =>
      cases handled
      exact s.handleTimeout_serves now completion
  | request now request => exact handleRequest_serves handled

end Discovery

/-- The sender that comes with an event. -/
def QueueEvent.sender : QueueEvent → Option ResultSender
  | .request _ made => some made.1
  | _ => none

/-- A response has announced this result of another peer under the service. -/
def Announced (serviceName : List Char) (owner : PeerIdentifier) (events : List QueueEvent)
    (r : DiscoveryResult) : Prop :=
  ∃ now res, .response now res ∈ events ∧ DiscoveryResult.tryFrom res serviceName = some r ∧
    r.peer ≠ owner

/-- The request of this sender is being answered for the peer it asked for: every address that was
announced with the key of the peer is dialled, and no other. -/
def AnsweredFor (s : Discovery cache) (events : List QueueEvent) (sender : ResultSender)
    (select : List ConnectWithStrategies) : Prop :=
  ∃ now peer r, .request now (sender, peer) ∈ events ∧
    Announced s.serviceName s.localPeerIdentifier events r ∧ r.peer.padded = peer.padded ∧
    select = s.attempts r

/-- The requests of a run and where they are. -/
structure Accounted (events : List QueueEvent) (s : Discovery cache) : Prop where
  known : ∀ key r, cache.stored s.knownPeers key r →
    Announced s.serviceName s.localPeerIdentifier events r ∧ key = r.peer.padded
  waiting : ∀ peer sender, s.queuedRequests peer = some sender →
    ∃ now, .request now (sender, peer) ∈ events
  answered : ∀ entry ∈ s.spawned, AnsweredFor s events entry.1 entry.2
  once : (s.spawned.map Prod.fst).Nodup
  apart : ∀ peer sender, s.queuedRequests peer = some sender → sender ∉ s.spawned.map Prod.fst
  single : ∀ peer other sender, s.queuedRequests peer = some sender →
    s.queuedRequests other = some sender → peer = other

namespace Accounted

variable {events : List QueueEvent} {s next : Discovery cache} {event : QueueEvent}

theorem of_new (serviceName : List Char) (owner : PeerIdentifier)
    (strategies : { given : Nat // 0 < given }) :
    Accounted [] (Discovery.new cache serviceName owner strategies) where
  known key r stored := absurd stored (cache.stored_empty key r)
  waiting _ _ none := by cases none
  answered _ member := by cases member
  once := List.nodup_nil
  apart _ _ none := by cases none
  single _ _ _ none := by cases none

theorem sender_mem_of_spawned (accounted : Accounted events s) {sender : ResultSender}
    (member : sender ∈ s.spawned.map Prod.fst) : sender ∈ events.filterMap QueueEvent.sender := by
  obtain ⟨entry, inside, rfl⟩ := List.mem_map.mp member
  obtain ⟨now, peer, _, asked, _⟩ := accounted.answered entry inside
  exact List.mem_filterMap.mpr ⟨_, asked, rfl⟩

theorem sender_mem_of_waiting (accounted : Accounted events s) {peer : PeerIdentifier}
    {sender : ResultSender} (waits : s.queuedRequests peer = some sender) :
    sender ∈ events.filterMap QueueEvent.sender := by
  obtain ⟨now, asked⟩ := accounted.waiting peer sender waits
  exact List.mem_filterMap.mpr ⟨_, asked, rfl⟩

end Accounted

theorem Announced.mono {serviceName : List Char} {owner : PeerIdentifier}
    {events more : List QueueEvent} {r : DiscoveryResult}
    (announced : Announced serviceName owner events r) :
    Announced serviceName owner (events ++ more) r := by
  obtain ⟨now, res, member, found⟩ := announced
  exact ⟨now, res, List.mem_append_left more member, found⟩

theorem AnsweredFor.mono {events more : List QueueEvent} {s next : Discovery cache}
    {sender : ResultSender} {select : List ConnectWithStrategies}
    (answered : AnsweredFor s events sender select) (same : Discovery.SameTask s next) :
    AnsweredFor next (events ++ more) sender select := by
  obtain ⟨now, peer, r, asked, announced, key, rfl⟩ := answered
  refine ⟨now, peer, r, List.mem_append_left more asked, ?_, key, (same.attempts r).symm⟩
  rw [same.serviceName, same.localPeerIdentifier]
  exact announced.mono

namespace Accounted

variable {events : List QueueEvent} {s next : Discovery cache} {event : QueueEvent}

theorem known_after (accounted : Accounted events s) (learns : s.Learns next event)
    (same : Discovery.SameTask s next) (key : List UInt8) (r : DiscoveryResult)
    (stored : cache.stored next.knownPeers key r) :
    Announced next.serviceName next.localPeerIdentifier (events ++ [event]) r ∧
      key = r.peer.padded := by
  rw [same.serviceName, same.localPeerIdentifier]
  rcases learns key r stored with before | ⟨now, res, rfl, found, rfl⟩
  · obtain ⟨announced, sameKey⟩ := accounted.known key r before
    exact ⟨announced.mono, sameKey⟩
  · exact ⟨⟨now, res, List.mem_append_right events (List.mem_singleton.mpr rfl), found⟩, rfl⟩

theorem waiting_before (accounted : Accounted events s) {peer : PeerIdentifier}
    {sender : ResultSender} (waits : s.queuedRequests peer = some sender) :
    ∃ now, .request now (sender, peer) ∈ events ++ [event] := by
  obtain ⟨now, asked⟩ := accounted.waiting peer sender waits
  exact ⟨now, List.mem_append_left [event] asked⟩

theorem answered_before (accounted : Accounted events s) (same : Discovery.SameTask s next) :
    ∀ entry ∈ s.spawned, AnsweredFor next (events ++ [event]) entry.1 entry.2 :=
  fun entry member => (accounted.answered entry member).mono same

/-- Another request is being answered. -/
theorem spawn (accounted : Accounted events s) (learns : s.Learns next event)
    (same : Discovery.SameTask s next) {sender : ResultSender}
    {select : List ConnectWithStrategies}
    (spawned : next.spawned = s.spawned ++ [(sender, select)])
    (answered : AnsweredFor next (events ++ [event]) sender select)
    (fresh : sender ∉ s.spawned.map Prod.fst)
    (queue : ∀ peer other, next.queuedRequests peer = some other →
      s.queuedRequests peer = some other ∧ other ≠ sender) :
    Accounted (events ++ [event]) next where
  known := accounted.known_after learns same
  waiting peer other waits := accounted.waiting_before (queue peer other waits).1
  answered entry member := by
    rw [spawned] at member
    rcases List.mem_append.mp member with before | now
    · exact accounted.answered_before same entry before
    · rw [List.mem_singleton.mp now]
      exact answered
  once := by
    rw [spawned, List.map_append, List.map_singleton, List.nodup_append]
    refine ⟨accounted.once, List.pairwise_singleton _ sender, ?_⟩
    intro other before single now equal
    rw [equal, List.mem_singleton.mp now] at before
    exact fresh before
  apart peer other waits := by
    obtain ⟨before, different⟩ := queue peer other waits
    rw [spawned, List.map_append, List.map_singleton, List.mem_append, not_or]
    exact ⟨accounted.apart peer other before, fun now => different (List.mem_singleton.mp now)⟩
  single peer other sender waits also :=
    accounted.single peer other sender (queue peer sender waits).1 (queue other sender also).1

/-- One event leaves every request where it was, or moves it on. -/
theorem handle (accounted : Accounted events s)
    (fresh : ∀ sender, event.sender = some sender →
      sender ∉ events.filterMap QueueEvent.sender)
    (handled : s.handle event = .ok next) : Accounted (events ++ [event]) next := by
  obtain ⟨serves, learns, same⟩ := Discovery.handle_serves handled
  cases serves with
  | nothing spawned queue =>
      refine ⟨accounted.known_after learns same, ?_, ?_, ?_, ?_, ?_⟩
      · exact fun peer sender waits => accounted.waiting_before (queue peer sender waits)
      · rw [spawned]
        exact accounted.answered_before same
      · rw [spawned]
        exact accounted.once
      · rw [spawned]
        exact fun peer sender waits => accounted.apart peer sender (queue peer sender waits)
      · exact fun peer other sender waits also =>
          accounted.single peer other sender (queue peer sender waits) (queue other sender also)
  | queues spawned queue =>
      rename_i now sender peer
      have new := fresh sender rfl
      have waits : ∀ other found, next.queuedRequests other = some found →
          other = peer ∧ found = sender ∨ s.queuedRequests other = some found ∧ found ≠ sender := by
        intro other found still
        rw [queue, Function.update_apply] at still
        split at still
        · rename_i here
          cases still
          exact Or.inl ⟨here, rfl⟩
        · refine Or.inr ⟨still, fun equal => new ?_⟩
          rw [← equal]
          exact accounted.sender_mem_of_waiting still
      refine ⟨accounted.known_after learns same, ?_, ?_, ?_, ?_, ?_⟩
      · intro other found still
        rcases waits other found still with ⟨rfl, rfl⟩ | ⟨before, _⟩
        · exact ⟨now, List.mem_append_right events (List.mem_singleton.mpr rfl)⟩
        · exact accounted.waiting_before before
      · rw [spawned]
        exact accounted.answered_before same
      · rw [spawned]
        exact accounted.once
      · intro other found still
        rw [spawned]
        rcases waits other found still with ⟨_, rfl⟩ | ⟨before, _⟩
        · exact fun member => new (accounted.sender_mem_of_spawned member)
        · exact accounted.apart other found before
      · intro one other found still also
        rcases waits one found still with ⟨rfl, rfl⟩ | ⟨before, different⟩
        · rcases waits other found also with ⟨rfl, _⟩ | ⟨_, different⟩
          · rfl
          · exact absurd rfl different
        · rcases waits other found also with ⟨_, equal⟩ | ⟨alsoBefore, _⟩
          · exact absurd equal different
          · exact accounted.single one other found before alsoBefore
  | finds brings waits spawned queue =>
      rename_i now res r sender
      obtain ⟨asked, member⟩ := accounted.waiting r.peer sender waits
      refine accounted.spawn learns same spawned ?_ (accounted.apart r.peer sender waits) ?_
      · refine ⟨asked, r.peer, r, List.mem_append_left _ member, ?_, rfl, (same.attempts r).symm⟩
        rw [same.serviceName, same.localPeerIdentifier]
        exact ⟨now, res, List.mem_append_right events (List.mem_singleton.mpr rfl), brings⟩
      · intro peer other still
        rw [queue, Function.update_apply] at still
        split at still
        · cases still
        · rename_i elsewhere
          refine ⟨still, fun equal => elsewhere ?_⟩
          exact accounted.single peer r.peer sender (equal ▸ still) waits
  | knows stored spawned queue =>
      rename_i now sender peer r
      have new := fresh sender rfl
      obtain ⟨announced, key⟩ := accounted.known peer.padded r stored
      refine accounted.spawn learns same spawned ?_
        (fun member => new (accounted.sender_mem_of_spawned member)) ?_
      · refine ⟨now, peer, r, List.mem_append_right events (List.mem_singleton.mpr rfl), ?_,
          key.symm, (same.attempts r).symm⟩
        rw [same.serviceName, same.localPeerIdentifier]
        exact announced.mono
      · intro other waiting still
        rw [queue] at still
        refine ⟨still, fun equal => new ?_⟩
        rw [← equal]
        exact accounted.sender_mem_of_waiting still

end Accounted

namespace Task

/-- The events after which a task still runs. -/
theorem running_of_run_snoc {start : Task cache} {events : List QueueEvent} {event : QueueEvent}
    {s : Discovery cache}
    (reached : Transition.run handle start (events ++ [event]) = .running s) :
    ∃ before, Transition.run handle start events = .running before ∧
      before.handle event = .ok s := by
  rw [Transition.run_snoc] at reached
  cases ran : Transition.run handle start events with
  | running before =>
      rw [ran] at reached
      refine ⟨before, rfl, ?_⟩
      cases handled : before.handle event with
      | ok next =>
          simp only [handle, handled] at reached
          cases reached
          rfl
      | error message =>
          simp only [handle, handled] at reached
          cases reached
  | failed =>
      rw [ran] at reached
      cases reached
  | panicked message =>
      rw [ran] at reached
      cases reached

theorem run_accounted {serviceName : List Char} {owner : PeerIdentifier}
    {strategies : { given : Nat // 0 < given }} {events : List QueueEvent} {s : Discovery cache}
    (senders : (events.filterMap QueueEvent.sender).Nodup)
    (reached : Transition.run handle
      (.running (Discovery.new cache serviceName owner strategies)) events = .running s) :
    Accounted events s ∧
      (Discovery.new cache serviceName owner strategies).SameTask s := by
  induction events using List.reverseRecOn generalizing s with
  | nil =>
      cases reached
      exact ⟨.of_new serviceName owner strategies, .refl _⟩
  | append_singleton events event ih =>
      obtain ⟨before, ran, handled⟩ := running_of_run_snoc reached
      rw [List.filterMap_append, List.nodup_append] at senders
      obtain ⟨accounted, same⟩ := ih senders.1 ran
      refine ⟨accounted.handle ?_ handled, same.trans (Discovery.handle_serves handled).2.2⟩
      intro sender given member
      refine senders.2.2 sender member sender ?_ rfl
      exact List.mem_filterMap.mpr ⟨event, List.mem_singleton.mpr rfl, given⟩

/-- The polls after which a task still runs, event by event. -/
theorem run_handle_of_polls {start : Task cache} {polls : List Answers} {s : Discovery cache}
    (reached : Transition.run step start polls = .running s) :
    Transition.run handle start (polls.flatMap Answers.events) = .running s := by
  induction polls generalizing start with
  | nil => exact reached
  | cons answers rest ih =>
      rw [List.flatMap_cons, Transition.run_append]
      cases stepped : start.step answers with
      | running next =>
          cases start with
          | running first =>
              rw [run_handle_of_poll stepped]
              refine ih ?_
              rw [← stepped]
              exact reached
          | failed => cases stepped
          | panicked message => cases stepped
      | failed =>
          change Transition.run step (start.step answers) rest = _ at reached
          rw [stepped, run_ended (fun _ same => by cases same)] at reached
          cases reached
      | panicked message =>
          change Transition.run step (start.step answers) rest = _ at reached
          rw [stepped, run_ended (fun _ same => by cases same)] at reached
          cases reached

end Task

/-- The requests that a run has taken from their channel, and the responses it has read. -/
def requestsOf (polls : List Answers) : List (ResultSender × PeerIdentifier) :=
  polls.flatMap Answers.requests

def responsesOf (polls : List Answers) : List Response := polls.flatMap Answers.responses

theorem Answers.filterMap_sender (answers : Answers) :
    answers.events.filterMap QueueEvent.sender = answers.requests.map Prod.fst := by
  simp only [events, List.filterMap_append, List.filterMap_map]
  have none : ∀ {ι : Type} (event : ι → QueueEvent), (∀ item, (event item).sender = none) →
      ∀ items : List ι, items.filterMap (QueueEvent.sender ∘ event) = [] := by
    intro ι event silent items
    exact List.filterMap_eq_nil_iff.mpr (fun item _ => silent item)
  rw [none _ (fun _ => rfl), none _ (fun _ => rfl), List.nil_append, List.nil_append]
  exact congrFun List.filterMap_eq_map answers.requests

theorem filterMap_sender_polls (polls : List Answers) :
    (polls.flatMap Answers.events).filterMap QueueEvent.sender =
      (requestsOf polls).map Prod.fst := by
  induction polls with
  | nil => rfl
  | cons answers rest ih =>
      rw [List.flatMap_cons, List.filterMap_append, ih, answers.filterMap_sender, requestsOf,
        requestsOf, List.flatMap_cons, List.map_append]

theorem request_mem_polls {polls : List Answers} {now : Nat}
    {request : ResultSender × PeerIdentifier}
    (member : .request now request ∈ polls.flatMap Answers.events) :
    request ∈ requestsOf polls := by
  obtain ⟨answers, inside, event⟩ := List.mem_flatMap.mp member
  simp only [Answers.events, List.mem_append, List.mem_map, reduceCtorEq, and_false, exists_false,
    false_or, QueueEvent.request.injEq, exists_eq_right_right] at event
  exact List.mem_flatMap.mpr ⟨answers, inside, event.1⟩

theorem response_mem_polls {polls : List Answers} {now : Nat} {res : Response}
    (member : .response now res ∈ polls.flatMap Answers.events) : res ∈ responsesOf polls := by
  obtain ⟨answers, inside, event⟩ := List.mem_flatMap.mp member
  simp only [Answers.events, List.mem_append, List.mem_map, reduceCtorEq, and_false, exists_false,
    or_false, QueueEvent.response.injEq, exists_eq_right_right] at event
  exact List.mem_flatMap.mpr ⟨answers, inside, event.1⟩

/-- In every run of the task, whatever is announced on the network, asked for and timed out: what is
dialled for a request are exactly the addresses of one response that announces, under the service
of the task, a peer with the key that was asked for and that is not the task's own peer, each of
them with all strategies and as a stream of the user. No request is answered twice, and none that
is answered is still queued; a queued one waits for the peer it asked for. -/
theorem requests_answered_from_responses (cache : Cache) (serviceName : List Char)
    (owner : PeerIdentifier) (strategies : { given : Nat // 0 < given }) (polls : List Answers)
    (senders : ((requestsOf polls).map Prod.fst).Nodup) (s : Discovery cache)
    (reached : Transition.run Task.step
      (.running (Discovery.new cache serviceName owner strategies)) polls = .running s) :
    (∀ entry ∈ s.spawned, ∃ peer r, (entry.1, peer) ∈ requestsOf polls ∧
      (∃ res ∈ responsesOf polls,
        DiscoveryResult.tryFrom res (Discovery.localName serviceName) = some r) ∧
      r.peer ≠ owner ∧ r.peer.padded = peer.padded ∧
      entry.2 = r.addrs.map (fun addr =>
        ⟨strategies.val - 1, addr, .user owner, some .initConnect, false⟩)) ∧
    (s.spawned.map Prod.fst).Nodup ∧
    ∀ peer sender, s.queuedRequests peer = some sender → (sender, peer) ∈ requestsOf polls ∧
      sender ∉ s.spawned.map Prod.fst ∧
      ∀ other, s.queuedRequests other = some sender → other = peer := by
  have ran := Task.run_handle_of_polls reached
  rw [← filterMap_sender_polls] at senders
  obtain ⟨accounted, same⟩ := Task.run_accounted senders ran
  refine ⟨?_, accounted.once, ?_⟩
  · intro entry member
    obtain ⟨now, peer, r, asked, ⟨heard, res, response, found, other⟩, key, select⟩ :=
      accounted.answered entry member
    rw [same.serviceName] at found
    rw [same.localPeerIdentifier] at other
    refine ⟨peer, r, request_mem_polls asked, ⟨res, response_mem_polls response, found⟩, other, key,
      select.trans (same.attempts r)⟩
  · intro peer sender waits
    obtain ⟨now, asked⟩ := accounted.waiting peer sender waits
    exact ⟨request_mem_polls asked, accounted.apart peer sender waits,
      fun other also => accounted.single other peer sender also waits⟩

/-- The peer `02` is asked for before and after it is announced, the peer `03` is asked for
twice. -/
def askedAgain : List Answers :=
  [⟨0, [], .notReady, [], [(0, .ofByte 2), (1, .ofByte 3)], .notReady⟩,
    ⟨1, [announced 2], .notReady, [], [(2, .ofByte 2), (3, .ofByte 3)], .notReady⟩]

theorem requests_answered_askedAgain :
    ∃ s : Discovery knownPeersCache, Transition.run Task.step (.running lan) askedAgain =
      .running s ∧ s.spawned.map Prod.fst = [0, 2] ∧ s.queuedRequests (.ofByte 3) = some 1 ∧
      1 ∉ s.spawned.map Prod.fst := by
  have ran : ∃ s : Discovery knownPeersCache,
      Transition.run Task.step (.running lan) askedAgain = .running s ∧
        s.spawned.map Prod.fst = [0, 2] ∧ s.queuedRequests (.ofByte 3) = some 1 :=
    ⟨_, rfl, by decide +kernel, by decide +kernel⟩
  obtain ⟨s, reached, spawned, waits⟩ := ran
  have all := requests_answered_from_responses knownPeersCache (serviceType "hp".toList)
    (.ofByte 1) ⟨1, by decide⟩ askedAgain (by decide) s reached
  exact ⟨s, reached, spawned, waits, (all.2.2 (.ofByte 3) 1 waits).2.1⟩

end HolePunch.Mdns
