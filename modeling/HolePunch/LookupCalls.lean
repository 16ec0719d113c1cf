import Mathlib.Data.List.Nodup
import HolePunch.ConnectDeadlines
import HolePunch.Lookups

set_option autoImplicit false

/- The calls of `find_peer` behind the lookups of a remote registry: each has a future that waits
for its answer and gives up after ten seconds (`registries/remote.rs`). -/
namespace HolePunch.Remote

/-- How long `find_peer` waits for an answer. -/
def requestTimeout : Nat := 10 * second

/-- How a call has ended, and when. -/
inductive CallEnd where
  | returned (result : RegistryResult) (moment : Nat)
  | failed (moment : Nat)
  | dropped

/-- The future of a call. Its receiver is known by the place of the call among all calls. -/
structure TimeoutRequest where
  timeout : Timeout
  ended : Option CallEnd

namespace TimeoutRequest

def new (now : Now) : TimeoutRequest := ⟨Timeout.new requestTimeout now, none⟩

def poll (s : TimeoutRequest) (received : Futures.Poll Unit RegistryResult) (timerFails : Bool)
    (now : Now) : Futures.Poll Unit RegistryResult :=
  match s.timeout.poll timerFails now with
  | .error => .error ()
  | .notReady => received

end TimeoutRequest

namespace LookupSession

variable (s : LookupSession) (sender : ResultSender)

/-- The sender is in the channel of the requests. -/
def Queued : Prop := sender ∈ s.findPeerRequest.map Prod.snd

/-- The sender is in the table of the connection. -/
def Awaits : Prop :=
  ∃ link peer, s.link = some link ∧ Waits link.client.requests peer sender

/-- The sender was dropped with the table of a connection that has ended. -/
def Lost : Prop := ∃ requests ∈ s.discarded, ∃ peer, Waits requests peer sender

/-- Whether somebody still has the sender of a request, which waits only for the peer that it was
made for. -/
def holds : Bool :=
  decide (sender ∈ s.findPeerRequest.map Prod.snd) ||
    match s.link, s.asked[sender]? with
    | some link, some peer => decide (sender ∈ (link.client.requests peer).getD [])
    | _, _ => false

/-- What the receiver of a request answers when it is polled. -/
def received : Futures.Poll Unit RegistryResult :=
  match s.completed.find? (fun done => done.2.1 == sender) with
  | some done => .ready done.2.2
  | none => if s.holds sender then .notReady else .error ()

end LookupSession

/-- The registry's client with the futures of all calls so far. `running` is cleared when the task
of the handler ends, which drops the channel of the requests and the table. -/
structure LookupCalls where
  session : LookupSession
  calls : List TimeoutRequest
  running : Bool

namespace LookupCalls

inductive Event where
  | findPeer (peer : PeerIdentifier) (now : Now)
  | poll (index : Nat) (timerFails : Bool) (now : Now)
  | drop (index : Nat)
  /-- Whatever else the client, the server and the connection do. -/
  | session (event : LookupSession.Event)
  | handlerEnds

def init : LookupCalls := ⟨LookupSession.init, [], true⟩

def received (s : LookupCalls) (index : Nat) : Futures.Poll Unit RegistryResult :=
  match s.session.received index with
  | .notReady => if s.running then .notReady else .error ()
  | answer => answer

/-- The future of a call ends, and its receiver is dropped. -/
def finish (s : LookupCalls) (index : Nat) (call : TimeoutRequest) (ended : CallEnd) :
    LookupCalls where
  session := s.session.step (.cancel index)
  calls := s.calls.set index { call with ended := some ended }
  running := s.running

/-- What becomes of a call that has not ended. -/
def withCall (s : LookupCalls) (index : Nat) (act : TimeoutRequest → LookupCalls) : LookupCalls :=
  match s.calls[index]? with
  | none => s
  | some call =>
      match call.ended with
      | some _ => s
      | none => act call

def pollCall (s : LookupCalls) (index : Nat) (timerFails : Bool) (now : Now)
    (call : TimeoutRequest) : LookupCalls :=
  match call.poll (s.received index) timerFails now with
  | .notReady => s
  | .ready result => s.finish index call (.returned result now.nanos)
  | .error () => s.finish index call (.failed now.nanos)

/-- Without a receiver for the request, `find_peer` panics and there is no call. -/
def findPeer (s : LookupCalls) (peer : PeerIdentifier) (now : Now) : LookupCalls :=
  if s.running then
    { s with session := s.session.step (.request peer), calls := s.calls ++ [.new now] }
  else s

def step (s : LookupCalls) : Event → LookupCalls
  | .findPeer peer now => s.findPeer peer now
  | .poll index timerFails now => s.withCall index (s.pollCall index timerFails now)
  | .drop index => s.withCall index (fun call => s.finish index call .dropped)
  | .session (.request _) => s
  | .session (.cancel _) => s
  | .session event => if s.running then { s with session := s.session.step event } else s
  | .handlerEnds => { s with running := false }

end LookupCalls

namespace LookupSession

variable {s : LookupSession} {sender : ResultSender}

/-- Where the sender of a request can be. -/
def Placed (s : LookupSession) (sender : ResultSender) : Prop :=
  s.Queued sender ∨ s.Awaits sender ∨ sender ∈ s.completedSenders ∨ s.Lost sender

theorem placed_of_same {next : LookupSession} (queue : next.findPeerRequest = s.findPeerRequest)
    (waits : s.Awaits sender → next.Awaits sender) (completed : next.completed = s.completed)
    (discarded : next.discarded = s.discarded) (placed : s.Placed sender) :
    next.Placed sender := by
  rcases placed with queued | awaits | done | lost
  · exact Or.inl (by rw [Queued, queue]; exact queued)
  · exact Or.inr (Or.inl (waits awaits))
  · exact Or.inr (Or.inr (Or.inl (by rw [completedSenders, completed]; exact done)))
  · exact Or.inr (Or.inr (Or.inr (by rw [Lost, discarded]; exact lost)))

theorem discard_placed {link : Link} (current : s.link = some link) {requests : Requests}
    (kept : ∀ peer, Waits link.client.requests peer sender → Waits requests peer sender)
    (placed : s.Placed sender) : (s.discard requests).Placed sender := by
  rcases placed with queued | ⟨other, peer, held, waits⟩ | done | ⟨table, member, lost⟩
  · exact Or.inl queued
  · cases current.symm.trans held
    exact Or.inr (Or.inr (Or.inr ⟨requests, List.mem_append_right _ List.mem_cons_self, peer,
      kept peer waits⟩))
  · exact Or.inr (Or.inr (Or.inl done))
  · exact Or.inr (Or.inr (Or.inr ⟨table, List.mem_append_left _ member, lost⟩))

theorem answer_client (link : Link) (message : Option RegistryProtocol) (send : SendPoll)
    (completes : Bool) : (answer link message send completes).client = link.client := by
  unfold answer
  split <;> rfl

/-- A request that nobody has given up is skipped by nobody: it is completed, entered in the table,
or lost with it. -/
theorem takeRequest_placed (kept : sender ∉ s.canceled) (send : SendPoll)
    (placed : s.Placed sender) : (s.takeRequest send).Placed sender := by
  cases current : s.link with
  | none =>
      rw [takeRequest_idle send (Or.inl current)]
      exact placed
  | some link =>
      cases waiting : s.findPeerRequest with
      | nil =>
          rw [takeRequest_idle send (Or.inr waiting)]
          exact placed
      | cons first rest =>
          obtain ⟨peer, taken⟩ := first
          -- Either the request is the one that is taken, or it stays where it is.
          have stays : sender = taken ∨ (s.took peer taken rest).Placed sender := by
            rcases placed with queued | elsewhere
            · rw [Queued, waiting] at queued
              rcases List.mem_cons.mp queued with same | later
              · exact Or.inl same
              · exact Or.inr (Or.inl later)
            · exact Or.inr (Or.inr elsewhere)
          have entered := waits_enter link peer taken
          have held : ∀ {next : LookupSession} {after : Link}, next.link = some after →
              after.client.requests = (link.enter peer taken).client.requests →
              next.findPeerRequest = rest → next.completed = s.completed →
              next.discarded = s.discarded → next.Placed sender := by
            intro next after found requests queue completed discarded
            rcases stays with rfl | stays
            · exact Or.inr (Or.inl ⟨after, peer, found, requests ▸ entered.1⟩)
            · refine placed_of_same (s := s.took peer taken rest) queue ?_ completed discarded stays
              rintro ⟨other, asked, before, waits⟩
              cases current.symm.trans before
              exact ⟨after, asked, found, requests ▸ entered.2 asked sender waits⟩
          rcases takeRequest_cases current waiting send with
            ⟨skipped, same⟩ | ⟨-, self, same⟩ |
            ⟨-, -, ⟨-, same⟩ | ⟨vacant, ⟨-, same⟩ | ⟨-, same⟩ | ⟨reason, -, same⟩⟩⟩
          all_goals rw [same]
          · rcases stays with rfl | stays
            · exact absurd skipped kept
            · exact stays
          · rcases stays with rfl | queued | awaits | done | lost
            · refine Or.inr (Or.inr (Or.inl ?_))
              simp [completedSenders]
            · exact Or.inl queued
            · exact Or.inr (Or.inl awaits)
            · refine Or.inr (Or.inr (Or.inl ?_))
              simp only [completedSenders, List.map_append]
              exact List.mem_append_left _ done
            · exact Or.inr (Or.inr (Or.inr lost))
          · exact held rfl rfl rfl rfl rfl
          · exact held rfl rfl rfl rfl rfl
          · exact held rfl rfl rfl rfl rfl
          · rcases stays with rfl | stays
            · exact Or.inr (Or.inr (Or.inr
                ⟨_, List.mem_append_right _ List.mem_cons_self, peer, entered.1⟩))
            · exact discard_placed (show (s.took peer taken rest).link = some link from current)
                (fun asked waits => entered.2 asked sender waits) stays

theorem clientReads_placed (inv : s.Inv) (placed : s.Placed sender) :
    s.clientReads.Placed sender := by
  cases current : s.link with
  | none =>
      simp only [clientReads, current]
      exact placed
  | some link =>
      have sound := inv.link link current
      cases read : link.toClient with
      | nil =>
          simp only [clientReads, current, read]
          exact placed
      | cons message rest =>
          rcases clientReads_cases current read with
            ⟨other, same⟩ | ⟨peer, result, about, why, same⟩
          · rw [same]
            refine placed_of_same (s := s) rfl ?_ rfl rfl placed
            rintro ⟨held, asked, before, waits⟩
            cases current.symm.trans before
            exact ⟨_, asked, rfl, waits⟩
          · obtain ⟨-, senders, entry⟩ := sound.expects read about
            rw [same senders entry]
            rcases placed with queued | ⟨held, asked, before, found, given, member⟩ | done | lost
            · exact Or.inl queued
            · cases current.symm.trans before
              by_cases answered : asked = peer
              · subst answered
                cases entry.symm.trans given
                refine Or.inr (Or.inr (Or.inl ?_))
                simp only [completedSenders, List.map_append, List.map_map, Function.comp_def,
                  List.map_id']
                exact List.mem_append_right _ member
              · refine Or.inr (Or.inl ⟨_, asked, rfl, found, ?_, member⟩)
                exact (Function.update_of_ne answered _ _).trans given
            · refine Or.inr (Or.inr (Or.inl ?_))
              simp only [completedSenders, List.map_append]
              exact List.mem_append_left _ done
            · exact Or.inr (Or.inr (Or.inr lost))

/-- No step loses sight of a request that nobody has given up. -/
theorem step_placed (inv : s.Inv) (event : Event) (kept : sender ∉ s.canceled)
    (placed : s.Placed sender) : (s.step event).Placed sender := by
  -- The connection stays as it is or only its channels change.
  have still : ∀ {next : LookupSession}, next.findPeerRequest = s.findPeerRequest →
      next.completed = s.completed → next.discarded = s.discarded →
      (∀ link, s.link = some link → ∃ after, next.link = some after ∧
        after.client = link.client) → next.Placed sender := by
    intro next queue completed discarded client
    refine placed_of_same queue ?_ completed discarded placed
    rintro ⟨link, peer, current, waits⟩
    obtain ⟨after, found, same⟩ := client link current
    exact ⟨after, peer, found, same ▸ waits⟩
  cases event with
  | request peer =>
      rcases placed with queued | elsewhere
      · refine Or.inl ?_
        simp only [Queued, step, List.map_append]
        exact List.mem_append_left _ queued
      · exact Or.inr elsewhere
  | cancel other => exact still rfl rfl rfl (fun link current => ⟨link, current, rfl⟩)
  | connect stream =>
      cases current : s.link with
      | some link =>
          simp only [step, current]
          exact placed
      | none =>
          simp only [step, current]
          refine still rfl rfl rfl ?_
          intro link impossible
          rw [current] at impossible
          cases impossible
  | takeRequest send => exact takeRequest_placed kept send placed
  | ping send =>
      cases current : s.link with
      | none =>
          simp only [step, ping, current]
          exact placed
      | some link =>
          cases send with
          | refused =>
              simp only [step, ping, current]
              exact placed
          | accepted =>
              simp only [step, ping, current]
              refine still rfl (List.append_nil _) rfl ?_
              intro other found
              cases current.symm.trans found
              exact ⟨_, rfl, rfl⟩
          | error reason =>
              simp only [step, ping, current]
              exact discard_placed current (fun peer waits => waits) placed
  | clientReads => exact clientReads_placed inv placed
  | serverReads registry send completes =>
      simp only [step, serverReads]
      split
      · exact placed
      · rename_i link current
        split
        · refine still rfl rfl rfl ?_
          intro other found
          cases current.symm.trans found
          exact ⟨_, rfl, answer_client _ _ _ _⟩
        · exact placed
  | serverEnds =>
      cases current : s.link with
      | none =>
          simp only [step, current]
          exact placed
      | some link =>
          simp only [step, current]
          refine still rfl rfl rfl ?_
          intro other found
          cases current.symm.trans found
          exact ⟨_, rfl, rfl⟩
  | clientEnds =>
      cases current : s.link with
      | none =>
          simp only [step, current]
          exact placed
      | some link =>
          simp only [step, current]
          exact discard_placed current (fun peer waits => waits) placed

section Receivers

/-- A request is either still in the channel or taken from it. -/
theorem Sound.not_queued (sound : s.Sound) {peer : PeerIdentifier}
    (taken : (peer, sender) ∈ s.taken) : ¬ s.Queued sender := by
  intro queued
  have distinct : (s.taken.map Prod.snd ++ s.findPeerRequest.map Prod.snd).Nodup := by
    rw [← List.map_append, sound.order, List.zipIdx_map_snd]
    exact List.nodup_range'
  exact (List.nodup_append.mp distinct).2.2 sender (List.mem_map_of_mem taken) sender queued rfl

theorem Sound.lost_not_completed (sound : s.Sound) (lost : s.Lost sender) :
    sender ∉ s.completedSenders := by
  obtain ⟨requests, member, peer, waits⟩ := lost
  exact (sound.dropped requests member peer sender waits).2

theorem Inv.awaits_held (inv : s.Inv) (awaits : s.Awaits sender) :
    ∃ peer, (peer, sender) ∈ s.taken ∧ s.Unanswered sender := by
  obtain ⟨link, peer, current, waits⟩ := awaits
  exact ⟨peer, (inv.link link current).held peer sender waits⟩

theorem holds_iff (inv : s.Inv) : s.holds sender = true ↔ s.Queued sender ∨ s.Awaits sender := by
  simp only [holds, Bool.or_eq_true, decide_eq_true_eq]
  refine or_congr Iff.rfl ⟨?_, ?_⟩
  · intro entered
    split at entered
    · rename_i link peer current asked
      cases entry : link.client.requests peer with
      | none => simp [entry] at entered
      | some senders =>
          refine ⟨link, peer, current, senders, entry, ?_⟩
          simpa [entry] using entered
    · cases entered
  · rintro ⟨link, peer, current, waits⟩
    have asked := inv.sound.asked ((inv.link link current).held peer sender waits).1
    obtain ⟨senders, entry, member⟩ := waits
    simp only [current, asked, entry, Option.getD_some, decide_eq_true_eq]
    exact member

theorem received_ready_iff (inv : s.Inv) (result : RegistryResult) :
    s.received sender = .ready result ↔ ∃ number, (number, sender, result) ∈ s.completed := by
  unfold received
  cases found : s.completed.find? (fun done => done.2.1 == sender) with
  | none =>
      have missing := List.find?_eq_none.mp found
      constructor
      · intro impossible
        simp only at impossible
        split at impossible <;> cases impossible
      · rintro ⟨number, member⟩
        exact absurd (beq_self_eq_true sender) (missing _ member)
  | some done =>
      have member := List.mem_of_find?_eq_some found
      have same : done.2.1 = sender := by
        have holds := List.find?_some found
        simpa using holds
      constructor
      · intro returned
        cases returned
        exact ⟨done.1, same ▸ member⟩
      · rintro ⟨number, other⟩
        -- A sender is completed once, so that this is the same answer.
        have equal : done = (number, sender, result) :=
          List.inj_on_of_nodup_map inv.sound.once member other same
        rw [equal]

theorem received_none (missing : sender ∉ s.completedSenders) :
    s.received sender = if s.holds sender then .notReady else .error () := by
  have found : s.completed.find? (fun done => done.2.1 == sender) = none := by
    refine List.find?_eq_none.mpr ?_
    intro done member same
    exact missing (eq_of_beq same ▸ List.mem_map_of_mem member)
  simp only [received, found]

theorem completed_of_received (done : sender ∈ s.completedSenders) (inv : s.Inv) :
    ∃ result, s.received sender = .ready result := by
  obtain ⟨given, member, same⟩ := List.mem_map.mp done
  refine ⟨given.2.2, (received_ready_iff inv _).mpr ⟨given.1, ?_⟩⟩
  rw [← same]
  exact member

theorem received_notReady_iff (inv : s.Inv) :
    s.received sender = .notReady ↔ s.Queued sender ∨ s.Awaits sender := by
  constructor
  · intro pending
    by_cases done : sender ∈ s.completedSenders
    · obtain ⟨result, ready⟩ := completed_of_received done inv
      rw [ready] at pending
      cases pending
    · rw [received_none done] at pending
      rw [← holds_iff inv]
      split at pending
      · assumption
      · cases pending
  · intro held
    have missing : sender ∉ s.completedSenders := by
      intro done
      rcases held with queued | awaits
      · obtain ⟨peer, taken⟩ := inv.sound.completed_taken done
        exact inv.sound.not_queued taken queued
      · obtain ⟨-, -, unanswered⟩ := inv.awaits_held awaits
        exact unanswered.1 done
    rw [received_none missing, if_pos ((holds_iff inv).mpr held)]

theorem received_error_iff (inv : s.Inv) (placed : s.Placed sender) :
    s.received sender = .error () ↔ s.Lost sender := by
  constructor
  · intro failed
    rcases placed with queued | awaits | done | lost
    · rw [(received_notReady_iff inv).mpr (Or.inl queued)] at failed
      cases failed
    · rw [(received_notReady_iff inv).mpr (Or.inr awaits)] at failed
      cases failed
    · obtain ⟨result, ready⟩ := completed_of_received done inv
      rw [ready] at failed
      cases failed
    · exact lost
  · intro lost
    rw [received_none (inv.sound.lost_not_completed lost), if_neg]
    intro held
    obtain ⟨requests, member, peer, waits⟩ := lost
    rcases (holds_iff inv).mp held with queued | awaits
    · exact inv.sound.not_queued (inv.sound.dropped requests member peer sender waits).1 queued
    · obtain ⟨-, -, unanswered⟩ := inv.awaits_held awaits
      exact unanswered.2 requests member peer waits

end Receivers

/-- What the events of the calls themselves do not concern. -/
def Outside : Event → Prop
  | .request _ => False
  | .cancel _ => False
  | _ => True

theorem takeRequest_record (s : LookupSession) (send : SendPoll) :
    (s.takeRequest send).canceled = s.canceled ∧ (s.takeRequest send).asked = s.asked ∧
      s.completed <+: (s.takeRequest send).completed := by
  unfold takeRequest
  split
  · dsimp only
    split
    · exact ⟨rfl, rfl, List.prefix_append _ _⟩
    · exact ⟨rfl, rfl, List.prefix_refl _⟩
  · exact ⟨rfl, rfl, List.prefix_refl _⟩

theorem step_record (s : LookupSession) {event : Event} (outside : Outside event) :
    (s.step event).canceled = s.canceled ∧ (s.step event).asked = s.asked ∧
      s.completed <+: (s.step event).completed := by
  cases event with
  | request peer => exact outside.elim
  | cancel other => exact outside.elim
  | connect stream =>
      simp only [step]
      split <;> exact ⟨rfl, rfl, List.prefix_refl _⟩
  | takeRequest send => exact s.takeRequest_record send
  | ping send =>
      simp only [step, ping]
      split
      · exact ⟨rfl, rfl, List.prefix_refl _⟩
      · exact ⟨rfl, rfl, List.prefix_append _ _⟩
      · exact ⟨rfl, rfl, List.prefix_refl _⟩
      · exact ⟨rfl, rfl, List.prefix_refl _⟩
  | clientReads =>
      simp only [step, clientReads]
      split
      · exact ⟨rfl, rfl, List.prefix_refl _⟩
      · split
        · exact ⟨rfl, rfl, List.prefix_refl _⟩
        · exact ⟨rfl, rfl, List.prefix_append _ _⟩
  | serverReads registry send completes =>
      simp only [step, serverReads]
      split
      · exact ⟨rfl, rfl, List.prefix_refl _⟩
      · split <;> exact ⟨rfl, rfl, List.prefix_refl _⟩
  | serverEnds =>
      simp only [step]
      split <;> exact ⟨rfl, rfl, List.prefix_refl _⟩
  | clientEnds =>
      simp only [step]
      split <;> exact ⟨rfl, rfl, List.prefix_refl _⟩

end LookupSession

namespace LookupCalls

/-- What the calls have come to: one that has returned did so in time, with what the registry at
the other end of a connection knew about its peer, and the request of one that has not ended is
somewhere. -/
structure Accounted (s : LookupCalls) : Prop where
  count : s.calls.length = s.session.asked.length
  returned : ∀ (index : Nat) (call : TimeoutRequest) (result : RegistryResult) (moment : Nat),
    s.calls[index]? = some call → call.ended = some (.returned result moment) →
    moment < call.timeout.deadline ∧ ∃ number peer, s.session.asked[index]? = some peer ∧
      (number, index, result) ∈ s.session.completed ∧ s.session.Knows number peer result
  pending : ∀ (index : Nat) (call : TimeoutRequest), s.calls[index]? = some call →
    call.ended = none → s.session.Placed index

/-- A call that has ended is not touched again, and no deadline moves. -/
def Keeps (s : LookupCalls) (event : Event) : Prop :=
  ∀ (index : Nat) (call : TimeoutRequest), s.calls[index]? = some call →
    ∃ next, (s.step event).calls[index]? = some next ∧ next.timeout = call.timeout ∧
      (call.ended ≠ none → next = call)

/-- The request of a call has no sender any more, and no answer. -/
def Bereft (s : LookupCalls) (index : Nat) : Prop :=
  s.session.Lost index ∨
    (s.running = false ∧ (s.session.Queued index ∨ s.session.Awaits index))

/-- What a poll makes of a call: it returns the answer that has come, it fails only at its deadline
or when its request went down with the connection or the handler, and otherwise it waits. -/
def Decides (s : LookupCalls) (event : Event) : Prop :=
  ∀ (index : Nat) (timerFails : Bool) (now : Now) (call : TimeoutRequest),
    event = .poll index timerFails now → s.calls[index]? = some call → call.ended = none →
    ∃ next, (s.step event).calls[index]? = some next ∧
      (∀ result, next.ended = some (.returned result now.nanos) ↔
        timerFails = false ∧ now.nanos < call.timeout.deadline ∧
          ∃ number, (number, index, result) ∈ s.session.completed) ∧
      (next.ended = some (.failed now.nanos) ↔
        timerFails = true ∨ call.timeout.deadline ≤ now.nanos ∨ s.Bereft index) ∧
      (next.ended = none ↔ timerFails = false ∧ now.nanos < call.timeout.deadline ∧
        s.running = true ∧ (s.session.Queued index ∨ s.session.Awaits index))

/-- With what keeps the requests of waiting calls from being skipped. -/
structure Inv (s : LookupCalls) : Prop where
  session : s.session.Inv
  accounted : s.Accounted
  kept : ∀ (index : Nat) (call : TimeoutRequest), s.calls[index]? = some call →
    call.ended = none → index ∉ s.session.canceled
  known : ∀ sender ∈ s.session.canceled, sender < s.calls.length

variable {s : LookupCalls}

theorem init_inv : init.Inv where
  session := LookupSession.init_inv
  accounted := ⟨rfl, (fun index call result moment found => by cases found),
    fun index call found => by cases found⟩
  kept := fun index call found => by cases found
  known := fun sender member => by cases member

/-- What a completed sender was given is known to the connection that gave it. -/
theorem Inv.justified (inv : s.Inv) {number : Nat} {index : ResultSender} {result : RegistryResult}
    (done : (number, index, result) ∈ s.session.completed) :
    ∃ peer, s.session.asked[index]? = some peer ∧ s.session.Knows number peer result :=
  inv.session.safe.answered _ done

theorem Inv.session_step (inv : s.Inv) {event : LookupSession.Event}
    (outside : LookupSession.Outside event) :
    Inv { s with session := s.session.step event } := by
  obtain ⟨canceled, asked, completed⟩ := s.session.step_record outside
  have session := LookupSession.step_inv s.session event inv.session
  refine ⟨session, ⟨?_, ?_, ?_⟩, ?_, ?_⟩
  · exact inv.accounted.count.trans (congrArg List.length asked.symm)
  · intro index call result moment found ended
    obtain ⟨early, number, -, -, done, -⟩ :=
      inv.accounted.returned index call result moment found ended
    have member := completed.subset done
    obtain ⟨peer, known⟩ := session.safe.answered _ member
    exact ⟨early, number, peer, known.1, member, known.2⟩
  · intro index call found waiting
    exact LookupSession.step_placed inv.session event (inv.kept index call found waiting)
      (inv.accounted.pending index call found waiting)
  · intro index call found waiting
    change index ∉ (s.session.step event).canceled
    rw [canceled]
    exact inv.kept index call found waiting
  · intro sender member
    change sender ∈ (s.session.step event).canceled at member
    rw [canceled] at member
    exact inv.known sender member

theorem Inv.request (inv : s.Inv) (peer : PeerIdentifier) (now : Now) :
    Inv { s with session := s.session.step (.request peer), calls := s.calls ++ [.new now] } := by
  have session := LookupSession.step_inv s.session (.request peer) inv.session
  have earlier : ∀ {index : Nat} {call : TimeoutRequest},
      (s.calls ++ [TimeoutRequest.new now])[index]? = some call →
      s.calls[index]? = some call ∨ (index = s.calls.length ∧ call = TimeoutRequest.new now) := by
    intro index call found
    rcases Nat.lt_or_ge index s.calls.length with within | beyond
    · exact Or.inl ((List.getElem?_append_left within).symm.trans found)
    · obtain ⟨inside, -⟩ := List.getElem?_eq_some_iff.mp found
      have last : index = s.calls.length := by
        rw [List.length_append] at inside
        change index < s.calls.length + 1 at inside
        omega
      rw [last, List.getElem?_concat_length] at found
      cases found
      exact Or.inr ⟨last, rfl⟩
  refine ⟨session, ⟨?_, ?_, ?_⟩, ?_, ?_⟩
  · change (s.calls ++ [_]).length = (s.session.asked ++ [peer]).length
    rw [List.length_append, List.length_append, inv.accounted.count]
    rfl
  · intro index call result moment found ended
    rcases earlier found with before | ⟨-, rfl⟩
    · obtain ⟨early, number, -, -, done, -⟩ :=
        inv.accounted.returned index call result moment before ended
      obtain ⟨peer, known⟩ := session.safe.answered _ done
      exact ⟨early, number, peer, known.1, done, known.2⟩
    · cases ended
  · intro index call found waiting
    rcases earlier found with before | ⟨last, -⟩
    · exact LookupSession.step_placed inv.session (.request peer)
        (inv.kept index call before waiting) (inv.accounted.pending index call before waiting)
    · refine Or.inl ?_
      rw [last, inv.accounted.count]
      simp only [LookupSession.Queued, LookupSession.step, List.map_append]
      exact List.mem_append_right _ List.mem_cons_self
  · intro index call found waiting
    rcases earlier found with before | ⟨last, -⟩
    · exact inv.kept index call before waiting
    · intro canceled
      have known := inv.known index canceled
      rw [last] at known
      exact Nat.lt_irrefl _ known
  · intro sender member
    change sender < (s.calls ++ [_]).length
    rw [List.length_append]
    exact Nat.lt_add_right _ (inv.known sender member)

theorem Inv.findPeer (inv : s.Inv) (peer : PeerIdentifier) (now : Now) :
    (s.findPeer peer now).Inv := by
  unfold LookupCalls.findPeer
  split
  · exact inv.request peer now
  · exact inv

/-- A call ends. Only one with an answer in time may return. -/
theorem Inv.finish (inv : s.Inv) {index : Nat} {call : TimeoutRequest}
    (found : s.calls[index]? = some call) {ended : CallEnd}
    (returns : ∀ result moment, ended = .returned result moment →
      moment < call.timeout.deadline ∧ ∃ number, (number, index, result) ∈ s.session.completed) :
    (s.finish index call ended).Inv := by
  obtain ⟨within, -⟩ := List.getElem?_eq_some_iff.mp found
  have session := LookupSession.step_inv s.session (.cancel index) inv.session
  have others : ∀ {other : Nat} {given : TimeoutRequest},
      (s.calls.set index { call with ended := some ended })[other]? = some given →
      (other = index ∧ given = { call with ended := some ended }) ∨
        (other ≠ index ∧ s.calls[other]? = some given) := by
    intro other given taken
    by_cases same : index = other
    · subst same
      rw [List.getElem?_set_self within] at taken
      cases taken
      exact Or.inl ⟨rfl, rfl⟩
    · rw [List.getElem?_set_ne same] at taken
      exact Or.inr ⟨fun equal => same equal.symm, taken⟩
  refine ⟨session, ⟨?_, ?_, ?_⟩, ?_, ?_⟩
  · exact List.length_set.trans inv.accounted.count
  · intro other given result moment taken finished
    rcases others taken with ⟨rfl, rfl⟩ | ⟨-, before⟩
    · cases finished
      obtain ⟨early, number, done⟩ := returns result moment rfl
      obtain ⟨peer, known⟩ := inv.justified done
      exact ⟨early, number, peer, known.1, done, known.2⟩
    · exact inv.accounted.returned other given result moment before finished
  · intro other given taken waiting
    rcases others taken with ⟨rfl, rfl⟩ | ⟨-, before⟩
    · cases waiting
    · exact LookupSession.step_placed inv.session (.cancel index)
        (inv.kept other given before waiting) (inv.accounted.pending other given before waiting)
  · intro other given taken waiting
    rcases others taken with ⟨rfl, rfl⟩ | ⟨apart, before⟩
    · cases waiting
    · intro canceled
      rcases List.mem_cons.mp canceled with same | earlier
      · exact apart same
      · exact inv.kept other given before waiting earlier
  · intro sender member
    change sender < (s.calls.set index _).length
    rw [List.length_set]
    rcases List.mem_cons.mp member with rfl | earlier
    · exact within
    · exact inv.known sender earlier

section Receivers

theorem Inv.received_ready_iff (inv : s.Inv) (index : Nat) (result : RegistryResult) :
    s.received index = .ready result ↔
      ∃ number, (number, index, result) ∈ s.session.completed := by
  rw [← LookupSession.received_ready_iff inv.session]
  unfold received
  cases s.session.received index with
  | notReady => cases s.running <;> simp
  | ready given => exact Iff.rfl
  | error reason => exact Iff.rfl

theorem Inv.received_notReady_iff (inv : s.Inv) (index : Nat) :
    s.received index = .notReady ↔
      s.running = true ∧ (s.session.Queued index ∨ s.session.Awaits index) := by
  rw [← LookupSession.received_notReady_iff inv.session]
  unfold received
  cases s.session.received index with
  | notReady => cases s.running <;> simp
  | ready given => simp
  | error reason => simp

theorem Inv.received_error_iff (inv : s.Inv) {index : Nat} (placed : s.session.Placed index) :
    s.received index = .error () ↔ s.Bereft index := by
  rw [Bereft, ← LookupSession.received_notReady_iff inv.session,
    ← LookupSession.received_error_iff inv.session placed]
  unfold received
  cases s.session.received index with
  | notReady => cases s.running <;> simp
  | ready given => simp
  | error reason => simp

end Receivers

/-- What a poll of a waiting call finds. -/
inductive Polled (s : LookupCalls) (index : Nat) (call : TimeoutRequest) (timerFails : Bool)
    (now : Now) : LookupCalls → Prop
  | late (elapsed : timerFails = true ∨ call.timeout.deadline ≤ now.nanos) :
      Polled s index call timerFails now (s.finish index call (.failed now.nanos))
  | lost (works : timerFails = false) (early : now.nanos < call.timeout.deadline)
      (lost : s.received index = .error ()) :
      Polled s index call timerFails now (s.finish index call (.failed now.nanos))
  | answered (works : timerFails = false) (early : now.nanos < call.timeout.deadline)
      {result : RegistryResult} (ready : s.received index = .ready result) :
      Polled s index call timerFails now (s.finish index call (.returned result now.nanos))
  | waits (works : timerFails = false) (early : now.nanos < call.timeout.deadline)
      (pending : s.received index = .notReady) : Polled s index call timerFails now s

theorem step_polled {index : Nat} {call : TimeoutRequest} (found : s.calls[index]? = some call)
    (waiting : call.ended = none) (timerFails : Bool) (now : Now) :
    s.Polled index call timerFails now (s.step (.poll index timerFails now)) := by
  have stepped : s.step (.poll index timerFails now) = s.pollCall index timerFails now call := by
    simp only [step, withCall, found, waiting]
  rw [stepped]
  by_cases elapsed : timerFails = true ∨ call.timeout.deadline ≤ now.nanos
  · have fired : call.timeout.poll timerFails now = .error := if_pos elapsed
    simp only [pollCall, TimeoutRequest.poll, fired]
    exact .late elapsed
  · have running : call.timeout.poll timerFails now = .notReady := if_neg elapsed
    obtain ⟨works, early⟩ := not_or.mp elapsed
    have works : timerFails = false := Bool.eq_false_iff.mpr works
    have early : now.nanos < call.timeout.deadline := Nat.lt_of_not_le early
    simp only [pollCall, TimeoutRequest.poll, running]
    cases received : s.received index with
    | notReady => exact .waits works early received
    | ready result => exact .answered works early received
    | error reason => exact .lost works early received

theorem Inv.polled (inv : s.Inv) {index : Nat} {call : TimeoutRequest}
    (found : s.calls[index]? = some call) {timerFails : Bool} {now : Now} {next : LookupCalls}
    (polled : s.Polled index call timerFails now next) : next.Inv := by
  cases polled with
  | late elapsed => exact inv.finish found (fun result moment same => by cases same)
  | lost works early lost => exact inv.finish found (fun result moment same => by cases same)
  | answered works early ready =>
      refine inv.finish found ?_
      intro result moment same
      cases same
      exact ⟨early, (inv.received_ready_iff index _).mp ready⟩
  | waits works early pending => exact inv

/-- An event for a call that there is not or that has ended does nothing. -/
theorem withCall_inv (inv : s.Inv) {index : Nat} {act : TimeoutRequest → LookupCalls}
    (acts : ∀ call, s.calls[index]? = some call → call.ended = none → (act call).Inv) :
    (s.withCall index act).Inv := by
  unfold withCall
  split
  · exact inv
  · rename_i call found
    split
    · exact inv
    · rename_i waiting
      exact acts call found waiting

theorem step_inv (s : LookupCalls) (event : Event) (inv : s.Inv) : (s.step event).Inv := by
  cases event with
  | findPeer peer now => exact inv.findPeer peer now
  | poll index timerFails now =>
      refine withCall_inv inv ?_
      intro call found waiting
      have polled := step_polled found waiting timerFails now
      simp only [step, withCall, found, waiting] at polled
      exact inv.polled found polled
  | drop index =>
      refine withCall_inv inv ?_
      intro call found waiting
      exact inv.finish found (fun result moment same => by cases same)
  | session event =>
      cases event with
      | request peer => exact inv
      | cancel sender => exact inv
      | _ =>
          simp only [step]
          split
          · exact inv.session_step trivial
          · exact inv
  | handlerEnds =>
      exact ⟨inv.session, ⟨inv.accounted.count, inv.accounted.returned, inv.accounted.pending⟩,
        inv.kept, inv.known⟩

theorem finish_calls {index : Nat} {call : TimeoutRequest} (found : s.calls[index]? = some call)
    (ended : CallEnd) :
    (s.finish index call ended).calls[index]? = some { call with ended := some ended } := by
  obtain ⟨within, -⟩ := List.getElem?_eq_some_iff.mp found
  exact List.getElem?_set_self within

theorem step_decides (s : LookupCalls) (event : Event) (inv : s.Inv) : s.Decides event := by
  rintro index timerFails now call rfl found waiting
  have ready : ∀ result, s.received index = .ready result ↔
      ∃ number, (number, index, result) ∈ s.session.completed := inv.received_ready_iff index
  have pends := inv.received_notReady_iff index
  have fails := inv.received_error_iff (inv.accounted.pending index call found waiting)
  have polled := step_polled found waiting timerFails now
  simp only [← ready, ← pends, ← fails]
  generalize s.step (.poll index timerFails now) = after at polled ⊢
  cases polled with
  | late elapsed =>
      have inTime : ¬ (timerFails = false ∧ now.nanos < call.timeout.deadline) := by
        rintro ⟨works, early⟩
        rcases elapsed with fails | late
        · rw [works] at fails
          cases fails
        · omega
      refine ⟨_, finish_calls found _, ?_, ?_, ?_⟩
      · intro result
        refine ⟨fun same => ?_, fun timely => absurd ⟨timely.1, timely.2.1⟩ inTime⟩
        cases same
      · exact ⟨fun _ => elapsed.imp_right Or.inl, fun _ => rfl⟩
      · refine ⟨fun same => ?_, fun timely => absurd ⟨timely.1, timely.2.1⟩ inTime⟩
        cases same
  | lost works early lost =>
      refine ⟨_, finish_calls found _, ?_, ?_, ?_⟩ <;> simp [works, early, lost]
  | answered works early given =>
      refine ⟨_, finish_calls found _, ?_, ?_, ?_⟩ <;> simp [works, early, given]
  | waits works early pending =>
      refine ⟨call, found, ?_, ?_, ?_⟩ <;> simp [works, early, pending, waiting]

/-- A call that is set to end keeps its deadline, and the others stay. -/
theorem finish_keeps {index : Nat} {call : TimeoutRequest} (found : s.calls[index]? = some call)
    (waiting : call.ended = none) (ended : CallEnd) {other : Nat} {given : TimeoutRequest}
    (was : s.calls[other]? = some given) :
    ∃ next, (s.finish index call ended).calls[other]? = some next ∧
      next.timeout = given.timeout ∧ (given.ended ≠ none → next = given) := by
  by_cases same : index = other
  · subst same
    cases found.symm.trans was
    exact ⟨_, finish_calls found ended, rfl, fun finished => absurd waiting finished⟩
  · exact ⟨given, (List.getElem?_set_ne same).trans was, rfl, fun _ => rfl⟩

theorem step_keeps (s : LookupCalls) (event : Event) : s.Keeps event := by
  intro other given was
  have same : ∃ next, s.calls[other]? = some next ∧ next.timeout = given.timeout ∧
      (given.ended ≠ none → next = given) := ⟨given, was, rfl, fun _ => rfl⟩
  cases event with
  | findPeer peer now =>
      simp only [step, findPeer]
      split
      · obtain ⟨within, -⟩ := List.getElem?_eq_some_iff.mp was
        exact ⟨given, (List.getElem?_append_left within).trans was, rfl, fun _ => rfl⟩
      · exact same
  | poll index timerFails now =>
      simp only [step, withCall]
      split
      · exact same
      · rename_i call found
        split
        · exact same
        · rename_i waiting
          unfold pollCall
          split
          · exact same
          · exact finish_keeps found waiting _ was
          · exact finish_keeps found waiting _ was
  | drop index =>
      simp only [step, withCall]
      split
      · exact same
      · rename_i call found
        split
        · exact same
        · rename_i waiting
          exact finish_keeps found waiting _ was
  | session event =>
      cases event with
      | request peer => exact same
      | cancel sender => exact same
      | _ =>
          simp only [step]
          split <;> exact same
  | handlerEnds => exact same

/-- In every order of events, each call of `find_peer` ends once: with an answer in time that a
registry has given for its peer, at its deadline, or with the connection or the handler that had
its request. -/
theorem calls_decided (events : List Event) :
    (Transition.run step init events).Accounted ∧
      Transition.Meets step (fun s event => s.Keeps event ∧ s.Decides event) init events := by
  have reached := Transition.run_invariant Inv step_inv init_inv events
  refine ⟨reached.accounted, ?_⟩
  refine Transition.meets_of_invariant ?_ step_inv init_inv events
  intro s event inv
  exact ⟨step_keeps s event, step_decides s event inv⟩

end LookupCalls

end HolePunch.Remote
