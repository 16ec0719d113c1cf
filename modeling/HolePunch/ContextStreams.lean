import HolePunch.ContextTask

set_option autoImplicit false

/- What the user of a context gets, over all runs of the peer: the streams that were passed to it,
in their order, until the task behind it has ended. -/
namespace HolePunch

theorem Registry.unregisterPeer_registries (registry : Registry) (peer : PeerIdentifier)
    (token : RegistrationToken) :
    (registry.unregisterPeer peer token).registries = registry.registries := by
  unfold Registry.unregisterPeer
  split
  · split <;> rfl
  · rfl

namespace Node

theorem pollNewConnection_keeps (s : Node) (transport : Poll ConnectionId) :
    s.Keeps (s.pollNewConnection transport).2 := by
  unfold pollNewConnection
  split
  · exact .refl s
  · exact .refl s
  · rename_i id
    have kept := s.newConnection_keeps id
    dsimp only
    split <;> exact kept

theorem pollAttempt_keeps (s : Node) (stage : CreateConnectionToPeer) (timeout : TimeoutPoll)
    (attempt : Option (Nat × Poll ConnectionId)) :
    s.Keeps (s.pollAttempt stage timeout attempt).2 := by
  unfold pollAttempt
  split
  · rename_i transport
    split
    · have kept := s.pollNewConnection_keeps transport
      dsimp only
      split <;> exact kept
    · exact .refl s
  · exact .refl s

theorem pollConnect_keeps (s : Node) (index : Nat) (timeout : TimeoutPoll)
    (transport : Poll ConnectionId) (opened flushed : Poll Unit) :
    s.Keeps (s.pollConnect index timeout transport opened flushed) := by
  unfold pollConnect
  split
  · exact .refl s
  · rename_i purpose machine found
    generalize polled : (if machine.connect = some .waitForConnection ∧ timeout = .notReady then
      s.pollNewConnection transport else (.notReady, s)) = result
    have kept : s.Keeps result.2 := by
      rw [← polled]
      split
      · exact s.pollNewConnection_keeps transport
      · exact .refl s
    dsimp only
    split
    · exact kept
    · exact ⟨kept.context, kept.registries, kept.connections⟩
    · cases purpose <;> exact ⟨kept.context, kept.registries, kept.connections⟩
    · exact ⟨kept.context, kept.registries, kept.connections⟩

theorem pollCreate_keeps (s : Node) (index : Nat) (completion : Option (Nat × Option Nat))
    (attempt : Option (Nat × Poll ConnectionId)) (opened flushed : Poll Unit)
    (message : Poll (Option BuildConnectionToPeerProtocol)) (sent : SendPoll)
    (timeout : TimeoutPoll) (interfaces : List IpAddr) (localAddr : SocketAddr) :
    s.Keeps (s.pollCreate index completion attempt opened flushed message sent timeout interfaces
      localAddr) := by
  unfold pollCreate
  split
  · rename_i peer stage found
    have kept := s.pollAttempt_keeps stage timeout attempt
    dsimp only
    split <;> exact ⟨kept.context, kept.registries, kept.connections⟩
  · exact .refl s

/-- Streams are passed to the context one after the other and never taken back, nothing adds or
removes a registry, and connections only come up. -/
theorem step_grows (s : Node) (event : Event) : s.context <+: (s.step event).context ∧
    (s.step event).connections.registry.registries = s.connections.registry.registries ∧
    s.connections.connections <+: (s.step event).connections.connections := by
  have unchanged : ∀ {after : Node}, s.Keeps after → s.context <+: after.context ∧
      after.connections.registry.registries = s.connections.registry.registries ∧
      s.connections.connections <+: after.connections.connections :=
    fun kept => ⟨kept.context ▸ List.prefix_refl _, kept.registries, kept.connections⟩
  have still : ∀ {after : Node}, after.context = s.context → after.connections = s.connections →
      s.context <+: after.context ∧
      after.connections.registry.registries = s.connections.registry.registries ∧
      s.connections.connections <+: after.connections.connections := by
    intro after context same
    exact unchanged ⟨context, same ▸ rfl, same ▸ List.prefix_refl _⟩
  cases event with
  | verify handshake => exact unchanged ⟨rfl, rfl, List.prefix_refl _⟩
  | accept id => exact unchanged (s.newConnection_keeps id)
  | terminate number =>
      have same : (s.connections.terminate number).registry.registries =
            s.connections.registry.registries ∧
          (s.connections.terminate number).connections = s.connections.connections := by
        unfold Connections.terminate
        split
        · exact ⟨rfl, rfl⟩
        · split
          · exact ⟨rfl, rfl⟩
          · exact ⟨Registry.unregisterPeer_registries _ _ _, rfl⟩
      exact unchanged ⟨rfl, same.1, same.2 ▸ List.prefix_refl _⟩
  | incomingStream number timeout message =>
      simp only [step, incomingStream]
      split
      · exact still rfl rfl
      · split
        · exact ⟨List.prefix_append _ _, rfl, List.prefix_refl _⟩
        · exact still rfl rfl
        · exact still rfl rfl
  | remote index message sent interfaces localAddr =>
      simp only [step, remote]
      split
      · exact still rfl rfl
      · split <;> exact ⟨List.prefix_append _ _, rfl, List.prefix_refl _⟩
  | newStream from_ =>
      simp only [step, newStream]
      split <;> exact still rfl rfl
  | pollNewStream index opened flushed =>
      simp only [step, pollNewStream]
      split
      · exact still rfl rfl
      · split <;> exact still rfl rfl
  | connect purpose strategies addr =>
      simp only [step, connect]
      split <;> exact still rfl rfl
  | pollConnect index timeout transport opened flushed =>
      exact unchanged (s.pollConnect_keeps index timeout transport opened flushed)
  | findPeerRequest create isCanceled sent =>
      simp only [step, findPeerRequest]
      split
      · split <;> exact still rfl rfl
      · exact still rfl rfl
  | registryMessage message =>
      simp only [step, registryMessage]
      split <;> exact still rfl rfl
  | disconnect => exact still rfl rfl
  | create peer => exact still rfl rfl
  | pollCreate index completion attempt opened flushed message sent timeout interfaces localAddr =>
      exact unchanged (s.pollCreate_keeps index completion attempt opened flushed message sent
        timeout interfaces localAddr)

end Node

namespace ContextRun

structure Inv (owner : PeerIdentifier) (strategies : { given : Nat // 0 < given })
    (s : ContextRun) : Prop where
  node : s.node.Inv owner
  handles : s.newConnectionHandles = strategies
  inner : ∀ set, s.inner = some set → set.Perm (List.range strategies.val)
  ending : s.inner.isSome = s.ending.isNone
  notEmpty : s.ending ≠ some .strategiesEmpty
  dropped : s.ending = some .contextDropped → s.newStreams.receiver = false
  handle : s.handle.complete = (!s.newStreams.receiver || s.inner.isNone)
  senders : s.held ≤ s.newStreams.senders
  passed : s.newStreams.receiver = true → s.newStreams.channel.history = s.node.context
  before : s.newStreams.channel.history <+: s.node.context
  received : s.yielded = s.newStreams.channel.received
  open_ : .ready none ∉ s.polls

theorem init_inv (localPeerIdentifier : PeerIdentifier) (authenticator : Authenticator)
    (registries : List RegistryProvider) (strategies : { given : Nat // 0 < given }) :
    (init localPeerIdentifier authenticator registries strategies).Inv localPeerIdentifier
      strategies where
  node := Node.init_inv _ _ _
  handles := rfl
  inner := by
    intro set same
    cases same
    exact List.Perm.refl _
  ending := rfl
  notEmpty := fun same => by cases same
  dropped := fun same => by cases same
  handle := rfl
  senders := Nat.le_refl _
  passed := fun _ => rfl
  before := List.prefix_refl _
  received := rfl
  open_ := fun member => by cases member

section

variable {owner : PeerIdentifier} {strategies : { given : Nat // 0 < given }} {s : ContextRun}

/-- What a step of the peer passes reaches the context as long as it is there. -/
theorem moved_inv (inv : s.Inv owner strategies) {node : Node} (kept : node.Inv owner)
    (grown : s.node.context <+: node.context) : (s.moved node).Inv owner strategies := by
  obtain ⟨more, same⟩ := grown
  have dropped : node.context.drop s.node.context.length = more := by
    rw [← same, List.drop_left]
  have history : (s.moved node).newStreams.channel.history =
      if s.newStreams.receiver then s.newStreams.channel.history ++ more
      else s.newStreams.channel.history := by
    rw [← dropped]
    exact s.newStreams.sendAll_history _
  have receiver : (s.moved node).newStreams.receiver = s.newStreams.receiver :=
    s.newStreams.sendAll_receiver _
  refine { inv with
    node := kept
    dropped := receiver ▸ inv.dropped
    handle := receiver ▸ inv.handle
    senders := ?_
    passed := ?_
    before := ?_
    received := inv.received.trans (s.newStreams.sendAll_received _).symm }
  · rw [held, receiver]
    exact Nat.le_trans inv.senders (Nat.le_of_eq (s.newStreams.sendAll_senders _).symm)
  · intro alive
    rw [receiver] at alive
    rw [history, if_pos alive, inv.passed alive]
    exact same
  · rw [history]
    cases alive : s.newStreams.receiver with
    | false => exact inv.before.trans ⟨more, same⟩
    | true =>
        rw [if_pos rfl, inv.passed alive, same]
        exact List.prefix_refl _

theorem finishInner_inv (inv : s.Inv owner strategies) (running : s.inner.isSome = true)
    {ending : ContextInner.Ending} (given : ending ≠ .strategiesEmpty)
    (dropped : ending = .contextDropped → s.newStreams.receiver = false) :
    (s.finishInner ending).Inv owner strategies := by
  refine { inv with
    inner := ?_
    ending := ?_
    notEmpty := ?_
    dropped := fun same => dropped (Option.some.inj same)
    handle := ?_
    senders := ?_ }
  · intro set same
    cases same
  · rfl
  · intro same
    cases same
    exact given rfl
  · simp only [finishInner, Sync.Oneshot.send_complete, Option.isNone_none, Bool.or_true]
  · have bound := inv.senders
    rw [held, running, if_pos rfl] at bound
    exact Nat.le_sub_of_add_le bound

theorem pollInner_inv (inv : s.Inv owner strategies) {set : List Nat} (running : s.inner = some set)
    (completions : List ContextInner.Completion) :
    (s.pollInner set completions).Inv owner strategies := by
  have some : s.inner.isSome = true := by rw [running]; rfl
  unfold pollInner
  split
  · rename_i settled
    refine finishInner_inv inv some (fun same => by cases same) ?_
    intro _
    rw [Sync.Oneshot.pollCancel_settled, inv.handle, running] at settled
    simpa using settled
  · obtain ⟨kept, same, result⟩ := ContextInner.accept_spec inv.node set completions
    have next := moved_inv inv kept (same.context ▸ List.prefix_refl _)
    split
    · rename_i left node accepted
      rw [accepted] at next result
      refine { next with inner := ?_, ending := ?_, handle := ?_, senders := ?_ }
      · intro given same
        cases same
        exact List.Perm.trans result (inv.inner set running)
      · exact some.symm.trans next.ending
      · rw [next.handle]
        simp only [moved, running, Option.isNone_some]
      · have bound := next.senders
        simp only [held, moved, running, Option.isSome_some] at bound ⊢
        exact bound
    · rename_i ending node accepted
      rw [accepted] at next result
      have ends : ending ≠ .strategiesEmpty ∧ ending ≠ .contextDropped := by
        rcases result with ⟨reason, rfl⟩ | rfl | ⟨_, empty⟩
        · exact ⟨fun same => (by cases same), fun same => (by cases same)⟩
        · exact ⟨fun same => (by cases same), fun same => (by cases same)⟩
        · have perm := inv.inner set running
          rw [empty] at perm
          have none : strategies.val = 0 := by simpa using perm.length_eq.symm
          exact absurd none (Nat.pos_iff_ne_zero.mp strategies.property)
      exact finishInner_inv next some ends.1 (fun same => absurd same ends.2)

/-- As long as its task runs, a context that is polled has a sender of its own. -/
theorem poll_cases (inv : s.Inv owner strategies) (alive : s.newStreams.receiver = true) :
    (s.inner = none ∧
      s.poll = (.error (.custom "HolePunch::ContextInner dropped!"),
        { s with handle := s.handle.poll.2 })) ∨
    (∃ set stream rest, s.inner = some set ∧ s.newStreams.channel.pending = stream :: rest ∧
      s.poll = (.ready (some stream), { s with
        newStreams := { s.newStreams with channel := s.newStreams.channel.receive } })) ∨
    (∃ set, s.inner = some set ∧ s.newStreams.channel.pending = [] ∧ s.poll = (.notReady, s)) := by
  have complete : s.handle.complete = s.inner.isNone := by
    rw [inv.handle, alive]
    rfl
  rcases Option.eq_none_or_eq_some s.inner with ended | ⟨set, running⟩
  · refine Or.inl ⟨ended, ?_⟩
    unfold poll
    rw [if_pos (by rw [Sync.Oneshot.poll_settled, complete, ended]; rfl)]
  · have waits : s.handle.poll = (.notReady, s.handle) := by
      rw [Sync.Oneshot.poll, complete, running]
      rfl
    have sender : 0 < s.newStreams.senders := by
      have bound := inv.senders
      rw [held, alive, running] at bound
      exact Nat.lt_of_lt_of_le (Nat.succ_pos _) bound
    rcases Sync.Unbounded.poll_of_sender sender with ⟨stream, rest, pending, polled⟩ |
      ⟨pending, polled⟩
    · refine Or.inr (Or.inl ⟨set, stream, rest, running, pending, ?_⟩)
      simp only [poll, waits, polled, Futures.Poll.settled, Bool.false_eq_true, ↓reduceIte]
    · refine Or.inr (Or.inr ⟨set, running, pending, ?_⟩)
      simp only [poll, waits, polled, Futures.Poll.settled, Bool.false_eq_true, ↓reduceIte]

theorem pollContext_inv (inv : s.Inv owner strategies) (alive : s.newStreams.receiver = true) :
    Inv owner strategies { s.poll.2 with polls := s.polls ++ [s.poll.1] } := by
  have open_ : ∀ answer, answer ≠ Futures.Poll.ready none → .ready none ∉ s.polls ++ [answer] := by
    intro answer given member
    rcases List.mem_append.mp member with old | new
    · exact inv.open_ old
    · exact given (List.mem_singleton.mp new).symm
  rcases poll_cases inv alive with ⟨ended, polled⟩ | ⟨set, stream, rest, running, pending, polled⟩ |
    ⟨set, running, pending, polled⟩
  · rw [polled]
    refine { inv with handle := ?_, received := ?_, open_ := open_ _ (fun same => by cases same) }
    · exact (s.handle.poll_complete).trans inv.handle
    · simpa only [yielded, List.filterMap_append, List.filterMap_cons, List.filterMap_nil,
        List.append_nil] using inv.received
  · rw [polled]
    have next : s.newStreams.channel.next = some stream := by
      rw [Channel.next, pending]
      rfl
    refine { inv with
      passed := fun _ => (Channel.receive_history _).trans (inv.passed alive)
      before := (Channel.receive_history _).symm ▸ inv.before
      received := ?_
      open_ := open_ _ (fun same => by cases same) }
    have received := inv.received
    simp only [yielded] at received ⊢
    rw [List.filterMap_append, received, Channel.receive_received next]
    rfl
  · rw [polled]
    refine { inv with received := ?_, open_ := open_ _ (fun same => by cases same) }
    simpa only [yielded, List.filterMap_append, List.filterMap_cons, List.filterMap_nil,
      List.append_nil] using inv.received

theorem dropContext_inv (inv : s.Inv owner strategies) (alive : s.newStreams.receiver = true) :
    s.dropContext.Inv owner strategies := by
  have node : s.dropContext.node.Inv owner :=
    inv.node.grow rfl (inv.node.table.of_same rfl rfl rfl) inv.node.lengths inv.node.connection
      (List.prefix_refl _)
  refine { inv with
    node := node
    dropped := fun _ => rfl
    handle := rfl
    senders := ?_
    passed := fun receiving => by cases receiving }
  have bound := inv.senders
  rw [held, alive, if_pos rfl] at bound
  have kept : s.dropContext.held = if s.inner.isSome then 1 else 0 := Nat.zero_add _
  rw [kept]
  exact Nat.le_sub_of_add_le (by rw [Nat.add_comm]; exact bound)

theorem step_inv (inv : s.Inv owner strategies) (event : Event) :
    (s.step event).Inv owner strategies := by
  cases event with
  | node event =>
      have next := moved_inv inv (Node.step_inv inv.node event) (s.node.step_grows event).1
      cases event with
      | accept id => exact inv
      | _ => exact next
  | pollContext =>
      simp only [step]
      split
      · exact pollContext_inv inv ‹_›
      · exact inv
  | dropContext =>
      simp only [step]
      split
      · exact dropContext_inv inv ‹_›
      · exact inv
  | pollInner completions =>
      simp only [step]
      split
      · exact pollInner_inv inv ‹_› completions
      · exact inv
  | dropInner =>
      simp only [step]
      split
      · exact finishInner_inv inv ‹_› (fun same => by cases same) (fun same => by cases same)
      · exact inv
  | clonePassStream =>
      simp only [step]
      split
      · exact { inv with senders := Nat.le_succ_of_le inv.senders }
      · exact inv
  | dropPassStream =>
      simp only [step]
      split
      · exact { inv with senders := Nat.le_sub_one_of_lt ‹_› }
      · exact inv

end

theorem run_inv (localPeerIdentifier : PeerIdentifier) (authenticator : Authenticator)
    (registries : List RegistryProvider) (strategies : { given : Nat // 0 < given })
    (events : List Event) :
    (Transition.run step (init localPeerIdentifier authenticator registries strategies) events).Inv
      localPeerIdentifier strategies :=
  Transition.run_invariant (Inv localPeerIdentifier strategies)
    (fun _ event inv => step_inv inv event)
    (init_inv localPeerIdentifier authenticator registries strategies) events

/-- A context whose task has ended yields nothing more. -/
theorem ended_step {owner : PeerIdentifier} {strategies : { given : Nat // 0 < given }}
    {s : ContextRun} (inv : s.Inv owner strategies) (ended : s.inner = none) (event : Event) :
    (s.step event).inner = none ∧ (s.step event).yielded = s.yielded := by
  cases event with
  | node event => cases event <;> exact ⟨ended, rfl⟩
  | pollContext =>
      simp only [step]
      split
      · rename_i alive
        rcases poll_cases inv alive with ⟨_, polled⟩ | ⟨set, _, _, running, _⟩ | ⟨set, running, _⟩
        · rw [polled]
          refine ⟨ended, ?_⟩
          simp only [yielded, List.filterMap_append, List.filterMap_cons, List.filterMap_nil,
            List.append_nil]
        · cases running.symm.trans ended
        · cases running.symm.trans ended
      · exact ⟨ended, rfl⟩
  | dropContext =>
      simp only [step]
      split <;> exact ⟨ended, rfl⟩
  | pollInner completions =>
      simp only [step, ended]
      exact ⟨trivial, trivial⟩
  | dropInner =>
      simp only [step, ended]
      exact ⟨ended, rfl⟩
  | clonePassStream =>
      simp only [step]
      split <;> exact ⟨ended, rfl⟩
  | dropPassStream =>
      simp only [step]
      split <;> exact ⟨ended, rfl⟩

theorem ended_run {owner : PeerIdentifier} {strategies : { given : Nat // 0 < given }}
    {s : ContextRun} (inv : s.Inv owner strategies) (ended : s.inner = none)
    (later : List Event) : (Transition.run step s later).yielded = s.yielded := by
  let quiet : ContextRun → Prop := fun reached =>
    reached.Inv owner strategies ∧ reached.inner = none ∧ reached.yielded = s.yielded
  have preserved : ∀ reached event, quiet reached → quiet (reached.step event) := by
    rintro reached event ⟨kept, none, same⟩
    obtain ⟨still, nothing⟩ := ended_step kept none event
    exact ⟨step_inv kept event, still, nothing.trans same⟩
  exact (Transition.run_invariant quiet preserved ⟨inv, ended, rfl⟩ later).2.2

/-- What the next poll of the context is to give: the first stream that was passed and that its
user has not got yet, until the task has ended. -/
def due (s : ContextRun) : Poll (Option Stream) :=
  match s.ending with
  | some _ => .error (.custom "HolePunch::ContextInner dropped!")
  | none =>
      match s.node.context[s.yielded.length]? with
      | some stream => .ready (some stream)
      | none => .notReady

theorem poll_due {owner : PeerIdentifier} {strategies : { given : Nat // 0 < given }}
    {s : ContextRun} (inv : s.Inv owner strategies) (alive : s.newStreams.receiver = true) :
    s.poll.1 = s.due := by
  have ending := inv.ending
  unfold due
  rw [inv.received, ← inv.passed alive]
  rcases poll_cases inv alive with ⟨ended, polled⟩ | ⟨set, stream, rest, running, pending, polled⟩ |
    ⟨set, running, pending, polled⟩
  · rw [ended] at ending
    obtain ⟨reason, same⟩ := Option.isSome_iff_exists.mp (by simpa using ending)
    rw [same, polled]
  · rw [running] at ending
    have next : s.newStreams.channel.next = some stream := by
      rw [Channel.next, pending]
      rfl
    rw [Option.isNone_iff_eq_none.mp ending.symm, Channel.next_getElem? next, polled]
  · rw [running] at ending
    have past : s.newStreams.channel.history[s.newStreams.channel.received.length]? = none := by
      rw [Channel.history, pending, List.append_nil, List.getElem?_length]
    rw [Option.isNone_iff_eq_none.mp ending.symm, past, polled]

/-- The user of a context gets the streams that were passed to it, all of them in their order and
each once, and every direct one names the peer it leads to. A poll fails exactly when the task has
ended, and then no stream follows. The task keeps all strategies and ends with the context, with
the runtime or with a strategy, but never for want of one. -/
theorem run_yields_passed (localPeerIdentifier : PeerIdentifier) (authenticator : Authenticator)
    (registries : List RegistryProvider) (strategies : { given : Nat // 0 < given })
    (events : List Event) :
    let s := Transition.run step (init localPeerIdentifier authenticator registries strategies)
      events
    s.yielded <+: s.node.context ∧
      (∀ stream ∈ s.yielded, stream.Authentic localPeerIdentifier s.node.keys) ∧
      (s.newStreams.receiver = true → s.poll.1 = s.due) ∧
      (s.ending = none → ∃ set, s.inner = some set ∧ set.Perm (List.range strategies.val)) ∧
      (∀ ending, s.ending = some ending → ending ≠ .strategiesEmpty ∧
        (ending = .contextDropped → s.newStreams.receiver = false) ∧
        ∀ later, (Transition.run step s later).yielded = s.yielded) := by
  intro s
  have inv : s.Inv _ _ := run_inv localPeerIdentifier authenticator registries strategies events
  have ordered : s.yielded <+: s.node.context := by
    rw [inv.received]
    exact s.newStreams.channel.received_prefix.trans inv.before
  refine ⟨ordered, ?_, poll_due inv, ?_, ?_⟩
  · intro stream member
    exact inv.node.context stream (ordered.subset member)
  · intro running
    have some := inv.ending
    rw [running] at some
    obtain ⟨set, same⟩ := Option.isSome_iff_exists.mp some
    exact ⟨set, same, inv.inner set same⟩
  · intro ending same
    have none := inv.ending
    rw [same] at none
    refine ⟨?_, ?_, ended_run inv (Option.not_isSome_iff_eq_none.mp (by simp [none]))⟩
    · rintro rfl
      exact inv.notEmpty same
    · rintro rfl
      exact inv.dropped same

open Connections (alice bob handshake)

/-- Bob connects and opens two user streams, of which the user takes one before the only strategy
fails. -/
def strategyFails : List Event :=
  [.node (.verify (handshake 1 bob)), .pollInner [(0, .ok (some 1))],
    .node (.incomingStream 0 .notReady (.ready (some (.user bob)))), .pollContext,
    .node (.incomingStream 0 .notReady (.ready (some (.user bob)))),
    .pollInner [(0, .error (.custom "endpoint"))]]

theorem run_yields_passed_strategyFails :
    let s := Transition.run step (init alice (Authenticator.new false false) [] ⟨1, by decide⟩)
      strategyFails
    s.yielded.length = 1 ∧ s.node.context.length = 2 ∧
      s.poll.1 = .error (.custom "HolePunch::ContextInner dropped!") ∧
      ∀ later, (Transition.run step s later).yielded.length = 1 := by
  intro s
  obtain ⟨_, _, answer, _, ended⟩ := run_yields_passed alice (Authenticator.new false false) []
    ⟨1, by decide⟩ strategyFails
  have one : s.yielded.length = 1 := by decide
  have ending : s.ending = some (.strategyFailed (.custom "endpoint")) := by decide
  refine ⟨one, by decide, (answer (by decide)).trans (by decide), ?_⟩
  intro later
  exact (congrArg List.length ((ended _ ending).2.2 later)).trans one

end ContextRun

end HolePunch
