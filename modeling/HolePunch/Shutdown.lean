import HolePunch.ContextStreams
import HolePunch.HandlerSurvival
import HolePunch.Startup

set_option autoImplicit false

/- The tasks of a running peer together, and what becomes of them when its context is dropped. -/
namespace HolePunch

/-- The registry is dropped, and the handler's end of the signal tells it so. -/
def RemoteTask.drop (task : RemoteTask) : RemoteTask :=
  { task with handler := task.handler.step task.context .drop }

def RemoteTask.step (task : RemoteTask) (event : Remote.HandlerRun.Event) : RemoteTask :=
  { task with handler := task.handler.step task.context event }

namespace MdnsTasks

variable {cache : Mdns.Cache}

def drop (tasks : MdnsTasks cache) : MdnsTasks cache :=
  { tasks with
    requests := tasks.requests.dropSender
    responder := tasks.responder.step tasks.context .dropRegistry }

/-- `MdnsRegistry::find_peer`. -/
def findPeer (tasks : MdnsTasks cache) (sender : Remote.ResultSender) (peer : PeerIdentifier) :
    MdnsTasks cache :=
  { tasks with requests := tasks.requests.sendAll [(sender, peer)] }

/-- The requests that a poll of the discovery finds are those in the channel, which has ended when
the registry is gone. -/
def pollDiscovery (tasks : MdnsTasks cache) (now : Nat) (responses : List Mdns.Response)
    (discovery : Mdns.SourceEnd) (timeouts : List (Nat × Except Unit Unit)) : MdnsTasks cache :=
  { tasks with
    requests := { tasks.requests with
      channel := ⟨tasks.requests.channel.history, []⟩ }
    discovery := tasks.discovery.step ⟨now, responses, discovery, timeouts,
      tasks.requests.channel.pending, if tasks.requests.senders = 0 then .finished else .notReady⟩ }

end MdnsTasks

namespace Peer

variable {cache : Mdns.Cache}

inductive Event where
  | context (event : ContextRun.Event)
  /-- The search for a peer reaches the mDNS registry. -/
  | findPeer (sender : Remote.ResultSender) (peer : PeerIdentifier)
  | remote (event : Remote.HandlerRun.Event)
  | discovery (now : Nat) (responses : List Mdns.Response) (discovery : Mdns.SourceEnd)
      (timeouts : List (Nat × Except Unit Unit))
  | responder (found : Mdns.ResponderRun.Turn)

def alive (s : Peer cache) : Bool := s.context.newStreams.receiver

/-- What the context and everything that outlives it look peers up in. -/
def lookup (s : Peer cache) : Registry := s.context.node.connections.registry

/-- With the context its registries are dropped, and nothing else drops them. -/
def dropContext (s : Peer cache) : Peer cache :=
  if s.alive then { s with
    context := s.context.step .dropContext
    remote := s.remote.map RemoteTask.drop
    mdns := s.mdns.map MdnsTasks.drop }
  else s

def step (s : Peer cache) : Event → Peer cache
  | .context .dropContext => s.dropContext
  | .context event => { s with context := s.context.step event }
  | .findPeer sender peer =>
      match s.lookup.findPeer peer with
      | .ready _ => s
      | .searchRemoteRegistries providers =>
          if .mdnsRegistry ∈ providers then
            { s with mdns := s.mdns.map (fun tasks => tasks.findPeer sender peer) }
          else s
  | .remote .drop => s
  | .remote event => { s with remote := s.remote.map (fun task => task.step event) }
  | .discovery now responses discovery timeouts => { s with
      mdns := s.mdns.map (fun tasks => tasks.pollDiscovery now responses discovery timeouts) }
  | .responder found => { s with
      mdns := s.mdns.map (fun tasks =>
        { tasks with responder := tasks.responder.step tasks.context (.turn found) }) }

end Peer

namespace ContextRun

variable {owner : PeerIdentifier} {strategies : { given : Nat // 0 < given }} {s : ContextRun}

/-- Nothing but the drop of the context stops its streams or takes its registries away. -/
theorem step_other (inv : s.Inv owner strategies) {event : Event} (other : event ≠ .dropContext) :
    (s.step event).newStreams.receiver = s.newStreams.receiver ∧
      (s.step event).node.connections.registry.registries =
        s.node.connections.registry.registries := by
  have moved : ∀ {node : Node}, s.node.Keeps node →
      (s.moved node).newStreams.receiver = s.newStreams.receiver ∧
        (s.moved node).node.connections.registry.registries =
          s.node.connections.registry.registries :=
    fun kept => ⟨s.newStreams.sendAll_receiver _, kept.registries⟩
  cases event with
  | node event =>
      have same := (s.node.step_grows event).2.1
      cases event with
      | accept id => exact ⟨rfl, rfl⟩
      | _ => exact ⟨s.newStreams.sendAll_receiver _, same⟩
  | pollContext =>
      simp only [step]
      split
      · rename_i alive
        rcases poll_cases inv alive with ⟨_, polled⟩ | ⟨_, _, _, _, _, polled⟩ |
          ⟨_, _, _, polled⟩ <;> rw [polled] <;> exact ⟨rfl, rfl⟩
      · exact ⟨rfl, rfl⟩
  | dropContext => exact absurd rfl other
  | pollInner completions =>
      simp only [step]
      split
      · rename_i set running
        unfold pollInner
        split
        · exact ⟨rfl, rfl⟩
        · obtain ⟨_, kept, _⟩ := ContextInner.accept_spec inv.node set completions
          split
          · rename_i left node accepted
            rw [accepted] at kept
            exact moved kept
          · rename_i ending node accepted
            rw [accepted] at kept
            exact moved kept
      · exact ⟨rfl, rfl⟩
  | dropInner =>
      simp only [step]
      split <;> exact ⟨rfl, rfl⟩
  | clonePassStream =>
      simp only [step]
      split <;> exact ⟨rfl, rfl⟩
  | dropPassStream =>
      simp only [step]
      split <;> exact ⟨rfl, rfl⟩

/-- Once the context is gone, its task ends with the next poll and accepts nothing in it. -/
theorem pollInner_of_dropped (inv : s.Inv owner strategies)
    (dropped : s.newStreams.receiver = false) (completions : List ContextInner.Completion) :
    (s.step (.pollInner completions)).inner = none ∧
      (s.step (.pollInner completions)).node = s.node := by
  simp only [step]
  split
  · have complete : s.handle.pollCancel.settled = true := by
      rw [Sync.Oneshot.pollCancel_settled, inv.handle, dropped]
      rfl
    rw [pollInner, if_pos complete]
    exact ⟨rfl, rfl⟩
  · exact ⟨‹_›, rfl⟩

end ContextRun

namespace Remote.HandlerRun

/-- A task that has stayed as it was or has ended. -/
def Settles (before after : HandlerTask) : Prop :=
  after = before ∨ (∃ reason, after = .failed reason) ∨ ∃ message, after = .panicked message

theorem Settles.trans {first second third : HandlerTask} (before : Settles first second)
    (after : Settles second third) : Settles first third := by
  rcases after with rfl | ended
  · exact before
  · exact Or.inr ended

/-- The error that a handler without its registry ends with. -/
def registryDropped : HandlerTask := .failed (.custom "Remote registry dropped")

theorem finish_settles {s : HandlerRun} {handler : ConnectionHandler}
    (running : s.task = .running handler) {outcome : ConnectionHandler.Outcome}
    (stays : ∀ next, outcome = .ok (.ok next) → next = handler) :
    Settles s.task (s.finish outcome).task := by
  match outcome with
  | .error message => exact Or.inr (Or.inr ⟨message, rfl⟩)
  | .ok (.error reason) => exact Or.inr (Or.inl ⟨reason, rfl⟩)
  | .ok (.ok next) =>
      rw [stays next rfl]
      exact Or.inl running.symm

/-- Whatever it waits for, a handler whose registry is gone connects to nobody. -/
theorem step_settles (context : ConnectionHandlerContext) {s : HandlerRun}
    (dropped : s.dropped = true) (event : Event) : Settles s.task (s.step context event).task := by
  have refuses : ∀ (rest : ConnectionHandler.Outcome) (next handler : ConnectionHandler),
      ConnectionHandler.unlessDropped s.dropped rest = .ok (.ok next) → next = handler := by
    intro rest next handler same
    rw [dropped] at same
    cases same
  unfold step
  split
  · exact Or.inl rfl
  · rename_i answer now running
    refine finish_settles running ?_
    intro next same
    unfold ConnectionHandler.pollRequestNextPeerAddr at same
    split at same
    · cases same
      rfl
    · cases same
      rfl
    · cases same
      rfl
    · split at same
      · cases same
      · cases same
        rfl
    · exact refuses _ next _ same
  · rename_i running
    exact finish_settles running (fun next same => refuses _ next _ same)
  · rename_i running
    exact finish_settles running (fun next same => refuses _ next _ same)
  · exact Or.inl rfl

theorem step_keeps_dropped (context : ConnectionHandlerContext) (s : HandlerRun) {event : Event}
    (other : event ≠ .drop) : (s.step context event).dropped = s.dropped := by
  unfold step
  split
  · exact absurd rfl other
  · exact finish_dropped s _
  · exact finish_dropped s _
  · exact finish_dropped s _
  · rfl

/-- The polls that a handler notices the drop in: all of a connection attempt or a connection, and
of the address resolution those that yield an address. -/
def Notices : ConnectionHandler → Event → Prop
  | .requestNextPeerAddr, .resolve (.addr _) _ => True
  | .connectToPeer _, .connect _ _ => True
  | .handleConnection _, .handle _ => True
  | _, _ => False

theorem step_of_notices (context : ConnectionHandlerContext) {s : HandlerRun}
    {handler : ConnectionHandler} (running : s.task = .running handler) (dropped : s.dropped = true)
    {event : Event} (notices : Notices handler event) :
    (s.step context event).task = registryDropped := by
  unfold Notices at notices
  split at notices
  · simp only [step, running, ConnectionHandler.pollRequestNextPeerAddr,
      ConnectionHandler.unlessDropped, dropped, ↓reduceIte]
    rfl
  · simp only [step, running, ConnectionHandler.pollConnectToPeer,
      ConnectionHandler.unlessDropped, dropped, ↓reduceIte]
    rfl
  · simp only [step, running, ConnectionHandler.pollHandleConnection,
      ConnectionHandler.unlessDropped, dropped, ↓reduceIte]
    rfl
  · exact notices.elim

end Remote.HandlerRun

/-- The discovery fails when the requests have ended. -/
theorem Mdns.Discovery.poll_of_finished {cache : Mdns.Cache} (s : Mdns.Discovery cache)
    {answers : Mdns.Answers} (finished : answers.requestRecv = .finished)
    (running : Mdns.Discovery cache) : s.poll answers ≠ .running running := by
  unfold Mdns.Discovery.poll
  intro same
  split at same
  · cases same
  · split at same
    · cases same
    · cases same
    · dsimp only at same
      split at same
      · cases same
      · rw [finished] at same
        cases same

namespace Peer

variable {cache : Mdns.Cache}

/-- Every task is told that the context is gone, and none before it is. -/
structure Inv (owner : PeerIdentifier) (s : Peer cache) : Prop where
  context : s.context.Inv owner strategies
  registries : s.alive = false → s.lookup.registries = []
  remote : ∀ task, s.remote = some task → task.handler.dropped = !s.alive
  requests : ∀ tasks, s.mdns = some tasks → tasks.requests.senders = if s.alive then 1 else 0
  shutdown : ∀ tasks, s.mdns = some tasks → tasks.responder.shutdown.complete = !s.alive
  responder : ∀ tasks, s.mdns = some tasks → tasks.responder.Inv tasks.context

theorem new_inv {surroundings : Surroundings} {localPeerIdentifier : PeerIdentifier}
    {config : Config} {peer : Peer cache}
    (started : new surroundings cache localPeerIdentifier config = .ok (.ok peer)) :
    peer.Inv localPeerIdentifier := by
  obtain ⟨_, _, remoteStarted, mdnsStarted, context⟩ := new_ok started
  have alive : peer.alive = true := by
    rw [alive, context]
    rfl
  have fresh : ∀ tasks, peer.mdns = some tasks → tasks.requests = Sync.Unbounded.unbounded ∧
      ∃ now, tasks.responder = Mdns.ResponderRun.start now := by
    intro tasks found
    rcases startMdns_ok mdnsStarted with ⟨_, same⟩ | ⟨_, given, _, same, _, responder, requests⟩
    · cases found.symm.trans same
    · cases found.symm.trans same
      exact ⟨requests, responder⟩
  refine ⟨?_, ?_, ?_, ?_, ?_, ?_⟩
  · rw [context]
    exact ContextRun.init_inv _ _ _ _
  · intro dropped
    cases alive.symm.trans dropped
  · intro task found
    rcases startRemote_ok remoteStarted with ⟨_, same⟩ | ⟨given, same, _, _, _, _, handler⟩
    · cases found.symm.trans same
    · cases found.symm.trans same
      rw [handler, alive]
      rfl
  · intro tasks found
    rw [(fresh tasks found).1, alive]
    rfl
  · intro tasks found
    obtain ⟨_, now, responder⟩ := fresh tasks found
    rw [responder, alive]
    rfl
  · intro tasks found
    obtain ⟨_, now, responder⟩ := fresh tasks found
    rw [responder]
    exact Mdns.ResponderRun.start_inv _ now

section

variable {owner : PeerIdentifier} {s : Peer cache}

theorem dropContext_inv (inv : s.Inv owner) : s.dropContext.Inv owner := by
  unfold dropContext
  split
  · rename_i alive
    have kept := ContextRun.step_inv inv.context .dropContext
    have same : s.context.step .dropContext = s.context.dropContext := if_pos alive
    rw [same] at kept ⊢
    refine ⟨kept, fun _ => rfl, ?_, ?_, ?_, ?_⟩
    · intro task found
      obtain ⟨before, held, rfl⟩ := Option.map_eq_some_iff.mp found
      cases before.handler.task <;> rfl
    · intro tasks found
      obtain ⟨before, held, rfl⟩ := Option.map_eq_some_iff.mp found
      have one := inv.requests before held
      rw [if_pos alive] at one
      simp only [MdnsTasks.drop, Sync.Unbounded.dropSender, one]
      rfl
    · intro tasks found
      obtain ⟨before, held, rfl⟩ := Option.map_eq_some_iff.mp found
      rfl
    · intro tasks found
      obtain ⟨before, held, rfl⟩ := Option.map_eq_some_iff.mp found
      exact Mdns.ResponderRun.step_inv (inv.responder before held) .dropRegistry
  · exact inv

/-- A step of the context that is not its end leaves the other tasks alone. -/
theorem context_inv (inv : s.Inv owner) {event : ContextRun.Event} (other : event ≠ .dropContext) :
    Inv owner { s with context := s.context.step event } := by
  obtain ⟨receiver, registries⟩ := ContextRun.step_other inv.context other
  have alive : (s.context.step event).newStreams.receiver = s.alive := receiver
  refine ⟨ContextRun.step_inv inv.context event, ?_, ?_, ?_, ?_, inv.responder⟩
  · intro dropped
    exact registries.trans (inv.registries (alive.symm.trans dropped))
  · intro task found
    exact (inv.remote task found).trans (congrArg not alive.symm)
  · intro tasks found
    simp only [Peer.alive, alive]
    exact inv.requests tasks found
  · intro tasks found
    exact (inv.shutdown tasks found).trans (congrArg not alive.symm)

/-- What else happens to the mDNS tasks drops none of their ends. -/
theorem mdns_inv (inv : s.Inv owner) {step : MdnsTasks cache → MdnsTasks cache}
    (kept : ∀ tasks, (step tasks).requests.senders = tasks.requests.senders ∧
      (step tasks).responder.shutdown.complete = tasks.responder.shutdown.complete ∧
      (tasks.responder.Inv tasks.context → (step tasks).responder.Inv (step tasks).context)) :
    Inv owner { s with mdns := s.mdns.map step } := by
  refine ⟨inv.context, inv.registries, inv.remote, ?_, ?_, ?_⟩
  · intro tasks found
    obtain ⟨before, held, rfl⟩ := Option.map_eq_some_iff.mp found
    exact (kept before).1.trans (inv.requests before held)
  · intro tasks found
    obtain ⟨before, held, rfl⟩ := Option.map_eq_some_iff.mp found
    exact (kept before).2.1.trans (inv.shutdown before held)
  · intro tasks found
    obtain ⟨before, held, rfl⟩ := Option.map_eq_some_iff.mp found
    exact (kept before).2.2 (inv.responder before held)

theorem remote_inv (inv : s.Inv owner) {event : Remote.HandlerRun.Event} (other : event ≠ .drop) :
    Inv owner { s with remote := s.remote.map (fun task => task.step event) } := by
  refine ⟨inv.context, inv.registries, ?_, inv.requests, inv.shutdown, inv.responder⟩
  intro task found
  obtain ⟨before, held, rfl⟩ := Option.map_eq_some_iff.mp found
  exact (Remote.HandlerRun.step_keeps_dropped _ _ other).trans (inv.remote before held)

theorem step_inv (inv : s.Inv owner) (event : Event) : (s.step event).Inv owner := by
  cases event with
  | context event =>
      cases event with
      | dropContext => exact dropContext_inv inv
      | _ => exact context_inv inv (fun same => by cases same)
  | findPeer sender peer =>
      simp only [step]
      split
      · exact inv
      · split
        · exact mdns_inv inv (fun tasks => ⟨tasks.requests.sendAll_senders _, rfl, id⟩)
        · exact inv
  | remote event =>
      cases event with
      | drop => exact inv
      | _ => exact remote_inv inv (fun same => by cases same)
  | discovery now responses discovery timeouts =>
      exact mdns_inv inv (fun tasks => ⟨rfl, rfl, id⟩)
  | responder found =>
      refine mdns_inv inv (fun tasks => ⟨rfl, ?_, ?_⟩)
      · exact Mdns.ResponderRun.turn_shutdown tasks.context tasks.responder found
      · exact fun kept => Mdns.ResponderRun.step_inv kept (.turn found)

/-- Once the context is gone it stays gone, and the handler is only ever polled. -/
theorem step_of_dropped (inv : s.Inv owner) (dropped : s.alive = false) (event : Event) :
    (s.step event).alive = false ∧ ((s.step event).remote = s.remote ∨
      ∃ polled, (s.step event).remote = s.remote.map (fun task => task.step polled)) := by
  cases event with
  | context event =>
      cases event with
      | dropContext =>
          have same : s.dropContext = s := if_neg (by rw [dropped]; exact Bool.false_ne_true)
          simp only [step, same]
          exact ⟨dropped, Or.inl trivial⟩
      | _ =>
          refine ⟨?_, Or.inl rfl⟩
          exact (ContextRun.step_other inv.context (fun same => by cases same)).1.trans dropped
  | findPeer sender peer =>
      simp only [step]
      split
      · exact ⟨dropped, Or.inl rfl⟩
      · split <;> exact ⟨dropped, Or.inl rfl⟩
  | remote event =>
      cases event with
      | drop => exact ⟨dropped, Or.inl rfl⟩
      | _ => exact ⟨dropped, Or.inr ⟨_, rfl⟩⟩
  | discovery now responses discovery timeouts => exact ⟨dropped, Or.inl rfl⟩
  | responder found => exact ⟨dropped, Or.inl rfl⟩

/-- Over any run after the drop, the handler stays as it was or ends. -/
theorem run_settles (inv : s.Inv owner) (dropped : s.alive = false) {task : RemoteTask}
    (held : s.remote = some task) (later : List Event) :
    ∃ after, (Transition.run step s later).remote = some after ∧
      Remote.HandlerRun.Settles task.handler.task after.handler.task := by
  let settled : Peer cache → Prop := fun reached => reached.Inv owner ∧ reached.alive = false ∧
    ∃ after, reached.remote = some after ∧
      Remote.HandlerRun.Settles task.handler.task after.handler.task
  have preserved : ∀ reached event, settled reached → settled (reached.step event) := by
    rintro reached event ⟨kept, gone, after, found, settles⟩
    obtain ⟨still, same | ⟨polled, same⟩⟩ := step_of_dropped kept gone event
    · exact ⟨step_inv kept event, still, after, same.trans found, settles⟩
    · refine ⟨step_inv kept event, still, after.step polled, by rw [same, found]; rfl, ?_⟩
      have told : after.handler.dropped = true := by
        rw [kept.remote after found, gone]
        rfl
      exact settles.trans (Remote.HandlerRun.step_settles after.context told polled)
  exact (Transition.run_invariant settled preserved
    ⟨inv, dropped, task, held, Or.inl rfl⟩ later).2.2

end

/-- While the context is there, no task ends for want of it. -/
structure Serving (s : Peer cache) : Prop where
  inner : s.context.ending ≠ some .contextDropped
  remote : ∀ task, s.remote = some task → task.handler.dropped = false
  requests : ∀ tasks, s.mdns = some tasks → 0 < tasks.requests.senders
  responder : ∀ tasks, s.mdns = some tasks → tasks.responder.machine ≠ .readyState

/-- Without the context only connected peers are found. Its task, the discovery and the responder
end with their next poll, and no connection is accepted in it. The handler of the remote registry
connects to nobody any more and ends as soon as it notices. -/
structure Stopping (s : Peer cache) : Prop where
  lookups : ∀ peer,
    (∃ handle, s.lookup.findPeer peer = .ready (.foundWithHandle handle)) ∨
    ∃ futures, s.lookup.findPeer peer = .searchRemoteRegistries futures ∧
      ∀ completion, SearchRemoteRegistries.turn futures completion = .ready .notFound
  inner : ∀ completions, (s.step (.context (.pollInner completions))).context.inner = none ∧
    (s.step (.context (.pollInner completions))).context.node = s.context.node
  discovery : ∀ now responses ended timeouts tasks,
    (s.step (.discovery now responses ended timeouts)).mdns = some tasks →
      ∀ running, tasks.discovery ≠ .running running
  responder : ∀ found tasks, (s.step (.responder found)).mdns = some tasks →
    tasks.responder.machine = .readyState
  settles : ∀ task, s.remote = some task → ∀ later,
    ∃ after, (Transition.run step s later).remote = some after ∧
      Remote.HandlerRun.Settles task.handler.task after.handler.task
  notices : ∀ task handler, s.remote = some task → task.handler.task = .running handler →
    ∀ event, Remote.HandlerRun.Notices handler event →
      (task.step event).handler.task = Remote.HandlerRun.registryDropped

section

variable {owner : PeerIdentifier} {s : Peer cache}

theorem serving_of_alive (inv : s.Inv owner) (alive : s.alive = true) : s.Serving where
  inner := fun ended => Bool.false_ne_true ((inv.context.dropped ended).symm.trans alive)
  remote := fun task found => by rw [inv.remote task found, alive]; rfl
  requests := fun tasks found => by rw [inv.requests tasks found, if_pos alive]; exact Nat.one_pos
  responder := fun tasks found =>
    (inv.responder tasks found).alive (by rw [inv.shutdown tasks found, alive]; rfl)

theorem stopping_of_dropped (inv : s.Inv owner) (dropped : s.alive = false) : s.Stopping where
  lookups := by
    intro peer
    unfold Registry.findPeer
    split
    · rename_i handle token _
      exact Or.inl ⟨handle, rfl⟩
    · rw [inv.registries dropped]
      exact Or.inr ⟨[], rfl, fun _ => rfl⟩
  inner := ContextRun.pollInner_of_dropped inv.context dropped
  discovery := by
    intro now responses ended timeouts tasks found running
    obtain ⟨before, held, rfl⟩ := Option.map_eq_some_iff.mp found
    have none : before.requests.senders = 0 := by
      rw [inv.requests before held, dropped]
      rfl
    simp only [MdnsTasks.pollDiscovery, none, ↓reduceIte, Mdns.Task.step]
    cases before.discovery with
    | running discovery => exact Mdns.Discovery.poll_of_finished discovery rfl running
    | failed => exact fun same => by cases same
    | panicked message => exact fun same => by cases same
  responder := by
    intro turn tasks found
    obtain ⟨before, held, rfl⟩ := Option.map_eq_some_iff.mp found
    have complete : before.responder.shutdown.complete = true := by
      rw [inv.shutdown before held, dropped]
      rfl
    exact (Mdns.ResponderRun.turn_of_dropped complete turn).1
  settles := fun task held later => run_settles inv dropped held later
  notices := by
    intro task handler held running event notices
    have told : task.handler.dropped = true := by
      rw [inv.remote task held, dropped]
      rfl
    exact Remote.HandlerRun.step_of_notices task.context running told notices

end

/-- Whatever configuration a peer was started with and whatever has happened since, its tasks serve
it until its context is dropped, and then they stop. -/
theorem run_stops_with_context {surroundings : Surroundings}
    {localPeerIdentifier : PeerIdentifier} {config : Config} {peer : Peer cache}
    (started : new surroundings cache localPeerIdentifier config = .ok (.ok peer))
    (events : List Event) :
    let s := Transition.run step peer events
    (s.alive = true → s.Serving) ∧ (s.alive = false → s.Stopping) := by
  intro s
  have inv : s.Inv localPeerIdentifier :=
    Transition.run_invariant (Inv localPeerIdentifier) (fun _ event inv => step_inv inv event)
      (new_inv started) events
  exact ⟨serving_of_alive inv, stopping_of_dropped inv⟩

/-- A peer with both registries. -/
def bothConfig : Config :=
  { Config.builder with
    remotePeers := [.socketAddr ⟨.v4 1, 5000⟩]
    enableMdns := some "peers".toList }

theorem run_stops_with_context_both :
    ∃ peer : Peer Mdns.knownPeersCache,
      new localSurroundings Mdns.knownPeersCache (.ofByte 1) bothConfig = .ok (.ok peer) ∧
      peer.remote.isSome = true ∧ peer.mdns.isSome = true ∧
      (Transition.run step peer [.responder ⟨0, true, .notReady, false⟩]).Serving ∧
      (Transition.run step peer
        [.responder ⟨0, true, .notReady, false⟩, .context .dropContext]).Stopping := by
  have stops := fun peer => @run_stops_with_context Mdns.knownPeersCache localSurroundings
    (.ofByte 1) bothConfig peer
  exact ⟨_, rfl, rfl, rfl, (stops _ rfl _).1 rfl, (stops _ rfl _).2 rfl⟩

end Peer

end HolePunch
