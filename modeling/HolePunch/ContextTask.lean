import Mathlib.Data.List.GetD
import Mathlib.Data.List.Perm.Basic
import HolePunch.Authenticity
import HolePunch.Library.Sync

set_option autoImplicit false

/- The context that the user polls for new streams and the task behind it, which accepts what the
strategies yield (`context.rs`), around everything else that runs on a peer. -/
namespace HolePunch

namespace Node

/-- What most steps of a peer leave alone: the streams passed to the context and the registries,
and the connections there are. -/
structure Keeps (before after : Node) : Prop where
  context : after.context = before.context
  registries : after.connections.registry.registries = before.connections.registry.registries
  connections : before.connections.connections <+: after.connections.connections

theorem Keeps.refl (s : Node) : s.Keeps s := ⟨rfl, rfl, List.prefix_refl _⟩

theorem newConnection_keeps (s : Node) (id : ConnectionId) : s.Keeps (s.newConnection id).2 := by
  rcases s.newConnection_cases id with ⟨reason, same⟩ | ⟨key, same⟩
  · rw [same]
    exact ⟨rfl, rfl, List.prefix_refl _⟩
  · rw [same]
    exact ⟨rfl, rfl, List.prefix_append _ _⟩

theorem Keeps.trans {first second third : Node} (before : first.Keeps second)
    (after : second.Keeps third) : first.Keeps third :=
  ⟨after.context.trans before.context, after.registries.trans before.registries,
    before.connections.trans after.connections⟩

end Node

namespace ContextInner

/-- What ends the task. -/
inductive Ending where
  | contextDropped
  | strategyFailed (reason : Error)
  | strategyEnded
  | strategiesEmpty
  /-- The runtime drops its tasks. -/
  | runtimeDropped
  deriving DecidableEq, Repr

/-- The future of a strategy that is done, by its place in the set, and what the strategy has
yielded: a connection, its end or an error. -/
abbrev Completion := Nat × Except Error (Option ConnectionId)

/-- `FuturesUnordered<StreamFuture<Strategy>>`: with its item a future gives back the strategy. -/
def pollStrategies (strategies : List Nat) (completion : Option Completion) :
    List Nat × Poll (Option (Option ConnectionId × Nat)) :=
  Futures.pollUnordered strategies (completion.map (fun done =>
    (done.1, done.2.map (fun con => (con, strategies.getD done.1 0)))))

/-- The loop of `poll`. It goes on while connections are ready. -/
def accept (node : Node) (strategies : List Nat) :
    List Completion → Except Ending (List Nat) × Node
  | [] =>
      match pollStrategies strategies none with
      | (_, .ready _) => (.error .strategiesEmpty, node)
      | _ => (.ok strategies, node)
  | completion :: rest =>
      match pollStrategies strategies (some completion) with
      | (_, .notReady) => (.ok strategies, node)
      | (_, .error reason) => (.error (.strategyFailed reason), node)
      | (left, .ready (some (some id, strat))) =>
          -- A connection without a key is logged and dropped.
          accept (node.newConnection id).2 (left ++ [strat]) rest
      | (_, .ready (some (none, _))) => (.error .strategyEnded, node)
      | (_, .ready none) => (.error .strategiesEmpty, node)

/-- All that a poll of the set can give. A strategy that has yielded something is given back. -/
theorem pollStrategies_cases (strategies : List Nat) (completion : Option Completion) :
    (strategies = [] ∧ pollStrategies strategies completion = ([], .ready none)) ∨
    (∃ left, pollStrategies strategies completion = (left, .notReady)) ∨
    (∃ left reason, pollStrategies strategies completion = (left, .error reason)) ∨
    ∃ left con strat, (left ++ [strat]).Perm strategies ∧
      pollStrategies strategies completion = (left, .ready (some (con, strat))) := by
  cases given : strategies with
  | nil => exact Or.inl ⟨rfl, rfl⟩
  | cons first rest =>
      rw [← given]
      cases completion with
      | none => exact Or.inr (Or.inl ⟨strategies, by rw [given]; rfl⟩)
      | some done =>
          obtain ⟨index, result⟩ := done
          by_cases inside : index < strategies.length
          · have polled : pollStrategies strategies (some (index, result)) = _ :=
              Futures.pollUnordered_of_lt inside
                (result.map (fun con => (con, strategies.getD index 0)))
            rw [polled]
            cases result with
            | error reason => exact Or.inr (Or.inr (Or.inl ⟨_, reason, rfl⟩))
            | ok con =>
                refine Or.inr (Or.inr (Or.inr ⟨_, con, _, ?_, rfl⟩))
                rw [List.getD_eq_getElem strategies 0 inside]
                exact List.perm_append_comm.trans (List.getElem_cons_eraseIdx_perm inside)
          · refine Or.inr (Or.inl ⟨strategies, ?_⟩)
            subst given
            simp only [pollStrategies, Option.map_some, Futures.pollUnordered, if_neg inside]

/-- What the loop ends the task with, given the strategies it started with. -/
def Ends (strategies : List Nat) (ending : Ending) : Prop :=
  (∃ reason, ending = .strategyFailed reason) ∨ ending = .strategyEnded ∨
    (ending = .strategiesEmpty ∧ strategies = [])

/-- The loop registers connections and nothing else. It keeps every strategy, and finds the
set empty only if it was given none. -/
theorem accept_spec {owner : PeerIdentifier} {node : Node} (inv : node.Inv owner)
    (strategies : List Nat) (completions : List Completion) :
    (accept node strategies completions).2.Inv owner ∧
      node.Keeps (accept node strategies completions).2 ∧
      match (accept node strategies completions).1 with
      | .ok left => left.Perm strategies
      | .error ending => Ends strategies ending := by
  induction completions generalizing node strategies with
  | nil =>
      cases strategies with
      | nil => exact ⟨inv, .refl node, Or.inr (Or.inr ⟨rfl, rfl⟩)⟩
      | cons first others => exact ⟨inv, .refl node, List.Perm.refl _⟩
  | cons completion rest ih =>
      rcases pollStrategies_cases strategies (some completion) with ⟨empty, polled⟩ |
        ⟨left, polled⟩ | ⟨left, reason, polled⟩ | ⟨left, con, strat, perm, polled⟩
      · simp only [accept, polled]
        exact ⟨inv, .refl node, Or.inr (Or.inr ⟨rfl, empty⟩)⟩
      · simp only [accept, polled]
        exact ⟨inv, .refl node, List.Perm.refl _⟩
      · simp only [accept, polled]
        exact ⟨inv, .refl node, Or.inl ⟨reason, rfl⟩⟩
      · cases con with
        | none =>
            simp only [accept, polled]
            exact ⟨inv, .refl node, Or.inr (Or.inl rfl)⟩
        | some id =>
            obtain ⟨kept, same, result⟩ :=
              ih (Node.newConnection_inv inv id).1 (left ++ [strat])
            simp only [accept, polled]
            refine ⟨kept, (node.newConnection_keeps id).trans same, ?_⟩
            split
            · rename_i last same
              rw [same] at result
              exact List.Perm.trans result perm
            · rename_i ending same
              rw [same] at result
              rcases result with failed | ended | ⟨_, empty⟩
              · exact Or.inl failed
              · exact Or.inr (Or.inl ended)
              · exact absurd empty
                  (List.append_ne_nil_of_right_ne_nil left (List.cons_ne_nil strat []))

end ContextInner

/-- `inner` is the set of strategies of the task, as long as it runs. `handle` joins the context
with the task, `newStreams` all holders of a `PassStreamToContext` with the context. The context is
alive as long as it receives streams. `polls` are the answers its user has got. -/
structure ContextRun where
  node : Node
  newConnectionHandles : { given : Nat // 0 < given }
  inner : Option (List Nat)
  ending : Option ContextInner.Ending
  handle : Sync.Oneshot Unit
  newStreams : Sync.Unbounded Stream
  polls : List (Poll (Option Stream))

namespace ContextRun

inductive Event where
  /-- Anything else that happens on the peer. -/
  | node (event : Node.Event)
  | pollContext
  | dropContext
  | pollInner (completions : List ContextInner.Completion)
  | dropInner
  /-- A holder of a `PassStreamToContext` clones it, or one that is neither the context nor its
  task is dropped. -/
  | clonePassStream
  | dropPassStream

/-- `Context::new` with its task spawned. Each handle of the context and the task hold a sender. -/
def init (localPeerIdentifier : PeerIdentifier) (authenticator : Authenticator)
    (registries : List RegistryProvider) (strategies : { given : Nat // 0 < given }) :
    ContextRun where
  node := Node.init localPeerIdentifier authenticator registries
  newConnectionHandles := strategies
  inner := some (List.range strategies.val)
  ending := none
  handle := Sync.Oneshot.channel
  newStreams := ⟨Channel.empty, strategies.val + 1, true⟩
  polls := []

/-- `PassStreamToContext::pass_stream` for the streams that a step of the peer passes. -/
def moved (s : ContextRun) (node : Node) : ContextRun :=
  { s with
    node := node
    newStreams := s.newStreams.sendAll (node.context.drop s.node.context.length) }

/-- `Context::poll`. -/
def poll (s : ContextRun) : Poll (Option Stream) × ContextRun :=
  let polled := s.handle.poll
  let s := { s with handle := polled.2 }
  if polled.1.settled then (.error (.custom "HolePunch::ContextInner dropped!"), s)
  else
    match s.newStreams.poll with
    | (.notReady, newStreams) => (.notReady, { s with newStreams := newStreams })
    | (.ready item, newStreams) => (.ready item, { s with newStreams := newStreams })

/-- Dropping the task tells the context. -/
def finishInner (s : ContextRun) (ending : ContextInner.Ending) : ContextRun :=
  { s with
    inner := none
    ending := some ending
    handle := s.handle.send ()
    newStreams := s.newStreams.dropSender }

/-- `ContextInner::poll`. -/
def pollInner (s : ContextRun) (strategies : List Nat)
    (completions : List ContextInner.Completion) : ContextRun :=
  if s.handle.pollCancel.settled then s.finishInner .contextDropped
  else
    match ContextInner.accept s.node strategies completions with
    | (.ok left, node) => { s.moved node with inner := some left }
    | (.error ending, node) => (s.moved node).finishInner ending

/-- `Context::drop`, and then its fields are dropped. -/
def dropContext (s : ContextRun) : ContextRun :=
  { s with
    node := { s.node with connections := { s.node.connections with
      registry := s.node.connections.registry.contextBeingDropped } }
    handle := s.handle.dropReceiver
    newStreams :=
      { s.newStreams.dropReceiver with
        senders := s.newStreams.senders - s.newConnectionHandles.val } }

/-- The senders that the context and its task hold. -/
def held (s : ContextRun) : Nat :=
  (if s.newStreams.receiver then s.newConnectionHandles.val else 0) +
    if s.inner.isSome then 1 else 0

/-- A context that has been dropped and a task that has ended are not polled again. Connections
are accepted by the task alone. -/
def step (s : ContextRun) : Event → ContextRun
  | .node (.accept _) => s
  | .node event => s.moved (s.node.step event)
  | .pollContext =>
      if s.newStreams.receiver then { s.poll.2 with polls := s.polls ++ [s.poll.1] } else s
  | .dropContext => if s.newStreams.receiver then s.dropContext else s
  | .pollInner completions =>
      match s.inner with
      | some strategies => s.pollInner strategies completions
      | none => s
  | .dropInner => if s.inner.isSome then s.finishInner .runtimeDropped else s
  | .clonePassStream =>
      if 0 < s.newStreams.senders then { s with newStreams := s.newStreams.cloneSender } else s
  | .dropPassStream =>
      if s.held < s.newStreams.senders then { s with newStreams := s.newStreams.dropSender } else s

/-- The streams that the user has got. -/
def yielded (s : ContextRun) : List Stream :=
  s.polls.filterMap (fun | .ready item => item | _ => none)

end ContextRun

end HolePunch
