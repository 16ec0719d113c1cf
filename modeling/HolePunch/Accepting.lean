import Mathlib.Data.List.Perm.Subperm
import HolePunch.ConnectDeadlines
import HolePunch.ContextStreams
import HolePunch.WireBytes

set_option autoImplicit false

/- The streams that remote peers open, from the loop that accepts them (`connection.rs`) to what
their hello makes the peer do (`incoming_stream.rs`): each is a task of its own that reads bytes
against a deadline. The peer as a whole sees them as single events. -/
namespace HolePunch

open LengthDelimited (Bytes frame)
open Remote (second Now)

/-- How long `Connection::poll` gives the other side for its hello. -/
def incomingTimeout : Nat := 10 * second

/-- How the task of an incoming stream has ended. A served stream goes on as `rest`. -/
inductive IncomingEnd where
  | served (effect : IncomingStream.Effect) (rest : ByteStream) (moment : Nat)
  | unserved
  | failed (reason : Error)
  | panicked (message : String)
  deriving DecidableEq, Repr

/-- The task of an incoming stream on the connection `number`. `arrived` are all bytes that have
come for it until it ended, and `closed` is set when the other side sends no more. -/
structure AcceptedStream where
  number : Nat
  incoming : IncomingStream
  timeout : Timeout
  framed : Framed
  arrived : Bytes
  closed : Bool
  outcome : Option IncomingEnd
  deriving Repr

namespace AcceptedStream

def new (number : Nat) (connection : Connection) (now : Now) : AcceptedStream where
  number := number
  incoming := connection.incomingStream
  timeout := Timeout.new incomingTimeout now
  framed := Framed.new (ByteStream.new [])
  arrived := []
  closed := false
  outcome := none

/-- After the end of the task the bytes are for whoever has the stream. -/
def arrive (s : AcceptedStream) (chunk : Bytes) : AcceptedStream :=
  match s.outcome with
  | some _ => s
  | none => { s with
      framed := { s.framed with io := s.framed.io.arrive chunk }
      arrived := s.arrived ++ chunk }

def close (s : AcceptedStream) : AcceptedStream :=
  match s.outcome with
  | some _ => s
  | none => { s with closed := true }

/-- What the stream gives to a turn of `IncomingStream::poll`. -/
def message (json : Json StreamHello) (s : AcceptedStream) (room : Nat) :
    Poll (Option StreamHello) :=
  Wire.message json (s.framed.asked s.closed room).1

/-- One turn of `IncomingStream::poll`. -/
def poll (json : Json StreamHello) (s : AcceptedStream) (room : Nat) (timerFails : Bool)
    (now : Now) : IncomingStream.Effect × AcceptedStream :=
  let framed := (s.framed.asked s.closed room).2
  match s.incoming.poll (s.timeout.poll timerFails now) (s.message json room) with
  | (.notReady, effect) => (effect, { s with framed := framed })
  | (.transition next, effect) => (effect, { s with framed := framed, incoming := next })
  | (.ready (), .nothing) => (.nothing, { s with outcome := some .unserved })
  | (.ready (), effect) =>
      (effect, { s with outcome := some (.served effect framed.into now.nanos) })
  | (.error reason, effect) => (effect, { s with outcome := some (.failed reason) })
  | (.panic text, effect) => (effect, { s with outcome := some (.panicked text) })

/-- The stream that the task has passed to the context. -/
def passed (s : AcceptedStream) : Option Stream :=
  match s.outcome with
  | some (.served (.passStream stream) _ _) => some stream
  | _ => none

end AcceptedStream

/-- What a hello makes of the peer. -/
def Node.serve (s : Node) : IncomingStream.Effect → Node
  | .passStream stream => { s with context := s.context ++ [stream] }
  | .buildConnectionToPeerRemote remote => { s with remotes := s.remotes ++ [remote] }
  | _ => s

/-- A peer with the tasks of its incoming streams. -/
structure Accepting where
  node : Node
  streams : List AcceptedStream

namespace Accepting

inductive Event where
  | node (event : Node.Event)
  /-- One turn of the loop of `Connection::poll`, with what the transport connection answers. -/
  | connection (number : Nat) (answer : Poll (Option Unit)) (now : Now)
  | arrive (index : Nat) (chunk : Bytes)
  | close (index : Nat)
  | poll (index : Nat) (room : Nat) (timerFails : Bool) (now : Now)

def init (localPeerIdentifier : PeerIdentifier) (authenticator : Authenticator)
    (registries : List RegistryProvider) : Accepting :=
  ⟨Node.init localPeerIdentifier authenticator registries, []⟩

/-- A connection that has completed is not polled again. -/
def accept (s : Accepting) (number : Nat) (now : Now) : Accepting :=
  match s.node.connections.connections[number]? with
  | none => s
  | some connection =>
      if number ∈ s.node.connections.terminated then s
      else { s with streams := s.streams ++ [AcceptedStream.new number connection now] }

def withStream (s : Accepting) (index : Nat) (change : AcceptedStream → AcceptedStream) :
    Accepting :=
  match s.streams[index]? with
  | none => s
  | some task => { s with streams := s.streams.set index (change task) }

def pollStream (json : Json StreamHello) (s : Accepting) (index room : Nat) (timerFails : Bool)
    (now : Now) : Accepting :=
  match s.streams[index]? with
  | none => s
  | some task =>
      match task.outcome with
      | some _ => s
      | none =>
          let polled := task.poll json room timerFails now
          ⟨s.node.serve polled.1, s.streams.set index polled.2⟩

def step (json : Json StreamHello) (s : Accepting) : Event → Accepting
  | .node (.incomingStream _ _ _) => s
  | .node (.terminate _) => s
  | .node event => { s with node := s.node.step event }
  | .connection _ .notReady _ => s
  | .connection number (.ready (some ())) now => s.accept number now
  | .connection number _ _ => { s with node := s.node.step (.terminate number) }
  | .arrive index chunk => s.withStream index (·.arrive chunk)
  | .close index => s.withStream index (·.close)
  | .poll index room timerFails now => s.pollStream json index room timerFails now

/-- What the peer as a whole sees of a step. -/
def seen (json : Json StreamHello) (s : Accepting) : Event → List Node.Event
  | .node (.incomingStream _ _ _) => []
  | .node (.terminate _) => []
  | .node event => [event]
  | .connection _ .notReady _ => []
  | .connection _ (.ready (some ())) _ => []
  | .connection number _ _ => [.terminate number]
  | .arrive _ _ => []
  | .close _ => []
  | .poll index room timerFails now =>
      match s.streams[index]? with
      | none => []
      | some task =>
          match task.outcome with
          | some _ => []
          | none =>
              [.incomingStream task.number (task.timeout.poll timerFails now)
                (task.message json room)]

/-- What a task has made of its bytes: it is served only in time and as the hello says that its
bytes begin with, and the stream goes on with all that follows the hello. -/
structure Serves (json : Json StreamHello) (node : Node) (task : AcceptedStream) : Prop where
  connection : ∃ connection, node.connections.connections[task.number]? = some connection ∧
    task.incoming = connection.incomingStream
  waiting : task.outcome = none → task.framed.unread = task.arrived
  panics : ∀ text, task.outcome ≠ some (.panicked text)
  served : ∀ effect rest moment, task.outcome = some (.served effect rest moment) →
    moment < task.timeout.deadline ∧ ∃ payload hello,
      task.arrived = frame payload ++ rest.pending ∧ json.decode payload = some hello ∧
      effect = (task.incoming.poll .notReady (.ready (some hello))).2

/-- What a step may make of a task: its deadline stays, and one that has ended is not touched
again. -/
def Follows (task next : AcceptedStream) : Prop :=
  next.number = task.number ∧ next.timeout = task.timeout ∧ task.arrived <+: next.arrived ∧
    (task.outcome ≠ none → next = task)

/-- A task is made only for a stream that has come over a connection, before its end. -/
def Accepts (json : Json StreamHello) (s : Accepting) (event : Event) : Prop :=
  ∀ (index : Nat) (task : AcceptedStream), s.streams[index]? = none →
    (s.step json event).streams[index]? = some task →
    ∃ now : Now, event = .connection task.number (.ready (some ())) now ∧
      task.number ∉ s.node.connections.terminated ∧
      task.timeout.deadline = now.nanos + incomingTimeout

end Accepting

theorem Wire.decode_of_message {json : Json StreamHello} {payload : Bytes} {hello : StreamHello}
    (given : message json (.ready (some payload)) = .ready (some hello)) :
    json.decode payload = some hello := by
  simp only [message] at given
  split at given
  · rename_i decoded
    cases given
    exact decoded
  · cases given

/-- All that a poll can do while the stream has not been taken. -/
theorem IncomingStream.poll_cases {s : IncomingStream} {stream : Strategies.Stream}
    (held : s.stream = some stream) (timeout : TimeoutPoll) (message : Poll (Option StreamHello)) :
    (timeout = .error ∧ s.poll timeout message =
      (.error (.custom "timeout at IncomingStream::poll()"), .nothing)) ∨
    (timeout = .notReady ∧
      ((message = .notReady ∧ s.poll timeout message = (.notReady, .nothing)) ∨
      (∃ reason, message = .error reason ∧ s.poll timeout message = (.error reason, .nothing)) ∨
      (message = .ready none ∧ s.poll timeout message = (.ready (), .nothing)) ∨
      ∃ hello, message = .ready (some hello) ∧ (s.poll timeout message).1 = .ready () ∧
        (s.poll timeout message).2 ≠ .nothing)) := by
  cases timeout with
  | error => exact Or.inl ⟨rfl, rfl⟩
  | notReady =>
      refine Or.inr ⟨rfl, ?_⟩
      cases message with
      | notReady => exact Or.inl ⟨rfl, by simp only [poll, held]⟩
      | error reason => exact Or.inr (Or.inl ⟨reason, rfl, by simp only [poll, held]⟩)
      | ready found =>
          refine Or.inr (Or.inr ?_)
          cases found with
          | none => exact Or.inl ⟨rfl, by simp only [poll, held]⟩
          | some hello =>
              refine Or.inr ⟨hello, rfl, ?_⟩
              cases hello <;> simp [poll, held]

namespace AcceptedStream

variable {json : Json StreamHello} {s : AcceptedStream}

/-- The effect of a poll that reads the hello in time. -/
def Served (json : Json StreamHello) (s : AcceptedStream) (now : Now)
    (polled : IncomingStream.Effect × AcceptedStream) : Prop :=
  ∃ payload hello rest, now.nanos < s.timeout.deadline ∧
    s.framed.unread = frame payload ++ ByteStream.pending rest ∧
    json.decode payload = some hello ∧
    polled.1 = (s.incoming.poll .notReady (.ready (some hello))).2 ∧
    polled.2 = { s with outcome := some (.served polled.1 rest now.nanos) }

/-- The end of a task that has done nothing. -/
def Fruitless (ended : IncomingEnd) : Prop :=
  ended = .unserved ∨ ∃ reason, ended = .failed reason

/-- All that a turn can do: it waits for more bytes, it ends the task without an effect, or it
reads the hello. -/
theorem poll_cases {stream : Strategies.Stream} (held : s.incoming.stream = some stream)
    (bounded : s.framed.codec.Bounded) (room : Nat) (timerFails : Bool) (now : Now) :
    (∃ framed : Framed, framed.codec.Bounded ∧ framed.unread = s.framed.unread ∧
      s.poll json room timerFails now = (.nothing, { s with framed := framed })) ∨
    (∃ ended, Fruitless ended ∧
      s.poll json room timerFails now = (.nothing, { s with outcome := some ended })) ∨
    s.Served json now (s.poll json room timerFails now) := by
  obtain ⟨given, kept⟩ := Framed.asked_unread bounded s.closed room
  rcases IncomingStream.poll_cases held (s.timeout.poll timerFails now) (s.message json room) with
    ⟨-, polled⟩ | ⟨pending, ⟨waits, polled⟩ | ⟨reason, -, polled⟩ | ⟨-, polled⟩ |
      ⟨hello, hears, done, serves⟩⟩
  · refine Or.inr (Or.inl ⟨.failed (.custom "timeout at IncomingStream::poll()"),
      Or.inr ⟨_, rfl⟩, ?_⟩)
    simp only [poll, polled]
  · obtain ⟨still, same⟩ := kept (Wire.message_notReady waits)
    refine Or.inl ⟨_, still, same.symm, ?_⟩
    simp only [poll, polled]
  · refine Or.inr (Or.inl ⟨.failed reason, Or.inr ⟨reason, rfl⟩, ?_⟩)
    simp only [poll, polled]
  · refine Or.inr (Or.inl ⟨.unserved, Or.inl rfl, ?_⟩)
    simp only [poll, polled]
  · obtain ⟨payload, turned⟩ := Wire.message_some hears
    have decoded : json.decode payload = some hello := by
      refine Wire.decode_of_message ?_
      rw [← turned]
      exact hears
    have polled : s.poll json room timerFails now =
        ((s.incoming.poll .notReady (.ready (some hello))).2, { s with
          outcome := some (.served (s.incoming.poll .notReady (.ready (some hello))).2
            (s.framed.asked s.closed room).2.into now.nanos) }) := by
      rw [pending, hears] at done serves
      simp only [poll, pending, hears]
      split <;> simp_all
    refine Or.inr (Or.inr ⟨payload, hello, _, Timeout.poll_notReady pending,
      (given payload turned).2, decoded, ?_, ?_⟩)
    · rw [polled]
    · rw [polled]

end AcceptedStream

/-- What takes the place of a task adds what it has passed. -/
theorem filterMap_set_perm {α β : Type} {f : α → Option β} {old new : α} {items : List α}
    {index : Nat} (found : items[index]? = some old) (nothing : f old = none) :
    ((items.set index new).filterMap f).Perm (items.filterMap f ++ (f new).toList) := by
  induction items generalizing index with
  | nil => cases found
  | cons first rest ih =>
      cases index with
      | zero =>
          cases found
          rw [List.set_cons_zero, List.filterMap_cons, List.filterMap_cons, nothing]
          cases f new with
          | none => simp
          | some value => simpa using (List.perm_append_singleton value (rest.filterMap f)).symm
      | succ index =>
          have later := ih found
          rw [List.set_cons_succ, List.filterMap_cons, List.filterMap_cons]
          cases f first with
          | none => exact later
          | some value => exact later.cons value

namespace Accepting

variable {json : Json StreamHello} {s : Accepting}

/-- A task that serves its bytes, with what its reader keeps. -/
structure Sound (json : Json StreamHello) (node : Node) (task : AcceptedStream) : Prop where
  serves : Serves json node task
  bounded : task.outcome = none → task.framed.codec.Bounded

structure Inv (json : Json StreamHello) (s : Accepting) : Prop where
  sound : ∀ task ∈ s.streams, Sound json s.node task
  passed : (s.streams.filterMap AcceptedStream.passed).Subperm s.node.context

/-- The connections of a peer stay, whatever it does. -/
theorem Sound.grown {node after : Node} {task : AcceptedStream} (sound : Sound json node task)
    (grown : node.connections.connections <+: after.connections.connections) :
    Sound json after task := by
  obtain ⟨connection, found, same⟩ := sound.serves.connection
  refine ⟨{ sound.serves with connection := ⟨connection, ?_, same⟩ }, sound.bounded⟩
  obtain ⟨within, at_⟩ := List.getElem?_eq_some_iff.mp found
  rw [List.prefix_iff_getElem?.mp grown task.number within, at_]

theorem Inv.moved (inv : s.Inv json) (event : Node.Event) :
    Inv json { s with node := s.node.step event } := by
  obtain ⟨context, -, connections⟩ := s.node.step_grows event
  exact ⟨fun task member => (inv.sound task member).grown connections,
    inv.passed.trans context.sublist.subperm⟩

theorem Inv.accept (inv : s.Inv json) (number : Nat) (now : Now) :
    (s.accept number now).Inv json := by
  unfold Accepting.accept
  split
  · exact inv
  · rename_i connection found
    split
    · exact inv
    · refine ⟨?_, ?_⟩
      · intro task member
        rcases List.mem_append.mp member with earlier | last
        · exact inv.sound task earlier
        · cases List.mem_singleton.mp last
          refine ⟨⟨⟨connection, found, rfl⟩, fun _ => rfl, ?_, ?_⟩, fun _ => trivial⟩
          · intro text impossible
            cases impossible
          · intro effect rest moment impossible
            cases impossible
      · change (List.filterMap AcceptedStream.passed (s.streams ++ [_])).Subperm s.node.context
        rw [List.filterMap_append]
        exact (List.append_nil _).symm ▸ inv.passed

section Tasks

variable {index : Nat} {task next : AcceptedStream} {node : Node}

/-- A running task is replaced by what a step has made of it. -/
theorem Inv.set (inv : s.Inv json) (found : s.streams[index]? = some task)
    (waiting : task.outcome = none)
    (grown : s.node.connections.connections <+: node.connections.connections)
    (sound : Sound json node next)
    (context : s.node.context ++ next.passed.toList = node.context) :
    Inv json ⟨node, s.streams.set index next⟩ := by
  have nothing : task.passed = none := by
    rw [AcceptedStream.passed, waiting]
  refine ⟨?_, ?_⟩
  · intro other member
    rcases List.mem_or_eq_of_mem_set member with earlier | rfl
    · exact (inv.sound other earlier).grown grown
    · exact sound
  · change ((s.streams.set index next).filterMap AcceptedStream.passed).Subperm node.context
    rw [← context]
    exact (filterMap_set_perm found nothing).subperm.trans
      ((List.subperm_append_right _).mpr inv.passed)

theorem Sound.arrive (sound : Sound json node task) (waiting : task.outcome = none)
    (chunk : Bytes) : Sound json node (task.arrive chunk) := by
  have arrived : task.arrive chunk = { task with
      framed := { task.framed with io := task.framed.io.arrive chunk }
      arrived := task.arrived ++ chunk } := by
    simp only [AcceptedStream.arrive, waiting]
  rw [arrived]
  refine ⟨⟨sound.serves.connection, ?_, ?_, ?_⟩, sound.bounded⟩
  · intro _
    change task.framed.codec.taken ++
      (task.framed.readBuf ++ (task.framed.io.arrive chunk).pending) = task.arrived ++ chunk
    rw [ByteStream.arrive_pending, ← sound.serves.waiting waiting, Framed.unread]
    simp only [List.append_assoc]
  · exact sound.serves.panics
  · intro effect rest moment served
    rw [waiting] at served
    cases served

theorem Sound.close (sound : Sound json node task) (waiting : task.outcome = none) :
    Sound json node task.close := by
  have closed : task.close = { task with closed := true } := by
    simp only [AcceptedStream.close, waiting]
  rw [closed]
  exact ⟨⟨sound.serves.connection, sound.serves.waiting, sound.serves.panics, sound.serves.served⟩,
    sound.bounded⟩

/-- A task that has ended is not changed by what comes for it. -/
theorem set_same (found : s.streams[index]? = some task) :
    s.streams.set index task = s.streams := by
  obtain ⟨within, same⟩ := List.getElem?_eq_some_iff.mp found
  rw [← same]
  exact List.set_getElem_self within

theorem Inv.withStream (inv : s.Inv json) (index : Nat) {change : AcceptedStream → AcceptedStream}
    (ended : ∀ task, task.outcome ≠ none → change task = task)
    (kept : ∀ task, task.outcome = none → (change task).outcome = none ∧
      (Sound json s.node task → Sound json s.node (change task))) :
    (s.withStream index change).Inv json := by
  unfold Accepting.withStream
  split
  · exact inv
  · rename_i task found
    have sound := inv.sound task (List.mem_of_getElem? found)
    cases outcome : task.outcome with
    | some done =>
        have same : change task = task := ended task (by rw [outcome]; exact Option.some_ne_none _)
        rw [same, set_same found]
        exact inv
    | none =>
        obtain ⟨still, next⟩ := kept task outcome
        refine inv.set found outcome (List.prefix_refl _) (next sound) ?_
        rw [AcceptedStream.passed, still]
        exact List.append_nil _

theorem serve_context {effect : IncomingStream.Effect} {rest : ByteStream} {moment : Nat}
    (outcome : next.outcome = some (.served effect rest moment)) (node : Node) :
    node.context ++ next.passed.toList = (node.serve effect).context := by
  rw [AcceptedStream.passed, outcome]
  cases effect with
  | passStream stream => rfl
  | _ => exact List.append_nil _

theorem serve_connections (node : Node) (effect : IncomingStream.Effect) :
    (node.serve effect).connections = node.connections := by
  cases effect <;> rfl

theorem Serves.held (serves : Serves json node task) :
    ∃ stream, task.incoming.stream = some stream := by
  obtain ⟨connection, -, same⟩ := serves.connection
  rw [same]
  exact ⟨_, rfl⟩

theorem Inv.polled (inv : s.Inv json) (found : s.streams[index]? = some task)
    (waiting : task.outcome = none) (room : Nat) (timerFails : Bool) (now : Now) :
    Inv json ⟨s.node.serve (task.poll json room timerFails now).1,
      s.streams.set index (task.poll json room timerFails now).2⟩ := by
  have sound := inv.sound task (List.mem_of_getElem? found)
  obtain ⟨stream, held⟩ := sound.serves.held
  have kept : ∀ effect, s.node.connections.connections <+:
      (s.node.serve effect).connections.connections := by
    intro effect
    exact (serve_connections s.node effect).symm ▸ List.prefix_refl _
  rcases task.poll_cases held (sound.bounded waiting) room timerFails now with
    ⟨framed, bounded, unread, polled⟩ | ⟨ended, fruitless, polled⟩ |
      ⟨payload, hello, rest, early, bytes, decoded, effect, ended⟩
  · rw [polled]
    refine inv.set found waiting (kept .nothing) ?_ ?_
    · refine ⟨⟨sound.serves.connection, ?_, sound.serves.panics, sound.serves.served⟩,
        fun _ => bounded⟩
      intro _
      exact unread.trans (sound.serves.waiting waiting)
    · simp only [AcceptedStream.passed, waiting]
      exact List.append_nil _
  · rw [polled]
    refine inv.set found waiting (kept .nothing) ?_ ?_
    · refine ⟨⟨sound.serves.connection, ?_, ?_, ?_⟩, ?_⟩
      · intro impossible
        cases impossible
      · intro text same
        cases same
        rcases fruitless with impossible | ⟨reason, impossible⟩ <;> cases impossible
      · intro effect rest moment same
        cases same
        rcases fruitless with impossible | ⟨reason, impossible⟩ <;> cases impossible
      · intro impossible
        cases impossible
    · rcases fruitless with rfl | ⟨reason, rfl⟩ <;> exact List.append_nil _
  · have outcome : (task.poll json room timerFails now).2.outcome =
        some (.served (task.poll json room timerFails now).1 rest now.nanos) := by
      rw [ended]
    refine inv.set found waiting (kept _) ?_ (serve_context outcome s.node)
    rw [ended]
    refine ⟨⟨?_, ?_, ?_, ?_⟩, ?_⟩
    · rw [serve_connections]
      exact sound.serves.connection
    · intro impossible
      cases impossible
    · intro text impossible
      cases impossible
    · intro effect' rest' moment same
      cases same
      refine ⟨early, payload, hello, ?_, decoded, effect⟩
      rw [← bytes]
      exact (sound.serves.waiting waiting).symm
    · intro impossible
      cases impossible

end Tasks

theorem Inv.pollStream (inv : s.Inv json) (index room : Nat) (timerFails : Bool) (now : Now) :
    (s.pollStream json index room timerFails now).Inv json := by
  unfold Accepting.pollStream
  split
  · exact inv
  · rename_i task found
    split
    · exact inv
    · rename_i waiting
      exact inv.polled found waiting room timerFails now

theorem step_inv (s : Accepting) (event : Event) (inv : s.Inv json) :
    (s.step json event).Inv json := by
  cases event with
  | node event => cases event <;> first | exact inv.moved _ | exact inv
  | connection number answer now =>
      cases answer with
      | notReady => exact inv
      | error reason => exact inv.moved _
      | ready stream =>
          cases stream with
          | none => exact inv.moved _
          | some stream => exact inv.accept number now
  | arrive index chunk =>
      refine inv.withStream index ?_ ?_
      · intro task ended
        cases outcome : task.outcome with
        | none => exact absurd outcome ended
        | some done => simp only [AcceptedStream.arrive, outcome]
      · intro task waiting
        refine ⟨?_, fun sound => sound.arrive waiting chunk⟩
        simp only [AcceptedStream.arrive, waiting]
  | close index =>
      refine inv.withStream index ?_ ?_
      · intro task ended
        cases outcome : task.outcome with
        | none => exact absurd outcome ended
        | some done => simp only [AcceptedStream.close, outcome]
      · intro task waiting
        refine ⟨?_, fun sound => sound.close waiting⟩
        simp only [AcceptedStream.close, waiting]
  | poll index room timerFails now => exact inv.pollStream index room timerFails now

theorem Follows.refl (task : AcceptedStream) : Follows task task :=
  ⟨rfl, rfl, List.prefix_refl _, fun _ => rfl⟩

end Accepting

end HolePunch
