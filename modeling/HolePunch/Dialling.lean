import HolePunch.AddressRounds
import HolePunch.HandlerSurvival

set_option autoImplicit false

/- Which addresses the task of a remote registry connects to: those that its resolvers give, one
after the other and none left out. -/
namespace HolePunch

/-- Whatever becomes of its attempts, the address and the hello of a connect stay. -/
theorem ConnectWithStrategies.step_addr {s next : ConnectWithStrategies} {answers : ConnectAnswers}
    (moved : s.step answers = .transition next) :
    next.addr = s.addr ∧ next.helloMsg = s.helloMsg ∧ next.strategies ≤ s.strategies := by
  unfold step at moved
  split at moved
  · cases moved
  · split at moved
    · cases moved
    · cases moved
      exact ⟨rfl, rfl, Nat.le_refl _⟩
    · cases moved
      exact ⟨rfl, rfl, Nat.le_refl _⟩
    · split at moved
      · cases moved
        exact ⟨rfl, rfl, Nat.le_refl _⟩
      · cases moved
    · split at moved
      · cases moved
      · split at moved
        · cases moved
        · rename_i left given
          cases moved
          refine ⟨rfl, rfl, ?_⟩
          change left ≤ s.strategies
          omega

namespace Remote

open Futures.Select (Interleaved)

/-- What `RemoteRegistry::new` is given. -/
structure Dialler where
  resolvers : Resolvers
  strategies : { given : Nat // 0 < given }
  pingInterval : Duration
  waitBetweenResolve : Duration

def Dialler.context (dialler : Dialler) : ConnectionHandlerContext :=
  ⟨dialler.resolvers.count, dialler.strategies, dialler.pingInterval, dialler.waitBetweenResolve⟩

/-- The addresses that the stream has given out. -/
def Resolution.given (s : Resolution) : List SocketAddr := s.finished.flatten ++ s.current

namespace GetNextAddr

/-- What the handler sees of a turn. -/
def resolving (before : GetNextAddr) (result : Option (Futures.Poll Unit (Option SocketAddr))) :
    Resolving :=
  match Resolution.addr result with
  | some addr => .addr addr
  | none =>
      match result, before.waits with
      | none, waited => if waited then .ended true else .failed
      | some _, waited => if waited then .ended false else .notReady

end GetNextAddr

namespace HandlerTask

/-- The handler waits for the next address. -/
def idle : HandlerTask → Bool
  | .running .requestNextPeerAddr => true
  | _ => false

/-- The handler connects to an address or has connected to it. -/
def busy : HandlerTask → Bool
  | .running (.connectToPeer _) => true
  | .running (.handleConnection _) => true
  | _ => false

def connecting : HandlerTask → Option ConnectWithStrategies
  | .running (.connectToPeer connect) => some connect
  | _ => none

end HandlerTask

/-- The handler with its `next_peer_addr`. `dialled` are the addresses that it has begun to connect
to, and `left` counts those that it has given up again, connected or not. -/
structure Dialling where
  resolution : Resolution
  handler : HandlerRun
  dialled : List SocketAddr
  left : Nat

namespace Dialling

inductive Event where
  /-- A turn of the loop of `GetNextAddr::poll`. -/
  | next (delay : Futures.Poll Unit Unit) (now : Now)
  | connect (answers : ConnectAnswers) (now : Now)
  | handle (turn : StreamTurn)
  | drop

def start (dialler : Dialler) (now : Now) : Dialling where
  resolution := Resolution.new dialler.resolvers
  handler := HandlerRun.start dialler.context now
  dialled := []
  left := 0

/-- Only a handler that waits for an address takes one from the stream. -/
def answer (dialler : Dialler) (s : Dialling) (delay : Futures.Poll Unit Unit) : Resolving :=
  match s.resolution.next with
  | .error _ => .notReady
  | .ok before =>
      match before.turn dialler.resolvers delay with
      | .error _ => .notReady
      | .ok (result, _) => before.resolving result

/-- The history that goes with a step of the handler. -/
def follow (s : Dialling) (handler : HandlerRun) : Dialling where
  resolution := s.resolution
  handler := handler
  dialled :=
    if s.handler.task.idle then s.dialled ++ (handler.task.connecting.map (·.addr)).toList
    else s.dialled
  left := if s.handler.task.busy && !handler.task.busy then s.left + 1 else s.left

def step (dialler : Dialler) (s : Dialling) : Event → Dialling
  | .next delay now =>
      if s.handler.task.idle then
        { s.follow (s.handler.step dialler.context (.resolve (s.answer dialler delay) now)) with
          resolution := s.resolution.step dialler.resolvers delay }
      else s
  | .connect answers now => s.follow (s.handler.step dialler.context (.connect answers now))
  | .handle turn => s.follow (s.handler.step dialler.context (.handle turn))
  | .drop => s.follow (s.handler.step dialler.context .drop)

/-- What the task does with the addresses of its resolvers. -/
structure Follows (dialler : Dialler) (s : Dialling) : Prop where
  resolved : s.resolution.Lossless dialler.resolvers
  /-- None is passed over, but for the one that comes when the registry is gone. -/
  dialled : s.resolution.given = s.dialled ∨
    (s.handler.dropped = true ∧ s.handler.task = .failed (.custom "Remote registry dropped") ∧
      ∃ addr, s.resolution.given = s.dialled ++ [addr])
  /-- The current attempt is for the last of them. -/
  connecting : ∀ connect, s.handler.task.connecting = some connect →
    s.dialled.getLast? = some connect.addr ∧ connect.helloMsg = .registry ∧
      connect.strategies < dialler.strategies.val
  /-- All before it have been given up. -/
  oneByOne : s.left + (if s.handler.task.busy then 1 else 0) = s.dialled.length

end Dialling

section Turns

variable {resolvers : Resolvers} {s : Resolution}

/-- A turn adds the address that it returns, and the handler is told of that address. -/
theorem Resolution.step_given (inv : s.Inv resolvers) (delay : Futures.Poll Unit Unit) :
    ∃ before result after, s.next = .ok before ∧
      before.turn resolvers delay = .ok (result, after) ∧
      (s.step resolvers delay).given = s.given ++ (addr result).toList := by
  obtain ⟨before, result, after, now, turned, -, -, stepped⟩ := step_turn resolvers inv delay
  refine ⟨before, result, after, now, turned, ?_⟩
  have after' := (step_inv resolvers s delay inv).lossless.given
  rw [show (s.step resolvers delay).returned = s.returned ++ result.toList by rw [stepped],
    List.filterMap_append, inv.lossless.given] at after'
  have last : result.toList.filterMap Futures.item = (addr result).toList := by
    cases result with
    | none => rfl
    | some given => cases item : Futures.item given <;> simp [addr, item]
  rw [last] at after'
  exact after'.symm

theorem GetNextAddr.resolving_of_addr {before : GetNextAddr}
    {result : Option (Futures.Poll Unit (Option SocketAddr))} {addr : SocketAddr}
    (found : Resolution.addr result = some addr) : before.resolving result = .addr addr := by
  simp only [resolving, found]

theorem GetNextAddr.resolving_of_none (before : GetNextAddr)
    {result : Option (Futures.Poll Unit (Option SocketAddr))}
    (missing : Resolution.addr result = none) (addr : SocketAddr) :
    before.resolving result ≠ .addr addr := by
  simp only [resolving, missing]
  cases result <;> cases before.waits <;> exact fun same => by cases same

end Turns

namespace HandlerRun

variable (context : ConnectionHandlerContext) {s : HandlerRun}

theorem unlessDropped_ok {dropped : Bool} {rest : ConnectionHandler.Outcome}
    {handler : ConnectionHandler}
    (done : ConnectionHandler.unlessDropped dropped rest = .ok (.ok handler)) :
    rest = .ok (.ok handler) := by
  cases dropped with
  | true => cases done
  | false => exact done

theorem idle_iff (task : HandlerTask) :
    task.idle = true ↔ task = .running .requestNextPeerAddr := by
  cases task with
  | running handler => cases handler <;> simp [HandlerTask.idle]
  | failed reason => simp [HandlerTask.idle]
  | panicked message => simp [HandlerTask.idle]

/-- An address is dialled, with all strategies still to try. -/
theorem resolve_addr (idle : s.task = .running .requestNextPeerAddr) (alive : s.dropped = false)
    (addr : SocketAddr) (now : Now) :
    s.step context (.resolve (.addr addr) now) =
      { s with task := .running (.connectToPeer
        ⟨context.strategies.val - 1, addr, .registry, some .initConnect, false⟩) } := by
  simp only [step, idle, ConnectionHandler.pollRequestNextPeerAddr,
    ConnectionHandler.unlessDropped, alive, Bool.false_eq_true, ↓reduceIte,
    ConnectWithStrategies.new_of_pos context.strategies.property, finish]

theorem resolve_addr_dropped (idle : s.task = .running .requestNextPeerAddr)
    (dropped : s.dropped = true) (addr : SocketAddr) (now : Now) :
    s.step context (.resolve (.addr addr) now) =
      { s with task := .failed (.custom "Remote registry dropped") } := by
  simp only [step, idle, ConnectionHandler.pollRequestNextPeerAddr,
    ConnectionHandler.unlessDropped, dropped, ↓reduceIte, finish]

/-- Without an address the handler goes on waiting, unless the next wait cannot be set. -/
theorem resolve_other (idle : s.task = .running .requestNextPeerAddr) {answer : Resolving}
    (other : ∀ addr, answer ≠ .addr addr) (now : Now) :
    (s.step context (.resolve answer now)).task.connecting = none ∧
      (s.step context (.resolve answer now)).task.busy = false := by
  simp only [step, idle]
  cases answer with
  | addr addr => exact absurd rfl (other addr)
  | notReady => exact ⟨rfl, rfl⟩
  | failed => exact ⟨rfl, rfl⟩
  | ended waited =>
      cases waited with
      | false => exact ⟨rfl, rfl⟩
      | true =>
          simp only [ConnectionHandler.pollRequestNextPeerAddr]
          cases ConnectionHandler.resolve context now with
          | error message => exact ⟨rfl, rfl⟩
          | ok done => exact ⟨rfl, rfl⟩

theorem finish_connecting {outcome : ConnectionHandler.Outcome} {connect : ConnectWithStrategies}
    (after : (s.finish outcome).task.connecting = some connect) :
    outcome = .ok (.ok (.connectToPeer connect)) := by
  rcases outcome with message | reason | handler
  · cases after
  · cases after
  · cases handler with
    | connectToPeer current =>
        cases after
        rfl
    | requestNextPeerAddr => cases after
    | handleConnection connection => cases after

/-- An attempt goes on with the same address, and only the wait for an address begins one. -/
theorem step_connecting {event : Event} {next : ConnectWithStrategies}
    (other : ∀ answer now, event ≠ .resolve answer now)
    (after : (s.step context event).task.connecting = some next) :
    ∃ connect, s.task.connecting = some connect ∧ next.addr = connect.addr ∧
      next.helloMsg = connect.helloMsg ∧ next.strategies ≤ connect.strategies := by
  unfold step at after
  split at after
  · exact ⟨next, after, rfl, rfl, Nat.le_refl _⟩
  · exact absurd rfl (other _ _)
  · rename_i connect answers now current
    refine ⟨connect, by rw [current]; rfl, ?_⟩
    have moved := unlessDropped_ok (finish_connecting after)
    split at moved
    · cases moved
    · cases moved
      exact ⟨rfl, rfl, Nat.le_refl _⟩
    · rename_i stepped
      cases moved
      exact ConnectWithStrategies.step_addr stepped
    · cases moved
    · split at moved <;> cases moved
  · have moved := unlessDropped_ok (finish_connecting after)
    split at moved <;> cases moved
  · exact ⟨next, after, rfl, rfl, Nat.le_refl _⟩

/-- A handler without a connection to poll is left alone by the polls of one. -/
theorem step_of_not_busy {event : Event} (other : ∀ answer now, event ≠ .resolve answer now)
    (free : s.task.busy = false) : (s.step context event).task = s.task := by
  unfold step
  split
  · rfl
  · exact absurd rfl (other _ _)
  · rename_i current
    rw [current] at free
    cases free
  · rename_i current
    rw [current] at free
    cases free
  · rfl

end HandlerRun

namespace Dialling

variable {dialler : Dialler} {s : Dialling}

/-- With what the address stream itself keeps. -/
structure Inv (dialler : Dialler) (s : Dialling) : Prop where
  stream : s.resolution.Inv dialler.resolvers
  follows : s.Follows dialler

theorem start_inv (dialler : Dialler) (now : Now) : (start dialler now).Inv dialler := by
  have stream := Resolution.inv_new dialler.resolvers
  have free : (start dialler now).handler.task.busy = false ∧
      (start dialler now).handler.task.connecting = none := by
    simp only [start, HandlerRun.start]
    cases ConnectionHandler.resolve dialler.context now <;> exact ⟨rfl, rfl⟩
  refine ⟨stream, stream.lossless, Or.inl rfl, ?_, ?_⟩
  · intro connect connecting
    rw [free.2] at connecting
    cases connecting
  · rw [free.1]
    rfl

/-- A step of the handler that takes no address. -/
theorem follow_inv (inv : s.Inv dialler) {event : HandlerRun.Event}
    (other : ∀ answer now, event ≠ .resolve answer now) :
    (s.follow (s.handler.step dialler.context event)).Inv dialler := by
  have dialled : (s.follow (s.handler.step dialler.context event)).dialled = s.dialled := by
    simp only [follow]
    split
    · rename_i idle
      have waiting := (HandlerRun.idle_iff _).mp idle
      rw [HandlerRun.step_of_not_busy dialler.context other (by rw [waiting]; rfl), waiting]
      exact List.append_nil _
    · rfl
  refine ⟨inv.stream, inv.follows.resolved, ?_, ?_, ?_⟩
  · rw [dialled]
    rcases inv.follows.dialled with complete | ⟨dropped, failed, refused⟩
    · exact Or.inl complete
    · refine Or.inr ⟨HandlerRun.step_dropped dialler.context dropped event, ?_, refused⟩
      exact (HandlerRun.step_of_not_busy dialler.context other (by rw [failed]; rfl)).trans failed
  · intro next after
    obtain ⟨connect, before, addr, helloMsg, fewer⟩ :=
      HandlerRun.step_connecting dialler.context other after
    obtain ⟨last, hello, strategies⟩ := inv.follows.connecting connect before
    rw [dialled, addr, helloMsg]
    exact ⟨last, hello, Nat.lt_of_le_of_lt fewer strategies⟩
  · rw [dialled, ← inv.follows.oneByOne]
    change (if s.handler.task.busy && !(s.handler.step dialler.context event).task.busy
      then s.left + 1 else s.left) +
        (if (s.handler.step dialler.context event).task.busy then 1 else 0) = _
    cases busy : s.handler.task.busy with
    | false =>
        rw [HandlerRun.step_of_not_busy dialler.context other busy, busy]
        rfl
    | true => cases (s.handler.step dialler.context event).task.busy <;> rfl

section Next

variable {delay : Futures.Poll Unit Unit} {now : Now}
  {result : Option (Futures.Poll Unit (Option SocketAddr))} {before after : GetNextAddr}

theorem answer_eq (current : s.resolution.next = .ok before)
    (turned : before.turn dialler.resolvers delay = .ok (result, after)) :
    s.answer dialler delay = before.resolving result := by
  simp only [answer, current, turned]

theorem given_of_idle (inv : s.Inv dialler)
    (idle : s.handler.task = .running .requestNextPeerAddr) : s.resolution.given = s.dialled := by
  rcases inv.follows.dialled with complete | ⟨-, failed, -⟩
  · exact complete
  · rw [idle] at failed
    cases failed

theorem left_of_idle (inv : s.Inv dialler)
    (idle : s.handler.task = .running .requestNextPeerAddr) : s.left = s.dialled.length := by
  have count := inv.follows.oneByOne
  rw [idle] at count
  exact count

/-- A turn of a handler that waits for an address. -/
theorem next_inv (inv : s.Inv dialler) (idle : s.handler.task = .running .requestNextPeerAddr)
    (delay : Futures.Poll Unit Unit) (now : Now) :
    (s.step dialler (.next delay now)).Inv dialler := by
  obtain ⟨before, result, after, current, turned, given⟩ := Resolution.step_given inv.stream delay
  have stream := Resolution.step_inv dialler.resolvers s.resolution delay inv.stream
  have waiting := (HandlerRun.idle_iff _).mpr idle
  have free : s.handler.task.busy = false := by
    rw [idle]
    rfl
  have count := left_of_idle inv idle
  rw [given_of_idle inv idle] at given
  simp only [step, waiting, ↓reduceIte, follow, answer_eq current turned, free, Bool.false_and,
    Bool.false_eq_true]
  cases found : Resolution.addr result with
  | some addr =>
      rw [found] at given
      rw [GetNextAddr.resolving_of_addr found]
      cases dropped : s.handler.dropped with
      | true =>
          rw [HandlerRun.resolve_addr_dropped dialler.context idle dropped addr now]
          refine ⟨stream, stream.lossless, Or.inr ⟨dropped, rfl, addr, ?_⟩, ?_, ?_⟩
          · exact given.trans (congrArg (· ++ [addr]) (List.append_nil _).symm)
          · intro connect impossible
            cases impossible
          · exact count.trans (congrArg List.length (List.append_nil _).symm)
      | false =>
          rw [HandlerRun.resolve_addr dialler.context idle dropped addr now]
          refine ⟨stream, stream.lossless, Or.inl given, ?_, ?_⟩
          · intro connect same
            cases same
            have positive := dialler.strategies.property
            refine ⟨List.getLast?_concat, rfl, ?_⟩
            change dialler.strategies.val - 1 < dialler.strategies.val
            omega
          · change s.left + 1 = (s.dialled ++ [addr]).length
            rw [List.length_append, count]
            rfl
  | none =>
      rw [found] at given
      obtain ⟨connecting, busy⟩ := HandlerRun.resolve_other dialler.context idle
        (before.resolving_of_none found) now
      refine ⟨stream, stream.lossless, Or.inl ?_, ?_, ?_⟩
      · rw [connecting]
        exact given
      · intro connect impossible
        rw [connecting] at impossible
        cases impossible
      · rw [connecting, busy]
        exact count.trans (congrArg List.length (List.append_nil _).symm)

end Next

theorem step_next_of_busy (other : s.handler.task.idle ≠ true) (delay : Futures.Poll Unit Unit)
    (now : Now) : s.step dialler (.next delay now) = s := if_neg other

theorem step_inv (s : Dialling) (event : Event) (inv : s.Inv dialler) :
    (s.step dialler event).Inv dialler := by
  cases event with
  | next delay now =>
      by_cases idle : s.handler.task.idle = true
      · exact next_inv inv ((HandlerRun.idle_iff _).mp idle) delay now
      · rw [step_next_of_busy idle]
        exact inv
  | connect answers now => exact follow_inv inv (fun answer now same => by cases same)
  | handle turn => exact follow_inv inv (fun answer now same => by cases same)
  | drop => exact follow_inv inv (fun answer now same => by cases same)

end Dialling

end Remote

end HolePunch
