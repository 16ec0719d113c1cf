import HolePunch.Library.Select
import HolePunch.Library.Transition
import HolePunch.Protocol

set_option autoImplicit false

/- The stream of addresses that a remote registry connects to (`registries/remote.rs`). -/
namespace HolePunch.Remote

/-- What the stream of a resolver answers, poll by poll, before it ends. -/
abbrev Answers := List (Futures.Poll Unit SocketAddr)

/-- The resolvers given to a registry. `resolve round resolver` is the stream that a resolver
returns when it is called for the given round. -/
structure Resolvers where
  count : { given : Nat // 0 < given }
  resolve : Nat → Nat → Answers

/-- The streams of a round, resolver by resolver. -/
def Resolvers.streams (resolvers : Resolvers) (round : Nat) : List Answers :=
  (List.range resolvers.count).map (resolvers.resolve round)

/-- The addresses of a round, resolver by resolver. -/
def Resolvers.addrs (resolvers : Resolvers) (round : Nat) : List (List SocketAddr) :=
  (resolvers.streams round).map Futures.Select.items

/-- Joins the streams one after the other. -/
def resolversToStream : List Answers → Except String (Futures.Select Unit SocketAddr)
  | [] => .error "`resolvers` need to contain at least one element"
  | first :: rest =>
      .ok (rest.foldl (fun o c => .select o false (.source c) false false) (.source first))

/-- `resolveAddrs` is fused, with `done` set at its end. `rounds` counts the calls of
`resolvers_to_stream`. -/
structure GetNextAddr where
  resolveAddrs : Futures.Select Unit SocketAddr
  done : Bool
  rounds : Nat

namespace GetNextAddr

def new (resolvers : Resolvers) : Except String GetNextAddr := do
  let resolveAddrs ← resolversToStream (resolvers.streams 0)
  return ⟨resolveAddrs, false, 1⟩

/-- The poll of `resolve_addrs`. -/
def pollAddrs (s : GetNextAddr) : Futures.Select.Fused Unit SocketAddr :=
  Futures.Select.fuse s.resolveAddrs s.done s.resolveAddrs.poll

/-- One turn of the loop of `poll`: what it returns, if it does. `delay` is what the wait between
two resolves answers when it is polled, and a completed wait is reset. -/
def turn (resolvers : Resolvers) (s : GetNextAddr) (delay : Futures.Poll Unit Unit) :
    Except String (Option (Futures.Poll Unit (Option SocketAddr)) × GetNextAddr) :=
  let polled := s.pollAddrs
  let s := { s with resolveAddrs := polled.stream, done := polled.done }
  match polled.answer with
  | .ready (some addr) => .ok (some (.ready (some addr)), s)
  | .ready none =>
      match delay with
      | .notReady => .ok (some .notReady, s)
      | _ => do
          let resolveAddrs ← resolversToStream (resolvers.streams s.rounds)
          return (none, ⟨resolveAddrs, false, s.rounds + 1⟩)
  | .error _ => .ok (none, s)
  | .notReady => .ok (some .notReady, s)

/-- Whether the turn gets as far as polling the wait. -/
def waits (s : GetNextAddr) : Bool := Futures.Select.ended s.pollAddrs.answer

/-- The loop of `poll`, for so many turns at most. `delays` are the answers of the wait, one for
each time that it is polled. -/
def turns (resolvers : Resolvers) : Nat → (Nat → Futures.Poll Unit Unit) → GetNextAddr →
    Option (Except String (Futures.Poll Unit (Option SocketAddr) × GetNextAddr))
  | 0, _, _ => none
  | fuel + 1, delays, s =>
      match s.turn resolvers (delays 0) with
      | .error message => some (.error message)
      | .ok (some result, next) => some (.ok (result, next))
      | .ok (none, next) =>
          turns resolvers fuel (if s.waits then fun later => delays (later + 1) else delays) next

end GetNextAddr

section Streams

variable (resolvers : Resolvers)

theorem fold_sources (rest : List Answers) (o : Futures.Select Unit SocketAddr)
    (valid : o.Valid) :
    (rest.foldl (fun o c => .select o false (.source c) false false) o).sources =
        o.sources ++ rest ∧
      (rest.foldl (fun o c => .select o false (.source c) false false) o).Valid := by
  induction rest generalizing o with
  | nil => exact ⟨(List.append_nil _).symm, valid⟩
  | cons c rest ih =>
      have next : (Futures.Select.select o false (.source c) false false).Valid :=
        ⟨valid, trivial, (fun impossible => by cases impossible), fun impossible => by
          cases impossible⟩
      obtain ⟨sources, kept⟩ := ih _ next
      refine ⟨?_, kept⟩
      rw [List.foldl_cons, sources, Futures.Select.sources, Futures.Select.sources,
        List.append_assoc]
      rfl

/-- There is always a resolver, and a round starts with all the streams of its resolvers. -/
theorem resolversToStream_streams (round : Nat) :
    ∃ resolveAddrs, resolversToStream (resolvers.streams round) = .ok resolveAddrs ∧
      resolveAddrs.Valid ∧ resolveAddrs.sources = resolvers.streams round := by
  cases given : resolvers.streams round with
  | nil =>
      have count := congrArg List.length given
      have some := resolvers.count.property
      simp only [Resolvers.streams, List.length_map, List.length_range, List.length_nil] at count
      omega
  | cons first rest =>
      obtain ⟨sources, valid⟩ := fold_sources rest (.source first) trivial
      exact ⟨_, rfl, valid, sources⟩

end Streams

end HolePunch.Remote
