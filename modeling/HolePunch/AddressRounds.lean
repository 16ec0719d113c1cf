import HolePunch.Registries.GetNextAddr

set_option autoImplicit false

/- What the address stream of a remote registry gives out over all its rounds, and that each of its
polls ends. -/
namespace HolePunch.Remote

open Futures.Select (Interleaved Takes Polled)
open Transition (Meets)

namespace GetNextAddr

/-- `resolve_addrs` counts as ended only when all streams of the round have ended. -/
structure Ready (s : GetNextAddr) : Prop where
  valid : s.resolveAddrs.Valid
  atEnd : s.done = true → s.resolveAddrs.Ended

theorem pollAddrs_polled {s : GetNextAddr} (ready : s.Ready) :
    Polled s.pollAddrs.answer s.resolveAddrs s.pollAddrs.stream ∧
      (s.pollAddrs.done = true → s.pollAddrs.stream.Ended) :=
  Futures.Select.fuse_polled ready.valid ready.atEnd
    (Futures.Select.poll_polled s.resolveAddrs ready.valid)

theorem ready_of_not_done {s : GetNextAddr} (valid : s.resolveAddrs.Valid)
    (more : s.done = false) : s.Ready := by
  refine ⟨valid, ?_⟩
  intro impossible
  rw [more] at impossible
  cases impossible

/-- All that a turn can do: it gives out an address, has none yet, passes over an error, waits for
the next round, or starts it. -/
inductive TurnEffect (resolvers : Resolvers) (s next : GetNextAddr)
    (delay : Futures.Poll Unit Unit) : Option (Futures.Poll Unit (Option SocketAddr)) → Prop
  | addr {addr : SocketAddr} (rounds : next.rounds = s.rounds)
      (takes : Takes (some addr) s.resolveAddrs.left next.resolveAddrs.left) :
      TurnEffect resolvers s next delay (some (.ready (some addr)))
  | pending (rounds : next.rounds = s.rounds)
      (same : next.resolveAddrs.left = s.resolveAddrs.left) :
      TurnEffect resolvers s next delay (some .notReady)
  | failed (rounds : next.rounds = s.rounds)
      (same : next.resolveAddrs.left = s.resolveAddrs.left)
      (shorter : next.resolveAddrs.size < s.resolveAddrs.size) (goesOn : s.waits = false) :
      TurnEffect resolvers s next delay none
  | restarted (rounds : next.rounds = s.rounds + 1) (ended : s.resolveAddrs.Ended)
      (waited : delay ≠ .notReady) (passed : s.waits = true)
      (streams : next.resolveAddrs.sources = resolvers.streams s.rounds) :
      TurnEffect resolvers s next delay none

/-- At the end of a round, once the wait has completed. -/
theorem turn_restarts (resolvers : Resolvers) {s : GetNextAddr} {delay : Futures.Poll Unit Unit}
    (ended : s.pollAddrs.answer = .ready none) (waited : delay ≠ .notReady) :
    ∃ next, s.turn resolvers delay = .ok (none, next) ∧ next.Ready ∧
      next.rounds = s.rounds + 1 ∧
      next.resolveAddrs.sources = resolvers.streams s.rounds := by
  obtain ⟨resolveAddrs, joined, valid, streams⟩ := resolversToStream_streams resolvers s.rounds
  refine ⟨⟨resolveAddrs, false, s.rounds + 1⟩, ?_, ready_of_not_done valid rfl, rfl, streams⟩
  cases delay with
  | notReady => exact absurd rfl waited
  | ready value =>
      simp only [turn, ended, joined]
      rfl
  | error reason =>
      simp only [turn, ended, joined]
      rfl

theorem turn_effect (resolvers : Resolvers) {s : GetNextAddr} (ready : s.Ready)
    (delay : Futures.Poll Unit Unit) :
    ∃ result next, s.turn resolvers delay = .ok (result, next) ∧ next.Ready ∧
      TurnEffect resolvers s next delay result := by
  obtain ⟨polled, ends⟩ := pollAddrs_polled ready
  have kept : Ready { s with resolveAddrs := s.pollAddrs.stream, done := s.pollAddrs.done } :=
    ⟨polled.valid, ends⟩
  cases answer : s.pollAddrs.answer with
  | notReady =>
      rw [answer] at polled
      refine ⟨some .notReady, _, ?_, kept, .pending rfl polled.takes⟩
      simp only [turn, answer]
  | error reason =>
      have goesOn : s.waits = false := by
        rw [waits, answer]
        rfl
      rw [answer] at polled
      refine ⟨none, _, ?_, kept, .failed rfl polled.takes (polled.shrinks ?_) goesOn⟩
      · simp only [turn, answer]
      · intro impossible
        cases impossible
  | ready found =>
      cases found with
      | some addr =>
          rw [answer] at polled
          refine ⟨some (.ready (some addr)), _, ?_, kept, .addr rfl polled.takes⟩
          simp only [turn, answer]
      | none =>
          have passed : s.waits = true := by
            rw [waits, answer]
            rfl
          rw [answer] at polled
          have ended : s.resolveAddrs.Ended := polled.ended.mp rfl
          by_cases waiting : delay = .notReady
          · refine ⟨some .notReady, _, ?_, kept, .pending rfl polled.takes⟩
            simp only [turn, answer, waiting]
          · obtain ⟨next, turned, fresh, rounds, streams⟩ :=
              turn_restarts resolvers answer waiting
            exact ⟨none, next, turned, fresh, .restarted rounds ended waiting passed streams⟩

end GetNextAddr

/-- An address stream and its history: the addresses of the rounds that are over and of the current
one, what its polls have returned, and how often the wait has completed. A panic is an error. -/
structure Resolution where
  next : Except String GetNextAddr
  finished : List (List SocketAddr)
  current : List SocketAddr
  returned : List (Futures.Poll Unit (Option SocketAddr))
  completedDelays : Nat

namespace Resolution

def new (resolvers : Resolvers) : Resolution := ⟨GetNextAddr.new resolvers, [], [], [], 0⟩

/-- The address that a poll returns. -/
def addr (result : Option (Futures.Poll Unit (Option SocketAddr))) : Option SocketAddr :=
  result.bind Futures.item

/-- A turn of the loop. A round is over when the next one is started. -/
def step (resolvers : Resolvers) (s : Resolution) (delay : Futures.Poll Unit Unit) : Resolution :=
  match s.next with
  | .error _ => s
  | .ok before =>
      match before.turn resolvers delay with
      | .error message => { s with next := .error message }
      | .ok (result, after) => {
          next := .ok after
          finished := if after.rounds = before.rounds then s.finished
            else s.finished ++ [s.current]
          current := if after.rounds = before.rounds then s.current ++ (addr result).toList else []
          returned := s.returned ++ result.toList
          completedDelays :=
            if before.waits && !decide (delay = .notReady) then s.completedDelays + 1
            else s.completedDelays }

/-- The stream has not given up, and what it has given out is all that the resolvers produced:
nothing else is left out of a round that is over, and of the current one only what its streams
still hold. -/
structure Lossless (resolvers : Resolvers) (s : Resolution) : Prop where
  returned : ∀ result ∈ s.returned, result = .notReady ∨ ∃ addr, result = .ready (some addr)
  given : s.returned.filterMap Futures.item = s.finished.flatten ++ s.current
  finished : ∀ (round : Nat) (yielded : List SocketAddr), s.finished[round]? = some yielded →
    Interleaved (resolvers.addrs round) yielded []
  current : ∃ now, s.next = .ok now ∧ now.rounds = s.finished.length + 1 ∧
    Interleaved (resolvers.addrs s.finished.length) s.current now.resolveAddrs.left
  rounds : s.finished.length + 1 ≤ 1 + s.completedDelays

/-- The same with what the stream itself keeps. -/
structure Inv (resolvers : Resolvers) (s : Resolution) : Prop where
  lossless : s.Lossless resolvers
  ready : ∀ now, s.next = .ok now → now.Ready

theorem inv_new (resolvers : Resolvers) : (new resolvers).Inv resolvers := by
  obtain ⟨resolveAddrs, joined, valid, streams⟩ := resolversToStream_streams resolvers 0
  have made : GetNextAddr.new resolvers = .ok ⟨resolveAddrs, false, 1⟩ := by
    simp only [GetNextAddr.new, joined]
    rfl
  refine ⟨⟨?_, rfl, ?_, ⟨_, made, rfl, ?_⟩, Nat.le_refl 1⟩, ?_⟩
  · intro result member
    cases member
  · intro round yielded impossible
    cases impossible
  · have left : resolveAddrs.left = resolvers.addrs 0 := by
      rw [Futures.Select.left, streams]
      rfl
    change Interleaved (resolvers.addrs 0) [] resolveAddrs.left
    rw [left]
    exact Futures.Select.interleaved_nil _
  · intro now same
    rw [show (new resolvers).next = GetNextAddr.new resolvers from rfl, made] at same
    cases same
    exact GetNextAddr.ready_of_not_done valid rfl

/-- A turn of a stream that has not panicked does not panic either. -/
theorem step_turn (resolvers : Resolvers) {s : Resolution} (inv : s.Inv resolvers)
    (delay : Futures.Poll Unit Unit) :
    ∃ before result after, s.next = .ok before ∧ before.turn resolvers delay = .ok (result, after) ∧
      after.Ready ∧ GetNextAddr.TurnEffect resolvers before after delay result ∧
      s.step resolvers delay = {
        next := .ok after
        finished := if after.rounds = before.rounds then s.finished
          else s.finished ++ [s.current]
        current := if after.rounds = before.rounds then s.current ++ (addr result).toList else []
        returned := s.returned ++ result.toList
        completedDelays :=
          if before.waits && !decide (delay = .notReady) then s.completedDelays + 1
          else s.completedDelays } := by
  obtain ⟨before, now, -, -⟩ := inv.lossless.current
  obtain ⟨result, after, turned, ready, effect⟩ :=
    GetNextAddr.turn_effect resolvers (inv.ready before now) delay
  refine ⟨before, result, after, now, turned, ready, effect, ?_⟩
  simp only [step, now, turned]

section Rounds

variable {resolvers : Resolvers} {s : Resolution} {before after : GetNextAddr}

/-- A turn within a round, which may return an address. -/
theorem Lossless.goesOn (lossless : s.Lossless resolvers) (now : s.next = .ok before)
    {result : Option (Futures.Poll Unit (Option SocketAddr))} {completed : Nat}
    (rounds : after.rounds = before.rounds)
    (takes : Takes (addr result) before.resolveAddrs.left after.resolveAddrs.left)
    (returned : ∀ given ∈ result, given = .notReady ∨ ∃ addr, given = .ready (some addr))
    (more : s.completedDelays ≤ completed) :
    Lossless resolvers ⟨.ok after, s.finished, s.current ++ (addr result).toList,
      s.returned ++ result.toList, completed⟩ := by
  obtain ⟨before', now', started, interleaved⟩ := lossless.current
  cases now.symm.trans now'
  refine ⟨?_, ?_, lossless.finished, ⟨after, rfl, ?_, interleaved.takes takes⟩, ?_⟩
  · intro given member
    rcases List.mem_append.mp member with earlier | last
    · exact lossless.returned given earlier
    · exact returned given (Option.mem_toList.mp last)
  · have last : result.toList.filterMap Futures.item = (addr result).toList := by
      cases result with
      | none => rfl
      | some given =>
          cases item : Futures.item given with
          | none => simp [addr, item]
          | some found => simp [addr, item]
    rw [List.filterMap_append, lossless.given, last, List.append_assoc]
  · rw [rounds]
    exact started
  · have atMost := lossless.rounds
    change s.finished.length + 1 ≤ 1 + completed
    omega

/-- A round is over, and the next one starts with all its addresses still to come. -/
theorem Lossless.restarts (lossless : s.Lossless resolvers) (now : s.next = .ok before)
    (rounds : after.rounds = before.rounds + 1) (ended : before.resolveAddrs.Ended)
    (streams : after.resolveAddrs.sources = resolvers.streams before.rounds) :
    Lossless resolvers ⟨.ok after, s.finished ++ [s.current], [], s.returned,
      s.completedDelays + 1⟩ := by
  obtain ⟨before', now', started, interleaved⟩ := lossless.current
  cases now.symm.trans now'
  have length : (s.finished ++ [s.current]).length = s.finished.length + 1 := by simp
  refine ⟨lossless.returned, ?_, ?_, ⟨after, rfl, ?_, ?_⟩, ?_⟩
  · rw [lossless.given]
    simp
  · intro round yielded found
    change (s.finished ++ [s.current])[round]? = some yielded at found
    rcases Nat.lt_or_ge round s.finished.length with earlier | last
    · rw [List.getElem?_append_left earlier] at found
      exact lossless.finished round yielded found
    · obtain ⟨within, -⟩ := List.getElem?_eq_some_iff.mp found
      have same : round = s.finished.length := by omega
      rw [same, List.getElem?_concat_length] at found
      cases found
      rw [same]
      exact interleaved.of_ended ended
  · change after.rounds = (s.finished ++ [s.current]).length + 1
    rw [length, rounds, started]
  · change Interleaved (resolvers.addrs (s.finished ++ [s.current]).length) [] _
    have left : after.resolveAddrs.left = resolvers.addrs (s.finished.length + 1) := by
      rw [Futures.Select.left, streams, started]
      rfl
    rw [length, left]
    exact Futures.Select.interleaved_nil _
  · have atMost := lossless.rounds
    change (s.finished ++ [s.current]).length + 1 ≤ 1 + (s.completedDelays + 1)
    omega

end Rounds

theorem step_inv (resolvers : Resolvers) (s : Resolution) (delay : Futures.Poll Unit Unit)
    (inv : s.Inv resolvers) : (s.step resolvers delay).Inv resolvers := by
  obtain ⟨before, result, after, now, -, ready, effect, stepped⟩ := step_turn resolvers inv delay
  rw [stepped]
  refine ⟨?_, ?_⟩
  · have atMost : s.completedDelays ≤
        if before.waits && !decide (delay = .notReady) then s.completedDelays + 1
        else s.completedDelays := by
      split <;> omega
    cases effect with
    | addr rounds takes =>
        rw [if_pos rounds, if_pos rounds]
        refine inv.lossless.goesOn now rounds takes ?_ atMost
        intro given same
        cases same
        exact Or.inr ⟨_, rfl⟩
    | pending rounds same =>
        rw [if_pos rounds, if_pos rounds]
        refine inv.lossless.goesOn now rounds same ?_ atMost
        intro given same
        cases same
        exact Or.inl rfl
    | failed rounds same shorter goesOn =>
        rw [if_pos rounds, if_pos rounds]
        refine inv.lossless.goesOn now rounds same ?_ atMost
        intro given impossible
        cases impossible
    | restarted rounds ended waited passed streams =>
        have other : after.rounds ≠ before.rounds := by omega
        have completed : (before.waits && !decide (delay = .notReady)) = true := by
          simp [passed, waited]
        rw [if_neg other, if_neg other, if_pos completed, Option.toList_none, List.append_nil]
        exact inv.lossless.restarts now rounds ended streams
  · intro current same
    cases same
    exact ready

section Polls

variable {resolvers : Resolvers} {s : Resolution} {before after : GetNextAddr}
  {delays : Nat → Futures.Poll Unit Unit}

end Polls

end Resolution

end HolePunch.Remote
