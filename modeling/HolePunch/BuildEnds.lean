import HolePunch.BuildProgress

set_option autoImplicit false

/- That building a connection comes to an end: as long as nobody leaves and nothing but the attempts
to connect fails, the three peers never wait for each other, and they take only so many steps. -/
namespace HolePunch

open Packet (internet exchange proxy)

namespace BuildSession

section

variable {setup : Setup} {s next : BuildSession}

/-- A step of the initiator keeps what the others have done. -/
theorem Going.ofInitiator {machine : BuildConnectionToPeer} (going : s.Going setup)
    (running : s.initiator = .running machine) {initiator : Initiator}
    {toMiddle toInitiator : Channel Packet} (received : toMiddle.received = s.toMiddle.received)
    (script : initiator.Script setup toMiddle.history) :
    Going setup { s with
      initiator := initiator, toMiddle := toMiddle, toInitiator := toInitiator } where
  script := script
  taken := by
    rw [received]
    exact going.taken
  middle ended := absurd ended (going.running running).1
  closes := going.closes
  heard := going.heard
  asked := going.asked
  answers := going.answers

/-- A step of the asked peer that goes on. -/
theorem Going.ofAsked (going : s.Going setup) (working : s.asked ≠ .ended) {asked : Asked}
    (works : asked ≠ .ended) {packet : Packet} (read : s.toAsked.next = some packet)
    (notClosed : packet ≠ .closed) {fromAsked : Channel Packet} {context : List Stream}
    (answers : .closed ∈ fromAsked.history → .closed ∈ s.fromAsked.history) :
    Going setup { s with
      asked := asked, toAsked := s.toAsked.receive, fromAsked := fromAsked,
      context := context } where
  script := going.script
  taken := going.taken
  middle := going.middle
  closes ended := by
    rw [Channel.receive_history]
    exact going.closes ended
  heard member := by
    rw [Channel.receive_received read] at member
    rcases List.mem_append.mp member with before | now
    · exact absurd (going.heard before) working
    · exact absurd (List.mem_singleton.mp now).symm notClosed
  asked ended := absurd ended works
  answers member := absurd (going.answers (answers member)) working

theorem Progress.going (progress : s.Progress setup next) (going : s.Going setup) :
    next.Going setup := by
  have script := going.script
  have working : ∀ asked, s.asked = asked → asked ≠ .ended → s.asked ≠ .ended := by
    rintro asked rfl works
    exact works
  cases progress with
  | opens proxyStream running =>
      rw [running] at script
      refine going.ofInitiator running rfl ?_
      rw [Channel.send_history, script.1]
      rfl
  | offers addresses running read =>
      rw [running] at script
      refine going.ofInitiator running rfl ⟨addresses, ?_⟩
      rw [Channel.send_history, show s.toMiddle.history = [setup.asks] from script]
      rfl
  | exchanges newCons running read =>
      rw [running] at script
      exact going.ofInitiator running rfl script
  | turns running same lower =>
      rw [running] at script
      exact going.ofInitiator running rfl (same _ script)
  | builds stream running exchanged lower =>
      rw [running] at script
      obtain ⟨addresses, same⟩ := exchanged _ script
      refine going.ofInitiator running rfl ⟨addresses, ?_⟩
      rw [Channel.send_history, same]
      rfl
  | accepts future incoming read =>
      refine ⟨?_, ?_, ?_, ?_, going.heard, ?_, going.answers⟩
      · rw [Channel.receive_history]
        exact script
      · rw [Channel.receive_received read, List.mem_append, List.mem_singleton]
        exact not_or.mpr ⟨going.taken, fun wrong => by cases wrong⟩
      · exact fun wrong => by cases wrong
      · exact fun wrong => by cases wrong
      · exact fun ended => by cases incoming.symm.trans (going.asked ended)
  | relays opening =>
      refine ⟨script, going.taken, ?_, ?_, going.heard, ?_, going.answers⟩
      · exact fun wrong => by cases wrong
      · exact fun wrong => by cases wrong
      · exact fun ended => by cases opening.symm.trans (going.asked ended)
  | forwards relaying read notClosed =>
      refine ⟨?_, ?_, going.middle, ?_, going.heard, going.asked, going.answers⟩
      · rw [Channel.receive_history]
        exact script
      · rw [Channel.receive_received read, List.mem_append, List.mem_singleton]
        exact not_or.mpr ⟨going.taken, fun same => notClosed same.symm⟩
      · intro ended
        rw [Channel.send_history]
        exact List.mem_append_left _ (going.closes ended)
  | closes relaying read =>
      have member := List.mem_of_getElem? (Channel.next_getElem? read)
      refine ⟨script, going.taken, ?_, ?_, going.heard, fun _ => rfl, going.answers⟩
      · exact fun _ => (closed_of_user going member trivial).2
      · intro _
        rw [Channel.send_history]
        exact List.mem_append_right _ (List.mem_singleton.mpr rfl)
  | returns relaying read =>
      refine ⟨script, going.taken, going.middle, going.closes, going.heard, going.asked, ?_⟩
      rw [Channel.receive_history]
      exact going.answers
  | announced remote incoming read =>
      refine going.ofAsked (working _ incoming (fun wrong => by cases wrong))
        (fun wrong => by cases wrong) read (fun wrong => by cases wrong) (fun member => member)
  | learns after building read =>
      refine going.ofAsked (working _ building (fun wrong => by cases wrong))
        (fun wrong => by cases wrong) read (fun wrong => by cases wrong) (fun member => member)
  | answers after addresses building read first =>
      refine going.ofAsked (working _ building (fun wrong => by cases wrong))
        (fun wrong => by cases wrong) read (fun wrong => by cases wrong) ?_
      intro member
      rw [Channel.send_history] at member
      rcases List.mem_append.mp member with before | now
      · exact before
      · cases List.mem_singleton.mp now
  | passes stream building read =>
      refine going.ofAsked (working _ building (fun wrong => by cases wrong))
        (fun wrong => by cases wrong) read (fun wrong => by cases wrong) (fun member => member)
  | leaves building read ended =>
      refine ⟨script, going.taken, going.middle, ?_, fun _ => rfl, fun _ => ended, fun _ => rfl⟩
      rw [Channel.receive_history]
      exact going.closes

theorem init_going (setup : Setup) : (init setup).Going setup where
  script := ⟨rfl, rfl⟩
  taken := fun wrong => by cases wrong
  middle := fun wrong => by cases wrong
  closes := fun wrong => by cases wrong
  heard := fun wrong => by cases wrong
  asked := fun wrong => by cases wrong
  answers := fun wrong => by cases wrong

/-- Both peers have come to an end, and to the same one: the asked peer has handed out the other end
of the relayed stream, or the initiator has a stream of its own and the others are done. -/
def Done (setup : Setup) (s : BuildSession) : Prop :=
  ∃ stream, s.initiator = .built stream ∧
    ((stream.isProxyStream = true ∧ s.asked = .passed ∧ ∃ other, s.context = [other] ∧
        other.isProxyStream = true ∧ other.peerIdentifier = setup.initiating.peerIdentifier) ∨
      (stream.isProxyStream = false ∧ s.asked = .ended ∧ s.middle = .ended ∧ s.context = []))

/-- Nobody can do anything: nothing is under way, and the initiator waits only for a message. -/
structure Settled (s : BuildSession) : Prop where
  initiator : ∀ machine, s.initiator = .running machine →
    machine.reads = true ∧ s.toInitiator.next = none
  incoming : s.middle = .incoming → s.toMiddle.history = []
  opening : ∀ future, s.middle ≠ .opening future
  relaying : s.middle = .relaying → s.toMiddle.next = none ∧ s.fromAsked.next = none
  unasked : s.asked = .incoming → s.toAsked.history = []
  building : ∀ remote, s.asked = .building remote → s.toAsked.next = none

/-- The wait for the connections can always end with its timeout. -/
theorem settled_of_waits (waits : ∀ event, s.Untroubled setup event → s.Waits event) :
    s.Settled := by
  have noError := ready_ne_error ()
  have initiator := waits
    (.initiate ⟨.ready (), .ready (), .notReady, .accepted, .error, none, [], ⟨.v4 0, 0⟩⟩)
    ⟨noError, fun _ _ _ _ _ => noError⟩
  have known : (Registry.new.registerPeer setup.target setup.newStreamHandle).2.hasPeer
      setup.target = true := by
    simp only [Registry.hasPeer, Registry.registerPeer_eq, Function.update_self, Option.isSome_some]
  have middle := waits (.middle .notReady _ (.ready ()) (.ready ())) ⟨rfl, known, noError, noError⟩
  have asked := waits (.asked .notReady [] ⟨.v4 0, 0⟩) rfl
  simp only [Waits] at initiator middle asked
  refine ⟨?_, ?_, ?_, ?_, ?_, ?_⟩
  · intro machine running
    rw [running] at initiator
    cases machine with
    | waitingForProxyStream => cases initiator
    | waitingForInternetAddressInformation => exact ⟨rfl, initiator⟩
    | waitingForExchangeAddressInformation => exact ⟨rfl, initiator⟩
    | waitingForConnection => cases initiator
    | waitingForStream => cases initiator
    | proxyStream => cases initiator
  · intro incoming
    rw [incoming] at middle
    exact middle
  · intro future opening
    rw [opening] at middle
    cases middle
  · exact fun relaying => ⟨waits .relayToAsked trivial relaying,
      waits .relayToInitiator trivial relaying⟩
  · intro incoming
    rw [incoming] at asked
    exact asked
  · intro remote building
    rw [building] at asked
    exact asked

theorem Settled.relaying_of_running (settled : s.Settled) (going : s.Going setup)
    {machine : BuildConnectionToPeer} (running : s.initiator = .running machine)
    (sent : s.toMiddle.history ≠ []) : s.middle = .relaying := by
  cases state : s.middle with
  | incoming => exact absurd (settled.incoming state) sent
  | opening future => exact absurd state (settled.opening future)
  | relaying => rfl
  | ended => exact absurd state (going.running running).1

/-- The asked peer has read all that the initiator has sent. -/
theorem Settled.asked_reads (settled : s.Settled) (inv : s.Inv setup) (going : s.Going setup)
    (relaying : s.middle = .relaying) : s.asked = .passed ∨ ∃ remote, s.asked = .building remote ∧
      s.toAsked.received.length = s.toMiddle.history.length + 1 := by
  have relayed := inv.relayed
  rw [relaying] at relayed
  obtain ⟨forward, received, history, _⟩ := relayed
  cases state : s.asked with
  | incoming =>
      rw [settled.unasked state] at history
      cases history
  | building remote =>
      refine Or.inr ⟨remote, rfl, ?_⟩
      rw [Channel.history_of_next_none (settled.relaying relaying).1, received,
        ← Channel.history_of_next_none (settled.building remote state), history]
      rfl
  | passed => exact Or.inl rfl
  | ended => cases relaying.symm.trans (going.asked state)
  | panicked text =>
      have replied := inv.replied
      rw [state] at replied
      cases replied

/-- Where nothing is under way, the initiator does not wait for a message. -/
theorem Settled.not_running (settled : s.Settled) (inv : s.Inv setup) (going : s.Going setup)
    (machine : BuildConnectionToPeer) : s.initiator ≠ .running machine := by
  intro running
  obtain ⟨reads, nothing⟩ := settled.initiator machine running
  have script := going.script
  have heard := inv.heard
  have relayed := inv.relayed
  rw [running] at script heard
  cases machine with
  | waitingForProxyStream | waitingForConnection | waitingForStream | proxyStream => cases reads
  | waitingForInternetAddressInformation proxyStream handle peer localPeer =>
      have sent : s.toMiddle.history ≠ [] := by
        rw [show s.toMiddle.history = [setup.asks] from script]
        exact List.cons_ne_nil _ _
      rw [settled.relaying_of_running going running sent] at relayed
      obtain ⟨_, _, _, history⟩ := relayed
      rw [Channel.history_of_next_none nothing,
        List.length_eq_zero_iff.mp (show s.toInitiator.received.length = 0 from heard)] at history
      cases history
  | waitingForExchangeAddressInformation proxyStream handle peer localPeer =>
      obtain ⟨addresses, same⟩ := script
      have relaying := settled.relaying_of_running going running (by
        rw [same]
        exact List.cons_ne_nil _ _)
      have replied := inv.replied
      rcases settled.asked_reads inv going relaying with passed | ⟨remote, building, length⟩
      · rw [passed] at replied
        obtain ⟨⟨stream, built, _⟩, _⟩ := replied
        cases running.symm.trans built
      · rw [building] at replied
        rw [same] at length
        have all : s.toAsked.received.length = 3 := length
        -- The answer has been passed on, and the initiator has read only its address.
        rcases replied.2.2.2 with ⟨one, _⟩ | ⟨two, _⟩ | ⟨_, answers, answered⟩
        · omega
        · omega
        · rw [relaying] at relayed
          obtain ⟨_, _, _, history⟩ := relayed
          rw [Channel.history_of_next_none nothing,
            ← Channel.history_of_next_none (settled.relaying relaying).2, answered] at history
          have one : s.toInitiator.received.length = 1 := heard
          rw [history] at one
          cases one

theorem done_of_settled (settled : s.Settled) (inv : s.Inv setup) (going : s.Going setup) :
    s.Done setup := by
  have script := going.script
  have replied := inv.replied
  cases state : s.initiator with
  | running machine => exact absurd state (settled.not_running inv going machine)
  | built stream =>
      rw [state] at script
      obtain ⟨addresses, sent⟩ := script
      refine ⟨stream, state, ?_⟩
      cases middle : s.middle with
      | incoming =>
          rw [settled.incoming middle] at sent
          cases sent
      | opening future => exact absurd middle (settled.opening future)
      | relaying =>
          rcases settled.asked_reads inv going middle with passed | ⟨remote, building, length⟩
          · rw [passed] at replied
            obtain ⟨⟨other, built, proxied⟩, context, _⟩ := replied
            cases state.symm.trans built
            exact Or.inl ⟨proxied, passed, context⟩
          · rw [building] at replied
            rw [sent] at length
            have all : s.toAsked.received.length = 4 := length
            rcases replied.2.2.2 with ⟨one, _⟩ | ⟨two, _⟩ | ⟨three, _⟩ <;> omega
      | ended =>
          obtain ⟨other, built, direct⟩ := going.middle middle
          cases state.symm.trans built
          have closed := going.closes middle
          cases asked : s.asked with
          | incoming =>
              rw [settled.unasked asked] at closed
              cases closed
          | building remote =>
              rw [Channel.history_of_next_none (settled.building remote asked)] at closed
              cases asked.symm.trans (going.heard closed)
          | passed =>
              rw [asked] at replied
              obtain ⟨⟨same, again, proxied⟩, _⟩ := replied
              cases state.symm.trans again
              cases direct.symm.trans proxied
          | ended =>
              rw [asked] at replied
              exact Or.inr ⟨direct, rfl, rfl, replied.1⟩
          | panicked text =>
              rw [asked] at replied
              cases replied
  | failed | panicked | dropped =>
      rw [state] at script
      cases script

/-- The states of untroubled runs. -/
theorem step_untroubled {event : Event} (reached : s.Inv setup ∧ s.Going setup)
    (untroubled : s.Untroubled setup event) :
    s.step setup event = s ∧ s.Waits event ∨
      ((s.step setup event).Inv setup ∧ (s.step setup event).Going setup) ∧
        (s.step setup event).left < s.left := by
  obtain ⟨inv, going⟩ := reached
  rcases step_progress inv going untroubled with waits | progress
  · exact Or.inl waits
  · exact Or.inr ⟨⟨step_inv inv event, progress.going going⟩, progress.lowers⟩

/-- Somebody can go on as long as the peers have not come to their end. -/
theorem done_or_proceeds (reached : s.Inv setup ∧ s.Going setup) : s.Done setup ∨
    ∃ event, s.Untroubled setup event ∧
      ((s.step setup event).Inv setup ∧ (s.step setup event).Going setup) ∧
        (s.step setup event).left < s.left := by
  by_cases waits : ∀ event, s.Untroubled setup event → s.Waits event
  · exact Or.inl (done_of_settled (settled_of_waits waits) reached.1 reached.2)
  · obtain ⟨event, goesOn⟩ := Classical.not_forall.mp waits
    obtain ⟨untroubled, goesOn⟩ := Classical.not_imp.mp goesOn
    rcases step_untroubled reached untroubled with ⟨_, stays⟩ | progress
    · exact absurd stays goesOn
    · exact Or.inr ⟨event, untroubled, progress⟩

end

/-- Whatever order the peers take their turns in, and however the attempts to connect end: as long
as nobody leaves and the streams through the peer in the middle work, at most 23 steps do anything,
the peers do not wait for each other before they have come to the same end, and they can come to it
from wherever they are. -/
theorem building_ends (setup : Setup) {events : List Event}
    (untroubled : Transition.Meets (step setup) (Untroubled setup) (init setup) events) :
    let s := Transition.run (step setup) (init setup) events
    Transition.changes (step setup) (init setup) events ≤ 23 ∧
    ((∀ event, s.Untroubled setup event → s.step setup event = s) → s.Done setup) ∧
    ∃ rest, Transition.Meets (step setup) (Untroubled setup) s rest ∧
      (Transition.run (step setup) s rest).Done setup := by
  intro s
  let inv : BuildSession → Prop := fun s => s.Inv setup ∧ s.Going setup
  have initial : inv (init setup) := ⟨init_inv setup, init_going setup⟩
  have reached : inv s := by
    refine Transition.run_invariant_of_meets inv ?_ initial untroubled
    intro s event met kept
    rcases step_untroubled kept met with ⟨same, _⟩ | ⟨next, _⟩
    · rw [same]
      exact kept
    · exact next
  refine ⟨?_, ?_, ?_⟩
  · have bounded : Transition.changes (step setup) (init setup) events + s.left ≤
        (init setup).left :=
      Transition.changes_le inv left (fun _ _ met kept =>
        (step_untroubled kept met).imp_left And.left) initial untroubled
    have start : (init setup).left = 23 := rfl
    omega
  · intro stuck
    rcases done_or_proceeds reached with done | ⟨event, met, _, lower⟩
    · exact done
    · rw [stuck event met] at lower
      exact absurd lower (Nat.lt_irrefl _)
  · exact Transition.exists_run_done inv left (fun _ kept => done_or_proceeds kept) reached

/-- The run in which the timeout fires is such a run. -/
theorem fallback_ends :
    Transition.Meets (step relayed) (Untroubled relayed) (init relayed) fallback ∧
    Transition.changes (step relayed) (init relayed) fallback ≤ 23 ∧
    ∃ rest, (Transition.run (step relayed) (Transition.run (step relayed) (init relayed) fallback)
      rest).Done relayed := by
  have noError := ready_ne_error ()
  have untroubled : ∀ s : BuildSession, ∀ event ∈ fallback, s.Untroubled relayed event := by
    intro s event member
    simp only [fallback, List.mem_cons, List.not_mem_nil, or_false] at member
    rcases member with rfl | rfl | rfl | rfl | rfl | rfl | rfl | rfl | rfl | rfl | rfl | rfl | rfl |
      rfl
    all_goals first
      | exact ⟨noError, fun _ _ _ _ _ => noError⟩
      | exact ⟨rfl, by decide, noError, noError⟩
      | exact rfl
      | exact trivial
  have met : Transition.Meets (step relayed) (Untroubled relayed) (init relayed) fallback :=
    Transition.meets_of_forall untroubled (init relayed)
  obtain ⟨bounded, _, rest, _, done⟩ := building_ends relayed met
  exact ⟨met, bounded, rest, done⟩

example : Transition.changes (step relayed) (init relayed) fallback = 14 := by
  decide

end BuildSession

end HolePunch
