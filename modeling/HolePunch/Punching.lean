import HolePunch.BuildAgreement

set_option autoImplicit false

/- The addresses of a hole punch: which ones the two peers open their ports for and dial
(`build_connection_to_peer.rs`). -/
namespace HolePunch

open Packet (internet exchange proxy)

/-- A run of building a connection with the addresses for which `new_connection` was called: those
that the initiator dials and those that the asked peer pokes. -/
structure Punching where
  session : BuildSession
  dialled : List SocketAddr
  poked : List SocketAddr
  deriving DecidableEq, Repr

/-- The handler that waits for the exchange dials all addresses it got. -/
def Initiator.dials : Initiator → Initiator → List SocketAddr
  | .running (.waitingForExchangeAddressInformation _ _ _ _),
      .running (.waitingForConnection newCons _ _ _ _) => newCons
  | _, _ => []

/-- The addresses that the asked peer pokes in a turn. -/
def BuildSession.pokes (s : BuildSession) : BuildSession.Event → List SocketAddr
  | .asked _ interfaces localAddr =>
      match s.asked with
      | .building remote =>
          (remote.step (BuildSession.readMessage s.toAsked) .accepted interfaces localAddr).2.poked
      | _ => []
  | _ => []

namespace Punching

open BuildSession (Event readMessage)

def init (setup : Setup) : Punching := ⟨BuildSession.init setup, [], []⟩

def step (setup : Setup) (s : Punching) (event : Event) : Punching where
  session := s.session.step setup event
  dialled := s.dialled ++ s.session.initiator.dials (s.session.step setup event).initiator
  poked := s.poked ++ s.session.pokes event

end Punching

/-- The addresses of the initiator in some turn of it: its interfaces, and how the peer in the
middle sees it. -/
def Setup.Offers (setup : Setup) (events : List BuildSession.Event)
    (addresses : List SocketAddr) : Prop :=
  ∃ answers, .initiate answers ∈ events ∧
    addresses = getInterfaceAddresses answers.interfaces answers.localAddr ++
      [setup.initiatingAddr]

/-- The same for the asked peer. -/
def Setup.Answers (setup : Setup) (events : List BuildSession.Event)
    (addresses : List SocketAddr) : Prop :=
  ∃ timeout interfaces localAddr, .asked timeout interfaces localAddr ∈ events ∧
    addresses = getInterfaceAddresses interfaces localAddr ++ [setup.askedAddr]

namespace BuildConnectionToPeer

/-- The initiator sends its addresses when it has learned how the peer in the middle sees it. -/
theorem step_sent {machine : BuildConnectionToPeer} {answers : BuildAnswers}
    {addresses : List SocketAddr}
    (sent : .exchangeAddressInformation addresses ∈ (machine.step answers).2) :
    ∃ proxyStream handle peer localPeer addr,
      machine = .waitingForInternetAddressInformation proxyStream handle peer localPeer ∧
      answers.message = .ready (some (.internetAddressInformation addr)) ∧
      addresses = getInterfaceAddresses answers.interfaces answers.localAddr ++ [addr] := by
  cases machine with
  | waitingForProxyStream future handle peer localPeer =>
      simp only [step, pollWaitingForProxyStream] at sent
      split at sent <;> cases sent
  | waitingForInternetAddressInformation proxyStream handle peer localPeer =>
      simp only [step, pollWaitingForInternetAddressInformation] at sent
      split at sent
      · cases sent
      · cases sent
      · cases sent
      · rename_i addr given
        refine ⟨proxyStream, handle, peer, localPeer, addr, rfl, given, ?_⟩
        unfold sending at sent
        split at sent
        · cases sent
        · cases sent
        · cases List.mem_singleton.mp sent
          rfl
      · cases sent
  | waitingForExchangeAddressInformation proxyStream handle peer localPeer =>
      simp only [step, pollWaitingForExchangeAddressInformation] at sent
      split at sent <;> cases sent
  | waitingForConnection newCons proxyStream handle peer localPeer =>
      simp only [step, pollWaitingForConnection] at sent
      split at sent
      · cases sent
      · split at sent <;> cases sent
  | waitingForStream newStream proxyStream handle peer =>
      simp only [step, pollWaitingForStream] at sent
      split at sent <;> cases sent
  | proxyStream proxyStream handle peer =>
      simp only [step, pollProxyStream, sending] at sent
      split at sent
      · cases sent
      · cases sent
      · cases List.mem_singleton.mp sent

/-- The addresses that are dialled are those that were read. -/
theorem step_dials {machine : BuildConnectionToPeer} {answers : BuildAnswers}
    {next : BuildConnectionToPeer} {newCons : List SocketAddr} {proxyStream : Strategies.Stream}
    {handle : NewStreamHandle} {peer localPeer : PeerIdentifier}
    (moved : (machine.step answers).1 = .transition next)
    (waits : next = .waitingForConnection newCons proxyStream handle peer localPeer) :
    ∃ oldProxy oldHandle oldPeer oldLocal,
      machine = .waitingForExchangeAddressInformation oldProxy oldHandle oldPeer oldLocal ∧
      answers.message = .ready (some (.exchangeAddressInformation newCons)) := by
  subst waits
  cases machine with
  | waitingForProxyStream future handle peer localPeer =>
      simp only [step, pollWaitingForProxyStream] at moved
      split at moved <;> cases moved
  | waitingForInternetAddressInformation proxyStream handle peer localPeer =>
      simp only [step, pollWaitingForInternetAddressInformation] at moved
      split at moved
      · cases moved
      · cases moved
      · cases moved
      · unfold sending at moved
        split at moved <;> cases moved
      · cases moved
  | waitingForExchangeAddressInformation oldProxy oldHandle oldPeer oldLocal =>
      refine ⟨oldProxy, oldHandle, oldPeer, oldLocal, rfl, ?_⟩
      simp only [step, pollWaitingForExchangeAddressInformation] at moved
      split at moved
      · cases moved
      · cases moved
      · cases moved
      · rename_i given
        cases moved
        exact given
      · cases moved
  | waitingForConnection newCons proxyStream handle peer localPeer =>
      simp only [step, pollWaitingForConnection] at moved
      split at moved
      · cases moved
      · split at moved <;> cases moved
  | waitingForStream newStream proxyStream handle peer =>
      simp only [step, pollWaitingForStream] at moved
      split at moved <;> cases moved
  | proxyStream proxyStream handle peer =>
      simp only [step, pollProxyStream, sending] at moved
      split at moved <;> cases moved

/-- The states before the addresses are dialled. -/
def early : BuildConnectionToPeer → Bool
  | .waitingForProxyStream _ _ _ _ => true
  | .waitingForInternetAddressInformation _ _ _ _ => true
  | .waitingForExchangeAddressInformation _ _ _ _ => true
  | _ => false

theorem step_early {machine next : BuildConnectionToPeer} {answers : BuildAnswers}
    (moved : (machine.step answers).1 = .transition next) (waits : next.early = true) :
    machine.early = true := by
  cases machine with
  | waitingForProxyStream future handle peer localPeer => rfl
  | waitingForInternetAddressInformation proxyStream handle peer localPeer => rfl
  | waitingForExchangeAddressInformation proxyStream handle peer localPeer => rfl
  | waitingForConnection newCons proxyStream handle peer localPeer =>
      simp only [step, pollWaitingForConnection] at moved
      split at moved
      · cases moved
        cases waits
      · split at moved <;> cases moved <;> cases waits
  | waitingForStream newStream proxyStream handle peer =>
      simp only [step, pollWaitingForStream] at moved
      split at moved <;> cases moved
      cases waits
  | proxyStream proxyStream handle peer =>
      simp only [step, pollProxyStream, sending] at moved
      split at moved <;> cases moved

/-- Behind these states are only those that have dialled. -/
theorem step_late {machine next : BuildConnectionToPeer} {answers : BuildAnswers}
    (moved : (machine.step answers).1 = .transition next) (late : next.early = false) :
    machine.early = false ∨ ∃ newCons proxyStream handle peer localPeer,
      next = .waitingForConnection newCons proxyStream handle peer localPeer := by
  cases machine with
  | waitingForProxyStream future handle peer localPeer =>
      simp only [step, pollWaitingForProxyStream] at moved
      split at moved <;> cases moved
      cases late
  | waitingForInternetAddressInformation proxyStream handle peer localPeer =>
      simp only [step, pollWaitingForInternetAddressInformation] at moved
      split at moved
      · cases moved
      · cases moved
      · cases moved
      · unfold sending at moved
        split at moved <;> cases moved <;> cases late
      · cases moved
  | waitingForExchangeAddressInformation proxyStream handle peer localPeer =>
      simp only [step, pollWaitingForExchangeAddressInformation] at moved
      split at moved <;> cases moved
      exact Or.inr ⟨_, _, _, _, _, rfl⟩
  | waitingForConnection newCons proxyStream handle peer localPeer => exact Or.inl rfl
  | waitingForStream newStream proxyStream handle peer => exact Or.inl rfl
  | proxyStream proxyStream handle peer => exact Or.inl rfl

theorem late_of_step_ready {machine : BuildConnectionToPeer} {answers : BuildAnswers}
    {stream : Stream} (built : (machine.step answers).1 = .ready stream) :
    machine.early = false := by
  cases machine with
  | waitingForProxyStream future handle peer localPeer =>
      simp only [step, pollWaitingForProxyStream] at built
      split at built <;> cases built
  | waitingForInternetAddressInformation proxyStream handle peer localPeer =>
      simp only [step, pollWaitingForInternetAddressInformation] at built
      split at built
      · cases built
      · cases built
      · cases built
      · unfold sending at built
        split at built <;> cases built
      · cases built
  | waitingForExchangeAddressInformation proxyStream handle peer localPeer =>
      simp only [step, pollWaitingForExchangeAddressInformation] at built
      split at built <;> cases built
  | waitingForConnection newCons proxyStream handle peer localPeer => rfl
  | waitingForStream newStream proxyStream handle peer => rfl
  | proxyStream proxyStream handle peer => rfl

end BuildConnectionToPeer

/-- The initiator has got beyond the exchange of the addresses. -/
def Initiator.Past : Initiator → Prop
  | .running machine => machine.early = false
  | .built _ => True
  | _ => False

namespace BuildSession

variable {setup : Setup} {s : BuildSession} {addresses : List SocketAddr}

theorem not_isUser_exchange : ¬ (exchange addresses).IsUser := id

/-- What the asked peer can read of the initiator's addresses, the initiator has sent. -/
theorem exchange_toMiddle (inv : s.Inv setup) (member : exchange addresses ∈ s.toAsked.history) :
    exchange addresses ∈ s.toMiddle.history := by
  rcases (relayed_cases inv).1 with none | ⟨forward, tail, user, passed, same⟩
  · rw [none] at member
    cases member
  · rw [same] at member
    rcases List.mem_cons.mp member with hello | member
    · cases hello
    rcases List.mem_cons.mp member with address | member
    · cases address
    rcases List.mem_append.mp member with inside | outside
    · exact passed.subset (List.mem_cons_of_mem _ inside)
    · exact absurd (user _ outside) not_isUser_exchange

theorem exchange_fromAsked (inv : s.Inv setup)
    (member : exchange addresses ∈ s.toInitiator.history) :
    exchange addresses ∈ s.fromAsked.history := by
  rcases (relayed_cases inv).2 with user | ⟨back, tail, user, passed, same⟩
  · exact absurd (user _ member) not_isUser_exchange
  · rw [same] at member
    rcases List.mem_cons.mp member with address | member
    · cases address
    rcases List.mem_append.mp member with inside | outside
    · exact passed.subset inside
    · exact absurd (user _ outside) not_isUser_exchange

theorem readMessage_mem {channel : Channel Packet} {message : BuildConnectionToPeerProtocol}
    (read : readMessage channel = .ready (some message)) : .message message ∈ channel.history :=
  List.mem_of_getElem? (Channel.next_getElem? (readMessage_some read))

/-- What a step does on the side of the initiator. -/
structure Dials (setup : Setup) (event : Event) (s next : BuildSession) : Prop where
  sent : ∀ addresses, exchange addresses ∈ next.toMiddle.history →
    exchange addresses ∈ s.toMiddle.history ∨ setup.Offers [event] addresses
  more : s.toMiddle.history ⊆ next.toMiddle.history
  early : ∀ machine, next.initiator = .running machine → machine.early = true →
    ∃ before, s.initiator = .running before ∧ before.early = true
  dials : ∀ newCons proxyStream handle peer localPeer,
    next.initiator = .running (.waitingForConnection newCons proxyStream handle peer localPeer) →
    s.initiator = next.initiator ∨
      (∃ before, s.initiator = .running before ∧ before.early = true) ∧
      s.initiator.dials next.initiator = newCons ∧ exchange newCons ∈ s.fromAsked.history
  past : next.initiator.Past → s.initiator.Past ∨
    ∃ newCons proxyStream handle peer localPeer,
      next.initiator = .running (.waitingForConnection newCons proxyStream handle peer localPeer)

/-- What a step does on the side of the asked peer. -/
structure Pokes (setup : Setup) (event : Event) (s next : BuildSession) : Prop where
  sent : ∀ addresses, exchange addresses ∈ next.fromAsked.history →
    exchange addresses ∈ s.fromAsked.history ∨
      setup.Answers [event] addresses ∧ s.fromAsked.history = [] ∧
        exchange (s.pokes event) ∈ s.toMiddle.history
  more : s.fromAsked.history ⊆ next.fromAsked.history
  pokes : s.pokes event = [] ∨ s.fromAsked.history = [] ∧ next.fromAsked.history ≠ [] ∧
    exchange (s.pokes event) ∈ s.toMiddle.history

/-- The asked peer believes the peer in the middle. -/
def Believes (setup : Setup) (s : BuildSession) : Prop :=
  ∀ remote, s.asked = .building remote → ∀ addr, remote.internetAddr = some addr →
    addr = setup.askedAddr

variable {event : Event} {next : BuildSession}

theorem Dials.of_same (initiator : next.initiator = s.initiator)
    (toMiddle : next.toMiddle.history = s.toMiddle.history) : Dials setup event s next where
  sent addresses member := Or.inl (toMiddle ▸ member)
  more := by
    rw [toMiddle]
    exact List.Subset.refl _
  early machine running isEarly := ⟨machine, initiator ▸ running, isEarly⟩
  dials _ _ _ _ _ _ := Or.inl initiator.symm
  past reached := Or.inl (initiator ▸ reached)

/-- An initiator that does not go on. -/
theorem Dials.of_ended (initiator : ∀ machine, next.initiator ≠ .running machine)
    (past : next.initiator.Past → s.initiator.Past) {packets : List Packet}
    (toMiddle : next.toMiddle.history = s.toMiddle.history ++ packets)
    (offers : ∀ addresses, exchange addresses ∈ packets → setup.Offers [event] addresses) :
    Dials setup event s next where
  sent addresses member := by
    rw [toMiddle] at member
    exact (List.mem_append.mp member).imp_right (offers addresses)
  more := by
    rw [toMiddle]
    exact List.subset_append_left _ _
  early machine running := absurd running (initiator machine)
  dials _ _ _ _ _ running := absurd running (initiator _)
  past reached := Or.inl (past reached)

theorem exchange_not_mem_of_userOnly {packets : List Packet} (user : UserOnly packets) :
    exchange addresses ∉ packets :=
  fun member => not_isUser_exchange (user _ member)

theorem exchange_mem_map {sent : List BuildConnectionToPeerProtocol}
    (member : exchange addresses ∈ sent.map Packet.message) :
    .exchangeAddressInformation addresses ∈ sent := by
  obtain ⟨message, inside, same⟩ := List.mem_map.mp member
  cases same
  exact inside

section Initiate

variable {answers given : BuildAnswers} {machine : BuildConnectionToPeer}

/-- The addresses that the initiator sends are its own. -/
theorem sent_offers (inv : s.Inv setup) (running : s.initiator = .running machine)
    (host : given.interfaces = answers.interfaces ∧ given.localAddr = answers.localAddr)
    (reads : machine.reads = true → given.message = readMessage s.toInitiator)
    (sent : .exchangeAddressInformation addresses ∈ (machine.step given).2) :
    setup.Offers [.initiate answers] addresses := by
  obtain ⟨proxyStream, handle, peer, localPeer, addr, rfl, message, rfl⟩ :=
    BuildConnectionToPeer.step_sent sent
  have heard := inv.heard
  rw [running] at heard
  have first := first_read inv heard ((reads rfl).symm.trans message)
  cases first
  refine ⟨answers, List.mem_singleton.mpr rfl, ?_⟩
  rw [host.1, host.2]

theorem proceed_dials (given : BuildAnswers) (inv : s.Inv setup)
    (running : s.initiator = .running machine)
    (host : given.interfaces = answers.interfaces ∧ given.localAddr = answers.localAddr)
    (reads : machine.reads = true → given.message = readMessage s.toInitiator)
    (toInitiator : Channel Packet) :
    Dials setup (.initiate answers) s
      ({ s with toInitiator := toInitiator }.proceed machine (machine.step given)) := by
  have offers := fun addresses => @sent_offers _ _ addresses _ _ _ inv running host reads
  cases polled : machine.step given with
  | mk result sent =>
      rw [polled] at offers
      cases result with
      | notReady => exact .of_same rfl rfl
      | transition after =>
          have moved : (machine.step given).1 = .transition after := by rw [polled]
          refine ⟨?_, ?_, ?_, ?_, ?_⟩
          · intro addresses member
            simp only [proceed, Channel.sendAll_history] at member
            rcases List.mem_append.mp member with before | now
            · exact Or.inl before
            rcases List.mem_append.mp now with hello | now
            · cases machine <;> simp [BuildConnectionToPeer.hello, exchange] at hello
            · exact Or.inr (offers addresses (exchange_mem_map now))
          · simp only [proceed, Channel.sendAll_history]
            exact List.subset_append_left _ _
          · intro reached same isEarly
            cases same
            exact ⟨machine, running, BuildConnectionToPeer.step_early moved isEarly⟩
          · intro newCons proxyStream handle peer localPeer same
            refine Or.inr ?_
            have waits := Initiator.running.inj same
            obtain ⟨oldProxy, oldHandle, oldPeer, oldLocal, rfl, message⟩ :=
              BuildConnectionToPeer.step_dials moved waits
            refine ⟨⟨_, running, rfl⟩, ?_, ?_⟩
            · rw [same, running]
              rfl
            · exact exchange_fromAsked inv (readMessage_mem ((reads rfl).symm.trans message))
          · intro late
            rw [running]
            refine (BuildConnectionToPeer.step_late moved late).imp_right ?_
            rintro ⟨newCons, proxyStream, handle, peer, localPeer, rfl⟩
            exact ⟨newCons, proxyStream, handle, peer, localPeer, rfl⟩
      | ready stream =>
          have late : machine.early = false :=
            BuildConnectionToPeer.late_of_step_ready (by rw [polled])
          refine .of_ended (fun _ same => by cases same) (fun _ => running ▸ late)
            (Channel.sendAll_history _ _) ?_
          intro addresses member
          rcases List.mem_append.mp member with now | closes
          · exact offers addresses (exchange_mem_map now)
          · cases machine <;> simp [BuildConnectionToPeer.closes, exchange] at closes
      | error reason =>
          refine .of_ended (fun _ same => by cases same) False.elim (Channel.send_history _ _) ?_
          intro addresses member
          exact absurd member (exchange_not_mem_of_userOnly (UserOnly.nil.snoc trivial))
      | panic text =>
          refine .of_ended (fun _ same => by cases same) False.elim (Channel.send_history _ _) ?_
          intro addresses member
          exact absurd member (exchange_not_mem_of_userOnly (UserOnly.nil.snoc trivial))

theorem initiate_dials (inv : s.Inv setup) :
    Dials setup (.initiate answers) s (s.initiate answers) := by
  unfold initiate
  split
  · rename_i machine running
    split
    · refine proceed_dials _ inv running ?_ ?_ s.toInitiator.receive
      · exact ⟨rfl, rfl⟩
      · exact fun _ => rfl
    · rename_i unread
      refine proceed_dials _ inv running ?_ ?_ s.toInitiator
      · exact ⟨rfl, rfl⟩
      · exact fun reads => absurd reads unread
  · exact .of_same rfl rfl

end Initiate

/-- A peer that pokes nobody and sends no addresses. -/
theorem Pokes.of_user (none : s.pokes event = []) {packets : List Packet}
    (user : UserOnly packets)
    (fromAsked : next.fromAsked.history = s.fromAsked.history ++ packets) :
    Pokes setup event s next where
  sent addresses member := by
    rw [fromAsked] at member
    exact Or.inl ((List.mem_append.mp member).resolve_right (exchange_not_mem_of_userOnly user))
  more := by
    rw [fromAsked]
    exact List.subset_append_left _ _
  pokes := Or.inl none

theorem Pokes.of_same (none : s.pokes event = [])
    (fromAsked : next.fromAsked.history = s.fromAsked.history) : Pokes setup event s next :=
  .of_user none .nil (fromAsked.trans (List.append_nil _).symm)

theorem drop_dials : Dials setup event s s.drop := by
  unfold drop
  split
  · refine .of_ended (fun _ same => by cases same) False.elim (Channel.send_history _ _) ?_
    intro addresses member
    exact absurd member (exchange_not_mem_of_userOnly (UserOnly.nil.snoc trivial))
  · exact .of_same rfl rfl

theorem initiatorUser_dials (packet : Option LengthDelimited.Bytes) :
    Dials setup event s (s.initiatorUser packet) := by
  unfold initiatorUser
  split
  · rename_i stream built
    split
    · refine .of_ended (fun machine same => by cases built.symm.trans same) id
        (Channel.send_history _ _) ?_
      intro addresses member
      exact absurd member (exchange_not_mem_of_userOnly (UserOnly.nil.snoc (user_isUser packet)))
    · exact .of_same rfl rfl
  · exact .of_same rfl rfl

/-- The peer in the middle sends nothing in the name of the other two. -/
structure Bystander (s next : BuildSession) : Prop where
  initiator : next.initiator = s.initiator
  asked : next.asked = s.asked
  toMiddle : next.toMiddle.history = s.toMiddle.history
  fromAsked : next.fromAsked.history = s.fromAsked.history

theorem endRelay_bystander (s : BuildSession) : Bystander s s.endRelay := by
  unfold endRelay
  split <;> exact ⟨rfl, rfl, rfl, rfl⟩

theorem stepMiddle_bystander (setup : Setup) (s : BuildSession) (timeout : TimeoutPoll)
    (registry : Registry) (opened flushed : Poll Unit) :
    Bystander s (s.stepMiddle setup timeout registry opened flushed) := by
  unfold stepMiddle
  split
  · split
    · exact ⟨rfl, rfl, rfl, rfl⟩
    · split
      · exact ⟨rfl, rfl, rfl, rfl⟩
      · split
        · exact ⟨rfl, rfl, s.toMiddle.receive_history, rfl⟩
        · exact ⟨rfl, rfl, rfl, rfl⟩
      · exact ⟨rfl, rfl, rfl, rfl⟩
  · split <;> exact ⟨rfl, rfl, rfl, rfl⟩
  · exact ⟨rfl, rfl, rfl, rfl⟩

theorem relayToAsked_bystander (s : BuildSession) : Bystander s s.relayToAsked := by
  unfold relayToAsked
  split
  · exact s.endRelay_bystander
  · exact ⟨rfl, rfl, s.toMiddle.receive_history, rfl⟩
  · exact ⟨rfl, rfl, rfl, rfl⟩

theorem relayToInitiator_bystander (s : BuildSession) : Bystander s s.relayToInitiator := by
  unfold relayToInitiator
  split
  · exact s.endRelay_bystander
  · exact ⟨rfl, rfl, rfl, s.fromAsked.receive_history⟩
  · exact ⟨rfl, rfl, rfl, rfl⟩

theorem closed_userOnly : UserOnly [Packet.closed] := UserOnly.nil.snoc trivial

theorem endAsked_pokes (none : s.pokes event = []) (toAsked : Channel Packet) :
    Pokes setup event s { s with toAsked := toAsked }.endAsked := by
  unfold endAsked
  split
  · exact .of_user none (closed_userOnly) (Channel.send_history _ _)
  · exact .of_user none (closed_userOnly) (Channel.send_history _ _)
  · exact .of_same none rfl

theorem askedUser_pokes (none : s.pokes event = []) (packet : Option LengthDelimited.Bytes) :
    Pokes setup event s (s.askedUser packet) := by
  unfold askedUser
  split
  · exact .of_user none (UserOnly.nil.snoc (user_isUser packet)) (Channel.send_history _ _)
  · exact .of_same none rfl

theorem endAsked_believes (believes : s.Believes setup) (toAsked : Channel Packet) :
    { s with toAsked := toAsked }.endAsked.Believes setup := by
  unfold endAsked
  split
  · intro remote same
    cases same
  · intro remote same
    cases same
  · exact believes

/-- A turn of the asked peer's machine: it learns its address, or it answers with its own addresses
and pokes those that it got. -/
theorem building_pokes {remote : BuildConnectionToPeerRemote} (inv : s.Inv setup)
    (believes : s.Believes setup) (state : s.asked = .building remote) (timeout : TimeoutPoll)
    (interfaces : List IpAddr) (localAddr : SocketAddr) :
    let next := { s with toAsked := s.toAsked.receive }.reply
      (remote.step (readMessage s.toAsked) .accepted interfaces localAddr)
    Pokes setup (.asked timeout interfaces localAddr) s next ∧ next.Believes setup := by
  intro next
  have poked : s.pokes (.asked timeout interfaces localAddr) =
      (remote.step (readMessage s.toAsked) .accepted interfaces localAddr).2.poked := by
    simp only [pokes, state]
  have replied := inv.replied
  rw [state] at replied
  obtain ⟨_, isSome, _, _⟩ := replied
  obtain ⟨stream, held⟩ := Option.isSome_iff_exists.mp isSome
  simp only [next, BuildConnectionToPeerRemote.step, held] at poked ⊢
  cases read : readMessage s.toAsked with
  | notReady =>
      simp only [read] at poked
      exact ⟨.of_same poked rfl, believes⟩
  | error reason =>
      simp only [read] at poked
      exact ⟨endAsked_pokes poked _, endAsked_believes believes _⟩
  | ready message =>
      cases message with
      | none =>
          simp only [read] at poked
          exact ⟨endAsked_pokes poked _, endAsked_believes believes _⟩
      | some message =>
          rcases stepAsked_message inv state read with
            ⟨_, rfl, _⟩ | ⟨_, ⟨addresses, rfl⟩, known, unanswered⟩ | ⟨_, rfl, _⟩
          · simp only [read] at poked
            refine ⟨.of_same poked ?_, ?_⟩
            · exact (Channel.sendAll_history _ _).trans (List.append_nil _)
            · intro remote same addr given
              cases same
              exact (Option.some.inj given).symm
          · obtain ⟨internetAddr, found⟩ := Option.isSome_iff_exists.mp known
            have own := believes remote state internetAddr found
            simp only [read, found] at poked
            have offered := exchange_toMiddle inv (readMessage_mem read)
            rw [← poked] at offered
            simp only [found]
            let mine := getInterfaceAddresses interfaces localAddr ++ [internetAddr]
            have answer : (s.fromAsked.sendAll [exchange mine]).history = [exchange mine] := by
              rw [Channel.sendAll_history, unanswered]
              rfl
            refine ⟨⟨?_, ?_, Or.inr ⟨unanswered, ?_, offered⟩⟩, ?_⟩
            · intro given member
              refine Or.inr ⟨⟨timeout, interfaces, localAddr, List.mem_singleton.mpr rfl, ?_⟩,
                unanswered, offered⟩
              change exchange given ∈ (s.fromAsked.sendAll [exchange mine]).history at member
              rw [answer] at member
              cases List.mem_singleton.mp member
              rw [← own]
            · exact (s.fromAsked.history_prefix_sendAll _).subset
            · change (s.fromAsked.sendAll [exchange mine]).history ≠ []
              rw [answer]
              exact List.cons_ne_nil _ _
            · intro given same
              cases same
              exact believes remote state
          · simp only [read] at poked
            refine ⟨.of_same poked rfl, ?_⟩
            intro remote same
            cases same

theorem stepAsked_pokes (inv : s.Inv setup) (believes : s.Believes setup) (timeout : TimeoutPoll)
    (interfaces : List IpAddr) (localAddr : SocketAddr) :
    Pokes setup (.asked timeout interfaces localAddr) s
      (s.stepAsked setup timeout interfaces localAddr) ∧
    (s.stepAsked setup timeout interfaces localAddr).Believes setup := by
  unfold stepAsked
  split
  · rename_i state
    have poked : s.pokes (.asked timeout interfaces localAddr) = [] := by
      simp only [pokes, state]
    split
    · exact ⟨.of_same poked rfl, believes⟩
    · split
      · exact ⟨.of_same poked rfl, believes⟩
      · rename_i remote polled
        obtain ⟨stream, peer, read, rfl⟩ := IncomingStream.poll_buildRemote polled
        refine ⟨.of_same poked rfl, ?_⟩
        intro given same addr known
        cases same
        cases known
      · exact ⟨endAsked_pokes poked s.toAsked, endAsked_believes believes s.toAsked⟩
  · rename_i remote state
    exact building_pokes inv believes state timeout interfaces localAddr
  · refine ⟨.of_same ?_ rfl, believes⟩
    simp only [pokes]

/-- The asked peer leaves the side of the initiator as it is. -/
theorem endAsked_initiator (s : BuildSession) :
    s.endAsked.initiator = s.initiator ∧ s.endAsked.toMiddle = s.toMiddle := by
  unfold endAsked
  split <;> exact ⟨rfl, rfl⟩

theorem stepAsked_initiator (s : BuildSession) (timeout : TimeoutPoll) (interfaces : List IpAddr)
    (localAddr : SocketAddr) :
    (s.stepAsked setup timeout interfaces localAddr).initiator = s.initiator ∧
    (s.stepAsked setup timeout interfaces localAddr).toMiddle = s.toMiddle := by
  unfold stepAsked
  split
  · split
    · exact ⟨rfl, rfl⟩
    · split
      · exact ⟨rfl, rfl⟩
      · exact ⟨rfl, rfl⟩
      · exact s.endAsked_initiator
  · unfold reply
    split
    · exact ⟨rfl, rfl⟩
    · exact ⟨rfl, rfl⟩
    · split
      · exact ⟨rfl, rfl⟩
      · exact endAsked_initiator _
    · exact endAsked_initiator _
    · exact ⟨rfl, rfl⟩
  · exact ⟨rfl, rfl⟩

theorem askedUser_initiator (s : BuildSession) (packet : Option LengthDelimited.Bytes) :
    (s.askedUser packet).initiator = s.initiator ∧
    (s.askedUser packet).toMiddle = s.toMiddle := by
  unfold askedUser
  split <;> exact ⟨rfl, rfl⟩

/-- The initiator leaves the side of the asked peer as it is. -/
theorem initiate_asked (s : BuildSession) (answers : BuildAnswers) :
    (s.initiate answers).asked = s.asked ∧ (s.initiate answers).fromAsked = s.fromAsked := by
  unfold initiate
  split
  · split <;> unfold proceed <;> split <;> exact ⟨rfl, rfl⟩
  · exact ⟨rfl, rfl⟩

theorem drop_asked (s : BuildSession) :
    s.drop.asked = s.asked ∧ s.drop.fromAsked = s.fromAsked := by
  unfold drop
  split <;> exact ⟨rfl, rfl⟩

theorem initiatorUser_asked (s : BuildSession) (packet : Option LengthDelimited.Bytes) :
    (s.initiatorUser packet).asked = s.asked ∧
    (s.initiatorUser packet).fromAsked = s.fromAsked := by
  unfold initiatorUser
  split
  · split <;> exact ⟨rfl, rfl⟩
  · exact ⟨rfl, rfl⟩

theorem step_dials (inv : s.Inv setup) (event : Event) :
    Dials setup event s (s.step setup event) := by
  cases event with
  | initiate answers => exact initiate_dials inv
  | drop => exact drop_dials
  | middle timeout registry opened flushed =>
      have idle := stepMiddle_bystander setup s timeout registry opened flushed
      exact .of_same idle.initiator idle.toMiddle
  | relayToAsked =>
      have idle := s.relayToAsked_bystander
      exact .of_same idle.initiator idle.toMiddle
  | relayToInitiator =>
      have idle := s.relayToInitiator_bystander
      exact .of_same idle.initiator idle.toMiddle
  | endRelay =>
      have idle := s.endRelay_bystander
      exact .of_same idle.initiator idle.toMiddle
  | asked timeout interfaces localAddr =>
      obtain ⟨initiator, toMiddle⟩ := stepAsked_initiator s timeout interfaces localAddr
      exact .of_same initiator (congrArg Channel.history toMiddle)
  | endAsked =>
      obtain ⟨initiator, toMiddle⟩ := s.endAsked_initiator
      exact .of_same initiator (congrArg Channel.history toMiddle)
  | initiatorUser packet => exact initiatorUser_dials packet
  | askedUser packet =>
      obtain ⟨initiator, toMiddle⟩ := s.askedUser_initiator packet
      exact .of_same initiator (congrArg Channel.history toMiddle)

theorem Believes.of_same (believes : s.Believes setup) (asked : next.asked = s.asked) :
    next.Believes setup := by
  unfold Believes
  rw [asked]
  exact believes

theorem step_pokes (inv : s.Inv setup) (believes : s.Believes setup) (event : Event) :
    Pokes setup event s (s.step setup event) ∧ (s.step setup event).Believes setup := by
  cases event with
  | initiate answers =>
      obtain ⟨asked, fromAsked⟩ := s.initiate_asked answers
      exact ⟨.of_same rfl (congrArg Channel.history fromAsked), believes.of_same asked⟩
  | drop =>
      obtain ⟨asked, fromAsked⟩ := s.drop_asked
      exact ⟨.of_same rfl (congrArg Channel.history fromAsked), believes.of_same asked⟩
  | middle timeout registry opened flushed =>
      have idle := stepMiddle_bystander setup s timeout registry opened flushed
      exact ⟨.of_same rfl idle.fromAsked, believes.of_same idle.asked⟩
  | relayToAsked =>
      have idle := s.relayToAsked_bystander
      exact ⟨.of_same rfl idle.fromAsked, believes.of_same idle.asked⟩
  | relayToInitiator =>
      have idle := s.relayToInitiator_bystander
      exact ⟨.of_same rfl idle.fromAsked, believes.of_same idle.asked⟩
  | endRelay =>
      have idle := s.endRelay_bystander
      exact ⟨.of_same rfl idle.fromAsked, believes.of_same idle.asked⟩
  | asked timeout interfaces localAddr =>
      exact stepAsked_pokes inv believes timeout interfaces localAddr
  | endAsked => exact ⟨endAsked_pokes rfl s.toAsked, endAsked_believes believes s.toAsked⟩
  | initiatorUser packet =>
      obtain ⟨asked, fromAsked⟩ := s.initiatorUser_asked packet
      exact ⟨.of_same rfl (congrArg Channel.history fromAsked), believes.of_same asked⟩
  | askedUser packet =>
      refine ⟨askedUser_pokes rfl packet, believes.of_same ?_⟩
      change (s.askedUser packet).asked = s.asked
      unfold askedUser
      split <;> rfl

end BuildSession

theorem Initiator.dials_eq_nil {before after : Initiator}
    (other : ∀ newCons proxyStream handle peer localPeer,
      after ≠ .running (.waitingForConnection newCons proxyStream handle peer localPeer)) :
    before.dials after = [] := by
  unfold Initiator.dials
  split
  · exact absurd rfl (other _ _ _ _ _)
  · rfl

theorem Initiator.dials_self (initiator : Initiator) : initiator.dials initiator = [] := by
  cases initiator with
  | running machine => cases machine <;> rfl
  | built | failed | panicked | dropped => rfl

theorem Setup.Offers.mono {setup : Setup} {some all : List BuildSession.Event}
    {addresses : List SocketAddr} (offers : setup.Offers some addresses) (subset : some ⊆ all) :
    setup.Offers all addresses := by
  obtain ⟨answers, member, same⟩ := offers
  exact ⟨answers, subset member, same⟩

theorem Setup.Answers.mono {setup : Setup} {some all : List BuildSession.Event}
    {addresses : List SocketAddr} (answers : setup.Answers some addresses) (subset : some ⊆ all) :
    setup.Answers all addresses := by
  obtain ⟨timeout, interfaces, localAddr, member, same⟩ := answers
  exact ⟨timeout, interfaces, localAddr, subset member, same⟩

namespace Punching

/-- The addresses that are poked are those the initiator has sent, and those that are dialled are
the answer to them. -/
structure Inv (setup : Setup) (events : List BuildSession.Event) (s : Punching) : Prop where
  session : s.session.Inv setup
  believes : s.session.Believes setup
  offers : ∀ addresses, exchange addresses ∈ s.session.toMiddle.history →
    setup.Offers events addresses
  answers : ∀ addresses, exchange addresses ∈ s.session.fromAsked.history →
    setup.Answers events addresses ∧ exchange s.poked ∈ s.session.toMiddle.history
  unanswered : s.session.fromAsked.history = [] → s.poked = []
  poked : s.poked = [] ∨ exchange s.poked ∈ s.session.toMiddle.history
  early : ∀ machine, s.session.initiator = .running machine → machine.early = true →
    s.dialled = []
  waiting : ∀ newCons proxyStream handle peer localPeer, s.session.initiator =
    .running (.waitingForConnection newCons proxyStream handle peer localPeer) →
      s.dialled = newCons
  past : s.session.initiator.Past → exchange s.dialled ∈ s.session.fromAsked.history
  dialled : s.dialled = [] ∨ exchange s.dialled ∈ s.session.fromAsked.history

variable {setup : Setup} {events : List BuildSession.Event} {s : Punching}

theorem init_inv : (init setup).Inv setup events where
  session := BuildSession.init_inv setup
  believes _ same := by cases same
  offers _ member := by cases member
  answers _ member := by cases member
  unanswered _ := rfl
  poked := Or.inl rfl
  early _ _ _ := rfl
  waiting _ _ _ _ _ same := by cases same
  past isPast := by cases isPast
  dialled := Or.inl rfl

/-- The record of the dialled addresses is written once, with addresses of the asked peer. -/
theorem step_dialled (inv : s.Inv setup events) (event : BuildSession.Event) :
    (s.step setup event).dialled = s.dialled ∧
      (∀ newCons proxyStream handle peer localPeer, (s.step setup event).session.initiator =
        .running (.waitingForConnection newCons proxyStream handle peer localPeer) →
        s.session.initiator = (s.step setup event).session.initiator) ∨
    (∃ newCons proxyStream handle peer localPeer, (s.step setup event).session.initiator =
      .running (.waitingForConnection newCons proxyStream handle peer localPeer) ∧
      (s.step setup event).dialled = newCons) ∧
      exchange (s.step setup event).dialled ∈ s.session.fromAsked.history := by
  have dials := BuildSession.step_dials inv.session event
  have written : (s.step setup event).dialled =
      s.dialled ++ s.session.initiator.dials (s.step setup event).session.initiator := rfl
  change BuildSession.Dials setup event s.session (s.step setup event).session at dials
  by_cases waits : ∃ newCons proxyStream handle peer localPeer,
      (s.step setup event).session.initiator =
        .running (.waitingForConnection newCons proxyStream handle peer localPeer)
  · obtain ⟨newCons, proxyStream, handle, peer, localPeer, waits⟩ := waits
    rcases dials.dials _ _ _ _ _ waits with same | ⟨⟨before, running, isEarly⟩, dialled, member⟩
    · refine Or.inl ⟨?_, fun _ _ _ _ _ _ => same⟩
      rw [written, ← same, Initiator.dials_self, List.append_nil]
    · rw [dialled, inv.early before running isEarly, List.nil_append] at written
      rw [written]
      exact Or.inr ⟨⟨newCons, proxyStream, handle, peer, localPeer, waits, rfl⟩, member⟩
  · refine Or.inl ⟨?_, fun newCons proxyStream handle peer localPeer same =>
      absurd ⟨newCons, proxyStream, handle, peer, localPeer, same⟩ waits⟩
    rw [written, Initiator.dials_eq_nil, List.append_nil]
    exact fun newCons proxyStream handle peer localPeer same =>
      waits ⟨newCons, proxyStream, handle, peer, localPeer, same⟩

/-- So is that of the poked ones, with addresses of the initiator. -/
theorem step_poked (inv : s.Inv setup events) (event : BuildSession.Event) :
    (s.step setup event).poked = s.poked ∨
    s.session.fromAsked.history = [] ∧ (s.step setup event).session.fromAsked.history ≠ [] ∧
      exchange (s.step setup event).poked ∈ s.session.toMiddle.history := by
  have written : (s.step setup event).poked = s.poked ++ s.session.pokes event := rfl
  obtain ⟨pokes, _⟩ := BuildSession.step_pokes inv.session inv.believes event
  rcases pokes.pokes with none | ⟨unanswered, answered, offered⟩
  · left
    rw [written, none, List.append_nil]
  · right
    rw [written, inv.unanswered unanswered, List.nil_append]
    exact ⟨unanswered, answered, offered⟩

theorem step_inv (inv : s.Inv setup events) {event : BuildSession.Event}
    (member : event ∈ events) : (s.step setup event).Inv setup events := by
  have subset : [event] ⊆ events := List.cons_subset.mpr ⟨member, List.nil_subset events⟩
  have dials := BuildSession.step_dials inv.session event
  obtain ⟨pokes, believes⟩ := BuildSession.step_pokes inv.session inv.believes event
  have dialled := step_dialled inv event
  have poked := step_poked inv event
  change BuildSession.Dials setup event s.session (s.step setup event).session at dials
  change BuildSession.Pokes setup event s.session (s.step setup event).session at pokes
  refine ⟨BuildSession.step_inv inv.session event, believes, ?_, ?_, ?_, ?_, ?_, ?_, ?_, ?_⟩
  · intro addresses sent
    rcases dials.sent addresses sent with before | now
    · exact inv.offers addresses before
    · exact now.mono subset
  · intro addresses sent
    rcases pokes.sent addresses sent with before | ⟨now, unanswered, offered⟩
    · obtain ⟨answers, offered⟩ := inv.answers addresses before
      rcases poked with same | ⟨unanswered, _⟩
      · rw [same]
        exact ⟨answers, dials.more offered⟩
      · rw [unanswered] at before
        cases before
    · refine ⟨now.mono subset, ?_⟩
      change exchange (s.poked ++ s.session.pokes event) ∈ _
      rw [inv.unanswered unanswered, List.nil_append]
      exact dials.more offered
  · intro unanswered
    have before : s.session.fromAsked.history = [] :=
      List.subset_nil.mp (unanswered ▸ pokes.more)
    rcases poked with same | ⟨_, answered, _⟩
    · rw [same]
      exact inv.unanswered before
    · exact absurd unanswered answered
  · rcases poked with same | ⟨_, _, offered⟩
    · rw [same]
      exact inv.poked.imp_right (fun offered => dials.more offered)
    · exact Or.inr (dials.more offered)
  · intro machine running isEarly
    obtain ⟨before, wasRunning, wasEarly⟩ := dials.early machine running isEarly
    rcases dialled with ⟨same, _⟩ | ⟨⟨_, _, _, _, _, waits, _⟩, _⟩
    · rw [same]
      exact inv.early before wasRunning wasEarly
    · cases waits.symm.trans running
      cases isEarly
  · intro newCons proxyStream handle peer localPeer waits
    rcases dialled with ⟨same, stays⟩ | ⟨⟨_, _, _, _, _, waiting, now⟩, _⟩
    · rw [same]
      exact inv.waiting _ _ _ _ _ ((stays _ _ _ _ _ waits).trans waits)
    · cases waiting.symm.trans waits
      exact now
  · intro isPast
    rcases dialled with ⟨same, stays⟩ | ⟨_, answered⟩
    · rw [same]
      refine pokes.more (inv.past ?_)
      rcases dials.past isPast with was | ⟨newCons, proxyStream, handle, peer, localPeer, waits⟩
      · exact was
      · rw [stays _ _ _ _ _ waits]
        exact isPast
    · exact pokes.more answered
  · rcases dialled with ⟨same, _⟩ | ⟨_, answered⟩
    · rw [same]
      exact inv.dialled.imp_right (fun answered => pokes.more answered)
    · exact Or.inr (pokes.more answered)

/-- Whatever order the three peers take their turns in: the asked peer pokes nobody, or exactly the
addresses that the initiator has sent it, which are those of its interfaces and the one under which
the peer in the middle sees it. The initiator dials nobody, or exactly the addresses of the asked
peer in the same sense, and only when that has poked its own. Beyond the exchange it has dialled
them, and it waits for the connections to all of them. -/
theorem punching_addresses (setup : Setup) (events : List BuildSession.Event) :
    let s := Transition.run (step setup) (init setup) events
    (s.poked = [] ∨ setup.Offers events s.poked ∧
      exchange s.poked ∈ s.session.toMiddle.history) ∧
    (s.dialled = [] ∨ setup.Answers events s.dialled ∧
      exchange s.dialled ∈ s.session.fromAsked.history ∧ setup.Offers events s.poked) ∧
    (s.session.initiator.Past → s.dialled ≠ []) ∧
    ∀ newCons proxyStream handle peer localPeer, s.session.initiator =
      .running (.waitingForConnection newCons proxyStream handle peer localPeer) →
      newCons = s.dialled := by
  intro s
  have inv : s.Inv setup events :=
    Transition.run_invariant_of (Inv setup events) (· ∈ events)
      (fun _ _ member inv => step_inv inv member) init_inv (fun _ member => member)
  refine ⟨?_, ?_, ?_, ?_⟩
  · exact inv.poked.imp_right (fun offered => ⟨inv.offers s.poked offered, offered⟩)
  · refine inv.dialled.imp_right (fun answered => ?_)
    obtain ⟨answers, offered⟩ := inv.answers s.dialled answered
    exact ⟨answers, answered, inv.offers s.poked offered⟩
  · intro isPast none
    obtain ⟨⟨_, _, _, _, same⟩, _⟩ := inv.answers s.dialled (inv.past isPast)
    rw [none] at same
    exact absurd same.symm (List.append_ne_nil_of_right_ne_nil _ (List.cons_ne_nil _ _))
  · intro newCons proxyStream handle peer localPeer waits
    exact (inv.waiting newCons proxyStream handle peer localPeer waits).symm

example :
    let s := Transition.run (step BuildSession.relayed) (init BuildSession.relayed)
      BuildSession.fallback
    s.dialled = [⟨.v4 2, 22222⟩] ∧ s.poked = [⟨.v4 1, 22222⟩] := by
  decide

end Punching

end HolePunch
