import HolePunch.BuildSession

set_option autoImplicit false

/- The invariant of building a connection: the script of packets that each of the three peers has
sent so far, and what the others can have read of it. -/
namespace HolePunch

namespace Packet

def internet (addr : SocketAddr) : Packet := .message (.internetAddressInformation addr)

def exchange (addresses : List SocketAddr) : Packet :=
  .message (.exchangeAddressInformation addresses)

def proxy : Packet := .message .proxyConnection

/-- What is not part of the protocol: the data of the users, and the end of a stream. -/
def IsUser : Packet → Prop
  | .data _ => True
  | .closed => True
  | _ => False

end Packet

open Packet (internet exchange proxy)

/-- Only packets that are not part of the protocol. -/
def UserOnly (packets : List Packet) : Prop := ∀ packet ∈ packets, packet.IsUser

theorem UserOnly.nil : UserOnly [] := fun _ member => by cases member

theorem UserOnly.snoc {packets : List Packet} (before : UserOnly packets) {packet : Packet}
    (user : packet.IsUser) : UserOnly (packets ++ [packet]) :=
  List.forall_mem_append.mpr ⟨before, List.forall_mem_singleton.mpr user⟩

/-- The peer that a machine looks for. -/
def BuildConnectionToPeer.searched : BuildConnectionToPeer → PeerIdentifier
  | .waitingForProxyStream _ _ peer _ => peer
  | .waitingForInternetAddressInformation _ _ peer _ => peer
  | .waitingForExchangeAddressInformation _ _ peer _ => peer
  | .waitingForConnection _ _ _ peer _ => peer
  | .waitingForStream _ _ _ peer => peer
  | .proxyStream _ _ peer => peer

namespace Setup

/-- The hello of the initiating peer. -/
def asks (setup : Setup) : Packet := .hello (.proxyBuildConnectionToPeer setup.target)

/-- The hello of the peer in the middle, which names the peer it has authenticated. -/
def announces (setup : Setup) : Packet :=
  .hello (.buildConnectionToPeer setup.initiating.peerIdentifier)

end Setup

/-- The initiator has stopped at some point before it hands out a stream. -/
def Stopped (setup : Setup) (sent : List Packet) : Prop :=
  ∃ rest, UserOnly rest ∧ (sent = rest ∨ sent = setup.asks :: rest ∨
    ∃ addresses, sent = setup.asks :: exchange addresses :: rest)

/-- What the initiator has sent in each of its states. -/
def Initiator.Sent (setup : Setup) (sent : List Packet) : Initiator → Prop
  | .running (.waitingForProxyStream future _ _ _) =>
      sent = [] ∧ future.streamHello = .proxyBuildConnectionToPeer setup.target
  | .running (.waitingForInternetAddressInformation _ _ _ _) => sent = [setup.asks]
  | .running _ => ∃ addresses, sent = [setup.asks, exchange addresses]
  | .built stream => ∃ addresses rest, UserOnly rest ∧
      sent = setup.asks :: exchange addresses ::
        (if stream.isProxyStream then proxy :: rest else rest)
  | _ => Stopped setup sent

/-- How much the initiator has read while it still reads. -/
def Initiator.Heard (received : List Packet) : Initiator → Prop
  | .running (.waitingForProxyStream _ _ _ _) => received.length = 0
  | .running (.waitingForInternetAddressInformation _ _ _ _) => received.length = 0
  | .running (.waitingForExchangeAddressInformation _ _ _ _) => received.length = 1
  | _ => True

/-- The initiator looks for the target, and what it opens besides its proxy stream is direct. -/
def Initiator.Sound (setup : Setup) : Initiator → Prop
  | .running machine => machine.searched = setup.target ∧
      ∀ newStream proxyStream handle peer,
        machine = .waitingForStream newStream proxyStream handle peer →
          newStream.identity.2 = false
  | .built stream => stream.isProxyStream = true → stream.peerIdentifier = setup.target
  | _ => True

namespace BuildSession

/-- What the peer in the middle has read and sent. -/
def Relayed (setup : Setup) (s : BuildSession) : Middle → Prop
  | .incoming => s.toMiddle.received = [] ∧ s.toAsked.history = [] ∧
      s.toInitiator.history = [] ∧ s.fromAsked.received = []
  | .opening future => s.toMiddle.received = [setup.asks] ∧
      .hello future.streamHello = setup.announces ∧ s.toAsked.history = [] ∧
      s.toInitiator.history = [] ∧ s.fromAsked.received = []
  | .relaying => ∃ forward, s.toMiddle.received = setup.asks :: forward ∧
      s.toAsked.history = setup.announces :: internet setup.askedAddr :: forward ∧
      s.toInitiator.history = internet setup.initiatingAddr :: s.fromAsked.received
  | .ended =>
      (s.toAsked.history = [] ∨ ∃ forward, setup.asks :: forward <+: s.toMiddle.history ∧
        s.toAsked.history = setup.announces :: internet setup.askedAddr :: (forward ++ [.closed])) ∧
      (s.toInitiator.history = [.closed] ∨ ∃ back, back <+: s.fromAsked.history ∧
        s.toInitiator.history = internet setup.initiatingAddr :: (back ++ [.closed]))

/-- The initiator has ended with the stream through the peer in the middle. -/
def Proxied (s : BuildSession) : Prop :=
  ∃ stream, s.initiator = .built stream ∧ stream.isProxyStream = true

/-- What the asked peer has read and sent, and passed to its context. -/
def Replied (setup : Setup) (s : BuildSession) : Asked → Prop
  | .incoming => s.toAsked.received.length = 0 ∧ s.fromAsked.history = [] ∧ s.context = []
  | .building remote => s.context = [] ∧ remote.stream.isSome ∧
      remote.peerIdentifier = setup.initiating.peerIdentifier ∧
      (s.toAsked.received.length = 1 ∧ s.fromAsked.history = [] ∨
        s.toAsked.received.length = 2 ∧ remote.internetAddr.isSome ∧ s.fromAsked.history = [] ∨
        s.toAsked.received.length = 3 ∧ ∃ answers, s.fromAsked.history = [exchange answers])
  | .passed => s.Proxied ∧
      (∃ stream, s.context = [stream] ∧ stream.isProxyStream = true ∧
        stream.peerIdentifier = setup.initiating.peerIdentifier) ∧
      ∃ answers rest, UserOnly rest ∧ s.fromAsked.history = exchange answers :: rest
  | .ended => s.context = [] ∧ ∃ rest, UserOnly rest ∧
      (s.fromAsked.history = rest ∨ ∃ answers, s.fromAsked.history = exchange answers :: rest)
  | .panicked _ => False

structure Inv (setup : Setup) (s : BuildSession) : Prop where
  sent : s.initiator.Sent setup s.toMiddle.history
  heard : s.initiator.Heard s.toInitiator.received
  sound : s.initiator.Sound setup
  relayed : s.Relayed setup s.middle
  replied : s.Replied setup s.asked

theorem init_inv (setup : Setup) : (init setup).Inv setup where
  sent := ⟨rfl, rfl⟩
  heard := rfl
  sound := ⟨rfl, fun _ _ _ _ same => by cases same⟩
  relayed := ⟨rfl, rfl, rfl, rfl⟩
  replied := ⟨rfl, rfl, rfl⟩

section

variable {setup : Setup} {s : BuildSession}

theorem stopped_cases (stopped : Stopped setup s.toMiddle.history) :
    ∃ addresses rest, UserOnly rest ∧
      (s.toMiddle.history = rest ∨ s.toMiddle.history = setup.asks :: rest ∨
        s.toMiddle.history = setup.asks :: exchange addresses :: rest ∨
        s.toMiddle.history = setup.asks :: exchange addresses :: proxy :: rest ∧ s.Proxied) := by
  obtain ⟨rest, user, same | same | ⟨addresses, same⟩⟩ := stopped
  · exact ⟨[], rest, user, Or.inl same⟩
  · exact ⟨[], rest, user, Or.inr (Or.inl same)⟩
  · exact ⟨addresses, rest, user, Or.inr (Or.inr (Or.inl same))⟩

/-- The initiator follows its script, up to the point where it ends the stream or hands it to its
user. -/
theorem sent_cases (inv : s.Inv setup) :
    ∃ addresses rest, UserOnly rest ∧
      (s.toMiddle.history = rest ∨ s.toMiddle.history = setup.asks :: rest ∨
        s.toMiddle.history = setup.asks :: exchange addresses :: rest ∨
        s.toMiddle.history = setup.asks :: exchange addresses :: proxy :: rest ∧ s.Proxied) := by
  have sent := inv.sent
  cases state : s.initiator with
  | running machine =>
      rw [state] at sent
      cases machine with
      | waitingForProxyStream => exact ⟨[], [], .nil, Or.inl sent.1⟩
      | waitingForInternetAddressInformation => exact ⟨[], [], .nil, Or.inr (Or.inl sent)⟩
      | waitingForExchangeAddressInformation | waitingForConnection | waitingForStream
      | proxyStream =>
          obtain ⟨addresses, same⟩ := sent
          exact ⟨addresses, [], .nil, Or.inr (Or.inr (Or.inl same))⟩
  | built stream =>
      rw [state] at sent
      obtain ⟨addresses, rest, user, same⟩ := sent
      cases proxied : stream.isProxyStream with
      | false =>
          rw [proxied] at same
          exact ⟨addresses, rest, user, Or.inr (Or.inr (Or.inl same))⟩
      | true =>
          rw [proxied] at same
          exact ⟨addresses, rest, user, Or.inr (Or.inr (Or.inr ⟨same, stream, state, proxied⟩))⟩
  | failed | panicked | dropped =>
      rw [state] at sent
      exact stopped_cases sent

/-- The packets of the initiator, one by one. -/
theorem sent_script (inv : s.Inv setup) {index : Nat} {packet : Packet}
    (found : s.toMiddle.history[index]? = some packet) :
    packet.IsUser ∨ index = 0 ∧ packet = setup.asks ∨
      (index = 1 ∧ ∃ addresses, packet = exchange addresses) ∨
      (index = 2 ∧ packet = proxy ∧ s.Proxied) := by
  obtain ⟨addresses, rest, user, script⟩ := sent_cases inv
  rcases script with same | same | same | ⟨same, proxied⟩
  · rw [same] at found
    exact Or.inl (user packet (List.mem_of_getElem? found))
  · rw [same] at found
    rcases index with _ | index
    · cases found
      exact Or.inr (Or.inl ⟨rfl, rfl⟩)
    · exact Or.inl (user packet (List.mem_of_getElem? found))
  · rw [same] at found
    rcases index with _ | _ | index
    · cases found
      exact Or.inr (Or.inl ⟨rfl, rfl⟩)
    · cases found
      exact Or.inr (Or.inr (Or.inl ⟨rfl, addresses, rfl⟩))
    · exact Or.inl (user packet (List.mem_of_getElem? found))
  · rw [same] at found
    rcases index with _ | _ | _ | index
    · cases found
      exact Or.inr (Or.inl ⟨rfl, rfl⟩)
    · cases found
      exact Or.inr (Or.inr (Or.inl ⟨rfl, addresses, rfl⟩))
    · cases found
      exact Or.inr (Or.inr (Or.inr ⟨rfl, rfl, proxied⟩))
    · exact Or.inl (user packet (List.mem_of_getElem? found))

/-- In every state of the relay, what it has passed on stands at the front of what was sent to
it. -/
theorem relayed_cases (inv : s.Inv setup) :
    (s.toAsked.history = [] ∨ ∃ forward tail, UserOnly tail ∧
      setup.asks :: forward <+: s.toMiddle.history ∧
      s.toAsked.history = setup.announces :: internet setup.askedAddr :: (forward ++ tail)) ∧
    (UserOnly s.toInitiator.history ∨ ∃ back tail, UserOnly tail ∧
      back <+: s.fromAsked.history ∧
      s.toInitiator.history = internet setup.initiatingAddr :: (back ++ tail)) := by
  have relayed := inv.relayed
  have closed : UserOnly [Packet.closed] := UserOnly.nil.snoc trivial
  cases state : s.middle with
  | incoming =>
      rw [state] at relayed
      obtain ⟨_, toAsked, toInitiator, _⟩ := relayed
      exact ⟨Or.inl toAsked, Or.inl (toInitiator ▸ .nil)⟩
  | opening future =>
      rw [state] at relayed
      obtain ⟨_, _, toAsked, toInitiator, _⟩ := relayed
      exact ⟨Or.inl toAsked, Or.inl (toInitiator ▸ .nil)⟩
  | relaying =>
      rw [state] at relayed
      obtain ⟨forward, received, toAsked, toInitiator⟩ := relayed
      refine ⟨Or.inr ⟨forward, [], .nil, ?_, ?_⟩, Or.inr ⟨s.fromAsked.received, [], .nil, ?_, ?_⟩⟩
      · rw [← received]
        exact s.toMiddle.received_prefix
      · rw [List.append_nil, toAsked]
      · exact s.fromAsked.received_prefix
      · rw [List.append_nil, toInitiator]
  | ended =>
      rw [state] at relayed
      obtain ⟨toAsked, toInitiator⟩ := relayed
      constructor
      · rcases toAsked with none | ⟨forward, before, same⟩
        · exact Or.inl none
        · exact Or.inr ⟨forward, [.closed], closed, before, same⟩
      · rcases toInitiator with none | ⟨back, before, same⟩
        · exact Or.inl (none ▸ closed)
        · exact Or.inr ⟨back, [.closed], closed, before, same⟩

theorem getElem?_forwarded {before after tail : List Packet} (user : UserOnly tail)
    (passed : before <+: after) {index : Nat} {packet : Packet}
    (found : (before ++ tail)[index]? = some packet) :
    packet.IsUser ∨ after[index]? = some packet := by
  by_cases inside : index < before.length
  · rw [List.getElem?_append_left inside] at found
    obtain ⟨more, rfl⟩ := passed
    rw [List.getElem?_append_left inside]
    exact Or.inr found
  · rw [List.getElem?_append_right (by omega)] at found
    exact Or.inl (user packet (List.mem_of_getElem? found))

/-- What the asked peer can read: two packets of the peer in the middle, and then those of the
initiator. -/
theorem toAsked_script (inv : s.Inv setup) {index : Nat} {packet : Packet}
    (found : s.toAsked.history[index]? = some packet) :
    packet.IsUser ∨ index = 0 ∧ packet = setup.announces ∨
      index = 1 ∧ packet = internet setup.askedAddr ∨
      (index = 2 ∧ ∃ addresses, packet = exchange addresses) ∨
      (index = 3 ∧ packet = proxy ∧ s.Proxied) := by
  rcases (relayed_cases inv).1 with none | ⟨forward, tail, user, passed, same⟩
  · rw [none] at found
    cases found
  · rw [same] at found
    rcases index with _ | _ | index
    · cases found
      exact Or.inr (Or.inl ⟨rfl, rfl⟩)
    · cases found
      exact Or.inr (Or.inr (Or.inl ⟨rfl, rfl⟩))
    · have later : (setup.asks :: forward ++ tail)[index + 1]? = some packet := found
      rcases getElem?_forwarded user passed later with isUser | sent
      · exact Or.inl isUser
      · rcases sent_script inv sent with isUser | ⟨first, _⟩ | ⟨second, same⟩ | ⟨third, same⟩
        · exact Or.inl isUser
        · omega
        · exact Or.inr (Or.inr (Or.inr (Or.inl ⟨by omega, same⟩)))
        · exact Or.inr (Or.inr (Or.inr (Or.inr ⟨by omega, same⟩)))

/-- The first thing the asked peer sends is its answer. -/
theorem fromAsked_script (inv : s.Inv setup) {packet : Packet}
    (found : s.fromAsked.history[0]? = some packet) :
    packet.IsUser ∨ ∃ addresses, packet = exchange addresses := by
  have replied := inv.replied
  cases state : s.asked with
  | incoming =>
      rw [state] at replied
      rw [replied.2.1] at found
      cases found
  | building remote =>
      rw [state] at replied
      rcases replied.2.2.2 with ⟨_, none⟩ | ⟨_, _, none⟩ | ⟨_, answers, one⟩
      · rw [none] at found
        cases found
      · rw [none] at found
        cases found
      · rw [one] at found
        cases found
        exact Or.inr ⟨answers, rfl⟩
  | passed =>
      rw [state] at replied
      obtain ⟨_, _, answers, rest, _, same⟩ := replied
      rw [same] at found
      cases found
      exact Or.inr ⟨answers, rfl⟩
  | ended =>
      rw [state] at replied
      obtain ⟨_, rest, user, same | ⟨answers, same⟩⟩ := replied
      · rw [same] at found
        exact Or.inl (user packet (List.mem_of_getElem? found))
      · rw [same] at found
        cases found
        exact Or.inr ⟨answers, rfl⟩
  | panicked text =>
      rw [state] at replied
      cases replied

/-- What the initiator can read while it does: its address, and then the answer of the asked
peer. -/
theorem toInitiator_script (inv : s.Inv setup) {index : Nat} {packet : Packet}
    (found : s.toInitiator.history[index]? = some packet) (early : index ≤ 1) :
    packet.IsUser ∨ index = 0 ∧ packet = internet setup.initiatingAddr ∨
      (index = 1 ∧ ∃ addresses, packet = exchange addresses) := by
  rcases (relayed_cases inv).2 with user | ⟨back, tail, user, passed, same⟩
  · exact Or.inl (user packet (List.mem_of_getElem? found))
  · rw [same] at found
    rcases index with _ | index
    · cases found
      exact Or.inr (Or.inl ⟨rfl, rfl⟩)
    · have later : (back ++ tail)[index]? = some packet := found
      have first : index = 0 := by omega
      subst first
      rcases getElem?_forwarded user passed later with isUser | sent
      · exact Or.inl isUser
      · rcases fromAsked_script inv sent with isUser | answer
        · exact Or.inl isUser
        · exact Or.inr (Or.inr ⟨rfl, answer⟩)

/-- The relay keeps its record while the others only send more. -/
theorem Relayed.mono {next : BuildSession} {middle : Middle} (relayed : s.Relayed setup middle)
    (toMiddle : next.toMiddle.received = s.toMiddle.received)
    (moreMiddle : s.toMiddle.history <+: next.toMiddle.history)
    (toAsked : next.toAsked.history = s.toAsked.history)
    (toInitiator : next.toInitiator.history = s.toInitiator.history)
    (fromAsked : next.fromAsked.received = s.fromAsked.received)
    (moreAsked : s.fromAsked.history <+: next.fromAsked.history) :
    next.Relayed setup middle := by
  cases middle with
  | incoming | opening | relaying =>
      simp only [Relayed, toMiddle, toAsked, toInitiator, fromAsked]
      exact relayed
  | ended =>
      simp only [Relayed, toAsked, toInitiator]
      obtain ⟨first, second⟩ := relayed
      constructor
      · rcases first with none | ⟨forward, before, same⟩
        · exact Or.inl none
        · exact Or.inr ⟨forward, before.trans moreMiddle, same⟩
      · rcases second with none | ⟨back, before, same⟩
        · exact Or.inl none
        · exact Or.inr ⟨back, before.trans moreAsked, same⟩

/-- The asked peer keeps its record while the others take their turns. -/
theorem Replied.mono {next : BuildSession} {asked : Asked} (replied : s.Replied setup asked)
    (toAsked : next.toAsked.received = s.toAsked.received)
    (fromAsked : next.fromAsked.history = s.fromAsked.history)
    (context : next.context = s.context) (proxied : s.Proxied → next.Proxied) :
    next.Replied setup asked := by
  cases asked with
  | incoming | building | ended =>
      simp only [Replied, toAsked, fromAsked, context]
      exact replied
  | passed =>
      simp only [Replied, fromAsked, context]
      exact ⟨proxied replied.1, replied.2⟩
  | panicked => exact replied

/-- A step of the initiator, or of its user. -/
theorem Inv.ofInitiator (inv : s.Inv setup) {initiator : Initiator}
    {toMiddle toInitiator : Channel Packet}
    (received : toMiddle.received = s.toMiddle.received)
    (more : s.toMiddle.history <+: toMiddle.history)
    (same : toInitiator.history = s.toInitiator.history)
    (kept : ∀ stream, s.initiator = .built stream → initiator = .built stream)
    (sent : initiator.Sent setup toMiddle.history)
    (heard : initiator.Heard toInitiator.received) (sound : initiator.Sound setup) :
    Inv setup { s with
      initiator := initiator, toMiddle := toMiddle, toInitiator := toInitiator } where
  sent := sent
  heard := heard
  sound := sound
  relayed := Relayed.mono inv.relayed received more rfl same rfl (List.prefix_refl _)
  replied := by
    refine Replied.mono inv.replied rfl rfl rfl ?_
    rintro ⟨stream, built, proxied⟩
    exact ⟨stream, kept stream built, proxied⟩

/-- A step of the initiator that has not handed a stream to its user yet. -/
theorem Inv.ofRunning (inv : s.Inv setup) {machine : BuildConnectionToPeer}
    (running : s.initiator = .running machine) {initiator : Initiator}
    {toMiddle toInitiator : Channel Packet}
    (received : toMiddle.received = s.toMiddle.received)
    (more : s.toMiddle.history <+: toMiddle.history)
    (same : toInitiator.history = s.toInitiator.history)
    (sent : initiator.Sent setup toMiddle.history)
    (heard : initiator.Heard toInitiator.received) (sound : initiator.Sound setup) :
    Inv setup { s with
      initiator := initiator, toMiddle := toMiddle, toInitiator := toInitiator } := by
  refine inv.ofInitiator received more same ?_ sent heard sound
  intro stream built
  rw [running] at built
  cases built

/-- A step of the peer in the middle. -/
theorem Inv.ofMiddle (inv : s.Inv setup) {middle : Middle}
    {toMiddle toInitiator toAsked fromAsked : Channel Packet}
    (sent : toMiddle.history = s.toMiddle.history)
    (heard : toInitiator.received = s.toInitiator.received)
    (asked : toAsked.received = s.toAsked.received)
    (replied : fromAsked.history = s.fromAsked.history)
    (relayed : Relayed setup { s with
      middle := middle, toMiddle := toMiddle, toInitiator := toInitiator, toAsked := toAsked,
      fromAsked := fromAsked } middle) :
    Inv setup { s with
      middle := middle, toMiddle := toMiddle, toInitiator := toInitiator, toAsked := toAsked,
      fromAsked := fromAsked } where
  sent := by
    rw [sent]
    exact inv.sent
  heard := by
    rw [heard]
    exact inv.heard
  sound := inv.sound
  relayed := relayed
  replied := Replied.mono inv.replied asked replied rfl (fun proxied => proxied)

/-- A step of the asked peer, or of its user. -/
theorem Inv.ofAsked (inv : s.Inv setup) {asked : Asked} {toAsked fromAsked : Channel Packet}
    {context : List Stream} (same : toAsked.history = s.toAsked.history)
    (received : fromAsked.received = s.fromAsked.received)
    (more : s.fromAsked.history <+: fromAsked.history)
    (replied : Replied setup { s with
      asked := asked, toAsked := toAsked, fromAsked := fromAsked, context := context } asked) :
    Inv setup { s with
      asked := asked, toAsked := toAsked, fromAsked := fromAsked, context := context } where
  sent := inv.sent
  heard := inv.heard
  sound := inv.sound
  relayed := Relayed.mono inv.relayed rfl (List.prefix_refl _) same rfl received more
  replied := replied

/-- An initiator that stops in the middle of its script ends its stream. -/
theorem Inv.stop (inv : s.Inv setup) {machine : BuildConnectionToPeer}
    (running : s.initiator = .running machine) {initiator : Initiator}
    {toInitiator : Channel Packet} (same : toInitiator.history = s.toInitiator.history)
    (stops : ∀ sent, Stopped setup sent → initiator.Sent setup sent)
    (heard : initiator.Heard toInitiator.received) (sound : initiator.Sound setup) :
    Inv setup { s with
      initiator := initiator
      toMiddle := s.toMiddle.send .closed
      toInitiator := toInitiator } := by
  refine inv.ofRunning running rfl (s.toMiddle.history_prefix_send _) same (stops _ ?_) heard sound
  obtain ⟨addresses, rest, user, script⟩ := sent_cases inv
  refine ⟨rest ++ [Packet.closed], user.snoc trivial, ?_⟩
  rw [Channel.send_history]
  rcases script with sent | sent | sent | ⟨_, stream, built, _⟩
  · rw [sent]
    exact Or.inl rfl
  · rw [sent]
    exact Or.inr (Or.inl rfl)
  · rw [sent]
    exact Or.inr (Or.inr ⟨addresses, rfl⟩)
  · rw [running] at built
    cases built

/-- An initiator that goes on with its script. -/
theorem Inv.advance (inv : s.Inv setup) {machine next : BuildConnectionToPeer}
    (running : s.initiator = .running machine) {packets : List Packet}
    {toInitiator : Channel Packet} (same : toInitiator.history = s.toInitiator.history)
    (sent : (Initiator.running next).Sent setup (s.toMiddle.history ++ packets))
    (heard : (Initiator.running next).Heard toInitiator.received)
    (sound : (Initiator.running next).Sound setup) :
    Inv setup { s with
      initiator := .running next
      toMiddle := s.toMiddle.sendAll packets
      toInitiator := toInitiator } := by
  refine inv.ofRunning running rfl (s.toMiddle.history_prefix_sendAll _) same ?_ heard sound
  rw [Channel.sendAll_history]
  exact sent

end

end BuildSession

end HolePunch
