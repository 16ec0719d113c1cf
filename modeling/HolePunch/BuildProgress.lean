import HolePunch.BuildAgreement

set_option autoImplicit false

/- What the steps of building a connection do as long as nobody leaves and nothing but the attempts
to connect fails, and the measure that each of them lowers. -/
namespace HolePunch

open Packet (internet exchange proxy)

/-- What the initiator has sent when nobody has stopped and its user has not sent anything. -/
def Initiator.Script (setup : Setup) (sent : List Packet) : Initiator → Prop
  | .running machine => (Initiator.running machine).Sent setup sent
  | .built stream => ∃ addresses,
      sent = [setup.asks, exchange addresses, if stream.isProxyStream then proxy else .closed]
  | _ => False

namespace BuildSession

/-- Steps in which nobody leaves, the streams through the peer in the middle open and are flushed,
that peer is connected to the target, and the hellos come in time. What the attempts to connect and
their timeout do is left open. -/
def Untroubled (setup : Setup) (s : BuildSession) : Event → Prop
  | .initiate answers => (∀ reason, answers.flushed ≠ .error reason) ∧
      ∀ future handle peer localPeer,
        s.initiator = .running (.waitingForProxyStream future handle peer localPeer) →
        ∀ reason, answers.opened ≠ .error reason
  | .middle timeout registry opened flushed => timeout = .notReady ∧
      registry.hasPeer setup.target = true ∧ (∀ reason, opened ≠ .error reason) ∧
      ∀ reason, flushed ≠ .error reason
  | .relayToAsked => True
  | .relayToInitiator => True
  | .asked timeout _ _ => timeout = .notReady
  | _ => False

/-- Why an untroubled step does nothing. -/
def Waits (s : BuildSession) : Event → Prop
  | .initiate answers =>
      match s.initiator with
      | .running (.waitingForProxyStream _ _ _ _) => answers.opened = .notReady
      | .running (.waitingForInternetAddressInformation _ _ _ _) => s.toInitiator.next = none
      | .running (.waitingForExchangeAddressInformation _ _ _ _) => s.toInitiator.next = none
      | .running (.waitingForConnection _ _ _ _ _) => answers.timeout = .notReady
      | .running (.waitingForStream _ _ _ _) => answers.opened = .notReady
      | .running (.proxyStream _ _ _) => False
      | _ => True
  | .middle _ _ opened _ =>
      match s.middle with
      | .incoming => s.toMiddle.history = []
      | .opening _ => opened = .notReady
      | _ => True
  | .relayToAsked => s.middle = .relaying → s.toMiddle.next = none
  | .relayToInitiator => s.middle = .relaying → s.fromAsked.next = none
  | .asked _ _ _ =>
      match s.asked with
      | .incoming => s.toAsked.history = []
      | .building _ => s.toAsked.next = none
      | _ => True
  | _ => True

/-- The initiator has ended with a stream of its own. -/
def Direct (s : BuildSession) : Prop :=
  ∃ stream, s.initiator = .built stream ∧ stream.isProxyStream = false

/-- Nobody has given up: the relay and the asked peer end only when the initiator has no use for
them. -/
structure Going (setup : Setup) (s : BuildSession) : Prop where
  script : s.initiator.Script setup s.toMiddle.history
  taken : .closed ∉ s.toMiddle.received
  middle : s.middle = .ended → s.Direct
  closes : s.middle = .ended → .closed ∈ s.toAsked.history
  heard : .closed ∈ s.toAsked.received → s.asked = .ended
  asked : s.asked = .ended → s.middle = .ended
  answers : .closed ∈ s.fromAsked.history → s.asked = .ended

end BuildSession

/-- How far the initiator is from its end, with room for what it still sends. -/
def BuildConnectionToPeer.rank : BuildConnectionToPeer → Nat
  | .waitingForProxyStream _ _ _ _ => 11
  | .waitingForInternetAddressInformation _ _ _ _ => 8
  | .waitingForExchangeAddressInformation _ _ _ _ => 6
  | .waitingForConnection _ _ _ _ _ => 5
  | .waitingForStream _ _ _ _ => 4
  | .proxyStream _ _ _ => 3

def Initiator.rank : Initiator → Nat
  | .running machine => machine.rank
  | _ => 0

def Middle.rank : Middle → Nat
  | .incoming => 7
  | .opening _ => 7
  | .relaying => 3
  | .ended => 0

def Asked.rank : Asked → Nat
  | .incoming => 3
  | .building _ => 3
  | _ => 0

namespace BuildSession

/-- The steps that are left at most. What the peer in the middle passes on counts twice, the answer
of the asked peer as long as it has sent nothing. -/
def left (s : BuildSession) : Nat :=
  s.initiator.rank + s.middle.rank + s.asked.rank + (if s.fromAsked.history = [] then 2 else 0) +
    2 * s.toMiddle.pending.length + s.toAsked.pending.length + 2 * s.fromAsked.pending.length +
    s.toInitiator.pending.length

/-- All that an untroubled step can do. -/
inductive Progress (setup : Setup) (s : BuildSession) : BuildSession → Prop
  | opens {future : NewStreamFuture} {handle : NewStreamHandle} {peer localPeer : PeerIdentifier}
      (proxyStream : Strategies.Stream)
      (running : s.initiator = .running (.waitingForProxyStream future handle peer localPeer)) :
      Progress setup s { s with
        initiator := .running
          (.waitingForInternetAddressInformation proxyStream handle peer localPeer)
        toMiddle := s.toMiddle.send setup.asks }
  | offers {proxyStream : Strategies.Stream} {handle : NewStreamHandle}
      {peer localPeer : PeerIdentifier} (addresses : List SocketAddr) {packet : Packet}
      (running : s.initiator =
        .running (.waitingForInternetAddressInformation proxyStream handle peer localPeer))
      (read : s.toInitiator.next = some packet) :
      Progress setup s { s with
        initiator := .running
          (.waitingForExchangeAddressInformation proxyStream handle peer localPeer)
        toMiddle := s.toMiddle.send (exchange addresses)
        toInitiator := s.toInitiator.receive }
  | exchanges {proxyStream : Strategies.Stream} {handle : NewStreamHandle}
      {peer localPeer : PeerIdentifier} (newCons : List SocketAddr) {packet : Packet}
      (running : s.initiator =
        .running (.waitingForExchangeAddressInformation proxyStream handle peer localPeer))
      (read : s.toInitiator.next = some packet) :
      Progress setup s { s with
        initiator := .running (.waitingForConnection newCons proxyStream handle peer localPeer)
        toInitiator := s.toInitiator.receive }
  | turns {machine next : BuildConnectionToPeer} (running : s.initiator = .running machine)
      (same : ∀ sent, (Initiator.running machine).Sent setup sent →
        (Initiator.running next).Sent setup sent)
      (lower : next.rank < machine.rank) : Progress setup s { s with initiator := .running next }
  | builds {machine : BuildConnectionToPeer} (stream : Stream)
      (running : s.initiator = .running machine)
      (exchanged : ∀ sent, (Initiator.running machine).Sent setup sent →
        ∃ addresses, sent = [setup.asks, exchange addresses])
      (lower : 2 < machine.rank) :
      Progress setup s { s with
        initiator := .built stream
        toMiddle := s.toMiddle.send (if stream.isProxyStream then proxy else .closed) }
  | accepts (future : NewStreamFuture) (incoming : s.middle = .incoming)
      (read : s.toMiddle.next = some setup.asks) :
      Progress setup s { s with middle := .opening future, toMiddle := s.toMiddle.receive }
  | relays {future : NewStreamFuture} (opening : s.middle = .opening future) :
      Progress setup s { s with
        middle := .relaying
        toAsked := s.toAsked.sendAll [.hello future.streamHello,
          .message (prepareStreamForBuilding setup.askedAddr)]
        toInitiator := s.toInitiator.send
          (.message (prepareStreamForBuilding setup.initiatingAddr)) }
  | forwards {packet : Packet} (relaying : s.middle = .relaying)
      (read : s.toMiddle.next = some packet) (notClosed : packet ≠ .closed) :
      Progress setup s { s with
        toMiddle := s.toMiddle.receive, toAsked := s.toAsked.send packet }
  | closes (relaying : s.middle = .relaying) (read : s.toMiddle.next = some .closed) :
      Progress setup s { s with
        middle := .ended
        toAsked := s.toAsked.send .closed
        toInitiator := s.toInitiator.send .closed }
  | returns {packet : Packet} (relaying : s.middle = .relaying)
      (read : s.fromAsked.next = some packet) :
      Progress setup s { s with
        fromAsked := s.fromAsked.receive, toInitiator := s.toInitiator.send packet }
  | announced (remote : BuildConnectionToPeerRemote) {hello : StreamHello}
      (incoming : s.asked = .incoming) (read : s.toAsked.next = some (.hello hello)) :
      Progress setup s { s with asked := .building remote, toAsked := s.toAsked.receive }
  | learns {remote : BuildConnectionToPeerRemote} (next : BuildConnectionToPeerRemote)
      {message : BuildConnectionToPeerProtocol} (building : s.asked = .building remote)
      (read : s.toAsked.next = some (.message message)) :
      Progress setup s { s with asked := .building next, toAsked := s.toAsked.receive }
  | answers {remote : BuildConnectionToPeerRemote} (next : BuildConnectionToPeerRemote)
      (addresses : List SocketAddr) {message : BuildConnectionToPeerProtocol}
      (building : s.asked = .building remote)
      (read : s.toAsked.next = some (.message message)) (first : s.fromAsked.history = []) :
      Progress setup s { s with
        asked := .building next
        toAsked := s.toAsked.receive
        fromAsked := s.fromAsked.send (exchange addresses) }
  | passes {remote : BuildConnectionToPeerRemote} (stream : Stream)
      {message : BuildConnectionToPeerProtocol} (building : s.asked = .building remote)
      (read : s.toAsked.next = some (.message message)) :
      Progress setup s { s with
        asked := .passed, toAsked := s.toAsked.receive, context := s.context ++ [stream] }
  | leaves {remote : BuildConnectionToPeerRemote} {packet : Packet}
      (building : s.asked = .building remote) (read : s.toAsked.next = some packet)
      (ended : s.middle = .ended) :
      Progress setup s { s with
        asked := .ended
        toAsked := s.toAsked.receive
        fromAsked := s.fromAsked.send .closed }

section

variable {setup : Setup} {s next : BuildSession}

theorem Progress.lowers (progress : s.Progress setup next) : next.left < s.left := by
  cases progress with
  | opens proxyStream running =>
      simp only [left, running, Initiator.rank, BuildConnectionToPeer.rank, Channel.send_pending]
      omega
  | offers addresses running read =>
      have pending := Channel.receive_pending read
      simp only [left, running, Initiator.rank, BuildConnectionToPeer.rank, Channel.send_pending]
      omega
  | exchanges newCons running read =>
      have pending := Channel.receive_pending read
      simp only [left, running, Initiator.rank, BuildConnectionToPeer.rank]
      omega
  | turns running same lower =>
      simp only [left, running, Initiator.rank]
      omega
  | builds stream running exchanged lower =>
      simp only [left, running, Initiator.rank, Channel.send_pending]
      omega
  | accepts future incoming read =>
      have pending := Channel.receive_pending read
      simp only [left, incoming, Middle.rank]
      omega
  | relays opening =>
      simp only [left, opening, Middle.rank, Channel.send_pending, Channel.sendAll,
        List.length_append, List.length_cons, List.length_nil]
      omega
  | forwards relaying read notClosed =>
      have pending := Channel.receive_pending read
      simp only [left, Channel.send_pending]
      omega
  | closes relaying read =>
      simp only [left, relaying, Middle.rank, Channel.send_pending]
      omega
  | returns relaying read =>
      have pending := Channel.receive_pending read
      simp only [left, Channel.receive_history, Channel.send_pending]
      omega
  | announced remote incoming read =>
      have pending := Channel.receive_pending read
      simp only [left, incoming, Asked.rank]
      omega
  | learns after building read =>
      have pending := Channel.receive_pending read
      simp only [left, building, Asked.rank]
      omega
  | answers after addresses building read first =>
      have pending := Channel.receive_pending read
      have sent := s.fromAsked.send_history_ne_nil (exchange addresses)
      have more := s.fromAsked.send_pending (exchange addresses)
      simp only [left, building, Asked.rank, if_pos first, if_neg sent, more]
      omega
  | passes stream building read =>
      have pending := Channel.receive_pending read
      simp only [left, building, Asked.rank]
      omega
  | leaves building read ended =>
      have pending := Channel.receive_pending read
      have sent := s.fromAsked.send_history_ne_nil .closed
      have more := s.fromAsked.send_pending .closed
      simp only [left, building, Asked.rank, if_neg sent, more]
      omega

/-- While the initiator is on its way, nobody has ended. -/
theorem Going.running {machine : BuildConnectionToPeer} (going : s.Going setup)
    (running : s.initiator = .running machine) : s.middle ≠ .ended ∧ s.asked ≠ .ended := by
  have relays : s.middle ≠ .ended := by
    intro ended
    obtain ⟨stream, built, _⟩ := going.middle ended
    cases running.symm.trans built
  exact ⟨relays, fun ended => relays (going.asked ended)⟩

/-- While the initiator is on its way, the asked peer has sent nothing or its answer. -/
theorem answered_cases {machine : BuildConnectionToPeer} (inv : s.Inv setup)
    (going : s.Going setup) (running : s.initiator = .running machine) :
    s.fromAsked.history = [] ∨ ∃ addresses, s.fromAsked.history = [exchange addresses] := by
  have replied := inv.replied
  cases state : s.asked with
  | incoming =>
      rw [state] at replied
      exact Or.inl replied.2.1
  | building remote =>
      rw [state] at replied
      rcases replied.2.2.2 with ⟨_, none⟩ | ⟨_, _, none⟩ | ⟨_, one⟩
      · exact Or.inl none
      · exact Or.inl none
      · exact Or.inr one
  | passed =>
      rw [state] at replied
      obtain ⟨⟨stream, built, _⟩, _⟩ := replied
      cases running.symm.trans built
  | ended => exact absurd state (going.running running).2
  | panicked text =>
      rw [state] at replied
      cases replied

/-- What is sent to an initiator that is on its way. -/
theorem heard_cases {machine : BuildConnectionToPeer} (inv : s.Inv setup) (going : s.Going setup)
    (running : s.initiator = .running machine) {index : Nat} {packet : Packet}
    (found : s.toInitiator.history[index]? = some packet) :
    index = 0 ∧ packet = internet setup.initiatingAddr ∨
      index = 1 ∧ ∃ addresses, packet = exchange addresses := by
  have relayed := inv.relayed
  cases state : s.middle with
  | incoming =>
      rw [state] at relayed
      rw [relayed.2.2.1] at found
      cases found
  | opening future =>
      rw [state] at relayed
      rw [relayed.2.2.2.1] at found
      cases found
  | relaying =>
      rw [state] at relayed
      obtain ⟨_, _, _, history⟩ := relayed
      rw [history] at found
      rcases index with _ | index
      · cases found
        exact Or.inl ⟨rfl, rfl⟩
      · have answer : s.fromAsked.history[index]? = some packet := Channel.getElem?_received found
        rcases answered_cases inv going running with none | ⟨addresses, one⟩
        · rw [none] at answer
          cases answer
        · rw [one] at answer
          rcases index with _ | index
          · cases answer
            exact Or.inr ⟨rfl, addresses, rfl⟩
          · cases answer
  | ended => exact absurd state (going.running running).1

theorem readMessage_next {channel : Channel Packet} {message : BuildConnectionToPeerProtocol}
    (next : channel.next = some (.message message)) :
    readMessage channel = .ready (some message) := by
  simp only [readMessage, next, Packet.asMessage]

theorem readMessage_none {channel : Channel Packet} (next : channel.next = none) :
    readMessage channel = .notReady := by
  simp only [readMessage, next]

theorem ready_ne_error (value : Unit) (reason : Error) :
    (Futures.Poll.ready value : Poll Unit) ≠ .error reason := fun wrong => by cases wrong

theorem poll_opened (future : NewStreamFuture) {opened flushed : Poll Unit}
    (noError : ∀ reason, opened ≠ .error reason) (flushes : ∀ reason, flushed ≠ .error reason) :
    opened = .notReady ∨ future.poll opened flushed = .ok (.ready future.stream) := by
  cases opened with
  | notReady => exact Or.inl rfl
  | error reason => exact absurd rfl (noError reason)
  | ready value =>
      cases flushed with
      | error reason => exact absurd rfl (flushes reason)
      | notReady => exact Or.inr rfl
      | ready value => exact Or.inr rfl

section

variable {proxyStream : Strategies.Stream} {handle : NewStreamHandle}
  {peer localPeer : PeerIdentifier} {answers : BuildAnswers}

theorem initiate_reads {machine : BuildConnectionToPeer} (state : s.initiator = .running machine)
    (reads : machine.reads = true) :
    s.initiate answers = { s with toInitiator := s.toInitiator.receive }.proceed machine
      (machine.step { answers with message := readMessage s.toInitiator, sent := .accepted }) := by
  simp only [initiate, state, reads, if_true]

theorem initiate_goes_on {machine : BuildConnectionToPeer} (state : s.initiator = .running machine)
    (silent : machine.reads = false) :
    s.initiate answers = s.proceed machine (machine.step { answers with sent := .accepted }) := by
  simp only [initiate, state, silent, Bool.false_eq_true, if_false]

theorem waitingForProxyStream_progress {future : NewStreamFuture} (going : s.Going setup)
    (state : s.initiator = .running (.waitingForProxyStream future handle peer localPeer))
    (untroubled : s.Untroubled setup (.initiate answers)) :
    s.initiate answers = s ∧ answers.opened = .notReady ∨
      s.Progress setup (s.initiate answers) := by
  have script := going.script
  rw [state] at script
  rw [initiate_goes_on state rfl]
  simp only [BuildConnectionToPeer.step, BuildConnectionToPeer.pollWaitingForProxyStream]
  rcases poll_opened future (untroubled.2 future handle peer localPeer state) untroubled.1 with
    pending | opened
  · refine Or.inl ⟨?_, pending⟩
    rw [pending]
    rfl
  · simp only [opened, proceed, BuildConnectionToPeer.hello, script.2, List.map_nil,
      List.append_nil]
    exact Or.inr (.opens future.stream.stream state)

theorem waitingForInternetAddressInformation_progress (inv : s.Inv setup) (going : s.Going setup)
    (state : s.initiator =
      .running (.waitingForInternetAddressInformation proxyStream handle peer localPeer)) :
    s.initiate answers = s ∧ s.toInitiator.next = none ∨
      s.Progress setup (s.initiate answers) := by
  have heard := inv.heard
  rw [state] at heard
  rw [initiate_reads state rfl]
  cases next : s.toInitiator.next with
  | none =>
      rw [readMessage_none next, Channel.receive_none next]
      exact Or.inl ⟨rfl, rfl⟩
  | some packet =>
      have found := Channel.next_getElem? next
      rw [show s.toInitiator.received.length = 0 from heard] at found
      rcases heard_cases inv going state found with ⟨_, rfl⟩ | ⟨wrong, _⟩
      · rw [readMessage_next next]
        exact Or.inr (.offers _ state next)
      · cases wrong

theorem waitingForExchangeAddressInformation_progress (inv : s.Inv setup) (going : s.Going setup)
    (state : s.initiator =
      .running (.waitingForExchangeAddressInformation proxyStream handle peer localPeer)) :
    s.initiate answers = s ∧ s.toInitiator.next = none ∨
      s.Progress setup (s.initiate answers) := by
  have heard := inv.heard
  rw [state] at heard
  rw [initiate_reads state rfl]
  cases next : s.toInitiator.next with
  | none =>
      rw [readMessage_none next, Channel.receive_none next]
      exact Or.inl ⟨rfl, rfl⟩
  | some packet =>
      have found := Channel.next_getElem? next
      rw [show s.toInitiator.received.length = 1 from heard] at found
      rcases heard_cases inv going state found with ⟨wrong, _⟩ | ⟨_, addresses, rfl⟩
      · cases wrong
      · rw [readMessage_next next]
        simp only [BuildConnectionToPeer.step,
          BuildConnectionToPeer.pollWaitingForExchangeAddressInformation, proceed,
          BuildConnectionToPeer.hello, List.map_nil, List.append_nil, Channel.sendAll_nil]
        exact Or.inr (.exchanges addresses state next)

/-- A handler that goes on without sending anything. -/
theorem proceed_turns {machine next : BuildConnectionToPeer}
    (state : s.initiator = .running machine) (silent : machine.hello = [])
    (same : ∀ sent, (Initiator.running machine).Sent setup sent →
      (Initiator.running next).Sent setup sent)
    (lower : next.rank < machine.rank) :
    s.Progress setup (s.proceed machine (.transition next, [])) := by
  simp only [proceed, silent, List.map_nil, List.append_nil, Channel.sendAll_nil]
  exact .turns state same lower

theorem waitingForConnection_progress {newCons : List SocketAddr}
    (state : s.initiator =
      .running (.waitingForConnection newCons proxyStream handle peer localPeer)) :
    s.initiate answers = s ∧ answers.timeout = .notReady ∨
      s.Progress setup (s.initiate answers) := by
  rw [initiate_goes_on state rfl]
  simp only [BuildConnectionToPeer.step, BuildConnectionToPeer.pollWaitingForConnection]
  have fallsBack : s.Progress setup (s.proceed
      (.waitingForConnection newCons proxyStream handle peer localPeer)
      (.transition (.proxyStream proxyStream handle peer), [])) := by
    refine proceed_turns state rfl (fun _ sent => sent) ?_
    simp only [BuildConnectionToPeer.rank, Nat.reduceLT]
  split
  · exact Or.inr fallsBack
  · rename_i pending
    split
    · refine Or.inr (proceed_turns state rfl (fun _ sent => sent) ?_)
      simp only [BuildConnectionToPeer.rank, Nat.reduceLT]
    · exact Or.inr fallsBack
    · exact Or.inr fallsBack
    · exact Or.inl ⟨rfl, pending⟩

theorem waitingForStream_progress {newStream : NewStreamFuture} (inv : s.Inv setup)
    (state : s.initiator = .running (.waitingForStream newStream proxyStream handle peer))
    (untroubled : s.Untroubled setup (.initiate answers)) :
    s.initiate answers = s ∧ answers.opened = .notReady ∨
      s.Progress setup (s.initiate answers) := by
  have sound := inv.sound
  rw [state] at sound
  have direct : newStream.stream.isProxyStream = false := sound.2 _ _ _ _ rfl
  rw [initiate_goes_on state rfl]
  simp only [BuildConnectionToPeer.step, BuildConnectionToPeer.pollWaitingForStream]
  cases opened : answers.opened with
  | notReady => exact Or.inl ⟨rfl, rfl⟩
  | error reason =>
      refine Or.inr (proceed_turns state rfl (fun _ sent => sent) ?_)
      simp only [BuildConnectionToPeer.rank, Nat.reduceLT]
  | ready value =>
      rcases poll_opened newStream (ready_ne_error value) untroubled.1 with wrong | ready
      · cases wrong
      · have progress : s.Progress setup { s with
            initiator := .built newStream.stream
            toMiddle := s.toMiddle.send
              (if newStream.stream.isProxyStream then proxy else .closed) } := by
          refine .builds newStream.stream state (fun _ sent => sent) ?_
          simp only [BuildConnectionToPeer.rank, Nat.reduceLT]
        rw [direct] at progress
        simp only [ready, proceed]
        exact Or.inr progress

theorem proxyStream_progress
    (state : s.initiator = .running (.proxyStream proxyStream handle peer)) :
    s.Progress setup (s.initiate answers) := by
  rw [initiate_goes_on state rfl]
  exact .builds (Stream.new proxyStream peer handle true) state (fun _ sent => sent)
    (by simp only [BuildConnectionToPeer.rank, Nat.reduceLT])

end

/-- A step of the initiator. -/
theorem initiate_progress (inv : s.Inv setup) (going : s.Going setup) {answers : BuildAnswers}
    (untroubled : s.Untroubled setup (.initiate answers)) :
    s.initiate answers = s ∧ s.Waits (.initiate answers) ∨
      s.Progress setup (s.initiate answers) := by
  have script := going.script
  simp only [Waits]
  cases state : s.initiator with
  | running machine =>
      cases machine with
      | waitingForProxyStream future handle peer localPeer =>
          exact waitingForProxyStream_progress going state untroubled
      | waitingForInternetAddressInformation proxyStream handle peer localPeer =>
          exact waitingForInternetAddressInformation_progress inv going state
      | waitingForExchangeAddressInformation proxyStream handle peer localPeer =>
          exact waitingForExchangeAddressInformation_progress inv going state
      | waitingForConnection newCons proxyStream handle peer localPeer =>
          exact waitingForConnection_progress state
      | waitingForStream newStream proxyStream handle peer =>
          exact waitingForStream_progress inv state untroubled
      | proxyStream proxyStream handle peer => exact Or.inr (proxyStream_progress state)
  | built stream =>
      simp only [initiate, state]
      exact Or.inl ⟨trivial, trivial⟩
  | failed reason =>
      rw [state] at script
      cases script
  | panicked message =>
      rw [state] at script
      cases script
  | dropped =>
      rw [state] at script
      cases script

/-- The first packet of the initiator. -/
theorem asks_first (going : s.Going setup) (sent : s.toMiddle.history ≠ []) :
    s.toMiddle.history.head? = some setup.asks := by
  have script := going.script
  cases state : s.initiator with
  | running machine =>
      rw [state] at script
      cases machine with
      | waitingForProxyStream => exact absurd script.1 sent
      | waitingForInternetAddressInformation =>
          rw [show s.toMiddle.history = [setup.asks] from script]
          rfl
      | waitingForExchangeAddressInformation | waitingForConnection | waitingForStream
      | proxyStream =>
          obtain ⟨addresses, same⟩ := script
          rw [same]
          rfl
  | built stream =>
      rw [state] at script
      obtain ⟨addresses, same⟩ := script
      rw [same]
      rfl
  | failed | panicked | dropped =>
      rw [state] at script
      cases script

theorem announces_first (inv : s.Inv setup) (sent : s.toAsked.history ≠ []) :
    s.toAsked.history.head? = some setup.announces := by
  rcases (relayed_cases inv).1 with none | ⟨forward, tail, _, _, same⟩
  · exact absurd none sent
  · rw [same]
    rfl

theorem stepMiddle_progress (inv : s.Inv setup) (going : s.Going setup) {timeout : TimeoutPoll}
    {registry : Registry} {opened flushed : Poll Unit}
    (untroubled : s.Untroubled setup (.middle timeout registry opened flushed)) :
    s.stepMiddle setup timeout registry opened flushed = s ∧
        s.Waits (.middle timeout registry opened flushed) ∨
      s.Progress setup (s.stepMiddle setup timeout registry opened flushed) := by
  obtain ⟨rfl, hasPeer, opens, flushes⟩ := untroubled
  have relayed := inv.relayed
  simp only [stepMiddle, Waits]
  cases state : s.middle with
  | incoming =>
      rw [state] at relayed
      by_cases sent : s.toMiddle.history = []
      · simp only [sent, if_true]
        exact Or.inl ⟨trivial, trivial⟩
      · have next : s.toMiddle.next = some setup.asks := by
          have first := asks_first going sent
          rw [Channel.history, relayed.1, List.nil_append] at first
          exact first
        obtain ⟨handle, found⟩ := Option.isSome_iff_exists.mp hasPeer
        simp only [sent, if_false, readHello, next, Setup.asks, Packet.asHello,
          Connection.incomingStream, IncomingStream.new, IncomingStream.poll, handleProxyStream,
          Registry.peer, found, Option.map_some]
        exact Or.inr (.accepts _ state next)
  | opening future =>
      rcases poll_opened future opens flushes with pending | ready
      · simp only [pending, NewStreamFuture.poll]
        exact Or.inl ⟨trivial, trivial⟩
      · simp only [ready]
        exact Or.inr (.relays state)
  | relaying => exact Or.inl ⟨rfl, trivial⟩
  | ended => exact Or.inl ⟨rfl, trivial⟩

theorem endRelay_relaying (relaying : s.middle = .relaying) :
    s.endRelay = { s with
      middle := .ended
      toAsked := s.toAsked.send .closed
      toInitiator := s.toInitiator.send .closed } := by
  simp only [endRelay, relaying]

theorem relayToAsked_progress :
    s.relayToAsked = s ∧ s.Waits .relayToAsked ∨ s.Progress setup s.relayToAsked := by
  unfold relayToAsked
  split
  · rename_i relaying next
    rw [endRelay_relaying relaying]
    exact Or.inr (.closes relaying next)
  · rename_i packet notClosed relaying next
    exact Or.inr (.forwards relaying next notClosed)
  · rename_i notClosed notOpen
    refine Or.inl ⟨rfl, fun relaying => ?_⟩
    cases next : s.toMiddle.next with
    | none => rfl
    | some packet => exact absurd next (notOpen packet relaying)

theorem relayToInitiator_progress (going : s.Going setup) :
    s.relayToInitiator = s ∧ s.Waits .relayToInitiator ∨
      s.Progress setup s.relayToInitiator := by
  unfold relayToInitiator
  split
  · rename_i relaying next
    have closed := going.answers (List.mem_of_getElem? (Channel.next_getElem? next))
    cases relaying.symm.trans (going.asked closed)
  · rename_i packet _ relaying next
    exact Or.inr (.returns relaying next)
  · rename_i notClosed notOpen
    refine Or.inl ⟨rfl, fun relaying => ?_⟩
    cases next : s.fromAsked.next with
    | none => rfl
    | some packet => exact absurd next (notOpen packet relaying)

/-- All that the initiator sends besides its messages is the end of a proxy stream that it does not
need. -/
theorem closed_of_user (going : s.Going setup) {packet : Packet}
    (member : packet ∈ s.toMiddle.history) (user : packet.IsUser) :
    packet = .closed ∧ s.Direct := by
  have script := going.script
  have exchanged : ∀ addresses, packet ∈ [setup.asks, exchange addresses] → False := by
    intro addresses found
    rcases List.mem_cons.mp found with rfl | found
    · exact user
    · rw [List.mem_singleton.mp found] at user
      exact user
  cases state : s.initiator with
  | running machine =>
      rw [state] at script
      cases machine with
      | waitingForProxyStream =>
          rw [script.1] at member
          cases member
      | waitingForInternetAddressInformation =>
          rw [show s.toMiddle.history = [setup.asks] from script] at member
          exact (exchanged [] (List.mem_append_left [exchange []] member)).elim
      | waitingForExchangeAddressInformation | waitingForConnection | waitingForStream
      | proxyStream =>
          obtain ⟨addresses, same⟩ := script
          rw [same] at member
          exact (exchanged addresses member).elim
  | built stream =>
      rw [state] at script
      obtain ⟨addresses, same⟩ := script
      rw [same] at member
      rcases List.mem_append.mp (show packet ∈ [setup.asks, exchange addresses] ++ _ from member)
        with found | found
      · exact (exchanged addresses found).elim
      · cases direct : stream.isProxyStream with
        | true =>
            rw [direct, List.mem_singleton] at found
            rw [found] at user
            cases user
        | false =>
            rw [direct, List.mem_singleton] at found
            exact ⟨found, stream, state, direct⟩
  | failed | panicked | dropped =>
      rw [state] at script
      cases script

/-- The asked peer finds what is not part of the protocol only after the relay has ended. -/
theorem ended_of_user (inv : s.Inv setup) (going : s.Going setup) {packet : Packet}
    (member : packet ∈ s.toAsked.history) (user : packet.IsUser) : s.middle = .ended := by
  have relayed := inv.relayed
  cases state : s.middle with
  | incoming =>
      rw [state] at relayed
      rw [relayed.2.1] at member
      cases member
  | opening future =>
      rw [state] at relayed
      rw [relayed.2.2.1] at member
      cases member
  | ended => rfl
  | relaying =>
      rw [state] at relayed
      obtain ⟨forward, received, history, _⟩ := relayed
      rw [history] at member
      rcases List.mem_cons.mp member with rfl | member
      · cases user
      rcases List.mem_cons.mp member with rfl | member
      · cases user
      have taken : packet ∈ s.toMiddle.received := by
        rw [received]
        exact List.mem_cons_of_mem _ member
      obtain ⟨rfl, _⟩ := closed_of_user going (s.toMiddle.received_prefix.subset taken) user
      exact absurd taken going.taken

theorem incoming_progress (inv : s.Inv setup) (state : s.asked = .incoming)
    (interfaces : List IpAddr) (localAddr : SocketAddr) :
    s.stepAsked setup .notReady interfaces localAddr = s ∧ s.toAsked.history = [] ∨
      s.Progress setup (s.stepAsked setup .notReady interfaces localAddr) := by
  have replied := inv.replied
  rw [state] at replied
  simp only [stepAsked, state]
  by_cases sent : s.toAsked.history = []
  · exact Or.inl ⟨if_pos sent, sent⟩
  · have next : s.toAsked.next = some setup.announces := by
      have first := announces_first inv sent
      rw [Channel.history, List.length_eq_zero_iff.mp replied.1, List.nil_append] at first
      exact first
    simp only [sent, if_false, readHello, next, Setup.announces, Packet.asHello,
      Connection.incomingStream, IncomingStream.new, IncomingStream.poll]
    exact Or.inr (.announced _ state next)

theorem building_progress {remote : BuildConnectionToPeerRemote} (inv : s.Inv setup)
    (going : s.Going setup) (state : s.asked = .building remote) (interfaces : List IpAddr)
    (localAddr : SocketAddr) :
    s.stepAsked setup .notReady interfaces localAddr = s ∧ s.toAsked.next = none ∨
      s.Progress setup (s.stepAsked setup .notReady interfaces localAddr) := by
  have replied := inv.replied
  rw [state] at replied
  obtain ⟨stream, held⟩ := Option.isSome_iff_exists.mp replied.2.1
  have stepped : s.stepAsked setup .notReady interfaces localAddr =
      { s with toAsked := s.toAsked.receive }.reply
        (remote.step (readMessage s.toAsked) .accepted interfaces localAddr) := by
    simp only [stepAsked, state]
  rw [stepped]
  cases next : s.toAsked.next with
  | none =>
      simp only [readMessage_none next, BuildConnectionToPeerRemote.step, held, reply,
        Channel.receive_none next]
      exact Or.inl ⟨trivial, trivial⟩
  | some packet =>
      have member := List.mem_of_getElem? (Channel.next_getElem? next)
      have leaves : packet.IsUser → s.Progress setup
          ({ s with toAsked := s.toAsked.receive }.endAsked) := by
        intro user
        simp only [endAsked, state]
        exact .leaves state next (ended_of_user inv going member user)
      simp only [BuildConnectionToPeerRemote.step, held]
      cases packet with
      | closed =>
          simp only [readMessage, next, Packet.asMessage, reply]
          exact Or.inr (leaves trivial)
      | data bytes =>
          simp only [readMessage, next, Packet.asMessage, reply]
          exact Or.inr (leaves trivial)
      | hello given =>
          have found := Channel.next_getElem? next
          have started : 1 ≤ s.toAsked.received.length := by
            rcases replied.2.2.2 with ⟨one, _⟩ | ⟨two, _⟩ | ⟨three, _⟩ <;> omega
          rcases toAsked_script inv found with
            user | ⟨first, _⟩ | ⟨_, wrong⟩ | ⟨_, _, wrong⟩ | ⟨_, wrong, _⟩
          · cases user
          · omega
          · cases wrong
          · cases wrong
          · cases wrong
      | message message =>
          have read := readMessage_next next
          rw [read]
          rcases stepAsked_message inv state read with
            ⟨_, rfl, _⟩ | ⟨_, ⟨addresses, rfl⟩, known, sent⟩ | ⟨_, rfl, _⟩
          · simp only [reply, List.map_nil, Channel.sendAll_nil]
            exact Or.inr (.learns _ state next)
          · obtain ⟨internetAddr, found⟩ := Option.isSome_iff_exists.mp known
            simp only [found, reply]
            exact Or.inr (.answers _ _ state next sent)
          · exact Or.inr (.passes _ state next)

theorem step_progress (inv : s.Inv setup) (going : s.Going setup) {event : Event}
    (untroubled : s.Untroubled setup event) :
    s.step setup event = s ∧ s.Waits event ∨ s.Progress setup (s.step setup event) := by
  cases event with
  | initiate answers => exact initiate_progress inv going untroubled
  | middle timeout registry opened flushed => exact stepMiddle_progress inv going untroubled
  | relayToAsked => exact relayToAsked_progress
  | relayToInitiator => exact relayToInitiator_progress going
  | asked timeout interfaces localAddr =>
      cases untroubled
      simp only [Waits]
      cases state : s.asked with
      | incoming => exact incoming_progress inv state interfaces localAddr
      | building remote => exact building_progress inv going state interfaces localAddr
      | passed | ended | panicked =>
          simp only [step, stepAsked, state]
          exact Or.inl ⟨trivial, trivial⟩
  | drop | endRelay | endAsked | initiatorUser | askedUser => exact untroubled.elim

end

end BuildSession

end HolePunch
