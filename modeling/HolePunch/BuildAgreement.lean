import HolePunch.BuildScript

set_option autoImplicit false

/- What holds in every run of building a connection, however the three peers take turns. -/
namespace HolePunch

open Packet (internet exchange proxy)

namespace BuildSession

section

variable {setup : Setup} {s : BuildSession}

/-- A message that the initiator reads is the next one sent to it. -/
theorem readMessage_some {channel : Channel Packet} {message : BuildConnectionToPeerProtocol}
    (read : readMessage channel = .ready (some message)) :
    channel.next = some (.message message) := by
  unfold readMessage at read
  split at read
  · cases read
  · rename_i packet found
    cases packet with
    | message given =>
        cases read
        exact found
    | hello given => cases read
    | data bytes => cases read
    | closed => cases read

/-- The first packet the initiator reads is its address, or the stream is no longer used. -/
theorem first_read (inv : s.Inv setup) (nothing : s.toInitiator.received.length = 0)
    {message : BuildConnectionToPeerProtocol}
    (read : readMessage s.toInitiator = .ready (some message)) :
    message = .internetAddressInformation setup.initiatingAddr := by
  have found := Channel.next_getElem? (readMessage_some read)
  rw [nothing] at found
  rcases toInitiator_script inv found (by omega) with user | ⟨_, same⟩ | ⟨wrong, _⟩
  · cases user
  · exact Packet.message.inj same
  · cases wrong

theorem second_read (inv : s.Inv setup) (one : s.toInitiator.received.length = 1)
    {message : BuildConnectionToPeerProtocol}
    (read : readMessage s.toInitiator = .ready (some message)) :
    ∃ addresses, message = .exchangeAddressInformation addresses := by
  have found := Channel.next_getElem? (readMessage_some read)
  rw [one] at found
  rcases toInitiator_script inv found (by omega) with user | ⟨wrong, _⟩ | ⟨_, addresses, same⟩
  · cases user
  · cases wrong
  · exact ⟨addresses, Packet.message.inj same⟩

theorem readMessage_notReady {channel : Channel Packet} (read : readMessage channel = .notReady) :
    channel.receive = channel := by
  unfold readMessage at read
  split at read
  · rename_i nothing
    exact Channel.receive_none nothing
  · rename_i packet found
    cases packet <;> cases read

section

variable (answers : BuildAnswers) {proxyStream : Strategies.Stream} {handle : NewStreamHandle}
  {peer localPeer : PeerIdentifier}

/-- An initiator that goes on without sending anything. -/
theorem Inv.silent (inv : s.Inv setup) {machine next : BuildConnectionToPeer}
    (state : s.initiator = .running machine) (silent : machine.hello = [])
    {toInitiator : Channel Packet} (same : toInitiator.history = s.toInitiator.history)
    (sent : (Initiator.running next).Sent setup s.toMiddle.history)
    (heard : (Initiator.running next).Heard toInitiator.received)
    (sound : (Initiator.running next).Sound setup) :
    ({ s with toInitiator := toInitiator }.proceed machine (.transition next, [])).Inv setup := by
  refine inv.advance state same ?_ heard sound
  rw [silent, List.map_nil, List.append_nil, List.append_nil]
  exact sent

theorem waitingForProxyStream_inv {future : NewStreamFuture} (inv : s.Inv setup)
    (state : s.initiator = .running (.waitingForProxyStream future handle peer localPeer)) :
    (s.proceed (.waitingForProxyStream future handle peer localPeer)
      (BuildConnectionToPeer.pollWaitingForProxyStream future handle peer localPeer
        answers)).Inv setup := by
  have sent := inv.sent
  have heard := inv.heard
  have sound := inv.sound
  rw [state] at sent heard sound
  unfold BuildConnectionToPeer.pollWaitingForProxyStream
  split
  · exact inv.stop state rfl (fun _ stopped => stopped) trivial trivial
  · exact inv
  · exact inv.stop state rfl (fun _ stopped => stopped) trivial trivial
  · refine inv.advance state rfl ?_ heard ⟨sound.1, fun _ _ _ _ same => by cases same⟩
    rw [sent.1, BuildConnectionToPeer.hello, sent.2]
    rfl

theorem waitingForInternetAddressInformation_inv (inv : s.Inv setup)
    (state : s.initiator =
      .running (.waitingForInternetAddressInformation proxyStream handle peer localPeer))
    (read : answers.message = readMessage s.toInitiator) (accepts : answers.sent = .accepted) :
    ({ s with toInitiator := s.toInitiator.receive }.proceed
      (.waitingForInternetAddressInformation proxyStream handle peer localPeer)
      (BuildConnectionToPeer.pollWaitingForInternetAddressInformation proxyStream handle peer
        localPeer answers)).Inv setup := by
  have sent := inv.sent
  have heard := inv.heard
  have sound := inv.sound
  rw [state] at sent heard sound
  have same := s.toInitiator.receive_history
  unfold BuildConnectionToPeer.pollWaitingForInternetAddressInformation
  split
  · rename_i nothing
    rw [proceed, readMessage_notReady (read.symm.trans nothing)]
    exact inv
  · exact inv.stop state same (fun _ stopped => stopped) trivial trivial
  · exact inv.stop state same (fun _ stopped => stopped) trivial trivial
  · rename_i addr given
    simp only [BuildConnectionToPeer.sending, accepts]
    refine inv.advance state same ?_ ?_ ⟨sound.1, fun _ _ _ _ same => by cases same⟩
    · rw [show s.toMiddle.history = [setup.asks] from sent]
      exact ⟨_, rfl⟩
    · have received := Channel.receive_received (readMessage_some (read.symm.trans given))
      change s.toInitiator.receive.received.length = 1
      rw [received, List.length_append, show s.toInitiator.received.length = 0 from heard]
      rfl
  · exact inv.stop state same (fun _ stopped => stopped) trivial trivial

theorem waitingForExchangeAddressInformation_inv (inv : s.Inv setup)
    (state : s.initiator =
      .running (.waitingForExchangeAddressInformation proxyStream handle peer localPeer))
    (read : answers.message = readMessage s.toInitiator) :
    ({ s with toInitiator := s.toInitiator.receive }.proceed
      (.waitingForExchangeAddressInformation proxyStream handle peer localPeer)
      (BuildConnectionToPeer.pollWaitingForExchangeAddressInformation proxyStream handle peer
        localPeer answers)).Inv setup := by
  have sent := inv.sent
  have sound := inv.sound
  rw [state] at sent sound
  have same := s.toInitiator.receive_history
  unfold BuildConnectionToPeer.pollWaitingForExchangeAddressInformation
  split
  · rename_i nothing
    rw [proceed, readMessage_notReady (read.symm.trans nothing)]
    exact inv
  · exact inv.stop state same (fun _ stopped => stopped) trivial trivial
  · exact inv.stop state same (fun _ stopped => stopped) trivial trivial
  · exact inv.silent state rfl same sent trivial ⟨sound.1, fun _ _ _ _ same => by cases same⟩
  · exact inv.stop state same (fun _ stopped => stopped) trivial trivial

/-- Whatever the initiator waits for after the exchange, it can fall back to its proxy stream. -/
theorem fallback_inv (inv : s.Inv setup) {machine : BuildConnectionToPeer}
    (state : s.initiator = .running machine) (searched : machine.searched = peer)
    (sent : ∃ addresses, s.toMiddle.history = [setup.asks, exchange addresses])
    (silent : machine.hello = []) :
    (s.proceed machine (.transition (.proxyStream proxyStream handle peer), [])).Inv setup := by
  have sound := inv.sound
  rw [state] at sound
  exact inv.silent state silent rfl sent trivial
    ⟨searched.symm.trans sound.1, fun _ _ _ _ same => by cases same⟩

theorem waitingForConnection_inv {newCons : List SocketAddr} (inv : s.Inv setup)
    (state : s.initiator =
      .running (.waitingForConnection newCons proxyStream handle peer localPeer)) :
    (s.proceed (.waitingForConnection newCons proxyStream handle peer localPeer)
      (BuildConnectionToPeer.pollWaitingForConnection newCons proxyStream handle peer localPeer
        answers)).Inv setup := by
  have sent := inv.sent
  have sound := inv.sound
  rw [state] at sent sound
  unfold BuildConnectionToPeer.pollWaitingForConnection
  split
  · exact fallback_inv inv state rfl sent rfl
  · split
    · refine inv.silent state rfl rfl sent trivial ⟨sound.1, ?_⟩
      intro _ _ _ _ same
      cases same
      rfl
    · exact fallback_inv inv state rfl sent rfl
    · exact fallback_inv inv state rfl sent rfl
    · exact inv

/-- The initiator hands a stream to its user. -/
theorem Inv.build (inv : s.Inv setup) {machine : BuildConnectionToPeer}
    (state : s.initiator = .running machine) {stream : Stream} {packets : List Packet}
    (sent : (Initiator.built stream).Sent setup (s.toMiddle.history ++ packets))
    (sound : (Initiator.built stream).Sound setup) :
    Inv setup { s with
      initiator := .built stream, toMiddle := s.toMiddle.sendAll packets } := by
  refine inv.ofRunning state rfl (s.toMiddle.history_prefix_sendAll _) rfl ?_ trivial sound
  rw [Channel.sendAll_history]
  exact sent

theorem waitingForStream_inv {newStream : NewStreamFuture} (inv : s.Inv setup)
    (state : s.initiator = .running (.waitingForStream newStream proxyStream handle peer)) :
    (s.proceed (.waitingForStream newStream proxyStream handle peer)
      (BuildConnectionToPeer.pollWaitingForStream newStream proxyStream handle peer
        answers)).Inv setup := by
  have sent := inv.sent
  have sound := inv.sound
  rw [state] at sent sound
  have direct := sound.2 newStream proxyStream handle peer rfl
  unfold BuildConnectionToPeer.pollWaitingForStream
  split
  · exact inv.stop state rfl (fun _ stopped => stopped) trivial trivial
  · rename_i stream opened
    have isDirect : stream.isProxyStream = false := by
      rw [NewStreamFuture.poll_ready opened]
      exact direct
    refine inv.build state ?_ ?_
    · obtain ⟨addresses, same⟩ := sent
      refine ⟨addresses, [.closed], UserOnly.nil.snoc trivial, ?_⟩
      rw [same, isDirect]
      rfl
    · intro proxied
      rw [isDirect] at proxied
      cases proxied
  · exact fallback_inv inv state rfl sent rfl
  · exact inv

theorem proxyStream_inv (inv : s.Inv setup)
    (state : s.initiator = .running (.proxyStream proxyStream handle peer))
    (accepts : answers.sent = .accepted) :
    (s.proceed (.proxyStream proxyStream handle peer)
      (BuildConnectionToPeer.pollProxyStream proxyStream handle peer answers)).Inv setup := by
  have sent := inv.sent
  have sound := inv.sound
  rw [state] at sent sound
  simp only [BuildConnectionToPeer.pollProxyStream, BuildConnectionToPeer.sending, accepts]
  refine inv.build state ?_ (fun _ => sound.1)
  obtain ⟨addresses, same⟩ := sent
  refine ⟨addresses, [], .nil, ?_⟩
  rw [same]
  rfl

end

theorem initiate_inv (inv : s.Inv setup) (answers : BuildAnswers) :
    (s.initiate answers).Inv setup := by
  unfold initiate
  split
  · rename_i machine state
    cases machine with
    | waitingForProxyStream future handle peer localPeer =>
        exact waitingForProxyStream_inv _ inv state
    | waitingForInternetAddressInformation proxyStream handle peer localPeer =>
        exact waitingForInternetAddressInformation_inv
          { answers with message := readMessage s.toInitiator, sent := .accepted } inv state rfl rfl
    | waitingForExchangeAddressInformation proxyStream handle peer localPeer =>
        exact waitingForExchangeAddressInformation_inv
          { answers with message := readMessage s.toInitiator, sent := .accepted } inv state rfl
    | waitingForConnection newCons proxyStream handle peer localPeer =>
        exact waitingForConnection_inv _ inv state
    | waitingForStream newStream proxyStream handle peer =>
        exact waitingForStream_inv _ inv state
    | proxyStream proxyStream handle peer =>
        exact proxyStream_inv { answers with sent := .accepted } inv state rfl
  · exact inv

theorem drop_inv (inv : s.Inv setup) : s.drop.Inv setup := by
  unfold drop
  split
  · rename_i machine state
    exact inv.stop state rfl (fun _ stopped => stopped) trivial trivial
  · exact inv

theorem readHello_some {channel : Channel Packet} {given : StreamHello}
    (read : readHello channel = .ready (some given)) : channel.next = some (.hello given) := by
  unfold readHello at read
  split at read
  · cases read
  · rename_i packet found
    cases packet with
    | hello other =>
        cases read
        exact found
    | message other => cases read
    | data bytes => cases read
    | closed => cases read

/-- The relay ends both of its streams after what it has passed on. -/
theorem endRelay_inv (inv : s.Inv setup) : s.endRelay.Inv setup := by
  unfold endRelay
  split
  · rename_i state
    have relayed := inv.relayed
    rw [state] at relayed
    obtain ⟨forward, received, toAsked, toInitiator⟩ := relayed
    refine inv.ofMiddle rfl rfl rfl rfl
      ⟨Or.inr ⟨forward, ?_, ?_⟩, Or.inr ⟨s.fromAsked.received, ?_, ?_⟩⟩
    · rw [← received]
      exact s.toMiddle.received_prefix
    · rw [Channel.send_history, toAsked]
      rfl
    · exact s.fromAsked.received_prefix
    · rw [Channel.send_history, toInitiator]
      rfl
  · exact inv

theorem refuse_inv (inv : s.Inv setup) (toAsked : s.toAsked.history = [])
    (toInitiator : s.toInitiator.history = []) : s.refuse.Inv setup := by
  refine inv.ofMiddle rfl rfl rfl rfl ⟨Or.inl toAsked, Or.inl ?_⟩
  rw [Channel.send_history, toInitiator]
  rfl

theorem stepMiddle_inv (inv : s.Inv setup) (timeout : TimeoutPoll) (registry : Registry)
    (opened flushed : Poll Unit) :
    (s.stepMiddle setup timeout registry opened flushed).Inv setup := by
  have relayed := inv.relayed
  unfold stepMiddle
  split
  · rename_i state
    rw [state] at relayed
    obtain ⟨received, toAsked, toInitiator, fromAsked⟩ := relayed
    split
    · exact inv
    · split
      · exact inv
      · rename_i target stream helloMsg polled
        obtain ⟨read, rfl⟩ := IncomingStream.poll_proxyBuild polled
        have next := readHello_some read
        have found := Channel.next_getElem? next
        rw [received] at found
        split
        · rename_i future made
          obtain ⟨handle, _, rfl⟩ := Option.map_eq_some_iff.mp made
          refine inv.ofMiddle s.toMiddle.receive_history rfl rfl rfl
            ⟨?_, rfl, toAsked, toInitiator, fromAsked⟩
          rw [Channel.receive_received next, received]
          rcases sent_script inv found with user | ⟨_, same⟩ | ⟨wrong, _⟩ | ⟨wrong, _⟩
          · cases user
          · rw [same]
            rfl
          · cases wrong
          · cases wrong
        · exact refuse_inv inv toAsked toInitiator
      · exact refuse_inv inv toAsked toInitiator
  · rename_i future state
    rw [state] at relayed
    obtain ⟨received, hello, toAsked, toInitiator, fromAsked⟩ := relayed
    split
    · exact inv
    · refine inv.ofMiddle rfl rfl rfl rfl ⟨[], received, ?_, ?_⟩
      · rw [Channel.sendAll_history, toAsked, ← hello]
        rfl
      · rw [Channel.send_history, toInitiator]
        simp only [fromAsked]
        rfl
    · exact refuse_inv inv toAsked toInitiator
  · exact inv

theorem relayToAsked_inv (inv : s.Inv setup) : s.relayToAsked.Inv setup := by
  unfold relayToAsked
  split
  · exact endRelay_inv inv
  · rename_i packet _ state next
    have relayed := inv.relayed
    rw [state] at relayed
    obtain ⟨forward, received, toAsked, toInitiator⟩ := relayed
    refine inv.ofMiddle s.toMiddle.receive_history rfl rfl rfl ?_
    rw [state]
    refine ⟨forward ++ [packet], ?_, ?_, toInitiator⟩
    · rw [Channel.receive_received next, received]
      rfl
    · rw [Channel.send_history, toAsked]
      rfl
  · exact inv

theorem relayToInitiator_inv (inv : s.Inv setup) : s.relayToInitiator.Inv setup := by
  unfold relayToInitiator
  split
  · exact endRelay_inv inv
  · rename_i packet _ state next
    have relayed := inv.relayed
    rw [state] at relayed
    obtain ⟨forward, received, toAsked, toInitiator⟩ := relayed
    refine inv.ofMiddle rfl rfl rfl s.fromAsked.receive_history ?_
    rw [state]
    refine ⟨forward, received, toAsked, ?_⟩
    rw [Channel.send_history, toInitiator, Channel.receive_received next]
    rfl
  · exact inv

/-- The asked peer leaves before it has passed a stream on. -/
theorem endAsked_inv (inv : s.Inv setup) {toAsked : Channel Packet}
    (same : toAsked.history = s.toAsked.history) :
    ({ s with toAsked := toAsked }.endAsked).Inv setup := by
  have closed : UserOnly [Packet.closed] := UserOnly.nil.snoc trivial
  have more := s.fromAsked.history_prefix_send Packet.closed
  have replied := inv.replied
  unfold endAsked
  split
  · rename_i state
    rw [state] at replied
    refine inv.ofAsked same rfl more ⟨replied.2.2, [.closed], closed, Or.inl ?_⟩
    rw [Channel.send_history, replied.2.1]
    rfl
  · rename_i remote state
    rw [state] at replied
    refine inv.ofAsked same rfl more ⟨replied.1, [.closed], closed, ?_⟩
    simp only [Channel.send_history]
    rcases replied.2.2.2 with ⟨_, none⟩ | ⟨_, _, none⟩ | ⟨_, answers, one⟩
    · rw [none]
      exact Or.inl rfl
    · rw [none]
      exact Or.inl rfl
    · rw [one]
      exact Or.inr ⟨answers, rfl⟩
  · rename_i notIncoming notBuilding
    refine inv.ofAsked same rfl (List.prefix_refl _) ?_
    cases state : s.asked with
    | incoming => exact absurd state notIncoming
    | building remote => exact absurd state (notBuilding remote)
    | passed | ended | panicked =>
        rw [state] at replied
        exact replied

theorem stepAsked_incoming {result : Handled IncomingStream Unit} {timeout : TimeoutPoll}
    {remote : BuildConnectionToPeerRemote} (inv : s.Inv setup) (state : s.asked = .incoming)
    (polled : setup.middle.incomingStream.poll timeout (readHello s.toAsked) =
      (result, .buildConnectionToPeerRemote remote)) :
    Inv setup { s with asked := .building remote, toAsked := s.toAsked.receive } := by
  have replied := inv.replied
  rw [state] at replied
  obtain ⟨nothing, fromAsked, context⟩ := replied
  obtain ⟨stream, peer, read, rfl⟩ := IncomingStream.poll_buildRemote polled
  have next := readHello_some read
  have found := Channel.next_getElem? next
  rw [nothing] at found
  refine inv.ofAsked s.toAsked.receive_history rfl (List.prefix_refl _)
    ⟨context, rfl, ?_, Or.inl ⟨?_, fromAsked⟩⟩
  · rcases toAsked_script inv found with user | ⟨_, same⟩ | ⟨wrong, _⟩ | ⟨wrong, _⟩ | ⟨wrong, _⟩
    · cases user
    · exact StreamHello.buildConnectionToPeer.inj (Packet.hello.inj same)
    · cases wrong
    · cases wrong
    · cases wrong
  · rw [Channel.receive_received next, List.length_append, nothing]
    rfl

/-- The asked peer reads its address, then the addresses of the initiator, and then, if the
initiator uses the proxy stream, that it does. -/
theorem stepAsked_message {remote : BuildConnectionToPeerRemote} (inv : s.Inv setup)
    (state : s.asked = .building remote) {message : BuildConnectionToPeerProtocol}
    (read : readMessage s.toAsked = .ready (some message)) :
    (s.toAsked.received.length = 1 ∧ message = .internetAddressInformation setup.askedAddr ∧
      s.fromAsked.history = []) ∨
    (s.toAsked.received.length = 2 ∧
      (∃ addresses, message = .exchangeAddressInformation addresses) ∧
      remote.internetAddr.isSome ∧ s.fromAsked.history = []) ∨
    (s.toAsked.received.length = 3 ∧ message = .proxyConnection ∧ s.Proxied ∧
      ∃ answers, s.fromAsked.history = [exchange answers]) := by
  have replied := inv.replied
  rw [state] at replied
  have found := Channel.next_getElem? (readMessage_some read)
  have script := toAsked_script inv found
  rcases replied.2.2.2 with ⟨length, sent⟩ | ⟨length, known, sent⟩ | ⟨length, sent⟩
  · rcases script with user | ⟨index, _⟩ | ⟨_, same⟩ | ⟨index, _⟩ | ⟨index, _⟩
    · cases user
    · omega
    · exact Or.inl ⟨length, Packet.message.inj same, sent⟩
    · omega
    · omega
  · rcases script with user | ⟨index, _⟩ | ⟨index, _⟩ | ⟨_, addresses, same⟩ | ⟨index, _⟩
    · cases user
    · omega
    · omega
    · exact Or.inr (Or.inl ⟨length, ⟨addresses, Packet.message.inj same⟩, known, sent⟩)
    · omega
  · rcases script with user | ⟨index, _⟩ | ⟨index, _⟩ | ⟨index, _⟩ | ⟨_, same, proxied⟩
    · cases user
    · omega
    · omega
    · omega
    · exact Or.inr (Or.inr ⟨length, Packet.message.inj same, proxied, sent⟩)

theorem building_inv {remote : BuildConnectionToPeerRemote} (inv : s.Inv setup)
    (state : s.asked = .building remote) (interfaces : List IpAddr) (localAddr : SocketAddr) :
    ({ s with toAsked := s.toAsked.receive }.reply
      (remote.step (readMessage s.toAsked) .accepted interfaces localAddr)).Inv setup := by
  have replied := inv.replied
  rw [state] at replied
  obtain ⟨context, isSome, peer, _⟩ := replied
  obtain ⟨stream, held⟩ := Option.isSome_iff_exists.mp isSome
  have same := s.toAsked.receive_history
  have more := s.fromAsked.history_prefix_sendAll
  simp only [BuildConnectionToPeerRemote.step, held]
  cases read : readMessage s.toAsked with
  | notReady =>
      rw [reply, readMessage_notReady read]
      exact inv
  | error reason => exact endAsked_inv inv same
  | ready message =>
      cases message with
      | none => exact endAsked_inv inv same
      | some message =>
          have received : s.toAsked.receive.received.length = s.toAsked.received.length + 1 := by
            rw [Channel.receive_received (readMessage_some read), List.length_append]
            rfl
          rcases stepAsked_message inv state read with
            ⟨one, rfl, sent⟩ | ⟨two, ⟨addresses, rfl⟩, known, sent⟩ |
            ⟨three, rfl, proxied, answered⟩
          · have progress : s.toAsked.receive.received.length = 2 := by omega
            refine inv.ofAsked same rfl (more []) ⟨context, rfl, peer, ?_⟩
            refine Or.inr (Or.inl ⟨progress, rfl, ?_⟩)
            rw [Channel.sendAll_history, sent]
            rfl
          · have progress : s.toAsked.receive.received.length = 3 := by omega
            obtain ⟨internetAddr, found⟩ := Option.isSome_iff_exists.mp known
            simp only [found]
            refine inv.ofAsked same rfl (more _) ⟨context, isSome, peer, ?_⟩
            refine Or.inr (Or.inr ⟨progress, ?_⟩)
            rw [Channel.sendAll_history, sent]
            exact ⟨_, rfl⟩
          · obtain ⟨answers, sent⟩ := answered
            refine inv.ofAsked same rfl (List.prefix_refl _) ⟨proxied, ?_, answers, [], .nil, sent⟩
            rw [context]
            exact ⟨_, rfl, rfl, peer⟩

theorem stepAsked_inv (inv : s.Inv setup) (timeout : TimeoutPoll) (interfaces : List IpAddr)
    (localAddr : SocketAddr) : (s.stepAsked setup timeout interfaces localAddr).Inv setup := by
  unfold stepAsked
  split
  · rename_i state
    split
    · exact inv
    · split
      · exact inv
      · rename_i remote polled
        exact stepAsked_incoming inv state polled
      · exact endAsked_inv inv rfl
  · rename_i remote state
    exact building_inv inv state interfaces localAddr
  · exact inv

theorem user_isUser (packet : Option LengthDelimited.Bytes) : (user packet).IsUser := by
  cases packet <;> exact trivial

theorem initiatorUser_inv (inv : s.Inv setup) (packet : Option LengthDelimited.Bytes) :
    (s.initiatorUser packet).Inv setup := by
  unfold initiatorUser
  split
  · rename_i stream state
    split
    · rename_i proxied
      have sent := inv.sent
      have sound := inv.sound
      rw [state] at sent sound
      refine inv.ofInitiator rfl (s.toMiddle.history_prefix_send _) rfl (fun _ built => built) ?_
        inv.heard inv.sound
      obtain ⟨addresses, rest, only, same⟩ := sent
      rw [Channel.send_history, state]
      refine ⟨addresses, rest ++ [user packet], only.snoc (user_isUser packet), ?_⟩
      rw [same, proxied]
      rfl
    · exact inv
  · exact inv

theorem askedUser_inv (inv : s.Inv setup) (packet : Option LengthDelimited.Bytes) :
    (s.askedUser packet).Inv setup := by
  unfold askedUser
  split
  · rename_i state
    have replied := inv.replied
    rw [state] at replied
    obtain ⟨proxied, passed, answers, rest, only, same⟩ := replied
    refine inv.ofAsked rfl rfl (s.fromAsked.history_prefix_send _) ?_
    rw [state]
    refine ⟨proxied, passed, answers, rest ++ [user packet], only.snoc (user_isUser packet), ?_⟩
    rw [Channel.send_history, same]
    rfl
  · exact inv

theorem step_inv (inv : s.Inv setup) (event : Event) : (s.step setup event).Inv setup := by
  cases event with
  | initiate answers => exact initiate_inv inv answers
  | drop => exact drop_inv inv
  | middle timeout registry opened flushed =>
      exact stepMiddle_inv inv timeout registry opened flushed
  | relayToAsked => exact relayToAsked_inv inv
  | relayToInitiator => exact relayToInitiator_inv inv
  | endRelay => exact endRelay_inv inv
  | asked timeout interfaces localAddr => exact stepAsked_inv inv timeout interfaces localAddr
  | endAsked => exact endAsked_inv inv rfl
  | initiatorUser packet => exact initiatorUser_inv inv packet
  | askedUser packet => exact askedUser_inv inv packet

/-- The asked peer has passed on nothing, or one stream, and then the initiator uses its other
end. -/
theorem context_cases (inv : s.Inv setup) :
    s.context = [] ∨ s.Proxied ∧ ∃ stream, s.context = [stream] ∧ stream.isProxyStream = true ∧
      stream.peerIdentifier = setup.initiating.peerIdentifier := by
  have replied := inv.replied
  cases state : s.asked with
  | incoming =>
      rw [state] at replied
      exact Or.inl replied.2.2
  | building remote =>
      rw [state] at replied
      exact Or.inl replied.1
  | passed =>
      rw [state] at replied
      exact Or.inr ⟨replied.1, replied.2.1⟩
  | ended =>
      rw [state] at replied
      exact Or.inl replied.1
  | panicked text =>
      rw [state] at replied
      cases replied

theorem run_inv (setup : Setup) (events : List Event) :
    (Transition.run (step setup) (init setup) events).Inv setup :=
  Transition.run_invariant (Inv setup) (fun _ event inv => step_inv inv event) (init_inv setup)
    events

end

/-- In whatever order the peers take their turns, however the connection attempts end, and whenever
a timeout fires or somebody leaves: the initiator only reads what it waits for, the asked peer
knows its address when it needs it, and it passes a stream on only if the initiator has ended with
the stream through the peer in the middle, as whose other end it then knows the peer that the one
in the middle has authenticated. -/
theorem building_agreement (setup : Setup) (events : List Event) :
    let s := Transition.run (step setup) (init setup) events
    (∀ proxyStream handle peer localPeer message,
      s.initiator =
        .running (.waitingForInternetAddressInformation proxyStream handle peer localPeer) →
      readMessage s.toInitiator = .ready (some message) →
      ∃ addr, message = .internetAddressInformation addr) ∧
    (∀ proxyStream handle peer localPeer message,
      s.initiator =
        .running (.waitingForExchangeAddressInformation proxyStream handle peer localPeer) →
      readMessage s.toInitiator = .ready (some message) →
      ∃ addresses, message = .exchangeAddressInformation addresses) ∧
    (∀ text, s.asked ≠ .panicked text) ∧
    s.context.length ≤ 1 ∧
    ∀ theirs ∈ s.context, ∃ mine, s.initiator = .built mine ∧
      .message .proxyConnection ∈ s.toMiddle.history ∧
      mine.isP2p = false ∧ mine.peerIdentifier = setup.target ∧
      theirs.isP2p = false ∧ theirs.peerIdentifier = setup.initiating.peerIdentifier := by
  intro s
  have inv : s.Inv setup := run_inv setup events
  refine ⟨?_, ?_, ?_, ?_, ?_⟩
  · intro proxyStream handle peer localPeer message state read
    have heard := inv.heard
    rw [state] at heard
    exact ⟨_, first_read inv heard read⟩
  · intro proxyStream handle peer localPeer message state read
    have heard := inv.heard
    rw [state] at heard
    exact second_read inv heard read
  · intro text state
    have replied := inv.replied
    rw [state] at replied
    exact replied
  · rcases context_cases inv with none | ⟨_, stream, one, _⟩
    · rw [none]
      exact Nat.zero_le 1
    · rw [one]
      exact Nat.le_refl 1
  · intro theirs member
    rcases context_cases inv with none | ⟨⟨mine, built, proxied⟩, stream, one, isProxy, peer⟩
    · rw [none] at member
      cases member
    · rw [one] at member
      rw [List.mem_singleton.mp member]
      have sent := inv.sent
      have sound := inv.sound
      rw [built] at sent sound
      obtain ⟨addresses, rest, _, same⟩ := sent
      refine ⟨mine, built, ?_, ?_, sound proxied, ?_, peer⟩
      · rw [same, proxied]
        simp [proxy]
      · simp only [Stream.isP2p, proxied, Bool.not_true]
      · simp only [Stream.isP2p, isProxy, Bool.not_true]

/-- Peer 1 looks for peer 2 through peer 3. -/
def relayed : Setup :=
  let one : PeerIdentifier := .ofByte 1
  let two : PeerIdentifier := .ofByte 2
  let three : PeerIdentifier := .ofByte 3
  { localPeerIdentifier := one
    target := two
    newStreamHandle := NewStreamHandle.new three one ⟨0⟩
    initiating := ⟨⟨1, 0⟩, NewStreamHandle.new one three ⟨0⟩, one, 0⟩
    initiatingAddr := ⟨.v4 1, 22222⟩
    middle := ⟨⟨1, 0⟩, NewStreamHandle.new three two ⟨0⟩, three, 0⟩
    askedAddr := ⟨.v4 2, 22222⟩ }

/-- The timeout fires while the initiator waits for a connection. -/
def fallback : List Event :=
  let answers (timeout : TimeoutPoll) : BuildAnswers :=
    ⟨.ready (), .ready (), .notReady, .accepted, timeout, none, [], ⟨.v4 0, 22222⟩⟩
  let registry := (Registry.new.registerPeer relayed.target
    (NewStreamHandle.new relayed.target relayed.middle.peerIdentifier ⟨1⟩)).2
  let asked := Event.asked .notReady [] ⟨.v4 0, 22222⟩
  [.initiate (answers .notReady), .middle .notReady registry (.ready ()) (.ready ()),
    .middle .notReady registry (.ready ()) (.ready ()), asked, asked, .initiate (answers .notReady),
    .relayToAsked, asked, .relayToInitiator, .initiate (answers .notReady),
    .initiate (answers .error), .initiate (answers .notReady), .relayToAsked, asked]

example : (Transition.run (step relayed) (init relayed) fallback).context =
    [Stream.new ⟨0⟩ relayed.localPeerIdentifier relayed.middle.newStreamHandle true] := by
  decide

end BuildSession

end HolePunch
