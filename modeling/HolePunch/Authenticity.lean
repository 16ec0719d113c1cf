import HolePunch.Identity

set_option autoImplicit false

/- Every stream and handle a peer ever holds, over all its runs: direct streams carry the
authenticated identity of their connection, and what a call of `create_connection_to_peer`
returns. -/
namespace HolePunch.Node

/-- The peers that the calls so far have asked for. -/
def calls (s : Node) : List PeerIdentifier := s.creates.map Create.peer

structure DialSound (owner : PeerIdentifier) (keys calls : List PeerIdentifier) (purpose : Purpose)
    (machine : ConnectWithStrategies) : Prop where
  wanted : ∀ create, purpose = .fulfillRequest create → create < calls.length
  hello : machine.helloMsg = .registry ∨ ∃ peer, machine.helloMsg = .user peer
  wait : ∀ wait, machine.connect = some (.waitForConnectStream wait) →
    wait.Authentic owner keys ∧ wait.identity.2 = false

structure OutgoingSound (owner : PeerIdentifier) (keys calls : List PeerIdentifier)
    (outgoing : Remote.OutgoingStream) : Prop where
  handle : outgoing.newStreamHandle.Authentic owner keys
  peer : outgoing.newStreamHandle.peerIdentifier = outgoing.peerIdentifier
  requests : ∀ peer senders, outgoing.requests peer = some senders →
    ∀ sender ∈ senders, calls[sender]? = some peer

/-- An answer delivered to a call is one to the search for the peer the call asked for. -/
def ResultSound (owner : PeerIdentifier) (keys calls : List PeerIdentifier) (sender : Nat)
    (result : RegistryResult) : Prop :=
  ∃ peer, calls[sender]? = some peer ∧ result.Sound owner keys peer

structure Inv (owner : PeerIdentifier) (s : Node) : Prop where
  localPeer : s.connections.localPeerIdentifier = owner
  table : s.connections.Inv
  lengths : s.keys.length = s.connections.connections.length
  connection : ∀ (number : Nat) (connection : Connection),
    s.connections.connections[number]? = some connection → connection.Authentic owner s.keys number
  context : ∀ stream ∈ s.context, stream.Authentic owner s.keys
  streams : ∀ stream ∈ s.streams, stream.Authentic owner s.keys
  opening : ∀ future ∈ s.opening, future.Authentic owner s.keys
  connects : ∀ entry ∈ s.connects, DialSound owner s.keys s.calls entry.1 entry.2
  outgoing : ∀ outgoing, s.outgoing = some outgoing → OutgoingSound owner s.keys s.calls outgoing
  results : ∀ entry ∈ s.results, ResultSound owner s.keys s.calls entry.1 entry.2.2
  creates : ∀ call ∈ s.creates, ∀ stage, call.stage = some stage →
    stage.Sound owner s.keys call.peer
  resolved : ∀ call ∈ s.resolved, call.Sound owner s.keys
  remotes : ∀ remote ∈ s.remotes, remote.Sound owner

theorem init_inv (localPeerIdentifier : PeerIdentifier) (authenticator : Authenticator)
    (registries : List RegistryProvider) :
    (init localPeerIdentifier authenticator registries).Inv localPeerIdentifier where
  localPeer := rfl
  table := Connections.init_inv _ _ _
  lengths := rfl
  connection := fun _ _ found => by cases found
  context := fun _ member => by cases member
  streams := fun _ member => by cases member
  opening := fun _ member => by cases member
  connects := fun _ member => by cases member
  outgoing := fun _ found => by cases found
  results := fun _ member => by cases member
  creates := fun _ member => by cases member
  resolved := fun _ member => by cases member
  remotes := fun _ member => by cases member

theorem forall_mem_snoc {α : Type} {property : α → Prop} {list : List α} {last : α}
    (before : ∀ value ∈ list, property value) (holds : property last) :
    ∀ value ∈ list ++ [last], property value :=
  List.forall_mem_append.mpr ⟨before, List.forall_mem_singleton.mpr holds⟩

theorem forall_mem_set {α : Type} {property : α → Prop} {list : List α} {index : Nat} {next : α}
    (before : ∀ value ∈ list, property value) (holds : property next) :
    ∀ value ∈ list.set index next, property value := by
  intro value member
  rcases List.mem_or_eq_of_mem_set member with old | rfl
  · exact before value old
  · exact holds

theorem forall_mem_eraseIdx {α : Type} {property : α → Prop} {list : List α} {index : Nat}
    (before : ∀ value ∈ list, property value) :
    ∀ value ∈ list.eraseIdx index, property value :=
  fun value member => before value (List.mem_of_mem_eraseIdx member)

section

variable {owner : PeerIdentifier} {keys more calls asked : List PeerIdentifier}

theorem DialSound.mono {purpose : Purpose} {machine : ConnectWithStrategies}
    (keysGrown : keys <+: more) (callsGrown : calls <+: asked)
    (sound : DialSound owner keys calls purpose machine) :
    DialSound owner more asked purpose machine where
  wanted := fun create same => Nat.lt_of_lt_of_le (sound.wanted create same) callsGrown.length_le
  hello := sound.hello
  wait := fun wait waiting =>
    ⟨(sound.wait wait waiting).1.mono keysGrown, (sound.wait wait waiting).2⟩

theorem OutgoingSound.mono {outgoing : Remote.OutgoingStream} (keysGrown : keys <+: more)
    (callsGrown : calls <+: asked) (sound : OutgoingSound owner keys calls outgoing) :
    OutgoingSound owner more asked outgoing where
  handle := sound.handle.mono keysGrown
  peer := sound.peer
  requests := fun peer senders queued sender member =>
    getElem?_of_prefix callsGrown (sound.requests peer senders queued sender member)

theorem ResultSound.mono {sender : Nat} {result : RegistryResult} (keysGrown : keys <+: more)
    (callsGrown : calls <+: asked) (sound : ResultSound owner keys calls sender result) :
    ResultSound owner more asked sender result := by
  obtain ⟨peer, called, holds⟩ := sound
  exact ⟨peer, getElem?_of_prefix callsGrown called, holds.mono keysGrown⟩

/-- The streams opened for a registry or for the user are direct. -/
theorem DialSound.direct {purpose : Purpose} {machine : ConnectWithStrategies}
    (sound : DialSound owner keys calls purpose machine) (connection : Connection) :
    (connection.newStreamWithHello machine.helloMsg).identity.2 = false := by
  rcases sound.hello with same | ⟨peer, same⟩ <;> rw [same] <;> rfl

theorem DialSound.transition {purpose : Purpose} {machine next : ConnectWithStrategies}
    {answers : ConnectAnswers}
    (sound : DialSound owner keys calls purpose machine)
    (made : ∀ connection, answers.connection = .ready connection →
      ∃ number, connection.Authentic owner keys number)
    (moved : machine.step answers = .transition next) :
    DialSound owner keys calls purpose next := by
  obtain ⟨hello, waits⟩ := ConnectWithStrategies.step_transition moved
  refine ⟨sound.wanted, hello ▸ sound.hello, ?_⟩
  intro wait waiting
  rcases waits wait waiting with same | ⟨connection, ready, rfl⟩
  · exact sound.wait wait same
  · obtain ⟨number, authentic⟩ := made connection ready
    exact ⟨authentic.newStreamWithHello _, sound.direct connection⟩

/-- A request is answered from the client's own connection or waits with those for its peer. -/
theorem OutgoingSound.findPeerRequest {outgoing : Remote.OutgoingStream}
    (sound : OutgoingSound owner keys calls outgoing)
    {peer : PeerIdentifier} {sender : Nat} (called : calls[sender]? = some peer)
    (isCanceled : Bool) (send : SendPoll) :
    (∀ next, (outgoing.findPeerRequest peer sender isCanceled send).1 = .transition next →
      OutgoingSound owner keys calls next) ∧
    ∀ done ∈ (outgoing.findPeerRequest peer sender isCanceled send).2.completed,
      ResultSound owner keys calls done.1 done.2 := by
  have queue : ∀ senders, (∀ sender ∈ senders, calls[sender]? = some peer) →
      OutgoingSound owner keys calls { outgoing with
        requests := Function.update outgoing.requests peer (some senders) } := by
    intro senders asked
    refine { sound with requests := ?_ }
    intro other queued same
    by_cases own : other = peer
    · subst own
      simp only [Function.update_self, Option.some.injEq] at same
      exact same ▸ asked
    · simp only [Function.update_of_ne own] at same
      exact sound.requests other queued same
  unfold Remote.OutgoingStream.findPeerRequest
  split
  · exact ⟨fun next same => by cases same; exact sound, fun done member => by cases member⟩
  · split
    · rename_i own
      refine ⟨fun next same => by cases same; exact sound, ?_⟩
      intro done member
      rw [List.mem_singleton.mp member]
      exact ⟨peer, called, sound.handle, sound.peer.trans own.symm⟩
    · split
      · rename_i senders waiting
        refine ⟨fun next same => ?_, fun done member => by cases member⟩
        cases same
        exact queue _ (forall_mem_snoc (sound.requests peer senders waiting) called)
      · have first := queue [sender] (by simpa using called)
        dsimp only
        split
        · exact ⟨(fun next same => by cases same), fun done member => by cases member⟩
        · exact ⟨fun next same => by cases same; exact first, fun done member => by cases member⟩
        · exact ⟨fun next same => by cases same; exact first, fun done member => by cases member⟩

theorem OutgoingSound.answered {outgoing : Remote.OutgoingStream}
    (sound : OutgoingSound owner keys calls outgoing)
    (peer : PeerIdentifier) {result : RegistryResult} (holds : result.Sound owner keys peer) :
    OutgoingSound owner keys calls (outgoing.answered peer result).1 ∧
      ∀ done ∈ (outgoing.answered peer result).2.completed,
        ResultSound owner keys calls done.1 done.2 := by
  unfold Remote.OutgoingStream.answered
  split
  · exact ⟨sound, fun done member => by cases member⟩
  · rename_i senders waiting
    refine ⟨{ sound with requests := ?_ }, ?_⟩
    · intro other queued same
      by_cases own : other = peer
      · subst own
        simp only [Function.update_self, reduceCtorEq] at same
      · simp only [Function.update_of_ne own] at same
        exact sound.requests other queued same
    · intro done member
      obtain ⟨sender, asked, rfl⟩ := List.mem_map.mp member
      exact ⟨peer, sound.requests peer senders waiting sender asked, holds⟩

theorem OutgoingSound.message {outgoing : Remote.OutgoingStream}
    (sound : OutgoingSound owner keys calls outgoing) (message : RegistryProtocol) :
    OutgoingSound owner keys calls (outgoing.message message).1 ∧
      ∀ done ∈ (outgoing.message message).2.completed,
        ResultSound owner keys calls done.1 done.2 := by
  cases message with
  | found peer => exact sound.answered peer sound.handle
  | notFound peer => exact sound.answered peer trivial
  | find | ping | pong => exact ⟨sound, fun done member => by cases member⟩

end

section

variable {owner : PeerIdentifier} {s : Node}

/-- What is held stays sound while keys are only added. -/
theorem Inv.grow (inv : s.Inv owner) {connections : Connections} {keys : List PeerIdentifier}
    (localPeer : connections.localPeerIdentifier = s.connections.localPeerIdentifier)
    (table : connections.Inv) (lengths : keys.length = connections.connections.length)
    (connection : ∀ (number : Nat) (connection : Connection),
      connections.connections[number]? = some connection → connection.Authentic owner keys number)
    (grown : s.keys <+: keys) : Inv owner { s with connections := connections, keys := keys } := by
  have calls := List.prefix_refl s.calls
  exact {
    localPeer := localPeer.trans inv.localPeer
    table := table
    lengths := lengths
    connection := connection
    context := fun stream member => (inv.context stream member).mono grown
    streams := fun stream member => (inv.streams stream member).mono grown
    opening := fun future member => (inv.opening future member).mono grown
    connects := fun entry member => (inv.connects entry member).mono grown calls
    outgoing := fun outgoing found => (inv.outgoing outgoing found).mono grown calls
    results := fun entry member => (inv.results entry member).mono grown calls
    creates := fun call member stage found => (inv.creates call member stage found).mono grown
    resolved := fun call member => (inv.resolved call member).mono grown
    remotes := inv.remotes }

theorem newConnection_cases (s : Node) (id : ConnectionId) :
    (∃ reason, s.newConnection id =
      (.error reason, { s with connections := s.connections.refused id, keys := s.keys })) ∨
    ∃ key, s.newConnection id = (.ok (s.connections.created id key),
      { s with connections := s.connections.opened id key, keys := s.keys ++ [key] }) := by
  rcases s.connections.newConnection_cases id with ⟨stored, same⟩ | ⟨key, stored, same⟩
  · refine Or.inl ⟨.custom "Could not find public key for connection!", ?_⟩
    simp only [newConnection, Authenticator.incomingConPubKey, stored, same, Option.toList_none,
      List.append_nil]
  · refine Or.inr ⟨key, ?_⟩
    simp only [newConnection, Authenticator.incomingConPubKey, stored, same, Option.toList_some]

theorem newConnection_inv (inv : s.Inv owner) (id : ConnectionId) :
    (s.newConnection id).2.Inv owner ∧ ∀ connection, (s.newConnection id).1 = .ok connection →
      ∃ number, connection.Authentic owner (s.newConnection id).2.keys number := by
  rcases s.newConnection_cases id with ⟨reason, same⟩ | ⟨key, same⟩
  · rw [same]
    refine ⟨inv.grow rfl ?_ inv.lengths inv.connection (List.prefix_refl _), ?_⟩
    · exact inv.table.of_same rfl rfl rfl
    · intro connection created
      cases created
  · rw [same]
    have grown : s.keys <+: s.keys ++ [key] := List.prefix_append _ _
    have authentic : (s.connections.created id key).Authentic owner (s.keys ++ [key])
        s.connections.connections.length := by
      refine ⟨rfl, rfl, rfl, rfl, inv.localPeer, ?_⟩
      rw [← inv.lengths, List.getElem?_concat_length]
      rfl
    refine ⟨inv.grow rfl (Connections.opened_inv inv.table id key) ?_ ?_ grown, ?_⟩
    · simp only [Connections.opened_connections, List.length_append, List.length_singleton,
        inv.lengths]
    · intro number connection found
      rcases Connections.getElem?_snoc found with old | ⟨rfl, rfl⟩
      · exact (inv.connection number connection old).mono grown
      · exact authentic
    · intro connection created
      cases created
      exact ⟨_, authentic⟩

theorem pollNewConnection_inv (inv : s.Inv owner) (transport : Poll ConnectionId) :
    (s.pollNewConnection transport).2.Inv owner ∧
      ∀ connection, (s.pollNewConnection transport).1 = .ready connection →
        ∃ number, connection.Authentic owner (s.pollNewConnection transport).2.keys number := by
  unfold pollNewConnection
  split
  · exact ⟨inv, fun connection ready => by cases ready⟩
  · exact ⟨inv, fun connection ready => by cases ready⟩
  · rename_i id
    obtain ⟨next, authentic⟩ := newConnection_inv inv id
    dsimp only
    split
    · rename_i connection made
      refine ⟨next, ?_⟩
      intro given ready
      cases ready
      exact authentic connection made
    · exact ⟨next, fun connection ready => by cases ready⟩

/-- The registry names each peer by the key of the connection it holds for it. -/
theorem registry_key (inv : s.Inv owner) {peer : PeerIdentifier} {handle : NewStreamHandle}
    (found : s.connections.registry.peer peer = some handle) :
    s.keys[handle.newStreamHandle.con]? = some peer ∧ handle.peerIdentifier = peer ∧
      handle.localPeerIdentifier = owner := by
  obtain ⟨⟨given, token⟩, entry, rfl⟩ := Option.map_eq_some_iff.mp found
  obtain ⟨number, connection, held⟩ := inv.table.entry peer given token entry
  have authentic := inv.connection number connection held.live.1
  rw [← held.newStreamHandle, ← held.peerIdentifier]
  refine ⟨?_, authentic.handlePeer, authentic.localPeer⟩
  rw [authentic.handleCon]
  exact authentic.key

theorem registry_authentic (inv : s.Inv owner) {peer : PeerIdentifier} {handle : NewStreamHandle}
    (found : s.connections.registry.peer peer = some handle) :
    handle.Authentic owner s.keys ∧ handle.peerIdentifier = peer := by
  obtain ⟨key, named, localPeer⟩ := registry_key inv found
  exact ⟨⟨localPeer, fun _ => named ▸ key⟩, named⟩

theorem incomingStream_inv (inv : s.Inv owner) (number : Nat) (timeout : TimeoutPoll)
    (message : Poll (Option StreamHello)) :
    (s.incomingStream number timeout message).Inv owner := by
  unfold incomingStream
  split
  · exact inv
  · rename_i connection found
    have authentic := inv.connection number connection found
    split
    · rename_i stream passed
      exact { inv with context := forall_mem_snoc inv.context (authentic.passStream passed) }
    · rename_i remote spawned
      refine { inv with remotes := forall_mem_snoc inv.remotes ?_ }
      exact authentic.remote spawned
    · exact inv

theorem remote_inv (inv : s.Inv owner) (index : Nat)
    (message : Poll (Option BuildConnectionToPeerProtocol)) (sent : SendPoll)
    (interfaces : List IpAddr) (localAddr : SocketAddr) :
    (s.remote index message sent interfaces localAddr).Inv owner := by
  unfold remote
  split
  · exact inv
  · rename_i remote found
    have sound := inv.remotes remote (List.mem_of_getElem? found)
    have passed : Inv owner { s with context := s.context ++
        (remote.step message sent interfaces localAddr).2.passed.toList } := by
      refine { inv with context := ?_ }
      intro stream member
      rcases List.mem_append.mp member with old | new
      · exact inv.context stream old
      · exact sound.passed (Option.mem_toList.mp new)
    dsimp only
    split
    · exact passed
    · rename_i next moved
      exact { passed with remotes := forall_mem_set inv.remotes (sound.transition moved) }
    · exact { passed with remotes := forall_mem_eraseIdx inv.remotes }

/-- Any handle the peer can take up for a new stream is authentic. -/
theorem source_authentic (inv : s.Inv owner) (from_ : Source) (handle : NewStreamHandle)
    (found : s.source from_ = some handle) : handle.Authentic owner s.keys := by
  cases from_ with
  | context index =>
      obtain ⟨stream, held, rfl⟩ := Option.map_eq_some_iff.mp found
      exact (inv.context stream (List.mem_of_getElem? held)).handle
  | stream index =>
      obtain ⟨stream, held, rfl⟩ := Option.map_eq_some_iff.mp found
      exact (inv.streams stream (List.mem_of_getElem? held)).handle
  | registry peer =>
      exact (registry_authentic inv found).1

theorem newStream_inv (inv : s.Inv owner) (from_ : Source) : (s.newStream from_).Inv owner := by
  unfold newStream
  split
  · exact inv
  · rename_i handle found
    have authentic := source_authentic inv from_ handle found
    exact { inv with opening := forall_mem_snoc inv.opening authentic.newStream }

theorem pollNewStream_inv (inv : s.Inv owner) (index : Nat) (opened flushed : Poll Unit) :
    (s.pollNewStream index opened flushed).Inv owner := by
  unfold pollNewStream
  split
  · exact inv
  · rename_i future found
    have authentic := inv.opening future (List.mem_of_getElem? found)
    split
    · exact inv
    · rename_i stream polled
      rw [NewStreamFuture.poll_ready polled]
      exact { inv with
        opening := forall_mem_eraseIdx inv.opening
        streams := forall_mem_snoc inv.streams authentic.stream }
    · exact { inv with opening := forall_mem_eraseIdx inv.opening }

theorem connect_inv (inv : s.Inv owner) (purpose : Purpose) (strategies : Nat) (addr : SocketAddr) :
    (s.connect purpose strategies addr).Inv owner := by
  unfold connect
  split
  · rename_i machine asked made
    refine { inv with connects := forall_mem_snoc inv.connects ?_ }
    cases strategies with
    | zero => cases made
    | succ left =>
        cases made
        refine ⟨?_, ?_, fun wait waiting => by cases waiting⟩
        · intro create same
          subst same
          simpa [wanted, calls] using asked
        · cases purpose with
          | remoteRegistry => exact Or.inl rfl
          | fulfillRequest create => exact Or.inr ⟨s.localPeerIdentifier, rfl⟩
  · exact inv

theorem connected_inv (inv : s.Inv owner) {purpose : Purpose} {stream : Stream}
    (wanted : ∀ create, purpose = .fulfillRequest create → create < s.calls.length)
    (authentic : stream.Authentic owner s.keys) (direct : stream.isProxyStream = false) :
    (s.connected purpose stream).Inv owner := by
  have held : Inv owner { s with streams := s.streams ++ [stream] } :=
    { inv with streams := forall_mem_snoc inv.streams authentic }
  cases purpose with
  | remoteRegistry =>
      refine { held with outgoing := ?_ }
      intro outgoing made
      cases made
      exact ⟨authentic.handle, authentic.handlePeer, fun peer senders queued => by cases queued⟩
  | fulfillRequest create =>
      refine { held with results := forall_mem_snoc inv.results ?_ }
      exact ⟨_, List.getElem?_eq_getElem (wanted create rfl), authentic, direct⟩

/-- Polling the transport can only add a connection with its key. -/
theorem pollNewConnection_same (s : Node) (transport : Poll ConnectionId) :
    (s.pollNewConnection transport).2.connects = s.connects ∧
      (s.pollNewConnection transport).2.creates = s.creates ∧
      s.keys <+: (s.pollNewConnection transport).2.keys := by
  unfold pollNewConnection newConnection
  split
  · exact ⟨rfl, rfl, List.prefix_refl _⟩
  · exact ⟨rfl, rfl, List.prefix_refl _⟩
  · dsimp only
    split <;> exact ⟨rfl, rfl, List.prefix_append _ _⟩

theorem pollConnect_inv (inv : s.Inv owner) (index : Nat) (timeout : TimeoutPoll)
    (transport : Poll ConnectionId) (opened flushed : Poll Unit) :
    (s.pollConnect index timeout transport opened flushed).Inv owner := by
  unfold pollConnect
  split
  · exact inv
  · rename_i purpose machine found
    generalize polled : (if machine.connect = some .waitForConnection ∧ timeout = .notReady then
      s.pollNewConnection transport else (.notReady, s)) = result
    have next : result.2.Inv owner ∧ result.2.connects = s.connects ∧
        ∀ connection, result.1 = .ready connection →
          ∃ number, connection.Authentic owner result.2.keys number := by
      rw [← polled]
      split
      · obtain ⟨kept, authentic⟩ := pollNewConnection_inv inv transport
        exact ⟨kept, (pollNewConnection_same s transport).1, authentic⟩
      · exact ⟨inv, rfl, fun connection ready => by cases ready⟩
    obtain ⟨kept, same, made⟩ := next
    have sound := kept.connects (purpose, machine) (same ▸ List.mem_of_getElem? found)
    dsimp only
    split
    · exact kept
    · rename_i following moved
      exact { kept with connects := forall_mem_set kept.connects (sound.transition made moved) }
    · rename_i stream done
      obtain ⟨wait, waiting, rfl⟩ := ConnectWithStrategies.step_ready done
      obtain ⟨authentic, direct⟩ := sound.wait wait waiting
      have erased : Inv owner { result.2 with connects := result.2.connects.eraseIdx index } :=
        { kept with connects := forall_mem_eraseIdx kept.connects }
      exact connected_inv erased sound.wanted authentic.stream direct
    · exact { kept with connects := forall_mem_eraseIdx kept.connects }

theorem completedBy_inv (inv : s.Inv owner) {effect : Remote.OutgoingStream.Effect}
    (sound : ∀ done ∈ effect.completed, ResultSound owner s.keys s.calls done.1 done.2) :
    (s.completedBy effect).Inv owner := by
  refine { inv with results := ?_ }
  intro entry member
  rcases List.mem_append.mp member with old | new
  · exact inv.results entry old
  · obtain ⟨done, completed, rfl⟩ := List.mem_map.mp new
    exact sound done completed

theorem findPeerRequest_inv (inv : s.Inv owner) (create : Nat) (isCanceled : Bool)
    (sent : SendPoll) : (s.findPeerRequest create isCanceled sent).Inv owner := by
  unfold findPeerRequest
  split
  · rename_i outgoing call connected found
    have called : s.calls[create]? = some call.peer := by
      simp only [calls, List.getElem?_map, found, Option.map_some]
    obtain ⟨following, completed⟩ :=
      (inv.outgoing outgoing connected).findPeerRequest called isCanceled sent
    split
    · rename_i next effect same
      rw [same] at following completed
      have kept : Inv owner { s with outgoing := some next } := by
        refine { inv with outgoing := ?_ }
        intro given held
        cases held
        exact following next rfl
      exact completedBy_inv kept completed
    · rename_i effect _ same
      rw [same] at completed
      have kept : Inv owner { s with outgoing := none } :=
        { inv with outgoing := fun given held => by cases held }
      exact completedBy_inv kept completed
  · exact inv

theorem registryMessage_inv (inv : s.Inv owner) (message : RegistryProtocol) :
    (s.registryMessage message).Inv owner := by
  unfold registryMessage
  split
  · exact inv
  · rename_i outgoing connected
    obtain ⟨next, completed⟩ := (inv.outgoing outgoing connected).message message
    have kept : Inv owner { s with outgoing := some (outgoing.message message).1 } := by
      refine { inv with outgoing := ?_ }
      intro given held
      cases held
      exact next
    exact completedBy_inv kept completed

theorem create_inv (inv : s.Inv owner) (peer : PeerIdentifier) : (s.create peer).Inv owner := by
  have keys := List.prefix_refl s.keys
  have grown : s.calls <+: (s.create peer).calls := by
    simp only [calls, create, List.map_append]
    exact List.prefix_append _ _
  refine { inv with connects := ?_, outgoing := ?_, results := ?_, creates := ?_ }
  · exact fun entry member => (inv.connects entry member).mono keys grown
  · exact fun outgoing found => (inv.outgoing outgoing found).mono keys grown
  · exact fun entry member => (inv.results entry member).mono keys grown
  · apply forall_mem_snoc inv.creates
    intro stage same
    cases same
    unfold CreateConnectionToPeer.new Registry.findPeer
    split
    · rename_i handle token entry
      apply registry_authentic inv
      simp only [Registry.peer, entry, Option.map_some]
    · trivial

theorem providerAnswer_sound (inv : s.Inv owner) {index : Nat} {call : Create}
    (found : s.creates[index]? = some call) {stage : CreateConnectionToPeer}
    {completion : Option (Nat × Option Nat)} {future : Nat} {result : RegistryResult}
    (answer : s.providerAnswer index stage completion = some (future, .ok result)) :
    result.Sound owner s.keys call.peer := by
  unfold providerAnswer at answer
  split at answer
  · cases answer
  · split at answer
    · rename_i sender provider given asked delivered held
      split at answer
      · rename_i same
        cases answer
        obtain ⟨peer, called, sound⟩ := inv.results _ (List.mem_of_getElem? delivered)
        have own : s.calls[index]? = some call.peer := by
          simp only [calls, List.getElem?_map, found, Option.map_some]
        rw [same.1, own] at called
        cases called
        exact sound
      · cases answer
    · cases answer
  · cases answer

theorem pollAttempt_inv (inv : s.Inv owner) (stage : CreateConnectionToPeer) (timeout : TimeoutPoll)
    (attempt : Option (Nat × Poll ConnectionId)) :
    (s.pollAttempt stage timeout attempt).2.Inv owner ∧
      (s.pollAttempt stage timeout attempt).2.creates = s.creates ∧
      s.keys <+: (s.pollAttempt stage timeout attempt).2.keys ∧
      ∀ index connection, (s.pollAttempt stage timeout attempt).1 = some (index, .ok connection) →
        ∃ number,
          connection.Authentic owner (s.pollAttempt stage timeout attempt).2.keys number := by
  unfold pollAttempt
  split
  · rename_i transport
    split
    · obtain ⟨kept, authentic⟩ := pollNewConnection_inv inv transport
      obtain ⟨_, same, grown⟩ := pollNewConnection_same s transport
      dsimp only
      split
      · exact ⟨kept, same, grown, fun index connection done => by cases done⟩
      · rename_i made ready
        refine ⟨kept, same, grown, ?_⟩
        intro index connection done
        cases done
        exact authentic made ready
      · exact ⟨kept, same, grown, fun index connection done => by cases done⟩
    · exact ⟨inv, rfl, List.prefix_refl _, fun index connection done => by cases done⟩
  · exact ⟨inv, rfl, List.prefix_refl _, fun index connection done => by cases done⟩

/-- A call keeps the peer it asked for while its stage changes. -/
theorem Inv.setCreate (inv : s.Inv owner) {index : Nat} {peer : PeerIdentifier}
    {stage next : Option CreateConnectionToPeer} (found : s.creates[index]? = some ⟨peer, stage⟩)
    (sound : ∀ stage, next = some stage → stage.Sound owner s.keys peer) :
    Inv owner { s with creates := s.creates.set index ⟨peer, next⟩ } := by
  have bound : index < s.creates.length := (List.getElem?_eq_some_iff.mp found).1
  have same : calls { s with creates := s.creates.set index ⟨peer, next⟩ } = s.calls := by
    apply List.ext_getElem?
    intro other
    by_cases own : index = other
    · subst own
      simp only [calls, List.getElem?_map, List.getElem?_set_self bound, found, Option.map_some]
    · simp only [calls, List.getElem?_map, List.getElem?_set_ne own]
  refine { inv with connects := ?_, outgoing := ?_, results := ?_, creates := ?_ }
  · rw [same]
    exact inv.connects
  · rw [same]
    exact inv.outgoing
  · rw [same]
    exact inv.results
  · exact forall_mem_set inv.creates sound

theorem pollCreate_inv (inv : s.Inv owner) (index : Nat) (completion : Option (Nat × Option Nat))
    (attempt : Option (Nat × Poll ConnectionId)) (opened flushed : Poll Unit)
    (message : Poll (Option BuildConnectionToPeerProtocol)) (sent : SendPoll)
    (timeout : TimeoutPoll) (interfaces : List IpAddr) (localAddr : SocketAddr) :
    (s.pollCreate index completion attempt opened flushed message sent timeout interfaces
      localAddr).Inv owner := by
  unfold pollCreate
  split
  · rename_i peer stage found
    obtain ⟨kept, same, grown, made⟩ := pollAttempt_inv inv stage timeout attempt
    have sound := (inv.creates _ (List.mem_of_getElem? found) stage rfl).mono grown
    have answer : ∀ future result,
        s.providerAnswer index stage completion = some (future, .ok result) →
          result.Sound owner (s.pollAttempt stage timeout attempt).2.keys peer :=
      fun future result given => (providerAnswer_sound inv found given).mono grown
    rw [← same] at found
    dsimp only
    split
    · exact kept
    · rename_i next moved
      refine kept.setCreate found ?_
      intro given held
      cases held
      exact CreateConnectionToPeer.step_transition sound answer made moved
    · rename_i stream done
      have resolved := CreateConnectionToPeer.step_ready sound answer done
      have closed : Inv owner { (s.pollAttempt stage timeout attempt).2 with
          creates := (s.pollAttempt stage timeout attempt).2.creates.set index ⟨peer, none⟩ } :=
        kept.setCreate found (fun given held => by cases held)
      exact { closed with
        streams := forall_mem_snoc kept.streams resolved.authentic
        resolved := forall_mem_snoc kept.resolved resolved }
    · exact kept.setCreate found (fun given held => by cases held)
  · exact inv

theorem step_inv (inv : s.Inv owner) (event : Event) : (s.step event).Inv owner := by
  cases event with
  | verify handshake =>
      exact inv.grow rfl (inv.table.of_same rfl rfl rfl) inv.lengths inv.connection
        (List.prefix_refl _)
  | accept id => exact (newConnection_inv inv id).1
  | terminate number =>
      have same := s.connections.terminate_connections number
      refine inv.grow ?_ (Connections.terminate_inv inv.table number) ?_ ?_ (List.prefix_refl _)
      · exact s.connections.terminate_localPeerIdentifier number
      · rw [same]
        exact inv.lengths
      · rw [same]
        exact inv.connection
  | incomingStream number timeout message => exact incomingStream_inv inv number timeout message
  | remote index message sent interfaces localAddr =>
      exact remote_inv inv index message sent interfaces localAddr
  | newStream from_ => exact newStream_inv inv from_
  | pollNewStream index opened flushed => exact pollNewStream_inv inv index opened flushed
  | connect purpose strategies addr => exact connect_inv inv purpose strategies addr
  | pollConnect index timeout transport opened flushed =>
      exact pollConnect_inv inv index timeout transport opened flushed
  | findPeerRequest create isCanceled sent => exact findPeerRequest_inv inv create isCanceled sent
  | registryMessage message => exact registryMessage_inv inv message
  | disconnect => exact { inv with outgoing := fun outgoing found => by cases found }
  | create peer => exact create_inv inv peer
  | pollCreate index completion attempt opened flushed message sent timeout interfaces localAddr =>
      exact pollCreate_inv inv index completion attempt opened flushed message sent timeout
        interfaces localAddr

end

theorem run_inv (localPeerIdentifier : PeerIdentifier) (authenticator : Authenticator)
    (registries : List RegistryProvider) (events : List Event) :
    (Transition.run step (init localPeerIdentifier authenticator registries) events).Inv
      localPeerIdentifier :=
  Transition.run_invariant (Inv localPeerIdentifier) (fun _ event inv => step_inv inv event)
    (init_inv localPeerIdentifier authenticator registries) events

/-- Whatever the remote peers send, a stream that claims to be direct names the peer whose key
the authenticator returned for its connection, and so does its handle. The streams opened on
handles of other streams, in chains of any length, are among those of the peer. -/
theorem p2p_streams_authentic (localPeerIdentifier : PeerIdentifier)
    (authenticator : Authenticator) (registries : List RegistryProvider) (events : List Event) :
    let s := Transition.run step (init localPeerIdentifier authenticator registries) events
    ∀ stream ∈ s.context ++ s.streams, stream.isP2p = true →
      s.keys[stream.stream.con]? = some stream.peerIdentifier ∧
        stream.newStreamHandle.peerIdentifier = stream.peerIdentifier ∧
        stream.newStreamHandle.proxyStream = false := by
  intro s stream held isP2p
  have inv : s.Inv _ := run_inv localPeerIdentifier authenticator registries events
  have authentic : stream.Authentic localPeerIdentifier s.keys := by
    rcases List.mem_append.mp held with passed | opened
    · exact inv.context stream passed
    · exact inv.streams stream opened
  have direct := stream.isP2p_iff.mp isP2p
  exact ⟨authentic.direct direct, authentic.handlePeer, authentic.handleProxy.trans direct⟩

open Connections (alice bob handshake)

/-- Bob connects and opens a user stream, on whose handle a stream back to him is opened. -/
def answeredStream : List Event :=
  [.verify (handshake 1 bob), .accept 1, .incomingStream 0 .notReady (.ready (some (.user bob))),
    .newStream (.context 0), .pollNewStream 0 (.ready ()) (.ready ())]

theorem p2p_streams_authentic_answeredStream :
    let s := Transition.run step (init alice (Authenticator.new false false) []) answeredStream
    let stream := Stream.new ⟨0⟩ bob (NewStreamHandle.new bob alice ⟨0⟩) false
    s.context = [stream] ∧ s.streams = [stream] ∧ s.keys[0]? = some bob := by
  intro s stream
  have passed : s.context = [stream] := by decide
  have opened : s.streams = [stream] := by decide
  have held : stream ∈ s.context ++ s.streams := by
    rw [passed]
    exact List.mem_cons_self
  have authentic := p2p_streams_authentic alice (Authenticator.new false false) [] answeredStream
    stream held rfl
  exact ⟨passed, opened, authentic.1⟩

/-- A call returns a stream to the peer it asked for exactly when that peer has answered the
connection that was made for the call, if the stream was opened on one. -/
theorem resolved_peer_iff (localPeerIdentifier : PeerIdentifier) (authenticator : Authenticator)
    (registries : List RegistryProvider) (events : List Event) :
    let s := Transition.run step (init localPeerIdentifier authenticator registries) events
    ∀ call ∈ s.resolved, call.stream.peerIdentifier = call.peer ↔
      ∀ con, call.dialled = some con → s.keys[con]? = some call.peer := by
  intro s call member
  have inv : s.Inv _ := run_inv localPeerIdentifier authenticator registries events
  have sound := inv.resolved call member
  constructor
  · intro same con dialled
    rw [← same]
    exact sound.answered con dialled
  · intro answered
    cases dialled : call.dialled with
    | none => exact sound.searched dialled
    | some con =>
        have given := sound.answered con dialled
        rw [answered con dialled] at given
        exact (Option.some.inj given).symm

/-- A call asks for bob, and the address that mDNS has found for him is answered with `key`. -/
def answeredBy (key : PeerIdentifier) : List Event :=
  [.create bob, .connect (.fulfillRequest 0) 1 ⟨.v4 0, 22222⟩,
    .pollConnect 0 .notReady .notReady .notReady .notReady,
    .verify ⟨1, .outgoing, .ok true, .ok key⟩,
    .pollConnect 0 .notReady (.ready 1) .notReady .notReady,
    .pollConnect 0 .notReady .notReady (.ready ()) (.ready ()),
    .pollCreate 0 (some (0, some 0)) none .notReady .notReady .notReady .accepted .notReady []
      ⟨.v4 0, 11111⟩]

/-- The call that has resolved after such a run. -/
def answeredCall (key : PeerIdentifier) : Resolved :=
  ⟨bob, Stream.new ⟨0⟩ key (NewStreamHandle.new key alice ⟨0⟩) false, some 0⟩

theorem resolved_peer_iff_answeredBy :
    let s := Transition.run step
      (init alice (Authenticator.new false false) [.mdnsRegistry]) (answeredBy bob)
    answeredCall bob ∈ s.resolved ∧ (answeredCall bob).stream.peerIdentifier = bob := by
  intro s
  have resolved : answeredCall bob ∈ s.resolved := by decide
  have exactly := resolved_peer_iff alice (Authenticator.new false false) [.mdnsRegistry]
    (answeredBy bob) (answeredCall bob) resolved
  refine ⟨resolved, exactly.mpr ?_⟩
  intro con dialled
  cases dialled
  decide

def carol : PeerIdentifier := .ofByte 3

/-- Carol answers at the address, and the call for bob returns a stream to her. -/
theorem answeredBy_other :
    ∃ call ∈ (Transition.run step
        (init alice (Authenticator.new false false) [.mdnsRegistry]) (answeredBy carol)).resolved,
      call.peer = bob ∧ call.stream.peerIdentifier = carol ∧
        call.stream.peerIdentifier ≠ call.peer :=
  ⟨answeredCall carol, by decide, by decide, by decide, by decide⟩

end HolePunch.Node
