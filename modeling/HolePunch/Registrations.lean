import HolePunch.Library.Transition
import HolePunch.Connection
import HolePunch.Registries.Remote

set_option autoImplicit false

/- Runs of one peer's connections: handshakes, `Connection::new` and terminations in any order,
and what the registration tokens do and do not keep apart. -/
namespace HolePunch.Connections

inductive Event where
  | verify (handshake : Handshake)
  | new (id : ConnectionId)
  | terminate (number : Nat)

def step (s : Connections) : Event → Connections
  | .verify handshake => s.verify handshake
  | .new id => (s.newConnection id).2
  | .terminate number => s.terminate number

/-- The connection has been created and has not terminated. -/
def Live (s : Connections) (number : Nat) (connection : Connection) : Prop :=
  s.connections[number]? = some connection ∧ number ∉ s.terminated

/-- A connection to the same peer has been registered later. -/
def Superseded (s : Connections) (number : Nat) : Prop :=
  ∃ connection later next, s.connections[number]? = some connection ∧ number < later ∧
    s.connections[later]? = some next ∧ next.peerIdentifier = connection.peerIdentifier

theorem terminate_cases (s : Connections) (number : Nat) :
    (s.terminate number = s ∧ ∀ connection, ¬ s.Live number connection) ∨
    ∃ connection, s.Live number connection ∧
      s.terminate number = { s with
        registry := s.registry.unregisterPeer connection.peerIdentifier
          connection.registrationToken
        terminated := number :: s.terminated } := by
  cases found : s.connections[number]? with
  | none =>
      refine Or.inl ⟨by simp only [terminate, found], ?_⟩
      intro connection live
      rw [live.1] at found
      cases found
  | some connection =>
      by_cases ended : number ∈ s.terminated
      · exact Or.inl ⟨by simp only [terminate, found, ended, ↓reduceIte],
          fun _ live => live.2 ended⟩
      · refine Or.inr ⟨connection, ⟨found, ended⟩, ?_⟩
        simp only [terminate, found, ended, ↓reduceIte]

@[simp] theorem terminate_connections (s : Connections) (number : Nat) :
    (s.terminate number).connections = s.connections := by
  rcases s.terminate_cases number with ⟨same, _⟩ | ⟨connection, _, same⟩ <;> rw [same]

@[simp] theorem terminate_localPeerIdentifier (s : Connections) (number : Nat) :
    (s.terminate number).localPeerIdentifier = s.localPeerIdentifier := by
  rcases s.terminate_cases number with ⟨same, _⟩ | ⟨connection, _, same⟩ <;> rw [same]

theorem terminate_live {s : Connections} {number : Nat} {connection : Connection}
    (live : s.Live number connection) :
    s.terminate number = { s with
      registry := s.registry.unregisterPeer connection.peerIdentifier
        connection.registrationToken
      terminated := number :: s.terminated } := by
  simp only [terminate, live.1, live.2, ↓reduceIte]

theorem getElem?_snoc {α : Type} {list : List α} {last value : α} {index : Nat}
    (found : (list ++ [last])[index]? = some value) :
    list[index]? = some value ∨ (index = list.length ∧ value = last) := by
  rcases Nat.lt_trichotomy index list.length with before | here | after
  · rw [List.getElem?_append_left before] at found
    exact Or.inl found
  · subst here
    rw [List.getElem?_concat_length] at found
    exact Or.inr ⟨rfl, (Option.some.inj found).symm⟩
  · rw [List.getElem?_eq_none (by simp only [List.length_append, List.length_singleton]; omega)]
      at found
    cases found

theorem getElem?_snoc_of {α : Type} {list : List α} {value : α} {index : Nat} (last : α)
    (found : list[index]? = some value) : (list ++ [last])[index]? = some value := by
  obtain ⟨bound, _⟩ := List.getElem?_eq_some_iff.mp found
  rw [List.getElem?_append_left bound, found]

/-- An entry of the registry belongs to the connection registered last for its peer, and that
connection is live. -/
structure Owner (s : Connections) (peer : PeerIdentifier) (handle : NewStreamHandle)
    (token : RegistrationToken) (number : Nat) (connection : Connection) : Prop where
  live : s.Live number connection
  peerIdentifier : connection.peerIdentifier = peer
  newStreamHandle : connection.newStreamHandle = handle
  registrationToken : connection.registrationToken = token
  latest : ¬ s.Superseded number

structure Inv (s : Connections) : Prop where
  terminated : ∀ number ∈ s.terminated, number < s.connections.length
  entry : ∀ peer handle token, s.registry.connectedPeers peer = some (handle, token) →
    ∃ number connection, s.Owner peer handle token number connection

theorem init_inv (localPeerIdentifier : PeerIdentifier) (authenticator : Authenticator)
    (registries : List RegistryProvider) :
    (init localPeerIdentifier authenticator registries).Inv := by
  refine ⟨?_, ?_⟩
  · intro number member
    cases member
  · intro peer handle token present
    cases present

/-- A created connection is behind those the list already held, and ahead of none. -/
theorem created_not_superseded (s : Connections) (last : Connection) (s' : Connections)
    (grown : s'.connections = s.connections ++ [last]) :
    ¬ s'.Superseded s.connections.length := by
  rintro ⟨connection, later, next, _, after, found, _⟩
  rw [grown, List.getElem?_eq_none (by
    simp only [List.length_append, List.length_singleton]; omega)] at found
  cases found

theorem superseded_snoc {s s' : Connections} {last connection : Connection} {number : Nat}
    (grown : s'.connections = s.connections ++ [last])
    (found : s.connections[number]? = some connection) :
    s'.Superseded number ↔
      s.Superseded number ∨ last.peerIdentifier = connection.peerIdentifier := by
  obtain ⟨bound, _⟩ := List.getElem?_eq_some_iff.mp found
  constructor
  · rintro ⟨own, later, next, ownFound, after, nextFound, same⟩
    rw [grown, List.getElem?_append_left bound, found] at ownFound
    cases ownFound
    rw [grown] at nextFound
    rcases getElem?_snoc nextFound with old | ⟨_, rfl⟩
    · exact Or.inl ⟨_, later, next, found, after, old, same⟩
    · exact Or.inr same
  · rintro (⟨own, later, next, ownFound, after, nextFound, same⟩ | same)
    · refine ⟨own, later, next, ?_, after, ?_, same⟩
      · rw [grown]; exact getElem?_snoc_of last ownFound
      · rw [grown]; exact getElem?_snoc_of last nextFound
    · refine ⟨connection, s.connections.length, last, ?_, bound, ?_, same⟩
      · rw [grown]; exact getElem?_snoc_of last found
      · rw [grown, List.getElem?_concat_length]

theorem Inv.of_same {s s' : Connections} (inv : s.Inv)
    (peers : s'.registry.connectedPeers = s.registry.connectedPeers)
    (connections : s'.connections = s.connections) (terminated : s'.terminated = s.terminated) :
    s'.Inv := by
  refine ⟨?_, ?_⟩
  · rw [connections, terminated]
    exact inv.terminated
  · intro peer handle token present
    rw [peers] at present
    obtain ⟨number, connection, owner⟩ := inv.entry peer handle token present
    refine ⟨number, connection, ?_, owner.peerIdentifier, owner.newStreamHandle,
      owner.registrationToken, ?_⟩
    · simpa only [Live, connections, terminated] using owner.live
    · simpa only [Superseded, connections] using owner.latest

theorem opened_inv {s : Connections} (inv : s.Inv) (id : ConnectionId) (key : PeerIdentifier) :
    (s.opened id key).Inv := by
  refine ⟨?_, ?_⟩
  · intro number member
    have bound := inv.terminated number member
    simp only [opened_connections, List.length_append, List.length_singleton]
    omega
  · intro peer handle token present
    by_cases own : peer = key
    · subst own
      rw [opened_entry] at present
      cases present
      refine ⟨s.connections.length, s.created id peer, ⟨?_, ?_⟩, rfl, rfl, rfl, ?_⟩
      · exact List.getElem?_concat_length
      · intro member
        exact Nat.lt_irrefl _ (inv.terminated _ member)
      · exact created_not_superseded s _ _ rfl
    · rw [opened_other s id own] at present
      obtain ⟨number, connection, owner⟩ := inv.entry peer handle token present
      refine ⟨number, connection, ⟨getElem?_snoc_of _ owner.live.1, owner.live.2⟩,
        owner.peerIdentifier, owner.newStreamHandle, owner.registrationToken, ?_⟩
      rw [superseded_snoc rfl owner.live.1]
      rintro (before | sameKey)
      · exact owner.latest before
      · exact own (owner.peerIdentifier.symm.trans sameKey.symm)

theorem newConnection_inv {s : Connections} (inv : s.Inv) (id : ConnectionId) :
    (s.newConnection id).2.Inv := by
  rcases s.newConnection_cases id with ⟨_, same⟩ | ⟨key, _, same⟩
  · rw [same]
    exact inv.of_same rfl rfl rfl
  · rw [same]
    exact opened_inv inv id key

theorem terminate_inv {s : Connections} (inv : s.Inv) (number : Nat) :
    (s.terminate number).Inv := by
  rcases s.terminate_cases number with ⟨same, _⟩ | ⟨connection, live, same⟩
  · rw [same]
    exact inv
  · rw [same]
    refine ⟨?_, ?_⟩
    · intro other member
      rcases List.mem_cons.mp member with rfl | member
      · obtain ⟨bound, _⟩ := List.getElem?_eq_some_iff.mp live.1
        exact bound
      · exact inv.terminated other member
    · intro peer handle token present
      -- The entry that survives is not the one the ending connection owned.
      have kept : s.registry.connectedPeers peer = some (handle, token) ∧
          (peer = connection.peerIdentifier → token ≠ connection.registrationToken) := by
        by_cases own : peer = connection.peerIdentifier
        · subst own
          by_cases owned : ∃ h, s.registry.connectedPeers connection.peerIdentifier =
              some (h, connection.registrationToken)
          · obtain ⟨h, owned⟩ := owned
            rw [Registry.unregisterPeer_match owned] at present
            simp only [Function.update_self] at present
            cases present
          · rw [Registry.unregisterPeer_mismatch (fun h eq => owned ⟨h, eq⟩)] at present
            refine ⟨present, fun _ sameToken => owned ⟨handle, ?_⟩⟩
            rw [present, sameToken]
        · rw [Registry.unregisterPeer_other _ _ own] at present
          exact ⟨present, fun eq => absurd eq own⟩
      obtain ⟨other, owning, owner⟩ := inv.entry peer handle token kept.1
      refine ⟨other, owning, ⟨owner.live.1, ?_⟩, owner.peerIdentifier, owner.newStreamHandle,
        owner.registrationToken, owner.latest⟩
      intro member
      rcases List.mem_cons.mp member with rfl | member
      · have same := live.1.symm.trans owner.live.1
        cases same
        exact kept.2 owner.peerIdentifier.symm owner.registrationToken.symm
      · exact owner.live.2 member

theorem step_inv (s : Connections) (event : Event) (inv : s.Inv) : (s.step event).Inv := by
  cases event with
  | verify handshake => exact inv.of_same rfl rfl rfl
  | new id => exact newConnection_inv inv id
  | terminate number => exact terminate_inv inv number

/-- The peer whose entry an event may change. -/
def Event.Concerns (s : Connections) (peer : PeerIdentifier) : Event → Prop
  | .verify _ => False
  | .new id => s.authenticator.incomingConPubKeys id = some peer
  | .terminate number => ∃ connection, s.Live number connection ∧ connection.peerIdentifier = peer

theorem step_other (s : Connections) (event : Event) (peer : PeerIdentifier)
    (unconcerned : ¬ event.Concerns s peer) :
    (s.step event).registry.connectedPeers peer = s.registry.connectedPeers peer := by
  cases event with
  | verify handshake => rfl
  | new id =>
      change (s.newConnection id).2.registry.connectedPeers peer = _
      rcases s.newConnection_cases id with ⟨_, same⟩ | ⟨key, stored, same⟩
      · rw [same]
        rfl
      · rw [same]
        apply opened_other
        rintro rfl
        exact unconcerned stored
  | terminate number =>
      change (s.terminate number).registry.connectedPeers peer = _
      rcases s.terminate_cases number with ⟨same, _⟩ | ⟨connection, live, same⟩
      · rw [same]
      · rw [same]
        apply Registry.unregisterPeer_other
        rintro rfl
        exact unconcerned ⟨connection, live, rfl⟩

theorem run_inv (localPeerIdentifier : PeerIdentifier) (authenticator : Authenticator)
    (registries : List RegistryProvider) (events : List Event) :
    (Transition.run step (init localPeerIdentifier authenticator registries) events).Inv :=
  Transition.run_invariant Inv step_inv (init_inv _ _ _) events

/-- Whatever the order of openings and closings, the registry only holds and hands out the handle
of the live connection that was registered last for the peer, and no operation on one peer
touches the entry of another. -/
theorem connectedPeers_current (localPeerIdentifier : PeerIdentifier)
    (authenticator : Authenticator) (registries : List RegistryProvider) (events : List Event)
    (peer : PeerIdentifier) :
    let s := Transition.run step (init localPeerIdentifier authenticator registries) events
    (∀ handle token, s.registry.connectedPeers peer = some (handle, token) →
      ∃ number connection, s.Owner peer handle token number connection) ∧
    (∀ handle, s.registry.peer peer = some handle →
      ∃ token number connection, s.Owner peer handle token number connection) ∧
    (∀ result, s.registry.findPeer peer = .ready result →
      ∃ handle token number connection, result = .foundWithHandle handle ∧
        s.Owner peer handle token number connection) ∧
    (∀ event, ¬ Event.Concerns s peer event →
      (s.step event).registry.connectedPeers peer = s.registry.connectedPeers peer) := by
  intro s
  have inv : s.Inv := run_inv localPeerIdentifier authenticator registries events
  refine ⟨inv.entry peer, ?_, ?_, fun event => step_other s event peer⟩
  · intro handle present
    obtain ⟨⟨found, token⟩, entry, rfl⟩ := Option.map_eq_some_iff.mp present
    exact ⟨token, inv.entry peer found token entry⟩
  · intro result answered
    unfold Registry.findPeer at answered
    split at answered
    · rename_i handle token entry
      cases answered
      obtain ⟨number, connection, owner⟩ := inv.entry peer handle token entry
      exact ⟨handle, token, number, connection, rfl, owner⟩
    · cases answered

/-- A new registration of the peer does not receive the token of a connection that is still
live. -/
def FreshToken (s : Connections) : Event → Prop
  | .new id => ∀ key, s.authenticator.incomingConPubKeys id = some key →
      ∀ number connection, s.Live number connection → connection.peerIdentifier = key →
        connection.registrationToken ≠ s.registry.nextToken key
  | _ => True

/-- The end of a connection that is not the last one registered for its peer leaves the table
unchanged. -/
def OnlyLatestRemoves (s : Connections) : Prop :=
  ∀ number, s.Superseded number →
    (s.step (.terminate number)).registry.connectedPeers = s.registry.connectedPeers

/-- A live connection whose token is the one in the table is the last one registered. -/
def TokensTellApart (s : Connections) : Prop :=
  ∀ number connection handle, s.Live number connection →
    s.registry.connectedPeers connection.peerIdentifier =
      some (handle, connection.registrationToken) → ¬ s.Superseded number

theorem onlyLatestRemoves_iff (s : Connections) : s.OnlyLatestRemoves ↔ s.TokensTellApart := by
  constructor
  · intro unchanged number connection handle live entry superseded
    have same := congrFun (unchanged number superseded) connection.peerIdentifier
    change (s.terminate number).registry.connectedPeers _ = _ at same
    rw [terminate_live live, Registry.unregisterPeer_match entry] at same
    simp only [Function.update_self] at same
    rw [entry] at same
    cases same
  · intro apart number superseded
    change (s.terminate number).registry.connectedPeers = _
    rcases s.terminate_cases number with ⟨same, _⟩ | ⟨connection, live, same⟩
    · rw [same]
    · rw [same, Registry.unregisterPeer_mismatch]
      intro handle entry
      exact apart number connection handle live entry superseded

theorem tokensTellApart_opened (s : Connections) (id : ConnectionId) (key : PeerIdentifier)
    (apart : s.TokensTellApart) :
    (s.opened id key).TokensTellApart ↔ ∀ number connection, s.Live number connection →
      connection.peerIdentifier = key →
        connection.registrationToken ≠ s.registry.nextToken key := by
  constructor
  · intro after number connection live own sameToken
    refine after number connection (s.created id key).newStreamHandle
      ⟨getElem?_snoc_of _ live.1, live.2⟩ ?_ ?_
    · rw [own, opened_entry, sameToken]
    · rw [superseded_snoc rfl live.1]
      exact Or.inr own.symm
  · intro fresh number connection handle live entry
    rcases getElem?_snoc live.1 with old | ⟨rfl, rfl⟩
    · have before : s.Live number connection := ⟨old, live.2⟩
      by_cases own : connection.peerIdentifier = key
      · rw [own, opened_entry] at entry
        simp only [Option.some.injEq, Prod.mk.injEq] at entry
        exact absurd entry.2.symm (fresh number connection before own)
      · rw [opened_other s id own] at entry
        rw [superseded_snoc rfl old]
        rintro (superseded | sameKey)
        · exact apart number connection handle before entry superseded
        · exact own sameKey.symm
    · exact created_not_superseded s _ _ rfl

theorem tokensTellApart_terminate {s : Connections} (apart : s.TokensTellApart) (number : Nat) :
    (s.terminate number).TokensTellApart := by
  rcases s.terminate_cases number with ⟨same, _⟩ | ⟨ending, live, same⟩
  · rw [same]
    exact apart
  · rw [same]
    intro other connection handle otherLive entry
    have kept : s.registry.connectedPeers connection.peerIdentifier =
        some (handle, connection.registrationToken) :=
      Registry.unregisterPeer_some entry
    exact apart other connection handle
      ⟨otherLive.1, fun member => otherLive.2 (List.mem_cons_of_mem _ member)⟩ kept

theorem onlyLatestRemoves_step (s : Connections) (event : Event) (holds : s.OnlyLatestRemoves) :
    (s.step event).OnlyLatestRemoves ↔ s.FreshToken event := by
  rw [onlyLatestRemoves_iff] at holds ⊢
  cases event with
  | verify handshake =>
      simp only [FreshToken, iff_true]
      exact holds
  | new id =>
      change (s.newConnection id).2.TokensTellApart ↔ _
      rcases s.newConnection_cases id with ⟨stored, same⟩ | ⟨key, stored, same⟩
      · rw [same]
        simp only [FreshToken, stored, reduceCtorEq, false_implies, implies_true, iff_true]
        exact holds
      · rw [same, tokensTellApart_opened s id key holds]
        simp only [FreshToken, stored, Option.some.injEq, forall_eq']
  | terminate number =>
      simp only [FreshToken, iff_true]
      exact tokensTellApart_terminate holds number

/-- The tokens keep a superseded connection from removing the entry of a later one exactly in the
runs where no registration reuses the token of a connection that is still live. -/
theorem onlyLatestRemoves_throughout_iff (localPeerIdentifier : PeerIdentifier)
    (authenticator : Authenticator) (registries : List RegistryProvider) (events : List Event) :
    Transition.Throughout step OnlyLatestRemoves
        (init localPeerIdentifier authenticator registries) events ↔
      Transition.Meets step FreshToken
        (init localPeerIdentifier authenticator registries) events := by
  have initial : (init localPeerIdentifier authenticator registries).OnlyLatestRemoves := by
    rintro number ⟨connection, _, _, found, _⟩
    cases found
  exact Transition.throughout_iff_meets onlyLatestRemoves_step initial events

def alice : PeerIdentifier := .ofByte 1

def bob : PeerIdentifier := .ofByte 2

/-- A handshake that any certificate passes, as no trusted certificates are configured. -/
def handshake (id : ConnectionId) (key : PeerIdentifier) : Handshake :=
  ⟨id, .incoming, .ok true, .ok key⟩

/-- Two connections to one peer overlap, the later one ends, and a third one opens. -/
def tokenReuse : List Event :=
  [.verify (handshake 1 bob), .new 1, .verify (handshake 2 bob), .new 2, .terminate 1,
    .verify (handshake 3 bob), .new 3]

/-- The first connection still holds token 0, which the third one has received again. -/
theorem tokenReuse_removes :
    let s := Transition.run step (init alice (Authenticator.new false false) []) tokenReuse
    s.Superseded 0 ∧ s.registry.hasPeer bob = true ∧
      (s.step (.terminate 0)).registry.hasPeer bob = false ∧ ¬ s.OnlyLatestRemoves := by
  intro s
  have superseded : s.Superseded 0 := ⟨_, 1, _, rfl, by decide, rfl, rfl⟩
  have before : s.registry.hasPeer bob = true := by decide
  have after : (s.step (.terminate 0)).registry.hasPeer bob = false := by decide
  refine ⟨superseded, before, after, ?_⟩
  intro unchanged
  have same := unchanged 0 superseded
  rw [Registry.hasPeer, same] at after
  rw [Registry.hasPeer, after] at before
  cases before

/-- A peer is found through the registry: by its own lookups, as the target of a relayed stream
and by the answers to other peers. -/
def Found (registry : Registry) (peer : PeerIdentifier) : Prop :=
  registry.hasPeer peer = true ∧ (∃ handle, registry.peer peer = some handle) ∧
    Remote.IncomingStream.answer registry (.find peer) = some (.found peer)

theorem found_iff (registry : Registry) (peer : PeerIdentifier) :
    Found registry peer ↔ registry.hasPeer peer = true := by
  constructor
  · exact fun found => found.1
  · intro present
    refine ⟨present, ?_, ?_⟩
    · obtain ⟨entry, same⟩ := Option.isSome_iff_exists.mp present
      exact ⟨entry.1, by simp only [Registry.peer, same, Option.map_some]⟩
    · simp only [Remote.IncomingStream.answer, present, ↓reduceIte]

def LivePeersFound (s : Connections) : Prop :=
  ∀ number connection, s.Live number connection → Found s.registry connection.peerIdentifier

/-- The connection that holds the entry of its peer ends only after all others to that peer. -/
def HolderEndsLast (s : Connections) : Event → Prop
  | .terminate number => ∀ connection handle, s.Live number connection →
      s.registry.connectedPeers connection.peerIdentifier =
        some (handle, connection.registrationToken) →
      ∀ other next, other ≠ number → s.Live other next →
        next.peerIdentifier ≠ connection.peerIdentifier
  | _ => True

theorem livePeersFound_terminate (s : Connections) (number : Nat) (holds : s.LivePeersFound) :
    (s.terminate number).LivePeersFound ↔ s.HolderEndsLast (.terminate number) := by
  rcases s.terminate_cases number with ⟨same, dead⟩ | ⟨ending, live, same⟩
  · rw [same]
    exact iff_of_true holds (fun connection _ live => absurd live (dead connection))
  · rw [same]
    constructor
    · intro after connection handle again entry other next apart otherLive samePeer
      cases live.1.symm.trans again.1
      have found := (after other next ⟨otherLive.1, fun member =>
        (List.mem_cons.mp member).elim apart otherLive.2⟩).1
      rw [Registry.unregisterPeer_match entry, Registry.hasPeer, samePeer] at found
      simp only [Function.update_self] at found
      cases found
    · intro last other next otherLive
      have apart : other ≠ number := fun eq => otherLive.2 (eq ▸ List.mem_cons_self)
      have before : s.Live other next :=
        ⟨otherLive.1, fun member => otherLive.2 (List.mem_cons_of_mem _ member)⟩
      have found := (holds other next before).1
      rw [found_iff]
      change Registry.hasPeer (s.registry.unregisterPeer _ _) _ = true
      by_cases owned : ∃ handle, s.registry.connectedPeers ending.peerIdentifier =
          some (handle, ending.registrationToken)
      · obtain ⟨handle, entry⟩ := owned
        have others := last ending handle live entry other next apart before
        rw [Registry.hasPeer, Registry.unregisterPeer_other _ _ others]
        exact found
      · rw [Registry.unregisterPeer_mismatch (fun handle eq => owned ⟨handle, eq⟩)]
        exact found

theorem livePeersFound_opened {s : Connections} (holds : s.LivePeersFound) (id : ConnectionId)
    (key : PeerIdentifier) : (s.opened id key).LivePeersFound := by
  intro number connection live
  rw [found_iff]
  by_cases own : connection.peerIdentifier = key
  · rw [own, Registry.hasPeer, opened_entry]
    rfl
  · rcases getElem?_snoc live.1 with old | ⟨_, rfl⟩
    · rw [Registry.hasPeer, opened_other s id own]
      exact (holds number connection ⟨old, live.2⟩).1
    · exact absurd rfl own

/-- Every peer with a live connection is found exactly in the runs where the connection that holds
a peer's entry ends only when no other connection to that peer is live. -/
theorem livePeersFound_throughout_iff (localPeerIdentifier : PeerIdentifier)
    (authenticator : Authenticator) (registries : List RegistryProvider) (events : List Event) :
    Transition.Throughout step LivePeersFound
        (init localPeerIdentifier authenticator registries) events ↔
      Transition.Meets step HolderEndsLast
        (init localPeerIdentifier authenticator registries) events := by
  have initial : (init localPeerIdentifier authenticator registries).LivePeersFound := by
    intro number connection live
    cases live.1
  refine Transition.throughout_iff_meets ?_ initial events
  intro s event holds
  cases event with
  | verify handshake => exact iff_of_true holds trivial
  | new id =>
      refine iff_of_true ?_ trivial
      change (s.newConnection id).2.LivePeersFound
      rcases s.newConnection_cases id with ⟨_, same⟩ | ⟨key, _, same⟩
      · rw [same]
        exact holds
      · rw [same]
        exact livePeersFound_opened holds id key
  | terminate number => exact livePeersFound_terminate s number holds

/-- Of two connections to one peer the later one ends. The first is still live, and its peer is
no longer found. -/
theorem overlap_hides_live_peer :
    let s := Transition.run step (init alice (Authenticator.new false false) [])
      [.verify (handshake 1 bob), .new 1, .verify (handshake 2 bob), .new 2, .terminate 1]
    (∃ connection, s.Live 0 connection ∧ connection.peerIdentifier = bob) ∧
      s.registry.hasPeer bob = false ∧ ¬ s.LivePeersFound := by
  intro s
  have live : s.Live 0 ⟨⟨1, 0⟩, NewStreamHandle.new bob alice ⟨0⟩, bob, 0⟩ := ⟨by decide, by decide⟩
  have hidden : s.registry.hasPeer bob = false := by decide
  refine ⟨⟨_, live, rfl⟩, hidden, ?_⟩
  intro found
  have present := (found 0 _ live).1
  rw [hidden] at present
  cases present

end HolePunch.Connections
