import HolePunch.Connection
import HolePunch.Verification

set_option autoImplicit false

/- Whether the keys that the authenticator stores for connections are all collected, over every run
of handshakes, established connections and attempts that are given up. -/
namespace HolePunch

/-- How far an attempt at a connection has come. It is collected when `Connection::new` has been
called for it, and abandoned when its `NewConnectionFuture` is gone before that. -/
inductive Attempt where
  | handshaking
  | accepted
  | rejected
  | collected
  | abandoned
  deriving DecidableEq, Repr

/-- What becomes of an attempt when its future is dropped. -/
def Attempt.dropped : Attempt → Attempt
  | .handshaking => .abandoned
  | .accepted => .abandoned
  | settled => settled

/-- The attempts by the ids of their connections, and the `new_cons` of each
`BuildConnectionToPeer` that waits for a connection. -/
structure Attempts where
  connections : Connections
  phase : ConnectionId → Option Attempt
  building : List (List ConnectionId)

theorem Authenticator.Trusted.not_unreadable {authenticator : Authenticator}
    {handshake : Handshake} (trusted : authenticator.Trusted handshake) :
    ¬ authenticator.Unreadable handshake := by
  rintro (⟨checked, failed⟩ | unreadable)
  · rw [trusted.1 checked] at failed
    cases failed
  · obtain ⟨key, readable⟩ := trusted.2
    rw [readable] at unreadable
    cases unreadable

namespace Attempts

def init (localPeerIdentifier : PeerIdentifier) (authenticator : Authenticator)
    (registries : List RegistryProvider) : Attempts :=
  ⟨Connections.init localPeerIdentifier authenticator registries, fun _ => none, []⟩

def keys (s : Attempts) : ConnectionId → Option PeerIdentifier :=
  s.connections.authenticator.incomingConPubKeys

/-- The transport gives each new connection an id of its own. -/
def fresh (s : Attempts) (ids : List ConnectionId) : List ConnectionId :=
  ids.filter (fun id => (s.phase id).isNone)

/-- `NewConnectionHandle::new_connection` for each of the connections. -/
def newConnections (s : Attempts) (ids : List ConnectionId) : Attempts :=
  { s with phase := fun id => if id ∈ s.fresh ids then some .handshaking else s.phase id }

/-- The futures of these attempts are dropped. -/
def drop (s : Attempts) (ids : List ConnectionId) : Attempts :=
  { s with phase := fun id => if id ∈ ids then (s.phase id).map Attempt.dropped else s.phase id }

/-- The connections are created only to open the port. -/
def createPokeConnections (s : Attempts) (ids : List ConnectionId) : Attempts :=
  (s.newConnections ids).drop (s.fresh ids)

/-- The transport verifies a certificate, that of an incoming connection included. A connection
whose future is gone is verified all the same. -/
def verify (s : Attempts) (handshake : Handshake) : Attempts :=
  let phase := match s.phase handshake.connectionId,
      (s.connections.authenticator.verify handshake).1 with
    | some .abandoned, _ => .abandoned
    | _, .ok true => .accepted
    | _, _ => .rejected
  { s with
    connections := s.connections.verify handshake
    phase := Function.update s.phase handshake.connectionId (some phase) }

/-- The transport has established a connection, and whoever waits for it calls
`Connection::new`. -/
def established (s : Attempts) (id : ConnectionId) : Attempts :=
  match s.phase id with
  | some .abandoned => s
  | _ => { s with
      connections := (s.connections.newConnection id).2
      phase := Function.update s.phase id (some .collected) }

/-- `BuildConnectionToPeer` starts to wait for a connection. -/
def build (s : Attempts) (ids : List ConnectionId) : Attempts :=
  { s.newConnections ids with building := s.building ++ [s.fresh ids] }

/-- `poll_waiting_for_connection` of one of the builds. When it goes on, with the first attempt
that is done or without one, the attempts that are left are dropped. -/
def pollWaitingForConnection (s : Attempts) (number : Nat) (timeout : TimeoutPoll)
    (attempt : Option (Nat × Except Error Unit)) : Attempts :=
  match s.building[number]? with
  | none => s
  | some newCons =>
      match timeout, attempt with
      | .error, _ => { s.drop newCons with building := s.building.eraseIdx number }
      | .notReady, none =>
          if newCons = [] then { s with building := s.building.eraseIdx number } else s
      | .notReady, some (index, result) =>
          match newCons[index]?, result with
          | none, _ =>
              if newCons = [] then { s with building := s.building.eraseIdx number } else s
          | some id, .ok _ => { (s.established id).drop (newCons.eraseIdx index) with
              building := s.building.eraseIdx number }
          | some _, .error _ => { s.drop newCons with building := s.building.eraseIdx number }

inductive Event where
  | newConnection (id : ConnectionId)
  | createPokeConnections (ids : List ConnectionId)
  | build (ids : List ConnectionId)
  | verify (handshake : Handshake)
  | established (id : ConnectionId)
  | drop (ids : List ConnectionId)
  | pollWaitingForConnection (number : Nat) (timeout : TimeoutPoll)
      (attempt : Option (Nat × Except Error Unit))

def step (s : Attempts) : Event → Attempts
  | .newConnection id => s.newConnections [id]
  | .createPokeConnections ids => s.createPokeConnections ids
  | .build ids => s.build ids
  | .verify handshake => s.verify handshake
  | .established id => s.established id
  | .drop ids => s.drop ids
  | .pollWaitingForConnection number timeout attempt =>
      s.pollWaitingForConnection number timeout attempt

/-- A key is stored only for an accepted connection whose `Connection::new` is still to come, and
none once all attempts are over. -/
structure NoLeak (s : Attempts) : Prop where
  awaited : ∀ id, s.keys id ≠ none → s.phase id = some .accepted
  empty : (∀ id, s.phase id ≠ some .handshaking ∧ s.phase id ≠ some .accepted) →
    ∀ id, s.keys id = none

/-- The attempts whose futures a poll of a build drops, other than the one that it has made a
connection of. -/
def givenUp (s : Attempts) (number : Nat) (timeout : TimeoutPoll)
    (attempt : Option (Nat × Except Error Unit)) : List ConnectionId :=
  match s.building[number]?, timeout, attempt with
  | some newCons, .error, _ => newCons
  | some newCons, .notReady, some (index, .ok _) =>
      match newCons[index]? with
      | some id => (newCons.eraseIdx index).filter (· ≠ id)
      | none => []
  | some newCons, .notReady, some (index, .error _) =>
      if index < newCons.length then newCons else []
  | _, _, _ => []

/-- No key is stored that will not be collected: a verification accepts its certificate and
somebody still waits for the connection, or it fails while no key is stored for the connection; and
no attempt is given up while its key is stored. -/
def Collects (s : Attempts) : Event → Prop
  | .verify handshake =>
      (s.connections.authenticator.Trusted handshake ∧
        s.phase handshake.connectionId ≠ some .abandoned) ∨
      (s.connections.authenticator.Unreadable handshake ∧ s.keys handshake.connectionId = none)
  | .drop ids => ∀ id ∈ ids, s.keys id = none
  | .pollWaitingForConnection number timeout attempt =>
      ∀ id ∈ s.givenUp number timeout attempt, s.keys id = none
  | _ => True

/-- Once all attempts are over, no connection is awaited. -/
theorem noLeak_iff (s : Attempts) :
    s.NoLeak ↔ ∀ id, s.keys id ≠ none → s.phase id = some .accepted := by
  constructor
  · intro noLeak
    exact noLeak.awaited
  · intro awaited
    refine ⟨awaited, ?_⟩
    intro settled id
    by_contra stored
    exact (settled id).2 (awaited id stored)

theorem phase_newConnections_of_some {s : Attempts} {id : ConnectionId} {phase : Attempt}
    (ids : List ConnectionId) (started : s.phase id = some phase) :
    (s.newConnections ids).phase id = some phase := by
  have absent : id ∉ s.fresh ids := by simp [fresh, started]
  simp only [newConnections, if_neg absent, started]

theorem newConnections_noLeak {s : Attempts} (noLeak : s.NoLeak) (ids : List ConnectionId) :
    (s.newConnections ids).NoLeak := by
  rw [noLeak_iff]
  intro id stored
  exact phase_newConnections_of_some ids (noLeak.awaited id stored)

/-- A key is left behind exactly when an attempt is dropped that has one. -/
theorem drop_noLeak_iff {s : Attempts} (noLeak : s.NoLeak) (ids : List ConnectionId) :
    (s.drop ids).NoLeak ↔ ∀ id ∈ ids, s.keys id = none := by
  rw [noLeak_iff]
  constructor
  · intro awaited id member
    by_contra stored
    have accepted := noLeak.awaited id stored
    have kept := awaited id stored
    simp [drop, member, accepted, Attempt.dropped] at kept
  · intro none id stored
    have absent : id ∉ ids := fun member => stored (none id member)
    simp only [drop, if_neg absent]
    exact noLeak.awaited id stored

theorem createPokeConnections_noLeak {s : Attempts} (noLeak : s.NoLeak)
    (ids : List ConnectionId) : (s.createPokeConnections ids).NoLeak := by
  refine (drop_noLeak_iff (newConnections_noLeak noLeak ids) _).mpr ?_
  intro id member
  by_contra stored
  have accepted : s.phase id = some .accepted := noLeak.awaited id stored
  simp [fresh, accepted] at member

theorem newConnection_keys (s : Connections) (id : ConnectionId) :
    (s.newConnection id).2.authenticator.incomingConPubKeys =
      Function.update s.authenticator.incomingConPubKeys id none := by
  rcases s.newConnection_cases id with ⟨_, refused⟩ | ⟨key, _, opened⟩
  · rw [refused]
    rfl
  · rw [opened]
    rfl

theorem established_noLeak {s : Attempts} (noLeak : s.NoLeak) (id : ConnectionId) :
    (s.established id).NoLeak := by
  unfold established
  split
  · exact noLeak
  · rw [noLeak_iff]
    intro other stored
    simp only [keys, newConnection_keys] at stored
    by_cases same : other = id
    · rw [same, Function.update_self] at stored
      exact absurd rfl stored
    · rw [Function.update_of_ne same] at stored
      simp only [Function.update_of_ne same]
      exact noLeak.awaited other stored

/-- A verification stores no key for another connection. -/
theorem verify_keys_of_ne (authenticator : Authenticator) (handshake : Handshake)
    {id : ConnectionId} (other : id ≠ handshake.connectionId) :
    (authenticator.verify handshake).2.incomingConPubKeys id =
      authenticator.incomingConPubKeys id := by
  rw [Authenticator.verify_eq]
  split
  · rfl
  · rfl
  · exact Verification.addIncomingConPubKey_of_ne _ _ other

/-- Only the connection that is verified can go wrong. -/
theorem verify_noLeak_iff_self {s : Attempts} (noLeak : s.NoLeak) (handshake : Handshake) :
    (s.verify handshake).NoLeak ↔ ((s.verify handshake).keys handshake.connectionId ≠ none →
      (s.verify handshake).phase handshake.connectionId = some .accepted) := by
  rw [noLeak_iff]
  constructor
  · intro awaited
    exact awaited handshake.connectionId
  · intro here id stored
    by_cases same : id = handshake.connectionId
    · subst same
      exact here stored
    · have kept : (s.verify handshake).keys id = s.keys id :=
        verify_keys_of_ne s.connections.authenticator handshake same
      rw [kept] at stored
      exact (Function.update_of_ne same _ _).trans (noLeak.awaited id stored)

theorem verify_phase_accepted_iff (s : Attempts) (handshake : Handshake) :
    (s.verify handshake).phase handshake.connectionId = some .accepted ↔
      (s.connections.authenticator.verify handshake).1 = .ok true ∧
        s.phase handshake.connectionId ≠ some .abandoned := by
  have here : (s.verify handshake).phase handshake.connectionId = some _ :=
    Function.update_self handshake.connectionId _ s.phase
  rw [here]
  split
  · rename_i gone
    simp [gone]
  · rename_i accepted held
    exact iff_of_true rfl ⟨accepted, held⟩
  · rename_i held rejected
    refine iff_of_false ?_ (fun both => rejected both.1)
    intro impossible
    cases impossible

theorem verify_noLeak_iff {s : Attempts} (noLeak : s.NoLeak) (handshake : Handshake) :
    (s.verify handshake).NoLeak ↔ s.Collects (.verify handshake) := by
  rw [verify_noLeak_iff_self noLeak, verify_phase_accepted_iff]
  change ((s.connections.authenticator.verify handshake).2.incomingConPubKeys
    handshake.connectionId ≠ none → _) ↔ _
  by_cases trusted : s.connections.authenticator.Trusted handshake
  · obtain ⟨key, readable⟩ := trusted.2
    rw [Authenticator.verify_trusted trusted readable]
    have stored := Verification.addIncomingConPubKey_self s.connections.authenticator
      handshake.connectionId key
    have readable := trusted.not_unreadable
    simp [Collects, stored, trusted, readable]
  · by_cases fails : s.connections.authenticator.Unreadable handshake
    · rw [Authenticator.verify_unreadable fails]
      simp [Collects, trusted, fails, keys]
    · obtain ⟨key, -, verified⟩ := Authenticator.verify_rejected trusted fails
      have stored := Verification.addIncomingConPubKey_self s.connections.authenticator
        handshake.connectionId key
      rw [verified]
      simp [Collects, stored, trusted, fails]

/-- The builds that are under way hold no keys. -/
theorem noLeak_building_iff (s : Attempts) (building : List (List ConnectionId)) :
    NoLeak { s with building := building } ↔ s.NoLeak := by
  rw [noLeak_iff, noLeak_iff]
  rfl

theorem established_keys_of_ne (s : Attempts) {id other : ConnectionId} (different : other ≠ id) :
    (s.established id).keys other = s.keys other := by
  unfold established
  split
  · rfl
  · simp only [keys, newConnection_keys, Function.update_of_ne different]

/-- An abandoned attempt has no key to take. -/
theorem established_keys_self {s : Attempts} (noLeak : s.NoLeak) (id : ConnectionId) :
    (s.established id).keys id = none := by
  unfold established
  split
  · rename_i gone
    by_contra stored
    have accepted := noLeak.awaited id stored
    rw [gone] at accepted
    cases accepted
  · simp only [keys, newConnection_keys, Function.update_self]

/-- The connection that is made of an attempt takes its key, and the others are given up. -/
theorem established_drop_noLeak_iff {s : Attempts} (noLeak : s.NoLeak) (id : ConnectionId)
    (ids : List ConnectionId) :
    ((s.established id).drop ids).NoLeak ↔ ∀ other ∈ ids.filter (· ≠ id), s.keys other = none := by
  rw [drop_noLeak_iff (established_noLeak noLeak id)]
  constructor
  · intro none other member
    obtain ⟨member, different⟩ := List.mem_filter.mp member
    rw [← established_keys_of_ne s (of_decide_eq_true different)]
    exact none other member
  · intro none other member
    by_cases same : other = id
    · rw [same]
      exact established_keys_self noLeak id
    · rw [established_keys_of_ne s same]
      exact none other (List.mem_filter.mpr ⟨member, decide_eq_true same⟩)

theorem pollWaitingForConnection_noLeak_iff {s : Attempts} (noLeak : s.NoLeak) (number : Nat)
    (timeout : TimeoutPoll) (attempt : Option (Nat × Except Error Unit)) :
    (s.pollWaitingForConnection number timeout attempt).NoLeak ↔
      ∀ id ∈ s.givenUp number timeout attempt, s.keys id = none := by
  unfold pollWaitingForConnection givenUp
  cases s.building[number]? with
  | none => simp [noLeak]
  | some newCons =>
      cases timeout with
      | error =>
          simp only [noLeak_building_iff]
          exact drop_noLeak_iff noLeak newCons
      | notReady =>
          have waiting : (if newCons = [] then { s with building := s.building.eraseIdx number }
              else s).NoLeak := by
            split
            · exact (noLeak_building_iff s _).mpr noLeak
            · exact noLeak
          cases attempt with
          | none => simpa using waiting
          | some done =>
              obtain ⟨index, result⟩ := done
              cases found : newCons[index]? with
              | none =>
                  have outside : ¬ index < newCons.length := by
                    rw [List.getElem?_eq_none_iff] at found
                    omega
                  cases result with
                  | ok _ => simpa [found] using waiting
                  | error reason => simpa [found, outside] using waiting
              | some id =>
                  have inside := (List.getElem?_eq_some_iff.mp found).1
                  cases result with
                  | ok _ =>
                      simp only [found, noLeak_building_iff]
                      exact established_drop_noLeak_iff noLeak id (newCons.eraseIdx index)
                  | error reason =>
                      simp only [found, if_pos inside, noLeak_building_iff]
                      exact drop_noLeak_iff noLeak newCons

theorem step_noLeak_iff {s : Attempts} (event : Event) (noLeak : s.NoLeak) :
    (s.step event).NoLeak ↔ s.Collects event := by
  cases event with
  | newConnection id => exact iff_of_true (newConnections_noLeak noLeak [id]) trivial
  | createPokeConnections ids =>
      exact iff_of_true (createPokeConnections_noLeak noLeak ids) trivial
  | build ids =>
      refine iff_of_true ?_ trivial
      exact (noLeak_building_iff _ _).mpr (newConnections_noLeak noLeak ids)
  | verify handshake => exact verify_noLeak_iff noLeak handshake
  | established id => exact iff_of_true (established_noLeak noLeak id) trivial
  | drop ids => exact drop_noLeak_iff noLeak ids
  | pollWaitingForConnection number timeout attempt =>
      exact pollWaitingForConnection_noLeak_iff noLeak number timeout attempt

/-- No key is left behind, in every state of a run, exactly when every verification stores only a
key that is still awaited and no attempt is given up while its key is stored. -/
theorem noLeak_iff_collects (localPeerIdentifier : PeerIdentifier)
    (incomingCertificates outgoingCertificates : Bool) (registries : List RegistryProvider)
    (events : List Event) :
    Transition.Throughout step NoLeak (init localPeerIdentifier
        (Authenticator.new incomingCertificates outgoingCertificates) registries) events ↔
      Transition.Meets step Collects (init localPeerIdentifier
        (Authenticator.new incomingCertificates outgoingCertificates) registries) events := by
  apply Transition.throughout_iff_meets
  · intro s event noLeak
    exact step_noLeak_iff event noLeak
  · rw [noLeak_iff]
    intro id stored
    exact absurd rfl stored

/-- The handshake of a connection to the peer `07`, which no check rejects. -/
def pokeHandshake : Handshake := ⟨0, .outgoing, .ok true, .ok (.ofByte 7)⟩

/-- One connection is made to open the port, and its handshake succeeds. -/
theorem poke_connection_leaves_key :
    ¬ Transition.Throughout step NoLeak (init (.ofByte 1) (Authenticator.new false false) [])
      [.createPokeConnections [0], .verify pokeHandshake] := by
  intro always
  have noLeak := always [.createPokeConnections [0], .verify pokeHandshake] (List.prefix_refl _)
  have accepted := noLeak.awaited 0 (by decide)
  cases accepted

end Attempts

end HolePunch
