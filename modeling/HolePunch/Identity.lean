import HolePunch.Node
import HolePunch.Registrations

set_option autoImplicit false

/- The identity that streams and handles carry, against the keys that the authenticator returned
for the connections they belong to. `keys` holds one key for each connection of the peer. -/
namespace HolePunch

theorem getElem?_of_prefix {α : Type} {before after : List α} (grown : before <+: after)
    {index : Nat} {value : α} (found : before[index]? = some value) :
    after[index]? = some value := by
  obtain ⟨bound, _⟩ := List.getElem?_eq_some_iff.mp found
  obtain ⟨rest, rfl⟩ := grown
  rw [List.getElem?_append_left bound, found]

/-- A handle introduces its owner, and one for direct streams names the peer its connection was
authenticated with. -/
structure NewStreamHandle.Authentic (owner : PeerIdentifier) (keys : List PeerIdentifier)
    (handle : NewStreamHandle) : Prop where
  localPeer : handle.localPeerIdentifier = owner
  direct : handle.proxyStream = false →
    keys[handle.newStreamHandle.con]? = some handle.peerIdentifier

/-- A direct stream names the peer its connection was authenticated with, and its handle says the
same and opens streams on the same connection. -/
structure Stream.Authentic (owner : PeerIdentifier) (keys : List PeerIdentifier)
    (stream : Stream) : Prop where
  localPeer : stream.newStreamHandle.localPeerIdentifier = owner
  con : stream.newStreamHandle.newStreamHandle.con = stream.stream.con
  handlePeer : stream.newStreamHandle.peerIdentifier = stream.peerIdentifier
  handleProxy : stream.newStreamHandle.proxyStream = stream.isProxyStream
  direct : stream.isProxyStream = false →
    keys[stream.stream.con]? = some stream.peerIdentifier

structure NewStreamFuture.Authentic (owner : PeerIdentifier) (keys : List PeerIdentifier)
    (future : NewStreamFuture) : Prop where
  localPeer : future.newStreamHandle.localPeerIdentifier = owner
  con : future.newStreamHandle.newStreamHandle.con = future.newStream.con
  direct : future.identity.2 = false → keys[future.newStream.con]? = some future.identity.1

structure Connection.Authentic (owner : PeerIdentifier) (keys : List PeerIdentifier) (number : Nat)
    (connection : Connection) : Prop where
  con : connection.con.con = number
  handleCon : connection.newStreamHandle.newStreamHandle.con = number
  handlePeer : connection.newStreamHandle.peerIdentifier = connection.peerIdentifier
  handleProxy : connection.newStreamHandle.proxyStream = false
  localPeer : connection.newStreamHandle.localPeerIdentifier = owner
  key : keys[number]? = some connection.peerIdentifier

section

variable {owner : PeerIdentifier} {keys more : List PeerIdentifier}

theorem NewStreamHandle.Authentic.mono {handle : NewStreamHandle} (grown : keys <+: more)
    (authentic : handle.Authentic owner keys) : handle.Authentic owner more :=
  { authentic with direct := fun direct => getElem?_of_prefix grown (authentic.direct direct) }

theorem Stream.Authentic.mono {stream : Stream} (grown : keys <+: more)
    (authentic : stream.Authentic owner keys) : stream.Authentic owner more :=
  { authentic with direct := fun direct => getElem?_of_prefix grown (authentic.direct direct) }

theorem NewStreamFuture.Authentic.mono {future : NewStreamFuture} (grown : keys <+: more)
    (authentic : future.Authentic owner keys) : future.Authentic owner more :=
  { authentic with direct := fun direct => getElem?_of_prefix grown (authentic.direct direct) }

theorem Connection.Authentic.mono {number : Nat} {connection : Connection} (grown : keys <+: more)
    (authentic : connection.Authentic owner keys number) : connection.Authentic owner more number :=
  { authentic with key := getElem?_of_prefix grown authentic.key }

theorem Stream.Authentic.handle {stream : Stream} (authentic : stream.Authentic owner keys) :
    stream.newStreamHandle.Authentic owner keys := by
  refine ⟨authentic.localPeer, ?_⟩
  intro direct
  rw [authentic.con, authentic.handlePeer]
  exact authentic.direct (authentic.handleProxy ▸ direct)

/-- The only constructor of streams makes authentic ones where a direct stream is given the key
of its connection. -/
theorem Stream.new_authentic {stream : Strategies.Stream} {peer : PeerIdentifier}
    {handle : NewStreamHandle} {isProxyStream : Bool}
    (localPeer : handle.localPeerIdentifier = owner)
    (con : handle.newStreamHandle.con = stream.con)
    (direct : isProxyStream = false → keys[stream.con]? = some peer) :
    (Stream.new stream peer handle isProxyStream).Authentic owner keys :=
  ⟨localPeer, con, rfl, rfl, direct⟩

theorem NewStreamFuture.Authentic.stream {future : NewStreamFuture}
    (authentic : future.Authentic owner keys) : future.stream.Authentic owner keys :=
  Stream.new_authentic authentic.localPeer authentic.con authentic.direct

@[simp] theorem NewStreamHandle.newStream_identity (handle : NewStreamHandle) :
    handle.newStream.identity = (handle.peerIdentifier, handle.proxyStream) := by
  cases proxied : handle.proxyStream <;>
    simp [NewStreamHandle.newStream, NewStreamFuture.identity, proxied]

theorem NewStreamHandle.Authentic.newStream {handle : NewStreamHandle}
    (authentic : handle.Authentic owner keys) : handle.newStream.Authentic owner keys := by
  refine ⟨authentic.localPeer, rfl, ?_⟩
  rw [NewStreamHandle.newStream_identity]
  exact authentic.direct

theorem Connection.Authentic.newStreamWithHello {number : Nat} {connection : Connection}
    (authentic : connection.Authentic owner keys number) (hello : StreamHello) :
    (connection.newStreamWithHello hello).Authentic owner keys := by
  have key : keys[connection.con.con]? = some connection.peerIdentifier := by
    rw [authentic.con]
    exact authentic.key
  refine ⟨authentic.localPeer, authentic.handleCon.trans authentic.con.symm, ?_⟩
  intro direct
  cases hello with
  | userProxy peer => cases direct
  | proxyBuildConnectionToPeer peer => cases direct
  | user peer => exact key
  | registry => exact key
  | buildConnectionToPeer peer => exact key

/-- A user stream that a remote peer opens is direct only if the hello names that very peer. -/
theorem Connection.Authentic.passStream {number : Nat} {connection : Connection}
    (authentic : connection.Authentic owner keys number) {timeout : TimeoutPoll}
    {message : Poll (Option StreamHello)} {stream : Stream}
    (passed : (connection.incomingStream.poll timeout message).2 = .passStream stream) :
    stream.Authentic owner keys := by
  unfold Connection.incomingStream IncomingStream.poll IncomingStream.new at passed
  split at passed
  · cases passed
  · simp only at passed
    split at passed <;> cases passed
    rename_i peer
    apply Stream.new_authentic authentic.localPeer
    · exact authentic.handleCon.trans authentic.con.symm
    · intro direct
      simp only [decide_eq_false_iff_not, ne_eq, not_not] at direct
      rw [direct, authentic.con]
      exact authentic.key

end

/-- The stream the machine was given belongs to the connection its handle opens streams on. -/
structure BuildConnectionToPeerRemote.Sound (owner : PeerIdentifier)
    (s : BuildConnectionToPeerRemote) : Prop where
  localPeer : s.newStreamHandle.localPeerIdentifier = owner
  con : ∀ stream, s.stream = some stream → s.newStreamHandle.newStreamHandle.con = stream.con

theorem Connection.Authentic.remote {owner : PeerIdentifier} {keys : List PeerIdentifier}
    {number : Nat} {connection : Connection} (authentic : connection.Authentic owner keys number)
    {timeout : TimeoutPoll} {message : Poll (Option StreamHello)}
    {remote : BuildConnectionToPeerRemote}
    (spawned : (connection.incomingStream.poll timeout message).2 =
      .buildConnectionToPeerRemote remote) : remote.Sound owner := by
  unfold Connection.incomingStream IncomingStream.poll IncomingStream.new at spawned
  split at spawned
  · cases spawned
  · simp only at spawned
    split at spawned <;> cases spawned
    refine ⟨authentic.localPeer, ?_⟩
    intro stream given
    cases given
    exact authentic.handleCon.trans authentic.con.symm

/-- The asked side passes on only proxied streams. -/
theorem BuildConnectionToPeerRemote.Sound.passed {owner : PeerIdentifier}
    {keys : List PeerIdentifier} {s : BuildConnectionToPeerRemote} (sound : s.Sound owner)
    {message : Poll (Option BuildConnectionToPeerProtocol)} {sent : SendPoll}
    {interfaces : List IpAddr} {localAddr : SocketAddr} {stream : Stream}
    (passed : (s.step message sent interfaces localAddr).2.passed = some stream) :
    stream.Authentic owner keys := by
  unfold step at passed
  split at passed
  · cases passed
  · rename_i given held
    split at passed
    · cases passed
    · cases passed
    · cases passed
    · split at passed
      · cases passed
      · split at passed <;> cases passed
    · cases passed
      exact Stream.new_authentic sound.localPeer (sound.con given held)
        (fun direct => by cases direct)
    · cases passed

theorem BuildConnectionToPeerRemote.Sound.transition {owner : PeerIdentifier}
    {s next : BuildConnectionToPeerRemote}
    (sound : s.Sound owner) {message : Poll (Option BuildConnectionToPeerProtocol)}
    {sent : SendPoll} {interfaces : List IpAddr} {localAddr : SocketAddr}
    (moved : (s.step message sent interfaces localAddr).1 = .transition next) :
    next.Sound owner := by
  unfold step at moved
  split at moved
  · cases moved
  · split at moved
    · cases moved
    · cases moved
    · cases moved
      exact ⟨sound.localPeer, sound.con⟩
    · split at moved
      · cases moved
      · split at moved <;> cases moved <;> exact sound
    · cases moved
    · cases moved

/-- The proxy stream of a machine belongs to the connection its handle opens streams on. -/
def NewStreamHandle.Relays (owner : PeerIdentifier) (con : Nat) (handle : NewStreamHandle) :
    Prop :=
  handle.localPeerIdentifier = owner ∧ handle.newStreamHandle.con = con

/-- The machine looks for `peer`, its proxy stream belongs to its handle, and the direct stream it
opens is authentic. -/
def BuildConnectionToPeer.Sound (owner : PeerIdentifier) (keys : List PeerIdentifier)
    (peer : PeerIdentifier) : BuildConnectionToPeer → Prop
  | .waitingForProxyStream proxy handle searched _ =>
      searched = peer ∧ handle.Relays owner proxy.newStream.con
  | .waitingForInternetAddressInformation proxy handle searched _ =>
      searched = peer ∧ handle.Relays owner proxy.con
  | .waitingForExchangeAddressInformation proxy handle searched _ =>
      searched = peer ∧ handle.Relays owner proxy.con
  | .waitingForConnection _ proxy handle searched _ =>
      searched = peer ∧ handle.Relays owner proxy.con
  | .waitingForStream newStream proxy handle searched =>
      searched = peer ∧ handle.Relays owner proxy.con ∧ newStream.Authentic owner keys ∧
        newStream.identity.2 = false
  | .proxyStream proxy handle searched => searched = peer ∧ handle.Relays owner proxy.con

/-- An answer to the search for `peer`. Nothing ties a found stream to the searched peer. -/
def RegistryResult.Sound (owner : PeerIdentifier) (keys : List PeerIdentifier)
    (peer : PeerIdentifier) : RegistryResult → Prop
  | .found stream => stream.Authentic owner keys ∧ stream.isProxyStream = false
  | .foundWithHandle handle => handle.Authentic owner keys ∧ handle.peerIdentifier = peer
  | .foundRemote handle => handle.Authentic owner keys
  | .notFound => True

def CreateConnectionToPeer.Sound (owner : PeerIdentifier) (keys : List PeerIdentifier)
    (peer : PeerIdentifier) : CreateConnectionToPeer → Prop
  | .findPeer (.ready result) => result.Sound owner keys peer
  | .findPeer (.searchRemoteRegistries _) => True
  | .newStream future => future.Authentic owner keys ∧ future.identity.1 = peer
  | .buildConnectionToPeer machine => machine.Sound owner keys peer

/-- The stream of a call is authentic, and names the peer that was asked for unless it was opened
on a connection made for the call, in which case it names whoever answered. -/
structure Resolved.Sound (owner : PeerIdentifier) (keys : List PeerIdentifier)
    (call : Resolved) : Prop where
  authentic : call.stream.Authentic owner keys
  searched : call.dialled = none → call.stream.peerIdentifier = call.peer
  answered : ∀ con, call.dialled = some con → keys[con]? = some call.stream.peerIdentifier

section

variable {owner : PeerIdentifier} {keys more : List PeerIdentifier} {peer : PeerIdentifier}

theorem BuildConnectionToPeer.Sound.mono {machine : BuildConnectionToPeer} (grown : keys <+: more)
    (sound : machine.Sound owner keys peer) : machine.Sound owner more peer := by
  cases machine with
  | waitingForStream newStream proxy handle searched =>
      exact ⟨sound.1, sound.2.1, sound.2.2.1.mono grown, sound.2.2.2⟩
  | _ => exact sound

theorem RegistryResult.Sound.mono {result : RegistryResult} (grown : keys <+: more)
    (sound : result.Sound owner keys peer) : result.Sound owner more peer := by
  cases result with
  | found stream => exact ⟨sound.1.mono grown, sound.2⟩
  | foundWithHandle handle => exact ⟨sound.1.mono grown, sound.2⟩
  | foundRemote handle => exact NewStreamHandle.Authentic.mono grown sound
  | notFound => trivial

theorem CreateConnectionToPeer.Sound.mono {stage : CreateConnectionToPeer} (grown : keys <+: more)
    (sound : stage.Sound owner keys peer) : stage.Sound owner more peer := by
  cases stage with
  | findPeer find =>
      cases find with
      | ready result => exact RegistryResult.Sound.mono grown sound
      | searchRemoteRegistries futures => trivial
  | newStream future => exact ⟨sound.1.mono grown, sound.2⟩
  | buildConnectionToPeer machine => exact BuildConnectionToPeer.Sound.mono grown sound

theorem Resolved.Sound.mono {call : Resolved} (grown : keys <+: more)
    (sound : call.Sound owner keys) : call.Sound owner more :=
  ⟨sound.authentic.mono grown, sound.searched,
    fun con dialled => getElem?_of_prefix grown (sound.answered con dialled)⟩

theorem BuildConnectionToPeer.sending_cases (answers : BuildAnswers)
    (message : BuildConnectionToPeerProtocol) (next : Handled BuildConnectionToPeer Stream) :
    (sending answers message next).1 = next ∨
      ∃ reason, (sending answers message next).1 = .error reason := by
  unfold sending
  split
  · exact Or.inr ⟨_, rfl⟩
  · exact Or.inl rfl
  · exact Or.inl rfl

/-- A handler of the initiating side keeps looking for the same peer. -/
theorem BuildConnectionToPeer.step_transition {machine next : BuildConnectionToPeer}
    {answers : BuildAnswers} (sound : machine.Sound owner keys peer)
    (attempt : ∀ index connection, answers.attempt = some (index, .ok connection) →
      ∃ number, connection.Authentic owner keys number)
    (moved : (machine.step answers).1 = .transition next) : next.Sound owner keys peer := by
  cases machine with
  | waitingForProxyStream proxy handle searched localPeer =>
      simp only [step, pollWaitingForProxyStream] at moved
      split at moved <;> cases moved
      rename_i stream opened
      rw [NewStreamFuture.poll_ready opened]
      exact sound
  | waitingForInternetAddressInformation proxy handle searched localPeer =>
      simp only [step, pollWaitingForInternetAddressInformation] at moved
      split at moved
      · cases moved
      · cases moved
      · cases moved
      · rcases sending_cases answers _ _ with same | ⟨reason, same⟩ <;> rw [same] at moved
        · cases moved
          exact sound
        · cases moved
      · cases moved
  | waitingForExchangeAddressInformation proxy handle searched localPeer =>
      simp only [step, pollWaitingForExchangeAddressInformation] at moved
      split at moved <;> cases moved
      exact sound
  | waitingForConnection newCons proxy handle searched localPeer =>
      simp only [step, pollWaitingForConnection] at moved
      split at moved
      · cases moved
        exact sound
      · split at moved <;> cases moved
        · rename_i newCon polled
          obtain ⟨index, _, same⟩ := Futures.pollUnordered_ready (Prod.ext rfl polled)
          obtain ⟨number, authentic⟩ := attempt index newCon same
          exact ⟨sound.1, sound.2, authentic.newStreamWithHello _, rfl⟩
        · exact sound
        · exact sound
  | waitingForStream newStream proxy handle searched =>
      simp only [step, pollWaitingForStream] at moved
      split at moved <;> cases moved
      exact ⟨sound.1, sound.2.1⟩
  | proxyStream proxy handle searched =>
      simp only [step, pollProxyStream] at moved
      rcases sending_cases answers _ _ with same | ⟨reason, same⟩ <;> rw [same] at moved <;>
        cases moved

/-- The initiating side ends with its proxy stream, which names the searched peer, or with a
stream on a connection it has made, which names whoever answered there. -/
theorem BuildConnectionToPeer.step_ready {machine : BuildConnectionToPeer}
    {answers : BuildAnswers} {stream : Stream} (sound : machine.Sound owner keys peer)
    (done : (machine.step answers).1 = .ready stream) :
    (Resolved.mk peer stream (Node.dialled (.buildConnectionToPeer machine) stream)).Sound owner
      keys := by
  cases machine with
  | waitingForProxyStream proxy handle searched localPeer =>
      simp only [step, pollWaitingForProxyStream] at done
      split at done <;> cases done
  | waitingForInternetAddressInformation proxy handle searched localPeer =>
      simp only [step, pollWaitingForInternetAddressInformation] at done
      split at done
      · cases done
      · cases done
      · cases done
      · rcases sending_cases answers _ _ with same | ⟨reason, same⟩ <;> rw [same] at done <;>
          cases done
      · cases done
  | waitingForExchangeAddressInformation proxy handle searched localPeer =>
      simp only [step, pollWaitingForExchangeAddressInformation] at done
      split at done <;> cases done
  | waitingForConnection newCons proxy handle searched localPeer =>
      simp only [step, pollWaitingForConnection] at done
      split at done
      · cases done
      · split at done <;> cases done
  | waitingForStream newStream proxy handle searched =>
      simp only [step, pollWaitingForStream] at done
      split at done <;> cases done
      rename_i opened
      rw [NewStreamFuture.poll_ready opened]
      obtain ⟨_, _, authentic, direct⟩ := sound
      refine ⟨authentic.stream, (fun absent => by cases absent), ?_⟩
      intro con dialled
      cases dialled
      exact authentic.direct direct
  | proxyStream proxy handle searched =>
      simp only [step, pollProxyStream] at done
      rcases sending_cases answers _ _ with same | ⟨reason, same⟩ <;> rw [same] at done <;>
        cases done
      refine ⟨Stream.new_authentic sound.2.1 sound.2.2 (fun direct => by cases direct),
        fun _ => sound.1, ?_⟩
      intro con dialled
      cases dialled

theorem CreateConnectionToPeer.found_transition {localPeer : PeerIdentifier}
    {result : RegistryResult} {next : CreateConnectionToPeer} (sound : result.Sound owner keys peer)
    (moved : found localPeer peer result = .transition next) : next.Sound owner keys peer := by
  cases result with
  | found stream => cases moved
  | foundWithHandle handle =>
      cases moved
      refine ⟨sound.1.newStream, ?_⟩
      rw [NewStreamHandle.newStream_identity]
      exact sound.2
  | foundRemote handle =>
      cases moved
      exact ⟨rfl, sound.localPeer, rfl⟩
  | notFound => cases moved

theorem CreateConnectionToPeer.found_ready {localPeer : PeerIdentifier} {result : RegistryResult}
    {stream : Stream} (find : FindPeer) (sound : result.Sound owner keys peer)
    (done : found localPeer peer result = .ready stream) :
    (Resolved.mk peer stream (Node.dialled (.findPeer find) stream)).Sound owner keys := by
  cases result with
  | found given =>
      cases done
      refine ⟨sound.1, (fun absent => by cases absent), ?_⟩
      intro con dialled
      cases dialled
      exact sound.1.direct sound.2
  | foundWithHandle handle => cases done
  | foundRemote handle => cases done
  | notFound => cases done

/-- What a poll of the search can find is sound if the providers' answers are. -/
theorem CreateConnectionToPeer.pollFindPeer_cases (localPeer : PeerIdentifier) {find : FindPeer}
    {completion : Option (Nat × Except Unit RegistryResult)}
    (sound : (findPeer find).Sound owner keys peer)
    (answer : ∀ index result, completion = some (index, .ok result) →
      result.Sound owner keys peer) :
    (∃ result, result.Sound owner keys peer ∧
      pollFindPeer localPeer peer find completion = found localPeer peer result) ∨
    (∃ left, pollFindPeer localPeer peer find completion =
      .transition (.findPeer (.searchRemoteRegistries left))) ∨
    (∀ next, pollFindPeer localPeer peer find completion ≠ .transition next) ∧
      ∀ stream, pollFindPeer localPeer peer find completion ≠ .ready stream := by
  cases find with
  | ready result => exact Or.inl ⟨result, sound, rfl⟩
  | searchRemoteRegistries futures =>
      cases turned : SearchRemoteRegistries.turn futures completion with
      | ready result =>
          refine Or.inl ⟨result, ?_, by simp only [pollFindPeer, turned]⟩
          rcases SearchRemoteRegistries.turn_ready turned with rfl | ⟨index, _, _, same⟩
          · trivial
          · exact answer index result same
      | transition left =>
          exact Or.inr (Or.inl ⟨left, by simp only [pollFindPeer, turned]⟩)
      | notReady =>
          refine Or.inr (Or.inr ⟨?_, ?_⟩) <;> intro _ same <;>
            simp only [pollFindPeer, turned, reduceCtorEq] at same
      | error reason =>
          refine Or.inr (Or.inr ⟨?_, ?_⟩) <;> intro _ same <;>
            simp only [pollFindPeer, turned, reduceCtorEq] at same
      | panic message =>
          refine Or.inr (Or.inr ⟨?_, ?_⟩) <;> intro _ same <;>
            simp only [pollFindPeer, turned, reduceCtorEq] at same

theorem CreateConnectionToPeer.step_transition {localPeer : PeerIdentifier}
    {stage next : CreateConnectionToPeer} {answers : BuildAnswers}
    {completion : Option (Nat × Except Unit RegistryResult)} (sound : stage.Sound owner keys peer)
    (answer : ∀ index result, completion = some (index, .ok result) → result.Sound owner keys peer)
    (attempt : ∀ index connection, answers.attempt = some (index, .ok connection) →
      ∃ number, connection.Authentic owner keys number)
    (moved : stage.step localPeer peer completion answers = .transition next) :
    next.Sound owner keys peer := by
  cases stage with
  | findPeer find =>
      change pollFindPeer _ _ _ _ = _ at moved
      rcases pollFindPeer_cases localPeer sound answer with
        ⟨result, resultSound, same⟩ | ⟨left, same⟩ | ⟨never, _⟩
      · rw [same] at moved
        exact found_transition resultSound moved
      · rw [same] at moved
        cases moved
        trivial
      · exact absurd moved (never next)
  | newStream future =>
      simp only [step, pollNewStream] at moved
      split at moved <;> cases moved
  | buildConnectionToPeer machine =>
      simp only [step, pollBuildConnectionToPeer] at moved
      split at moved <;> cases moved
      rename_i progressed
      exact BuildConnectionToPeer.step_transition sound attempt progressed

theorem CreateConnectionToPeer.step_ready {localPeer : PeerIdentifier}
    {stage : CreateConnectionToPeer} {answers : BuildAnswers} {stream : Stream}
    {completion : Option (Nat × Except Unit RegistryResult)} (sound : stage.Sound owner keys peer)
    (answer : ∀ index result, completion = some (index, .ok result) → result.Sound owner keys peer)
    (done : stage.step localPeer peer completion answers = .ready stream) :
    (Resolved.mk peer stream (Node.dialled stage stream)).Sound owner keys := by
  cases stage with
  | findPeer find =>
      change pollFindPeer _ _ _ _ = _ at done
      rcases pollFindPeer_cases localPeer sound answer with
        ⟨result, resultSound, same⟩ | ⟨left, same⟩ | ⟨_, never⟩
      · rw [same] at done
        exact found_ready find resultSound done
      · rw [same] at done
        cases done
      · exact absurd done (never stream)
  | newStream future =>
      simp only [step, pollNewStream] at done
      split at done <;> cases done
      rename_i opened
      rw [NewStreamFuture.poll_ready opened]
      exact ⟨sound.1.stream, fun _ => sound.2, fun con dialled => by cases dialled⟩
  | buildConnectionToPeer machine =>
      simp only [step, pollBuildConnectionToPeer] at done
      split at done <;> cases done
      rename_i finished
      exact BuildConnectionToPeer.step_ready sound finished

end

end HolePunch
