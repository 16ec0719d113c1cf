import HolePunch.Authenticity

set_option autoImplicit false

/- Peers that are connected with each other: where the hello of a new stream arrives, what the
peer in the middle makes of it, and what the two ends of a stream hold. -/
namespace HolePunch

/-- One end of a connection: a peer and its number for the connection. -/
abbrev End := PeerIdentifier × Nat

structure Links where
  other : End → End
  mutual_ : ∀ from_, other (other from_) = from_

abbrev Peers := PeerIdentifier → Node

/-- The peer runs the program under the identifier of its own certificate, and what it has
authenticated for a connection is the peer at the other end. -/
structure Honest (links : Links) (peers : Peers) (peer : PeerIdentifier) : Prop where
  reachable : ∃ authenticator registries events,
    peers peer = Transition.run Node.step (Node.init peer authenticator registries) events
  certified : ∀ number key, (peers peer).keys[number]? = some key →
    (links.other (peer, number)).1 = key

namespace Peers

/-- The hello of a new stream arrives at the other end of its connection. -/
def arrive (peers : Peers) (links : Links) (opener : PeerIdentifier) (future : NewStreamFuture) :
    PeerIdentifier × IncomingStream.Effect :=
  let other := links.other (opener, future.newStream.con)
  match (peers other.1).connections.connections[other.2]? with
  | none => (other.1, .nothing)
  | some connection =>
      (other.1, (connection.incomingStream.poll .notReady (.ready (some future.streamHello))).2)

/-- The peer whose context is given a new stream, and the stream it is given: by the peer that is
asked for it, or by the one that the peer in the middle asks in turn. -/
def deliver (peers : Peers) (links : Links) (opener : PeerIdentifier) (future : NewStreamFuture) :
    Option (PeerIdentifier × Stream) :=
  match peers.arrive links opener future with
  | (receiver, .passStream stream) => some (receiver, stream)
  | (middle, .handleProxyStream target _ helloMsg false) =>
      match handleProxyStream (peers middle).connections.registry target helloMsg with
      | none => none
      | some relayed =>
          match peers.arrive links middle relayed with
          | (receiver, .passStream stream) => some (receiver, stream)
          | _ => none
  | _ => none

end Peers

/-- A handle with which `owner` opens streams to `target`, directly or through the middle. -/
structure NewStreamHandle.Leads (links : Links) (middle owner target : PeerIdentifier)
    (handle : NewStreamHandle) : Prop where
  localPeer : handle.localPeerIdentifier = owner
  peer : handle.peerIdentifier = target
  direct : handle.proxyStream = false →
    (links.other (owner, handle.newStreamHandle.con)).1 = target
  relayed : handle.proxyStream = true →
    (links.other (owner, handle.newStreamHandle.con)).1 = middle

section

variable {links : Links} {peers : Peers} {owner middle receiver : PeerIdentifier}

theorem Honest.inv (honest : Honest links peers owner) : (peers owner).Inv owner := by
  obtain ⟨authenticator, registries, events, same⟩ := honest.reachable
  rw [same]
  exact Node.run_inv owner authenticator registries events

/-- The record of a connection names the peer at its other end. -/
theorem Honest.connection (honest : Honest links peers owner) {number : Nat}
    {connection : Connection}
    (found : (peers owner).connections.connections[number]? = some connection) :
    connection.Authentic owner (peers owner).keys number ∧
      connection.peerIdentifier = (links.other (owner, number)).1 := by
  have authentic := honest.inv.connection number connection found
  exact ⟨authentic, (honest.certified number connection.peerIdentifier authentic.key).symm⟩

/-- The registry leads to the peers it names. -/
theorem Honest.registry (honest : Honest links peers owner) {peer : PeerIdentifier}
    {handle : NewStreamHandle}
    (found : (peers owner).connections.registry.peer peer = some handle) :
    (links.other (owner, handle.newStreamHandle.con)).1 = peer :=
  honest.certified _ peer (Node.registry_key honest.inv found).1

/-- What arrives is handled by the connection at the other end. -/
theorem arrive_connection {opener : PeerIdentifier} {future : NewStreamFuture}
    {effect : IncomingStream.Effect}
    (arrives : peers.arrive links opener future = (receiver, effect))
    (handled : effect ≠ .nothing) :
    ∃ number connection, links.other (opener, future.newStream.con) = (receiver, number) ∧
      (peers receiver).connections.connections[number]? = some connection ∧
      (connection.incomingStream.poll .notReady (.ready (some future.streamHello))).2 = effect := by
  unfold Peers.arrive at arrives
  generalize reached : links.other (opener, future.newStream.con) = other at arrives
  obtain ⟨peer, number⟩ := other
  dsimp only at arrives
  split at arrives
  · cases arrives
    exact absurd rfl handled
  · rename_i connection found
    cases arrives
    exact ⟨number, connection, rfl, found, rfl⟩

/-- A user hello is passed on as a stream of the peer it names, which counts as proxied if that
is not the peer at the other end. -/
theorem arrive_user {opener peer : PeerIdentifier} {future : NewStreamFuture}
    {effect : IncomingStream.Effect} (honest : Honest links peers receiver)
    (hello : future.streamHello = .user peer)
    (arrives : peers.arrive links opener future = (receiver, effect))
    (handled : effect ≠ .nothing) :
    ∃ stream handle, effect =
        .passStream (Stream.new stream peer handle (decide (peer ≠ opener))) ∧
      handle.localPeerIdentifier = receiver ∧
      (links.other (receiver, handle.newStreamHandle.con)).1 = opener := by
  obtain ⟨number, connection, reached, found, passed⟩ := arrive_connection arrives handled
  obtain ⟨authentic, named⟩ := honest.connection found
  have back : links.other (receiver, number) = (opener, future.newStream.con) := by
    rw [← reached, links.mutual_]
  have own : connection.peerIdentifier = opener := by rw [named, back]
  rw [hello] at passed
  refine ⟨⟨connection.con.con⟩, connection.newStreamHandle, passed.symm.trans ?_,
    authentic.localPeer, ?_⟩
  · rw [← own]
    rfl
  · rw [authentic.handleCon, back]

/-- The peer in the middle announces the peer it has authenticated. -/
theorem arrive_userProxy {opener target : PeerIdentifier} {future : NewStreamFuture}
    {effect : IncomingStream.Effect} (honest : Honest links peers middle)
    (hello : future.streamHello = .userProxy target)
    (arrives : peers.arrive links opener future = (middle, effect)) (handled : effect ≠ .nothing) :
    ∃ stream, effect = .handleProxyStream target stream (.user opener) false := by
  obtain ⟨number, connection, reached, found, asked⟩ := arrive_connection arrives handled
  obtain ⟨_, named⟩ := honest.connection found
  have back : links.other (middle, number) = (opener, future.newStream.con) := by
    rw [← reached, links.mutual_]
  have own : connection.peerIdentifier = opener := by rw [named, back]
  rw [hello] at asked
  refine ⟨⟨connection.con.con⟩, asked.symm.trans ?_⟩
  rw [← own]
  rfl

/-- What a peer is given came to it from the opener itself or through the peer in the middle. -/
theorem deliver_cases {opener : PeerIdentifier} {future : NewStreamFuture} {stream : Stream}
    (delivered : peers.deliver links opener future = some (receiver, stream)) :
    peers.arrive links opener future = (receiver, .passStream stream) ∨
    ∃ middle target given helloMsg handle,
      peers.arrive links opener future =
        (middle, .handleProxyStream target given helloMsg false) ∧
      (peers middle).connections.registry.peer target = some handle ∧
      peers.arrive links middle (handle.newStreamWithHello helloMsg) =
        (receiver, .passStream stream) := by
  unfold Peers.deliver at delivered
  split at delivered
  · rename_i arrives
    cases delivered
    exact Or.inl arrives
  · rename_i asked target given helloMsg arrives
    split at delivered
    · cases delivered
    · rename_i relayed opened
      obtain ⟨handle, found, rfl⟩ := Option.map_eq_some_iff.mp opened
      split at delivered
      · rename_i passed
        cases delivered
        exact Or.inr ⟨asked, target, given, helloMsg, handle, arrives, found, passed⟩
      · cases delivered
  · cases delivered

theorem arrive_receiver (links : Links) (peers : Peers) (opener : PeerIdentifier)
    (future : NewStreamFuture) :
    (peers.arrive links opener future).1 = (links.other (opener, future.newStream.con)).1 := by
  unfold Peers.arrive
  dsimp only
  split <;> rfl

/-- A stream made for a user hello leads back to the peer that the hello names. -/
theorem leads_back {opener peer : PeerIdentifier} {stream : Strategies.Stream}
    {handle : NewStreamHandle} (localPeer : handle.localPeerIdentifier = receiver)
    (back : (links.other (receiver, handle.newStreamHandle.con)).1 = opener)
    (known : opener = peer ∨ opener = middle) :
    (Stream.new stream peer handle (decide (peer ≠ opener))).newStreamHandle.Leads links middle
      receiver peer where
  localPeer := localPeer
  peer := rfl
  direct := by
    intro direct
    simp only [Stream.new, NewStreamHandle.setProxyStream, decide_eq_false_iff_not, ne_eq,
      not_not] at direct
    exact back.trans direct.symm
  relayed := by
    intro relayed
    simp only [Stream.new, NewStreamHandle.setProxyStream, decide_eq_true_eq, ne_eq] at relayed
    rcases known with same | same
    · exact absurd same.symm relayed
    · exact back.trans same

/-- A stream that a handle opens comes to the peer the handle names, which takes it for a stream
of the owner and knows the same about how it runs. -/
theorem deliver_leads {target : PeerIdentifier} {handle : NewStreamHandle} {stream : Stream}
    (leads : handle.Leads links middle owner target) (apart : owner ≠ middle)
    (honestMiddle : Honest links peers middle)
    (delivered : peers.deliver links owner handle.newStream = some (receiver, stream)) :
    receiver = target ∧ (Honest links peers receiver → stream.peerIdentifier = owner ∧
      stream.isProxyStream = handle.proxyStream ∧
      stream.newStreamHandle.Leads links middle receiver owner) := by
  have first := arrive_receiver links peers owner handle.newStream
  cases proxied : handle.proxyStream with
  | false =>
      have hello : handle.newStream.streamHello = .user owner := by
        simp only [NewStreamHandle.newStream, proxied, leads.localPeer, Bool.false_eq_true,
          ↓reduceIte]
      rw [show (links.other (owner, handle.newStream.newStream.con)).1 = target from
        leads.direct proxied] at first
      rcases deliver_cases delivered with arrives | ⟨_, _, _, _, _, arrives, _⟩
      · rw [arrives] at first
        refine ⟨first, ?_⟩
        intro honest
        obtain ⟨given, own, same, localPeer, back⟩ := arrive_user honest hello arrives (by simp)
        cases same
        exact ⟨rfl, by simp [Stream.new], leads_back localPeer back (Or.inl rfl)⟩
      · obtain ⟨_, _, _, _, passed⟩ := arrive_connection arrives (by simp)
        rw [hello] at passed
        cases passed
  | true =>
      have hello : handle.newStream.streamHello = .userProxy target := by
        simp only [NewStreamHandle.newStream, proxied, leads.peer, ↓reduceIte]
      rw [show (links.other (owner, handle.newStream.newStream.con)).1 = middle from
        leads.relayed proxied] at first
      rcases deliver_cases delivered with
        arrives | ⟨between, _, _, _, onward, arrives, found, passed⟩
      · rw [arrives] at first
        subst first
        obtain ⟨_, same⟩ := arrive_userProxy honestMiddle hello arrives (by simp)
        cases same
      · rw [arrives] at first
        subst first
        obtain ⟨_, same⟩ := arrive_userProxy honestMiddle hello arrives (by simp)
        cases same
        have second := arrive_receiver links peers between (onward.newStreamWithHello (.user owner))
        rw [passed] at second
        refine ⟨second.trans (honestMiddle.registry found), ?_⟩
        intro honest
        obtain ⟨given, own, same, localPeer, back⟩ := arrive_user honest rfl passed (by simp)
        cases same
        exact ⟨rfl, by simp [Stream.new, apart], leads_back localPeer back (Or.inr rfl)⟩

end

/-- The stream that `a` has opened and the one that `b` was given for it, and the streams of all
later openings by either of them on the handle of a stream of the opening before. The peers may
have moved on between two openings. -/
inductive Linked (links : Links) (a b middle : PeerIdentifier) :
    PeerIdentifier × Stream → PeerIdentifier × Stream → Prop where
  | opened {peers : Peers} {from_ : Node.Source} {handle : NewStreamHandle} {mine theirs : Stream}
      {opened flushed : Poll Unit}
      (honest : ∀ peer ∈ [a, b, middle], Honest links peers peer)
      (held : (peers a).source from_ = some handle)
      (relay : handle.proxyStream = true →
        (links.other (a, handle.newStreamHandle.con)).1 = middle)
      (resolves : handle.newStream.poll opened flushed = .ok (.ready mine))
      (delivered : peers.deliver links a handle.newStream = some (b, theirs)) :
      Linked links a b middle (a, mine) (b, theirs)
  | again {left right : PeerIdentifier × Stream} {peers : Peers} {receiver : PeerIdentifier}
      {mine theirs : Stream} {opened flushed : Poll Unit}
      (previous : Linked links a b middle left right)
      (honest : ∀ peer ∈ [a, b, middle], Honest links peers peer)
      (resolves : left.2.newStreamHandle.newStream.poll opened flushed = .ok (.ready mine))
      (delivered : peers.deliver links left.1 left.2.newStreamHandle.newStream =
        some (receiver, theirs)) :
      Linked links a b middle (left.1, mine) (receiver, theirs)
  | back {left right : PeerIdentifier × Stream} {peers : Peers} {receiver : PeerIdentifier}
      {mine theirs : Stream} {opened flushed : Poll Unit}
      (previous : Linked links a b middle left right)
      (honest : ∀ peer ∈ [a, b, middle], Honest links peers peer)
      (resolves : right.2.newStreamHandle.newStream.poll opened flushed = .ok (.ready mine))
      (delivered : peers.deliver links right.1 right.2.newStreamHandle.newStream =
        some (receiver, theirs)) :
      Linked links a b middle (right.1, mine) (receiver, theirs)

/-- Both ends of a stream know each other, and how the stream runs; so will those of the streams
opened on their handles. -/
structure Agree (links : Links) (middle : PeerIdentifier) (left right : PeerIdentifier × Stream) :
    Prop where
  leftPeer : left.2.peerIdentifier = right.1
  rightPeer : right.2.peerIdentifier = left.1
  isProxyStream : left.2.isProxyStream = right.2.isProxyStream
  leftHandle : left.2.newStreamHandle.Leads links middle left.1 right.1
  rightHandle : right.2.newStreamHandle.Leads links middle right.1 left.1

section

variable {links : Links} {middle : PeerIdentifier}

theorem Agree.symm {left right : PeerIdentifier × Stream} (agree : Agree links middle left right) :
    Agree links middle right left :=
  ⟨agree.rightPeer, agree.leftPeer, agree.isProxyStream.symm, agree.rightHandle, agree.leftHandle⟩

/-- The stream a handle opens has a handle that leads to the same peer in the same way. -/
theorem NewStreamHandle.Leads.stream {owner target : PeerIdentifier} {handle : NewStreamHandle}
    (leads : handle.Leads links middle owner target) {opened flushed : Poll Unit} {mine : Stream}
    (resolves : handle.newStream.poll opened flushed = .ok (.ready mine)) :
    mine.peerIdentifier = target ∧ mine.isProxyStream = handle.proxyStream ∧
      mine.newStreamHandle.Leads links middle owner target := by
  have same : mine = Stream.new ⟨handle.newStreamHandle.con⟩ handle.peerIdentifier handle
      handle.proxyStream := by
    rw [NewStreamFuture.poll_ready resolves, NewStreamFuture.stream,
      NewStreamHandle.newStream_identity]
    rfl
  subst same
  exact ⟨leads.peer, rfl, leads.localPeer, leads.peer, leads.direct, leads.relayed⟩

theorem agree_of_deliver {peers : Peers} {owner target receiver : PeerIdentifier}
    {handle : NewStreamHandle} {mine theirs : Stream} {opened flushed : Poll Unit}
    (leads : handle.Leads links middle owner target) (apart : owner ≠ middle)
    (honestMiddle : Honest links peers middle)
    (resolves : handle.newStream.poll opened flushed = .ok (.ready mine))
    (delivered : peers.deliver links owner handle.newStream = some (receiver, theirs)) :
    receiver = target ∧
      (Honest links peers receiver → Agree links middle (owner, mine) (receiver, theirs)) := by
  obtain ⟨same, received⟩ := deliver_leads leads apart honestMiddle delivered
  refine ⟨same, ?_⟩
  subst same
  intro honest
  obtain ⟨named, isProxyStream, rightHandle⟩ := received honest
  obtain ⟨peer, proxied, leftHandle⟩ := leads.stream resolves
  exact ⟨peer, named, proxied.trans isProxyStream.symm, leftHandle, rightHandle⟩

theorem source_leads {peers : Peers} {owner : PeerIdentifier} (honest : Honest links peers owner)
    {from_ : Node.Source} {handle : NewStreamHandle}
    (held : (peers owner).source from_ = some handle)
    (relay : handle.proxyStream = true →
      (links.other (owner, handle.newStreamHandle.con)).1 = middle) :
    handle.Leads links middle owner handle.peerIdentifier := by
  have authentic := Node.source_authentic honest.inv from_ handle held
  refine ⟨authentic.localPeer, rfl, ?_, relay⟩
  intro direct
  exact honest.certified _ _ (authentic.direct direct)

/-- An opening at one of two agreeing ends comes to the other one, and they agree again. -/
theorem Agree.again {a b : PeerIdentifier} {peers : Peers} {left right : PeerIdentifier × Stream}
    {receiver : PeerIdentifier} {mine theirs : Stream} {opened flushed : Poll Unit}
    (apartA : a ≠ middle) (apartB : b ≠ middle)
    (ends : left.1 = a ∧ right.1 = b ∨ left.1 = b ∧ right.1 = a)
    (agree : Agree links middle left right)
    (honest : ∀ peer ∈ [a, b, middle], Honest links peers peer)
    (resolves : left.2.newStreamHandle.newStream.poll opened flushed = .ok (.ready mine))
    (delivered : peers.deliver links left.1 left.2.newStreamHandle.newStream =
      some (receiver, theirs)) :
    (left.1 = a ∧ receiver = b ∨ left.1 = b ∧ receiver = a) ∧
      Agree links middle (left.1, mine) (receiver, theirs) := by
  have apart : left.1 ≠ middle := by
    rcases ends with ⟨same, _⟩ | ⟨same, _⟩ <;> rw [same] <;> assumption
  have known : right.1 ∈ [a, b, middle] := by
    rcases ends with ⟨_, same⟩ | ⟨_, same⟩ <;> simp [same]
  obtain ⟨rfl, received⟩ :=
    agree_of_deliver agree.leftHandle apart (honest middle (by simp)) resolves delivered
  exact ⟨ends, received (honest right.1 known)⟩

theorem Linked.agree {a b : PeerIdentifier} (apartA : a ≠ middle) (apartB : b ≠ middle)
    {left right : PeerIdentifier × Stream} (linked : Linked links a b middle left right) :
    (left.1 = a ∧ right.1 = b ∨ left.1 = b ∧ right.1 = a) ∧ Agree links middle left right := by
  induction linked with
  | opened honest held relay resolves delivered =>
      have leads := source_leads (honest a (by simp)) held relay
      obtain ⟨_, received⟩ :=
        agree_of_deliver leads apartA (honest middle (by simp)) resolves delivered
      exact ⟨Or.inl ⟨rfl, rfl⟩, received (honest b (by simp))⟩
  | again previous honest resolves delivered ih =>
      have next := ih.2.again apartA apartB ih.1 honest resolves delivered
      exact next
  | back previous honest resolves delivered ih =>
      have ends := ih.1.symm.imp And.symm And.symm
      have next := ih.2.symm.again apartA apartB ends honest resolves delivered
      exact next

/-- However a stream between two honest peers was opened, and at the end of whatever chain of
openings at either end, each of the two takes the other for its peer, and both know whether the
stream is direct. -/
theorem both_ends_agree {a b : PeerIdentifier} (apartA : a ≠ middle) (apartB : b ≠ middle)
    {left right : PeerIdentifier × Stream} (linked : Linked links a b middle left right) :
    (left.1 = a ∧ right.1 = b ∨ left.1 = b ∧ right.1 = a) ∧
      left.2.peerIdentifier = right.1 ∧ right.2.peerIdentifier = left.1 ∧
      left.2.isP2p = right.2.isP2p := by
  obtain ⟨ends, agree⟩ := linked.agree apartA apartB
  refine ⟨ends, agree.leftPeer, agree.rightPeer, ?_⟩
  simp only [Stream.isP2p, agree.isProxyStream]

end

section

open Connections (alice bob handshake)
open Node (carol)

/-- Alice and bob are both connected with carol only. -/
def star : Links where
  other from_ :=
    if from_ = (alice, 0) then (carol, 0)
    else if from_ = (carol, 0) then (alice, 0)
    else if from_ = (bob, 0) then (carol, 1)
    else if from_ = (carol, 1) then (bob, 0)
    else from_
  mutual_ := by
    intro from_
    by_cases first : from_ = (alice, 0)
    · subst first
      decide
    · by_cases second : from_ = (carol, 0)
      · subst second
        decide
      · by_cases third : from_ = (bob, 0)
        · subst third
          decide
        · by_cases fourth : from_ = (carol, 1)
          · subst fourth
            decide
          · simp only [if_neg first, if_neg second, if_neg third, if_neg fourth]

/-- Carol holds both connections, and alice has been given a stream of bob's through her. -/
def starEvents (peer : PeerIdentifier) : List Node.Event :=
  if peer = carol then
    [.verify (handshake 1 alice), .accept 1, .verify (handshake 2 bob), .accept 2]
  else if peer = alice then
    [.verify (handshake 1 carol), .accept 1,
      .incomingStream 0 .notReady (.ready (some (.user bob)))]
  else [.verify (handshake 1 carol), .accept 1]

def starPeers : Peers := fun peer =>
  Transition.run Node.step (Node.init peer (Authenticator.new false false) []) (starEvents peer)

theorem starPeers_honest : ∀ peer ∈ [alice, bob, carol], Honest star starPeers peer := by
  have certified : ∀ peer ∈ [alice, bob, carol], (starPeers peer).keys.zipIdx.all
      (fun entry => (star.other (peer, entry.2)).1 = entry.1) = true := by decide
  intro peer member
  refine ⟨⟨_, _, _, rfl⟩, ?_⟩
  intro number key found
  have entry : (key, number) ∈ (starPeers peer).keys.zipIdx :=
    List.mk_mem_zipIdx_iff_getElem?.mpr found
  simpa using List.all_eq_true.mp (certified peer member) _ entry

/-- Alice opens a stream to bob through carol, and bob one back to her on the handle of his. -/
theorem both_ends_agree_star :
    let mine := Stream.new ⟨0⟩ bob (NewStreamHandle.new carol alice ⟨0⟩) true
    let theirs := Stream.new ⟨0⟩ alice (NewStreamHandle.new carol bob ⟨0⟩) true
    starPeers.deliver star bob theirs.newStreamHandle.newStream = some (alice, mine) ∧
      theirs.peerIdentifier = alice ∧ mine.peerIdentifier = bob ∧ theirs.isP2p = mine.isP2p := by
  intro mine theirs
  have held : (starPeers alice).source (.context 0) = some mine.newStreamHandle := by decide
  have resolves : mine.newStreamHandle.newStream.poll (.ready ()) (.ready ()) =
      .ok (.ready mine) := rfl
  have delivered : starPeers.deliver star alice mine.newStreamHandle.newStream =
      some (bob, theirs) := by decide
  have opened : Linked star alice bob carol (alice, mine) (bob, theirs) :=
    .opened starPeers_honest held (fun _ => by decide) resolves delivered
  have answers : theirs.newStreamHandle.newStream.poll (.ready ()) (.ready ()) =
      .ok (.ready theirs) := rfl
  have returned : starPeers.deliver star bob theirs.newStreamHandle.newStream =
      some (alice, mine) := by decide
  have back : Linked star alice bob carol (bob, theirs) (alice, mine) :=
    .back opened starPeers_honest answers returned
  obtain ⟨_, agree⟩ := both_ends_agree (by decide) (by decide) back
  exact ⟨returned, agree⟩

end

end HolePunch
