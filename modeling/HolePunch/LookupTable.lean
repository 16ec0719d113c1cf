import HolePunch.LookupSession

set_option autoImplicit false

/- The invariant of remote lookups, which questions and answers are under way and who completes a
sender and why, and that the client keeps it when it connects, takes requests and ends. -/
namespace HolePunch.Remote

open LookupSession (Event asksFor)

/-- A sender waits in a table for the answer about a peer. -/
def Waits (requests : Requests) (peer : PeerIdentifier) (sender : ResultSender) : Prop :=
  ∃ senders, requests peer = some senders ∧ sender ∈ senders

theorem waits_update_some {requests : Requests} {peer other : PeerIdentifier}
    {senders : List ResultSender} {sender : ResultSender}
    (waits : Waits (Function.update requests peer (some senders)) other sender) :
    (other = peer ∧ sender ∈ senders) ∨ Waits requests other sender := by
  obtain ⟨found, entry, member⟩ := waits
  by_cases same : other = peer
  · subst same
    rw [Function.update_self] at entry
    cases entry
    exact Or.inl ⟨rfl, member⟩
  · rw [Function.update_of_ne same] at entry
    exact Or.inr ⟨found, entry, member⟩

theorem waits_update_none {requests : Requests} {peer other : PeerIdentifier}
    {sender : ResultSender} (waits : Waits (Function.update requests peer none) other sender) :
    other ≠ peer ∧ Waits requests other sender := by
  obtain ⟨found, entry, member⟩ := waits
  by_cases same : other = peer
  · subst same
    rw [Function.update_self] at entry
    cases entry
  · rw [Function.update_of_ne same] at entry
    exact ⟨same, found, entry, member⟩

/-- The connection after a request has joined its table. -/
def Link.enter (link : Link) (peer : PeerIdentifier) (sender : ResultSender) : Link :=
  { link with client := { link.client with
    requests := Function.update link.client.requests peer
      (some ((link.client.requests peer).getD [] ++ [sender])) } }

/-- The connection after a question about a peer has been sent. -/
def Link.ask (link : Link) (peer : PeerIdentifier) : Link :=
  { link with toServer := link.toServer ++ [.find peer] }

/-- The peer that a message of the server is the answer about. -/
def answersFor : RegistryProtocol → Option PeerIdentifier
  | .found peer => some peer
  | .notFound peer => some peer
  | _ => none

/-- The connection after the requests for a peer have been answered. -/
def Link.settle (link : Link) (peer : PeerIdentifier) (rest : List RegistryProtocol) : Link :=
  { link with
    client := { link.client with requests := Function.update link.client.requests peer none }
    toClient := rest }

theorem answers_count (message : RegistryProtocol) (peer : PeerIdentifier) :
    (if (message == .found peer) = true then 1 else 0) +
        (if (message == .notFound peer) = true then 1 else 0) =
      if answersFor message = some peer then 1 else 0 := by
  cases message with
  | find other => simp [answersFor]
  | ping => simp [answersFor]
  | pong => simp [answersFor]
  | found other => simp [answersFor]
  | notFound other => simp [answersFor]

theorem underWay_read (link : Link) {message : RegistryProtocol} {rest : List RegistryProtocol}
    (read : link.toClient = message :: rest) (peer : PeerIdentifier) :
    link.underWay peer = Link.underWay { link with toClient := rest } peer +
      if answersFor message = some peer then 1 else 0 := by
  have counted := answers_count message peer
  simp only [Link.underWay, read, List.count_cons]
  omega

namespace LookupSession

variable {s s' : LookupSession}

def completedSenders (s : LookupSession) : List ResultSender :=
  s.completed.map (fun done => done.2.1)

/-- Why a connection may answer the request for a peer: it leads to the peer, or the server has
looked the peer up for a question sent on this connection. -/
def Knows (s : LookupSession) (number : Nat) (peer : PeerIdentifier) : RegistryResult → Prop
  | .foundWithHandle _ => s.connected[number]? = some peer
  | .foundRemote _ => (number, peer, true) ∈ s.evaluated ∧ (number, peer) ∈ s.finds
  | .notFound => (number, peer, false) ∈ s.evaluated ∧ (number, peer) ∈ s.finds
  | .found _ => False

def Justified (s : LookupSession) (done : Nat × ResultSender × RegistryResult) : Prop :=
  ∃ peer, (peer, done.2.1) ∈ s.taken ∧ s.Knows done.1 peer done.2.2

/-- A sender that can still be completed. -/
def Unanswered (s : LookupSession) (sender : ResultSender) : Prop :=
  sender ∉ s.completedSenders ∧
    ∀ requests ∈ s.discarded, ∀ peer, ¬ Waits requests peer sender

/-- What holds of the requests and of the record of a run, whatever the connection. -/
structure Sound (s : LookupSession) : Prop where
  order : s.taken ++ s.findPeerRequest = s.asked.zipIdx
  once : s.completedSenders.Nodup
  justified : ∀ done ∈ s.completed, s.Justified done
  dropped : ∀ requests ∈ s.discarded, ∀ peer sender, Waits requests peer sender →
    (peer, sender) ∈ s.taken ∧ sender ∉ s.completedSenders

/-- What holds of the connection of the moment. -/
structure LinkSound (s : LookupSession) (link : Link) : Prop where
  number : s.connected[link.number]? = some link.client.peerIdentifier
  single : ∀ peer, link.underWay peer ≤ 1
  expected : ∀ peer, link.underWay peer = 1 → link.client.requests peer ≠ none
  found : ∀ peer, .found peer ∈ link.toClient →
    (link.number, peer, true) ∈ s.evaluated ∧ (link.number, peer) ∈ s.finds
  notFound : ∀ peer, .notFound peer ∈ link.toClient →
    (link.number, peer, false) ∈ s.evaluated ∧ (link.number, peer) ∈ s.finds
  sent : ∀ peer, .find peer ∈ link.toServer → (link.number, peer) ∈ s.finds
  distinct : ∀ peer senders, link.client.requests peer = some senders → senders.Nodup
  held : ∀ peer sender, Waits link.client.requests peer sender →
    (peer, sender) ∈ s.taken ∧ s.Unanswered sender

structure Inv (s : LookupSession) : Prop where
  sound : s.Sound
  link : ∀ link, s.link = some link → s.LinkSound link

/-- The record only grows. -/
structure Grows (s s' : LookupSession) : Prop where
  taken : s.taken ⊆ s'.taken
  connected : s.connected <+: s'.connected
  finds : s.finds ⊆ s'.finds
  evaluated : s.evaluated ⊆ s'.evaluated

theorem grows_of_same (taken : s'.taken = s.taken) (connected : s'.connected = s.connected)
    (finds : s'.finds = s.finds) (evaluated : s'.evaluated = s.evaluated) : s.Grows s' := by
  refine ⟨?_, ⟨[], ?_⟩, ?_, ?_⟩
  · intro request member
    rw [taken]
    exact member
  · rw [connected, List.append_nil]
  · intro find member
    rw [finds]
    exact member
  · intro lookup member
    rw [evaluated]
    exact member

theorem connected_mono (grows : s.Grows s') {number : Nat} {peer : PeerIdentifier}
    (known : s.connected[number]? = some peer) : s'.connected[number]? = some peer := by
  obtain ⟨later, same⟩ := grows.connected
  rw [← same, List.getElem?_append_left (List.getElem?_eq_some_iff.mp known).1]
  exact known

theorem Justified.mono {done : Nat × ResultSender × RegistryResult} (justified : s.Justified done)
    (grows : s.Grows s') : s'.Justified done := by
  obtain ⟨peer, taken, reason⟩ := justified
  refine ⟨peer, grows.taken taken, ?_⟩
  obtain ⟨number, sender, result⟩ := done
  cases result with
  | found stream => exact reason
  | foundWithHandle handle => exact connected_mono grows reason
  | foundRemote handle => exact ⟨grows.evaluated reason.1, grows.finds reason.2⟩
  | notFound => exact ⟨grows.evaluated reason.1, grows.finds reason.2⟩

/-- A step that neither completes nor drops senders keeps what holds of them. -/
theorem Sound.mono (sound : s.Sound) (grows : s.Grows s') (completed : s'.completed = s.completed)
    (discarded : s'.discarded = s.discarded)
    (order : s'.taken ++ s'.findPeerRequest = s'.asked.zipIdx) : s'.Sound := by
  have senders : s'.completedSenders = s.completedSenders := by
    unfold completedSenders
    rw [completed]
  refine ⟨order, ?_, ?_, ?_⟩
  · rw [senders]
    exact sound.once
  · intro done member
    rw [completed] at member
    exact (sound.justified done member).mono grows
  · intro requests member peer sender waits
    rw [discarded] at member
    obtain ⟨taken, unanswered⟩ := sound.dropped requests member peer sender waits
    rw [senders]
    exact ⟨grows.taken taken, unanswered⟩

theorem LinkSound.mono {link : Link} (sound : s.LinkSound link) (grows : s.Grows s')
    (completed : s'.completed = s.completed) (discarded : s'.discarded = s.discarded) :
    s'.LinkSound link where
  number := connected_mono grows sound.number
  single := sound.single
  expected := sound.expected
  found peer member := ⟨grows.evaluated (sound.found peer member).1,
    grows.finds (sound.found peer member).2⟩
  notFound peer member := ⟨grows.evaluated (sound.notFound peer member).1,
    grows.finds (sound.notFound peer member).2⟩
  sent peer member := grows.finds (sound.sent peer member)
  distinct := sound.distinct
  held peer sender waits := by
    obtain ⟨taken, unanswered⟩ := sound.held peer sender waits
    refine ⟨grows.taken taken, ?_⟩
    unfold Unanswered completedSenders
    rw [completed, discarded]
    exact unanswered

theorem Sound.asked (sound : s.Sound) {peer : PeerIdentifier} {sender : ResultSender}
    (taken : (peer, sender) ∈ s.taken) : s.asked[sender]? = some peer := by
  have member : (peer, sender) ∈ s.asked.zipIdx := by
    rw [← sound.order]
    exact List.mem_append_left _ taken
  exact List.mem_zipIdx_iff_getElem?.mp member

/-- A sender is asked for one peer only. -/
theorem Sound.peer_unique (sound : s.Sound) {peer other : PeerIdentifier} {sender : ResultSender}
    (taken : (peer, sender) ∈ s.taken) (also : (other, sender) ∈ s.taken) : peer = other := by
  have first := sound.asked taken
  rw [sound.asked also] at first
  exact (Option.some.inj first).symm

/-- The senders of the requests that wait in the receiver are new to the connections. -/
theorem Sound.fresh (sound : s.Sound) {peer : PeerIdentifier} {sender : ResultSender}
    {rest : List (PeerIdentifier × ResultSender)}
    (waiting : s.findPeerRequest = (peer, sender) :: rest) (other : PeerIdentifier) :
    (other, sender) ∉ s.taken := by
  have senders : (s.asked.zipIdx.map Prod.snd).Nodup := by
    rw [List.zipIdx_map_snd]
    exact List.nodup_range'
  rw [← sound.order, waiting, List.map_append, List.map_cons] at senders
  intro taken
  have before : sender ∈ s.taken.map Prod.snd := List.mem_map_of_mem taken
  exact (List.nodup_append.mp senders).2.2 sender before sender List.mem_cons_self rfl

theorem Sound.completed_taken (sound : s.Sound) {sender : ResultSender}
    (completed : sender ∈ s.completedSenders) : ∃ peer, (peer, sender) ∈ s.taken := by
  obtain ⟨done, member, rfl⟩ := List.mem_map.mp completed
  obtain ⟨peer, taken, _⟩ := sound.justified done member
  exact ⟨peer, taken⟩

theorem Sound.fresh_unanswered (sound : s.Sound) {peer : PeerIdentifier} {sender : ResultSender}
    {rest : List (PeerIdentifier × ResultSender)}
    (waiting : s.findPeerRequest = (peer, sender) :: rest) : s.Unanswered sender := by
  constructor
  · intro completed
    obtain ⟨other, taken⟩ := sound.completed_taken completed
    exact sound.fresh waiting other taken
  · intro requests member other waits
    exact sound.fresh waiting other (sound.dropped requests member other sender waits).1

/-- Completing senders that are unanswered, each once and for a reason. -/
theorem Sound.complete (sound : s.Sound) (number : Nat)
    (done : List (ResultSender × RegistryResult)) (distinct : (done.map Prod.fst).Nodup)
    (unanswered : ∀ sender ∈ done.map Prod.fst, s.Unanswered sender)
    (justified : ∀ result ∈ done, s.Justified (number, result)) :
    Sound { s with completed := s.completed ++ done.map (fun result => (number, result)) } := by
  have senders : completedSenders
      { s with completed := s.completed ++ done.map (fun result => (number, result)) } =
        s.completedSenders ++ done.map Prod.fst := by
    simp only [completedSenders, List.map_append, List.map_map, Function.comp_def]
  refine ⟨sound.order, ?_, ?_, ?_⟩
  · rw [senders, List.nodup_append]
    refine ⟨sound.once, distinct, ?_⟩
    intro sender completed other member same
    subst same
    exact (unanswered sender member).1 completed
  · intro result member
    rcases List.mem_append.mp member with before | now
    · exact (sound.justified result before).mono (grows_of_same rfl rfl rfl rfl)
    · obtain ⟨given, listed, rfl⟩ := List.mem_map.mp now
      exact (justified given listed).mono (grows_of_same rfl rfl rfl rfl)
  · intro requests member peer sender waits
    obtain ⟨taken, still⟩ := sound.dropped requests member peer sender waits
    refine ⟨taken, ?_⟩
    rw [senders, List.mem_append, not_or]
    exact ⟨still, fun now => (unanswered sender now).2 requests member peer waits⟩

/-- Dropping a table whose senders are unanswered. -/
theorem Sound.discard (sound : s.Sound) {requests : Requests}
    (held : ∀ peer sender, Waits requests peer sender →
      (peer, sender) ∈ s.taken ∧ s.Unanswered sender) : (s.discard requests).Sound := by
  refine ⟨sound.order, sound.once, ?_, ?_⟩
  · intro done member
    exact (sound.justified done member).mono (grows_of_same rfl rfl rfl rfl)
  · intro other member peer sender waits
    rcases List.mem_append.mp member with before | now
    · exact sound.dropped other before peer sender waits
    · rw [List.mem_singleton.mp now] at waits
      obtain ⟨taken, unanswered⟩ := held peer sender waits
      exact ⟨taken, unanswered.1⟩

theorem Inv.discard (inv : s.Inv) {link : Link} (current : s.link = some link) :
    (s.discard link.client.requests).Inv :=
  ⟨inv.sound.discard (inv.link link current).held, fun _ none => by cases none⟩

theorem init_inv : init.Inv :=
  ⟨⟨rfl, List.nodup_nil, (fun _ member => by cases member), (fun _ member => by cases member)⟩,
    fun _ none => by cases none⟩

theorem request_inv (inv : s.Inv) (peer : PeerIdentifier) : (s.step (.request peer)).Inv := by
  have grows : s.Grows (s.step (.request peer)) := grows_of_same rfl rfl rfl rfl
  refine ⟨inv.sound.mono grows rfl rfl ?_, fun link current => ?_⟩
  · change s.taken ++ (s.findPeerRequest ++ [(peer, s.asked.length)]) = (s.asked ++ [peer]).zipIdx
    rw [← List.append_assoc, inv.sound.order, List.zipIdx_append, Nat.zero_add]
    rfl
  · exact (inv.link link current).mono grows rfl rfl

theorem cancel_inv (inv : s.Inv) (sender : ResultSender) : (s.step (.cancel sender)).Inv := by
  have grows : s.Grows (s.step (.cancel sender)) := grows_of_same rfl rfl rfl rfl
  exact ⟨inv.sound.mono grows rfl rfl inv.sound.order,
    fun link current => (inv.link link current).mono grows rfl rfl⟩

theorem connect_inv (inv : s.Inv) (stream : Stream) : (s.step (.connect stream)).Inv := by
  simp only [step]
  cases current : s.link with
  | some link => exact inv
  | none =>
      have grows : s.Grows (s.step (.connect stream)) := by
        simp only [step, current]
        exact ⟨fun _ => id, List.prefix_append _ _, fun _ => id, fun _ => id⟩
      simp only [step, current] at grows
      refine ⟨inv.sound.mono grows rfl rfl inv.sound.order, ?_⟩
      rintro link ⟨⟩
      refine ⟨?_, ?_, ?_, ?_, ?_, ?_, ?_, ?_⟩
      · simp [OutgoingStream.new]
      · intro peer
        simp [Link.underWay]
      · intro peer
        simp [Link.underWay]
      · intro peer member
        cases member
      · intro peer member
        cases member
      · intro peer member
        cases member
      · intro peer senders entry
        cases entry
      · rintro peer sender ⟨senders, entry, _⟩
        cases entry

theorem serverEnds_inv (inv : s.Inv) : (s.step .serverEnds).Inv := by
  simp only [step]
  cases current : s.link with
  | none => exact inv
  | some link =>
      have sound := inv.link link current
      refine ⟨inv.sound.mono (grows_of_same rfl rfl rfl rfl) rfl rfl inv.sound.order, ?_⟩
      rintro other ⟨⟩
      exact ⟨sound.number, sound.single, sound.expected, sound.found, sound.notFound, sound.sent,
        sound.distinct, sound.held⟩

theorem clientEnds_inv (inv : s.Inv) : (s.step .clientEnds).Inv := by
  simp only [step]
  cases current : s.link with
  | none => exact inv
  | some link => exact inv.discard current

theorem ping_inv (inv : s.Inv) (send : SendPoll) : (s.step (.ping send)).Inv := by
  simp only [step, ping]
  cases current : s.link with
  | none => exact inv
  | some link =>
      have sound := inv.link link current
      cases send with
      | refused => exact inv
      | error reason => exact inv.discard current
      | accepted =>
          have grows : s.Grows (s.proceed link { sent := [.ping] }) :=
            ⟨fun _ => id, List.prefix_refl _, fun _ => List.mem_append_left _, fun _ => id⟩
          refine ⟨inv.sound.mono grows (List.append_nil _) rfl inv.sound.order, ?_⟩
          rintro other ⟨⟩
          have kept := sound.mono grows (List.append_nil _) rfl
          have same : ∀ peer,
              Link.underWay { link with toServer := link.toServer ++ [.ping] } peer =
                link.underWay peer := by
            intro peer
            simp [Link.underWay]
          refine ⟨kept.number, ?_, ?_, kept.found, kept.notFound, ?_, kept.distinct, kept.held⟩
          · intro peer
            rw [same]
            exact sound.single peer
          · intro peer under
            rw [same] at under
            exact sound.expected peer under
          · intro peer member
            rcases List.mem_append.mp member with before | now
            · exact kept.sent peer before
            · cases List.mem_singleton.mp now

/-- Completing senders that do not wait in the table of the connection. -/
theorem LinkSound.complete {link : Link} (sound : s.LinkSound link) (number : Nat)
    (done : List (ResultSender × RegistryResult))
    (apart : ∀ peer sender, Waits link.client.requests peer sender → sender ∉ done.map Prod.fst) :
    LinkSound { s with completed := s.completed ++ done.map (fun result => (number, result)) }
      link := by
  refine ⟨sound.number, sound.single, sound.expected, sound.found, sound.notFound, sound.sent,
    sound.distinct, ?_⟩
  intro peer sender waits
  obtain ⟨taken, unanswered⟩ := sound.held peer sender waits
  refine ⟨taken, ?_, unanswered.2⟩
  simp only [completedSenders, List.map_append, List.map_map, Function.comp_def, List.mem_append,
    not_or]
  exact ⟨unanswered.1, apart peer sender waits⟩

/-- A request joins the table, behind those that wait for the same peer. -/
theorem LinkSound.enter {link : Link} (sound : s.LinkSound link) {peer : PeerIdentifier}
    {sender : ResultSender} (taken : (peer, sender) ∈ s.taken) (unanswered : s.Unanswered sender)
    (new : ¬ Waits link.client.requests peer sender) :
    s.LinkSound (link.enter peer sender) := by
  refine ⟨sound.number, sound.single, ?_, sound.found, sound.notFound, sound.sent, ?_, ?_⟩
  · intro other under
    by_cases same : other = peer
    · subst same
      simp only [Link.enter, Function.update_self]
      exact Option.some_ne_none _
    · simp only [Link.enter, Function.update_of_ne same]
      exact sound.expected other under
  · intro other senders entry
    simp only [Link.enter] at entry
    by_cases same : other = peer
    · subst same
      simp only [Function.update_self, Option.some.injEq] at entry
      subst entry
      cases before : link.client.requests other with
      | none => simp
      | some waiting =>
          rw [Option.getD_some, List.nodup_append]
          refine ⟨sound.distinct other waiting before, by simp, ?_⟩
          intro old member fresh last equal
          rw [List.mem_singleton.mp last] at equal
          exact new ⟨waiting, before, equal ▸ member⟩
    · simp only [Function.update_of_ne same] at entry
      exact sound.distinct other senders entry
  · intro other waiter waits
    rcases waits_update_some waits with ⟨rfl, member⟩ | before
    · rcases List.mem_append.mp member with old | last
      · cases entry : link.client.requests other with
        | none =>
            rw [entry] at old
            cases old
        | some waiting =>
            rw [entry] at old
            exact sound.held other waiter ⟨waiting, entry, old⟩
      · rw [List.mem_singleton.mp last]
        exact ⟨taken, unanswered⟩
    · exact sound.held other waiter before

theorem underWay_ask (link : Link) (peer other : PeerIdentifier) :
    (link.ask peer).underWay other = link.underWay other + if other = peer then 1 else 0 := by
  simp only [Link.underWay, Link.ask, List.count_append, List.count_singleton, beq_iff_eq,
    RegistryProtocol.find.injEq]
  by_cases same : other = peer
  · subst same
    simp only [if_true]
    omega
  · have different : ¬ peer = other := fun equal => same equal.symm
    simp only [if_neg same, if_neg different]
    omega

/-- A question goes out about a peer that nothing is under way for. -/
theorem LinkSound.ask {link : Link} (sound : s.LinkSound link) {peer : PeerIdentifier}
    (idle : link.underWay peer = 0) (expected : link.client.requests peer ≠ none)
    (sent : (link.number, peer) ∈ s.finds) :
    s.LinkSound (link.ask peer) := by
  refine ⟨sound.number, ?_, ?_, sound.found, sound.notFound, ?_, sound.distinct, sound.held⟩
  · intro other
    rw [underWay_ask]
    by_cases same : other = peer
    · rw [if_pos same, same, idle]
    · rw [if_neg same]
      exact sound.single other
  · intro other under
    rw [underWay_ask] at under
    by_cases same : other = peer
    · rw [same]
      exact expected
    · rw [if_neg same] at under
      exact sound.expected other under
  · intro other member
    rcases List.mem_append.mp member with before | now
    · exact sound.sent other before
    · cases List.mem_singleton.mp now
      exact sent

/-- The client takes a request from the receiver, before it looks at it. -/
def took (s : LookupSession) (peer : PeerIdentifier) (sender : ResultSender)
    (rest : List (PeerIdentifier × ResultSender)) : LookupSession :=
  { s with findPeerRequest := rest, taken := s.taken ++ [(peer, sender)] }

theorem took_inv (inv : s.Inv) {peer : PeerIdentifier} {sender : ResultSender}
    {rest : List (PeerIdentifier × ResultSender)}
    (waiting : s.findPeerRequest = (peer, sender) :: rest) : (s.took peer sender rest).Inv := by
  have grows : s.Grows (s.took peer sender rest) :=
    ⟨fun _ => List.mem_append_left _, List.prefix_refl _, fun _ => id, fun _ => id⟩
  refine ⟨inv.sound.mono grows rfl rfl ?_, ?_⟩
  · change s.taken ++ [(peer, sender)] ++ rest = s.asked.zipIdx
    rw [← inv.sound.order, waiting, List.append_assoc]
    rfl
  · intro link current
    exact (inv.link link current).mono grows rfl rfl

/-- What the client knows of the request it has just taken. -/
theorem took_new (inv : s.Inv) {link : Link} (current : s.link = some link)
    {peer : PeerIdentifier} {sender : ResultSender}
    {rest : List (PeerIdentifier × ResultSender)}
    (waiting : s.findPeerRequest = (peer, sender) :: rest) :
    (peer, sender) ∈ (s.took peer sender rest).taken ∧
      (s.took peer sender rest).Unanswered sender ∧
      ∀ other, ¬ Waits link.client.requests other sender := by
  refine ⟨List.mem_append_right _ List.mem_cons_self, ?_, ?_⟩
  · exact inv.sound.fresh_unanswered waiting
  · intro other waits
    exact inv.sound.fresh waiting other ((inv.link link current).held other sender waits).1

theorem takeRequest_eq {link : Link} (current : s.link = some link) {peer : PeerIdentifier}
    {sender : ResultSender} {rest : List (PeerIdentifier × ResultSender)}
    (waiting : s.findPeerRequest = (peer, sender) :: rest) (send : SendPoll) :
    s.takeRequest send =
      match link.client.findPeerRequest peer sender (decide (sender ∈ s.canceled)) send with
      | (.transition client, effect) =>
          (s.took peer sender rest).proceed { link with client := client } effect
      | _ => (s.took peer sender rest).discard
          (Function.update link.client.requests peer (some [sender])) := by
  simp only [takeRequest, current, waiting]
  rfl

/-- All that the client does with the next request: it skips one that was cancelled, completes one
for the peer it is connected to, and enters the others; the first one for a peer is asked for. -/
theorem takeRequest_cases {link : Link} (current : s.link = some link) {peer : PeerIdentifier}
    {sender : ResultSender} {rest : List (PeerIdentifier × ResultSender)}
    (waiting : s.findPeerRequest = (peer, sender) :: rest) (send : SendPoll) :
    (sender ∈ s.canceled ∧ s.takeRequest send = s.took peer sender rest) ∨
    (sender ∉ s.canceled ∧ peer = link.client.peerIdentifier ∧ s.takeRequest send =
      { s.took peer sender rest with completed := s.completed ++
        [(link.number, sender, .foundWithHandle link.client.newStreamHandle)] }) ∨
    (sender ∉ s.canceled ∧ peer ≠ link.client.peerIdentifier ∧
      ((link.client.requests peer ≠ none ∧
        s.takeRequest send =
          { s.took peer sender rest with link := some (link.enter peer sender) }) ∨
      (link.client.requests peer = none ∧
        ((send = .refused ∧ s.takeRequest send =
          { s.took peer sender rest with link := some (link.enter peer sender) }) ∨
        (send = .accepted ∧ s.takeRequest send =
          { s.took peer sender rest with
            link := some ((link.enter peer sender).ask peer)
            finds := s.finds ++ [(link.number, peer)] }) ∨
        (∃ reason, send = .error reason ∧ s.takeRequest send =
          (s.took peer sender rest).discard (link.enter peer sender).client.requests))))) := by
  rw [takeRequest_eq current waiting]
  by_cases skip : sender ∈ s.canceled
  · refine Or.inl ⟨skip, ?_⟩
    simp [OutgoingStream.findPeerRequest, skip, proceed, took, current]
  · by_cases self : peer = link.client.peerIdentifier
    · refine Or.inr (Or.inl ⟨skip, self, ?_⟩)
      simp [OutgoingStream.findPeerRequest, skip, self, proceed, took, current]
    · refine Or.inr (Or.inr ⟨skip, self, ?_⟩)
      cases entry : link.client.requests peer with
      | some senders =>
          refine Or.inl ⟨Option.some_ne_none _, ?_⟩
          simp [OutgoingStream.findPeerRequest, skip, self, entry, proceed, took, Link.enter]
      | none =>
          refine Or.inr ⟨rfl, ?_⟩
          cases send with
          | refused =>
              refine Or.inl ⟨rfl, ?_⟩
              simp [OutgoingStream.findPeerRequest, skip, self, entry, proceed, took, Link.enter]
          | accepted =>
              refine Or.inr (Or.inl ⟨rfl, ?_⟩)
              simp [OutgoingStream.findPeerRequest, skip, self, entry, proceed, took, Link.enter,
                Link.ask, asksFor]
          | error reason =>
              refine Or.inr (Or.inr ⟨reason, rfl, ?_⟩)
              simp [OutgoingStream.findPeerRequest, skip, self, entry, Link.enter]

theorem takeRequest_idle (send : SendPoll) (idle : s.link = none ∨ s.findPeerRequest = []) :
    s.takeRequest send = s := by
  unfold takeRequest
  split
  · rename_i current waiting
    rcases idle with none | empty
    · rw [none] at current
      cases current
    · rw [empty] at waiting
      cases waiting
  · rfl

/-- Nothing is under way for a peer that is not in the table. -/
theorem LinkSound.idle {link : Link} (sound : s.LinkSound link) {peer : PeerIdentifier}
    (vacant : link.client.requests peer = none) : link.underWay peer = 0 := by
  have bound := sound.single peer
  by_contra busy
  exact sound.expected peer (by omega) vacant

theorem Inv.relink (inv : s.Inv) {link : Link} (sound : s.LinkSound link) :
    Inv { s with link := some link } := by
  have grows : s.Grows { s with link := some link } := grows_of_same rfl rfl rfl rfl
  refine ⟨inv.sound.mono grows rfl rfl inv.sound.order, ?_⟩
  rintro other ⟨⟩
  exact sound.mono grows rfl rfl

/-- The sender of a request for the peer at the other end is completed at once. -/
theorem Inv.completeSelf (inv : s.Inv) {link : Link} (current : s.link = some link)
    {peer : PeerIdentifier} {sender : ResultSender} (self : peer = link.client.peerIdentifier)
    (taken : (peer, sender) ∈ s.taken) (unanswered : s.Unanswered sender)
    (new : ∀ other, ¬ Waits link.client.requests other sender) :
    Inv { s with completed := s.completed ++
      [(link.number, sender, .foundWithHandle link.client.newStreamHandle)] } := by
  have sound := inv.link link current
  let done : List (ResultSender × RegistryResult) :=
    [(sender, .foundWithHandle link.client.newStreamHandle)]
  refine ⟨inv.sound.complete link.number done (by simp [done]) ?_ ?_, ?_⟩
  · intro other member
    rw [List.mem_singleton.mp member]
    exact unanswered
  · intro result member
    rw [List.mem_singleton.mp member]
    refine ⟨peer, taken, ?_⟩
    rw [self]
    exact sound.number
  · intro other found
    have same : link = other := Option.some.inj (current.symm.trans found)
    subst same
    refine sound.complete link.number done ?_
    intro waited waiter waits equal
    rw [List.mem_singleton.mp equal] at waits
    exact new waited waits

theorem takeRequest_inv (inv : s.Inv) (send : SendPoll) : (s.takeRequest send).Inv := by
  cases current : s.link with
  | none =>
      rw [takeRequest_idle send (Or.inl current)]
      exact inv
  | some link =>
      cases waiting : s.findPeerRequest with
      | nil =>
          rw [takeRequest_idle send (Or.inr waiting)]
          exact inv
      | cons first rest =>
          obtain ⟨peer, sender⟩ := first
          have taking := took_inv inv waiting
          have sound : (s.took peer sender rest).LinkSound link := taking.link link current
          obtain ⟨taken, unanswered, new⟩ := took_new inv current waiting
          have entered := sound.enter taken unanswered (new peer)
          rcases takeRequest_cases current waiting send with
            ⟨-, same⟩ | ⟨-, self, same⟩ |
            ⟨-, -, ⟨-, same⟩ | ⟨vacant, ⟨-, same⟩ | ⟨-, same⟩ | ⟨reason, -, same⟩⟩⟩
          all_goals rw [same]
          · exact taking
          · exact taking.completeSelf current self taken unanswered (fun p => new p)
          · exact taking.relink entered
          · exact taking.relink entered
          · let asking : LookupSession :=
              { s.took peer sender rest with finds := s.finds ++ [(link.number, peer)] }
            have grows : (s.took peer sender rest).Grows asking :=
              ⟨fun _ => id, List.prefix_refl _, fun _ => List.mem_append_left _, fun _ => id⟩
            have kept : asking.Inv := ⟨taking.sound.mono grows rfl rfl taking.sound.order,
              fun other found => (taking.link other found).mono grows rfl rfl⟩
            have idle : (link.enter peer sender).underWay peer = 0 := sound.idle vacant
            refine kept.relink ((entered.mono grows rfl rfl).ask idle ?_ ?_)
            · simp only [Link.enter, Function.update_self]
              exact Option.some_ne_none _
            · exact List.mem_append_right _ List.mem_cons_self
          · exact ⟨taking.sound.discard entered.held, fun _ none => by cases none⟩

end LookupSession

end HolePunch.Remote
