import HolePunch.LookupTable

set_option autoImplicit false

/- What holds of remote lookups in every order of events: the client and the server read what the
other has sent, and a new connection takes over from the last one. -/
namespace HolePunch.Remote

open LookupSession (Event asksFor)

namespace LookupSession

variable {s s' : LookupSession}

/-- A message that answers nothing is read. -/
theorem LinkSound.skip {link : Link} (sound : s.LinkSound link) {message : RegistryProtocol}
    {rest : List RegistryProtocol} (read : link.toClient = message :: rest)
    (other : answersFor message = none) : s.LinkSound { link with toClient := rest } := by
  have same : ∀ peer, Link.underWay { link with toClient := rest } peer = link.underWay peer := by
    intro peer
    rw [underWay_read link read, other]
    simp
  have listed : ∀ {given : RegistryProtocol}, given ∈ rest → given ∈ link.toClient := by
    intro given member
    rw [read]
    exact List.mem_cons_of_mem message member
  refine ⟨sound.number, ?_, ?_, fun peer member => sound.found peer (listed member),
    fun peer member => sound.notFound peer (listed member), sound.sent, sound.distinct, sound.held⟩
  · intro peer
    rw [same]
    exact sound.single peer
  · intro peer under
    rw [same] at under
    exact sound.expected peer under

/-- The answer about a peer finds its requests in the table. -/
theorem LinkSound.expects {link : Link} (sound : s.LinkSound link) {message : RegistryProtocol}
    {rest : List RegistryProtocol} (read : link.toClient = message :: rest)
    {peer : PeerIdentifier} (about : answersFor message = some peer) :
    link.underWay peer = 1 ∧ ∃ senders, link.client.requests peer = some senders := by
  have counted := underWay_read link read peer
  rw [if_pos about] at counted
  have bound := sound.single peer
  have one : link.underWay peer = 1 := by omega
  exact ⟨one, Option.ne_none_iff_exists'.mp (sound.expected peer one)⟩

theorem underWay_settle {link : Link} {message : RegistryProtocol} {rest : List RegistryProtocol}
    (read : link.toClient = message :: rest) {peer : PeerIdentifier}
    (about : answersFor message = some peer) (other : PeerIdentifier) :
    link.underWay other =
      (link.settle peer rest).underWay other + if other = peer then 1 else 0 := by
  have counted := underWay_read link read other
  by_cases same : other = peer
  · rw [same] at counted ⊢
    rw [if_pos about] at counted
    rw [if_pos rfl]
    exact counted
  · have apart : answersFor message ≠ some other := by
      rw [about]
      exact fun equal => same (Option.some.inj equal).symm
    rw [if_neg apart] at counted
    rw [if_neg same]
    exact counted

theorem LinkSound.settle {link : Link} (sound : s.LinkSound link) {message : RegistryProtocol}
    {rest : List RegistryProtocol} (read : link.toClient = message :: rest)
    {peer : PeerIdentifier} (about : answersFor message = some peer) :
    s.LinkSound (link.settle peer rest) := by
  have listed : ∀ {given : RegistryProtocol}, given ∈ rest → given ∈ link.toClient := by
    intro given member
    rw [read]
    exact List.mem_cons_of_mem message member
  refine ⟨sound.number, ?_, ?_, fun peer member => sound.found peer (listed member),
    fun peer member => sound.notFound peer (listed member), sound.sent, ?_, ?_⟩
  · intro other
    have counted := underWay_settle read about other
    have bound := sound.single other
    omega
  · intro other under
    have counted := underWay_settle read about other
    have bound := sound.single other
    by_cases same : other = peer
    · rw [if_pos same] at counted
      omega
    · rw [if_neg same] at counted
      simp only [Link.settle, Function.update_of_ne same]
      exact sound.expected other (by omega)
  · intro other senders entry
    simp only [Link.settle] at entry
    by_cases same : other = peer
    · subst same
      rw [Function.update_self] at entry
      cases entry
    · rw [Function.update_of_ne same] at entry
      exact sound.distinct other senders entry
  · intro other sender waits
    exact sound.held other sender (waits_update_none waits).2

/-- All that the client does with a message of the server. -/
theorem clientReads_cases {link : Link} (current : s.link = some link)
    {message : RegistryProtocol} {rest : List RegistryProtocol}
    (read : link.toClient = message :: rest) :
    (answersFor message = none ∧
      s.clientReads = { s with link := some { link with toClient := rest } }) ∨
    ∃ peer result, answersFor message = some peer ∧
      (message = .found peer ∧ result = .foundRemote link.client.newStreamHandle ∨
        message = .notFound peer ∧ result = .notFound) ∧
      ∀ senders, link.client.requests peer = some senders → s.clientReads =
        { s with
          link := some (link.settle peer rest)
          completed := s.completed ++
            (senders.map (fun sender => (sender, result))).map
              (fun done => (link.number, done)) } := by
  cases message with
  | find other =>
      refine Or.inl ⟨rfl, ?_⟩
      simp [clientReads, current, read, OutgoingStream.message, proceed]
  | ping =>
      refine Or.inl ⟨rfl, ?_⟩
      simp [clientReads, current, read, OutgoingStream.message, proceed]
  | pong =>
      refine Or.inl ⟨rfl, ?_⟩
      simp [clientReads, current, read, OutgoingStream.message, proceed]
  | found peer =>
      refine Or.inr ⟨peer, _, rfl, Or.inl ⟨rfl, rfl⟩, ?_⟩
      intro senders entry
      simp [clientReads, current, read, OutgoingStream.message, OutgoingStream.answered, entry,
        proceed, Link.settle]
  | notFound peer =>
      refine Or.inr ⟨peer, _, rfl, Or.inr ⟨rfl, rfl⟩, ?_⟩
      intro senders entry
      simp [clientReads, current, read, OutgoingStream.message, OutgoingStream.answered, entry,
        proceed, Link.settle]

/-- An answer completes those who wait for its peer, none of them before, with what the server
knows. -/
theorem Inv.complete_answer (inv : s.Inv) {link : Link} (current : s.link = some link)
    {message : RegistryProtocol} {rest : List RegistryProtocol}
    (read : link.toClient = message :: rest) {peer : PeerIdentifier} {result : RegistryResult}
    (why : message = .found peer ∧ result = .foundRemote link.client.newStreamHandle ∨
      message = .notFound peer ∧ result = .notFound)
    {senders : List ResultSender} (entry : link.client.requests peer = some senders) :
    Sound { s with
      completed := s.completed ++
        (senders.map (fun sender => (sender, result))).map (fun done => (link.number, done)) } := by
  have sound := inv.link link current
  have held : ∀ sender ∈ senders, (peer, sender) ∈ s.taken ∧ s.Unanswered sender :=
    fun sender member => sound.held peer sender ⟨senders, entry, member⟩
  have firsts : (senders.map (fun sender => (sender, result))).map Prod.fst = senders := by
    simp only [List.map_map, Function.comp_def, List.map_id']
  refine inv.sound.complete link.number _ ?_ ?_ ?_
  · rw [firsts]
    exact sound.distinct peer senders entry
  · rw [firsts]
    exact fun sender member => (held sender member).2
  · intro given member
    obtain ⟨sender, waiting, rfl⟩ := List.mem_map.mp member
    refine ⟨peer, (held sender waiting).1, ?_⟩
    rcases why with ⟨rfl, rfl⟩ | ⟨rfl, rfl⟩
    · exact sound.found peer (read ▸ List.mem_cons_self)
    · exact sound.notFound peer (read ▸ List.mem_cons_self)

theorem clientReads_inv (inv : s.Inv) : s.clientReads.Inv := by
  cases current : s.link with
  | none =>
      simp only [clientReads, current]
      exact inv
  | some link =>
      have sound := inv.link link current
      cases read : link.toClient with
      | nil =>
          simp only [clientReads, current, read]
          exact inv
      | cons message rest =>
          rcases clientReads_cases current read with
            ⟨other, same⟩ | ⟨peer, result, about, why, same⟩
          · rw [same]
            exact inv.relink (sound.skip read other)
          · obtain ⟨-, senders, entry⟩ := sound.expects read about
            have completed := inv.complete_answer current read why entry
            rw [same senders entry]
            let done := senders.map (fun sender => (sender, result))
            have grows : LookupSession.Grows { s with
                completed := s.completed ++ done.map (fun given => (link.number, given)) }
                { s with
                  link := some (link.settle peer rest)
                  completed := s.completed ++ done.map (fun given => (link.number, given)) } :=
              grows_of_same rfl rfl rfl rfl
            refine ⟨completed.mono grows rfl rfl completed.order, ?_⟩
            rintro other ⟨⟩
            refine ((sound.settle read about).complete link.number done ?_).mono grows rfl rfl
            intro waited sender waits member
            -- A sender of the answered peer is in no other entry of the table.
            obtain ⟨_, given, rfl⟩ := List.mem_map.mp member
            obtain ⟨waiter, waiting, rfl⟩ := List.mem_map.mp given
            obtain ⟨different, before⟩ := waits_update_none waits
            have answered := sound.held peer waiter ⟨senders, entry, waiting⟩
            exact different (inv.sound.peer_unique (sound.held waited waiter before).1 answered.1)

theorem LinkSound.setOpen {link : Link} (sound : s.LinkSound link) (isOpen : Bool) :
    s.LinkSound { link with serverOpen := isOpen } :=
  ⟨sound.number, sound.single, sound.expected, sound.found, sound.notFound, sound.sent,
    sound.distinct, sound.held⟩

theorem underWay_serve (link : Link) {message : RegistryProtocol} {rest : List RegistryProtocol}
    (read : link.toServer = message :: rest) (peer : PeerIdentifier) :
    link.underWay peer = Link.underWay { link with toServer := rest } peer +
      if asksFor message = some peer then 1 else 0 := by
  simp only [Link.underWay, read, List.count_cons]
  cases message with
  | find other =>
      simp only [asksFor, Option.some.injEq, beq_iff_eq, RegistryProtocol.find.injEq]
      split <;> omega
  | ping => simp [asksFor]
  | pong => simp [asksFor]
  | found other => simp [asksFor]
  | notFound other => simp [asksFor]

/-- The server has read a message and not answered it yet. -/
theorem LinkSound.serve {link : Link} (sound : s.LinkSound link) {message : RegistryProtocol}
    {rest : List RegistryProtocol} (read : link.toServer = message :: rest) :
    s.LinkSound { link with toServer := rest } := by
  refine ⟨sound.number, ?_, ?_, sound.found, sound.notFound, ?_, sound.distinct, sound.held⟩
  · intro peer
    have counted := underWay_serve link read peer
    have bound := sound.single peer
    omega
  · intro peer under
    have counted := underWay_serve link read peer
    have bound := sound.single peer
    exact sound.expected peer (by omega)
  · intro peer member
    apply sound.sent peer
    rw [read]
    exact List.mem_cons_of_mem message member

theorem underWay_reply (link : Link) (message : RegistryProtocol) (peer : PeerIdentifier) :
    Link.underWay { link with toClient := link.toClient ++ [message] } peer =
      link.underWay peer + if answersFor message = some peer then 1 else 0 := by
  have counted := answers_count message peer
  simp only [Link.underWay, List.count_append, List.count_singleton]
  omega

/-- The server sends a message. An answer is about a peer that was looked up and that nothing else
is under way for. -/
theorem LinkSound.reply {link : Link} (sound : s.LinkSound link) (message : RegistryProtocol)
    (idle : ∀ peer, answersFor message = some peer →
      link.underWay peer = 0 ∧ link.client.requests peer ≠ none ∧ (link.number, peer) ∈ s.finds)
    (found : ∀ peer, message = .found peer → (link.number, peer, true) ∈ s.evaluated)
    (notFound : ∀ peer, message = .notFound peer → (link.number, peer, false) ∈ s.evaluated) :
    s.LinkSound { link with toClient := link.toClient ++ [message] } := by
  refine ⟨sound.number, ?_, ?_, ?_, ?_, sound.sent, sound.distinct, sound.held⟩
  · intro peer
    rw [underWay_reply]
    by_cases about : answersFor message = some peer
    · rw [if_pos about, (idle peer about).1]
    · rw [if_neg about]
      exact sound.single peer
  · intro peer under
    rw [underWay_reply] at under
    by_cases about : answersFor message = some peer
    · exact (idle peer about).2.1
    · rw [if_neg about] at under
      exact sound.expected peer under
  · intro peer member
    rcases List.mem_append.mp member with before | now
    · exact sound.found peer before
    · have this := List.mem_singleton.mp now
      exact ⟨found peer this.symm, (idle peer (by rw [← this]; rfl)).2.2⟩
  · intro peer member
    rcases List.mem_append.mp member with before | now
    · exact sound.notFound peer before
    · have this := List.mem_singleton.mp now
      exact ⟨notFound peer this.symm, (idle peer (by rw [← this]; rfl)).2.2⟩

/-- An answer that is sent, refused or fails. -/
theorem LinkSound.answer {link : Link} (sound : s.LinkSound link)
    (answer : Option RegistryProtocol) (send : SendPoll) (completes : Bool)
    (sent : ∀ message, answer = some message →
      s.LinkSound { link with toClient := link.toClient ++ [message] }) :
    s.LinkSound (LookupSession.answer link answer send completes) := by
  unfold LookupSession.answer
  split
  · exact sound
  · exact sound.setOpen false
  · exact sound.setOpen completes
  · exact (sent _ rfl).setOpen completes

theorem serverReads_idle (registry : Registry) (send : SendPoll) (completes : Bool)
    (idle : ∀ link, s.link = some link → link.serverOpen = false ∨ link.toServer = []) :
    s.serverReads registry send completes = s := by
  unfold serverReads
  split
  · rfl
  · rename_i link current
    split
    · rename_i isOpen waiting
      rcases idle link current with closed | empty
      · rw [closed] at isOpen
        cases isOpen
      · rw [empty] at waiting
        cases waiting
    · rfl

theorem serverReads_eq {link : Link} (current : s.link = some link)
    (isOpen : link.serverOpen = true) {message : RegistryProtocol}
    {rest : List RegistryProtocol} (waiting : link.toServer = message :: rest)
    (registry : Registry) (send : SendPoll) (completes : Bool) :
    s.serverReads registry send completes = { s with
      link := some (answer { link with toServer := rest }
        (IncomingStream.answer registry message) send completes)
      evaluated := s.evaluated ++ lookup registry link.number message } := by
  obtain ⟨number, client, serverOpen, toServer, toClient⟩ := link
  cases isOpen
  cases waiting
  simp only [serverReads, current]

/-- What the server answers, and that it has looked up the peer it answers about. -/
theorem answer_about {registry : Registry} {message answer : RegistryProtocol}
    (answers : IncomingStream.answer registry message = some answer) :
    (answersFor answer = none ∧ asksFor message = none) ∨
    ∃ peer, message = .find peer ∧
      answer = if registry.hasPeer peer then .found peer else .notFound peer := by
  cases message with
  | find peer => exact Or.inr ⟨peer, rfl, (Option.some.inj answers).symm⟩
  | ping =>
      cases answers
      exact Or.inl ⟨rfl, rfl⟩
  | pong => cases answers
  | found peer => cases answers
  | notFound peer => cases answers

theorem answersFor_ite (found : Bool) (peer : PeerIdentifier) :
    answersFor (if found then .found peer else .notFound peer) = some peer := by
  cases found <;> rfl

/-- Nothing else is under way for a peer that the server answers about. -/
theorem LinkSound.served_idle {link : Link} (sound : s.LinkSound link) {peer : PeerIdentifier}
    {rest : List RegistryProtocol} (waiting : link.toServer = .find peer :: rest) :
    link.underWay peer = 1 ∧ Link.underWay { link with toServer := rest } peer = 0 := by
  have counted := underWay_serve link waiting peer
  have asks : asksFor (.find peer) = some peer := rfl
  rw [if_pos asks] at counted
  have bound := sound.single peer
  omega

theorem LinkSound.replied {link : Link} (sound : s.LinkSound link) {message : RegistryProtocol}
    {rest : List RegistryProtocol} (waiting : link.toServer = message :: rest)
    {registry : Registry} {answer : RegistryProtocol}
    (answers : IncomingStream.answer registry message = some answer)
    (looked : lookup registry link.number message ⊆ s.evaluated) :
    s.LinkSound { link with toServer := rest, toClient := link.toClient ++ [answer] } := by
  have served := sound.serve waiting
  rcases answer_about answers with ⟨other, -⟩ | ⟨peer, rfl, rfl⟩
  · refine served.reply answer ?_ ?_ ?_
    · intro peer about
      rw [other] at about
      cases about
    · intro peer same
      rw [same] at other
      cases other
    · intro peer same
      rw [same] at other
      cases other
  · obtain ⟨one, none⟩ := sound.served_idle waiting
    have evaluated : (link.number, peer, registry.hasPeer peer) ∈ s.evaluated :=
      looked List.mem_cons_self
    refine served.reply _ ?_ ?_ ?_
    · intro other about
      rw [answersFor_ite] at about
      cases about
      exact ⟨none, sound.expected peer one, sound.sent peer (waiting ▸ List.mem_cons_self)⟩
    · intro other same
      cases known : registry.hasPeer peer with
      | true =>
          rw [known] at same evaluated
          cases same
          exact evaluated
      | false =>
          rw [known] at same
          cases same
    · intro other same
      cases known : registry.hasPeer peer with
      | true =>
          rw [known] at same
          cases same
      | false =>
          rw [known] at same evaluated
          cases same
          exact evaluated

theorem serverReads_inv (inv : s.Inv) (registry : Registry) (send : SendPoll) (completes : Bool) :
    (s.serverReads registry send completes).Inv := by
  cases current : s.link with
  | none =>
      rw [serverReads_idle registry send completes (by simp [current])]
      exact inv
  | some link =>
      cases waiting : link.toServer with
      | nil =>
          rw [serverReads_idle registry send completes (by simp [current, waiting])]
          exact inv
      | cons message rest =>
          cases isOpen : link.serverOpen with
          | false =>
              rw [serverReads_idle registry send completes (by simp [current, isOpen])]
              exact inv
          | true =>
              let looked : LookupSession := { s with
                evaluated := s.evaluated ++ lookup registry link.number message }
              have grows : s.Grows looked := ⟨fun _ => id, List.prefix_refl _, fun _ => id,
                fun _ => List.mem_append_left _⟩
              have kept : looked.Inv := ⟨inv.sound.mono grows rfl rfl inv.sound.order,
                fun other found => (inv.link other found).mono grows rfl rfl⟩
              have sound : looked.LinkSound link := (inv.link link current).mono grows rfl rfl
              rw [serverReads_eq current isOpen waiting]
              refine kept.relink ((sound.serve waiting).answer _ send completes ?_)
              intro answer answers
              exact sound.replied waiting answers (List.subset_append_right _ _)

/-- Every event keeps the invariant. -/
theorem step_inv (s : LookupSession) (event : Event) (inv : s.Inv) : (s.step event).Inv := by
  cases event with
  | request peer => exact request_inv inv peer
  | cancel sender => exact cancel_inv inv sender
  | connect stream => exact connect_inv inv stream
  | takeRequest send => exact takeRequest_inv inv send
  | ping send => exact ping_inv inv send
  | clientReads => exact clientReads_inv inv
  | serverReads registry send completes => exact serverReads_inv inv registry send completes
  | serverEnds => exact serverEnds_inv inv
  | clientEnds => exact clientEnds_inv inv

theorem run_inv (events : List Event) : (Transition.run step init events).Inv :=
  Transition.run_invariant Inv step_inv init_inv events

/-- What holds in every state: at most one question or answer about a peer is under way, and only
for a peer in the table; senders are completed once and for a reason; the requests are taken in
their order; and the senders of a dropped table are not completed. -/
structure Safe (s : LookupSession) : Prop where
  inFlight : ∀ link, s.link = some link → ∀ peer, link.underWay peer ≤ 1 ∧
    (link.underWay peer = 1 → ∃ senders, link.client.requests peer = some senders)
  once : s.completedSenders.Nodup
  answered : ∀ done ∈ s.completed, ∃ peer,
    s.asked[done.2.1]? = some peer ∧ s.Knows done.1 peer done.2.2
  ordered : s.taken ++ s.findPeerRequest = s.asked.zipIdx
  dropped : ∀ requests ∈ s.discarded, ∀ peer sender, Waits requests peer sender →
    sender ∉ s.completedSenders

/-- What a step does to the requests: new ones join the receiver at its end, only a connection
takes them, from the front, and a connection that ends leaves the receiver to the next one while
its table is dropped, with the request it was about to enter. -/
structure HandsOver (s : LookupSession) (event : Event) : Prop where
  receiver : (s.step event).findPeerRequest = s.findPeerRequest ∨
    (∃ peer, event = .request peer ∧
      (s.step event).findPeerRequest = s.findPeerRequest ++ [(peer, s.asked.length)]) ∨
    (∃ send first, event = .takeRequest send ∧ s.link ≠ none ∧
      s.findPeerRequest = first :: (s.step event).findPeerRequest)
  table : ∀ link, s.link = some link → (s.step event).link = none →
    ∃ requests ∈ (s.step event).discarded,
      (∀ peer sender, Waits link.client.requests peer sender → Waits requests peer sender) ∧
      ∀ first, s.findPeerRequest = first :: (s.step event).findPeerRequest →
        Waits requests first.1 first.2

theorem Inv.safe (inv : s.Inv) : s.Safe where
  inFlight link current peer := ⟨(inv.link link current).single peer, fun one =>
    Option.ne_none_iff_exists'.mp ((inv.link link current).expected peer one)⟩
  once := inv.sound.once
  answered done member := by
    obtain ⟨peer, taken, known⟩ := inv.sound.justified done member
    exact ⟨peer, inv.sound.asked taken, known⟩
  ordered := inv.sound.order
  dropped requests member peer sender waits :=
    (inv.sound.dropped requests member peer sender waits).2

theorem waits_enter (link : Link) (peer : PeerIdentifier) (sender : ResultSender) :
    Waits (link.enter peer sender).client.requests peer sender ∧
      ∀ other waiter, Waits link.client.requests other waiter →
        Waits (link.enter peer sender).client.requests other waiter := by
  constructor
  · exact ⟨_, Function.update_self _ _ _, List.mem_append_right _ List.mem_cons_self⟩
  · rintro other waiter ⟨senders, entry, member⟩
    by_cases same : other = peer
    · subst same
      refine ⟨_, Function.update_self _ _ _, List.mem_append_left _ ?_⟩
      rw [entry]
      exact member
    · refine ⟨senders, ?_, member⟩
      simp only [Link.enter, Function.update_of_ne same]
      exact entry

/-- A step that leaves the receiver alone and keeps the connection, or drops it with its table. -/
theorem handsOver_of_same {event : Event}
    (same : (s.step event).findPeerRequest = s.findPeerRequest)
    (table : ∀ link, s.link = some link → (s.step event).link = none →
      link.client.requests ∈ (s.step event).discarded) : s.HandsOver event := by
  refine ⟨Or.inl same, ?_⟩
  intro link current gone
  refine ⟨link.client.requests, table link current gone, fun _ _ => id, ?_⟩
  intro first longer
  rw [same] at longer
  exact absurd longer.symm (List.cons_ne_self first _)

theorem takeRequest_handsOver (s : LookupSession) (send : SendPoll) :
    s.HandsOver (.takeRequest send) := by
  by_cases idle : s.link = none ∨ s.findPeerRequest = []
  · have same : s.step (.takeRequest send) = s := takeRequest_idle send idle
    refine handsOver_of_same (by rw [same]) ?_
    intro link current gone
    rw [same, current] at gone
    cases gone
  · rw [not_or] at idle
    obtain ⟨link, current⟩ := Option.ne_none_iff_exists'.mp idle.1
    obtain ⟨⟨peer, sender⟩, rest, waiting⟩ := List.exists_cons_of_ne_nil idle.2
    have receiver : (s.takeRequest send).findPeerRequest = rest ∧
        ((s.takeRequest send).link = none →
          (link.enter peer sender).client.requests ∈ (s.takeRequest send).discarded) := by
      rcases takeRequest_cases current waiting send with
        ⟨-, same⟩ | ⟨-, -, same⟩ |
        ⟨-, -, ⟨-, same⟩ | ⟨-, ⟨-, same⟩ | ⟨-, same⟩ | ⟨reason, -, same⟩⟩⟩
      all_goals rw [same]
      · exact ⟨rfl, fun gone => absurd gone idle.1⟩
      · exact ⟨rfl, fun gone => absurd gone idle.1⟩
      · exact ⟨rfl, fun gone => by cases gone⟩
      · exact ⟨rfl, fun gone => by cases gone⟩
      · exact ⟨rfl, fun gone => by cases gone⟩
      · exact ⟨rfl, fun _ => List.mem_append_right _ List.mem_cons_self⟩
    obtain ⟨entered, others⟩ := waits_enter link peer sender
    refine ⟨Or.inr (Or.inr ⟨send, (peer, sender), rfl, idle.1, ?_⟩), ?_⟩
    · rw [waiting]
      exact congrArg _ receiver.1.symm
    · intro same found gone
      rw [current] at found
      cases found
      refine ⟨_, receiver.2 gone, others, ?_⟩
      intro first taken
      rw [waiting] at taken
      cases taken
      exact entered

theorem step_handsOver (s : LookupSession) (event : Event) : s.HandsOver event := by
  cases event with
  | request peer =>
      refine ⟨Or.inr (Or.inl ⟨peer, rfl, rfl⟩), ?_⟩
      intro link current gone
      rw [show (s.step (.request peer)).link = s.link from rfl, current] at gone
      cases gone
  | cancel sender =>
      refine handsOver_of_same rfl ?_
      intro link current gone
      rw [show (s.step (.cancel sender)).link = s.link from rfl, current] at gone
      cases gone
  | connect stream =>
      cases current : s.link with
      | none => exact handsOver_of_same (by simp [step, current]) (by simp [current])
      | some link => exact handsOver_of_same (by simp [step, current]) (by simp [step, current])
  | takeRequest send => exact s.takeRequest_handsOver send
  | ping send =>
      cases current : s.link with
      | none =>
          exact handsOver_of_same (by simp [step, ping, current]) (by simp [current])
      | some link =>
          cases send with
          | refused =>
              exact handsOver_of_same (by simp [step, ping, current])
                (by simp [step, ping, current])
          | accepted =>
              exact handsOver_of_same (by simp [step, ping, current, proceed])
                (by simp [step, ping, current, proceed])
          | error reason =>
              exact handsOver_of_same (by simp [step, ping, current, discard])
                (by simp [step, ping, current, discard])
  | clientReads =>
      cases current : s.link with
      | none => exact handsOver_of_same (by simp [step, clientReads, current]) (by simp [current])
      | some link =>
          cases read : link.toClient with
          | nil =>
              exact handsOver_of_same (by simp [step, clientReads, current, read])
                (by simp [step, clientReads, current, read])
          | cons message rest =>
              exact handsOver_of_same (by simp [step, clientReads, current, read, proceed])
                (by simp [step, clientReads, current, read, proceed])
  | serverReads registry send completes =>
      refine handsOver_of_same ?_ ?_
      · simp only [step, serverReads]
        split
        · rfl
        · split <;> rfl
      · intro link current gone
        simp only [step, serverReads, current] at gone
        split at gone
        · cases gone
        · rw [current] at gone
          cases gone
  | serverEnds =>
      cases current : s.link with
      | none => exact handsOver_of_same (by simp [step, current]) (by simp [current])
      | some link => exact handsOver_of_same (by simp [step, current]) (by simp [step, current])
  | clientEnds =>
      cases current : s.link with
      | none => exact handsOver_of_same (by simp [step, current]) (by simp [current])
      | some link =>
          exact handsOver_of_same (by simp [step, current, discard])
            (by simp [step, current, discard])

/-- In every order of events, remote lookups are safe and outlive their connections. -/
theorem run_safe (events : List Event) :
    (Transition.run step init events).Safe ∧
      ∀ event, (Transition.run step init events).HandsOver event :=
  ⟨(run_inv events).safe, fun event => step_handsOver _ event⟩

end LookupSession

end HolePunch.Remote
