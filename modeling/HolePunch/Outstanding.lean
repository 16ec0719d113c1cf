import HolePunch.Lookups

set_option autoImplicit false

/- Whether a lookup that waits in the table of a connection waits for a question or an answer that
is under way. -/
namespace HolePunch.Remote.LookupSession

variable {s : LookupSession}

/-- While the connection is open, exactly one question or answer is under way for every peer in
the table. -/
def Outstanding (s : LookupSession) : Prop :=
  ∀ link, s.link = some link → link.serverOpen = true → ∀ peer,
    link.client.requests peer ≠ none → link.underWay peer = 1

/-- While the connection is open, no question and no answer is refused by its sink. The server may
drop an answer only if it ends with it. -/
def Accepts (s : LookupSession) : Event → Prop
  | .takeRequest send => ∀ link peer sender rest, s.link = some link → link.serverOpen = true →
      s.findPeerRequest = (peer, sender) :: rest → sender ∉ s.canceled →
      peer ≠ link.client.peerIdentifier → link.client.requests peer = none → send ≠ .refused
  | .serverReads _ send completes => ∀ link peer rest, s.link = some link →
      link.serverOpen = true → link.toServer = .find peer :: rest → completes = true →
      send ≠ .refused
  | _ => True

/-- A step that leaves the table and what is under way as they are. -/
theorem outstanding_of_same {s' : LookupSession} (holds : s.Outstanding)
    (same : ∀ link', s'.link = some link' → link'.serverOpen = true →
      ∃ link, s.link = some link ∧ link.serverOpen = true ∧
        ∀ peer, link'.client.requests peer ≠ none →
          link.client.requests peer ≠ none ∧ link'.underWay peer = link.underWay peer) :
    s'.Outstanding := by
  intro link' current isOpen peer waiting
  obtain ⟨link, before, wasOpen, kept⟩ := same link' current isOpen
  obtain ⟨waited, counted⟩ := kept peer waiting
  rw [counted]
  exact holds link before wasOpen peer waited

/-- An entry for a peer that nothing is under way for breaks the property, unless the connection is
closed. -/
theorem not_outstanding_of_idle {link : Link} {peer : PeerIdentifier} (current : s.link = some link)
    (isOpen : link.serverOpen = true) (waiting : link.client.requests peer ≠ none)
    (idle : link.underWay peer = 0) : ¬ s.Outstanding := by
  intro holds
  have one := holds link current isOpen peer waiting
  omega

theorem enter_ne_none {link : Link} {peer other : PeerIdentifier} {sender : ResultSender}
    (waiting : (link.enter peer sender).client.requests other ≠ none) (apart : other ≠ peer) :
    link.client.requests other ≠ none := by
  simpa only [Link.enter, Function.update_of_ne apart] using waiting

theorem enter_self_ne_none (link : Link) (peer : PeerIdentifier) (sender : ResultSender) :
    (link.enter peer sender).client.requests peer ≠ none := by
  simp only [Link.enter, Function.update_self]
  exact Option.some_ne_none _

/-- What the condition says of the request that is first in the channel. -/
theorem accepts_takeRequest_iff {link : Link} (current : s.link = some link)
    {peer : PeerIdentifier} {sender : ResultSender}
    {rest : List (PeerIdentifier × ResultSender)}
    (waiting : s.findPeerRequest = (peer, sender) :: rest) (send : SendPoll) :
    s.Accepts (.takeRequest send) ↔ (link.serverOpen = true → sender ∉ s.canceled →
      peer ≠ link.client.peerIdentifier → link.client.requests peer = none → send ≠ .refused) := by
  constructor
  · intro accepts isOpen
    exact accepts link peer sender rest current isOpen waiting
  · intro condition other asked asker later found isOpen first
    rw [current] at found
    rw [waiting] at first
    cases found
    cases first
    exact condition isOpen

/-- A request that joins an entry of the table leaves what is under way as it is. -/
theorem outstanding_enter {link : Link} (current : s.link = some link) {peer : PeerIdentifier}
    (occupied : link.client.requests peer ≠ none) (sender : ResultSender)
    (rest : List (PeerIdentifier × ResultSender)) (holds : s.Outstanding) :
    Outstanding { s.took peer sender rest with link := some (link.enter peer sender) } := by
  refine outstanding_of_same holds ?_
  rintro entered ⟨⟩ isOpen
  refine ⟨link, current, isOpen, ?_⟩
  intro other waits
  by_cases here : other = peer
  · subst here
    exact ⟨occupied, rfl⟩
  · exact ⟨enter_ne_none waits here, rfl⟩

/-- A request that makes an entry is outstanding with the question that is sent for it. -/
theorem outstanding_ask {link : Link} (current : s.link = some link) (sound : s.LinkSound link)
    {peer : PeerIdentifier} (vacant : link.client.requests peer = none) (sender : ResultSender)
    (rest : List (PeerIdentifier × ResultSender)) (holds : s.Outstanding) :
    Outstanding { s.took peer sender rest with
      link := some ((link.enter peer sender).ask peer)
      finds := s.finds ++ [(link.number, peer)] } := by
  have before : (link.enter peer sender).underWay peer = 0 := sound.idle vacant
  rintro asked ⟨⟩ isOpen other waits
  rw [underWay_ask]
  by_cases here : other = peer
  · subst here
    rw [if_pos rfl, before]
  · rw [if_neg here]
    exact holds link current isOpen other (enter_ne_none waits here)

/-- An entry that no question was sent for is outstanding only on a closed connection. -/
theorem outstanding_refused_iff {link : Link} (sound : s.LinkSound link) {peer : PeerIdentifier}
    (vacant : link.client.requests peer = none) (sender : ResultSender)
    (rest : List (PeerIdentifier × ResultSender)) :
    Outstanding { s.took peer sender rest with link := some (link.enter peer sender) } ↔
      link.serverOpen = false := by
  have stuck : (link.enter peer sender).underWay peer = 0 := sound.idle vacant
  have same : (link.enter peer sender).serverOpen = link.serverOpen := rfl
  cases isOpen : link.serverOpen with
  | false =>
      simp only [iff_true]
      rintro entered ⟨⟩ stillOpen
      rw [same, isOpen] at stillOpen
      cases stillOpen
  | true =>
      simp only [Bool.true_eq_false, iff_false]
      exact not_outstanding_of_idle rfl (same.trans isOpen) (enter_self_ne_none link peer sender)
        stuck

theorem takeRequest_outstanding_iff (inv : s.Inv) (holds : s.Outstanding) (send : SendPoll) :
    (s.step (.takeRequest send)).Outstanding ↔ s.Accepts (.takeRequest send) := by
  change (s.takeRequest send).Outstanding ↔ _
  by_cases idle : s.link = none ∨ s.findPeerRequest = []
  · rw [takeRequest_idle send idle]
    simp only [holds, true_iff]
    intro link peer sender rest current _ waiting
    rcases idle with none | empty
    · rw [none] at current
      cases current
    · rw [empty] at waiting
      cases waiting
  · rw [not_or] at idle
    obtain ⟨link, current⟩ := Option.ne_none_iff_exists'.mp idle.1
    obtain ⟨⟨peer, sender⟩, rest, waiting⟩ := List.exists_cons_of_ne_nil idle.2
    have sound := inv.link link current
    rw [accepts_takeRequest_iff current waiting send]
    rcases takeRequest_cases current waiting send with
      ⟨skip, same⟩ | ⟨-, self, same⟩ |
      ⟨kept, apart, ⟨occupied, same⟩ | ⟨vacant, ⟨rfl, same⟩ | ⟨rfl, same⟩ | ⟨reason, rfl, same⟩⟩⟩
    all_goals rw [same]
    · exact ⟨fun _ _ notSkipped => absurd skip notSkipped, fun _ => holds⟩
    · exact ⟨fun _ _ _ different => absurd self different, fun _ => holds⟩
    · exact ⟨fun _ _ _ _ none => absurd none occupied,
        fun _ => outstanding_enter current occupied sender rest holds⟩
    · rw [outstanding_refused_iff sound vacant]
      simp [kept, apart, vacant]
    · constructor
      · intro _ _ _ _ _ refused
        cases refused
      · intro _
        exact outstanding_ask current sound vacant sender rest holds
    · constructor
      · intro _ _ _ _ _ refused
        cases refused
      · rintro _ gone ⟨⟩

theorem clientReads_outstanding (inv : s.Inv) (holds : s.Outstanding) :
    (s.step .clientReads).Outstanding := by
  change s.clientReads.Outstanding
  cases current : s.link with
  | none =>
      simp only [clientReads, current]
      exact holds
  | some link =>
      have sound := inv.link link current
      cases read : link.toClient with
      | nil =>
          simp only [clientReads, current, read]
          exact holds
      | cons message rest =>
          rcases clientReads_cases current read with ⟨none, same⟩ | ⟨peer, result, about, -, same⟩
          · rw [same]
            refine outstanding_of_same holds ?_
            rintro later ⟨⟩ isOpen
            refine ⟨link, current, isOpen, fun peer waits => ⟨waits, ?_⟩⟩
            rw [underWay_read link read, none]
            simp
          · obtain ⟨-, senders, entry⟩ := sound.expects read about
            rw [same senders entry]
            refine outstanding_of_same holds ?_
            rintro later ⟨⟩ isOpen
            refine ⟨link, current, isOpen, ?_⟩
            intro other waits
            have apart : other ≠ peer := by
              rintro rfl
              exact waits (Function.update_self _ _ _)
            have counted := underWay_settle read about other
            rw [if_neg apart] at counted
            refine ⟨?_, counted.symm⟩
            simpa only [Link.settle, Function.update_of_ne apart] using waits

/-- The server reads what is no question. -/
theorem serverReads_outstanding_of_other {link : Link} (current : s.link = some link)
    (isOpen : link.serverOpen = true) {message : RegistryProtocol}
    {rest : List RegistryProtocol} (waiting : link.toServer = message :: rest)
    (other : asksFor message = none) (holds : s.Outstanding) (registry : Registry)
    (send : SendPoll) (completes : Bool) :
    (s.serverReads registry send completes).Outstanding := by
  have served : ∀ peer, Link.underWay { link with toServer := rest } peer = link.underWay peer := by
    intro peer
    rw [underWay_serve link waiting, other]
    simp
  rw [serverReads_eq current isOpen waiting]
  refine outstanding_of_same holds ?_
  rintro later ⟨⟩ stillOpen
  refine ⟨link, current, isOpen, ?_⟩
  intro peer waits
  cases answers : IncomingStream.answer registry message with
  | none =>
      rw [answers] at waits
      exact ⟨waits, served peer⟩
  | some reply =>
      rw [answers] at waits
      rcases answer_about answers with ⟨silent, -⟩ | ⟨asked, rfl, -⟩
      · cases send with
        | error reason => exact ⟨waits, served peer⟩
        | refused => exact ⟨waits, served peer⟩
        | accepted =>
            refine ⟨waits, ?_⟩
            have replied := underWay_reply { link with toServer := rest } reply peer
            rw [silent] at replied
            simp only [reduceCtorEq, if_false, Nat.add_zero] at replied
            exact replied.trans (served peer)
      · cases other

theorem underWay_answered {link : Link} {peer : PeerIdentifier} {rest : List RegistryProtocol}
    (waiting : link.toServer = .find peer :: rest) (found : Bool) (other : PeerIdentifier) :
    Link.underWay { link with
      toServer := rest
      toClient := link.toClient ++ [if found then .found peer else .notFound peer] } other =
        link.underWay other := by
  have replied := underWay_reply { link with toServer := rest }
    (if found then .found peer else .notFound peer) other
  rw [answersFor_ite] at replied
  exact replied.trans (underWay_serve link waiting other).symm

/-- The server reads a question: all stays well exactly when its answer is taken or it ends. -/
theorem serverReads_outstanding_of_find (inv : s.Inv) {link : Link} (current : s.link = some link)
    (isOpen : link.serverOpen = true) {peer : PeerIdentifier} {rest : List RegistryProtocol}
    (waiting : link.toServer = .find peer :: rest) (holds : s.Outstanding) (registry : Registry)
    (send : SendPoll) (completes : Bool) :
    (s.serverReads registry send completes).Outstanding ↔
      (completes = true → send ≠ .refused) := by
  have sound := inv.link link current
  obtain ⟨one, none⟩ := sound.served_idle waiting
  rw [serverReads_eq current isOpen waiting]
  cases send with
  | error reason =>
      simp only [ne_eq, reduceCtorEq, not_false_eq_true, implies_true, iff_true]
      rintro later ⟨⟩ stillOpen
      cases stillOpen
  | accepted =>
      simp only [ne_eq, reduceCtorEq, not_false_eq_true, implies_true, iff_true]
      refine outstanding_of_same holds ?_
      rintro later ⟨⟩ stillOpen
      refine ⟨link, current, isOpen, ?_⟩
      intro other waits
      exact ⟨waits, underWay_answered waiting (registry.hasPeer peer) other⟩
  | refused =>
      cases completes with
      | false =>
          simp only [Bool.false_eq_true, false_implies, iff_true]
          rintro later ⟨⟩ stillOpen
          cases stillOpen
      | true =>
          simp only [ne_eq, not_true_eq_false, imp_false, iff_false]
          exact not_outstanding_of_idle rfl rfl (sound.expected peer one) none

theorem serverReads_outstanding_iff (inv : s.Inv) (holds : s.Outstanding) (registry : Registry)
    (send : SendPoll) (completes : Bool) :
    (s.step (.serverReads registry send completes)).Outstanding ↔
      s.Accepts (.serverReads registry send completes) := by
  change (s.serverReads registry send completes).Outstanding ↔ _
  by_cases busy : ∃ link peer rest, s.link = some link ∧ link.serverOpen = true ∧
      link.toServer = .find peer :: rest
  · obtain ⟨link, peer, rest, current, isOpen, waiting⟩ := busy
    rw [serverReads_outstanding_of_find inv current isOpen waiting holds]
    constructor
    · intro accepted other asked later found _ _
      exact accepted
    · intro accepts
      exact accepts link peer rest current isOpen waiting
  · have accepts : s.Accepts (.serverReads registry send completes) := by
      intro link peer rest current isOpen waiting
      exact absurd ⟨link, peer, rest, current, isOpen, waiting⟩ busy
    simp only [accepts, iff_true]
    by_cases idle : ∀ link, s.link = some link → link.serverOpen = false ∨ link.toServer = []
    · rw [serverReads_idle registry send completes idle]
      exact holds
    · simp only [not_forall, not_or] at idle
      obtain ⟨link, current, isOpen, filled⟩ := idle
      obtain ⟨message, rest, waiting⟩ := List.exists_cons_of_ne_nil filled
      have opened : link.serverOpen = true := Bool.not_eq_false _ |>.mp isOpen
      refine serverReads_outstanding_of_other current opened waiting ?_ holds registry send
        completes
      cases message with
      | find peer => exact absurd ⟨link, peer, rest, current, opened, waiting⟩ busy
      | _ => rfl

theorem step_outstanding_iff (s : LookupSession) (event : Event) (inv : s.Inv)
    (holds : s.Outstanding) : (s.step event).Outstanding ↔ s.Accepts event := by
  cases event with
  | takeRequest send => exact takeRequest_outstanding_iff inv holds send
  | serverReads registry send completes =>
      exact serverReads_outstanding_iff inv holds registry send completes
  | request peer =>
      simp only [Accepts, iff_true]
      exact holds
  | cancel sender =>
      simp only [Accepts, iff_true]
      exact holds
  | connect stream =>
      simp only [Accepts, iff_true, step]
      cases current : s.link with
      | some link => exact holds
      | none =>
          rintro link ⟨⟩ _ peer waits
          exact absurd rfl waits
  | clientReads =>
      simp only [Accepts, iff_true]
      exact clientReads_outstanding inv holds
  | ping send =>
      simp only [Accepts, iff_true, step, ping]
      cases current : s.link with
      | none => exact holds
      | some link =>
          cases send with
          | refused => exact holds
          | error reason =>
              rintro gone ⟨⟩
          | accepted =>
              refine outstanding_of_same holds ?_
              rintro later ⟨⟩ isOpen
              exact ⟨link, current, isOpen, fun peer waits => ⟨waits, by simp [Link.underWay]⟩⟩
  | serverEnds =>
      simp only [Accepts, iff_true, step]
      cases current : s.link with
      | none => exact holds
      | some link =>
          rintro later ⟨⟩ isOpen
          cases isOpen
  | clientEnds =>
      simp only [Accepts, iff_true, step]
      cases current : s.link with
      | none => exact holds
      | some link =>
          rintro gone ⟨⟩

/-- Over a whole run every lookup in the table waits for exactly one question or answer, if and
only if no sink refuses one of these while the connection is open. -/
theorem outstanding_iff_accepts (events : List Event) :
    Transition.Throughout step Outstanding init events ↔
      Transition.Meets step Accepts init events :=
  Transition.throughout_iff_meets_of step_inv step_outstanding_iff init_inv
    (fun _ none => by cases none) events

/-- The only request of a connection finds the sink of the client full. -/
def refusedFind : List Event :=
  [.connect (Stream.new ⟨0⟩ (.ofByte 1) (NewStreamHandle.new (.ofByte 1) (.ofByte 3) ⟨0⟩) false),
    .request (.ofByte 2), .takeRequest .refused]

theorem refusedFind_stuck :
    ¬ Transition.Throughout step Outstanding init refusedFind := by
  intro always
  have holds := always refusedFind (List.prefix_refl _)
  have one := holds _ rfl rfl (.ofByte 2) (by decide)
  revert one
  decide

end HolePunch.Remote.LookupSession
