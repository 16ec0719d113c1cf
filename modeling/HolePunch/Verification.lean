import HolePunch.Authenticator
import HolePunch.Library.Transition

set_option autoImplicit false

/- Which keys the authenticator hands out, over every run of verifications and collections. The
record of calls keeps what each verification returned, newest first. -/
namespace HolePunch

namespace Authenticator

/-- Whether certificates of this direction are checked; without a store all of them are trusted. -/
def checks (authenticator : Authenticator) : ConnectionType → Bool
  | .incoming => authenticator.incomingCertificates
  | .outgoing => authenticator.outgoingCertificates

/-- The certificate passes whatever check is configured, and its key can be read. -/
def Trusted (authenticator : Authenticator) (handshake : Handshake) : Prop :=
  (authenticator.checks handshake.connectionType = true → handshake.verdict = .ok true) ∧
    ∃ key, handshake.pubKeyHash = .ok key

/-- The configured check ends in an error, or the key of the certificate cannot be read. -/
def Unreadable (authenticator : Authenticator) (handshake : Handshake) : Prop :=
  (authenticator.checks handshake.connectionType = true ∧ handshake.verdict = .error ()) ∨
    handshake.pubKeyHash = .error ()

/-- `verify` by the answer of the check and the key of the certificate. -/
theorem verify_eq (authenticator : Authenticator) (handshake : Handshake) :
    authenticator.verify handshake =
      match (if authenticator.checks handshake.connectionType then handshake.verdict
          else .ok true), handshake.pubKeyHash with
      | .error reason, _ => (.error reason, authenticator)
      | .ok _, .error reason => (.error reason, authenticator)
      | .ok accepted, .ok key =>
          (.ok accepted, authenticator.addIncomingConPubKey handshake.connectionId key) := by
  obtain ⟨keys, incoming, outgoing⟩ := authenticator
  obtain ⟨id, direction, verdict, certificate⟩ := handshake
  cases direction with
  | incoming => cases incoming <;> cases verdict <;> cases certificate <;> rfl
  | outgoing => cases outgoing <;> cases verdict <;> cases certificate <;> rfl

theorem verify_trusted {authenticator : Authenticator} {handshake : Handshake}
    {key : PeerIdentifier} (trusted : authenticator.Trusted handshake)
    (readable : handshake.pubKeyHash = .ok key) :
    authenticator.verify handshake =
      (.ok true, authenticator.addIncomingConPubKey handshake.connectionId key) := by
  rw [verify_eq, readable]
  by_cases checked : authenticator.checks handshake.connectionType = true
  · rw [if_pos checked, trusted.1 checked]
  · rw [if_neg checked]

theorem verify_unreadable {authenticator : Authenticator} {handshake : Handshake}
    (fails : authenticator.Unreadable handshake) :
    authenticator.verify handshake = (.error (), authenticator) := by
  rw [verify_eq]
  rcases fails with ⟨checked, failed⟩ | unreadable
  · rw [if_pos checked, failed]
  · rw [unreadable]
    split <;> simp_all

/-- The remaining verifications: the check rejects a certificate whose key can be read. -/
theorem verify_rejected {authenticator : Authenticator} {handshake : Handshake}
    (notTrusted : ¬ authenticator.Trusted handshake)
    (readable : ¬ authenticator.Unreadable handshake) :
    ∃ key, handshake.pubKeyHash = .ok key ∧ authenticator.verify handshake =
      (.ok false, authenticator.addIncomingConPubKey handshake.connectionId key) := by
  cases certificate : handshake.pubKeyHash with
  | error reason => exact absurd (Or.inr certificate) readable
  | ok key =>
      have checked : authenticator.checks handshake.connectionType = true := by
        by_contra unchecked
        exact notTrusted ⟨fun asked => absurd asked unchecked, key, certificate⟩
      have rejected : handshake.verdict = .ok false := by
        cases answer : handshake.verdict with
        | error reason => exact absurd (Or.inl ⟨checked, answer⟩) readable
        | ok accepted =>
            cases accepted with
            | false => rfl
            | true => exact absurd ⟨fun _ => answer, key, certificate⟩ notTrusted
      refine ⟨key, rfl, ?_⟩
      rw [verify_eq, certificate, if_pos checked, rejected]

end Authenticator

namespace Verification

/-- A call of the authenticator by the transport or by `Connection::new`. -/
inductive Event where
  | verify (handshake : Handshake)
  | incomingConPubKey (id : ConnectionId)

/-- A call that was made, a verification with what it returned. -/
inductive Call where
  | verified (handshake : Handshake) (result : Except Unit Bool)
  | collected (id : ConnectionId)

def Call.connectionId : Call → ConnectionId
  | .verified handshake _ => handshake.connectionId
  | .collected id => id

structure Session where
  authenticator : Authenticator
  calls : List Call

def Session.new (incomingCertificates outgoingCertificates : Bool) : Session :=
  ⟨Authenticator.new incomingCertificates outgoingCertificates, []⟩

def Session.step (s : Session) : Event → Session
  | .verify handshake =>
      ⟨(s.authenticator.verify handshake).2,
        .verified handshake (s.authenticator.verify handshake).1 :: s.calls⟩
  | .incomingConPubKey id =>
      ⟨(s.authenticator.incomingConPubKey id).2, .collected id :: s.calls⟩

def mostRecent (calls : List Call) (id : ConnectionId) : Option Call :=
  calls.find? (fun call => call.connectionId == id)

/-- The most recent call for a connection is a verification that returned `Ok(true)`, and this is
the key of the certificate it accepted. -/
def Session.Verified (s : Session) (id : ConnectionId) (key : PeerIdentifier) : Prop :=
  ∃ handshake, mostRecent s.calls id = some (.verified handshake (.ok true)) ∧
    handshake.pubKeyHash = .ok key

/-- A collection now would return exactly the key of a verified connection. -/
def Session.HandsOutVerified (s : Session) : Prop :=
  ∀ id key, (s.authenticator.incomingConPubKey id).1 = some key ↔ s.Verified id key

/-- A verification accepts its certificate, or ends in an error while no earlier key of its
connection waits to be collected. -/
def Session.Sound (s : Session) : Event → Prop
  | .verify handshake => s.authenticator.Trusted handshake ∨
      (s.authenticator.Unreadable handshake ∧
        s.authenticator.incomingConPubKeys handshake.connectionId = none)
  | .incomingConPubKey _ => True

theorem mostRecent_of_ne {call : Call} {id : ConnectionId} (calls : List Call)
    (other : call.connectionId ≠ id) : mostRecent (call :: calls) id = mostRecent calls id := by
  unfold mostRecent
  rw [List.find?_cons_of_neg]
  simp only [beq_iff_eq]
  exact other

theorem mostRecent_self (call : Call) (calls : List Call) :
    mostRecent (call :: calls) call.connectionId = some call := by
  unfold mostRecent
  rw [List.find?_cons_of_pos]
  exact beq_self_eq_true _

/-- A call decides about its own connection only: a state that was right stays right exactly when
the call leaves its connection right. -/
theorem Session.handsOutVerified_iff {s : Session} (right : s.HandsOutVerified)
    (authenticator : Authenticator) (call : Call)
    (others : ∀ id, id ≠ call.connectionId →
      authenticator.incomingConPubKeys id = s.authenticator.incomingConPubKeys id) :
    (Session.mk authenticator (call :: s.calls)).HandsOutVerified ↔
      ∀ key, authenticator.incomingConPubKeys call.connectionId = some key ↔
        ∃ handshake, call = .verified handshake (.ok true) ∧ handshake.pubKeyHash = .ok key := by
  constructor
  · intro holds key
    have here := holds call.connectionId key
    unfold Session.Verified at here
    rw [mostRecent_self] at here
    simpa only [Authenticator.incomingConPubKey, Option.some.injEq] using here
  · intro here id key
    by_cases same : id = call.connectionId
    · subst same
      unfold Session.Verified
      rw [mostRecent_self]
      simpa only [Authenticator.incomingConPubKey, Option.some.injEq] using here key
    · have before := right id key
      unfold Session.Verified at before ⊢
      rw [mostRecent_of_ne _ (Ne.symm same)]
      simpa only [Authenticator.incomingConPubKey, others id same] using before

theorem addIncomingConPubKey_of_ne (authenticator : Authenticator) {id other : ConnectionId}
    (key : PeerIdentifier) (different : other ≠ id) :
    (authenticator.addIncomingConPubKey id key).incomingConPubKeys other =
      authenticator.incomingConPubKeys other :=
  Function.update_of_ne different _ _

theorem addIncomingConPubKey_self (authenticator : Authenticator) (id : ConnectionId)
    (key : PeerIdentifier) :
    (authenticator.addIncomingConPubKey id key).incomingConPubKeys id = some key :=
  Function.update_self _ _ _

theorem Session.step_collect {s : Session} (right : s.HandsOutVerified) (id : ConnectionId) :
    (s.step (.incomingConPubKey id)).HandsOutVerified := by
  refine (Session.handsOutVerified_iff right _ (.collected id) ?_).mpr ?_
  · intro other different
    exact Function.update_of_ne different _ _
  · intro key
    simp only [Authenticator.incomingConPubKey, Call.connectionId, Function.update_self,
      reduceCtorEq, false_and, exists_false]

/-- One call keeps the store right exactly when it is sound. -/
theorem Session.step_handsOutVerified_iff (s : Session) (event : Event)
    (right : s.HandsOutVerified) : (s.step event).HandsOutVerified ↔ s.Sound event := by
  cases event with
  | incomingConPubKey id =>
      simp only [Session.Sound, iff_true]
      exact Session.step_collect right id
  | verify handshake =>
      simp only [Session.Sound, Session.step]
      by_cases trusted : s.authenticator.Trusted handshake
      · obtain ⟨key, readable⟩ := trusted.2
        rw [Authenticator.verify_trusted trusted readable]
        rw [Session.handsOutVerified_iff right]
        · simp only [trusted, true_or, iff_true, Call.connectionId]
          intro other
          rw [addIncomingConPubKey_self]
          simp [readable]
        · intro id different
          exact addIncomingConPubKey_of_ne _ key different
      · by_cases fails : s.authenticator.Unreadable handshake
        · rw [Authenticator.verify_unreadable fails]
          rw [Session.handsOutVerified_iff right _ _ (fun _ _ => rfl)]
          simp [trusted, fails, Call.connectionId, Option.eq_none_iff_forall_ne_some]
        · obtain ⟨key, readable, rejected⟩ := Authenticator.verify_rejected trusted fails
          rw [rejected]
          rw [Session.handsOutVerified_iff right]
          · simp only [trusted, fails, false_and, or_self, iff_false, Call.connectionId]
            intro agrees
            have handedOut := (agrees key).mp (addIncomingConPubKey_self _ _ _)
            simp at handedOut
          · intro id different
            exact addIncomingConPubKey_of_ne _ key different

theorem Session.new_handsOutVerified (incomingCertificates outgoingCertificates : Bool) :
    (Session.new incomingCertificates outgoingCertificates).HandsOutVerified := by
  intro id key
  simp [Session.new, Authenticator.new, Authenticator.incomingConPubKey, Session.Verified,
    mostRecent]

/-- Over every run only verified keys are handed out, and all of them, exactly when no
verification rejects a certificate whose key can be read and none fails while an earlier key of
its connection is uncollected. -/
theorem handsOutVerified_iff_sound (incomingCertificates outgoingCertificates : Bool)
    (events : List Event) :
    Transition.Throughout Session.step Session.HandsOutVerified
        (Session.new incomingCertificates outgoingCertificates) events ↔
      Transition.Meets Session.step Session.Sound
        (Session.new incomingCertificates outgoingCertificates) events :=
  Transition.throughout_iff_meets Session.step_handsOutVerified_iff
    (Session.new_handsOutVerified incomingCertificates outgoingCertificates) events

/-- An incoming certificate that the configured check rejects. -/
def rejectedHandshake : Handshake :=
  ⟨0, .incoming, .ok false, .ok (PeerIdentifier.ofByte 7)⟩

theorem rejected_key_handed_out :
    ((Authenticator.new true false).verify rejectedHandshake).1 = .ok false ∧
    (((Authenticator.new true false).verify rejectedHandshake).2.incomingConPubKey 0).1 =
      some (PeerIdentifier.ofByte 7) ∧
    ¬ Transition.Throughout Session.step Session.HandsOutVerified (Session.new true false)
      [.verify rejectedHandshake] := by
  refine ⟨rfl, rfl, ?_⟩
  intro always
  have right := always [.verify rejectedHandshake] (List.prefix_refl _)
  obtain ⟨handshake, recent, _⟩ := (right 0 (PeerIdentifier.ofByte 7)).mp rfl
  change some (Call.verified rejectedHandshake (.ok false)) = _ at recent
  simp at recent

end Verification

end HolePunch
