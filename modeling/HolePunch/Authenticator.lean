import HolePunch.Protocol

set_option autoImplicit false

/- The store of authenticated keys (`authenticator.rs`). Certificates and their verification are
the transport's; what the code reads of them is the result of `default_verify_certificate` and
the hash of the certificate's public key. -/
namespace HolePunch

abbrev ConnectionId := UInt64

inductive ConnectionType where
  | incoming
  | outgoing
  deriving DecidableEq, Repr

/-- One call of the verification callback: `verdict` is what `default_verify_certificate` answers
if it is asked, `pubKeyHash` what `PubKeyHash::from_public_key` gives for the certificate. -/
structure Handshake where
  connectionId : ConnectionId
  connectionType : ConnectionType
  verdict : Except Unit Bool
  pubKeyHash : Except Unit PeerIdentifier

structure Authenticator where
  incomingConPubKeys : ConnectionId → Option PeerIdentifier
  /-- Whether a store of trusted certificates is configured for each direction. -/
  incomingCertificates : Bool
  outgoingCertificates : Bool

namespace Authenticator

def new (incomingCertificates outgoingCertificates : Bool) : Authenticator :=
  ⟨fun _ => none, incomingCertificates, outgoingCertificates⟩

def addIncomingConPubKey (authenticator : Authenticator) (id : ConnectionId)
    (key : PeerIdentifier) : Authenticator :=
  { authenticator with
    incomingConPubKeys := Function.update authenticator.incomingConPubKeys id (some key) }

/-- Returns the key of a connection and removes it from the store. -/
def incomingConPubKey (authenticator : Authenticator) (id : ConnectionId) :
    Option PeerIdentifier × Authenticator :=
  (authenticator.incomingConPubKeys id,
    { authenticator with
      incomingConPubKeys := Function.update authenticator.incomingConPubKeys id none })

def verify (authenticator : Authenticator) (handshake : Handshake) :
    Except Unit Bool × Authenticator :=
  let res := match handshake.connectionType with
    | .incoming => if authenticator.incomingCertificates then handshake.verdict else .ok true
    | .outgoing => if authenticator.outgoingCertificates then handshake.verdict else .ok true
  match res with
  | .error reason => (.error reason, authenticator)
  | .ok accepted =>
      match handshake.pubKeyHash with
      | .error reason => (.error reason, authenticator)
      | .ok key => (.ok accepted, authenticator.addIncomingConPubKey handshake.connectionId key)

end Authenticator

end HolePunch
