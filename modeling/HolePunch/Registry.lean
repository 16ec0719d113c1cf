import Mathlib.Logic.Function.Basic
import HolePunch.Stream

set_option autoImplicit false

/- The registry of connected peers (`registry.rs`). -/
namespace HolePunch

abbrev RegistrationToken := UInt64

inductive RegistryResult where
  /-- The given stream is a direct stream to the peer. -/
  | found (stream : Stream)
  /-- The given handle creates a direct stream to the peer. -/
  | foundWithHandle (handle : NewStreamHandle)
  /-- The given handle returns streams to the remote peer that holds a connection to the
  searched peer. -/
  | foundRemote (handle : NewStreamHandle)
  | notFound
  deriving DecidableEq, Repr

/-- The implementors of the provider trait. -/
inductive RegistryProvider where
  | remoteRegistry
  | mdnsRegistry
  deriving DecidableEq, Repr

/-- The future that `find_peer` returns: an answer at once, or one pending request for each
provider. -/
inductive FindPeer where
  | ready (result : RegistryResult)
  | searchRemoteRegistries (futures : List RegistryProvider)
  deriving DecidableEq, Repr

structure Registry where
  connectedPeers : PeerIdentifier → Option (NewStreamHandle × RegistrationToken)
  registries : List RegistryProvider

namespace Registry

def new : Registry := ⟨fun _ => none, []⟩

def peer (registry : Registry) (peer : PeerIdentifier) : Option NewStreamHandle :=
  (registry.connectedPeers peer).map Prod.fst

def hasPeer (registry : Registry) (peer : PeerIdentifier) : Bool :=
  (registry.connectedPeers peer).isSome

/-- The token a registration of the peer receives. The addition on `u64` wraps, as it does in a
release build. -/
def nextToken (registry : Registry) (peer : PeerIdentifier) : RegistrationToken :=
  match registry.connectedPeers peer with
  | some (_, token) => token + 1
  | none => 0

def registerPeer (registry : Registry) (peer : PeerIdentifier)
    (newStreamHandle : NewStreamHandle) : RegistrationToken × Registry :=
  match registry.connectedPeers peer with
  | some (_, old) =>
      let token := old + 1
      (token, { registry with
        connectedPeers := Function.update registry.connectedPeers peer
          (some (newStreamHandle, token)) })
  | none =>
      (0, { registry with
        connectedPeers := Function.update registry.connectedPeers peer
          (some (newStreamHandle, 0)) })

def unregisterPeer (registry : Registry) (peer : PeerIdentifier) (token : RegistrationToken) :
    Registry :=
  match registry.connectedPeers peer with
  | some (_, current) =>
      if current = token then
        { registry with connectedPeers := Function.update registry.connectedPeers peer none }
      else registry
  | none => registry

def addRegistryProvider (registry : Registry) (provider : RegistryProvider) : Registry :=
  { registry with registries := registry.registries ++ [provider] }

/-- Drops all registries. -/
def contextBeingDropped (registry : Registry) : Registry := { registry with registries := [] }

def findPeer (registry : Registry) (peer : PeerIdentifier) : FindPeer :=
  match registry.connectedPeers peer with
  | some (handle, _) => .ready (.foundWithHandle handle)
  | none => .searchRemoteRegistries registry.registries

theorem registerPeer_eq (registry : Registry) (peer : PeerIdentifier) (handle : NewStreamHandle) :
    registry.registerPeer peer handle = (registry.nextToken peer, { registry with
      connectedPeers := Function.update registry.connectedPeers peer
        (some (handle, registry.nextToken peer)) }) := by
  unfold registerPeer nextToken
  cases registry.connectedPeers peer <;> rfl

theorem unregisterPeer_match {registry : Registry} {peer : PeerIdentifier}
    {token : RegistrationToken} {handle : NewStreamHandle}
    (entry : registry.connectedPeers peer = some (handle, token)) :
    registry.unregisterPeer peer token =
      { registry with connectedPeers := Function.update registry.connectedPeers peer none } := by
  simp only [unregisterPeer, entry, ↓reduceIte]

theorem unregisterPeer_mismatch {registry : Registry} {peer : PeerIdentifier}
    {token : RegistrationToken}
    (differs : ∀ handle, registry.connectedPeers peer ≠ some (handle, token)) :
    registry.unregisterPeer peer token = registry := by
  unfold unregisterPeer
  split
  · rename_i handle current entry
    split
    · rename_i same
      subst same
      exact absurd entry (differs handle)
    · rfl
  · rfl

theorem unregisterPeer_other (registry : Registry) {peer other : PeerIdentifier}
    (token : RegistrationToken) (apart : other ≠ peer) :
    (registry.unregisterPeer peer token).connectedPeers other =
      registry.connectedPeers other := by
  unfold unregisterPeer
  split
  · split
    · exact Function.update_of_ne apart _ _
    · rfl
  · rfl

/-- Entries that a removal leaves were there before it. -/
theorem unregisterPeer_some {registry : Registry} {peer other : PeerIdentifier}
    {token : RegistrationToken} {entry : NewStreamHandle × RegistrationToken}
    (present : (registry.unregisterPeer peer token).connectedPeers other = some entry) :
    registry.connectedPeers other = some entry := by
  unfold unregisterPeer at present
  split at present
  · split at present
    · by_cases own : other = peer
      · subst own
        simp only [Function.update_self] at present
        cases present
      · simpa only [Function.update_of_ne own] using present
    · exact present
  · exact present

end Registry

end HolePunch
