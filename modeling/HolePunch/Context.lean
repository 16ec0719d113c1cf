import HolePunch.BuildConnection

set_option autoImplicit false

/- Finding a peer and creating a connection to it (`context.rs`, and the search through the
registry providers of `registry.rs`). -/
namespace HolePunch

namespace SearchRemoteRegistries

/-- One turn of the poll loop. A provider that does not know the peer, or fails, only leaves the
set. -/
def turn (futures : List RegistryProvider)
    (completion : Option (Nat × Except Unit RegistryResult)) :
    Handled (List RegistryProvider) RegistryResult :=
  match Futures.pollUnordered futures completion with
  | (left, .ready (some .notFound)) => .transition left
  | (_, .ready (some result)) => .ready result
  | (_, .ready none) => .ready .notFound
  | (left, .error _) => .transition left
  | (_, .notReady) => .notReady

theorem turn_ready {futures : List RegistryProvider}
    {completion : Option (Nat × Except Unit RegistryResult)} {result : RegistryResult}
    (done : turn futures completion = .ready result) :
    result = .notFound ∨ ∃ index provider, futures[index]? = some provider ∧
      completion = some (index, .ok result) := by
  unfold turn at done
  split at done
  · cases done
  · rename_i polled
    cases done
    obtain ⟨index, within, same⟩ := Futures.pollUnordered_ready polled
    exact Or.inr ⟨index, _, List.getElem?_eq_getElem within, same⟩
  · cases done
    exact Or.inl rfl
  · cases done
  · cases done

end SearchRemoteRegistries

/-- The stages of the future that `create_connection_to_peer` returns. -/
inductive CreateConnectionToPeer where
  | findPeer (find : FindPeer)
  | newStream (future : NewStreamFuture)
  | buildConnectionToPeer (machine : BuildConnectionToPeer)
  deriving DecidableEq, Repr

namespace CreateConnectionToPeer

def new (registry : Registry) (peer : PeerIdentifier) : CreateConnectionToPeer :=
  .findPeer (registry.findPeer peer)

/-- What the outcome of the search leads to. -/
def found (localPeerIdentifier peer : PeerIdentifier) (result : RegistryResult) :
    Handled CreateConnectionToPeer Stream :=
  match result with
  | .found stream => .ready stream
  | .foundRemote handle =>
      .transition (.buildConnectionToPeer
        (BuildConnectionToPeer.new localPeerIdentifier peer handle))
  | .foundWithHandle handle => .transition (.newStream handle.newStream)
  | .notFound => .error (.peerNotFound peer)

def pollFindPeer (localPeerIdentifier peer : PeerIdentifier) (find : FindPeer)
    (completion : Option (Nat × Except Unit RegistryResult)) :
    Handled CreateConnectionToPeer Stream :=
  match find with
  | .ready result => found localPeerIdentifier peer result
  | .searchRemoteRegistries futures =>
      match SearchRemoteRegistries.turn futures completion with
      | .notReady => .notReady
      | .transition left => .transition (.findPeer (.searchRemoteRegistries left))
      | .ready result => found localPeerIdentifier peer result
      | .error reason => .error reason
      | .panic message => .panic message

def pollNewStream (future : NewStreamFuture) (answers : BuildAnswers) :
    Handled CreateConnectionToPeer Stream :=
  match future.poll answers.opened answers.flushed with
  | .error message => .panic message
  | .ok .notReady => .notReady
  | .ok (.error reason) => .error reason
  | .ok (.ready stream) => .ready stream

def pollBuildConnectionToPeer (machine : BuildConnectionToPeer) (answers : BuildAnswers) :
    Handled CreateConnectionToPeer Stream :=
  match (machine.step answers).1 with
  | .notReady => .notReady
  | .transition next => .transition (.buildConnectionToPeer next)
  | .ready stream => .ready stream
  | .error reason => .error reason
  | .panic message => .panic message

def step (localPeerIdentifier peer : PeerIdentifier) (stage : CreateConnectionToPeer)
    (completion : Option (Nat × Except Unit RegistryResult)) (answers : BuildAnswers) :
    Handled CreateConnectionToPeer Stream :=
  match stage with
  | .findPeer find => pollFindPeer localPeerIdentifier peer find completion
  | .newStream future => pollNewStream future answers
  | .buildConnectionToPeer machine => pollBuildConnectionToPeer machine answers

end CreateConnectionToPeer

end HolePunch
