import Mathlib.Logic.Function.Basic
import HolePunch.Library.TimeCache
import HolePunch.Library.Transition
import HolePunch.Connect
import HolePunch.Registries.Remote

set_option autoImplicit false

/- The registry that searches for peers in local DNS (`registries/mdns.rs`). -/
namespace HolePunch.Mdns

open Remote (ResultSender)

inductive RecordKind where
  | a (addr : BitVec 32)
  | aaaa (addr : BitVec 128)
  | srv (port : UInt16)
  | ptr (target : List Char)
  | other
  deriving DecidableEq, Repr

structure Record where
  name : List Char
  kind : RecordKind
  deriving DecidableEq, Repr

/-- `mdns::Response`, by the records that `records()` walks through. -/
abbrev Response := List Record

/-- `str::find`: where the first occurrence of the pattern begins. -/
def find (pattern : List Char) : List Char → Option Nat
  | [] => if pattern.isEmpty then some 0 else none
  | c :: rest =>
      if pattern.isPrefixOf (c :: rest) then some 0 else (find pattern rest).map (· + 1)

structure DiscoveryResult where
  peer : PeerIdentifier
  ports : List UInt16
  ipAddresses : List IpAddr
  deriving DecidableEq, Repr

namespace DiscoveryResult

/-- The variables of the loop over the records. -/
structure Found where
  peer : Option PeerIdentifier
  ports : List UInt16
  ipAddresses : List IpAddr

/-- The peer that the instance name of a service record encodes. -/
def decode (hash : List Char) : Option PeerIdentifier :=
  match PubKeyHash.fromHashedHex (hash.filter (· ≠ '.')) with
  | .ok key => some key.identifier
  | .error _ => none

def scan (serviceName : List Char) : List Record → Found → Option Found
  | [], found => some found
  | record :: rest, found =>
      match record.kind with
      | .a addr => scan serviceName rest
          { found with ipAddresses := found.ipAddresses ++ [.v4 addr] }
      | .aaaa addr => scan serviceName rest
          { found with ipAddresses := found.ipAddresses ++ [.v6 addr] }
      | .srv port => scan serviceName rest { found with ports := found.ports ++ [port] }
      | .ptr hash =>
          -- Not the service we are interested in.
          if !serviceName.isPrefixOf record.name then none
          else match find ('.' :: record.name) hash with
            | some pos => scan serviceName rest { found with peer := decode (hash.take pos) }
            | none => scan serviceName rest found
      | .other => scan serviceName rest found

def tryFrom (resp : Response) (serviceName : List Char) : Option DiscoveryResult := do
  let found ← scan serviceName resp ⟨none, [], []⟩
  let peer ← found.peer
  return ⟨peer, found.ports, found.ipAddresses⟩

/-- Every address with every port, port by port. -/
def addrs (result : DiscoveryResult) : List SocketAddr :=
  result.ports.flatMap (fun port => result.ipAddresses.map (fun ip => ⟨ip, port⟩))

theorem addrs_eq_nil_iff (result : DiscoveryResult) :
    result.addrs = [] ↔ result.ports = [] ∨ result.ipAddresses = [] := by
  unfold addrs
  cases result.ports with
  | nil => simp
  | cons port rest =>
      cases result.ipAddresses with
      | nil => simp
      | cons ip others => simp

end DiscoveryResult

namespace Record

/-- Only pointer records are held against the service name. -/
def ofService (serviceName : List Char) (record : Record) : Bool :=
  match record.kind with
  | .ptr _ => serviceName.isPrefixOf record.name
  | _ => true

/-- The instance that a pointer record names, when its target lies under its own name. -/
def instanceName (record : Record) : Option (List Char) :=
  match record.kind with
  | .ptr hash => (find ('.' :: record.name) hash).map (fun pos => hash.take pos)
  | _ => none

def port (record : Record) : Option UInt16 :=
  match record.kind with
  | .srv port => some port
  | _ => none

def ip (record : Record) : Option IpAddr :=
  match record.kind with
  | .a addr => some (.v4 addr)
  | .aaaa addr => some (.v6 addr)
  | _ => none

end Record

/-- A response names a peer when all its pointer records are of the service and the last instance
they name encodes the peer. -/
structure Announces (serviceName : List Char) (resp : Response) (peer : PeerIdentifier) :
    Prop where
  service : ∀ record ∈ resp, record.ofService serviceName = true
  instanceName : (resp.filterMap Record.instanceName).getLast?.bind DiscoveryResult.decode =
    some peer

namespace DiscoveryResult

/-- The loop returns early at a pointer record of another service. Otherwise the last instance
name decides the peer, also when it encodes none. -/
theorem scan_eq (serviceName : List Char) (resp : Response) (found : Found) :
    scan serviceName resp found =
      if resp.all (Record.ofService serviceName) then some
        { peer := (resp.filterMap Record.instanceName).getLast?.elim found.peer decode
          ports := found.ports ++ resp.filterMap Record.port
          ipAddresses := found.ipAddresses ++ resp.filterMap Record.ip }
      else none := by
  induction resp generalizing found with
  | nil => simp [scan]
  | cons record rest ih =>
      obtain ⟨name, kind⟩ := record
      simp only [List.all_cons, List.filterMap_cons]
      cases kind with
      | a addr | aaaa addr | srv port =>
          simp only [scan, ih, Record.ofService, Record.instanceName, Record.port, Record.ip,
            Bool.true_and, List.append_assoc, List.singleton_append]
      | other =>
          simp only [scan, ih, Record.ofService, Record.instanceName, Record.port, Record.ip,
            Bool.true_and]
      | ptr hash =>
          simp only [scan, ih, Record.ofService, Record.instanceName, Record.port, Record.ip]
          by_cases service : serviceName.isPrefixOf name = true
          · simp only [service, Bool.not_true, Bool.false_eq_true, ↓reduceIte, Bool.true_and]
            cases find ('.' :: name) hash with
            | none => rfl
            | some pos =>
                simp only [Option.map_some, List.getLast?_cons, Option.elim_some]
                cases (rest.filterMap Record.instanceName).getLast? <;> rfl
          · rw [Bool.not_eq_true] at service
            simp only [service, Bool.not_false, ↓reduceIte, Bool.false_and, Bool.false_eq_true]

theorem tryFrom_eq (resp : Response) (serviceName : List Char) :
    tryFrom resp serviceName =
      if resp.all (Record.ofService serviceName) then
        ((resp.filterMap Record.instanceName).getLast?.bind decode).map
          (fun peer => ⟨peer, resp.filterMap Record.port, resp.filterMap Record.ip⟩)
      else none := by
  unfold tryFrom
  rw [scan_eq]
  split
  · cases (resp.filterMap Record.instanceName).getLast? with
    | none => rfl
    | some hash =>
        simp only [Option.elim_some, Option.bind_some, List.nil_append]
        cases decode hash <;> rfl
  · rfl

theorem tryFrom_eq_some_iff (resp : Response) (serviceName : List Char)
    (result : DiscoveryResult) : tryFrom resp serviceName = some result ↔
      Announces serviceName resp result.peer ∧ result.ports = resp.filterMap Record.port ∧
        result.ipAddresses = resp.filterMap Record.ip := by
  rw [tryFrom_eq]
  constructor
  · intro accepted
    split at accepted
    · rename_i service
      obtain ⟨peer, named, rfl⟩ := Option.map_eq_some_iff.mp accepted
      exact ⟨⟨List.all_eq_true.mp service, named⟩, rfl, rfl⟩
    · cases accepted
  · rintro ⟨⟨service, named⟩, samePorts, sameAddresses⟩
    rw [if_pos (List.all_eq_true.mpr service), named, ← samePorts, ← sameAddresses]
    rfl

end DiscoveryResult

/-- A `Delay` that yields the peer whose request it times. -/
structure Timeout where
  deadline : Nat
  peer : PeerIdentifier
  deriving DecidableEq, Repr

abbrev Cache := TimeCache (List UInt8) DiscoveryResult

/-- Twenty peers, each for sixty seconds. -/
def knownPeersCache : Cache := TimeCache.lru (List UInt8) DiscoveryResult 20 60

def maxQueuedRequests : Nat := 10

/-- Seconds until a queued request times out. -/
def queuedRequestTimeout : Nat := 10

/-- `known_peers` is ordered by the keys' buffers, which therefore index the cache. The tasks
handed to the runtime are collected in `spawned`, each with the sender it completes. -/
structure Discovery (cache : Cache) where
  serviceName : List Char
  localPeerIdentifier : PeerIdentifier
  knownPeers : cache.State
  strategies : { given : Nat // 0 < given }
  queuedRequests : PeerIdentifier → Option ResultSender
  queuedRequestsTimeouts : List Timeout
  spawned : List (ResultSender × List ConnectWithStrategies)

/-- What polling a source gives once it has no item left. -/
inductive SourceEnd where
  | notReady
  | finished
  | error
  deriving DecidableEq, Repr

/-- What the sources answer during one poll: the items each yields and what ends them. A timer is
named by its position in the set at the time it completes, and may fail instead of firing. -/
structure Answers where
  now : Nat
  responses : List Response
  discovery : SourceEnd
  timeouts : List (Nat × Except Unit Unit)
  requests : List (ResultSender × PeerIdentifier)
  requestRecv : SourceEnd

/-- A task is dropped when it completes, fails or panics. -/
inductive Task (cache : Cache) where
  | running (discovery : Discovery cache)
  | failed
  | panicked (message : String)

/-- The service type that `MdnsRegistry::new` registers and searches for. -/
def serviceType (serviceName : List Char) : List Char :=
  if ['_'].isPrefixOf serviceName then serviceName else '_' :: serviceName

/-- What the responder is registered with. -/
structure MdnsResponderContext where
  localPeerIdentifier : List Char
  serviceName : List Char
  listenPort : UInt16
  deriving DecidableEq, Repr

namespace MdnsResponderContext

/-- The hash is too long for one label and is split up. -/
def create (serviceName : List Char) (localPeerIdentifier : PeerIdentifier)
    (listenPort : UInt16) : MdnsResponderContext :=
  let text := localPeerIdentifier.toText
  ⟨text.take (text.length / 2) ++ '.' :: text.drop (text.length / 2), serviceName, listenPort⟩

/-- The pointer record that `libmdns` publishes for a registered service. -/
def pointer (context : MdnsResponderContext) : Record :=
  let name := context.serviceName ++ ".local".toList
  ⟨name, .ptr (context.localPeerIdentifier ++ '.' :: name)⟩

end MdnsResponderContext

namespace Discovery

variable {cache : Cache}

def localName (serviceName : List Char) : List Char :=
  if ".local".toList.isSuffixOf serviceName then serviceName
  else serviceName ++ ".local".toList

def new (cache : Cache) (serviceName : List Char) (localPeerIdentifier : PeerIdentifier)
    (strategies : { given : Nat // 0 < given }) : Discovery cache where
  serviceName := localName serviceName
  localPeerIdentifier := localPeerIdentifier
  knownPeers := cache.empty
  strategies := strategies
  queuedRequests := fun _ => none
  queuedRequestsTimeouts := []
  spawned := []

def fulfillRequest (s : Discovery cache) (sender : ResultSender) (peer : DiscoveryResult) :
    Except String (Discovery cache) := do
  let connections ← peer.addrs.mapM
    (fun a => ConnectWithStrategies.new s.strategies.val a (.user s.localPeerIdentifier))
  let select ← Futures.selectOk connections
  return { s with spawned := s.spawned ++ [(sender, select)] }

/-- A queued request for the peer that has been found leaves the queue and is answered. -/
def answerQueued (s : Discovery cache) (r : DiscoveryResult) : Except String (Discovery cache) :=
  match s.queuedRequests r.peer with
  | some request =>
      fulfillRequest
        { s with queuedRequests := Function.update s.queuedRequests r.peer none } request r
  | none => .ok s

/-- One response of `poll_results`. -/
def handleResponse (now : Nat) (s : Discovery cache) (res : Response) :
    Except String (Discovery cache) :=
  match DiscoveryResult.tryFrom res s.serviceName with
  | none => .ok s
  | some r =>
      -- We don't want to add us self
      if r.peer = s.localPeerIdentifier then .ok s
      else do
        let s ← s.answerQueued r
        return { s with knownPeers := cache.insert now r.peer.padded r s.knownPeers }

/-- One timer that `poll_queued_requests_timeouts` finds completed. A timer fires only after its
deadline. -/
def handleTimeout (now : Nat) (s : Discovery cache) (completion : Nat × Except Unit Unit) :
    Discovery cache :=
  match s.queuedRequestsTimeouts[completion.1]?, completion.2 with
  | none, _ => s
  | some timeout, .ok _ =>
      if timeout.deadline ≤ now then { s with
        queuedRequests := Function.update s.queuedRequests timeout.peer none
        queuedRequestsTimeouts := s.queuedRequestsTimeouts.eraseIdx completion.1 }
      else s
  | some _, .error _ => { s with
      queuedRequestsTimeouts := s.queuedRequestsTimeouts.eraseIdx completion.1 }

/-- One request of the loop of `poll`. The sender of a request that is neither answered nor queued
is dropped. -/
def handleRequest (now : Nat) (s : Discovery cache) (request : ResultSender × PeerIdentifier) :
    Except String (Discovery cache) :=
  match cache.get now request.2.padded s.knownPeers with
  | (some result, knownPeers) =>
      fulfillRequest { s with knownPeers := knownPeers } request.1 result
  | (none, knownPeers) =>
      let s := { s with knownPeers := knownPeers }
      match s.queuedRequests request.2 with
      | some _ => .ok s
      | none =>
          if maxQueuedRequests ≤ s.queuedRequestsTimeouts.length then .ok s
          else .ok { s with
            queuedRequests := Function.update s.queuedRequests request.2 (some request.1)
            queuedRequestsTimeouts := s.queuedRequestsTimeouts ++
              [⟨now + queuedRequestTimeout, request.2⟩] }

/-- `poll` with the loops it calls. Each source is drained in turn; a source that fails or ends
fails the task. -/
def poll (s : Discovery cache) (answers : Answers) : Task cache :=
  match answers.responses.foldlM (handleResponse answers.now) s with
  | .error message => .panicked message
  | .ok s =>
      match answers.discovery with
      | .finished => .failed
      | .error => .failed
      | .notReady =>
          let s := answers.timeouts.foldl (handleTimeout answers.now) s
          match answers.requests.foldlM (handleRequest answers.now) s with
          | .error message => .panicked message
          | .ok s =>
              match answers.requestRecv with
              | .finished => .failed
              | .error => .failed
              | .notReady => .running s

end Discovery

namespace Task

variable {cache : Cache}

def step (task : Task cache) (answers : Answers) : Task cache :=
  match task with
  | .running s => s.poll answers
  | .failed => .failed
  | .panicked message => .panicked message

def Survives (task : Task cache) : Prop := ∀ message, task ≠ .panicked message

end Task

end HolePunch.Mdns
