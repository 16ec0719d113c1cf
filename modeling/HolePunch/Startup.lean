import HolePunch.Config
import HolePunch.ContextTask
import HolePunch.Registries.ConnectionHandler
import HolePunch.Registries.Responder

set_option autoImplicit false

/- From the calls of a configuration (`config.rs`) to the tasks of a running peer: the certificate
stores (`authenticator.rs`), the registries and the context (`context.rs`). -/
namespace HolePunch

inductive FileFormat where
  | pem
  | der
  deriving DecidableEq, Repr

/-- `picoquic::Config`, as far as it is set and looked at here. -/
structure QuicConfig where
  certificateChainFilename : Option (List Char)
  privateKeyFilename : Option (List Char)
  certificateChain : Option (List (List UInt8) × FileFormat)
  privateKey : Option (List UInt8 × FileFormat)
  deriving DecidableEq, Repr

/-- The builder has the same fields. Its remote peers are those of `ConfigBuilder`. -/
structure Config extends ConfigBuilder where
  quicListenAddress : SocketAddr
  quicConfig : QuicConfig
  incomingCaCertificates : Option (List (List Char))
  outgoingCaCertificates : Option (List (List Char))
  remoteRegistryPingInterval : Remote.Duration
  remoteRegistryAddressResolveTimeout : Remote.Duration
  enableMdns : Option (List Char)

namespace Config

/-- `ConfigBuilder::new`. -/
def builder : Config where
  remotePeers := []
  quicListenAddress := ⟨.v4 0, 0⟩
  quicConfig := ⟨none, none, none, none⟩
  incomingCaCertificates := none
  outgoingCaCertificates := none
  remoteRegistryPingInterval := ⟨5 * Remote.second, by decide⟩
  remoteRegistryAddressResolveTimeout := ⟨2 * Remote.second, by decide⟩
  enableMdns := none

/-- A method of the builder with its argument. -/
inductive Call where
  | setQuicListenPort (port : UInt16)
  | setQuicListenAddress (addr : SocketAddr)
  | setCertificateChainFilename (cert : List Char)
  | setPrivateKeyFilename (path : List Char)
  | setCertificateChain (certs : List (List UInt8)) (format : FileFormat)
  | setPrivateKey (key : List UInt8) (format : FileFormat)
  | setIncomingCaCertificates (certs : List (List Char))
  | setOutgoingCaCertificates (certs : List (List Char))
  | setRemoteRegistryPingInterval (interval : Remote.Duration)
  | setRemoteRegistryAddressResolveTimeout (timeout : Remote.Duration)
  | addRemotePeer (remotePeer : RemotePeer)
  | addRemotePeerByUrl (url : List Char)
  | enableMdns (serviceName : List Char)

/-- Only an URL can be refused. `parse` is `Url::parse`. -/
def call (parse : List Char → Except String Url) (config : Config) : Call → Except Error Config
  | .setQuicListenPort port =>
      .ok { config with quicListenAddress := { config.quicListenAddress with port := port } }
  | .setQuicListenAddress addr => .ok { config with quicListenAddress := addr }
  | .setCertificateChainFilename cert => .ok { config with
      quicConfig := { config.quicConfig with certificateChainFilename := some cert } }
  | .setPrivateKeyFilename path => .ok { config with
      quicConfig := { config.quicConfig with privateKeyFilename := some path } }
  | .setCertificateChain certs format => .ok { config with
      quicConfig := { config.quicConfig with certificateChain := some (certs, format) } }
  | .setPrivateKey key format => .ok { config with
      quicConfig := { config.quicConfig with privateKey := some (key, format) } }
  | .setIncomingCaCertificates certs => .ok { config with incomingCaCertificates := some certs }
  | .setOutgoingCaCertificates certs => .ok { config with outgoingCaCertificates := some certs }
  | .setRemoteRegistryPingInterval interval =>
      .ok { config with remoteRegistryPingInterval := interval }
  | .setRemoteRegistryAddressResolveTimeout timeout =>
      .ok { config with remoteRegistryAddressResolveTimeout := timeout }
  | .addRemotePeer remotePeer =>
      .ok { config with toConfigBuilder := config.toConfigBuilder.addRemotePeer remotePeer }
  | .addRemotePeerByUrl url => do
      let builder ← config.toConfigBuilder.addRemotePeerByUrl parse url
      return { config with toConfigBuilder := builder }
  | .enableMdns serviceName => .ok { config with enableMdns := some serviceName }

def build (config : Config) : Except Error Config :=
  if config.quicConfig.privateKey.isNone && config.quicConfig.privateKeyFilename.isNone then
    .error (.custom "Private key is required!")
  else if config.quicConfig.certificateChain.isNone &&
      config.quicConfig.certificateChainFilename.isNone then
    .error (.custom "Certificate chain is required!")
  else .ok config

end Config

/-- What a start finds outside: the certificate in a file, the address that `picoquic` listens on,
and whether mDNS can be searched. -/
structure Surroundings where
  certificate : List Char → Except Error (List UInt8)
  listen : SocketAddr → QuicConfig → Except Error SocketAddr
  discover : List Char → Except Error Unit
  now : Remote.Now

/-- `create_certificate_store`. -/
def createCertificateStore (surroundings : Surroundings) (certs : Option (List (List Char))) :
    Except Error (Option (List (List UInt8))) :=
  match certs with
  | none => .ok none
  | some [] => .error (.custom "Certificates list must not be empty!")
  | some certs => do
      let store ← certs.mapM surroundings.certificate
      return some store

/-- The stores that `verify` checks certificates against. -/
structure Stores where
  incomingCertificates : Option (List (List UInt8))
  outgoingCertificates : Option (List (List UInt8))
  deriving DecidableEq, Repr

namespace Stores

/-- `Authenticator::new`, where the certificates of the clients are those of incoming
connections. -/
def new (surroundings : Surroundings) (serverCerts clientCerts : Option (List (List Char))) :
    Except Error Stores := do
  let incomingCertificates ← createCertificateStore surroundings clientCerts
  let outgoingCertificates ← createCertificateStore surroundings serverCerts
  return ⟨incomingCertificates, outgoingCertificates⟩

def authenticator (stores : Stores) : Authenticator :=
  Authenticator.new stores.incomingCertificates.isSome stores.outgoingCertificates.isSome

end Stores

/-- The tasks of an `MdnsRegistry`, with the channel that it sends its requests through. -/
structure MdnsTasks (cache : Mdns.Cache) where
  context : Mdns.MdnsResponderContext
  responder : Mdns.ResponderRun
  requests : Sync.Unbounded (Remote.ResultSender × PeerIdentifier)
  discovery : Mdns.Task cache

/-- `MdnsRegistry::new`. -/
def MdnsTasks.new (surroundings : Surroundings) (cache : Mdns.Cache)
    (localPeerIdentifier : PeerIdentifier) (strategies : { given : Nat // 0 < given })
    (serviceName : List Char) (listenPort : UInt16) : Except Error (MdnsTasks cache) := do
  let serviceName := Mdns.serviceType serviceName
  surroundings.discover (Mdns.Discovery.localName serviceName)
  return {
    context := Mdns.MdnsResponderContext.create serviceName localPeerIdentifier listenPort
    responder := Mdns.ResponderRun.start (surroundings.now.nanos / Remote.second)
    requests := Sync.Unbounded.unbounded
    discovery := .running (Mdns.Discovery.new cache serviceName localPeerIdentifier strategies) }

/-- The task of a `RemoteRegistry`, with what it was created with. -/
structure RemoteTask where
  context : Remote.ConnectionHandlerContext
  handler : Remote.HandlerRun

/-- A peer with all tasks that its context has spawned. -/
structure Peer (cache : Mdns.Cache) where
  stores : Stores
  quicLocalAddr : SocketAddr
  context : ContextRun
  remote : Option RemoteTask
  mdns : Option (MdnsTasks cache)

namespace Peer

/-- `strategies::init` gives the one strategy there is. -/
def strategies : { given : Nat // 0 < given } := ⟨1, Nat.one_pos⟩

/-- `RemoteRegistry::new` for the given peers, unless there are none. The handler resolves them at
once, where an overflow of the timer panics. -/
def startRemote (surroundings : Surroundings) (config : Config) :
    Except String (Option RemoteTask) :=
  if given : 0 < config.remotePeers.length then
    let context : Remote.ConnectionHandlerContext :=
      ⟨⟨config.remotePeers.length, given⟩, strategies, config.remoteRegistryPingInterval,
        config.remoteRegistryAddressResolveTimeout⟩
    let handler := Remote.HandlerRun.start context surroundings.now
    match handler.task with
    | .panicked message => .error message
    | _ => .ok (some ⟨context, handler⟩)
  else .ok none

def startMdns (surroundings : Surroundings) (cache : Mdns.Cache)
    (localPeerIdentifier : PeerIdentifier) (config : Config) (listenPort : UInt16) :
    Except Error (Option (MdnsTasks cache)) :=
  match config.enableMdns with
  | none => .ok none
  | some serviceName => do
      let tasks ← MdnsTasks.new surroundings cache localPeerIdentifier strategies serviceName
        listenPort
      return some tasks

/-- The registry with the providers that have been started. -/
def registry (remote mdns : Bool) : Registry :=
  let registry :=
    if remote then Registry.new.addRegistryProvider .remoteRegistry else Registry.new
  if mdns then registry.addRegistryProvider .mdnsRegistry else registry

/-- `Context::new`. The outer error is a panic. -/
def new (surroundings : Surroundings) (cache : Mdns.Cache)
    (localPeerIdentifier : PeerIdentifier) (config : Config) :
    Except String (Except Error (Peer cache)) :=
  match Stores.new surroundings config.outgoingCaCertificates config.incomingCaCertificates with
  | .error reason => .ok (.error reason)
  | .ok stores =>
      match surroundings.listen config.quicListenAddress config.quicConfig with
      | .error reason => .ok (.error reason)
      | .ok quicLocalAddr =>
          match startRemote surroundings config with
          | .error message => .error message
          | .ok remote =>
              match startMdns surroundings cache localPeerIdentifier config quicLocalAddr.port with
              | .error reason => .ok (.error reason)
              | .ok mdns => .ok (.ok {
                  stores := stores
                  quicLocalAddr := quicLocalAddr
                  context := ContextRun.init localPeerIdentifier stores.authenticator
                    (registry remote.isSome mdns.isSome).registries strategies
                  remote := remote
                  mdns := mdns })

end Peer

namespace Config

namespace Call

def incomingCaCertificates : Call → Option (List (List Char))
  | .setIncomingCaCertificates certs => some certs
  | _ => none

def outgoingCaCertificates : Call → Option (List (List Char))
  | .setOutgoingCaCertificates certs => some certs
  | _ => none

def mdns : Call → Option (List Char)
  | .enableMdns serviceName => some serviceName
  | _ => none

def pingInterval : Call → Option Remote.Duration
  | .setRemoteRegistryPingInterval interval => some interval
  | _ => none

/-- The remote peer that a call adds. -/
def remotePeer (parse : List Char → Except String Url) : Call → Option RemotePeer
  | .addRemotePeer remotePeer => some remotePeer
  | .addRemotePeerByUrl url =>
      match ConfigBuilder.addRemotePeerByUrl parse ⟨[]⟩ url with
      | .ok builder => builder.remotePeers.head?
      | .error _ => none
  | _ => none

end Call

end Config

namespace Peer

variable {surroundings : Surroundings} {cache : Mdns.Cache} {localPeerIdentifier : PeerIdentifier}
  {config : Config}

/-- No list is no store. A list that is given is not empty, and all its certificates are read. -/
def Trusts (surroundings : Surroundings) (certs : Option (List (List Char)))
    (store : Option (List (List UInt8))) : Prop :=
  match certs with
  | none => store = none
  | some certs => certs ≠ [] ∧ ∃ loaded, certs.mapM surroundings.certificate = .ok loaded ∧
      store = some loaded

theorem Trusts.isSome {certs : Option (List (List Char))} {store : Option (List (List UInt8))}
    (trusts : Trusts surroundings certs store) : store.isSome = certs.isSome := by
  cases certs with
  | none =>
      cases trusts
      rfl
  | some given =>
      obtain ⟨_, loaded, _, rfl⟩ := trusts
      rfl

theorem trusts_of_created {certs : Option (List (List Char))}
    {store : Option (List (List UInt8))}
    (created : createCertificateStore surroundings certs = .ok store) :
    Trusts surroundings certs store := by
  unfold createCertificateStore at created
  split at created
  · cases created
    rfl
  · cases created
  · rename_i given nonempty
    cases loaded : given.mapM surroundings.certificate with
    | error reason =>
        rw [loaded] at created
        cases created
    | ok store =>
        rw [loaded] at created
        cases created
        exact ⟨nonempty, store, loaded, rfl⟩

theorem stores_new_ok {serverCerts clientCerts : Option (List (List Char))} {stores : Stores}
    (made : Stores.new surroundings serverCerts clientCerts = .ok stores) :
    Trusts surroundings clientCerts stores.incomingCertificates ∧
      Trusts surroundings serverCerts stores.outgoingCertificates := by
  unfold Stores.new at made
  cases incoming : createCertificateStore surroundings clientCerts with
  | error reason =>
      rw [incoming] at made
      cases made
  | ok clients =>
      rw [incoming] at made
      cases outgoing : createCertificateStore surroundings serverCerts with
      | error reason =>
          rw [outgoing] at made
          cases made
      | ok servers =>
          rw [outgoing] at made
          cases made
          exact ⟨trusts_of_created incoming, trusts_of_created outgoing⟩

/-- All that a successful start has done. -/
theorem new_ok {peer : Peer cache}
    (started : new surroundings cache localPeerIdentifier config = .ok (.ok peer)) :
    Trusts surroundings config.incomingCaCertificates peer.stores.incomingCertificates ∧
      Trusts surroundings config.outgoingCaCertificates peer.stores.outgoingCertificates ∧
      startRemote surroundings config = .ok peer.remote ∧
      startMdns surroundings cache localPeerIdentifier config peer.quicLocalAddr.port =
        .ok peer.mdns ∧
      peer.context = ContextRun.init localPeerIdentifier peer.stores.authenticator
        (registry peer.remote.isSome peer.mdns.isSome).registries strategies := by
  unfold new at started
  split at started
  · cases started
  · rename_i stores made
    obtain ⟨incoming, outgoing⟩ := stores_new_ok made
    split at started
    · cases started
    · split at started
      · cases started
      · rename_i remote remoteStarted
        split at started
        · cases started
        · rename_i mdns mdnsStarted
          cases started
          exact ⟨incoming, outgoing, remoteStarted, mdnsStarted, rfl⟩

theorem handler_start (context : Remote.ConnectionHandlerContext) (now : Remote.Now) :
    (∃ message, Remote.HandlerRun.start context now = ⟨.panicked message, false⟩) ∨
      Remote.HandlerRun.start context now = ⟨.running .requestNextPeerAddr, false⟩ := by
  unfold Remote.HandlerRun.start
  split
  · rename_i message _
    exact Or.inl ⟨message, rfl⟩
  · exact Or.inr rfl

theorem startRemote_ok {remote : Option RemoteTask}
    (started : startRemote surroundings config = .ok remote) :
    (config.remotePeers = [] ∧ remote = none) ∨
    ∃ task, remote = some task ∧ config.remotePeers ≠ [] ∧
      task.context.resolvers.val = config.remotePeers.length ∧
      task.context.pingInterval = config.remoteRegistryPingInterval ∧
      task.context.waitBetweenResolve = config.remoteRegistryAddressResolveTimeout ∧
      task.handler = ⟨.running .requestNextPeerAddr, false⟩ := by
  unfold startRemote at started
  split at started
  · rename_i given
    rcases handler_start ⟨⟨config.remotePeers.length, given⟩, strategies,
      config.remoteRegistryPingInterval, config.remoteRegistryAddressResolveTimeout⟩
      surroundings.now with ⟨message, same⟩ | same
    · simp only [same] at started
      cases started
    · simp only [same] at started
      cases started
      exact Or.inr ⟨_, rfl, List.ne_nil_of_length_pos given, rfl, rfl, rfl, rfl⟩
  · rename_i empty
    cases started
    exact Or.inl ⟨List.length_eq_zero_iff.mp (Nat.eq_zero_of_not_pos empty), rfl⟩

theorem startMdns_ok {listenPort : UInt16} {mdns : Option (MdnsTasks cache)}
    (started : startMdns surroundings cache localPeerIdentifier config listenPort = .ok mdns) :
    (config.enableMdns = none ∧ mdns = none) ∨
    ∃ serviceName tasks, config.enableMdns = some serviceName ∧ mdns = some tasks ∧
      tasks.context = Mdns.MdnsResponderContext.create (Mdns.serviceType serviceName)
        localPeerIdentifier listenPort ∧
      (∃ now, tasks.responder = Mdns.ResponderRun.start now) ∧
      tasks.requests = Sync.Unbounded.unbounded := by
  unfold startMdns at started
  split at started
  · rename_i disabled
    cases started
    exact Or.inl ⟨disabled, rfl⟩
  · rename_i serviceName enabled
    simp only [MdnsTasks.new] at started
    cases searched : surroundings.discover
        (Mdns.Discovery.localName (Mdns.serviceType serviceName)) with
    | error reason =>
        rw [searched] at started
        cases started
    | ok done =>
        rw [searched] at started
        cases started
        exact Or.inr ⟨serviceName, _, enabled, rfl, rfl, ⟨_, rfl⟩, rfl⟩

/-- Every file holds one byte, and everything works. -/
def localSurroundings : Surroundings where
  certificate := fun name => .ok [UInt8.ofNat name.length]
  listen := fun _ _ => .ok ⟨.v4 0, 4000⟩
  discover := fun _ => .ok ()
  now := ⟨0, by decide⟩

end Peer

end HolePunch
