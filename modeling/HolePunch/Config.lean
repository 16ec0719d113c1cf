import HolePunch.PubKey
import HolePunch.Registries.GetNextAddr

set_option autoImplicit false

/- The remote peers of a configuration (`config.rs`) and how they are resolved
(`registries/remote.rs`). -/
namespace HolePunch

/-- `url::Url` by its parts. Only an URL with a host has a port. -/
structure Url where
  scheme : List Char
  username : List Char
  password : Option (List Char)
  host : Option (List Char)
  port : Option UInt16
  path : List Char
  query : Option (List Char)
  fragment : Option (List Char)
  named : scheme ≠ []
  located : port ≠ none → host ≠ none

namespace Url

def userinfo (url : Url) : List Char :=
  match url.username, url.password with
  | [], none => []
  | username, none => username ++ ['@']
  | username, some password => username ++ ':' :: password ++ ['@']

def authority (url : Url) : List Char :=
  match url.host with
  | none => []
  | some host => "//".toList ++ url.userinfo ++ host ++
      (url.port.elim [] (fun port => ':' :: (toString port.toNat).toList))

/-- `to_string`, the full serialisation. -/
def serialize (url : Url) : List Char :=
  url.scheme ++ ':' :: url.authority ++ url.path ++ url.query.elim [] ('?' :: ·) ++
    url.fragment.elim [] ('#' :: ·)

def withoutPort (url : Url) : Url :=
  { url with port := none, located := fun given => absurd rfl given }

/-- `set_port(None)`, which needs an URL with a host and does not work on files. -/
def clearPort (url : Url) : Except Unit Url :=
  match url.host with
  | none => .error ()
  | some host => if host = [] ∨ url.scheme = "file".toList then .error () else .ok url.withoutPort

end Url

/-- The answer to a DNS lookup: after how many polls it comes, and what it is. -/
structure Lookup where
  pending : Nat
  result : Except Unit (List IpAddr)

/-- `AsyncResolver::lookup_ip`. -/
abbrev Dns := List Char → Lookup

/-- The implementors of `Resolve`. -/
inductive RemotePeer where
  | socketAddr (addr : SocketAddr)
  | named (name : List Char) (port : UInt16)
  deriving DecidableEq, Repr

namespace RemotePeer

/-- The name that is looked up. -/
def lookupIp : RemotePeer → Option (List Char)
  | .socketAddr _ => none
  | .named name _ => some (name ++ ['.'])

/-- What the stream that `resolve` returns answers, poll by poll, before it ends. -/
def resolve (dns : Dns) : RemotePeer → Remote.Answers
  | .socketAddr addr => [.ready addr]
  | .named name port =>
      let lookup := dns (name ++ ['.'])
      List.replicate lookup.pending .notReady ++
        match lookup.result with
        | .ok addresses => addresses.map (fun ip => .ready ⟨ip, port⟩)
        | .error _ => [.error ()]

end RemotePeer

structure ConfigBuilder where
  remotePeers : List RemotePeer

namespace ConfigBuilder

def addRemotePeer (builder : ConfigBuilder) (remotePeer : RemotePeer) : ConfigBuilder :=
  { builder with remotePeers := builder.remotePeers ++ [remotePeer] }

/-- `parse` is `Url::parse`, with its errors as text. -/
def addRemotePeerByUrl (parse : List Char → Except String Url) (builder : ConfigBuilder)
    (url : List Char) : Except Error ConfigBuilder :=
  match parse url with
  | .error message => .error (.custom message)
  | .ok url =>
      match url.port with
      | none => .error (.custom "No port supplied")
      | some port =>
          match url.clearPort with
          | .error _ => .error (.custom "()")
          | .ok url => .ok (builder.addRemotePeer (.named url.serialize port))

end ConfigBuilder

/-- A remote peer that was given by an URL is resolved by its host: the host with a dot is looked
up, the addresses have the port of the URL, and so it is resolved as the pair of both is. -/
structure ResolvedByHost (url : Url) (peer : RemotePeer) : Prop where
  lookup : ∃ host, url.host = some host ∧ peer.lookupIp = some (host ++ ['.'])
  port : ∀ dns, ∀ addr ∈ Futures.Select.items (peer.resolve dns), url.port = some addr.port
  same : ∀ host port, url.host = some host → url.port = some port →
    ∀ dns, peer.resolve dns = (RemotePeer.named host port).resolve dns

/-- The scheme alone makes the serialisation longer than the host. -/
theorem Url.length_host_lt {url : Url} {host : List Char} (located : url.host = some host) :
    host.length < url.serialize.length := by
  simp only [serialize, authority, located, List.length_append, List.length_cons]
  omega

theorem Url.clearPort_eq {url next : Url} (cleared : url.clearPort = .ok next) :
    next = url.withoutPort := by
  unfold clearPort at cleared
  split at cleared
  · cases cleared
  · split at cleared
    · cases cleared
    · cases cleared
      rfl

/-- The addresses of a named peer have its port. -/
theorem RemotePeer.port_of_mem {dns : Dns} {name : List Char} {port : UInt16} {addr : SocketAddr}
    (member : addr ∈ Futures.Select.items ((RemotePeer.named name port).resolve dns)) :
    addr.port = port := by
  unfold Futures.Select.items at member
  obtain ⟨answer, answered, given⟩ := List.mem_filterMap.mp member
  simp only [resolve, List.mem_append, List.mem_replicate] at answered
  rcases answered with ⟨_, rfl⟩ | answered
  · cases given
  · split at answered
    · obtain ⟨ip, _, rfl⟩ := List.mem_map.mp answered
      cases given
      rfl
    · cases List.mem_singleton.mp answered
      cases given

/-- Only the host is known, at one address. -/
def onlyHost (host : List Char) : Dns :=
  fun name => if name = host ++ ['.'] then ⟨0, .ok [.v4 1]⟩ else ⟨0, .ok []⟩

theorem RemotePeer.resolve_onlyHost {name host : List Char} (port : UInt16)
    (other : name ≠ host) :
    (RemotePeer.named name port).resolve (onlyHost host) ≠
      (RemotePeer.named host port).resolve (onlyHost host) := by
  have unknown : name ++ ['.'] ≠ host ++ ['.'] := by
    intro same
    exact other (List.append_cancel_right same)
  simp [resolve, onlyHost, unknown]

/-- All that an accepted text adds. -/
theorem ConfigBuilder.addRemotePeerByUrl_cases {parse : List Char → Except String Url}
    {builder after : ConfigBuilder} {text : List Char}
    (accepted : builder.addRemotePeerByUrl parse text = .ok after) :
    ∃ url host port, parse text = .ok url ∧ url.host = some host ∧ url.port = some port ∧
      after = builder.addRemotePeer (.named url.withoutPort.serialize port) := by
  unfold addRemotePeerByUrl at accepted
  split at accepted
  · cases accepted
  · rename_i url parsed
    split at accepted
    · cases accepted
    · rename_i port given
      have located : url.host ≠ none := by
        apply url.located
        rw [given]
        exact Option.some_ne_none port
      obtain ⟨host, found⟩ := Option.ne_none_iff_exists'.mp located
      split at accepted
      · cases accepted
      · rename_i next cleared
        rw [Url.clearPort_eq cleared] at accepted
        cases accepted
        exact ⟨url, host, port, parsed, found, given, rfl⟩

/-- Whatever is accepted as an URL is looked up by its whole serialisation: the addresses have the
right port, but they are never those of the host. -/
theorem addRemotePeerByUrl_not_by_host {parse : List Char → Except String Url}
    {builder after : ConfigBuilder} {text : List Char}
    (accepted : builder.addRemotePeerByUrl parse text = .ok after) :
    ∃ url host port peer, parse text = .ok url ∧ url.host = some host ∧ url.port = some port ∧
      after = builder.addRemotePeer peer ∧
      peer.lookupIp = some (url.withoutPort.serialize ++ ['.']) ∧
      (∀ dns, ∀ addr ∈ Futures.Select.items (peer.resolve dns), addr.port = port) ∧
      (∃ dns, peer.resolve dns ≠ (RemotePeer.named host port).resolve dns) ∧
      ¬ ResolvedByHost url peer := by
  obtain ⟨url, host, port, parsed, found, given, added⟩ :=
    ConfigBuilder.addRemotePeerByUrl_cases accepted
  have other : url.withoutPort.serialize ≠ host := by
    intro same
    have longer : host.length < url.withoutPort.serialize.length := Url.length_host_lt found
    rw [same] at longer
    exact Nat.lt_irrefl _ longer
  have apart := RemotePeer.resolve_onlyHost port other
  refine ⟨url, host, port, _, parsed, found, given, added, rfl, ?_, ⟨_, apart⟩, ?_⟩
  · intro dns addr member
    exact RemotePeer.port_of_mem member
  · intro resolved
    exact apart (resolved.same host port found given _)

/-- `http://peer:5000`, as it is parsed. -/
def peerUrl : Url :=
  ⟨['h', 't', 't', 'p'], [], none, some "peer".toList, some 5000, ['/'], none, none,
    List.cons_ne_nil _ _, fun _ => Option.some_ne_none _⟩

/-- The parser, as far as this one text is concerned. -/
def parsePeerUrl (text : List Char) : Except String Url :=
  if text = "http://peer:5000".toList then .ok peerUrl else .error "RelativeUrlWithoutBase"

theorem peerUrl_looked_up_with_scheme : ∃ peer,
    ConfigBuilder.addRemotePeerByUrl parsePeerUrl ⟨[]⟩ "http://peer:5000".toList = .ok ⟨[peer]⟩ ∧
      peer.lookupIp = some "http://peer/.".toList ∧ ¬ ResolvedByHost peerUrl peer := by
  refine ⟨.named "http://peer/".toList 5000, rfl, rfl, ?_⟩
  intro resolved
  obtain ⟨host, found, looked⟩ := resolved.lookup
  cases found
  exact absurd looked (by decide)

theorem peerUrl_not_by_host : ∃ after, ConfigBuilder.addRemotePeerByUrl parsePeerUrl ⟨[]⟩
    "http://peer:5000".toList = .ok after ∧ ∃ url host port peer,
      parsePeerUrl "http://peer:5000".toList = .ok url ∧ url.host = some host ∧
      url.port = some port ∧ after = ConfigBuilder.addRemotePeer ⟨[]⟩ peer ∧
      peer.lookupIp = some (url.withoutPort.serialize ++ ['.']) ∧
      (∀ dns, ∀ addr ∈ Futures.Select.items (peer.resolve dns), addr.port = port) ∧
      (∃ dns, peer.resolve dns ≠ (RemotePeer.named host port).resolve dns) ∧
      ¬ ResolvedByHost url peer :=
  ⟨⟨[.named "http://peer/".toList 5000]⟩, rfl, addRemotePeerByUrl_not_by_host rfl⟩

end HolePunch
