import HolePunch.Registries.Mdns

set_option autoImplicit false

/- What the responder announces is what discovery decodes. -/
namespace HolePunch.Mdns

/-- A pattern that goes on with an underscore is not found before the place where the text first
has one. -/
theorem find_append {start : List Char} (rest : List Char) (free : '_' ∉ start) :
    find ('.' :: '_' :: rest) (start ++ '.' :: '_' :: rest) = some start.length := by
  induction start with
  | nil => simp [find]
  | cons c later ih =>
      have laterFree : '_' ∉ later := fun member => free (List.mem_cons_of_mem c member)
      have notHere : ('.' :: '_' :: rest).isPrefixOf
          (c :: (later ++ '.' :: '_' :: rest)) = false := by
        cases later with
        | nil => simp [List.isPrefixOf]
        | cons d others =>
            have different : '_' ≠ d := fun same => laterFree (same ▸ List.mem_cons_self)
            simp [List.isPrefixOf, different]
      rw [List.cons_append, find, notHere, ih laterFree]
      rfl

theorem hexChar_ne {digit : Nat} (small : digit < 16) :
    PubKeyHash.hexChar digit ≠ '.' ∧ PubKeyHash.hexChar digit ≠ '_' := by
  have all : ∀ digit : Fin 16, PubKeyHash.hexChar digit ≠ '.' ∧ PubKeyHash.hexChar digit ≠ '_' := by
    decide
  exact all ⟨digit, small⟩

theorem ne_of_mem_toText {peer : PeerIdentifier} {c : Char} (member : c ∈ peer.toText) :
    c ≠ '.' ∧ c ≠ '_' := by
  obtain ⟨byte, _, digit⟩ := List.mem_flatMap.mp member
  have bound := byte.toNat_lt
  have high := hexChar_ne (show byte.toNat / 16 < 16 by omega)
  have low := hexChar_ne (show byte.toNat % 16 < 16 by omega)
  simp only [List.mem_cons, List.not_mem_nil, or_false] at digit
  rcases digit with rfl | rfl
  · exact high
  · exact low

/-- Without the dot that splits it, the instance name is the text of the peer. -/
theorem filter_localPeerIdentifier (serviceName : List Char) (peer : PeerIdentifier)
    (listenPort : UInt16) :
    (MdnsResponderContext.create serviceName peer listenPort).localPeerIdentifier.filter (· ≠ '.') =
      peer.toText := by
  have kept : peer.toText.filter (· ≠ '.') = peer.toText := by
    apply List.filter_eq_self.mpr
    intro c member
    simpa using (ne_of_mem_toText member).1
  simp only [MdnsResponderContext.create, List.filter_append]
  rw [List.filter_cons_of_neg (by simp), ← List.filter_append, List.take_append_drop, kept]

theorem localPeerIdentifier_free (serviceName : List Char) (peer : PeerIdentifier)
    (listenPort : UInt16) :
    '_' ∉ (MdnsResponderContext.create serviceName peer listenPort).localPeerIdentifier := by
  intro member
  simp only [MdnsResponderContext.create, List.mem_append, List.mem_cons] at member
  rcases member with first | dot | second
  · exact (ne_of_mem_toText (List.mem_of_mem_take first)).2 rfl
  · exact absurd dot (by decide)
  · exact (ne_of_mem_toText (List.mem_of_mem_drop second)).2 rfl

theorem decode_localPeerIdentifier (serviceName : List Char) (peer : PeerIdentifier)
    (listenPort : UInt16) :
    DiscoveryResult.decode
        (MdnsResponderContext.create serviceName peer listenPort).localPeerIdentifier =
      some peer := by
  unfold DiscoveryResult.decode
  rw [filter_localPeerIdentifier]
  simp only [PeerIdentifier.toText, PubKeyHash.fromHashedHex,
    PubKeyHash.hexDecode_hexEncodeUpper, PubKeyHash.fromHashed, dif_pos peer.bounded,
    PubKeyHash.fromHashedChecked_identifier]

/-- The service type starts with an underscore. -/
theorem serviceType_eq (serviceName : List Char) :
    ∃ rest, serviceType serviceName = '_' :: rest := by
  unfold serviceType
  split
  · rename_i underscore
    obtain ⟨rest, same⟩ := List.isPrefixOf_iff_prefix.mp underscore
    exact ⟨rest, same.symm⟩
  · exact ⟨serviceName, rfl⟩

/-- The published name lies under the name that is searched for, also when the latter has the
suffix already. -/
theorem localName_isPrefixOf (serviceName : List Char) :
    Discovery.localName serviceName <+: serviceName ++ ".local".toList := by
  unfold Discovery.localName
  split
  · exact List.prefix_append serviceName _
  · exact List.prefix_refl _

theorem pointer_instanceName (serviceName : List Char) (peer : PeerIdentifier)
    (listenPort : UInt16) :
    let context := MdnsResponderContext.create (serviceType serviceName) peer listenPort
    context.pointer.instanceName = some context.localPeerIdentifier := by
  intro context
  obtain ⟨rest, typed⟩ := serviceType_eq serviceName
  have free := localPeerIdentifier_free (serviceType serviceName) peer listenPort
  have named : context.serviceName = '_' :: rest := typed
  have found := find_append (rest ++ ".local".toList) free
  simp only [Record.instanceName, MdnsResponderContext.pointer, named, List.cons_append]
  rw [found, Option.map_some, List.take_left' rfl]

/-- Whatever records come with it, an announcement names its peer, to those who search for a name
under which it lies. -/
theorem announces_pointer_iff (searched serviceName : List Char) (peer other : PeerIdentifier)
    (listenPort : UInt16) {before after : Response}
    (others : ∀ record ∈ before ++ after, ∀ target, record.kind ≠ .ptr target) :
    let context := MdnsResponderContext.create (serviceType serviceName) peer listenPort
    Announces searched (before ++ context.pointer :: after) other ↔
      searched <+: serviceType serviceName ++ ".local".toList ∧ other = peer := by
  intro context
  have silent : ∀ record ∈ before ++ after, record.instanceName = none ∧
      record.ofService searched = true := by
    intro record member
    unfold Record.instanceName Record.ofService
    cases kind : record.kind with
    | ptr target => exact absurd kind (others record member target)
    | _ => exact ⟨rfl, rfl⟩
  have quiet : ∀ records : Response, (∀ record ∈ records, record ∈ before ++ after) →
      records.filterMap Record.instanceName = [] := by
    intro records among
    apply List.filterMap_eq_nil_iff.mpr
    intro record member
    exact (silent record (among record member)).1
  have named : ((before ++ context.pointer :: after).filterMap Record.instanceName).getLast?.bind
      DiscoveryResult.decode = some peer := by
    rw [List.filterMap_append, List.filterMap_cons, pointer_instanceName,
      quiet before (fun _ => List.mem_append_left after),
      quiet after (fun _ => List.mem_append_right before)]
    exact decode_localPeerIdentifier (serviceType serviceName) peer listenPort
  constructor
  · intro announces
    have service := announces.service context.pointer
      (List.mem_append_right before List.mem_cons_self)
    refine ⟨List.isPrefixOf_iff_prefix.mp service, ?_⟩
    rw [announces.instanceName] at named
    exact Option.some.inj named
  · rintro ⟨under, rfl⟩
    refine ⟨?_, named⟩
    intro record member
    rcases List.mem_append.mp member with first | here
    · exact (silent record (List.mem_append_left after first)).2
    · rcases List.mem_cons.mp here with rfl | last
      · exact List.isPrefixOf_iff_prefix.mpr under
      · exact (silent record (List.mem_append_right before last)).2

/-- Whatever records come with it, the announcement of a peer is decoded to this peer. -/
theorem tryFrom_announced (cache : Cache) (serviceName : List Char) (peer : PeerIdentifier)
    (listenPort : UInt16) (searching : PeerIdentifier) (strategies : { given : Nat // 0 < given })
    (before after : Response)
    (others : ∀ record ∈ before ++ after, ∀ target, record.kind ≠ .ptr target) :
    let context := MdnsResponderContext.create (serviceType serviceName) peer listenPort
    let resp := before ++ context.pointer :: after
    DiscoveryResult.tryFrom resp
        (Discovery.new cache (serviceType serviceName) searching strategies).serviceName =
      some ⟨peer, resp.filterMap Record.port, resp.filterMap Record.ip⟩ := by
  intro context resp
  refine (DiscoveryResult.tryFrom_eq_some_iff resp _ _).mpr ⟨?_, rfl, rfl⟩
  exact (announces_pointer_iff _ serviceName peer peer listenPort others).mpr
    ⟨localName_isPrefixOf (serviceType serviceName), rfl⟩

/-- The announcement of a peer between its address and its port. -/
theorem tryFrom_announced_two :
    let peer := PeerIdentifier.ofByte 2
    let context := MdnsResponderContext.create (serviceType "hp".toList) peer 22222
    DiscoveryResult.tryFrom
        [⟨[], .a 0x0a000001⟩, context.pointer, ⟨[], .srv 22222⟩]
        (Discovery.new knownPeersCache (serviceType "hp".toList) (.ofByte 1)
          ⟨1, Nat.one_pos⟩).serviceName =
      some ⟨peer, [22222], [.v4 0x0a000001]⟩ :=
  tryFrom_announced knownPeersCache "hp".toList (.ofByte 2) 22222 (.ofByte 1) ⟨1, Nat.one_pos⟩
    [⟨[], .a 0x0a000001⟩] [⟨[], .srv 22222⟩] (by simp)

end HolePunch.Mdns
