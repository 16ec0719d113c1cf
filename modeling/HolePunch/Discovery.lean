import HolePunch.Registries.Mdns

set_option autoImplicit false

/- What traffic the mDNS discovery task survives. A peer that is announced without a port or
without an address is remembered like any other, and a request for it panics. -/
namespace HolePunch.Mdns

open Remote (ResultSender)
open Transition (Throughout)

/-- A response that names a port and an address. -/
structure Locates (resp : Response) : Prop where
  port : ∃ record ∈ resp, ∃ port, record.kind = .srv port
  address : ∃ record ∈ resp,
    (∃ addr, record.kind = .a addr) ∨ ∃ addr, record.kind = .aaaa addr

/-- Whatever other peer of the service a response announces, it says where that peer is. -/
def Connectable (serviceName : List Char) (owner : PeerIdentifier) (resp : Response) : Prop :=
  ∀ peer, Announces serviceName resp peer → peer ≠ owner → Locates resp

theorem Record.port_eq_some_iff (record : Record) (port : UInt16) :
    record.port = some port ↔ record.kind = .srv port := by
  unfold Record.port
  cases record.kind <;> simp

theorem Record.ip_isSome_iff (record : Record) :
    (∃ ip, record.ip = some ip) ↔
      (∃ addr, record.kind = .a addr) ∨ ∃ addr, record.kind = .aaaa addr := by
  unfold Record.ip
  cases record.kind <;> simp

namespace DiscoveryResult

theorem addrs_ne_nil_iff_locates {resp : Response} {serviceName : List Char}
    {result : DiscoveryResult} (accepted : tryFrom resp serviceName = some result) :
    result.addrs ≠ [] ↔ Locates resp := by
  obtain ⟨-, samePorts, sameAddresses⟩ := (tryFrom_eq_some_iff _ _ _).mp accepted
  have ports : result.ports ≠ [] ↔ ∃ record ∈ resp, ∃ port, record.kind = .srv port := by
    simp only [samePorts, ne_eq, List.filterMap_eq_nil_iff, not_forall, exists_prop,
      Option.ne_none_iff_exists', Record.port_eq_some_iff]
  have addresses : result.ipAddresses ≠ [] ↔ ∃ record ∈ resp,
      (∃ addr, record.kind = .a addr) ∨ ∃ addr, record.kind = .aaaa addr := by
    simp only [sameAddresses, ne_eq, List.filterMap_eq_nil_iff, not_forall, exists_prop,
      Option.ne_none_iff_exists', Record.ip_isSome_iff]
  rw [ne_eq, addrs_eq_nil_iff, not_or]
  constructor
  · rintro ⟨somePort, someAddress⟩
    exact ⟨ports.mp somePort, addresses.mp someAddress⟩
  · rintro ⟨somePort, someAddress⟩
    exact ⟨ports.mpr somePort, addresses.mpr someAddress⟩

end DiscoveryResult

namespace Discovery

variable {cache : Cache}

/-- The connections are always built; only joining none of them panics. -/
theorem fulfillRequest_eq (s : Discovery cache) (sender : ResultSender)
    (result : DiscoveryResult) : s.fulfillRequest sender result =
      (Futures.selectOk (result.addrs.map (fun addr =>
        (⟨s.strategies.val - 1, addr, .user s.localPeerIdentifier, some .initConnect, false⟩ :
          ConnectWithStrategies)))).map
        (fun select => { s with spawned := s.spawned ++ [(sender, select)] }) := by
  have built : result.addrs.mapM (fun addr =>
      ConnectWithStrategies.new s.strategies.val addr (.user s.localPeerIdentifier)) =
      .ok (result.addrs.map (fun addr =>
        ⟨s.strategies.val - 1, addr, .user s.localPeerIdentifier, some .initConnect, false⟩)) := by
    simp only [ConnectWithStrategies.new_of_pos s.strategies.property]
    exact List.mapM_pure
  unfold fulfillRequest
  rw [built]
  rfl

theorem fulfillRequest_ok (s : Discovery cache) (sender : ResultSender)
    {result : DiscoveryResult} (located : result.addrs ≠ []) :
    ∃ select, s.fulfillRequest sender result =
      .ok { s with spawned := s.spawned ++ [(sender, select)] } := by
  rw [fulfillRequest_eq, Futures.selectOk_of_ne_nil (mt List.map_eq_nil_iff.mp located)]
  exact ⟨_, rfl⟩

theorem fulfillRequest_panic (s : Discovery cache) (sender : ResultSender)
    {result : DiscoveryResult} (nowhere : result.addrs = []) :
    ∃ message, s.fulfillRequest sender result = .error message := by
  rw [fulfillRequest_eq, nowhere]
  exact ⟨_, rfl⟩

/-- The task searches for its service, and every peer it remembers has an address. -/
structure Located (serviceName : List Char) (owner : PeerIdentifier) (s : Discovery cache) :
    Prop where
  service : s.serviceName = serviceName
  owner : s.localPeerIdentifier = owner
  known : cache.Every (fun result => result.addrs ≠ []) s.knownPeers

section Located

variable {serviceName : List Char} {owner : PeerIdentifier} {s : Discovery cache}

theorem Located.answerQueued (located : s.Located serviceName owner) {r : DiscoveryResult}
    (somewhere : r.addrs ≠ []) :
    ∃ next, s.answerQueued r = .ok next ∧ next.Located serviceName owner := by
  unfold Discovery.answerQueued
  split
  · rename_i request _
    obtain ⟨select, fulfilled⟩ := fulfillRequest_ok
      { s with queuedRequests := Function.update s.queuedRequests r.peer none } request somewhere
    exact ⟨_, fulfilled, located.service, located.owner, located.known⟩
  · exact ⟨s, rfl, located⟩

theorem Located.handleResponse (located : s.Located serviceName owner) (now : Nat)
    {resp : Response} (connectable : Connectable serviceName owner resp) :
    ∃ next, s.handleResponse now resp = .ok next ∧ next.Located serviceName owner := by
  unfold Discovery.handleResponse
  split
  · exact ⟨s, rfl, located⟩
  · rename_i r accepted
    split
    · exact ⟨s, rfl, located⟩
    · rename_i other
      rw [located.owner] at other
      have announced := ((DiscoveryResult.tryFrom_eq_some_iff _ _ _).mp accepted).1
      rw [located.service] at announced
      have somewhere : r.addrs ≠ [] :=
        (DiscoveryResult.addrs_ne_nil_iff_locates accepted).mpr (connectable _ announced other)
      obtain ⟨next, answered, kept⟩ := located.answerQueued somewhere
      rw [answered]
      exact ⟨_, rfl, kept.service, kept.owner, kept.known.insert somewhere⟩

theorem Located.handleTimeout (located : s.Located serviceName owner) (now : Nat)
    (completion : Nat × Except Unit Unit) :
    (s.handleTimeout now completion).Located serviceName owner := by
  unfold Discovery.handleTimeout
  split
  · exact located
  · split
    · exact ⟨located.service, located.owner, located.known⟩
    · exact located
  · exact ⟨located.service, located.owner, located.known⟩

theorem Located.handleRequest (located : s.Located serviceName owner) (now : Nat)
    (request : ResultSender × PeerIdentifier) :
    ∃ next, s.handleRequest now request = .ok next ∧ next.Located serviceName owner := by
  have kept : cache.Every (fun result => result.addrs ≠ [])
      (cache.get now request.2.padded s.knownPeers).2 := located.known.get
  unfold Discovery.handleRequest
  split
  · rename_i result knownPeers found
    have somewhere : result.addrs ≠ [] := located.known.found (congrArg Prod.fst found)
    rw [found] at kept
    obtain ⟨select, fulfilled⟩ := fulfillRequest_ok
      { s with knownPeers := knownPeers } request.1 somewhere
    exact ⟨_, fulfilled, located.service, located.owner, kept⟩
  · rename_i knownPeers missing
    rw [missing] at kept
    simp only
    split
    · exact ⟨_, rfl, located.service, located.owner, kept⟩
    · split
      · exact ⟨_, rfl, located.service, located.owner, kept⟩
      · exact ⟨_, rfl, located.service, located.owner, kept⟩

end Located

section Quiet

/-- No request waits in the queue. -/
structure Quiet (serviceName : List Char) (owner : PeerIdentifier) (s : Discovery cache) :
    Prop where
  service : s.serviceName = serviceName
  owner : s.localPeerIdentifier = owner
  queue : ∀ peer, s.queuedRequests peer = none

variable {serviceName : List Char} {owner : PeerIdentifier} {s : Discovery cache}

/-- Without a queued request a response does no more than fill the cache. -/
theorem Quiet.handleResponse_known (quiet : s.Quiet serviceName owner) (now : Nat)
    {resp : Response} {r : DiscoveryResult}
    (accepted : DiscoveryResult.tryFrom resp serviceName = some r)
    (other : r.peer ≠ owner) : s.handleResponse now resp =
      .ok { s with knownPeers := cache.insert now r.peer.padded r s.knownPeers } := by
  have unanswered : s.answerQueued r = .ok s := by
    simp only [answerQueued, quiet.queue]
  rw [← quiet.service] at accepted
  rw [← quiet.owner] at other
  simp only [handleResponse, accepted, other, ↓reduceIte, unanswered]
  rfl

theorem Quiet.handleResponse (quiet : s.Quiet serviceName owner) (now : Nat) (resp : Response) :
    ∃ next, s.handleResponse now resp = .ok next ∧ next.Quiet serviceName owner := by
  cases accepted : DiscoveryResult.tryFrom resp serviceName with
  | none =>
      refine ⟨s, ?_, quiet⟩
      simp only [Discovery.handleResponse, quiet.service, accepted]
  | some r =>
      by_cases own : r.peer = owner
      · refine ⟨s, ?_, quiet⟩
        simp only [Discovery.handleResponse, quiet.service, quiet.owner, accepted, own, ↓reduceIte]
      · have remembered := quiet.handleResponse_known now accepted own
        exact ⟨_, remembered, quiet.service, quiet.owner, quiet.queue⟩

/-- A peer that was just remembered without an address panics the task when it is requested. -/
theorem handleRequest_panic {peer : DiscoveryResult} (nowhere : peer.addrs = []) (now : Nat)
    (sender : ResultSender) (s : Discovery cache) : ∃ message, handleRequest now
      { s with knownPeers := cache.insert now peer.peer.padded peer s.knownPeers }
      (sender, peer.peer) = .error message := by
  have found := cache.get_insert now peer.peer.padded peer s.knownPeers
  unfold handleRequest
  split
  · rename_i result knownPeers read
    rw [read] at found
    cases found
    exact fulfillRequest_panic _ sender nowhere
  · rename_i knownPeers missing
    rw [missing] at found
    cases found

theorem Quiet.poll_panic (quiet : s.Quiet serviceName owner) (now : Nat) (before : List Response)
    {resp : Response} {r : DiscoveryResult}
    (accepted : DiscoveryResult.tryFrom resp serviceName = some r) (other : r.peer ≠ owner)
    (nowhere : r.addrs = []) (sender : ResultSender) : ∃ message,
      s.poll ⟨now, before ++ [resp], .notReady, [], [(sender, r.peer)], .notReady⟩ =
        .panicked message := by
  obtain ⟨middle, reached, stillQuiet⟩ := Transition.foldlM_invariant
    (Discovery.Quiet serviceName owner) quiet
    (fun t (event : Response) (_ : event ∈ before) kept => kept.handleResponse now event)
  obtain ⟨message, panic⟩ := handleRequest_panic nowhere now sender middle
  have remembered : (before ++ [resp]).foldlM (Discovery.handleResponse now) s =
      .ok { middle with knownPeers := cache.insert now r.peer.padded r middle.knownPeers } := by
    rw [List.foldlM_append, reached]
    simp only [List.foldlM_cons, List.foldlM_nil, bind_pure]
    exact stillQuiet.handleResponse_known now accepted other
  refine ⟨message, ?_⟩
  simp only [poll, remembered, List.foldl_nil, List.foldlM_cons, panic]
  rfl

end Quiet

end Discovery

namespace Task

variable {cache : Cache} {serviceName : List Char} {owner : PeerIdentifier}

def Located (serviceName : List Char) (owner : PeerIdentifier) : Task cache → Prop
  | .running s => s.Located serviceName owner
  | .failed => True
  | .panicked _ => False

theorem Located.step {task : Task cache} (located : task.Located serviceName owner)
    {answers : Answers}
    (connectable : ∀ resp ∈ answers.responses, Connectable serviceName owner resp) :
    (task.step answers).Located serviceName owner := by
  cases task with
  | failed => trivial
  | panicked message => exact located
  | running s =>
      obtain ⟨found, responses, searched⟩ := Transition.foldlM_invariant
        (Discovery.Located serviceName owner) located
        (fun t resp member kept => kept.handleResponse answers.now (connectable resp member))
      have timed : (answers.timeouts.foldl (Discovery.handleTimeout answers.now) found).Located
          serviceName owner :=
        Transition.run_invariant (Discovery.Located serviceName owner)
          (fun t completion kept => kept.handleTimeout answers.now completion) searched _
      obtain ⟨last, requests, served⟩ := Transition.foldlM_invariant
        (Discovery.Located serviceName owner) timed
        (fun t request (_ : request ∈ answers.requests) kept =>
          kept.handleRequest answers.now request)
      simp only [Task.step, Discovery.poll, responses, requests]
      split
      · trivial
      · trivial
      · split
        · trivial
        · trivial
        · exact served

theorem Located.survives {task : Task cache} (located : task.Located serviceName owner) :
    task.Survives := by
  rintro message rfl
  exact located

end Task

/-- A sequence of responses is harmless, whatever requests and timers come between them, exactly
when each of them says where the peer is that it announces. -/
theorem survives_iff_connectable (cache : Cache) (serviceName : List Char)
    (owner : PeerIdentifier) (strategies : { given : Nat // 0 < given })
    (responses : List Response) :
    (∀ polls : List Answers, polls.flatMap Answers.responses = responses →
      Throughout Task.step Task.Survives
        (.running (Discovery.new cache serviceName owner strategies)) polls) ↔
      ∀ resp ∈ responses, Connectable (Discovery.localName serviceName) owner resp := by
  constructor
  · intro survives resp member peer announced other
    obtain ⟨before, after, rfl⟩ := List.append_of_mem member
    have accepted := (DiscoveryResult.tryFrom_eq_some_iff resp _
      ⟨peer, resp.filterMap Record.port, resp.filterMap Record.ip⟩).mpr ⟨announced, rfl, rfl⟩
    rw [← DiscoveryResult.addrs_ne_nil_iff_locates accepted]
    intro nowhere
    have quiet : (Discovery.new cache serviceName owner strategies).Quiet
        (Discovery.localName serviceName) owner := ⟨rfl, rfl, fun _ => rfl⟩
    obtain ⟨message, panic⟩ := quiet.poll_panic 0 before accepted other nowhere 0
    -- the rest of the traffic arrives after the request for the peer
    refine survives [⟨0, before ++ [resp], .notReady, [], [(0, peer)], .notReady⟩,
      ⟨0, after, .notReady, [], [], .notReady⟩] (by simp) _ (List.prefix_append [_] _) message ?_
    exact panic
  · intro connectable polls traffic before isPrefix
    have initial : Task.Located (Discovery.localName serviceName) owner
        (.running (Discovery.new cache serviceName owner strategies)) :=
      ⟨rfl, rfl, cache.every_empty _⟩
    have located := Transition.run_invariant_of
      (Task.Located (Discovery.localName serviceName) owner)
      (fun answers : Answers => ∀ resp ∈ answers.responses,
        Connectable (Discovery.localName serviceName) owner resp)
      (fun task answers allowed kept => kept.step allowed) initial
      (fun answers member resp received => connectable resp (by
        rw [← traffic]
        exact List.mem_flatMap.mpr ⟨answers, isPrefix.subset member, received⟩))
    exact located.survives

def lan : Discovery knownPeersCache :=
  Discovery.new knownPeersCache (serviceType "hp".toList) (.ofByte 1) ⟨1, by decide⟩

/-- The peer `02` without port and address. -/
def pointerOnly : Response := [⟨"_hp.local".toList, .ptr "02._hp.local".toList⟩]

theorem pointerOnly_panics :
    ¬ Throughout Task.step Task.Survives (.running lan)
      [⟨0, [], .notReady, [], [(0, .ofByte 2)], .notReady⟩,
        ⟨1, [pointerOnly], .notReady, [], [], .notReady⟩] := by
  intro survives
  exact survives _ (List.prefix_refl _) "assertion failed: ret.inner.len() > 0" rfl

end HolePunch.Mdns
