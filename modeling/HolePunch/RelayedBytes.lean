import HolePunch.Relay

set_option autoImplicit false

/- What a relayed stream delivers. Each of the two wires keeps its own account of the bytes, and the
task in the middle moves them from the one to the other. -/
namespace HolePunch

open LengthDelimited (Bytes frame)

namespace Wire

/-- To B the relay takes what it reads at the far end of A's wire, and hands it on at the near end
of B's. -/
theorem toB_accounts (answer : SendPoll) :
    SendAll.Accounts pollFar (fun wire item => sendNear wire item answer) id farRead
      nearWritten where
  given s item polled := by
    rw [pollFar_read, polled]
    rfl
  idle s never := by
    rw [pollFar_read, ByteStream.delivered_nothing never, List.append_nil]
  accepted s item accepts := by
    obtain ⟨-, -, sends⟩ | ⟨refused, -⟩ := s.sendNear_cases item answer
    · rw [sends]
      rfl
    · exact absurd accepts refused
  left s item refused := by
    obtain ⟨accepts, -, -⟩ | ⟨-, sends⟩ := s.sendNear_cases item answer
    · exact absurd accepts refused
    · rw [sends]

theorem toA_accounts (answer : SendPoll) :
    SendAll.Accounts pollNear (fun wire item => sendFar wire item answer) id nearRead
      (fun wire => wire.far.sent) where
  given s item polled := by
    rw [pollNear_read, polled]
    rfl
  idle s never := by
    rw [pollNear_read, ByteStream.delivered_nothing never, List.append_nil]
  accepted s item accepts := by
    obtain ⟨stream, held, -, sends⟩ | ⟨refused, -⟩ := s.sendFar_cases item answer
    · rw [sends, held]
      rfl
    · exact absurd accepts refused
  left s item refused := by
    obtain ⟨stream, -, accepts, -⟩ | ⟨-, sends⟩ := s.sendFar_cases item answer
    · exact absurd accepts refused
    · rw [sends]

end Wire

namespace Relay

/-- What has been handed on is the first of what was taken, both ways. -/
structure Accounted (s : Relay) : Prop where
  up : s.up.Inv
  down : ∀ down, s.down = some down → down.Inv
  unopened : s.down = none → s.up.farRead = [] ∧ s.up.far.sent = []
  copied : ∀ down, s.down = some down →
    down.nearWritten <+: s.up.farRead ∧ s.up.far.sent <+: down.nearRead

/-- The relay is over because A's stream has ended: B's stream was handed all that A has written. -/
def Completes (s : Relay) (completed : Poll Unit) : Prop :=
  completed = .ready () ∧ s.up.nearClosed = true ∧
    ∃ down, s.down = some down ∧ down.nearWritten = s.up.nearWritten

structure Inv (s : Relay) : Prop extends s.Accounted where
  waiting : s.middle = .incoming → s.down = none
  opening : ∀ future, s.middle = .opening future → s.down = none
  balance : ∀ toA toB, s.middle = .relaying toA toB → ∀ down, s.down = some down →
    s.up.farRead = down.nearWritten ++ toB.getD [] ∧
      down.nearRead = s.up.far.sent ++ toA.getD []
  finished : ∀ completed, s.middle = .ended (.finished .toB completed) → s.Completes completed

theorem start_inv {hello : Bytes} {flush : Poll Unit} {up : Wire}
    (opened : Wire.new hello flush = .ok up) : (start up).Inv := by
  obtain ⟨inv, -, -, -, read, sent⟩ := Wire.new_inv opened
  refine ⟨⟨inv, ?_, fun _ => ⟨read, sent⟩, ?_⟩, fun _ => rfl, fun _ _ => rfl, ?_, ?_⟩
  · rintro down ⟨⟩
  · rintro down ⟨⟩
  · rintro toA toB ⟨⟩
  · rintro completed ⟨⟩

/-- A step at A's end of its stream, or under way on it. -/
theorem Inv.withUp {s : Relay} (inv : s.Inv) {up : Wire} (wired : up.Inv)
    (kept : s.up.FarKept up) : { s with up := up }.Inv := by
  refine ⟨⟨wired, inv.down, ?_, ?_⟩, inv.waiting, inv.opening, ?_, ?_⟩
  · intro none
    rw [kept.read, kept.sent]
    exact inv.unopened none
  · intro down held
    rw [kept.read, kept.sent]
    exact inv.copied down held
  · intro toA toB relaying down held
    rw [kept.read, kept.sent]
    exact inv.balance toA toB relaying down held
  · intro completed ended
    obtain ⟨ready, closed, down, held, whole⟩ := inv.finished completed ended
    obtain ⟨stays, written⟩ := kept.closed closed
    exact ⟨ready, stays, down, held, whole.trans written.symm⟩

/-- A step at B's end of its stream, or under way on it. -/
theorem Inv.mapDown {s : Relay} (inv : s.Inv) {change : Wire → Wire}
    (keeps : ∀ down, down.Inv → (change down).Inv ∧ down.NearKept (change down)) :
    { s with down := s.down.map change }.Inv := by
  cases held : s.down with
  | none =>
      rw [Option.map_none, ← held]
      exact inv
  | some down =>
      obtain ⟨wired, kept⟩ := keeps down (inv.down down held)
      refine ⟨⟨inv.up, ?_, ?_, ?_⟩, ?_, ?_, ?_, ?_⟩
      · rintro next ⟨⟩
        exact wired
      · rintro ⟨⟩
      · rintro next ⟨⟩
        rw [kept.read, kept.written]
        exact inv.copied down held
      · intro waits
        cases held.symm.trans (inv.waiting waits)
      · intro future opens
        cases held.symm.trans (inv.opening future opens)
      · rintro toA toB relaying next ⟨⟩
        rw [kept.read, kept.written]
        exact inv.balance toA toB relaying down held
      · intro completed ended
        obtain ⟨ready, closed, other, same, whole⟩ := inv.finished completed ended
        cases held.symm.trans same
        exact ⟨ready, closed, change down, rfl, kept.written.trans whole⟩

/-- Dropping the streams changes no account. -/
theorem Accounted.finish {s : Relay} (accounted : s.Accounted) {cause : Cause}
    (done : ∀ completed, cause = .finished .toB completed → s.Completes completed) :
    (s.finish cause).Inv := by
  refine ⟨⟨Wire.closeFar_inv accounted.up, ?_, ?_, ?_⟩, ?_, ?_, ?_, ?_⟩
  · intro next same
    obtain ⟨down, held, rfl⟩ := Option.map_eq_some_iff.mp same
    exact Wire.closeNear_inv (accounted.down down held)
  · intro none
    exact accounted.unopened (Option.map_eq_none_iff.mp none)
  · intro next same
    obtain ⟨down, held, rfl⟩ := Option.map_eq_some_iff.mp same
    exact accounted.copied down held
  · rintro ⟨⟩
  · rintro future ⟨⟩
  · rintro toA toB ⟨⟩
  · rintro completed ⟨⟩
    obtain ⟨ready, closed, down, held, whole⟩ := done completed rfl
    exact ⟨ready, closed, down.closeNear, by rw [Relay.finish, held]; rfl, whole⟩

theorem Accounted.finish_failed {s : Relay} (accounted : s.Accounted) :
    (s.finish .failed).Inv :=
  accounted.finish (fun _ same => by cases same)

/-- A direction that is done or fails ends the relay, and otherwise the balance is kept. -/
theorem Accounted.selected {s : Relay} (accounted : s.Accounted) {direction : Direction}
    {flush : Poll Unit} {turn : SendAll.Turn Error} {toA toB : Option Bytes}
    (relaying : s.middle = .relaying toA toB)
    (balance : (∀ reason, turn ≠ .error reason) → ∀ down, s.down = some down →
      s.up.farRead = down.nearWritten ++ toB.getD [] ∧
        down.nearRead = s.up.far.sent ++ toA.getD [])
    (done : turn = .ready → direction = .toB → s.Completes flush) :
    (s.selected direction flush turn).Inv := by
  have goesOn : (∀ reason, turn ≠ .error reason) → s.Inv := by
    intro never
    refine ⟨accounted, ?_, ?_, ?_, ?_⟩
    · intro waits
      cases relaying.symm.trans waits
    · intro future opens
      cases relaying.symm.trans opens
    · intro first second same
      cases relaying.symm.trans same
      exact balance never
    · intro completed ended
      cases relaying.symm.trans ended
  cases turn with
  | again => exact goesOn (by simp)
  | notReady => exact goesOn (by simp)
  | ready =>
      refine accounted.finish ?_
      rintro completed ⟨⟩
      exact done rfl rfl
  | error reason => exact accounted.finish_failed

theorem copyToB_stream {up : Wire} (inv : up.Inv) (down : Wire) (buffered : Option Bytes)
    (answer : SendPoll) (flush : Poll Unit) :
    let next := (copyToB up down buffered answer flush).2.stream
    next.Inv ∧ next.far.sent = up.far.sent ∧ next.nearWritten = up.nearWritten ∧
      next.nearClosed = up.nearClosed := by
  refine SendAll.turn_stream flush flush
    (fun wire : Wire => wire.Inv ∧ wire.far.sent = up.far.sent ∧
      wire.nearWritten = up.nearWritten ∧ wire.nearClosed = up.nearClosed) ?_ ⟨inv, rfl, rfl, rfl⟩
  rintro wire ⟨wired, sent, written, closed⟩
  obtain ⟨sentKept, writtenKept, closedKept⟩ := wire.pollFar_kept
  exact ⟨Wire.pollFar_inv wired, sentKept.trans sent, writtenKept.trans written,
    closedKept.trans closed⟩

theorem copyToB_sink (up : Wire) {down : Wire} (inv : down.Inv) (buffered : Option Bytes)
    (answer : SendPoll) (flush : Poll Unit) :
    let next := (copyToB up down buffered answer flush).2.sink
    next.Inv ∧ next.nearRead = down.nearRead := by
  refine SendAll.turn_sink flush flush
    (fun wire : Wire => wire.Inv ∧ wire.nearRead = down.nearRead) ?_ ⟨inv, rfl⟩
  rintro wire item ⟨wired, read⟩
  refine ⟨Wire.sendNear_inv wired item answer, ?_⟩
  obtain ⟨-, -, sends⟩ | ⟨-, sends⟩ := wire.sendNear_cases item answer <;> rw [sends] <;> exact read

theorem copyToA_stream (up : Wire) {down : Wire} (inv : down.Inv) (buffered : Option Bytes)
    (answer : SendPoll) (flush : Poll Unit) :
    let next := (copyToA up down buffered answer flush).2.stream
    next.Inv ∧ next.nearWritten = down.nearWritten := by
  refine SendAll.turn_stream flush flush
    (fun wire : Wire => wire.Inv ∧ wire.nearWritten = down.nearWritten) ?_ ⟨inv, rfl⟩
  rintro wire ⟨wired, written⟩
  exact ⟨Wire.callNear_inv wired .poll, written⟩

theorem copyToA_sink {up : Wire} (inv : up.Inv) (down : Wire) (buffered : Option Bytes)
    (answer : SendPoll) (flush : Poll Unit) :
    let next := (copyToA up down buffered answer flush).2.sink
    next.Inv ∧ next.farRead = up.farRead := by
  refine SendAll.turn_sink flush flush (fun wire : Wire => wire.Inv ∧ wire.farRead = up.farRead) ?_
    ⟨inv, rfl⟩
  rintro wire item ⟨wired, read⟩
  refine ⟨Wire.sendFar_inv wired item answer, ?_⟩
  obtain ⟨stream, -, -, sends⟩ | ⟨-, sends⟩ := wire.sendFar_cases item answer <;>
    rw [sends] <;> exact read

/-- A turn of the copying to B. It is done only when A's stream has ended, with everything handed on
and flushed. -/
theorem relay_toB_inv {s : Relay} (inv : s.Inv) {down : Wire} (held : s.down = some down)
    {toA toB : Option Bytes} (relaying : s.middle = .relaying toA toB) (answer : SendPoll)
    (flush : Poll Unit) : (s.relay down toA toB .toB answer flush).Inv := by
  obtain ⟨taken, back⟩ := inv.balance toA toB relaying down held
  obtain ⟨-, copiedBack⟩ := inv.copied down held
  obtain ⟨upInv, sent, written, closed⟩ := copyToB_stream inv.up down toB answer flush
  obtain ⟨downInv, read⟩ := copyToB_sink s.up (inv.down down held) toB answer flush
  obtain ⟨handed, done, balance⟩ := SendAll.turn_accounts flush flush (Wire.toB_accounts answer)
    (s := ⟨toB, s.up, down⟩) (by rw [SendAll.State.left_id]; exact taken)
  rw [SendAll.State.left_id] at balance
  refine Accounted.selected ⟨upInv, ?_, ?_, ?_⟩ rfl ?_ ?_
  · rintro next ⟨⟩
    exact downInv
  · rintro ⟨⟩
  · rintro next ⟨⟩
    refine ⟨handed, ?_⟩
    rw [sent, read]
    exact copiedBack
  · rintro never next ⟨⟩
    refine ⟨balance never, ?_⟩
    rw [sent, read]
    exact back
  · intro ready _
    obtain ⟨ended, flushed, whole⟩ := done ready
    obtain ⟨nearClosed, all⟩ := Wire.pollFar_end inv.up ended
    refine ⟨flushed, closed.trans nearClosed, _, rfl, ?_⟩
    calc (copyToB s.up down toB answer flush).2.sink.nearWritten
        = s.up.farRead := whole.symm
      _ = s.up.nearWritten := all
      _ = (copyToB s.up down toB answer flush).2.stream.nearWritten := written.symm

theorem relay_toA_inv {s : Relay} (inv : s.Inv) {down : Wire} (held : s.down = some down)
    {toA toB : Option Bytes} (relaying : s.middle = .relaying toA toB) (answer : SendPoll)
    (flush : Poll Unit) : (s.relay down toA toB .toA answer flush).Inv := by
  obtain ⟨forth, taken⟩ := inv.balance toA toB relaying down held
  obtain ⟨copiedForth, -⟩ := inv.copied down held
  obtain ⟨downInv, written⟩ := copyToA_stream s.up (inv.down down held) toA answer flush
  obtain ⟨upInv, read⟩ := copyToA_sink inv.up down toA answer flush
  obtain ⟨handed, -, balance⟩ := SendAll.turn_accounts flush flush (Wire.toA_accounts answer)
    (s := ⟨toA, down, s.up⟩) (by rw [SendAll.State.left_id]; exact taken)
  rw [SendAll.State.left_id] at balance
  refine Accounted.selected ⟨upInv, ?_, ?_, ?_⟩ rfl ?_ ?_
  · rintro next ⟨⟩
    exact downInv
  · rintro ⟨⟩
  · rintro next ⟨⟩
    refine ⟨?_, handed⟩
    rw [written, read]
    exact copiedForth
  · rintro never next ⟨⟩
    refine ⟨?_, balance never⟩
    rw [written, read]
    exact forth
  · rintro ready ⟨⟩

/-- The turn that finds a hello leaves everything behind it to the relay. -/
theorem pollMiddle_inv (setting : Setting) {s : Relay} (inv : s.Inv)
    (waits : s.middle = .incoming) (timeout : TimeoutPoll) (room : Nat) (registry : Registry) :
    (pollMiddle setting s timeout room registry).Inv := by
  have next := inv.withUp (Wire.pollIncoming_inv setting.json setting.middle inv.up timeout room)
    (s.up.pollIncoming_kept setting.json setting.middle timeout room).1
  have unopened := inv.waiting waits
  unfold pollMiddle
  split
  · rename_i up polled
    rw [polled] at next
    split
    · exact next.finish_failed
    · exact next
  · rename_i target stream helloMsg up polled
    rw [polled] at next
    split
    · refine ⟨⟨next.up, next.down, next.unopened, next.copied⟩, ?_, fun _ _ => unopened, ?_, ?_⟩
      · rintro ⟨⟩
      · rintro toA toB ⟨⟩
      · rintro completed ⟨⟩
    · exact next.finish_failed
  · rename_i up _ _ polled
    rw [polled] at next
    exact next.finish_failed

theorem opened_inv {s : Relay} (inv : s.Inv) (unopened : s.down = none) {hello : Bytes}
    {flush : Poll Unit} {down : Wire} (opens : Wire.new hello flush = .ok down) :
    { s with down := some down, middle := .relaying none none }.Inv := by
  obtain ⟨wired, -, written, read, -, -⟩ := Wire.new_inv opens
  obtain ⟨farRead, sent⟩ := inv.unopened unopened
  refine ⟨⟨inv.up, ?_, ?_, ?_⟩, ?_, ?_, ?_, ?_⟩
  · rintro next ⟨⟩
    exact wired
  · rintro ⟨⟩
  · rintro next ⟨⟩
    rw [written, sent]
    exact ⟨List.nil_prefix, List.nil_prefix⟩
  · rintro ⟨⟩
  · rintro future ⟨⟩
  · rintro toA toB ⟨⟩ next ⟨⟩
    rw [farRead, written, read, sent]
    exact ⟨rfl, rfl⟩
  · rintro completed ⟨⟩

theorem pollTarget_inv (setting : Setting) {s : Relay} (inv : s.Inv) {down : Wire}
    (held : s.down = some down) (timeout : TimeoutPoll) (room : Nat) :
    (pollTarget setting s down timeout room).Inv := by
  have next := inv.mapDown (fun other wired =>
    ⟨Wire.pollIncoming_inv setting.json setting.target wired timeout room,
      (other.pollIncoming_kept setting.json setting.target timeout room).2⟩)
  rw [held, Option.map_some] at next
  unfold pollTarget
  split
  · rename_i stream after polled
    rw [polled] at next
    exact ⟨⟨next.up, next.down, next.unopened, next.copied⟩, next.waiting, next.opening,
      next.balance, next.finished⟩
  · rename_i after _ polled
    rw [polled] at next
    exact next

theorem step_inv (setting : Setting) {s : Relay} (inv : s.Inv) (event : Event) :
    (step setting s event).Inv := by
  cases event with
  | userA act => exact inv.withUp (Wire.actNear_inv inv.up act) (s.up.actNear_farKept act)
  | userB act =>
      simp only [step]
      split
      · exact inv.mapDown (fun down wired =>
          ⟨Wire.actFar_inv wired act, down.actFar_nearKept act⟩)
      · exact inv
  | carryUp count way =>
      exact inv.withUp (Wire.carry_inv inv.up count way) (s.up.carry_farKept count way)
  | carryDown count way =>
      exact inv.mapDown (fun down wired =>
        ⟨Wire.carry_inv wired count way, down.carry_nearKept count way⟩)
  | pollMiddle timeout room registry =>
      simp only [step]
      split
      · rename_i waits
        exact pollMiddle_inv setting inv waits timeout room registry
      · exact inv
  | opened flush =>
      simp only [step]
      split
      · rename_i future opens
        split
        · rename_i down opened
          exact opened_inv inv (inv.opening future opens) opened
        · exact inv.finish_failed
      · exact inv
  | relay direction answer flush =>
      simp only [step]
      split
      · rename_i toA toB down relaying held
        cases direction with
        | toA => exact relay_toA_inv inv held relaying answer flush
        | toB => exact relay_toB_inv inv held relaying answer flush
      · exact inv
  | fail =>
      simp only [step]
      split
      · exact inv
      · exact inv.finish_failed
  | pollTarget timeout room =>
      simp only [step]
      split
      · rename_i down held
        exact pollTarget_inv setting inv held timeout room
      · exact inv

theorem run_inv (setting : Setting) {hello : Bytes} {flush : Poll Unit} {up : Wire}
    (opened : Wire.new hello flush = .ok up) (events : List Event) :
    (Transition.run (step setting) (start up) events).Inv :=
  Transition.run_invariant Inv (fun _ event inv => step_inv setting inv event) (start_inv opened)
    events

theorem Inv.readableAtB_isPrefix {s : Relay} (inv : s.Inv) : s.readableAtB <+: s.writtenByA := by
  unfold readableAtB
  split
  · rename_i stream down _ held
    have atB : down.farReadable <+: down.nearWritten := (inv.down down held).farReadable_isPrefix
    have copied : down.nearWritten <+: s.up.farRead := (inv.copied down held).1
    exact (atB.trans copied).trans inv.up.farRead_isPrefix
  · exact List.nil_prefix

theorem Inv.readableAtA_isPrefix {s : Relay} (inv : s.Inv) : s.readableAtA <+: s.writtenByB := by
  have readable := inv.up.nearReadable_isPrefix
  unfold writtenByB
  cases held : s.down with
  | none =>
      rw [(inv.unopened held).2] at readable
      exact readable
  | some down =>
      have copied : s.up.far.sent <+: down.nearRead := (inv.copied down held).2
      exact (readable.trans copied).trans (inv.down down held).nearRead_isPrefix

/-- Whatever the chunks and the order of the steps, what can be read at the one end is the first of
what was written at the other, without the hellos; and when the relay is over because A's stream
has ended, the stream to B was handed everything A has written, and has completed it. -/
theorem run_relays (setting : Setting) (peer : PeerIdentifier) {flush : Poll Unit} {up : Wire}
    (opened : Wire.new (setting.json.encode (.userProxy peer)) flush = .ok up)
    (events : List Event) :
    let s := Transition.run (step setting) (start up) events
    s.readableAtB <+: s.writtenByA ∧ s.readableAtA <+: s.writtenByB ∧
      ∀ completed, s.middle = .ended (.finished .toB completed) →
        completed = .ready () ∧ ∃ down, s.down = some down ∧
          down.near.sent = frame down.hello ++ s.writtenByA := by
  intro s
  have inv : s.Inv := run_inv setting opened events
  refine ⟨inv.readableAtB_isPrefix, inv.readableAtA_isPrefix, ?_⟩
  intro completed ended
  obtain ⟨ready, -, down, held, whole⟩ := inv.finished completed ended
  refine ⟨ready, down, held, ?_⟩
  rw [(inv.down down held).sent, whole]
  rfl

/-- The JSON texts `{"UserProxy":[2]}` and `{"User":[1]}` of the hellos of the run below. -/
def helloTexts : Bytes × Bytes :=
  ([123, 34, 85, 115, 101, 114, 80, 114, 111, 120, 121, 34, 58, 91, 50, 93, 125],
    [123, 34, 85, 115, 101, 114, 34, 58, 91, 49, 93, 125])

/-- Every other hello is a tag in front of the bytes of its peer. -/
def encodeHello : StreamHello → Bytes
  | .userProxy peer => if peer = .ofByte 2 then helloTexts.1 else 2 :: peer.bytes
  | .user peer => if peer = .ofByte 1 then helloTexts.2 else 1 :: peer.bytes
  | .registry => [3]
  | .buildConnectionToPeer peer => 4 :: peer.bytes
  | .proxyBuildConnectionToPeer peer => 5 :: peer.bytes

def decodeHello (bytes : Bytes) : Option StreamHello :=
  if bytes = helloTexts.1 then some (.userProxy (.ofByte 2))
  else if bytes = helloTexts.2 then some (.user (.ofByte 1))
  else match bytes with
    | [] => none
    | tag :: rest =>
        if fits : rest.length ≤ evpMaxMdSize then
          if tag = 1 then some (.user ⟨rest, fits⟩)
          else if tag = 2 then some (.userProxy ⟨rest, fits⟩)
          else if tag = 3 then some .registry
          else if tag = 4 then some (.buildConnectionToPeer ⟨rest, fits⟩)
          else some (.proxyBuildConnectionToPeer ⟨rest, fits⟩)
        else none

theorem decodeHello_encodeHello (hello : StreamHello) :
    decodeHello (encodeHello hello) = some hello := by
  cases hello with
  | user peer =>
      by_cases named : peer = .ofByte 1
      · simp [decodeHello, encodeHello, helloTexts, named]
      · simp [decodeHello, encodeHello, helloTexts, named, peer.bounded]
  | userProxy peer =>
      by_cases named : peer = .ofByte 2
      · simp [decodeHello, encodeHello, named]
      · simp [decodeHello, encodeHello, helloTexts, named, peer.bounded]
  | registry => decide
  | buildConnectionToPeer peer =>
      simp [decodeHello, encodeHello, helloTexts, peer.bounded]
  | proxyBuildConnectionToPeer peer =>
      simp [decodeHello, encodeHello, helloTexts, peer.bounded]

/-- Peer 1 is A, peer 2 is B and peer 3 is in the middle. -/
def threePeers : Setting where
  json := ⟨encodeHello, decodeHello, decodeHello_encodeHello⟩
  middle := IncomingStream.new ⟨0⟩ (.ofByte 1) (NewStreamHandle.new (.ofByte 1) (.ofByte 3) ⟨0⟩)
  target := IncomingStream.new ⟨0⟩ (.ofByte 3) (NewStreamHandle.new (.ofByte 3) (.ofByte 2) ⟨0⟩)

def knowsB : Registry :=
  (Registry.new.registerPeer (.ofByte 2) (NewStreamHandle.new (.ofByte 2) (.ofByte 3) ⟨1⟩)).2

/-- What A writes arrives in one chunk with its hello, and then in one chunk with the hello of the
relay. B answers, and A ends. -/
def sharedChunks : List Event :=
  [.userA (.send [7, 8] .accepted), .carryUp 100 .there, .pollMiddle .notReady 100 knowsB,
    .pollMiddle .notReady 100 knowsB, .opened (.ready ()), .relay .toB .accepted (.ready ()),
    .carryDown 100 .there, .pollTarget .notReady 100, .pollTarget .notReady 100,
    .userB (.send [9] .accepted), .carryDown 100 .back, .relay .toA .accepted .notReady,
    .carryUp 100 .back, .userB (.call (.read 1)), .userA .close,
    .relay .toB .accepted (.ready ())]

def opensToB : Wire where
  hello := encodeHello (.userProxy (.ofByte 2))
  near := ⟨[], none, frame (encodeHello (.userProxy (.ofByte 2)))⟩
  far := .incoming (Framed.new (ByteStream.new []))
  there := frame (encodeHello (.userProxy (.ofByte 2)))
  back := []
  nearClosed := false
  farClosed := false
  nearWritten := []
  nearRead := []
  farRead := []

theorem run_relays_sharedChunks :
    let s := Transition.run (step threePeers) (start opensToB) sharedChunks
    s.readableAtB = [7, 8] ∧ s.readableAtB <+: s.writtenByA ∧
      s.readableAtA = [9] ∧ s.readableAtA <+: s.writtenByB ∧
      s.middle = .ended (.finished .toB (.ready ())) ∧
      ∃ down, s.down = some down ∧ down.near.sent = frame down.hello ++ s.writtenByA := by
  intro s
  have opened : Wire.new (threePeers.json.encode (.userProxy (.ofByte 2))) (.ready ()) =
      .ok opensToB := by rfl
  have ended : s.middle = .ended (.finished .toB (.ready ())) := by decide
  obtain ⟨atB, atA, done⟩ := run_relays threePeers (.ofByte 2) opened sharedChunks
  exact ⟨by decide, atB, by decide, atA, ended, (done _ ended).2⟩

end Relay

end HolePunch
