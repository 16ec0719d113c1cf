import HolePunch.Library.Channel
import HolePunch.WireBytes

set_option autoImplicit false

/- The two ends of a protocol stream (`stream.rs`) over a reliable transport that cuts the bytes
into chunks as it likes. For its users it is a channel of messages: the ones that `start_send` has
accepted come out at the other end, each once and in their order. -/
namespace HolePunch

open LengthDelimited (Bytes frame frames frames_cons frames_nil)

/-- `arrived` counts the bytes of the sender's sink that have come to the receiver. The sender is
closed when it is shut down or dropped. The last four fields keep the messages that `start_send`
has accepted and what the polls of the receiver have reported. -/
structure ProtocolLink (P : Type) where
  sender : Framed
  receiver : Framed
  arrived : Nat
  closed : Bool
  accepted : List P
  received : List P
  ended : Bool
  failed : Bool

namespace ProtocolLink

variable {P : Type} (json : Json P)

inductive Event (P : Type) where
  | startSend (message : P) (answers : Framed.SinkAnswers)
  | pollComplete (answers : Framed.SinkAnswers)
  | close
  | carry (count : Nat)
  | poll (room : Nat)

def new : ProtocolLink P where
  sender := Framed.new (ByteStream.new [])
  receiver := Framed.new (ByteStream.new [])
  arrived := 0
  closed := false
  accepted := []
  received := []
  ended := false
  failed := false

/-- The bytes under way. -/
def carried (s : ProtocolLink P) : Bytes := s.sender.io.sent.drop s.arrived

def startSend (s : ProtocolLink P) (message : P) (answers : Framed.SinkAnswers) : ProtocolLink P :=
  if s.closed then s
  else match s.sender.startSend (json.encode message) answers with
    | (.accepted, sender) => { s with sender := sender, accepted := s.accepted ++ [message] }
    | (_, sender) => { s with sender := sender }

def pollComplete (s : ProtocolLink P) (answers : Framed.SinkAnswers) : ProtocolLink P :=
  if s.closed then s else { s with sender := (s.sender.pollComplete answers).2 }

/-- The next bytes arrive in one chunk. A chunk is never empty. -/
def carry (s : ProtocolLink P) (count : Nat) : ProtocolLink P :=
  match s.carried.take (count + 1) with
  | [] => s
  | chunk => { s with
      receiver := { s.receiver with io := s.receiver.io.arrive chunk }
      arrived := s.arrived + chunk.length }

/-- One turn of a poll. A payload that is no message is an error. -/
def poll (s : ProtocolLink P) (room : Nat) : ProtocolLink P :=
  match s.receiver.asked (s.closed && s.carried.isEmpty) room with
  | (.again, receiver) => { s with receiver := receiver }
  | (.notReady, receiver) => { s with receiver := receiver }
  | (.error, receiver) => { s with receiver := receiver, failed := true }
  | (.ready none, receiver) => { s with receiver := receiver, ended := true }
  | (.ready (some payload), receiver) =>
      match json.decode payload with
      | some message => { s with receiver := receiver, received := s.received ++ [message] }
      | none => { s with receiver := receiver, failed := true }

def step (s : ProtocolLink P) : Event P → ProtocolLink P
  | .startSend message answers => s.startSend json message answers
  | .pollComplete answers => s.pollComplete answers
  | .close => { s with closed := true }
  | .carry count => s.carry count
  | .poll room => s.poll json room

/-- The channel of messages that the link stands for. -/
def channel (s : ProtocolLink P) : Channel P :=
  ⟨s.received, s.accepted.drop s.received.length⟩

/-- What an event is to the channel: a message is sent when `start_send` accepts it, and received
when a poll gives it. -/
def action (s : ProtocolLink P) : Event P → List (Channel.Event P)
  | .startSend message answers =>
      if s.closed then []
      else match s.sender.startSend (json.encode message) answers with
        | (.accepted, _) => [.send message]
        | _ => []
  | .poll room =>
      match s.receiver.asked (s.closed && s.carried.isEmpty) room with
      | (.ready (some _), _) => [.receive]
      | _ => []
  | _ => []

end ProtocolLink

namespace ByteStream

/-- Only chunks with bytes in them have arrived. -/
structure Solid (s : ByteStream) : Prop where
  chunks : ∀ answer ∈ s.inner, ∃ byte rest, answer = some (byte :: rest)
  readOverflow : s.readOverflow ≠ some []

theorem Solid.asked {s : ByteStream} (solid : s.Solid) : s.asked = s := by
  obtain ⟨inner, readOverflow, sent⟩ := s
  have kept : inner.filter Option.isSome = inner := by
    apply List.filter_eq_self.mpr
    intro answer member
    obtain ⟨byte, rest, rfl⟩ := solid.chunks answer member
    rfl
  simp only [ByteStream.asked, kept]

theorem Solid.asking_asked {s : ByteStream} (solid : s.Solid) (ended : Bool) :
    (s.asking ended).asked = s := by
  have same := solid.asked
  unfold asking
  split
  · exact same
  · simp only [ByteStream.asked, List.filter_append, List.filter_cons, Option.isSome_none,
      Bool.false_eq_true, ↓reduceIte, List.filter_nil, List.append_nil] at same ⊢
    exact same

theorem Solid.arrive {s : ByteStream} (solid : s.Solid) (byte : UInt8) (rest : Bytes) :
    (s.arrive (byte :: rest)).Solid := by
  refine ⟨?_, solid.readOverflow⟩
  intro answer member
  rcases List.mem_append.mp member with old | new
  · exact solid.chunks answer old
  · exact ⟨byte, rest, List.mem_singleton.mp new⟩

theorem copyData_solid (byte : UInt8) (rest : Bytes) (room : Nat) :
    (∃ first others, (copyData (byte :: rest) (room + 1)).1 = first :: others) ∧
      (copyData (byte :: rest) (room + 1)).2 ≠ some [] := by
  refine ⟨⟨byte, rest.take room, rfl⟩, ?_⟩
  unfold copyData
  dsimp only
  split
  · rename_i longer
    intro same
    have lengths := congrArg List.length (Option.some.inj same)
    rw [List.length_drop] at lengths
    simp only [List.length_nil] at lengths
    omega
  · intro same
    cases same

/-- A read gives bytes as long as there are any. -/
theorem Solid.asking_read {s : ByteStream} (solid : s.Solid) (ended : Bool) (room : Nat) :
    let read := (s.asking ended).read (room + 1)
    read.2.asked.Solid ∧
      ((∃ byte rest, read.1 = .ready (byte :: rest)) ∨
        (read.1 = .ready [] ∧ ended = true ∧ s.pending = []) ∨
        (read.1 = .notReady ∧ ended = false ∧ s.pending = [])) := by
  obtain ⟨inner, readOverflow, sent⟩ := s
  have same := solid.asking_asked ended
  obtain ⟨chunks, overflow⟩ := solid
  cases readOverflow with
  | some data =>
      cases data with
      | nil => exact absurd rfl overflow
      | cons byte rest =>
          obtain ⟨⟨first, others, copied⟩, left⟩ := copyData_solid byte rest room
          have stays : (ByteStream.asking ⟨inner, some (byte :: rest), sent⟩ ended).readOverflow =
              some (byte :: rest) := by
            unfold asking
            split <;> rfl
          simp only [read, stays]
          refine ⟨⟨?_, left⟩, Or.inl ⟨first, others, congrArg _ copied⟩⟩
          have innerSame := congrArg ByteStream.inner same
          intro answer member
          exact chunks answer (innerSame ▸ member)
  | none =>
      cases inner with
      | nil =>
          cases ended with
          | true => exact ⟨⟨chunks, overflow⟩, Or.inr (Or.inl ⟨rfl, rfl, rfl⟩)⟩
          | false => exact ⟨⟨chunks, overflow⟩, Or.inr (Or.inr ⟨rfl, rfl, rfl⟩)⟩
      | cons answer later =>
          obtain ⟨byte, rest, rfl⟩ := chunks answer List.mem_cons_self
          have solidLater : (ByteStream.mk later none sent).Solid :=
            ⟨fun given member => chunks given (List.mem_cons_of_mem _ member), overflow⟩
          have sameLater := congrArg ByteStream.inner (solidLater.asking_asked ended)
          obtain ⟨⟨first, others, copied⟩, left⟩ := copyData_solid byte rest room
          have polled : (ByteStream.asking ⟨some (byte :: rest) :: later, none, sent⟩ ended).read
              (room + 1) = (.ready (copyData (byte :: rest) (room + 1)).1,
                { ByteStream.asking ⟨later, none, sent⟩ ended with
                  readOverflow := (copyData (byte :: rest) (room + 1)).2 }) := by
            unfold asking
            split <;> rfl
          rw [polled]
          refine ⟨⟨?_, left⟩, Or.inl ⟨first, others, congrArg _ copied⟩⟩
          intro given member
          exact solidLater.chunks given (sameLater ▸ member)

end ByteStream

namespace Framed

/-- A read over the bytes that have arrived. -/
def askedFill (s : Framed) (ended : Bool) (room : Nat) : Turn × Framed :=
  let polled := { s with io := s.io.asking ended }.fill room
  (polled.1, { polled.2 with io := polled.2.io.asked })

theorem askedFill_cases {s : Framed} (solid : s.io.Solid) (ended : Bool) (room : Nat) :
    (∃ io byte rest, io.Solid ∧ byte :: rest ++ io.pending = s.io.pending ∧
      s.askedFill ended room = (.again, { s with
        io := io, readBuf := s.readBuf ++ byte :: rest, eof := false, isReadable := true })) ∨
    (∃ io, io.Solid ∧ ended = true ∧ s.io.pending = [] ∧ io.pending = [] ∧
      s.askedFill ended room = (.again, { s with io := io, eof := true, isReadable := true })) ∨
    ∃ io, io.Solid ∧ s.io.pending = [] ∧ io.pending = [] ∧
      s.askedFill ended room = (.notReady, { s with io := io }) := by
  obtain ⟨kept, reads⟩ := solid.asking_read ended room
  have bytes := (s.io.asking ended).read_bytes (room + 1)
  rw [ByteStream.asking_pending, ← ByteStream.asked_pending ((s.io.asking ended).read _).2] at bytes
  simp only [askedFill, fill]
  generalize (s.io.asking ended).read (room + 1) = read at kept reads bytes
  obtain ⟨answer, io⟩ := read
  rcases reads with ⟨byte, others, gives⟩ | ⟨gives, closed, none⟩ | ⟨gives, _, none⟩
  · obtain rfl : answer = _ := gives
    exact Or.inl ⟨io.asked, byte, others, kept, bytes, rfl⟩
  · obtain rfl : answer = _ := gives
    refine Or.inr (Or.inl ⟨io.asked, kept, closed, none, bytes.trans none, ?_⟩)
    simp only [List.append_nil, List.isEmpty_nil]
  · obtain rfl : answer = _ := gives
    exact Or.inr (Or.inr ⟨io.asked, kept, none, bytes.trans none, rfl⟩)

/-- A transport at the receiving end. When it does not try to decode, it has tried before. -/
structure Fed (s : Framed) (ended : Bool) : Prop where
  codec : s.codec.Bounded
  io : s.io.Solid
  waits : s.isReadable = false →
    (LengthDelimited.decode maxFrameLength s.codec s.readBuf).result = .ok none
  eof : s.eof = true → ended = true ∧ s.io.pending = []

/-- What a turn does to a transport whose unread bytes, with those in `tail` that are still under
way, are the frames of the given payloads. -/
inductive Turned (s : Framed) (ended : Bool) (tail : Bytes) (payloads : List Bytes) :
    Turn → Framed → Prop
  | gives {payload : Bytes} {rest : List Bytes} {next : Framed} (first : payloads = payload :: rest)
      (unread : next.unread ++ tail = frames rest) (pending : next.io.pending = s.io.pending) :
      Turned s ended tail payloads (.ready (some payload)) next
  | ends {next : Framed} (closed : ended = true) (all : payloads = [])
      (unread : next.unread = s.unread) : Turned s ended tail payloads (.ready none) next
  | reads {next : Framed} (unread : next.unread = s.unread)
      (fewer : next.io.pending.length < s.io.pending.length) :
      Turned s ended tail payloads .again next
  | idles {turn : Turn} {next : Framed} (waiting : turn = .again ∨ turn = .notReady)
      (unread : next.unread = s.unread) (all : tail = [] → payloads = []) :
      Turned s ended tail payloads turn next

theorem Turned.congr {s other next : Framed} {ended : Bool} {tail : Bytes} {payloads : List Bytes}
    {turn : Turn} (turned : Turned s ended tail payloads turn next)
    (unread : s.unread = other.unread) (pending : s.io.pending = other.io.pending) :
    Turned other ended tail payloads turn next := by
  cases turned with
  | gives first given same => exact .gives first given (same.trans pending)
  | ends closed all same => exact .ends closed all (same.trans unread)
  | reads same fewer => exact .reads (same.trans unread) (pending ▸ fewer)
  | idles waiting same all => exact .idles waiting (same.trans unread) all

theorem maxFrameLength_lt : maxFrameLength < 2 ^ 32 := by
  unfold maxFrameLength
  omega

/-- A turn that reads, from a transport with no complete frame. -/
theorem askedFill_turned {s : Framed} {ended : Bool} (fed : s.Fed ended) {tail : Bytes}
    {payloads : List Bytes} (all : s.io.pending ++ tail = [] → payloads = []) (room : Nat) :
    (s.askedFill ended room).2.Fed ended ∧
      Turned s ended tail payloads (s.askedFill ended room).1 (s.askedFill ended room).2 := by
  rcases askedFill_cases fed.io ended room with
    ⟨io, byte, rest, solid, bytes, filled⟩ | ⟨io, solid, closed, empty, left, filled⟩ |
    ⟨io, solid, empty, left, filled⟩
  · rw [filled]
    refine ⟨⟨fed.codec, solid, (fun readable => by cases readable), fun eof => by cases eof⟩, ?_⟩
    refine .reads ?_ ?_
    · simp only [unread, ← bytes, List.append_assoc]
    · rw [← bytes, List.length_append, List.length_cons]
      dsimp only
      omega
  · rw [filled]
    refine ⟨⟨fed.codec, solid, (fun readable => by cases readable), fun _ => ⟨closed, left⟩⟩, ?_⟩
    refine .idles (Or.inl rfl) ?_ ?_
    · simp only [unread, left, empty]
    · rintro rfl
      exact all (by rw [empty, List.append_nil])
  · rw [filled]
    refine ⟨⟨fed.codec, solid, fed.waits, fun eof => ⟨(fed.eof eof).1, left⟩⟩, ?_⟩
    refine .idles (Or.inr rfl) ?_ ?_
    · simp only [unread, left, empty]
    · rintro rfl
      exact all (by rw [empty, List.append_nil])

/-- Fed with frames within the limit, the transport gives the payloads in their order, reports the
end after the last one only, and never fails. -/
theorem asked_turned {s : Framed} {ended : Bool} (fed : s.Fed ended) {tail : Bytes}
    {payloads : List Bytes} (comes : s.unread ++ tail = frames payloads)
    (fits : ∀ payload ∈ payloads, payload.length ≤ maxFrameLength)
    (carried : ended = true → tail = []) (room : Nat) :
    (s.asked ended room).2.Fed ended ∧
      Turned s ended tail payloads (s.asked ended room).1 (s.asked ended room).2 := by
  have decoding : s.codec.taken ++ (s.readBuf ++ (s.io.pending ++ tail)) = frames payloads := by
    rw [← comes]
    simp only [unread, List.append_assoc]
  have decoded := LengthDelimited.decode_of_frames fed.codec fits maxFrameLength_lt decoding
  obtain ⟨given, kept⟩ := LengthDelimited.decode_bytes maxFrameLength fed.codec s.readBuf
  have io := fed.io.asking_asked ended
  by_cases readable : s.isReadable
  · rcases decoded with ⟨payload, rest, rfl, complete⟩ | ⟨waits, all⟩
    · obtain ⟨head, short, bytes⟩ := given payload complete
      simp only [asked, turn, readable, ↓reduceIte, complete, io]
      refine ⟨⟨?_, fed.io, (fun unreadable => by cases unreadable), fed.eof⟩, .gives rfl ?_ rfl⟩
      · rw [head]
        trivial
      · rw [← List.append_assoc, ← List.append_assoc, bytes, frames_cons, List.append_assoc,
          List.append_assoc] at decoding
        simp only [unread, head, LengthDelimited.taken_head, List.nil_append, List.append_assoc]
        exact List.append_cancel_left decoding
    · obtain ⟨bounded, bytes⟩ := kept (by simp [waits])
      have again := LengthDelimited.decode_again waits
      by_cases atEnd : s.eof
      · obtain ⟨closed, left⟩ := fed.eof atEnd
        have none := all (by rw [left, carried closed, List.append_nil])
        have empty : (LengthDelimited.decode maxFrameLength s.codec s.readBuf).buffer = [] := by
          rw [none, left, carried closed] at decoding
          rw [← List.append_assoc, bytes] at decoding
          simp only [List.append_assoc, frames_nil, List.append_eq_nil_iff] at decoding
          exact decoding.2.1
        simp only [asked, turn, readable, ↓reduceIte, waits, atEnd, empty, List.isEmpty_nil, io]
        refine ⟨⟨bounded, fed.io, (fun unreadable => by cases unreadable),
          fun _ => ⟨closed, left⟩⟩, ?_⟩
        refine .ends closed none ?_
        simp only [unread, ← List.append_assoc, bytes, empty]
      · generalize emptied : Framed.mk s.io
          (LengthDelimited.decode maxFrameLength s.codec s.readBuf).state
          (LengthDelimited.decode maxFrameLength s.codec s.readBuf).buffer s.writeBuf s.eof
          false = waiting
        have filled : s.asked ended room = waiting.askedFill ended room := by
          rw [← emptied]
          simp only [asked, askedFill, turn, readable, ↓reduceIte, waits, atEnd, Bool.false_eq_true]
        have same : waiting.unread = s.unread := by
          rw [← emptied]
          simp only [unread, ← List.append_assoc, bytes]
        have sameIo : waiting.io = s.io := by rw [← emptied]
        have fedWaiting : waiting.Fed ended := by
          rw [← emptied]
          exact ⟨bounded, fed.io, fun _ => again, fed.eof⟩
        obtain ⟨stays, turned⟩ := askedFill_turned fedWaiting (sameIo ▸ all) room
        rw [filled]
        exact ⟨stays, turned.congr same (by rw [sameIo])⟩
  · rcases decoded with ⟨payload, rest, -, complete⟩ | ⟨waits, all⟩
    · rw [fed.waits (by simpa using readable)] at complete
      cases complete
    · have filled : s.asked ended room = s.askedFill ended room := by
        simp only [asked, askedFill, turn, readable, Bool.false_eq_true, ↓reduceIte]
      rw [filled]
      exact askedFill_turned fed all room

theorem Fed.mono {s : Framed} {ended later : Bool} (fed : s.Fed ended)
    (still : ended = true → later = true) : s.Fed later :=
  ⟨fed.codec, fed.io, fed.waits, fun eof => ⟨still (fed.eof eof).1, (fed.eof eof).2⟩⟩

/-- The sink takes the whole write buffer or nothing of it. -/
def Flushes (s next : Framed) : Prop :=
  (next.io.sent = s.io.sent ∧ next.writeBuf = s.writeBuf) ∨
    (next.io.sent = s.io.sent ++ s.writeBuf ∧ next.writeBuf = [])

theorem pollComplete_flushes (s : Framed) (answers : SinkAnswers) :
    s.Flushes (s.pollComplete answers).2 := by
  unfold pollComplete ByteStream.write
  split
  · exact Or.inl ⟨rfl, rfl⟩
  · cases answers.write with
    | accepted => exact Or.inr ⟨rfl, List.drop_length⟩
    | refused => exact Or.inl ⟨rfl, rfl⟩
    | error reason => exact Or.inl ⟨rfl, rfl⟩

theorem encode_cases (s : Framed) (payload : Bytes) :
    (payload.length ≤ maxFrameLength ∧
      s.encode payload = (.accepted, { s with writeBuf := s.writeBuf ++ frame payload })) ∨
    ((s.encode payload).1 ≠ .accepted ∧ (s.encode payload).2 = s) := by
  unfold encode LengthDelimited.encode
  by_cases fits : payload.length ≤ maxFrameLength
  · rw [if_pos fits]
    exact Or.inl ⟨fits, rfl⟩
  · rw [if_neg fits]
    exact Or.inr ⟨by simp, rfl⟩

/-- A message that is accepted joins the write buffer, and some of what was there before may be
written first. -/
theorem startSend_cases (s : Framed) (payload : Bytes) (answers : SinkAnswers) :
    ∃ flushed, s.Flushes flushed ∧
      ((payload.length ≤ maxFrameLength ∧ s.startSend payload answers =
          (.accepted, { flushed with writeBuf := flushed.writeBuf ++ frame payload })) ∨
        ((s.startSend payload answers).1 ≠ .accepted ∧
          (s.startSend payload answers).2 = flushed)) := by
  have written := s.pollComplete_flushes answers
  unfold startSend
  split
  · split
    · rename_i reason next failed
      rw [failed] at written
      exact ⟨next, written, Or.inr ⟨by simp, rfl⟩⟩
    · rename_i next _ completed
      rw [completed] at written
      refine ⟨next, written, ?_⟩
      split
      · exact Or.inr ⟨by simp, rfl⟩
      · exact next.encode_cases payload
  · exact ⟨s, Or.inl ⟨rfl, rfl⟩, s.encode_cases payload⟩

end Framed

namespace ProtocolLink

variable {P : Type} {json : Json P} {s : ProtocolLink P} {underWay buffered : List P}

/-- The messages that have been accepted and not received are under way, or in the write buffer of
the sender. -/
structure Inv (json : Json P) (s : ProtocolLink P) (underWay buffered : List P) : Prop where
  order : s.accepted = s.received ++ (underWay ++ buffered)
  arrived : s.arrived ≤ s.sender.io.sent.length
  receiver : s.receiver.Fed (s.closed && s.carried.isEmpty)
  bytes : s.receiver.unread ++ s.carried = frames (underWay.map json.encode)
  writeBuf : s.sender.writeBuf = frames (buffered.map json.encode)
  fits : ∀ message ∈ underWay ++ buffered, (json.encode message).length ≤ Framed.maxFrameLength
  failed : s.failed = false
  ended : s.ended = true → s.closed = true ∧ s.carried = [] ∧ underWay = []

theorem new_inv : (new : ProtocolLink P).Inv json [] [] where
  order := rfl
  arrived := Nat.le_refl 0
  receiver := ⟨trivial, ⟨(fun _ member => by cases member), (fun same => by cases same)⟩,
    fun _ => rfl, fun eof => by cases eof⟩
  bytes := rfl
  writeBuf := rfl
  fits := fun _ member => by cases member
  failed := rfl
  ended := fun ended => by cases ended

/-- The sender writes its buffer, or nothing. -/
theorem Inv.flush (inv : s.Inv json underWay buffered) (opened : s.closed = false)
    {sender : Framed} (flushes : s.sender.Flushes sender) :
    ∃ carried left, underWay ++ buffered = carried ++ left ∧
      { s with sender := sender }.Inv json carried left := by
  have noEnd : s.ended = false := by
    by_contra ended
    have closed := (inv.ended (by simpa using ended)).1
    rw [opened] at closed
    cases closed
  rcases flushes with ⟨sent, writeBuf⟩ | ⟨sent, writeBuf⟩
  · have carried : ({ s with sender := sender } : ProtocolLink P).carried = s.carried := by
      simp only [ProtocolLink.carried, sent]
    refine ⟨underWay, buffered, rfl, inv.order, ?_, ?_, ?_, ?_, inv.fits, inv.failed, ?_⟩
    · simpa only [sent] using inv.arrived
    · rw [carried]
      exact inv.receiver
    · rw [carried]
      exact inv.bytes
    · exact writeBuf.trans inv.writeBuf
    · rw [carried]
      exact inv.ended
  · have carried : ({ s with sender := sender } : ProtocolLink P).carried =
        s.carried ++ s.sender.writeBuf := by
      simp only [ProtocolLink.carried, sent]
      exact List.drop_append_of_le_length inv.arrived
    refine ⟨underWay ++ buffered, [], (List.append_nil _).symm, ?_, ?_, ?_, ?_, writeBuf, ?_,
      inv.failed, ?_⟩
    · rw [List.append_nil]
      exact inv.order
    · have before := inv.arrived
      simp only [sent, List.length_append]
      omega
    · have receiver := inv.receiver
      simp only [opened, Bool.false_and] at receiver ⊢
      exact receiver
    · rw [carried, ← List.append_assoc]
      change s.receiver.unread ++ s.carried ++ s.sender.writeBuf = _
      rw [inv.bytes, inv.writeBuf, List.map_append, LengthDelimited.frames_append]
    · rw [List.append_nil]
      exact inv.fits
    · intro ended
      rw [show ({ s with sender := sender } : ProtocolLink P).ended = s.ended from rfl, noEnd]
        at ended
      cases ended

theorem Inv.channel (inv : s.Inv json underWay buffered) :
    s.channel = ⟨s.received, underWay ++ buffered⟩ := by
  unfold ProtocolLink.channel
  rw [inv.order, List.drop_left]

/-- A step keeps the order of the messages, and is to the channel what its action says. -/
def Steps (json : Json P) (s : ProtocolLink P) (event : Event P) : Prop :=
  ∃ underWay buffered, (s.step json event).Inv json underWay buffered ∧
    (s.step json event).channel = Transition.run Channel.step s.channel (s.action json event)

theorem Inv.startSend (inv : s.Inv json underWay buffered) (message : P)
    (answers : Framed.SinkAnswers) : s.Steps json (.startSend message answers) := by
  unfold Steps
  simp only [step, ProtocolLink.startSend, action]
  by_cases closed : s.closed
  · rw [if_pos closed, if_pos closed]
    exact ⟨underWay, buffered, inv, rfl⟩
  · rw [if_neg closed, if_neg closed]
    obtain ⟨flushed, flushes, ⟨fits, accepted⟩ | ⟨refused, same⟩⟩ :=
      s.sender.startSend_cases (json.encode message) answers
    · obtain ⟨carried, left, order, kept⟩ := inv.flush (by simpa using closed) flushes
      rw [accepted]
      have next : ProtocolLink.Inv json { s with
          sender := { flushed with writeBuf := flushed.writeBuf ++ frame (json.encode message) }
          accepted := s.accepted ++ [message] } carried (left ++ [message]) := by
        refine ⟨?_, kept.arrived, kept.receiver, kept.bytes, ?_, ?_, kept.failed, kept.ended⟩
        · rw [kept.order]
          simp only [List.append_assoc]
        · change flushed.writeBuf ++ _ = _
          rw [show flushed.writeBuf = _ from kept.writeBuf]
          simp only [List.map_append, List.map_cons, List.map_nil, LengthDelimited.frames_append,
            frames_cons, frames_nil, List.append_nil]
        · intro given member
          rw [← List.append_assoc] at member
          rcases List.mem_append.mp member with old | new
          · exact kept.fits given old
          · rw [List.mem_singleton.mp new]
            exact fits
      refine ⟨carried, left ++ [message], next, ?_⟩
      rw [next.channel, inv.channel, order]
      simp only [Transition.run, List.foldl_cons, List.foldl_nil, Channel.step, Channel.send,
        Channel.sendAll, List.append_assoc]
    · obtain ⟨carried, left, order, kept⟩ := inv.flush (by simpa using closed) flushes
      generalize s.sender.startSend (json.encode message) answers = sent at refused same
      obtain ⟨answer, sender⟩ := sent
      obtain rfl : sender = flushed := same
      cases answer with
      | accepted => exact absurd rfl refused
      | refused =>
          refine ⟨carried, left, kept, ?_⟩
          rw [kept.channel, inv.channel, order]
          rfl
      | error reason =>
          refine ⟨carried, left, kept, ?_⟩
          rw [kept.channel, inv.channel, order]
          rfl

theorem Inv.pollComplete (inv : s.Inv json underWay buffered) (answers : Framed.SinkAnswers) :
    s.Steps json (.pollComplete answers) := by
  unfold Steps
  simp only [step, ProtocolLink.pollComplete, action]
  by_cases closed : s.closed
  · rw [if_pos closed]
    exact ⟨underWay, buffered, inv, rfl⟩
  · rw [if_neg closed]
    obtain ⟨carried, left, order, kept⟩ :=
      inv.flush (by simpa using closed) (s.sender.pollComplete_flushes answers)
    refine ⟨carried, left, kept, ?_⟩
    rw [kept.channel, inv.channel, order]
    rfl

theorem Inv.close (inv : s.Inv json underWay buffered) : s.Steps json .close := by
  refine ⟨underWay, buffered, ?_, rfl⟩
  refine ⟨inv.order, inv.arrived, ?_, inv.bytes, inv.writeBuf, inv.fits, inv.failed, ?_⟩
  · apply inv.receiver.mono
    intro both
    rw [Bool.and_eq_true] at both
    exact both.2
  · intro ended
    exact ⟨rfl, (inv.ended ended).2⟩

theorem Inv.carry (inv : s.Inv json underWay buffered) (count : Nat) :
    s.Steps json (.carry count) := by
  unfold Steps
  simp only [step, ProtocolLink.carry, action]
  cases taken : s.carried.take (count + 1) with
  | nil => exact ⟨underWay, buffered, inv, rfl⟩
  | cons byte rest =>
      have split : s.carried = byte :: rest ++ s.carried.drop (count + 1) := by
        rw [← taken, List.take_append_drop]
      have left : s.sender.io.sent.drop (s.arrived + (byte :: rest).length) =
          s.carried.drop (count + 1) := by
        have cut := congrArg (List.drop (byte :: rest).length) split
        rw [List.drop_left, carried, List.drop_drop] at cut
        exact cut
      generalize s.carried.drop (count + 1) = later at split left
      refine ⟨underWay, buffered, ?_, rfl⟩
      refine ⟨inv.order, ?_, ?_, ?_, inv.writeBuf, inv.fits, inv.failed, ?_⟩
      · have total : s.carried.length = s.sender.io.sent.length - s.arrived := List.length_drop
        have before := inv.arrived
        rw [split, List.length_append] at total
        change s.arrived + (byte :: rest).length ≤ s.sender.io.sent.length
        omega
      · refine ⟨inv.receiver.codec, inv.receiver.io.arrive byte rest, inv.receiver.waits, ?_⟩
        intro eof
        have closed := (inv.receiver.eof eof).1
        rw [split] at closed
        simp at closed
      · change s.receiver.codec.taken ++ (s.receiver.readBuf ++ (s.receiver.io.arrive _).pending) ++
          s.sender.io.sent.drop (s.arrived + (byte :: rest).length) = _
        rw [left, ByteStream.arrive_pending, ← inv.bytes, split]
        simp only [Framed.unread, List.append_assoc]
      · intro ended
        have none := (inv.ended ended).2.1
        rw [split] at none
        cases none

/-- A poll gives the next message under way, or leaves the messages as they are. When all bytes
have arrived, it comes closer to the next message, if there is one. -/
theorem Inv.polled (inv : s.Inv json underWay buffered) (room : Nat) :
    ∃ rest, (s.poll json room).Inv json rest buffered ∧
      (s.poll json room).channel =
        Transition.run Channel.step s.channel (s.action json (.poll room)) ∧
      rest.length ≤ underWay.length ∧
      (s.carried = [] → rest = [] ∨
        (s.poll json room).receiver.io.pending.length + rest.length <
          s.receiver.io.pending.length + underWay.length) := by
  simp only [ProtocolLink.poll, action]
  have payloads : ∀ payload ∈ underWay.map json.encode,
      payload.length ≤ Framed.maxFrameLength := by
    intro payload member
    obtain ⟨message, sends, rfl⟩ := List.mem_map.mp member
    exact inv.fits message (List.mem_append_left _ sends)
  have carried : (s.closed && s.carried.isEmpty) = true → s.carried = [] := by
    intro both
    rw [Bool.and_eq_true] at both
    exact List.isEmpty_iff.mp both.2
  obtain ⟨fed, turned⟩ := Framed.asked_turned inv.receiver inv.bytes payloads carried room
  generalize s.receiver.asked (s.closed && s.carried.isEmpty) room = asked at fed turned
  obtain ⟨turn, receiver⟩ := asked
  have waits : ∀ (unread : receiver.unread = s.receiver.unread),
      ProtocolLink.Inv json { s with receiver := receiver } underWay buffered := by
    intro unread
    refine ⟨inv.order, inv.arrived, fed, ?_, inv.writeBuf, inv.fits, inv.failed, inv.ended⟩
    change receiver.unread ++ s.carried = _
    rw [unread]
    exact inv.bytes
  cases turned with
  | gives first unread pending =>
      cases underWay with
      | nil => cases first
      | cons message rest =>
          cases first
          simp only [json.decode_encode]
          have next : ProtocolLink.Inv json { s with
              receiver := receiver, received := s.received ++ [message] } rest buffered := by
            refine ⟨?_, inv.arrived, fed, unread, inv.writeBuf, ?_, inv.failed, ?_⟩
            · rw [inv.order]
              simp only [List.append_assoc, List.cons_append, List.nil_append]
            · intro given member
              exact inv.fits given (List.mem_cons_of_mem message member)
            · intro ended
              cases (inv.ended ended).2.2
          refine ⟨rest, next, ?_, Nat.le_succ _, fun _ => Or.inr ?_⟩
          · rw [next.channel, inv.channel]
            rfl
          · dsimp only at pending ⊢
            rw [pending, List.length_cons]
            omega
  | ends closed all unread =>
      rw [Bool.and_eq_true] at closed
      have next := waits unread
      have none : underWay = [] := List.map_eq_nil_iff.mp all
      refine ⟨underWay, ?_, rfl, Nat.le_refl _, fun _ => Or.inl none⟩
      refine ⟨next.order, next.arrived, next.receiver, next.bytes, next.writeBuf, next.fits,
        next.failed, ?_⟩
      intro _
      exact ⟨closed.1, List.isEmpty_iff.mp closed.2, none⟩
  | reads unread fewer =>
      refine ⟨underWay, waits unread, rfl, Nat.le_refl _, fun _ => Or.inr ?_⟩
      exact Nat.add_lt_add_right fewer _
  | idles waiting unread all =>
      have none : s.carried = [] → underWay = [] := fun empty => List.map_eq_nil_iff.mp (all empty)
      rcases waiting with rfl | rfl
      · exact ⟨underWay, waits unread, rfl, Nat.le_refl _, fun empty => Or.inl (none empty)⟩
      · exact ⟨underWay, waits unread, rfl, Nat.le_refl _, fun empty => Or.inl (none empty)⟩

theorem Inv.steps (inv : s.Inv json underWay buffered) (event : Event P) : s.Steps json event := by
  cases event with
  | startSend message answers => exact inv.startSend message answers
  | pollComplete answers => exact inv.pollComplete answers
  | close => exact inv.close
  | carry count => exact inv.carry count
  | poll room =>
      obtain ⟨rest, next, seen, -⟩ := inv.polled room
      exact ⟨rest, buffered, next, seen⟩

theorem run_inv (json : Json P) (events : List (Event P)) :
    ∃ underWay buffered, (Transition.run (step json) new events).Inv json underWay buffered := by
  apply Transition.run_invariant (fun s => ∃ underWay buffered, Inv json s underWay buffered)
  · rintro s event ⟨underWay, buffered, inv⟩
    obtain ⟨carried, left, next, -⟩ := inv.steps event
    exact ⟨carried, left, next⟩
  · exact ⟨[], [], new_inv⟩

theorem poll_frame (json : Json P) (s : ProtocolLink P) (room : Nat) :
    (s.poll json room).accepted = s.accepted ∧ (s.poll json room).sender = s.sender ∧
      (s.poll json room).carried = s.carried := by
  unfold ProtocolLink.poll
  split
  · exact ⟨rfl, rfl, rfl⟩
  · exact ⟨rfl, rfl, rfl⟩
  · exact ⟨rfl, rfl, rfl⟩
  · exact ⟨rfl, rfl, rfl⟩
  · split
    · exact ⟨rfl, rfl, rfl⟩
    · exact ⟨rfl, rfl, rfl⟩

/-- Polls alone receive all that has arrived. -/
theorem Inv.polls (inv : s.Inv json underWay buffered) (arrived : s.carried = []) (rooms : List Nat)
    (enough : underWay = [] ∨
      s.receiver.io.pending.length + underWay.length ≤ rooms.length) :
    let last := Transition.run (step json) s (rooms.map .poll)
    last.Inv json [] buffered ∧ last.accepted = s.accepted ∧ last.sender = s.sender := by
  induction rooms generalizing s underWay with
  | nil =>
      have none : underWay = [] := by
        rcases enough with none | few
        · exact none
        · apply List.eq_nil_of_length_eq_zero
          simp only [List.length_nil] at few
          omega
      exact ⟨none ▸ inv, rfl, rfl⟩
  | cons room later ih =>
      obtain ⟨rest, next, -, fewer, closer⟩ := inv.polled room
      obtain ⟨accepted, sender, carried⟩ := s.poll_frame json room
      have still : rest = [] ∨ (s.poll json room).receiver.io.pending.length + rest.length ≤
          later.length := by
        rcases enough with none | few
        · left
          apply List.eq_nil_of_length_eq_zero
          rw [none, List.length_nil] at fewer
          omega
        · rcases closer arrived with none | less
          · exact Or.inl none
          · right
            rw [List.length_cons] at few
            omega
      obtain ⟨last, sameAccepted, sameSender⟩ := ih next (carried.trans arrived) still
      exact ⟨last, sameAccepted.trans accepted, sameSender.trans sender⟩

end ProtocolLink

end HolePunch
