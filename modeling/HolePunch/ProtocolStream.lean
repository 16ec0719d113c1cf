import HolePunch.ByteStream

set_option autoImplicit false

/- Protocol streams: JSON messages in length-delimited frames over a stream, and the conversion
back to the stream when the protocol is switched (`stream.rs`). The framed transport and its codec
are those of `tokio`. -/
namespace HolePunch

open LengthDelimited (Bytes State frame frames)

/-- The serialisation of a protocol's messages. -/
structure Json (P : Type) where
  encode : P → Bytes
  decode : Bytes → Option P
  decode_encode : ∀ message, decode (encode message) = some message

structure Framed where
  io : ByteStream
  codec : State
  readBuf : Bytes
  writeBuf : Bytes
  eof : Bool
  isReadable : Bool
  deriving DecidableEq, Repr

namespace Framed

/-- The longest payload of the codec's default configuration. -/
def maxFrameLength : Nat := 8 * 1024 * 1024

/-- The transport holds back messages when its buffer has grown over this size. -/
def backpressureBoundary : Nat := 8 * 1024

def new (io : ByteStream) : Framed := ⟨io, .head, [], [], false, false⟩

/-- The conversion to the stream: `reinsert_data` with what was read beyond the last frame. The
codec and the write buffer are dropped. -/
def into (s : Framed) : ByteStream := s.io.reinsertData s.readBuf

/-- How one turn of the loop of `poll` ends. -/
inductive Turn where
  | again
  | notReady
  | ready (payload : Option Bytes)
  | error
  deriving DecidableEq, Repr

/-- Reads into the buffer, which has `room` bytes to spare besides the one that is reserved. -/
def fill (s : Framed) (room : Nat) : Turn × Framed :=
  match s.io.read (room + 1) with
  | (.notReady, io) => (.notReady, { s with io := io })
  | (.error _, io) => (.error, { s with io := io })
  | (.ready data, io) => (.again, { s with
      io := io, readBuf := s.readBuf ++ data, eof := data.isEmpty, isReadable := true })

def turn (s : Framed) (room : Nat) : Turn × Framed :=
  if s.isReadable then
    let next := LengthDelimited.decode maxFrameLength s.codec s.readBuf
    let s := { s with codec := next.state, readBuf := next.buffer }
    match next.result with
    | .error _ => (.error, s)
    | .ok (some payload) => (.ready (some payload), s)
    | .ok none =>
        if s.eof then
          if s.readBuf.isEmpty then (.ready none, s) else (.error, s)
        else { s with isReadable := false }.fill room
  else s.fill room

/-- What the inner sink answers to a write and to a flush. -/
structure SinkAnswers where
  write : SendPoll
  flush : Poll Unit

/-- A write takes the whole buffer, so that the loop of the source ends with the first one. -/
def pollComplete (s : Framed) (answers : SinkAnswers) : Poll Unit × Framed :=
  if s.writeBuf.isEmpty then (ByteStream.flush answers.flush, s)
  else
    match s.io.write s.writeBuf answers.write with
    | (.notReady, io) => (.notReady, { s with io := io })
    | (.error reason, io) => (.error reason, { s with io := io })
    | (.ready count, io) =>
        (ByteStream.flush answers.flush,
          { s with io := io, writeBuf := s.writeBuf.drop count })

/-- What is buffered is completed before the stream is shut down, which the inner sink answers with
`closed`. -/
def close (s : Framed) (answers : SinkAnswers) (closed : Poll Unit) : Poll Unit × Framed :=
  match s.pollComplete answers with
  | (.ready (), s) => (ByteStream.shutdown closed, s)
  | (.notReady, s) => (.notReady, s)
  | (.error reason, s) => (.error reason, s)

/-- The codec refuses payloads that are too long. -/
def encode (s : Framed) (payload : Bytes) : SendPoll × Framed :=
  match LengthDelimited.encode maxFrameLength payload with
  | none => (.error .io, s)
  | some bytes => (.accepted, { s with writeBuf := s.writeBuf ++ bytes })

def startSend (s : Framed) (payload : Bytes) (answers : SinkAnswers) : SendPoll × Framed :=
  if backpressureBoundary ≤ s.writeBuf.length then
    match s.pollComplete answers with
    | (.error reason, s) => (.error reason, s)
    | (_, s) =>
        if backpressureBoundary ≤ s.writeBuf.length then (.refused, s) else s.encode payload
  else s.encode payload

end Framed

/-- A protocol stream that is being polled, with the payloads it has given out. -/
structure Receiving where
  framed : Framed
  yielded : List Bytes
  deriving DecidableEq, Repr

namespace Receiving

def new (io : ByteStream) : Receiving := ⟨Framed.new io, []⟩

def step (s : Receiving) (room : Nat) : Receiving :=
  match s.framed.turn room with
  | (.ready (some payload), framed) => ⟨framed, s.yielded ++ [payload]⟩
  | (_, framed) => { s with framed := framed }

end Receiving

namespace Framed

/-- The bytes not given out yet: those the codec has taken, those in the buffer, and those still in
the stream. -/
def unread (s : Framed) : Bytes := s.codec.taken ++ (s.readBuf ++ s.io.pending)

/-- Reading moves bytes from the stream to the buffer. -/
theorem fill_unread (s : Framed) (room : Nat) :
    (s.fill room).2.codec = s.codec ∧ (s.fill room).2.unread = s.unread ∧
      ∀ payload, (s.fill room).1 ≠ .ready payload := by
  have moved := s.io.read_bytes (room + 1)
  unfold fill
  split
  · rename_i io read
    rw [read] at moved
    refine ⟨rfl, ?_, by simp⟩
    simp only [unread, ← moved, ByteStream.copied, List.nil_append]
  · rename_i reason io read
    rw [read] at moved
    refine ⟨rfl, ?_, by simp⟩
    simp only [unread, ← moved, ByteStream.copied, List.nil_append]
  · rename_i data io read
    rw [read] at moved
    refine ⟨rfl, ?_, by simp⟩
    simp only [unread, ← moved, ByteStream.copied, List.append_assoc]

/-- A turn loses no byte. After one that gives out a payload the codec is between two frames. -/
theorem turn_unread (s : Framed) (room : Nat) (bounded : s.codec.Bounded) :
    let next := s.turn room
    (∀ payload, next.1 = .ready (some payload) →
      next.2.codec = .head ∧ payload.length < 2 ^ 32 ∧
        s.unread = frame payload ++ next.2.unread) ∧
    ((∀ payload, next.1 ≠ .ready (some payload)) →
      next.2.codec.Bounded ∧ s.unread = next.2.unread) := by
  intro next
  by_cases readable : s.isReadable
  · obtain ⟨given, kept⟩ := LengthDelimited.decode_bytes maxFrameLength bounded s.readBuf
    simp only [next, turn, readable, ↓reduceIte]
    split
    · rename_i failed
      obtain ⟨stays, bytes⟩ := kept (by simp [failed])
      refine ⟨(fun payload same => by cases same), fun _ => ⟨stays, ?_⟩⟩
      simp only [unread, ← List.append_assoc, bytes]
    · rename_i payload complete
      obtain ⟨head, short, bytes⟩ := given payload complete
      refine ⟨?_, fun never => absurd rfl (never payload)⟩
      intro other same
      cases same
      refine ⟨head, short, ?_⟩
      simp only [unread, head, LengthDelimited.taken_head, ← List.append_assoc, bytes,
        List.append_nil]
    · rename_i waits
      obtain ⟨stays, bytes⟩ := kept (by simp [waits])
      split
      · split
        · refine ⟨(fun payload same => by cases same), fun _ => ⟨stays, ?_⟩⟩
          simp only [unread, ← List.append_assoc, bytes]
        · refine ⟨(fun payload same => by cases same), fun _ => ⟨stays, ?_⟩⟩
          simp only [unread, ← List.append_assoc, bytes]
      · generalize emptied : Framed.mk s.io _ _ s.writeBuf s.eof false = waiting
        obtain ⟨codec, moved, never⟩ := waiting.fill_unread room
        refine ⟨fun payload same => absurd same (never _), fun _ => ?_⟩
        rw [codec, moved, ← emptied]
        refine ⟨stays, ?_⟩
        simp only [unread, ← List.append_assoc, bytes]
  · obtain ⟨codec, moved, never⟩ := s.fill_unread room
    simp only [next, turn, readable, Bool.false_eq_true, ↓reduceIte]
    refine ⟨fun payload same => absurd same (never _), fun _ => ?_⟩
    rw [codec, moved]
    exact ⟨bounded, rfl⟩

@[simp] theorem fill_sent (s : Framed) (room : Nat) : (s.fill room).2.io.sent = s.io.sent := by
  have kept := s.io.read_sent (room + 1)
  unfold fill
  split <;> (rename_i read; rw [read] at kept; exact kept)

@[simp] theorem turn_sent (s : Framed) (room : Nat) : (s.turn room).2.io.sent = s.io.sent := by
  unfold turn
  split
  · dsimp only
    split
    · rfl
    · rfl
    · split
      · split <;> rfl
      · rw [fill_sent]
  · exact s.fill_sent room

/-- The conversion gives everything that is unread, unless the codec has begun a frame: the
length it has taken is lost. -/
theorem into_pending_iff (s : Framed) : s.into.pending = s.unread ↔ s.codec = .head := by
  rw [into, ByteStream.reinsertData_pending, unread]
  constructor
  · intro same
    have lengths := congrArg List.length same
    cases codec : s.codec with
    | head => rfl
    | data length =>
        rw [codec] at lengths
        simp only [State.taken, List.length_append, LengthDelimited.head_length] at lengths
        omega
  · intro head
    rw [head]
    rfl

end Framed

namespace Receiving

structure Inv (bytes : Bytes) (s : Receiving) : Prop where
  bounded : s.framed.codec.Bounded
  short : ∀ payload ∈ s.yielded, payload.length < 2 ^ 32
  bytes : frames s.yielded ++ s.framed.unread = bytes

theorem new_inv (io : ByteStream) : (new io).Inv io.pending :=
  ⟨trivial, (fun _ member => by cases member), rfl⟩

theorem step_inv {bytes : Bytes} {s : Receiving} (inv : s.Inv bytes) (room : Nat) :
    (s.step room).Inv bytes := by
  obtain ⟨given, kept⟩ := s.framed.turn_unread room inv.bounded
  unfold step
  split
  · rename_i payload framed turned
    rw [turned] at given
    obtain ⟨head, short, unread⟩ := given payload rfl
    refine ⟨?_, ?_, ?_⟩
    · change State.Bounded framed.codec
      rw [head]
      trivial
    · intro other member
      rcases List.mem_append.mp member with old | new
      · exact inv.short other old
      · rw [List.mem_singleton.mp new]
        exact short
    · rw [← inv.bytes, unread]
      simp only [LengthDelimited.frames_append, LengthDelimited.frames_cons,
        LengthDelimited.frames_nil, List.append_nil, List.append_assoc]
  · rename_i framed never turned
    rw [turned] at kept
    obtain ⟨bounded, unread⟩ := kept never
    exact ⟨bounded, inv.short, by rw [← inv.bytes, unread]⟩

theorem run_inv (io : ByteStream) (rooms : List Nat) :
    (Transition.run step (new io) rooms).Inv io.pending :=
  Transition.run_invariant (Inv io.pending) (fun _ room inv => step_inv inv room) (new_inv io) rooms

/-- As long as no more payloads have been given out than messages were sent, they are these
messages, and the rest of the stream is unread. -/
theorem run_unread {P : Type} (json : Json P) {messages : List P} {trailing : Bytes}
    (fits : ∀ message ∈ messages, (json.encode message).length ≤ Framed.maxFrameLength)
    {io : ByteStream} (sent : io.pending = frames (messages.map json.encode) ++ trailing)
    (rooms : List Nat) :
    let s := Transition.run step (new io) rooms
    let count := s.yielded.length
    count ≤ messages.length →
      s.yielded.map json.decode = (messages.take count).map some ∧
      s.framed.unread = frames ((messages.drop count).map json.encode) ++ trailing := by
  intro s count fewer
  have inv : s.Inv io.pending := run_inv io rooms
  have short : ∀ payload ∈ messages.map json.encode, payload.length < 2 ^ 32 := by
    intro payload member
    obtain ⟨message, sends, rfl⟩ := List.mem_map.mp member
    have bounded := fits message sends
    simp only [Framed.maxFrameLength] at bounded
    omega
  have bytes : frames (messages.map json.encode) ++ trailing =
      frames s.yielded ++ s.framed.unread := by
    rw [inv.bytes, sent]
  obtain ⟨given, left⟩ := LengthDelimited.frames_cancel short inv.short
    (by rw [List.length_map]; exact fewer) bytes
  constructor
  · rw [given, ← List.map_take, List.map_map]
    apply List.map_congr_left
    intro message _
    exact json.decode_encode message
  · rw [left, ← List.map_drop]

/-- Converted to the stream, a protocol stream delivers exactly what follows the messages it has
given out, if and only if the codec has not begun the next frame. -/
theorem into_delivers_iff {P : Type} (json : Json P) (messages : List P) (trailing : Bytes)
    (fits : ∀ message ∈ messages, (json.encode message).length ≤ Framed.maxFrameLength)
    {io : ByteStream} (sent : io.pending = frames (messages.map json.encode) ++ trailing)
    (rooms : List Nat) :
    let s := Transition.run step (new io) rooms
    let count := s.yielded.length
    count ≤ messages.length →
      s.yielded.map json.decode = (messages.take count).map some ∧
      (s.framed.into.Delivers (frames ((messages.drop count).map json.encode) ++ trailing) ↔
        s.framed.codec = .head) := by
  intro s count fewer
  obtain ⟨given, unread⟩ := run_unread json fits sent rooms fewer
  refine ⟨given, ?_⟩
  rw [ByteStream.delivers_iff, ← s.framed.into_pending_iff, ← unread]

/-- So it does when the last poll has given out a message, which is when the program converts. -/
theorem into_delivers_yielded {P : Type} (json : Json P) {messages : List P} {trailing : Bytes}
    (fits : ∀ message ∈ messages, (json.encode message).length ≤ Framed.maxFrameLength)
    {io : ByteStream} (sent : io.pending = frames (messages.map json.encode) ++ trailing)
    (rooms : List Nat) (room : Nat) {payload : Bytes}
    (yields : ((Transition.run step (new io) rooms).framed.turn room).1 = .ready (some payload)) :
    let s := Transition.run step (new io) (rooms ++ [room])
    let count := s.yielded.length
    count ≤ messages.length →
      s.framed.into.Delivers (frames ((messages.drop count).map json.encode) ++ trailing) := by
  intro s count fewer
  have inv := run_inv io rooms
  have head : s.framed.codec = .head := by
    have turned := ((Transition.run step (new io) rooms).framed.turn_unread room inv.bounded).1
      payload yields
    have stepped : s = (Transition.run step (new io) rooms).step room :=
      Transition.run_snoc step (new io) rooms room
    rw [stepped, step]
    split
    · rename_i same
      rw [same] at turned
      exact turned.1
    · rename_i never same
      rw [same] at yields
      exact absurd yields (never payload)
  rw [ByteStream.delivers_iff, s.framed.into_pending_iff.mpr head]
  exact (run_unread json fits sent (rooms ++ [room]) fewer).2

/-- The only message of a keep-alive protocol, as JSON text. -/
def ping : Json Unit where
  encode _ := [34, 80, 105, 110, 103, 34]
  decode bytes := if bytes = [34, 80, 105, 110, 103, 34] then some () else none
  decode_encode _ := rfl

/-- The message comes in two chunks with a pause between them. -/
def cutPing : ByteStream :=
  ByteStream.new [some [0, 0, 0, 6, 34], none, some [80, 105, 110, 103, 34]]

/-- Once the message has been given out, nothing is left. -/
theorem into_delivers_iff_cutPing :
    let s := Transition.run step (new cutPing) [8191, 8191, 8191, 8191]
    s.yielded.map ping.decode = [some ()] ∧ s.framed.into.Delivers [] := by
  intro s
  have sent : cutPing.pending = frames ([()].map ping.encode) ++ [] := by decide
  obtain ⟨given, exactly⟩ := into_delivers_iff ping [()] [] (by decide) sent
    [8191, 8191, 8191, 8191] (by decide)
  exact ⟨given, exactly.mpr (by decide)⟩

/-- A poll has found the first chunk only. The length is in the codec, and the conversion loses
it. -/
theorem cutPing_loses_head :
    let s := Transition.run step (new cutPing) [8191]
    (s.framed.turn 8191).1 = .notReady ∧ (s.step 8191).yielded = [] ∧
      ¬ (s.step 8191).framed.into.Delivers (frames ([()].map ping.encode)) := by
  intro s
  refine ⟨by decide, by decide, ?_⟩
  rw [ByteStream.delivers_iff]
  decide

end Receiving

namespace Framed

/-- Bytes go from the write buffer to the sink, and none is lost between them. -/
theorem pollComplete_bytes (s : Framed) (answers : SinkAnswers) :
    (s.pollComplete answers).2.io.sent ++ (s.pollComplete answers).2.writeBuf =
      s.io.sent ++ s.writeBuf := by
  unfold pollComplete ByteStream.write
  split
  · rfl
  · cases answers.write with
    | accepted => simp only [List.drop_length, List.append_nil]
    | refused => rfl
    | error reason => rfl

theorem encode_bytes (s : Framed) (payload : Bytes) :
    (s.encode payload).2.io.sent ++ (s.encode payload).2.writeBuf =
      s.io.sent ++ s.writeBuf ++
        if (s.encode payload).1 = .accepted then frame payload else [] := by
  unfold encode LengthDelimited.encode
  split
  · simp only [reduceCtorEq, ↓reduceIte, List.append_nil]
  · rename_i bytes encoded
    split at encoded <;> cases encoded
    simp only [↓reduceIte, List.append_assoc]

/-- A message that is accepted is in the write buffer, behind all that was there before. -/
theorem startSend_bytes (s : Framed) (payload : Bytes) (answers : SinkAnswers) :
    (s.startSend payload answers).2.io.sent ++ (s.startSend payload answers).2.writeBuf =
      s.io.sent ++ s.writeBuf ++
        if (s.startSend payload answers).1 = .accepted then frame payload else [] := by
  have flushed := s.pollComplete_bytes answers
  unfold startSend
  split
  · split
    · rename_i reason next failed
      rw [failed] at flushed
      simpa only [reduceCtorEq, ↓reduceIte, List.append_nil] using flushed
    · rename_i next _ completed
      rw [completed] at flushed
      split
      · simpa only [reduceCtorEq, ↓reduceIte, List.append_nil] using flushed
      · rw [encode_bytes]
        exact congrArg (· ++ _) flushed
  · exact s.encode_bytes payload

end Framed

/-- A protocol stream that is being sent on, with the messages that `start_send` has accepted. -/
structure Sending (P : Type) where
  framed : Framed
  accepted : List P

namespace Sending

inductive Event (P : Type) where
  | startSend (message : P) (answers : Framed.SinkAnswers)
  | pollComplete (answers : Framed.SinkAnswers)

variable {P : Type} (json : Json P)

def new (io : ByteStream) : Sending P := ⟨Framed.new io, []⟩

def step (s : Sending P) : Event P → Sending P
  | .startSend message answers =>
      match s.framed.startSend (json.encode message) answers with
      | (.accepted, framed) => ⟨framed, s.accepted ++ [message]⟩
      | (_, framed) => { s with framed := framed }
  | .pollComplete answers => { s with framed := (s.framed.pollComplete answers).2 }

/-- What the sink has taken, followed by the write buffer, are the messages accepted so far. -/
def Inv (before : Bytes) (s : Sending P) : Prop :=
  s.framed.io.sent ++ s.framed.writeBuf = before ++ frames (s.accepted.map json.encode)

theorem step_inv {before : Bytes} {s : Sending P} (inv : s.Inv json before) (event : Event P) :
    (s.step json event).Inv json before := by
  cases event with
  | pollComplete answers => exact (s.framed.pollComplete_bytes answers).trans inv
  | startSend message answers =>
      have bytes := s.framed.startSend_bytes (json.encode message) answers
      simp only [step]
      split
      · rename_i framed accepted
        rw [accepted] at bytes
        simp only [↓reduceIte] at bytes
        simp only [Inv, List.map_append, List.map_cons, List.map_nil,
          LengthDelimited.frames_append, LengthDelimited.frames_cons, LengthDelimited.frames_nil,
          List.append_nil]
        rw [bytes, inv, List.append_assoc]
      · rename_i answer framed refused same
        rw [same] at bytes
        rw [if_neg refused, List.append_nil] at bytes
        exact bytes.trans inv

/-- Converted to the stream, a protocol stream transmits every message that was accepted before
anything written later, if and only if its write buffer is empty. -/
theorem into_transmits_iff (io : ByteStream) (events : List (Event P)) :
    let s := Transition.run (step json) (new io) events
    (∀ writes, (s.framed.into.writeAll writes).sent =
      io.sent ++ frames (s.accepted.map json.encode) ++ ByteStream.accepted writes) ↔
      s.framed.writeBuf = [] := by
  intro s
  have inv : s.Inv json io.sent :=
    Transition.run_invariant (Inv json io.sent) (fun _ event inv => step_inv json inv event)
      (by simp [Inv, new, Framed.new]) events
  have sent : s.framed.into.sent = s.framed.io.sent := ByteStream.reinsertData_sent _ _
  simp only [ByteStream.writeAll_sent, sent, List.append_cancel_right_eq, forall_const]
  rw [← show s.framed.io.sent ++ s.framed.writeBuf = _ from inv]
  exact List.self_eq_append_right

/-- A message is accepted, the sink refuses it, and the stream is converted all the same. -/
theorem refused_message_lost :
    let s := Transition.run (step Receiving.ping) (new (ByteStream.new []))
      [.startSend () ⟨.accepted, .ready ()⟩, .pollComplete ⟨.refused, .ready ()⟩]
    s.accepted = [()] ∧ (s.framed.into.writeAll [([1], .accepted)]).sent = [1] ∧
      ¬ ∀ writes, (s.framed.into.writeAll writes).sent =
        frames (s.accepted.map Receiving.ping.encode) ++ ByteStream.accepted writes := by
  intro s
  have written : (s.framed.into.writeAll [([1], .accepted)]).sent = [1] := by decide
  refine ⟨by decide, written, ?_⟩
  intro transmits
  have all := transmits [([1], .accepted)]
  rw [written] at all
  revert all
  decide

end Sending

end HolePunch
