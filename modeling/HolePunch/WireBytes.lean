import HolePunch.Wire

set_option autoImplicit false

/- The bytes of one stream: what is written at one end is under way, at the other end or read
there, in its order, and the hello is all that the far end takes away. -/
namespace HolePunch

open LengthDelimited (Bytes frame)

namespace ByteStream

@[simp] theorem asking_pending (s : ByteStream) (ended : Bool) :
    (s.asking ended).pending = s.pending := by
  unfold asking
  split
  · rfl
  · simp only [pending, List.map_append, List.map_cons, List.map_nil, Option.getD_none,
      List.flatten_append, List.flatten_cons, List.flatten_nil, List.append_nil]

@[simp] theorem asking_sent (s : ByteStream) (ended : Bool) : (s.asking ended).sent = s.sent := by
  unfold asking
  split <;> rfl

@[simp] theorem asked_pending (s : ByteStream) : s.asked.pending = s.pending := by
  have chunks : ∀ inner : List (Option Bytes),
      ((inner.filter Option.isSome).map (fun answer => answer.getD [])).flatten =
        (inner.map (fun answer => answer.getD [])).flatten := by
    intro inner
    induction inner with
    | nil => rfl
    | cons answer rest ih =>
        cases answer with
        | none => simpa using ih
        | some data => simpa using ih
  exact congrArg (s.readOverflow.getD [] ++ ·) (chunks s.inner)

@[simp] theorem asked_sent (s : ByteStream) : s.asked.sent = s.sent := rfl

@[simp] theorem arrive_pending (s : ByteStream) (chunk : Bytes) :
    (s.arrive chunk).pending = s.pending ++ chunk := by
  simp [pending, arrive]

@[simp] theorem arrive_sent (s : ByteStream) (chunk : Bytes) : (s.arrive chunk).sent = s.sent := rfl

/-- The bytes of a call, and those that are left after it. -/
theorem asking_call (s : ByteStream) (ended : Bool) (made : Call) :
    ((s.asking ended).call made).1 ++ ((s.asking ended).call made).2.asked.pending = s.pending := by
  rw [asked_pending, call_bytes, asking_pending]

/-- A stream that reports its end has nothing left. -/
theorem asking_poll_end {s : ByteStream} {ended : Bool}
    (polled : (s.asking ended).poll.1 = .ready none) : ended = true ∧ s.pending = [] := by
  unfold asking at polled
  cases ended with
  | false =>
      simp only [Bool.false_eq_true, ↓reduceIte, poll, pollInner] at polled
      split at polled
      · cases polled
      · split at polled
        · rename_i empty
          simp at empty
        · cases polled
        · cases polled
  | true =>
      refine ⟨rfl, ?_⟩
      simp only [↓reduceIte, poll, pollInner] at polled
      split at polled
      · cases polled
      · rename_i drained
        split at polled
        · rename_i empty
          exact Ended.pending ⟨drained, empty⟩
        · cases polled
        · cases polled

end ByteStream

namespace Framed

@[simp] theorem asked_sent (s : Framed) (ended : Bool) (room : Nat) :
    (s.asked ended room).2.io.sent = s.io.sent := by
  simp only [asked, ByteStream.asked_sent, turn_sent, ByteStream.asking_sent]

/-- The hello that comes first is all that is taken from the unread bytes. -/
theorem asked_unread {s : Framed} (bounded : s.codec.Bounded) (ended : Bool) (room : Nat) :
    let next := s.asked ended room
    (∀ payload, next.1 = .ready (some payload) →
      payload.length < 2 ^ 32 ∧ s.unread = frame payload ++ next.2.into.pending) ∧
    ((∀ payload, next.1 ≠ .ready (some payload)) →
      next.2.codec.Bounded ∧ s.unread = next.2.unread) := by
  intro next
  have before : { s with io := s.io.asking ended }.unread = s.unread := by
    simp only [unread, ByteStream.asking_pending]
  have after : next.2.unread = ({ s with io := s.io.asking ended }.turn room).2.unread := by
    simp only [next, asked, unread, ByteStream.asked_pending]
  obtain ⟨given, kept⟩ := turn_unread { s with io := s.io.asking ended } room bounded
  rw [before, ← after] at given kept
  refine ⟨?_, kept⟩
  intro payload gives
  obtain ⟨head, short, bytes⟩ := given payload gives
  rw [next.2.into_pending_iff.mpr head]
  exact ⟨short, bytes⟩

end Framed

@[simp] theorem FarEnd.arrive_sent (far : FarEnd) (chunk : Bytes) :
    (far.arrive chunk).sent = far.sent := by
  cases far <;> rfl

/-- The hello is all that a fresh stream has sent. -/
theorem openWithHello_ok {hello : Bytes} {io stream : ByteStream} {flush : Poll Unit}
    (opened : openWithHello hello io ⟨.accepted, flush⟩ = .ok stream) :
    hello.length ≤ Framed.maxFrameLength ∧ stream.sent = io.sent ++ frame hello ∧
      stream.pending = io.pending := by
  have started : (Framed.new io).startSend hello ⟨.accepted, flush⟩ =
      (Framed.new io).encode hello := rfl
  by_cases short : hello.length ≤ Framed.maxFrameLength
  · have encoded : (Framed.new io).encode hello =
        (.accepted, { Framed.new io with writeBuf := frame hello }) := by
      simp only [Framed.encode, LengthDelimited.encode, if_pos short]
      rfl
    have written : ({ Framed.new io with writeBuf := frame hello }.pollComplete
        ⟨.accepted, flush⟩) = (ByteStream.flush flush,
          { Framed.new io with io := { io with sent := io.sent ++ frame hello } }) := by
      simp [Framed.pollComplete, Framed.new, frame, LengthDelimited.head, ByteStream.write]
    simp only [openWithHello, started, encoded, written] at opened
    split at opened
    · cases opened
    · rename_i completed
      cases completed
      cases opened
      exact ⟨short, rfl, rfl⟩
  · have refused : (Framed.new io).encode hello = (.error .io, Framed.new io) := by
      simp only [Framed.encode, LengthDelimited.encode, if_neg short]
    simp only [openWithHello, started, refused] at opened
    cases opened

namespace Wire

/-- What was sent to the far end is on the way, at the far end, or read there. As long as the hello
has not come, it is in front of the rest. -/
def Forth (s : Wire) : Prop :=
  match s.far with
  | .incoming framed =>
      framed.codec.Bounded ∧ framed.unread ++ s.there = frame s.hello ++ s.nearWritten ∧
        s.farRead = []
  | .passed stream => s.farRead ++ (stream.pending ++ s.there) = s.nearWritten

structure Inv (s : Wire) : Prop where
  short : s.hello.length ≤ Framed.maxFrameLength
  sent : s.near.sent = frame s.hello ++ s.nearWritten
  forth : s.Forth
  back : s.nearRead ++ (s.near.pending ++ s.back) = s.far.sent

theorem new_inv {hello : Bytes} {flush : Poll Unit} {s : Wire} (opened : new hello flush = .ok s) :
    s.Inv ∧ s.hello = hello ∧ s.nearWritten = [] ∧ s.nearRead = [] ∧ s.farRead = [] ∧
      s.far.sent = [] := by
  unfold new at opened
  split at opened
  · cases opened
  · rename_i near sends
    obtain ⟨short, sent, pending⟩ := openWithHello_ok sends
    cases opened
    refine ⟨⟨short, ?_, ⟨trivial, ?_, rfl⟩, ?_⟩, rfl, rfl, rfl, rfl, rfl⟩
    · rw [sent, List.append_nil]
      rfl
    · change near.sent = _
      rw [sent, List.append_nil]
      rfl
    · change near.pending ++ [] = []
      rw [pending]
      rfl

theorem carryThere_inv {s : Wire} (inv : s.Inv) (count : Nat) : (s.carryThere count).Inv := by
  have forth := inv.forth
  refine ⟨inv.short, inv.sent, ?_, ?_⟩
  · unfold Forth at forth ⊢
    simp only [carryThere]
    cases held : s.far with
    | incoming framed =>
        rw [held] at forth
        obtain ⟨bounded, bytes, unread⟩ := forth
        refine ⟨bounded, ?_, unread⟩
        rw [← bytes, ← List.take_append_drop count s.there]
        simp [Framed.unread, List.append_assoc]
    | passed stream =>
        rw [held] at forth
        change s.farRead ++ ((stream.arrive _).pending ++ _) = _
        rw [ByteStream.arrive_pending, List.append_assoc, List.take_append_drop]
        exact forth
  · simpa only [carryThere, FarEnd.arrive_sent] using inv.back

theorem carryBack_inv {s : Wire} (inv : s.Inv) (count : Nat) : (s.carryBack count).Inv := by
  refine ⟨inv.short, inv.sent, inv.forth, ?_⟩
  simp only [carryBack, ByteStream.arrive_pending, List.append_assoc, List.take_append_drop]
  exact inv.back

theorem carry_inv {s : Wire} (inv : s.Inv) (count : Nat) (way : Way) : (s.carry count way).Inv := by
  cases way with
  | there => exact carryThere_inv inv count
  | back => exact carryBack_inv inv count

theorem closeNear_inv {s : Wire} (inv : s.Inv) : s.closeNear.Inv :=
  ⟨inv.short, inv.sent, inv.forth, inv.back⟩

theorem closeFar_inv {s : Wire} (inv : s.Inv) : s.closeFar.Inv :=
  ⟨inv.short, inv.sent, inv.forth, inv.back⟩

/-- The sink takes all of an item, or the wire stays as it is. -/
theorem sendNear_cases (s : Wire) (item : Bytes) (answer : SendPoll) :
    ((s.sendNear item answer).1 = .ready () ∧ s.nearClosed = false ∧
      (s.sendNear item answer).2 = { s with
        near := { s.near with sent := s.near.sent ++ item }, there := s.there ++ item,
        nearWritten := s.nearWritten ++ item }) ∨
    ((s.sendNear item answer).1 ≠ .ready () ∧ (s.sendNear item answer).2 = s) := by
  unfold sendNear ByteStream.startSend
  split
  · exact Or.inr ⟨by simp, rfl⟩
  · rename_i opened
    cases answer with
    | accepted => exact Or.inl ⟨rfl, by simpa using opened, rfl⟩
    | refused => exact Or.inr ⟨by simp, rfl⟩
    | error reason => exact Or.inr ⟨by simp, rfl⟩

theorem sendFar_cases (s : Wire) (item : Bytes) (answer : SendPoll) :
    (∃ stream, s.far = .passed stream ∧ (s.sendFar item answer).1 = .ready () ∧
      (s.sendFar item answer).2 = { s with
        far := .passed { stream with sent := stream.sent ++ item }, back := s.back ++ item }) ∨
    ((s.sendFar item answer).1 ≠ .ready () ∧ (s.sendFar item answer).2 = s) := by
  unfold sendFar ByteStream.startSend
  split
  · exact Or.inr ⟨by simp, rfl⟩
  · rename_i stream held
    split
    · exact Or.inr ⟨by simp, rfl⟩
    · cases answer with
      | accepted => exact Or.inl ⟨stream, held, rfl, rfl⟩
      | refused => exact Or.inr ⟨by simp, by simp only [← held]⟩
      | error reason => exact Or.inr ⟨by simp, by simp only [← held]⟩

theorem sendNear_inv {s : Wire} (inv : s.Inv) (item : Bytes) (answer : SendPoll) :
    (s.sendNear item answer).2.Inv := by
  obtain ⟨-, -, sends⟩ | ⟨-, sends⟩ := s.sendNear_cases item answer
  · rw [sends]
    refine ⟨inv.short, ?_, ?_, inv.back⟩
    · change s.near.sent ++ item = _
      rw [inv.sent, List.append_assoc]
    · have forth := inv.forth
      unfold Forth at forth ⊢
      cases held : s.far with
      | incoming framed =>
          rw [held] at forth
          obtain ⟨bounded, bytes, unread⟩ := forth
          refine ⟨bounded, ?_, unread⟩
          rw [← List.append_assoc, bytes, List.append_assoc]
      | passed stream =>
          rw [held] at forth
          rw [← forth]
          simp only [List.append_assoc]
  · rw [sends]
    exact inv

theorem sendFar_inv {s : Wire} (inv : s.Inv) (item : Bytes) (answer : SendPoll) :
    (s.sendFar item answer).2.Inv := by
  obtain ⟨stream, held, -, sends⟩ | ⟨-, sends⟩ := s.sendFar_cases item answer
  · have forth := inv.forth
    have back := inv.back
    rw [held] at back
    rw [Forth, held] at forth
    rw [sends]
    refine ⟨inv.short, inv.sent, forth, ?_⟩
    change s.nearRead ++ (s.near.pending ++ (s.back ++ item)) = stream.sent ++ item
    rw [← show _ = stream.sent from back]
    simp only [List.append_assoc]
  · rw [sends]
    exact inv

theorem callNear_inv {s : Wire} (inv : s.Inv) (made : ByteStream.Call) : (s.callNear made).Inv := by
  refine ⟨inv.short, ?_, inv.forth, ?_⟩
  · simpa [callNear] using inv.sent
  · have taken := s.near.asking_call s.farEnded made
    simp only [callNear]
    rw [← inv.back, ← taken]
    simp only [List.append_assoc]

theorem callFar_inv {s : Wire} (inv : s.Inv) (made : ByteStream.Call) : (s.callFar made).Inv := by
  have forth := inv.forth
  have back := inv.back
  unfold callFar
  cases held : s.far with
  | incoming framed => exact inv
  | passed stream =>
      rw [held] at back
      rw [Forth, held] at forth
      refine ⟨inv.short, inv.sent, ?_, ?_⟩
      · have taken := stream.asking_call s.nearEnded made
        change (s.farRead ++ _) ++ (_ ++ s.there) = s.nearWritten
        rw [← show _ = s.nearWritten from forth, ← taken]
        simp only [List.append_assoc]
      · simpa [FarEnd.sent] using back

theorem actNear_inv {s : Wire} (inv : s.Inv) (act : Act) : (s.actNear act).Inv := by
  cases act with
  | send buf answer => exact sendNear_inv inv buf answer
  | call made => exact callNear_inv inv made
  | close => exact closeNear_inv inv

theorem actFar_inv {s : Wire} (inv : s.Inv) (act : Act) : (s.actFar act).Inv := by
  cases act with
  | send buf answer => exact sendFar_inv inv buf answer
  | call made => exact callFar_inv inv made
  | close => exact closeFar_inv inv

theorem message_some {json : Json StreamHello} {turn : Framed.Turn} {hello : StreamHello}
    (given : message json turn = .ready (some hello)) :
    ∃ payload, turn = .ready (some payload) := by
  unfold message at given
  split at given
  · cases given
  · cases given
  · cases given
  · cases given
  · exact ⟨_, rfl⟩

theorem message_notReady {json : Json StreamHello} {turn : Framed.Turn}
    (waits : message json turn = .notReady) (payload : Bytes) : turn ≠ .ready (some payload) := by
  rintro rfl
  simp only [message] at waits
  split at waits <;> cases waits

/-- All that a turn of an incoming stream can do to the wire. -/
theorem pollIncoming_cases (s : Wire) (json : Json StreamHello) (incoming : IncomingStream)
    (timeout : TimeoutPoll) (room : Nat) :
    let next := (s.pollIncoming json incoming timeout room).2
    next = s ∨ next = s.closeFar ∨ ∃ framed, s.far = .incoming framed ∧
      (((∀ payload, (framed.asked s.nearEnded room).1 ≠ .ready (some payload)) ∧
        next = { s with far := .incoming (framed.asked s.nearEnded room).2 }) ∨
      ((∃ payload, (framed.asked s.nearEnded room).1 = .ready (some payload)) ∧
        next = { s with far := .passed (framed.asked s.nearEnded room).2.into })) := by
  intro next
  simp only [next, pollIncoming]
  split
  · exact Or.inl rfl
  · rename_i framed held
    split
    · rename_i effect polled
      have waits := IncomingStream.poll_notReady polled
      exact Or.inr (Or.inr ⟨framed, held, Or.inl ⟨message_notReady waits, rfl⟩⟩)
    · exact Or.inr (Or.inl rfl)
    · rename_i effect serves polled
      obtain ⟨hello, given⟩ := IncomingStream.poll_served polled serves
      exact Or.inr (Or.inr ⟨framed, held, Or.inr ⟨message_some given, rfl⟩⟩)
    · exact Or.inr (Or.inl rfl)

/-- What the far end takes out of the transport is everything behind the hello. -/
theorem pollIncoming_inv (json : Json StreamHello) (incoming : IncomingStream) {s : Wire}
    (inv : s.Inv) (timeout : TimeoutPoll) (room : Nat) :
    (s.pollIncoming json incoming timeout room).2.Inv := by
  have forth := inv.forth
  have back := inv.back
  obtain stays | closes | ⟨framed, held, turned⟩ :=
    s.pollIncoming_cases json incoming timeout room
  · rw [stays]
    exact inv
  · rw [closes]
    exact closeFar_inv inv
  · rw [held] at back
    rw [Forth, held] at forth
    obtain ⟨bounded, bytes, unread⟩ := forth
    obtain ⟨given, kept⟩ := Framed.asked_unread bounded s.nearEnded room
    obtain ⟨never, waits⟩ | ⟨⟨payload, gives⟩, passes⟩ := turned
    · obtain ⟨stays, same⟩ := kept never
      rw [waits]
      refine ⟨inv.short, inv.sent, ⟨stays, ?_, unread⟩, ?_⟩
      · rw [← same]
        exact bytes
      · simpa [FarEnd.sent] using back
    · obtain ⟨short, same⟩ := given payload gives
      rw [same, List.append_assoc] at bytes
      have whole := inv.short
      simp only [Framed.maxFrameLength] at whole
      obtain ⟨-, rest⟩ := LengthDelimited.frame_cancel short (by omega) bytes
      rw [passes]
      refine ⟨inv.short, inv.sent, ?_, ?_⟩
      · change s.farRead ++ _ = s.nearWritten
        rw [unread]
        exact rest
      · simpa [FarEnd.sent, Framed.into] using back

/-- What the holder of the far end has read and written stays, and so does what a closed near end
has written. -/
structure FarKept (s next : Wire) : Prop where
  read : next.farRead = s.farRead
  sent : next.far.sent = s.far.sent
  closed : s.nearClosed = true → next.nearClosed = true ∧ next.nearWritten = s.nearWritten

/-- What the holder of the near end has read and written stays. -/
structure NearKept (s next : Wire) : Prop where
  read : next.nearRead = s.nearRead
  written : next.nearWritten = s.nearWritten

theorem actNear_farKept (s : Wire) (act : Act) : s.FarKept (s.actNear act) := by
  cases act with
  | send buf answer =>
      obtain ⟨-, opened, sends⟩ | ⟨-, sends⟩ := s.sendNear_cases buf answer
      · simp only [actNear, sends]
        exact ⟨rfl, rfl, fun closed => by rw [opened] at closed; cases closed⟩
      · simp only [actNear, sends]
        exact ⟨rfl, rfl, fun closed => ⟨closed, rfl⟩⟩
  | call made => exact ⟨rfl, rfl, fun closed => ⟨closed, rfl⟩⟩
  | close => exact ⟨rfl, rfl, fun _ => ⟨rfl, rfl⟩⟩

theorem actFar_nearKept (s : Wire) (act : Act) : s.NearKept (s.actFar act) := by
  cases act with
  | send buf answer =>
      obtain ⟨stream, -, -, sends⟩ | ⟨-, sends⟩ := s.sendFar_cases buf answer <;>
        simp only [actFar, sends] <;> exact ⟨rfl, rfl⟩
  | call made =>
      simp only [actFar, callFar]
      split <;> exact ⟨rfl, rfl⟩
  | close => exact ⟨rfl, rfl⟩

theorem carry_farKept (s : Wire) (count : Nat) (way : Way) : s.FarKept (s.carry count way) := by
  cases way with
  | there => exact ⟨rfl, s.far.arrive_sent _, fun closed => ⟨closed, rfl⟩⟩
  | back => exact ⟨rfl, rfl, fun closed => ⟨closed, rfl⟩⟩

theorem carry_nearKept (s : Wire) (count : Nat) (way : Way) : s.NearKept (s.carry count way) := by
  cases way with
  | there => exact ⟨rfl, rfl⟩
  | back => exact ⟨rfl, rfl⟩

theorem pollIncoming_kept (s : Wire) (json : Json StreamHello) (incoming : IncomingStream)
    (timeout : TimeoutPoll) (room : Nat) :
    s.FarKept (s.pollIncoming json incoming timeout room).2 ∧
      s.NearKept (s.pollIncoming json incoming timeout room).2 := by
  obtain stays | closes | ⟨framed, held, ⟨-, waits⟩ | ⟨-, passes⟩⟩ :=
    s.pollIncoming_cases json incoming timeout room
  · rw [stays]
    exact ⟨⟨rfl, rfl, fun closed => ⟨closed, rfl⟩⟩, rfl, rfl⟩
  · rw [closes]
    exact ⟨⟨rfl, rfl, fun closed => ⟨closed, rfl⟩⟩, rfl, rfl⟩
  · rw [waits]
    refine ⟨⟨rfl, ?_, fun closed => ⟨closed, rfl⟩⟩, rfl, rfl⟩
    rw [held]
    exact framed.asked_sent s.nearEnded room
  · rw [passes]
    refine ⟨⟨rfl, ?_, fun closed => ⟨closed, rfl⟩⟩, rfl, rfl⟩
    rw [held]
    simp [FarEnd.sent, Framed.into]

theorem Inv.nearReadable_isPrefix {s : Wire} (inv : s.Inv) : s.nearReadable <+: s.far.sent :=
  ⟨s.back, by rw [nearReadable, List.append_assoc, inv.back]⟩

theorem Inv.farReadable_isPrefix {s : Wire} (inv : s.Inv) : s.farReadable <+: s.nearWritten := by
  have forth := inv.forth
  unfold Forth at forth
  unfold farReadable
  cases held : s.far with
  | incoming framed => exact List.nil_prefix
  | passed stream =>
      rw [held] at forth
      exact ⟨s.there, by rw [List.append_assoc]; exact forth⟩

theorem Inv.farRead_isPrefix {s : Wire} (inv : s.Inv) : s.farRead <+: s.nearWritten := by
  have forth := inv.forth
  unfold Forth at forth
  cases held : s.far with
  | incoming framed =>
      rw [held] at forth
      rw [forth.2.2]
      exact List.nil_prefix
  | passed stream =>
      rw [held] at forth
      exact ⟨_, forth⟩

theorem Inv.nearRead_isPrefix {s : Wire} (inv : s.Inv) : s.nearRead <+: s.far.sent :=
  ⟨_, inv.back⟩

theorem pollNear_read (s : Wire) :
    s.pollNear.2.nearRead = s.nearRead ++ ByteStream.delivered s.pollNear.1 := rfl

theorem pollFar_read (s : Wire) :
    s.pollFar.2.farRead = s.farRead ++ ByteStream.delivered s.pollFar.1 := by
  unfold pollFar
  split
  · exact (List.append_nil s.farRead).symm
  · rename_i stream held
    simp only [callFar, held]
    rfl

theorem pollFar_inv {s : Wire} (inv : s.Inv) : s.pollFar.2.Inv := by
  unfold pollFar
  split
  · exact inv
  · exact callFar_inv inv .poll

/-- Taking what has come writes nothing. -/
theorem pollFar_kept (s : Wire) :
    s.pollFar.2.far.sent = s.far.sent ∧ s.pollFar.2.nearWritten = s.nearWritten ∧
      s.pollFar.2.nearClosed = s.nearClosed := by
  unfold pollFar
  split
  · exact ⟨rfl, rfl, rfl⟩
  · rename_i stream held
    refine ⟨?_, ?_, ?_⟩ <;> simp [callFar, held, FarEnd.sent]

/-- A far end that reports the end has read everything. -/
theorem pollFar_end {s : Wire} (inv : s.Inv) (polled : s.pollFar.1 = .ready none) :
    s.nearClosed = true ∧ s.farRead = s.nearWritten := by
  have forth := inv.forth
  unfold Forth at forth
  unfold pollFar at polled
  cases held : s.far with
  | incoming framed =>
      rw [held] at polled
      cases polled
  | passed stream =>
      rw [held] at polled forth
      obtain ⟨ended, drained⟩ := ByteStream.asking_poll_end polled
      simp only [nearEnded, Bool.and_eq_true, List.isEmpty_iff] at ended
      refine ⟨ended.1, ?_⟩
      rw [← show _ = s.nearWritten from forth, drained, ended.2, List.append_nil,
        List.append_nil]

end Wire

end HolePunch
