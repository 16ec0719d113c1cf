import HolePunch.ProtocolStream
import HolePunch.SourceStream

set_option autoImplicit false

/- When a `strategies::Stream` and a protocol stream over it report the end: `Read` says it with a
count of zero, the inner stream with `None`. -/
namespace HolePunch

open LengthDelimited (Bytes)

namespace ByteStream

/-- Whether a call made now gets `None` from the inner stream. -/
def innerReturnsNone (s : ByteStream) : Bool :=
  s.readOverflow.isNone && decide (s.pollInner.1 = .ready none)

theorem innerReturnsNone_iff (s : ByteStream) : s.innerReturnsNone = true ↔ s.Ended := by
  obtain ⟨inner, overflow, sent⟩ := s
  unfold innerReturnsNone pollInner Ended
  cases overflow with
  | some data => simp
  | none => rcases inner with _ | ⟨_ | data, rest⟩ <;> simp

/-- Neither the overflow nor a chunk to come is empty. -/
structure Filled (s : ByteStream) : Prop where
  settled : s.readOverflow ≠ some []
  chunks : some [] ∉ s.inner

theorem pollInner_inner (s : ByteStream) : s.pollInner.2.inner <:+ s.inner := by
  unfold pollInner
  split
  · exact List.suffix_refl _
  · rename_i rest script
    rw [script]
    exact List.suffix_cons _ rest
  · rename_i data rest script
    rw [script]
    exact List.suffix_cons _ rest

theorem read_inner (s : ByteStream) (length : Nat) : (s.read length).2.inner <:+ s.inner := by
  have polled := s.pollInner_inner
  unfold read
  split
  · exact List.suffix_refl _
  · split <;> (rename_i answer; rw [answer] at polled; exact polled)

theorem poll_inner (s : ByteStream) : s.poll.2.inner <:+ s.inner := by
  unfold poll
  split
  · exact List.suffix_refl _
  · exact s.pollInner_inner

theorem reinsertData_inner (s : ByteStream) (data : Bytes) :
    (s.reinsertData data).inner = s.inner := by
  unfold reinsertData
  split
  · rfl
  · split <;> rfl

theorem Filled.read {s : ByteStream} (filled : s.Filled) (length : Nat) :
    (s.read length).2.Filled := by
  have settled := (SourceStream.ofByteStream s).read_settled length
  rw [SourceStream.ofByteStream_read] at settled
  exact ⟨settled, fun member => filled.chunks ((s.read_inner length).subset member)⟩

theorem Filled.poll {s : ByteStream} (filled : s.Filled) : s.poll.2.Filled := by
  have before : (SourceStream.ofByteStream s).Settled := filled.settled
  have settled := SourceStream.poll_settled before
  rw [SourceStream.ofByteStream_poll] at settled
  exact ⟨settled, fun member => filled.chunks (s.poll_inner.subset member)⟩

theorem Filled.reinsertData {s : ByteStream} (filled : s.Filled) (data : Bytes) :
    (s.reinsertData data).Filled := by
  have before : (SourceStream.ofByteStream s).Settled := filled.settled
  have settled := SourceStream.reinsertData_settled before data
  rw [SourceStream.ofByteStream_reinsertData] at settled
  refine ⟨settled, ?_⟩
  rw [s.reinsertData_inner]
  exact filled.chunks

theorem copyData_eq_nil {src : Bytes} {length : Nat} (room : 0 < length)
    (nothing : (copyData src length).1 = []) : src = [] := by
  rcases List.take_eq_nil_iff.mp nothing with noRoom | empty
  · omega
  · exact empty

/-- Without empty chunks a count of zero is the end. -/
theorem Filled.ended_of_read {s : ByteStream} (filled : s.Filled) {length : Nat}
    (room : 0 < length) (zero : (s.read length).1 = .ready []) : s.Ended := by
  obtain ⟨inner, overflow, sent⟩ := s
  cases overflow with
  | some data =>
      have nothing : (copyData data length).1 = [] := Futures.Poll.ready.inj zero
      exact absurd (congrArg some (copyData_eq_nil room nothing)) filled.settled
  | none =>
      rcases inner with _ | ⟨_ | data, rest⟩
      · exact ⟨rfl, rfl⟩
      · cases zero
      · have nothing : (copyData data length).1 = [] := Futures.Poll.ready.inj zero
        have empty : data = [] := copyData_eq_nil room nothing
        subst empty
        exact absurd List.mem_cons_self filled.chunks

theorem Ended.read {s : ByteStream} (ended : s.Ended) (length : Nat) :
    s.read length = (.ready [], s) := by
  obtain ⟨inner, overflow, sent⟩ := s
  obtain ⟨none, last⟩ := ended
  simp only at none last
  subst none last
  rfl

end ByteStream

namespace Framed

/-- Whether a turn gets as far as reading from the stream. -/
def reads (s : Framed) : Bool :=
  if s.isReadable then
    match (LengthDelimited.decode maxFrameLength s.codec s.readBuf).result with
    | .ok none => !s.eof
    | _ => false
  else true

/-- A turn that reads is one of `fill`, and any other leaves the stream and the end alone. -/
theorem turn_cases (s : Framed) (room : Nat) :
    (s.reads = true ∧
      ∃ before : Framed, before.io = s.io ∧ before.eof = s.eof ∧ s.turn room = before.fill room) ∨
    (s.reads = false ∧ (s.turn room).2.io = s.io ∧ (s.turn room).2.eof = s.eof ∧
      ((s.turn room).1 = .ready none → s.eof = true)) := by
  unfold reads turn
  by_cases readable : s.isReadable
  · simp only [readable, ↓reduceIte]
    cases decoded : (LengthDelimited.decode maxFrameLength s.codec s.readBuf).result with
    | error reason =>
        right
        simp
    | ok frame =>
        cases frame with
        | some payload =>
            right
            simp
        | none =>
            cases ended : s.eof with
            | true =>
                right
                simp only [↓reduceIte]
                split <;> simp
            | false =>
                left
                simp only [Bool.false_eq_true, ↓reduceIte, Bool.not_false, true_and]
                refine ⟨_, ?_, ?_, rfl⟩
                · rfl
                · rfl
  · left
    simp only [readable, Bool.false_eq_true, ↓reduceIte, true_and]
    exact ⟨s, rfl, rfl, rfl⟩

theorem fill_io (s : Framed) (room : Nat) : (s.fill room).2.io = (s.io.read (room + 1)).2 := by
  unfold fill
  split <;> (rename_i read; rw [read])

/-- Reading sets the end only on a count of zero, and never reports it itself. -/
theorem fill_eof (s : Framed) (room : Nat) :
    ((s.fill room).2.eof = true → s.eof = true ∨ (s.io.read (room + 1)).1 = .ready []) ∧
      ∀ payload, (s.fill room).1 ≠ .ready payload := by
  refine ⟨?_, (s.fill_unread room).2.2⟩
  unfold fill
  split
  · exact Or.inl
  · exact Or.inl
  · rename_i data io read
    intro empty
    rw [read, List.isEmpty_iff.mp empty]
    exact Or.inr rfl

end Framed

/-- A stream with the protocol stream over it. `innerEnded` is set once the inner stream has
returned `None`, and `readZero` when the last call was a read into a non-empty buffer that
returned `Ok(0)`. -/
structure Watched where
  framed : Framed
  innerEnded : Bool
  readZero : Bool
  deriving DecidableEq, Repr

inductive StreamCall where
  | read (length : Nat)
  | poll
  | reinsertData (data : Bytes)
  | turn (room : Nat)
  | switchProtocol
  deriving DecidableEq, Repr

namespace Watched

def new (inner : List (Option Bytes)) : Watched :=
  ⟨Framed.new (ByteStream.new inner), false, false⟩

/-- Calls on the stream itself, turns of the protocol stream, and the switch to another protocol,
which takes the stream back and frames it again. -/
def step (s : Watched) : StreamCall → Watched
  | .read length => {
      framed := { s.framed with io := (s.framed.io.read length).2 }
      innerEnded := s.innerEnded || s.framed.io.innerReturnsNone
      readZero := decide (0 < length) && decide ((s.framed.io.read length).1 = .ready []) }
  | .poll => {
      framed := { s.framed with io := s.framed.io.poll.2 }
      innerEnded := s.innerEnded || s.framed.io.innerReturnsNone
      readZero := false }
  | .reinsertData data => {
      framed := { s.framed with io := s.framed.io.reinsertData data }
      innerEnded := s.innerEnded
      readZero := false }
  | .turn room => {
      framed := (s.framed.turn room).2
      innerEnded := s.innerEnded || (s.framed.reads && s.framed.io.innerReturnsNone)
      readZero := s.framed.reads && decide ((s.framed.io.read (room + 1)).1 = .ready []) }
  | .switchProtocol => { s with framed := Framed.new s.framed.into, readZero := false }

def after (inner : List (Option Bytes)) (calls : List StreamCall) : Watched :=
  Transition.run step (new inner) calls

/-- The end is only reported when it is there: by a read, and by the protocol stream. -/
structure Truthful (s : Watched) : Prop where
  read : s.readZero = true → s.innerEnded = true ∧ s.framed.io.pending = []
  eof : s.framed.eof = true → s.innerEnded = true
  none : ∀ room, (s.framed.turn room).1 = .ready none → s.innerEnded = true

/-- What holds of the stream and the protocol stream's end while no chunk is empty. -/
structure Inv (s : Watched) : Prop where
  filled : s.framed.io.Filled
  read : s.readZero = true → s.innerEnded = true ∧ s.framed.io.Ended
  eof : s.framed.eof = true → s.innerEnded = true

theorem inv_new {inner : List (Option Bytes)} (chunks : some [] ∉ inner) : (new inner).Inv := by
  refine ⟨⟨?_, chunks⟩, ?_, ?_⟩ <;> (intro impossible; cases impossible)

/-- A count of zero read from a stream without empty chunks. -/
theorem readZero_inv {io : ByteStream} (filled : io.Filled) {length : Nat} (room : 0 < length)
    (zero : (io.read length).1 = .ready []) :
    io.innerReturnsNone = true ∧ (io.read length).2.Ended := by
  have ended : io.Ended := filled.ended_of_read room zero
  refine ⟨io.innerReturnsNone_iff.mpr ended, ?_⟩
  rw [ended.read length]
  exact ended

theorem step_read_inv {s : Watched} (inv : s.Inv) (length : Nat) : (s.step (.read length)).Inv := by
  refine ⟨inv.filled.read length, ?_, ?_⟩
  · intro zero
    simp only [step, Bool.and_eq_true, decide_eq_true_eq] at zero
    obtain ⟨reported, ended⟩ := readZero_inv inv.filled zero.1 zero.2
    refine ⟨?_, ended⟩
    simp only [step, reported, Bool.or_true]
  · intro eof
    have before : s.innerEnded = true := inv.eof eof
    simp only [step, before, Bool.true_or]

theorem step_poll_inv {s : Watched} (inv : s.Inv) : (s.step .poll).Inv := by
  refine ⟨inv.filled.poll, ?_, ?_⟩
  · intro impossible
    cases impossible
  · intro eof
    have before : s.innerEnded = true := inv.eof eof
    simp only [step, before, Bool.true_or]

theorem step_reinsertData_inv {s : Watched} (inv : s.Inv) (data : Bytes) :
    (s.step (.reinsertData data)).Inv := by
  refine ⟨inv.filled.reinsertData data, ?_, inv.eof⟩
  intro impossible
  cases impossible

theorem step_switchProtocol_inv {s : Watched} (inv : s.Inv) : (s.step .switchProtocol).Inv := by
  refine ⟨inv.filled.reinsertData s.framed.readBuf, ?_, ?_⟩ <;> (intro impossible; cases impossible)

theorem step_turn_inv {s : Watched} (inv : s.Inv) (room : Nat) : (s.step (.turn room)).Inv := by
  rcases s.framed.turn_cases room with ⟨reads, before, same, sameEof, turned⟩ | ⟨idle, io, eof, _⟩
  · have read : (s.framed.turn room).2.io = (s.framed.io.read (room + 1)).2 := by
      rw [turned, Framed.fill_io, same]
    have reported : (s.framed.io.read (room + 1)).1 = .ready [] →
        s.framed.io.innerReturnsNone = true ∧ (s.framed.io.read (room + 1)).2.Ended :=
      fun zero => readZero_inv inv.filled (Nat.succ_pos room) zero
    refine ⟨?_, ?_, ?_⟩
    · change (s.framed.turn room).2.io.Filled
      rw [read]
      exact inv.filled.read (room + 1)
    · intro zero
      simp only [step, reads, Bool.true_and, decide_eq_true_eq] at zero ⊢
      rw [read, (reported zero).1]
      exact ⟨Bool.or_true _, (reported zero).2⟩
    · intro eof
      have set : before.eof = true ∨ (before.io.read (room + 1)).1 = .ready [] :=
        (before.fill_eof room).1 (by rw [← turned]; exact eof)
      rw [same, sameEof] at set
      simp only [step, reads, Bool.true_and, Bool.or_eq_true]
      rcases set with earlier | zero
      · exact Or.inl (inv.eof earlier)
      · exact Or.inr (reported zero).1
  · refine ⟨?_, ?_, ?_⟩
    · change (s.framed.turn room).2.io.Filled
      rw [io]
      exact inv.filled
    · intro zero
      simp only [step, idle, Bool.false_and, Bool.false_eq_true] at zero
    · intro set
      change (s.framed.turn room).2.eof = true at set
      rw [eof] at set
      simp only [step, inv.eof set, Bool.true_or]

theorem step_inv {s : Watched} (call : StreamCall) (inv : s.Inv) : (s.step call).Inv := by
  cases call with
  | read length => exact step_read_inv inv length
  | poll => exact step_poll_inv inv
  | reinsertData data => exact step_reinsertData_inv inv data
  | turn room => exact step_turn_inv inv room
  | switchProtocol => exact step_switchProtocol_inv inv

theorem Inv.truthful {s : Watched} (inv : s.Inv) : s.Truthful := by
  refine ⟨?_, inv.eof, ?_⟩
  · intro zero
    obtain ⟨reported, ended⟩ := inv.read zero
    exact ⟨reported, ended.pending⟩
  · intro room reported
    rcases s.framed.turn_cases room with ⟨_, before, _, _, turned⟩ | ⟨_, _, _, none⟩
    · rw [turned] at reported
      exact absurd reported ((before.fill_eof room).2 _)
    · exact inv.eof (none reported)

/-- Polls move to the chunk at a given place of the script, and see no end before it. -/
theorem after_polls (passed rest : List (Option Bytes)) :
    after (passed ++ rest) (passed.map (fun _ => .poll)) = new rest := by
  induction passed with
  | nil => rfl
  | cons answer passed ih =>
      have first : (new (answer :: passed ++ rest)).step .poll = new (passed ++ rest) := by
        cases answer with
        | none => rfl
        | some data => rfl
      change Transition.run step ((new (answer :: passed ++ rest)).step .poll) _ = _
      rw [first]
      exact ih

theorem read_empty_chunk (rest : List (Option Bytes)) :
    ¬ ((new (some [] :: rest)).step (.read 1)).Truthful := by
  intro truthful
  have zero : ((new (some [] :: rest)).step (.read 1)).readZero = true := rfl
  have reported := (truthful.read zero).1
  cases reported

/-- The end of a stream is never reported early exactly when its inner stream yields no empty
chunk, whatever is called on the stream and on the protocol streams over it. -/
theorem truthful_iff_no_empty_chunk (inner : List (Option Bytes)) :
    (∀ calls, (after inner calls).Truthful) ↔ some [] ∉ inner := by
  constructor
  · intro always member
    obtain ⟨passed, rest, split⟩ := List.append_of_mem member
    subst split
    have early := always (passed.map (fun _ => .poll) ++ [.read 1])
    rw [after, Transition.run_snoc] at early
    change ((after _ _).step _).Truthful at early
    rw [after_polls] at early
    exact read_empty_chunk rest early
  · intro chunks calls
    have inv : (after inner calls).Inv :=
      Transition.run_invariant Inv (fun _ call inv => step_inv call inv) (inv_new chunks) calls
    exact inv.truthful

/-- An empty chunk ahead of a byte: a read into a buffer of one byte returns zero, and a protocol
stream takes the stream for ended, while the inner stream is open. -/
theorem empty_chunk_reports_end :
    ¬ (after [some [], some [7]] [.read 1]).Truthful ∧
      ¬ (after [some [], some [7]] [.turn 0]).Truthful := by
  refine ⟨read_empty_chunk [some [7]], ?_⟩
  intro truthful
  have eof : (after [some [], some [7]] [.turn 0]).framed.eof = true := by decide
  have reported := truthful.eof eof
  revert reported
  decide

end Watched

end HolePunch
