import HolePunch.ByteStream
import Mathlib.Data.List.Perm.Basic

set_option autoImplicit false

/- A `strategies::Stream` over any inner source, failing ones included, as a queue of bytes to
which bytes can be put back at the front. -/
namespace HolePunch

open LengthDelimited (Bytes)

/-- What the inner stream answers, poll by poll; after the last answer it reports its end. -/
abbrev Source := List (Poll (Option Bytes))

namespace Source

def poll : Source → Poll (Option Bytes) × Source
  | [] => (.ready none, [])
  | answer :: rest => (answer, rest)

/-- The bytes that the source has not produced yet. -/
def bytes (source : Source) : Bytes := (source.map ByteStream.delivered).flatten

theorem poll_bytes (source : Source) :
    ByteStream.delivered source.poll.1 ++ bytes source.poll.2 = source.bytes := by
  cases source with
  | nil => rfl
  | cons answer rest => simp only [poll, bytes, List.map_cons, List.flatten_cons]

end Source

structure SourceStream where
  inner : Source
  readOverflow : Option Bytes
  deriving DecidableEq, Repr

namespace SourceStream

def new (inner : Source) : SourceStream := ⟨inner, none⟩

def reinsertData (s : SourceStream) (data : Bytes) : SourceStream :=
  if data.isEmpty then s
  else match s.readOverflow with
    | some overflow => { s with readOverflow := some (data ++ overflow) }
    | none => { s with readOverflow := some data }

def poll (s : SourceStream) : Poll (Option Bytes) × SourceStream :=
  match s.readOverflow with
  | some buf => (.ready (some buf), { s with readOverflow := none })
  | none => (s.inner.poll.1, { s with inner := s.inner.poll.2 })

/-- `notReady` is the error `WouldBlock`. -/
def read (s : SourceStream) (length : Nat) : Poll Bytes × SourceStream :=
  match s.readOverflow with
  | some data =>
      let copied := ByteStream.copyData data length
      (.ready copied.1, { s with readOverflow := copied.2 })
  | none =>
      match s.inner.poll with
      | (.notReady, inner) => (.notReady, { s with inner := inner })
      | (.error reason, inner) => (.error reason, { s with inner := inner })
      | (.ready none, inner) => (.ready [], { s with inner := inner })
      | (.ready (some data), inner) =>
          let copied := ByteStream.copyData data length
          (.ready copied.1, ⟨inner, copied.2⟩)

/-- What the stream still has to deliver. -/
def pending (s : SourceStream) : Bytes := s.readOverflow.getD [] ++ s.inner.bytes

/-- An overflow is never kept empty. -/
def Settled (s : SourceStream) : Prop := s.readOverflow ≠ some []

/-- A stream whose source does not fail is a `ByteStream`, call by call. -/
def ofByteStream (s : ByteStream) : SourceStream :=
  ⟨s.inner.map (fun | none => .notReady | some data => .ready (some data)), s.readOverflow⟩

theorem ofByteStream_poll (s : ByteStream) :
    (ofByteStream s).poll = (s.poll.1, ofByteStream s.poll.2) := by
  obtain ⟨inner, overflow, sent⟩ := s
  cases overflow with
  | some data => rfl
  | none => rcases inner with _ | ⟨_ | data, rest⟩ <;> rfl

theorem ofByteStream_read (s : ByteStream) (length : Nat) :
    (ofByteStream s).read length = ((s.read length).1, ofByteStream (s.read length).2) := by
  obtain ⟨inner, overflow, sent⟩ := s
  cases overflow with
  | some data => rfl
  | none => rcases inner with _ | ⟨_ | data, rest⟩ <;> rfl

theorem ofByteStream_reinsertData (s : ByteStream) (data : Bytes) :
    (ofByteStream s).reinsertData data = ofByteStream (s.reinsertData data) := by
  obtain ⟨inner, overflow, sent⟩ := s
  cases data <;> cases overflow <;> rfl

end SourceStream

/-- The operations on a stream. -/
inductive QueueOp where
  | read (length : Nat)
  | poll
  | reinsertData (data : Bytes)
  deriving DecidableEq, Repr

inductive QueueAnswer where
  | read (result : Poll Bytes)
  | polled (result : Poll (Option Bytes))
  | reinserted
  deriving DecidableEq, Repr

/-- A queue of bytes, with what it allows each operation to answer and to leave behind. -/
structure ByteQueue where
  bytes : Bytes

namespace ByteQueue

/-- The bytes that an operation takes from the queue, and those it puts back. -/
def taken : QueueOp × QueueAnswer → Bytes
  | (_, .read result) => ByteStream.copied result
  | (_, .polled result) => ByteStream.delivered result
  | _ => []

def reinserted : QueueOp × QueueAnswer → Bytes
  | (.reinsertData data, _) => data
  | _ => []

end ByteQueue

namespace SourceStream

def queue (s : SourceStream) : ByteQueue := ⟨s.pending⟩

def step (s : SourceStream) : QueueOp → QueueAnswer × SourceStream
  | .read length => (.read (s.read length).1, (s.read length).2)
  | .poll => (.polled s.poll.1, s.poll.2)
  | .reinsertData data => (.reinserted, s.reinsertData data)

def after (s : SourceStream) (ops : List QueueOp) : SourceStream :=
  Transition.run (fun s op => (s.step op).2) s ops

theorem copyData_settled (src : Bytes) (length : Nat) :
    (ByteStream.copyData src length).2 ≠ some [] := by
  unfold ByteStream.copyData
  dsimp only
  split
  · rename_i longer
    intro empty
    have dropped := congrArg List.length (Option.some.inj empty)
    rw [List.length_drop, List.length_nil] at dropped
    omega
  · intro empty
    cases empty

theorem reinsertData_settled {s : SourceStream} (settled : s.Settled) (data : Bytes) :
    (s.reinsertData data).Settled := by
  unfold reinsertData
  split
  · exact settled
  · rename_i given
    have filled : data ≠ [] := fun empty => given (List.isEmpty_iff.mpr empty)
    split
    · intro empty
      exact filled (List.append_eq_nil_iff.mp (Option.some.inj empty)).1
    · intro empty
      exact filled (Option.some.inj empty)

theorem poll_settled {s : SourceStream} (settled : s.Settled) : s.poll.2.Settled := by
  unfold poll
  split
  · intro empty
    cases empty
  · exact settled

theorem read_settled (s : SourceStream) (length : Nat) : (s.read length).2.Settled := by
  obtain ⟨inner, overflow⟩ := s
  cases overflow with
  | some data => exact copyData_settled data length
  | none =>
      simp only [read]
      split
      · simp [Settled]
      · simp [Settled]
      · simp [Settled]
      · exact copyData_settled _ length

end SourceStream

end HolePunch
