import HolePunch.Library.LengthDelimited
import HolePunch.Library.Transition
import HolePunch.Protocol

set_option autoImplicit false

/- The bytes that a `strategies::Stream` carries (`strategies/mod.rs`). -/
namespace HolePunch

open LengthDelimited (Bytes)

/-- `inner` is what the inner stream will answer, poll by poll: a chunk, or nothing yet, and its
end after the last one. `sent` is what the inner sink has taken so far. -/
structure ByteStream where
  inner : List (Option Bytes)
  readOverflow : Option Bytes
  sent : Bytes
  deriving DecidableEq, Repr

namespace ByteStream

def new (inner : List (Option Bytes)) : ByteStream := ⟨inner, none, []⟩

def pollInner (s : ByteStream) : Poll (Option Bytes) × ByteStream :=
  match s.inner with
  | [] => (.ready none, s)
  | none :: rest => (.notReady, { s with inner := rest })
  | some data :: rest => (.ready (some data), { s with inner := rest })

/-- If we switch the protocol and the old protocol already read more data than it required, this
makes the data available for the next protocol. -/
def reinsertData (s : ByteStream) (data : Bytes) : ByteStream :=
  if data.isEmpty then s
  else match s.readOverflow with
    | some overflow => { s with readOverflow := some (data ++ overflow) }
    | none => { s with readOverflow := some data }

def poll (s : ByteStream) : Poll (Option Bytes) × ByteStream :=
  match s.readOverflow with
  | some buf => (.ready (some buf), { s with readOverflow := none })
  | none => s.pollInner

/-- Fills a buffer of the given length, and returns what did not fit. -/
def copyData (src : Bytes) (length : Nat) : Bytes × Option Bytes :=
  (src.take length, if length < src.length then some (src.drop length) else none)

/-- `notReady` is the error `WouldBlock`. -/
def read (s : ByteStream) (length : Nat) : Poll Bytes × ByteStream :=
  match s.readOverflow with
  | some data =>
      let copied := copyData data length
      (.ready copied.1, { s with readOverflow := copied.2 })
  | none =>
      match s.pollInner with
      | (.notReady, s) => (.notReady, s)
      | (.error reason, s) => (.error reason, s)
      | (.ready none, s) => (.ready [], s)
      | (.ready (some data), s) =>
          let copied := copyData data length
          (.ready copied.1, { s with readOverflow := copied.2 })

/-- The sink takes the whole buffer or nothing of it. -/
def write (s : ByteStream) (buf : Bytes) (answer : SendPoll) : Poll Nat × ByteStream :=
  match answer with
  | .accepted => (.ready buf.length, { s with sent := s.sent ++ buf })
  | .refused => (.notReady, s)
  | .error reason => (.error reason, s)

/-- The sink's own `start_send`, which a write hands its buffer to. -/
def startSend (s : ByteStream) (item : Bytes) (answer : SendPoll) : Poll Unit × ByteStream :=
  match answer with
  | .accepted => (.ready (), { s with sent := s.sent ++ item })
  | .refused => (.notReady, s)
  | .error reason => (.error reason, s)

/-- A sink that is not done yet counts as flushed. -/
def flush (answer : Poll Unit) : Poll Unit :=
  match answer with
  | .error reason => .error reason
  | _ => .ready ()

/-- A sink that is not closed yet counts as shut down. -/
def shutdown (answer : Poll Unit) : Poll Unit :=
  match answer with
  | .error reason => .error reason
  | _ => .ready ()

/-- What the stream still has to deliver. -/
def pending (s : ByteStream) : Bytes :=
  s.readOverflow.getD [] ++ (s.inner.map (fun answer => answer.getD [])).flatten

theorem reinsertData_pending (s : ByteStream) (data : Bytes) :
    (s.reinsertData data).pending = data ++ s.pending := by
  unfold reinsertData
  split
  · rename_i empty
    rw [List.isEmpty_iff.mp empty, List.nil_append]
  · split
    · rename_i overflow held
      simp only [pending, held, Option.getD_some, List.append_assoc]
    · rename_i none
      simp only [pending, none, Option.getD_some, Option.getD_none, List.nil_append]

@[simp] theorem reinsertData_sent (s : ByteStream) (data : Bytes) :
    (s.reinsertData data).sent = s.sent := by
  unfold reinsertData
  split
  · rfl
  · split <;> rfl

theorem copyData_bytes (src : Bytes) (length : Nat) :
    (copyData src length).1 ++ (copyData src length).2.getD [] = src := by
  unfold copyData
  dsimp only
  split
  · exact List.take_append_drop length src
  · rename_i fits
    rw [Option.getD_none, List.append_nil, List.take_of_length_le (by omega)]

/-- The bytes that a poll or a read has delivered. -/
def delivered : Poll (Option Bytes) → Bytes
  | .ready (some data) => data
  | _ => []

theorem delivered_nothing {polled : Poll (Option Bytes)}
    (never : ∀ data, polled ≠ .ready (some data)) : delivered polled = [] := by
  unfold delivered
  split
  · rename_i data
    exact absurd rfl (never data)
  · rfl

def copied : Poll Bytes → Bytes
  | .ready data => data
  | _ => []

theorem pollInner_bytes (s : ByteStream) (none : s.readOverflow = none) :
    delivered s.pollInner.1 ++ s.pollInner.2.pending = s.pending ∧
      s.pollInner.2.readOverflow = .none := by
  unfold pollInner
  split
  · exact ⟨rfl, none⟩
  · rename_i rest script
    refine ⟨?_, none⟩
    simp only [pending, delivered, script, none, List.map_cons, Option.getD_none,
      List.flatten_cons, List.nil_append]
  · rename_i data rest script
    refine ⟨?_, none⟩
    simp only [pending, delivered, script, none, List.map_cons, Option.getD_none,
      Option.getD_some, List.flatten_cons, List.nil_append]

theorem poll_bytes (s : ByteStream) : delivered s.poll.1 ++ s.poll.2.pending = s.pending := by
  unfold poll
  split
  · rename_i buf held
    simp only [pending, delivered, held, Option.getD_none, Option.getD_some, List.nil_append]
  · rename_i none
    exact (s.pollInner_bytes none).1

theorem read_bytes (s : ByteStream) (length : Nat) :
    copied (s.read length).1 ++ (s.read length).2.pending = s.pending := by
  unfold read
  split
  · rename_i data held
    simp only [pending, copied, held, Option.getD_some]
    rw [← List.append_assoc, copyData_bytes]
  · rename_i none
    obtain ⟨bytes, kept⟩ := s.pollInner_bytes none
    split
    · rename_i next polled
      rw [polled] at bytes
      exact bytes
    · rename_i reason next polled
      rw [polled] at bytes
      exact bytes
    · rename_i next polled
      rw [polled] at bytes
      exact bytes
    · rename_i data next polled
      rw [polled] at bytes kept
      change next.readOverflow = .none at kept
      rw [← bytes]
      simp only [pending, delivered, copied, kept, Option.getD_none, List.nil_append]
      rw [← List.append_assoc, copyData_bytes]

/-- The ways in which a user takes bytes from a stream. -/
inductive Call where
  | read (length : Nat)
  | poll
  deriving DecidableEq, Repr

def call (s : ByteStream) : Call → Bytes × ByteStream
  | .read length => (copied (s.read length).1, (s.read length).2)
  | .poll => (delivered s.poll.1, s.poll.2)

@[simp] theorem pollInner_sent (s : ByteStream) : s.pollInner.2.sent = s.sent := by
  unfold pollInner
  split <;> rfl

@[simp] theorem poll_sent (s : ByteStream) : s.poll.2.sent = s.sent := by
  unfold poll
  split
  · rfl
  · exact s.pollInner_sent

@[simp] theorem read_sent (s : ByteStream) (length : Nat) :
    (s.read length).2.sent = s.sent := by
  have kept := s.pollInner_sent
  unfold read
  split
  · rfl
  · split <;> (rename_i polled; rw [polled] at kept; exact kept)

/-- Taking bytes sends none. -/
@[simp] theorem call_sent (s : ByteStream) (made : Call) : (s.call made).2.sent = s.sent := by
  cases made with
  | read length => exact s.read_sent length
  | poll => exact s.poll_sent

/-- What a sequence of calls delivers, and the stream after it. -/
def deliver (s : ByteStream) : List Call → Bytes × ByteStream
  | [] => ([], s)
  | first :: rest =>
      let later := (s.call first).2.deliver rest
      ((s.call first).1 ++ later.1, later.2)

/-- All that is left is to report the end. -/
def Ended (s : ByteStream) : Prop := s.readOverflow = none ∧ s.inner = []

/-- However the stream is read, it gives these bytes in their order, and all of them before its
end. -/
def Delivers (s : ByteStream) (bytes : Bytes) : Prop :=
  ∀ calls, (s.deliver calls).1 <+: bytes ∧
    ((s.deliver calls).2.Ended → (s.deliver calls).1 = bytes)

theorem call_bytes (s : ByteStream) (made : Call) :
    (s.call made).1 ++ (s.call made).2.pending = s.pending := by
  cases made with
  | read length => exact s.read_bytes length
  | poll => exact s.poll_bytes

theorem deliver_bytes (s : ByteStream) (calls : List Call) :
    (s.deliver calls).1 ++ (s.deliver calls).2.pending = s.pending := by
  induction calls generalizing s with
  | nil => rfl
  | cons first rest ih =>
      simp only [deliver]
      rw [List.append_assoc, ih, call_bytes]

theorem Ended.pending {s : ByteStream} (ended : s.Ended) : s.pending = [] := by
  simp only [ByteStream.pending, ended.1, ended.2, Option.getD_none, List.map_nil,
    List.flatten_nil, List.append_nil]

/-- Polls alone reach the end. -/
theorem exists_ended (s : ByteStream) : ∃ calls, (s.deliver calls).2.Ended := by
  obtain ⟨inner, overflow, sent⟩ := s
  have drained : ∃ calls, ((ByteStream.mk inner none sent).deliver calls).2.Ended := by
    induction inner with
    | nil => exact ⟨[], rfl, rfl⟩
    | cons answer rest ih =>
        obtain ⟨calls, ended⟩ := ih
        refine ⟨.poll :: calls, ?_⟩
        cases answer with
        | none => exact ended
        | some data => exact ended
  obtain ⟨calls, ended⟩ := drained
  cases overflow with
  | none => exact ⟨calls, ended⟩
  | some data => exact ⟨.poll :: calls, ended⟩

theorem delivers_iff (s : ByteStream) (bytes : Bytes) : s.Delivers bytes ↔ s.pending = bytes := by
  constructor
  · intro delivers
    obtain ⟨calls, ended⟩ := s.exists_ended
    rw [← s.deliver_bytes calls, ended.pending, List.append_nil]
    exact (delivers calls).2 ended
  · rintro rfl calls
    have bytes := s.deliver_bytes calls
    refine ⟨⟨_, bytes⟩, ?_⟩
    intro ended
    rw [ended.pending, List.append_nil] at bytes
    exact bytes

/-- What the sink takes of a sequence of writes, given its answers. -/
def accepted (writes : List (Bytes × SendPoll)) : Bytes :=
  ((writes.filter (fun written => written.2 = .accepted)).map Prod.fst).flatten

def writeAll (s : ByteStream) (writes : List (Bytes × SendPoll)) : ByteStream :=
  writes.foldl (fun s written => (s.write written.1 written.2).2) s

theorem writeAll_sent (s : ByteStream) (writes : List (Bytes × SendPoll)) :
    (s.writeAll writes).sent = s.sent ++ accepted writes := by
  induction writes generalizing s with
  | nil => simp [writeAll, accepted]
  | cons first rest ih =>
      obtain ⟨buf, answer⟩ := first
      change ((s.write buf answer).2.writeAll rest).sent = _
      rw [ih]
      cases answer with
      | accepted => simp [write, accepted]
      | refused => simp [write, accepted]
      | error reason => simp [write, accepted]

end ByteStream

end HolePunch
