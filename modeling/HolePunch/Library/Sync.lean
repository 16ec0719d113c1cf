import HolePunch.Library.Channel
import HolePunch.Library.Futures

set_option autoImplicit false

/- The two channels that tasks of poll-based futures share: one that carries a single value, whose
ends also learn that the other one is gone, and an unbounded queue with any number of senders. -/

namespace Futures.Poll

/-- `poll().map(|v| v.is_ready()).unwrap_or(true)`: a future that has failed counts as done. -/
def settled {ε α : Type} : Poll ε α → Bool
  | .notReady => false
  | .ready _ => true
  | .error _ => true

end Futures.Poll

namespace Sync

/-- Both ends share the flag. It is set by the value and by the end that is dropped first. -/
structure Oneshot (α : Type) where
  complete : Bool
  data : Option α
  deriving DecidableEq, Repr

namespace Oneshot

variable {α : Type}

def channel : Oneshot α := ⟨false, none⟩

def send (s : Oneshot α) (value : α) : Oneshot α :=
  if s.complete then s else ⟨true, some value⟩

def dropSender (s : Oneshot α) : Oneshot α := { s with complete := true }

def dropReceiver (s : Oneshot α) : Oneshot α := { s with complete := true }

/-- The receiver takes the value once. Polled again, or without a value, it has been cancelled. -/
def poll (s : Oneshot α) : Futures.Poll Unit α × Oneshot α :=
  if s.complete then
    match s.data with
    | some value => (.ready value, { s with data := none })
    | none => (.error (), s)
  else (.notReady, s)

/-- The sender asks whether the receiver is still there. -/
def pollCancel (s : Oneshot α) : Futures.Poll Unit Unit :=
  if s.complete then .ready () else .notReady

@[simp] theorem send_complete (s : Oneshot α) (value : α) : (s.send value).complete = true := by
  unfold send
  split
  · assumption
  · rfl

@[simp] theorem poll_settled (s : Oneshot α) : s.poll.1.settled = s.complete := by
  unfold poll
  cases complete : s.complete with
  | false => rfl
  | true => cases s.data <;> rfl

@[simp] theorem poll_complete (s : Oneshot α) : s.poll.2.complete = s.complete := by
  unfold poll
  cases complete : s.complete with
  | false => exact complete
  | true =>
      cases s.data with
      | none => exact complete
      | some value => rfl

@[simp] theorem pollCancel_settled (s : Oneshot α) : s.pollCancel.settled = s.complete := by
  unfold pollCancel
  cases s.complete <;> rfl

end Oneshot

/-- The senders are counted. What is sent after the receiver is gone is dropped. -/
structure Unbounded (α : Type) where
  channel : Channel α
  senders : Nat
  receiver : Bool
  deriving DecidableEq, Repr

namespace Unbounded

variable {α : Type}

def unbounded : Unbounded α := ⟨Channel.empty, 1, true⟩

def cloneSender (s : Unbounded α) : Unbounded α := { s with senders := s.senders + 1 }

def dropSender (s : Unbounded α) : Unbounded α := { s with senders := s.senders - 1 }

def dropReceiver (s : Unbounded α) : Unbounded α := { s with receiver := false }

def sendAll (s : Unbounded α) (values : List α) : Unbounded α :=
  if s.receiver then { s with channel := s.channel.sendAll values } else s

def poll (s : Unbounded α) : Futures.Poll Empty (Option α) × Unbounded α :=
  match s.channel.next with
  | some value => (.ready (some value), { s with channel := s.channel.receive })
  | none => if s.senders = 0 then (.ready none, s) else (.notReady, s)

@[simp] theorem sendAll_receiver (s : Unbounded α) (values : List α) :
    (s.sendAll values).receiver = s.receiver := by
  unfold sendAll
  split <;> rfl

@[simp] theorem sendAll_senders (s : Unbounded α) (values : List α) :
    (s.sendAll values).senders = s.senders := by
  unfold sendAll
  split <;> rfl

@[simp] theorem sendAll_received (s : Unbounded α) (values : List α) :
    (s.sendAll values).channel.received = s.channel.received := by
  unfold sendAll
  split <;> rfl

theorem sendAll_history (s : Unbounded α) (values : List α) :
    (s.sendAll values).channel.history =
      if s.receiver then s.channel.history ++ values else s.channel.history := by
  unfold sendAll
  split
  · exact Channel.sendAll_history s.channel values
  · rfl

/-- While there is a sender, a poll gives the next value or waits for it. -/
theorem poll_of_sender {s : Unbounded α} (sender : 0 < s.senders) :
    (∃ value rest, s.channel.pending = value :: rest ∧
      s.poll = (.ready (some value), { s with channel := s.channel.receive })) ∨
    (s.channel.pending = [] ∧ s.poll = (.notReady, s)) := by
  unfold poll Channel.next
  cases pending : s.channel.pending with
  | nil => exact Or.inr ⟨rfl, if_neg (Nat.pos_iff_ne_zero.mp sender)⟩
  | cons value rest => exact Or.inl ⟨value, rest, rfl, rfl⟩

end Unbounded

end Sync
