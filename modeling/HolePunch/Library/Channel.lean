import Mathlib.Data.List.Basic

set_option autoImplicit false

/- A reliable channel that keeps the order of what is sent, with the record of what its reader has
taken so far. -/

structure Channel (α : Type) where
  received : List α
  pending : List α
  deriving DecidableEq, Repr

namespace Channel

variable {α : Type}

def empty : Channel α := ⟨[], []⟩

def sendAll (channel : Channel α) (values : List α) : Channel α :=
  { channel with pending := channel.pending ++ values }

def send (channel : Channel α) (value : α) : Channel α := channel.sendAll [value]

def next (channel : Channel α) : Option α := channel.pending.head?

/-- The reader takes the next value, if there is one. -/
def receive (channel : Channel α) : Channel α :=
  match channel.pending with
  | [] => channel
  | value :: rest => ⟨channel.received ++ [value], rest⟩

/-- What its two ends do with a channel. -/
inductive Event (α : Type) where
  | send (value : α)
  | receive
  deriving DecidableEq, Repr

def step (channel : Channel α) : Event α → Channel α
  | .send value => channel.send value
  | .receive => channel.receive

/-- All that was ever sent. -/
def history (channel : Channel α) : List α := channel.received ++ channel.pending

@[simp] theorem sendAll_history (channel : Channel α) (values : List α) :
    (channel.sendAll values).history = channel.history ++ values := by
  simp only [history, sendAll, List.append_assoc]

@[simp] theorem sendAll_nil (channel : Channel α) : channel.sendAll [] = channel := by
  simp only [sendAll, List.append_nil]

@[simp] theorem send_history (channel : Channel α) (value : α) :
    (channel.send value).history = channel.history ++ [value] :=
  sendAll_history channel [value]

theorem send_pending (channel : Channel α) (value : α) :
    (channel.send value).pending.length = channel.pending.length + 1 := List.length_append

theorem send_history_ne_nil (channel : Channel α) (value : α) :
    (channel.send value).history ≠ [] := by
  rw [send_history]
  exact List.append_ne_nil_of_right_ne_nil _ (List.cons_ne_nil _ _)

theorem history_prefix_sendAll (channel : Channel α) (values : List α) :
    channel.history <+: (channel.sendAll values).history := by
  rw [sendAll_history]
  exact List.prefix_append _ _

theorem history_prefix_send (channel : Channel α) (value : α) :
    channel.history <+: (channel.send value).history :=
  history_prefix_sendAll channel [value]

@[simp] theorem receive_history (channel : Channel α) :
    channel.receive.history = channel.history := by
  unfold receive
  split
  · rfl
  · rename_i value rest pending
    simp only [history, pending, List.append_assoc, List.singleton_append]

theorem receive_received {channel : Channel α} {value : α} (found : channel.next = some value) :
    channel.receive.received = channel.received ++ [value] := by
  unfold receive
  split
  · rename_i pending
    simp only [next, pending, List.head?_nil, reduceCtorEq] at found
  · rename_i first rest pending
    simp only [next, pending, List.head?_cons, Option.some.injEq] at found
    rw [found]

theorem receive_pending {channel : Channel α} {value : α} (found : channel.next = some value) :
    channel.receive.pending.length + 1 = channel.pending.length := by
  unfold receive
  split
  · rename_i pending
    simp only [next, pending, List.head?_nil, reduceCtorEq] at found
  · rename_i first rest pending
    rw [pending]
    rfl

theorem receive_none {channel : Channel α} (found : channel.next = none) :
    channel.receive = channel := by
  unfold receive
  split
  · rfl
  · rename_i first rest pending
    simp only [next, pending, List.head?_cons, reduceCtorEq] at found

/-- The reader takes the values in the order in which they were sent. -/
theorem next_getElem? {channel : Channel α} {value : α} (found : channel.next = some value) :
    channel.history[channel.received.length]? = some value := by
  rw [history, List.getElem?_append_right (Nat.le_refl _), Nat.sub_self, ← List.head?_eq_getElem?]
  exact found

theorem getElem?_received {channel : Channel α} {index : Nat} {value : α}
    (found : channel.received[index]? = some value) : channel.history[index]? = some value := by
  rw [history, List.getElem?_append_left (List.getElem?_eq_some_iff.mp found).1]
  exact found

/-- A channel with nothing under way has been read to its end. -/
theorem history_of_next_none {channel : Channel α} (nothing : channel.next = none) :
    channel.history = channel.received := by
  rw [history, List.head?_eq_none_iff.mp nothing, List.append_nil]

theorem received_prefix (channel : Channel α) : channel.received <+: channel.history :=
  List.prefix_append _ _

end Channel
