import Mathlib.Algebra.Ring.Nat
import Mathlib.Data.List.Basic

set_option autoImplicit false

/- Frames with a four byte, big-endian length in front, and a decoder that is fed a growing
buffer. It takes the length out of the buffer as soon as it is complete, and keeps it until the
whole frame is there. -/
namespace LengthDelimited

abbrev Bytes := List UInt8

/-- The length field. Each byte keeps the low eight bits of what it is given. -/
def head (length : Nat) : Bytes :=
  [UInt8.ofNat (length / 2 ^ 24), UInt8.ofNat (length / 2 ^ 16), UInt8.ofNat (length / 2 ^ 8),
    UInt8.ofNat length]

def headValue (bytes : Bytes) : Nat :=
  bytes.foldl (fun value byte => value * 256 + byte.toNat) 0

def frame (payload : Bytes) : Bytes := head payload.length ++ payload

/-- Payloads over the limit are refused. -/
def encode (limit : Nat) (payload : Bytes) : Option Bytes :=
  if payload.length ≤ limit then some (frame payload) else none

/-- `data` remembers the length it has taken out of the buffer. -/
inductive State where
  | head
  | data (length : Nat)
  deriving DecidableEq, Repr

/-- What a call of the decoder gives: a frame that is complete, or the need for more bytes. -/
structure Decoded where
  result : Except Unit (Option Bytes)
  state : State
  buffer : Bytes

def decodeData (length : Nat) (buffer : Bytes) : Decoded :=
  if buffer.length < length then ⟨.ok none, .data length, buffer⟩
  else ⟨.ok (some (buffer.take length)), .head, buffer.drop length⟩

def decode (limit : Nat) (state : State) (buffer : Bytes) : Decoded :=
  match state with
  | .head =>
      if buffer.length < 4 then ⟨.ok none, .head, buffer⟩
      else if limit < headValue (buffer.take 4) then ⟨.error (), .head, buffer⟩
      else decodeData (headValue (buffer.take 4)) (buffer.drop 4)
  | .data length => decodeData length buffer

/-- The bytes that the decoder has taken out of the buffer and not yet given out. -/
def State.taken : State → Bytes
  | .head => []
  | .data length => LengthDelimited.head length

def State.Bounded : State → Prop
  | .head => True
  | .data length => length < 2 ^ 32

@[simp] theorem taken_head : State.head.taken = [] := rfl

@[simp] theorem head_length (length : Nat) : (head length).length = 4 := rfl

theorem headValue_head {length : Nat} (bounded : length < 2 ^ 32) :
    headValue (head length) = length := by
  simp only [headValue, head, List.foldl_cons, List.foldl_nil, UInt8.toNat_ofNat']
  omega

theorem headValue_lt {bytes : Bytes} (four : bytes.length = 4) : headValue bytes < 2 ^ 32 := by
  obtain ⟨first, second, third, fourth, rfl⟩ := List.length_eq_four.mp four
  have := first.toNat_lt
  have := second.toNat_lt
  have := third.toNat_lt
  have := fourth.toNat_lt
  simp only [headValue, List.foldl_cons, List.foldl_nil]
  omega

theorem head_headValue {bytes : Bytes} (four : bytes.length = 4) :
    head (headValue bytes) = bytes := by
  obtain ⟨first, second, third, fourth, rfl⟩ := List.length_eq_four.mp four
  have := first.toNat_lt
  have := second.toNat_lt
  have := third.toNat_lt
  have := fourth.toNat_lt
  simp only [head, headValue, List.foldl_cons, List.foldl_nil, List.cons.injEq, and_true]
  refine ⟨?_, ?_, ?_, ?_⟩ <;> apply UInt8.toNat_inj.mp <;> rw [UInt8.toNat_ofNat'] <;> omega

/-- A call of the decoder loses no byte: a frame that it gives out stood in front of what it
keeps, and otherwise it keeps everything. -/
theorem decodeData_bytes {length : Nat} (bounded : length < 2 ^ 32) (buffer : Bytes) :
    let next := decodeData length buffer
    (∀ payload, next.result = .ok (some payload) →
      next.state = .head ∧ payload.length < 2 ^ 32 ∧
        head length ++ buffer = frame payload ++ next.buffer) ∧
    ((∀ payload, next.result ≠ .ok (some payload)) →
      next.state.Bounded ∧ head length ++ buffer = next.state.taken ++ next.buffer) := by
  unfold decodeData
  split
  · exact ⟨(fun payload same => by cases same), fun _ => ⟨bounded, rfl⟩⟩
  · rename_i enough
    refine ⟨?_, fun none => absurd rfl (none _)⟩
    intro payload same
    cases same
    have full : (buffer.take length).length = length := by
      rw [List.length_take]
      omega
    refine ⟨rfl, by omega, ?_⟩
    rw [frame, full, List.append_assoc, List.take_append_drop]

theorem decode_bytes (limit : Nat) {state : State} (bounded : state.Bounded) (buffer : Bytes) :
    let next := decode limit state buffer
    (∀ payload, next.result = .ok (some payload) →
      next.state = .head ∧ payload.length < 2 ^ 32 ∧
        state.taken ++ buffer = frame payload ++ next.buffer) ∧
    ((∀ payload, next.result ≠ .ok (some payload)) →
      next.state.Bounded ∧ state.taken ++ buffer = next.state.taken ++ next.buffer) := by
  cases state with
  | data length => exact decodeData_bytes bounded buffer
  | head =>
      simp only [decode]
      split
      · exact ⟨(fun payload same => by cases same), fun _ => ⟨trivial, rfl⟩⟩
      · split
        · exact ⟨(fun payload same => by cases same), fun _ => ⟨trivial, rfl⟩⟩
        · have four : (buffer.take 4).length = 4 := by
            rw [List.length_take]
            omega
          have whole : head (headValue (buffer.take 4)) ++ buffer.drop 4 = buffer := by
            rw [head_headValue four, List.take_append_drop]
          have next := decodeData_bytes (headValue_lt four) (buffer.drop 4)
          rw [whole] at next
          exact next

/-- The bytes determine the frame they start with. -/
theorem frame_cancel {payload other rest tail : Bytes} (short : payload.length < 2 ^ 32)
    (bounded : other.length < 2 ^ 32) (same : frame payload ++ rest = frame other ++ tail) :
    payload = other ∧ rest = tail := by
  simp only [frame, List.append_assoc] at same
  obtain ⟨heads, bodies⟩ := List.append_inj same rfl
  have lengths : payload.length = other.length := by
    rw [← headValue_head short, heads, headValue_head bounded]
  exact List.append_inj bodies lengths

/-- What a call of the decoder gives when a frame within the limit comes first: this frame, or
nothing as long as it is not complete. -/
theorem decodeData_of_frame {length : Nat} (bounded : length < 2 ^ 32) {buffer tail : Bytes}
    {payload more : Bytes} (short : payload.length < 2 ^ 32)
    (comes : head length ++ (buffer ++ tail) = frame payload ++ more) :
    (decodeData length buffer).result = .ok (some payload) ∨
      ((decodeData length buffer).result = .ok none ∧ buffer.length < payload.length) := by
  simp only [frame, List.append_assoc] at comes
  obtain ⟨heads, bodies⟩ := List.append_inj comes rfl
  have same : length = payload.length := by
    rw [← headValue_head bounded, heads, headValue_head short]
  unfold decodeData
  split
  · rename_i fewer
    exact Or.inr ⟨rfl, same ▸ fewer⟩
  · rename_i enough
    have prefixes : (buffer ++ tail).take length = payload := by
      rw [bodies, same, List.take_left]
    rw [List.take_append_of_le_length (Nat.not_lt.mp enough)] at prefixes
    exact Or.inl (congrArg (fun given => Except.ok (some given)) prefixes)

theorem decode_of_frame {limit : Nat} {state : State} (bounded : state.Bounded)
    {buffer tail payload more : Bytes} (fits : payload.length ≤ limit) (small : limit < 2 ^ 32)
    (comes : state.taken ++ (buffer ++ tail) = frame payload ++ more) :
    (decode limit state buffer).result = .ok (some payload) ∨
      ((decode limit state buffer).result = .ok none ∧
        (state.taken ++ buffer).length < (frame payload).length) := by
  have short : payload.length < 2 ^ 32 := Nat.lt_of_le_of_lt fits small
  have frameLength : (frame payload).length = 4 + payload.length := by simp [frame]
  cases state with
  | data length =>
      have taken : (State.data length).taken.length = 4 := rfl
      rcases decodeData_of_frame bounded short comes with given | ⟨none, fewer⟩
      · exact Or.inl given
      · refine Or.inr ⟨none, ?_⟩
        rw [List.length_append, taken, frameLength]
        omega
  | head =>
      simp only [taken_head, List.nil_append, decode] at comes ⊢
      split
      · refine Or.inr ⟨rfl, ?_⟩
        omega
      · rename_i enough
        have four : (buffer.take 4).length = 4 := by
          rw [List.length_take]
          omega
        have first : buffer.take 4 = head payload.length := by
          have heads := congrArg (List.take 4) comes
          rw [List.take_append_of_le_length (by omega), frame, List.append_assoc] at heads
          exact heads
        have value : headValue (buffer.take 4) = payload.length := by
          rw [first, headValue_head short]
        have cut : head payload.length ++ (buffer.drop 4 ++ tail) = frame payload ++ more := by
          rw [← first, ← List.append_assoc, List.take_append_drop, comes]
        rw [value, if_neg (Nat.not_lt.mpr fits)]
        rcases decodeData_of_frame short short cut with given | ⟨none, fewer⟩
        · exact Or.inl given
        · refine Or.inr ⟨none, ?_⟩
          rw [List.length_drop] at fewer
          omega

/-- A decoder that needs more bytes needs them still when it is called again. -/
theorem decode_again {limit : Nat} {state : State} {buffer : Bytes}
    (waits : (decode limit state buffer).result = .ok none) :
    (decode limit (decode limit state buffer).state (decode limit state buffer).buffer).result =
      .ok none := by
  have again : ∀ length rest, (decodeData length rest).result = .ok none →
      (decode limit (decodeData length rest).state (decodeData length rest).buffer).result =
        .ok none := by
    intro length rest none
    unfold decodeData at none ⊢
    split
    · rename_i fewer
      simp only [decode, decodeData, if_pos fewer]
    · rename_i enough
      rw [if_neg enough] at none
      cases none
  cases state with
  | data length => exact again length buffer waits
  | head =>
      simp only [decode] at waits ⊢
      split at waits
      · rename_i fewer
        simp only [if_pos fewer]
      · rename_i enough
        split at waits
        · cases waits
        · rename_i within
          simp only [if_neg enough, if_neg within]
          exact again _ _ waits

/-- The frames of a list of payloads, one after the other. -/
def frames (payloads : List Bytes) : Bytes := (payloads.map frame).flatten

@[simp] theorem frames_nil : frames [] = [] := rfl

@[simp] theorem frames_cons (payload : Bytes) (rest : List Bytes) :
    frames (payload :: rest) = frame payload ++ frames rest := rfl

@[simp] theorem frames_append (first second : List Bytes) :
    frames (first ++ second) = frames first ++ frames second := by
  simp only [frames, List.map_append, List.flatten_append]

/-- What has been cut into frames can be cut in one way only. -/
theorem frames_cancel {payloads cut : List Bytes} {rest tail : Bytes}
    (short : ∀ payload ∈ payloads, payload.length < 2 ^ 32)
    (bounded : ∀ payload ∈ cut, payload.length < 2 ^ 32) (fewer : cut.length ≤ payloads.length)
    (same : frames payloads ++ tail = frames cut ++ rest) :
    cut = payloads.take cut.length ∧ rest = frames (payloads.drop cut.length) ++ tail := by
  induction cut generalizing payloads with
  | nil => exact ⟨rfl, same.symm⟩
  | cons first others ih =>
      cases payloads with
      | nil => simp only [List.length_cons, List.length_nil] at fewer; omega
      | cons payload payloads =>
          simp only [List.length_cons, Nat.add_le_add_iff_right] at fewer
          simp only [List.mem_cons, forall_eq_or_imp] at short bounded
          simp only [frames_cons, List.append_assoc] at same
          obtain ⟨rfl, rests⟩ := frame_cancel short.1 bounded.1 same
          obtain ⟨taken, left⟩ := ih short.2 bounded.2 fewer rests
          refine ⟨?_, left⟩
          rw [List.length_cons, List.take_succ_cons, ← taken]

/-- Fed with frames within the limit, the decoder gives the first of them, or waits for bytes that
are still to come. -/
theorem decode_of_frames {limit : Nat} {state : State} (bounded : state.Bounded)
    {buffer tail : Bytes} {payloads : List Bytes}
    (fits : ∀ payload ∈ payloads, payload.length ≤ limit) (small : limit < 2 ^ 32)
    (comes : state.taken ++ (buffer ++ tail) = frames payloads) :
    (∃ payload rest, payloads = payload :: rest ∧
      (decode limit state buffer).result = .ok (some payload)) ∨
    ((decode limit state buffer).result = .ok none ∧ (tail = [] → payloads = [])) := by
  cases payloads with
  | nil =>
      have empty := List.append_eq_nil_iff.mp comes
      cases state with
      | data length => exact absurd empty.1 (List.cons_ne_nil _ _)
      | head =>
          refine Or.inr ⟨?_, fun _ => rfl⟩
          rw [(List.append_eq_nil_iff.mp empty.2).1]
          rfl
  | cons payload rest =>
      rw [frames_cons] at comes
      rcases decode_of_frame bounded (fits payload List.mem_cons_self) small comes with
        given | ⟨none, fewer⟩
      · exact Or.inl ⟨payload, rest, rfl, given⟩
      · refine Or.inr ⟨none, ?_⟩
        rintro rfl
        have lengths := congrArg List.length comes
        rw [List.append_nil, List.length_append, List.length_append] at lengths
        rw [List.length_append] at fewer
        omega

end LengthDelimited
