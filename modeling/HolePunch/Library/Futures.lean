import Mathlib.Data.List.Basic

set_option autoImplicit false

/- Poll-based futures: the result of polling one, the result of one handler of a state machine
made of them, and a set of futures polled together. -/
namespace Futures

inductive Poll (ε α : Type) where
  | notReady
  | ready (value : α)
  | error (reason : ε)
  deriving DecidableEq, Repr

/-- What the handler of a state returns: it stays, moves on, completes the machine, fails it, or
panics. -/
inductive Handled (ε σ α : Type) where
  | notReady
  | transition (next : σ)
  | ready (value : α)
  | error (reason : ε)
  | panic (message : String)
  deriving DecidableEq, Repr

/-- Polls a set of futures of which `completion` names the one that is done, if any, and its
result. A future leaves the set when it completes, also with an error. -/
def pollUnordered {ε α β : Type} (pending : List α) (completion : Option (Nat × Except ε β)) :
    List α × Poll ε (Option β) :=
  match pending, completion with
  | [], _ => ([], .ready none)
  | _, none => (pending, .notReady)
  | _, some (index, result) =>
      if index < pending.length then
        (pending.eraseIdx index, match result with
          | .ok value => .ready (some value)
          | .error reason => .error reason)
      else (pending, .notReady)

/-- A future of the set that is done leaves it with its result. -/
theorem pollUnordered_of_lt {ε α β : Type} {pending : List α} {index : Nat}
    (inside : index < pending.length) (result : Except ε β) :
    pollUnordered pending (some (index, result)) =
      (pending.eraseIdx index, match result with
        | .ok value => .ready (some value)
        | .error reason => .error reason) := by
  cases pending with
  | nil => cases inside
  | cons first rest => simp only [pollUnordered, if_pos inside]

/-- A value comes from a future of the set. -/
theorem pollUnordered_ready {ε α β : Type} {pending left : List α}
    {completion : Option (Nat × Except ε β)} {value : β}
    (polled : pollUnordered pending completion = (left, .ready (some value))) :
    ∃ index, index < pending.length ∧ completion = some (index, .ok value) := by
  unfold pollUnordered at polled
  split at polled
  · cases polled
  · cases polled
  · rename_i index result _
    split at polled
    · rename_i within
      cases result with
      | ok given =>
          cases polled
          exact ⟨index, within, rfl⟩
      | error reason => cases polled
    · cases polled

/-- All that a poll of a set of futures can give. -/
theorem pollUnordered_cases {ε α β : Type} (pending : List α)
    (completion : Option (Nat × Except ε β)) :
    ((pollUnordered pending completion).2 = .ready none ∧ pending = []) ∨
    (∃ index value, completion = some (index, .ok value) ∧ index < pending.length ∧
      (pollUnordered pending completion).2 = .ready (some value)) ∨
    (∃ index reason, completion = some (index, .error reason) ∧ index < pending.length ∧
      (pollUnordered pending completion).2 = .error reason) ∨
    ((pollUnordered pending completion).2 = .notReady ∧
      ∀ index result, completion = some (index, result) → pending.length ≤ index) := by
  cases pending with
  | nil => exact Or.inl ⟨rfl, rfl⟩
  | cons first rest =>
      cases completion with
      | none =>
          refine Or.inr (Or.inr (Or.inr ⟨rfl, ?_⟩))
          intro index result completed
          cases completed
      | some completed =>
          obtain ⟨index, result⟩ := completed
          by_cases inside : index < (first :: rest).length
          · cases result with
            | ok value =>
                refine Or.inr (Or.inl ⟨index, value, rfl, inside, ?_⟩)
                simp only [pollUnordered, if_pos inside]
            | error reason =>
                refine Or.inr (Or.inr (Or.inl ⟨index, reason, rfl, inside, ?_⟩))
                simp only [pollUnordered, if_pos inside]
          · refine Or.inr (Or.inr (Or.inr ⟨?_, ?_⟩))
            · simp only [pollUnordered, if_neg inside]
            · intro other given same
              cases same
              exact Nat.le_of_not_lt inside

/-- Joins futures of which the first to succeed gives the result. There must be one. -/
def selectOk {α : Type} (futures : List α) : Except String (List α) :=
  match futures with
  | [] => .error "assertion failed: ret.inner.len() > 0"
  | _ :: _ => .ok futures

theorem selectOk_of_ne_nil {α : Type} {futures : List α} (given : futures ≠ []) :
    selectOk futures = .ok futures := by
  cases futures with
  | nil => exact absurd rfl given
  | cons first rest => rfl

end Futures
