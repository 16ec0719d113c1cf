import Mathlib.Logic.Function.Basic
import Mathlib.Data.List.Basic

set_option autoImplicit false

/- One call of `poll` that polls several sources: how far it gets, and what each source answered
last. -/
namespace Futures

/-- What a source answered. `renewed` is a timer that was created or reset and not polled since. -/
inductive Wake where
  | notReady
  | ready
  | ended
  | renewed
  deriving DecidableEq, Repr

/-- What each source answered the last time it was polled in a call, if it was. -/
abbrev Answered (κ : Type) := κ → Option Wake

namespace Answered

variable {κ : Type} [DecidableEq κ]

def unpolled : Answered κ := fun _ => none

def poll (last : Answered κ) (source : κ) (answer : Wake) : Answered κ :=
  Function.update last source (some answer)

/-- A set of sources that is polled as one. -/
def pollAll (last : Answered κ) (sources : List κ) (answer : Wake) : Answered κ :=
  fun source => if source ∈ sources then some answer else last source

/-- The task is woken by the source, unless it has ended and gives no more events. -/
def Arranged (last : Answered κ) (source : κ) : Prop :=
  last source = some .notReady ∨ last source = some .ended

@[simp] theorem poll_self (last : Answered κ) (source : κ) (answer : Wake) :
    last.poll source answer source = some answer :=
  Function.update_self ..

theorem poll_of_ne (last : Answered κ) {source other : κ} (answer : Wake)
    (different : other ≠ source) : last.poll source answer other = last other :=
  Function.update_of_ne different ..

theorem pollAll_of_mem (last : Answered κ) {sources : List κ} {source : κ} (answer : Wake)
    (member : source ∈ sources) : last.pollAll sources answer source = some answer :=
  if_pos member

theorem pollAll_of_not_mem (last : Answered κ) {sources : List κ} {source : κ} (answer : Wake)
    (absent : source ∉ sources) : last.pollAll sources answer source = last source :=
  if_neg absent

end Answered

/-- A call of `poll` goes on, returns with the future completed or failed, or panics. -/
inductive Progress (α : Type) where
  | goesOn (value : α)
  | finished
  | panicked (message : String)
  deriving DecidableEq, Repr

namespace Progress

variable {α β : Type}

def bind : Progress α → (α → Progress β) → Progress β
  | .goesOn value, next => next value
  | .finished, _ => .finished
  | .panicked message, _ => .panicked message

instance : Monad Progress where
  pure := .goesOn
  bind := Progress.bind

def ofExcept : Except String α → Progress α
  | .ok value => .goesOn value
  | .error message => .panicked message

theorem bind_eq_goesOn_iff {x : Progress α} {next : α → Progress β} {last : β} :
    x >>= next = .goesOn last ↔ ∃ value, x = .goesOn value ∧ next value = .goesOn last := by
  cases x with
  | goesOn value =>
      constructor
      · intro reached
        exact ⟨value, rfl, reached⟩
      · rintro ⟨_, same, reached⟩
        cases same
        exact reached
  | finished =>
      constructor
      · intro impossible
        cases impossible
      · rintro ⟨_, impossible, _⟩
        cases impossible
  | panicked message =>
      constructor
      · intro impossible
        cases impossible
      · rintro ⟨_, impossible, _⟩
        cases impossible

theorem ofExcept_eq_goesOn_iff {result : Except String α} {value : α} :
    ofExcept result = .goesOn value ↔ result = .ok value := by
  cases result with
  | ok given => simp [ofExcept]
  | error message => simp [ofExcept]

def map (view : α → β) : Progress α → Progress β
  | .goesOn value => .goesOn (view value)
  | .finished => .finished
  | .panicked message => .panicked message

theorem map_eq_ofExcept {view : α → β} {x : Progress α} {result : Except String β}
    (seen : x.map view = ofExcept result) :
    (∃ value, x = .goesOn value ∧ result = .ok (view value)) ∨
      ∃ message, x = .panicked message ∧ result = .error message := by
  cases x with
  | goesOn value =>
      cases result with
      | ok given =>
          cases seen
          exact Or.inl ⟨value, rfl, rfl⟩
      | error message => cases seen
  | finished => cases result <;> cases seen
  | panicked message =>
      cases result with
      | ok given => cases seen
      | error other =>
          cases seen
          exact Or.inr ⟨message, rfl, rfl⟩

/-- A loop whose turns are seen as those of another loop is seen as that loop. -/
theorem map_foldlM {ι : Type} {handler : α → ι → Progress α} {base : β → ι → Except String β}
    (view : α → β) (seen : ∀ s item, (handler s item).map view = ofExcept (base (view s) item))
    (items : List ι) (start : α) :
    (items.foldlM handler start).map view = ofExcept (items.foldlM base (view start)) := by
  induction items generalizing start with
  | nil => rfl
  | cons item rest ih =>
      rw [List.foldlM_cons, List.foldlM_cons]
      rcases map_eq_ofExcept (seen start item) with
        ⟨next, turned, handled⟩ | ⟨message, turned, handled⟩
      · rw [turned, handled]
        exact ih next
      · rw [turned, handled]
        rfl

/-- What each turn of a loop keeps, a loop that goes on keeps. -/
theorem foldlM_goesOn {handler : α → β → Progress α} (property : α → Prop) {items : List β}
    (kept : ∀ s next item, handler s item = .goesOn next → property s → property next)
    {start last : α} (initial : property start)
    (looped : items.foldlM handler start = .goesOn last) : property last := by
  induction items generalizing start with
  | nil =>
      cases looped
      exact initial
  | cons item rest ih =>
      rw [List.foldlM_cons, bind_eq_goesOn_iff] at looped
      obtain ⟨next, handled, reached⟩ := looped
      exact ih (kept start next item handled initial) reached

/-- A loop each of whose turns goes on, in the states that it keeps, goes on. -/
theorem foldlM_exists {handler : α → β → Progress α} (property : α → Prop) {items : List β}
    (kept : ∀ s, ∀ item ∈ items, property s → ∃ next, handler s item = .goesOn next ∧ property next)
    {start : α} (initial : property start) :
    ∃ last, items.foldlM handler start = .goesOn last ∧ property last := by
  induction items generalizing start with
  | nil => exact ⟨start, rfl, initial⟩
  | cons item rest ih =>
      obtain ⟨next, handled, holds⟩ := kept start item List.mem_cons_self initial
      rw [List.foldlM_cons, handled]
      exact ih (fun s later member => kept s later (List.mem_cons_of_mem item member)) holds

end Progress

end Futures
