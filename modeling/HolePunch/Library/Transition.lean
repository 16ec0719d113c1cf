import Mathlib.Data.List.Basic

set_option autoImplicit false

/- Deterministic labelled transition systems: runs over lists of events, invariants
of whole runs, and properties of every state a run passes through. -/
namespace Transition

variable {σ ε : Type} (step : σ → ε → σ)

def run (start : σ) (events : List ε) : σ := events.foldl step start

theorem run_append (start : σ) (first second : List ε) :
    run step start (first ++ second) = run step (run step start first) second :=
  List.foldl_append

theorem run_snoc (start : σ) (events : List ε) (event : ε) :
    run step start (events ++ [event]) = step (run step start events) event :=
  run_append step start events [event]

theorem run_invariant {step} (inv : σ → Prop)
    (preserved : ∀ s event, inv s → inv (step s event))
    {start : σ} (initial : inv start) (events : List ε) : inv (run step start events) := by
  induction events generalizing start with
  | nil => exact initial
  | cons event rest ih => exact ih (preserved start event initial)

/-- A state that no event changes is never left. -/
theorem run_fixed {step} {start : σ} (fixed : ∀ event : ε, step start event = start)
    (events : List ε) : run step start events = start := by
  have preserved : ∀ s event, s = start → step s event = start := by
    rintro s event rfl
    exact fixed event
  exact run_invariant (fun reached => reached = start) preserved rfl events

/-- An invariant that a step keeps only on the events that are allowed. -/
theorem run_invariant_of {step} (inv : σ → Prop) (allowed : ε → Prop)
    (preserved : ∀ s event, allowed event → inv s → inv (step s event))
    {start : σ} (initial : inv start) {events : List ε} (all : ∀ event ∈ events, allowed event) :
    inv (run step start events) := by
  induction events generalizing start with
  | nil => exact initial
  | cons event rest ih =>
      have first : allowed event := all event List.mem_cons_self
      exact ih (preserved start event first initial)
        (fun later member => all later (List.mem_cons_of_mem event member))

/-- Steps that may fail keep going while an invariant rules out the failure. -/
theorem foldlM_invariant {κ : Type} {step : σ → ε → Except κ σ} (inv : σ → Prop)
    {start : σ} (initial : inv start) {events : List ε}
    (preserved : ∀ s, ∀ event ∈ events, inv s → ∃ next, step s event = .ok next ∧ inv next) :
    ∃ last, events.foldlM step start = .ok last ∧ inv last := by
  induction events generalizing start with
  | nil => exact ⟨start, rfl, initial⟩
  | cons event rest ih =>
      obtain ⟨next, stepped, kept⟩ := preserved start event List.mem_cons_self initial
      rw [List.foldlM_cons, stepped]
      exact ih kept (fun s later member => preserved s later (List.mem_cons_of_mem event member))

/-- A property of every state that a run passes through, the first and last included. -/
def Throughout (property : σ → Prop) (start : σ) (events : List ε) : Prop :=
  ∀ before, before <+: events → property (run step start before)

/-- Every step of a run meets a condition on the state before it and its event. -/
def Meets (condition : σ → ε → Prop) : σ → List ε → Prop
  | _, [] => True
  | start, event :: rest => condition start event ∧ Meets condition (step start event) rest

theorem meets_append (condition : σ → ε → Prop) (start : σ) (first second : List ε) :
    Meets step condition start (first ++ second) ↔
      Meets step condition start first ∧ Meets step condition (run step start first) second := by
  induction first generalizing start with
  | nil =>
      simp only [List.nil_append, Meets, true_and]
      exact Iff.rfl
  | cons event rest ih =>
      simp only [List.cons_append, Meets, ih, and_assoc]
      exact Iff.rfl

theorem meets_and {step} {first second : σ → ε → Prop} {start : σ} {events : List ε}
    (one : Meets step first start events) (other : Meets step second start events) :
    Meets step (fun s event => first s event ∧ second s event) start events := by
  induction events generalizing start with
  | nil => trivial
  | cons event rest ih => exact ⟨⟨one.1, other.1⟩, ih one.2 other.2⟩

/-- An invariant that the steps keep under a condition. -/
theorem run_invariant_of_meets {step} (inv : σ → Prop) {condition : σ → ε → Prop}
    (preserved : ∀ s event, condition s event → inv s → inv (step s event))
    {start : σ} (initial : inv start) {events : List ε}
    (met : Meets step condition start events) : inv (run step start events) := by
  induction events generalizing start with
  | nil => exact initial
  | cons event rest ih => exact ih (preserved start event met.1 initial) met.2

/-- Steps that meet a condition meet what follows from it in the states of an invariant. -/
theorem meets_of_meets {step} {inv : σ → Prop} {condition property : σ → ε → Prop}
    (kept : ∀ s event, inv s → condition s event → property s event ∧ inv (step s event))
    {start : σ} (initial : inv start) {events : List ε}
    (met : Meets step condition start events) : Meets step property start events := by
  induction events generalizing start with
  | nil => trivial
  | cons event rest ih =>
      obtain ⟨now, next⟩ := kept start event initial met.1
      exact ⟨now, ih next met.2⟩

/-- Events that meet a condition in every state meet it along every run. -/
theorem meets_of_forall {step} {condition : σ → ε → Prop} {events : List ε}
    (all : ∀ s, ∀ event ∈ events, condition s event) (start : σ) :
    Meets step condition start events := by
  induction events generalizing start with
  | nil => trivial
  | cons event rest ih =>
      refine ⟨all start event List.mem_cons_self, ih ?_ _⟩
      intro s later member
      exact all s later (List.mem_cons_of_mem event member)

/-- Every step meets a condition that an invariant ensures. -/
theorem meets_of_invariant {step} {inv : σ → Prop} {condition : σ → ε → Prop}
    (ensured : ∀ s event, inv s → condition s event)
    (preserved : ∀ s event, inv s → inv (step s event))
    {start : σ} (initial : inv start) (events : List ε) : Meets step condition start events := by
  induction events generalizing start with
  | nil => trivial
  | cons event rest ih => exact ⟨ensured start event initial, ih (preserved start event initial)⟩

/-- How many events of a run change the state. -/
def changes [DecidableEq σ] : σ → List ε → Nat
  | _, [] => 0
  | s, event :: rest => (if step s event = s then 0 else 1) + changes (step s event) rest

/-- Steps that lower a measure whenever they change the state do so only as often as it allows. -/
theorem changes_le [DecidableEq σ] {step} (inv : σ → Prop) {condition : σ → ε → Prop}
    (measure : σ → Nat)
    (lowers : ∀ s event, condition s event → inv s →
      step s event = s ∨ inv (step s event) ∧ measure (step s event) < measure s)
    {start : σ} (initial : inv start) {events : List ε}
    (met : Meets step condition start events) :
    changes step start events + measure (run step start events) ≤ measure start := by
  induction events generalizing start with
  | nil => exact Nat.le_of_eq (Nat.zero_add _)
  | cons event rest ih =>
      have unfolded : changes step start (event :: rest) =
          (if step start event = start then 0 else 1) + changes step (step start event) rest := rfl
      have last : run step start (event :: rest) = run step (step start event) rest := rfl
      rw [unfolded, last]
      rcases lowers start event met.1 initial with same | ⟨kept, lower⟩
      · have later := ih (same.symm ▸ initial) met.2
        rw [if_pos same]
        rw [same] at later ⊢
        omega
      · have later := ih kept met.2
        split <;> omega

/-- Where every state is done or has a step that lowers a measure, every state can be brought to
its end. -/
theorem exists_run_done {step} (inv : σ → Prop) {done : σ → Prop} {condition : σ → ε → Prop}
    (measure : σ → Nat)
    (proceeds : ∀ s, inv s → done s ∨ ∃ event, condition s event ∧ inv (step s event) ∧
      measure (step s event) < measure s) {start : σ} (initial : inv start) :
    ∃ events, Meets step condition start events ∧ done (run step start events) := by
  induction size : measure start using Nat.strongRecOn generalizing start with
  | ind bound ih =>
      rcases proceeds start initial with finished | ⟨event, met, kept, lower⟩
      · exact ⟨[], trivial, finished⟩
      · obtain ⟨rest, later, finished⟩ := ih _ (size ▸ lower) kept rfl
        exact ⟨event :: rest, ⟨met, later⟩, finished⟩

@[simp] theorem throughout_nil (property : σ → Prop) (start : σ) :
    Throughout step property start [] ↔ property start := by
  constructor
  · intro always
    exact always [] (List.prefix_refl [])
  · intro holds before isPrefix
    rw [List.prefix_nil.mp isPrefix]
    exact holds

@[simp] theorem throughout_cons (property : σ → Prop) (start : σ) (event : ε) (rest : List ε) :
    Throughout step property start (event :: rest) ↔
      property start ∧ Throughout step property (step start event) rest := by
  constructor
  · intro always
    refine ⟨always [] List.nil_prefix, ?_⟩
    intro before isPrefix
    exact always (event :: before) (List.cons_prefix_cons.mpr ⟨rfl, isPrefix⟩)
  · rintro ⟨first, later⟩ before isPrefix
    cases before with
    | nil => exact first
    | cons head tail =>
        obtain ⟨rfl, tailPrefix⟩ := List.cons_prefix_cons.mp isPrefix
        exact later tail tailPrefix

/-- Where one step keeps a property exactly under a condition, in every state of an invariant, a
whole run keeps it exactly when each of its steps meets that condition. -/
theorem throughout_iff_meets_of {step} {inv property : σ → Prop} {condition : σ → ε → Prop}
    (preserved : ∀ s event, inv s → inv (step s event))
    (exactly : ∀ s event, inv s → property s → (property (step s event) ↔ condition s event))
    {start : σ} (initial : inv start) (holds : property start) (events : List ε) :
    Throughout step property start events ↔ Meets step condition start events := by
  induction events generalizing start with
  | nil => simp only [throughout_nil, holds, Meets]
  | cons event rest ih =>
      have kept : inv (step start event) := preserved start event initial
      have one := exactly start event initial holds
      simp only [throughout_cons, Meets, holds, true_and]
      constructor
      · intro always
        have now : property (step start event) := always [] List.nil_prefix
        exact ⟨one.mp now, (ih kept now).mp always⟩
      · rintro ⟨met, later⟩
        exact (ih kept (one.mpr met)).mpr later

/-- The same where the step needs no invariant. -/
theorem throughout_iff_meets {step} {property : σ → Prop} {condition : σ → ε → Prop}
    (exactly : ∀ s event, property s → (property (step s event) ↔ condition s event))
    {start : σ} (holds : property start) (events : List ε) :
    Throughout step property start events ↔ Meets step condition start events := by
  have preserved : ∀ s event, (fun _ : σ => True) s → (fun _ : σ => True) (step s event) :=
    fun _ _ _ => trivial
  exact throughout_iff_meets_of preserved (fun s event _ => exactly s event) trivial holds events

end Transition
