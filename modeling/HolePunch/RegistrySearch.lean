import HolePunch.Context
import HolePunch.Library.Transition
import Mathlib.Data.List.Nodup
import Mathlib.Data.List.Perm.Basic

set_option autoImplicit false

/- The search for a peer through any number of registry providers (`registry.rs`), whatever they
answer and in whatever order their futures complete. -/
namespace HolePunch

/-- The future of a provider, by its place in the set, and what it has completed with. -/
abbrev Completion := Nat × Except Unit RegistryResult

/-- A search, with the providers whose futures are in the set, those whose futures have completed
in the order of their completion, and what the search has resolved to. -/
structure Searching where
  futures : List RegistryProvider
  waiting : List Nat
  completed : List Completion
  resolved : Option (Except Error RegistryResult)

namespace Searching

def new (registries : List RegistryProvider) : Searching :=
  ⟨registries, List.range registries.length, [], none⟩

/-- The future that completes leaves the set, and its provider is noted. -/
def observe (s : Searching) (completion : Option Completion) : Searching :=
  match completion with
  | none => s
  | some (index, result) =>
      match s.waiting[index]? with
      | none => s
      | some provider => { s with
          waiting := s.waiting.eraseIdx index
          completed := s.completed ++ [(provider, result)] }

/-- One turn of the loop, and whether the loop goes on. -/
def turn (s : Searching) (completion : Option Completion) : Bool × Searching :=
  match SearchRemoteRegistries.turn s.futures completion with
  | .transition left => (true, { s.observe completion with futures := left })
  | .ready result => (false, { s.observe completion with resolved := some (.ok result) })
  | .error reason => (false, { s.observe completion with resolved := some (.error reason) })
  | .notReady => (false, s)
  | .panic _ => (false, s)

/-- The loop, for so many turns at most. `answers` says which future completes in which turn. -/
def turns : Nat → (Nat → Option Completion) → Searching → Option Searching
  | 0, _, _ => none
  | fuel + 1, answers, s =>
      match s.turn (answers 0) with
      | (true, next) => turns fuel (fun later => answers (later + 1)) next
      | (false, next) => some next

/-- A search that has resolved is not polled again. -/
def poll (s : Searching) (answers : Nat → Option Completion) : Searching :=
  match s.resolved with
  | some _ => s
  | none => (turns (s.futures.length + 1) answers s).getD s

/-- The answer of a provider that fails or does not know the peer. -/
def negative : Except Unit RegistryResult → Bool
  | .ok .notFound => true
  | .ok _ => false
  | .error _ => true

theorem negative_ok_iff (result : RegistryResult) :
    negative (.ok result) = true ↔ result = .notFound := by
  cases result <;> simp [negative]

/-- All that a turn can do. -/
inductive TurnEffect (s : Searching) : Bool × Searching → Prop
  | exhausted (empty : s.futures = []) :
      TurnEffect s (false, { s with resolved := some (.ok .notFound) })
  | pending (filled : s.futures ≠ []) : TurnEffect s (false, s)
  | denied {index provider : Nat} {result : Except Unit RegistryResult}
      (waited : s.waiting[index]? = some provider) (denies : negative result = true) :
      TurnEffect s (true, { s with
        futures := s.futures.eraseIdx index
        waiting := s.waiting.eraseIdx index
        completed := s.completed ++ [(provider, result)] })
  | found {index provider : Nat} {result : RegistryResult}
      (waited : s.waiting[index]? = some provider) (knows : result ≠ .notFound) :
      TurnEffect s (false, { s with
        waiting := s.waiting.eraseIdx index
        completed := s.completed ++ [(provider, .ok result)]
        resolved := some (.ok result) })

theorem observe_some {s : Searching} {index provider : Nat} (result : Except Unit RegistryResult)
    (waited : s.waiting[index]? = some provider) :
    s.observe (some (index, result)) = { s with
      waiting := s.waiting.eraseIdx index
      completed := s.completed ++ [(provider, result)] } := by
  simp only [observe, waited]

/-- A future of the set that completes ends the search or leaves the set. -/
theorem turn_effect_of_lt {s : Searching} {index provider : Nat}
    (inside : index < s.futures.length) (waited : s.waiting[index]? = some provider)
    (result : Except Unit RegistryResult) :
    TurnEffect s (s.turn (some (index, result))) := by
  have polled := Futures.pollUnordered_of_lt inside result
  have denied : negative result = true →
      SearchRemoteRegistries.turn s.futures (some (index, result)) =
        .transition (s.futures.eraseIdx index) → TurnEffect s (s.turn (some (index, result))) := by
    intro denies next
    simp only [turn, next, observe_some result waited]
    exact .denied waited denies
  cases result with
  | error reason =>
      apply denied rfl
      simp only [SearchRemoteRegistries.turn, polled]
  | ok answer =>
      by_cases missing : answer = .notFound
      · subst missing
        apply denied rfl
        simp only [SearchRemoteRegistries.turn, polled]
      · have ready : SearchRemoteRegistries.turn s.futures (some (index, .ok answer)) =
            .ready answer := by
          cases answer with
          | notFound => exact absurd rfl missing
          | _ => simp only [SearchRemoteRegistries.turn, polled]
        simp only [turn, ready, observe_some (.ok answer) waited]
        exact .found waited missing

theorem waiting_eq_nil_iff {s : Searching} (aligned : s.waiting.length = s.futures.length) :
    s.waiting = [] ↔ s.futures = [] := by
  rw [← List.length_eq_zero_iff, ← List.length_eq_zero_iff, aligned]

theorem turn_effect {s : Searching} (aligned : s.waiting.length = s.futures.length)
    (completion : Option Completion) : TurnEffect s (s.turn completion) := by
  cases pending : s.futures with
  | nil =>
      have none : s.waiting = [] := (waiting_eq_nil_iff aligned).mpr pending
      have same : s.observe completion = s := by
        unfold observe
        split
        · rfl
        · simp only [none, List.getElem?_nil]
      have turned : s.turn completion = (false, { s with resolved := some (.ok .notFound) }) := by
        simp only [turn, SearchRemoteRegistries.turn, pending, Futures.pollUnordered, same]
      rw [turned]
      exact .exhausted pending
  | cons first rest =>
      have filled : s.futures ≠ [] := by
        rw [pending]
        exact List.cons_ne_nil first rest
      cases completion with
      | none =>
          have turned : s.turn none = (false, s) := by
            simp only [turn, SearchRemoteRegistries.turn, pending, Futures.pollUnordered]
          rw [turned]
          exact .pending filled
      | some completed =>
          obtain ⟨index, result⟩ := completed
          by_cases inside : index < s.futures.length
          · have within : index < s.waiting.length := by omega
            exact turn_effect_of_lt inside (List.getElem?_eq_getElem within) result
          · have turned : s.turn (some (index, result)) = (false, s) := by
              rw [pending] at inside
              simp only [turn, SearchRemoteRegistries.turn, pending, Futures.pollUnordered,
                if_neg inside]
            rw [turned]
            exact .pending filled

/-- Every completion so far is of a provider that has not got the peer. -/
def AllNegative (completions : List Completion) : Prop :=
  ∀ entry ∈ completions, negative entry.2 = true

/-- Each provider is either waited for or has completed, and the search goes on while all answers
are negative. -/
structure Inv (providers : Nat) (s : Searching) : Prop where
  aligned : s.resolved = none → s.waiting.length = s.futures.length
  shared : (s.completed.map Prod.fst ++ s.waiting).Perm (List.range providers)
  undecided : s.resolved = none → AllNegative s.completed
  decided : ∀ result, s.resolved = some result →
    (result = .ok .notFound ∧ s.waiting = [] ∧ AllNegative s.completed) ∨
    ∃ before provider answer, result = .ok answer ∧ answer ≠ .notFound ∧
      s.completed = before ++ [(provider, .ok answer)] ∧ AllNegative before

theorem inv_new (registries : List RegistryProvider) :
    (new registries).Inv registries.length := by
  refine ⟨fun _ => List.length_range, List.Perm.refl _, ?_, ?_⟩
  · intro _ entry member
    cases member
  · intro result impossible
    cases impossible

/-- A provider moves from those waited for to those that have completed. -/
theorem shared_of_waited {providers index provider : Nat} {waiting : List Nat}
    {completed : List Completion} (result : Except Unit RegistryResult)
    (shared : (completed.map Prod.fst ++ waiting).Perm (List.range providers))
    (waited : waiting[index]? = some provider) :
    ((completed ++ [(provider, result)]).map Prod.fst ++ waiting.eraseIdx index).Perm
      (List.range providers) := by
  obtain ⟨within, rfl⟩ := List.getElem?_eq_some_iff.mp waited
  have moved : (waiting[index] :: waiting.eraseIdx index).Perm waiting :=
    List.getElem_cons_eraseIdx_perm within
  rw [List.map_append, List.append_assoc]
  exact (moved.append_left (completed.map Prod.fst)).trans shared

theorem allNegative_append {completed : List Completion} (negatives : AllNegative completed)
    {provider : Nat} {result : Except Unit RegistryResult} (denies : negative result = true) :
    AllNegative (completed ++ [(provider, result)]) := by
  rw [AllNegative, List.forall_mem_append]
  exact ⟨negatives, List.forall_mem_singleton.mpr denies⟩

theorem inv_of_resolved {providers : Nat} {s : Searching} {result : Except Error RegistryResult}
    (ended : s.resolved = some result)
    (shared : (s.completed.map Prod.fst ++ s.waiting).Perm (List.range providers))
    (decided : (result = .ok .notFound ∧ s.waiting = [] ∧ AllNegative s.completed) ∨
      ∃ before provider answer, result = .ok answer ∧ answer ≠ .notFound ∧
        s.completed = before ++ [(provider, .ok answer)] ∧ AllNegative before) :
    s.Inv providers := by
  have notSearching : s.resolved ≠ none := by
    rw [ended]
    exact Option.some_ne_none result
  refine ⟨fun searching => absurd searching notSearching, shared,
    fun searching => absurd searching notSearching, ?_⟩
  intro other same
  rw [ended] at same
  cases same
  exact decided

/-- A turn keeps the invariant, and the loop goes on only while the search is undecided. -/
theorem turn_inv {providers : Nat} {s : Searching} {turned : Bool × Searching}
    (inv : s.Inv providers) (searching : s.resolved = none) (effect : TurnEffect s turned) :
    turned.2.Inv providers ∧ (turned.1 = true → turned.2.resolved = none) ∧
      (turned.2.resolved = none → turned.1 = false → turned.2.waiting ≠ []) := by
  have aligned := inv.aligned searching
  have negatives := inv.undecided searching
  cases effect with
  | exhausted empty =>
      have none : s.waiting = [] := (waiting_eq_nil_iff aligned).mpr empty
      refine ⟨inv_of_resolved rfl inv.shared (Or.inl ⟨rfl, none, negatives⟩), ?_, ?_⟩
      · intro impossible
        cases impossible
      · intro impossible
        cases impossible
  | pending filled =>
      refine ⟨inv, fun _ => searching, ?_⟩
      intro _ _ none
      exact filled ((waiting_eq_nil_iff aligned).mp none)
  | denied waited denies =>
      refine ⟨⟨?_, shared_of_waited _ inv.shared waited, ?_, ?_⟩, fun _ => searching, ?_⟩
      · intro _
        simp only [List.length_eraseIdx, aligned]
      · intro _
        exact allNegative_append negatives denies
      · intro result impossible
        rw [searching] at impossible
        cases impossible
      · intro _ impossible
        cases impossible
  | found waited knows =>
      refine ⟨inv_of_resolved rfl (shared_of_waited _ inv.shared waited) ?_, ?_, ?_⟩
      · exact Or.inr ⟨s.completed, _, _, rfl, knows, rfl, negatives⟩
      · intro impossible
        cases impossible
      · intro impossible
        cases impossible

theorem turn_shrinks {s next : Searching} (aligned : s.waiting.length = s.futures.length)
    (effect : TurnEffect s (true, next)) : next.futures.length < s.futures.length := by
  cases effect with
  | denied waited denies =>
      have within := (List.getElem?_eq_some_iff.mp waited).1
      simp only [List.length_eraseIdx]
      split <;> omega

/-- The set shrinks with each turn that goes on, so that the loop ends after one turn more than
there are futures. -/
theorem turns_ends {providers : Nat} {s : Searching} (inv : s.Inv providers)
    (searching : s.resolved = none) (answers : Nat → Option Completion) :
    ∃ next : Searching, (∀ fuel, s.futures.length < fuel → turns fuel answers s = some next) ∧
      next.Inv providers ∧ (next.resolved = none → next.waiting ≠ []) := by
  induction size : s.futures.length using Nat.strong_induction_on generalizing s answers with
  | h size ih =>
      subst size
      have aligned := inv.aligned searching
      have effect := turn_effect aligned (answers 0)
      obtain ⟨kept, undecided, waits⟩ := turn_inv inv searching effect
      cases turned : s.turn (answers 0) with
      | mk again next =>
          rw [turned] at effect kept undecided waits
          cases again with
          | false =>
              refine ⟨next, ?_, kept, fun still => waits still rfl⟩
              intro fuel enough
              cases fuel with
              | zero => omega
              | succ fuel => simp only [turns, turned]
          | true =>
              have shorter := turn_shrinks aligned effect
              obtain ⟨last, reached, facts⟩ := ih next.futures.length shorter kept (undecided rfl)
                (fun later => answers (later + 1)) rfl
              refine ⟨last, ?_, facts⟩
              intro fuel enough
              cases fuel with
              | zero => omega
              | succ fuel =>
                  simp only [turns, turned]
                  exact reached fuel (by omega)

theorem poll_inv {providers : Nat} {s : Searching} (inv : s.Inv providers)
    (answers : Nat → Option Completion) :
    (s.poll answers).Inv providers ∧
      ((s.poll answers).resolved = none → (s.poll answers).waiting ≠ []) := by
  unfold poll
  cases resolved : s.resolved with
  | some result =>
      refine ⟨inv, fun impossible => ?_⟩
      simp only [resolved] at impossible
      cases impossible
  | none =>
      obtain ⟨next, reached, kept, waits⟩ := turns_ends inv resolved answers
      simp only [reached _ (Nat.lt_succ_self _), Option.getD_some]
      exact ⟨kept, waits⟩

/-- What is asked of a search of this many providers that has been polled. -/
structure Complete (providers : Nat) (s : Searching) : Prop where
  /-- The search ends without a result exactly when every provider has denied. -/
  notFound : s.resolved = some (.ok .notFound) ↔
    ∀ provider < providers, ∃ result, (provider, result) ∈ s.completed ∧ negative result = true
  /-- It ends with the first result in the order of completion. -/
  first : ∀ answer, answer ≠ .notFound → (s.resolved = some (.ok answer) ↔
    ∃ provider, s.completed.find? (fun entry => !negative entry.2) = some (provider, .ok answer))
  noError : ∀ reason, s.resolved ≠ some (.error reason)

theorem find_eq_none {completed : List Completion} (negatives : AllNegative completed) :
    completed.find? (fun entry => !negative entry.2) = none := by
  rw [List.find?_eq_none]
  intro entry member
  simp [negatives entry member]

theorem find_of_last {before : List Completion} (negatives : AllNegative before) (provider : Nat)
    {answer : RegistryResult} (knows : answer ≠ .notFound) :
    (before ++ [((provider, .ok answer) : Completion)]).find? (fun entry => !negative entry.2) =
      some (provider, .ok answer) := by
  have positive : negative (.ok answer) = false := by
    rw [← Bool.not_eq_true, negative_ok_iff]
    exact knows
  rw [List.find?_append, find_eq_none negatives, Option.none_or, List.find?_singleton]
  simp [positive]

section Complete

variable {providers : Nat} {s : Searching}

theorem Inv.nodup (inv : s.Inv providers) : (s.completed.map Prod.fst ++ s.waiting).Nodup :=
  inv.shared.nodup_iff.mpr List.nodup_range

theorem Inv.mem_range (inv : s.Inv providers) (provider : Nat) :
    provider ∈ s.completed.map Prod.fst ++ s.waiting ↔ provider < providers := by
  rw [inv.shared.mem_iff, List.mem_range]

/-- A provider completes only once. -/
theorem Inv.unique (inv : s.Inv providers) {provider : Nat}
    {result other : Except Unit RegistryResult} (member : (provider, result) ∈ s.completed)
    (others : (provider, other) ∈ s.completed) : result = other := by
  have distinct : (s.completed.map Prod.fst).Nodup := (List.nodup_append.mp inv.nodup).1
  exact congrArg Prod.snd (List.inj_on_of_nodup_map distinct member others rfl)

theorem Inv.notFound_iff (inv : s.Inv providers) (waits : s.resolved = none → s.waiting ≠ []) :
    s.resolved = some (.ok .notFound) ↔
      ∀ provider < providers, ∃ result, (provider, result) ∈ s.completed ∧
        negative result = true := by
  constructor
  · intro ended provider known
    rcases inv.decided _ ended with ⟨_, none, negatives⟩ | ⟨_, _, answer, same, knows, _⟩
    · have member := (inv.mem_range provider).mpr known
      rw [none, List.append_nil] at member
      obtain ⟨⟨_, result⟩, completed, rfl⟩ := List.mem_map.mp member
      exact ⟨result, completed, negatives _ completed⟩
    · cases same
      exact absurd rfl knows
  · intro denied
    cases ended : s.resolved with
    | none =>
        -- a provider that is waited for would have completed too
        obtain ⟨provider, waited⟩ := List.exists_mem_of_ne_nil _ (waits ended)
        have known := (inv.mem_range provider).mp (List.mem_append_right _ waited)
        obtain ⟨result, completed, _⟩ := denied provider known
        have twice := (List.nodup_append.mp inv.nodup).2.2 provider
          (List.mem_map.mpr ⟨_, completed, rfl⟩) provider waited
        exact absurd rfl twice
    | some result =>
        rcases inv.decided _ ended with ⟨same, _⟩ | ⟨before, provider, answer, same, knows, last, _⟩
        · rw [same]
        · have member : (provider, .ok answer) ∈ s.completed := by
            rw [last]
            exact List.mem_append_right before List.mem_cons_self
          have known := (inv.mem_range provider).mp
            (List.mem_append_left _ (List.mem_map.mpr ⟨_, member, rfl⟩))
          obtain ⟨other, completed, denies⟩ := denied provider known
          rw [← inv.unique member completed, negative_ok_iff] at denies
          exact absurd denies knows

theorem Inv.first_iff (inv : s.Inv providers) {answer : RegistryResult}
    (knows : answer ≠ .notFound) :
    s.resolved = some (.ok answer) ↔ ∃ provider,
      s.completed.find? (fun entry => !negative entry.2) = some (provider, .ok answer) := by
  cases ended : s.resolved with
  | none =>
      rw [find_eq_none (inv.undecided ended)]
      simp
  | some result =>
      rcases inv.decided _ ended with
        ⟨rfl, _, negatives⟩ | ⟨before, provider, given, rfl, found, last, negatives⟩
      · rw [find_eq_none negatives]
        simpa using Ne.symm knows
      · rw [last, find_of_last negatives provider found]
        simp

theorem Inv.complete (inv : s.Inv providers) (waits : s.resolved = none → s.waiting ≠ []) :
    s.Complete providers := by
  refine ⟨inv.notFound_iff waits, fun answer knows => inv.first_iff knows, ?_⟩
  intro reason ended
  rcases inv.decided _ ended with ⟨impossible, _⟩ | ⟨_, _, _, impossible, _⟩
  · cases impossible
  · cases impossible

end Complete

end Searching

end HolePunch
