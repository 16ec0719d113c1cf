import HolePunch.Library.Futures
import Mathlib.Data.List.GetD

set_option autoImplicit false

/- Streams joined by `select`, each side fused, over sources that may fail and have finitely many
answers: what one poll takes from which source. -/
namespace Futures

/-- The item that a poll of a stream has given. -/
def item {ε α : Type} : Poll ε (Option α) → Option α
  | .ready value => value
  | _ => none

/-- A source gives its answers one after the other and then ends. `select` keeps for each side
whether it has ended, and which side goes first. -/
inductive Select (ε α : Type) where
  | source (answers : List (Poll ε α))
  | select (first : Select ε α) (firstDone : Bool) (second : Select ε α) (secondDone : Bool)
      (flag : Bool)
  deriving DecidableEq, Repr

namespace Select

variable {ε α : Type}

/-- A fused stream that is polled: the answer, the stream after it, and whether it has ended. -/
structure Fused (ε α : Type) where
  answer : Poll ε (Option α)
  stream : Select ε α
  done : Bool

def ended : Poll ε (Option α) → Bool
  | .ready none => true
  | _ => false

/-- A fused stream that has ended is not polled again. -/
def fuse (stream : Select ε α) (done : Bool) (polled : Poll ε (Option α) × Select ε α) :
    Fused ε α :=
  if done then ⟨.ready none, stream, true⟩ else ⟨polled.1, polled.2, ended polled.1⟩

/-- How the two sides of a `select` are combined: the answer, whether the second side is polled,
and whether the first side goes first again. -/
structure Race (ε α : Type) where
  answer : Poll ε (Option α)
  both : Bool
  again : Bool

def race : Poll ε (Option α) → Poll ε (Option α) → Race ε α
  | .ready (some value), _ => ⟨.ready (some value), false, false⟩
  | .error reason, _ => ⟨.error reason, false, false⟩
  | a, .ready (some value) => ⟨.ready (some value), true, !ended a⟩
  | _, .error reason => ⟨.error reason, true, false⟩
  | a, .ready none => ⟨if ended a then .ready none else .notReady, true, false⟩
  | _, .notReady => ⟨.notReady, true, false⟩

def poll : Select ε α → Poll ε (Option α) × Select ε α
  | .source [] => (.ready none, .source [])
  | .source (.notReady :: rest) => (.notReady, .source rest)
  | .source (.ready value :: rest) => (.ready (some value), .source rest)
  | .source (.error reason :: rest) => (.error reason, .source rest)
  | .select first firstDone second secondDone flag =>
      let one := fuse first firstDone first.poll
      let other := fuse second secondDone second.poll
      if flag then
        let r := race other.answer one.answer
        (r.answer, if r.both then .select one.stream one.done other.stream other.done
            (if r.again then flag else !flag)
          else .select first firstDone other.stream other.done (!flag))
      else
        let r := race one.answer other.answer
        (r.answer, if r.both then .select one.stream one.done other.stream other.done
            (if r.again then flag else !flag)
          else .select one.stream one.done second secondDone (!flag))

/-- The answers that the sources have not given yet, source by source. -/
def sources : Select ε α → List (List (Poll ε α))
  | .source answers => [answers]
  | .select first _ second _ _ => first.sources ++ second.sources

/-- The items among them. -/
def items (answers : List (Poll ε α)) : List α :=
  answers.filterMap (fun | .ready value => some value | _ => none)

def left (s : Select ε α) : List (List α) := s.sources.map items

def size (s : Select ε α) : Nat := s.sources.flatten.length

def Ended (s : Select ε α) : Prop := ∀ answers ∈ s.sources, answers = []

/-- A side counts as ended only when all its sources have ended. -/
def Valid : Select ε α → Prop
  | .source _ => True
  | .select first firstDone second secondDone _ => first.Valid ∧ second.Valid ∧
      (firstDone = true → first.Ended) ∧ (secondDone = true → second.Ended)

/-- An item is taken from the front of one of the lists. -/
def Takes : Option α → List (List α) → List (List α) → Prop
  | none, before, after => after = before
  | some value, before, after => ∃ earlier rest later,
      before = earlier ++ (value :: rest) :: later ∧ after = earlier ++ rest :: later

theorem Takes.append_right {taken : Option α} {before after : List (List α)}
    (takes : Takes taken before after) (others : List (List α)) :
    Takes taken (before ++ others) (after ++ others) := by
  cases taken with
  | none => exact congrArg (· ++ others) takes
  | some value =>
      obtain ⟨earlier, rest, later, rfl, rfl⟩ := takes
      exact ⟨earlier, rest, later ++ others, by simp, by simp⟩

theorem Takes.append_left {taken : Option α} {before after : List (List α)}
    (takes : Takes taken before after) (others : List (List α)) :
    Takes taken (others ++ before) (others ++ after) := by
  cases taken with
  | none => exact congrArg (others ++ ·) takes
  | some value =>
      obtain ⟨earlier, rest, later, rfl, rfl⟩ := takes
      exact ⟨others ++ earlier, rest, later, by simp, by simp⟩

/-- What one poll of a stream does: it reports the end exactly when all sources have ended, takes
the item it gives from one source and no other item, and otherwise makes progress. -/
structure Polled (answer : Poll ε (Option α)) (before after : Select ε α) : Prop where
  valid : after.Valid
  ended : answer = .ready none ↔ before.Ended
  unchanged : answer = .ready none → after.sources = before.sources
  takes : Takes (item answer) before.left after.left
  shrinks : answer ≠ .ready none → after.size < before.size

theorem ended_iff (answer : Poll ε (Option α)) : ended answer = true ↔ answer = .ready none := by
  unfold ended
  split
  · simp
  · rename_i other
    simp only [Bool.false_eq_true, false_iff]
    exact other

theorem race_of_one {a b : Poll ε (Option α)} (one : (race a b).both = false) :
    (race a b).answer = a ∧ a ≠ .ready none := by
  unfold race at one ⊢
  split at one <;> simp_all

theorem race_of_both {a b : Poll ε (Option α)} (both : (race a b).both = true) :
    item a = none ∧ item (race a b).answer = item b := by
  rcases a with _ | (_ | value) | reason <;> rcases b with _ | (_ | value) | reason <;>
    first | exact ⟨rfl, rfl⟩ | cases both

theorem race_ended (a b : Poll ε (Option α)) :
    (race a b).answer = .ready none ↔ a = .ready none ∧ b = .ready none := by
  rcases a with _ | (_ | value) | reason <;> rcases b with _ | (_ | value) | reason <;>
    simp [race, ended]

theorem ended_select (first second : Select ε α) (firstDone secondDone flag : Bool) :
    (select first firstDone second secondDone flag).Ended ↔ first.Ended ∧ second.Ended := by
  unfold Ended
  simp only [sources, List.mem_append]
  constructor
  · intro all
    exact ⟨fun answers member => all answers (Or.inl member),
      fun answers member => all answers (Or.inr member)⟩
  · rintro ⟨one, other⟩ answers (member | member)
    · exact one answers member
    · exact other answers member

@[simp] theorem left_select (first second : Select ε α) (firstDone secondDone flag : Bool) :
    (select first firstDone second secondDone flag).left = first.left ++ second.left := by
  simp only [left, sources, List.map_append]

@[simp] theorem size_select (first second : Select ε α) (firstDone secondDone flag : Bool) :
    (select first firstDone second secondDone flag).size = first.size + second.size := by
  simp only [size, sources, List.flatten_append, List.length_append]

theorem Ended.of_sources {before after : Select ε α} (ended : before.Ended)
    (same : after.sources = before.sources) : after.Ended := by
  unfold Ended
  rw [same]
  exact ended

theorem Polled.size_le {answer : Poll ε (Option α)} {before after : Select ε α}
    (polled : Polled answer before after) : after.size ≤ before.size := by
  by_cases last : answer = .ready none
  · rw [size, polled.unchanged last]
    exact Nat.le_refl _
  · exact Nat.le_of_lt (polled.shrinks last)

/-- A side that counts as ended is left alone, and one that reports its end is at it. -/
theorem fuse_polled {stream : Select ε α} {done : Bool} (valid : stream.Valid)
    (atEnd : done = true → stream.Ended)
    (polled : Polled stream.poll.1 stream stream.poll.2) :
    Polled (fuse stream done stream.poll).answer stream (fuse stream done stream.poll).stream ∧
      ((fuse stream done stream.poll).done = true →
        (fuse stream done stream.poll).stream.Ended) := by
  cases done with
  | true =>
      have last : stream.Ended := atEnd rfl
      refine ⟨⟨valid, iff_of_true rfl last, fun _ => rfl, rfl, ?_⟩, fun _ => last⟩
      intro impossible
      exact absurd rfl impossible
  | false =>
      refine ⟨polled, ?_⟩
      intro reported
      have last : stream.poll.1 = .ready none := (ended_iff _).mp reported
      exact (polled.ended.mp last).of_sources (polled.unchanged last)

section Sides

variable {answer one other : Poll ε (Option α)} {first second first' second' : Select ε α}
  {firstDone secondDone firstDone' secondDone' : Bool} (flag flag' : Bool)

/-- Both sides are polled. -/
theorem polled_both (polledFirst : Polled one first first')
    (polledSecond : Polled other second second') (firstEnds : firstDone' = true → first'.Ended)
    (secondEnds : secondDone' = true → second'.Ended)
    (ended : answer = .ready none ↔ one = .ready none ∧ other = .ready none)
    (takes : Takes (item answer) (first.left ++ second.left) (first'.left ++ second'.left)) :
    Polled answer (select first firstDone second secondDone flag)
      (select first' firstDone' second' secondDone' flag') := by
  refine ⟨⟨polledFirst.valid, polledSecond.valid, firstEnds, secondEnds⟩, ?_, ?_, ?_, ?_⟩
  · rw [ended, ended_select, polledFirst.ended, polledSecond.ended]
  · intro last
    obtain ⟨lastFirst, lastSecond⟩ := ended.mp last
    rw [sources, sources, polledFirst.unchanged lastFirst, polledSecond.unchanged lastSecond]
  · rw [left_select, left_select]
    exact takes
  · intro more
    rw [size_select, size_select]
    have atMostFirst := polledFirst.size_le
    have atMostSecond := polledSecond.size_le
    by_cases lastFirst : one = .ready none
    · have moreSecond : other ≠ .ready none := fun last => more (ended.mpr ⟨lastFirst, last⟩)
      have shorter := polledSecond.shrinks moreSecond
      omega
    · have shorter := polledFirst.shrinks lastFirst
      omega

/-- Only the first side is polled, and has not ended. -/
theorem polled_first (polled : Polled one first first') (more : one ≠ .ready none)
    (valid : second.Valid) (firstEnds : firstDone' = true → first'.Ended)
    (secondEnds : secondDone = true → second.Ended) :
    Polled one (select first firstDone second secondDone flag)
      (select first' firstDone' second secondDone flag') := by
  refine ⟨⟨polled.valid, valid, firstEnds, secondEnds⟩, ?_, ?_, ?_, ?_⟩
  · rw [ended_select, ← polled.ended]
    exact iff_of_false more (fun last => more last.1)
  · exact fun last => absurd last more
  · rw [left_select, left_select]
    exact polled.takes.append_right second.left
  · intro _
    rw [size_select, size_select]
    have shorter := polled.shrinks more
    omega

theorem polled_second (polled : Polled other second second') (more : other ≠ .ready none)
    (valid : first.Valid) (firstEnds : firstDone = true → first.Ended)
    (secondEnds : secondDone' = true → second'.Ended) :
    Polled other (select first firstDone second secondDone flag)
      (select first firstDone second' secondDone' flag') := by
  refine ⟨⟨valid, polled.valid, firstEnds, secondEnds⟩, ?_, ?_, ?_, ?_⟩
  · rw [ended_select, ← polled.ended]
    exact iff_of_false more (fun last => more last.2)
  · exact fun last => absurd last more
  · rw [left_select, left_select]
    exact polled.takes.append_left first.left
  · intro _
    rw [size_select, size_select]
    have shorter := polled.shrinks more
    omega

end Sides

/-- A source that has answers left gives the first one and has the rest left. -/
theorem polled_answer {first : Poll ε α} {rest : List (Poll ε α)} {answer : Poll ε (Option α)}
    (more : answer ≠ .ready none)
    (takes : Takes (item answer) (source (first :: rest)).left (source rest).left) :
    Polled answer (source (first :: rest)) (source rest) := by
  have unended : ¬ (source (first :: rest)).Ended := by
    intro last
    exact List.cons_ne_nil first rest (last _ List.mem_cons_self)
  refine ⟨trivial, iff_of_false more unended, fun last => absurd last more, takes, ?_⟩
  intro _
  simp only [size, sources, List.flatten_singleton, List.length_cons]
  omega

theorem poll_source (answers : List (Poll ε α)) :
    Polled (source answers).poll.1 (source answers) (source answers).poll.2 := by
  cases answers with
  | nil =>
      have last : (source ([] : List (Poll ε α))).Ended := by
        intro answers member
        exact List.mem_singleton.mp member
      exact ⟨trivial, iff_of_true rfl last, fun _ => rfl, rfl, fun more => absurd rfl more⟩
  | cons answer rest =>
      cases answer with
      | notReady => exact polled_answer (by simp [poll]) rfl
      | ready value => exact polled_answer (by simp [poll]) ⟨[], items rest, [], rfl, rfl⟩
      | error reason => exact polled_answer (by simp [poll]) rfl

/-- By the sides of a `select` and the order in which they are polled. -/
theorem poll_polled (s : Select ε α) (valid : s.Valid) : Polled s.poll.1 s s.poll.2 := by
  induction s with
  | source answers => exact poll_source answers
  | select first firstDone second secondDone flag ihFirst ihSecond =>
      obtain ⟨validFirst, validSecond, endsFirst, endsSecond⟩ := valid
      obtain ⟨polledFirst, firstEnds⟩ := fuse_polled validFirst endsFirst (ihFirst validFirst)
      obtain ⟨polledSecond, secondEnds⟩ :=
        fuse_polled validSecond endsSecond (ihSecond validSecond)
      unfold poll
      generalize fuse first firstDone first.poll = one at *
      generalize fuse second secondDone second.poll = other at *
      cases flag with
      | false =>
          cases both : (race one.answer other.answer).both with
          | true =>
              obtain ⟨silent, given⟩ := race_of_both both
              simp only [both, Bool.false_eq_true, ↓reduceIte]
              refine polled_both false _ polledFirst polledSecond firstEnds secondEnds
                (race_ended _ _) ?_
              have kept := polledFirst.takes
              rw [silent] at kept
              change one.stream.left = first.left at kept
              rw [given, kept]
              exact polledSecond.takes.append_left first.left
          | false =>
              obtain ⟨same, more⟩ := race_of_one both
              simp only [both, Bool.false_eq_true, ↓reduceIte, same]
              exact polled_first false _ polledFirst more validSecond firstEnds endsSecond
      | true =>
          cases both : (race other.answer one.answer).both with
          | true =>
              obtain ⟨silent, given⟩ := race_of_both both
              simp only [both, ↓reduceIte]
              refine polled_both true _ polledFirst polledSecond firstEnds secondEnds
                ((race_ended _ _).trans and_comm) ?_
              have kept := polledSecond.takes
              rw [silent] at kept
              change other.stream.left = second.left at kept
              rw [given, kept]
              exact polledFirst.takes.append_right second.left
          | false =>
              obtain ⟨same, more⟩ := race_of_one both
              simp only [both, Bool.false_eq_true, ↓reduceIte, same]
              exact polled_second true _ polledSecond more validFirst endsFirst secondEnds

/-- The items taken so far, in their order, come from sources that had `produced` and have `left`:
each item is of one source, and with what is left the items of a source are all that it had, in its
own order. -/
def Interleaved (produced : List (List α)) (taken : List α) (left : List (List α)) : Prop :=
  ∃ tagged : List (Nat × α), tagged.map Prod.snd = taken ∧
    ∀ source, (tagged.filter (fun entry => entry.1 = source)).map Prod.snd ++
      left.getD source [] = produced.getD source []

theorem interleaved_nil (produced : List (List α)) : Interleaved produced [] produced :=
  ⟨[], rfl, fun _ => rfl⟩

/-- Which list an item is taken from. -/
theorem Takes.exists_source {value : α} {before after : List (List α)}
    (takes : Takes (some value) before after) : ∃ taken, ∀ source,
      before.getD source [] =
        (if taken = source then [value] else []) ++ after.getD source [] := by
  obtain ⟨earlier, rest, later, rfl, rfl⟩ := takes
  refine ⟨earlier.length, fun source => ?_⟩
  rcases Nat.lt_trichotomy source earlier.length with lower | rfl | higher
  · rw [if_neg (by omega), List.getD_append _ _ _ _ lower, List.getD_append _ _ _ _ lower,
      List.nil_append]
  · rw [if_pos rfl, List.getD_append_right _ _ _ _ (Nat.le_refl _),
      List.getD_append_right _ _ _ _ (Nat.le_refl _), Nat.sub_self]
    rfl
  · obtain ⟨gap, rfl⟩ := Nat.exists_eq_add_of_lt higher
    rw [if_neg (by omega), List.getD_append_right _ _ _ _ (by omega),
      List.getD_append_right _ _ _ _ (by omega), List.nil_append]
    have shifted : earlier.length + gap + 1 - earlier.length = gap + 1 := by omega
    rw [shifted]
    rfl

theorem Interleaved.takes {produced before after : List (List α)} {taken : List α}
    {value : Option α} (interleaved : Interleaved produced taken before)
    (takes : Takes value before after) :
    Interleaved produced (taken ++ value.toList) after := by
  cases value with
  | none =>
      cases takes
      rw [Option.toList_none, List.append_nil]
      exact interleaved
  | some value =>
      obtain ⟨tagged, values, parts⟩ := interleaved
      obtain ⟨origin, moved⟩ := takes.exists_source
      refine ⟨tagged ++ [(origin, value)], ?_, fun source => ?_⟩
      · rw [List.map_append, values]
        rfl
      · rw [← parts source, moved source, List.filter_append, List.map_append, List.append_assoc]
        congr 1
        by_cases same : origin = source
        · simp [same]
        · simp [same]

/-- Sources that have ended have nothing left. -/
theorem Interleaved.of_ended {produced : List (List α)} {taken : List α} {s : Select ε α}
    (interleaved : Interleaved produced taken s.left) (ended : s.Ended) :
    Interleaved produced taken [] := by
  obtain ⟨tagged, values, parts⟩ := interleaved
  refine ⟨tagged, values, fun source => ?_⟩
  have nothing : s.left.getD source [] = [] := by
    by_cases within : source < s.sources.length
    · have none : s.sources[source] = [] := ended _ (List.getElem_mem within)
      simp [left, List.getD_eq_getElem?_getD, within, none, items]
    · simp [left, List.getD_eq_getElem?_getD, within]
  rw [← parts source, nothing]
  rfl

end Select

end Futures
