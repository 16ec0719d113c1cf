import Mathlib.Data.List.Basic

set_option autoImplicit false

/- Caches with a capacity and a time to live. Only what a user of one may rely on is fixed: what
it gives out was put in under that key, and what has just been put in is there. Which entries
leave when, and how a lookup renews an entry, is up to the cache. -/

/-- `stored` is the content of a state. Reading may renew an entry and drop others, so it returns
the state after it. -/
structure TimeCache (κ ν : Type) where
  State : Type
  empty : State
  insert : Nat → κ → ν → State → State
  get : Nat → κ → State → Option ν × State
  stored : State → κ → ν → Prop
  stored_empty : ∀ key value, ¬ stored empty key value
  stored_insert : ∀ {now key value state otherKey other},
    stored (insert now key value state) otherKey other →
      otherKey = key ∧ other = value ∨ stored state otherKey other
  stored_get : ∀ {now key state otherKey other},
    stored (get now key state).2 otherKey other → stored state otherKey other
  get_stored : ∀ {now key state value},
    (get now key state).1 = some value → stored state key value
  get_insert : ∀ now key value state,
    (get now key (insert now key value state)).1 = some value

namespace TimeCache

section Contents

variable {κ ν : Type} (cache : TimeCache κ ν)

/-- Every value that a state holds has a property. -/
def Every (property : ν → Prop) (state : cache.State) : Prop :=
  ∀ key value, cache.stored state key value → property value

theorem every_empty (property : ν → Prop) : cache.Every property cache.empty := by
  intro key value stored
  exact absurd stored (cache.stored_empty key value)

variable {cache} {property : ν → Prop} {state : cache.State} {now : Nat} {key : κ}

theorem Every.insert {value : ν} (every : cache.Every property state) (holds : property value) :
    cache.Every property (cache.insert now key value state) := by
  intro otherKey other stored
  rcases cache.stored_insert stored with ⟨-, rfl⟩ | before
  · exact holds
  · exact every otherKey other before

theorem Every.get (every : cache.Every property state) :
    cache.Every property (cache.get now key state).2 := by
  intro otherKey other stored
  exact every otherKey other (cache.stored_get stored)

theorem Every.found {value : ν} (every : cache.Every property state)
    (found : (cache.get now key state).1 = some value) : property value :=
  every key value (cache.get_stored found)

end Contents

section LeastRecentlyUsed

variable {κ ν : Type} [DecidableEq κ]

structure Entry (κ ν : Type) where
  key : κ
  value : ν
  used : Nat
  deriving DecidableEq, Repr

/-- The entries whose time to live has not passed. -/
def live (timeToLive now : Nat) (entries : List (Entry κ ν)) : List (Entry κ ν) :=
  entries.filter (fun entry => now ≤ entry.used + timeToLive)

def without (key : κ) (entries : List (Entry κ ν)) : List (Entry κ ν) :=
  entries.filter (fun entry => entry.key ≠ key)

/-- The entry used last stands at the end. A new key makes room by dropping what is expired and
then what has not been used for longest. -/
def lruInsert (capacity timeToLive now : Nat) (key : κ) (value : ν)
    (entries : List (Entry κ ν)) : List (Entry κ ν) :=
  if entries.any (fun entry => entry.key = key) then without key entries ++ [⟨key, value, now⟩]
  else
    let kept := live timeToLive now entries
    kept.drop (kept.length + 1 - capacity) ++ [⟨key, value, now⟩]

def lruGet (timeToLive now : Nat) (key : κ) (entries : List (Entry κ ν)) :
    Option ν × List (Entry κ ν) :=
  let kept := live timeToLive now entries
  match kept.find? (fun entry => entry.key = key) with
  | some entry => (some entry.value, without key kept ++ [{ entry with used := now }])
  | none => (none, kept)

theorem mem_lruInsert {capacity timeToLive now : Nat} {key : κ} {value : ν}
    {entries : List (Entry κ ν)} {entry : Entry κ ν}
    (member : entry ∈ lruInsert capacity timeToLive now key value entries) :
    entry = ⟨key, value, now⟩ ∨ entry ∈ entries := by
  unfold lruInsert at member
  split at member
  · rcases List.mem_append.mp member with old | new
    · exact Or.inr (List.mem_of_mem_filter old)
    · exact Or.inl (List.mem_singleton.mp new)
  · rcases List.mem_append.mp member with old | new
    · exact Or.inr (List.mem_of_mem_filter (List.mem_of_mem_drop old))
    · exact Or.inl (List.mem_singleton.mp new)

/-- What a lookup leaves has the keys and values that were there. -/
theorem mem_lruGet {timeToLive now : Nat} {key : κ} {entries : List (Entry κ ν)}
    {entry : Entry κ ν} (member : entry ∈ (lruGet timeToLive now key entries).2) :
    ∃ old ∈ entries, old.key = entry.key ∧ old.value = entry.value := by
  unfold lruGet at member
  simp only at member
  split at member
  · rename_i found lookup
    rcases List.mem_append.mp member with old | renewed
    · exact ⟨entry, List.mem_of_mem_filter (List.mem_of_mem_filter old), rfl, rfl⟩
    · have foundLive := List.mem_of_find?_eq_some lookup
      rw [List.mem_singleton.mp renewed]
      exact ⟨found, List.mem_of_mem_filter foundLive, rfl, rfl⟩
  · exact ⟨entry, List.mem_of_mem_filter member, rfl, rfl⟩

theorem lruGet_some {timeToLive now : Nat} {key : κ} {entries : List (Entry κ ν)} {value : ν}
    (found : (lruGet timeToLive now key entries).1 = some value) :
    ∃ entry ∈ entries, entry.key = key ∧ entry.value = value := by
  unfold lruGet at found
  simp only at found
  split at found
  · rename_i entry lookup
    have isKey : entry.key = key := by simpa using List.find?_some lookup
    have member := List.mem_of_mem_filter (List.mem_of_find?_eq_some lookup)
    exact ⟨entry, member, isKey, Option.some.inj found⟩
  · cases found

/-- The entry at the end is found when no earlier one has its key. -/
theorem lruGet_append {timeToLive now : Nat} {key : κ} {value : ν} {entries : List (Entry κ ν)}
    (fresh : ∀ entry ∈ entries, entry.key ≠ key) :
    (lruGet timeToLive now key (entries ++ [⟨key, value, now⟩])).1 = some value := by
  have missing : (live timeToLive now entries).find? (fun entry => entry.key = key) = none := by
    rw [List.find?_eq_none]
    intro entry member
    simpa using fresh entry (List.mem_of_mem_filter member)
  have split : live timeToLive now (entries ++ [⟨key, value, now⟩]) =
      live timeToLive now entries ++ [⟨key, value, now⟩] := by
    simp [live]
  unfold lruGet
  simp only [split, List.find?_append, missing, List.find?_singleton, decide_true, ↓reduceIte,
    Option.none_or]

theorem lruGet_lruInsert (capacity timeToLive now : Nat) (key : κ) (value : ν)
    (entries : List (Entry κ ν)) :
    (lruGet timeToLive now key (lruInsert capacity timeToLive now key value entries)).1 =
      some value := by
  unfold lruInsert
  split
  · apply lruGet_append
    intro entry member
    simpa [without] using (List.mem_filter.mp member).2
  · rename_i absent
    apply lruGet_append
    intro entry member same
    have old := List.mem_of_mem_filter (List.mem_of_mem_drop member)
    exact absent (List.any_eq_true.mpr ⟨entry, old, decide_eq_true same⟩)

/-- The cache that makes room by dropping the entry not used for longest. -/
def lru (κ ν : Type) [DecidableEq κ] (capacity timeToLive : Nat) : TimeCache κ ν where
  State := List (Entry κ ν)
  empty := []
  insert := lruInsert capacity timeToLive
  get := lruGet timeToLive
  stored entries key value := ∃ entry ∈ entries, entry.key = key ∧ entry.value = value
  stored_empty := by
    rintro key value ⟨entry, member, -⟩
    cases member
  stored_insert := by
    rintro now key value entries otherKey other ⟨entry, member, rfl, rfl⟩
    rcases mem_lruInsert member with rfl | old
    · exact Or.inl ⟨rfl, rfl⟩
    · exact Or.inr ⟨entry, old, rfl, rfl⟩
  stored_get := by
    rintro now key entries otherKey other ⟨entry, member, rfl, rfl⟩
    exact mem_lruGet member
  get_stored := lruGet_some
  get_insert := lruGet_lruInsert capacity timeToLive

end LeastRecentlyUsed

end TimeCache
