import HolePunch.Announcement

set_option autoImplicit false

/- Which announcements of other services discovery takes for its own. It compares the name of a
record with the name it searches for by `starts_with`. -/
namespace HolePunch.Mdns

/-- The domain that is appended to the names of services. -/
def dotLocal : List Char := ".local".toList

/-- The suffix does not overlap with itself. -/
theorem dotLocal_take (count : Nat) (positive : 0 < count) (short : count < 6) :
    ¬ dotLocal <+: dotLocal.take count ++ dotLocal ∧ ¬ dotLocal.take count <:+ dotLocal := by
  have all : ∀ count : Fin 6, 0 < count.val →
      ¬ dotLocal <+: dotLocal.take count ++ dotLocal ∧ ¬ dotLocal.take count <:+ dotLocal := by
    decide
  exact all ⟨count, short⟩ positive

theorem prefix_of_dotLocal {start : List Char} (isPrefix : start <+: dotLocal) :
    start = dotLocal.take start.length :=
  List.prefix_iff_eq_take.mp isPrefix

/-- A name followed by the suffix begins with the suffix only when it does so itself. -/
theorem dotLocal_prefix_of_append {rest : List Char} (some : rest ≠ [])
    (isPrefix : dotLocal <+: rest ++ dotLocal) : dotLocal <+: rest := by
  by_cases long : dotLocal.length ≤ rest.length
  · exact List.prefix_of_prefix_length_le isPrefix (List.prefix_append rest dotLocal) long
  · have start : rest <+: dotLocal := List.prefix_of_prefix_length_le
      (List.prefix_append rest dotLocal) isPrefix (Nat.le_of_not_le long)
    have positive : 0 < rest.length := List.length_pos_iff.mpr some
    rw [prefix_of_dotLocal start] at isPrefix
    exact absurd isPrefix (dotLocal_take rest.length positive (Nat.lt_of_not_le long)).1

/-- When an announced service type is told from another one that is searched for. -/
inductive Distinguished (searched announced : List Char) : Prop
  | same (equal : searched = announced)
  | bare (bare : ¬ dotLocal <:+ searched) (apart : ¬ searched ++ dotLocal <+: announced)
  | suffixed (suffixed : dotLocal <:+ searched) (apart : ¬ searched <+: announced)
      (notSuffixed : searched ≠ announced ++ dotLocal)

theorem localName_of_suffixed {searched : List Char} (suffixed : dotLocal <:+ searched) :
    Discovery.localName searched = searched :=
  if_pos (List.isSuffixOf_iff_suffix.mpr suffixed)

theorem localName_of_bare {searched : List Char} (bare : ¬ dotLocal <:+ searched) :
    Discovery.localName searched = searched ++ dotLocal :=
  if_neg (mt List.isSuffixOf_iff_suffix.mp bare)

/-- A searched name without the suffix lies on the way to other announced names only. -/
theorem prefix_of_bare {searched announced : List Char}
    (isPrefix : searched ++ dotLocal <+: announced ++ dotLocal) (differ : searched ≠ announced) :
    searched ++ dotLocal <+: announced := by
  have lengths := isPrefix.length_le
  simp only [List.length_append] at lengths
  have start : searched <+: announced := List.prefix_of_prefix_length_le
    ((List.prefix_append searched dotLocal).trans isPrefix) (List.prefix_append announced dotLocal)
    (by omega)
  obtain ⟨rest, rfl⟩ := start
  have some : rest ≠ [] := by
    rintro rfl
    exact differ (List.append_nil searched).symm
  rw [List.append_assoc, List.prefix_append_right_inj] at isPrefix
  rw [List.prefix_append_right_inj]
  exact dotLocal_prefix_of_append some isPrefix

theorem prefix_of_suffixed {searched announced : List Char} (suffixed : dotLocal <:+ searched)
    (isPrefix : searched <+: announced ++ dotLocal) :
    searched <+: announced ∨ searched = announced ++ dotLocal := by
  by_cases short : searched.length ≤ announced.length
  · left
    exact List.prefix_of_prefix_length_le isPrefix (List.prefix_append announced dotLocal) short
  · right
    have start : announced <+: searched := List.prefix_of_prefix_length_le
      (List.prefix_append announced dotLocal) isPrefix (Nat.le_of_not_le short)
    obtain ⟨rest, rfl⟩ := start
    rw [List.prefix_append_right_inj] at isPrefix
    have positive : 0 < rest.length := by
      rw [List.length_append] at short
      omega
    by_cases whole : dotLocal.length ≤ rest.length
    · rw [isPrefix.eq_of_length_le whole]
    · -- a shorter rest would both begin and end the suffix
      have ends : rest <:+ dotLocal := List.suffix_of_suffix_length_le
        (List.suffix_append announced rest) suffixed (Nat.le_of_not_le whole)
      rw [prefix_of_dotLocal isPrefix] at ends
      exact absurd ends (dotLocal_take rest.length positive (Nat.lt_of_not_le whole)).2

/-- Only distinguished names are told apart by the comparison. -/
theorem distinguished_iff (searched announced : List Char) :
    Distinguished searched announced ↔
      (Discovery.localName searched <+: announced ++ dotLocal → searched = announced) := by
  by_cases suffixed : dotLocal <:+ searched
  · rw [localName_of_suffixed suffixed]
    constructor
    · rintro (equal | ⟨bare, _⟩ | ⟨_, apart, notSuffixed⟩) isPrefix
      · exact equal
      · exact absurd suffixed bare
      · rcases prefix_of_suffixed suffixed isPrefix with start | whole
        · exact absurd start apart
        · exact absurd whole notSuffixed
    · intro told
      by_cases equal : searched = announced
      · exact .same equal
      · refine .suffixed suffixed ?_ ?_
        · intro start
          exact equal (told (start.trans (List.prefix_append announced dotLocal)))
        · intro whole
          exact equal (told (whole ▸ List.prefix_refl _))
  · rw [localName_of_bare suffixed]
    constructor
    · rintro (equal | ⟨_, apart⟩ | ⟨ends, _, _⟩) isPrefix
      · exact equal
      · by_contra differ
        exact apart (prefix_of_bare isPrefix differ)
      · exact absurd ends suffixed
    · intro told
      by_cases equal : searched = announced
      · exact .same equal
      · refine .bare suffixed ?_
        intro start
        exact equal (told (start.trans (List.prefix_append announced dotLocal)))

/-- What is announced under one service, by any peer and with any other records, is accepted by a
search for another exactly when both are the same, and otherwise leaves the task as it is. -/
structure Selective (serviceName announced : List Char) : Prop where
  accepts : ∀ (cache : Cache) (searching peer : PeerIdentifier)
    (strategies : { given : Nat // 0 < given }) (listenPort : UInt16) (before after : Response),
    (∀ record ∈ before ++ after, ∀ target, record.kind ≠ .ptr target) →
    ((DiscoveryResult.tryFrom
        (before ++ (MdnsResponderContext.create (serviceType announced) peer listenPort).pointer ::
          after)
        (Discovery.new cache (serviceType serviceName) searching strategies).serviceName).isSome ↔
      serviceType serviceName = serviceType announced)
  ignores : serviceType serviceName ≠ serviceType announced →
    ∀ (cache : Cache) (s : Discovery cache) (peer : PeerIdentifier) (listenPort : UInt16)
      (before after : Response) (now : Nat),
      s.serviceName = Discovery.localName (serviceType serviceName) →
      (∀ record ∈ before ++ after, ∀ target, record.kind ≠ .ptr target) →
      s.handleResponse now
        (before ++ (MdnsResponderContext.create (serviceType announced) peer listenPort).pointer ::
          after) = .ok s

theorem tryFrom_pointer_isSome_iff (searched announced : List Char) (peer : PeerIdentifier)
    (listenPort : UInt16) {before after : Response}
    (others : ∀ record ∈ before ++ after, ∀ target, record.kind ≠ .ptr target) :
    (DiscoveryResult.tryFrom
      (before ++ (MdnsResponderContext.create (serviceType announced) peer listenPort).pointer ::
        after) searched).isSome ↔ searched <+: serviceType announced ++ dotLocal := by
  have announces := announces_pointer_iff searched announced peer
  constructor
  · intro given
    obtain ⟨result, accepted⟩ := Option.isSome_iff_exists.mp given
    have named := ((DiscoveryResult.tryFrom_eq_some_iff _ _ _).mp accepted).1
    exact ((announces result.peer listenPort others).mp named).1
  · intro under
    have named := (announces peer listenPort others).mpr ⟨under, rfl⟩
    exact Option.isSome_iff_exists.mpr
      ⟨_, (DiscoveryResult.tryFrom_eq_some_iff _ _ ⟨peer, _, _⟩).mpr ⟨named, rfl, rfl⟩⟩

/-- Discovery only accepts its own service exactly when the two service types are distinguished. -/
theorem selective_iff_distinguished (serviceName announced : List Char) :
    Selective serviceName announced ↔
      Distinguished (serviceType serviceName) (serviceType announced) := by
  rw [distinguished_iff]
  constructor
  · intro selective under
    have accepted := selective.accepts knownPeersCache (.ofByte 1) (.ofByte 2) ⟨1, Nat.one_pos⟩ 0
      [] [] (by simp)
    rw [tryFrom_pointer_isSome_iff _ _ _ _ (by simp)] at accepted
    exact accepted.mp under
  · intro told
    refine ⟨?_, ?_⟩
    · intro cache searching peer strategies listenPort before after others
      rw [tryFrom_pointer_isSome_iff _ _ _ _ others]
      constructor
      · exact told
      · intro same
        rw [← same]
        exact localName_isPrefixOf (serviceType serviceName)
    · intro differ cache s peer listenPort before after now searched others
      have refused : DiscoveryResult.tryFrom
          (before ++ (MdnsResponderContext.create (serviceType announced) peer
            listenPort).pointer :: after) s.serviceName = none := by
        rw [← Option.not_isSome_iff_eq_none, tryFrom_pointer_isSome_iff _ _ _ _ others, searched]
        exact mt told differ
      simp only [Discovery.handleResponse, refused]

/-- A search for `hp` accepts what is announced as `hp.localx`. -/
theorem longer_service_accepted : ¬ Selective "hp".toList "hp.localx".toList := by
  intro selective
  have accepted := selective.accepts knownPeersCache (.ofByte 1) (.ofByte 2) ⟨1, Nat.one_pos⟩ 22222
    [] [] (by simp)
  revert accepted
  decide

end HolePunch.Mdns
