import HolePunch.Keys
import HolePunch.Registries.Mdns
import Mathlib.Tactic.Linarith

set_option autoImplicit false

/- Keys in maps: hash tables index by `Hash` and `==`, ordered maps by `Ord`. `Hash` and `Ord` look
at the whole buffer of a key, `==` at its length and the bytes up to it. -/
namespace HolePunch

namespace PubKeyHash

/-- What a value writes to a hasher. -/
inductive HasherWrite where
  | usize (value : Nat)
  | bytes (values : List UInt8)
  deriving DecidableEq, Repr

/-- The hash of a slice: its length and then its bytes. -/
def hash (key : PubKeyHash) : List HasherWrite := [.usize key.buf.length, .bytes key.buf]

def cmp (key other : PubKeyHash) : Ordering := compare key.buf other.buf

theorem cmp_eq_iff (key other : PubKeyHash) : key.cmp other = .eq ↔ key.buf = other.buf :=
  Std.LawfulEqOrd.compare_eq_iff_eq

instance : Std.TransCmp cmp :=
  inferInstanceAs (Std.TransCmp (compareOn PubKeyHash.buf))

theorem Padded.hash_eq {key other : PubKeyHash} (padded : key.Padded) (others : other.Padded)
    (same : key.eq other = true) : key.hash = other.hash := by
  have bytes : key.identifier = other.identifier :=
    (eq_iff_identifier key other padded.bounded others.bounded).mp same
  have buffers : key.buf = other.buf := by
    rw [padded.buf_eq, others.buf_eq, bytes]
  rw [hash, hash, buffers]

end PubKeyHash

open PubKeyHash (HasherWrite)

/-- A key in a hash table, whose hasher makes a number of what it is fed. -/
structure TableKey (openssl : Openssl) (hasher : List HasherWrite → UInt64) where
  value : PubKeyHash
  obtained : value.Obtainable openssl

namespace TableKey

variable {openssl : Openssl} {hasher : List HasherWrite → UInt64}

instance : BEq (TableKey openssl hasher) := ⟨fun key other => key.value.eq other.value⟩

instance : Hashable (TableKey openssl hasher) := ⟨fun key => hasher key.value.hash⟩

theorem beq_iff (key other : TableKey openssl hasher) :
    (key == other) = true ↔ key.value.identifier = other.value.identifier :=
  PubKeyHash.eq_iff_identifier key.value other.value key.obtained.padded.bounded
    other.obtained.padded.bounded

instance : EquivBEq (TableKey openssl hasher) where
  rfl := (beq_iff _ _).mpr rfl
  symm same := (beq_iff _ _).mpr ((beq_iff _ _).mp same).symm
  trans first second := (beq_iff _ _).mpr (((beq_iff _ _).mp first).trans ((beq_iff _ _).mp second))

/-- The contract of a hash table: equal keys have equal hashes. -/
instance : LawfulHashable (TableKey openssl hasher) where
  hash_eq key other same :=
    congrArg hasher (key.obtained.padded.hash_eq other.obtained.padded same)

end TableKey

/-- What the program does to its tables. -/
inductive TableUpdate (κ ν : Type) where
  | insert (key : κ) (value : ν)
  | remove (key : κ)

namespace TableUpdate

variable {ν : Type} {openssl : Openssl} {hasher : List HasherWrite → UInt64}

def apply (table : Std.HashMap (TableKey openssl hasher) ν) :
    TableUpdate (TableKey openssl hasher) ν → Std.HashMap (TableKey openssl hasher) ν
  | .insert key value => table.insert key value
  | .remove key => table.erase key

/-- The same update of a function of the peers. -/
def applyNamed (content : PeerIdentifier → Option ν) :
    TableUpdate (TableKey openssl hasher) ν → PeerIdentifier → Option ν
  | .insert key value => Function.update content key.value.identifier (some value)
  | .remove key => Function.update content key.value.identifier none

/-- A table that agrees with a function of the peers. -/
def Represents (table : Std.HashMap (TableKey openssl hasher) ν)
    (content : PeerIdentifier → Option ν) : Prop :=
  ∀ key : TableKey openssl hasher, table[key]? = content key.value.identifier

theorem represents_empty :
    Represents (∅ : Std.HashMap (TableKey openssl hasher) ν) (fun _ => none) := by
  intro key
  exact Std.HashMap.getElem?_empty

theorem represents_apply {table : Std.HashMap (TableKey openssl hasher) ν}
    {content : PeerIdentifier → Option ν} (represents : Represents table content)
    (update : TableUpdate (TableKey openssl hasher) ν) :
    Represents (apply table update) (applyNamed content update) := by
  intro key
  have named : ∀ updated : TableKey openssl hasher,
      (updated == key) = true ↔ key.value.identifier = updated.value.identifier :=
    fun updated => (TableKey.beq_iff updated key).trans eq_comm
  cases update with
  | insert updated value =>
      rw [apply, applyNamed, Std.HashMap.getElem?_insert, Function.update_apply, represents]
      simp only [named]
  | remove updated =>
      rw [apply, applyNamed, Std.HashMap.getElem?_erase, Function.update_apply, represents]
      simp only [named]

theorem represents_run {table : Std.HashMap (TableKey openssl hasher) ν}
    {content : PeerIdentifier → Option ν} (represents : Represents table content)
    (updates : List (TableUpdate (TableKey openssl hasher) ν)) :
    Represents (Transition.run apply table updates)
      (Transition.run applyNamed content updates) := by
  induction updates generalizing table content with
  | nil => exact represents
  | cons update rest ih => exact ih (represents_apply represents update)

end TableUpdate

/-- Every key has a length in range and zeros after it, so that equal keys write the same to a
hasher whether or not they store the original key, and a table of keys is a function of the peers:
a value put in under one key is found, replaced and removed under every equal one. -/
theorem equal_keys_are_one_key (openssl : Openssl) (hasher : List HasherWrite → UInt64)
    (ν : Type) :
    (∀ key : TableKey openssl hasher, key.value.len ≤ evpMaxMdSize ∧
      ∀ index, key.value.len ≤ index → index < evpMaxMdSize → key.value.buf[index]? = some 0) ∧
    (∀ key other : TableKey openssl hasher,
      key.value.eq other.value = true → key.value.hash = other.value.hash) ∧
    ∀ (updates : List (TableUpdate (TableKey openssl hasher) ν)) (key : TableKey openssl hasher),
      (Transition.run TableUpdate.apply ∅ updates)[key]? =
        Transition.run TableUpdate.applyNamed (fun _ => none) updates key.value.identifier := by
  refine ⟨?_, ?_, ?_⟩
  · intro key
    exact ⟨key.obtained.padded.bounded, key.obtained.padded.zeros⟩
  · intro key other same
    exact key.obtained.padded.hash_eq other.obtained.padded same
  · intro updates key
    exact TableUpdate.represents_run TableUpdate.represents_empty updates key

namespace PubKeyHash

/-- The other key has the bytes of this one and then one or more zeros. -/
def ExtendedByZeros (key other : PubKeyHash) : Prop :=
  ∃ count, 0 < count ∧ other.deref = key.deref ++ List.replicate count 0

end PubKeyHash

theorem PeerIdentifier.extends_of_padded {peer other : PeerIdentifier}
    (same : peer.padded = other.padded) (shorter : peer.bytes.length ≤ other.bytes.length) :
    other.bytes =
      peer.bytes ++ List.replicate (other.bytes.length - peer.bytes.length) 0 := by
  have bounded := other.bounded
  have cut : peer.padded.take other.bytes.length = other.bytes := by
    rw [same, padded, List.take_left']
    rfl
  rw [padded, List.take_append, List.take_of_length_le shorter, List.take_replicate,
    Nat.min_eq_left (by omega)] at cut
  exact cut.symm

namespace PubKeyHash

theorem ExtendedByZeros.ne {key other : PubKeyHash} (extended : key.ExtendedByZeros other) :
    key.deref ≠ other.deref := by
  obtain ⟨count, positive, bytes⟩ := extended
  intro same
  have lengths := congrArg List.length bytes
  rw [List.length_append, List.length_replicate, same] at lengths
  omega

theorem ExtendedByZeros.padded_eq {key other : PubKeyHash} (extended : key.ExtendedByZeros other) :
    key.identifier.padded = other.identifier.padded := by
  obtain ⟨count, _, bytes⟩ := extended
  have bounded := other.identifier.bounded
  change other.deref.length ≤ evpMaxMdSize at bounded
  change key.deref ++ _ = other.deref ++ _
  simp only [identifier]
  rw [bytes, List.length_append, List.length_replicate] at bounded
  rw [bytes, List.append_assoc, List.length_append, List.length_replicate,
    List.replicate_append_replicate]
  congr 2
  omega

/-- Buffers agree when the bytes do, up to zeros at the end. -/
theorem Padded.cmp_eq_iff {key other : PubKeyHash} (padded : key.Padded) (others : other.Padded) :
    key.cmp other = .eq ↔
      key.eq other = true ∨ key.ExtendedByZeros other ∨ other.ExtendedByZeros key := by
  rw [PubKeyHash.cmp_eq_iff, padded.buf_eq, others.buf_eq, padded.eq_iff others]
  constructor
  · intro same
    by_cases equal : key.deref = other.deref
    · exact Or.inl equal
    · right
      by_cases shorter : key.deref.length ≤ other.deref.length
      · left
        have bytes := PeerIdentifier.extends_of_padded same shorter
        refine ⟨other.deref.length - key.deref.length, ?_, bytes⟩
        by_contra none
        apply equal
        have gap : other.deref.length - key.deref.length = 0 := by omega
        change other.deref = key.deref ++ List.replicate (other.deref.length - key.deref.length) 0
          at bytes
        rw [gap, List.replicate_zero, List.append_nil] at bytes
        exact bytes.symm
      · right
        have bytes := PeerIdentifier.extends_of_padded same.symm (Nat.le_of_not_le shorter)
        exact ⟨key.deref.length - other.deref.length, by omega, bytes⟩
  · rintro (equal | extended | extended)
    · simp only [PeerIdentifier.padded, identifier, equal]
    · exact extended.padded_eq
    · exact extended.padded_eq.symm

/-- What an order on keys is relied on for, at two keys: it takes them for equal when they are, and
a map that indexes by it does not give out for one of them what was put in for the other. -/
structure OrderAgrees (key other : PubKeyHash) : Prop where
  cmp : key.cmp other = .eq ↔ key.eq other = true
  map : ∀ (ν : Type) (map : Std.TreeMap PubKeyHash ν PubKeyHash.cmp) (value : ν),
    key.eq other = false → (map.insert key value)[other]? = map[other]?
  knownPeers : ∀ (cache : Mdns.Cache) (now : Nat) (result found : Mdns.DiscoveryResult),
    (cache.get now other.identifier.padded
      (cache.insert now key.identifier.padded result cache.empty)).1 = some found →
    key.eq other = true

theorem orderAgrees_of_cmp {key other : PubKeyHash} (padded : key.Padded) (others : other.Padded)
    (cmp : key.cmp other = .eq ↔ key.eq other = true) : key.OrderAgrees other := by
  refine ⟨cmp, ?_, ?_⟩
  · intro ν map value differ
    have apart : ¬ key.cmp other = .eq := by
      rw [cmp, differ]
      exact Bool.false_ne_true
    rw [Std.TreeMap.getElem?_insert, if_neg apart]
  · intro cache now result found given
    rcases cache.stored_insert (cache.get_stored given) with ⟨same, _⟩ | before
    · rw [← cmp, PubKeyHash.cmp_eq_iff, padded.buf_eq, others.buf_eq, same]
    · exact absurd before (cache.stored_empty _ _)

/-- The order agrees with equality exactly on keys of which neither is the other followed by
zeros. -/
theorem orderAgrees_iff_not_extended {openssl : Openssl} {key other : PubKeyHash}
    (obtained : Obtainable openssl key) (others : Obtainable openssl other) :
    key.OrderAgrees other ↔ ¬ key.ExtendedByZeros other ∧ ¬ other.ExtendedByZeros key := by
  have exactly := obtained.padded.cmp_eq_iff others.padded
  have equal := obtained.padded.eq_iff others.padded
  constructor
  · intro agrees
    rw [agrees.cmp, equal] at exactly
    refine ⟨?_, ?_⟩
    · intro extended
      exact extended.ne (exactly.mpr (Or.inr (Or.inl extended)))
    · intro extended
      exact extended.ne (exactly.mpr (Or.inr (Or.inr extended))).symm
  · rintro ⟨notLonger, notShorter⟩
    apply orderAgrees_of_cmp obtained.padded others.padded
    rw [exactly]
    constructor
    · rintro (same | extended | extended)
      · exact same
      · exact absurd extended notLonger
      · exact absurd extended notShorter
    · exact Or.inl

theorem obtainable_fromHashedChecked (openssl : Openssl) {hashed : List UInt8}
    (fits : hashed.length ≤ evpMaxMdSize) :
    Obtainable openssl (fromHashedChecked hashed fits) := by
  apply Obtainable.fromHashed
  rw [fromHashedOrPanic_eq]
  exact congrArg Except.ok ((fromHashed_ok_iff hashed _).mpr ⟨fits, rfl⟩)

/-- Every call of the library fails. -/
def failingOpenssl : Openssl where
  PublicKey := Unit
  PrivateKey := Unit
  X509 := Unit
  sha256 _ := .error .openssl
  publicKeyToDer _ := .error .openssl
  privateKeyToDer _ := .error .openssl
  x509FromPem _ := .error .openssl
  publicKey _ := .error .openssl

/-- The keys `01` and `02`, of which neither extends the other. -/
theorem orderAgrees_one_two :
    (fromHashedChecked [1] (by decide)).OrderAgrees (fromHashedChecked [2] (by decide)) := by
  refine (orderAgrees_iff_not_extended (obtainable_fromHashedChecked failingOpenssl _)
    (obtainable_fromHashedChecked failingOpenssl _)).mpr ⟨?_, ?_⟩
  · rintro ⟨count, _, bytes⟩
    have heads := congrArg List.head? bytes
    revert heads
    simp [fromHashedChecked, deref]
  · rintro ⟨count, _, bytes⟩
    have heads := congrArg List.head? bytes
    revert heads
    simp [fromHashedChecked, deref]

/-- The keys `01` and `0100` compare as equal and are not. -/
theorem trailing_zero_compares_equal :
    ¬ ∀ key other : PubKeyHash, Obtainable failingOpenssl key → Obtainable failingOpenssl other →
      key.OrderAgrees other := by
  intro agree
  have agrees := agree _ _
    (obtainable_fromHashedChecked failingOpenssl (show [(1 : UInt8)].length ≤ 64 by decide))
    (obtainable_fromHashedChecked failingOpenssl (show [(1 : UInt8), 0].length ≤ 64 by decide))
  have equal := agrees.cmp.mp (by decide)
  revert equal
  decide

end PubKeyHash

end HolePunch
