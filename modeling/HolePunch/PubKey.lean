import Mathlib.Algebra.Ring.Nat
import Mathlib.Data.List.Basic

set_option autoImplicit false

/- The hashed public key that names a peer (`pubkey.rs`) and the errors that name it
(`error.rs`). -/
namespace HolePunch

/-- `openssl_sys::EVP_MAX_MD_SIZE`. -/
def evpMaxMdSize : Nat := 64

structure PubKeyHash where
  buf : List UInt8
  len : Nat
  pubKey : Option (List UInt8)
  size : buf.length = evpMaxMdSize
  deriving DecidableEq

/-- What equality, serialisation and display of a key look at: `&self.buf[..self.len]`. The rest
of the program only clones keys, compares them and looks them up by `==`, so everywhere else a
peer is named by these bytes. -/
structure PeerIdentifier where
  bytes : List UInt8
  bounded : bytes.length ≤ evpMaxMdSize
  deriving DecidableEq, Repr

def PeerIdentifier.ofByte (byte : UInt8) : PeerIdentifier := ⟨[byte], by simp [evpMaxMdSize]⟩

inductive Error where
  | picoquic
  | io
  | json
  | channelCanceled
  | custom (message : String)
  | openssl
  | hex
  | peerNotFound (peer : PeerIdentifier)
  | timeout
  | mdns
  deriving DecidableEq, Repr

namespace PubKeyHash

def deref (key : PubKeyHash) : List UInt8 := key.buf.take key.len

def eq (key other : PubKeyHash) : Bool :=
  if key.len = other.len then key.deref == other.deref else false

theorem deref_length (key : PubKeyHash) : key.deref.length = min key.len evpMaxMdSize := by
  rw [deref, List.length_take, key.size]

def identifier (key : PubKeyHash) : PeerIdentifier :=
  ⟨key.deref, by rw [deref_length]; exact Nat.min_le_right _ _⟩

/-- Keys are equal exactly when they name the same peer; the stored original key is ignored. -/
theorem eq_iff_identifier (key other : PubKeyHash)
    (keyLen : key.len ≤ evpMaxMdSize) (otherLen : other.len ≤ evpMaxMdSize) :
    key.eq other = true ↔ key.identifier = other.identifier := by
  have keySize : key.deref.length = key.len := by
    rw [deref_length, Nat.min_eq_left keyLen]
  have otherSize : other.deref.length = other.len := by
    rw [deref_length, Nat.min_eq_left otherLen]
  unfold eq identifier
  simp only [PeerIdentifier.mk.injEq]
  split
  · exact beq_iff_eq
  · rename_i differ
    constructor
    · intro impossible
      cases impossible
    · intro same
      exact absurd (by rw [← keySize, ← otherSize, same]) differ

/-- The hash length is checked by the callers. -/
def fromHashedChecked (hashed : List UInt8) (fits : hashed.length ≤ evpMaxMdSize) :
    PubKeyHash where
  buf := hashed ++ List.replicate (evpMaxMdSize - hashed.length) 0
  len := hashed.length
  pubKey := none
  size := by
    simp only [List.length_append, List.length_replicate]
    omega

def fromHashed (hashed : List UInt8) : Except Error PubKeyHash :=
  if fits : hashed.length ≤ evpMaxMdSize then .ok (fromHashedChecked hashed fits)
  else .error (.custom "Size is too long for a hashed value!")

def hexDigit (c : Char) : Option UInt8 :=
  if '0' ≤ c ∧ c ≤ '9' then some (UInt8.ofNat (c.toNat - '0'.toNat))
  else if 'A' ≤ c ∧ c ≤ 'F' then some (UInt8.ofNat (c.toNat - 'A'.toNat + 10))
  else if 'a' ≤ c ∧ c ≤ 'f' then some (UInt8.ofNat (c.toNat - 'a'.toNat + 10))
  else none

/-- `hex::decode`: pairs of digits, most significant first. -/
def hexDecode : List Char → Option (List UInt8)
  | [] => some []
  | [_] => none
  | high :: low :: rest => do
      let h ← hexDigit high
      let l ← hexDigit low
      let bytes ← hexDecode rest
      return (16 * h + l) :: bytes

/-- The digits of `hex::encode_upper`. -/
def hexChar (digit : Nat) : Char :=
  if digit < 10 then Char.ofNat ('0'.toNat + digit) else Char.ofNat ('A'.toNat + (digit - 10))

def hexEncodeUpper (bytes : List UInt8) : List Char :=
  bytes.flatMap (fun byte => [hexChar (byte.toNat / 16), hexChar (byte.toNat % 16)])

theorem hexDigit_hexChar {digit : Nat} (small : digit < 16) :
    hexDigit (hexChar digit) = some (UInt8.ofNat digit) := by
  have all : ∀ digit : Fin 16, hexDigit (hexChar digit) = some (UInt8.ofNat digit) := by decide
  exact all ⟨digit, small⟩

theorem hexDecode_hexEncodeUpper (bytes : List UInt8) :
    hexDecode (hexEncodeUpper bytes) = some bytes := by
  induction bytes with
  | nil => rfl
  | cons byte rest ih =>
      have bound := byte.toNat_lt
      have high := hexDigit_hexChar (show byte.toNat / 16 < 16 by omega)
      have low := hexDigit_hexChar (show byte.toNat % 16 < 16 by omega)
      have joined : 16 * UInt8.ofNat (byte.toNat / 16) + UInt8.ofNat (byte.toNat % 16) = byte := by
        apply UInt8.toNat_inj.mp
        have sixteen : UInt8.toNat 16 = 16 := rfl
        simp only [UInt8.toNat_add, UInt8.toNat_mul, UInt8.toNat_ofNat', sixteen]
        omega
      change hexDecode (_ :: _ :: hexEncodeUpper rest) = _
      simp only [hexDecode, high, low, ih, joined, Option.bind_eq_bind, Option.bind_some,
        Option.pure_def]

def fromHashedHex (hashed : List Char) : Except Error PubKeyHash :=
  match hexDecode hashed with
  | none => .error .hex
  | some buf => fromHashed buf

end PubKeyHash

/-- The text that a key is displayed as. -/
def PeerIdentifier.toText (peer : PeerIdentifier) : List Char :=
  PubKeyHash.hexEncodeUpper peer.bytes

/-- The zero-padded buffer of a key with these bytes, which `Ord` compares as a whole. -/
def PeerIdentifier.padded (peer : PeerIdentifier) : List UInt8 :=
  peer.bytes ++ List.replicate (evpMaxMdSize - peer.bytes.length) 0

theorem PubKeyHash.fromHashedChecked_identifier (hashed : List UInt8)
    (fits : hashed.length ≤ evpMaxMdSize) :
    (fromHashedChecked hashed fits).identifier = ⟨hashed, fits⟩ := by
  simp only [fromHashedChecked, identifier, deref, List.take_left']

end HolePunch
