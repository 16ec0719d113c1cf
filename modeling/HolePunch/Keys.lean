import HolePunch.PubKey

set_option autoImplicit false

/- All the ways in which a program gets a `PubKeyHash` (`pubkey.rs`), and what every key so
obtained looks like. An outer `Except String` is a panic with its message. -/
namespace HolePunch

/-- A JSON document, as far as reading a list of bytes tells documents apart. -/
inductive JsonValue where
  | number (value : Int)
  | array (items : List JsonValue)
  | other

inductive JsonError where
  | invalidType
  | invalidValue
  | invalidLength (length : Nat) (expected : String)
  deriving DecidableEq, Repr

/-- What is used of `openssl`: the `sha256` of some bytes, the `DER` encoding of a key's public
part, and reading a certificate and its key. -/
structure Openssl where
  PublicKey : Type
  PrivateKey : Type
  X509 : Type
  sha256 : List UInt8 → Except Error (List UInt8)
  publicKeyToDer : PublicKey → Except Error (List UInt8)
  privateKeyToDer : PrivateKey → Except Error (List UInt8)
  x509FromPem : List UInt8 → Except Error X509
  publicKey : X509 → Except Error PublicKey

namespace JsonValue

/-- `u8::deserialize`. -/
def toByte : JsonValue → Except JsonError UInt8
  | .number value =>
      if 0 ≤ value ∧ value < 256 then .ok (UInt8.ofNat value.toNat) else .error .invalidValue
  | _ => .error .invalidType

/-- `Vec::<u8>::deserialize`. -/
def toBytes : JsonValue → Except JsonError (List UInt8)
  | .array items => items.mapM toByte
  | _ => .error .invalidType

/-- How bytes are written. -/
def ofBytes (bytes : List UInt8) : JsonValue := .array (bytes.map (fun byte => .number byte.toNat))

end JsonValue

namespace PubKeyHash

/-- The copy into the buffer panics when the slice `buf[..hashed.len()]` is not in it. -/
def fromHashedCheckedOrPanic (hashed : List UInt8) : Except String PubKeyHash :=
  if fits : hashed.length ≤ evpMaxMdSize then .ok (fromHashedChecked hashed fits)
  else .error "index out of range for slice of length 64"

def fromHashedOrPanic (hashed : List UInt8) : Except String (Except Error PubKeyHash) :=
  if evpMaxMdSize < hashed.length then
    .ok (.error (.custom "Size is too long for a hashed value!"))
  else do
    let key ← fromHashedCheckedOrPanic hashed
    return .ok key

def fromHashedHexOrPanic (hashed : List Char) : Except String (Except Error PubKeyHash) :=
  match hexDecode hashed with
  | none => .ok (.error .hex)
  | some buf => fromHashedOrPanic buf

def fromPublicKeyDer (openssl : Openssl) (pubDer : List UInt8) (storeOrig : Bool) :
    Except String (Except Error PubKeyHash) :=
  match openssl.sha256 pubDer with
  | .error reason => .ok (.error reason)
  | .ok bytes => do
      let key ← fromHashedCheckedOrPanic bytes
      return .ok (if storeOrig then { key with pubKey := some pubDer } else key)

def fromPublicKey (openssl : Openssl) (origKey : openssl.PublicKey) (storeOrig : Bool) :
    Except String (Except Error PubKeyHash) :=
  match openssl.publicKeyToDer origKey with
  | .error reason => .ok (.error reason)
  | .ok pubDer => fromPublicKeyDer openssl pubDer storeOrig

def fromPrivateKey (openssl : Openssl) (origKey : openssl.PrivateKey) (storeOrig : Bool) :
    Except String (Except Error PubKeyHash) :=
  match openssl.privateKeyToDer origKey with
  | .error reason => .ok (.error reason)
  | .ok pubDer => fromPublicKeyDer openssl pubDer storeOrig

def fromX509Pem (openssl : Openssl) (cert : List UInt8) (storeOrig : Bool) :
    Except String (Except Error PubKeyHash) :=
  match openssl.x509FromPem cert with
  | .error reason => .ok (.error reason)
  | .ok cert =>
      match openssl.publicKey cert with
      | .error reason => .ok (.error reason)
      | .ok key => fromPublicKey openssl key storeOrig

def serialize (key : PubKeyHash) : JsonValue := .ofBytes key.deref

/-- The deserialiser fills a buffer of its own, as `from_hashed_checked` does. -/
def deserialize (value : JsonValue) : Except String (Except JsonError PubKeyHash) :=
  match value.toBytes with
  | .error reason => .ok (.error reason)
  | .ok vec =>
      if evpMaxMdSize < vec.length then
        .ok (.error (.invalidLength vec.length "buf is too long"))
      else do
        let key ← fromHashedCheckedOrPanic vec
        return .ok key

/-- `Display`. -/
def toText (key : PubKeyHash) : List Char := hexEncodeUpper key.deref

def clone (key : PubKeyHash) : PubKeyHash := ⟨key.buf, key.len, key.pubKey, key.size⟩

/-- The keys that a program can come by. -/
inductive Obtainable (openssl : Openssl) : PubKeyHash → Prop
  | fromHashed {hashed key} (made : fromHashedOrPanic hashed = .ok (.ok key)) :
      Obtainable openssl key
  | fromHashedHex {hashed key} (made : fromHashedHexOrPanic hashed = .ok (.ok key)) :
      Obtainable openssl key
  | fromPublicKeyDer {pubDer storeOrig key}
      (made : fromPublicKeyDer openssl pubDer storeOrig = .ok (.ok key)) : Obtainable openssl key
  | fromPublicKey {origKey storeOrig key}
      (made : fromPublicKey openssl origKey storeOrig = .ok (.ok key)) : Obtainable openssl key
  | fromPrivateKey {origKey storeOrig key}
      (made : fromPrivateKey openssl origKey storeOrig = .ok (.ok key)) : Obtainable openssl key
  | fromX509Pem {cert storeOrig key}
      (made : fromX509Pem openssl cert storeOrig = .ok (.ok key)) : Obtainable openssl key
  | deserialize {value key} (made : deserialize value = .ok (.ok key)) : Obtainable openssl key
  | clone {key} (original : Obtainable openssl key) : Obtainable openssl key.clone

/-- Where the length is checked first the copy does not panic. -/
theorem fromHashedCheckedOrPanic_of_fits {hashed : List UInt8}
    (fits : hashed.length ≤ evpMaxMdSize) :
    fromHashedCheckedOrPanic hashed = .ok (fromHashedChecked hashed fits) := by
  simp only [fromHashedCheckedOrPanic, fits, ↓reduceDIte]

theorem fromHashedOrPanic_eq (hashed : List UInt8) :
    fromHashedOrPanic hashed = .ok (fromHashed hashed) := by
  unfold fromHashedOrPanic fromHashed
  by_cases fits : hashed.length ≤ evpMaxMdSize
  · rw [fromHashedCheckedOrPanic_of_fits fits, dif_pos fits, if_neg (by omega)]
    rfl
  · rw [dif_neg fits, if_pos (by omega)]

theorem fromHashedHexOrPanic_eq (hashed : List Char) :
    fromHashedHexOrPanic hashed = .ok (fromHashedHex hashed) := by
  unfold fromHashedHexOrPanic fromHashedHex
  cases hexDecode hashed with
  | none => rfl
  | some buf => exact fromHashedOrPanic_eq buf

theorem fromHashed_ok_iff (hashed : List UInt8) (key : PubKeyHash) :
    fromHashed hashed = .ok key ↔
      ∃ fits : hashed.length ≤ evpMaxMdSize, key = fromHashedChecked hashed fits := by
  unfold fromHashed
  by_cases fits : hashed.length ≤ evpMaxMdSize
  · rw [dif_pos fits, Except.ok.injEq]
    constructor
    · intro made
      exact ⟨fits, made.symm⟩
    · rintro ⟨_, made⟩
      exact made.symm
  · rw [dif_neg fits]
    constructor
    · intro impossible
      cases impossible
    · rintro ⟨within, _⟩
      exact absurd within fits

/-- Deserialising is reading the bytes and checking their number, and does not panic. -/
theorem deserialize_eq (value : JsonValue) :
    deserialize value = .ok (match value.toBytes with
      | .error reason => .error reason
      | .ok vec =>
          if fits : vec.length ≤ evpMaxMdSize then .ok (fromHashedChecked vec fits)
          else .error (.invalidLength vec.length "buf is too long")) := by
  unfold deserialize
  cases value.toBytes with
  | error reason => rfl
  | ok vec =>
      by_cases fits : vec.length ≤ evpMaxMdSize
      · simp only [fromHashedCheckedOrPanic_of_fits fits, dif_pos fits,
          if_neg (Nat.not_lt.mpr fits)]
        rfl
      · simp only [dif_neg fits, if_pos (Nat.lt_of_not_le fits)]

/-- Every constructor copies a hash into a buffer of zeros; some store the original key with it. -/
def Built (key : PubKeyHash) : Prop :=
  ∃ (hashed : List UInt8) (fits : hashed.length ≤ evpMaxMdSize) (original : Option (List UInt8)),
    key = { fromHashedChecked hashed fits with pubKey := original }

theorem built_fromHashedChecked {hashed : List UInt8} (fits : hashed.length ≤ evpMaxMdSize) :
    (fromHashedChecked hashed fits).Built :=
  ⟨hashed, fits, none, rfl⟩

theorem built_of_fromHashed {hashed : List UInt8} {key : PubKeyHash}
    (made : fromHashed hashed = .ok key) : key.Built := by
  obtain ⟨fits, rfl⟩ := (fromHashed_ok_iff hashed key).mp made
  exact built_fromHashedChecked fits

theorem built_of_fromPublicKeyDer {openssl : Openssl} {pubDer : List UInt8} {storeOrig : Bool}
    {key : PubKeyHash} (made : fromPublicKeyDer openssl pubDer storeOrig = .ok (.ok key)) :
    key.Built := by
  unfold fromPublicKeyDer at made
  cases digest : openssl.sha256 pubDer with
  | error reason =>
      rw [digest] at made
      cases made
  | ok bytes =>
      rw [digest] at made
      by_cases fits : bytes.length ≤ evpMaxMdSize
      · simp only [fromHashedCheckedOrPanic_of_fits fits] at made
        cases made
        cases storeOrig with
        | true => exact ⟨bytes, fits, some pubDer, rfl⟩
        | false => exact ⟨bytes, fits, none, rfl⟩
      · simp only [fromHashedCheckedOrPanic, fits, ↓reduceDIte] at made
        cases made

theorem built_of_fromPublicKey {openssl : Openssl} {origKey : openssl.PublicKey}
    {storeOrig : Bool} {key : PubKeyHash}
    (made : fromPublicKey openssl origKey storeOrig = .ok (.ok key)) : key.Built := by
  unfold fromPublicKey at made
  split at made
  · cases made
  · exact built_of_fromPublicKeyDer made

theorem built_of_fromX509Pem {openssl : Openssl} {cert : List UInt8} {storeOrig : Bool}
    {key : PubKeyHash} (made : fromX509Pem openssl cert storeOrig = .ok (.ok key)) :
    key.Built := by
  unfold fromX509Pem at made
  split at made
  · cases made
  · split at made
    · cases made
    · exact built_of_fromPublicKey made

theorem built_of_deserialize {value : JsonValue} {key : PubKeyHash}
    (made : deserialize value = .ok (.ok key)) : key.Built := by
  rw [deserialize_eq] at made
  split at made
  · cases made
  · split at made
    · cases made
      exact built_fromHashedChecked _
    · cases made

theorem Obtainable.built {openssl : Openssl} {key : PubKeyHash}
    (obtained : Obtainable openssl key) : key.Built := by
  induction obtained with
  | fromHashed made =>
      rw [fromHashedOrPanic_eq] at made
      exact built_of_fromHashed (Except.ok.inj made)
  | fromHashedHex made =>
      rw [fromHashedHexOrPanic_eq] at made
      have decoded := Except.ok.inj made
      unfold PubKeyHash.fromHashedHex at decoded
      split at decoded
      · cases decoded
      · exact built_of_fromHashed decoded
  | fromPublicKeyDer made => exact built_of_fromPublicKeyDer made
  | fromPublicKey made => exact built_of_fromPublicKey made
  | fromPrivateKey made =>
      unfold PubKeyHash.fromPrivateKey at made
      split at made
      · cases made
      · exact built_of_fromPublicKeyDer made
  | fromX509Pem made => exact built_of_fromX509Pem made
  | deserialize made => exact built_of_deserialize made
  | clone _ ih => exact ih

/-- The representation of a key: its length is in range and the rest of the buffer is zero. -/
structure Padded (key : PubKeyHash) : Prop where
  bounded : key.len ≤ evpMaxMdSize
  zeros : ∀ index, key.len ≤ index → index < evpMaxMdSize → key.buf[index]? = some 0

theorem Built.padded {key : PubKeyHash} (built : key.Built) : key.Padded := by
  obtain ⟨hashed, fits, original, rfl⟩ := built
  refine ⟨fits, ?_⟩
  intro index past within
  change hashed.length ≤ index at past
  simp only [fromHashedChecked]
  rw [List.getElem?_append_right past, List.getElem?_replicate, if_pos (by omega)]

theorem Obtainable.padded {openssl : Openssl} {key : PubKeyHash}
    (obtained : Obtainable openssl key) : key.Padded :=
  obtained.built.padded

theorem Padded.deref_length {key : PubKeyHash} (padded : key.Padded) :
    key.deref.length = key.len := by
  rw [PubKeyHash.deref_length, Nat.min_eq_left padded.bounded]

/-- So the bytes of a key determine its buffer. -/
theorem Padded.buf_eq {key : PubKeyHash} (padded : key.Padded) :
    key.buf = key.identifier.padded := by
  have rest : key.buf.drop key.len = List.replicate (evpMaxMdSize - key.deref.length) 0 := by
    rw [padded.deref_length]
    apply List.ext_getElem?
    intro index
    rw [List.getElem?_drop, List.getElem?_replicate]
    split
    · exact padded.zeros (key.len + index) (by omega) (by omega)
    · rw [List.getElem?_eq_none_iff, key.size]
      omega
  calc key.buf = key.buf.take key.len ++ key.buf.drop key.len := (List.take_append_drop _ _).symm
    _ = key.identifier.padded := by
      rw [rest]
      rfl

theorem Padded.eq_iff {key other : PubKeyHash} (padded : key.Padded) (others : other.Padded) :
    key.eq other = true ↔ key.deref = other.deref := by
  rw [eq_iff_identifier key other padded.bounded others.bounded]
  simp only [identifier, PeerIdentifier.mk.injEq]

end PubKeyHash

end HolePunch
