import HolePunch.Keys
import Mathlib.Algebra.Group.Nat.Even

set_option autoImplicit false

/- The two textual forms of a key: JSON arrays of bytes, and hexadecimal digits. -/
namespace HolePunch

/-- What is asked of an encoder and a decoder that may panic, fail or give a value: every valid
value comes back, exactly the `accepted` inputs are decoded, encoding a decoded value gives the
canonical form of its input, and no input makes the decoder panic. -/
structure ExactCodec {ι ε κ : Type} (encode : κ → ι) (decode : ι → Except String (Except ε κ))
    (valid : κ → Prop) (same : κ → κ → Bool) (accepted : ι → Prop) (canonical : ι → ι) : Prop where
  comesBack : ∀ value, valid value →
    ∃ read, decode (encode value) = .ok (.ok read) ∧ same read value = true
  accepts : ∀ input, (∃ value, decode input = .ok (.ok value)) ↔ accepted input
  encodes : ∀ input value, decode input = .ok (.ok value) → encode value = canonical input
  panicFree : ∀ input, ∃ result, decode input = .ok result

namespace JsonValue

theorem toByte_ok_iff (value : JsonValue) (byte : UInt8) :
    value.toByte = .ok byte ↔ value = .number byte.toNat := by
  have bound := byte.toNat_lt
  cases value with
  | number given =>
      simp only [toByte, number.injEq]
      split
      · rename_i range
        rw [Except.ok.injEq]
        constructor
        · rintro rfl
          rw [UInt8.toNat_ofNat']
          omega
        · rintro rfl
          rw [Int.toNat_natCast, UInt8.ofNat_toNat]
      · rename_i outside
        constructor
        · intro impossible
          cases impossible
        · intro same
          omega
  | array items => simp [toByte]
  | other => simp [toByte]

theorem toBytes_ofBytes (bytes : List UInt8) : (ofBytes bytes).toBytes = .ok bytes := by
  change (bytes.map _).mapM toByte = .ok bytes
  induction bytes with
  | nil => rfl
  | cons byte rest ih =>
      have first : (number byte.toNat).toByte = .ok byte := (toByte_ok_iff _ byte).mpr rfl
      rw [List.map_cons, List.mapM_cons, first, ih]
      rfl

theorem eq_map_of_mapM_toByte {items : List JsonValue} {bytes : List UInt8}
    (read : items.mapM toByte = .ok bytes) :
    items = bytes.map (fun byte => .number byte.toNat) := by
  induction items generalizing bytes with
  | nil =>
      cases read
      rfl
  | cons item rest ih =>
      rw [List.mapM_cons] at read
      cases first : item.toByte with
      | error reason =>
          rw [first] at read
          cases read
      | ok byte =>
          cases others : rest.mapM toByte with
          | error reason =>
              rw [first, others] at read
              cases read
          | ok later =>
              rw [first, others] at read
              cases read
              rw [List.map_cons, ← ih others, (toByte_ok_iff item byte).mp first]

/-- Only an array of bytes reads as one. -/
theorem toBytes_ok_iff (value : JsonValue) (bytes : List UInt8) :
    value.toBytes = .ok bytes ↔ value = ofBytes bytes := by
  constructor
  · intro read
    cases value with
    | number given => cases read
    | array items => exact congrArg array (eq_map_of_mapM_toByte read)
    | other => cases read
  · rintro rfl
    exact toBytes_ofBytes bytes

end JsonValue

namespace PubKeyHash

theorem deserialize_ok_iff (value : JsonValue) (key : PubKeyHash) :
    deserialize value = .ok (.ok key) ↔
      ∃ (bytes : List UInt8) (fits : bytes.length ≤ evpMaxMdSize),
        value = .ofBytes bytes ∧ key = fromHashedChecked bytes fits := by
  rw [deserialize_eq]
  cases read : value.toBytes with
  | error reason =>
      constructor
      · intro impossible
        cases impossible
      · rintro ⟨bytes, fits, rfl, rfl⟩
        rw [JsonValue.toBytes_ofBytes] at read
        cases read
  | ok vec =>
      have written : value = .ofBytes vec := (JsonValue.toBytes_ok_iff value vec).mp read
      simp only [Except.ok.injEq]
      constructor
      · intro made
        split at made
        · rename_i fits
          exact ⟨vec, fits, written, (Except.ok.inj made).symm⟩
        · cases made
      · rintro ⟨bytes, fits, rfl, rfl⟩
        rw [JsonValue.toBytes_ofBytes] at read
        cases read
        rw [dif_pos fits]

theorem fromHashedChecked_deref {hashed : List UInt8} (fits : hashed.length ≤ evpMaxMdSize) :
    (fromHashedChecked hashed fits).deref = hashed :=
  congrArg PeerIdentifier.bytes (fromHashedChecked_identifier hashed fits)

/-- A key of the same bytes as another is equal to it. -/
theorem Padded.fromHashedChecked_eq {key : PubKeyHash} (padded : key.Padded)
    (fits : key.deref.length ≤ evpMaxMdSize) :
    (fromHashedChecked key.deref fits).eq key = true :=
  ((built_fromHashedChecked fits).padded.eq_iff padded).mpr (fromHashedChecked_deref fits)

theorem json_exact (openssl : Openssl) :
    ExactCodec serialize deserialize (Obtainable openssl) eq
      (fun value => ∃ bytes : List UInt8, bytes.length ≤ evpMaxMdSize ∧ value = .ofBytes bytes)
      id where
  comesBack key obtained := by
    have fits : key.deref.length ≤ evpMaxMdSize := key.identifier.bounded
    exact ⟨_, (deserialize_ok_iff _ _).mpr ⟨key.deref, fits, rfl, rfl⟩,
      obtained.padded.fromHashedChecked_eq fits⟩
  accepts value := by
    constructor
    · rintro ⟨key, made⟩
      obtain ⟨bytes, fits, written, _⟩ := (deserialize_ok_iff value key).mp made
      exact ⟨bytes, fits, written⟩
    · rintro ⟨bytes, fits, written⟩
      exact ⟨_, (deserialize_ok_iff value _).mpr ⟨bytes, fits, written, rfl⟩⟩
  encodes value key made := by
    obtain ⟨bytes, fits, rfl, rfl⟩ := (deserialize_ok_iff value key).mp made
    rw [serialize, fromHashedChecked_deref]
    rfl
  panicFree value := ⟨_, deserialize_eq value⟩

def IsHexDigit (c : Char) : Prop :=
  ('0' ≤ c ∧ c ≤ '9') ∨ ('A' ≤ c ∧ c ≤ 'F') ∨ ('a' ≤ c ∧ c ≤ 'f')

instance (c : Char) : Decidable (IsHexDigit c) := inferInstanceAs (Decidable (_ ∨ _))

theorem IsHexDigit.small {c : Char} (digit : IsHexDigit c) : c.toNat < 128 := by
  have upper : ∀ bound : Char, c ≤ bound → c.toNat ≤ bound.toNat := fun _ below => below
  rcases digit with ⟨_, below⟩ | ⟨_, below⟩ | ⟨_, below⟩
  · exact Nat.lt_of_le_of_lt (upper '9' below) (by decide)
  · exact Nat.lt_of_le_of_lt (upper 'F' below) (by decide)
  · exact Nat.lt_of_le_of_lt (upper 'f' below) (by decide)

theorem hexDigit_eq_none {c : Char} (noDigit : ¬ IsHexDigit c) : hexDigit c = none := by
  simp only [IsHexDigit, not_or] at noDigit
  rw [hexDigit, if_neg noDigit.1, if_neg noDigit.2.1, if_neg noDigit.2.2]

/-- Both cases of a digit have its value, and its upper case is written for it. -/
theorem hexDigit_of_isHexDigit {c : Char} (digit : IsHexDigit c) :
    ∃ value, hexDigit c = some value ∧ value.toNat < 16 ∧ hexChar value.toNat = c.toUpper := by
  have all : ∀ code : Fin 128, IsHexDigit (Char.ofNat code) →
      (hexDigit (Char.ofNat code)).any
        (fun value => value.toNat < 16 ∧ hexChar value.toNat = (Char.ofNat code).toUpper) := by
    decide
  have one := all ⟨c.toNat, digit.small⟩
  simp only [Char.ofNat_toNat] at one
  cases found : hexDigit c with
  | none =>
      rw [found] at one
      exact absurd (one digit) Bool.false_ne_true
  | some value =>
      rw [found] at one
      exact ⟨value, rfl, of_decide_eq_true (one digit)⟩

theorem hexEncodeUpper_cons (byte : UInt8) (rest : List UInt8) :
    hexEncodeUpper (byte :: rest) =
      hexChar (byte.toNat / 16) :: hexChar (byte.toNat % 16) :: hexEncodeUpper rest := rfl

/-- Digits in pairs decode, to bytes that are written as the same digits in upper case. -/
theorem hexDecode_of_isHexDigit {text : List Char} (even : Even text.length)
    (digits : ∀ c ∈ text, IsHexDigit c) :
    ∃ bytes, hexDecode text = some bytes ∧ text.length = 2 * bytes.length ∧
      hexEncodeUpper bytes = text.map Char.toUpper := by
  fun_induction hexDecode text with
  | case1 => exact ⟨[], rfl, rfl, rfl⟩
  | case2 c => exact absurd even Nat.not_even_one
  | case3 high low rest ih =>
      obtain ⟨h, highIs, highSmall, highWritten⟩ :=
        hexDigit_of_isHexDigit (digits high List.mem_cons_self)
      obtain ⟨l, lowIs, lowSmall, lowWritten⟩ :=
        hexDigit_of_isHexDigit (digits low (List.mem_cons_of_mem _ List.mem_cons_self))
      have shorter : Even rest.length := by
        rw [List.length_cons, List.length_cons, Nat.even_add_one, Nat.even_add_one,
          not_not] at even
        exact even
      obtain ⟨bytes, decoded, lengths, written⟩ := ih shorter
        (fun c member => digits c (List.mem_cons_of_mem _ (List.mem_cons_of_mem _ member)))
      refine ⟨(16 * h + l) :: bytes, ?_, ?_, ?_⟩
      · simp only [highIs, lowIs, decoded, Option.bind_eq_bind, Option.bind_some, Option.pure_def]
      · simp only [List.length_cons]
        omega
      · have joined : (16 * h + l).toNat = 16 * h.toNat + l.toNat := by
          have sixteen : UInt8.toNat 16 = 16 := rfl
          simp only [UInt8.toNat_add, UInt8.toNat_mul, sixteen]
          omega
        have halves : (16 * h.toNat + l.toNat) / 16 = h.toNat ∧
            (16 * h.toNat + l.toNat) % 16 = l.toNat := by omega
        rw [hexEncodeUpper_cons, joined, halves.1, halves.2, highWritten, lowWritten, written]
        rfl

/-- Only digits in pairs decode. -/
theorem isHexDigit_of_hexDecode {text : List Char} {bytes : List UInt8}
    (decoded : hexDecode text = some bytes) :
    Even text.length ∧ ∀ c ∈ text, IsHexDigit c := by
  fun_induction hexDecode text generalizing bytes with
  | case1 =>
      refine ⟨Even.zero, ?_⟩
      intro c member
      cases member
  | case2 c => cases decoded
  | case3 high low rest ih =>
      simp only [Option.bind_eq_bind, Option.bind_eq_some_iff] at decoded
      obtain ⟨h, highIs, l, lowIs, later, rests, _⟩ := decoded
      obtain ⟨even, digits⟩ := ih rests
      refine ⟨?_, ?_⟩
      · rw [List.length_cons, List.length_cons, Nat.even_add_one, Nat.even_add_one, not_not]
        exact even
      · intro c member
        by_contra noDigit
        have none : hexDigit c = none := hexDigit_eq_none noDigit
        rcases List.mem_cons.mp member with rfl | member
        · rw [highIs] at none
          cases none
        · rcases List.mem_cons.mp member with rfl | member
          · rw [lowIs] at none
            cases none
          · exact noDigit (digits c member)

theorem fromHashedHex_ok_iff (text : List Char) (key : PubKeyHash) :
    fromHashedHexOrPanic text = .ok (.ok key) ↔
      ∃ (bytes : List UInt8) (fits : bytes.length ≤ evpMaxMdSize),
        hexDecode text = some bytes ∧ key = fromHashedChecked bytes fits := by
  rw [fromHashedHexOrPanic_eq, Except.ok.injEq]
  unfold fromHashedHex
  cases decoded : hexDecode text with
  | none => simp
  | some buf =>
      simp only [fromHashed_ok_iff, Option.some.injEq]
      constructor
      · rintro ⟨fits, made⟩
        exact ⟨buf, fits, rfl, made⟩
      · rintro ⟨bytes, fits, rfl, made⟩
        exact ⟨fits, made⟩

theorem hex_exact (openssl : Openssl) :
    ExactCodec toText fromHashedHexOrPanic (Obtainable openssl) eq
      (fun text => Even text.length ∧ text.length ≤ 2 * evpMaxMdSize ∧ ∀ c ∈ text, IsHexDigit c)
      (fun text => text.map Char.toUpper) where
  comesBack key obtained := by
    have fits : key.deref.length ≤ evpMaxMdSize := key.identifier.bounded
    have decoded : hexDecode key.toText = some key.deref := hexDecode_hexEncodeUpper key.deref
    exact ⟨_, (fromHashedHex_ok_iff _ _).mpr ⟨key.deref, fits, decoded, rfl⟩,
      obtained.padded.fromHashedChecked_eq fits⟩
  accepts text := by
    constructor
    · rintro ⟨key, made⟩
      obtain ⟨bytes, fits, decoded, _⟩ := (fromHashedHex_ok_iff text key).mp made
      obtain ⟨even, digits⟩ := isHexDigit_of_hexDecode decoded
      obtain ⟨same, again, lengths, _⟩ := hexDecode_of_isHexDigit even digits
      rw [decoded, Option.some.injEq] at again
      subst again
      exact ⟨even, by omega, digits⟩
    · rintro ⟨even, short, digits⟩
      obtain ⟨bytes, decoded, lengths, _⟩ := hexDecode_of_isHexDigit even digits
      exact ⟨_, (fromHashedHex_ok_iff text _).mpr ⟨bytes, by omega, decoded, rfl⟩⟩
  encodes text key made := by
    obtain ⟨bytes, fits, decoded, rfl⟩ := (fromHashedHex_ok_iff text key).mp made
    obtain ⟨even, digits⟩ := isHexDigit_of_hexDecode decoded
    obtain ⟨same, again, _, written⟩ := hexDecode_of_isHexDigit even digits
    rw [decoded, Option.some.injEq] at again
    subst again
    rw [toText, fromHashedChecked_deref]
    exact written
  panicFree text := ⟨_, fromHashedHexOrPanic_eq text⟩

/-- Both forms of a key are lossless and their decoders exact: JSON is read from the arrays of at
most 64 bytes and written back as it was, hexadecimal from the strings of at most 128 digits in
pairs, of either case, and written back in upper case. -/
theorem texts_exact (openssl : Openssl) :
    ExactCodec serialize deserialize (Obtainable openssl) eq
      (fun value => ∃ bytes : List UInt8, bytes.length ≤ evpMaxMdSize ∧ value = .ofBytes bytes)
      id ∧
    ExactCodec toText fromHashedHexOrPanic (Obtainable openssl) eq
      (fun text => Even text.length ∧ text.length ≤ 2 * evpMaxMdSize ∧ ∀ c ∈ text, IsHexDigit c)
      (fun text => text.map Char.toUpper) :=
  ⟨json_exact openssl, hex_exact openssl⟩

end PubKeyHash

end HolePunch
