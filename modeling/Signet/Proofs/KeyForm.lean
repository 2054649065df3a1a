import Signet.Key
import Signet.Proofs.Curve.Encoding
import Signet.Proofs.Rsa.Encoding

/-! The forms of serialized public keys. Keys of different types have different forms, apart from one
overlap: an envelope of an RSA key with a tiny modulus has as many bytes as a point of Ed25519. -/
namespace Signet

/-- The bytes of an envelope around a point of the given curve. -/
def NamedCurve.IsEnvelope (c : NamedCurve) (bytes : Bytes) : Prop :=
  bytes.length ≠ 32 ∧ ∃ point, bytes = Der.publicKeyInfo (Ecdsa.algorithmId c) point

/-- What is common to all byte strings that keys of a type are written as or loaded from. -/
def KeyType.IsForm : KeyType → Bytes → Prop
  | rsaPssSha256, bytes => ∃ numbers, bytes = Der.publicKeyInfo Rsa.algorithmId numbers
  | ecdsaP192, bytes => NamedCurve.p192.IsEnvelope bytes
  | ecdsaP521, bytes => NamedCurve.p521.IsEnvelope bytes
  | ecdsaSeededP192, bytes =>
      bytes.length ≠ 32 ∧ ∃ tag rest, bytes = tag :: rest ∧ tag ≠ Der.sequenceTag
  | ed25519, bytes => bytes.length = 32

theorem NamedCurve.isForm_keyType_iff (c : NamedCurve) (bytes : Bytes) :
    c.keyType.IsForm bytes ↔ c.IsEnvelope bytes := by
  cases c <;> rfl

/-- The lengths of points with one or both coordinates, and of infinity, never fill thirty-two bytes. -/
theorem NamedCurve.isEnvelope_publicKeyInfo (c : NamedCurve) {point : Bytes}
    (h : point.length = 1 ∨ point.length = c.curve.width + 1 ∨ point.length = 2 * c.curve.width + 1) :
    c.IsEnvelope (Der.publicKeyInfo (Ecdsa.algorithmId c) point) := by
  refine ⟨?_, point, rfl⟩
  rw [Der.length_publicKeyInfo]
  cases c <;> rcases h with h | h | h <;> rw [h] <;> decide

section Load

variable {bytes : Bytes}

theorem Rsa.VerifyingKey.eq_serialize_of_load {key : Rsa.VerifyingKey}
    (h : Rsa.VerifyingKey.load bytes = .ok key) : bytes = key.serialize := by
  rw [Rsa.VerifyingKey.load] at h
  split at h
  next loaded hLoad =>
    obtain rfl := Except.ok.inj h
    exact (Rsa.VerifyingKey.load?_eq_some_iff.mp hLoad).2
  next => cases h

theorem Ecdsa.VerifyingKey.onCurve?_eq_some {c : NamedCurve} {key : Ecdsa.VerifyingKey}
    (h : onCurve? c bytes = some key) :
    key.curve = c ∧ ∃ point, bytes = Der.publicKeyInfo (algorithmId c) point ∧
      (Point.decode? c.curve point).isSome := by
  obtain ⟨point, hPoint, hDecode⟩ := Option.bind_eq_some_iff.mp h
  obtain ⟨decoded, hDecoded, hKey⟩ := Option.bind_eq_some_iff.mp hDecode
  obtain rfl := Option.some.inj hKey
  obtain ⟨-, rfl⟩ := Der.readPublicKeyInfo?_eq_some_iff.mp hPoint
  exact ⟨rfl, point, rfl, by rw [hDecoded]; rfl⟩

theorem Ecdsa.VerifyingKey.isEnvelope_of_load {key : Ecdsa.VerifyingKey}
    (h : Ecdsa.VerifyingKey.load bytes = .ok key) : key.curve.IsEnvelope bytes := by
  rw [Ecdsa.VerifyingKey.load] at h
  split at h
  next loaded hLoad =>
    obtain rfl := Except.ok.inj h
    have hCurve : ∃ c, onCurve? c bytes = some loaded := by
      rw [Option.orElse_eq_orElse, Option.orElse_eq_or] at hLoad
      rcases Option.or_eq_some_iff.mp hLoad with hFirst | ⟨-, hSecond⟩
      · exact ⟨.p192, hFirst⟩
      · exact ⟨.p521, hSecond⟩
    obtain ⟨c, hCurve⟩ := hCurve
    obtain ⟨rfl, point, rfl, hDecoded⟩ := onCurve?_eq_some hCurve
    obtain ⟨decoded, hDecoded⟩ := Option.isSome_iff_exists.mp hDecoded
    obtain ⟨tag, rest, rfl, hForm⟩ := Point.form_of_decode?_eq_some hDecoded
    refine NamedCurve.isEnvelope_publicKeyInfo _ (.inr ?_)
    rcases hForm with ⟨-, hLength⟩ | ⟨-, hLength⟩
    · exact .inr (congrArg Nat.succ hLength)
    · exact .inl (congrArg Nat.succ hLength)
  next => cases h

theorem SeededEcdsa.VerifyingKey.isForm_of_load {key : SeededEcdsa.VerifyingKey}
    (h : SeededEcdsa.VerifyingKey.load bytes = .ok key) : KeyType.ecdsaSeededP192.IsForm bytes := by
  rw [SeededEcdsa.VerifyingKey.load] at h
  split at h
  next => cases h
  next hLength =>
    have hLength : bytes.length = 25 := not_not.mp hLength
    split at h
    next decoded hDecoded =>
      obtain ⟨tag, rest, rfl, hForm⟩ := Point.form_of_decode?_eq_some hDecoded
      refine ⟨by omega, tag, rest, rfl, ?_⟩
      rintro rfl
      rcases hForm with ⟨hTag, -⟩ | ⟨hTag | hTag | hTag, -⟩ <;> exact absurd hTag (by decide)
    next => cases h

theorem Ed25519.VerifyingKey.load_of_decode?_eq_some {encoding : Octets 32} {point : Edwards.Point}
    (h : Edwards.Point.decode? encoding = some point) :
    Ed25519.VerifyingKey.load encoding.val = .ok ⟨encoding, point⟩ := by
  have hLength : encoding.val.length = verifyingKeyLength := encoding.property
  have hPoint : Edwards.Point.decode? ⟨encoding.val, hLength⟩ = some point := h
  rw [Ed25519.VerifyingKey.load, dif_pos hLength]
  simp only [hPoint]

theorem Ed25519.VerifyingKey.serialize_of_load {key : Ed25519.VerifyingKey}
    (h : Ed25519.VerifyingKey.load bytes = .ok key) : key.serialize = bytes := by
  rw [Ed25519.VerifyingKey.load] at h
  split at h
  next hLength =>
    split at h
    next =>
      obtain rfl := Except.ok.inj h
      rfl
    next => cases h
  next => cases h

end Load

namespace VerifyingKey

/-- The bytes that a key is written as have the form of its type. -/
theorem isForm_serialize (key : VerifyingKey) : key.keyType.IsForm key.serialize := by
  cases key with
  | rsaPss key => exact ⟨_, rfl⟩
  | ecdsa key =>
      refine (key.curve.isForm_keyType_iff _).mpr (key.curve.isEnvelope_publicKeyInfo ?_)
      rcases key.point.length_encodeUncompressed with hInfinity | hAffine
      · exact .inl hInfinity
      · exact .inr (.inr hAffine)
  | ecdsaSeeded key =>
      rcases key.point.encodeCompressed_form with hInfinity | ⟨tag, rest, hBytes, hTag, hLength⟩
      · have hSerialize : serialize (ecdsaSeeded key) = [0] := hInfinity
        rw [hSerialize]
        exact ⟨by decide, 0, [], rfl, by decide⟩
      · have hSerialize : serialize (ecdsaSeeded key) = tag :: rest := hBytes
        have hWidth : rest.length = 24 := hLength
        rw [hSerialize]
        refine ⟨by rw [List.length_cons, hWidth]; decide, tag, rest, rfl, ?_⟩
        rcases hTag with rfl | rfl <;> decide
  | ed25519 key => exact key.bytes.property

/-- The bytes that a key is loaded from have the form of its type. -/
theorem isForm_of_load {family : Family} {bytes : Bytes} {key : VerifyingKey}
    (h : load family bytes = .ok key) : key.keyType.family = family ∧ key.keyType.IsForm bytes := by
  cases family with
  | rsaPss =>
      obtain ⟨loaded, hLoad, rfl⟩ := exists_of_map_eq_ok h
      exact ⟨rfl, _, Rsa.VerifyingKey.eq_serialize_of_load hLoad⟩
  | ecdsa =>
      obtain ⟨loaded, hLoad, rfl⟩ := exists_of_map_eq_ok h
      refine ⟨?_, (loaded.curve.isForm_keyType_iff _).mpr (Ecdsa.VerifyingKey.isEnvelope_of_load hLoad)⟩
      cases hCurve : loaded.curve <;> simp [keyType, hCurve, NamedCurve.keyType, KeyType.family]
  | ecdsaSeeded =>
      obtain ⟨loaded, hLoad, rfl⟩ := exists_of_map_eq_ok h
      exact ⟨rfl, SeededEcdsa.VerifyingKey.isForm_of_load hLoad⟩
  | ed25519 =>
      obtain ⟨loaded, hLoad, rfl⟩ := exists_of_map_eq_ok h
      refine ⟨rfl, ?_⟩
      rw [← Ed25519.VerifyingKey.serialize_of_load hLoad]
      exact loaded.bytes.property

end VerifyingKey

/-- The pairs of key types whose forms overlap. -/
inductive KeyType.Overlaps : KeyType → KeyType → Prop where
  | rsaPss : Overlaps rsaPssSha256 ed25519
  | ed25519 : Overlaps ed25519 rsaPssSha256

/-- The content of the algorithm identifier in the envelopes of a type that has envelopes. -/
def KeyType.algorithmId? : KeyType → Option Bytes
  | rsaPssSha256 => some Rsa.algorithmId
  | ecdsaP192 => some (Ecdsa.algorithmId .p192)
  | ecdsaP521 => some (Ecdsa.algorithmId .p521)
  | ecdsaSeededP192 | ed25519 => none

namespace KeyType

theorem length_of_algorithmId?_eq_some {keyType : KeyType} {algorithm : Bytes}
    (h : keyType.algorithmId? = some algorithm) : algorithm.length ≤ Der.maxLength := by
  cases keyType with
  | rsaPssSha256 | ecdsaP192 | ecdsaP521 =>
      obtain rfl := Option.some.inj h
      decide
  | ecdsaSeededP192 | ed25519 => cases h

theorem eq_of_algorithmId?_eq {left right : KeyType} (hLeft : left ≠ ed25519) (hRight : right ≠ ed25519)
    (h : left.algorithmId? = right.algorithmId?) : left = right := by
  cases left <;> cases right <;> first | rfl | contradiction

namespace IsForm

variable {keyType other : KeyType} {bytes algorithm : Bytes}

theorem of_length_eq (h : keyType.IsForm bytes) (hLength : bytes.length = 32) :
    keyType = rsaPssSha256 ∨ keyType = ed25519 := by
  cases keyType with
  | rsaPssSha256 => exact .inl rfl
  | ed25519 => exact .inr rfl
  | ecdsaP192 | ecdsaP521 | ecdsaSeededP192 => exact absurd hLength h.1

theorem ne_ed25519 (h : keyType.IsForm bytes) (hLength : bytes.length ≠ 32) : keyType ≠ ed25519 := by
  rintro rfl
  exact hLength h

/-- A form of another length than that of Ed25519 is an envelope with the algorithm of its type, if the
type has one, and otherwise no envelope. -/
theorem exists_eq_publicKeyInfo_iff (h : keyType.IsForm bytes) (hLength : bytes.length ≠ 32)
    (hMax : algorithm.length ≤ Der.maxLength) :
    (∃ key, bytes = Der.publicKeyInfo algorithm key) ↔ keyType.algorithmId? = some algorithm := by
  have hEnvelope {identifier key : Bytes} (hIdentifier : keyType.algorithmId? = some identifier)
      (hBytes : bytes = Der.publicKeyInfo identifier key) :
      (∃ key, bytes = Der.publicKeyInfo algorithm key) ↔ keyType.algorithmId? = some algorithm := by
    constructor
    · rintro ⟨carried, hCarried⟩
      have hLess := length_of_algorithmId?_eq_some hIdentifier
      rw [hIdentifier, (Der.publicKeyInfo_inj hLess hMax (hBytes.symm.trans hCarried)).1]
    · intro hAlgorithm
      obtain rfl := Option.some.inj (hIdentifier.symm.trans hAlgorithm)
      exact ⟨key, hBytes⟩
  cases keyType with
  | rsaPssSha256 => exact hEnvelope rfl h.choose_spec
  | ecdsaP192 => exact hEnvelope rfl h.2.choose_spec
  | ecdsaP521 => exact hEnvelope rfl h.2.choose_spec
  | ecdsaSeededP192 =>
      obtain ⟨-, tag, rest, rfl, hTag⟩ := h
      refine ⟨?_, fun hNone => by cases hNone⟩
      rintro ⟨key, hBytes⟩
      exact absurd (List.cons.inj hBytes).1 hTag
  | ed25519 => exact absurd h hLength

/-- Forms of different types have no byte string in common, unless the types are RSA and Ed25519. -/
theorem eq_or_overlaps (h : keyType.IsForm bytes) (hOther : other.IsForm bytes) :
    keyType = other ∨ keyType.Overlaps other := by
  by_cases hLength : bytes.length = 32
  · rcases h.of_length_eq hLength with rfl | rfl <;>
      rcases hOther.of_length_eq hLength with rfl | rfl
    · exact .inl rfl
    · exact .inr .rsaPss
    · exact .inr .ed25519
    · exact .inl rfl
  · refine .inl (eq_of_algorithmId?_eq (h.ne_ed25519 hLength) (hOther.ne_ed25519 hLength) ?_)
    refine Option.ext fun algorithm => ⟨fun hAlgorithm => ?_, fun hAlgorithm => ?_⟩
    · have hMax := length_of_algorithmId?_eq_some hAlgorithm
      rw [← hOther.exists_eq_publicKeyInfo_iff hLength hMax]
      exact (h.exists_eq_publicKeyInfo_iff hLength hMax).mpr hAlgorithm
    · have hMax := length_of_algorithmId?_eq_some hAlgorithm
      rw [← h.exists_eq_publicKeyInfo_iff hLength hMax]
      exact (hOther.exists_eq_publicKeyInfo_iff hLength hMax).mpr hAlgorithm

end IsForm

end KeyType

end Signet
