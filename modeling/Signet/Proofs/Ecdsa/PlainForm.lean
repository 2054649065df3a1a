import Signet.Proofs.Ecdsa.Pairing
import Signet.Proofs.Ecdsa.SeedExponent

/-! Compact keys in plain form. A compact key and the plain key on P-192 with the same scalar are written
alike, have the same public point and accept the same signatures; only the tags of their errors differ. -/
namespace Signet

/-- The same error as another primitive raises it. -/
def Error.raisedBy (algorithm : Algorithm) : Error → Error
  | .precondition _ fault => .precondition algorithm fault
  | .corrupt _ fault => .corrupt algorithm fault
  | .rng _ fault => .rng algorithm fault
  | .backend _ fault => .backend algorithm fault
  | error => error

namespace NamedCurve

theorem ofScalarLength_eq_ok_iff {length : Nat} {curve : NamedCurve} :
    ofScalarLength length = .ok curve ↔ length = curve.scalarLength := by
  rw [ofScalarLength]
  cases curve <;> split_ifs <;> simp [scalarLength] <;> omega

theorem scalarLength_eq (c : NamedCurve) : c.scalarLength = c.curve.width := by
  cases c <;> rfl

end NamedCurve

/-- Scalars are read back from the width that they are written at. -/
theorem Curve.scalar?_bigEndian {c : Curve} [c.Lawful] (scalar : c.Scalar) :
    c.scalar? (Bytes.ofBigEndian (Bytes.bigEndian c.width scalar.val)) = some scalar := by
  rw [Bytes.ofBigEndian_bigEndian_of_lt (scalar.property.2.trans_le Lawful.n_le), scalar?_val]

namespace Ecdsa.SigningKey

theorem load_of_length {bytes : Bytes} {curve : NamedCurve} (h : bytes.length = curve.scalarLength) :
    load bytes = match curve.curve.scalar? (Bytes.ofBigEndian bytes) with
      | some secret => .ok ⟨curve, secret⟩
      | none => .error (.corrupt .ecdsa .scalarOutOfRange) := by
  rw [load, NamedCurve.ofScalarLength_eq_ok_iff.mpr h]
  rfl

/-- The byte string that a key is loaded from is the one that it is written as. -/
theorem load_eq_ok_iff {bytes : Bytes} {key : SigningKey} :
    load bytes = .ok key ↔ bytes = key.serialize := by
  constructor
  · intro h
    obtain ⟨curve, hCurve, hBody⟩ := exists_of_bind_eq_ok h
    have hLength := NamedCurve.ofScalarLength_eq_ok_iff.mp hCurve
    split at hBody
    next secret hSecret =>
      obtain rfl := Except.ok.inj hBody
      rw [serialize, ← hLength, ← Curve.scalar?_eq_some_iff.mp hSecret, Bytes.bigEndian_ofBigEndian]
    next => cases hBody
  · rintro rfl
    have hLength : key.serialize.length = key.curve.scalarLength := Bytes.length_bigEndian _ _
    rw [load_of_length hLength, serialize, NamedCurve.scalarLength_eq, Curve.scalar?_bigEndian]

end Ecdsa.SigningKey

namespace SeededEcdsa

/-- The plain key with the same point. -/
def VerifyingKey.plain (key : VerifyingKey) : Ecdsa.VerifyingKey := ⟨.p192, key.point⟩

/-- The plain key with the same scalar. -/
def SigningKey.plain (key : SigningKey) : Ecdsa.SigningKey := ⟨.p192, key.secret⟩

theorem VerifyingKey.verify_plain (key : VerifyingKey) (message signature : Bytes) :
    key.plain.verify message signature =
      (key.verify message signature).mapError (Error.raisedBy .ecdsa) := by
  rw [Ecdsa.VerifyingKey.verify, verify, checkSignatureLength_bind, checkSignatureLength_bind]
  change (if signature.length = signatureLength then _ else _) = _
  split <;> rfl

namespace SigningKey

theorem serialize_plain (key : SigningKey) : key.plain.serialize = key.serialize := rfl

theorem verifyingKey_plain (key : SigningKey) : key.plain.verifyingKey = key.verifyingKey.plain := rfl

theorem plain_injective : Function.Injective plain := by
  rintro ⟨secret⟩ ⟨other⟩ h
  cases h
  rfl

/-- Both forms of a key are loaded from the same strings of twenty-four bytes. -/
theorem load_plain (bytes : Octets 24) : Ecdsa.SigningKey.load bytes.val =
    ((load bytes.val).map plain).mapError (Error.raisedBy .ecdsa) := by
  have hCurve : bytes.val.length = NamedCurve.p192.scalarLength := bytes.property
  have hLength : bytes.val.length = scalarLength := bytes.property
  rw [Ecdsa.SigningKey.load_of_length hCurve, load, if_neg (not_not.mpr hLength)]
  cases hScalar : NamedCurve.p192.curve.scalar? (Bytes.ofBigEndian bytes.val) with
  | none =>
      have hNone : p192.scalar? (Bytes.ofBigEndian bytes.val) = none := hScalar
      rw [hNone]
      rfl
  | some secret =>
      have hSome : p192.scalar? (Bytes.ofBigEndian bytes.val) = some secret := hScalar
      rw [hSome]
      rfl

theorem load_eq_ok_iff {bytes : Bytes} {key : SigningKey} :
    load bytes = .ok key ↔ bytes = key.serialize := by
  rw [← serialize_plain, ← Ecdsa.SigningKey.load_eq_ok_iff]
  by_cases hLength : bytes.length = scalarLength
  · rw [load_plain ⟨bytes, hLength⟩]
    cases load bytes with
    | error error => simp [Except.map, Except.mapError]
    | ok loaded => simp only [Except.map, Except.mapError, Except.ok.injEq, plain_injective.eq_iff]
  · rw [load, if_pos hLength]
    refine ⟨fun h => (by cases h), fun h => ?_⟩
    rw [Ecdsa.SigningKey.load_eq_ok_iff.mp h] at hLength
    exact absurd (Bytes.length_bigEndian _ _) hLength

theorem verify_verifyingKey_iff (key : SigningKey) (message signature : Bytes) :
    key.verifyingKey.verify message signature = .ok true ↔
      ∃ nonce, p192.Signs key.secret nonce (NamedCurve.p192.digest message) signature :=
  NamedCurve.p192.checked_verify_iff .ecdsaSeeded key.secret message signature

theorem signingOutcome_sign (key : SigningKey) (message entropy : Bytes) :
    NamedCurve.p192.SigningOutcome .ecdsaSeeded key.secret message (.ofSeed entropy)
      (key.sign message entropy).result := by
  have hEntropy : (EntropyPool.ofSeed entropy).hasEntropy = true := rfl
  exact (NamedCurve.p192.signingOutcome_sign .ecdsaSeeded key.secret message
    hEntropy).result_assertSigned

end SigningKey

/-- Compact and plain keys on P-192 are one scheme. From each string of twenty-four bytes the two forms of
one key are loaded or none, which are written as this string and have the same public point. Both public
keys judge every byte string alike and accept those that signing with the scalar and some nonce writes,
among them all that either key signs with fresh entropy. Whenever some search of the derivation ends, the
seed gives the key whose written form is the exponent, in both forms; the arithmetic of the curve refuses
no exponent. -/
theorem compact_and_plain_agree :
    (∀ bytes : Octets 24, Ecdsa.SigningKey.load bytes.val =
      ((SigningKey.load bytes.val).map SigningKey.plain).mapError (Error.raisedBy .ecdsa)) ∧
    (∀ key : SigningKey,
      (∀ bytes, SigningKey.load bytes = .ok key ↔ bytes = key.serialize) ∧
      (∀ bytes, Ecdsa.SigningKey.load bytes = .ok key.plain ↔ bytes = key.serialize) ∧
      key.plain.serialize = key.serialize ∧ key.plain.verifyingKey = key.verifyingKey.plain) ∧
    (∀ (key : VerifyingKey) (message signature : Bytes), key.plain.verify message signature =
      (key.verify message signature).mapError (Error.raisedBy .ecdsa)) ∧
    (∀ (key : SigningKey) (message : Bytes),
      let IsWritten (signature : Bytes) : Prop :=
        ∃ nonce, p192.Signs key.secret nonce (NamedCurve.p192.digest message) signature
      (∀ signature,
        (key.verifyingKey.verify message signature = .ok true ↔ IsWritten signature) ∧
        (key.plain.verifyingKey.verify message signature = .ok true ↔ IsWritten signature)) ∧
      ∀ entropy : Bytes,
        NamedCurve.p192.SigningOutcome .ecdsaSeeded key.secret message (.ofSeed entropy)
          (key.sign message entropy).result ∧
        NamedCurve.p192.SigningOutcome .ecdsa key.secret message (.ofSeed entropy)
          (key.plain.sign message entropy).result) ∧
    (∀ (seed : Bytes) (exponent : Octets 24),
      (∃ trials, (Derivation.deriveWith Derivation.tiger trials seed ()).1.result = .ok exponent) ↔
        ∃ key, (SigningKey.ofSeed seed).result = .ok key ∧ key.serialize = exponent.val ∧
          SigningKey.load exponent.val = .ok key ∧
          Ecdsa.SigningKey.load exponent.val = .ok key.plain) ∧
    ∀ (seed : Bytes) (algorithm : Algorithm) (fault : Fault),
      (Derivation.deriveScalar seed).result ≠ .error (.refused (.backend algorithm fault)) := by
  refine ⟨SigningKey.load_plain, fun key => ⟨fun bytes => SigningKey.load_eq_ok_iff,
    fun bytes => Ecdsa.SigningKey.load_eq_ok_iff, key.serialize_plain, key.verifyingKey_plain⟩,
    VerifyingKey.verify_plain, fun key message => ⟨fun signature => ?_, fun entropy => ?_⟩,
    fun seed exponent => ?_, Derivation.result_deriveScalar_ne_backend⟩
  · exact ⟨key.verify_verifyingKey_iff message signature,
      key.plain.verify_verifyingKey_iff message signature⟩
  · exact ⟨key.signingOutcome_sign message entropy, key.plain.signingOutcome_sign message entropy⟩
  · rw [← Derivation.result_derive_eq_ok_iff]
    constructor
    · intro hDerived
      obtain ⟨secret, rfl⟩ := Derivation.exists_scalar_of_derive hDerived
      exact ⟨⟨secret⟩, SigningKey.result_ofSeed_eq_ok_iff.mpr hDerived, rfl,
        SigningKey.load_eq_ok_iff.mpr rfl, Ecdsa.SigningKey.load_eq_ok_iff.mpr rfl⟩
    · rintro ⟨key, hKey, hWritten, -, -⟩
      obtain rfl : Octets.ofNat 24 key.secret.val = exponent := Subtype.ext hWritten
      exact SigningKey.result_ofSeed_eq_ok_iff.mp hKey

end SeededEcdsa

end Signet
