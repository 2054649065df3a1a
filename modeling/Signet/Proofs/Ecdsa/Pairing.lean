import Signet.Proofs.Curve.P521
import Signet.Proofs.Ecdsa.NormalForm
import Signet.Proofs.Ecdsa.Signing
import Signet.Proofs.Verification

/-! The two halves of an ECDSA key belong together: the public half accepts what the private half signs
with some nonce, and nothing else. On P-521 digests are shorter than scalars. They are extended with
zeros on either side, so that no digest is reduced. -/
namespace Signet

namespace Bytes

theorem ofLittleEndian_replicate_zero (count : Nat) :
    ofLittleEndian (List.replicate count 0) = 0 := by
  induction count with
  | zero => rfl
  | succ count ih => rw [List.replicate_succ, ofLittleEndian, ih]; rfl

theorem ofLittleEndian_append_replicate_zero (bytes : Bytes) (count : Nat) :
    ofLittleEndian (bytes ++ List.replicate count 0) = ofLittleEndian bytes := by
  induction bytes with
  | nil => exact ofLittleEndian_replicate_zero count
  | cons byte rest ih => rw [List.cons_append, ofLittleEndian, ofLittleEndian, ih]

/-- Zeros in front do not change a number. -/
theorem ofBigEndian_replicate_zero_append (count : Nat) (bytes : Bytes) :
    ofBigEndian (List.replicate count 0 ++ bytes) = ofBigEndian bytes := by
  rw [ofBigEndian, List.reverse_append, List.reverse_replicate, ofLittleEndian_append_replicate_zero,
    ofBigEndian]

theorem ofBigEndian_lt (bytes : Bytes) : ofBigEndian bytes < 256 ^ bytes.length := by
  have h := ofLittleEndian_lt bytes.reverse
  rwa [List.length_reverse] at h

end Bytes

theorem Curve.Signs.length_eq {c : Curve} [c.Lawful] {secret nonce : c.Scalar} {digest : ZMod c.n}
    {signature : Bytes} (h : c.Signs secret nonce digest signature) :
    signature.length = 2 * c.width := by
  obtain ⟨-, -, rfl⟩ := h
  rw [List.length_append, Bytes.length_bigEndian, Bytes.length_bigEndian, two_mul]

namespace NamedCurve

/-- A byte string passes the check of its length and verifies exactly if signing with some nonce writes
it. -/
theorem checked_verify_iff (c : NamedCurve) (algorithm : Algorithm) (secret : c.curve.Scalar)
    (message signature : Bytes) :
    (do checkSignatureLength algorithm c.signatureLength signature
        .ok (c.verify (c.curve.base.mul secret.val) message signature)) = Except.ok true ↔
      ∃ nonce, c.curve.Signs secret nonce (c.digest message) signature := by
  rw [checkSignatureLength_bind, ← c.verify_iff]
  split
  next => rw [Except.ok.injEq]
  next hLength =>
    refine ⟨fun h => (by cases h), fun hVerifies => ?_⟩
    obtain ⟨nonce, hSigns⟩ := (c.verify_iff secret message signature).mp hVerifies
    exact absurd (hSigns.length_eq.trans c.signatureLength_eq.symm) hLength

/-- The assertion of the length of a fresh signature leaves what signing comes to as it is. -/
theorem SigningOutcome.result_assertSigned {c : NamedCurve} [c.curve.Lawful] {algorithm : Algorithm}
    {secret : c.curve.Scalar} {message : Bytes} {pool : EntropyPool} {signed : Except Failure Bytes}
    (h : c.SigningOutcome algorithm secret message pool signed) :
    c.SigningOutcome algorithm secret message pool
      (assertSigned algorithm c.signatureLength signed).result := by
  rw [h.assertSigned_eq]
  exact h

/-- The digests of P-521 as numbers of the width of a scalar. -/
theorem digest_p521_eq (message : Bytes) : p521.digest message =
    Bytes.ofBigEndian (List.replicate 2 0 ++ (Sha512.hash message).val) := by
  rw [Bytes.ofBigEndian_replicate_zero_append, digest]

theorem digest_p521_lt (message : Bytes) : p521.digest message < Signet.p521.n := by
  have h := Bytes.ofBigEndian_lt (Sha512.hash message).val
  rw [(Sha512.hash message).property] at h
  exact h.trans (by decide)

end NamedCurve

namespace Ecdsa.SigningKey

theorem verify_verifyingKey_iff (key : SigningKey) (message signature : Bytes) :
    key.verifyingKey.verify message signature = .ok true ↔
      ∃ nonce, key.curve.curve.Signs key.secret nonce (key.curve.digest message) signature :=
  key.curve.checked_verify_iff .ecdsa key.secret message signature

theorem signingOutcome_sign (key : SigningKey) (message entropy : Bytes) :
    key.curve.SigningOutcome .ecdsa key.secret message (.ofSeed entropy)
      (key.sign message entropy).result := by
  have hEntropy : (EntropyPool.ofSeed entropy).hasEntropy = true := rfl
  exact (key.curve.signingOutcome_sign .ecdsa key.secret message hEntropy).result_assertSigned

/-- On P-521 signatures have 132 bytes and verify under the public half of the key, which is read back
from its envelope, and nothing else verifies. The equations are those for the digest that is extended by
two zeros to the width of a scalar and is below the order. With fresh entropy a key signs in this way or
fails. -/
theorem p521_signatures_verify (secret : p521.Scalar) (message : Bytes) :
    let key : SigningKey := ⟨.p521, secret⟩
    let digest := Bytes.ofBigEndian (List.replicate 2 0 ++ (Sha512.hash message).val)
    (NamedCurve.p521.digest message = digest ∧ digest < p521.n) ∧
    VerifyingKey.load key.verifyingKey.serialize = .ok key.verifyingKey ∧
    (∀ (nonce : p521.Scalar) (signature : EcdsaSignature p521),
      EcdsaSignature.make? secret nonce (NamedCurve.p521.digest message) = some signature →
        p521.Signs secret nonce digest signature.toBytes ∧ signature.toBytes.length = 132 ∧
        key.verifyingKey.verify message signature.toBytes = .ok true) ∧
    (∀ bytes, key.verifyingKey.verify message bytes = .ok true ↔
      ∃ nonce, p521.Signs secret nonce digest bytes) ∧
    ∀ entropy : Bytes,
      NamedCurve.p521.SigningOutcome .ecdsa secret message (.ofSeed entropy)
        (key.sign message entropy).result ∧
      ∀ bytes, (key.sign message entropy).result = .ok bytes →
        bytes.length = 132 ∧ key.verifyingKey.verify message bytes = .ok true := by
  intro key digest
  have hDigest : NamedCurve.p521.digest message = digest := NamedCurve.digest_p521_eq message
  have hVerify (bytes : Bytes) : key.verifyingKey.verify message bytes = .ok true ↔
      ∃ nonce, p521.Signs secret nonce digest bytes := by
    rw [← hDigest]
    exact key.verify_verifyingKey_iff message bytes
  refine ⟨⟨hDigest, hDigest ▸ NamedCurve.digest_p521_lt message⟩, key.load_serialize_verifyingKey,
    fun nonce signature hMade => ?_, hVerify,
    fun entropy => ⟨key.signingOutcome_sign message entropy, fun bytes hSigned => ?_⟩⟩
  · have hSigns : p521.Signs secret nonce digest signature.toBytes := by
      rw [← hDigest]
      exact EcdsaSignature.signs_iff.mpr ⟨signature, hMade, rfl⟩
    exact ⟨hSigns, signature.length_toBytes, (hVerify signature.toBytes).mpr ⟨nonce, hSigns⟩⟩
  · have hOutcome := key.signingOutcome_sign message entropy
    rw [hSigned] at hOutcome
    cases hOutcome with
    | @signed index nonce _ drawn signs length_eq verifies =>
        exact ⟨length_eq, (hVerify bytes).mpr ⟨nonce, hDigest ▸ signs⟩⟩

/-- The secret one signs the empty message with the nonce one, and the signature verifies. -/
theorem p521_signatures_verify_one :
    let key : SigningKey := ⟨.p521, 1, by decide⟩
    ∃ signature : EcdsaSignature p521,
      EcdsaSignature.make? key.secret key.secret (NamedCurve.p521.digest []) = some signature ∧
        signature.toBytes.length = 132 ∧
        key.verifyingKey.verify [] signature.toBytes = .ok true := by
  intro key
  have hSome : (EcdsaSignature.make? key.secret key.secret
      (NamedCurve.p521.digest [])).isSome = true := by decide +kernel
  obtain ⟨signature, hMade⟩ := Option.isSome_iff_exists.mp hSome
  obtain ⟨-, hLength, hVerified⟩ :=
    (p521_signatures_verify key.secret []).2.2.1 key.secret signature hMade
  exact ⟨signature, hMade, hLength, hVerified⟩

end Ecdsa.SigningKey

end Signet
