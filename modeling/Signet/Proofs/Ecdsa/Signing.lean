import Signet.Ecdsa.Key
import Signet.Ecdsa.SeededKey
import Signet.Proofs.Curve.P192
import Signet.Proofs.Ecdsa.Verification
import Signet.Proofs.EntropyPool.ScalarDraw

/-! Signing with a pool of entropy. The nonce is the first candidate of the pool that is a scalar, and
the only failure is that a number of the signature is zero for it. -/
namespace Signet

namespace NamedCurve

/-- What signing may come to with a pool that has entropy: a signature of the right length that
verifies, an error under the given name if a number of the signature is zero for the nonce that is
drawn, or no result at all if the pool never gives a nonce. -/
inductive SigningOutcome (c : NamedCurve) [c.curve.Lawful] (algorithm : Algorithm)
    (secret : c.curve.Scalar) (message : Bytes) (pool : EntropyPool) :
    Except Failure Bytes → Prop where
  | signed {index : Nat} {nonce : c.curve.Scalar} {signature : Bytes}
      (drawn : c.curve.FirstDrawn pool index nonce)
      (signs : c.curve.Signs secret nonce (c.digest message) signature)
      (length_eq : signature.length = c.signatureLength)
      (verifies : c.verify (c.curve.base.mul secret.val) message signature = true) :
      SigningOutcome c algorithm secret message pool (.ok signature)
  | zero {index : Nat} {nonce : c.curve.Scalar}
      (drawn : c.curve.FirstDrawn pool index nonce)
      (zero : c.curve.nonceNumber nonce.toZMod = 0 ∨
        c.curve.bindingNumber secret.toZMod nonce.toZMod (c.digest message) = 0) :
      SigningOutcome c algorithm secret message pool
        (.error (.refused (.backend algorithm .noSignature)))
  | endless (never : c.curve.NeverDrawn pool) :
      SigningOutcome c algorithm secret message pool (.error .endless)

theorem signatureLength_eq (c : NamedCurve) : c.signatureLength = 2 * c.curve.width := by
  cases c <;> rfl

theorem signingOutcome_sign (c : NamedCurve) [c.curve.Lawful] (algorithm : Algorithm)
    (secret : c.curve.Scalar) (message : Bytes) {pool : EntropyPool} (h : pool.hasEntropy = true) :
    c.SigningOutcome algorithm secret message pool (c.sign algorithm secret message pool).1 := by
  rcases c.curve.drawScalar_of_hasEntropy h with ⟨index, nonce, hFirst, hDraw⟩ | ⟨hNever, hDraw⟩
  · simp only [sign, hDraw]
    cases hMade : EcdsaSignature.make? secret nonce (c.digest message) with
    | none => exact .zero hFirst (EcdsaSignature.make?_eq_none_iff.mp hMade)
    | some signature =>
        have hSigns : c.curve.Signs secret nonce (c.digest message) signature.toBytes :=
          EcdsaSignature.signs_iff.mpr ⟨signature, hMade, rfl⟩
        refine .signed hFirst hSigns ?_ ((c.verify_iff secret message _).mpr ⟨nonce, hSigns⟩)
        rw [signature.length_toBytes, signatureLength_eq]
  · simp only [sign, hDraw]
    exact .endless hNever

/-- The assertion of the length of a fresh signature never fails and reports nothing. -/
theorem SigningOutcome.assertSigned_eq {c : NamedCurve} [c.curve.Lawful] {algorithm : Algorithm}
    {secret : c.curve.Scalar} {message : Bytes} {pool : EntropyPool}
    {signed : Except Failure Bytes} (h : c.SigningOutcome algorithm secret message pool signed) :
    assertSigned algorithm c.signatureLength signed = .silent signed := by
  cases h with
  | signed drawn signs length_eq verifies =>
      simp [assertSigned, assertSignatureLength, length_eq, Logged.silent]
  | zero drawn zero => rfl
  | endless never => rfl

/-- On P-192 the strings that verify under the public point of a secret are exactly those that signing
with some nonce writes. Signing with any pool that has entropy gives one of them or fails only because
a number of the signature is zero, and the keys on the curve pass its result on unchanged. -/
theorem p192_verify_iff_and_signingOutcome (secret : Signet.p192.Scalar) (message : Bytes) :
    (∀ signature,
      p192.verify (Signet.p192.base.mul secret.val) message signature = true ↔
        ∃ nonce : Signet.p192.Scalar,
          Signet.p192.Signs secret nonce (Bytes.ofBigEndian (Tiger.hash message).val) signature) ∧
    (∀ (algorithm : Algorithm) (pool : EntropyPool), pool.hasEntropy = true →
      SigningOutcome p192 algorithm secret message pool
        (p192.sign algorithm secret message pool).1) ∧
    ∀ entropy : Bytes,
      (Ecdsa.SigningKey.mk p192 secret).sign message entropy =
        .silent (p192.sign .ecdsa secret message (.ofSeed entropy)).1 ∧
      (SeededEcdsa.SigningKey.mk secret).sign message entropy =
        .silent (p192.sign .ecdsaSeeded secret message (.ofSeed entropy)).1 := by
  refine ⟨fun signature => p192.verify_iff secret message signature,
    fun algorithm pool h => p192.signingOutcome_sign algorithm secret message h, fun entropy => ?_⟩
  have hOutcome (algorithm : Algorithm) :
      p192.SigningOutcome algorithm secret message (.ofSeed entropy) _ :=
    p192.signingOutcome_sign algorithm secret message rfl
  exact ⟨(hOutcome .ecdsa).assertSigned_eq, (hOutcome .ecdsaSeeded).assertSigned_eq⟩

/-- A pool that a seed was fed into has entropy, so signing with it is settled. -/
theorem p192_signingOutcome_ofSeed_nil :
    (EntropyPool.ofSeed []).hasEntropy = true ∧
    SigningOutcome p192 .ecdsa ⟨1, by decide⟩ [] (.ofSeed [])
      (p192.sign .ecdsa ⟨1, by decide⟩ [] (.ofSeed [])).1 :=
  have hEntropy : (EntropyPool.ofSeed []).hasEntropy = true := rfl
  ⟨hEntropy, (p192_verify_iff_and_signingOutcome ⟨1, by decide⟩ []).2.1 .ecdsa (.ofSeed []) hEntropy⟩

end NamedCurve

end Signet
