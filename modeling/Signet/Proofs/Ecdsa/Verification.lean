import Signet.Ecdsa.Signature
import Signet.Proofs.Bytes
import Signet.Proofs.Curve.Scalar

/-! The equations of ECDSA. A byte string verifies under the public point of a secret scalar exactly if
signing with that scalar and some nonce writes it. -/
namespace Signet

namespace Curve

variable {c : Curve} [c.Lawful]

/-- The number that a nonce contributes to a signature: the first coordinate of the multiple of the
generator by the nonce, modulo the order of the generator. The neutral point has none and counts as
zero. -/
noncomputable def nonceNumber (c : Curve) [c.Lawful] (nonce : ZMod c.n) : ZMod c.n :=
  match nonce.val • c.generator with
  | .zero => 0
  | .some x _ _ => (x.val : ZMod c.n)

/-- The number that binds a secret and a digest to a nonce. -/
noncomputable def bindingNumber (c : Curve) [c.Lawful] (secret nonce digest : ZMod c.n) : ZMod c.n :=
  (digest + c.nonceNumber nonce * secret) / nonce

/-- Signing a digest with a secret and a nonce writes the given byte string: neither number of the
signature is zero, and the string holds both at the width of the curve. -/
def Signs (c : Curve) [c.Lawful] (secret nonce : c.Scalar) (digest : ZMod c.n)
    (signature : Bytes) : Prop :=
  let r := c.nonceNumber nonce.toZMod
  let s := c.bindingNumber secret.toZMod nonce.toZMod digest
  r ≠ 0 ∧ s ≠ 0 ∧ signature = Bytes.bigEndian c.width r.val ++ Bytes.bigEndian c.width s.val

/-- The number of a nonce, read off the point that is computed for it. -/
theorem nonceNumber_natCast (factor : Nat) :
    c.nonceNumber (factor : ZMod c.n) =
      match c.base.mul factor with
      | .infinity => 0
      | .affine x _ => (x.val : ZMod c.n) := by
  have hGroup : (factor : ZMod c.n).val • c.generator = (c.base.mul factor).toGroup := by
    rw [ZMod.val_natCast, ← mul_base_mod, toGroup_mul_base]
  rw [nonceNumber, hGroup]
  cases hPoint : c.base.mul factor with
  | infinity => rfl
  | affine x y =>
      have hOn : (c.base.mul factor).OnCurve := onCurve_mul_base factor
      rw [hPoint] at hOn
      rw [Point.toGroup_affine (nonsingular_of_contains hOn)]
      simp only [Residue.val_toZMod]

theorem nonceNumber_zero : c.nonceNumber 0 = 0 := by
  simp [nonceNumber, WeierstrassCurve.Affine.Point.zero_def]

end Curve

namespace EcdsaSignature

open Curve

variable {c : Curve} [c.Lawful]

/-- The numbers of a signature are those of the equations, as far as these are scalars. -/
theorem make?_eq (secret nonce : c.Scalar) (digest : Nat) :
    make? secret nonce digest =
      (c.scalar? (c.nonceNumber nonce.toZMod).val).bind fun r =>
        (c.scalar? (c.bindingNumber secret.toZMod nonce.toZMod digest).val).bind fun s =>
          some ⟨r, s⟩ := by
  have hNumber := nonceNumber_natCast (c := c) nonce.val
  rw [make?]
  cases hPoint : c.base.mul nonce.val with
  | infinity =>
      rw [hPoint] at hNumber
      simp [Scalar.toZMod, hNumber, scalar?]
  | affine x y =>
      rw [hPoint] at hNumber
      obtain ⟨inverse, hInverse, hInverseEq⟩ := Modular.exists_inverse? nonce.toZMod_ne_zero
      have hFirst : (c.nonceNumber nonce.toZMod).val = x.val % c.n := by
        rw [Scalar.toZMod, hNumber, ZMod.val_natCast]
      simp only [hInverse, Option.bind_eq_bind, Option.bind_some, hFirst]
      refine Option.bind_congr fun r hr => ?_
      have hr' : (r.val : ZMod c.n) = c.nonceNumber nonce.toZMod := by
        rw [← scalar?_eq_some_iff.mp hr, ← hFirst, ZMod.natCast_zmod_val]
      have hSecond : (c.bindingNumber secret.toZMod nonce.toZMod digest).val =
          inverse * (digest + r.val * secret.val) % c.n := by
        rw [← ZMod.val_natCast, bindingNumber, div_eq_inv_mul]
        push_cast
        rw [hInverseEq, hr', Scalar.toZMod, Scalar.toZMod]
      rw [hSecond]

theorem make?_eq_some_iff {secret nonce : c.Scalar} {digest : Nat} {signature : EcdsaSignature c} :
    make? secret nonce digest = some signature ↔
      c.nonceNumber nonce.toZMod = signature.r.toZMod ∧
        c.bindingNumber secret.toZMod nonce.toZMod digest = signature.s.toZMod := by
  rw [make?_eq]
  simp only [Option.bind_eq_some_iff, scalar?_zmod_val_eq_some_iff]
  constructor
  · rintro ⟨r, hr, s, hs, hEq⟩
    obtain rfl := Option.some.inj hEq
    exact ⟨hr, hs⟩
  · rintro ⟨hr, hs⟩
    exact ⟨signature.r, hr, signature.s, hs, rfl⟩

theorem make?_eq_none_iff {secret nonce : c.Scalar} {digest : Nat} :
    make? secret nonce digest = none ↔
      c.nonceNumber nonce.toZMod = 0 ∨
        c.bindingNumber secret.toZMod nonce.toZMod digest = 0 := by
  rw [← not_iff_not, not_or, ← Ne, Option.ne_none_iff_exists']
  simp only [make?_eq_some_iff]
  constructor
  · rintro ⟨signature, hr, hs⟩
    rw [hr, hs]
    exact ⟨signature.r.toZMod_ne_zero, signature.s.toZMod_ne_zero⟩
  · rintro ⟨hr, hs⟩
    obtain ⟨r, hr⟩ := exists_scalar hr
    obtain ⟨s, hs⟩ := exists_scalar hs
    exact ⟨⟨r, s⟩, hr, hs⟩

omit [c.Lawful] in
theorem length_toBytes (signature : EcdsaSignature c) : signature.toBytes.length = 2 * c.width := by
  simp [toBytes, two_mul]

/-- The signatures that byte strings stand for are those that the strings are written from. -/
theorem ofBytes?_eq_some_iff {bytes : Bytes} {signature : EcdsaSignature c} :
    ofBytes? c bytes = some signature ↔ bytes = signature.toBytes := by
  have hScalar (scalar : c.Scalar) : scalar.val < 256 ^ c.width :=
    scalar.property.2.trans_le Lawful.n_le
  rw [ofBytes?]
  constructor
  · intro h
    split_ifs at h with hLength
    obtain ⟨r, hr, hRest⟩ := Option.bind_eq_some_iff.mp h
    obtain ⟨s, hs, hEq⟩ := Option.bind_eq_some_iff.mp hRest
    obtain rfl := Option.some.inj hEq
    have hHalf : (bytes.take c.width).length = c.width := by simp; omega
    have hRest : (bytes.drop c.width).length = c.width := by simp; omega
    have hFirst := Bytes.bigEndian_ofBigEndian (bytes.take c.width)
    have hSecond := Bytes.bigEndian_ofBigEndian (bytes.drop c.width)
    rw [hHalf, scalar?_eq_some_iff.mp hr] at hFirst
    rw [hRest, scalar?_eq_some_iff.mp hs] at hSecond
    rw [toBytes, hFirst, hSecond, List.take_append_drop]
  · rintro rfl
    rw [if_neg (not_not.mpr signature.length_toBytes), toBytes,
      List.take_left' (Bytes.length_bigEndian ..), List.drop_left' (Bytes.length_bigEndian ..),
      Bytes.ofBigEndian_bigEndian_of_lt (hScalar _), Bytes.ofBigEndian_bigEndian_of_lt (hScalar _),
      scalar?_val, scalar?_val]
    rfl

theorem signs_iff {secret nonce : c.Scalar} {digest : Nat} {bytes : Bytes} :
    c.Signs secret nonce digest bytes ↔
      ∃ signature, make? secret nonce digest = some signature ∧ bytes = signature.toBytes := by
  constructor
  · rintro ⟨hr, hs, rfl⟩
    obtain ⟨r, hr⟩ := exists_scalar hr
    obtain ⟨s, hs⟩ := exists_scalar hs
    refine ⟨⟨r, s⟩, make?_eq_some_iff.mpr ⟨hr, hs⟩, ?_⟩
    rw [hr, hs, Scalar.val_toZMod, Scalar.val_toZMod, toBytes]
  · rintro ⟨signature, hMade, rfl⟩
    obtain ⟨hr, hs⟩ := make?_eq_some_iff.mp hMade
    refine ⟨hr ▸ signature.r.toZMod_ne_zero, hs ▸ signature.s.toZMod_ne_zero, ?_⟩
    rw [hr, hs, Scalar.val_toZMod, Scalar.val_toZMod, toBytes]

/-- The verifier computes the multiple of the base point by what the nonce must have been. -/
theorem verifies_iff (signature : EcdsaSignature c) (secret : c.Scalar) (digest : Nat) :
    signature.verifies (c.base.mul secret.val) digest = true ↔
      c.nonceNumber ((digest + signature.r.toZMod * secret.toZMod) / signature.s.toZMod) =
        signature.r.toZMod := by
  obtain ⟨inverse, hInverse, hInverseEq⟩ :=
    Modular.exists_inverse? signature.s.toZMod_ne_zero
  let factor := digest * inverse + signature.r.val * inverse * secret.val
  have hSum : (c.base.mul (digest * inverse % c.n)).add
      ((c.base.mul secret.val).mul (signature.r.val * inverse % c.n)) = c.base.mul factor := by
    rw [mul_mul_base, add_mul_base, ← mul_base_mod, ← mul_base_mod factor]
    congr 1
    simp [factor, Nat.add_mod, Nat.mul_mod]
  have hFactor : ((digest + signature.r.toZMod * secret.toZMod) / signature.s.toZMod : ZMod c.n) =
      (factor : ZMod c.n) := by
    rw [div_eq_mul_inv]
    simp only [factor, Nat.cast_add, Nat.cast_mul, hInverseEq, Scalar.toZMod]
    ring
  rw [verifies, hInverse, hFactor, nonceNumber_natCast]
  simp only [hSum]
  cases c.base.mul factor with
  | infinity => simp [signature.r.toZMod_ne_zero.symm]
  | affine x y =>
      simp only [beq_iff_eq]
      rw [← (ZMod.val_injective c.n).eq_iff, ZMod.val_natCast, Scalar.val_toZMod]

/-- A signature verifies exactly if the equations hold for some nonce. Solving the second equation
for the nonce gives the number that the verifier computes. -/
theorem verifies_iff_exists_nonce (signature : EcdsaSignature c) (secret : c.Scalar)
    (digest : Nat) :
    signature.verifies (c.base.mul secret.val) digest = true ↔
      ∃ nonce : c.Scalar, make? secret nonce digest = some signature := by
  have hs := signature.s.toZMod_ne_zero
  rw [verifies_iff]
  simp only [make?_eq_some_iff, bindingNumber]
  constructor
  · intro h
    have hNonce : (digest + signature.r.toZMod * secret.toZMod) / signature.s.toZMod ≠ 0 := by
      intro hZero
      rw [hZero, nonceNumber_zero] at h
      exact signature.r.toZMod_ne_zero h.symm
    obtain ⟨nonce, hEq⟩ := exists_scalar hNonce
    rw [hEq] at h
    refine ⟨nonce, h, ?_⟩
    rw [h, div_eq_iff nonce.toZMod_ne_zero, ← hEq, mul_div_cancel₀ _ hs]
  · rintro ⟨nonce, hr, hEq⟩
    rw [hr, div_eq_iff nonce.toZMod_ne_zero] at hEq
    rw [hEq, mul_div_cancel_left₀ _ hs, hr]

end EcdsaSignature

namespace NamedCurve

/-- Under the public point of a secret, the strings that verify are those that signing with some
nonce writes. -/
theorem verify_iff (c : NamedCurve) [c.curve.Lawful] (secret : c.curve.Scalar)
    (message signature : Bytes) :
    c.verify (c.curve.base.mul secret.val) message signature = true ↔
      ∃ nonce : c.curve.Scalar, c.curve.Signs secret nonce (c.digest message) signature := by
  simp only [EcdsaSignature.signs_iff]
  rw [verify]
  cases hRead : EcdsaSignature.ofBytes? c.curve signature with
  | none =>
      refine ⟨fun h => absurd h (by simp), ?_⟩
      rintro ⟨nonce, made, -, hBytes⟩
      rw [EcdsaSignature.ofBytes?_eq_some_iff.mpr hBytes] at hRead
      cases hRead
  | some read =>
      have hBytes := EcdsaSignature.ofBytes?_eq_some_iff.mp hRead
      rw [EcdsaSignature.verifies_iff_exists_nonce]
      constructor
      · rintro ⟨nonce, hMade⟩
        exact ⟨nonce, read, hMade, hBytes⟩
      · rintro ⟨nonce, made, hMade, hBytes'⟩
        rw [EcdsaSignature.ofBytes?_eq_some_iff.mpr hBytes'] at hRead
        exact ⟨nonce, hMade.trans hRead⟩

end NamedCurve

end Signet
