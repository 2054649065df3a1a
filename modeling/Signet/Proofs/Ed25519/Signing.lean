import Signet.Ed25519.Key
import Signet.Proofs.Ed25519.Equation

/-! Signatures that are made with a seed. They satisfy the equation of verification, and neither the public
point nor the nonce point is of small order, except for a nonce of zero. -/
namespace Signet.Ed25519

open Edwards

/-- The public point of a seed as an element of the group. -/
def publicElement (seed : Octets 32) : Element := secretScalar seed • Element.base

variable (seed : Octets 32) (message : Bytes)

theorem point_publicElement : (publicElement seed).point = publicPoint seed :=
  (Element.point_mul _ Element.base).symm

/-- The secret scalar is eight times a number that is less than the order. -/
theorem not_order_dvd_secretScalar : ¬order ∣ secretScalar seed := by
  intro hDvd
  let rest := Bytes.ofLittleEndian ((Sha512.hash seed.val).val.take 32) % 2 ^ 254 / 8
  have hRest : rest < 2 ^ 251 :=
    Nat.div_lt_of_lt_mul (Nat.mod_lt _ (by decide))
  have hScalar : secretScalar seed = 8 * (2 ^ 251 + rest) := by
    change 2 ^ 254 + rest * 8 = _
    rw [mul_add, mul_comm rest]
    rfl
  rw [hScalar, coprime_order_eight.dvd_mul_left] at hDvd
  have hLess : 2 ^ 251 + 2 ^ 251 ≤ order := by decide
  exact absurd (Nat.le_of_dvd (by positivity) hDvd) (by omega)

theorem not_isSmallOrder_publicElement : ¬(publicElement seed).IsSmallOrder := by
  rw [publicElement, Element.isSmallOrder_nsmul_base_iff]
  exact not_order_dvd_secretScalar seed

theorem noncePart_sign :
    noncePart (sign seed message) = (nonce seed message • Element.base).point.encode := by
  rw [← Element.point_mul]
  exact Subtype.ext (List.take_left' (Edwards.Point.base.mul (nonce seed message)).encode.property)

theorem scalarPart_sign : scalarPart (sign seed message) =
    (nonce seed message + challenge (noncePart (sign seed message)).val
      (publicPoint seed).encode.val message * secretScalar seed) % order := by
  rw [noncePart_sign, ← Element.point_mul]
  have hWidth : order ≤ Nat.pow 256 32 := by decide
  have hLess (value : Nat) : value % order < Nat.pow 256 32 :=
    (Nat.mod_lt _ prime_order.pos).trans_le hWidth
  unfold scalarPart sign
  simp only
  rw [List.drop_left' (Edwards.Point.base.mul (nonce seed message)).encode.property,
    Bytes.ofLittleEndian_littleEndian, Nat.mod_eq_of_lt (hLess _)]
  rfl

/-- What is signed with a nonce other than zero is accepted. -/
theorem accepts_sign (h : nonce seed message ≠ 0) :
    Accepts (publicElement seed) (publicPoint seed).encode message (sign seed message)
      (nonce seed message • Element.base) where
  encoded := noncePart_sign seed message
  scalar_lt := scalarPart_sign seed message ▸ Nat.mod_lt _ prime_order.pos
  nonce_not_small := by
    rw [Element.isSmallOrder_nsmul_base_iff]
    exact Nat.not_dvd_of_pos_of_lt (Nat.pos_of_ne_zero h) (Nat.mod_lt _ prime_order.pos)
  key_not_small := not_isSmallOrder_publicElement seed
  equation := by
    rw [scalarPart_sign, Element.mod_nsmul_base, add_nsmul, publicElement, smul_smul]

theorem verify_sign : verify (publicPoint seed) (publicPoint seed).encode message (sign seed message) =
    decide (nonce seed message ≠ 0) := by
  rw [← point_publicElement, Bool.eq_iff_iff, decide_eq_true_iff, verify_eq_true_iff,
    point_publicElement]
  constructor
  · rintro ⟨r, hAccepts⟩ hZero
    have hNonce : r = 0 := encode_injective <| by
      rw [← hAccepts.encoded, noncePart_sign, hZero, zero_nsmul]
    refine hAccepts.nonce_not_small ?_
    rw [hNonce, Element.IsSmallOrder, addOrderOf_zero]
    exact one_dvd 8
  · exact fun h => ⟨_, accepts_sign seed message h⟩

/-- The public key of a seed is read back from its bytes. -/
theorem load_serialize_verifyingKey :
    VerifyingKey.load (SigningKey.mk seed).verifyingKey.serialize = .ok (SigningKey.mk seed).verifyingKey :=
  VerifyingKey.load_of_decode?_eq_some
    (Edwards.Point.decode?_encode (Edwards.Point.onCurve_mul _ Edwards.Point.onCurve_base))

theorem verifyingKey_verify_sign :
    (SigningKey.mk seed).verifyingKey.verify message (sign seed message).val =
      .ok (decide (nonce seed message ≠ 0)) := by
  have hLength : (sign seed message).val.length = signatureLength := (sign seed message).property
  rw [VerifyingKey.verify, dif_pos hLength]
  exact congrArg Except.ok (verify_sign seed message)

/-- What a seed signs verifies under its public key, also after that has been read back, unless the nonce
is zero. The public key is never of small order. -/
theorem verify_signed_eq_decide_nonce_ne_zero :
    let key : SigningKey := ⟨seed⟩
    (SigningKey.generateFromSeed seed.val = .ok key ∧ SigningKey.load seed.val = .ok key) ∧
    (∃ signature, key.sign message = .silent (.ok signature) ∧ signature.length = 64 ∧
      key.verifyingKey.verify message signature = .ok (decide (nonce seed message ≠ 0))) ∧
    key.verifyingKey.serialize.length = 32 ∧
    VerifyingKey.load key.verifyingKey.serialize = .ok key.verifyingKey ∧
    ∃ q : Element, q.point = key.verifyingKey.point ∧ ¬q.IsSmallOrder := by
  intro key
  have hLength : (sign seed message).val.length = signatureLength := (sign seed message).property
  refine ⟨⟨dif_pos seed.property, dif_pos seed.property⟩,
    ⟨(sign seed message).val, ?_, hLength, verifyingKey_verify_sign seed message⟩,
    key.verifyingKey.bytes.property, load_serialize_verifyingKey seed,
    publicElement seed, point_publicElement seed, not_isSmallOrder_publicElement seed⟩
  rw [SigningKey.sign, assertSigned, assertSignatureLength, if_pos hLength]
  rfl

end Signet.Ed25519
