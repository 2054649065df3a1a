import Signet.Proofs.Curve.Edwards.Order
import Signet.Proofs.KeyEncoding

/-! Strict verification as an equation of the group. A signature has a nonce point and a scalar; the scalar
is reduced and both points are written in one way only, so that the nonce point determines all of it. -/
namespace Signet.Ed25519

open Edwards

theorem length_take_signature (signature : Octets 64) : (signature.val.take 32).length = 32 :=
  List.length_take_of_le (by simp [signature.property])

/-- The first half of a signature. -/
def noncePart (signature : Octets 64) : Octets 32 :=
  ⟨signature.val.take 32, length_take_signature signature⟩

/-- The number in the second half of a signature. -/
def scalarPart (signature : Octets 64) : Nat := Bytes.ofLittleEndian (signature.val.drop 32)

/-- What strict verification asks for with the nonce point `r` of a signature under the point `q`. -/
structure Accepts (q : Element) (key : Octets 32) (message : Bytes) (signature : Octets 64)
    (r : Element) : Prop where
  encoded : noncePart signature = r.point.encode
  scalar_lt : scalarPart signature < order
  nonce_not_small : ¬r.IsSmallOrder
  key_not_small : ¬q.IsSmallOrder
  equation : scalarPart signature • Element.base =
    r + challenge (noncePart signature).val key.val message • q

variable {q r : Element} {key : Octets 32} {message : Bytes} {signature : Octets 64}

/-- The point that the verifier computes. -/
theorem point_sub_eq (q : Element) (s k : Nat) :
    (s • Element.base - k • q).point =
      (Edwards.Point.base.mul s).add (q.point.neg.mul k) := by
  rw [sub_eq_add_neg, ← smul_neg, Element.point_add, ← Element.point_mul, ← Element.point_mul]
  rfl

theorem encode_injective (h : q.point.encode = r.point.encode) : q = r := by
  have hPoint := Edwards.Point.decode?_encode q.onCurve
  rw [h, Edwards.Point.decode?_encode r.onCurve] at hPoint
  exact Element.ext (Option.some.inj hPoint).symm

theorem verify_of_decode?_eq_some (h : Edwards.Point.decode? (noncePart signature) = some r.point) :
    verify q.point key message signature = true ↔
      scalarPart signature < order ∧ ¬r.IsSmallOrder ∧ ¬q.IsSmallOrder ∧
        (scalarPart signature • Element.base -
          challenge (noncePart signature).val key.val message • q).point.encode =
            noncePart signature := by
  rw [noncePart] at h
  unfold verify
  simp only [h, point_sub_eq, Bool.and_eq_true, Bool.not_eq_true', decide_eq_true_eq, beq_iff_eq,
    ← Element.isSmall_iff, Bool.not_eq_true, and_assoc, scalarPart, noncePart, ← Subtype.val_inj]

theorem verify_of_decode?_eq_none (h : Edwards.Point.decode? (noncePart signature) = none) :
    verify q.point key message signature = false := by
  rw [noncePart] at h
  unfold verify
  simp only [h]

/-- Strict verification succeeds exactly for signatures with some nonce point. -/
theorem verify_eq_true_iff :
    verify q.point key message signature = true ↔ ∃ r, Accepts q key message signature r := by
  constructor
  · intro h
    cases hDecode : Edwards.Point.decode? (noncePart signature) with
    | none =>
        rw [verify_of_decode?_eq_none hDecode] at h
        cases h
    | some point =>
        let r : Element := ⟨point, Edwards.Point.onCurve_of_decode?_eq_some hDecode⟩
        obtain ⟨hScalar, hNonce, hKey, hEncoded⟩ := (verify_of_decode?_eq_some (r := r) hDecode).mp h
        -- The computed point is read back from the bytes, and so it is the nonce point.
        have hComputed := Edwards.Point.decode?_encode (scalarPart signature • Element.base -
          challenge (noncePart signature).val key.val message • q).onCurve
        rw [hEncoded, hDecode] at hComputed
        have hEqual : r = scalarPart signature • Element.base -
            challenge (noncePart signature).val key.val message • q :=
          Element.ext (Option.some.inj hComputed)
        refine ⟨r, ?_, hScalar, hNonce, hKey, ?_⟩
        · rw [hEqual, hEncoded]
        · rw [hEqual, sub_add_cancel]
  · rintro ⟨r, hEncoded, hScalar, hNonce, hKey, hEquation⟩
    have hDecode : Edwards.Point.decode? (noncePart signature) = some r.point := by
      rw [hEncoded, Edwards.Point.decode?_encode r.onCurve]
    refine (verify_of_decode?_eq_some hDecode).mpr ⟨hScalar, hNonce, hKey, ?_⟩
    rw [hEquation, add_sub_cancel_right, hEncoded]

/-- Two signatures on one message with the same nonce point are equal. -/
theorem Accepts.eq {other : Octets 64} {r' : Element} (h : Accepts q key message signature r)
    (hOther : Accepts q key message other r') (hNonce : noncePart other = noncePart signature) :
    other = signature := by
  have hPoint : r' = r := encode_injective (hOther.encoded.symm.trans (hNonce.trans h.encoded))
  have hMultiple : scalarPart other • Element.base = scalarPart signature • Element.base := by
    rw [hOther.equation, h.equation, hNonce, hPoint]
  have hScalar := Element.nsmul_base_injective hOther.scalar_lt h.scalar_lt hMultiple
  have hRest : other.val.drop 32 = signature.val.drop 32 :=
    Bytes.ofLittleEndian_injective (by simp [other.property, signature.property]) hScalar
  have hFirst : other.val.take 32 = signature.val.take 32 := congrArg Subtype.val hNonce
  apply Subtype.ext
  rw [← List.take_append_drop 32 other.val, hFirst, hRest, List.take_append_drop]

end Signet.Ed25519
