import Signet.Proofs.Ed25519.Signing

/-! Strict verification under a key that was read from bytes. What it accepts is determined by the message
and the nonce point. -/
namespace Signet.Ed25519.VerifyingKey

open Edwards

variable {key : VerifyingKey} {bytes message signature : Bytes}

theorem verify_eq_ok_true_iff {q : Element} (hPoint : q.point = key.point) :
    key.verify message signature = .ok true ↔
      ∃ (h : signature.length = signatureLength) (r : Element),
        Accepts q key.bytes message ⟨signature, h⟩ r := by
  rw [verify]
  split_ifs with hLength
  · rw [Except.ok.injEq, ← hPoint, verify_eq_true_iff]
    exact ⟨fun h => ⟨hLength, h⟩, fun h => h.choose_spec⟩
  · exact ⟨fun h => absurd h (by simp), fun h => absurd h.choose hLength⟩

/-- The point of a key that was read is a point of the curve. -/
theorem exists_element_of_load (h : load bytes = .ok key) : ∃ q : Element, q.point = key.point :=
  ⟨⟨key.point, Edwards.Point.onCurve_of_decode?_eq_some (load_eq_ok_iff.mp h).2⟩, rfl⟩

/-- A signature that is accepted has a reduced scalar, the encoding of a nonce point that is not of small
order, and a key that is not of small order either. No other signature on the message with this nonce
point is accepted. -/
theorem strict_of_verify_eq_ok_true (hKey : load bytes = .ok key)
    (hVerify : key.verify message signature = .ok true) :
    (Bytes.ofLittleEndian (signature.drop 32) < order ∧
      (∃ r : Element, signature.take 32 = r.point.encode.val ∧ ¬r.IsSmallOrder) ∧
      ∃ q : Element, q.point = key.point ∧ ¬q.IsSmallOrder) ∧
    ∀ other, key.verify message other = .ok true → other.take 32 = signature.take 32 →
      other = signature := by
  obtain ⟨q, hPoint⟩ := exists_element_of_load hKey
  obtain ⟨hLength, r, hAccepts⟩ := (verify_eq_ok_true_iff hPoint).mp hVerify
  refine ⟨⟨hAccepts.scalar_lt, ⟨r, congrArg Subtype.val hAccepts.encoded, hAccepts.nonce_not_small⟩,
    q, hPoint, hAccepts.key_not_small⟩, fun other hOther hNonce => ?_⟩
  obtain ⟨hOtherLength, r', hOtherAccepts⟩ := (verify_eq_ok_true_iff hPoint).mp hOther
  exact congrArg Subtype.val (hAccepts.eq hOtherAccepts (Subtype.ext hNonce))

/-- The key of a seed of zeros signs the empty message; any accepted signature with the same nonce point
is the one that it makes. -/
theorem strict_zeroSeed :
    let seed : Octets 32 := ⟨List.replicate 32 0, rfl⟩
    let key := (SigningKey.mk seed).verifyingKey
    let signature := (sign seed []).val
    load key.serialize = .ok key ∧ key.verify [] signature = .ok true ∧
      Bytes.ofLittleEndian (signature.drop 32) < order ∧
      ∀ other, key.verify [] other = .ok true → other.take 32 = signature.take 32 →
        other = signature := by
  intro seed key signature
  have hLoad : load key.serialize = .ok key := load_serialize_verifyingKey seed
  have hNonce : nonce seed [] ≠ 0 := by decide +kernel
  have hVerify : key.verify [] signature = .ok true :=
    (verifyingKey_verify_sign seed []).trans (congrArg Except.ok (decide_eq_true hNonce))
  obtain ⟨⟨hScalar, -⟩, hUnique⟩ := strict_of_verify_eq_ok_true hLoad hVerify
  exact ⟨hLoad, hVerify, hScalar, hUnique⟩

end Signet.Ed25519.VerifyingKey
