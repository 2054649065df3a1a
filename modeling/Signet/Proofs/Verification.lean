import Signet.Key
import Signet.Proofs.Curve.Scalar
import Signet.Proofs.Rsa.Encoding

/-! What a key makes of a byte string that is given as a signature. A string of another length than that of
its signatures is refused. Every other one is judged, and judged false if its numbers are out of range or
if the key is too small for any signature. -/
namespace Signet

/-- A half of the byte string is the number zero or one that is not below the order of the base point. -/
def Curve.IsOutOfRange (c : Curve) (signature : Bytes) : Prop :=
  ∃ half ∈ [signature.take c.width, signature.drop c.width],
    Bytes.ofBigEndian half = 0 ∨ c.n ≤ Bytes.ofBigEndian half

/-- A byte string with a number out of range stands for no signature. -/
theorem EcdsaSignature.ofBytes?_of_isOutOfRange {c : Curve} {signature : Bytes}
    (h : c.IsOutOfRange signature) : ofBytes? c signature = none := by
  have hHalf : ∃ half ∈ [signature.take c.width, signature.drop c.width],
      c.scalar? (Bytes.ofBigEndian half) = none := by
    obtain ⟨half, hMem, hNumber⟩ := h
    refine ⟨half, hMem, Curve.scalar?_eq_none_iff.mpr ?_⟩
    omega
  rw [ofBytes?]
  split
  next => rfl
  next =>
    simp only [List.mem_cons, List.not_mem_nil, or_false, exists_eq_or_imp, exists_eq_left] at hHalf
    rcases hHalf with hFirst | hSecond
    · simp [hFirst]
    · simp [hSecond]

theorem NamedCurve.verify_of_isOutOfRange {c : NamedCurve} {signature : Bytes}
    (h : c.curve.IsOutOfRange signature) (point : Point c.curve) (message : Bytes) :
    c.verify point message signature = false := by
  rw [verify, EcdsaSignature.ofBytes?_of_isOutOfRange h]

theorem checkSignatureLength_bind {α : Type} (algorithm : Algorithm) (expected : Nat)
    (signature : Bytes) (next : Except Error α) :
    (do checkSignatureLength algorithm expected signature; next) =
      if signature.length = expected then next
      else .error (.precondition algorithm (.signatureLength expected signature.length)) := by
  rw [checkSignatureLength]
  split <;> rfl

namespace VerifyingKey

/-- A number in the byte string is out of the range of those in signatures. -/
def IsOutOfRange (key : VerifyingKey) (signature : Bytes) : Prop :=
  match key with
  | rsaPss key => key.n ≤ Bytes.ofBigEndian signature
  | ecdsa key => key.curve.curve.IsOutOfRange signature
  | ecdsaSeeded _ => p192.IsOutOfRange signature
  | ed25519 _ => Edwards.order ≤ Bytes.ofLittleEndian (signature.drop 32)

/-- The modulus of the key has no room for the encoding of a digest. -/
def HasNoRoom (key : VerifyingKey) : Prop :=
  ∃ bits, key.sizeInBits? = some bits ∧ bits < RsaPolicy.testFloor

/-- Whether a byte string of the right length is a signature on a message. -/
def judge (key : VerifyingKey) (message signature : Bytes) : Bool :=
  match key with
  | rsaPss key =>
      Bytes.ofBigEndian signature < key.n &&
        Rsa.isEncoding key.encodedBits (Sha256.hash message).val
          (Bytes.bigEndian (Rsa.encodedLength key.encodedBits)
            (key.apply (Bytes.ofBigEndian signature)))
  | ecdsa key => key.curve.verify key.point message signature
  | ecdsaSeeded key => NamedCurve.p192.verify key.point message signature
  | ed25519 key =>
      if h : signature.length = Ed25519.signatureLength then
        Ed25519.verify key.point key.bytes message ⟨signature, h⟩
      else false

variable (key : VerifyingKey) (message : Bytes) {signature : Bytes}

theorem verify_eq (signature : Bytes) : key.verify message signature =
    if signature.length = key.signatureLength then .ok (key.judge message signature)
    else .error (.precondition key.keyType.algorithm
      (.signatureLength key.signatureLength signature.length)) := by
  cases key with
  | rsaPss key => exact checkSignatureLength_bind _ _ _ _
  | ecdsa key =>
      have hAlgorithm : key.curve.keyType.algorithm = .ecdsa := by cases key.curve <;> rfl
      rw [keyType, hAlgorithm]
      exact checkSignatureLength_bind _ _ _ _
  | ecdsaSeeded key => exact checkSignatureLength_bind _ _ _ _
  | ed25519 key =>
      rw [verify, Ed25519.VerifyingKey.verify, judge, signatureLength]
      split <;> rfl

theorem judge_of_isOutOfRange (h : key.IsOutOfRange signature) : key.judge message signature = false := by
  cases key with
  | rsaPss key =>
      have hRange : ¬Bytes.ofBigEndian signature < key.n := Nat.not_lt.mpr h
      simp [judge, hRange]
  | ecdsa key => exact NamedCurve.verify_of_isOutOfRange h key.point message
  | ecdsaSeeded key => exact NamedCurve.verify_of_isOutOfRange (c := .p192) h key.point message
  | ed25519 key =>
      have hRange : ¬Bytes.ofLittleEndian (signature.drop 32) < Edwards.order := Nat.not_lt.mpr h
      rw [judge]
      split
      next =>
        unfold Ed25519.verify
        simp only [hRange, decide_false, Bool.false_and]
        split <;> rfl
      next => rfl

theorem judge_of_hasNoRoom (h : key.HasNoRoom) (signature : Bytes) :
    key.judge message signature = false := by
  obtain ⟨bits, hBits, hSmall⟩ := h
  cases key with
  | rsaPss key =>
      have hSize : key.sizeInBits < 522 := Option.some.inj hBits ▸ hSmall
      have hShort : ¬66 ≤ Rsa.encodedLength key.encodedBits := by
        rw [Rsa.encodedLength, Rsa.VerifyingKey.encodedBits]
        omega
      simp [judge, Rsa.isEncoding, hShort]
  | ecdsa | ecdsaSeeded | ed25519 => cases hBits

/-- A byte string is refused, under the tag of the family of the key, exactly if it has another length than
the signatures of the key, and otherwise judged. It is judged false if one of its numbers is out of range,
and under a modulus without room for the encoding of a digest always. -/
theorem verify_refused_iff_and_judged_iff (signature : Bytes) :
    (key.verify message signature = .error (.precondition key.keyType.algorithm
        (.signatureLength key.signatureLength signature.length)) ↔
      signature.length ≠ key.signatureLength) ∧
    ((∃ verdict : Bool, key.verify message signature = .ok verdict) ↔
      signature.length = key.signatureLength) ∧
    (signature.length = key.signatureLength → key.IsOutOfRange signature ∨ key.HasNoRoom →
      key.verify message signature = .ok false) := by
  rw [verify_eq]
  refine ⟨?_, ?_, fun hLength hFalse => ?_⟩
  · split <;> simp [*]
  · split <;> simp [*]
  · rw [if_pos hLength]
    rcases hFalse with hRange | hRoom
    · rw [key.judge_of_isOutOfRange message hRange]
    · rw [key.judge_of_hasNoRoom message hRoom]

/-- Zeros are judged false on P-521, and every single byte is under a modulus of nine; no bytes are refused. -/
theorem verify_zeros_and_modulus_nine :
    let key521 : VerifyingKey := .ecdsa ⟨.p521, p521.base⟩
    let key9 : VerifyingKey := .rsaPss ⟨9, 3, by decide⟩
    key521.verify [] (List.replicate 132 0) = .ok false ∧
      (∀ byte, key9.verify [] [byte] = .ok false) ∧
      key9.verify [] [] = .error (.precondition .rsaPss (.signatureLength 1 0)) := by
  intro key521 key9
  have hHalf : (List.replicate 132 (0 : UInt8)).take 66 = List.replicate 66 0 := by simp
  have hZeros : key521.IsOutOfRange (List.replicate 132 0) :=
    ⟨_, List.mem_cons_self, .inl (hHalf ▸ by decide +kernel)⟩
  have hRoom : key9.HasNoRoom := ⟨4, rfl, by decide⟩
  refine ⟨?_, fun byte => ?_, ?_⟩
  · exact (key521.verify_refused_iff_and_judged_iff [] _).2.2 List.length_replicate (.inl hZeros)
  · exact (key9.verify_refused_iff_and_judged_iff [] [byte]).2.2 rfl (.inr hRoom)
  · exact (key9.verify_refused_iff_and_judged_iff [] []).1.mpr (by decide)

end VerifyingKey

end Signet
