import Signet.Proofs.Der
import Signet.Rsa.Key

/-! The envelopes of public RSA keys. -/
namespace Signet.Rsa.VerifyingKey

theorem sizeInBits_eq (key : VerifyingKey) : key.sizeInBits = key.n.log2 + 1 := by
  have hPositive : key.n ≠ 0 := by
    have hExponent := key.isPublic.2.2.2.2
    omega
  rw [sizeInBits, Bytes.bitLength, if_neg hPositive]

/-- The numbers of a key, one after the other. -/
def numbers (key : VerifyingKey) : Bytes := Der.natural key.n ++ Der.natural key.e

theorem length_numbers (key : VerifyingKey) :
    key.numbers.length = Der.elementLength (key.sizeInBits / 8 + 1) +
      Der.elementLength ((key.e.log2 + 1) / 8 + 1) := by
  rw [numbers, List.length_append, Der.natural, Der.natural, Der.length_element, Der.length_element,
    Der.length_naturalContent, Der.length_naturalContent, sizeInBits_eq]

/-- Only small moduli fit into thirty-two bytes. -/
theorem sizeInBits_le_of_length {key : VerifyingKey} (h : key.serialize.length = 32) :
    key.sizeInBits ≤ 39 := by
  have hAlgorithm : Der.elementLength algorithmId.length = 15 := rfl
  have hModulus := Der.add_two_le_elementLength (key.sizeInBits / 8 + 1)
  have hExponent := Der.add_two_le_elementLength ((key.e.log2 + 1) / 8 + 1)
  have hNumbers := Der.add_two_le_elementLength key.numbers.length
  have hBits := Der.add_two_le_elementLength ((Der.sequence key.numbers).length + 1)
  have hOuter := Der.add_two_le_elementLength (Der.elementLength algorithmId.length +
    Der.elementLength ((Der.sequence key.numbers).length + 1))
  have hSequence : (Der.sequence key.numbers).length = Der.elementLength key.numbers.length :=
    Der.length_element _ _
  have hLength := key.length_numbers
  rw [serialize, Der.length_publicKeyInfo, ← numbers] at h
  omega

/-- All lengths in the envelope of a key below the ceiling are read back. -/
theorem lengths_le {key : VerifyingKey} (h : key.sizeInBits ≤ RsaPolicy.ceiling) :
    (Der.naturalContent key.n).length ≤ Der.maxLength ∧
      (Der.naturalContent key.e).length ≤ Der.maxLength ∧ key.numbers.length ≤ Der.maxLength ∧
      (Der.sequence algorithmId ++ Der.bitString (Der.sequence key.numbers)).length ≤
        Der.maxLength := by
  have hMax : Der.maxLength = 268435455 := by decide
  have hCeiling : RsaPolicy.ceiling = 4096 := rfl
  have hLog : key.e.log2 < 33 :=
    (Nat.log2_lt (by have hOdd := key.isPublic.2.1; omega)).mpr key.isPublic.2.2.2.1
  have hModulus := Der.elementLength_le (key.sizeInBits / 8 + 1) (by omega)
  have hExponent := Der.elementLength_le ((key.e.log2 + 1) / 8 + 1) (by omega)
  have hLength := key.length_numbers
  have hNumbers := Der.elementLength_le key.numbers.length (by omega)
  have hBits := Der.elementLength_le (Der.elementLength key.numbers.length + 1) (by omega)
  have hAlgorithm : Der.elementLength algorithmId.length = 15 := rfl
  have hEnvelope : (Der.sequence algorithmId ++ Der.bitString (Der.sequence key.numbers)).length =
      15 + Der.elementLength (Der.elementLength key.numbers.length + 1) := by
    rw [List.length_append, Der.sequence, Der.bitString, Der.length_element, Der.length_element,
      List.length_cons, Der.sequence, Der.length_element, hAlgorithm]
  rw [Der.length_naturalContent, Der.length_naturalContent, ← sizeInBits_eq]
  omega

/-- A key is loaded if and only if the bytes are those that are written for it, and its modulus is not
above the ceiling. -/
theorem load?_eq_some_iff {bytes : Bytes} {key : VerifyingKey} :
    load? bytes = some key ↔ key.sizeInBits ≤ RsaPolicy.ceiling ∧ bytes = key.serialize := by
  constructor
  · intro hLoad
    obtain ⟨envelope, hEnvelope, hInside⟩ := Option.bind_eq_some_iff.mp hLoad
    obtain ⟨content, hContent, hNumbers⟩ := Option.bind_eq_some_iff.mp hInside
    obtain ⟨n, afterModulus, rfl, hLater⟩ := Der.exists_of_readNatural?_bind_eq_some hNumbers
    obtain ⟨e, rest, rfl, hBody⟩ := Der.exists_of_readNatural?_bind_eq_some hLater
    obtain ⟨-, rfl⟩ := Der.readPublicKeyInfo?_eq_some_iff.mp hEnvelope
    obtain ⟨-, rfl⟩ := Der.readWhole?_eq_some_iff.mp hContent
    simp only at hBody
    split at hBody
    next => cases hBody
    next hRest =>
      obtain ⟨hEmpty, hSize⟩ := not_or.mp hRest
      split at hBody
      next hPublic =>
        obtain rfl := Option.some.inj hBody
        rw [not_not.mp hEmpty, List.append_nil]
        exact ⟨Nat.not_lt.mp hSize, rfl⟩
      next => cases hBody
  · rintro ⟨hSize, rfl⟩
    obtain ⟨hModulus, hExponent, hNumbers, hEnvelope⟩ := lengths_le hSize
    have hOuter : Der.readPublicKeyInfo? algorithmId key.serialize = some (Der.sequence key.numbers) :=
      Der.readPublicKeyInfo?_eq_some_iff.mpr ⟨hEnvelope, rfl⟩
    have hInner : Der.readWhole? Der.sequenceTag (Der.sequence key.numbers) = some key.numbers :=
      Der.readWhole?_eq_some_iff.mpr ⟨hNumbers, rfl⟩
    have hFirst : Der.readNatural? key.numbers = some (key.n, Der.natural key.e) :=
      Der.readNatural?_eq_some_iff.mpr ⟨hModulus, rfl⟩
    have hSecond : Der.readNatural? (Der.natural key.e) = some (key.e, []) :=
      Der.readNatural?_eq_some_iff.mpr ⟨hExponent, (List.append_nil _).symm⟩
    rw [load?, hOuter]
    simpa [hInner, hFirst, hSecond, key.isPublic, sizeInBits] using hSize

end Signet.Rsa.VerifyingKey
