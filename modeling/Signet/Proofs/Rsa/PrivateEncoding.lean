import Signet.Proofs.Der
import Signet.Rsa.Key

/-! The envelopes of private RSA keys. Beside the numbers that make the key, an envelope has a version,
numbers that could be computed from the others, and further fields. None of these has a part in the key
that is read, and a key is written with one choice of them. -/
namespace Signet.Rsa

namespace PrivateNumbers

/-- The numbers of a key in the order in which they are written, with those for each factor behind them. -/
def row (numbers : PrivateNumbers) (first second coefficient : Nat) : List Nat :=
  [0, numbers.n, numbers.e, numbers.d, numbers.p, numbers.q, first, second, coefficient]

/-- An envelope of the numbers. -/
structure Envelope (numbers : PrivateNumbers) where
  version : Nat
  (first second coefficient : Nat)
  fields : Bytes
  version_le : version ≤ 1
  areTrailingFields : Der.areTrailingFields (version == 1) fields.length fields = true

namespace Envelope

variable {numbers : PrivateNumbers} (envelope : numbers.Envelope)

/-- The bytes of the numbers. -/
def key : Bytes :=
  Der.sequence (Der.naturals (numbers.row envelope.first envelope.second envelope.coefficient))

/-- What stands in the envelope. -/
def content : Bytes := Der.privateFields envelope.version algorithmId envelope.key envelope.fields

def bytes : Bytes := Der.sequence envelope.content

theorem length_numbers_le : (Der.naturals (numbers.row envelope.first envelope.second
    envelope.coefficient)).length + 2 ≤ envelope.content.length := by
  have hNumbers := Der.add_two_le_elementLength (Der.naturals
    (numbers.row envelope.first envelope.second envelope.coefficient)).length
  have hKey := Der.add_two_le_elementLength envelope.key.length
  simp only [key, Der.sequence, Der.length_element] at hKey
  simp only [content, key, Der.privateFields, List.length_append, Der.sequence, Der.length_element]
  omega

theorem length_content_le : envelope.content.length + 2 ≤ envelope.bytes.length := by
  rw [bytes, Der.sequence, Der.length_element]
  exact Der.add_two_le_elementLength _

end Envelope

end PrivateNumbers

/-- The envelope in which a key is written. -/
def SigningKey.envelope (key : SigningKey) : key.toPrivateNumbers.Envelope where
  version := 0
  first := key.d % (key.p - 1)
  second := key.d % (key.q - 1)
  coefficient := key.coefficient
  fields := []
  version_le := Nat.zero_le 1
  areTrailingFields := rfl

@[simp] theorem SigningKey.bytes_envelope (key : SigningKey) : key.envelope.bytes = key.serialize := by
  have hNumbers : key.envelope.key = Der.sequence (
      Der.natural 0 ++ Der.natural key.n ++ Der.natural key.e ++ Der.natural key.d ++
        Der.natural key.p ++ Der.natural key.q ++ Der.natural (key.d % (key.p - 1)) ++
        Der.natural (key.d % (key.q - 1)) ++ Der.natural key.coefficient) := by
    simp only [PrivateNumbers.Envelope.key, PrivateNumbers.row, envelope, Der.naturals,
      List.flatMap_cons, List.flatMap_nil, List.append_nil, List.append_assoc]
  rw [serialize, ← hNumbers, Der.privateKeyInfo_eq]
  rfl

namespace SigningKey

variable {bytes : Bytes} {numbers : PrivateNumbers} {key : SigningKey}

/-- Private numbers are read from the envelopes of them that are not too long, and from nothing else. -/
theorem loadNumbers?_eq_some_iff : loadNumbers? bytes = some numbers ↔
    ∃ envelope : numbers.Envelope, envelope.content.length ≤ Der.maxLength ∧ bytes = envelope.bytes := by
  constructor
  · intro hLoad
    obtain ⟨sequence, hSequence, hInside⟩ := Option.bind_eq_some_iff.mp hLoad
    obtain ⟨content, hContent, hNumbers⟩ := Option.bind_eq_some_iff.mp hInside
    obtain ⟨start, rest, rfl, hModulus⟩ := Der.exists_of_readNatural?_bind_eq_some hNumbers
    obtain ⟨n, rest, rfl, hPublic⟩ := Der.exists_of_readNatural?_bind_eq_some hModulus
    obtain ⟨e, rest, rfl, hPrivate⟩ := Der.exists_of_readNatural?_bind_eq_some hPublic
    obtain ⟨d, rest, rfl, hP⟩ := Der.exists_of_readNatural?_bind_eq_some hPrivate
    obtain ⟨p, rest, rfl, hQ⟩ := Der.exists_of_readNatural?_bind_eq_some hP
    obtain ⟨q, rest, rfl, hFirst⟩ := Der.exists_of_readNatural?_bind_eq_some hQ
    obtain ⟨first, rest, rfl, hSecond⟩ := Der.exists_of_readNatural?_bind_eq_some hFirst
    obtain ⟨second, rest, rfl, hCoefficient⟩ := Der.exists_of_readNatural?_bind_eq_some hSecond
    obtain ⟨coefficient, rest, rfl, hBody⟩ := Der.exists_of_readNatural?_bind_eq_some hCoefficient
    obtain ⟨version, fields, hVersion, hTrailing, hMax, rfl⟩ :=
      Der.readPrivateKeyInfo?_eq_some_iff.mp hSequence
    obtain ⟨-, rfl⟩ := Der.readWhole?_eq_some_iff.mp hContent
    simp only at hBody
    split_ifs at hBody with hForm hIsPublic hIsPrivate
    obtain ⟨hZero, hEmpty⟩ := not_or.mp hForm
    obtain rfl := not_not.mp hZero
    obtain rfl := not_not.mp hEmpty
    obtain rfl := Option.some.inj hBody
    exact ⟨⟨version, first, second, coefficient, fields, hVersion, hTrailing⟩, hMax, rfl⟩
  · rintro ⟨envelope, hMax, rfl⟩
    have hTotal := envelope.length_numbers_le
    have hNumber {value : Nat} (h : value ∈ numbers.row envelope.first envelope.second
        envelope.coefficient) : (Der.naturalContent value).length ≤ Der.maxLength :=
      (Der.length_naturalContent_le_of_mem h).trans (by omega)
    have hKey : Der.readPrivateKeyInfo? algorithmId envelope.bytes = some envelope.key :=
      Der.readPrivateKeyInfo?_eq_some_iff.mpr
        ⟨_, _, envelope.version_le, envelope.areTrailingFields, hMax, rfl⟩
    have hContent : Der.readWhole? Der.sequenceTag envelope.key = some (Der.naturals
        (numbers.row envelope.first envelope.second envelope.coefficient)) :=
      Der.readWhole?_eq_some_iff.mpr ⟨by omega, rfl⟩
    rw [loadNumbers?, hKey]
    simp only [PrivateNumbers.row, List.forall_mem_cons] at hNumber hContent
    simp [hContent, Der.readNatural?_naturals_cons, hNumber, numbers.isPublic, numbers.isPrivate,
      -Der.length_naturalContent]

end SigningKey

end Signet.Rsa
