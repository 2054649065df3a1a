import Signet.Proofs.KeyEncoding
import Signet.Proofs.Rsa.Generation
import Signet.Proofs.Rsa.PrivateEncoding

/-! The written form of RSA keys as their normal form. Every envelope of the numbers of a key gives the
same key, and what a key is written as is one of these envelopes. The public half of a key that was read
or generated is read back as well, up to the greatest modulus that a public key may have. -/
namespace Signet.Rsa

namespace SigningKey

variable {key : SigningKey} {bytes : Bytes}

theorem load_eq_ok_iff : load bytes = .ok key ↔
    key.serialize.length ≤ Der.maxLength ∧ loadNumbers? bytes = some key.toPrivateNumbers := by
  constructor
  · intro h
    rw [load] at h
    split at h
    next numbers hNumbers =>
      obtain ⟨rfl, hLength⟩ := ofNumbers_eq_ok h
      exact ⟨hLength, hNumbers⟩
    next => cases h
  · rintro ⟨hLength, hNumbers⟩
    rw [load_of_loadNumbers?_eq_some hNumbers, ofNumbers_toPrivateNumbers, if_pos hLength]

/-- A key that is not too long is read from the envelopes of its numbers, and from nothing else. -/
theorem load_eq_ok_iff_exists_envelope (hLength : key.serialize.length ≤ Der.maxLength) :
    load bytes = .ok key ↔ ∃ envelope : key.toPrivateNumbers.Envelope,
      envelope.content.length ≤ Der.maxLength ∧ bytes = envelope.bytes := by
  rw [load_eq_ok_iff, and_iff_right hLength, loadNumbers?_eq_some_iff]

theorem load_serialize (hLength : key.serialize.length ≤ Der.maxLength) :
    load key.serialize = .ok key := by
  have hContent := key.envelope.length_content_le
  rw [bytes_envelope] at hContent
  exact (load_eq_ok_iff_exists_envelope hLength).mpr
    ⟨key.envelope, by omega, key.bytes_envelope.symm⟩

/-- The keys that there are: those that are loaded, and those that are generated. -/
inductive Obtained (key : SigningKey) : Prop where
  | loaded {bytes : Bytes} (load_eq : load bytes = .ok key)
  | generated (isGenerated : Generated key)

theorem Obtained.length_serialize_le (h : key.Obtained) : key.serialize.length ≤ Der.maxLength := by
  cases h with
  | loaded hLoad => exact (load_eq_ok_iff.mp hLoad).1
  | generated hGenerated =>
      obtain ⟨bits, pool, -, hPool⟩ := hGenerated.exists_ofPool
      exact (sizeInBits_of_ofPool hPool).2

theorem Generated.sizeInBits_le (h : Generated key) :
    key.verifyingKey.sizeInBits ≤ RsaPolicy.ceiling := by
  obtain ⟨bits, pool, hBits, hPool⟩ := h.exists_ofPool
  rw [(sizeInBits_of_ofPool hPool).1]
  exact hBits

/-- The written forms of RSA keys are normal forms. A signing key that was loaded or generated is read
from every envelope of its numbers, whatever version, numbers for the factors and further fields stand in
it, and from nothing else; what it is written as is one of these envelopes, and gives the same key. Its
public half is read back from what it is written as, unless its modulus is above the ceiling, which no
generated key exceeds. A verifying key is read back if it was ever read. -/
theorem load_serialize_of_obtained (key : SigningKey) (hObtained : key.Obtained) :
    (∀ bytes, load bytes = .ok key ↔ ∃ envelope : key.toPrivateNumbers.Envelope,
      envelope.content.length ≤ Der.maxLength ∧ bytes = envelope.bytes) ∧
    load key.serialize = .ok key ∧
    VerifyingKey.load key.verifyingKey.serialize =
      (if key.verifyingKey.sizeInBits ≤ RsaPolicy.ceiling then .ok key.verifyingKey
      else .error (.corrupt .rsaPss .invalidPublicKey)) ∧
    (Generated key → key.verifyingKey.sizeInBits ≤ RsaPolicy.ceiling) ∧
    ∀ (bytes : Bytes) (verifyingKey : VerifyingKey), VerifyingKey.load bytes = .ok verifyingKey →
      VerifyingKey.load verifyingKey.serialize = .ok verifyingKey := by
  have hLength := hObtained.length_serialize_le
  refine ⟨fun bytes => load_eq_ok_iff_exists_envelope hLength, load_serialize hLength,
    key.verifyingKey.load_serialize, fun hGenerated => hGenerated.sizeInBits_le, ?_⟩
  intro bytes verifyingKey hLoad
  obtain ⟨-, rfl⟩ := VerifyingKey.load_eq_ok_iff.mp hLoad
  exact hLoad

/-- The key of the seed is read back, and so is its public half. -/
theorem load_serialize_drawnKey :
    (generateFromSeed 522 drawnSeed .testing).result = .ok drawnKey ∧
      load drawnKey.serialize = .ok drawnKey ∧
      VerifyingKey.load drawnKey.verifyingKey.serialize = .ok drawnKey.verifyingKey := by
  have hGenerated : Generated drawnKey := .seeded generateFromSeed_drawnSeed
  obtain ⟨-, hLoad, hPublic, hSize, -⟩ := load_serialize_of_obtained drawnKey (.generated hGenerated)
  rw [if_pos (hSize hGenerated)] at hPublic
  exact ⟨generateFromSeed_drawnSeed, hLoad, hPublic⟩

/-- The key of the primes of Mersenne is read back, its public half is not. -/
theorem load_serialize_mersenneKey : load mersenneKey.serialize = .ok mersenneKey ∧
    VerifyingKey.load mersenneKey.verifyingKey.serialize =
      .error (.corrupt .rsaPss .invalidPublicKey) := by
  refine ⟨load_serialize (by decide +kernel), VerifyingKey.load_serialize_of_gt ?_⟩
  rw [sizeInBits_verifyingKey_mersenneKey]
  decide

end SigningKey

end Signet.Rsa
