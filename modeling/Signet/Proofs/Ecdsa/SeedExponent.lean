import Signet.Ecdsa.SeededKey
import Signet.Proofs.Curve.Scalar
import Signet.Proofs.Ecdsa.Derivation
import Signet.Proofs.EntropyPool.Search

/-! What a seed gives. The candidates of a seed come from one another, so a search through as many of them
as there are numbers of 192 bits misses none. The exponent that it ends with is a scalar, and the key of
the seed is the one with this scalar. -/
namespace Signet

namespace Derivation

/-- A search without checks fails only because of the length of its seed or because it has no end. -/
theorem failure_of_result_deriveWith {σ : Type} {hash : Oracle σ} {trials : Nat} {seed : Bytes} {state : σ}
    {failure : Failure} (h : (deriveWith hash trials seed state).1.result = .error failure) :
    failure = .refused (.precondition .ecdsaSeeded (.seedLength seedLength seed.length)) ∨
      failure = .endless := by
  by_cases hLength : seed.length = seedLength
  · generalize hRun : deriveWith hash trials seed state = run at h
    cases hRun ▸ searched_deriveWith hash hLength trials with
    | found first counts less => cases h
    | endless rejected counts => exact .inr (Except.error.inj h).symm
    | overflowed stops last_succ rejected => cases stops
  · rw [deriveWith_of_length_ne hash hLength] at h
    exact .inl (Except.error.inj h).symm

variable {seed : Bytes}

/-- An answer of a hash function without state, as a number of 192 bits. -/
def code (answer : Octets 24 × Unit) : Fin candidateCount :=
  ⟨answer.1.toNat, by
    have h := Bytes.ofLittleEndian_lt answer.1.val.reverse
    rwa [List.length_reverse, answer.1.property, show Nat.pow 256 24 = candidateCount by decide] at h⟩

theorem code_injective : Function.Injective code := by
  intro first second h
  exact Prod.ext (Octets.toNat_injective (Fin.mk.inj h)) rfl

/-- Only as many candidates differ as there are numbers of 192 bits. -/
theorem exists_candidate_eq (seed : Bytes) (count : Nat) :
    ∃ index < candidateCount, candidate tiger seed () index = candidate tiger seed () count := by
  obtain ⟨index, hIndex, hAnswer⟩ := exists_iterate_eq_of_code code code_injective (rehash tiger)
    (tiger () [tagAndSalt, seed]) count
  exact ⟨index, hIndex, congrArg Prod.fst hAnswer⟩

theorem FirstAccepted.lt_candidateCount {index : Nat} (h : FirstAccepted tiger seed () index) :
    index < candidateCount := by
  obtain ⟨earlier, hEarlier, hSame⟩ := exists_candidate_eq seed index
  by_contra hFar
  exact h.rejected earlier (hEarlier.trans_le (Nat.le_of_not_lt hFar)) (hSame ▸ h.accepted)

/-- The number of trials is no limit: what a longer search would give, the derivation gives. -/
theorem result_derive_eq_ok_iff {derived : Octets 24} : (derive seed).result = .ok derived ↔
    ∃ trials, (deriveWith tiger trials seed ()).1.result = .ok derived := by
  refine ⟨fun h => ⟨candidateCount, h⟩, ?_⟩
  rintro ⟨trials, hDerived⟩
  obtain ⟨hLength, index, -, hFirst, hCounts, rfl⟩ := result_deriveWith_eq_ok_iff.mp hDerived
  exact result_deriveWith_eq_ok_iff.mpr
    ⟨hLength, index, hFirst.lt_candidateCount, hFirst, hCounts, rfl⟩

/-- What is derived is a scalar at the width of the curve. -/
theorem exists_scalar_of_derive {derived : Octets 24} (h : (derive seed).result = .ok derived) :
    ∃ secret : p192.Scalar, derived = Octets.ofNat 24 secret.val := by
  obtain ⟨-, index, -, hFirst, -, rfl⟩ := result_deriveWith_eq_ok_iff.mp h
  have hLess : (candidate tiger seed () index).toNat < candidateBound := hFirst.accepted
  have hBound := candidateBound_eq.1
  exact ⟨⟨(candidate tiger seed () index).toNat + 1, Nat.succ_pos _, by omega⟩, rfl⟩

theorem toNat_ofNat_scalar (secret : p192.Scalar) : (Octets.ofNat 24 secret.val).toNat = secret.val :=
  Bytes.ofBigEndian_bigEndian_of_lt (secret.property.2.trans (by decide))

/-- The scalar of a seed is its exponent, and there is none only for the reasons for which there is no
exponent. -/
theorem result_derive_eq_map (seed : Bytes) : (derive seed).result =
    (deriveScalar seed).result.map fun secret => Octets.ofNat 24 secret.val := by
  rw [deriveScalar]
  cases hDerived : (derive seed).result with
  | error failure => rfl
  | ok derived =>
      obtain ⟨secret, rfl⟩ := exists_scalar_of_derive hDerived
      have hScalar : p192.scalar? (Octets.ofNat 24 secret.val).toNat = some secret :=
        Curve.scalar?_eq_some_iff.mpr (toNat_ofNat_scalar secret)
      simp only [Except.bind, hScalar, Except.map]

/-- No scalar is refused by the arithmetic of the curve. -/
theorem result_deriveScalar_ne_backend (seed : Bytes) (algorithm : Algorithm) (fault : Fault) :
    (deriveScalar seed).result ≠ .error (.refused (.backend algorithm fault)) := by
  intro hBackend
  have hDerived : (derive seed).result = .error (.refused (.backend algorithm fault)) := by
    rw [result_derive_eq_map, hBackend]
    rfl
  rcases failure_of_result_deriveWith hDerived with hLength | hEndless
  · cases hLength
  · cases hEndless

end Derivation

namespace SeededEcdsa.SigningKey

theorem result_ofSeed (seed : Bytes) :
    (ofSeed seed).result = (Derivation.deriveScalar seed).result.map mk := by
  rw [ofSeed]
  cases (Derivation.deriveScalar seed).result <;> rfl

/-- The key of a seed is the one that is written as the exponent of the seed. -/
theorem result_ofSeed_eq_ok_iff {seed : Bytes} {key : SigningKey} :
    (ofSeed seed).result = .ok key ↔
      (Derivation.derive seed).result = .ok (Octets.ofNat 24 key.secret.val) := by
  rw [result_ofSeed, Derivation.result_derive_eq_map]
  cases (Derivation.deriveScalar seed).result with
  | error failure => simp [Except.map]
  | ok secret =>
      simp only [Except.map, Except.ok.injEq]
      refine ⟨fun h => by rw [← h], fun h => ?_⟩
      have hNumber := congrArg Octets.toNat h
      rw [Derivation.toNat_ofNat_scalar, Derivation.toNat_ofNat_scalar] at hNumber
      exact congrArg mk (Subtype.ext hNumber)

end SeededEcdsa.SigningKey

end Signet
