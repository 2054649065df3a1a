import Signet.Proofs.Cipher.Lookup
import Signet.Proofs.EntropyPool.ScalarDraw
import Signet.Proofs.EntropyPool.Search
import Signet.Proofs.Loading
import Signet.Rsa.Generation

/-! What the generation of RSA keys gives. The modulus of a key has the size that was asked for, and a
policy allows no size that is not read back. -/
namespace Signet

namespace Rsa

variable {bits : Nat} {policy : RsaPolicy} {pool : EntropyPool} {draw : OsDraw} {key : SigningKey}

/-- A size is allowed if and only if it is within the limits of a valid policy. -/
theorem checkSize_eq_ok_iff : (checkSize bits policy).result = .ok () ↔
    policy.validate = .ok () ∧ policy.minKeySizeBits ≤ bits ∧ bits ≤ policy.maxKeySizeBits := by
  rw [checkSize]
  split
  next hFault => simp [hFault, Logged.silent]
  next hValid =>
    rw [hValid]
    split_ifs <;> simp only [Logged.silent, reduceCtorEq, true_and, true_iff, false_iff] <;> omega

theorem le_ceiling_of_checkSize (h : (checkSize bits policy).result = .ok ()) :
    bits ≤ RsaPolicy.ceiling := by
  obtain ⟨hValid, -, hMost⟩ := checkSize_eq_ok_iff.mp h
  exact hMost.trans (RsaPolicy.validate_eq_ok_iff.mp hValid).2.2.1

/-- The first bytes that are drawn are enough if they give a prime. -/
theorem drawPrime_eq_ok {rest : EntropyPool} {bytes : Bytes}
    (hDraw : pool.draw ((bits + 7) / 8) = .ok (bytes, rest))
    (hSize : Bytes.bitLength (candidate bits bytes) = bits)
    (hPrime : isLikelyPrime (candidate bits bytes) = true) :
    drawPrime bits pool = .ok (candidate bits bytes, rest) := by
  rw [drawPrime]
  apply search_eq_ok_of_attempt (by decide)
  rw [hDraw]
  simp only [bind, Except.bind]
  rw [if_pos ⟨hSize, hPrime⟩]

theorem tryNumbers_eq_ok {between rest : EntropyPool} {p q d : Nat}
    (hFirst : drawPrime (bits / 2) pool = .ok (p, between))
    (hSecond : drawPrime (bits - Bytes.bitLength p) between = .ok (q, rest))
    (hSuits : p ≠ q ∧ Bytes.bitLength (p * q) = bits)
    (hInverse : Modular.inverse? publicExponent ((p - 1) * (q - 1)) = some d) :
    tryNumbers bits pool = .ok (some (p, q, d), rest) := by
  rw [tryNumbers, hFirst]
  simp only [bind, Except.bind]
  rw [hSecond]
  simp only [hInverse, Option.map_some]
  rw [if_pos hSuits]

theorem bitLength_of_tryNumbers {rest : EntropyPool} {p q d : Nat}
    (h : tryNumbers bits pool = .ok (some (p, q, d), rest)) : Bytes.bitLength (p * q) = bits := by
  obtain ⟨⟨first, between⟩, -, hLater⟩ := exists_of_bind_eq_ok h
  obtain ⟨⟨second, after⟩, -, hBody⟩ := exists_of_bind_eq_ok hLater
  have hFound := (Prod.mk.inj (Except.ok.inj hBody)).1
  split_ifs at hFound with hSuits
  obtain ⟨exponent, -, hNumbers⟩ := Option.map_eq_some_iff.mp hFound
  cases hNumbers
  exact hSuits.2

namespace SigningKey

theorem ofNumbers_eq_ok {numbers : PrivateNumbers} (h : ofNumbers numbers = .ok key) :
    key.toPrivateNumbers = numbers ∧ key.serialize.length ≤ Der.maxLength := by
  rw [ofNumbers] at h
  split at h
  next => cases h
  next coefficient hInverse =>
    simp only at h
    split_ifs at h with hLength
    obtain rfl := Except.ok.inj h
    exact ⟨rfl, hLength⟩

/-- A key from a pool is made of numbers whose modulus has the size that was asked for. -/
theorem exists_numbers_of_ofPool (h : ofPool bits pool = .ok key) :
    ∃ numbers : PrivateNumbers, numbers.sizeInBits = bits ∧ ofNumbers numbers = .ok key := by
  obtain ⟨⟨⟨p, q, d⟩, rest⟩, hSearch, hBody⟩ := exists_of_bind_eq_ok h
  obtain ⟨before, hAttempt⟩ := exists_attempt_of_search_eq_ok hSearch
  simp only at hBody
  split_ifs at hBody with hPublic hPrivate
  refine ⟨{ n := p * q, e := publicExponent, isPublic := hPublic, d, p, q, isPrivate := hPrivate },
    bitLength_of_tryNumbers hAttempt, ?_⟩
  generalize ofNumbers _ = made at hBody ⊢
  cases made with
  | error error => cases hBody
  | ok made => rw [Except.ok.inj hBody]

/-- The modulus of a key from a pool has the size that was asked for, and the key is short enough to be
read back. -/
theorem sizeInBits_of_ofPool (h : ofPool bits pool = .ok key) :
    key.verifyingKey.sizeInBits = bits ∧ key.serialize.length ≤ Der.maxLength := by
  obtain ⟨numbers, hSize, hMade⟩ := exists_numbers_of_ofPool h
  obtain ⟨rfl, hLength⟩ := ofNumbers_eq_ok hMade
  exact ⟨hSize, hLength⟩

theorem ofPool_eq_ok {numbers : PrivateNumbers} {rest : EntropyPool}
    (hExponent : numbers.e = publicExponent)
    (hFound : tryNumbers bits pool = .ok (some (numbers.p, numbers.q, numbers.d), rest))
    (hMade : ofNumbers numbers = .ok key) : ofPool bits pool = .ok key := by
  obtain ⟨⟨n, e, hPublic⟩, d, p, q, hPrivate⟩ := numbers
  obtain rfl : e = publicExponent := hExponent
  obtain rfl : p * q = n := hPrivate.2.2.1
  rw [ofPool, search_eq_ok_of_attempt (by decide) hFound]
  simp only [bind, Except.bind]
  rw [dif_pos hPublic, dif_pos hPrivate, hMade]
  rfl

end SigningKey

theorem result_generate : (generate bits policy draw).result =
    match (checkSize bits policy).result with
    | .error error => .error (.refused error)
    | .ok () =>
        match EntropyPool.ofOsDraw draw with
        | .error error => .error (.refused error)
        | .ok pool => SigningKey.ofPool bits pool := by
  rw [generate]
  change (match (checkSize bits policy).result with
    | .error error => _
    | .ok () => _ : Logged (Except Failure SigningKey)).result = _
  cases (checkSize bits policy).result with
  | error error => rfl
  | ok => cases EntropyPool.ofOsDraw draw <;> rfl

theorem result_generateFromSeed {seed : Bytes} : (generateFromSeed bits seed policy).result =
    match (checkSize bits policy).result with
    | .error error => .error (.refused error)
    | .ok () =>
        if seed.length < policy.minSeedLength then .error (.refused
          (.precondition .rsaPss (.seedTooShort policy.minSeedLength seed.length)))
        else SigningKey.ofPool bits (.ofSeed seed) := by
  rw [generateFromSeed]
  change (match (checkSize bits policy).result with
    | .error error => _
    | .ok () => _ : Logged (Except Failure SigningKey)).result = _
  split
  · rfl
  · split_ifs <;> rfl

namespace SigningKey

/-- The keys that are generated, with the entropy of the operating system or from a seed. -/
inductive Generated (key : SigningKey) : Prop where
  | fresh {bits : Nat} {policy : RsaPolicy} {draw : OsDraw}
      (generate_eq : (generate bits policy draw).result = .ok key)
  | seeded {bits : Nat} {policy : RsaPolicy} {seed : Bytes}
      (generate_eq : (generateFromSeed bits seed policy).result = .ok key)

/-- A key is generated from a pool, for a size that is read back. -/
theorem Generated.exists_ofPool (h : Generated key) :
    ∃ bits pool, bits ≤ RsaPolicy.ceiling ∧ ofPool bits pool = .ok key := by
  cases h with
  | @fresh bits policy draw hKey =>
      rw [result_generate] at hKey
      split at hKey
      next => cases hKey
      next hSize =>
        split at hKey
        next => cases hKey
        next pool _ => exact ⟨bits, pool, le_ceiling_of_checkSize hSize, hKey⟩
  | @seeded bits policy seed hKey =>
      rw [result_generateFromSeed] at hKey
      split at hKey
      next => cases hKey
      next hSize =>
        split_ifs at hKey
        exact ⟨bits, _, le_ceiling_of_checkSize hSize, hKey⟩

/-- Two primes of 261 bits, which the first bytes from a pool may give. -/
def drawnFactors : Nat × Nat :=
  (2998390245279841900996707629627968729983601417920319423941882561069752785886603,
    2890172365431361821983745112405649412397275085280277650411837523428946429203389)

/-- The key of 522 bits with these factors. -/
def drawnKey : SigningKey where
  p := drawnFactors.1
  q := drawnFactors.2
  n := drawnFactors.1 * drawnFactors.2
  e := publicExponent
  isPublic := by decide +kernel
  d := (Modular.inverse? publicExponent ((drawnFactors.1 - 1) * (drawnFactors.2 - 1))).get
    (by decide +kernel)
  isPrivate := by decide +kernel
  coefficient := (Modular.inverse? drawnFactors.2 drawnFactors.1).get (by decide +kernel)
  isInverse := (Option.some_get _).symm

/-- A seed whose pool gives these factors at once. -/
def drawnSeed : Bytes := List.replicate 8 238

/-- Generation gives a key under a policy that is valid. -/
theorem generateFromSeed_drawnSeed :
    (generateFromSeed 522 drawnSeed .testing).result = .ok drawnKey := by
  have hDraw := EntropyPool.draw_servedTimes
    (show (EntropyPool.ofSeed drawnSeed).hasEntropy = true from rfl) 33
  obtain ⟨first, second, between, rest, hFirst, hSecond, hP, hQ⟩ : ∃ first second between rest,
      (EntropyPool.ofSeed drawnSeed).draw 33 = .ok (first, between) ∧
        between.draw 33 = .ok (second, rest) ∧
        candidate 261 first = drawnKey.p ∧ candidate 261 second = drawnKey.q := by
    refine ⟨_, _, _, _, hDraw 0, hDraw 1, ?_, ?_⟩
    · rw [EntropyPool.ciphertext, Aes.Schedule.encrypt_eq_evaluate]
      decide +kernel
    · rw [EntropyPool.ciphertext, Aes.Schedule.encrypt_eq_evaluate]
      decide +kernel
  have hFactor : drawPrime 261 (.ofSeed drawnSeed) = .ok (drawnKey.p, between) := by
    rw [← hP]
    apply drawPrime_eq_ok hFirst <;> rw [hP] <;> decide +kernel
  have hCofactor : drawPrime 261 between = .ok (drawnKey.q, rest) := by
    rw [← hQ]
    apply drawPrime_eq_ok hSecond <;> rw [hQ] <;> decide +kernel
  have hFound : tryNumbers 522 (.ofSeed drawnSeed) =
      .ok (some (drawnKey.p, drawnKey.q, drawnKey.d), rest) := by
    have hBits : 522 - Bytes.bitLength drawnKey.p = 261 := by decide +kernel
    have hInverse : Modular.inverse? publicExponent ((drawnKey.p - 1) * (drawnKey.q - 1)) =
        some drawnKey.d := by decide +kernel
    exact tryNumbers_eq_ok hFactor (hBits ▸ hCofactor) (by decide +kernel) hInverse
  have hMade : ofNumbers drawnKey.toPrivateNumbers = .ok drawnKey := by
    rw [ofNumbers_toPrivateNumbers]
    exact if_pos (by decide +kernel)
  rw [result_generateFromSeed]
  exact ofPool_eq_ok rfl hFound hMade

end SigningKey

end Rsa

end Signet
