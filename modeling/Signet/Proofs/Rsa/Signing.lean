import Signet.Proofs.EntropyPool.Serving
import Signet.Proofs.KeyEncoding
import Signet.Proofs.Rsa.Pss

/-! RSA signatures verify under the public half of their key, for every size of the modulus and without
regard to its factors: what comes back from the private power is checked against the public one before
it leaves the signer. -/
namespace Signet

theorem EntropyPool.length_of_draw_eq_ok {pool rest : EntropyPool} {length : Nat} {bytes : Bytes}
    (h : pool.draw length = .ok (bytes, rest)) : bytes.length = length := by
  rw [draw] at h
  split at h
  next drawn hDrawn =>
    obtain rfl := Except.ok.inj h
    cases hEntropy : pool.hasEntropy with
    | false =>
        rw [generate_of_not_hasEntropy hEntropy] at hDrawn
        cases hDrawn
    | true =>
        rw [generate_of_hasEntropy hEntropy] at hDrawn
        obtain ⟨rfl, -⟩ := Prod.mk.inj (Except.ok.inj hDrawn)
        rw [List.length_take, length_ciphertext, blockCount]
        omega
  next => cases h

namespace Rsa.SigningKey

variable {key : SigningKey} {message salt signature : Bytes} {factor inverse : Nat}

/-- The signatures that a key gives with a salt, a blinding factor and its inverse. -/
def Signs (key : SigningKey) (message salt : Bytes) (factor inverse : Nat) (signature : Bytes) : Prop :=
  ∃ encoded result, encode? key.encodedBits (Sha256.hash message).val salt = some encoded ∧
    key.applyBlinded (Bytes.ofBigEndian encoded) factor inverse = .ok result ∧
    signature = Bytes.bigEndian key.signatureLength result

/-- What leaves the private operation is below the modulus and leads back. -/
theorem applyBlinded_eq_ok {encoded result : Nat}
    (h : key.applyBlinded encoded factor inverse = .ok result) :
    result < key.n ∧ key.toVerifyingKey.apply result = encoded := by
  rw [applyBlinded] at h
  split at h
  next hLeadsBack =>
    obtain rfl := Except.ok.inj h
    exact ⟨Nat.mod_lt _ (Nat.zero_lt_of_lt key.isPublic.2.2.2.2), hLeadsBack⟩
  next => cases h

/-- Numbers below the modulus fit into a signature. -/
theorem ofBigEndian_bigEndian_signatureLength (key : VerifyingKey) {value : Nat} (h : value < key.n) :
    Bytes.ofBigEndian (Bytes.bigEndian key.signatureLength value) = value := by
  apply Bytes.ofBigEndian_bigEndian_of_lt
  refine h.trans (Der.lt_pow_of_log2_lt ?_)
  have hSize := key.sizeInBits_eq
  rw [VerifyingKey.signatureLength]
  omega

theorem Signs.length_eq (h : key.Signs message salt factor inverse signature) :
    signature.length = key.signatureLength := by
  obtain ⟨encoded, result, -, -, rfl⟩ := h
  exact Bytes.length_bigEndian _ _

theorem Signs.verify_eq (h : key.Signs message salt factor inverse signature)
    (hSalt : salt.length = 32) : key.verifyingKey.verify message signature = .ok true := by
  have hLength := h.length_eq
  obtain ⟨encoded, result, hEncoded, hResult, rfl⟩ := h
  obtain ⟨hLess, hLeadsBack⟩ := applyBlinded_eq_ok hResult
  have hValue := ofBigEndian_bigEndian_signatureLength key.toVerifyingKey hLess
  have hBytes : Bytes.bigEndian (encodedLength key.encodedBits) (Bytes.ofBigEndian encoded) = encoded := by
    rw [← length_of_encode?_eq_some hSalt hEncoded, Bytes.bigEndian_ofBigEndian]
  rw [verifyingKey, VerifyingKey.verify, checkSignatureLength, if_pos hLength]
  simp only [hValue, hLeadsBack, hBytes, isEncoding_of_encode?_eq_some hSalt hEncoded, hLess,
    decide_true, Bool.and_self, bind, Except.bind]

/-- What is signed with a pool is signed with a salt and a blinding factor that come from it. -/
theorem exists_signs_of_signWith {pool : EntropyPool} (h : key.signWith message pool = .ok signature) :
    ∃ salt factor inverse, salt.length = 32 ∧ key.Signs message salt factor inverse signature := by
  obtain ⟨⟨salt, afterSalt⟩, hSalt, hRest⟩ := exists_of_bind_eq_ok h
  simp only at hRest
  split at hRest
  next => cases hRest
  next encoded hEncoded =>
    obtain ⟨⟨⟨factor, inverse⟩, afterBlinding⟩, -, hBody⟩ := exists_of_bind_eq_ok hRest
    simp only at hBody
    split at hBody
    next => cases hBody
    next result hResult =>
      exact ⟨salt, factor, inverse, EntropyPool.length_of_draw_eq_ok hSalt, encoded, result, hEncoded,
        hResult, (Except.ok.inj hBody).symm⟩

/-- The assertion of the length of a fresh signature never fails and reports nothing. -/
theorem sign_eq_silent (key : SigningKey) (message entropy : Bytes) :
    key.sign message entropy = .silent (key.signWith message (.ofSeed entropy)) := by
  change assertSigned .rsaPss key.signatureLength (key.signWith message (.ofSeed entropy)) = _
  cases hSigned : key.signWith message (.ofSeed entropy) with
  | error failure => rfl
  | ok signature =>
      obtain ⟨salt, factor, inverse, -, hSigns⟩ := exists_signs_of_signWith hSigned
      rw [assertSigned, assertSignatureLength, if_pos hSigns.length_eq]
      rfl

/-- A key signs with a salt and a blinding factor if the encoding fits and the private power leads back. -/
theorem exists_signs (h : ((encode? key.encodedBits (Sha256.hash message).val salt).bind fun encoded =>
    (key.applyBlinded (Bytes.ofBigEndian encoded) factor inverse).toOption).isSome = true) :
    ∃ signature, key.Signs message salt factor inverse signature := by
  obtain ⟨result, hSome⟩ := Option.isSome_iff_exists.mp h
  obtain ⟨encoded, hEncoded, hOption⟩ := Option.bind_eq_some_iff.mp hSome
  refine ⟨_, encoded, result, hEncoded, ?_, rfl⟩
  cases hResult : key.applyBlinded (Bytes.ofBigEndian encoded) factor inverse with
  | error error =>
      rw [hResult] at hOption
      cases hOption
  | ok value =>
      rw [hResult] at hOption
      exact congrArg _ (Option.some.inj hOption)

/-- What a key signs with any salt of thirty-two bytes and any blinding has the length of its signatures
and verifies under the public half of the key. What it signs with a pool is of this kind, and passes the
assertion of its length. The public half is read back from what it is written as, unless its modulus is
above the ceiling. -/
theorem signs_verify (key : SigningKey) (message : Bytes) :
    (∀ salt factor inverse signature, salt.length = 32 →
      key.Signs message salt factor inverse signature →
        signature.length = key.signatureLength ∧
          key.verifyingKey.verify message signature = .ok true) ∧
    (∀ pool signature, key.signWith message pool = .ok signature →
      ∃ salt factor inverse, salt.length = 32 ∧ key.Signs message salt factor inverse signature) ∧
    (∀ entropy : Bytes, key.sign message entropy = .silent (key.signWith message (.ofSeed entropy))) ∧
    key.verifyingKey.signatureLength = key.signatureLength ∧
    VerifyingKey.load key.verifyingKey.serialize =
      if key.verifyingKey.sizeInBits ≤ RsaPolicy.ceiling then .ok key.verifyingKey
      else .error (.corrupt .rsaPss .invalidPublicKey) := by
  refine ⟨fun salt factor inverse signature hSalt hSigns => ⟨hSigns.length_eq, hSigns.verify_eq hSalt⟩,
    fun pool signature => exists_signs_of_signWith, key.sign_eq_silent message, rfl, ?_⟩
  split_ifs with hSize
  · exact VerifyingKey.load_eq_ok_iff.mpr ⟨hSize, rfl⟩
  · exact VerifyingKey.load_serialize_of_gt (Nat.lt_of_not_le hSize)

/-- A key whose modulus is one bit longer than whole bytes: its factors are three and the prime of
Mersenne with 607 bits. -/
def oddSizedKey : SigningKey where
  n := (2 ^ 607 - 1) * 3
  e := 5
  isPublic := by decide +kernel
  d := (4 * (2 ^ 607 - 2) + 1) / 5
  p := 2 ^ 607 - 1
  q := 3
  isPrivate := by decide +kernel
  coefficient := (Modular.inverse? 3 (2 ^ 607 - 1)).get (by decide +kernel)
  isInverse := (Option.some_get _).symm

/-- The key of 609 bits signs the empty message, and the signature verifies under the reloaded key. -/
theorem signs_verify_oddSizedKey : ∃ signature, signature.length = 77 ∧
    oddSizedKey.verifyingKey.verify [] signature = .ok true ∧
      VerifyingKey.load oddSizedKey.verifyingKey.serialize = .ok oddSizedKey.verifyingKey := by
  have hSigns : ∃ signature, oddSizedKey.Signs [] (List.replicate 32 0) 1 1 signature :=
    exists_signs (by decide +kernel)
  obtain ⟨signature, hSigns⟩ := hSigns
  obtain ⟨hVerify, -, -, -, hLoad⟩ := signs_verify oddSizedKey []
  obtain ⟨hLength, hVerified⟩ := hVerify _ 1 1 signature (List.length_replicate) hSigns
  have hSize : oddSizedKey.verifyingKey.sizeInBits ≤ RsaPolicy.ceiling := by decide +kernel
  have hBytes : oddSizedKey.signatureLength = 77 := by decide +kernel
  rw [if_pos hSize] at hLoad
  exact ⟨signature, hLength.trans hBytes, hVerified, hLoad⟩

/-- The key of the primes of Mersenne signs, but its public half is not read back. -/
theorem exists_signs_mersenneKey :
    (∃ signature, mersenneKey.Signs [] (List.replicate 32 0) 1 1 signature) ∧
      VerifyingKey.load mersenneKey.verifyingKey.serialize =
        .error (.corrupt .rsaPss .invalidPublicKey) := by
  refine ⟨exists_signs (by decide +kernel), VerifyingKey.load_serialize_of_gt ?_⟩
  rw [sizeInBits_verifyingKey_mersenneKey]
  decide

end Rsa.SigningKey

end Signet
