import Signet.Proofs.Base64.Canonical
import Signet.Proofs.Descriptor
import Signet.Proofs.KeyEncoding

/-! What a descriptor resolves to. Resolving checks the type and the fingerprint of the key that the text
stands for, so a descriptor is tied to a key; it is tied to the text only as far as the key has no second
encoding. -/
namespace Signet.Descriptor

variable {descriptor : Descriptor} {key : VerifyingKey} {bytes : Bytes}

/-- The description of a key with a text that need not be its own. -/
def respelled (key : VerifyingKey) (bytes : Bytes) : Descriptor :=
  { ofKey key with publicKey := Base64.encode bytes }

theorem eq_ok_of_mapError_eq_ok {ε δ α : Type} {result : Except ε α} {f : ε → δ} {value : α}
    (h : result.mapError f = .ok value) : result = .ok value := by
  cases result with
  | error error => cases h
  | ok inner => exact congrArg _ (Except.ok.inj h)

theorem respelled_eq_ofKey_iff : respelled key bytes = ofKey key ↔ bytes = key.serialize := by
  constructor
  · intro h
    have hText : Base64.encode bytes = Base64.encode key.serialize := congrArg publicKey h
    have hDecoded := congrArg Base64.decode hText
    rw [Base64.decode_encode, Base64.decode_encode] at hDecoded
    exact Except.ok.inj hDecoded
  · rintro rfl
    rfl

theorem resolve_eq_ok_iff : descriptor.resolve = .ok key ↔
    ∃ bytes, key.IsEncoding bytes ∧ descriptor = respelled key bytes := by
  constructor
  · intro h
    obtain ⟨bytes, hText, hKey⟩ := exists_of_bind_eq_ok h
    obtain ⟨loaded, hLoad, hChecks⟩ := exists_of_bind_eq_ok hKey
    simp only at hChecks
    split at hChecks
    next => cases hChecks
    next hType =>
      split at hChecks
      next => cases hChecks
      next hKeyId =>
        obtain rfl := Except.ok.inj hChecks
        refine ⟨bytes, (VerifyingKey.load_eq_ok_iff.mp hLoad).2, ?_⟩
        rw [respelled, ofKey, not_not.mp hType, not_not.mp hKeyId,
          ← Base64.decode_eq_ok_iff.mp (eq_ok_of_mapError_eq_ok hText)]
  · rintro ⟨bytes, hEncoding, rfl⟩
    have hLoad := VerifyingKey.load_eq_ok_iff.mpr ⟨rfl, hEncoding⟩
    rw [resolve]
    simp only [respelled, ofKey, Base64.decode_encode, hLoad, Except.mapError, bind, Except.bind]
    simp

/-- A descriptor resolves to a key if and only if it has the type and the fingerprint of the key and the
text of any encoding of the key. Unless the key is one of ECDSA, this is the descriptor of the key. -/
theorem resolve_eq_ok_iff_and_eq_ofKey (descriptor : Descriptor) (key : VerifyingKey) :
    (descriptor.resolve = .ok key ↔
      ∃ bytes, key.IsEncoding bytes ∧ descriptor = respelled key bytes) ∧
    (descriptor.resolve = .ok key → key.keyType.family ≠ .ecdsa → key.keyType.family ≠ .ecdsaSeeded →
      descriptor = ofKey key) := by
  refine ⟨resolve_eq_ok_iff, fun hResolve hEcdsa hSeeded => ?_⟩
  obtain ⟨bytes, hEncoding, rfl⟩ := resolve_eq_ok_iff.mp hResolve
  rw [respelled_eq_ofKey_iff]
  cases hEncoding with
  | rsaPss | ed25519 => rfl
  | @ecdsa curve => cases curve <;> exact absurd rfl hEcdsa
  | ecdsaSeeded => exact absurd rfl hSeeded

/-- The key on P-192 whose point is the base point. -/
def baseKey : Ecdsa.VerifyingKey := ⟨.p192, p192.base⟩

/-- The envelope around the base point in the form with one coordinate. -/
def shortEnvelope : Bytes := Der.publicKeyInfo (Ecdsa.algorithmId .p192) p192.base.encodeCompressed

theorem isEncoding_shortEnvelope : (VerifyingKey.ecdsa baseKey).IsEncoding shortEnvelope :=
  .ecdsa (Point.encodes_encodeCompressed fun hInfinity => by cases hInfinity) Curve.Lawful.base_onCurve

/-- The short envelope resolves to the key; the tiny RSA key has one descriptor only. -/
theorem resolve_respelled_baseKey :
    (respelled (.ecdsa baseKey) shortEnvelope).resolve = .ok (.ecdsa baseKey) ∧
    ∀ descriptor : Descriptor, descriptor.resolve = .ok (.rsaPss tinyRsaKey) →
      descriptor = ofKey (.rsaPss tinyRsaKey) :=
  ⟨(resolve_eq_ok_iff_and_eq_ofKey _ _).1.mpr ⟨shortEnvelope, isEncoding_shortEnvelope, rfl⟩,
    fun descriptor hResolve =>
      (resolve_eq_ok_iff_and_eq_ofKey descriptor _).2 hResolve (by decide) (by decide)⟩

/-- The short envelope hashes to another fingerprint than that with which it resolves, and its descriptor
is not that of the key. -/
theorem resolve_shortEnvelope_of_other_fingerprint :
    let descriptor := respelled (.ecdsa baseKey) shortEnvelope
    descriptor.resolve = .ok (.ecdsa baseKey) ∧
      Base64.decode descriptor.publicKey = .ok shortEnvelope ∧
      descriptor.keyId ≠ Signet.keyId shortEnvelope ∧ ofKey (.ecdsa baseKey) ≠ descriptor := by
  have hOther : Signet.keyId baseKey.serialize ≠ Signet.keyId shortEnvelope := by decide +kernel
  refine ⟨resolve_eq_ok_iff.mpr ⟨shortEnvelope, isEncoding_shortEnvelope, rfl⟩,
    Base64.decode_encode _, hOther, fun hOwn => hOther ?_⟩
  rw [respelled_eq_ofKey_iff.mp hOwn.symm]
  rfl

theorem resolve_ofKey_of_load_eq_error {error : Error}
    (h : VerifyingKey.load key.keyType.family key.serialize = .error error) :
    (ofKey key).resolve = .error error := by
  rw [resolve]
  simp only [ofKey, Base64.decode_encode, Except.mapError, bind, Except.bind, h]

theorem resolve_ofKey_of_not_isWithinCeiling (h : ¬key.IsWithinCeiling) :
    (ofKey key).resolve = .error (.corrupt .rsaPss .invalidPublicKey) := by
  cases key with
  | rsaPss key =>
      have hSize : RsaPolicy.ceiling < key.sizeInBits := by
        refine Nat.lt_of_not_le fun hLe => h fun bits hBits => ?_
        obtain rfl := Option.some.inj hBits
        exact hLe
      apply resolve_ofKey_of_load_eq_error
      change VerifyingKey.load .rsaPss key.serialize = _
      rw [VerifyingKey.load, Rsa.VerifyingKey.load_serialize_of_gt hSize]
      rfl
  | ecdsa | ecdsaSeeded | ed25519 =>
      exact absurd (VerifyingKey.isWithinCeiling_of_sizeInBits?_eq_none rfl) h

/-- The descriptor of a key resolves to this key, with all that it answers, unless its modulus is above
the ceiling. Such a key is written, but not read back. -/
theorem resolve_ofKey_of_obtained (key : VerifyingKey) (h : key.Obtained) :
    ((ofKey key).resolve = .ok key ↔ key.IsWithinCeiling) ∧
    (¬key.IsWithinCeiling → (ofKey key).resolve = .error (.corrupt .rsaPss .invalidPublicKey)) := by
  refine ⟨?_, resolve_ofKey_of_not_isWithinCeiling⟩
  rw [← h.isEncoding_serialize_iff, resolve_eq_ok_iff]
  constructor
  · rintro ⟨bytes, hEncoding, hOwn⟩
    rwa [← respelled_eq_ofKey_iff.mp hOwn.symm]
  · exact fun hEncoding => ⟨key.serialize, hEncoding, rfl⟩

/-- The key of a seed of zeros resolves. -/
theorem resolve_ofKey_zeroSeed :
    let key := (SigningKey.ed25519 ⟨⟨List.replicate 32 0, rfl⟩⟩).verifyingKey
    (ofKey key).resolve = .ok key :=
  (resolve_ofKey_of_obtained _ (.ofSigningKey _)).1.mpr
    (VerifyingKey.isWithinCeiling_of_sizeInBits?_eq_none rfl)

/-- The key of the primes of Mersenne is written, but not read back. -/
theorem resolve_ofKey_mersenneKey :
    let key := (SigningKey.rsaPss Rsa.mersenneKey).verifyingKey
    key.Obtained ∧ (ofKey key).resolve = .error (.corrupt .rsaPss .invalidPublicKey) := by
  refine ⟨.ofSigningKey _, resolve_ofKey_of_not_isWithinCeiling fun hSize => ?_⟩
  have hLess := hSize _ rfl
  rw [Rsa.sizeInBits_verifyingKey_mersenneKey] at hLess
  exact absurd hLess (by decide)

end Signet.Descriptor
