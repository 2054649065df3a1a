import Signet.Descriptor
import Signet.Proofs.Base64
import Signet.Proofs.KeyForm

/-! Descriptors whose type is not that of the key in them. -/
namespace Signet

/-- The bytes of the key are also those of a key of the given type, whose forms overlap its own. -/
def VerifyingKey.IsAmbiguous (key : VerifyingKey) (keyType : KeyType) : Prop :=
  key.keyType.Overlaps keyType ∧ ∃ other, load keyType.family key.serialize = .ok other

namespace VerifyingKey

/-- A family refuses what it cannot load as corrupt, under its own tag. -/
theorem exists_of_load_eq_error {family : Family} {bytes : Bytes} {error : Error}
    (h : load family bytes = .error error) : ∃ fault, error = .corrupt family.algorithm fault := by
  cases family with
  | rsaPss =>
      rw [load, Rsa.VerifyingKey.load] at h
      split at h
      next => cases h
      next => exact ⟨_, (Except.error.inj h).symm⟩
  | ecdsa =>
      rw [load, Ecdsa.VerifyingKey.load] at h
      split at h
      next => cases h
      next => exact ⟨_, (Except.error.inj h).symm⟩
  | ecdsaSeeded =>
      rw [load, SeededEcdsa.VerifyingKey.load] at h
      split at h
      next => exact ⟨_, (Except.error.inj h).symm⟩
      next =>
        split at h
        next => cases h
        next => exact ⟨_, (Except.error.inj h).symm⟩
  | ed25519 =>
      rw [load, Ed25519.VerifyingKey.load] at h
      split at h
      next =>
        split at h
        next => cases h
        next => exact ⟨_, (Except.error.inj h).symm⟩
      next => exact ⟨_, (Except.error.inj h).symm⟩

/-- Keys of the types that overlap are written as they were read. -/
theorem serialize_of_load_of_overlaps {keyType other : KeyType} {bytes : Bytes} {key : VerifyingKey}
    (hOverlap : keyType.Overlaps other) (h : load other.family bytes = .ok key) :
    key.keyType = other ∧ key.serialize = bytes := by
  cases hOverlap with
  | rsaPss =>
      obtain ⟨loaded, hLoad, rfl⟩ := exists_of_map_eq_ok h
      exact ⟨rfl, Ed25519.VerifyingKey.serialize_of_load hLoad⟩
  | ed25519 =>
      obtain ⟨loaded, hLoad, rfl⟩ := exists_of_map_eq_ok h
      exact ⟨rfl, (Rsa.VerifyingKey.eq_serialize_of_load hLoad).symm⟩

/-- The bytes of an ambiguous key are as many as those of a point of Ed25519. -/
theorem length_of_load_of_overlaps {key other : VerifyingKey} {keyType : KeyType}
    (hOverlap : key.keyType.Overlaps keyType) (h : load keyType.family key.serialize = .ok other) :
    key.serialize.length = 32 := by
  have hOwn := key.isForm_serialize
  have hOther := (isForm_of_load h).2
  rw [(serialize_of_load_of_overlaps hOverlap h).1] at hOther
  generalize key.keyType = ownType at hOverlap hOwn
  cases hOverlap with
  | rsaPss => exact hOther
  | ed25519 => exact hOwn

/-- Only tiny moduli are in the overlap. -/
theorem sizeInBits?_le_of_length {key : VerifyingKey} (hLength : key.serialize.length = 32) {bits : Nat}
    (hBits : key.sizeInBits? = some bits) : bits ≤ 39 := by
  cases key with
  | rsaPss key =>
      obtain rfl := Option.some.inj hBits
      exact key.sizeInBits_le_of_length hLength
  | ecdsa | ecdsaSeeded | ed25519 => cases hBits

end VerifyingKey

theorem KeyType.algorithm_family (keyType : KeyType) :
    keyType.family.algorithm = keyType.algorithm := by
  cases keyType <;> rfl

namespace Descriptor

/-- The description of a key under a type that need not be its own. -/
def retyped (key : VerifyingKey) (keyType : KeyType) : Descriptor := { ofKey key with keyType }

theorem resolve_retyped (key : VerifyingKey) (keyType : KeyType) :
    (retyped key keyType).resolve = (do
      let other ← VerifyingKey.load keyType.family key.serialize
      if other.keyType ≠ keyType then
        .error (.corrupt keyType.algorithm (.keyTypeMismatch other.keyType keyType))
      else if other.keyId ≠ key.keyId then
        .error (.corrupt keyType.algorithm (.keyIdMismatch key.keyId other.keyId))
      else .ok other) := by
  rw [resolve]
  simp only [retyped, ofKey, Base64.decode_encode]
  rfl

theorem exists_resolve_retyped_eq_error {key : VerifyingKey} {keyType : KeyType}
    (hType : keyType ≠ key.keyType) (hClear : ¬key.IsAmbiguous keyType) :
    ∃ fault, (retyped key keyType).resolve = .error (.corrupt keyType.algorithm fault) := by
  rw [resolve_retyped]
  cases hLoad : VerifyingKey.load keyType.family key.serialize with
  | error error =>
      obtain ⟨fault, rfl⟩ := VerifyingKey.exists_of_load_eq_error hLoad
      exact ⟨fault, by rw [keyType.algorithm_family]; rfl⟩
  | ok other =>
      obtain ⟨hFamily, hForm⟩ := VerifyingKey.isForm_of_load hLoad
      have hOther : other.keyType ≠ keyType := by
        rintro rfl
        rcases key.isForm_serialize.eq_or_overlaps hForm with hEqual | hOverlap
        · exact hType hEqual.symm
        · exact hClear ⟨hOverlap, other, hLoad⟩
      exact ⟨_, if_pos hOther⟩

theorem resolve_retyped_of_overlaps {key other : VerifyingKey} {keyType : KeyType}
    (hOverlap : key.keyType.Overlaps keyType)
    (hLoad : VerifyingKey.load keyType.family key.serialize = .ok other) :
    (retyped key keyType).resolve = .ok other := by
  obtain ⟨hType, hBytes⟩ := VerifyingKey.serialize_of_load_of_overlaps hOverlap hLoad
  have hKeyId : other.keyId = key.keyId := congrArg Signet.keyId hBytes
  rw [resolve_retyped, hLoad]
  exact (if_neg (not_not.mpr hType)).trans (if_neg (not_not.mpr hKeyId))

/-- An RSA key is ambiguous if its envelope is a point of Ed25519. -/
theorem isAmbiguous_of_decode?_eq_some {key : Rsa.VerifyingKey} {encoding : Octets 32}
    {point : Edwards.Point} (hEncoding : key.serialize = encoding.val)
    (hPoint : Edwards.Point.decode? encoding = some point) :
    (VerifyingKey.rsaPss key).IsAmbiguous .ed25519 := by
  have hLoad := Ed25519.VerifyingKey.load_of_decode?_eq_some hPoint
  have hOther : VerifyingKey.load .ed25519 key.serialize = .ok (.ed25519 ⟨encoding, point⟩) := by
    rw [VerifyingKey.load, hEncoding, hLoad]
    rfl
  exact ⟨.rsaPss, _, hOther⟩

/-- The modulus of this RSA key is `1009 * 1013`. -/
def tinyRsaKey : Rsa.VerifyingKey := ⟨1022117, 65537, by decide⟩

/-- The envelope of that key. -/
def tinyRsaEnvelope : Octets 32 := ⟨tinyRsaKey.serialize, by decide⟩

theorem isAmbiguous_tinyRsaKey : (VerifyingKey.rsaPss tinyRsaKey).IsAmbiguous .ed25519 := by
  have hDecoded : (Edwards.Point.decode? tinyRsaEnvelope).isSome = true := by decide +kernel
  obtain ⟨point, hPoint⟩ := Option.isSome_iff_exists.mp hDecoded
  exact isAmbiguous_of_decode?_eq_some rfl hPoint

/-- Under another type the description of a key is refused as corrupt, with the tag of that type, unless
the bytes of the key also stand for a key of that type. This happens only between Ed25519 and RSA keys
with moduli of at most thirty-nine bits, and the description then resolves to the key of that type. -/
theorem resolve_retyped_of_ne (key : VerifyingKey) (keyType : KeyType) :
    (keyType ≠ key.keyType → ¬key.IsAmbiguous keyType →
      ∃ fault, (retyped key keyType).resolve = .error (.corrupt keyType.algorithm fault)) ∧
    (key.IsAmbiguous keyType → ∃ other, (retyped key keyType).resolve = .ok other ∧
      VerifyingKey.load keyType.family key.serialize = .ok other ∧
      other.keyType = keyType ∧ other.serialize = key.serialize ∧ key.serialize.length = 32 ∧
      ∀ bits, key.sizeInBits? = some bits ∨ other.sizeInBits? = some bits → bits ≤ 39) := by
  refine ⟨exists_resolve_retyped_eq_error, ?_⟩
  rintro ⟨hOverlap, other, hLoad⟩
  obtain ⟨hType, hBytes⟩ := VerifyingKey.serialize_of_load_of_overlaps hOverlap hLoad
  have hLength := VerifyingKey.length_of_load_of_overlaps hOverlap hLoad
  refine ⟨other, resolve_retyped_of_overlaps hOverlap hLoad, hLoad, hType, hBytes, hLength, ?_⟩
  rintro bits (hBits | hBits)
  · exact VerifyingKey.sizeInBits?_le_of_length hLength hBits
  · exact VerifyingKey.sizeInBits?_le_of_length (hBytes ▸ hLength) hBits

/-- The envelope of the tiny RSA key is refused as one of P-192 and resolves as a point of Ed25519. -/
theorem resolve_retyped_tinyRsaKey :
    (∃ fault, (retyped (.rsaPss tinyRsaKey) .ecdsaP192).resolve = .error (.corrupt .ecdsa fault)) ∧
    ∃ other, (retyped (.rsaPss tinyRsaKey) .ed25519).resolve = .ok other ∧
      other.keyType = .ed25519 := by
  have hRefused := (resolve_retyped_of_ne (.rsaPss tinyRsaKey) .ecdsaP192).1 (by decide)
    fun hAmbiguous => nomatch hAmbiguous.1
  obtain ⟨other, hOther, -, hType, -⟩ :=
    (resolve_retyped_of_ne (.rsaPss tinyRsaKey) .ed25519).2 isAmbiguous_tinyRsaKey
  exact ⟨hRefused, other, hOther, hType⟩

/-- Not every description of a loaded key is refused under another type. -/
theorem not_forall_resolve_retyped_eq_error :
    ¬∀ (family : Family) (bytes : Bytes) (key : VerifyingKey),
      VerifyingKey.load family bytes = .ok key → ∀ keyType, keyType ≠ key.keyType →
        ∃ fault, (retyped key keyType).resolve = .error (.corrupt keyType.algorithm fault) := by
  intro hAll
  have hLoaded : Rsa.VerifyingKey.load? tinyRsaKey.serialize = some tinyRsaKey :=
    Rsa.VerifyingKey.load?_eq_some_iff.mpr ⟨by decide, rfl⟩
  have hLoad : VerifyingKey.load .rsaPss tinyRsaKey.serialize = .ok (.rsaPss tinyRsaKey) := by
    rw [VerifyingKey.load, Rsa.VerifyingKey.load, hLoaded]
    rfl
  obtain ⟨fault, hRefused⟩ := hAll .rsaPss _ _ hLoad .ed25519 (by decide)
  obtain ⟨hOverlap, other, hOther⟩ := isAmbiguous_tinyRsaKey
  rw [resolve_retyped_of_overlaps hOverlap hOther] at hRefused
  cases hRefused

end Descriptor

end Signet
