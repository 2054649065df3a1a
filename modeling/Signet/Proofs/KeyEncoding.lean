import Signet.Proofs.Curve.Decoding
import Signet.Proofs.Curve.Edwards
import Signet.Proofs.KeyForm

/-! The byte strings that stand for public keys. RSA and Ed25519 keys stand in one form only. The point of
an ECDSA key may stand in any of its forms, although it is written in one of them. -/
namespace Signet

theorem Point.Encodes.length {c : Curve} {bytes : Bytes} {point : Point c} (h : Encodes bytes point) :
    bytes.length ≤ 2 * c.width + 1 := by
  cases h with
  | both => simp only [List.length_cons, List.length_append, length_coordinateBytes]; omega
  | even | odd | smaller => simp only [List.length_cons, length_coordinateBytes]; omega

theorem Point.length_encodeCompressed {c : Curve} {point : Point c} (h : point ≠ infinity) :
    point.encodeCompressed.length = c.width + 1 := by
  cases point with
  | infinity => exact absurd rfl h
  | affine x y => rw [encodeCompressed, List.length_cons, length_coordinateBytes]

namespace Ecdsa.VerifyingKey

theorem length_algorithmId (c : NamedCurve) : (algorithmId c).length ≤ Der.maxLength := by
  cases c <;> decide

theorem readPublicKeyInfo?_of_encodes {c : NamedCurve} {point : Point c.curve} {encoded : Bytes}
    (h : Point.Encodes encoded point) :
    Der.readPublicKeyInfo? (algorithmId c) (Der.publicKeyInfo (algorithmId c) encoded) = some encoded := by
  refine Der.readPublicKeyInfo?_eq_some_iff.mpr ⟨?_, rfl⟩
  have hMax : Der.maxLength = 268435455 := by decide
  have hWidth : c.curve.width ≤ 66 := by cases c <;> decide
  have hPoint := h.length
  have hAlgorithm : Der.elementLength (algorithmId c).length ≤ 21 := by cases c <;> decide
  have hBits := Der.elementLength_le (encoded.length + 1) (by omega)
  rw [List.length_append, Der.sequence, Der.bitString, Der.length_element, Der.length_element,
    List.length_cons]
  omega

theorem onCurve?_eq_some_iff {c : NamedCurve} {bytes : Bytes} {key : VerifyingKey} :
    onCurve? c bytes = some key ↔ ∃ (point : Point c.curve) (encoded : Bytes), key = ⟨c, point⟩ ∧
      bytes = Der.publicKeyInfo (algorithmId c) encoded ∧ Point.Encodes encoded point ∧
        point.OnCurve := by
  constructor
  · intro h
    obtain ⟨encoded, hEncoded, hDecode⟩ := Option.bind_eq_some_iff.mp h
    obtain ⟨point, hPoint, hKey⟩ := Option.bind_eq_some_iff.mp hDecode
    obtain ⟨-, rfl⟩ := Der.readPublicKeyInfo?_eq_some_iff.mp hEncoded
    exact ⟨point, encoded, (Option.some.inj hKey).symm, rfl, Point.decode?_eq_some_iff.mp hPoint⟩
  · rintro ⟨point, encoded, rfl, rfl, hPoint⟩
    rw [onCurve?, readPublicKeyInfo?_of_encodes hPoint.1]
    exact Option.bind_eq_some_iff.mpr ⟨encoded, rfl,
      Option.bind_eq_some_iff.mpr ⟨point, Point.decode?_eq_some_iff.mpr hPoint, rfl⟩⟩

/-- An envelope tells the curve. -/
theorem eq_of_publicKeyInfo_eq {c c' : NamedCurve} {encoded encoded' : Bytes}
    (h : Der.publicKeyInfo (algorithmId c) encoded = Der.publicKeyInfo (algorithmId c') encoded') :
    c = c' := by
  have hAlgorithm := (Der.publicKeyInfo_inj (length_algorithmId c) (length_algorithmId c') h).1
  cases c <;> cases c' <;> first | rfl | exact absurd hAlgorithm (by decide)

/-- No envelope is read on two curves. -/
theorem onCurve?_eq_none_of_ne {c c' : NamedCurve} {bytes : Bytes} {key : VerifyingKey} (hCurves : c' ≠ c)
    (h : onCurve? c bytes = some key) : onCurve? c' bytes = none := by
  obtain ⟨_, _, -, rfl, -⟩ := onCurve?_eq_some_iff.mp h
  apply Option.eq_none_iff_forall_ne_some.mpr
  intro found hFound
  obtain ⟨_, _, -, hBytes, -⟩ := onCurve?_eq_some_iff.mp hFound
  exact hCurves (eq_of_publicKeyInfo_eq hBytes).symm

theorem load_eq_ok_iff {bytes : Bytes} {key : VerifyingKey} :
    load bytes = .ok key ↔ onCurve? key.curve bytes = some key := by
  have hLoad : load bytes = .ok key ↔ (onCurve? .p192 bytes <|> onCurve? .p521 bytes) = some key := by
    rw [load]
    split
    next loaded hLoaded => rw [hLoaded, Except.ok.injEq, Option.some.injEq]
    next hNone => simp only [hNone, reduceCtorEq]
  rw [hLoad, Option.orElse_eq_orElse, Option.orElse_eq_or, Option.or_eq_some_iff]
  constructor
  · rintro (hFirst | ⟨-, hSecond⟩)
    · obtain ⟨point, encoded, rfl, -⟩ := onCurve?_eq_some_iff.mp hFirst
      exact hFirst
    · obtain ⟨point, encoded, rfl, -⟩ := onCurve?_eq_some_iff.mp hSecond
      exact hSecond
  · intro h
    cases hCurve : key.curve with
    | p192 => exact .inl (hCurve ▸ h)
    | p521 => exact .inr ⟨onCurve?_eq_none_of_ne (by rw [hCurve]; decide) h, hCurve ▸ h⟩

end Ecdsa.VerifyingKey

theorem SeededEcdsa.VerifyingKey.load_eq_ok_iff {bytes : Bytes} {key : SeededEcdsa.VerifyingKey} :
    load bytes = .ok key ↔
      bytes.length = verifyingKeyLength ∧ Point.Encodes bytes key.point ∧ key.point.OnCurve := by
  rw [← Point.decode?_eq_some_iff, load]
  split
  next hLength => simp only [hLength, reduceCtorEq, false_and]
  next hLength =>
    rw [and_iff_right (not_not.mp hLength)]
    split
    next point hPoint =>
      rw [hPoint, Except.ok.injEq, Option.some.injEq]
      exact ⟨fun h => h ▸ rfl, fun h => h ▸ rfl⟩
    next hNone => simp only [hNone, reduceCtorEq]

theorem Ed25519.VerifyingKey.load_eq_ok_iff {bytes : Bytes} {key : Ed25519.VerifyingKey} :
    load bytes = .ok key ↔
      bytes = key.serialize ∧ Edwards.Point.decode? key.bytes = some key.point := by
  constructor
  · intro h
    have hBytes := serialize_of_load h
    subst hBytes
    refine ⟨rfl, ?_⟩
    have hLength : key.serialize.length = verifyingKeyLength := key.bytes.property
    rw [load, dif_pos hLength] at h
    split at h
    next point hPoint =>
      have hKey := Except.ok.inj h
      rw [← hKey]
      exact hPoint
    next => cases h
  · rintro ⟨rfl, hPoint⟩
    exact load_of_decode?_eq_some hPoint

theorem Rsa.VerifyingKey.load_eq_ok_iff {bytes : Bytes} {key : Rsa.VerifyingKey} :
    load bytes = .ok key ↔ key.sizeInBits ≤ RsaPolicy.ceiling ∧ bytes = key.serialize := by
  rw [← load?_eq_some_iff, load]
  split
  next loaded hLoaded => rw [hLoaded, Except.ok.injEq, Option.some.injEq]
  next hNone => simp only [hNone, reduceCtorEq]

/-- The envelope of a key that can be read determines the modulus, also against keys that cannot. -/
theorem Rsa.VerifyingKey.n_eq_of_serialize_eq {key other : Rsa.VerifyingKey}
    (hSize : other.sizeInBits ≤ RsaPolicy.ceiling) (h : key.serialize = other.serialize) :
    key.n = other.n := by
  obtain ⟨hOther, -, hTotal, -⟩ := lengths_le hSize
  have hAlgorithm : algorithmId.length ≤ Der.maxLength := by decide
  have hNumbers : key.numbers = other.numbers :=
    (Der.element_inj (Der.publicKeyInfo_inj hAlgorithm hAlgorithm h).2).2
  have hOwn : (Der.naturalContent key.n).length ≤ Der.maxLength := by
    have hLength := Der.add_two_le_elementLength (Der.naturalContent key.n).length
    rw [← hNumbers, numbers, List.length_append, Der.natural, Der.length_element] at hTotal
    omega
  obtain ⟨-, hContent, -⟩ := Der.element_append_inj hOwn hOther hNumbers
  rw [← Der.ofBigEndian_naturalContent key.n, hContent, Der.ofBigEndian_naturalContent]

theorem Rsa.VerifyingKey.load_serialize_of_gt {key : Rsa.VerifyingKey}
    (h : RsaPolicy.ceiling < key.sizeInBits) :
    load key.serialize = .error (.corrupt .rsaPss .invalidPublicKey) := by
  rw [load]
  split
  next loaded hLoaded =>
    obtain ⟨hSize, hBytes⟩ := load?_eq_some_iff.mp hLoaded
    rw [sizeInBits, n_eq_of_serialize_eq hSize hBytes] at h
    exact absurd hSize (Nat.not_le.mpr h)
  next => rfl

/-- What a key is written as is read back, up to the greatest modulus that is read. -/
theorem Rsa.VerifyingKey.load_serialize (key : Rsa.VerifyingKey) : load key.serialize =
    if key.sizeInBits ≤ RsaPolicy.ceiling then .ok key
    else .error (.corrupt .rsaPss .invalidPublicKey) := by
  split_ifs with hSize
  · exact load_eq_ok_iff.mpr ⟨hSize, rfl⟩
  · exact load_serialize_of_gt (Nat.lt_of_not_le hSize)

/-- A key whose factors are the primes of Mersenne with 2281 and 2203 bits. -/
def Rsa.mersenneKey : Rsa.SigningKey where
  n := (2 ^ 2281 - 1) * (2 ^ 2203 - 1)
  e := 65537
  isPublic := by decide +kernel
  d := (33256 * ((2 ^ 2281 - 2) * (2 ^ 2203 - 2)) + 1) / 65537
  p := 2 ^ 2281 - 1
  q := 2 ^ 2203 - 1
  isPrivate := by decide +kernel
  coefficient := (Modular.inverse? (2 ^ 2203 - 1) (2 ^ 2281 - 1)).get (by decide +kernel)
  isInverse := (Option.some_get _).symm

theorem Rsa.sizeInBits_verifyingKey_mersenneKey : mersenneKey.verifyingKey.sizeInBits = 4484 := by
  decide +kernel

namespace VerifyingKey

/-- The byte strings that stand for a key. -/
inductive IsEncoding : VerifyingKey → Bytes → Prop where
  | rsaPss {key : Rsa.VerifyingKey} (le_ceiling : key.sizeInBits ≤ RsaPolicy.ceiling) :
      IsEncoding (rsaPss key) key.serialize
  | ecdsa {curve : NamedCurve} {point : Point curve.curve} {encoded : Bytes}
      (encodes : Point.Encodes encoded point) (onCurve : point.OnCurve) :
      IsEncoding (ecdsa ⟨curve, point⟩) (Der.publicKeyInfo (Ecdsa.algorithmId curve) encoded)
  | ecdsaSeeded {point : Point p192} {encoded : Bytes}
      (length : encoded.length = SeededEcdsa.verifyingKeyLength)
      (encodes : Point.Encodes encoded point) (onCurve : point.OnCurve) :
      IsEncoding (ecdsaSeeded ⟨point⟩) encoded
  | ed25519 {key : Ed25519.VerifyingKey} (decoded : Edwards.Point.decode? key.bytes = some key.point) :
      IsEncoding (ed25519 key) key.serialize

/-- A key is loaded by its family, and from the byte strings that stand for it alone. -/
theorem load_eq_ok_iff {family : Family} {bytes : Bytes} {key : VerifyingKey} :
    load family bytes = .ok key ↔ key.keyType.family = family ∧ key.IsEncoding bytes := by
  constructor
  · intro h
    refine ⟨(isForm_of_load h).1, ?_⟩
    cases family with
    | rsaPss =>
        obtain ⟨loaded, hLoad, rfl⟩ := exists_of_map_eq_ok h
        obtain ⟨hSize, rfl⟩ := Rsa.VerifyingKey.load_eq_ok_iff.mp hLoad
        exact .rsaPss hSize
    | ecdsa =>
        obtain ⟨loaded, hLoad, rfl⟩ := exists_of_map_eq_ok h
        obtain ⟨point, encoded, hKey, rfl, hEncodes, hOn⟩ :=
          Ecdsa.VerifyingKey.onCurve?_eq_some_iff.mp (Ecdsa.VerifyingKey.load_eq_ok_iff.mp hLoad)
        rw [hKey]
        exact .ecdsa hEncodes hOn
    | ecdsaSeeded =>
        obtain ⟨loaded, hLoad, rfl⟩ := exists_of_map_eq_ok h
        obtain ⟨hLength, hEncodes, hOn⟩ := SeededEcdsa.VerifyingKey.load_eq_ok_iff.mp hLoad
        exact .ecdsaSeeded hLength hEncodes hOn
    | ed25519 =>
        obtain ⟨loaded, hLoad, rfl⟩ := exists_of_map_eq_ok h
        obtain ⟨rfl, hPoint⟩ := Ed25519.VerifyingKey.load_eq_ok_iff.mp hLoad
        exact .ed25519 hPoint
  · rintro ⟨rfl, hEncoding⟩
    cases hEncoding with
    | @rsaPss key hSize =>
        change load .rsaPss _ = _
        rw [load, Rsa.VerifyingKey.load_eq_ok_iff.mpr ⟨hSize, rfl⟩]
        rfl
    | @ecdsa curve point encoded hEncodes hOn =>
        have hFamily : (ecdsa ⟨curve, point⟩).keyType.family = .ecdsa := by cases curve <;> rfl
        have hLoad : Ecdsa.VerifyingKey.load (Der.publicKeyInfo (Ecdsa.algorithmId curve) encoded) =
            .ok ⟨curve, point⟩ := Ecdsa.VerifyingKey.load_eq_ok_iff.mpr
          (Ecdsa.VerifyingKey.onCurve?_eq_some_iff.mpr ⟨point, encoded, rfl, rfl, hEncodes, hOn⟩)
        rw [hFamily, load, hLoad]
        rfl
    | @ecdsaSeeded point encoded hLength hEncodes hOn =>
        have hLoad : SeededEcdsa.VerifyingKey.load bytes = .ok ⟨point⟩ :=
          SeededEcdsa.VerifyingKey.load_eq_ok_iff.mpr ⟨hLength, hEncodes, hOn⟩
        change load .ecdsaSeeded _ = _
        rw [load, hLoad]
        rfl
    | @ed25519 key hPoint =>
        change load .ed25519 _ = _
        rw [load, Ed25519.VerifyingKey.load_eq_ok_iff.mpr ⟨rfl, hPoint⟩]
        rfl

/-- No limit on the size of a modulus keeps the key from being read back. -/
def IsWithinCeiling (key : VerifyingKey) : Prop :=
  ∀ bits, key.sizeInBits? = some bits → bits ≤ RsaPolicy.ceiling

/-- The keys that there are: those of signing keys, and those that are loaded. -/
inductive Obtained : VerifyingKey → Prop where
  | ofSigningKey (key : SigningKey) : Obtained key.verifyingKey
  | loaded {family : Family} {bytes : Bytes} {key : VerifyingKey} (load_eq : load family bytes = .ok key) :
      Obtained key

variable {key : VerifyingKey} {bytes : Bytes}

theorem isWithinCeiling_of_sizeInBits?_eq_none (h : key.sizeInBits? = none) : key.IsWithinCeiling := by
  intro bits hBits
  rw [h] at hBits
  cases hBits

theorem IsEncoding.isWithinCeiling (h : key.IsEncoding bytes) : key.IsWithinCeiling := by
  cases h with
  | rsaPss hSize =>
      intro bits hBits
      obtain rfl := Option.some.inj hBits
      exact hSize
  | ecdsa | ecdsaSeeded | ed25519 => exact isWithinCeiling_of_sizeInBits?_eq_none rfl

theorem isEncoding_serialize_ecdsa {key : Ecdsa.VerifyingKey} (hPoint : key.point ≠ .infinity)
    (hOn : key.point.OnCurve) : IsEncoding (ecdsa key) key.serialize :=
  .ecdsa (Point.encodes_encodeUncompressed hPoint) hOn

theorem isEncoding_serialize_ecdsaSeeded {key : SeededEcdsa.VerifyingKey}
    (hPoint : key.point ≠ .infinity) (hOn : key.point.OnCurve) :
    IsEncoding (ecdsaSeeded key) key.serialize :=
  .ecdsaSeeded (Point.length_encodeCompressed hPoint) (Point.encodes_encodeCompressed hPoint) hOn

/-- What a key is written as stands for it, if anything does. -/
theorem IsEncoding.serialize (h : key.IsEncoding bytes) : key.IsEncoding key.serialize := by
  cases h with
  | rsaPss hSize => exact .rsaPss hSize
  | ecdsa hEncodes hOn => exact isEncoding_serialize_ecdsa hEncodes.ne_infinity hOn
  | ecdsaSeeded _ hEncodes hOn => exact isEncoding_serialize_ecdsaSeeded hEncodes.ne_infinity hOn
  | ed25519 hPoint => exact .ed25519 hPoint

/-- The key of a signing key is read back from what it is written as, unless its modulus is too great. -/
theorem isEncoding_serialize_verifyingKey {key : SigningKey} (hSize : key.verifyingKey.IsWithinCeiling) :
    key.verifyingKey.IsEncoding key.verifyingKey.serialize := by
  cases key with
  | rsaPss key => exact .rsaPss (hSize _ rfl)
  | ecdsa key =>
      exact isEncoding_serialize_ecdsa (Curve.mul_base_ne_infinity key.secret)
        (Curve.onCurve_mul_base key.secret.val)
  | ecdsaSeeded key =>
      exact isEncoding_serialize_ecdsaSeeded (Curve.mul_base_ne_infinity key.secret)
        (Curve.onCurve_mul_base key.secret.val)
  | ed25519 key =>
      exact .ed25519 (Edwards.Point.decode?_encode (Edwards.Point.onCurve_mul _ Edwards.Point.onCurve_base))

theorem Obtained.isEncoding_serialize_iff (h : key.Obtained) :
    key.IsEncoding key.serialize ↔ key.IsWithinCeiling := by
  refine ⟨IsEncoding.isWithinCeiling, fun hSize => ?_⟩
  cases h with
  | ofSigningKey key => exact isEncoding_serialize_verifyingKey hSize
  | loaded hLoad => exact (load_eq_ok_iff.mp hLoad).2.serialize

end VerifyingKey

end Signet
