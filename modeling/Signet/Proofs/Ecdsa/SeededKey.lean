import Signet.Proofs.Curve.Cubic
import Signet.Proofs.KeyEncoding

/-! Compact keys as byte strings. The point of a key is written with one coordinate and the parity of the
other one, which loses nothing. The form without parity is read as well, but never written. -/
namespace Signet

namespace Point

variable {c : Curve}

/-- Each first coordinate of a point has a form with each of the three tags. -/
theorem exists_encodes_of_contains [c.Legible] {tag : UInt8} {x y : Residue c.p}
    (hTag : tag = 2 ∨ tag = 3 ∨ tag = 5) (h : c.Contains x y) :
    ∃ y', c.Contains x y' ∧ Encodes (tag :: coordinateBytes x) (affine x y') := by
  have hNeg : c.Contains x y.neg := onCurve_neg (q := affine x y) h
  have hParity := neg_parity y
  rw [neg_eq_self_iff] at hParity
  rcases hTag with rfl | rfl | rfl
  · by_cases hEven : y.val % 2 = 0
    · exact ⟨y, h, .even hEven⟩
    · exact ⟨y.neg, hNeg, .even (by omega)⟩
  · by_cases hOdd : y.val % 2 = 1 ∨ y.val = 0
    · exact ⟨y, h, .odd hOdd⟩
    · exact ⟨y.neg, hNeg, .odd (by omega)⟩
  · by_cases hSmaller : y.val ≤ c.p - y.val
    · exact ⟨y, h, .smaller hSmaller⟩
    · refine ⟨y.neg, hNeg, .smaller ?_⟩
      rw [Residue.val_neg]
      split_ifs <;> omega

/-- A point and its negative are written with different tags before the same coordinate. -/
theorem encodeCompressed_neg [c.Legible] {x y : Residue c.p} (h : y.val ≠ 0) :
    (affine x y).neg.encodeCompressed.tail = (affine x y).encodeCompressed.tail ∧
      (affine x y).neg.encodeCompressed.head? ≠ (affine x y).encodeCompressed.head? := by
  have hParity := (neg_parity y).resolve_right (mt neg_eq_self_iff.mp h)
  refine ⟨rfl, ?_⟩
  rw [neg, encodeCompressed, encodeCompressed, List.head?_cons, List.head?_cons]
  split_ifs <;> first | omega | decide

end Point

namespace SeededEcdsa

namespace VerifyingKey

variable {bytes : Bytes} {key : VerifyingKey}

/-- What a key is read from is what it is written as, or the form without parity. -/
theorem load_eq_ok_iff_affine : load bytes = .ok key ↔
    ∃ x y, key.point = .affine x y ∧ p192.Contains x y ∧
      (bytes = key.serialize ∨ y.val ≤ p192.p - y.val ∧ bytes = 5 :: Point.coordinateBytes x) := by
  rw [load_eq_ok_iff]
  obtain ⟨point⟩ := key
  constructor
  · rintro ⟨hLength, hEncodes, hOn⟩
    cases hEncodes with
    | both x y =>
        rw [List.length_cons, List.length_append, Point.length_coordinateBytes,
          Point.length_coordinateBytes] at hLength
        exact absurd hLength (by decide)
    | @even x y hEven =>
        exact ⟨x, y, rfl, hOn, .inl (congrArg (· :: _) (if_pos hEven).symm)⟩
    | @odd x y hOdd =>
        have hNotEven : ¬y.val % 2 = 0 := by
          have := hOdd.resolve_right (P192.y_ne_zero hOn)
          omega
        exact ⟨x, y, rfl, hOn, .inl (congrArg (· :: _) (if_neg hNotEven).symm)⟩
    | @smaller x y hSmaller => exact ⟨x, y, rfl, hOn, .inr ⟨hSmaller, rfl⟩⟩
  · rintro ⟨x, y, rfl, hOn, rfl | ⟨hSmaller, rfl⟩⟩
    · exact ⟨Point.length_encodeCompressed (by simp), Point.encodes_encodeCompressed (by simp), hOn⟩
    · exact ⟨congrArg Nat.succ (Point.length_coordinateBytes x), .smaller hSmaller, hOn⟩

theorem head?_serialize_ne (key : VerifyingKey) : key.serialize.head? ≠ some 5 := by
  rw [serialize]
  rcases key.point.encodeCompressed_form with hInfinity | ⟨tag, rest, hBytes, hTag, -⟩
  · rw [hInfinity]
    decide
  · rw [hBytes]
    rcases hTag with rfl | rfl <;> simp

theorem serialize_eq_iff_of_load (h : load bytes = .ok key) :
    key.serialize = bytes ↔ bytes.head? ≠ some 5 := by
  constructor
  · rintro rfl
    exact key.head?_serialize_ne
  · intro hTag
    obtain ⟨x, y, -, -, rfl | ⟨-, rfl⟩⟩ := load_eq_ok_iff_affine.mp h
    · rfl
    · exact absurd rfl hTag

theorem drop_serialize_of_load (h : load bytes = .ok key) : key.serialize.drop 1 = bytes.drop 1 := by
  obtain ⟨x, y, hPoint, -, rfl | ⟨-, rfl⟩⟩ := load_eq_ok_iff_affine.mp h
  · rfl
  · rw [serialize, hPoint]
    rfl

theorem exists_load_eq_ok_iff : (∃ key, load bytes = .ok key) ↔
    ∃ tag x, (tag = 2 ∨ tag = 3 ∨ tag = 5) ∧ bytes = tag :: Point.coordinateBytes x ∧
      ∃ y, p192.Contains x y := by
  constructor
  · rintro ⟨⟨point⟩, hLoad⟩
    obtain ⟨x, y, rfl, hOn, rfl | ⟨-, rfl⟩⟩ := load_eq_ok_iff_affine.mp hLoad
    · refine ⟨_, x, ?_, rfl, y, hOn⟩
      split_ifs <;> simp
    · exact ⟨5, x, .inr (.inr rfl), rfl, y, hOn⟩
  · rintro ⟨tag, x, hTag, rfl, y, hContains⟩
    obtain ⟨y', hOn, hEncodes⟩ := Point.exists_encodes_of_contains hTag hContains
    have hLength := congrArg Nat.succ (Point.length_coordinateBytes x)
    exact ⟨⟨.affine x y'⟩, load_eq_ok_iff.mpr ⟨hLength, hEncodes, hOn⟩⟩

theorem exists_corrupt_of_load_eq_error {error : Error} (h : load bytes = .error error) :
    ∃ fault, error = .corrupt .ecdsaSeeded fault := by
  rw [load] at h
  split_ifs at h
  · exact ⟨_, (Except.error.inj h).symm⟩
  · split at h
    next => cases h
    next => exact ⟨_, (Except.error.inj h).symm⟩

/-- The strings that are read are the three forms with one coordinate of the points of the curve, and all
others are refused as corrupt. What is read is written back with the same coordinate, and unchanged
unless it is in the form without parity. Apart from that form no two strings stand for one key. -/
theorem load_forms_and_serialize_eq (bytes : Bytes) :
    ((∃ key, load bytes = .ok key) ↔
      ∃ tag x, (tag = 2 ∨ tag = 3 ∨ tag = 5) ∧ bytes = tag :: Point.coordinateBytes x ∧
        ∃ y, p192.Contains x y) ∧
    (∀ key, load bytes = .ok key → key.serialize.drop 1 = bytes.drop 1 ∧
      (key.serialize = bytes ↔ bytes.head? ≠ some 5)) ∧
    (∀ key other, load bytes = .ok key → load other = .ok key → bytes.head? ≠ some 5 →
      other.head? ≠ some 5 → other = bytes) ∧
    (∀ error, load bytes = .error error → ∃ fault, error = .corrupt .ecdsaSeeded fault) := by
  refine ⟨exists_load_eq_ok_iff,
    fun key hLoad => ⟨drop_serialize_of_load hLoad, serialize_eq_iff_of_load hLoad⟩,
    fun key other hLoad hOther hTag hOtherTag => ?_, fun error => exists_corrupt_of_load_eq_error⟩
  rw [← (serialize_eq_iff_of_load hLoad).mpr hTag, ← (serialize_eq_iff_of_load hOther).mpr hOtherTag]

/-- The key of the base point. -/
def baseKey : VerifyingKey := ⟨p192.base⟩

theorem load_serialize_baseKey : load baseKey.serialize = .ok baseKey :=
  load_eq_ok_iff_affine.mpr ⟨_, _, rfl, Curve.Lawful.base_onCurve, .inl rfl⟩

/-- The base point is read from the form with parity, which is what it is written as. -/
theorem load_forms_baseKey : load baseKey.serialize = .ok baseKey ∧
    baseKey.serialize.head? ≠ some 5 ∧
    ∀ other, load other = .ok baseKey → other.head? ≠ some 5 → other = baseKey.serialize := by
  obtain ⟨-, hSerialize, hUnique, -⟩ := load_forms_and_serialize_eq baseKey.serialize
  have hTag := (hSerialize baseKey load_serialize_baseKey).2.mp rfl
  exact ⟨load_serialize_baseKey, hTag,
    fun other hOther => hUnique baseKey other load_serialize_baseKey hOther hTag⟩

/-- The base point is also read from the form without parity, which is not what it is written as. -/
theorem load_baseKey_without_parity :
    let bytes := 5 :: Point.coordinateBytes p192.baseX
    load bytes = .ok baseKey ∧ baseKey.serialize ≠ bytes := by
  refine ⟨load_eq_ok_iff_affine.mpr ⟨_, _, rfl, Curve.Lawful.base_onCurve, .inr ⟨?_, rfl⟩⟩, ?_⟩
  · decide
  · intro hEqual
    exact baseKey.head?_serialize_ne (hEqual ▸ rfl)

end VerifyingKey

namespace SigningKey

/-- The key whose secret scalar is that of the given key, subtracted from the order. -/
def negated (key : SigningKey) : SigningKey :=
  ⟨⟨p192.n - key.secret.val, Nat.sub_pos_of_lt key.secret.property.2,
    Nat.sub_lt (Nat.zero_lt_of_lt key.secret.property.2) key.secret.property.1⟩⟩

variable (key : SigningKey)

theorem exists_point_verifyingKey :
    ∃ x y, key.verifyingKey.point = .affine x y ∧ p192.Contains x y := by
  have hInfinity := Curve.mul_base_ne_infinity key.secret
  have hOn := Curve.onCurve_mul_base (c := p192) key.secret.val
  rw [verifyingKey]
  cases hPoint : p192.base.mul key.secret.val with
  | infinity => exact absurd hPoint hInfinity
  | affine x y =>
      rw [hPoint] at hOn
      exact ⟨x, y, rfl, hOn⟩

theorem load_serialize_verifyingKey :
    VerifyingKey.load key.verifyingKey.serialize = .ok key.verifyingKey := by
  obtain ⟨x, y, hPoint, hOn⟩ := key.exists_point_verifyingKey
  exact VerifyingKey.load_eq_ok_iff_affine.mpr ⟨x, y, hPoint, hOn, .inl rfl⟩

theorem verifyingKey_injective {other : SigningKey} (h : other.verifyingKey = key.verifyingKey) :
    other = key := by
  have hScalar := Curve.mul_base_injective other.secret.property.2 key.secret.property.2
    (congrArg VerifyingKey.point h)
  obtain ⟨secret⟩ := key
  obtain ⟨otherSecret⟩ := other
  exact congrArg mk (Subtype.ext hScalar)

theorem point_negated : key.negated.verifyingKey.point = key.verifyingKey.point.neg :=
  Curve.mul_base_sub key.secret.property.2.le

theorem length_serialize_verifyingKey : key.verifyingKey.serialize.length = 25 := by
  obtain ⟨x, y, hPoint, -⟩ := key.exists_point_verifyingKey
  rw [VerifyingKey.serialize, hPoint, Point.length_encodeCompressed (by simp)]
  rfl

theorem head?_serialize_verifyingKey : key.verifyingKey.serialize.head? = some 2 ∨
    key.verifyingKey.serialize.head? = some 3 := by
  obtain ⟨x, y, hPoint, -⟩ := key.exists_point_verifyingKey
  rw [VerifyingKey.serialize, hPoint, Point.encodeCompressed, List.head?_cons]
  split_ifs
  · exact .inl rfl
  · exact .inr rfl

/-- The public keys of a scalar and of its negative have the same coordinate and different tags. -/
theorem serialize_negated :
    key.negated.verifyingKey.serialize.drop 1 = key.verifyingKey.serialize.drop 1 ∧
      key.negated.verifyingKey.serialize.head? ≠ key.verifyingKey.serialize.head? := by
  obtain ⟨x, y, hPoint, hOn⟩ := key.exists_point_verifyingKey
  rw [VerifyingKey.serialize, VerifyingKey.serialize, point_negated, hPoint, List.drop_one,
    List.drop_one]
  exact Point.encodeCompressed_neg (P192.y_ne_zero hOn)

theorem serialize_verifyingKey_inj {other : SigningKey} :
    other.verifyingKey.serialize = key.verifyingKey.serialize ↔ other = key := by
  constructor
  · intro hSame
    have hLoad := other.load_serialize_verifyingKey
    rw [hSame, key.load_serialize_verifyingKey] at hLoad
    exact key.verifyingKey_injective (Except.ok.inj hLoad).symm
  · rintro rfl
    rfl

/-- The public key of every secret scalar is written in twenty-five bytes with a two or a three before
the coordinate, and it is read back from these. The negative scalar differs in the first byte alone, and
no other scalar has a public key that is written alike. -/
theorem verifyingKey_serialize_lossless (key : SigningKey) :
    (key.verifyingKey.serialize.length = 25 ∧
      (key.verifyingKey.serialize.head? = some 2 ∨ key.verifyingKey.serialize.head? = some 3)) ∧
    VerifyingKey.load key.verifyingKey.serialize = .ok key.verifyingKey ∧
    (key.negated.verifyingKey.serialize.drop 1 = key.verifyingKey.serialize.drop 1 ∧
      key.negated.verifyingKey.serialize.head? ≠ key.verifyingKey.serialize.head?) ∧
    ∀ other : SigningKey, other.verifyingKey.serialize = key.verifyingKey.serialize ↔ other = key :=
  ⟨⟨key.length_serialize_verifyingKey, key.head?_serialize_verifyingKey⟩,
    key.load_serialize_verifyingKey, key.serialize_negated,
    fun _ => key.serialize_verifyingKey_inj⟩

end SigningKey

end SeededEcdsa

end Signet
