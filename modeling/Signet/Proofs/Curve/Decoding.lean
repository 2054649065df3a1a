import Signet.Proofs.Bytes
import Signet.Proofs.Curve.Encoding
import Signet.Proofs.Curve.P521

/-! The byte strings that stand for a point: the form with both coordinates, the form with one coordinate
and the parity of the other one, and, for a point whose second coordinate is the smaller one of the two
that fit, the form without parity. -/
namespace Signet

namespace Curve

/-- What the field of a curve must satisfy for points to be read back from the forms in which they are
written: coordinates fit into their width, and square roots are powers. -/
class Legible (c : Curve) : Prop where
  p_le : c.p ≤ 256 ^ c.width
  p_mod_four : c.p % 4 = 3

instance : p192.Legible := ⟨by decide, by decide⟩

instance : p521.Legible := ⟨by decide, by decide⟩

instance (c : NamedCurve) : c.curve.Legible :=
  match c with
  | .p192 => inferInstanceAs p192.Legible
  | .p521 => inferInstanceAs p521.Legible

variable {c : Curve} [c.Lawful] [c.Legible]

omit [c.Lawful] in
theorem coordinate?_eq_some_iff {bytes : Bytes} {x : Residue c.p} (hLength : bytes.length = c.width) :
    c.coordinate? (Bytes.ofBigEndian bytes) = some x ↔ bytes = Point.coordinateBytes x := by
  constructor
  · intro h
    rw [coordinate?] at h
    split_ifs at h with hLess
    obtain rfl := Option.some.inj h
    rw [Point.coordinateBytes, ← hLength, Bytes.bigEndian_ofBigEndian]
  · rintro rfl
    rw [Point.coordinateBytes, Bytes.ofBigEndian_bigEndian_of_lt (x.isLt.trans_le Legible.p_le),
      coordinate?, dif_pos x.isLt]

omit [c.Lawful] [c.Legible] in
theorem mul_self_of_sqrt?_eq_some {root value : Residue c.p} (h : c.sqrt? value = some root) :
    root * root = value := by
  rw [sqrt?] at h
  split_ifs at h with hRoot
  rwa [← Option.some.inj h]

/-- A square has a root, and it is one of the two that there are. -/
theorem exists_sqrt?_mul_self (y : Residue c.p) :
    ∃ root, c.sqrt? (y * y) = some root ∧ (root = y ∨ root = y.neg) := by
  have hField : c.p % 4 = 3 := Legible.p_mod_four
  have hExponent : (c.p + 1) / 4 + (c.p + 1) / 4 + ((c.p + 1) / 4 + (c.p + 1) / 4) = c.p + 1 := by omega
  have hRoot : (y * y).pow ((c.p + 1) / 4) * (y * y).pow ((c.p + 1) / 4) = y * y := by
    rw [← Residue.toZMod_inj]
    simp only [Residue.toZMod_mul, Residue.toZMod_pow, mul_pow, ← pow_add]
    rw [hExponent, pow_succ, ZMod.pow_card]
  exact ⟨_, if_pos hRoot, Residue.eq_or_eq_neg_of_mul_self_eq hRoot⟩

end Curve

namespace Point

variable {c : Curve}

/-- The byte strings that stand for points other than that at infinity. -/
inductive Encodes : Bytes → Point c → Prop where
  | both (x y : Residue c.p) : Encodes (4 :: (coordinateBytes x ++ coordinateBytes y)) (affine x y)
  | even {x y : Residue c.p} (parity : y.val % 2 = 0) : Encodes (2 :: coordinateBytes x) (affine x y)
  | odd {x y : Residue c.p} (parity : y.val % 2 = 1 ∨ y.val = 0) :
      Encodes (3 :: coordinateBytes x) (affine x y)
  | smaller {x y : Residue c.p} (le_neg : y.val ≤ c.p - y.val) :
      Encodes (5 :: coordinateBytes x) (affine x y)

variable [c.Lawful] [c.Legible]

/-- The point that a test prefers to its negative is found again, whichever root is computed. -/
theorem ofFirst?_eq_some_iff {prefers : Residue c.p → Bool}
    (hPrefers : ∀ y, prefers y.neg = !prefers y ∨ y.neg = y) {x : Residue c.p} {point : Point c} :
    ofFirst? prefers x = some point ↔
      ∃ y, point = affine x y ∧ c.Contains x y ∧ (prefers y = true ∨ y.neg = y) := by
  constructor
  · intro h
    obtain ⟨root, hRoot, hPoint⟩ := Option.bind_eq_some_iff.mp h
    have hSquare := Curve.mul_self_of_sqrt?_eq_some hRoot
    refine ⟨_, (Option.some.inj hPoint).symm, ?_, ?_⟩
    · rw [Curve.Contains]
      split
      · exact hSquare
      · rwa [Residue.neg_mul_neg]
    · split
      next hTrue => exact .inl hTrue
      next hFalse =>
        rw [Residue.neg_neg]
        rcases hPrefers root with hNeg | hNeg
        · exact .inl (by rw [hNeg, Bool.eq_false_of_not_eq_true hFalse]; rfl)
        · exact .inr hNeg.symm
  · rintro ⟨y, rfl, hContains, hPreferred⟩
    obtain ⟨root, hRoot, hEqual⟩ := Curve.exists_sqrt?_mul_self y
    rw [hContains] at hRoot
    have hChosen : (if prefers root then root else root.neg) = y := by
      rcases hEqual with rfl | rfl
      · rcases hPreferred with hTrue | hSame
        · rw [if_pos hTrue]
        · rw [hSame, ite_self]
      · rcases hPrefers y with hNeg | hNeg
        · rcases hPreferred with hTrue | hSame
          · rw [hNeg, hTrue, Residue.neg_neg]
            rfl
          · rw [Residue.neg_neg, hSame, ite_self]
        · rw [Residue.neg_neg, hNeg, ite_self]
    rw [ofFirst?, hRoot]
    exact congrArg (fun y => some (affine x y)) hChosen

omit [c.Lawful] in
theorem neg_eq_self_iff {y : Residue c.p} : y.neg = y ↔ y.val = 0 := by
  have hField : c.p % 4 = 3 := Curve.Legible.p_mod_four
  have hLess := y.isLt
  rw [Fin.ext_iff, Residue.val_neg]
  split_ifs <;> omega

omit [c.Lawful] in
/-- Of a number and its negative one is even and the other one odd, unless both are zero. -/
theorem neg_parity (y : Residue c.p) : y.neg.val % 2 + y.val % 2 = 1 ∨ y.neg = y := by
  have hField : c.p % 4 = 3 := Curve.Legible.p_mod_four
  have hLess := y.isLt
  rw [neg_eq_self_iff, Residue.val_neg]
  split_ifs <;> omega

theorem ofFirst?_even_eq_some_iff {x : Residue c.p} {point : Point c} :
    ofFirst? (fun y => y.val % 2 == 0) x = some point ↔
      ∃ y, point = affine x y ∧ c.Contains x y ∧ y.val % 2 = 0 := by
  rw [ofFirst?_eq_some_iff]
  · simp only [beq_iff_eq, neg_eq_self_iff]
    grind
  · intro y
    refine (neg_parity y).imp_left fun hParity => ?_
    rcases Nat.mod_two_eq_zero_or_one y.val with hEven | hOdd
    · simp [hEven, show y.neg.val % 2 = 1 by omega]
    · simp [hOdd, show y.neg.val % 2 = 0 by omega]

theorem ofFirst?_odd_eq_some_iff {x : Residue c.p} {point : Point c} :
    ofFirst? (fun y => y.val % 2 == 1) x = some point ↔
      ∃ y, point = affine x y ∧ c.Contains x y ∧ (y.val % 2 = 1 ∨ y.val = 0) := by
  rw [ofFirst?_eq_some_iff]
  · simp only [beq_iff_eq, neg_eq_self_iff]
  · intro y
    refine (neg_parity y).imp_left fun hParity => ?_
    rcases Nat.mod_two_eq_zero_or_one y.val with hEven | hOdd
    · simp [hEven, show y.neg.val % 2 = 1 by omega]
    · simp [hOdd, show y.neg.val % 2 = 0 by omega]

theorem ofFirst?_smaller_eq_some_iff {x : Residue c.p} {point : Point c} :
    ofFirst? (fun y => y.val ≤ c.p - y.val) x = some point ↔
      ∃ y, point = affine x y ∧ c.Contains x y ∧ y.val ≤ c.p - y.val := by
  have hField : c.p % 4 = 3 := Curve.Legible.p_mod_four
  rw [ofFirst?_eq_some_iff]
  · simp only [decide_eq_true_eq, neg_eq_self_iff]
    grind
  · intro y
    have hLess := y.isLt
    rw [neg_eq_self_iff, Residue.val_neg]
    split_ifs with hZero
    · exact .inr hZero
    · by_cases hSmaller : y.val ≤ c.p - y.val
      · exact .inl (by simp [hSmaller]; omega)
      · exact .inl (by simp [hSmaller]; omega)

/-- A point is read if and only if it is on the curve and stands there in one of its forms. -/
theorem decode?_eq_some_iff {bytes : Bytes} {point : Point c} :
    decode? c bytes = some point ↔ Encodes bytes point ∧ point.OnCurve := by
  constructor
  · intro hDecode
    cases bytes with
    | nil => cases hDecode
    | cons tag bytes =>
        rw [decode?] at hDecode
        split at hDecode
        next hBoth =>
          obtain ⟨rfl, hLength⟩ := hBoth
          obtain ⟨x, hX, hRest⟩ := Option.bind_eq_some_iff.mp hDecode
          obtain ⟨y, hY, hPoint⟩ := Option.bind_eq_some_iff.mp hRest
          rw [Curve.coordinate?_eq_some_iff (by rw [List.length_take]; omega)] at hX
          rw [Curve.coordinate?_eq_some_iff (by rw [List.length_drop]; omega)] at hY
          split at hPoint
          next hContains =>
            obtain rfl := Option.some.inj hPoint
            rw [← List.take_append_drop c.width bytes, hX, hY]
            exact ⟨.both x y, hContains⟩
          next => cases hPoint
        next =>
          split at hDecode
          next hLength =>
            obtain ⟨x, hX, hTag⟩ := Option.bind_eq_some_iff.mp hDecode
            rw [Curve.coordinate?_eq_some_iff hLength] at hX
            obtain rfl := hX
            split at hTag
            next hTwo =>
              obtain ⟨y, rfl, hContains, hEven⟩ := ofFirst?_even_eq_some_iff.mp hTag
              exact ⟨hTwo ▸ .even hEven, hContains⟩
            next =>
              split at hTag
              next hThree =>
                obtain ⟨y, rfl, hContains, hOdd⟩ := ofFirst?_odd_eq_some_iff.mp hTag
                exact ⟨hThree ▸ .odd hOdd, hContains⟩
              next =>
                split at hTag
                next hFive =>
                  obtain ⟨y, rfl, hContains, hSmaller⟩ := ofFirst?_smaller_eq_some_iff.mp hTag
                  exact ⟨hFive ▸ .smaller hSmaller, hContains⟩
                next => cases hTag
          next => cases hDecode
  · rintro ⟨hEncodes, hOn⟩
    have hCoordinate (x : Residue c.p) : c.coordinate? (Bytes.ofBigEndian (coordinateBytes x)) = some x :=
      (Curve.coordinate?_eq_some_iff (length_coordinateBytes x)).mpr rfl
    cases hEncodes with
    | both x y =>
        have hLength : (coordinateBytes x ++ coordinateBytes y).length = 2 * c.width := by
          rw [List.length_append, length_coordinateBytes, length_coordinateBytes]
          omega
        rw [decode?, if_pos ⟨rfl, hLength⟩, List.take_left' (length_coordinateBytes x),
          List.drop_left' (length_coordinateBytes x), hCoordinate, hCoordinate]
        exact if_pos hOn
    | even parity =>
        rw [decode?, if_neg fun h => absurd h.1 (by decide), if_pos (length_coordinateBytes _), hCoordinate]
        exact ofFirst?_even_eq_some_iff.mpr ⟨_, rfl, hOn, parity⟩
    | odd parity =>
        rw [decode?, if_neg fun h => absurd h.1 (by decide), if_pos (length_coordinateBytes _), hCoordinate]
        exact ofFirst?_odd_eq_some_iff.mpr ⟨_, rfl, hOn, parity⟩
    | smaller le_neg =>
        rw [decode?, if_neg fun h => absurd h.1 (by decide), if_pos (length_coordinateBytes _), hCoordinate]
        exact ofFirst?_smaller_eq_some_iff.mpr ⟨_, rfl, hOn, le_neg⟩

omit [c.Lawful] [c.Legible] in
theorem encodes_encodeUncompressed {point : Point c} (h : point ≠ infinity) :
    Encodes point.encodeUncompressed point := by
  cases point with
  | infinity => exact absurd rfl h
  | affine x y => exact .both x y

omit [c.Lawful] [c.Legible] in
theorem encodes_encodeCompressed {point : Point c} (h : point ≠ infinity) :
    Encodes point.encodeCompressed point := by
  cases point with
  | infinity => exact absurd rfl h
  | affine x y =>
      rw [encodeCompressed]
      split
      next hEven => exact .even hEven
      next hOdd => exact .odd (.inl (by omega))

omit [c.Lawful] [c.Legible] in
theorem Encodes.ne_infinity {bytes : Bytes} {point : Point c} (h : Encodes bytes point) :
    point ≠ infinity := by
  rintro rfl
  cases h

end Point

namespace Curve

variable {c : Curve} [c.Lawful]

/-- The multiple of the base point by a scalar is never infinity. -/
theorem mul_base_ne_infinity (scalar : c.Scalar) : c.base.mul scalar.val ≠ .infinity := by
  intro hInfinity
  have hZero : scalar.val • c.generator = 0 := by
    rw [← toGroup_mul_base, hInfinity, Point.toGroup_infinity]
  have hDvd := addOrderOf_dvd_of_nsmul_eq_zero hZero
  rw [addOrderOf_generator] at hDvd
  exact Nat.not_dvd_of_pos_of_lt scalar.property.1 scalar.property.2 hDvd

end Curve

end Signet
