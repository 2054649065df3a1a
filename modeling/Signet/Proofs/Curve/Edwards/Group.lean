import Mathlib.Algebra.Group.Basic
import Signet.Proofs.Curve.Edwards

/-! The points of the twisted Edwards curve form a commutative group, in which multiples are the multiples
that are computed bit by bit. Associativity is shown for the first coordinates of sums; it holds of the
second ones as well, since adding a certain point of order four exchanges the coordinates. -/
namespace Signet.Edwards

open Residue

section Formula

variable {K : Type} [Field K] {d x₁ y₁ x₂ y₂ x₃ y₃ x₁₂ y₁₂ x₂₃ y₂₃ : K}

/-- The first coordinates of the two sums of three points are equal as fractions. The difference of the
cross products is a combination of the three equations, in which the first and the third point have the
same coefficient up to its sign. -/
theorem cross_products_eq (h₁ : y₁ * y₁ - x₁ * x₁ = 1 + d * (x₁ * x₁) * (y₁ * y₁))
    (h₂ : y₂ * y₂ - x₂ * x₂ = 1 + d * (x₂ * x₂) * (y₂ * y₂))
    (h₃ : y₃ * y₃ - x₃ * x₃ = 1 + d * (x₃ * x₃) * (y₃ * y₃)) :
    ((x₁ * y₂ + y₁ * x₂) * (1 - d * (x₁ * x₂) * (y₁ * y₂)) * y₃ +
        (y₁ * y₂ + x₁ * x₂) * (1 + d * (x₁ * x₂) * (y₁ * y₂)) * x₃) *
      ((1 + d * (x₂ * x₃) * (y₂ * y₃)) * (1 - d * (x₂ * x₃) * (y₂ * y₃)) +
        d * (x₁ * (x₂ * y₃ + y₂ * x₃)) * (y₁ * (y₂ * y₃ + x₂ * x₃))) =
    (x₁ * ((y₂ * y₃ + x₂ * x₃) * (1 + d * (x₂ * x₃) * (y₂ * y₃))) +
        y₁ * ((x₂ * y₃ + y₂ * x₃) * (1 - d * (x₂ * x₃) * (y₂ * y₃)))) *
      ((1 + d * (x₁ * x₂) * (y₁ * y₂)) * (1 - d * (x₁ * x₂) * (y₁ * y₂)) +
        d * ((x₁ * y₂ + y₁ * x₂) * x₃) * ((y₁ * y₂ + x₁ * x₂) * y₃)) := by
  linear_combination
    d * x₂ * y₂ *
      ((x₁ * (x₂ * y₂ ^ 2 * y₃ * (y₃ ^ 2 - 1) - x₂ ^ 2 * y₂ * x₃ * (x₃ ^ 2 + 1) +
            y₂ ^ 3 * x₃ * y₃ ^ 2 * (1 - d * x₂ ^ 2) - x₂ ^ 3 * x₃ ^ 2 * y₃ * (1 + d * y₂ ^ 2)) +
          y₁ * (x₂ ^ 2 * y₂ * y₃ * (y₃ ^ 2 - 1) - x₂ * y₂ ^ 2 * x₃ * (x₃ ^ 2 + 1) +
            x₂ ^ 3 * x₃ * y₃ ^ 2 * (1 + d * y₂ ^ 2) - y₂ ^ 3 * x₃ ^ 2 * y₃ * (1 - d * x₂ ^ 2))) * h₁ +
        (x₂ * (x₁ * x₃ ^ 2 * y₃ * (x₁ ^ 2 + 1) - x₁ ^ 2 * y₁ * x₃ * (x₃ ^ 2 + 1) -
            x₁ * y₁ ^ 2 * y₃ * (y₃ ^ 2 - 1) + y₁ * x₃ * y₃ ^ 2 * (y₁ ^ 2 - 1)) +
          y₂ * (x₁ * x₃ * y₃ ^ 2 * (x₁ ^ 2 + 1) - x₁ ^ 2 * y₁ * y₃ * (y₃ ^ 2 - 1) -
            x₁ * y₁ ^ 2 * x₃ * (x₃ ^ 2 + 1) + y₁ * x₃ ^ 2 * y₃ * (y₁ ^ 2 - 1))) * h₂ -
        (x₃ * (x₂ * y₂ ^ 2 * y₁ * (y₁ ^ 2 - 1) - x₂ ^ 2 * y₂ * x₁ * (x₁ ^ 2 + 1) +
            y₂ ^ 3 * x₁ * y₁ ^ 2 * (1 - d * x₂ ^ 2) - x₂ ^ 3 * x₁ ^ 2 * y₁ * (1 + d * y₂ ^ 2)) +
          y₃ * (x₂ ^ 2 * y₂ * y₁ * (y₁ ^ 2 - 1) - x₂ * y₂ ^ 2 * x₁ * (x₁ ^ 2 + 1) +
            x₂ ^ 3 * x₁ * y₁ ^ 2 * (1 + d * y₂ ^ 2) - y₂ ^ 3 * x₁ ^ 2 * y₁ * (1 - d * x₂ ^ 2))) * h₃)

/-- The same for the points that the formula for sums gives. -/
theorem cross_products_of_sums_eq (h₁ : y₁ * y₁ - x₁ * x₁ = 1 + d * (x₁ * x₁) * (y₁ * y₁))
    (h₂ : y₂ * y₂ - x₂ * x₂ = 1 + d * (x₂ * x₂) * (y₂ * y₂))
    (h₃ : y₃ * y₃ - x₃ * x₃ = 1 + d * (x₃ * x₃) * (y₃ * y₃))
    (hDenominators₁₂ : 1 + d * (x₁ * x₂) * (y₁ * y₂) ≠ 0 ∧ 1 - d * (x₁ * x₂) * (y₁ * y₂) ≠ 0)
    (hDenominators₂₃ : 1 + d * (x₂ * x₃) * (y₂ * y₃) ≠ 0 ∧ 1 - d * (x₂ * x₃) * (y₂ * y₃) ≠ 0)
    (hx₁₂ : x₁₂ = (x₁ * y₂ + y₁ * x₂) / (1 + d * (x₁ * x₂) * (y₁ * y₂)))
    (hy₁₂ : y₁₂ = (y₁ * y₂ + x₁ * x₂) / (1 - d * (x₁ * x₂) * (y₁ * y₂)))
    (hx₂₃ : x₂₃ = (x₂ * y₃ + y₂ * x₃) / (1 + d * (x₂ * x₃) * (y₂ * y₃)))
    (hy₂₃ : y₂₃ = (y₂ * y₃ + x₂ * x₃) / (1 - d * (x₂ * x₃) * (y₂ * y₃))) :
    (x₁₂ * y₃ + y₁₂ * x₃) * (1 + d * (x₁ * x₂₃) * (y₁ * y₂₃)) =
      (x₁ * y₂₃ + y₁ * x₂₃) * (1 + d * (x₁₂ * x₃) * (y₁₂ * y₃)) := by
  obtain ⟨hPlus₁₂, hMinus₁₂⟩ := hDenominators₁₂
  obtain ⟨hPlus₂₃, hMinus₂₃⟩ := hDenominators₂₃
  have hCross := cross_products_eq h₁ h₂ h₃
  rw [eq_div_iff hPlus₁₂] at hx₁₂
  rw [eq_div_iff hMinus₁₂] at hy₁₂
  rw [eq_div_iff hPlus₂₃] at hx₂₃
  rw [eq_div_iff hMinus₂₃] at hy₂₃
  rw [← hx₁₂, ← hy₁₂, ← hx₂₃, ← hy₂₃] at hCross
  refine mul_left_cancel₀
    (mul_ne_zero (mul_ne_zero hPlus₁₂ hMinus₁₂) (mul_ne_zero hPlus₂₃ hMinus₂₃)) ?_
  linear_combination hCross

end Formula

namespace Point

variable {q r s : Point}

theorem eq_of_toZMod_eq (hx : q.x.toZMod = r.x.toZMod) (hy : q.y.toZMod = r.y.toZMod) : q = r := by
  obtain ⟨x, y⟩ := q
  obtain ⟨x', y'⟩ := r
  rw [mk.injEq, ← toZMod_inj, ← toZMod_inj]
  exact ⟨hx, hy⟩

@[simp] theorem toZMod_neutral_x : neutral.x.toZMod = 0 := by
  rw [toZMod, neutral, Nat.cast_zero]

@[simp] theorem toZMod_neutral_y : neutral.y.toZMod = 1 := toZMod_one

theorem add_comm (q r : Point) : q.add r = r.add q := by
  apply eq_of_toZMod_eq
  · rw [toZMod_add_x, toZMod_add_x]
    congr 1 <;> ring
  · rw [toZMod_add_y, toZMod_add_y]
    congr 1 <;> ring

theorem neutral_add (q : Point) : neutral.add q = q := by
  apply eq_of_toZMod_eq
  · simp [toZMod_add_x]
  · simp [toZMod_add_y]

theorem onCurve_neg (hq : q.OnCurve) : q.neg.OnCurve := by
  rw [onCurve_iff] at hq ⊢
  simp only [neg, toZMod_neg]
  linear_combination hq

theorem neg_add_self (hq : q.OnCurve) : q.neg.add q = neutral := by
  have hMinus := (denominators_ne_zero (onCurve_neg hq) hq).2
  apply eq_of_toZMod_eq
  · rw [toZMod_add_x, toZMod_neutral_x, neg, toZMod_neg]
    exact div_eq_zero_iff.mpr (.inl (by ring))
  · rw [toZMod_add_y, toZMod_neutral_y, div_eq_one_iff_eq hMinus]
    rw [onCurve_iff] at hq
    simp only [neg, toZMod_neg]
    linear_combination hq

/-- The sum with the point whose coordinates are the root of minus one and zero. -/
def turn (q : Point) : Point := ⟨rootOfMinusOne * q.y, rootOfMinusOne * q.x⟩

theorem onCurve_turn (hq : q.OnCurve) : q.turn.OnCurve := by
  rw [onCurve_iff] at hq ⊢
  simp only [turn, toZMod_mul]
  linear_combination hq + (q.x.toZMod * q.x.toZMod - q.y.toZMod * q.y.toZMod -
    d.toZMod * (q.x.toZMod * q.x.toZMod) * (q.y.toZMod * q.y.toZMod) *
      (rootOfMinusOne.toZMod * rootOfMinusOne.toZMod - 1)) * rootOfMinusOne_mul_self

theorem add_turn (q r : Point) : q.add r.turn = (q.add r).turn := by
  have hProduct : d.toZMod * (q.x.toZMod * (rootOfMinusOne.toZMod * r.y.toZMod)) *
      (q.y.toZMod * (rootOfMinusOne.toZMod * r.x.toZMod)) =
        -(d.toZMod * (q.x.toZMod * r.x.toZMod) * (q.y.toZMod * r.y.toZMod)) := by
    linear_combination d.toZMod * (q.x.toZMod * r.x.toZMod) * (q.y.toZMod * r.y.toZMod) *
      rootOfMinusOne_mul_self
  apply eq_of_toZMod_eq
  · rw [toZMod_add_x, turn, turn, toZMod_mul, toZMod_mul, toZMod_mul, toZMod_add_y, hProduct,
      ← sub_eq_add_neg, ← mul_div_assoc]
    congr 1
    ring
  · rw [toZMod_add_y, turn, turn, toZMod_mul, toZMod_mul, toZMod_mul, toZMod_add_x, hProduct,
      sub_neg_eq_add, ← mul_div_assoc]
    congr 1
    ring

theorem add_assoc_x (hq : q.OnCurve) (hr : r.OnCurve) (hs : s.OnCurve) :
    ((q.add r).add s).x = (q.add (r.add s)).x := by
  have hLeft := (denominators_ne_zero (onCurve_add hq hr) hs).1
  have hRight := (denominators_ne_zero hq (onCurve_add hr hs)).1
  rw [← toZMod_inj, toZMod_add_x (q.add r) s, toZMod_add_x q (r.add s), div_eq_div_iff hLeft hRight]
  exact cross_products_of_sums_eq (onCurve_iff.mp hq) (onCurve_iff.mp hr) (onCurve_iff.mp hs)
    (denominators_ne_zero hq hr) (denominators_ne_zero hr hs) (toZMod_add_x q r) (toZMod_add_y q r)
    (toZMod_add_x r s) (toZMod_add_y r s)

theorem add_assoc (hq : q.OnCurve) (hr : r.OnCurve) (hs : s.OnCurve) :
    (q.add r).add s = q.add (r.add s) := by
  apply eq_of_toZMod_eq
  · rw [add_assoc_x hq hr hs]
  · -- The second coordinates, up to a factor, are the first ones of the sums with the turned point.
    have hTurned := congrArg toZMod (add_assoc_x hq hr (onCurve_turn hs))
    rw [add_turn, add_turn, add_turn, turn, turn, toZMod_mul, toZMod_mul] at hTurned
    refine mul_left_cancel₀ (fun hZero => ?_) hTurned
    have hRoot := rootOfMinusOne_mul_self
    rw [hZero, mul_zero] at hRoot
    exact neg_ne_zero.mpr one_ne_zero hRoot.symm

end Point

/-- A point of the curve, as an element of the group. -/
@[ext]
structure Element where
  point : Point
  onCurve : point.OnCurve

namespace Element

instance : Zero Element := ⟨⟨.neutral, Point.onCurve_neutral⟩⟩

instance : Neg Element := ⟨fun q => ⟨q.point.neg, Point.onCurve_neg q.onCurve⟩⟩

instance : Add Element := ⟨fun q r => ⟨q.point.add r.point, Point.onCurve_add q.onCurve r.onCurve⟩⟩

@[simp] theorem point_zero : (0 : Element).point = .neutral := rfl

@[simp] theorem point_add (q r : Element) : (q + r).point = q.point.add r.point := rfl

instance : AddCommGroup Element where
  add_assoc q r s := Element.ext (Point.add_assoc q.onCurve r.onCurve s.onCurve)
  zero_add q := Element.ext (Point.neutral_add q.point)
  add_zero q := Element.ext ((Point.add_comm _ _).trans (Point.neutral_add q.point))
  neg_add_cancel q := Element.ext (Point.neg_add_self q.onCurve)
  add_comm q r := Element.ext (Point.add_comm q.point r.point)
  nsmul := nsmulRec
  zsmul := zsmulRec

/-- The multiples that are computed are those of the group. -/
theorem point_mul (factor : Nat) (q : Element) : q.point.mul factor = (factor • q).point := by
  refine Point.mul_induction (P := fun r n => r = (n • q).point) ?_ ?_ ?_ factor
  · rw [zero_nsmul, point_zero]
  · rintro _ _ m n rfl rfl
    rw [add_nsmul, point_add]
  · rw [one_nsmul]

end Element

end Signet.Edwards
