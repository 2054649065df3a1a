import Mathlib.AlgebraicGeometry.EllipticCurve.Affine.Point
import Signet.Proofs.Curve.Ladder
import Signet.Proofs.Modular

/-! The points of a curve as a group. Their sums and multiples follow the formulas of the group law of a
Weierstrass equation over a field, which is where associativity and all else comes from. -/
namespace Signet

namespace Curve

/-- The equation of the curve over the ring of integers modulo `p`. -/
def equation (c : Curve) : WeierstrassCurve.Affine (ZMod c.p) where
  a₁ := 0
  a₂ := 0
  a₃ := 0
  a₄ := c.a.toZMod
  a₆ := c.b.toZMod

/-- What the constants of a curve must satisfy for its base point to generate a group of prime order:
`p` and `n` are primes, the equation has no singular points, and `n` times the base point is
neutral. Scalars fit into the width at which they are written. -/
class Lawful (c : Curve) : Prop where
  prime_p : c.p.Prime
  prime_n : c.n.Prime
  discriminant_ne_zero : c.equation.Δ ≠ 0
  base_onCurve : c.base.OnCurve
  mul_base : c.base.mul c.n = .infinity
  n_le : c.n ≤ 256 ^ c.width

variable (c : Curve) [c.Lawful]

instance : Fact c.p.Prime := ⟨Lawful.prime_p⟩

instance : Fact c.n.Prime := ⟨Lawful.prime_n⟩

variable {c}

omit [c.Lawful] in
theorem contains_iff (x y : Residue c.p) :
    c.Contains x y ↔ c.equation.Equation x.toZMod y.toZMod := by
  rw [Contains, rightSide, ← Residue.toZMod_inj, WeierstrassCurve.Affine.equation_iff]
  simp only [Residue.toZMod_mul, Residue.toZMod_add, equation, zero_mul, add_zero, pow_succ,
    pow_zero, one_mul]

theorem nonsingular_of_contains {x y : Residue c.p} (h : c.Contains x y) :
    c.equation.Nonsingular x.toZMod y.toZMod :=
  (WeierstrassCurve.Affine.equation_iff_nonsingular_of_Δ_ne_zero
    Lawful.discriminant_ne_zero).mp ((contains_iff x y).mp h)

end Curve

namespace Point

open WeierstrassCurve.Affine

variable {c : Curve}

/-- The points of the curve as elements of the group; what is not on the curve counts as zero. -/
noncomputable def toGroup : Point c → c.equation.Point
  | infinity => 0
  | affine x y =>
      open Classical in
      if h : c.equation.Nonsingular x.toZMod y.toZMod then .some _ _ h else 0

@[simp] theorem toGroup_infinity : toGroup (infinity : Point c) = 0 := rfl

theorem toGroup_affine {x y : Residue c.p} (h : c.equation.Nonsingular x.toZMod y.toZMod) :
    toGroup (affine x y) = .some _ _ h := by
  simp [toGroup, h]

theorem onCurve_infinity : (infinity : Point c).OnCurve := trivial

theorem negY_eq (x y : Residue c.p) : c.equation.negY x.toZMod y.toZMod = y.neg.toZMod := by
  simp [negY, Curve.equation]

variable [c.Lawful]

/-- The line through two points, or the tangent, has the slope that the group law asks for. -/
theorem toZMod_slope {x₁ y₁ x₂ y₂ : Residue c.p} (h : ¬(x₁ = x₂ ∧ y₁ = y₂.neg)) :
    (slope x₁ y₁ x₂ y₂).toZMod =
      c.equation.slope x₁.toZMod x₂.toZMod y₁.toZMod y₂.toZMod := by
  rw [slope]
  split_ifs with hx
  · have hy : y₁.toZMod ≠ c.equation.negY x₂.toZMod y₂.toZMod := by
      rw [negY_eq, Ne, Residue.toZMod_inj]
      exact fun hEq => h ⟨hx, hEq⟩
    rw [slope_of_Y_ne (congrArg Residue.toZMod hx) hy, negY_eq]
    simp only [Residue.toZMod_div, Residue.toZMod_add, Residue.toZMod_mul, Residue.toZMod_neg,
      Curve.equation]
    ring
  · rw [slope_of_X_ne fun hEq => hx (Residue.toZMod_injective hEq)]
    simp only [Residue.toZMod_div, Residue.toZMod_sub]

/-- The first coordinate of a sum, for a line of the given slope. -/
theorem toZMod_addX (s x₁ x₂ : Residue c.p) :
    (s * s - x₁ - x₂).toZMod = c.equation.addX x₁.toZMod x₂.toZMod s.toZMod := by
  simp only [Residue.toZMod_sub, Residue.toZMod_mul, addX, Curve.equation]
  ring

/-- The second coordinate of a sum whose first one is `x`. -/
theorem toZMod_addY {s x₁ x₂ x : Residue c.p} (y₁ : Residue c.p)
    (hx : x.toZMod = c.equation.addX x₁.toZMod x₂.toZMod s.toZMod) :
    (s * (x₁ - x) - y₁).toZMod =
      c.equation.addY x₁.toZMod x₂.toZMod y₁.toZMod s.toZMod := by
  simp only [Residue.toZMod_sub, Residue.toZMod_mul, hx, addY, negAddY, negY, Curve.equation]
  ring

/-- Sums stay on the curve and are sums in the group. -/
theorem add_eq {q r : Point c} (hq : q.OnCurve) (hr : r.OnCurve) :
    (q.add r).OnCurve ∧ toGroup (q.add r) = toGroup q + toGroup r := by
  cases q with
  | infinity => exact ⟨hr, (zero_add _).symm⟩
  | affine x₁ y₁ =>
      cases r with
      | infinity => exact ⟨hq, (add_zero _).symm⟩
      | affine x₂ y₂ =>
          have h₁ := Curve.nonsingular_of_contains hq
          have h₂ := Curve.nonsingular_of_contains hr
          rw [toGroup_affine h₁, toGroup_affine h₂, add]
          split_ifs with hNeg
          · obtain ⟨hx, hy⟩ := hNeg
            refine ⟨onCurve_infinity, (Point.add_of_Y_eq (congrArg _ hx) ?_).symm⟩
            rw [negY_eq, hy]
          · have hxy : ¬(x₁.toZMod = x₂.toZMod ∧
                y₁.toZMod = c.equation.negY x₂.toZMod y₂.toZMod) := by
              rwa [negY_eq, Residue.toZMod_inj, Residue.toZMod_inj]
            have hSum := nonsingular_add h₁ h₂ hxy
            rw [← toZMod_slope hNeg] at hSum
            have hX := toZMod_addX (slope x₁ y₁ x₂ y₂) x₁ x₂
            have hY := toZMod_addY y₁ hX
            rw [← hX, ← hY] at hSum
            refine ⟨(Curve.contains_iff _ _).mpr hSum.1, ?_⟩
            rw [toGroup_affine hSum, Point.add_some hxy]
            simp only [hX, hY, toZMod_slope hNeg]

theorem onCurve_add {q r : Point c} (hq : q.OnCurve) (hr : r.OnCurve) : (q.add r).OnCurve :=
  (add_eq hq hr).1

theorem toGroup_add {q r : Point c} (hq : q.OnCurve) (hr : r.OnCurve) :
    toGroup (q.add r) = toGroup q + toGroup r :=
  (add_eq hq hr).2

omit [c.Lawful] in
theorem onCurve_neg {q : Point c} (hq : q.OnCurve) : q.neg.OnCurve := by
  cases q with
  | infinity => exact hq
  | affine x y =>
      change y.neg * y.neg = c.rightSide x
      rw [Residue.neg_mul_neg]
      exact hq

theorem toGroup_neg {q : Point c} (hq : q.OnCurve) : toGroup q.neg = -toGroup q := by
  cases q with
  | infinity => exact Point.neg_zero.symm
  | affine x y =>
      have hNeg := Curve.nonsingular_of_contains (onCurve_neg hq)
      rw [toGroup_affine (Curve.nonsingular_of_contains hq), Point.neg_some]
      simp only [negY_eq]
      exact toGroup_affine hNeg

/-- Multiples stay on the curve and are multiples in the group. -/
theorem mul_eq {q : Point c} (factor : Nat) (hq : q.OnCurve) :
    (q.mul factor).OnCurve ∧ toGroup (q.mul factor) = factor • toGroup q := by
  refine mul_induction (P := fun r n => r.OnCurve ∧ toGroup r = n • toGroup q) ?_ ?_ ?_ factor
  · exact ⟨onCurve_infinity, by rw [toGroup_infinity, zero_nsmul]⟩
  · rintro r s m n ⟨hr, hGroup⟩ ⟨hs, hGroup'⟩
    exact ⟨onCurve_add hr hs, by rw [toGroup_add hr hs, hGroup, hGroup', add_nsmul]⟩
  · exact ⟨hq, (one_nsmul _).symm⟩

theorem onCurve_mul {q : Point c} (factor : Nat) (hq : q.OnCurve) : (q.mul factor).OnCurve :=
  (mul_eq factor hq).1

theorem toGroup_mul {q : Point c} (factor : Nat) (hq : q.OnCurve) :
    toGroup (q.mul factor) = factor • toGroup q :=
  (mul_eq factor hq).2

theorem toGroup_injective {q r : Point c} (hq : q.OnCurve) (hr : r.OnCurve)
    (h : toGroup q = toGroup r) : q = r := by
  cases q with
  | infinity =>
      cases r with
      | infinity => rfl
      | affine x y =>
          rw [toGroup_affine (Curve.nonsingular_of_contains hr)] at h
          exact absurd h.symm (Point.some_ne_zero _)
  | affine x₁ y₁ =>
      rw [toGroup_affine (Curve.nonsingular_of_contains hq)] at h
      cases r with
      | infinity => exact absurd h (Point.some_ne_zero _)
      | affine x₂ y₂ =>
          rw [toGroup_affine (Curve.nonsingular_of_contains hr)] at h
          obtain ⟨hx, hy⟩ := Point.some.inj h
          rw [Residue.toZMod_injective hx, Residue.toZMod_injective hy]

end Point

namespace Curve

variable (c : Curve) [c.Lawful]

/-- The base point as an element of the group. -/
noncomputable def generator : c.equation.Point := c.base.toGroup

theorem order_nsmul_generator : c.n • c.generator = 0 := by
  rw [generator, ← Point.toGroup_mul c.n Lawful.base_onCurve, Lawful.mul_base,
    Point.toGroup_infinity]

theorem generator_ne_zero : c.generator ≠ 0 := by
  rw [generator, base, Point.toGroup_affine (nonsingular_of_contains Lawful.base_onCurve)]
  exact WeierstrassCurve.Affine.Point.some_ne_zero _

theorem addOrderOf_generator : addOrderOf c.generator = c.n :=
  addOrderOf_eq_prime c.order_nsmul_generator c.generator_ne_zero

variable {c}

/-- A point of the curve is known to be a multiple of the base point by its element of the group. -/
theorem eq_mul_base {q : Point c} {factor : Nat} (hq : q.OnCurve)
    (h : q.toGroup = factor • c.generator) : q = c.base.mul factor := by
  apply Point.toGroup_injective hq (Point.onCurve_mul _ Lawful.base_onCurve)
  rw [h, Point.toGroup_mul _ Lawful.base_onCurve, generator]

theorem onCurve_mul_base (factor : Nat) : (c.base.mul factor).OnCurve :=
  Point.onCurve_mul factor Lawful.base_onCurve

theorem toGroup_mul_base (factor : Nat) : (c.base.mul factor).toGroup = factor • c.generator :=
  Point.toGroup_mul factor Lawful.base_onCurve

/-- Multiples of the base point depend on the factor modulo the order alone. -/
theorem mul_base_mod (factor : Nat) : c.base.mul (factor % c.n) = c.base.mul factor := by
  apply eq_mul_base (onCurve_mul_base _)
  rw [toGroup_mul_base, ← nsmul_eq_mod_nsmul factor c.order_nsmul_generator]

/-- Multiples of the base point by numbers below the order are all different. -/
theorem mul_base_injective {first second : Nat} (hFirst : first < c.n) (hSecond : second < c.n)
    (h : c.base.mul first = c.base.mul second) : first = second := by
  have hGroup := congrArg Point.toGroup h
  rw [toGroup_mul_base, toGroup_mul_base] at hGroup
  rw [← c.addOrderOf_generator] at hFirst hSecond
  exact nsmul_injOn_Iio_addOrderOf hFirst hSecond hGroup

theorem mul_base_sub {factor : Nat} (h : factor ≤ c.n) :
    c.base.mul (c.n - factor) = (c.base.mul factor).neg := by
  have hOn := onCurve_mul_base (c := c) factor
  apply Point.toGroup_injective (onCurve_mul_base _) (Point.onCurve_neg hOn)
  rw [Point.toGroup_neg hOn, toGroup_mul_base, toGroup_mul_base]
  apply eq_neg_of_add_eq_zero_left
  rw [← add_nsmul, Nat.sub_add_cancel h, order_nsmul_generator]

theorem add_mul_base (first second : Nat) :
    (c.base.mul first).add (c.base.mul second) = c.base.mul (first + second) := by
  apply eq_mul_base (Point.onCurve_add (onCurve_mul_base _) (onCurve_mul_base _))
  rw [Point.toGroup_add (onCurve_mul_base _) (onCurve_mul_base _), toGroup_mul_base,
    toGroup_mul_base, add_nsmul]

theorem mul_mul_base (inner outer : Nat) :
    (c.base.mul inner).mul outer = c.base.mul (outer * inner) := by
  apply eq_mul_base (Point.onCurve_mul _ (onCurve_mul_base _))
  rw [Point.toGroup_mul _ (onCurve_mul_base _), toGroup_mul_base, smul_smul]

end Curve

end Signet
