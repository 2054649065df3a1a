import Mathlib.Tactic.FieldSimp
import Mathlib.Tactic.LinearCombination
import Signet.Curve.Weierstrass
import Signet.Proofs.Modular

/-! Multiples of points without inverses. Coordinates are kept as fractions whose denominators are powers
of one number, so that a multiple of a point of a large curve can be computed with few divisions. -/
namespace Signet

/-- The point with the coordinates `x / z ^ 2` and `y / z ^ 3`. -/
structure Fraction (c : Curve) where
  (x y z : Residue c.p)

namespace Fraction

variable {c : Curve}

/-- The coordinates of the point are the values of the fractions, as far as these have values. A
denominator that has become zero stays zero, so it is enough to look at the last one. -/
def StandsFor (f : Fraction c) (q : Point c) : Prop :=
  f.z.toZMod ≠ 0 → ∃ x y, q = .affine x y ∧
    f.x.toZMod = x.toZMod * f.z.toZMod ^ 2 ∧ f.y.toZMod = y.toZMod * f.z.toZMod ^ 3

def ofAffine (x y : Residue c.p) : Fraction c := ⟨x, y, .ofNat c.p x.pos 1⟩

theorem standsFor_ofAffine (x y : Residue c.p) : (ofAffine x y).StandsFor (.affine x y) := by
  intro _
  refine ⟨x, y, rfl, ?_, ?_⟩ <;>
    simp only [ofAffine, Residue.toZMod_ofNat, Nat.cast_one, one_pow, mul_one]

/-- The double of a point. -/
def double (f : Fraction c) : Fraction c :=
  let square := f.y * f.y
  let product := f.x * square
  let tangent := f.x * f.x + f.x * f.x + f.x * f.x + c.a * (f.z * f.z) * (f.z * f.z)
  let x := tangent * tangent - (product + product + product + product) -
    (product + product + product + product)
  let power := square * square + square * square
  ⟨x, tangent * (product + product + product + product - x) - (power + power + power + power),
    f.y * f.z + f.y * f.z⟩

/-- The sum of two points with different first coordinates. -/
def add (f g : Fraction c) : Fraction c :=
  let left := f.x * (g.z * g.z)
  let run := g.x * (f.z * f.z) - left
  let height := f.y * (g.z * g.z * g.z)
  let rise := g.y * (f.z * f.z * f.z) - height
  let area := left * (run * run)
  let x := rise * rise - run * run * run - (area + area)
  ⟨x, rise * (area - x) - height * (run * run * run), run * (f.z * g.z)⟩

variable [Fact c.p.Prime]

theorem StandsFor.double {f : Fraction c} {q : Point c} (h : f.StandsFor q) :
    f.double.StandsFor (q.add q) := by
  intro hz
  have hDenominator : f.double.z.toZMod = 2 * f.y.toZMod * f.z.toZMod := by
    simp only [Fraction.double, Residue.toZMod_add, Residue.toZMod_mul]
    ring
  rw [hDenominator] at hz ⊢
  have hf : f.z.toZMod ≠ 0 := right_ne_zero_of_mul hz
  obtain ⟨x, y, rfl, hx, hy⟩ := h hf
  have hTwo : (2 : ZMod c.p) ≠ 0 := left_ne_zero_of_mul (left_ne_zero_of_mul hz)
  have hY : y.toZMod ≠ 0 := by
    intro hZero
    rw [hy, hZero, zero_mul, mul_zero, zero_mul] at hz
    exact hz rfl
  have hSum : y.toZMod + y.toZMod ≠ 0 := by
    rw [← two_mul]
    exact mul_ne_zero hTwo hY
  have hNeg : ¬(x = x ∧ y = y.neg) := by
    rintro ⟨-, hEq⟩
    have hEq := congrArg Residue.toZMod hEq
    rw [Residue.toZMod_neg] at hEq
    exact hSum (by linear_combination hEq)
  -- Two may not be cancelled from a fraction, so the constant of the curve is expressed by the slope.
  have hSlope : c.a.toZMod = (Point.slope x y x y).toZMod * (y.toZMod + y.toZMod) -
      3 * x.toZMod ^ 2 := by
    rw [Point.slope, if_pos rfl, Residue.toZMod_div, Residue.toZMod_add y, div_mul_cancel₀ _ hSum]
    simp only [Residue.toZMod_add, Residue.toZMod_mul]
    ring
  rw [Point.add, if_neg hNeg]
  refine ⟨_, _, rfl, ?_, ?_⟩ <;>
    simp only [Fraction.double, Residue.toZMod_add, Residue.toZMod_sub, Residue.toZMod_mul, hx, hy,
      hSlope] <;> ring

theorem StandsFor.add {f g : Fraction c} {q r : Point c} (hf : f.StandsFor q) (hg : g.StandsFor r) :
    (f.add g).StandsFor (q.add r) := by
  intro hz
  have hDenominator : (f.add g).z.toZMod = (g.x.toZMod * f.z.toZMod ^ 2 -
      f.x.toZMod * g.z.toZMod ^ 2) * (f.z.toZMod * g.z.toZMod) := by
    simp only [Fraction.add, Residue.toZMod_sub, Residue.toZMod_mul]
    ring
  rw [hDenominator] at hz ⊢
  have hfz : f.z.toZMod ≠ 0 := left_ne_zero_of_mul (right_ne_zero_of_mul hz)
  have hgz : g.z.toZMod ≠ 0 := right_ne_zero_of_mul (right_ne_zero_of_mul hz)
  obtain ⟨x₁, y₁, rfl, hx₁, hy₁⟩ := hf hfz
  obtain ⟨x₂, y₂, rfl, hx₂, hy₂⟩ := hg hgz
  have hRun : x₁.toZMod - x₂.toZMod ≠ 0 := by
    intro hZero
    apply left_ne_zero_of_mul hz
    rw [hx₁, hx₂]
    linear_combination -f.z.toZMod ^ 2 * g.z.toZMod ^ 2 * hZero
  have hne : x₁ ≠ x₂ := by
    rintro rfl
    exact hRun (sub_self _)
  rw [Point.add, if_neg fun hNeg => hne hNeg.1]
  refine ⟨_, _, rfl, ?_, ?_⟩ <;>
    simp only [Fraction.add, Point.slope, if_neg hne, Residue.toZMod_add, Residue.toZMod_sub,
      Residue.toZMod_mul, Residue.toZMod_div, hx₁, hy₁, hx₂, hy₂] <;>
    field_simp <;> ring

/-- A multiple of a point by a number of at most `bits` binary digits; none is the point at infinity. -/
def mulBits : (bits factor : Nat) → Fraction c → Option (Fraction c)
  | 0, _, _ => none
  | bits + 1, factor, f =>
      let rest := mulBits bits (factor / 2) f.double
      if factor % 2 = 1 then some (rest.elim f f.add) else rest

/-- The multiple that is computed with fractions stands for the multiple of the point. -/
def IsMultiple (result : Option (Fraction c)) (q : Point c) : Prop :=
  result.elim (q = .infinity) (·.StandsFor q)

theorem isMultiple_mulBits (bits factor : Nat) {f : Fraction c} {q : Point c} (h : f.StandsFor q) :
    IsMultiple (mulBits bits factor f) (Point.mulBits bits factor q) := by
  induction bits generalizing factor f q with
  | zero => exact rfl
  | succ bits ih =>
      have hRest := ih (factor / 2) h.double
      rw [mulBits, Point.mulBits]
      generalize Point.mulBits bits (factor / 2) (q.add q) = rest at hRest ⊢
      split_ifs with hOdd
      · cases hResult : mulBits bits (factor / 2) f.double with
        | none =>
            rw [hResult] at hRest
            obtain rfl : rest = .infinity := hRest
            cases q <;> exact h
        | some result =>
            rw [hResult] at hRest
            exact h.add hRest
      · exact hRest

/-- Whether the fractions have the given values. -/
def hasValues (f : Fraction c) (x y : Residue c.p) : Bool :=
  f.z.val != 0 && f.x == x * (f.z * f.z) && f.y == y * (f.z * f.z * f.z)

theorem StandsFor.eq_affine {f : Fraction c} {q : Point c} {x y : Residue c.p} (h : f.StandsFor q)
    (hValues : f.hasValues x y = true) : q = .affine x y := by
  simp only [hasValues, Bool.and_eq_true, bne_iff_ne, beq_iff_eq] at hValues
  obtain ⟨⟨hz, hx⟩, hy⟩ := hValues
  have hDenominator : f.z.toZMod ≠ 0 := by
    rwa [← ZMod.val_ne_zero, Residue.val_toZMod]
  obtain ⟨x', y', rfl, hx', hy'⟩ := h hDenominator
  rw [hx, Residue.toZMod_mul, Residue.toZMod_mul, ← pow_two] at hx'
  rw [hy, Residue.toZMod_mul, Residue.toZMod_mul, Residue.toZMod_mul, ← pow_two, ← pow_succ] at hy'
  rw [Residue.toZMod_injective (mul_right_cancel₀ (pow_ne_zero _ hDenominator) hx'),
    Residue.toZMod_injective (mul_right_cancel₀ (pow_ne_zero _ hDenominator) hy')]

/-- A point has an odd order if its multiple by one less, which is computed with fractions, is its
negative. -/
theorem mul_eq_infinity {x y : Residue c.p} {order : Nat} (hOdd : order % 2 = 1)
    (hLast : (mulBits order.log2 (order / 2) (ofAffine x y).double).any (·.hasValues x y.neg) = true) :
    (Point.affine x y).mul order = .infinity := by
  have hRest := isMultiple_mulBits order.log2 (order / 2) (standsFor_ofAffine x y).double
  cases hResult : mulBits order.log2 (order / 2) (ofAffine x y).double with
  | none =>
      rw [hResult] at hLast
      cases hLast
  | some f =>
      rw [hResult] at hLast hRest
      have hAffine : Point.mulBits order.log2 (order / 2) ((Point.affine x y).add (.affine x y)) =
          .affine x y.neg := StandsFor.eq_affine hRest hLast
      rw [Point.mul, Point.mulBits, if_pos hOdd, hAffine, Point.add,
        if_pos ⟨rfl, y.neg_neg.symm⟩]

end Fraction

end Signet
