import Mathlib.GroupTheory.OrderOfElement
import Mathlib.Tactic.NormNum.Prime
import Signet.Proofs.Curve.Edwards.Group

/-! The base point of the twisted Edwards curve has prime order. Its multiple by the order is computed with
fractions, since the denominators of sums never vanish. Small order means an order that divides eight. -/
namespace Signet.Edwards

open Residue

/-- The greatest prime factor of the predecessor of the order. -/
def orderFactor : Nat := 276602624281642239937218680557139826668747

theorem prime_order : Nat.Prime order :=
  Modular.prime_of_isPrimeChain_cons [531581, 1224481] ⟨order, 2, [orderFactor]⟩
    [⟨orderFactor, 2, [19757330305831588566944191468367130476339]⟩,
      ⟨19757330305831588566944191468367130476339, 2, [172054593956031949258510691]⟩,
      ⟨172054593956031949258510691, 2, [4434155615661930479]⟩,
      ⟨4434155615661930479, 2, [1257559732178653]⟩,
      ⟨1257559732178653, 2, [1224481, 531581]⟩] (by norm_num) (by decide +kernel)

instance : Fact (Nat.Prime order) := ⟨prime_order⟩

theorem coprime_order_eight : Nat.Coprime order 8 := by decide +kernel

/-- The point with the coordinates `x / z` and `y / z`. -/
structure Projective where
  (x y z : Residue p)

namespace Projective

def ofPoint (q : Point) : Projective := ⟨q.x, q.y, one⟩

/-- The sum of two points. -/
def add (f g : Projective) : Projective :=
  let scale := f.z * g.z
  let square := scale * scale
  let product := d * (f.x * g.x) * (f.y * g.y)
  let plus := square + product
  let minus := square - product
  ⟨scale * minus * (f.x * g.y + f.y * g.x), scale * plus * (f.y * g.y + f.x * g.x), plus * minus⟩

/-- The coordinates of the point are the values of the fractions. -/
structure StandsFor (f : Projective) (q : Element) : Prop where
  z_ne_zero : f.z.toZMod ≠ 0
  x_eq : f.x.toZMod = q.point.x.toZMod * f.z.toZMod
  y_eq : f.y.toZMod = q.point.y.toZMod * f.z.toZMod

theorem standsFor_ofPoint (q : Element) : (ofPoint q.point).StandsFor q := by
  have hOne : (ofPoint q.point).z.toZMod = 1 := toZMod_one
  exact ⟨hOne ▸ one_ne_zero, by rw [hOne, mul_one]; rfl, by rw [hOne, mul_one]; rfl⟩

theorem StandsFor.add {f g : Projective} {q r : Element} (hf : f.StandsFor q) (hg : g.StandsFor r) :
    (f.add g).StandsFor (q + r) := by
  obtain ⟨hfz, hfx, hfy⟩ := hf
  obtain ⟨hgz, hgx, hgy⟩ := hg
  obtain ⟨hPlus, hMinus⟩ := Point.denominators_ne_zero q.onCurve r.onCurve
  have hx := Point.toZMod_add_x q.point r.point
  have hy := Point.toZMod_add_y q.point r.point
  rw [eq_div_iff hPlus] at hx
  rw [eq_div_iff hMinus] at hy
  have hScale := mul_ne_zero hfz hgz
  have hz : (f.add g).z.toZMod = (f.z.toZMod * g.z.toZMod) ^ 4 *
      ((1 + d.toZMod * (q.point.x.toZMod * r.point.x.toZMod) *
          (q.point.y.toZMod * r.point.y.toZMod)) *
        (1 - d.toZMod * (q.point.x.toZMod * r.point.x.toZMod) *
          (q.point.y.toZMod * r.point.y.toZMod))) := by
    simp only [Projective.add, toZMod_mul, toZMod_add, toZMod_sub, hfx, hfy, hgx, hgy]
    ring
  refine ⟨?_, ?_, ?_⟩
  · rw [hz]
    exact mul_ne_zero (pow_ne_zero 4 hScale) (mul_ne_zero hPlus hMinus)
  · rw [hz, Element.point_add]
    simp only [Projective.add, toZMod_mul, toZMod_add, toZMod_sub, hfx, hfy, hgx, hgy]
    linear_combination -(f.z.toZMod * g.z.toZMod) ^ 4 *
      (1 - d.toZMod * (q.point.x.toZMod * r.point.x.toZMod) *
        (q.point.y.toZMod * r.point.y.toZMod)) * hx
  · rw [hz, Element.point_add]
    simp only [Projective.add, toZMod_mul, toZMod_add, hfx, hfy, hgx, hgy]
    linear_combination -(f.z.toZMod * g.z.toZMod) ^ 4 *
      (1 + d.toZMod * (q.point.x.toZMod * r.point.x.toZMod) *
        (q.point.y.toZMod * r.point.y.toZMod)) * hy

theorem StandsFor.ladder {f : Projective} {q : Element} (h : f.StandsFor q) {bits factor : Nat}
    (hFactor : factor < 2 ^ bits) :
    (ladder (ofPoint .neutral) Projective.add bits factor f).StandsFor (factor • q) := by
  refine ladder_induction (P := fun g n => StandsFor g (n • q)) ?_ ?_ ?_ hFactor
  · rw [zero_nsmul]
    exact standsFor_ofPoint 0
  · intro _ _ m n hg hg'
    rw [add_nsmul]
    exact hg.add hg'
  · rwa [one_nsmul]

theorem StandsFor.eq_zero {f : Projective} {q : Element} (h : f.StandsFor q) (hx : f.x.val = 0)
    (hy : f.y = f.z) : q = 0 := by
  obtain ⟨hz, hfx, hfy⟩ := h
  apply Element.ext
  apply Point.eq_of_toZMod_eq
  · have hZero : f.x.toZMod = 0 := by rw [toZMod, hx, Nat.cast_zero]
    rw [hZero] at hfx
    rw [Element.point_zero, Point.toZMod_neutral_x]
    exact (mul_eq_zero.mp hfx.symm).resolve_right hz
  · rw [hy] at hfy
    rw [Element.point_zero, Point.toZMod_neutral_y]
    exact (mul_eq_right₀ hz).mp hfy.symm

end Projective

namespace Element

/-- The base point. -/
def base : Element := ⟨.base, Point.onCurve_base⟩

theorem order_nsmul_base : order • base = 0 := by
  let multiple := ladder (.ofPoint .neutral) Projective.add 253 order (.ofPoint .base)
  have hMultiple : multiple.StandsFor (order • base) :=
    (Projective.standsFor_ofPoint base).ladder (by decide)
  obtain ⟨hx, hy⟩ : multiple.x.val = 0 ∧ multiple.y = multiple.z := by decide +kernel
  exact hMultiple.eq_zero hx hy

theorem addOrderOf_base : addOrderOf base = order :=
  addOrderOf_eq_prime order_nsmul_base fun hZero => by
    have hPoint : Point.base = Point.neutral := congrArg point hZero
    exact absurd hPoint (by decide)

theorem nsmul_base_eq_zero_iff {factor : Nat} : factor • base = 0 ↔ order ∣ factor := by
  rw [← addOrderOf_dvd_iff_nsmul_eq_zero, addOrderOf_base]

/-- Multiples of the base point by numbers below the order are all different. -/
theorem nsmul_base_injective {first second : Nat} (hFirst : first < order) (hSecond : second < order)
    (h : first • base = second • base) : first = second := by
  rw [nsmul_eq_nsmul_iff_modEq, addOrderOf_base] at h
  exact h.eq_of_lt_of_lt hFirst hSecond

theorem mod_nsmul_base (factor : Nat) : (factor % order) • base = factor • base := by
  rw [← nsmul_eq_mod_nsmul factor order_nsmul_base]

/-- The order of the point divides eight. -/
def IsSmallOrder (q : Element) : Prop := addOrderOf q ∣ 8

theorem isSmall_iff {q : Element} : q.point.isSmall = true ↔ q.IsSmallOrder := by
  rw [Point.isSmall, point_mul, beq_iff_eq, IsSmallOrder, addOrderOf_dvd_iff_nsmul_eq_zero,
    Element.ext_iff, point_zero]

/-- No multiple of the base point is of small order, apart from the neutral one. -/
theorem isSmallOrder_nsmul_base_iff {factor : Nat} :
    (factor • base).IsSmallOrder ↔ order ∣ factor := by
  rw [IsSmallOrder, addOrderOf_dvd_iff_nsmul_eq_zero, smul_smul, nsmul_base_eq_zero_iff,
    coprime_order_eight.dvd_mul_left]

end Element

end Signet.Edwards
