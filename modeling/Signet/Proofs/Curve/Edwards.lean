import Mathlib.Tactic.NormNum.Prime
import Signet.Proofs.Bytes
import Signet.Proofs.Curve.Ladder
import Signet.Proofs.Prime

/-! The twisted Edwards curve. Its constant is no square while minus one is, so that the denominators of
the addition formula never vanish: sums stay on the curve, and a point of the curve is found again from
its encoding. -/
namespace Signet.Edwards

open Residue

section Field

/-- The greatest prime factor of the predecessor of `p`. -/
def fieldFactor : Nat := 74058212732561358302231226437062788676166966415465897661863160754340907

theorem prime_p : Nat.Prime p :=
  Modular.prime_of_isPrimeChain_cons [3, 31, 107, 223, 353, 4153, 57467, 132049, 1923133]
    ⟨p, 2, [fieldFactor]⟩
    [⟨fieldFactor, 2, [31757755568855353, 1923133, 132049, 57467, 353, 3]⟩,
      ⟨31757755568855353, 2, [4153, 223, 107, 31]⟩] (by norm_num) (by decide +kernel)

instance : Fact (Nat.Prime p) := ⟨prime_p⟩

theorem toZMod_one : one.toZMod = 1 := by
  rw [toZMod, one, Nat.cast_one]

theorem rootOfMinusOne_mul_self : rootOfMinusOne.toZMod * rootOfMinusOne.toZMod = -1 := by
  have h : rootOfMinusOne * rootOfMinusOne = one.neg := by decide +kernel
  rw [← toZMod_mul, h, toZMod_neg, toZMod_one]

theorem two_ne_zero : (2 : ZMod p) ≠ 0 := by
  have h : one + one ≠ one.neg + one := by decide
  rw [Ne, ← toZMod_inj, toZMod_add, toZMod_add, toZMod_neg, toZMod_one] at h
  norm_num at h
  exact h

/-- The constant of the curve is no square, by the criterion of Euler. -/
theorem mul_self_ne_d (root : ZMod p) : root * root ≠ d.toZMod := by
  intro hRoot
  have hPower : d.toZMod ^ ((p - 1) / 2) = -1 := by
    have h : d.pow ((p - 1) / 2) = one.neg := by decide +kernel
    rw [← toZMod_pow, h, toZMod_neg, toZMod_one]
  have hNonzero : root ≠ 0 := by
    rintro rfl
    rw [← hRoot, mul_zero, zero_pow (by decide)] at hPower
    exact neg_ne_zero.mpr one_ne_zero hPower.symm
  have hExponent : (p - 1) / 2 + (p - 1) / 2 = p - 1 := by decide
  rw [← hRoot, mul_pow, ← pow_add, hExponent, ZMod.pow_card_sub_one_eq_one hNonzero] at hPower
  exact two_ne_zero (by linear_combination hPower)

end Field

section Formula

variable {K : Type} [Field K] {d x₁ y₁ x₂ y₂ : K}

/-- If the product that the denominators of a sum differ from one by were one or minus one, the second
point would be on this line, or the constant would be a square. -/
theorem line_of_product_eq {i e : K} (hRoot : i * i = -1) (hSquare : ∀ root, root * root ≠ d)
    (h₁ : y₁ * y₁ - x₁ * x₁ = 1 + d * (x₁ * x₁) * (y₁ * y₁))
    (h₂ : y₂ * y₂ - x₂ * x₂ = 1 + d * (x₂ * x₂) * (y₂ * y₂))
    (hProduct : d * (x₁ * x₂) * (y₁ * y₂) = e) (hOne : e * e = 1) : i * x₂ + y₂ = 0 := by
  by_contra hLine
  have hFirst : x₁ * y₁ ≠ 0 := by
    intro hZero
    have hNone : e = 0 := by linear_combination d * x₂ * y₂ * hZero - hProduct
    rw [hNone, mul_zero] at hOne
    exact zero_ne_one hOne
  have hNonzero : x₁ * y₁ * (i * x₂ + y₂) ≠ 0 := mul_ne_zero hFirst hLine
  refine hSquare ((i * x₁ + e * y₁) / (x₁ * y₁ * (i * x₂ + y₂))) ?_
  rw [div_mul_div_comm, div_eq_iff (mul_ne_zero hNonzero hNonzero)]
  linear_combination (x₁ * x₁ - d * (x₁ * x₁) * (y₁ * y₁) * (x₂ * x₂)) * hRoot +
    (y₁ * y₁ - 1) * hOne + h₁ - d * (x₁ * x₁) * (y₁ * y₁) * h₂ -
    (d * (x₁ * x₂) * (y₁ * y₂) + e + 2 * i * (x₁ * y₁)) * hProduct

/-- The product is neither one nor minus one. -/
theorem product_mul_self_ne_one {i : K} (hTwo : (2 : K) ≠ 0) (hRoot : i * i = -1)
    (hSquare : ∀ root, root * root ≠ d)
    (h₁ : y₁ * y₁ - x₁ * x₁ = 1 + d * (x₁ * x₁) * (y₁ * y₁))
    (h₂ : y₂ * y₂ - x₂ * x₂ = 1 + d * (x₂ * x₂) * (y₂ * y₂)) :
    d * (x₁ * x₂) * (y₁ * y₂) * (d * (x₁ * x₂) * (y₁ * y₂)) ≠ 1 := by
  intro hOne
  have hLine := line_of_product_eq hRoot hSquare h₁ h₂ rfl hOne
  have hOther : i * x₂ + -y₂ = 0 :=
    line_of_product_eq hRoot hSquare h₁ (by linear_combination h₂)
      (e := -(d * (x₁ * x₂) * (y₁ * y₂))) (by ring) (by linear_combination hOne)
  have hZero : y₂ = 0 :=
    (mul_eq_zero.mp (by linear_combination hLine - hOther : 2 * y₂ = 0)).resolve_left hTwo
  rw [hZero, mul_zero, mul_zero, mul_zero] at hOne
  exact zero_ne_one hOne

/-- The formula for sums leads from points of the curve to a point of the curve. -/
theorem equation_of_sum {x y : K} (h₁ : y₁ * y₁ - x₁ * x₁ = 1 + d * (x₁ * x₁) * (y₁ * y₁))
    (h₂ : y₂ * y₂ - x₂ * x₂ = 1 + d * (x₂ * x₂) * (y₂ * y₂))
    (hPlus : 1 + d * (x₁ * x₂) * (y₁ * y₂) ≠ 0) (hMinus : 1 - d * (x₁ * x₂) * (y₁ * y₂) ≠ 0)
    (hx : x = (x₁ * y₂ + y₁ * x₂) / (1 + d * (x₁ * x₂) * (y₁ * y₂)))
    (hy : y = (y₁ * y₂ + x₁ * x₂) / (1 - d * (x₁ * x₂) * (y₁ * y₂))) :
    y * y - x * x = 1 + d * (x * x) * (y * y) := by
  have hSum : (y₁ * y₂ + x₁ * x₂) ^ 2 * (1 + d * (x₁ * x₂) * (y₁ * y₂)) ^ 2 -
      (x₁ * y₂ + y₁ * x₂) ^ 2 * (1 - d * (x₁ * x₂) * (y₁ * y₂)) ^ 2 =
        (1 + d * (x₁ * x₂) * (y₁ * y₂)) ^ 2 * (1 - d * (x₁ * x₂) * (y₁ * y₂)) ^ 2 +
          d * (x₁ * y₂ + y₁ * x₂) ^ 2 * (y₁ * y₂ + x₁ * x₂) ^ 2 := by
    linear_combination
      ((y₂ * y₂ - x₂ * x₂) * (1 + d * (x₁ * x₁) * (y₁ * y₁) * (d * (x₂ * x₂) * (y₂ * y₂))) -
        d * (x₂ * x₂) * (y₂ * y₂) * (y₁ * y₁ - x₁ * x₁ + (1 + d * (x₁ * x₁) * (y₁ * y₁)))) * h₁ +
      ((1 + d * (x₁ * x₁) * (y₁ * y₁)) *
          (1 + d * (x₁ * x₁) * (y₁ * y₁) * (d * (x₂ * x₂) * (y₂ * y₂))) -
        d * (x₁ * x₁) * (y₁ * y₁) * (y₂ * y₂ - x₂ * x₂ + (1 + d * (x₂ * x₂) * (y₂ * y₂)))) * h₂
  rw [eq_div_iff hPlus] at hx
  rw [eq_div_iff hMinus] at hy
  rw [← hx, ← hy] at hSum
  refine mul_left_cancel₀ (mul_ne_zero (pow_ne_zero 2 hPlus) (pow_ne_zero 2 hMinus)) ?_
  linear_combination hSum

end Formula

namespace Point

variable {q r : Point}

theorem onCurve_iff : q.OnCurve ↔ q.y.toZMod * q.y.toZMod - q.x.toZMod * q.x.toZMod =
    1 + d.toZMod * (q.x.toZMod * q.x.toZMod) * (q.y.toZMod * q.y.toZMod) := by
  rw [OnCurve, ← toZMod_inj]
  simp only [toZMod_sub, toZMod_add, toZMod_mul, toZMod_one]

/-- The denominators of a sum of points of the curve do not vanish. -/
theorem denominators_ne_zero (hq : q.OnCurve) (hr : r.OnCurve) :
    1 + d.toZMod * (q.x.toZMod * r.x.toZMod) * (q.y.toZMod * r.y.toZMod) ≠ 0 ∧
      1 - d.toZMod * (q.x.toZMod * r.x.toZMod) * (q.y.toZMod * r.y.toZMod) ≠ 0 := by
  rw [onCurve_iff] at hq hr
  have hProduct := product_mul_self_ne_one two_ne_zero rootOfMinusOne_mul_self mul_self_ne_d hq hr
  refine ⟨fun hZero => hProduct ?_, fun hZero => hProduct ?_⟩
  · linear_combination (d.toZMod * (q.x.toZMod * r.x.toZMod) * (q.y.toZMod * r.y.toZMod) - 1) * hZero
  · linear_combination
      -(d.toZMod * (q.x.toZMod * r.x.toZMod) * (q.y.toZMod * r.y.toZMod) + 1) * hZero

theorem toZMod_add_x (q r : Point) : (q.add r).x.toZMod =
    (q.x.toZMod * r.y.toZMod + q.y.toZMod * r.x.toZMod) /
      (1 + d.toZMod * (q.x.toZMod * r.x.toZMod) * (q.y.toZMod * r.y.toZMod)) := by
  simp only [add, toZMod_div, toZMod_add, toZMod_mul, toZMod_one]

theorem toZMod_add_y (q r : Point) : (q.add r).y.toZMod =
    (q.y.toZMod * r.y.toZMod + q.x.toZMod * r.x.toZMod) /
      (1 - d.toZMod * (q.x.toZMod * r.x.toZMod) * (q.y.toZMod * r.y.toZMod)) := by
  simp only [add, toZMod_div, toZMod_add, toZMod_sub, toZMod_mul, toZMod_one]

theorem onCurve_add (hq : q.OnCurve) (hr : r.OnCurve) : (q.add r).OnCurve := by
  obtain ⟨hPlus, hMinus⟩ := denominators_ne_zero hq hr
  rw [onCurve_iff] at hq hr
  exact onCurve_iff.mpr
    (equation_of_sum hq hr hPlus hMinus (toZMod_add_x q r) (toZMod_add_y q r))

theorem onCurve_neutral : neutral.OnCurve := by decide

theorem onCurve_base : base.OnCurve := by decide +kernel

theorem onCurve_mul (factor : Nat) (hq : q.OnCurve) : (q.mul factor).OnCurve :=
  mul_induction (P := fun r _ => r.OnCurve) onCurve_neutral onCurve_add hq factor

/-- The power that is tried as a root of a square is one up to a root of minus one. -/
theorem guess_mul_self (x : Residue p) :
    let guess := (x * x).pow ((p + 3) / 8)
    guess * guess = x * x ∨ guess * guess = (x * x).neg := by
  intro guess
  have hExponent : (p + 3) / 8 * 8 = p + 3 := by decide
  apply eq_or_eq_neg_of_mul_self_eq
  rw [← toZMod_inj]
  simp only [guess, toZMod_mul, toZMod_pow]
  calc _ = x.toZMod ^ ((p + 3) / 8 * 8) := by ring
    _ = x.toZMod * x.toZMod * (x.toZMod * x.toZMod) := by
      rw [hExponent, pow_add, ZMod.pow_card]
      ring

/-- Of a number and its negative the even one does not depend on which of the two is given. -/
theorem even_of_eq_or_eq_neg {root x : Residue p} (h : root = x ∨ root = x.neg) :
    (if root.val % 2 = 0 then root else root.neg) = if x.val % 2 = 0 then x else x.neg := by
  rcases h with rfl | rfl
  · rfl
  · rw [neg_neg]
    by_cases hZero : x.val = 0
    · have hSame : x.neg = x := Fin.ext (by rw [val_neg, if_pos hZero, hZero])
      rw [hSame, ite_self]
    · have hLess := x.isLt
      have hField : p % 2 = 1 := by decide
      have hNeg : x.neg.val % 2 = 1 - x.val % 2 := by
        rw [val_neg, if_neg hZero]
        omega
      rcases Nat.mod_two_eq_zero_or_one x.val with hEven | hOdd
      · rw [if_neg (by omega), if_pos hEven]
      · rw [if_pos (by omega), if_neg (by omega)]

/-- Of the two roots of a square the even one is found. -/
theorem evenRoot?_mul_self (x : Residue p) :
    evenRoot? (x * x) = some (if x.val % 2 = 0 then x else x.neg) := by
  rw [evenRoot?]
  have hGuess := guess_mul_self x
  generalize (x * x).pow ((p + 3) / 8) = guess at hGuess
  have hRoot : (if guess * guess = x * x then guess else guess * rootOfMinusOne) *
      (if guess * guess = x * x then guess else guess * rootOfMinusOne) = x * x := by
    split_ifs with hEqual
    · exact hEqual
    · have hNeg := congrArg toZMod (hGuess.resolve_left hEqual)
      rw [← toZMod_inj]
      simp only [toZMod_mul, toZMod_neg] at hNeg ⊢
      linear_combination guess.toZMod * guess.toZMod * rootOfMinusOne_mul_self - hNeg
  exact (if_pos hRoot).trans
    (congrArg some (even_of_eq_or_eq_neg (eq_or_eq_neg_of_mul_self_eq hRoot)))

theorem mul_self_of_evenRoot?_eq_some {root square : Residue p} (h : evenRoot? square = some root) :
    root * root = square := by
  rw [evenRoot?] at h
  generalize (if square.pow ((p + 3) / 8) * square.pow ((p + 3) / 8) = square then
    square.pow ((p + 3) / 8) else square.pow ((p + 3) / 8) * rootOfMinusOne) = tried at h
  split_ifs at h with hRoot hEven
  · rwa [← Option.some.inj h]
  · rwa [← Option.some.inj h, neg_mul_neg]

/-- The equation of the curve gives the square of the first coordinate from the second one. -/
theorem onCurve_iff_mul_self_x_eq {q : Point} :
    q.OnCurve ↔ q.x * q.x = (q.y * q.y - one).div (d * (q.y * q.y) + one) := by
  have hNonzero : d.toZMod * (q.y.toZMod * q.y.toZMod) + 1 ≠ 0 := by
    intro hZero
    have hY : q.y.toZMod ≠ 0 := by
      intro hNone
      rw [hNone, mul_zero, mul_zero, zero_add] at hZero
      exact one_ne_zero hZero
    refine mul_self_ne_d (rootOfMinusOne.toZMod / q.y.toZMod) ?_
    rw [div_mul_div_comm, div_eq_iff (mul_ne_zero hY hY), rootOfMinusOne_mul_self]
    linear_combination -hZero
  rw [onCurve_iff, ← toZMod_inj]
  simp only [toZMod_div, toZMod_sub, toZMod_add, toZMod_mul, toZMod_one]
  rw [eq_div_iff hNonzero]
  constructor <;> intro h <;> linear_combination -h

theorem val_lt (x : Residue p) : x.val < 2 ^ 255 := x.isLt.trans (by decide)

theorem ofLittleEndian_encode (q : Point) :
    Bytes.ofLittleEndian q.encode.val = q.y.val + q.x.val % 2 * 2 ^ 255 := by
  have hLess := val_lt q.y
  have hWidth : Nat.pow 256 32 = 2 ^ 255 + 2 ^ 255 := by decide
  rw [encode, Bytes.ofLittleEndian_littleEndian, Nat.pow_eq]
  refine Nat.mod_eq_of_lt ?_
  rw [← Nat.pow_eq, hWidth]
  rcases Nat.mod_two_eq_zero_or_one q.x.val with hEven | hOdd
  · rw [hEven, zero_mul]
    exact Nat.add_lt_add_of_lt_of_le hLess (Nat.zero_le _)
  · rw [hOdd, one_mul]
    exact Nat.add_lt_add_right hLess _

/-- A point of the curve is found again from its encoding. -/
theorem decode?_encode {q : Point} (h : q.OnCurve) : decode? q.encode = some q := by
  have hLess := val_lt q.y
  have hY : Residue.ofNat p (by decide) (Bytes.ofLittleEndian q.encode.val % Nat.pow 2 255) = q.y := by
    rw [ofLittleEndian_encode, Nat.pow_eq, Nat.add_mul_mod_self_right, Nat.mod_eq_of_lt hLess]
    exact Fin.ext (Nat.mod_eq_of_lt q.y.isLt)
  have hX : (if Bytes.ofLittleEndian q.encode.val < Nat.pow 2 255 then
      (if q.x.val % 2 = 0 then q.x else q.x.neg)
      else (if q.x.val % 2 = 0 then q.x else q.x.neg).neg) = q.x := by
    rw [ofLittleEndian_encode, Nat.pow_eq]
    rcases Nat.mod_two_eq_zero_or_one q.x.val with hEven | hOdd
    · rw [hEven, zero_mul, add_zero, if_pos hLess, if_pos rfl]
    · rw [hOdd, one_mul, if_neg (Nat.not_lt.mpr (Nat.le_add_left _ _)), if_neg one_ne_zero, neg_neg]
  rw [decode?]
  simp only [hY, ← onCurve_iff_mul_self_x_eq.mp h, evenRoot?_mul_self]
  exact congrArg (fun x => some (⟨x, q.y⟩ : Point)) hX

/-- What is read is a point of the curve. -/
theorem onCurve_of_decode?_eq_some {bytes : Octets 32} {q : Point} (h : decode? bytes = some q) :
    q.OnCurve := by
  rw [decode?] at h
  simp only [Option.bind_eq_bind, Option.bind_eq_some_iff, Option.some.injEq] at h
  obtain ⟨x, hX, hPoint⟩ := h
  have hSquare := mul_self_of_evenRoot?_eq_some hX
  rw [onCurve_iff_mul_self_x_eq, ← hPoint, ← hSquare]
  split_ifs
  · rfl
  · rw [neg_mul_neg]

end Point

end Signet.Edwards
