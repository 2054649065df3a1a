import Signet.Proofs.Curve.P192

/-! Points without a second coordinate of zero. Such a coordinate belongs to a root of the right side of the
equation, and a root satisfies all that holds of the indeterminate in the remainders modulo that cubic. In
particular it is its own power by the size of the field; if this fails for the indeterminate by a
remainder that has an inverse, there is no root. -/
namespace Signet

/-- The polynomial `c₀ + c₁ x + c₂ x ^ 2`, as a remainder modulo the right side of the equation. -/
structure Remainder (c : Curve) where
  (c₀ c₁ c₂ : Residue c.p)
deriving DecidableEq

namespace Remainder

variable {c : Curve}

def one (c : Curve) : Remainder c := ⟨.ofNat c.p c.a.pos 1, .ofNat c.p c.a.pos 0, .ofNat c.p c.a.pos 0⟩

def indeterminate (c : Curve) : Remainder c :=
  ⟨.ofNat c.p c.a.pos 0, .ofNat c.p c.a.pos 1, .ofNat c.p c.a.pos 0⟩

def sub (u v : Remainder c) : Remainder c := ⟨u.c₀ - v.c₀, u.c₁ - v.c₁, u.c₂ - v.c₂⟩

/-- The product, in which `x ^ 3` is replaced by `-(a * x + b)`. -/
def mul (u v : Remainder c) : Remainder c :=
  let third := u.c₁ * v.c₂ + u.c₂ * v.c₁
  let fourth := u.c₂ * v.c₂
  ⟨u.c₀ * v.c₀ - c.b * third,
    u.c₀ * v.c₁ + u.c₁ * v.c₀ - (c.a * third + c.b * fourth),
    u.c₀ * v.c₂ + u.c₁ * v.c₁ + u.c₂ * v.c₀ - c.a * fourth⟩

/-- A power with an exponent of at most `bits` binary digits. -/
def pow (bits exponent : Nat) : Remainder c → Remainder c := ladder (one c) mul bits exponent

/-- The value at a number. -/
def eval (x : ZMod c.p) (u : Remainder c) : ZMod c.p :=
  u.c₀.toZMod + u.c₁.toZMod * x + u.c₂.toZMod * x ^ 2

variable {x : ZMod c.p}

theorem eval_one : (one c).eval x = 1 := by
  simp [eval, one, Residue.toZMod_ofNat]

theorem eval_indeterminate : (indeterminate c).eval x = x := by
  simp [eval, indeterminate, Residue.toZMod_ofNat]

theorem eval_sub (u v : Remainder c) : (u.sub v).eval x = u.eval x - v.eval x := by
  simp only [eval, sub, Residue.toZMod_sub]
  ring

theorem eval_mul (hRoot : x ^ 3 + c.a.toZMod * x + c.b.toZMod = 0) (u v : Remainder c) :
    (u.mul v).eval x = u.eval x * v.eval x := by
  simp only [eval, mul, Residue.toZMod_sub, Residue.toZMod_add, Residue.toZMod_mul]
  linear_combination -(u.c₁.toZMod * v.c₂.toZMod + u.c₂.toZMod * v.c₁.toZMod +
    u.c₂.toZMod * v.c₂.toZMod * x) * hRoot

theorem eval_pow (hRoot : x ^ 3 + c.a.toZMod * x + c.b.toZMod = 0) (u : Remainder c)
    {bits exponent : Nat} (h : exponent < 2 ^ bits) :
    (u.pow bits exponent).eval x = u.eval x ^ exponent := by
  refine ladder_induction (P := fun v n => eval x v = u.eval x ^ n) ?_ ?_ ?_ h
  · rw [eval_one, pow_zero]
  · intro v w m n hv hw
    rw [eval_mul hRoot, hv, hw, pow_add]
  · rw [pow_one]

/-- The right side has no root if the power of the indeterminate by the size of the field differs from the
indeterminate by a remainder with an inverse. -/
theorem rightSide_ne_zero [Fact c.p.Prime] (bits : Nat) (inverse : Remainder c)
    (hBits : c.p < 2 ^ bits)
    (hInverse : (((indeterminate c).pow bits c.p).sub (indeterminate c)).mul inverse = one c)
    (x : Residue c.p) : (c.rightSide x).toZMod ≠ 0 := by
  intro hZero
  have hRoot : x.toZMod ^ 3 + c.a.toZMod * x.toZMod + c.b.toZMod = 0 := by
    simp only [Curve.rightSide, Residue.toZMod_add, Residue.toZMod_mul] at hZero
    linear_combination hZero
  have hOne := congrArg (eval x.toZMod) hInverse
  rw [eval_mul hRoot, eval_sub, eval_pow hRoot _ hBits, eval_indeterminate, eval_one,
    ZMod.pow_card, sub_self, zero_mul] at hOne
  exact zero_ne_one hOne

end Remainder

namespace P192

/-- The inverse of the power of the indeterminate by the size of the field, less the indeterminate. -/
def frobeniusInverse : Remainder p192 :=
  ⟨⟨0x7d7d3677298d126e9c139a383a39b775c25f4554658d2119, by decide⟩,
    ⟨0xc6aabb3906c7bad6e1a2f11f58cc6d1f359d787aef929d0f, by decide⟩,
    ⟨0x44e7df8ddd6646fc8c51e95334aff5eae0cb98a960c2fa6, by decide⟩⟩

/-- No point of P-192 has a second coordinate of zero. -/
theorem y_ne_zero {x y : Residue p192.p} (h : p192.Contains x y) : y.val ≠ 0 := by
  intro hZero
  refine Remainder.rightSide_ne_zero 192 frobeniusInverse (by decide) (by decide +kernel) x ?_
  rw [← show y * y = p192.rightSide x from h, Residue.toZMod_mul, Residue.toZMod, hZero,
    Nat.cast_zero, mul_zero]

end P192

end Signet
