import Mathlib.Tactic.NormNum.Prime
import Signet.Curve.Named
import Signet.Proofs.Curve.Fraction
import Signet.Proofs.Curve.Group
import Signet.Proofs.Prime

/-! The curve P-192 has a base point of prime order. Both primes are shown to be so from a chain of
factors of their predecessors. -/
namespace Signet

namespace Curve

theorem discriminant_eq (c : Curve) :
    c.equation.Δ = -((64 * c.a.val ^ 3 + 432 * c.b.val ^ 2 : Nat) : ZMod c.p) := by
  simp only [WeierstrassCurve.Δ, WeierstrassCurve.b₂, WeierstrassCurve.b₄, WeierstrassCurve.b₆,
    WeierstrassCurve.b₈, equation, Residue.toZMod]
  push_cast
  ring

theorem discriminant_ne_zero_of_not_dvd {c : Curve}
    (h : ¬c.p ∣ 64 * c.a.val ^ 3 + 432 * c.b.val ^ 2) : c.equation.Δ ≠ 0 := by
  rw [discriminant_eq, neg_ne_zero, Ne, ZMod.natCast_eq_zero_iff]
  exact h

end Curve

namespace P192

theorem prime_p : Nat.Prime p192.p :=
  Modular.prime_of_isPrimeChain_cons [8413201, 11393611]
    ⟨p192.p, 2, [11393611, 288626509448065367648032903]⟩
    [⟨288626509448065367648032903, 2, [5933177618131140283]⟩,
      ⟨5933177618131140283, 2, [455827231987]⟩, ⟨455827231987, 2, [252396031]⟩,
      ⟨252396031, 2, [8413201]⟩] (by norm_num) (by decide +kernel)

theorem prime_n : Nat.Prime p192.n :=
  Modular.prime_of_isPrimeChain_cons [2389, 4127, 51419]
    ⟨p192.n, 2, [2389, 3433859179316188682119986911]⟩
    [⟨3433859179316188682119986911, 2, [7532705587894727]⟩,
      ⟨7532705587894727, 2, [51419, 4127]⟩] (by norm_num) (by decide +kernel)

theorem mul_base : p192.base.mul p192.n = .infinity := by
  have : Fact p192.p.Prime := ⟨prime_p⟩
  exact Fraction.mul_eq_infinity (by decide) (by decide +kernel)

end P192

instance : p192.Lawful where
  prime_p := P192.prime_p
  prime_n := P192.prime_n
  discriminant_ne_zero := Curve.discriminant_ne_zero_of_not_dvd (by decide)
  base_onCurve := by
    change p192.Contains p192.baseX p192.baseY
    decide +kernel
  n_le := by decide
  mul_base := P192.mul_base

instance : NamedCurve.p192.curve.Lawful := inferInstanceAs p192.Lawful

end Signet
