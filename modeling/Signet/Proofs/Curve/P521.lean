import Mathlib.NumberTheory.LucasLehmer
import Mathlib.Tactic.NormNum.Prime
import Signet.Curve.Named
import Signet.Proofs.Curve.Fraction
import Signet.Proofs.Curve.P192

/-! The curve P-521 has a base point of prime order. Its field has the size of a prime of Mersenne; the
order is shown to be prime from a chain of factors of its predecessor. -/
namespace Signet

namespace P521

theorem prime_p : Nat.Prime p521.p := by
  have hMersenne := lucas_lehmer_sufficiency 521 (by norm_num) (by norm_num)
  have hEq : p521.p = mersenne 521 := by decide +kernel
  rwa [hEq]

/-- The second greatest prime of the chain. -/
def chainPrime : Nat :=
  3636410625392624440351547907325502812950802686368714273274221490761556277859337865760708490235892541081304511

/-- The greatest prime factor of the predecessor of the order. -/
def orderFactor : Nat := 2 * 3 ^ 2 * 11 * 31 * 161969 * chainPrime + 1

theorem prime_n : Nat.Prime p521.n :=
  Modular.prime_of_isPrimeChain_cons [5, 7, 19, 777241] ⟨p521.n, 2, [orderFactor]⟩
    [⟨orderFactor, 2, [chainPrime]⟩,
      ⟨chainPrime, 2, [15994076126984618329123851002118749004583184815459808099]⟩,
      ⟨15994076126984618329123851002118749004583184815459808099, 2,
        [7427946019382605513260578233234962521]⟩,
      ⟨7427946019382605513260578233234962521, 2, [4239602065187190872179]⟩,
      ⟨4239602065187190872179, 2, [60018716061994831]⟩,
      ⟨60018716061994831, 2, [777241, 19, 7, 5]⟩] (by norm_num) (by decide +kernel)

set_option maxRecDepth 4000 in
theorem mul_base : p521.base.mul p521.n = .infinity := by
  have : Fact p521.p.Prime := ⟨prime_p⟩
  exact Fraction.mul_eq_infinity (by decide) (by decide +kernel)

end P521

instance : p521.Lawful where
  prime_p := P521.prime_p
  prime_n := P521.prime_n
  discriminant_ne_zero := Curve.discriminant_ne_zero_of_not_dvd (by decide)
  base_onCurve := by
    change p521.Contains p521.baseX p521.baseY
    decide +kernel
  n_le := by decide
  mul_base := P521.mul_base

instance (c : NamedCurve) : c.curve.Lawful :=
  match c with
  | .p192 => inferInstanceAs p192.Lawful
  | .p521 => inferInstanceAs p521.Lawful

end Signet
