import Mathlib.Algebra.BigOperators.Associated
import Mathlib.FieldTheory.Finite.Basic
import Mathlib.GroupTheory.OrderOfElement
import Signet.Proofs.Modular

/-! Primality of large numbers from a part of the factors of their predecessors. -/
namespace Signet.Modular

/-- A prime divisor of `n` is congruent to one modulo every product of primes of which a power of
`base` shows that it divides the order of a unit. -/
theorem prod_dvd_of_prime_dvd {n base p : Nat} {factors : List Nat} (pos : 0 < n) (hp : p.Prime)
    (hpn : p ∣ n) (hFactors : ∀ q ∈ factors, q.Prime) (hProduct : factors.prod ∣ n - 1)
    (hOne : pow base (n - 1) n = 1)
    (hOrder : ∀ q ∈ factors, Nat.Coprime (pow base ((n - 1) / q) n + (n - 1)) n) :
    factors.prod ∣ p - 1 := by
  have : Fact p.Prime := ⟨hp⟩
  have hCast (exponent : Nat) :
      ((pow base exponent n : Nat) : ZMod p) = (base : ZMod p) ^ exponent := by
    rw [pow_eq, ← Nat.cast_pow, ZMod.natCast_eq_natCast_iff]
    exact (Nat.mod_modEq _ n).of_dvd hpn
  have hPositive : 0 < factors.prod := List.prod_pos fun q hq => (hFactors q hq).pos
  obtain ⟨rest, hRest⟩ := hProduct
  have hPower : ((base : ZMod p) ^ rest) ^ factors.prod = 1 := by
    rw [← pow_mul, mul_comm, ← hRest, ← hCast, hOne, Nat.cast_one]
  have hOrderOf : orderOf ((base : ZMod p) ^ rest) = factors.prod := by
    refine orderOf_eq_of_pow_and_pow_div_prime hPositive hPower fun q hq hDvd hEq => ?_
    obtain ⟨q', hMem, hq'⟩ := (Prime.dvd_prod_iff hq.prime).mp hDvd
    obtain rfl : q = q' := (Nat.prime_dvd_prime_iff_eq hq (hFactors q' hMem)).mp hq'
    -- The power that is one modulo `p` makes `p` a common divisor of two coprime numbers.
    have hDivided : (n - 1) / q = rest * (factors.prod / q) := by
      rw [hRest, mul_comm factors.prod, Nat.mul_div_assoc rest hDvd]
    have hPred : ((n - 1 : Nat) : ZMod p) = -1 := by
      rw [Nat.cast_pred pos, (ZMod.natCast_eq_zero_iff n p).mpr hpn, zero_sub]
    have hSum : p ∣ pow base ((n - 1) / q) n + (n - 1) := by
      rw [← ZMod.natCast_eq_zero_iff, Nat.cast_add, hCast, hPred, hDivided, pow_mul, hEq,
        add_neg_cancel]
    exact hp.one_lt.ne' (Nat.eq_one_of_dvd_coprimes (hOrder q hMem) hSum hpn)
  rw [← hOrderOf]
  refine ZMod.orderOf_dvd_card_sub_one fun hZero => ?_
  rw [hZero, zero_pow hPositive.ne'] at hPower
  exact zero_ne_one hPower

/-- Pocklington's criterion: it suffices to know primes whose product divides `n - 1` and exceeds
the square root of `n`. -/
theorem prime_of_factors {n : Nat} (base : Nat) (factors : List Nat) (hTwo : 2 ≤ n)
    (hFactors : ∀ q ∈ factors, q.Prime) (hProduct : factors.prod ∣ n - 1)
    (hLarge : n < factors.prod ^ 2) (hOne : pow base (n - 1) n = 1)
    (hOrder : ∀ q ∈ factors, Nat.Coprime (pow base ((n - 1) / q) n + (n - 1)) n) : n.Prime := by
  by_contra hComposite
  have hPrime : n.minFac.Prime := Nat.minFac_prime (by omega)
  have hDvd := prod_dvd_of_prime_dvd (by omega) hPrime n.minFac_dvd hFactors hProduct hOne hOrder
  have hLe : factors.prod ≤ n.minFac - 1 :=
    Nat.le_of_dvd (by have := hPrime.one_lt; omega) hDvd
  have hSquare : n.minFac ^ 2 ≤ n := Nat.minFac_sq_le_self (by omega) hComposite
  have hLess : factors.prod < n.minFac := by have := hPrime.one_lt; omega
  exact absurd (hLarge.trans (Nat.pow_lt_pow_left hLess two_ne_zero)) hSquare.not_gt

/-- A number with a base of powers and with primes that divide its predecessor. -/
structure PrimeStep where
  n : Nat
  base : Nat
  factors : List Nat

/-- What the criterion asks for, apart from the factors being prime. -/
def PrimeStep.Holds (step : PrimeStep) : Prop :=
  2 ≤ step.n ∧ step.factors.prod ∣ step.n - 1 ∧ step.n < step.factors.prod ^ 2 ∧
    pow step.base (step.n - 1) step.n = 1 ∧ ∀ q ∈ step.factors,
      Nat.Coprime (pow step.base ((step.n - 1) / q) step.n + (step.n - 1)) step.n

instance (step : PrimeStep) : Decidable step.Holds := inferInstanceAs (Decidable (_ ∧ _))

/-- A chain of numbers, the greatest first, whose factors are known or are numbers of the chain. -/
def IsPrimeChain (known : List Nat) : List PrimeStep → Prop
  | [] => True
  | step :: rest => step.Holds ∧ (∀ q ∈ step.factors, q ∈ known ++ rest.map (·.n)) ∧
      IsPrimeChain known rest

instance decidableIsPrimeChain (known : List Nat) : (steps : List PrimeStep) →
    Decidable (IsPrimeChain known steps)
  | [] => .isTrue trivial
  | step :: rest =>
      have := decidableIsPrimeChain known rest
      inferInstanceAs (Decidable (step.Holds ∧ _ ∧ IsPrimeChain known rest))

/-- All numbers of a chain are prime. -/
theorem prime_of_isPrimeChain {known : List Nat} {steps : List PrimeStep}
    (hKnown : ∀ q ∈ known, q.Prime) (h : IsPrimeChain known steps) :
    ∀ q ∈ known ++ steps.map (·.n), q.Prime := by
  induction steps with
  | nil => simpa using hKnown
  | cons step rest ih =>
      obtain ⟨⟨hTwo, hProduct, hLarge, hOne, hOrder⟩, hFactors, hRest⟩ := h
      have hPrimes := ih hRest
      have hStep : step.n.Prime := prime_of_factors step.base step.factors hTwo
        (fun q hq => hPrimes q (hFactors q hq)) hProduct hLarge hOne hOrder
      intro q hq
      rw [List.map_cons, List.mem_append, List.mem_cons] at hq
      rcases hq with hq | rfl | hq
      · exact hKnown q hq
      · exact hStep
      · exact hPrimes q (List.mem_append_right _ hq)

/-- The first number of a chain is prime. -/
theorem prime_of_isPrimeChain_cons (known : List Nat) (step : PrimeStep) (rest : List PrimeStep)
    (hKnown : ∀ q ∈ known, q.Prime) (h : IsPrimeChain known (step :: rest)) : step.n.Prime :=
  prime_of_isPrimeChain hKnown h _ (List.mem_append_right _ List.mem_cons_self)

end Signet.Modular
