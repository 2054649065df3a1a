/-! Numbers of the 64-bit binary floating-point format, without infinities. -/
namespace Signet

/-- The number `mantissa * 2 ^ exponent` with a sign. The mantissa is below `2 ^ 53`, and it is at
least `2 ^ 52` unless the exponent is the least one. -/
structure Binary64 where
  negative : Bool
  mantissa : Nat
  exponent : Int
deriving DecidableEq, Repr

namespace Binary64

/-- The exponent of the numbers nearest to zero. -/
def leastExponent : Int := -1074

def zero : Binary64 := ⟨false, 0, leastExponent⟩

/-- A quotient rounded to the nearest integer; a tie goes to the even neighbour. -/
def roundQuotient (num den : Nat) : Nat :=
  let quotient := num / den
  let rest := num % den
  if den < 2 * rest ∨ (den = 2 * rest ∧ quotient % 2 = 1) then quotient + 1 else quotient

/-- `num / den * 2 ^ shift` as a fraction. -/
def shiftFraction (num den : Nat) (shift : Int) : Nat × Nat :=
  if shift < 0 then (num, den * Nat.pow 2 shift.natAbs) else (num * Nat.pow 2 shift.natAbs, den)

/-- The floor of the binary logarithm of a positive quotient. -/
def quotientLog2 (num den : Nat) : Int :=
  let guess : Int := (num.log2 : Int) - den.log2
  let (scaled, unit) := shiftFraction num den (-guess)
  if scaled < unit then guess - 1 else guess

/-- The number nearest to a quotient; none if that is beyond the largest one. -/
def ofQuotient? (negative : Bool) (num den : Nat) : Option Binary64 :=
  if num = 0 then some { zero with negative }
  else
    let exponent := max (quotientLog2 num den - 52) leastExponent
    let (scaled, unit) := shiftFraction num den (-exponent)
    let mantissa := roundQuotient scaled unit
    let (mantissa, exponent) :=
      if mantissa = Nat.pow 2 53 then (Nat.pow 2 52, exponent + 1) else (mantissa, exponent)
    if exponent ≤ 971 then some ⟨negative, mantissa, exponent⟩ else none

/-- The number nearest to the value of `x` times a quotient. -/
def scale? (x : Binary64) (num den : Nat) : Option Binary64 :=
  let (num, den) := shiftFraction (x.mantissa * num) den x.exponent
  ofQuotient? x.negative num den

/-- The product of two numbers, rounded once. -/
def mul? (x y : Binary64) : Option Binary64 :=
  let (num, den) := shiftFraction y.mantissa 1 y.exponent
  x.scale? num den

/-- The quotient of two numbers, rounded once. -/
def div? (x y : Binary64) : Option Binary64 :=
  let (num, den) := shiftFraction y.mantissa 1 y.exponent
  x.scale? den num

end Binary64

end Signet
