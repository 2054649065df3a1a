import Signet.Number.Binary64

/-! The shortest decimal text that reads back as a given binary number. -/
namespace Signet

/-- The number `digits * 10 ^ exponent`. -/
structure Decimal where
  digits : Nat
  exponent : Int
deriving DecidableEq, Repr

namespace Decimal

/-- The same number without trailing zeros among its digits; `fuel` bounds their count. -/
def trim : (fuel : Nat) → Decimal → Decimal
  | 0, d => d
  | fuel + 1, d =>
      if d.digits ≠ 0 ∧ d.digits % 10 = 0 then trim fuel ⟨d.digits / 10, d.exponent + 1⟩ else d

end Decimal

namespace Binary64

/-- `count` quarters of the last place of `x`, measured in units of `10 ^ power`, as a fraction. -/
def quarters (x : Binary64) (count : Nat) (power : Int) : Nat × Nat :=
  let (num, den) := shiftFraction count 1 (x.exponent - 2)
  if power < 0 then (num * Nat.pow 10 power.natAbs, den) else (num, den * Nat.pow 10 power.natAbs)

/-- Whether `digits * 10 ^ power` rounds to `x`. The ends of the interval belong to it exactly when
the mantissa is even. -/
def attracts (x : Binary64) (digits : Nat) (power : Int) : Bool :=
  let below := if x.mantissa = Nat.pow 2 52 ∧ leastExponent < x.exponent then 1 else 2
  let (low, lowUnit) := x.quarters (4 * x.mantissa - below) power
  let (high, highUnit) := x.quarters (4 * x.mantissa + 2) power
  if x.mantissa % 2 = 0 then low ≤ digits * lowUnit && digits * highUnit ≤ high
  else low < digits * lowUnit && digits * highUnit < high

/-- The neighbour of `x` on the grid of multiples of `10 ^ power` that rounds to `x`, the nearer one
if both do; a tie goes to the even neighbour. -/
def onGrid? (x : Binary64) (power : Int) : Option Decimal :=
  let (num, den) := x.quarters (4 * x.mantissa) power
  let lower := num / den
  let lowerFits := x.attracts lower power
  let upperFits := x.attracts (lower + 1) power
  if lowerFits && upperFits then some ⟨roundQuotient num den, power⟩
  else if lowerFits then some ⟨lower, power⟩
  else if upperFits then some ⟨lower + 1, power⟩
  else none

/-- The largest power of ten that is at most `x`, sought downwards from `power`. -/
def leadingPower (x : Binary64) : (fuel : Nat) → (power : Int) → Int
  | 0, power => power
  | fuel + 1, power =>
      let (num, den) := x.quarters (4 * x.mantissa) power
      if den ≤ num then power else leadingPower x fuel (power - 1)

/-- The first grid that has a neighbour of `x` rounding to `x`, from coarse to fine. -/
def firstOnGrid (x : Binary64) : (count : Nat) → (power : Int) → Decimal
  | 0, power => ⟨0, power⟩
  | count + 1, power =>
      match x.onGrid? power with
      | some decimal => decimal
      | none => firstOnGrid x count (power - 1)

/-- The decimal with the fewest digits that rounds to `x`. -/
def shortest (x : Binary64) : Decimal :=
  if x.mantissa = 0 then ⟨0, 0⟩
  else (x.firstOnGrid 18 (x.leadingPower 640 309)).trim 20

/-- The decimal text of `x`: positional from `10 ^ -5` to below `10 ^ 16`, with `.0` on integers;
elsewhere one digit before the point and a signed exponent. -/
def text (x : Binary64) : String :=
  let decimal := x.shortest
  let digits := (toString decimal.digits).toList
  let leading := (digits.length : Int) - 1 + decimal.exponent
  let zeros (count : Int) : List Char := List.replicate count.toNat '0'
  let body : List Char :=
    if -5 ≤ leading ∧ leading ≤ 15 then
      if 0 ≤ decimal.exponent then digits ++ zeros decimal.exponent ++ ['.', '0']
      else if 0 ≤ leading then
        digits.take (leading + 1).toNat ++ '.' :: digits.drop (leading + 1).toNat
      else '0' :: '.' :: zeros (-leading - 1) ++ digits
    else
      digits.take 1 ++ (if digits.length = 1 then [] else '.' :: digits.drop 1) ++
        'e' :: (if leading < 0 then '-' else '+') :: (toString leading.natAbs).toList
  String.ofList (if x.negative then '-' :: body else body)

end Binary64

end Signet
