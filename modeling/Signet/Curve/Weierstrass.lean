import Signet.Bytes
import Signet.Modular

/-! Elliptic curves in short Weierstrass form over prime fields, and their points. -/
namespace Signet

/-- The curve `y ^ 2 = x ^ 3 + a * x + b` modulo `p`, with a base point whose order is `n`. -/
structure Curve where
  p : Nat
  n : Nat
  /-- The number of bytes of a coordinate and of a scalar. -/
  width : Nat
  a : Residue p
  b : Residue p
  baseX : Residue p
  baseY : Residue p

namespace Curve

/-- The right side of the equation of the curve. -/
def rightSide (c : Curve) (x : Residue c.p) : Residue c.p := x * x * x + c.a * x + c.b

/-- Whether the coordinates are those of a point of the curve. -/
def Contains (c : Curve) (x y : Residue c.p) : Prop := y * y = c.rightSide x

instance (c : Curve) (x y : Residue c.p) : Decidable (c.Contains x y) :=
  inferInstanceAs (Decidable (_ = _))

/-- A coordinate, if the number is below `p`. -/
def coordinate? (c : Curve) (value : Nat) : Option (Residue c.p) :=
  if h : value < c.p then some ⟨value, h⟩ else none

/-- A square root, for a field with `p = 3` modulo four. -/
def sqrt? (c : Curve) (value : Residue c.p) : Option (Residue c.p) :=
  let root := value.pow ((c.p + 1) / 4)
  if root * root = value then some root else none

/-- A number from one to below the order of the base point. -/
abbrev Scalar (c : Curve) := { value : Nat // 0 < value ∧ value < c.n }

/-- A scalar, if the number is one. -/
def scalar? (c : Curve) (value : Nat) : Option c.Scalar :=
  if h : 0 < value ∧ value < c.n then some ⟨value, h⟩ else none

end Curve

/-- A point in the plane of a curve, or the neutral one at infinity. -/
inductive Point (c : Curve) where
  | infinity
  | affine (x y : Residue c.p)
deriving DecidableEq

namespace Point

variable {c : Curve}

/-- Whether the point belongs to the curve. -/
def OnCurve : Point c → Prop
  | infinity => True
  | affine x y => c.Contains x y

def neg : Point c → Point c
  | infinity => infinity
  | affine x y => affine x y.neg

/-- The slope of the line through two points, or of the tangent if they are equal. -/
def slope (x₁ y₁ x₂ y₂ : Residue c.p) : Residue c.p :=
  if x₁ = x₂ then (x₁ * x₁ + x₁ * x₁ + x₁ * x₁ + c.a).div (y₁ + y₁)
  else (y₁ - y₂).div (x₁ - x₂)

/-- The sum of two points. -/
def add : Point c → Point c → Point c
  | infinity, q => q
  | p, infinity => p
  | affine x₁ y₁, affine x₂ y₂ =>
      if x₁ = x₂ ∧ y₁ = y₂.neg then infinity
      else
        let s := slope x₁ y₁ x₂ y₂
        let x := s * s - x₁ - x₂
        affine x (s * (x₁ - x) - y₁)

/-- A multiple of a point by a number of at most `bits` binary digits. -/
def mulBits : (bits factor : Nat) → Point c → Point c
  | 0, _, _ => infinity
  | bits + 1, factor, p =>
      let rest := mulBits bits (factor / 2) (p.add p)
      if factor % 2 = 1 then p.add rest else rest

/-- A multiple of a point. -/
def mul (factor : Nat) (p : Point c) : Point c := mulBits (factor.log2 + 1) factor p

end Point

def Curve.base (c : Curve) : Point c := .affine c.baseX c.baseY

end Signet
