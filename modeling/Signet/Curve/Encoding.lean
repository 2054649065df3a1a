import Signet.Curve.Weierstrass

/-! Points of curves as byte strings. A first byte tells the form: 4 before both coordinates, 2 or 3
before the first coordinate of a point whose second one is even or odd, and 5 before the first
coordinate of the point whose second one is the smaller of the two that fit. The forms with one
coordinate also give the second one away, since two points with equal first coordinates are each
other's negatives. -/
namespace Signet.Point

variable {c : Curve}

/-- A coordinate at the width of the curve. -/
def coordinateBytes (x : Residue c.p) : Bytes := Bytes.bigEndian c.width x.val

/-- The point at infinity is the single byte zero in every form. -/
def encodeUncompressed : Point c → Bytes
  | infinity => [0]
  | affine x y => 4 :: (coordinateBytes x ++ coordinateBytes y)

/-- The form with one coordinate and the parity of the other one. -/
def encodeCompressed : Point c → Bytes
  | infinity => [0]
  | affine x y => (if y.val % 2 = 0 then 2 else 3) :: coordinateBytes x

/-- The point with the given first coordinate whose second one the given test prefers to its negative. -/
def ofFirst? (prefers : Residue c.p → Bool) (x : Residue c.p) : Option (Point c) := do
  let y ← c.sqrt? (c.rightSide x)
  some (affine x (if prefers y then y else y.neg))

/-- The point, other than that at infinity, that a byte string stands for. -/
def decode? (c : Curve) : Bytes → Option (Point c)
  | [] => none
  | tag :: bytes =>
      if tag = 4 ∧ bytes.length = 2 * c.width then do
        let x ← c.coordinate? (Bytes.ofBigEndian (bytes.take c.width))
        let y ← c.coordinate? (Bytes.ofBigEndian (bytes.drop c.width))
        if c.Contains x y then some (affine x y) else none
      else if bytes.length = c.width then do
        let x ← c.coordinate? (Bytes.ofBigEndian bytes)
        if tag = 2 then ofFirst? (fun y => y.val % 2 == 0) x
        else if tag = 3 then ofFirst? (fun y => y.val % 2 == 1) x
        else if tag = 5 then ofFirst? (fun y => y.val ≤ c.p - y.val) x
        else none
      else none

end Signet.Point
