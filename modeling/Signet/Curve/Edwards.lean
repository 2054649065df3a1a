import Signet.Bytes
import Signet.Modular

/-! The twisted Edwards curve `y ^ 2 - x ^ 2 = 1 + d * x ^ 2 * y ^ 2` modulo `2 ^ 255 - 19`, on which
Ed25519 works. -/
namespace Signet.Edwards

def p : Nat := 0x7fffffffffffffffffffffffffffffffffffffffffffffffffffffffffffffed

def order : Nat := 0x1000000000000000000000000000000014def9dea2f79cd65812631a5cf5d3ed

def d : Residue p := ⟨0x52036cee2b6ffe738cc740797779e89800700a4d4141d8ab75eb4dca135978a3, by decide⟩

/-- A square root of minus one. -/
def rootOfMinusOne : Residue p :=
  ⟨0x2b8324804fc1df0b2b4d00993dfbd7a72f431806ad2fe478c4ee1b274a0ea0b0, by decide⟩

def one : Residue p := ⟨1, by decide⟩

/-- A point in the plane of the curve. -/
structure Point where
  (x y : Residue p)
deriving DecidableEq

namespace Point

/-- Whether the point belongs to the curve. -/
def OnCurve (q : Point) : Prop :=
  q.y * q.y - q.x * q.x = one + d * (q.x * q.x) * (q.y * q.y)

instance (q : Point) : Decidable q.OnCurve := inferInstanceAs (Decidable (_ = _))

def neutral : Point := ⟨⟨0, by decide⟩, one⟩

def neg (q : Point) : Point := ⟨q.x.neg, q.y⟩

/-- The sum of two points. One formula serves all pairs, since its denominators are never zero. -/
def add (q r : Point) : Point :=
  let product := d * (q.x * r.x) * (q.y * r.y)
  ⟨(q.x * r.y + q.y * r.x).div (one + product), (q.y * r.y + q.x * r.x).div (one - product)⟩

/-- A multiple of a point by a number of at most `bits` binary digits. -/
def mulBits : (bits factor : Nat) → Point → Point
  | 0, _, _ => neutral
  | bits + 1, factor, q =>
      let rest := mulBits bits (factor / 2) (q.add q)
      if factor % 2 = 1 then q.add rest else rest

/-- A multiple of a point. -/
def mul (factor : Nat) (q : Point) : Point := mulBits (factor.log2 + 1) factor q

def base : Point :=
  ⟨⟨0x216936d3cd6e53fec0a4e231fdd6dc5c692cc7609525a7b2c9562d608f25d51a, by decide⟩,
    ⟨0x6666666666666666666666666666666666666666666666666666666666666658, by decide⟩⟩

/-- Whether eight times the point is the neutral one. -/
def isSmall (q : Point) : Bool := q.mul 8 == neutral

/-- The second coordinate, with the parity of the first one in the highest bit. -/
def encode (q : Point) : Octets 32 :=
  ⟨Bytes.littleEndian 32 (q.y.val + q.x.val % 2 * Nat.pow 2 255), by simp⟩

/-- The even square root of a field element. -/
def evenRoot? (square : Residue p) : Option (Residue p) :=
  let guess := square.pow ((p + 3) / 8)
  let root := if guess * guess = square then guess else guess * rootOfMinusOne
  if root * root = square then some (if root.val % 2 = 0 then root else root.neg) else none

/-- The point that thirty-two bytes stand for. The second coordinate need not be reduced, and a first
coordinate of zero takes either parity. -/
def decode? (bytes : Octets 32) : Option Point := do
  let value := Bytes.ofLittleEndian bytes.val
  let y := Residue.ofNat p (by decide) (value % Nat.pow 2 255)
  let x ← evenRoot? ((y * y - one).div (d * (y * y) + one))
  some ⟨if value < Nat.pow 2 255 then x else x.neg, y⟩

end Point

end Signet.Edwards
