/-! Powers and inverses modulo a number. -/
namespace Signet.Modular

/-- `base ^ exponent` modulo `modulus` for an exponent of at most `bits` binary digits. -/
def powBits (modulus : Nat) : (bits base exponent : Nat) → Nat
  | 0, _, _ => 1 % modulus
  | bits + 1, base, exponent =>
      let rest := powBits modulus bits (base * base % modulus) (exponent / 2)
      if exponent % 2 = 1 then base * rest % modulus else rest

/-- `base ^ exponent` modulo `modulus`. -/
def pow (base exponent modulus : Nat) : Nat := powBits modulus (exponent.log2 + 1) base exponent

/-- Euclid's algorithm on `r` and `s`, of which `r` is congruent to `t` times and `s` to `u` times one
and the same number. The result is the greatest common divisor and its factor. The second number
shrinks at each step, so `fuel` may be any number above it. -/
def euclid (modulus : Nat) : (fuel r t s u : Nat) → Nat × Nat
  | 0, r, t, _, _ => (r, t)
  | fuel + 1, r, t, s, u =>
      if s = 0 then (r, t)
      else euclid modulus fuel s u (r % s) ((t + (modulus - r / s * u % modulus)) % modulus)

/-- The number below `modulus` whose product with `value` is congruent to one. -/
def inverse? (value modulus : Nat) : Option Nat :=
  let (divisor, factor) := euclid modulus (modulus + 1) modulus 0 (value % modulus) 1
  if divisor = 1 then some factor else none

end Signet.Modular

namespace Signet

/-- A number modulo `m`. -/
abbrev Residue (m : Nat) := Fin m

namespace Residue

variable {m : Nat}

/-- A number modulo `m`. -/
def ofNat (m : Nat) (pos : 0 < m) (value : Nat) : Residue m := ⟨value % m, Nat.mod_lt value pos⟩

/-- The inverse; zero where there is none. -/
def inv (x : Residue m) : Residue m := ofNat m x.pos ((Modular.inverse? x.val m).getD 0)

/-- The product with the inverse. -/
def div (x y : Residue m) : Residue m := x * y.inv

def neg (x : Residue m) : Residue m := ofNat m x.pos (m - x.val)

/-- A power. -/
def pow (x : Residue m) (exponent : Nat) : Residue m := ofNat m x.pos (Modular.pow x.val exponent m)

end Residue

end Signet
