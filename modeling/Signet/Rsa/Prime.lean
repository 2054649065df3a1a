import Signet.EntropyPool
import Signet.Modular

/-! Primes drawn from a pool. -/
namespace Signet.Rsa

/-- The odd primes by which candidates are sieved. -/
def sievePrimes : List Nat := [3, 5, 7, 11, 13, 17, 19, 23, 29, 31, 37, 41, 43, 47, 53]

/-- The product of the sieve primes. -/
def sieveProduct : Nat := 16294579238595022365

/-- The least even number from `delta` on that takes a residue off all multiples of sieve primes; zero
if there is none within `steps` steps. -/
def sieveShift (residue : Nat) : (steps delta : Nat) → Nat
  | 0, _ => 0
  | steps + 1, delta =>
      if sievePrimes.all fun prime => (residue + delta) % prime != 0 then delta
      else sieveShift residue steps (delta + 2)

/-- The candidate that drawn bytes give: a number of exactly `bits` binary digits with its two highest
ones and its lowest one set, shifted off the multiples of sieve primes. -/
def candidate (bits : Nat) (bytes : Bytes) : Nat :=
  let drawn := Bytes.ofBigEndian bytes % Nat.pow 2 bits ||| 3 <<< (bits - 2) ||| 1
  drawn + sieveShift (drawn % sieveProduct) (Nat.pow 2 19) 0

/-- A number as `2 ^ twos * odd`, in the form `(twos, odd)`. -/
def splitTwos : (fuel : Nat) → Nat → Nat × Nat
  | 0, value => (0, value)
  | fuel + 1, value =>
      if value % 2 = 0 then
        let (twos, odd) := splitTwos fuel (value / 2)
        (twos + 1, odd)
      else (0, value)

/-- Whether squaring a number fewer than `count` times gives minus one. -/
def meetsMinusOne (modulus : Nat) : (count : Nat) → Nat → Bool
  | 0, _ => false
  | count + 1, x => x + 1 == modulus || meetsMinusOne modulus count (x * x % modulus)

/-- Whether a base fails to show that an odd number is composite. -/
def passesBase (value base : Nat) : Bool :=
  let (twos, odd) := splitTwos (value.log2 + 1) (value - 1)
  let x := Modular.pow base odd value
  x == 1 || meetsMinusOne value twos x

/-- The bases that an odd number is tried with. They stand for the bases that the primality test takes at
random, with the number itself as their seed, and for its further test by a Lucas sequence. -/
def testBases : List Nat := 2 :: sievePrimes ++ [59, 61, 67, 71]

/-- Whether no base shows that a number is composite. A prime always passes. Which composites pass
depends on the bases, so with other bases another number may be drawn where a composite passes. -/
def isLikelyPrime (value : Nat) : Bool :=
  if value ≤ 71 then testBases.contains value
  else value % 2 == 1 && testBases.all (passesBase value)

/-- A prime of exactly `bits` binary digits. -/
def drawPrime (bits : Nat) (pool : EntropyPool) : Except Failure (Nat × EntropyPool) :=
  search (fun pool => do
    let (bytes, pool) ← pool.draw ((bits + 7) / 8)
    let value := candidate bits bytes
    .ok (if Bytes.bitLength value = bits ∧ isLikelyPrime value then some value else none, pool))
    poolTrials pool

end Signet.Rsa
