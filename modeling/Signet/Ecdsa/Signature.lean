import Signet.Curve.Named
import Signet.EntropyPool

/-! ECDSA signatures on the digests of messages. -/
namespace Signet

/-- The two numbers of a signature. -/
structure EcdsaSignature (c : Curve) where
  r : c.Scalar
  s : c.Scalar
deriving DecidableEq

namespace EcdsaSignature

variable {c : Curve}

/-- Both numbers at the width of the curve. -/
def toBytes (signature : EcdsaSignature c) : Bytes :=
  Bytes.bigEndian c.width signature.r.val ++ Bytes.bigEndian c.width signature.s.val

/-- The signature that a byte string stands for. -/
def ofBytes? (c : Curve) (bytes : Bytes) : Option (EcdsaSignature c) := do
  if bytes.length ≠ 2 * c.width then none
  else
    let r ← c.scalar? (Bytes.ofBigEndian (bytes.take c.width))
    let s ← c.scalar? (Bytes.ofBigEndian (bytes.drop c.width))
    some ⟨r, s⟩

/-- The signature on a digest by a secret scalar with a nonce, unless one of its numbers is zero. -/
def make? (secret nonce : c.Scalar) (digest : Nat) : Option (EcdsaSignature c) :=
  match c.base.mul nonce.val with
  | .infinity => none
  | .affine x _ => do
      let inverse ← Modular.inverse? nonce.val c.n
      let r ← c.scalar? (x.val % c.n)
      let s ← c.scalar? (inverse * (digest + r.val * secret.val) % c.n)
      some ⟨r, s⟩

/-- Whether a signature on a digest belongs to a public point. -/
def verifies (signature : EcdsaSignature c) (point : Point c) (digest : Nat) : Bool :=
  match Modular.inverse? signature.s.val c.n with
  | none => false
  | some inverse =>
      let onBase := c.base.mul (digest * inverse % c.n)
      let onPoint := point.mul (signature.r.val * inverse % c.n)
      match onBase.add onPoint with
      | .infinity => false
      | .affine x _ => x.val % c.n == signature.r.val

end EcdsaSignature

namespace Curve

/-- A scalar drawn from a pool: bytes are drawn until they are the number of one. -/
def drawScalar (c : Curve) (pool : EntropyPool) : Except Failure (c.Scalar × EntropyPool) :=
  search (fun pool => do
    let (bytes, pool) ← pool.draw c.width
    .ok (c.scalar? (Bytes.ofBigEndian bytes), pool)) poolTrials pool

end Curve

namespace NamedCurve

/-- The signature on a message with a nonce from a pool, and the pool after it. Errors carry the given
name. -/
def sign (c : NamedCurve) (algorithm : Algorithm) (secret : c.curve.Scalar) (message : Bytes)
    (pool : EntropyPool) : Except Failure Bytes × EntropyPool :=
  match c.curve.drawScalar pool with
  | .error failure => (.error failure, pool)
  | .ok (nonce, pool) =>
      match EcdsaSignature.make? secret nonce (c.digest message) with
      | none => (.error (.refused (.backend algorithm .noSignature)), pool)
      | some signature => (.ok signature.toBytes, pool)

/-- Whether a byte string is a signature on a message under a public point. -/
def verify (c : NamedCurve) (point : Point c.curve) (message signature : Bytes) : Bool :=
  match EcdsaSignature.ofBytes? c.curve signature with
  | none => false
  | some signature => signature.verifies point (c.digest message)

end NamedCurve

end Signet
