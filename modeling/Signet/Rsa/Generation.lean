import Signet.Rsa.Key

/-! Generation of RSA keys under a policy. -/
namespace Signet.Rsa

/-- The public exponent of generated keys. -/
def publicExponent : Nat := 65537

/-- Two factors and a private exponent from a pool, unless the factors are equal, their product has
another size than the wanted one, or the public exponent has no inverse. -/
def tryNumbers (bits : Nat) (pool : EntropyPool) :
    Except Failure (Option (Nat × Nat × Nat) × EntropyPool) := do
  let (p, pool) ← drawPrime (bits / 2) pool
  let (q, pool) ← drawPrime (bits - Bytes.bitLength p) pool
  let d? := Modular.inverse? publicExponent ((p - 1) * (q - 1))
  let suits := p ≠ q ∧ Bytes.bitLength (p * q) = bits
  .ok (if suits then d?.map fun d => (p, q, d) else none, pool)

namespace SigningKey

/-- A key whose modulus has a number of bits, from a pool. -/
def ofPool (bits : Nat) (pool : EntropyPool) : Except Failure SigningKey := do
  let ((p, q, d), _) ← search (tryNumbers bits) poolTrials pool
  let n := p * q
  let e := publicExponent
  if isPublic : IsPublic n e then
    if isPrivate : IsPrivate n e d p q then
      (ofNumbers { n, e, isPublic, d, p, q, isPrivate }).mapError .refused
    else .error (.refused (.backend .rsaPss .internal))
  else .error (.refused (.backend .rsaPss .internal))

end SigningKey

/-- Checks the size of a key against a policy, and the policy itself. A size that is allowed only by an
insecure policy is reported. -/
def checkSize (bits : Nat) (policy : RsaPolicy) : Logged (Except Error Unit) :=
  let refuse (fault : Fault) : Logged (Except Error Unit) :=
    .silent (.error (.precondition .rsaPss fault))
  match policy.validate with
  | .error fault => refuse (.policy fault)
  | .ok () =>
      if bits < policy.minKeySizeBits then refuse (.sizeTooSmall policy.minKeySizeBits bits)
      else if policy.maxKeySizeBits < bits then refuse (.sizeTooLarge policy.maxKeySizeBits bits)
      else if policy.isInsecure then ⟨[.insecurePolicy bits policy.minKeySizeBits], .ok ()⟩
      else .silent (.ok ())

/-- A key from a pool, with the report that it is generated. -/
def generateFromPool (bits : Nat) (pool : EntropyPool) : Logged (Except Failure SigningKey) :=
  ⟨[.generatingRsaKey bits], SigningKey.ofPool bits pool⟩

/-- A key from the entropy of the operating system. A size that only an insecure policy allows is
reported even if there is no entropy for the key. -/
def generate (bits : Nat) (policy : RsaPolicy) (draw : OsDraw) :
    Logged (Except Failure SigningKey) := do
  match ← checkSize bits policy with
  | .error error => pure (.error (.refused error))
  | .ok () =>
      match EntropyPool.ofOsDraw draw with
      | .error error => pure (.error (.refused error))
      | .ok pool => generateFromPool bits pool

/-- The key of a size and a seed that a policy allows. -/
def generateFromSeed (bits : Nat) (seed : Bytes) (policy : RsaPolicy) :
    Logged (Except Failure SigningKey) := do
  match ← checkSize bits policy with
  | .error error => pure (.error (.refused error))
  | .ok () =>
      if seed.length < policy.minSeedLength then
        pure (.error (.refused
          (.precondition .rsaPss (.seedTooShort policy.minSeedLength seed.length))))
      else generateFromPool bits (.ofSeed seed)

end Signet.Rsa
