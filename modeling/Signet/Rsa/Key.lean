import Signet.Der
import Signet.KeyId
import Signet.Rsa.Policy
import Signet.Rsa.Prime
import Signet.Rsa.Pss
import Signet.SignatureLength

/-! RSA keys for probabilistic signatures. Signing keys are written in a private key envelope, verifying
keys in a public key envelope. -/
namespace Signet.Rsa

/-- What a modulus and a public exponent must satisfy: both are odd, and the exponent is at least two,
has at most thirty-three bits, and is below the modulus. -/
def IsPublic (n e : Nat) : Prop := n % 2 = 1 ∧ e % 2 = 1 ∧ 2 ≤ e ∧ e < Nat.pow 2 33 ∧ e < n

instance (n e : Nat) : Decidable (IsPublic n e) := inferInstanceAs (Decidable (_ ∧ _))

structure VerifyingKey where
  n : Nat
  e : Nat
  isPublic : IsPublic n e
deriving DecidableEq

/-- What the factors and the private exponent must satisfy: the factors are not trivial, their product
is the modulus, and the exponents are inverse to each other modulo each factor less one. -/
def IsPrivate (n e d p q : Nat) : Prop :=
  1 < p ∧ 1 < q ∧ p * q = n ∧ e * d % (p - 1) = 1 ∧ e * d % (q - 1) = 1

instance (n e d p q : Nat) : Decidable (IsPrivate n e d p q) :=
  inferInstanceAs (Decidable (_ ∧ _))

/-- The numbers of a private key. -/
structure PrivateNumbers extends VerifyingKey where
  d : Nat
  p : Nat
  q : Nat
  isPrivate : IsPrivate n e d p q
deriving DecidableEq

/-- A private key: its numbers, and the inverse of the second factor modulo the first one. -/
structure SigningKey extends PrivateNumbers where
  coefficient : Nat
  isInverse : Modular.inverse? q p = some coefficient
deriving DecidableEq

/-- The content of the algorithm identifier of RSA keys. -/
def algorithmId : Bytes :=
  Der.objectId [0x2a, 0x86, 0x48, 0x86, 0xf7, 0x0d, 0x01, 0x01, 0x01] ++ Der.null

namespace VerifyingKey

def sizeInBits (key : VerifyingKey) : Nat := Bytes.bitLength key.n

def signatureLength (key : VerifyingKey) : Nat := (key.sizeInBits + 7) / 8

/-- The public key envelope of the modulus and the exponent. -/
def serialize (key : VerifyingKey) : Bytes :=
  Der.publicKeyInfo algorithmId (Der.sequence (Der.natural key.n ++ Der.natural key.e))

def keyId (key : VerifyingKey) : String := Signet.keyId key.serialize

/-- The key in a public key envelope. -/
def load? (bytes : Bytes) : Option VerifyingKey := do
  let content ← Der.readWhole? Der.sequenceTag (← Der.readPublicKeyInfo? algorithmId bytes)
  let (n, rest) ← Der.readNatural? content
  let (e, rest) ← Der.readNatural? rest
  if rest ≠ [] ∨ RsaPolicy.ceiling < Bytes.bitLength n then none
  else if isPublic : IsPublic n e then some ⟨n, e, isPublic⟩
  else none

/-- The key in a public key envelope. -/
def load (bytes : Bytes) : Except Error VerifyingKey :=
  match load? bytes with
  | some key => .ok key
  | none => .error (.corrupt .rsaPss .invalidPublicKey)

/-- The power of a number to the public exponent. -/
def apply (key : VerifyingKey) (value : Nat) : Nat := Modular.pow value key.e key.n

/-- The number of bits of an encoded message. -/
def encodedBits (key : VerifyingKey) : Nat := key.sizeInBits - 1

/-- Whether a byte string is a signature on a message; one of another length is refused. Only as many
of the lowest bytes of the power count as an encoded message has, so where a modulus is one bit longer
than whole bytes its highest bit is free. -/
def verify (key : VerifyingKey) (message signature : Bytes) : Except Error Bool := do
  checkSignatureLength .rsaPss key.signatureLength signature
  let value := Bytes.ofBigEndian signature
  let encoded := Bytes.bigEndian (encodedLength key.encodedBits) (key.apply value)
  .ok (value < key.n && isEncoding key.encodedBits (Sha256.hash message).val encoded)

def summary (key : VerifyingKey) : String :=
  s!"VerifyingKey \x7b size_in_bits: {key.sizeInBits}, key_id: {Text.quoted key.keyId} \x7d"

end VerifyingKey

namespace SigningKey

def verifyingKey (key : SigningKey) : VerifyingKey := key.toVerifyingKey

/-- The private key envelope of the numbers, with the exponents for each factor and the coefficient. -/
def serialize (key : SigningKey) : Bytes :=
  Der.privateKeyInfo algorithmId (Der.sequence (
    Der.natural 0 ++ Der.natural key.n ++ Der.natural key.e ++ Der.natural key.d ++
      Der.natural key.p ++ Der.natural key.q ++ Der.natural (key.d % (key.p - 1)) ++
      Der.natural (key.d % (key.q - 1)) ++ Der.natural key.coefficient))

/-- The key of private numbers. -/
def ofNumbers (numbers : PrivateNumbers) : Except Error SigningKey :=
  match isInverse : Modular.inverse? numbers.q numbers.p with
  | none => .error (.backend .rsaPss .noCoefficient)
  | some coefficient =>
      let key : SigningKey := { numbers with coefficient, isInverse }
      if key.serialize.length ≤ Der.maxLength then .ok key
      else .error (.backend .rsaPss .encodingTooLong)

/-- The private numbers in a private key envelope. The exponents for each factor and the coefficient
are read but not used. -/
def loadNumbers? (bytes : Bytes) : Option PrivateNumbers := do
  let content ← Der.readWhole? Der.sequenceTag (← Der.readPrivateKeyInfo? algorithmId bytes)
  let (version, rest) ← Der.readNatural? content
  let (n, rest) ← Der.readNatural? rest
  let (e, rest) ← Der.readNatural? rest
  let (d, rest) ← Der.readNatural? rest
  let (p, rest) ← Der.readNatural? rest
  let (q, rest) ← Der.readNatural? rest
  let (_, rest) ← Der.readNatural? rest
  let (_, rest) ← Der.readNatural? rest
  let (_, rest) ← Der.readNatural? rest
  if version ≠ 0 ∨ rest ≠ [] then none
  else if isPublic : IsPublic n e then
    if isPrivate : IsPrivate n e d p q then some { n, e, isPublic, d, p, q, isPrivate } else none
  else none

/-- The key in a private key envelope. -/
def load (bytes : Bytes) : Except Error SigningKey :=
  match loadNumbers? bytes with
  | some numbers => ofNumbers numbers
  | none => .error (.corrupt .rsaPss .invalidPrivateKey)

/-- The power of a number to the private exponent, from its powers modulo each factor. -/
def apply (key : SigningKey) (value : Nat) : Nat :=
  let first := Modular.pow value (key.d % (key.p - 1)) key.p
  let second := Modular.pow value (key.d % (key.q - 1)) key.q
  let difference := (first + (key.p - second % key.p)) % key.p
  difference * key.coefficient % key.p * key.q + second

/-- A number below the modulus that has an inverse there, and this inverse, drawn from a pool. -/
def drawBlinding (key : SigningKey) (pool : EntropyPool) :
    Except Failure ((Nat × Nat) × EntropyPool) :=
  search (fun pool => do
    let (bytes, pool) ← pool.draw key.signatureLength
    let value := Bytes.ofBigEndian bytes % Nat.pow 2 key.sizeInBits
    let factor := if value = 0 then 1 else value
    let inverse? := if value < key.n then Modular.inverse? factor key.n else none
    .ok (inverse?.map fun inverse => (factor, inverse), pool)) poolTrials pool

/-- The power of an encoded message to the private exponent, taken under a blinding factor and its
inverse. A result that does not lead back is an error. -/
def applyBlinded (key : SigningKey) (encoded factor inverse : Nat) : Except Error Nat :=
  let blinded := encoded * key.toVerifyingKey.apply factor % key.n
  let result := key.apply blinded * inverse % key.n
  if key.toVerifyingKey.apply result = encoded then .ok result
  else .error (.backend .rsaPss .internal)

/-- The signature on a message with a salt and a blinding factor from a pool. -/
def signWith (key : SigningKey) (message : Bytes) (pool : EntropyPool) : Except Failure Bytes := do
  let (salt, pool) ← pool.draw 32
  match encode? key.encodedBits (Sha256.hash message).val salt with
  | none => .error (.refused (.backend .rsaPss .internal))
  | some encoded =>
      let ((factor, inverse), _) ← key.drawBlinding pool
      match key.applyBlinded (Bytes.ofBigEndian encoded) factor inverse with
      | .error error => .error (.refused error)
      | .ok result => .ok (Bytes.bigEndian key.signatureLength result)

def sign (key : SigningKey) (message : Bytes) (draw : OsDraw) : Logged (Except Failure Bytes) :=
  match EntropyPool.ofOsDraw draw with
  | .error error => .silent (.error (.refused error))
  | .ok pool => assertSigned .rsaPss key.signatureLength (key.signWith message pool)

def summary (key : SigningKey) : String := s!"SigningKey \x7b size_in_bits: {key.sizeInBits}, .. \x7d"

end SigningKey

end Signet.Rsa
