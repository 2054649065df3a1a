import Signet.Curve.Encoding
import Signet.Ecdsa.Derivation
import Signet.Ecdsa.Signature
import Signet.KeyId
import Signet.SignatureLength

/-! Compact ECDSA keys on P-192 that are derived from seeds of twelve bytes. A signing key is written as
its secret scalar, a verifying key as its point in the form with one coordinate. -/
namespace Signet.SeededEcdsa

structure VerifyingKey where
  point : Point p192
deriving DecidableEq

structure SigningKey where
  secret : p192.Scalar
deriving DecidableEq

def signatureLength : Nat := 48

def verifyingKeyLength : Nat := 25

def scalarLength : Nat := 24

def domainParameters : DomainParameters := ⟨.p192, true⟩

/-- Checks the size of a key, of which only one is supported. -/
def checkSize (sizeInBits : Nat) : Except Error Unit :=
  if sizeInBits = 192 then .ok ()
  else .error (.precondition .ecdsaSeeded (.unsupportedSize [192] sizeInBits))

namespace VerifyingKey

/-- The point in the form with one coordinate. -/
def serialize (key : VerifyingKey) : Bytes := key.point.encodeCompressed

def keyId (key : VerifyingKey) : String := Signet.keyId key.serialize

/-- The key whose point is given in a form with one coordinate. -/
def load (bytes : Bytes) : Except Error VerifyingKey :=
  if bytes.length ≠ verifyingKeyLength then
    .error (.corrupt .ecdsaSeeded (.verifyingKeyLength verifyingKeyLength bytes.length))
  else
    match Point.decode? p192 bytes with
    | some point => .ok ⟨point⟩
    | none => .error (.corrupt .ecdsaSeeded .invalidCompressedPoint)

/-- Whether a byte string is a signature on a message; one of another length is refused. -/
def verify (key : VerifyingKey) (message signature : Bytes) : Except Error Bool := do
  checkSignatureLength .ecdsaSeeded signatureLength signature
  .ok (NamedCurve.p192.verify key.point message signature)

def summary (key : VerifyingKey) : String :=
  s!"VerifyingKey({Text.quoted (Bytes.toHex key.serialize)})"

end VerifyingKey

namespace SigningKey

def verifyingKey (key : SigningKey) : VerifyingKey := ⟨p192.base.mul key.secret.val⟩

/-- The secret scalar at the width of the curve. -/
def serialize (key : SigningKey) : Bytes := Bytes.bigEndian scalarLength key.secret.val

/-- The key whose secret scalar is given. -/
def load (bytes : Bytes) : Except Error SigningKey :=
  if bytes.length ≠ scalarLength then
    .error (.corrupt .ecdsaSeeded (.scalarLength [scalarLength] bytes.length))
  else
    match p192.scalar? (Bytes.ofBigEndian bytes) with
    | some secret => .ok ⟨secret⟩
    | none => .error (.corrupt .ecdsaSeeded .scalarOutOfRange)

/-- The key that a seed gives. -/
def ofSeed (seed : Bytes) : Logged (Except Failure SigningKey) :=
  let derived := Derivation.deriveScalar seed
  match derived.result with
  | .ok secret => ⟨derived.events ++ [.seededKeyDerived], .ok ⟨secret⟩⟩
  | .error failure => ⟨derived.events, .error failure⟩

/-- The key of the given size that a seed gives. -/
def generateFromSeed (sizeInBits : Nat) (seed : Bytes) : Logged (Except Failure SigningKey) :=
  match checkSize sizeInBits with
  | .error error => .silent (.error (.refused error))
  | .ok () => ofSeed seed

def generate (sizeInBits : Nat) (draw : OsDraw) : Logged (Except Failure SigningKey) :=
  match checkSize sizeInBits with
  | .error error => .silent (.error (.refused error))
  | .ok () =>
      match EntropyPool.ofOsDraw draw >>= (·.generate Derivation.seedLength) with
      | .error error => .silent (.error (.refused error))
      | .ok (seed, _) => ofSeed seed

def sign (key : SigningKey) (message : Bytes) (draw : OsDraw) : Logged (Except Failure Bytes) :=
  match EntropyPool.ofOsDraw draw with
  | .error error => .silent (.error (.refused error))
  | .ok pool =>
      assertSigned .ecdsaSeeded signatureLength
        (NamedCurve.p192.sign .ecdsaSeeded key.secret message pool).1

def summary (_ : SigningKey) : String := "SigningKey \x7b .. \x7d"

end SigningKey

end Signet.SeededEcdsa
