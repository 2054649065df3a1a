import Signet.Curve.Encoding
import Signet.Der
import Signet.Ecdsa.Signature
import Signet.KeyId
import Signet.SignatureLength

/-! ECDSA keys on P-192 and P-521. A signing key is written as its secret scalar, a verifying key as a
public key envelope around the point in the form with both coordinates. -/
namespace Signet.Ecdsa

structure VerifyingKey where
  curve : NamedCurve
  point : Point curve.curve
deriving DecidableEq

structure SigningKey where
  curve : NamedCurve
  secret : curve.curve.Scalar
deriving DecidableEq

/-- The object identifier of a curve. -/
def curveId : NamedCurve → Bytes
  | .p192 => [0x2a, 0x86, 0x48, 0xce, 0x3d, 0x03, 0x01, 0x01]
  | .p521 => [0x2b, 0x81, 0x04, 0x00, 0x23]

/-- The content of the algorithm identifier of keys on a curve. -/
def algorithmId (curve : NamedCurve) : Bytes :=
  Der.objectId [0x2a, 0x86, 0x48, 0xce, 0x3d, 0x02, 0x01] ++ Der.objectId (curveId curve)

def domainParameters (curve : NamedCurve) : DomainParameters := ⟨curve, false⟩

namespace VerifyingKey

/-- The public key envelope of the point. -/
def serialize (key : VerifyingKey) : Bytes :=
  Der.publicKeyInfo (algorithmId key.curve) key.point.encodeUncompressed

def keyId (key : VerifyingKey) : String := Signet.keyId key.serialize

/-- The key on a given curve whose envelope is given. -/
def onCurve? (curve : NamedCurve) (bytes : Bytes) : Option VerifyingKey := do
  let point ← Point.decode? curve.curve (← Der.readPublicKeyInfo? (algorithmId curve) bytes)
  some ⟨curve, point⟩

/-- The key whose envelope is given; the envelope tells the curve. -/
def load (bytes : Bytes) : Except Error VerifyingKey :=
  match onCurve? .p192 bytes <|> onCurve? .p521 bytes with
  | some key => .ok key
  | none => .error (.corrupt .ecdsa .invalidCurveKey)

/-- Whether a byte string is a signature on a message; one of another length is refused. -/
def verify (key : VerifyingKey) (message signature : Bytes) : Except Error Bool := do
  checkSignatureLength .ecdsa key.curve.signatureLength signature
  .ok (key.curve.verify key.point message signature)

def summary (key : VerifyingKey) : String :=
  s!"VerifyingKey \x7b curve: {key.curve.summary}, key_id: {Text.quoted key.keyId} \x7d"

end VerifyingKey

namespace SigningKey

def verifyingKey (key : SigningKey) : VerifyingKey :=
  ⟨key.curve, key.curve.curve.base.mul key.secret.val⟩

/-- The secret scalar at the width of the curve. -/
def serialize (key : SigningKey) : Bytes :=
  Bytes.bigEndian key.curve.scalarLength key.secret.val

/-- The key whose secret scalar is given; its length tells the curve. -/
def load (bytes : Bytes) : Except Error SigningKey := do
  let curve ← NamedCurve.ofScalarLength bytes.length
  match curve.curve.scalar? (Bytes.ofBigEndian bytes) with
  | some secret => .ok ⟨curve, secret⟩
  | none => .error (.corrupt .ecdsa .scalarOutOfRange)

def sign (key : SigningKey) (message : Bytes) (draw : OsDraw) : Logged (Except Failure Bytes) :=
  match EntropyPool.ofOsDraw draw with
  | .error error => .silent (.error (.refused error))
  | .ok pool =>
      assertSigned .ecdsa key.curve.signatureLength
        (key.curve.sign .ecdsa key.secret message pool).1

def generate (sizeInBits : Nat) (draw : OsDraw) : Logged (Except Failure SigningKey) :=
  match NamedCurve.ofSizeInBits sizeInBits with
  | .error error => .silent (.error (.refused error))
  | .ok curve =>
      ⟨[.generatingEcdsaKey sizeInBits],
        match EntropyPool.ofOsDraw draw with
        | .error error => .error (.refused error)
        | .ok pool => (curve.curve.drawScalar pool).map fun (secret, _) => ⟨curve, secret⟩⟩

def summary (key : SigningKey) : String :=
  s!"SigningKey \x7b curve: {key.curve.summary}, .. \x7d"

end SigningKey

end Signet.Ecdsa
