import Signet.Ed25519.Signature
import Signet.EntropyPool
import Signet.KeyId
import Signet.SignatureLength

/-! Ed25519 keys. A signing key is written as its seed, a verifying key as the bytes that it was read
from. -/
namespace Signet.Ed25519

def seedLength : Nat := 32

def verifyingKeyLength : Nat := 32

def signatureLength : Nat := 64

/-- A public key: its point and the encoding that it is known by. -/
structure VerifyingKey where
  bytes : Octets 32
  point : Edwards.Point
deriving DecidableEq

structure SigningKey where
  seed : Octets 32
deriving DecidableEq

namespace VerifyingKey

/-- The encoding of the key. -/
def serialize (key : VerifyingKey) : Bytes := key.bytes.val

def keyId (key : VerifyingKey) : String := Signet.keyId key.serialize

/-- The key with the given encoding. -/
def load (bytes : Bytes) : Except Error VerifyingKey :=
  if h : bytes.length = verifyingKeyLength then
    match Edwards.Point.decode? ⟨bytes, h⟩ with
    | some point => .ok ⟨⟨bytes, h⟩, point⟩
    | none => .error (.corrupt .ed25519 .invalidEdwardsPoint)
  else .error (.corrupt .ed25519 (.verifyingKeyLength verifyingKeyLength bytes.length))

/-- Whether a byte string is a signature on a message; one of another length is refused. -/
def verify (key : VerifyingKey) (message signature : Bytes) : Except Error Bool :=
  if h : signature.length = signatureLength then
    .ok (Ed25519.verify key.point key.bytes message ⟨signature, h⟩)
  else .error (.precondition .ed25519 (.signatureLength signatureLength signature.length))

def summary (key : VerifyingKey) : String :=
  s!"VerifyingKey({Text.quoted (Bytes.toHex key.serialize)})"

end VerifyingKey

namespace SigningKey

def verifyingKey (key : SigningKey) : VerifyingKey :=
  let point := publicPoint key.seed
  ⟨point.encode, point⟩

/-- The seed. -/
def serialize (key : SigningKey) : Bytes := key.seed.val

/-- The key of a seed that a caller chose. -/
def generateFromSeed (seed : Bytes) : Except Error SigningKey :=
  if h : seed.length = seedLength then .ok ⟨⟨seed, h⟩⟩
  else .error (.precondition .ed25519 (.seedLength seedLength seed.length))

/-- The key whose seed is given. -/
def load (bytes : Bytes) : Except Error SigningKey :=
  if h : bytes.length = seedLength then .ok ⟨⟨bytes, h⟩⟩
  else .error (.corrupt .ed25519 (.signingKeyLength seedLength bytes.length))

def generate (draw : OsDraw) : Logged (Except Failure SigningKey) :=
  match EntropyPool.ofOsDraw draw >>= (·.generate seedLength) with
  | .error error => .silent (.error (.refused error))
  | .ok (seed, _) => ⟨[.generatingEd25519Key], (generateFromSeed seed).mapError .refused⟩

def sign (key : SigningKey) (message : Bytes) : Logged (Except Failure Bytes) :=
  assertSigned .ed25519 signatureLength (.ok (Ed25519.sign key.seed message).val)

def summary (key : SigningKey) : String :=
  s!"SigningKey \x7b public: {key.verifyingKey.summary}, .. \x7d"

end SigningKey

end Signet.Ed25519
