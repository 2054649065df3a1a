import Signet.Ecdsa.Key
import Signet.Ecdsa.SeededKey
import Signet.Ed25519.Key
import Signet.Rsa.Generation

/-! The keys of all families. -/
namespace Signet

/-- A family of keys, with one form of serialized keys. -/
inductive Family where
  | rsaPss | ecdsa | ecdsaSeeded | ed25519
deriving DecidableEq, Repr

def Family.algorithm : Family → Algorithm
  | .rsaPss => .rsaPss
  | .ecdsa => .ecdsa
  | .ecdsaSeeded => .ecdsaSeeded
  | .ed25519 => .ed25519

/-- The family that the keys of a type belong to. -/
def KeyType.family : KeyType → Family
  | .rsaPssSha256 => .rsaPss
  | .ecdsaP192 | .ecdsaP521 => .ecdsa
  | .ecdsaSeededP192 => .ecdsaSeeded
  | .ed25519 => .ed25519

inductive VerifyingKey where
  | rsaPss (key : Rsa.VerifyingKey)
  | ecdsa (key : Ecdsa.VerifyingKey)
  | ecdsaSeeded (key : SeededEcdsa.VerifyingKey)
  | ed25519 (key : Ed25519.VerifyingKey)
deriving DecidableEq

namespace VerifyingKey

/-- The public key of a family that a byte string stands for. -/
def load : Family → Bytes → Except Error VerifyingKey
  | .rsaPss, bytes => (Rsa.VerifyingKey.load bytes).map rsaPss
  | .ecdsa, bytes => (Ecdsa.VerifyingKey.load bytes).map ecdsa
  | .ecdsaSeeded, bytes => (SeededEcdsa.VerifyingKey.load bytes).map ecdsaSeeded
  | .ed25519, bytes => (Ed25519.VerifyingKey.load bytes).map ed25519

/-- The byte string that stands for the key. -/
def serialize : VerifyingKey → Bytes
  | rsaPss key => key.serialize
  | ecdsa key => key.serialize
  | ecdsaSeeded key => key.serialize
  | ed25519 key => key.serialize

def keyType : VerifyingKey → KeyType
  | rsaPss _ => .rsaPssSha256
  | ecdsa key => key.curve.keyType
  | ecdsaSeeded _ => .ecdsaSeededP192
  | ed25519 _ => .ed25519

def keyId (key : VerifyingKey) : String := Signet.keyId key.serialize

def signatureLength : VerifyingKey → Nat
  | rsaPss key => key.signatureLength
  | ecdsa key => key.curve.signatureLength
  | ecdsaSeeded _ => SeededEcdsa.signatureLength
  | ed25519 _ => Ed25519.signatureLength

/-- Whether a byte string is a signature on a message; one of another length is refused. -/
def verify (key : VerifyingKey) (message signature : Bytes) : Except Error Bool :=
  match key with
  | rsaPss key => key.verify message signature
  | ecdsa key => key.verify message signature
  | ecdsaSeeded key => key.verify message signature
  | ed25519 key => key.verify message signature

/-- The size of an RSA modulus in bits. -/
def sizeInBits? : VerifyingKey → Option Nat
  | rsaPss key => some key.sizeInBits
  | _ => none

/-- The curve of a key that may be on several. -/
def curve? : VerifyingKey → Option NamedCurve
  | ecdsa key => some key.curve
  | _ => none

/-- How the points of the key are written. -/
def domainParameters? : VerifyingKey → Option DomainParameters
  | ecdsa key => some (Ecdsa.domainParameters key.curve)
  | ecdsaSeeded _ => some SeededEcdsa.domainParameters
  | _ => none

def summary : VerifyingKey → String
  | rsaPss key => key.summary
  | ecdsa key => key.summary
  | ecdsaSeeded key => key.summary
  | ed25519 key => key.summary

end VerifyingKey

inductive SigningKey where
  | rsaPss (key : Rsa.SigningKey)
  | ecdsa (key : Ecdsa.SigningKey)
  | ecdsaSeeded (key : SeededEcdsa.SigningKey)
  | ed25519 (key : Ed25519.SigningKey)
deriving DecidableEq

namespace SigningKey

/-- The private key of a family that a byte string stands for. -/
def load : Family → Bytes → Except Error SigningKey
  | .rsaPss, bytes => (Rsa.SigningKey.load bytes).map rsaPss
  | .ecdsa, bytes => (Ecdsa.SigningKey.load bytes).map ecdsa
  | .ecdsaSeeded, bytes => (SeededEcdsa.SigningKey.load bytes).map ecdsaSeeded
  | .ed25519, bytes => (Ed25519.SigningKey.load bytes).map ed25519

/-- The byte string that stands for the key. -/
def serialize : SigningKey → Bytes
  | rsaPss key => key.serialize
  | ecdsa key => key.serialize
  | ecdsaSeeded key => key.serialize
  | ed25519 key => key.serialize

def verifyingKey : SigningKey → VerifyingKey
  | rsaPss key => .rsaPss key.verifyingKey
  | ecdsa key => .ecdsa key.verifyingKey
  | ecdsaSeeded key => .ecdsaSeeded key.verifyingKey
  | ed25519 key => .ed25519 key.verifyingKey

def keyType : SigningKey → KeyType
  | rsaPss _ => .rsaPssSha256
  | ecdsa key => key.curve.keyType
  | ecdsaSeeded _ => .ecdsaSeededP192
  | ed25519 _ => .ed25519

def signatureLength : SigningKey → Nat
  | rsaPss key => key.signatureLength
  | ecdsa key => key.curve.signatureLength
  | ecdsaSeeded _ => SeededEcdsa.signatureLength
  | ed25519 _ => Ed25519.signatureLength

/-- The signature on a message. Families that need randomness draw it from the operating system. -/
def sign (key : SigningKey) (message : Bytes) (draw : OsDraw) : Logged (Except Failure Bytes) :=
  match key with
  | rsaPss key => key.sign message draw
  | ecdsa key => key.sign message draw
  | ecdsaSeeded key => key.sign message draw
  | ed25519 key => key.sign message

def summary : SigningKey → String
  | rsaPss key => key.summary
  | ecdsa key => key.summary
  | ecdsaSeeded key => key.summary
  | ed25519 key => key.summary

end SigningKey

end Signet
