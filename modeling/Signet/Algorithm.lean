/-! The names under which primitives and keys are known. -/
namespace Signet

/-- A primitive, as the tag of the errors it raises. -/
inductive Algorithm where
  | rsaPss | ecdsa | ecdsaSeeded | ed25519 | randomPool | aes | xsalsa20 | chacha20 | sha256
deriving DecidableEq, Repr

namespace Algorithm

/-- All primitives, in the order in which lists of them are shown. -/
def all : List Algorithm :=
  [rsaPss, ecdsa, ecdsaSeeded, ed25519, randomPool, aes, xsalsa20, chacha20, sha256]

def name : Algorithm → String
  | rsaPss => "rsa-pss-sha256"
  | ecdsa => "ecdsa"
  | ecdsaSeeded => "ecdsa-seeded"
  | ed25519 => "ed25519"
  | randomPool => "random-pool"
  | aes => "aes"
  | xsalsa20 => "xsalsa20"
  | chacha20 => "chacha20"
  | sha256 => "sha256"

def summary : Algorithm → String
  | rsaPss => "RsaPss"
  | ecdsa => "Ecdsa"
  | ecdsaSeeded => "EcdsaSeeded"
  | ed25519 => "Ed25519"
  | randomPool => "RandomPool"
  | aes => "Aes"
  | xsalsa20 => "XSalsa20"
  | chacha20 => "ChaCha20"
  | sha256 => "Sha256"

def variants : List (String × Algorithm) := all.map fun algorithm => (algorithm.name, algorithm)

end Algorithm

/-- The type of a key, as written in its descriptor. -/
inductive KeyType where
  | rsaPssSha256 | ecdsaP192 | ecdsaP521 | ecdsaSeededP192 | ed25519
deriving DecidableEq, Repr

namespace KeyType

def all : List KeyType := [rsaPssSha256, ecdsaP192, ecdsaP521, ecdsaSeededP192, ed25519]

def name : KeyType → String
  | rsaPssSha256 => "rsa-pss-sha256"
  | ecdsaP192 => "ecdsa-p192"
  | ecdsaP521 => "ecdsa-p521"
  | ecdsaSeededP192 => "ecdsa-seeded-p192"
  | ed25519 => "ed25519"

def summary : KeyType → String
  | rsaPssSha256 => "RsaPssSha256"
  | ecdsaP192 => "EcdsaP192"
  | ecdsaP521 => "EcdsaP521"
  | ecdsaSeededP192 => "EcdsaSeededP192"
  | ed25519 => "Ed25519"

def algorithm : KeyType → Algorithm
  | rsaPssSha256 => .rsaPss
  | ecdsaP192 | ecdsaP521 => .ecdsa
  | ecdsaSeededP192 => .ecdsaSeeded
  | ed25519 => .ed25519

def variants : List (String × KeyType) := all.map fun keyType => (keyType.name, keyType)

end KeyType

end Signet
