import Signet.Error

/-! The events that operations report beside their results. -/
namespace Signet

/-- A noteworthy step of an operation. -/
inductive Event where
  /-- A derived candidate is no exponent and is hashed again; the count of such candidates so far, in a
  word. -/
  | candidateRejected (rejections : UInt32)
  | seededKeyDerived
  | generatingEcdsaKey (sizeInBits : Nat)
  | generatingEd25519Key
  /-- The policy in force allows keys that are too short for production. -/
  | insecurePolicy (sizeInBits minKeySizeBits : Nat)
  | generatingRsaKey (sizeInBits : Nat)
  | signatureLengthMismatch (algorithm : Algorithm) (expected actual : Nat)
deriving DecidableEq, Repr

namespace Event

def level : Event → String
  | insecurePolicy _ _ => "WARN"
  | signatureLengthMismatch _ _ _ => "ERROR"
  | _ => "DEBUG"

def target : Event → String
  | candidateRejected _ => "seedsign::derive"
  | seededKeyDerived => "seedsign::ecdsa_seeded"
  | generatingEcdsaKey _ => "seedsign::ecdsa"
  | generatingEd25519Key => "seedsign::ed25519"
  | insecurePolicy _ _ | generatingRsaKey _ => "seedsign::rsa_pss"
  | signatureLengthMismatch _ _ _ => "seedsign::keys"

def message : Event → String
  | candidateRejected _ => "derived candidate outside the group order, rehashing"
  | seededKeyDerived => "derived seeded ECDSA key"
  | generatingEcdsaKey _ => "generating ECDSA key"
  | generatingEd25519Key => "generating Ed25519 key"
  | insecurePolicy _ _ => "generating RSA key under a policy below the production floor"
  | generatingRsaKey _ => "generating RSA key"
  | signatureLengthMismatch _ _ _ => "signature length does not match the key's signature length"

def fields : Event → List (String × String)
  | candidateRejected rejections => [("rejections", toString rejections)]
  | seededKeyDerived | generatingEd25519Key => []
  | generatingEcdsaKey size | generatingRsaKey size => [("size_in_bits", toString size)]
  | insecurePolicy size minimum =>
      [("size_in_bits", toString size), ("min_key_size_bits", toString minimum)]
  | signatureLengthMismatch algorithm expected actual =>
      [("algorithm", algorithm.name), ("expected", toString expected), ("actual", toString actual)]

end Event

/-- A result with the events reported on the way to it, in order. -/
structure Logged (α : Type) where
  events : List Event
  result : α
deriving DecidableEq, Repr

namespace Logged

/-- A result without events. -/
def silent {α : Type} (result : α) : Logged α := ⟨[], result⟩

/-- The result of a second operation on that of a first one, with the events of both. -/
def andThen {α β : Type} (first : Logged α) (second : α → Logged β) : Logged β :=
  let next := second first.result
  ⟨first.events ++ next.events, next.result⟩

instance : Monad Logged where
  pure := silent
  bind := andThen

/-- One event. -/
def report (event : Event) : Logged Unit := ⟨[event], ()⟩

end Logged

end Signet
