import Signet.Json.Printer
import Signet.Json.Reader
import Signet.Key

/-! Descriptors of public keys: the type, the fingerprint and the base-64 text of a key, and their JSON
form. A descriptor is resolved only to a key that its type and its fingerprint are those of. -/
namespace Signet

/-- The description of a public key. -/
structure Descriptor where
  keyType : KeyType
  keyId : String
  publicKey : String
deriving DecidableEq, Repr

namespace Descriptor

/-- The description of a key. -/
def ofKey (key : VerifyingKey) : Descriptor where
  keyType := key.keyType
  keyId := key.keyId
  publicKey := Base64.encode key.serialize

/-- The key that is described. -/
def resolve (descriptor : Descriptor) : Except Error VerifyingKey := do
  let bytes ← (Base64.decode descriptor.publicKey).mapError .base64
  let key ← VerifyingKey.load descriptor.keyType.family bytes
  let algorithm := descriptor.keyType.algorithm
  if key.keyType ≠ descriptor.keyType then
    .error (.corrupt algorithm (.keyTypeMismatch key.keyType descriptor.keyType))
  else if key.keyId ≠ descriptor.keyId then
    .error (.corrupt algorithm (.keyIdMismatch descriptor.keyId key.keyId))
  else .ok key

/-- The members that a document has given so far. -/
structure Partial where
  keyType : Option KeyType := none
  keyId : Option String := none
  publicKey : Option String := none
deriving DecidableEq, Repr

def readMember (given : Partial) (name : String) : Json.Reader Partial := fun text =>
  if name = "key_type" then
    (Json.field name given.keyType (Json.variant KeyType.variants) text).map fun (value, rest) =>
      ({ given with keyType := value }, rest)
  else if name = "key_id" then
    (Json.field name given.keyId Json.string text).map fun (value, rest) =>
      ({ given with keyId := value }, rest)
  else if name = "public_key" then
    (Json.field name given.publicKey Json.string text).map fun (value, rest) =>
      ({ given with publicKey := value }, rest)
  else Json.ignored given text

/-- The descriptor of the given members, all of which are needed. -/
def ofMembers (given : Partial) : Except Json.Fault Descriptor :=
  match given.keyType, given.keyId, given.publicKey with
  | none, _, _ => .error (.mismatch (.missingField "key_type"))
  | _, none, _ => .error (.mismatch (.missingField "key_id"))
  | _, _, none => .error (.mismatch (.missingField "public_key"))
  | some keyType, some keyId, some publicKey => .ok ⟨keyType, keyId, publicKey⟩

def elementReaders : List (Partial → Json.Reader Partial) := [
  fun given text => (Json.variant KeyType.variants text).map fun (value, rest) =>
    ({ given with keyType := some value }, rest),
  fun given text => (Json.string text).map fun (value, rest) =>
    ({ given with keyId := some value }, rest),
  fun given text => (Json.string text).map fun (value, rest) =>
    ({ given with publicKey := some value }, rest)]

/-- The descriptor of the first elements of a sequence, all of which are needed. -/
def ofElements (given : Partial) (count : Nat) : Except Json.Fault Descriptor :=
  match given.keyType, given.keyId, given.publicKey with
  | some keyType, some keyId, some publicKey => .ok ⟨keyType, keyId, publicKey⟩
  | _, _, _ => .error (.mismatch (.invalidLength count "struct PublicKeyInfo with 3 elements"))

def read : Json.Reader Descriptor := fun text =>
  match Json.skipBlank text with
  | [] => .error .unfinished
  | '\x7b' :: rest => do
      let (given, rest) ← Json.members readMember (rest.length + 1) true {} rest
      .ok (← ofMembers given, rest)
  | '[' :: rest => do
      let ((given, count), rest) ← Json.elements elementReaders true {} rest
      let descriptor ← ofElements given count
      .ok (descriptor, ← Json.skipClosing rest)
  | rest => .error (Json.refusal "struct PublicKeyInfo" rest)

def ofJson (text : String) : Except Error Descriptor := (Json.parse read text).mapError .json

def toJson (descriptor : Descriptor) : String :=
  String.ofList (Json.ofMembers 0 [
    ("key_type", Json.ofString descriptor.keyType.name),
    ("key_id", Json.ofString descriptor.keyId),
    ("public_key", Json.ofString descriptor.publicKey)])

end Descriptor

end Signet
