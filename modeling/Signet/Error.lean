import Signet.Algorithm
import Signet.Base64
import Signet.Json.Fault

/-! The errors of the library: their kinds, their causes and their texts. -/
namespace Signet

/-- A limit on the sizes of RSA keys and seeds that a policy does not keep. -/
inductive PolicyFault where
  | minKeySizeBelow (floor actual : Nat)
  | maxKeySizeAbove (ceiling actual : Nat)
  | limitsCross (minimum maximum : Nat)
  | minSeedLengthBelow (floor actual : Nat)
deriving DecidableEq, Repr

def PolicyFault.message : PolicyFault → String
  | .minKeySizeBelow floor actual =>
      s!"rsa.min_key_size_bits must be >= {floor}, but it was {actual}"
  | .maxKeySizeAbove ceiling actual =>
      s!"rsa.max_key_size_bits must be <= {ceiling}, but it was {actual}"
  | .limitsCross minimum maximum =>
      s!"rsa.min_key_size_bits ({minimum}) exceeds rsa.max_key_size_bits ({maximum})"
  | .minSeedLengthBelow floor actual =>
      s!"rsa.min_seed_len must be >= {floor}, but it was {actual}"

/-- The cause of an error that a primitive raises. -/
inductive Fault where
  /-- An explanation given in words. -/
  | stated (message : String)
  | digestTaken
  | noEntropy
  | keystreamExhausted
  | keyLength (allowed : List Nat) (actual : Nat)
  | ivLength (expected actual : Nat)
  | seedLength (expected actual : Nat)
  | seedTooShort (minimum actual : Nat)
  /-- A key size that is none of the supported ones. -/
  | unsupportedSize (supported : List Nat) (actual : Nat)
  | sizeTooSmall (minimum actual : Nat)
  | sizeTooLarge (maximum actual : Nat)
  | policy (fault : PolicyFault)
  | signatureLength (expected actual : Nat)
  | scalarLength (allowed : List Nat) (actual : Nat)
  | scalarOutOfRange
  | signingKeyLength (expected actual : Nat)
  | verifyingKeyLength (expected actual : Nat)
  | invalidCompressedPoint
  | invalidEdwardsPoint
  | invalidCurveKey
  | invalidPrivateKey
  | invalidPublicKey
  | keyTypeMismatch (encoded described : KeyType)
  | keyIdMismatch (expected computed : String)
  /-- No signature comes from the given nonce. -/
  | noSignature
  /-- A private operation fails or does not agree with the public one. -/
  | internal
  /-- The coefficient of the Chinese remainder theorem does not exist. -/
  | noCoefficient
  /-- An encoding is longer than any that is read. -/
  | encodingTooLong
deriving DecidableEq, Repr

/-- Numbers in a row, with commas between them and a word before the last one. -/
def alternatives : List Nat → String
  | [] => ""
  | [size] => toString size
  | [size, last] => s!"{size} or {last}"
  | size :: sizes => s!"{size}, {alternatives sizes}"

def Fault.message : Fault → String
  | .stated message => message
  | .digestTaken =>
      "digest() has been called on this hasher, so update() is no longer allowed"
  | .noEntropy => "no entropy has been incorporated into the pool"
  | .keystreamExhausted => "keystream exhausted"
  | .keyLength allowed actual =>
      let sizes := ", ".intercalate (allowed.map toString)
      s!"key is required to be of length {sizes}, but it was {actual}"
  | .ivLength expected actual =>
      s!"if an IV is passed, it is required to be exactly {expected} bytes, but it was {actual}"
  | .seedLength expected actual =>
      s!"seed is required to be of length {expected}, but it was {actual}"
  | .seedTooShort minimum actual =>
      s!"seed is required to be of length >= {minimum}, but it was {actual}"
  | .unsupportedSize supported actual =>
      s!"size in bits is required to be {alternatives supported}, but it was {actual}"
  | .sizeTooSmall minimum actual =>
      s!"size in bits is required to be >= {minimum}, but it was {actual}"
  | .sizeTooLarge maximum actual =>
      s!"size in bits is required to be <= {maximum}, but it was {actual}"
  | .policy fault => fault.message
  | .signatureLength expected actual =>
      s!"signature is required to be of length {expected}, but it was {actual}"
  | .scalarLength allowed actual =>
      s!"secret scalar is required to be of length {alternatives allowed}, but it was {actual}"
  | .scalarOutOfRange => "secret scalar is out of range"
  | .signingKeyLength expected actual =>
      s!"signing key is required to be of length {expected}, but it was {actual}"
  | .verifyingKeyLength expected actual =>
      s!"verifying key is required to be of length {expected}, but it was {actual}"
  | .invalidCompressedPoint => "not a valid compressed P-192 point"
  | .invalidEdwardsPoint => "not a valid Edwards point"
  | .invalidCurveKey => "not a P-192 or P-521 SubjectPublicKeyInfo"
  | .invalidPrivateKey => "invalid PKCS#8 private key"
  | .invalidPublicKey => "invalid SubjectPublicKeyInfo"
  | .keyTypeMismatch encoded described =>
      s!"encoded key is {encoded.name}, but descriptor says {described.name}"
  | .keyIdMismatch expected computed =>
      s!"key id mismatch: expected {expected}, computed {computed}"
  | .noSignature => "signature error"
  | .internal => "signature error: internal error"
  | .noCoefficient => "PKCS#8 cryptographic key data malformed"
  | .encodingTooLong => "PKCS#8 ASN.1 error: length overflow"

/-- The cause of an error about a configuration. -/
inductive ConfigFault where
  /-- An explanation given in words. -/
  | stated (message : String)
  | policy (fault : PolicyFault)
deriving DecidableEq, Repr

def ConfigFault.message : ConfigFault → String
  | .stated message => message
  | .policy fault => fault.message

/-- Why a file cannot be read as text. -/
inductive FileFault where
  | missing
  | directory
  | notText
deriving DecidableEq, Repr

def FileFault.message : FileFault → String
  | .missing => "No such file or directory (os error 2)"
  | .directory => "Is a directory (os error 21)"
  | .notText => "stream did not contain valid UTF-8"

/-- An error, by its kind. The kinds that a primitive raises carry its name. -/
inductive Error where
  /-- The caller broke a rule that it could have checked. -/
  | precondition (algorithm : Algorithm) (fault : Fault)
  /-- An encoding of a key does not stand for one. -/
  | corrupt (algorithm : Algorithm) (fault : Fault)
  | outOfMemory
  /-- The source of entropy failed. -/
  | rng (algorithm : Algorithm) (fault : Fault)
  /-- The arithmetic beneath a primitive failed. -/
  | backend (algorithm : Algorithm) (fault : Fault)
  | config (fault : ConfigFault)
  | base64 (fault : Base64.Fault)
  | json (fault : Json.Fault)
  | file (fault : FileFault)
deriving DecidableEq, Repr

namespace Error

/-- The primitive that raised the error. -/
def algorithm? : Error → Option Algorithm
  | precondition algorithm _ | corrupt algorithm _ | rng algorithm _ | backend algorithm _ =>
      some algorithm
  | _ => none

/-- Whether the caller broke a rule. -/
def isPreconditionViolation : Error → Bool
  | precondition _ _ => true
  | _ => false

/-- Whether an encoding of a key was refused. -/
def isCorruptData : Error → Bool
  | corrupt _ _ => true
  | _ => false

/-- The name of the kind of the error. -/
def kind : Error → String
  | precondition _ _ => "PreconditionViolation"
  | corrupt _ _ => "CorruptData"
  | outOfMemory => "OutOfMemory"
  | rng _ _ => "Rng"
  | backend _ _ => "Backend"
  | config _ => "Config"
  | base64 _ => "Base64"
  | json _ => "Json"
  | file _ => "Io"

def message : Error → String
  | precondition algorithm fault =>
      s!"{algorithm.name}: Precondition violation: {fault.message}"
  | corrupt algorithm fault => s!"{algorithm.name}: Corrupt data: {fault.message}"
  | outOfMemory => "Out of memory"
  | rng algorithm fault =>
      s!"{algorithm.name}: Random number generator failure: {fault.message}"
  | backend algorithm fault => s!"{algorithm.name}: {fault.message}"
  | config fault => s!"Configuration error: {fault.message}"
  | base64 fault => s!"Base64 decode error: {fault.message}"
  | json fault => s!"JSON error: {fault.message}"
  | file fault => s!"IO error: {fault.message}"

def summary (error : Error) : String :=
  let tagged (algorithm : Algorithm) (fault : Fault) : String :=
    error.kind ++ " \x7b algorithm: " ++ algorithm.summary ++
      ", message: " ++ Text.quoted fault.message ++ " \x7d"
  match error with
  | precondition algorithm fault | corrupt algorithm fault | rng algorithm fault
  | backend algorithm fault => tagged algorithm fault
  | outOfMemory => error.kind
  | config fault => error.kind ++ "(" ++ Text.quoted fault.message ++ ")"
  | base64 fault => error.kind ++ "(" ++ Text.quoted fault.message ++ ")"
  | json fault => error.kind ++ "(" ++ Text.quoted fault.message ++ ")"
  | file fault => error.kind ++ "(" ++ Text.quoted fault.message ++ ")"

end Error

/-- The reason why an operation stops in the middle instead of returning. -/
inductive Abort where
  /-- A pool without entropy is asked for bytes by a caller that cannot handle a refusal. -/
  | poolRefused (error : Error)
  /-- A fresh signature does not have the length of its family. -/
  | signatureLength (algorithm : Algorithm) (expected actual : Nat)
  /-- A sum does not fit into its word. -/
  | addOverflow
deriving DecidableEq, Repr

def Abort.message : Abort → String
  | .poolRefused error => s!"EntropyPool: {error.message}"
  | .signatureLength algorithm expected actual =>
      s!"{algorithm.name}: signature length {actual} does not match expected length {expected}"
  | .addOverflow => "attempt to add with overflow"

/-- The ways in which an operation that draws random bytes fails. -/
inductive Failure where
  | refused (error : Error)
  | aborted (abort : Abort)
  /-- The search for a suitable value goes on without end. -/
  | endless
deriving DecidableEq, Repr

theorem exists_of_map_eq_ok {ε α β : Type} {result : Except ε α} {f : α → β} {value : β}
    (h : result.map f = .ok value) : ∃ inner, result = .ok inner ∧ f inner = value := by
  cases result with
  | error error => cases h
  | ok inner => exact ⟨inner, rfl, Except.ok.inj h⟩

theorem exists_of_bind_eq_ok {ε α β : Type} {result : Except ε α} {next : α → Except ε β} {value : β}
    (h : result >>= next = .ok value) : ∃ inner, result = .ok inner ∧ next inner = .ok value := by
  cases result with
  | error error => cases h
  | ok inner => exact ⟨inner, rfl, h⟩

/-- Of two steps the first one fails, or the second one after it. -/
theorem error_of_bind_eq_error {ε α β : Type} {result : Except ε α} {next : α → Except ε β} {error : ε}
    (h : result >>= next = .error error) :
    result = .error error ∨ ∃ value, result = .ok value ∧ next value = .error error := by
  cases result with
  | error earlier => exact .inl (congrArg _ (Except.error.inj h))
  | ok value => exact .inr ⟨value, rfl, h⟩

end Signet
