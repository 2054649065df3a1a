import Signet.Error
import Signet.Json.Printer
import Signet.Json.Reader
import Signet.Rsa.Policy

/-! The configuration of the library and its JSON form. Members and elements that are left out stand for
the limits for production; a configuration that is read is also validated. -/
namespace Signet

/-- The configuration. -/
structure Config where
  rsa : RsaPolicy := .standard
deriving DecidableEq, Repr

namespace RsaPolicy

/-- The limits that a document has given so far. -/
structure Partial where
  minKeySizeBits : Option Nat := none
  maxKeySizeBits : Option Nat := none
  minSeedLength : Option Nat := none
deriving DecidableEq, Repr

/-- The given limits, and those for production in the place of the others. -/
def Partial.complete (given : Partial) : RsaPolicy where
  minKeySizeBits := given.minKeySizeBits.getD standard.minKeySizeBits
  maxKeySizeBits := given.maxKeySizeBits.getD standard.maxKeySizeBits
  minSeedLength := given.minSeedLength.getD standard.minSeedLength

def readMember (given : Partial) (name : String) : Json.Reader Partial := fun text =>
  if name = "min_key_size_bits" then
    (Json.field name given.minKeySizeBits Json.natural text).map fun (value, rest) =>
      ({ given with minKeySizeBits := value }, rest)
  else if name = "max_key_size_bits" then
    (Json.field name given.maxKeySizeBits Json.natural text).map fun (value, rest) =>
      ({ given with maxKeySizeBits := value }, rest)
  else if name = "min_seed_len" then
    (Json.field name given.minSeedLength Json.natural text).map fun (value, rest) =>
      ({ given with minSeedLength := value }, rest)
  else Json.ignored given text

def elementReaders : List (Partial → Json.Reader Partial) := [
  fun given text => (Json.natural text).map fun (value, rest) =>
    ({ given with minKeySizeBits := some value }, rest),
  fun given text => (Json.natural text).map fun (value, rest) =>
    ({ given with maxKeySizeBits := some value }, rest),
  fun given text => (Json.natural text).map fun (value, rest) =>
    ({ given with minSeedLength := some value }, rest)]

def read : Json.Reader RsaPolicy := fun text =>
  match Json.skipBlank text with
  | [] => .error .unfinished
  | '\x7b' :: rest =>
      (Json.members readMember (rest.length + 1) true {} rest).map fun (given, rest) =>
        (given.complete, rest)
  | '[' :: rest => do
      let ((given, _), rest) ← Json.elements elementReaders true {} rest
      .ok (given.complete, ← Json.skipClosing rest)
  | rest => .error (Json.refusal "struct RsaPolicy" rest)

def toJson (level : Nat) (policy : RsaPolicy) : List Char :=
  Json.ofMembers level [
    ("min_key_size_bits", Json.ofNat policy.minKeySizeBits),
    ("max_key_size_bits", Json.ofNat policy.maxKeySizeBits),
    ("min_seed_len", Json.ofNat policy.minSeedLength)]

end RsaPolicy

namespace Config

def readMember (rsa : Option RsaPolicy) (name : String) : Json.Reader (Option RsaPolicy) := fun text =>
  if name = "rsa" then Json.field name rsa RsaPolicy.read text else Json.ignored rsa text

def read : Json.Reader Config := fun text =>
  let complete (rsa : Option RsaPolicy) : Config := ⟨rsa.getD .standard⟩
  match Json.skipBlank text with
  | [] => .error .unfinished
  | '\x7b' :: rest =>
      (Json.members readMember (rest.length + 1) true none rest).map fun (rsa, rest) =>
        (complete rsa, rest)
  | '[' :: rest => do
      let reader (_ : Option RsaPolicy) : Json.Reader (Option RsaPolicy) := fun text =>
        (RsaPolicy.read text).map fun (rsa, rest) => (some rsa, rest)
      let ((rsa, _), rest) ← Json.elements [reader] true none rest
      .ok (complete rsa, ← Json.skipClosing rest)
  | rest => .error (Json.refusal "struct Config" rest)

def validate (config : Config) : Except Error Unit :=
  config.rsa.validate.mapError fun fault => .config (.policy fault)

def ofJson (text : String) : Except Error Config := do
  let config ← (Json.parse read text).mapError .json
  config.validate
  .ok config

def toJson (config : Config) : String :=
  String.ofList (Json.ofMembers 0 [("rsa", config.rsa.toJson 1)])

/-- What stands at a path where a configuration is looked for. -/
inductive Source where
  | missing
  | directory
  | file (content : Bytes)
deriving DecidableEq, Repr

/-- The valid configuration that a file gives. -/
def ofSource : Source → Except Error Config
  | .missing => .error (.file .missing)
  | .directory => .error (.file .directory)
  | .file content =>
      match String.fromUTF8? ⟨content.toArray⟩ with
      | none => .error (.file .notText)
      | some text => ofJson text

def summary (config : Config) : String := s!"Config \x7b rsa: {config.rsa.summary} \x7d"

end Config

end Signet
