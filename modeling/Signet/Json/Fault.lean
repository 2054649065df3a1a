import Signet.Number.Shortest
import Signet.Text.Quoted

/-! The ways in which a JSON text fails to be a value of the wanted type. -/
namespace Signet.Json

/-- What stands where something else is wanted. -/
inductive Found where
  | null
  | boolean (value : Bool)
  | integer (value : Int)
  | float (value : Binary64)
  | string (value : String)
  | sequence
  | map
deriving DecidableEq, Repr

/-- The description of what was found. -/
def Found.text : Found → String
  | .null => "null"
  | .boolean value => s!"boolean `{value}`"
  | .integer value => s!"integer `{value}`"
  | .float value => s!"floating point `{value.text}`"
  | .string value => s!"string {Text.quoted value}"
  | .sequence => "sequence"
  | .map => "map"

/-- A well-formed part of a text that does not fit the wanted type. -/
inductive Mismatch where
  | unknownVariant (name : String) (expected : List String)
  | missingField (name : String)
  | duplicateField (name : String)
  | invalidType (found : Found) (expected : String)
  | invalidValue (found : Found) (expected : String)
  | invalidLength (length : Nat) (expected : String)
deriving DecidableEq, Repr

def Mismatch.message : Mismatch → String
  | .unknownVariant name expected =>
      let names := ", ".intercalate (expected.map fun name => s!"`{name}`")
      s!"unknown variant `{name}`, expected one of {names}"
  | .missingField name => s!"missing field `{name}`"
  | .duplicateField name => s!"duplicate field `{name}`"
  | .invalidType found expected => s!"invalid type: {found.text}, expected {expected}"
  | .invalidValue found expected => s!"invalid value: {found.text}, expected {expected}"
  | .invalidLength length expected => s!"invalid length {length}, expected {expected}"

/-- Why a text was refused, at the first place that gives a reason. -/
inductive Fault where
  /-- The text breaks the grammar, or holds a number or an escape that no value can be read from. -/
  | malformed
  /-- The text ends too early. -/
  | unfinished
  /-- The text goes on as a value of another type than the wanted one. -/
  | mismatch (reason : Mismatch)
deriving DecidableEq, Repr

/-- The kind of a fault. -/
def Fault.category : Fault → String
  | .malformed => "syntax"
  | .unfinished => "eof"
  | .mismatch _ => "data"

def Fault.message : Fault → String
  | .malformed => "malformed text"
  | .unfinished => "unfinished text"
  | .mismatch reason => reason.message

end Signet.Json
