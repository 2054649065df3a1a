import Signet.Text.Quoted

/-! JSON texts of strings, numbers and objects. An object takes a line for each member, indented by two
spaces for each level. -/
namespace Signet.Json

/-- Two lowercase hexadecimal digits. -/
def hexPair (value : Nat) : List Char :=
  [Nat.digitChar (value / 16 % 16), Nat.digitChar (value % 16)]

/-- A character of a string. Only quotes, backslashes and control characters are escaped. -/
def escapedChar (c : Char) : List Char :=
  if c = '"' then ['\\', '"']
  else if c = '\\' then ['\\', '\\']
  else if c = '\x08' then ['\\', 'b']
  else if c = '\x0c' then ['\\', 'f']
  else if c = '\n' then ['\\', 'n']
  else if c = '\r' then ['\\', 'r']
  else if c = '\t' then ['\\', 't']
  else if c.toNat < 32 then ['\\', 'u', '0', '0'] ++ hexPair c.toNat
  else [c]

/-- The text of a string. -/
def ofString (value : String) : List Char := '"' :: value.toList.flatMap escapedChar ++ ['"']

/-- The text of a natural number. -/
def ofNat (value : Nat) : List Char := Nat.toDigits 10 value

/-- The text of an object at a level of nesting, from the texts of its members. -/
def ofMembers (level : Nat) (members : List (String × List Char)) : List Char :=
  let indent (level : Nat) : List Char := '\n' :: List.replicate (2 * level) ' '
  let lines := members.map fun (name, value) => indent (level + 1) ++ ofString name ++ [':', ' '] ++ value
  '\x7b' :: [','].intercalate lines ++ indent level ++ ['\x7d']

end Signet.Json
