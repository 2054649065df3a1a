import Signet.Text.Printable

/-! Texts between double quotes, in the form that error messages and summaries show. -/
namespace Signet.Text

/-- The lowercase hexadecimal digits of a number, without leading zeros. -/
def hexDigits (value : Nat) : List Char := Nat.toDigits 16 value

/-- A character as it stands between double quotes: a backslash goes before a quote or a backslash,
the usual letters stand for the usual control characters, and other characters that cannot be shown
are written by their code point. -/
def quotedChar (c : Char) : List Char :=
  if c = '"' then ['\\', '"']
  else if c = '\\' then ['\\', '\\']
  else if c = '\n' then ['\\', 'n']
  else if c = '\r' then ['\\', 'r']
  else if c = '\t' then ['\\', 't']
  else if c.toNat = 0 then ['\\', '0']
  else if isPrintable c then [c]
  else '\\' :: 'u' :: '\x7b' :: hexDigits c.toNat ++ ['\x7d']

/-- A text between double quotes. -/
def quoted (text : String) : String :=
  String.ofList ('"' :: text.toList.flatMap quotedChar ++ ['"'])

end Signet.Text
