import Signet.Bytes
import Signet.Json.Fault

/-! The pieces of a JSON text: blanks, fixed words, strings and numbers. Strings and numbers have two
readers, one for values that are kept and one for values that are passed over; the second one asks
only for the form. -/
namespace Signet.Json

/-- A reader takes a value off the front of a text and leaves the rest. -/
abbrev Reader (α : Type) := List Char → Except Fault (α × List Char)

/-- The characters that may stand between tokens. -/
def isBlank (c : Char) : Bool := c = ' ' || c = '\n' || c = '\t' || c = '\r'

/-- The text from its first character that is not a blank. -/
def skipBlank (text : List Char) : List Char := text.dropWhile isBlank

/-- Whether a character is a decimal digit. -/
def isDigit (c : Char) : Bool := '0' ≤ c && c ≤ '9'

/-- The text after the given word. -/
def skipWord : (word : List Char) → List Char → Except Fault (List Char)
  | [], text => .ok text
  | _ :: _, [] => .error .unfinished
  | w :: word, c :: text => if c = w then skipWord word text else .error .malformed

/-- The number of bytes of a text in UTF-8. -/
def byteCount (text : List Char) : Nat := (String.ofList text).utf8ByteSize

/-- Four hexadecimal digits. A text of fewer than four bytes counts as cut short. -/
def hexQuad : Reader Nat
  | a :: b :: c :: d :: rest =>
      match Bytes.hexValue? a, Bytes.hexValue? b, Bytes.hexValue? c, Bytes.hexValue? d with
      | some a, some b, some c, some d => .ok (((a * 16 + b) * 16 + c) * 16 + d, rest)
      | _, _, _, _ => .error .malformed
  | text => if byteCount text < 4 then .error .unfinished else .error .malformed

/-- The character that a short escape stands for. -/
def shortEscape? (c : Char) : Option Char :=
  if c = '"' then some '"'
  else if c = '\\' then some '\\'
  else if c = '/' then some '/'
  else if c = 'b' then some '\x08'
  else if c = 'f' then some '\x0c'
  else if c = 'n' then some '\n'
  else if c = 'r' then some '\r'
  else if c = 't' then some '\t'
  else none

/-- The second half of a pair of surrogate escapes. -/
def trailingSurrogate (leading : Nat) (text : List Char) : Except Fault (Char × List Char) := do
  let rest ← skipWord ['\\', 'u'] text
  let (trailing, rest) ← hexQuad rest
  if 0xdc00 ≤ trailing ∧ trailing ≤ 0xdfff then
    .ok (Char.ofNat (0x10000 + (leading - 0xd800) * 0x400 + (trailing - 0xdc00)), rest)
  else .error .malformed

/-- The character that an escape stands for; the text begins after the backslash. Surrogates must
come in pairs. -/
def escape : Reader Char
  | [] => .error .unfinished
  | 'u' :: text => do
      let (code, rest) ← hexQuad text
      if 0xd800 ≤ code ∧ code ≤ 0xdbff then trailingSurrogate code rest
      else if 0xdc00 ≤ code ∧ code ≤ 0xdfff then .error .malformed
      else .ok (Char.ofNat code, rest)
  | c :: rest =>
      match shortEscape? c with
      | some value => .ok (value, rest)
      | none => .error .malformed

/-- The next character of a string, or none at its closing quote. -/
def stringChar : Reader (Option Char)
  | [] => .error .unfinished
  | '"' :: rest => .ok (none, rest)
  | '\\' :: rest => (escape rest).map fun (c, rest) => (some c, rest)
  | c :: rest => if c.toNat < 32 then .error .malformed else .ok (some c, rest)

/-- The characters of a string up to its closing quote, after those `read` already, which come in
reverse. Each step takes a character off the text, so `fuel` may be its length. -/
def stringChars : (fuel : Nat) → (read : List Char) → Reader (List Char)
  | 0, _, _ => .error .unfinished
  | fuel + 1, read, text =>
      match stringChar text with
      | .error fault => .error fault
      | .ok (none, rest) => .ok (read.reverse, rest)
      | .ok (some c, rest) => stringChars fuel (c :: read) rest

/-- The value of a string; the text begins after the opening quote. -/
def stringBody : Reader String := fun text =>
  (stringChars (text.length + 1) [] text).map fun (chars, rest) => (String.ofList chars, rest)

/-- The text after one character or escape of a string that is passed over; true at its closing
quote. Surrogates may stand alone here. -/
def skipStringChar : Reader Bool
  | [] => .error .unfinished
  | '"' :: rest => .ok (true, rest)
  | ['\\'] => .error .unfinished
  | '\\' :: 'u' :: rest => (hexQuad rest).map fun (_, rest) => (false, rest)
  | '\\' :: c :: rest => if (shortEscape? c).isSome then .ok (false, rest) else .error .malformed
  | c :: rest => if c.toNat < 32 then .error .malformed else .ok (false, rest)

/-- The text after the closing quote of a string that is passed over. -/
def skipStringChars : (fuel : Nat) → List Char → Except Fault (List Char)
  | 0, _ => .error .unfinished
  | fuel + 1, text =>
      match skipStringChar text with
      | .error fault => .error fault
      | .ok (true, rest) => .ok rest
      | .ok (false, rest) => skipStringChars fuel rest

/-- The text after a string that is passed over; it begins after the opening quote. -/
def skipString (text : List Char) : Except Fault (List Char) :=
  skipStringChars (text.length + 1) text

/-- A number that is read: an integer of 64 bits, signed if negative, or a floating-point number. -/
inductive Number where
  | integer (value : Int)
  | float (value : Binary64)
deriving DecidableEq, Repr

/-- What a number is when something else is wanted. -/
def Number.found : Number → Found
  | .integer value => .integer value
  | .float value => .float value

/-- Digits appended to a number as long as the result has at most 64 bits; also the count of the
digits that are left. -/
def appendDigits : (value : Nat) → List Char → Nat × Nat
  | value, [] => (value, 0)
  | value, digit :: digits =>
      let next := 10 * value + (digit.toNat - 48)
      if next < Nat.pow 2 64 then appendDigits next digits else (value, digits.length + 1)

/-- A number divided by a power of ten in steps of at most `10 ^ 308`, each rounded; after `fuel`
steps the result is zero. -/
def divideByPower : (fuel : Nat) → Binary64 → (power : Nat) → Option Binary64
  | 0, x, _ => some { Binary64.zero with negative := x.negative }
  | fuel + 1, x, power => do
      let step := min power 308
      let divisor ← Binary64.ofQuotient? false (Nat.pow 10 step) 1
      let x ← x.div? divisor
      if power ≤ 308 then some x else divideByPower fuel x (power - 308)

/-- The floating-point number `significand * 10 ^ exponent`. The significand and the power are each
rounded before they are combined, as is the result; none if it is too large. -/
def floatOfParts? (negative : Bool) (significand : Nat) (exponent : Int) : Option Binary64 := do
  let x ← Binary64.ofQuotient? negative significand 1
  if significand = 0 then some x
  else if 308 < exponent then none
  else if 0 ≤ exponent then
    let power ← Binary64.ofQuotient? false (Nat.pow 10 exponent.toNat) 1
    x.mul? power
  else divideByPower 4 x exponent.natAbs

/-- The floating-point number of given parts, at the front of a text. -/
def floatOfParts (negative : Bool) (significand : Nat) (exponent : Int) : Reader Number := fun rest =>
  match floatOfParts? negative significand exponent with
  | some value => .ok (.float value, rest)
  | none => .error .malformed

/-- The rest of a number from its exponent mark on, if it has one. -/
def exponentPart (negative : Bool) (significand : Nat) (exponent : Int) : Reader Number
  | [] => floatOfParts negative significand exponent []
  | c :: text =>
      if c = 'e' || c = 'E' then
        let (downwards, text) := match text with
          | '-' :: rest => (true, rest)
          | '+' :: rest => (false, rest)
          | text => (false, text)
        let digits := text.takeWhile isDigit
        if digits.isEmpty then
          if text.isEmpty then .error .unfinished else .error .malformed
        else
          let shift : Int := Nat.ofDigitChars 10 digits 0
          floatOfParts negative significand (exponent + if downwards then -shift else shift)
            (text.dropWhile isDigit)
      else floatOfParts negative significand exponent (c :: text)

/-- The integer of a sign and a magnitude, as a floating-point number where 64 bits do not hold it.
A negative zero is one of these. -/
def numberOfMagnitude (negative : Bool) (magnitude : Nat) : Reader Number := fun rest =>
  if !negative then .ok (.integer magnitude, rest)
  else if 0 < magnitude ∧ magnitude ≤ Nat.pow 2 63 then .ok (.integer (-magnitude), rest)
  else floatOfParts true magnitude 0 rest

/-- The rest of a number after its integer digits. -/
def fractionPart (negative : Bool) (digits : List Char) : Reader Number := fun text =>
  let (significand, left) := appendDigits 0 digits
  match text with
  | '.' :: text =>
      let fraction := text.takeWhile isDigit
      if fraction.isEmpty then
        if text.isEmpty then .error .unfinished else .error .malformed
      else
        let (significand, unused) := appendDigits significand fraction
        exponentPart negative significand ((left : Int) - (fraction.length - unused : Nat))
          (text.dropWhile isDigit)
  | c :: rest =>
      if left = 0 ∧ c ≠ 'e' ∧ c ≠ 'E' then numberOfMagnitude negative significand (c :: rest)
      else exponentPart negative significand left (c :: rest)
  | [] =>
      if left = 0 then numberOfMagnitude negative significand []
      else exponentPart negative significand left []

/-- A number without its sign. A zero stands alone before the fraction. -/
def unsignedNumber (negative : Bool) : Reader Number := fun text =>
  match text.takeWhile isDigit with
  | [] => if text.isEmpty then .error .unfinished else .error .malformed
  | digit :: digits =>
      if digit = '0' ∧ digits ≠ [] then .error .malformed
      else fractionPart negative (digit :: digits) (text.dropWhile isDigit)

/-- A number. -/
def number : Reader Number
  | '-' :: text => unsignedNumber true text
  | text => unsignedNumber false text

/-- The text after an exponent that is passed over, if there is one. -/
def skipExponent : List Char → Except Fault (List Char)
  | [] => .ok []
  | c :: text =>
      if c = 'e' || c = 'E' then
        let text := match text with
          | '-' :: rest => rest
          | '+' :: rest => rest
          | text => text
        if (text.takeWhile isDigit).isEmpty then .error .malformed
        else .ok (text.dropWhile isDigit)
      else .ok (c :: text)

/-- The text after a number without sign that is passed over. Here a number that is cut short is
malformed. -/
def skipUnsignedNumber (text : List Char) : Except Fault (List Char) :=
  match text.takeWhile isDigit with
  | [] => .error .malformed
  | digit :: digits =>
      if digit = '0' ∧ digits ≠ [] then .error .malformed
      else
        match text.dropWhile isDigit with
        | '.' :: text =>
            if (text.takeWhile isDigit).isEmpty then .error .malformed
            else skipExponent (text.dropWhile isDigit)
        | rest => skipExponent rest

/-- The text after a number that is passed over. -/
def skipNumber : List Char → Except Fault (List Char)
  | '-' :: text => skipUnsignedNumber text
  | text => skipUnsignedNumber text

end Signet.Json
