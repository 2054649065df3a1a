import Signet.Bytes

/-! The base-64 text of byte strings, with the standard alphabet and mandatory padding. -/
namespace Signet.Base64

/-- Why a text is not the base-64 form of a byte string. -/
inductive Fault where
  /-- A byte that cannot stand where it does. -/
  | invalidByte (byte : UInt8) (offset : Nat)
  /-- One symbol is left over. -/
  | loneSymbol
  /-- The last symbol has bits that belong to no byte. -/
  | invalidLastSymbol (symbol : UInt8) (offset : Nat)
  /-- The last group is not filled up to four characters. -/
  | invalidPadding
deriving DecidableEq, Repr

def Fault.message : Fault → String
  | .invalidByte byte offset => s!"Invalid byte {byte.toNat}, offset {offset}."
  | .loneSymbol => "Encoded text cannot have a 6-bit remainder."
  | .invalidLastSymbol symbol offset => s!"Invalid last symbol {symbol.toNat}, offset {offset}."
  | .invalidPadding => "Invalid padding"

def pad : UInt8 := 61

/-- The symbol of a number below sixty-four. -/
def symbol (value : Nat) : UInt8 :=
  UInt8.ofNat <|
    if value < 26 then 65 + value
    else if value < 52 then 71 + value
    else if value < 62 then value - 4
    else if value = 62 then 43 else 47

/-- The number that a symbol stands for. -/
def value? (byte : UInt8) : Option Nat :=
  let code := byte.toNat
  if 65 ≤ code ∧ code ≤ 90 then some (code - 65)
  else if 97 ≤ code ∧ code ≤ 122 then some (code - 71)
  else if 48 ≤ code ∧ code ≤ 57 then some (code + 4)
  else if code = 43 then some 62
  else if code = 47 then some 63
  else none

/-- The characters of the base-64 form. -/
def encodeBytes : Bytes → Bytes
  | [] => []
  | [a] => [symbol (a.toNat / 4), symbol (a.toNat % 4 * 16), pad, pad]
  | [a, b] =>
      [symbol (a.toNat / 4), symbol (a.toNat % 4 * 16 + b.toNat / 16),
        symbol (b.toNat % 16 * 4), pad]
  | a :: b :: c :: rest =>
      symbol (a.toNat / 4) :: symbol (a.toNat % 4 * 16 + b.toNat / 16) ::
        symbol (b.toNat % 16 * 4 + c.toNat / 64) :: symbol (c.toNat % 64) :: encodeBytes rest

/-- The base-64 text of a byte string. -/
def encode (bytes : Bytes) : String :=
  String.ofList ((encodeBytes bytes).map fun byte => Char.ofNat byte.toNat)

/-- The bytes whose bits the values of successive symbols hold; left-over bits are dropped. -/
def joinValues : List Nat → Bytes
  | a :: b :: c :: d :: rest =>
      UInt8.ofNat (a * 4 + b / 16) :: UInt8.ofNat (b % 16 * 16 + c / 4) ::
        UInt8.ofNat (c % 4 * 64 + d) :: joinValues rest
  | [a, b, c] => [UInt8.ofNat (a * 4 + b / 16), UInt8.ofNat (b % 16 * 16 + c / 4)]
  | [a, b] => [UInt8.ofNat (a * 4 + b / 16)]
  | _ => []

/-- The values of symbols that stand where no padding may; `offset` is where the first one stands. -/
def values : (offset : Nat) → Bytes → Except Fault (List Nat)
  | _, [] => .ok []
  | offset, byte :: rest =>
      match value? byte with
      | none => .error (.invalidByte byte offset)
      | some value => (values (offset + 1) rest).map (value :: ·)

/-- The values of the last one to eight characters, and how many of these are padding. Padding may
not begin in the first half of a group, and after it only padding may follow; both are reported at
the first padding character. -/
def lastValues (start : Nat) :
    (index : Nat) → (firstPad : Option Nat) → Bytes → Except Fault (List Nat × Nat)
  | _, _, [] => .ok ([], 0)
  | index, firstPad, byte :: rest =>
      if byte = pad then
        if index % 4 < 2 then .error (.invalidByte pad (start + firstPad.getD index))
        else
          (lastValues start (index + 1) (some (firstPad.getD index)) rest).map
            fun (read, padding) => (read, padding + 1)
      else
        match firstPad with
        | some first => .error (.invalidByte pad (start + first))
        | none =>
            match value? byte with
            | none => .error (.invalidByte byte (start + index))
            | some value =>
                (lastValues start (index + 1) none rest).map
                  fun (read, padding) => (value :: read, padding)

/-- Whether the last symbol of a group cut short holds bits that belong to no byte. -/
def hasStrayBits (values : List Nat) : Bool :=
  match values.length % 4, values.getLast? with
  | 2, some last => last % 16 != 0
  | 3, some last => last % 4 != 0
  | _, _ => false

/-- The byte string whose base-64 form the given characters are. -/
def decodeBytes (text : Bytes) : Except Fault Bytes :=
  match text.getLast? with
  | none => .ok []
  | some last =>
      if text.length % 4 = 1 then
        if last ≠ pad ∧ value? last = none then .error (.invalidByte last (text.length - 1))
        else .error .loneSymbol
      else do
        let start := (text.length - 1) / 8 * 8
        let front ← values 0 (text.take start)
        let (back, padding) ← lastValues start 0 none (text.drop start)
        if (back.length + padding) % 4 ≠ 0 then .error .invalidPadding
        else if hasStrayBits back then
          .error (.invalidLastSymbol ((text.drop start).getD (back.length - 1) 0)
            (start + back.length - 1))
        else .ok (joinValues (front ++ back))

/-- The byte string whose base-64 text is given. -/
def decode (text : String) : Except Fault Bytes := decodeBytes text.toUTF8.data.toList

end Signet.Base64
