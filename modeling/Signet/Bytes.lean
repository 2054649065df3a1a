/-! Byte strings, their hexadecimal text, and the fixed-width encodings of numbers in them. -/
namespace Signet

/-- A byte string. -/
abbrev Bytes := List UInt8

/-- A byte string whose length is fixed. -/
abbrev Octets (n : Nat) := { bytes : Bytes // bytes.length = n }

namespace Bytes

/-- The bytes at equal positions combined by exclusive or; the longer string is cut. -/
def xor (left right : Bytes) : Bytes := List.zipWith (· ^^^ ·) left right

@[simp] theorem length_xor (left right : Bytes) :
    (xor left right).length = min left.length right.length := List.length_zipWith

/-- The first `count` pieces of `size` bytes each. -/
def blocks (size : Nat) : (count : Nat) → Bytes → List Bytes
  | 0, _ => []
  | count + 1, bytes => bytes.take size :: blocks size count (bytes.drop size)

/-- The lowest `width` bytes of a number, least significant first. -/
def littleEndian : (width : Nat) → Nat → Bytes
  | 0, _ => []
  | width + 1, value => UInt8.ofNat value :: littleEndian width (value / 256)

/-- The lowest `width` bytes of a number, most significant first. -/
def bigEndian (width value : Nat) : Bytes := (littleEndian width value).reverse

/-- The number whose bytes are given least significant first. -/
def ofLittleEndian : Bytes → Nat
  | [] => 0
  | byte :: rest => byte.toNat + 256 * ofLittleEndian rest

/-- The number whose bytes are given most significant first. -/
def ofBigEndian (bytes : Bytes) : Nat := ofLittleEndian bytes.reverse

@[simp] theorem length_littleEndian (width value : Nat) :
    (littleEndian width value).length = width := by
  induction width generalizing value with
  | zero => rfl
  | succ width ih => simp [littleEndian, ih]

@[simp] theorem length_bigEndian (width value : Nat) :
    (bigEndian width value).length = width := by
  simp [bigEndian]

theorem ofLittleEndian_lt (bytes : Bytes) : ofLittleEndian bytes < Nat.pow 256 bytes.length := by
  induction bytes with
  | nil => simp [ofLittleEndian]
  | cons byte rest ih =>
      have hByte := byte.toNat_lt
      simp only [ofLittleEndian, List.length_cons, Nat.pow_eq, Nat.pow_succ] at ih ⊢
      omega

/-- Writing a number and reading it back keeps what fits into the width. -/
theorem ofLittleEndian_littleEndian (width value : Nat) :
    ofLittleEndian (littleEndian width value) = value % Nat.pow 256 width := by
  induction width generalizing value with
  | zero => simp [littleEndian, ofLittleEndian, Nat.mod_one]
  | succ width ih =>
      rw [littleEndian, ofLittleEndian, ih, Nat.pow_eq, Nat.pow_eq, Nat.pow_succ,
        Nat.mul_comm (256 ^ width), Nat.mod_mul]
      simp

theorem ofNat_ofLittleEndian_cons (byte : UInt8) (rest : Bytes) :
    UInt8.ofNat (ofLittleEndian (byte :: rest)) = byte := by
  apply UInt8.toNat_inj.mp
  simp [ofLittleEndian]

theorem ofLittleEndian_cons_div (byte : UInt8) (rest : Bytes) :
    ofLittleEndian (byte :: rest) / 256 = ofLittleEndian rest := by
  have hByte := byte.toNat_lt
  rw [ofLittleEndian]
  omega

/-- Reading a string and writing it back at its own width restores it. -/
theorem littleEndian_ofLittleEndian (bytes : Bytes) :
    littleEndian bytes.length (ofLittleEndian bytes) = bytes := by
  induction bytes with
  | nil => rfl
  | cons byte rest ih =>
      rw [List.length_cons, littleEndian, ofNat_ofLittleEndian_cons, ofLittleEndian_cons_div, ih]

/-- The least number of bytes that hold a number; zero takes one. -/
def byteLength (value : Nat) : Nat := value.log2 / 8 + 1

/-- The number of binary digits of a number; zero has none. -/
def bitLength (value : Nat) : Nat := if value = 0 then 0 else value.log2 + 1

def toHex (bytes : Bytes) : String :=
  String.ofList (bytes.flatMap fun byte => [Nat.digitChar (byte.toNat / 16), Nat.digitChar (byte.toNat % 16)])

/-- The value of a hexadecimal digit of either case. -/
def hexValue? (c : Char) : Option Nat :=
  if '0' ≤ c ∧ c ≤ '9' then some (c.toNat - 48)
  else if 'a' ≤ c ∧ c ≤ 'f' then some (c.toNat - 87)
  else if 'A' ≤ c ∧ c ≤ 'F' then some (c.toNat - 55)
  else none

/-- The bytes written as pairs of hexadecimal digits. -/
def ofHexDigits? : List Char → Option Bytes
  | [] => some []
  | [_] => none
  | high :: low :: rest => do
      let high ← hexValue? high
      let low ← hexValue? low
      let rest ← ofHexDigits? rest
      some (UInt8.ofNat (16 * high + low) :: rest)

/-- The bytes of an ASCII text. -/
def ofAscii (text : String) : Bytes := text.toList.map fun c => UInt8.ofNat c.toNat

end Bytes

namespace Octets

/-- The lowest `width` bytes of a number, most significant first. -/
def ofNat (width value : Nat) : Octets width := ⟨Bytes.bigEndian width value, by simp⟩

/-- The number whose bytes are given most significant first. -/
def toNat {width : Nat} (octets : Octets width) : Nat := Bytes.ofBigEndian octets.val

end Octets

end Signet
