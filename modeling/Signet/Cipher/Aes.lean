import Signet.Bytes

/-! The AES block cipher with keys of 16, 24 and 32 bytes, in the direction of encryption. -/
namespace Signet.Aes

set_option maxRecDepth 2048

/-- The substitution box. -/
def box : Vector UInt8 256 := #v[
  0x63, 0x7c, 0x77, 0x7b, 0xf2, 0x6b, 0x6f, 0xc5, 0x30, 0x01, 0x67, 0x2b, 0xfe, 0xd7, 0xab, 0x76,
  0xca, 0x82, 0xc9, 0x7d, 0xfa, 0x59, 0x47, 0xf0, 0xad, 0xd4, 0xa2, 0xaf, 0x9c, 0xa4, 0x72, 0xc0,
  0xb7, 0xfd, 0x93, 0x26, 0x36, 0x3f, 0xf7, 0xcc, 0x34, 0xa5, 0xe5, 0xf1, 0x71, 0xd8, 0x31, 0x15,
  0x04, 0xc7, 0x23, 0xc3, 0x18, 0x96, 0x05, 0x9a, 0x07, 0x12, 0x80, 0xe2, 0xeb, 0x27, 0xb2, 0x75,
  0x09, 0x83, 0x2c, 0x1a, 0x1b, 0x6e, 0x5a, 0xa0, 0x52, 0x3b, 0xd6, 0xb3, 0x29, 0xe3, 0x2f, 0x84,
  0x53, 0xd1, 0x00, 0xed, 0x20, 0xfc, 0xb1, 0x5b, 0x6a, 0xcb, 0xbe, 0x39, 0x4a, 0x4c, 0x58, 0xcf,
  0xd0, 0xef, 0xaa, 0xfb, 0x43, 0x4d, 0x33, 0x85, 0x45, 0xf9, 0x02, 0x7f, 0x50, 0x3c, 0x9f, 0xa8,
  0x51, 0xa3, 0x40, 0x8f, 0x92, 0x9d, 0x38, 0xf5, 0xbc, 0xb6, 0xda, 0x21, 0x10, 0xff, 0xf3, 0xd2,
  0xcd, 0x0c, 0x13, 0xec, 0x5f, 0x97, 0x44, 0x17, 0xc4, 0xa7, 0x7e, 0x3d, 0x64, 0x5d, 0x19, 0x73,
  0x60, 0x81, 0x4f, 0xdc, 0x22, 0x2a, 0x90, 0x88, 0x46, 0xee, 0xb8, 0x14, 0xde, 0x5e, 0x0b, 0xdb,
  0xe0, 0x32, 0x3a, 0x0a, 0x49, 0x06, 0x24, 0x5c, 0xc2, 0xd3, 0xac, 0x62, 0x91, 0x95, 0xe4, 0x79,
  0xe7, 0xc8, 0x37, 0x6d, 0x8d, 0xd5, 0x4e, 0xa9, 0x6c, 0x56, 0xf4, 0xea, 0x65, 0x7a, 0xae, 0x08,
  0xba, 0x78, 0x25, 0x2e, 0x1c, 0xa6, 0xb4, 0xc6, 0xe8, 0xdd, 0x74, 0x1f, 0x4b, 0xbd, 0x8b, 0x8a,
  0x70, 0x3e, 0xb5, 0x66, 0x48, 0x03, 0xf6, 0x0e, 0x61, 0x35, 0x57, 0xb9, 0x86, 0xc1, 0x1d, 0x9e,
  0xe1, 0xf8, 0x98, 0x11, 0x69, 0xd9, 0x8e, 0x94, 0x9b, 0x1e, 0x87, 0xe9, 0xce, 0x55, 0x28, 0xdf,
  0x8c, 0xa1, 0x89, 0x0d, 0xbf, 0xe6, 0x42, 0x68, 0x41, 0x99, 0x2d, 0x0f, 0xb0, 0x54, 0xbb, 0x16]

/-- The substitute of a byte. -/
def substitute (byte : UInt8) : UInt8 := box.get byte.toFin

/-- Four bytes: a column of the state, or a word of the key schedule. -/
structure Column where
  (a b c d : UInt8)
deriving DecidableEq, Repr

namespace Column

/-- The bytes at equal places combined by exclusive or. -/
def add (x y : Column) : Column := ⟨x.a ^^^ y.a, x.b ^^^ y.b, x.c ^^^ y.c, x.d ^^^ y.d⟩

/-- Each byte substituted. -/
def substitute (x : Column) : Column :=
  ⟨Aes.substitute x.a, Aes.substitute x.b, Aes.substitute x.c, Aes.substitute x.d⟩

/-- The bytes moved up by one place, the first one to the end. -/
def rotate (x : Column) : Column := ⟨x.b, x.c, x.d, x.a⟩

/-- The four bytes in order. -/
def toBytes (x : Column) : Bytes := [x.a, x.b, x.c, x.d]

end Column

/-- The double of a byte in the field of 256 elements. -/
def double (byte : UInt8) : UInt8 := byte <<< 1 ^^^ (if byte < 0x80 then 0 else 0x1b)

/-- A column multiplied by the fixed polynomial. -/
def Column.mix (x : Column) : Column :=
  ⟨double x.a ^^^ (double x.b ^^^ x.b) ^^^ x.c ^^^ x.d,
    x.a ^^^ double x.b ^^^ (double x.c ^^^ x.c) ^^^ x.d,
    x.a ^^^ x.b ^^^ double x.c ^^^ (double x.d ^^^ x.d),
    (double x.a ^^^ x.a) ^^^ x.b ^^^ x.c ^^^ double x.d⟩

/-- Sixteen bytes in four columns. -/
structure Block where
  (w x y z : Column)
deriving DecidableEq, Repr

namespace Block

def zero : Block := ⟨⟨0, 0, 0, 0⟩, ⟨0, 0, 0, 0⟩, ⟨0, 0, 0, 0⟩, ⟨0, 0, 0, 0⟩⟩

/-- The sixteen bytes in order. -/
def toBytes (b : Block) : Bytes := b.w.toBytes ++ b.x.toBytes ++ b.y.toBytes ++ b.z.toBytes

@[simp] theorem length_toBytes (b : Block) : b.toBytes.length = 16 := rfl

/-- The block of the lowest 128 bits of a number, most significant byte first. -/
def ofNat (value : Nat) : Block :=
  let byte (place : Nat) : UInt8 := UInt8.ofNat (value >>> (8 * (15 - place)))
  let column (place : Nat) : Column :=
    ⟨byte place, byte (place + 1), byte (place + 2), byte (place + 3)⟩
  ⟨column 0, column 4, column 8, column 12⟩

/-- A round key added. -/
def add (b k : Block) : Block := ⟨b.w.add k.w, b.x.add k.x, b.y.add k.y, b.z.add k.z⟩

/-- Each byte substituted. -/
def substitute (b : Block) : Block :=
  ⟨b.w.substitute, b.x.substitute, b.y.substitute, b.z.substitute⟩

/-- Each row moved to the left by its number. -/
def shiftRows (b : Block) : Block :=
  ⟨⟨b.w.a, b.x.b, b.y.c, b.z.d⟩, ⟨b.x.a, b.y.b, b.z.c, b.w.d⟩,
    ⟨b.y.a, b.z.b, b.w.c, b.x.d⟩, ⟨b.z.a, b.w.b, b.x.c, b.y.d⟩⟩

/-- Each column mixed. -/
def mixColumns (b : Block) : Block := ⟨b.w.mix, b.x.mix, b.y.mix, b.z.mix⟩

end Block

/-- The key of a cipher, expanded into the keys of its rounds. -/
structure Schedule where
  /-- The number of bytes of the key. -/
  keyLength : Nat
  roundKeys : List Block
deriving DecidableEq, Repr

/-- The words of a byte string whose length is a multiple of four. -/
def words : Bytes → List Column
  | a :: b :: c :: d :: rest => ⟨a, b, c, d⟩ :: words rest
  | _ => []

/-- The blocks of a list of words whose length is a multiple of four. -/
def blocksOfWords : List Column → List Block
  | w :: x :: y :: z :: rest => ⟨w, x, y, z⟩ :: blocksOfWords rest
  | _ => []

/-- Each word of a group added to the one before it in the next group, which is `last` for the first.
In a group of more than six words the fifth one is substituted on the way. -/
def chain (size : Nat) : (index : Nat) → (last : Column) → List Column → List Column
  | _, _, [] => []
  | index, last, word :: group =>
      let next := word.add (if 6 < size ∧ index = 4 then last.substitute else last)
      next :: chain size (index + 1) next group

/-- The group of words that follows a group of the key schedule. -/
def nextGroup (roundConstant : UInt8) : List Column → List Column
  | [] => []
  | word :: group =>
      let last := (group.getLastD word).rotate.substitute.add ⟨roundConstant, 0, 0, 0⟩
      let first := word.add last
      first :: chain (group.length + 1) 1 first group

/-- A group of words with `count` groups that follow it. -/
def expandGroups : (count : Nat) → (roundConstant : UInt8) → List Column → List Column
  | 0, _, group => group
  | count + 1, roundConstant, group =>
      group ++ expandGroups count (double roundConstant) (nextGroup roundConstant group)

/-- The schedule of a key of 16, 24 or 32 bytes. -/
def expand (key : Bytes) : Schedule :=
  let size := key.length / 4
  let rounds := size + 6
  let groups := (4 * (rounds + 1) + size - 1) / size
  ⟨key.length, (blocksOfWords (expandGroups (groups - 1) 1 (words key))).take (rounds + 1)⟩

/-- A block after the rounds with the given keys, the last of which does not mix columns. -/
def encryptRounds : List Block → Block → Block
  | [], block => block
  | [key], block => block.substitute.shiftRows.add key
  | key :: keys, block => encryptRounds keys (block.substitute.shiftRows.mixColumns.add key)

/-- The encryption of a block. -/
def Schedule.encrypt (schedule : Schedule) (block : Block) : Block :=
  match schedule.roundKeys with
  | [] => block
  | key :: keys => encryptRounds keys (block.add key)

end Signet.Aes
