import Signet.Bytes

/-! Four 32-bit words side by side, and states of four such rows, on which Salsa20 and ChaCha20 work. -/
namespace Signet

/-- Four words that are worked on at once. -/
structure Lanes where
  (w0 w1 w2 w3 : UInt32)
deriving DecidableEq, Repr

namespace Lanes

/-- Sums of the words at equal places. -/
def add (x y : Lanes) : Lanes := ⟨x.w0 + y.w0, x.w1 + y.w1, x.w2 + y.w2, x.w3 + y.w3⟩

/-- Words at equal places combined by exclusive or. -/
def xor (x y : Lanes) : Lanes := ⟨x.w0 ^^^ y.w0, x.w1 ^^^ y.w1, x.w2 ^^^ y.w2, x.w3 ^^^ y.w3⟩

/-- A word rotated to the left by fewer than thirty-two places. -/
def rotateWord (word places : UInt32) : UInt32 := word <<< places ||| word >>> (32 - places)

/-- Each word rotated to the left. -/
def rotate (x : Lanes) (places : UInt32) : Lanes :=
  ⟨rotateWord x.w0 places, rotateWord x.w1 places, rotateWord x.w2 places, rotateWord x.w3 places⟩

/-- The words moved down by one place, the first one to the end. -/
def turn (x : Lanes) : Lanes := ⟨x.w1, x.w2, x.w3, x.w0⟩

/-- The four words in order. -/
def toList (x : Lanes) : List UInt32 := [x.w0, x.w1, x.w2, x.w3]

/-- The little-endian word of the first four bytes. -/
def wordOf (bytes : Bytes) : UInt32 := UInt32.ofNat (Bytes.ofLittleEndian (bytes.take 4))

/-- The four little-endian words of the first sixteen bytes. -/
def ofBytes (bytes : Bytes) : Lanes :=
  ⟨wordOf bytes, wordOf (bytes.drop 4), wordOf (bytes.drop 8), wordOf (bytes.drop 12)⟩

/-- The sixteen bytes of the words, each least significant byte first. -/
def toBytes (x : Lanes) : Bytes := x.toList.flatMap fun word => Bytes.littleEndian 4 word.toNat

@[simp] theorem length_toBytes (x : Lanes) : x.toBytes.length = 16 := by
  simp [toBytes, toList]

end Lanes

/-- Sixteen words in four rows. -/
structure Rows where
  (a b c d : Lanes)
deriving DecidableEq, Repr

namespace Rows

/-- Sums of the words at equal places. -/
def add (x y : Rows) : Rows := ⟨x.a.add y.a, x.b.add y.b, x.c.add y.c, x.d.add y.d⟩

/-- The sixty-four bytes of the rows in order. -/
def toBytes (x : Rows) : Bytes := x.a.toBytes ++ x.b.toBytes ++ x.c.toBytes ++ x.d.toBytes

@[simp] theorem length_toBytes (x : Rows) : x.toBytes.length = 64 := by
  simp [toBytes]

/-- The constant words of both ciphers: `expand 32-byte k`. -/
def sigma : Lanes := ⟨0x61707865, 0x3320646e, 0x79622d32, 0x6b206574⟩

/-- A function applied a number of times. -/
def repeated (f : Rows → Rows) : (count : Nat) → Rows → Rows
  | 0, x => x
  | count + 1, x => repeated f count (f x)

end Rows

end Signet
