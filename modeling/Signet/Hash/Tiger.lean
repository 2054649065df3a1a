import Signet.Bytes
import Signet.Hash.Tiger.Boxes

/-! The Tiger hash function with a digest of 192 bits. -/
namespace Signet.Tiger

/-- The chaining value. -/
structure State where
  (a b c : UInt64)
deriving DecidableEq, Repr

/-- The chaining value before the first block. -/
def State.initial : State := ⟨0x0123456789abcdef, 0xfedcba9876543210, 0xf096a5b4c3b2e187⟩

/-- The byte of a word at a distance of `shift` bits from its lowest bit. -/
def byteAt (word shift : UInt64) : Fin 256 := (word >>> shift).toUInt8.toFin

/-- One round. The registers come back rotated by one place, so that rounds follow each other
without renaming. -/
def round (multiplier : UInt64) (s : State) (word : UInt64) : State :=
  let c := s.c ^^^ word
  let a := s.a - (firstBox.get (byteAt c 0) ^^^ secondBox.get (byteAt c 16) ^^^
    thirdBox.get (byteAt c 32) ^^^ fourthBox.get (byteAt c 48))
  let b := s.b + (fourthBox.get (byteAt c 8) ^^^ thirdBox.get (byteAt c 24) ^^^
    secondBox.get (byteAt c 40) ^^^ firstBox.get (byteAt c 56))
  ⟨b * multiplier, c, a⟩

/-- The eight message words of a block. -/
structure Words where
  (x0 x1 x2 x3 x4 x5 x6 x7 : UInt64)

/-- One pass over the message words. -/
def pass (multiplier : UInt64) (s : State) (w : Words) : State :=
  [w.x0, w.x1, w.x2, w.x3, w.x4, w.x5, w.x6, w.x7].foldl (round multiplier) s

/-- The message words of the next pass. -/
def Words.next (w : Words) : Words :=
  let x0 := w.x0 - (w.x7 ^^^ 0xa5a5a5a5a5a5a5a5)
  let x1 := w.x1 ^^^ x0
  let x2 := w.x2 + x1
  let x3 := w.x3 - (x2 ^^^ ~~~x1 <<< 19)
  let x4 := w.x4 ^^^ x3
  let x5 := w.x5 + x4
  let x6 := w.x6 - (x5 ^^^ ~~~x4 >>> 23)
  let x7 := w.x7 ^^^ x6
  let x0 := x0 + x7
  let x1 := x1 - (x0 ^^^ ~~~x7 <<< 19)
  let x2 := x2 ^^^ x1
  let x3 := x3 + x2
  let x4 := x4 - (x3 ^^^ ~~~x2 >>> 23)
  let x5 := x5 ^^^ x4
  let x6 := x6 + x5
  let x7 := x7 - (x6 ^^^ 0x0123456789abcdef)
  ⟨x0, x1, x2, x3, x4, x5, x6, x7⟩

/-- The little-endian word of the first eight bytes. -/
def word (bytes : Bytes) : UInt64 := UInt64.ofNat (Bytes.ofLittleEndian (bytes.take 8))

/-- The message words of a block of sixty-four bytes. -/
def Words.ofBlock (block : Bytes) : Words :=
  ⟨word block, word (block.drop 8), word (block.drop 16), word (block.drop 24),
    word (block.drop 32), word (block.drop 40), word (block.drop 48), word (block.drop 56)⟩

/-- The chaining value after a block of sixty-four bytes. -/
def compress (s : State) (block : Bytes) : State :=
  let first := Words.ofBlock block
  let second := first.next
  let t := pass 9 (pass 7 (pass 5 s first) second) second.next
  ⟨t.a ^^^ s.a, t.b - s.b, t.c + s.c⟩

/-- The bytes that complete a message of `length` bytes to whole blocks: a byte one, zeros, and the
length of the message in bits. -/
def padding (length : Nat) : Bytes :=
  0x01 :: (List.replicate ((119 - length % 64) % 64) 0 ++ Bytes.littleEndian 8 (8 * length))

/-- A digest of twenty-four bytes. -/
abbrev Digest := Octets 24

/-- The digest that a chaining value stands for. -/
def State.digest (s : State) : Digest :=
  ⟨Bytes.littleEndian 8 s.a.toNat ++ Bytes.littleEndian 8 s.b.toNat ++
    Bytes.littleEndian 8 s.c.toNat, by simp⟩

/-- The digest of a message. -/
def hash (message : Bytes) : Digest :=
  let padded := message ++ padding message.length
  ((Bytes.blocks 64 (padded.length / 64) padded).foldl compress State.initial).digest

end Signet.Tiger
