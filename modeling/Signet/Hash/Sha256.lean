import Signet.Bytes

/-! SHA-256, in one call over a whole message. -/
namespace Signet.Sha256

/-- The chaining value. -/
structure State where
  (a b c d e f g h : UInt32)
deriving DecidableEq, Repr

/-- The chaining value before the first block. -/
def State.initial : State :=
  ⟨0x6a09e667, 0xbb67ae85, 0x3c6ef372, 0xa54ff53a, 0x510e527f, 0x9b05688c, 0x1f83d9ab, 0x5be0cd19⟩

/-- The sixty-four round constants. -/
def roundConstants : List UInt32 := [
  0x428a2f98, 0x71374491, 0xb5c0fbcf, 0xe9b5dba5, 0x3956c25b, 0x59f111f1, 0x923f82a4, 0xab1c5ed5,
  0xd807aa98, 0x12835b01, 0x243185be, 0x550c7dc3, 0x72be5d74, 0x80deb1fe, 0x9bdc06a7, 0xc19bf174,
  0xe49b69c1, 0xefbe4786, 0x0fc19dc6, 0x240ca1cc, 0x2de92c6f, 0x4a7484aa, 0x5cb0a9dc, 0x76f988da,
  0x983e5152, 0xa831c66d, 0xb00327c8, 0xbf597fc7, 0xc6e00bf3, 0xd5a79147, 0x06ca6351, 0x14292967,
  0x27b70a85, 0x2e1b2138, 0x4d2c6dfc, 0x53380d13, 0x650a7354, 0x766a0abb, 0x81c2c92e, 0x92722c85,
  0xa2bfe8a1, 0xa81a664b, 0xc24b8b70, 0xc76c51a3, 0xd192e819, 0xd6990624, 0xf40e3585, 0x106aa070,
  0x19a4c116, 0x1e376c08, 0x2748774c, 0x34b0bcb5, 0x391c0cb3, 0x4ed8aa4a, 0x5b9cca4f, 0x682e6ff3,
  0x748f82ee, 0x78a5636f, 0x84c87814, 0x8cc70208, 0x90befffa, 0xa4506ceb, 0xbef9a3f7, 0xc67178f2]

/-- Rotation to the right by fewer than thirty-two places. -/
def rotate (x : UInt32) (places : UInt32) : UInt32 := x >>> places ||| x <<< (32 - places)

/-- The big-endian words of a byte string whose length is a multiple of four. -/
def words : Bytes → List UInt32
  | a :: b :: c :: d :: rest =>
      (a.toUInt32 <<< 24 ||| b.toUInt32 <<< 16 ||| c.toUInt32 <<< 8 ||| d.toUInt32) :: words rest
  | _ => []

/-- The word that follows a window of sixteen words of the message schedule. -/
def nextWord : List UInt32 → UInt32
  | w0 :: w1 :: _ :: _ :: _ :: _ :: _ :: _ :: _ :: w9 :: _ :: _ :: _ :: _ :: w14 :: _ =>
      w0 + (rotate w1 7 ^^^ rotate w1 18 ^^^ w1 >>> 3) + w9 +
        (rotate w14 17 ^^^ rotate w14 19 ^^^ w14 >>> 10)
  | _ => 0

/-- The window of sixteen words followed by `count` more. -/
def schedule : (count : Nat) → List UInt32 → List UInt32
  | 0, window => window
  | _, [] => []
  | count + 1, word :: window => word :: schedule count (window ++ [nextWord (word :: window)])

/-- One round; `input` is the sum of the round constant and the scheduled word. -/
def round (s : State) (input : UInt32) : State :=
  let first := s.h + (rotate s.e 6 ^^^ rotate s.e 11 ^^^ rotate s.e 25) +
    (s.e &&& s.f ^^^ ~~~s.e &&& s.g) + input
  let second := (rotate s.a 2 ^^^ rotate s.a 13 ^^^ rotate s.a 22) +
    (s.a &&& s.b ^^^ s.a &&& s.c ^^^ s.b &&& s.c)
  ⟨first + second, s.a, s.b, s.c, s.d + first, s.e, s.f, s.g⟩

/-- The chaining value after a block of sixty-four bytes. -/
def compress (s : State) (block : Bytes) : State :=
  let t := (List.zipWith (· + ·) roundConstants (schedule 48 (words block))).foldl round s
  ⟨s.a + t.a, s.b + t.b, s.c + t.c, s.d + t.d, s.e + t.e, s.f + t.f, s.g + t.g, s.h + t.h⟩

/-- The bytes that complete a message of `length` bytes to whole blocks: a one bit, zeros, and the
length of the message in bits. -/
def padding (length : Nat) : Bytes :=
  0x80 :: (List.replicate ((119 - length % 64) % 64) 0 ++ Bytes.bigEndian 8 (8 * length))

/-- A digest of thirty-two bytes. -/
abbrev Digest := Octets 32

/-- The four bytes of a word, most significant first. -/
def wordBytes (word : UInt32) : Bytes :=
  [(word >>> 24).toUInt8, (word >>> 16).toUInt8, (word >>> 8).toUInt8, word.toUInt8]

/-- The digest that a chaining value stands for. -/
def State.digest (s : State) : Digest :=
  ⟨wordBytes s.a ++ wordBytes s.b ++ wordBytes s.c ++ wordBytes s.d ++
    wordBytes s.e ++ wordBytes s.f ++ wordBytes s.g ++ wordBytes s.h, rfl⟩

/-- The digest of a message. -/
def hash (message : Bytes) : Digest :=
  let padded := message ++ padding message.length
  ((Bytes.blocks 64 (padded.length / 64) padded).foldl compress State.initial).digest

end Signet.Sha256
