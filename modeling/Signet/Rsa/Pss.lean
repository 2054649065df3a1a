import Signet.Hash.Sha256

/-! The probabilistic encoding of messages for RSA signatures, with SHA-256 and salts of thirty-two bytes. -/
namespace Signet.Rsa

/-- The digests of a seed with successive counters, joined. -/
def maskBlocks (seed : Bytes) : (count counter : Nat) → Bytes
  | 0, _ => []
  | count + 1, counter =>
      (Sha256.hash (seed ++ Bytes.bigEndian 4 counter)).val ++ maskBlocks seed count (counter + 1)

/-- A mask of a number of bytes that a seed gives. -/
def mask (seed : Bytes) (length : Nat) : Bytes := (maskBlocks seed ((length + 31) / 32) 0).take length

/-- The bytes with a number of the highest bits of the first one cleared. -/
def clearHigh (count : Nat) : Bytes → Bytes
  | [] => []
  | byte :: rest => UInt8.ofNat (byte.toNat % Nat.pow 2 (8 - count)) :: rest

/-- The number of bytes of an encoded message of a number of bits. -/
def encodedLength (bits : Nat) : Nat := (bits + 7) / 8

/-- The digest that binds a message to a salt. -/
def saltedDigest (digest salt : Bytes) : Bytes :=
  (Sha256.hash (List.replicate 8 0 ++ digest ++ salt)).val

/-- The encoding of a digest of thirty-two bytes with a salt in a number of bits: the masked salt, the
salted digest and a closing byte. Too few bits have no room for it. -/
def encode? (bits : Nat) (digest salt : Bytes) : Option Bytes :=
  let length := encodedLength bits
  if length < 66 then none
  else
    let salted := saltedDigest digest salt
    let block := List.replicate (length - 66) 0 ++ 1 :: salt
    let masked := Bytes.xor block (mask salted (length - 33))
    some (clearHigh (8 * length - bits) masked ++ salted ++ [0xbc])

/-- Whether a byte string is the encoding of a digest in a number of bits with some salt. -/
def isEncoding (bits : Nat) (digest encoded : Bytes) : Bool :=
  let length := encodedLength bits
  let masked := encoded.take (length - 33)
  let salted := (encoded.drop (length - 33)).take 32
  let spare := 8 * length - bits
  let block := clearHigh spare (Bytes.xor masked (mask salted (length - 33)))
  66 ≤ length && encoded.length == length && encoded.drop (length - 1) == [0xbc] &&
    clearHigh spare masked == masked &&
    block.take (length - 65) == List.replicate (length - 66) 0 ++ [1] &&
    saltedDigest digest (block.drop (length - 65)) == salted

end Signet.Rsa
