import Signet.Curve.Edwards
import Signet.Hash.Sha512

/-! Ed25519 signatures and their strict verification. -/
namespace Signet.Ed25519

/-- The number that a digest stands for. -/
def digestNumber (message : Bytes) : Nat := Bytes.ofLittleEndian (Sha512.hash message).val

/-- The secret scalar of a seed: the first half of its digest, as a multiple of eight from `2 ^ 254` to
below `2 ^ 255`. -/
def secretScalar (seed : Octets 32) : Nat :=
  Nat.pow 2 254 + Bytes.ofLittleEndian ((Sha512.hash seed.val).val.take 32) % Nat.pow 2 254 / 8 * 8

/-- The second half of the digest of a seed, from which nonces are made. -/
def nonceKey (seed : Octets 32) : Bytes := (Sha512.hash seed.val).val.drop 32

/-- The public point of a seed. -/
def publicPoint (seed : Octets 32) : Edwards.Point := Edwards.Point.base.mul (secretScalar seed)

/-- The nonce of a message, which depends on nothing but the seed and the message. -/
def nonce (seed : Octets 32) (message : Bytes) : Nat :=
  digestNumber (nonceKey seed ++ message) % Edwards.order

/-- The challenge that ties a signature to the nonce point, the key and the message. -/
def challenge (noncePoint key message : Bytes) : Nat :=
  digestNumber (noncePoint ++ key ++ message) % Edwards.order

/-- The signature on a message by a seed: the encoded nonce point and a scalar. -/
def sign (seed : Octets 32) (message : Bytes) : Octets 64 :=
  let r := nonce seed message
  let noncePoint := (Edwards.Point.base.mul r).encode
  let k := challenge noncePoint.val (publicPoint seed).encode.val message
  ⟨noncePoint.val ++ Bytes.littleEndian 32 ((r + k * secretScalar seed) % Edwards.order), by
    simp [noncePoint.property]⟩

/-- Whether sixty-four bytes are a signature on a message under a point and its encoding. The scalar
must be reduced, neither point may be of small order, and the nonce point must be encoded as the
computed one is. -/
def verify (point : Edwards.Point) (key : Octets 32) (message : Bytes) (signature : Octets 64) : Bool :=
  let noncePoint : Octets 32 := ⟨signature.val.take 32, by simp [signature.property]⟩
  let s := Bytes.ofLittleEndian (signature.val.drop 32)
  match noncePoint.val, Edwards.Point.decode? noncePoint with
  | _, none => false
  | encoded, some decoded =>
      let k := challenge encoded key.val message
      s < Edwards.order && !decoded.isSmall && !point.isSmall &&
        ((Edwards.Point.base.mul s).add (point.neg.mul k)).encode.val == encoded

end Signet.Ed25519
