import Signet.Cipher.Aes
import Signet.Cipher.ChaCha20
import Signet.Cipher.Salsa20
import Signet.Error

/-! Stream ciphers. A keystream goes on from one call to the next, so a message may be processed in
pieces; to encrypt and to decrypt are the same. -/
namespace Signet

/-- A stream cipher with its key and its initial value. -/
inductive StreamCipher where
  /-- AES in counter mode. The counter has 128 bits and starts at the initial value. -/
  | aes (schedule : Aes.Schedule) (counter : Nat)
  /-- Salsa20 with the key and the nonce that a long nonce gives. -/
  | xsalsa20 (key nonce : Bytes)
  /-- ChaCha20 with the key and the nonce that a long nonce gives. -/
  | chacha20 (key nonce : Bytes)
deriving DecidableEq, Repr

namespace StreamCipher

def algorithm : StreamCipher → Algorithm
  | aes _ _ => .aes
  | xsalsa20 _ _ => .xsalsa20
  | chacha20 _ _ => .chacha20

/-- The number of bytes of a block. -/
def blockLength : StreamCipher → Nat
  | aes _ _ => 16
  | xsalsa20 _ _ | chacha20 _ _ => 64

/-- The number of blocks before the keystream is exhausted. -/
def blockLimit : StreamCipher → Nat
  | aes _ _ => Nat.pow 2 128 - 1
  | xsalsa20 _ _ => Nat.pow 2 64 - 1
  | chacha20 _ _ => Nat.pow 2 32 - 1

/-- The keystream block of a number. -/
def block : StreamCipher → (index : Nat) → Bytes
  | aes schedule counter, index =>
      (schedule.encrypt (.ofNat ((counter + index) % Nat.pow 2 128))).toBytes
  | xsalsa20 key nonce, index => Salsa20.block key nonce index
  | chacha20 key nonce, index => ChaCha20.block key nonce index

/-- A number of keystream blocks from a given one on, joined. -/
def blocksFrom (cipher : StreamCipher) : (count index : Nat) → Bytes
  | 0, _ => []
  | count + 1, index => cipher.block index ++ blocksFrom cipher count (index + 1)

end StreamCipher

/-- A cipher and the number of keystream bytes that it has used. -/
structure Keystream where
  cipher : StreamCipher
  position : Nat
deriving DecidableEq, Repr

namespace Keystream

/-- Checks the length of a key. -/
def checkKey (algorithm : Algorithm) (allowed : List Nat) (key : Bytes) : Except Error Unit :=
  if key.length ∈ allowed then .ok ()
  else .error (.precondition algorithm (.keyLength allowed key.length))

/-- The initial value, or zeros when none is given, with its length checked. -/
def initialValue (algorithm : Algorithm) (length : Nat) : Option Bytes → Except Error Bytes
  | none => .ok (List.replicate length 0)
  | some iv =>
      if iv.length = length then .ok iv
      else .error (.precondition algorithm (.ivLength length iv.length))

/-- AES in counter mode with a key of 16, 24 or 32 bytes and an initial value of 16 bytes. -/
def aes (key : Bytes) (iv : Option Bytes) : Except Error Keystream := do
  checkKey .aes [16, 24, 32] key
  let iv ← initialValue .aes 16 iv
  .ok ⟨.aes (Aes.expand key) (Bytes.ofBigEndian iv), 0⟩

/-- XSalsa20 with a key of 32 bytes and an initial value of 24 bytes. -/
def xsalsa20 (key : Bytes) (iv : Option Bytes) : Except Error Keystream := do
  checkKey .xsalsa20 [32] key
  let iv ← initialValue .xsalsa20 24 iv
  .ok ⟨.xsalsa20 (Salsa20.deriveKey key (iv.take 16)) (iv.drop 16), 0⟩

/-- XChaCha20 with a key of 32 bytes and an initial value of 24 bytes. -/
def chacha20 (key : Bytes) (iv : Option Bytes) : Except Error Keystream := do
  checkKey .chacha20 [32] key
  let iv ← initialValue .chacha20 24 iv
  .ok ⟨.chacha20 (ChaCha20.deriveKey key (iv.take 16)) (iv.drop 16), 0⟩

/-- A buffer combined with the next bytes of the keystream, and the keystream after them. A request
that goes beyond the last block is refused as a whole. -/
def processInPlace (stream : Keystream) (buffer : Bytes) : Except Error (Bytes × Keystream) :=
  let size := stream.cipher.blockLength
  let stop := stream.position + buffer.length
  let blocks := (stop + size - 1) / size
  if stream.cipher.blockLimit < blocks then
    .error (.precondition stream.cipher.algorithm .keystreamExhausted)
  else
    let first := stream.position / size
    let key := (stream.cipher.blocksFrom (blocks - first) first).drop (stream.position % size)
    .ok (Bytes.xor buffer key, { stream with position := stop })

/-- The input combined in a new string, and the keystream after it. An input that is not empty is refused
if the allocator does not grant the memory for the string. -/
def process (stream : Keystream) (input : Bytes) (isGranted : Bool := true) :
    Except Error (Bytes × Keystream) :=
  if input.isEmpty || isGranted then stream.processInPlace input else .error .outOfMemory

/-- The number of bytes of an AES key. -/
def keySize? (stream : Keystream) : Option Nat :=
  match stream.cipher with
  | .aes schedule _ => some schedule.keyLength
  | _ => none

def summary (stream : Keystream) : String :=
  match stream.keySize? with
  | some size => s!"{stream.cipher.algorithm.summary} \x7b key_size: {size}, .. \x7d"
  | none => s!"{stream.cipher.algorithm.summary} \x7b .. \x7d"

end Keystream

end Signet
