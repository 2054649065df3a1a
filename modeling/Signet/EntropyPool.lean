import Signet.Cipher.Aes
import Signet.Error
import Signet.Hash.Sha256

/-! A pool of entropy that gives out pseudo-random bytes. Entropy is folded into an AES key by SHA-256;
output is the seed block, encrypted again for each sixteen bytes. The seed block is never reset, so two
pools that were fed differently stay apart. A pool that was never fed refuses every request. -/
namespace Signet

/-- Why the operating system gives no random bytes, in its own words. -/
structure OsFault where
  message : String
deriving DecidableEq, Repr

/-- What a draw of random bytes from the operating system comes to. -/
abbrev OsDraw := Except OsFault Bytes

/-- Bytes stand for the draw that gives them. -/
instance : Coe Bytes OsDraw := ⟨.ok⟩

/-- The state of a pool. -/
structure EntropyPool where
  key : Sha256.Digest
  block : Aes.Block
  /-- The schedule of the key, once it has been needed. -/
  cipher : Option Aes.Schedule
  hasEntropy : Bool
deriving DecidableEq

namespace EntropyPool

/-- The pool that was never fed. -/
def empty : EntropyPool := ⟨⟨List.replicate 32 0, by simp⟩, .zero, none, false⟩

/-- The pool after the key has been replaced by the digest of itself and the input. -/
def incorporate (pool : EntropyPool) (input : Bytes) : EntropyPool :=
  { pool with key := Sha256.hash (pool.key.val ++ input), cipher := none, hasEntropy := true }

/-- A pool that was fed with nothing but a seed. -/
def ofSeed (seed : Bytes) : EntropyPool := empty.incorporate seed

/-- A pool that was fed with a draw from the operating system. -/
def ofOsDraw : OsDraw → Except Error EntropyPool
  | .ok seed => .ok (ofSeed seed)
  | .error fault => .error (.rng .randomPool (.stated fault.message))

/-- The successive encryptions of a block, and the last one of them. -/
def encryptions (schedule : Aes.Schedule) : (count : Nat) → Aes.Block → Bytes × Aes.Block
  | 0, block => ([], block)
  | count + 1, block =>
      let next := schedule.encrypt block
      let (rest, last) := encryptions schedule count next
      (next.toBytes ++ rest, last)

/-- A number of bytes from the pool. Each request takes whole blocks and drops what it does not need
of the last one. -/
def generate (pool : EntropyPool) (length : Nat) : Except Error (Bytes × EntropyPool) :=
  if !pool.hasEntropy then .error (.precondition .randomPool .noEntropy)
  else if length = 0 then .ok ([], pool)
  else
    let schedule := pool.cipher.getD (Aes.expand pool.key.val)
    let (bytes, block) := encryptions schedule ((length + 15) / 16) pool.block
    .ok (bytes.take length, { pool with block, cipher := some schedule })

/-- A number of bytes from the pool, for callers that cannot handle a refusal. -/
def draw (pool : EntropyPool) (length : Nat) : Except Failure (Bytes × EntropyPool) :=
  match pool.generate length with
  | .ok drawn => .ok drawn
  | .error error => .error (.aborted (.poolRefused error))

def summary (pool : EntropyPool) : String :=
  s!"EntropyPool \x7b has_entropy: {pool.hasEntropy}, keyed: {pool.cipher.isSome}, .. \x7d"

end EntropyPool

/-- The first value that an attempt accepts. Each attempt passes a state on to the next one; after
`trials` failed attempts the search counts as endless. -/
def search {σ α : Type} (attempt : σ → Except Failure (Option α × σ)) :
    (trials : Nat) → σ → Except Failure (α × σ)
  | 0, _ => .error .endless
  | trials + 1, state =>
      match attempt state with
      | .error failure => .error failure
      | .ok (some value, state) => .ok (value, state)
      | .ok (none, state) => search attempt trials state

/-- The number of seed blocks. A search that depends on the pool alone and has failed as often has come
back to a block that it met before, and never ends. -/
def poolTrials : Nat := Nat.pow 2 128

end Signet
