import Signet.EntropyPool

/-! Runs of requests to an entropy pool. -/
namespace Signet.EntropyPool

/-- The largest number of bytes that a vector holds. -/
def maxVectorSize : Nat := Nat.pow 2 63 - 1

/-- A request to a pool. Those that fill a buffer bring it along, and one for a vector brings along
whether the allocator grants the memory for it. Where nothing is said, it grants all that is smaller
than the largest vector. -/
inductive Request where
  | incorporate (input : Bytes)
  | generateBytes (buffer : Bytes)
  | generateVector (length : Nat) (isGranted : Bool := decide (length < maxVectorSize))
  /-- Fills a buffer; a refusal stops the caller. -/
  | fillBytes (buffer : Bytes)
  | tryFillBytes (buffer : Bytes)
  | nextWord32
  | nextWord64
  | askEntropy
deriving DecidableEq, Repr

/-- What a pool answers. -/
inductive Reply where
  | done
  | bytes (bytes : Bytes)
  | word32 (word : UInt32)
  | word64 (word : UInt64)
  | hasEntropy (answer : Bool)
  /-- The request is refused; the buffer is given back. -/
  | refused (error : Error) (buffer : Bytes)
  /-- The caller is stopped; its buffer is as shown. -/
  | aborted (abort : Abort) (buffer : Bytes)
deriving DecidableEq, Repr

/-- Whether memory for a vector can be reserved. An empty one needs none, and the allocator is not asked
for more than a vector holds; in between its answer decides. -/
def isReserved (length : Nat) (isGranted : Bool) : Bool :=
  length = 0 || (isGranted && length ≤ maxVectorSize)

/-- A buffer filled from the pool, where a refusal is an error. -/
def tryFill (pool : EntropyPool) (buffer : Bytes) : Reply × EntropyPool :=
  match pool.generate buffer.length with
  | .ok (bytes, pool) => (.bytes bytes, pool)
  | .error error => (.refused error buffer, pool)

/-- A buffer filled from the pool, where a refusal stops the caller. -/
def fill (pool : EntropyPool) (buffer : Bytes) : Reply × EntropyPool :=
  match pool.generate buffer.length with
  | .ok (bytes, pool) => (.bytes bytes, pool)
  | .error error => (.aborted (.poolRefused error) buffer, pool)

/-- The bytes of a reply turned into a word. -/
def Reply.mapBytes (word : Bytes → Reply) : Reply → Reply
  | .bytes filled => word filled
  | reply => reply

/-- The reply to a request, and the pool after it. -/
def step (pool : EntropyPool) : Request → Reply × EntropyPool
  | .incorporate input => (.done, pool.incorporate input)
  | .generateBytes buffer => pool.tryFill buffer
  | .generateVector length isGranted =>
      if isReserved length isGranted then
        match pool.generate length with
        | .ok (bytes, pool) => (.bytes bytes, pool)
        | .error error => (.refused error [], pool)
      else (.refused .outOfMemory [], pool)
  | .fillBytes buffer => pool.fill buffer
  | .tryFillBytes buffer => pool.tryFill buffer
  | .nextWord32 =>
      let (reply, pool) := pool.fill (List.replicate 4 0)
      (reply.mapBytes fun bytes => .word32 (UInt32.ofNat (Bytes.ofLittleEndian bytes)), pool)
  | .nextWord64 =>
      let (reply, pool) := pool.fill (List.replicate 8 0)
      (reply.mapBytes fun bytes => .word64 (UInt64.ofNat (Bytes.ofLittleEndian bytes)), pool)
  | .askEntropy => (.hasEntropy pool.hasEntropy, pool)

/-- The replies to a run of requests, each with the pool after it. -/
def run (pool : EntropyPool) : List Request → List (Reply × EntropyPool)
  | [] => []
  | request :: requests =>
      let next := pool.step request
      next :: run next.2 requests

end Signet.EntropyPool
