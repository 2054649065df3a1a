import Mathlib.Data.List.Range
import Mathlib.Logic.Function.Iterate
import Signet.EntropyPool.Run

/-! What a request to an entropy pool does. All requests for bytes are one operation, which differs only
in the number of bytes, in how they are handed out and in how a refusal is reported. -/
namespace Signet.EntropyPool

/-- The schedule that the next request works with. -/
def schedule (pool : EntropyPool) : Aes.Schedule := pool.cipher.getD (Aes.expand pool.key.val)

/-- The concatenation of the blocks that a block runs through when it is encrypted in place. -/
def ciphertext (schedule : Aes.Schedule) (count : Nat) (block : Aes.Block) : Bytes :=
  (List.range count).flatMap fun index => (schedule.encrypt^[index + 1] block).toBytes

/-- The number of blocks that hold a number of bytes. -/
def blockCount (length : Nat) : Nat := (length + 15) / 16

theorem ciphertext_succ (schedule : Aes.Schedule) (count : Nat) (block : Aes.Block) :
    ciphertext schedule (count + 1) block =
      (schedule.encrypt block).toBytes ++ ciphertext schedule count (schedule.encrypt block) := by
  simp only [ciphertext, List.range_succ_eq_map, List.flatMap_cons, List.flatMap_map,
    Function.iterate_succ_apply, Function.iterate_zero_apply]

theorem encryptions_eq (schedule : Aes.Schedule) (count : Nat) (block : Aes.Block) :
    encryptions schedule count block =
      (ciphertext schedule count block, schedule.encrypt^[count] block) := by
  induction count generalizing block with
  | zero => rfl
  | succ count ih =>
      rw [encryptions, ih, ciphertext_succ, Function.iterate_succ_apply]

theorem length_ciphertext (schedule : Aes.Schedule) (count : Nat) (block : Aes.Block) :
    (ciphertext schedule count block).length = 16 * count := by
  induction count generalizing block with
  | zero => rfl
  | succ count ih =>
      rw [ciphertext_succ, List.length_append, ih, Aes.Block.length_toBytes]
      omega

/-- Each sixteen bytes of the ciphertext are the next encryption of the block. -/
theorem take_drop_ciphertext (schedule : Aes.Schedule) {index count : Nat} (block : Aes.Block)
    (h : index < count) :
    ((ciphertext schedule count block).drop (16 * index)).take 16 =
      (schedule.encrypt^[index + 1] block).toBytes := by
  induction index generalizing count block with
  | zero =>
      obtain ⟨count, rfl⟩ := Nat.exists_eq_add_one.mpr h
      rw [ciphertext_succ]
      exact List.take_left' (Aes.Block.length_toBytes _)
  | succ index ih =>
      obtain ⟨count, rfl⟩ := Nat.exists_eq_add_one.mpr (Nat.zero_lt_of_lt h)
      rw [ciphertext_succ, Nat.mul_succ, Nat.add_comm, ← List.drop_drop,
        List.drop_left' (Aes.Block.length_toBytes _), ih _ (Nat.lt_of_succ_lt_succ h)]
      rfl

/-- The pool that a served request for a number of bytes leaves behind. -/
def served (pool : EntropyPool) (length : Nat) : EntropyPool :=
  { pool with
    block := pool.schedule.encrypt^[blockCount length] pool.block
    cipher := if length = 0 then pool.cipher else some pool.schedule }

theorem generate_of_not_hasEntropy {pool : EntropyPool} (h : pool.hasEntropy = false)
    (length : Nat) : pool.generate length = .error (.precondition .randomPool .noEntropy) := by
  simp [generate, h]

theorem generate_of_hasEntropy {pool : EntropyPool} (h : pool.hasEntropy = true) (length : Nat) :
    pool.generate length =
      .ok ((ciphertext pool.schedule (blockCount length) pool.block).take length,
        pool.served length) := by
  by_cases hZero : length = 0
  · subst hZero
    cases pool
    simp_all [generate, served, blockCount]
  · simp only [generate, h, hZero, encryptions_eq, served, schedule, blockCount, Bool.not_true,
      Bool.false_eq_true, if_false]

/-- The number of bytes that a request asks for. -/
def Request.length : Request → Nat
  | .generateBytes buffer | .fillBytes buffer | .tryFillBytes buffer => buffer.length
  | .generateVector length _ => length
  | .nextWord32 => 4
  | .nextWord64 => 8
  | .incorporate _ | .askEntropy => 0

/-- The reply that hands out the bytes that a request asks for. -/
def Request.answer : Request → Bytes → Reply
  | .nextWord32, bytes => .word32 (UInt32.ofNat (Bytes.ofLittleEndian bytes))
  | .nextWord64, bytes => .word64 (UInt64.ofNat (Bytes.ofLittleEndian bytes))
  | _, bytes => .bytes bytes

/-- The reply that reports why a request for bytes is not served. -/
def Request.refusal : Request → Error → Reply
  | .generateBytes buffer, error | .tryFillBytes buffer, error => .refused error buffer
  | .fillBytes buffer, error => .aborted (.poolRefused error) buffer
  | .nextWord32, error => .aborted (.poolRefused error) (List.replicate 4 0)
  | .nextWord64, error => .aborted (.poolRefused error) (List.replicate 8 0)
  | _, error => .refused error []

theorem isReserved_eq_false_iff {length : Nat} {isGranted : Bool} :
    isReserved length isGranted = false ↔
      length ≠ 0 ∧ (isGranted = false ∨ maxVectorSize < length) := by
  cases isGranted <;> simp [isReserved]

theorem step_of_unreserved (pool : EntropyPool) {length : Nat} {isGranted : Bool}
    (h : isReserved length isGranted = false) :
    pool.step (.generateVector length isGranted) = (.refused .outOfMemory [], pool) :=
  if_neg (Bool.eq_false_iff.mp h)

/-- Whether a request is for a vector for which no memory can be reserved. -/
def Request.isUnreservable : Request → Bool
  | .generateVector length isGranted => !isReserved length isGranted
  | _ => false

/-- Whether a request is for bytes for which memory can be reserved. -/
def Request.IsForBytes : Request → Prop
  | .generateVector length isGranted => isReserved length isGranted = true
  | .generateBytes _ | .fillBytes _ | .tryFillBytes _ | .nextWord32 | .nextWord64 => True
  | .incorporate _ | .askEntropy => False

theorem step_eq_generate (pool : EntropyPool) {request : Request} (h : request.IsForBytes) :
    pool.step request =
      match pool.generate request.length with
      | .ok (bytes, pool) => (request.answer bytes, pool)
      | .error error => (request.refusal error, pool) := by
  cases request with
  | incorporate input => exact h.elim
  | askEntropy => exact h.elim
  | generateVector length isGranted =>
      have hReserved : isReserved length isGranted = true := h
      rw [step, if_pos hReserved]
      rfl
  | generateBytes buffer | fillBytes buffer | tryFillBytes buffer => rfl
  | nextWord32 =>
      rw [step, fill, List.length_replicate, Request.length]
      cases pool.generate 4 <;> rfl
  | nextWord64 =>
      rw [step, fill, List.length_replicate, Request.length]
      cases pool.generate 8 <;> rfl

/-- A pool without entropy refuses every request for bytes and stays as it is. -/
theorem step_of_not_hasEntropy {pool : EntropyPool} (h : pool.hasEntropy = false)
    {request : Request} (hBytes : request.IsForBytes) :
    pool.step request = (request.refusal (.precondition .randomPool .noEntropy), pool) := by
  rw [step_eq_generate pool hBytes, generate_of_not_hasEntropy h]

/-- A pool with entropy serves every request for bytes. -/
theorem step_of_hasEntropy {pool : EntropyPool} (h : pool.hasEntropy = true)
    {request : Request} (hBytes : request.IsForBytes) :
    pool.step request =
      (request.answer
        ((ciphertext pool.schedule (blockCount request.length) pool.block).take request.length),
        pool.served request.length) := by
  rw [step_eq_generate pool hBytes, generate_of_hasEntropy h]

/-- The number of blocks that a pool with entropy spends on a request. -/
def Request.blocks : Request → Nat
  | .incorporate _ | .askEntropy => 0
  | .generateVector length isGranted => if isReserved length isGranted then blockCount length else 0
  | request => blockCount request.length

/-- The key after a request. -/
def Request.newKey : Request → Sha256.Digest → Sha256.Digest
  | .incorporate input, key => Sha256.hash (key.val ++ input)
  | _, key => key

/-- A request moves the block of a pool with entropy on by as many encryptions as it takes blocks, and
only entropy changes the key. -/
theorem step_eq_of_hasEntropy {pool : EntropyPool} (h : pool.hasEntropy = true) (request : Request) :
    (pool.step request).2.hasEntropy = true ∧
      (pool.step request).2.key = request.newKey pool.key ∧
      (pool.step request).2.block = pool.schedule.encrypt^[request.blocks] pool.block := by
  by_cases hBytes : request.IsForBytes
  · rw [step_of_hasEntropy h hBytes]
    refine ⟨h, ?_, ?_⟩
    · cases request with
      | incorporate input => exact hBytes.elim
      | _ => rfl
    · have hBlocks : request.blocks = blockCount request.length := by
        cases request with
        | incorporate input | askEntropy => exact hBytes.elim
        | generateVector length isGranted => exact if_pos hBytes
        | generateBytes buffer | fillBytes buffer | tryFillBytes buffer | nextWord32 | nextWord64 =>
            rfl
      rw [hBlocks]
      rfl
  · cases request with
    | incorporate input =>
        exact ⟨rfl, rfl, (Function.iterate_zero_apply pool.schedule.encrypt pool.block).symm⟩
    | askEntropy => exact ⟨h, rfl, rfl⟩
    | generateVector length isGranted =>
        have hUnreserved : isReserved length isGranted = false := Bool.eq_false_iff.mpr hBytes
        rw [step_of_unreserved pool hUnreserved, Request.blocks, hUnreserved]
        exact ⟨h, rfl, rfl⟩
    | generateBytes buffer | fillBytes buffer | tryFillBytes buffer | nextWord32 | nextWord64 =>
        exact absurd trivial hBytes

end Signet.EntropyPool
