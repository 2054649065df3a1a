import Signet.Proofs.Cipher.Aes
import Signet.Proofs.EntropyPool.ScalarDraw
import Signet.Proofs.EntropyPool.Uncached

/-! Pools at different positions of one stream never meet. Every operation takes blocks that differ to
blocks that differ, since encryption is injective and entropy leaves the block alone. -/
namespace Signet.EntropyPool

/-- Two pools with entropy that hold the same key at different blocks. -/
structure Apart (first second : EntropyPool) : Prop where
  first_hasEntropy : first.hasEntropy = true
  second_hasEntropy : second.hasEntropy = true
  key_eq : first.key = second.key
  block_ne : first.block ≠ second.block

variable {first second : EntropyPool}

/-- Pools that keep no other schedule than that of their key work with the same one. -/
theorem Apart.schedule_eq (h : Apart first second) (hFirst : first.Coherent)
    (hSecond : second.Coherent) : first.schedule = second.schedule := by
  rw [hFirst, hSecond, h.key_eq]

theorem Apart.step (h : Apart first second) (hFirst : first.Coherent) (hSecond : second.Coherent)
    (request : Request) : Apart (first.step request).2 (second.step request).2 := by
  obtain ⟨hFirstEntropy, hFirstKey, hFirstBlock⟩ := step_eq_of_hasEntropy h.first_hasEntropy request
  obtain ⟨hSecondEntropy, hSecondKey, hSecondBlock⟩ :=
    step_eq_of_hasEntropy h.second_hasEntropy request
  refine ⟨hFirstEntropy, hSecondEntropy, ?_, ?_⟩
  · rw [hFirstKey, hSecondKey, h.key_eq]
  · rw [hFirstBlock, hSecondBlock, h.schedule_eq hFirst hSecond]
    exact (second.schedule.encrypt_injective.iterate request.blocks).ne h.block_ne

theorem Apart.after (h : Apart first second) (hFirst : first.Coherent) (hSecond : second.Coherent)
    (requests : List Request) : Apart (first.after requests) (second.after requests) := by
  induction requests generalizing first second with
  | nil => exact h
  | cons request requests ih =>
      exact ih (h.step hFirst hSecond request) (step_uncached hFirst request).1
        (step_uncached hSecond request).1

/-- The full block of sixteen bytes at an index. -/
def fullBlock (bytes : Bytes) (index : Nat) : Bytes := (bytes.drop (16 * index)).take 16

/-- A request for at least one full block is answered with the bytes that it asks for; each full block
is the next encryption of the seed block. -/
theorem step_of_full_blocks {pool : EntropyPool} (h : pool.hasEntropy = true) {request : Request}
    (hBytes : request.IsForBytes) (hFull : 16 ≤ request.length) :
    ∃ bytes, (pool.step request).1 = .bytes bytes ∧ bytes.length = request.length ∧
      ∀ index, 16 * (index + 1) ≤ request.length →
        fullBlock bytes index = (pool.schedule.encrypt^[index + 1] pool.block).toBytes := by
  have hAnswer (bytes : Bytes) : request.answer bytes = .bytes bytes := by
    cases request with
    | nextWord32 | nextWord64 => exact absurd hFull (by decide)
    | _ => rfl
  rw [step_of_hasEntropy h hBytes]
  refine ⟨_, hAnswer _, ?_, fun index hIndex => ?_⟩
  · rw [List.length_take, length_ciphertext, blockCount]
    omega
  · rw [fullBlock, List.drop_take, List.take_take, Nat.min_eq_left (by omega)]
    exact take_drop_ciphertext _ _ (by rw [blockCount]; omega)

/-- Two pools with entropy that hold the same key at different blocks do so after any run of the same
requests, and the answers to the next request differ in every full block. Every pool that a run leads to
is coherent (`coherent_after`). -/
theorem apart_after_and_fullBlock_ne (hFirst : first.Coherent) (hSecond : second.Coherent)
    (h : Apart first second) (requests : List Request) :
    Apart (first.after requests) (second.after requests) ∧
      ∀ request : Request, request.IsForBytes → 16 ≤ request.length →
        ∃ left right,
          ((first.after requests).step request).1 = .bytes left ∧
          ((second.after requests).step request).1 = .bytes right ∧
          left.length = request.length ∧ right.length = request.length ∧
          ∀ index, 16 * (index + 1) ≤ request.length → fullBlock left index ≠ fullBlock right index := by
  have hAfter := h.after hFirst hSecond requests
  refine ⟨hAfter, fun request hBytes hFull => ?_⟩
  have hSchedule := hAfter.schedule_eq (coherent_after hFirst requests) (coherent_after hSecond requests)
  obtain ⟨left, hLeft, hLeftLength, hLeftBlock⟩ :=
    step_of_full_blocks hAfter.first_hasEntropy hBytes hFull
  obtain ⟨right, hRight, hRightLength, hRightBlock⟩ :=
    step_of_full_blocks hAfter.second_hasEntropy hBytes hFull
  refine ⟨left, right, hLeft, hRight, hLeftLength, hRightLength, fun index hIndex => ?_⟩
  rw [hLeftBlock index hIndex, hRightBlock index hIndex, hSchedule]
  exact Aes.Block.toBytes_injective.ne
    ((Aes.Schedule.encrypt_injective _).iterate (index + 1) |>.ne hAfter.block_ne)

/-- A pool that was drawn from does not meet one that was not when both are fed with the same. -/
theorem apart_after_ofSeed_nil :
    let first := ofSeed []
    let second := first.after [.generateVector 16]
    let fed : List Request := [.incorporate [1]]
    let request : Request := .generateVector 16
    (first.Coherent ∧ second.Coherent ∧ Apart first second ∧ request.IsForBytes ∧
        16 ≤ request.length) ∧
      Apart (first.after fed) (second.after fed) ∧
      ((first.after fed).step request).1 ≠ ((second.after fed).step request).1 := by
  intro first second fed request
  have hFirst : first.Coherent := coherent_pool (.seeded [])
  have hSecond : second.Coherent := coherent_after hFirst _
  have hApart : Apart first second := ⟨rfl, by decide +kernel, by decide +kernel, by decide +kernel⟩
  have hBytes : request.IsForBytes := show isReserved 16 (decide (16 < maxVectorSize)) = true by decide
  obtain ⟨hAfter, hReplies⟩ := apart_after_and_fullBlock_ne hFirst hSecond hApart fed
  obtain ⟨left, right, hLeft, hRight, -, -, hBlocks⟩ := hReplies request hBytes le_rfl
  refine ⟨⟨hFirst, hSecond, hApart, hBytes, le_rfl⟩, hAfter, ?_⟩
  rw [hLeft, hRight]
  rintro ⟨⟩
  exact hBlocks 0 le_rfl rfl

end Signet.EntropyPool
