import Signet.Ecdsa.Signature
import Signet.Proofs.Bytes
import Signet.Proofs.EntropyPool.Search
import Signet.Proofs.EntropyPool.Serving

/-! Scalars drawn from an entropy pool. Every candidate takes as many blocks as its width needs, and the
first candidate that is a scalar is drawn. If none of the candidates within as many trials as there are
blocks is one, then none ever is. -/
namespace Signet

/-- A block as a number below the number of blocks. -/
def Aes.Block.code (block : Aes.Block) : Fin poolTrials :=
  ⟨Bytes.ofLittleEndian block.toBytes, by
    have h := Bytes.ofLittleEndian_lt block.toBytes
    rwa [length_toBytes, show Nat.pow 256 16 = poolTrials by decide] at h⟩

theorem Aes.Block.toBytes_injective : Function.Injective Aes.Block.toBytes := by
  intro first second h
  obtain ⟨⟨_, _, _, _⟩, ⟨_, _, _, _⟩, ⟨_, _, _, _⟩, ⟨_, _, _, _⟩⟩ := first
  obtain ⟨⟨_, _, _, _⟩, ⟨_, _, _, _⟩, ⟨_, _, _, _⟩, ⟨_, _, _, _⟩⟩ := second
  simpa [toBytes, Column.toBytes, and_assoc] using h

theorem Aes.Block.code_injective : Function.Injective Aes.Block.code := by
  intro first second h
  apply toBytes_injective
  apply Bytes.ofLittleEndian_injective (by rw [length_toBytes, length_toBytes])
  exact Fin.mk.inj h

namespace EntropyPool

theorem schedule_served (pool : EntropyPool) (length : Nat) :
    (pool.served length).schedule = pool.schedule := by
  rw [schedule, served]
  split_ifs <;> rfl

/-- The pool after a number of served requests of the same size. -/
def servedTimes (pool : EntropyPool) (length count : Nat) : EntropyPool :=
  (fun pool => pool.served length)^[count] pool

theorem servedTimes_succ (pool : EntropyPool) (length count : Nat) :
    pool.servedTimes length (count + 1) = (pool.servedTimes length count).served length :=
  Function.iterate_succ_apply' _ count pool

/-- Requests that are served keep the schedule and move the block on. -/
theorem servedTimes_eq (pool : EntropyPool) (length count : Nat) :
    (pool.servedTimes length count).hasEntropy = pool.hasEntropy ∧
      (pool.servedTimes length count).schedule = pool.schedule ∧
      (pool.servedTimes length count).block =
        (pool.schedule.encrypt^[blockCount length])^[count] pool.block := by
  induction count with
  | zero => exact ⟨rfl, rfl, rfl⟩
  | succ count ih =>
      obtain ⟨hEntropy, hSchedule, hBlock⟩ := ih
      rw [servedTimes_succ]
      refine ⟨hEntropy, (schedule_served _ _).trans hSchedule, ?_⟩
      rw [Function.iterate_succ_apply', ← hBlock, ← hSchedule]
      rfl

/-- What a pool with entropy gives when a number of requests of the same size have gone before. -/
theorem draw_servedTimes {pool : EntropyPool} (h : pool.hasEntropy = true) (length count : Nat) :
    (pool.servedTimes length count).draw length =
      .ok ((ciphertext pool.schedule (blockCount length)
        ((pool.schedule.encrypt^[blockCount length])^[count] pool.block)).take length,
        pool.servedTimes length (count + 1)) := by
  obtain ⟨hEntropy, hSchedule, hBlock⟩ := pool.servedTimes_eq length count
  rw [draw, generate_of_hasEntropy (hEntropy.trans h), hSchedule, hBlock, servedTimes_succ]

/-- The number that the bytes of a request stand for, most significant byte first, when a number of
requests of the same width have gone before. -/
def candidate (pool : EntropyPool) (width index : Nat) : Nat :=
  Bytes.ofBigEndian ((ciphertext pool.schedule (blockCount width)
    ((pool.schedule.encrypt^[blockCount width])^[index] pool.block)).take width)

/-- Only as many candidates differ as there are blocks. -/
theorem exists_candidate_eq (pool : EntropyPool) (width count : Nat) :
    ∃ index < poolTrials, pool.candidate width index = pool.candidate width count := by
  obtain ⟨index, hIndex, hBlock⟩ := exists_iterate_eq_of_code Aes.Block.code
    Aes.Block.code_injective (pool.schedule.encrypt^[blockCount width]) pool.block count
  exact ⟨index, hIndex, by rw [candidate, hBlock, candidate]⟩

end EntropyPool

namespace Curve

variable (c : Curve)

/-- A scalar is the first one among the candidates of a pool. -/
def FirstDrawn (pool : EntropyPool) (index : Nat) (scalar : c.Scalar) : Prop :=
  c.scalar? (pool.candidate c.width index) = some scalar ∧
    ∀ earlier < index, c.scalar? (pool.candidate c.width earlier) = none

/-- No candidate of a pool is a scalar. -/
def NeverDrawn (pool : EntropyPool) : Prop :=
  ∀ index, c.scalar? (pool.candidate c.width index) = none

/-- Without entropy no scalar is drawn and the caller is stopped. -/
theorem drawScalar_of_not_hasEntropy {pool : EntropyPool} (h : pool.hasEntropy = false) :
    c.drawScalar pool =
      .error (.aborted (.poolRefused (.precondition .randomPool .noEntropy))) := by
  refine search_eq_error (Nat.pow_pos (by decide)) ?_
  rw [EntropyPool.draw, EntropyPool.generate_of_not_hasEntropy h]
  rfl

/-- A pool with entropy gives the first candidate that is a scalar and ends behind it, or the search
for one has no end. -/
theorem drawScalar_of_hasEntropy {pool : EntropyPool} (h : pool.hasEntropy = true) :
    (∃ index scalar, c.FirstDrawn pool index scalar ∧
        c.drawScalar pool = .ok (scalar, pool.servedTimes c.width (index + 1))) ∨
      c.NeverDrawn pool ∧ c.drawScalar pool = .error .endless := by
  have hAttempt (index : Nat) :
      ((pool.servedTimes c.width index).draw c.width).bind
          (fun drawn => .ok (c.scalar? (Bytes.ofBigEndian drawn.1), drawn.2)) =
      (.ok (c.scalar? (pool.candidate c.width index), pool.servedTimes c.width (index + 1)) :
        Except Failure (Option c.Scalar × EntropyPool)) := by
    rw [EntropyPool.draw_servedTimes h]
    rfl
  let values (index : Nat) := c.scalar? (pool.candidate c.width index)
  by_cases hNever : c.NeverDrawn pool
  · have hEndless : c.drawScalar pool = .error .endless :=
      search_eq_endless (pool.servedTimes c.width) values hAttempt fun index _ => hNever index
    exact .inr ⟨hNever, hEndless⟩
  · obtain ⟨count, hCount⟩ := not_forall.mp hNever
    obtain ⟨index, hIndex, hEq⟩ := pool.exists_candidate_eq c.width count
    have hExists : ∃ index, c.scalar? (pool.candidate c.width index) ≠ none := ⟨index, hEq ▸ hCount⟩
    classical
    obtain ⟨scalar, hScalar⟩ := Option.ne_none_iff_exists'.mp (Nat.find_spec hExists)
    have hBefore : ∀ earlier < Nat.find hExists,
        c.scalar? (pool.candidate c.width earlier) = none :=
      fun earlier hLess => not_not.mp (Nat.find_min hExists hLess)
    have hFirst : Nat.find hExists < poolTrials :=
      (Nat.find_min' hExists (hEq ▸ hCount)).trans_lt hIndex
    exact .inl ⟨Nat.find hExists, scalar, ⟨hScalar, hBefore⟩,
      search_eq_ok (pool.servedTimes c.width) values hAttempt hFirst hScalar hBefore⟩

end Curve

namespace NamedCurve

variable (c : NamedCurve) {algorithm : Algorithm} {secret : c.curve.Scalar} {message : Bytes}
  {pool : EntropyPool}

/-- What a signer comes to once it has drawn a nonce. -/
def signWith (algorithm : Algorithm) (secret nonce : c.curve.Scalar) (message : Bytes) :
    Except Failure Bytes :=
  match EcdsaSignature.make? secret nonce (c.digest message) with
  | none => .error (.refused (.backend algorithm .noSignature))
  | some signature => .ok signature.toBytes

theorem sign_of_drawScalar_eq_ok {nonce : c.curve.Scalar} {after : EntropyPool}
    (h : c.curve.drawScalar pool = .ok (nonce, after)) :
    c.sign algorithm secret message pool = (c.signWith algorithm secret nonce message, after) := by
  simp only [sign, h, signWith]
  cases EcdsaSignature.make? secret nonce (c.digest message) <;> rfl

theorem sign_of_drawScalar_eq_error {failure : Failure}
    (h : c.curve.drawScalar pool = .error failure) :
    c.sign algorithm secret message pool = (.error failure, pool) := by
  simp only [sign, h]

/-- A nonce once drawn, the pool has no more say. -/
theorem signWith_ne_aborted (secret nonce : c.curve.Scalar) (abort : Abort) :
    c.signWith algorithm secret nonce message ≠ .error (.aborted abort) := by
  rw [signWith]
  cases EcdsaSignature.make? secret nonce (c.digest message) <;> simp

end NamedCurve

end Signet
