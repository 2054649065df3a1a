import Signet.EntropyPool.Use
import Signet.Proofs.Cipher.Aes
import Signet.Proofs.Cipher.Lookup
import Signet.Proofs.Curve.Scalar
import Signet.Proofs.EntropyPool.ScalarDraw
import Signet.Proofs.EntropyPool.Uncached

/-! The nonces of signatures that share a pool. Each is the first candidate in the stream of the pool
that is a scalar, and since encryption is injective a nonce comes back only where the seed block does. -/
namespace Signet.EntropyPool

section Stream

variable (encrypt : Aes.Block → Aes.Block) (block : Aes.Block)

/-- The candidate for a nonce behind a number of blocks of the stream that a seed block starts: the
first twenty-four bytes of the next two blocks. The other eight are dropped. -/
def nonceCandidate (position : Nat) : Nat :=
  Bytes.ofBigEndian
    (((encrypt^[position + 1] block).toBytes ++ (encrypt^[position + 2] block).toBytes).take 24)

/-- A nonce and the number of blocks before its candidate. -/
structure Nonce where
  position : Nat
  scalar : NamedCurve.p192.curve.Scalar

/-- Whether a candidate is taken for a nonce. -/
def Acceptable (candidate : Nat) : Prop := 0 < candidate ∧ candidate < p192.n

instance (candidate : Nat) : Decidable (Acceptable candidate) := inferInstanceAs (Decidable (_ ∧ _))

/-- Calls of the signer that start behind a number of blocks of a stream come to the given results with
the given nonces, and leave the stream behind another number of blocks. A call that never gets a nonce
does not return, and no other call comes after it. -/
inductive Signings : (start : Nat) → List SigningCall → List (Except Failure Bytes) → List Nonce →
    (stop : Nat) → Prop where
  | done (start : Nat) : Signings start [] [] [] start
  | signed {start rejected stop : Nat} {call : SigningCall} {calls : List SigningCall}
      {scalar : NamedCurve.p192.curve.Scalar} {results : List (Except Failure Bytes)}
      {nonces : List Nonce}
      (rejections : ∀ earlier < rejected,
        ¬Acceptable (nonceCandidate encrypt block (start + 2 * earlier)))
      (drawn : nonceCandidate encrypt block (start + 2 * rejected) = scalar.val)
      (rest : Signings (start + 2 * (rejected + 1)) calls results nonces stop) :
      Signings start (call :: calls)
        (NamedCurve.p192.signWith call.algorithm call.secret scalar call.message :: results)
        (⟨start + 2 * rejected, scalar⟩ :: nonces) stop
  | endless {start : Nat} {calls : List SigningCall}
      (never : ∀ index, ¬Acceptable (nonceCandidate encrypt block (start + 2 * index))) :
      Signings start calls (calls.map fun _ => .error .endless) [] start

end Stream

/-- A candidate shows the first of its two blocks. -/
theorem iterate_eq_of_nonceCandidate_eq {encrypt : Aes.Block → Aes.Block} {block : Aes.Block}
    {first second : Nat}
    (h : nonceCandidate encrypt block first = nonceCandidate encrypt block second) :
    encrypt^[first + 1] block = encrypt^[second + 1] block := by
  have hTake (position : Nat) :
      (((encrypt^[position + 1] block).toBytes ++ (encrypt^[position + 2] block).toBytes).take 24).take
        16 = (encrypt^[position + 1] block).toBytes := by
    rw [List.take_take]
    exact List.take_left' (Aes.Block.length_toBytes _)
  apply Aes.Block.toBytes_injective
  rw [← hTake first, Bytes.ofBigEndian_injective (by simp) h, hTake second]

/-- If candidates at two positions are equal, the stream has come back to its start between them. -/
theorem iterate_sub_of_nonceCandidate_eq {schedule : Aes.Schedule} {block : Aes.Block}
    {first second : Nat}
    (h : nonceCandidate schedule.encrypt block second = nonceCandidate schedule.encrypt block first) :
    schedule.encrypt^[second - first] block = block := by
  have hBlocks := iterate_eq_of_nonceCandidate_eq h
  have hReturn := Function.iterate_cancel schedule.encrypt_injective hBlocks
  rwa [Nat.add_sub_add_right] at hReturn

theorem candidate_eq_nonceCandidate (pool : EntropyPool) (index : Nat) :
    pool.candidate 24 index = nonceCandidate pool.schedule.encrypt pool.block (2 * index) := by
  have hCount : blockCount 24 = 2 := rfl
  rw [candidate, nonceCandidate, hCount, ciphertext_succ, ciphertext_succ, ← Function.iterate_mul]
  rw [ciphertext]
  simp [Function.iterate_succ_apply']

/-- A pool with entropy that is at a position of the stream that a block starts. -/
structure IsAt (pool : EntropyPool) (encrypt : Aes.Block → Aes.Block) (block : Aes.Block)
    (position : Nat) : Prop where
  hasEntropy : pool.hasEntropy = true
  encrypt_eq : pool.schedule.encrypt = encrypt
  block_eq : pool.block = encrypt^[position] block

namespace IsAt

variable {pool : EntropyPool} {encrypt : Aes.Block → Aes.Block} {block : Aes.Block} {position : Nat}

theorem candidate_eq (h : pool.IsAt encrypt block position) (index : Nat) :
    pool.candidate 24 index = nonceCandidate encrypt block (position + 2 * index) := by
  have hShift (count : Nat) : 2 * index + count + position = position + 2 * index + count := by omega
  rw [candidate_eq_nonceCandidate, h.encrypt_eq, h.block_eq, nonceCandidate, nonceCandidate,
    ← Function.iterate_add_apply, ← Function.iterate_add_apply, hShift, hShift]

/-- Each request for a candidate takes two blocks. -/
theorem servedTimes (h : pool.IsAt encrypt block position) (count : Nat) :
    (pool.servedTimes 24 count).IsAt encrypt block (position + 2 * count) := by
  obtain ⟨hEntropy, hSchedule, hBlock⟩ := pool.servedTimes_eq 24 count
  have hCount : blockCount 24 = 2 := rfl
  refine ⟨hEntropy.trans h.hasEntropy, hSchedule ▸ h.encrypt_eq, ?_⟩
  rw [hBlock, h.encrypt_eq, h.block_eq, hCount, ← Function.iterate_mul,
    ← Function.iterate_add_apply, Nat.add_comm]

/-- A nonce is the first acceptable candidate from the position of the pool on. -/
theorem drawScalar_cases (h : pool.IsAt encrypt block position) :
    (∃ rejected scalar,
        (∀ earlier < rejected, ¬Acceptable (nonceCandidate encrypt block (position + 2 * earlier))) ∧
        nonceCandidate encrypt block (position + 2 * rejected) = scalar.val ∧
        NamedCurve.p192.curve.drawScalar pool =
          .ok (scalar, pool.servedTimes 24 (rejected + 1))) ∨
      (∀ index, ¬Acceptable (nonceCandidate encrypt block (position + 2 * index))) ∧
        NamedCurve.p192.curve.drawScalar pool = .error .endless := by
  have hRejected {index : Nat} (hNone : p192.scalar? (pool.candidate 24 index) = none) :
      ¬Acceptable (nonceCandidate encrypt block (position + 2 * index)) := by
    rw [← h.candidate_eq]
    exact Curve.scalar?_eq_none_iff.mp hNone
  rcases p192.drawScalar_of_hasEntropy h.hasEntropy with
    ⟨rejected, scalar, ⟨hDrawn, hBefore⟩, hDraw⟩ | ⟨hNever, hDraw⟩
  · refine .inl ⟨rejected, scalar, fun earlier hLess => hRejected (hBefore earlier hLess), ?_, hDraw⟩
    rw [← h.candidate_eq]
    exact Curve.scalar?_eq_some_iff.mp hDrawn
  · exact .inr ⟨fun index => hRejected (hNever index), hDraw⟩

end IsAt

/-- A signature whose nonce is drawn. -/
theorem perform_sign_of_drawn {pool after : EntropyPool} {call : SigningCall}
    {scalar : NamedCurve.p192.curve.Scalar}
    (h : NamedCurve.p192.curve.drawScalar pool = .ok (scalar, after)) :
    pool.perform (.sign call) =
      (.signed (NamedCurve.p192.signWith call.algorithm call.secret scalar call.message), after) := by
  rw [perform, NamedCurve.sign_of_drawScalar_eq_ok _ h]

theorem coherent_servedTimes {pool : EntropyPool} (h : pool.Coherent) (length count : Nat) :
    (pool.servedTimes length count).Coherent := by
  induction count with
  | zero => exact h
  | succ count ih =>
      rw [servedTimes_succ]
      exact coherent_served ih length

theorem coherent_perform {pool : EntropyPool} (h : pool.Coherent) (use : Use) :
    (pool.perform use).2.Coherent := by
  cases use with
  | ask request => exact (step_uncached h request).1
  | sign call =>
      cases hEntropy : pool.hasEntropy with
      | false =>
          rw [perform, NamedCurve.sign_of_drawScalar_eq_error _
            (Curve.drawScalar_of_not_hasEntropy _ hEntropy)]
          exact h
      | true =>
          rcases NamedCurve.p192.curve.drawScalar_of_hasEntropy hEntropy with
            ⟨index, scalar, -, hDraw⟩ | ⟨-, hDraw⟩
          · rw [perform_sign_of_drawn hDraw]
            exact coherent_servedTimes h _ _
          · rw [perform, NamedCurve.sign_of_drawScalar_eq_error _ hDraw]
            exact h

/-- Also in runs with signatures a pool keeps no schedule but that of its key. -/
theorem coherent_afterUses {pool : EntropyPool} (h : pool.Coherent) (uses : List Use) :
    (pool.afterUses uses).Coherent := by
  induction uses generalizing pool with
  | nil => exact h
  | cons use uses ih => exact ih (coherent_perform h use)

/-- Where the search for a nonce has no end, no signature is ever made. -/
theorem signings_of_endless {pool : EntropyPool}
    (h : NamedCurve.p192.curve.drawScalar pool = .error .endless) (calls : List SigningCall) :
    (pool.history (calls.map .sign)).map Prod.snd = calls.map (fun _ => .signed (.error .endless)) ∧
      pool.afterUses (calls.map .sign) = pool := by
  induction calls with
  | nil => exact ⟨rfl, rfl⟩
  | cons call calls ih =>
      have hPerform : pool.perform (.sign call) = (.signed (.error .endless), pool) := by
        rw [perform, NamedCurve.sign_of_drawScalar_eq_error _ h]
      simp only [List.map_cons, history, afterUses, List.foldl_cons, hPerform]
      exact ⟨congrArg (List.cons _) ih.1, ih.2⟩

/-- Calls of the signer on a pool that is at a position of a stream take their nonces from there on. -/
theorem exists_signings {pool : EntropyPool} {encrypt : Aes.Block → Aes.Block} {block : Aes.Block}
    {start : Nat} (h : pool.IsAt encrypt block start) (calls : List SigningCall) :
    ∃ results nonces stop, Signings encrypt block start calls results nonces stop ∧
      (pool.history (calls.map .sign)).map Prod.snd = results.map .signed ∧
      (pool.afterUses (calls.map .sign)).IsAt encrypt block stop := by
  induction calls generalizing pool start with
  | nil => exact ⟨[], [], start, .done start, rfl, h⟩
  | cons call calls ih =>
      rcases h.drawScalar_cases with ⟨rejected, scalar, hRejections, hDrawn, hDraw⟩ | ⟨hNever, hDraw⟩
      · obtain ⟨results, nonces, stop, hSignings, hResults, hStop⟩ := ih (h.servedTimes (rejected + 1))
        refine ⟨_, _, stop, .signed hRejections hDrawn hSignings, ?_, ?_⟩
        · rw [List.map_cons, history, perform_sign_of_drawn hDraw]
          exact congrArg (List.cons _) hResults
        · rw [List.map_cons, afterUses, List.foldl_cons, perform_sign_of_drawn hDraw]
          exact hStop
      · obtain ⟨hResults, hStop⟩ := signings_of_endless hDraw (call :: calls)
        refine ⟨_, [], start, .endless hNever, ?_, hStop.symm ▸ h⟩
        rw [hResults, List.map_map]
        rfl

/-- The nonces of a run stand at later and later positions, from the start of the run on. -/
theorem Signings.positions {encrypt : Aes.Block → Aes.Block} {block : Aes.Block} {start stop : Nat}
    {calls : List SigningCall} {results : List (Except Failure Bytes)} {nonces : List Nonce}
    (h : Signings encrypt block start calls results nonces stop) :
    (∀ nonce ∈ nonces, start ≤ nonce.position ∧
        nonceCandidate encrypt block nonce.position = nonce.scalar.val) ∧
      nonces.Pairwise fun first second => first.position < second.position := by
  induction h with
  | done start => exact ⟨by simp, .nil⟩
  | @signed start rejected stop call calls scalar results nonces rejections drawn rest ih =>
      refine ⟨?_, .cons (fun nonce hMem => ?_) ih.2⟩
      · intro nonce hMem
        rcases List.mem_cons.mp hMem with rfl | hMem
        · exact ⟨Nat.le_add_right .., drawn⟩
        · obtain ⟨hPosition, hDrawn⟩ := ih.1 nonce hMem
          exact ⟨by omega, hDrawn⟩
      · have hPosition := (ih.1 nonce hMem).1
        show start + 2 * rejected < nonce.position
        omega
  | endless never => exact ⟨by simp, .nil⟩

/-- Signatures that share a pool take their nonces from its stream in order, each the first acceptable
candidate behind the one before. If two of them are equal, then the seed block has come back to itself
after as many encryptions as lie between their positions. Every pool that a run leads to is coherent
(`coherent_afterUses`), so this holds of a pool wherever it comes from. -/
theorem signings_and_return_of_equal_nonces {pool : EntropyPool} (hCoherent : pool.Coherent)
    (hEntropy : pool.hasEntropy = true) (calls : List SigningCall) :
    let encrypt := (Aes.expand pool.key.val).encrypt
    ∃ results nonces stop, Signings encrypt pool.block 0 calls results nonces stop ∧
      (pool.history (calls.map .sign)).map Prod.snd = results.map .signed ∧
      (pool.afterUses (calls.map .sign)).block = encrypt^[stop] pool.block ∧
      nonces.Pairwise fun first second => first.position < second.position ∧
        (first.scalar = second.scalar →
          encrypt^[second.position - first.position] pool.block = pool.block) := by
  intro encrypt
  have hStart : pool.IsAt encrypt pool.block 0 := ⟨hEntropy, by rw [hCoherent], rfl⟩
  obtain ⟨results, nonces, stop, hSignings, hResults, hStop⟩ := exists_signings hStart calls
  refine ⟨results, nonces, stop, hSignings, hResults, hStop.block_eq, ?_⟩
  obtain ⟨hDrawn, hPositions⟩ := hSignings.positions
  refine hPositions.imp_of_mem fun {first second} hFirst hSecond hLess => ⟨hLess, fun hEq => ?_⟩
  apply iterate_sub_of_nonceCandidate_eq
  rw [(hDrawn first hFirst).2, (hDrawn second hSecond).2, hEq]

/-- Two signatures with the pool of the empty seed behind its first block, where the next candidate is
acceptable. -/
theorem signings_ofSeed_nil :
    let pool := (ofSeed []).afterUses [.ask .nextWord32]
    let encrypt := (Aes.expand pool.key.val).encrypt
    let calls : List SigningCall :=
      [⟨.ecdsa, ⟨1, by decide⟩, []⟩, ⟨.ecdsaSeeded, ⟨2, by decide⟩, [7]⟩]
    (pool.Coherent ∧ pool.hasEntropy = true ∧ Acceptable (nonceCandidate encrypt pool.block 0)) ∧
      ∃ results nonces stop, Signings encrypt pool.block 0 calls results nonces stop ∧
        (pool.history (calls.map .sign)).map Prod.snd = results.map .signed ∧
        (pool.afterUses (calls.map .sign)).block = encrypt^[stop] pool.block ∧
        nonces.Pairwise fun first second => first.position < second.position ∧
          (first.scalar = second.scalar →
            encrypt^[second.position - first.position] pool.block = pool.block) := by
  intro pool encrypt calls
  have hCoherent : pool.Coherent := coherent_afterUses (coherent_pool (.seeded [])) _
  obtain ⟨hEntropy, hKey, hBlock⟩ : pool.hasEntropy = true ∧ pool.key = (ofSeed []).key ∧
      pool.block = (ofSeed []).schedule.encrypt .zero :=
    step_eq_of_hasEntropy (show (ofSeed []).hasEntropy = true from rfl) .nextWord32
  have hAcceptable : Acceptable (nonceCandidate encrypt pool.block 0) := by
    have hEncrypt : encrypt = (Aes.expand (ofSeed []).key.val).evaluate := by
      rw [← hKey]
      exact Aes.Schedule.encrypt_eq_evaluate _
    rw [hBlock, hEncrypt, Aes.Schedule.encrypt_eq_evaluate]
    decide +kernel
  exact ⟨⟨hCoherent, hEntropy, hAcceptable⟩,
    signings_and_return_of_equal_nonces hCoherent hEntropy calls⟩

end Signet.EntropyPool
