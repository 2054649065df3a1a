import Signet.Proofs.EntropyPool.Serving

/-! An entropy pool keeps the schedule of its key from one request to the next. A pool that expands its
key anew for every request gives the same replies, and the schedule that is kept is always that of the
current key. -/
namespace Signet

/-- An entropy pool that keeps no schedule. -/
structure UncachedPool where
  key : Sha256.Digest
  block : Aes.Block
  hasEntropy : Bool
deriving DecidableEq

namespace UncachedPool

open EntropyPool

/-- The pool that was never fed. It starts from the same zeros as one that keeps schedules. -/
def empty : UncachedPool := ⟨EntropyPool.empty.key, .zero, false⟩

/-- Entropy changes the key and leaves the seed block alone. -/
def incorporate (pool : UncachedPool) (input : Bytes) : UncachedPool :=
  { pool with key := Sha256.hash (pool.key.val ++ input), hasEntropy := true }

/-- The seed block after it has been encrypted in place a number of times under the current key. -/
def blockAfter (pool : UncachedPool) (count : Nat) : Aes.Block :=
  (Aes.expand pool.key.val).encrypt^[count] pool.block

/-- The concatenation of the blocks that the seed block runs through. -/
def output (pool : UncachedPool) (count : Nat) : Bytes :=
  (List.range count).flatMap fun index => (pool.blockAfter (index + 1)).toBytes

/-- The reply to a request, and the pool after it. -/
def step (pool : UncachedPool) (request : Request) : Reply × UncachedPool :=
  match request with
  | .incorporate input => (.done, pool.incorporate input)
  | .askEntropy => (.hasEntropy pool.hasEntropy, pool)
  | request =>
      let count := blockCount request.length
      if request.isUnreservable then (.refused .outOfMemory [], pool)
      else if pool.hasEntropy then
        (request.answer ((pool.output count).take request.length),
          { pool with block := pool.blockAfter count })
      else (request.refusal (.precondition .randomPool .noEntropy), pool)

/-- The replies to a run of requests. -/
def run (pool : UncachedPool) : List Request → List Reply
  | [] => []
  | request :: requests => (pool.step request).1 :: run (pool.step request).2 requests

theorem step_of_isForBytes (pool : UncachedPool) {request : Request} (h : request.IsForBytes) :
    pool.step request =
      if pool.hasEntropy then
        (request.answer ((pool.output (blockCount request.length)).take request.length),
          { pool with block := pool.blockAfter (blockCount request.length) })
      else (request.refusal (.precondition .randomPool .noEntropy), pool) := by
  cases request with
  | incorporate input | askEntropy => exact h.elim
  | generateVector length isGranted =>
      have hReserved : isReserved length isGranted = true := h
      simp [step, Request.isUnreservable, hReserved]
  | generateBytes buffer | fillBytes buffer | tryFillBytes buffer | nextWord32 | nextWord64 => rfl

end UncachedPool

namespace EntropyPool

/-- The pool without the schedule that it keeps. -/
def uncached (pool : EntropyPool) : UncachedPool := ⟨pool.key, pool.block, pool.hasEntropy⟩

/-- A schedule that is kept is that of the current key. -/
def Coherent (pool : EntropyPool) : Prop := pool.schedule = Aes.expand pool.key.val

theorem coherent_of_cipher_eq_none {pool : EntropyPool} (h : pool.cipher = none) :
    pool.Coherent := by
  rw [Coherent, schedule, h, Option.getD_none]

theorem coherent_served {pool : EntropyPool} (h : pool.Coherent) (length : Nat) :
    (pool.served length).Coherent := by
  rw [Coherent, schedule, served]
  split_ifs
  · exact h
  · exact h

/-- One step keeps the pool coherent and is the step of the pool without a schedule. -/
theorem step_uncached {pool : EntropyPool} (h : pool.Coherent) (request : Request) :
    (pool.step request).2.Coherent ∧
      pool.uncached.step request = ((pool.step request).1, (pool.step request).2.uncached) := by
  by_cases hBytes : request.IsForBytes
  · rw [UncachedPool.step_of_isForBytes _ hBytes]
    cases hEntropy : pool.hasEntropy with
    | false =>
        rw [step_of_not_hasEntropy hEntropy hBytes]
        refine ⟨h, ?_⟩
        simp [uncached, hEntropy]
    | true =>
        rw [step_of_hasEntropy hEntropy hBytes]
        refine ⟨coherent_served h _, ?_⟩
        have hSchedule : Aes.expand pool.key.val = pool.schedule := h.symm
        simp [uncached, hEntropy, served, UncachedPool.output, UncachedPool.blockAfter, ciphertext,
          hSchedule]
  · cases request with
    | incorporate input => exact ⟨coherent_of_cipher_eq_none rfl, rfl⟩
    | askEntropy => exact ⟨h, rfl⟩
    | generateVector length isGranted =>
        have hUnreserved : isReserved length isGranted = false := Bool.eq_false_iff.mpr hBytes
        simp [step_of_unreserved, UncachedPool.step, Request.isUnreservable, hUnreserved, h]
    | generateBytes buffer | fillBytes buffer | tryFillBytes buffer | nextWord32 | nextWord64 =>
        exact absurd trivial hBytes

theorem map_fst_run_eq_run_uncached {pool : EntropyPool} (h : pool.Coherent)
    (requests : List Request) :
    (pool.run requests).map Prod.fst = pool.uncached.run requests := by
  induction requests generalizing pool with
  | nil => rfl
  | cons request requests ih =>
      obtain ⟨hCoherent, hStep⟩ := step_uncached h request
      rw [run, List.map_cons, UncachedPool.run, hStep, ih hCoherent]

/-- Whether a reply hands out bytes. -/
def Reply.HandsOut : Reply → Prop
  | .bytes _ | .word32 _ | .word64 _ => True
  | .done | .hasEntropy _ | .refused _ _ | .aborted _ _ => False

/-- A request for at least one byte that has succeeded. -/
def Draws (exchange : Request × Reply) : Prop := 0 < exchange.1.length ∧ exchange.2.HandsOut

/-- At least one byte has been drawn since entropy was last incorporated. -/
def DrawnSinceFed (exchanges : List (Request × Reply)) : Prop :=
  ∃ earlier exchange later, exchanges = earlier ++ exchange :: later ∧ Draws exchange ∧
    ∀ other ∈ later, ∀ input, other.1 ≠ .incorporate input

theorem not_drawnSinceFed_nil : ¬DrawnSinceFed [] := by
  rintro ⟨earlier, exchange, later, hEq, -⟩
  simp at hEq

theorem drawnSinceFed_concat (exchanges : List (Request × Reply)) (last : Request × Reply) :
    DrawnSinceFed (exchanges ++ [last]) ↔
      Draws last ∨ DrawnSinceFed exchanges ∧ ∀ input, last.1 ≠ .incorporate input := by
  constructor
  · rintro ⟨earlier, exchange, later, hEq, hDraws, hLater⟩
    rcases List.eq_nil_or_concat' later with rfl | ⟨front, final, rfl⟩
    · obtain ⟨-, hLast⟩ := List.append_inj' hEq rfl
      exact .inl (by simpa [List.cons.inj hLast] using hDraws)
    · rw [← List.cons_append, ← List.append_assoc] at hEq
      obtain ⟨hFront, hLast⟩ := List.append_inj' hEq rfl
      refine .inr ⟨⟨earlier, exchange, front, hFront, hDraws, fun other hMem => ?_⟩, ?_⟩
      · exact hLater other (List.mem_append_left _ hMem)
      · rw [List.cons.inj hLast |>.1]
        exact hLater final (by simp)
  · rintro (hDraws | ⟨⟨earlier, exchange, later, rfl, hDraws, hLater⟩, hLast⟩)
    · exact ⟨exchanges, last, [], rfl, hDraws, by simp⟩
    · refine ⟨earlier, exchange, later ++ [last], by simp, hDraws, fun other hMem => ?_⟩
      rcases List.mem_append.mp hMem with hMem | hMem
      · exact hLater other hMem
      · rw [List.mem_singleton.mp hMem]
        exact hLast

/-- Every request other than for incorporation keeps the key, and keeps the schedule exactly as long
as it draws nothing. -/
theorem step_key_cipher (pool : EntropyPool) {request : Request}
    (h : ∀ input, request ≠ .incorporate input) :
    (pool.step request).2.key = pool.key ∧
      (Draws (request, (pool.step request).1) → (pool.step request).2.cipher = some pool.schedule) ∧
      (¬Draws (request, (pool.step request).1) → (pool.step request).2.cipher = pool.cipher) := by
  by_cases hBytes : request.IsForBytes
  · cases hEntropy : pool.hasEntropy with
    | false =>
        rw [step_of_not_hasEntropy hEntropy hBytes]
        refine ⟨rfl, fun hDraws => ?_, fun _ => rfl⟩
        cases request <;> exact hDraws.2.elim
    | true =>
        rw [step_of_hasEntropy hEntropy hBytes]
        refine ⟨rfl, fun hDraws => if_neg hDraws.1.ne', fun hNot => if_pos ?_⟩
        by_contra hLength
        refine hNot ⟨Nat.pos_of_ne_zero hLength, ?_⟩
        cases request <;> trivial
  · cases request with
    | incorporate input => exact absurd rfl (h input)
    | askEntropy => exact ⟨rfl, fun hDraws => hDraws.2.elim, fun _ => rfl⟩
    | generateVector length isGranted =>
        rw [step_of_unreserved pool (Bool.eq_false_iff.mpr hBytes)]
        exact ⟨rfl, fun hDraws => hDraws.2.elim, fun _ => rfl⟩
    | generateBytes buffer | fillBytes buffer | tryFillBytes buffer | nextWord32 | nextWord64 =>
        exact absurd trivial hBytes

/-- The pool after a run of requests. -/
def after (pool : EntropyPool) (requests : List Request) : EntropyPool :=
  requests.foldl (fun pool request => (pool.step request).2) pool

/-- Every pool that a run leads to keeps no schedule but that of its key. -/
theorem coherent_after {pool : EntropyPool} (h : pool.Coherent) (requests : List Request) :
    (pool.after requests).Coherent := by
  induction requests generalizing pool with
  | nil => exact h
  | cons request requests ih => exact ih (step_uncached h request).1

/-- The requests of a run with the replies to them. -/
def exchanges (pool : EntropyPool) (requests : List Request) : List (Request × Reply) :=
  requests.zip ((pool.run requests).map Prod.fst)

theorem after_concat (pool : EntropyPool) (requests : List Request) (last : Request) :
    pool.after (requests ++ [last]) = ((pool.after requests).step last).2 := by
  simp [after]

@[simp] theorem length_run (pool : EntropyPool) (requests : List Request) :
    (pool.run requests).length = requests.length := by
  induction requests generalizing pool with
  | nil => rfl
  | cons request requests ih => simp [run, ih]

theorem run_append (pool : EntropyPool) (first second : List Request) :
    pool.run (first ++ second) = pool.run first ++ (pool.after first).run second := by
  induction first generalizing pool with
  | nil => rfl
  | cons request first ih => simp [run, ih, after]

theorem exchanges_append (pool : EntropyPool) (first second : List Request) :
    pool.exchanges (first ++ second) =
      pool.exchanges first ++ (pool.after first).exchanges second := by
  rw [exchanges, run_append, List.map_append, List.zip_append (by simp)]
  rfl

/-- After any run from a pool that keeps no schedule, the schedule of the current key is kept exactly
if bytes have been drawn since entropy was last incorporated. -/
theorem cipher_after {pool : EntropyPool} (h : pool.cipher = none) (requests : List Request) :
    (DrawnSinceFed (pool.exchanges requests) →
        (pool.after requests).cipher = some (Aes.expand (pool.after requests).key.val)) ∧
      (¬DrawnSinceFed (pool.exchanges requests) → (pool.after requests).cipher = none) := by
  induction requests using List.reverseRecOn with
  | nil => exact ⟨fun hDrawn => absurd hDrawn not_drawnSinceFed_nil, fun _ => h⟩
  | append_singleton requests last ih =>
      have hExchanges : pool.exchanges (requests ++ [last]) =
          pool.exchanges requests ++ [(last, ((pool.after requests).step last).1)] :=
        exchanges_append pool requests [last]
      rw [after_concat, hExchanges, drawnSinceFed_concat]
      generalize hPool : pool.after requests = current at ih ⊢
      by_cases hFeed : ∃ input, last = .incorporate input
      · obtain ⟨input, rfl⟩ := hFeed
        refine ⟨?_, fun _ => rfl⟩
        rintro (hDraws | ⟨-, hOther⟩)
        · exact hDraws.2.elim
        · exact absurd rfl (hOther input)
      · have hOther : ∀ input, last ≠ .incorporate input := not_exists.mp hFeed
        obtain ⟨hKey, hDrawn, hKept⟩ := step_key_cipher current hOther
        rw [hKey]
        by_cases hDraws : Draws (last, (current.step last).1)
        · refine ⟨fun _ => ?_, fun hNot => absurd (.inl hDraws) hNot⟩
          rw [hDrawn hDraws, schedule]
          by_cases hBefore : DrawnSinceFed (pool.exchanges requests)
          · rw [ih.1 hBefore, Option.getD_some]
          · rw [ih.2 hBefore, Option.getD_none]
        · rw [hKept hDraws]
          refine ⟨?_, fun hNot => ih.2 fun hBefore => hNot (.inr ⟨hBefore, hOther⟩)⟩
          rintro (hDraws' | ⟨hBefore, -⟩)
          · exact absurd hDraws' hDraws
          · exact ih.1 hBefore

/-- The states along a run are those after its prefixes. -/
theorem getElem_run (pool : EntropyPool) (requests : List Request) (index : Nat)
    (h : index < (pool.run requests).length) :
    (pool.run requests)[index].2 = pool.after (requests.take (index + 1)) := by
  induction requests generalizing pool index with
  | nil => simp at h
  | cons request requests ih =>
      cases index with
      | zero => rfl
      | succ index =>
          simp only [run, List.getElem_cons_succ]
          exact ih _ index _

theorem take_exchanges (pool : EntropyPool) (requests : List Request) (count : Nat) :
    (pool.exchanges requests).take count = pool.exchanges (requests.take count) := by
  conv_lhs => rw [← List.take_append_drop count requests, exchanges_append]
  by_cases hCount : count ≤ requests.length
  · refine List.take_left' ?_
    simp [exchanges, hCount]
  · have hAll : requests.length ≤ count := (Nat.not_le.mp hCount).le
    rw [List.take_of_length_le hAll, List.drop_of_length_le hAll, exchanges, exchanges, run,
      List.map_nil, List.zip_nil_left, List.append_nil]
    refine List.take_of_length_le ?_
    simp [hAll]

/-- How a pool is started: unfed, or fed with a seed. -/
inductive Origin where
  | unfed
  | seeded (seed : Bytes)

/-- The pool at the start. -/
def Origin.pool : Origin → EntropyPool
  | unfed => empty
  | seeded seed => ofSeed seed

theorem coherent_pool (origin : Origin) : origin.pool.Coherent := by
  cases origin <;> exact coherent_of_cipher_eq_none rfl

/-- The pool without a schedule at the start. -/
def Origin.uncached : Origin → UncachedPool
  | unfed => .empty
  | seeded seed => UncachedPool.empty.incorporate seed

open Classical in
/-- A run of any requests gets the replies of the pool that expands its key for every request. After
each step a schedule is kept exactly if bytes have been drawn since entropy was last incorporated, and
it is that of the current key. -/
theorem run_refines_uncached (origin : Origin) (requests : List Request) :
    (origin.pool.run requests).map Prod.fst = origin.uncached.run requests ∧
      ∀ index : Fin (origin.pool.run requests).length,
        let pool := (origin.pool.run requests)[index].2
        pool.cipher =
          if DrawnSinceFed ((origin.pool.exchanges requests).take (index + 1)) then
            some (Aes.expand pool.key.val)
          else none := by
  have hCipher : origin.pool.cipher = none := by cases origin <;> rfl
  have hUncached : origin.uncached = origin.pool.uncached := by cases origin <;> rfl
  constructor
  · rw [hUncached]
    exact map_fst_run_eq_run_uncached (coherent_of_cipher_eq_none hCipher) requests
  · intro index pool
    have hPool : pool = origin.pool.after (requests.take (index + 1)) :=
      getElem_run origin.pool requests index index.isLt
    obtain ⟨hDrawn, hNotDrawn⟩ := cipher_after hCipher (requests.take (index + 1))
    rw [take_exchanges, hPool]
    split_ifs with h
    · exact hDrawn h
    · exact hNotDrawn h

end EntropyPool

end Signet
