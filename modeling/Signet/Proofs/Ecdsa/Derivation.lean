import Mathlib.Data.Nat.Find
import Mathlib.Data.Set.Function
import Mathlib.Logic.Function.Iterate
import Mathlib.Order.Interval.Set.Defs
import Signet.Ecdsa.Derivation
import Signet.Proofs.Bytes

/-! The search of the derivation. It is followed for a hash function that answers as it likes, and whose
inputs are recorded. Rejections are counted in a word, which has numbers for fewer of them than there are
candidates. -/
namespace Signet.Derivation

variable {σ : Type}

/-- The hash function with a record of the inputs that it was given, in order. -/
def Oracle.recorded (hash : Oracle σ) : Oracle (σ × List (List Bytes)) := fun state pieces =>
  let (digest, next) := hash state.1 pieces
  (digest, next, state.2 ++ [pieces])

/-- The answer to a digest that is hashed again. -/
def rehash (hash : Oracle σ) (answer : Octets 24 × σ) : Octets 24 × σ := hash answer.2 [answer.1.val]

/-- The candidate with the given index, counted from zero, and the state after the call that gave it. -/
def answer (hash : Oracle σ) (seed : Bytes) (state : σ) (index : Nat) : Octets 24 × σ :=
  (rehash hash)^[index] (hash state [tagAndSalt, seed])

/-- The candidate with the given index. -/
def candidate (hash : Oracle σ) (seed : Bytes) (state : σ) (index : Nat) : Octets 24 :=
  (answer hash seed state index).1

/-- The inputs of the calls that give the candidates up to the given one. The first has the tag and the
seed; each later one is the candidate before it, alone. -/
def inputs (hash : Oracle σ) (seed : Bytes) (state : σ) (index : Nat) : List (List Bytes) :=
  [tagAndSalt, seed] :: (List.range index).map fun earlier => [(candidate hash seed state earlier).val]

/-- The candidate is small enough for its successor to be a scalar. -/
def Accepted (candidate : Octets 24) : Prop := candidate.toNat < candidateBound

/-- The exponent of an accepted candidate. -/
def exponent (candidate : Octets 24) : Octets 24 := Octets.ofNat 24 (candidate.toNat + 1)

/-- The first accepted candidate is the one with the given index. -/
structure FirstAccepted (hash : Oracle σ) (seed : Bytes) (state : σ) (index : Nat) : Prop where
  accepted : Accepted (candidate hash seed state index)
  rejected : ∀ earlier < index, ¬Accepted (candidate hash seed state earlier)

/-- So many rejections are counted before a sum stops the caller. -/
def Overflow.Counts (overflow : Overflow) (rejections : Nat) : Prop :=
  overflow = .stops → rejections < UInt32.size

/-- The events of a number of rejections in a row, each with its number as a word. -/
def reports (first count : Nat) : List Event :=
  (List.range' first count).map fun number => .candidateRejected (.ofNat number)

/-- A run that comes behind earlier events. -/
def behind {α : Type} (events : List Event) (run : Logged α × σ) : Logged α × σ :=
  (⟨events ++ run.1.events, run.1.result⟩, run.2)

theorem behind_silent {α : Type} (events : List Event) (result : α) (state : σ) :
    behind events (.silent result, state) = (⟨events, result⟩, state) := by
  rw [behind, Logged.silent, List.append_nil]

theorem behind_behind {α : Type} (first second : List Event) (run : Logged α × σ) :
    behind first (behind second run) = behind (first ++ second) run := by
  rw [behind, behind, behind, List.append_assoc]

theorem reports_succ (first count : Nat) :
    reports first (count + 1) = [.candidateRejected (.ofNat first)] ++ reports (first + 1) count := by
  rw [reports, reports, List.range'_succ]
  rfl

section Search

variable (hash : Oracle σ) {overflow : Overflow}

theorem Overflow.Counts.mono {count rejections : Nat} (h : overflow.Counts rejections)
    (hLe : count ≤ rejections) : overflow.Counts count :=
  fun hStops => Nat.lt_of_le_of_lt hLe (h hStops)

theorem Overflow.next?_ofNat {count : Nat} (h : overflow.Counts (count + 1)) :
    overflow.next? (.ofNat count) = some (.ofNat (count + 1)) := by
  rw [next?, ← show UInt32.ofNat (count + 1) = .ofNat count + 1 from UInt32.ofNat_add count 1]
  apply if_neg
  rintro ⟨hStops, hZero⟩
  have hNumber : count + 1 = 0 := (UInt32.toNat_ofNat_of_lt' (h hStops)).symm.trans
    (congrArg UInt32.toNat hZero)
  exact Nat.succ_ne_zero count hNumber

/-- The last number of a word has no successor in a build with checks. -/
theorem Overflow.next?_stops {last : Nat} (hLast : last + 1 = UInt32.size) :
    Overflow.stops.next? (.ofNat last) = none := by
  obtain rfl : last = 4294967295 := Nat.succ.inj hLast
  decide

theorem accept_of_accepted (trials : Nat) (rejections : UInt32) (start : Octets 24 × σ)
    (hStart : Accepted start.1) :
    accept hash overflow (trials + 1) rejections start.1 start.2 =
      (.silent (.ok (exponent start.1)), start.2) :=
  if_pos hStart

theorem accept_of_next?_eq_some (trials : Nat) {rejections next : UInt32} {start : Octets 24 × σ}
    (hStart : ¬Accepted start.1) (hNext : overflow.next? rejections = some next) :
    accept hash overflow (trials + 1) rejections start.1 start.2 =
      behind [.candidateRejected next]
        (accept hash overflow trials next (rehash hash start).1 (rehash hash start).2) := by
  have hBound : ¬start.1.toNat < candidateBound := hStart
  rw [accept, if_neg hBound, hNext]
  rfl

theorem accept_of_next?_eq_none (trials : Nat) {rejections : UInt32} {start : Octets 24 × σ}
    (hStart : ¬Accepted start.1) (hNext : overflow.next? rejections = none) :
    accept hash overflow (trials + 1) rejections start.1 start.2 =
      (.silent (.error (.aborted .addOverflow)), start.2) := by
  have hBound : ¬start.1.toNat < candidateBound := hStart
  rw [accept, if_neg hBound, hNext]

/-- Rejected candidates are passed over, each with its event, as long as they are counted. -/
theorem accept_of_rejected {count : Nat} (trials rejections : Nat) (start : Octets 24 × σ)
    (hCounts : overflow.Counts (rejections + count))
    (hRejected : ∀ index < count, ¬Accepted ((rehash hash)^[index] start).1) :
    accept hash overflow (trials + count) (.ofNat rejections) start.1 start.2 =
      behind (reports (rejections + 1) count)
        (accept hash overflow trials (.ofNat (rejections + count)) ((rehash hash)^[count] start).1
          ((rehash hash)^[count] start).2) := by
  induction count generalizing rejections start with
  | zero => rfl
  | succ count ih =>
      have hSum : rejections + 1 + count = rejections + (count + 1) := by omega
      have hStart : ¬Accepted start.1 := hRejected 0 (Nat.succ_pos _)
      have hNext := Overflow.next?_ofNat (hCounts.mono (Nat.add_le_add_left (Nat.succ_pos count) _))
      have hRest := ih (rejections + 1) (rehash hash start) (hSum ▸ hCounts)
        fun index hIndex => hRejected (index + 1) (Nat.succ_lt_succ hIndex)
      rw [← Nat.add_assoc, accept_of_next?_eq_some hash _ hStart hNext, hRest, hSum, behind_behind,
        ← reports_succ, Function.iterate_succ_apply]

variable {seed : Bytes} {state : σ}

theorem deriveWith_of_length_ne (hLength : seed.length ≠ seedLength) (trials : Nat) :
    deriveWith hash trials seed state overflow =
      (.silent (.error (.refused (.precondition .ecdsaSeeded (.seedLength seedLength seed.length)))),
        state) :=
  if_pos hLength

theorem deriveWith_of_length_eq (hLength : seed.length = seedLength) (trials : Nat) :
    deriveWith hash trials seed state overflow =
      accept hash overflow trials 0 (candidate hash seed state 0) (answer hash seed state 0).2 :=
  if_neg (not_not.mpr hLength)

theorem deriveWith_of_rejected (hLength : seed.length = seedLength) {count : Nat}
    (hCounts : overflow.Counts count)
    (hRejected : ∀ earlier < count, ¬Accepted (candidate hash seed state earlier)) (trials : Nat) :
    deriveWith hash (trials + count) seed state overflow =
      behind (reports 1 count)
        (accept hash overflow trials (.ofNat count) (answer hash seed state count).1
          (answer hash seed state count).2) := by
  have hAccept := accept_of_rejected hash trials 0 (hash state [tagAndSalt, seed])
    ((Nat.zero_add count).symm ▸ hCounts) hRejected
  simp only [Nat.zero_add] at hAccept
  rw [deriveWith_of_length_eq hash hLength]
  exact hAccept

theorem deriveWith_of_first (hLength : seed.length = seedLength) {index trials : Nat}
    (hFirst : FirstAccepted hash seed state index) (hCounts : overflow.Counts index)
    (hLess : index < trials) :
    deriveWith hash trials seed state overflow =
      (⟨reports 1 index, .ok (exponent (candidate hash seed state index))⟩,
        (answer hash seed state index).2) := by
  obtain ⟨spare, rfl⟩ : ∃ spare, trials = spare + 1 + index := ⟨trials - index - 1, by omega⟩
  rw [deriveWith_of_rejected hash hLength hCounts hFirst.rejected,
    accept_of_accepted hash spare _ _ hFirst.accepted, behind_silent]
  rfl

theorem deriveWith_of_endless (hLength : seed.length = seedLength) {trials : Nat}
    (hCounts : overflow.Counts trials)
    (hRejected : ∀ index < trials, ¬Accepted (candidate hash seed state index)) :
    deriveWith hash trials seed state overflow =
      (⟨reports 1 trials, .error .endless⟩, (answer hash seed state trials).2) := by
  have hDerived := deriveWith_of_rejected hash hLength hCounts hRejected 0
  rw [Nat.zero_add] at hDerived
  rw [hDerived, accept, behind_silent]

/-- A build with checks stops at the rejection that the word of the counter has no number for. -/
theorem deriveWith_of_overflow (hLength : seed.length = seedLength) {last trials : Nat}
    (hLast : last + 1 = UInt32.size)
    (hRejected : ∀ index < UInt32.size, ¬Accepted (candidate hash seed state index))
    (hTrials : UInt32.size ≤ trials) :
    deriveWith hash trials seed state .stops =
      (⟨reports 1 last, .error (.aborted .addOverflow)⟩, (answer hash seed state last).2) := by
  -- The last number stays a variable: as a numeral it would be unfolded by the iterates of the search.
  rw [← hLast] at hRejected hTrials
  obtain ⟨spare, rfl⟩ := Nat.exists_eq_add_of_le' hTrials
  have hCounts : Overflow.stops.Counts last := fun _ => hLast ▸ Nat.lt_succ_self last
  have hEarlier (earlier : Nat) (h : earlier < last) := hRejected earlier (Nat.lt_succ_of_lt h)
  rw [Nat.add_comm last 1, ← Nat.add_assoc, deriveWith_of_rejected hash hLength hCounts hEarlier,
    accept_of_next?_eq_none hash spare (hRejected last (Nat.lt_succ_self last))
      (Overflow.next?_stops hLast), behind_silent]

/-- All that a search can come to. -/
inductive Searched (overflow : Overflow) (seed : Bytes) (state : σ) (trials : Nat) :
    Logged (Except Failure (Octets 24)) × σ → Prop where
  | found {index : Nat} (first : FirstAccepted hash seed state index)
      (counts : overflow.Counts index) (less : index < trials) :
      Searched overflow seed state trials
        (⟨reports 1 index, .ok (exponent (candidate hash seed state index))⟩,
          (answer hash seed state index).2)
  | endless (rejected : ∀ index < trials, ¬Accepted (candidate hash seed state index))
      (counts : overflow.Counts trials) :
      Searched overflow seed state trials
        (⟨reports 1 trials, .error .endless⟩, (answer hash seed state trials).2)
  | overflowed {last : Nat} (stops : overflow = .stops) (last_succ : last + 1 = UInt32.size)
      (rejected : ∀ index < UInt32.size, ¬Accepted (candidate hash seed state index)) :
      Searched overflow seed state trials
        (⟨reports 1 last, .error (.aborted .addOverflow)⟩, (answer hash seed state last).2)

/-- The first accepted candidate does not come behind any other one. -/
theorem exists_firstAccepted {index : Nat} (hAccepted : Accepted (candidate hash seed state index)) :
    ∃ first ≤ index, FirstAccepted hash seed state first := by
  classical
  have hExists : ∃ index, Accepted (candidate hash seed state index) := ⟨index, hAccepted⟩
  exact ⟨Nat.find hExists, Nat.find_min' hExists hAccepted, Nat.find_spec hExists,
    fun _ hEarlier => Nat.find_min hExists hEarlier⟩

theorem searched_deriveWith (hLength : seed.length = seedLength) (trials : Nat) :
    Searched hash overflow seed state trials (deriveWith hash trials seed state overflow) := by
  obtain ⟨last, hLast⟩ : ∃ last, last + 1 = UInt32.size := ⟨_, rfl⟩
  by_cases hNone : ∀ index < trials, ¬Accepted (candidate hash seed state index)
  · by_cases hCounts : overflow.Counts trials
    · rw [deriveWith_of_endless hash hLength hCounts hNone]
      exact .endless hNone hCounts
    · obtain ⟨rfl, hTrials⟩ := Classical.not_imp.mp hCounts
      have hRejected (index : Nat) (hIndex : index < UInt32.size) :=
        hNone index (Nat.lt_of_lt_of_le hIndex (Nat.not_lt.mp hTrials))
      rw [deriveWith_of_overflow hash hLength hLast hRejected (Nat.not_lt.mp hTrials)]
      exact .overflowed rfl hLast hRejected
  · push Not at hNone
    obtain ⟨accepted, hLess, hAccepted⟩ := hNone
    obtain ⟨index, hLe, hFirst⟩ := exists_firstAccepted hash hAccepted
    have hIndex : index < trials := Nat.lt_of_le_of_lt hLe hLess
    by_cases hCounts : overflow.Counts index
    · rw [deriveWith_of_first hash hLength hFirst hCounts hIndex]
      exact .found hFirst hCounts hIndex
    · obtain ⟨rfl, hLarge⟩ := Classical.not_imp.mp hCounts
      have hRejected (earlier : Nat) (hEarlier : earlier < UInt32.size) :=
        hFirst.rejected earlier (Nat.lt_of_lt_of_le hEarlier (Nat.not_lt.mp hLarge))
      rw [deriveWith_of_overflow hash hLength hLast hRejected
        ((Nat.not_lt.mp hLarge).trans hIndex.le)]
      exact .overflowed rfl hLast hRejected

end Search

/-- A search gives the exponent of the first candidate that is accepted, if it gets as far. -/
theorem result_deriveWith_eq_ok_iff {hash : Oracle σ} {overflow : Overflow} {trials : Nat} {seed : Bytes}
    {state : σ} {derived : Octets 24} :
    (deriveWith hash trials seed state overflow).1.result = .ok derived ↔
      seed.length = seedLength ∧ ∃ index < trials, FirstAccepted hash seed state index ∧
        overflow.Counts index ∧ derived = exponent (candidate hash seed state index) := by
  constructor
  · intro hDerived
    by_cases hLength : seed.length = seedLength
    · generalize hRun : deriveWith hash trials seed state overflow = run at hDerived
      cases hRun ▸ searched_deriveWith hash hLength trials with
      | found first counts less => exact ⟨hLength, _, less, first, counts, (Except.ok.inj hDerived).symm⟩
      | endless rejected counts => cases hDerived
      | overflowed stops last_succ rejected => cases hDerived
    · rw [deriveWith_of_length_ne hash hLength] at hDerived
      cases hDerived
  · rintro ⟨hLength, index, hLess, hFirst, hCounts, rfl⟩
    rw [deriveWith_of_first hash hLength hFirst hCounts hLess]

/-- Recording the inputs leaves the answers as they are and adds the input of every call. -/
theorem answer_recorded (hash : Oracle σ) (seed : Bytes) (state : σ) (index : Nat) :
    answer hash.recorded seed (state, []) index =
      (candidate hash seed state index, (answer hash seed state index).2,
        inputs hash seed state index) := by
  induction index with
  | zero => rfl
  | succ index ih =>
      have hPlain : answer hash seed state (index + 1) = rehash hash (answer hash seed state index) :=
        Function.iterate_succ_apply' _ _ _
      have hInputs : inputs hash seed state (index + 1) =
          inputs hash seed state index ++ [[(candidate hash seed state index).val]] := by
        simp only [inputs, List.range_succ, List.map_append, List.map_cons, List.map_nil,
          List.cons_append]
      rw [answer, Function.iterate_succ_apply', ← answer, ih, hInputs, candidate, candidate, hPlain]
      rfl

theorem candidate_recorded (hash : Oracle σ) (seed : Bytes) (state : σ) (index : Nat) :
    candidate hash.recorded seed (state, []) index = candidate hash seed state index :=
  congrArg Prod.fst (answer_recorded hash seed state index)

theorem FirstAccepted.recorded {hash : Oracle σ} {seed : Bytes} {state : σ} {index : Nat}
    (hFirst : FirstAccepted hash seed state index) :
    FirstAccepted hash.recorded seed (state, []) index where
  accepted := (candidate_recorded hash seed state index).symm ▸ hFirst.accepted
  rejected earlier hEarlier :=
    (candidate_recorded hash seed state earlier).symm ▸ hFirst.rejected earlier hEarlier

/-- The bound is one below the order, also when the subtraction is that of words of 192 bits. -/
theorem candidateBound_eq : candidateBound + 1 = p192.n ∧
    (BitVec.ofNat 192 p192.n - 1).toNat = candidateBound := by
  decide

end Signet.Derivation
