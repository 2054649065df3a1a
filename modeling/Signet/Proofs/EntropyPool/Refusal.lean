import Signet.EntropyPool.Use
import Signet.Proofs.EntropyPool.ScalarDraw
import Signet.Proofs.EntropyPool.Uncached

/-! A pool fails closed. Until it is fed it refuses every use that needs it, afterwards none, and a
refused use leaves no trace: a run without its refused uses is the same run. -/
namespace Signet

namespace EntropyPool

/-- Whether a use needs a pool with entropy, and memory for it can be reserved. A request for no bytes
needs one too. -/
def Use.NeedsEntropy : Use → Prop
  | .ask request => request.IsForBytes
  | .sign _ => True

/-- What a use that needs entropy comes to where there is none: an error that comes with the buffer as it
was given, or the stop of a caller that cannot handle errors. -/
def Use.denial : Use → Outcome
  | .ask request => .replied (request.refusal (.precondition .randomPool .noEntropy))
  | .sign _ => .signed (.error (.aborted (.poolRefused (.precondition .randomPool .noEntropy))))

/-- Whether a use is refused, by an error of the pool or by a stop of the caller. -/
def Outcome.isRefusal : Outcome → Bool
  | .replied (.refused _ _) | .replied (.aborted _ _) | .signed (.error (.aborted _)) => true
  | .replied _ | .signed _ => false

/-- All that a use may do to a pool. -/
inductive Performed (pool : EntropyPool) : Use → Outcome → EntropyPool → Prop where
  | fed (input : Bytes) :
      Performed pool (.ask (.incorporate input)) (.replied .done) (pool.incorporate input)
  | told : Performed pool (.ask .askEntropy) (.replied (.hasEntropy pool.hasEntropy)) pool
  | outOfMemory {length : Nat} {isGranted : Bool} (unreserved : isReserved length isGranted = false) :
      Performed pool (.ask (.generateVector length isGranted)) (.replied (.refused .outOfMemory [])) pool
  | denied {use : Use} (hasEntropy : pool.hasEntropy = false) (needs : use.NeedsEntropy) :
      Performed pool use use.denial pool
  | served {use : Use} {outcome : Outcome} {after : EntropyPool} (hasEntropy : pool.hasEntropy = true)
      (needs : use.NeedsEntropy) (served : outcome.isRefusal = false)
      (kept : after.hasEntropy = true) : Performed pool use outcome after

/-- A signature with a pool that has entropy is not refused, whether or not it is made. -/
theorem performed_sign {pool : EntropyPool} (h : pool.hasEntropy = true) (call : SigningCall) :
    Performed pool (.sign call) (pool.perform (.sign call)).1 (pool.perform (.sign call)).2 := by
  rw [perform]
  rcases NamedCurve.p192.curve.drawScalar_of_hasEntropy h with
    ⟨index, nonce, -, hDraw⟩ | ⟨-, hDraw⟩
  · rw [NamedCurve.sign_of_drawScalar_eq_ok _ hDraw]
    refine .served h trivial ?_ ((pool.servedTimes_eq _ _).1.trans h)
    simp [Outcome.isRefusal, NamedCurve.signWith_ne_aborted]
  · rw [NamedCurve.sign_of_drawScalar_eq_error _ hDraw]
    exact .served h trivial rfl h

theorem isRefusal_answer (request : Request) (bytes : Bytes) :
    (Outcome.replied (request.answer bytes)).isRefusal = false := by
  cases request <;> rfl

theorem perform_of_not_hasEntropy {pool : EntropyPool} (h : pool.hasEntropy = false) {use : Use}
    (hNeeds : use.NeedsEntropy) : pool.perform use = (use.denial, pool) := by
  cases use with
  | ask request =>
      rw [perform, step_of_not_hasEntropy h hNeeds]
      rfl
  | sign call =>
      rw [perform, NamedCurve.sign_of_drawScalar_eq_error _ (Curve.drawScalar_of_not_hasEntropy _ h)]
      rfl

theorem perform_of_unreserved (pool : EntropyPool) {length : Nat} {isGranted : Bool}
    (h : isReserved length isGranted = false) :
    pool.perform (.ask (.generateVector length isGranted)) =
      (.replied (.refused .outOfMemory []), pool) := by
  rw [perform, step_of_unreserved pool h]

theorem performed (pool : EntropyPool) (use : Use) :
    Performed pool use (pool.perform use).1 (pool.perform use).2 := by
  by_cases hNeeds : use.NeedsEntropy
  · cases hEntropy : pool.hasEntropy with
    | false =>
        rw [perform_of_not_hasEntropy hEntropy hNeeds]
        exact .denied hEntropy hNeeds
    | true =>
        cases use with
        | ask request =>
            rw [perform, step_of_hasEntropy hEntropy hNeeds]
            exact .served hEntropy hNeeds (isRefusal_answer _ _) hEntropy
        | sign call => exact performed_sign hEntropy call
  · rcases use with (input | buffer | ⟨length, isGranted⟩ | buffer | buffer | _ | _ | _) | call
    case ask.incorporate => exact .fed input
    case ask.askEntropy => exact .told
    case ask.generateVector =>
      have hUnreserved : isReserved length isGranted = false := Bool.eq_false_iff.mpr hNeeds
      rw [perform_of_unreserved pool hUnreserved]
      exact .outOfMemory hUnreserved
    all_goals exact absurd trivial hNeeds

/-- Only what is fed into a pool gives it entropy, and it keeps the entropy that it has. -/
theorem Performed.hasEntropy_iff {pool after : EntropyPool} {use : Use} {outcome : Outcome}
    (h : Performed pool use outcome after) :
    after.hasEntropy = true ↔
      pool.hasEntropy = true ∨ ∃ input, use = .ask (.incorporate input) := by
  cases h with
  | fed input => exact ⟨fun _ => .inr ⟨input, rfl⟩, fun _ => rfl⟩
  | told => simp
  | outOfMemory unreserved => simp
  | denied hasEntropy needs =>
      refine ⟨.inl, ?_⟩
      rintro (hEntropy | ⟨input, rfl⟩)
      · exact hEntropy
      · exact needs.elim
  | served hasEntropy needs served kept => exact ⟨fun _ => .inl hasEntropy, fun _ => kept⟩

/-- With entropy nothing is refused but what no memory can be reserved for. -/
theorem Performed.isRefusal_of_hasEntropy {pool after : EntropyPool} {use : Use} {outcome : Outcome}
    (h : Performed pool use outcome after) (hEntropy : pool.hasEntropy = true)
    (hNeeds : use.NeedsEntropy) : outcome.isRefusal = false := by
  cases h with
  | fed input | told => rfl
  | outOfMemory unreserved => exact absurd (unreserved.symm.trans hNeeds) Bool.false_ne_true
  | denied hasEntropy needs => exact absurd (hasEntropy.symm.trans hEntropy) Bool.false_ne_true
  | served hasEntropy needs served kept => exact served

/-- A refused use leaves the pool as it was. -/
theorem Performed.eq_of_isRefusal {pool after : EntropyPool} {use : Use} {outcome : Outcome}
    (h : Performed pool use outcome after) (hRefusal : outcome.isRefusal = true) : after = pool := by
  cases h with
  | fed input | told => exact absurd hRefusal Bool.false_ne_true
  | outOfMemory unreserved | denied hasEntropy needs => rfl
  | served hasEntropy needs served kept =>
      exact absurd (served.symm.trans hRefusal) Bool.false_ne_true

/-- After a run a pool has entropy if it had some before or was fed on the way. -/
theorem hasEntropy_afterUses_iff (pool : EntropyPool) (uses : List Use) :
    (pool.afterUses uses).hasEntropy = true ↔
      pool.hasEntropy = true ∨ ∃ input, .ask (.incorporate input) ∈ uses := by
  induction uses generalizing pool with
  | nil => simp [afterUses]
  | cons use uses ih =>
      have hMem : (∃ input, .ask (.incorporate input) ∈ use :: uses) ↔
          (∃ input, use = .ask (.incorporate input)) ∨ ∃ input, .ask (.incorporate input) ∈ uses := by
        simp only [List.mem_cons, exists_or, eq_comm (b := use)]
      rw [hMem, ← or_assoc, ← (performed pool use).hasEntropy_iff]
      exact ih _

/-- A run from which refused uses are left out goes as before: what remains of its history is the
history of the uses that remain. -/
theorem history_of_kept (pool : EntropyPool) (uses : List Use) {drop : Use × Outcome → Bool}
    (hDrop : ∀ exchange, drop exchange = true → exchange.2.isRefusal = true) :
    pool.history (((pool.history uses).filter fun exchange => !drop exchange).map Prod.fst) =
      (pool.history uses).filter fun exchange => !drop exchange := by
  induction uses generalizing pool with
  | nil => rfl
  | cons use uses ih =>
      have hHistory : pool.history (use :: uses) =
          (use, (pool.perform use).1) :: (pool.perform use).2.history uses := rfl
      rw [hHistory]
      cases hDropped : drop (use, (pool.perform use).1) with
      | true =>
          have hSame := (performed pool use).eq_of_isRefusal (hDrop _ hDropped)
          rw [List.filter_cons_of_neg (by simp [hDropped]), hSame]
          exact ih pool
      | false =>
          rw [List.filter_cons_of_pos (by simp [hDropped]), List.map_cons]
          exact congrArg (List.cons _) (ih _)

/-- Entropy has been fed into a pool, with a seed at the start or by one of its uses. -/
def Fed (origin : Origin) (uses : List Use) : Prop :=
  (∃ seed, origin = .seeded seed) ∨ ∃ input, .ask (.incorporate input) ∈ uses

/-- A pool fails closed at a use that comes next, given whether it was fed before. -/
structure FailsClosed (fed : Prop) (pool : EntropyPool) (use : Use) : Prop where
  hasEntropy_iff : pool.hasEntropy = true ↔ fed
  /-- A lack of memory is reported before a lack of entropy. It comes with every size that the allocator
  does not grant, and with those that no vector has, whatever the allocator would say. -/
  outOfMemory : ∀ length isGranted, use = .ask (.generateVector length isGranted) → length ≠ 0 →
    isGranted = false ∨ maxVectorSize < length →
    pool.perform use = (.replied (.refused .outOfMemory []), pool)
  denied : ¬fed → use.NeedsEntropy → pool.perform use = (use.denial, pool)
  served : fed → use.NeedsEntropy → (pool.perform use).1.isRefusal = false

theorem failsClosed_of_hasEntropy_iff {fed : Prop} {pool : EntropyPool}
    (h : pool.hasEntropy = true ↔ fed) (use : Use) : FailsClosed fed pool use where
  hasEntropy_iff := h
  outOfMemory _ _ hUse hSome hRefused :=
    hUse ▸ perform_of_unreserved pool (isReserved_eq_false_iff.mpr ⟨hSome, hRefused⟩)
  denied hUnfed hNeeds :=
    perform_of_not_hasEntropy (Bool.eq_false_iff.mpr (mt h.mp hUnfed)) hNeeds
  served hFed hNeeds := (performed pool use).isRefusal_of_hasEntropy (h.mpr hFed) hNeeds

/-- A pool fails closed at each use of every run, and refused uses may be left out of a run without a
change to what the others come to. -/
theorem failsClosed_afterUses_and_history_of_kept (origin : Origin) (uses : List Use) :
    (∀ next, FailsClosed (Fed origin uses) (origin.pool.afterUses uses) next) ∧
      ∀ drop : Use × Outcome → Bool, (∀ exchange, drop exchange = true → exchange.2.isRefusal = true) →
        let kept := (origin.pool.history uses).filter fun exchange => !drop exchange
        origin.pool.history (kept.map Prod.fst) = kept := by
  have hOrigin : origin.pool.hasEntropy = true ↔ ∃ seed, origin = .seeded seed := by
    cases origin with
    | unfed => simp [Origin.pool, empty]
    | seeded seed => simp [Origin.pool, ofSeed, incorporate]
  have hEntropy : (origin.pool.afterUses uses).hasEntropy = true ↔ Fed origin uses := by
    rw [hasEntropy_afterUses_iff, hOrigin, Fed]
  exact ⟨failsClosed_of_hasEntropy_iff hEntropy, fun drop hDrop => history_of_kept _ uses hDrop⟩

/-- An unfed pool refuses even an empty buffer, and serves it once it was fed with nothing; the run goes
as before without the refused request. A vector that the allocator does not grant is refused for want of
memory before and after. -/
theorem failsClosed_emptyBuffer :
    let request : Use := .ask (.tryFillBytes [])
    let fed : Use := .ask (.incorporate [])
    let large : Use := .ask (.generateVector (2 ^ 62) false)
    (¬Fed .unfed [] ∧ request.NeedsEntropy ∧
        empty.perform request =
          (.replied (.refused (.precondition .randomPool .noEntropy) []), empty)) ∧
      (Fed .unfed [fed] ∧ ((empty.afterUses [fed]).perform request).1.isRefusal = false) ∧
      (empty.perform large = (.replied (.refused .outOfMemory []), empty) ∧
        (empty.afterUses [fed]).perform large =
          (.replied (.refused .outOfMemory []), empty.afterUses [fed])) ∧
      (∀ exchange : Use × Outcome, exchange.2.isRefusal = true → exchange.2.isRefusal = true) ∧
      let kept := (empty.history [request, fed]).filter fun exchange => !exchange.2.isRefusal
      empty.history (kept.map Prod.fst) = kept := by
  intro request fed large
  have hUnfed : ¬Fed .unfed [] := by simp [Fed]
  have hFed : Fed .unfed [fed] := .inr ⟨[], by simp [fed]⟩
  have hStart := (failsClosed_afterUses_and_history_of_kept .unfed []).1
  have hLater := (failsClosed_afterUses_and_history_of_kept .unfed [fed]).1
  have hKept := (failsClosed_afterUses_and_history_of_kept .unfed [request, fed]).2
    (fun exchange => exchange.2.isRefusal) fun _ h => h
  have hSome : (2 : Nat) ^ 62 ≠ 0 := by decide
  exact ⟨⟨hUnfed, trivial, (hStart request).denied hUnfed trivial⟩,
    ⟨hFed, (hLater request).served hFed trivial⟩,
    ⟨(hStart large).outOfMemory _ _ rfl hSome (.inl rfl),
      (hLater large).outOfMemory _ _ rfl hSome (.inl rfl)⟩,
    fun _ h => h, hKept⟩

end EntropyPool

end Signet
