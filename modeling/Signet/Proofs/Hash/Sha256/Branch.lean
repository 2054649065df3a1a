import Signet.Hash.Sha256.Bench
import Signet.Proofs.Hash.Sha256

/-! The answers of a hasher in a run that keeps copies and goes back to them. Such a run branches: each
branch has the pieces that it was given, and all answers follow from the pieces of the branches. -/
namespace Signet.Sha256

/-- The pieces that were given on a branch of a run, and whether its digest has been taken. -/
structure Branch where
  pieces : List Bytes
  isFinished : Bool
deriving DecidableEq, Repr

namespace Branch

/-- The digest of the joined pieces. -/
def digest (branch : Branch) : Digest := hash branch.pieces.flatten

/-- The answer to a step on a branch. -/
def answer (branch : Branch) : Step → Answer
  | .update _ =>
      if branch.isFinished then .refused (.precondition .sha256 .digestTaken) else .done
  | .digest => .digest branch.digest
  | .hexDigest => .hexDigest (Bytes.toHex branch.digest.val)
  | .save | .restore => .done

/-- The branch after a further piece, which is passed over once the digest has been taken. -/
def extended (branch : Branch) (piece : Bytes) : Branch :=
  if branch.isFinished then branch else ⟨branch.pieces ++ [piece], false⟩

/-- The branch and the kept one after a step. -/
def next (branch kept : Branch) : Step → Branch × Branch
  | .update piece => (branch.extended piece, kept)
  | .digest | .hexDigest => ({ branch with isFinished := true }, kept)
  | .save => (branch, branch)
  | .restore => (kept, kept)

/-- The hasher on a branch. -/
def hasher (branch : Branch) : Hasher :=
  if branch.isFinished then ⟨.empty, some branch.digest⟩ else .ofMessage branch.pieces.flatten

variable {branch : Branch}

@[simp] theorem extended_of_isFinished (h : branch.isFinished = true) (piece : Bytes) :
    branch.extended piece = branch := if_pos h

theorem hasher_of_isFinished (h : branch.isFinished = true) :
    branch.hasher = ⟨.empty, some branch.digest⟩ := if_pos h

theorem hasher_of_not_isFinished (h : branch.isFinished = false) :
    branch.hasher = .ofMessage branch.pieces.flatten := by
  simp [hasher, h]

theorem update_hasher (branch : Branch) (piece : Bytes) : branch.hasher.update piece =
    if branch.isFinished then .error (.precondition .sha256 .digestTaken)
    else .ok (branch.extended piece).hasher := by
  cases h : branch.isFinished with
  | true =>
      rw [hasher_of_isFinished h]
      rfl
  | false =>
      have hExtended : (branch.extended piece).hasher =
          .ofMessage (branch.pieces.flatten ++ piece) := by
        simp [extended, hasher, h]
      rw [hasher_of_not_isFinished h, hExtended, Hasher.update, Hasher.ofMessage, Hasher.ofMessage,
        Absorber.absorb_append]
      rfl

theorem digest_hasher (branch : Branch) : branch.hasher.digest =
    (branch.digest, { branch with isFinished := true : Branch }.hasher) := by
  cases h : branch.isFinished with
  | true =>
      rw [hasher_of_isFinished h]
      rfl
  | false =>
      rw [hasher_of_not_isFinished h, Hasher.digest, Hasher.ofMessage, Absorber.digest_absorb]
      rfl

/-- The hashers of branches answer as the branches do, and stay the hashers of branches. -/
theorem step_hasher (branch kept : Branch) (step : Step) :
    Session.step ⟨branch.hasher, kept.hasher⟩ step =
      (branch.answer step,
        ⟨(branch.next kept step).1.hasher, (branch.next kept step).2.hasher⟩) := by
  cases step with
  | update piece =>
      cases h : branch.isFinished <;> simp [Session.step, update_hasher, answer, next, h]
  | digest => simp [Session.step, digest_hasher, answer, next]
  | hexDigest => simp [Session.step, Hasher.hexDigest, digest_hasher, answer, next]
  | save | restore => rfl

theorem next_of_isFinished (h : branch.isFinished = true) {kept : Branch} {step : Step}
    (hStep : step ≠ .restore) : (branch.next kept step).1 = branch := by
  cases step with
  | update piece => exact extended_of_isFinished h piece
  | digest | hexDigest =>
      obtain ⟨pieces, isFinished⟩ := branch
      exact congrArg (Branch.mk pieces) h.symm
  | save => rfl
  | restore => exact absurd rfl hStep

theorem kept_next {kept : Branch} {step : Step} (hStep : step ≠ .save) :
    (branch.next kept step).2 = kept := by
  cases step with
  | save => exact absurd rfl hStep
  | update | digest | hexDigest | restore => rfl

end Branch

namespace Bench

/-- The bench of the hashers on branches. -/
def hashers (branches : Bench Branch) : Bench Hasher :=
  ⟨branches.current.hasher, fun number => (branches.copies number).hasher⟩

/-- The branches after a step. -/
def follow (branches : Bench Branch) (move : Move) : Bench Branch :=
  let (current, kept) := branches.current.next (branches.copies move.number) move.step
  branches.put current move.number kept

/-- The branches after a run. -/
def after (branches : Bench Branch) (moves : List Move) : Bench Branch := moves.foldl follow branches

/-- The answers of a run on branches. -/
def answers (branches : Bench Branch) : List Move → List Answer
  | [] => []
  | move :: moves => branches.current.answer move.step :: (branches.follow move).answers moves

theorem hashers_put (branches : Bench Branch) (current : Branch) (number : Nat) (kept : Branch) :
    (branches.put current number kept).hashers = branches.hashers.put current.hasher number kept.hasher := by
  simp only [hashers, put, Bench.mk.injEq, true_and]
  funext other
  split <;> rfl

theorem step_hashers (branches : Bench Branch) (move : Move) :
    branches.hashers.step move =
      (branches.current.answer move.step, (branches.follow move).hashers) := by
  rw [follow, hashers_put, step, hashers, Branch.step_hasher]

theorem run_hashers (branches : Bench Branch) (moves : List Move) :
    branches.hashers.run moves = branches.answers moves := by
  induction moves generalizing branches with
  | nil => rfl
  | cons move moves ih => simp [run, answers, step_hashers, ih]

/-- A run that uses one number only is a run of a session. -/
theorem run_map_mk (bench : Bench Hasher) (number : Nat) (steps : List Step) :
    bench.run (steps.map (Move.mk number)) =
      (Session.mk bench.current (bench.copies number)).run steps := by
  induction steps generalizing bench with
  | nil => rfl
  | cons step steps ih => simp [run, Session.run, Bench.step, ih, put]

section After

variable {branches : Bench Branch} {moves : List Move} {number : Nat}

/-- On a finished branch nothing but going back to a copy leads to another branch. -/
theorem current_after_of_isFinished (h : branches.current.isFinished = true)
    (hMoves : ∀ move ∈ moves, move.step ≠ .restore) :
    (branches.after moves).current = branches.current := by
  induction moves generalizing branches with
  | nil => rfl
  | cons move moves ih =>
      obtain ⟨hMove, hRest⟩ := List.forall_mem_cons.mp hMoves
      have hCurrent : (branches.follow move).current = branches.current :=
        Branch.next_of_isFinished h hMove
      rw [← hCurrent] at h
      exact (ih h hRest).trans hCurrent

/-- A copy stays as it is until its number is used again. -/
theorem copies_after (h : ⟨number, .save⟩ ∉ moves) :
    (branches.after moves).copies number = branches.copies number := by
  induction moves generalizing branches with
  | nil => rfl
  | cons move moves ih =>
      obtain ⟨hMove, hRest⟩ := not_or.mp (mt List.mem_cons.mpr h)
      apply (ih hRest).trans
      simp only [follow, put]
      split
      next hNumber =>
        subst hNumber
        exact Branch.kept_next fun hSave => hMove (hSave ▸ rfl)
      next => rfl

/-- Going back to a copy leads to where it was made. -/
theorem current_after_save_restore (h : ⟨number, .save⟩ ∉ moves) :
    (branches.after (⟨number, .save⟩ :: moves ++ [⟨number, .restore⟩])).current = branches.current := by
  have hCopy : ((branches.follow ⟨number, .save⟩).after moves).copies number =
      (branches.follow ⟨number, .save⟩).copies number := copies_after h
  have hMade : (branches.follow ⟨number, .save⟩).copies number = branches.current := if_pos rfl
  rw [hMade] at hCopy
  rw [after, List.cons_append, List.foldl_cons, List.foldl_append]
  exact hCopy

theorem follow_update_of_isFinished (h : branches.current.isFinished = true) (number : Nat)
    (piece : Bytes) : branches.follow ⟨number, .update piece⟩ = branches := by
  obtain ⟨current, copies⟩ := branches
  simp only [follow, Branch.next, put, Branch.extended_of_isFinished h, Bench.mk.injEq, true_and]
  funext other
  split
  next hOther => rw [hOther]
  next => rfl

end After

end Bench

/-- How a hasher is made. -/
inductive Origin where
  | fresh
  | fed (message : Bytes)
deriving DecidableEq, Repr

def Origin.hasher : Origin → Hasher
  | fresh => .empty
  | fed message => .ofMessage message

def Origin.branch : Origin → Branch
  | fresh => ⟨[], false⟩
  | fed message => ⟨[message], false⟩

theorem Origin.hasher_branch (origin : Origin) : origin.branch.hasher = origin.hasher := by
  cases origin with
  | fresh => rfl
  | fed message => simp [branch, hasher, Branch.hasher]

/-- A hasher answers as its branches do: with the digest of the joined pieces that were given on the branch
in use, and with a refusal of further pieces once a digest has been taken. This holds of runs with any
number of copies, and so of sessions, which keep one. After a digest, only going back to a copy leads to
another branch, and a refused piece changes no branch. Going back to a copy leads to the branch on which
it was made. -/
theorem run_eq_answers_of_branches (origin : Origin) :
    (∀ moves, (Bench.start origin.hasher).run moves = (Bench.start origin.branch).answers moves) ∧
    (∀ steps, (Session.start origin.hasher).run steps =
      (Bench.start origin.branch).answers (steps.map (Move.mk 0))) ∧
    ∀ past number,
      let branches := (Bench.start origin.branch).after past
      (∀ moves, (∀ move ∈ moves, move.step ≠ .restore) →
        (branches.after (⟨number, .digest⟩ :: moves)).current =
          { branches.current with isFinished := true }) ∧
      (∀ piece, branches.current.isFinished = true →
        branches.after [⟨number, .update piece⟩] = branches) ∧
      ∀ moves, ⟨number, .save⟩ ∉ moves →
        (branches.after (⟨number, .save⟩ :: moves ++ [⟨number, .restore⟩])).current =
          branches.current := by
  have hHashers : (Bench.start origin.branch).hashers = Bench.start origin.hasher := by
    simp only [Bench.hashers, Bench.start, origin.hasher_branch]
  have hRun (moves : List Move) :
      (Bench.start origin.hasher).run moves = (Bench.start origin.branch).answers moves := by
    rw [← hHashers, Bench.run_hashers]
  refine ⟨hRun, fun steps => ?_, fun past number => ⟨fun moves hMoves => ?_, fun piece hFinished => ?_,
    fun moves hMoves => ?_⟩⟩
  · rw [← hRun, Bench.run_map_mk]
    rfl
  · exact Bench.current_after_of_isFinished rfl hMoves
  · exact Bench.follow_update_of_isFinished hFinished number piece
  · exact Bench.current_after_save_restore hMoves

/-- A copy of a hasher of more than two blocks is made before its digest is taken. The piece that the
finished hasher refuses is taken by the copy. -/
theorem run_copied_before_digest :
    let message := List.replicate 60 (7 : UInt8)
    let first := List.replicate 70 (1 : UInt8)
    let second := List.replicate 3 (2 : UInt8)
    let branches := (Bench.start (Origin.fed message).branch).after [⟨4, .update first⟩]
    (Bench.start (Origin.fed message).hasher).run
        [⟨4, .update first⟩, ⟨1, .save⟩, ⟨0, .digest⟩, ⟨0, .update second⟩, ⟨0, .digest⟩,
          ⟨1, .restore⟩, ⟨0, .update second⟩, ⟨0, .hexDigest⟩] =
      [.done, .done, .digest (hash (message ++ first)), .refused (.precondition .sha256 .digestTaken),
        .digest (hash (message ++ first)), .done, .done,
        .hexDigest (Bytes.toHex (hash (message ++ first ++ second)).val)] ∧
      (branches.after [⟨0, .digest⟩, ⟨0, .update second⟩]).current =
        { branches.current with isFinished := true } ∧
      (branches.after [⟨0, .digest⟩]).after [⟨0, .update second⟩] = branches.after [⟨0, .digest⟩] ∧
      (branches.after [⟨1, .save⟩, ⟨0, .digest⟩, ⟨0, .update second⟩, ⟨1, .restore⟩]).current =
        branches.current := by
  intro message first second branches
  obtain ⟨hRun, -, hBranches⟩ := run_eq_answers_of_branches (.fed message)
  obtain ⟨hFinished, -, -⟩ := hBranches [⟨4, .update first⟩] 0
  obtain ⟨-, hRefused, -⟩ := hBranches [⟨4, .update first⟩, ⟨0, .digest⟩] 0
  obtain ⟨-, -, hCopied⟩ := hBranches [⟨4, .update first⟩] 1
  refine ⟨?_, hFinished [⟨0, .update second⟩] (by simp), hRefused second rfl,
    hCopied [⟨0, .digest⟩, ⟨0, .update second⟩] (by simp)⟩
  rw [hRun]
  simp [Bench.answers, Bench.start, Bench.follow, Bench.put, Branch.answer, Branch.next,
    Branch.extended, Branch.digest, Origin.branch]

end Signet.Sha256
