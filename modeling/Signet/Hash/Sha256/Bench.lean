import Signet.Hash.Sha256.Hasher

/-! Runs of a hasher that keep any number of copies, each under a number. -/
namespace Signet.Sha256

/-- A step of a run, with the number of the copy that it keeps or goes back to. -/
structure Move where
  number : Nat
  step : Step
deriving DecidableEq, Repr

/-- A value in use, and the copies that are kept beside it. -/
structure Bench (α : Type) where
  current : α
  copies : Nat → α

namespace Bench

variable {α : Type}

/-- A bench at its start, when all copies are the value itself. -/
def start (value : α) : Bench α := ⟨value, fun _ => value⟩

/-- The bench with another value in use and another copy under a number. -/
def put (bench : Bench α) (current : α) (number : Nat) (copy : α) : Bench α :=
  ⟨current, fun other => if other = number then copy else bench.copies other⟩

/-- One step of a run, which is that of a session with the numbered copy. -/
def step (bench : Bench Hasher) (move : Move) : Answer × Bench Hasher :=
  let (answer, session) := Session.step ⟨bench.current, bench.copies move.number⟩ move.step
  (answer, bench.put session.hasher move.number session.saved)

/-- The answers of a run. -/
def run (bench : Bench Hasher) : List Move → List Answer
  | [] => []
  | move :: moves =>
      let (answer, bench) := bench.step move
      answer :: run bench moves

end Bench

end Signet.Sha256
