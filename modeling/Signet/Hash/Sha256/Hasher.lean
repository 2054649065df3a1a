import Signet.Error
import Signet.Hash.Sha256

/-! A SHA-256 hasher that takes a message in pieces. It keeps only the chaining value of the blocks seen
so far and the bytes of the block in progress. -/
namespace Signet.Sha256

/-- What remains of a message that is absorbed block by block. -/
structure Absorber where
  state : State
  /-- The bytes of the unfinished block. -/
  pending : Bytes
  /-- The number of bytes absorbed. -/
  length : Nat
deriving DecidableEq

namespace Absorber

/-- Nothing absorbed. -/
def empty : Absorber := ⟨State.initial, [], 0⟩

/-- A piece of the message absorbed. -/
def absorb (absorber : Absorber) (piece : Bytes) : Absorber :=
  let bytes := absorber.pending ++ piece
  let count := bytes.length / 64
  { state := (Bytes.blocks 64 count bytes).foldl compress absorber.state
    pending := bytes.drop (64 * count)
    length := absorber.length + piece.length }

/-- The digest of all that was absorbed. -/
def digest (absorber : Absorber) : Digest :=
  (absorber.absorb (padding absorber.length)).state.digest

end Absorber

/-- A hasher. Once its digest has been taken it is finished and keeps this digest. -/
structure Hasher where
  absorber : Absorber
  taken : Option Digest
deriving DecidableEq

namespace Hasher

/-- A hasher that has absorbed nothing. -/
def empty : Hasher := ⟨.empty, none⟩

/-- A hasher that has absorbed a message. -/
def ofMessage (message : Bytes) : Hasher := ⟨Absorber.empty.absorb message, none⟩

/-- The hasher after a further piece of the message; refused once the digest has been taken. -/
def update (hasher : Hasher) (piece : Bytes) : Except Error Hasher :=
  match hasher.taken with
  | some _ => .error (.precondition .sha256 .digestTaken)
  | none => .ok { hasher with absorber := hasher.absorber.absorb piece }

/-- The digest, and the finished hasher. -/
def digest (hasher : Hasher) : Digest × Hasher :=
  match hasher.taken with
  | some digest => (digest, hasher)
  | none =>
      let digest := hasher.absorber.digest
      (digest, ⟨.empty, some digest⟩)

/-- The digest in hexadecimal, and the finished hasher. -/
def hexDigest (hasher : Hasher) : String × Hasher :=
  let (digest, hasher) := hasher.digest
  (Bytes.toHex digest.val, hasher)

end Hasher

/-- A step of a run of a hasher. -/
inductive Step where
  | update (piece : Bytes)
  | digest
  | hexDigest
  /-- Keeps a copy of the hasher. -/
  | save
  /-- Goes back to the copy. -/
  | restore
deriving DecidableEq, Repr

/-- What a step answers. -/
inductive Answer where
  | done
  | digest (digest : Digest)
  | hexDigest (text : String)
  | refused (error : Error)
deriving DecidableEq

/-- A hasher and its copy during a run. -/
structure Session where
  hasher : Hasher
  saved : Hasher
deriving DecidableEq

namespace Session

/-- A session at its start, when the copy is the hasher itself. -/
def start (hasher : Hasher) : Session := ⟨hasher, hasher⟩

/-- One step of a run. -/
def step (session : Session) : Step → Answer × Session
  | .update piece =>
      match session.hasher.update piece with
      | .ok hasher => (.done, { session with hasher })
      | .error error => (.refused error, session)
  | .digest =>
      let (digest, hasher) := session.hasher.digest
      (.digest digest, { session with hasher })
  | .hexDigest =>
      let (text, hasher) := session.hasher.hexDigest
      (.hexDigest text, { session with hasher })
  | .save => (.done, { session with saved := session.hasher })
  | .restore => (.done, { session with hasher := session.saved })

/-- The answers of a run of steps. -/
def run (session : Session) : List Step → List Answer
  | [] => []
  | step :: steps =>
      let (answer, session) := session.step step
      answer :: run session steps

end Session

end Signet.Sha256
