import Signet.Ecdsa.Signature
import Signet.EntropyPool.Run

/-! Pools that give out bytes and the nonces of signatures in one run. -/
namespace Signet.EntropyPool

/-- What the signer on P-192 is called with, apart from the pool. -/
structure SigningCall where
  algorithm : Algorithm
  secret : NamedCurve.p192.curve.Scalar
  message : Bytes
deriving DecidableEq

/-- A use of a pool. -/
inductive Use where
  /-- A request for bytes, or another one to the pool itself. -/
  | ask (request : Request)
  /-- A signature with a nonce from the pool. -/
  | sign (call : SigningCall)
deriving DecidableEq

/-- What a use comes to. -/
inductive Outcome where
  | replied (reply : Reply)
  | signed (result : Except Failure Bytes)

/-- What a use comes to, and the pool after it. -/
def perform (pool : EntropyPool) : Use → Outcome × EntropyPool
  | .ask request =>
      let (reply, pool) := pool.step request
      (.replied reply, pool)
  | .sign call =>
      let (result, pool) := NamedCurve.p192.sign call.algorithm call.secret call.message pool
      (.signed result, pool)

/-- The uses of a run, each with what it comes to. -/
def history (pool : EntropyPool) : List Use → List (Use × Outcome)
  | [] => []
  | use :: uses =>
      let (outcome, pool) := pool.perform use
      (use, outcome) :: history pool uses

/-- The pool after a run of uses. -/
def afterUses (pool : EntropyPool) (uses : List Use) : EntropyPool :=
  uses.foldl (fun pool use => (pool.perform use).2) pool

end Signet.EntropyPool
