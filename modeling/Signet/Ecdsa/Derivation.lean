import Signet.Curve.Named
import Signet.Event

/-! Derivation of secret exponents on P-192 from short seeds. A seed is hashed under a fixed tag to a
candidate of 192 bits; candidates that are too large are hashed again, without the tag, and the
exponent is one more than the first candidate that is not. -/
namespace Signet.Derivation

def seedLength : Nat := 12

/-- The tag and the salt of the derivation, each after its length and before a comma. -/
def tagAndSalt : Bytes := Bytes.ofAscii
  "102:pycryptopp v0.5.3 key derivation algorithm using Tiger hash to generate ECDSA 192-bit secret exponents,16:H1yGNvUONoc0FD1d,"

/-- A hash function that keeps a state between its calls. It takes the pieces of its input in order. -/
abbrev Oracle (σ : Type) := σ → List Bytes → Octets 24 × σ

/-- The hash function Tiger on the joined pieces. -/
def tiger : Oracle Unit := fun _ pieces => (Tiger.hash pieces.flatten, ())

/-- Candidates from this number on are rejected: their successors are no scalars of the curve. -/
def candidateBound : Nat := p192.n - 1

/-- What becomes of a sum that does not fit into its word. A build without checks goes on from zero, one
with checks stops the caller. -/
inductive Overflow where
  | wraps | stops
deriving DecidableEq, Repr

/-- The count that follows another one in a word, or none where the sum stops the caller. -/
def Overflow.next? (overflow : Overflow) (count : UInt32) : Option UInt32 :=
  if overflow = .stops ∧ count + 1 = 0 then none else some (count + 1)

/-- The exponent of the first candidate below the bound, with an event for each one before it. A
rejected candidate is counted and then hashed to get the next one. The search counts as endless after
`trials` rejections. -/
def accept {σ : Type} (hash : Oracle σ) (overflow : Overflow) :
    (trials : Nat) → (rejections : UInt32) → (candidate : Octets 24) → σ →
      Logged (Except Failure (Octets 24)) × σ
  | 0, _, _, state => (.silent (.error .endless), state)
  | trials + 1, rejections, candidate, state =>
      if candidate.toNat < candidateBound then
        (.silent (.ok (Octets.ofNat 24 (candidate.toNat + 1))), state)
      else
        match overflow.next? rejections with
        | none => (.silent (.error (.aborted .addOverflow)), state)
        | some rejections =>
            let (next, state) := hash state [candidate.val]
            let (accepted, state) := accept hash overflow trials rejections next state
            (⟨.candidateRejected rejections :: accepted.events, accepted.result⟩, state)

/-- The exponent that a seed gives with the given hash function, and the state after its calls. Where
nothing is said, the build is one without checks. -/
def deriveWith {σ : Type} (hash : Oracle σ) (trials : Nat) (seed : Bytes) (state : σ)
    (overflow : Overflow := .wraps) : Logged (Except Failure (Octets 24)) × σ :=
  if seed.length ≠ seedLength then
    (.silent (.error (.refused (.precondition .ecdsaSeeded (.seedLength seedLength seed.length)))),
      state)
  else
    let (candidate, state) := hash state [tagAndSalt, seed]
    accept hash overflow trials 0 candidate state

/-- The number of candidates. Hashing again as often as this has come back to an earlier candidate. -/
def candidateCount : Nat := Nat.pow 2 192

/-- The exponent that a seed gives, in a build without checks. -/
def derive (seed : Bytes) : Logged (Except Failure (Octets 24)) :=
  (deriveWith tiger candidateCount seed ()).1

/-- The secret scalar that a seed gives. -/
def deriveScalar (seed : Bytes) : Logged (Except Failure p192.Scalar) :=
  let derived := derive seed
  ⟨derived.events, derived.result.bind fun exponent =>
    match p192.scalar? exponent.toNat with
    | some secret => .ok secret
    | none => .error (.refused (.backend .ecdsaSeeded .noSignature))⟩

end Signet.Derivation
