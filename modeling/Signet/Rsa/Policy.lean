import Signet.Error

/-! Limits on the sizes of RSA keys and of the seeds that they are generated from. -/
namespace Signet

/-- The limits in force. -/
structure RsaPolicy where
  minKeySizeBits : Nat := 1536
  maxKeySizeBits : Nat := 4096
  minSeedLength : Nat := 8
deriving DecidableEq, Repr

namespace RsaPolicy

/-- The limits for production. -/
def standard : RsaPolicy := {}

/-- The least modulus that has room for the encoding of signatures. Keys of this size are insecure and
serve tests alone. -/
def testFloor : Nat := 522

/-- The greatest modulus that is read back. -/
def ceiling : Nat := 4096

/-- The least length of a seed. -/
def seedFloor : Nat := 8

/-- The limits for tests. -/
def testing : RsaPolicy := { minKeySizeBits := testFloor }

/-- Whether keys are allowed that are too short for production. -/
def isInsecure (policy : RsaPolicy) : Bool := policy.minKeySizeBits < standard.minKeySizeBits

def validate (policy : RsaPolicy) : Except PolicyFault Unit :=
  if policy.minKeySizeBits < testFloor then
    .error (.minKeySizeBelow testFloor policy.minKeySizeBits)
  else if ceiling < policy.maxKeySizeBits then
    .error (.maxKeySizeAbove ceiling policy.maxKeySizeBits)
  else if policy.maxKeySizeBits < policy.minKeySizeBits then
    .error (.limitsCross policy.minKeySizeBits policy.maxKeySizeBits)
  else if policy.minSeedLength < seedFloor then
    .error (.minSeedLengthBelow seedFloor policy.minSeedLength)
  else .ok ()

/-- A policy is valid if and only if its limits are in order. -/
theorem validate_eq_ok_iff {policy : RsaPolicy} : policy.validate = .ok () ↔
    testFloor ≤ policy.minKeySizeBits ∧ policy.minKeySizeBits ≤ policy.maxKeySizeBits ∧
      policy.maxKeySizeBits ≤ ceiling ∧ seedFloor ≤ policy.minSeedLength := by
  rw [validate]
  repeat' split
  all_goals simp only [reduceCtorEq, true_iff, false_iff]; omega

def summary (policy : RsaPolicy) : String :=
  s!"RsaPolicy \x7b min_key_size_bits: {policy.minKeySizeBits}, max_key_size_bits: {policy.maxKeySizeBits}, min_seed_len: {policy.minSeedLength} \x7d"

end RsaPolicy

end Signet
