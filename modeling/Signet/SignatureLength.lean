import Signet.Event

/-! Checks of the lengths of signatures. -/
namespace Signet

/-- A signature to be verified must have the length of its family. -/
def checkSignatureLength (algorithm : Algorithm) (expected : Nat) (signature : Bytes) :
    Except Error Unit :=
  if signature.length = expected then .ok ()
  else .error (.precondition algorithm (.signatureLength expected signature.length))

/-- A fresh signature of another length than that of its family stops the signer. -/
def assertSignatureLength (algorithm : Algorithm) (expected : Nat) (signature : Bytes) :
    Logged (Except Abort Unit) :=
  if signature.length = expected then .silent (.ok ())
  else
    ⟨[.signatureLengthMismatch algorithm expected signature.length],
      .error (.signatureLength algorithm expected signature.length)⟩

/-- A signing result whose length has been asserted. -/
def assertSigned (algorithm : Algorithm) (expected : Nat) (signed : Except Failure Bytes) :
    Logged (Except Failure Bytes) :=
  match signed with
  | .error failure => .silent (.error failure)
  | .ok signature =>
      let checked := assertSignatureLength algorithm expected signature
      match checked.result with
      | .ok () => ⟨checked.events, .ok signature⟩
      | .error abort => ⟨checked.events, .error (.aborted abort)⟩

end Signet
