import Signet.Config
import Signet.Json.Grammar

/-! Configuration documents: JSON objects that give any of the limits, in any order and layout and among
members of any other names. -/
namespace Signet

namespace RsaPolicy

/-- Whether the limits are in order, and not beyond what keys and seeds allow. -/
def IsWithinLimits (policy : RsaPolicy) : Prop :=
  522 ≤ policy.minKeySizeBits ∧ policy.minKeySizeBits ≤ policy.maxKeySizeBits ∧
    policy.maxKeySizeBits ≤ 4096 ∧ 8 ≤ policy.minSeedLength

instance (policy : RsaPolicy) : Decidable policy.IsWithinLimits :=
  inferInstanceAs (Decidable (_ ∧ _ ∧ _ ∧ _))

/-- Whether the limits are numbers of 64 bits. -/
def Fits (policy : RsaPolicy) : Prop :=
  policy.minKeySizeBits < Nat.pow 2 64 ∧ policy.maxKeySizeBits < Nat.pow 2 64 ∧
    policy.minSeedLength < Nat.pow 2 64

/-- An object that gives each limit at most once. -/
structure Document where
  object : Json.Object
  given : Partial
  gives_minKeySizeBits :
    Json.Gives "min_key_size_bits" Json.IsNumeral object.members given.minKeySizeBits
  gives_maxKeySizeBits :
    Json.Gives "max_key_size_bits" Json.IsNumeral object.members given.maxKeySizeBits
  gives_minSeedLength : Json.Gives "min_seed_len" Json.IsNumeral object.members given.minSeedLength

end RsaPolicy

namespace Config

/-- A document that gives limits for RSA in one of its members, or none at all. -/
structure Document where
  before : List Char
  object : Json.Object
  after : List Char
  rsa : Option RsaPolicy.Document
  isGap_before : Json.IsGap before
  isGap_after : Json.IsGap after
  gives_rsa : Json.Gives "rsa" (fun text rsa => text = rsa.object.text) object.members rsa

namespace Document

def text (document : Document) : String :=
  String.ofList (document.before ++ document.object.text ++ document.after)

/-- The given limits. -/
def given (document : Document) : RsaPolicy.Partial := document.rsa.elim {} fun rsa => rsa.given

/-- The configuration for production, with the given limits in the place of its own. -/
def config (document : Document) : Config where
  rsa := {
    minKeySizeBits := document.given.minKeySizeBits.getD 1536
    maxKeySizeBits := document.given.maxKeySizeBits.getD 4096
    minSeedLength := document.given.minSeedLength.getD 8 }

/-- The members whose names are read: those of the document, and of the object that gives the limits. -/
def members (document : Document) : List Json.Member :=
  document.object.members ++ document.rsa.elim [] fun rsa => rsa.object.members

/-- Whether every name that is read stands for characters. -/
def IsReadable (document : Document) : Prop := ∀ member ∈ document.members, member.IsReadable

end Document

end Config

end Signet
