import Signet.Bytes

/-! The distinguished encoding of tagged elements, with minimal definite lengths, as far as keys use it,
and the two envelopes in which keys are carried. Readers take an element off the front of a byte string
and leave the rest. -/
namespace Signet.Der

/-- The greatest length of the content of an element that is read. -/
def maxLength : Nat := Nat.pow 2 28 - 1

/-- The bytes of a length: one byte below 128, otherwise a byte that counts those of the number. -/
def lengthBytes (length : Nat) : Bytes :=
  if length < 128 then [UInt8.ofNat length]
  else
    let width := Bytes.byteLength length
    UInt8.ofNat (128 + width) :: Bytes.bigEndian width length

/-- The bytes of an element. -/
def element (tag : UInt8) (content : Bytes) : Bytes :=
  tag :: (lengthBytes content.length ++ content)

/-- A length in its only form. -/
def readLength? : Bytes → Option (Nat × Bytes)
  | [] => none
  | first :: rest =>
      if first < 128 then some (first.toNat, rest)
      else
        let width := first.toNat - 128
        let length := Bytes.ofBigEndian (rest.take width)
        if width ≤ rest.length ∧ length ≤ maxLength ∧
            lengthBytes length = first :: rest.take width then
          some (length, rest.drop width)
        else none

/-- An element: its tag and its content. -/
def readElement? : Bytes → Option ((UInt8 × Bytes) × Bytes)
  | [] => none
  | tag :: rest => do
      let (length, rest) ← readLength? rest
      if length ≤ rest.length then some ((tag, rest.take length), rest.drop length) else none

/-- The content of an element with the given tag. -/
def read? (tag : UInt8) (bytes : Bytes) : Option (Bytes × Bytes) := do
  let ((found, content), rest) ← readElement? bytes
  if found = tag then some (content, rest) else none

/-- The content of an element with the given tag that nothing follows. -/
def readWhole? (tag : UInt8) (bytes : Bytes) : Option Bytes := do
  let (content, rest) ← read? tag bytes
  if rest = [] then some content else none

def integerTag : UInt8 := 0x02

def bitStringTag : UInt8 := 0x03

def octetStringTag : UInt8 := 0x04

def sequenceTag : UInt8 := 0x30

def null : Bytes := [0x05, 0x00]

def objectId (content : Bytes) : Bytes := element 0x06 content

def sequence (content : Bytes) : Bytes := element sequenceTag content

/-- The fewest bytes of a natural number that leave its highest bit clear. -/
def naturalContent (value : Nat) : Bytes := Bytes.bigEndian ((value.log2 + 1) / 8 + 1) value

def natural (value : Nat) : Bytes := element integerTag (naturalContent value)

/-- A natural number in its only form. -/
def readNatural? (bytes : Bytes) : Option (Nat × Bytes) := do
  let (content, rest) ← read? integerTag bytes
  let value := Bytes.ofBigEndian content
  if naturalContent value = content then some (value, rest) else none

def bitString (bytes : Bytes) : Bytes := element bitStringTag (0 :: bytes)

/-- The bytes of the content of a bit string that has no unused bits. -/
def bitsOfContent? : Bytes → Option Bytes
  | 0 :: bytes => some bytes
  | _ => none

/-- A public key under an algorithm identifier of the given content. -/
def publicKeyInfo (algorithm key : Bytes) : Bytes :=
  sequence (sequence algorithm ++ bitString key)

/-- The public key that is carried under an algorithm identifier of the given content. -/
def readPublicKeyInfo? (algorithm bytes : Bytes) : Option Bytes := do
  let content ← readWhole? sequenceTag bytes
  let (identifier, rest) ← read? sequenceTag content
  if identifier ≠ algorithm then none
  else bitsOfContent? (← readWhole? bitStringTag rest)

/-- A private key under an algorithm identifier of the given content, without further fields. -/
def privateKeyInfo (algorithm key : Bytes) : Bytes :=
  sequence (natural 0 ++ sequence algorithm ++ element octetStringTag key)

/-- Whether a tag is of the context-specific class. -/
def isContextTag (tag : UInt8) : Bool := tag &&& 0xc0 == 0x80 && tag &&& 0x1f != 0x1f

/-- Whether a tag is one that an element of any kind may have. -/
def isKnownTag (tag : UInt8) : Bool :=
  [0x01, 0x02, 0x03, 0x04, 0x05, 0x06, 0x09, 0x0a, 0x0c, 0x12, 0x13, 0x14, 0x15, 0x16, 0x17, 0x18,
    0x1a, 0x1e, 0x30, 0x31].contains tag || (tag &&& 0xc0 != 0 && tag &&& 0x1f != 0x1f)

/-- Fields that carry one element each under a constructed context-specific tag. -/
def areExplicitFields : (fuel : Nat) → Bytes → Bool
  | 0, bytes => bytes.isEmpty
  | fuel + 1, bytes =>
      if bytes.isEmpty then true
      else
        match readElement? bytes with
        | none => false
        | some ((tag, content), rest) =>
            isContextTag tag && tag &&& 0x20 != 0 && areExplicitFields fuel rest &&
              match readElement? content with
              | some ((inner, _), []) => isKnownTag inner
              | _ => false

/-- The fields that follow a private key: any number of fields with the tag number zero, a public key
with the tag number one exactly if the version asks for it, and explicit fields. -/
def areTrailingFields (hasPublicKey : Bool) : (fuel : Nat) → Bytes → Bool
  | 0, bytes => bytes.isEmpty && !hasPublicKey
  | fuel + 1, bytes =>
      match readElement? bytes with
      | none => bytes.isEmpty && !hasPublicKey
      | some ((tag, content), rest) =>
          if isContextTag tag && tag &&& 0x1f == 0 then areTrailingFields hasPublicKey fuel rest
          else if isContextTag tag && tag &&& 0x1f == 1 then
            hasPublicKey && tag &&& 0x20 == 0 && (bitsOfContent? content).isSome &&
              areExplicitFields fuel rest
          else !hasPublicKey && areExplicitFields (fuel + 1) bytes

/-- The private key that is carried under an algorithm identifier of the given content. Fields after it
are passed over. -/
def readPrivateKeyInfo? (algorithm bytes : Bytes) : Option Bytes := do
  let content ← readWhole? sequenceTag bytes
  let (version, rest) ← readNatural? content
  let (identifier, rest) ← read? sequenceTag rest
  let (key, rest) ← read? octetStringTag rest
  if version ≤ 1 ∧ identifier = algorithm ∧ areTrailingFields (version == 1) rest.length rest then
    some key
  else none

end Signet.Der
