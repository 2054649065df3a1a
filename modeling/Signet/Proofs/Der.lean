import Mathlib.Data.Nat.Log
import Signet.Der
import Signet.Proofs.Bytes

/-! Reading and writing of tagged elements. What a reader accepts is what the writer gives, byte for
byte, so that no element has two encodings and the encodings of different elements differ. -/
namespace Signet.Der

section Width

theorem lt_pow_of_log2_lt {value width : Nat} (h : value.log2 < 8 * width) : value < 256 ^ width := by
  have hPow : (256 : Nat) ^ width = 2 ^ (8 * width) := by rw [Nat.pow_mul]
  have hLess : value < 2 ^ (value.log2 + 1) := Nat.lt_log2_self
  rw [hPow]
  exact Nat.lt_of_lt_of_le hLess (Nat.pow_le_pow_right (by decide) h)

theorem lt_pow_byteLength (value : Nat) : value < 256 ^ Bytes.byteLength value :=
  lt_pow_of_log2_lt (by rw [Bytes.byteLength]; omega)

theorem log2_mono {left right : Nat} (h : left ≤ right) : left.log2 ≤ right.log2 := by
  rw [Nat.log2_eq_log_two, Nat.log2_eq_log_two]
  exact Nat.log_mono_right h

theorem byteLength_mono {left right : Nat} (h : left ≤ right) :
    Bytes.byteLength left ≤ Bytes.byteLength right := by
  have hLog := log2_mono h
  rw [Bytes.byteLength, Bytes.byteLength]
  omega

end Width

section Length

@[simp] theorem lengthBytes_of_lt {length : Nat} (h : length < 128) :
    lengthBytes length = [UInt8.ofNat length] := if_pos h

theorem lengthBytes_of_ge {length : Nat} (h : ¬length < 128) :
    lengthBytes length = UInt8.ofNat (128 + Bytes.byteLength length) ::
      Bytes.bigEndian (Bytes.byteLength length) length := if_neg h

theorem length_lengthBytes (length : Nat) : (lengthBytes length).length =
    if length < 128 then 1 else 1 + Bytes.byteLength length := by
  split
  next h => rw [lengthBytes_of_lt h]; rfl
  next h => rw [lengthBytes_of_ge h, List.length_cons, Bytes.length_bigEndian, Nat.add_comm]

theorem length_lengthBytes_mono {left right : Nat} (h : left ≤ right) :
    (lengthBytes left).length ≤ (lengthBytes right).length := by
  have hWidth := byteLength_mono h
  rw [length_lengthBytes, length_lengthBytes]
  split <;> split <;> omega

/-- A length is read if and only if it stands there in the form in which it is written. -/
theorem readLength?_eq_some_iff {bytes rest : Bytes} {length : Nat} :
    readLength? bytes = some (length, rest) ↔
      length ≤ maxLength ∧ bytes = lengthBytes length ++ rest := by
  constructor
  · intro hRead
    cases bytes with
    | nil => cases hRead
    | cons first tail =>
        rw [readLength?] at hRead
        by_cases hShort : first < 128
        · rw [if_pos hShort] at hRead
          obtain ⟨rfl, rfl⟩ : first.toNat = length ∧ tail = rest := by simpa using hRead
          have hLess : first.toNat < 128 := hShort
          have hMax : 128 ≤ maxLength := by decide
          rw [lengthBytes_of_lt hLess, UInt8.ofNat_toNat]
          exact ⟨by omega, rfl⟩
        · rw [if_neg hShort] at hRead
          simp only at hRead
          split at hRead
          next hForm =>
            obtain ⟨hWidth, hMax, hBytes⟩ := hForm
            obtain ⟨rfl, rfl⟩ := Prod.mk.inj (Option.some.inj hRead)
            rw [hBytes, List.cons_append, List.take_append_drop]
            exact ⟨hMax, rfl⟩
          next => cases hRead
  · rintro ⟨hMax, rfl⟩
    by_cases hShort : length < 128
    · have hFirst : UInt8.ofNat length < 128 := by
        rw [UInt8.lt_iff_toNat_lt, UInt8.toNat_ofNat_of_lt' (show length < 256 by omega)]
        exact hShort
      rw [lengthBytes_of_lt hShort, List.singleton_append, readLength?, if_pos hFirst,
        UInt8.toNat_ofNat_of_lt' (show length < 256 by omega)]
    · have hWidth : Bytes.byteLength length ≤ 4 :=
        Nat.le_trans (byteLength_mono hMax) (by decide)
      have hToNat : (UInt8.ofNat (128 + Bytes.byteLength length)).toNat =
          128 + Bytes.byteLength length :=
        UInt8.toNat_ofNat_of_lt' (show 128 + Bytes.byteLength length < 256 by omega)
      have hFirst : ¬UInt8.ofNat (128 + Bytes.byteLength length) < 128 := by
        rw [UInt8.lt_iff_toNat_lt, hToNat]
        exact Nat.not_lt.mpr (Nat.le_add_right _ _)
      have hTake : (Bytes.bigEndian (Bytes.byteLength length) length ++ rest).take
          (Bytes.byteLength length) = Bytes.bigEndian (Bytes.byteLength length) length :=
        List.take_left' (Bytes.length_bigEndian _ _)
      have hDrop : (Bytes.bigEndian (Bytes.byteLength length) length ++ rest).drop
          (Bytes.byteLength length) = rest := List.drop_left' (Bytes.length_bigEndian _ _)
      have hNumber := Bytes.ofBigEndian_bigEndian_of_lt (lt_pow_byteLength length)
      rw [lengthBytes_of_ge hShort, List.cons_append, readLength?, if_neg hFirst, hToNat,
        Nat.add_sub_cancel_left]
      simp only [hTake, hDrop, hNumber]
      refine if_pos ⟨?_, hMax, lengthBytes_of_ge hShort⟩
      rw [List.length_append, Bytes.length_bigEndian]
      exact Nat.le_add_right _ _

end Length

section Element

variable {tag : UInt8} {content rest bytes : Bytes}

/-- The number of bytes of an element whose content has the given length. -/
def elementLength (content : Nat) : Nat := 1 + (lengthBytes content).length + content

theorem add_two_le_elementLength (content : Nat) : content + 2 ≤ elementLength content := by
  have hLength := length_lengthBytes content
  rw [elementLength]
  split at hLength <;> omega

theorem elementLength_le (content : Nat) (h : content ≤ maxLength) :
    elementLength content ≤ content + 6 := by
  have hLength := length_lengthBytes_mono h
  have hMax : (lengthBytes maxLength).length = 5 := by decide
  rw [elementLength]
  omega

@[simp] theorem length_element (tag : UInt8) (content : Bytes) :
    (element tag content).length = elementLength content.length := by
  rw [element, List.length_cons, List.length_append, elementLength]
  omega

theorem readElement?_eq_some_iff :
    readElement? bytes = some ((tag, content), rest) ↔
      content.length ≤ maxLength ∧ bytes = element tag content ++ rest := by
  constructor
  · intro hRead
    cases bytes with
    | nil => cases hRead
    | cons first tail =>
        rw [readElement?] at hRead
        obtain ⟨⟨length, after⟩, hLength, hBody⟩ := Option.bind_eq_some_iff.mp hRead
        obtain ⟨hMax, rfl⟩ := readLength?_eq_some_iff.mp hLength
        simp only at hBody
        split at hBody
        next hFits =>
          obtain ⟨⟨rfl, rfl⟩, rfl⟩ :
              (first = tag ∧ after.take length = content) ∧ after.drop length = rest := by
            simpa using hBody
          rw [element, List.length_take_of_le hFits, List.cons_append, List.append_assoc,
            List.take_append_drop]
          exact ⟨hMax, rfl⟩
        next => cases hBody
  · rintro ⟨hMax, rfl⟩
    have hLength : readLength? (lengthBytes content.length ++ (content ++ rest)) =
        some (content.length, content ++ rest) := readLength?_eq_some_iff.mpr ⟨hMax, rfl⟩
    rw [element, List.cons_append, List.append_assoc, readElement?, hLength]
    simp

theorem read?_eq_some_iff :
    read? tag bytes = some (content, rest) ↔
      content.length ≤ maxLength ∧ bytes = element tag content ++ rest := by
  rw [← readElement?_eq_some_iff, read?]
  constructor
  · intro hRead
    obtain ⟨⟨⟨found, inner⟩, after⟩, hElement, hBody⟩ := Option.bind_eq_some_iff.mp hRead
    simp only at hBody
    split at hBody
    next hTag =>
      obtain ⟨rfl, rfl⟩ := Prod.mk.inj (Option.some.inj hBody)
      rw [hElement, hTag]
    next => cases hBody
  · intro hElement
    simp [hElement]

theorem readWhole?_eq_some_iff :
    readWhole? tag bytes = some content ↔
      content.length ≤ maxLength ∧ bytes = element tag content := by
  constructor
  · intro hRead
    obtain ⟨⟨inner, after⟩, hInner, hBody⟩ := Option.bind_eq_some_iff.mp hRead
    obtain ⟨hMax, rfl⟩ := read?_eq_some_iff.mp hInner
    simp only at hBody
    split at hBody
    next hAfter =>
      obtain rfl := Option.some.inj hBody
      rw [hAfter, List.append_nil]
      exact ⟨hMax, rfl⟩
    next => cases hBody
  · rintro ⟨hMax, rfl⟩
    have hInner : read? tag (element tag content) = some (content, []) :=
      read?_eq_some_iff.mpr ⟨hMax, (List.append_nil _).symm⟩
    rw [readWhole?, hInner]
    rfl

/-- Elements in front of other bytes differ if their tags or contents do. -/
theorem element_append_inj {tag' : UInt8} {content' rest' : Bytes} (hMax : content.length ≤ maxLength)
    (hMax' : content'.length ≤ maxLength)
    (h : element tag content ++ rest = element tag' content' ++ rest') :
    tag = tag' ∧ content = content' ∧ rest = rest' := by
  have hLeft : readElement? (element tag content ++ rest) = some ((tag, content), rest) :=
    readElement?_eq_some_iff.mpr ⟨hMax, rfl⟩
  have hRight : readElement? (element tag' content' ++ rest') = some ((tag', content'), rest') :=
    readElement?_eq_some_iff.mpr ⟨hMax', rfl⟩
  rw [h, hRight] at hLeft
  simpa [eq_comm, and_assoc] using hLeft

/-- The element determines its content, however long this is. -/
theorem element_inj {tag' : UInt8} {content' : Bytes}
    (h : element tag content = element tag' content') : tag = tag' ∧ content = content' := by
  obtain ⟨hTag, hTail⟩ := List.cons.inj h
  have hTotal := congrArg List.length hTail
  rw [List.length_append, List.length_append] at hTotal
  have hLength : content.length = content'.length := by
    rcases Nat.lt_trichotomy content.length content'.length with hLess | hEqual | hMore
    · have hMono := length_lengthBytes_mono (Nat.le_of_lt hLess)
      omega
    · exact hEqual
    · have hMono := length_lengthBytes_mono (Nat.le_of_lt hMore)
      omega
  rw [hLength] at hTail
  exact ⟨hTag, List.append_cancel_left hTail⟩

end Element

section Natural

theorem ofBigEndian_naturalContent (value : Nat) : Bytes.ofBigEndian (naturalContent value) = value :=
  Bytes.ofBigEndian_bigEndian_of_lt (lt_pow_of_log2_lt (by omega))

@[simp] theorem length_naturalContent (value : Nat) :
    (naturalContent value).length = (value.log2 + 1) / 8 + 1 := Bytes.length_bigEndian _ _

theorem readNatural?_eq_some_iff {bytes rest : Bytes} {value : Nat} :
    readNatural? bytes = some (value, rest) ↔
      (naturalContent value).length ≤ maxLength ∧ bytes = natural value ++ rest := by
  rw [natural, ← read?_eq_some_iff, readNatural?]
  constructor
  · intro hRead
    obtain ⟨⟨content, after⟩, hContent, hBody⟩ := Option.bind_eq_some_iff.mp hRead
    simp only at hBody
    split at hBody
    next hForm =>
      obtain ⟨rfl, rfl⟩ := Prod.mk.inj (Option.some.inj hBody)
      rw [hContent, hForm]
    next => cases hBody
  · intro hContent
    rw [hContent]
    simp [ofBigEndian_naturalContent]

/-- What is read after a natural number is read from the bytes behind it. -/
theorem exists_of_readNatural?_bind_eq_some {α : Type} {bytes : Bytes} {next : Nat × Bytes → Option α}
    {result : α} (h : (readNatural? bytes).bind next = some result) :
    ∃ value rest, bytes = natural value ++ rest ∧ next (value, rest) = some result := by
  obtain ⟨⟨value, rest⟩, hValue, hNext⟩ := Option.bind_eq_some_iff.mp h
  exact ⟨value, rest, (readNatural?_eq_some_iff.mp hValue).2, hNext⟩

/-- Natural numbers in a row. -/
def naturals (values : List Nat) : Bytes := values.flatMap natural

@[simp] theorem naturals_nil : naturals [] = [] := rfl

theorem readNatural?_naturals_cons {value : Nat} {values : List Nat}
    (h : (naturalContent value).length ≤ maxLength) :
    readNatural? (naturals (value :: values)) = some (value, naturals values) :=
  readNatural?_eq_some_iff.mpr ⟨h, rfl⟩

theorem length_naturalContent_le_of_mem {value : Nat} {values : List Nat} (h : value ∈ values) :
    (naturalContent value).length ≤ (naturals values).length := by
  have hElement := add_two_le_elementLength (naturalContent value).length
  obtain ⟨before, after, rfl⟩ := List.append_of_mem h
  simp only [naturals, List.flatMap_append, List.flatMap_cons, List.length_append, natural,
    length_element]
  omega

end Natural

section PublicKeyInfo

variable {algorithm key bytes : Bytes}

theorem bitsOfContent?_eq_some_iff {content : Bytes} :
    bitsOfContent? content = some key ↔ content = 0 :: key := by
  constructor
  · intro hBits
    cases content with
    | nil => cases hBits
    | cons first tail =>
        rw [bitsOfContent?.eq_def] at hBits
        split at hBits
        next hContent => rw [hContent, Option.some.inj hBits]
        next => cases hBits
  · rintro rfl
    rfl

@[simp] theorem length_publicKeyInfo (algorithm key : Bytes) :
    (publicKeyInfo algorithm key).length =
      elementLength (elementLength algorithm.length + elementLength (key.length + 1)) := by
  rw [publicKeyInfo, sequence, length_element, List.length_append, sequence, bitString, length_element,
    length_element, List.length_cons]

/-- An envelope is read if and only if it is the one that is written around the key. -/
theorem readPublicKeyInfo?_eq_some_iff :
    readPublicKeyInfo? algorithm bytes = some key ↔
      (sequence algorithm ++ bitString key).length ≤ maxLength ∧
        bytes = publicKeyInfo algorithm key := by
  constructor
  · intro hRead
    obtain ⟨content, hContent, hInside⟩ := Option.bind_eq_some_iff.mp hRead
    obtain ⟨⟨identifier, rest⟩, hIdentifier, hBody⟩ := Option.bind_eq_some_iff.mp hInside
    obtain ⟨hMax, rfl⟩ := readWhole?_eq_some_iff.mp hContent
    obtain ⟨-, rfl⟩ := read?_eq_some_iff.mp hIdentifier
    simp only at hBody
    split at hBody
    next => cases hBody
    next hAlgorithm =>
      obtain rfl := not_not.mp hAlgorithm
      obtain ⟨bits, hBits, hKey⟩ := Option.bind_eq_some_iff.mp hBody
      obtain ⟨-, rfl⟩ := readWhole?_eq_some_iff.mp hBits
      obtain rfl := bitsOfContent?_eq_some_iff.mp hKey
      exact ⟨hMax, rfl⟩
  · rintro ⟨hMax, rfl⟩
    have hLengths : algorithm.length ≤ maxLength ∧ (0 :: key).length ≤ maxLength := by
      have hAlgorithm := add_two_le_elementLength algorithm.length
      have hBits := add_two_le_elementLength (0 :: key).length
      rw [List.length_append, sequence, bitString, length_element, length_element] at hMax
      omega
    have hContent : readWhole? sequenceTag (publicKeyInfo algorithm key) =
        some (sequence algorithm ++ bitString key) := readWhole?_eq_some_iff.mpr ⟨hMax, rfl⟩
    have hIdentifier : read? sequenceTag (sequence algorithm ++ bitString key) =
        some (algorithm, bitString key) := read?_eq_some_iff.mpr ⟨hLengths.1, rfl⟩
    have hBits : readWhole? bitStringTag (bitString key) = some (0 :: key) :=
      readWhole?_eq_some_iff.mpr ⟨hLengths.2, rfl⟩
    rw [readPublicKeyInfo?, hContent]
    simp [hIdentifier, hBits, bitsOfContent?]

/-- Envelopes determine the key and, if it has a length that is read, the algorithm. -/
theorem publicKeyInfo_inj {algorithm' key' : Bytes} (hMax : algorithm.length ≤ maxLength)
    (hMax' : algorithm'.length ≤ maxLength)
    (h : publicKeyInfo algorithm key = publicKeyInfo algorithm' key') :
    algorithm = algorithm' ∧ key = key' := by
  obtain ⟨-, hContent⟩ := element_inj h
  obtain ⟨-, hAlgorithm, hBits⟩ := element_append_inj hMax hMax' hContent
  obtain ⟨-, hKey⟩ := element_inj hBits
  exact ⟨hAlgorithm, (List.cons.inj hKey).2⟩

end PublicKeyInfo

section PrivateKeyInfo

variable {algorithm key bytes : Bytes}

/-- What stands in an envelope of a private key: a version, the algorithm, the key and further fields. -/
def privateFields (version : Nat) (algorithm key fields : Bytes) : Bytes :=
  natural version ++ sequence algorithm ++ element octetStringTag key ++ fields

theorem privateKeyInfo_eq (algorithm key : Bytes) :
    privateKeyInfo algorithm key = sequence (privateFields 0 algorithm key []) := by
  rw [privateKeyInfo, privateFields, List.append_nil]

/-- An envelope is read whatever fields it has behind the key, as long as they may stand there. -/
theorem readPrivateKeyInfo?_eq_some_iff :
    readPrivateKeyInfo? algorithm bytes = some key ↔
      ∃ version fields, version ≤ 1 ∧ areTrailingFields (version == 1) fields.length fields = true ∧
        (privateFields version algorithm key fields).length ≤ maxLength ∧
        bytes = sequence (privateFields version algorithm key fields) := by
  constructor
  · intro hRead
    obtain ⟨content, hContent, hInside⟩ := Option.bind_eq_some_iff.mp hRead
    obtain ⟨⟨version, afterVersion⟩, hVersion, hLater⟩ := Option.bind_eq_some_iff.mp hInside
    obtain ⟨⟨identifier, afterAlgorithm⟩, hIdentifier, hRest⟩ := Option.bind_eq_some_iff.mp hLater
    obtain ⟨⟨carried, fields⟩, hKey, hBody⟩ := Option.bind_eq_some_iff.mp hRest
    obtain ⟨hMax, rfl⟩ := readWhole?_eq_some_iff.mp hContent
    obtain ⟨-, rfl⟩ := readNatural?_eq_some_iff.mp hVersion
    obtain ⟨-, rfl⟩ := read?_eq_some_iff.mp hIdentifier
    obtain ⟨-, rfl⟩ := read?_eq_some_iff.mp hKey
    simp only at hBody
    split at hBody
    next hFields =>
      obtain ⟨hAllowed, rfl, hTrailing⟩ := hFields
      obtain rfl := Option.some.inj hBody
      rw [← List.append_assoc, ← List.append_assoc] at hMax ⊢
      exact ⟨version, fields, hAllowed, hTrailing, hMax, rfl⟩
    next => cases hBody
  · rintro ⟨version, fields, hAllowed, hTrailing, hMax, rfl⟩
    have hLengths : (naturalContent version).length ≤ maxLength ∧ algorithm.length ≤ maxLength ∧
        key.length ≤ maxLength := by
      have hVersion := add_two_le_elementLength (naturalContent version).length
      have hAlgorithm := add_two_le_elementLength algorithm.length
      have hKey := add_two_le_elementLength key.length
      simp only [privateFields, List.length_append, natural, sequence, length_element] at hMax
      omega
    have hContent : readWhole? sequenceTag (sequence (privateFields version algorithm key fields)) =
        some (privateFields version algorithm key fields) := readWhole?_eq_some_iff.mpr ⟨hMax, rfl⟩
    have hVersion : readNatural? (privateFields version algorithm key fields) =
        some (version, sequence algorithm ++ (element octetStringTag key ++ fields)) :=
      readNatural?_eq_some_iff.mpr ⟨hLengths.1, by simp only [privateFields, List.append_assoc]⟩
    have hIdentifier : read? sequenceTag (sequence algorithm ++ (element octetStringTag key ++ fields)) =
        some (algorithm, element octetStringTag key ++ fields) :=
      read?_eq_some_iff.mpr ⟨hLengths.2.1, rfl⟩
    have hKey : read? octetStringTag (element octetStringTag key ++ fields) = some (key, fields) :=
      read?_eq_some_iff.mpr ⟨hLengths.2.2, rfl⟩
    rw [readPrivateKeyInfo?, hContent]
    simp [hVersion, hIdentifier, hKey, hAllowed, hTrailing]

end PrivateKeyInfo

end Signet.Der
