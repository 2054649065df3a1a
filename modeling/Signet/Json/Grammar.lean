import Signet.Json.Token

/-! The grammar of JSON texts, apart from any reader. Between the quotes of a string half of a surrogate
pair may be escaped without the other half: the grammar has such strings, but no characters are spelled
by them. -/
namespace Signet.Json

/-- Blanks, or nothing. -/
def IsGap (text : List Char) : Prop := ∀ c ∈ text, isBlank c = true

theorem isGap_nil : IsGap [] := fun _ h => nomatch h

theorem skipBlank_gap_append {gap : List Char} (h : IsGap gap) (rest : List Char) :
    skipBlank (gap ++ rest) = skipBlank rest := List.dropWhile_append_of_pos h

theorem skipBlank_eq_nil {gap : List Char} (h : IsGap gap) : skipBlank gap = [] := by
  rw [← List.append_nil gap, skipBlank_gap_append h]
  rfl

theorem skipBlank_cons {c : Char} (h : isBlank c = false) (rest : List Char) :
    skipBlank (c :: rest) = c :: rest := List.dropWhile_cons_of_neg (by simp [h])

theorem skipBlank_gap {gap : List Char} (h : IsGap gap) {c : Char} (hBlank : isBlank c = false)
    (rest : List Char) : skipBlank (gap ++ c :: rest) = c :: rest := by
  rw [skipBlank_gap_append h, skipBlank_cons hBlank]

/-- Decimal digits, one at least. -/
def IsDigits (text : List Char) : Prop := text ≠ [] ∧ ∀ c ∈ text, isDigit c = true

/-- The digits of a number before its fraction. Zero is the only one of them that begins with a zero. -/
def IsWhole (text : List Char) : Prop := IsDigits text ∧ (text.head? = some '0' → text = ['0'])

/-- The fraction of a number, if it has one. -/
inductive IsFraction : List Char → Prop where
  | absent : IsFraction []
  | digits {digits : List Char} (isDigits : IsDigits digits) : IsFraction ('.' :: digits)

/-- The exponent of a number, if it has one. -/
inductive IsExponent : List Char → Prop where
  | absent : IsExponent []
  | digits {mark : Char} {sign digits : List Char} (mark_mem : mark ∈ ['e', 'E'])
      (sign_mem : sign ∈ [[], ['+'], ['-']]) (isDigits : IsDigits digits) :
      IsExponent (mark :: (sign ++ digits))

/-- A number. -/
inductive IsNumber : List Char → Prop where
  | parts {sign whole fraction exponent : List Char} (sign_mem : sign ∈ [[], ['-']])
      (isWhole : IsWhole whole) (isFraction : IsFraction fraction) (isExponent : IsExponent exponent) :
      IsNumber (sign ++ (whole ++ (fraction ++ exponent)))

/-- The code unit of four hexadecimal digits. -/
def codeUnit? (a b c d : Char) : Option Nat := do
  let a ← Bytes.hexValue? a
  let b ← Bytes.hexValue? b
  let c ← Bytes.hexValue? c
  let d ← Bytes.hexValue? d
  some (((a * 16 + b) * 16 + c) * 16 + d)

/-- Whether a character may stand in a string without an escape. -/
def IsPlain (c : Char) : Prop := 32 ≤ c.toNat ∧ c ≠ '"' ∧ c ≠ '\\'

/-- The text between the quotes of a string. Any code units may be escaped. -/
inductive IsQuoted : List Char → Prop where
  | nil : IsQuoted []
  | plain {c : Char} {text : List Char} (isPlain : IsPlain c) (later : IsQuoted text) :
      IsQuoted (c :: text)
  | short {letter c : Char} {text : List Char} (escape : shortEscape? letter = some c)
      (later : IsQuoted text) : IsQuoted ('\\' :: letter :: text)
  | code {a b c d : Char} {unit : Nat} {text : List Char} (escape : codeUnit? a b c d = some unit)
      (later : IsQuoted text) : IsQuoted ('\\' :: 'u' :: a :: b :: c :: d :: text)

/-- The characters that the text between the quotes of a string stands for. Surrogates come in pairs. -/
inductive Spells : List Char → List Char → Prop where
  | nil : Spells [] []
  | plain {c : Char} {text chars : List Char} (isPlain : IsPlain c) (later : Spells text chars) :
      Spells (c :: text) (c :: chars)
  | short {letter c : Char} {text chars : List Char} (escape : shortEscape? letter = some c)
      (later : Spells text chars) : Spells ('\\' :: letter :: text) (c :: chars)
  | code {a b c d : Char} {unit : Nat} {text chars : List Char}
      (escape : codeUnit? a b c d = some unit) (noSurrogate : unit < 0xd800 ∨ 0xdfff < unit)
      (later : Spells text chars) :
      Spells ('\\' :: 'u' :: a :: b :: c :: d :: text) (Char.ofNat unit :: chars)
  | pair {a b c d e f g h : Char} {leading trailing : Nat} {text chars : List Char}
      (first : codeUnit? a b c d = some leading) (leads : 0xd800 ≤ leading ∧ leading ≤ 0xdbff)
      (second : codeUnit? e f g h = some trailing) (trails : 0xdc00 ≤ trailing ∧ trailing ≤ 0xdfff)
      (later : Spells text chars) :
      Spells ('\\' :: 'u' :: a :: b :: c :: d :: '\\' :: 'u' :: e :: f :: g :: h :: text)
        (Char.ofNat (0x10000 + (leading - 0xd800) * 0x400 + (trailing - 0xdc00)) :: chars)

/-- A value among others, with the blanks around it. -/
structure Element where
  before : List Char
  value : List Char
  after : List Char
  isGap_before : IsGap before
  isGap_after : IsGap after

def Element.text (element : Element) : List Char := element.before ++ element.value ++ element.after

/-- A member of an object: its name as it stands between quotes, and its value. -/
structure Member where
  before : List Char
  name : List Char
  after : List Char
  content : Element
  isGap_before : IsGap before
  isQuoted_name : IsQuoted name
  isGap_after : IsGap after

namespace Member

def text (member : Member) : List Char :=
  member.before ++ '"' :: (member.name ++ '"' :: (member.after ++ ':' :: member.content.text))

/-- Whether the name of the member stands for the given one. -/
def Named (member : Member) (name : String) : Prop := Spells member.name name.toList

/-- Whether the name of the member stands for any characters. -/
def IsReadable (member : Member) : Prop := ∃ name, member.Named name

end Member

theorem intercalate_comma_cons (line : List Char) (lines : List (List Char)) :
    [','].intercalate (line :: lines) = line ++ lines.flatMap (',' :: ·) := by
  induction lines generalizing line with
  | nil => simp
  | cons next lines ih => simp [List.intercalate_cons_cons, ih]

/-- The text of an array. The gap stands before the closing bracket. -/
def arrayText (elements : List Element) (gap : List Char) : List Char :=
  '[' :: [','].intercalate (elements.map Element.text) ++ gap ++ [']']

/-- The text of an object. The gap stands before the closing brace. -/
def objectText (members : List Member) (gap : List Char) : List Char :=
  '\x7b' :: [','].intercalate (members.map Member.text) ++ gap ++ ['\x7d']

/-- A value of any kind. -/
inductive IsValue : List Char → Prop where
  | nullWord : IsValue ['n', 'u', 'l', 'l']
  | trueWord : IsValue ['t', 'r', 'u', 'e']
  | falseWord : IsValue ['f', 'a', 'l', 's', 'e']
  | number {text : List Char} (isNumber : IsNumber text) : IsValue text
  | string {text : List Char} (isQuoted : IsQuoted text) : IsValue ('"' :: text ++ ['"'])
  | array {elements : List Element} {gap : List Char} (isGap : IsGap gap)
      (isValue : ∀ element ∈ elements, IsValue element.value) : IsValue (arrayText elements gap)
  | object {members : List Member} {gap : List Char} (isGap : IsGap gap)
      (isValue : ∀ member ∈ members, IsValue member.content.value) : IsValue (objectText members gap)

/-- An object by its members. -/
structure Object where
  members : List Member
  gap : List Char
  isGap : IsGap gap
  isValue : ∀ member ∈ members, IsValue member.content.value

namespace Object

def text (object : Object) : List Char := objectText object.members object.gap

theorem isValue_text (object : Object) : IsValue object.text := .object object.isGap object.isValue

end Object

/-- The decimal digits of a number of at most 64 bits. -/
def IsNumeral (text : List Char) (value : Nat) : Prop :=
  value < Nat.pow 2 64 ∧ text = Nat.toDigits 10 value

/-- What the members of an object give for a name that is used at most once: nothing, or what the value
of its only member stands for. -/
inductive Gives {α : Type} (name : String) (StandsFor : List Char → α → Prop) :
    List Member → Option α → Prop where
  | nil : Gives name StandsFor [] none
  | other {member : Member} {members : List Member} {given : Option α}
      (not_named : ¬member.Named name) (later : Gives name StandsFor members given) :
      Gives name StandsFor (member :: members) given
  | named {member : Member} {members : List Member} {value : α} (named : member.Named name)
      (standsFor : StandsFor member.content.value value) (later : Gives name StandsFor members none) :
      Gives name StandsFor (member :: members) (some value)

end Signet.Json
