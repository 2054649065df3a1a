import Signet.Json.Token

/-! Readers of typed values from JSON texts. A reader goes through the text in order and stops at the
first reason for a refusal, whether this concerns the form of the text or the type of a value. -/
namespace Signet.Json

mutual

/-- The text after a value of any kind. Each call takes a character off the text or is made once for
such a character, so twice the length of the text is fuel enough. -/
def skipValue : (fuel : Nat) → List Char → Except Fault (List Char)
  | 0, _ => .error .unfinished
  | fuel + 1, text =>
      match skipBlank text with
      | [] => .error .unfinished
      | c :: rest =>
          if c = 'n' then skipWord ['u', 'l', 'l'] rest
          else if c = 't' then skipWord ['r', 'u', 'e'] rest
          else if c = 'f' then skipWord ['a', 'l', 's', 'e'] rest
          else if c = '-' || isDigit c then skipNumber (c :: rest)
          else if c = '"' then skipString rest
          else if c = '[' then
            match skipBlank rest with
            | ']' :: rest => .ok rest
            | [] => .error .unfinished
            | rest => skipElements fuel rest
          else if c = '\x7b' then
            match skipBlank rest with
            | '\x7d' :: rest => .ok rest
            | [] => .error .unfinished
            | rest => skipMembers fuel rest
          else .error .malformed

/-- The text after the elements of a sequence and its closing bracket. -/
def skipElements : (fuel : Nat) → List Char → Except Fault (List Char)
  | 0, _ => .error .unfinished
  | fuel + 1, text => do
      match skipBlank (← skipValue fuel text) with
      | ',' :: rest => skipElements fuel rest
      | ']' :: rest => .ok rest
      | [] => .error .unfinished
      | _ => .error .malformed

/-- The text after the members of a map and its closing brace. -/
def skipMembers : (fuel : Nat) → List Char → Except Fault (List Char)
  | 0, _ => .error .unfinished
  | fuel + 1, text => do
      match skipBlank text with
      | [] => .error .unfinished
      | '"' :: rest =>
          match skipBlank (← skipString rest) with
          | [] => .error .unfinished
          | ':' :: rest =>
              match skipBlank (← skipValue fuel rest) with
              | ',' :: rest => skipMembers fuel rest
              | '\x7d' :: rest => .ok rest
              | [] => .error .unfinished
              | _ => .error .malformed
          | _ => .error .malformed
      | _ => .error .malformed

end

/-- The text after a value of any kind. -/
def skip (text : List Char) : Except Fault (List Char) := skipValue (2 * text.length + 1) text

/-- The reason to refuse the value at the front of a text where another type is wanted. The value is
read as far as its description needs it, and a fault in this part comes first. -/
def refusal (expected : String) : List Char → Fault
  | [] => .malformed
  | c :: rest =>
      let invalid (found : Found) : Fault := .mismatch (.invalidType found expected)
      let afterWord (word : List Char) (found : Found) : Fault :=
        match skipWord word rest with
        | .ok _ => invalid found
        | .error fault => fault
      if c = 'n' then afterWord ['u', 'l', 'l'] .null
      else if c = 't' then afterWord ['r', 'u', 'e'] (.boolean true)
      else if c = 'f' then afterWord ['a', 'l', 's', 'e'] (.boolean false)
      else if c = '-' || isDigit c then
        match number (c :: rest) with
        | .ok (value, _) => invalid value.found
        | .error fault => fault
      else if c = '"' then
        match stringBody rest with
        | .ok (value, _) => invalid (.string value)
        | .error fault => fault
      else if c = '[' then invalid .sequence
      else if c = '\x7b' then invalid .map
      else .malformed

/-- A natural number below `2 ^ 64`. -/
def natural : Reader Nat := fun text =>
  match skipBlank text with
  | [] => .error .unfinished
  | c :: rest =>
      if c = '-' || isDigit c then
        match number (c :: rest) with
        | .error fault => .error fault
        | .ok (.integer value, rest) =>
            if 0 ≤ value then .ok (value.toNat, rest)
            else .error (.mismatch (.invalidValue (.integer value) "usize"))
        | .ok (.float value, _) => .error (.mismatch (.invalidType (.float value) "usize"))
      else .error (refusal "usize" (c :: rest))

/-- A string. -/
def string : Reader String := fun text =>
  match skipBlank text with
  | [] => .error .unfinished
  | '"' :: rest => stringBody rest
  | rest => .error (refusal "a string" rest)

/-- The text after the colon between a name and its value. -/
def skipColon (text : List Char) : Except Fault (List Char) :=
  match skipBlank text with
  | [] => .error .unfinished
  | ':' :: rest => .ok rest
  | _ => .error .malformed

/-- The text after a null. -/
def skipNull (text : List Char) : Except Fault (List Char) :=
  match skipBlank text with
  | [] => .error .unfinished
  | 'n' :: rest => skipWord ['u', 'l', 'l'] rest
  | rest => .error (refusal "unit" rest)

/-- The name of a variant and what it stands for; the text begins after the opening quote. -/
def variantName {α : Type} (variants : List (String × α)) : Reader α := fun text => do
  let (name, rest) ← stringBody text
  match variants.lookup name with
  | some value => .ok (value, rest)
  | none => .error (.mismatch (.unknownVariant name (variants.map Prod.fst)))

/-- One of finitely many named values, as its name or as a map from its name to null. -/
def variant {α : Type} (variants : List (String × α)) : Reader α := fun text =>
  match skipBlank text with
  | [] => .error .unfinished
  | '"' :: rest => variantName variants rest
  | '\x7b' :: rest =>
      match skipBlank rest with
      | [] => .error .unfinished
      | '"' :: rest => do
          let (value, rest) ← variantName variants rest
          let rest ← skipNull (← skipColon rest)
          match skipBlank rest with
          | [] => .error .unfinished
          | '\x7d' :: rest => .ok (value, rest)
          | _ => .error .malformed
      | _ => .error .malformed
  | _ => .error .malformed

/-- What remains of a map after its opening brace, or after a member if `first` is false, as the
change it makes to a state. `member` takes a name and reads on from the colon after it. -/
def members {σ : Type} (member : σ → String → Reader σ) :
    (fuel : Nat) → (first : Bool) → σ → Reader σ
  | 0, _, _, _ => .error .unfinished
  | fuel + 1, first, state, text =>
      let named (rest : List Char) : Except Fault (σ × List Char) := do
        let (name, rest) ← stringBody rest
        let (state, rest) ← member state name rest
        members member fuel false state rest
      match skipBlank text with
      | [] => .error .unfinished
      | '\x7d' :: rest => .ok (state, rest)
      | '"' :: rest => if first then named rest else .error .malformed
      | ',' :: rest =>
          if first then .error .malformed
          else
            match skipBlank rest with
            | [] => .error .unfinished
            | '"' :: rest => named rest
            | _ => .error .malformed
      | _ => .error .malformed

/-- The text at the next element of a sequence, or none at its closing bracket. The text begins after
the opening bracket, or after an element if `first` is false. -/
def nextElement? (first : Bool) (text : List Char) : Except Fault (Option (List Char)) :=
  match skipBlank text with
  | [] => .error .unfinished
  | ']' :: _ => .ok none
  | c :: rest =>
      if first then .ok (some (c :: rest))
      else if c = ',' then
        match skipBlank rest with
        | [] => .error .unfinished
        | ']' :: _ => .error .malformed
        | rest => .ok (some rest)
      else .error .malformed

/-- Elements read one by one by the given readers, as the change they make to a state. The sequence
may end before all readers have had an element; also the count of those that had one. -/
def elements {σ : Type} : (readers : List (σ → Reader σ)) → (first : Bool) → σ →
    Reader (σ × Nat)
  | [], _, state, text => .ok ((state, 0), text)
  | reader :: readers, first, state, text => do
      match ← nextElement? first text with
      | none => .ok ((state, 0), text)
      | some text =>
          let (state, rest) ← reader state text
          let ((state, count), rest) ← elements readers false state rest
          .ok ((state, count + 1), rest)

/-- The text after the closing bracket of a sequence. -/
def skipClosing (text : List Char) : Except Fault (List Char) :=
  match skipBlank text with
  | [] => .error .unfinished
  | ']' :: rest => .ok rest
  | _ => .error .malformed

/-- A field of a map that must not be given twice. -/
def field {α : Type} (name : String) (current : Option α) (reader : Reader α) : Reader (Option α) :=
  fun text =>
    match current with
    | some _ => .error (.mismatch (.duplicateField name))
    | none => do
        let (value, rest) ← reader (← skipColon text)
        .ok (some value, rest)

/-- A member of a map that is passed over. -/
def ignored {σ : Type} (state : σ) : Reader σ := fun text => do
  .ok (state, ← skip (← skipColon text))

/-- The value of a whole text. -/
def parse {α : Type} (reader : Reader α) (text : String) : Except Fault α := do
  let (value, rest) ← reader text.toList
  if (skipBlank rest).isEmpty then .ok value else .error .malformed

end Signet.Json
