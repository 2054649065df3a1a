import Mathlib.Tactic.SplitIfs
import Signet.Json.Printer
import Signet.Proofs.Json.Spelling

/-! Strings in JSON texts. What is written for a string spells it, so that reading takes back every escape
and stops right behind the closing quote. -/
namespace Signet.Json

theorem hexValue?_digitChar : ∀ digit < 16, Bytes.hexValue? (Nat.digitChar digit) = some digit := by
  decide

/-- The code of a character below 256, written with four digits. -/
theorem codeUnit?_hexPair {code : Nat} (h : code < 256) :
    codeUnit? '0' '0' (Nat.digitChar (code / 16 % 16)) (Nat.digitChar (code % 16)) = some code := by
  have hHigh := hexValue?_digitChar (code / 16 % 16) (Nat.mod_lt _ (by decide))
  have hLow := hexValue?_digitChar (code % 16) (Nat.mod_lt _ (by decide))
  have hZero : Bytes.hexValue? '0' = some 0 := by decide
  simp only [codeUnit?, hZero, hHigh, hLow, bind, Option.bind_some, Option.some.injEq]
  omega

/-- A character is spelled by the form that it is written in. -/
theorem Spells.escapedChar {text chars : List Char} (c : Char) (h : Spells text chars) :
    Spells (escapedChar c ++ text) (c :: chars) := by
  unfold Json.escapedChar
  split_ifs with hQuote hBackslash hBackspace hFormFeed hNewline hReturn hTab hControl
  -- The characters with a letter of their own are seven fixed ones.
  any_goals
    subst c
    exact .short rfl h
  · have hCode := codeUnit?_hexPair (show c.toNat < 256 by omega)
    have hSpells := Spells.code hCode (.inl (by omega)) h
    rwa [Char.ofNat_toNat] at hSpells
  · exact .plain ⟨Nat.not_lt.mp hControl, hQuote, hBackslash⟩ h

theorem spells_flatMap_escapedChar (chars : List Char) : Spells (chars.flatMap escapedChar) chars := by
  induction chars with
  | nil => exact .nil
  | cons c chars ih => exact ih.escapedChar c

theorem Spells.isQuoted {text chars : List Char} (h : Spells text chars) : IsQuoted text := by
  induction h with
  | nil => exact .nil
  | plain isPlain later ih => exact .plain isPlain ih
  | short escape later ih => exact .short escape ih
  | code escape noSurrogate later ih => exact .code escape ih
  | pair first leads second trails later ih => exact .code first (.code second ih)

theorem ofString_append (value : String) (rest : List Char) :
    ofString value ++ rest = '"' :: (value.toList.flatMap escapedChar ++ '"' :: rest) := by
  simp [ofString]

/-- A string is read back; the text begins after the opening quote. -/
theorem stringBody_written (value : String) (rest : List Char) :
    stringBody (value.toList.flatMap escapedChar ++ '"' :: rest) = .ok (value, rest) := by
  rw [stringBody_eq (spells_flatMap_escapedChar value.toList).readsAs]
  exact congrArg (fun text => Except.ok (text, rest)) String.ofList_toList

theorem string_ofString {gap : List Char} (hGap : IsGap gap) (value : String) (rest : List Char) :
    string (gap ++ (ofString value ++ rest)) = .ok (value, rest) := by
  rw [← stringBody_written value rest, ofString_append, string, skipBlank_gap hGap rfl]
  rfl

/-- A name is read as what it stands for. -/
theorem variant_ofString {α : Type} {variants : List (String × α)} {name : String} {value : α}
    (h : variants.lookup name = some value) {gap : List Char} (hGap : IsGap gap) (rest : List Char) :
    variant variants (gap ++ (ofString name ++ rest)) = .ok (value, rest) := by
  have hName : variantName variants (name.toList.flatMap escapedChar ++ '"' :: rest) =
      .ok (value, rest) := by
    simp only [variantName, stringBody_written, bind, Except.bind, h]
  rw [← hName, ofString_append, variant, skipBlank_gap hGap rfl]
  rfl

end Signet.Json
