import Signet.Json.Grammar
import Signet.Json.Reader

/-! Strings in JSON texts, however they are spelled. A string that is read gives the characters that are
spelled by it, or is malformed if there are none; a string that is passed over ends at its closing
quote. -/
namespace Signet.Json

variable {a b c d : Char} {unit leading : Nat} {text chars rest : List Char}

theorem hexQuad_codeUnit? (h : codeUnit? a b c d = some unit) (rest : List Char) :
    hexQuad (a :: b :: c :: d :: rest) = .ok (unit, rest) := by
  simp only [codeUnit?, bind, Option.bind_eq_some_iff, Option.some.injEq] at h
  obtain ⟨first, hFirst, second, hSecond, third, hThird, fourth, hFourth, rfl⟩ := h
  simp only [hexQuad, hFirst, hSecond, hThird, hFourth]

theorem ne_of_shortEscape? {letter : Char} (h : shortEscape? letter = some c) : letter ≠ 'u' := by
  rintro rfl
  cases h

section Characters

theorem stringChar_plain (h : IsPlain c) (rest : List Char) :
    stringChar (c :: rest) = .ok (some c, rest) := by
  obtain ⟨hControl, hQuote, hBackslash⟩ := h
  rw [stringChar, if_neg (Nat.not_lt.mpr hControl)]
  · exact hQuote
  · exact hBackslash

theorem stringChar_short {letter : Char} (h : shortEscape? letter = some c) (rest : List Char) :
    stringChar ('\\' :: letter :: rest) = .ok (some c, rest) := by
  have hEscape : escape (letter :: rest) = .ok (c, rest) := by
    simp [escape, ne_of_shortEscape? h, h]
  rw [stringChar, hEscape]
  rfl

theorem stringChar_code (h : codeUnit? a b c d = some unit) (hNoSurrogate : unit < 0xd800 ∨ 0xdfff < unit)
    (rest : List Char) :
    stringChar ('\\' :: 'u' :: a :: b :: c :: d :: rest) = .ok (some (Char.ofNat unit), rest) := by
  have hEscape : escape ('u' :: a :: b :: c :: d :: rest) = .ok (Char.ofNat unit, rest) := by
    rw [escape, hexQuad_codeUnit? h]
    change (if _ then _ else if _ then _ else _) = _
    rw [if_neg (by omega), if_neg (by omega)]
  rw [stringChar, hEscape]
  rfl

theorem stringChar_leading (h : codeUnit? a b c d = some leading)
    (hLeads : 0xd800 ≤ leading ∧ leading ≤ 0xdbff) (rest : List Char) :
    stringChar ('\\' :: 'u' :: a :: b :: c :: d :: rest) =
      (trailingSurrogate leading rest).map fun (c, rest) => (some c, rest) := by
  have hEscape : escape ('u' :: a :: b :: c :: d :: rest) = trailingSurrogate leading rest := by
    rw [escape, hexQuad_codeUnit? h]
    change (if _ then _ else if _ then _ else _) = _
    rw [if_pos hLeads]
  rw [stringChar, hEscape]

theorem trailingSurrogate_code (h : codeUnit? a b c d = some unit) (rest : List Char) :
    trailingSurrogate leading ('\\' :: 'u' :: a :: b :: c :: d :: rest) =
      if 0xdc00 ≤ unit ∧ unit ≤ 0xdfff then
        .ok (Char.ofNat (0x10000 + (leading - 0xd800) * 0x400 + (unit - 0xdc00)), rest)
      else .error .malformed := by
  have hWord : skipWord ['\\', 'u'] ('\\' :: 'u' :: a :: b :: c :: d :: rest) =
      .ok (a :: b :: c :: d :: rest) := rfl
  simp only [trailingSurrogate, hWord, bind, Except.bind, hexQuad_codeUnit? h]

theorem stringChar_pair {e f g h : Char} {trailing : Nat} (hFirst : codeUnit? a b c d = some leading)
    (hLeads : 0xd800 ≤ leading ∧ leading ≤ 0xdbff) (hSecond : codeUnit? e f g h = some trailing)
    (hTrails : 0xdc00 ≤ trailing ∧ trailing ≤ 0xdfff) (rest : List Char) :
    stringChar ('\\' :: 'u' :: a :: b :: c :: d :: '\\' :: 'u' :: e :: f :: g :: h :: rest) =
      .ok (some (Char.ofNat (0x10000 + (leading - 0xd800) * 0x400 + (trailing - 0xdc00))), rest) := by
  rw [stringChar_leading hFirst hLeads, trailingSurrogate_code hSecond, if_pos hTrails]
  rfl

theorem stringChar_trailing (h : codeUnit? a b c d = some unit)
    (hTrails : 0xdc00 ≤ unit ∧ unit ≤ 0xdfff) (rest : List Char) :
    stringChar ('\\' :: 'u' :: a :: b :: c :: d :: rest) = .error .malformed := by
  have hEscape : escape ('u' :: a :: b :: c :: d :: rest) = .error .malformed := by
    rw [escape, hexQuad_codeUnit? h]
    change (if _ then _ else if _ then _ else _) = _
    rw [if_neg (by omega), if_pos hTrails]
  rw [stringChar, hEscape]
  rfl

end Characters

/-- What comes of reading a string that goes on with a text up to its closing quote. -/
def ReadsAs (text : List Char) (outcome : Except Fault (List Char)) : Prop :=
  ∀ fuel, text.length < fuel → ∀ read rest, stringChars fuel read (text ++ '"' :: rest) =
    outcome.map fun chars => (read.reverse ++ chars, rest)

theorem readsAs_nil : ReadsAs [] (.ok []) := by
  intro fuel hFuel read rest
  obtain ⟨fuel, rfl⟩ := Nat.exists_eq_add_one.mpr hFuel
  exact congrArg (fun chars => Except.ok (chars, rest)) (List.append_nil read.reverse).symm

/-- One character, as it is written, and the rest of the string. -/
theorem ReadsAs.cons (written : List Char) {outcome : Except Fault (List Char)}
    (hChar : ∀ rest, stringChar (written ++ rest) = .ok (some c, rest)) (hPos : 0 < written.length)
    (h : ReadsAs text outcome) : ReadsAs (written ++ text) (outcome.map (c :: ·)) := by
  intro fuel hFuel read rest
  rw [List.length_append] at hFuel
  obtain ⟨fuel, rfl⟩ := Nat.exists_eq_add_one.mpr (Nat.zero_lt_of_lt hFuel)
  rw [List.append_assoc, stringChars, hChar]
  simp only
  rw [h fuel (by omega)]
  cases outcome with
  | error fault => rfl
  | ok chars => simp [Except.map]

theorem readsAs_malformed (h : ∀ rest, stringChar (text ++ '"' :: rest) = .error .malformed) :
    ReadsAs text (.error .malformed) := by
  intro fuel hFuel read rest
  obtain ⟨fuel, rfl⟩ := Nat.exists_eq_add_one.mpr (Nat.zero_lt_of_lt hFuel)
  rw [stringChars, h]
  rfl

/-- A string that spells characters is read as these. -/
theorem Spells.readsAs (h : Spells text chars) : ReadsAs text (.ok chars) := by
  induction h with
  | nil => exact readsAs_nil
  | @plain c text _ isPlain later ih => exact ih.cons [c] (stringChar_plain isPlain) (by simp)
  | @short letter c text _ escape later ih =>
      exact ih.cons ['\\', letter] (stringChar_short escape) (by simp)
  | @code a b c d unit text _ escape noSurrogate later ih =>
      exact ih.cons ['\\', 'u', a, b, c, d] (stringChar_code escape noSurrogate) (by simp)
  | @pair a b c d e f g h leading trailing text _ first leads second trails later ih =>
      exact ih.cons ['\\', 'u', a, b, c, d, '\\', 'u', e, f, g, h]
        (stringChar_pair first leads second trails) (by simp)

/-- Half of a pair, at the end of a string or before anything but the other half. -/
theorem readsAs_leading (h : codeUnit? a b c d = some leading)
    (hLeads : 0xd800 ≤ leading ∧ leading ≤ 0xdbff)
    (hAlone : ∀ rest, trailingSurrogate leading (text ++ '"' :: rest) = .error .malformed) :
    ReadsAs ('\\' :: 'u' :: a :: b :: c :: d :: text) (.error .malformed) := by
  refine readsAs_malformed fun rest => ?_
  simp only [List.cons_append]
  rw [stringChar_leading h hLeads, hAlone]
  rfl

/-- Whether a string is read as the characters that it spells, or is malformed because it spells none. -/
def Settled (text : List Char) : Prop :=
  (∃ chars, Spells text chars) ∨ ReadsAs text (.error .malformed)

/-- The other half of a pair is looked for behind the first one, so this is shown of a string by itself
and behind a leading surrogate. -/
theorem IsQuoted.settled_and_settled_leading (h : IsQuoted text) :
    Settled text ∧ ∀ {a b c d : Char} {leading : Nat}, codeUnit? a b c d = some leading →
      0xd800 ≤ leading ∧ leading ≤ 0xdbff → Settled ('\\' :: 'u' :: a :: b :: c :: d :: text) := by
  induction h with
  | nil => exact ⟨.inl ⟨[], .nil⟩, fun first leads => .inr (readsAs_leading first leads fun _ => rfl)⟩
  | @plain c text isPlain later ih =>
      refine ⟨ih.1.imp (fun ⟨chars, h⟩ => ⟨c :: chars, .plain isPlain h⟩)
        (ReadsAs.cons [c] (stringChar_plain isPlain) (by simp)), fun first leads => ?_⟩
      refine .inr (readsAs_leading first leads fun rest => ?_)
      simp [trailingSurrogate, skipWord, isPlain.2.2, bind, Except.bind]
  | @short letter c text escape later ih =>
      refine ⟨ih.1.imp (fun ⟨chars, h⟩ => ⟨c :: chars, .short escape h⟩)
        (ReadsAs.cons ['\\', letter] (stringChar_short escape) (by simp)),
        fun first leads => ?_⟩
      refine .inr (readsAs_leading first leads fun rest => ?_)
      simp [trailingSurrogate, skipWord, ne_of_shortEscape? escape, bind, Except.bind]
  | @code a b c d unit text escape later ih =>
      constructor
      · by_cases hNoSurrogate : unit < 0xd800 ∨ 0xdfff < unit
        · exact ih.1.imp (fun ⟨chars, h⟩ => ⟨Char.ofNat unit :: chars, .code escape hNoSurrogate h⟩)
            (ReadsAs.cons ['\\', 'u', a, b, c, d] (stringChar_code escape hNoSurrogate)
              (by simp))
        · by_cases hLeads : unit ≤ 0xdbff
          · exact ih.2 escape ⟨by omega, hLeads⟩
          · exact .inr (readsAs_malformed fun rest => stringChar_trailing escape (by omega) _)
      · intro e f g h leading first leads
        by_cases hTrails : 0xdc00 ≤ unit ∧ unit ≤ 0xdfff
        · exact ih.1.imp (fun ⟨chars, h⟩ => ⟨_ :: chars, .pair first leads escape hTrails h⟩)
            (ReadsAs.cons ['\\', 'u', e, f, g, h, '\\', 'u', a, b, c, d]
              (stringChar_pair first leads escape hTrails) (by simp))
        · refine .inr (readsAs_leading first leads fun rest => ?_)
          exact (trailingSurrogate_code escape _).trans (if_neg hTrails)

theorem stringBody_eq {outcome : Except Fault (List Char)} (h : ReadsAs text outcome)
    (rest : List Char) : stringBody (text ++ '"' :: rest) =
      outcome.map fun chars => (String.ofList chars, rest) := by
  have hFuel : text.length < (text ++ '"' :: rest).length + 1 := by
    rw [List.length_append]
    omega
  rw [stringBody, h _ hFuel]
  cases outcome <;> rfl

/-- A text spells one row of characters only. -/
theorem Spells.unique {others : List Char} (h : Spells text chars) (hOthers : Spells text others) :
    chars = others := by
  have hRead := (stringBody_eq h.readsAs []).symm.trans (stringBody_eq hOthers.readsAs [])
  exact String.ofList_injective (Prod.mk.inj (Except.ok.inj hRead)).1

namespace Member

variable {member : Member} {name other : String}

theorem Named.unique (h : member.Named name) (hOther : member.Named other) : name = other :=
  String.toList_injective (Spells.unique h hOther)

theorem Named.stringBody_eq (h : member.Named name) (rest : List Char) :
    stringBody (member.name ++ '"' :: rest) = .ok (name, rest) := by
  rw [Json.stringBody_eq h.readsAs]
  exact congrArg (fun name => Except.ok (name, rest)) String.ofList_toList

theorem stringBody_of_not_isReadable (h : ¬member.IsReadable) (rest : List Char) :
    stringBody (member.name ++ '"' :: rest) = .error .malformed := by
  obtain ⟨chars, hSpells⟩ | hMalformed := member.isQuoted_name.settled_and_settled_leading.1
  · refine absurd ⟨String.ofList chars, ?_⟩ h
    rwa [Named, String.toList_ofList]
  · exact Json.stringBody_eq hMalformed rest

end Member

section Skipping

theorem skipStringChar_plain (h : IsPlain c) (rest : List Char) :
    skipStringChar (c :: rest) = .ok (false, rest) := by
  obtain ⟨hControl, hQuote, hBackslash⟩ := h
  rw [skipStringChar, if_neg (Nat.not_lt.mpr hControl)]
  all_goals simp [hQuote, hBackslash]

theorem skipStringChar_short {letter : Char} (h : shortEscape? letter = some c) (rest : List Char) :
    skipStringChar ('\\' :: letter :: rest) = .ok (false, rest) := by
  simp [skipStringChar, ne_of_shortEscape? h, h]

theorem skipStringChar_code (h : codeUnit? a b c d = some unit) (rest : List Char) :
    skipStringChar ('\\' :: 'u' :: a :: b :: c :: d :: rest) = .ok (false, rest) := by
  rw [skipStringChar, hexQuad_codeUnit? h]
  rfl

/-- Whether a string is passed over that goes on with a text up to its closing quote. -/
def IsPassedOver (text : List Char) : Prop :=
  ∀ fuel, text.length < fuel → ∀ rest, skipStringChars fuel (text ++ '"' :: rest) = .ok rest

theorem isPassedOver_nil : IsPassedOver [] := by
  intro fuel hFuel rest
  obtain ⟨fuel, rfl⟩ := Nat.exists_eq_add_one.mpr hFuel
  rfl

theorem IsPassedOver.cons (written : List Char)
    (hChar : ∀ rest, skipStringChar (written ++ rest) = .ok (false, rest)) (hPos : 0 < written.length)
    (h : IsPassedOver text) : IsPassedOver (written ++ text) := by
  intro fuel hFuel rest
  rw [List.length_append] at hFuel
  obtain ⟨fuel, rfl⟩ := Nat.exists_eq_add_one.mpr (Nat.zero_lt_of_lt hFuel)
  rw [List.append_assoc, skipStringChars, hChar]
  exact h fuel (by omega) rest

/-- Every string is passed over, whether it spells characters or not. -/
theorem IsQuoted.isPassedOver (h : IsQuoted text) : IsPassedOver text := by
  induction h with
  | nil => exact isPassedOver_nil
  | @plain c text isPlain later ih => exact ih.cons [c] (skipStringChar_plain isPlain) (by simp)
  | @short letter c text escape later ih =>
      exact ih.cons ['\\', letter] (skipStringChar_short escape) (by simp)
  | @code a b c d unit text escape later ih =>
      exact ih.cons ['\\', 'u', a, b, c, d] (skipStringChar_code escape) (by simp)

theorem skipString_isQuoted (h : IsQuoted text) (rest : List Char) :
    skipString (text ++ '"' :: rest) = .ok rest := by
  refine h.isPassedOver _ ?_ rest
  rw [List.length_append]
  omega

end Skipping

end Signet.Json
