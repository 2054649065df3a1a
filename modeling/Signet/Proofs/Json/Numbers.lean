import Mathlib.Tactic.SplitIfs
import Signet.Json.Grammar
import Signet.Json.Reader

/-! Numbers in JSON texts. A number that is passed over is passed over to its end, and decimal digits are
read as the natural number that they stand for if it has at most 64 bits. -/
namespace Signet.Json

variable {c d : Char} {text rest gap digits fraction exponent : List Char}

theorem ne_of_isDigit (hDigit : isDigit c = true) (h : isDigit d = false) : c ≠ d := by
  rintro rfl
  rw [hDigit] at h
  cases h

/-- Whether a text goes on without a digit. -/
def EndsDigits (rest : List Char) : Prop := ∀ c ∈ rest.head?, isDigit c = false

/-- Whether a text goes on with nothing that could be a part of a number before it. -/
def EndsNumber (rest : List Char) : Prop :=
  ∀ c ∈ rest.head?, isDigit c = false ∧ c ≠ '.' ∧ c ≠ 'e' ∧ c ≠ 'E'

theorem EndsNumber.endsDigits (h : EndsNumber rest) : EndsDigits rest := fun c hc => (h c hc).1

theorem endsNumber_cons (h : isDigit c = false ∧ c ≠ '.' ∧ c ≠ 'e' ∧ c ≠ 'E') (rest : List Char) :
    EndsNumber (c :: rest) := by
  intro head hHead
  obtain rfl := Option.some.inj hHead
  exact h

theorem endsNumber_gap (hGap : IsGap gap) (h : EndsNumber rest) : EndsNumber (gap ++ rest) := by
  cases gap with
  | nil => exact h
  | cons blank gap =>
      have hBlank := hGap blank List.mem_cons_self
      simp only [isBlank, Bool.or_eq_true, decide_eq_true_eq] at hBlank
      refine endsNumber_cons ?_ (gap ++ rest)
      obtain ((rfl | rfl) | rfl) | rfl := hBlank <;> decide

section Digits

variable (hDigits : ∀ c ∈ digits, isDigit c = true) (hRest : EndsDigits rest)
include hDigits hRest

theorem takeWhile_isDigit : (digits ++ rest).takeWhile isDigit = digits := by
  rw [List.takeWhile_append_of_pos hDigits]
  cases rest with
  | nil => exact List.append_nil digits
  | cons c rest =>
      rw [List.takeWhile_cons_of_neg (by simp [hRest c rfl]), List.append_nil]

theorem dropWhile_isDigit : (digits ++ rest).dropWhile isDigit = rest := by
  rw [List.dropWhile_append_of_pos hDigits]
  cases rest with
  | nil => rfl
  | cons c rest => exact List.dropWhile_cons_of_neg (by simp [hRest c rfl])

end Digits

theorem isBlank_of_isDigit (h : isDigit c = true) : isBlank c = false := by
  have hSpace := ne_of_isDigit h (show isDigit ' ' = false from rfl)
  have hNewline := ne_of_isDigit h (show isDigit '\n' = false from rfl)
  have hTab := ne_of_isDigit h (show isDigit '\t' = false from rfl)
  have hReturn := ne_of_isDigit h (show isDigit '\r' = false from rfl)
  simp [isBlank, hSpace, hNewline, hTab, hReturn]

theorem IsDigits.isEmpty (h : IsDigits digits) : digits.isEmpty = false :=
  List.isEmpty_eq_false_iff.mpr h.1

/-- Digits come without a sign. -/
theorem IsDigits.exists_cons (h : IsDigits digits) :
    ∃ digit others, digits = digit :: others ∧ isDigit digit = true := by
  obtain ⟨digit, others, rfl⟩ := List.exists_cons_of_ne_nil h.1
  exact ⟨digit, others, rfl, h.2 digit List.mem_cons_self⟩

/-- An exponent begins with its mark. -/
theorem IsExponent.head?_append (h : IsExponent exponent) (hRest : EndsNumber rest) :
    ∀ c ∈ (exponent ++ rest).head?, isDigit c = false ∧ c ≠ '.' := by
  cases h with
  | absent => exact fun c hc => ⟨(hRest c hc).1, (hRest c hc).2.1⟩
  | digits mark_mem sign_mem isDigits =>
      intro c hc
      obtain rfl := Option.some.inj hc
      simp only [List.mem_cons, List.not_mem_nil, or_false] at mark_mem
      obtain rfl | rfl := mark_mem <;> decide

theorem IsFraction.endsDigits (h : IsFraction fraction) (hRest : EndsDigits rest) :
    EndsDigits (fraction ++ rest) := by
  cases h with
  | absent => exact hRest
  | digits isDigits =>
      intro c hc
      obtain rfl := Option.some.inj hc
      rfl

theorem skipExponent_isExponent (h : IsExponent exponent) (hRest : EndsNumber rest) :
    skipExponent (exponent ++ rest) = .ok rest := by
  cases h with
  | absent =>
      cases rest with
      | nil => rfl
      | cons c rest =>
          obtain ⟨-, -, hLower, hUpper⟩ := hRest c rfl
          simp [skipExponent, hLower, hUpper]
  | @digits mark sign digits mark_mem sign_mem isDigits =>
      have hMark : mark = 'e' ∨ mark = 'E' := by simpa using mark_mem
      have hTake := takeWhile_isDigit isDigits.2 hRest.endsDigits
      have hDrop := dropWhile_isDigit isDigits.2 hRest.endsDigits
      obtain ⟨digit, others, rfl, hDigit⟩ := isDigits.exists_cons
      have hMinus := ne_of_isDigit hDigit (show isDigit '-' = false from rfl)
      have hPlus := ne_of_isDigit hDigit (show isDigit '+' = false from rfl)
      simp only [List.mem_cons, List.not_mem_nil, or_false] at sign_mem
      rw [List.cons_append] at hTake hDrop
      obtain rfl | rfl | rfl := sign_mem <;>
        simp [skipExponent, hMark, hMinus, hPlus, hTake, hDrop]

theorem IsWhole.zero_alone {digit : Char} {others : List Char} (h : IsWhole (digit :: others)) :
    ¬(digit = '0' ∧ others ≠ []) := by
  rintro ⟨rfl, hOthers⟩
  exact hOthers (List.cons.inj (h.2 rfl)).2

theorem skipUnsignedNumber_isWhole {whole : List Char} (hWhole : IsWhole whole)
    (hFraction : IsFraction fraction) (hExponent : IsExponent exponent) (hRest : EndsNumber rest) :
    skipUnsignedNumber (whole ++ (fraction ++ (exponent ++ rest))) = .ok rest := by
  have hDigits := hWhole.1
  have hHead := hExponent.head?_append hRest
  have hEnds : EndsDigits (exponent ++ rest) := fun c hc => (hHead c hc).1
  have hTake := takeWhile_isDigit hDigits.2 (hFraction.endsDigits hEnds)
  have hDrop := dropWhile_isDigit hDigits.2 (hFraction.endsDigits hEnds)
  have hSkip := skipExponent_isExponent hExponent hRest
  obtain ⟨digit, others, rfl, -⟩ := hDigits.exists_cons
  rw [skipUnsignedNumber, hTake]
  simp only [if_neg hWhole.zero_alone, hDrop]
  cases hFraction with
  | absent =>
      split
      · next text hDot => exact absurd rfl (hHead '.' (congrArg List.head? hDot)).2
      · exact hSkip
  | @digits digits isDigits =>
      have hTake := takeWhile_isDigit isDigits.2 hEnds
      have hDrop := dropWhile_isDigit isDigits.2 hEnds
      simp [hTake, hDrop, isDigits.isEmpty, hSkip]

theorem skipNumber_isNumber {number : List Char} (h : IsNumber number) (hRest : EndsNumber rest) :
    skipNumber (number ++ rest) = .ok rest := by
  obtain ⟨sign_mem, isWhole, isFraction, isExponent⟩ := h
  have hSkip := skipUnsignedNumber_isWhole isWhole isFraction isExponent hRest
  obtain ⟨digit, others, rfl, hDigit⟩ := isWhole.1.exists_cons
  have hMinus := ne_of_isDigit hDigit (show isDigit '-' = false from rfl)
  simp only [List.mem_cons, List.not_mem_nil, or_false] at sign_mem
  obtain rfl | rfl := sign_mem <;> simpa [skipNumber, hMinus] using hSkip

theorem IsNumber.exists_cons {number : List Char} (h : IsNumber number) :
    ∃ c others, number = c :: others ∧ (c = '-' ∨ isDigit c = true) := by
  obtain ⟨sign_mem, isWhole, isFraction, isExponent⟩ := h
  obtain ⟨digit, others, rfl, hDigit⟩ := isWhole.1.exists_cons
  simp only [List.mem_cons, List.not_mem_nil, or_false] at sign_mem
  obtain rfl | rfl := sign_mem
  · exact ⟨digit, _, rfl, .inr hDigit⟩
  · exact ⟨'-', _, rfl, .inl rfl⟩

section Natural

variable {n : Nat}

theorem isDigits_toDigits (n : Nat) : IsDigits (Nat.toDigits 10 n) := by
  refine ⟨Nat.toDigits_ne_nil, fun c hc => ?_⟩
  have hDigit := Nat.isDigit_of_mem_toDigits (by decide) (by decide) hc
  simpa [isDigit, Char.isDigit, Char.le_def] using hDigit

/-- A number other than zero has no zero in front. -/
theorem head?_toDigits (hPos : 0 < n) : (Nat.toDigits 10 n).head? ≠ some '0' := by
  induction n using Nat.strongRecOn with
  | ind n ih =>
    rw [Nat.toDigits_eq_if (by decide)]
    split_ifs with hDigit
    · simp only [List.head?_cons, Option.some.injEq, ne_eq, Nat.digitChar_eq_zero]
      omega
    · have hHead := ih (n / 10) (by omega) (by omega)
      obtain ⟨digit, digits, hCons⟩ :=
        List.exists_cons_of_ne_nil (Nat.toDigits_ne_nil (b := 10) (n := n / 10))
      rw [hCons] at hHead ⊢
      exact hHead

theorem isWhole_toDigits (n : Nat) : IsWhole (Nat.toDigits 10 n) := by
  refine ⟨isDigits_toDigits n, fun hHead => ?_⟩
  obtain rfl : n = 0 := Nat.eq_zero_of_not_pos fun hPos => head?_toDigits hPos hHead
  rfl

theorem isNumber_toDigits (n : Nat) : IsNumber (Nat.toDigits 10 n) := by
  have h : IsNumber ([] ++ (Nat.toDigits 10 n ++ ([] ++ []))) :=
    .parts (by decide) (isWhole_toDigits n) .absent .absent
  rwa [List.nil_append, List.append_nil, List.append_nil] at h

/-- Further digits make a number no smaller. -/
theorem le_ofDigitChars (start : Nat) (digits : List Char) :
    start ≤ Nat.ofDigitChars 10 digits start := by
  rw [Nat.ofDigitChars_eq_ofDigitChars_zero]
  exact Nat.le_add_right_of_le (Nat.le_mul_of_pos_left start (Nat.pow_pos (by decide)))

/-- No digit is left over as long as the number fits into 64 bits. -/
theorem appendDigits_eq (start : Nat) (digits : List Char)
    (h : Nat.ofDigitChars 10 digits start < Nat.pow 2 64) :
    appendDigits start digits = (Nat.ofDigitChars 10 digits start, 0) := by
  induction digits generalizing start with
  | nil => rfl
  | cons digit digits ih =>
      rw [Nat.ofDigitChars_cons] at h ⊢
      have hNext : 10 * start + (digit.toNat - 48) < Nat.pow 2 64 :=
        Nat.lt_of_le_of_lt (le_ofDigitChars _ digits) h
      rw [appendDigits]
      simp only [if_pos hNext]
      exact ih _ h

theorem fractionPart_toDigits (hFits : n < Nat.pow 2 64) (hRest : EndsNumber rest) :
    fractionPart false (Nat.toDigits 10 n) rest = .ok (.integer n, rest) := by
  have hValue : appendDigits 0 (Nat.toDigits 10 n) = (n, 0) := by
    have h := appendDigits_eq 0 (Nat.toDigits 10 n)
    rw [Nat.ofDigitChars_ten_toDigits] at h
    exact h hFits
  simp only [fractionPart, hValue]
  split
  · exact absurd rfl (hRest '.' rfl).2.1
  · next c rest _ =>
      obtain ⟨-, -, hLower, hUpper⟩ := hRest c rfl
      simp only [hLower, hUpper, ne_eq, not_false_eq_true, and_self, if_true]
      rfl
  · rfl

theorem number_toDigits (hFits : n < Nat.pow 2 64) (hRest : EndsNumber rest) :
    number (Nat.toDigits 10 n ++ rest) = .ok (.integer n, rest) := by
  have hTake := takeWhile_isDigit (isDigits_toDigits n).2 hRest.endsDigits
  have hDrop := dropWhile_isDigit (isDigits_toDigits n).2 hRest.endsDigits
  have hWhole := isWhole_toDigits n
  have hFraction := fractionPart_toDigits hFits hRest
  obtain ⟨digit, others, hCons, hDigit⟩ := hWhole.1.exists_cons
  rw [hCons] at hTake hDrop hWhole hFraction ⊢
  have hMinus := ne_of_isDigit hDigit (show isDigit '-' = false from rfl)
  have hUnsigned : number (digit :: others ++ rest) = unsignedNumber false (digit :: others ++ rest) := by
    simp [number, hMinus]
  rw [hUnsigned, unsignedNumber, hTake]
  simp only [if_neg hWhole.zero_alone, hDrop, hFraction]

theorem natural_toDigits (hGap : IsGap gap) (hFits : n < Nat.pow 2 64) (hRest : EndsNumber rest) :
    natural (gap ++ (Nat.toDigits 10 n ++ rest)) = .ok (n, rest) := by
  have hNumber := number_toDigits hFits hRest
  obtain ⟨digit, others, hCons, hDigit⟩ := (isDigits_toDigits n).exists_cons
  rw [hCons, List.cons_append] at hNumber ⊢
  rw [natural, skipBlank_gap hGap (isBlank_of_isDigit hDigit)]
  simp [hDigit, hNumber]

end Natural

end Signet.Json
