import Signet.Proofs.Json.Numbers
import Signet.Proofs.Json.Spelling

/-! Values that are passed over. Whatever the value is and however deep it goes, the text goes on right
behind it, and its own length is fuel enough. -/
namespace Signet.Json

variable {fuel : Nat} {text body gap rest : List Char}

/-- The text of elements behind another one, up to the closing bracket and on. -/
def afterElement : List Element → (gap rest : List Char) → List Char
  | [], gap, rest => gap ++ ']' :: rest
  | element :: elements, gap, rest =>
      ',' :: (element.before ++ (element.value ++ (element.after ++ afterElement elements gap rest)))

theorem arrayText_nil_append (gap rest : List Char) :
    arrayText [] gap ++ rest = '[' :: (gap ++ ']' :: rest) := by
  simp [arrayText]

theorem arrayText_cons_append (element : Element) (elements : List Element) (gap rest : List Char) :
    arrayText (element :: elements) gap ++ rest =
      '[' :: (element.before ++ (element.value ++ (element.after ++ afterElement elements gap rest))) := by
  have hAfter : (elements.map Element.text).flatMap (',' :: ·) ++ (gap ++ ']' :: rest) =
      afterElement elements gap rest := by
    induction elements with
    | nil => rfl
    | cons next elements ih => simp [afterElement, ← ih, Element.text]
  simp [arrayText, ← hAfter, intercalate_comma_cons, Element.text]

namespace Member

/-- What comes behind the name of a member: its value, and a text behind that. -/
def afterName (member : Member) (rest : List Char) : List Char :=
  member.after ++ ':' :: (member.content.before ++ (member.content.value ++ rest))

/-- What is left of a member and the text behind it, after the quote that opens its name. -/
def remainder (member : Member) (rest : List Char) : List Char :=
  member.name ++ '"' :: member.afterName (member.content.after ++ rest)

theorem text_append (member : Member) (rest : List Char) :
    member.text ++ rest = member.before ++ '"' :: member.remainder rest := by
  simp [text, remainder, afterName, Element.text]

end Member

/-- The text of members behind another one, up to the closing brace and on. -/
def afterMember : List Member → (gap rest : List Char) → List Char
  | [], gap, rest => gap ++ '\x7d' :: rest
  | member :: members, gap, rest =>
      ',' :: (member.before ++ '"' :: member.remainder (afterMember members gap rest))

theorem objectText_nil_append (gap rest : List Char) :
    objectText [] gap ++ rest = '\x7b' :: (gap ++ '\x7d' :: rest) := by
  simp [objectText]

theorem objectText_cons_append (member : Member) (members : List Member) (gap rest : List Char) :
    objectText (member :: members) gap ++ rest =
      '\x7b' :: (member.before ++ '"' :: member.remainder (afterMember members gap rest)) := by
  have hAfter : (members.map Member.text).flatMap (',' :: ·) ++ (gap ++ '\x7d' :: rest) =
      afterMember members gap rest := by
    induction members with
    | nil => rfl
    | cons next members ih => simp [afterMember, ← ih, ← Member.text_append]
  rw [← Member.text_append, ← hAfter]
  simp [objectText, intercalate_comma_cons]

/-! What is done about a value once its first character is known. -/

section Dispatch

attribute [local simp] skipValue skipElements skipMembers

variable {c : Char} {name colon value behind next : List Char}

theorem skipValue_number (h : skipBlank text = c :: body) (hFirst : c = '-' ∨ isDigit c = true) :
    skipValue (fuel + 1) text = skipNumber (c :: body) := by
  have hWords : c ≠ 'n' ∧ c ≠ 't' ∧ c ≠ 'f' := by
    obtain rfl | hDigit := hFirst
    · decide
    · exact ⟨ne_of_isDigit hDigit rfl, ne_of_isDigit hDigit rfl, ne_of_isDigit hDigit rfl⟩
  simp [h, hWords, hFirst]

theorem skipValue_string (h : skipBlank text = '"' :: body) :
    skipValue (fuel + 1) text = skipString body := by
  simp [h, show isDigit '"' = false from rfl]

theorem skipValue_emptyArray (h : skipBlank text = '[' :: body) (hClose : skipBlank body = ']' :: rest) :
    skipValue (fuel + 1) text = .ok rest := by
  simp [h, hClose, show isDigit '[' = false from rfl]

theorem skipValue_array (h : skipBlank text = '[' :: body) (hOpen : skipBlank body = c :: next)
    (hFirst : c ≠ ']') : skipValue (fuel + 1) text = skipElements fuel (c :: next) := by
  simp [h, hOpen, hFirst, show isDigit '[' = false from rfl]

theorem skipValue_emptyObject (h : skipBlank text = '\x7b' :: body)
    (hClose : skipBlank body = '\x7d' :: rest) : skipValue (fuel + 1) text = .ok rest := by
  simp [h, hClose, show isDigit '\x7b' = false from rfl]

theorem skipValue_object (h : skipBlank text = '\x7b' :: body) (hOpen : skipBlank body = '"' :: next) :
    skipValue (fuel + 1) text = skipMembers fuel ('"' :: next) := by
  simp [h, hOpen, show isDigit '\x7b' = false from rfl]

theorem skipElements_close (hValue : skipValue fuel text = .ok behind)
    (hClose : skipBlank behind = ']' :: rest) : skipElements (fuel + 1) text = .ok rest := by
  simp [hValue, hClose, bind, Except.bind]

theorem skipElements_next (hValue : skipValue fuel text = .ok behind)
    (hComma : skipBlank behind = ',' :: rest) :
    skipElements (fuel + 1) text = skipElements fuel rest := by
  simp [hValue, hComma, bind, Except.bind]

section Members

variable (hOpen : skipBlank text = '"' :: name) (hName : skipString name = .ok colon)
  (hColon : skipBlank colon = ':' :: value) (hValue : skipValue fuel value = .ok behind)
include hOpen hName hColon hValue

theorem skipMembers_close (hClose : skipBlank behind = '\x7d' :: rest) :
    skipMembers (fuel + 1) text = .ok rest := by
  simp [hOpen, hName, hColon, hValue, hClose, bind, Except.bind]

theorem skipMembers_next (hComma : skipBlank behind = ',' :: rest) :
    skipMembers (fuel + 1) text = skipMembers fuel rest := by
  simp [hOpen, hName, hColon, hValue, hComma, bind, Except.bind]

end Members

end Dispatch

/-- A value is not mistaken for a blank or for the end of an array. -/
theorem IsValue.exists_cons {value : List Char} (h : IsValue value) :
    ∃ c others, value = c :: others ∧ isBlank c = false ∧ c ≠ ']' := by
  cases h with
  | nullWord => exact ⟨_, _, rfl, by decide⟩
  | trueWord => exact ⟨_, _, rfl, by decide⟩
  | falseWord => exact ⟨_, _, rfl, by decide⟩
  | string isQuoted => exact ⟨_, _, rfl, by decide⟩
  | array isGap isValue => exact ⟨_, _, rfl, by decide⟩
  | object isGap isValue => exact ⟨_, _, rfl, by decide⟩
  | number isNumber =>
      obtain ⟨c, others, rfl, rfl | hDigit⟩ := isNumber.exists_cons
      · exact ⟨'-', others, rfl, by decide⟩
      · exact ⟨c, others, rfl, isBlank_of_isDigit hDigit, ne_of_isDigit hDigit rfl⟩

theorem endsNumber_afterElement (elements : List Element) (hGap : IsGap gap) (rest : List Char) :
    EndsNumber (afterElement elements gap rest) := by
  cases elements with
  | nil => exact endsNumber_gap hGap (endsNumber_cons (by decide) rest)
  | cons element elements => exact endsNumber_cons (by decide) _

theorem endsNumber_afterMember (members : List Member) (hGap : IsGap gap) (rest : List Char) :
    EndsNumber (afterMember members gap rest) := by
  cases members with
  | nil => exact endsNumber_gap hGap (endsNumber_cons (by decide) rest)
  | cons member members => exact endsNumber_cons (by decide) _

theorem length_lt_afterElement (elements : List Element) (gap rest : List Char) :
    rest.length < (afterElement elements gap rest).length := by
  induction elements with
  | nil => simp [afterElement]; omega
  | cons element elements ih =>
      simp only [afterElement, List.length_cons, List.length_append]
      omega

theorem length_lt_afterMember (members : List Member) (gap rest : List Char) :
    members.length + rest.length < (afterMember members gap rest).length := by
  induction members with
  | nil => simp [afterMember]; omega
  | cons member members ih =>
      simp only [afterMember, Member.remainder, Member.afterName, List.length_cons, List.length_append]
      omega

/-- Whether a value is passed over with as much fuel as it has characters. -/
def IsSkipped (value : List Char) : Prop :=
  ∀ (fuel : Nat) {gap rest : List Char}, value.length ≤ fuel → IsGap gap → EndsNumber rest →
    skipValue fuel (gap ++ (value ++ rest)) = .ok rest

theorem skipElements_elements {element : Element} {elements : List Element}
    (hSkipped : ∀ each ∈ element :: elements, IsSkipped each.value) (hGap : IsGap gap)
    {lead : List Char} (hLead : IsGap lead)
    (hFuel : (element.value ++ (element.after ++ afterElement elements gap rest)).length ≤
      fuel + rest.length) :
    skipElements fuel
      (lead ++ (element.value ++ (element.after ++ afterElement elements gap rest))) = .ok rest := by
  induction elements generalizing element fuel lead with
  | nil =>
      simp only [afterElement, List.length_append, List.length_cons] at hFuel
      obtain ⟨fuel, rfl⟩ : ∃ less, fuel = less + 1 := Nat.exists_eq_add_one.mpr (by omega)
      have hValue := hSkipped element List.mem_cons_self fuel (by omega) hLead
        (endsNumber_gap element.isGap_after (endsNumber_afterElement [] hGap rest))
      refine skipElements_close hValue ?_
      rw [skipBlank_gap_append element.isGap_after]
      exact skipBlank_gap hGap rfl rest
  | cons next elements ih =>
      have hRest := length_lt_afterElement elements gap rest
      simp only [afterElement, List.length_append, List.length_cons] at hFuel
      obtain ⟨fuel, rfl⟩ : ∃ less, fuel = less + 1 := Nat.exists_eq_add_one.mpr (by omega)
      have hValue := hSkipped element List.mem_cons_self fuel (by omega) hLead
        (endsNumber_gap element.isGap_after (endsNumber_afterElement (next :: elements) hGap rest))
      rw [skipElements_next hValue (skipBlank_gap element.isGap_after rfl _)]
      refine ih (fun each hMem => hSkipped each (List.mem_cons_of_mem _ hMem)) next.isGap_before ?_
      simp only [List.length_append]
      omega

theorem skipMembers_members {member : Member} {members : List Member}
    (hSkipped : ∀ each ∈ member :: members, IsSkipped each.content.value) (hGap : IsGap gap)
    {lead : List Char} (hLead : IsGap lead)
    (hFuel : (member.remainder (afterMember members gap rest)).length ≤ fuel + rest.length) :
    skipMembers fuel (lead ++ '"' :: member.remainder (afterMember members gap rest)) = .ok rest := by
  induction members generalizing member fuel lead with
  | nil =>
      simp only [afterMember, Member.remainder, Member.afterName, List.length_append, List.length_cons] at hFuel
      obtain ⟨fuel, rfl⟩ : ∃ less, fuel = less + 1 := Nat.exists_eq_add_one.mpr (by omega)
      have hValue := hSkipped member List.mem_cons_self fuel (by omega)
        member.content.isGap_before
        (endsNumber_gap member.content.isGap_after (endsNumber_afterMember [] hGap rest))
      refine skipMembers_close (skipBlank_gap hLead rfl _)
        (skipString_isQuoted member.isQuoted_name _) (skipBlank_gap member.isGap_after rfl _) hValue ?_
      rw [skipBlank_gap_append member.content.isGap_after]
      exact skipBlank_gap hGap rfl rest
  | cons next members ih =>
      have hRest := length_lt_afterMember members gap rest
      simp only [afterMember, Member.remainder, Member.afterName, List.length_append, List.length_cons] at hFuel
      obtain ⟨fuel, rfl⟩ : ∃ less, fuel = less + 1 := Nat.exists_eq_add_one.mpr (by omega)
      have hValue := hSkipped member List.mem_cons_self fuel (by omega)
        member.content.isGap_before
        (endsNumber_gap member.content.isGap_after (endsNumber_afterMember (next :: members) hGap rest))
      rw [Member.remainder, Member.afterName, skipMembers_next (skipBlank_gap hLead rfl _)
        (skipString_isQuoted member.isQuoted_name _) (skipBlank_gap member.isGap_after rfl _) hValue
        (skipBlank_gap member.content.isGap_after rfl _)]
      refine ih (fun each hMem => hSkipped each (List.mem_cons_of_mem _ hMem)) next.isGap_before ?_
      simp only [Member.remainder, Member.afterName, List.length_append, List.length_cons]
      omega

theorem isSkipped_array {elements : List Element} (hGap : IsGap gap)
    (hSkipped : ∀ element ∈ elements, IsValue element.value ∧ IsSkipped element.value) :
    IsSkipped (arrayText elements gap) := by
  intro fuel lead rest hFuel hLead hRest
  obtain ⟨fuel, rfl⟩ := Nat.exists_eq_add_one.mpr (Nat.lt_of_lt_of_le (by simp [arrayText]) hFuel)
  have hLength : (arrayText elements gap ++ rest).length ≤ fuel + 1 + rest.length := by
    rw [List.length_append]
    omega
  cases elements with
  | nil =>
      rw [arrayText_nil_append]
      exact skipValue_emptyArray (skipBlank_gap hLead rfl _) (skipBlank_gap hGap rfl _)
  | cons element elements =>
      rw [arrayText_cons_append] at hLength ⊢
      obtain ⟨c, others, hCons, hBlank, hFirst⟩ := (hSkipped element List.mem_cons_self).1.exists_cons
      have hElements : skipElements fuel ([] ++ (element.value ++
          (element.after ++ afterElement elements gap rest))) = .ok rest := by
        refine skipElements_elements (fun each hMem => (hSkipped each hMem).2) hGap isGap_nil ?_
        simp only [List.length_cons, List.length_append] at hLength ⊢
        omega
      rw [List.nil_append, hCons, List.cons_append] at hElements
      rw [hCons, List.cons_append]
      rw [skipValue_array (skipBlank_gap hLead rfl _) (skipBlank_gap element.isGap_before hBlank _) hFirst]
      exact hElements

theorem isSkipped_object {members : List Member} (hGap : IsGap gap)
    (hSkipped : ∀ member ∈ members, IsSkipped member.content.value) :
    IsSkipped (objectText members gap) := by
  intro fuel lead rest hFuel hLead hRest
  obtain ⟨fuel, rfl⟩ := Nat.exists_eq_add_one.mpr (Nat.lt_of_lt_of_le (by simp [objectText]) hFuel)
  have hLength : (objectText members gap ++ rest).length ≤ fuel + 1 + rest.length := by
    rw [List.length_append]
    omega
  cases members with
  | nil =>
      rw [objectText_nil_append]
      exact skipValue_emptyObject (skipBlank_gap hLead rfl _) (skipBlank_gap hGap rfl _)
  | cons member members =>
      rw [objectText_cons_append] at hLength ⊢
      rw [skipValue_object (skipBlank_gap hLead rfl _) (skipBlank_gap member.isGap_before rfl _)]
      rw [← List.nil_append (_ :: _)]
      refine skipMembers_members hSkipped hGap isGap_nil ?_
      simp only [List.length_cons, List.length_append] at hLength
      omega

/-- Every value is passed over. -/
theorem IsValue.isSkipped {value : List Char} (h : IsValue value) : IsSkipped value := by
  induction h with
  | nullWord | trueWord | falseWord =>
      intro fuel gap rest hFuel hGap hRest
      obtain ⟨fuel, rfl⟩ := Nat.exists_eq_add_one.mpr (Nat.lt_of_lt_of_le (by decide) hFuel)
      rw [List.cons_append, skipValue, skipBlank_gap hGap rfl]
      rfl
  | number isNumber =>
      intro fuel gap rest hFuel hGap hRest
      have hSkip := skipNumber_isNumber isNumber hRest
      obtain ⟨c, others, rfl, hFirst⟩ := isNumber.exists_cons
      obtain ⟨fuel, rfl⟩ := Nat.exists_eq_add_one.mpr (Nat.lt_of_lt_of_le (by simp) hFuel)
      have hBlank : isBlank c = false := by
        obtain rfl | hDigit := hFirst
        · rfl
        · exact isBlank_of_isDigit hDigit
      rwa [List.cons_append, skipValue_number (skipBlank_gap hGap hBlank _) hFirst]
  | @string text isQuoted =>
      intro fuel gap rest hFuel hGap hRest
      obtain ⟨fuel, rfl⟩ := Nat.exists_eq_add_one.mpr (Nat.lt_of_lt_of_le (by simp) hFuel)
      rw [List.cons_append, List.cons_append, skipValue_string (skipBlank_gap hGap rfl _),
        List.append_assoc]
      exact skipString_isQuoted isQuoted rest
  | array isGap isValue ih =>
      exact isSkipped_array isGap fun element hMem => ⟨isValue element hMem, ih element hMem⟩
  | object isGap isValue ih => exact isSkipped_object isGap ih

theorem skip_isValue {value : List Char} (h : IsValue value) (hGap : IsGap gap) (hRest : EndsNumber rest) :
    skip (gap ++ (value ++ rest)) = .ok rest := by
  refine h.isSkipped _ ?_ hGap hRest
  simp only [List.length_append]
  omega

end Signet.Json
