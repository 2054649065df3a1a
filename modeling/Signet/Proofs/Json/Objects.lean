import Signet.Proofs.Json.Members
import Signet.Proofs.Json.Strings

/-! Objects as they are printed. A printed object is one of the grammar, with a layout of its own, so that
it is read member by member as any other one. -/
namespace Signet.Json

/-- The start of a line at a level of nesting. -/
def indent (level : Nat) : List Char := '\n' :: List.replicate (2 * level) ' '

theorem isGap_indent (level : Nat) : IsGap (indent level) := by
  intro blank hMem
  rcases List.mem_cons.mp hMem with rfl | hMem
  · rfl
  · rw [List.eq_of_mem_replicate hMem]
    rfl

theorem isGap_space : IsGap [' '] := List.forall_mem_singleton.mpr rfl

/-- A member on a line of its own. -/
def Member.printed (level : Nat) (entry : String × List Char) : Member where
  before := indent (level + 1)
  name := entry.1.toList.flatMap escapedChar
  after := []
  content := ⟨[' '], entry.2, [], isGap_space, isGap_nil⟩
  isGap_before := isGap_indent (level + 1)
  isQuoted_name := (spells_flatMap_escapedChar entry.1.toList).isQuoted
  isGap_after := isGap_nil

theorem Member.named_printed (level : Nat) (name : String) (value : List Char) :
    (Member.printed level (name, value)).Named name := spells_flatMap_escapedChar name.toList

theorem Member.not_named_printed (level : Nat) {name other : String} (value : List Char)
    (h : name ≠ other) : ¬(Member.printed level (name, value)).Named other :=
  fun hOther => h ((Member.named_printed level name value).unique hOther)

theorem Member.isReadable_of_mem_printed {level : Nat} {entries : List (String × List Char)} :
    ∀ member ∈ entries.map (Member.printed level), member.IsReadable := by
  intro member hMem
  obtain ⟨entry, -, rfl⟩ := List.mem_map.mp hMem
  exact ⟨entry.1, Member.named_printed level entry.1 entry.2⟩

theorem Member.text_printed (level : Nat) (entry : String × List Char) :
    (Member.printed level entry).text =
      indent (level + 1) ++ ofString entry.1 ++ [':', ' '] ++ entry.2 := by
  simp [text, printed, Element.text, ofString]

theorem ofMembers_eq_objectText (level : Nat) (entries : List (String × List Char)) :
    ofMembers level entries = objectText (entries.map (Member.printed level)) (indent level) := by
  rw [objectText, List.map_map, Function.comp_def, funext (Member.text_printed level)]
  rfl

end Signet.Json
