import Mathlib.Logic.Function.Basic
import Signet.Descriptor
import Signet.Proofs.Json.Objects

/-! The JSON form of descriptors. A descriptor is read back from its text, whatever characters its fields
hold, so that the text tells all there is to the descriptor. -/
namespace Signet

theorem KeyType.lookup_name (keyType : KeyType) : variants.lookup keyType.name = some keyType := by
  cases keyType <;> decide

namespace Descriptor

/-- The members of the text of a descriptor. -/
def entries (descriptor : Descriptor) : List (String × List Char) := [
  ("key_type", Json.ofString descriptor.keyType.name),
  ("key_id", Json.ofString descriptor.keyId),
  ("public_key", Json.ofString descriptor.publicKey)]

/-- Each member of the text fills its field. -/
theorem readsMembers_entries (descriptor : Descriptor) :
    Json.ReadsMembers readMember {} (descriptor.entries.map (Json.Member.printed 0))
      (.ok ⟨some descriptor.keyType, some descriptor.keyId, some descriptor.publicKey⟩) := by
  refine .cons (Json.Member.named_printed 0 _ _) ⟨some descriptor.keyType, none, none⟩
    (fun rest _ => ?_)
    (.cons (Json.Member.named_printed 0 _ _)
      ⟨some descriptor.keyType, some descriptor.keyId, none⟩ (fun rest _ => ?_)
      (.cons (Json.Member.named_printed 0 _ _)
        ⟨some descriptor.keyType, some descriptor.keyId, some descriptor.publicKey⟩
        (fun rest _ => ?_) (.nil _)))
  · rw [readMember, if_pos rfl, Json.field_none "key_type"
      (Json.variant_ofString descriptor.keyType.lookup_name Json.isGap_space rest)]
    rfl
  · rw [readMember, if_neg (by decide), if_pos rfl, Json.field_none "key_id"
      (Json.string_ofString Json.isGap_space descriptor.keyId rest)]
    rfl
  · rw [readMember, if_neg (by decide), if_neg (by decide), if_pos rfl, Json.field_none "public_key"
      (Json.string_ofString Json.isGap_space descriptor.publicKey rest)]
    rfl

/-- A descriptor is read off the front of a text that begins with its own. -/
theorem read_ofMembers (descriptor : Descriptor) (rest : List Char) :
    read (Json.ofMembers 0 descriptor.entries ++ rest) = .ok (descriptor, rest) := by
  rw [Json.ofMembers_eq_objectText]
  obtain ⟨body, hBody⟩ : ∃ body, Json.objectText (descriptor.entries.map (Json.Member.printed 0))
      (Json.indent 0) ++ rest = '\x7b' :: body := ⟨_, rfl⟩
  have hMembers := Json.members_objectText descriptor.readsMembers_entries (Json.isGap_indent 0) hBody
  rw [hBody, read, Json.skipBlank_cons rfl]
  simp only [hMembers, ofMembers, bind, Except.bind, Except.map]

theorem ofJson_toJson (descriptor : Descriptor) : ofJson descriptor.toJson = .ok descriptor := by
  have hRead := descriptor.read_ofMembers []
  rw [List.append_nil] at hRead
  have hText : descriptor.toJson.toList = Json.ofMembers 0 descriptor.entries := String.toList_ofList
  rw [ofJson, Json.parse, hText, hRead]
  rfl

/-- Every descriptor is read back from its text, and no two descriptors have the same text. -/
theorem ofJson_toJson_and_toJson_injective :
    (∀ descriptor : Descriptor, ofJson descriptor.toJson = .ok descriptor) ∧
      Function.Injective toJson := by
  refine ⟨ofJson_toJson, fun first second h => ?_⟩
  have hRead := first.ofJson_toJson
  rw [h, second.ofJson_toJson] at hRead
  exact (Except.ok.inj hRead).symm

end Descriptor

end Signet
