import Signet.Proofs.Config.Document
import Signet.Proofs.Json.Objects

/-! What comes of configuration documents. The limits that hold are validated whether they were given or
not, and the text of a configuration is a document as any other one, so that it gives the configuration back
if and only if this is valid. -/
namespace Signet

namespace RsaPolicy

/-- The members of the text of a policy. -/
def entries (policy : RsaPolicy) : List (String × List Char) := [
  ("min_key_size_bits", Json.ofNat policy.minKeySizeBits),
  ("max_key_size_bits", Json.ofNat policy.maxKeySizeBits),
  ("min_seed_len", Json.ofNat policy.minSeedLength)]

/-- The text of a policy, as an object that gives every limit. -/
def printed (level : Nat) (policy : RsaPolicy) (hFits : policy.Fits) : Document where
  object := {
    members := policy.entries.map (Json.Member.printed level)
    gap := Json.indent level
    isGap := Json.isGap_indent level
    isValue := by
      simp only [entries, List.map_cons, List.map_nil, List.forall_mem_cons]
      exact ⟨.number (Json.isNumber_toDigits _), .number (Json.isNumber_toDigits _),
        .number (Json.isNumber_toDigits _), List.forall_mem_nil _⟩ }
  given := ⟨some policy.minKeySizeBits, some policy.maxKeySizeBits, some policy.minSeedLength⟩
  gives_minKeySizeBits :=
    .named (Json.Member.named_printed level _ _) ⟨hFits.1, rfl⟩
      (.other (Json.Member.not_named_printed level _ (by decide))
        (.other (Json.Member.not_named_printed level _ (by decide)) .nil))
  gives_maxKeySizeBits :=
    .other (Json.Member.not_named_printed level _ (by decide))
      (.named (Json.Member.named_printed level _ _) ⟨hFits.2.1, rfl⟩
        (.other (Json.Member.not_named_printed level _ (by decide)) .nil))
  gives_minSeedLength :=
    .other (Json.Member.not_named_printed level _ (by decide))
      (.other (Json.Member.not_named_printed level _ (by decide))
        (.named (Json.Member.named_printed level _ _) ⟨hFits.2.2, rfl⟩ .nil))

theorem text_printed (level : Nat) {policy : RsaPolicy} (hFits : policy.Fits) :
    (policy.printed level hFits).object.text = policy.toJson level :=
  (Json.ofMembers_eq_objectText level policy.entries).symm

end RsaPolicy

namespace Config

/-- The text of a configuration, as a document that gives every limit. -/
def printed (config : Config) (hFits : config.rsa.Fits) : Document where
  before := []
  object := {
    members := [("rsa", config.rsa.toJson 1)].map (Json.Member.printed 0)
    gap := Json.indent 0
    isGap := Json.isGap_indent 0
    isValue := by
      rw [List.map_singleton, List.forall_mem_singleton]
      exact RsaPolicy.text_printed 1 hFits ▸ (config.rsa.printed 1 hFits).object.isValue_text }
  after := []
  rsa := some (config.rsa.printed 1 hFits)
  isGap_before := Json.isGap_nil
  isGap_after := Json.isGap_nil
  gives_rsa := .named (Json.Member.named_printed 0 _ _) (RsaPolicy.text_printed 1 hFits).symm .nil

theorem text_printed {config : Config} (hFits : config.rsa.Fits) :
    (config.printed hFits).text = config.toJson := by
  rw [Document.text, printed, List.nil_append, List.append_nil, Json.Object.text,
    ← Json.ofMembers_eq_objectText, toJson]

/-- A printed document spells its names out. -/
theorem isReadable_printed {config : Config} (hFits : config.rsa.Fits) :
    (config.printed hFits).IsReadable :=
  List.forall_mem_append.mpr ⟨Json.Member.isReadable_of_mem_printed, Json.Member.isReadable_of_mem_printed⟩

theorem isWithinLimits_iff {config : Config} : config.rsa.IsWithinLimits ↔ config.validate = .ok () := by
  have hValid : config.rsa.IsWithinLimits ↔ config.rsa.validate = .ok () :=
    RsaPolicy.validate_eq_ok_iff.symm
  rw [hValid, validate]
  cases config.rsa.validate <;> simp [Except.mapError]

theorem exists_config_of_validate_ne {config : Config} (h : config.validate ≠ .ok ()) :
    ∃ fault, config.validate = .error (.config fault) := by
  rw [validate] at h ⊢
  cases hPolicy : config.rsa.validate with
  | error fault => exact ⟨.policy fault, rfl⟩
  | ok _ => exact absurd (by rw [hPolicy]; rfl) h

theorem ofJson_eq_of_parse_eq_ok {text : String} {config : Config} (h : Json.parse read text = .ok config) :
    ofJson text = config.validate.map fun _ => config := by
  rw [ofJson, h]
  cases hValid : config.validate <;> simp [hValid, Except.mapError, Except.map, bind, Except.bind]

theorem Document.ofJson_text {document : Document} (h : document.IsReadable) :
    ofJson document.text = document.config.validate.map fun _ => document.config :=
  ofJson_eq_of_parse_eq_ok (document.parse_text.trans (Json.outcome_of_forall h _))

theorem Document.ofJson_text_of_not_isReadable {document : Document} (h : ¬document.IsReadable) :
    ofJson document.text = .error (.json .malformed) := by
  rw [ofJson, document.parse_text, Json.outcome_of_not_forall h]
  rfl

theorem ofJson_toJson {config : Config} (hFits : config.rsa.Fits) :
    ofJson config.toJson = config.validate.map fun _ => config := by
  rw [← text_printed hFits, Document.ofJson_text (isReadable_printed hFits)]
  rfl

theorem validate_of_ofJson_eq_ok {text : String} {config : Config} (h : ofJson text = .ok config) :
    config.validate = .ok () := by
  obtain ⟨parsed, -, hParsed⟩ := exists_of_bind_eq_ok h
  obtain ⟨_, hValid, hSame⟩ := exists_of_bind_eq_ok hParsed
  obtain rfl := Except.ok.inj hSame
  exact hValid

theorem map_validate_eq_ok_iff {config : Config} :
    (config.validate.map fun _ => config) = .ok config ↔ config.validate = .ok () := by
  cases config.validate <;> simp [Except.map]

theorem exists_map_validate_eq_config_iff {config : Config} :
    (∃ fault, (config.validate.map fun _ => config) = .error (.config fault)) ↔
      config.validate ≠ .ok () := by
  constructor
  · rintro ⟨fault, h⟩ hValid
    rw [hValid] at h
    cases h
  · intro h
    obtain ⟨fault, hFault⟩ := exists_config_of_validate_ne h
    exact ⟨fault, by rw [hFault]; rfl⟩

/-- A member on the line of the one before, with a name that is spelled in any way. -/
def inLine (name value : List Char) (isQuoted_name : Json.IsQuoted name) : Json.Member where
  before := []
  name := name
  after := []
  content := ⟨[' '], value, [], Json.isGap_space, Json.isGap_nil⟩
  isGap_before := Json.isGap_nil
  isQuoted_name := isQuoted_name
  isGap_after := Json.isGap_nil

/-- Half of a surrogate pair. -/
theorem isQuoted_surrogate : Json.IsQuoted ['\\', 'u', 'd', '8', '0', '0'] := .code rfl .nil

/-- An array that holds half of a surrogate pair, and a number that is out of range. -/
def note : List Char :=
  Json.arrayText [⟨[], ['"', '\\', 'u', 'd', '8', '0', '0', '"'], [], Json.isGap_nil, Json.isGap_nil⟩,
    ⟨[' '], ['-', '1', '.', '5', 'e', '+', '4', '0', '0'], [], Json.isGap_space, Json.isGap_nil⟩] []

theorem isValue_note : Json.IsValue note := by
  have hExponent : Json.IsExponent ('e' :: (['+'] ++ ['4', '0', '0'])) :=
    .digits (by decide) (by decide) (Json.isDigits_toDigits 400)
  have hNumber : Json.IsNumber (['-'] ++ (['1'] ++ (['.', '5'] ++ 'e' :: (['+'] ++ ['4', '0', '0'])))) :=
    .parts (by decide) (Json.isWhole_toDigits 1) (.digits (Json.isDigits_toDigits 5)) hExponent
  refine .array Json.isGap_nil ?_
  simp only [List.forall_mem_cons]
  exact ⟨.string isQuoted_surrogate, .number hNumber, List.forall_mem_nil _⟩

/-- Two limits in an order of their own, with a note between them. -/
def notedLimits : RsaPolicy.Document where
  object := {
    members := [("min_seed_len", ['1', '6']), ("note", note),
      ("min_key_size_bits", ['2', '0', '4', '8'])].map (Json.Member.printed 1)
    gap := Json.indent 1
    isGap := Json.isGap_indent 1
    isValue := by
      simp only [List.map_cons, List.map_nil, List.forall_mem_cons]
      exact ⟨.number (Json.isNumber_toDigits 16), isValue_note, .number (Json.isNumber_toDigits 2048),
        List.forall_mem_nil _⟩ }
  given := { minKeySizeBits := some 2048, minSeedLength := some 16 }
  gives_minKeySizeBits :=
    .other (Json.Member.not_named_printed 1 _ (by decide))
      (.other (Json.Member.not_named_printed 1 _ (by decide))
        (.named (Json.Member.named_printed 1 _ _) ⟨by decide, by decide⟩ .nil))
  gives_maxKeySizeBits :=
    .other (Json.Member.not_named_printed 1 _ (by decide))
      (.other (Json.Member.not_named_printed 1 _ (by decide))
        (.other (Json.Member.not_named_printed 1 _ (by decide)) .nil))
  gives_minSeedLength :=
    .named (Json.Member.named_printed 1 _ _) ⟨by decide, by decide⟩
      (.other (Json.Member.not_named_printed 1 _ (by decide))
        (.other (Json.Member.not_named_printed 1 _ (by decide)) .nil))

/-- The name of the limits, with an escape for its first letter. -/
theorem spells_rsa : Json.Spells ['\\', 'u', '0', '0', '7', '2', 's', 'a'] "rsa".toList := by
  have hLater : Json.Spells ['s', 'a'] ['s', 'a'] :=
    .plain ⟨by decide, by decide, by decide⟩ (.plain ⟨by decide, by decide, by decide⟩ .nil)
  have hUnit : Json.codeUnit? '0' '0' '7' '2' = some 'r'.toNat := by decide
  exact .code hUnit (.inl (by decide)) hLater

def notedDocument : Document where
  before := []
  object := {
    members := [inLine _ notedLimits.object.text spells_rsa.isQuoted]
    gap := []
    isGap := Json.isGap_nil
    isValue := List.forall_mem_singleton.mpr notedLimits.object.isValue_text }
  after := []
  rsa := some notedLimits
  isGap_before := Json.isGap_nil
  isGap_after := Json.isGap_nil
  gives_rsa := .named spells_rsa rfl .nil

theorem isReadable_notedDocument : notedDocument.IsReadable :=
  List.forall_mem_append.mpr
    ⟨List.forall_mem_singleton.mpr ⟨"rsa", spells_rsa⟩, Json.Member.isReadable_of_mem_printed⟩

theorem not_spells_surrogate (chars : List Char) :
    ¬Json.Spells ['\\', 'u', 'd', '8', '0', '0'] chars := by
  intro h
  cases h with
  | plain isPlain later => exact isPlain.2.2 rfl
  | short escape later => cases escape
  | code escape noSurrogate later =>
      obtain rfl : 0xd800 = _ := Option.some.inj escape
      omega

/-- A document whose only member has a name that stands for no characters. -/
def surrogateDocument : Document where
  before := []
  object := {
    members := [inLine ['\\', 'u', 'd', '8', '0', '0'] ['0'] isQuoted_surrogate]
    gap := []
    isGap := Json.isGap_nil
    isValue := List.forall_mem_singleton.mpr (.number (Json.isNumber_toDigits 0)) }
  after := []
  rsa := none
  isGap_before := Json.isGap_nil
  isGap_after := Json.isGap_nil
  gives_rsa := .other (not_spells_surrogate _) .nil

theorem not_isReadable_surrogateDocument : ¬surrogateDocument.IsReadable := by
  intro h
  obtain ⟨name, hNamed⟩ := h _ List.mem_cons_self
  exact not_spells_surrogate _ hNamed

/-- A document whose names all stand for characters gives the configuration for production with its own
limits in place, if this is valid, and is refused for its limits otherwise. A name that stands for none
makes the document malformed. A configuration is read back from its text if and only if it is valid, and no
text whatever gives one that is not. -/
theorem ofJson_document_and_ofJson_toJson_iff :
    (∀ document : Document,
      (document.IsReadable →
        (document.config.rsa.IsWithinLimits → ofJson document.text = .ok document.config) ∧
          (¬document.config.rsa.IsWithinLimits →
            ∃ fault, ofJson document.text = .error (.config fault))) ∧
        (¬document.IsReadable → ofJson document.text = .error (.json .malformed))) ∧
      (∀ config : Config, config.rsa.Fits →
        (ofJson config.toJson = .ok config ↔ config.validate = .ok ()) ∧
          ((∃ fault, ofJson config.toJson = .error (.config fault)) ↔ config.validate ≠ .ok ())) ∧
      ∀ (text : String) (config : Config), ofJson text = .ok config →
        config.validate = .ok () ∧ config.rsa.IsWithinLimits := by
  refine ⟨fun document => ⟨fun hReadable => ?_, Document.ofJson_text_of_not_isReadable⟩,
    fun config hFits => ?_, fun text config h => ?_⟩
  · rw [Document.ofJson_text hReadable, map_validate_eq_ok_iff, exists_map_validate_eq_config_iff,
      isWithinLimits_iff]
    exact ⟨id, id⟩
  · rw [ofJson_toJson hFits]
    exact ⟨map_validate_eq_ok_iff, exists_map_validate_eq_config_iff⟩
  · have hValid := validate_of_ofJson_eq_ok h
    exact ⟨hValid, isWithinLimits_iff.mpr hValid⟩

theorem ofJson_notedDocument :
    notedDocument.text =
        "\x7b\"\\u0072sa\": \x7b\n    \"min_seed_len\": 16,\n    \"note\": [\"\\ud800\", -1.5e+400],\n" ++
          "    \"min_key_size_bits\": 2048\n  \x7d\x7d" ∧
      notedDocument.IsReadable ∧ ofJson notedDocument.text = .ok ⟨⟨2048, 4096, 16⟩⟩ ∧
      ¬surrogateDocument.IsReadable ∧ ofJson surrogateDocument.text = .error (.json .malformed) ∧
      RsaPolicy.testing.Fits ∧ ofJson (⟨.testing⟩ : Config).toJson = .ok ⟨.testing⟩ ∧
      (⟨.testing⟩ : Config).rsa.IsWithinLimits := by
  obtain ⟨hDocuments, hConfigs, hTexts⟩ := ofJson_document_and_ofJson_toJson_iff
  have hFits : RsaPolicy.testing.Fits := ⟨by decide, by decide, by decide⟩
  have hTesting : ofJson (⟨.testing⟩ : Config).toJson = .ok ⟨.testing⟩ :=
    (hConfigs ⟨.testing⟩ hFits).1.mpr rfl
  exact ⟨by decide, isReadable_notedDocument,
    ((hDocuments notedDocument).1 isReadable_notedDocument).1 (by decide),
    not_isReadable_surrogateDocument, (hDocuments surrogateDocument).2 not_isReadable_surrogateDocument,
    hFits, hTesting, (hTexts _ ⟨.testing⟩ hTesting).2⟩

/-- A member that is not known may make a document malformed by its name. -/
theorem not_forall_ofJson_document :
    (surrogateDocument.text = "\x7b\"\\ud800\": 0\x7d" ∧ surrogateDocument.config = ⟨.standard⟩ ∧
      ofJson surrogateDocument.text = .error (.json .malformed)) ∧
      ¬∀ document : Document,
        (document.config.rsa.IsWithinLimits → ofJson document.text = .ok document.config) ∧
          (¬document.config.rsa.IsWithinLimits →
            ∃ fault, ofJson document.text = .error (.config fault)) := by
  have hMalformed := Document.ofJson_text_of_not_isReadable not_isReadable_surrogateDocument
  refine ⟨⟨by decide, rfl, hMalformed⟩, fun hAll => ?_⟩
  have hOk := (hAll surrogateDocument).1 (by decide)
  rw [hMalformed] at hOk
  cases hOk

end Config

end Signet
