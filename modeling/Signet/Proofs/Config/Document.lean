import Signet.Config.Document
import Signet.Proofs.Json.Members

/-! Configuration documents are read. Whatever the layout of a document, the order of its members and the
others among them, each limit is the given one, or the one for production. -/
namespace Signet

namespace Json

open Classical in
/-- What comes of reading members that are all well-formed: a name that stands for no characters is
malformed. -/
noncomputable def outcome {σ : Type} (members : List Member) (state : σ) : Except Fault σ :=
  if ∀ member ∈ members, member.IsReadable then .ok state else .error .malformed

section Outcome

variable {σ : Type} {member : Member} {members : List Member}

theorem outcome_of_forall (h : ∀ member ∈ members, member.IsReadable) (state : σ) :
    outcome members state = .ok state := if_pos h

theorem outcome_of_not_forall (h : ¬∀ member ∈ members, member.IsReadable) (state : σ) :
    outcome members state = .error .malformed := if_neg h

theorem outcome_nil (state : σ) : outcome [] state = .ok state :=
  outcome_of_forall (List.forall_mem_nil _) state

theorem outcome_cons (h : member.IsReadable) (state : σ) :
    outcome (member :: members) state = outcome members state := by
  by_cases hAll : ∀ member ∈ members, member.IsReadable
  · rw [outcome_of_forall hAll, outcome_of_forall (List.forall_mem_cons.mpr ⟨h, hAll⟩)]
  · rw [outcome_of_not_forall hAll,
      outcome_of_not_forall fun hAlso => hAll (List.forall_mem_cons.mp hAlso).2]

theorem outcome_of_not_isReadable (h : ¬member.IsReadable) (state : σ) :
    outcome (member :: members) state = .error .malformed :=
  outcome_of_not_forall (fun hAll => h (hAll member List.mem_cons_self)) state

theorem outcome_map {τ : Type} (f : σ → τ) (state : σ) :
    (outcome members state).map f = outcome members (f state) := by
  rw [outcome, outcome]
  split <;> rfl

theorem outcome_append {more : List Member} (h : ∀ member ∈ more, member.IsReadable) (state : σ) :
    outcome (members ++ more) state = outcome members state := by
  induction members with
  | nil => rw [List.nil_append, outcome_of_forall h, outcome_nil]
  | cons member members ih =>
      by_cases hReadable : member.IsReadable
      · rw [List.cons_append, outcome_cons hReadable, outcome_cons hReadable, ih]
      · rw [List.cons_append, outcome_of_not_isReadable hReadable, outcome_of_not_isReadable hReadable]

theorem outcome_append_of_not {more : List Member} (h : ¬∀ member ∈ more, member.IsReadable)
    (state : σ) : outcome (members ++ more) state = .error .malformed :=
  outcome_of_not_forall (fun hAll => h fun member hMem => hAll member (List.mem_append_right members hMem))
    state

end Outcome

section Gives

variable {α : Type} {name other : String} {StandsFor : List Char → α → Prop} {member : Member}
  {members : List Member} {given before last : Option α}

theorem Gives.of_named (h : Gives name StandsFor (member :: members) given) (hNamed : member.Named name) :
    ∃ value, given = some value ∧ StandsFor member.content.value value ∧
      Gives name StandsFor members none := by
  cases h with
  | other not_named later => exact absurd hNamed not_named
  | named named standsFor later => exact ⟨_, rfl, standsFor, later⟩

theorem Gives.of_not_named (h : Gives name StandsFor (member :: members) given)
    (hNot : ¬member.Named name) : Gives name StandsFor members given := by
  cases h with
  | other not_named later => exact later
  | named named standsFor later => exact absurd named hNot

/-- What a field holds before and after members that give it at most once. -/
def Fills (name : String) (StandsFor : List Char → α → Prop) (members : List Member)
    (before last : Option α) : Prop :=
  (before = none ∧ Gives name StandsFor members last) ∨
    (last = before ∧ Gives name StandsFor members none)

theorem Fills.of_nil (h : Fills name StandsFor [] before last) : last = before := by
  obtain ⟨rfl, hGives⟩ | ⟨rfl, -⟩ := h
  · cases hGives
    rfl
  · rfl

theorem Fills.of_named (h : Fills name StandsFor (member :: members) before last)
    (hNamed : member.Named name) : before = none ∧ ∃ value, StandsFor member.content.value value ∧
      Fills name StandsFor members (some value) last := by
  obtain ⟨rfl, hGives⟩ | ⟨-, hGives⟩ := h
  · obtain ⟨value, rfl, hStands, hLater⟩ := hGives.of_named hNamed
    exact ⟨rfl, value, hStands, .inr ⟨rfl, hLater⟩⟩
  · obtain ⟨value, hNone, -⟩ := hGives.of_named hNamed
    cases hNone

theorem Fills.of_not_named (h : Fills name StandsFor (member :: members) before last)
    (hNot : ¬member.Named name) : Fills name StandsFor members before last :=
  h.imp (fun ⟨hNone, hGives⟩ => ⟨hNone, hGives.of_not_named hNot⟩)
    (fun ⟨hLast, hGives⟩ => ⟨hLast, hGives.of_not_named hNot⟩)

theorem Fills.of_other (h : Fills name StandsFor (member :: members) before last)
    (hNamed : member.Named other) (hOther : other ≠ name) :
    Fills name StandsFor members before last :=
  h.of_not_named fun hSame => hOther (hNamed.unique hSame)

end Gives

section Steps

variable {σ : Type} {read : σ → String → Reader σ} {state last : σ} {member : Member}
  {members more : List Member}

/-- A member of a name that is not known changes nothing, but the name has to stand for characters. -/
theorem readsMembers_ignored (hIgnored : ∀ name, member.Named name → read state name = ignored state)
    (hValue : IsValue member.content.value) (h : ReadsMembers read state members (outcome more last)) :
    ReadsMembers read state (member :: members) (outcome (member :: more) last) := by
  by_cases hReadable : member.IsReadable
  · rw [outcome_cons hReadable]
    obtain ⟨name, hNamed⟩ := hReadable
    refine .cons hNamed state (fun rest hRest => ?_) h
    rw [hIgnored name hNamed]
    exact ignored_afterName hValue hRest state
  · rw [outcome_of_not_isReadable hReadable]
    exact .unreadable hReadable

/-- A numeral gives a field that was not given before. -/
theorem readsMembers_numeral {name : String} {value : Nat} (given : Option Nat → σ)
    (hRead : ∀ text, read state name text =
      (field name none natural text).map fun (value, rest) => (given value, rest))
    (hNamed : member.Named name) (hNumeral : IsNumeral member.content.value value)
    (h : ReadsMembers read (given (some value)) members (outcome more last)) :
    ReadsMembers read state (member :: members) (outcome (member :: more) last) := by
  rw [outcome_cons ⟨name, hNamed⟩]
  refine .cons hNamed (given (some value)) (fun rest hRest => ?_) h
  have hNatural := natural_toDigits member.content.isGap_before hNumeral.1 hRest
  rw [← hNumeral.2] at hNatural
  rw [hRead, field_none name hNatural]
  rfl

end Steps

end Json

namespace RsaPolicy

variable {members : List Json.Member} {state last : Partial} {gap : List Char}

/-- Each limit is filled in from its own member. -/
theorem readsMembers_outcome (hValues : ∀ member ∈ members, Json.IsValue member.content.value)
    (hMin : Json.Fills "min_key_size_bits" Json.IsNumeral members state.minKeySizeBits last.minKeySizeBits)
    (hMax : Json.Fills "max_key_size_bits" Json.IsNumeral members state.maxKeySizeBits last.maxKeySizeBits)
    (hSeed : Json.Fills "min_seed_len" Json.IsNumeral members state.minSeedLength last.minSeedLength) :
    Json.ReadsMembers readMember state members (Json.outcome members last) := by
  induction members generalizing state with
  | nil =>
      have hLast : last = state := by
        obtain ⟨minKeySizeBits, maxKeySizeBits, minSeedLength⟩ := last
        obtain rfl := hMin.of_nil
        obtain rfl := hMax.of_nil
        obtain rfl := hSeed.of_nil
        rfl
      rw [Json.outcome_nil, hLast]
      exact .nil state
  | cons member members ih =>
      obtain ⟨hValue, hLater⟩ := List.forall_mem_cons.mp hValues
      -- A member settles the field that it names and leaves the others as they are.
      by_cases hIsMin : member.Named "min_key_size_bits"
      · obtain ⟨hNone, value, hNumeral, hFills⟩ := hMin.of_named hIsMin
        refine Json.readsMembers_numeral (fun value => { state with minKeySizeBits := value }) (fun text => ?_)
          hIsMin hNumeral
          (ih hLater hFills (hMax.of_other hIsMin (by decide)) (hSeed.of_other hIsMin (by decide)))
        rw [readMember, if_pos rfl, hNone]
      by_cases hIsMax : member.Named "max_key_size_bits"
      · obtain ⟨hNone, value, hNumeral, hFills⟩ := hMax.of_named hIsMax
        refine Json.readsMembers_numeral (fun value => { state with maxKeySizeBits := value }) (fun text => ?_)
          hIsMax hNumeral
          (ih hLater (hMin.of_not_named hIsMin) hFills (hSeed.of_other hIsMax (by decide)))
        rw [readMember, if_neg (by decide), if_pos rfl, hNone]
      by_cases hIsSeed : member.Named "min_seed_len"
      · obtain ⟨hNone, value, hNumeral, hFills⟩ := hSeed.of_named hIsSeed
        refine Json.readsMembers_numeral (fun value => { state with minSeedLength := value }) (fun text => ?_)
          hIsSeed hNumeral
          (ih hLater (hMin.of_not_named hIsMin) (hMax.of_not_named hIsMax) hFills)
        rw [readMember, if_neg (by decide), if_neg (by decide), if_pos rfl, hNone]
      refine Json.readsMembers_ignored (fun name hNamed => funext fun text => ?_) hValue
        (ih hLater (hMin.of_not_named hIsMin) (hMax.of_not_named hIsMax) (hSeed.of_not_named hIsSeed))
      have hNotMin : name ≠ "min_key_size_bits" := fun h => hIsMin (h ▸ hNamed)
      have hNotMax : name ≠ "max_key_size_bits" := fun h => hIsMax (h ▸ hNamed)
      have hNotSeed : name ≠ "min_seed_len" := fun h => hIsSeed (h ▸ hNamed)
      rw [readMember, if_neg hNotMin, if_neg hNotMax, if_neg hNotSeed]

/-- An object that gives limits is read as the limits that hold. -/
theorem Document.read_text (document : Document) (hGap : Json.IsGap gap) (rest : List Char) :
    read (gap ++ (document.object.text ++ rest)) =
      (Json.outcome document.object.members document.given.complete).map fun policy => (policy, rest) := by
  have hReads : Json.ReadsMembers readMember {} document.object.members
      (Json.outcome document.object.members document.given) :=
    readsMembers_outcome document.object.isValue (.inl ⟨rfl, document.gives_minKeySizeBits⟩)
      (.inl ⟨rfl, document.gives_maxKeySizeBits⟩) (.inl ⟨rfl, document.gives_minSeedLength⟩)
  obtain ⟨body, hBody⟩ : ∃ body, document.object.text ++ rest = '\x7b' :: body := ⟨_, rfl⟩
  have hMembers := Json.members_objectText hReads document.object.isGap hBody
  rw [hBody, read, Json.skipBlank_gap hGap rfl, ← Json.outcome_map]
  simp only [hMembers]
  cases Json.outcome document.object.members document.given <;> rfl

end RsaPolicy

namespace Config

variable {members : List Json.Member}

theorem readMember_of_not_named {member : Json.Member} (hNot : ¬member.Named "rsa")
    (state : Option RsaPolicy) (name : String) (hNamed : member.Named name) :
    readMember state name = Json.ignored state := by
  have hName : name ≠ "rsa" := fun hRsa => hNot (hRsa ▸ hNamed)
  funext text
  rw [readMember, if_neg hName]

/-- Members of other names change nothing. -/
theorem readsMembers_of_gives_none (hValues : ∀ member ∈ members, Json.IsValue member.content.value)
    {StandsFor : List Char → RsaPolicy.Document → Prop} (hGives : Json.Gives "rsa" StandsFor members none)
    (state : Option RsaPolicy) :
    Json.ReadsMembers readMember state members (Json.outcome members state) := by
  induction members with
  | nil =>
      rw [Json.outcome_nil]
      exact .nil state
  | cons member members ih =>
      obtain ⟨hValue, hLater⟩ := List.forall_mem_cons.mp hValues
      cases hGives with
      | other not_named later =>
          exact Json.readsMembers_ignored (readMember_of_not_named not_named state) hValue (ih hLater later)

theorem readMember_rsa {member : Json.Member} {rsa : RsaPolicy.Document}
    (hValue : member.content.value = rsa.object.text) (rest : List Char) :
    readMember none "rsa" (member.afterName rest) =
      (Json.outcome rsa.object.members rsa.given.complete).map fun policy => (some policy, rest) := by
  have hRead := rsa.read_text member.content.isGap_before rest
  rw [← hValue] at hRead
  rw [readMember, if_pos rfl]
  cases hOutcome : Json.outcome rsa.object.members rsa.given.complete with
  | ok policy =>
      rw [hOutcome] at hRead
      exact Json.field_none "rsa" hRead
  | error fault =>
      rw [hOutcome] at hRead
      exact Json.field_none_of_error "rsa" hRead

/-- The member that gives the limits is read as the limits that hold. -/
theorem readsMembers_of_gives (hValues : ∀ member ∈ members, Json.IsValue member.content.value)
    {given : Option RsaPolicy.Document}
    (hGives : Json.Gives "rsa" (fun text rsa => text = rsa.object.text) members given) :
    Json.ReadsMembers readMember none members
      (Json.outcome (members ++ given.elim [] fun rsa => rsa.object.members)
        (given.map fun rsa => rsa.given.complete)) := by
  induction hGives with
  | nil =>
      have hOutcome : Json.outcome ([] ++ []) (none : Option RsaPolicy) = .ok none := Json.outcome_nil none
      exact hOutcome ▸ .nil none
  | other not_named later ih =>
      obtain ⟨hValue, hLater⟩ := List.forall_mem_cons.mp hValues
      exact Json.readsMembers_ignored (readMember_of_not_named not_named none) hValue (ih hLater)
  | @named member members rsa named standsFor later ih =>
      rw [List.cons_append, Json.outcome_cons ⟨"rsa", named⟩]
      have hRead := readMember_rsa standsFor
      by_cases hAll : ∀ member ∈ rsa.object.members, member.IsReadable
      · rw [Option.elim_some, Json.outcome_append hAll]
        rw [Json.outcome_of_forall hAll] at hRead
        have hLater := readsMembers_of_gives_none (List.forall_mem_cons.mp hValues).2 later
        exact .cons named _ (fun rest _ => hRead rest) (hLater _)
      · rw [Option.elim_some, Json.outcome_append_of_not hAll]
        rw [Json.outcome_of_not_forall hAll] at hRead
        exact .failing named fun rest _ => hRead rest

theorem Document.config_eq (document : Document) :
    document.config = ⟨(document.rsa.map fun rsa => rsa.given.complete).getD .standard⟩ := by
  rw [config, given]
  cases document.rsa <;> rfl

theorem Document.read_text (document : Document) : read document.text.toList =
    (Json.outcome document.members document.config).map fun config => (config, document.after) := by
  have hReads := readsMembers_of_gives document.object.isValue document.gives_rsa
  obtain ⟨body, hBody⟩ : ∃ body, document.object.text ++ document.after = '\x7b' :: body := ⟨_, rfl⟩
  have hMembers := Json.members_objectText hReads document.object.isGap hBody
  rw [text, String.toList_ofList, List.append_assoc, hBody, read,
    Json.skipBlank_gap document.isGap_before rfl, config_eq,
    ← Json.outcome_map fun rsa : Option RsaPolicy => (⟨rsa.getD .standard⟩ : Config)]
  simp only [hMembers, ← members.eq_def]
  cases Json.outcome document.members (document.rsa.map fun rsa => rsa.given.complete) <;> rfl

/-- What comes of reading a document. -/
theorem Document.parse_text (document : Document) :
    Json.parse read document.text = Json.outcome document.members document.config := by
  have hBlank := Json.skipBlank_eq_nil document.isGap_after
  rw [Json.parse, read_text]
  cases Json.outcome document.members document.config with
  | error fault => rfl
  | ok config => simp [Except.map, bind, Except.bind, hBlank]

end Config

end Signet
