import Signet.Proofs.Json.Skipping

/-! Objects that are read member by member. Each member makes its change to the state of the reader,
whatever blanks there are and however its name is spelled, and the text goes on right behind the closing
brace. The first member that fails is the end of the reading. -/
namespace Signet.Json

variable {σ : Type} {read : σ → String → Reader σ} {state next : σ} {fuel : Nat}
  {text body gap rest : List Char}

section Member

variable {α : Type} {reader : Reader α} {member : Member}

theorem skipColon_afterName (member : Member) (rest : List Char) :
    skipColon (member.afterName rest) = .ok (member.content.before ++ (member.content.value ++ rest)) := by
  simp only [skipColon, Member.afterName, skipBlank_gap member.isGap_after (show isBlank ':' = false from rfl)]

/-- A member that was not given before. -/
theorem field_none {value : α} (name : String)
    (h : reader (member.content.before ++ (member.content.value ++ rest)) = .ok (value, rest)) :
    field name none reader (member.afterName rest) = .ok (some value, rest) := by
  simp only [field, skipColon_afterName, h, bind, Except.bind]

theorem field_none_of_error {fault : Fault} (name : String)
    (h : reader (member.content.before ++ (member.content.value ++ rest)) = .error fault) :
    field name none reader (member.afterName rest) = .error fault := by
  simp only [field, skipColon_afterName, h, bind, Except.bind]

theorem ignored_afterName (hValue : IsValue member.content.value) (hRest : EndsNumber rest) (state : σ) :
    ignored state (member.afterName rest) = .ok (state, rest) := by
  simp only [ignored, skipColon_afterName, skip_isValue hValue member.content.isGap_before hRest, bind,
    Except.bind]

end Member

/-- Members read one after another, as the change that they make to a state or the fault that ends the
reading. -/
inductive ReadsMembers (read : σ → String → Reader σ) : σ → List Member → Except Fault σ → Prop where
  | nil (state : σ) : ReadsMembers read state [] (.ok state)
  | cons {state : σ} {member : Member} {name : String} {members : List Member}
      {outcome : Except Fault σ} (named : member.Named name) (next : σ)
      (reads : ∀ rest, EndsNumber rest → read state name (member.afterName rest) = .ok (next, rest))
      (later : ReadsMembers read next members outcome) :
      ReadsMembers read state (member :: members) outcome
  | failing {state : σ} {member : Member} {name : String} {members : List Member} {fault : Fault}
      (named : member.Named name)
      (fails : ∀ rest, EndsNumber rest → read state name (member.afterName rest) = .error fault) :
      ReadsMembers read state (member :: members) (.error fault)
  | unreadable {state : σ} {member : Member} {members : List Member} (h : ¬member.IsReadable) :
      ReadsMembers read state (member :: members) (.error .malformed)

/-- A member from its name on, and the members behind it. -/
def readNamed (read : σ → String → Reader σ) (fuel : Nat) (state : σ) : Reader σ := fun body => do
  let (name, rest) ← stringBody body
  let (state, rest) ← read state name rest
  members read fuel false state rest

attribute [local simp] members

theorem members_close {first : Bool} (h : skipBlank text = '\x7d' :: rest) :
    members read (fuel + 1) first state text = .ok (state, rest) := by
  simp [h]

theorem members_first (hOpen : skipBlank text = '"' :: body) :
    members read (fuel + 1) true state text = readNamed read fuel state body := by
  simp [hOpen, readNamed]

theorem members_next (hComma : skipBlank text = ',' :: gap) (hOpen : skipBlank gap = '"' :: body) :
    members read (fuel + 1) false state text = readNamed read fuel state body := by
  simp [hComma, hOpen, readNamed]

section Named

variable {member : Member} {name : String}

theorem readNamed_of_reads (named : member.Named name)
    (hReads : read state name (member.afterName (member.content.after ++ rest)) =
      .ok (next, member.content.after ++ rest)) :
    readNamed read fuel state (member.remainder rest) =
      members read fuel false next (member.content.after ++ rest) := by
  simp only [readNamed, Member.remainder, named.stringBody_eq, hReads, bind, Except.bind]

theorem readNamed_of_fails {fault : Fault} (named : member.Named name)
    (hFails : read state name (member.afterName (member.content.after ++ rest)) = .error fault) :
    readNamed read fuel state (member.remainder rest) = .error fault := by
  simp only [readNamed, Member.remainder, named.stringBody_eq, hFails, bind, Except.bind]

theorem readNamed_of_not_isReadable (h : ¬member.IsReadable) :
    readNamed read fuel state (member.remainder rest) = .error .malformed := by
  simp only [readNamed, Member.remainder, Member.stringBody_of_not_isReadable h, bind, Except.bind]

end Named

theorem members_afterMember {following : List Member} {outcome : Except Fault σ}
    (h : ReadsMembers read state following outcome) (hGap : IsGap gap) {lead : List Char}
    (hLead : IsGap lead) (hFuel : following.length < fuel) (rest : List Char) :
    members read fuel false state (lead ++ afterMember following gap rest) =
      outcome.map fun state => (state, rest) := by
  have hEnds (member : Member) (following : List Member) :
      EndsNumber (member.content.after ++ afterMember following gap rest) :=
    endsNumber_gap member.content.isGap_after (endsNumber_afterMember following hGap rest)
  obtain ⟨fuel, rfl⟩ := Nat.exists_eq_add_one.mpr (Nat.zero_lt_of_lt hFuel)
  induction h generalizing fuel lead with
  | nil state =>
      refine members_close ?_
      rw [skipBlank_gap_append hLead]
      exact skipBlank_gap hGap rfl rest
  | @cons state member name following outcome named next reads later ih =>
      rw [afterMember, members_next (skipBlank_gap hLead rfl _) (skipBlank_gap member.isGap_before rfl _),
        readNamed_of_reads named (reads _ (hEnds member following))]
      obtain ⟨fuel, rfl⟩ := Nat.exists_eq_add_one.mpr (Nat.zero_lt_of_lt (Nat.lt_of_succ_lt_succ hFuel))
      exact ih member.content.isGap_after fuel (Nat.lt_of_succ_lt_succ hFuel)
  | @failing state member name following fault named fails =>
      rw [afterMember, members_next (skipBlank_gap hLead rfl _) (skipBlank_gap member.isGap_before rfl _),
        readNamed_of_fails named (fails _ (hEnds member following))]
      rfl
  | @unreadable state member following h =>
      rw [afterMember, members_next (skipBlank_gap hLead rfl _) (skipBlank_gap member.isGap_before rfl _),
        readNamed_of_not_isReadable h]
      rfl

/-- What comes of reading an object; the text begins after its opening brace. -/
theorem members_objectText {list : List Member} {outcome : Except Fault σ}
    (h : ReadsMembers read state list outcome) (hGap : IsGap gap)
    (hBody : objectText list gap ++ rest = '\x7b' :: body) :
    members read (body.length + 1) true state body = outcome.map fun state => (state, rest) := by
  cases list with
  | nil =>
      cases h
      obtain rfl := (List.cons.inj ((objectText_nil_append gap rest).symm.trans hBody)).2
      exact members_close (skipBlank_gap hGap rfl rest)
  | cons member following =>
      obtain rfl := (List.cons.inj ((objectText_cons_append member following gap rest).symm.trans hBody)).2
      have hEnds := endsNumber_gap member.content.isGap_after (endsNumber_afterMember following hGap rest)
      rw [members_first (skipBlank_gap member.isGap_before rfl _)]
      cases h with
      | cons named next reads later =>
          rw [readNamed_of_reads named (reads _ hEnds)]
          refine members_afterMember later hGap member.content.isGap_after ?_ rest
          have hLength := length_lt_afterMember following gap rest
          simp only [Member.remainder, Member.afterName, List.length_append, List.length_cons]
          omega
      | failing named fails =>
          rw [readNamed_of_fails named (fails _ hEnds)]
          rfl
      | unreadable h =>
          rw [readNamed_of_not_isReadable h]
          rfl

end Signet.Json
