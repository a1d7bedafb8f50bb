import GridSecurity.Der.Name
import GridSecurity.Proofs.Der.Fields
import GridSecurity.Proofs.Der.Values

/-!
# Names keep their values

Names are the only values inside names of authorities and holders whose form
may vary: the attributes of a relative name stand in any order, and the fields
of a party may be passed over.
-/

namespace GridSecurity.Der

/-! ## Directory names -/

theorem TypeAndValue.faithfulFields :
    FaithfulFields ofFields? toFields fun _ => True := by
  apply FaithfulFields.of_exact
  intro fields pair fit found
  unfold ofFields? at found
  split at found
  · next type value =>
      simp only [Option.bind_eq_bind, Option.bind_eq_some_iff, Option.pure_def,
        Option.some.injEq] at found
      obtain ⟨identifier, here, rfl⟩ := found
      rw [toFields, (Identifier.faithful type identifier (fit.fits (by simp)) here).eq]
  · cases found

theorem TypeAndValue.faithful : Faithful ofElement? toElement fun _ => True :=
  faithfulFields.tagged sequenceTag isKnownTag_sequence

/-- The attributes of a relative name stand in ascending order. -/
def RelativeForm.Canonical (element : Element) : Prop :=
  Ascending Element.write element.parts

instance : DecidablePred RelativeForm.Canonical := fun element =>
  inferInstanceAs (Decidable (Ascending Element.write element.parts))

theorem RelativeForm.faithful : Faithful ofElement? toElement Canonical :=
  FaithfulFields.tagged (FaithfulFields.setOf TypeAndValue.faithful) setTag
    isKnownTag_set

/-- Every relative name stands in ascending order. -/
def NameForm.Canonical (element : Element) : Prop :=
  ∀ part ∈ element.parts, RelativeForm.Canonical part

instance : DecidablePred NameForm.Canonical := fun element =>
  inferInstanceAs (Decidable (∀ part ∈ element.parts, RelativeForm.Canonical part))

theorem NameForm.faithful : Faithful ofElement? toElement Canonical :=
  RelativeForm.faithful.taggedList sequenceTag isKnownTag_sequence

/-! ## Explicitly tagged fields -/

theorem onlyField?_eq_some_iff {fields : List Element} {field : Element} :
    onlyField? fields = some field ↔ fields = [field] := by
  unfold onlyField?
  split <;> simp_all

/-- The only field inside an explicit tag is kept like any other. -/
theorem Faithful.explicit {α : Type} {read : Element → Option α} {write : α → Element}
    {canonical : Element → Prop} (faithful : Faithful read write canonical)
    (number : Nat) (known : isKnownTag (contextCompositeTag number) = true) :
    Faithful (fun element => (explicit? number element).bind read)
      (fun value => .composite (contextCompositeTag number) known [write value])
      fun element => ∀ part ∈ element.parts, canonical part := by
  have fields : FaithfulFields (fun fields => (onlyField? fields).bind read)
      (fun value => [write value]) fun fields => ∀ field ∈ fields, canonical field := by
    intro fields value fit found
    obtain ⟨field, only, fieldRead⟩ := Option.bind_eq_some_iff.mp found
    obtain rfl := onlyField?_eq_some_iff.mp only
    have kept := faithful field value (fit.fits (by simp)) fieldRead
    refine ⟨?_, ?_, ?_⟩
    · simpa using kept.length_write_le
    · simp [onlyField?, kept.again]
    · simpa using kept.unchanged
  have opened : (fun element => (explicit? number element).bind read) = fun element =>
      (element.children? (contextCompositeTag number)).bind
        fun fields => (onlyField? fields).bind read := by
    funext element
    exact Option.bind_assoc _ _ _
  rw [opened]
  exact fields.tagged (contextCompositeTag number) known

theorem DirectoryString.faithful : Faithful ofElement? element fun _ => True := by
  apply Faithful.of_exact
  intro field text found
  unfold ofElement? at found
  split at found
  · obtain rfl := Option.some.inj found
    rfl
  · cases found

/-! ## Names of other kinds and of parties -/

theorem OtherName.faithfulFields : FaithfulFields ofFields? toFields fun _ => True := by
  apply FaithfulFields.of_exact
  intro fields name fit found
  unfold ofFields? at found
  split at found
  · next type value =>
      simp only [Option.bind_eq_bind, Option.bind_eq_some_iff, Option.pure_def,
        Option.some.injEq] at found
      obtain ⟨identifier, typeRead, inner, valueRead, rfl⟩ := found
      have typeSame := (Identifier.faithful type identifier (fit.fits (by simp)) typeRead).eq
      have valueKept := Faithful.element.explicit 0 isKnownTag_zero value inner
        (fit.fits (by simp)) (by simpa using valueRead)
      rw [toFields, typeSame, valueKept.unchanged.mpr fun _ _ => trivial]
  · cases found

/-- The fields of a party stand as they are written if none is passed over. -/
theorem PartyName.faithfulFields :
    FaithfulFields ofFields? toFields Element.Increasing := by
  have assigner := DirectoryString.faithful.explicit 0 isKnownTag_zero
  have name := DirectoryString.faithful.explicit 1 isKnownTag_one
  have two := FaithfulFields.two TakesTwo.of_takeContext assigner name
    (fun _ => Element.isContext_zero _ _) fun _ => Element.isContext_one _ _
  have sameRead : ∀ (fields : List Element) (party : PartyName),
      ofFields? fields = some party ↔
        Element.readTwo?
          (Element.takeTwo? (Element.takeContext 0) (Element.takeContext 1))
          (DirectoryString.ofExplicit? 0) (DirectoryString.ofExplicit? 1) fields =
            some (party.assigner, some party.name) := by
    intro fields party
    simp only [ofFields?, Option.bind_eq_bind, Option.bind_eq_some_iff, Option.pure_def,
      Option.some.injEq]
    constructor
    · rintro ⟨⟨assigner, name?⟩, twoRead, name, rfl, rfl⟩
      exact twoRead
    · intro twoRead
      exact ⟨_, twoRead, party.name, rfl, rfl⟩
  have through := two.through (fun party : PartyName => (party.assigner, some party.name))
    sameRead
  exact through.describe fun fields => by simp

/-! ## General names -/

namespace GeneralName

/-- Of the names of all kinds only directory names and parties have several
forms. -/
def Canonical (element : Element) : Prop :=
  (element.tag = contextCompositeTag directoryNumber →
    ∀ part ∈ element.parts, NameForm.Canonical part) ∧
  (element.tag = contextCompositeTag partyNumber → Element.Increasing element.parts)

instance : DecidablePred Canonical := fun _ => inferInstanceAs (Decidable (_ ∧ _))

private theorem otherOf?_faithful :
    Faithful otherOf?
      (fun name => .composite (contextCompositeTag otherNumber) rfl name.toFields)
      fun _ => True :=
  OtherName.faithfulFields.tagged (contextCompositeTag otherNumber) rfl

private theorem directoryOf?_faithful :
    Faithful directoryOf?
      (fun name => .composite (contextCompositeTag directoryNumber) rfl [name.toElement])
      fun element => ∀ part ∈ element.parts, NameForm.Canonical part :=
  NameForm.faithful.explicit directoryNumber rfl

private theorem partyOf?_faithful :
    Faithful partyOf?
      (fun party => .composite (contextCompositeTag partyNumber) rfl party.toFields)
      fun element => Element.Increasing element.parts :=
  PartyName.faithfulFields.tagged (contextCompositeTag partyNumber) rfl

/-! The tag of an element decides which of the readers of names is used. -/

private theorem ofElement?_of_other {element : Element}
    (tag : element.tag = contextCompositeTag otherNumber) :
    ofElement? element = (otherOf? element).map .other := by
  simp only [ofElement?, tag]
  rfl

theorem ofElement?_of_directory {element : Element}
    (tag : element.tag = contextCompositeTag directoryNumber) :
    ofElement? element = (directoryOf? element).map .directory := by
  simp only [ofElement?, tag]
  rfl

private theorem ofElement?_of_party {element : Element}
    (tag : element.tag = contextCompositeTag partyNumber) :
    ofElement? element = (partyOf? element).map .party := by
  simp only [ofElement?, tag]
  rfl

private theorem canonical_of_ne {tag : UInt8} {content : Octets} {known : isKnownTag tag = true}
    (notDirectory : tag ≠ contextCompositeTag directoryNumber)
    (notParty : tag ≠ contextCompositeTag partyNumber) : Canonical ⟨tag, content, known⟩ := by
  constructor
  · intro isDirectory
    exact absurd isDirectory notDirectory
  · intro isParty
    exact absurd isParty notParty

/-- A text of a name has no other form. -/
theorem keeps_of_text {tag : UInt8} {content : Octets} {known : isKnownTag tag = true}
    {kind : AsciiText → GeneralName} {name : GeneralName}
    (written : ∀ text, toElement (kind text) = ⟨tag, text.octets, known⟩)
    (read : (AsciiText.ofOctets? content).map kind = some name)
    (whole : ofElement? ⟨tag, content, known⟩ = some name)
    (canonical : Canonical ⟨tag, content, known⟩) :
    Keeps ofElement? toElement Canonical ⟨tag, content, known⟩ name := by
  obtain ⟨text, textRead, rfl⟩ := Option.map_eq_some_iff.mp read
  obtain rfl := AsciiText.octets_of_ofOctets? textRead
  exact .of_same (written text) whole canonical

/-- A name is kept if the reader of its kind keeps it. -/
theorem keeps_of_kept {α : Type} {read : Element → Option α} {write : α → Element}
    {canonical : Element → Prop} {kind : α → GeneralName} {element : Element} {value : α}
    (kept : Keeps read write canonical element value)
    (written : toElement (kind value) = write value)
    (chosen : ofElement? (write value) = (read (write value)).map kind)
    (sameForm : canonical element ↔ Canonical element) :
    Keeps ofElement? toElement Canonical element (kind value) := by
  constructor
  · rw [written]
    exact kept.shorter
  · rw [written, chosen, kept.again]
    rfl
  · rw [written]
    exact kept.unchanged.trans sameForm

private theorem directoryTag_ne_partyTag :
    contextCompositeTag directoryNumber ≠ contextCompositeTag partyNumber := by
  decide

private theorem canonical_directory_iff {content : Octets}
    {known : isKnownTag (contextCompositeTag directoryNumber) = true} :
    (∀ part ∈ (⟨contextCompositeTag directoryNumber, content, known⟩ : Element).parts,
      NameForm.Canonical part) ↔
      Canonical ⟨contextCompositeTag directoryNumber, content, known⟩ := by
  constructor
  · intro holds
    exact ⟨fun _ => holds, fun isParty => absurd isParty directoryTag_ne_partyTag⟩
  · intro canonical
    exact canonical.1 rfl

private theorem canonical_party_iff {content : Octets}
    {known : isKnownTag (contextCompositeTag partyNumber) = true} :
    Element.Increasing (⟨contextCompositeTag partyNumber, content, known⟩ : Element).parts ↔
      Canonical ⟨contextCompositeTag partyNumber, content, known⟩ := by
  constructor
  · intro holds
    exact ⟨fun isDirectory => absurd isDirectory.symm directoryTag_ne_partyTag, fun _ => holds⟩
  · intro canonical
    exact canonical.2 rfl

theorem faithful : Faithful ofElement? toElement Canonical := by
  intro element name fits found
  have whole := found
  obtain ⟨tag, content, known⟩ := element
  unfold ofElement? at found
  dsimp only at found
  split at found
  · next isMail =>
      subst isMail
      exact keeps_of_text (fun _ => rfl) found whole (canonical_of_ne (by decide) (by decide))
  split at found
  · next isDomain =>
      subst isDomain
      exact keeps_of_text (fun _ => rfl) found whole (canonical_of_ne (by decide) (by decide))
  split at found
  · next isUri =>
      subst isUri
      exact keeps_of_text (fun _ => rfl) found whole (canonical_of_ne (by decide) (by decide))
  split at found
  · next isAddress =>
      subst isAddress
      obtain rfl := Option.some.inj found
      exact .of_same rfl whole (canonical_of_ne (by decide) (by decide))
  split at found
  · next isRegistered =>
      subst isRegistered
      obtain ⟨identifier, identifierRead, rfl⟩ := Option.map_eq_some_iff.mp found
      obtain rfl := Identifier.content_of_ofContent? identifierRead
      exact .of_same rfl whole (canonical_of_ne (by decide) (by decide))
  split at found
  · next isOther =>
      subst isOther
      obtain ⟨other, otherRead, rfl⟩ := Option.map_eq_some_iff.mp found
      exact keeps_of_kept (otherOf?_faithful _ other fits otherRead) rfl
        (ofElement?_of_other rfl)
        (iff_of_true trivial (canonical_of_ne (by decide) (by decide)))
  split at found
  · next isDirectory =>
      subst isDirectory
      obtain ⟨directory, directoryRead, rfl⟩ := Option.map_eq_some_iff.mp found
      exact keeps_of_kept (directoryOf?_faithful _ directory fits directoryRead) rfl
        (ofElement?_of_directory rfl) canonical_directory_iff
  split at found
  · next isParty =>
      subst isParty
      obtain ⟨party, partyRead, rfl⟩ := Option.map_eq_some_iff.mp found
      exact keeps_of_kept (partyOf?_faithful _ party fits partyRead) rfl
        (ofElement?_of_party rfl) canonical_party_iff
  · cases found

end GeneralName

/-- Every name in a list of general names stands as it is written. -/
def GeneralNames.Canonical (element : Element) : Prop :=
  ∀ part ∈ element.parts, GeneralName.Canonical part

instance : DecidablePred GeneralNames.Canonical := fun element =>
  inferInstanceAs (Decidable (∀ part ∈ element.parts, GeneralName.Canonical part))

theorem GeneralNames.faithful (tag : UInt8) (known : isKnownTag tag = true) :
    Faithful (ofTagged? tag) (toTagged tag known) Canonical :=
  GeneralName.faithful.taggedList tag known

end GridSecurity.Der
