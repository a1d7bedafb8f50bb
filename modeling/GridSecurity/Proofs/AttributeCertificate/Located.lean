import GridSecurity.Proofs.AttributeCertificate.Faithful
import GridSecurity.Proofs.Name.Agreement
import GridSecurity.Proofs.Success
import GridSecurity.VoMembership

/-!
# Where names stand in an attribute certificate

The issuer and the issuer of the holder's certificate are shown by the first directory
name among general names.  Here the elements of these two names are found in the element of
signed information, and what is shown is what was read strictly from them.
-/

namespace GridSecurity

open Der

/-! ## The first directory name -/

namespace Der

namespace GeneralName

variable {element : Element} {name : GeneralName}

private theorem tag_of_directory {form : NameForm}
    (found : ofElement? element = some (.directory form)) :
    element.tag = contextCompositeTag directoryNumber := by
  unfold ofElement? at found
  dsimp only at found
  repeat' split at found
  all_goals first
    | assumption
    | simp at found

/-- The element inside the tag of a directory name is the only element of one. -/
theorem directory?_of_explicit? (found : ofElement? element = some name) {inner : Element}
    (opened : explicit? directoryNumber element = some inner) :
    inner.Fits ∧ ∃ form, NameForm.ofElement? inner = some form ∧
      name.directory? = some form := by
  obtain ⟨fields, children, only⟩ := Option.bind_eq_some_iff.mp opened
  obtain ⟨tag, _, fit⟩ := Element.children?_eq_some_iff.mp children
  obtain rfl := onlyField?_eq_some_iff.mp only
  rw [ofElement?_of_directory tag] at found
  obtain ⟨form, formRead, rfl⟩ := Option.map_eq_some_iff.mp found
  rw [directoryOf?, opened] at formRead
  exact ⟨fit inner (by simp), form, formRead, rfl⟩

private theorem directory?_of_explicit?_none (found : ofElement? element = some name)
    (closed : explicit? directoryNumber element = none) : name.directory? = none := by
  cases name with
  | directory form =>
      have tag := tag_of_directory found
      rw [ofElement?_of_directory tag, directoryOf?, closed] at found
      cases found
  | _ => rfl

end GeneralName

namespace GeneralNames

/-- The element of the first directory name among general names. -/
def directoryElement? (names : Element) : Option Element :=
  names.parts.findSome? (explicit? GeneralName.directoryNumber)

private theorem findSome?_directory {fields : List Element} {names : GeneralNames}
    (found : fields.mapM GeneralName.ofElement? = some names) {inner : Element}
    (located : fields.findSome? (explicit? GeneralName.directoryNumber) = some inner) :
    inner.Fits ∧ ∃ form, NameForm.ofElement? inner = some form ∧
      names.findSome? GeneralName.directory? = some form := by
  rw [mapM_eq_some_iff] at found
  induction found with
  | nil => cases located
  | @cons field name _ _ here _ induction =>
      rw [List.findSome?_cons] at located
      cases opened : explicit? GeneralName.directoryNumber field with
      | none =>
          rw [opened] at located
          rw [List.findSome?_cons, GeneralName.directory?_of_explicit?_none here opened]
          exact induction located
      | some first =>
          rw [opened] at located
          obtain rfl := Option.some.inj located
          obtain ⟨fits, form, formRead, directory⟩ :=
            GeneralName.directory?_of_explicit? here opened
          exact ⟨fits, form, formRead, by rw [List.findSome?_cons, directory]⟩

/-- The first directory name is shown as it is read strictly, and nothing is shown if there
is none. -/
theorem directoryName?_of_mapM {tag : UInt8} {element? : Option Element}
    {names? : Option GeneralNames} (found : element?.mapM (ofTagged? tag) = some names?) :
    (element?.bind directoryElement? = none ∧
        names?.bind VoMembership.directoryName? = none) ∨
      ∃ inner relatives shown, element?.bind directoryElement? = some inner ∧
        names?.bind VoMembership.directoryName? = some (.ok shown) ∧
        AgreesInOrder relatives inner shown := by
  cases element? with
  | none =>
      obtain rfl : names? = none := by simpa [eq_comm] using found
      exact .inl ⟨rfl, rfl⟩
  | some element =>
      rw [Option.mapM_some] at found
      obtain ⟨names, namesRead, rfl⟩ := Option.map_eq_some_iff.mp found
      obtain ⟨fields, children, fieldsRead⟩ := Option.bind_eq_some_iff.mp namesRead
      rw [Option.bind_some, Option.bind_some, directoryElement?,
        Element.parts_of_children? children, VoMembership.directoryName?]
      cases located : fields.findSome? (explicit? GeneralName.directoryNumber) with
      | none =>
          refine .inl ⟨rfl, ?_⟩
          rw [Option.map_eq_none_iff, List.findSome?_eq_none_iff]
          intro name member
          obtain ⟨field, fieldMember, nameRead⟩ := exists_of_mem_mapM? fieldsRead member
          exact GeneralName.directory?_of_explicit?_none nameRead
            (List.findSome?_eq_none_iff.mp located field fieldMember)
      | some inner =>
          obtain ⟨fits, form, formRead, directory⟩ := findSome?_directory fieldsRead located
          obtain ⟨relatives, name, shown, rfl, nameRead, shownRead, both⟩ :=
            NameForm.exists_readBothWays fits formRead
          refine .inr ⟨_, relatives, shown, rfl, ?_, .of_readBothWays fits nameRead both⟩
          rw [directory, Option.map_some, shownRead]
          rfl

end GeneralNames

/-- What the first of two optional fields holds was read from it. -/
private theorem Element.mapM_of_readTwo? {α β : Type}
    {takeFirst takeSecond : List Element → Option Element × List Element}
    {readFirst : Element → Option α} {readSecond : Element → Option β}
    {fields : List Element} {value? : Option α} {other? : Option β}
    (found : readTwo? (takeTwo? takeFirst takeSecond) readFirst readSecond fields =
      some (value?, other?)) :
    (takeFirst fields).1.mapM readFirst = some value? := by
  simp only [readTwo?, Option.bind_eq_bind, Option.bind_eq_some_iff, Option.pure_def,
    Option.some.injEq, Prod.mk.injEq] at found
  obtain ⟨⟨first?, second?⟩, two, _, firstRead, _, _, rfl, _⟩ := found
  obtain ⟨rest, firstTaken, _⟩ := takeTwo?_eq_some_iff.mp two
  rw [firstTaken]
  exact firstRead

end Der

/-! ## Issuer and holder -/

namespace AttributeInfo

/-- The element of the first directory name of the issuer in the element of information. -/
def issuerElement? (info : Element) : Option Element := do
  let issuer ← info.parts[2]?
  let names ← (Element.takeTagged sequenceTag issuer.parts).1
  GeneralNames.directoryElement? names

/-- The element of the first directory name of the issuer of the holder's certificate in
the element of information. -/
def holderIssuerElement? (info : Element) : Option Element := do
  let holder ← info.parts[1]?
  let base ← (Element.takeContext 0 holder.parts).1
  let names ← base.parts.head?
  GeneralNames.directoryElement? names

variable {element inner : Element} {info : AttributeInfo}

/-- Holder and issuer are the second and the third part of information. -/
theorem parts_of_ofElement? (found : ofElement? element = some info) :
    ∃ holder issuer, element.parts[1]? = some holder ∧
      Holder.ofElement? holder = some info.holder ∧ element.parts[2]? = some issuer ∧
      AttributeIssuer.ofElement? issuer = some info.issuer := by
  obtain ⟨fields, children, fieldsRead⟩ := Option.bind_eq_some_iff.mp found
  rw [Element.parts_of_children? children]
  unfold ofFields? at fieldsRead
  split at fieldsRead
  · next version holder issuer algorithm serial validity attributes rest =>
      simp only [Option.bind_eq_bind, Option.bind_eq_some_iff, Option.pure_def,
        Option.some.injEq] at fieldsRead
      obtain ⟨_, _, _, _, _, holderRead, _, issuerRead, _, _, _, _, _, _, _, _, rfl⟩ :=
        fieldsRead
      exact ⟨holder, issuer, rfl, holderRead, rfl, issuerRead⟩
  · cases fieldsRead

/-- What the names of the issuer were read from. -/
theorem issuerElement?_of_ofElement? (found : ofElement? element = some info) :
    ∃ names? : Option Element,
      issuerElement? element = names?.bind GeneralNames.directoryElement? ∧
        names?.mapM (GeneralNames.ofTagged? sequenceTag) = some info.issuer.names := by
  obtain ⟨_, issuer, _, _, part, issuerRead⟩ := parts_of_ofElement? found
  obtain ⟨fields, children, fieldsRead⟩ := Option.bind_eq_some_iff.mp issuerRead
  refine ⟨(Element.takeTagged sequenceTag fields).1, ?_,
    Element.mapM_of_readTwo? (AttributeIssuer.ofFields?_eq_some_iff.mp fieldsRead)⟩
  rw [issuerElement?, part, ← Element.parts_of_children? children]
  rfl

/-- The names of an issuer stand in front of the serial number. -/
theorem names_of_issuerSerial {base : Element} {pair : IssuerSerial}
    (found : IssuerSerial.ofElement? base = some pair) :
    ∃ names, base.parts.head? = some names ∧
      GeneralNames.ofTagged? sequenceTag names = some pair.issuer := by
  obtain ⟨fields, children, fieldsRead⟩ := Option.bind_eq_some_iff.mp found
  rw [Element.parts_of_children? children]
  unfold IssuerSerial.ofFields? at fieldsRead
  split at fieldsRead
  · next issuer serial rest =>
      simp only [Option.bind_eq_bind, Option.bind_eq_some_iff] at fieldsRead
      obtain ⟨names, namesRead, number, _, restRead⟩ := fieldsRead
      refine ⟨issuer, rfl, ?_⟩
      split at restRead
      · obtain rfl := Option.some.inj restRead
        exact namesRead
      · obtain ⟨_, _, same⟩ := Option.bind_eq_some_iff.mp restRead
        obtain rfl := Option.some.inj same
        exact namesRead
      · cases restRead
  · cases fieldsRead

/-- What the names of the issuer of the holder's certificate were read from. -/
theorem holderIssuerElement?_of_ofElement? (found : ofElement? element = some info) :
    ∃ names? : Option Element,
      holderIssuerElement? element = names?.bind GeneralNames.directoryElement? ∧
        names?.mapM (GeneralNames.ofTagged? sequenceTag) =
          some (info.holder.baseCertificate.map IssuerSerial.issuer) := by
  obtain ⟨holder, _, part, holderRead, _, _⟩ := parts_of_ofElement? found
  obtain ⟨fields, children, fieldsRead⟩ := Option.bind_eq_some_iff.mp holderRead
  have baseRead := Element.mapM_of_readTwo? (Holder.ofFields?_eq_some_iff.mp fieldsRead)
  have located : holderIssuerElement? element =
      (Element.takeContext 0 fields).1.bind fun base =>
        base.parts.head?.bind GeneralNames.directoryElement? := by
    rw [holderIssuerElement?, part, ← Element.parts_of_children? children]
    rfl
  rw [located]
  cases taken : (Element.takeContext 0 fields).1 with
  | none =>
      rw [taken] at baseRead
      obtain absent : none = info.holder.baseCertificate := Option.some.inj baseRead
      exact ⟨none, rfl, by rw [← absent]; rfl⟩
  | some base =>
      rw [taken, Option.mapM_some] at baseRead
      obtain ⟨pair, pairRead, based⟩ := Option.map_eq_some_iff.mp baseRead
      obtain ⟨names, first, namesRead⟩ := names_of_issuerSerial pairRead
      refine ⟨some names, by rw [Option.bind_some, first], ?_⟩
      rw [← based, Option.mapM_some, namesRead]
      rfl

end AttributeInfo

end GridSecurity
