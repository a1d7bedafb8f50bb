import GridSecurity.Certificate.Reader
import GridSecurity.Proofs.Der.Names
import GridSecurity.Proofs.Der.Tolerant

/-!
# Names that are read in two ways

The names in certificates are read tolerantly, as they stand.  Those in attribute
certificates are read strictly, which puts the attributes of each relative name into
ascending order, and what is written for them is read tolerantly.  Both ways lead to
the same relative names with the same attributes, so all that can differ is the order
of the attributes inside a relative name.
-/

namespace GridSecurity

theorem DistinguishedName.ofOctets_eq_ok_iff {octets : Octets} {name : DistinguishedName} :
    ofOctets octets = .ok name ↔ ∃ rest, read octets = some (name, rest) := by
  unfold ofOctets
  split
  · next found => simp [found]
  · next absent => simp [absent]

namespace Der

/-! ## What is read tolerantly -/

/-- The type and the value as they are read tolerantly. -/
def TypeAndValue.encoded (pair : TypeAndValue) : EncodedAttribute :=
  ⟨pair.type.content, pair.value.toBer⟩

/-- The attributes as they are read tolerantly. -/
def RelativeForm.encoded (pairs : List TypeAndValue) : EncodedRelativeName :=
  pairs.map TypeAndValue.encoded

/-- The relative name that is read tolerantly from attributes. -/
def RelativeForm.shown (pairs : List TypeAndValue) : RelativeName :=
  (encoded pairs).shown

/-- The element of a relative name with attributes in any order. -/
def RelativeForm.elementOf (pairs : List TypeAndValue) : Element :=
  .composite setTag isKnownTag_set (pairs.map TypeAndValue.toElement)

/-- The element of a name, given the attributes of its relative names. -/
def NameForm.elementOf (relatives : List (List TypeAndValue)) : Element :=
  sequenceOf (relatives.map RelativeForm.elementOf)

private theorem TypeAndValue.read_tolerant {pair : TypeAndValue} (fits : pair.toElement.Fits)
    (rest : Octets) :
    EncodedAttribute.read (pair.toElement.write ++ rest) = some (pair.encoded, rest) := by
  have together : FitTogether pair.toFields := fits
  have typeFits : pair.type.toElement.Fits := together.fits (by simp [toFields])
  have valueFits : pair.value.Fits := together.fits (by simp [toFields])
  have content : pair.toElement.toBer.content =
      pair.type.toElement.write ++ (pair.value.write ++ []) := rfl
  have inOnePiece : pair.type.toElement.toBer.tag.constructed = false :=
    constructed_identifierTag
  have identifier : Ber.readIdentifier pair.toElement.toBer.content =
      some (pair.type.content, pair.value.write ++ []) := by
    rw [content, Ber.readIdentifier, Element.readElement_tolerant typeFits]
    simp only [Option.bind_eq_bind, Option.bind_some, inOnePiece]
    rfl
  rw [EncodedAttribute.read,
    Element.readNumbered_tolerant fits Ber.sequenceNumber number_sequenceTag]
  simp only [Option.bind_eq_bind, Option.bind_some, identifier,
    Element.readElement_tolerant valueFits]
  rfl

namespace RelativeForm

variable {pairs : List TypeAndValue}

/-- All attributes of a relative name are read, in the order in which they stand. -/
theorem attributes_tolerant (fits : (elementOf pairs).Fits) :
    Ber.readWhile EncodedAttribute.read (elementOf pairs).content = (encoded pairs, []) := by
  have together : FitTogether (pairs.map TypeAndValue.toElement) := fits
  have nothing : EncodedAttribute.read [] = none := rfl
  have whole := Element.readWhile_tolerant
    (fun pair member => TypeAndValue.read_tolerant
      (together.fits (List.mem_map_of_mem member))) nothing
  rwa [List.append_nil] at whole

private theorem read_tolerant (fits : (elementOf pairs).Fits) (occupied : pairs ≠ [])
    (rest : Octets) :
    EncodedRelativeName.read ((elementOf pairs).write ++ rest) = some (encoded pairs, rest) := by
  obtain ⟨first, others, rfl⟩ := List.exists_cons_of_ne_nil occupied
  rw [EncodedRelativeName.read, Element.readNumbered_tolerant fits Ber.setNumber number_setTag]
  simp only [Option.bind_eq_bind, Option.bind_some, Element.toBer, attributes_tolerant fits]
  rfl

/-- A relative name without attributes ends the reading of a name. -/
theorem read_tolerant_nil (rest : Octets) :
    EncodedRelativeName.read ((elementOf []).write ++ rest) = none := by
  have fits : (elementOf []).Fits := Nat.zero_le longestLength
  rw [EncodedRelativeName.read, Element.readNumbered_tolerant fits Ber.setNumber number_setTag]
  simp only [Option.bind_eq_bind, Option.bind_some, Element.toBer, attributes_tolerant fits]
  rfl

end RelativeForm

namespace NameForm

/-- The relative names in front of the first one without attributes, at which the
tolerant reading of a name ends. -/
def readable (relatives : List (List TypeAndValue)) : List (List TypeAndValue) :=
  relatives.takeWhile fun pairs => !pairs.isEmpty

variable {relatives occupied others : List (List TypeAndValue)}

/-- A name is read up to its first relative name without attributes. -/
theorem read_of_cut (fits : (elementOf (occupied ++ others)).Fits)
    (each : ∀ pairs ∈ occupied, pairs ≠ []) (stops : ∀ pairs ∈ others.head?, pairs = [])
    (rest : Octets) :
    ∃ encoding, DistinguishedName.read ((elementOf (occupied ++ others)).write ++ rest) =
      some (⟨occupied.map RelativeForm.shown, encoding⟩, rest) := by
  have together : FitTogether ((occupied ++ others).map RelativeForm.elementOf) := fits
  have refused : EncodedRelativeName.read
      (Element.writeAll (others.map RelativeForm.elementOf)) = none := by
    cases others with
    | nil => rfl
    | cons pairs others =>
        obtain rfl := stops pairs rfl
        exact RelativeForm.read_tolerant_nil _
  have content : (elementOf (occupied ++ others)).content =
      Element.writeAll (occupied.map RelativeForm.elementOf) ++
        Element.writeAll (others.map RelativeForm.elementOf) := by
    simp [elementOf, sequenceOf]
  have items := Element.readWhile_tolerant
    (fun pairs member => RelativeForm.read_tolerant
      (together.fits (List.mem_map_of_mem (List.mem_append_left others member)))
      (each pairs member)) refused
  obtain ⟨encoding, found⟩ : ∃ encoding, EncodedName.read
      ((elementOf (occupied ++ others)).write ++ rest) =
        some ((occupied.map RelativeForm.encoded, encoding), rest) := by
    rw [EncodedName.read, Element.readHeader_tolerant fits]
    simp only [Option.bind_eq_bind, Option.bind_some, Octets.take?_append]
    rw [content, items]
    exact ⟨_, if_pos number_sequenceTag⟩
  refine ⟨encoding, ?_⟩
  rw [DistinguishedName.read, found]
  simp only [Option.bind_eq_bind, Option.bind_some, EncodedName.shown, List.map_map]
  rfl

private theorem read_tolerant (fits : (elementOf relatives).Fits) (rest : Octets) :
    ∃ encoding, DistinguishedName.read ((elementOf relatives).write ++ rest) =
      some (⟨(readable relatives).map RelativeForm.shown, encoding⟩, rest) := by
  have cut : readable relatives ++ relatives.dropWhile (fun pairs => !pairs.isEmpty) =
      relatives := List.takeWhile_append_dropWhile
  have each : ∀ pairs ∈ readable relatives, pairs ≠ [] := by
    intro pairs member
    simpa using List.all_eq_true.mp List.all_takeWhile pairs member
  have stops : ∀ pairs ∈ (relatives.dropWhile fun pairs => !pairs.isEmpty).head?,
      pairs = [] := by
    intro pairs first
    have refused := List.head?_dropWhile_not (fun pairs => !pairs.isEmpty) relatives
    rw [Option.mem_def.mp first] at refused
    simpa using refused
  rw [← cut] at fits
  have found := read_of_cut fits each stops rest
  rwa [cut] at found

/-- A name that was read from other octets, but from the octets of a name inside these, is
that name. -/
theorem relativeNames_of_read (fits : (elementOf relatives).Fits) {name : DistinguishedName}
    {input rest : Octets} (read : DistinguishedName.read input = some (name, rest))
    (same : name.encoding = (elementOf relatives).write) :
    name.relativeNames = (readable relatives).map RelativeForm.shown := by
  have begins : name.encoding <+: input := by
    simp only [DistinguishedName.read, EncodedName.read, Option.bind_eq_bind,
      Option.bind_eq_some_iff, Option.ite_none_right_eq_some, Option.some.injEq,
      Option.pure_def] at read
    obtain ⟨_, ⟨_, _, ⟨_, _⟩, _, _, rfl⟩, whole⟩ := read
    obtain ⟨rfl, _⟩ := Prod.mk.inj whole
    exact List.take_prefix _ input
  obtain ⟨more, rfl⟩ := begins
  obtain ⟨encoding, found⟩ := read_tolerant fits more
  rw [same, found] at read
  rw [← (Prod.mk.inj (Option.some.inj read)).1]

end NameForm

/-! ## What is read strictly -/

private theorem RelativeForm.exists_of_ofElement? {element : Element} {relative : RelativeForm}
    (fits : element.Fits) (found : ofElement? element = some relative) :
    ∃ pairs, element = elementOf pairs ∧
      relative.values = SetOf.sort TypeAndValue.write pairs := by
  obtain ⟨fields, children, fieldsRead⟩ := Option.bind_eq_some_iff.mp found
  obtain ⟨pairs, pairsRead, sorted⟩ := Option.bind_eq_some_iff.mp fieldsRead
  have whole : element = .composite setTag isKnownTag_set fields :=
    Element.eq_composite_of_children? children
  have fit : FitTogether fields := by
    rw [whole] at fits
    exact fits
  have kept := TypeAndValue.faithful.list fields pairs fit pairsRead
  have written : pairs.map TypeAndValue.toElement = fields :=
    kept.unchanged.mpr fun _ _ => trivial
  exact ⟨pairs, by rw [whole, elementOf, written], SetOf.ofList?_eq_some_iff.mp sorted⟩

namespace NameForm

private theorem exists_of_mapM {fields : List Element} {form : NameForm}
    (fit : ∀ field ∈ fields, field.Fits)
    (found : fields.mapM RelativeForm.ofElement? = some form) :
    ∃ relatives : List (List TypeAndValue), fields = relatives.map RelativeForm.elementOf ∧
      form.map (·.values) = relatives.map (SetOf.sort TypeAndValue.write) := by
  rw [mapM_eq_some_iff] at found
  induction found with
  | nil => exact ⟨[], rfl, rfl⟩
  | cons fieldRead _ induction =>
      obtain ⟨here, later⟩ := List.forall_mem_cons.mp fit
      obtain ⟨pairs, rfl, sorted⟩ := RelativeForm.exists_of_ofElement? here fieldRead
      obtain ⟨relatives, rfl, allSorted⟩ := induction later
      exact ⟨pairs :: relatives, rfl, by rw [List.map_cons, List.map_cons, sorted, allSorted]⟩

/-- What is read strictly from a name has the attributes of each relative name in
ascending order, wherever they stood. -/
theorem exists_of_ofElement? {element : Element} {form : NameForm}
    (found : ofElement? element = some form) :
    ∃ relatives : List (List TypeAndValue), element = elementOf relatives ∧
      form.toElement = elementOf (relatives.map (SetOf.sort TypeAndValue.write)) := by
  obtain ⟨fields, children, fieldsRead⟩ := Option.bind_eq_some_iff.mp found
  obtain ⟨_, _, fit⟩ := Element.children?_eq_some_iff.mp children
  obtain ⟨relatives, rfl, sorted⟩ := exists_of_mapM fit fieldsRead
  refine ⟨relatives, Element.eq_composite_of_children? children, ?_⟩
  rw [← sorted, elementOf, List.map_map]
  rfl

/-- Sorting leaves no relative name without attributes and fills none. -/
theorem readable_map_sort (relatives : List (List TypeAndValue)) :
    readable (relatives.map (SetOf.sort TypeAndValue.write)) =
      (readable relatives).map (SetOf.sort TypeAndValue.write) := by
  have sameEmpty : (fun pairs => !pairs.isEmpty) ∘ SetOf.sort TypeAndValue.write =
      fun pairs => !pairs.isEmpty := by
    funext pairs
    have permuted : (SetOf.sort TypeAndValue.write pairs).Perm pairs := SetOf.sort_perm pairs
    rw [Function.comp_apply, permuted.isEmpty_eq]
  rw [readable, List.takeWhile_map, sameEmpty, readable]

end NameForm

/-! ## Both ways -/

namespace NameForm

/-- In every relative name that is read, the attributes are read in the same order if they
are put into ascending order before. -/
def ShownInOrder (relatives : List (List TypeAndValue)) : Prop :=
  ∀ pairs ∈ readable relatives,
    RelativeForm.shown (SetOf.sort TypeAndValue.write pairs) = RelativeForm.shown pairs

/-- Attributes that stand in the order in which they are written are shown in it. -/
theorem shownInOrder_of_canonical {relatives : List (List TypeAndValue)}
    (fits : (elementOf relatives).Fits) (canonical : Canonical (elementOf relatives)) :
    ShownInOrder relatives := by
  have together : FitTogether (relatives.map RelativeForm.elementOf) := fits
  have parts : (elementOf relatives).parts = relatives.map RelativeForm.elementOf :=
    Element.parts_of_children? (Element.children?_composite fun _ => together.fits)
  intro pairs member
  have relative : RelativeForm.elementOf pairs ∈ relatives.map RelativeForm.elementOf :=
    List.mem_map_of_mem ((List.takeWhile_sublist _).subset member)
  have inside : FitTogether (pairs.map TypeAndValue.toElement) := together.fits relative
  have attributes : (RelativeForm.elementOf pairs).parts =
      pairs.map TypeAndValue.toElement :=
    Element.parts_of_children? (Element.children?_composite fun _ => inside.fits)
  have ascending : Ascending Element.write (RelativeForm.elementOf pairs).parts :=
    canonical _ (parts ▸ relative)
  rw [attributes] at ascending
  have written : Ascending TypeAndValue.write pairs := List.pairwise_map.mp ascending
  rw [SetOf.sort_eq_self written]

/-- What both ways of reading make of the same relative names: one shows them as they
stand and the other with the attributes in ascending order. -/
structure ReadBothWays (relatives : List (List TypeAndValue))
    (asItStands strictly : DistinguishedName) : Prop where
  asItStands : asItStands.relativeNames = (readable relatives).map RelativeForm.shown
  strictly : strictly.relativeNames = (readable relatives).map fun pairs =>
    RelativeForm.shown (SetOf.sort TypeAndValue.write pairs)

theorem ReadBothWays.same_iff {relatives : List (List TypeAndValue)}
    {asItStands strictly : DistinguishedName}
    (read : ReadBothWays relatives asItStands strictly) :
    asItStands.Same strictly ↔ ShownInOrder relatives := by
  rw [DistinguishedName.Same, eq_comm, read.strictly, read.asItStands, List.map_inj_left]
  rfl

/-- A name that is read strictly is read by both. -/
theorem exists_readBothWays {element : Element} {form : NameForm} (fits : element.Fits)
    (found : ofElement? element = some form) :
    ∃ relatives asItStands strictly, element = elementOf relatives ∧
      DistinguishedName.ofOctets element.write = .ok asItStands ∧
      DistinguishedName.ofOctets form.toElement.write = .ok strictly ∧
      ReadBothWays relatives asItStands strictly := by
  have kept := NameForm.faithful element form fits found
  have writtenFits : form.toElement.Fits := Nat.le_trans kept.shorter fits
  obtain ⟨relatives, rfl, written⟩ := exists_of_ofElement? found
  rw [written] at writtenFits ⊢
  obtain ⟨encoding, read⟩ := read_tolerant fits []
  obtain ⟨sortedEncoding, sortedRead⟩ := read_tolerant writtenFits []
  rw [List.append_nil] at read sortedRead
  rw [readable_map_sort, List.map_map] at sortedRead
  exact ⟨relatives, _, _, rfl, DistinguishedName.ofOctets_eq_ok_iff.mpr ⟨[], read⟩,
    DistinguishedName.ofOctets_eq_ok_iff.mpr ⟨[], sortedRead⟩, rfl, rfl⟩

end NameForm

end Der

/-! ## The same octets in two places -/

open Der

namespace Certificate

/-- Both names of a certificate were read tolerantly. -/
theorem names_of_parse {encoding : Octets} {certificate : Certificate}
    (parsed : parse encoding = .ok certificate) :
    (∃ input rest, DistinguishedName.read input = some (certificate.subject, rest)) ∧
      ∃ input rest, DistinguishedName.read input = some (certificate.issuer, rest) := by
  obtain ⟨fields, found, rfl⟩ := parse_eq_ok_iff.mp parsed
  simp only [fieldsOf?, readFields, Option.bind_eq_bind, Option.bind_eq_some_iff,
    Option.pure_def, Option.some.injEq] at found
  obtain ⟨_, _, _, _, _, ⟨_, _, _, _, _, _, ⟨issuer, _⟩, issuerRead, _, _,
    ⟨subject, _⟩, subjectRead, _, _, _, _, _, _, _, _, rfl⟩, _, _, _, _, rfl⟩ := found
  exact ⟨⟨_, _, subjectRead⟩, ⟨_, _, issuerRead⟩⟩

end Certificate

/-- The name that is shown for an element, next to the names that are read tolerantly from
the same octets: alone, as the subject of a certificate and as its issuer. -/
structure AgreesInOrder (relatives : List (List TypeAndValue)) (element : Element)
    (shown : DistinguishedName) : Prop where
  stands : element = NameForm.elementOf relatives
  both : ∃ name, DistinguishedName.ofOctets element.write = .ok name ∧
    NameForm.ReadBothWays relatives name shown
  alone : ∀ name, DistinguishedName.ofOctets element.write = .ok name →
    (name.Same shown ↔ NameForm.ShownInOrder relatives)
  subject : ∀ encoding certificate, Certificate.parse encoding = .ok certificate →
    certificate.subject.encoding = element.write →
      (certificate.subject.Same shown ↔ NameForm.ShownInOrder relatives)
  issuer : ∀ encoding certificate, Certificate.parse encoding = .ok certificate →
    certificate.issuer.encoding = element.write →
      (certificate.issuer.Same shown ↔ NameForm.ShownInOrder relatives)
  distinguished : NameForm.Canonical element → NameForm.ShownInOrder relatives

theorem AgreesInOrder.of_readBothWays {relatives : List (List TypeAndValue)}
    {name shown : DistinguishedName} (fits : (NameForm.elementOf relatives).Fits)
    (read : DistinguishedName.ofOctets (NameForm.elementOf relatives).write = .ok name)
    (both : NameForm.ReadBothWays relatives name shown) :
    AgreesInOrder relatives (NameForm.elementOf relatives) shown := by
  have elsewhere : ∀ (other : DistinguishedName) (input rest : Octets),
      DistinguishedName.read input = some (other, rest) →
        other.encoding = (NameForm.elementOf relatives).write →
          (other.Same shown ↔ NameForm.ShownInOrder relatives) := by
    intro other input rest otherRead same
    have sameBoth : NameForm.ReadBothWays relatives other shown :=
      ⟨NameForm.relativeNames_of_read fits otherRead same, both.strictly⟩
    exact sameBoth.same_iff
  refine ⟨rfl, ⟨name, read, both⟩, ?_, ?_, ?_, NameForm.shownInOrder_of_canonical fits⟩
  · intro other otherRead
    obtain rfl := Except.ok.inj (read.symm.trans otherRead)
    exact both.same_iff
  · intro encoding certificate parsed same
    obtain ⟨⟨input, rest, subjectRead⟩, _⟩ := Certificate.names_of_parse parsed
    exact elsewhere _ input rest subjectRead same
  · intro encoding certificate parsed same
    obtain ⟨_, input, rest, issuerRead⟩ := Certificate.names_of_parse parsed
    exact elsewhere _ input rest issuerRead same

end GridSecurity
