import GridSecurity.AttributeCertificate
import GridSecurity.Proofs.Der.Names

/-!
# Signed information is kept

Whatever is read as the information of an attribute certificate is read again,
with the same result, from the encoding that its signature is checked over.
That encoding is the one that was read exactly if the information stood in the
form that writing produces: every set in ascending order, no field passed over,
and no mark that repeats its default.
-/

namespace GridSecurity

open Der

/-! ## Parts with one form -/

theorem AlgorithmIdentifier.faithful :
    Faithful ofElement? toElement fun _ => True := by
  refine FaithfulFields.tagged (FaithfulFields.of_exact ?_) sequenceTag
    isKnownTag_sequence
  intro fields algorithm fit found
  unfold ofFields? at found
  split at found
  · next field =>
      simp only [Option.bind_eq_bind, Option.bind_eq_some_iff, Option.pure_def,
        Option.some.injEq] at found
      obtain ⟨identifier, here, rfl⟩ := found
      simp [toFields, (Identifier.faithful field identifier (fit.fits (by simp)) here).eq]
  · next field parameter =>
      simp only [Option.bind_eq_bind, Option.bind_eq_some_iff, Option.pure_def,
        Option.some.injEq] at found
      obtain ⟨identifier, here, rfl⟩ := found
      simp [toFields, (Identifier.faithful field identifier (fit.fits (by simp)) here).eq]
  · cases found

theorem ValidityPeriod.faithful : Faithful ofElement? toElement fun _ => True := by
  refine FaithfulFields.tagged (FaithfulFields.of_exact ?_) sequenceTag
    isKnownTag_sequence
  intro fields period fit found
  unfold ofFields? at found
  split at found
  · next notBefore notAfter =>
      simp only [Option.bind_eq_bind, Option.bind_eq_some_iff, Option.pure_def,
        Option.some.injEq] at found
      obtain ⟨first, firstRead, last, lastRead, rfl⟩ := found
      rw [toFields, (Der.Time.faithful notBefore first (fit.fits (by simp)) firstRead).eq,
        (Der.Time.faithful notAfter last (fit.fits (by simp)) lastRead).eq]
  · cases found

/-! ## Issuers and holders -/

namespace IssuerSerial

/-- The names of the issuer stand as they are written. -/
def Canonical (element : Element) : Prop :=
  ∀ names ∈ element.parts.head?, GeneralNames.Canonical names

instance : DecidablePred Canonical := fun element =>
  inferInstanceAs (Decidable (∀ names ∈ element.parts.head?, GeneralNames.Canonical names))

theorem faithfulFields :
    FaithfulFields ofFields? toFields
      fun fields => ∀ names ∈ fields.head?, GeneralNames.Canonical names := by
  intro fields pair fit found
  unfold ofFields? at found
  split at found
  · next issuer serial rest =>
      simp only [Option.bind_eq_bind, Option.bind_eq_some_iff] at found
      obtain ⟨names, namesRead, number, numberRead, restRead⟩ := found
      have keptNames := GeneralNames.faithful sequenceTag isKnownTag_sequence issuer names
        (fit.fits (by simp)) namesRead
      have sameNumber :=
        (SerialContent.faithful serial number (fit.fits (by simp)) numberRead).eq
      have written : pair.toFields =
          GeneralNames.toTagged sequenceTag isKnownTag_sequence names :: serial :: rest := by
        split at restRead
        · obtain rfl := Option.some.inj restRead
          simp [toFields, sameNumber]
        · next field =>
            obtain ⟨uid, uidRead, same⟩ := Option.bind_eq_some_iff.mp restRead
            obtain rfl := Option.some.inj same
            simp [toFields, sameNumber,
              (BitString.faithful field uid (fit.fits (by simp)) uidRead).eq]
        · cases restRead
      refine ⟨?_, ?_, ?_⟩
      · have shorter := keptNames.length_write_le
        simp only [written, Element.writeAll_cons, List.length_append]
        omega
      · rw [written]
        simp only [ofFields?, Option.bind_eq_bind, keptNames.again, numberRead,
          Option.bind_some]
        exact restRead
      · rw [written]
        simpa using keptNames.unchanged
  · cases found

theorem faithful : Faithful ofElement? toElement Canonical :=
  faithfulFields.tagged (contextCompositeTag 0) isKnownTag_zero

end IssuerSerial

namespace Holder

/-- The two ways to name a holder stand as they are written, and neither is
given twice. -/
def Canonical (element : Element) : Prop :=
  Element.Increasing element.parts ∧ ∀ field ∈ element.parts,
    (field.isContext 0 = true → IssuerSerial.Canonical field) ∧
    (field.isContext 1 = true → GeneralNames.Canonical field)

instance : DecidablePred Canonical := fun _ => inferInstanceAs (Decidable (_ ∧ _))

theorem ofFields?_eq_some_iff {fields : List Element} {holder : Holder} :
    ofFields? fields = some holder ↔
      Element.readTwo?
        (Element.takeTwo? (Element.takeContext 0) (Element.takeContext 1))
        IssuerSerial.ofElement? (GeneralNames.ofTagged? (contextCompositeTag 1)) fields =
          some (holder.baseCertificate, holder.entityName) := by
  simp only [ofFields?, Option.bind_eq_bind, Option.bind_eq_some_iff, Option.pure_def,
    Option.some.injEq]
  constructor
  · rintro ⟨pair, twoRead, rfl⟩
    exact twoRead
  · intro twoRead
    exact ⟨_, twoRead, rfl⟩

theorem faithful : Faithful ofElement? toElement Canonical := by
  have two := FaithfulFields.two TakesTwo.of_takeContext IssuerSerial.faithful
    (GeneralNames.faithful (contextCompositeTag 1) isKnownTag_one)
    (fun _ => Element.isContext_zero _ _) fun _ => Element.isContext_one _ _
  have fields := two.through
    (fun holder : Holder => (holder.baseCertificate, holder.entityName))
    fun _ _ => ofFields?_eq_some_iff
  exact fields.tagged sequenceTag isKnownTag_sequence

end Holder

namespace AttributeIssuer

/-- The names of an issuer and of the issuer of its certificate stand as they
are written. -/
def Canonical (element : Element) : Prop :=
  ∀ field ∈ element.parts,
    (field.tag = sequenceTag → GeneralNames.Canonical field) ∧
    (field.isContext 0 = true → IssuerSerial.Canonical field)

instance : DecidablePred Canonical := fun element =>
  inferInstanceAs (Decidable (∀ field ∈ element.parts, _ ∧ _))

theorem ofFields?_eq_some_iff {fields : List Element} {issuer : AttributeIssuer} :
    ofFields? fields = some issuer ↔
      Element.readTwo?
        (Element.takeTwo? (Element.takeTagged sequenceTag) (Element.takeContext 0))
        (GeneralNames.ofTagged? sequenceTag) IssuerSerial.ofElement? fields =
          some (issuer.names, issuer.baseCertificate) := by
  simp only [ofFields?, Option.bind_eq_bind, Option.bind_eq_some_iff, Option.pure_def,
    Option.some.injEq]
  constructor
  · rintro ⟨pair, twoRead, rfl⟩
    exact twoRead
  · intro twoRead
    exact ⟨_, twoRead, rfl⟩

/-- Names have the tag of a sequence and the other field has a number, so
neither is taken for the other. -/
theorem takesTwo :
    TakesTwo (Element.takeTwo? (Element.takeTagged sequenceTag) (Element.takeContext 0))
      (fun field => field.tag == sequenceTag) (Element.isContext 0) fun _ => True := by
  rw [Element.takeContext_zero]
  apply TakesTwo.of_takeIf
  intro field isSequence
  rw [beq_iff_eq] at isSequence
  simp only [Element.isContext, Element.isContextSpecific, Element.number, isSequence]
  decide

theorem faithful : Faithful ofElement? toElement Canonical := by
  have two := FaithfulFields.two takesTwo
    (GeneralNames.faithful sequenceTag isKnownTag_sequence) IssuerSerial.faithful
    (fun _ => rfl) fun _ => Element.isContext_zero _ _
  have fields := two.through
    (fun issuer : AttributeIssuer => (issuer.names, issuer.baseCertificate))
    fun _ _ => ofFields?_eq_some_iff
  refine (fields.tagged (contextCompositeTag 0) isKnownTag_zero).describe ?_
  intro element
  simp [Canonical]

end AttributeIssuer

/-! ## Attributes and extensions -/

namespace TypedValues

/-- The values of an attribute stand in ascending order. -/
def Canonical (element : Element) : Prop :=
  ∀ values ∈ element.parts[1]?, Ascending Element.write values.parts

instance : DecidablePred Canonical := fun element =>
  inferInstanceAs
    (Decidable (∀ values ∈ element.parts[1]?, Ascending Element.write values.parts))

private theorem valuesOf?_faithful :
    Faithful valuesOf? (fun set => .composite setTag isKnownTag_set set.values)
      fun element => Ascending Element.write element.parts := by
  have readSame : (fun fields : List Element =>
      (fields.mapM some).bind (SetOf.ofList? Element.write)) =
        SetOf.ofList? Element.write := by
    funext fields
    have everyField : fields.mapM some = some fields := by
      simpa using List.mapM_pure (m := Option) (f := fun field : Element => field) (l := fields)
    rw [everyField, Option.bind_some]
  have writeSame : (fun set : SetOf Element.write => set.values.map fun field => field) =
      fun set => set.values := by
    funext set
    exact List.map_id' _
  have fields := FaithfulFields.setOf Faithful.element
  rw [readSame, writeSame] at fields
  exact fields.tagged setTag isKnownTag_set

theorem faithfulFields :
    FaithfulFields ofFields? toFields
      fun fields => ∀ values ∈ fields[1]?, Ascending Element.write values.parts := by
  intro fields typed fit found
  unfold ofFields? at found
  split at found
  · next type values =>
      simp only [Option.bind_eq_bind, Option.bind_eq_some_iff, Option.pure_def,
        Option.some.injEq] at found
      obtain ⟨identifier, typeRead, set, setRead, rfl⟩ := found
      have typeSame := (Identifier.faithful type identifier (fit.fits (by simp)) typeRead).eq
      have keptSet := valuesOf?_faithful values set (fit.fits (by simp)) setRead
      have written : toFields ⟨identifier, set⟩ =
          [type, .composite setTag isKnownTag_set set.values] := by
        rw [toFields, typeSame]
      refine ⟨?_, ?_, ?_⟩
      · have shorter := keptSet.length_write_le
        simp only [written, Element.writeAll_cons, List.length_append]
        omega
      · rw [written]
        simp [ofFields?, typeRead, keptSet.again]
      · rw [written]
        simpa using keptSet.unchanged
  · cases found

theorem faithful : Faithful ofElement? toElement Canonical :=
  faithfulFields.tagged sequenceTag isKnownTag_sequence

/-- Every attribute of a list stands in ascending order. -/
def CanonicalList (element : Element) : Prop :=
  ∀ part ∈ element.parts, Canonical part

instance : DecidablePred CanonicalList := fun element =>
  inferInstanceAs (Decidable (∀ part ∈ element.parts, Canonical part))

private theorem listOf?_faithful : Faithful listOf? ofList CanonicalList :=
  faithful.taggedList sequenceTag isKnownTag_sequence

end TypedValues

namespace AttributeExtension

/-- An extension that is not critical does not say so. -/
def Canonical (element : Element) : Prop :=
  boolean false ∉ element.parts

instance : DecidablePred Canonical := fun element =>
  inferInstanceAs (Decidable (boolean false ∉ element.parts))

private theorem boolean_ne_identifier (mark : Bool) (identifier : Identifier) :
    boolean mark ≠ identifier.toElement := by
  intro same
  have tags : booleanTag = identifierTag := congrArg Element.tag same
  exact absurd tags (by decide)

private theorem boolean_ne_octetString (mark : Bool) (octets : Octets) :
    boolean mark ≠ octetString octets := by
  intro same
  have tags : booleanTag = octetStringTag := congrArg Element.tag same
  exact absurd tags (by decide)

theorem faithfulFields :
    FaithfulFields ofFields? toFields fun fields => boolean false ∉ fields := by
  intro fields extension fit found
  unfold ofFields? at found
  split at found
  · next type value =>
      simp only [Option.bind_eq_bind, Option.bind_eq_some_iff, Option.pure_def,
        Option.some.injEq] at found
      obtain ⟨identifier, typeRead, octets, valueRead, rfl⟩ := found
      have typeSame := (Identifier.faithful type identifier (fit.fits (by simp)) typeRead).eq
      have valueSame := (octetString_faithful value octets (fit.fits (by simp)) valueRead).eq
      have written : toFields ⟨identifier, false, octets⟩ = [type, value] := by
        simp [toFields, typeSame, valueSame]
      apply KeepsFields.of_same written
      · simp [ofFields?, typeRead, valueRead]
      · simp [← typeSame, ← valueSame, boolean_ne_identifier, boolean_ne_octetString]
  · next type critical value =>
      simp only [Option.bind_eq_bind, Option.bind_eq_some_iff, Option.pure_def,
        Option.some.injEq] at found
      obtain ⟨identifier, typeRead, mark, markRead, octets, valueRead, rfl⟩ := found
      have typeSame := (Identifier.faithful type identifier (fit.fits (by simp)) typeRead).eq
      have markSame := (boolean_faithful critical mark (fit.fits (by simp)) markRead).eq
      have valueSame := (octetString_faithful value octets (fit.fits (by simp)) valueRead).eq
      cases mark with
      | true =>
          have written : toFields ⟨identifier, true, octets⟩ = [type, critical, value] := by
            simp [toFields, typeSame, markSame, valueSame]
          have marksDiffer : boolean false ≠ boolean true := by decide
          apply KeepsFields.of_same written
          · simp [ofFields?, typeRead, markRead, valueRead]
          · simp [← typeSame, ← valueSame, ← markSame, boolean_ne_identifier,
              boolean_ne_octetString, marksDiffer]
      | false =>
          have written : toFields ⟨identifier, false, octets⟩ = [type, value] := by
            simp [toFields, typeSame, valueSame]
          refine ⟨?_, ?_, iff_of_false ?_ ?_⟩
          · simp [written]
          · rw [written]
            simp [ofFields?, typeRead, valueRead]
          · simp [written]
          · simp [markSame]
  · cases found

theorem faithful : Faithful ofElement? toElement Canonical :=
  faithfulFields.tagged sequenceTag isKnownTag_sequence

/-- No extension of a list says that it is not critical. -/
def CanonicalList (element : Element) : Prop :=
  ∀ part ∈ element.parts, Canonical part

instance : DecidablePred CanonicalList := fun element =>
  inferInstanceAs (Decidable (∀ part ∈ element.parts, Canonical part))

private theorem listOf?_faithful : Faithful listOf? ofList CanonicalList :=
  faithful.taggedList sequenceTag isKnownTag_sequence

end AttributeExtension

/-! ## The information as a whole -/

namespace AttributeInfo

/-- What the form of signed information depends on: the holder, the issuer and
the attributes, which are the second, third and seventh field, and the extensions
behind them. -/
def CanonicalFields (fields : List Element) : Prop :=
  (∀ holder ∈ fields[1]?, Holder.Canonical holder) ∧
  (∀ issuer ∈ fields[2]?, AttributeIssuer.Canonical issuer) ∧
  (∀ attributes ∈ fields[6]?, TypedValues.CanonicalList attributes) ∧
  ∀ field ∈ fields.drop 7, field.tag = sequenceTag →
    AttributeExtension.CanonicalList field

instance : DecidablePred CanonicalFields := fun _ =>
  inferInstanceAs (Decidable (_ ∧ _ ∧ _ ∧ _))

/-- The fields of signed information stand as they are written. -/
def Canonical (element : Element) : Prop :=
  CanonicalFields element.parts

instance : DecidablePred Canonical := fun element =>
  inferInstanceAs (Decidable (CanonicalFields element.parts))

/-- A unique identifier and extensions have different tags. -/
theorem takesTwo :
    TakesTwo (Element.takeTwo? (Element.takeTagged bitStringTag)
        (Element.takeTagged sequenceTag))
      (fun field => field.tag == bitStringTag) (fun field => field.tag == sequenceTag)
      fun _ => True := by
  apply TakesTwo.of_takeIf
  intro field isBitString
  rw [beq_iff_eq] at isBitString
  rw [isBitString]
  decide

private theorem rest_faithful :
    FaithfulFields
      (Element.readTwo?
        (Element.takeTwo? (Element.takeTagged bitStringTag)
          (Element.takeTagged sequenceTag))
        BitString.ofElement? AttributeExtension.listOf?)
      (writeTwo BitString.toElement AttributeExtension.ofList)
      fun fields => ∀ field ∈ fields, field.tag = sequenceTag →
        AttributeExtension.CanonicalList field := by
  have two := FaithfulFields.two takesTwo BitString.faithful
    AttributeExtension.listOf?_faithful (fun _ => rfl) fun _ => rfl
  exact two.describe fun fields => by simp

theorem faithfulFields : FaithfulFields ofFields? toFields CanonicalFields := by
  intro fields info fit found
  unfold ofFields? at found
  split at found
  · next version holder issuer algorithm serial validity attributes rest =>
      simp only [Option.bind_eq_bind, Option.bind_eq_some_iff, Option.pure_def,
        Option.some.injEq] at found
      obtain ⟨⟨uid, extensions⟩, restRead, number, numberRead, holderValue, holderRead,
        issuerValue, issuerRead, algorithmValue, algorithmRead, serialValue, serialRead,
        period, periodRead, typed, typedRead, rfl⟩ := found
      have versionSame :=
        (smallNumber_faithful version number (fit.fits (by simp)) numberRead).eq
      have keptHolder := Holder.faithful holder holderValue (fit.fits (by simp)) holderRead
      have keptIssuer :=
        AttributeIssuer.faithful issuer issuerValue (fit.fits (by simp)) issuerRead
      have algorithmSame := (AlgorithmIdentifier.faithful algorithm algorithmValue
        (fit.fits (by simp)) algorithmRead).eq
      have serialSame :=
        (SerialContent.faithful serial serialValue (fit.fits (by simp)) serialRead).eq
      have validitySame :=
        (ValidityPeriod.faithful validity period (fit.fits (by simp)) periodRead).eq
      have keptTyped :=
        TypedValues.listOf?_faithful attributes typed (fit.fits (by simp)) typedRead
      have keptRest := rest_faithful rest (uid, extensions)
        fit.tail.tail.tail.tail.tail.tail.tail restRead
      have written : toFields ⟨number, holderValue, issuerValue, algorithmValue, serialValue,
            period, typed, uid, extensions⟩ =
          version :: holderValue.toElement :: issuerValue.toElement :: algorithm :: serial
            :: validity :: TypedValues.ofList typed
            :: writeTwo BitString.toElement AttributeExtension.ofList (uid, extensions) := by
        simp [toFields, writeTwo, versionSame, algorithmSame, serialSame, validitySame]
      refine ⟨?_, ?_, ?_⟩
      · have holderShorter := keptHolder.length_write_le
        have issuerShorter := keptIssuer.length_write_le
        have typedShorter := keptTyped.length_write_le
        have restShorter := keptRest.shorter
        simp only [written, Element.writeAll_cons, List.length_append]
        omega
      · rw [written]
        simp only [ofFields?, Option.bind_eq_bind, keptRest.again, numberRead,
          keptHolder.again, keptIssuer.again, algorithmRead, serialRead, periodRead,
          keptTyped.again, Option.bind_some, Option.pure_def]
      · rw [written]
        simp only [List.cons.injEq, true_and, keptHolder.unchanged, keptIssuer.unchanged,
          keptTyped.unchanged, keptRest.unchanged]
        simp [CanonicalFields]
  · cases found

theorem faithful : Faithful ofElement? toElement Canonical :=
  faithfulFields.tagged sequenceTag isKnownTag_sequence

end AttributeInfo

end GridSecurity
