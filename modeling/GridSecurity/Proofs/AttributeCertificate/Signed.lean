import GridSecurity.Proofs.AttributeCertificate.Faithful
import GridSecurity.Proofs.Success
import GridSecurity.VoMembership

/-!
# What a signature covers

The octets that a signature is checked over are written from what was read.
They determine everything that is used of an attribute certificate, so nobody
can be given attributes other than the signed ones.  They are the octets that
the authority sent only if these stand in the form that writing produces.
-/

namespace GridSecurity

open Der

/-- A list read in one way can be read in another if every item can. -/
private theorem exists_mapM_of_mapM {α β γ : Type} {read : α → Option β} {view : α → Option γ}
    {related : β → γ → Prop} {items : List α} {values : List β}
    (each : ∀ item ∈ items, ∀ value, read item = some value →
      ∃ seen, view item = some seen ∧ related value seen)
    (found : items.mapM read = some values) :
    ∃ seen, items.mapM view = some seen ∧ List.Forall₂ related values seen := by
  simp only [mapM_eq_some_iff] at found ⊢
  induction found with
  | nil => exact ⟨[], .nil, .nil⟩
  | cons here _ induction =>
      obtain ⟨seen, seenHere, holds⟩ := each _ List.mem_cons_self _ here
      obtain ⟨laterSeen, seenLater, laterHold⟩ :=
        induction fun other member => each other (List.mem_cons_of_mem _ member)
      exact ⟨seen :: laterSeen, .cons seenHere seenLater, .cons holds laterHold⟩

namespace AttributeCertificate

/-- The element of the information of an attribute certificate. -/
def infoElement? (element : Element) : Option Element :=
  (sequence? element).bind List.head?

/-- The elements of the information in a sequence of attribute certificates. -/
def infoElementsOf? (element : Element) : Option (List Element) :=
  (sequence? element).bind fun fields => fields.mapM infoElement?

/-- The elements of the information in the value of an extension, in the order
of the attribute certificates. -/
def infoElements? (value : Octets) : Option (List Element) := do
  let groups ← sequence? (← Element.ofOctets? value)
  return (← groups.mapM infoElementsOf?).flatten

/-- The information of an attribute certificate was read from an element that
stands in the given octets. -/
def InfoStands (octets : Octets) (certificate : AttributeCertificate)
    (element : Element) : Prop :=
  AttributeInfo.ofElement? element = some certificate.info ∧ element.write <:+: octets

theorem InfoStands.mono {inner outer : Octets} {certificate : AttributeCertificate}
    {element : Element} (stands : InfoStands inner certificate element)
    (within : inner <:+: outer) : InfoStands outer certificate element :=
  ⟨stands.1, stands.2.trans within⟩

theorem infoStands_of_ofElement? {element : Element} {certificate : AttributeCertificate}
    (found : ofElement? element = some certificate) :
    ∃ info, infoElement? element = some info ∧ InfoStands element.write certificate info := by
  obtain ⟨fields, children, fieldsRead⟩ := Option.bind_eq_some_iff.mp found
  unfold ofFields? at fieldsRead
  split at fieldsRead
  · next info algorithm signature =>
      simp only [Option.bind_eq_bind, Option.bind_eq_some_iff, Option.pure_def,
        Option.some.injEq] at fieldsRead
      obtain ⟨value, infoRead, _, _, _, _, rfl⟩ := fieldsRead
      exact ⟨info, by rw [infoElement?, children]; rfl, infoRead,
        Element.write_infix_of_children? children (by simp)⟩
  · cases fieldsRead

theorem infoStands_of_groupOf? {element : Element}
    {certificates : List AttributeCertificate}
    (found : groupOf? element = some certificates) :
    ∃ infos, infoElementsOf? element = some infos ∧
      List.Forall₂ (InfoStands element.write) certificates infos := by
  obtain ⟨fields, children, fieldsRead⟩ := Option.bind_eq_some_iff.mp found
  have each : ∀ field ∈ fields, ∀ certificate, ofElement? field = some certificate →
      ∃ info, infoElement? field = some info ∧ InfoStands element.write certificate info := by
    intro field member certificate fieldRead
    obtain ⟨info, here, stands⟩ := infoStands_of_ofElement? fieldRead
    exact ⟨info, here, stands.mono (Element.write_infix_of_children? children member)⟩
  obtain ⟨infos, infosRead, stand⟩ := exists_mapM_of_mapM each fieldsRead
  exact ⟨infos, by rw [infoElementsOf?, children, Option.bind_some, infosRead], stand⟩

/-- The information of every attribute certificate of an extension stands in
its value. -/
theorem infoStands_of_ofExtension? {value : Octets}
    {certificates : List AttributeCertificate}
    (accepted : ofExtension? value = some certificates) :
    ∃ infos, infoElements? value = some infos ∧
      List.Forall₂ (InfoStands value) certificates infos := by
  simp only [ofExtension?, Option.bind_eq_bind, Option.bind_eq_some_iff, Option.pure_def,
    Option.some.injEq] at accepted
  obtain ⟨whole, wholeRead, groups, children, lists, groupsRead, rfl⟩ := accepted
  obtain ⟨rfl, _⟩ := Element.encode?_eq_some_iff.mp
    (Element.ofOctets?_eq_some_iff.mp wholeRead)
  have each : ∀ group ∈ groups, ∀ list, groupOf? group = some list →
      ∃ infos, infoElementsOf? group = some infos ∧
        List.Forall₂ (InfoStands whole.write) list infos := by
    intro group member list groupRead
    obtain ⟨infos, here, stand⟩ := infoStands_of_groupOf? groupRead
    have within := Element.write_infix_of_children? children member
    exact ⟨infos, here, stand.imp fun _ _ stands => stands.mono within⟩
  obtain ⟨infos, infosRead, stand⟩ := exists_mapM_of_mapM each groupsRead
  refine ⟨infos.flatten, ?_, List.rel_flatten stand⟩
  simp [infoElements?, wholeRead, children, infosRead]

/-- Only so much can be read that what is read can be written again. -/
theorem length_le_of_ofExtension? {value : Octets}
    {certificates : List AttributeCertificate}
    (accepted : ofExtension? value = some certificates) : value.length ≤ longestLength := by
  simp only [ofExtension?, Option.bind_eq_bind, Option.bind_eq_some_iff] at accepted
  obtain ⟨whole, wholeRead, _⟩ := accepted
  exact (Element.encode?_eq_some_iff.mp (Element.ofOctets?_eq_some_iff.mp wholeRead)).2

/-- The octets that a signature is checked over can be written, are read as the
same information, and stand in the input exactly if they stood there in the
form that writing produces. -/
theorem InfoStands.signedOctets? {octets : Octets} {certificate : AttributeCertificate}
    {element : Element} (stands : InfoStands octets certificate element)
    (bounded : octets.length ≤ longestLength) :
    ∃ signed, certificate.info.signedOctets? = some signed ∧
      AttributeInfo.ofOctets? signed = some certificate.info ∧
      (signed = element.write ↔ AttributeInfo.Canonical element) := by
  obtain ⟨infoRead, within⟩ := stands
  have elementBounded : element.write.length ≤ longestLength :=
    Nat.le_trans within.length_le bounded
  have fits : element.Fits := Element.fits_of_length_write elementBounded
  have kept := AttributeInfo.faithful element certificate.info fits infoRead
  have writtenBounded : certificate.info.toElement.write.length ≤ longestLength :=
    Nat.le_trans kept.length_write_le elementBounded
  have encoded : certificate.info.signedOctets? = some certificate.info.toElement.write :=
    Element.encode?_eq_some_iff.mpr ⟨rfl, writtenBounded⟩
  refine ⟨certificate.info.toElement.write, encoded, ?_, ?_⟩
  · rw [AttributeInfo.ofOctets?, Element.ofOctets?_eq_some_iff.mpr encoded]
    exact kept.again
  · rw [← kept.unchanged]
    constructor
    · exact Element.eq_of_write_eq (Element.fits_of_length_write writtenBounded) fits
    · exact congrArg Element.write

/-! ## Signed information determines what is used -/

theorem exists_signedOctets? {value : Octets} {certificates : List AttributeCertificate}
    (accepted : ofExtension? value = some certificates)
    {certificate : AttributeCertificate} (member : certificate ∈ certificates) :
    ∃ signed, certificate.info.signedOctets? = some signed ∧
      AttributeInfo.ofOctets? signed = some certificate.info := by
  obtain ⟨infos, _, stand⟩ := infoStands_of_ofExtension? accepted
  have each : List.Forall₂ (fun certificate info =>
      (∃ signed, certificate.info.signedOctets? = some signed ∧
        AttributeInfo.ofOctets? signed = some certificate.info) ∧
      InfoStands value certificate info) certificates infos := by
    apply stand.imp
    intro certificate info stands
    obtain ⟨signed, encoded, again, _⟩ :=
      stands.signedOctets? (length_le_of_ofExtension? accepted)
    exact ⟨⟨signed, encoded, again⟩, stands⟩
  exact ((List.forall₂_and_left _ _).mp each).1 certificate member

/-- The information of every accepted attribute certificate is encoded again,
and the encoding is read as the same information with nothing left over.  So two
accepted attribute certificates whose signatures cover the same octets show the
same membership. -/
theorem membership_determined_by_signedOctets? {value : Octets}
    {certificates : List AttributeCertificate}
    (accepted : ofExtension? value = some certificates)
    {certificate : AttributeCertificate} (member : certificate ∈ certificates) :
    ∃ signed, certificate.info.signedOctets? = some signed ∧
      AttributeInfo.ofOctets? signed = some certificate.info ∧
      ∀ (otherValue : Octets) (others : List AttributeCertificate)
        (other : AttributeCertificate), ofExtension? otherValue = some others →
        other ∈ others → other.info.signedOctets? = some signed →
          other.info = certificate.info ∧
            VoMembership.ofInfo other.info = VoMembership.ofInfo certificate.info := by
  obtain ⟨signed, encoded, again⟩ := exists_signedOctets? accepted member
  refine ⟨signed, encoded, again, ?_⟩
  intro otherValue others other otherAccepted otherMember otherEncoded
  obtain ⟨otherSigned, encodedOther, againOther⟩ :=
    exists_signedOctets? otherAccepted otherMember
  have sameOctets : otherSigned = signed :=
    Option.some.inj (encodedOther.symm.trans otherEncoded)
  have sameInfo : other.info = certificate.info := by
    rw [sameOctets, again] at againOther
    exact (Option.some.inj againOther).symm
  exact ⟨sameInfo, by rw [sameInfo]⟩

/-! A small attribute certificate, with the values of its only attribute left
open. -/

def sampleType : Identifier := ⟨[0x2a, 0x03, 0x04], by decide⟩

def sampleAlgorithm : Element := sequenceOf [sampleType.toElement]

def sampleTime : Element :=
  ⟨timeTag, "20250601000000Z".toList.map fun digit => UInt8.ofNat digit.toNat, Eq.refl true⟩

def sampleInfo (values : List Element) : Element :=
  sequenceOf [smallNumber 1, sequenceOf [],
    .composite (contextCompositeTag 0) isKnownTag_zero [], sampleAlgorithm,
    smallNumber 7, sequenceOf [sampleTime, sampleTime],
    sequenceOf [sequenceOf [sampleType.toElement, .composite setTag isKnownTag_set values]]]

def sampleExtension (values : List Element) : Octets :=
  (sequenceOf [sequenceOf [sequenceOf [sampleInfo values, sampleAlgorithm,
    ⟨bitStringTag, [0], Eq.refl true⟩]]]).write

/-- One attribute certificate whose signature covers the given octets. -/
theorem exists_of_signedOctets? {value signed : Octets}
    (checked : (ofExtension? value).map
      (List.map fun certificate => certificate.info.signedOctets?) = some [some signed]) :
    ∃ certificate, ofExtension? value = some [certificate] ∧
      certificate.info.signedOctets? = some signed := by
  obtain ⟨certificates, accepted, encodings⟩ := Option.map_eq_some_iff.mp checked
  obtain ⟨certificate, rfl, encoded⟩ := List.map_eq_singleton_iff.mp encodings
  exact ⟨certificate, accepted, encoded⟩

private theorem exists_of_ascending_sample :
    ∃ certificate,
      ofExtension? (sampleExtension [smallNumber 1, smallNumber 2]) = some [certificate] ∧
      certificate.info.signedOctets? =
        some (sampleInfo [smallNumber 1, smallNumber 2]).write :=
  exists_of_signedOctets? (by decide +kernel)

private theorem exists_of_descending_sample :
    ∃ certificate,
      ofExtension? (sampleExtension [smallNumber 2, smallNumber 1]) = some [certificate] ∧
      certificate.info.signedOctets? =
        some (sampleInfo [smallNumber 1, smallNumber 2]).write :=
  exists_of_signedOctets? (by decide +kernel)

/-- Two attribute certificates that differ in the order of values only. -/
theorem membership_determined_of_samples :
    ∃ ascending descending,
      ofExtension? (sampleExtension [smallNumber 1, smallNumber 2]) = some [ascending] ∧
      ofExtension? (sampleExtension [smallNumber 2, smallNumber 1]) = some [descending] ∧
      VoMembership.ofInfo descending.info = VoMembership.ofInfo ascending.info := by
  obtain ⟨ascending, accepted, encoded⟩ := exists_of_ascending_sample
  obtain ⟨descending, otherAccepted, otherEncoded⟩ := exists_of_descending_sample
  obtain ⟨signed, same, _, determined⟩ :=
    membership_determined_by_signedOctets? accepted (List.mem_singleton.mpr rfl)
  rw [encoded, ← otherEncoded] at same
  exact ⟨ascending, descending, accepted, otherAccepted,
    (determined _ _ descending otherAccepted (List.mem_singleton.mpr rfl) same).2⟩

/-! ## Signed information as it was sent -/

/-- The octets that a signature is checked over are the ones that stand in the
extension exactly if they stand there in the form that writing produces. -/
theorem signedOctets?_eq_some_write_iff {value : Octets}
    {certificates : List AttributeCertificate}
    (accepted : ofExtension? value = some certificates) :
    ∃ infos, infoElements? value = some infos ∧
      List.Forall₂ (fun certificate info =>
        AttributeInfo.ofElement? info = some certificate.info ∧
          info.write <:+: value ∧
          (certificate.info.signedOctets? = some info.write ↔
            AttributeInfo.Canonical info)) certificates infos := by
  obtain ⟨infos, infosRead, stand⟩ := infoStands_of_ofExtension? accepted
  refine ⟨infos, infosRead, stand.imp fun certificate info stands => ?_⟩
  obtain ⟨signed, encoded, _, unchanged⟩ :=
    stands.signedOctets? (length_le_of_ofExtension? accepted)
  refine ⟨stands.1, stands.2, ?_⟩
  rw [encoded, Option.some.injEq]
  exact unchanged

theorem signedOctets?_eq_some_write_of_ascending :
    AttributeInfo.Canonical (sampleInfo [smallNumber 1, smallNumber 2]) ∧
    ∃ certificate,
      ofExtension? (sampleExtension [smallNumber 1, smallNumber 2]) = some [certificate] ∧
      certificate.info.signedOctets? =
        some (sampleInfo [smallNumber 1, smallNumber 2]).write := by
  have canonical : AttributeInfo.Canonical (sampleInfo [smallNumber 1, smallNumber 2]) := by
    decide +kernel
  have stands : infoElements? (sampleExtension [smallNumber 1, smallNumber 2]) =
      some [sampleInfo [smallNumber 1, smallNumber 2]] := by
    decide +kernel
  obtain ⟨certificate, accepted, _⟩ := exists_of_ascending_sample
  obtain ⟨infos, infosRead, each⟩ := signedOctets?_eq_some_write_iff accepted
  obtain rfl := Option.some.inj (stands.symm.trans infosRead)
  obtain ⟨_, _, iff⟩ := (List.forall₂_cons.mp each).1
  exact ⟨canonical, certificate, accepted, iff.mpr canonical⟩

/-- Values in descending order are accepted, and what is checked is another
encoding than the one that was sent. -/
theorem signedOctets?_ne_write_of_descending :
    ∃ certificate,
      ofExtension? (sampleExtension [smallNumber 2, smallNumber 1]) = some [certificate] ∧
      infoElements? (sampleExtension [smallNumber 2, smallNumber 1]) =
        some [sampleInfo [smallNumber 2, smallNumber 1]] ∧
      certificate.info.signedOctets? ≠
        some (sampleInfo [smallNumber 2, smallNumber 1]).write := by
  have differ : (sampleInfo [smallNumber 1, smallNumber 2]).write ≠
      (sampleInfo [smallNumber 2, smallNumber 1]).write := by
    decide +kernel
  obtain ⟨certificate, accepted, encoded⟩ := exists_of_descending_sample
  refine ⟨certificate, accepted, by decide +kernel, ?_⟩
  rw [encoded]
  exact fun same => differ (Option.some.inj same)

end AttributeCertificate

end GridSecurity
