import GridSecurity.Proofs.AttributeCertificate.Located
import GridSecurity.Proofs.AttributeCertificate.Signed
import GridSecurity.Proofs.Membership
import GridSecurity.Proofs.Validation.Reasons
import GridSecurity.Proofs.Validation.Trust

/-!
# Names in attribute certificates and in certificates

The issuer of an attribute certificate is looked for among the subjects of authorities,
and the issuer of its holder is compared with that of a certificate.  One side of either
comparison was read strictly and written again, and the other was read tolerantly.  Names
with the same octets are the same exactly if their attributes are shown in the order that
writing puts them into, which the distinguished encoding of a name always has.
-/

namespace GridSecurity

open Der

namespace AttributeCertificate

/-- The issuer is shown for the element of its name, and an authority whose subject has the
octets of the element is found if the attributes are shown in order. -/
def IssuerAgrees (certificate : AttributeCertificate) (element : Element) : Prop :=
  ∃ relatives issuer, VoMembership.issuerOf certificate.info = .ok issuer ∧
    AgreesInOrder relatives element issuer ∧
    (NameForm.ShownInOrder relatives →
      ∀ (validator : LocalValidator) (encoding : Octets), ∀ authority ∈ validator.authorities,
        Certificate.parse encoding = .ok authority →
          authority.subject.encoding = element.write →
            ∀ holder now text, .untrustedIssuer text ∉
              (validator.check holder now certificate).failures)

/-- The issuer of the holder's certificate is shown for the element of its name, and a
certificate whose issuer has the octets of the element is refused as the holder only for
its serial number if the attributes are shown in order. -/
def HolderIssuerAgrees (certificate : AttributeCertificate) (element : Element) : Prop :=
  ∃ relatives issuer, VoMembership.holderIssuerOf certificate.info = .ok (some issuer) ∧
    AgreesInOrder relatives element issuer ∧
    (NameForm.ShownInOrder relatives →
      ∀ (validator : LocalValidator) (encoding : Octets) (holder : Certificate),
        Certificate.parse encoding = .ok holder →
          holder.issuer.encoding = element.write →
            ∀ now, .holderMismatch ∈
                (validator.check (some holder) now certificate).failures →
              VoMembership.holderSerialOf certificate.info ≠ some holder.trimmedSerial)

/-- The names of an attribute certificate are those that stand in the element of its
information. -/
structure NamesAgree (certificate : AttributeCertificate) (info : Element) : Prop where
  noIssuer : AttributeInfo.issuerElement? info = none →
    VoMembership.issuerOf certificate.info = .error .noIssuerName
  issuer : ∀ element, AttributeInfo.issuerElement? info = some element →
    IssuerAgrees certificate element
  noHolderIssuer : AttributeInfo.holderIssuerElement? info = none →
    VoMembership.holderIssuerOf certificate.info = .ok none
  holderIssuer : ∀ element, AttributeInfo.holderIssuerElement? info = some element →
    HolderIssuerAgrees certificate element

variable {certificate : AttributeCertificate} {element : Element}
  {relatives : List (List TypeAndValue)} {issuer : DistinguishedName}

/-- An untrusted issuer is the one that is shown, and no authority has its name. -/
theorem unnamed_of_untrustedIssuer {validator : LocalValidator} {holder : Option Certificate}
    {now : Int} {text : String}
    (shown : VoMembership.issuerOf certificate.info = .ok issuer)
    (untrusted : .untrustedIssuer text ∈
      (validator.check holder now certificate).failures) :
    ∀ authority ∈ validator.authorities, ¬ authority.subject.Same issuer := by
  obtain ⟨membership, decoded, _, unnamed⟩ :=
    LocalValidator.untrustedIssuer_mem_check_iff.mp untrusted
  have decodedIssuer := (VoMembership.ofInfo_eq_ok_iff.mp decoded).issuer
  rwa [Except.ok.inj (decodedIssuer.symm.trans shown)] at unnamed

private theorem issuerAgrees_of_agreesInOrder
    (shown : VoMembership.issuerOf certificate.info = .ok issuer)
    (agrees : AgreesInOrder relatives element issuer) : IssuerAgrees certificate element := by
  refine ⟨relatives, issuer, shown, agrees, ?_⟩
  intro inOrder validator encoding authority known parsed same holder now text untrusted
  exact unnamed_of_untrustedIssuer shown untrusted authority known
    ((agrees.subject encoding authority parsed same).mpr inOrder)

private theorem holderIssuerAgrees_of_agreesInOrder
    (shown : VoMembership.holderIssuerOf certificate.info = .ok (some issuer))
    (agrees : AgreesInOrder relatives element issuer) :
    HolderIssuerAgrees certificate element := by
  refine ⟨relatives, issuer, shown, agrees, ?_⟩
  intro inOrder validator encoding holder parsed same now mismatch sameSerial
  obtain ⟨membership, decoded, unheld⟩ :=
    LocalValidator.holderMismatch_mem_check_iff.mp mismatch
  have fields := VoMembership.ofInfo_eq_ok_iff.mp decoded
  have sameIssuer : membership.holderIssuer = some issuer :=
    Except.ok.inj (fields.holderIssuer.symm.trans shown)
  have named : issuer.Same holder.issuer :=
    ((agrees.issuer encoding holder parsed same).mpr inOrder).symm
  have isHeld : isHeldBy membership holder = true := by
    simp [isHeldBy, fields.holderSerial, sameSerial, sameIssuer, named]
  rw [unheld holder rfl] at isHeld
  cases isHeld

theorem namesAgree_of_ofElement? {info : Element}
    (found : AttributeInfo.ofElement? info = some certificate.info) :
    NamesAgree certificate info := by
  obtain ⟨names?, issuerLocated, namesRead⟩ :=
    AttributeInfo.issuerElement?_of_ofElement? found
  obtain ⟨holderNames?, holderLocated, holderNamesRead⟩ :=
    AttributeInfo.holderIssuerElement?_of_ofElement? found
  have issuers := GeneralNames.directoryName?_of_mapM namesRead
  have holderIssuers := GeneralNames.directoryName?_of_mapM holderNamesRead
  rw [← issuerLocated] at issuers
  rw [← holderLocated, Option.bind_map] at holderIssuers
  refine ⟨?_, ?_, ?_, ?_⟩
  · intro nowhere
    rcases issuers with ⟨_, unnamed⟩ | ⟨inner, _, _, located, _⟩
    · rw [VoMembership.issuerOf, unnamed, Option.getD_none]
    · rw [nowhere] at located
      cases located
  · intro element located
    rcases issuers with ⟨nowhere, _⟩ | ⟨inner, relatives, shown, here, named, agrees⟩
    · rw [nowhere] at located
      cases located
    · obtain rfl := Option.some.inj (here.symm.trans located)
      refine issuerAgrees_of_agreesInOrder ?_ agrees
      rw [VoMembership.issuerOf, named, Option.getD_some]
  · intro nowhere
    rcases holderIssuers with ⟨_, unnamed⟩ | ⟨inner, _, _, located, _⟩
    · rw [Function.comp_def] at unnamed
      rw [VoMembership.holderIssuerOf, unnamed]
    · rw [nowhere] at located
      cases located
  · intro element located
    rcases holderIssuers with ⟨nowhere, _⟩ | ⟨inner, relatives, shown, here, named, agrees⟩
    · rw [nowhere] at located
      cases located
    · obtain rfl := Option.some.inj (here.symm.trans located)
      exact holderIssuerAgrees_of_agreesInOrder
        (VoMembership.holderIssuerOf_eq_ok_some_iff.mpr (Option.bind_eq_some_iff.mp named))
        agrees

end AttributeCertificate

/-! A name of an organisation and a common name in one relative name, an attribute
certificate that has it as both names, and a certificate that has it as both of its own. -/

namespace Sample

def letterAttribute (type : UInt8) (letter : Char) : Element :=
  sequenceOf [⟨identifierTag, [0x55, 0x04, type], Eq.refl true⟩,
    ⟨utf8StringTag, Utf8.encodeChar letter, Eq.refl true⟩]

def pairName (attributes : List Element) : Element :=
  sequenceOf [.composite setTag isKnownTag_set attributes]

def ascendingName : Element := pairName [letterAttribute 0x03 'V', letterAttribute 0x0a 'g']

def descendingName : Element := pairName [letterAttribute 0x0a 'g', letterAttribute 0x03 'V']

def directoryNames (name : Element) : Element :=
  sequenceOf [.composite (contextCompositeTag GeneralName.directoryNumber) (Eq.refl true)
    [name]]

def infoNaming (name : Element) : Element :=
  sequenceOf [smallNumber 1,
    sequenceOf [.composite (contextCompositeTag 0) isKnownTag_zero
      [directoryNames name, smallNumber 5]],
    .composite (contextCompositeTag 0) isKnownTag_zero [directoryNames name],
    algorithm 5, smallNumber 1,
    sequenceOf [attributeTime "20240101000000Z", attributeTime "20340101000000Z"],
    sequenceOf [sequenceOf [VoMembership.attributeType.toElement,
      .composite setTag isKnownTag_set
        [sequenceOf [sequenceOf [octetString (Utf8.ofText "/v")]]]]]]

def extensionNaming (name : Element) : Octets :=
  (sequenceOf [sequenceOf [sequenceOf [infoNaming name, algorithm 5,
    ⟨bitStringTag, [0, 1], Eq.refl true⟩]]]).write

def certificateNaming (name : Element) : Octets :=
  (sequenceOf [
    sequenceOf [.composite (contextCompositeTag 0) isKnownTag_zero [smallNumber 2],
      smallNumber 5, algorithm 5, name,
      sequenceOf [⟨0x17, Utf8.ofText "240101000000Z", Eq.refl true⟩,
        ⟨0x17, Utf8.ofText "340101000000Z", Eq.refl true⟩],
      name, sequenceOf [algorithm 1, ⟨bitStringTag, [0, 1], Eq.refl true⟩]],
    algorithm 5, ⟨bitStringTag, [0, 0], Eq.refl true⟩]).write

/-- Both encodings for a name are read, and nothing but the given reasons is found against
the attribute certificate if the certificate is authority and holder. -/
structure JudgedFor (name : Element) (authority : Certificate)
    (certificate : AttributeCertificate) (failures : List ValidationFailure) : Prop where
  parsed : Certificate.parse (certificateNaming name) = .ok authority
  subject : authority.subject.encoding = name.write
  issuer : authority.issuer.encoding = name.write
  accepted : AttributeCertificate.ofExtension? (extensionNaming name) = some [certificate]
  serial : VoMembership.holderSerialOf certificate.info = some authority.trimmedSerial
  judged : ((⟨[authority], .proxyAware⟩ : LocalValidator).check (some authority) moment
    certificate).failures = failures

private theorem exists_judgedFor {name : Element} {failures : List ValidationFailure}
    (computed : (reading (certificateNaming name) fun authority =>
      (AttributeCertificate.ofExtension? (extensionNaming name)).map fun certificates =>
        (authority.subject.encoding, authority.issuer.encoding,
          certificates.map fun certificate =>
            (decide (VoMembership.holderSerialOf certificate.info =
              some authority.trimmedSerial),
            ((⟨[authority], .proxyAware⟩ : LocalValidator).check (some authority) moment
              certificate).failures))) =
      some (name.write, name.write, [(true, failures)])) :
    ∃ authority certificate, JudgedFor name authority certificate failures := by
  obtain ⟨authority, parsed, rest⟩ := exists_of_reading computed
  obtain ⟨certificates, accepted, same⟩ := Option.map_eq_some_iff.mp rest
  simp only [Prod.mk.injEq] at same
  obtain ⟨subject, issuer, only⟩ := same
  obtain ⟨certificate, rfl, judged⟩ := List.map_eq_singleton_iff.mp only
  obtain ⟨serial, failures⟩ := Prod.mk.inj judged
  exact ⟨authority, certificate,
    ⟨parsed, subject, issuer, accepted, of_decide_eq_true serial, failures⟩⟩

private theorem exists_judgedFor_ascending :
    ∃ authority certificate,
      JudgedFor ascendingName authority certificate [.badSignature] :=
  exists_judgedFor (by decide +kernel)

private theorem exists_judgedFor_descending :
    ∃ authority certificate, JudgedFor descendingName authority certificate
      [.untrustedIssuer "CN=V+O=g", .holderMismatch] :=
  exists_judgedFor (by decide +kernel)

end Sample

namespace AttributeCertificate

/-- Whatever name stands first in the issuer of an accepted attribute certificate, or in the
issuer of its holder's certificate, is shown as certificates with the same octets show it,
exactly if its attributes are shown in order. -/
theorem names_agree_iff_shownInOrder {value : Octets}
    {certificates : List AttributeCertificate}
    (accepted : ofExtension? value = some certificates) :
    ∃ infos, infoElements? value = some infos ∧
      List.Forall₂ (fun certificate info =>
        InfoStands value certificate info ∧ NamesAgree certificate info)
        certificates infos := by
  obtain ⟨infos, infosRead, stand⟩ := infoStands_of_ofExtension? accepted
  refine ⟨infos, infosRead, stand.imp fun certificate info stands => ?_⟩
  exact ⟨stands, namesAgree_of_ofElement? stands.1⟩

/-- In the distinguished encoding of a name both sides agree, with several attributes in one
relative name as well. -/
theorem names_agree_of_ascending :
    ∃ certificate authority issuer holderIssuer,
      ofExtension? (Sample.extensionNaming Sample.ascendingName) = some [certificate] ∧
      Certificate.parse (Sample.certificateNaming Sample.ascendingName) = .ok authority ∧
      VoMembership.issuerOf certificate.info = .ok issuer ∧ authority.subject.Same issuer ∧
      VoMembership.holderIssuerOf certificate.info = .ok (some holderIssuer) ∧
      authority.issuer.Same holderIssuer := by
  obtain ⟨authority, certificate, judged⟩ := Sample.exists_judgedFor_ascending
  have stands : infoElements? (Sample.extensionNaming Sample.ascendingName) =
      some [Sample.infoNaming Sample.ascendingName] := by
    decide +kernel
  obtain ⟨infos, infosRead, each⟩ := names_agree_iff_shownInOrder judged.accepted
  obtain rfl := Option.some.inj (stands.symm.trans infosRead)
  obtain ⟨_, agree⟩ := (List.forall₂_cons.mp each).1
  have distinguished : NameForm.Canonical Sample.ascendingName := by decide +kernel
  obtain ⟨_, issuer, shown, agrees, _⟩ :=
    agree.issuer Sample.ascendingName (by decide +kernel)
  obtain ⟨_, holderIssuer, holderShown, holderAgrees, _⟩ :=
    agree.holderIssuer Sample.ascendingName (by decide +kernel)
  exact ⟨certificate, authority, issuer, holderIssuer, judged.accepted, judged.parsed, shown,
    (agrees.subject _ authority judged.parsed judged.subject).mpr
      (agrees.distinguished distinguished),
    holderShown, (holderAgrees.issuer _ authority judged.parsed judged.issuer).mpr
      (holderAgrees.distinguished distinguished)⟩

/-- A name that is read to its end with attributes in descending order is another one in an
attribute certificate: the authority whose subject has its octets is not found, and the
certificate whose issuer has its octets is not the holder. -/
theorem names_disagree_of_descending :
    ∃ certificate authority name issuer,
      ofExtension? (Sample.extensionNaming Sample.descendingName) = some [certificate] ∧
      infoElements? (Sample.extensionNaming Sample.descendingName) =
        some [Sample.infoNaming Sample.descendingName] ∧
      AttributeInfo.issuerElement? (Sample.infoNaming Sample.descendingName) =
        some Sample.descendingName ∧
      AttributeInfo.holderIssuerElement? (Sample.infoNaming Sample.descendingName) =
        some Sample.descendingName ∧
      DistinguishedName.ofOctets Sample.descendingName.write = .ok name ∧
      name.encoding = Sample.descendingName.write ∧
      VoMembership.issuerOf certificate.info = .ok issuer ∧ ¬ name.Same issuer ∧
      Certificate.parse (Sample.certificateNaming Sample.descendingName) = .ok authority ∧
      authority.subject.encoding = Sample.descendingName.write ∧
      authority.issuer.encoding = Sample.descendingName.write ∧
      VoMembership.holderSerialOf certificate.info = some authority.trimmedSerial ∧
      ((⟨[authority], .proxyAware⟩ : LocalValidator).check (some authority) Sample.moment
        certificate).failures = [.untrustedIssuer "CN=V+O=g", .holderMismatch] := by
  obtain ⟨authority, certificate, judged⟩ := Sample.exists_judgedFor_descending
  have stands : infoElements? (Sample.extensionNaming Sample.descendingName) =
      some [Sample.infoNaming Sample.descendingName] := by
    decide +kernel
  have located : AttributeInfo.issuerElement? (Sample.infoNaming Sample.descendingName) =
      some Sample.descendingName := by
    decide +kernel
  obtain ⟨infos, infosRead, each⟩ := infoStands_of_ofExtension? judged.accepted
  obtain rfl := Option.some.inj (stands.symm.trans infosRead)
  obtain ⟨infoRead, _⟩ := (List.forall₂_cons.mp each).1
  obtain ⟨_, issuer, shown, agrees, _⟩ :=
    (namesAgree_of_ofElement? infoRead).issuer Sample.descendingName located
  obtain ⟨name, nameRead, _⟩ := agrees.both
  have toItsEnd : (DistinguishedName.ofOctets Sample.descendingName.write).toOption.map
      (·.encoding) = some Sample.descendingName.write := by
    decide +kernel
  have unnamed : ¬ authority.subject.Same issuer := by
    have untrusted : .untrustedIssuer "CN=V+O=g" ∈
        ((⟨[authority], .proxyAware⟩ : LocalValidator).check (some authority) Sample.moment
          certificate).failures := by
      rw [judged.judged]
      exact List.mem_cons_self
    exact unnamed_of_untrustedIssuer shown untrusted authority List.mem_cons_self
  have other : ¬ name.Same issuer := by
    intro same
    exact unnamed ((agrees.subject _ authority judged.parsed judged.subject).mpr
      ((agrees.alone name nameRead).mp same))
  refine ⟨certificate, authority, name, issuer, judged.accepted, stands, located,
    by decide +kernel, nameRead, ?_, shown, other, judged.parsed, judged.subject,
    judged.issuer, judged.serial, judged.judged⟩
  rw [nameRead] at toItsEnd
  exact Option.some.inj toItsEnd

end AttributeCertificate

end GridSecurity
