import GridSecurity.Proofs.Der.Faithful
import GridSecurity.Proofs.Validation.Delegation
import GridSecurity.Validation.Adapter

/-!
# The records of a chain

A validator goes along a chain and leaves records behind: none for a certificate without
attributes, one for an extension that does not decode, and otherwise one for every attribute
certificate, in the order of the encoding.  Only the end user is found by a look at the whole
chain, and what his certificate carries does not matter there.  So the records of one
certificate do not depend on what is attached to the others.
-/

namespace GridSecurity

open Der

/-! ## What an extension encodes -/

namespace Der

/-- An element is the sequence of elements that stand for some values. -/
def Lists {α : Type} (standsFor : Element → α → Prop) (element : Element)
    (values : List α) : Prop :=
  ∃ fields, element = sequenceOf fields ∧ List.Forall₂ standsFor fields values

theorem sequence?_eq_some_iff {element : Element} (fits : element.Fits)
    {fields : List Element} :
    sequence? element = some fields ↔ element = sequenceOf fields := by
  constructor
  · exact Element.eq_composite_of_children?
  · rintro rfl
    have fit : FitTogether fields := fits
    exact Element.children?_composite fun field member => fit.fits member

/-- If a reader accepts exactly the elements that stand for a value, then reading every
field of a sequence accepts exactly the sequences of such elements. -/
theorem lists_iff {α : Type} {read : Element → Option α}
    {standsFor : Element → α → Prop} {element : Element} (fits : element.Fits)
    (accepts : ∀ field, field.Fits → ∀ value, read field = some value ↔ standsFor field value)
    {values : List α} :
    ((sequence? element).bind fun fields => fields.mapM read) = some values ↔
      Lists standsFor element values := by
  simp only [Option.bind_eq_some_iff, sequence?_eq_some_iff fits, mapM_eq_some_iff]
  apply exists_congr
  intro fields
  apply and_congr_right
  rintro rfl
  have fit : FitTogether fields := fits
  have eachFits : ∀ field ∈ fields, field.Fits := fun field member => fit.fits member
  constructor
  · intro found
    apply ((List.forall₂_and_left _ _).mpr ⟨eachFits, found⟩).imp
    intro field value here
    exact (accepts field here.1 value).mp here.2
  · intro listed
    apply ((List.forall₂_and_left _ _).mpr ⟨eachFits, listed⟩).imp
    intro field value here
    exact (accepts field here.1 value).mpr here.2

end Der

namespace AttributeCertificate

/-- Octets encode a sequence of sequences of attribute certificates. -/
def Encode (value : Octets) (groups : List (List AttributeCertificate)) : Prop :=
  ∃ element, element.encode? = some value ∧
    Lists (Lists fun field certificate => ofElement? field = some certificate) element groups

theorem ofExtension?_eq_some_iff {value : Octets} {certificates : List AttributeCertificate} :
    ofExtension? value = some certificates ↔
      ∃ groups, Encode value groups ∧ certificates = groups.flatten := by
  have opened : ofExtension? value = some certificates ↔
      ∃ element, element.encode? = some value ∧ ∃ groups,
        ((sequence? element).bind fun fields => fields.mapM groupOf?) = some groups ∧
          certificates = groups.flatten := by
    simp only [ofExtension?, Option.bind_eq_bind, Option.bind_eq_some_iff, Option.pure_def,
      Option.some.injEq, Element.ofOctets?_eq_some_iff]
    constructor
    · rintro ⟨element, encoded, fields, children, groups, read, rfl⟩
      exact ⟨element, encoded, groups, ⟨fields, children, read⟩, rfl⟩
    · rintro ⟨element, encoded, groups, ⟨fields, children, read⟩, rfl⟩
      exact ⟨element, encoded, fields, children, groups, read, rfl⟩
  have listed {element : Element} (encoded : element.encode? = some value)
      {groups : List (List AttributeCertificate)} :
      ((sequence? element).bind fun fields => fields.mapM groupOf?) = some groups ↔
        Lists (Lists fun field certificate => ofElement? field = some certificate)
          element groups := by
    obtain ⟨rfl, bounded⟩ := Element.encode?_eq_some_iff.mp encoded
    apply lists_iff (Element.fits_of_length_write bounded)
    intro group groupFits certificates
    exact lists_iff groupFits fun field _ certificate => Iff.rfl
  rw [opened]
  constructor
  · rintro ⟨element, encoded, groups, read, flattened⟩
    exact ⟨groups, ⟨element, encoded, (listed encoded).mp read⟩, flattened⟩
  · rintro ⟨groups, ⟨element, encoded, lists⟩, flattened⟩
    exact ⟨element, encoded, groups, (listed encoded).mpr lists, flattened⟩

end AttributeCertificate

/-! ## The records of one certificate -/

/-- The verdict on one attribute certificate.  The strategy that finds the end user has no
part in it. -/
def verdict (authorities : List Certificate) (user : Option Certificate) (now : Int)
    (certificate : AttributeCertificate) : ValidationResult :=
  LocalValidator.check { authorities } user now certificate

/-- The records that a certificate of a chain leaves, given the verdict on every attribute
certificate. -/
inductive Leaves (judge : AttributeCertificate → ValidationResult) (carrier : Certificate) :
    List ValidationResult → Prop
  | nothing : carrier.vomsExtension = none → Leaves judge carrier []
  | undecodable {value : Octets} : carrier.vomsExtension = some value →
      (∀ groups, ¬ AttributeCertificate.Encode value groups) →
      Leaves judge carrier [⟨none, .invalid [.malformed .undecodableExtension]⟩]
  | decoded {value : Octets} {groups : List (List AttributeCertificate)} :
      carrier.vomsExtension = some value → AttributeCertificate.Encode value groups →
      Leaves judge carrier (groups.flatten.map judge)

/-- The records for an extension, as the decoder takes it. -/
def recordsOf (judge : AttributeCertificate → ValidationResult) (extension : Option Octets) :
    List ValidationResult :=
  match extension with
  | none => []
  | some value =>
      match AttributeCertificate.ofExtension? value with
      | none => [.unreadable .undecodableExtension]
      | some certificates => certificates.map judge

theorem leaves_iff {judge : AttributeCertificate → ValidationResult} {carrier : Certificate}
    {records : List ValidationResult} :
    Leaves judge carrier records ↔ records = recordsOf judge carrier.vomsExtension := by
  constructor
  · intro leaves
    cases leaves with
    | nothing absent => rw [absent, recordsOf]
    | @undecodable value extended undecodable =>
        have refused : AttributeCertificate.ofExtension? value = none := by
          apply Option.eq_none_iff_forall_ne_some.mpr
          intro certificates decoded
          obtain ⟨groups, encode, _⟩ :=
            AttributeCertificate.ofExtension?_eq_some_iff.mp decoded
          exact undecodable groups encode
        simp only [extended, recordsOf, refused, ValidationResult.unreadable]
    | @decoded value groups extended encode =>
        have accepted : AttributeCertificate.ofExtension? value = some groups.flatten :=
          AttributeCertificate.ofExtension?_eq_some_iff.mpr ⟨groups, encode, rfl⟩
        simp only [extended, recordsOf, accepted]
  · rintro rfl
    cases extended : carrier.vomsExtension with
    | none => exact .nothing extended
    | some value =>
        cases decoded : AttributeCertificate.ofExtension? value with
        | none =>
            simp only [recordsOf, decoded]
            apply Leaves.undecodable extended
            intro groups encode
            have accepted := AttributeCertificate.ofExtension?_eq_some_iff.mpr
              ⟨groups, encode, rfl⟩
            cases decoded.symm.trans accepted
        | some certificates =>
            obtain ⟨groups, encode, rfl⟩ :=
              AttributeCertificate.ofExtension?_eq_some_iff.mp decoded
            simp only [recordsOf, decoded]
            exact .decoded extended encode

/-! ## The records of a chain -/

namespace LocalValidator

variable {validator : LocalValidator} {user : Option Certificate} {now : Int}
  {chain others : List Certificate}

private theorem resultsAgainst_eq_flatMap :
    validator.resultsAgainst user now chain =
      chain.flatMap fun carrier =>
        recordsOf (verdict validator.authorities user now) carrier.vomsExtension := by
  unfold resultsAgainst attributeCertificates
  rw [List.map_flatMap]
  apply List.flatMap_congr
  intro carrier _
  cases carrier.vomsExtension with
  | none => rfl
  | some value =>
      dsimp only [recordsOf]
      cases AttributeCertificate.ofExtension? value with
      | none => rfl
      | some certificates => simp [verdict, check]

end LocalValidator

/-! ## What the end user is found by -/

/-- Two certificates take the same place in a chain: nothing is different in them that the
end user is found by or that attributes are bound to. -/
structure TakesSamePlace (certificate other : Certificate) : Prop where
  subject : certificate.subject = other.subject
  issuer : certificate.issuer = other.issuer
  serialContent : certificate.serialContent = other.serialContent
  isAuthority : certificate.isAuthority = other.isAuthority
  proxyKind : certificate.proxyKind = other.proxyKind

namespace TakesSamePlace

variable {certificate other : Certificate}

theorem symm (same : TakesSamePlace certificate other) : TakesSamePlace other certificate :=
  ⟨same.subject.symm, same.issuer.symm, same.serialContent.symm, same.isAuthority.symm,
    same.proxyKind.symm⟩

private theorem isProxy_eq (same : TakesSamePlace certificate other) :
    certificate.isProxy = other.isProxy :=
  congrArg Option.isSome same.proxyKind

private theorem isEndEntity_eq (same : TakesSamePlace certificate other) :
    Chain.isEndEntity certificate = Chain.isEndEntity other := by
  unfold Chain.isEndEntity Certificate.isSelfIssued
  rw [same.isAuthority, same.subject, same.issuer]

private theorem isHeldBy_eq (same : TakesSamePlace certificate other) (membership : VoMembership) :
    isHeldBy membership certificate = isHeldBy membership other := by
  unfold isHeldBy Certificate.trimmedSerial
  rw [same.serialContent, same.issuer]

private theorem verdict_eq (same : TakesSamePlace certificate other)
    (authorities : List Certificate) (now : Int) : verdict authorities (some certificate) now =
      verdict authorities (some other) now := by
  funext attributes
  unfold verdict LocalValidator.check
  simp only [holderFailures, Option.any_some, same.isHeldBy_eq]

/-- A view that is the same of two certificates in the same place, and is the same of all
certificates of one list, is the same of all certificates of the other. -/
theorem forall_view_eq {view : Certificate → Bool} {value : Bool} {chain others : List Certificate}
    (kept : ∀ {certificate other}, TakesSamePlace certificate other → view certificate = view other)
    (places : List.Forall₂ TakesSamePlace chain others)
    (all : ∀ certificate ∈ chain, view certificate = value) :
    ∀ other ∈ others, view other = value := by
  intro other member
  obtain ⟨certificate, listed, same⟩ := exists_mem_of_forall₂ places member
  exact (kept same).symm.trans (all certificate listed)

end TakesSamePlace

namespace Chain

variable {strategy : ResolutionStrategy} {certificate other : Certificate}
  {front back otherFront otherBack chain others : List Certificate}

private theorem IsEndUser.of_samePlace (isEndUser : IsEndUser strategy front certificate back)
    (fronts : List.Forall₂ TakesSamePlace front otherFront)
    (same : TakesSamePlace certificate other)
    (backs : List.Forall₂ TakesSamePlace back otherBack) :
    IsEndUser strategy otherFront other otherBack := by
  cases strategy with
  | proxyAware =>
      obtain ⟨proxies, notProxy⟩ := isEndUser
      exact ⟨TakesSamePlace.forall_view_eq TakesSamePlace.isProxy_eq fronts proxies,
        same.isProxy_eq.symm.trans notProxy⟩
  | basicConstraintsScan =>
      obtain ⟨endEntity, noneBehind⟩ := isEndUser
      exact ⟨same.isEndEntity_eq.symm.trans endEntity,
        TakesSamePlace.forall_view_eq TakesSamePlace.isEndEntity_eq backs noneBehind⟩

private theorem exists_cut_of_forall₂
    (places : List.Forall₂ TakesSamePlace (front ++ certificate :: back) others) :
    ∃ otherFront other otherBack, others = otherFront ++ other :: otherBack ∧
      List.Forall₂ TakesSamePlace front otherFront ∧ TakesSamePlace certificate other ∧
      List.Forall₂ TakesSamePlace back otherBack := by
  induction front generalizing others with
  | nil =>
      obtain ⟨other, otherBack, same, backs, rfl⟩ := List.forall₂_cons_left_iff.mp places
      exact ⟨[], other, otherBack, rfl, .nil, same, backs⟩
  | cons first front induction =>
      obtain ⟨otherFirst, rest, sameFirst, later, rfl⟩ := List.forall₂_cons_left_iff.mp places
      obtain ⟨otherFront, other, otherBack, rfl, fronts, same, backs⟩ := induction later
      exact ⟨otherFirst :: otherFront, other, otherBack, rfl, .cons sameFirst fronts, same, backs⟩

end Chain

namespace LocalValidator

variable {validator : LocalValidator} {now : Int} {chain others : List Certificate}

private theorem exists_holder?_of_forall₂ (places : List.Forall₂ TakesSamePlace chain others)
    {holder : Certificate} (found : validator.holder? chain = some holder) :
    ∃ other, validator.holder? others = some other ∧ TakesSamePlace holder other := by
  obtain ⟨identity, resolved, rfl⟩ := holder?_eq_some_iff.mp found
  obtain ⟨front, back, rfl, isEndUser, _⟩ := Chain.resolveIdentity_eq_ok_iff.mp resolved
  obtain ⟨otherFront, other, otherBack, rfl, fronts, same, backs⟩ :=
    Chain.exists_cut_of_forall₂ places
  have resolvedOther : Chain.resolveIdentity validator.holderStrategy
      (otherFront ++ other :: otherBack) = .ok ⟨other, otherFront.length⟩ :=
    Chain.resolveIdentity_eq_ok_iff.mpr
      ⟨otherFront, otherBack, rfl, isEndUser.of_samePlace fronts same backs, rfl⟩
  exact ⟨other, holder?_eq_some_iff.mpr ⟨_, resolvedOther, rfl⟩, same⟩

/-- The verdict stays if the certificates of a chain are replaced by others that take their
places. -/
theorem verdict_holder?_eq (places : List.Forall₂ TakesSamePlace chain others) :
    verdict validator.authorities (validator.holder? others) now =
      verdict validator.authorities (validator.holder? chain) now := by
  cases found : validator.holder? chain with
  | some holder =>
      obtain ⟨other, otherFound, same⟩ := exists_holder?_of_forall₂ places found
      rw [otherFound]
      exact (same.verdict_eq validator.authorities now).symm
  | none =>
      cases otherFound : validator.holder? others with
      | none => rfl
      | some other =>
          have back : List.Forall₂ TakesSamePlace others chain :=
            (places.imp fun _ _ same => same.symm).flip
          obtain ⟨holder, alsoFound, _⟩ := exists_holder?_of_forall₂ back otherFound
          cases found.symm.trans alsoFound

/-- The records of a chain and of every other one with certificates in the same places: only
the extensions decide what is recorded, and the verdict is the same. -/
theorem exists_records (validator : LocalValidator) (now : Int)
    (places : List.Forall₂ TakesSamePlace chain others) :
    List.Forall₂ (Leaves (verdict validator.authorities (validator.holder? chain) now)) others
        (others.map fun carrier => recordsOf
          (verdict validator.authorities (validator.holder? chain) now) carrier.vomsExtension) ∧
      validator.resultsAt now others = (others.map fun carrier => recordsOf
          (verdict validator.authorities (validator.holder? chain) now)
            carrier.vomsExtension).flatten := by
  constructor
  · apply List.forall₂_map_right_iff.mpr
    apply List.forall₂_same.mpr
    intro carrier _
    exact leaves_iff.mpr rfl
  · rw [resultsAt_eq_resultsAgainst, resultsAgainst_eq_flatMap, verdict_holder?_eq places,
      List.flatMap_def]

/-! ## Valid and rejected records -/

private theorem length_validMemberships_add_rejectedCount {results : List ValidationResult}
    (shown : ∀ result ∈ results, result.outcome = .valid → result.membership.isSome = true) :
    (validMemberships results).length + rejectedCount results = results.length := by
  have each : ∀ result ∈ results.filter (·.isValid), result.membership.isSome = true := by
    intro result member
    obtain ⟨listed, valid⟩ := List.mem_filter.mp member
    apply shown result listed
    unfold ValidationResult.isValid at valid
    split at valid
    · next isValid => exact isValid
    · cases valid
  have whole : results.length = _ := List.length_eq_length_filter_add (·.isValid)
  rw [whole, validMemberships, List.filterMap_length_eq_length.mpr each, rejectedCount]

end LocalValidator

/-! ## A small example -/

namespace Sample

/-- The proxy that carries an attribute certificate in front of the client, and the same with
octets that encode nothing in the place of its extension. -/
theorem exists_replaced :
    ∃ authority user carrier,
      Certificate.parse renewed = .ok authority ∧ Certificate.parse client = .ok user ∧
      Certificate.parse carryingProxy = .ok carrier ∧
      ((⟨[authority], .proxyAware⟩ : LocalValidator).resultsAt moment [carrier, user]).map
        (·.outcome) = [.valid, .valid] ∧
      ((⟨[authority], .proxyAware⟩ : LocalValidator).resultsAt moment
        [{ carrier with vomsExtension := some [] }, user]).map (·.outcome) =
          [.invalid [.malformed .undecodableExtension], .valid] := by
  have computed : (reading renewed fun authority => reading client fun user =>
      reading carryingProxy fun carrier => some (
        ((⟨[authority], .proxyAware⟩ : LocalValidator).resultsAt moment [carrier, user]).map
          (·.outcome),
        ((⟨[authority], .proxyAware⟩ : LocalValidator).resultsAt moment
          [{ carrier with vomsExtension := some [] }, user]).map (·.outcome))) =
      some ([.valid, .valid], [.invalid [.malformed .undecodableExtension], .valid]) := by
    decide +kernel
  obtain ⟨authority, authorityParsed, rest⟩ := exists_of_reading computed
  obtain ⟨user, userParsed, rest⟩ := exists_of_reading rest
  obtain ⟨carrier, carrierParsed, rest⟩ := exists_of_reading rest
  simp only [Option.some.injEq, Prod.mk.injEq] at rest
  exact ⟨authority, user, carrier, authorityParsed, userParsed, carrierParsed, rest⟩

end Sample

/-! ## One record each -/

namespace LocalValidator

/-- The results for a chain are the records of its certificates in order: none, one for an
extension that does not decode, or one for each attribute certificate in the order of the
encoding.  The verdict on an attribute certificate depends on nothing else than the
authorities, the end user and the moment.  If extensions of the chain are replaced, then the
records of all other certificates stay as they were.  In the strict mode every record gives
its attributes or is counted as rejected. -/
theorem one_record_each (validator : LocalValidator) (now : Int) (chain : List Certificate) :
    ∃ records : List (List ValidationResult),
      List.Forall₂ (Leaves (verdict validator.authorities (validator.holder? chain) now)) chain
        records ∧
      validator.resultsAt now chain = records.flatten ∧
      (∀ others, List.Forall₂ TakesSamePlace chain others →
        ∃ otherRecords : List (List ValidationResult),
          List.Forall₂ (Leaves (verdict validator.authorities (validator.holder? chain) now))
            others otherRecords ∧
          validator.resultsAt now others = otherRecords.flatten ∧
          ∀ index : Nat,
            chain[index]?.map (·.vomsExtension) = others[index]?.map (·.vomsExtension) →
            records[index]? = otherRecords[index]?) ∧
      (Adapter.resolve ⟨validator.validatorAt now, .strict⟩ chain).results = records.flatten ∧
      (Adapter.resolve ⟨validator.validatorAt now, .strict⟩ chain).memberships.length +
          (Adapter.resolve ⟨validator.validatorAt now, .strict⟩ chain).rejected =
        records.flatten.length := by
  have unchanged : List.Forall₂ TakesSamePlace chain chain :=
    List.forall₂_same.mpr fun _ _ => ⟨rfl, rfl, rfl, rfl, rfl⟩
  obtain ⟨leave, joined⟩ := exists_records validator now unchanged
  refine ⟨_, leave, joined, ?_, joined, ?_⟩
  · intro others places
    obtain ⟨otherLeave, otherJoined⟩ := exists_records validator now places
    refine ⟨_, otherLeave, otherJoined, ?_⟩
    intro index sameExtension
    have same := congrArg (Option.map (recordsOf
      (verdict validator.authorities (validator.holder? chain) now))) sameExtension
    rw [Option.map_map, Option.map_map] at same
    rw [List.getElem?_map, List.getElem?_map]
    exact same
  · rw [← joined]
    apply length_validMemberships_add_rejectedCount
    intro result member valid
    obtain ⟨_, membership, _, _, rfl, _⟩ := exists_of_mem_resultsAt member valid
    rfl

/-- The extension of the proxy is broken, and the record of the client is what it was. -/
theorem one_record_each_of_broken_proxy :
    ∃ authority user carrier front brokenFront own,
      Certificate.parse Sample.renewed = .ok authority ∧
      Certificate.parse Sample.client = .ok user ∧
      Certificate.parse Sample.carryingProxy = .ok carrier ∧
      List.Forall₂ TakesSamePlace [carrier, user]
        [{ carrier with vomsExtension := some [] }, user] ∧
      (⟨[authority], .proxyAware⟩ : LocalValidator).resultsAt Sample.moment [carrier, user] =
        front ++ own ∧
      (⟨[authority], .proxyAware⟩ : LocalValidator).resultsAt Sample.moment
        [{ carrier with vomsExtension := some [] }, user] = brokenFront ++ own ∧
      (front ++ own).map (·.outcome) = [.valid, .valid] ∧
      (brokenFront ++ own).map (·.outcome) =
        [.invalid [.malformed .undecodableExtension], .valid] := by
  obtain ⟨authority, user, carrier, authorityParsed, userParsed, carrierParsed, valid, broken⟩ :=
    Sample.exists_replaced
  have places : List.Forall₂ TakesSamePlace [carrier, user]
      [{ carrier with vomsExtension := some [] }, user] :=
    .cons ⟨rfl, rfl, rfl, rfl, rfl⟩ (.cons ⟨rfl, rfl, rfl, rfl, rfl⟩ .nil)
  obtain ⟨records, leave, joined, replaced, _⟩ :=
    one_record_each ⟨[authority], .proxyAware⟩ Sample.moment [carrier, user]
  obtain ⟨otherRecords, otherLeave, otherJoined, sameAt⟩ := replaced _ places
  obtain ⟨front, _, _, later, rfl⟩ := List.forall₂_cons_left_iff.mp leave
  obtain ⟨own, _, _, rest, rfl⟩ := List.forall₂_cons_left_iff.mp later
  obtain rfl := List.forall₂_nil_left_iff.mp rest
  obtain ⟨brokenFront, _, _, otherLater, rfl⟩ := List.forall₂_cons_left_iff.mp otherLeave
  obtain ⟨otherOwn, _, _, otherRest, rfl⟩ := List.forall₂_cons_left_iff.mp otherLater
  obtain rfl := List.forall₂_nil_left_iff.mp otherRest
  obtain rfl : own = otherOwn := Option.some.inj (sameAt 1 rfl)
  simp only [List.flatten_cons, List.flatten_nil, List.append_nil] at joined otherJoined
  rw [joined] at valid
  rw [otherJoined] at broken
  exact ⟨authority, user, carrier, front, brokenFront, own, authorityParsed, userParsed,
    carrierParsed, places, joined, otherJoined, valid, broken⟩

end LocalValidator

end GridSecurity
