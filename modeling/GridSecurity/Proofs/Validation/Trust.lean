import GridSecurity.Proofs.Success
import GridSecurity.Validation.Validator

/-!
# Whom a validator trusts

An authority vouches for an attribute certificate if it has the issuer's name
and its key verifies the signature.  Several authorities may vouch for the same
certificate: a renewed certificate of an authority has the name and the key of
the old one.  The validator asks the first of them only whether its own
certificate is valid.
-/

namespace GridSecurity

open Der

/-- An authority has the name of the issuer and a key that verifies the
signature of the attribute certificate, by the scheme selected for both. -/
structure Vouches (certificate : AttributeCertificate) (issuer : DistinguishedName)
    (authority : Certificate) : Prop where
  named : authority.subject.Same issuer
  verified : ∃ scheme signed,
    SignatureScheme.select? certificate.algorithm.algorithm.dotted authority.keyParameter =
      some scheme ∧
    certificate.info.signedOctets? = some signed ∧
    scheme.verifies authority.publicKey signed certificate.signature.octets = true

/-- The first of the authorities, in the order in which they were loaded, that
vouches for an attribute certificate. -/
def FirstVoucher (authorities : List Certificate) (certificate : AttributeCertificate)
    (issuer : DistinguishedName) (first : Certificate) : Prop :=
  ∃ before after, authorities = before ++ first :: after ∧
    Vouches certificate issuer first ∧ ∀ other ∈ before, ¬ Vouches certificate issuer other

theorem FirstVoucher.mem {authorities : List Certificate}
    {certificate : AttributeCertificate} {issuer : DistinguishedName}
    {first : Certificate} (isFirst : FirstVoucher authorities certificate issuer first) :
    first ∈ authorities := by
  obtain ⟨before, after, rfl, _⟩ := isFirst
  simp

theorem FirstVoucher.vouches {authorities : List Certificate}
    {certificate : AttributeCertificate} {issuer : DistinguishedName}
    {first : Certificate} (isFirst : FirstVoucher authorities certificate issuer first) :
    Vouches certificate issuer first := by
  obtain ⟨_, _, _, vouches, _⟩ := isFirst
  exact vouches

/-- An authority of the issuer's name that supports the algorithm vouches exactly
if its key verifies the signature. -/
theorem vouches_iff {certificate : AttributeCertificate} {issuer : DistinguishedName}
    {signed : Octets} (encoded : certificate.info.signedOctets? = some signed)
    (authority : Certificate) :
    Vouches certificate issuer authority ↔
      authority.subject.Same issuer ∧
        ∃ candidate, (SignatureScheme.select? certificate.algorithm.algorithm.dotted
          authority.keyParameter).map (authority, ·) = some candidate ∧
            isSignedBy signed certificate.signature.octets candidate = true := by
  constructor
  · rintro ⟨named, scheme, covered, selected, encodes, verifies⟩
    obtain rfl := Option.some.inj (encodes.symm.trans encoded)
    exact ⟨named, (authority, scheme), by rw [selected]; rfl, verifies⟩
  · rintro ⟨named, candidate, supported, verifies⟩
    obtain ⟨scheme, selected, rfl⟩ := Option.map_eq_some_iff.mp supported
    exact ⟨named, scheme, signed, selected, encoded, verifies⟩

/-- The search for an authority among the supporting ones of a name finds the
first one that vouches. -/
theorem find?_supportingAuthorities_iff (authorities : List Certificate)
    {certificate : AttributeCertificate} (issuer : DistinguishedName) {signed : Octets}
    (encoded : certificate.info.signedOctets? = some signed) (first : Certificate) :
    (∃ scheme, (supportingAuthorities
        (authorities.filter fun authority => decide (authority.subject.Same issuer))
        certificate.algorithm.algorithm.dotted).find?
          (isSignedBy signed certificate.signature.octets) = some (first, scheme)) ↔
      FirstVoucher authorities certificate issuer first := by
  simp only [supportingAuthorities, List.find?_filterMap, List.find?_filter,
    Option.bind_eq_some_iff, List.find?_eq_some_iff_append, decide_eq_true_eq,
    Option.any_eq_true, Bool.not_eq_true', decide_eq_false_iff_not,
    ← vouches_iff encoded]
  constructor
  · rintro ⟨scheme, authority, ⟨vouches, before, after, whole, others⟩, supported⟩
    obtain ⟨_, _, same⟩ := Option.map_eq_some_iff.mp supported
    obtain ⟨rfl, rfl⟩ := Prod.mk.inj same
    exact ⟨before, after, whole, vouches, others⟩
  · rintro ⟨before, after, whole, vouches, others⟩
    have ⟨_, scheme, _, selected, _⟩ := vouches
    exact ⟨scheme, first, ⟨vouches, before, after, whole, others⟩, by rw [selected]; rfl⟩

theorem FirstVoucher.unique {authorities : List Certificate}
    {certificate : AttributeCertificate} {issuer : DistinguishedName}
    {first other : Certificate} (isFirst : FirstVoucher authorities certificate issuer first)
    (alsoFirst : FirstVoucher authorities certificate issuer other) : first = other := by
  obtain ⟨_, signed, _, encoded, _⟩ := isFirst.vouches.verified
  obtain ⟨_, found⟩ :=
    (find?_supportingAuthorities_iff authorities issuer encoded first).mpr isFirst
  obtain ⟨_, alsoFound⟩ :=
    (find?_supportingAuthorities_iff authorities issuer encoded other).mpr alsoFirst
  exact (Prod.mk.inj (Option.some.inj (found.symm.trans alsoFound))).1

theorem exists_firstVoucher {authorities : List Certificate}
    {certificate : AttributeCertificate} {issuer : DistinguishedName}
    {authority : Certificate} (known : authority ∈ authorities)
    (vouches : Vouches certificate issuer authority) :
    ∃ first, FirstVoucher authorities certificate issuer first := by
  induction authorities with
  | nil => cases known
  | cons head tail induction =>
      by_cases here : Vouches certificate issuer head
      · exact ⟨head, [], tail, rfl, here, by simp⟩
      · rcases List.mem_cons.mp known with rfl | later
        · exact absurd vouches here
        · obtain ⟨first, before, after, rfl, firstVouches, others⟩ := induction later
          exact ⟨first, head :: before, after, rfl, firstVouches, by simpa using ⟨here, others⟩⟩

theorem find?_supportingAuthorities_eq_none_iff {authorities : List Certificate}
    {certificate : AttributeCertificate} {issuer : DistinguishedName} {signed : Octets}
    (encoded : certificate.info.signedOctets? = some signed) :
    (supportingAuthorities
        (authorities.filter fun authority => decide (authority.subject.Same issuer))
        certificate.algorithm.algorithm.dotted).find?
          (isSignedBy signed certificate.signature.octets) = none ↔
      ∀ authority ∈ authorities, ¬ Vouches certificate issuer authority := by
  constructor
  · intro nobody authority known vouches
    obtain ⟨first, isFirst⟩ := exists_firstVoucher known vouches
    obtain ⟨scheme, found⟩ :=
      (find?_supportingAuthorities_iff authorities issuer encoded first).mpr isFirst
    cases nobody.symm.trans found
  · intro nobody
    apply Option.eq_none_iff_forall_ne_some.mpr
    rintro ⟨first, scheme⟩ found
    have isFirst : FirstVoucher authorities certificate issuer first :=
      (find?_supportingAuthorities_iff authorities issuer encoded first).mp ⟨scheme, found⟩
    exact nobody first isFirst.mem isFirst.vouches

/-- The first authority that vouches decides: its certificate is valid, or its
not being valid is the reason against the issuer. -/
theorem trustFailures_of_firstVoucher {authorities : List Certificate}
    {certificate : AttributeCertificate} {issuer : DistinguishedName}
    {first : Certificate} (isFirst : FirstVoucher authorities certificate issuer first)
    (now : Int) :
    trustFailures authorities certificate issuer now =
      if first.isValidAt now then [] else [.authorityCertificateExpired issuer.readable] := by
  obtain ⟨_, signed, _, encoded, _⟩ := isFirst.vouches.verified
  obtain ⟨scheme, found⟩ :=
    (find?_supportingAuthorities_iff authorities issuer encoded first).mpr isFirst
  unfold trustFailures
  split
  · next nobody =>
      rw [nobody] at found
      cases found
  · rw [encoded]
    dsimp only
    split
    · next unsupported =>
        rw [unsupported] at found
        cases found
    · rw [found]

/-- There is always a reason against an issuer for whom no authority vouches. -/
theorem trustFailures_ne_nil_of_none {authorities : List Certificate}
    {certificate : AttributeCertificate} {issuer : DistinguishedName} (now : Int)
    (nobody : ∀ authority ∈ authorities, ¬ Vouches certificate issuer authority) :
    trustFailures authorities certificate issuer now ≠ [] := by
  unfold trustFailures
  split
  · simp
  · split
    · simp
    · next signed encoded =>
        dsimp only
        split
        · simp
        · rw [(find?_supportingAuthorities_eq_none_iff encoded).mpr nobody]
          simp

/-- There is nothing against the issuer exactly if the first authority that
vouches for the attribute certificate is valid. -/
theorem trustFailures_eq_nil_iff {authorities : List Certificate}
    {certificate : AttributeCertificate} {issuer : DistinguishedName} {now : Int} :
    trustFailures authorities certificate issuer now = [] ↔
      ∃ first, FirstVoucher authorities certificate issuer first ∧
        first.isValidAt now = true := by
  constructor
  · intro nothing
    by_cases somebody : ∃ authority ∈ authorities, Vouches certificate issuer authority
    · obtain ⟨authority, known, vouches⟩ := somebody
      obtain ⟨first, isFirst⟩ := exists_firstVoucher known vouches
      refine ⟨first, isFirst, ?_⟩
      rw [trustFailures_of_firstVoucher isFirst] at nothing
      by_cases valid : first.isValidAt now = true
      · exact valid
      · rw [if_neg valid] at nothing
        cases nothing
    · have nobody : ∀ authority ∈ authorities, ¬ Vouches certificate issuer authority :=
        fun authority known vouches => somebody ⟨authority, known, vouches⟩
      exact absurd nothing (trustFailures_ne_nil_of_none now nobody)
  · rintro ⟨first, isFirst, valid⟩
    rw [trustFailures_of_firstVoucher isFirst, if_pos valid]

/-! ## The other checks -/

theorem periodFailures_eq_nil_iff {membership : VoMembership} {now : Int} :
    periodFailures membership now = [] ↔
      membership.notBefore.seconds ≤ now ∧ now ≤ membership.notAfter.seconds := by
  simp [periodFailures]

theorem holderFailures_eq_nil_iff {membership : VoMembership}
    {holder? : Option Certificate} :
    holderFailures membership holder? = [] ↔
      ∃ holder, holder? = some holder ∧ isHeldBy membership holder = true := by
  simp [holderFailures, Option.any_eq_true]

theorem ofFailures_eq_valid_iff {membership : VoMembership} {shown : Option VoMembership}
    {failures : List ValidationFailure} :
    ValidationResult.ofFailures membership failures = ⟨shown, .valid⟩ ↔
      shown = some membership ∧ failures = [] := by
  unfold ValidationResult.ofFailures
  cases failures <;> simp [eq_comm]

/-- What an attribute certificate has to fulfil besides being trusted: it shows
a membership, the moment lies in its period, and it is held by the certificate
that attributes of the chain have to be bound to. -/
structure Acceptable (validator : LocalValidator) (chain : List Certificate) (now : Int)
    (certificate : AttributeCertificate) (membership : VoMembership) : Prop where
  decoded : VoMembership.ofInfo certificate.info = .ok membership
  begun : membership.notBefore.seconds ≤ now
  notOver : now ≤ membership.notAfter.seconds
  held : ∃ holder, validator.holder? chain = some holder ∧
    isHeldBy membership holder = true

namespace LocalValidator

variable {validator : LocalValidator} {chain : List Certificate} {now : Int}
  {certificate : AttributeCertificate} {membership : VoMembership}

theorem holder?_eq_some_iff {holder : Certificate} :
    validator.holder? chain = some holder ↔
      ∃ identity, Chain.resolveIdentity validator.holderStrategy chain = .ok identity ∧
        identity.certificate = holder := by
  unfold holder?
  cases Chain.resolveIdentity validator.holderStrategy chain with
  | error fault => simp
  | ok identity => simp

/-- Only trust is left to be judged for an acceptable certificate. -/
theorem check_of_acceptable
    (acceptable : Acceptable validator chain now certificate membership) :
    validator.check (validator.holder? chain) now certificate =
      .ofFailures membership
        (trustFailures validator.authorities certificate membership.issuer now) := by
  have current := periodFailures_eq_nil_iff.mpr ⟨acceptable.begun, acceptable.notOver⟩
  have held := holderFailures_eq_nil_iff.mpr acceptable.held
  rw [check, acceptable.decoded]
  dsimp only
  rw [current, held, List.append_nil, List.append_nil]

/-- A certificate is found valid exactly if it is acceptable and the first
authority that vouches for it is valid. -/
theorem check_eq_valid_iff {shown : Option VoMembership} :
    validator.check (validator.holder? chain) now certificate = ⟨shown, .valid⟩ ↔
      ∃ membership, shown = some membership ∧
        Acceptable validator chain now certificate membership ∧
        ∃ first, FirstVoucher validator.authorities certificate membership.issuer first ∧
          first.isValidAt now = true := by
  constructor
  · intro valid
    unfold check at valid
    split at valid
    · cases valid
    · next membership decoded =>
        obtain ⟨rfl, nothing⟩ := ofFailures_eq_valid_iff.mp valid
        obtain ⟨rest, held⟩ := List.append_eq_nil_iff.mp nothing
        obtain ⟨trusted, current⟩ := List.append_eq_nil_iff.mp rest
        obtain ⟨begun, notOver⟩ := periodFailures_eq_nil_iff.mp current
        exact ⟨membership, rfl,
          ⟨decoded, begun, notOver, holderFailures_eq_nil_iff.mp held⟩,
          trustFailures_eq_nil_iff.mp trusted⟩
  · rintro ⟨membership, rfl, acceptable, trusted⟩
    rw [check_of_acceptable acceptable]
    exact ofFailures_eq_valid_iff.mpr ⟨rfl, trustFailures_eq_nil_iff.mpr trusted⟩

theorem getElem?_resultsAt {index : Nat}
    (found : (attributeCertificates chain)[index]? = some (some certificate)) :
    (validator.resultsAt now chain)[index]? =
      some (validator.check (validator.holder? chain) now certificate) := by
  rw [resultsAt, List.getElem?_map, found]
  rfl

/-- Every valid result is that of an acceptable certificate for which a valid
authority vouches. -/
theorem exists_of_mem_resultsAt {result : ValidationResult}
    (member : result ∈ validator.resultsAt now chain) (valid : result.outcome = .valid) :
    ∃ certificate membership first, some certificate ∈ attributeCertificates chain ∧
      result = ⟨some membership, .valid⟩ ∧
      Acceptable validator chain now certificate membership ∧
      FirstVoucher validator.authorities certificate membership.issuer first ∧
      first.isValidAt now = true := by
  obtain ⟨shown, outcome⟩ := result
  obtain rfl : outcome = .valid := valid
  obtain ⟨entry, entryMember, checked⟩ := List.mem_map.mp member
  cases entry with
  | none => cases checked
  | some certificate =>
      obtain ⟨membership, rfl, acceptable, first, isFirst, firstValid⟩ :=
        check_eq_valid_iff.mp checked
      exact ⟨certificate, membership, first, entryMember, rfl, acceptable, isFirst, firstValid⟩

end LocalValidator

/-! ## A small example

An authority `V` with a certificate that has expired and one that is in force, both
with the same key, and a client `c` of the issuer `i` with an attribute
certificate of that authority. -/

namespace Sample

/-- A name of one common name of one letter. -/
def name (letter : Char) : Element :=
  sequenceOf [.composite setTag isKnownTag_set
    [sequenceOf [⟨identifierTag, [0x55, 0x04, 0x03], Eq.refl true⟩,
      ⟨utf8StringTag, Utf8.encodeChar letter, Eq.refl true⟩]]]

/-- An algorithm of the family of signatures by powers. -/
def algorithm (last : UInt8) : Element :=
  sequenceOf [⟨identifierTag,
    [0x2a, 0x86, 0x48, 0x86, 0xf7, 0x0d, 0x01, 0x01, last], Eq.refl true⟩]

def modulus : Octets := [
  0x00, 0xde, 0xea, 0x09, 0xd1, 0xf2, 0x96, 0x39, 0x29, 0xe0, 0x0a, 0x58, 0x8f, 0x61,
  0x45, 0x09, 0x39, 0xed, 0x31, 0xe5, 0xca, 0x04, 0x2e, 0x52, 0x23, 0x2b, 0xe9, 0x47,
  0xe5, 0xb5, 0xaa, 0xdf, 0x60, 0x6c, 0x85, 0xe7, 0xa0, 0x9d, 0x21, 0x21, 0x42, 0x6e,
  0xe7, 0xd6, 0x43, 0x0c, 0xcb, 0x26, 0x08, 0xa8, 0xc2, 0x99, 0x1d, 0x8c, 0x57, 0x59,
  0xae, 0x77, 0x7c, 0xb2, 0x57, 0x24, 0xa8, 0x67, 0x91, 0x91, 0x6f, 0x83, 0xef, 0xa3,
  0x53, 0x0d, 0xcb, 0xc4, 0x94, 0xba, 0x23, 0x0f, 0x31, 0x14, 0x0b, 0x64, 0xe3, 0x93,
  0x89, 0xf2, 0xf1, 0xb0, 0x6a, 0x67, 0x73, 0x8b, 0x97, 0xa9, 0xe5, 0xd5, 0xff, 0x7d,
  0xac, 0x92, 0x7a, 0x9e, 0xa1, 0xb5, 0x94, 0x8a, 0x27, 0x63, 0xa7, 0x3e, 0xeb, 0x65,
  0x24, 0xc9, 0xe0, 0x78, 0xcf, 0x54, 0xd3, 0x26, 0x66, 0x77, 0x89, 0xe2, 0x9a, 0x69,
  0xd9, 0xdc, 0xb1]

def signature : Octets := [
  0x5a, 0xc5, 0xff, 0xb2, 0xc3, 0x10, 0xe3, 0xf1, 0x49, 0x58, 0xab, 0x23, 0xb4, 0x8d,
  0xff, 0x2a, 0x2d, 0x99, 0xad, 0x5e, 0xdb, 0x35, 0x6a, 0x29, 0x54, 0x36, 0x65, 0x71,
  0xca, 0x78, 0xa8, 0x49, 0x10, 0x0b, 0x93, 0xef, 0xc5, 0x15, 0x25, 0x2e, 0x44, 0x86,
  0xc5, 0xea, 0x45, 0xa3, 0xa1, 0xca, 0x1c, 0xf8, 0x8e, 0xb8, 0xe7, 0x70, 0xd8, 0x1e,
  0xef, 0x53, 0xbc, 0x23, 0x9b, 0x60, 0x2b, 0x4e, 0xf7, 0xee, 0x62, 0xbc, 0x3e, 0x24,
  0x24, 0x64, 0x17, 0xcd, 0xb7, 0x69, 0x63, 0x43, 0xcd, 0xcf, 0x85, 0x2e, 0xdc, 0x03,
  0xb3, 0x66, 0xe4, 0x06, 0x23, 0x13, 0x86, 0x23, 0x36, 0xb2, 0x89, 0x6f, 0xbf, 0x21,
  0x2e, 0x58, 0x78, 0x78, 0x39, 0xaa, 0xe5, 0x7d, 0x08, 0x60, 0xad, 0x14, 0xf6, 0x3e,
  0xd8, 0xaf, 0x5b, 0x23, 0x44, 0x41, 0x75, 0x80, 0xec, 0xd4, 0x9e, 0x64, 0xcf, 0xc6,
  0xb3, 0x85]

/-- The key of the authority. -/
def key : Octets :=
  (sequenceOf [⟨integerTag, modulus, Eq.refl true⟩,
    ⟨integerTag, [0x01, 0x00, 0x01], Eq.refl true⟩]).write

/-- A certificate, whose own signature is not looked at. -/
def certificate (serial : UInt8) (issuer subject : Char) (notBefore notAfter : String)
    (key : Octets) (extensions : List Element) : Octets :=
  (sequenceOf [
    sequenceOf ([.composite (contextCompositeTag 0) isKnownTag_zero [smallNumber 2],
      smallNumber serial, algorithm 5, name issuer,
      sequenceOf [⟨0x17, Utf8.ofText notBefore, Eq.refl true⟩,
        ⟨0x17, Utf8.ofText notAfter, Eq.refl true⟩],
      name subject, sequenceOf [algorithm 1, ⟨bitStringTag, 0 :: key, Eq.refl true⟩]]
        ++ extensions),
    algorithm 5, ⟨bitStringTag, [0, 0], Eq.refl true⟩]).write

def expired : Octets := certificate 1 'V' 'V' "150101000000Z" "200101000000Z" key []

def renewed : Octets := certificate 2 'V' 'V' "190101000000Z" "400101000000Z" key []

/-- A directory name as one of several kinds of names. -/
def generalNames (letter : Char) : Element :=
  sequenceOf [.composite (contextCompositeTag GeneralName.directoryNumber) (Eq.refl true)
    [name letter]]

def attributeTime (text : String) : Element := ⟨timeTag, Utf8.ofText text, Eq.refl true⟩

/-- The information that the authority signed: the attribute name `/v` for the
certificate with the number five. -/
def info : Element :=
  sequenceOf [smallNumber 1,
    sequenceOf [.composite (contextCompositeTag 0) isKnownTag_zero
      [generalNames 'i', smallNumber 5]],
    .composite (contextCompositeTag 0) isKnownTag_zero [generalNames 'V'],
    algorithm 5, smallNumber 1,
    sequenceOf [attributeTime "20240101000000Z", attributeTime "20340101000000Z"],
    sequenceOf [sequenceOf [VoMembership.attributeType.toElement,
      .composite setTag isKnownTag_set
        [sequenceOf [sequenceOf [octetString (Utf8.ofText "/v")]]]]]]

/-- The value of the extension with the attribute certificate. -/
def extension : Octets :=
  (sequenceOf [sequenceOf [sequenceOf [info, algorithm 5,
    ⟨bitStringTag, 0 :: signature, Eq.refl true⟩]]]).write

def client : Octets :=
  certificate 5 'i' 'c' "240101000000Z" "340101000000Z" [1]
    [.composite (contextCompositeTag 3) (Eq.refl true) [sequenceOf [sequenceOf [
      ⟨identifierTag, [0x2b, 0x06, 0x01, 0x04, 0x01, 0xbe, 0x45, 0x64, 0x64, 0x05],
        Eq.refl true⟩,
      octetString extension]]]]

def moment : Int := 1750000000

/-- The certificate that was read from an encoding, in front of what is made of
it. -/
def reading {α : Type} (encoding : Octets) (continuation : Certificate → Option α) :
    Option α :=
  (Certificate.parse encoding).toOption.bind continuation

theorem exists_of_reading {α : Type} {encoding : Octets}
    {continuation : Certificate → Option α} {value : α}
    (found : reading encoding continuation = some value) :
    ∃ certificate, Certificate.parse encoding = .ok certificate ∧
      continuation certificate = some value := by
  obtain ⟨certificate, parsed, continued⟩ := Option.bind_eq_some_iff.mp found
  exact ⟨certificate, toOption_eq_some_iff.mp parsed, continued⟩

/-- The outcome for the client's attribute certificate depends on the order of
the authorities. -/
private theorem exists_outcomes :
    ∃ old new user, Certificate.parse expired = .ok old ∧
      Certificate.parse renewed = .ok new ∧ Certificate.parse client = .ok user ∧
      old.isValidAt moment = false ∧
      ((⟨[new, old], .proxyAware⟩ : LocalValidator).resultsAt moment [user]).map
        (·.outcome) = [.valid] ∧
      ((⟨[old, new], .proxyAware⟩ : LocalValidator).resultsAt moment [user]).map
        (·.outcome) = [.invalid [.authorityCertificateExpired "CN=V"]] := by
  have computed : (reading expired fun old => reading renewed fun new =>
      reading client fun user => some (old.isValidAt moment,
        ((⟨[new, old], .proxyAware⟩ : LocalValidator).resultsAt moment [user]).map
          (·.outcome),
        ((⟨[old, new], .proxyAware⟩ : LocalValidator).resultsAt moment [user]).map
          (·.outcome))) =
      some (false, [.valid], [.invalid [.authorityCertificateExpired "CN=V"]]) := by
    decide +kernel
  obtain ⟨old, oldParsed, rest⟩ := exists_of_reading computed
  obtain ⟨new, newParsed, rest⟩ := exists_of_reading rest
  obtain ⟨user, userParsed, rest⟩ := exists_of_reading rest
  simp only [Option.some.injEq, Prod.mk.injEq] at rest
  obtain ⟨oldOver, renewedFirst, expiredFirst⟩ := rest
  exact ⟨old, new, user, oldParsed, newParsed, userParsed, oldOver, renewedFirst, expiredFirst⟩

/-- In the order in which it is found valid, the client's attribute certificate
is acceptable and the renewed certificate vouches for it. -/
private theorem exists_acceptable {old new user : Certificate}
    (oldOver : old.isValidAt moment = false)
    (renewedFirst : ((⟨[new, old], .proxyAware⟩ : LocalValidator).resultsAt moment
      [user]).map (·.outcome) = [.valid]) :
    ∃ certificate membership,
      (attributeCertificates [user])[0]? = some (some certificate) ∧
      Acceptable ⟨[new, old], .proxyAware⟩ [user] moment certificate membership ∧
      Vouches certificate membership.issuer new ∧ new.isValidAt moment = true := by
  obtain ⟨result, only, valid⟩ := List.map_eq_singleton_iff.mp renewedFirst
  obtain ⟨certificate, membership, first, member, _, acceptable, isFirst, firstValid⟩ :=
    LocalValidator.exists_of_mem_resultsAt (by rw [only]; simp) valid
  obtain ⟨entry, entries, _⟩ := List.map_eq_singleton_iff.mp only
  rw [entries, List.mem_singleton] at member
  have isNew : first = new := by
    rcases List.mem_cons.mp isFirst.mem with same | other
    · exact same
    · rw [List.mem_singleton.mp other, oldOver] at firstValid
      cases firstValid
  refine ⟨certificate, membership, by rw [entries, ← member]; rfl, acceptable, ?_, ?_⟩
  · rw [← isNew]
    exact isFirst.vouches
  · rw [← isNew]
    exact firstValid

end Sample

/-! ## The first authority decides -/

namespace LocalValidator

/-- An acceptable certificate for which some authority vouches is found valid
exactly if the first authority that vouches for it is valid, however many others
are.  Otherwise the first one's certificate is the only reason against it. -/
theorem result_eq_valid_iff_firstVoucher {index : Nat}
    (found : (attributeCertificates chain)[index]? = some (some certificate))
    (acceptable : Acceptable validator chain now certificate membership)
    {authority : Certificate} (known : authority ∈ validator.authorities)
    (vouches : Vouches certificate membership.issuer authority) :
    ((validator.resultsAt now chain)[index]? = some ⟨some membership, .valid⟩ ↔
      ∀ first, FirstVoucher validator.authorities certificate membership.issuer first →
        first.isValidAt now = true) ∧
    ((validator.resultsAt now chain)[index]? ≠ some ⟨some membership, .valid⟩ →
      (validator.resultsAt now chain)[index]? = some ⟨some membership,
        .invalid [.authorityCertificateExpired membership.issuer.readable]⟩) := by
  obtain ⟨first, isFirst⟩ := exists_firstVoucher known vouches
  rw [getElem?_resultsAt found, check_of_acceptable acceptable,
    trustFailures_of_firstVoucher isFirst]
  have firstDecides : (∀ other, FirstVoucher validator.authorities certificate
      membership.issuer other → other.isValidAt now = true) ↔ first.isValidAt now = true := by
    constructor
    · intro all
      exact all first isFirst
    · intro valid other alsoFirst
      rw [← isFirst.unique alsoFirst]
      exact valid
  rw [firstDecides]
  by_cases valid : first.isValidAt now = true
  · simp [valid, ValidationResult.ofFailures]
  · simp [valid, ValidationResult.ofFailures]

theorem result_valid_of_renewed_first :
    ∃ old new user certificate membership,
      Certificate.parse Sample.expired = .ok old ∧
      Certificate.parse Sample.renewed = .ok new ∧
      Certificate.parse Sample.client = .ok user ∧
      (attributeCertificates [user])[0]? = some (some certificate) ∧
      Acceptable ⟨[new, old], .proxyAware⟩ [user] Sample.moment certificate membership ∧
      Vouches certificate membership.issuer new ∧
      ((⟨[new, old], .proxyAware⟩ : LocalValidator).resultsAt Sample.moment [user])[0]? =
        some ⟨some membership, .valid⟩ := by
  obtain ⟨old, new, user, oldParsed, newParsed, userParsed, oldOver, renewedFirst, _⟩ :=
    Sample.exists_outcomes
  obtain ⟨certificate, membership, found, acceptable, vouches, newValid⟩ :=
    Sample.exists_acceptable oldOver renewedFirst
  have decided := result_eq_valid_iff_firstVoucher found acceptable List.mem_cons_self vouches
  have newFirst : FirstVoucher [new, old] certificate membership.issuer new :=
    ⟨[], [old], rfl, vouches, by simp⟩
  refine ⟨old, new, user, certificate, membership, oldParsed, newParsed, userParsed, found,
    acceptable, vouches, decided.1.mpr ?_⟩
  intro first isFirst
  rw [isFirst.unique newFirst]
  exact newValid

/-- An authority in force vouches for an acceptable certificate, and yet it is not
found valid because an expired authority with the same key was loaded before. -/
theorem result_invalid_of_expired_first :
    ∃ old new user certificate membership,
      Certificate.parse Sample.expired = .ok old ∧
      Certificate.parse Sample.renewed = .ok new ∧
      Certificate.parse Sample.client = .ok user ∧
      (attributeCertificates [user])[0]? = some (some certificate) ∧
      Acceptable ⟨[old, new], .proxyAware⟩ [user] Sample.moment certificate membership ∧
      Vouches certificate membership.issuer new ∧
      new.isValidAt Sample.moment = true ∧
      ((⟨[old, new], .proxyAware⟩ : LocalValidator).resultsAt Sample.moment [user]).map
        (·.outcome) = [.invalid [.authorityCertificateExpired "CN=V"]] := by
  obtain ⟨old, new, user, oldParsed, newParsed, userParsed, oldOver, renewedFirst,
    expiredFirst⟩ := Sample.exists_outcomes
  obtain ⟨certificate, membership, found, acceptable, vouches, newValid⟩ :=
    Sample.exists_acceptable oldOver renewedFirst
  have sameStrategy : Acceptable ⟨[old, new], .proxyAware⟩ [user] Sample.moment
      certificate membership :=
    ⟨acceptable.decoded, acceptable.begun, acceptable.notOver, acceptable.held⟩
  exact ⟨old, new, user, certificate, membership, oldParsed, newParsed, userParsed, found,
    sameStrategy, vouches, newValid, expiredFirst⟩

end LocalValidator

end GridSecurity
