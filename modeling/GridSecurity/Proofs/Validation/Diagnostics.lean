import GridSecurity.Proofs.AttributeCertificate.Signed
import GridSecurity.Proofs.Authorization
import GridSecurity.Proofs.Validation.Delegation
import GridSecurity.Proofs.Validation.Modes
import GridSecurity.Proofs.Validation.Reasons

/-!
# Exact diagnostics

The result for an attribute certificate tells everything that is against it and nothing
else.  The checks of its issuer build on each other, so that one reason at most is found
there: it tells which of them the authorities fail first.  The period and the holder are
checked on their own, whatever was found before.
-/

namespace GridSecurity

section Trust

variable {authorities : List Certificate} {certificate : AttributeCertificate}
  {issuer : DistinguishedName} {now : Int}

/-- An authority has the name of the issuer and a key for the algorithm of the signature. -/
def Supports (certificate : AttributeCertificate) (issuer : DistinguishedName)
    (authority : Certificate) : Prop :=
  authority.subject.Same issuer ∧ ∃ scheme,
    SignatureScheme.select? certificate.algorithm.algorithm.dotted authority.keyParameter =
      some scheme

/-- The reasons against the issuer of an attribute certificate, each with what the
authorities fulfil and what they do not. -/
inductive TrustReasons (authorities : List Certificate) (certificate : AttributeCertificate)
    (issuer : DistinguishedName) (now : Int) : List ValidationFailure → Prop
  | untrusted : (∀ authority ∈ authorities, ¬ authority.subject.Same issuer) →
      TrustReasons authorities certificate issuer now [.untrustedIssuer issuer.readable]
  | unsupported : (∃ authority ∈ authorities, authority.subject.Same issuer) →
      (∀ authority ∈ authorities, ¬ Supports certificate issuer authority) →
      TrustReasons authorities certificate issuer now
        [.unsupportedAlgorithm certificate.algorithm.algorithm.dotted]
  | unverified : (∃ authority ∈ authorities, Supports certificate issuer authority) →
      (∀ authority ∈ authorities, ¬ Vouches certificate issuer authority) →
      TrustReasons authorities certificate issuer now [.badSignature]
  | outdated {first : Certificate} : FirstVoucher authorities certificate issuer first →
      first.isValidAt now = false →
      TrustReasons authorities certificate issuer now
        [.authorityCertificateExpired issuer.readable]
  | trusted {first : Certificate} : FirstVoucher authorities certificate issuer first →
      first.isValidAt now = true → TrustReasons authorities certificate issuer now []

private theorem exists_trustReasons :
    ∃ reasons, TrustReasons authorities certificate issuer now reasons := by
  by_cases vouched : ∃ authority ∈ authorities, Vouches certificate issuer authority
  · obtain ⟨authority, known, vouches⟩ := vouched
    obtain ⟨first, isFirst⟩ := exists_firstVoucher known vouches
    cases valid : first.isValidAt now with
    | false => exact ⟨_, .outdated isFirst valid⟩
    | true => exact ⟨_, .trusted isFirst valid⟩
  · by_cases supported : ∃ authority ∈ authorities, Supports certificate issuer authority
    · exact ⟨_, .unverified supported (by simpa using vouched)⟩
    · by_cases named : ∃ authority ∈ authorities, authority.subject.Same issuer
      · exact ⟨_, .unsupported named (by simpa using supported)⟩
      · exact ⟨_, .untrusted (by simpa using named)⟩

theorem supportingAuthorities_eq_nil_iff :
    supportingAuthorities
        (authorities.filter fun authority => decide (authority.subject.Same issuer))
        certificate.algorithm.algorithm.dotted = [] ↔
      ∀ authority ∈ authorities, ¬ Supports certificate issuer authority := by
  simp [supportingAuthorities, Supports, Option.eq_none_iff_forall_ne_some]

private theorem TrustReasons.trustFailures_eq {signed : Octets}
    (encoded : certificate.info.signedOctets? = some signed) {reasons : List ValidationFailure}
    (holds : TrustReasons authorities certificate issuer now reasons) :
    trustFailures authorities certificate issuer now = reasons := by
  cases holds with
  | untrusted unnamed => rw [trustFailures, named_eq_nil_iff.mpr unnamed]
  | unsupported named unsupported =>
      unfold trustFailures
      split
      · next nobody =>
          obtain ⟨authority, known, same⟩ := named
          exact absurd same (named_eq_nil_iff.mp nobody authority known)
      · rw [encoded]
        dsimp only
        rw [supportingAuthorities_eq_nil_iff.mpr unsupported]
  | unverified supported unverified =>
      obtain ⟨authority, known, supports⟩ := supported
      unfold trustFailures
      split
      · next nobody => exact absurd supports.1 (named_eq_nil_iff.mp nobody authority known)
      · rw [encoded]
        dsimp only
        split
        · next nobody =>
            exact absurd supports (supportingAuthorities_eq_nil_iff.mp nobody authority known)
        · rw [(find?_supportingAuthorities_eq_none_iff encoded).mpr unverified]
  | outdated isFirst notValid =>
      rw [trustFailures_of_firstVoucher isFirst, notValid, if_neg Bool.false_ne_true]
  | trusted isFirst valid => rw [trustFailures_of_firstVoucher isFirst, if_pos valid]

theorem trustFailures_eq_iff {signed : Octets}
    (encoded : certificate.info.signedOctets? = some signed) {reasons : List ValidationFailure} :
    trustFailures authorities certificate issuer now = reasons ↔
      TrustReasons authorities certificate issuer now reasons := by
  constructor
  · rintro rfl
    obtain ⟨reasons, holds⟩ : ∃ reasons, TrustReasons authorities certificate issuer now reasons :=
      exists_trustReasons
    rw [holds.trustFailures_eq encoded]
    exact holds
  · intro holds
    exact holds.trustFailures_eq encoded

end Trust

/-! ## The whole result -/

/-- A reason is given if a condition holds and only then. -/
def GivenIf (condition : Prop) (reason : ValidationFailure)
    (reasons : List ValidationFailure) : Prop :=
  condition ∧ reasons = [reason] ∨ ¬ condition ∧ reasons = []

private theorem givenIf_ite {condition : Prop} [Decidable condition] {reason : ValidationFailure} :
    GivenIf condition reason (if condition then [reason] else []) := by
  split
  · next holds => exact .inl ⟨holds, rfl⟩
  · next fails => exact .inr ⟨fails, rfl⟩

/-- A result is valid exactly if it has no reason against it, unless it is called invalid
for no reason. -/
theorem ValidationResult.outcome_eq_valid_iff {result : ValidationResult}
    (hasReason : result.outcome ≠ .invalid []) :
    result.outcome = .valid ↔ result.failures = [] := by
  unfold failures
  split
  · next valid => simp [valid]
  · next reasons invalid =>
      rw [invalid] at hasReason ⊢
      simpa using hasReason

/-- The result for an attribute certificate of a chain is exact. -/
structure Diagnosis (validator : LocalValidator) (chain : List Certificate) (now : Int)
    (certificate : AttributeCertificate) (result : ValidationResult) : Prop where
  unreadable : result.membership = none ↔
    ∃ fault, VoMembership.ofInfo certificate.info = .error fault
  malformed : ∀ fault, VoMembership.ofInfo certificate.info = .error fault →
    result.failures = [.malformed (.noMembership fault)]
  judged : ∀ membership, VoMembership.ofInfo certificate.info = .ok membership →
    result.membership = some membership ∧
      ∃ trust early late holder, result.failures = trust ++ early ++ late ++ holder ∧
        TrustReasons validator.authorities certificate membership.issuer now trust ∧
        GivenIf (now < certificate.info.validity.notBefore.toUnix) .notYetValid early ∧
        GivenIf (certificate.info.validity.notAfter.toUnix < now) .expired late ∧
        GivenIf (¬ ∃ identity,
            Chain.resolveIdentity validator.holderStrategy chain = .ok identity ∧
            VoMembership.GivesHolder certificate.info identity.certificate)
          .holderMismatch holder
  valid_iff : result.outcome = .valid ↔ result.failures = []
  hasReason : result.outcome ≠ .invalid []

namespace LocalValidator

variable {validator : LocalValidator} {chain : List Certificate} {now : Int}
  {certificate : AttributeCertificate} {membership : VoMembership}

theorem outcome_check_ne (holder : Option Certificate) :
    (validator.check holder now certificate).outcome ≠ .invalid [] := by
  unfold check
  split
  · simp [ValidationResult.unreadable]
  · next membership _ =>
      unfold ValidationResult.ofFailures
      dsimp only
      split
      · simp
      · next reasons => simpa using reasons

private theorem exists_periodFailures (shown : VoMembership.ShownBy certificate.info membership) :
    ∃ early late, periodFailures membership now = early ++ late ∧
      GivenIf (now < certificate.info.validity.notBefore.toUnix) .notYetValid early ∧
      GivenIf (certificate.info.validity.notAfter.toUnix < now) .expired late := by
  refine ⟨_, _, ?_, givenIf_ite, givenIf_ite⟩
  rw [← VoMembership.seconds_of_instantOf shown.notBefore,
    ← VoMembership.seconds_of_instantOf shown.notAfter]
  rfl

private theorem givenIf_holderFailures (shown : VoMembership.ShownBy certificate.info membership) :
    GivenIf (¬ ∃ identity,
        Chain.resolveIdentity validator.holderStrategy chain = .ok identity ∧
        VoMembership.GivesHolder certificate.info identity.certificate)
      .holderMismatch (holderFailures membership (validator.holder? chain)) := by
  have bound : (validator.holder? chain).any (isHeldBy membership) = true ↔ ∃ identity,
      Chain.resolveIdentity validator.holderStrategy chain = .ok identity ∧
      VoMembership.GivesHolder certificate.info identity.certificate := by
    simp [Option.any_eq_true, holder?_eq_some_iff, shown.isHeldBy_iff]
  unfold holderFailures
  rw [← bound]
  split
  · next held => exact .inr ⟨not_not_intro held, rfl⟩
  · next notHeld => exact .inl ⟨notHeld, rfl⟩

theorem diagnosis_check {signed : Octets}
    (encoded : certificate.info.signedOctets? = some signed) :
    Diagnosis validator chain now certificate
      (validator.check (validator.holder? chain) now certificate) := by
  have hasReason : (validator.check (validator.holder? chain) now certificate).outcome ≠
      .invalid [] := outcome_check_ne (validator.holder? chain)
  refine {
    unreadable := ?_
    malformed := ?_
    judged := ?_
    valid_iff := ValidationResult.outcome_eq_valid_iff hasReason
    hasReason := hasReason }
  · rw [membership_check]
    cases VoMembership.ofInfo certificate.info <;> simp [Except.toOption]
  · intro fault unreadable
    rw [check, unreadable]
    rfl
  · intro membership decoded
    have shown := VoMembership.ofInfo_eq_ok_iff.mp decoded
    obtain ⟨early, late, period, isEarly, isLate⟩ := exists_periodFailures shown
    refine ⟨?_, _, early, late, _, ?_, (trustFailures_eq_iff encoded).mp rfl, isEarly, isLate,
      givenIf_holderFailures shown⟩
    · rw [membership_check, decoded]
      rfl
    · rw [failures_check_of_ok decoded, period]
      simp

/-- The result for every attribute certificate of a chain tells exactly what is against it.
In particular what was signed can always be encoded, so that nothing that shows a membership
is called malformed. -/
theorem diagnosis_exact (validator : LocalValidator) (now : Int) {chain : List Certificate}
    {index : Nat} {certificate : AttributeCertificate}
    (found : (attributeCertificates chain)[index]? = some (some certificate)) :
    ∃ result, (validator.resultsAt now chain)[index]? = some result ∧
      Diagnosis validator chain now certificate result := by
  obtain ⟨_, _, _, certificates, _, accepted, listed⟩ :=
    mem_attributeCertificates_iff.mp (List.mem_of_getElem? found)
  obtain ⟨signed, encoded, _⟩ :=
    AttributeCertificate.exists_signedOctets? accepted listed
  exact ⟨_, getElem?_resultsAt found, diagnosis_check encoded⟩

/-- Long after everything is over, and without the user that it was made for, an attribute
certificate has three reasons against it at once. -/
theorem diagnosis_exact_of_outdated :
    ∃ authority carrier certificate result,
      Certificate.parse Sample.renewed = .ok authority ∧
      Certificate.parse Sample.carryingProxy = .ok carrier ∧
      (attributeCertificates [carrier])[0]? = some (some certificate) ∧
      ((⟨[authority], .proxyAware⟩ : LocalValidator).resultsAt 2524608000 [carrier])[0]? =
        some result ∧
      Diagnosis ⟨[authority], .proxyAware⟩ [carrier] 2524608000 certificate result ∧
      result.failures =
        [.authorityCertificateExpired "CN=V", .expired, .holderMismatch] := by
  have computed : (Sample.reading Sample.renewed fun authority =>
      Sample.reading Sample.carryingProxy fun carrier =>
      (attributeCertificates [carrier])[0]?.join.map fun _ =>
        ((⟨[authority], .proxyAware⟩ : LocalValidator).resultsAt 2524608000 [carrier])[0]?.map
          (·.failures)) =
      some (some [.authorityCertificateExpired "CN=V", .expired, .holderMismatch]) := by
    decide +kernel
  obtain ⟨authority, authorityParsed, rest⟩ := Sample.exists_of_reading computed
  obtain ⟨carrier, carrierParsed, rest⟩ := Sample.exists_of_reading rest
  obtain ⟨certificate, carried, rest⟩ := Option.map_eq_some_iff.mp rest
  have found := Option.join_eq_some_iff.mp carried
  obtain ⟨result, reported, diagnosis⟩ :=
    diagnosis_exact ⟨[authority], .proxyAware⟩ 2524608000 found
  rw [reported] at rest
  exact ⟨authority, carrier, certificate, result, authorityParsed, carrierParsed, found,
    reported, diagnosis, Option.some.inj rest⟩

end LocalValidator

end GridSecurity
