import GridSecurity.Proofs.Validation.Delegation
import GridSecurity.Proofs.Validation.Diagnostics

/-!
# Verdicts over time

As time goes by, an attribute certificate is valid in one stretch.  The moment is compared
with the limits of its own period and with those of one authority's certificate, and which
authority that is does not depend on the moment.  Everything else that is found against an
attribute certificate is found at all times.
-/

namespace GridSecurity

/-- A reason that may be given at one moment and not at another. -/
def ValidationFailure.isTimely : ValidationFailure → Bool
  | notYetValid | expired | authorityCertificateExpired _ => true
  | malformed _ | untrustedIssuer _ | unsupportedAlgorithm _ | badSignature
  | holderMismatch => false

/-- What holds at two moments holds at all moments between them. -/
def HoldsBetween (holds : Int → Prop) : Prop :=
  ∀ early now late, early ≤ now → now ≤ late → holds early → holds late → holds now

theorem HoldsBetween.of_iff {holds : Int → Prop} {first last : Int}
    (stretch : ∀ now, holds now ↔ first ≤ now ∧ now ≤ last) : HoldsBetween holds := by
  intro early now late notBefore notAfter holdsEarly holdsLate
  have begun := ((stretch early).mp holdsEarly).1
  have notEnded := ((stretch late).mp holdsLate).2
  exact (stretch now).mpr ⟨by omega, by omega⟩

/-- How the result for one attribute certificate changes in time: it is valid from a first to
a last moment, expires for good, is not yet valid until it is, and has all other reasons
against it always or never. -/
structure Course (result : Int → ValidationResult) : Prop where
  membership : ∀ now later, (result now).membership = (result later).membership
  valid : ∃ first last, ∀ now, (result now).outcome = .valid ↔ first ≤ now ∧ now ≤ last
  valid_between : HoldsBetween fun now => (result now).outcome = .valid
  expired : ∀ now later, now ≤ later →
    .expired ∈ (result now).failures → .expired ∈ (result later).failures
  notYetValid : ∀ earlier now, earlier ≤ now →
    .notYetValid ∈ (result now).failures → .notYetValid ∈ (result earlier).failures
  authority : ∀ issuer,
    HoldsBetween fun now => .authorityCertificateExpired issuer ∉ (result now).failures
  timeless : ∀ reason, reason.isTimely = false → ∀ now later,
    reason ∈ (result now).failures ↔ reason ∈ (result later).failures

/-- A result that never is valid and never changes. -/
theorem Course.of_fixed {result : ValidationResult} (invalid : result.outcome ≠ .valid) :
    Course fun _ => result where
  membership _ _ := rfl
  valid := ⟨1, 0, fun now => iff_of_false invalid (by omega)⟩
  valid_between _ _ _ _ _ early _ := early
  expired _ _ _ found := found
  notYetValid _ _ _ found := found
  authority _ _ _ _ _ _ early _ := early
  timeless _ _ _ _ := Iff.rfl

/-! ## The checks at all moments -/

section Trust

variable (authorities : List Certificate) (certificate : AttributeCertificate)
  (issuer : DistinguishedName)

/-- The authorities give one reason at all moments, or leave it to the certificate of one of
them. -/
theorem trustFailures_over_time :
    (∃ reason : ValidationFailure, reason.isTimely = false ∧
      ∀ now, trustFailures authorities certificate issuer now = [reason]) ∨
    ∃ first : Certificate, ∀ now, trustFailures authorities certificate issuer now =
      if first.isValidAt now then [] else [.authorityCertificateExpired issuer.readable] := by
  unfold trustFailures
  -- The moment is looked at only when an authority has been found.
  split
  · exact .inl ⟨_, rfl, fun _ => rfl⟩
  · split
    · exact .inl ⟨_, rfl, fun _ => rfl⟩
    · dsimp only
      split
      · exact .inl ⟨_, rfl, fun _ => rfl⟩
      · split
        · exact .inl ⟨_, rfl, fun _ => rfl⟩
        · next first _ _ => exact .inr ⟨first, fun _ => rfl⟩

private theorem trustFailures_timeless {reason : ValidationFailure}
    (timeless : reason.isTimely = false) (now later : Int) :
    reason ∈ trustFailures authorities certificate issuer now ↔
      reason ∈ trustFailures authorities certificate issuer later := by
  rcases trustFailures_over_time authorities certificate issuer with
    ⟨fixed, _, always⟩ | ⟨first, always⟩
  · rw [always, always]
  · have notOutdated (moment : Int) : reason ∉ if first.isValidAt moment then []
        else [.authorityCertificateExpired issuer.readable] := by
      intro found
      obtain rfl := List.mem_singleton.mp (List.mem_ite_nil_left.mp found).2
      cases timeless
    rw [always, always]
    exact iff_of_false (notOutdated now) (notOutdated later)

private theorem trustFailures_eq_nil_iff_between :
    ∃ first last, ∀ now,
      trustFailures authorities certificate issuer now = [] ↔ first ≤ now ∧ now ≤ last := by
  rcases trustFailures_over_time authorities certificate issuer with
    ⟨fixed, _, always⟩ | ⟨first, always⟩
  · refine ⟨1, 0, fun now => iff_of_false ?_ (by omega)⟩
    rw [always]
    exact List.cons_ne_nil _ _
  · refine ⟨first.notBefore, first.notAfter, fun now => ?_⟩
    rw [always]
    simp [Certificate.isValidAt]

/-- The certificate of an authority is called outdated at all moments outside of one stretch,
or never. -/
theorem outdated_trustFailures_between (text : String) :
    HoldsBetween fun now => .authorityCertificateExpired text ∉
      trustFailures authorities certificate issuer now := by
  rcases trustFailures_over_time authorities certificate issuer with
    ⟨fixed, _, always⟩ | ⟨first, always⟩
  · intro early now late _ _ holdsEarly _
    rw [always] at holdsEarly ⊢
    exact holdsEarly
  · by_cases named : text = issuer.readable
    · have stretch (now : Int) : .authorityCertificateExpired text ∉
          trustFailures authorities certificate issuer now ↔
            first.notBefore ≤ now ∧ now ≤ first.notAfter := by
        simp [always, named, Certificate.isValidAt]
      exact .of_iff stretch
    · intro _ now _ _ _ _ _
      simp [always, named]

end Trust

namespace LocalValidator

variable {validator : LocalValidator} {certificate : AttributeCertificate}
  {membership : VoMembership} {now : Int}

theorem expired_mem_check_iff (shown : VoMembership.ofInfo certificate.info = .ok membership)
    (holder : Option Certificate) :
    .expired ∈ (validator.check holder now certificate).failures ↔
      membership.notAfter.seconds < now := by
  have trust : .expired ∉ trustFailures validator.authorities certificate membership.issuer
      now := notMem_trustFailures (.inl rfl)
  simp [failures_check_of_ok shown, trust, periodFailures, mem_holderFailures_iff]

theorem notYetValid_mem_check_iff
    (shown : VoMembership.ofInfo certificate.info = .ok membership) (holder : Option Certificate) :
    .notYetValid ∈ (validator.check holder now certificate).failures ↔
      now < membership.notBefore.seconds := by
  have trust : .notYetValid ∉ trustFailures validator.authorities certificate membership.issuer
      now := notMem_trustFailures (.inl rfl)
  simp [failures_check_of_ok shown, trust, periodFailures, mem_holderFailures_iff]

theorem authority_mem_check_iff (shown : VoMembership.ofInfo certificate.info = .ok membership)
    (holder : Option Certificate) (text : String) :
    .authorityCertificateExpired text ∈ (validator.check holder now certificate).failures ↔
      .authorityCertificateExpired text ∈
        trustFailures validator.authorities certificate membership.issuer now := by
  simp [failures_check_of_ok shown, periodFailures, mem_holderFailures_iff]

theorem timeless_mem_check_iff (shown : VoMembership.ofInfo certificate.info = .ok membership)
    (holder : Option Certificate) {reason : ValidationFailure}
    (timeless : reason.isTimely = false) :
    reason ∈ (validator.check holder now certificate).failures ↔
      reason ∈ trustFailures validator.authorities certificate membership.issuer now ∨
        reason ∈ holderFailures membership holder := by
  have period : reason ∉ periodFailures membership now := by
    intro found
    have timely := concern_of_mem_periodFailures found
    cases reason <;> cases timeless <;> cases timely
  simp [failures_check_of_ok shown, period]

theorem valid_check_iff (shown : VoMembership.ofInfo certificate.info = .ok membership)
    (holder : Option Certificate) :
    (validator.check holder now certificate).outcome = .valid ↔
      trustFailures validator.authorities certificate membership.issuer now = [] ∧
        (membership.notBefore.seconds ≤ now ∧ now ≤ membership.notAfter.seconds) ∧
        holderFailures membership holder = [] := by
  rw [ValidationResult.outcome_eq_valid_iff (outcome_check_ne holder), failures_check_of_ok shown,
    List.append_eq_nil_iff, List.append_eq_nil_iff, periodFailures_eq_nil_iff, and_assoc]

/-- The stretches in which the issuer is trusted and in which the attribute certificate itself
is in force overlap in one stretch. -/
theorem valid_check_iff_between
    (shown : VoMembership.ofInfo certificate.info = .ok membership) (holder : Option Certificate) :
    ∃ first last, ∀ now, (validator.check holder now certificate).outcome = .valid ↔
      first ≤ now ∧ now ≤ last := by
  obtain ⟨first, last, trusted⟩ :=
    trustFailures_eq_nil_iff_between validator.authorities certificate membership.issuer
  by_cases held : holderFailures membership holder = []
  · refine ⟨max first membership.notBefore.seconds, min last membership.notAfter.seconds, ?_⟩
    intro now
    rw [valid_check_iff shown, trusted]
    simp only [held, and_true]
    omega
  · refine ⟨1, 0, fun now => iff_of_false ?_ (by omega)⟩
    intro valid
    exact held ((valid_check_iff shown holder).mp valid).2.2

/-- The check of an attribute certificate, at all moments. -/
theorem course_check (holder : Option Certificate) (certificate : AttributeCertificate) :
    Course fun now => validator.check holder now certificate := by
  cases shown : VoMembership.ofInfo certificate.info with
  | error fault =>
      have always (now : Int) : validator.check holder now certificate =
          .unreadable (.noMembership fault) := by
        rw [check, shown]
      simp only [always]
      apply Course.of_fixed
      intro valid
      cases valid
  | ok membership =>
      obtain ⟨first, last, between⟩ : ∃ first last, ∀ now,
          (validator.check holder now certificate).outcome = .valid ↔
            first ≤ now ∧ now ≤ last := valid_check_iff_between shown holder
      exact {
        membership := by
          intro now later
          rw [membership_check, membership_check]
        valid := ⟨first, last, between⟩
        valid_between := .of_iff between
        expired := by
          intro now later notEarlier found
          have passed := (expired_mem_check_iff shown holder).mp found
          exact (expired_mem_check_iff shown holder).mpr (by omega)
        notYetValid := by
          intro earlier now notLater found
          have early := (notYetValid_mem_check_iff shown holder).mp found
          exact (notYetValid_mem_check_iff shown holder).mpr (by omega)
        authority := by
          intro text
          simp only [authority_mem_check_iff shown]
          exact outdated_trustFailures_between _ _ _ text
        timeless := by
          intro reason timeless now later
          rw [timeless_mem_check_iff shown holder timeless,
            timeless_mem_check_iff shown holder timeless,
            trustFailures_timeless _ _ _ timeless now later] }

/-- With the same authorities and the same chain, the result for every attribute certificate
takes its course: it is valid in one stretch of time, once expired it stays so, before it is
valid it has not been so, and whatever else is against it is against it at all times.  The
same holds for an extension that does not decode. -/
theorem verdict_takes_course (validator : LocalValidator) {chain : List Certificate}
    {index : Nat} {entry : Option AttributeCertificate}
    (found : (attributeCertificates chain)[index]? = some entry) :
    ∃ result : Int → ValidationResult,
      (∀ now, (validator.resultsAt now chain)[index]? = some (result now)) ∧ Course result := by
  refine ⟨fun now => entry.elim (.unreadable .undecodableExtension)
    (validator.check (validator.holder? chain) now), ?_, ?_⟩
  · intro now
    rw [resultsAt_eq_resultsAgainst, resultsAgainst, List.getElem?_map, found, Option.map_some]
  · cases entry with
    | none =>
        apply Course.of_fixed
        intro valid
        cases valid
    | some certificate => exact course_check (validator.holder? chain) certificate

/-- Found valid at two moments, the client's attribute certificate is valid at all moments
between them. -/
theorem verdict_takes_course_of_two_moments :
    ∃ authority user entry,
      Certificate.parse Sample.renewed = .ok authority ∧
      Certificate.parse Sample.client = .ok user ∧
      (attributeCertificates [user])[0]? = some entry ∧
      ∀ now, 1710000000 ≤ now → now ≤ 2010000000 →
        ((⟨[authority], .proxyAware⟩ : LocalValidator).resultsAt now [user])[0]?.map
          (·.outcome) = some .valid := by
  have computed : (Sample.reading Sample.renewed fun authority =>
      Sample.reading Sample.client fun user => (attributeCertificates [user])[0]?.map fun _ =>
        ([1710000000, 2010000000] : List Int).map fun now =>
          ((⟨[authority], .proxyAware⟩ : LocalValidator).resultsAt now [user])[0]?.map
            (·.outcome)) =
      some [some .valid, some .valid] := by
    decide +kernel
  obtain ⟨authority, authorityParsed, rest⟩ := Sample.exists_of_reading computed
  obtain ⟨user, userParsed, rest⟩ := Sample.exists_of_reading rest
  obtain ⟨entry, found, outcomes⟩ := Option.map_eq_some_iff.mp rest
  obtain ⟨result, reported, course⟩ := verdict_takes_course ⟨[authority], .proxyAware⟩ found
  simp only [List.map_cons, List.map_nil, reported, Option.map_some, List.cons.injEq,
    Option.some.injEq, and_true] at outcomes
  refine ⟨authority, user, entry, authorityParsed, userParsed, found, ?_⟩
  intro now begun notOver
  rw [reported, Option.map_some]
  exact congrArg some (course.valid_between _ now _ begun notOver outcomes.1 outcomes.2)

end LocalValidator

end GridSecurity
