import GridSecurity.Validation.Validator

/-!
# Reasons against an attribute certificate

Which of the checks give which reason: an issuer is called untrusted exactly if no authority
has its name, and a holder does not match exactly if the attribute certificate is not bound
to it.
-/

namespace GridSecurity

@[simp] theorem failures_ofFailures (membership : VoMembership)
    (failures : List ValidationFailure) :
    (ValidationResult.ofFailures membership failures).failures = failures := by
  cases failures <;> rfl

/-! ## What a reason is about -/

/-- What a reason against an attribute certificate is about. -/
inductive ValidationFailure.Concern
  | encoding
  | trust
  | period
  | holder

def ValidationFailure.concern : ValidationFailure → Concern
  | malformed _ => .encoding
  | untrustedIssuer _ | unsupportedAlgorithm _ | badSignature
  | authorityCertificateExpired _ => .trust
  | notYetValid | expired => .period
  | holderMismatch => .holder

section

variable {authorities : List Certificate} {certificate : AttributeCertificate}
  {issuer : DistinguishedName} {membership : VoMembership} {holder : Option Certificate}
  {now : Int} {failure : ValidationFailure}

private theorem concern_of_mem_trustFailures
    (found : failure ∈ trustFailures authorities certificate issuer now) :
    failure.concern = .encoding ∨ failure.concern = .trust := by
  unfold trustFailures at found
  dsimp only at found
  repeat' split at found
  all_goals first
    | obtain rfl := List.mem_singleton.mp found
      simp [ValidationFailure.concern]
    | cases found

/-- Nothing about the period or the holder is found against an issuer. -/
theorem notMem_trustFailures
    (elsewhere : failure.concern = .period ∨ failure.concern = .holder) :
    failure ∉ trustFailures authorities certificate issuer now := by
  intro found
  rcases concern_of_mem_trustFailures found with concern | concern
  · simp [concern] at elsewhere
  · simp [concern] at elsewhere

theorem concern_of_mem_periodFailures (found : failure ∈ periodFailures membership now) :
    failure.concern = .period := by
  rcases List.mem_append.mp found with early | late
  · obtain rfl := List.mem_singleton.mp (List.mem_ite_nil_right.mp early).2
    rfl
  · obtain rfl := List.mem_singleton.mp (List.mem_ite_nil_right.mp late).2
    rfl

/-- A holder does not match exactly if the membership is not bound to it. -/
theorem mem_holderFailures_iff :
    failure ∈ holderFailures membership holder ↔ failure = .holderMismatch ∧
      ∀ certificate, holder = some certificate → isHeldBy membership certificate = false := by
  unfold holderFailures
  cases holder with
  | none => simp
  | some certificate => cases held : isHeldBy membership certificate <;> simp [held]

theorem named_eq_nil_iff :
    (authorities.filter fun authority => decide (authority.subject.Same issuer)) = [] ↔
      ∀ authority ∈ authorities, ¬ authority.subject.Same issuer := by
  simp

/-- An issuer is called untrusted exactly if no authority has its name. -/
theorem untrustedIssuer_mem_trustFailures_iff {text : String} :
    .untrustedIssuer text ∈ trustFailures authorities certificate issuer now ↔
      text = issuer.readable ∧ ∀ authority ∈ authorities, ¬ authority.subject.Same issuer := by
  unfold trustFailures
  split
  · next nobody =>
      simpa using fun _ => named_eq_nil_iff.mp nobody
  · next somebody =>
      obtain ⟨authority, member⟩ := List.exists_mem_of_ne_nil _ somebody
      obtain ⟨known, same⟩ := List.mem_filter.mp member
      refine iff_of_false ?_ fun unnamed => unnamed.2 authority known (of_decide_eq_true same)
      -- The other reasons are about the encoding, algorithms, signatures and times.
      dsimp only
      repeat' split
      all_goals simp

end

/-! ## The reasons that are found by all checks -/

namespace LocalValidator

variable {validator : LocalValidator} {holder : Option Certificate} {now : Int}
  {certificate : AttributeCertificate}

theorem failures_check_of_ok {membership : VoMembership}
    (shown : VoMembership.ofInfo certificate.info = .ok membership) :
    (validator.check holder now certificate).failures =
      trustFailures validator.authorities certificate membership.issuer now ++
        periodFailures membership now ++ holderFailures membership holder := by
  rw [check, shown]
  exact failures_ofFailures membership _

/-- The reasons against an attribute certificate are that it shows no membership, or those
that are found against the membership. -/
theorem mem_failures_check_iff {failure : ValidationFailure} :
    failure ∈ (validator.check holder now certificate).failures ↔
      (∃ fault, VoMembership.ofInfo certificate.info = .error fault ∧
        failure = .malformed (.noMembership fault)) ∨
      ∃ membership, VoMembership.ofInfo certificate.info = .ok membership ∧
        (failure ∈ trustFailures validator.authorities certificate membership.issuer now ∨
          failure ∈ periodFailures membership now ∨
          failure ∈ holderFailures membership holder) := by
  cases shown : VoMembership.ofInfo certificate.info with
  | error fault => simp [check, shown, ValidationResult.unreadable, ValidationResult.failures]
  | ok membership => simp [failures_check_of_ok shown]

theorem untrustedIssuer_mem_check_iff {text : String} :
    .untrustedIssuer text ∈ (validator.check holder now certificate).failures ↔
      ∃ membership, VoMembership.ofInfo certificate.info = .ok membership ∧
        text = membership.issuer.readable ∧
        ∀ authority ∈ validator.authorities, ¬ authority.subject.Same membership.issuer := by
  have period (membership : VoMembership) :
      .untrustedIssuer text ∉ periodFailures membership now := by
    intro found
    cases concern_of_mem_periodFailures found
  simp [mem_failures_check_iff, untrustedIssuer_mem_trustFailures_iff, period,
    mem_holderFailures_iff]

theorem holderMismatch_mem_check_iff :
    .holderMismatch ∈ (validator.check holder now certificate).failures ↔
      ∃ membership, VoMembership.ofInfo certificate.info = .ok membership ∧
        ∀ certificate, holder = some certificate → isHeldBy membership certificate = false := by
  have trust (membership : VoMembership) : .holderMismatch ∉
      trustFailures validator.authorities certificate membership.issuer now :=
    notMem_trustFailures (.inr rfl)
  have period (membership : VoMembership) :
      .holderMismatch ∉ periodFailures membership now := by
    intro found
    cases concern_of_mem_periodFailures found
  simp [mem_failures_check_iff, trust, period, mem_holderFailures_iff]

end LocalValidator

end GridSecurity
