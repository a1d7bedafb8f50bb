import GridSecurity.Identity
import GridSecurity.Signature.Scheme
import GridSecurity.Validation.Result

/-!
# Validators

A validator answers for an ordered chain with one result for every attribute
certificate in it, and with the memberships that can be read without any check.
The local validator checks signature, trust, time and holder against the
authorities in force at the moment.
-/

namespace GridSecurity

/-- What a validator answers at one moment. -/
structure Validator where
  results : List Certificate → List ValidationResult
  parse : List Certificate → List VoMembership

namespace Validator

/-- The validator that knows of no attributes. -/
def absent : Validator := ⟨fun _ => [], fun _ => []⟩

/-- The memberships that passed every check. -/
def accepted (validator : Validator) (chain : List Certificate) :
    List VoMembership :=
  validMemberships (validator.results chain)

end Validator

/-- The attribute certificates of a chain in order, with nothing in the place
of an extension that does not decode. -/
def attributeCertificates (chain : List Certificate) :
    List (Option AttributeCertificate) :=
  chain.flatMap fun certificate =>
    match certificate.vomsExtension with
    | none => []
    | some value =>
        match AttributeCertificate.ofExtension? value with
        | none => [none]
        | some certificates => certificates.map some

/-- A membership is bound to a certificate when both its serial number and its
issuer are given and are those of the certificate. -/
def isHeldBy (membership : VoMembership) (holder : Certificate) : Bool :=
  decide (membership.holderSerial = some holder.trimmedSerial)
    && membership.holderIssuer.any fun issuer => decide (issuer.Same holder.issuer)

/-- The authorities whose key can verify an algorithm, with the scheme to do
it. -/
def supportingAuthorities (authorities : List Certificate) (algorithm : String) :
    List (Certificate × SignatureScheme) :=
  authorities.filterMap fun authority =>
    (SignatureScheme.select? algorithm authority.keyParameter).map (authority, ·)

def isSignedBy (signed signature : Octets)
    (candidate : Certificate × SignatureScheme) : Bool :=
  candidate.2.verifies candidate.1.publicKey signed signature

/-- The reasons not to trust an attribute certificate's issuer: no authority
has its name, what was signed cannot be encoded, no authority can verify its
algorithm, none verifies its signature, or the first that does is not valid. -/
def trustFailures (authorities : List Certificate)
    (certificate : AttributeCertificate) (issuer : DistinguishedName) (now : Int) :
    List ValidationFailure :=
  match authorities.filter fun authority => decide (authority.subject.Same issuer) with
  | [] => [.untrustedIssuer issuer.readable]
  | named =>
      match certificate.info.signedOctets? with
      | none => [.malformed .overlongInfo]
      | some signed =>
          let algorithm := certificate.algorithm.algorithm.dotted
          match supportingAuthorities named algorithm with
          | [] => [.unsupportedAlgorithm algorithm]
          | candidates =>
              match candidates.find? (isSignedBy signed certificate.signature.octets) with
              | none => [.badSignature]
              | some (authority, _) =>
                  if authority.isValidAt now then []
                  else [.authorityCertificateExpired issuer.readable]

def periodFailures (membership : VoMembership) (now : Int) :
    List ValidationFailure :=
  (if now < membership.notBefore.seconds then [.notYetValid] else [])
    ++ (if membership.notAfter.seconds < now then [.expired] else [])

def holderFailures (membership : VoMembership) (holder : Option Certificate) :
    List ValidationFailure :=
  if holder.any (isHeldBy membership) then [] else [.holderMismatch]

structure LocalValidator where
  authorities : List Certificate
  holderStrategy : ResolutionStrategy := .proxyAware

namespace LocalValidator

/-- The result for one attribute certificate. -/
def check (validator : LocalValidator) (holder : Option Certificate) (now : Int)
    (certificate : AttributeCertificate) : ValidationResult :=
  match VoMembership.ofInfo certificate.info with
  | .error fault => .unreadable (.noMembership fault)
  | .ok membership =>
      .ofFailures membership
        (trustFailures validator.authorities certificate membership.issuer now
          ++ periodFailures membership now ++ holderFailures membership holder)

/-- The certificate that attributes have to be bound to. -/
def holder? (validator : LocalValidator) (chain : List Certificate) :
    Option Certificate :=
  match Chain.resolveIdentity validator.holderStrategy chain with
  | .ok identity => some identity.certificate
  | .error _ => none

def resultsAt (validator : LocalValidator) (now : Int) (chain : List Certificate) :
    List ValidationResult :=
  (attributeCertificates chain).map fun certificate? =>
    match certificate? with
    | none => .unreadable .undecodableExtension
    | some certificate =>
        validator.check (validator.holder? chain) now certificate

/-- The memberships that can be read from a chain. -/
def parse (chain : List Certificate) : List VoMembership :=
  (attributeCertificates chain).filterMap fun certificate? =>
    certificate?.bind fun certificate =>
      (VoMembership.ofInfo certificate.info).toOption

def validatorAt (validator : LocalValidator) (now : Int) : Validator where
  results := validator.resultsAt now
  parse := parse

end LocalValidator

end GridSecurity
