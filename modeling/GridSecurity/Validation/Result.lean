import GridSecurity.VoMembership

/-!
# Results of validation

Every attribute certificate of a chain has one result: the membership it shows,
if it can be read, and either the mark of validity or the reasons against it.
-/

namespace GridSecurity

/-- Reasons why an attribute certificate cannot be judged at all. -/
inductive MalformedReason
  | undecodableExtension
  | noMembership (fault : MembershipFault)
  | overlongInfo
  | reported (text : String)
  deriving DecidableEq, Repr

def MalformedReason.message : MalformedReason → String
  | .undecodableExtension => "the extension does not encode attribute certificates"
  | .noMembership fault => fault.message
  | .overlongInfo => "the signed information is too long to be encoded"
  | .reported text => text

/-- Reasons against an attribute certificate. -/
inductive ValidationFailure
  | malformed (reason : MalformedReason)
  | untrustedIssuer (issuer : String)
  | unsupportedAlgorithm (identifier : String)
  | badSignature
  | notYetValid
  | expired
  | authorityCertificateExpired (issuer : String)
  | holderMismatch
  deriving DecidableEq, Repr

def ValidationFailure.message : ValidationFailure → String
  | .malformed reason => "malformed attribute certificate: " ++ reason.message
  | .untrustedIssuer issuer =>
      "attribute authority '" ++ issuer ++ "' is not trusted"
  | .unsupportedAlgorithm identifier =>
      "unsupported signature algorithm " ++ identifier
  | .badSignature => "attribute certificate signature does not verify"
  | .notYetValid => "attribute certificate is not yet valid"
  | .expired => "attribute certificate has expired"
  | .authorityCertificateExpired issuer =>
      "attribute authority certificate '" ++ issuer
        ++ "' is outside its validity period"
  | .holderMismatch =>
      "attribute certificate holder does not match the end-user certificate"

inductive ValidationOutcome
  | valid
  | invalid (failures : List ValidationFailure)
  deriving DecidableEq, Repr

/-- The membership of an attribute certificate and the verdict on it. -/
structure ValidationResult where
  membership : Option VoMembership
  outcome : ValidationOutcome
  deriving DecidableEq, Repr

namespace ValidationResult

def isValid (result : ValidationResult) : Bool :=
  match result.outcome with
  | .valid => true
  | .invalid _ => false

def failures (result : ValidationResult) : List ValidationFailure :=
  match result.outcome with
  | .valid => []
  | .invalid failures => failures

/-- The result for a membership and the reasons found against it. -/
def ofFailures (membership : VoMembership) (failures : List ValidationFailure) :
    ValidationResult :=
  ⟨some membership, if failures.isEmpty then .valid else .invalid failures⟩

/-- The result for a certificate that cannot be judged. -/
def unreadable (reason : MalformedReason) : ValidationResult :=
  ⟨none, .invalid [.malformed reason]⟩

end ValidationResult

/-- The memberships of the valid results in order. -/
def validMemberships (results : List ValidationResult) : List VoMembership :=
  (results.filter (·.isValid)).filterMap (·.membership)

def rejectedCount (results : List ValidationResult) : Nat :=
  (results.filter (!·.isValid)).length

end GridSecurity
