import GridSecurity.Certificate.Reader
import GridSecurity.Fault

/-!
# Linked chains

A chain that is presented in order has to be linked: every certificate but the
last is issued by the next one.
-/

namespace GridSecurity.Chain

/-- Every certificate but the last is issued by the next one. -/
def Linked : List Certificate → Prop
  | [] | [_] => True
  | certificate :: authority :: rest =>
      certificate.IssuedBy authority ∧ Linked (authority :: rest)

/-- The first place, counted from the given position, where a chain is not
linked. -/
def firstBreak? (position : Nat) : List Certificate → Option ChainFault
  | [] | [_] => none
  | certificate :: authority :: rest =>
      if certificate.IssuedBy authority then
        firstBreak? (position + 1) (authority :: rest)
      else some (.unlinked position certificate.issuer.readable
        authority.subject.readable)

/-- Accepts a linked chain of at least one certificate. -/
def checkLinkage (chain : List Certificate) : Except ChainFault Unit :=
  if chain.isEmpty then .error .emptyChain
  else
    match firstBreak? 0 chain with
    | some fault => .error fault
    | none => .ok ()

/-- Reads every certificate of a chain and stops at the first that is not
readable. -/
def parse (encodings : List Octets) : Except SecurityError (List Certificate) :=
  if encodings.isEmpty then .error (.malformedChain .emptyChain)
  else (encodings.mapM Certificate.parse).mapError .invalidCertificate

end GridSecurity.Chain
