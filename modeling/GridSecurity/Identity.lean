import GridSecurity.Chain.Delegation
import GridSecurity.Chain.Linkage
import GridSecurity.Chain.Order
import GridSecurity.Certificate.Reader

/-!
# Identities

The identity of a client is one certificate of its ordered chain.  A strategy
says which; the identity remembers how many certificates stand in front of it.
-/

namespace GridSecurity

/-- How the end-user certificate of an ordered chain is found. -/
inductive ResolutionStrategy
  /-- The first certificate from the leaf that is not a proxy. -/
  | proxyAware
  /-- The last certificate that is neither an authority's nor self-issued. -/
  | basicConstraintsScan
  deriving DecidableEq, Repr

/-- The certificate of an end user and the number of those in front of it. -/
structure Identity where
  certificate : Certificate
  depth : Nat
  deriving DecidableEq, Repr

namespace Identity

def subject (identity : Identity) : DistinguishedName :=
  identity.certificate.subject

def issuer (identity : Identity) : DistinguishedName :=
  identity.certificate.issuer

def serial (identity : Identity) : SerialNumber :=
  identity.certificate.serial

/-- Other certificates act for the end user. -/
def isDelegated (identity : Identity) : Bool :=
  decide (0 < identity.depth)

end Identity

namespace Chain

/-- A certificate that belongs neither to an authority nor to a trust
anchor. -/
def isEndEntity (certificate : Certificate) : Bool :=
  !certificate.isAuthority && !certificate.isSelfIssued

/-- The last certificate of an ordered chain that belongs to an end entity,
and its position. -/
def lastEndEntity? (chain : List Certificate) : Option (Certificate × Nat) :=
  chain.zipIdx.reverse.find? fun (certificate, _) => isEndEntity certificate

def resolveIdentity (strategy : ResolutionStrategy) (chain : List Certificate) :
    Except ChainFault Identity :=
  match chain with
  | [] => .error .emptyChain
  | leaf :: _ =>
      match strategy with
      | .proxyAware =>
          if isDelegated chain then
            match endUser? chain with
            | some certificate => .ok ⟨certificate, delegationDepth chain⟩
            | none => .error .onlyProxies
          else .ok ⟨leaf, 0⟩
      | .basicConstraintsScan =>
          match lastEndEntity? chain with
          | some (certificate, position) => .ok ⟨certificate, position⟩
          | none => .error .onlyAuthorities

end Chain

structure ResolvedChain where
  identity : Identity
  chain : List Certificate
  deriving DecidableEq, Repr

/-- How presented certificates become an identity. -/
structure IdentityResolver where
  strategy : ResolutionStrategy := .proxyAware
  sortsChain : Bool := true
  deriving DecidableEq, Repr

namespace IdentityResolver

/-- The chain in order: sorted, or as it is if it is linked. -/
def order (resolver : IdentityResolver) (chain : List Certificate) :
    Except ChainFault (List Certificate) :=
  if resolver.sortsChain then Chain.sort chain
  else (Chain.checkLinkage chain).map fun _ => chain

/-- The identity of certificates that have been read. -/
def resolveParsed (resolver : IdentityResolver) (presented : List Certificate) :
    Except ChainFault ResolvedChain := do
  let chain ← resolver.order presented
  let identity ← Chain.resolveIdentity resolver.strategy chain
  return ⟨identity, chain⟩

/-- The identity of certificates as they were presented. -/
def resolve (resolver : IdentityResolver) (encodings : List Octets) :
    Except SecurityError ResolvedChain := do
  let presented ← Chain.parse encodings
  (resolver.resolveParsed presented).mapError .malformedChain

end IdentityResolver

end GridSecurity
