import GridSecurity.Certificate

/-!
# Delegation

The certificates in front of an ordered chain may be proxies that act for the
first certificate behind them.
-/

namespace GridSecurity.Chain

def isDelegated : List Certificate → Bool
  | [] => false
  | leaf :: _ => leaf.isProxy

/-- The certificate that the proxies in front of a chain act for. -/
def endUser? (chain : List Certificate) : Option Certificate :=
  chain.find? fun certificate => !certificate.isProxy

/-- The number of proxies in front of a chain. -/
def delegationDepth (chain : List Certificate) : Nat :=
  (chain.takeWhile (·.isProxy)).length

end GridSecurity.Chain
