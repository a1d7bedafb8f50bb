import GridSecurity.Validation.Validator

/-!
# Modes of validation

In the strict mode attributes come from valid results only.  In the lenient
mode they are the ones that can be read, verified or not; the results are
reported in both.
-/

namespace GridSecurity

/-- Which attributes are handed out. -/
inductive ValidationMode
  | strict
  | lenient
  deriving DecidableEq, Repr

/-- The attributes handed out for a chain and the results for all of its
attribute certificates. -/
structure AttributeResolution where
  memberships : List VoMembership := []
  results : List ValidationResult := []
  deriving DecidableEq, Repr

/-- The number of attribute certificates that are not valid. -/
def AttributeResolution.rejected (resolution : AttributeResolution) : Nat :=
  rejectedCount resolution.results

structure Adapter where
  validator : Validator
  mode : ValidationMode

namespace Adapter

/-- No attribute is handed out that was not verified. -/
def isSecure (adapter : Adapter) : Bool :=
  adapter.mode == .strict

/-- The attributes of a chain in the adapter's mode, with the results. -/
def resolve (adapter : Adapter) (chain : List Certificate) : AttributeResolution :=
  let results := adapter.validator.results chain
  match adapter.mode with
  | .strict => ⟨validMemberships results, results⟩
  | .lenient => ⟨adapter.validator.parse chain, results⟩

end Adapter

end GridSecurity
