import GridSecurity.Identity
import GridSecurity.Validation.Adapter

/-!
# Configuration

A configuration tells how identities are resolved and whether attributes are
taken, in which mode, and where the trusted authorities are found.
-/

namespace GridSecurity

structure AttributeConfig where
  enabled : Bool := true
  mode : ValidationMode := .strict
  allowsUnverified : Bool := false
  directory : String := "/etc/grid-security/vomsdir"
  refreshSeconds : Nat := 600
  deriving DecidableEq, Repr

namespace AttributeConfig

/-- Refuses values that make no sense together, unless attributes are off. -/
def validate (config : AttributeConfig) : Except ConfigFault Unit :=
  if !config.enabled then .ok ()
  else if config.mode = .lenient ∧ config.allowsUnverified = false then
    .error .lenientWithoutConsent
  else if config.directory = "" then .error .emptyDirectory
  else if config.refreshSeconds = 0 then .error .zeroRefreshInterval
  else .ok ()

/-- The mode of validation; the lenient one only with consent. -/
def admittedMode (config : AttributeConfig) : Except ConfigFault ValidationMode :=
  match config.mode, config.allowsUnverified with
  | .strict, _ => .ok .strict
  | .lenient, true => .ok .lenient
  | .lenient, false => .error .lenientWithoutConsent

/-- The period of refreshes in milliseconds. -/
def refreshPeriod (config : AttributeConfig) : Nat :=
  1000 * config.refreshSeconds

end AttributeConfig

structure Config where
  identity : IdentityResolver := {}
  attributes : AttributeConfig := {}
  deriving DecidableEq, Repr

namespace Config

def validate (config : Config) : Except SecurityError Unit :=
  config.attributes.validate.mapError .invalidConfig

end Config

/-- A validator used in the mode of a configuration. -/
def Adapter.ofConfig (validator : Validator) (config : AttributeConfig) :
    Except SecurityError Adapter :=
  (config.admittedMode.map fun mode => ⟨validator, mode⟩).mapError .invalidConfig

end GridSecurity
