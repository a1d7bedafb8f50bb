import GridSecurity.Config
import GridSecurity.Interceptor
import GridSecurity.TrustStore

/-!
# The service

A service puts a configuration to work: it holds the trust store that its own
validator checks against, or relies on a validator from elsewhere, and
assembles the contexts of requests.
-/

namespace GridSecurity

/-- A configuration at work. -/
structure Service where
  config : Config
  store : Option TrustStore
  interceptor : Interceptor
  deriving DecidableEq, Repr

namespace Service

/-- Puts the parts together.  Without a validator no attributes are taken. -/
def build (config : Config) (store : Option TrustStore) (hasValidator : Bool) :
    Except SecurityError Service := do
  let mode ←
    if hasValidator then some <$> config.attributes.admittedMode.mapError .invalidConfig
    else pure none
  return ⟨config, store, ⟨config.identity, mode⟩⟩

/-- The service of a configuration with a trust store of its own. -/
def ofConfig (files : FileTree) (config : Config) : Except SecurityError Service := do
  config.validate
  if config.attributes.enabled then
    let store ← TrustStore.ofDirectory files config.attributes.directory
    build config (some store) true
  else build config none false

/-- The service of a configuration that relies on a validator from elsewhere. -/
def withValidator (config : Config) : Except SecurityError Service := do
  config.validate
  build config none config.attributes.enabled

/-- The validator that checks against the service's own store. -/
def localValidator (service : Service) (store : TrustStore) : LocalValidator :=
  ⟨store.authorities, service.config.identity.strategy⟩

/-- The validator in force at a moment: the service's own one, or else the one
from elsewhere. -/
def validatorAt (service : Service) (elsewhere : Validator) (now : Int) : Validator :=
  match service.store with
  | some store => (service.localValidator store).validatorAt now
  | none => elsewhere

/-- The context of a request and the events that it causes. -/
def intercept (service : Service) (elsewhere : Validator) (now : Int) (latency : Nat)
    (source : PeerSource) : SecurityContext × List MetricEvent :=
  service.interceptor.intercept (service.validatorAt elsewhere now) latency source

end Service

end GridSecurity
