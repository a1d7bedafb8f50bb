import GridSecurity.Proofs.Authorization

/-!
# No unverified attribute without consent

Attributes that were not verified are handed out in the lenient mode only.  A
service gets into that mode only by a configuration that consents to it, however
it was made, and whatever its validator answers.
-/

namespace GridSecurity

/-! ## The mode of a service -/

private theorem AttributeConfig.eq_strict_of_admittedMode {config : AttributeConfig}
    (withoutConsent : config.allowsUnverified = false) {mode : ValidationMode}
    (admitted : config.admittedMode = .ok mode) : mode = .strict := by
  unfold admittedMode at admitted
  rw [withoutConsent] at admitted
  split at admitted
  · exact (Except.ok.inj admitted).symm
  · next consent => cases consent
  · cases admitted

namespace Service

/-- A service was made from a configuration, with a trust store of its own or with
a validator from elsewhere. -/
inductive MadeFrom (config : Config) (service : Service) : Prop
  | ofConfig {files : FileTree} : Service.ofConfig files config = .ok service →
      MadeFrom config service
  | withValidator : Service.withValidator config = .ok service → MadeFrom config service

/-- A service takes attributes in the mode that its configuration admits, or none
at all if it has no validator. -/
theorem mode_of_build {config : Config} {store : Option TrustStore} {hasValidator : Bool}
    {service : Service} (built : build config store hasValidator = .ok service) :
    (hasValidator = true ∧ ∃ mode, config.attributes.admittedMode = .ok mode ∧
      service.interceptor.mode = some mode) ∨
    (hasValidator = false ∧ service.interceptor.mode = none) := by
  unfold build at built
  cases hasValidator with
  | true =>
      rw [if_pos rfl] at built
      obtain ⟨mode?, found, whole⟩ := bind_eq_ok_iff.mp built
      obtain ⟨mode, admitted, rfl⟩ := map_eq_ok_iff.mp found
      obtain rfl := Except.ok.inj whole
      exact .inl ⟨rfl, mode, mapError_eq_ok_iff.mp admitted, rfl⟩
  | false =>
      rw [if_neg Bool.false_ne_true] at built
      obtain rfl := Except.ok.inj built
      exact .inr ⟨rfl, rfl⟩

private theorem MadeFrom.exists_build {config : Config} {service : Service}
    (made : MadeFrom config service) :
    ∃ store, build config store config.attributes.enabled = .ok service := by
  cases made with
  | ofConfig made =>
      obtain ⟨_, _, rest⟩ := bind_eq_ok_iff.mp made
      split at rest
      · next enabled =>
          obtain ⟨store, _, built⟩ := bind_eq_ok_iff.mp rest
          rw [enabled]
          exact ⟨some store, built⟩
      · next disabled =>
          rw [Bool.eq_false_iff.mpr disabled]
          exact ⟨none, rest⟩
  | withValidator made =>
      obtain ⟨_, _, built⟩ := bind_eq_ok_iff.mp made
      exact ⟨none, built⟩

/-- Without consent, a service is strict if its configuration has attributes
enabled and takes none if not. -/
theorem MadeFrom.mode_eq {config : Config} {service : Service}
    (made : MadeFrom config service)
    (withoutConsent : config.attributes.allowsUnverified = false) :
    service.interceptor.mode = if config.attributes.enabled then some .strict else none := by
  obtain ⟨store, built⟩ := made.exists_build
  rcases mode_of_build built with ⟨enabled, mode, admitted, same⟩ | ⟨disabled, same⟩
  · rw [same, enabled, AttributeConfig.eq_strict_of_admittedMode withoutConsent admitted]
    rfl
  · rw [same, disabled]
    rfl

end Service

/-! ## The attributes of a context -/

private theorem SecurityContext.resolveAttributes_of_no_mode {context : SecurityContext}
    (noMode : context.mode = none) (validator : Validator) (chain : List Certificate) :
    context.resolveAttributes validator chain = {} := by
  unfold resolveAttributes
  rw [noMode]

/-- Unless the mode is lenient, the attributes handed out are those of the valid
results. -/
theorem SecurityContext.memberships_resolveAttributes {context : SecurityContext}
    (notLenient : context.mode ≠ some .lenient) (validator : Validator)
    (chain : List Certificate) :
    (context.resolveAttributes validator chain).memberships =
      validMemberships (context.resolveAttributes validator chain).results := by
  unfold resolveAttributes
  cases known : context.mode with
  | none => rfl
  | some mode =>
      cases mode with
      | strict => rfl
      | lenient => exact absurd known notLenient

private theorem SecurityContext.memberships_eq_nil_of_unauthenticated {context : SecurityContext}
    (unauthenticated : context.isAuthenticated = false) : context.memberships = [] := by
  unfold isAuthenticated at unauthenticated
  rw [Option.isSome_eq_false_iff, Option.isNone_iff_eq_none] at unauthenticated
  unfold memberships
  rw [unauthenticated]
  rfl

/-- The attributes of an intercepted context are those of some chain in the mode of
the interceptor, or none if the client is unknown. -/
theorem Interceptor.exists_attributes {interceptor : Interceptor} {validator : Validator}
    {latency : Nat} {source : PeerSource} {context : SecurityContext}
    (intercepted : (interceptor.intercept validator latency source).1 = context) :
    ∃ attributes : AttributeResolution, context.memberships = attributes.memberships ∧
      context.results = attributes.results ∧
      (attributes = {} ∨ ∃ chain,
        attributes = (interceptor.emptyContext source).resolveAttributes validator chain) := by
  unfold SecurityContext.memberships SecurityContext.results
  cases known : context.client with
  | none => exact ⟨{}, rfl, rfl, .inl rfl⟩
  | some client =>
      rw [← intercepted] at known
      obtain ⟨_, resolved, _, _, rfl⟩ := exists_of_client known
      exact ⟨_, rfl, rfl, .inr ⟨resolved.chain, rfl⟩⟩

namespace Sample

def verified : VoMembership := .unbound "v" ⟨[], []⟩ [⟨"/v"⟩]

def unverified : VoMembership := .unbound "w" ⟨[], []⟩ [⟨"/w"⟩]

/-- A validator that finds one of two memberships valid, and something valid that
shows none. -/
def undecided : Validator where
  results := fun _ =>
    [⟨some unverified, .invalid [.badSignature]⟩, ⟨none, .valid⟩, ⟨some verified, .valid⟩]
  parse := fun _ => [unverified, verified]

end Sample

namespace Service

/-- Without consent, every request gets the memberships of the valid results and
no others, whatever the validator in force answers to it, and gets none if its
client is unknown or attributes are disabled. -/
theorem memberships_eq_of_withoutConsent {config : Config} {service : Service}
    (made : MadeFrom config service)
    (withoutConsent : config.attributes.allowsUnverified = false)
    (validator : Validator) (latency : Nat) (source : PeerSource) {context : SecurityContext}
    (intercepted : (service.interceptor.intercept validator latency source).1 = context) :
    context.memberships = validMemberships context.results ∧
    (context.isAuthenticated = false ∨ config.attributes.enabled = false →
      context.memberships = []) := by
  have mode : (service.interceptor.emptyContext source).mode =
      if config.attributes.enabled then some .strict else none :=
    made.mode_eq withoutConsent
  obtain ⟨attributes, memberships, results, origin⟩ :=
    Interceptor.exists_attributes intercepted
  rw [memberships, results]
  constructor
  · rcases origin with rfl | ⟨chain, rfl⟩
    · rfl
    · apply SecurityContext.memberships_resolveAttributes
      rw [mode]
      split
      · simp
      · simp
  · intro closed
    rcases closed with unauthenticated | disabled
    · rw [← memberships]
      exact SecurityContext.memberships_eq_nil_of_unauthenticated unauthenticated
    · rcases origin with rfl | ⟨chain, rfl⟩
      · rfl
      · rw [SecurityContext.resolveAttributes_of_no_mode]
        rw [mode, disabled]
        rfl

theorem memberships_of_undecided_validator :
    ∃ service context, MadeFrom Sample.config service ∧
      Sample.config.attributes.allowsUnverified = false ∧
      (service.interceptor.intercept Sample.undecided 0 Sample.peer).1 = context ∧
      context.isAuthenticated = true ∧ context.results.length = 3 ∧
      context.memberships = validMemberships context.results ∧
      context.memberships = [Sample.verified] := by
  have computed : ((withValidator Sample.config).toOption.map fun service =>
      let context := (service.interceptor.intercept Sample.undecided 0 Sample.peer).1
      (context.isAuthenticated, context.results.length, context.memberships)) =
      some (true, 3, [Sample.verified]) := by
    decide +kernel
  obtain ⟨service, found, rest⟩ := Option.map_eq_some_iff.mp computed
  simp only [Prod.mk.injEq] at rest
  obtain ⟨authenticated, three, only⟩ := rest
  have made : MadeFrom Sample.config service := .withValidator (toOption_eq_some_iff.mp found)
  exact ⟨service, _, made, rfl, rfl, authenticated, three,
    (memberships_eq_of_withoutConsent made rfl Sample.undecided 0 Sample.peer rfl).1, only⟩

end Service

end GridSecurity
