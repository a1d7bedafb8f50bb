import GridSecurity.Proofs.Identity
import GridSecurity.Proofs.Membership
import GridSecurity.Proofs.Validation.Trust
import GridSecurity.Service

/-!
# Strict authorization

In the strict mode a context has only attribute names that a trusted authority
granted, in a period that is not over, to the certificate of the identity.  The
theorems follow a name from the context back to the octets that were presented.
-/

namespace GridSecurity

/-- A certificate carries an attribute certificate: it is among those that the
extension encodes. -/
def Carries (carrier : Certificate) (certificate : AttributeCertificate) : Prop :=
  ∃ value certificates, carrier.vomsExtension = some value ∧
    AttributeCertificate.ofExtension? value = some certificates ∧
    certificate ∈ certificates

/-- An attribute certificate grants a name to the holder of a certificate: it
carries the octets of the name, some authority vouches for it and is valid at the
moment, the moment lies in its period, and its holder is given by the issuer and
the serial number of the certificate. -/
structure Grants (authorities : List Certificate) (now : Int) (holder : Certificate)
    (certificate : AttributeCertificate) (name : String) : Prop where
  named : ∃ octets, octets.toByteArray = name.toUTF8 ∧
    VoMembership.Names certificate.info octets
  vouched : ∃ names issuer authority, certificate.info.issuer.names = some names ∧
    VoMembership.directoryName? names = some (.ok issuer) ∧ authority ∈ authorities ∧
    Vouches certificate issuer authority ∧ authority.isValidAt now = true
  begun : certificate.info.validity.notBefore.toUnix ≤ now
  notOver : now ≤ certificate.info.validity.notAfter.toUnix
  held : ∃ base issuer, certificate.info.holder.baseCertificate = some base ∧
    VoMembership.directoryName? base.issuer = some (.ok issuer) ∧
    issuer.Same holder.issuer ∧
    Octets.trimLeadingZeros base.serial.content = holder.trimmedSerial

/-! ## From a membership to the certificate behind it -/

/-- An attribute certificate gives its holder by the issuer and the serial number of a
certificate. -/
def VoMembership.GivesHolder (info : AttributeInfo) (holder : Certificate) : Prop :=
  ∃ base issuer, info.holder.baseCertificate = some base ∧
    directoryName? base.issuer = some (.ok issuer) ∧ issuer.Same holder.issuer ∧
    Octets.trimLeadingZeros base.serial.content = holder.trimmedSerial

theorem VoMembership.ShownBy.isHeldBy_iff {info : AttributeInfo} {membership : VoMembership}
    (shown : ShownBy info membership) {holder : Certificate} :
    isHeldBy membership holder = true ↔ GivesHolder info holder := by
  simp only [isHeldBy, Bool.and_eq_true, decide_eq_true_eq, Option.any_eq_true]
  constructor
  · rintro ⟨serial, issuer, issuerGiven, sameIssuer⟩
    have serialRead := shown.holderSerial.symm.trans serial
    have issuerRead := shown.holderIssuer
    rw [issuerGiven] at issuerRead
    obtain ⟨base, based, baseSerial⟩ := holderSerialOf_eq_some_iff.mp serialRead
    obtain ⟨sameBase, alsoBased, named⟩ := holderIssuerOf_eq_ok_some_iff.mp issuerRead
    obtain rfl := Option.some.inj (based.symm.trans alsoBased)
    exact ⟨base, issuer, based, named, sameIssuer, baseSerial⟩
  · rintro ⟨base, issuer, based, named, sameIssuer, baseSerial⟩
    have issuerRead := holderIssuerOf_eq_ok_some_iff.mpr ⟨base, based, named⟩
    have issuerGiven := Except.ok.inj (shown.holderIssuer.symm.trans issuerRead)
    have serialRead := holderSerialOf_eq_some_iff.mpr ⟨base, based, baseSerial⟩
    exact ⟨shown.holderSerial.trans serialRead, issuer, issuerGiven, sameIssuer⟩

theorem mem_validMemberships_iff {results : List ValidationResult}
    {membership : VoMembership} :
    membership ∈ validMemberships results ↔ ⟨some membership, .valid⟩ ∈ results := by
  simp only [validMemberships, List.mem_filterMap, List.mem_filter]
  constructor
  · rintro ⟨⟨shown, outcome⟩, ⟨member, valid⟩, rfl⟩
    cases outcome with
    | valid => exact member
    | invalid failures => cases valid
  · intro member
    exact ⟨_, ⟨member, rfl⟩, rfl⟩

theorem mem_attributeCertificates_iff {chain : List Certificate}
    {certificate : AttributeCertificate} :
    some certificate ∈ attributeCertificates chain ↔
      ∃ carrier ∈ chain, Carries carrier certificate := by
  simp only [attributeCertificates, List.mem_flatMap]
  constructor
  · rintro ⟨carrier, member, among⟩
    split at among
    · cases among
    · next value extended =>
        split at among
        · cases List.mem_singleton.mp among
        · next certificates decoded =>
            have listed : certificate ∈ certificates := by simpa using among
            exact ⟨carrier, member, value, certificates, extended, decoded, listed⟩
  · rintro ⟨carrier, member, value, certificates, extended, decoded, listed⟩
    refine ⟨carrier, member, ?_⟩
    rw [extended]
    dsimp only
    rw [decoded]
    exact List.mem_map_of_mem listed

/-- Every attribute name of an accepted membership is granted to the certificate
that attributes of the chain have to be bound to. -/
theorem LocalValidator.exists_grants {validator : LocalValidator} {now : Int}
    {chain : List Certificate} {membership : VoMembership}
    (accepted : membership ∈ (validator.validatorAt now).accepted chain) {fqan : Fqan}
    (member : fqan ∈ membership.fqans)
    (unreplaced : Utf8.replacement ∉ fqan.value.toList) :
    ∃ certificate holder, some certificate ∈ attributeCertificates chain ∧
      validator.holder? chain = some holder ∧
      Grants validator.authorities now holder certificate fqan.value := by
  obtain ⟨certificate, _, authority, present, same, acceptable, isFirst, authorityValid⟩ :=
    exists_of_mem_resultsAt (mem_validMemberships_iff.mp accepted) rfl
  obtain ⟨rfl⟩ := same
  obtain ⟨holder, holderFound, held⟩ := acceptable.held
  have shown := VoMembership.ofInfo_eq_ok_iff.mp acceptable.decoded
  have begun := acceptable.begun
  have notOver := acceptable.notOver
  rw [VoMembership.seconds_of_instantOf shown.notBefore] at begun
  rw [VoMembership.seconds_of_instantOf shown.notAfter] at notOver
  obtain ⟨names, hasNames, issuerNamed⟩ := VoMembership.issuerOf_eq_ok_iff.mp shown.issuer
  refine ⟨certificate, holder, present, holderFound, ?_⟩
  exact {
    named := ⟨_, Utf8.toByteArray_ofText _, shown.names_of_mem_fqans member unreplaced⟩
    vouched := ⟨names, membership.issuer, authority, hasNames, issuerNamed, isFirst.mem,
      isFirst.vouches, authorityValid⟩
    begun, notOver
    held := shown.isHeldBy_iff.mp held }

/-! ## From a context to what was presented -/

/-- The client of an intercepted request was resolved from presented
certificates, with the attributes that the validator in force gives. -/
theorem Interceptor.exists_of_client {interceptor : Interceptor} {validator : Validator}
    {latency : Nat} {source : PeerSource} {client : ResolvedClient}
    (known : (interceptor.intercept validator latency source).1.client = some client) :
    ∃ encodings resolved, source.certificates = .ok (some encodings) ∧
      interceptor.resolver.resolve encodings = .ok resolved ∧
      client = ⟨resolved.identity, resolved.chain,
        (interceptor.emptyContext source).resolveAttributes validator resolved.chain⟩ := by
  unfold intercept at known
  dsimp only at known
  split at known
  · cases known
  · cases known
  · cases known
  · next encodings _ presented =>
      split at known
      · next assembled found =>
          obtain ⟨resolved, resolution, whole⟩ := bind_eq_ok_iff.mp found
          obtain rfl := Except.ok.inj whole
          obtain rfl := Option.some.inj known
          exact ⟨encodings, resolved, presented, resolution, rfl⟩
      · cases known

private theorem SecurityContext.exists_of_hasFqan {context : SecurityContext} {name : String}
    (answered : context.hasFqan name = true) :
    ∃ client membership, context.client = some client ∧
      membership ∈ client.attributes.memberships ∧ ⟨name⟩ ∈ membership.fqans := by
  obtain ⟨fqan, member, same⟩ := List.any_eq_true.mp answered
  obtain rfl := beq_iff_eq.mp same
  obtain ⟨membership, membershipMember, listed⟩ := List.mem_flatMap.mp member
  unfold memberships at membershipMember
  cases known : context.client with
  | none =>
      rw [known] at membershipMember
      cases membershipMember
  | some client =>
      rw [known] at membershipMember
      exact ⟨client, membership, rfl, membershipMember, listed⟩

namespace Service

/-- A service with a trust store of its own has the configuration it was made
from and resolves identities and takes attributes as that one says. -/
theorem eq_of_ofConfig {files : FileTree} {config : Config} {service : Service}
    (made : ofConfig files config = .ok service)
    (enabled : config.attributes.enabled = true) :
    ∃ store mode, config.attributes.admittedMode = .ok mode ∧
      service = ⟨config, some store, ⟨config.identity, some mode⟩⟩ := by
  obtain ⟨_, _, rest⟩ := bind_eq_ok_iff.mp made
  rw [if_pos enabled] at rest
  obtain ⟨store, _, built⟩ := bind_eq_ok_iff.mp rest
  unfold build at built
  rw [if_pos rfl] at built
  obtain ⟨mode?, admitted, whole⟩ := bind_eq_ok_iff.mp built
  obtain ⟨mode, admittedMode, rfl⟩ := map_eq_ok_iff.mp admitted
  obtain rfl := Except.ok.inj whole
  exact ⟨store, mode, mapError_eq_ok_iff.mp admittedMode, rfl⟩

/-- The service while a store is in force. -/
def withStore (service : Service) (inForce : TrustStore) : Service :=
  { service with store := some inForce }

end Service

namespace Sample

/-- The renewed certificate of the authority in armour. -/
def armoured : Octets :=
  ["-----BEGIN CERTIFICATE-----",
    "MIIBBTCB8aADAgECAgECMAsGCSqGSIb3DQEBBTAMMQowCAYDVQQDDAFWMB4XDTE5MDEwMTAwMDAw",
    "MFoXDTQwMDEwMTAwMDAwMFowDDEKMAgGA1UEAwwBVjCBnTALBgkqhkiG9w0BAQEDgY0AMIGJAoGB",
    "AN7qCdHyljkp4ApYj2FFCTntMeXKBC5SIyvpR+W1qt9gbIXnoJ0hIUJu59ZDDMsmCKjCmR2MV1mu",
    "d3yyVySoZ5GRb4Pvo1MNy8SUuiMPMRQLZOOTifLxsGpnc4uXqeXV/32sknqeobWUiidjpz7rZSTJ",
    "4HjPVNMmZneJ4ppp2dyxAgMBAAEwCwYJKoZIhvcNAQEFAwIAAA==",
    "-----END CERTIFICATE-----"].flatMap fun line => Utf8.ofText line ++ [10]

def files : FileTree := .directory [("authorities", .directory [("V.pem", .file armoured)])]

def config : Config := { attributes := { directory := "/authorities" } }

/-- A peer that presents the client's certificate. -/
def peer : PeerSource := ⟨.ok (some [client]), none, none⟩

private theorem exists_answer :
    ∃ service store, Service.ofConfig files config = .ok service ∧
      service.store = some store ∧
      ((service.withStore store).intercept .absent moment 0 peer).1.hasFqan "/v" = true := by
  have computed : ((Service.ofConfig files config).toOption.bind fun service =>
      service.store.map fun store =>
        ((service.withStore store).intercept .absent moment 0 peer).1.hasFqan "/v") =
      some true := by
    decide +kernel
  obtain ⟨service, made, rest⟩ := Option.bind_eq_some_iff.mp computed
  obtain ⟨store, stored, answered⟩ := Option.map_eq_some_iff.mp rest
  exact ⟨service, store, toOption_eq_some_iff.mp made, stored, answered⟩

end Sample

namespace Service

/-- Whatever certificates its peer presents and whatever store is in force, a
strict service answers for an attribute name only if one of the presented
certificates carries an attribute certificate that grants the name to the
certificate of the identity. -/
theorem exists_grants_of_hasFqan {files : FileTree} {config : Config} {service : Service}
    (made : ofConfig files config = .ok service)
    (enabled : config.attributes.enabled = true)
    (strict : config.attributes.mode = .strict)
    (inForce : TrustStore) (elsewhere : Validator) (now : Int) (latency : Nat)
    (source : PeerSource) {context : SecurityContext}
    (intercepted : ((service.withStore inForce).intercept elsewhere now latency source).1 =
      context)
    {name : String} (unreplaced : Utf8.replacement ∉ name.toList)
    (answered : context.hasFqan name = true) :
    ∃ encodings identity carrier certificate,
      source.certificates = .ok (some encodings) ∧ context.identity? = some identity ∧
      Presented encodings identity.certificate ∧ Presented encodings carrier ∧
      Carries carrier certificate ∧
      Grants inForce.authorities now identity.certificate certificate name := by
  obtain ⟨store, mode, admitted, rfl⟩ := eq_of_ofConfig made enabled
  have isStrict : mode = .strict := by
    rw [AttributeConfig.admittedMode, strict] at admitted
    exact (Except.ok.inj admitted).symm
  subst isStrict intercepted
  obtain ⟨client, membership, known, member, listed⟩ :=
    SecurityContext.exists_of_hasFqan answered
  obtain ⟨encodings, resolved, presented, resolution, rfl⟩ :=
    Interceptor.exists_of_client known
  obtain ⟨certificate, holder, among, holderFound, grants⟩ :=
    LocalValidator.exists_grants member listed unreplaced
  obtain ⟨carrier, carrierMember, carries⟩ := mem_attributeCertificates_iff.mp among
  obtain ⟨_, _, _, identified⟩ := IdentityResolver.resolve_eq_ok_iff.mp resolution
  -- The holder is looked for in the same chain and in the same way as the identity.
  obtain ⟨identity, alsoIdentified, rfl⟩ := LocalValidator.holder?_eq_some_iff.mp holderFound
  obtain rfl := Except.ok.inj (identified.symm.trans alsoIdentified)
  have identityPresented : Presented encodings resolved.identity.certificate :=
    IdentityResolver.presented_of_mem_resolve resolution
      (Chain.mem_of_resolveIdentity identified)
  have carrierPresented : Presented encodings carrier :=
    IdentityResolver.presented_of_mem_resolve resolution carrierMember
  have shown := congrArg (Option.map ResolvedClient.identity) known
  exact ⟨encodings, resolved.identity, carrier, certificate, presented, shown,
    identityPresented, carrierPresented, carries, grants⟩

theorem exists_grants_of_answer :
    ∃ service store context, ofConfig Sample.files Sample.config = .ok service ∧
      Sample.config.attributes.enabled = true ∧ Sample.config.attributes.mode = .strict ∧
      ((service.withStore store).intercept .absent Sample.moment 0 Sample.peer).1 = context ∧
      Utf8.replacement ∉ "/v".toList ∧ context.hasFqan "/v" = true ∧
      ∃ encodings identity carrier certificate,
        Sample.peer.certificates = .ok (some encodings) ∧ context.identity? = some identity ∧
        Presented encodings identity.certificate ∧ Presented encodings carrier ∧
        Carries carrier certificate ∧
        Grants store.authorities Sample.moment identity.certificate certificate "/v" := by
  obtain ⟨service, store, made, _, answered⟩ := Sample.exists_answer
  have unreplaced : Utf8.replacement ∉ "/v".toList := by decide
  exact ⟨service, store, _, made, rfl, rfl, rfl, unreplaced, answered,
    exists_grants_of_hasFqan made rfl rfl store .absent Sample.moment 0 Sample.peer rfl
      unreplaced answered⟩

end Service

end GridSecurity
