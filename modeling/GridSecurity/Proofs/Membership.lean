import GridSecurity.Proofs.Success
import GridSecurity.Proofs.Text.Utf8
import GridSecurity.VoMembership

/-!
# What a membership takes from an attribute certificate

A membership is read from the information of an attribute certificate field by
field.  Its attribute names are the octets of the first attribute that carries
such names, as texts.
-/

namespace GridSecurity.VoMembership

variable {info : AttributeInfo}

/-- Every field of a membership is the one that the information shows. -/
structure ShownBy (info : AttributeInfo) (membership : VoMembership) : Prop where
  issuer : issuerOf info = .ok membership.issuer
  holderIssuer : holderIssuerOf info = .ok membership.holderIssuer
  holderSerial : membership.holderSerial = holderSerialOf info
  serial : membership.serial = Octets.hex (Octets.trimLeadingZeros info.serial.content)
  policies : ∃ values, policyValuesOf info = .ok values ∧
    membership.fqans = values.flatMap PolicyValue.fqans ∧
    (membership.vo, membership.server) = organisationOf values membership.fqans
  notBefore : instantOf info.validity.notBefore = .ok membership.notBefore
  notAfter : instantOf info.validity.notAfter = .ok membership.notAfter

theorem ofInfo_eq_ok_iff {membership : VoMembership} :
    ofInfo info = .ok membership ↔ ShownBy info membership := by
  simp only [ofInfo, bind_eq_ok_iff]
  constructor
  · rintro ⟨issuer, issuerRead, holderIssuer, holderRead, values, valuesRead, notBefore,
      notBeforeRead, notAfter, notAfterRead, whole⟩
    obtain rfl := Except.ok.inj whole
    exact ⟨issuerRead, holderRead, rfl, rfl, ⟨values, valuesRead, rfl, rfl⟩, notBeforeRead,
      notAfterRead⟩
  · rintro ⟨issuerRead, holderRead, holderSerial, serial, ⟨values, valuesRead, fqans,
      organisation⟩, notBeforeRead, notAfterRead⟩
    refine ⟨_, issuerRead, _, holderRead, values, valuesRead, _, notBeforeRead, _,
      notAfterRead, ?_⟩
    rw [← fqans, ← organisation, ← holderSerial, ← serial]
    rfl

/-! ## The fields one by one -/

theorem issuerOf_eq_ok_iff {issuer : DistinguishedName} :
    issuerOf info = .ok issuer ↔
      ∃ names, info.issuer.names = some names ∧ directoryName? names = some (.ok issuer) := by
  unfold issuerOf
  rw [← Option.bind_eq_some_iff]
  cases info.issuer.names.bind directoryName? with
  | none => simp
  | some name => simp

theorem holderIssuerOf_eq_ok_some_iff {issuer : DistinguishedName} :
    holderIssuerOf info = .ok (some issuer) ↔
      ∃ base, info.holder.baseCertificate = some base ∧
        directoryName? base.issuer = some (.ok issuer) := by
  unfold holderIssuerOf
  rw [← Option.bind_eq_some_iff]
  split
  · next nobody =>
      rw [nobody]
      simp
  · next name found =>
      rw [found]
      simp [map_eq_ok_iff]

theorem holderSerialOf_eq_some_iff {serial : Octets} :
    holderSerialOf info = some serial ↔
      ∃ base, info.holder.baseCertificate = some base ∧
        Octets.trimLeadingZeros base.serial.content = serial := by
  exact Option.map_eq_some_iff

theorem seconds_of_instantOf {time : Der.Time} {instant : Instant}
    (read : instantOf time = .ok instant) : instant.seconds = time.toUnix := by
  unfold instantOf at read
  split at read
  · next found =>
      obtain rfl := Except.ok.inj read
      unfold Instant.ofUnix? at found
      split at found
      · obtain rfl := Option.some.inj found
        rfl
      · cases found
  · cases read

/-- The octets are one of the attribute names in the first attribute that carries
such names. -/
def Names (info : AttributeInfo) (octets : Octets) : Prop :=
  ∃ typed element value, info.attributes.find? (·.type == attributeType) = some typed ∧
    element ∈ typed.values.values ∧ PolicyValue.ofElement? element = some value ∧
    octets ∈ value.names

private theorem names_of_mem {values : List PolicyValue} (read : policyValuesOf info = .ok values)
    {value : PolicyValue} (member : value ∈ values) {octets : Octets}
    (named : octets ∈ value.names) : Names info octets := by
  unfold policyValuesOf at read
  split at read
  · cases read
  · next typed found =>
      split at read
      · next others othersRead =>
          obtain rfl := Except.ok.inj read
          obtain ⟨element, elementMember, valueRead⟩ := exists_of_mem_mapM? othersRead member
          exact ⟨typed, element, value, found, elementMember, valueRead, named⟩
      · cases read

/-- An attribute name without replacement characters is there octet by octet. -/
theorem ShownBy.names_of_mem_fqans {membership : VoMembership}
    (shown : ShownBy info membership) {fqan : Fqan} (member : fqan ∈ membership.fqans)
    (unreplaced : Utf8.replacement ∉ fqan.value.toList) :
    Names info (Utf8.ofText fqan.value) := by
  obtain ⟨values, valuesRead, fqans, _⟩ := shown.policies
  rw [fqans] at member
  obtain ⟨value, valueMember, valueNames⟩ := List.mem_flatMap.mp member
  obtain ⟨octets, named, rfl⟩ := List.mem_map.mp valueNames
  rw [← Utf8.eq_ofText_of_decodeReplacing unreplaced rfl]
  exact names_of_mem valuesRead valueMember named

end GridSecurity.VoMembership
