import GridSecurity.Proofs.Authorization
import GridSecurity.Proofs.Membership.AllOrNothing
import GridSecurity.Proofs.Octets

/-!
# Serial numbers of holders

Serial numbers are compared by their octets without leading zeros, which is to say as
numbers without a sign.  A certificate whose serial number is negative is therefore taken for
the one with the positive number of the same digits, and for no other.
-/

namespace GridSecurity

/-- Attributes are bound to a certificate exactly if it has the issuer that is given for
the holder and the same serial number without a sign. -/
theorem VoMembership.givesHolder_iff {info : AttributeInfo} {holder : Certificate} :
    GivesHolder info holder ↔
      ∃ base issuer, info.holder.baseCertificate = some base ∧
        directoryName? base.issuer = some (.ok issuer) ∧ issuer.Same holder.issuer ∧
        Octets.toNat base.serial.content = Octets.toNat holder.serialContent := by
  simp only [GivesHolder, Certificate.trimmedSerial, Octets.trimLeadingZeros_eq_iff]

/-! ## A small example -/

namespace Sample

open Der

/-- A client with the given serial number that carries an attribute certificate for the
holder with the serial number 128. -/
def clientNumbered (serial : Octets) : Octets :=
  (sequenceOf [
    sequenceOf [.composite (contextCompositeTag 0) isKnownTag_zero [smallNumber 2],
      ⟨integerTag, serial, Eq.refl true⟩, algorithm 5, name 'i',
      sequenceOf [⟨0x17, Utf8.ofText "240101000000Z", Eq.refl true⟩,
        ⟨0x17, Utf8.ofText "340101000000Z", Eq.refl true⟩],
      name 'c', sequenceOf [algorithm 1, ⟨bitStringTag, [0, 1], Eq.refl true⟩],
      .composite (contextCompositeTag 3) (Eq.refl true) [sequenceOf [sequenceOf [
        ⟨identifierTag, [0x2b, 0x06, 0x01, 0x04, 0x01, 0xbe, 0x45, 0x64, 0x64, 0x05],
          Eq.refl true⟩,
        octetString (sequenceOf [sequenceOf [sequenceOf [
          infoFor 128 [policyValue none [Utf8.ofText "/v"]], algorithm 5,
          ⟨bitStringTag, [0], Eq.refl true⟩]]]).write]]]],
    algorithm 5, ⟨bitStringTag, [0, 0], Eq.refl true⟩]).write

/-- The attribute certificate is bound to the client that carries it, and these are the two
serial numbers with their signs. -/
private theorem exists_held (serial : Octets) (given own : Int)
    (computed : (reading (clientNumbered serial) fun holder =>
      (attributeCertificates [holder])[0]?.join.bind fun certificate =>
      (VoMembership.ofInfo certificate.info).toOption.bind fun membership =>
      certificate.info.holder.baseCertificate.map fun base =>
        (isHeldBy membership holder, Octets.toInt base.serial.content,
          Octets.toInt holder.serialContent)) = some (true, given, own)) :
    ∃ holder certificate membership base,
      Certificate.parse (clientNumbered serial) = .ok holder ∧
      (attributeCertificates [holder])[0]? = some (some certificate) ∧
      VoMembership.ofInfo certificate.info = .ok membership ∧
      certificate.info.holder.baseCertificate = some base ∧
      isHeldBy membership holder = true ∧
      Octets.toInt base.serial.content = given ∧ Octets.toInt holder.serialContent = own := by
  obtain ⟨holder, parsed, rest⟩ := exists_of_reading computed
  obtain ⟨certificate, carried, rest⟩ := Option.bind_eq_some_iff.mp rest
  obtain ⟨membership, shown, rest⟩ := Option.bind_eq_some_iff.mp rest
  obtain ⟨base, based, rest⟩ := Option.map_eq_some_iff.mp rest
  simp only [Prod.mk.injEq] at rest
  exact ⟨holder, certificate, membership, base, parsed, Option.join_eq_some_iff.mp carried,
    toOption_eq_some_iff.mp shown, based, rest⟩

end Sample

/-! ## The comparison -/

/-- Attributes are bound to a certificate exactly if the issuer and the number without a sign
that are given for the holder are the certificate's.  With their signs the two numbers are
then the same unless exactly one of them is negative. -/
theorem held_by_unsigned_serial {certificate : AttributeCertificate} {membership : VoMembership}
    (shown : VoMembership.ofInfo certificate.info = .ok membership) (holder : Certificate) :
    (isHeldBy membership holder = true ↔
      ∃ base issuer, certificate.info.holder.baseCertificate = some base ∧
        VoMembership.directoryName? base.issuer = some (.ok issuer) ∧
        issuer.Same holder.issuer ∧
        Octets.toNat base.serial.content = Octets.toNat holder.serialContent) ∧
    (isHeldBy membership holder = true →
      ∃ base, certificate.info.holder.baseCertificate = some base ∧
        (Octets.toInt base.serial.content = Octets.toInt holder.serialContent ↔
          (Octets.toInt base.serial.content < 0 ↔ Octets.toInt holder.serialContent < 0))) := by
  have bound : isHeldBy membership holder = true ↔
      VoMembership.GivesHolder certificate.info holder :=
    (VoMembership.ofInfo_eq_ok_iff.mp shown).isHeldBy_iff
  constructor
  · rw [bound]
    exact VoMembership.givesHolder_iff
  · intro held
    obtain ⟨base, _, based, _, _, same⟩ := VoMembership.givesHolder_iff.mp (bound.mp held)
    exact ⟨base, based, Octets.toInt_eq_iff_of_toNat_eq same⟩

/-- The holder with the serial number 128 is the client with that number. -/
theorem held_by_unsigned_serial_of_positive :
    ∃ holder certificate membership base,
      Certificate.parse (Sample.clientNumbered [0x00, 0x80]) = .ok holder ∧
      (attributeCertificates [holder])[0]? = some (some certificate) ∧
      VoMembership.ofInfo certificate.info = .ok membership ∧
      isHeldBy membership holder = true ∧
      certificate.info.holder.baseCertificate = some base ∧
      Octets.toInt base.serial.content = Octets.toInt holder.serialContent := by
  obtain ⟨holder, certificate, membership, base, parsed, carried, shown, based, held, given,
    own⟩ := Sample.exists_held [0x00, 0x80] 128 128 (by decide +kernel)
  obtain ⟨alsoBase, alsoBased, sameIff⟩ := (held_by_unsigned_serial shown holder).2 held
  obtain rfl := Option.some.inj (based.symm.trans alsoBased)
  have same : Octets.toInt base.serial.content = Octets.toInt holder.serialContent := by
    apply sameIff.mpr
    rw [given, own]
  exact ⟨holder, certificate, membership, base, parsed, carried, shown, held, based, same⟩

/-- The same holder is also the client with the serial number -128. -/
theorem held_despite_sign :
    ∃ holder certificate membership base,
      Certificate.parse (Sample.clientNumbered [0x80]) = .ok holder ∧
      (attributeCertificates [holder])[0]? = some (some certificate) ∧
      VoMembership.ofInfo certificate.info = .ok membership ∧
      certificate.info.holder.baseCertificate = some base ∧
      isHeldBy membership holder = true ∧
      Octets.toInt base.serial.content = 128 ∧ Octets.toInt holder.serialContent = -128 :=
  Sample.exists_held [0x80] 128 (-128) (by decide +kernel)

end GridSecurity
