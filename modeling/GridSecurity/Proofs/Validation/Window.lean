import GridSecurity.Proofs.AttributeCertificate.Signed
import GridSecurity.Proofs.Der.Times
import GridSecurity.Proofs.Membership.AllOrNothing
import GridSecurity.Proofs.Validation.OverTime

/-!
# The window of an attribute certificate

An attribute certificate is in force between two times that stand in it.  Every time that
can be read there is an instant, so that none is ever out of range, and the checks compare
the counted seconds, which are in the order of the calendar.
-/

namespace GridSecurity

open Der

/-! ## Times as instants -/

/-- A number that leaves the highest bit of a word clear is the same with a sign. -/
private theorem toInt_toInt64_ofNat {seconds : Nat} (small : seconds < 2 ^ 63) :
    (UInt64.ofNat seconds).toInt64.toInt = seconds := by
  rw [UInt64.toInt64_ofNat', Int64.toInt_ofNat_of_lt small]

private theorem Instant.ofUnix?_eq_some {seconds : Int} (notNegative : 0 ≤ seconds)
    (last : seconds ≤ 253402300799) : Instant.ofUnix? seconds = some ⟨seconds, 0⟩ := by
  have first : Instant.firstSecond ≤ 0 := by decide
  have inRange : 253402300799 ≤ Instant.lastSecond := by decide
  rw [Instant.ofUnix?, if_pos (by omega)]

/-- The seconds of a time, counted without a sign, are the same number with one, and an
instant. -/
structure Der.Time.Representable (time : Time) : Prop where
  counted : 0 ≤ time.toUnix
  signed : (UInt64.ofNat time.toUnix.toNat).toInt64.toInt = time.toUnix
  instant : VoMembership.instantOf time = .ok ⟨time.toUnix, 0⟩

theorem Der.Time.representable (time : Time) : time.Representable := by
  obtain ⟨counted, last⟩ := time.toUnix_bounds
  refine { counted := counted, signed := ?_, instant := ?_ }
  · have small : time.toUnix.toNat < 2 ^ 63 := by omega
    rw [toInt_toInt64_ofNat small, Int.toNat_of_nonneg counted]
  · exact VoMembership.instantOf_eq_ok_iff.mpr (Instant.ofUnix?_eq_some counted last)

/-! ## Times in an attribute certificate -/

/-- A time was read from an element that stands in the given octets. -/
def Der.Time.Stands (octets : Octets) (time : Time) : Prop :=
  ∃ element : Element, element.write <:+: octets ∧ Time.ofElement? element = some time

theorem Der.Time.Stands.mono {inner outer : Octets} {time : Time} (stands : time.Stands inner)
    (within : inner <:+: outer) : time.Stands outer := by
  obtain ⟨element, inside, read⟩ := stands
  exact ⟨element, inside.trans within, read⟩

namespace AttributeCertificate

private theorem stand_of_validity {element : Element} {period : ValidityPeriod}
    (found : ValidityPeriod.ofElement? element = some period) :
    period.notBefore.Stands element.write ∧ period.notAfter.Stands element.write := by
  obtain ⟨fields, children, fieldsRead⟩ := Option.bind_eq_some_iff.mp found
  unfold ValidityPeriod.ofFields? at fieldsRead
  split at fieldsRead
  · next first last =>
      simp only [Option.bind_eq_bind, Option.bind_eq_some_iff, Option.pure_def,
        Option.some.injEq] at fieldsRead
      obtain ⟨notBefore, firstRead, notAfter, lastRead, rfl⟩ := fieldsRead
      exact ⟨⟨first, Element.write_infix_of_children? children (by simp), firstRead⟩,
        ⟨last, Element.write_infix_of_children? children (by simp), lastRead⟩⟩
  · cases fieldsRead

private theorem exists_validity {element : Element} {info : AttributeInfo}
    (found : AttributeInfo.ofElement? element = some info) :
    ∃ period : Element, period.write <:+: element.write ∧
      ValidityPeriod.ofElement? period = some info.validity := by
  obtain ⟨fields, children, fieldsRead⟩ := Option.bind_eq_some_iff.mp found
  unfold AttributeInfo.ofFields? at fieldsRead
  split at fieldsRead
  · next version holder issuer algorithm serial validity attributes rest =>
      simp only [Option.bind_eq_bind, Option.bind_eq_some_iff, Option.pure_def,
        Option.some.injEq] at fieldsRead
      obtain ⟨_, _, _, _, _, _, _, _, _, _, _, _, _, validityRead, _, _, rfl⟩ := fieldsRead
      exact ⟨validity, Element.write_infix_of_children? children (by simp), validityRead⟩
  · cases fieldsRead

/-- The limits of every attribute certificate of an extension stand in its value. -/
theorem limits_stand {value : Octets} {certificates : List AttributeCertificate}
    (accepted : ofExtension? value = some certificates) {certificate : AttributeCertificate}
    (member : certificate ∈ certificates) :
    certificate.info.validity.notBefore.Stands value ∧
      certificate.info.validity.notAfter.Stands value := by
  obtain ⟨infos, _, stand⟩ := infoStands_of_ofExtension? accepted
  obtain ⟨element, _, infoRead, inside⟩ := exists_mem_of_forall₂ stand.flip member
  obtain ⟨period, within, periodRead⟩ := exists_validity infoRead
  obtain ⟨notBefore, notAfter⟩ := stand_of_validity periodRead
  exact ⟨notBefore.mono (within.trans inside), notAfter.mono (within.trans inside)⟩

/-- The limits of an attribute certificate are times that stand in the octets it was read
from, and instants.  At every moment the checks find against it what the calendar says. -/
structure KeepsCalendar (octets : Octets) (certificate : AttributeCertificate) : Prop where
  notBefore_stands : certificate.info.validity.notBefore.Stands octets
  notAfter_stands : certificate.info.validity.notAfter.Stands octets
  notBefore : certificate.info.validity.notBefore.Representable
  notAfter : certificate.info.validity.notAfter.Representable
  inRange : ∀ seconds, VoMembership.ofInfo certificate.info ≠ .error (.timeOutOfRange seconds)
  window : ∀ (validator : LocalValidator) (holder : Option Certificate) (now : Int)
      (membership : VoMembership), VoMembership.ofInfo certificate.info = .ok membership →
    ∃ moment : DateTime, (∀ other : DateTime, other.toUnix = now ↔ other = moment) ∧
      (.notYetValid ∈ (validator.check holder now certificate).failures ↔
        moment.parts < certificate.info.validity.notBefore.dateTime.parts) ∧
      (.expired ∈ (validator.check holder now certificate).failures ↔
        certificate.info.validity.notAfter.dateTime.parts < moment.parts)

theorem not_timeOutOfRange (info : AttributeInfo) (seconds : Int) :
    VoMembership.ofInfo info ≠ .error (.timeOutOfRange seconds) := by
  intro failed
  cases VoMembership.hinders_of_ofInfo failed with
  | @outOfRange time _ none =>
      rw [Instant.ofUnix?_eq_some time.toUnix_bounds.1 time.toUnix_bounds.2] at none
      cases none

theorem keepsCalendar {value : Octets} {certificates : List AttributeCertificate}
    (accepted : ofExtension? value = some certificates) {certificate : AttributeCertificate}
    (member : certificate ∈ certificates) : certificate.KeepsCalendar value where
  notBefore_stands := (limits_stand accepted member).1
  notAfter_stands := (limits_stand accepted member).2
  notBefore := certificate.info.validity.notBefore.representable
  notAfter := certificate.info.validity.notAfter.representable
  inRange := not_timeOutOfRange certificate.info
  window := by
    intro validator holder now membership shown
    obtain ⟨moment, only⟩ := DateTime.exists_toUnix_eq_iff now
    have fields := VoMembership.ofInfo_eq_ok_iff.mp shown
    have counted : moment.toUnix = now := (only moment).mpr rfl
    refine ⟨moment, only, ?_, ?_⟩
    · rw [LocalValidator.notYetValid_mem_check_iff shown holder,
        VoMembership.seconds_of_instantOf fields.notBefore, ← DateTime.toUnix_lt_iff, counted,
        Time.toUnix]
    · rw [LocalValidator.expired_mem_check_iff shown holder,
        VoMembership.seconds_of_instantOf fields.notAfter, ← DateTime.toUnix_lt_iff, counted,
        Time.toUnix]

/-- The limits of every attribute certificate that is read are representable, and the checks
compare the moment with them as the calendar does: of two times that are read, the earlier one
by the year, the month and so on down to the second has the smaller number of seconds, and
also the smaller octets. -/
theorem window_keeps_calendar :
    (∀ value certificates, ofExtension? value = some certificates →
      ∀ certificate ∈ certificates, certificate.KeepsCalendar value) ∧
    ∀ element other time otherTime,
      Time.ofElement? element = some time → Time.ofElement? other = some otherTime →
      (time.dateTime.parts < otherTime.dateTime.parts ↔ time.toUnix < otherTime.toUnix) ∧
      (element.content < other.content ↔ time.toUnix < otherTime.toUnix) := by
  refine ⟨fun value certificates accepted certificate => keepsCalendar accepted, ?_⟩
  intro element other time otherTime read otherRead
  obtain rfl := Time.toElement_of_ofElement? read
  obtain rfl := Time.toElement_of_ofElement? otherRead
  have counted : time.toUnix < otherTime.toUnix ↔
      time.dateTime.parts < otherTime.dateTime.parts := DateTime.toUnix_lt_iff
  exact ⟨counted.symm, (Time.content_lt_iff time otherTime).trans counted.symm⟩

/-- The period begins with the year 2024, and the last second of its February is before the
first one of its March. -/
theorem window_keeps_calendar_in_leap_year :
    ∃ certificate membership lastOfFebruary firstOfMarch,
      ofExtension? Sample.extension = some [certificate] ∧
      VoMembership.ofInfo certificate.info = .ok membership ∧
      certificate.info.validity.notBefore.dateTime.parts = [2024, 1, 1, 0, 0, 0] ∧
      certificate.KeepsCalendar Sample.extension ∧
      Time.ofElement? (Sample.attributeTime "20240229235959Z") = some lastOfFebruary ∧
      Time.ofElement? (Sample.attributeTime "20240301000000Z") = some firstOfMarch ∧
      lastOfFebruary.dateTime.parts < firstOfMarch.dateTime.parts ∧
      lastOfFebruary.toUnix < firstOfMarch.toUnix := by
  have computed : (ofExtension? Sample.extension).map (fun certificates =>
      certificates.map fun certificate =>
        ((VoMembership.ofInfo certificate.info).toOption.isSome,
          certificate.info.validity.notBefore.dateTime.parts)) =
      some [(true, [2024, 1, 1, 0, 0, 0])] := by
    decide +kernel
  obtain ⟨certificates, accepted, shown⟩ := Option.map_eq_some_iff.mp computed
  obtain ⟨certificate, rfl, fields⟩ := List.map_eq_singleton_iff.mp shown
  obtain ⟨isShown, begins⟩ := Prod.mk.inj fields
  obtain ⟨membership, shows⟩ := Option.isSome_iff_exists.mp isShown
  obtain ⟨lastOfFebruary, lastRead⟩ := Option.isSome_iff_exists.mp
    (show (Time.ofElement? (Sample.attributeTime "20240229235959Z")).isSome by decide +kernel)
  obtain ⟨firstOfMarch, firstRead⟩ := Option.isSome_iff_exists.mp
    (show (Time.ofElement? (Sample.attributeTime "20240301000000Z")).isSome by decide +kernel)
  have keeps := window_keeps_calendar.1 _ _ accepted certificate List.mem_cons_self
  obtain ⟨calendar, octets⟩ := window_keeps_calendar.2 _ _ _ _ lastRead firstRead
  have counted : lastOfFebruary.toUnix < firstOfMarch.toUnix :=
    octets.mp (by decide +kernel)
  exact ⟨certificate, membership, lastOfFebruary, firstOfMarch, accepted,
    toOption_eq_some_iff.mp shows, begins, keeps, lastRead, firstRead, calendar.mpr counted,
    counted⟩

end AttributeCertificate

end GridSecurity
