import GridSecurity.Der.Value
import GridSecurity.Proofs.Der.Faithful
import Mathlib.Data.List.Induction

/-!
# Primitive values have one form

The readers of primitive values accept only what the writers produce, so each
of these values is written as it stood.
-/

namespace GridSecurity.Der

theorem Element.content?_eq_some_iff {tag : UInt8} {element : Element}
    {content : Octets} :
    element.content? tag = some content ↔
      element.tag = tag ∧ element.content = content := by
  simp [Element.content?]

/-- An element is told by its tag and its content. -/
private theorem Element.eq_of_content? {tag : UInt8} {known : isKnownTag tag = true}
    {element : Element} {content : Octets}
    (found : element.content? tag = some content) : ⟨tag, content, known⟩ = element := by
  obtain ⟨rfl, rfl⟩ := Element.content?_eq_some_iff.mp found
  rfl

/-! ## Identifiers, numbers and strings -/

theorem Identifier.content_of_ofContent? {content : Octets} {identifier : Identifier}
    (found : ofContent? content = some identifier) : identifier.content = content := by
  unfold ofContent? at found
  split at found
  · obtain rfl := Option.some.inj found
    rfl
  · cases found

theorem Identifier.faithful : Faithful ofElement? toElement fun _ => True := by
  apply Faithful.of_exact
  intro element identifier found
  obtain ⟨content, here, valid⟩ := Option.bind_eq_some_iff.mp found
  rw [toElement, content_of_ofContent? valid]
  exact Element.eq_of_content? here

theorem SerialContent.faithful : Faithful ofElement? toElement fun _ => True := by
  apply Faithful.of_exact
  intro element serial found
  simp only [ofElement?, Option.bind_eq_bind, Option.bind_eq_some_iff] at found
  obtain ⟨content, here, valid⟩ := found
  split at valid
  · obtain rfl := Option.some.inj valid
    exact Element.eq_of_content? here
  · cases valid

theorem smallNumber_faithful : Faithful smallNumber? smallNumber fun _ => True := by
  apply Faithful.of_exact
  intro element number found
  simp only [smallNumber?, Option.bind_eq_bind, Option.bind_eq_some_iff] at found
  obtain ⟨content, here, valid⟩ := found
  split at valid
  · next low =>
      split at valid
      · next small =>
          obtain rfl := Option.some.inj valid
          simp only [smallNumber, if_pos small]
          exact Element.eq_of_content? here
      · cases valid
  · next high low =>
      split at valid
      · next large =>
          obtain rfl := Option.some.inj valid
          simp only [smallNumber, if_neg (Nat.not_lt.mpr large.2)]
          rw [large.1] at here
          exact Element.eq_of_content? here
      · cases valid
  · cases valid

theorem boolean_faithful : Faithful boolean? boolean fun _ => True := by
  apply Faithful.of_exact
  intro element value found
  simp only [boolean?, Option.bind_eq_bind, Option.bind_eq_some_iff] at found
  obtain ⟨content, here, valid⟩ := found
  split at valid
  · next octet =>
      split at valid
      · next isFalse =>
          obtain rfl := Option.some.inj valid
          rw [isFalse] at here
          exact Element.eq_of_content? here
      · split at valid
        · next isTrue =>
            obtain rfl := Option.some.inj valid
            rw [isTrue] at here
            exact Element.eq_of_content? here
        · cases valid
  · cases valid

theorem octetString_faithful : Faithful octetString? octetString fun _ => True :=
  Faithful.of_exact fun _ _ found => Element.eq_of_content? found

theorem BitString.faithful : Faithful ofElement? toElement fun _ => True := by
  apply Faithful.of_exact
  intro element bits found
  simp only [ofElement?, Option.bind_eq_bind, Option.bind_eq_some_iff] at found
  obtain ⟨content, here, valid⟩ := found
  split at valid
  · cases valid
  · split at valid
    · obtain rfl := Option.some.inj valid
      exact Element.eq_of_content? here
    · cases valid

theorem AsciiText.octets_of_ofOctets? {octets : Octets} {text : AsciiText}
    (found : ofOctets? octets = some text) : text.octets = octets := by
  unfold ofOctets? at found
  split at found
  · obtain rfl := Option.some.inj found
    rfl
  · cases found

/-! ## Times -/

namespace Time

private theorem numberOfDigits?_append_singleton (octets : Octets) (last : UInt8) :
    numberOfDigits? (octets ++ [last]) =
      (numberOfDigits? octets).bind fun value =>
        if 48 ≤ last.toNat ∧ last.toNat ≤ 57 then some (value * 10 + (last.toNat - 48))
        else none := by
  simp [numberOfDigits?, List.foldlM_append]

/-- Decimal digits are those of the number that they write. -/
private theorem digits_of_numberOfDigits? {octets : Octets} {value : Nat}
    (found : numberOfDigits? octets = some value) :
    digits octets.length value = octets := by
  induction octets using List.reverseRecOn generalizing value with
  | nil => rfl
  | append_singleton octets last induction =>
      rw [numberOfDigits?_append_singleton] at found
      obtain ⟨front, here, last?⟩ := Option.bind_eq_some_iff.mp found
      simp only [Option.ite_none_right_eq_some, Option.some.injEq] at last?
      obtain ⟨⟨low, high⟩, rfl⟩ := last?
      have quotient : (front * 10 + (last.toNat - 48)) / 10 = front := by omega
      have remainder : 48 + (front * 10 + (last.toNat - 48)) % 10 = last.toNat := by omega
      rw [List.length_append, List.length_singleton, digits, quotient, remainder,
        induction here, UInt8.ofNat_toNat]

private theorem eq_of_readDigits {places value : Nat} {input rest : Octets}
    (found : readDigits places input = some (value, rest)) :
    input = digits places value ++ rest := by
  simp only [readDigits, Option.bind_eq_bind, Option.bind_eq_some_iff, Option.pure_def,
    Option.some.injEq, Prod.mk.injEq] at found
  obtain ⟨⟨octets, remaining⟩, taken, number, digitsRead, rfl, rfl⟩ := found
  obtain ⟨joined, rfl⟩ := take?_eq_some taken
  rw [digits_of_numberOfDigits? digitsRead]
  exact joined

/-- The parts of a second are the ones it was made from. -/
theorem parts_of_ofParts? {year : Int} {month day hour minute second : Nat}
    {dateTime : DateTime}
    (found : DateTime.ofParts? year month day hour minute second = some dateTime) :
    dateTime.date.year = year ∧ dateTime.date.month = month ∧ dateTime.date.day = day ∧
      dateTime.hour = hour ∧ dateTime.minute = minute ∧ dateTime.second = second := by
  simp only [DateTime.ofParts?, CalendarDate.ofParts?, Option.bind_eq_bind,
    Option.bind_eq_some_iff] at found
  obtain ⟨date, dateFound, timeFound⟩ := found
  split at dateFound
  · split at timeFound
    · obtain rfl := Option.some.inj dateFound
      obtain rfl := Option.some.inj timeFound
      exact ⟨rfl, rfl, rfl, rfl, rfl, rfl⟩
    · cases timeFound
  · cases dateFound

/-- A time is written as it stood. -/
theorem toElement_of_ofElement? {element : Element} {time : Time}
    (found : ofElement? element = some time) : time.toElement = element := by
  simp only [ofElement?, Option.bind_eq_bind, Option.bind_eq_some_iff] at found
  obtain ⟨content, here, ⟨year, afterYear⟩, yearRead, ⟨month, afterMonth⟩, monthRead,
    ⟨day, afterDay⟩, dayRead, ⟨hour, afterHour⟩, hourRead, ⟨minute, afterMinute⟩,
    minuteRead, ⟨second, ending⟩, secondRead, dateTime, parts, valid⟩ := found
  dsimp only at monthRead dayRead hourRead minuteRead secondRead parts valid
  split at valid
  · split at valid
    · next ended =>
        obtain rfl := Option.some.inj valid
        obtain ⟨sameYear, sameMonth, sameDay, sameHour, sameMinute, sameSecond⟩ :=
          parts_of_ofParts? parts
        have written := eq_of_readDigits yearRead
        rw [eq_of_readDigits monthRead, eq_of_readDigits dayRead,
          eq_of_readDigits hourRead, eq_of_readDigits minuteRead,
          eq_of_readDigits secondRead, ended] at written
        rw [written] at here
        simp only [toElement, sameYear, sameMonth, sameDay, sameHour, sameMinute,
          sameSecond, Int.toNat_natCast, List.append_assoc]
        exact Element.eq_of_content? here
    · cases valid
  · cases valid

theorem faithful : Faithful ofElement? toElement fun _ => True :=
  Faithful.of_exact fun _ _ found => toElement_of_ofElement? found

end Time

end GridSecurity.Der
