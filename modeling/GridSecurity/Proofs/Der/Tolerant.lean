import GridSecurity.Ber
import GridSecurity.Proofs.Der.Framing

/-!
# Distinguished encodings for the tolerant reader

The tolerant reader of certificates accepts many encodings of an element, and the one
of the distinguished encoding is among them: it reads the same content, and of the tag
the class, the form and the number.  So what was written element by element is read
element by element, up to the first that the reader of the items refuses.
-/

namespace GridSecurity

namespace Ber

/-- The tag in an octet that leaves room for its number. -/
def Tag.ofOctet (octet : UInt8) : Tag :=
  ⟨.ofIdentifier octet.toNat, octet.toNat / 32 % 2 == 1, octet.toNat % 32⟩

private theorem readTag_cons {octet : UInt8} (short : octet.toNat % 32 ≠ 31) (rest : Octets) :
    readTag (octet :: rest) = some (.ofOctet octet, rest) := by
  rw [readTag, if_neg short]
  rfl

theorem readWhile_of_none {α : Type} {readItem : Octets → Option (α × Octets)}
    {input : Octets} (refused : readItem input = none) :
    readWhile readItem input = ([], input) := by
  rw [readWhile, refused]

theorem readWhile_of_some {α : Type} {readItem : Octets → Option (α × Octets)}
    {input rest : Octets} {item : α} (found : readItem input = some (item, rest))
    (shorter : rest.length < input.length) :
    readWhile readItem input =
      (item :: (readWhile readItem rest).1, (readWhile readItem rest).2) := by
  rw [readWhile, found]
  exact if_pos shorter

end Ber

namespace Der

/-- The tags of the distinguished encoding have one octet. -/
private theorem number_ne_of_isKnownTag {tag : UInt8} (known : isKnownTag tag = true) :
    tag.toNat % 32 ≠ 31 := by
  unfold isKnownTag at known
  dsimp only at known
  split at known
  · simp only [decide_eq_true_eq, List.mem_cons, List.not_mem_nil, or_false] at known
    omega
  · simpa using known

/-! The tags that names are made of mean the same to both readers. -/

theorem number_sequenceTag : sequenceTag.toNat % 32 = Ber.sequenceNumber := by decide

theorem number_setTag : setTag.toNat % 32 = Ber.setNumber := by decide

theorem constructed_identifierTag : (Ber.Tag.ofOctet identifierTag).constructed = false := by
  decide

/-- The shortest form of a length is one of the forms of it. -/
theorem readLength_tolerant {length : Nat} (bounded : length ≤ longestLength)
    (rest : Octets) :
    Ber.readLength (lengthOctets length ++ rest) = some (length, rest) := by
  by_cases short : length < 0x80
  · have octet : (UInt8.ofNat length).toNat = length := by
      simp only [UInt8.toNat_ofNat']
      omega
    simp [lengthOctets, short, Ber.readLength, octet]
  · obtain ⟨count, positive, most, fits, form⟩ :=
      lengthOctets_long (Nat.le_of_not_lt short) bounded
    have first : (UInt8.ofNat (0x80 + count)).toNat = 0x80 + count := by
      simp only [UInt8.toNat_ofNat']
      omega
    have digits : Octets.take? count (Octets.ofNat count length ++ rest) =
        some (Octets.ofNat count length, rest) := by
      have taken := Octets.take?_append (Octets.ofNat count length) rest
      rwa [Octets.length_ofNat] at taken
    have small : length < 18446744073709551616 := by
      unfold longestLength at bounded
      omega
    rw [form, List.cons_append, Ber.readLength, first, if_neg (by omega), if_neg (by omega),
      Nat.add_sub_cancel_left, digits]
    simp [Octets.toNat_ofNat fits, small]

namespace Element

/-- The element as the tolerant reader shows it. -/
def toBer (element : Element) : Ber.Element :=
  ⟨.ofOctet element.tag, element.content⟩

variable {element : Element}

theorem readHeader_tolerant (fits : element.Fits) (rest : Octets) :
    Ber.readHeader (element.write ++ rest) =
      some (.ofOctet element.tag, element.content.length, element.content ++ rest) := by
  have framed : element.write ++ rest =
      element.tag :: (lengthOctets element.content.length ++ (element.content ++ rest)) := by
    simp [write]
  rw [framed, Ber.readHeader, Ber.readTag_cons (number_ne_of_isKnownTag element.known)]
  simp [readLength_tolerant fits]

theorem readElement_tolerant (fits : element.Fits) (rest : Octets) :
    Ber.readElement (element.write ++ rest) = some (element.toBer, rest) := by
  rw [Ber.readElement, readHeader_tolerant fits]
  simp [Octets.take?_append, toBer]

theorem readNumbered_tolerant (fits : element.Fits) (number : Nat)
    (numbered : element.number = number) (rest : Octets) :
    Ber.readNumbered number (element.write ++ rest) = some (element.toBer, rest) := by
  rw [Ber.readNumbered, readElement_tolerant fits]
  exact if_pos numbered

private theorem length_write_pos (element : Element) : 0 < element.write.length := by
  rw [length_write]
  omega

/-- Items are read from the elements that were written for them, and the first octets
behind these that are no item are left with all that follows. -/
theorem readWhile_tolerant {α β : Type} {readItem : Octets → Option (α × Octets)}
    {view : β → α} {encode : β → Element} {items : List β} {others : Octets}
    (each : ∀ item ∈ items, ∀ rest,
      readItem ((encode item).write ++ rest) = some (view item, rest))
    (refused : readItem others = none) :
    Ber.readWhile readItem (writeAll (items.map encode) ++ others) =
      (items.map view, others) := by
  induction items with
  | nil => exact Ber.readWhile_of_none refused
  | cons item items induction =>
      obtain ⟨here, later⟩ := List.forall_mem_cons.mp each
      have shorter : (writeAll (items.map encode) ++ others).length <
          ((encode item).write ++ (writeAll (items.map encode) ++ others)).length := by
        have occupied := (encode item).length_write_pos
        simp only [List.length_append]
        omega
      rw [List.map_cons, writeAll_cons, List.append_assoc,
        Ber.readWhile_of_some (here _) shorter, induction later]
      rfl

end Element

end Der

end GridSecurity
