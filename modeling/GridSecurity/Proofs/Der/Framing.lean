import GridSecurity.Der.Element
import Mathlib.Algebra.Group.Nat.Defs
import Mathlib.Data.List.Flatten

/-!
# One form for every element

An element has exactly one encoding.  Reading takes an element off the front of
some octets exactly when they begin with what writing produces for it, and a
content falls into elements exactly when it is their encodings one after the
other.  The only bound is the one on lengths, `Element.Fits`.
-/

namespace GridSecurity

namespace Octets

theorem length_ofNat (width value : Nat) : (ofNat width value).length = width := by
  induction width generalizing value with
  | zero => rfl
  | succ width induction => simp [ofNat, induction]

private theorem toNat_append_singleton (octets : Octets) (last : UInt8) :
    toNat (octets ++ [last]) = toNat octets * 256 + last.toNat := by
  simp [toNat]

/-- The digits of a number that has no more of them write the number. -/
theorem toNat_ofNat {width value : Nat} (bounded : value < 256 ^ width) :
    toNat (ofNat width value) = value := by
  induction width generalizing value with
  | zero =>
      have zero : value = 0 := by simpa using bounded
      simp [ofNat, toNat, zero]
  | succ width induction =>
      have quotient : value / 256 < 256 ^ width := by
        apply Nat.div_lt_of_lt_mul
        rw [Nat.pow_succ] at bounded
        omega
      rw [ofNat, toNat_append_singleton, induction quotient]
      have remainder : (UInt8.ofNat (value % 256)).toNat = value % 256 := by
        simp
      omega

theorem take?_append (taken rest : Octets) :
    take? taken.length (taken ++ rest) = some (taken, rest) := by
  simp [take?]

end Octets

namespace Der

/-! ## Lengths -/

/-- In the long form the first octet tells the number of digits. -/
theorem lengthOctets_long {length : Nat} (long : 0x80 ≤ length)
    (bounded : length ≤ longestLength) :
    ∃ count, 1 ≤ count ∧ count ≤ 4 ∧ length < 256 ^ count ∧
      lengthOctets length = UInt8.ofNat (0x80 + count) :: Octets.ofNat count length := by
  unfold longestLength at bounded
  unfold lengthOctets
  rw [if_neg (by omega)]
  split
  · exact ⟨1, by omega, by omega, by omega, rfl⟩
  · split
    · exact ⟨2, by omega, by omega, by omega, rfl⟩
    · split
      · exact ⟨3, by omega, by omega, by omega, rfl⟩
      · exact ⟨4, by omega, by omega, by omega, rfl⟩

/-- A length that is allowed is read back from the octets that write it. -/
private theorem readLength_lengthOctets {length : Nat} (bounded : length ≤ longestLength)
    (rest : Octets) :
    readLength (lengthOctets length ++ rest) = some (length, rest) := by
  by_cases short : length < 0x80
  · have octet : (UInt8.ofNat length).toNat = length := by
      simp only [UInt8.toNat_ofNat']
      omega
    simp [lengthOctets, short, readLength, octet]
  · obtain ⟨count, positive, most, fits, form⟩ :=
      lengthOctets_long (Nat.le_of_not_lt short) bounded
    have first : (UInt8.ofNat (0x80 + count)).toNat = 0x80 + count := by
      simp only [UInt8.toNat_ofNat']
      omega
    have digits : Octets.take? count (Octets.ofNat count length ++ rest) =
        some (Octets.ofNat count length, rest) := by
      have taken := Octets.take?_append (Octets.ofNat count length) rest
      rwa [Octets.length_ofNat] at taken
    rw [form, List.cons_append, readLength, if_neg (by rw [first]; omega), first,
      Nat.add_sub_cancel_left, digits]
    simp [Octets.toNat_ofNat fits, bounded, form]

/-- Only the octets that write a length are read as one. -/
private theorem eq_of_readLength {input rest : Octets} {length : Nat}
    (read : readLength input = some (length, rest)) :
    input = lengthOctets length ++ rest ∧ length ≤ longestLength := by
  unfold readLength at read
  split at read
  · cases read
  · next first following =>
      split at read
      · next short =>
          simp only [Option.some.injEq, Prod.mk.injEq] at read
          obtain ⟨rfl, rfl⟩ := read
          constructor
          · simp [lengthOctets, short]
          · unfold longestLength
            omega
      · simp only [Option.bind_eq_bind, Option.bind_eq_some_iff] at read
        obtain ⟨⟨digits, remaining⟩, taken, tested⟩ := read
        split at tested
        · next valid =>
            simp only [Option.some.injEq, Prod.mk.injEq] at tested
            obtain ⟨rfl, rfl⟩ := tested
            obtain ⟨joined, _⟩ := take?_eq_some taken
            exact ⟨by rw [valid.2, joined]; simp, valid.1⟩
        · cases tested

private theorem length_lengthOctets (length : Nat) :
    (lengthOctets length).length =
      if length < 0x80 then 1
      else if length < 0x100 then 2
      else if length < 0x10000 then 3
      else if length < 0x1000000 then 4
      else 5 := by
  unfold lengthOctets
  repeat' split
  all_goals simp [Octets.length_ofNat]

/-- A longer content never has a shorter length in front of it. -/
private theorem length_lengthOctets_mono {shorter longer : Nat} (le : shorter ≤ longer) :
    (lengthOctets shorter).length ≤ (lengthOctets longer).length := by
  rw [length_lengthOctets, length_lengthOctets]
  grind

namespace Element

/-! ## Single elements -/

/-- A content that is not longer than a length can tell. -/
def Fits (element : Element) : Prop :=
  element.content.length ≤ longestLength

private theorem read_write {element : Element} (fits : element.Fits) (rest : Octets) :
    read (element.write ++ rest) = some (element, rest) := by
  have length := readLength_lengthOctets fits (element.content ++ rest)
  simp [write, read, element.known, length, Octets.take?_append]

private theorem eq_of_read {input rest : Octets} {element : Element}
    (found : read input = some (element, rest)) :
    input = element.write ++ rest ∧ element.Fits := by
  unfold read at found
  split at found
  · cases found
  · next tag afterTag =>
      split at found
      · simp only [Option.bind_eq_bind, Option.bind_eq_some_iff] at found
        obtain ⟨⟨length, afterLength⟩, lengthRead, ⟨content, following⟩, taken, same⟩ :=
          found
        simp only [Option.pure_def, Option.some.injEq, Prod.mk.injEq] at same
        obtain ⟨rfl, rfl⟩ := same
        obtain ⟨framed, bounded⟩ := eq_of_readLength lengthRead
        obtain ⟨rfl, rfl⟩ := take?_eq_some taken
        exact ⟨by simp [write, framed], bounded⟩
      · cases found

theorem length_write (element : Element) :
    element.write.length =
      1 + (lengthOctets element.content.length).length + element.content.length := by
  simp only [write, List.length_cons, List.length_append]
  omega

/-- Elements that fit are told by their encodings. -/
theorem eq_of_write_eq {left right : Element} (leftFits : left.Fits)
    (rightFits : right.Fits) (same : left.write = right.write) : left = right := by
  have leftRead := read_write leftFits []
  rw [same, read_write rightFits []] at leftRead
  exact (Prod.mk.inj (Option.some.inj leftRead)).1.symm

theorem length_write_mono {shorter longer : Element}
    (le : shorter.content.length ≤ longer.content.length) :
    shorter.write.length ≤ longer.write.length := by
  have lengths := length_lengthOctets_mono le
  rw [length_write, length_write]
  omega

theorem fits_of_length_write {element : Element}
    (bounded : element.write.length ≤ longestLength) : element.Fits := by
  rw [length_write] at bounded
  unfold Fits
  omega

/-- Reading accepts exactly what writing produces. -/
theorem ofOctets?_eq_some_iff {octets : Octets} {element : Element} :
    ofOctets? octets = some element ↔ element.encode? = some octets := by
  unfold ofOctets? encode?
  constructor
  · intro found
    split at found
    · next bounded =>
        split at found
        · next readElement =>
            obtain rfl := Option.some.inj found
            obtain ⟨rfl, _⟩ := eq_of_read readElement
            simpa using bounded
        · cases found
    · cases found
  · intro written
    simp only [Option.ite_none_right_eq_some, Option.some.injEq] at written
    obtain ⟨bounded, rfl⟩ := written
    have found := read_write (fits_of_length_write bounded) []
    rw [List.append_nil] at found
    simp [bounded, found]

theorem encode?_eq_some_iff {octets : Octets} {element : Element} :
    element.encode? = some octets ↔
      element.write = octets ∧ octets.length ≤ longestLength := by
  unfold encode?
  simp only [Option.ite_none_right_eq_some, Option.some.injEq]
  constructor
  · rintro ⟨bounded, rfl⟩
    exact ⟨rfl, bounded⟩
  · rintro ⟨rfl, bounded⟩
    exact ⟨bounded, rfl⟩

/-! ## Lists of elements -/

@[simp] theorem writeAll_nil : writeAll [] = [] := rfl

@[simp] theorem writeAll_cons (element : Element) (elements : List Element) :
    writeAll (element :: elements) = element.write ++ writeAll elements := rfl

@[simp] theorem writeAll_append (front back : List Element) :
    writeAll (front ++ back) = writeAll front ++ writeAll back :=
  List.flatMap_append

theorem length_write_le_writeAll {element : Element} {elements : List Element}
    (member : element ∈ elements) :
    element.write.length ≤ (writeAll elements).length := by
  obtain ⟨front, back, rfl⟩ := List.append_of_mem member
  simp only [writeAll_append, writeAll_cons, List.length_append]
  omega

private theorem write_infix_writeAll {element : Element} {elements : List Element}
    (member : element ∈ elements) : element.write <:+: writeAll elements := by
  obtain ⟨front, back, rfl⟩ := List.append_of_mem member
  exact ⟨writeAll front, writeAll back, by simp⟩

/-- The length of encodings one after the other does not depend on their
order. -/
theorem length_writeAll_perm {left right : List Element} (same : left.Perm right) :
    (writeAll left).length = (writeAll right).length := by
  unfold writeAll
  exact (same.flatMap_right write).length_eq

theorem length_writeAll_sublist {part whole : List Element}
    (within : part.Sublist whole) :
    (writeAll part).length ≤ (writeAll whole).length :=
  (within.flatMap write).length_le

private theorem readAll_eq (input : Octets) :
    readAll input =
      if input.isEmpty then some []
      else (read input).bind fun (element, rest) => (readAll rest).map (element :: ·) := by
  rw [readAll]
  split
  · rfl
  · split
    · next absent => simp [absent]
    · next found => simp [found]

private theorem readAll_writeAll {elements : List Element}
    (fit : ∀ element ∈ elements, element.Fits) :
    readAll (writeAll elements) = some elements := by
  induction elements with
  | nil => simp [readAll_eq]
  | cons element elements induction =>
      have here := read_write (fit element (by simp)) (writeAll elements)
      have later := induction fun other member => fit other (by simp [member])
      have occupied : (element.write ++ writeAll elements).isEmpty = false := rfl
      rw [writeAll_cons, readAll_eq]
      simp [occupied, here, later]

private theorem eq_of_readAll {input : Octets} {elements : List Element}
    (found : readAll input = some elements) :
    input = writeAll elements ∧ ∀ element ∈ elements, element.Fits := by
  induction elements generalizing input with
  | nil =>
      rw [readAll_eq] at found
      split at found
      · next empty => exact ⟨by simpa using empty, by simp⟩
      · simp [Option.bind_eq_some_iff] at found
  | cons element elements induction =>
      rw [readAll_eq] at found
      split at found
      · cases found
      · simp only [Option.bind_eq_some_iff, Option.map_eq_some_iff, List.cons.injEq] at found
        obtain ⟨⟨first, rest⟩, here, others, later, rfl, rfl⟩ := found
        obtain ⟨rfl, fits⟩ := eq_of_read here
        obtain ⟨rfl, fit⟩ := induction later
        refine ⟨by simp, ?_⟩
        simpa using ⟨fits, fit⟩

/-- A content falls into elements in one way only. -/
theorem children?_eq_some_iff {tag : UInt8} {element : Element}
    {fields : List Element} :
    element.children? tag = some fields ↔
      element.tag = tag ∧ element.content = writeAll fields ∧
        ∀ field ∈ fields, field.Fits := by
  unfold children?
  constructor
  · intro found
    simp only [Option.ite_none_right_eq_some] at found
    obtain ⟨tagged, found⟩ := found
    obtain ⟨joined, fit⟩ := eq_of_readAll found
    exact ⟨tagged, joined, fit⟩
  · rintro ⟨tagged, joined, fit⟩
    rw [if_pos tagged, joined, readAll_writeAll fit]

@[simp] theorem composite_tag {tag : UInt8} {known : isKnownTag tag = true}
    {fields : List Element} : (composite tag known fields).tag = tag := rfl

@[simp] theorem composite_content {tag : UInt8} {known : isKnownTag tag = true}
    {fields : List Element} :
    (composite tag known fields).content = writeAll fields := rfl

theorem children?_composite {tag : UInt8} {known : isKnownTag tag = true}
    {fields : List Element} (fit : ∀ field ∈ fields, field.Fits) :
    (composite tag known fields).children? tag = some fields :=
  children?_eq_some_iff.mpr ⟨rfl, rfl, fit⟩

/-- An element whose content falls into fields is the composite of them. -/
theorem eq_composite_of_children? {tag : UInt8} {known : isKnownTag tag = true}
    {element : Element} {fields : List Element}
    (found : element.children? tag = some fields) :
    element = composite tag known fields := by
  obtain ⟨tagged, joined, _⟩ := children?_eq_some_iff.mp found
  cases element
  simp only at tagged joined
  subst tagged joined
  rfl

/-- The elements in a content, none if it does not fall into elements. -/
def parts (element : Element) : List Element :=
  (readAll element.content).getD []

/-- The encoding of a part stands in the encoding of the whole. -/
theorem write_infix_of_children? {tag : UInt8} {element field : Element}
    {fields : List Element} (found : element.children? tag = some fields)
    (member : field ∈ fields) : field.write <:+: element.write := by
  obtain ⟨_, joined, _⟩ := children?_eq_some_iff.mp found
  have inContent : element.content <:+: element.write :=
    ⟨element.tag :: lengthOctets element.content.length, [], by simp [write]⟩
  rw [joined] at inContent
  exact (write_infix_writeAll member).trans inContent

theorem parts_of_children? {tag : UInt8} {element : Element} {fields : List Element}
    (found : element.children? tag = some fields) : element.parts = fields := by
  obtain ⟨_, joined, fit⟩ := children?_eq_some_iff.mp found
  rw [parts, joined, readAll_writeAll fit]
  rfl

end Element

end Der

end GridSecurity
