import GridSecurity.Ber
import GridSecurity.Fault
import GridSecurity.Name
import GridSecurity.Text.Utf8

/-!
# Reading distinguished names

A name is read tolerantly: reading stops without an error at the first
relative name that has no readable attribute, and inside a relative name at
the first attribute that is not readable.  The encoding that is kept ends
where reading stopped.  What was read are types and values; the name shows a
text for each of them.
-/

namespace GridSecurity

namespace Identifier

/-- The arcs of an identifier, each in groups of seven bits of which the last
one is marked.  A last arc without a marked group counts as it stands. -/
def arcs (unfinished : Bool) (value : Nat) : Octets → List Nat
  | [] => if unfinished then [value] else []
  | octet :: rest =>
      let extended := value * 128 + octet.toNat % 128
      if octet.toNat < 128 then extended :: arcs false 0 rest
      else arcs true extended rest

/-- The numbers of an identifier's content: the first octet gives two, except
that an octet zero on its own gives one. -/
def numbers : Octets → List Nat
  | [] => []
  | [first] => if first == 0 then [0] else [first.toNat / 40, first.toNat % 40]
  | first :: rest => first.toNat / 40 :: first.toNat % 40 :: arcs false 0 rest

/-- The numbers of an identifier's content with points between them. -/
def dotted (content : Octets) : String :=
  ".".intercalate ((numbers content).map Nat.repr)

end Identifier

/-- The attribute types that have a short name. -/
def shortNames : List (String × String) := [
  ("2.5.4.3", "CN"),
  ("2.5.4.5", "SERIALNUMBER"),
  ("2.5.4.6", "C"),
  ("2.5.4.7", "L"),
  ("2.5.4.8", "ST"),
  ("2.5.4.9", "STREET"),
  ("2.5.4.10", "O"),
  ("2.5.4.11", "OU"),
  ("0.9.2342.19200300.100.1.1", "UID"),
  ("0.9.2342.19200300.100.1.25", "DC"),
  ("1.2.840.113549.1.9.1", "EMAILADDRESS")]

/-- The short name of an attribute type, or its dotted text. -/
def shortNameOf (identifier : String) : String :=
  (shortNames.lookup identifier).getD identifier

/-- The tag numbers whose content is text. -/
def isTextNumber (number : Nat) : Bool :=
  number ∈ [Ber.utf8StringNumber, Ber.numericStringNumber,
    Ber.printableStringNumber, Ber.ia5StringNumber]

/-- The text of an attribute type, given the content of its identifier. -/
def typeText (content : Octets) : String :=
  shortNameOf (Identifier.dotted content)

/-- The text of a value, if its tag is one of text and its content valid. -/
def textOfValue? (value : Ber.Element) : Option String :=
  if isTextNumber value.tag.number then Utf8.text? value.content else none

/-- The text of a value, or a number sign and the digits of its content. -/
def nameValue (value : Ber.Element) : String :=
  (textOfValue? value).getD ("#" ++ Octets.hex value.content)

/-- A type, by the content of its identifier, and a value as they are encoded. -/
structure EncodedAttribute where
  type : Octets
  value : Ber.Element
  deriving DecidableEq, Repr

abbrev EncodedRelativeName := List EncodedAttribute

abbrev EncodedName := List EncodedRelativeName

namespace EncodedAttribute

/-- The attribute at the front: a type and a value, whatever follows them
inside the sequence. -/
def read (input : Octets) : Option (EncodedAttribute × Octets) := do
  let (element, rest) ← Ber.readNumbered Ber.sequenceNumber input
  let (type, afterType) ← Ber.readIdentifier element.content
  let (value, _) ← Ber.readElement afterType
  return (⟨type, value⟩, rest)

/-- The texts that stand for a type and a value. -/
def shown (encoded : EncodedAttribute) : NameAttribute :=
  ⟨typeText encoded.type, nameValue encoded.value⟩

end EncodedAttribute

namespace EncodedRelativeName

def read (input : Octets) : Option (EncodedRelativeName × Octets) := do
  let (element, rest) ← Ber.readNumbered Ber.setNumber input
  match (Ber.readWhile EncodedAttribute.read element.content).1 with
  | [] => none
  | attributes => some (attributes, rest)

def shown (encoded : EncodedRelativeName) : RelativeName :=
  ⟨encoded.map EncodedAttribute.shown⟩

end EncodedRelativeName

namespace EncodedName

/-- The types and values of the name at the front, and the input up to the
octet where the reading of relative names stopped. -/
def read (input : Octets) : Option ((EncodedName × Octets) × Octets) := do
  let (tag, length, afterHeader) ← Ber.readHeader input
  let (content, rest) ← Octets.take? length afterHeader
  if tag.number = Ber.sequenceNumber then
    let (relativeNames, unread) := Ber.readWhile EncodedRelativeName.read content
    let encoding := input.take (input.length - rest.length - unread.length)
    some ((relativeNames, encoding), rest)
  else none

def shown (encoded : EncodedName) : List RelativeName :=
  encoded.map EncodedRelativeName.shown

end EncodedName

namespace DistinguishedName

/-- The name at the front, shown by texts. -/
def read (input : Octets) : Option (DistinguishedName × Octets) := do
  let ((encoded, encoding), rest) ← EncodedName.read input
  return (⟨encoded.shown, encoding⟩, rest)

def ofOctets (octets : Octets) : Except CertificateFault DistinguishedName :=
  match read octets with
  | some (name, _) => .ok name
  | none => .error .unreadableName

end DistinguishedName

end GridSecurity
