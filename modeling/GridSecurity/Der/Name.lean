import GridSecurity.Der.SetOf
import GridSecurity.Der.Value
import GridSecurity.Text.Utf8

/-!
# Names in the distinguished encoding

Attribute certificates name their issuers and holders by lists of general
names, of which a directory name is one kind.  Every type has the element that
encodes it and the reader that takes it from an element.
-/

namespace GridSecurity.Der

/-- A type and a value of any type. -/
structure TypeAndValue where
  type : Identifier
  value : Element
  deriving DecidableEq, Repr

namespace TypeAndValue

def ofFields? : List Element → Option TypeAndValue
  | [type, value] => do return ⟨← Identifier.ofElement? type, value⟩
  | _ => none

def toFields (pair : TypeAndValue) : List Element :=
  [pair.type.toElement, pair.value]

def ofElement? (element : Element) : Option TypeAndValue :=
  (sequence? element).bind ofFields?

def toElement (pair : TypeAndValue) : Element :=
  sequenceOf pair.toFields

def write (pair : TypeAndValue) : Octets :=
  pair.toElement.write

end TypeAndValue

/-- A relative name: a set of attributes. -/
abbrev RelativeForm := SetOf TypeAndValue.write

namespace RelativeForm

def ofFields? (fields : List Element) : Option RelativeForm := do
  SetOf.ofList? TypeAndValue.write (← fields.mapM TypeAndValue.ofElement?)

def toFields (relative : RelativeForm) : List Element :=
  relative.values.map TypeAndValue.toElement

def ofElement? (element : Element) : Option RelativeForm :=
  (element.children? setTag).bind ofFields?

def toElement (relative : RelativeForm) : Element :=
  .composite setTag isKnownTag_set (toFields relative)

end RelativeForm

/-- A directory name. -/
abbrev NameForm := List RelativeForm

namespace NameForm

def ofElement? (element : Element) : Option NameForm :=
  (sequence? element).bind fun fields => fields.mapM RelativeForm.ofElement?

def toElement (name : NameForm) : Element :=
  sequenceOf (name.map RelativeForm.toElement)

end NameForm

/-- The only one of some fields. -/
def onlyField? : List Element → Option Element
  | [inner] => some inner
  | _ => none

/-- The element inside an explicitly tagged one, which holds nothing else. -/
def explicit? (number : Nat) (element : Element) : Option Element :=
  (element.children? (contextCompositeTag number)).bind onlyField?

/-- The characters that a printable string may have. -/
def isPrintableOctet (octet : UInt8) : Bool :=
  let code := octet.toNat
  (48 ≤ code && code ≤ 57) || (65 ≤ code && code ≤ 90) || (97 ≤ code && code ≤ 122)
    || code ∈ [32, 39, 40, 41, 43, 44, 45, 46, 47, 58, 61, 63]

/-- The elements that hold a text of a directory. -/
def isDirectoryString (element : Element) : Bool :=
  if element.tag = printableStringTag then element.content.all isPrintableOctet
  else if element.tag = teletexStringTag then
    element.content.all fun octet => octet.toNat < 128
  else element.tag == utf8StringTag && (Utf8.decode? element.content).isSome

/-- A text of a directory, kept as its element. -/
structure DirectoryString where
  element : Element
  valid : isDirectoryString element = true
  deriving DecidableEq, Repr

def DirectoryString.ofElement? (element : Element) : Option DirectoryString :=
  if valid : isDirectoryString element = true then some ⟨element, valid⟩ else none

namespace DirectoryString

/-- The text in an explicitly tagged element. -/
def ofExplicit? (number : Nat) (element : Element) : Option DirectoryString :=
  (explicit? number element).bind ofElement?

end DirectoryString

/-- A name of another kind, which its type tells. -/
structure OtherName where
  type : Identifier
  value : Element
  deriving DecidableEq, Repr

namespace OtherName

def ofFields? : List Element → Option OtherName
  | [type, value] => do return ⟨← Identifier.ofElement? type, ← explicit? 0 value⟩
  | _ => none

def toFields (name : OtherName) : List Element :=
  [name.type.toElement,
    .composite (contextCompositeTag 0) isKnownTag_zero [name.value]]

end OtherName

/-- The name of a party and, optionally, who assigned it. -/
structure PartyName where
  assigner : Option DirectoryString
  name : DirectoryString
  deriving DecidableEq, Repr

namespace PartyName

def ofFields? (fields : List Element) : Option PartyName := do
  let (assigner, name?) ← Element.readTwo?
    (Element.takeTwo? (Element.takeContext 0) (Element.takeContext 1))
    (DirectoryString.ofExplicit? 0) (DirectoryString.ofExplicit? 1) fields
  return ⟨assigner, ← name?⟩

def toFields (party : PartyName) : List Element :=
  (party.assigner.map fun text =>
      Element.composite (contextCompositeTag 0) isKnownTag_zero [text.element]).toList
    ++ [.composite (contextCompositeTag 1) isKnownTag_one [party.name.element]]

end PartyName

/-- A name of one of several kinds. -/
inductive GeneralName
  | other (name : OtherName)
  | mail (address : AsciiText)
  | domain (name : AsciiText)
  | directory (name : NameForm)
  | party (name : PartyName)
  | uri (text : AsciiText)
  | address (octets : Octets)
  | registered (identifier : Identifier)

namespace GeneralName

/-- The number in the tag of each kind. -/
def otherNumber : Nat := 0
def mailNumber : Nat := 1
def domainNumber : Nat := 2
def directoryNumber : Nat := 4
def partyNumber : Nat := 5
def uriNumber : Nat := 6
def addressNumber : Nat := 7
def registeredNumber : Nat := 8

def otherOf? (element : Element) : Option OtherName :=
  (element.children? (contextCompositeTag otherNumber)).bind OtherName.ofFields?

def directoryOf? (element : Element) : Option NameForm :=
  (explicit? directoryNumber element).bind NameForm.ofElement?

def partyOf? (element : Element) : Option PartyName :=
  (element.children? (contextCompositeTag partyNumber)).bind PartyName.ofFields?

/-- The general name in an element; its tag tells the kind. -/
def ofElement? (element : Element) : Option GeneralName :=
  let ascii := AsciiText.ofOctets? element.content
  if element.tag = contextTag mailNumber then ascii.map .mail
  else if element.tag = contextTag domainNumber then ascii.map .domain
  else if element.tag = contextTag uriNumber then ascii.map .uri
  else if element.tag = contextTag addressNumber then some (.address element.content)
  else if element.tag = contextTag registeredNumber then
    (Identifier.ofContent? element.content).map .registered
  else if element.tag = contextCompositeTag otherNumber then
    (otherOf? element).map .other
  else if element.tag = contextCompositeTag directoryNumber then
    (directoryOf? element).map .directory
  else if element.tag = contextCompositeTag partyNumber then
    (partyOf? element).map .party
  else none

def toElement : GeneralName → Element
  | other name => .composite (contextCompositeTag otherNumber) rfl name.toFields
  | mail text => ⟨contextTag mailNumber, text.octets, rfl⟩
  | domain text => ⟨contextTag domainNumber, text.octets, rfl⟩
  | directory name =>
      .composite (contextCompositeTag directoryNumber) rfl [name.toElement]
  | party name => .composite (contextCompositeTag partyNumber) rfl name.toFields
  | uri text => ⟨contextTag uriNumber, text.octets, rfl⟩
  | address octets => ⟨contextTag addressNumber, octets, rfl⟩
  | registered identifier => ⟨contextTag registeredNumber, identifier.content, rfl⟩

end GeneralName

def GeneralName.directory? : GeneralName → Option NameForm
  | .directory name => some name
  | _ => none

/-- The text of a general name that is a uniform resource identifier. -/
def GeneralName.uri? : GeneralName → Option AsciiText
  | .uri text => some text
  | _ => none

/-- General names in order. -/
abbrev GeneralNames := List GeneralName

namespace GeneralNames

def ofTagged? (tag : UInt8) (element : Element) : Option GeneralNames :=
  (element.children? tag).bind fun fields => fields.mapM GeneralName.ofElement?

def toTagged (tag : UInt8) (known : isKnownTag tag = true) (names : GeneralNames) :
    Element :=
  .composite tag known (names.map GeneralName.toElement)

end GeneralNames

end GridSecurity.Der
