/-!
# Distinguished names

A distinguished name is a list of relative names in encoding order, the most
significant first.  Two texts are written from it: the readable form, which
begins with the least significant relative name and escapes what separates
its parts, and the slash form, which keeps the order and escapes nothing.
-/

namespace GridSecurity

/-- One type and value inside a relative name.  The type is a short name or
the dotted text of an object identifier that has none. -/
structure NameAttribute where
  shortName : String
  value : String
  deriving DecidableEq, Repr

/-- A relative name with all of its attributes in order. -/
structure RelativeName where
  attributes : List NameAttribute
  deriving DecidableEq, Repr

/-- A distinguished name together with the octets it was read from, which are
empty for a name that was built from its parts. -/
structure DistinguishedName where
  relativeNames : List RelativeName
  encoding : List UInt8 := []
  deriving DecidableEq, Repr

/-- The characters that separate the parts of the readable form or begin an
escape in it. -/
def isNameDelimiter (character : Char) : Bool :=
  character ∈ [',', '+', '"', '\\', '<', '>', ';']

/-- Writes a value with a backslash before every delimiter, before a number
sign or a blank at its beginning and before a blank at its end. -/
def escapeNameValue (atStart : Bool) : List Char → List Char
  | [] => []
  | character :: rest =>
      let escaped := isNameDelimiter character
        || (atStart && (character == '#' || character == ' '))
        || (rest.isEmpty && character == ' ')
      if escaped then '\\' :: character :: escapeNameValue false rest
      else character :: escapeNameValue false rest

namespace NameAttribute

/-- Type, equality sign and value, the value written by the given function. -/
def render (writeValue : List Char → List Char) (nameAttribute : NameAttribute) :
    List Char :=
  nameAttribute.shortName.toList ++ '=' :: writeValue nameAttribute.value.toList

end NameAttribute

namespace RelativeName

def single (shortName value : String) : RelativeName :=
  ⟨[⟨shortName, value⟩]⟩

/-- The attributes in order with plus signs between them. -/
def render (writeValue : List Char → List Char) (relativeName : RelativeName) :
    List Char :=
  ['+'].intercalate (relativeName.attributes.map (·.render writeValue))

end RelativeName

namespace DistinguishedName

/-- Two names are the same when their attributes are, however they were
encoded. -/
def Same (left right : DistinguishedName) : Prop :=
  left.relativeNames = right.relativeNames

instance (left right : DistinguishedName) : Decidable (Same left right) :=
  inferInstanceAs (Decidable (left.relativeNames = right.relativeNames))

def readableChars (name : DistinguishedName) : List Char :=
  [','].intercalate
    (name.relativeNames.reverse.map (·.render (escapeNameValue true)))

/-- The readable form: `CN=alice,O=Grid`. -/
def readable (name : DistinguishedName) : String :=
  String.ofList name.readableChars

def slashedChars (name : DistinguishedName) : List Char :=
  name.relativeNames.flatMap fun relativeName => '/' :: relativeName.render id

/-- The slash form: `/O=Grid/CN=alice`. -/
def slashed (name : DistinguishedName) : String :=
  String.ofList name.slashedChars

/-- The value of the first common name in the most specific relative name
that has one. -/
def commonName? (name : DistinguishedName) : Option String :=
  ((name.relativeNames.reverse.flatMap (·.attributes)).find?
    (·.shortName == "CN")).map (·.value)

def lastRelativeName? (name : DistinguishedName) : Option RelativeName :=
  name.relativeNames.getLast?

/-- A name extends another one when it is that one followed by exactly one
relative name. -/
def Extends (name parent : DistinguishedName) : Prop :=
  name.relativeNames.length = parent.relativeNames.length + 1
    ∧ name.relativeNames.take parent.relativeNames.length = parent.relativeNames

instance (name parent : DistinguishedName) : Decidable (Extends name parent) :=
  inferInstanceAs (Decidable (_ ∧ _))

end DistinguishedName

end GridSecurity
