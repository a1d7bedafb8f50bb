import GridSecurity.Text.Split

/-!
# Fully qualified attribute names

A fully qualified attribute name is a path.  Its first segments name a group
of a virtual organisation; segments that begin with a key qualify it by a role
or a capability: `/atlas/production/Role=admin/Capability=NULL`.
-/

namespace GridSecurity

/-- A fully qualified attribute name, any text that an authority asserted. -/
structure Fqan where
  value : String
  deriving DecidableEq, Repr

/-- The characters before the first occurrence of a pattern. -/
def beforeFirst? (pattern : List Char) : List Char → Option (List Char)
  | [] => if pattern.isEmpty then some [] else none
  | character :: rest =>
      if pattern.isPrefixOf (character :: rest) then some []
      else (beforeFirst? pattern rest).map (character :: ·)

/-- What follows a key at the beginning of a text. -/
def afterKey? (key text : List Char) : Option (List Char) :=
  if key.isPrefixOf text then some (text.drop key.length) else none

namespace Fqan

def roleKey : List Char := "Role=".toList

def capabilityKey : List Char := "Capability=".toList

/-- The value that stands for the absence of a role or capability. -/
def absentValue : List Char := "NULL".toList

/-- The characters of the group: all before the first role, or before the
first capability of a name that has no role. -/
def groupChars (characters : List Char) : List Char :=
  ((beforeFirst? ('/' :: roleKey) characters).orElse fun _ =>
    beforeFirst? ('/' :: capabilityKey) characters).getD characters

/-- The value of the first segment that begins with a key, unless it is empty
or stands for absence. -/
def qualifierChars? (key characters : List Char) : Option (List Char) :=
  ((Text.splitAtEach (· == '/') characters).findSome? (afterKey? key)).filter fun value =>
    !value.isEmpty && value != absentValue

def group (fqan : Fqan) : String :=
  String.ofList (groupChars fqan.value.toList)

def role? (fqan : Fqan) : Option String :=
  (qualifierChars? roleKey fqan.value.toList).map String.ofList

def capability? (fqan : Fqan) : Option String :=
  (qualifierChars? capabilityKey fqan.value.toList).map String.ofList

end Fqan

end GridSecurity
