import GridSecurity.Octets

/-!
# Elements of the distinguished encoding

In the distinguished encoding a value has one form only.  An element is a tag
of one octet, a length in as few octets as possible, and the content.  A
composite value is decoded from the list of elements in its content and encoded
to such a list, so decoders never handle the octets around them.
-/

namespace GridSecurity.Der

/-- The tags that an element may have: those of the known universal types and,
in the other classes, those whose number fits into the tag. -/
def isKnownTag (tag : UInt8) : Bool :=
  let code := tag.toNat
  if code < 64 then
    code ∈ [0x01, 0x02, 0x03, 0x04, 0x05, 0x06, 0x09, 0x0a, 0x0c, 0x12, 0x13,
      0x14, 0x15, 0x16, 0x17, 0x18, 0x1a, 0x1e, 0x30, 0x31]
  else code % 32 != 31

structure Element where
  tag : UInt8
  content : Octets
  known : isKnownTag tag = true
  deriving DecidableEq, Repr

/-- The greatest length of a content. -/
def longestLength : Nat := 0x0fffffff

def lengthOctets (length : Nat) : Octets :=
  if length < 0x80 then [UInt8.ofNat length]
  else if length < 0x100 then 0x81 :: Octets.ofNat 1 length
  else if length < 0x10000 then 0x82 :: Octets.ofNat 2 length
  else if length < 0x1000000 then 0x83 :: Octets.ofNat 3 length
  else 0x84 :: Octets.ofNat 4 length

/-- The length at the front, in the only form that writes it. -/
def readLength : Octets → Option (Nat × Octets)
  | [] => none
  | first :: rest =>
      if first.toNat < 0x80 then some (first.toNat, rest)
      else do
        let (digits, following) ← Octets.take? (first.toNat - 0x80) rest
        let length := Octets.toNat digits
        if length ≤ longestLength ∧ lengthOctets length = first :: digits then
          some (length, following)
        else none

namespace Element

def write (element : Element) : Octets :=
  element.tag :: (lengthOctets element.content.length ++ element.content)

def writeAll (elements : List Element) : Octets :=
  elements.flatMap write

def read : Octets → Option (Element × Octets)
  | [] => none
  | tag :: afterTag =>
      if known : isKnownTag tag = true then do
        let (length, afterLength) ← readLength afterTag
        let (content, rest) ← Octets.take? length afterLength
        return (⟨tag, content, known⟩, rest)
      else none

end Element

/-- Taking octets from the front leaves the rest of the input. -/
theorem take?_eq_some {count : Nat} {input taken rest : Octets}
    (read : Octets.take? count input = some (taken, rest)) :
    input = taken ++ rest ∧ taken.length = count := by
  unfold Octets.take? at read
  split at read
  · next enough =>
      simp only [List.splitAt_eq, Option.some.injEq, Prod.mk.injEq] at read
      obtain ⟨rfl, rfl⟩ := read
      exact ⟨(List.take_append_drop count input).symm, by simp [enough]⟩
  · cases read

/-- Reading a length takes at least one octet. -/
theorem readLength_shorter {input rest : Octets} {length : Nat}
    (read : readLength input = some (length, rest)) :
    rest.length < input.length := by
  unfold readLength at read
  split at read
  · cases read
  · split at read
    · simp only [Option.some.injEq, Prod.mk.injEq] at read
      obtain ⟨_, rfl⟩ := read
      simp
    · simp only [Option.bind_eq_bind, Option.bind_eq_some_iff] at read
      obtain ⟨⟨digits, following⟩, taken, tested⟩ := read
      split at tested
      · simp only [Option.some.injEq, Prod.mk.injEq] at tested
        obtain ⟨_, rfl⟩ := tested
        rw [(take?_eq_some taken).1]
        simp only [List.length_cons, List.length_append]
        omega
      · cases tested

/-- Reading an element takes at least one octet. -/
theorem Element.read_shorter {input rest : Octets} {element : Element}
    (read : Element.read input = some (element, rest)) :
    rest.length < input.length := by
  unfold Element.read at read
  split at read
  · cases read
  · split at read
    · simp only [Option.bind_eq_bind, Option.bind_eq_some_iff] at read
      obtain ⟨⟨length, afterLength⟩, lengthRead, ⟨content, rest'⟩, taken, same⟩ := read
      simp only [Option.pure_def, Option.some.injEq, Prod.mk.injEq] at same
      obtain ⟨_, rfl⟩ := same
      have shorter := readLength_shorter lengthRead
      have split := congrArg List.length (take?_eq_some taken).1
      simp only [List.length_append] at split
      simp only [List.length_cons]
      omega
    · cases read

namespace Element

def readAll (input : Octets) : Option (List Element) :=
  if input.isEmpty then some []
  else
    match found : read input with
    | none => none
    | some (element, rest) =>
        have : rest.length < input.length := read_shorter found
        (readAll rest).map (element :: ·)
termination_by input.length

/-- The element that octets are, with nothing behind it.  Input as a whole may
not be longer than a content. -/
def ofOctets? (octets : Octets) : Option Element :=
  if octets.length ≤ longestLength then
    match read octets with
    | some (element, []) => some element
    | _ => none
  else none

/-- The octets of an element, unless they are longer than what can be read. -/
def encode? (element : Element) : Option Octets :=
  let octets := element.write
  if octets.length ≤ longestLength then some octets else none

/-- The elements in the content of a composite element with the given tag. -/
def children? (tag : UInt8) (element : Element) : Option (List Element) :=
  if element.tag = tag then readAll element.content else none

def content? (tag : UInt8) (element : Element) : Option Octets :=
  if element.tag = tag then some element.content else none

/-- The first of some fields, if it is accepted, and the others. -/
def takeIf (accepts : Element → Bool) : List Element → Option Element × List Element
  | [] => (none, [])
  | field :: fields =>
      if accepts field then (some field, fields) else (none, field :: fields)

def takeTagged (tag : UInt8) (fields : List Element) : Option Element × List Element :=
  takeIf (fun field => field.tag == tag) fields

def isContextSpecific (element : Element) : Bool :=
  element.tag.toNat / 64 == 2

def number (element : Element) : Nat :=
  element.tag.toNat % 32

def isContext (number : Nat) (element : Element) : Bool :=
  element.isContextSpecific && element.number == number

/-- The first of some fields, if it is context-specific with the given number,
and the others.  Context-specific fields with a lower number that stand before
it are passed over. -/
def takeContext (number : Nat) (fields : List Element) :
    Option Element × List Element :=
  takeIf (isContext number)
    (fields.dropWhile fun field =>
      field.isContextSpecific && decide (field.number < number))

/-- Two optional fields, each taken in its own way, if nothing follows them. -/
def takeTwo? (takeFirst takeSecond : List Element → Option Element × List Element)
    (fields : List Element) : Option (Option Element × Option Element) :=
  let (first?, afterFirst) := takeFirst fields
  let (second?, others) := takeSecond afterFirst
  if others.isEmpty then some (first?, second?) else none

/-- What two optional fields hold. -/
def readTwo? {α β : Type}
    (take : List Element → Option (Option Element × Option Element))
    (first : Element → Option α) (second : Element → Option β) (fields : List Element) :
    Option (Option α × Option β) := do
  let (first?, second?) ← take fields
  return (← first?.mapM first, ← second?.mapM second)

end Element

/-- The tags of the types that are used. -/
def booleanTag : UInt8 := 0x01
def integerTag : UInt8 := 0x02
def bitStringTag : UInt8 := 0x03
def octetStringTag : UInt8 := 0x04
def identifierTag : UInt8 := 0x06
def utf8StringTag : UInt8 := 0x0c
def printableStringTag : UInt8 := 0x13
def teletexStringTag : UInt8 := 0x14
def timeTag : UInt8 := 0x18
def sequenceTag : UInt8 := 0x30
def setTag : UInt8 := 0x31

/-- The tag of a primitive type with the given context-specific number. -/
def contextTag (number : Nat) : UInt8 := UInt8.ofNat (0x80 + number)

/-- The tag of a composite type with the given context-specific number. -/
def contextCompositeTag (number : Nat) : UInt8 := UInt8.ofNat (0xa0 + number)

/-! The tags of sequences, of sets and of the composites that wrap optional
fields are known. -/

theorem isKnownTag_sequence : isKnownTag sequenceTag = true := rfl

theorem isKnownTag_set : isKnownTag setTag = true := rfl

theorem isKnownTag_zero :
    isKnownTag (contextCompositeTag 0) = true := rfl

theorem isKnownTag_one :
    isKnownTag (contextCompositeTag 1) = true := rfl

/-- A composite element with the given tag. -/
def Element.composite (tag : UInt8) (known : isKnownTag tag = true)
    (fields : List Element) : Element :=
  ⟨tag, Element.writeAll fields, known⟩

def sequenceOf (elements : List Element) : Element :=
  .composite sequenceTag isKnownTag_sequence elements

def sequence? (element : Element) : Option (List Element) :=
  element.children? sequenceTag

end GridSecurity.Der
