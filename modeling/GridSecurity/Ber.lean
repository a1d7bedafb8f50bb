import GridSecurity.Octets

/-!
# Tagged elements with definite lengths

Certificates are read in a tolerant way.  An element is a tag of one or more
octets, a length that need not be as short as possible, and its content.  Of a
tag most readers look only at the number.  A reader takes octets from the front
and returns its value with what follows.
-/

namespace GridSecurity.Ber

/-- What an element's tag says about where its number has a meaning. -/
inductive TagClass
  | universal
  | application
  | contextSpecific
  | isPrivate
  deriving DecidableEq, Repr

/-- The two high bits of an identifier octet. -/
def TagClass.ofIdentifier (identifier : Nat) : TagClass :=
  match identifier / 64 with
  | 0 => .universal
  | 1 => .application
  | 2 => .contextSpecific
  | _ => .isPrivate

structure Tag where
  tagClass : TagClass
  constructed : Bool
  number : Nat
  deriving DecidableEq, Repr

/-- An element with its content. -/
structure Element where
  tag : Tag
  content : Octets
  deriving DecidableEq, Repr

/-- Tag numbers of the universal class. -/
def booleanNumber : Nat := 1
def integerNumber : Nat := 2
def bitStringNumber : Nat := 3
def octetStringNumber : Nat := 4
def utf8StringNumber : Nat := 12
def sequenceNumber : Nat := 16
def setNumber : Nat := 17
def numericStringNumber : Nat := 18
def printableStringNumber : Nat := 19
def ia5StringNumber : Nat := 22
def utcTimeNumber : Nat := 23
def generalizedTimeNumber : Nat := 24

/-- The tag number that follows an identifier octet with all number bits set:
groups of seven bits, of which at most the given number is read and the low 32
bits of the value are kept. -/
def readLongTagNumber : (groups value : Nat) → Octets → Option (Nat × Octets)
  | 0, _, _ => none
  | _ + 1, _, [] => none
  | groups + 1, value, octet :: rest =>
      let extended := value * 128 % 4294967296 + octet.toNat % 128
      if octet.toNat < 128 then some (extended, rest)
      else readLongTagNumber groups extended rest

def readTag : Octets → Option (Tag × Octets)
  | [] => none
  | first :: rest =>
      let identifier := first.toNat
      let tagClass := TagClass.ofIdentifier identifier
      let constructed := identifier / 32 % 2 == 1
      if identifier % 32 = 31 then do
        let (number, following) ← readLongTagNumber 5 0 rest
        return (⟨tagClass, constructed, number⟩, following)
      else some (⟨tagClass, constructed, identifier % 32⟩, rest)

/-- A length in at most 126 octets, of which all but the last eight are
zero. -/
def readLength : Octets → Option (Nat × Octets)
  | [] => none
  | first :: rest =>
      let form := first.toNat
      if form < 128 then some (form, rest)
      else if form = 128 ∨ form = 255 then none
      else do
        let (digits, following) ← Octets.take? (form - 128) rest
        let length := Octets.toNat digits
        if length < 18446744073709551616 then some (length, following) else none

def readHeader (input : Octets) : Option (Tag × Nat × Octets) := do
  let (tag, afterTag) ← readTag input
  let (length, rest) ← readLength afterTag
  return (tag, length, rest)

def readElement (input : Octets) : Option (Element × Octets) := do
  let (tag, length, afterHeader) ← readHeader input
  let (content, rest) ← Octets.take? length afterHeader
  return (⟨tag, content⟩, rest)

/-- The element at the front, if its tag has the given number. -/
def readNumbered (number : Nat) (input : Octets) : Option (Element × Octets) := do
  let (element, rest) ← readElement input
  if element.tag.number = number then some (element, rest) else none

/-- The values read one after the other until a reader fails, and what
follows the last of them. -/
def readWhile {α : Type} (readItem : Octets → Option (α × Octets))
    (input : Octets) : List α × Octets :=
  match readItem input with
  | none => ([], input)
  | some (item, rest) =>
      if rest.length < input.length then
        let (items, remaining) := readWhile readItem rest
        (item :: items, remaining)
      else ([], input)
termination_by input.length

/-- An object identifier under any tag of the primitive form. -/
def readIdentifier (input : Octets) : Option (Octets × Octets) := do
  let (element, rest) ← readElement input
  if element.tag.constructed then none else some (element.content, rest)

/-- The bits of the last octet that do not belong to a bit string are at most
seven and zero, and a bit string without octets has none. -/
def areUnusedBitsZero (unused : UInt8) (octets : Octets) : Bool :=
  match octets.getLast? with
  | none => unused == 0
  | some last => unused.toNat ≤ 7 && last.toNat % Nat.pow 2 unused.toNat == 0

/-- A bit string without the octet that counts its unused bits. -/
def readBitString (input : Octets) : Option (Octets × Octets) := do
  let (element, rest) ← readNumbered bitStringNumber input
  match element.content with
  | [] => none
  | unused :: octets =>
      if !element.tag.constructed && areUnusedBitsZero unused octets then
        some (octets, rest)
      else none

/-- An unsigned number of at most 32 bits in the shortest form. -/
def readUnsigned32 (input : Octets) : Option (Nat × Octets) := do
  let (element, rest) ← readNumbered integerNumber input
  if element.tag.constructed then none
  else
    match element.content with
    | [] => none
    | first :: following =>
        let paddedZero := first == 0 &&
          match following with
          | second :: _ => second.toNat < 128
          | [] => false
        let value := Octets.toNat element.content
        if 128 ≤ first.toNat ∨ paddedZero ∨ 4294967296 ≤ value then none
        else some (value, rest)

end GridSecurity.Ber
