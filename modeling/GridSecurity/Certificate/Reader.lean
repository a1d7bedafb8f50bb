import GridSecurity.Certificate
import GridSecurity.Certificate.Time
import GridSecurity.Digest.Sha2
import GridSecurity.Name.Reader

/-!
# Reading certificates

A certificate is read tolerantly.  What a later part of the library does not
use is skipped as long as its elements are where they belong: signature values
are not checked, and an extension that cannot be understood does no harm.
-/

namespace GridSecurity.Certificate

/-- The extension that carries attribute certificates. -/
def vomsExtensionType : String := "1.3.6.1.4.1.8005.100.100.5"

/-- The standard extension of proxy certificates. -/
def proxyInfoType : String := "1.3.6.1.5.5.7.1.14"

/-- The extension of proxy certificates that preceded the standard one. -/
def draftProxyInfoType : String := "1.3.6.1.4.1.3536.1.222"

/-- The extension that tells authorities from other certificates. -/
def basicConstraintsIdentifier : Octets := [0x55, 0x1d, 0x13]

/-- An extension: the octets of its type and its value. -/
structure ExtensionField where
  identifier : Octets
  value : Octets

def ExtensionField.type (extension : ExtensionField) : String :=
  Identifier.dotted extension.identifier

/-- The parts of a certificate before they are interpreted. -/
structure Fields where
  serialContent : Octets
  issuer : DistinguishedName
  notBefore : Int
  notAfter : Int
  subject : DistinguishedName
  keyParameter : Option String
  publicKey : Octets
  extensions : List ExtensionField

/-- Skips an element with the given number of the context-specific class in
front, whose content another reader accepts. -/
def skipOptional (number : Nat) (accepts : Octets → Bool) (input : Octets) :
    Option Octets :=
  if input.isEmpty then some input
  else do
    let (element, rest) ← Ber.readElement input
    if element.tag.number = number then
      if element.tag.tagClass = .contextSpecific ∧ accepts element.content then
        some rest
      else none
    else some input

/-- An algorithm at the front: the dotted text of its parameters read as an
identifier, if it has any. -/
def readAlgorithm (input : Octets) : Option (Option String × Octets) := do
  let (element, rest) ← Ber.readNumbered Ber.sequenceNumber input
  let (_, afterType) ← Ber.readIdentifier element.content
  if afterType.isEmpty then some (none, rest)
  else
    let (parameter, _) ← Ber.readElement afterType
    return (some (Identifier.dotted parameter.content), rest)

/-- The parameter and the bits of the public key at the front. -/
def readPublicKey (input : Octets) : Option ((Option String × Octets) × Octets) := do
  let (element, rest) ← Ber.readNumbered Ber.sequenceNumber input
  let (parameter, afterAlgorithm) ← readAlgorithm element.content
  let (key, _) ← Ber.readBitString afterAlgorithm
  return ((parameter, key), rest)

def readValidity (input : Octets) : Option ((Int × Int) × Octets) := do
  let (element, rest) ← Ber.readNumbered Ber.sequenceNumber input
  let (notBefore, afterFirst) ← CertificateTime.read element.content
  let (notAfter, _) ← CertificateTime.read afterFirst
  return ((notBefore, notAfter), rest)

/-- Skips a truth value of one octet in front, if there is one. -/
def skipBoolean (input : Octets) : Octets :=
  match Ber.readNumbered Ber.booleanNumber input with
  | some (element, rest) => if element.content.length = 1 then rest else input
  | none => input

def readExtension (input : Octets) : Option (ExtensionField × Octets) := do
  let (element, rest) ← Ber.readNumbered Ber.sequenceNumber input
  let (identifier, afterType) ← Ber.readIdentifier element.content
  let (value, _) ← Ber.readNumbered Ber.octetStringNumber (skipBoolean afterType)
  if value.tag.constructed then none
  else some (⟨identifier, value.content⟩, rest)

/-- All extensions: nothing, or one element that wraps a sequence of
extensions and leaves no octet over. -/
def readExtensions (input : Octets) : Option (List ExtensionField) :=
  if input.isEmpty then some []
  else do
    let (tag, _, wrapped) ← Ber.readHeader input
    let (sequence, rest) ← Ber.readNumbered Ber.sequenceNumber wrapped
    let (extensions, unread) := Ber.readWhile readExtension sequence.content
    if tag.number = 3 ∧ rest.isEmpty ∧ unread.isEmpty then some extensions
    else none

/-- The parts that the issuer signed. -/
def readFields (input : Octets) : Option Fields := do
  let afterVersion ←
    skipOptional 0 (fun content => (Ber.readUnsigned32 content).isSome) input
  let (serial, afterSerial) ← Ber.readNumbered Ber.integerNumber afterVersion
  let (_, afterAlgorithm) ← readAlgorithm afterSerial
  let (issuer, afterIssuer) ← DistinguishedName.read afterAlgorithm
  let ((notBefore, notAfter), afterValidity) ← readValidity afterIssuer
  let (subject, afterSubject) ← DistinguishedName.read afterValidity
  let ((keyParameter, publicKey), afterKey) ← readPublicKey afterSubject
  let acceptsBits := fun content => (Ber.readBitString content).isSome
  let afterIssuerId ← skipOptional 1 acceptsBits afterKey
  let afterSubjectId ← skipOptional 2 acceptsBits afterIssuerId
  let extensions ← readExtensions afterSubjectId
  return {
    serialContent := serial.content
    issuer, notBefore, notAfter, subject, keyParameter, publicKey, extensions }

/-- An element of the universal class has the form that its number asks for:
marks of the end and null values are empty, truth values have one octet,
sequences and sets are composed of elements, and all else is in one piece. -/
def hasUsualForm (element : Ber.Element) : Bool :=
  element.tag.tagClass != .universal ||
    match element.tag.number with
    | 0 | 5 => element.content.isEmpty
    | 1 => element.content.length == 1
    | 3 | 6 => !element.tag.constructed && !element.content.isEmpty
    | 16 | 17 => element.tag.constructed
    | _ => !element.tag.constructed

/-- The element at the front, if it has its usual form. -/
def readUsual (input : Octets) : Option (Ber.Element × Octets) := do
  let (element, rest) ← Ber.readElement input
  if hasUsualForm element then some (element, rest) else none

/-- A truth value that is not zero. -/
def isTrue (element : Ber.Element) : Bool :=
  element.tag.tagClass == .universal && element.tag.number == Ber.booleanNumber
    && element.content != [0]

/-- A number from zero on that fits into 32 bits. -/
def isSmallNumber (element : Ber.Element) : Bool :=
  element.tag.tagClass == .universal && element.tag.number == Ber.integerNumber
    && (element.content.head?.all fun first => decide (first.toNat < 128))
    && decide ((Octets.trimLeadingZeros element.content).length ≤ 4)

/-- The value of the extension that marks authorities says so by a truth value,
which a path length may follow.  Octets that are no element end the reading. -/
def isAuthorityValue (value : Octets) : Bool :=
  match Ber.readNumbered Ber.sequenceNumber value with
  | none => false
  | some (sequence, _) =>
      sequence.tag.constructed &&
        match (Ber.readWhile readUsual sequence.content).1 with
        | [mark] => isTrue mark
        | [mark, pathLength] => isTrue mark && isSmallNumber pathLength
        | _ => false

/-- A certificate is an authority's when exactly one of its extensions marks
authorities and says so. -/
def isAuthorityBy (extensions : List ExtensionField) : Bool :=
  match extensions.filter (·.identifier == basicConstraintsIdentifier) with
  | [extension] => isAuthorityValue extension.value
  | _ => false

/-- The flavour of a proxy by the first of its extensions that gives one, or
else by its names. -/
def proxyKindBy (extensions : List ExtensionField)
    (subject issuer : DistinguishedName) : Option ProxyKind :=
  (extensions.findSome? fun extension =>
    if extension.type = proxyInfoType then some .rfc3820
    else if extension.type = draftProxyInfoType then some .draft
    else none).orElse fun _ => legacyProxyKind? subject issuer

def ofFields (encoding : Octets) (fields : Fields) : Certificate where
  encoding := encoding
  subject := fields.subject
  issuer := fields.issuer
  serial := .ofOctets fields.serialContent
  serialContent := fields.serialContent
  isAuthority := isAuthorityBy fields.extensions
  proxyKind := proxyKindBy fields.extensions fields.subject fields.issuer
  vomsExtension :=
    (fields.extensions.find? (·.type == vomsExtensionType)).map (·.value)
  publicKey := fields.publicKey
  keyParameter := fields.keyParameter
  notBefore := fields.notBefore
  notAfter := fields.notAfter
  fingerprint := Octets.hex (Sha2.sha256 encoding)

/-- The parts of the certificate that octets begin with. -/
def fieldsOf? (encoding : Octets) : Option Fields := do
  let (certificate, _) ← Ber.readNumbered Ber.sequenceNumber encoding
  let (signed, afterSigned) ← Ber.readNumbered Ber.sequenceNumber certificate.content
  let fields ← readFields signed.content
  let (_, afterAlgorithm) ← readAlgorithm afterSigned
  let _ ← Ber.readBitString afterAlgorithm
  return fields

/-- The certificate that octets begin with. -/
def parse (encoding : Octets) : Except CertificateFault Certificate :=
  match fieldsOf? encoding with
  | some fields => .ok (ofFields encoding fields)
  | none => .error .unreadableCertificate

theorem parse_eq_ok_iff {encoding : Octets} {certificate : Certificate} :
    parse encoding = .ok certificate ↔
      ∃ fields, fieldsOf? encoding = some fields ∧ ofFields encoding fields = certificate := by
  unfold parse
  split
  · next fields found => simp [found]
  · next none => simp [none]

end GridSecurity.Certificate
