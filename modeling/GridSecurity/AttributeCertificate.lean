import GridSecurity.Der.Name

/-!
# Attribute certificates

An attribute certificate binds attributes to the holder of another certificate
and is signed by an attribute authority.  What is signed is the encoding of its
information, and that encoding is a function of what was read: sets are in
ascending order and a mark that has its default value is left out.
-/

namespace GridSecurity

open Der

/-- An algorithm and, for some algorithms, a parameter. -/
structure AlgorithmIdentifier where
  algorithm : Identifier
  parameter : Option Element
  deriving DecidableEq, Repr

namespace AlgorithmIdentifier

def ofFields? : List Element → Option AlgorithmIdentifier
  | [algorithm] => do return ⟨← Identifier.ofElement? algorithm, none⟩
  | [algorithm, parameter] => do
      return ⟨← Identifier.ofElement? algorithm, some parameter⟩
  | _ => none

def toFields (algorithm : AlgorithmIdentifier) : List Element :=
  algorithm.algorithm.toElement :: algorithm.parameter.toList

def ofElement? (element : Element) : Option AlgorithmIdentifier :=
  (sequence? element).bind ofFields?

def toElement (algorithm : AlgorithmIdentifier) : Element :=
  sequenceOf algorithm.toFields

end AlgorithmIdentifier

/-- Names of an issuer, a serial number and, rarely, a unique identifier. -/
structure IssuerSerial where
  issuer : GeneralNames
  serial : SerialContent
  issuerUid : Option BitString

namespace IssuerSerial

def ofFields? : List Element → Option IssuerSerial
  | issuer :: serial :: rest => do
      let names ← GeneralNames.ofTagged? sequenceTag issuer
      let number ← SerialContent.ofElement? serial
      match rest with
      | [] => return ⟨names, number, none⟩
      | [uid] => return ⟨names, number, some (← BitString.ofElement? uid)⟩
      | _ => none
  | _ => none

def toFields (pair : IssuerSerial) : List Element :=
  GeneralNames.toTagged sequenceTag isKnownTag_sequence pair.issuer
    :: pair.serial.toElement :: (pair.issuerUid.map BitString.toElement).toList

/-- Issuer and serial number in an element with the context-specific number
zero. -/
def ofElement? (element : Element) : Option IssuerSerial :=
  (element.children? (contextCompositeTag 0)).bind ofFields?

def toElement (pair : IssuerSerial) : Element :=
  .composite (contextCompositeTag 0) isKnownTag_zero pair.toFields

end IssuerSerial

/-- Whose attributes are certified: by issuer and serial number of a
certificate, or by names. -/
structure Holder where
  baseCertificate : Option IssuerSerial
  entityName : Option GeneralNames

namespace Holder

def ofFields? (fields : List Element) : Option Holder := do
  let (base, entity) ← Element.readTwo?
    (Element.takeTwo? (Element.takeContext 0) (Element.takeContext 1))
    IssuerSerial.ofElement? (GeneralNames.ofTagged? (contextCompositeTag 1)) fields
  return ⟨base, entity⟩

def toFields (holder : Holder) : List Element :=
  (holder.baseCertificate.map IssuerSerial.toElement).toList
    ++ (holder.entityName.map
      (GeneralNames.toTagged (contextCompositeTag 1) isKnownTag_one)).toList

def ofElement? (element : Element) : Option Holder :=
  (sequence? element).bind ofFields?

def toElement (holder : Holder) : Element :=
  sequenceOf holder.toFields

end Holder

structure AttributeIssuer where
  names : Option GeneralNames
  baseCertificate : Option IssuerSerial

namespace AttributeIssuer

def ofFields? (fields : List Element) : Option AttributeIssuer := do
  let (names, base) ← Element.readTwo?
    (Element.takeTwo? (Element.takeTagged sequenceTag) (Element.takeContext 0))
    (GeneralNames.ofTagged? sequenceTag) IssuerSerial.ofElement? fields
  return ⟨names, base⟩

def toFields (issuer : AttributeIssuer) : List Element :=
  (issuer.names.map (GeneralNames.toTagged sequenceTag isKnownTag_sequence)).toList
    ++ (issuer.baseCertificate.map IssuerSerial.toElement).toList

/-- The issuer in an element with the context-specific number zero. -/
def ofElement? (element : Element) : Option AttributeIssuer :=
  (element.children? (contextCompositeTag 0)).bind ofFields?

def toElement (issuer : AttributeIssuer) : Element :=
  .composite (contextCompositeTag 0) isKnownTag_zero issuer.toFields

end AttributeIssuer

structure ValidityPeriod where
  notBefore : Der.Time
  notAfter : Der.Time
  deriving DecidableEq, Repr

namespace ValidityPeriod

def ofFields? : List Element → Option ValidityPeriod
  | [notBefore, notAfter] => do
      return ⟨← Der.Time.ofElement? notBefore, ← Der.Time.ofElement? notAfter⟩
  | _ => none

def toFields (period : ValidityPeriod) : List Element :=
  [period.notBefore.toElement, period.notAfter.toElement]

def ofElement? (element : Element) : Option ValidityPeriod :=
  (sequence? element).bind ofFields?

def toElement (period : ValidityPeriod) : Element :=
  sequenceOf period.toFields

end ValidityPeriod

/-- An attribute: a type and a set of values. -/
structure TypedValues where
  type : Identifier
  values : SetOf Element.write

namespace TypedValues

def valuesOf? (element : Element) : Option (SetOf Element.write) :=
  (element.children? setTag).bind (SetOf.ofList? Element.write)

def ofFields? : List Element → Option TypedValues
  | [type, values] => do return ⟨← Identifier.ofElement? type, ← valuesOf? values⟩
  | _ => none

def toFields (typed : TypedValues) : List Element :=
  [typed.type.toElement, .composite setTag isKnownTag_set typed.values.values]

def ofElement? (element : Element) : Option TypedValues :=
  (sequence? element).bind ofFields?

def toElement (typed : TypedValues) : Element :=
  sequenceOf typed.toFields

def listOf? (element : Element) : Option (List TypedValues) :=
  (sequence? element).bind fun fields => fields.mapM ofElement?

def ofList (attributes : List TypedValues) : Element :=
  sequenceOf (attributes.map toElement)

end TypedValues

structure AttributeExtension where
  type : Identifier
  critical : Bool
  value : Octets
  deriving DecidableEq, Repr

namespace AttributeExtension

/-- The extension in the fields of a sequence; it is not critical unless it
says so. -/
def ofFields? : List Element → Option AttributeExtension
  | [type, value] => do
      return ⟨← Identifier.ofElement? type, false, ← octetString? value⟩
  | [type, critical, value] => do
      return ⟨← Identifier.ofElement? type, ← boolean? critical, ← octetString? value⟩
  | _ => none

def toFields (extension : AttributeExtension) : List Element :=
  extension.type.toElement
    :: ((if extension.critical then [boolean true] else [])
      ++ [octetString extension.value])

def ofElement? (element : Element) : Option AttributeExtension :=
  (sequence? element).bind ofFields?

def toElement (extension : AttributeExtension) : Element :=
  sequenceOf extension.toFields

def listOf? (element : Element) : Option (List AttributeExtension) :=
  (sequence? element).bind fun fields => fields.mapM ofElement?

def ofList (extensions : List AttributeExtension) : Element :=
  sequenceOf (extensions.map toElement)

end AttributeExtension

/-- What an attribute authority signs. -/
structure AttributeInfo where
  version : UInt8
  holder : Holder
  issuer : AttributeIssuer
  algorithm : AlgorithmIdentifier
  serial : SerialContent
  validity : ValidityPeriod
  attributes : List TypedValues
  issuerUid : Option BitString
  extensions : Option (List AttributeExtension)

namespace AttributeInfo

def ofFields? : List Element → Option AttributeInfo
  | version :: holder :: issuer :: algorithm :: serial :: validity :: attributes
      :: rest => do
      let (uid, extensions) ← Element.readTwo?
        (Element.takeTwo? (Element.takeTagged bitStringTag)
          (Element.takeTagged sequenceTag))
        BitString.ofElement? AttributeExtension.listOf? rest
      return {
        version := ← smallNumber? version
        holder := ← Holder.ofElement? holder
        issuer := ← AttributeIssuer.ofElement? issuer
        algorithm := ← AlgorithmIdentifier.ofElement? algorithm
        serial := ← SerialContent.ofElement? serial
        validity := ← ValidityPeriod.ofElement? validity
        attributes := ← TypedValues.listOf? attributes
        issuerUid := uid
        extensions := extensions }
  | _ => none

def toFields (info : AttributeInfo) : List Element :=
  [smallNumber info.version, info.holder.toElement, info.issuer.toElement,
      info.algorithm.toElement, info.serial.toElement, info.validity.toElement,
      TypedValues.ofList info.attributes]
    ++ (info.issuerUid.map BitString.toElement).toList
    ++ (info.extensions.map AttributeExtension.ofList).toList

def ofElement? (element : Element) : Option AttributeInfo :=
  (sequence? element).bind ofFields?

def toElement (info : AttributeInfo) : Element :=
  sequenceOf info.toFields

/-- The octets that the authority's signature has to cover, unless the
information is too long to be encoded. -/
def signedOctets? (info : AttributeInfo) : Option Octets :=
  info.toElement.encode?

/-- The information that octets encode, with nothing behind it. -/
def ofOctets? (octets : Octets) : Option AttributeInfo :=
  (Element.ofOctets? octets).bind ofElement?

end AttributeInfo

/-- Information with the signature of its issuer. -/
structure AttributeCertificate where
  info : AttributeInfo
  algorithm : AlgorithmIdentifier
  signature : BitString

namespace AttributeCertificate

def ofFields? : List Element → Option AttributeCertificate
  | [info, algorithm, signature] => do
      return ⟨← AttributeInfo.ofElement? info,
        ← AlgorithmIdentifier.ofElement? algorithm,
        ← BitString.ofElement? signature⟩
  | _ => none

def ofElement? (element : Element) : Option AttributeCertificate :=
  (sequence? element).bind ofFields?

/-- The attribute certificates in a sequence of them. -/
def groupOf? (element : Element) : Option (List AttributeCertificate) :=
  (sequence? element).bind fun fields => fields.mapM ofElement?

/-- The attribute certificates in the value of a certificate's extension: a
sequence of sequences of them, in order. -/
def ofExtension? (value : Octets) : Option (List AttributeCertificate) := do
  let groups ← sequence? (← Element.ofOctets? value)
  return (← groups.mapM groupOf?).flatten

end AttributeCertificate

end GridSecurity
