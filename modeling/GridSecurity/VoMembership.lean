import GridSecurity.AttributeCertificate
import GridSecurity.Fqan
import GridSecurity.Instant
import GridSecurity.Name.Reader

/-!
# Membership in a virtual organisation

The view of an attribute certificate that authorization uses: the virtual
organisation, the authority that vouches for it, the certificate it is bound
to, and the attribute names in the order in which they were issued.  The view
is all or nothing: one unreadable part leaves none.
-/

namespace GridSecurity

structure VoMembership where
  vo : String
  server : Option String
  issuer : DistinguishedName
  holderIssuer : Option DistinguishedName
  holderSerial : Option Octets
  serial : String
  notBefore : Instant
  notAfter : Instant
  fqans : List Fqan
  deriving DecidableEq, Repr

/-- Reasons why an attribute certificate shows no membership. -/
inductive MembershipFault
  | noIssuerName
  | unreadableName (fault : CertificateFault)
  | noVomsAttribute
  | invalidSyntax
  | timeOutOfRange (seconds : Int)
  deriving DecidableEq, Repr

def MembershipFault.message : MembershipFault → String
  | .noIssuerName => "attribute certificate has no directory issuer name"
  | .unreadableName fault => "Invalid certificate: " ++ fault.message
  | .noVomsAttribute => "attribute certificate carries no VOMS attributes"
  | .invalidSyntax =>
      "invalid IETF attribute syntax: the octets do not encode one"
  | .timeOutOfRange seconds => "timestamp " ++ toString seconds ++ " out of range"

/-- One value of the attribute that carries attribute names: optionally the
authority behind it, and the names as octets. -/
structure PolicyValue where
  authority : Option Der.GeneralNames
  names : List Octets

namespace PolicyValue

def ofElement? (element : Der.Element) : Option PolicyValue := do
  let (authority?, others) :=
    Der.Element.takeContext 0 (← Der.sequence? element)
  match others with
  | [names] =>
      let authority ← authority?.mapM
        (Der.GeneralNames.ofTagged? (Der.contextCompositeTag 0))
      let octets ← (← Der.sequence? names).mapM Der.octetString?
      return ⟨authority, octets⟩
  | _ => none

/-- The first resource identifier among the names of the authority. -/
def uri? (value : PolicyValue) : Option Der.AsciiText :=
  value.authority.bind fun names => names.findSome? Der.GeneralName.uri?

/-- The attribute names; octets that are no text are replaced. -/
def fqans (value : PolicyValue) : List Fqan :=
  value.names.map fun octets =>
    ⟨String.ofList (Utf8.decodeReplacing octets)⟩

end PolicyValue

namespace VoMembership

/-- The type of the attribute that carries attribute names. -/
def attributeType : Der.Identifier :=
  ⟨[0x2b, 0x06, 0x01, 0x04, 0x01, 0xbe, 0x45, 0x64, 0x64, 0x04], by decide⟩

/-- A membership that is not limited in time and not bound to a holder. -/
def unbound (vo : String) (issuer : DistinguishedName) (fqans : List Fqan) :
    VoMembership where
  vo := vo
  server := none
  issuer := issuer
  holderIssuer := none
  holderSerial := none
  serial := ""
  notBefore := .earliest
  notAfter := .latest
  fqans := fqans

/-- The name of the first attribute, which the server put in front. -/
def primaryFqan? (membership : VoMembership) : Option Fqan :=
  membership.fqans.head?

def text (membership : VoMembership) : String :=
  "VO: " ++ membership.vo ++ ", issuer: " ++ membership.issuer.readable
    ++ ", FQANs: [" ++ ", ".intercalate (membership.fqans.map (·.value)) ++ "]"

/-- The first directory name among general names. -/
def directoryName? (names : Der.GeneralNames) :
    Option (Except MembershipFault DistinguishedName) :=
  (names.findSome? Der.GeneralName.directory?).map fun name =>
    (DistinguishedName.ofOctets name.toElement.write).mapError .unreadableName

def issuerOf (info : AttributeInfo) : Except MembershipFault DistinguishedName :=
  (info.issuer.names.bind directoryName?).getD (.error .noIssuerName)

/-- The issuer of the holder's certificate, if the holder is given by one and
it has a directory name. -/
def holderIssuerOf (info : AttributeInfo) :
    Except MembershipFault (Option DistinguishedName) :=
  match info.holder.baseCertificate.bind fun base => directoryName? base.issuer with
  | none => .ok none
  | some name => name.map some

/-- The serial number of the holder's certificate without leading zero
octets. -/
def holderSerialOf (info : AttributeInfo) : Option Octets :=
  info.holder.baseCertificate.map fun base =>
    Octets.trimLeadingZeros base.serial.content

/-- The values of the first attribute that carries attribute names. -/
def policyValuesOf (info : AttributeInfo) :
    Except MembershipFault (List PolicyValue) :=
  match info.attributes.find? (·.type == attributeType) with
  | none => .error .noVomsAttribute
  | some typed =>
      match typed.values.values.mapM PolicyValue.ofElement? with
      | some values => .ok values
      | none => .error .invalidSyntax

/-- What separates an organisation from its server in a resource
identifier. -/
def authoritySeparator : List Char := "://".toList

/-- The organisation and the server that a resource identifier names. -/
def splitAuthority (characters : List Char) : String × Option String :=
  match beforeFirst? authoritySeparator characters with
  | some vo =>
      let server := characters.drop (vo.length + authoritySeparator.length)
      (String.ofList vo, some (String.ofList server))
  | none => (String.ofList characters, none)

def firstComponent (path : List Char) : List Char :=
  (path.dropWhile (· == '/')).takeWhile (· != '/')

/-- The organisation and the server: from the first authority that has a
resource identifier, or else from the first attribute name. -/
def organisationOf (values : List PolicyValue) (fqans : List Fqan) :
    String × Option String :=
  match values.findSome? PolicyValue.uri? with
  | some uri => splitAuthority uri.characters
  | none =>
      match fqans with
      | [] => ("", none)
      | first :: _ =>
          (String.ofList (firstComponent first.value.toList), none)

def instantOf (time : Der.Time) : Except MembershipFault Instant :=
  match Instant.ofUnix? time.toUnix with
  | some instant => .ok instant
  | none => .error (.timeOutOfRange time.toUnix)

/-- The membership that an attribute certificate shows, whether or not it is
to be trusted. -/
def ofInfo (info : AttributeInfo) : Except MembershipFault VoMembership := do
  let issuer ← issuerOf info
  let holderIssuer ← holderIssuerOf info
  let values ← policyValuesOf info
  let fqans := values.flatMap PolicyValue.fqans
  let (vo, server) := organisationOf values fqans
  let notBefore ← instantOf info.validity.notBefore
  let notAfter ← instantOf info.validity.notAfter
  return {
    vo, server, issuer, holderIssuer
    holderSerial := holderSerialOf info
    serial := Octets.hex (Octets.trimLeadingZeros info.serial.content)
    notBefore, notAfter, fqans }

end VoMembership

end GridSecurity
