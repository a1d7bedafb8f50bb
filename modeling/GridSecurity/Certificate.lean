import GridSecurity.Name
import GridSecurity.Octets

/-!
# Certificates

The view of a certificate that ordering, identity resolution and attribute
validation work on.  Everything in it was read from the certificate's encoding
once.
-/

namespace GridSecurity

/-- A serial number in decimal, or the mark of a certificate without one. -/
inductive SerialNumber
  | known (decimal : String)
  | unknown
  deriving DecidableEq, Repr

namespace SerialNumber

def decimal? : SerialNumber → Option String
  | known decimal => some decimal
  | unknown => none

/-- The decimal text or the word `unknown`. -/
def text : SerialNumber → String
  | known decimal => decimal
  | unknown => "unknown"

/-- The serial number whose content octets are read without a sign. -/
def ofOctets (content : Octets) : SerialNumber :=
  if content.isEmpty then unknown else known (Nat.repr (Octets.toNat content))

end SerialNumber

/-- The flavours of proxy certificates. -/
inductive ProxyKind
  /-- The certificate has the standard extension of proxies. -/
  | rfc3820
  /-- The certificate has the extension that preceded the standard one. -/
  | draft
  /-- The subject is the issuer's followed by one fixed common name. -/
  | legacy (limited : Bool)
  deriving DecidableEq, Repr

/-- A certificate as it was presented and what was read from it. -/
structure Certificate where
  encoding : Octets
  subject : DistinguishedName
  issuer : DistinguishedName
  serial : SerialNumber
  serialContent : Octets
  isAuthority : Bool
  proxyKind : Option ProxyKind
  vomsExtension : Option Octets
  publicKey : Octets
  keyParameter : Option String
  notBefore : Int
  notAfter : Int
  fingerprint : String
  deriving DecidableEq, Repr

namespace Certificate

/-- The octets of the serial number without leading zero octets. -/
def trimmedSerial (certificate : Certificate) : Octets :=
  Octets.trimLeadingZeros certificate.serialContent

/-- A certificate is self-issued when subject and issuer are the same name. -/
def isSelfIssued (certificate : Certificate) : Bool :=
  decide (certificate.subject.Same certificate.issuer)

def isProxy (certificate : Certificate) : Bool :=
  certificate.proxyKind.isSome

/-- A certificate is valid from its first to its last second. -/
def isValidAt (certificate : Certificate) (now : Int) : Bool :=
  decide (certificate.notBefore ≤ now ∧ now ≤ certificate.notAfter)

/-- A certificate is issued by another one when its issuer is the other's
subject. -/
def IssuedBy (certificate authority : Certificate) : Prop :=
  certificate.issuer.Same authority.subject

instance (certificate authority : Certificate) :
    Decidable (IssuedBy certificate authority) :=
  inferInstanceAs (Decidable (DistinguishedName.Same _ _))

/-- The flavour of a certificate without an extension of proxies. -/
def legacyProxyKind? (subject issuer : DistinguishedName) : Option ProxyKind :=
  if subject.Extends issuer then
    if subject.lastRelativeName? = some (.single "CN" "proxy") then
      some (.legacy false)
    else if subject.lastRelativeName? = some (.single "CN" "limited proxy") then
      some (.legacy true)
    else none
  else none

end Certificate

end GridSecurity
