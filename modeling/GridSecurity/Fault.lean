/-!
# Faults

Every failure is a cause.  The causes are grouped by what failed: reading a
file, reading a certificate, ordering a chain, opening the trusted
authorities, reading the peer's certificates, or the configuration.  Each group
has one function for its wording, and each leaves room for a cause that another
component reports in its own words.
-/

namespace GridSecurity

/-- Failures of the file system. -/
inductive IoFault
  | notFound
  | permissionDenied
  | notADirectory
  | isADirectory
  | nameTooLong
  | tooManyLinks
  | nulInPath
  | invalidUtf8
  | reported (text : String)
  deriving DecidableEq, Repr

def IoFault.message : IoFault → String
  | .notFound => "No such file or directory (os error 2)"
  | .permissionDenied => "Permission denied (os error 13)"
  | .notADirectory => "Not a directory (os error 20)"
  | .isADirectory => "Is a directory (os error 21)"
  | .nameTooLong => "File name too long (os error 36)"
  | .tooManyLinks => "Too many levels of symbolic links (os error 40)"
  | .nulInPath => "file name contained an unexpected NUL byte"
  | .invalidUtf8 => "stream did not contain valid UTF-8"
  | .reported text => text

/-- Reasons why octets are not a usable certificate. -/
inductive CertificateFault
  | unreadableCertificate
  | unreadableName
  | reported (text : String)
  deriving DecidableEq, Repr

def CertificateFault.message : CertificateFault → String
  | .unreadableCertificate =>
      "Failed to parse certificate: the octets do not encode one"
  | .unreadableName =>
      "Failed to parse distinguished name: the octets do not encode one"
  | .reported text => text

/-- Reasons why certificates do not form a chain of one client. -/
inductive ChainFault
  | emptyChain
  | noEndEntity
  | manyEndEntities (count : Nat)
  | cycle
  | disconnected (linked total : Nat)
  | unlinked (position : Nat) (issuer subject : String)
  | onlyProxies
  | onlyAuthorities
  | reported (text : String)
  deriving DecidableEq, Repr

def ChainFault.message : ChainFault → String
  | .emptyChain => "empty certificate chain"
  | .noEndEntity =>
      "no end-entity certificate found, chain contains a cycle"
  | .manyEndEntities count =>
      Nat.repr count ++ " candidate end-entity certificates found"
  | .cycle => "certificate chain contains a cycle"
  | .disconnected linked total =>
      "disconnected certificate chain: " ++ Nat.repr linked ++ " of "
        ++ Nat.repr total ++ " certificates linked"
  | .unlinked position issuer subject =>
      "certificate " ++ Nat.repr position ++ " issuer '" ++ issuer
        ++ "' does not match subject '" ++ subject ++ "' of certificate "
        ++ Nat.repr (position + 1)
  | .onlyProxies => "proxy chain without an end-user certificate"
  | .onlyAuthorities =>
      "no certificate in the chain is neither a CA nor self-issued"
  | .reported text => text

/-- Reasons why no attribute authority can be trusted at all. -/
inductive TrustFault
  | unreadableDirectory (path : String) (fault : IoFault)
  | noAuthorities (path : String)
  | invalidAuthority (fault : CertificateFault)
  | reported (text : String)
  deriving DecidableEq, Repr

def TrustFault.message : TrustFault → String
  | .unreadableDirectory path fault =>
      "cannot read VOMS directory " ++ path ++ ": " ++ fault.message
  | .noAuthorities path =>
      "no attribute authority certificates found in " ++ path
  | .invalidAuthority fault => "Invalid certificate: " ++ fault.message
  | .reported text => text

/-- Reasons why the certificates of the peer cannot be read. -/
inductive PeerFault
  | handshakePending
  | reported (text : String)
  deriving DecidableEq, Repr

def PeerFault.message : PeerFault → String
  | .handshakePending => "TLS handshake has not completed"
  | .reported text => text

/-- Reasons why a readable configuration is refused. -/
inductive ConfigFault
  | lenientWithoutConsent
  | emptyDirectory
  | zeroRefreshInterval
  | reported (text : String)
  deriving DecidableEq, Repr

def ConfigFault.message : ConfigFault → String
  | .lenientWithoutConsent =>
      "attributes.mode = \"lenient\" requires "
        ++ "attributes.allow_unverified_attributes = true"
  | .emptyDirectory => "attributes.voms_dir cannot be empty"
  | .zeroRefreshInterval =>
      "attributes.refresh_interval_secs must be greater than 0"
  | .reported text => text

/-- Everything that can go wrong outside the verdict on an attribute. -/
inductive SecurityError
  | io (fault : IoFault)
  | malformedChain (fault : ChainFault)
  | invalidCertificate (fault : CertificateFault)
  | validatorUnavailable (fault : TrustFault)
  | alreadyResolved (subject : String)
  | noActiveScope
  | peerCertificates (fault : PeerFault)
  | unreadableConfig (detail : String)
  | invalidConfig (fault : ConfigFault)
  deriving DecidableEq, Repr

namespace SecurityError

def message : SecurityError → String
  | io fault => "IO error: " ++ fault.message
  | malformedChain fault => "Malformed certificate chain: " ++ fault.message
  | invalidCertificate fault => "Invalid certificate: " ++ fault.message
  | validatorUnavailable fault =>
      "Attribute validator unavailable: " ++ fault.message
  | alreadyResolved subject =>
      "Security context already resolved for " ++ subject
  | noActiveScope => "No security context scope is active on this task"
  | peerCertificates fault =>
      "Peer certificate extraction failed: " ++ fault.message
  | unreadableConfig detail => "Configuration error: " ++ detail
  | invalidConfig fault => "Invalid configuration: " ++ fault.message

/-- The errors that come from what an untrusted client presented, and not from
the way the service was set up. -/
def isClientInput : SecurityError → Bool
  | malformedChain _ | invalidCertificate _ | peerCertificates _ => true
  | io _ | validatorUnavailable _ | alreadyResolved _ | noActiveScope
  | unreadableConfig _ | invalidConfig _ => false

end SecurityError

end GridSecurity
