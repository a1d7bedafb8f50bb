import GridSecurity.Text.Quoted
import GridSecurity.Validation.Adapter

/-!
# Security contexts

A context belongs to one request.  It starts with what is known of the
connection and gets identity and attributes at most once, both together.
-/

namespace GridSecurity

structure ResolvedClient where
  identity : Identity
  chain : List Certificate
  attributes : AttributeResolution
  deriving DecidableEq, Repr

/-- The security context of a request.  Without a mode it takes no
attributes. -/
structure SecurityContext where
  remoteAddress : Option String := none
  sessionId : Option String := none
  resolver : IdentityResolver := {}
  mode : Option ValidationMode := none
  client : Option ResolvedClient := none
  deriving DecidableEq, Repr

namespace SecurityContext

/-- The attributes of a chain in the context's mode, by the validator in
force. -/
def resolveAttributes (context : SecurityContext) (validator : Validator)
    (chain : List Certificate) : AttributeResolution :=
  match context.mode with
  | none => {}
  | some mode => Adapter.resolve ⟨validator, mode⟩ chain

/-- The context with the identity and attributes of presented certificates; an
error leaves no context, so that the caller keeps the one it has. -/
def assemble (context : SecurityContext) (validator : Validator)
    (encodings : List Octets) : Except SecurityError SecurityContext :=
  match context.client with
  | some client => .error (.alreadyResolved client.identity.subject.readable)
  | none => do
      let resolved ← context.resolver.resolve encodings
      let attributes := context.resolveAttributes validator resolved.chain
      return { context with
        client := some ⟨resolved.identity, resolved.chain, attributes⟩ }

def isAuthenticated (context : SecurityContext) : Bool :=
  context.client.isSome

def supportsAttributes (context : SecurityContext) : Bool :=
  context.mode.isSome

/-- The name of the state: nothing but the connection is known, or identity
and attributes are. -/
def stateName (context : SecurityContext) : String :=
  if context.isAuthenticated then "AttributesResolved" else "Empty"

def identity? (context : SecurityContext) : Option Identity :=
  context.client.map (·.identity)

def clientName? (context : SecurityContext) : Option DistinguishedName :=
  context.identity?.map (·.subject)

/-- The name of the authority that issued the client's certificate. -/
def issuerName? (context : SecurityContext) : Option DistinguishedName :=
  context.identity?.map (·.issuer)

def serial (context : SecurityContext) : SerialNumber :=
  (context.identity?.map (·.serial)).getD .unknown

def chain? (context : SecurityContext) : Option (List Certificate) :=
  context.client.map (·.chain)

/-- The attributes handed out. -/
def memberships (context : SecurityContext) : List VoMembership :=
  (context.client.map (·.attributes.memberships)).getD []

def results (context : SecurityContext) : List ValidationResult :=
  (context.client.map (·.attributes.results)).getD []

def fqans (context : SecurityContext) : List Fqan :=
  context.memberships.flatMap (·.fqans)

def hasFqan (context : SecurityContext) (name : String) : Bool :=
  context.fqans.any (·.value == name)

def attributeMessage (context : SecurityContext) : String :=
  if context.memberships.isEmpty then "No valid VOMS attributes found."
  else "VOMS attributes: ["
    ++ "; ".intercalate (context.memberships.map (·.text)) ++ "]."

def connectionMessage (context : SecurityContext) : String :=
  let remote := context.remoteAddress.getD "unknown"
  match context.identity? with
  | none => "Unauthenticated connection from '" ++ remote ++ "'."
  | some identity =>
      "Connection from '" ++ remote ++ "' by '" ++ identity.subject.readable
        ++ "' (issued by '" ++ identity.issuer.readable ++ "') serial: "
        ++ identity.serial.text ++ ". " ++ context.attributeMessage

/-- A text that may be absent, in quotation marks. -/
def optionalQuoted : Option String → String
  | none => "None"
  | some text => "Some(" ++ Text.quoted text ++ ")"

/-- The fields of the context in one line. -/
def description (context : SecurityContext) : String :=
  "SecurityContext \x7b remote_addr: " ++ optionalQuoted context.remoteAddress
    ++ ", session_id: " ++ optionalQuoted context.sessionId
    ++ ", state: " ++ context.stateName
    ++ ", client: " ++ optionalQuoted (context.clientName?.map (·.readable))
    ++ ", fqans: ["
    ++ ", ".intercalate (context.fqans.map fun fqan => Text.quoted fqan.value)
    ++ "] \x7d"

end SecurityContext

end GridSecurity
