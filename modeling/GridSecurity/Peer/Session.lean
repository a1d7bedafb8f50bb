import GridSecurity.Octets

/-!
# Session identifiers

Every connection has an identifier of 128 bits.  All but six of them are
random; those six mark the identifier as one made this way.
-/

namespace GridSecurity.SessionId

/-- Sixteen random octets with the marks of version and variant. -/
def mark (random : Octets) : Octets :=
  random.mapIdx fun position octet =>
    if position = 6 then octet % 16 + 64
    else if position = 8 then octet % 64 + 128
    else octet

/-- The hexadecimal digits of sixteen octets in groups of 8, 4, 4, 4 and
12. -/
def text (octets : Octets) : String :=
  "-".intercalate [Octets.hex (octets.take 4), Octets.hex ((octets.drop 4).take 2),
    Octets.hex ((octets.drop 6).take 2), Octets.hex ((octets.drop 8).take 2),
    Octets.hex (octets.drop 10)]

/-- The identifier made of sixteen random octets. -/
def ofRandom (random : Octets) : String := text (mark random)

/-- A text is a session identifier: digits in the five groups, with the marks
in their places. -/
def isSessionId (candidate : String) : Bool :=
  match Octets.ofHex? (String.ofList (candidate.toList.filter (· != '-'))) with
  | none => false
  | some octets =>
      octets.length == 16 && candidate == text octets && mark octets == octets

end GridSecurity.SessionId
