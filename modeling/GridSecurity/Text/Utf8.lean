import GridSecurity.Octets

/-!
# UTF-8

A sequence of octets is read one step at a time.  A step takes either the
encoding of one scalar value or a longest prefix of such an encoding that the
next octet does not continue.  The strict reader accepts only steps of the
first kind; the replacing reader gives one replacement character for every
step of the second kind.
-/

namespace GridSecurity.Utf8

/-- The octets that encode one scalar value. -/
def encodeChar (character : Char) : Octets :=
  let code := character.toNat
  if code < 0x80 then
    [UInt8.ofNat code]
  else if code < 0x800 then
    [UInt8.ofNat (0xc0 + code / 64), UInt8.ofNat (0x80 + code % 64)]
  else if code < 0x10000 then
    [UInt8.ofNat (0xe0 + code / 4096), UInt8.ofNat (0x80 + code / 64 % 64),
      UInt8.ofNat (0x80 + code % 64)]
  else
    [UInt8.ofNat (0xf0 + code / 262144), UInt8.ofNat (0x80 + code / 4096 % 64),
      UInt8.ofNat (0x80 + code / 64 % 64), UInt8.ofNat (0x80 + code % 64)]

def encode (characters : List Char) : Octets :=
  characters.flatMap encodeChar

def ofText (text : String) : Octets := encode text.toList

/-- An octet that continues the encoding of a scalar value. -/
def isContinuation (octet : UInt8) : Bool :=
  0x80 ≤ octet.toNat && octet.toNat ≤ 0xbf

/-- The second octets that may follow a first octet of a three-octet encoding:
encodings of smaller values and of surrogates are left out. -/
def isSecondOfThree (first second : UInt8) : Bool :=
  let value := second.toNat
  if first == 0xe0 then 0xa0 ≤ value && value ≤ 0xbf
  else if first == 0xed then 0x80 ≤ value && value ≤ 0x9f
  else isContinuation second

/-- The second octets that may follow a first octet of a four-octet encoding:
encodings of smaller values and of values above the last one are left out. -/
def isSecondOfFour (first second : UInt8) : Bool :=
  let value := second.toNat
  if first == 0xf0 then 0x90 ≤ value && value ≤ 0xbf
  else if first == 0xf4 then 0x80 ≤ value && value ≤ 0x8f
  else isContinuation second

/-- One step from a first octet: the scalar value, or nothing for a prefix of
no encoding, and the number of following octets that the step takes. -/
def step (first : UInt8) (following : Octets) : Option Char × Nat :=
  let lead := first.toNat
  if lead < 0x80 then
    (some (Char.ofNat lead), 0)
  else if 0xc2 ≤ lead && lead ≤ 0xdf then
    match following with
    | second :: _ =>
        if isContinuation second then
          (some (Char.ofNat ((lead - 0xc0) * 64 + (second.toNat - 0x80))), 1)
        else (none, 0)
    | [] => (none, 0)
  else if 0xe0 ≤ lead && lead ≤ 0xef then
    match following with
    | second :: third? =>
        if isSecondOfThree first second then
          match third? with
          | third :: _ =>
              if isContinuation third then
                (some (Char.ofNat ((lead - 0xe0) * 4096
                  + (second.toNat - 0x80) * 64 + (third.toNat - 0x80))), 2)
              else (none, 1)
          | [] => (none, 1)
        else (none, 0)
    | [] => (none, 0)
  else if 0xf0 ≤ lead && lead ≤ 0xf4 then
    match following with
    | second :: third? =>
        if isSecondOfFour first second then
          match third? with
          | third :: fourth? =>
              if isContinuation third then
                match fourth? with
                | fourth :: _ =>
                    if isContinuation fourth then
                      (some (Char.ofNat ((lead - 0xf0) * 262144
                        + (second.toNat - 0x80) * 4096
                        + (third.toNat - 0x80) * 64 + (fourth.toNat - 0x80))), 3)
                    else (none, 2)
                | [] => (none, 2)
              else (none, 1)
          | [] => (none, 1)
        else (none, 0)
    | [] => (none, 0)
  else (none, 0)

/-- The scalar values of an octet string, with nothing in the place of every
longest prefix of no encoding. -/
def steps (octets : Octets) : List (Option Char) :=
  match octets with
  | [] => []
  | first :: following =>
      let (character, taken) := step first following
      character :: steps (following.drop taken)
termination_by octets.length
decreasing_by
  simp only [List.length_drop, List.length_cons]
  omega

/-- The characters of a valid encoding; nothing for any other octets. -/
def decode? (octets : Octets) : Option (List Char) :=
  (steps octets).mapM id

/-- The character that stands for octets that encode none. -/
def replacement : Char := '\uFFFD'

/-- The characters of an octet string, with one replacement character for
every longest prefix of no encoding. -/
def decodeReplacing (octets : Octets) : List Char :=
  (steps octets).map fun character => character.getD replacement

def text? (octets : Octets) : Option String :=
  (decode? octets).map String.ofList

end GridSecurity.Utf8
