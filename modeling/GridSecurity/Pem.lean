import GridSecurity.Text.Base64
import GridSecurity.Text.Split
import GridSecurity.Text.Utf8

/-!
# Armoured certificates

A file in this format holds sections, each between a line that names what
begins and a line that names what ends.  The lines between carry octets in base
64; all lines outside sections are ignored.  A file with a malformed beginning,
a section without an end or octets that cannot be read holds nothing.
-/

namespace GridSecurity.Pem

def isLineEnd (octet : UInt8) : Bool := octet == 10 || octet == 13

/-- What the first line of a section begins with. -/
def beginMark : Octets := Utf8.ofText "-----BEGIN "

/-- What the last line of a section begins with. -/
def endMark : Octets := Utf8.ofText "-----END "

/-- What stands behind the label on these lines. -/
def dashes : Octets := Utf8.ofText "-----"

/-- The label of a section with a certificate. -/
def certificateLabel : Octets := Utf8.ofText "CERTIFICATE"

/-- A line without the spaces at its end. -/
def trimEnd (line : Octets) : Octets :=
  (line.reverse.dropWhile (· == 32)).reverse

/-- The label on the first line of a section: all before the dashes at its end.
There are five of them; spaces between and behind them do not count. -/
def labelOf? (line : Octets) : Option Octets :=
  let ending := line.reverse.takeWhile fun octet => octet == 45 || octet == 32
  if ending.count 45 = 5 then
    let mark := (ending.reverse.dropWhile (· == 32)).length
    some ((line.take (line.length - mark)).drop beginMark.length)
  else none

/-- The contents of the certificate sections in lines, given the label of the
open section, if one is open, and the text gathered since the last section that
came to its end. -/
def readLines (label : Option Octets) (gathered : Octets) :
    List Octets → Option (List Octets)
  | [] => if label.isSome then none else some []
  | line :: rest =>
      if beginMark.isPrefixOf line then do
        readLines (some (← labelOf? line)) gathered rest
      else
        match label with
        | none => readLines none gathered rest
        | some name =>
            if (endMark ++ name ++ dashes).isPrefixOf line then do
              let content ← Text.Base64.decode? gathered
              let contents ← readLines none [] rest
              return if name = certificateLabel then content :: contents else contents
            else readLines label (gathered ++ trimEnd line) rest

/-- The contents of the certificate sections of a file, in order. -/
def certificates? (content : Octets) : Option (List Octets) :=
  readLines none [] (Text.splitAtEach isLineEnd content)

end GridSecurity.Pem
