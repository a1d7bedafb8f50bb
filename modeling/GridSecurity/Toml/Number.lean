import GridSecurity.Text.Digits
import GridSecurity.Toml.Value
import GridSecurity.Toml.Reader

/-!
# Numbers of configuration text

Integers fit into sixty-four bits with a sign.  A float is refused when no
double is near enough above zero; otherwise its text is kept.
-/

namespace GridSecurity.Toml

open Reader

/-- What a reader took off the text, beside what it read. -/
def withLiteral {α : Type} (item : Reader α) : Reader (α × List Char) := fun text => do
  let (value, rest) ← item text
  return ((value, text.take (text.length - rest.length)), rest)

/-- Digits to a base; single underscores may stand between them. -/
def digits (base : Nat) : Reader (List Char) := do
  let first ← one (Text.isDigit base)
  let others ← many do
    let _ ← perhaps (one (· == '_'))
    one (Text.isDigit base)
  return first :: others

/-- A sign, or none for a plus sign that is left out. -/
def sign : Reader (Option Char) := perhaps (one fun character =>
  character == '+' || character == '-')

/-- Decimal digits that do not begin with a zero, or the digit zero. -/
def wholeDigits : Reader (List Char) := do
  match ← get with
  | '0' :: rest =>
      set rest
      return ['0']
  | _ => digits 10

/-- The integers of sixty-four bits with a sign. -/
def fitsWord (value : Int) : Bool :=
  -0x8000000000000000 ≤ value && value < 0x8000000000000000

/-- An integer that fits into a word. -/
def wordOf (value : Int) : Reader Value :=
  if fitsWord value then return .integer value else failure

def decimalInteger : Reader Value := do
  let written ← sign
  let value : Int := Text.numberOfDigits 10 (← wholeDigits)
  wordOf (if written = some '-' then -value else value)

/-- An integer to another base, which is named by its first two characters. -/
def integerTo (base : Nat) (mark : String) : Reader Value := do
  word mark
  wordOf (Text.numberOfDigits base (← digits base))

/-- An integer. -/
def integer : Reader Value :=
  integerTo 16 "0x" <|> integerTo 8 "0o" <|> integerTo 2 "0b" <|> decimalInteger

/-- The digits of an exponent with its sign. -/
def exponent : Reader Int := do
  let _ ← one fun character => character == 'e' || character == 'E'
  let written ← sign
  let value : Int := Text.numberOfDigits 10 (← digits 10)
  return if written = some '-' then -value else value

def fraction : Reader (List Char) := do
  let _ ← one (· == '.')
  digits 10

/-- The least number that is too great for a double: halfway between the
greatest double and the next power of two. -/
def leastOverflow : Nat := Nat.pow 2 1024 - Nat.pow 2 970

/-- A significand times a power of ten is too great for a double. -/
def overflows (significand : Nat) (power : Int) : Bool :=
  let magnitude := (Nat.toDigits 10 significand).length + power
  if significand = 0 ∨ magnitude < 309 then false
  else if 309 < magnitude then true
  else leastOverflow * Nat.pow 10 (-power).toNat ≤ significand * Nat.pow 10 power.toNat

/-- A number with a fraction or an exponent. -/
def scientific : Reader Unit := do
  let written ← sign
  let whole ← wholeDigits
  let parts ← perhaps fraction
  let power ← perhaps exponent
  let places := (parts.getD []).filter (Text.isDigit 10)
  let significand := Text.numberOfDigits 10 (whole ++ places)
  if parts.isNone ∧ power.isNone then failure
  else if written != some '-' ∧ overflows significand (power.getD 0 - places.length) then
    failure

/-- An infinity or no number. -/
def special : Reader Unit := do
  let _ ← sign
  word "inf" <|> word "nan"

def float : Reader Value := do
  let (_, literal) ← withLiteral (scientific <|> special)
  return .float (String.ofList literal)

end GridSecurity.Toml
