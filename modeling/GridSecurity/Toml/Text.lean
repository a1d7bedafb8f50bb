import GridSecurity.Text.Digits
import GridSecurity.Toml.Reader

/-!
# Strings of configuration text

Strings stand in double quotes, where a backslash begins an escape, or in
single quotes, where every character stands for itself.  Three quotes enclose
text of several lines.
-/

namespace GridSecurity.Toml

open Reader

/-- A character written as a number of exactly that many hexadecimal digits. -/
def codePoint (digits : Nat) : Reader Char := do
  let value := Text.numberOfDigits 16 (← exactly digits (Text.isDigit 16))
  if value.isValidChar then return Char.ofNat value else failure

/-- The character that is meant by what follows a backslash. -/
def escape : Reader Char := do
  match ← one fun _ => true with
  | 'b' => return '\x08'
  | 't' => return '\t'
  | 'n' => return '\n'
  | 'f' => return '\x0c'
  | 'r' => return '\r'
  | '"' => return '"'
  | '\\' => return '\\'
  | 'u' => codePoint 4
  | 'U' => codePoint 8
  | _ => failure

/-- Characters that stand for themselves in double quotes. -/
def unescaped : Reader (List Char) :=
  takeSome fun character => isPlain character && character != '"' && character != '\\'

/-- Characters that stand for themselves in single quotes. -/
def verbatim : Reader (List Char) :=
  takeSome fun character => isPlain character && character != '\''

def escaped : Reader (List Char) := do
  let _ ← one (· == '\\')
  return [← escape]

/-- The end of a line inside a string, which stands for a line feed. -/
def brokenLine : Reader (List Char) := do
  newline
  return ['\n']

/-- A backslash at the end of a line, which takes the blanks and line ends
behind it away. -/
def joinedLine : Reader (List Char) := do
  let _ ← one (· == '\\')
  let _ ← blanks
  newline
  let _ ← many (one isBlank *> pure () <|> newline)
  return []

/-- Fewer than three quotes with another character behind them. -/
def innerQuotes (quote : Char) : Reader (List Char) := do
  let quotes ← takeSome (· == quote)
  let following ← get
  if quotes.length < 3 ∧ following ≠ [] then return quotes else failure

/-- Three quotes that end a string, and at most two before them that belong to
it. -/
def closingQuotes (quote : Char) : Reader (List Char) := do
  let quotes ← takeSome (· == quote)
  if 3 ≤ quotes.length ∧ quotes.length ≤ 5 then return quotes.drop 3 else failure

/-- A string of one line made of the given pieces. -/
def lineOf (quote : Char) (piece : Reader (List Char)) : Reader String := do
  let _ ← one (· == quote)
  let pieces ← many piece
  let _ ← one (· == quote)
  return String.ofList pieces.flatten

/-- A string of several lines made of the given pieces; the end of the line
that its opening quotes stand on does not belong to it. -/
def linesOf (quote : Char) (piece : Reader (List Char)) : Reader String := do
  let _ ← exactly 3 (· == quote)
  let _ ← perhaps newline
  let pieces ← many (piece <|> brokenLine <|> innerQuotes quote)
  let ending ← closingQuotes quote
  return String.ofList (pieces.flatten ++ ending)

/-- A string of one line in double quotes. -/
def basicString : Reader String := lineOf '"' (unescaped <|> escaped)

/-- A string of one line in single quotes. -/
def literalString : Reader String := lineOf '\'' verbatim

def string : Reader String :=
  linesOf '"' (unescaped <|> joinedLine <|> escaped) <|> basicString
    <|> linesOf '\'' verbatim <|> literalString

end GridSecurity.Toml
