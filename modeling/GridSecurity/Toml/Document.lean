import GridSecurity.Toml.Moment
import GridSecurity.Toml.Text

/-!
# Documents of configuration text

A document is a list of pairs of keys and values, followed by sections, each
with a header of its own.  The sections are put together into one table; a
document that defines something twice is refused.
-/

namespace GridSecurity.Toml

open Reader

/-- The least number of parts of a key, and the least depth of arrays and tables
in each other, that are too many. -/
def tooDeep : Nat := 80

/-- A character of a key without quotes. -/
def isBareKey (character : Char) : Bool :=
  let code := character.toNat
  (48 ≤ code && code ≤ 57) || (65 ≤ code && code ≤ 90) || (97 ≤ code && code ≤ 122)
    || character == '_' || character == '-'

/-- One part of a key. -/
def keyPart : Reader String :=
  basicString <|> literalString <|> String.ofList <$> takeSome isBareKey

/-- A key: the parts before its last one, and the last one. -/
def key : Reader (List String × String) := do
  let parts ← separated '.' (blanks *> keyPart <* blanks)
  match parts.getLast? with
  | some last =>
      if parts.length < tooDeep then return (parts.dropLast, last) else failure
  | none => failure

def pair (value : Reader Value) : Reader (List String × String × Value) := do
  let (path, last) ← key
  word "="
  let _ ← blanks
  return (path, last, ← value)

def boolean : Reader Value :=
  (word "true" *> pure (.boolean true)) <|> (word "false" *> pure (.boolean false))

/-- A value that holds no others. -/
def scalar : Reader Value :=
  Value.string <$> string <|> boolean <|> moment <|> float <|> integer

def array (value : Reader Value) : Reader Value := do
  word "["
  let items ← separated ',' (gap *> value <* gap)
  if !items.isEmpty then
    let _ ← perhaps (word ",")
  gap
  word "]"
  return .array items

def bracedTable (value : Reader Value) : Reader Value := do
  word "\x7b"
  let pairs ← separated ',' (pair value <* blanks)
  let _ ← blanks
  word "\x7d"
  Value.defineAll (.table .braces []) pairs

/-- A value with at most that many arrays and tables in each other. -/
def value : (depth : Nat) → Reader Value
  | 0 => scalar
  | depth + 1 => scalar <|> array (value depth) <|> bracedTable (value depth)

/-- A line of a section: a pair, or nothing. -/
def line : Reader (Option (List String × String × Value)) :=
  (do
    let _ ← perhaps comment
    newline
    return none)
  <|> (do
    comment
    atEnd
    return none)
  <|> (do
    let defined ← pair (value (tooDeep - 1))
    lineRest
    return some defined)

/-- The pairs up to the next header or the end. -/
def body : Reader (List (List String × String × Value)) := do
  let _ ← blanks
  let lines ← many (line <* blanks)
  return lines.filterMap id

/-- The change that a section makes to the table of the document. -/
def headedSection : Reader (Value → Option Value) := do
  let (add, path, last) ←
    (do
      word "[["
      let (path, last) ← key
      word "]]"
      return (Value.addElement, path, last))
    <|> (do
      word "["
      let (path, last) ← key
      word "]"
      return (Value.addTable, path, last))
  lineRest
  return add path last (← body)

def document : Reader Value := do
  let _ ← perhaps (word "\ufeff")
  let pairs ← body
  let sections ← many headedSection
  atEnd
  let start ← Value.defineAll (.table .header []) pairs
  sections.foldlM (fun whole change => change whole) start

def parse (text : String) : Option Value :=
  (document text.toList).map (·.1)

end GridSecurity.Toml
