/-!
# Readers of configuration text

A reader takes a thing off the front of a text, or refuses the text.  The
readers of this module are those of the lexical ground: repetition, blanks,
line ends and comments.
-/

namespace GridSecurity.Toml

/-- Takes something off the front of a text. -/
abbrev Reader (α : Type) := StateT (List Char) Option α

namespace Reader

/-- The first character, taken off when the condition holds of it. -/
def one (condition : Char → Bool) : Reader Char := fun text =>
  match text with
  | first :: rest => if condition first then some (first, rest) else none
  | [] => none

def takeWhile (condition : Char → Bool) : Reader (List Char) := fun text =>
  some (text.takeWhile condition, text.dropWhile condition)

/-- The longest front of characters that meet the condition, which is not
empty. -/
def takeSome (condition : Char → Bool) : Reader (List Char) := do
  let first ← one condition
  return first :: (← takeWhile condition)

/-- Exactly as many characters as given, which all meet the condition. -/
def exactly (count : Nat) (condition : Char → Bool) : Reader (List Char) :=
  fun text =>
    let front := text.take count
    if front.length = count ∧ front.all condition then some (front, text.drop count)
    else none

def word (expected : String) : Reader Unit := fun text =>
  let characters := expected.toList
  if characters.isPrefixOf text then some ((), text.drop characters.length) else none

/-- The thing that is read, or none when it is not there. -/
def perhaps {α : Type} (item : Reader α) : Reader (Option α) := fun text =>
  match item text with
  | some (value, rest) => some (some value, rest)
  | none => some (none, text)

/-- Reads at most the given number of things, up to the first that is not
there. -/
def upTo {α : Type} (item : Reader α) : Nat → Reader (List α)
  | 0 => pure []
  | count + 1 => do
      match ← perhaps item with
      | none => return []
      | some value => return value :: (← upTo item count)

/-- Reads things that each take something off the text, up to the first that is
not there. -/
def many {α : Type} (item : Reader α) : Reader (List α) := fun text =>
  upTo item text.length text

/-- Reads things with a separating character between them. -/
def separated {α : Type} (separator : Char) (item : Reader α) : Reader (List α) := do
  match ← perhaps item with
  | none => return []
  | some first =>
      return first :: (← many do
        let _ ← one (· == separator)
        item)

def atEnd : Reader Unit := fun text =>
  match text with
  | [] => some ((), [])
  | _ :: _ => none

end Reader

open Reader

def isBlank (character : Char) : Bool := character == ' ' || character == '\t'

/-- A character that may stand in a comment, and in a string unless the string
gives it a meaning: a tab or no control character. -/
def isPlain (character : Char) : Bool :=
  character == '\t' || (0x20 ≤ character.toNat && character.toNat != 0x7f)

def blanks : Reader (List Char) := takeWhile isBlank

/-- The end of a line: a line feed, or a carriage return and a line feed. -/
def newline : Reader Unit := word "\n" <|> word "\r\n"

def comment : Reader Unit := do
  let _ ← one (· == '#')
  let _ ← takeWhile isPlain

/-- The end of a line or of the text. -/
def lineEnd : Reader Unit := newline <|> atEnd

/-- What may follow on a line behind what it says. -/
def lineRest : Reader Unit := do
  let _ ← blanks
  let _ ← perhaps comment
  lineEnd

/-- Blanks, line ends and comments between the items of an array. -/
def gap : Reader Unit := do
  let _ ← many (one isBlank *> pure () <|> newline <|> comment)

end GridSecurity.Toml
