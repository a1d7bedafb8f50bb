import GridSecurity.Calendar
import GridSecurity.Toml.Number

/-!
# Dates and times of configuration text

A moment is a date, a time of day, or both with or without the offset of a
zone.
-/

namespace GridSecurity.Toml

open Reader

/-- A number of two digits within bounds. -/
def twoDigits (least most : Nat) : Reader Nat := do
  let value := Text.numberOfDigits 10 (← exactly 2 (Text.isDigit 10))
  if least ≤ value ∧ value ≤ most then return value else failure

def date : Reader Unit := do
  let year := Text.numberOfDigits 10 (← exactly 4 (Text.isDigit 10))
  word "-"
  let month ← twoDigits 1 12
  word "-"
  let day ← twoDigits 1 31
  if day ≤ daysInMonth year month then return () else failure

/-- A time of day; the second sixty may be inserted. -/
def timeOfDay : Reader Unit := do
  let _ ← twoDigits 0 23
  word ":"
  let _ ← twoDigits 0 59
  word ":"
  let _ ← twoDigits 0 60
  let _ ← perhaps do
    word "."
    takeSome (Text.isDigit 10)

def offset : Reader Unit :=
  word "Z" <|> word "z" <|> do
    let _ ← one fun character => character == '+' || character == '-'
    let _ ← twoDigits 0 23
    word ":"
    let _ ← twoDigits 0 59

/-- A date, perhaps with a time behind it. -/
def dateAndTime : Reader Unit := do
  date
  let _ ← perhaps do
    let _ ← one fun character => character == 'T' || character == 't' || character == ' '
    timeOfDay
    perhaps offset

def moment : Reader Value := do
  let (_, literal) ← withLiteral (dateAndTime <|> timeOfDay)
  return .moment (String.ofList literal)

end GridSecurity.Toml
