import GridSecurity.Octets
import GridSecurity.Text.Printable

/-!
# Quoted texts

A quoted text stands between quotation marks.  Inside it quotation marks,
backslashes and the common controls have an escape of two characters; other
characters that would not show themselves are written by their code point.
-/

namespace GridSecurity.Text

/-- The code point of a character in hexadecimal digits between braces. -/
def codePointEscape (character : Char) : List Char :=
  '\\' :: 'u' :: '\x7b' :: (Nat.toDigits 16 character.toNat ++ ['\x7d'])

/-- The form of one character inside a quoted text. -/
def quotedChar (character : Char) : List Char :=
  match character with
  | '\x00' => ['\\', '0']
  | '\t' => ['\\', 't']
  | '\r' => ['\\', 'r']
  | '\n' => ['\\', 'n']
  | '"' => ['\\', '"']
  | '\\' => ['\\', '\\']
  | _ =>
      if isPrintable character && !isGraphemeExtender character then [character]
      else codePointEscape character

/-- A text between quotation marks. -/
def quoted (text : String) : String :=
  String.ofList ('"' :: (text.toList.flatMap quotedChar ++ ['"']))

end GridSecurity.Text
