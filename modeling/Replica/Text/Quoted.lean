import Replica.Text.Undrawn
import Replica.Text.Hex

/-!
# Quoted text

A text as it stands in a message: between double quotes, with a short escape for the quote, the
backslash and the four commonest controls, and `\u{hex}` for every other character that is not
drawn by itself.
-/

namespace Replica.Text

/-- One character of a quoted text. -/
def quotedChar (c : Char) : List Char :=
  match c with
  | '"' => ['\\', '"']
  | '\\' => ['\\', '\\']
  | '\t' => ['\\', 't']
  | '\r' => ['\\', 'r']
  | '\n' => ['\\', 'n']
  | '\x00' => ['\\', '0']
  | c =>
    if isUndrawn c then ['\\', 'u', '\x7b'] ++ hexDigits c.toNat ++ ['\x7d'] else [c]

/-- A text between double quotes, with escapes. -/
def quoted (s : String) : String :=
  String.ofList ('"' :: s.toList.flatMap quotedChar ++ ['"'])

end Replica.Text
