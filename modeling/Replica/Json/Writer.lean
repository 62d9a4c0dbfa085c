import Replica.Json.Basic
import Replica.Json.Double
import Replica.Text.Hex

/-!
# Writing JSON

`Json.render` writes a value without blanks.  Strings escape the quote, the backslash and the
controls; all other characters stand as they are.  What is unfit is written as null.
-/

namespace Replica.Json

/-- One character of a string. -/
def escapedChar (c : Char) : List Char :=
  match c with
  | '"' => ['\\', '"']
  | '\\' => ['\\', '\\']
  | '\n' => ['\\', 'n']
  | '\r' => ['\\', 'r']
  | '\t' => ['\\', 't']
  | c => if c.toNat < 0x20 then ['\\', 'u'] ++ Text.paddedHexDigits 4 c.toNat else [c]

/-- A string between quotes. -/
def renderString (s : String) : List Char := '"' :: s.toList.flatMap escapedChar ++ ['"']

mutual

/-- The characters of a value. -/
def renderChars : Json → List Char
  | .null | .unfit => ['n', 'u', 'l', 'l']
  | .bool b => (toString b).toList
  | .int n => (toString n).toList
  | .double bits => (doubleText bits).toList
  | .str s => renderString s
  | .arr xs => '[' :: renderElements xs ++ [']']
  | .obj fields => '\x7b' :: renderFields fields ++ ['\x7d']

/-- The elements of an array, with commas between. -/
def renderElements : List Json → List Char
  | [] => []
  | [x] => renderChars x
  | x :: xs => renderChars x ++ ',' :: renderElements xs

/-- The fields of an object, with commas between. -/
def renderFields : List (String × Json) → List Char
  | [] => []
  | [(k, x)] => renderString k ++ ':' :: renderChars x
  | (k, x) :: fs => renderString k ++ ':' :: renderChars x ++ ',' :: renderFields fs

end

/-- The text of a value. -/
def render (j : Json) : String := String.ofList (renderChars j)

end Replica.Json
