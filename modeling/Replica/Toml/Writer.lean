import Replica.Text.Hex

/-!
# Writing TOML strings

A string is written in the form that needs no escape, if there is one: between double quotes, between
single quotes, and so on with threefold quotes.  Otherwise it stands between double quotes with
escapes, threefold ones if it has several lines.
-/

namespace Replica.Toml

/-- Whether a character cannot stand unescaped anywhere: a control other than tab and line feed. -/
def isControl (c : Char) : Bool :=
  (c.toNat < 0x20 && c != '\t' && c != '\n') || c.toNat == 0x7F

/-- The lengths of the longest run of a character and of the one at the end, after one character
more. -/
def countRun (q : Char) (runs : Nat × Nat) (c : Char) : Nat × Nat :=
  if c == q then (max runs.1 (runs.2 + 1), runs.2 + 1) else (runs.1, 0)

/-- The length of the longest run of a character. -/
def longestRun (q : Char) (cs : List Char) : Nat := (cs.foldl (countRun q) (0, 0)).1

/-- The forms a string can take. -/
inductive StringForm where
  | basic
  | literal
  | basicLines
  | literalLines
  deriving DecidableEq

/-- The form for a text: the first one that needs no escape. -/
def stringForm (cs : List Char) : StringForm :=
  let control := cs.any isControl
  let newline := cs.contains '\n'
  let backslash := cs.contains '\\'
  if !cs.contains '"' && !backslash && !newline && !control then .basic
  else if !cs.contains '\'' && !newline && !control then .literal
  else if !backslash && !control && longestRun '"' cs < 3 then .basicLines
  else if !control && longestRun '\'' cs < 3 then .literalLines
  else if newline then .basicLines
  else .basic

/-- A character other than a quote between double quotes. -/
def escapeChar (lines : Bool) (c : Char) : List Char :=
  match c with
  | '\\' => ['\\', '\\']
  | '\x08' => ['\\', 'b']
  | '\t' => ['\\', 't']
  | '\x0c' => ['\\', 'f']
  | '\r' => ['\\', 'r']
  | '\n' => if lines then ['\n'] else ['\\', 'n']
  | c => if isControl c then ['\\', 'u'] ++ Text.paddedHexDigits 4 c.toNat else [c]

/-- A text between double quotes on one line. -/
def escapeBasic (cs : List Char) : List Char :=
  cs.flatMap fun c => if c == '"' then ['\\', '"'] else escapeChar false c

/-- A text between threefold double quotes; `run` counts the quotes just before, of which every third
is escaped. -/
def escapeLines (run : Nat) : List Char → List Char
  | [] => []
  | '"' :: cs =>
    if run = 2 then '\\' :: '"' :: escapeLines 0 cs else '"' :: escapeLines (run + 1) cs
  | c :: cs => escapeChar true c ++ escapeLines 0 cs

/-- A string with its quotes. -/
def renderString (s : String) : String :=
  let cs := s.toList
  let lead := if cs.contains '\n' then ['\n'] else []
  let q := ['"', '"', '"']
  let l := ['\'', '\'', '\'']
  String.ofList <| match stringForm cs with
    | .basic => '"' :: escapeBasic cs ++ ['"']
    | .literal => '\'' :: cs ++ ['\'']
    | .basicLines => q ++ lead ++ escapeLines 0 cs ++ q
    | .literalLines => l ++ lead ++ cs ++ l

end Replica.Toml
